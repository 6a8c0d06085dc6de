import TypedObject.Proofs.Message.Framing

/-!
# Why an input is not a message

Every input begins with the frame of at most one message, since the type at its front
decides how the payload is read and the payload shows where it ends.  So an input of a
known type that is not too large either is a frame, or has something behind a frame, or
has no frame at its front; the causes of failure tell these cases apart, and the ones
that are decided before the payload is looked at.
-/

namespace TypedObject

/-- The byte is one of the nine that begin a message. -/
def MessageType.InRange (type : MessageType) : Prop :=
  1 ≤ type.code.toNat ∧ type.code.toNat ≤ 9

theorem MessageType.isKnown_iff {type : MessageType} : type.isKnown = true ↔ type.InRange := by
  unfold isKnown name? InRange
  split
  case h_10 =>
    simp only [imp_false] at *
    rw [Option.isSome_none, iff_false_left Bool.false_ne_true]
    omega
  all_goals
    rename_i same
    rw [same]
    decide

theorem Payload.isSome_body? (type : MessageType) : (body? type).isSome = type.isKnown := by
  unfold body? MessageType.isKnown MessageType.name?
  split <;> simp_all

namespace Message

open Payload

variable {maximum : Nat} {data : Bytes} {message message' : Message}

/-- Some message is read from the input. -/
def Decodes (maximum : Nat) (input : Bytes) : Prop := ∃ message, decode maximum input = .ok message

/-- At most one message has its frame at the front of an input, since both payloads are
read from one supply by the body of one type. -/
theorem eq_of_frames_in_front
    (countable : message.Countable) (countable' : message'.Countable)
    (front : message.frame <+: data) (front' : message'.frame <+: data) : message = message' := by
  obtain ⟨behind, rfl⟩ := front
  obtain ⟨behind', same⟩ := front'
  rw [frame, frame, List.cons_append, List.cons_append, List.cons.injEq] at same
  obtain ⟨sameCode, samePayload⟩ := same
  have yields : Supply.Yields ⟨message.payload ++ behind, (message.payload ++ behind).length⟩
      message.payload ⟨behind, behind.length⟩ := ⟨rfl, List.length_append⟩
  have yields' : Supply.Yields ⟨message.payload ++ behind, (message.payload ++ behind).length⟩
      message'.payload ⟨behind', behind'.length⟩ := by
    rw [← samePayload]
    exact ⟨rfl, List.length_append⟩
  obtain ⟨body, known, read⟩ := exists_body_of_yields countable yields
  obtain ⟨body', known', read'⟩ := exists_body_of_yields countable' yields'
  rw [type, sameCode, ← type, known] at known'
  cases known'
  rw [read] at read'
  exact congrArg Prod.fst (Except.ok.inj read')

theorem decodes_frame
    (countable : message.Countable) (small : message.frame.length ≤ maximum) :
    Decodes maximum message.frame :=
  ⟨message, decode_frame countable small⟩

theorem Decodes.exists_frame {input : Bytes} (decodes : Decodes maximum input) :
    ∃ message : Message, message.Countable ∧ input = message.frame := by
  obtain ⟨message, decoded⟩ := decodes
  obtain ⟨_, countable, same⟩ := decode_eq_ok_iff.mp decoded
  exact ⟨message, countable, same⟩

theorem decode_of_large (nonempty : data ≠ []) (large : maximum < data.length) :
    decode maximum data = .error (.tooLarge data.length maximum) := by
  cases data with
  | nil => exact absurd rfl nonempty
  | cons code payload => exact if_pos large

theorem decode_of_small
    {code : UInt8} {payload : Bytes} (small : (code :: payload).length ≤ maximum) :
    decode maximum (code :: payload) =
      match body? ⟨code⟩ with
      | none => .error (.unknownType ⟨code⟩)
      | some body =>
        match body.run ⟨payload, maximum⟩ with
        | .error error => .error (.payload error)
        | .ok (message, supply) =>
          if supply.rest.isEmpty then .ok message
          else .error (.incomplete ((code :: payload).length - supply.rest.length)
            (code :: payload).length) :=
  if_neg (Nat.not_lt.mpr small)

theorem decode_of_unknown
    {type : MessageType} (small : data.length ≤ maximum) (first : data.head? = some type.code)
    (unknown : ¬type.InRange) : decode maximum data = .error (.unknownType type) := by
  obtain ⟨payload, rfl⟩ := List.head?_eq_some_iff.mp first
  have none : body? type = none := by
    rw [← MessageType.isKnown_iff, ← isSome_body?, Bool.not_eq_true, Option.isSome_eq_false_iff,
      Option.isNone_iff_eq_none] at unknown
    exact unknown
  rw [decode_of_small small, none]

/-- Something behind the frame of a message makes the input incomplete. -/
theorem decode_frame_append
    (countable : message.Countable) {behind : Bytes} (nonempty : behind ≠ [])
    (small : (message.frame ++ behind).length ≤ maximum) :
    decode maximum (message.frame ++ behind) =
      .error (.incomplete message.frame.length (message.frame ++ behind).length) := by
  have enough : message.payload.length ≤ maximum := by
    rw [List.length_append, length_frame] at small
    omega
  have yields : Supply.Yields ⟨message.payload ++ behind, maximum⟩ message.payload
      ⟨behind, maximum - message.payload.length⟩ := ⟨rfl, (Nat.add_sub_cancel' enough).symm⟩
  obtain ⟨body, known, read⟩ := exists_body_of_yields countable yields
  rw [type] at known
  have notEmpty : behind.isEmpty = false := List.isEmpty_eq_false_iff.mpr nonempty
  rw [frame, List.cons_append] at small ⊢
  rw [decode_of_small small, known]
  dsimp only
  rw [read]
  dsimp only
  rw [notEmpty]
  simp only [Bool.false_eq_true, if_false, List.length_cons, List.length_append]
  congr 2
  omega

/-- Without a frame at its front, an input of a known type fails in its payload. -/
theorem exists_payload_error
    {type : MessageType} (small : data.length ≤ maximum) (first : data.head? = some type.code)
    (known : type.InRange)
    (noFrame : ∀ message : Message, message.Countable → ¬message.frame <+: data) :
    ∃ error, decode maximum data = .error (.payload error) := by
  obtain ⟨payload, rfl⟩ := List.head?_eq_some_iff.mp first
  rw [← MessageType.isKnown_iff, ← isSome_body?] at known
  obtain ⟨body, isBody⟩ := Option.isSome_iff_exists.mp known
  rw [decode_of_small small, isBody]
  dsimp only
  cases read : body.run ⟨payload, maximum⟩ with
  | error error => exact ⟨error, rfl⟩
  | ok result =>
      obtain ⟨message, left⟩ := result
      obtain ⟨rfl, countable, taken, _⟩ := yields_of_body isBody read
      dsimp only at taken
      refine absurd ⟨left.rest, ?_⟩ (noFrame message countable)
      rw [taken]
      rfl

/-- What an input is: a frame, a frame with something behind it, or neither. -/
inductive Answered (maximum : Nat) : Bytes → Except MessageError Message → Prop where
  | message {message : Message} (countable : message.Countable)
      (small : message.frame.length ≤ maximum) : Answered maximum message.frame (.ok message)
  | empty : Answered maximum [] (.error .empty)
  | tooLarge {data : Bytes} (nonempty : data ≠ []) (large : maximum < data.length) :
      Answered maximum data (.error (.tooLarge data.length maximum))
  | unknownType {data : Bytes} {type : MessageType} (small : data.length ≤ maximum)
      (first : data.head? = some type.code) (unknown : ¬type.InRange) :
      Answered maximum data (.error (.unknownType type))
  | incomplete {message : Message} {behind : Bytes} (countable : message.Countable)
      (nonempty : behind ≠ []) (small : (message.frame ++ behind).length ≤ maximum) :
      Answered maximum (message.frame ++ behind)
        (.error (.incomplete message.frame.length (message.frame ++ behind).length))
  | payload {data : Bytes} {type : MessageType} {error : PayloadError}
      (small : data.length ≤ maximum) (first : data.head? = some type.code)
      (known : type.InRange)
      (noFrame : ∀ message : Message, message.Countable → ¬message.frame <+: data) :
      Answered maximum data (.error (.payload error))

/-- Every input is answered as what it is. -/
theorem answered_decode (maximum : Nat) (data : Bytes) :
    Answered maximum data (decode maximum data) := by
  cases data with
  | nil => exact .empty
  | cons code payload =>
      have nonempty := List.cons_ne_nil code payload
      by_cases large : maximum < (code :: payload).length
      · rw [decode_of_large nonempty large]
        exact .tooLarge nonempty large
      · have small := Nat.le_of_not_lt large
        by_cases known : MessageType.InRange ⟨code⟩
        · by_cases framed : ∃ message : Message,
              message.Countable ∧ message.frame <+: code :: payload
          · obtain ⟨message, countable, behind, same⟩ := framed
            rw [← same] at small ⊢
            cases behind with
            | nil =>
                rw [List.append_nil] at small ⊢
                rw [decode_frame countable small]
                exact .message countable small
            | cons next behind =>
                rw [decode_frame_append countable (List.cons_ne_nil _ _) small]
                exact .incomplete countable (List.cons_ne_nil _ _) small
          · have noFrame : ∀ message : Message, message.Countable →
                ¬message.frame <+: code :: payload :=
              fun message countable front => framed ⟨message, countable, front⟩
            obtain ⟨error, failed⟩ := exists_payload_error small rfl known noFrame
            rw [failed]
            exact .payload small rfl known noFrame
        · rw [decode_of_unknown small rfl known]
          exact .unknownType small rfl known

theorem decode_eq_empty_iff : decode maximum data = .error .empty ↔ data = [] := by
  constructor
  · intro failed
    have answered := answered_decode maximum data
    rw [failed] at answered
    cases answered
    rfl
  · rintro rfl
    rfl

theorem decode_eq_tooLarge_iff {size limit : Nat} :
    decode maximum data = .error (.tooLarge size limit) ↔
      data ≠ [] ∧ maximum < data.length ∧ size = data.length ∧ limit = maximum := by
  constructor
  · intro failed
    have answered := answered_decode maximum data
    rw [failed] at answered
    cases answered with
    | tooLarge nonempty large => exact ⟨nonempty, large, rfl, rfl⟩
  · intro found
    obtain ⟨nonempty, large, rfl, rfl⟩ := found
    exact decode_of_large nonempty large

theorem decode_eq_unknownType_iff {type : MessageType} :
    decode maximum data = .error (.unknownType type) ↔
      data.length ≤ maximum ∧ data.head? = some type.code ∧ ¬type.InRange := by
  constructor
  · intro failed
    have answered := answered_decode maximum data
    rw [failed] at answered
    cases answered with
    | unknownType small first unknown => exact ⟨small, first, unknown⟩
  · intro found
    obtain ⟨small, first, unknown⟩ := found
    exact decode_of_unknown small first unknown

theorem decode_eq_incomplete_iff {consumed total : Nat} :
    decode maximum data = .error (.incomplete consumed total) ↔
      data.length ≤ maximum ∧ total = data.length ∧ consumed < total ∧
        Decodes maximum (data.take consumed) := by
  constructor
  · intro failed
    have answered := answered_decode maximum data
    rw [failed] at answered
    cases answered with
    | incomplete countable nonempty small =>
        have more := List.length_pos_iff.mpr nonempty
        rw [List.length_append] at small
        rw [List.length_append, List.take_left]
        exact ⟨small, rfl, Nat.lt_add_of_pos_right more,
          decodes_frame countable (Nat.le_of_add_right_le small)⟩
  · intro found
    obtain ⟨small, rfl, less, decodes⟩ := found
    obtain ⟨message, countable, same⟩ := decodes.exists_frame
    have length : message.frame.length = consumed := by
      rw [← same, List.length_take_of_le (Nat.le_of_lt less)]
    have nonempty : data.drop consumed ≠ [] := by
      rw [Ne, List.drop_eq_nil_iff]
      exact Nat.not_le.mpr less
    have whole : message.frame ++ data.drop consumed = data := by
      rw [← same, List.take_append_drop]
    rw [← whole] at small
    have failed := decode_frame_append countable nonempty small
    rw [whole, length] at failed
    exact failed

theorem exists_decode_eq_payload_iff :
    (∃ error, decode maximum data = .error (.payload error)) ↔
      data.length ≤ maximum ∧ (∃ type : MessageType, data.head? = some type.code ∧ type.InRange) ∧
        ∀ part, part <+: data → ¬Decodes maximum part := by
  constructor
  · intro found
    obtain ⟨error, failed⟩ := found
    have answered := answered_decode maximum data
    rw [failed] at answered
    cases answered with
    | payload small first known noFrame =>
        refine ⟨small, ⟨_, first, known⟩, ?_⟩
        intro part front decodes
        obtain ⟨message, countable, rfl⟩ := decodes.exists_frame
        exact noFrame message countable front
  · intro found
    obtain ⟨small, ⟨type, first, known⟩, none⟩ := found
    apply exists_payload_error small first known
    intro message countable front
    exact none message.frame front (decodes_frame countable (Nat.le_trans front.length_le small))

theorem eq_of_decoding_fronts
    {part part' : Bytes} (front : part <+: data) (front' : part' <+: data)
    (decodes : Decodes maximum part) (decodes' : Decodes maximum part') : part = part' := by
  obtain ⟨message, countable, rfl⟩ := decodes.exists_frame
  obtain ⟨message', countable', rfl⟩ := decodes'.exists_frame
  rw [eq_of_frames_in_front countable countable' front front']

theorem peekType_of_head
    {type : MessageType} (first : data.head? = some type.code) (known : type.InRange) :
    peekType data = .ok type := by
  obtain ⟨payload, rfl⟩ := List.head?_eq_some_iff.mp first
  exact if_pos (MessageType.isKnown_iff.mpr known)

/-- The outcome of reading says what the input is: each cause of failure stands for one
kind of input, no input is of none of the kinds, and the part that an incomplete reading
has consumed is the only part at the front that is a message. -/
theorem decode_classifies (maximum : Nat) (data : Bytes) :
    (decode maximum data = .error .empty ↔ data = []) ∧
    (∀ size limit, decode maximum data = .error (.tooLarge size limit) ↔
      data ≠ [] ∧ maximum < data.length ∧ size = data.length ∧ limit = maximum) ∧
    (∀ type, decode maximum data = .error (.unknownType type) ↔
      data.length ≤ maximum ∧ data.head? = some type.code ∧ ¬type.InRange) ∧
    (∀ consumed total, decode maximum data = .error (.incomplete consumed total) ↔
      data.length ≤ maximum ∧ total = data.length ∧ consumed < total ∧
        Decodes maximum (data.take consumed)) ∧
    ((∃ error, decode maximum data = .error (.payload error)) ↔
      data.length ≤ maximum ∧ (∃ type : MessageType, data.head? = some type.code ∧ type.InRange) ∧
        ∀ part, part <+: data → ¬Decodes maximum part) ∧
    (Decodes maximum data ∨ data = [] ∨ (data ≠ [] ∧ maximum < data.length) ∨
      (data.length ≤ maximum ∧
        ((∃ type : MessageType, data.head? = some type.code ∧ ¬type.InRange) ∨
          (∃ consumed, consumed < data.length ∧ Decodes maximum (data.take consumed)) ∨
          ((∃ type : MessageType, data.head? = some type.code ∧ type.InRange) ∧
            ∀ part, part <+: data → ¬Decodes maximum part)))) ∧
    (∀ part part', part <+: data → part' <+: data → Decodes maximum part → Decodes maximum part' →
      part = part') ∧
    ∀ type, data.head? = some type.code → type.InRange → peekType data = .ok type := by
  refine ⟨decode_eq_empty_iff, fun _ _ => decode_eq_tooLarge_iff,
    fun _ => decode_eq_unknownType_iff, fun _ _ => decode_eq_incomplete_iff,
    exists_decode_eq_payload_iff, ?_, fun _ _ => eq_of_decoding_fronts, fun _ => peekType_of_head⟩
  cases outcome : decode maximum data with
  | ok message => exact .inl ⟨message, outcome⟩
  | error error =>
      right
      cases error with
      | empty => exact .inl (decode_eq_empty_iff.mp outcome)
      | tooLarge size limit =>
          obtain ⟨nonempty, large, _⟩ := decode_eq_tooLarge_iff.mp outcome
          exact .inr (.inl ⟨nonempty, large⟩)
      | unknownType type =>
          obtain ⟨small, unknown⟩ := decode_eq_unknownType_iff.mp outcome
          exact .inr (.inr ⟨small, .inl ⟨type, unknown⟩⟩)
      | incomplete consumed total =>
          obtain ⟨small, rfl, decodes⟩ := decode_eq_incomplete_iff.mp outcome
          exact .inr (.inr ⟨small, .inr (.inl ⟨consumed, decodes⟩)⟩)
      | payload error =>
          obtain ⟨small, refused⟩ := exists_decode_eq_payload_iff.mp ⟨error, outcome⟩
          exact .inr (.inr ⟨small, .inr (.inr refused)⟩)

/-- Behind a message of ten bytes stands one more byte, and no other part at the front is a
message; a length that no input has leaves nothing at the front that is one. -/
theorem decode_data_extended_and_vast :
    decode 16 [7, 1, 0, 0, 0, 0, 0, 0, 0, 42, 43] = .error (.incomplete 10 11) ∧
    (∀ part, part <+: [7, 1, 0, 0, 0, 0, 0, 0, 0, 42, 43] → Decodes 16 part →
      part = [7, 1, 0, 0, 0, 0, 0, 0, 0, 42]) ∧
    (∀ part, part <+: 7 :: List.replicate 8 255 → ¬Decodes 16 part) ∧
    peekType (7 :: List.replicate 8 255) = .ok ⟨7⟩ := by
  obtain ⟨_, _, _, incomplete, _, _, unique, _⟩ :=
    decode_classifies 16 [7, 1, 0, 0, 0, 0, 0, 0, 0, 42, 43]
  obtain ⟨_, _, _, _, refused, _, _, peeked⟩ := decode_classifies 16 (7 :: List.replicate 8 255)
  have whole : Decodes 16 [7, 1, 0, 0, 0, 0, 0, 0, 0, 42] := ⟨.data [42], rfl⟩
  refine ⟨(incomplete 10 11).mpr ⟨by decide, rfl, by decide, whole⟩, ?_, ?_, ?_⟩
  · intro part front decodes
    exact unique part _ front (by decide) decodes whole
  · exact (refused.mp ⟨.inputEnded, rfl⟩).2.2
  · exact peeked _ rfl ⟨by decide, by decide⟩

end Message

end TypedObject
