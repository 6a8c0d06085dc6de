import TypedObject.Message.Codec
import TypedObject.Offset
import TypedObject.Proofs.Outcome
import TypedObject.Proofs.Wire.References

/-!
# Messages and their frames

A payload step takes a written form from the front of its supply and pays for it from
the allowance; it succeeds on nothing else.  Steps in sequence take and pay for the
concatenation, so the body of a message is read exactly when the supply begins with its
payload and allows for it.  Since a frame is one byte longer than its payload, the
allowance never runs out on a message that is not larger than the maximum, and writing
and reading accept the same pairs of messages and bytes.
-/

namespace TypedObject

namespace Payload

variable {α β : Type}

/-- The content stands at the front of a supply that allows for it, and `left` remains
when it is taken. -/
structure Supply.Yields (supply : Supply) (content : Bytes) (left : Supply) : Prop where
  rest : supply.rest = content ++ left.rest
  allowance : supply.allowance = content.length + left.allowance

namespace Supply

theorem yields_nil_iff {supply left : Supply} : supply.Yields [] left ↔ supply = left := by
  obtain ⟨rest, allowance⟩ := supply
  constructor
  · intro yields
    obtain ⟨rfl, rfl⟩ := yields
    rw [List.length_nil, Nat.zero_add]
    rfl
  · rintro rfl
    exact ⟨rfl, (Nat.zero_add _).symm⟩

theorem yields_append_iff {supply left : Supply} {first second : Bytes} :
    supply.Yields (first ++ second) left ↔
      ∃ middle, supply.Yields first middle ∧ middle.Yields second left := by
  constructor
  · intro yields
    obtain ⟨rest, allowance⟩ := yields
    rw [List.append_assoc] at rest
    rw [List.length_append, Nat.add_assoc] at allowance
    exact ⟨⟨second ++ left.rest, second.length + left.allowance⟩, ⟨rest, allowance⟩, rfl, rfl⟩
  · intro found
    obtain ⟨middle, ⟨rest, allowance⟩, rest', allowance'⟩ := found
    refine ⟨?_, ?_⟩
    · rw [rest, rest', List.append_assoc]
    · rw [allowance, allowance', List.length_append, Nat.add_assoc]

/-- So many bytes can be taken exactly when the allowance and the rest reach for them. -/
theorem exists_yields_iff {supply : Supply} {size : Nat} {content : Bytes} {left : Supply} :
    content.length = size ∧ supply.Yields content left ↔
      (size ≤ supply.allowance ∧ size ≤ supply.rest.length) ∧
        supply.rest.take size = content ∧
        (⟨supply.rest.drop size, supply.allowance - size⟩ : Supply) = left := by
  obtain ⟨rest, allowance⟩ := supply
  constructor
  · intro found
    obtain ⟨rfl, taken, paid⟩ := found
    dsimp only at taken paid ⊢
    subst taken paid
    rw [List.take_left, List.drop_left, Nat.add_sub_cancel_left, List.length_append]
    exact ⟨⟨Nat.le_add_right _ _, Nat.le_add_right _ _⟩, rfl, rfl⟩
  · intro found
    obtain ⟨⟨allowed, enough⟩, rfl, rfl⟩ := found
    dsimp only at allowed enough ⊢
    have length : (rest.take size).length = size := List.length_take_of_le enough
    refine ⟨length, (List.take_append_drop _ _).symm, ?_⟩
    dsimp only
    omega

end Supply

variable {supply left : Supply}

theorem pure_run_eq_ok_iff {value value' : α} :
    (pure value : Step α).run supply = .ok (value', left) ↔ value = value' ∧ supply = left := by
  rw [StateT.run_pure, Outcome.pure_eq_ok_iff, Prod.mk.injEq]

theorem bind_run_eq_ok_iff {step : Step α} {next : α → Step β} {value : β} :
    (step >>= next).run supply = .ok (value, left) ↔
      ∃ first middle, step.run supply = .ok (first, middle) ∧
        (next first).run middle = .ok (value, left) := by
  rw [StateT.run_bind, Outcome.bind_eq_ok_iff]
  exact Prod.exists

theorem make_run_eq_ok_iff {step : Step α} {make : α → β} {value : β} :
    (do return make (← step) : Step β).run supply = .ok (value, left) ↔
      ∃ part, step.run supply = .ok (part, left) ∧ make part = value := by
  simp only [bind_run_eq_ok_iff, pure_run_eq_ok_iff]
  constructor
  · intro found
    obtain ⟨part, middle, read, same, rfl⟩ := found
    exact ⟨part, read, same⟩
  · intro found
    obtain ⟨part, read, same⟩ := found
    exact ⟨part, left, read, same, rfl⟩

theorem bytes_eq_ok_iff {size : Nat} {content : Bytes} :
    (bytes size).run supply = .ok (content, left) ↔
      content.length = size ∧ supply.Yields content left := by
  rw [Supply.exists_yields_iff, StateT.run, bytes]
  split
  · rename_i enough
    rw [Except.ok.injEq, Prod.mk.injEq, and_iff_right enough]
  · rename_i short
    rw [iff_false_right fun found => short found.1]
    split <;> exact nofun

theorem number_eq_ok_iff {number : Nat} :
    Payload.number.run supply = .ok (number, left) ↔
      number < Bytes.range 8 ∧ supply.Yields (Bytes.ofNat 8 number) left := by
  constructor
  · intro read
    rw [StateT.run, Payload.number] at read
    split at read
    · cases read
    · split at read
      · cases read
      · rename_i allowed enough
        obtain ⟨rfl, rfl⟩ := Prod.mk.inj (Except.ok.inj read)
        obtain ⟨length, yields⟩ := Supply.exists_yields_iff.mpr
          ⟨⟨Nat.le_of_not_lt allowed, Nat.le_of_not_lt enough⟩, rfl, rfl⟩
        have written := Bytes.ofNat_toNat (supply.rest.take 8)
        have fits := Bytes.toNat_lt (supply.rest.take 8)
        rw [length] at written fits
        rw [written]
        exact ⟨fits, yields⟩
  · intro found
    obtain ⟨fits, yields⟩ := found
    obtain ⟨⟨allowed, enough⟩, taken, rest⟩ :=
      Supply.exists_yields_iff.mp ⟨Bytes.length_ofNat 8 number, yields⟩
    rw [StateT.run, Payload.number, if_neg (Nat.not_lt.mpr allowed),
      if_neg (Nat.not_lt.mpr enough), taken, rest, Bytes.toNat_ofNat_of_lt fits]

theorem sized_eq_ok_iff {content : Bytes} :
    sized.run supply = .ok (content, left) ↔
      content.length < Bytes.range 8 ∧ supply.Yields (encodeSized content) left := by
  rw [sized, bind_run_eq_ok_iff, encodeSized, Supply.yields_append_iff]
  simp only [number_eq_ok_iff, bytes_eq_ok_iff]
  constructor
  · intro found
    obtain ⟨size, middle, ⟨fits, counted⟩, rfl, yields⟩ := found
    exact ⟨fits, middle, counted, yields⟩
  · intro found
    obtain ⟨fits, middle, counted, yields⟩ := found
    exact ⟨content.length, middle, ⟨fits, counted⟩, rfl, yields⟩

theorem digest_eq_ok_iff {digest : Digest} :
    Payload.digest.run supply = .ok (digest, left) ↔ supply.Yields digest.bytes left := by
  rw [Payload.digest, bind_run_eq_ok_iff]
  simp only [bytes_eq_ok_iff]
  constructor
  · intro found
    obtain ⟨content, middle, ⟨length, yields⟩, made⟩ := found
    unfold Digest.ofBytes at made
    rw [dif_pos length] at made
    obtain ⟨rfl, rfl⟩ := pure_run_eq_ok_iff.mp made
    exact yields
  · intro yields
    refine ⟨digest.bytes, left, ⟨digest.length_eq, yields⟩, ?_⟩
    unfold Digest.ofBytes
    rw [dif_pos digest.length_eq]
    rfl

end Payload

/-- The byte strings of a signed root can be counted in eight bytes. -/
def Root.Countable (signed : Root) : Prop :=
  signed.root.length < Bytes.range 8 ∧ signed.sig.length < Bytes.range 8

/-- What stands in a payload for a signed root. -/
def Root.written (signed : Root) : Bytes :=
  Payload.encodeSized signed.root ++ (signed.hash.bytes ++ (Payload.encodeSized signed.sig ++
    (Bytes.ofNat 8 signed.seq.toNat ++ signed.prev.bytes)))

namespace Payload

variable {supply left : Supply}

theorem root_eq_ok_iff {signed : Root} :
    Payload.root.run supply = .ok (signed, left) ↔
      signed.Countable ∧ supply.Yields signed.written left := by
  unfold Payload.root Root.written
  simp only [bind_run_eq_ok_iff, sized_eq_ok_iff, digest_eq_ok_iff, number_eq_ok_iff,
    pure_run_eq_ok_iff, Supply.yields_append_iff]
  constructor
  · intro found
    obtain ⟨root, afterRoot, ⟨rootFits, yieldsRoot⟩, hash, afterHash, yieldsHash, sig, afterSig,
      ⟨sigFits, yieldsSig⟩, seq, afterSeq, ⟨seqFits, yieldsSeq⟩, prev, afterPrev, yieldsPrev,
      rfl, rfl⟩ := found
    have kept : (UInt64.ofNat seq).toNat = seq := UInt64.toNat_ofNat_of_lt' seqFits
    refine ⟨⟨rootFits, sigFits⟩, afterRoot, yieldsRoot, afterHash, yieldsHash, afterSig, yieldsSig,
      afterSeq, ?_, yieldsPrev⟩
    rw [kept]
    exact yieldsSeq
  · intro found
    obtain ⟨⟨rootFits, sigFits⟩, afterRoot, yieldsRoot, afterHash, yieldsHash, afterSig, yieldsSig,
      afterSeq, yieldsSeq, yieldsPrev⟩ := found
    refine ⟨signed.root, afterRoot, ⟨rootFits, yieldsRoot⟩, signed.hash.digest, afterHash,
      yieldsHash, signed.sig, afterSig, ⟨sigFits, yieldsSig⟩, signed.seq.toNat, afterSeq,
      ⟨signed.seq.toNat_lt, yieldsSeq⟩, signed.prev.digest, left, yieldsPrev, ?_, rfl⟩
    rw [UInt64.ofNat_toNat]

end Payload

namespace Message

open Payload

/-- Every byte string in the message can be counted in eight bytes. -/
def Countable : Message → Prop
  | root _ signed => signed.Countable
  | data content | registry content => content.length < Bytes.range 8
  | _ => True

theorem payload_root (feed : FeedId) (signed : Root) :
    (root feed signed).payload = feed.key.bytes ++ signed.written := by
  simp only [payload, Root.written, List.append_assoc]

theorem countable_of_length
    {message : Message} (short : message.payload.length < Bytes.range 8) :
    message.Countable := by
  cases message with
  | root feed signed =>
      simp only [payload, encodeSized, List.length_append] at short
      exact ⟨by omega, by omega⟩
  | data content =>
      simp only [payload, encodeSized, List.length_append] at short
      exact Nat.lt_of_le_of_lt (Nat.le_add_left _ _) short
  | registry content =>
      simp only [payload, encodeSized, List.length_append] at short
      exact Nat.lt_of_le_of_lt (Nat.le_add_left _ _) short
  | _ => trivial

/-- Whatever the body of a type reads is a message of that type, and its payload. -/
theorem yields_of_body
    {type : MessageType} {body : Step Message} (known : body? type = some body)
    {supply left : Supply} {message : Message} (read : body.run supply = .ok (message, left)) :
    message.type = type ∧ message.Countable ∧ supply.Yields message.payload left := by
  have sameType {code : UInt8} (same : type.code.toNat = code.toNat) : ⟨code⟩ = type := by
    rw [UInt8.toNat_inj.mp same.symm]
  unfold body? at known
  split at known <;> cases known
  case h_1 same =>
    obtain ⟨rfl, rfl⟩ := pure_run_eq_ok_iff.mp read
    exact ⟨sameType same, trivial, Supply.yields_nil_iff.mpr rfl⟩
  case h_2 same =>
    obtain ⟨rfl, rfl⟩ := pure_run_eq_ok_iff.mp read
    exact ⟨sameType same, trivial, Supply.yields_nil_iff.mpr rfl⟩
  case h_3 same =>
    obtain ⟨key, readKey, rfl⟩ := make_run_eq_ok_iff.mp read
    exact ⟨sameType same, trivial, digest_eq_ok_iff.mp readKey⟩
  case h_4 same =>
    obtain ⟨key, readKey, rfl⟩ := make_run_eq_ok_iff.mp read
    exact ⟨sameType same, trivial, digest_eq_ok_iff.mp readKey⟩
  case h_5 same =>
    obtain ⟨key, middle, readKey, continued⟩ := bind_run_eq_ok_iff.mp read
    obtain ⟨signed, readRoot, rfl⟩ := make_run_eq_ok_iff.mp continued
    obtain ⟨countable, yields⟩ := root_eq_ok_iff.mp readRoot
    refine ⟨sameType same, countable, ?_⟩
    rw [payload_root]
    exact Supply.yields_append_iff.mpr ⟨middle, digest_eq_ok_iff.mp readKey, yields⟩
  case h_6 same =>
    obtain ⟨key, readKey, rfl⟩ := make_run_eq_ok_iff.mp read
    exact ⟨sameType same, trivial, digest_eq_ok_iff.mp readKey⟩
  case h_7 same =>
    obtain ⟨content, readContent, rfl⟩ := make_run_eq_ok_iff.mp read
    exact ⟨sameType same, sized_eq_ok_iff.mp readContent⟩
  case h_8 same =>
    obtain ⟨key, readKey, rfl⟩ := make_run_eq_ok_iff.mp read
    exact ⟨sameType same, trivial, digest_eq_ok_iff.mp readKey⟩
  case h_9 same =>
    obtain ⟨content, readContent, rfl⟩ := make_run_eq_ok_iff.mp read
    exact ⟨sameType same, sized_eq_ok_iff.mp readContent⟩

/-- The body of the type of a message reads the message from its payload. -/
theorem exists_body_of_yields
    {message : Message} (countable : message.Countable) {supply left : Supply}
    (yields : supply.Yields message.payload left) :
    ∃ body, body? message.type = some body ∧ body.run supply = .ok (message, left) := by
  cases message with
  | ping => exact ⟨_, rfl, pure_run_eq_ok_iff.mpr ⟨rfl, Supply.yields_nil_iff.mp yields⟩⟩
  | pong => exact ⟨_, rfl, pure_run_eq_ok_iff.mpr ⟨rfl, Supply.yields_nil_iff.mp yields⟩⟩
  | joinFeed feed =>
      exact ⟨_, rfl, make_run_eq_ok_iff.mpr ⟨feed.key, digest_eq_ok_iff.mpr yields, rfl⟩⟩
  | leaveFeed feed =>
      exact ⟨_, rfl, make_run_eq_ok_iff.mpr ⟨feed.key, digest_eq_ok_iff.mpr yields, rfl⟩⟩
  | root feed signed =>
      rw [payload_root] at yields
      obtain ⟨middle, yieldsKey, yieldsRoot⟩ := Supply.yields_append_iff.mp yields
      have readRoot := root_eq_ok_iff.mpr ⟨countable, yieldsRoot⟩
      exact ⟨_, rfl, bind_run_eq_ok_iff.mpr ⟨feed.key, middle, digest_eq_ok_iff.mpr yieldsKey,
        make_run_eq_ok_iff.mpr ⟨signed, readRoot, rfl⟩⟩⟩
  | requestData reference =>
      exact ⟨_, rfl, make_run_eq_ok_iff.mpr ⟨reference.digest, digest_eq_ok_iff.mpr yields, rfl⟩⟩
  | data content =>
      exact ⟨_, rfl, make_run_eq_ok_iff.mpr
        ⟨content, sized_eq_ok_iff.mpr ⟨countable, yields⟩, rfl⟩⟩
  | requestRegistry reference =>
      exact ⟨_, rfl, make_run_eq_ok_iff.mpr ⟨reference.digest, digest_eq_ok_iff.mpr yields, rfl⟩⟩
  | registry content =>
      exact ⟨_, rfl, make_run_eq_ok_iff.mpr
        ⟨content, sized_eq_ok_iff.mpr ⟨countable, yields⟩, rfl⟩⟩

/-- The bytes of a message on the wire: its type and its payload. -/
def frame (message : Message) : Bytes := message.code :: message.payload

theorem length_frame (message : Message) : message.frame.length = message.payload.length + 1 :=
  rfl

variable {maximum : Nat} {message : Message}

theorem encode_eq_ite (maximum : Nat) (message : Message) :
    encode maximum message =
      if maximum < message.frame.length then .error (.tooLarge message.frame.length maximum)
      else .ok message.frame :=
  rfl

theorem encode_eq_ok_iff {encoded : Bytes} :
    encode maximum message = .ok encoded ↔
      message.frame.length ≤ maximum ∧ encoded = message.frame := by
  rw [encode_eq_ite]
  split
  · rename_i large
    rw [iff_false_right fun found => Nat.not_le.mpr large found.1]
    exact nofun
  · rename_i small
    rw [Except.ok.injEq, eq_comm, and_iff_right (Nat.le_of_not_lt small)]

/-- An allowance of the size of the payload is enough to read it. -/
theorem exists_body_of_allowance
    (countable : message.Countable) (enough : message.payload.length ≤ maximum) :
    ∃ body, body? message.type = some body ∧
      body.run ⟨message.payload, maximum⟩ =
        .ok (message, ⟨[], maximum - message.payload.length⟩) :=
  exists_body_of_yields countable
    ⟨(List.append_nil _).symm, (Nat.add_sub_cancel' enough).symm⟩

theorem decode_frame (countable : message.Countable) (small : message.frame.length ≤ maximum) :
    decode maximum message.frame = .ok message := by
  obtain ⟨body, known, read⟩ := exists_body_of_allowance countable (Nat.le_of_succ_le small)
  rw [type] at known
  have notLarge : ¬maximum < (message.code :: message.payload).length := Nat.not_lt.mpr small
  unfold frame decode
  dsimp only
  rw [if_neg notLarge, known]
  dsimp only
  rw [read]
  rfl

/-- Nothing but the frame of a message, and only one that is not too large, is read as
the message. -/
theorem decode_eq_ok_iff {input : Bytes} :
    decode maximum input = .ok message ↔
      input.length ≤ maximum ∧ message.Countable ∧ input = message.frame := by
  constructor
  · intro decoded
    unfold decode at decoded
    split at decoded
    · cases decoded
    · rename_i code payload
      split at decoded
      · cases decoded
      · rename_i small
        split at decoded
        · cases decoded
        · rename_i body known
          split at decoded
          · cases decoded
          · rename_i found left read
            split at decoded
            · rename_i nothingLeft
              cases decoded
              obtain ⟨sameType, countable, taken, _⟩ := yields_of_body known read
              dsimp only at taken
              rw [List.isEmpty_iff.mp nothingLeft, List.append_nil] at taken
              have sameCode : message.code = code := congrArg MessageType.code sameType
              refine ⟨Nat.le_of_not_lt small, countable, ?_⟩
              rw [taken, frame, sameCode]
            · cases decoded
  · intro written
    obtain ⟨small, countable, rfl⟩ := written
    exact decode_frame countable small

/-- Writing and reading under the same maximum accept the same pairs of messages and
bytes.  The allowance from which the reading is paid is enough for every message up to
the maximum, and of a message beyond it both sides say that it is too large. -/
theorem decode_eq_ok_iff_encode_eq_ok
    {maximum : Nat} (addressable : maximum < Offset.bound) (message : Message) :
    (∀ data, decode maximum data = .ok message ↔ encode maximum message = .ok data) ∧
    (message.frame.length ≤ maximum → ∃ body left, body? message.type = some body ∧
      body.run ⟨message.payload, maximum⟩ = .ok (message, left) ∧ left.rest = []) ∧
    (maximum < message.frame.length →
      encode maximum message = .error (.tooLarge message.frame.length maximum) ∧
      decode maximum message.frame = .error (.tooLarge message.frame.length maximum)) := by
  have countable (small : message.frame.length ≤ maximum) : message.Countable := by
    apply countable_of_length
    rw [length_frame] at small
    exact Nat.lt_trans small addressable
  refine ⟨?_, ?_, ?_⟩
  · intro data
    rw [decode_eq_ok_iff, encode_eq_ok_iff]
    constructor
    · intro decoded
      obtain ⟨small, _, rfl⟩ := decoded
      exact ⟨small, rfl⟩
    · intro encoded
      obtain ⟨small, rfl⟩ := encoded
      exact ⟨small, countable small, rfl⟩
  · intro small
    obtain ⟨body, known, read⟩ :=
      exists_body_of_allowance (countable small) (Nat.le_of_succ_le small)
    exact ⟨body, _, known, read, rfl⟩
  · intro large
    exact ⟨if_pos large, if_pos large⟩

/-- A message of one byte takes ten bytes: with a maximum of ten it is written and read,
and with a maximum of nine it is too large. -/
theorem decode_data_at_maximum :
    (decode 10 [7, 1, 0, 0, 0, 0, 0, 0, 0, 42] = .ok (data [42]) ∧
      encode 10 (data [42]) = .ok [7, 1, 0, 0, 0, 0, 0, 0, 0, 42]) ∧
    encode 9 (data [42]) = .error (.tooLarge 10 9) ∧
      decode 9 (data [42]).frame = .error (.tooLarge 10 9) := by
  obtain ⟨same, _, _⟩ := decode_eq_ok_iff_encode_eq_ok (by decide : 10 < Offset.bound) (data [42])
  obtain ⟨_, _, refused⟩ := decode_eq_ok_iff_encode_eq_ok (by decide : 9 < Offset.bound) (data [42])
  have written : encode 10 (data [42]) = .ok [7, 1, 0, 0, 0, 0, 0, 0, 0, 42] := rfl
  exact ⟨⟨(same _).mpr written, written⟩, refused (by decide)⟩

end Message

end TypedObject
