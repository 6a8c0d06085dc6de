import TypedObject.Proofs.Wire.Reading

/-!
# Reading on after a failure

A cursor stands before the bytes that are not read yet.  A read that succeeds moves it
behind the encoding of what is returned.  A read that fails leaves it before the first
part that could not be had: a number or a fixed number of bytes is taken as a whole or not
at all, the bytes after a count are a part of their own, and bytes that are no text are
taken before that is noticed.  So whatever is read, and whatever fails, the cursor stands
before an end of the input.
-/

namespace TypedObject

namespace Cursor

/-- One read from the front of the unread bytes. -/
inductive Read where
  | byte
  | word
  | count
  | take (size : Nat)
  | counted
  | text
  deriving DecidableEq, Repr

/-- What a read returns. -/
inductive Item where
  | byte (number : Nat)
  | word (number : Nat)
  | count (number : Nat)
  | bytes (content : Bytes)
  | counted (content : Bytes)
  | text (content : String)
  deriving DecidableEq, Repr

/-- The bytes that an item is read from. -/
def Item.encode : Item → Bytes
  | byte number => Bytes.ofNat 1 number
  | word number => Wire.word number
  | count number => Wire.count number
  | bytes content => content
  | counted content => Wire.counted content
  | text content => Wire.text content

namespace Read

def reader : Read → Reader Item
  | byte => do return .byte (← Reader.byte)
  | word => do return .word (← Reader.word)
  | count => do return .count (← Reader.count)
  | take size => do return .bytes (← Reader.take size)
  | counted => do return .counted (← Reader.counted)
  | text => do return .text (← Reader.text)

/-- The number of bytes that are needed at first: all of them, or those of the count. -/
def width : Read → Nat
  | byte => 1
  | word | count | counted | text => 4
  | take size => size

/-- Whether there are bytes after a count. -/
def hasPayload : Read → Bool
  | counted | text => true
  | byte | word | count | take _ => false

/-- The items that a read can return. -/
inductive Returns : Read → Item → Prop where
  | byte {number : Nat} (fits : number < 256) : Returns byte (.byte number)
  | word {number : Nat} (fits : number < Wire.countBound) : Returns word (.word number)
  | count {number : Nat} (fits : number < Wire.countBound) : Returns count (.count number)
  | take (content : Bytes) : Returns (take content.length) (.bytes content)
  | counted {content : Bytes} (fits : content.length < Wire.countBound) :
      Returns counted (.counted content)
  | text {content : String} (fits : (Bytes.ofText content).length < Wire.countBound) :
      Returns text (.text content)

/-- What a read makes of the unread bytes: the result, and what is unread then. -/
inductive Takes : Read → Bytes → Except SchemaError Item → Bytes → Prop where
  | item {read : Read} {item : Item} {rest : Bytes} (returns : read.Returns item) :
      Takes read (item.encode ++ rest) (.ok item) rest
  | short {read : Read} {unread : Bytes} (short : unread.length < read.width) :
      Takes read unread (.error (.unexpectedEnd read.width unread.length)) unread
  | shortPayload {read : Read} {size : Nat} {rest : Bytes} (payload : read.hasPayload = true)
      (fits : size < Wire.countBound) (short : rest.length < size) :
      Takes read (Wire.count size ++ rest) (.error (.unexpectedEnd size rest.length)) rest
  | noText {content rest : Bytes} (fits : content.length < Wire.countBound)
      (noText : Bytes.toText? content = none) :
      Takes text (Wire.counted content ++ rest) (.error .invalidUtf8) rest

end Read

end Cursor

namespace Reader

theorem exists_number {width : Nat} {bytes : Bytes} (enough : width ≤ bytes.length) :
    ∃ number rest, number < Bytes.range width ∧ bytes = Bytes.ofNat width number ++ rest := by
  obtain ⟨taken, rest, rfl, rfl⟩ := Bytes.exists_front enough
  exact ⟨Bytes.toNat taken, rest, Bytes.toNat_lt taken, by rw [Bytes.ofNat_toNat]⟩

/-- Behind a count there are as many bytes as it says, or too few. -/
theorem exists_counted {bytes : Bytes} (enough : Wire.countSize ≤ bytes.length) :
    (∃ size rest, size < Wire.countBound ∧ bytes = Wire.count size ++ rest ∧
      rest.length < size) ∨
    ∃ content rest, content.length < Wire.countBound ∧ bytes = Wire.counted content ++ rest := by
  obtain ⟨size, rest, fits, rfl⟩ := exists_number enough
  by_cases short : rest.length < size
  · exact .inl ⟨size, rest, fits, rfl, short⟩
  · obtain ⟨content, rest, rfl, rfl⟩ := Bytes.exists_front (Nat.le_of_not_lt short)
    refine .inr ⟨content, rest, fits, ?_⟩
    rw [Wire.counted, List.append_assoc]
    rfl

end Reader

namespace Cursor

variable {read : Read} {unread rest : Bytes} {result : Except SchemaError Item}

theorem reader_of_returns {item : Item} (returns : read.Returns item) (rest : Bytes) :
    read.reader (item.encode ++ rest) = (.ok item, rest) := by
  cases returns with
  | byte fits =>
      exact Reader.bind_eq_ok_iff.mpr ⟨_, _, Reader.exact_byte.reads fits rest, rfl⟩
  | word fits =>
      exact Reader.bind_eq_ok_iff.mpr ⟨_, _, Reader.exact_word.reads fits rest, rfl⟩
  | count fits =>
      exact Reader.bind_eq_ok_iff.mpr ⟨_, _, Reader.exact_count.reads fits rest, rfl⟩
  | take content =>
      exact Reader.bind_eq_ok_iff.mpr ⟨_, _, Reader.take_append content rest, rfl⟩
  | counted fits =>
      exact Reader.bind_eq_ok_iff.mpr ⟨_, _, Reader.exact_counted.reads fits rest, rfl⟩
  | text fits =>
      exact Reader.bind_eq_ok_iff.mpr ⟨_, _, Reader.exact_text.reads fits rest, rfl⟩

theorem reader_of_short (short : unread.length < read.width) :
    read.reader unread = (.error (.unexpectedEnd read.width unread.length), unread) := by
  have failed := Reader.take_of_short short
  cases read <;>
    simp only [Read.reader, Reader.byte, Reader.word, Reader.count, Reader.counted, Reader.text,
      Reader.bind_apply, Read.width] at failed ⊢ <;>
    rw [failed]

theorem reader_of_takes (takes : read.Takes unread result rest) :
    read.reader unread = (result, rest) := by
  cases takes with
  | item returns => exact reader_of_returns returns rest
  | short short => exact reader_of_short short
  | shortPayload payload fits short =>
      have counted := Reader.exact_count.reads fits rest
      have failed := Reader.take_of_short short
      cases read with
      | counted => simp only [Read.reader, Reader.counted, Reader.bind_apply, counted, failed]
      | text =>
          simp only [Read.reader, Reader.text, Reader.counted, Reader.bind_apply, counted, failed]
      | _ => cases payload
  | noText fits noText =>
      have counted := Reader.exact_counted.reads fits rest
      simp only [Read.reader, Reader.text, Reader.bind_apply, counted, noText, Reader.fail_apply]

theorem exists_takes (read : Read) (unread : Bytes) :
    ∃ result rest, read.Takes unread result rest := by
  by_cases short : unread.length < read.width
  · exact ⟨_, _, .short short⟩
  have enough := Nat.le_of_not_lt short
  cases read with
  | byte =>
      obtain ⟨number, rest, fits, rfl⟩ := Reader.exists_number enough
      exact ⟨_, _, .item (.byte fits)⟩
  | word =>
      obtain ⟨number, rest, fits, rfl⟩ := Reader.exists_number enough
      exact ⟨_, _, .item (.word fits)⟩
  | count =>
      obtain ⟨number, rest, fits, rfl⟩ := Reader.exists_number enough
      exact ⟨_, _, .item (.count fits)⟩
  | take size =>
      obtain ⟨content, rest, rfl, rfl⟩ := Bytes.exists_front enough
      exact ⟨_, _, .item (.take content)⟩
  | counted =>
      rcases Reader.exists_counted enough with
        ⟨size, rest, fits, rfl, tooFew⟩ | ⟨content, rest, fits, rfl⟩
      · exact ⟨_, _, .shortPayload rfl fits tooFew⟩
      · exact ⟨_, _, .item (.counted fits)⟩
  | text =>
      rcases Reader.exists_counted enough with
        ⟨size, rest, fits, rfl, tooFew⟩ | ⟨content, rest, fits, rfl⟩
      · exact ⟨_, _, .shortPayload rfl fits tooFew⟩
      · cases decoded : Bytes.toText? content with
        | none => exact ⟨_, _, .noText fits decoded⟩
        | some found =>
            obtain rfl := Bytes.ofText_of_toText? decoded
            exact ⟨_, _, .item (.text fits)⟩

theorem reader_eq_iff : read.reader unread = (result, rest) ↔ read.Takes unread result rest := by
  constructor
  · intro same
    obtain ⟨result', rest', takes⟩ := exists_takes read unread
    rw [reader_of_takes takes] at same
    cases same
    exact takes
  · exact reader_of_takes

/-- A read with the unread bytes before and after it. -/
structure Step where
  read : Read
  before : Bytes
  result : Except SchemaError Item
  after : Bytes

/-- The reads in order, each from the bytes that the one before it left, whether or not it
failed. -/
def steps : List Read → Bytes → List Step
  | [], _ => []
  | read :: reads, unread =>
    let (result, rest) := read.reader unread
    ⟨read, unread, result, rest⟩ :: steps reads rest

/-- The bytes that are unread after the reads. -/
def left (reads : List Read) (input : Bytes) : Bytes :=
  reads.foldl (fun unread read => (read.reader unread).2) input

theorem Read.Takes.suffix (takes : read.Takes unread result rest) : rest <:+ unread := by
  cases takes with
  | item returns => exact List.suffix_append _ _
  | short short => exact List.suffix_refl _
  | shortPayload payload fits short => exact List.suffix_append _ _
  | noText fits noText => exact List.suffix_append _ _

theorem Read.Takes.eq_encode_append {item : Item} (takes : read.Takes unread (.ok item) rest) :
    unread = item.encode ++ rest := by
  cases takes
  rfl

theorem steps_cons {reads : List Read} (takes : read.Takes unread result rest) :
    steps (read :: reads) unread = ⟨read, unread, result, rest⟩ :: steps reads rest := by
  rw [steps, reader_of_takes takes]

theorem left_cons {reads : List Read} (takes : read.Takes unread result rest) :
    left (read :: reads) unread = left reads rest := by
  rw [left, List.foldl_cons, reader_of_takes takes]
  rfl

/-- What a step within an input does to the place of the cursor. -/
structure Step.KeepsPlace (step : Step) (input : Bytes) : Prop where
  takes : step.read.Takes step.before step.result step.after
  within : step.after <:+ input
  consumed : ∀ item, step.result = .ok item → step.before = item.encode ++ step.after
  unmoved : step.read.hasPayload = false → ∀ error, step.result = .error error →
    step.after = step.before
  short : ∀ need available, step.result = .error (.unexpectedEnd need available) →
    available = step.after.length ∧ available < need

theorem Read.Takes.keepsPlace
    (takes : read.Takes unread result rest) {input : Bytes} (within : unread <:+ input) :
    Step.KeepsPlace ⟨read, unread, result, rest⟩ input := by
  refine ⟨takes, takes.suffix.trans within, ?_, ?_, ?_⟩
  · intro item same
    cases same
    exact takes.eq_encode_append
  · intro single error failed
    cases takes with
    | item returns => cases failed
    | short short => rfl
    | shortPayload payload fits short =>
        rw [payload] at single
        cases single
    | noText fits noText => cases single
  · intro need available failed
    cases takes with
    | item returns => cases failed
    | short short =>
        cases failed
        exact ⟨rfl, short⟩
    | shortPayload payload fits short =>
        cases failed
        exact ⟨rfl, short⟩
    | noText fits noText => cases failed

theorem keepsPlace_of_mem_steps
    {reads : List Read} {input : Bytes} (within : unread <:+ input) :
    ∀ step ∈ steps reads unread, step.KeepsPlace input := by
  induction reads generalizing unread with
  | nil => exact fun _ member => absurd member List.not_mem_nil
  | cons read reads induction =>
      obtain ⟨result, rest, takes⟩ := exists_takes read unread
      rw [steps_cons takes, List.forall_mem_cons]
      exact ⟨takes.keepsPlace within, induction (takes.suffix.trans within)⟩

theorem left_suffix (reads : List Read) (input : Bytes) : left reads input <:+ input := by
  induction reads generalizing input with
  | nil => exact List.suffix_refl _
  | cons read reads induction =>
      obtain ⟨result, rest, takes⟩ := exists_takes read input
      rw [left_cons takes]
      exact (induction rest).trans takes.suffix

/-- What was read without a failure is written again as it was. -/
theorem encode_append_left
    {reads : List Read} {input : Bytes} {items : List Item}
    (read : (steps reads input).map Step.result = items.map .ok) :
    items.flatMap Item.encode ++ left reads input = input := by
  induction reads generalizing input items with
  | nil =>
      obtain rfl : items = [] := List.map_eq_nil_iff.mp read.symm
      rfl
  | cons first reads induction =>
      obtain ⟨result, rest, takes⟩ := exists_takes first input
      rw [steps_cons takes, List.map_cons] at read
      obtain ⟨item, items, rfl, same, later⟩ := List.map_eq_cons_iff.mp read.symm
      cases same
      rw [left_cons takes, List.flatMap_cons, List.append_assoc, induction later.symm]
      exact takes.eq_encode_append.symm

/-- The cursor stands before an end of the input whatever is read, and each read does to it
what its outcome says; when nothing fails, the items and what is left are the input. -/
theorem never_loses_place :
    (∀ (read : Read) (before : Bytes) (result : Except SchemaError Item) (after : Bytes),
      read.reader before = (result, after) ↔ read.Takes before result after) ∧
    ∀ (reads : List Read) (input : Bytes),
      left reads input <:+ input ∧
      (∀ step ∈ steps reads input, step.KeepsPlace input) ∧
      ∀ items : List Item, (steps reads input).map Step.result = items.map .ok →
        items.flatMap Item.encode ++ left reads input = input := by
  refine ⟨fun _ _ _ _ => reader_eq_iff, fun reads input => ⟨left_suffix reads input, ?_, ?_⟩⟩
  · exact keepsPlace_of_mem_steps (List.suffix_refl input)
  · exact fun items read => encode_append_left read

/-- A text and a byte are read and written again; a payload that is too short is left there
behind its count, and its bytes are read by what follows. -/
theorem rereads_short_payload :
    (let input : Bytes := [1, 0, 0, 0, 97, 5, 0, 0, 0, 7]
    (steps [.text, .counted, .byte, .byte] input).map Step.result =
      [.ok (.text "a"), .error (.unexpectedEnd 5 1), .ok (.byte 7), .error (.unexpectedEnd 1 0)] ∧
    (∀ step ∈ steps [.text, .counted, .byte, .byte] input, step.KeepsPlace input) ∧
    [Item.text "a", .byte 5].flatMap Item.encode ++ left [.text, .byte] input = input) :=
  ⟨rfl, (never_loses_place.2 _ _).2.1, (never_loses_place.2 _ _).2.2 [.text "a", .byte 5] rfl⟩

end Cursor

end TypedObject
