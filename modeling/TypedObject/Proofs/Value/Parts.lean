import TypedObject.Proofs.View.Suffix
import TypedObject.Value.Basic

/-!
# The parts of a value

The parts of a sequence or struct are cut out one after the other, up to the first that
cannot be.  Going straight to a part measures the parts before it, or multiplies where
they have one fixed size; either way it finds the same part or fails for the same
reason.  When all parts are measured, they take up exactly the bytes that were measured.
-/

namespace TypedObject.Value

open View

/-- Parts that were cut out, and the error at which that ended, if it did. -/
structure Parts where
  values : List Value
  ending : Except SchemaError Unit

/-- Cuts values of the views out of the bytes, one after the other. -/
def cutParts : List View → Bytes → Parts
  | [], _ => ⟨[], .ok ()⟩
  | part :: parts, bytes =>
    match cut part bytes with
    | .error error => ⟨[], .error error⟩
    | .ok value =>
      let others := cutParts parts (bytes.drop value.bytes.length)
      ⟨value :: others.values, others.ending⟩

/-- Goes straight to a part: past the parts before it. -/
def partAt (parts : List View) (index : Nat) (part : View) (bytes : Bytes) :
    Except SchemaError Value := do
  let offset ← sizeOfParts View.size (parts.take index) bytes
  cut part (bytes.drop offset)

/-- What is found of the part at a place: the part, or the error that ended the cutting
before or at it. -/
inductive Parts.Shows (parts : Parts) (index : Nat) : Except SchemaError Value → Prop where
  | part {value : Value} (found : parts.values[index]? = some value) :
      Shows parts index (.ok value)
  | failure {error : SchemaError} (missing : parts.values.length ≤ index)
      (ended : parts.ending = .error error) : Shows parts index (.error error)

theorem Parts.Shows.eq_ok_iff
    {parts : Parts} {index : Nat} {result : Except SchemaError Value}
    (shown : parts.Shows index result) {value : Value} :
    result = .ok value ↔ parts.values[index]? = some value := by
  cases shown with
  | part found => simp [found]
  | failure missing ended => simp [List.getElem?_eq_none missing]

theorem Parts.Shows.ending_eq
    {parts : Parts} {index : Nat} {error : SchemaError}
    (shown : parts.Shows index (.error error)) : parts.ending = .error error := by
  cases shown
  assumption

theorem cut_of_size
    {view : View} {bytes : Bytes} {size : Nat} (measured : view.size bytes = .ok size) :
    cut view bytes = .ok ⟨view, bytes.take size⟩ ∧ (bytes.take size).length = size := by
  refine ⟨?_, List.length_take_of_le (le_of_sizeWithin measured)⟩
  rw [cut, measured]
  rfl

theorem cut_of_size_error
    {view : View} {bytes : Bytes} {error : SchemaError}
    (failed : view.size bytes = .error error) : cut view bytes = .error error := by
  rw [cut, failed]
  rfl

theorem cutParts_cons_of_size
    {part : View} {bytes : Bytes} {size : Nat} (measured : part.size bytes = .ok size)
    (parts : List View) :
    cutParts (part :: parts) bytes =
      ⟨⟨part, bytes.take size⟩ :: (cutParts parts (bytes.drop size)).values,
        (cutParts parts (bytes.drop size)).ending⟩ := by
  obtain ⟨cutOut, length⟩ := cut_of_size measured
  rw [cutParts, cutOut]
  dsimp only
  rw [length]

theorem cutParts_cons_of_size_error
    {part : View} {bytes : Bytes} {error : SchemaError}
    (failed : part.size bytes = .error error) (parts : List View) :
    cutParts (part :: parts) bytes = ⟨[], .error error⟩ := by
  rw [cutParts, cut_of_size_error failed]

theorem partAt_cons_of_size
    {first part : View} {bytes : Bytes} {size : Nat} (measured : first.size bytes = .ok size)
    (parts : List View) (index : Nat) :
    partAt (first :: parts) (index + 1) part bytes =
      partAt parts index part (bytes.drop size) := by
  unfold partAt
  rw [List.take_succ_cons, sizeOfParts, measured]
  change (sizeOfParts View.size (parts.take index) (bytes.drop size) >>= _) >>= _ = _
  cases sizeOfParts View.size (parts.take index) (bytes.drop size) with
  | error error => rfl
  | ok others =>
      change cut part (bytes.drop (size + others)) = cut part ((bytes.drop size).drop others)
      rw [List.drop_drop]

/-- Going straight to a part agrees with cutting out one after the other. -/
theorem shows_partAt
    {parts : List View} {index : Nat} {part : View} (atIndex : parts[index]? = some part)
    (bytes : Bytes) : (cutParts parts bytes).Shows index (partAt parts index part bytes) := by
  induction parts generalizing index bytes with
  | nil => cases atIndex
  | cons first parts induction =>
      cases measured : first.size bytes with
      | error error =>
          have failed : partAt (first :: parts) index part bytes = .error error := by
            cases index with
            | zero =>
                obtain rfl := Option.some.inj atIndex
                exact cut_of_size_error measured
            | succ index =>
                unfold partAt
                rw [List.take_succ_cons, sizeOfParts, measured]
                rfl
          rw [cutParts_cons_of_size_error measured, failed]
          exact .failure (Nat.zero_le _) rfl
      | ok size =>
          rw [cutParts_cons_of_size measured]
          cases index with
          | zero =>
              obtain rfl := Option.some.inj atIndex
              have found : partAt (first :: parts) 0 first bytes = cut first bytes := rfl
              rw [found, (cut_of_size measured).1]
              exact .part rfl
          | succ index =>
              rw [partAt_cons_of_size measured]
              generalize outcome : partAt parts index part (bytes.drop size) = result
              have later := induction atIndex (bytes.drop size)
              rw [outcome] at later
              cases later with
              | part found => exact .part found
              | failure missing ended => exact .failure (Nat.succ_le_succ missing) ended

theorem exists_cut_of_mem_cutParts
    {parts : List View} {bytes : Bytes} {value : Value}
    (member : value ∈ (cutParts parts bytes).values) :
    ∃ part ∈ parts, ∃ rest, cut part rest = .ok value := by
  induction parts generalizing bytes with
  | nil => cases member
  | cons part parts induction =>
      rw [cutParts] at member
      cases cutOut : cut part bytes with
      | error error =>
          rw [cutOut] at member
          cases member
      | ok first =>
          rw [cutOut] at member
          rcases List.mem_cons.mp member with rfl | later
          · exact ⟨part, List.mem_cons_self, bytes, cutOut⟩
          · obtain ⟨other, memberOther, found⟩ := induction later
            exact ⟨other, List.mem_cons_of_mem _ memberOther, found⟩

/-- Parts that are measured are all cut out, and take up the bytes that were measured. -/
theorem cutParts_of_sizeOfParts
    {parts : List View} {bytes : Bytes} {size : Nat}
    (measured : sizeOfParts View.size parts bytes = .ok size) :
    (cutParts parts bytes).ending = .ok () ∧
      (cutParts parts bytes).values.length = parts.length ∧
      (cutParts parts bytes).values.flatMap Value.bytes = bytes.take size := by
  induction parts generalizing bytes size with
  | nil =>
      cases measured
      exact ⟨rfl, rfl, List.take_zero.symm⟩
  | cons part parts induction =>
      obtain ⟨first, measuredFirst, continued⟩ := Outcome.bind_eq_ok_iff.mp measured
      obtain ⟨others, measuredOthers, total⟩ := Outcome.bind_eq_ok_iff.mp continued
      cases total
      obtain ⟨complete, length, content⟩ := induction measuredOthers
      rw [cutParts_cons_of_size measuredFirst]
      refine ⟨complete, congrArg (· + 1) length, ?_⟩
      rw [List.flatMap_cons, content, List.take_add]

theorem le_of_sizeOfParts
    {parts : List View} {bytes : Bytes} {size : Nat}
    (measured : sizeOfParts View.size parts bytes = .ok size) : size ≤ bytes.length := by
  induction parts generalizing bytes size with
  | nil =>
      cases measured
      exact Nat.zero_le _
  | cons part parts induction =>
      obtain ⟨first, measuredFirst, continued⟩ := Outcome.bind_eq_ok_iff.mp measured
      obtain ⟨others, measuredOthers, total⟩ := Outcome.bind_eq_ok_iff.mp continued
      cases total
      have boundFirst := le_of_sizeWithin measuredFirst
      have boundOthers := induction measuredOthers
      rw [List.length_drop] at boundOthers
      omega

theorem restFrom_of_le {value : Value} {offset : Nat} (inside : offset ≤ value.bytes.length) :
    value.restFrom offset = .ok (value.bytes.drop offset) := by
  rw [restFrom, if_neg]
  rw [Bytes.isShorter_iff]
  exact Nat.not_lt.mpr inside

theorem restFrom_of_lt {value : Value} {offset : Nat} (outside : value.bytes.length < offset) :
    value.restFrom offset = .error .invalidSchemaOrData := by
  rw [restFrom, if_pos]
  rw [Bytes.isShorter_iff]
  exact outside

theorem read_count (value : Value) : value.read Reader.count = countAt value.bytes := by
  by_cases short : Bytes.isShorter value.bytes 4 = true <;>
    simp [read, countAt, Reader.front, Reader.count, Reader.word, Reader.take, short]

/-- The elements of an array begin at once and those of a slice after the count. -/
theorem exists_sequence
    {value : Value} (linked : value.view.Linked)
    (repeats : value.kind = .array ∨ value.kind = .slice) {length : Nat}
    (counted : value.length = .ok length) :
    ∃ elem start, value.sequence = .ok (elem, length, start) ∧ value.view.elem = .ok elem ∧
      start ≤ value.bytes.length := by
  obtain ⟨⟨registry, schema⟩, bytes⟩ := value
  cases schema with
  | array name length' inner =>
      cases counted
      obtain ⟨elem, follows, _⟩ := linked.follow List.mem_cons_self
      refine ⟨elem, 0, ?_, follows, Nat.zero_le _⟩
      exact Outcome.bind_eq_ok_iff.mpr ⟨elem, follows, rfl⟩
  | slice name inner =>
      obtain ⟨elem, follows, _⟩ := linked.follow List.mem_cons_self
      have written := countAt_eq_ok_iff.mp ((read_count _).symm.trans counted)
      obtain ⟨_, rest, rfl⟩ := written
      refine ⟨elem, Wire.countSize, ?_, follows, ?_⟩
      · refine Outcome.bind_eq_ok_iff.mpr ⟨elem, follows, ?_⟩
        exact Outcome.bind_eq_ok_iff.mpr ⟨length, counted, rfl⟩
      · rw [List.length_append, Wire.length_count]
        exact Nat.le_add_right _ _
  | scalar kind name =>
      cases kind with
      | string => rcases repeats with isArray | isSlice <;> contradiction
      | _ => cases counted
  | _ => rcases repeats with isArray | isSlice <;> contradiction

/-- Where an element begins is an offset, unless that is beyond the bytes. -/
def Places (value : Value) (elem : View) (index start : Nat) : Prop :=
  ∀ width, elem.fixedSize? = some width → index * width + start ≤ value.bytes.length →
    index * width + start < Offset.bound

theorem places_of_addressable
    {value : Value} (addressable : value.bytes.length < Offset.bound) (elem : View)
    (index start : Nat) : value.Places elem index start := by
  intro width _ fits
  exact Nat.lt_of_le_of_lt fits addressable

/-- Multiplying leads to the same bytes as measuring the elements before, and to the same
refusal where the place is no offset at all. -/
theorem rest_eq_drop
    {value : Value} {elem : View} (linked : elem.Linked) {start index : Nat}
    (inside : start ≤ value.bytes.length) (places : value.Places elem index start) :
    (value.offsetOf elem index start >>= value.restFrom) =
      (sizeOfParts View.size (List.replicate index elem) (value.bytes.drop start)).map
        (value.bytes.drop start).drop := by
  unfold offsetOf
  cases fixed : elem.fixedSize? with
  | some width =>
      dsimp only
      rw [sizeOfParts_replicate_eq_fitting linked fixed]
      by_cases fits : index * width + start ≤ value.bytes.length
      · have placed : Offset.ofItem? index width start = some (index * width + start) :=
          Offset.ofItem?_eq_some_iff.mpr ⟨rfl, places width fixed fits⟩
        have fitsAfter : index * width ≤ (value.bytes.drop start).length := by
          rw [List.length_drop]
          omega
        rw [placed, fitting_of_le fitsAfter]
        change value.restFrom _ = .ok ((value.bytes.drop start).drop (index * width))
        rw [restFrom_of_le fits, List.drop_drop, Nat.add_comm]
      · have short : (value.bytes.drop start).length < index * width := by
          rw [List.length_drop]
          omega
        rw [fitting_of_lt short]
        cases placed : Offset.ofItem? index width start with
        | none => rfl
        | some place =>
            obtain ⟨rfl, _⟩ := Offset.ofItem?_eq_some_iff.mp placed
            exact restFrom_of_lt (Nat.lt_of_not_le fits)
  | none =>
      dsimp only
      rw [sizeOfRun_eq_sizeOfParts]
      cases measured : sizeOfParts View.size (List.replicate index elem)
          (value.bytes.drop start) with
      | error error => rfl
      | ok size =>
          have bound := le_of_sizeOfParts measured
          rw [List.length_drop] at bound
          change value.restFrom _ = .ok ((value.bytes.drop start).drop size)
          rw [restFrom_of_le (by omega), List.drop_drop]

theorem index_eq_partAt
    {value : Value} {elem : View} {length start : Nat} (linked : elem.Linked)
    (sequence : value.sequence = .ok (elem, length, start)) (inside : start ≤ value.bytes.length)
    {index : Nat} (places : value.Places elem index start) (within : index < length) :
    value.index index =
      partAt (List.replicate length elem) index elem (value.bytes.drop start) := by
  unfold Value.index partAt
  rw [sequence, List.take_replicate, Nat.min_eq_left (Nat.le_of_lt within)]
  change (if length ≤ index then _ else
    value.offsetOf elem index start >>= fun offset => value.restFrom offset >>= cut elem) = _
  rw [if_neg (Nat.not_le.mpr within), ← bind_assoc, rest_eq_drop linked inside places,
    Outcome.bind_map]

theorem elem_of_sequence
    {value : Value} {elem : View} {length start : Nat}
    (sequence : value.sequence = .ok (elem, length, start)) : value.view.elem = .ok elem := by
  unfold Value.sequence at sequence
  split at sequence
  · obtain ⟨elem', follows, same⟩ := Outcome.bind_eq_ok_iff.mp sequence
    cases same
    exact follows
  · obtain ⟨elem', follows, continued⟩ := Outcome.bind_eq_ok_iff.mp sequence
    obtain ⟨count, _, same⟩ := Outcome.bind_eq_ok_iff.mp continued
    cases same
    exact follows
  · cases sequence

/-- The first element begins within the bytes. -/
theorem start_le_of_sequence
    {value : Value} {elem : View} {length start : Nat}
    (sequence : value.sequence = .ok (elem, length, start)) : start ≤ value.bytes.length := by
  unfold Value.sequence at sequence
  split at sequence
  · obtain ⟨_, _, same⟩ := Outcome.bind_eq_ok_iff.mp sequence
    cases same
    exact Nat.zero_le _
  · obtain ⟨_, _, continued⟩ := Outcome.bind_eq_ok_iff.mp sequence
    obtain ⟨count, counted, same⟩ := Outcome.bind_eq_ok_iff.mp continued
    cases same
    rw [read_count] at counted
    obtain ⟨_, rest, written⟩ := countAt_eq_ok_iff.mp counted
    rw [written, List.length_append, Wire.length_count]
    exact Nat.le_add_right _ _
  · cases sequence

theorem exists_cut_of_index
    {value part : Value} {index : Nat} (found : value.index index = .ok part) :
    ∃ elem rest, value.view.elem = .ok elem ∧ cut elem rest = .ok part := by
  obtain ⟨⟨elem, length, start⟩, sequence, continued⟩ := Outcome.bind_eq_ok_iff.mp found
  dsimp only at continued
  split at continued
  · cases continued
  · obtain ⟨offset, _, continued⟩ := Outcome.bind_eq_ok_iff.mp continued
    obtain ⟨rest, _, cutOut⟩ := Outcome.bind_eq_ok_iff.mp continued
    exact ⟨elem, rest, elem_of_sequence sequence, cutOut⟩

theorem fieldByIndex_eq_partAt
    {value : Value} {parts : List View} (isStruct : value.kind = .struct)
    (follow : value.view.fields.mapM value.view.ofField = .ok parts) {index : Nat} {part : View}
    (atIndex : parts[index]? = some part) :
    value.fieldByIndex index = partAt parts index part value.bytes := by
  obtain ⟨field, found, followed, followBefore⟩ := Outcome.getElem?_of_mapM follow atIndex
  have expected : value.expectStruct = .ok () := if_pos isStruct
  unfold fieldByIndex partAt
  rw [expected]
  rw [found]
  dsimp only
  rw [sizeOfFields_eq_sizeOfParts followBefore, followed]
  cases measured : sizeOfParts View.size (parts.take index) value.bytes with
  | error error => rfl
  | ok size =>
      change value.restFrom size >>= cut part = cut part (value.bytes.drop size)
      rw [restFrom_of_le (le_of_sizeOfParts measured)]
      rfl

theorem exists_cut_of_fieldByIndex
    {value part : Value} {index : Nat} (found : value.fieldByIndex index = .ok part) :
    ∃ field view rest, value.view.fields[index]? = some field ∧
      value.view.ofField field = .ok view ∧ cut view rest = .ok part := by
  obtain ⟨_, _, continued⟩ := Outcome.bind_eq_ok_iff.mp found
  split at continued
  · cases continued
  · rename_i field atIndex
    obtain ⟨offset, _, continued⟩ := Outcome.bind_eq_ok_iff.mp continued
    obtain ⟨view, followed, continued⟩ := Outcome.bind_eq_ok_iff.mp continued
    obtain ⟨rest, _, cutOut⟩ := Outcome.bind_eq_ok_iff.mp continued
    exact ⟨field, view, rest, atIndex, followed, cutOut⟩

theorem exists_fieldByIndex_of_fieldByName
    {value part : Value} {name : String} (found : value.fieldByName name = .ok part) :
    ∃ index, value.fieldByIndex index = .ok part := by
  obtain ⟨_, _, continued⟩ := Outcome.bind_eq_ok_iff.mp found
  split at continued
  · cases continued
  · exact ⟨_, continued⟩

end TypedObject.Value
