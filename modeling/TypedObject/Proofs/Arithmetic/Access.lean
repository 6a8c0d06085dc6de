import TypedObject.Proofs.Arithmetic.Sizes
import TypedObject.Proofs.Value.Visits

/-!
# Access without faults

Every access to a value reckons where its parts begin and cuts them out.  With words as
with integers all accesses answer as they should: no sum leaves the bytes, nothing is cut
where there are no bytes, and a product that words refuse would have led beyond the
bytes.  The parts are no longer than the value, so this is true of their parts again.
-/

namespace TypedObject

namespace Arithmetic

open Guarded
open View (offset referenceSize)
open Value (Callback Traversal)

variable {ι ε : Type}

/-- The bytes of the value without what follows them. -/
def data (arithmetic : Arithmetic) (value : Value) : Guarded Bytes := do
  let size ← arithmetic.size value.view value.bytes
  front value.bytes size

/-- The value at the front of the bytes, with the bytes cut to its size. -/
def cut (arithmetic : Arithmetic) (view : View) (bytes : Bytes) : Guarded Value := do
  let size ← arithmetic.size view bytes
  let front ← front bytes size
  return ⟨view, front⟩

/-- Where an element begins. -/
def offsetOf (arithmetic : Arithmetic) (value : Value) (elem : View) (index start : Nat) :
    Guarded Nat :=
  match arithmetic.fixedSize? elem with
  | some width => of (offset (arithmetic.item? index width start))
  | none =>
    arithmetic.endOfParts arithmetic.size value.bytes (List.replicate index (.ok elem)) start

def index (arithmetic : Arithmetic) (value : Value) (index : Nat) : Guarded Value := do
  let (elem, length, start) ← of value.sequence
  if length ≤ index then .error (.refused (.indexOutOfRange index length))
  else do
    let offset ← arithmetic.offsetOf value elem index start
    let rest ← rest value.bytes offset
    arithmetic.cut elem rest

/-- A field by its place. -/
def fieldByIndex (arithmetic : Arithmetic) (value : Value) (index : Nat) : Guarded Value := do
  of value.expectStruct
  match value.view.fields[index]? with
  | none => .error (.refused (.indexOutOfRange index value.view.fields.length))
  | some field =>
    let before := (value.view.fields.take index).map value.view.ofField
    let offset ← arithmetic.endOfParts arithmetic.size value.bytes before 0
    let part ← of (value.view.ofField field)
    let rest ← rest value.bytes offset
    arithmetic.cut part rest

/-- The first field with a name. -/
def fieldByName (arithmetic : Arithmetic) (value : Value) (name : String) : Guarded Value := do
  of value.expectStruct
  match value.view.fieldIndex? name with
  | none => .error (.refused (.noSuchField name))
  | some index => arithmetic.fieldByIndex value index

/-- Reads as many identifiers as were counted, which take `length` bytes after the count. -/
def readIdentifiers (count length : Nat) : Reader (List Reference) := do
  let _ ← Reader.count
  let identifiers ← Reader.take length
  Reader.lift (Reader.front (Reader.times Reader.identifier count) identifiers)

/-- The objects that a list of references names.  Their identifiers take what the size of
the list leaves after the count. -/
def references (arithmetic : Arithmetic) (value : Value) : Guarded (List Reference) :=
  match value.view.referenceKind? with
  | some .slice => do
    let count ← of (value.read Reader.count)
    let size ← of (arithmetic.referencesSize count)
    let length ← difference size Wire.countSize
    of (value.read (readIdentifiers count length))
  | _ => of (value.mismatch .referenceList)

/-- The part at an offset, and the offset after it. -/
def cutAt (arithmetic : Arithmetic) (bytes : Bytes) (part : Except SchemaError View)
    (offset : Nat) : Guarded (Value × Nat) := do
  let view ← of part
  let rest ← rest bytes offset
  let value ← arithmetic.cut view rest
  let next ← arithmetic.advance offset value.bytes.length bytes.length
  return (value, next)

/-- Visits parts that lie one after the other from an offset on, after the calls that were
made before. -/
def visit (arithmetic : Arithmetic) (callback : Callback ι ε) (bytes : Bytes) :
    List (ι × Except SchemaError View) → (offset : Nat) → (made : List (ι × Value)) →
    Except Fault (Traversal ι ε)
  | [], _, made => .ok ⟨made, .ok (.ok ())⟩
  | (place, part) :: parts, offset, made =>
    match arithmetic.cutAt bytes part offset with
    | .error (.fault fault) => .error fault
    | .error (.refused error) => .ok ⟨made, .ok (.error error)⟩
    | .ok (value, next) =>
      match callback (made ++ [(place, value)]) with
      | .error error => .ok ⟨made ++ [(place, value)], .error error⟩
      | .ok () => visit arithmetic callback bytes parts next (made ++ [(place, value)])

/-- Visits the elements of an array or slice with their numbers. -/
def rangeElements (arithmetic : Arithmetic) (value : Value) (callback : Callback Nat ε) :
    Except Fault (Traversal Nat ε) :=
  match value.sequence with
  | .error error => .ok ⟨[], .ok (.error error)⟩
  | .ok (elem, count, start) =>
    arithmetic.visit callback value.bytes
      ((List.range count).zip (List.replicate count (.ok elem))) start []

/-- Visits the fields of a struct with their names. -/
def rangeFields (arithmetic : Arithmetic) (value : Value) (callback : Callback String ε) :
    Except Fault (Traversal String ε) :=
  match value.expectStruct with
  | .error error => .ok ⟨[], .ok (.error error)⟩
  | .ok () =>
    arithmetic.visit callback value.bytes
      ((value.view.fields.map Field.name).zip (value.view.fields.map value.view.ofField)) 0 []

theorem length_le_of_cut
    {view : View} {bytes : Bytes} {part : Value} (cutOut : Value.cut view bytes = .ok part) :
    part.bytes.length ≤ bytes.length := by
  obtain ⟨size, _, same⟩ := Outcome.bind_eq_ok_iff.mp cutOut
  cases same
  exact List.length_take_le' _ _

theorem length_cutParts_le (parts : List View) (bytes : Bytes) :
    (Value.cutParts parts bytes).values.length ≤ parts.length := by
  induction parts generalizing bytes with
  | nil => exact Nat.le_refl _
  | cons part parts induction =>
      rw [Value.cutParts]
      cases Value.cut part bytes with
      | error error => exact Nat.zero_le _
      | ok value => exact Nat.succ_le_succ (induction _)

/-- Numbers in order, as many as there are values or more. -/
theorem zip_range'_eq_zipIdx
    {values : List Value} {start count : Nat} (enough : values.length ≤ count) :
    (List.range' start count).zip values = (values.zipIdx start).map Prod.swap := by
  induction values generalizing start count with
  | nil => exact List.zip_nil_right
  | cons value values induction =>
      cases count with
      | zero => cases enough
      | succ count =>
          rw [List.range'_succ, List.zip_cons_cons, List.zipIdx_cons, List.map_cons,
            induction (Nat.le_of_succ_le_succ enough)]
          rfl

namespace Faithful

variable {arithmetic : Arithmetic} (faithful : arithmetic.Faithful)

include faithful

theorem front_size
    {view : View} (linked : view.Linked) {bytes : Bytes}
    (addressable : bytes.length < Offset.bound) :
    (arithmetic.size view bytes >>= front bytes) = of ((view.size bytes).map bytes.take) := by
  rw [faithful.size_eq linked addressable]
  cases measured : view.size bytes with
  | error error => rfl
  | ok size => exact if_pos (View.le_of_sizeWithin measured)

theorem data_eq
    {value : Value} (linked : value.view.Linked)
    (addressable : value.bytes.length < Offset.bound) :
    arithmetic.data value = of value.data := by
  rw [data, faithful.front_size linked addressable, Value.data]
  cases value.view.size value.bytes <;> rfl

theorem cut_eq
    {view : View} (linked : view.Linked) {bytes : Bytes}
    (addressable : bytes.length < Offset.bound) :
    arithmetic.cut view bytes = of (Value.cut view bytes) := by
  have unfolded : arithmetic.cut view bytes =
      (arithmetic.size view bytes >>= front bytes) >>= fun front => pure ⟨view, front⟩ := by
    rw [bind_assoc]
    rfl
  rw [unfolded, faithful.front_size linked addressable, Value.cut]
  cases view.size bytes <;> rfl

theorem sizeOfParts_eq_fitting
    {elem : View} (linked : elem.Linked) {width : Nat}
    (fixed : arithmetic.fixedSize? elem = some width) {bytes : Bytes}
    (addressable : bytes.length < Offset.bound) (count : Nat) :
    View.sizeOfParts View.size (List.replicate count elem) bytes =
      View.fitting bytes (count * width) := by
  by_cases small : width < Offset.bound
  · have known : elem.fixedSize? = some width := by
      rw [faithful.fixedSize?_eq linked, fixed]
      exact if_pos small
    exact View.sizeOfParts_replicate_eq_fitting linked known count bytes
  · exact faithful.sizeOfParts_of_fixed linked fixed (by omega) addressable count

/-- Multiplying and moving lead to the same bytes as measuring the elements before. -/
theorem rest_offsetOf
    {value : Value} {elem : View} (linked : elem.Linked) {start : Nat}
    (inside : start ≤ value.bytes.length) (addressable : value.bytes.length < Offset.bound)
    (index : Nat) :
    (arithmetic.offsetOf value elem index start >>= rest value.bytes) =
      of ((View.sizeOfParts View.size (List.replicate index elem) (value.bytes.drop start)).map
        (value.bytes.drop start).drop) := by
  have left : (value.bytes.drop start).length = value.bytes.length - start := List.length_drop
  unfold offsetOf
  cases fixed : arithmetic.fixedSize? elem with
  | some width =>
      dsimp only
      rw [faithful.sizeOfParts_eq_fitting linked fixed (by omega)]
      rcases faithful.item?_cases index width start with found | ⟨refused, large⟩
      · rw [found]
        change rest value.bytes (index * width + start) = _
        by_cases fits : index * width + start ≤ value.bytes.length
        · rw [rest, if_pos fits, View.fitting_of_le (by omega)]
          change _ = Except.ok ((value.bytes.drop start).drop (index * width))
          rw [List.drop_drop, Nat.add_comm]
        · rw [rest, if_neg fits, View.fitting_of_lt (by omega)]
          rfl
      · rw [refused, View.fitting_of_lt (by omega)]
        rfl
  | none =>
      dsimp only
      have each : ∀ rest : Bytes, rest.length < Offset.bound →
          arithmetic.size elem rest = of (elem.size rest) :=
        fun _ => faithful.size_eq linked
      rw [faithful.endOfParts_replicate addressable each (fun _ _ _ => View.le_of_sizeWithin)
        inside]
      cases measured : View.sizeOfParts View.size (List.replicate index elem)
          (value.bytes.drop start) with
      | error error => rfl
      | ok size =>
          have bound := Value.le_of_sizeOfParts measured
          change rest value.bytes (start + size) = .ok ((value.bytes.drop start).drop size)
          rw [rest, if_pos (by omega), List.drop_drop]

theorem index_eq
    {value : Value} (linked : value.view.Linked)
    (addressable : value.bytes.length < Offset.bound) (index : Nat) :
    arithmetic.index value index = of (value.index index) := by
  unfold Arithmetic.index Value.index
  cases sequence : value.sequence with
  | error error => rfl
  | ok found =>
      obtain ⟨elem, length, start⟩ := found
      have inside := Value.start_le_of_sequence sequence
      have linkedElem := linked.of_elem (Value.elem_of_sequence sequence)
      change (if length ≤ index then _ else arithmetic.offsetOf value elem index start >>=
        fun offset => rest value.bytes offset >>= arithmetic.cut elem) =
        of (if length ≤ index then _ else value.offsetOf elem index start >>=
          fun offset => value.restFrom offset >>= Value.cut elem)
      split
      · rfl
      · rw [← bind_assoc, ← bind_assoc, faithful.rest_offsetOf linkedElem inside addressable,
          Value.rest_eq_drop linkedElem inside (Value.places_of_addressable addressable _ _ _)]
        cases View.sizeOfParts View.size (List.replicate index elem) (value.bytes.drop start) with
        | error error => rfl
        | ok size =>
            have behindStart := Offset.addressable_drop addressable start
            exact faithful.cut_eq linkedElem (Offset.addressable_drop behindStart size)

theorem fieldByIndex_eq
    {value : Value} (linked : value.view.Linked)
    (addressable : value.bytes.length < Offset.bound) (index : Nat) :
    arithmetic.fieldByIndex value index = of (value.fieldByIndex index) := by
  unfold Arithmetic.fieldByIndex Value.fieldByIndex
  cases value.expectStruct with
  | error error => rfl
  | ok _ =>
      change (match value.view.fields[index]? with | none => _ | some field => _) =
        of (match value.view.fields[index]? with | none => _ | some field => _)
      cases atIndex : value.view.fields[index]? with
      | none => rfl
      | some field =>
          obtain ⟨parts, follow, linkedParts⟩ := linked.fields
          obtain ⟨within, _⟩ := List.getElem?_eq_some_iff.mp atIndex
          rw [← Outcome.length_of_mapM follow] at within
          have atPart : parts[index]? = some parts[index] := List.getElem?_eq_getElem within
          obtain ⟨field', found, followed, followBefore⟩ := Outcome.getElem?_of_mapM follow atPart
          obtain rfl : field' = field := Option.some.inj (found.symm.trans atIndex)
          have linkedPart := linkedParts _ (List.getElem_mem within)
          have each : ∀ part ∈ parts.take index, ∀ rest : Bytes, rest.length < Offset.bound →
              arithmetic.size part rest = of (part.size rest) := by
            intro part member rest
            exact faithful.size_eq (linkedParts part (List.mem_of_mem_take member))
          have before := faithful.endOfParts_zero addressable each
            (fun _ _ _ => View.le_of_sizeWithin)
          dsimp only
          rw [Outcome.map_eq_of_mapM followBefore, before, followed,
            View.sizeOfFields_eq_sizeOfParts followBefore]
          cases measured : View.sizeOfParts View.size (parts.take index) value.bytes with
          | error error => rfl
          | ok offset =>
              have bound := Value.le_of_sizeOfParts measured
              change (rest value.bytes offset >>= arithmetic.cut _) =
                of (value.restFrom offset >>= Value.cut _)
              rw [rest, if_pos bound, Value.restFrom_of_le bound]
              exact faithful.cut_eq linkedPart (Offset.addressable_drop addressable offset)

theorem fieldByName_eq
    {value : Value} (linked : value.view.Linked)
    (addressable : value.bytes.length < Offset.bound) (name : String) :
    arithmetic.fieldByName value name = of (value.fieldByName name) := by
  unfold Arithmetic.fieldByName Value.fieldByName
  cases value.expectStruct with
  | error error => rfl
  | ok _ =>
      change (match value.view.fieldIndex? name with | none => _ | some index => _) =
        of (match value.view.fieldIndex? name with | none => _ | some index => _)
      cases value.view.fieldIndex? name with
      | none => rfl
      | some index => exact faithful.fieldByIndex_eq linked addressable index

theorem references_eq (value : Value) :
    arithmetic.references value = of value.references := by
  unfold Arithmetic.references Value.references
  cases value.view.referenceKind? with
  | none => rfl
  | some kind =>
      cases kind with
      | slice =>
          dsimp only
          rcases outcome : Reader.count value.bytes with ⟨error | count, rest⟩
          · simp only [Value.read, Reader.front, Reader.references, Reader.bind_apply, outcome]
            cases error <;> rfl
          · have counted : value.read Reader.count = .ok count := by
              simp only [Value.read, Reader.front, outcome]
            have small := (View.countAt_eq_ok_iff.mp ((value.read_count).symm.trans counted)).1
            rw [counted]
            change (of (arithmetic.referencesSize count) >>= _) = _
            rcases faithful.item?_cases count referenceSize Wire.countSize with
              found | ⟨_, large⟩
            · have left : difference (count * referenceSize + Wire.countSize) Wire.countSize =
                  .ok (32 * count) := by
                rw [difference, if_pos (Nat.le_add_left _ _), Nat.add_sub_cancel, Nat.mul_comm]
                rfl
              have same : value.read (readIdentifiers count (32 * count)) =
                  value.read Reader.references := by
                simp only [Value.read, Reader.front, readIdentifiers, Reader.references,
                  Reader.bind_apply, outcome]
              rw [referencesSize, found]
              change (difference (count * referenceSize + Wire.countSize) Wire.countSize >>=
                fun length => of (value.read (readIdentifiers count length))) = _
              rw [left]
              exact congrArg of same
            · unfold Wire.countBound at small
              unfold referenceSize Wire.countSize Offset.bound at large
              omega
      | _ => rfl

theorem cutAt_eq
    {view : View} (linked : view.Linked) {bytes : Bytes} {offset : Nat}
    (inside : offset ≤ bytes.length) (addressable : bytes.length < Offset.bound) :
    arithmetic.cutAt bytes (.ok view) offset =
      of ((Value.cut view (bytes.drop offset)).map
        fun value => (value, offset + value.bytes.length)) := by
  have left : (bytes.drop offset).length = bytes.length - offset := List.length_drop
  unfold cutAt
  rw [rest, if_pos inside]
  change (arithmetic.cut view (bytes.drop offset) >>= fun value => _) = _
  rw [faithful.cut_eq linked (by omega)]
  cases cutOut : Value.cut view (bytes.drop offset) with
  | error error => rfl
  | ok value =>
      have fits := length_le_of_cut cutOut
      change (arithmetic.advance offset value.bytes.length bytes.length >>= fun next => _) = _
      rw [faithful.advance_eq (by omega) addressable]
      rfl

/-- The parts are visited that can be cut out, as far as the callback accepts them. -/
theorem visit_eq
    (callback : Callback ι ε) {bytes : Bytes} (addressable : bytes.length < Offset.bound)
    {parts : List View} (linkedParts : ∀ part ∈ parts, part.Linked) {places : List ι}
    (sameLength : places.length = parts.length) {offset : Nat} (inside : offset ≤ bytes.length)
    (made : List (ι × Value)) :
    arithmetic.visit callback bytes (places.zip (parts.map .ok)) offset made =
      .ok (Value.announce callback (Value.cutParts parts (bytes.drop offset)).ending made
        (places.zip (Value.cutParts parts (bytes.drop offset)).values)) := by
  induction parts generalizing places offset made with
  | nil =>
      obtain rfl := List.length_eq_zero_iff.mp sameLength
      rfl
  | cons part parts induction =>
      obtain ⟨linkedFirst, linkedLater⟩ := List.forall_mem_cons.mp linkedParts
      cases places with
      | nil => cases sameLength
      | cons place places =>
          have found := faithful.cutAt_eq linkedFirst inside addressable
          rw [List.map_cons, List.zip_cons_cons, visit, found, Value.cutParts]
          cases cutOut : Value.cut part (bytes.drop offset) with
          | error error => rfl
          | ok value =>
              have fits := length_le_of_cut cutOut
              rw [List.length_drop] at fits
              dsimp only [Except.map, of, Except.mapError]
              rw [List.zip_cons_cons, Value.announce]
              cases callback (made ++ [(place, value)]) with
              | error error => rfl
              | ok _ =>
                  have later := induction linkedLater (Nat.succ.inj sameLength)
                    (by omega : offset + value.bytes.length ≤ bytes.length)
                    (made ++ [(place, value)])
                  rw [← List.drop_drop] at later
                  exact later

theorem rangeElements_eq
    {value : Value} (linked : value.view.Linked)
    (addressable : value.bytes.length < Offset.bound) (callback : Callback Nat ε) :
    arithmetic.rangeElements value callback = .ok (value.rangeElements callback) := by
  rw [Value.rangeElements_eq_announce, rangeElements, Value.elements]
  cases sequence : value.sequence with
  | error error => rfl
  | ok found =>
      obtain ⟨elem, count, start⟩ := found
      have linkedElem := linked.of_elem (Value.elem_of_sequence sequence)
      have linkedElems : ∀ part ∈ List.replicate count elem, part.Linked :=
        List.forall_mem_replicate.mpr (.inr linkedElem)
      have sameLength : (List.range count).length = (List.replicate count elem).length := by
        rw [List.length_range, List.length_replicate]
      have enough := length_cutParts_le (List.replicate count elem) (value.bytes.drop start)
      rw [List.length_replicate] at enough
      dsimp only
      rw [← List.map_replicate, faithful.visit_eq callback addressable linkedElems sameLength
        (Value.start_le_of_sequence sequence), List.range_eq_range', zip_range'_eq_zipIdx enough]

theorem rangeFields_eq
    {value : Value} (linked : value.view.Linked)
    (addressable : value.bytes.length < Offset.bound) (callback : Callback String ε) :
    arithmetic.rangeFields value callback = .ok (value.rangeFields callback) := by
  unfold Arithmetic.rangeFields
  by_cases isStruct : value.kind = .struct
  · have expected : value.expectStruct = .ok () := if_pos isStruct
    obtain ⟨parts, follow, linkedParts⟩ := linked.fields
    have sameLength : (value.view.fields.map Field.name).length = parts.length := by
      rw [List.length_map, Outcome.length_of_mapM follow]
    rw [expected, Value.rangeFields_eq_announce isStruct follow, Outcome.map_eq_of_mapM follow]
    exact faithful.visit_eq callback addressable linkedParts sameLength (Nat.zero_le _) []
  · have mismatch : value.expectStruct = value.mismatch .struct := if_neg isStruct
    rw [mismatch, Value.rangeFields, Value.forFields, mismatch]
    rfl

end Faithful

end Arithmetic

end TypedObject
