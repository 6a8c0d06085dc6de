import TypedObject.Proofs.Arithmetic.Access
import TypedObject.Proofs.Value.Trimming

/-!
# No access has a fault

Whatever parts are taken from a value, one from the other, each has a view of the
registry and no more bytes than the value.  So however many accesses came before, the
next one reckons with words as it would with integers and answers as it should.
-/

namespace TypedObject

open View

namespace Value

variable {ε : Type} {registry : Registry}

/-- Reckoned this way, every access gives the answer that it should and has no fault. -/
structure Safe (value : Value) (arithmetic : Arithmetic) : Prop where
  fixedSize?_eq : value.view.fixedSize? = (arithmetic.fixedSize? value.view).bind Offset.ofNat?
  size_eq : arithmetic.size value.view value.bytes = .of (value.view.size value.bytes)
  data_eq : arithmetic.data value = .of value.data
  index_eq : ∀ index, arithmetic.index value index = .of (value.index index)
  fieldByIndex_eq : ∀ index, arithmetic.fieldByIndex value index = .of (value.fieldByIndex index)
  fieldByName_eq : ∀ name, arithmetic.fieldByName value name = .of (value.fieldByName name)
  references_eq : arithmetic.references value = .of value.references
  rangeElements_eq : ∀ {ε : Type} (callback : Callback Nat ε),
    arithmetic.rangeElements value callback = .ok (value.rangeElements callback)
  rangeFields_eq : ∀ {ε : Type} (callback : Callback String ε),
    arithmetic.rangeFields value callback = .ok (value.rangeFields callback)

theorem safe_of_faithful
    {arithmetic : Arithmetic} (faithful : arithmetic.Faithful) {value : Value}
    (linked : value.view.Linked) (addressable : value.bytes.length < Offset.bound) :
    value.Safe arithmetic where
  fixedSize?_eq := faithful.fixedSize?_eq linked
  size_eq := faithful.size_eq linked addressable
  data_eq := faithful.data_eq linked addressable
  index_eq := faithful.index_eq linked addressable
  fieldByIndex_eq := faithful.fieldByIndex_eq linked addressable
  fieldByName_eq := faithful.fieldByName_eq linked addressable
  references_eq := faithful.references_eq value
  rangeElements_eq := faithful.rangeElements_eq linked addressable
  rangeFields_eq := faithful.rangeFields_eq linked addressable

/-- The part was taken from the value by accesses, one after the other. -/
inductive Obtained (value : Value) : Value → Prop where
  | self : Obtained value value
  | step {part next : Value} {step : Step} (obtained : Obtained value part)
      (taken : part.step step = .ok next) : Obtained value next
  | element {ε : Type} {part next : Value} {callback : Callback Nat ε} {index : Nat}
      (obtained : Obtained value part)
      (visited : (index, next) ∈ (part.rangeElements callback).calls) : Obtained value next
  | field {ε : Type} {part next : Value} {callback : Callback String ε} {name : String}
      (obtained : Obtained value part)
      (visited : (name, next) ∈ (part.rangeFields callback).calls) : Obtained value next

/-- The part has a view of the registry, and no more bytes than there are. -/
structure Within (registry : Registry) (available : Nat) (part : Value) : Prop where
  reachable : Reachable registry part.view
  length_le : part.bytes.length ≤ available

theorem within_of_cut
    {view : View} (reachable : Reachable registry view) {rest : Bytes} {part : Value}
    (cutOut : cut view rest = .ok part) : Within registry rest.length part := by
  have length_le := Arithmetic.length_le_of_cut cutOut
  obtain ⟨size, _, same⟩ := Outcome.bind_eq_ok_iff.mp cutOut
  cases same
  exact ⟨reachable, length_le⟩

theorem Within.mono
    {available more : Nat} {part : Value} (within : Within registry available part)
    (enough : available ≤ more) : Within registry more part :=
  ⟨within.reachable, Nat.le_trans within.length_le enough⟩

/-- A part of what lies behind an offset is a part of all the bytes. -/
theorem Within.of_drop
    {bytes : Bytes} {offset : Nat} {part : Value}
    (within : Within registry (bytes.drop offset).length part) :
    Within registry bytes.length part :=
  within.mono (List.drop_sublist offset bytes).length_le

theorem restFrom_eq_drop
    {value : Value} {offset : Nat} {rest : Bytes} (found : value.restFrom offset = .ok rest) :
    rest = value.bytes.drop offset := by
  unfold restFrom at found
  split at found
  · cases found
  · cases found
    rfl

theorem within_of_index
    {value part : Value} (reachable : Reachable registry value.view) {index : Nat}
    (taken : value.index index = .ok part) : Within registry value.bytes.length part := by
  obtain ⟨⟨elem, length, start⟩, sequence, continued⟩ := Outcome.bind_eq_ok_iff.mp taken
  dsimp only at continued
  split at continued
  · cases continued
  · obtain ⟨offset, _, continued⟩ := Outcome.bind_eq_ok_iff.mp continued
    obtain ⟨rest, found, cutOut⟩ := Outcome.bind_eq_ok_iff.mp continued
    obtain rfl := restFrom_eq_drop found
    exact (within_of_cut (reachable.elem (elem_of_sequence sequence)) cutOut).of_drop

theorem within_of_fieldByIndex
    {value part : Value} (reachable : Reachable registry value.view) {index : Nat}
    (taken : value.fieldByIndex index = .ok part) : Within registry value.bytes.length part := by
  obtain ⟨_, _, continued⟩ := Outcome.bind_eq_ok_iff.mp taken
  split at continued
  · cases continued
  · rename_i field atIndex
    obtain ⟨offset, _, continued⟩ := Outcome.bind_eq_ok_iff.mp continued
    obtain ⟨view, followed, continued⟩ := Outcome.bind_eq_ok_iff.mp continued
    obtain ⟨rest, found, cutOut⟩ := Outcome.bind_eq_ok_iff.mp continued
    obtain rfl := restFrom_eq_drop found
    exact (within_of_cut (reachable.field atIndex followed) cutOut).of_drop

theorem within_of_step
    {value part : Value} (reachable : Reachable registry value.view) {step : Step}
    (taken : value.step step = .ok part) : Within registry value.bytes.length part := by
  cases step with
  | index index => exact within_of_index reachable taken
  | field index => exact within_of_fieldByIndex reachable taken
  | name name =>
      obtain ⟨index, found⟩ := exists_fieldByIndex_of_fieldByName taken
      exact within_of_fieldByIndex reachable found

theorem within_of_mem_cutParts
    {parts : List View} (reachable : ∀ part ∈ parts, Reachable registry part) {bytes : Bytes}
    {value : Value} (member : value ∈ (cutParts parts bytes).values) :
    Within registry bytes.length value := by
  induction parts generalizing bytes with
  | nil => cases member
  | cons part parts induction =>
      obtain ⟨reachableFirst, reachableLater⟩ := List.forall_mem_cons.mp reachable
      rw [cutParts] at member
      cases cutOut : cut part bytes with
      | error error =>
          rw [cutOut] at member
          cases member
      | ok first =>
          rw [cutOut] at member
          rcases List.mem_cons.mp member with rfl | later
          · exact within_of_cut reachableFirst cutOut
          · exact (induction reachableLater later).of_drop

/-- No call is made but the announced ones. -/
theorem mem_of_mem_announce
    {ι : Type} {callback : Callback ι ε} {ending : Except SchemaError Unit}
    {made calls : List (ι × Value)} {call : ι × Value}
    (member : call ∈ (announce callback ending made calls).calls) : call ∈ made ++ calls := by
  induction calls generalizing made with
  | nil =>
      rw [List.append_nil]
      exact member
  | cons first calls induction =>
      rw [announce] at member
      rw [List.append_cons]
      cases answer : callback (made ++ [first]) with
      | error error =>
          rw [answer] at member
          exact List.mem_append_left _ member
      | ok _ =>
          rw [answer] at member
          exact induction member

theorem within_of_rangeElements
    {value part : Value} (reachable : Reachable registry value.view) {callback : Callback Nat ε}
    {index : Nat} (visited : (index, part) ∈ (value.rangeElements callback).calls) :
    Within registry value.bytes.length part := by
  rw [rangeElements_eq_announce] at visited
  obtain ⟨⟨element, _⟩, member, same⟩ := List.mem_map.mp (mem_of_mem_announce visited)
  obtain ⟨_, rfl⟩ := Prod.mk.inj same
  have inside : element ∈ value.elements.values :=
    List.mem_of_getElem? (List.mk_mem_zipIdx_iff_getElem?.mp member)
  unfold elements at inside
  split at inside
  · cases inside
  · rename_i elem length start sequence
    have reachableElem := reachable.elem (elem_of_sequence sequence)
    have elems : ∀ view ∈ List.replicate length elem, Reachable registry view :=
      List.forall_mem_replicate.mpr (.inr reachableElem)
    exact (within_of_mem_cutParts elems inside).of_drop

theorem within_of_rangeFields
    (registered : registry.entries.Registered) {value part : Value}
    (reachable : Reachable registry value.view) {callback : Callback String ε} {name : String}
    (visited : (name, part) ∈ (value.rangeFields callback).calls) :
    Within registry value.bytes.length part := by
  by_cases isStruct : value.kind = .struct
  · obtain ⟨parts, follow, _⟩ := (reachable.linked registered).fields
    rw [rangeFields_eq_announce isStruct follow] at visited
    have inside := (List.of_mem_zip (mem_of_mem_announce visited)).2
    exact within_of_mem_cutParts (reachable.parts follow) inside
  · have mismatch : value.expectStruct = value.mismatch .struct := if_neg isStruct
    rw [rangeFields, forFields, mismatch] at visited
    cases visited

theorem Obtained.within
    (registered : registry.entries.Registered) {value part : Value}
    (reachable : Reachable registry value.view) (obtained : value.Obtained part) :
    Within registry value.bytes.length part := by
  induction obtained with
  | self => exact ⟨reachable, Nat.le_refl _⟩
  | step _ taken within => exact (within_of_step within.reachable taken).mono within.length_le
  | element _ visited within =>
      exact (within_of_rangeElements within.reachable visited).mono within.length_le
  | field _ visited within =>
      exact (within_of_rangeFields registered within.reachable visited).mono within.length_le

/-- Whatever accesses led to a part of the value, every access to the part is safe with
words: its sums stay within the bytes, it cuts only where there are bytes, and it answers
as it should, so that a product which words refuse ends in the same refusal of the data
as with integers.  A fixed size is missing where words cannot hold it. -/
theorem safe_of_obtained
    (returned : registry.Returned) {value : Value} (reachable : Reachable registry value.view)
    (addressable : value.bytes.length < Offset.bound) {part : Value}
    (obtained : value.Obtained part) :
    part.bytes.length ≤ value.bytes.length ∧ part.Safe .words ∧ part.Safe .integers ∧
      Arithmetic.words.fixedSize? part.view = part.view.fixedSize? := by
  have within := obtained.within returned.registered reachable
  have linked := within.reachable.linked returned.registered
  have addressablePart := Nat.lt_of_le_of_lt within.length_le addressable
  exact ⟨within.length_le, safe_of_faithful Arithmetic.faithful_words linked addressablePart,
    safe_of_faithful Arithmetic.faithful_integers linked addressablePart,
    Arithmetic.words_fixedSizeWithin linked⟩

end Value

/-- Arrays in arrays in arrays, of the greatest length that can be written. -/
def Registry.vastRegistry : Registry :=
  ⟨[("Vast", .array (some "Vast") 4294967295
    (.array none 4294967295 (.array none 4294967295 (.scalar .uint64 none))))], none⟩

theorem Registry.returned_vastRegistry : vastRegistry.Returned :=
  returned_of_canonical (by decide +kernel)

namespace Value

/-- Three bytes where an array takes eight times the cube of its length. -/
def vastArray : Value :=
  ⟨⟨Registry.vastRegistry, .array (some "Vast") 4294967295
    (.array none 4294967295 (.array none 4294967295 (.scalar .uint64 none)))⟩, [1, 2, 3]⟩

/-- Words find no size for the array and integers do, and both refuse it; and a part of a
list is safe like the list. -/
theorem safe_vastArray_and_secondChild :
    (Arithmetic.words.fixedSize? vastArray.view = none ∧
      Arithmetic.integers.fixedSize? vastArray.view = some (8 * 4294967295 ^ 3) ∧
      vastArray.Safe .words ∧ vastArray.Safe .integers) ∧
      Safe ⟨nodeView, nodeBytes 7 [nodeBytes 9 []]⟩ .words := by
  have reachable : Reachable Registry.vastRegistry vastArray.view :=
    .byName (rfl : Registry.vastRegistry.viewByName "Vast" = .ok vastArray.view)
  have taken : twoChildren.step (.index 1) = .ok ⟨nodeView, nodeBytes 7 [nodeBytes 9 []]⟩ := rfl
  obtain ⟨_, words, integers, _⟩ :=
    safe_of_obtained Registry.returned_vastRegistry reachable (by decide) .self
  obtain ⟨_, child, _, _⟩ :=
    safe_of_obtained Registry.returned_nodeRegistry reachable_childrenView (by decide)
      (.step .self taken)
  exact ⟨⟨by decide +kernel, by decide +kernel, words, integers⟩, child⟩

end Value

end TypedObject
