import TypedObject.Proofs.Value.Partition
import TypedObject.View.Path

/-!
# Cutting a value to its size

Parts are cut to their size and measured again when they are read.  That finds the same
size, unless the guard on counts refuses bytes that it did not refuse before: it counts
the bytes that follow, and takes an element whose fixed size is not found for one that
has bytes of its own.  An element without bytes that lies too deep for the search has
neither.
-/

namespace TypedObject

open View

variable {ε : Type} {registry : Registry}

namespace View

theorem sizeOfParts_replicate_of_zero
    {measure : View → Bytes → Except SchemaError Nat} {elem : View} {bytes : Bytes}
    (zero : measure elem bytes = .ok 0) (count : Nat) :
    sizeOfParts measure (List.replicate count elem) bytes = .ok 0 := by
  induction count with
  | zero => rfl
  | succ count induction =>
      refine Outcome.bind_eq_ok_iff.mpr ⟨0, zero, ?_⟩
      exact Outcome.bind_eq_ok_iff.mpr ⟨0, induction, rfl⟩

/-- Elements without bytes pass the guard when enough bytes follow them. -/
theorem sizeOfSequence_of_zero
    {measure : View → Bytes → Except SchemaError Nat} {elem : View}
    (unfixed : elem.fixedSize? = none) {rest : Bytes} (zero : measure elem rest = .ok 0)
    {count : Nat} (enough : count ≤ rest.length) (start : Bytes) :
    sizeOfSequence elem (measure elem) count start.length (start ++ rest) = .ok start.length := by
  refine sizeOfSequence_eq_ok_iff.mpr (.inr ⟨unfixed, ?_, 0, ?_, rfl⟩)
  · rw [List.drop_left]
    exact enough
  · rw [List.drop_left]
    exact sizeOfParts_replicate_of_zero zero count

theorem count_eq_zero_of_sizeOfSequence
    {measure : View → Bytes → Except SchemaError Nat} {elem : View}
    (unfixed : elem.fixedSize? = none) {start : Bytes} {count size : Nat}
    (measured : sizeOfSequence elem (measure elem) count start.length start = .ok size) :
    count = 0 := by
  obtain ⟨_, fixed, _⟩ | ⟨_, guarded, _⟩ := sizeOfSequence_eq_ok_iff.mp measured
  · rw [unfixed] at fixed
    cases fixed
  · rw [List.drop_length] at guarded
    exact Nat.le_zero.mp guarded

/-- Values that are cut to their size still have that size. -/
def SurvivesTrimming (view : View) : Prop :=
  ∀ bytes size, view.size bytes = .ok size → view.size (bytes.take size) = .ok size

variable {elem : View} {name : Option String} {inner : Schema} {bytes : Bytes}

/-- One element without bytes is refused once no bytes follow it. -/
theorem SurvivesTrimming.slice
    (survives : SurvivesTrimming ⟨registry, .slice name inner⟩)
    (follows : follow registry inner = .ok elem) (unfixed : elem.fixedSize? = none)
    (zero : sizeWithin depthLimit elem (bytes ++ [0]) = .ok 0) : False := by
  have one : 1 < Wire.countBound := by decide
  have start : (Wire.count 1).length = Wire.countSize := Wire.length_count 1
  have enough : 1 ≤ (bytes ++ [0]).length := by
    rw [List.length_append]
    exact Nat.le_add_left _ _
  have fits : (Wire.count 1).length ≤ (Wire.count 1 ++ (bytes ++ [0])).length := by
    rw [List.length_append]
    exact Nat.le_add_right _ _
  have sized := sizeOfSequence_of_zero unfixed zero enough (Wire.count 1)
  have whole : View.size ⟨registry, .slice name inner⟩ (Wire.count 1 ++ (bytes ++ [0])) =
      .ok (Wire.count 1).length :=
    (sizeWithin_slice_eq_ok_iff follows).mpr ⟨1, countAt_count_append one _, sized, fits⟩
  have trimmed := survives _ _ whole
  rw [List.take_left] at trimmed
  obtain ⟨count, counted, sized', _⟩ := (sizeWithin_slice_eq_ok_iff follows).mp trimmed
  have counted' := countAt_count_append one []
  rw [List.append_nil, counted] at counted'
  obtain rfl := Except.ok.inj counted'
  rw [← start] at sized'
  exact Nat.one_ne_zero (count_eq_zero_of_sizeOfSequence unfixed sized')

theorem SurvivesTrimming.array
    {length : Nat} (survives : SurvivesTrimming ⟨registry, .array name length inner⟩)
    (follows : follow registry inner = .ok elem) (unfixed : elem.fixedSize? = none)
    (zero : sizeWithin depthLimit elem (bytes ++ List.replicate length 0) = .ok 0) :
    length = 0 := by
  have enough : length ≤ (bytes ++ List.replicate length 0).length := by
    rw [List.length_append, List.length_replicate]
    exact Nat.le_add_left _ _
  have sized := sizeOfSequence_of_zero unfixed zero enough []
  have whole : View.size ⟨registry, .array name length inner⟩
      (bytes ++ List.replicate length 0) = .ok 0 :=
    (sizeWithin_array_eq_ok_iff follows).mpr ⟨sized, Nat.zero_le _⟩
  have sized' : sizeOfSequence elem (sizeWithin depthLimit elem) length ([] : Bytes).length [] =
      .ok 0 := ((sizeWithin_array_eq_ok_iff follows).mp (survives _ _ whole)).1
  exact count_eq_zero_of_sizeOfSequence unfixed sized'

theorem elementsTakeBytes_of_survivesTrimming
    (registered : registry.entries.Registered)
    (survives : ∀ view, Reachable registry view → view.SurvivesTrimming) :
    registry.ElementsTakeBytes := by
  intro view elem reachable repeats unfixed bytes zero
  obtain ⟨follows, form⟩ := repeats
  have zeroAppend (more : Bytes) : sizeWithin depthLimit elem (bytes ++ more) = .ok 0 := by
    have longer : bytes.length ≤ (bytes ++ more).length := by
      rw [List.length_append]
      omega
    have zero' : sizeWithin depthLimit elem ([] ++ bytes) = .ok ([] : Bytes).length := zero
    exact sizeWithin_append registered (Nat.le_refl _) (Nat.le_succ _) (.inl longer)
      (reachable.elem follows) zero'
  have survivesView := survives view reachable
  obtain ⟨registry', schema⟩ := view
  rcases form with ⟨name, inner, rfl⟩ | ⟨name, length, inner, rfl, nonempty⟩
  · exact survivesView.slice follows unfixed (zeroAppend [0])
  · exact nonempty (survivesView.array follows unfixed (zeroAppend _))

theorem survivesTrimming_of_elementsTakeBytes
    (registered : registry.entries.Registered) (takeBytes : registry.ElementsTakeBytes)
    {view : View} (reachable : Reachable registry view) : view.SurvivesTrimming := by
  intro bytes size measured
  have alone := size_take_append registered takeBytes reachable measured []
  rw [List.append_nil] at alone
  exact alone

/-- It is enough that elements without bytes lie within the depth limit. -/
theorem elementsTakeBytes_of_shallow
    (registered : registry.entries.Registered)
    (shallow : ∀ view elem, Reachable registry view → view.Repeats elem → elem.Encodes [] →
      EncodesWithin (depthLimit + 1) elem []) : registry.ElementsTakeBytes := by
  intro view elem reachable repeats unfixed bytes zero
  have linked := (reachable.elem repeats.1).linked registered
  obtain ⟨encoded, rest, _, length, within⟩ := sound_sizeWithin linked bytes 0 zero
  obtain rfl := List.length_eq_zero_iff.mp length
  have sizes := sizes_fixedSizeWithin (shallow view elem reachable repeats ⟨_, within⟩)
    (Nat.le_refl _) (by decide)
  rcases sizes with fixed | ⟨_, positive⟩
  · have fixed' : elem.fixedSize? = some ([] : Bytes).length := fixed
    rw [unfixed] at fixed'
    cases fixed'
  · exact absurd positive (Nat.lt_irrefl 0)

end View

namespace Value

/-- Every part is cut out of bytes that begin with it. -/
theorem exists_cut_of_step
    {value part : Value} (reachable : Reachable registry value.view) {step : Step}
    (taken : value.step step = .ok part) :
    ∃ view rest, Reachable registry view ∧ cut view rest = .ok part := by
  have ofField {index : Nat} (found : value.fieldByIndex index = .ok part) :
      ∃ view rest, Reachable registry view ∧ cut view rest = .ok part := by
    obtain ⟨field, view, rest, atIndex, followed, cutOut⟩ := exists_cut_of_fieldByIndex found
    exact ⟨view, rest, reachable.field atIndex followed, cutOut⟩
  cases step with
  | index index =>
      obtain ⟨elem, rest, follows, cutOut⟩ := exists_cut_of_index taken
      exact ⟨elem, rest, reachable.elem follows, cutOut⟩
  | field index => exact ofField taken
  | name name =>
      obtain ⟨index, found⟩ := exists_fieldByIndex_of_fieldByName taken
      exact ofField found

theorem exists_cut_of_rangeElements
    {value : Value} (reachable : Reachable registry value.view) {call : Nat × Value}
    (made : call ∈ (value.rangeElements (.accept : Callback Nat ε)).calls) :
    ∃ view rest, Reachable registry view ∧ cut view rest = .ok call.2 := by
  rw [rangeElements_eq_announce, announce_accept] at made
  obtain ⟨⟨part, index⟩, member, rfl⟩ := List.mem_map.mp made
  have inside : part ∈ value.elements.values :=
    List.mem_of_getElem? (List.mk_mem_zipIdx_iff_getElem?.mp member)
  unfold elements at inside
  split at inside
  · cases inside
  · rename_i elem length start sequence
    obtain ⟨view, among, rest, cutOut⟩ := exists_cut_of_mem_cutParts inside
    obtain rfl := List.eq_of_mem_replicate among
    exact ⟨view, rest, reachable.elem (elem_of_sequence sequence), cutOut⟩

theorem exists_cut_of_rangeFields
    (registered : registry.entries.Registered) {value : Value}
    (reachable : Reachable registry value.view) (isStruct : value.kind = .struct)
    {call : String × Value}
    (made : call ∈ (value.rangeFields (.accept : Callback String ε)).calls) :
    ∃ view rest, Reachable registry view ∧ cut view rest = .ok call.2 := by
  obtain ⟨parts, follow, _⟩ := (reachable.linked registered).fields
  rw [rangeFields_eq_announce isStruct follow, announce_accept, List.nil_append] at made
  obtain ⟨view, among, rest, cutOut⟩ := exists_cut_of_mem_cutParts (List.of_mem_zip made).2
  exact ⟨view, rest, reachable.parts follow view among, cutOut⟩

theorem data_of_cut
    {view : View} (survives : view.SurvivesTrimming) {rest : Bytes} {part : Value}
    (cutOut : cut view rest = .ok part) : part.data = .ok part.bytes := by
  obtain ⟨size, measured, same⟩ := Outcome.bind_eq_ok_iff.mp cutOut
  cases same
  refine Outcome.bind_eq_ok_iff.mpr ⟨size, survives rest size measured, ?_⟩
  rw [List.take_take, Nat.min_self]
  rfl

/-- Cutting values to their size is harmless in exactly the registries where every
element without a fixed size takes a byte.  There no bytes after a value matter, and the
parts that access and traversal cut out can be measured again. -/
theorem trimming_harmless_iff
    {registry : Registry} (returned : registry.Returned) :
    ((∀ view, Reachable registry view → view.SurvivesTrimming) ↔ registry.ElementsTakeBytes) ∧
    (registry.ElementsTakeBytes →
      (∀ view, Reachable registry view → ∀ bytes size, view.size bytes = .ok size →
        ∀ rest, view.size (bytes.take size ++ rest) = .ok size) ∧
      ∀ value : Value, Reachable registry value.view →
        (∀ (step : Step) part, value.step step = .ok part → part.data = .ok part.bytes) ∧
        (∀ call ∈ (value.rangeElements (.accept : Callback Nat ε)).calls,
          call.2.data = .ok call.2.bytes) ∧
        (value.kind = .struct → ∀ call ∈ (value.rangeFields (.accept : Callback String ε)).calls,
          call.2.data = .ok call.2.bytes)) := by
  have registered := returned.registered
  refine ⟨⟨elementsTakeBytes_of_survivesTrimming registered, ?_⟩, ?_⟩
  · intro takeBytes view reachable
    exact survivesTrimming_of_elementsTakeBytes registered takeBytes reachable
  · intro takeBytes
    have again {part : Value}
        (found : ∃ view rest, Reachable registry view ∧ cut view rest = .ok part) :
        part.data = .ok part.bytes := by
      obtain ⟨view, rest, reachable, cutOut⟩ := found
      exact data_of_cut
        (survivesTrimming_of_elementsTakeBytes registered takeBytes reachable) cutOut
    refine ⟨?_, ?_⟩
    · intro view reachable bytes size measured
      exact size_take_append registered takeBytes reachable measured
    · intro value reachable
      refine ⟨?_, ?_, ?_⟩
      · intro step part taken
        exact again (exists_cut_of_step reachable taken)
      · intro call made
        exact again (exists_cut_of_rangeElements reachable made)
      · intro isStruct call made
        exact again (exists_cut_of_rangeFields registered reachable isStruct made)

theorem not_encodes_nil_nodeView : ¬nodeView.Encodes [] := by
  intro encodes
  obtain ⟨levels, within⟩ := encodes
  cases levels with
  | zero => cases within
  | succ levels =>
      obtain ⟨parts, follow, run⟩ := within
      cases follow
      obtain ⟨first, others, item, _, split⟩ := run
      obtain ⟨rfl, _⟩ := List.append_eq_nil_iff.mp split.symm
      cases levels with
      | zero => cases item
      | succ levels => rcases item with fixed | ⟨isString, _⟩ <;> contradiction

theorem elementsTakeBytes_nodeRegistry : Registry.nodeRegistry.ElementsTakeBytes := by
  apply elementsTakeBytes_of_shallow Registry.returned_nodeRegistry.registered
  intro view elem reachable repeats encodes
  obtain ⟨follows, form⟩ := repeats
  obtain ⟨sameRegistry, entry, member, inside⟩ := reachable.mem_nodes
  obtain ⟨registry, schema⟩ := view
  cases sameRegistry
  cases List.mem_singleton.mp member
  rcases form with ⟨name, inner, rfl⟩ | ⟨name, length, inner, rfl, _⟩ <;>
    simp [Registry.nodeSchema, Schema.nodes, Schema.descendants, Schema.descendantsOfFields,
      Schema.referenceTo] at inside
  obtain ⟨rfl, rfl⟩ := inside
  cases follows
  exact absurd encodes not_encodes_nil_nodeView

/-- The second child is cut out of a list and measured again. -/
theorem data_child :
    (Value.mk nodeView (nodeBytes 7 [nodeBytes 9 []])).data =
      .ok (nodeBytes 7 [nodeBytes 9 []]) := by
  have taken : twoChildren.step (.index 1) = .ok ⟨nodeView, nodeBytes 7 [nodeBytes 9 []]⟩ := rfl
  have harmless : Registry.nodeRegistry.ElementsTakeBytes → _ :=
    (@trimming_harmless_iff Unit _ Registry.returned_nodeRegistry).2
  exact ((harmless elementsTakeBytes_nodeRegistry).2 twoChildren reachable_childrenView).1 _ _ taken

end Value

/-- Arrays of one element around a schema. -/
def Schema.wrapped : Nat → Schema → Schema
  | 0, inner => inner
  | count + 1, inner => .array none 1 (wrapped count inner)

namespace Registry

/-- A named entry that wraps the entry of another name in 104 arrays. -/
def layer (name inner : String) : String × Schema :=
  (name, .array (some name) 1 (.wrapped 103 (.placeholder .array inner)))

/-- Lists of values without bytes that lie below 520 arrays. -/
def deepRegistry : Registry :=
  ⟨[("Empty", .array (some "Empty") 0 (.scalar .bool none)), layer "Layer1" "Empty",
    layer "Layer2" "Layer1", layer "Layer3" "Layer2", layer "Layer4" "Layer3",
    layer "Layer5" "Layer4", ("List", .slice (some "List") (.placeholder .array "Layer5"))], none⟩

theorem returned_deepRegistry : deepRegistry.Returned :=
  returned_of_canonical (by decide +kernel)

end Registry

namespace View

def deepView : View := ⟨Registry.deepRegistry, .slice (some "List") (.placeholder .array "Layer5")⟩

/-- A list of one value without bytes is refused when nothing follows it. -/
theorem not_survivesTrimming_deepView :
    Registry.deepRegistry.Returned ∧ Reachable Registry.deepRegistry deepView ∧
      deepView.size (Wire.count 1 ++ [9]) = .ok 4 ∧
      deepView.size ((Wire.count 1 ++ [9]).take 4) = .error .invalidSchemaOrData := by
  have reachable : Reachable Registry.deepRegistry deepView :=
    .byName (rfl : Registry.deepRegistry.viewByName "List" = .ok deepView)
  refine ⟨Registry.returned_deepRegistry, reachable, ?_, ?_⟩
  · decide +kernel
  · decide +kernel

end View

end TypedObject
