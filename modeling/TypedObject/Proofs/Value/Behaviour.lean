import TypedObject.Proofs.Registry.Content
import TypedObject.Proofs.Registry.RegistrationOrder
import TypedObject.Proofs.Registry.WireSurvival
import TypedObject.Proofs.View.Retyping

/-!
# The behaviour of a registry

Registries of one encoding have the same entries and differ at most in the types that
they know, which no view and no value looks at.  So whatever path is taken through
views and values, both registries lead to the same results or to the same error.
-/

namespace TypedObject

namespace Outcome

/-- Both succeed with related values, or both fail with the same error. -/
inductive Alike {ε α β : Type} (related : α → β → Prop) : Except ε α → Except ε β → Prop where
  | ok {value : α} {other : β} (close : related value other) :
      Alike related (.ok value) (.ok other)
  | error (error : ε) : Alike related (.error error) (.error error)

theorem alike_map
    {ε α β : Type} {related : α → β → Prop} {function : α → β}
    (close : ∀ value, related value (function value)) (result : Except ε α) :
    Alike related result (result.map function) := by
  cases result with
  | error error => apply Alike.error
  | ok value => exact .ok (close value)

end Outcome

/-- The views show the same before any step is taken, and measure bytes alike. -/
structure View.Agree (view other : View) : Prop where
  kind : view.kind = other.kind
  name? : view.name? = other.name?
  referenceKind? : view.referenceKind? = other.referenceKind?
  arrayLength? : view.arrayLength? = other.arrayLength?
  fields : view.fields.map (fun field => (field.name, field.tag)) =
    other.fields.map fun field => (field.name, field.tag)
  encode : view.encode = other.encode
  fixedSize? : view.fixedSize? = other.fixedSize?
  size : ∀ bytes, view.size bytes = other.size bytes

/-- Everything that is read from the values is the same. -/
structure Value.Agree (value other : Value) : Prop where
  view : value.view.Agree other.view
  bytes : value.bytes = other.bytes
  data : value.data = other.data
  length : value.length = other.length
  isEmpty : value.isEmpty = other.isEmpty
  fieldCount : value.fieldCount = other.fieldCount
  fieldNames : value.fieldNames = other.fieldNames
  bool : value.bool = other.bool
  int : value.int = other.int
  uint : value.uint = other.uint
  float : value.float = other.float
  string : value.string = other.string
  byteSlice : value.byteSlice = other.byteSlice
  reference : value.reference = other.reference
  references : value.references = other.references
  dynamic : value.dynamic = other.dynamic
  targetView : Outcome.Alike View.Agree value.targetView other.targetView

/-- The views agree, and so do all parts of values of them. -/
def View.SameBehaviour (view other : View) : Prop :=
  view.Agree other ∧ ∀ bytes path, Outcome.Alike Value.Agree
    ((Value.mk view bytes).walk path) ((Value.mk other bytes).walk path)

variable (types? : Option (List (TypeExpr × String)))

theorem View.agree_retyped (view : View) : view.Agree (view.retyped types?) where
  kind := rfl
  name? := rfl
  referenceKind? := rfl
  arrayLength? := rfl
  fields := rfl
  encode := rfl
  fixedSize? := (view.fixedSize?_retyped types?).symm
  size bytes := by rw [view.size_retyped]

namespace Value

def retyped (value : Value) : Value := ⟨value.view.retyped types?, value.bytes⟩

theorem data_retyped (value : Value) : (value.retyped types?).data = value.data := by
  have size := value.view.size_retyped types?
  simp only [data, retyped, size]

theorem byteSlice_retyped (value : Value) :
    (value.retyped types?).byteSlice = value.byteSlice := by
  have elem := value.view.elem_retyped types?
  have kind : (value.retyped types?).kind = value.kind := rfl
  unfold byteSlice
  rw [kind]
  simp only [retyped, elem]
  cases value.kind <;> cases value.view.elem <;> rfl

theorem targetView_retyped (value : Value) :
    (value.retyped types?).targetView = value.targetView.map (View.retyped types?) := by
  have elem := value.view.elem_retyped types?
  have kind : (value.retyped types?).view.referenceKind? = value.view.referenceKind? := rfl
  have dynamic : (value.retyped types?).dynamic = value.dynamic := rfl
  unfold targetView
  rw [kind, dynamic]
  split
  · rw [Outcome.map_bind]
    congr 1
    funext found
    exact View.viewByReference_retyped types? value.view.registry found.schema
  · exact elem
  · rfl

theorem cut_retyped (view : View) (bytes : Bytes) :
    cut (view.retyped types?) bytes = (cut view bytes).map (retyped types?) := by
  unfold cut
  rw [view.size_retyped, Outcome.map_bind]
  rfl

theorem sequence_retyped (value : Value) :
    (value.retyped types?).sequence =
      value.sequence.map fun (elem, length, start) => (elem.retyped types?, length, start) := by
  obtain ⟨⟨registry, schema⟩, bytes⟩ := value
  unfold sequence
  cases schema with
  | array name length inner =>
      simp only [retyped, View.schema_retyped, View.elem_retyped, Outcome.bind_map,
        Outcome.map_bind]
      rfl
  | slice name inner =>
      simp only [retyped, View.schema_retyped, View.elem_retyped, Outcome.bind_map,
        Outcome.map_bind]
      rfl
  | _ => rfl

theorem offsetOf_retyped (value : Value) (elem : View) (index start : Nat) :
    (value.retyped types?).offsetOf (elem.retyped types?) index start =
      value.offsetOf elem index start := by
  unfold offsetOf
  rw [elem.fixedSize?_retyped, elem.size_retyped]
  rfl

theorem index_retyped (value : Value) (index : Nat) :
    (value.retyped types?).index index = (value.index index).map (retyped types?) := by
  unfold Value.index
  rw [sequence_retyped, Outcome.bind_map, Outcome.map_bind]
  congr 1
  funext found
  obtain ⟨elem, length, start⟩ := found
  have rest (offset : Nat) : (value.retyped types?).restFrom offset = value.restFrom offset := rfl
  by_cases outside : length ≤ index
  · simp only [outside, if_true]
    rfl
  · simp only [outside, if_false, offsetOf_retyped, rest, cut_retyped, Outcome.map_bind]

theorem fieldByIndex_retyped (value : Value) (index : Nat) :
    (value.retyped types?).fieldByIndex index =
      (value.fieldByIndex index).map (retyped types?) := by
  have isStruct : (value.retyped types?).expectStruct = value.expectStruct := rfl
  have fields : (value.retyped types?).view.fields = value.view.fields := rfl
  have rest (offset : Nat) : (value.retyped types?).restFrom offset = value.restFrom offset := rfl
  unfold fieldByIndex
  rw [isStruct, fields, Outcome.map_bind]
  congr 1
  funext _
  cases value.view.fields[index]? with
  | none => rfl
  | some field =>
      have offset := View.sizeOfFields_retyped types? value.view
        (value.view.fields.take index) value.bytes
      have part := value.view.ofField_retyped types? field
      simp only [rest, Outcome.map_bind]
      simp only [retyped, offset, part, Outcome.bind_map, cut_retyped]

theorem fieldByName_retyped (value : Value) (name : String) :
    (value.retyped types?).fieldByName name = (value.fieldByName name).map (retyped types?) := by
  have isStruct : (value.retyped types?).expectStruct = value.expectStruct := rfl
  have place : (value.retyped types?).view.fieldIndex? name = value.view.fieldIndex? name := rfl
  unfold fieldByName
  rw [isStruct, place, Outcome.map_bind]
  congr 1
  funext _
  cases value.view.fieldIndex? name with
  | none => rfl
  | some index => exact value.fieldByIndex_retyped types? index

theorem step_retyped (value : Value) (step : Step) :
    (value.retyped types?).step step = (value.step step).map (retyped types?) := by
  cases step with
  | index index => exact value.index_retyped types? index
  | field index => exact value.fieldByIndex_retyped types? index
  | name name => exact value.fieldByName_retyped types? name

theorem walk_retyped (value : Value) (path : List Step) :
    (value.retyped types?).walk path = (value.walk path).map (retyped types?) := by
  induction path generalizing value with
  | nil => rfl
  | cons step path induction =>
      unfold walk at induction ⊢
      rw [List.foldlM_cons, List.foldlM_cons, step_retyped, Outcome.bind_map, Outcome.map_bind]
      simp only [induction]

theorem agree_retyped (value : Value) : value.Agree (value.retyped types?) where
  view := value.view.agree_retyped types?
  bytes := rfl
  data := (value.data_retyped types?).symm
  length := rfl
  isEmpty := rfl
  fieldCount := rfl
  fieldNames := rfl
  bool := rfl
  int := rfl
  uint := rfl
  float := rfl
  string := rfl
  byteSlice := (value.byteSlice_retyped types?).symm
  reference := rfl
  references := rfl
  dynamic := rfl
  targetView := by
    rw [targetView_retyped]
    exact Outcome.alike_map (View.agree_retyped types?) _

end Value

theorem View.sameBehaviour_retyped (view : View) :
    view.SameBehaviour (view.retyped types?) := by
  refine ⟨view.agree_retyped types?, fun bytes path => ?_⟩
  have walk : (Value.mk (view.retyped types?) bytes).walk path =
      ((Value.mk view bytes).walk path).map (Value.retyped types?) :=
    Value.walk_retyped types? ⟨view, bytes⟩ path
  rw [walk]
  exact Outcome.alike_map (Value.agree_retyped types?) _

namespace Registry

/-- Registries with the same encoding have the same names, and every path through their
views leads to views that behave alike, or to nothing, or to the same error. -/
theorem sameBehaviour_of_encode_eq
    {first second : Registry} (soundFirst : first.Sound) (soundSecond : second.Sound)
    (same : first.encode = second.encode) :
    first.names = second.names ∧ ∀ name path,
      Outcome.Alike (Option.Rel View.SameBehaviour)
        (first.viewByName name >>= fun view => view.walk path)
        (second.viewByName name >>= fun view => view.walk path) := by
  have sameEntries := soundFirst.entries_eq_of_encode_eq soundSecond same
  obtain ⟨entries, types?⟩ := second
  cases sameEntries
  refine ⟨rfl, fun name path => ?_⟩
  have walk : ((first.retyped types?).viewByName name >>= fun view => view.walk path) =
      (first.viewByName name >>= fun view => view.walk path).map
        (Option.map (View.retyped types?)) := by
    rw [View.viewByName_retyped, Outcome.bind_map, Outcome.map_bind]
    simp only [View.walk_retyped]
  have close (found : Option View) :
      Option.Rel View.SameBehaviour found (found.map (View.retyped types?)) := by
    cases found with
    | none => apply Option.Rel.none
    | some view => exact .some (view.sameBehaviour_retyped types?)
  have alike := Outcome.alike_map close (first.viewByName name >>= fun view => view.walk path)
  rw [← walk] at alike
  exact alike

theorem sound_folderRegistry : folderRegistry.Sound := by
  apply Sound.declared (.inl declare_folderRegistry)
  · intro declaration member
    simp only [folderDeclarations, List.mem_cons, List.not_mem_nil, or_false] at member
    rcases member with rfl | rfl
    · simp [Layout.Sound, FieldDeclaration.plain, TypeExpr.Sound]
    · simp [Layout.Sound, FieldDeclaration.plain, FieldDeclaration.reference, TypeExpr.Sound]
  · intro call member
    simp only [folderCalls, List.mem_cons, List.not_mem_nil, or_false] at member
    rcases member with rfl | rfl <;> trivial
  · decide
  · decide +kernel

theorem sameBehaviour_folderRegistry_decoded :
    ∃ decoded, decode folderRegistry.encode = .ok decoded ∧
      decoded.isBuildCapable = false ∧ folderRegistry.isBuildCapable = true ∧
      Outcome.Alike (Option.Rel View.SameBehaviour)
        (folderRegistry.viewByName "Folder" >>= fun view =>
          view.walk [.name "files", .elem, .name "folder", .elem])
        (decoded.viewByName "Folder" >>= fun view =>
          view.walk [.name "files", .elem, .name "folder", .elem]) := by
  obtain ⟨countFits, formed, short⟩ := sound_folderRegistry.countable
  have outcome := decode_encode_of_formed
    (DeclaredBy.registered (.inl declare_folderRegistry)) formed countFits short
  rw [if_pos (by decide)] at outcome
  obtain ⟨_, alike⟩ :=
    sameBehaviour_of_encode_eq sound_folderRegistry (.decoded outcome) rfl
  exact ⟨_, outcome, rfl, rfl, alike "Folder" _⟩

end Registry

end TypedObject
