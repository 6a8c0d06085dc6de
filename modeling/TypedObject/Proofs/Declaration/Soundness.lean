import Mathlib.Data.List.Nodup
import TypedObject.Proofs.Declaration.Description
import TypedObject.Proofs.Declaration.TagNames
import TypedObject.Proofs.Lookup

/-!
# Schemas of sound declarations

A declaration is sound when it says scalar only of scalar kinds and when the
lengths of its arrays can be counted.  Then every schema that the builder makes is
formed, which is all that the encoding asks for besides its length.
-/

namespace TypedObject

/-- Scalars are of a scalar kind, and the lengths of arrays can be counted. -/
def TypeExpr.Sound : TypeExpr → Prop
  | .scalar kind => kind.isScalar = true
  | .slice elem => elem.Sound
  | .array length elem => length < Wire.countBound ∧ elem.Sound
  | .marker _ | .declared _ => True

/-- A layout of sound types. -/
def Layout.Sound : Layout → Prop
  | .scalar kind => kind.isScalar = true
  | .slice elem => elem.Sound
  | .array length elem => length < Wire.countBound ∧ elem.Sound
  | .struct fields => ∀ field ∈ fields, field.type.Sound
  | .marker _ => True

/-- Declarations of sound layouts. -/
def Declarations.Sound (declarations : Declarations) : Prop :=
  ∀ declaration ∈ declarations, declaration.2.Sound

theorem Declarations.Sound.layout
    {declarations : Declarations} (sound : declarations.Sound) {type : TypeExpr}
    (typeSound : type.Sound) : (declarations.layout type).Sound := by
  cases type with
  | declared name =>
      cases found : declarations.lookup name with
      | none =>
          have noFields : declarations.layout (.declared name) = .struct [] := by
            rw [Declarations.layout, found, Option.getD_none]
          rw [noFields]
          intro field member
          cases member
      | some layout =>
          have own : declarations.layout (.declared name) = layout := by
            rw [Declarations.layout, found, Option.getD_some]
          rw [own]
          exact sound _ (Lookup.mem_of_lookup found)
  | _ => exact typeSound

namespace Registrar

/-- What registering keeps: names and types are different, names are not empty, and
no type is a reference. -/
structure Consistent (registrar : Registrar) : Prop where
  names_nonempty : ∀ entry ∈ registrar.entries, entry.2 ≠ ""
  no_references : ∀ entry ∈ registrar.entries, (registrar.layout entry.1).isReference = false
  names_distinct : (registrar.entries.map (·.2)).Nodup
  types_distinct : (registrar.entries.map (·.1)).Nodup

theorem consistent_empty (declarations : Declarations) : (empty declarations).Consistent :=
  ⟨nofun, nofun, List.nodup_nil, List.nodup_nil⟩

theorem register_eq_ok_iff
    {registrar registered : Registrar} {type : TypeExpr} {name : String} :
    registrar.register type name = .ok registered ↔
      name ≠ "" ∧ (registrar.layout type).isReference = false ∧
        (∀ entry ∈ registrar.entries, entry.2 ≠ name) ∧ registrar.name? type = none ∧
        registered = { registrar with entries := registrar.entries ++ [(type, name)] } := by
  constructor
  · intro accepted
    unfold register at accepted
    split at accepted
    · cases accepted
    · rename_i nonempty
      split at accepted
      · cases accepted
      · rename_i noReference
        split at accepted
        · cases accepted
        · rename_i notTaken
          have free : ∀ entry ∈ registrar.entries, entry.2 ≠ name := by
            intro entry member same
            exact notTaken (List.any_eq_true.mpr ⟨entry, member, decide_eq_true same⟩)
          split at accepted
          · cases accepted
          · rename_i unknown
            cases accepted
            exact ⟨nonempty, Bool.eq_false_iff.mpr noReference, free, unknown, rfl⟩
  · intro conditions
    obtain ⟨nonempty, noReference, free, unknown, rfl⟩ := conditions
    have notTaken : ¬registrar.entries.any (fun entry => entry.2 = name) = true := by
      intro taken
      obtain ⟨entry, member, same⟩ := List.any_eq_true.mp taken
      exact free entry member (of_decide_eq_true same)
    unfold register
    rw [if_neg nonempty, if_neg (Bool.eq_false_iff.mp noReference), if_neg notTaken, unknown]

theorem name?_eq_none_iff
    {registrar : Registrar} {type : TypeExpr} :
    registrar.name? type = none ↔ ∀ entry ∈ registrar.entries, entry.1 ≠ type := by
  rw [name?, List.lookup_eq_none_iff]
  simp only [bne_iff_ne, ne_comm]

theorem Consistent.register
    {registrar registered : Registrar} {type : TypeExpr} {name : String}
    (consistent : registrar.Consistent)
    (accepted : registrar.register type name = .ok registered) : registered.Consistent := by
  obtain ⟨nonempty, noReference, free, unknown, rfl⟩ := register_eq_ok_iff.mp accepted
  have newType := name?_eq_none_iff.mp unknown
  constructor
  · intro entry member
    rcases List.mem_append.mp member with earlier | new
    · exact consistent.names_nonempty entry earlier
    · rw [List.mem_singleton.mp new]
      exact nonempty
  · intro entry member
    rcases List.mem_append.mp member with earlier | new
    · exact consistent.no_references entry earlier
    · rw [List.mem_singleton.mp new]
      exact noReference
  · rw [List.map_append, List.map_singleton, ← List.concat_eq_append, List.nodup_concat]
    refine ⟨fun member => ?_, consistent.names_distinct⟩
    obtain ⟨entry, inside, same⟩ := List.mem_map.mp member
    exact free entry inside same
  · rw [List.map_append, List.map_singleton, ← List.concat_eq_append, List.nodup_concat]
    refine ⟨fun member => ?_, consistent.types_distinct⟩
    obtain ⟨entry, inside, same⟩ := List.mem_map.mp member
    exact newType entry inside same

/-- Registering several types adds all of them, in order. -/
theorem registerAll_eq_ok
    {registrar registered : Registrar} {calls : List (TypeExpr × String)}
    (accepted : registrar.registerAll calls = .ok registered) (consistent : registrar.Consistent) :
    registered.Consistent ∧
      registered = { registrar with entries := registrar.entries ++ calls } := by
  induction calls generalizing registrar with
  | nil =>
      cases accepted
      exact ⟨consistent, by simp⟩
  | cons call calls induction =>
      obtain ⟨type, name⟩ := call
      obtain ⟨next, first, others⟩ := Outcome.bind_eq_ok_iff.mp accepted
      obtain ⟨registeredConsistent, rfl⟩ := induction others (consistent.register first)
      obtain ⟨_, _, _, _, rfl⟩ := register_eq_ok_iff.mp first
      exact ⟨registeredConsistent, by simp⟩

/-- Attempts that fail might as well not have been made. -/
theorem exists_registerAll_eq_attemptAll
    (registrar : Registrar) (calls : List (TypeExpr × String)) :
    ∃ accepted, accepted.Sublist calls ∧
      registrar.registerAll accepted = .ok (registrar.attemptAll calls) := by
  induction calls generalizing registrar with
  | nil => exact ⟨[], List.Sublist.refl _, rfl⟩
  | cons call calls induction =>
      obtain ⟨type, name⟩ := call
      unfold attemptAll attempt
      cases outcome : registrar.register type name with
      | error error =>
          obtain ⟨accepted, inside, same⟩ := induction registrar
          exact ⟨accepted, inside.cons _, same⟩
      | ok next =>
          obtain ⟨accepted, inside, same⟩ := induction next
          refine ⟨(type, name) :: accepted, inside.cons_cons _, ?_⟩
          exact Outcome.bind_eq_ok_iff.mpr ⟨next, outcome, same⟩

theorem consistent_attemptAll
    (declarations : Declarations) (calls : List (TypeExpr × String)) :
    ((empty declarations).attemptAll calls).Consistent := by
  obtain ⟨accepted, _, same⟩ := (empty declarations).exists_registerAll_eq_attemptAll calls
  exact (registerAll_eq_ok same (consistent_empty declarations)).1

theorem Consistent.name?_eq_some_iff
    {registrar : Registrar} (consistent : registrar.Consistent) {type : TypeExpr}
    {name : String} : registrar.name? type = some name ↔ (type, name) ∈ registrar.entries :=
  Lookup.lookup_eq_some_iff consistent.types_distinct

theorem Consistent.name?_ne
    {registrar : Registrar} (consistent : registrar.Consistent) (type : TypeExpr) :
    registrar.name? type ≠ some "" := by
  intro known
  exact consistent.names_nonempty _ (consistent.name?_eq_some_iff.mp known) rfl

theorem placeholder?_eq_none_iff
    {registrar : Registrar} {type : TypeExpr} :
    registrar.placeholder? type = none ↔ registrar.name? type = none := by
  rw [placeholder?, Option.map_eq_none_iff]

theorem placeholder?_of_name?
    {registrar : Registrar} {type : TypeExpr} {name : String}
    (named : registrar.name? type = some name) :
    registrar.placeholder? type = some (.placeholder (registrar.layout type).kind name) := by
  rw [placeholder?, named, Option.map_some]

/-- A field of a type that is neither a reference nor registered must be expanded. -/
theorem directSchema?_eq_none_iff
    {registrar : Registrar} {field : FieldDeclaration} :
    registrar.directSchema? field = none ↔
      (registrar.layout field.type).isReference = false ∧ registrar.name? field.type = none := by
  unfold directSchema?
  split
  · rename_i layout
    simp [layout, Layout.isReference]
  · rename_i layout
    split <;> simp [layout, Layout.isReference]
  · rename_i notDynamic notMarker
    have full : (registrar.layout field.type).isReference = false := by
      cases layout : registrar.layout field.type with
      | marker kind => exact absurd layout (notMarker kind)
      | _ => rfl
    simp [full, placeholder?_eq_none_iff]

end Registrar

theorem Layout.Sound.kind_ne_reference
    {layout : Layout} (sound : layout.Sound) (full : layout.isReference = false) :
    layout.kind ≠ .reference := by
  cases layout with
  | scalar kind =>
      have scalarKind : kind.isScalar = true := sound
      intro same
      cases (same : kind = .reference)
      cases scalarKind
  | marker kind => cases full
  | _ => exact nofun

namespace Registrar

variable {registrar : Registrar}

theorem formed_of_placeholder?
    (consistent : registrar.Consistent) (sound : registrar.declarations.Sound) {type : TypeExpr}
    (typeSound : type.Sound) {schema : Schema} (known : registrar.placeholder? type = some schema) :
    Schema.FormedAt false schema ∧ schema.isReference = false := by
  obtain ⟨name, named, rfl⟩ := Option.map_eq_some_iff.mp known
  have member := consistent.name?_eq_some_iff.mp named
  have layoutSound : (registrar.layout type).Sound := sound.layout typeSound
  have different := layoutSound.kind_ne_reference (consistent.no_references _ member)
  have nonempty := consistent.names_nonempty _ member
  refine ⟨⟨⟨fun empty => nonempty (Option.some.inj empty), ?_, trivial, trivial⟩, nofun⟩, rfl⟩
  exact .inr ⟨rfl, different⟩

theorem formed_of_directSchema?
    (consistent : registrar.Consistent) (sound : registrar.declarations.Sound)
    {field : FieldDeclaration} (typeSound : field.type.Sound) {schema : Schema}
    (direct : registrar.directSchema? field = some (.ok schema)) :
    Schema.FormedAt false schema := by
  cases directSchema?_eq_some_iff.mp direct with
  | dynamic layout => exact ⟨⟨nofun, .inl rfl, rfl, trivial⟩, nofun⟩
  | reference layout closed named =>
      have nonempty := Tag.schemaName_ne_empty named
      refine Schema.formedAt_iff.mpr ⟨⟨nofun, .inl rfl, ⟨closed, rfl⟩, trivial⟩, ?_⟩
      intro part inside
      cases List.mem_singleton.mp inside
      refine ⟨⟨fun empty => nonempty (Option.some.inj empty), ?_, trivial, trivial⟩, nofun⟩
      exact .inr ⟨rfl, nofun⟩
  | registered full named =>
      have known := placeholder?_of_name? named
      exact (formed_of_placeholder? consistent sound typeSound known).1

private theorem formed_of_elem
    (consistent : registrar.Consistent) (sound : registrar.declarations.Sound) {elem : TypeExpr}
    (elemSound : elem.Sound) {schema : Schema}
    (registered : ∀ placeholder,
      registrar.placeholder? elem = some placeholder → schema = placeholder)
    (expanded : registrar.placeholder? elem = none → registrar.name? elem = none →
      Schema.FormedAt false schema ∧ schema.isReference = false) :
    Schema.FormedAt false schema ∧ schema.isReference = false := by
  cases known : registrar.placeholder? elem with
  | some placeholder =>
      rw [registered placeholder known]
      exact formed_of_placeholder? consistent sound elemSound known
  | none => exact expanded known (placeholder?_eq_none_iff.mp known)

/-- A schema that describes a type has the type's name and is formed wherever that
name allows it to stand. -/
theorem Describes.formed
    (consistent : registrar.Consistent) (sound : registrar.declarations.Sound)
    {type : TypeExpr} {schema : Schema} (described : Describes registrar type schema)
    (typeSound : type.Sound) {isRoot : Bool}
    (position : isRoot = true ∨ registrar.name? type = none) :
    Schema.FormedAt isRoot schema := by
  have rootNamed : ∀ {type : TypeExpr} {schema : Schema}, Describes registrar type schema →
      schema.name? ≠ some "" := by
    intro type schema described
    rw [described.name?_eq]
    exact consistent.name?_ne type
  have rootPosition : ∀ {isRoot : Bool} {type : TypeExpr} {schema : Schema},
      isRoot = true ∨ registrar.name? type = none → Describes registrar type schema →
      if isRoot then schema.isPlaceholder = false else schema.StandsBelow := by
    intro isRoot type schema position described
    cases isRoot with
    | true => exact described.isPlaceholder_eq
    | false =>
        rcases position with root | unnamed
        · cases root
        · exact .inl (described.name?_eq.trans unnamed)
  have whole := described
  induction described generalizing isRoot with
  | @scalar type kind layout =>
      have kindSound : (registrar.layout type).Sound := sound.layout typeSound
      rw [layout] at kindSound
      exact ⟨⟨rootNamed whole, rootPosition position whole, kindSound, trivial⟩, nofun⟩
  | @slice type elem schema layout registered expanded induction =>
      have elemSound : (registrar.layout type).Sound := sound.layout typeSound
      rw [layout] at elemSound
      have formedElem := formed_of_elem consistent sound elemSound registered
        fun known unnamed => ⟨induction known elemSound (.inr unnamed) (expanded known),
          (expanded known).isReference_eq⟩
      refine Schema.formedAt_iff.mpr
        ⟨⟨rootNamed whole, rootPosition position whole, formedElem.2, trivial⟩, ?_⟩
      simpa [Schema.parts] using formedElem.1
  | @array type elem length schema layout registered expanded induction =>
      have elemSound : (registrar.layout type).Sound := sound.layout typeSound
      rw [layout] at elemSound
      have formedElem := formed_of_elem consistent sound elemSound.2 registered
        fun known unnamed => ⟨induction known elemSound.2 (.inr unnamed) (expanded known),
          (expanded known).isReference_eq⟩
      refine Schema.formedAt_iff.mpr
        ⟨⟨rootNamed whole, rootPosition position whole, formedElem.2, elemSound.1⟩, ?_⟩
      simpa [Schema.parts] using formedElem.1
  | @struct type declared members layout included direct expanded induction =>
      have fieldsSound : (registrar.layout type).Sound := sound.layout typeSound
      rw [layout] at fieldsSound
      refine Schema.formedAt_iff.mpr
        ⟨⟨rootNamed whole, rootPosition position whole, trivial, trivial⟩, ?_⟩
      intro part inside
      obtain ⟨field, within, rfl⟩ := List.mem_map.mp inside
      obtain ⟨member, memberInside, rfl⟩ := List.mem_map.mp within
      have typeSound : member.1.type.Sound := by
        have among : member.1 ∈ members.map (·.1) := List.mem_map_of_mem memberInside
        rw [included] at among
        exact fieldsSound member.1 (List.mem_filter.mp among).1
      cases known : registrar.directSchema? member.1 with
      | some result =>
          rw [direct member memberInside result known] at known
          exact formed_of_directSchema? consistent sound typeSound known
      | none =>
          have unnamed := (directSchema?_eq_none_iff.mp known).2
          exact induction member memberInside known typeSound (.inr unnamed)
            (expanded member memberInside known)

end Registrar

end TypedObject
