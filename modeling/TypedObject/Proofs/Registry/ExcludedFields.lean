import TypedObject.Proofs.Registry.RegistrationOrder

/-!
# Excluded fields do not matter

A registry is made of the types of its calls, of the members of these types, and of
theirs.  A type that only excluded fields mention is never looked at, and of the others
every call and every schema depends on what is left without the excluded fields; so
these may be added, removed, moved and changed at will.
-/

namespace TypedObject

/-- The type of a call, or a member of a type in use. -/
inductive Declarations.InUse (declarations : Declarations) (calls : List (TypeExpr × String)) :
    TypeExpr → Prop where
  | called {call : TypeExpr × String} (made : call ∈ calls) : InUse declarations calls call.1
  | member {type member : TypeExpr} (outer : InUse declarations calls type)
      (inside : member ∈ (declarations.layout type).members) : InUse declarations calls member

/-- Types that hold all types of calls and with a type its members hold all types in use. -/
theorem Declarations.InUse.mem
    {declarations : Declarations} {calls : List (TypeExpr × String)} {types : List TypeExpr}
    (called : ∀ call ∈ calls, call.1 ∈ types)
    (closed : ∀ type ∈ types, ∀ member ∈ (declarations.layout type).members, member ∈ types)
    {type : TypeExpr} (inUse : declarations.InUse calls type) : type ∈ types := by
  induction inUse with
  | called made => exact called _ made
  | member _ inside outer => exact closed _ outer _ inside

namespace Registrar

variable {declarations declarations' : Declarations} {registrar registered : Registrar}
  {calls : List (TypeExpr × String)} {type : TypeExpr} {name : String}

/-- The same entries under other declarations. -/
def redeclared (declarations : Declarations) (registrar : Registrar) : Registrar :=
  { registrar with declarations }

@[simp] theorem redeclared_empty (declarations declarations' : Declarations) :
    (empty declarations).redeclared declarations' = empty declarations' :=
  rfl

@[simp] theorem layout_redeclared (registrar : Registrar) (type : TypeExpr) :
    (registrar.redeclared declarations).layout type = declarations.layout type :=
  rfl

@[simp] theorem name?_redeclared (registrar : Registrar) (type : TypeExpr) :
    (registrar.redeclared declarations).name? type = registrar.name? type :=
  rfl

@[simp] theorem entries_redeclared (registrar : Registrar) :
    (registrar.redeclared declarations).entries = registrar.entries :=
  rfl

/-- The declarations agree with those of the registrar on which types are references. -/
def SameReferences (registrar : Registrar) (declarations : Declarations)
    (calls : List (TypeExpr × String)) : Prop :=
  ∀ call ∈ calls, (declarations.layout call.1).isReference = (registrar.layout call.1).isReference

theorem declarations_of_register (success : registrar.register type name = .ok registered) :
    registered.declarations = registrar.declarations := by
  obtain ⟨_, _, _, _, rfl⟩ := register_eq_ok_iff.mp success
  rfl

theorem SameReferences.later
    (same : registrar.SameReferences declarations ((type, name) :: calls))
    (kept : registered.declarations = registrar.declarations) :
    registered.SameReferences declarations calls := by
  intro call later
  rw [same call (List.mem_cons_of_mem _ later), layout, layout, kept]

/-- Of the declarations a call asks only whether its type is a reference. -/
theorem register_redeclared
    (same : (declarations.layout type).isReference = (registrar.layout type).isReference) :
    (registrar.redeclared declarations).register type name =
      (registrar.register type name).map (redeclared declarations) := by
  unfold register
  rw [layout_redeclared, same, name?_redeclared, entries_redeclared]
  split_ifs
  · rfl
  · rfl
  · rfl
  · cases registrar.name? type <;> rfl

theorem attempt_redeclared
    (same : (declarations.layout type).isReference = (registrar.layout type).isReference) :
    (registrar.redeclared declarations).attempt type name =
      ((registrar.attempt type name).1,
        (registrar.attempt type name).2.redeclared declarations) := by
  unfold attempt
  rw [register_redeclared same]
  cases registrar.register type name <;> rfl

theorem declarations_attempt (registrar : Registrar) (type : TypeExpr) (name : String) :
    (registrar.attempt type name).2.declarations = registrar.declarations := by
  unfold attempt
  cases outcome : registrar.register type name with
  | error error => rfl
  | ok registered => exact declarations_of_register outcome

theorem registerAll_redeclared (same : registrar.SameReferences declarations calls) :
    (registrar.redeclared declarations).registerAll calls =
      (registrar.registerAll calls).map (redeclared declarations) := by
  induction calls generalizing registrar with
  | nil => rfl
  | cons call calls induction =>
      obtain ⟨type, name⟩ := call
      rw [registerAll, registerAll, register_redeclared (same _ List.mem_cons_self)]
      cases outcome : registrar.register type name with
      | error error => rfl
      | ok registered => exact induction (same.later (declarations_of_register outcome))

theorem attempts_redeclared (same : registrar.SameReferences declarations calls) :
    (registrar.redeclared declarations).attempts calls =
      (registrar.attempts calls).map fun answered =>
        (answered.1, answered.2.redeclared declarations) := by
  induction calls generalizing registrar with
  | nil => rfl
  | cons call calls induction =>
      obtain ⟨type, name⟩ := call
      have later := same.later (registrar.declarations_attempt type name)
      simp only [attempts, attempt_redeclared (same _ List.mem_cons_self), List.map_cons,
        induction later]

theorem attemptAll_redeclared (same : registrar.SameReferences declarations calls) :
    (registrar.redeclared declarations).attemptAll calls =
      (registrar.attemptAll calls).redeclared declarations := by
  induction calls generalizing registrar with
  | nil => rfl
  | cons call calls induction =>
      obtain ⟨type, name⟩ := call
      have later := same.later (registrar.declarations_attempt type name)
      simp only [attemptAll, attempt_redeclared (same _ List.mem_cons_self), induction later]

end Registrar

namespace Declarations

variable {declarations declarations' : Declarations} {calls : List (TypeExpr × String)}

/-- The types in use are laid out alike but for excluded fields. -/
def SameUpToExcluded (declarations declarations' : Declarations)
    (calls : List (TypeExpr × String)) : Prop :=
  ∀ type, declarations.InUse calls type →
    (declarations'.layout type).withoutExcluded = (declarations.layout type).withoutExcluded

theorem SameUpToExcluded.sameReferences
    (same : SameUpToExcluded declarations declarations' calls) :
    (Registrar.empty declarations).SameReferences declarations' calls := by
  intro call made
  have isReference := congrArg Layout.isReference (same call.1 (.called made))
  rw [Layout.isReference_withoutExcluded, Layout.isReference_withoutExcluded] at isReference
  exact isReference

theorem SameUpToExcluded.agreeOn
    (same : SameUpToExcluded declarations declarations' calls) (entries : List (TypeExpr × String)) :
    Registrar.AgreeOn ⟨declarations, entries⟩ ⟨declarations', entries⟩
      (declarations.InUse calls) where
  name? _ := rfl
  layout := same
  members _ inUse _ inside := .member inUse inside

end Declarations

namespace Registry

variable {declarations declarations' : Declarations} {calls : List (TypeExpr × String)}

/-- What is made of some of the calls is the same under both declarations. -/
theorem ofRegistrar_redeclared
    (same : declarations.SameUpToExcluded declarations' calls) {registrar : Registrar}
    {accepted : List (TypeExpr × String)} (inside : accepted ⊆ calls)
    (registered : (Registrar.empty declarations).registerAll accepted = .ok registrar) :
    ofRegistrar (registrar.redeclared declarations') = ofRegistrar registrar := by
  obtain ⟨_, rfl⟩ :=
    Registrar.registerAll_eq_ok registered (Registrar.consistent_empty declarations)
  have called : ∀ entry ∈ accepted, declarations.InUse calls entry.1 :=
    fun entry made => .called (inside made)
  have sameEntries := entriesOf_congr (same.agreeOn accepted) called
  exact congrArg (· >>= fun entries => entries.link (some accepted)) sameEntries

/-- Declarations that differ only in excluded fields, or in types that are not in use, answer
every call alike and declare the same registry or fail alike. -/
theorem indifferent_to_excluded_fields
    (same : declarations.SameUpToExcluded declarations' calls) :
    ((Registrar.empty declarations').attempts calls).map (·.1) =
        ((Registrar.empty declarations).attempts calls).map (·.1) ∧
      declare declarations' calls = declare declarations calls ∧
      declareAccepted declarations' calls = declareAccepted declarations calls := by
  have references := same.sameReferences
  refine ⟨?_, ?_, ?_⟩
  · have answers := Registrar.attempts_redeclared references
    rw [Registrar.redeclared_empty] at answers
    rw [answers, List.map_map]
    rfl
  · have registered := Registrar.registerAll_redeclared references
    rw [Registrar.redeclared_empty] at registered
    rw [declare, declare, registered]
    cases outcome : (Registrar.empty declarations).registerAll calls with
    | error error => rfl
    | ok registrar => exact ofRegistrar_redeclared same (List.Subset.refl _) outcome
  · have attempted := Registrar.attemptAll_redeclared references
    rw [Registrar.redeclared_empty] at attempted
    obtain ⟨accepted, inside, registered⟩ :=
      (Registrar.empty declarations).exists_registerAll_eq_attemptAll calls
    rw [declareAccepted, declareAccepted, attempted]
    exact ofRegistrar_redeclared same inside.subset registered

/-- Nodes with three more fields, all of them excluded: the private one has a type that contains
itself, and the others a reference without a target and lists of references in a slice. -/
def cachingFields : List FieldDeclaration :=
  [⟨"cache", "", .declared "Cache", true⟩, .plain "item" (.scalar .uint8),
    ⟨"_", "", .marker .single, false⟩, .reference "origin" "Node",
    .plain "children" (.slice (.declared "Node")), ⟨"seen", "-", .slice (.marker .slice), false⟩]

def cachingDeclarations : Declarations :=
  [("Node", .struct cachingFields), ("Cache", .struct [.plain "next" (.declared "Cache")])]

theorem declare_cachingDeclarations :
    nodeDeclarations.SameUpToExcluded cachingDeclarations nodeCalls ∧
      declare cachingDeclarations nodeCalls = .ok nodeRegistry := by
  have same : nodeDeclarations.SameUpToExcluded cachingDeclarations nodeCalls := by
    have alike : ∀ type ∈ [TypeExpr.declared "Node", .scalar .uint8, .marker .single,
        .slice (.declared "Node")], (cachingDeclarations.layout type).withoutExcluded =
          (nodeDeclarations.layout type).withoutExcluded := by decide
    exact fun type inUse => alike type (inUse.mem (by decide) (by decide))
  obtain ⟨_, declared, _⟩ := indifferent_to_excluded_fields same
  exact ⟨same, declared.trans declare_nodeRegistry⟩

end Registry

end TypedObject
