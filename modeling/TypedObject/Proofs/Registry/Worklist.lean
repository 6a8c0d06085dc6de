import TypedObject.Proofs.Registry.Slots

/-!
# Linking an arena in place

The loop comes to every slot and visits none twice.  Between two visits the schemas in
the visited slots are resolved and all others are as they were, so that at the end every
placeholder has the slot of its name and the kind that was there from the first.
-/

namespace TypedObject.Arena

/-- Every name leads to a schema. -/
def Addressed (arena : Arena) : Prop :=
  ∀ name slot, arena.byName.lookup name = some slot → slot < arena.schemas.length

/-- Every placeholder in the schema has the name of a slot. -/
def Known (arena : Arena) (schema : SlotSchema) : Prop :=
  ∀ found ∈ schema.placeholders, (arena.byName.lookup found.name).isSome

def Closed (arena : Arena) : Prop := ∀ schema ∈ arena.schemas, arena.Known schema

/-- A placeholder somewhere in the arena has the name, and no slot has. -/
def Dangling (arena : Arena) (name : String) : Prop :=
  (∃ schema ∈ arena.schemas, ∃ found ∈ schema.placeholders, found.name = name) ∧
    arena.byName.lookup name = none

/-- The kind of the schema under a name. -/
def kindOf? (arena : Arena) (name : String) : Option Kind :=
  (arena.byName.lookup name).bind fun slot => arena.kinds[slot]?

/-- The placeholder with the slot of its name and the kind there. -/
def resolved (arena : Arena) (found : Placeholder) : Placeholder :=
  ⟨(arena.kindOf? found.name).getD found.kind, found.name, arena.byName.lookup found.name⟩

/-- The arena with every placeholder resolved. -/
def settled (arena : Arena) : Arena :=
  { arena with schemas := arena.schemas.map (·.map arena.resolved) }

/-- The pending slots after a placeholder was resolved. -/
def push (arena : Arena) (visited pending : List Nat) (found : Placeholder) : List Nat :=
  match arena.byName.lookup found.name with
  | some slot => if slot ∈ visited then pending else slot :: pending
  | none => pending

theorem resolve_eq
    {first arena : Arena} (sameNames : arena.byName = first.byName) (visited : List Nat)
    (found : Placeholder) (pending : List Nat) :
    arena.resolve first.kinds visited found pending =
      if (first.byName.lookup found.name).isSome then
        .ok (first.resolved found, first.push visited pending found)
      else .error (.missingSchema found.name) := by
  rw [resolve, resolved, push, kindOf?, sameNames]
  cases first.byName.lookup found.name with
  | none => rfl
  | some slot => rfl

theorem mem_push_iff
    {arena : Arena} {visited pending : List Nat} {found : Placeholder} {slot : Nat} :
    slot ∈ arena.push visited pending found ↔
      slot ∈ pending ∨ slot ∉ visited ∧ arena.byName.lookup found.name = some slot := by
  unfold push
  cases arena.byName.lookup found.name with
  | none => simp
  | some target =>
      by_cases old : target ∈ visited
      · have other : slot ∉ visited → ¬target = slot := by
          intro fresh same
          rw [← same] at fresh
          exact fresh old
        simp only [old, if_true, Option.some.injEq]
        exact ⟨.inl, fun member => member.resolve_right fun new => other new.1 new.2⟩
      · simp only [old, if_false, List.mem_cons, Option.some.injEq]
        constructor
        · intro member
          rcases member with rfl | earlier
          · exact .inr ⟨old, rfl⟩
          · exact .inl earlier
        · intro member
          rcases member with earlier | ⟨_, rfl⟩
          · exact .inr earlier
          · exact .inl rfl

theorem mem_foldl_push_iff
    {arena : Arena} {visited pending : List Nat} {visits : List Placeholder} {slot : Nat} :
    slot ∈ visits.foldl (arena.push visited) pending ↔
      slot ∈ pending ∨
        slot ∉ visited ∧ ∃ found ∈ visits, arena.byName.lookup found.name = some slot := by
  induction visits generalizing pending with
  | nil => simp
  | cons found visits induction =>
      rw [List.foldl_cons, induction, mem_push_iff]
      simp only [List.mem_cons, exists_eq_or_imp, and_or_left, or_assoc]

/-- Between two visits. -/
structure Progress (first arena : Arena) (pending visited : List Nat) : Prop where
  sameNames : arena.byName = first.byName
  schemas : ∀ slot, arena.schemas[slot]? = first.schemas[slot]?.map fun schema =>
    if slot ∈ visited then schema.map first.resolved else schema
  known : ∀ slot ∈ visited, ∀ schema, first.schemas[slot]? = some schema → first.Known schema
  pending_lt : ∀ slot ∈ pending, slot < first.schemas.length
  covered : ∀ slot < first.schemas.length, slot ∈ visited ∨ slot ∈ pending

theorem Progress.start (first : Arena) :
    Progress first first (List.range first.schemas.length) [] where
  sameNames := rfl
  schemas slot := by simp
  known := nofun
  pending_lt slot member := List.mem_range.mp member
  covered slot inside := .inr (List.mem_range.mpr inside)

variable {first arena : Arena} {pending visited : List Nat} {slot : Nat}

/-- A slot that was visited is done with. -/
theorem Progress.skip
    (progress : Progress first arena (slot :: pending) visited) (old : slot ∈ visited) :
    Progress first arena pending visited where
  sameNames := progress.sameNames
  schemas := progress.schemas
  known := progress.known
  pending_lt other member := progress.pending_lt other (List.mem_cons_of_mem _ member)
  covered other inside := by
    rcases progress.covered other inside with visitedOther | pendingOther
    · exact .inl visitedOther
    · rcases List.mem_cons.mp pendingOther with rfl | later
      · exact .inl old
      · exact .inr later

theorem Progress.getElem?_pending
    (progress : Progress first arena (slot :: pending) visited) (fresh : slot ∉ visited) :
    ∃ schema, first.schemas[slot]? = some schema ∧ arena.schemas[slot]? = some schema := by
  have inside := progress.pending_lt slot List.mem_cons_self
  refine ⟨first.schemas[slot], List.getElem?_eq_getElem inside, ?_⟩
  rw [progress.schemas, List.getElem?_eq_getElem inside, Option.map_some, if_neg fresh]

/-- After its visit a slot holds its schema with all placeholders resolved. -/
theorem Progress.visit
    {schema : SlotSchema} (progress : Progress first arena (slot :: pending) visited)
    (addressed : first.Addressed) (fresh : slot ∉ visited)
    (found : first.schemas[slot]? = some schema) (known : first.Known schema) :
    Progress first { arena with schemas := arena.schemas.set slot (schema.map first.resolved) }
      (schema.placeholders.foldl (first.push (slot :: visited)) pending) (slot :: visited) where
  sameNames := progress.sameNames
  schemas other := by
    obtain ⟨_, _, present⟩ := progress.getElem?_pending fresh
    obtain ⟨inside, _⟩ := List.getElem?_eq_some_iff.mp present
    by_cases same : slot = other
    · subst same
      rw [List.getElem?_set_self inside, found, Option.map_some, if_pos List.mem_cons_self]
    · rw [List.getElem?_set_ne same, progress.schemas]
      simp [Ne.symm same]
  known other member schema' found' := by
    rcases List.mem_cons.mp member with rfl | earlier
    · rw [found] at found'
      cases found'
      exact known
    · exact progress.known other earlier schema' found'
  pending_lt other member := by
    rcases mem_foldl_push_iff.mp member with earlier | ⟨_, target, _, address⟩
    · exact progress.pending_lt other (List.mem_cons_of_mem _ earlier)
    · exact addressed target.name other address
  covered other inside := by
    rcases progress.covered other inside with visitedOther | pendingOther
    · exact .inl (List.mem_cons_of_mem _ visitedOther)
    · rcases List.mem_cons.mp pendingOther with rfl | later
      · exact .inl List.mem_cons_self
      · exact .inr (mem_foldl_push_iff.mpr (.inl later))

/-- When nothing is pending, everything is resolved. -/
theorem Progress.complete (progress : Progress first arena [] visited) :
    first.Closed ∧ arena = first.settled := by
  have all : ∀ slot < first.schemas.length, slot ∈ visited := fun slot inside =>
    (progress.covered slot inside).resolve_right List.not_mem_nil
  constructor
  · intro schema member
    obtain ⟨slot, inside, atSlot⟩ := List.getElem_of_mem member
    exact progress.known slot (all slot inside) schema
      (List.getElem?_eq_some_iff.mpr ⟨inside, atSlot⟩)
  · obtain ⟨schemas, byName⟩ := arena
    have sameSchemas : schemas = first.settled.schemas := by
      apply List.ext_getElem?
      intro slot
      change _ = (first.schemas.map (·.map first.resolved))[slot]?
      rw [progress.schemas slot, List.getElem?_map]
      apply Option.map_congr
      intro schema found
      obtain ⟨inside, _⟩ := List.getElem?_eq_some_iff.mp found
      rw [if_pos (all slot inside)]
    rw [sameSchemas, show byName = first.settled.byName from progress.sameNames]

theorem linkFrom_of_visited
    {kinds : List Kind} (old : slot ∈ visited) :
    linkFrom kinds arena (slot :: pending) visited = linkFrom kinds arena pending visited := by
  rw [linkFrom, dif_pos old]

theorem linkFrom_of_fresh
    {kinds : List Kind} {schema : SlotSchema} (fresh : slot ∉ visited)
    (found : arena.schemas[slot]? = some schema) :
    linkFrom kinds arena (slot :: pending) visited = (do
      let (schema, pending) ←
        schema.visitPlaceholders (arena.resolve kinds (slot :: visited)) pending
      linkFrom kinds { arena with schemas := arena.schemas.set slot schema } pending
        (slot :: visited)) := by
  rw [linkFrom, dif_neg fresh]
  split
  · rename_i absent
    rw [found] at absent
    cases absent
  · rename_i found'
    rw [found] at found'
    cases found'
    rfl

/-- A visit either finds a dangling name or takes the loop one state further. -/
theorem Progress.step
    (progress : Progress first arena (slot :: pending) visited) (addressed : first.Addressed)
    (fresh : slot ∉ visited) :
    (∃ name, first.Dangling name ∧
      linkFrom first.kinds arena (slot :: pending) visited = .error (.missingSchema name)) ∨
    ∃ schema pending',
      Progress first { arena with schemas := arena.schemas.set slot schema } pending'
        (slot :: visited) ∧
      linkFrom first.kinds arena (slot :: pending) visited =
        linkFrom first.kinds { arena with schemas := arena.schemas.set slot schema } pending'
          (slot :: visited) := by
  obtain ⟨schema, initial, current⟩ := progress.getElem?_pending fresh
  rw [linkFrom_of_fresh fresh current,
    SlotSchema.visitPlaceholders_eq (resolve_eq progress.sameNames _), SlotSchema.outcome]
  cases search : schema.placeholders.find?
      fun found => !(first.byName.lookup found.name).isSome with
  | some missing =>
      have absent := List.find?_some search
      rw [Bool.not_eq_true', Option.isSome_eq_false_iff, Option.isNone_iff_eq_none] at absent
      refine .inl ⟨missing.name, ⟨⟨schema, List.mem_of_getElem? initial, missing,
        List.mem_of_find?_eq_some search, rfl⟩, absent⟩, rfl⟩
  | none =>
      have known : first.Known schema := by
        intro found member
        simpa using List.find?_eq_none.mp search found member
      exact .inr ⟨_, _, progress.visit addressed fresh initial known, rfl⟩

/-- What linking comes to from any state between two visits. -/
theorem Progress.linkFrom_cases
    (progress : Progress first arena pending visited) (addressed : first.Addressed) :
    (first.Closed ∧ linkFrom first.kinds arena pending visited = .ok first.settled) ∨
      ∃ name, first.Dangling name ∧
        linkFrom first.kinds arena pending visited = .error (.missingSchema name) := by
  induction arena, pending, visited using linkFrom.induct with
  | case1 arena visited =>
      obtain ⟨closed, same⟩ := progress.complete
      refine .inl ⟨closed, ?_⟩
      rw [linkFrom, same]
  | case2 arena visited slot pending old induction =>
      rw [linkFrom_of_visited old]
      exact induction (progress.skip old)
  | case3 arena visited slot pending fresh absent induction =>
      obtain ⟨schema, _, present⟩ := progress.getElem?_pending fresh
      rw [absent] at present
      cases present
  | case4 arena visited slot pending fresh schema found induction =>
      rcases progress.step addressed fresh with failed | ⟨_, _, next, same⟩
      · exact .inr failed
      · rw [same]
        exact induction _ _ next

theorem not_dangling_of_closed
    (closed : first.Closed) (name : String) : ¬first.Dangling name := by
  intro dangling
  obtain ⟨⟨schema, member, found, inside, rfl⟩, absent⟩ := dangling
  have known := closed schema member found inside
  rw [absent] at known
  cases known

/-- Linking resolves everything or fails with a name that dangles. -/
theorem link_eq_ok_iff
    (addressed : first.Addressed) :
    first.link = .ok arena ↔ first.Closed ∧ arena = first.settled := by
  rcases (Progress.start first).linkFrom_cases addressed with ⟨closed, linked⟩ | failed
  · rw [link, linked]
    simp [closed, eq_comm]
  · obtain ⟨name, dangling, failed⟩ := failed
    rw [link, failed]
    exact ⟨nofun, fun found => absurd dangling (not_dangling_of_closed found.1 name)⟩

theorem dangling_of_link_eq_error
    (addressed : first.Addressed) {error : SchemaError} (failed : first.link = .error error) :
    ∃ name, error = .missingSchema name ∧ first.Dangling name := by
  rcases (Progress.start first).linkFrom_cases addressed with ⟨closed, linked⟩ | found
  · rw [link, linked] at failed
    cases failed
  · obtain ⟨name, dangling, failed'⟩ := found
    rw [link, failed'] at failed
    cases failed
    exact ⟨name, rfl, dangling⟩

end TypedObject.Arena
