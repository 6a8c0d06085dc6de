import TypedObject.Proofs.View.Shortcut

/-!
# What follows a value

Only the guard on counts looks beyond the value that is measured: it compares a count
with all bytes that are left.  So a size stays when what follows does not become
shorter, and it stays whatever follows when no element without a fixed size can be
empty.  The same induction shows that more levels find the same sizes.
-/

namespace TypedObject

namespace View

/-- The elements of a slice, or of an array that has any, are values of the view. -/
def Repeats (view elem : View) : Prop :=
  view.elem = .ok elem ∧
    ((∃ name inner, view.schema = .slice name inner) ∨
      ∃ name length inner, view.schema = .array name length inner ∧ length ≠ 0)

end View

/-- Every element whose size is not fixed takes at least a byte. -/
def Registry.ElementsTakeBytes (registry : Registry) : Prop :=
  ∀ view elem, View.Reachable registry view → view.Repeats elem → elem.fixedSize? = none →
    ∀ bytes, View.sizeWithin View.depthLimit elem bytes ≠ .ok 0

namespace View

theorem le_of_sizeWithin
    {levels : Nat} {view : View} {bytes : Bytes} {size : Nat}
    (measured : sizeWithin levels view bytes = .ok size) : size ≤ bytes.length := by
  cases levels with
  | zero => cases measured
  | succ levels =>
      unfold sizeWithin at measured
      exact (bind_fitting_eq_ok_iff.mp measured).2

/-- The parts of a run that is measured lie at its front, each with its own size. -/
theorem sizeOfParts_cons_eq_ok_iff
    {measure : View → Bytes → Except SchemaError Nat} {part : View} {parts : List View}
    {front rest : Bytes} :
    sizeOfParts measure (part :: parts) (front ++ rest) = .ok front.length ↔
      ∃ first others, front = first ++ others ∧
        measure part (first ++ (others ++ rest)) = .ok first.length ∧
        sizeOfParts measure parts (others ++ rest) = .ok others.length := by
  rw [sizeOfParts]
  simp only [Outcome.bind_eq_ok_iff, Outcome.pure_eq_ok_iff]
  constructor
  · intro found
    obtain ⟨size, measured, size', measuredOthers, total⟩ := found
    obtain ⟨first, others, rfl, rfl⟩ := Bytes.exists_front (by omega : size ≤ front.length)
    rw [List.append_assoc] at measured measuredOthers
    rw [List.drop_left] at measuredOthers
    rw [List.length_append, Nat.add_left_cancel_iff] at total
    rw [total] at measuredOthers
    exact ⟨first, others, rfl, measured, measuredOthers⟩
  · intro found
    obtain ⟨first, others, rfl, measured, measuredOthers⟩ := found
    rw [List.append_assoc]
    refine ⟨_, measured, others.length, ?_, List.length_append.symm⟩
    rw [List.drop_left]
    exact measuredOthers

/-- A run of elements that take a byte each is not shorter than their number. -/
theorem count_le_of_sizeOfParts
    {measure : View → Bytes → Except SchemaError Nat} {elem : View}
    (positive : ∀ bytes, measure elem bytes ≠ .ok 0) {count : Nat} {front rest : Bytes}
    (measured : sizeOfParts measure (List.replicate count elem) (front ++ rest) =
      .ok front.length) : count ≤ front.length := by
  induction count generalizing front with
  | zero => exact Nat.zero_le _
  | succ count induction =>
      obtain ⟨first, others, rfl, measuredFirst, measuredOthers⟩ :=
        sizeOfParts_cons_eq_ok_iff.mp measured
      have bound := induction measuredOthers
      have byte : first.length ≠ 0 := by
        intro empty
        rw [empty] at measuredFirst
        exact positive _ measuredFirst
      rw [List.length_append]
      omega

variable {registry : Registry} {rest rest' : Bytes}

/-- The second bytes may follow a value in place of the first: they are not fewer, or
every element takes a byte within the depth limit unless its size is fixed. -/
def MayFollow (registry : Registry) (rest rest' : Bytes) : Prop :=
  rest.length ≤ rest'.length ∨
    ∀ view elem, Reachable registry view → view.Repeats elem → elem.fixedSize? = none →
      ∀ levels ≤ depthLimit, ∀ bytes, sizeWithin levels elem bytes ≠ .ok 0

theorem MayFollow.append (may : MayFollow registry rest rest') (items : Bytes) :
    MayFollow registry (items ++ rest) (items ++ rest') := by
  rcases may with longer | takeBytes
  · left
    rw [List.length_append, List.length_append]
    omega
  · exact .inr takeBytes

theorem MayFollow.elements
    (may : MayFollow registry rest rest') {view elem : View}
    (reachable : Reachable registry view) {count : Nat}
    (repeats : count ≠ 0 → view.Repeats elem) {levels : Nat} (within : levels ≤ depthLimit) :
    rest.length ≤ rest'.length ∨ (elem.fixedSize? = none → count ≠ 0 →
      ∀ bytes, sizeWithin levels elem bytes ≠ .ok 0) := by
  rcases may with longer | takeBytes
  · exact .inl longer
  · right
    intro unfixed nonempty
    exact takeBytes view elem reachable (repeats nonempty) unfixed levels within

theorem sizeOfParts_append_of_mayFollow
    {measure measure' : View → Bytes → Except SchemaError Nat} {parts : List View}
    (each : ∀ part ∈ parts, ∀ {front rest rest' : Bytes}, MayFollow registry rest rest' →
      measure part (front ++ rest) = .ok front.length →
      measure' part (front ++ rest') = .ok front.length)
    (may : MayFollow registry rest rest') {front : Bytes}
    (measured : sizeOfParts measure parts (front ++ rest) = .ok front.length) :
    sizeOfParts measure' parts (front ++ rest') = .ok front.length := by
  induction parts generalizing front with
  | nil => exact measured
  | cons part parts induction =>
      obtain ⟨eachFirst, eachLater⟩ := List.forall_mem_cons.mp each
      obtain ⟨first, others, rfl, measuredFirst, measuredOthers⟩ :=
        sizeOfParts_cons_eq_ok_iff.mp measured
      exact sizeOfParts_cons_eq_ok_iff.mpr ⟨first, others, rfl,
        eachFirst (may.append others) measuredFirst, induction eachLater measuredOthers⟩

theorem countAt_append
    {front : Bytes} {count : Nat} (counted : countAt (front ++ rest) = .ok count)
    (enough : Wire.countSize ≤ front.length) (rest' : Bytes) :
    ∃ items, front = Wire.count count ++ items ∧ countAt (front ++ rest') = .ok count := by
  obtain ⟨fits, later, split⟩ := countAt_eq_ok_iff.mp counted
  have stands : Wire.count count <+: front ++ rest := ⟨later, split.symm⟩
  have shorter : (Wire.count count).length ≤ front.length := by
    rw [Wire.length_count]
    exact enough
  obtain ⟨items, rfl⟩ :=
    List.prefix_of_prefix_length_le stands (List.prefix_append front rest) shorter
  refine ⟨items, rfl, ?_⟩
  rw [List.append_assoc]
  exact countAt_count_append fits _

theorem scalarSize_append
    {kind : Kind} {front : Bytes} (measured : scalarSize kind (front ++ rest) = .ok front.length) :
    scalarSize kind (front ++ rest') = .ok front.length := by
  unfold scalarSize at measured ⊢
  split at measured
  · rename_i isString
    obtain ⟨count, counted, added⟩ := Outcome.bind_eq_ok_iff.mp measured
    obtain ⟨total, _⟩ := Offset.add?_eq_some_iff.mp (offset_eq_ok_iff.mp added)
    obtain ⟨_, _, counted'⟩ := countAt_append counted (by omega) rest'
    rw [if_pos isString]
    exact Outcome.bind_eq_ok_iff.mpr ⟨count, counted', added⟩
  · rename_i notString
    rw [if_neg notString]
    exact measured

theorem referenceSizeAt_append
    {kind : ReferenceKind} {front : Bytes}
    (measured : referenceSizeAt kind (front ++ rest) = .ok front.length) :
    referenceSizeAt kind (front ++ rest') = .ok front.length := by
  cases kind with
  | single => exact measured
  | dynamic => exact measured
  | slice =>
      obtain ⟨count, counted, placed⟩ := Outcome.bind_eq_ok_iff.mp measured
      obtain ⟨total, _⟩ := Offset.ofItem?_eq_some_iff.mp (offset_eq_ok_iff.mp placed)
      obtain ⟨_, _, counted'⟩ := countAt_append counted (by omega) rest'
      exact Outcome.bind_eq_ok_iff.mpr ⟨count, counted', placed⟩

/-- The elements of a sequence lie between its start and what follows it. -/
theorem sizeOfSequence_append
    {measure measure' : View → Bytes → Except SchemaError Nat} {elem : View} {count : Nat}
    {start items : Bytes} (may : MayFollow registry rest rest')
    (each : ∀ {front rest rest' : Bytes}, MayFollow registry rest rest' →
      measure elem (front ++ rest) = .ok front.length →
      measure' elem (front ++ rest') = .ok front.length)
    (positive : rest.length ≤ rest'.length ∨
      (elem.fixedSize? = none → count ≠ 0 → ∀ bytes, measure elem bytes ≠ .ok 0))
    (measured : sizeOfSequence elem (measure elem) count start.length (start ++ items ++ rest) =
      .ok (start ++ items).length) :
    sizeOfSequence elem (measure' elem) count start.length (start ++ items ++ rest') =
      .ok (start ++ items).length := by
  have later (following : Bytes) : (start ++ items ++ following).drop start.length =
      items ++ following := by
    rw [List.append_assoc, List.drop_left]
  rcases sizeOfSequence_eq_ok_iff.mp measured with fixed | ⟨unfixed, guarded, run⟩
  · exact sizeOfSequence_eq_ok_iff.mpr (.inl fixed)
  · obtain ⟨size, walked, total⟩ := run
    rw [List.length_append, Nat.add_left_cancel_iff] at total
    rw [later] at guarded walked
    rw [← total] at walked
    have eachPart : ∀ part ∈ List.replicate count elem, ∀ {front rest rest' : Bytes},
        MayFollow registry rest rest' → measure part (front ++ rest) = .ok front.length →
        measure' part (front ++ rest') = .ok front.length := by
      intro part member
      rw [List.eq_of_mem_replicate member]
      exact each
    have guarded' : count ≤ (items ++ rest').length := by
      rw [List.length_append] at guarded ⊢
      rcases positive with longer | takeBytes
      · omega
      · by_cases none : count = 0
        · omega
        · have bound := count_le_of_sizeOfParts (takeBytes unfixed none) walked
          omega
    refine sizeOfSequence_eq_ok_iff.mpr (.inr ⟨unfixed, ?_, items.length, ?_, ?_⟩)
    · rw [later]
      exact guarded'
    · rw [later]
      exact sizeOfParts_append_of_mayFollow eachPart may walked
    · rw [List.length_append]

/-- A size that is found stays when more levels are allowed and when other bytes follow
that may. -/
theorem sizeWithin_append
    (registered : registry.entries.Registered) {levels levels' : Nat} (more : levels ≤ levels')
    (within : levels ≤ depthLimit + 1) (may : MayFollow registry rest rest') {view : View}
    (reachable : Reachable registry view) {front : Bytes}
    (measured : sizeWithin levels view (front ++ rest) = .ok front.length) :
    sizeWithin levels' view (front ++ rest') = .ok front.length := by
  induction levels generalizing levels' view front rest rest' with
  | zero => cases measured
  | succ levels induction =>
      cases levels' with
      | zero => cases more
      | succ levels' =>
          have less : levels ≤ depthLimit := Nat.le_of_succ_le_succ within
          have fits : front.length ≤ (front ++ rest').length := by
            rw [List.length_append]
            omega
          have each {part : View} (reachablePart : Reachable registry part)
              {front rest rest' : Bytes} (may : MayFollow registry rest rest')
              (measured : sizeWithin levels part (front ++ rest) = .ok front.length) :
              sizeWithin levels' part (front ++ rest') = .ok front.length :=
            induction (Nat.le_of_succ_le_succ more) (Nat.le_of_succ_le within) may reachablePart
              measured
          have linked := reachable.linked registered
          obtain ⟨registry', schema⟩ := view
          cases schema with
          | scalar kind name =>
              rw [sizeWithin_scalar] at measured ⊢
              exact bind_fitting_eq_ok_iff.mpr
                ⟨scalarSize_append (bind_fitting_eq_ok_iff.mp measured).1, fits⟩
          | reference kind target =>
              rw [sizeWithin_reference] at measured ⊢
              exact bind_fitting_eq_ok_iff.mpr
                ⟨referenceSizeAt_append (bind_fitting_eq_ok_iff.mp measured).1, fits⟩
          | openReference kind =>
              rw [sizeWithin_openReference] at measured ⊢
              exact bind_fitting_eq_ok_iff.mpr
                ⟨referenceSizeAt_append (bind_fitting_eq_ok_iff.mp measured).1, fits⟩
          | slice name inner =>
              obtain ⟨elem, follows, _⟩ := linked.follow List.mem_cons_self
              obtain ⟨count, counted, sized, _⟩ := (sizeWithin_slice_eq_ok_iff follows).mp measured
              have enough : Wire.countSize ≤ front.length := by
                rcases sizeOfSequence_eq_ok_iff.mp sized with ⟨_, _, _, _⟩ | ⟨_, _, _, _, _⟩ <;>
                  omega
              obtain ⟨items, rfl, counted'⟩ := countAt_append counted enough rest'
              have positive := may.elements reachable
                (fun _ : count ≠ 0 => ⟨follows, .inl ⟨name, inner, rfl⟩⟩) less
              have start : (Wire.count count).length = Wire.countSize := Wire.length_count count
              rw [← start] at sized
              have sized' := sizeOfSequence_append may (each (reachable.elem follows)) positive sized
              exact (sizeWithin_slice_eq_ok_iff follows).mpr ⟨count, counted', sized', fits⟩
          | array name length inner =>
              obtain ⟨elem, follows, _⟩ := linked.follow List.mem_cons_self
              obtain ⟨sized, _⟩ := (sizeWithin_array_eq_ok_iff follows).mp measured
              have positive := may.elements reachable
                (fun nonempty => ⟨follows, .inr ⟨name, length, inner, rfl, nonempty⟩⟩) less
              have sized' : sizeOfSequence elem (sizeWithin levels' elem) length ([] : Bytes).length
                  ([] ++ front ++ rest') = .ok ([] ++ front).length :=
                sizeOfSequence_append may (each (reachable.elem follows)) positive sized
              exact (sizeWithin_array_eq_ok_iff follows).mpr ⟨sized', fits⟩
          | struct name fields =>
              obtain ⟨parts, followFields, _⟩ := linked.fields
              have reachableParts := reachable.parts followFields
              obtain ⟨found, _⟩ := (sizeWithin_struct_eq_ok_iff followFields).mp measured
              exact (sizeWithin_struct_eq_ok_iff followFields).mpr ⟨sizeOfParts_append_of_mayFollow
                (fun part member => each (reachableParts part member)) may found, fits⟩
          | placeholder kind name => cases linked.full

theorem sizeWithin_mono
    (registered : registry.entries.Registered) {levels levels' : Nat} (more : levels ≤ levels')
    (within : levels ≤ depthLimit + 1) {view : View} (reachable : Reachable registry view)
    {bytes : Bytes} {size : Nat} (measured : sizeWithin levels view bytes = .ok size) :
    sizeWithin levels' view bytes = .ok size := by
  obtain ⟨front, rest, rfl, rfl⟩ := Bytes.exists_front (le_of_sizeWithin measured)
  exact sizeWithin_append registered more within (.inl (Nat.le_refl _)) reachable measured

/-- Bytes after a value that has been measured do not matter. -/
theorem size_append_of_size
    (registered : registry.entries.Registered) {view : View}
    (reachable : Reachable registry view) {bytes : Bytes} {size : Nat}
    (measured : view.size bytes = .ok size) (more : Bytes) :
    view.size (bytes ++ more) = .ok size := by
  obtain ⟨front, rest, rfl, rfl⟩ := Bytes.exists_front (le_of_sizeWithin measured)
  have longer : rest.length ≤ (rest ++ more).length := by
    rw [List.length_append]
    omega
  rw [List.append_assoc]
  exact sizeWithin_append registered (Nat.le_refl _) (Nat.le_refl _) (.inl longer) reachable
    measured

/-- Where elements take bytes, what follows a value does not matter. -/
theorem size_take_append
    (registered : registry.entries.Registered) (takeBytes : registry.ElementsTakeBytes)
    {view : View} (reachable : Reachable registry view) {bytes : Bytes} {size : Nat}
    (measured : view.size bytes = .ok size) (rest : Bytes) :
    view.size (bytes.take size ++ rest) = .ok size := by
  obtain ⟨front, later, rfl, rfl⟩ := Bytes.exists_front (le_of_sizeWithin measured)
  rw [List.take_left]
  have may : MayFollow registry later rest := by
    right
    intro view elem reachableView repeats unfixed levels less bytes empty
    have reachableElem := reachableView.elem repeats.1
    exact takeBytes view elem reachableView repeats unfixed bytes
      (sizeWithin_mono registered less (Nat.le_succ_of_le less) reachableElem empty)
  exact sizeWithin_append registered (Nat.le_refl _) (Nat.le_refl _) may reachable measured

end View

end TypedObject
