import Mathlib.Algebra.GroupWithZero.Nat
import TypedObject.Proofs.View.SizeExactness

/-!
# The shortcut for fixed sizes

A fixed size that is found over some levels is found over more levels, and measuring
over as many levels finds the same size in all bytes that reach for it, and fails on
all others.  So for parts of fixed sizes the sum of the sizes says all that measuring
them one after the other could say.
-/

namespace TypedObject.View

theorem sumOfParts_mono
    {fixed fixed' : View → Option Nat} {parts : List View}
    (each : ∀ part ∈ parts, ∀ size, fixed part = some size → fixed' part = some size)
    {total sum : Nat} (summed : sumOfParts fixed total parts = some sum) :
    sumOfParts fixed' total parts = some sum := by
  induction parts generalizing total with
  | nil => exact summed
  | cons part parts induction =>
      obtain ⟨eachFirst, eachLater⟩ := List.forall_mem_cons.mp each
      obtain ⟨size, known, small, later⟩ := sumOfParts_cons_eq_some_iff.mp summed
      exact sumOfParts_cons_eq_some_iff.mpr
        ⟨size, eachFirst size known, small, induction eachLater later⟩

theorem fixedSizeWithin_mono
    {levels levels' : Nat} {view : View} (linked : view.Linked) {size : Nat}
    (fixed : fixedSizeWithin levels view = some size) (more : levels ≤ levels') :
    fixedSizeWithin levels' view = some size := by
  induction levels generalizing levels' view size with
  | zero => cases fixed
  | succ levels induction =>
      cases levels' with
      | zero => cases more
      | succ levels' =>
          have less : levels ≤ levels' := Nat.le_of_succ_le_succ more
          obtain ⟨registry, schema⟩ := view
          cases schema with
          | array name length inner =>
              obtain ⟨elem, follows, linkedElem⟩ := linked.follow List.mem_cons_self
              rw [fixedSizeWithin_array follows] at fixed ⊢
              split
              · rename_i empty
                rw [if_pos empty] at fixed
                exact fixed
              · rename_i nonempty
                rw [if_neg nonempty] at fixed
                obtain ⟨width, known, product⟩ := Option.bind_eq_some_iff.mp fixed
                exact Option.bind_eq_some_iff.mpr ⟨width, induction linkedElem known less, product⟩
          | struct name fields =>
              obtain ⟨parts, followFields, linkedParts⟩ := linked.fields
              rw [fixedSizeWithin_struct followFields] at fixed ⊢
              exact sumOfParts_mono
                (fun part member _ known => induction (linkedParts part member) known less) fixed
          | scalar kind name => exact fixed
          | reference kind target =>
              rw [fixedSizeWithin_reference] at fixed ⊢
              exact fixed
          | openReference kind =>
              rw [fixedSizeWithin_openReference] at fixed ⊢
              exact fixed
          | slice name inner => cases fixed
          | placeholder kind name => cases fixed

/-- A sequence is measured by the shortcut, or else element by element after the guard
on the count. -/
theorem sizeOfSequence_eq_ok_iff
    {measure : View → Bytes → Except SchemaError Nat} {elem : View} {count start size : Nat}
    {bytes : Bytes} :
    sizeOfSequence elem (measure elem) count start bytes = .ok size ↔
      (∃ width, elem.fixedSize? = some width ∧
        size = count * width + start ∧ size < Offset.bound) ∨
      (elem.fixedSize? = none ∧ count ≤ (bytes.drop start).length ∧
        ∃ items, sizeOfParts measure (List.replicate count elem) (bytes.drop start) = .ok items ∧
          size = start + items) := by
  unfold sizeOfSequence
  cases elem.fixedSize? with
  | some width =>
      dsimp only
      rw [offset_eq_ok_iff, Offset.ofItem?_eq_some_iff]
      simp
  | none =>
      dsimp only
      rw [← sizeOfRun_eq_sizeOfParts]
      split
      · rename_i short
        rw [Bytes.isShorter_iff] at short
        simp only [reduceCtorEq, Nat.not_le.mpr short, false_and, and_false, exists_false, or_self]
      · rename_i enough
        rw [Bytes.isShorter_iff, Nat.not_lt] at enough
        simp only [Outcome.bind_eq_ok_iff, Outcome.pure_eq_ok_iff, reduceCtorEq, enough, false_and,
          exists_false, false_or, true_and]
        simp only [eq_comm]

theorem sizeWithin_slice_eq_ok_iff
    {registry : Registry} {name : Option String} {inner : Schema} {elem : View}
    (follows : follow registry inner = .ok elem) {levels size : Nat} {bytes : Bytes} :
    sizeWithin (levels + 1) ⟨registry, .slice name inner⟩ bytes = .ok size ↔
      ∃ count, countAt bytes = .ok count ∧
        sizeOfSequence elem (sizeWithin levels elem) count Wire.countSize bytes = .ok size ∧
        size ≤ bytes.length := by
  rw [sizeWithin_slice, bind_fitting_eq_ok_iff, follows]
  change (countAt bytes >>= _) = .ok size ∧ _ ↔ _
  rw [Outcome.bind_eq_ok_iff]
  simp only [← and_assoc, exists_and_right]

theorem sizeWithin_array_eq_ok_iff
    {registry : Registry} {name : Option String} {length : Nat} {inner : Schema} {elem : View}
    (follows : follow registry inner = .ok elem) {levels size : Nat} {bytes : Bytes} :
    sizeWithin (levels + 1) ⟨registry, .array name length inner⟩ bytes = .ok size ↔
      sizeOfSequence elem (sizeWithin levels elem) length 0 bytes = .ok size ∧
        size ≤ bytes.length := by
  rw [sizeWithin_array, bind_fitting_eq_ok_iff, follows]
  rfl

theorem sizeWithin_struct_eq_ok_iff
    {registry : Registry} {name : Option String} {fields : List Field} {parts : List View}
    (followFields : fields.mapM (ofField ⟨registry, .struct name fields⟩) = .ok parts)
    {levels size : Nat} {bytes : Bytes} :
    sizeWithin (levels + 1) ⟨registry, .struct name fields⟩ bytes = .ok size ↔
      sizeOfParts (sizeWithin levels) parts bytes = .ok size ∧ size ≤ bytes.length := by
  rw [sizeWithin_struct, bind_fitting_eq_ok_iff, sizeOfFields_eq_sizeOfParts followFields]

theorem fitting_zero (bytes : Bytes) : fitting bytes 0 = .ok 0 :=
  fitting_eq_ok_iff.mpr ⟨rfl, Nat.zero_le _⟩

theorem fitting_of_le {bytes : Bytes} {size : Nat} (fits : size ≤ bytes.length) :
    fitting bytes size = .ok size :=
  fitting_eq_ok_iff.mpr ⟨rfl, fits⟩

theorem fitting_of_lt {bytes : Bytes} {size : Nat} (short : bytes.length < size) :
    fitting bytes size = .error .invalidSchemaOrData :=
  if_pos ((Bytes.isShorter_iff bytes size).mpr short)

/-- What fits after the first bytes fits together with them. -/
theorem fitting_add (bytes : Bytes) (first others : Nat) :
    (do
      let size ← fitting bytes first
      let size' ← fitting (bytes.drop size) others
      return size + size') = fitting bytes (first + others) := by
  by_cases fitsFirst : first ≤ bytes.length
  · rw [fitting_of_le fitsFirst]
    by_cases fitsOthers : others ≤ (bytes.drop first).length
    · have fits : first + others ≤ bytes.length := by
        rw [List.length_drop] at fitsOthers
        omega
      rw [fitting_of_le fits]
      change (fitting (bytes.drop first) others >>= _) = _
      rw [fitting_of_le fitsOthers]
      rfl
    · have short : bytes.length < first + others := by
        rw [List.length_drop] at fitsOthers
        omega
      rw [fitting_of_lt short]
      change (fitting (bytes.drop first) others >>= _) = _
      rw [fitting_of_lt (Nat.lt_of_not_le fitsOthers)]
      rfl
  · have short : bytes.length < first + others := by omega
    rw [fitting_of_lt short, fitting_of_lt (Nat.lt_of_not_le fitsFirst)]
    rfl

/-- Parts of known widths are measured by the sum of the widths. -/
theorem sizeOfParts_eq_fitting
    {measure : View → Bytes → Except SchemaError Nat} {width : View → Nat} {parts : List View}
    (each : ∀ part ∈ parts, ∀ bytes, measure part bytes = fitting bytes (width part))
    (bytes : Bytes) :
    sizeOfParts measure parts bytes = fitting bytes (parts.map width).sum := by
  induction parts generalizing bytes with
  | nil => exact (fitting_zero bytes).symm
  | cons part parts induction =>
      obtain ⟨eachFirst, eachLater⟩ := List.forall_mem_cons.mp each
      rw [List.map_cons, List.sum_cons, ← fitting_add, sizeOfParts, eachFirst]
      congr 1
      funext first
      rw [induction eachLater]

theorem sum_of_sumOfParts
    {fixed : View → Option Nat} {parts : List View} {total sum : Nat}
    (summed : sumOfParts fixed total parts = some sum) :
    sum = total + (parts.map fun part => (fixed part).getD 0).sum ∧
      ∀ part ∈ parts, fixed part = some ((fixed part).getD 0) := by
  induction parts generalizing total with
  | nil =>
      cases summed
      exact ⟨rfl, nofun⟩
  | cons part parts induction =>
      obtain ⟨size, known, _, later⟩ := sumOfParts_cons_eq_some_iff.mp summed
      obtain ⟨rfl, others⟩ := induction later
      have width : (fixed part).getD 0 = size := by rw [known, Option.getD_some]
      refine ⟨?_, List.forall_mem_cons.mpr ⟨?_, others⟩⟩
      · rw [List.map_cons, List.sum_cons, width, Nat.add_assoc]
      · rw [width, known]

theorem scalarSize_of_fixed
    {kind : Kind} {size : Nat} (fixed : kind.fixedSize? = some size) (bytes : Bytes) :
    scalarSize kind bytes = .ok size := by
  have notString : kind ≠ .string := by
    rintro rfl
    cases fixed
  rw [scalarSize, if_neg notString, fixed]
  rfl

theorem referenceSizeAt_of_fixed
    {kind : ReferenceKind} {size : Nat} (fixed : fixedReferenceSize? kind = some size)
    (bytes : Bytes) : referenceSizeAt kind bytes = .ok size := by
  cases kind with
  | slice => cases fixed
  | _ =>
      cases fixed
      rfl

/-- Measuring over the levels that a fixed size was found over looks at nothing but
whether the bytes reach for it. -/
theorem sizeWithin_eq_fitting
    {levels : Nat} (within : levels ≤ depthLimit + 1) {view : View} (linked : view.Linked)
    {size : Nat} (fixed : fixedSizeWithin levels view = some size) (bytes : Bytes) :
    sizeWithin levels view bytes = fitting bytes size := by
  induction levels generalizing view size bytes with
  | zero => cases fixed
  | succ levels induction =>
      have less : levels ≤ depthLimit + 1 := Nat.le_of_succ_le within
      obtain ⟨registry, schema⟩ := view
      cases schema with
      | scalar kind name =>
          rw [sizeWithin_scalar, scalarSize_of_fixed fixed]
          rfl
      | reference kind target =>
          rw [fixedSizeWithin_reference] at fixed
          rw [sizeWithin_reference, referenceSizeAt_of_fixed fixed]
          rfl
      | openReference kind =>
          rw [fixedSizeWithin_openReference] at fixed
          rw [sizeWithin_openReference, referenceSizeAt_of_fixed fixed]
          rfl
      | array name length inner =>
          obtain ⟨elem, follows, linkedElem⟩ := linked.follow List.mem_cons_self
          have sequence : sizeOfSequence elem (sizeWithin levels elem) length 0 bytes =
              .ok size := by
            rw [fixedSizeWithin_array follows] at fixed
            apply sizeOfSequence_eq_ok_iff.mpr
            split at fixed
            · rename_i empty
              cases fixed
              subst empty
              cases known : elem.fixedSize? with
              | some width => exact .inl ⟨width, rfl, by rw [Nat.zero_mul], by decide⟩
              | none => exact .inr ⟨rfl, Nat.zero_le _, 0, rfl, rfl⟩
            · obtain ⟨width, known, multiplied⟩ := Option.bind_eq_some_iff.mp fixed
              obtain ⟨rfl, small⟩ := Offset.mul?_eq_some_iff.mp multiplied
              exact .inl ⟨width, fixedSizeWithin_mono linkedElem known less, Nat.mul_comm _ _, small⟩
          rw [sizeWithin_array, follows]
          change (sizeOfSequence elem (sizeWithin levels elem) length 0 bytes >>= fitting bytes) = _
          rw [sequence]
          rfl
      | struct name fields =>
          obtain ⟨parts, followFields, linkedParts⟩ := linked.fields
          change fields.mapM (ofField ⟨registry, .struct name fields⟩) = .ok parts at followFields
          rw [fixedSizeWithin_struct followFields] at fixed
          obtain ⟨rfl, widths⟩ := sum_of_sumOfParts fixed
          have each : ∀ part ∈ parts, ∀ bytes, sizeWithin levels part bytes =
              fitting bytes ((fixedSizeWithin levels part).getD 0) :=
            fun part member => induction less (linkedParts part member) (widths part member)
          rw [sizeWithin_struct, sizeOfFields_eq_sizeOfParts followFields,
            sizeOfParts_eq_fitting each, Nat.zero_add]
          by_cases fits : (parts.map fun part => (fixedSizeWithin levels part).getD 0).sum ≤
              bytes.length
          · rw [fitting_of_le fits]
            exact fitting_of_le fits
          · rw [fitting_of_lt (Nat.lt_of_not_le fits)]
            rfl
      | slice name inner => cases fixed
      | placeholder kind name => cases fixed

theorem size_eq_fitting
    {view : View} (linked : view.Linked) {size : Nat} (fixed : view.fixedSize? = some size)
    (bytes : Bytes) : view.size bytes = fitting bytes size :=
  sizeWithin_eq_fitting (Nat.le_refl _) linked fixed bytes

/-- So many values of a fixed size one after the other. -/
theorem sizeOfParts_replicate_eq_fitting
    {elem : View} (linked : elem.Linked) {width : Nat} (fixed : elem.fixedSize? = some width)
    (count : Nat) (bytes : Bytes) :
    sizeOfParts View.size (List.replicate count elem) bytes = fitting bytes (count * width) := by
  have each : ∀ part ∈ List.replicate count elem, ∀ bytes,
      part.size bytes = fitting bytes width := by
    intro part member
    rw [List.eq_of_mem_replicate member]
    exact size_eq_fitting linked fixed
  have sum : ((List.replicate count elem).map fun _ => width).sum = count * width := by
    rw [List.map_replicate, List.sum_replicate_nat]
  rw [sizeOfParts_eq_fitting each, sum]

end TypedObject.View
