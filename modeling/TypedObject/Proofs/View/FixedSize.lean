import TypedObject.Proofs.View.Grammar
import TypedObject.Proofs.View.Reachable

/-!
# Sizes that do not depend on the bytes

When a schema has a fixed size, all byte strings of that size are encodings and, as
far as levels and offsets reach, no others.  When it has none, every encoding within
the levels has at least one byte; this is what the guard on counts relies on.
-/

namespace TypedObject

namespace Offset

theorem add?_eq_some_iff
    {left right sum : Nat} : add? left right = some sum ↔ sum = left + right ∧ sum < bound := by
  unfold add? ofNat?
  split
  · simp_all [eq_comm]
  · simp_all

theorem mul?_eq_some_iff
    {left right product : Nat} :
    mul? left right = some product ↔ product = left * right ∧ product < bound := by
  unfold mul? ofNat?
  split
  · simp_all [eq_comm]
  · simp_all

theorem ofItem?_eq_some_iff
    {index size start place : Nat} :
    ofItem? index size start = some place ↔
      place = index * size + start ∧ place < bound := by
  unfold ofItem?
  simp only [Option.bind_eq_bind, Option.bind_eq_some_iff, mul?_eq_some_iff, add?_eq_some_iff]
  constructor
  · intro found
    obtain ⟨distance, ⟨rfl, _⟩, same, small⟩ := found
    exact ⟨same, small⟩
  · intro found
    obtain ⟨rfl, small⟩ := found
    exact ⟨index * size, ⟨rfl, by omega⟩, rfl, small⟩

end Offset

namespace View

/-- The sum of the sizes of parts, added to a total. -/
def sumOfParts (fixed : View → Option Nat) (total : Nat) (parts : List View) : Option Nat :=
  parts.foldlM (fun total part => do
    let size ← fixed part
    Offset.add? total size) total

theorem sumOfParts_cons
    (fixed : View → Option Nat) (total : Nat) (part : View) (parts : List View) :
    sumOfParts fixed total (part :: parts) =
      (fixed part).bind fun size =>
        (Offset.add? total size).bind fun sum => sumOfParts fixed sum parts := by
  unfold sumOfParts
  rw [List.foldlM_cons]
  simp only [Option.bind_eq_bind, Option.bind_assoc]

theorem foldlM_fields_eq_sumOfParts
    {view : View} {fields : List Field} {parts : List View}
    (follow : fields.mapM view.ofField = .ok parts) (fixed : View → Option Nat) (total : Nat) :
    fields.foldlM (fun total field => do
      let part ← (view.ofField field).toOption
      let size ← fixed part
      Offset.add? total size) total = sumOfParts fixed total parts := by
  induction fields generalizing parts total with
  | nil =>
      cases follow
      rfl
  | cons field fields induction =>
      obtain ⟨part, others, followed, followOthers, rfl⟩ :=
        Outcome.mapM_cons_eq_ok_iff.mp follow
      rw [List.foldlM_cons, sumOfParts_cons, followed]
      simp only [Except.toOption, Option.bind_eq_bind, Option.bind_some, Option.bind_assoc]
      apply Option.bind_congr
      intro size _
      apply Option.bind_congr
      intro sum _
      exact induction followOthers sum

theorem sumOfParts_cons_eq_some_iff
    {fixed : View → Option Nat} {total sum : Nat} {part : View} {parts : List View} :
    sumOfParts fixed total (part :: parts) = some sum ↔
      ∃ size, fixed part = some size ∧ total + size < Offset.bound ∧
        sumOfParts fixed (total + size) parts = some sum := by
  rw [sumOfParts_cons]
  simp only [Option.bind_eq_some_iff, Offset.add?_eq_some_iff]
  constructor
  · intro found
    obtain ⟨size, known, sum, ⟨rfl, small⟩, later⟩ := found
    exact ⟨size, known, small, later⟩
  · intro found
    obtain ⟨size, known, small, later⟩ := found
    exact ⟨size, known, total + size, ⟨rfl, small⟩, later⟩

theorem le_of_sumOfParts
    {fixed : View → Option Nat} {total sum : Nat} {parts : List View}
    (summed : sumOfParts fixed total parts = some sum) : total ≤ sum := by
  induction parts generalizing total with
  | nil =>
      cases summed
      exact Nat.le_refl _
  | cons part parts induction =>
      obtain ⟨size, _, _, later⟩ := sumOfParts_cons_eq_some_iff.mp summed
      have bound := induction later
      omega

/-- All bytes of the summed length are encodings, one for each part. -/
theorem encodesRun_of_sumOfParts
    {encodes : View → Bytes → Prop} {fixed : View → Option Nat} {parts : List View}
    (each : ∀ part ∈ parts, ∀ bytes : Bytes, fixed part = some bytes.length → encodes part bytes)
    {total : Nat} {bytes : Bytes}
    (summed : sumOfParts fixed total parts = some (total + bytes.length)) :
    EncodesRun encodes parts bytes := by
  induction parts generalizing total bytes with
  | nil =>
      have same : total = total + bytes.length := Option.some.inj summed
      exact List.length_eq_zero_iff.mp (by omega)
  | cons part parts induction =>
      obtain ⟨eachFirst, eachLater⟩ := List.forall_mem_cons.mp each
      obtain ⟨size, known, _, later⟩ := sumOfParts_cons_eq_some_iff.mp summed
      have fits : size ≤ bytes.length := by
        have bound := le_of_sumOfParts later
        omega
      have taken : (bytes.take size).length = size := List.length_take_of_le fits
      refine ⟨bytes.take size, bytes.drop size, ?_, ?_, (List.take_append_drop _ _).symm⟩
      · apply eachFirst
        rw [taken]
        exact known
      · have summedLater : sumOfParts fixed (total + size) parts =
            some (total + size + (bytes.drop size).length) := by
          rw [later, List.length_drop]
          congr 1
          omega
        exact induction eachLater summedLater

theorem encodesRun_replicate_of_length
    {encodes : View → Bytes → Prop} {elem : View} {size : Nat}
    (each : ∀ bytes : Bytes, bytes.length = size → encodes elem bytes) {count : Nat}
    {bytes : Bytes} (length : bytes.length = count * size) :
    EncodesRun encodes (List.replicate count elem) bytes := by
  induction count generalizing bytes with
  | zero => exact List.length_eq_zero_iff.mp (by simpa using length)
  | succ count induction =>
      rw [Nat.succ_mul] at length
      have taken : (bytes.take size).length = size := List.length_take_of_le (by omega)
      refine ⟨bytes.take size, bytes.drop size, each _ taken, induction ?_,
        (List.take_append_drop _ _).symm⟩
      rw [List.length_drop]
      omega

/-- The size of every value of a reference schema. -/
def fixedReferenceSize? : ReferenceKind → Option Nat
  | .single => some referenceSize
  | .dynamic => some dynamicSize
  | .slice => none

theorem fixedSizeWithin_reference
    (levels : Nat) (registry : Registry) (kind : ReferenceKind) (target : Schema) :
    fixedSizeWithin (levels + 1) ⟨registry, .reference kind target⟩ = fixedReferenceSize? kind := by
  cases kind <;> rfl

theorem fixedSizeWithin_openReference
    (levels : Nat) (registry : Registry) (kind : ReferenceKind) :
    fixedSizeWithin (levels + 1) ⟨registry, .openReference kind⟩ = fixedReferenceSize? kind := by
  cases kind <;> rfl

theorem fixedSizeWithin_array
    {levels length : Nat} {registry : Registry} {name : Option String} {inner : Schema}
    {elem : View} (follows : follow registry inner = .ok elem) :
    fixedSizeWithin (levels + 1) ⟨registry, .array name length inner⟩ =
      if length = 0 then some 0
      else (fixedSizeWithin levels elem).bind fun size => Offset.mul? size length := by
  change (if length = 0 then some 0 else do
    let elem ← (follow registry inner).toOption
    let size ← fixedSizeWithin levels elem
    Offset.mul? size length) = _
  rw [follows]
  rfl

theorem fixedSizeWithin_struct
    {levels : Nat} {registry : Registry} {name : Option String} {fields : List Field}
    {parts : List View}
    (followFields : fields.mapM (ofField ⟨registry, .struct name fields⟩) = .ok parts) :
    fixedSizeWithin (levels + 1) ⟨registry, .struct name fields⟩ =
      sumOfParts (fixedSizeWithin levels) 0 parts :=
  foldlM_fields_eq_sumOfParts followFields (fixedSizeWithin levels) 0

theorem encodesReference_of_fixed
    {kind : ReferenceKind} {bytes : Bytes}
    (fixed : fixedReferenceSize? kind = some bytes.length) : EncodesReference kind bytes := by
  cases kind with
  | slice => cases fixed
  | _ => exact (Option.some.inj fixed).symm

/-- Where a fixed size is found, all byte strings of that size are encodings. -/
theorem encodesWithin_of_fixedSizeWithin
    {levels : Nat} {view : View} (linked : view.Linked) {bytes : Bytes}
    (fixed : fixedSizeWithin levels view = some bytes.length) :
    EncodesWithin levels view bytes := by
  induction levels generalizing view bytes with
  | zero => cases fixed
  | succ levels induction =>
      obtain ⟨registry, schema⟩ := view
      cases schema with
      | scalar kind name => exact .inl fixed
      | reference kind target =>
          rw [fixedSizeWithin_reference] at fixed
          exact encodesReference_of_fixed fixed
      | openReference kind =>
          rw [fixedSizeWithin_openReference] at fixed
          exact encodesReference_of_fixed fixed
      | array name length inner =>
          obtain ⟨elem, follows, linkedElem⟩ := linked.follow List.mem_cons_self
          refine ⟨elem, follows, ?_⟩
          rw [fixedSizeWithin_array follows] at fixed
          split at fixed
          · rename_i empty
            rw [empty]
            exact List.length_eq_zero_iff.mp (Option.some.inj fixed).symm
          · obtain ⟨size, known, multiplied⟩ := Option.bind_eq_some_iff.mp fixed
            obtain ⟨product, _⟩ := Offset.mul?_eq_some_iff.mp multiplied
            have each : ∀ bytes : Bytes, bytes.length = size → EncodesWithin levels elem bytes := by
              intro item sameLength
              apply induction linkedElem
              rw [sameLength]
              exact known
            exact encodesRun_replicate_of_length each (by rw [product, Nat.mul_comm])
      | struct name fields =>
          obtain ⟨parts, followFields, linkedParts⟩ := linked.fields
          rw [fixedSizeWithin_struct followFields, ← Nat.zero_add bytes.length] at fixed
          exact ⟨parts, followFields, encodesRun_of_sumOfParts
            (fun part member _ => induction (linkedParts part member)) fixed⟩
      | slice name inner => cases fixed
      | placeholder kind name => cases fixed

/-- The size is known to be that of the bytes, or else the bytes are not empty. -/
def Sizes (fixed : Option Nat) (bytes : Bytes) : Prop :=
  fixed = some bytes.length ∨ fixed = none ∧ 0 < bytes.length

theorem length_count_append_pos (count : Nat) (bytes : Bytes) :
    0 < (Wire.count count ++ bytes).length := by
  rw [List.length_append, Wire.length_count]
  omega

theorem sizes_scalar
    {kind : Kind} {bytes : Bytes} (encodes : EncodesScalar kind bytes) :
    Sizes kind.fixedSize? bytes := by
  rcases encodes with fixed | ⟨rfl, content, _, rfl⟩
  · exact .inl fixed
  · exact .inr ⟨rfl, length_count_append_pos _ _⟩

theorem sizes_reference
    {kind : ReferenceKind} {bytes : Bytes} (encodes : EncodesReference kind bytes) :
    Sizes (fixedReferenceSize? kind) bytes := by
  cases kind with
  | slice =>
      obtain ⟨count, identifiers, _, _, rfl⟩ := encodes
      exact .inr ⟨rfl, length_count_append_pos _ _⟩
  | _ => exact .inl (congrArg some (Eq.symm encodes))

theorem sizes_sumOfParts
    {encodes : View → Bytes → Prop} {fixed : View → Option Nat} {parts : List View} {total : Nat}
    {bytes : Bytes} (run : EncodesRun encodes parts bytes)
    (each : ∀ part item, encodes part item → item.length < Offset.bound → Sizes (fixed part) item)
    (short : total + bytes.length < Offset.bound) :
    sumOfParts fixed total parts = some (total + bytes.length) ∨
      sumOfParts fixed total parts = none ∧ 0 < bytes.length := by
  induction parts generalizing total bytes with
  | nil =>
      cases run
      exact .inl rfl
  | cons part parts induction =>
      obtain ⟨first, others, encodesFirst, encodesOthers, rfl⟩ := run
      rw [List.length_append] at short ⊢
      rw [sumOfParts_cons]
      rcases each part first encodesFirst (by omega) with known | ⟨unknown, positive⟩
      · have added : Offset.add? total first.length = some (total + first.length) :=
          Offset.add?_eq_some_iff.mpr ⟨rfl, by omega⟩
        have shortOthers : total + first.length + others.length < Offset.bound := by omega
        rw [known, Option.bind_some, added, Option.bind_some, ← Nat.add_assoc]
        rcases induction encodesOthers shortOthers with summed | ⟨unsummed, positive⟩
        · exact .inl summed
        · exact .inr ⟨unsummed, by omega⟩
      · right
        rw [unknown]
        exact ⟨rfl, by omega⟩

/-- A run of one element: all items have the fixed size, or each has a byte. -/
theorem length_of_encodesRun_replicate
    {encodes : View → Bytes → Prop} {fixed : Option Nat} {elem : View} {count : Nat}
    {bytes : Bytes} (run : EncodesRun encodes (List.replicate count elem) bytes)
    (each : ∀ item, encodes elem item → item.length < Offset.bound → Sizes fixed item)
    (short : bytes.length < Offset.bound) :
    (∀ size, fixed = some size → bytes.length = count * size) ∧
      (fixed = none → count ≤ bytes.length) := by
  induction count generalizing bytes with
  | zero =>
      cases run
      exact ⟨fun _ _ => (Nat.zero_mul _).symm, fun _ => Nat.zero_le _⟩
  | succ count induction =>
      obtain ⟨first, others, encodesFirst, encodesOthers, rfl⟩ := run
      rw [List.length_append] at short ⊢
      obtain ⟨knownOthers, unknownOthers⟩ := induction encodesOthers (by omega)
      have sizeFirst := each first encodesFirst (by omega)
      constructor
      · intro size known
        rcases sizeFirst with same | ⟨unknown, _⟩
        · have sameSize : size = first.length := Option.some.inj (known.symm.trans same)
          rw [knownOthers size known, sameSize, Nat.succ_mul, Nat.add_comm]
        · rw [known] at unknown
          cases unknown
      · intro unknown
        rcases sizeFirst with same | ⟨_, positive⟩
        · rw [unknown] at same
          cases same
        · have later := unknownOthers unknown
          omega

/-- A fixed size found over enough levels is that of every encoding, and where none is
found no encoding is empty. -/
theorem sizes_fixedSizeWithin
    {levels levels' : Nat} {view : View} {bytes : Bytes}
    (encodes : EncodesWithin levels view bytes) (more : levels ≤ levels')
    (short : bytes.length < Offset.bound) : Sizes (fixedSizeWithin levels' view) bytes := by
  induction levels generalizing levels' view bytes with
  | zero => cases encodes
  | succ levels induction =>
      cases levels' with
      | zero => cases more
      | succ levels' =>
          have each : ∀ part item, EncodesWithin levels part item →
              item.length < Offset.bound → Sizes (fixedSizeWithin levels' part) item :=
            fun part item encodesItem shortItem =>
              induction encodesItem (Nat.le_of_succ_le_succ more) shortItem
          obtain ⟨registry, schema⟩ := view
          cases schema with
          | scalar kind name => exact sizes_scalar encodes
          | reference kind target =>
              rw [fixedSizeWithin_reference]
              exact sizes_reference encodes
          | openReference kind =>
              rw [fixedSizeWithin_openReference]
              exact sizes_reference encodes
          | slice name inner =>
              obtain ⟨elem, count, items, _, _, _, rfl⟩ := encodes
              exact .inr ⟨rfl, length_count_append_pos _ _⟩
          | array name length inner =>
              obtain ⟨elem, follows, run⟩ := encodes
              obtain ⟨sized, positive⟩ :=
                length_of_encodesRun_replicate run (each elem) short
              unfold Sizes
              rw [fixedSizeWithin_array follows]
              split
              · rename_i empty
                rw [empty] at run
                cases (run : bytes = [])
                exact .inl rfl
              · rename_i nonempty
                cases known : fixedSizeWithin levels' elem with
                | some size =>
                    left
                    rw [Option.bind_some]
                    exact Offset.mul?_eq_some_iff.mpr
                      ⟨by rw [sized size known, Nat.mul_comm], short⟩
                | none =>
                    right
                    have bound := positive known
                    exact ⟨rfl, by omega⟩
          | struct name fields =>
              obtain ⟨parts, followFields, run⟩ := encodes
              have shortSum : 0 + bytes.length < Offset.bound := by
                rw [Nat.zero_add]
                exact short
              have summed := sizes_sumOfParts run each shortSum
              rw [Nat.zero_add] at summed
              unfold Sizes
              rw [fixedSizeWithin_struct followFields]
              exact summed
          | placeholder kind name => cases encodes

end View

end TypedObject
