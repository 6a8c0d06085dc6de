import TypedObject.Proofs.Arithmetic.FixedSizes
import TypedObject.Proofs.View.Resolution
import TypedObject.Proofs.View.Suffix

/-!
# Measuring with words

The size of a value is found by moving an offset over its parts, and a fixed size by
multiplying and adding.  However it is reckoned, the size is the same, and no step has
a fault: every part lies within the bytes that are left for it.  A fixed size that no
word can hold is found by integers only; but then there are not bytes enough for one
such value, and without the fixed size it is refused as well.
-/

namespace TypedObject.Arithmetic

open Guarded
open View (offset fitting countAt referenceSize dynamicSize depthLimit)

/-- The offset after parts that lie one after the other from an offset on. -/
def endOfParts (arithmetic : Arithmetic) (measure : View → Bytes → Guarded Nat) (bytes : Bytes) :
    List (Except SchemaError View) → (offset : Nat) → Guarded Nat
  | [], offset => .ok offset
  | part :: parts, offset => do
    let rest ← rest bytes offset
    let view ← of part
    let size ← measure view rest
    let offset ← arithmetic.advance offset size bytes.length
    endOfParts arithmetic measure bytes parts offset

/-- The size of a list of references. -/
def referencesSize (arithmetic : Arithmetic) (count : Nat) : Except SchemaError Nat :=
  offset (arithmetic.item? count referenceSize Wire.countSize)

/-- The size of a scalar. -/
def scalarSize (arithmetic : Arithmetic) (kind : Kind) (bytes : Bytes) :
    Except SchemaError Nat :=
  if kind = .string then do
    let count ← countAt bytes
    offset (arithmetic.sum? count Wire.countSize)
  else offset kind.fixedSize?

/-- The size of a reference or a list of references. -/
def referenceSizeAt (arithmetic : Arithmetic) (kind : ReferenceKind) (bytes : Bytes) :
    Except SchemaError Nat :=
  match kind with
  | .single => .ok referenceSize
  | .dynamic => .ok dynamicSize
  | .slice => countAt bytes >>= arithmetic.referencesSize

/-- The size of a sequence whose elements begin after `start` bytes. -/
def sizeOfSequence (arithmetic : Arithmetic) (measure : View → Bytes → Guarded Nat) (elem : View)
    (count start : Nat) (bytes : Bytes) : Guarded Nat :=
  match arithmetic.fixedSize? elem with
  | some size => of (offset (arithmetic.item? count size start))
  | none =>
    if bytes.length - start < count then .error (.refused .invalidSchemaOrData)
    else arithmetic.endOfParts measure bytes (List.replicate count (.ok elem)) start

/-- The size of the value at the front of the bytes, over `levels` levels. -/
def sizeWithin (arithmetic : Arithmetic) : (levels : Nat) → View → Bytes → Guarded Nat
  | 0, _, _ => .error (.refused .invalidSchemaOrData)
  | levels + 1, view, bytes => do
    let size ← (match view.schema with
      | .scalar kind _ => of (arithmetic.scalarSize kind bytes)
      | .reference kind _ | .openReference kind => of (arithmetic.referenceSizeAt kind bytes)
      | .slice _ _ => do
        let elem ← of view.elem
        let count ← of (countAt bytes)
        arithmetic.sizeOfSequence (sizeWithin arithmetic levels) elem count Wire.countSize bytes
      | .array _ length _ => do
        let elem ← of view.elem
        arithmetic.sizeOfSequence (sizeWithin arithmetic levels) elem length 0 bytes
      | .struct _ fields =>
        arithmetic.endOfParts (sizeWithin arithmetic levels) bytes (fields.map view.ofField) 0
      | .placeholder _ _ => .error (.refused .invalidSchemaOrData))
    of (fitting bytes size)

/-- The size of the value at the front of the bytes. -/
def size (arithmetic : Arithmetic) (view : View) (bytes : Bytes) : Guarded Nat :=
  arithmetic.sizeWithin (depthLimit + 1) view bytes

/-- What fits behind the first bytes fits together with them. -/
theorem fitting_drop
    {bytes : Bytes} {start : Nat} (inside : start ≤ bytes.length) (size : Nat) :
    ((fitting (bytes.drop start) size).map (start + ·) >>= fitting bytes) =
      fitting bytes (start + size) := by
  have left : (bytes.drop start).length = bytes.length - start := List.length_drop
  by_cases fits : size ≤ bytes.length - start
  · rw [View.fitting_of_le (by omega)]
    rfl
  · rw [View.fitting_of_lt (by omega), View.fitting_of_lt (by omega)]
    rfl

/-- Without a fixed size the elements are measured, unless they are more than the bytes. -/
theorem sizeOfSequence_of_unfixed
    {elem : View} (unfixed : elem.fixedSize? = none)
    (measure : View → Bytes → Except SchemaError Nat) (count start : Nat) (bytes : Bytes) :
    View.sizeOfSequence elem (measure elem) count start bytes =
      if bytes.length - start < count then .error .invalidSchemaOrData
      else (View.sizeOfParts measure (List.replicate count elem) (bytes.drop start)).map
        (start + ·) := by
  unfold View.sizeOfSequence
  rw [unfixed, ← List.length_drop]
  simp only [Bytes.isShorter_iff]
  split
  · rfl
  · rw [View.sizeOfRun_eq_sizeOfParts]
    cases View.sizeOfParts measure (List.replicate count elem) (bytes.drop start) <;> rfl

namespace Faithful

variable {arithmetic : Arithmetic} (faithful : arithmetic.Faithful)

include faithful

/-- A value whose fixed size exceeds the bytes is refused, whether or not words can hold
the size. -/
theorem sizeWithin_of_fixed
    {levels levels' : Nat} {view : View} (linked : view.Linked) {size : Nat}
    (fixed : arithmetic.fixedSizeWithin levels' view = some size) {bytes : Bytes}
    (short : bytes.length < size) (addressable : bytes.length < Offset.bound) :
    View.sizeWithin levels view bytes = .error .invalidSchemaOrData := by
  cases measured : View.sizeWithin levels view bytes with
  | error error => rw [linked.failsOnlyWith_sizeWithin bytes error measured]
  | ok found =>
      obtain ⟨encoded, rest, rfl, rfl, within⟩ := View.sound_sizeWithin linked bytes found measured
      rw [List.length_append] at short addressable
      have length := faithful.length_of_fixedSizeWithin fixed within (by omega)
      omega

/-- So many values of a fixed size that exceeds the bytes fit only if there are none. -/
theorem sizeOfParts_of_fixed
    {levels levels' : Nat} {elem : View} (linked : elem.Linked) {size : Nat}
    (fixed : arithmetic.fixedSizeWithin levels' elem = some size) {bytes : Bytes}
    (short : bytes.length < size) (addressable : bytes.length < Offset.bound) (count : Nat) :
    View.sizeOfParts (View.sizeWithin levels) (List.replicate count elem) bytes =
      fitting bytes (count * size) := by
  cases count with
  | zero =>
      rw [Nat.zero_mul, View.fitting_zero]
      rfl
  | succ count =>
      have larger : bytes.length < (count + 1) * size := by
        rw [Nat.succ_mul]
        omega
      rw [List.replicate_succ, View.sizeOfParts,
        faithful.sizeWithin_of_fixed linked fixed short addressable, View.fitting_of_lt larger]
      rfl

/-- Moving an offset over parts adds up what they measure, and the offset stays within
the bytes. -/
theorem endOfParts_eq
    {guarded : View → Bytes → Guarded Nat} {measure : View → Bytes → Except SchemaError Nat}
    {bytes : Bytes} (addressable : bytes.length < Offset.bound) {parts : List View}
    (each : ∀ part ∈ parts, ∀ rest : Bytes, rest.length < Offset.bound →
      guarded part rest = of (measure part rest))
    (bounded : ∀ part rest size, measure part rest = .ok size → size ≤ rest.length)
    {offset : Nat} (inside : offset ≤ bytes.length) :
    arithmetic.endOfParts guarded bytes (parts.map .ok) offset =
      of ((View.sizeOfParts measure parts (bytes.drop offset)).map (offset + ·)) := by
  induction parts generalizing offset with
  | nil => rfl
  | cons part parts induction =>
      obtain ⟨eachFirst, eachLater⟩ := List.forall_mem_cons.mp each
      have left : (bytes.drop offset).length = bytes.length - offset := List.length_drop
      have measuredFirst := eachFirst (bytes.drop offset) (by omega)
      have unfolded : arithmetic.endOfParts guarded bytes ((part :: parts).map .ok) offset =
          rest bytes offset >>= fun rest => guarded part rest >>= fun size =>
            arithmetic.advance offset size bytes.length >>=
              arithmetic.endOfParts guarded bytes (parts.map .ok) := rfl
      have inRest : rest bytes offset = .ok (bytes.drop offset) := if_pos inside
      rw [unfolded, inRest, View.sizeOfParts]
      change (guarded part (bytes.drop offset) >>= _) = _
      rw [measuredFirst]
      cases measured : measure part (bytes.drop offset) with
      | error error => rfl
      | ok size =>
          have fits := bounded part _ size measured
          have insideNext : offset + size ≤ bytes.length := by omega
          change (arithmetic.advance offset size bytes.length >>= _) = _
          rw [faithful.advance_eq insideNext addressable]
          change arithmetic.endOfParts guarded bytes (parts.map .ok) (offset + size) =
            of ((View.sizeOfParts measure parts ((bytes.drop offset).drop size) >>= fun others =>
              pure (size + others)).map (offset + ·))
          rw [induction eachLater insideNext, List.drop_drop]
          cases View.sizeOfParts measure parts (bytes.drop (offset + size)) with
          | error error => rfl
          | ok others => exact congrArg Except.ok (Nat.add_assoc offset size others)

theorem endOfParts_zero
    {guarded : View → Bytes → Guarded Nat} {measure : View → Bytes → Except SchemaError Nat}
    {bytes : Bytes} (addressable : bytes.length < Offset.bound) {parts : List View}
    (each : ∀ part ∈ parts, ∀ rest : Bytes, rest.length < Offset.bound →
      guarded part rest = of (measure part rest))
    (bounded : ∀ part rest size, measure part rest = .ok size → size ≤ rest.length) :
    arithmetic.endOfParts guarded bytes (parts.map .ok) 0 =
      of (View.sizeOfParts measure parts bytes) := by
  rw [faithful.endOfParts_eq addressable each bounded (Nat.zero_le _), List.drop_zero]
  cases View.sizeOfParts measure parts bytes with
  | error error => rfl
  | ok size => exact congrArg Except.ok (Nat.zero_add size)

theorem endOfParts_replicate
    {guarded : View → Bytes → Guarded Nat} {measure : View → Bytes → Except SchemaError Nat}
    {bytes : Bytes} (addressable : bytes.length < Offset.bound) {elem : View}
    (each : ∀ rest : Bytes, rest.length < Offset.bound →
      guarded elem rest = of (measure elem rest))
    (bounded : ∀ part rest size, measure part rest = .ok size → size ≤ rest.length)
    {offset : Nat} (inside : offset ≤ bytes.length) (count : Nat) :
    arithmetic.endOfParts guarded bytes (List.replicate count (.ok elem)) offset =
      of ((View.sizeOfParts measure (List.replicate count elem) (bytes.drop offset)).map
        (offset + ·)) := by
  rw [← List.map_replicate]
  exact faithful.endOfParts_eq addressable (List.forall_mem_replicate.mpr (.inr each)) bounded
    inside

theorem scalarSize_eq
    {bytes : Bytes} (addressable : bytes.length < Offset.bound) (kind : Kind) :
    (arithmetic.scalarSize kind bytes >>= fitting bytes) =
      View.scalarSize kind bytes >>= fitting bytes := by
  unfold scalarSize View.scalarSize
  split
  · rw [bind_assoc, bind_assoc]
    congr 1
    funext count
    rw [faithful.fitting_sum addressable]
    exact (faithful_words.fitting_sum addressable _ _).symm
  · rfl

theorem referencesSize_eq
    {bytes : Bytes} (addressable : bytes.length < Offset.bound) (count : Nat) :
    (arithmetic.referencesSize count >>= fitting bytes) =
      offset (Offset.ofItem? count referenceSize Wire.countSize) >>= fitting bytes := by
  rw [referencesSize, faithful.fitting_item addressable]
  exact (faithful_words.fitting_item addressable _ _ _).symm

theorem referenceSizeAt_eq
    {bytes : Bytes} (addressable : bytes.length < Offset.bound) (kind : ReferenceKind) :
    (arithmetic.referenceSizeAt kind bytes >>= fitting bytes) =
      View.referenceSizeAt kind bytes >>= fitting bytes := by
  cases kind with
  | slice =>
      unfold referenceSizeAt View.referenceSizeAt
      rw [bind_assoc, bind_assoc]
      congr 1
      funext count
      exact faithful.referencesSize_eq addressable count
  | _ => rfl

/-- Elements of a fixed size are measured by multiplying, also where no word can hold
their size. -/
theorem fitting_sizeOfSequence
    {levels : Nat} {elem : View} (linked : elem.Linked) {width : Nat}
    (fixed : arithmetic.fixedSize? elem = some width) (count : Nat) {start : Nat} {bytes : Bytes}
    (inside : start ≤ bytes.length) (addressable : bytes.length < Offset.bound) :
    (View.sizeOfSequence elem (View.sizeWithin levels elem) count start bytes >>= fitting bytes) =
      fitting bytes (count * width + start) := by
  have known : elem.fixedSize? = Offset.ofNat? width := by
    rw [faithful.fixedSize?_eq linked, fixed]
    rfl
  by_cases small : width < Offset.bound
  · rw [Offset.ofNat?, if_pos small] at known
    unfold View.sizeOfSequence
    rw [known]
    exact faithful_words.fitting_item addressable count width start
  · rw [Offset.ofNat?, if_neg small] at known
    rw [sizeOfSequence_of_unfixed known]
    have left : (bytes.drop start).length = bytes.length - start := List.length_drop
    split
    · rename_i guarded
      have larger := Nat.le_mul_of_pos_right count (by omega : 0 < width)
      rw [View.fitting_of_lt (by omega)]
      rfl
    · rw [faithful.sizeOfParts_of_fixed linked fixed (by omega) (by omega),
        fitting_drop inside, Nat.add_comm]

theorem sizeOfSequence_eq
    {levels : Nat} {elem : View} (linked : elem.Linked)
    (each : ∀ rest : Bytes, rest.length < Offset.bound →
      arithmetic.sizeWithin levels elem rest = of (View.sizeWithin levels elem rest))
    (count : Nat) {start : Nat} {bytes : Bytes} (inside : start ≤ bytes.length)
    (addressable : bytes.length < Offset.bound) :
    (arithmetic.sizeOfSequence (arithmetic.sizeWithin levels) elem count start bytes >>=
        fun size => of (fitting bytes size)) =
      of (View.sizeOfSequence elem (View.sizeWithin levels elem) count start bytes >>=
        fitting bytes) := by
  unfold sizeOfSequence
  cases fixed : arithmetic.fixedSize? elem with
  | some width =>
      rw [faithful.fitting_sizeOfSequence linked fixed count inside addressable,
        ← faithful.fitting_item addressable, of_bind]
  | none =>
      have unfixed : elem.fixedSize? = none := by
        rw [faithful.fixedSize?_eq linked, fixed]
        rfl
      rw [sizeOfSequence_of_unfixed unfixed, of_bind]
      dsimp only
      split
      · rfl
      · rw [faithful.endOfParts_replicate addressable each
          (fun _ _ _ => View.le_of_sizeWithin) inside]

/-- However it is reckoned, the size is the same, and there is no fault. -/
theorem sizeWithin_eq
    {levels : Nat} {view : View} (linked : view.Linked) {bytes : Bytes}
    (addressable : bytes.length < Offset.bound) :
    arithmetic.sizeWithin levels view bytes = of (View.sizeWithin levels view bytes) := by
  induction levels generalizing view bytes with
  | zero => rfl
  | succ levels induction =>
      obtain ⟨registry, schema⟩ := view
      cases schema with
      | scalar kind name =>
          rw [View.sizeWithin_scalar, ← faithful.scalarSize_eq addressable, of_bind]
          rfl
      | reference kind target =>
          rw [View.sizeWithin_reference, ← faithful.referenceSizeAt_eq addressable, of_bind]
          rfl
      | openReference kind =>
          rw [View.sizeWithin_openReference, ← faithful.referenceSizeAt_eq addressable, of_bind]
          rfl
      | slice name inner =>
          obtain ⟨elem, follows, linkedElem⟩ := linked.follow List.mem_cons_self
          have unfolded : arithmetic.sizeWithin (levels + 1) ⟨registry, .slice name inner⟩ bytes =
              ((of (View.follow registry inner) >>= fun elem => of (countAt bytes) >>= fun count =>
                arithmetic.sizeOfSequence (arithmetic.sizeWithin levels) elem count
                  Wire.countSize bytes) >>= fun size => of (fitting bytes size)) := rfl
          rw [unfolded, View.sizeWithin_slice, follows]
          cases counted : countAt bytes with
          | error error => rfl
          | ok count =>
              obtain ⟨_, rest, written⟩ := View.countAt_eq_ok_iff.mp counted
              have inside : Wire.countSize ≤ bytes.length := by
                rw [written, List.length_append, Wire.length_count]
                exact Nat.le_add_right _ _
              exact faithful.sizeOfSequence_eq linkedElem (fun _ => induction linkedElem) count
                inside addressable
      | array name length inner =>
          obtain ⟨elem, follows, linkedElem⟩ := linked.follow List.mem_cons_self
          have unfolded : arithmetic.sizeWithin (levels + 1)
              ⟨registry, .array name length inner⟩ bytes =
              ((of (View.follow registry inner) >>= fun elem =>
                arithmetic.sizeOfSequence (arithmetic.sizeWithin levels) elem length 0 bytes) >>=
                  fun size => of (fitting bytes size)) := rfl
          rw [unfolded, View.sizeWithin_array, follows]
          exact faithful.sizeOfSequence_eq linkedElem (fun _ => induction linkedElem) length
            (Nat.zero_le _) addressable
      | struct name fields =>
          obtain ⟨parts, followFields, linkedParts⟩ := linked.fields
          change fields.mapM (View.ofField ⟨registry, .struct name fields⟩) = .ok parts
            at followFields
          have unfolded : arithmetic.sizeWithin (levels + 1) ⟨registry, .struct name fields⟩ bytes =
              (arithmetic.endOfParts (arithmetic.sizeWithin levels) bytes (parts.map .ok) 0 >>=
                fun size => of (fitting bytes size)) := by
            rw [← Outcome.map_eq_of_mapM followFields]
            rfl
          have end_eq := faithful.endOfParts_zero addressable
            (fun part member _ => induction (linkedParts part member))
            (fun _ _ _ => View.le_of_sizeWithin)
          rw [unfolded, View.sizeWithin_struct, View.sizeOfFields_eq_sizeOfParts followFields,
            end_eq, of_bind]
      | placeholder kind name => rfl

theorem size_eq
    {view : View} (linked : view.Linked) {bytes : Bytes}
    (addressable : bytes.length < Offset.bound) :
    arithmetic.size view bytes = of (view.size bytes) :=
  faithful.sizeWithin_eq linked addressable

end Faithful

end TypedObject.Arithmetic
