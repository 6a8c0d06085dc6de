import TypedObject.Proofs.View.FixedSize

/-!
# Measuring one value and several

A way of measuring is sound for a grammar when it finds the size of an encoding at
the front of the bytes, and complete when it finds every encoding there, whatever
follows.  Both pass from parts to runs of parts, and for a sequence the shortcut for
elements of a fixed size and the guard on the count change nothing.
-/

namespace TypedObject.View

variable {measure : View → Bytes → Except SchemaError Nat} {encodes : View → Bytes → Prop}

/-- An encoding of the given size stands at the front of the bytes. -/
def Fronts (encodes : Bytes → Prop) (bytes : Bytes) (size : Nat) : Prop :=
  ∃ encoded rest, bytes = encoded ++ rest ∧ encoded.length = size ∧ encodes encoded

/-- Only sizes of encodings are found. -/
def Sound (measure : Bytes → Except SchemaError Nat) (encodes : Bytes → Prop) : Prop :=
  ∀ bytes size, measure bytes = .ok size → Fronts encodes bytes size

/-- The size of every encoding is found, as long as offsets reach to the end. -/
def Complete (measure : Bytes → Except SchemaError Nat) (encodes : Bytes → Prop) : Prop :=
  ∀ encoded rest, encodes encoded → (encoded ++ rest).length < Offset.bound →
    measure (encoded ++ rest) = .ok encoded.length

theorem offset_eq_ok_iff
    {found : Option Nat} {number : Nat} : offset found = .ok number ↔ found = some number := by
  cases found <;> simp [offset]

theorem fitting_eq_ok_iff
    {bytes : Bytes} {size fitted : Nat} :
    fitting bytes size = .ok fitted ↔ size = fitted ∧ fitted ≤ bytes.length := by
  unfold fitting
  split
  · rename_i short
    rw [Bytes.isShorter_iff] at short
    simp only [reduceCtorEq, false_iff, not_and]
    omega
  · rename_i enough
    rw [Bytes.isShorter_iff] at enough
    rw [Except.ok.injEq]
    omega

theorem countAt_eq_ok_iff
    {bytes : Bytes} {count : Nat} :
    countAt bytes = .ok count ↔
      count < Wire.countBound ∧ ∃ rest, bytes = Wire.count count ++ rest := by
  unfold countAt Reader.front
  rcases outcome : Reader.count bytes with ⟨_ | found, rest⟩
  · simp only [reduceCtorEq, false_iff, not_and, not_exists]
    intro fits rest' same
    have read := (Reader.exact_count bytes count rest').mpr ⟨fits, same⟩
    rw [outcome] at read
    cases read
  · obtain ⟨fits, same⟩ := (Reader.exact_count _ _ _).mp outcome
    constructor
    · intro counted
      cases counted
      exact ⟨fits, rest, same⟩
    · intro written
      obtain ⟨fits', rest', same'⟩ := written
      rw [same] at same'
      rw [(Reader.exact_count.unambiguous fits fits' same').1]

theorem countAt_count_append
    {count : Nat} (fits : count < Wire.countBound) (rest : Bytes) :
    countAt (Wire.count count ++ rest) = .ok count :=
  countAt_eq_ok_iff.mpr ⟨fits, rest, rfl⟩

/-- The size of parts that lie one after the other. -/
def sizeOfParts (measure : View → Bytes → Except SchemaError Nat) :
    List View → Bytes → Except SchemaError Nat
  | [], _ => .ok 0
  | part :: parts, bytes => do
    let first ← measure part bytes
    let others ← sizeOfParts measure parts (bytes.drop first)
    return first + others

theorem sizeOfRun_eq_sizeOfParts
    (measure : View → Bytes → Except SchemaError Nat) (elem : View) (count : Nat)
    (bytes : Bytes) :
    sizeOfRun (measure elem) count bytes =
      sizeOfParts measure (List.replicate count elem) bytes := by
  induction count generalizing bytes with
  | zero => rfl
  | succ count induction =>
      rw [sizeOfRun, List.replicate_succ, sizeOfParts]
      congr 1
      funext first
      rw [induction]

theorem sizeOfFields_eq_sizeOfParts
    {view : View} {fields : List Field} {parts : List View}
    (follow : fields.mapM view.ofField = .ok parts) (bytes : Bytes) :
    sizeOfFields measure view fields bytes = sizeOfParts measure parts bytes := by
  induction fields generalizing parts bytes with
  | nil =>
      cases follow
      rfl
  | cons field fields induction =>
      obtain ⟨part, others, followed, followOthers, rfl⟩ :=
        Outcome.mapM_cons_eq_ok_iff.mp follow
      rw [sizeOfFields, followed, sizeOfParts]
      change (measure part bytes >>= fun first =>
        sizeOfFields measure view fields (bytes.drop first) >>= fun others =>
          pure (first + others)) = _
      congr 1
      funext first
      rw [induction followOthers]

theorem sound_sizeOfParts
    {parts : List View} (each : ∀ part ∈ parts, Sound (measure part) (encodes part)) :
    Sound (sizeOfParts measure parts) (EncodesRun encodes parts) := by
  induction parts with
  | nil =>
      intro bytes size measured
      cases measured
      exact ⟨[], bytes, rfl, rfl, rfl⟩
  | cons part parts induction =>
      intro bytes size measured
      obtain ⟨soundFirst, soundOthers⟩ := List.forall_mem_cons.mp each
      obtain ⟨first, measuredFirst, continued⟩ := Outcome.bind_eq_ok_iff.mp measured
      obtain ⟨others, measuredOthers, total⟩ := Outcome.bind_eq_ok_iff.mp continued
      obtain ⟨encoded, rest, rfl, rfl, encodesFirst⟩ := soundFirst bytes first measuredFirst
      rw [List.drop_left] at measuredOthers
      obtain ⟨items, rest', rfl, rfl, run⟩ := induction soundOthers rest others measuredOthers
      cases total
      exact ⟨encoded ++ items, rest', by rw [List.append_assoc], List.length_append,
        encoded, items, encodesFirst, run, rfl⟩

theorem complete_sizeOfParts
    (each : ∀ part, Complete (measure part) (encodes part)) (parts : List View) :
    Complete (sizeOfParts measure parts) (EncodesRun encodes parts) := by
  induction parts with
  | nil =>
      intro encoded rest run short
      cases run
      rfl
  | cons part parts induction =>
      intro encoded rest run short
      obtain ⟨first, others, encodesFirst, encodesOthers, rfl⟩ := run
      rw [List.append_assoc] at short ⊢
      have shortOthers : (others ++ rest).length < Offset.bound := by
        rw [List.length_append] at short
        omega
      have measuredFirst := each part first (others ++ rest) encodesFirst short
      have measuredOthers := induction others rest encodesOthers shortOthers
      refine Outcome.bind_eq_ok_iff.mpr ⟨first.length, measuredFirst, ?_⟩
      rw [List.drop_left]
      refine Outcome.bind_eq_ok_iff.mpr ⟨others.length, measuredOthers, ?_⟩
      rw [List.length_append]
      rfl

/-- The elements of a sequence begin after `start` bytes. -/
theorem sound_sizeOfSequence
    {elem : View}
    (fixed : ∀ bytes : Bytes, elem.fixedSize? = some bytes.length → encodes elem bytes)
    (each : Sound (measure elem) (encodes elem)) {count start size : Nat} {bytes : Bytes}
    (measured : sizeOfSequence elem (measure elem) count start bytes = .ok size)
    (begins : start ≤ bytes.length) (fits : size ≤ bytes.length) :
    ∃ items rest, bytes.drop start = items ++ rest ∧ start + items.length = size ∧
      EncodesRun encodes (List.replicate count elem) items := by
  unfold sizeOfSequence at measured
  split at measured
  · rename_i width known
    obtain ⟨rfl, _⟩ := Offset.ofItem?_eq_some_iff.mp (offset_eq_ok_iff.mp measured)
    have inside : count * width ≤ (bytes.drop start).length := by
      rw [List.length_drop]
      omega
    obtain ⟨items, rest, split, length⟩ := Bytes.exists_front inside
    refine ⟨items, rest, split, by omega, ?_⟩
    apply encodesRun_replicate_of_length _ length
    intro item sameLength
    apply fixed
    rw [known, sameLength]
  · split at measured
    · cases measured
    · obtain ⟨run, measuredRun, total⟩ := Outcome.bind_eq_ok_iff.mp measured
      rw [sizeOfRun_eq_sizeOfParts] at measuredRun
      have soundRun : Sound (sizeOfParts measure (List.replicate count elem))
          (EncodesRun encodes (List.replicate count elem)) := by
        apply sound_sizeOfParts
        intro part member
        rw [(List.mem_replicate.mp member).2]
        exact each
      obtain ⟨items, rest, split, length, encodesItems⟩ := soundRun _ _ measuredRun
      cases total
      exact ⟨items, rest, split, by rw [length], encodesItems⟩

theorem drop_count_append (count : Nat) (rest : Bytes) :
    (Wire.count count ++ rest).drop Wire.countSize = rest :=
  List.drop_left' (Wire.length_count count)

/-- The elements of a slice begin after their count. -/
theorem sound_sizeOfSequence_counted
    {elem : View}
    (fixed : ∀ bytes : Bytes, elem.fixedSize? = some bytes.length → encodes elem bytes)
    (each : Sound (measure elem) (encodes elem)) {count size : Nat} {bytes : Bytes}
    (counted : countAt bytes = .ok count)
    (measured : sizeOfSequence elem (measure elem) count Wire.countSize bytes = .ok size)
    (fits : size ≤ bytes.length) :
    ∃ items rest, bytes = Wire.count count ++ items ++ rest ∧
      (Wire.count count ++ items).length = size ∧ count < Wire.countBound ∧
      EncodesRun encodes (List.replicate count elem) items := by
  obtain ⟨countFits, later, rfl⟩ := countAt_eq_ok_iff.mp counted
  have begins : Wire.countSize ≤ (Wire.count count ++ later).length := by
    rw [List.length_append, Wire.length_count, Wire.countSize]
    omega
  obtain ⟨items, rest, split, rfl, run⟩ :=
    sound_sizeOfSequence fixed each measured begins fits
  rw [drop_count_append] at split
  refine ⟨items, rest, ?_, ?_, countFits, run⟩
  · rw [split, List.append_assoc]
  · rw [List.length_append, Wire.length_count, Wire.countSize]

theorem complete_sizeOfSequence
    {elem : View}
    (sized : ∀ item, encodes elem item → item.length < Offset.bound →
      Sizes elem.fixedSize? item)
    (each : ∀ part, Complete (measure part) (encodes part)) {count start : Nat}
    {bytes items rest : Bytes} (split : bytes.drop start = items ++ rest)
    (run : EncodesRun encodes (List.replicate count elem) items)
    (short : start + (items ++ rest).length < Offset.bound) :
    sizeOfSequence elem (measure elem) count start bytes = .ok (start + items.length) := by
  rw [List.length_append] at short
  obtain ⟨lengthOfKnown, positive⟩ :=
    length_of_encodesRun_replicate run sized (by omega)
  unfold sizeOfSequence
  cases known : elem.fixedSize? with
  | some width =>
      apply offset_eq_ok_iff.mpr
      apply Offset.ofItem?_eq_some_iff.mpr
      rw [lengthOfKnown width known] at short ⊢
      exact ⟨Nat.add_comm _ _, by omega⟩
  | none =>
      have enough : ¬Bytes.isShorter (bytes.drop start) count = true := by
        rw [Bytes.isShorter_iff, split, List.length_append]
        have bound := positive known
        omega
      have shortRun : (items ++ rest).length < Offset.bound := by
        rw [List.length_append]
        omega
      have measuredRun := complete_sizeOfParts each _ items rest run shortRun
      dsimp only
      rw [if_neg enough, split, sizeOfRun_eq_sizeOfParts, measuredRun]
      rfl

end TypedObject.View
