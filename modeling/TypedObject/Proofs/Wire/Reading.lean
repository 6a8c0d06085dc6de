import TypedObject.Wire.Reader

/-!
# Readers that are exact for a written form

A reader is exact for a written form when it succeeds on a valid written value
followed by anything, and on nothing else.  Both directions of a codec theorem
follow from one such fact for each part of the format, and exactness passes
through sequencing and repetition.
-/

namespace TypedObject

namespace Wire

/-- The first number that does not fit a count. -/
def countBound : Nat := 4294967296

end Wire

namespace Reader

variable {α β : Type}

/-- The reader succeeds on exactly the valid values in their written form and
leaves what follows them. -/
def Exact (reader : Reader α) (valid : α → Prop) (write : α → Bytes) : Prop :=
  ∀ bytes value rest,
    reader bytes = (.ok value, rest) ↔ valid value ∧ bytes = write value ++ rest

theorem Exact.reads
    {reader : Reader α} {valid : α → Prop} {write : α → Bytes}
    (exact : Exact reader valid write) {value : α} (accepted : valid value) (rest : Bytes) :
    reader (write value ++ rest) = (.ok value, rest) :=
  (exact _ _ _).mpr ⟨accepted, rfl⟩

/-- Two written values in front of the same bytes are the same value. -/
theorem Exact.unambiguous
    {reader : Reader α} {valid : α → Prop} {write : α → Bytes}
    (exact : Exact reader valid write) {first second : α} {rest rest' : Bytes}
    (firstValid : valid first) (secondValid : valid second)
    (same : write first ++ rest = write second ++ rest') :
    first = second ∧ rest = rest' := by
  have firstRead := exact.reads firstValid rest
  rw [same, exact.reads secondValid rest'] at firstRead
  simp only [Prod.mk.injEq, Except.ok.injEq] at firstRead
  exact ⟨firstRead.1.symm, firstRead.2.symm⟩

theorem pure_eq_ok_iff
    {value result : α} {bytes rest : Bytes} :
    (pure value : Reader α) bytes = (.ok result, rest) ↔ value = result ∧ bytes = rest := by
  simp

theorem bind_eq_ok_iff
    {reader : Reader α} {next : α → Reader β} {bytes rest : Bytes} {result : β} :
    (reader >>= next) bytes = (.ok result, rest) ↔
      ∃ value middle,
        reader bytes = (.ok value, middle) ∧ next value middle = (.ok result, rest) := by
  rw [bind_apply]
  rcases outcome : reader bytes with ⟨_ | value, middle⟩
  · simp
  · constructor
    · intro continued
      exact ⟨value, middle, rfl, continued⟩
    · intro found
      obtain ⟨value', middle', first, continued⟩ := found
      cases first
      exact continued

theorem lift_eq_ok_iff
    {result : Except SchemaError α} {value : α} {bytes rest : Bytes} :
    lift result bytes = (.ok value, rest) ↔ result = .ok value ∧ bytes = rest := by
  simp

theorem take_eq_ok_iff
    {size : Nat} {bytes taken rest : Bytes} :
    take size bytes = (.ok taken, rest) ↔ taken.length = size ∧ bytes = taken ++ rest := by
  unfold take
  split <;> rename_i short
  · rw [Bytes.isShorter_iff] at short
    simp only [Prod.mk.injEq, reduceCtorEq, false_and, false_iff, not_and]
    intro length split
    subst split
    rw [List.length_append] at short
    omega
  · rw [Bytes.isShorter_iff] at short
    simp only [Prod.mk.injEq, Except.ok.injEq]
    constructor
    · intro found
      obtain ⟨rfl, rfl⟩ := found
      have length : (bytes.take size).length = size := by
        rw [List.length_take]
        omega
      exact ⟨length, (List.take_append_drop size bytes).symm⟩
    · intro found
      obtain ⟨rfl, rfl⟩ := found
      exact ⟨List.take_left, List.drop_left⟩

theorem take_of_short {size : Nat} {bytes : Bytes} (short : bytes.length < size) :
    take size bytes = (.error (.unexpectedEnd size bytes.length), bytes) := by
  rw [take, if_pos ((Bytes.isShorter_iff _ _).mpr short)]

/-- A number of so many bytes. -/
theorem exact_number (width : Nat) :
    Exact (do let bytes ← take width; return Bytes.toNat bytes) (· < Bytes.range width)
      (Bytes.ofNat width) := by
  intro bytes number rest
  rw [bind_eq_ok_iff]
  simp only [take_eq_ok_iff, pure_eq_ok_iff]
  constructor
  · intro found
    obtain ⟨taken, middle, ⟨rfl, rfl⟩, rfl, rfl⟩ := found
    exact ⟨Bytes.toNat_lt taken, by rw [Bytes.ofNat_toNat]⟩
  · intro found
    obtain ⟨bound, rfl⟩ := found
    refine ⟨Bytes.ofNat width number, rest, ⟨Bytes.length_ofNat width number, rfl⟩, ?_, rfl⟩
    rw [Bytes.toNat_ofNat]
    exact Nat.mod_eq_of_lt bound

theorem exact_byte : Exact byte (· < 256) (Bytes.ofNat 1) := exact_number 1

theorem exact_word : Exact word (· < Wire.countBound) Wire.word := exact_number 4

theorem exact_count : Exact count (· < Wire.countBound) Wire.count := exact_word

theorem exact_counted :
    Exact counted (fun content => content.length < Wire.countBound) Wire.counted := by
  intro bytes content rest
  unfold counted
  rw [bind_eq_ok_iff]
  simp only [exact_count bytes, take_eq_ok_iff]
  constructor
  · intro found
    obtain ⟨size, middle, ⟨bound, rfl⟩, rfl, rfl⟩ := found
    exact ⟨bound, by simp [Wire.counted]⟩
  · intro found
    obtain ⟨bound, rfl⟩ := found
    exact ⟨content.length, content ++ rest, ⟨bound, by simp [Wire.counted]⟩, rfl, rfl⟩

theorem exact_text :
    Exact text (fun content => (Bytes.ofText content).length < Wire.countBound) Wire.text := by
  intro bytes content rest
  unfold text
  rw [bind_eq_ok_iff]
  simp only [exact_counted bytes]
  constructor
  · intro found
    obtain ⟨encoded, middle, ⟨bound, rfl⟩, decoded⟩ := found
    cases outcome : Bytes.toText? encoded with
    | none => simp [outcome] at decoded
    | some found =>
        simp only [outcome, pure_eq_ok_iff] at decoded
        obtain ⟨rfl, rfl⟩ := decoded
        have same := Bytes.ofText_of_toText? outcome
        subst same
        exact ⟨bound, rfl⟩
  · intro found
    obtain ⟨bound, rfl⟩ := found
    exact ⟨Bytes.ofText content, rest, ⟨bound, rfl⟩, by simp⟩

theorem exact_times
    {item : Reader α} {valid : α → Prop} {write : α → Bytes}
    (exact : Exact item valid write) (size : Nat) :
    Exact (times item size)
      (fun values => values.length = size ∧ ∀ value ∈ values, valid value)
      (fun values => values.flatMap write) := by
  induction size with
  | zero =>
      intro bytes values rest
      cases values <;> simp [times, eq_comm]
  | succ size induction =>
      intro bytes values rest
      unfold times
      rw [bind_eq_ok_iff]
      simp only [exact bytes, bind_eq_ok_iff, pure_eq_ok_iff]
      constructor
      · intro found
        obtain ⟨first, middle, ⟨firstValid, rfl⟩, others, middle', tail, rfl, rfl⟩ := found
        obtain ⟨⟨length, othersValid⟩, rfl⟩ := (induction middle others middle').mp tail
        refine ⟨⟨by simp [length], ?_⟩, by simp⟩
        simpa using ⟨firstValid, othersValid⟩
      · intro found
        obtain ⟨⟨length, allValid⟩, rfl⟩ := found
        cases values with
        | nil => cases length
        | cons first others =>
            simp only [List.forall_mem_cons, List.length_cons, Nat.add_right_cancel_iff]
              at allValid length
            refine ⟨first, others.flatMap write ++ rest, ⟨allValid.1, by simp⟩, others, rest, ?_,
              rfl, rfl⟩
            exact (induction _ _ _).mpr ⟨⟨length, allValid.2⟩, rfl⟩

theorem whole_eq_ok_iff
    {reader : Reader α} {bytes : Bytes} {value : α} :
    whole reader bytes = .ok value ↔ reader bytes = (.ok value, []) := by
  unfold whole
  split <;> rename_i outcome <;> simp [outcome]

/-- A counted part of which a given function must make something. -/
theorem exact_counted_lift
    {read : Bytes → Except SchemaError α} {valid : α → Prop} {write : α → Bytes}
    (exact : ∀ bytes value, read bytes = .ok value ↔ valid value ∧ bytes = write value) :
    Exact (do let part ← counted; lift (read part))
      (fun value => valid value ∧ (write value).length < Wire.countBound)
      (fun value => Wire.counted (write value)) := by
  intro bytes value rest
  rw [bind_eq_ok_iff]
  simp only [exact_counted bytes, lift_eq_ok_iff, exact]
  constructor
  · intro found
    obtain ⟨part, middle, ⟨bound, rfl⟩, ⟨accepted, rfl⟩, rfl⟩ := found
    exact ⟨⟨accepted, bound⟩, rfl⟩
  · intro found
    obtain ⟨⟨accepted, bound⟩, rfl⟩ := found
    exact ⟨write value, rest, ⟨bound, rfl⟩, ⟨accepted, rfl⟩, rfl⟩

end Reader

end TypedObject
