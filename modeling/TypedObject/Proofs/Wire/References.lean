import TypedObject.Proofs.Wire.Reading
import TypedObject.Wire.References

/-!
# References and numbers are read back

The readers of references are exact, since every 32 bytes are an identifier.  Numbers
are read back from their bytes when they fit the width that they are written in.
-/

namespace TypedObject

namespace Bytes

theorem toNat_ofNat_of_lt {width number : Nat} (fits : number < range width) :
    toNat (ofNat width number) = number := by
  rw [toNat_ofNat]
  exact Nat.mod_eq_of_lt fits

/-- The signed numbers that fit so many bytes. -/
def FitsInt (width : Nat) (number : Int) : Prop :=
  -(range width : Int) ≤ 2 * number ∧ 2 * number < range width

@[simp] theorem length_ofInt (width : Nat) (number : Int) : (ofInt width number).length = width := by
  simp [ofInt]

theorem toInt_ofInt {width : Nat} {number : Int} (fits : FitsInt width number) :
    toInt (ofInt width number) = number := by
  obtain ⟨above, below⟩ := fits
  have written (low : Int) (nonneg : 0 ≤ low) (less : low < range width)
      (same : number % range width = low) : toNat (ofInt width number) = low := by
    rw [ofInt, same, toNat_ofNat_of_lt (by omega)]
    omega
  unfold toInt
  rw [length_ofInt]
  by_cases negative : number < 0
  · have wrapped : number % range width = number + range width := by
      rw [← Int.add_emod_right]
      apply Int.emod_eq_of_lt <;> omega
    have read := written (number + range width) (by omega) (by omega) wrapped
    rw [if_neg (by omega), read]
    omega
  · have kept : number % range width = number := by
      apply Int.emod_eq_of_lt <;> omega
    have read := written number (by omega) (by omega) kept
    rw [if_pos (by omega), read]

/-- Bytes of a fixed length are determined by their signed number. -/
theorem ofInt_toInt (bytes : Bytes) : ofInt bytes.length (toInt bytes) = bytes := by
  have bound := toNat_lt bytes
  have read : toInt bytes % range bytes.length = toNat bytes := by
    unfold toInt
    dsimp only
    split
    · apply Int.emod_eq_of_lt <;> omega
    · rw [Int.sub_emod_right]
      apply Int.emod_eq_of_lt <;> omega
  rw [ofInt, read, Int.toNat_natCast, ofNat_toNat]

end Bytes

theorem Identifier.isBlank_iff {family : Family} (identifier : Identifier family) :
    identifier.isBlank = true ↔ identifier = .blank := by
  obtain ⟨digest⟩ := identifier
  simp [isBlank, blank, Digest.isBlank_iff]

theorem Identifier.bytes_eq_blank_iff {family : Family} (identifier : Identifier family) :
    identifier.bytes = Digest.blank.bytes ↔ identifier = .blank := by
  obtain ⟨digest⟩ := identifier
  constructor
  · intro same
    exact congrArg Identifier.mk (Digest.ext_bytes same)
  · intro same
    rw [same]
    rfl

namespace DynamicReference

theorem isBlank_iff (dynamic : DynamicReference) :
    dynamic.isBlank = true ↔ dynamic.schema = .blank ∧ dynamic.object = .blank := by
  rw [isBlank, Bool.and_eq_true, Identifier.isBlank_iff, Identifier.isBlank_iff]

theorem isValid_eq_false_iff (dynamic : DynamicReference) :
    dynamic.isValid = false ↔ dynamic.schema = .blank ∧ dynamic.object ≠ .blank := by
  rw [isValid, Bool.not_eq_false', Bool.and_eq_true, Identifier.isBlank_iff, Bool.not_eq_true',
    ← Bool.not_eq_true, Identifier.isBlank_iff]

end DynamicReference

theorem Reference.length_flatMap_bytes (targets : List Reference) :
    (targets.flatMap Identifier.bytes).length = targets.length * 32 := by
  induction targets with
  | nil => rfl
  | cons target targets induction =>
      rw [List.flatMap_cons, List.length_append, induction, List.length_cons,
        Identifier.length_bytes]
      omega

namespace Reader

theorem exact_identifier {family : Family} :
    Exact (@identifier family) (fun _ => True) Identifier.bytes := by
  intro bytes found rest
  unfold identifier
  rw [bind_eq_ok_iff]
  simp only [take_eq_ok_iff, true_and]
  constructor
  · intro read
    obtain ⟨taken, middle, ⟨length, rfl⟩, made⟩ := read
    unfold Digest.ofBytes at made
    rw [dif_pos length] at made
    obtain ⟨rfl, rfl⟩ := pure_eq_ok_iff.mp made
    rfl
  · intro written
    refine ⟨found.bytes, rest, ⟨found.length_bytes, written⟩, ?_⟩
    unfold Digest.ofBytes
    rw [dif_pos found.length_bytes]
    rfl

theorem exact_references :
    Exact references (fun targets => targets.length < Wire.countBound) Reference.encodeList := by
  intro bytes targets rest
  unfold references
  rw [bind_eq_ok_iff]
  simp only [exact_count bytes, bind_eq_ok_iff, take_eq_ok_iff, lift_eq_ok_iff]
  constructor
  · intro read
    obtain ⟨size, middle, ⟨fits, rfl⟩, taken, middle', ⟨length, rfl⟩, made, rfl⟩ := read
    obtain ⟨left, times⟩ : ∃ left, times identifier size taken = (.ok targets, left) :=
      ⟨_, Prod.ext made rfl⟩
    obtain ⟨⟨sameLength, _⟩, rfl⟩ := (exact_times exact_identifier size _ _ _).mp times
    rw [List.length_append, Reference.length_flatMap_bytes, sameLength] at length
    have none : left = [] := List.eq_nil_of_length_eq_zero (by omega)
    subst sameLength none
    exact ⟨fits, by simp [Reference.encodeList]⟩
  · intro written
    obtain ⟨fits, rfl⟩ := written
    refine ⟨targets.length, _, ⟨fits, by rw [Reference.encodeList, List.append_assoc]⟩,
      targets.flatMap Identifier.bytes, rest, ⟨?_, rfl⟩, ?_, rfl⟩
    · rw [Reference.length_flatMap_bytes, Nat.mul_comm]
    · have read := (exact_times exact_identifier targets.length).reads
        ⟨rfl, fun _ _ => trivial⟩ []
      rw [List.append_nil] at read
      exact congrArg Prod.fst read

theorem exact_dynamicReference :
    Exact dynamicReference (fun _ => True) DynamicReference.encode := by
  intro bytes found rest
  unfold dynamicReference
  rw [bind_eq_ok_iff]
  simp only [exact_identifier bytes, bind_eq_ok_iff, pure_eq_ok_iff, true_and]
  constructor
  · intro read
    obtain ⟨schema, middle, rfl, object, middle', readObject, rfl, rfl⟩ := read
    obtain ⟨_, rfl⟩ := (exact_identifier _ _ _).mp readObject
    simp [DynamicReference.encode]
  · intro written
    refine ⟨found.schema, found.object.bytes ++ rest, ?_, found.object, rest, ?_, rfl, rfl⟩
    · rw [written, DynamicReference.encode, List.append_assoc]
    · exact exact_identifier.reads trivial rest

end Reader

end TypedObject
