import TypedObject.Proofs.Value.Conforming
import TypedObject.Value.Basic

/-!
# Reading leaves

A value without parts is read back from its encoding, whatever bytes follow it: each
accessor finds its kind and takes exactly the bytes that were written.
-/

namespace TypedObject.Value

variable {view : View} {kind : Kind}

theorem read_eq_ok
    {α : Type} {reader : Reader α} {bytes rest : Bytes} {found : α}
    (reads : reader bytes = (.ok found, rest)) :
    (Value.mk view bytes).read reader = .ok found := by
  simp [read, Reader.front, reads]

theorem front_append (encoded rest : Bytes) :
    (Value.mk view (encoded ++ rest)).front encoded.length = .ok encoded := by
  simp [front]

theorem kind_of_isScalar (isScalar : view.IsScalar kind) (bytes : Bytes) :
    (Value.mk view bytes).kind = kind := by
  obtain ⟨name, known⟩ := isScalar
  simp [Value.kind, View.kind, known, Schema.kind]

theorem length_of_front
    {bytes content : Bytes} {width : Nat}
    (taken : (Value.mk view bytes).front width = .ok content) :
    content.length = width := by
  unfold front at taken
  split at taken
  · cases taken
  · rename_i enough
    cases taken
    rw [Bytes.isShorter_iff] at enough
    exact List.length_take_of_le (Nat.le_of_not_lt enough)

theorem bool_eq_map_front (known : view.kind = .bool) (bytes : Bytes) :
    (Value.mk view bytes).bool =
      ((Value.mk view bytes).front 1).map fun content => decide (Bytes.toNat content ≠ 0) := by
  unfold bool kind
  rw [known]
  rfl

theorem int_eq_map_front (member : view.kind ∈ Kind.signed) :
    ∃ width, view.kind.fixedSize? = some width ∧ ∀ bytes,
      (Value.mk view bytes).int = ((Value.mk view bytes).front width).map Bytes.toInt := by
  unfold int kind
  simp only [Kind.signed, List.mem_cons, List.not_mem_nil, or_false] at member
  rcases member with known | known | known | known <;>
    (simp only [known]; exact ⟨_, rfl, fun _ => rfl⟩)

theorem uint_eq_map_front (member : view.kind ∈ Kind.unsigned) :
    ∃ width, view.kind.fixedSize? = some width ∧ ∀ bytes,
      (Value.mk view bytes).uint = ((Value.mk view bytes).front width).map Bytes.toNat := by
  unfold uint kind
  simp only [Kind.unsigned, List.mem_cons, List.not_mem_nil, or_false] at member
  rcases member with known | known | known | known <;>
    (simp only [known]; exact ⟨_, rfl, fun _ => rfl⟩)

theorem float_eq_map_front (member : view.kind ∈ Kind.floats) :
    ∃ width widen, view.kind.fixedSize? = some width ∧ ∀ bytes,
      (Value.mk view bytes).float = ((Value.mk view bytes).front width).map widen := by
  unfold float kind
  simp only [Kind.floats, List.mem_cons, List.not_mem_nil, or_false] at member
  rcases member with known | known
  · simp only [known]
    exact ⟨4, fun bytes => (Float32.ofBits (UInt32.ofNat (Bytes.toNat bytes))).toFloat, rfl,
      fun _ => rfl⟩
  · simp only [known]
    exact ⟨8, fun bytes => Float.ofBits (UInt64.ofNat (Bytes.toNat bytes)), rfl, fun _ => rfl⟩

/-- The text that counted bytes are decoded to. -/
def textOf (content : Bytes) : Except SchemaError String :=
  match Bytes.toText? content with
  | some text => .ok text
  | none => .error .invalidUtf8

theorem string_eq_bind_counted (known : view.kind = .string) (bytes : Bytes) :
    (Value.mk view bytes).string = (Value.mk view bytes).read Reader.counted >>= textOf := by
  unfold string kind
  rw [known]
  unfold read Reader.front Reader.text
  rw [Reader.bind_apply]
  rcases Reader.counted bytes with ⟨error | content, rest⟩
  · cases error <;> rfl
  · change _ = textOf content
    unfold textOf
    dsimp only
    cases Bytes.toText? content <;> rfl

theorem bool_of_ne (other : view.kind ≠ .bool) (bytes : Bytes) :
    (Value.mk view bytes).bool = .error (.typeMismatch .bool view.kind) := by
  unfold bool kind
  split
  · contradiction
  · rfl

theorem int_of_not_mem (other : view.kind ∉ Kind.signed) (bytes : Bytes) :
    (Value.mk view bytes).int = .error (.typeMismatch .signed view.kind) := by
  simp only [Kind.signed, List.mem_cons, List.not_mem_nil, or_false, not_or] at other
  simp only [int, kind]
  split <;> simp_all
  rfl

theorem uint_of_not_mem (other : view.kind ∉ Kind.unsigned) (bytes : Bytes) :
    (Value.mk view bytes).uint = .error (.typeMismatch .unsigned view.kind) := by
  simp only [Kind.unsigned, List.mem_cons, List.not_mem_nil, or_false, not_or] at other
  simp only [uint, kind]
  split <;> simp_all
  rfl

theorem float_of_not_mem (other : view.kind ∉ Kind.floats) (bytes : Bytes) :
    (Value.mk view bytes).float = .error (.typeMismatch .float view.kind) := by
  simp only [Kind.floats, List.mem_cons, List.not_mem_nil, or_false, not_or] at other
  simp only [float, kind]
  split <;> simp_all
  rfl

theorem string_of_ne (other : view.kind ≠ .string) (bytes : Bytes) :
    (Value.mk view bytes).string = .error (.typeMismatch .string view.kind) := by
  unfold string kind
  split
  · contradiction
  · rfl

theorem reference_of_ne (other : view.referenceKind? ≠ some .single) (bytes : Bytes) :
    (Value.mk view bytes).reference = .error (.typeMismatch .reference view.kind) := by
  unfold reference
  split
  · contradiction
  · rfl

theorem references_of_ne (other : view.referenceKind? ≠ some .slice) (bytes : Bytes) :
    (Value.mk view bytes).references = .error (.typeMismatch .referenceList view.kind) := by
  unfold references
  split
  · contradiction
  · rfl

theorem dynamic_of_ne (other : view.referenceKind? ≠ some .dynamic) (bytes : Bytes) :
    (Value.mk view bytes).dynamic = .error (.typeMismatch .dynamicReference view.kind) := by
  unfold dynamic
  split
  · contradiction
  · rfl

theorem bool_encode (isScalar : view.IsScalar .bool) (truth : Bool) (rest : Bytes) :
    (Value.mk view ((Datum.bool truth).encode ++ rest)).bool = .ok truth := by
  have taken : (Value.mk view ((Datum.bool truth).encode ++ rest)).front 1 =
      .ok (Datum.bool truth).encode := by
    apply front_append
  rw [bool_eq_map_front (kind_of_isScalar isScalar []), taken]
  cases truth <;> rfl

theorem uint_encode
    {width number : Nat} (fits : number < Bytes.range width)
    (isNumber : view.IsNumber Kind.unsigned width) (rest : Bytes) :
    (Value.mk view ((Datum.unsigned width number).encode ++ rest)).uint = .ok number := by
  obtain ⟨kind, member, known, isScalar⟩ := isNumber
  have kindEq : view.kind = kind := kind_of_isScalar isScalar []
  rw [← kindEq] at member known
  have taken : (Value.mk view (Bytes.ofNat width number ++ rest)).front
      (Bytes.ofNat width number).length = .ok (Bytes.ofNat width number) := by
    apply front_append
  obtain ⟨width', fixed, reads⟩ := uint_eq_map_front member
  obtain rfl : width = width' := by simpa [known] using fixed
  rw [Bytes.length_ofNat] at taken
  rw [Datum.encode, reads, taken]
  exact congrArg Except.ok (Bytes.toNat_ofNat_of_lt fits)

theorem int_encode
    {width : Nat} {number : Int} (fits : Bytes.FitsInt width number)
    (isNumber : view.IsNumber Kind.signed width) (rest : Bytes) :
    (Value.mk view ((Datum.signed width number).encode ++ rest)).int = .ok number := by
  obtain ⟨kind, member, known, isScalar⟩ := isNumber
  have kindEq : view.kind = kind := kind_of_isScalar isScalar []
  rw [← kindEq] at member known
  have taken : (Value.mk view (Bytes.ofInt width number ++ rest)).front
      (Bytes.ofInt width number).length = .ok (Bytes.ofInt width number) := by
    apply front_append
  obtain ⟨width', fixed, reads⟩ := int_eq_map_front member
  obtain rfl : width = width' := by simpa [known] using fixed
  rw [Bytes.length_ofInt] at taken
  rw [Datum.encode, reads, taken]
  exact congrArg Except.ok (Bytes.toInt_ofInt fits)

theorem string_encode
    {text : String} (fits : Wire.FitsText text) (isScalar : view.IsScalar .string)
    (rest : Bytes) :
    (Value.mk view ((Datum.string text).encode ++ rest)).string = .ok text := by
  unfold string
  rw [kind_of_isScalar isScalar]
  exact read_eq_ok (Reader.exact_text.reads fits rest)

theorem reference_encode
    (isReference : view.referenceKind? = some .single) (target : Reference) (rest : Bytes) :
    (Value.mk view ((Datum.reference target).encode ++ rest)).reference = .ok target := by
  unfold reference
  rw [isReference]
  exact read_eq_ok (Reader.exact_identifier.reads trivial rest)

theorem references_encode
    {targets : List Reference} (fits : targets.length < Wire.countBound)
    (isReference : view.referenceKind? = some .slice) (rest : Bytes) :
    (Value.mk view ((Datum.references targets).encode ++ rest)).references = .ok targets := by
  unfold references
  rw [isReference]
  exact read_eq_ok (Reader.exact_references.reads fits rest)

theorem dynamic_encode
    {target : DynamicReference} (valid : target.isValid = true)
    (isReference : view.referenceKind? = some .dynamic) (rest : Bytes) :
    (Value.mk view ((Datum.dynamic target).encode ++ rest)).dynamic = .ok target := by
  unfold dynamic
  rw [isReference]
  apply Outcome.bind_eq_ok_iff.mpr
  exact ⟨target, read_eq_ok (Reader.exact_dynamicReference.reads trivial rest), if_pos valid⟩

/-- What is counted on the wire says its count. -/
theorem length_of_counted
    {count : Nat} (fits : count < Wire.countBound) {bytes rest : Bytes}
    (counted : bytes = Wire.count count ++ rest)
    (form : view.IsScalar .string ∨ (∃ name inner, view.schema = .slice name inner) ∨
      view.referenceKind? = some .slice) :
    (Value.mk view bytes).length = .ok count := by
  have reads : (Value.mk view bytes).read Reader.count = .ok count := by
    rw [counted]
    exact read_eq_ok (Reader.exact_count.reads fits rest)
  obtain ⟨registry, schema⟩ := view
  rcases form with ⟨name, rfl⟩ | ⟨name, inner, rfl⟩ | isReference
  · exact reads
  · exact reads
  · cases schema with
    | reference kind target =>
        cases isReference
        exact reads
    | openReference kind =>
        cases isReference
        exact reads
    | _ => cases isReference

end TypedObject.Value
