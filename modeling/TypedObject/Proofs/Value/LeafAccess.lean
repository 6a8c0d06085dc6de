import TypedObject.Proofs.Value.LeafBytes
import TypedObject.Proofs.Value.ReadBack

/-!
# The accessors of leaves

Every leaf has one accessor, which finds a value whenever the leaf can be measured, and
what it finds is encoded to the bytes that were measured: nothing is lost but which of
the other bytes a true truth value was.  Only texts that are no UTF-8 and dynamic
references to an object without schema are refused besides.  Any other accessor refuses
the value by its kind and looks at no bytes.
-/

namespace TypedObject

/-- The accessors of leaves, except for that of floats. -/
inductive Accessor where
  | bool | int | uint | string | byteSlice | reference | references | dynamic
  deriving DecidableEq

namespace Accessor

/-- The view is of the kind that the accessor is for. -/
def Reads (view : View) : Accessor → Prop
  | bool => view.kind = .bool
  | int => view.kind ∈ Kind.signed
  | uint => view.kind ∈ Kind.unsigned
  | string => view.kind = .string
  | byteSlice => view.IsByteSlice
  | reference => view.referenceKind? = some .single
  | references => view.referenceKind? = some .slice
  | dynamic => view.referenceKind? = some .dynamic

/-- What the accessor says that it expected. -/
def expectation : Accessor → Expectation
  | bool => .bool
  | int => .signed
  | uint => .unsigned
  | string => .string
  | byteSlice => .byteSlice
  | reference => .reference
  | references => .referenceList
  | dynamic => .dynamicReference

/-- What the accessor finds, as a datum with numbers of the width that the kind has. -/
def read (value : Value) : Accessor → Except SchemaError Datum
  | bool => value.bool.map .bool
  | int => value.int.map (.signed (value.kind.fixedSize?.getD 0))
  | uint => value.uint.map (.unsigned (value.kind.fixedSize?.getD 0))
  | string => value.string.map .string
  | byteSlice => value.byteSlice.map fun content => .slice (content.map .byte)
  | reference => value.reference.map .reference
  | references => value.references.map .references
  | dynamic => value.dynamic.map .dynamic

/-- The bytes of a leaf are refused although they can be measured: what is counted is no
text, or zeros stand for the schema and not for the object. -/
inductive Refuses : Accessor → Bytes → SchemaError → Prop where
  | notText {content : Bytes}
      (undecodable : Bytes.toText? (content.drop Wire.countSize) = none) :
      Refuses string content .invalidUtf8
  | objectAlone {content : Bytes} (blank : content.take Digest.size = Digest.blank.bytes)
      (named : content.drop Digest.size ≠ Digest.blank.bytes) :
      Refuses dynamic content .invalidDynamicReference

theorem refuses_string_iff {content : Bytes} {error : SchemaError} :
    string.Refuses content error ↔
      Bytes.toText? (content.drop Wire.countSize) = none ∧ error = .invalidUtf8 := by
  constructor
  · intro refuses
    cases refuses with
    | notText undecodable => exact ⟨undecodable, rfl⟩
  · intro found
    obtain ⟨undecodable, rfl⟩ := found
    exact .notText undecodable

theorem refuses_dynamic_iff {content : Bytes} {error : SchemaError} :
    dynamic.Refuses content error ↔
      (content.take Digest.size = Digest.blank.bytes ∧
        content.drop Digest.size ≠ Digest.blank.bytes) ∧ error = .invalidDynamicReference := by
  constructor
  · intro refuses
    cases refuses with
    | objectAlone blank named => exact ⟨⟨blank, named⟩, rfl⟩
  · intro found
    obtain ⟨⟨blank, named⟩, rfl⟩ := found
    exact .objectAlone blank named

/-- What is written of a dynamic reference is refused just when the reference is invalid. -/
theorem refuses_encode_iff {target : DynamicReference} {error : SchemaError} :
    dynamic.Refuses target.encode error ↔
      target.isValid = false ∧ error = .invalidDynamicReference := by
  have schema : target.encode.take Digest.size = target.schema.bytes :=
    List.take_left' target.schema.length_bytes
  have object : target.encode.drop Digest.size = target.object.bytes :=
    List.drop_left' target.schema.length_bytes
  rw [refuses_dynamic_iff, schema, object, Identifier.bytes_eq_blank_iff, ne_eq,
    Identifier.bytes_eq_blank_iff, DynamicReference.isValid_eq_false_iff]

theorem not_refuses_of_ne
    {accessor : Accessor} (notString : accessor ≠ string) (notDynamic : accessor ≠ dynamic)
    (content : Bytes) (error : SchemaError) : ¬accessor.Refuses content error := by
  intro refuses
  cases refuses with
  | notText undecodable => exact notString rfl
  | objectAlone blank named => exact notDynamic rfl

/-- The accessor finds what the value's own bytes are the encoding of, unless it refuses
them. -/
structure Agrees (accessor : Accessor) (value : Value) : Prop where
  bad : ∀ error, value.data = .error error →
    error = .invalidSchemaOrData ∧ accessor.read value = .error .invalidSchemaOrData
  refused : ∀ content, value.data = .ok content →
    ∀ error, accessor.read value = .error error ↔ accessor.Refuses content error
  encoded : ∀ content, value.data = .ok content →
    ∀ datum, accessor.read value = .ok datum → accessor ≠ bool → datum.encode = content

section Agreement

variable {α : Type} {accessor : Accessor} {value : Value} {content : Bytes}

theorem agrees_of_found
    {datum : Datum} (measured : value.data = .ok content) (found : accessor.read value = .ok datum)
    (never : ∀ error, ¬accessor.Refuses content error)
    (encoded : accessor ≠ bool → datum.encode = content) : accessor.Agrees value := by
  constructor <;> simp_all

theorem agrees_of_refused
    {error : SchemaError} (measured : value.data = .ok content)
    (failed : accessor.read value = .error error)
    (refused : ∀ error', accessor.Refuses content error' ↔ error = error') :
    accessor.Agrees value := by
  constructor <;> simp_all

theorem agrees_of_bad
    (bad : value.data = .error .invalidSchemaOrData)
    (failed : accessor.read value = .error .invalidSchemaOrData) : accessor.Agrees value := by
  constructor <;> simp_all

/-- An accessor that only shows what was read as a datum. -/
theorem agrees_of_sameBytes
    {write : α → Bytes} {raw : Except SchemaError α} (same : Value.SameBytes write value.data raw)
    {shown : α → Datum} (reads : accessor.read value = raw.map shown)
    (never : ∀ content error, ¬accessor.Refuses content error)
    (encode : accessor ≠ bool → ∀ found, raw = .ok found → (shown found).encode = write found) :
    accessor.Agrees value := by
  generalize outcome : value.data = data at same
  cases same with
  | found found =>
      exact agrees_of_found outcome reads (never _) fun notBool => encode notBool found rfl
  | bad => exact agrees_of_bad outcome reads

end Agreement

open View

variable {view : View} {bytes : Bytes}

/-- Numbers of a fixed width are what their bytes say. -/
theorem agrees_of_front
    {accessor : Accessor} {kind : Kind} {width : Nat} (linked : view.Linked)
    (isScalar : view.IsScalar kind) (fixed : kind.fixedSize? = some width)
    (notString : accessor ≠ string) (notDynamic : accessor ≠ dynamic) {shown : Bytes → Datum}
    (reads : accessor.read ⟨view, bytes⟩ = ((Value.mk view bytes).front width).map shown)
    (encode : accessor ≠ bool → ∀ content, content.length = width →
      (shown content).encode = content) : accessor.Agrees ⟨view, bytes⟩ := by
  apply agrees_of_sameBytes (Value.sameBytes_front linked isScalar fixed bytes) reads
  · exact not_refuses_of_ne notString notDynamic
  · intro notBool content taken
    exact encode notBool content (Value.length_of_front taken)

theorem agrees_bool (linked : view.Linked) (known : view.kind = .bool) :
    bool.Agrees ⟨view, bytes⟩ := by
  have isScalar := linked.isScalar_of_kind known rfl
  have fixed : Kind.bool.fixedSize? = some 1 := rfl
  apply agrees_of_front linked isScalar fixed (by simp) (by simp)
  · rw [read, Value.bool_eq_map_front known, Outcome.map_map]
  · intro notBool
    contradiction

theorem agrees_int (linked : view.Linked) (member : view.kind ∈ Kind.signed) :
    int.Agrees ⟨view, bytes⟩ := by
  obtain ⟨width, fixed, reads⟩ := Value.int_eq_map_front member
  have isScalar := linked.isScalar_of_fixed fixed
  have known : (Value.mk view bytes).kind.fixedSize?.getD 0 = width := by
    simp [Value.kind, fixed]
  apply agrees_of_front linked isScalar fixed (by simp) (by simp)
  · rw [read, reads, Outcome.map_map, known]
  · intro _ content length
    subst length
    exact Bytes.ofInt_toInt content

theorem agrees_uint (linked : view.Linked) (member : view.kind ∈ Kind.unsigned) :
    uint.Agrees ⟨view, bytes⟩ := by
  obtain ⟨width, fixed, reads⟩ := Value.uint_eq_map_front member
  have isScalar := linked.isScalar_of_fixed fixed
  have known : (Value.mk view bytes).kind.fixedSize?.getD 0 = width := by
    simp [Value.kind, fixed]
  apply agrees_of_front linked isScalar fixed (by simp) (by simp)
  · rw [read, reads, Outcome.map_map, known]
  · intro _ content length
    subst length
    exact Bytes.ofNat_toNat content

theorem agrees_string (linked : view.Linked) (known : view.kind = .string) :
    string.Agrees ⟨view, bytes⟩ := by
  have measures := size_eq_ok_iff_of_scalar (linked.isScalar_of_kind known rfl)
  rw [encodesScalar_string] at measures
  have same := Value.sameBytes_read Reader.exact_counted Reader.failsShort_counted linked measures
    bytes
  have reads : string.read ⟨view, bytes⟩ =
      ((Value.mk view bytes).read Reader.counted >>= Value.textOf).map .string := by
    rw [read, Value.string_eq_bind_counted known]
  generalize measured : (Value.mk view bytes).data = data,
    counted : (Value.mk view bytes).read Reader.counted = raw at same
  rw [counted] at reads
  cases same with
  | bad => exact agrees_of_bad measured reads
  | found content =>
      have payload : (Wire.counted content).drop Wire.countSize = content :=
        drop_count_append _ content
      change _ = (Value.textOf content).map _ at reads
      unfold Value.textOf at reads
      cases decoded : Bytes.toText? content with
      | some text =>
          rw [decoded] at reads
          apply agrees_of_found measured reads
          · simp [refuses_string_iff, payload, decoded]
          · intro _
            rw [Datum.encode, Wire.text, Bytes.ofText_of_toText? decoded]
      | none =>
          rw [decoded] at reads
          apply agrees_of_refused measured reads
          simp [refuses_string_iff, payload, decoded, eq_comm]

theorem agrees_byteSlice (linked : view.Linked) (isByteSlice : view.IsByteSlice) :
    byteSlice.Agrees ⟨view, bytes⟩ := by
  have measures := size_eq_ok_iff_of_byteSlice linked isByteSlice
  rw [encodesScalar_string] at measures
  have same := Value.sameBytes_read Reader.exact_counted Reader.failsShort_counted linked measures
    bytes
  apply agrees_of_sameBytes same
  · rw [read, Value.byteSlice_eq_read isByteSlice]
  · exact not_refuses_of_ne (by simp) (by simp)
  · intro _ content _
    rw [Datum.encode, Value.encodeAll_map_byte, List.length_map, Wire.counted]

theorem agrees_reference (linked : view.Linked) (known : view.referenceKind? = some .single) :
    reference.Agrees ⟨view, bytes⟩ := by
  have measures := size_eq_ok_iff_of_reference known
  rw [encodesReference_single] at measures
  have same := Value.sameBytes_read Reader.exact_identifier Reader.failsShort_identifier linked
    measures bytes
  apply agrees_of_sameBytes same
  · rw [read, Value.reference, known]
  · exact not_refuses_of_ne (by simp) (by simp)
  · intro _ target _
    rfl

theorem agrees_references (linked : view.Linked) (known : view.referenceKind? = some .slice) :
    references.Agrees ⟨view, bytes⟩ := by
  have measures := size_eq_ok_iff_of_reference known
  rw [encodesReference_slice] at measures
  have same := Value.sameBytes_read Reader.exact_references Reader.failsShort_references linked
    measures bytes
  apply agrees_of_sameBytes same
  · rw [read, Value.references, known]
  · exact not_refuses_of_ne (by simp) (by simp)
  · intro _ targets _
    rfl

theorem agrees_dynamic (linked : view.Linked) (known : view.referenceKind? = some .dynamic) :
    dynamic.Agrees ⟨view, bytes⟩ := by
  have measures := size_eq_ok_iff_of_reference known
  rw [encodesReference_dynamic] at measures
  have same := Value.sameBytes_read Reader.exact_dynamicReference
    Reader.failsShort_dynamicReference linked measures bytes
  have reads : dynamic.read ⟨view, bytes⟩ =
      ((Value.mk view bytes).read Reader.dynamicReference >>= fun target =>
        if target.isValid then .ok target else .error .invalidDynamicReference).map .dynamic := by
    rw [read, Value.dynamic, known]
  generalize measured : (Value.mk view bytes).data = data,
    read : (Value.mk view bytes).read Reader.dynamicReference = raw at same
  rw [read] at reads
  cases same with
  | bad => exact agrees_of_bad measured reads
  | found target =>
      change _ = Except.map _ (if target.isValid then _ else _) at reads
      by_cases valid : target.isValid = true
      · rw [if_pos valid] at reads
        apply agrees_of_found measured reads
        · simp [refuses_encode_iff, valid]
        · intro _
          rfl
      · rw [if_neg valid] at reads
        apply agrees_of_refused measured reads
        simp [refuses_encode_iff, valid, eq_comm]

theorem agrees_of_reads
    {accessor : Accessor} (linked : view.Linked) (reads : accessor.Reads view) (bytes : Bytes) :
    accessor.Agrees ⟨view, bytes⟩ := by
  cases accessor with
  | bool => exact agrees_bool linked reads
  | int => exact agrees_int linked reads
  | uint => exact agrees_uint linked reads
  | string => exact agrees_string linked reads
  | byteSlice => exact agrees_byteSlice linked reads
  | reference => exact agrees_reference linked reads
  | references => exact agrees_references linked reads
  | dynamic => exact agrees_dynamic linked reads

theorem read_of_not_reads
    {accessor : Accessor} (other : ¬accessor.Reads view) (bytes : Bytes) :
    accessor.read ⟨view, bytes⟩ = .error (.typeMismatch accessor.expectation view.kind) := by
  cases accessor with
  | bool =>
      rw [read, Value.bool_of_ne other]
      rfl
  | int =>
      rw [read, Value.int_of_not_mem other]
      rfl
  | uint =>
      rw [read, Value.uint_of_not_mem other]
      rfl
  | string =>
      rw [read, Value.string_of_ne other]
      rfl
  | byteSlice =>
      rw [read, Value.byteSlice_of_not other]
      rfl
  | reference =>
      rw [read, Value.reference_of_ne other]
      rfl
  | references =>
      rw [read, Value.references_of_ne other]
      rfl
  | dynamic =>
      rw [read, Value.dynamic_of_ne other]
      rfl

end Accessor

/-- The accessors of other kinds refuse a value of the view by its kind, whatever its bytes
are. -/
structure View.RefusesOthers (view : View) : Prop where
  leaf : ∀ accessor : Accessor, ¬accessor.Reads view → ∀ bytes,
    accessor.read ⟨view, bytes⟩ = .error (.typeMismatch accessor.expectation view.kind)
  float : view.kind ∉ Kind.floats → ∀ bytes,
    (Value.mk view bytes).float = .error (.typeMismatch .float view.kind)
  length : view.kind ∉ [.array, .slice, .string] → view.referenceKind? ≠ some .slice → ∀ bytes,
    (Value.mk view bytes).length = .error (.typeMismatch .counted view.kind)
  index : view.kind ≠ .array → view.kind ≠ .slice → ∀ bytes index,
    (Value.mk view bytes).index index = .error (.typeMismatch .sequence view.kind)
  fieldByIndex : view.kind ≠ .struct → ∀ bytes index,
    (Value.mk view bytes).fieldByIndex index = .error (.typeMismatch .struct view.kind)
  fieldByName : view.kind ≠ .struct → ∀ bytes name,
    (Value.mk view bytes).fieldByName name = .error (.typeMismatch .struct view.kind)
  targetView : view.referenceKind? = none → ∀ bytes,
    (Value.mk view bytes).targetView = .error (.typeMismatch .reference view.kind)

namespace View

variable {view : View}

theorem refusesOthers (view : View) : view.RefusesOthers where
  leaf _ other := Accessor.read_of_not_reads other
  float other := Value.float_of_not_mem other
  length := by
    intro notCounted notList bytes
    obtain ⟨registry, schema⟩ := view
    unfold Value.length
    dsimp only
    split
    · simp [kind, Schema.kind] at notCounted
    · simp [kind, Schema.kind] at notCounted
    · simp [kind, Schema.kind] at notCounted
    · exact absurd rfl notList
    · exact absurd rfl notList
    · rfl
  index := by
    intro notArray notSlice bytes index
    have refused : (Value.mk view bytes).sequence = .error (.typeMismatch .sequence view.kind) := by
      obtain ⟨registry, schema⟩ := view
      cases schema with
      | array name length inner => contradiction
      | slice name inner => contradiction
      | _ => rfl
    rw [Value.index, refused]
    rfl
  fieldByIndex := by
    intro notStruct bytes index
    have refused : (Value.mk view bytes).expectStruct = .error (.typeMismatch .struct view.kind) :=
      if_neg notStruct
    rw [Value.fieldByIndex, refused]
    rfl
  fieldByName := by
    intro notStruct bytes name
    have refused : (Value.mk view bytes).expectStruct = .error (.typeMismatch .struct view.kind) :=
      if_neg notStruct
    rw [Value.fieldByName, refused]
    rfl
  targetView := by
    intro notReference bytes
    simp only [Value.targetView, notReference]
    rfl

end View

/-- The accessor of a leaf finds what the bytes that can be measured encode, and every other
accessor refuses the leaf by its kind. -/
theorem Accessor.agrees_and_others_refused
    {registry : Registry} (returned : registry.Returned) {view : View}
    (reachable : View.Reachable registry view) :
    (∀ accessor : Accessor, accessor.Reads view → ∀ bytes, accessor.Agrees ⟨view, bytes⟩) ∧
      view.RefusesOthers := by
  have linked := reachable.linked returned.registered
  constructor
  · intro accessor reads bytes
    exact agrees_of_reads linked reads bytes
  · exact view.refusesOthers

namespace Registry

/-- A text and whatever it is the text of. -/
def labelSchema : Schema :=
  .struct (some "Label")
    [⟨"text", "", .scalar .string none⟩, ⟨"subject", "", .openReference .dynamic⟩]

def labelRegistry : Registry := ⟨[("Label", labelSchema)], none⟩

theorem returned_labelRegistry : labelRegistry.Returned :=
  returned_of_canonical (by decide +kernel)

end Registry

def View.labelText : View := ⟨Registry.labelRegistry, .scalar .string none⟩

/-- The text of a label is read as far as it is measured, bytes that are no text are
refused, and it is no number. -/
theorem Accessor.agrees_labelText :
    (∀ datum, Accessor.string.read ⟨View.labelText, [1, 0, 0, 0, 65, 66]⟩ = .ok datum →
      datum.encode = [1, 0, 0, 0, 65]) ∧
    Accessor.string.read ⟨View.labelText, [1, 0, 0, 0, 192]⟩ = .error .invalidUtf8 ∧
    Accessor.string.read ⟨View.labelText, [1, 0, 0, 0]⟩ = .error .invalidSchemaOrData ∧
    Accessor.int.read ⟨View.labelText, []⟩ = .error (.typeMismatch .signed .string) := by
  have label : Registry.labelRegistry.viewByName "Label" =
      .ok ⟨Registry.labelRegistry, Registry.labelSchema⟩ := rfl
  have reachable : View.Reachable Registry.labelRegistry View.labelText :=
    .step (.byName label) (rfl : View.step _ (.field 0) = .ok (some View.labelText))
  obtain ⟨agrees, others⟩ :=
    agrees_and_others_refused Registry.returned_labelRegistry reachable
  have string := agrees .string rfl
  have noNumber : ¬Accessor.int.Reads View.labelText := by
    change Kind.string ∉ Kind.signed
    decide
  refine ⟨?_, ?_, ?_, ?_⟩
  · intro datum found
    exact (string _).encoded _ rfl datum found (by simp)
  · exact ((string _).refused _ rfl _).mpr (.notText (by decide +kernel))
  · exact ((string _).bad _ rfl).2
  · exact others.leaf .int noNumber _

end TypedObject
