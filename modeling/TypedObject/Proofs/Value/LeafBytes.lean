import TypedObject.Proofs.Value.Leaves
import TypedObject.Proofs.View.Resolution
import TypedObject.Proofs.View.Shortcut

/-!
# The bytes of leaves

Reading a leaf and measuring it count bytes each in its own way.  They agree: either
both find the same bytes at the front, which are those that are written of what was
read, or both miss some.  So what is read depends on nothing but the bytes that are
measured.
-/

namespace TypedObject

namespace Reader

variable {α β : Type}

/-- The reader fails for nothing but missing bytes. -/
def FailsShort (reader : Reader α) : Prop :=
  ∀ bytes error rest, reader bytes = (.error error, rest) →
    ∃ need left, error = .unexpectedEnd need left

theorem failsShort_pure (value : α) : FailsShort (pure value : Reader α) := by
  intro bytes error rest failed
  simp at failed

theorem failsShort_take (size : Nat) : FailsShort (take size) := by
  intro bytes error rest failed
  unfold take at failed
  split at failed
  · cases failed
    exact ⟨size, _, rfl⟩
  · cases failed

theorem FailsShort.bind
    {reader : Reader α} {next : α → Reader β} (first : FailsShort reader)
    (later : ∀ bytes value rest, reader bytes = (.ok value, rest) → FailsShort (next value)) :
    FailsShort (reader >>= next) := by
  intro bytes error rest failed
  rw [bind_apply] at failed
  rcases outcome : reader bytes with ⟨_ | value, middle⟩
  · rw [outcome] at failed
    cases failed
    exact first _ _ _ outcome
  · rw [outcome] at failed
    exact later _ _ _ outcome _ _ _ failed

theorem failsShort_count : FailsShort count := by
  apply (failsShort_take 4).bind
  intro bytes taken rest _
  exact failsShort_pure _

theorem failsShort_counted : FailsShort counted := by
  apply failsShort_count.bind
  intro bytes size rest _
  exact failsShort_take size

theorem failsShort_times {item : Reader α} (each : FailsShort item) (size : Nat) :
    FailsShort (times item size) := by
  induction size with
  | zero => exact failsShort_pure _
  | succ size induction =>
      apply each.bind
      intro _ first _ _
      apply induction.bind
      intro _ others _ _
      exact failsShort_pure _

theorem failsShort_identifier {family : Family} : FailsShort (@identifier family) := by
  apply (failsShort_take 32).bind
  intro bytes taken rest read
  have length := (take_eq_ok_iff.mp read).1
  simp only [Digest.ofBytes, length, dif_pos]
  exact failsShort_pure _

theorem failsShort_references : FailsShort references := by
  apply failsShort_count.bind
  intro _ size _ _
  apply (failsShort_take _).bind
  intro _ taken _ _ bytes error rest failed
  rw [lift_apply, Prod.mk.injEq] at failed
  exact failsShort_times failsShort_identifier size taken error _ (Prod.ext failed.1 rfl)

theorem failsShort_dynamicReference : FailsShort dynamicReference := by
  apply failsShort_identifier.bind
  intro _ schema _ _
  apply failsShort_identifier.bind
  intro _ object _ _
  exact failsShort_pure _

end Reader

theorem Identifier.exists_of_length
    (family : Family) {bytes : Bytes} (length : bytes.length = 32) :
    ∃ identifier : Identifier family, bytes = identifier.bytes :=
  ⟨⟨⟨bytes, length⟩⟩, rfl⟩

theorem Reference.exists_targets
    {count : Nat} {bytes : Bytes} (length : bytes.length = count * 32) :
    ∃ targets : List Reference, targets.length = count ∧
      bytes = targets.flatMap Identifier.bytes := by
  induction count generalizing bytes with
  | zero => exact ⟨[], rfl, List.eq_nil_of_length_eq_zero (by omega)⟩
  | succ count induction =>
      obtain ⟨first, others, rfl, lengthFirst⟩ :=
        Bytes.exists_front (by omega : 32 ≤ bytes.length)
      rw [List.length_append] at length
      obtain ⟨target, rfl⟩ := Identifier.exists_of_length .object lengthFirst
      obtain ⟨targets, rfl, rfl⟩ := induction (by omega : others.length = count * 32)
      exact ⟨target :: targets, rfl, rfl⟩

theorem Offset.ofItem?_one (index start : Nat) : ofItem? index 1 start = add? index start := by
  unfold ofItem? mul? add? ofNat?
  rw [Nat.mul_one]
  split
  · rfl
  · rw [if_neg (by omega)]
    rfl

namespace View

/-- The bytes are what is written of a valid value. -/
def Written {α : Type} (valid : α → Prop) (write : α → Bytes) (encoded : Bytes) : Prop :=
  ∃ value, valid value ∧ encoded = write value

theorem encodesReference_single :
    EncodesReference .single = Written (fun _ : Reference => True) Identifier.bytes := by
  funext encoded
  apply propext
  constructor
  · intro length
    obtain ⟨target, rfl⟩ := Identifier.exists_of_length .object length
    exact ⟨target, trivial, rfl⟩
  · intro written
    obtain ⟨target, _, rfl⟩ := written
    exact target.length_bytes

theorem encodesReference_dynamic :
    EncodesReference .dynamic =
      Written (fun _ : DynamicReference => True) DynamicReference.encode := by
  funext encoded
  apply propext
  constructor
  · intro length
    have long : 32 ≤ encoded.length := by
      rw [show encoded.length = 64 from length]
      omega
    obtain ⟨first, second, rfl, lengthFirst⟩ := Bytes.exists_front long
    have lengthBoth : first.length + second.length = 64 :=
      List.length_append.symm.trans length
    obtain ⟨schema, rfl⟩ := Identifier.exists_of_length .schema lengthFirst
    obtain ⟨object, rfl⟩ :=
      Identifier.exists_of_length .object (by omega : second.length = 32)
    exact ⟨⟨schema, object⟩, trivial, rfl⟩
  · intro written
    obtain ⟨target, _, rfl⟩ := written
    simp [EncodesReference, DynamicReference.encode, dynamicSize]

theorem encodesReference_slice :
    EncodesReference .slice =
      Written (fun targets => targets.length < Wire.countBound) Reference.encodeList := by
  funext encoded
  apply propext
  constructor
  · intro encodes
    obtain ⟨count, identifiers, fits, length, rfl⟩ := encodes
    obtain ⟨targets, rfl, rfl⟩ := Reference.exists_targets length
    exact ⟨targets, fits, rfl⟩
  · intro written
    obtain ⟨targets, fits, rfl⟩ := written
    exact ⟨_, _, fits, Reference.length_flatMap_bytes targets, rfl⟩

theorem encodesScalar_string :
    EncodesScalar .string =
      Written (fun content => content.length < Wire.countBound) Wire.counted := by
  funext encoded
  simp [EncodesScalar, Written, Kind.fixedSize?]

variable {view : View}

theorem fronts_iff
    {measured : Bytes → Except SchemaError Nat} {encodes : Bytes → Prop}
    (sound : ∀ {bytes size}, measured bytes = .ok size → size ≤ bytes.length →
      Fronts encodes bytes size)
    (complete : ∀ {encoded} rest, encodes encoded →
      measured (encoded ++ rest) = .ok encoded.length)
    (bytes : Bytes) (size : Nat) :
    (measured bytes >>= fitting bytes) = .ok size ↔ Fronts encodes bytes size := by
  rw [bind_fitting_eq_ok_iff]
  constructor
  · intro found
    exact sound found.1 found.2
  · intro fronts
    obtain ⟨encoded, rest, rfl, rfl, encodes⟩ := fronts
    refine ⟨complete rest encodes, ?_⟩
    rw [List.length_append]
    exact Nat.le_add_right _ _

theorem size_eq_ok_iff_of_scalar
    {kind : Kind} (isScalar : view.IsScalar kind) (bytes : Bytes) (size : Nat) :
    view.size bytes = .ok size ↔ Fronts (EncodesScalar kind) bytes size := by
  obtain ⟨registry, schema⟩ := view
  obtain ⟨name, rfl⟩ := isScalar
  rw [View.size, sizeWithin_scalar]
  exact fronts_iff sound_scalarSize
    (fun rest encodes => complete_scalarSize encodes rest) bytes size

theorem size_eq_ok_iff_of_reference
    {kind : ReferenceKind} (isReference : view.referenceKind? = some kind) (bytes : Bytes)
    (size : Nat) :
    view.size bytes = .ok size ↔ Fronts (EncodesReference kind) bytes size := by
  have measured : view.size bytes = referenceSizeAt kind bytes >>= fitting bytes := by
    obtain ⟨registry, schema⟩ := view
    cases schema with
    | reference kind' target =>
        cases isReference
        rw [View.size, sizeWithin_reference]
    | openReference kind' =>
        cases isReference
        rw [View.size, sizeWithin_openReference]
    | _ => cases isReference
  rw [measured]
  exact fronts_iff sound_referenceSizeAt
    (fun rest encodes => complete_referenceSizeAt encodes rest) bytes size

/-- The view is of a slice of bytes. -/
def IsByteSlice (view : View) : Prop :=
  view.kind = .slice ∧ ∃ elem, view.elem = .ok elem ∧ elem.kind = .uint8

theorem Linked.isScalar_of_kind
    {kind : Kind} (linked : view.Linked) (known : view.kind = kind)
    (scalar : kind.isScalar = true) : view.IsScalar kind := by
  have full := linked.full
  obtain ⟨registry, schema⟩ := view
  subst known
  cases schema with
  | scalar kind name => exact ⟨name, rfl⟩
  | placeholder kind name => cases full
  | _ => cases scalar

theorem Linked.isScalar_of_fixed
    {width : Nat} (linked : view.Linked) (fixed : view.kind.fixedSize? = some width) :
    view.IsScalar view.kind := by
  apply linked.isScalar_of_kind rfl
  simp [Kind.isScalar, fixed]

theorem size_of_scalar
    {kind : Kind} {width : Nat} (isScalar : view.IsScalar kind)
    (fixed : kind.fixedSize? = some width) (bytes : Bytes) :
    view.size bytes = fitting bytes width := by
  obtain ⟨registry, schema⟩ := view
  obtain ⟨name, rfl⟩ := isScalar
  rw [View.size, sizeWithin_scalar, scalarSize_of_fixed fixed]
  rfl

/-- The elements of a byte slice have one byte, so it is measured like a string. -/
theorem size_of_byteSlice
    (linked : view.Linked) (isByteSlice : view.IsByteSlice) (bytes : Bytes) :
    view.size bytes = scalarSize .string bytes >>= fitting bytes := by
  obtain ⟨isSlice, elem, follows, isByte⟩ := isByteSlice
  obtain ⟨registry, schema⟩ := view
  cases schema with
  | slice name inner =>
      have linkedElem := linked.of_follow List.mem_cons_self follows
      obtain ⟨elemName, known⟩ := linkedElem.isScalar_of_kind isByte rfl
      have fixed : elem.fixedSize? = some 1 := by
        simp [fixedSize?, fixedSizeWithin, known, Kind.fixedSize?]
      have sized (measure : Bytes → Except SchemaError Nat) (count : Nat) :
          sizeOfSequence elem measure count Wire.countSize bytes =
            offset (Offset.add? count Wire.countSize) := by
        simp only [sizeOfSequence, fixed, Offset.ofItem?_one]
      rw [View.size, sizeWithin_slice, show follow registry inner = .ok elem from follows]
      congr 1
      change (countAt bytes >>= _) = _
      simp only [sized]
      rfl
  | scalar kind name => cases follows
  | placeholder kind name => cases linked.full
  | _ => cases isSlice

theorem size_eq_ok_iff_of_byteSlice
    (linked : view.Linked) (isByteSlice : view.IsByteSlice) (bytes : Bytes) (size : Nat) :
    view.size bytes = .ok size ↔ Fronts (EncodesScalar .string) bytes size := by
  rw [size_of_byteSlice linked isByteSlice]
  exact fronts_iff sound_scalarSize (fun rest encodes => complete_scalarSize encodes rest) bytes
    size

end View

namespace Value

open View

variable {α : Type} {view : View}

/-- Measuring and reading find the same value, by what is written of it, or both find
the bytes bad. -/
inductive SameBytes (write : α → Bytes) :
    (data : Except SchemaError Bytes) → (read : Except SchemaError α) → Prop where
  | found (value : α) : SameBytes write (.ok (write value)) (.ok value)
  | bad : SameBytes write (.error .invalidSchemaOrData) (.error .invalidSchemaOrData)

theorem data_eq_of_size
    {bytes : Bytes} {encoded rest : Bytes} (split : bytes = encoded ++ rest)
    (measured : view.size bytes = .ok encoded.length) :
    (Value.mk view bytes).data = .ok encoded := by
  refine Outcome.bind_eq_ok_iff.mpr ⟨_, measured, ?_⟩
  rw [split, List.take_left]
  rfl

theorem data_of_size_error
    (linked : view.Linked) {bytes : Bytes} {error : SchemaError}
    (failed : view.size bytes = .error error) :
    (Value.mk view bytes).data = .error .invalidSchemaOrData := by
  obtain rfl := linked.failsOnlyWith_sizeWithin bytes error failed
  rw [data, failed]
  rfl

/-- Measuring agrees with a reader that reads exactly what the view's values are written
as. -/
theorem sameBytes_read
    {reader : Reader α} {valid : α → Prop} {write : α → Bytes}
    (exact : reader.Exact valid write) (short : reader.FailsShort) (linked : view.Linked)
    (measures : ∀ bytes size, view.size bytes = .ok size ↔
      Fronts (Written valid write) bytes size) (bytes : Bytes) :
    SameBytes write (Value.mk view bytes).data ((Value.mk view bytes).read reader) := by
  rcases outcome : reader bytes with ⟨error | value, rest⟩
  · have unread : (Value.mk view bytes).read reader = .error .invalidSchemaOrData := by
      obtain ⟨need, left, rfl⟩ := short _ _ _ outcome
      simp [read, Reader.front, outcome]
    cases measured : view.size bytes with
    | error error' =>
        rw [unread, data_of_size_error linked measured]
        exact .bad
    | ok size =>
        obtain ⟨_, rest', rfl, _, value, accepted, rfl⟩ := (measures _ _).mp measured
        rw [exact.reads accepted] at outcome
        cases outcome
  · obtain ⟨accepted, split⟩ := (exact _ _ _).mp outcome
    have measured : view.size bytes = .ok (write value).length :=
      (measures _ _).mpr ⟨_, rest, split, rfl, value, accepted, rfl⟩
    rw [data_eq_of_size split measured, read_eq_ok outcome]
    exact .found value

theorem sameBytes_front
    {kind : Kind} {width : Nat} (linked : view.Linked) (isScalar : view.IsScalar kind)
    (known : kind.fixedSize? = some width) (bytes : Bytes) :
    SameBytes id (Value.mk view bytes).data ((Value.mk view bytes).front width) := by
  have measured := size_of_scalar isScalar known bytes
  by_cases short : bytes.length < width
  · have unread : (Value.mk view bytes).front width = .error .invalidSchemaOrData :=
      if_pos ((Bytes.isShorter_iff _ _).mpr short)
    rw [unread, data_of_size_error linked (measured.trans (fitting_of_lt short))]
    exact .bad
  · obtain ⟨encoded, rest, rfl, rfl⟩ := Bytes.exists_front (Nat.le_of_not_lt short)
    have fits : encoded.length ≤ (encoded ++ rest).length := by simp
    rw [front_append, data_eq_of_size rfl (measured.trans (fitting_of_le fits))]
    exact .found encoded

theorem byteSlice_eq_read (isByteSlice : view.IsByteSlice) (bytes : Bytes) :
    (Value.mk view bytes).byteSlice = (Value.mk view bytes).read Reader.counted := by
  obtain ⟨isSlice, elem, follows, isByte⟩ := isByteSlice
  unfold byteSlice kind
  rw [isSlice, follows]
  exact if_pos isByte

theorem byteSlice_of_not (other : ¬view.IsByteSlice) (bytes : Bytes) :
    (Value.mk view bytes).byteSlice = .error (.typeMismatch .byteSlice view.kind) := by
  unfold byteSlice kind
  split
  · split
    · rename_i isSlice follows isByte
      exact absurd ⟨isSlice, _, follows, isByte⟩ other
    · rfl
  · rfl

end Value

end TypedObject
