import TypedObject.Proofs.Value.LeafBytes
import TypedObject.Proofs.Value.Partition

/-!
# What follows a value

The count of a sequence is compared with all the bytes that are left, also with those
behind the value.  Still, once a value has been measured, nothing behind it makes a
difference: the same size is found, and every accessor answers the same.  So a value
that was cut short is always noticed, since what was cut off would have to be measured
again.
-/

namespace TypedObject

namespace View

variable {α β : Type} {view : View} {answer : Bytes → Except SchemaError α}

/-- Behind a value that can be measured bytes make no difference to the answer. -/
def IgnoresRest (view : View) (answer : Bytes → α) : Prop :=
  ∀ bytes size, view.size bytes = .ok size → ∀ more, answer (bytes ++ more) = answer bytes

theorem ignoresRest_of_const {answer : Bytes → α} {constant : α}
    (known : ∀ bytes, answer bytes = constant) : view.IgnoresRest answer := by
  intro bytes size _ more
  rw [known, known]

theorem IgnoresRest.of_eq {answer answer' : Bytes → α} (ignores : view.IgnoresRest answer')
    (same : ∀ bytes, answer bytes = answer' bytes) : view.IgnoresRest answer := by
  intro bytes size measured more
  rw [same, same]
  exact ignores bytes size measured more

theorem IgnoresRest.bind (ignores : view.IgnoresRest answer) (next : α → Except SchemaError β) :
    view.IgnoresRest fun bytes => answer bytes >>= next := by
  intro bytes size measured more
  dsimp only
  rw [ignores bytes size measured more]

theorem IgnoresRest.map (ignores : view.IgnoresRest answer) (function : α → β) :
    view.IgnoresRest fun bytes => (answer bytes).map function := by
  intro bytes size measured more
  dsimp only
  rw [ignores bytes size measured more]

end View

namespace Value

open View

variable {registry : Registry} {view : View} {bytes : Bytes}

section Leaves

variable {α : Type} {reader : Reader α} {valid : α → Prop} {write : α → Bytes}

theorem ignoresRest_front
    {kind : Kind} {width : Nat} (isScalar : view.IsScalar kind)
    (fixed : kind.fixedSize? = some width) :
    view.IgnoresRest fun bytes => (Value.mk view bytes).front width := by
  intro bytes size measured more
  rw [size_of_scalar isScalar fixed] at measured
  obtain ⟨rfl, fits⟩ := fitting_eq_ok_iff.mp measured
  obtain ⟨encoded, rest, rfl, rfl⟩ := Bytes.exists_front fits
  simp only [List.append_assoc, front_append]

/-- A reader that reads exactly what the view's values are written as does not look
behind it. -/
theorem ignoresRest_read
    (exact : reader.Exact valid write)
    (measures : ∀ bytes size, view.size bytes = .ok size ↔
      Fronts (Written valid write) bytes size) :
    view.IgnoresRest fun bytes => (Value.mk view bytes).read reader := by
  intro bytes size measured more
  obtain ⟨_, rest, rfl, _, value, accepted, rfl⟩ := (measures _ _).mp measured
  simp only [List.append_assoc, read_eq_ok (exact.reads accepted _)]

theorem ignoresRest_bool (linked : view.Linked) :
    view.IgnoresRest fun bytes => (Value.mk view bytes).bool := by
  by_cases known : view.kind = .bool
  · have isScalar := linked.isScalar_of_kind known rfl
    have fixed : Kind.bool.fixedSize? = some 1 := rfl
    exact ((ignoresRest_front isScalar fixed).map _).of_eq (bool_eq_map_front known)
  · exact ignoresRest_of_const (bool_of_ne known)

theorem ignoresRest_int (linked : view.Linked) :
    view.IgnoresRest fun bytes => (Value.mk view bytes).int := by
  by_cases member : view.kind ∈ Kind.signed
  · obtain ⟨width, fixed, reads⟩ := int_eq_map_front member
    have isScalar := linked.isScalar_of_fixed fixed
    exact ((ignoresRest_front isScalar fixed).map _).of_eq reads
  · exact ignoresRest_of_const (int_of_not_mem member)

theorem ignoresRest_uint (linked : view.Linked) :
    view.IgnoresRest fun bytes => (Value.mk view bytes).uint := by
  by_cases member : view.kind ∈ Kind.unsigned
  · obtain ⟨width, fixed, reads⟩ := uint_eq_map_front member
    have isScalar := linked.isScalar_of_fixed fixed
    exact ((ignoresRest_front isScalar fixed).map _).of_eq reads
  · exact ignoresRest_of_const (uint_of_not_mem member)

theorem ignoresRest_float (linked : view.Linked) :
    view.IgnoresRest fun bytes => (Value.mk view bytes).float := by
  by_cases member : view.kind ∈ Kind.floats
  · obtain ⟨width, widen, fixed, reads⟩ := float_eq_map_front member
    have isScalar := linked.isScalar_of_fixed fixed
    exact ((ignoresRest_front isScalar fixed).map _).of_eq reads
  · exact ignoresRest_of_const (float_of_not_mem member)

theorem ignoresRest_string (linked : view.Linked) :
    view.IgnoresRest fun bytes => (Value.mk view bytes).string := by
  by_cases known : view.kind = .string
  · have measures := size_eq_ok_iff_of_scalar (linked.isScalar_of_kind known rfl)
    rw [encodesScalar_string] at measures
    exact ((ignoresRest_read Reader.exact_counted measures).bind _).of_eq
      (string_eq_bind_counted known)
  · exact ignoresRest_of_const (string_of_ne known)

theorem ignoresRest_byteSlice (linked : view.Linked) :
    view.IgnoresRest fun bytes => (Value.mk view bytes).byteSlice := by
  by_cases isByteSlice : view.IsByteSlice
  · have measures := size_eq_ok_iff_of_byteSlice linked isByteSlice
    rw [encodesScalar_string] at measures
    exact (ignoresRest_read Reader.exact_counted measures).of_eq (byteSlice_eq_read isByteSlice)
  · exact ignoresRest_of_const (byteSlice_of_not isByteSlice)

theorem ignoresRest_reference : view.IgnoresRest fun bytes => (Value.mk view bytes).reference := by
  by_cases known : view.referenceKind? = some .single
  · have measures := size_eq_ok_iff_of_reference known
    rw [encodesReference_single] at measures
    apply (ignoresRest_read Reader.exact_identifier measures).of_eq
    intro bytes
    rw [reference, known]
  · exact ignoresRest_of_const (reference_of_ne known)

theorem ignoresRest_references :
    view.IgnoresRest fun bytes => (Value.mk view bytes).references := by
  by_cases known : view.referenceKind? = some .slice
  · have measures := size_eq_ok_iff_of_reference known
    rw [encodesReference_slice] at measures
    apply (ignoresRest_read Reader.exact_references measures).of_eq
    intro bytes
    rw [references, known]
  · exact ignoresRest_of_const (references_of_ne known)

theorem ignoresRest_dynamic : view.IgnoresRest fun bytes => (Value.mk view bytes).dynamic := by
  by_cases known : view.referenceKind? = some .dynamic
  · have measures := size_eq_ok_iff_of_reference known
    rw [encodesReference_dynamic] at measures
    apply ((ignoresRest_read Reader.exact_dynamicReference measures).bind _).of_eq
    intro bytes
    rw [dynamic, known]
  · exact ignoresRest_of_const (dynamic_of_ne known)

theorem ignoresRest_targetView :
    view.IgnoresRest fun bytes => (Value.mk view bytes).targetView := by
  by_cases known : view.referenceKind? = some .dynamic
  · apply (ignoresRest_dynamic.bind fun target => view.registry.viewByReference target.schema).of_eq
    intro bytes
    rw [targetView, known]
  · intro bytes size _ more
    unfold targetView
    dsimp only
    split
    · contradiction
    · rfl
    · rfl

end Leaves

theorem read_count_append
    {count : Nat} (counted : countAt bytes = .ok count) (more : Bytes) :
    (Value.mk view (bytes ++ more)).read Reader.count =
      (Value.mk view bytes).read Reader.count := by
  obtain ⟨fits, rest, rfl⟩ := countAt_eq_ok_iff.mp counted
  rw [read_count, read_count, counted, List.append_assoc, countAt_count_append fits]

theorem ignoresRest_length (linked : view.Linked) :
    view.IgnoresRest fun bytes => (Value.mk view bytes).length := by
  intro bytes size measured more
  obtain ⟨registry, schema⟩ := view
  cases schema with
  | slice name inner =>
      obtain ⟨elem, follows, _⟩ := linked.follow List.mem_cons_self
      obtain ⟨count, counted, _⟩ := (sizeWithin_slice_eq_ok_iff follows).mp measured
      exact read_count_append counted more
  | scalar kind name =>
      cases kind with
      | string =>
          rw [View.size, sizeWithin_scalar, bind_fitting_eq_ok_iff] at measured
          obtain ⟨count, counted, _⟩ := Outcome.bind_eq_ok_iff.mp measured.1
          exact read_count_append counted more
      | _ => rfl
  | reference kind target =>
      cases kind with
      | slice =>
          rw [View.size, sizeWithin_reference, bind_fitting_eq_ok_iff] at measured
          obtain ⟨count, counted, _⟩ := Outcome.bind_eq_ok_iff.mp measured.1
          exact read_count_append counted more
      | _ => rfl
  | openReference kind =>
      cases kind with
      | slice =>
          rw [View.size, sizeWithin_openReference, bind_fitting_eq_ok_iff] at measured
          obtain ⟨count, counted, _⟩ := Outcome.bind_eq_ok_iff.mp measured.1
          exact read_count_append counted more
      | _ => rfl
  | _ => rfl

section Parts

variable {elem : View} {length start : Nat}

theorem ignoresRest_sequence (linked : view.Linked) :
    view.IgnoresRest fun bytes => (Value.mk view bytes).sequence := by
  intro bytes size measured more
  have counted := ignoresRest_length linked bytes size measured more
  obtain ⟨registry, schema⟩ := view
  cases schema with
  | slice name inner =>
      change (_ >>= fun elem => _ >>= _) = (_ >>= fun elem => _ >>= _)
      change (Value.mk _ (bytes ++ more)).read Reader.count = _ at counted
      rw [counted]
      rfl
  | _ => rfl

theorem sizeOfSequence_of_sequence
    {size : Nat} (measured : view.size bytes = .ok size)
    (sequence : (Value.mk view bytes).sequence = .ok (elem, length, start)) :
    sizeOfSequence elem (sizeWithin depthLimit elem) length start bytes = .ok size ∧
      size ≤ bytes.length := by
  have follows : view.elem = .ok elem := elem_of_sequence sequence
  obtain ⟨registry, schema⟩ := view
  cases schema with
  | array name length' inner =>
      obtain ⟨_, _, same⟩ := Outcome.bind_eq_ok_iff.mp sequence
      cases same
      exact (sizeWithin_array_eq_ok_iff follows).mp measured
  | slice name inner =>
      obtain ⟨_, _, continued⟩ := Outcome.bind_eq_ok_iff.mp sequence
      obtain ⟨count, read, same⟩ := Outcome.bind_eq_ok_iff.mp continued
      cases same
      rw [read_count] at read
      obtain ⟨count', counted, sized⟩ := (sizeWithin_slice_eq_ok_iff follows).mp measured
      cases counted.symm.trans read
      exact sized
  | _ => cases sequence

/-- All elements of a sequence that was measured as a whole can be measured, and each of
them begins at an offset. -/
theorem exists_items_of_sequence
    (registered : registry.entries.Registered) (reachable : Reachable registry view) {size : Nat}
    (measured : view.size bytes = .ok size)
    (sequence : (Value.mk view bytes).sequence = .ok (elem, length, start)) :
    (∃ items, sizeOfParts View.size (List.replicate length elem) (bytes.drop start) = .ok items) ∧
      ∀ more index, index < length → (Value.mk view (bytes ++ more)).Places elem index start := by
  have follows : view.elem = .ok elem := elem_of_sequence sequence
  obtain ⟨found, fits⟩ := sizeOfSequence_of_sequence measured sequence
  obtain ⟨items, walked, _⟩ :=
    sizeOfParts_of_sizeOfSequence registered (reachable.elem follows) found fits
  refine ⟨⟨items, walked⟩, ?_⟩
  intro more index within width fixed _
  have least := Nat.mul_le_mul_right width (Nat.le_of_lt within)
  rcases sizeOfSequence_eq_ok_iff.mp found with ⟨width', fixed', total, bound⟩ | ⟨unfixed, _⟩
  · rw [fixed] at fixed'
    cases fixed'
    omega
  · rw [fixed] at unfixed
    cases unfixed

theorem partAt_append
    (registered : registry.entries.Registered) {parts : List View}
    (reachable : ∀ part ∈ parts, Reachable registry part) {size : Nat}
    (walked : sizeOfParts View.size parts bytes = .ok size) {index : Nat} {part : View}
    (atIndex : parts[index]? = some part) (more : Bytes) :
    partAt parts index part (bytes ++ more) = partAt parts index part bytes := by
  induction parts generalizing index bytes size with
  | nil => cases atIndex
  | cons first others induction =>
      obtain ⟨reachableFirst, reachableOthers⟩ := List.forall_mem_cons.mp reachable
      obtain ⟨sizeFirst, measured, continued⟩ := Outcome.bind_eq_ok_iff.mp walked
      obtain ⟨sizeOthers, walkedOthers, _⟩ := Outcome.bind_eq_ok_iff.mp continued
      have measured' := size_append_of_size registered reachableFirst measured more
      have fits := le_of_sizeWithin measured
      cases index with
      | zero =>
          obtain rfl := Option.some.inj atIndex
          change cut first (bytes ++ more) = cut first bytes
          rw [(cut_of_size measured).1, (cut_of_size measured').1,
            List.take_append_of_le_length fits]
      | succ index =>
          rw [partAt_cons_of_size measured, partAt_cons_of_size measured',
            List.drop_append_of_le_length fits]
          exact induction reachableOthers walkedOthers atIndex

theorem ignoresRest_index
    (registered : registry.entries.Registered) (reachable : Reachable registry view)
    (index : Nat) : view.IgnoresRest fun bytes => (Value.mk view bytes).index index := by
  intro bytes size measured more
  have linked := reachable.linked registered
  have same := ignoresRest_sequence linked bytes size measured more
  dsimp only at same ⊢
  cases sequence : (Value.mk view bytes).sequence with
  | error error =>
      rw [Value.index, Value.index, same, sequence]
      rfl
  | ok found =>
      obtain ⟨elem, length, start⟩ := found
      have sequence' := same.trans sequence
      by_cases within : index < length
      · have follows : view.elem = .ok elem := elem_of_sequence sequence
        obtain ⟨⟨items, walked⟩, places⟩ :=
          exists_items_of_sequence registered reachable measured sequence
        have here := places [] index within
        rw [List.append_nil] at here
        have inside := start_le_of_sequence sequence
        have atIndex : (List.replicate length elem)[index]? = some elem := by
          rw [List.getElem?_replicate, if_pos within]
        have reachableParts : ∀ part ∈ List.replicate length elem, Reachable registry part := by
          intro part member
          rw [List.eq_of_mem_replicate member]
          exact reachable.elem follows
        rw [index_eq_partAt (linked.of_elem follows) sequence inside here within,
          index_eq_partAt (linked.of_elem follows) sequence' (start_le_of_sequence sequence')
            (places more index within) within]
        dsimp only
        rw [List.drop_append_of_le_length inside]
        exact partAt_append registered reachableParts walked atIndex more
      · rw [Value.index, Value.index, sequence, sequence']
        change (if length ≤ index then _ else _) = if length ≤ index then _ else _
        rw [if_pos (Nat.le_of_not_lt within), if_pos (Nat.le_of_not_lt within)]

theorem fieldByIndex_of_missing
    {index : Nat} (missing : view.fields[index]? = none) (bytes : Bytes) :
    (Value.mk view bytes).fieldByIndex index =
      (Value.mk view []).expectStruct >>= fun _ =>
        .error (.indexOutOfRange index view.fields.length) := by
  unfold fieldByIndex
  dsimp only
  rw [missing]
  rfl

theorem ignoresRest_fieldByIndex
    (registered : registry.entries.Registered) (reachable : Reachable registry view)
    (index : Nat) : view.IgnoresRest fun bytes => (Value.mk view bytes).fieldByIndex index := by
  cases found : view.fields[index]? with
  | none => exact ignoresRest_of_const (fieldByIndex_of_missing found)
  | some field =>
      intro bytes size measured more
      obtain ⟨parts, follow, _⟩ := (reachable.linked registered).fields
      have reachableParts := reachable.parts follow
      obtain ⟨registry', schema⟩ := view
      cases schema with
      | struct name fields =>
          obtain ⟨sized, _⟩ := (sizeWithin_struct_eq_ok_iff follow).mp measured
          have walked := sizeOfParts_of_sizeWithin registered reachableParts sized
          have isStruct (bytes : Bytes) :
              (Value.mk ⟨registry', .struct name fields⟩ bytes).kind = .struct := rfl
          have within : index < parts.length := by
            rw [Outcome.length_of_mapM follow]
            exact (List.getElem?_eq_some_iff.mp found).1
          have atIndex := List.getElem?_eq_getElem within
          dsimp only
          rw [fieldByIndex_eq_partAt (isStruct _) follow atIndex,
            fieldByIndex_eq_partAt (isStruct _) follow atIndex]
          exact partAt_append registered reachableParts walked atIndex more
      | _ => cases found

theorem ignoresRest_fieldByName
    (registered : registry.entries.Registered) (reachable : Reachable registry view)
    (name : String) : view.IgnoresRest fun bytes => (Value.mk view bytes).fieldByName name := by
  intro bytes size measured more
  unfold fieldByName
  dsimp only
  cases view.fieldIndex? name with
  | none => rfl
  | some index =>
      have same := ignoresRest_fieldByIndex registered reachable index bytes size measured more
      dsimp only at same ⊢
      rw [same]
      rfl

end Parts

/-- Every question about the value is answered as it is about the other. -/
structure SameAnswers (value other : Value) : Prop where
  data : value.data = other.data
  length : value.length = other.length
  isEmpty : value.isEmpty = other.isEmpty
  index : ∀ index, value.index index = other.index index
  fieldCount : value.fieldCount = other.fieldCount
  fieldNames : value.fieldNames = other.fieldNames
  fieldByIndex : ∀ index, value.fieldByIndex index = other.fieldByIndex index
  fieldByName : ∀ name, value.fieldByName name = other.fieldByName name
  bool : value.bool = other.bool
  int : value.int = other.int
  uint : value.uint = other.uint
  float : value.float = other.float
  string : value.string = other.string
  byteSlice : value.byteSlice = other.byteSlice
  reference : value.reference = other.reference
  references : value.references = other.references
  dynamic : value.dynamic = other.dynamic
  targetView : value.targetView = other.targetView

theorem sameAnswers_append
    (registered : registry.entries.Registered) (reachable : Reachable registry view) {size : Nat}
    (measured : view.size bytes = .ok size) (more : Bytes) :
    SameAnswers ⟨view, bytes ++ more⟩ ⟨view, bytes⟩ := by
  have linked := reachable.linked registered
  have ignores {α : Type} {answer : Bytes → α} (ignored : view.IgnoresRest answer) :
      answer (bytes ++ more) = answer bytes := ignored bytes size measured more
  constructor
  case data =>
    have measured' := size_append_of_size registered reachable measured more
    have fits := le_of_sizeWithin measured
    rw [data, data, measured, measured']
    exact congrArg Except.ok (List.take_append_of_le_length fits)
  case length => exact ignores (ignoresRest_length linked)
  case isEmpty => exact ignores ((ignoresRest_length linked).bind _)
  case index => exact fun index => ignores (ignoresRest_index registered reachable index)
  case fieldCount => rfl
  case fieldNames => rfl
  case fieldByIndex =>
    exact fun index => ignores (ignoresRest_fieldByIndex registered reachable index)
  case fieldByName => exact fun name => ignores (ignoresRest_fieldByName registered reachable name)
  case bool => exact ignores (ignoresRest_bool linked)
  case int => exact ignores (ignoresRest_int linked)
  case uint => exact ignores (ignoresRest_uint linked)
  case float => exact ignores (ignoresRest_float linked)
  case string => exact ignores (ignoresRest_string linked)
  case byteSlice => exact ignores (ignoresRest_byteSlice linked)
  case reference => exact ignores ignoresRest_reference
  case references => exact ignores ignoresRest_references
  case dynamic => exact ignores ignoresRest_dynamic
  case targetView => exact ignores ignoresRest_targetView

/-- What follows a value that can be measured changes no answer, and when bytes of the value
are missing it cannot be measured. -/
theorem following_bytes_ignored_missing_noticed
    {registry : Registry} (returned : registry.Returned) {view : View}
    (reachable : Reachable registry view) {bytes : Bytes} {size : Nat}
    (measured : view.size bytes = .ok size) :
    (∀ more, view.size (bytes ++ more) = .ok size ∧
      SameAnswers ⟨view, bytes ++ more⟩ ⟨view, bytes⟩) ∧
    ∀ fewer < size, view.size (bytes.take fewer) = .error .invalidSchemaOrData := by
  have registered := returned.registered
  constructor
  · intro more
    exact ⟨size_append_of_size registered reachable measured more,
      sameAnswers_append registered reachable measured more⟩
  · intro fewer less
    cases cutShort : view.size (bytes.take fewer) with
    | error error =>
        rw [(reachable.linked registered).failsOnlyWith_sizeWithin _ _ cutShort]
    | ok size' =>
        have again := size_append_of_size registered reachable cutShort (bytes.drop fewer)
        rw [List.take_append_drop, measured] at again
        cases again
        have fits := le_of_sizeWithin cutShort
        rw [List.length_take] at fits
        omega

/-- Two nodes are the same two whatever follows them, and none when a byte is missing. -/
theorem twoChildren_followed_and_cut_short :
    childrenView.size (twoChildren.bytes ++ [1, 2, 3]) = .ok 115 ∧
      (Value.mk childrenView (twoChildren.bytes ++ [1, 2, 3])).index 1 =
        .ok ⟨nodeView, nodeBytes 7 [nodeBytes 9 []]⟩ ∧
      childrenView.size (twoChildren.bytes.take 114) = .error .invalidSchemaOrData := by
  have measured : childrenView.size twoChildren.bytes = .ok 115 := rfl
  have second : twoChildren.index 1 = .ok ⟨nodeView, nodeBytes 7 [nodeBytes 9 []]⟩ := rfl
  obtain ⟨followed, missing⟩ := following_bytes_ignored_missing_noticed
    Registry.returned_nodeRegistry reachable_childrenView measured
  obtain ⟨sameSize, same⟩ := followed [1, 2, 3]
  exact ⟨sameSize, (same.index 1).trans second, missing 114 (by decide)⟩

end Value

end TypedObject
