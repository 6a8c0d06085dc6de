import TypedObject.Proofs.Store.History
import TypedObject.Proofs.Value.Leaves
import TypedObject.Proofs.View.Resolution

/-!
# What a pack hands out is verified

Bytes are handed out only under their own reference, and an object only if its bytes
are one value of its schema to the last byte.  Otherwise the first check that fails
names the failure.  A dynamic reference adds the search for its schema before these
checks, which never fail as that search does.
-/

namespace TypedObject

namespace DynamicReference

theorem schema_ne_blank_iff (dynamic : DynamicReference) :
    dynamic.schema ≠ .blank ↔ dynamic.isValid = true ∧ dynamic.isBlank = false := by
  rw [← Bool.not_eq_false dynamic.isValid, ← Bool.not_eq_true dynamic.isBlank,
    isValid_eq_false_iff, isBlank_iff]
  tauto

end DynamicReference

/-- The value is a dynamic reference, whose bytes come first. -/
def Value.Holds (value : Value) (dynamic : DynamicReference) : Prop :=
  value.view.referenceKind? = some .dynamic ∧ dynamic.encode <+: value.bytes

namespace Pack

open Store

variable {pack : Pack} {view : View} {reference : Reference} {bytes : Bytes}

/-- Under the reference the pack holds bytes that are its own and one value of the
schema. -/
structure Verified (pack : Pack) (view : View) (reference : Reference) (bytes : Bytes) :
    Prop where
  held : pack.store.get? reference = some bytes
  own : referenceOf bytes = reference
  whole : view.size bytes = .ok bytes.length

/-- The first thing that is wrong with what the pack holds under the reference. -/
inductive Unverified (pack : Pack) (view : View) (reference : Reference) : StoreError → Prop where
  | notFound (absent : pack.store.get? reference = none) :
      Unverified pack view reference (.notFound reference)
  | hashMismatch {bytes : Bytes} (held : pack.store.get? reference = some bytes)
      (foreign : referenceOf bytes ≠ reference) :
      Unverified pack view reference (.hashMismatch reference (referenceOf bytes))
  | unmeasured {bytes : Bytes} {error : SchemaError}
      (held : pack.store.get? reference = some bytes) (own : referenceOf bytes = reference)
      (failed : view.size bytes = .error error) : Unverified pack view reference (.schema error)
  | inexact {bytes : Bytes} {size : Nat} (held : pack.store.get? reference = some bytes)
      (own : referenceOf bytes = reference) (measured : view.size bytes = .ok size)
      (different : size ≠ bytes.length) :
      Unverified pack view reference (.schema .invalidSchemaOrData)

theorem object_of_held
    (held : pack.store.get? reference = some bytes) (own : referenceOf bytes = reference) :
    pack.object reference = .ok bytes :=
  (object_of_get? held).trans (if_pos own)

theorem object_eq_ok_iff :
    pack.object reference = .ok bytes ↔
      pack.store.get? reference = some bytes ∧ referenceOf bytes = reference := by
  constructor
  · intro success
    cases held : pack.store.get? reference with
    | none =>
        simp only [object, Store.get, held] at success
        cases success
    | some bytes' =>
        rw [object_of_get? held] at success
        split at success
        · rename_i own
          cases success
          exact ⟨rfl, own⟩
        · cases success
  · rintro ⟨held, own⟩
    exact object_of_held held own

theorem load_of_held
    (held : pack.store.get? reference = some bytes) (own : referenceOf bytes = reference) :
    pack.load view reference =
      match view.size bytes with
      | .error error => .error (.schema error)
      | .ok size =>
        if size = bytes.length then .ok ⟨view, bytes⟩
        else .error (.schema .invalidSchemaOrData) := by
  rw [load, object_of_held held own]
  rfl

theorem Verified.load (verified : pack.Verified view reference bytes) :
    pack.load view reference = .ok ⟨view, bytes⟩ := by
  rw [load_of_held verified.held verified.own, verified.whole]
  exact if_pos rfl

theorem Unverified.load {error : StoreError} (unverified : pack.Unverified view reference error) :
    pack.load view reference = .error error := by
  cases unverified with
  | notFound absent => simp only [Pack.load, object, Store.get, absent, bind, Except.bind]
  | hashMismatch held foreign =>
      rw [Pack.load, object_of_get? held, if_neg foreign]
      rfl
  | unmeasured held own failed => rw [load_of_held held own, failed]
  | inexact held own measured different =>
      rw [load_of_held held own, measured]
      exact if_neg different

/-- Either everything is right with what a pack holds, or something is wrong. -/
theorem verified_or_unverified (pack : Pack) (view : View) (reference : Reference) :
    (∃ bytes, pack.Verified view reference bytes) ∨
      ∃ error, pack.Unverified view reference error := by
  cases held : pack.store.get? reference with
  | none => exact .inr ⟨_, .notFound held⟩
  | some bytes =>
      by_cases own : referenceOf bytes = reference
      · cases measured : view.size bytes with
        | error error => exact .inr ⟨_, .unmeasured held own measured⟩
        | ok size =>
            by_cases whole : size = bytes.length
            · rw [whole] at measured
              exact .inl ⟨bytes, held, own, measured⟩
            · exact .inr ⟨_, .inexact held own measured whole⟩
      · exact .inr ⟨_, .hashMismatch held own⟩

theorem load_eq_ok_iff {object : Value} :
    pack.load view reference = .ok object ↔
      ∃ bytes, pack.Verified view reference bytes ∧ object = ⟨view, bytes⟩ := by
  constructor
  · intro loaded
    rcases pack.verified_or_unverified view reference with ⟨bytes, verified⟩ | ⟨error, unverified⟩
    · rw [verified.load] at loaded
      cases loaded
      exact ⟨bytes, verified, rfl⟩
    · rw [unverified.load] at loaded
      cases loaded
  · rintro ⟨bytes, verified, rfl⟩
    exact verified.load

theorem load_eq_error_iff {error : StoreError} :
    pack.load view reference = .error error ↔ pack.Unverified view reference error := by
  constructor
  · intro failed
    rcases pack.verified_or_unverified view reference with ⟨bytes, verified⟩ | ⟨error', unverified⟩
    · rw [verified.load] at failed
      cases failed
    · rw [unverified.load] at failed
      cases failed
      exact unverified
  · exact Unverified.load

theorem Verified.data (verified : pack.Verified view reference bytes) :
    (Value.mk view bytes).data = .ok bytes := by
  refine Outcome.bind_eq_ok_iff.mpr ⟨_, verified.whole, ?_⟩
  rw [List.take_length]
  rfl

variable {dynamic : DynamicReference}

theorem loadDynamic_of_blank
    (schema : dynamic.schema = .blank) (object : dynamic.object = .blank) :
    pack.loadDynamic dynamic = .ok none :=
  if_pos (dynamic.isBlank_iff.mpr ⟨schema, object⟩)

theorem loadDynamic_of_schemaless
    (schema : dynamic.schema = .blank) (object : dynamic.object ≠ .blank) :
    pack.loadDynamic dynamic = .error (.schema .invalidDynamicReference) := by
  have notBlank : ¬dynamic.isBlank = true := fun blank => object (dynamic.isBlank_iff.mp blank).2
  have invalid := dynamic.isValid_eq_false_iff.mpr ⟨schema, object⟩
  rw [loadDynamic, if_neg notBlank, invalid]
  rfl

theorem loadDynamic_of_schema
    (schema : dynamic.schema ≠ .blank) :
    pack.loadDynamic dynamic =
      match pack.registry.viewByReference dynamic.schema with
      | .error error => .error (.schema error)
      | .ok view => (pack.load view dynamic.object).map some := by
  have notBlank : ¬dynamic.isBlank = true := fun blank => schema (dynamic.isBlank_iff.mp blank).1
  have valid : dynamic.isValid = true := by
    rw [← Bool.not_eq_false, dynamic.isValid_eq_false_iff]
    exact fun invalid => schema invalid.1
  rw [loadDynamic, if_neg notBlank, valid]
  rfl

end Pack

namespace Registry

/-- A schema with the identifier is found exactly when an entry has it. -/
theorem viewByReference_cases (registry : Registry) (reference : SchemaRef) :
    (∃ view, registry.viewByReference reference = .ok view ∧ view.identifier = reference ∧
      ∃ entry ∈ registry.entries, entry.2.identifier = reference) ∨
    (registry.viewByReference reference = .error (.missingSchemaRef reference) ∧
      ∀ entry ∈ registry.entries, entry.2.identifier ≠ reference) := by
  unfold viewByReference schemaByReference
  cases found : registry.entries.find? (fun entry => entry.2.identifier = reference) with
  | none =>
      refine .inr ⟨rfl, fun entry member => ?_⟩
      simpa using List.find?_eq_none.mp found entry member
  | some entry =>
      have same : entry.2.identifier = reference := by simpa using List.find?_some found
      exact .inl ⟨⟨registry, entry.2⟩, rfl, same, entry, List.mem_of_find?_eq_some found, same⟩

end Registry

/-- A value that holds a valid dynamic reference finds the same schema. -/
theorem Value.Holds.targetView
    {value : Value} {dynamic : DynamicReference} (holds : value.Holds dynamic)
    (valid : dynamic.isValid = true) :
    value.targetView = value.view.registry.viewByReference dynamic.schema := by
  obtain ⟨view, bytes⟩ := value
  obtain ⟨isDynamic, rest, rfl⟩ := holds
  have found := Value.dynamic_encode valid isDynamic rest
  rw [Datum.encode] at found
  unfold Value.targetView
  rw [isDynamic]
  change ((Value.mk view (dynamic.encode ++ rest)).dynamic >>= _) = _
  rw [found]
  rfl

namespace Pack

open Store

variable {pack : Pack} {dynamic : DynamicReference}

theorem Unverified.schema_eq
    {view : View} {reference : Reference} {error : SchemaError} (linked : view.Linked)
    (unverified : pack.Unverified view reference (.schema error)) :
    error = .invalidSchemaOrData := by
  cases unverified with
  | unmeasured _ _ failed => exact linked.failsOnlyWith_sizeWithin _ _ failed
  | inexact _ _ _ _ => rfl

/-- The ways in which loading a dynamic reference can go. -/
inductive Leads (pack : Pack) (dynamic : DynamicReference) : Prop where
  | blank (schema : dynamic.schema = .blank) (object : dynamic.object = .blank)
      (answer : pack.loadDynamic dynamic = .ok none)
  | schemaless (schema : dynamic.schema = .blank) (object : dynamic.object ≠ .blank)
      (answer : pack.loadDynamic dynamic = .error (.schema .invalidDynamicReference))
  | missing (schema : dynamic.schema ≠ .blank)
      (absent : ∀ entry ∈ pack.registry.entries, entry.2.identifier ≠ dynamic.schema)
      (answer : pack.loadDynamic dynamic = .error (.schema (.missingSchemaRef dynamic.schema)))
  | known (schema : dynamic.schema ≠ .blank) (view : View)
      (found : pack.registry.viewByReference dynamic.schema = .ok view)
      (identifier : view.identifier = dynamic.schema)
      (present : ∃ entry ∈ pack.registry.entries, entry.2.identifier = dynamic.schema)
      (answer : pack.loadDynamic dynamic = (pack.load view dynamic.object).map some)

theorem leads (pack : Pack) (dynamic : DynamicReference) : pack.Leads dynamic := by
  by_cases schema : dynamic.schema = .blank
  · by_cases object : dynamic.object = .blank
    · exact .blank schema object (loadDynamic_of_blank schema object)
    · exact .schemaless schema object (loadDynamic_of_schemaless schema object)
  · have answer : pack.loadDynamic dynamic = _ := loadDynamic_of_schema schema
    rcases pack.registry.viewByReference_cases dynamic.schema with
      ⟨view, found, identifier, present⟩ | ⟨missing, absent⟩
    · rw [found] at answer
      exact .known schema view found identifier present answer
    · rw [missing] at answer
      exact .missing schema absent answer

/-- An object of a known schema is no missing one, and a failure lies in its bytes. -/
theorem eq_invalidSchemaOrData_of_load
    (returned : pack.registry.Returned) {view : View} {reference : Reference}
    (found : pack.registry.viewByReference dynamic.schema = .ok view) {error : SchemaError}
    (failed : (pack.load view reference).map some = .error (.schema error)) :
    error = .invalidSchemaOrData := by
  have linked := View.linked_of_viewByReference returned.registered found
  cases loaded : pack.load view reference with
  | ok object =>
      rw [loaded] at failed
      cases failed
  | error error' =>
      rw [loaded] at failed
      cases failed
      exact (load_eq_error_iff.mp loaded).schema_eq linked

theorem loadDynamic_eq_none_iff :
    pack.loadDynamic dynamic = .ok none ↔ dynamic.schema = .blank ∧ dynamic.object = .blank := by
  constructor
  · intro loaded
    cases pack.leads dynamic with
    | blank schema object _ => exact ⟨schema, object⟩
    | schemaless _ _ answer => cases loaded.symm.trans answer
    | missing _ _ answer => cases loaded.symm.trans answer
    | known _ view _ _ _ answer =>
        rw [answer] at loaded
        obtain ⟨_, _, impossible⟩ := Outcome.map_eq_ok_iff.mp loaded
        cases impossible
  · rintro ⟨schema, object⟩
    exact loadDynamic_of_blank schema object

theorem loadDynamic_eq_invalid_iff
    (returned : pack.registry.Returned) :
    pack.loadDynamic dynamic = .error (.schema .invalidDynamicReference) ↔
      dynamic.schema = .blank ∧ dynamic.object ≠ .blank := by
  constructor
  · intro failed
    cases pack.leads dynamic with
    | blank _ _ answer => cases failed.symm.trans answer
    | schemaless schema object _ => exact ⟨schema, object⟩
    | missing _ _ answer => cases failed.symm.trans answer
    | known _ view found _ _ answer =>
        cases eq_invalidSchemaOrData_of_load returned found (answer.symm.trans failed)
  · rintro ⟨schema, object⟩
    exact loadDynamic_of_schemaless schema object

theorem loadDynamic_eq_missing_iff
    (returned : pack.registry.Returned) {reference : SchemaRef} :
    pack.loadDynamic dynamic = .error (.schema (.missingSchemaRef reference)) ↔
      reference = dynamic.schema ∧ dynamic.schema ≠ .blank ∧
        ∀ entry ∈ pack.registry.entries, entry.2.identifier ≠ dynamic.schema := by
  constructor
  · intro failed
    cases pack.leads dynamic with
    | blank _ _ answer => cases failed.symm.trans answer
    | schemaless _ _ answer => cases failed.symm.trans answer
    | missing schema absent answer =>
        cases failed.symm.trans answer
        exact ⟨rfl, schema, absent⟩
    | known _ view found _ _ answer =>
        cases eq_invalidSchemaOrData_of_load returned found (answer.symm.trans failed)
  · rintro ⟨rfl, schema, absent⟩
    cases pack.leads dynamic with
    | blank same _ _ => exact absurd same schema
    | schemaless same _ _ => exact absurd same schema
    | missing _ _ answer => exact answer
    | known _ _ _ _ present _ =>
        obtain ⟨entry, member, same⟩ := present
        exact absurd same (absent entry member)

theorem loadDynamic_of_present
    (schema : dynamic.schema ≠ .blank)
    (present : ∃ entry ∈ pack.registry.entries, entry.2.identifier = dynamic.schema) :
    ∃ view, pack.registry.viewByReference dynamic.schema = .ok view ∧
      pack.loadDynamic dynamic = (pack.load view dynamic.object).map some := by
  cases pack.leads dynamic with
  | blank same _ _ => exact absurd same schema
  | schemaless same _ _ => exact absurd same schema
  | missing _ absent _ =>
      obtain ⟨entry, member, same⟩ := present
      exact absurd same (absent entry member)
  | known _ view found _ _ answer => exact ⟨view, found, answer⟩

theorem identifier_of_loadDynamic
    {object : Value} (loaded : pack.loadDynamic dynamic = .ok (some object)) :
    object.view.identifier = dynamic.schema := by
  cases pack.leads dynamic with
  | blank _ _ answer => cases loaded.symm.trans answer
  | schemaless _ _ answer => cases loaded.symm.trans answer
  | missing _ _ answer => cases loaded.symm.trans answer
  | known _ view _ identifier _ answer =>
      rw [answer] at loaded
      obtain ⟨_, verified, same⟩ := Outcome.map_eq_ok_iff.mp loaded
      cases same
      obtain ⟨_, _, rfl⟩ := load_eq_ok_iff.mp verified
      exact identifier

/-- Bytes are handed out exactly when they are stored under their own reference, and an
object exactly when these are all of one value of its schema; a failure is the first
thing that is wrong.  A dynamic reference loads nothing when it is blank, and else the
object of the schema that a value with this reference leads to, unless its schema is
blank or not registered. -/
theorem loaded_verified
    (returned : pack.registry.Returned) :
    (∀ reference bytes, pack.object reference = .ok bytes ↔
      pack.store.get? reference = some bytes ∧ referenceOf bytes = reference) ∧
    (∀ view reference, (∀ object, pack.load view reference = .ok object ↔
        ∃ bytes, pack.Verified view reference bytes ∧ object = ⟨view, bytes⟩ ∧
          object.data = .ok bytes) ∧
      ∀ error, pack.load view reference = .error error ↔
        pack.Unverified view reference error) ∧
    ∀ dynamic,
      (pack.loadDynamic dynamic = .ok none ↔
        dynamic.schema = .blank ∧ dynamic.object = .blank) ∧
      (pack.loadDynamic dynamic = .error (.schema .invalidDynamicReference) ↔
        dynamic.schema = .blank ∧ dynamic.object ≠ .blank) ∧
      (∀ reference, pack.loadDynamic dynamic = .error (.schema (.missingSchemaRef reference)) ↔
        reference = dynamic.schema ∧ dynamic.isValid = true ∧ dynamic.isBlank = false ∧
          ∀ entry ∈ pack.registry.entries, entry.2.identifier ≠ dynamic.schema) ∧
      (dynamic.isValid = true → dynamic.isBlank = false →
        (∃ entry ∈ pack.registry.entries, entry.2.identifier = dynamic.schema) →
        ∃ view, pack.registry.viewByReference dynamic.schema = .ok view ∧
          pack.loadDynamic dynamic = (pack.load view dynamic.object).map some) ∧
      (∀ value : Value, value.view.registry = pack.registry → value.Holds dynamic →
        dynamic.isValid = true →
        value.targetView = pack.registry.viewByReference dynamic.schema) ∧
      ∀ object, pack.loadDynamic dynamic = .ok (some object) →
        object.view.identifier = dynamic.schema := by
  refine ⟨fun _ _ => object_eq_ok_iff, ?_, ?_⟩
  · intro view reference
    refine ⟨fun object => ?_, fun _ => load_eq_error_iff⟩
    constructor
    · intro loaded
      obtain ⟨bytes, verified, rfl⟩ := load_eq_ok_iff.mp loaded
      exact ⟨bytes, verified, rfl, verified.data⟩
    · rintro ⟨bytes, verified, rfl, _⟩
      exact verified.load
  · intro dynamic
    refine ⟨loadDynamic_eq_none_iff, loadDynamic_eq_invalid_iff returned, ?_, ?_, ?_, ?_⟩
    · intro reference
      rw [loadDynamic_eq_missing_iff returned, dynamic.schema_ne_blank_iff, and_assoc]
    · intro valid notBlank present
      have schema := dynamic.schema_ne_blank_iff.mpr ⟨valid, notBlank⟩
      exact loadDynamic_of_present schema present
    · intro value sameRegistry holds valid
      rw [holds.targetView valid, sameRegistry]
    · intro object loaded
      exact identifier_of_loadDynamic loaded

open View (nodeView nodeBytes)

/-- Holds a node under its own reference and a byte under the blank one. -/
def nodePack : Pack :=
  ⟨Registry.nodeRegistry, (empty .all).run [.add (nodeBytes 8 []), .set .blank [1]]⟩

theorem loaded_nodePack :
    nodePack.load nodeView (referenceOf (nodeBytes 8 [])) = .ok ⟨nodeView, nodeBytes 8 []⟩ ∧
      nodePack.load nodeView .blank = .error (.hashMismatch .blank (referenceOf [1])) ∧
      nodePack.loadDynamic ⟨.blank, referenceOf (nodeBytes 8 [])⟩ =
        .error (.schema .invalidDynamicReference) ∧
      ∃ view, nodePack.loadDynamic ⟨nodeView.identifier, .blank⟩ =
        (nodePack.load view .blank).map some := by
  have held : nodePack.store.get? (referenceOf (nodeBytes 8 [])) = some (nodeBytes 8 []) := by
    decide +kernel
  have stray : nodePack.store.get? .blank = some [1] := by
    decide +kernel
  have foreign : referenceOf [1] ≠ .blank := by
    decide +kernel
  have named : nodeView.identifier ≠ .blank := by
    decide +kernel
  obtain ⟨_, loads, dynamics⟩ := @loaded_verified nodePack Registry.returned_nodeRegistry
  refine ⟨?_, ?_, ?_, ?_⟩
  · have whole : nodeView.size (nodeBytes 8 []) = .ok (nodeBytes 8 []).length := rfl
    have verified : nodePack.Verified nodeView (referenceOf (nodeBytes 8 [])) (nodeBytes 8 []) :=
      ⟨held, rfl, whole⟩
    exact ((loads _ _).1 _).mpr ⟨_, verified, rfl, verified.data⟩
  · exact ((loads _ _).2 _).mpr (.hashMismatch stray foreign)
  · apply (dynamics _).2.1.mpr
    exact ⟨rfl, by decide +kernel⟩
  · obtain ⟨valid, notBlank⟩ :=
      (DynamicReference.schema_ne_blank_iff ⟨nodeView.identifier, .blank⟩).mp named
    obtain ⟨view, _, answer⟩ := (dynamics ⟨nodeView.identifier, .blank⟩).2.2.2.1 valid notBlank
      ⟨("Node", Registry.nodeSchema), List.mem_cons_self, rfl⟩
    exact ⟨view, answer⟩

end Pack

end TypedObject
