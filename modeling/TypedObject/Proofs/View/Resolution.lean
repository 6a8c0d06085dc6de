import TypedObject.Proofs.View.SizeExactness
import TypedObject.Proofs.View.Slots

/-!
# Every placeholder is resolved

Linking ends for every set of entries and fails only where some placeholder names no
entry.  In the arena of a registry that is returned every placeholder holds the slot of
an entry of its name and kind, so no step from view to view ever misses a schema, and
measuring fails only on the data.
-/

namespace TypedObject

namespace Registry

theorem Returned.own_names
    {registry : Registry} (returned : registry.Returned) :
    ∀ entry ∈ registry.entries, entry.2.name? = some entry.1 := by
  rcases returned with ⟨declarations, calls, declared⟩ | ⟨bytes, decoded⟩
  · exact declared.own_names
  · obtain ⟨_, canonical, _⟩ := decode_eq_ok_iff.mp decoded
    exact fun entry member => (canonical.formed entry member).own_name

end Registry

namespace View

open Outcome

theorem failsOnlyWith_offset (found : Option Nat) :
    FailsOnlyWith .invalidSchemaOrData (offset found) := by
  cases found with
  | none => exact failsOnlyWith_error _
  | some number => exact failsOnlyWith_ok _ number

theorem failsOnlyWith_fitting (bytes : Bytes) (size : Nat) :
    FailsOnlyWith .invalidSchemaOrData (fitting bytes size) := by
  unfold fitting
  split
  · exact failsOnlyWith_error _
  · exact failsOnlyWith_ok _ size

theorem failsOnlyWith_countAt (bytes : Bytes) :
    FailsOnlyWith .invalidSchemaOrData (countAt bytes) := by
  unfold countAt
  split
  · exact failsOnlyWith_ok _ _
  · exact failsOnlyWith_error _

theorem failsOnlyWith_scalarSize (kind : Kind) (bytes : Bytes) :
    FailsOnlyWith .invalidSchemaOrData (scalarSize kind bytes) := by
  unfold scalarSize
  split
  · apply (failsOnlyWith_countAt bytes).bind
    intro count _
    exact failsOnlyWith_offset _
  · exact failsOnlyWith_offset _

theorem failsOnlyWith_referenceSizeAt (kind : ReferenceKind) (bytes : Bytes) :
    FailsOnlyWith .invalidSchemaOrData (referenceSizeAt kind bytes) := by
  cases kind with
  | single => exact failsOnlyWith_ok _ _
  | dynamic => exact failsOnlyWith_ok _ _
  | slice =>
      apply (failsOnlyWith_countAt bytes).bind
      intro count _
      exact failsOnlyWith_offset _

theorem failsOnlyWith_sizeOfParts
    {measure : View → Bytes → Except SchemaError Nat} {parts : List View}
    (each : ∀ part ∈ parts, ∀ bytes, FailsOnlyWith .invalidSchemaOrData (measure part bytes))
    (bytes : Bytes) : FailsOnlyWith .invalidSchemaOrData (sizeOfParts measure parts bytes) := by
  induction parts generalizing bytes with
  | nil => exact failsOnlyWith_ok _ 0
  | cons part parts induction =>
      obtain ⟨first, others⟩ := List.forall_mem_cons.mp each
      apply (first bytes).bind
      intro size _
      apply (induction others _).bind
      intro rest _
      exact failsOnlyWith_ok _ _

theorem failsOnlyWith_sizeOfSequence
    {measure : View → Bytes → Except SchemaError Nat} {elem : View}
    (each : ∀ bytes, FailsOnlyWith .invalidSchemaOrData (measure elem bytes))
    (count start : Nat) (bytes : Bytes) :
    FailsOnlyWith .invalidSchemaOrData
      (sizeOfSequence elem (measure elem) count start bytes) := by
  unfold sizeOfSequence
  split
  · exact failsOnlyWith_offset _
  · split
    · exact failsOnlyWith_error _
    · rw [sizeOfRun_eq_sizeOfParts]
      have run : ∀ part ∈ List.replicate count elem, ∀ bytes,
          FailsOnlyWith .invalidSchemaOrData (measure part bytes) := by
        intro part member
        rw [(List.mem_replicate.mp member).2]
        exact each
      apply (failsOnlyWith_sizeOfParts run _).bind
      intro size _
      exact failsOnlyWith_ok _ _

theorem Linked.failsOnlyWith_sizeWithin
    {levels : Nat} {view : View} (linked : view.Linked) (bytes : Bytes) :
    FailsOnlyWith .invalidSchemaOrData (sizeWithin levels view bytes) := by
  induction levels generalizing view bytes with
  | zero => exact failsOnlyWith_error _
  | succ levels induction =>
      have fits : ∀ size : Nat, FailsOnlyWith .invalidSchemaOrData (fitting bytes size) :=
        fun size => failsOnlyWith_fitting bytes size
      obtain ⟨registry, schema⟩ := view
      cases schema with
      | scalar kind name =>
          rw [sizeWithin_scalar]
          exact (failsOnlyWith_scalarSize kind bytes).bind fun size _ => fits size
      | reference kind target =>
          rw [sizeWithin_reference]
          exact (failsOnlyWith_referenceSizeAt kind bytes).bind fun size _ => fits size
      | openReference kind =>
          rw [sizeWithin_openReference]
          exact (failsOnlyWith_referenceSizeAt kind bytes).bind fun size _ => fits size
      | slice name inner =>
          obtain ⟨elem, follows, linkedElem⟩ := linked.follow List.mem_cons_self
          rw [sizeWithin_slice, follows]
          apply FailsOnlyWith.bind _ fun size _ => fits size
          apply (failsOnlyWith_countAt bytes).bind
          intro count _
          exact failsOnlyWith_sizeOfSequence (induction linkedElem) count Wire.countSize bytes
      | array name length inner =>
          obtain ⟨elem, follows, linkedElem⟩ := linked.follow List.mem_cons_self
          rw [sizeWithin_array, follows]
          apply FailsOnlyWith.bind _ fun size _ => fits size
          exact failsOnlyWith_sizeOfSequence (induction linkedElem) length 0 bytes
      | struct name fields =>
          obtain ⟨parts, followFields, linkedParts⟩ := linked.fields
          change fields.mapM (ofField ⟨registry, .struct name fields⟩) = .ok parts at followFields
          rw [sizeWithin_struct, sizeOfFields_eq_sizeOfParts followFields]
          apply FailsOnlyWith.bind _ fun size _ => fits size
          exact failsOnlyWith_sizeOfParts
            (fun part member => induction (linkedParts part member)) bytes
      | placeholder kind name => cases linked.full

/-- The view shows a schema in full; its element, if it can have one, and its fields
are all there, no path from it misses a schema, and measuring fails only on the
data. -/
structure Resolved (view : View) : Prop where
  full : view.schema.isPlaceholder = false
  elem : (∃ part, view.elem = .ok part) ∨
    view.elem = .error (.typeMismatch .elementHolder view.kind)
  fields : ∀ field ∈ view.fields, ∃ part, view.ofField field = .ok part
  walk : ∀ path name, view.walk path ≠ .error (.missingSchema name)
  size : ∀ bytes error, view.size bytes = .error error → error = .invalidSchemaOrData

theorem Linked.elem
    {view : View} (linked : view.Linked) :
    (∃ part, view.elem = .ok part) ∨
      view.elem = .error (.typeMismatch .elementHolder view.kind) := by
  have followed : ∀ inner ∈ view.schema.parts,
      ∃ part, View.follow view.registry inner = .ok part := by
    intro inner inside
    obtain ⟨part, follows, _⟩ := linked.follow inside
    exact ⟨part, follows⟩
  obtain ⟨registry, schema⟩ := view
  cases schema with
  | array name length inner => exact .inl (followed inner List.mem_cons_self)
  | slice name inner => exact .inl (followed inner List.mem_cons_self)
  | reference kind target => exact .inl (followed target List.mem_cons_self)
  | _ => exact .inr rfl

theorem Linked.ofField
    {view : View} (linked : view.Linked) {field : Field} (member : field ∈ view.fields) :
    ∃ part, view.ofField field = .ok part := by
  obtain ⟨part, follows, _⟩ := linked.follow (Schema.mem_parts_of_mem_fields member)
  exact ⟨part, follows⟩

theorem Linked.step_ne_missing
    {view : View} (linked : view.Linked) (step : Step) (name : String) :
    view.step step ≠ .error (.missingSchema name) := by
  intro failed
  unfold View.step at failed
  split at failed
  · rcases linked.elem with ⟨part, follows⟩ | mismatch
    · rw [follows] at failed
      cases failed
    · rw [mismatch] at failed
      cases failed
  · split at failed
    · cases failed
    · rename_i field found
      obtain ⟨part, follows⟩ := linked.ofField (mem_fields_of_stepField? found)
      rw [follows] at failed
      cases failed

theorem Linked.walk_ne_missing
    {view : View} (linked : view.Linked) (path : List Step) (name : String) :
    view.walk path ≠ .error (.missingSchema name) := by
  induction path generalizing view with
  | nil => exact nofun
  | cons step path induction =>
      intro failed
      unfold walk at failed
      cases taken : view.step step with
      | error error =>
          rw [taken] at failed
          cases failed
          exact linked.step_ne_missing step name taken
      | ok reached =>
          rw [taken] at failed
          cases reached with
          | none => cases failed
          | some next => exact induction (linked.step taken) failed

theorem resolved_of_linked {view : View} (linked : view.Linked) : view.Resolved where
  full := linked.full
  elem := linked.elem
  fields := fun _ member => linked.ofField member
  walk := linked.walk_ne_missing
  size := linked.failsOnlyWith_sizeWithin

end View

namespace SlotView

/-- The view shows a schema in full, its element, if it can have one, and its fields are
all there, and no path from it misses a schema.  It shows what the view by name shows,
whose measuring fails only on the data. -/
structure Resolved (types? : Option (List (TypeExpr × String))) (view : SlotView) : Prop where
  full : view.schema.shape.isPlaceholder = false
  elem : (∃ part, view.elem = .ok part) ∨
    view.elem = .error (.typeMismatch .elementHolder view.schema.shape.kind)
  fields : ∀ field ∈ view.fields, ∃ part, view.ofField field = .ok part
  walk : ∀ path name, view.walk path ≠ .error (.missingSchema name)
  sameElem : view.elem.map (shape types?) = (view.shape types?).elem
  sameFields : (view.shape types?).fields = view.fields.map SlotField.shape
  sameField : ∀ field ∈ view.fields,
    (view.ofField field).map (shape types?) = (view.shape types?).ofField field.shape
  sameWalk : ∀ path,
    (view.walk path).map (Option.map (shape types?)) = (view.shape types?).walk path
  size : ∀ bytes error, (view.shape types?).size bytes = .error error →
    error = .invalidSchemaOrData

variable {types? : Option (List (TypeExpr × String))}

theorem Linked.elem
    {view : SlotView} (linked : view.Linked) (shown : (view.shape types?).Resolved) :
    (∃ part, view.elem = .ok part) ∨
      view.elem = .error (.typeMismatch .elementHolder view.schema.shape.kind) := by
  have same : view.elem.map (shape types?) = (view.shape types?).elem := linked.map_elem
  cases taken : view.elem with
  | ok part => exact .inl ⟨part, rfl⟩
  | error error =>
      rw [taken] at same
      rcases shown.elem with ⟨part, follows⟩ | mismatch
      · rw [follows] at same
        cases same
      · rw [mismatch] at same
        cases same
        exact .inr rfl

theorem Linked.ofField
    {view : SlotView} (linked : view.Linked) (shown : (view.shape types?).Resolved)
    {field : SlotField} (member : field ∈ view.fields) : ∃ part, view.ofField field = .ok part := by
  have same : (view.ofField field).map (shape types?) = (view.shape types?).ofField field.shape :=
    linked.map_ofField member
  have shownField : field.shape ∈ (view.shape types?).fields := by
    rw [fields_shape]
    exact List.mem_map_of_mem member
  obtain ⟨part, follows⟩ := shown.fields _ shownField
  rw [follows] at same
  obtain ⟨next, taken, _⟩ := Outcome.map_eq_ok_iff.mp same
  exact ⟨next, taken⟩

theorem Linked.walk_ne_missing
    {view : SlotView} (linked : view.Linked) (shown : (view.shape types?).Resolved)
    (path : List View.Step) (name : String) : view.walk path ≠ .error (.missingSchema name) := by
  intro failed
  have same : (view.walk path).map (Option.map (shape types?)) = (view.shape types?).walk path :=
    linked.map_walk path
  rw [failed] at same
  exact shown.walk path name same.symm

theorem Linked.resolved
    {view : SlotView} (linked : view.Linked) (shown : (view.shape types?).Resolved) :
    view.Resolved types? where
  full := linked.full
  elem := linked.elem shown
  fields := fun _ member => linked.ofField shown member
  walk := linked.walk_ne_missing shown
  sameElem := linked.map_elem
  sameFields := fields_shape view
  sameField := fun _ member => linked.map_ofField member
  sameWalk := linked.map_walk
  size := shown.size

end SlotView

namespace View

/-- Linking fails exactly where a placeholder names no entry, and only for such a name.
Whatever is returned was finalized in an arena where everything is resolved, and every
view is, through slots as by name. -/
theorem resolution_complete :
    (∀ entries : Entries, entries.Distinct →
      ((∃ error, entries.finalize = .error error) ↔ ∃ name, entries.Dangling name) ∧
      (∀ error, entries.finalize = .error error →
        ∃ name, error = .missingSchema name ∧ entries.Dangling name) ∧
      ∀ types? registry, entries.link types? = .ok registry ↔
        (¬∃ name, entries.Dangling name) ∧ registry = ⟨entries.relabel.sorted, types?⟩) ∧
    ∀ registry : Registry, registry.Returned →
      (∃ arena, registry.FinalizedIn arena) ∧
      (∀ arena, registry.FinalizedIn arena →
        registry = arena.registry registry.types? ∧ arena.Resolved ∧
        ∀ view, SlotView.Reachable arena view → view.Resolved registry.types?) ∧
      ∀ view, Reachable registry view → view.Resolved := by
  constructor
  · intro entries distinct
    refine ⟨⟨?_, ?_⟩, fun error failed => distinct.finalize_eq_error failed, ?_⟩
    · intro failure
      obtain ⟨error, failed⟩ := failure
      obtain ⟨name, _, dangling⟩ := distinct.finalize_eq_error failed
      exact ⟨name, dangling⟩
    · intro dangling
      cases outcome : entries.finalize with
      | error error => exact ⟨error, rfl⟩
      | ok arena =>
          have closed := (distinct.finalize_eq_ok_iff.mp outcome).1
          exact absurd dangling (Entries.closed_iff_not_dangling.mp closed)
    · intro types? registry
      rw [← Entries.closed_iff_not_dangling]
      exact distinct.link_eq_ok_iff
  · intro registry returned
    have byName : ∀ view, Reachable registry view → view.Resolved :=
      fun view reachable => resolved_of_linked (reachable.linked returned.registered)
    refine ⟨returned.exists_arena, ?_, byName⟩
    intro arena finalizedIn
    have resolved := finalizedIn.resolved
    refine ⟨finalizedIn.eq_registry, resolved, fun view reachable => ?_⟩
    have shown : Reachable (arena.registry registry.types?) (view.shape registry.types?) :=
      reachable.shape resolved
    rw [← finalizedIn.eq_registry] at shown
    exact (reachable.linked resolved).1.resolved (byName _ shown)

/-- A node beside an entry that refers to nothing registered. -/
def strayEntries : Entries :=
  [("Node", Registry.nodeSchema),
    ("Leaf", .struct (some "Leaf") [⟨"parent", Tag.naming "Tree", .referenceTo .single "Tree"⟩])]

theorem link_strayEntries :
    (∃ name, strayEntries.finalize = .error (.missingSchema name) ∧
      strayEntries.Dangling name) ∧
    nodeView.Resolved ∧
    ∃ arena view, Registry.nodeRegistry.FinalizedIn arena ∧ arena.Resolved ∧
      arena.viewByName "Node" = .ok view ∧ view.Resolved Registry.nodeRegistry.types? := by
  obtain ⟨linking, returning⟩ := resolution_complete
  constructor
  · have distinct : strayEntries.Distinct := by
      unfold Entries.Distinct strayEntries
      decide
    have dangling : strayEntries.Dangling "Tree" := by
      refine ⟨⟨_, List.mem_cons_of_mem _ List.mem_cons_self, .struct, ?_⟩, by decide⟩
      simp [Schema.nodes, Schema.descendants, Schema.descendantsOfFields, Schema.referenceTo]
    obtain ⟨fails, reason, _⟩ := linking strayEntries distinct
    obtain ⟨error, failed⟩ := fails.mpr ⟨"Tree", dangling⟩
    obtain ⟨name, rfl, found⟩ := reason error failed
    exact ⟨name, failed, found⟩
  · have found : Registry.nodeRegistry.viewByName "Node" = .ok nodeView := rfl
    obtain ⟨⟨arena, finalizedIn⟩, through, byName⟩ :=
      returning Registry.nodeRegistry Registry.returned_nodeRegistry
    obtain ⟨same, resolved, views⟩ := through arena finalizedIn
    have shown := arena.map_viewByName resolved Registry.nodeRegistry.types? "Node"
    rw [← same, found] at shown
    obtain ⟨view, known, _⟩ := Outcome.map_eq_ok_iff.mp shown
    refine ⟨byName nodeView (.byName found), arena, view, finalizedIn, resolved, known, ?_⟩
    exact views view (SlotView.reachable_of_viewByName known)

end View

end TypedObject
