import TypedObject.Proofs.Wire.Reading
import TypedObject.Schema.Decode
import TypedObject.Schema.Encode

/-!
# Well-formed schemas

The conditions are stated node by node, without reference to the decoder: which
nodes may be named, what kind a scalar has, what a reference points at, and that
whatever is counted on the wire fits its count.  `Proper` collects them, and
`WellFormed` adds the nesting limit.
-/

namespace TypedObject

/-- A field as it stands inside the encoding of its struct. -/
def Field.encode (field : Field) : Bytes :=
  Wire.text field.name ++ Wire.text field.tag ++ Wire.counted field.schema.encodeNested

namespace Wire

/-- The UTF-8 bytes of the text can be counted. -/
def FitsText (text : String) : Prop := (Bytes.ofText text).length < countBound

instance (text : String) : Decidable (FitsText text) :=
  inferInstanceAs (Decidable ((Bytes.ofText text).length < countBound))

end Wire

/-- Every part of a field can be counted, and so can the whole. -/
structure Field.FitsCounts (field : Field) : Prop where
  name : Wire.FitsText field.name
  tag : Wire.FitsText field.tag
  schema : field.schema.encodeNested.length < Wire.countBound
  whole : field.encode.length < Wire.countBound

namespace Schema

/-- Induction over a tree in which the fields of a struct are taken all at once. -/
@[induction_eliminator]
theorem induction_nodes
    {motive : Schema → Prop}
    (scalar : ∀ kind name, motive (.scalar kind name))
    (array : ∀ name length elem, motive elem → motive (.array name length elem))
    (slice : ∀ name elem, motive elem → motive (.slice name elem))
    (struct : ∀ name fields, (∀ field ∈ fields, motive field.schema) →
      motive (.struct name fields))
    (reference : ∀ kind target, motive target → motive (.reference kind target))
    (openReference : ∀ kind, motive (.openReference kind))
    (placeholder : ∀ kind name, motive (.placeholder kind name)) (schema : Schema) :
    motive schema :=
  Schema.rec scalar array slice struct reference openReference placeholder
    (fun _ _ _ holds => holds) (fun _ member => nomatch member)
    (fun _ _ holds others => List.forall_mem_cons.mpr ⟨holds, others⟩) schema

mutual

/-- The number of levels of nodes below the root. -/
def depth : Schema → Nat
  | scalar .. | openReference .. | placeholder .. => 0
  | array _ _ elem | slice _ elem => elem.depth + 1
  | struct _ fields => depthOfFields fields
  | reference _ target => target.depth + 1

/-- List counterpart of `depth`, for the fields of one struct. -/
def depthOfFields : List Field → Nat
  | [] => 0
  | ⟨_, _, schema⟩ :: fields => max (schema.depth + 1) (depthOfFields fields)

end

mutual

/-- Every node below the root. -/
def descendants : Schema → List Schema
  | scalar .. | openReference .. | placeholder .. => []
  | array _ _ elem | slice _ elem => elem :: elem.descendants
  | struct _ fields => descendantsOfFields fields
  | reference _ target => target :: target.descendants

/-- List counterpart of `descendants`. -/
def descendantsOfFields : List Field → List Schema
  | [] => []
  | ⟨_, _, schema⟩ :: fields =>
    schema :: (schema.descendants ++ descendantsOfFields fields)

end

/-- Every node of the tree. -/
def nodes (schema : Schema) : List Schema := schema :: schema.descendants

/-- The schemas directly inside. -/
def parts : Schema → List Schema
  | array _ _ elem | slice _ elem => [elem]
  | struct _ fields => fields.map Field.schema
  | reference _ target => [target]
  | scalar .. | openReference .. | placeholder .. => []

/-- What a node may stand for below the root: a part of an anonymous type, or a
registered type that it names. -/
def StandsBelow (node : Schema) : Prop :=
  node.name? = none ∨ node.isPlaceholder = true ∧ node.kind ≠ .reference

/-- Scalars are of a scalar kind, elements are no references, and a reference has
a placeholder as its target exactly when it is not dynamic. -/
def IsSound : Schema → Prop
  | scalar kind _ => kind.isScalar = true
  | array _ _ elem | slice _ elem => elem.isReference = false
  | struct .. | placeholder .. => True
  | reference kind target => kind ≠ .dynamic ∧ target.isPlaceholder = true
  | openReference kind => kind = .dynamic

instance (node : Schema) : Decidable node.StandsBelow :=
  inferInstanceAs (Decidable (node.name? = none ∨ node.isPlaceholder = true ∧
    node.kind ≠ .reference))

instance : (node : Schema) → Decidable node.IsSound
  | scalar kind _ => inferInstanceAs (Decidable (kind.isScalar = true))
  | array _ _ elem | slice _ elem => inferInstanceAs (Decidable (elem.isReference = false))
  | struct .. | placeholder .. => .isTrue trivial
  | reference kind target =>
    inferInstanceAs (Decidable (kind ≠ .dynamic ∧ target.isPlaceholder = true))
  | openReference kind => inferInstanceAs (Decidable (kind = .dynamic))

/-- Whatever the encoding of the node counts is below 2³². -/
def FitsCounts (node : Schema) : Prop :=
  Wire.FitsText (node.name?.getD "") ∧
    match node with
    | array _ length elem =>
      length < Wire.countBound ∧ elem.encodeNested.length < Wire.countBound
    | slice _ elem => elem.encodeNested.length < Wire.countBound
    | struct _ fields =>
      fields.length < Wire.countBound ∧ ∀ field ∈ fields, field.FitsCounts
    | reference _ target => target.encodeNested.length < Wire.countBound
    | scalar .. | openReference .. | placeholder .. => True

/-- Everything that is asked of a schema written in full but the nesting limit. -/
structure Proper (schema : Schema) : Prop where
  root_full : schema.isPlaceholder = false
  names_nonempty : ∀ node ∈ schema.nodes, node.name? ≠ some ""
  nested_unnamed : ∀ node ∈ schema.descendants, node.StandsBelow
  nodes_sound : ∀ node ∈ schema.nodes, node.IsSound
  counts_fit : ∀ node ∈ schema.nodes, node.FitsCounts

/-- A schema that has an encoding which is read back. -/
structure WellFormed (schema : Schema) : Prop extends Proper schema where
  shallow : schema.depth ≤ nestingLimit

/-- The conditions on one node, at the root or below it. -/
structure ProperNode (isRoot : Bool) (node : Schema) : Prop where
  name_nonempty : node.name? ≠ some ""
  position : if isRoot then node.isPlaceholder = false else node.StandsBelow
  sound : node.IsSound
  fits : node.FitsCounts

/-- The conditions on a tree, at the root or below it. -/
def ProperAt (isRoot : Bool) (schema : Schema) : Prop :=
  ProperNode isRoot schema ∧ ∀ node ∈ schema.descendants, ProperNode false node

theorem proper_iff_properAt
    {schema : Schema} : schema.Proper ↔ ProperAt true schema := by
  constructor
  · intro proper
    have inside : ∀ node ∈ schema.descendants, node ∈ schema.nodes :=
      fun node member => List.mem_cons_of_mem _ member
    have root : schema ∈ schema.nodes := List.mem_cons_self
    refine ⟨⟨proper.names_nonempty _ root, ?_, proper.nodes_sound _ root,
      proper.counts_fit _ root⟩, ?_⟩
    · simpa using proper.root_full
    · intro node member
      refine ⟨proper.names_nonempty _ (inside _ member), ?_,
        proper.nodes_sound _ (inside _ member), proper.counts_fit _ (inside _ member)⟩
      simpa using proper.nested_unnamed _ member
  · intro found
    obtain ⟨root, below⟩ := found
    have everywhere : ∀ {condition : Schema → Prop}, condition schema →
        (∀ node ∈ schema.descendants, condition node) →
        ∀ node ∈ schema.nodes, condition node := by
      intro condition atRoot inside
      exact List.forall_mem_cons.mpr ⟨atRoot, inside⟩
    constructor
    · simpa using root.position
    · exact everywhere root.name_nonempty fun node member => (below node member).name_nonempty
    · intro node member
      simpa using (below node member).position
    · exact everywhere root.sound fun node member => (below node member).sound
    · exact everywhere root.fits fun node member => (below node member).fits

theorem mem_descendantsOfFields_iff
    {fields : List Field} {node : Schema} :
    node ∈ descendantsOfFields fields ↔ ∃ field ∈ fields, node ∈ field.schema.nodes := by
  induction fields with
  | nil => simp [descendantsOfFields]
  | cons field fields induction =>
      obtain ⟨name, tag, schema⟩ := field
      simp only [descendantsOfFields, List.mem_cons, List.mem_append, induction, exists_eq_or_imp,
        nodes, or_assoc]

theorem mem_descendants_iff
    {schema node : Schema} :
    node ∈ schema.descendants ↔ ∃ part ∈ schema.parts, node ∈ part.nodes := by
  cases schema with
  | struct name fields =>
      rw [descendants, mem_descendantsOfFields_iff]
      constructor
      · intro found
        obtain ⟨field, member, inside⟩ := found
        exact ⟨field.schema, List.mem_map_of_mem member, inside⟩
      · intro found
        obtain ⟨part, member, inside⟩ := found
        obtain ⟨field, within, rfl⟩ := List.mem_map.mp member
        exact ⟨field, within, inside⟩
  | _ => simp [descendants, parts, nodes]

theorem forall_descendants_iff
    {condition : Schema → Prop} {schema : Schema} :
    (∀ node ∈ schema.descendants, condition node) ↔
      ∀ part ∈ schema.parts, condition part ∧ ∀ node ∈ part.descendants, condition node := by
  constructor
  · intro holds part member
    exact List.forall_mem_cons.mp fun node inside =>
      holds node (mem_descendants_iff.mpr ⟨part, member, inside⟩)
  · intro holds node found
    obtain ⟨part, member, inside⟩ := mem_descendants_iff.mp found
    exact List.forall_mem_cons.mpr (holds part member) node inside

theorem properAt_iff
    {isRoot : Bool} {schema : Schema} :
    ProperAt isRoot schema ↔
      ProperNode isRoot schema ∧ ∀ part ∈ schema.parts, ProperAt false part := by
  rw [ProperAt, forall_descendants_iff]
  rfl

theorem depthOfFields_le_iff
    {fields : List Field} {levels : Nat} :
    depthOfFields fields ≤ levels ↔ ∀ field ∈ fields, field.schema.depth < levels := by
  induction fields with
  | nil => simp [depthOfFields]
  | cons field fields induction =>
      obtain ⟨name, tag, schema⟩ := field
      simp only [depthOfFields, Nat.max_le, List.forall_mem_cons, induction, Nat.succ_le_iff]

theorem depth_le_iff
    {schema : Schema} {levels : Nat} :
    schema.depth ≤ levels ↔ ∀ part ∈ schema.parts, part.depth < levels := by
  cases schema with
  | struct name fields =>
      rw [depth, depthOfFields_le_iff, parts, List.forall_mem_map]
  | array name length elem =>
      rw [depth, parts, List.forall_mem_singleton]
      rfl
  | slice name elem =>
      rw [depth, parts, List.forall_mem_singleton]
      rfl
  | reference kind target =>
      rw [depth, parts, List.forall_mem_singleton]
      rfl
  | _ => exact ⟨fun _ => nofun, fun _ => Nat.zero_le levels⟩

/-- Induction over a tree in which all parts of a schema are taken at once. -/
theorem induction_parts
    {motive : Schema → Prop}
    (step : ∀ schema, (∀ part ∈ schema.parts, motive part) → motive schema) (schema : Schema) :
    motive schema := by
  induction schema with
  | struct name fields induction =>
      apply step
      intro part member
      obtain ⟨field, inside, rfl⟩ := List.mem_map.mp member
      exact induction field inside
  | array name length elem induction => exact step _ (by simpa [parts] using induction)
  | slice name elem induction => exact step _ (by simpa [parts] using induction)
  | reference kind target induction => exact step _ (by simpa [parts] using induction)
  | _ => exact step _ nofun

theorem mem_nodes_of_mem_parts
    {schema node part : Schema} (inside : node ∈ schema.nodes) (below : part ∈ node.parts) :
    part ∈ schema.nodes := by
  induction schema using induction_parts with
  | step schema induction =>
      apply List.mem_cons_of_mem
      apply mem_descendants_iff.mpr
      rcases List.mem_cons.mp inside with rfl | deeper
      · exact ⟨part, below, List.mem_cons_self⟩
      · obtain ⟨child, member, insideChild⟩ := mem_descendants_iff.mp deeper
        exact ⟨child, member, induction child member insideChild⟩

theorem FitsCounts.part
    {schema part : Schema} (fits : schema.FitsCounts) (inside : part ∈ schema.parts) :
    part.encodeNested.length < Wire.countBound := by
  cases schema with
  | array name length elem =>
      cases List.mem_singleton.mp inside
      exact fits.2.2
  | slice name elem =>
      cases List.mem_singleton.mp inside
      exact fits.2
  | struct name fields =>
      obtain ⟨field, member, rfl⟩ := List.mem_map.mp inside
      exact (fits.2.2 field member).schema
  | reference kind target =>
      cases List.mem_singleton.mp inside
      exact fits.2
  | _ => cases inside

theorem encodeFields_eq_map (fields : List Field) :
    encodeFields fields = fields.map Field.encode := by
  induction fields with
  | nil => rfl
  | cons field fields induction =>
      obtain ⟨name, tag, schema⟩ := field
      simp [encodeFields, Field.encode, induction]

@[simp] theorem length_encodeFields (fields : List Field) :
    (encodeFields fields).length = fields.length := by
  simp [encodeFields_eq_map]

/-- Below the root every proper schema is written as it would be in full. -/
theorem encodeNested_eq_encode
    {schema : Schema} (position : schema.StandsBelow) :
    schema.encodeNested = schema.encode := by
  rcases position with unnamed | ⟨standsFor, _⟩
  · exact encodeNested_of_name?_eq_none unnamed
  · cases schema with
    | placeholder kind name => rfl
    | _ => cases standsFor

theorem ProperAt.encodeNested_eq
    {schema : Schema} (proper : ProperAt false schema) :
    schema.encodeNested = schema.encode :=
  encodeNested_eq_encode (by simpa using proper.1.position)

end Schema

end TypedObject
