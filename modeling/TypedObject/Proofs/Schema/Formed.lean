import TypedObject.Proofs.Schema.Shape

/-!
# Schemas whose encoding can be counted

`Formed` keeps what is asked of a proper schema except that parts can be counted.
Nothing inside an encoding is longer than the whole, so a formed schema with a
short encoding is proper, and counts need no care while schemas are built or
linked.
-/

namespace TypedObject

namespace Schema

/-- The length of an array can be counted. -/
def HasShortLength : Schema → Prop
  | array _ length _ => length < Wire.countBound
  | _ => True

/-- The conditions on one node that do not speak of its encoding. -/
structure FormedNode (isRoot : Bool) (node : Schema) : Prop where
  name_nonempty : node.name? ≠ some ""
  position : if isRoot then node.isPlaceholder = false else node.StandsBelow
  sound : node.IsSound
  short : node.HasShortLength

/-- The conditions on a tree that do not speak of its encoding. -/
def FormedAt (isRoot : Bool) (schema : Schema) : Prop :=
  FormedNode isRoot schema ∧ ∀ node ∈ schema.descendants, FormedNode false node

instance : (node : Schema) → Decidable node.HasShortLength
  | array _ length _ => inferInstanceAs (Decidable (length < Wire.countBound))
  | scalar .. | slice .. | struct .. | reference .. | openReference .. | placeholder .. =>
    .isTrue trivial

instance (isRoot : Bool) (node : Schema) : Decidable (FormedNode isRoot node) :=
  decidable_of_iff (node.name? ≠ some "" ∧
    (if isRoot then node.isPlaceholder = false else node.StandsBelow) ∧
    node.IsSound ∧ node.HasShortLength)
    ⟨fun ⟨named, position, sound, short⟩ => ⟨named, position, sound, short⟩,
      fun ⟨named, position, sound, short⟩ => ⟨named, position, sound, short⟩⟩

instance (isRoot : Bool) (schema : Schema) : Decidable (FormedAt isRoot schema) :=
  inferInstanceAs (Decidable (FormedNode isRoot schema ∧
    ∀ node ∈ schema.descendants, FormedNode false node))

theorem ProperNode.formed
    {isRoot : Bool} {node : Schema} (proper : ProperNode isRoot node) : FormedNode isRoot node := by
  refine ⟨proper.name_nonempty, proper.position, proper.sound, ?_⟩
  cases node with
  | array name length elem => exact proper.fits.2.1
  | _ => trivial

theorem ProperAt.formed
    {isRoot : Bool} {schema : Schema} (proper : ProperAt isRoot schema) :
    FormedAt isRoot schema :=
  ⟨proper.1.formed, fun node member => (proper.2 node member).formed⟩

theorem formedAt_iff
    {isRoot : Bool} {schema : Schema} :
    FormedAt isRoot schema ↔
      FormedNode isRoot schema ∧ ∀ part ∈ schema.parts, FormedAt false part := by
  rw [FormedAt, forall_descendants_iff]
  rfl

theorem length_name_le
    (referenceCode : Nat) (kind : Kind) (name : String) (length : Nat) (fields : List Bytes)
    (elem : Bytes) :
    (Bytes.ofText name).length ≤ (node referenceCode kind name length fields elem).length := by
  simp only [node, Wire.text, List.length_append, Wire.length_counted]
  omega

theorem length_elem_le
    (referenceCode : Nat) (kind : Kind) (name : String) (length : Nat) (fields : List Bytes)
    (elem : Bytes) :
    elem.length ≤ (node referenceCode kind name length fields elem).length := by
  simp only [node, List.length_append, Wire.length_counted]
  omega

theorem length_le_flatMap
    {bytes : Bytes} {parts : List Bytes} (member : bytes ∈ parts) :
    bytes.length ≤ (parts.flatMap Wire.counted).length := by
  induction parts with
  | nil => cases member
  | cons part parts induction =>
      rw [List.flatMap_cons, List.length_append, Wire.length_counted]
      rcases List.mem_cons.mp member with rfl | later
      · omega
      · have bound := induction later
        omega

theorem count_le_flatMap (parts : List Bytes) :
    parts.length ≤ (parts.flatMap Wire.counted).length := by
  induction parts with
  | nil => simp
  | cons part parts induction =>
      rw [List.flatMap_cons, List.length_append, Wire.length_counted, List.length_cons]
      omega

theorem length_fields_le
    (referenceCode : Nat) (kind : Kind) (name : String) (length : Nat) (fields : List Bytes)
    (elem : Bytes) :
    (fields.flatMap Wire.counted).length ≤
      (node referenceCode kind name length fields elem).length := by
  simp only [node, List.length_append]
  omega

theorem length_name?_le (schema : Schema) :
    (Bytes.ofText (schema.name?.getD "")).length ≤ schema.encode.length := by
  have empty : (Bytes.ofText "").length ≤ schema.encode.length := Nat.zero_le _
  cases schema with
  | reference kind target => exact empty
  | openReference kind => exact empty
  | _ => exact length_name_le _ _ _ _ _ _

theorem length_field_le
    {name : Option String} {fields : List Field} {field : Field} (member : field ∈ fields) :
    field.encode.length ≤ (struct name fields).encode.length := by
  have inside : field.encode ∈ encodeFields fields := by
    rw [encodeFields_eq_map]
    exact List.mem_map_of_mem member
  exact Nat.le_trans (length_le_flatMap inside) (length_fields_le _ _ _ _ _ _)

theorem length_fieldCount_le
    {name : Option String} {fields : List Field} :
    fields.length ≤ (struct name fields).encode.length := by
  have counted := count_le_flatMap (encodeFields fields)
  rw [length_encodeFields] at counted
  exact Nat.le_trans counted (length_fields_le _ _ _ _ _ _)

end Schema

namespace Field

theorem length_encode (field : Field) :
    field.encode.length = (4 + (Bytes.ofText field.name).length) +
      (4 + (Bytes.ofText field.tag).length) + (4 + field.schema.encodeNested.length) := by
  simp [encode, Wire.text, Nat.add_assoc]

theorem fitsCounts_of_length
    {field : Field} (short : field.encode.length < Wire.countBound) : field.FitsCounts := by
  have total := field.length_encode
  constructor
  · unfold Wire.FitsText
    omega
  · unfold Wire.FitsText
    omega
  · omega
  · exact short

end Field

namespace Schema

theorem FormedNode.fitsCounts
    {isRoot : Bool} {node : Schema} (formed : FormedNode isRoot node)
    (short : node.encode.length < Wire.countBound) : node.FitsCounts := by
  refine ⟨Nat.lt_of_le_of_lt (length_name?_le node) short, ?_⟩
  cases node with
  | array name length elem =>
      exact ⟨formed.short, Nat.lt_of_le_of_lt (length_elem_le _ _ _ _ _ _) short⟩
  | slice name elem => exact Nat.lt_of_le_of_lt (length_elem_le _ _ _ _ _ _) short
  | struct name fields =>
      refine ⟨Nat.lt_of_le_of_lt length_fieldCount_le short, fun field member => ?_⟩
      exact Field.fitsCounts_of_length (Nat.lt_of_le_of_lt (length_field_le member) short)
  | reference kind target => exact Nat.lt_of_le_of_lt (length_elem_le _ _ _ _ _ _) short
  | _ => trivial

theorem FormedNode.proper
    {isRoot : Bool} {node : Schema} (formed : FormedNode isRoot node)
    (short : node.encode.length < Wire.countBound) : ProperNode isRoot node :=
  ⟨formed.name_nonempty, formed.position, formed.sound, formed.fitsCounts short⟩

theorem FormedAt.encodeNested_eq
    {schema : Schema} (formed : FormedAt false schema) :
    schema.encodeNested = schema.encode :=
  encodeNested_eq_encode (by simpa using formed.1.position)

/-- A formed schema with a short encoding is proper. -/
theorem FormedAt.proper
    {isRoot : Bool} {schema : Schema} (formed : FormedAt isRoot schema)
    (short : schema.encode.length < Wire.countBound) : ProperAt isRoot schema := by
  induction schema using induction_parts generalizing isRoot with
  | step schema induction =>
      have root := formed.1.proper short
      obtain ⟨_, formedParts⟩ := formedAt_iff.mp formed
      refine properAt_iff.mpr ⟨root, fun part inside => ?_⟩
      have formedPart := formedParts part inside
      apply induction part inside formedPart
      rw [← formedPart.encodeNested_eq]
      exact root.fits.part inside

/-- A formed schema with a name is no reference. -/
theorem FormedAt.kind_ne_reference
    {schema : Schema} {name : String} (formed : FormedAt true schema)
    (named : schema.name? = some name) : schema.kind ≠ .reference := by
  have full : schema.isPlaceholder = false := by simpa using formed.1.position
  cases schema with
  | scalar kind name =>
      have scalarKind : kind.isScalar = true := formed.1.sound
      intro same
      cases (same : kind = .reference)
      cases scalarKind
  | reference kind target => cases named
  | openReference kind => cases named
  | placeholder kind name => cases full
  | _ => exact nofun

end Schema

end TypedObject
