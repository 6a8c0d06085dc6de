import TypedObject.Proofs.Schema.Shape

/-!
# Reading one node

A node is read in two steps: first as it is written, then as the schema that it
makes.  Both steps are described once, for any function that reads the schemas
inside the node, so that the whole decoder needs only an induction over levels.
-/

namespace TypedObject.Schema

namespace RawNode

/-- The code that begins the node. -/
def referenceCode (node : RawNode) : Nat := (node.reference?.map ReferenceKind.code).getD 0

/-- The encoding of the node. -/
def written (node : RawNode) : Bytes :=
  Schema.node node.referenceCode node.kind node.name node.length (encodeFields node.fields)
    node.elem

/-- Everything that the node counts is below 2³², and its fields are acceptable. -/
structure Fits (acceptable : Schema → Prop) (node : RawNode) : Prop where
  name : Wire.FitsText node.name
  length : node.length < Wire.countBound
  fieldCount : node.fields.length < Wire.countBound
  fields : ∀ field ∈ node.fields, acceptable field.schema ∧ field.FitsCounts
  elem : node.elem.length < Wire.countBound

end RawNode

/-- A function reads the encodings of the acceptable schemas and nothing else. -/
def ReadsNested (read : Bytes → Except SchemaError Schema) (acceptable : Schema → Prop) : Prop :=
  ∀ bytes schema, read bytes = .ok schema ↔ acceptable schema ∧ bytes = schema.encodeNested

variable {read : Bytes → Except SchemaError Schema} {acceptable : Schema → Prop}

private theorem referenceCode_lt
    (reference? : Option ReferenceKind) :
    (reference?.map ReferenceKind.code).getD 0 < Wire.countBound := by
  rcases reference? with _ | _ | _ | _ <;> decide

private theorem readKind_eq_ok_iff
    {reference? : Option ReferenceKind} {codes : Option ReferenceKind × Kind}
    {bytes rest : Bytes} :
    (do
      let kindCode ← Reader.word
      match Kind.ofCode? kindCode with
      | some kind => return (reference?, kind)
      | none => Reader.fail .invalidEncodedSchema : Reader (Option ReferenceKind × Kind)) bytes =
        (.ok codes, rest) ↔
      reference? = codes.1 ∧ bytes = Wire.word codes.2.code ++ rest := by
  obtain ⟨reference', kind⟩ := codes
  rw [Reader.bind_eq_ok_iff]
  simp only [Reader.exact_word bytes]
  constructor
  · intro found
    obtain ⟨kindCode, middle, ⟨_, rfl⟩, made⟩ := found
    cases known : Kind.ofCode? kindCode with
    | none => simp [known] at made
    | some found =>
        simp only [known, Reader.pure_eq_ok_iff, Prod.mk.injEq] at made
        obtain ⟨⟨rfl, rfl⟩, rfl⟩ := made
        exact ⟨rfl, by rw [Kind.code_of_ofCode? known]⟩
  · intro found
    obtain ⟨rfl, rfl⟩ := found
    exact ⟨kind.code, rest, ⟨kind.code_lt, rfl⟩, by simp⟩

private theorem ofCode_eq_notReference
    {number : Nat} (reading : ReferenceKind.ofCode number = .notReference) : number = 0 := by
  unfold ReferenceKind.ofCode at reading
  split at reading <;> first | rfl | cases reading

theorem exact_readCodes :
    Reader.Exact readCodes (fun _ => True)
      (fun codes =>
        Wire.word ((codes.1.map ReferenceKind.code).getD 0) ++ Wire.word codes.2.code) := by
  intro bytes codes rest
  obtain ⟨reference?, kind⟩ := codes
  unfold readCodes
  rw [Reader.bind_eq_ok_iff]
  simp only [Reader.exact_word bytes, true_and]
  constructor
  · intro found
    obtain ⟨referenceCode, middle, ⟨_, rfl⟩, continued⟩ := found
    cases reading : ReferenceKind.ofCode referenceCode with
    | notReference =>
        simp only [reading] at continued
        obtain ⟨found, middle', chosen, continued⟩ := Reader.bind_eq_ok_iff.mp continued
        obtain ⟨rfl, rfl⟩ := Reader.pure_eq_ok_iff.mp chosen
        obtain ⟨rfl, rfl⟩ := readKind_eq_ok_iff.mp continued
        simp [ofCode_eq_notReference reading]
    | known referenceKind =>
        simp only [reading] at continued
        obtain ⟨found, middle', chosen, continued⟩ := Reader.bind_eq_ok_iff.mp continued
        obtain ⟨rfl, rfl⟩ := Reader.pure_eq_ok_iff.mp chosen
        obtain ⟨rfl, rfl⟩ := readKind_eq_ok_iff.mp continued
        simp [ReferenceKind.code_of_ofCode reading]
    | unknown => simp [reading] at continued
  · intro written
    rw [written]
    refine ⟨(reference?.map ReferenceKind.code).getD 0, Wire.word kind.code ++ rest,
      ⟨referenceCode_lt reference?, by simp⟩, ?_⟩
    cases reference? with
    | none =>
        exact Reader.bind_eq_ok_iff.mpr ⟨none, _, rfl, readKind_eq_ok_iff.mpr ⟨rfl, rfl⟩⟩
    | some referenceKind =>
        simp only [Option.map_some, Option.getD_some, ReferenceKind.ofCode_code]
        exact Reader.bind_eq_ok_iff.mpr
          ⟨some referenceKind, _, rfl, readKind_eq_ok_iff.mpr ⟨rfl, rfl⟩⟩

theorem exact_readField (nested : ReadsNested read acceptable) :
    Reader.Exact (readField read)
      (fun field => acceptable field.schema ∧ Wire.FitsText field.name ∧
        Wire.FitsText field.tag ∧ field.schema.encodeNested.length < Wire.countBound)
      Field.encode := by
  intro bytes field rest
  obtain ⟨name, tag, schema⟩ := field
  unfold readField
  rw [Reader.bind_eq_ok_iff]
  simp only [Reader.exact_text bytes, Reader.bind_eq_ok_iff, Reader.lift_eq_ok_iff,
    Reader.pure_eq_ok_iff, nested _ _, Field.encode]
  constructor
  · intro found
    obtain ⟨name', middle, ⟨nameFits, rfl⟩, tag', middle', tagRead, encoded, middle'', schemaRead,
      schema', middle''', ⟨⟨accepted, rfl⟩, rfl⟩, same, rfl⟩ := found
    obtain ⟨tagFits, rfl⟩ := (Reader.exact_text _ _ _).mp tagRead
    obtain ⟨schemaFits, rfl⟩ := (Reader.exact_counted _ _ _).mp schemaRead
    cases same
    exact ⟨⟨accepted, nameFits, tagFits, schemaFits⟩, by simp⟩
  · intro found
    obtain ⟨⟨accepted, nameFits, tagFits, schemaFits⟩, rfl⟩ := found
    refine ⟨name, _, ⟨nameFits, by rw [List.append_assoc, List.append_assoc]⟩, tag, _,
      Reader.exact_text.reads tagFits _, schema.encodeNested, rest,
      Reader.exact_counted.reads schemaFits rest, schema, rest, ⟨⟨accepted, rfl⟩, rfl⟩, rfl, rfl⟩

/-- A counted field, of which nothing may be left over. -/
theorem exact_countedField (nested : ReadsNested read acceptable) :
    Reader.Exact
      (do
        let field ← Reader.counted
        Reader.lift (Reader.whole (readField read) field))
      (fun field => acceptable field.schema ∧ field.FitsCounts)
      (fun field => Wire.counted field.encode) := by
  have wholeField : ∀ bytes field, Reader.whole (readField read) bytes = .ok field ↔
      (acceptable field.schema ∧ Wire.FitsText field.name ∧ Wire.FitsText field.tag ∧
        field.schema.encodeNested.length < Wire.countBound) ∧ bytes = field.encode := by
    intro bytes field
    rw [Reader.whole_eq_ok_iff, exact_readField nested, List.append_nil]
  intro bytes field rest
  rw [Reader.exact_counted_lift wholeField bytes field rest]
  apply and_congr_left
  intro _
  constructor
  · intro found
    obtain ⟨⟨accepted, nameFits, tagFits, schemaFits⟩, wholeFits⟩ := found
    exact ⟨accepted, nameFits, tagFits, schemaFits, wholeFits⟩
  · intro found
    obtain ⟨accepted, nameFits, tagFits, schemaFits, wholeFits⟩ := found
    exact ⟨⟨accepted, nameFits, tagFits, schemaFits⟩, wholeFits⟩

theorem exact_readNode (nested : ReadsNested read acceptable) :
    Reader.Exact (readNode read) (RawNode.Fits acceptable) RawNode.written := by
  intro bytes node rest
  obtain ⟨reference?, kind, name, length, fields, elem⟩ := node
  have flattened : fields.flatMap (fun field => Wire.counted field.encode) =
      (encodeFields fields).flatMap Wire.counted := by
    rw [encodeFields_eq_map, List.flatMap_map]
  unfold readNode
  rw [Reader.bind_eq_ok_iff]
  simp only [exact_readCodes bytes, Reader.bind_eq_ok_iff, Reader.pure_eq_ok_iff, true_and]
  constructor
  · intro found
    obtain ⟨⟨reference', kind'⟩, middle, rfl, name', middle', nameRead, length', middle'',
      lengthRead, fieldCount, middle''', countRead, fields', middle'''', fieldsRead, elem',
      middle''''', elemRead, same, rfl⟩ := found
    obtain ⟨nameFits, rfl⟩ := (Reader.exact_text _ _ _).mp nameRead
    obtain ⟨lengthFits, rfl⟩ := (Reader.exact_count _ _ _).mp lengthRead
    obtain ⟨countFits, rfl⟩ := (Reader.exact_count _ _ _).mp countRead
    obtain ⟨⟨rfl, fieldsFit⟩, rfl⟩ :=
      (Reader.exact_times (exact_countedField nested) _ _ _ _).mp fieldsRead
    obtain ⟨elemFits, rfl⟩ := (Reader.exact_counted _ _ _).mp elemRead
    cases same
    refine ⟨⟨nameFits, lengthFits, countFits, fieldsFit, elemFits⟩, ?_⟩
    simp [RawNode.written, RawNode.referenceCode, node, flattened]
  · intro found
    obtain ⟨⟨nameFits, lengthFits, countFits, fieldsFit, elemFits⟩, rfl⟩ := found
    refine ⟨(reference?, kind), _, ?_, name, _, Reader.exact_text.reads nameFits _, length, _,
      Reader.exact_count.reads lengthFits _, fields.length, _,
      Reader.exact_count.reads countFits _, fields, _,
      (Reader.exact_times (exact_countedField nested) _).reads ⟨rfl, fieldsFit⟩ _, elem, rest,
      Reader.exact_counted.reads elemFits rest, rfl, rfl⟩
    simp [RawNode.written, RawNode.referenceCode, node, flattened]

/-- The schema's root as it is written. -/
def toNode : Schema → RawNode
  | scalar kind name => ⟨none, kind, name.getD "", 0, [], []⟩
  | array name length elem => ⟨none, .array, name.getD "", length, [], elem.encodeNested⟩
  | slice name elem => ⟨none, .slice, name.getD "", 0, [], elem.encodeNested⟩
  | struct name fields => ⟨none, .struct, name.getD "", 0, fields, []⟩
  | reference kind target => ⟨some kind, .reference, "", 0, [], target.encodeNested⟩
  | openReference kind => ⟨some kind, .reference, "", 0, [], []⟩
  | placeholder kind name => ⟨none, kind, name, 0, [], []⟩

theorem encode_eq_written (schema : Schema) : schema.encode = schema.toNode.written := by
  cases schema <;> rfl

/-- The schema that stands in the place of an element: that of the elements of a
sequence, or the target of a reference. -/
def inner? : Schema → Option Schema
  | array _ _ elem | slice _ elem => some elem
  | reference _ target => some target
  | scalar .. | struct .. | openReference .. | placeholder .. => none

@[simp] theorem encode_ne_nil (schema : Schema) : schema.encode ≠ [] := by
  intro empty
  have length := congrArg List.length empty
  rw [encode_eq_written, RawNode.written, node] at length
  simp at length

@[simp] theorem encodeNested_ne_nil (schema : Schema) : schema.encodeNested ≠ [] := by
  cases named : schema.name? with
  | none =>
      rw [encodeNested_of_name?_eq_none named]
      exact encode_ne_nil schema
  | some name =>
      rw [encodeNested_of_name?_eq_some named]
      intro empty
      have length := congrArg List.length empty
      simp [leaf, node] at length

end TypedObject.Schema
