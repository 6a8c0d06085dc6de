import TypedObject.Proofs.Schema.Exactness

/-!
# Schemas below the nesting limit

A schema that is proper in all other respects is refused only for its depth, and
then always as an invalid encoding: whatever stands before the node that is too
deep is read without an error.
-/

namespace TypedObject

namespace Reader

variable {α β : Type}

theorem bind_of_ok
    {reader : Reader α} {next : α → Reader β} {bytes rest : Bytes} {value : α}
    (outcome : reader bytes = (.ok value, rest)) : (reader >>= next) bytes = next value rest := by
  rw [bind_apply, outcome]

theorem bind_of_error
    {reader : Reader α} {next : α → Reader β} {bytes rest : Bytes} {error : SchemaError}
    (outcome : reader bytes = (.error error, rest)) :
    (reader >>= next) bytes = (.error error, rest) := by
  rw [bind_apply, outcome]

theorem whole_of_error
    {reader : Reader α} {bytes rest : Bytes} {error : SchemaError}
    (outcome : reader bytes = (.error error, rest)) : whole reader bytes = .error error := by
  rw [whole, outcome]

/-- The reader fails with the error on the bytes, whatever it leaves. -/
def FailsWith (reader : Reader α) (error : SchemaError) (bytes : Bytes) : Prop :=
  ∃ rest, reader bytes = (.error error, rest)

/-- Where every item is read or fails in one way, and some item fails, the whole list
fails in that way. -/
theorem times_failsWith
    {item : Reader α} (write : α → Bytes) {error : SchemaError} {values : List α}
    (each : ∀ value ∈ values, ∀ rest,
      item (write value ++ rest) = (.ok value, rest) ∨ FailsWith item error (write value ++ rest))
    (some : ∃ value ∈ values, ∀ rest, FailsWith item error (write value ++ rest)) (rest : Bytes) :
    FailsWith (times item values.length) error (values.flatMap write ++ rest) := by
  induction values with
  | nil =>
      obtain ⟨value, member, _⟩ := some
      cases member
  | cons value values induction =>
      simp only [List.length_cons, times, List.flatMap_cons, List.append_assoc]
      rcases each value List.mem_cons_self (values.flatMap write ++ rest) with read | failed
      · have later : ∃ other ∈ values, ∀ rest, FailsWith item error (write other ++ rest) := by
          obtain ⟨other, member, fails⟩ := some
          rcases List.mem_cons.mp member with rfl | inside
          · obtain ⟨left, failed⟩ := fails (values.flatMap write ++ rest)
            rw [read] at failed
            cases failed
          · exact ⟨other, inside, fails⟩
        obtain ⟨left, failed⟩ :=
          induction (fun other member => each other (List.mem_cons_of_mem _ member)) later
        exact ⟨left, by rw [bind_of_ok read, bind_of_error failed]⟩
      · obtain ⟨left, failed⟩ := failed
        exact ⟨left, bind_of_error failed⟩

end Reader

namespace Schema

variable {read : Bytes → Except SchemaError Schema} {error : SchemaError}

theorem countedField_failsWith
    {field : Field} (fits : field.FitsCounts)
    (failed : read field.schema.encodeNested = .error error) (rest : Bytes) :
    Reader.FailsWith
      (do
        let field ← Reader.counted
        Reader.lift (Reader.whole (readField read) field))
      error (Wire.counted field.encode ++ rest) := by
  have unread : readField read field.encode = (.error error, []) := by
    unfold readField Field.encode
    rw [List.append_assoc, Reader.bind_of_ok (Reader.exact_text.reads fits.name _),
      Reader.bind_of_ok (Reader.exact_text.reads fits.tag _)]
    have schemaRead := Reader.exact_counted.reads fits.schema []
    rw [List.append_nil] at schemaRead
    rw [Reader.bind_of_ok schemaRead]
    exact Reader.bind_of_error (by rw [Reader.lift_apply, failed])
  refine ⟨rest, ?_⟩
  rw [Reader.bind_of_ok (Reader.exact_counted.reads fits.whole rest), Reader.lift_apply,
    Reader.whole_of_error unread]

theorem readElem_of_error
    {elem : Bytes} (failed : read elem = .error error) : readElem read elem = .error error := by
  rw [readElem, failed]
  rfl

/-- A node is written in full at the root, and below it when it has no name. -/
private theorem ofNode_full
    {isRoot : Bool} {node : RawNode} (form : node.reference? = none)
    (position : isRoot = true ∨ node.name? = none) :
    ofNode isRoot read node = ofFullNode read node := by
  unfold ofNode
  rw [form]
  rcases position with rfl | unnamed
  · rfl
  · rw [unnamed]
    cases isRoot <;> rfl

private theorem ProperNode.unnamed
    {isRoot : Bool} {schema : Schema} (root : ProperNode isRoot schema)
    (full : schema.isPlaceholder = false) : isRoot = true ∨ schema.toNode.name? = none := by
  cases isRoot with
  | true => exact .inl rfl
  | false =>
      right
      rw [toNode_name? root.name_nonempty]
      have position : schema.StandsBelow := by simpa using root.position
      rcases position with unnamed | ⟨standsFor, _⟩
      · exact unnamed
      · rw [full] at standsFor
        cases standsFor

/-- The schema inside a node is read only after everything else was accepted. -/
theorem ofNode_toNode_of_error
    {isRoot : Bool} {schema part : Schema} (root : ProperNode isRoot schema)
    (within : schema.inner? = some part) (failed : read part.encodeNested = .error error) :
    ofNode isRoot read schema.toNode = .error error := by
  have notEmpty : part.encodeNested.isEmpty = false := by simp
  cases schema with
  | array name length elem =>
      cases within
      rw [ofNode_full rfl (root.unnamed rfl)]
      simp [ofFullNode, toNode, readElem_of_error failed, bind, Except.bind]
  | slice name elem =>
      cases within
      rw [ofNode_full rfl (root.unnamed rfl)]
      simp [ofFullNode, toNode, RawNode.isBare, readElem_of_error failed, bind, Except.bind]
  | reference kind target =>
      cases within
      obtain ⟨typed, _⟩ := root.sound
      cases kind with
      | dynamic => exact absurd rfl typed
      | _ => simp [ofNode, ofReferenceNode, toNode, RawNode.isBare, failed, bind, Except.bind]
  | _ => cases within

theorem readNode_written_of_deep
    {levels : Nat} {name : Option String} {fields : List Field}
    (fits : (struct name fields).FitsCounts)
    (proper : ∀ field ∈ fields, ProperAt false field.schema)
    (failing : ∀ field ∈ fields, levels ≤ field.schema.depth →
      decodeWithin levels false field.schema.encodeNested = .error .invalidEncodedSchema)
    (deep : ∃ field ∈ fields, levels ≤ field.schema.depth) :
    Reader.whole (readNode (decodeWithin levels false)) (struct name fields).encode =
      .error .invalidEncodedSchema := by
  obtain ⟨nameFits, countFits, fieldsFit⟩ := fits
  change Wire.FitsText (name.getD "") at nameFits
  have nested := readsNested_decodeWithin levels
  have fieldFails : ∀ field ∈ fields, levels ≤ field.schema.depth → ∀ rest,
      Reader.FailsWith
        (do
          let field ← Reader.counted
          Reader.lift (Reader.whole (readField (decodeWithin levels false)) field))
        .invalidEncodedSchema (Wire.counted field.encode ++ rest) := by
    intro field member tooDeep rest
    exact countedField_failsWith (fieldsFit field member) (failing field member tooDeep) rest
  have fieldsFail := Reader.times_failsWith (fun field : Field => Wire.counted field.encode)
    (fun field member rest => by
      by_cases shallow : field.schema.depth < levels
      · exact .inl ((exact_countedField nested).reads
          ⟨⟨proper field member, shallow⟩, fieldsFit field member⟩ rest)
      · exact .inr (fieldFails field member (Nat.le_of_not_lt shallow) rest))
    (by
      obtain ⟨field, member, tooDeep⟩ := deep
      exact ⟨field, member, fieldFails field member tooDeep⟩)
    (Wire.counted [])
  obtain ⟨rest, failed⟩ := fieldsFail
  have zero : 0 < Wire.countBound := by decide
  have codesRead : ∀ rest, readCodes (Wire.word 0 ++ Wire.word Kind.struct.code ++ rest) =
      (.ok (none, .struct), rest) :=
    fun rest => (exact_readCodes _ (none, .struct) rest).mpr ⟨trivial, rfl⟩
  have written : (struct name fields).encode =
      (Wire.word 0 ++ Wire.word Kind.struct.code) ++ (Wire.text (name.getD "") ++
        (Wire.count 0 ++ (Wire.count fields.length ++
          (fields.flatMap (fun field => Wire.counted field.encode) ++ Wire.counted [])))) := by
    simp [encode, node, encodeFields_eq_map, List.flatMap_map]
  apply Reader.whole_of_error
  unfold readNode
  rw [written, Reader.bind_of_ok (codesRead _)]
  dsimp only
  rw [Reader.bind_of_ok (Reader.exact_text.reads nameFits _),
    Reader.bind_of_ok (Reader.exact_count.reads zero _),
    Reader.bind_of_ok (Reader.exact_count.reads countFits _)]
  exact Reader.bind_of_error failed

theorem decodeWithin_encode_of_deep
    (levels : Nat) {isRoot : Bool} {schema : Schema} (proper : ProperAt isRoot schema)
    (deep : levels ≤ schema.depth) :
    decodeWithin levels isRoot schema.encode = .error .invalidEncodedSchema := by
  induction levels generalizing isRoot schema with
  | zero => rfl
  | succ levels induction =>
      have nested := readsNested_decodeWithin levels
      have deepPart : ∀ part, ProperAt false part → levels ≤ part.depth →
          decodeWithin levels false part.encodeNested = .error .invalidEncodedSchema := by
        intro part properPart tooDeep
        rw [properPart.encodeNested_eq]
        exact induction properPart tooDeep
      have deepInner : ∀ part, schema.inner? = some part → schema.fields = [] →
          ProperAt false part → levels ≤ part.depth →
          decodeWithin (levels + 1) isRoot schema.encode = .error .invalidEncodedSchema := by
        intro part within noFields properPart tooDeep
        have noFieldFails : ∀ field ∈ schema.fields,
            ProperAt false field.schema ∧ field.schema.depth < levels := by
          rw [noFields]
          exact nofun
        have nodeRead := (exact_readNode nested).reads
          (toNode_fits_iff.mpr ⟨proper.1.fits, noFieldFails⟩) []
        rw [List.append_nil, ← encode_eq_written, ← Reader.whole_eq_ok_iff] at nodeRead
        rw [decodeWithin, nodeRead]
        exact ofNode_toNode_of_error proper.1 within (deepPart part properPart tooDeep)
      have properParts := (properAt_iff.mp proper).2
      cases schema with
      | array name length elem =>
          exact deepInner elem rfl rfl (properParts elem List.mem_cons_self)
            (Nat.le_of_succ_le_succ deep)
      | slice name elem =>
          exact deepInner elem rfl rfl (properParts elem List.mem_cons_self)
            (Nat.le_of_succ_le_succ deep)
      | reference kind target =>
          exact deepInner target rfl rfl (properParts target List.mem_cons_self)
            (Nat.le_of_succ_le_succ deep)
      | struct name fields =>
          have properFields : ∀ field ∈ fields, ProperAt false field.schema :=
            fun field member => properParts field.schema (List.mem_map_of_mem member)
          have deepField : ∃ field ∈ fields, levels ≤ field.schema.depth := by
            have exceeded : ¬depthOfFields fields ≤ levels := Nat.not_le_of_gt deep
            simpa [depthOfFields_le_iff] using exceeded
          have unread := readNode_written_of_deep proper.1.fits properFields
            (fun field member => deepPart field.schema (properFields field member)) deepField
          rw [decodeWithin, unread]
          rfl
      | _ => exact absurd deep (Nat.not_succ_le_zero levels)

/-- A proper schema is refused only for its depth, and then as an invalid encoding. -/
theorem decode_encode_of_proper
    {schema : Schema} (proper : ProperAt true schema) :
    decode schema.encode =
      if schema.depth ≤ nestingLimit then .ok schema else .error .invalidEncodedSchema := by
  split
  · rename_i shallow
    exact decode_eq_ok_iff.mpr ⟨⟨proper, shallow⟩, rfl⟩
  · rename_i deep
    exact decodeWithin_encode_of_deep _ proper (Nat.not_le.mp deep)

end Schema

end TypedObject
