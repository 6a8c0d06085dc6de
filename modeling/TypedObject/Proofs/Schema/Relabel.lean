import Mathlib.Data.List.Basic
import TypedObject.Proofs.Schema.Formed

/-!
# Relabelling placeholders

Relabelling changes the kinds of placeholders and nothing else: names, levels and
the length of the encoding stay, and so does every condition on the tree as long
as no name is given the kind of a reference.
-/

namespace TypedObject.Schema

mutual

/-- The placeholders in a schema, itself included.  The fields of a struct are visited from the
last to the first. -/
def placeholders : Schema → List (Kind × String)
  | scalar .. | openReference .. => []
  | array _ _ elem => elem.placeholders
  | slice _ elem => elem.placeholders
  | struct _ fields => placeholdersOfFields fields
  | reference _ target => target.placeholders
  | placeholder kind name => [(kind, name)]

def placeholdersOfFields : List Field → List (Kind × String)
  | [] => []
  | ⟨_, _, schema⟩ :: fields => placeholdersOfFields fields ++ schema.placeholders

end

mutual

/-- Gives every placeholder the kind that `kindOf` knows for its name. -/
def relabel (kindOf : String → Option Kind) : Schema → Schema
  | scalar kind name => scalar kind name
  | array name length elem => array name length (elem.relabel kindOf)
  | slice name elem => slice name (elem.relabel kindOf)
  | struct name fields => struct name (relabelFields kindOf fields)
  | reference kind target => reference kind (target.relabel kindOf)
  | openReference kind => openReference kind
  | placeholder kind name => placeholder ((kindOf name).getD kind) name

def relabelFields (kindOf : String → Option Kind) : List Field → List Field
  | [] => []
  | ⟨name, tag, schema⟩ :: fields =>
    ⟨name, tag, schema.relabel kindOf⟩ :: relabelFields kindOf fields

end

variable {kindOf : String → Option Kind}

theorem relabelFields_eq_map (fields : List Field) :
    relabelFields kindOf fields =
      fields.map fun field => ⟨field.name, field.tag, field.schema.relabel kindOf⟩ := by
  induction fields with
  | nil => rfl
  | cons field fields induction =>
      obtain ⟨name, tag, schema⟩ := field
      simp [relabelFields, induction]

theorem placeholdersOfFields_eq_flatMap (fields : List Field) :
    placeholdersOfFields fields = fields.reverse.flatMap fun field => field.schema.placeholders := by
  induction fields with
  | nil => rfl
  | cons field fields induction =>
      obtain ⟨name, tag, schema⟩ := field
      simp [placeholdersOfFields, induction]

theorem mem_placeholdersOfFields_iff
    {fields : List Field} {mention : Kind × String} :
    mention ∈ placeholdersOfFields fields ↔
      ∃ field ∈ fields, mention ∈ field.schema.placeholders := by
  simp [placeholdersOfFields_eq_flatMap]

/-- The placeholders are those among the nodes. -/
theorem mem_placeholders_iff
    {schema : Schema} {kind : Kind} {name : String} :
    (kind, name) ∈ schema.placeholders ↔ placeholder kind name ∈ schema.nodes := by
  induction schema with
  | struct ownName fields induction =>
      rw [placeholders, mem_placeholdersOfFields_iff, nodes, descendants, List.mem_cons,
        mem_descendantsOfFields_iff]
      simp only [reduceCtorEq, false_or]
      constructor
      · intro found
        obtain ⟨field, member, inside⟩ := found
        exact ⟨field, member, (induction field member).mp inside⟩
      · intro found
        obtain ⟨field, member, inside⟩ := found
        exact ⟨field, member, (induction field member).mpr inside⟩
  | _ => simp_all [placeholders, nodes, descendants]

@[simp] theorem name?_relabel (schema : Schema) :
    (schema.relabel kindOf).name? = schema.name? := by
  cases schema <;> rfl

@[simp] theorem isPlaceholder_relabel (schema : Schema) :
    (schema.relabel kindOf).isPlaceholder = schema.isPlaceholder := by
  cases schema <;> rfl

@[simp] theorem isReference_relabel (schema : Schema) :
    (schema.relabel kindOf).isReference = schema.isReference := by
  cases schema <;> rfl

theorem kind_relabel
    {schema : Schema} (full : schema.isPlaceholder = false) :
    (schema.relabel kindOf).kind = schema.kind := by
  cases schema with
  | placeholder kind name => cases full
  | _ => rfl

/-- Relabelling changes nothing exactly when every placeholder has the kind that is
known for its name. -/
theorem relabel_eq_self_iff
    {schema : Schema} :
    schema.relabel kindOf = schema ↔
      ∀ mention ∈ schema.placeholders, (kindOf mention.2).getD mention.1 = mention.1 := by
  induction schema with
  | struct name fields induction =>
      have unchanged : relabelFields kindOf fields = fields ↔
          ∀ field ∈ fields, field.schema.relabel kindOf = field.schema := by
        rw [relabelFields_eq_map]
        constructor
        · intro same field member
          have fieldSame := List.map_inj_left.mp (same.trans (List.map_id fields).symm)
          exact congrArg Field.schema (fieldSame field member)
        · intro same
          calc
            fields.map (fun field => ⟨field.name, field.tag, field.schema.relabel kindOf⟩) =
                fields.map id := by
              apply List.map_congr_left
              intro field member
              rw [same field member]
              cases field
              rfl
            _ = fields := List.map_id fields
      rw [relabel, struct.injEq]
      simp only [placeholders, mem_placeholdersOfFields_iff, true_and, unchanged]
      constructor
      · intro same mention found
        obtain ⟨field, member, inside⟩ := found
        exact (induction field member).mp (same field member) mention inside
      · intro agree field member
        exact (induction field member).mpr
          fun mention inside => agree mention ⟨field, member, inside⟩
  | _ => simp_all [relabel, placeholders]

theorem placeholders_relabel (schema : Schema) :
    (schema.relabel kindOf).placeholders =
      schema.placeholders.map fun mention => ((kindOf mention.2).getD mention.1, mention.2) := by
  induction schema with
  | struct name fields induction =>
      simp only [relabel, placeholders, placeholdersOfFields_eq_flatMap, relabelFields_eq_map,
        ← List.map_reverse, List.flatMap_map, List.map_flatMap]
      apply List.flatMap_congr
      intro field member
      exact induction field (List.mem_reverse.mp member)
  | _ => simp_all [relabel, placeholders]

@[simp] theorem depth_relabel (schema : Schema) :
    (schema.relabel kindOf).depth = schema.depth := by
  induction schema with
  | struct name fields induction =>
      simp only [relabel, depth]
      induction fields with
      | nil => rfl
      | cons field fields tail =>
          obtain ⟨fieldName, tag, schema⟩ := field
          simp only [relabelFields, depthOfFields]
          rw [tail fun other member => induction other (List.mem_cons_of_mem _ member),
            induction _ List.mem_cons_self]
  | _ => simp_all [relabel, depth]

theorem length_node_eq
    {referenceCode : Nat} {kind kind' : Kind} {name : String} {length : Nat}
    {fields fields' : List Bytes} {elem elem' : Bytes}
    (sameFields : fields.map List.length = fields'.map List.length)
    (sameElem : elem.length = elem'.length) :
    (node referenceCode kind name length fields elem).length =
      (node referenceCode kind' name length fields' elem').length := by
  have total : ∀ parts : List Bytes,
      (parts.flatMap Wire.counted).length = ((parts.map List.length).map (4 + ·)).sum := by
    intro parts
    simp [List.length_flatMap, Function.comp_def]
  simp [node, total, sameFields, sameElem]

/-- A kind takes as many bytes as any other. -/
theorem length_encode_relabel (schema : Schema) :
    (schema.relabel kindOf).encode.length = schema.encode.length ∧
      (schema.relabel kindOf).encodeNested.length = schema.encodeNested.length := by
  induction schema with
  | scalar kind name => exact ⟨rfl, rfl⟩
  | array name length elem induction =>
      have full : (array name length (elem.relabel kindOf)).encode.length =
          (array name length elem).encode.length := length_node_eq rfl induction.2
      cases name with
      | none => exact ⟨full, full⟩
      | some name => exact ⟨full, rfl⟩
  | slice name elem induction =>
      have full : (slice name (elem.relabel kindOf)).encode.length =
          (slice name elem).encode.length := length_node_eq rfl induction.2
      cases name with
      | none => exact ⟨full, full⟩
      | some name => exact ⟨full, rfl⟩
  | struct name fields induction =>
      have lengths : (encodeFields (relabelFields kindOf fields)).map List.length =
          (encodeFields fields).map List.length := by
        simp only [relabelFields_eq_map, encodeFields_eq_map, List.map_map]
        apply List.map_congr_left
        intro field member
        simp [Field.length_encode, (induction field member).2]
      have full : (struct name (relabelFields kindOf fields)).encode.length =
          (struct name fields).encode.length := length_node_eq lengths rfl
      cases name with
      | none => exact ⟨full, full⟩
      | some name => exact ⟨full, rfl⟩
  | reference kind target induction =>
      have full : (reference kind (target.relabel kindOf)).encode.length =
          (reference kind target).encode.length := length_node_eq rfl induction.2
      exact ⟨full, full⟩
  | openReference kind => exact ⟨rfl, rfl⟩
  | placeholder kind name => exact ⟨length_node_eq rfl rfl, length_node_eq rfl rfl⟩

theorem descendants_relabel (schema : Schema) :
    (schema.relabel kindOf).descendants =
      schema.descendants.map fun node => node.relabel kindOf := by
  induction schema with
  | struct name fields induction =>
      simp only [relabel, descendants]
      induction fields with
      | nil => rfl
      | cons field fields tail =>
          obtain ⟨fieldName, tag, schema⟩ := field
          simp only [relabelFields, descendantsOfFields, List.map_cons, List.map_append]
          rw [tail fun other member => induction other (List.mem_cons_of_mem _ member),
            induction _ List.mem_cons_self]
  | _ => simp_all [relabel, descendants]

theorem FormedNode.relabel
    {isRoot : Bool} {node : Schema} (formed : FormedNode isRoot node)
    (noReference : ∀ name, kindOf name ≠ some .reference) :
    FormedNode isRoot (node.relabel kindOf) := by
  obtain ⟨nonempty, position, sound, short⟩ := formed
  constructor
  · rw [name?_relabel]
    exact nonempty
  · cases isRoot with
    | true =>
        rw [isPlaceholder_relabel]
        exact position
    | false =>
        rcases position with unnamed | ⟨standsFor, different⟩
        · left
          rw [name?_relabel]
          exact unnamed
        · right
          rw [isPlaceholder_relabel]
          refine ⟨standsFor, ?_⟩
          cases node with
          | placeholder kind name =>
              cases known : kindOf name with
              | none => simpa [Schema.relabel, known] using different
              | some found =>
                  have given := noReference name
                  rw [known] at given
                  simpa [Schema.relabel, known, Schema.kind] using given
          | _ => cases standsFor
  · cases node with
    | array name length elem =>
        rw [Schema.relabel, IsSound, isReference_relabel]
        exact sound
    | slice name elem =>
        rw [Schema.relabel, IsSound, isReference_relabel]
        exact sound
    | reference kind target =>
        rw [Schema.relabel, IsSound, isPlaceholder_relabel]
        exact sound
    | _ => exact sound
  · cases node <;> exact short

theorem FormedAt.relabel
    {isRoot : Bool} {schema : Schema} (formed : FormedAt isRoot schema)
    (noReference : ∀ name, kindOf name ≠ some .reference) :
    FormedAt isRoot (schema.relabel kindOf) := by
  refine ⟨formed.1.relabel noReference, ?_⟩
  rw [descendants_relabel]
  intro node member
  obtain ⟨before, inside, rfl⟩ := List.mem_map.mp member
  exact (formed.2 before inside).relabel noReference

end TypedObject.Schema
