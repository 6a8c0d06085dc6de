import TypedObject.Proofs.Outcome
import TypedObject.Proofs.Schema.Nodes

/-!
# Decoding accepts exactly the encodings of well-formed schemas

No byte of an accepted encoding is ignored and no well-formed schema is refused.
The induction is on the levels that the decoder may still enter; at each level a
node makes a schema exactly when it is the written form of that schema's root.
-/

namespace TypedObject.Schema

variable {read : Bytes → Except SchemaError Schema} {acceptable : Schema → Prop}

/-- What the step from a node to a schema has to find: the conditions that are
not about counts, and acceptable schemas inside. -/
structure Admits (acceptable : Schema → Prop) (schema : Schema) : Prop where
  name_nonempty : schema.name? ≠ some ""
  sound : schema.IsSound
  inner : ∀ part, schema.inner? = some part → acceptable part

@[simp] theorem RawNode.name?_getD (node : RawNode) : node.name?.getD "" = node.name := by
  unfold RawNode.name?
  split <;> simp_all

theorem RawNode.name?_ne (node : RawNode) : node.name? ≠ some "" := by
  unfold RawNode.name?
  split <;> simp_all

theorem RawNode.name?_getD_name
    (name : Option String) (nonempty : name ≠ some "") :
    (if name.getD "" = "" then none else some (name.getD "")) = name := by
  cases name <;> simp_all

theorem ofReferenceNode_eq_ok_iff
    (nested : ReadsNested read acceptable) {kind : ReferenceKind} {node : RawNode}
    {schema : Schema} (isReference : node.reference? = some kind) :
    ofReferenceNode read kind node = .ok schema ↔
      node = schema.toNode ∧ schema.isReference = true ∧ Admits acceptable schema := by
  obtain ⟨reference?, nodeKind, name, length, fields, elem⟩ := node
  cases isReference
  constructor
  · intro made
    unfold ofReferenceNode at made
    split at made
    · cases made
    · rename_i plain
      simp only [not_or, Decidable.not_not, RawNode.isBare, Bool.and_eq_false_iff,
        Bool.not_eq_false, decide_eq_true_eq, List.isEmpty_iff] at plain
      obtain ⟨rfl, rfl, rfl, rfl⟩ := plain
      cases kind with
      | dynamic =>
          simp only [List.isEmpty_iff] at made
          split at made
          · rename_i empty
            cases made
            cases empty
            exact ⟨rfl, rfl, nofun, rfl, nofun⟩
          · cases made
      | single | slice =>
          simp only [bind, Except.bind] at made
          split at made
          · cases made
          · rename_i target outcome
            obtain ⟨accepted, rfl⟩ := (nested _ _).mp outcome
            split at made
            · rename_i standsFor
              cases made
              refine ⟨rfl, rfl, nofun, ⟨nofun, standsFor⟩, ?_⟩
              intro part same
              cases same
              exact accepted
            · cases made
  · intro found
    obtain ⟨same, isReference, nonempty, sound, inner⟩ := found
    cases schema with
    | reference kind target =>
        cases same
        obtain ⟨typed, standsFor⟩ := sound
        have outcome := (nested _ _).mpr ⟨inner target rfl, rfl⟩
        cases kind <;>
          simp_all [ofReferenceNode, RawNode.isBare, bind, Except.bind]
    | openReference kind =>
        cases same
        cases sound
        rfl
    | _ => cases isReference

/-- A scalar node has nothing but its kind and its name. -/
private theorem ofFullNode_scalar
    {node : RawNode} (scalarKind : node.kind.isScalar = true) :
    ofFullNode read node =
      if node.isLeaf then .ok (scalar node.kind node.name?) else .error .invalidEncodedSchema := by
  obtain ⟨reference?, kind, name, length, fields, elem⟩ := node
  cases kind <;> first | rfl | cases scalarKind

theorem readElem_eq_ok_iff
    (nested : ReadsNested read acceptable) {elem : Bytes} {schema : Schema} :
    readElem read elem = .ok schema ↔
      acceptable schema ∧ elem = schema.encodeNested ∧ schema.isReference = false := by
  unfold readElem
  rw [Outcome.bind_eq_ok_iff]
  simp only [nested _ _]
  constructor
  · intro found
    obtain ⟨part, ⟨accepted, rfl⟩, checked⟩ := found
    cases isReference : part.isReference with
    | true => simp [isReference] at checked
    | false =>
        simp only [isReference, Bool.false_eq_true, if_false] at checked
        cases checked
        exact ⟨accepted, rfl, isReference⟩
  · intro found
    obtain ⟨accepted, rfl, noReference⟩ := found
    exact ⟨schema, ⟨accepted, rfl⟩, by simp [noReference]⟩

theorem ofFullNode_eq_ok_iff
    (nested : ReadsNested read acceptable) {node : RawNode} {schema : Schema}
    (full : node.reference? = none) :
    ofFullNode read node = .ok schema ↔
      node = schema.toNode ∧ schema.isReference = false ∧ schema.isPlaceholder = false ∧
        Admits acceptable schema := by
  obtain ⟨reference?, kind, name, length, fields, elem⟩ := node
  cases full
  constructor
  · intro made
    cases kind with
    | reference => cases made
    | array =>
        simp only [ofFullNode, Bool.and_eq_true, List.isEmpty_iff, Bool.not_eq_true',
          List.isEmpty_eq_false_iff] at made
        split at made
        · rename_i plain
          obtain ⟨rfl, _⟩ := plain
          obtain ⟨part, partRead, same⟩ := Outcome.bind_eq_ok_iff.mp made
          cases same
          obtain ⟨accepted, rfl, noReference⟩ := (readElem_eq_ok_iff nested).mp partRead
          refine ⟨by simp [toNode], rfl, rfl, RawNode.name?_ne _, noReference, ?_⟩
          intro inner same
          cases same
          exact accepted
        · cases made
    | slice =>
        simp only [ofFullNode, RawNode.isBare, Bool.and_eq_true, List.isEmpty_iff,
          Bool.not_eq_true', List.isEmpty_eq_false_iff, decide_eq_true_eq] at made
        split at made
        · rename_i plain
          obtain ⟨⟨rfl, rfl⟩, _⟩ := plain
          obtain ⟨part, partRead, same⟩ := Outcome.bind_eq_ok_iff.mp made
          cases same
          obtain ⟨accepted, rfl, noReference⟩ := (readElem_eq_ok_iff nested).mp partRead
          refine ⟨by simp [toNode], rfl, rfl, RawNode.name?_ne _, noReference, ?_⟩
          intro inner same
          cases same
          exact accepted
        · cases made
    | struct =>
        simp only [ofFullNode, Bool.and_eq_true, List.isEmpty_iff, decide_eq_true_eq] at made
        split at made
        · rename_i plain
          obtain ⟨rfl, rfl⟩ := plain
          cases made
          exact ⟨by simp [toNode], rfl, rfl, RawNode.name?_ne _, trivial, nofun⟩
        · cases made
    | _ =>
        rw [ofFullNode_scalar rfl] at made
        simp only [RawNode.isLeaf, RawNode.isBare, Bool.and_eq_true, List.isEmpty_iff,
          decide_eq_true_eq] at made
        split at made
        · rename_i plain
          obtain ⟨⟨rfl, rfl⟩, rfl⟩ := plain
          cases made
          exact ⟨by simp [toNode], rfl, rfl, RawNode.name?_ne _, rfl, nofun⟩
        · cases made
  · intro found
    obtain ⟨same, noReference, noPlaceholder, nonempty, sound, inner⟩ := found
    cases schema with
    | scalar scalarKind scalarName =>
        cases same
        have named := RawNode.name?_getD_name scalarName nonempty
        rw [ofFullNode_scalar]
        · simp [RawNode.isLeaf, RawNode.isBare, RawNode.name?, named]
        · exact sound
    | array arrayName arrayLength part =>
        cases same
        have named := RawNode.name?_getD_name arrayName nonempty
        have partRead := (readElem_eq_ok_iff nested).mpr ⟨inner part rfl, rfl, sound⟩
        simp [ofFullNode, partRead, RawNode.name?, named, bind, Except.bind, pure, Except.pure]
    | slice sliceName part =>
        cases same
        have named := RawNode.name?_getD_name sliceName nonempty
        have partRead := (readElem_eq_ok_iff nested).mpr ⟨inner part rfl, rfl, sound⟩
        simp [ofFullNode, partRead, RawNode.name?, named, RawNode.isBare, bind, Except.bind, pure,
          Except.pure]
    | struct structName structFields =>
        cases same
        have named := RawNode.name?_getD_name structName nonempty
        simp [ofFullNode, RawNode.name?, named]
    | reference referenceKind target => cases noReference
    | openReference referenceKind => cases noReference
    | placeholder placeholderKind placeholderName => cases noPlaceholder

@[simp] theorem toNode_reference? (schema : Schema) :
    schema.toNode.reference? = schema.referenceKind? := by
  cases schema <;> rfl

@[simp] theorem toNode_name (schema : Schema) :
    schema.toNode.name = schema.name?.getD "" := by
  cases schema <;> rfl

theorem toNode_name?
    {schema : Schema} (nonempty : schema.name? ≠ some "") : schema.toNode.name? = schema.name? := by
  rw [RawNode.name?, toNode_name]
  exact RawNode.name?_getD_name schema.name? nonempty

private theorem full_of_isReference
    {schema : Schema} (isReference : schema.isReference = true) :
    schema.isPlaceholder = false ∧ schema.name? = none := by
  cases schema <;> first | exact ⟨rfl, rfl⟩ | cases isReference

/-- Below the root a name makes a node a placeholder. -/
private theorem ofNode_named_eq_ok_iff
    {node : RawNode} {name : String} {schema : Schema}
    (form : node.reference? = none) (named : node.name? = some name) :
    (if (node.isLeaf && decide (node.kind ≠ .reference)) = true then
        .ok (placeholder node.kind name)
      else .error SchemaError.invalidEncodedSchema : Except SchemaError Schema) = .ok schema ↔
      node = schema.toNode ∧ Admits acceptable schema ∧ schema.StandsBelow := by
  constructor
  · intro made
    obtain ⟨reference?, kind, nodeName, length, fields, elem⟩ := node
    cases form
    have nonempty := RawNode.name?_ne ⟨none, kind, nodeName, length, fields, elem⟩
    rw [named] at nonempty
    have sameName : nodeName = name := by
      have filled := RawNode.name?_getD ⟨none, kind, nodeName, length, fields, elem⟩
      rw [named] at filled
      exact filled.symm
    subst sameName
    split at made
    · rename_i plain
      simp only [RawNode.isLeaf, RawNode.isBare, Bool.and_eq_true, List.isEmpty_iff,
        decide_eq_true_eq] at plain
      obtain ⟨⟨⟨rfl, rfl⟩, rfl⟩, noReference⟩ := plain
      cases made
      exact ⟨rfl, ⟨nonempty, trivial, nofun⟩, .inr ⟨rfl, noReference⟩⟩
    · cases made
  · intro found
    obtain ⟨rfl, admitted, position⟩ := found
    rw [toNode_name? admitted.name_nonempty] at named
    rcases position with unnamed | ⟨standsFor, noReference⟩
    · rw [unnamed] at named
      cases named
    · cases schema with
      | placeholder kind placeholderName =>
          cases named
          have different : kind ≠ .reference := noReference
          simp [toNode, RawNode.isLeaf, RawNode.isBare, different]
      | _ => cases standsFor

theorem ofNode_eq_ok_iff
    (nested : ReadsNested read acceptable) {isRoot : Bool} {node : RawNode} {schema : Schema} :
    ofNode isRoot read node = .ok schema ↔
      node = schema.toNode ∧ Admits acceptable schema ∧
        (if isRoot then schema.isPlaceholder = false else schema.StandsBelow) := by
  unfold ofNode
  cases form : node.reference? with
  | some kind =>
      simp only [ofReferenceNode_eq_ok_iff nested form]
      constructor
      · intro found
        obtain ⟨same, isReference, admitted⟩ := found
        obtain ⟨full, unnamed⟩ := full_of_isReference isReference
        refine ⟨same, admitted, ?_⟩
        cases isRoot
        · exact .inl unnamed
        · exact full
      · intro found
        obtain ⟨rfl, admitted, _⟩ := found
        rw [toNode_reference?] at form
        exact ⟨rfl, by rw [isReference, form]; rfl, admitted⟩
  | none =>
      have noReference (same : node = schema.toNode) : schema.isReference = false := by
        rw [same, toNode_reference?] at form
        rw [isReference, form]
        rfl
      cases isRoot with
      | true =>
          simp only [ofFullNode_eq_ok_iff nested form]
          constructor
          · intro found
            obtain ⟨same, _, full, admitted⟩ := found
            exact ⟨same, admitted, full⟩
          · intro found
            obtain ⟨same, admitted, full⟩ := found
            exact ⟨same, noReference same, full, admitted⟩
      | false =>
          cases named : node.name? with
          | none =>
              simp only [ofFullNode_eq_ok_iff nested form]
              constructor
              · intro found
                obtain ⟨rfl, _, full, admitted⟩ := found
                rw [toNode_name? admitted.name_nonempty] at named
                exact ⟨rfl, admitted, .inl named⟩
              · intro found
                obtain ⟨rfl, admitted, _⟩ := found
                refine ⟨rfl, noReference rfl, ?_, admitted⟩
                rw [toNode_name? admitted.name_nonempty] at named
                cases schema <;> first | rfl | cases named
          | some name => exact ofNode_named_eq_ok_iff form named

theorem toNode_fits_iff
    {schema : Schema} :
    schema.toNode.Fits acceptable ↔
      schema.FitsCounts ∧ ∀ field ∈ schema.fields, acceptable field.schema := by
  have zero : 0 < Wire.countBound := by decide
  constructor
  · intro fits
    obtain ⟨name, length, fieldCount, fieldsFit, elem⟩ := fits
    rw [toNode_name] at name
    refine ⟨⟨name, ?_⟩, ?_⟩
    · cases schema with
      | array _ _ part => exact ⟨length, elem⟩
      | slice _ part => exact elem
      | struct _ fields => exact ⟨fieldCount, fun field member => (fieldsFit field member).2⟩
      | reference _ target => exact elem
      | _ => trivial
    · cases schema with
      | struct _ fields => exact fun field member => (fieldsFit field member).1
      | _ => exact nofun
  · intro found
    obtain ⟨⟨name, counts⟩, accepted⟩ := found
    rw [← toNode_name] at name
    cases schema with
    | array _ _ part => exact ⟨name, counts.1, zero, nofun, counts.2⟩
    | slice _ part => exact ⟨name, zero, zero, nofun, counts⟩
    | struct _ fields =>
        exact ⟨name, zero, counts.1,
          fun field member => ⟨accepted field member, counts.2 field member⟩, zero⟩
    | reference _ target => exact ⟨name, zero, zero, nofun, counts⟩
    | _ => exact ⟨name, zero, zero, nofun, zero⟩

/-- The schemas directly inside are the element and those of the fields. -/
private theorem forall_parts_iff
    {condition : Schema → Prop} {schema : Schema} :
    (∀ part ∈ schema.parts, condition part) ↔
      (∀ part, schema.inner? = some part → condition part) ∧
        ∀ field ∈ schema.fields, condition field.schema := by
  cases schema <;> simp [parts, inner?, Schema.fields]

/-- A tree is proper and shallow when its root is proper and its parts are proper and
one level shallower. -/
theorem properAt_iff_parts
    {isRoot : Bool} {schema : Schema} {levels : Nat} :
    ProperAt isRoot schema ∧ schema.depth < levels + 1 ↔
      ProperNode isRoot schema ∧
        (∀ part, schema.inner? = some part → ProperAt false part ∧ part.depth < levels) ∧
        ∀ field ∈ schema.fields, ProperAt false field.schema ∧ field.schema.depth < levels := by
  rw [properAt_iff, Nat.lt_succ_iff, depth_le_iff, and_assoc, ← forall_parts_iff]
  simp only [forall_and]

/-- Inside a node a schema may also be taken as it is written there, since a proper one
is written alike in both places. -/
private theorem readsNested_of_exact
    {levels : Nat}
    (exact : ∀ bytes schema, decodeWithin levels false bytes = .ok schema ↔
      (ProperAt false schema ∧ schema.depth < levels) ∧ bytes = schema.encode) :
    ReadsNested (decodeWithin levels false)
      (fun part => ProperAt false part ∧ part.depth < levels) := by
  intro encoded part
  rw [exact]
  apply and_congr_right
  intro accepted
  rw [accepted.1.encodeNested_eq]

theorem decodeWithin_eq_ok_iff
    (levels : Nat) {isRoot : Bool} {bytes : Bytes} {schema : Schema} :
    decodeWithin levels isRoot bytes = .ok schema ↔
      (ProperAt isRoot schema ∧ schema.depth < levels) ∧ bytes = schema.encode := by
  induction levels generalizing isRoot bytes schema with
  | zero => simp [decodeWithin]
  | succ levels induction =>
      have nested := readsNested_of_exact fun bytes schema => induction
      unfold decodeWithin
      rw [Outcome.bind_eq_ok_iff]
      simp only [Reader.whole_eq_ok_iff, exact_readNode nested _, List.append_nil,
        ofNode_eq_ok_iff nested, properAt_iff_parts]
      constructor
      · intro found
        obtain ⟨node, ⟨fits, rfl⟩, rfl, admitted, position⟩ := found
        obtain ⟨counts, fields⟩ := toNode_fits_iff.mp fits
        exact ⟨⟨⟨admitted.name_nonempty, position, admitted.sound, counts⟩, admitted.inner,
          fields⟩, (encode_eq_written schema).symm⟩
      · intro found
        obtain ⟨⟨root, inner, fields⟩, rfl⟩ := found
        exact ⟨schema.toNode, ⟨toNode_fits_iff.mpr ⟨root.fits, fields⟩, encode_eq_written schema⟩,
          rfl, ⟨root.name_nonempty, root.sound, inner⟩, root.position⟩

theorem readsNested_decodeWithin (levels : Nat) :
    ReadsNested (decodeWithin levels false)
      (fun part => ProperAt false part ∧ part.depth < levels) :=
  readsNested_of_exact fun _ _ => decodeWithin_eq_ok_iff levels

theorem decode_eq_ok_iff
    {bytes : Bytes} {schema : Schema} :
    decode bytes = .ok schema ↔
      (ProperAt true schema ∧ schema.depth ≤ nestingLimit) ∧ bytes = schema.encode := by
  unfold decode
  rw [decodeWithin_eq_ok_iff, Nat.lt_succ_iff]

/-- The decoder accepts exactly the encodings of well-formed schemas, and returns the
schema that was encoded. -/
theorem decode_eq_ok_iff_wellFormed
    (bytes : Bytes) (schema : Schema) :
    decode bytes = .ok schema ↔ bytes = schema.encode ∧ schema.WellFormed := by
  rw [decode_eq_ok_iff, ← proper_iff_properAt]
  constructor
  · intro found
    obtain ⟨⟨proper, shallow⟩, same⟩ := found
    exact ⟨same, proper, shallow⟩
  · intro found
    obtain ⟨same, proper, shallow⟩ := found
    exact ⟨⟨proper, shallow⟩, same⟩

end TypedObject.Schema
