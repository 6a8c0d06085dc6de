import TypedObject.Proofs.Value.Leaves

/-!
# Encoded values are read back

A value is encoded without its schema, and read through its schema without knowing how
it was encoded.  The parts before a part are measured to find it, and since the sizes
are exact, the part is cut out with exactly its own bytes; then it shows the part of
the datum that was encoded there.
-/

namespace TypedObject

/-- A byte as a datum. -/
def Datum.byte (byte : UInt8) : Datum := .unsigned 1 byte.toNat

namespace Value

mutual

/-- The accessors read the datum: its content if it is a leaf, and otherwise the number
of its parts and each of them.  Of a float only the bytes are compared. -/
def Shows : Value → Datum → Prop
  | value, .bool truth => value.bool = .ok truth
  | value, .unsigned _ number => value.uint = .ok number
  | value, .signed _ number => value.int = .ok number
  | value, .float width bits => value.data = .ok (Bytes.ofNat width bits)
  | value, .string text =>
    value.length = .ok (Bytes.ofText text).length ∧ value.string = .ok text
  | value, .slice items =>
    value.length = .ok items.length ∧ ShowsEach value.index 0 items ∧
      ∀ elem, value.view.elem = .ok elem → elem.kind = .uint8 →
        ∃ content, items = content.map Datum.byte ∧ value.byteSlice = .ok content
  | value, .array items => value.length = .ok items.length ∧ ShowsEach value.index 0 items
  | value, .struct fields =>
    value.fieldCount = .ok fields.length ∧ ShowsEach value.fieldByIndex 0 fields
  | value, .reference target => value.reference = .ok target
  | value, .references targets =>
    value.length = .ok targets.length ∧ value.references = .ok targets
  | value, .dynamic target => value.dynamic = .ok target

/-- From a place on, the parts that an accessor finds show the data. -/
def ShowsEach (part : Nat → Except SchemaError Value) : (start : Nat) → List Datum → Prop
  | _, [] => True
  | start, datum :: rest =>
    (∃ found, part start = .ok found ∧ found.Shows datum) ∧ ShowsEach part (start + 1) rest

end

section Parts

open View

variable {view elem : View} {items : List Datum}

theorem size_append
    {encoded rest : Bytes} (encodes : EncodesWithin (depthLimit + 1) view encoded)
    (short : (encoded ++ rest).length < Offset.bound) :
    view.size (encoded ++ rest) = .ok encoded.length :=
  complete_sizeWithin (Nat.le_refl _) view encoded rest encodes short

theorem data_append
    {encoded rest : Bytes} (encodes : EncodesWithin (depthLimit + 1) view encoded)
    (short : (encoded ++ rest).length < Offset.bound) :
    (Value.mk view (encoded ++ rest)).data = .ok encoded := by
  refine Outcome.bind_eq_ok_iff.mpr ⟨_, size_append encodes short, ?_⟩
  rw [List.take_left]
  rfl

theorem cut_append
    {encoded rest : Bytes} (encodes : EncodesWithin (depthLimit + 1) view encoded)
    (short : (encoded ++ rest).length < Offset.bound) :
    cut view (encoded ++ rest) = .ok ⟨view, encoded⟩ := by
  refine Outcome.bind_eq_ok_iff.mpr ⟨_, size_append encodes short, ?_⟩
  rw [List.take_left]
  rfl

theorem sizeOfParts_append
    {parts : List View} {before after : Bytes}
    (run : EncodesRun (EncodesWithin (depthLimit + 1)) parts before)
    (short : (before ++ after).length < Offset.bound) :
    sizeOfParts View.size parts (before ++ after) = .ok before.length :=
  complete_sizeOfParts (complete_sizeWithin (Nat.le_refl (depthLimit + 1))) parts before after
    run short

theorem restFrom_append (before after : Bytes) :
    (Value.mk view (before ++ after)).restFrom before.length = .ok after := by
  simp [restFrom]

/-- Items of one view begin where the items before them end. -/
theorem offsetOf_append
    {index : Nat} {start before after : Bytes}
    (run : EncodesRun (EncodesWithin (depthLimit + 1)) (List.replicate index elem) before)
    (short : (start ++ before ++ after).length < Offset.bound) :
    (Value.mk view (start ++ before ++ after)).offsetOf elem index start.length =
      .ok (start ++ before).length := by
  simp only [List.length_append] at short ⊢
  have sized : ∀ item, EncodesWithin (depthLimit + 1) elem item →
      item.length < Offset.bound → Sizes elem.fixedSize? item :=
    fun item encodes shortItem => sizes_fixedSizeWithin encodes (Nat.le_refl _) shortItem
  unfold offsetOf
  cases known : elem.fixedSize? with
  | some size =>
      have length := (length_of_encodesRun_replicate run sized (by omega)).1 size known
      apply offset_eq_ok_iff.mpr
      apply Offset.ofItem?_eq_some_iff.mpr
      omega
  | none =>
      have shortRun : (before ++ after).length < Offset.bound := by
        rw [List.length_append]
        omega
      refine Outcome.bind_eq_ok_iff.mpr ⟨before.length, ?_, rfl⟩
      rw [List.append_assoc, List.drop_left, sizeOfRun_eq_sizeOfParts]
      exact sizeOfParts_append run shortRun

theorem index_of_items
    {start bytes rest : Bytes}
    (sequence : (Value.mk view bytes).sequence = .ok (elem, items.length, start.length))
    (written : bytes = start ++ Datum.encodeAll items ++ rest)
    (each : Datum.EncodeAs (EncodesWithin (depthLimit + 1)) items
      (List.replicate items.length elem))
    (short : bytes.length < Offset.bound) {index : Nat} {item : Datum}
    (atIndex : items[index]? = some item) :
    (Value.mk view bytes).index index = .ok ⟨elem, item.encode⟩ := by
  obtain ⟨inside, _⟩ := List.getElem?_eq_some_iff.mp atIndex
  have partAtIndex : (List.replicate items.length elem)[index]? = some elem := by
    rw [List.getElem?_replicate, if_pos inside]
  obtain ⟨before, after, split, run, encodes⟩ := each.exists_before atIndex partAtIndex
  rw [List.take_replicate, Nat.min_eq_left (Nat.le_of_lt inside)] at run
  have bytesSplit : bytes = start ++ before ++ (item.encode ++ (after ++ rest)) := by
    rw [written, split]
    simp only [List.append_assoc]
  subst bytesSplit
  unfold Value.index
  refine Outcome.bind_eq_ok_iff.mpr ⟨_, sequence, ?_⟩
  dsimp only
  rw [if_neg (Nat.not_le.mpr inside)]
  refine Outcome.bind_eq_ok_iff.mpr ⟨_, offsetOf_append run short, ?_⟩
  refine Outcome.bind_eq_ok_iff.mpr ⟨_, restFrom_append _ _, ?_⟩
  apply cut_append encodes
  rw [List.length_append] at short
  omega

theorem index_of_slice
    {name : Option String} {inner : Schema} (isSlice : view.schema = .slice name inner)
    (follows : view.elem = .ok elem) (fits : items.length < Wire.countBound)
    (each : Datum.EncodeAs (EncodesWithin (depthLimit + 1)) items
      (List.replicate items.length elem)) {rest : Bytes}
    (short : ((Datum.slice items).encode ++ rest).length < Offset.bound) {index : Nat}
    {item : Datum} (atIndex : items[index]? = some item) :
    (Value.mk view ((Datum.slice items).encode ++ rest)).index index =
      .ok ⟨elem, item.encode⟩ := by
  have written : (Datum.slice items).encode ++ rest =
      Wire.count items.length ++ (Datum.encodeAll items ++ rest) := List.append_assoc _ _ _
  have sequence : (Value.mk view ((Datum.slice items).encode ++ rest)).sequence =
      .ok (elem, items.length, (Wire.count items.length).length) := by
    rw [written, Wire.length_count]
    unfold Value.sequence
    rw [isSlice]
    refine Outcome.bind_eq_ok_iff.mpr ⟨_, follows, ?_⟩
    exact Outcome.bind_eq_ok_iff.mpr ⟨_, read_eq_ok (Reader.exact_count.reads fits _), rfl⟩
  exact index_of_items sequence rfl each short atIndex

theorem index_of_array
    {name : Option String} {inner : Schema}
    (isArray : view.schema = .array name items.length inner) (follows : view.elem = .ok elem)
    (each : Datum.EncodeAs (EncodesWithin (depthLimit + 1)) items
      (List.replicate items.length elem)) {rest : Bytes}
    (short : ((Datum.array items).encode ++ rest).length < Offset.bound) {index : Nat}
    {item : Datum} (atIndex : items[index]? = some item) :
    (Value.mk view ((Datum.array items).encode ++ rest)).index index =
      .ok ⟨elem, item.encode⟩ := by
  have sequence : (Value.mk view ((Datum.array items).encode ++ rest)).sequence =
      .ok (elem, items.length, ([] : Bytes).length) := by
    unfold Value.sequence
    rw [isArray]
    exact Outcome.bind_eq_ok_iff.mpr ⟨_, follows, rfl⟩
  exact index_of_items sequence rfl each short atIndex

theorem fieldByIndex_of_fields
    {fields : List Datum} {parts : List View} {rest : Bytes} (isStruct : view.kind = .struct)
    (follow : view.fields.mapM view.ofField = .ok parts)
    (each : Datum.EncodeAs (EncodesWithin (depthLimit + 1)) fields parts)
    (short : (Datum.encodeAll fields ++ rest).length < Offset.bound) {index : Nat}
    {item : Datum} {part : View} (atIndex : fields[index]? = some item)
    (partAtIndex : parts[index]? = some part) :
    (Value.mk view (Datum.encodeAll fields ++ rest)).fieldByIndex index =
      .ok ⟨part, item.encode⟩ := by
  obtain ⟨before, after, split, run, encodes⟩ := each.exists_before atIndex partAtIndex
  obtain ⟨field, found, followed, followBefore⟩ := Outcome.getElem?_of_mapM follow partAtIndex
  rw [split, List.append_assoc, List.append_assoc] at short ⊢
  have shortPart : (item.encode ++ (after ++ rest)).length < Offset.bound := by
    rw [List.length_append] at short
    omega
  have measured := sizeOfParts_append run short
  rw [← sizeOfFields_eq_sizeOfParts followBefore] at measured
  unfold fieldByIndex
  refine Outcome.bind_eq_ok_iff.mpr ⟨(), if_pos isStruct, ?_⟩
  dsimp only
  rw [found]
  refine Outcome.bind_eq_ok_iff.mpr ⟨before.length, measured, ?_⟩
  refine Outcome.bind_eq_ok_iff.mpr ⟨part, followed, ?_⟩
  refine Outcome.bind_eq_ok_iff.mpr ⟨_, restFrom_append _ _, ?_⟩
  exact cut_append encodes shortPart

end Parts

theorem kind_of_referenceKind?
    {view : View} {kind : ReferenceKind} (isReference : view.referenceKind? = some kind) :
    view.kind = .reference := by
  obtain ⟨registry, schema⟩ := view
  cases schema with
  | reference kind' target => rfl
  | openReference kind' => rfl
  | _ => cases isReference

theorem exists_byte_of_conforms
    {item : Datum} {elem : View} (conforms : item.Conforms elem) (isByte : elem.kind = .uint8) :
    ∃ byte, item = Datum.byte byte := by
  have scalarKind {kind : Kind} (isScalar : elem.IsScalar kind) : kind = .uint8 := by
    rw [← isByte]
    exact (kind_of_isScalar isScalar []).symm
  have notReference (kind : ReferenceKind) : elem.referenceKind? ≠ some kind := by
    intro isReference
    rw [kind_of_referenceKind? isReference] at isByte
    cases isByte
  obtain ⟨registry, schema⟩ := elem
  cases item with
  | bool truth => cases scalarKind conforms
  | unsigned width number =>
      obtain ⟨fits, kind, _, known, isScalar⟩ := conforms
      cases scalarKind isScalar
      cases known
      refine ⟨UInt8.ofNat number, ?_⟩
      rw [Datum.byte, UInt8.toNat_ofNat_of_lt' fits]
  | signed width number =>
      obtain ⟨_, kind, member, _, isScalar⟩ := conforms
      cases scalarKind isScalar
      simp [Kind.signed] at member
  | float width bits =>
      obtain ⟨_, kind, member, _, isScalar⟩ := conforms
      cases scalarKind isScalar
      simp [Kind.floats] at member
  | string text => cases scalarKind conforms.2
  | slice items =>
      obtain ⟨_, ⟨name, inner, rfl⟩, _⟩ := conforms
      cases isByte
  | array items =>
      obtain ⟨⟨name, inner, rfl⟩, _⟩ := conforms
      cases isByte
  | struct fields =>
      obtain ⟨⟨name, declared, rfl⟩, _⟩ := conforms
      cases isByte
  | reference target => exact absurd conforms (notReference _)
  | references targets => exact absurd conforms.2 (notReference _)
  | dynamic target => exact absurd conforms.2 (notReference _)

theorem exists_content_of_conformAll
    {items : List Datum} {elem : View} {count : Nat}
    (conform : Datum.ConformAll items (List.replicate count elem)) (isByte : elem.kind = .uint8) :
    ∃ content : Bytes, items = content.map Datum.byte := by
  induction items generalizing count with
  | nil => exact ⟨[], rfl⟩
  | cons item items induction =>
      cases count with
      | zero => cases conform
      | succ count =>
          obtain ⟨byte, rfl⟩ := exists_byte_of_conforms conform.1 isByte
          obtain ⟨content, rfl⟩ := induction conform.2
          exact ⟨byte :: content, rfl⟩

theorem encodeAll_map_byte (content : Bytes) :
    Datum.encodeAll (content.map Datum.byte) = content := by
  induction content with
  | nil => rfl
  | cons byte content induction =>
      have written : (Datum.byte byte).encode = [byte] := Bytes.ofNat_toNat [byte]
      rw [List.map_cons, Datum.encodeAll, written, induction]
      rfl

theorem byteSlice_encode
    {view elem : View} {content : Bytes} (isSlice : view.kind = .slice)
    (follows : view.elem = .ok elem) (isByte : elem.kind = .uint8)
    (fits : content.length < Wire.countBound) (rest : Bytes) :
    (Value.mk view ((Datum.slice (content.map Datum.byte)).encode ++ rest)).byteSlice =
      .ok content := by
  have written : (Datum.slice (content.map Datum.byte)).encode = Wire.counted content := by
    rw [Datum.encode, encodeAll_map_byte, List.length_map, Wire.counted]
  have kind (bytes : Bytes) : (Value.mk view bytes).kind = .slice := isSlice
  unfold byteSlice
  rw [kind, follows, written]
  dsimp only
  rw [if_pos isByte]
  exact read_eq_ok (Reader.exact_counted.reads fits rest)

mutual

/-- A conforming datum that is not too deep is shown by its encoding, whatever bytes
follow it. -/
theorem shows_of_conforms
    {view : View} (datum : Datum) (conforms : datum.Conforms view)
    (within : datum.depth ≤ View.depthLimit) (rest : Bytes)
    (short : (datum.encode ++ rest).length < Offset.bound) :
    (Value.mk view (datum.encode ++ rest)).Shows datum := by
  cases datum with
  | bool truth => exact bool_encode conforms truth rest
  | unsigned width number => exact uint_encode conforms.1 conforms.2 rest
  | signed width number => exact int_encode conforms.1 conforms.2 rest
  | float width bits =>
      have encodes := Datum.encodesWithin_of_conforms _ conforms (Nat.lt_succ_of_le within)
      exact data_append encodes short
  | string text =>
      obtain ⟨fits, isScalar⟩ := conforms
      refine ⟨?_, string_encode fits isScalar rest⟩
      exact length_of_counted fits (List.append_assoc _ _ _) (.inl isScalar)
  | slice items =>
      obtain ⟨fits, ⟨name, inner, isSlice⟩, elem, follows, conform⟩ := conforms
      have each := Datum.encode_of_conformAll items conform (Nat.le_succ_of_le within)
      refine ⟨?_, ?_, ?_⟩
      · exact length_of_counted fits (List.append_assoc _ _ _) (.inr (.inl ⟨_, _, isSlice⟩))
      · have shortItems : (Datum.encodeAll items).length < Offset.bound := by
          simp only [Datum.encode, List.length_append] at short
          omega
        apply showsEach_of_conformAll items conform within shortItems
        intro index item part atIndex partAtIndex
        cases List.eq_of_mem_replicate (List.mem_of_getElem? partAtIndex)
        rw [Nat.zero_add]
        exact index_of_slice isSlice follows fits each short atIndex
      · intro elem' follows' isByte
        cases follows.symm.trans follows'
        obtain ⟨content, rfl⟩ := exists_content_of_conformAll conform isByte
        rw [List.length_map] at fits
        refine ⟨content, rfl, byteSlice_encode ?_ follows isByte fits rest⟩
        rw [View.kind, isSlice]
        rfl
  | array items =>
      obtain ⟨⟨name, inner, isArray⟩, elem, follows, conform⟩ := conforms
      have each := Datum.encode_of_conformAll items conform (Nat.le_succ_of_le within)
      refine ⟨?_, ?_⟩
      · unfold Value.length
        rw [isArray]
      · have shortItems : (Datum.encodeAll items).length < Offset.bound := by
          simp only [Datum.encode, List.length_append] at short
          omega
        apply showsEach_of_conformAll items conform within shortItems
        intro index item part atIndex partAtIndex
        cases List.eq_of_mem_replicate (List.mem_of_getElem? partAtIndex)
        rw [Nat.zero_add]
        exact index_of_array isArray follows each short atIndex
  | struct fields =>
      obtain ⟨⟨name, declared, known⟩, parts, follow, conform⟩ := conforms
      have each := Datum.encode_of_conformAll fields conform (Nat.le_succ_of_le within)
      have isStruct : view.kind = .struct := by
        rw [View.kind, known]
        rfl
      refine ⟨?_, ?_⟩
      · refine Outcome.bind_eq_ok_iff.mpr ⟨(), if_pos isStruct, ?_⟩
        rw [← Outcome.length_of_mapM follow, ← each.length_eq]
        rfl
      · have shortFields : (Datum.encodeAll fields).length < Offset.bound := by
          simp only [Datum.encode, List.length_append] at short
          omega
        apply showsEach_of_conformAll fields conform within shortFields
        intro index item part atIndex partAtIndex
        rw [Nat.zero_add]
        exact fieldByIndex_of_fields isStruct follow each short atIndex partAtIndex
  | reference target => exact reference_encode conforms target rest
  | references targets =>
      obtain ⟨fits, isReference⟩ := conforms
      refine ⟨?_, references_encode fits isReference rest⟩
      exact length_of_counted fits (List.append_assoc _ _ _) (.inr (.inr isReference))
  | dynamic target => exact dynamic_encode conforms.1 conforms.2 rest

theorem showsEach_of_conformAll
    {parts : List View} (items : List Datum) (conform : Datum.ConformAll items parts)
    (within : Datum.depthOfAll items ≤ View.depthLimit)
    (short : (Datum.encodeAll items).length < Offset.bound)
    {part : Nat → Except SchemaError Value} {start : Nat}
    (found : ∀ index item view, items[index]? = some item → parts[index]? = some view →
      part (start + index) = .ok ⟨view, item.encode⟩) :
    ShowsEach part start items := by
  cases items with
  | nil => trivial
  | cons item items =>
      cases parts with
      | nil => cases conform
      | cons view parts =>
          rw [Datum.depthOfAll] at within
          rw [Datum.encodeAll, List.length_append] at short
          refine ⟨⟨_, found 0 item view rfl rfl, ?_⟩, ?_⟩
          · have shown := shows_of_conforms item conform.1 (by omega) []
              (by rw [List.append_nil]; omega)
            rw [List.append_nil] at shown
            exact shown
          · apply showsEach_of_conformAll items conform.2 (by omega) (by omega)
            intro index item' view' atIndex viewAtIndex
            rw [Nat.add_assoc, Nat.add_comm 1]
            exact found (index + 1) item' view' atIndex viewAtIndex

end

end Value

/-- An encoded value reads back: whatever bytes follow the encoding of a conforming
datum, its size is found, and through the accessors it shows the datum in full. -/
theorem Datum.encode_readsBack
    {view : View} {datum : Datum} (conforms : datum.Conforms view)
    (within : datum.depth ≤ View.depthLimit) (suffix : Bytes)
    (addressable : (datum.encode ++ suffix).length < Offset.bound) :
    view.size (datum.encode ++ suffix) = .ok datum.encode.length ∧
      (Value.mk view (datum.encode ++ suffix)).Shows datum := by
  constructor
  · have encodes := encodesWithin_of_conforms datum conforms (Nat.lt_succ_of_le within)
    exact Value.size_append encodes addressable
  · exact Value.shows_of_conforms datum conforms within suffix addressable

/-- A node of the sample tree that refers to the identifier of zeros. -/
def nodeDatum (item : UInt8) (children : List Datum) : Datum :=
  .struct [.byte item, .reference .blank, .slice children]

theorem nodeDatum_readsBack :
    View.nodeView.size ((nodeDatum 7 [nodeDatum 8 []]).encode ++ [9]) = .ok 74 ∧
      (Value.mk View.nodeView ((nodeDatum 7 [nodeDatum 8 []]).encode ++ [9])).Shows
        (nodeDatum 7 [nodeDatum 8 []]) := by
  have node (item : UInt8) {children : List Datum} (fits : children.length < Wire.countBound)
      (conform : Datum.ConformAll children (List.replicate children.length View.nodeView)) :
      (nodeDatum item children).Conforms View.nodeView := by
    have isByte : (Datum.byte item).Conforms ⟨Registry.nodeRegistry, .scalar .uint8 none⟩ :=
      ⟨item.toNat_lt, .uint8, by decide, rfl, none, rfl⟩
    refine ⟨⟨_, _, rfl⟩, _, rfl, isByte, rfl, ?_, trivial⟩
    exact ⟨fits, ⟨_, _, rfl⟩, View.nodeView, rfl, conform⟩
  have leaf := node 8 (by decide : [].length < Wire.countBound) trivial
  have tree := node 7 (by decide : [nodeDatum 8 []].length < Wire.countBound) ⟨leaf, trivial⟩
  exact Datum.encode_readsBack tree (by decide) [9] (by decide)

end TypedObject
