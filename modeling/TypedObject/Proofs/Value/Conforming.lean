import TypedObject.Proofs.View.SizeExactness
import TypedObject.Proofs.Wire.References
import TypedObject.Value.Datum

/-!
# Data that conform to a view

A datum is encoded without looking at any schema.  It conforms to a view when it has
the shape that the schema describes and its numbers, texts and counts fit.  Then its
encoding is one of the encodings that the view has.
-/

namespace TypedObject

namespace Kind

def unsigned : List Kind := [uint8, uint16, uint32, uint64]

def signed : List Kind := [int8, int16, int32, int64]

def floats : List Kind := [float32, float64]

end Kind

/-- The view is of a scalar of the kind. -/
def View.IsScalar (view : View) (kind : Kind) : Prop :=
  ∃ name, view.schema = .scalar kind name

/-- The view is of a scalar of one of the kinds, of so many bytes. -/
def View.IsNumber (view : View) (kinds : List Kind) (width : Nat) : Prop :=
  ∃ kind ∈ kinds, kind.fixedSize? = some width ∧ view.IsScalar kind

namespace Datum

mutual

/-- The datum has the shape of the view, and what is written of it fits. -/
def Conforms : Datum → View → Prop
  | bool _, view => view.IsScalar .bool
  | unsigned width value, view =>
    value < Bytes.range width ∧ view.IsNumber Kind.unsigned width
  | signed width value, view => Bytes.FitsInt width value ∧ view.IsNumber Kind.signed width
  | float width bits, view => bits < Bytes.range width ∧ view.IsNumber Kind.floats width
  | string text, view => Wire.FitsText text ∧ view.IsScalar .string
  | slice items, view =>
    items.length < Wire.countBound ∧ (∃ name inner, view.schema = .slice name inner) ∧
      ∃ elem, view.elem = .ok elem ∧ ConformAll items (List.replicate items.length elem)
  | array items, view =>
    (∃ name inner, view.schema = .array name items.length inner) ∧
      ∃ elem, view.elem = .ok elem ∧ ConformAll items (List.replicate items.length elem)
  | struct fields, view =>
    (∃ name declared, view.schema = .struct name declared) ∧
      ∃ parts, view.fields.mapM view.ofField = .ok parts ∧ ConformAll fields parts
  | reference _, view => view.referenceKind? = some .single
  | references targets, view =>
    targets.length < Wire.countBound ∧ view.referenceKind? = some .slice
  | dynamic target, view => target.isValid = true ∧ view.referenceKind? = some .dynamic

/-- As many data as views, and each conforms to its view. -/
def ConformAll : List Datum → List View → Prop
  | [], [] => True
  | datum :: rest, part :: parts => datum.Conforms part ∧ ConformAll rest parts
  | _, _ => False

end

mutual

/-- How many steps to elements and fields lead from the datum to its innermost one. -/
def depth : Datum → Nat
  | slice items => depthOfAll items
  | array items => depthOfAll items
  | struct fields => depthOfAll fields
  | _ => 0

def depthOfAll : List Datum → Nat
  | [] => 0
  | datum :: rest => max (datum.depth + 1) (depthOfAll rest)

end

/-- Each item is encoded to an encoding of the view at its place. -/
abbrev EncodeAs (encodes : View → Bytes → Prop) (items : List Datum) (parts : List View) : Prop :=
  List.Forall₂ (fun item part => encodes part (encode item)) items parts

section Parts

variable {encodes : View → Bytes → Prop} {items : List Datum} {parts : List View}

theorem EncodeAs.encodesRun (each : EncodeAs encodes items parts) :
    View.EncodesRun encodes parts (encodeAll items) := by
  induction each with
  | nil => rfl
  | cons first _ induction => exact ⟨_, _, first, induction, rfl⟩

/-- The encoding of an item stands after those of the items before it. -/
theorem EncodeAs.exists_before
    (each : EncodeAs encodes items parts) {index : Nat} {item : Datum} {part : View} (atIndex : items[index]? = some item)
    (partAtIndex : parts[index]? = some part) :
    ∃ before after, encodeAll items = before ++ (item.encode ++ after) ∧
      View.EncodesRun encodes (parts.take index) before ∧ encodes part item.encode := by
  induction each generalizing index with
  | nil => cases atIndex
  | cons first _ induction =>
      cases index with
      | zero =>
          cases atIndex
          cases partAtIndex
          exact ⟨[], _, rfl, rfl, first⟩
      | succ index =>
          obtain ⟨before, after, split, run, found⟩ := induction atIndex partAtIndex
          refine ⟨_, after, ?_, ⟨_, before, first, run, rfl⟩, found⟩
          rw [encodeAll, split, List.append_assoc]

end Parts

theorem encodesReference_of_conforms
    {levels : Nat} {view : View} {kind : ReferenceKind} {bytes : Bytes}
    (isReference : view.referenceKind? = some kind) (encodes : View.EncodesReference kind bytes) :
    View.EncodesWithin (levels + 1) view bytes := by
  obtain ⟨registry, schema⟩ := view
  cases schema with
  | reference kind' target =>
      cases isReference
      exact encodes
  | openReference kind' =>
      cases isReference
      exact encodes
  | _ => cases isReference

theorem encodesWithin_of_isScalar
    {levels : Nat} {view : View} {kind : Kind} {bytes : Bytes} (isScalar : view.IsScalar kind)
    (encodes : View.EncodesScalar kind bytes) : View.EncodesWithin (levels + 1) view bytes := by
  obtain ⟨registry, schema⟩ := view
  obtain ⟨name, rfl⟩ := isScalar
  exact encodes

theorem encodesWithin_of_isNumber
    {levels width : Nat} {view : View} {kinds : List Kind} {bytes : Bytes}
    (isNumber : view.IsNumber kinds width) (length : bytes.length = width) :
    View.EncodesWithin (levels + 1) view bytes := by
  obtain ⟨kind, _, known, isScalar⟩ := isNumber
  apply encodesWithin_of_isScalar isScalar
  exact .inl (by rw [known, length])

mutual

/-- A conforming datum is encoded to an encoding of the view, with as many levels as
the datum has. -/
theorem encodesWithin_of_conforms
    {levels : Nat} {view : View} (datum : Datum) (conforms : datum.Conforms view)
    (within : datum.depth < levels) : View.EncodesWithin levels view datum.encode := by
  obtain _ | levels := levels
  · cases within
  cases datum with
  | bool value => exact encodesWithin_of_isScalar conforms (.inl rfl)
  | unsigned width value =>
      exact encodesWithin_of_isNumber conforms.2 (Bytes.length_ofNat width value)
  | signed width value =>
      exact encodesWithin_of_isNumber conforms.2 (Bytes.length_ofInt width value)
  | float width bits =>
      exact encodesWithin_of_isNumber conforms.2 (Bytes.length_ofNat width bits)
  | string text =>
      obtain ⟨fits, isScalar⟩ := conforms
      exact encodesWithin_of_isScalar isScalar (.inr ⟨rfl, _, fits, rfl⟩)
  | slice items =>
      obtain ⟨registry, schema⟩ := view
      obtain ⟨fits, ⟨name, inner, rfl⟩, elem, follows, conform⟩ := conforms
      have run := (encode_of_conformAll items conform (Nat.le_of_lt_succ within)).encodesRun
      exact ⟨elem, items.length, _, follows, fits, run, rfl⟩
  | array items =>
      obtain ⟨registry, schema⟩ := view
      obtain ⟨⟨name, inner, rfl⟩, elem, follows, conform⟩ := conforms
      have run := (encode_of_conformAll items conform (Nat.le_of_lt_succ within)).encodesRun
      exact ⟨elem, follows, run⟩
  | struct fields =>
      obtain ⟨registry, schema⟩ := view
      obtain ⟨⟨name, declared, rfl⟩, parts, follow, conform⟩ := conforms
      have run := (encode_of_conformAll fields conform (Nat.le_of_lt_succ within)).encodesRun
      exact ⟨parts, follow, run⟩
  | reference target => exact encodesReference_of_conforms conforms target.length_bytes
  | references targets =>
      obtain ⟨fits, isReference⟩ := conforms
      exact encodesReference_of_conforms isReference
        ⟨targets.length, _, fits, Reference.length_flatMap_bytes targets, rfl⟩
  | dynamic target =>
      apply encodesReference_of_conforms conforms.2
      simp [View.EncodesReference, encode, DynamicReference.encode, View.dynamicSize]

theorem encode_of_conformAll
    {levels : Nat} {parts : List View} (items : List Datum) (conform : ConformAll items parts)
    (within : depthOfAll items ≤ levels) :
    EncodeAs (View.EncodesWithin levels) items parts := by
  cases items with
  | nil =>
      cases parts with
      | nil => exact .nil
      | cons part parts => cases conform
  | cons item items =>
      cases parts with
      | nil => cases conform
      | cons part parts =>
          rw [depthOfAll] at within
          exact .cons (encodesWithin_of_conforms item conform.1 (by omega))
            (encode_of_conformAll items conform.2 (by omega))

end

end Datum

end TypedObject
