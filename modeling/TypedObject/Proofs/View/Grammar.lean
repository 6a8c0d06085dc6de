import TypedObject.Proofs.Wire.Reading
import TypedObject.View.Size

/-!
# The encodings of values

Which byte strings encode a value of a view, whatever the value is.  The grammar
follows the schema and knows nothing of sizes and limits; the levels it counts are
those of values inside values, since a schema may contain itself.  No encoding is
the beginning of another encoding for the same view.
-/

namespace TypedObject.View

/-- A scalar of a fixed width is any bytes of that width; a string is any counted
bytes. -/
def EncodesScalar (kind : Kind) (bytes : Bytes) : Prop :=
  kind.fixedSize? = some bytes.length ∨
    kind = .string ∧
      ∃ content : Bytes, content.length < Wire.countBound ∧ bytes = Wire.counted content

/-- A reference is one identifier, a dynamic one is two, and a list of references is
a count and as many identifiers. -/
def EncodesReference : ReferenceKind → Bytes → Prop
  | .single, bytes => bytes.length = referenceSize
  | .dynamic, bytes => bytes.length = dynamicSize
  | .slice, bytes =>
    ∃ count identifiers, count < Wire.countBound ∧
      List.length identifiers = count * referenceSize ∧ bytes = Wire.count count ++ identifiers

/-- Encodings for the parts, one after the other. -/
def EncodesRun (encodes : View → Bytes → Prop) : List View → Bytes → Prop
  | [], bytes => bytes = []
  | part :: parts, bytes =>
    ∃ first others, encodes part first ∧ EncodesRun encodes parts others ∧ bytes = first ++ others

/-- The bytes encode a value of the view in which there are at most `levels` levels of
values: the value itself, its elements and fields, their elements and fields, and so
on. -/
def EncodesWithin : (levels : Nat) → View → Bytes → Prop
  | 0, _, _ => False
  | levels + 1, view, bytes =>
    match view.schema with
    | .scalar kind _ => EncodesScalar kind bytes
    | .reference kind _ | .openReference kind => EncodesReference kind bytes
    | .slice _ _ =>
      ∃ elem count items, view.elem = .ok elem ∧ count < Wire.countBound ∧
        EncodesRun (EncodesWithin levels) (List.replicate count elem) items ∧
        bytes = Wire.count count ++ items
    | .array _ length _ =>
      ∃ elem, view.elem = .ok elem ∧
        EncodesRun (EncodesWithin levels) (List.replicate length elem) bytes
    | .struct _ fields =>
      ∃ parts, fields.mapM view.ofField = .ok parts ∧
        EncodesRun (EncodesWithin levels) parts bytes
    | .placeholder _ _ => False

/-- The bytes encode a value of the view. -/
def Encodes (view : View) (bytes : Bytes) : Prop := ∃ levels, EncodesWithin levels view bytes

theorem EncodesRun.mono
    {encodes encodes' : View → Bytes → Prop} {parts : List View} {bytes : Bytes}
    (run : EncodesRun encodes parts bytes)
    (weaker : ∀ part bytes, encodes part bytes → encodes' part bytes) :
    EncodesRun encodes' parts bytes := by
  induction parts generalizing bytes with
  | nil => exact run
  | cons part parts induction =>
      obtain ⟨first, others, encodesFirst, encodesOthers, same⟩ := run
      exact ⟨first, others, weaker part first encodesFirst, induction encodesOthers, same⟩

theorem EncodesWithin.mono
    {levels levels' : Nat} {view : View} {bytes : Bytes}
    (encodes : EncodesWithin levels view bytes) (more : levels ≤ levels') :
    EncodesWithin levels' view bytes := by
  induction levels generalizing levels' view bytes with
  | zero => cases encodes
  | succ levels induction =>
      cases levels' with
      | zero => cases more
      | succ levels' =>
          have weaker : ∀ part bytes, EncodesWithin levels part bytes →
              EncodesWithin levels' part bytes :=
            fun part bytes inner => induction inner (Nat.le_of_succ_le_succ more)
          obtain ⟨registry, schema⟩ := view
          cases schema with
          | scalar kind name => exact encodes
          | reference kind target => exact encodes
          | openReference kind => exact encodes
          | slice name inner =>
              obtain ⟨elem, count, items, follows, fits, run, same⟩ := encodes
              exact ⟨elem, count, items, follows, fits, run.mono weaker, same⟩
          | array name length inner =>
              obtain ⟨elem, follows, run⟩ := encodes
              exact ⟨elem, follows, run.mono weaker⟩
          | struct name fields =>
              obtain ⟨parts, follow, run⟩ := encodes
              exact ⟨parts, follow, run.mono weaker⟩
          | placeholder kind name => cases encodes

/-- No encoding is the beginning of another one for the same view. -/
def PrefixFree (encodes : Bytes → Prop) : Prop :=
  ∀ first second rest rest' : Bytes, encodes first → encodes second →
    first ++ rest = second ++ rest' → first = second

theorem prefixFree_of_length
    {encodes : Bytes → Prop} {length : Nat} (fixed : ∀ bytes, encodes bytes → bytes.length = length) :
    PrefixFree encodes := by
  intro first second rest rest' encodesFirst encodesSecond same
  apply List.append_inj_left same
  rw [fixed first encodesFirst, fixed second encodesSecond]

theorem prefixFree_scalar (kind : Kind) : PrefixFree (EncodesScalar kind) := by
  cases width : kind.fixedSize? with
  | some length =>
      have fixedLength : ∀ bytes, EncodesScalar kind bytes → bytes.length = length := by
        intro bytes encodes
        rcases encodes with fixed | ⟨rfl, _⟩
        · rw [width] at fixed
          exact (Option.some.inj fixed).symm
        · cases width
      exact prefixFree_of_length fixedLength
  | none =>
      intro first second rest rest' encodesFirst encodesSecond same
      rcases encodesFirst with fixed | ⟨_, content, fits, rfl⟩
      · rw [width] at fixed
        cases fixed
      · rcases encodesSecond with fixed | ⟨_, content', fits', rfl⟩
        · rw [width] at fixed
          cases fixed
        · rw [(Reader.exact_counted.unambiguous fits fits' same).1]

theorem prefixFree_reference (kind : ReferenceKind) : PrefixFree (EncodesReference kind) := by
  cases kind with
  | single => exact prefixFree_of_length fun _ length => length
  | dynamic => exact prefixFree_of_length fun _ length => length
  | slice =>
      intro first second rest rest' encodesFirst encodesSecond same
      obtain ⟨count, identifiers, fits, length, rfl⟩ := encodesFirst
      obtain ⟨count', identifiers', fits', length', rfl⟩ := encodesSecond
      rw [List.append_assoc, List.append_assoc] at same
      obtain ⟨rfl, sameRest⟩ := Reader.exact_count.unambiguous fits fits' same
      rw [List.append_inj_left sameRest (length.trans length'.symm)]

theorem prefixFree_run
    {encodes : View → Bytes → Prop} (each : ∀ part, PrefixFree (encodes part))
    (parts : List View) : PrefixFree (EncodesRun encodes parts) := by
  induction parts with
  | nil =>
      intro first second rest rest' encodesFirst encodesSecond same
      exact encodesFirst.trans encodesSecond.symm
  | cons part parts induction =>
      intro first second rest rest' encodesFirst encodesSecond same
      obtain ⟨head, others, encodesHead, encodesOthers, rfl⟩ := encodesFirst
      obtain ⟨head', others', encodesHead', encodesOthers', rfl⟩ := encodesSecond
      rw [List.append_assoc, List.append_assoc] at same
      have sameHead := each part _ _ _ _ encodesHead encodesHead' same
      rw [sameHead] at same ⊢
      rw [induction _ _ _ _ encodesOthers encodesOthers' (List.append_cancel_left same)]

theorem prefixFree_encodesWithin (levels : Nat) (view : View) :
    PrefixFree (EncodesWithin levels view) := by
  induction levels generalizing view with
  | zero => exact fun _ _ _ _ encodesFirst => nomatch encodesFirst
  | succ levels induction =>
      have runs := prefixFree_run induction
      obtain ⟨registry, schema⟩ := view
      cases schema with
      | scalar kind name => exact prefixFree_scalar kind
      | reference kind target => exact prefixFree_reference kind
      | openReference kind => exact prefixFree_reference kind
      | slice name inner =>
          intro first second rest rest' encodesFirst encodesSecond same
          obtain ⟨elem, count, items, follows, fits, run, rfl⟩ := encodesFirst
          obtain ⟨elem', count', items', follows', fits', run', rfl⟩ := encodesSecond
          rw [follows] at follows'
          cases follows'
          rw [List.append_assoc, List.append_assoc] at same
          obtain ⟨rfl, sameItems⟩ := Reader.exact_count.unambiguous fits fits' same
          rw [runs _ _ _ _ _ run run' sameItems]
      | array name length inner =>
          intro first second rest rest' encodesFirst encodesSecond same
          obtain ⟨elem, follows, run⟩ := encodesFirst
          obtain ⟨elem', follows', run'⟩ := encodesSecond
          rw [follows] at follows'
          cases follows'
          exact runs _ _ _ _ _ run run' same
      | struct name fields =>
          intro first second rest rest' encodesFirst encodesSecond same
          obtain ⟨parts, follow, run⟩ := encodesFirst
          obtain ⟨parts', follow', run'⟩ := encodesSecond
          rw [follow] at follow'
          cases follow'
          exact runs _ _ _ _ _ run run' same
      | placeholder kind name => exact fun _ _ _ _ encodesFirst => nomatch encodesFirst

theorem Encodes.prefixFree (view : View) : PrefixFree view.Encodes := by
  intro first second rest rest' encodesFirst encodesSecond same
  obtain ⟨levels, within⟩ := encodesFirst
  obtain ⟨levels', within'⟩ := encodesSecond
  exact prefixFree_encodesWithin (max levels levels') view _ _ _ _
    (within.mono (Nat.le_max_left _ _)) (within'.mono (Nat.le_max_right _ _)) same

end TypedObject.View
