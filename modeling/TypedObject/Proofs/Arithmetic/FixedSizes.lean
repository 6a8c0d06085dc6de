import TypedObject.Proofs.Arithmetic.Basic

/-!
# Fixed sizes beyond the words

A fixed size is found by multiplying and adding, and no bytes are looked at.  Words
refuse what they cannot hold, so they find just those sizes of the integers that are
words.  A size that is no word is still that of every encoding, of which there are then
none that words can measure.
-/

namespace TypedObject.Arithmetic

open View (depthLimit)

/-- The sum of the sizes of parts, added to a total.  A part whose view is missing has
no size. -/
def sumOfParts (arithmetic : Arithmetic) (fixed : View → Option Nat) :
    (total : Nat) → List (Except SchemaError View) → Option Nat
  | total, [] => some total
  | total, part :: parts => do
    let view ← part.toOption
    let size ← fixed view
    let total ← arithmetic.sum? total size
    sumOfParts arithmetic fixed total parts

/-- The size of every value of a schema, when the bytes do not matter, over `levels` levels. -/
def fixedSizeWithin (arithmetic : Arithmetic) : (levels : Nat) → View → Option Nat
  | 0, _ => none
  | levels + 1, view =>
    match view.schema with
    | .scalar kind _ => kind.fixedSize?
    | .reference kind _ | .openReference kind => View.fixedReferenceSize? kind
    | .array _ length _ =>
      if length = 0 then some 0
      else do
        let elem ← view.elem.toOption
        let size ← fixedSizeWithin arithmetic levels elem
        arithmetic.product? size length
    | .struct _ fields =>
      arithmetic.sumOfParts (fixedSizeWithin arithmetic levels) 0 (fields.map view.ofField)
    | _ => none

def fixedSize? (arithmetic : Arithmetic) (view : View) : Option Nat :=
  arithmetic.fixedSizeWithin (depthLimit + 1) view

theorem sumOfParts_map_cons
    (arithmetic : Arithmetic) (fixed : View → Option Nat) (total : Nat) (part : View)
    (parts : List View) :
    arithmetic.sumOfParts fixed total ((part :: parts).map .ok) =
      (fixed part).bind fun size => (arithmetic.sum? total size).bind fun sum =>
        arithmetic.sumOfParts fixed sum (parts.map .ok) :=
  rfl

theorem fixedSizeWithin_array
    (arithmetic : Arithmetic) {levels length : Nat} {registry : Registry} {name : Option String}
    {inner : Schema} {elem : View} (follows : View.follow registry inner = .ok elem) :
    arithmetic.fixedSizeWithin (levels + 1) ⟨registry, .array name length inner⟩ =
      if length = 0 then some 0
      else (arithmetic.fixedSizeWithin levels elem).bind fun size =>
        arithmetic.product? size length := by
  change (if length = 0 then some 0 else do
    let elem ← (View.follow registry inner).toOption
    let size ← arithmetic.fixedSizeWithin levels elem
    arithmetic.product? size length) = _
  rw [follows]
  rfl

theorem fixedSizeWithin_struct
    (arithmetic : Arithmetic) {levels : Nat} {registry : Registry} {name : Option String}
    {fields : List Field} {parts : List View}
    (followFields : fields.mapM (View.ofField ⟨registry, .struct name fields⟩) = .ok parts) :
    arithmetic.fixedSizeWithin (levels + 1) ⟨registry, .struct name fields⟩ =
      arithmetic.sumOfParts (arithmetic.fixedSizeWithin levels) 0 (parts.map .ok) := by
  rw [← Outcome.map_eq_of_mapM followFields]
  rfl

theorem words_sumOfParts
    {fixed fixed' : View → Option Nat} {parts : List View}
    (each : ∀ part ∈ parts, fixed' part = fixed part) (total : Nat) :
    words.sumOfParts fixed' total (parts.map .ok) = View.sumOfParts fixed total parts := by
  induction parts generalizing total with
  | nil => rfl
  | cons part parts induction =>
      obtain ⟨eachFirst, eachLater⟩ := List.forall_mem_cons.mp each
      rw [sumOfParts_map_cons, View.sumOfParts_cons, eachFirst]
      simp only [induction eachLater]
      rfl

/-- Words find the sizes that views have. -/
theorem words_fixedSizeWithin
    {levels : Nat} {view : View} (linked : view.Linked) :
    words.fixedSizeWithin levels view = View.fixedSizeWithin levels view := by
  induction levels generalizing view with
  | zero => rfl
  | succ levels induction =>
      obtain ⟨registry, schema⟩ := view
      cases schema with
      | reference kind target => exact (View.fixedSizeWithin_reference _ _ _ _).symm
      | openReference kind => exact (View.fixedSizeWithin_openReference _ _ _).symm
      | array name length inner =>
          obtain ⟨elem, follows, linkedElem⟩ := linked.follow List.mem_cons_self
          rw [View.fixedSizeWithin_array follows, fixedSizeWithin_array words follows,
            induction linkedElem]
          rfl
      | struct name fields =>
          obtain ⟨parts, followFields, linkedParts⟩ := linked.fields
          change fields.mapM (View.ofField ⟨registry, .struct name fields⟩) = .ok parts
            at followFields
          rw [View.fixedSizeWithin_struct followFields, fixedSizeWithin_struct words followFields]
          exact words_sumOfParts (fun part member => induction (linkedParts part member)) 0
      | _ => rfl

namespace Faithful

variable {arithmetic : Arithmetic} (faithful : arithmetic.Faithful)

include faithful

theorem le_of_sumOfParts
    {fixed : View → Option Nat} {total sum : Nat} {parts : List (Except SchemaError View)}
    (summed : arithmetic.sumOfParts fixed total parts = some sum) : total ≤ sum := by
  induction parts generalizing total with
  | nil =>
      cases summed
      exact Nat.le_refl _
  | cons part parts induction =>
      simp only [sumOfParts, Option.bind_eq_bind, Option.bind_eq_some_iff] at summed
      obtain ⟨view, _, size, _, next, added, later⟩ := summed
      obtain rfl := faithful.sum_eq added
      exact Nat.le_trans (Nat.le_add_right _ _) (induction later)

/-- A sum that starts beyond the words is no word. -/
theorem ofNat?_sumOfParts_of_ge
    {total : Nat} (large : Offset.bound ≤ total) (fixed : View → Option Nat)
    (parts : List (Except SchemaError View)) :
    (arithmetic.sumOfParts fixed total parts).bind Offset.ofNat? = none := by
  cases summed : arithmetic.sumOfParts fixed total parts with
  | none => rfl
  | some sum =>
      have bound := faithful.le_of_sumOfParts summed
      exact if_neg (by omega)

theorem sumOfParts_eq
    {fixed fixed' : View → Option Nat} {parts : List View}
    (each : ∀ part ∈ parts, fixed part = (fixed' part).bind Offset.ofNat?)
    {total : Nat} (small : total < Offset.bound) :
    View.sumOfParts fixed total parts =
      (arithmetic.sumOfParts fixed' total (parts.map .ok)).bind Offset.ofNat? := by
  induction parts generalizing total with
  | nil => exact (if_pos small).symm
  | cons part parts induction =>
      obtain ⟨eachFirst, eachLater⟩ := List.forall_mem_cons.mp each
      rw [View.sumOfParts_cons, eachFirst, sumOfParts_map_cons]
      cases fixed' part with
      | none => rfl
      | some size =>
          rw [Option.bind_some, Option.bind_some]
          by_cases fits : total + size < Offset.bound
          · have known : Offset.ofNat? size = some size := if_pos (by omega)
            have added : Offset.add? total size = some (total + size) := if_pos fits
            rw [known, Option.bind_some, added, Option.bind_some, induction eachLater fits]
            cases sum : arithmetic.sum? total size with
            | none => exact absurd (faithful.sum_none sum) (Nat.not_le.mpr fits)
            | some next =>
                obtain rfl := faithful.sum_eq sum
                rfl
          · have refused : ((Offset.ofNat? size).bind fun size =>
                (Offset.add? total size).bind fun sum => View.sumOfParts fixed sum parts) = none := by
              unfold Offset.ofNat?
              split
              · rw [Option.bind_some, Offset.add?, Offset.ofNat?, if_neg fits]
                rfl
              · rfl
            rw [refused]
            cases sum : arithmetic.sum? total size with
            | none => rfl
            | some next =>
                obtain rfl := faithful.sum_eq sum
                exact (faithful.ofNat?_sumOfParts_of_ge (Nat.le_of_not_lt fits) _ _).symm

/-- A product with a number that is no word is none either. -/
theorem mul?_ofNat?
    {length : Nat} (positive : 0 < length) (size : Nat) :
    ((Offset.ofNat? size).bind fun size => Offset.mul? size length) =
      (arithmetic.product? size length).bind Offset.ofNat? := by
  have product : (arithmetic.product? size length).bind Offset.ofNat? =
      Offset.ofNat? (size * length) := by
    cases found : arithmetic.product? size length with
    | none => exact (if_neg (Nat.not_lt.mpr (faithful.product_none found))).symm
    | some product =>
        obtain rfl := faithful.product_eq found
        rfl
  rw [product]
  by_cases small : size < Offset.bound
  · rw [Offset.ofNat?, if_pos small]
    rfl
  · have larger := Nat.le_mul_of_pos_right size positive
    rw [Offset.ofNat?, if_neg small, Offset.ofNat?, if_neg (by omega)]
    rfl

theorem fixedSizeWithin_eq
    {levels : Nat} {view : View} (linked : view.Linked) :
    View.fixedSizeWithin levels view =
      (arithmetic.fixedSizeWithin levels view).bind Offset.ofNat? := by
  induction levels generalizing view with
  | zero => rfl
  | succ levels induction =>
      obtain ⟨registry, schema⟩ := view
      cases schema with
      | scalar kind name => cases kind <;> rfl
      | reference kind target => cases kind <;> rfl
      | openReference kind => cases kind <;> rfl
      | slice name inner => rfl
      | placeholder kind name => rfl
      | array name length inner =>
          obtain ⟨elem, follows, linkedElem⟩ := linked.follow List.mem_cons_self
          rw [View.fixedSizeWithin_array follows, induction linkedElem,
            fixedSizeWithin_array arithmetic follows]
          split
          · rfl
          · rename_i nonempty
            cases arithmetic.fixedSizeWithin levels elem with
            | none => rfl
            | some size =>
                exact faithful.mul?_ofNat? (Nat.pos_of_ne_zero nonempty) size
      | struct name fields =>
          obtain ⟨parts, followFields, linkedParts⟩ := linked.fields
          change fields.mapM (View.ofField ⟨registry, .struct name fields⟩) = .ok parts
            at followFields
          rw [View.fixedSizeWithin_struct followFields,
            fixedSizeWithin_struct arithmetic followFields]
          exact faithful.sumOfParts_eq (fun part member => induction (linkedParts part member))
            (by decide)

/-- The sizes that are found are those of views, as far as words can hold them. -/
theorem fixedSize?_eq {view : View} (linked : view.Linked) :
    view.fixedSize? = (arithmetic.fixedSize? view).bind Offset.ofNat? :=
  faithful.fixedSizeWithin_eq linked

theorem length_of_sumOfParts
    {encodes : View → Bytes → Prop} {fixed : View → Option Nat} {parts : List View}
    (each : ∀ part ∈ parts, ∀ size, fixed part = some size → ∀ item, encodes part item →
      item.length < Offset.bound → item.length = size)
    {total sum : Nat} (summed : arithmetic.sumOfParts fixed total (parts.map .ok) = some sum)
    {bytes : Bytes} (run : View.EncodesRun encodes parts bytes)
    (short : bytes.length < Offset.bound) : total + bytes.length = sum := by
  induction parts generalizing total bytes with
  | nil =>
      cases run
      exact Option.some.inj summed
  | cons part parts induction =>
      obtain ⟨eachFirst, eachLater⟩ := List.forall_mem_cons.mp each
      rw [sumOfParts_map_cons] at summed
      obtain ⟨size, known, continued⟩ := Option.bind_eq_some_iff.mp summed
      obtain ⟨next, added, later⟩ := Option.bind_eq_some_iff.mp continued
      obtain rfl := faithful.sum_eq added
      obtain ⟨first, others, encodesFirst, encodesOthers, rfl⟩ := run
      rw [List.length_append] at short ⊢
      have lengthFirst := eachFirst size known first encodesFirst (by omega)
      have lengthOthers := induction eachLater later encodesOthers (by omega)
      omega

/-- Every encoding that words can measure has the fixed size, however large it is. -/
theorem length_of_fixedSizeWithin
    {levels levels' : Nat} {view : View} {size : Nat}
    (fixed : arithmetic.fixedSizeWithin levels view = some size) {bytes : Bytes}
    (encodes : View.EncodesWithin levels' view bytes) (short : bytes.length < Offset.bound) :
    bytes.length = size := by
  induction levels generalizing levels' view size bytes with
  | zero => cases fixed
  | succ levels induction =>
      cases levels' with
      | zero => cases encodes
      | succ levels' =>
          obtain ⟨registry, schema⟩ := view
          cases schema with
          | scalar kind name =>
              rcases encodes with same | ⟨rfl, _⟩
              · exact Option.some.inj (same.symm.trans fixed)
              · cases fixed
          | reference kind target =>
              cases kind with
              | slice => cases fixed
              | _ => exact encodes.trans (Option.some.inj fixed)
          | openReference kind =>
              cases kind with
              | slice => cases fixed
              | _ => exact encodes.trans (Option.some.inj fixed)
          | array name length inner =>
              obtain ⟨elem, follows, run⟩ := encodes
              rw [fixedSizeWithin_array arithmetic follows] at fixed
              split at fixed
              · rename_i empty
                subst empty
                cases (run : bytes = [])
                exact Option.some.inj fixed
              · obtain ⟨width, known, product⟩ := Option.bind_eq_some_iff.mp fixed
                obtain rfl := faithful.product_eq product
                have each : ∀ item, View.EncodesWithin levels' elem item →
                    item.length < Offset.bound → View.Sizes (some width) item := by
                  intro item encodesItem shortItem
                  exact .inl (congrArg some (induction known encodesItem shortItem).symm)
                have sized := (View.length_of_encodesRun_replicate run each short).1 width rfl
                rw [sized, Nat.mul_comm]
          | struct name fields =>
              obtain ⟨parts, followFields, run⟩ := encodes
              rw [fixedSizeWithin_struct arithmetic followFields] at fixed
              rw [← faithful.length_of_sumOfParts _ fixed run short, Nat.zero_add]
              intro part _ width known item encodesItem shortItem
              exact induction known encodesItem shortItem
          | slice name inner => cases fixed
          | placeholder kind name => cases fixed

end Faithful

end TypedObject.Arithmetic
