/-!
# White space and pieces of text

The characters with the Unicode property *White_Space*, trimming at both ends of a text, and
cutting a text at a separator.  All functions work on lists of characters, so that their laws are
inductions on the list.
-/

namespace TypedObject.Text

/-- The Unicode property *White_Space*. -/
def isBlank (character : Char) : Bool :=
  let code := character.toNat
  (0x09 ≤ code && code ≤ 0x0D) || code = 0x20 || code = 0x85 || code = 0xA0 || code = 0x1680 ||
    (0x2000 ≤ code && code ≤ 0x200A) || code = 0x2028 || code = 0x2029 || code = 0x202F ||
    code = 0x205F || code = 0x3000

def trimEnd (text : List Char) : List Char :=
  (text.reverse.dropWhile isBlank).reverse

def trim (text : List Char) : List Char :=
  trimEnd (text.dropWhile isBlank)

/-- The stretches between separators, one more than there are separators. -/
def splitAt (separator : Char) : List Char → List (List Char)
  | [] => [[]]
  | character :: rest =>
    if character = separator then [] :: splitAt separator rest
    else
      match splitAt separator rest with
      | [] => [[character]]
      | piece :: pieces => (character :: piece) :: pieces

def dropStart? : (start text : List Char) → Option (List Char)
  | [], text => some text
  | _ :: _, [] => none
  | wanted :: start, character :: text =>
    if wanted = character then dropStart? start text else none

theorem dropStart?_eq_some_iff {start text rest : List Char} :
    dropStart? start text = some rest ↔ text = start ++ rest := by
  induction start generalizing text with
  | nil => simp [dropStart?, eq_comm]
  | cons wanted start induction =>
      cases text with
      | nil => simp [dropStart?]
      | cons character text =>
          by_cases same : wanted = character
          · simp [dropStart?, same, induction]
          · simp [dropStart?, same, Ne.symm same]

theorem dropStart?_eq_none_iff {start text : List Char} :
    dropStart? start text = none ↔ ¬start <+: text := by
  rw [Option.eq_none_iff_forall_ne_some]
  constructor
  · rintro other ⟨rest, rfl⟩
    exact other rest (dropStart?_eq_some_iff.mpr rfl)
  · intro other rest found
    exact other ⟨rest, (dropStart?_eq_some_iff.mp found).symm⟩

end TypedObject.Text
