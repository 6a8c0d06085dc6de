import TypedObject.Bytes

/-!
# The order of texts is the order of their bytes

Texts are compared character by character, their encodings byte by byte.  UTF-8
makes the two orders agree: the encodings of two different characters differ
first at a byte that is smaller for the smaller character.
-/

namespace TypedObject.Bytes

theorem ofText_eq_flatMap (text : String) :
    ofText text = text.toList.flatMap String.utf8EncodeChar := by
  have encoded : text.toUTF8 = text.toList.utf8Encode := by simp
  rw [ofText, encoded, List.utf8Encode]
  simp

private theorem cons_lt_of_lt
    {low high : Nat} {left right : Bytes} (small : high < 256) (less : low < high) :
    UInt8.ofNat low :: left < UInt8.ofNat high :: right := by
  apply List.cons_lt_cons_iff.mpr
  left
  rw [UInt8.lt_iff_toNat_lt, UInt8.toNat_ofNat_of_lt' (Nat.lt_trans less small),
    UInt8.toNat_ofNat_of_lt' small]
  exact less

private theorem cons_lt_of_le
    {low high : Nat} {left right : Bytes} (small : high < 256) (notLess : low ≤ high)
    (later : low = high → left < right) :
    UInt8.ofNat low :: left < UInt8.ofNat high :: right := by
  rcases Nat.lt_or_eq_of_le notLess with less | same
  · exact cons_lt_of_lt small less
  · rw [same]
    exact List.cons_lt_cons_iff.mpr (.inr ⟨rfl, later same⟩)

/-- The four forms of an encoded character, by the size of its number. -/
theorem utf8EncodeChar_forms (char : Char) :
    char.val.toNat ≤ 127 ∧ String.utf8EncodeChar char = [UInt8.ofNat char.val.toNat] ∨
    (127 < char.val.toNat ∧ char.val.toNat ≤ 2047) ∧ String.utf8EncodeChar char =
      [UInt8.ofNat (char.val.toNat / 64 % 32 + 192), UInt8.ofNat (char.val.toNat % 64 + 128)] ∨
    (2047 < char.val.toNat ∧ char.val.toNat ≤ 65535) ∧ String.utf8EncodeChar char =
      [UInt8.ofNat (char.val.toNat / 4096 % 16 + 224),
        UInt8.ofNat (char.val.toNat / 64 % 64 + 128), UInt8.ofNat (char.val.toNat % 64 + 128)] ∨
    65535 < char.val.toNat ∧ String.utf8EncodeChar char =
      [UInt8.ofNat (char.val.toNat / 262144 % 8 + 240),
        UInt8.ofNat (char.val.toNat / 4096 % 64 + 128),
        UInt8.ofNat (char.val.toNat / 64 % 64 + 128), UInt8.ofNat (char.val.toNat % 64 + 128)] := by
  unfold String.utf8EncodeChar
  dsimp only
  by_cases one : char.val.toNat ≤ 127
  · exact .inl ⟨one, if_pos one⟩
  · rw [if_neg one]
    by_cases two : char.val.toNat ≤ 2047
    · exact .inr (.inl ⟨⟨Nat.lt_of_not_le one, two⟩, if_pos two⟩)
    · rw [if_neg two]
      by_cases three : char.val.toNat ≤ 65535
      · exact .inr (.inr (.inl ⟨⟨Nat.lt_of_not_le two, three⟩, if_pos three⟩))
      · exact .inr (.inr (.inr ⟨Nat.lt_of_not_le three, if_neg three⟩))

/-- The encoding of a smaller character comes first, whatever follows either one: encodings
of different lengths differ in the first byte, and those of one length at the first digit
to base 64 that differs. -/
theorem utf8EncodeChar_append_lt
    {low high : Char} (less : low < high) (left right : Bytes) :
    String.utf8EncodeChar low ++ left < String.utf8EncodeChar high ++ right := by
  have numbers : low.val.toNat < high.val.toNat := less
  have bound : high.val.toNat < 1114112 := by
    rcases high.valid with below | above
    · exact Nat.lt_trans below (by decide)
    · exact above.2
  rcases utf8EncodeChar_forms low with
    ⟨lowRange, lowForm⟩ | ⟨lowRange, lowForm⟩ | ⟨lowRange, lowForm⟩ | ⟨lowRange, lowForm⟩ <;>
  rcases utf8EncodeChar_forms high with
    ⟨highRange, highForm⟩ | ⟨highRange, highForm⟩ | ⟨highRange, highForm⟩ |
      ⟨highRange, highForm⟩ <;>
  rw [lowForm, highForm] <;>
  first
    | exact cons_lt_of_lt (by omega) (by omega)
    | omega
    | skip
  · refine cons_lt_of_le (by omega) (by omega) fun first => ?_
    exact cons_lt_of_lt (by omega) (by omega)
  · refine cons_lt_of_le (by omega) (by omega) fun first => ?_
    refine cons_lt_of_le (by omega) (by omega) fun second => ?_
    exact cons_lt_of_lt (by omega) (by omega)
  · refine cons_lt_of_le (by omega) (by omega) fun first => ?_
    refine cons_lt_of_le (by omega) (by omega) fun second => ?_
    refine cons_lt_of_le (by omega) (by omega) fun third => ?_
    exact cons_lt_of_lt (by omega) (by omega)

private theorem flatMap_lt_flatMap
    {left right : List Char} (less : left < right) :
    left.flatMap String.utf8EncodeChar < right.flatMap String.utf8EncodeChar := by
  induction left generalizing right with
  | nil =>
      cases right with
      | nil => exact absurd less (List.lt_irrefl _)
      | cons high right =>
          rw [List.flatMap_nil, List.flatMap_cons]
          obtain ⟨byte, rest, encoded⟩ := List.exists_cons_of_ne_nil
            (String.utf8EncodeChar_ne_nil : String.utf8EncodeChar high ≠ [])
          rw [encoded]
          exact List.nil_lt_cons _ _
  | cons low left induction =>
      cases right with
      | nil => exact absurd less (List.not_lt_nil _)
      | cons high right =>
          rw [List.flatMap_cons, List.flatMap_cons]
          rcases List.cons_lt_cons_iff.mp less with smaller | ⟨same, later⟩
          · exact utf8EncodeChar_append_lt smaller _ _
          · rw [same]
            exact List.append_left_lt (induction later)

/-- Comparing texts compares their bytes. -/
theorem ofText_lt_iff
    {left right : String} : ofText left < ofText right ↔ left < right := by
  rw [ofText_eq_flatMap, ofText_eq_flatMap]
  constructor
  · intro less
    rcases Classical.em (left < right) with smaller | notSmaller
    · exact smaller
    · exfalso
      have reverse : right ≤ left := notSmaller
      by_cases same : left = right
      · rw [same] at less
        exact List.lt_irrefl _ less
      · have greater : right < left := by
          rcases Classical.em (right < left) with greater | notGreater
          · exact greater
          · exact absurd (String.le_antisymm notGreater reverse) same
        exact List.lt_asymm less (flatMap_lt_flatMap greater)
  · intro less
    exact flatMap_lt_flatMap less

end TypedObject.Bytes
