import TypedObject.Proofs.Text.ByteOrder
import TypedObject.Text.Hex

/-!
# Hexadecimal text is read exactly

Reading looks at the bytes of a text, but a text that is accepted consists of digits, and
a digit is one byte.  So the digits of the bytes that are read are the characters of the
text in lower case, and every other text has a first byte that is no digit, or an odd
number of bytes.
-/

namespace TypedObject.Text.Hex

/-- A digit of either case. -/
def IsDigit (character : Char) : Prop :=
  ('0' ≤ character ∧ character ≤ '9') ∨ ('a' ≤ character ∧ character ≤ 'f') ∨
    ('A' ≤ character ∧ character ≤ 'F')

instance : DecidablePred IsDigit := fun _ => inferInstanceAs (Decidable (_ ∨ _))

/-- The character whose code a byte is. -/
def characterOf (byte : UInt8) : Char := Char.ofNat byte.toNat

/-- The byte is the code of a digit. -/
def IsDigitByte (byte : UInt8) : Prop := IsDigit (characterOf byte)

instance : DecidablePred IsDigitByte := fun byte =>
  inferInstanceAs (Decidable (IsDigit (characterOf byte)))

/-- A byte has a value exactly if it is the code of a digit, and it is the value of that
digit. -/
theorem map_digit_value? (byte : UInt8) :
    (value? byte).map digit =
      if IsDigitByte byte then some (characterOf byte).toLower else none := by
  have table : ∀ code < 256, (value? (UInt8.ofNat code)).map digit =
      if IsDigitByte (UInt8.ofNat code) then some (characterOf (UInt8.ofNat code)).toLower
      else none := by decide +kernel
  have entry := table byte.toNat byte.toNat_lt
  rw [UInt8.ofNat_toNat] at entry
  exact entry

theorem isDigitByte_of_value? {byte : UInt8} {value : Nat} (found : value? byte = some value) :
    IsDigitByte byte ∧ digit value = (characterOf byte).toLower := by
  have entry := map_digit_value? byte
  rw [found] at entry
  split at entry
  · rename_i valid
    exact ⟨valid, Option.some.inj entry⟩
  · cases entry

theorem not_isDigitByte_of_value? {byte : UInt8} (missing : value? byte = none) :
    ¬IsDigitByte byte := by
  intro valid
  have entry := map_digit_value? byte
  rw [missing, if_pos valid] at entry
  cases entry

theorem value?_lt {byte : UInt8} {value : Nat} (found : value? byte = some value) :
    value < 16 := by
  unfold value? at found
  dsimp only at found
  split at found
  · obtain rfl := Option.some.inj found
    omega
  · split at found
    · obtain rfl := Option.some.inj found
      omega
    · split at found
      · obtain rfl := Option.some.inj found
        omega
      · cases found

theorem digit_injective {first second : Nat} (small : first < 16) (small' : second < 16)
    (same : digit first = digit second) : first = second := by
  have table : ∀ first < 16, ∀ second < 16, digit first = digit second → first = second := by
    decide
  exact table first small second small' same

theorem isDigit_digit {value : Nat} (small : value < 16) :
    IsDigit (digit value) ∧ (digit value).toLower = digit value := by
  have table : ∀ value < 16, IsDigit (digit value) ∧ (digit value).toLower = digit value := by
    decide
  exact table value small

theorem high_lt (byte : UInt8) : byte.toNat / 16 < 16 := by
  have bound := byte.toNat_lt
  omega

theorem low_lt (byte : UInt8) : byte.toNat % 16 < 16 := Nat.mod_lt _ (by decide)

theorem length_digits (bytes : Bytes) : (digits bytes).length = 2 * bytes.length := by
  induction bytes with
  | nil => rfl
  | cons byte bytes induction =>
      rw [digits, List.length_cons, List.length_cons, induction, List.length_cons]
      omega

/-- What is written are digits in lower case. -/
theorem isDigit_of_mem_digits {bytes : Bytes} :
    ∀ character ∈ digits bytes, IsDigit character ∧ character.toLower = character := by
  induction bytes with
  | nil => exact nofun
  | cons byte bytes induction =>
      rw [digits, List.forall_mem_cons, List.forall_mem_cons]
      exact ⟨isDigit_digit (high_lt byte), isDigit_digit (low_lt byte), induction⟩

theorem digits_injective {bytes bytes' : Bytes} (same : digits bytes = digits bytes') :
    bytes = bytes' := by
  induction bytes generalizing bytes' with
  | nil =>
      cases bytes' with
      | nil => rfl
      | cons => cases same
  | cons byte bytes induction =>
      cases bytes' with
      | nil => cases same
      | cons byte' bytes' =>
          obtain ⟨sameHigh, sameTail⟩ := List.cons.inj same
          obtain ⟨sameLow, sameRest⟩ := List.cons.inj sameTail
          have high := digit_injective (high_lt byte) (high_lt byte') sameHigh
          have low := digit_injective (low_lt byte) (low_lt byte') sameLow
          have number : byte.toNat = byte'.toNat := by omega
          rw [UInt8.toNat_inj.mp number, induction sameRest]

theorem digits_cons_of_lt {high low : Nat} (smallHigh : high < 16) (smallLow : low < 16)
    (bytes : Bytes) :
    digits (UInt8.ofNat (16 * high + low) :: bytes) = digit high :: digit low :: digits bytes := by
  have number : (UInt8.ofNat (16 * high + low)).toNat = 16 * high + low :=
    UInt8.toNat_ofNat_of_lt' (show 16 * high + low < 256 by omega)
  rw [digits, number]
  congr <;> omega

/-- An even number of bytes is read as pairs of digits, or has a first byte that is none. -/
inductive Decoded (position : Nat) (text : Bytes) : Except Error Bytes → Prop where
  | bytes {bytes : Bytes} (valid : ∀ byte ∈ text, IsDigitByte byte)
      (written : digits bytes = text.map fun byte => (characterOf byte).toLower) :
      Decoded position text (.ok bytes)
  | badByte {before after : Bytes} {byte : UInt8} (valid : ∀ byte ∈ before, IsDigitByte byte)
      (bad : ¬IsDigitByte byte) (split : text = before ++ byte :: after) :
      Decoded position text (.error (.badByte byte (position + before.length)))

theorem decoded_decodePairs {text : Bytes} (even : text.length % 2 = 0) (position : Nat) :
    Decoded position text (decodePairs position text) := by
  fun_induction decodePairs position text with
  | case1 position high low rest highValue lowValue lowFound highFound induction =>
      obtain ⟨validHigh, digitHigh⟩ := isDigitByte_of_value? highFound
      obtain ⟨validLow, digitLow⟩ := isDigitByte_of_value? lowFound
      have evenRest : rest.length % 2 = 0 := by
        rw [List.length_cons, List.length_cons] at even
        omega
      generalize decodePairs (position + 2) rest = result at induction
      cases induction evenRest with
      | @bytes bytes valid written =>
          refine .bytes (List.forall_mem_cons.mpr ⟨validHigh,
            List.forall_mem_cons.mpr ⟨validLow, valid⟩⟩) ?_
          rw [digits_cons_of_lt (value?_lt highFound) (value?_lt lowFound), digitHigh, digitLow,
            written]
          rfl
      | @badByte before after byte valid bad split =>
          have place : position + 2 + before.length =
              position + (high :: low :: before).length := by
            rw [List.length_cons, List.length_cons]
            omega
          change Decoded _ _ (.error _)
          rw [place, split]
          exact .badByte (List.forall_mem_cons.mpr ⟨validHigh,
            List.forall_mem_cons.mpr ⟨validLow, valid⟩⟩) bad rfl
  | case2 position high low rest missing =>
      have failed : Decoded position (high :: low :: rest)
          (.error (.badByte high (position + ([] : Bytes).length))) :=
        .badByte nofun (not_isDigitByte_of_value? missing) rfl
      exact failed
  | case3 position high low rest highValue missing highFound =>
      have failed : Decoded position (high :: low :: rest)
          (.error (.badByte low (position + [high].length))) :=
        .badByte (List.forall_mem_singleton.mpr (isDigitByte_of_value? highFound).1)
          (not_isDigitByte_of_value? missing) rfl
      exact failed
  | case4 position byte => cases even
  | case5 position => exact .bytes nofun rfl

theorem toNat_lt_of_isDigit {character : Char} (valid : IsDigit character) :
    character.toNat < 128 := by
  obtain ⟨_, above⟩ | ⟨_, above⟩ | ⟨_, above⟩ := valid <;>
    exact Nat.lt_of_le_of_lt (Char.le_def.mp above) (by decide)

theorem characterOf_ofNat {character : Char} (small : character.toNat < 256) :
    characterOf (UInt8.ofNat character.toNat) = character := by
  rw [characterOf, UInt8.toNat_ofNat_of_lt' small, Char.ofNat_toNat]

theorem toNat_lt_of_isDigitByte {byte : UInt8} (valid : IsDigitByte byte) : byte.toNat < 128 := by
  have table : ∀ code < 256, IsDigitByte (UInt8.ofNat code) → code < 128 := by decide +kernel
  apply table byte.toNat byte.toNat_lt
  rw [UInt8.ofNat_toNat]
  exact valid

theorem utf8EncodeChar_of_isDigit {character : Char} (valid : IsDigit character) :
    String.utf8EncodeChar character = [UInt8.ofNat character.toNat] := by
  have bound : character.val.toNat < 128 := toNat_lt_of_isDigit valid
  rcases Bytes.utf8EncodeChar_forms character with form | form | form | form
  · exact form.2
  all_goals omega

/-- A character of which all bytes are digits is a digit, for the first byte of a longer
encoding is the code of none. -/
theorem isDigit_of_utf8EncodeChar {character : Char}
    (valid : ∀ byte ∈ String.utf8EncodeChar character, IsDigitByte byte) :
    IsDigit character := by
  have leading {number : Nat} (small : number < 256) (large : 128 ≤ number)
      (isDigit : IsDigitByte (UInt8.ofNat number)) : False := by
    have bound := toNat_lt_of_isDigitByte isDigit
    rw [UInt8.toNat_ofNat_of_lt' small] at bound
    omega
  rcases Bytes.utf8EncodeChar_forms character with
    ⟨range, form⟩ | ⟨range, form⟩ | ⟨range, form⟩ | ⟨range, form⟩ <;> rw [form] at valid
  · have small : character.toNat < 256 := Nat.lt_of_le_of_lt range (by decide)
    have first : IsDigit (characterOf (UInt8.ofNat character.toNat)) :=
      valid _ List.mem_cons_self
    rw [characterOf_ofNat small] at first
    exact first
  · exact (leading (by omega) (by omega) (valid _ List.mem_cons_self)).elim
  · exact (leading (by omega) (by omega) (valid _ List.mem_cons_self)).elim
  · exact (leading (by omega) (by omega) (valid _ List.mem_cons_self)).elim

/-- All bytes of a text are digits exactly if its characters are. -/
theorem forall_isDigitByte_ofText_iff {text : String} :
    (∀ byte ∈ Bytes.ofText text, IsDigitByte byte) ↔
      ∀ character ∈ text.toList, IsDigit character := by
  rw [Bytes.ofText_eq_flatMap]
  simp only [List.mem_flatMap, forall_exists_index, and_imp]
  constructor
  · intro valid character member
    exact isDigit_of_utf8EncodeChar fun byte inside => valid byte character member inside
  · intro valid byte character member inside
    have isDigit := valid character member
    rw [utf8EncodeChar_of_isDigit isDigit] at inside
    obtain rfl := List.mem_singleton.mp inside
    have small : character.toNat < 256 := Nat.lt_trans (toNat_lt_of_isDigit isDigit) (by decide)
    rw [IsDigitByte, characterOf_ofNat small]
    exact isDigit

theorem map_characterOf_ofText
    {text : String} (valid : ∀ character ∈ text.toList, IsDigit character) :
    (Bytes.ofText text).map characterOf = text.toList := by
  rw [Bytes.ofText_eq_flatMap]
  generalize text.toList = characters at valid
  induction characters with
  | nil => rfl
  | cons character characters induction =>
      obtain ⟨isDigit, validRest⟩ := List.forall_mem_cons.mp valid
      have small : character.toNat < 256 := Nat.lt_trans (toNat_lt_of_isDigit isDigit) (by decide)
      rw [List.flatMap_cons, utf8EncodeChar_of_isDigit isDigit, List.singleton_append,
        List.map_cons, characterOf_ofNat small, induction validRest]

theorem length_ofText (text : String) : (Bytes.ofText text).length = text.utf8ByteSize := by
  simp [Bytes.ofText]

theorem utf8ByteSize_of_isDigit
    {text : String} (valid : ∀ character ∈ text.toList, IsDigit character) :
    text.utf8ByteSize = text.length := by
  rw [← length_ofText, ← List.length_map characterOf, map_characterOf_ofText valid,
    String.length_toList]

end TypedObject.Text.Hex
