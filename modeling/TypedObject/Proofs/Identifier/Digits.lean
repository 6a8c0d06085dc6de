import TypedObject.Identifier
import TypedObject.Proofs.Outcome
import TypedObject.Proofs.Text.Hexadecimal

/-!
# Identifiers are read from what is written

An identifier is written as 64 digits in lower case.  Exactly the texts of 64 digits of
either case are read, and what is read is written as the text in lower case.  Any other
text has an odd number of bytes, or a first byte that is no digit, or consists of some
other number of digits, and is refused for the first of these causes.
-/

namespace TypedObject

open Text.Hex

namespace Digest

variable {text : String}

theorem toHex_injective {first second : Digest} (same : first.toHex = second.toHex) :
    first = second :=
  ext_bytes (digits_injective (String.ofList_injective same))

theorem length_toHex (digest : Digest) : digest.toHex.length = 64 := by
  rw [toHex, encode, String.length_ofList, length_digits, digest.length_eq]

/-- What becomes of a text that is read as a digest. -/
inductive Reading (text : String) : Except Error Digest → Prop where
  | digest {digest : Digest} (length : text.length = 64)
      (valid : ∀ character ∈ text.toList, IsDigit character)
      (written : digest.toHex = text.toLower) : Reading text (.ok digest)
  | oddLength (odd : text.utf8ByteSize % 2 = 1) : Reading text (.error (.hex .oddLength))
  | badByte {before after : Bytes} {byte : UInt8} (even : text.utf8ByteSize % 2 = 0)
      (valid : ∀ byte ∈ before, IsDigitByte byte) (bad : ¬IsDigitByte byte)
      (split : Bytes.ofText text = before ++ byte :: after) :
      Reading text (.error (.hex (.badByte byte before.length)))
  | length (even : text.utf8ByteSize % 2 = 0)
      (valid : ∀ character ∈ text.toList, IsDigit character) (other : text.length ≠ 64) :
      Reading text (.error (.length (text.utf8ByteSize / 2)))

theorem reading_of_bytes
    {bytes : Bytes} (even : text.utf8ByteSize % 2 = 0)
    (valid : ∀ character ∈ text.toList, IsDigit character)
    (written : digits bytes = text.toList.map Char.toLower) : Reading text (ofBytes bytes) := by
  have half : 2 * bytes.length = text.length := by
    rw [← length_digits, written, List.length_map, String.length_toList]
  unfold ofBytes
  split
  · rename_i exact
    refine .digest (by omega) valid ?_
    rw [toHex, encode, written, ← String.toList_map, String.ofList_toList]
    rfl
  · rename_i other
    have size := utf8ByteSize_of_isDigit valid
    have number : bytes.length = text.utf8ByteSize / 2 := by omega
    rw [number]
    exact .length even valid (by omega)

theorem reading_ofHex (text : String) : Reading text (ofHex text) := by
  unfold ofHex ofHexBytes decode
  by_cases odd : text.utf8ByteSize % 2 = 1
  · rw [length_ofText, if_pos odd]
    exact .oddLength odd
  · have even : text.utf8ByteSize % 2 = 0 := by omega
    rw [length_ofText, if_neg odd]
    have decoded := decoded_decodePairs (length_ofText text ▸ even) 0
    generalize decodePairs 0 (Bytes.ofText text) = result at decoded
    cases decoded with
    | bytes valid written =>
        have validText := forall_isDigitByte_ofText_iff.mp valid
        refine reading_of_bytes even validText ?_
        rw [written, ← map_characterOf_ofText validText, List.map_map]
        rfl
    | badByte valid bad split =>
        rw [Nat.zero_add]
        exact .badByte even valid bad split

/-- The place of the first byte that is no digit. -/
def firstBad? (bytes : Bytes) : Option Nat := bytes.findIdx? fun byte => ¬IsDigitByte byte

theorem firstBad?_eq_none_iff {text : String} :
    firstBad? (Bytes.ofText text) = none ↔ ∀ character ∈ text.toList, IsDigit character := by
  rw [← forall_isDigitByte_ofText_iff, firstBad?, List.findIdx?_eq_none_iff]
  simp

theorem firstBad?_of_split
    {before after : Bytes} {byte : UInt8} (valid : ∀ byte ∈ before, IsDigitByte byte)
    (bad : ¬IsDigitByte byte) : firstBad? (before ++ byte :: after) = some before.length := by
  have none : firstBad? before = Option.none := by
    rw [firstBad?, List.findIdx?_eq_none_iff]
    simpa using valid
  rw [firstBad?] at none ⊢
  rw [List.findIdx?_append, none, List.findIdx?_cons]
  simp [bad]

/-- What reading a text as something with 64 digits comes to: the result, or why there is
none. -/
structure ReadsDigits {α : Type} (toHex : α → String) (text : String)
    (result : Except Error α) : Prop where
  ok_iff : ∀ value, result = .ok value ↔
    (text.length = 64 ∧ ∀ character ∈ text.toList, IsDigit character) ∧
      toHex value = text.toLower
  oddLength_iff : result = .error (.hex .oddLength) ↔ text.utf8ByteSize % 2 = 1
  badByte_iff : ∀ byte position, result = .error (.hex (.badByte byte position)) ↔
    text.utf8ByteSize % 2 = 0 ∧ firstBad? (Bytes.ofText text) = some position ∧
      (Bytes.ofText text)[position]? = some byte
  length_iff : ∀ number, result = .error (.length number) ↔
    text.utf8ByteSize % 2 = 0 ∧ (∀ character ∈ text.toList, IsDigit character) ∧
      text.length ≠ 64 ∧ number = text.utf8ByteSize / 2

theorem Reading.readsDigits
    {result : Except Error Digest} (reading : Reading text result) :
    ReadsDigits toHex text result := by
  cases reading with
  | digest length valid written =>
      have size := utf8ByteSize_of_isDigit valid
      have noBad := firstBad?_eq_none_iff.mpr valid
      constructor
      case ok_iff =>
        intro other
        constructor
        · intro same
          cases same
          exact ⟨⟨length, valid⟩, written⟩
        · intro ⟨_, writtenOther⟩
          exact congrArg Except.ok (toHex_injective (written.trans writtenOther.symm))
      case oddLength_iff => exact ⟨nofun, fun odd => by omega⟩
      case badByte_iff =>
        refine fun _ _ => ⟨nofun, fun ⟨_, found, _⟩ => ?_⟩
        rw [noBad] at found
        cases found
      case length_iff => exact fun _ => ⟨nofun, fun ⟨_, _, other, _⟩ => absurd length other⟩
  | oddLength odd =>
      constructor
      case ok_iff =>
        refine fun _ => ⟨nofun, fun ⟨⟨long, valid⟩, _⟩ => ?_⟩
        have size := utf8ByteSize_of_isDigit valid
        omega
      case oddLength_iff => exact ⟨fun _ => odd, fun _ => rfl⟩
      case badByte_iff => exact fun _ _ => ⟨nofun, fun ⟨even, _⟩ => by omega⟩
      case length_iff => exact fun _ => ⟨nofun, fun ⟨even, _⟩ => by omega⟩
  | @badByte before after byte even valid bad split =>
      have first : firstBad? (before ++ byte :: after) = some before.length :=
        firstBad?_of_split valid bad
      have someBad : ¬∀ character ∈ text.toList, IsDigit character := by
        rw [← firstBad?_eq_none_iff, split, first]
        exact nofun
      constructor
      case ok_iff => exact fun _ => ⟨nofun, fun ⟨⟨_, valid⟩, _⟩ => absurd valid someBad⟩
      case oddLength_iff => exact ⟨nofun, fun odd => by omega⟩
      case badByte_iff =>
        intro other position
        rw [split, first]
        constructor
        · intro same
          cases same
          exact ⟨even, rfl, by simp⟩
        · intro ⟨_, found, atPosition⟩
          obtain rfl := Option.some.inj found
          rw [List.getElem?_append_right (Nat.le_refl _), Nat.sub_self] at atPosition
          obtain rfl := Option.some.inj atPosition
          rfl
      case length_iff => exact fun _ => ⟨nofun, fun ⟨_, valid, _⟩ => absurd valid someBad⟩
  | length even valid other =>
      have noBad := firstBad?_eq_none_iff.mpr valid
      constructor
      case ok_iff => exact fun _ => ⟨nofun, fun ⟨⟨long, _⟩, _⟩ => absurd long other⟩
      case oddLength_iff => exact ⟨nofun, fun odd => by omega⟩
      case badByte_iff =>
        refine fun _ _ => ⟨nofun, fun ⟨_, found, _⟩ => ?_⟩
        rw [noBad] at found
        cases found
      case length_iff =>
        intro number
        constructor
        · intro same
          cases same
          exact ⟨even, valid, other, rfl⟩
        · intro ⟨_, _, _, same⟩
          rw [same]

/-- Whatever is made of a digest, and of nothing else, is read as the digest is. -/
theorem ReadsDigits.map
    {α : Type} {toHex : α → String} {result : Except Error Digest}
    (reads : ReadsDigits Digest.toHex text result) (make : Digest → α) (digest : α → Digest)
    (digest_make : ∀ made, digest (make made) = made)
    (make_digest : ∀ value, make (digest value) = value)
    (written : ∀ value, toHex value = (digest value).toHex) :
    ReadsDigits toHex text (result.map make) := by
  have error_iff (error : Error) : result.map make = .error error ↔ result = .error error := by
    cases result <;> simp [Except.map]
  constructor
  case ok_iff =>
    intro value
    rw [written, ← reads.ok_iff, Outcome.map_eq_ok_iff]
    constructor
    · intro ⟨found, same, made⟩
      rw [same, ← made, digest_make]
    · intro same
      exact ⟨digest value, same, make_digest value⟩
  case oddLength_iff => exact (error_iff _).trans reads.oddLength_iff
  case badByte_iff => exact fun byte position => (error_iff _).trans (reads.badByte_iff _ _)
  case length_iff => exact fun number => (error_iff _).trans (reads.length_iff _)

theorem readsDigits_ofHex (text : String) : ReadsDigits toHex text (ofHex text) :=
  (reading_ofHex text).readsDigits

theorem isDigit_of_mem_toHex {digest : Digest} :
    ∀ character ∈ digest.toHex.toList, IsDigit character ∧ character.toLower = character := by
  rw [toHex, encode, String.toList_ofList]
  exact isDigit_of_mem_digits

/-- Reading inverts writing. -/
theorem ofHex_toHex (digest : Digest) : ofHex digest.toHex = .ok digest := by
  refine ((readsDigits_ofHex _).ok_iff digest).mpr ⟨⟨length_toHex digest, ?_⟩, ?_⟩
  · exact fun character member => (isDigit_of_mem_toHex character member).1
  · apply String.toList_injective
    change digest.toHex.toList = (digest.toHex.map Char.toLower).toList
    rw [String.toList_map]
    exact (List.map_id _).symm.trans
      (List.map_congr_left fun character member => (isDigit_of_mem_toHex character member).2.symm)

end Digest

namespace FeedId

/-- What is left of a text without one `feed:` at its front. -/
inductive Strips : (text digits : String) → Prop where
  | scheme (digits : String) : Strips (scheme ++ digits) digits
  | bare {text : String} (none : ¬scheme.toList <+: text.toList) : Strips text text

theorem ofHex_scheme_append (digits : String) :
    ofHex (scheme ++ digits) = (Digest.ofHex digits).map FeedId.mk := by
  have found : Text.dropStart? scheme.toList (scheme ++ digits).toList = some digits.toList := by
    rw [Text.dropStart?_eq_some_iff, String.toList_append]
  rw [ofHex, found]
  change (Digest.ofHex (String.ofList digits.toList)).map _ = _
  rw [String.ofList_toList]

theorem ofHex_of_bare {text : String} (none : ¬scheme.toList <+: text.toList) :
    ofHex text = (Digest.ofHex text).map FeedId.mk := by
  rw [ofHex, Text.dropStart?_eq_none_iff.mpr none]
  change (Digest.ofHex (String.ofList text.toList)).map _ = _
  rw [String.ofList_toList]

theorem exists_strips (text : String) :
    ∃ digits, Strips text digits ∧ ofHex text = (Digest.ofHex digits).map FeedId.mk := by
  by_cases front : scheme.toList <+: text.toList
  · obtain ⟨rest, split⟩ := front
    have whole : text = scheme ++ String.ofList rest := by
      apply String.toList_injective
      rw [String.toList_append, String.toList_ofList, split]
    rw [whole]
    exact ⟨String.ofList rest, .scheme _, ofHex_scheme_append _⟩
  · exact ⟨text, .bare front, ofHex_of_bare front⟩

/-- The digits of a feed do not begin with `feed:`, since a colon is no digit. -/
theorem not_scheme_isPrefix_toHex (feed : FeedId) : ¬scheme.toList <+: feed.toHex.toList := by
  intro front
  have colon : ':' ∈ feed.toHex.toList := front.subset (by decide)
  exact absurd (Digest.isDigit_of_mem_toHex _ colon).1 (by decide)

end FeedId

/-- Identifiers of all families are read from exactly 64 digits, and feeds from what is left
of the text without one `feed:`; what is written is read back. -/
theorem Identifier.read_exactly_from_digits :
    (∀ (family : Family) (text : String),
      Digest.ReadsDigits toHex text (ofHex text : Except Digest.Error (Identifier family))) ∧
    (∀ text : String, ∃ digits, FeedId.Strips text digits ∧
      Digest.ReadsDigits FeedId.toHex digits (FeedId.ofHex text)) ∧
    (∀ (family : Family) (identifier : Identifier family),
      ofHex identifier.toHex = .ok identifier) ∧
    ∀ feed : FeedId, FeedId.ofHex feed.toHex = .ok feed ∧
      FeedId.ofHex (FeedId.scheme ++ feed.toHex) = .ok feed := by
  refine ⟨?_, ?_, ?_, ?_⟩
  · intro family text
    exact (Digest.readsDigits_ofHex text).map Identifier.mk Identifier.digest (fun _ => rfl)
      (fun _ => rfl) fun _ => rfl
  · intro text
    obtain ⟨digits, strips, same⟩ := FeedId.exists_strips text
    refine ⟨digits, strips, ?_⟩
    rw [same]
    exact (Digest.readsDigits_ofHex digits).map FeedId.mk FeedId.key (fun _ => rfl) (fun _ => rfl)
      fun _ => rfl
  · intro family identifier
    rw [ofHex, toHex, Digest.ofHex_toHex]
    rfl
  · intro feed
    have read : (Digest.ofHex feed.toHex).map FeedId.mk = .ok feed := by
      rw [FeedId.toHex, Digest.ofHex_toHex]
      rfl
    rw [FeedId.ofHex_of_bare feed.not_scheme_isPrefix_toHex, FeedId.ofHex_scheme_append, read]
    exact ⟨rfl, rfl⟩

/-- A single character can have an even number of bytes; the first of them is no digit. -/
example : Digest.ofHex "é" = .error (.hex (.badByte 195 0)) := by rfl

end TypedObject
