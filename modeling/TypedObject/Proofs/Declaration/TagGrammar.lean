import Mathlib.Logic.Relation
import TypedObject.Proofs.Declaration.TagNames

/-!
# The grammar of tags

A tag stands for the list of its parts: the pieces between its commas, without the blanks
around them and without the empty ones.  The name of a schema is read from the first part
that begins with `schema=`, and nothing after that part is looked at; whether the field is
left out is read from the parts that are `-`.  So neither question notices an edit of the
parts that are none of its own.
-/

namespace TypedObject

namespace Text

variable {piece part : List Char}

/-- A part is a text without the blanks around it: there are none at its own ends. -/
structure Trims (piece part : List Char) : Prop where
  surrounded : ∃ left right, piece = left ++ part ++ right ∧
    (∀ character ∈ left, isBlank character = true) ∧
    ∀ character ∈ right, isBlank character = true
  first : ∀ character ∈ part.head?, isBlank character = false
  last : ∀ character ∈ part.getLast?, isBlank character = false

/-- Cutting at a separator is the library's splitting. -/
theorem splitAt_eq_splitOn (separator : Char) (text : List Char) :
    splitAt separator text = text.splitOn separator := by
  induction text with
  | nil => rfl
  | cons character text induction =>
      rw [splitAt, induction, List.splitOn_cons_eq_if_modifyHead]
      by_cases same : character = separator
      · rw [if_pos same, if_pos (beq_iff_eq.mpr same)]
      · rw [if_neg same, if_neg (mt beq_iff_eq.mp same)]
        cases pieces : text.splitOn separator with
        | nil => exact absurd (induction.trans pieces) splitAt_ne_nil
        | cons piece pieces => rfl

theorem trimEnd_append
    {right : List Char} (blank : ∀ character ∈ right, isBlank character = true)
    (text : List Char) : trimEnd (text ++ right) = trimEnd text := by
  rw [trimEnd, List.reverse_append, List.dropWhile_append_of_pos]
  · rfl
  · exact fun character member => blank character (List.mem_reverse.mp member)

/-- Blanks around a text do not change what trimming leaves of it. -/
theorem trim_surrounded
    {left right : List Char} (blankLeft : ∀ character ∈ left, isBlank character = true)
    (blankRight : ∀ character ∈ right, isBlank character = true) (text : List Char) :
    trim (left ++ text ++ right) = trim text := by
  rw [trim, List.append_assoc, List.dropWhile_append_of_pos blankLeft, List.dropWhile_append,
    trim]
  split
  · rename_i nothing
    rw [List.isEmpty_iff.mp nothing, List.dropWhile_eq_nil_iff.mpr blankRight]
  · exact trimEnd_append blankRight _

theorem trims_trim (piece : List Char) : Trims piece (trim piece) := by
  refine ⟨⟨piece.takeWhile isBlank, (piece.dropWhile isBlank).rtakeWhile isBlank, ?_, ?_, ?_⟩,
    ?_, ?_⟩
  · rw [trim, trimEnd_eq_rdropWhile, List.append_assoc, List.rdropWhile_append_rtakeWhile,
      List.takeWhile_append_dropWhile]
  · exact fun character member => List.mem_takeWhile_imp member
  · exact fun character member => List.mem_rtakeWhile_imp member
  · intro character member
    obtain ⟨rest, whole⟩ := List.rdropWhile_prefix isBlank (piece.dropWhile isBlank)
    have found : character ∈ (piece.dropWhile isBlank).head? := by
      rw [← whole]
      exact List.mem_head?_append_of_mem_head? member
    have stop := List.head?_dropWhile_not isBlank piece
    rwa [Option.mem_def.mp found] at stop
  · exact trimEnd_eq_self_iff.mp (trimEnd_trim piece)

theorem trims_iff : Trims piece part ↔ part = trim piece := by
  constructor
  · intro trims
    obtain ⟨left, right, rfl, blankLeft, blankRight⟩ := trims.surrounded
    have starts : part.dropWhile isBlank = part := by
      cases part with
      | nil => rfl
      | cons character part =>
          exact List.dropWhile_cons_of_neg (Bool.eq_false_iff.mp (trims.first character rfl))
    rw [trim_surrounded blankLeft blankRight, trim, starts, trimEnd_eq_self_iff.mpr trims.last]
  · rintro rfl
    exact trims_trim piece

theorem trim_eq_nil_iff {text : List Char} :
    trim text = [] ↔ ∀ character ∈ text, isBlank character = true := by
  constructor
  · intro nothing
    obtain ⟨left, right, whole, blankLeft, blankRight⟩ := (trims_trim text).surrounded
    rw [nothing, List.append_nil] at whole
    rw [whole]
    exact List.forall_mem_append.mpr ⟨blankLeft, blankRight⟩
  · intro blank
    rw [trim, List.dropWhile_eq_nil_iff.mpr blank]
    rfl

end Text

namespace Tag

open Text

/-- The tag with these pieces between its commas. -/
def joined (pieces : List (List Char)) : String := String.ofList ([','].intercalate pieces)

/-- The parts that pieces leave: a blank piece leaves none. -/
inductive Leaves : (pieces parts : List (List Char)) → Prop where
  | none : Leaves [] []
  | skip {piece : List Char} {pieces parts : List (List Char)} (blank : Trims piece [])
      (others : Leaves pieces parts) : Leaves (piece :: pieces) parts
  | keep {piece part : List Char} {pieces parts : List (List Char)} (trims : Trims piece part)
      (nonempty : part ≠ []) (others : Leaves pieces parts) :
      Leaves (piece :: pieces) (part :: parts)

/-- The parts of a tag are left by the pieces that it is joined from. -/
def Divides (tag : String) (found : List (List Char)) : Prop :=
  ∃ pieces, pieces ≠ [] ∧ (∀ piece ∈ pieces, ',' ∉ piece) ∧ joined pieces = tag ∧
    Leaves pieces found

theorem leaves_iff {pieces found : List (List Char)} :
    Leaves pieces found ↔ found = (pieces.map trim).filter fun part => !part.isEmpty := by
  constructor
  · intro leaves
    induction leaves with
    | none => rfl
    | skip blank others induction =>
        rw [List.map_cons, ← trims_iff.mp blank]
        exact induction
    | keep trims nonempty others induction =>
        rw [List.map_cons, ← trims_iff.mp trims, List.filter_cons_of_pos, induction]
        simpa using nonempty
  · rintro rfl
    induction pieces with
    | nil => exact .none
    | cons piece pieces induction =>
        have trims := trims_trim piece
        rw [List.map_cons]
        cases left : trim piece with
        | nil => exact .skip (left ▸ trims) induction
        | cons character part => exact .keep (left ▸ trims) (List.cons_ne_nil _ _) induction

theorem joined_splitAt (tag : String) : joined (splitAt ',' tag.toList) = tag := by
  rw [joined, splitAt_eq_splitOn, List.intercalate_splitOn, String.ofList_toList]

theorem splitAt_joined
    {pieces : List (List Char)} (some : pieces ≠ []) (noComma : ∀ piece ∈ pieces, ',' ∉ piece) :
    splitAt ',' (joined pieces).toList = pieces := by
  rw [joined, String.toList_ofList, splitAt_eq_splitOn]
  exact List.splitOn_intercalate ',' noComma some

theorem parts_joined
    {pieces : List (List Char)} (noComma : ∀ piece ∈ pieces, ',' ∉ piece) :
    parts (joined pieces) = (pieces.map trim).filter fun part => !part.isEmpty := by
  cases pieces with
  | nil => rfl
  | cons piece pieces => rw [parts, splitAt_joined (List.cons_ne_nil _ _) noComma]

theorem divides_iff {tag : String} {found : List (List Char)} :
    Divides tag found ↔ found = parts tag := by
  constructor
  · rintro ⟨pieces, _, noComma, rfl, leaves⟩
    rw [parts_joined noComma, leaves_iff.mp leaves]
  · rintro rfl
    exact ⟨splitAt ',' tag.toList, splitAt_ne_nil, fun _ => not_mem_of_mem_splitAt,
      joined_splitAt tag, leaves_iff.mpr rfl⟩

theorem not_mem_of_blank
    {text : List Char} (blank : ∀ character ∈ text, isBlank character = true) : ',' ∉ text :=
  fun comma => absurd (blank ',' comma) (by decide)

/-- A tag with nothing but blanks has no part. -/
theorem parts_eq_nil_of_blank
    {tag : String} (blank : ∀ character ∈ tag.toList, isBlank character = true) :
    parts tag = [] := by
  have noComma : ∀ piece ∈ [tag.toList], ',' ∉ piece := by
    rw [List.forall_mem_singleton]
    exact not_mem_of_blank blank
  have whole : joined [tag.toList] = tag := by
    rw [joined, List.intercalate_singleton, String.ofList_toList]
  rw [← whole, parts_joined noComma, List.map_singleton, trim_eq_nil_iff.mpr blank]
  rfl

/-- The first part that begins with the key goes on with `name`. -/
def NamesFirst (parts : List (List Char)) (name : List Char) : Prop :=
  ∃ before after, parts = before ++ (schemaKey ++ name) :: after ∧
    ∀ part ∈ before, ¬schemaKey <+: part

/-- What is read from a tag. -/
inductive Answers (tag : String) : Except Error String → Prop where
  | named {name : String} (first : NamesFirst (parts tag) name.toList) (nonempty : name ≠ "")
      (plain : '=' ∉ name.toList) : Answers tag (.ok name)
  | emptyName (first : NamesFirst (parts tag) []) :
      Answers tag (.error (.emptyName schemaKey))
  | badName {name : List Char} (first : NamesFirst (parts tag) name) (equals : '=' ∈ name) :
      Answers tag (.error (.badName (schemaKey ++ name)))
  | empty (blank : ∀ character ∈ tag.toList, isBlank character = true) :
      Answers tag (.error .empty)
  | noName (written : ∃ character ∈ tag.toList, isBlank character = false)
      (other : ∀ part ∈ parts tag, ¬schemaKey <+: part) : Answers tag (.error (.noName tag))

theorem nameIn_append
    {before : List (List Char)} (other : ∀ part ∈ before, ¬schemaKey <+: part)
    (after : List (List Char)) : nameIn (before ++ after) = nameIn after := by
  induction before with
  | nil => rfl
  | cons part before induction =>
      obtain ⟨first, others⟩ := List.forall_mem_cons.mp other
      rw [List.cons_append, nameIn, dropStart?_eq_none_iff.mpr first]
      exact induction others

theorem nameIn_eq_none
    {parts : List (List Char)} (other : ∀ part ∈ parts, ¬schemaKey <+: part) :
    nameIn parts = none := by
  rw [← List.append_nil parts, nameIn_append other, nameIn]

/-- Only the first part that begins with the key counts, whatever follows it. -/
theorem NamesFirst.nameIn_eq
    {parts : List (List Char)} {name : List Char} (first : NamesFirst parts name) :
    nameIn parts =
      if name.isEmpty then some (.error (.emptyName (schemaKey ++ name)))
      else if name.contains '=' then some (.error (.badName (schemaKey ++ name)))
      else some (.ok name) := by
  obtain ⟨before, after, rfl, other⟩ := first
  rw [nameIn_append other, nameIn, dropStart?_eq_some_iff.mpr rfl]

theorem isPrefixOf_eq_false_iff {part : List Char} :
    schemaKey.isPrefixOf part = false ↔ ¬schemaKey <+: part := by
  rw [← List.isPrefixOf_iff_prefix, Bool.not_eq_true]

theorem namesFirst_iff_find?
    {parts : List (List Char)} {name : List Char} :
    NamesFirst parts name ↔ parts.find? schemaKey.isPrefixOf = some (schemaKey ++ name) := by
  simp [NamesFirst, List.find?_eq_some_iff_append, isPrefixOf_eq_false_iff]

theorem namesFirst_or_other (parts : List (List Char)) :
    (∃ name, NamesFirst parts name) ∨ ∀ part ∈ parts, ¬schemaKey <+: part := by
  cases found : parts.find? schemaKey.isPrefixOf with
  | none =>
      refine .inr fun part member begins => ?_
      exact List.find?_eq_none.mp found part member (List.isPrefixOf_iff_prefix.mpr begins)
  | some part =>
      obtain ⟨name, rfl⟩ := List.isPrefixOf_iff_prefix.mp (List.find?_some found)
      exact .inl ⟨name, namesFirst_iff_find?.mpr found⟩

variable {tag tag' : String}

theorem schemaName_of_nameIn
    {result : Except Error (List Char)} (found : nameIn (parts tag) = some result) :
    schemaName tag = result.map String.ofList := by
  rw [schemaName, if_neg, found]
  · cases result <;> rfl
  · intro nothing
    rw [parts_eq_nil_of_blank (trim_eq_nil_iff.mp (List.isEmpty_iff.mp nothing))] at found
    cases found

theorem schemaName_of_answers {answer : Except Error String} (answers : Answers tag answer) :
    schemaName tag = answer := by
  cases answers with
  | @named name first nonempty plain =>
      have content : name.toList ≠ [] := mt String.toList_eq_nil_iff.mp nonempty
      have found := first.nameIn_eq
      rw [if_neg (mt List.isEmpty_iff.mp content),
        if_neg (mt List.contains_iff_mem.mp plain)] at found
      rw [schemaName_of_nameIn found, Except.map, String.ofList_toList]
  | emptyName first => exact schemaName_of_nameIn first.nameIn_eq
  | @badName name first equals =>
      have found := first.nameIn_eq
      rw [if_neg (mt List.isEmpty_iff.mp (List.ne_nil_of_mem equals)),
        if_pos (List.contains_iff_mem.mpr equals)] at found
      exact schemaName_of_nameIn found
  | empty blank => rw [schemaName, if_pos (List.isEmpty_iff.mpr (trim_eq_nil_iff.mpr blank))]
  | noName written other =>
      obtain ⟨character, member, visible⟩ := written
      rw [schemaName, if_neg, nameIn_eq_none other]
      intro nothing
      have blank := trim_eq_nil_iff.mp (List.isEmpty_iff.mp nothing) character member
      rw [visible] at blank
      cases blank

/-- The name that comes first settles the answer. -/
theorem exists_answer_of_name (name : List Char) :
    ∃ answer, ∀ tag, NamesFirst (parts tag) name → Answers tag answer := by
  by_cases equals : '=' ∈ name
  · exact ⟨_, fun _ first => .badName first equals⟩
  cases name with
  | nil => exact ⟨_, fun _ first => .emptyName first⟩
  | cons character name =>
      have same : (String.ofList (character :: name)).toList = character :: name :=
        String.toList_ofList
      refine ⟨.ok (String.ofList (character :: name)), fun _ first => .named ?_ ?_ ?_⟩
      · rwa [same]
      · intro nothing
        rw [nothing] at same
        cases same
      · rwa [same]

theorem exists_answers (tag : String) : ∃ answer, Answers tag answer := by
  by_cases blank : ∀ character ∈ tag.toList, isBlank character = true
  · exact ⟨_, .empty blank⟩
  rcases namesFirst_or_other (parts tag) with ⟨name, first⟩ | other
  · obtain ⟨answer, answers⟩ := exists_answer_of_name name
    exact ⟨answer, answers tag first⟩
  · obtain ⟨character, visible⟩ := not_forall.mp blank
    obtain ⟨member, visible⟩ := Classical.not_imp.mp visible
    exact ⟨_, .noName ⟨character, member, Bool.eq_false_iff.mpr visible⟩ other⟩

theorem schemaName_eq_iff {answer : Except Error String} :
    schemaName tag = answer ↔ Answers tag answer := by
  constructor
  · rintro rfl
    obtain ⟨answer, answers⟩ := exists_answers tag
    rwa [schemaName_of_answers answers]
  · exact schemaName_of_answers

theorem schemaName_eq_ok_iff {name : String} :
    schemaName tag = .ok name ↔
      NamesFirst (parts tag) name.toList ∧ name ≠ "" ∧ '=' ∉ name.toList := by
  rw [schemaName_eq_iff]
  constructor
  · intro answers
    cases answers with
    | named first nonempty plain => exact ⟨first, nonempty, plain⟩
  · rintro ⟨first, nonempty, plain⟩
    exact .named first nonempty plain

/-- Nothing is looked at behind the first part that begins with the key. -/
theorem NamesFirst.schemaName_eq
    {name : List Char} (first : NamesFirst (parts tag) name)
    (first' : NamesFirst (parts tag') name) : schemaName tag = schemaName tag' := by
  obtain ⟨answer, answers⟩ := exists_answer_of_name name
  rw [schemaName_of_answers (answers tag first), schemaName_of_answers (answers tag' first')]

theorem exists_error_of_malformed
    {name : List Char} (first : NamesFirst (parts tag) name) (malformed : name = [] ∨ '=' ∈ name) :
    ∃ error, schemaName tag = .error error := by
  rcases malformed with rfl | equals
  · exact ⟨_, schemaName_of_answers (.emptyName first)⟩
  · exact ⟨_, schemaName_of_answers (.badName first equals)⟩

theorem usable_of_schemaName {name : String} (named : schemaName tag = .ok name) :
    Carries name ∧ '=' ∉ name.toList :=
  ⟨carries_of_schemaName named, (schemaName_eq_ok_iff.mp named).2.2⟩

/-- The tags differ in one piece between commas that is there or not, or in blanks around
one. -/
inductive Edit (free : List Char → Prop) : String → String → Prop where
  | insert {before after : List (List Char)} {piece : List Char}
      (noComma : ∀ other ∈ before ++ piece :: after, ',' ∉ other) (other : free (trim piece)) :
      Edit free (joined (before ++ after)) (joined (before ++ piece :: after))
  | pad {before after : List (List Char)} {left piece right : List Char}
      (noComma : ∀ other ∈ before ++ piece :: after, ',' ∉ other)
      (blankLeft : ∀ character ∈ left, isBlank character = true)
      (blankRight : ∀ character ∈ right, isBlank character = true) :
      Edit free (joined (before ++ piece :: after))
        (joined (before ++ (left ++ piece ++ right) :: after))

/-- Tags that lead to each other by edits, each of them made or undone. -/
def Edits (free : List Char → Prop) : String → String → Prop := Relation.EqvGen (Edit free)

theorem Edit.filter_parts
    {free : List Char → Prop} (edit : Edit free tag tag') (keep : List Char → Bool)
    (dropped : ∀ part, free part → keep part = false) :
    (parts tag).filter keep = (parts tag').filter keep := by
  cases edit with
  | @insert before after piece noComma other =>
      have shorter : ∀ other ∈ before ++ after, ',' ∉ other := by
        obtain ⟨earlier, here⟩ := List.forall_mem_append.mp noComma
        exact List.forall_mem_append.mpr ⟨earlier, (List.forall_mem_cons.mp here).2⟩
      rw [parts_joined shorter, parts_joined noComma]
      simp only [List.map_append, List.map_cons, List.filter_filter, List.filter_append]
      rw [List.filter_cons_of_neg]
      simp [dropped _ other]
  | @pad before after left piece right noComma blankLeft blankRight =>
      have padded : ∀ other ∈ before ++ (left ++ piece ++ right) :: after, ',' ∉ other := by
        rw [List.forall_mem_append, List.forall_mem_cons] at noComma ⊢
        obtain ⟨earlier, here, later⟩ := noComma
        refine ⟨earlier, ?_, later⟩
        rw [List.mem_append, List.mem_append]
        rintro ((inLeft | inside) | inRight)
        · exact not_mem_of_blank blankLeft inLeft
        · exact here inside
        · exact not_mem_of_blank blankRight inRight
      rw [parts_joined noComma, parts_joined padded, List.map_append, List.map_append,
        List.map_cons, List.map_cons, trim_surrounded blankLeft blankRight]

theorem Edits.filter_parts
    {free : List Char → Prop} (edits : Edits free tag tag') (keep : List Char → Bool)
    (dropped : ∀ part, free part → keep part = false) :
    (parts tag).filter keep = (parts tag').filter keep := by
  induction edits with
  | rel tag tag' edit => exact edit.filter_parts keep dropped
  | refl tag => rfl
  | symm tag tag' edits induction => exact induction.symm
  | trans tag tag' tag'' edits edits' induction induction' => exact induction.trans induction'

/-- The first part that begins with the key is not touched by edits of other parts. -/
theorem Edits.namesFirst_iff
    (edits : Edits (fun part => ¬schemaKey <+: part) tag tag') (name : List Char) :
    NamesFirst (parts tag) name ↔ NamesFirst (parts tag') name := by
  have same := edits.filter_parts schemaKey.isPrefixOf fun _ => isPrefixOf_eq_false_iff.mpr
  rw [namesFirst_iff_find?, namesFirst_iff_find?, ← List.head?_filter, ← List.head?_filter, same]

theorem excludes_iff : excludes tag = true ↔ exclusion ∈ parts tag := List.contains_iff_mem

/-- Neither are the parts that leave the field out. -/
theorem Edits.excludes_eq (edits : Edits (· ≠ exclusion) tag tag') :
    excludes tag = excludes tag' := by
  have same := edits.filter_parts (· == exclusion) fun _ => beq_eq_false_iff_ne.mpr
  have found (tag : String) :
      excludes tag = ((parts tag).filter (· == exclusion)).contains exclusion := by
    rw [Bool.eq_iff_iff, excludes_iff, List.contains_iff_mem, List.mem_filter, beq_self_eq_true,
      and_iff_left rfl]
  rw [found, found, same]

/-- What a tag says, and which edits of it do not matter. -/
structure Grammar (tag : String) : Prop where
  divides_iff : ∀ found, Divides tag found ↔ found = parts tag
  answers_iff : ∀ answer, schemaName tag = answer ↔ Answers tag answer
  accepts_iff : ∀ name, schemaName tag = .ok name ↔
    NamesFirst (parts tag) name.toList ∧ name ≠ "" ∧ '=' ∉ name.toList
  usable : ∀ name, schemaName tag = .ok name → Carries name ∧ '=' ∉ name.toList
  /-- A malformed first name is an error, whatever the later parts are. -/
  malformed : ∀ name, NamesFirst (parts tag) name → name = [] ∨ '=' ∈ name →
    ∃ error, schemaName tag = .error error
  /-- Tags with the same first name give the same answer. -/
  decided : ∀ name tag', NamesFirst (parts tag) name → NamesFirst (parts tag') name →
    schemaName tag = schemaName tag'
  edited : ∀ tag', Edits (fun part => ¬schemaKey <+: part) tag tag' →
    ∀ name, schemaName tag = .ok name ↔ schemaName tag' = .ok name
  excluded_iff : ∀ field : FieldDeclaration, field.tag = tag → (field.isExcluded = true ↔
    field.isPrivate = true ∨ field.name = FieldDeclaration.ignoredName ∨ exclusion ∈ parts tag)
  unaffected : ∀ tag', Edits (· ≠ exclusion) tag tag' → ∀ field : FieldDeclaration,
    { field with tag := tag }.isExcluded = { field with tag := tag' }.isExcluded

/-- A tag is read as its grammar says, and by nothing but the parts that a question is
about. -/
theorem accepts_exactly_its_grammar (tag : String) : Grammar tag where
  divides_iff _ := divides_iff
  answers_iff _ := schemaName_eq_iff
  accepts_iff _ := schemaName_eq_ok_iff
  usable _ := usable_of_schemaName
  malformed _ := exists_error_of_malformed
  decided _ _ := NamesFirst.schemaName_eq
  edited tag' edits name := by
    rw [schemaName_eq_ok_iff, schemaName_eq_ok_iff, edits.namesFirst_iff]
  excluded_iff field same := by
    rw [← same, ← excludes_iff]
    simp [FieldDeclaration.isExcluded, or_assoc]
  unaffected tag' edits field := by
    simp only [FieldDeclaration.isExcluded, edits.excludes_eq]

/-- A name behind another part is read, and it is still read when that part and the blank
are taken away; a first name with an equals sign is an error before a good one. -/
theorem accepts_user_of_json :
    schemaName "json:x, schema=cxo.User" = .ok "cxo.User" ∧
    schemaName "schema=cxo.User" = .ok "cxo.User" ∧
    (∃ error, schemaName "schema=a=b,schema=c" = .error error) ∧
    FieldDeclaration.isExcluded ⟨"Age", "-,schema=", .marker .single, false⟩ = true := by
  have named : schemaName "json:x, schema=cxo.User" = .ok "cxo.User" :=
    ((accepts_exactly_its_grammar _).accepts_iff _).mpr
      ⟨⟨["json:x".toList], [], by decide, by decide⟩, by decide, by decide⟩
  have padded : Edit (fun part => ¬schemaKey <+: part) "schema=cxo.User" " schema=cxo.User" :=
    @Edit.pad _ [] [] [' '] "schema=cxo.User".toList [] (by decide)
      (List.forall_mem_singleton.mpr rfl) nofun
  have inserted : Edit (fun part => ¬schemaKey <+: part) " schema=cxo.User"
      "json:x, schema=cxo.User" :=
    @Edit.insert _ [] [" schema=cxo.User".toList] "json:x".toList (by decide) (by decide)
  have edits : Edits (fun part => ¬schemaKey <+: part) "schema=cxo.User"
      "json:x, schema=cxo.User" :=
    .trans _ _ _ (.rel _ _ padded) (.rel _ _ inserted)
  refine ⟨named, ((accepts_exactly_its_grammar _).edited _ edits _).mpr named, ?_, ?_⟩
  · exact (accepts_exactly_its_grammar _).malformed "a=b".toList
      ⟨[], ["schema=c".toList], by decide, nofun⟩ (.inr (by decide))
  · exact ((accepts_exactly_its_grammar _).excluded_iff _ rfl).mpr (.inr (.inr (by decide)))

end Tag

end TypedObject
