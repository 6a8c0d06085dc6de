import Mathlib.Data.List.DropRight
import TypedObject.Declaration.Layout

/-!
# What a tag gives back of a name

A tag is made by writing a name after `schema=`, and read by cutting the text at its
commas and trimming the pieces.  So a tag gives back what stands before the first
comma of the name, without the blanks at its end: the name itself exactly when it
has no comma and no blank there.
-/

namespace TypedObject

namespace Text

variable {separator : Char} {text : List Char}

theorem splitAt_ne_nil : splitAt separator text ≠ [] := by
  cases text with
  | nil => exact nofun
  | cons character text =>
      unfold splitAt
      split
      · exact nofun
      · split <;> exact nofun

/-- The first piece is what stands before the first separator. -/
theorem exists_splitAt_eq_cons (separator : Char) (text : List Char) :
    ∃ others, splitAt separator text = text.takeWhile (· ≠ separator) :: others ∧
      (separator ∉ text → others = []) := by
  induction text with
  | nil => exact ⟨[], rfl, fun _ => rfl⟩
  | cons character text induction =>
      obtain ⟨others, split, single⟩ := induction
      by_cases same : character = separator
      · refine ⟨splitAt separator text, ?_, fun absent => ?_⟩
        · simp [splitAt, same]
        · exact absurd (List.mem_cons.mpr (.inl same.symm)) absent
      · refine ⟨others, ?_, fun absent => single fun later => ?_⟩
        · simp [splitAt, same, split]
        · exact absent (List.mem_cons_of_mem _ later)

theorem not_mem_of_mem_splitAt
    {piece : List Char} (member : piece ∈ splitAt separator text) : separator ∉ piece := by
  induction text generalizing piece with
  | nil =>
      cases List.mem_singleton.mp member
      exact List.not_mem_nil
  | cons character text induction =>
      unfold splitAt at member
      split at member
      · rcases List.mem_cons.mp member with rfl | later
        · exact List.not_mem_nil
        · exact induction later
      · rename_i different
        split at member
        · rename_i none
          exact absurd none splitAt_ne_nil
        · rename_i first others pieces
          rw [pieces] at induction
          rcases List.mem_cons.mp member with rfl | later
          · intro inside
            rcases List.mem_cons.mp inside with same | further
            · exact different same.symm
            · exact induction List.mem_cons_self further
          · exact induction (List.mem_cons_of_mem _ later)

/-- Trimming at the end is the library's dropping from the right. -/
theorem trimEnd_eq_rdropWhile (text : List Char) : trimEnd text = text.rdropWhile isBlank := rfl

theorem trimEnd_eq_self_iff :
    trimEnd text = text ↔ ∀ character ∈ text.getLast?, isBlank character = false := by
  rw [trimEnd_eq_rdropWhile, List.rdropWhile_eq_self_iff]
  constructor
  · intro last character found
    obtain ⟨nonempty, rfl⟩ := List.mem_getLast?_eq_getLast found
    exact Bool.eq_false_iff.mpr (last nonempty)
  · intro last nonempty
    exact Bool.eq_false_iff.mp (last _ (List.getLast?_eq_getLast_of_ne_nil nonempty ▸ rfl))

theorem trimEnd_trim (text : List Char) : trimEnd (trim text) = trim text :=
  List.rdropWhile_idempotent isBlank _

theorem mem_of_mem_trim {character : Char} (member : character ∈ trim text) : character ∈ text :=
  (List.dropWhile_sublist isBlank).subset ((List.rdropWhile_prefix isBlank _).subset member)

end Text

namespace Tag

open Text

/-- What a tag gives back of a name that is written into it. -/
def carried (name : String) : String :=
  String.ofList (trimEnd (name.toList.takeWhile (· ≠ ',')))

/-- The name has no comma, and it does not end with a blank. -/
structure Carries (name : String) : Prop where
  no_comma : ',' ∉ name.toList
  no_blank : ∀ character ∈ name.toList.getLast?, isBlank character = false

theorem takeWhile_eq_self_of_not_mem
    {text : List Char} (absent : ',' ∉ text) : text.takeWhile (· ≠ ',') = text := by
  apply List.takeWhile_eq_self_iff.mpr
  intro character member
  apply decide_eq_true
  intro same
  exact absent (same ▸ member)

theorem Carries.carried_eq {name : String} (carries : Carries name) : carried name = name := by
  rw [carried, takeWhile_eq_self_of_not_mem carries.no_comma,
    trimEnd_eq_self_iff.mpr carries.no_blank, String.ofList_toList]

/-- The key before a name is no blank, so trimming stops there. -/
theorem trim_schemaKey_append (name : List Char) :
    trim (schemaKey ++ name) = schemaKey ++ trimEnd name := by
  rw [trim, show (schemaKey ++ name).dropWhile isBlank = schemaKey ++ name from rfl]
  simp only [trimEnd_eq_rdropWhile]
  induction name using List.reverseRecOn with
  | nil => decide
  | append_singleton name character induction =>
      rw [← List.append_assoc, List.rdropWhile_concat, List.rdropWhile_concat]
      split
      · exact induction
      · rw [List.append_assoc]

/-- A name stands in some part of the tag that it was read from. -/
theorem mem_of_nameIn
    {parts : List (List Char)} {name : List Char} (found : nameIn parts = some (.ok name)) :
    schemaKey ++ name ∈ parts ∧ name ≠ [] := by
  induction parts with
  | nil => cases found
  | cons part rest induction =>
      unfold nameIn at found
      split at found
      · obtain ⟨later, nonempty⟩ := induction found
        exact ⟨List.mem_cons_of_mem _ later, nonempty⟩
      · rename_i content start
        split at found
        · cases found
        · rename_i nonempty
          split at found
          · cases found
          · cases found
            rw [dropStart?_eq_some_iff.mp start]
            refine ⟨List.mem_cons_self, fun empty => nonempty ?_⟩
            rw [empty]
            rfl

theorem nameIn_of_schemaName
    {tag target : String} (named : schemaName tag = .ok target) :
    nameIn (parts tag) = some (.ok target.toList) := by
  unfold schemaName at named
  split at named
  · cases named
  · split at named
    · rename_i name found
      cases named
      rw [found, String.toList_ofList]
    · cases named
    · cases named

theorem schemaName_ne_empty
    {tag target : String} (named : schemaName tag = .ok target) : target ≠ "" := by
  intro empty
  rw [empty] at named
  exact (mem_of_nameIn (nameIn_of_schemaName named)).2 rfl

/-- Whatever is read from a tag has neither a comma nor a blank at its end. -/
theorem carries_of_schemaName
    {tag target : String} (named : schemaName tag = .ok target) : Carries target := by
  obtain ⟨inside, nonempty⟩ := mem_of_nameIn (nameIn_of_schemaName named)
  obtain ⟨piece, member, trimmed⟩ := List.mem_map.mp (List.mem_filter.mp inside).1
  constructor
  · intro comma
    have within : ',' ∈ trim piece := by
      rw [trimmed]
      exact List.mem_append_right _ comma
    exact not_mem_of_mem_splitAt member (mem_of_mem_trim within)
  · have stop := trimEnd_eq_self_iff.mp (trimEnd_trim piece)
    rw [trimmed] at stop
    intro character last
    exact stop character (List.mem_getLast?_append_of_mem_getLast? last)

theorem takeWhile_schemaKey_append (name : List Char) :
    (schemaKey ++ name).takeWhile (· ≠ ',') = schemaKey ++ name.takeWhile (· ≠ ',') :=
  rfl

/-- The tag of a name has one part for what it gives back of the name.  There are
other parts only if the name has a comma. -/
theorem exists_parts_naming (name : String) :
    ∃ others, parts (naming name) = (schemaKey ++ (carried name).toList) :: others ∧
      (',' ∉ name.toList → others = []) := by
  have written : (naming name).toList = schemaKey ++ name.toList := String.toList_append
  obtain ⟨others, split, single⟩ :=
    exists_splitAt_eq_cons ',' (naming name).toList
  rw [written, takeWhile_schemaKey_append] at split
  refine ⟨(others.map trim).filter fun part => !part.isEmpty, ?_, fun absent => ?_⟩
  · rw [parts, written, split, List.map_cons, trim_schemaKey_append, carried,
      String.toList_ofList]
    exact List.filter_cons_of_pos rfl
  · have noComma : ',' ∉ (naming name).toList := by
      rw [written, List.mem_append]
      exact not_or.mpr ⟨by decide, absent⟩
    rw [single noComma]
    rfl

/-- What the tag of a name names, if it names anything. -/
theorem eq_carried_of_schemaName
    {name target : String} (named : schemaName (naming name) = .ok target) :
    target = carried name := by
  have found := nameIn_of_schemaName named
  obtain ⟨others, written, _⟩ := exists_parts_naming name
  rw [written, nameIn, dropStart?_eq_some_iff.mpr rfl] at found
  simp only at found
  split at found
  · cases found
  · split at found
    · cases found
    · simpa [String.toList_inj, eq_comm] using found

/-- The tag of a name without a comma leaves its field in the schema. -/
theorem excludes_naming {name : String} (noComma : ',' ∉ name.toList) :
    excludes (naming name) = false := by
  obtain ⟨others, written, single⟩ := exists_parts_naming name
  rw [excludes, written, single noComma]
  rfl

end Tag

end TypedObject
