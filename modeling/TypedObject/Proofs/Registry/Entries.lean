import Mathlib.Data.List.Sort
import TypedObject.Proofs.Lookup
import TypedObject.Proofs.Schema.Relabel
import TypedObject.Registry.Basic

/-!
# Entries with different names

What entries hold does not depend on their order as long as the names differ: a
lookup finds an entry exactly when it is there, and sorting by name gives one list
for all orders.
-/

namespace TypedObject.Entries

/-- The kind of the schema under a name. -/
def kindOf? (entries : Entries) (name : String) : Option Kind :=
  (entries.lookup name).map Schema.kind

/-- Every placeholder takes the kind of the entry that it names. -/
def relabel (entries : Entries) : Entries :=
  entries.map fun entry => (entry.1, entry.2.relabel entries.kindOf?)

/-- No two entries have the same name. -/
def Distinct (entries : Entries) : Prop := (entries.map (·.1)).Nodup

/-- Every name comes before the names after it. -/
def Increasing (entries : Entries) : Prop := entries.Pairwise fun first later => first.1 < later.1

/-- Every entry holds a schema in full. -/
def Full (entries : Entries) : Prop := ∀ entry ∈ entries, entry.2.isPlaceholder = false

/-- Every placeholder names an entry. -/
def Closed (entries : Entries) : Prop :=
  ∀ entry ∈ entries, ∀ mention ∈ entry.2.placeholders, (entries.lookup mention.2).isSome

/-- Every placeholder names an entry and has its kind. -/
def Linked (entries : Entries) : Prop :=
  ∀ entry ∈ entries, ∀ mention ∈ entry.2.placeholders,
    entries.kindOf? mention.2 = some mention.1

instance (entries : Entries) : Decidable entries.Distinct :=
  inferInstanceAs (Decidable (entries.map (·.1)).Nodup)

instance (entries : Entries) : Decidable entries.Increasing :=
  inferInstanceAs (Decidable (entries.Pairwise fun first later => first.1 < later.1))

instance (entries : Entries) : Decidable entries.Linked :=
  inferInstanceAs (Decidable (∀ entry ∈ entries, ∀ mention ∈ entry.2.placeholders,
    entries.kindOf? mention.2 = some mention.1))

/-- Entries as a registry holds them. -/
structure Registered (entries : Entries) : Prop where
  increasing : entries.Increasing
  full : entries.Full
  linked : entries.Linked

/-- An entry with a formed schema under its own name. -/
structure FormedEntry (entry : String × Schema) : Prop where
  name_nonempty : entry.1 ≠ ""
  own_name : entry.2.name? = some entry.1
  formed : Schema.FormedAt true entry.2

instance (entry : String × Schema) : Decidable (FormedEntry entry) :=
  decidable_of_iff (entry.1 ≠ "" ∧ entry.2.name? = some entry.1 ∧ Schema.FormedAt true entry.2)
    ⟨fun ⟨named, own, formed⟩ => ⟨named, own, formed⟩,
      fun ⟨named, own, formed⟩ => ⟨named, own, formed⟩⟩

theorem FormedEntry.full
    {entry : String × Schema} (formed : FormedEntry entry) :
    entry.2.isPlaceholder = false := by
  simpa using formed.formed.1.position

theorem kindOf?_ne_reference
    {entries : Entries} (formed : ∀ entry ∈ entries, FormedEntry entry) (name : String) :
    entries.kindOf? name ≠ some .reference := by
  intro known
  obtain ⟨schema, found, kind⟩ := Option.map_eq_some_iff.mp known
  have entryFormed := formed _ (Lookup.mem_of_lookup found)
  exact entryFormed.formed.kind_ne_reference entryFormed.own_name kind

theorem Distinct.lookup_eq_some_iff
    {entries : Entries} (distinct : entries.Distinct) {name : String} {schema : Schema} :
    entries.lookup name = some schema ↔ (name, schema) ∈ entries :=
  Lookup.lookup_eq_some_iff distinct

theorem Distinct.perm
    {entries entries' : Entries} (distinct : entries.Distinct) (same : entries.Perm entries') :
    entries'.Distinct := by
  have names : (entries.map (·.1)).Perm (entries'.map (·.1)) := same.map _
  exact names.nodup_iff.mp distinct

theorem Distinct.left
    {entries later : Entries} (distinct : Distinct (entries ++ later)) : entries.Distinct := by
  unfold Distinct at distinct ⊢
  rw [List.map_append] at distinct
  exact (List.nodup_append.mp distinct).1

theorem distinct_append_singleton_iff
    {entries : Entries} {entry : String × Schema} :
    (entries ++ [entry]).Distinct ↔ entries.Distinct ∧ entries.lookup entry.1 = none := by
  rw [Distinct, List.map_append, List.map_singleton, ← List.concat_eq_append, List.nodup_concat,
    List.lookup_eq_none_iff, and_comm]
  apply and_congr_right
  intro _
  simp only [List.mem_map, not_exists, not_and, bne_iff_ne, ne_comm]

theorem Distinct.lookup_perm
    {entries entries' : Entries} (distinct : entries.Distinct) (same : entries.Perm entries')
    (name : String) : entries'.lookup name = entries.lookup name := by
  apply Option.ext
  intro schema
  rw [distinct.lookup_eq_some_iff, (distinct.perm same).lookup_eq_some_iff, same.mem_iff]

theorem Distinct.kindOf?_perm
    {entries entries' : Entries} (distinct : entries.Distinct) (same : entries.Perm entries')
    (name : String) : entries'.kindOf? name = entries.kindOf? name := by
  rw [kindOf?, kindOf?, distinct.lookup_perm same]

theorem Increasing.distinct
    {entries : Entries} (increasing : entries.Increasing) : entries.Distinct := by
  apply List.pairwise_map.mpr
  apply increasing.imp
  intro first later less same
  rw [same] at less
  exact String.lt_irrefl _ less

/-- The order in which entries are sorted. -/
def NameLE (first later : String × Schema) : Prop := first.1 ≤ later.1

instance : DecidableRel NameLE := fun first later =>
  inferInstanceAs (Decidable (first.1 ≤ later.1))

instance : Std.Total NameLE := ⟨fun first later => String.le_total first.1 later.1⟩

instance : IsTrans (String × Schema) NameLE :=
  ⟨fun _ _ _ before after => String.le_trans before after⟩

theorem sorted_eq_insertionSort (entries : Entries) :
    entries.sorted = entries.insertionSort NameLE := by
  have insert_eq : ∀ (entry : String × Schema) (entries : Entries),
      insert entry entries = entries.orderedInsert NameLE entry := by
    intro entry entries
    induction entries with
    | nil => rfl
    | cons other rest induction =>
        rw [insert, induction, List.orderedInsert_cons]
        rfl
  induction entries with
  | nil => rfl
  | cons entry rest induction => rw [sorted, induction, insert_eq, List.insertionSort_cons]

theorem perm_sorted (entries : Entries) : entries.sorted.Perm entries := by
  rw [sorted_eq_insertionSort]
  exact List.perm_insertionSort NameLE entries

theorem Distinct.increasing_sorted
    {entries : Entries} (distinct : entries.Distinct) : entries.sorted.Increasing := by
  have ordered : entries.sorted.Pairwise NameLE := by
    rw [sorted_eq_insertionSort]
    exact List.pairwise_insertionSort NameLE entries
  have different : entries.sorted.Pairwise fun first later => first.1 ≠ later.1 :=
    List.pairwise_map.mp (distinct.perm entries.perm_sorted.symm)
  apply ordered.imp₂ _ different
  intro first later notGreater unequal
  exact Std.lt_of_le_of_ne notGreater unequal

theorem Increasing.sorted_eq
    {entries : Entries} (increasing : entries.Increasing) : entries.sorted = entries := by
  rw [sorted_eq_insertionSort]
  apply List.Pairwise.insertionSort_eq
  exact increasing.imp fun less => Std.le_of_lt less

/-- There is one way to put entries into the order of their names. -/
theorem Increasing.eq_of_perm
    {entries entries' : Entries} (increasing : entries.Increasing)
    (increasing' : entries'.Increasing) (same : entries.Perm entries') : entries = entries' := by
  apply List.Perm.eq_of_pairwise _ increasing increasing' same
  intro first later _ _ before after
  exact absurd (String.lt_trans before after) (String.lt_irrefl _)

@[simp] theorem map_fst_relabel (entries : Entries) :
    entries.relabel.map (·.1) = entries.map (·.1) := by
  simp [relabel, Function.comp_def]

theorem Distinct.relabel
    {entries : Entries} (distinct : entries.Distinct) : entries.relabel.Distinct := by
  rw [Distinct, map_fst_relabel]
  exact distinct

theorem Distinct.sorted_relabel_perm
    {entries entries' : Entries} (distinct : entries.Distinct) (same : entries.Perm entries') :
    entries.relabel.sorted = entries'.relabel.sorted := by
  have relabelled : entries.relabel.Perm entries'.relabel := by
    have kinds : entries'.kindOf? = entries.kindOf? := funext (distinct.kindOf?_perm same)
    rw [Entries.relabel, Entries.relabel, kinds]
    exact same.map _
  apply distinct.relabel.increasing_sorted.eq_of_perm
  · exact (distinct.perm same).relabel.increasing_sorted
  · exact (entries.relabel.perm_sorted.trans relabelled).trans entries'.relabel.perm_sorted.symm

theorem Full.relabel {entries : Entries} (full : entries.Full) : entries.relabel.Full := by
  intro entry member
  obtain ⟨before, inside, rfl⟩ := List.mem_map.mp member
  rw [Schema.isPlaceholder_relabel]
  exact full before inside

theorem formedEntry_relabel
    {entries : Entries} (formed : ∀ entry ∈ entries, FormedEntry entry) :
    ∀ entry ∈ entries.relabel, FormedEntry entry := by
  intro entry member
  obtain ⟨before, inside, rfl⟩ := List.mem_map.mp member
  obtain ⟨nonempty, own, formedSchema⟩ := formed before inside
  refine ⟨nonempty, ?_, formedSchema.relabel (kindOf?_ne_reference formed)⟩
  rw [Schema.name?_relabel]
  exact own

theorem lookup_relabel (entries : Entries) (name : String) :
    entries.relabel.lookup name =
      (entries.lookup name).map (Schema.relabel entries.kindOf?) := by
  have mapped : ∀ (kindOf : String → Option Kind) (others : Entries),
      List.lookup name (others.map fun entry => (entry.1, entry.2.relabel kindOf)) =
        (others.lookup name).map (Schema.relabel kindOf) := by
    intro kindOf others
    induction others with
    | nil => rfl
    | cons entry rest induction =>
        obtain ⟨key, schema⟩ := entry
        rw [List.map_cons, List.lookup_cons, List.lookup_cons, induction]
        cases name == key <;> rfl
  exact mapped entries.kindOf? entries

theorem Full.kindOf?_relabel
    {entries : Entries} (full : entries.Full) (name : String) :
    entries.relabel.kindOf? name = entries.kindOf? name := by
  rw [kindOf?, lookup_relabel, kindOf?]
  cases found : entries.lookup name with
  | none => rfl
  | some schema =>
      have whole := full _ (Lookup.mem_of_lookup found)
      simp [Schema.kind_relabel whole]

/-- After relabelling, the placeholders of closed entries have the right kinds. -/
theorem Closed.linked_relabel
    {entries : Entries} (closed : entries.Closed) (full : entries.Full) :
    entries.relabel.Linked := by
  intro entry member mention inside
  rw [full.kindOf?_relabel]
  obtain ⟨before, within, rfl⟩ := List.mem_map.mp member
  rw [Schema.placeholders_relabel] at inside
  obtain ⟨old, oldInside, rfl⟩ := List.mem_map.mp inside
  have known := closed before within old oldInside
  obtain ⟨schema, found⟩ := Option.isSome_iff_exists.mp known
  simp [kindOf?, found]

theorem Linked.perm
    {entries entries' : Entries} (linked : entries.Linked) (distinct : entries.Distinct)
    (same : entries.Perm entries') : entries'.Linked := by
  intro entry member mention inside
  rw [distinct.kindOf?_perm same]
  exact linked entry (same.mem_iff.mpr member) mention inside

theorem Linked.closed {entries : Entries} (linked : entries.Linked) : entries.Closed := by
  intro entry member mention inside
  have known := linked entry member mention inside
  unfold kindOf? at known
  cases found : entries.lookup mention.2 with
  | none => simp [found] at known
  | some schema => rfl

theorem Closed.perm
    {entries entries' : Entries} (closed : entries.Closed) (distinct : entries.Distinct)
    (same : entries.Perm entries') : entries'.Closed := by
  intro entry member mention inside
  rw [distinct.lookup_perm same]
  exact closed entry (same.mem_iff.mpr member) mention inside

/-- Relabelling leaves closed entries alone exactly when they are linked. -/
theorem Closed.relabel_eq_self_iff
    {entries : Entries} (closed : entries.Closed) :
    entries.relabel = entries ↔ entries.Linked := by
  have agree_iff : ∀ entry ∈ entries, entry.2.relabel entries.kindOf? = entry.2 ↔
      ∀ mention ∈ entry.2.placeholders, entries.kindOf? mention.2 = some mention.1 := by
    intro entry member
    rw [Schema.relabel_eq_self_iff]
    apply forall₂_congr
    intro mention inside
    have known := closed entry member mention inside
    obtain ⟨schema, found⟩ := Option.isSome_iff_exists.mp known
    simp [kindOf?, found]
  constructor
  · intro same entry member
    have entrySame := List.map_inj_left.mp (same.trans (List.map_id entries).symm) entry member
    exact (agree_iff entry member).mp (congrArg Prod.snd entrySame)
  · intro linked
    calc
      entries.relabel = entries.map id := by
        apply List.map_congr_left
        intro entry member
        rw [(agree_iff entry member).mpr (linked entry member)]
        rfl
      _ = entries := List.map_id entries

/-- The entries of a linked registry, in order and with the right kinds. -/
theorem relabel_sorted_eq_self_iff
    {entries : Entries} (closed : entries.Closed) (distinct : entries.Distinct) :
    entries.relabel.sorted = entries ↔ entries.Increasing ∧ entries.Linked := by
  constructor
  · intro same
    have increasing : entries.Increasing := by
      rw [← same]
      exact distinct.relabel.increasing_sorted
    have relabelIncreasing : entries.relabel.Increasing := by
      apply List.pairwise_map.mpr
      exact increasing
    rw [relabelIncreasing.sorted_eq] at same
    exact ⟨increasing, closed.relabel_eq_self_iff.mp same⟩
  · intro canonical
    rw [closed.relabel_eq_self_iff.mpr canonical.2, canonical.1.sorted_eq]

end TypedObject.Entries
