/-!
# Lookup among different keys

A lookup finds the first pair with a key.  When no two pairs have the same key it
finds every pair that is there, so it says no more and no less than membership.
-/

namespace TypedObject.Lookup

variable {α β : Type} [BEq α] [LawfulBEq α]

theorem mem_of_lookup
    {pairs : List (α × β)} {key : α} {value : β} (found : pairs.lookup key = some value) :
    (key, value) ∈ pairs := by
  obtain ⟨before, after, split, _⟩ := List.lookup_eq_some_iff.mp found
  rw [split]
  exact List.mem_append_right _ List.mem_cons_self

theorem lookup_eq_some_iff
    {pairs : List (α × β)} (distinct : (pairs.map (·.1)).Nodup) {key : α} {value : β} :
    pairs.lookup key = some value ↔ (key, value) ∈ pairs := by
  constructor
  · exact mem_of_lookup
  · intro member
    obtain ⟨before, after, split⟩ := List.append_of_mem member
    refine List.lookup_eq_some_iff.mpr ⟨before, after, split, fun pair earlier => ?_⟩
    rw [split, List.map_append, List.map_cons, List.nodup_append] at distinct
    have different := distinct.2.2 pair.1 (List.mem_map_of_mem earlier) key List.mem_cons_self
    exact bne_iff_ne.mpr (Ne.symm different)

end TypedObject.Lookup
