import Mathlib.Data.List.Nodup

/-!
# Tables of entries with keys

Where no key repeats, the entry with a key is the only one, so looking a key up
finds it wherever it stands.
-/

namespace FieldRules

/-- Where a key does not repeat, its entry is the first one found. -/
theorem find?_of_nodup_map {α β : Type} [DecidableEq β] {key : α → β} {entries : List α}
    (distinct : (entries.map key).Nodup) {entry : α} (mem : entry ∈ entries) :
    entries.find? (fun other => key other = key entry) = some entry := by
  induction entries with
  | nil => cases mem
  | cons first entries ih =>
      obtain ⟨fresh, distinct⟩ := List.nodup_cons.mp distinct
      rcases List.mem_cons.mp mem with rfl | mem
      · exact List.find?_cons_of_pos (by simp)
      · have other : key first ≠ key entry := fun same => fresh (same ▸ List.mem_map_of_mem mem)
        rw [List.find?_cons_of_neg (by simp [other])]
        exact ih distinct mem

variable {κ α : Type} [BEq κ] [LawfulBEq κ] {entries : List (κ × α)} {key : κ} {value : α}

/-- Where no key repeats, looking a key up finds its only entry. -/
theorem lookup_eq_some_iff_mem (distinct : (entries.map Prod.fst).Nodup) :
    entries.lookup key = some value ↔ (key, value) ∈ entries := by
  rw [List.lookup_eq_some_iff]
  constructor
  · rintro ⟨before, after, rfl, -⟩
    simp
  · intro mem
    obtain ⟨before, after, rfl⟩ := List.append_of_mem mem
    refine ⟨before, after, rfl, fun earlier inBefore => ?_⟩
    rw [List.map_append, List.map_cons, List.nodup_middle, List.nodup_cons] at distinct
    rw [bne_iff_ne]
    intro same
    have twice : key ∈ before.map Prod.fst := List.mem_map.mpr ⟨earlier, inBefore, same.symm⟩
    exact distinct.1 (List.mem_append_left _ twice)

/-- Leaving out the entries with a key keeps those with another. -/
theorem lookup_filter_ne {other : κ} (different : (other == key) = false) :
    (entries.filter fun entry => entry.1 != key).lookup other = entries.lookup other := by
  induction entries with
  | nil => rfl
  | cons entry entries ih =>
      obtain ⟨bound, value⟩ := entry
      by_cases same : (bound == key) = true
      · rw [List.filter_cons_of_neg (by simp [bne, same]), ih, List.lookup_cons,
          eq_of_beq same, different]
      · rw [List.filter_cons_of_pos (by simp [bne, same]), List.lookup_cons, List.lookup_cons, ih]

end FieldRules
