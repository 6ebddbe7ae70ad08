import FieldRules.Log.Logged
import Mathlib.Data.List.Forall2

/-!
# Outcomes of sequenced computations

A sequence of computations that may fail succeeds exactly when each of them
does.
-/

namespace FieldRules

variable {ε α β : Type}

@[simp]
theorem bind_ok (value : α) (next : α → Except ε β) : (Except.ok value >>= next) = next value :=
  rfl

@[simp]
theorem bind_error (error : ε) (next : α → Except ε β) :
    (Except.error error >>= next) = .error error :=
  rfl

theorem bind_eq_ok_iff {first : Except ε α} {next : α → Except ε β} {result : β} :
    (first >>= next) = .ok result ↔ ∃ value, first = .ok value ∧ next value = .ok result := by
  cases first <;> simp

theorem bind_eq_error_iff {first : Except ε α} {next : α → Except ε β} {error : ε} :
    (first >>= next) = .error error ↔
      first = .error error ∨ ∃ value, first = .ok value ∧ next value = .error error := by
  cases first <;> simp

theorem map_eq_ok_iff {first : Except ε α} {f : α → β} {result : β} :
    first.map f = .ok result ↔ ∃ value, first = .ok value ∧ f value = result := by
  cases first <;> simp [Except.map]

theorem Logged.outcome_bind_eq_ok_iff {first : Logged ε α} {next : α → Logged ε β} {result : β} :
    (first >>= next).outcome = .ok result ↔
      ∃ value, first.outcome = .ok value ∧ (next value).outcome = .ok result := by
  rw [outcome_bind]
  exact bind_eq_ok_iff

theorem Logged.outcome_bind_eq_error_iff {first : Logged ε α} {next : α → Logged ε β} {error : ε} :
    (first >>= next).outcome = .error error ↔
      first.outcome = .error error ∨
        ∃ value, first.outcome = .ok value ∧ (next value).outcome = .error error := by
  rw [outcome_bind]
  exact bind_eq_error_iff

/-- Changing errors does not change successes. -/
theorem Logged.outcome_mapError_eq_ok_iff {ε' : Type} {f : ε → ε'} {computation : Logged ε α}
    {value : α} :
    (computation.mapError f).outcome = .ok value ↔ computation.outcome = .ok value := by
  rw [mapError]
  cases computation.outcome <;> simp [Except.mapError]

/-- Aligned lists are related at every position. -/
theorem getElem?_of_forall₂ {related : α → β → Prop} {inputs : List α} {results : List β}
    (aligned : List.Forall₂ related inputs results) {index : Nat} {input : α}
    (at_index : inputs[index]? = some input) :
    ∃ result, results[index]? = some result ∧ related input result := by
  induction aligned generalizing index with
  | nil => cases at_index
  | @cons first _ _ _ here _ ih =>
      cases index with
      | zero =>
          obtain rfl : first = input := by simpa using at_index
          exact ⟨_, rfl, here⟩
      | succ index => exact ih at_index

theorem exists_mem_of_forall₂ {related : α → β → Prop} {inputs : List α} {results : List β}
    (aligned : List.Forall₂ related inputs results) {input : α} (mem : input ∈ inputs) :
    ∃ result ∈ results, related input result := by
  obtain ⟨index, at_index⟩ := List.mem_iff_getElem?.mp mem
  obtain ⟨result, found, holds⟩ := getElem?_of_forall₂ aligned at_index
  exact ⟨result, List.mem_of_getElem? found, holds⟩

/-- Inputs have aligned results exactly if each of them has one. -/
theorem exists_forall₂_iff {related : α → β → Prop} {inputs : List α} :
    (∃ results, List.Forall₂ related inputs results) ↔
      ∀ input ∈ inputs, ∃ result, related input result := by
  constructor
  · rintro ⟨results, aligned⟩ input mem
    rcases exists_mem_of_forall₂ aligned mem with ⟨result, -, holds⟩
    exact ⟨result, holds⟩
  · intro each
    induction inputs with
    | nil => exact ⟨[], .nil⟩
    | cons input inputs ih =>
        rcases List.forall_mem_cons.mp each with ⟨⟨result, holds⟩, later⟩
        rcases ih later with ⟨results, aligned⟩
        exact ⟨result :: results, .cons holds aligned⟩

/-- Computing over a list succeeds with the results of its entries, in order. -/
theorem mapM_eq_ok_iff {compute : α → Except ε β} {inputs : List α} {results : List β} :
    inputs.mapM compute = .ok results ↔
      List.Forall₂ (fun input result => compute input = .ok result) inputs results := by
  induction inputs generalizing results with
  | nil => cases results <;> simp [pure, Except.pure]
  | cons input inputs ih =>
      rw [List.mapM_cons, bind_eq_ok_iff]
      constructor
      · rintro ⟨result, first, rest⟩
        obtain ⟨more, inOrder, same⟩ := bind_eq_ok_iff.mp rest
        cases same
        exact .cons first (ih.mp inOrder)
      · rintro (_ | ⟨first, inOrder⟩)
        exact ⟨_, first, bind_eq_ok_iff.mpr ⟨_, ih.mpr inOrder, rfl⟩⟩

/-- Computing over a list fails at the first entry at which the computation fails. -/
theorem exists_of_mapM_eq_error {compute : α → Except ε β} {inputs : List α} {error : ε}
    (failed : inputs.mapM compute = .error error) :
    ∃ before input after, inputs = before ++ input :: after ∧
      (∀ earlier ∈ before, ∃ result, compute earlier = .ok result) ∧
        compute input = .error error := by
  induction inputs with
  | nil => cases failed
  | cons input inputs ih =>
      rw [List.mapM_cons] at failed
      rcases bind_eq_error_iff.mp failed with here | ⟨result, computed, behind⟩
      · exact ⟨[], input, inputs, rfl, List.forall_mem_nil _, here⟩
      · rcases bind_eq_error_iff.mp behind with behind | ⟨results, -, done⟩
        · rcases ih behind with ⟨before, later, after, rfl, fine, fails⟩
          exact ⟨input :: before, later, after, rfl,
            List.forall_mem_cons.mpr ⟨⟨result, computed⟩, fine⟩, fails⟩
        · cases done

end FieldRules
