import Mathlib.Data.List.TakeWhile

/-!
# Runs of characters of one class

A reader that takes characters of a class takes exactly the run in front of the
first character outside the class.
-/

namespace FieldRules.Text

variable {α : Type} {holds : α → Bool} {run rest : List α}

theorem takeWhile_run (all : ∀ c ∈ run, holds c = true)
    (stops : ∀ c ∈ rest.head?, holds c = false) : (run ++ rest).takeWhile holds = run := by
  rw [List.takeWhile_append_of_pos all]
  cases rest with
  | nil => simp
  | cons c rest => simp [stops c rfl]

theorem dropWhile_run (all : ∀ c ∈ run, holds c = true)
    (stops : ∀ c ∈ rest.head?, holds c = false) : (run ++ rest).dropWhile holds = rest := by
  rw [List.dropWhile_append_of_pos all]
  cases rest with
  | nil => rfl
  | cons c rest => exact List.dropWhile_cons_of_neg (by simp [stops c rfl])

/-- Two texts with the same run in front agree behind it, too. -/
theorem run_append_inj {other behind : List α} (all : ∀ c ∈ run, holds c = true)
    (all_other : ∀ c ∈ other, holds c = true) (stops : ∀ c ∈ rest.head?, holds c = false)
    (stops_other : ∀ c ∈ behind.head?, holds c = false) (same : run ++ rest = other ++ behind) :
    run = other ∧ rest = behind := by
  have runs := congrArg (List.takeWhile holds) same
  rw [takeWhile_run all stops, takeWhile_run all_other stops_other] at runs
  exact ⟨runs, List.append_cancel_left (runs ▸ same)⟩

end FieldRules.Text
