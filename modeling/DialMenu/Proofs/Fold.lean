import Mathlib.Data.List.Basic
import Mathlib.Data.List.Induction

/-!
What is left of a sequence of calls. A call may write a field, append to it or add to it what is not there yet, and after
all calls the field holds the last value that was written, or all that was appended, or each value once.
-/

namespace DialMenu

section Concat

variable {β γ : Type} (calls : List β) (call : β)

theorem filterMap_concat (f : β → Option γ) : (calls ++ [call]).filterMap f = calls.filterMap f ++ (f call).toList := by
  rw [List.filterMap_append]
  cases given : f call <;> simp [given]

theorem getLast?_filterMap_concat (f : β → Option γ) :
    ((calls ++ [call]).filterMap f).getLast? = (f call).or (calls.filterMap f).getLast? := by
  rw [filterMap_concat, List.getLast?_append]
  cases f call <;> rfl

theorem eraseDups_concat [DecidableEq γ] (held : List γ) (next : Option γ) :
    (held ++ next.toList).eraseDups = held.eraseDups ++ next.toList.filter (· ∉ held.eraseDups) := by
  rw [List.eraseDups_append]
  cases next with
  | none => rfl
  | some entry => by_cases known : entry ∈ held <;> simp [List.removeAll, List.eraseDups_cons, known]

end Concat

variable {α β γ : Type} {apply : α → β → α}

/-- A field that calls overwrite has what the last of them wrote there. -/
theorem foldl_overwritten (field : α → Option γ) {written : β → Option γ}
    (step : ∀ draft call, field (apply draft call) = (written call).or (field draft)) (draft : α) (calls : List β) :
    field (calls.foldl apply draft) = (calls.filterMap written).getLast?.or (field draft) := by
  induction calls using List.reverseRecOn with
  | nil => rfl
  | append_singleton calls call ih =>
    rw [List.foldl_concat, step, ih, getLast?_filterMap_concat, Option.or_assoc]

/-- A field to which calls append has what they appended, in their order. -/
theorem foldl_appended (field : α → List γ) {added : β → List γ}
    (step : ∀ draft call, field (apply draft call) = field draft ++ added call) (draft : α) (calls : List β) :
    field (calls.foldl apply draft) = field draft ++ calls.flatMap added := by
  induction calls generalizing draft with
  | nil => simp
  | cons call calls ih => rw [List.foldl_cons, ih, step, List.flatMap_cons, List.append_assoc]

theorem foldl_added (field : α → List γ) {added : β → Option γ}
    (step : ∀ draft call, field (apply draft call) = field draft ++ (added call).toList) (draft : α) (calls : List β) :
    field (calls.foldl apply draft) = field draft ++ calls.filterMap added := by
  rw [foldl_appended field step, List.filterMap_eq_flatMap_toList]

theorem foldl_kept (field : α → γ) (step : ∀ draft call, field (apply draft call) = field draft) (draft : α)
    (calls : List β) : field (calls.foldl apply draft) = field draft := by
  induction calls generalizing draft with
  | nil => rfl
  | cons call calls ih => rw [List.foldl_cons, ih, step]

/-- A field to which calls append what is not there yet has what they gave, each the first time. -/
theorem foldl_collected [DecidableEq γ] (field : α → List γ) {added : β → Option γ}
    (step : ∀ draft call, field (apply draft call) = field draft ++ (added call).toList.filter (· ∉ field draft))
    {draft : α} (start : field draft = []) (calls : List β) :
    field (calls.foldl apply draft) = (calls.filterMap added).eraseDups := by
  induction calls using List.reverseRecOn with
  | nil => exact start
  | append_singleton calls call ih => rw [List.foldl_concat, step, ih, filterMap_concat, eraseDups_concat]

end DialMenu
