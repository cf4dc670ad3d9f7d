import Mathlib.Data.List.Basic

/-! Ledgers of resources. A run's ledger is balanced when each resource is released
as often as it was acquired. -/
namespace Line2.Library.Ledger

inductive Event (α : Type)
  | acquired (a : α)
  | released (a : α)
  deriving DecidableEq

variable {α : Type} [DecidableEq α]

def Balanced (ledger : List (Event α)) : Prop :=
  ∀ a, ledger.count (.released a) = ledger.count (.acquired a)

theorem balanced_nil : Balanced ([] : List (Event α)) := fun _ => rfl

/-- A resource held around a run is balanced exactly when the run is. -/
theorem balanced_bracket (a : α) (ledger : List (Event α)) :
    Balanced (.acquired a :: (ledger ++ [.released a])) ↔ Balanced ledger := by
  refine forall_congr' fun b => ?_
  by_cases hab : a = b <;> simp [hab]

/-- A run that releases nothing is balanced only if it acquires nothing. -/
theorem balanced_iff_nil {ledger : List (Event α)} (h : ∀ a, .released a ∉ ledger) :
    Balanced ledger ↔ ledger = [] := by
  refine ⟨?_,fun hnil => hnil ▸ balanced_nil⟩
  intro hbalanced
  apply List.eq_nil_iff_forall_not_mem.mpr
  intro e he
  cases e with
  | acquired a =>
    have hcount := List.count_pos_iff.mpr he
    rw [← hbalanced a, List.count_eq_zero.mpr (h a)] at hcount
    exact Nat.lt_irrefl 0 hcount
  | released a => exact h a he

end Line2.Library.Ledger
