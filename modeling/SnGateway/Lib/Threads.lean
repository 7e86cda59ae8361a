import Mathlib.Algebra.BigOperators.Group.Finset.Basic
import Mathlib.Algebra.Group.Action.Defs
import Mathlib.Algebra.Order.BigOperators.Group.Finset
import Mathlib.Data.Fintype.BigOperators

/-!
# Threads

Where each of finitely many threads is, and the sum of a weight over the threads: one thread going
on changes the sum by the difference of its two weights (`total_update`).
-/

namespace Threads

variable {ι P : Type} {phase : ι → P} {t u : ι} {p : P}

theorem update_eq_or [DecidableEq ι] (phase : ι → P) (t u : ι) (p : P) :
    (u = t ∧ Function.update phase t p u = p) ∨
      (u ≠ t ∧ Function.update phase t p u = phase u) := by
  by_cases h : u = t
  · exact .inl ⟨h, by rw [h, Function.update_self]⟩
  · exact .inr ⟨h, Function.update_of_ne h p phase⟩

variable [Fintype ι]

def total (weight : P → Nat) (phase : ι → P) : Nat := ∑ t, weight (phase t)

theorem total_update [DecidableEq ι] (weight : P → Nat) (phase : ι → P) (t : ι) (p : P) :
    total weight (Function.update phase t p) + weight (phase t) = total weight phase +
      weight p := by
  have hrest : ∑ u ∈ Finset.univ.erase t, weight (Function.update phase t p u) =
      ∑ u ∈ Finset.univ.erase t, weight (phase u) :=
    Finset.sum_congr rfl fun u hu => by rw [Function.update_of_ne (Finset.ne_of_mem_erase hu)]
  rw [total, total, ← Finset.sum_erase_add _ _ (Finset.mem_univ t), hrest, Function.update_self,
    ← Finset.sum_erase_add Finset.univ (fun u => weight (phase u)) (Finset.mem_univ t)]
  omega

theorem total_le_card_mul {weight : P → Nat} {n : Nat} (h : ∀ p, weight p ≤ n) (phase : ι → P) :
    total weight phase ≤ Fintype.card ι * n :=
  (Finset.sum_le_card_nsmul Finset.univ _ n fun t _ => h (phase t)).trans
    (by rw [Finset.card_univ, smul_eq_mul])

theorem exists_of_total_pos {weight : P → Nat} (h : 0 < total weight phase) :
    ∃ t, 0 < weight (phase t) := by
  by_contra hnone
  push Not at hnone
  exact h.ne' (Finset.sum_eq_zero fun t _ => Nat.le_zero.1 (hnone t))

end Threads
