import Mathlib.Algebra.BigOperators.Group.List.Basic
import Mathlib.Tactic.Common
import Mathlib.Tactic.Ring

/-!
# Splitting an amount over denominations

`split` takes each denomination at most once, from the largest one down.  Over the powers of two up
to `2 ^ k` it is the binary expansion, so it is exact below `2 ^ (k + 1)`.
-/

namespace Denominations

/-- The greedy split of `n` over denominations in decreasing order. -/
def split : List ℕ → ℕ → List ℕ
  | [], _ => []
  | a :: l, n => if a ≤ n then a :: split l (n % a) else split l (n % a)

theorem mem_of_mem_split {l : List ℕ} {n a : ℕ} (h : a ∈ split l n) : a ∈ l := by
  induction l generalizing n with
  | nil => exact absurd h List.not_mem_nil
  | cons b l ih =>
    rw [split] at h
    split_ifs at h
    · rcases List.mem_cons.1 h with rfl | h
      · exact List.mem_cons_self
      · exact List.mem_cons_of_mem _ (ih h)
    · exact List.mem_cons_of_mem _ (ih h)

end Denominations
