import Mathlib.Data.List.Induction

universe u v

namespace Nsumo.Lib.Total

variable {σ : Type u} {ι : Type v} {step : σ → ι → σ}

def Along (step : σ → ι → σ) (C : σ → ι → Prop) (is : List ι) (s : σ) : Prop :=
  ∀ pre i post, is = pre ++ i :: post → C (pre.foldl step s) i

theorem along_of_append {C : σ → ι → Prop} {xs ys : List ι} {s : σ}
    (h : Along step C (xs ++ ys) s) : Along step C xs s := by
  intro pre i post hsplit
  exact h pre i (post ++ ys) (by rw [hsplit, List.append_assoc, List.cons_append])

theorem along_last {C : σ → ι → Prop} {is : List ι} {i : ι} {s : σ}
    (h : Along step C (is ++ [i]) s) : C (is.foldl step s) i := h is i [] rfl

theorem foldl_invariant {I : σ → Prop} (keep : ∀ s i, I s → I (step s i)) {s : σ} (init : I s)
    (is : List ι) : I (is.foldl step s) := by
  induction is generalizing s with
  | nil => exact init
  | cons i is ih => exact ih (keep s i init)

/-- The invariant rule where the steps meet a condition and the invariant also speaks of the inputs
that have been read. -/
theorem foldl_prefix_invariant {C : σ → ι → Prop} {I : List ι → σ → Prop} {s : σ} (init : I [] s)
    (keep : ∀ is s i, C s i → I is s → I (is ++ [i]) (step s i)) {is : List ι}
    (hC : Along step C is s) : I is (is.foldl step s) := by
  induction is using List.reverseRecOn with
  | nil => exact init
  | append_singleton is i ih =>
    rw [List.foldl_append, List.foldl_cons, List.foldl_nil]
    exact keep is _ i (along_last hC) (ih (along_of_append hC))

end Nsumo.Lib.Total
