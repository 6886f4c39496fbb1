import Nsumo.Lib.Image
import Nsumo.Lib.Triple

/-! Backward simulation: a program over states that know what is to come is run from its end. -/

universe u

namespace Nsumo.Lib

variable {ε σ τ α β : Type u}

/-- Whatever state the end of a run of `x` is related to, `y` runs likewise up to there. -/
def Backward (B : σ → τ → Prop) (x : EStateM ε σ α) (y : EStateM ε τ α) : Prop :=
  ∀ s t', B (stateAfter (x s)) t' → ∃ t, B s t ∧ y t = mapResult (fun _ => t') (x s)

namespace Backward

variable {B : σ → τ → Prop} {x : EStateM ε σ α} {y : EStateM ε τ α} {k : α → EStateM ε σ β}
  {k' : α → EStateM ε τ β}

theorem ret (a : α) : Backward B (pure a : EStateM ε σ α) (pure a) :=
  fun _ t' ht => ⟨t', ht, rfl⟩

theorem raise (e : ε) : Backward B (throw e : EStateM ε σ α) (throw e) :=
  fun _ t' ht => ⟨t', ht, rfl⟩

theorem update {g : σ → σ} {g' : τ → τ} (h : ∀ s t', B (g s) t' → ∃ t, B s t ∧ g' t = t') :
    Backward B (modify g : EStateM ε σ PUnit) (modify g') := by
  intro s t' ht
  obtain ⟨t, hB, ht⟩ := h s t' ht
  exact ⟨t, hB, congrArg (EStateM.Result.ok _) ht⟩

theorem updateGet {g : σ → α × σ} {g' : τ → α × τ}
    (h : ∀ s t', B (g s).2 t' → ∃ t, B s t ∧ g' t = ((g s).1, t')) :
    Backward B (modifyGet g : EStateM ε σ α) (modifyGet g') := by
  intro s t' ht
  obtain ⟨t, hB, ht⟩ := h s t' ht
  refine ⟨t, hB, ?_⟩
  change EStateM.Result.ok (g' t).1 (g' t).2 = _
  rw [ht]
  rfl

theorem bind (hx : Backward B x y) (hk : ∀ a, Backward B (k a) (k' a)) :
    Backward B (x >>= k) (y >>= k') := by
  intro s t' ht
  change B (stateAfter (EStateM.bind x k s)) t' at ht
  change ∃ t, B s t ∧ EStateM.bind y k' t = mapResult _ (EStateM.bind x k s)
  rw [EStateM.bind] at ht ⊢
  cases hrun : x s with
  | ok a m =>
    rw [hrun] at ht
    obtain ⟨n, hn, hrest⟩ := hk a m t' ht
    obtain ⟨t, hB, hfirst⟩ := hx s n (by rwa [hrun])
    refine ⟨t, hB, ?_⟩
    rw [EStateM.bind, hfirst, hrun]
    exact hrest
  | error e m =>
    rw [hrun] at ht
    obtain ⟨t, hB, hfirst⟩ := hx s t' (by rwa [hrun])
    refine ⟨t, hB, ?_⟩
    rw [EStateM.bind, hfirst, hrun]
    rfl

theorem read {k : σ → EStateM ε σ β} {k' : τ → EStateM ε τ β}
    (hk : ∀ s t', B (stateAfter (k s s)) t' →
      ∃ y, (∀ t, B s t → k' t = y) ∧ Backward B (k s) y) :
    Backward B ((get : EStateM ε σ σ) >>= k) ((get : EStateM ε τ τ) >>= k') := by
  intro s t' ht
  obtain ⟨y, hsame, hy⟩ := hk s t' ht
  obtain ⟨t, hB, hrun⟩ := hy s t' ht
  exact ⟨t, hB, (congrFun (hsame t hB) t).trans hrun⟩

theorem cond {c : Prop} [Decidable c] {x' : EStateM ε σ α} {y' : EStateM ε τ α}
    (hx : Backward B x y) (hx' : Backward B x' y') :
    Backward B (if c then x else x') (if c then y else y') := by
  split
  · exact hx
  · exact hx'

end Backward

end Nsumo.Lib
