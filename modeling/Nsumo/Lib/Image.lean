import Mathlib.Data.List.Basic

/-! Programs that run alike over the states and over their images. -/

universe u

namespace Nsumo.Lib

variable {ε σ τ α β : Type u}

def mapResult (f : σ → τ) : EStateM.Result ε σ α → EStateM.Result ε τ α
  | .ok a s => .ok a (f s)
  | .error e s => .error e (f s)

/-- `y` does over the images what `x` does over the states. -/
def Alike (f : σ → τ) (x : EStateM ε σ α) (y : EStateM ε τ α) : Prop :=
  ∀ s, y (f s) = mapResult f (x s)

namespace Alike

variable {f : σ → τ} {x : EStateM ε σ α} {y : EStateM ε τ α} {k : α → EStateM ε σ β}
  {k' : α → EStateM ε τ β}

theorem ret (a : α) : Alike f (pure a : EStateM ε σ α) (pure a) := fun _ => rfl

theorem raise (e : ε) : Alike f (throw e : EStateM ε σ α) (throw e) := fun _ => rfl

theorem update {g : σ → σ} {g' : τ → τ} (h : ∀ s, g' (f s) = f (g s)) :
    Alike f (modify g : EStateM ε σ PUnit) (modify g') :=
  fun s => congrArg (EStateM.Result.ok _) (h s)

theorem updateGet {g : σ → α × σ} {g' : τ → α × τ} (h : ∀ s, g' (f s) = ((g s).1, f (g s).2)) :
    Alike f (modifyGet g : EStateM ε σ α) (modifyGet g') := by
  intro s
  change EStateM.Result.ok (g' (f s)).1 (g' (f s)).2 = _
  rw [h]
  rfl

theorem bind (hx : Alike f x y) (hk : ∀ a, Alike f (k a) (k' a)) :
    Alike f (x >>= k) (y >>= k') := by
  intro s
  change EStateM.bind y k' (f s) = mapResult f (EStateM.bind x k s)
  rw [EStateM.bind, EStateM.bind, hx s]
  cases x s with
  | ok a t => exact hk a t
  | error e t => rfl

theorem read {k : σ → EStateM ε σ β} {k' : τ → EStateM ε τ β}
    (hk : ∀ s, Alike f (k s) (k' (f s))) :
    Alike f ((get : EStateM ε σ σ) >>= k) ((get : EStateM ε τ τ) >>= k') :=
  fun s => hk s s

theorem cond {c : Prop} [Decidable c] {x' : EStateM ε σ α} {y' : EStateM ε τ α}
    (hx : Alike f x y) (hx' : Alike f x' y') :
    Alike f (if c then x else x') (if c then y else y') := by
  split
  · exact hx
  · exact hx'

end Alike

end Nsumo.Lib
