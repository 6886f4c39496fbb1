import Mathlib.Data.List.Basic

universe u v w

namespace Nsumo.Lib

variable {ε σ α β : Type u}

/-- From a state in `P` the program ends with a value in `Q` or with an error in `E`. -/
def Triple (P : σ → Prop) (x : EStateM ε σ α) (Q : α → σ → Prop) (E : ε → σ → Prop) : Prop :=
  ∀ s, P s →
    match x s with
    | .ok a t => Q a t
    | .error e t => E e t

theorem bind_run {x : EStateM ε σ α} {f : α → EStateM ε σ β} {s t : σ} {a : α}
    (h : x s = .ok a t) : (x >>= f) s = f a t := by
  change EStateM.bind x f s = f a t
  rw [EStateM.bind, h]

def stateAfter : EStateM.Result ε σ α → σ
  | .ok _ t | .error _ t => t

namespace Triple

variable {P P' : σ → Prop} {Q Q' : α → σ → Prop} {R : β → σ → Prop} {E E' : ε → σ → Prop}
  {x : EStateM ε σ α} {f : α → EStateM ε σ β}

theorem conseq (h : Triple P x Q E) (hP : ∀ s, P' s → P s) (hQ : ∀ a s, Q a s → Q' a s)
    (hE : ∀ e s, E e s → E' e s) : Triple P' x Q' E' := by
  intro s hs
  have hrun := h s (hP s hs)
  cases hx : x s with
  | ok a t => exact hQ a t (by simpa [hx] using hrun)
  | error e t => exact hE e t (by simpa [hx] using hrun)

theorem after {Q : σ → Prop} (h : Triple P x (fun _ => Q) fun _ => Q) {s : σ} (hs : P s) :
    Q (stateAfter (x s)) := by
  have hrun := h s hs
  cases hx : x s with
  | ok a t =>
    rw [hx] at hrun
    exact hrun
  | error e t =>
    rw [hx] at hrun
    exact hrun

theorem ok (h : Triple P x Q E) {s t : σ} {a : α} (hs : P s) (hx : x s = .ok a t) : Q a t := by
  have hrun := h s hs
  rwa [hx] at hrun

theorem error (h : Triple P x Q E) {s t : σ} {e : ε} (hs : P s) (hx : x s = .error e t) :
    E e t := by
  have hrun := h s hs
  rwa [hx] at hrun

theorem total (h : Triple P x Q fun _ _ => False) {s : σ} (hs : P s) :
    ∃ a t, x s = .ok a t ∧ Q a t := by
  have hrun := h s hs
  cases hx : x s with
  | ok a t => exact ⟨a, t, rfl, by simpa [hx] using hrun⟩
  | error e t => simp [hx] at hrun

theorem strengthen (h : Triple P x Q E) (hP : ∀ s, P' s → P s) : Triple P' x Q E :=
  h.conseq hP (fun _ _ h => h) fun _ _ h => h

theorem ret {a : α} (h : ∀ s, P s → Q a s) : Triple P (pure a) Q E := h

theorem raise {e : ε} (h : ∀ s, P s → E e s) : Triple P (throw e : EStateM ε σ α) Q E := h

theorem update {g : σ → σ} {Q : PUnit → σ → Prop} (h : ∀ s, P s → Q ⟨⟩ (g s)) :
    Triple P (modify g : EStateM ε σ PUnit) Q E := h

theorem updateGet {g : σ → α × σ} (h : ∀ s, P s → Q (g s).1 (g s).2) :
    Triple P (modifyGet g : EStateM ε σ α) Q E := h

theorem read {Q : σ → σ → Prop} (h : ∀ s, P s → Q s s) :
    Triple P (get : EStateM ε σ σ) Q E := h

theorem bind (hx : Triple P x Q E) (hf : ∀ a, Triple (Q a) (f a) R E) :
    Triple P (x >>= f) R E := by
  intro s hs
  have hrun := hx s hs
  change match EStateM.bind x f s with | .ok b t => R b t | .error e t => E e t
  rw [EStateM.bind]
  cases h : x s with
  | ok a t => exact hf a t (by simpa [h] using hrun)
  | error e t => simpa [h] using hrun

theorem bindValue {a : α} {Q : σ → Prop} (hx : Triple P x (fun b s => b = a ∧ Q s) E)
    (hf : Triple Q (f a) R E) : Triple P (x >>= f) R E := by
  refine hx.bind fun b => ?_
  rintro s ⟨rfl, hs⟩
  exact hf s hs

theorem trace {S : σ → Prop} (h : Triple P x Q E) :
    Triple (fun s => S s ∧ P s) x (fun a t => (∃ s, S s ∧ x s = .ok a t) ∧ Q a t) E := by
  rintro s ⟨hS, hP⟩
  have hrun := h s hP
  cases hx : x s with
  | ok a t => exact ⟨⟨s, hS, hx⟩, by simpa [hx] using hrun⟩
  | error e t => simpa [hx] using hrun

theorem some {ι : Sort v} {P : ι → σ → Prop} (h : ∀ i, Triple (P i) x Q E) :
    Triple (fun s => ∃ i, P i s) x Q E := by
  rintro s ⟨i, hs⟩
  exact h i s hs

theorem guarded {p : Prop} (h : p → Triple P x Q E) : Triple (fun s => p ∧ P s) x Q E :=
  fun s hs => h hs.1 s hs.2

theorem either (h : Triple P x Q E) (h' : Triple P' x Q E) :
    Triple (fun s => P s ∨ P' s) x Q E :=
  fun s hs => hs.elim (h s) (h' s)

theorem cond {c : Prop} [Decidable c] {y : EStateM ε σ α} (hthen : c → Triple P x Q E)
    (helse : ¬c → Triple P y Q E) : Triple P (if c then x else y) Q E := by
  by_cases hc : c
  · simpa [hc] using hthen hc
  · simpa [hc] using helse hc

end Triple

end Nsumo.Lib
