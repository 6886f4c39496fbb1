import Nsumo.Lib.Run
import Mathlib.Logic.Function.Basic

/-! Machines made of one machine for each key, where every input is for one key. -/

universe u v w x

namespace Nsumo.Lib.Product

variable {κ : Type u} {ι : Type v} {σ : Type w} {ε : Type x} [DecidableEq κ]
variable {step : ι → σ → Except ε σ}

def stepAt (step : ι → σ → Except ε σ) (input : κ × ι) (φ : κ → σ) : Except ε (κ → σ) :=
  (step input.2 (φ input.1)).map (Function.update φ input.1)

def own (k : κ) (inputs : List (κ × ι)) : List ι :=
  inputs.filterMap fun input => if input.1 = k then some input.2 else none

theorem own_cons_self (k : κ) (i : ι) (inputs : List (κ × ι)) :
    own k ((k, i) :: inputs) = i :: own k inputs := by
  rw [own, List.filterMap_cons, if_pos rfl]
  rfl

theorem own_cons_of_ne {k k' : κ} (h : k' ≠ k) (i : ι) (inputs : List (κ × ι)) :
    own k ((k', i) :: inputs) = own k inputs := by
  rw [own, List.filterMap_cons, if_neg h]
  rfl

theorem run_stepAt_ok {inputs : List (κ × ι)} {φ ψ : κ → σ} :
    Run.run (stepAt step) inputs φ = .ok ψ ↔
      ∀ k, Run.run step (own k inputs) (φ k) = .ok (ψ k) := by
  induction inputs generalizing φ with
  | nil =>
    refine ⟨fun h k => ?_, fun h => congrArg Except.ok (funext fun k => Except.ok.inj (h k))⟩
    cases h
    rfl
  | cons input inputs ih =>
    obtain ⟨k, i⟩ := input
    rw [Run.run_cons, stepAt]
    cases hstep : step i (φ k) with
    | error e =>
      refine ⟨nofun, fun h => ?_⟩
      have hk := h k
      rw [own_cons_self, Run.run_cons, hstep] at hk
      cases hk
    | ok s =>
      refine Iff.trans ih (forall_congr' fun k' => ?_)
      by_cases hk : k' = k
      · subst hk
        rw [own_cons_self, Run.run_cons, hstep, Function.update_self]
        rfl
      · rw [own_cons_of_ne (Ne.symm hk), Function.update_of_ne hk]

end Nsumo.Lib.Product
