import Mathlib.Data.List.Induction
import Mathlib.Logic.Function.Basic

universe u v w x

namespace Nsumo.Lib.Edits

variable {α : Type u} {κ : Type v} {V : Type w} {F : Type x} [DecidableEq κ]
variable {key : α → κ} {change : V → α → V}

variable (key change) in
def apply (φ : κ → V) (a : α) : κ → V := Function.update φ (key a) (change (φ (key a)) a)

theorem apply_comm {a b : α} (h : key a ≠ key b) (φ : κ → V) :
    apply key change (apply key change φ a) b = apply key change (apply key change φ b) a := by
  simp only [apply, Function.update_of_ne h, Function.update_of_ne h.symm]
  exact Function.update_comm h _ _ _

theorem foldl_apply (as : List α) (φ : κ → V) (k : κ) :
    as.foldl (apply key change) φ k =
      (as.filter fun a => key a = k).foldl change (φ k) := by
  induction as generalizing φ with
  | nil => rfl
  | cons a as ih =>
    rw [List.foldl_cons, ih]
    by_cases h : key a = k
    · subst h
      simp [apply]
    · simp [apply, h, Function.update_of_ne (Ne.symm h)]

def lastSet (set : α → Option F) (as : List α) : Option F := (as.filterMap set).getLast?

theorem field_foldl (field : V → F) (set : α → Option F)
    (h : ∀ v a, field (change v a) = (set a).getD (field v)) (as : List α) (v : V) :
    field (as.foldl change v) = (lastSet set as).getD (field v) := by
  induction as using List.reverseRecOn with
  | nil => rfl
  | append_singleton as a ih =>
    rw [List.foldl_append, List.foldl_cons, List.foldl_nil, h, ih, lastSet, lastSet,
      List.filterMap_append, List.getLast?_append]
    cases hset : set a with
    | none => simp [hset]
    | some x => simp [hset]

end Nsumo.Lib.Edits
