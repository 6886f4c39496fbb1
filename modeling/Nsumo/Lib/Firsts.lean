import Mathlib.Data.List.Induction
import Mathlib.Data.List.Nodup
import Mathlib.Data.List.Range

namespace Nsumo.Lib

def firsts (p : Nat → Bool) (count k : Nat) : List Nat := ((List.range k).filter p).take count

variable {p : Nat → Bool} {count k : Nat}

@[simp] theorem firsts_zero : firsts p count 0 = [] := by simp [firsts]

theorem length_firsts : (firsts p count k).length = min count ((List.range k).countP p) := by
  rw [firsts, List.length_take, List.countP_eq_length_filter]

theorem length_firsts_le : (firsts p count k).length ≤ count := List.length_take_le count _

theorem firsts_succ : firsts p count (k + 1) =
    if p k ∧ (firsts p count k).length < count then firsts p count k ++ [k]
    else firsts p count k := by
  rw [firsts, firsts, List.range_succ, List.filter_append, List.take_append]
  by_cases hp : p k
  · rcases Nat.lt_or_ge ((List.range k).filter p).length count with hlt | hge
    · have hrest : [k].length ≤ count - ((List.range k).filter p).length := Nat.sub_pos_of_lt hlt
      rw [List.filter_singleton, cond_eq_ite, if_pos hp, List.take_of_length_le hrest,
        List.take_of_length_le (Nat.le_of_lt hlt), if_pos ⟨hp, hlt⟩]
    · simp [hp, hge, Nat.sub_eq_zero_of_le hge]
  · simp [hp]

theorem firsts_full (hfull : (firsts p count k).length = count) {k' : Nat} (hk : k ≤ k') :
    firsts p count k' = firsts p count k := by
  induction hk with
  | refl => rfl
  | @step m _ ih =>
    rw [firsts_succ, ih, hfull]
    simp

theorem of_mem_firsts {i : Nat} (h : i ∈ firsts p count k) : i < k ∧ p i = true := by
  have hfilter : i ∈ (List.range k).filter p := List.mem_of_mem_take h
  simpa using hfilter

theorem nodup_firsts : (firsts p count k).Nodup :=
  (List.nodup_range.filter p).sublist (List.take_sublist count _)

theorem countP_mem_firsts {n : Nat} (h : k ≤ n) :
    (List.range n).countP (· ∈ firsts p count k) = (firsts p count k).length := by
  rw [List.countP_eq_length_filter]
  apply List.Perm.length_eq
  rw [List.perm_ext_iff_of_nodup (List.nodup_range.filter _) nodup_firsts]
  intro i
  rw [List.mem_filter, List.mem_range, decide_eq_true_eq, and_iff_right_iff_imp]
  exact fun hi => Nat.lt_of_lt_of_le (of_mem_firsts hi).1 h

end Nsumo.Lib
