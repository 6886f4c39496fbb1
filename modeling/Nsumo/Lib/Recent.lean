import Nsumo.Lib.Fifo
import Mathlib.Data.List.Destutter
import Mathlib.Data.List.DropRight

universe u

namespace Nsumo.Lib.Recent

variable {α : Type u}

theorem push_rtake {n : Nat} (hn : 0 < n) (l : List α) (x : α) :
    Fifo.push n (l.rtake n) x = (l ++ [x]).rtake n := by
  obtain ⟨m, rfl⟩ := Nat.exists_eq_succ_of_ne_zero hn.ne'
  rw [List.rtake_concat_succ, Fifo.push, List.rtake, List.rtake, List.length_drop]
  split
  case isTrue h =>
    have hall : l.length - (m + 1) = 0 ∧ l.length - m = 0 := by omega
    rw [hall.1, hall.2]
  case isFalse h =>
    have hnext : l.length - (m + 1) + 1 = l.length - m := by omega
    rw [List.tail_drop, hnext]

theorem getLast?_rtake {n : Nat} (hn : 0 < n) (l : List α) : (l.rtake n).getLast? = l.getLast? := by
  obtain ⟨m, rfl⟩ := Nat.exists_eq_succ_of_ne_zero hn.ne'
  obtain rfl | ⟨l, x, rfl⟩ := List.eq_nil_or_concat l
  · rw [List.rtake_nil]
  · rw [List.concat_eq_append, List.rtake_concat_succ, List.getLast?_concat, List.getLast?_concat]

section

variable [DecidableEq α]

def remember (n : Nat) (q : List α) (x : α) : List α :=
  if q.getLast? = some x then q else Fifo.push n q x

theorem destutter'_concat (l : List α) (a x : α) :
    (l ++ [x]).destutter' (· ≠ ·) a =
      if (l.destutter' (· ≠ ·) a).getLast? = some x then l.destutter' (· ≠ ·) a
      else l.destutter' (· ≠ ·) a ++ [x] := by
  induction l generalizing a with
  | nil =>
    rw [List.nil_append, List.destutter'_singleton, List.destutter'_nil, List.getLast?_singleton]
    by_cases h : a = x
    · simp [h]
    · simp [h]
  | cons b l ih =>
    rw [List.cons_append, List.destutter'_cons, List.destutter'_cons]
    by_cases h : a = b
    · simp only [h, ne_eq, not_true_eq_false, if_false]
      exact ih b
    · have hne : l.destutter' (· ≠ ·) b ≠ [] := fun hnil => List.destutter'_ne_nil _ _ hnil
      have hlast : (a :: l.destutter' (· ≠ ·) b).getLast? = (l.destutter' (· ≠ ·) b).getLast? :=
        List.getLast?_cons_of_ne_nil hne
      rw [if_pos h, if_pos h, hlast, ih b]
      split <;> rfl

theorem destutter_concat (l : List α) (x : α) :
    (l ++ [x]).destutter (· ≠ ·) =
      if (l.destutter (· ≠ ·)).getLast? = some x then l.destutter (· ≠ ·)
      else l.destutter (· ≠ ·) ++ [x] := by
  cases l with
  | nil => rfl
  | cons a l => exact destutter'_concat l a x

theorem remember_map {β : Type u} [DecidableEq β] {f : α → β} (hf : f.Injective) (n : Nat)
    (q : List α) (x : α) : remember n (q.map f) (f x) = (remember n q x).map f := by
  have hlast : (q.map f).getLast? = some (f x) ↔ q.getLast? = some x := by
    rw [List.getLast?_map, ← Option.map_some, (Option.map_injective hf).eq_iff]
  rw [remember, remember]
  by_cases h : q.getLast? = some x
  · rw [if_pos h, if_pos (hlast.mpr h)]
  · rw [if_neg h, if_neg (mt hlast.mp h), Fifo.push_map]

theorem foldl_remember {n : Nat} (hn : 0 < n) (l : List α) :
    l.foldl (remember n) [] = (l.destutter (· ≠ ·)).rtake n := by
  induction l using List.reverseRecOn with
  | nil => simp
  | append_singleton l x ih =>
    rw [List.foldl_append, ih, destutter_concat, List.foldl_cons, List.foldl_nil, remember,
      getLast?_rtake hn]
    split
    · rfl
    · exact push_rtake hn _ x

end

end Nsumo.Lib.Recent
