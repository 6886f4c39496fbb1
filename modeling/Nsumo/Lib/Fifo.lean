import Mathlib.Data.List.Range
import Nsumo.Lib.Run

/-! Bounded queues that drop their oldest element, and their layout in a circular array. -/

universe u

namespace Nsumo.Lib.Fifo

variable {α : Type u}

/-- Append `x`; a queue that already holds `n` elements loses its oldest one first. -/
def push (n : Nat) (q : List α) (x : α) : List α :=
  (if q.length < n then q else q.tail) ++ [x]

theorem length_push {n : Nat} {q : List α} {x : α} (h : q.length ≤ n) (hn : 0 < n) :
    (push n q x).length = min n (q.length + 1) := by
  unfold push
  split <;> simp <;> omega

theorem push_of_lt {n : Nat} {q : List α} {x : α} (h : q.length < n) :
    push n q x = q ++ [x] := by simp [push, h]

theorem push_of_full {n : Nat} {y x : α} {q : List α} (h : (y :: q).length = n) :
    push n (y :: q) x = q ++ [x] := by
  have h' : ¬(y :: q).length < n := by omega
  simp only [push, h', if_false, List.tail_cons]

theorem push_map {β : Type u} (f : α → β) (n : Nat) (q : List α) (x : α) :
    push n (q.map f) (f x) = (push n q x).map f := by
  rw [push, push, List.length_map, List.map_append, List.map_singleton]
  split
  · rfl
  · rw [List.map_tail]

inductive Op (α : Type u) : Type u
  | put : α → Op α
  | get : Op α

def exec (n : Nat) : Op α → List α × List α → Except Unit (List α × List α)
  | .put x, (q, out) => .ok (push n q x, out)
  | .get, (x :: q, out) => .ok (q, out ++ [x])
  | .get, ([], _) => .error ()

def puts (ops : List (Op α)) : List α :=
  ops.filterMap fun
    | .put x => some x
    | .get => none

theorem push_suffix {n : Nat} {q xs : List α} (x : α) (h : q <:+ xs) :
    push n q x <:+ xs ++ [x] := by
  rw [push, List.suffix_append_self_iff]
  split
  · exact h
  · exact (List.tail_suffix q).trans h

theorem run_suffix {n : Nat} {ops : List (Op α)} {q out : List α}
    (h : Run.run (exec n) ops ([], []) = .ok (q, out)) : q <:+ puts ops := by
  refine Run.run_prefix_invariant (I := fun is t => t.1 <:+ puts is) (List.suffix_refl _) ?_ h
  rintro is op ⟨q, out⟩ ⟨q', out'⟩ hq hop
  cases op with
  | put x =>
    cases hop
    simpa [puts] using push_suffix x hq
  | get =>
    cases q with
    | nil => cases hop
    | cons y q =>
      cases hop
      have hq' := (List.suffix_cons y _).trans hq
      simpa [puts] using hq'

def ahead (n i k : Nat) : Nat := if i + k < n then i + k else i + k - n

def window (n : Nat) (cell : Nat → α) (i len : Nat) : List α :=
  (List.range len).map fun k => cell (ahead n i k)

theorem ahead_lt {n i k : Nat} (hi : i < n) (hk : k ≤ n) : ahead n i k < n := by
  unfold ahead
  split <;> omega

@[simp] theorem ahead_zero {n i : Nat} (hi : i < n) : ahead n i 0 = i := by simp [ahead, hi]

theorem ahead_succ {n i k : Nat} (hi : i < n) (hk : k < n) :
    ahead n (ahead n i 1) k = ahead n i (k + 1) := by
  unfold ahead
  split <;> split <;> split <;> omega

theorem ahead_injective {n i j k : Nat} (_hi : i < n) (hj : j < n) (hk : k < n)
    (h : ahead n i j = ahead n i k) : j = k := by
  unfold ahead at h
  split at h <;> split at h <;> omega

@[simp] theorem length_window (n : Nat) (cell : Nat → α) (i len : Nat) :
    (window n cell i len).length = len := by simp [window]

@[simp] theorem window_zero (n : Nat) (cell : Nat → α) (i : Nat) : window n cell i 0 = [] := rfl

theorem window_congr {n : Nat} {cell cell' : Nat → α} {i len : Nat}
    (h : ∀ k < len, cell (ahead n i k) = cell' (ahead n i k)) :
    window n cell i len = window n cell' i len := by
  apply List.map_congr_left
  intro k hk
  exact h k (List.mem_range.mp hk)

theorem window_succ (n : Nat) (cell : Nat → α) (i len : Nat) :
    window n cell i (len + 1) = window n cell i len ++ [cell (ahead n i len)] := by
  simp [window, List.range_succ]

theorem window_cons {n : Nat} {cell : Nat → α} {i len : Nat} (hi : i < n) (hlen : len < n) :
    window n cell i (len + 1) = cell i :: window n cell (ahead n i 1) len := by
  simp only [window, List.range_succ_eq_map, List.map_cons, List.map_map, ahead_zero hi]
  congr 1
  apply List.map_congr_left
  intro k hk
  have hk' : k < n := Nat.lt_trans (List.mem_range.mp hk) hlen
  simp [ahead_succ hi hk']

theorem window_push {n : Nat} {cell cell' : Nat → α} {i len : Nat} {x : α} (hi : i < n)
    (hlen : len < n) (h : ∀ j, cell' j = if j = ahead n i len then x else cell j) :
    window n cell' i (len + 1) = window n cell i len ++ [x] := by
  rw [window_succ]
  congr 1
  · apply window_congr
    intro k hk
    have hne : ahead n i k ≠ ahead n i len := by
      intro he
      have := ahead_injective hi (Nat.lt_trans hk hlen) hlen he
      omega
    rw [h, if_neg hne]
  · rw [h, if_pos rfl]

end Nsumo.Lib.Fifo
