import Mathlib.Logic.Function.Basic

universe u

namespace Nsumo.Lib.Cells

variable {ε α σ ι : Type u} {n : Nat}

def read (outside : ε) (i : Nat) (cells : Fin n → α) : Except ε α :=
  if h : i < n then .ok (cells ⟨i, h⟩) else .error outside

def write (outside : ε) (i : Nat) (x : α) (cells : Fin n → α) : Except ε (Fin n → α) :=
  if h : i < n then .ok (Function.update cells ⟨i, h⟩ x) else .error outside

theorem read_ok {outside : ε} {i : Nat} (h : i < n) (cells : Fin n → α) :
    read outside i cells = .ok (cells ⟨i, h⟩) := dif_pos h

theorem write_ok {outside : ε} {i : Nat} (h : i < n) (x : α) (cells : Fin n → α) :
    write outside i x cells = .ok (Function.update cells ⟨i, h⟩ x) := dif_pos h

def filled (f : Nat → α) (m : Nat) (cells : Fin n → α) : Fin n → α :=
  fun k => if k.val < m then f k else cells k

theorem filled_succ (f : Nat → α) {m : Nat} (hm : m < n) (cells : Fin n → α) :
    Function.update (filled f m cells) ⟨m, hm⟩ (f m) = filled f (m + 1) cells := by
  funext k
  by_cases hk : k = ⟨m, hm⟩
  · subst hk
    simp [filled]
  · have hne : k.val ≠ m := fun h => hk (Fin.ext h)
    have hlt : k.val < m + 1 ↔ k.val < m := by omega
    simp [filled, Function.update_of_ne hk, hlt]

/-- The rule for a counting loop that writes one cell after the other. -/
theorem foldlM_fill (outside : ε) {body : (Fin n → α) → Nat → Except ε (Fin n → α)}
    {f : Nat → α} {m : Nat} (hm : m ≤ n) (cells : Fin n → α)
    (hbody : ∀ i < m, ∀ cells, body cells i = write outside i (f i) cells) :
    (List.range m).foldlM body cells = .ok (filled f m cells) := by
  induction m with
  | zero => rfl
  | succ m ih =>
    have hlast := hbody m (Nat.lt_succ_self m)
    rw [List.range_succ, List.foldlM_append,
      ih (Nat.le_of_succ_le hm) fun i hi => hbody i (Nat.lt_succ_of_lt hi)]
    change [m].foldlM body (filled f m cells) = _
    rw [List.foldlM_cons, hlast, write_ok hm, filled_succ]
    rfl

/-- The rule for a loop over a list, from an invariant of the elements that have been visited. -/
theorem foldlM_list {body : σ → ι → Except ε σ} {I : List ι → σ → Prop} {xs : List ι} {s : σ}
    (h : I [] s)
    (hbody : ∀ pre x s, x ∈ xs → I pre s → ∃ t, body s x = .ok t ∧ I (pre ++ [x]) t) :
    ∃ t, xs.foldlM body s = .ok t ∧ I xs t := by
  induction xs generalizing I s with
  | nil => exact ⟨s, rfl, h⟩
  | cons x xs ih =>
    obtain ⟨t, ht, hnext⟩ := hbody [] x s List.mem_cons_self h
    obtain ⟨t', ht', hlast⟩ := ih (I := fun pre => I (x :: pre)) hnext
      fun pre y s hy => hbody (x :: pre) y s (List.mem_cons_of_mem x hy)
    refine ⟨t', ?_, hlast⟩
    rw [List.foldlM_cons, ht]
    exact ht'

end Nsumo.Lib.Cells
