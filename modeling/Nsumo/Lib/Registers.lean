import Mathlib.Algebra.Ring.Nat
import Mathlib.Logic.Function.Basic

universe u

namespace Nsumo.Lib.Registers

variable {w : Nat} {α : Type u}

def store : BitVec w → List α → (BitVec w → α) → BitVec w → α
  | _, [], regs => regs
  | addr, x :: xs, regs => store (addr + 1) xs (Function.update regs addr x)

def load (regs : BitVec w → α) : BitVec w → Nat → List α
  | _, 0 => []
  | addr, n + 1 => regs addr :: load regs (addr + 1) n

@[simp] theorem length_load (regs : BitVec w → α) (addr : BitVec w) (n : Nat) :
    (load regs addr n).length = n := by
  induction n generalizing addr with
  | zero => rfl
  | succ n ih => rw [load, List.length_cons, ih]

theorem add_ofNat_succ (addr : BitVec w) (k : Nat) :
    addr + BitVec.ofNat w (k + 1) = addr + 1 + BitVec.ofNat w k := by
  rw [BitVec.ofNat_add, BitVec.add_comm (BitVec.ofNat w k), ← BitVec.add_assoc]
  rfl

theorem load_succ (regs : BitVec w → α) (addr : BitVec w) (n : Nat) :
    load regs addr (n + 1) = load regs addr n ++ [regs (addr + BitVec.ofNat w n)] := by
  induction n generalizing addr with
  | zero => simp [load]
  | succ n ih => rw [load, ih, add_ofNat_succ]; rfl

theorem load_eq_map (regs : BitVec w → α) (addr : BitVec w) (n : Nat) :
    load regs addr n = (List.range n).map fun k => regs (addr + BitVec.ofNat w k) := by
  induction n with
  | zero => rfl
  | succ n ih => rw [load_succ, ih, List.range_succ, List.map_append, List.map_singleton]

theorem take_load (regs : BitVec w → α) (addr : BitVec w) {k n : Nat} (h : k ≤ n) :
    (load regs addr n).take k = load regs addr k := by
  induction k generalizing addr n with
  | zero => rfl
  | succ k ih =>
    obtain ⟨m, rfl⟩ := Nat.exists_eq_add_one_of_ne_zero (Nat.ne_of_gt (Nat.zero_lt_of_lt h))
    rw [load, List.take_succ_cons, ih (addr + 1) (Nat.le_of_succ_le_succ h), load]

theorem ne_add_ofNat {addr : BitVec w} {k : Nat} (h : 0 < k) (hk : k < 2 ^ w) :
    addr ≠ addr + BitVec.ofNat w k := by
  intro heq
  have hzero : BitVec.ofNat w k = 0 := by simpa using heq.symm
  have hval := congrArg BitVec.toNat hzero
  rw [BitVec.toNat_ofNat, Nat.mod_eq_of_lt hk] at hval
  exact Nat.ne_of_gt h hval

theorem store_of_ne {a addr : BitVec w} {xs : List α} {regs : BitVec w → α}
    (h : ∀ k < xs.length, a ≠ addr + BitVec.ofNat w k) : store addr xs regs a = regs a := by
  induction xs generalizing addr regs with
  | nil => rfl
  | cons x xs ih =>
    rw [store, ih, Function.update_of_ne]
    · simpa using h 0 (Nat.succ_pos _)
    · intro k hk
      have hnext := h (k + 1) (Nat.succ_lt_succ hk)
      rwa [add_ofNat_succ] at hnext

theorem load_update_of_ne {a addr : BitVec w} {x : α} {n : Nat} {regs : BitVec w → α}
    (h : ∀ k < n, addr + BitVec.ofNat w k ≠ a) :
    load (Function.update regs a x) addr n = load regs addr n := by
  induction n with
  | zero => rfl
  | succ n ih =>
    rw [load_succ, load_succ, ih fun k hk => h k (Nat.lt_succ_of_lt hk),
      Function.update_of_ne (h n (Nat.lt_succ_self n))]

theorem load_store {addr : BitVec w} {xs : List α} {regs : BitVec w → α}
    (h : xs.length ≤ 2 ^ w) : load (store addr xs regs) addr xs.length = xs := by
  induction xs generalizing addr regs with
  | nil => rfl
  | cons x xs ih =>
    have hfirst : store (addr + 1) xs (Function.update regs addr x) addr = x := by
      rw [store_of_ne, Function.update_self]
      intro k hk
      have hne : addr ≠ addr + BitVec.ofNat w (k + 1) :=
        ne_add_ofNat k.succ_pos (Nat.lt_of_lt_of_le (Nat.succ_lt_succ hk) h)
      rwa [add_ofNat_succ] at hne
    rw [List.length_cons, load, store, hfirst, ih (Nat.le_of_succ_le h)]

end Nsumo.Lib.Registers
