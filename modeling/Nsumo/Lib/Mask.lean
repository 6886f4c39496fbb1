import Mathlib.Data.List.Basic

namespace Nsumo.Lib.Mask

variable {w : Nat}

def bit (i : Nat) : BitVec w := 1#w <<< i

theorem getLsbD_bit (i j : Nat) :
    (bit i : BitVec w).getLsbD j = (decide (i < w) && decide (i = j)) := by
  rw [bit, ← BitVec.twoPow_eq, BitVec.getLsbD_twoPow]

theorem and_bit_ne_zero {x : BitVec w} {i : Nat} : x &&& bit i ≠ 0 ↔ x.getLsbD i = true := by
  rw [bit, ← BitVec.twoPow_eq, BitVec.and_twoPow]
  by_cases hi : i < w
  · have hne : BitVec.twoPow w i ≠ 0#w := by
      intro h
      have hbit := congrArg (BitVec.getLsbD · i) h
      simp [hi] at hbit
    cases x.getLsbD i <;> simp [hne]
  · simp [BitVec.getLsbD_of_ge x i (Nat.not_lt.mp hi)]

theorem getLsbD_clear (x : BitVec w) (i j : Nat) :
    (x &&& ~~~bit i).getLsbD j = (x.getLsbD j && decide (j ≠ i)) := by
  rw [BitVec.getLsbD_and, BitVec.getLsbD_not, getLsbD_bit]
  by_cases hj : j < w
  · by_cases hij : i = j
    · simp [hij, hj]
    · simp [hij, hj, Ne.symm hij]
  · simp [BitVec.getLsbD_of_ge x j (Nat.not_lt.mp hj)]

theorem getLsbD_set (x : BitVec w) (i j : Nat) :
    (x ||| bit i).getLsbD j = (x.getLsbD j || decide (i < w) && decide (i = j)) := by
  rw [BitVec.getLsbD_or, getLsbD_bit]

end Nsumo.Lib.Mask
