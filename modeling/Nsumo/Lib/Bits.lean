import Mathlib.Data.List.GetD
import Mathlib.Data.List.Induction
import Mathlib.Data.List.Range

namespace Nsumo.Lib.Bits

variable {w : Nat}

def shiftBit (r : BitVec w) (bit : Bool) : BitVec w := (r <<< 1) + (if bit then 1 else 0)

def shiftIn (bits : List Bool) (r : BitVec w) : BitVec w := bits.foldl shiftBit r

@[simp] theorem shiftIn_nil (r : BitVec w) : shiftIn [] r = r := rfl

@[simp] theorem shiftIn_singleton (b : Bool) (r : BitVec w) : shiftIn [b] r = shiftBit r b := rfl

theorem shiftIn_append (bs cs : List Bool) (r : BitVec w) :
    shiftIn (bs ++ cs) r = shiftIn cs (shiftIn bs r) := by simp [shiftIn]

def msbFirst (x : BitVec w) : List Bool := (List.range w).map x.getMsbD

theorem shiftBit_ushiftRight (x : BitVec w) {k : Nat} (hk : k < w) :
    shiftBit (x >>> (w - k)) (x.getMsbD k) = x >>> (w - (k + 1)) := by
  obtain ⟨m, rfl⟩ : ∃ m, w = m + k + 1 := ⟨w - k - 1, by omega⟩
  have hbit : x.getMsbD k = decide (x.toNat / 2 ^ m % 2 = 1) := by
    rw [BitVec.getMsbD_eq_getLsbD, BitVec.getLsbD, Nat.testBit_eq_decide_div_mod_eq,
      show m + k + 1 - 1 - k = m by omega]
    simp [hk]
  have hshift : m + k + 1 - k = m + 1 := by omega
  have hshift' : m + k + 1 - (k + 1) = m := by omega
  have hlt : x.toNat / 2 ^ m < 2 ^ (m + k + 1) :=
    Nat.lt_of_le_of_lt (Nat.div_le_self _ _) x.isLt
  have hdiv : x.toNat / 2 ^ (m + 1) = x.toNat / 2 ^ m / 2 := by
    rw [Nat.pow_succ, Nat.div_div_eq_div_mul]
  apply BitVec.eq_of_toNat_eq
  rw [shiftBit, hbit, hshift, hshift']
  simp only [BitVec.toNat_add, BitVec.toNat_shiftLeft, BitVec.toNat_ushiftRight,
    Nat.shiftRight_eq_div_pow, Nat.shiftLeft_eq, hdiv]
  have hpow : 2 ≤ 2 ^ (m + k + 1) := by
    calc
      2 = 2 ^ 1 := rfl
      _ ≤ 2 ^ (m + k + 1) := Nat.pow_le_pow_right (by decide) (by omega)
  generalize x.toNat / 2 ^ m = y at *
  by_cases hy : y % 2 = 1
  · have hone : (if decide (y % 2 = 1) = true then (1 : BitVec (m + k + 1)) else 0).toNat = 1 := by
      simp [hy]
    rw [hone, Nat.mod_eq_of_lt (a := y / 2 * 2 ^ 1) (by omega), Nat.mod_eq_of_lt (by omega)]
    omega
  · have hzero : (if decide (y % 2 = 1) = true then (1 : BitVec (m + k + 1)) else 0).toNat = 0 := by
      simp [hy]
    rw [hzero, Nat.mod_eq_of_lt (a := y / 2 * 2 ^ 1) (by omega), Nat.mod_eq_of_lt (by omega)]
    omega

theorem shiftIn_range (x : BitVec w) {k : Nat} (hk : k ≤ w) :
    shiftIn ((List.range k).map x.getMsbD) 0 = x >>> (w - k) := by
  induction k with
  | zero =>
    apply BitVec.eq_of_toNat_eq
    simp [Nat.shiftRight_eq_div_pow, Nat.div_eq_of_lt x.isLt]
  | succ k ih =>
    rw [List.range_succ, List.map_append, shiftIn_append, ih (Nat.le_of_succ_le hk)]
    exact shiftBit_ushiftRight x hk

theorem shiftIn_msbFirst (x : BitVec w) : shiftIn (msbFirst x) 0 = x := by
  rw [msbFirst, shiftIn_range x (Nat.le_refl w), Nat.sub_self, BitVec.ushiftRight_zero]

theorem getLsbD_shiftBit (r : BitVec w) (bit : Bool) {i : Nat} (hi : i < w) :
    (shiftBit r bit).getLsbD i = if i = 0 then bit else r.getLsbD (i - 1) := by
  have hdisjoint : (r <<< 1) &&& (if bit then 1 else 0) = 0#w := by
    apply BitVec.eq_of_getLsbD_eq
    intro j hj
    cases bit <;> simp [BitVec.getLsbD_one]
    omega
  rw [shiftBit, BitVec.add_eq_or_of_and_eq_zero _ _ hdisjoint, BitVec.getLsbD_or,
    BitVec.getLsbD_shiftLeft]
  cases bit <;> cases i <;> simp [hi]

theorem getLsbD_shiftIn (bs : List Bool) {i : Nat} (hi : i < w) :
    (shiftIn bs (0 : BitVec w)).getLsbD i = bs.reverse.getD i false := by
  induction bs using List.reverseRecOn generalizing i with
  | nil => simp
  | append_singleton bs b ih =>
    rw [shiftIn_append, shiftIn_singleton, getLsbD_shiftBit _ _ hi, List.reverse_append]
    cases i with
    | zero => simp
    | succ i => simpa using ih (Nat.lt_of_succ_lt hi)

theorem msbFirst_shiftIn {bs : List Bool} (h : bs.length = w) :
    msbFirst (shiftIn bs (0 : BitVec w)) = bs := by
  apply List.ext_getElem
  · simp [msbFirst, h]
  · intro k hk hk'
    have hkw : k < w := h ▸ hk'
    have hlow : w - 1 - k < bs.reverse.length := by
      rw [List.length_reverse]
      omega
    simp only [msbFirst, List.getElem_map, List.getElem_range, BitVec.getMsbD_eq_getLsbD, hkw,
      decide_true, Bool.true_and]
    rw [getLsbD_shiftIn bs (by omega), List.getD_eq_getElem _ _ hlow, List.getElem_reverse]
    congr 1
    omega

theorem msbFirst_extractLsb' (x : BitVec w) {lo n : Nat} (h : lo + n ≤ w) :
    msbFirst (x.extractLsb' lo n) = ((msbFirst x).drop (w - (lo + n))).take n := by
  apply List.ext_getElem
  · simp [msbFirst]; omega
  · intro k hk hk'
    have hkn : k < n := by simpa [msbFirst] using hk
    simp only [msbFirst, List.getElem_map, List.getElem_range, List.getElem_take,
      List.getElem_drop, BitVec.getMsbD_eq_getLsbD, BitVec.getLsbD_extractLsb']
    have hw : w - (lo + n) + k < w := by omega
    have hlow : n - 1 - k < n := by omega
    simp only [hkn, hw, hlow, decide_true, Bool.true_and]
    congr 1
    omega

end Nsumo.Lib.Bits
