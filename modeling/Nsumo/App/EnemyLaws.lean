import Nsumo.App.MirrorLaws
import Nsumo.App.Sensing
import Mathlib.Algebra.Ring.Nat

namespace Nsumo.App

open Common Drivers

def distanceClass (mm : Nat) : EnemyRange :=
  if mm < 100 then .close else if mm < 200 then .mid else .far

theorem distanceClass_eq_iff {a b : Nat} :
    distanceClass a = distanceClass b ↔ (a < 100 ↔ b < 100) ∧ (a < 200 ↔ b < 200) := by
  grind [distanceClass]

/-- `enemy_get` on exact distances, in the order left, front, right. -/
def enemyAt (left front right : Nat) : Enemy :=
  if left < 600 ∧ front < 600 ∧ right < 600 then
    ⟨.frontAll, distanceClass (((left + front) / 2 + right) / 2)⟩
  else if left < 600 ∧ right < 600 then
    ⟨.impossible, .none⟩
  else if left < 600 then
    if front < 600 then
      ⟨.frontAndFrontLeft, distanceClass ((left + front) / 2)⟩
    else
      ⟨.frontLeft, distanceClass left⟩
  else if right < 600 then
    if front < 600 then
      ⟨.frontAndFrontRight, distanceClass ((right + front) / 2)⟩
    else
      ⟨.frontRight, distanceClass right⟩
  else if front < 600 then
    ⟨.front, distanceClass front⟩
  else
    enemyNone

section

variable {x y range : BitVec 16}

theorem lt_threshold_iff : range < rangeDetectThreshold ↔ range.toNat < 600 := BitVec.lt_def

theorem enemyRange_eq (h : range.toNat < 600) : enemyRange range = distanceClass range.toNat := by
  have hvalid : range ≠ invalidRange := by
    rintro rfl
    exact absurd h (by decide)
  rw [enemyRange, if_neg hvalid]
  rfl

theorem toNat_average (hx : x.toNat < 600) (hy : y.toNat < 600) :
    ((x + y) / 2).toNat = (x.toNat + y.toNat) / 2 := by
  rw [BitVec.toNat_udiv, BitVec.toNat_add, Nat.mod_eq_of_lt (by omega)]
  rfl

theorem enemyRange_average (hx : x.toNat < 600) (hy : y.toNat < 600) :
    enemyRange ((x + y) / 2) = distanceClass ((x.toNat + y.toNat) / 2) := by
  have hsum := toNat_average hx hy
  rw [enemyRange_eq (by omega), hsum]

end

variable {ranges : Vl53l0xIdx → BitVec 16}

theorem enemyGet_ok (ranges : Vl53l0xIdx → BitVec 16) :
    enemyGet (.ok ranges) = enemyAt (ranges .frontLeft).toNat (ranges .front).toNat
      (ranges .frontRight).toNat := by
  simp only [enemyGet, enemyPosition, enemyAt, lt_threshold_iff]
  by_cases hleft : (ranges .frontLeft).toNat < 600
  · by_cases hfront : (ranges .front).toNat < 600
    · by_cases hright : (ranges .frontRight).toNat < 600
      · have haverage := toNat_average hleft hfront
        have hclass := enemyRange_average (x := (ranges .frontLeft + ranges .front) / 2)
          (by omega) hright
        simp only [hleft, hfront, hright, and_self, if_true, hclass, haverage]
      · simp only [hleft, hfront, hright, and_false, if_true, if_false,
          enemyRange_average hleft hfront]
    · by_cases hright : (ranges .frontRight).toNat < 600
      · simp only [hleft, hfront, hright, and_false, false_and, and_self, if_true, if_false]
        rfl
      · simp only [hleft, hfront, hright, and_false, if_true, if_false, enemyRange_eq hleft]
  · by_cases hright : (ranges .frontRight).toNat < 600
    · by_cases hfront : (ranges .front).toNat < 600
      · simp only [hleft, hfront, hright, false_and, if_true, if_false,
          enemyRange_average hright hfront]
      · simp only [hleft, hfront, hright, false_and, if_true, if_false, enemyRange_eq hright]
    · by_cases hfront : (ranges .front).toNat < 600
      · simp only [hleft, hfront, hright, false_and, if_true, if_false, enemyRange_eq hfront]
      · simp only [hleft, hfront, hright, false_and, if_false]
        rfl

def detecting (ranges : Vl53l0xIdx → BitVec 16) : List Nat :=
  [(ranges .frontLeft).toNat, (ranges .front).toNat, (ranges .frontRight).toNat].filter (· < 600)

def mean (distances : List Nat) : Nat := distances.sum / distances.length

def exchanged (ranges : Vl53l0xIdx → BitVec 16) : Vl53l0xIdx → BitVec 16
  | .frontLeft => ranges .frontRight
  | .frontRight => ranges .frontLeft
  | idx => ranges idx

def sums (ranges : Vl53l0xIdx → BitVec 16) : List Nat :=
  let left := (ranges .frontLeft).toNat
  let front := (ranges .front).toNat
  let right := (ranges .frontRight).toNat
  if left < 600 ∧ front < 600 ∧ right < 600 then
    [left + front, (left + front) / 2 + right]
  else if left < 600 ∧ right < 600 then
    []
  else if left < 600 ∧ front < 600 then
    [left + front]
  else if right < 600 ∧ front < 600 then
    [right + front]
  else
    []

structure Averaged (ranges : Vl53l0xIdx → BitVec 16) : Prop where
  range : enemyDetected (enemyGet (.ok ranges)) = true →
    (enemyGet (.ok ranges)).range = distanceClass (mean (detecting ranges))
  exchanged : enemyDetected (enemyGet (.ok ranges)) = true →
    enemyGet (.ok (exchanged ranges)) = (enemyGet (.ok ranges)).mirror
  sums : ∀ sum ∈ sums ranges, sum < 2 ^ 16

/-- No class begins between the mean of the three and the mean in which an outer one counts twice. -/
def Balanced (left front right : Nat) : Prop :=
  ∀ bound ∈ [100, 200], ∀ outer ∈ [left, right],
    (left + front + right < 3 * bound ↔ left + front + right + outer < 4 * bound)

theorem sums_lt (ranges : Vl53l0xIdx → BitVec 16) : ∀ sum ∈ sums ranges, sum < 2 ^ 16 := by
  unfold sums
  intro sum hsum
  dsimp only at hsum
  split at hsum
  · simp only [List.mem_cons, List.not_mem_nil, or_false] at hsum
    omega
  · split at hsum
    · cases hsum
    · split at hsum
      · simp only [List.mem_cons, List.not_mem_nil, or_false] at hsum
        omega
      · split at hsum
        · simp only [List.mem_cons, List.not_mem_nil, or_false] at hsum
          omega
        · cases hsum

section

variable {left front right : Nat}

theorem range_enemyAt (h : enemyDetected (enemyAt left front right) = true)
    (htwo : ¬(left < 600 ∧ front < 600 ∧ right < 600)) :
    (enemyAt left front right).range =
      distanceClass (mean ([left, front, right].filter (· < 600))) := by
  unfold enemyAt at h ⊢
  rw [if_neg htwo] at h ⊢
  by_cases hleft : left < 600
  · by_cases hfront : front < 600
    · have hright : ¬right < 600 := fun hright => htwo ⟨hleft, hfront, hright⟩
      simp [hleft, hfront, hright, mean]
    · by_cases hright : right < 600
      · simp [hleft, hright, enemyDetected] at h
      · simp [hleft, hfront, hright, mean]
  · by_cases hright : right < 600
    · by_cases hfront : front < 600
      · simp [hleft, hfront, hright, mean, Nat.add_comm]
      · simp [hleft, hfront, hright, mean]
    · by_cases hfront : front < 600
      · simp [hleft, hfront, hright, mean]
      · simp [hleft, hfront, hright, enemyNone, enemyDetected] at h

theorem enemyAt_exchanged (htwo : ¬(left < 600 ∧ front < 600 ∧ right < 600)) :
    enemyAt right front left = (enemyAt left front right).mirror := by
  have htwo' : ¬(right < 600 ∧ front < 600 ∧ left < 600) := by tauto
  unfold enemyAt
  rw [if_neg htwo, if_neg htwo']
  by_cases hleft : left < 600 <;> by_cases hfront : front < 600 <;>
    by_cases hright : right < 600 <;>
    simp [hleft, hfront, hright, Enemy.mirror, EnemyPos.mirror, enemyNone]

theorem enemyAt_three (hleft : left < 600) (hfront : front < 600) (hright : right < 600) :
    enemyAt left front right = ⟨.frontAll, distanceClass (((left + front) / 2 + right) / 2)⟩ :=
  if_pos ⟨hleft, hfront, hright⟩

theorem average_lt_iff {bound : Nat} :
    ((left + front) / 2 + right) / 2 < bound ↔ left + front + right + right < 4 * bound := by
  omega

theorem balanced_iff : Balanced left front right ↔
    distanceClass (((left + front) / 2 + right) / 2) = distanceClass ((left + front + right) / 3) ∧
      distanceClass (((right + front) / 2 + left) / 2) =
        distanceClass (((left + front) / 2 + right) / 2) := by
  simp only [Balanced, distanceClass_eq_iff, average_lt_iff, List.forall_mem_cons, List.not_mem_nil,
    false_imp_iff, implies_true, and_true, Nat.div_lt_iff_lt_mul (show 0 < 3 by decide)]
  omega

end

theorem averaged_of_three (hleft : (ranges .frontLeft).toNat < 600)
    (hfront : (ranges .front).toNat < 600) (hright : (ranges .frontRight).toNat < 600) :
    Averaged ranges ↔
      Balanced (ranges .frontLeft).toNat (ranges .front).toNat (ranges .frontRight).toNat := by
  have hget := (enemyGet_ok ranges).trans (enemyAt_three hleft hfront hright)
  have hget' := (enemyGet_ok (exchanged ranges)).trans (enemyAt_three hright hfront hleft)
  have hmean : mean (detecting ranges) = ((ranges .frontLeft).toNat + (ranges .front).toNat +
      (ranges .frontRight).toNat) / 3 := by
    simp [mean, detecting, hleft, hfront, hright, Nat.add_assoc]
  rw [balanced_iff]
  constructor
  · intro h
    have hdetected : enemyDetected (enemyGet (.ok ranges)) = true := by rw [hget]; rfl
    have hrange := h.range hdetected
    have hexchanged := h.exchanged hdetected
    rw [hget, hmean] at hrange
    rw [hget, hget'] at hexchanged
    exact ⟨hrange, congrArg Enemy.range hexchanged⟩
  · intro ⟨hrange, hexchanged⟩
    refine ⟨fun _ => ?_, fun _ => ?_, sums_lt ranges⟩
    · rw [hget, hmean, hrange]
    · rw [hget, hget']
      exact congrArg (Enemy.mk .frontAll) hexchanged

theorem averaged_iff (ranges : Vl53l0xIdx → BitVec 16) :
    Averaged ranges ↔
      ((ranges .frontLeft).toNat < 600 ∧ (ranges .front).toNat < 600 ∧
          (ranges .frontRight).toNat < 600 →
        Balanced (ranges .frontLeft).toNat (ranges .front).toNat (ranges .frontRight).toNat) := by
  by_cases hthree : (ranges .frontLeft).toNat < 600 ∧ (ranges .front).toNat < 600 ∧
      (ranges .frontRight).toNat < 600
  · rw [averaged_of_three hthree.1 hthree.2.1 hthree.2.2]
    exact ⟨fun h _ => h, fun h => h hthree⟩
  · refine ⟨fun _ h => absurd h hthree, fun _ => ⟨fun h => ?_, fun _ => ?_, sums_lt ranges⟩⟩
    · rw [enemyGet_ok] at h ⊢
      exact range_enemyAt h hthree
    · rw [enemyGet_ok, enemyGet_ok]
      exact enemyAt_exchanged hthree

def rightFar : Vl53l0xIdx → BitVec 16
  | .frontRight => 190
  | _ => 50

theorem rightFar_not_averaged :
    (enemyGet (.ok rightFar)).range = .mid ∧ (enemyGet (.ok (exchanged rightFar))).range = .close ∧
      distanceClass (mean (detecting rightFar)) = .close ∧ ¬ Averaged rightFar := by
  refine ⟨by decide, by decide, by decide, fun h => ?_⟩
  exact absurd (h.range (by decide)) (by decide)

end Nsumo.App
