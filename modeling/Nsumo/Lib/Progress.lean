import Nsumo.Lib.Run

/-! A goal that every fair schedule reaches, whatever else the schedule does. -/

universe u v w

namespace Nsumo.Lib

open Run

/-- Until the goal is reached every step leaves the state as it is or lowers the measure, and one
of the `kinds` of steps lowers it. -/
structure Progress {σ : Type u} {ι : Type v} {ε : Type w} (step : ι → σ → Except ε σ)
    (kinds : List ι) (I goal : σ → Prop) (measure : σ → Nat) : Prop where
  keep (i : ι) (s t : σ) : I s → step i s = .ok t → I t
  stable (i : ι) (s t : σ) : I s → step i s = .ok t → goal s → goal t
  lowers (i : ι) (s t : σ) : I s → ¬goal s → step i s = .ok t → t = s ∨ measure t < measure s
  helps (s : σ) : I s → ¬goal s → ∃ i ∈ kinds, ∀ t, step i s = .ok t → measure t < measure s

namespace Progress

variable {σ : Type u} {ι : Type v} {ε : Type w} {step : ι → σ → Except ε σ} {kinds : List ι}
  {I goal : σ → Prop} {measure : σ → Nat}

/-- A round is fair when every kind of step has its turn in it. -/
def Fair (kinds : List ι) (round : List ι) : Prop := ∀ i ∈ kinds, i ∈ round

instance [DecidableEq ι] (round : List ι) : Decidable (Fair kinds round) :=
  inferInstanceAs (Decidable (∀ i ∈ kinds, i ∈ round))

theorem goal_run (h : Progress step kinds I goal measure) {is : List ι} {s t : σ} (hI : I s)
    (hgoal : goal s) (hrun : run step is s = .ok t) : goal t := by
  have keep : ∀ i m n, I m ∧ goal m → step i m = .ok n → I n ∧ goal n := fun i m n hm hn =>
    ⟨h.keep i m n hm.1 hn, h.stable i m n hm.1 hn hm.2⟩
  exact (run_invariant keep ⟨hI, hgoal⟩ hrun).2

theorem le_run (h : Progress step kinds I goal measure) {is : List ι} {s t : σ} (hI : I s)
    (hrun : run step is s = .ok t) : goal t ∨ measure t ≤ measure s := by
  induction is generalizing s with
  | nil =>
    cases hrun
    exact .inr (Nat.le_refl _)
  | cons i is ih =>
    by_cases hgoal : goal s
    case pos => exact .inl (h.goal_run hI hgoal hrun)
    case neg =>
      obtain ⟨m, hm, hrest⟩ := run_cons_ok.mp hrun
      have hle : measure m ≤ measure s := by
        obtain rfl | hlt := h.lowers i s m hI hgoal hm
        · exact Nat.le_refl _
        · exact Nat.le_of_lt hlt
      obtain ht | ht := ih (h.keep i s m hI hm) hrest
      · exact .inl ht
      · exact .inr (Nat.le_trans ht hle)

theorem lt_run (h : Progress step kinds I goal measure) {is : List ι} {s t : σ} (hI : I s)
    {i : ι} (hhelp : ∀ m, step i s = .ok m → measure m < measure s) (hi : i ∈ is)
    (hrun : run step is s = .ok t) : goal t ∨ measure t < measure s := by
  induction is with
  | nil => cases hi
  | cons j is ih =>
    by_cases hgoal : goal s
    case pos => exact .inl (h.goal_run hI hgoal hrun)
    case neg =>
      obtain ⟨m, hm, hrest⟩ := run_cons_ok.mp hrun
      have hlower : measure m < measure s → goal t ∨ measure t < measure s := fun hlt =>
        (h.le_run (h.keep j s m hI hm) hrest).imp_right fun hle => Nat.lt_of_le_of_lt hle hlt
      obtain rfl | hi := List.mem_cons.mp hi
      · exact hlower (hhelp m hm)
      · obtain rfl | hlt := h.lowers j s m hI hgoal hm
        · exact ih hi hrest
        · exact hlower hlt

theorem round (h : Progress step kinds I goal measure) {is : List ι} {s t : σ} (hI : I s)
    (hfair : Fair kinds is) (hrun : run step is s = .ok t) : goal t ∨ measure t < measure s := by
  by_cases hgoal : goal s
  case pos => exact .inl (h.goal_run hI hgoal hrun)
  case neg =>
    obtain ⟨i, hi, hhelp⟩ := h.helps s hI hgoal
    exact h.lt_run hI hhelp (hfair i hi) hrun

theorem rounds (h : Progress step kinds I goal measure) {rounds : List (List ι)} {s t : σ}
    (hI : I s) (hfair : ∀ is ∈ rounds, Fair kinds is) (hlt : measure s < rounds.length)
    (hrun : run step rounds.flatten s = .ok t) : goal t := by
  induction rounds generalizing s with
  | nil => cases hlt
  | cons is rounds ih =>
    obtain ⟨m, hm, hrest⟩ := run_append_ok.mp hrun
    have hIm : I m := run_invariant h.keep hI hm
    obtain hgoal | hlower := h.round hI (hfair is List.mem_cons_self) hm
    · exact h.goal_run hIm hgoal hrest
    · refine ih hIm (fun is his => hfair is (List.mem_cons_of_mem _ his)) ?_ hrest
      rw [List.length_cons] at hlt
      omega

end Progress

end Nsumo.Lib
