import Mathlib.Data.List.Basic
import Mathlib.Data.List.Induction

/-! Deterministic machines that read one input a step and may stop with an error. -/

universe u v w

namespace Nsumo.Lib.Run

section

variable {α β ε : Type u}

theorem bind_ok {x : Except ε α} {f : α → Except ε β} {b : β} :
    (x >>= f) = .ok b ↔ ∃ a, x = .ok a ∧ f a = .ok b := by
  cases x <;> simp [bind, Except.bind]

@[simp] theorem ok_bind (a : α) (f : α → Except ε β) : (.ok a >>= f) = f a := rfl

@[simp] theorem error_bind (e : ε) (f : α → Except ε β) : (.error e >>= f) = .error e := rfl

@[simp] theorem pure_ok (a : α) : (pure a : Except ε α) = .ok a := rfl

end

variable {σ : Type u} {ι : Type v} {ε : Type w} {step : ι → σ → Except ε σ}

def run (step : ι → σ → Except ε σ) : List ι → σ → Except ε σ
  | [], s => .ok s
  | i :: is, s => (step i s).bind (run step is)

@[simp] theorem run_nil (s : σ) : run step [] s = .ok s := rfl

theorem run_cons (i : ι) (is : List ι) (s : σ) :
    run step (i :: is) s = (step i s).bind (run step is) := rfl

theorem run_cons_ok {i : ι} {is : List ι} {s t : σ} :
    run step (i :: is) s = .ok t ↔ ∃ m, step i s = .ok m ∧ run step is m = .ok t := by
  rw [run_cons]
  cases h : step i s <;> simp [Except.bind]

theorem run_append (xs ys : List ι) (s : σ) :
    run step (xs ++ ys) s = (run step xs s).bind (run step ys) := by
  induction xs generalizing s with
  | nil => rfl
  | cons i is ih =>
    rw [List.cons_append, run_cons, run_cons]
    cases h : step i s with
    | error e => rfl
    | ok m => exact ih m

theorem run_append_ok {xs ys : List ι} {s t : σ} :
    run step (xs ++ ys) s = .ok t ↔ ∃ m, run step xs s = .ok m ∧ run step ys m = .ok t := by
  rw [run_append]
  cases h : run step xs s <;> simp [Except.bind]

theorem run_append_error {pre post : List ι} {i : ι} {s m : σ} {e : ε}
    (hpre : run step pre s = .ok m) (hi : step i m = .error e) :
    run step (pre ++ i :: post) s = .error e := by
  rw [run_append, hpre]
  change (step i m).bind (run step post) = .error e
  rw [hi]
  rfl

theorem run_concat_ok {is : List ι} {i : ι} {s t : σ} :
    run step (is ++ [i]) s = .ok t ↔ ∃ m, run step is s = .ok m ∧ step i m = .ok t := by
  simp [run_append_ok, run_cons_ok]

theorem run_last {is : List ι} {s t : σ} (h : run step is s = .ok t) :
    is = [] ∧ t = s ∨
      ∃ pre i m, is = pre ++ [i] ∧ run step pre s = .ok m ∧ step i m = .ok t := by
  obtain rfl | ⟨pre, i, rfl⟩ := List.eq_nil_or_concat is
  · cases h
    exact .inl ⟨rfl, rfl⟩
  · rw [List.concat_eq_append] at h ⊢
    obtain ⟨m, hpre, hi⟩ := run_concat_ok.mp h
    exact .inr ⟨pre, i, m, rfl, hpre, hi⟩

theorem run_invariant {I : σ → Prop} (keep : ∀ i s t, I s → step i s = .ok t → I t)
    {is : List ι} {s t : σ} (init : I s) (h : run step is s = .ok t) : I t := by
  induction is generalizing s with
  | nil =>
    cases h
    exact init
  | cons i is ih =>
    obtain ⟨m, hm, ht⟩ := run_cons_ok.mp h
    exact ih (keep i s m init hm) ht

theorem run_total {I : σ → Prop} (keep : ∀ i s, I s → ∃ t, step i s = .ok t ∧ I t) {s : σ}
    (init : I s) (is : List ι) : ∃ t, run step is s = .ok t ∧ I t := by
  induction is generalizing s with
  | nil => exact ⟨s, rfl, init⟩
  | cons i is ih =>
    obtain ⟨m, hm, hI⟩ := keep i s init
    obtain ⟨t, ht, hlast⟩ := ih hI
    exact ⟨t, run_cons_ok.mpr ⟨m, hm, ht⟩, hlast⟩

/-- The invariant rule where the invariant also speaks of the inputs that have been read. -/
theorem run_prefix_invariant {I : List ι → σ → Prop} {s : σ} (init : I [] s)
    (keep : ∀ is i s t, I is s → step i s = .ok t → I (is ++ [i]) t) {is : List ι} {t : σ}
    (h : run step is s = .ok t) : I is t := by
  induction is using List.reverseRecOn generalizing t with
  | nil =>
    cases h
    exact init
  | append_singleton is i ih =>
    obtain ⟨m, hm, hi⟩ := run_concat_ok.mp h
    exact keep is i m t (ih hm) hi

/-- `C` holds of every input of the run in the state that it is read in. -/
def Along (step : ι → σ → Except ε σ) (C : ι → σ → Prop) (is : List ι) (s : σ) : Prop :=
  ∀ pre i post m, is = pre ++ i :: post → run step pre s = .ok m → C i m

theorem along_nil {C : ι → σ → Prop} (s : σ) : Along step C [] s := by
  intro pre i post m hsplit
  simp at hsplit

theorem along_cons {C : ι → σ → Prop} {i : ι} {is : List ι} {s m : σ} (hi : step i s = .ok m) :
    Along step C (i :: is) s ↔ C i s ∧ Along step C is m := by
  constructor
  · intro h
    refine ⟨h [] i is s rfl rfl, fun pre j post t hsplit hpre => ?_⟩
    exact h (i :: pre) j post t (by rw [hsplit]; rfl) (run_cons_ok.mpr ⟨m, hi, hpre⟩)
  · rintro ⟨hC, h⟩ pre j post t hsplit hpre
    cases pre with
    | nil =>
      cases hsplit
      cases hpre
      exact hC
    | cons k pre =>
      cases hsplit
      obtain ⟨m', hm', hpre⟩ := run_cons_ok.mp hpre
      cases hi.symm.trans hm'
      exact h pre j post t rfl hpre

theorem along_cons_error {C : ι → σ → Prop} {i : ι} {is : List ι} {s : σ} {e : ε}
    (hi : step i s = .error e) : Along step C (i :: is) s ↔ C i s := by
  constructor
  · exact fun h => h [] i is s rfl rfl
  · intro hC pre j post t hsplit hpre
    cases pre with
    | nil =>
      cases hsplit
      cases hpre
      exact hC
    | cons k pre =>
      cases hsplit
      obtain ⟨m, hm, -⟩ := run_cons_ok.mp hpre
      cases hi.symm.trans hm

instance decidableAlong {C : ι → σ → Prop} [∀ i s, Decidable (C i s)] :
    ∀ (is : List ι) (s : σ), Decidable (Along step C is s)
  | [], s => isTrue (along_nil s)
  | i :: is, s =>
    match hi : step i s with
    | .error _ => decidable_of_iff (C i s) (along_cons_error hi).symm
    | .ok m =>
      have := decidableAlong (C := C) is m
      decidable_of_iff (C i s ∧ Along step C is m) (along_cons hi).symm

theorem along_of_append {C : ι → σ → Prop} {xs ys : List ι} {s : σ}
    (h : Along step C (xs ++ ys) s) : Along step C xs s := by
  intro pre i post m hsplit hpre
  exact h pre i (post ++ ys) m (by rw [hsplit, List.append_assoc, List.cons_append]) hpre

theorem run_invariant_along {I : σ → Prop} {C : ι → σ → Prop}
    (keep : ∀ i s t, C i s → I s → step i s = .ok t → I t) {is : List ι} {s t : σ}
    (hC : Along step C is s) (init : I s) (h : run step is s = .ok t) : I t := by
  induction is generalizing s with
  | nil =>
    cases h
    exact init
  | cons i is ih =>
    obtain ⟨m, hm, ht⟩ := run_cons_ok.mp h
    obtain ⟨hi, hrest⟩ := (along_cons hm).mp hC
    exact ih hrest (keep i s m hi init hm) ht

def AfterEach (step : ι → σ → Except ε σ) (D : σ → Prop) (is : List ι) (s : σ) : Prop :=
  ∀ pre post t, is = pre ++ post → run step pre s = .ok t → D t

theorem afterEach_nil {D : σ → Prop} {s : σ} : AfterEach step D [] s ↔ D s := by
  constructor
  · exact fun h => h [] [] s rfl rfl
  · intro hD pre post t hsplit hpre
    obtain ⟨rfl, rfl⟩ := List.append_eq_nil_iff.mp hsplit.symm
    cases hpre
    exact hD

theorem afterEach_cons {D : σ → Prop} {i : ι} {is : List ι} {s : σ} :
    AfterEach step D (i :: is) s ↔ D s ∧ ∀ m, step i s = .ok m → AfterEach step D is m := by
  constructor
  · intro h
    refine ⟨h [] (i :: is) s rfl rfl, fun m hm pre post t hsplit hpre => ?_⟩
    exact h (i :: pre) post t (by rw [hsplit]; rfl) (run_cons_ok.mpr ⟨m, hm, hpre⟩)
  · rintro ⟨hD, h⟩ pre post t hsplit hpre
    cases pre with
    | nil =>
      cases hpre
      exact hD
    | cons k pre =>
      cases hsplit
      obtain ⟨m, hm, hpre⟩ := run_cons_ok.mp hpre
      exact h m hm pre post t rfl hpre

instance decidableAfterEach {D : σ → Prop} [DecidablePred D] :
    ∀ (is : List ι) (s : σ), Decidable (AfterEach step D is s)
  | [], s => decidable_of_iff (D s) afterEach_nil.symm
  | i :: is, s =>
    match hi : step i s with
    | .error _ => decidable_of_iff (D s) (by simp [afterEach_cons, hi])
    | .ok m =>
      have := decidableAfterEach (D := D) is m
      decidable_of_iff (D s ∧ AfterEach step D is m) (by simp [afterEach_cons, hi])

theorem afterEach_invariant {I D : σ → Prop} {C : ι → σ → Prop}
    (keep : ∀ i s t, C i s → I s → step i s = .ok t → D t → I t) {is : List ι} {s : σ}
    (hC : Along step C is s) (hD : AfterEach step D is s) (init : I s) :
    AfterEach step I is s := by
  intro pre
  induction pre using List.reverseRecOn with
  | nil =>
    rintro post t - hrun
    cases hrun
    exact init
  | append_singleton pre i ih =>
    intro post t hsplit hrun
    obtain ⟨m, hpre, hi⟩ := run_concat_ok.mp hrun
    have hsplit' : is = pre ++ i :: post := by rw [hsplit, List.append_assoc, List.singleton_append]
    have hm := ih _ m hsplit' hpre
    exact keep i m t (hC pre i post m hsplit' hpre) hm hi (hD _ post t hsplit hrun)

theorem run_error {is : List ι} {s : σ} {e : ε} (h : run step is s = .error e) :
    ∃ pre i post m, is = pre ++ i :: post ∧ run step pre s = .ok m ∧ step i m = .error e := by
  induction is generalizing s with
  | nil => cases h
  | cons i is ih =>
    rw [run_cons] at h
    cases hs : step i s with
    | error e' =>
      rw [hs] at h
      cases h
      exact ⟨[], i, is, s, rfl, rfl, hs⟩
    | ok m =>
      rw [hs] at h
      obtain ⟨pre, j, post, n, rfl, hpre, hj⟩ := ih h
      exact ⟨i :: pre, j, post, n, rfl, run_cons_ok.mpr ⟨m, hs, hpre⟩, hj⟩

section

variable {τ : Type u} {κ : Type v} {step' : κ → τ → Except ε τ} {R : σ → τ → Prop} {f : ι → κ}

/-- Two machines are in related states, or both have stopped with the same error. -/
def Together (R : σ → τ → Prop) : Except ε σ → Except ε τ → Prop
  | .ok s, .ok t => R s t
  | .error e, .error e' => e = e'
  | _, _ => False

theorem Together.mono {R' : σ → τ → Prop} {x : Except ε σ} {y : Except ε τ} (h : Together R x y)
    (hR : ∀ s t, R s t → R' s t) : Together R' x y := by
  cases x with
  | error e =>
    cases y with
    | error e' => exact h
    | ok t => exact h
  | ok s =>
    cases y with
    | error e' => exact h
    | ok t => exact hR s t h

theorem Together.map_eq {α : Type u} {g : σ → α} {k : τ → α} {x : Except ε σ} {y : Except ε τ}
    (h : Together R x y) (hR : ∀ s t, R s t → g s = k t) : x.map g = y.map k := by
  cases x with
  | error e =>
    cases y with
    | error e' => exact congrArg Except.error h
    | ok t => exact h.elim
  | ok s =>
    cases y with
    | error e' => exact h.elim
    | ok t => exact congrArg Except.ok (hR s t h)

/-- The rule for a view of a machine that is a machine itself. -/
theorem run_view {g : σ → τ} (h : ∀ i s, (step i s).map g = step' (f i) (g s)) (is : List ι)
    (s : σ) : (run step is s).map g = run step' (is.map f) (g s) := by
  induction is generalizing s with
  | nil => rfl
  | cons i is ih =>
    rw [List.map_cons, run_cons, run_cons, ← h]
    cases step i s with
    | error e => rfl
    | ok m => exact ih m

theorem run_together {C : ι → σ → Prop}
    (keep : ∀ i s t, C i s → R s t → Together R (step i s) (step' (f i) t)) {is : List ι}
    {s : σ} {t : τ} (hC : Along step C is s) (init : R s t) :
    Together R (run step is s) (run step' (is.map f) t) := by
  induction is generalizing s t with
  | nil => exact init
  | cons i is ih =>
    have hi := keep i s t (hC [] i is s rfl rfl) init
    rw [List.map_cons, run_cons, run_cons]
    cases hs : step i s with
    | error e =>
      cases ht : step' (f i) t with
      | error e' => rwa [hs, ht] at hi
      | ok n => simp [hs, ht, Together] at hi
    | ok m =>
      cases ht : step' (f i) t with
      | error e' => simp [hs, ht, Together] at hi
      | ok n =>
        rw [hs, ht] at hi
        exact ih ((along_cons hs).mp hC).2 hi

end

end Nsumo.Lib.Run
