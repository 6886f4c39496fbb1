import Nsumo.Lib.Triple
import Mathlib.Logic.Function.Iterate

/-! Programs that run on fuel: some amount is enough, or they hang in a known kind of state. -/

namespace Nsumo.Lib

variable {ε σ α β : Type} {out : ε}

def Endless (out : ε) (f : Nat → EStateM ε σ α) (s : σ) : Prop := ∀ n, ∃ t, f n s = .error out t

def Enough (out : ε) (f : Nat → EStateM ε σ α) (n : Nat) (s : σ) : Prop :=
  ∀ t, f n s ≠ .error out t

/-- More fuel changes no result, and the program is endless just when the state that it runs out
of fuel in is one of `H`. -/
structure HangsIn (out : ε) (H : σ → Prop) (f : Nat → EStateM ε σ α) : Prop where
  stable (n : Nat) (s : σ) : Enough out f n s → f (n + 1) s = f n s
  hangs (s : σ) : Endless out f s → ∃ n, ∀ m ≥ n, ∀ t, f m s = .error out t → H t
  stuck (n : Nat) (s t : σ) : f (n + 1) s = .error out t → H t → Endless out f s

theorem not_enough_iff {f : Nat → EStateM ε σ α} {n : Nat} {s : σ} :
    ¬Enough out f n s ↔ ∃ t, f n s = .error out t := by
  simp [Enough]

namespace HangsIn

variable {H : σ → Prop} {f : Nat → EStateM ε σ α} {g : α → Nat → EStateM ε σ β}

theorem stable_le (h : HangsIn out H f) {n m : Nat} {s : σ} (hn : Enough out f n s) (hm : n ≤ m) :
    f m s = f n s := by
  induction hm with
  | refl => rfl
  | @step k _ ih =>
    rw [← ih]
    refine h.stable k s fun t => ?_
    rw [ih]
    exact hn t

theorem enough_le (h : HangsIn out H f) {n m : Nat} {s : σ} (hn : Enough out f n s)
    (hm : n ≤ m) : Enough out f m s := by
  intro t
  rw [h.stable_le hn hm]
  exact hn t

theorem enough_eq (h : HangsIn out H f) {n m : Nat} {s : σ} (hn : Enough out f n s)
    (hm : Enough out f m s) : f n s = f m s := by
  rcases Nat.le_total n m with hle | hle
  · exact (h.stable_le hn hle).symm
  · exact h.stable_le hm hle

theorem enough_or_endless (f : Nat → EStateM ε σ α) (s : σ) :
    (∃ n, Enough out f n s) ∨ Endless out f s := by
  by_cases h : ∃ n, Enough out f n s
  · exact .inl h
  · exact .inr fun n => not_enough_iff.mp fun hn => h ⟨n, hn⟩

theorem cond {c : Prop} [Decidable c] {g : Nat → EStateM ε σ α} (hthen : c → HangsIn out H f)
    (helse : ¬c → HangsIn out H g) : HangsIn out H fun n => if c then f n else g n := by
  by_cases hc : c
  · simpa [hc] using hthen hc
  · simpa [hc] using helse hc

section

variable {n : Nat} {s t : σ} {a : α} {e : ε}

theorem bind_error {x : EStateM ε σ α} {k : α → EStateM ε σ β} (h : x s = .error e t) :
    (x >>= k) s = .error e t := by
  change EStateM.bind x k s = .error e t
  rw [EStateM.bind, h]

theorem bind_error_iff {x : EStateM ε σ α} {k : α → EStateM ε σ β} :
    (x >>= k) s = .error e t ↔
      x s = .error e t ∨ ∃ a m, x s = .ok a m ∧ k a m = .error e t := by
  change EStateM.bind x k s = .error e t ↔ _
  rw [EStateM.bind]
  cases x s <;> simp

theorem bind_stable (hf : HangsIn out H f) (hg : ∀ a, HangsIn out H (g a)) (n : Nat) (s : σ)
    (henough : Enough out (fun n => f n >>= fun a => g a n) n s) :
    (f (n + 1) >>= fun a => g a (n + 1)) s = (f n >>= fun a => g a n) s := by
  have hfirst : Enough out f n s := fun t ht => henough t (bind_error ht)
  cases hrun : f n s with
  | error e t =>
    exact (bind_error ((hf.stable n s hfirst).trans hrun)).trans (bind_error hrun).symm
  | ok a t =>
    have hsecond : Enough out (g a) n t := fun u hu => henough u ((bind_run hrun).trans hu)
    calc (f (n + 1) >>= fun a => g a (n + 1)) s
        = g a (n + 1) t := bind_run ((hf.stable n s hfirst).trans hrun)
      _ = g a n t := (hg a).stable n t hsecond
      _ = (f n >>= fun a => g a n) s := (@bind_run _ _ _ _ _ (fun a => g a n) _ _ _ hrun).symm

theorem endless_second (hf : HangsIn out H f) (hg : ∀ a, HangsIn out H (g a))
    (hrun : f n s = .ok a t) (hendless : Endless out (fun n => f n >>= fun a => g a n) s) :
    Endless out (g a) t := by
  have hn : Enough out f n s := by
    intro u hu
    cases hrun.symm.trans hu
  rcases enough_or_endless (g a) t with ⟨m, hm⟩ | hsecond
  · obtain ⟨u, hu⟩ := hendless (max n m)
    have hlater : f (max n m) s = .ok a t := (hf.stable_le hn (Nat.le_max_left n m)).trans hrun
    have hout : g a (max n m) t = .error out u := (bind_run hlater).symm.trans hu
    exact absurd hout ((hg a).enough_le hm (Nat.le_max_right n m) u)
  · exact hsecond

theorem bind_hangs (hf : HangsIn out H f) (hg : ∀ a, HangsIn out H (g a)) (s : σ)
    (hendless : Endless out (fun n => f n >>= fun a => g a n) s) :
    ∃ n, ∀ m ≥ n, ∀ t, (f m >>= fun a => g a m) s = .error out t → H t := by
  rcases enough_or_endless f s with ⟨n, hn⟩ | hfirst
  · cases hrun : f n s with
    | error e t =>
      obtain ⟨u, hu⟩ : ∃ u, (f n >>= fun a => g a n) s = .error out u := hendless n
      cases (bind_error hrun).symm.trans hu
      exact absurd hrun (hn t)
    | ok a t =>
      obtain ⟨m, hm⟩ := (hg a).hangs t (endless_second hf hg hrun hendless)
      refine ⟨max n m, fun k hk u hu => hm k (Nat.le_trans (Nat.le_max_right n m) hk) u ?_⟩
      have hlater : f k s = .ok a t :=
        (hf.stable_le hn (Nat.le_trans (Nat.le_max_left n m) hk)).trans hrun
      exact (bind_run hlater).symm.trans hu
  · obtain ⟨n, hn⟩ := hf.hangs s hfirst
    refine ⟨n, fun m hm t ht => ?_⟩
    obtain ⟨u, hu⟩ := hfirst m
    cases (bind_error hu).symm.trans ht
    exact hn m hm _ hu

theorem bind_stuck (hf : HangsIn out H f) (hg : ∀ a, HangsIn out H (g a)) (n : Nat) (s t : σ)
    (hout : (f (n + 1) >>= fun a => g a (n + 1)) s = .error out t) (hH : H t) :
    Endless out (fun n => f n >>= fun a => g a n) s := by
  intro k
  rcases bind_error_iff.mp hout with hfirst | ⟨a, m, hrun, hsecond⟩
  · obtain ⟨u, hu⟩ := hf.stuck n s t hfirst hH k
    exact ⟨u, bind_error hu⟩
  · have hn : Enough out f (n + 1) s := by
      intro u hu
      cases hrun.symm.trans hu
    obtain ⟨u, hu⟩ := (hg a).stuck n m t hsecond hH k
    by_cases hk : Enough out f k s
    · exact ⟨u, (bind_run ((hf.enough_eq hk hn).trans hrun)).trans hu⟩
    · obtain ⟨v, hv⟩ := not_enough_iff.mp hk
      exact ⟨v, bind_error hv⟩

theorem bind (hf : HangsIn out H f) (hg : ∀ a, HangsIn out H (g a)) :
    HangsIn out H fun n => f n >>= fun a => g a n where
  stable := bind_stable hf hg
  hangs := bind_hangs hf hg
  stuck := bind_stuck hf hg

end

section

variable {body : EStateM ε σ Bool} {last : EStateM ε σ α} {n : Nat} {s t : σ}

structure Loop (out : ε) (body : EStateM ε σ Bool) (last : EStateM ε σ α)
    (f : Nat → EStateM ε σ α) : Prop where
  zero : f 0 = throw out
  succ (n : Nat) : f (n + 1) = body >>= fun again => if again = true then f n else last
  body_ne (s t : σ) : body s ≠ .error out t
  last_ne (s t : σ) : last s ≠ .error out t

theorem Loop.again (h : Loop out body last f) (hbody : body s = .ok true t) (n : Nat) :
    f (n + 1) s = f n t := by
  rw [h.succ, bind_run hbody, if_pos rfl]

theorem Loop.done (h : Loop out body last f) (hbody : body s = .ok false t) (n : Nat) :
    f (n + 1) s = last t := by
  rw [h.succ, bind_run hbody, if_neg Bool.false_ne_true]

theorem Loop.failed (h : Loop out body last f) {e : ε} (hbody : body s = .error e t) (n : Nat) :
    f (n + 1) s = .error e t := by
  rw [h.succ, bind_error hbody]

theorem Loop.stable (h : Loop out body last f) (n : Nat) (s : σ) (henough : Enough out f n s) :
    f (n + 1) s = f n s := by
  induction n generalizing s with
  | zero => exact absurd (by rw [h.zero]; rfl) (henough s)
  | succ n ih =>
    cases hbody : body s with
    | error e t => rw [h.failed hbody, h.failed hbody]
    | ok again t =>
      cases again with
      | true =>
        rw [h.again hbody, h.again hbody]
        exact ih t fun u hu => henough u ((h.again hbody n).trans hu)
      | false => rw [h.done hbody, h.done hbody]

end

end HangsIn

end Nsumo.Lib
