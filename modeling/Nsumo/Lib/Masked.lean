import Nsumo.Lib.Total

/-! A program that reads shared data word by word, with the handler that changes the data masked. -/

universe u v w

namespace Nsumo.Lib

/-- The inputs of the handler that have been served, the words read so far in a masked part, and
what the masked parts have read, each with the number of inputs served before it. -/
structure Masked (σ : Type u) (ι : Type v) (α : Type w) : Type (max u v w) where
  shared : σ
  served : List ι
  reading : Option (List α)
  results : List (List α × Nat)

namespace Masked

inductive Event (ι : Type v) : Type v
  | serve (i : ι)
  | read

variable {σ : Type u} {ι : Type v} {α : Type w}

def start (shared : σ) : Masked σ ι α := ⟨shared, [], none, []⟩

section

variable (serve : σ → ι → σ) (words : List (σ → α))

/-- The program masks the handler, reads one word after the other and unmasks the handler. -/
def stepRead (m : Masked σ ι α) : Masked σ ι α :=
  match m.reading with
  | none => { m with reading := some [] }
  | some ws =>
    match words[ws.length]? with
    | some word => { m with reading := some (ws ++ [word m.shared]) }
    | none => { m with reading := none, results := m.results ++ [(ws, m.served.length)] }

def step (m : Masked σ ι α) : Event ι → Masked σ ι α
  | .serve i =>
    match m.reading with
    | none => { m with shared := serve m.shared i, served := m.served ++ [i] }
    | some _ => m
  | .read => m.stepRead words

def snapshot (init : σ) (inputs : List ι) : List α :=
  words.map fun word => word (inputs.foldl serve init)

structure Inv (init : σ) (m : Masked σ ι α) : Prop where
  shared : m.shared = m.served.foldl serve init
  reading (ws : List α) : m.reading = some ws → ws.length ≤ words.length ∧
    ws = (words.take ws.length).map fun word => word m.shared
  results : ∀ result ∈ m.results, result.2 ≤ m.served.length ∧
    result.1 = snapshot serve words init (m.served.take result.2)
  sorted : (m.results.map Prod.snd).Pairwise (· ≤ ·)

end

section

variable {serve : σ → ι → σ} {words : List (σ → α)} {init : σ} {m : Masked σ ι α}

theorem start_inv (init : σ) : Inv serve words init (start init : Masked σ ι α) where
  shared := rfl
  reading := nofun
  results := nofun
  sorted := .nil

theorem Inv.afterServe (h : Inv serve words init m) (hreading : m.reading = none) (i : ι) :
    Inv serve words init
      { m with shared := serve m.shared i, served := m.served ++ [i] } where
  shared := by rw [List.foldl_append, ← h.shared]; rfl
  reading ws hws := by
    cases hreading.symm.trans hws
  results result hmem := by
    obtain ⟨hle, hresult⟩ := h.results result hmem
    refine ⟨?_, by rwa [List.take_append_of_le_length hle]⟩
    rw [List.length_append]
    exact Nat.le_add_right_of_le hle
  sorted := h.sorted

theorem Inv.stepRead (h : Inv serve words init m) : Inv serve words init (m.stepRead words) := by
  rw [Masked.stepRead]
  split
  case h_1 =>
    refine ⟨h.shared, ?_, h.results, h.sorted⟩
    rintro _ ⟨⟩
    exact ⟨Nat.zero_le _, rfl⟩
  case h_2 ws hreading =>
    obtain ⟨hle, hws⟩ := h.reading ws hreading
    split
    case h_1 word hword =>
      obtain ⟨hlt, rfl⟩ := List.getElem?_eq_some_iff.mp hword
      refine ⟨h.shared, ?_, h.results, h.sorted⟩
      rintro _ ⟨⟩
      refine ⟨by rw [List.length_append]; exact hlt, ?_⟩
      rw [List.length_append, List.length_singleton, List.take_add_one,
        List.getElem?_eq_getElem hlt,
        List.map_append, ← hws]
      rfl
    case h_2 hnone =>
      have hlength : words.length ≤ ws.length := List.getElem?_eq_none_iff.mp hnone
      refine ⟨h.shared, nofun, ?_, ?_⟩
      · intro result hmem
        obtain hmem | hmem := List.mem_append.mp hmem
        · exact h.results result hmem
        · obtain rfl := List.mem_singleton.mp hmem
          refine ⟨Nat.le_refl _, ?_⟩
          rw [List.take_length, snapshot, ← h.shared]
          rwa [List.take_of_length_le hlength] at hws
      · rw [List.map_append]
        refine List.pairwise_append.mpr ⟨h.sorted, List.pairwise_singleton _ _, ?_⟩
        intro k hk k' hk'
        obtain ⟨result, hmem, rfl⟩ := List.mem_map.mp hk
        obtain rfl := List.mem_singleton.mp hk'
        exact (h.results result hmem).1

theorem Inv.step (h : Inv serve words init m) (event : Event ι) :
    Inv serve words init (m.step serve words event) := by
  cases event with
  | read => exact h.stepRead
  | serve i =>
    rw [Masked.step]
    split
    case h_1 hreading => exact h.afterServe hreading i
    case h_2 => exact h

end

end Masked

end Nsumo.Lib
