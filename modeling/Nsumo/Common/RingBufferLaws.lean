import Nsumo.Common.RingBuffer
import Nsumo.Lib.Fifo
import Nsumo.Lib.Run

namespace Nsumo.Common.RingBuffer

open Lib Lib.Memory

structure Wf (n e : Nat) (rb : RingBuffer) : Prop where
  size : rb.bufferSize = n
  elem : rb.elemSize = e
  cells : rb.buffer.length = n * e
  head_lt : rb.headIdx < n
  tail_lt : rb.tailIdx < n
  full_eq : rb.full = true → rb.headIdx = rb.tailIdx

def stored (rb : RingBuffer) : Nat :=
  if rb.full then
    rb.bufferSize
  else if rb.tailIdx ≤ rb.headIdx then
    rb.headIdx - rb.tailIdx
  else
    rb.headIdx + rb.bufferSize - rb.tailIdx

def toList (rb : RingBuffer) : List (List Byte) :=
  Fifo.window rb.bufferSize (fun i => slot rb.elemSize i rb.buffer) rb.tailIdx rb.stored

@[simp] theorem length_toList (rb : RingBuffer) : rb.toList.length = rb.stored := by
  simp [toList]

theorem ofSize_wf {n e : Nat} (hn : 1 ≤ n) : Wf n e (ofSize n e) := by
  constructor <;> simp [ofSize] <;> omega

@[simp] theorem toList_ofSize (n e : Nat) : (ofSize n e).toList = [] := by
  simp [toList, stored, ofSize]

section

variable {n e : Nat} {rb : RingBuffer}

theorem Wf.stored_le (h : rb.Wf n e) : rb.stored ≤ n := by
  obtain ⟨rfl, -, -, hh, ht, -⟩ := h
  unfold stored
  split
  · exact Nat.le_refl _
  · split <;> omega

theorem Wf.empty_iff (h : rb.Wf n e) : rb.empty = true ↔ rb.toList = [] := by
  obtain ⟨rfl, -, -, hh, ht, -⟩ := h
  rw [← List.length_eq_zero_iff, length_toList]
  unfold empty stored
  cases rb.full with
  | true => simp; omega
  | false => simp; split <;> omega

theorem Wf.full_iff (h : rb.Wf n e) : rb.full = true ↔ rb.toList.length = n := by
  obtain ⟨rfl, -, -, hh, ht, -⟩ := h
  rw [length_toList]
  unfold stored
  cases rb.full with
  | true => simp
  | false => simp; split <;> omega

theorem Wf.length_of_mem (h : rb.Wf n e) {x : List Byte} (hx : x ∈ rb.toList) : x.length = e := by
  obtain ⟨k, hk, rfl⟩ := List.mem_map.mp hx
  have hlt : k < n := Nat.lt_of_lt_of_le (List.mem_range.mp hk) h.stored_le
  rw [h.size, h.elem]
  exact length_slot h.cells (Fifo.ahead_lt h.tail_lt hlt.le)

theorem Wf.nextIdx_eq (h : rb.Wf n e) (hn : n < 255) {i : Nat} (hi : i < n) :
    rb.nextIdx i = Fifo.ahead n i 1 := by
  have hmod : (i + 1) % 256 = i + 1 := Nat.mod_eq_of_lt (by omega)
  simp only [nextIdx, Fifo.ahead, hmod, h.size]
  split <;> split <;> omega

theorem Wf.head_eq (h : rb.Wf n e) (hfull : rb.full = false) :
    rb.headIdx = Fifo.ahead n rb.tailIdx rb.stored := by
  obtain ⟨rfl, -, -, hh, ht, -⟩ := h
  simp only [stored, hfull, Fifo.ahead, Bool.false_eq_true, if_false]
  split <;> split <;> omega

theorem Wf.toList_cons (h : rb.Wf n e) (hne : rb.empty = false) :
    ∃ k, rb.stored = k + 1 ∧ k < n ∧ rb.toList = slot e rb.tailIdx rb.buffer ::
      Fifo.window n (fun i => slot e i rb.buffer) (Fifo.ahead n rb.tailIdx 1) k := by
  have hpos : rb.stored ≠ 0 := by
    intro h0
    have : rb.empty = true := h.empty_iff.mpr (List.length_eq_zero_iff.mp (by simpa using h0))
    simp [this] at hne
  obtain ⟨k, hk⟩ := Nat.exists_eq_succ_of_ne_zero hpos
  have hkn : k < n := by
    have := h.stored_le
    omega
  refine ⟨k, hk, hkn, ?_⟩
  rw [toList, hk, h.size, h.elem]
  exact Fifo.window_cons h.tail_lt hkn

theorem Wf.get_spec (h : rb.Wf n e) (hn : n < 255) {x : List Byte} {q : List (List Byte)}
    (hq : rb.toList = x :: q) :
    ∃ rb', rb.get = .ok (x, rb') ∧ rb'.Wf n e ∧ rb'.toList = q ∧ rb'.full = false := by
  have hne : rb.empty = false := by
    rw [← Bool.not_eq_true, h.empty_iff, hq]
    simp
  obtain ⟨k, hk, hkn, hcons⟩ := h.toList_cons hne
  rw [hq, List.cons.injEq] at hcons
  have hnext : rb.nextIdx rb.tailIdx = Fifo.ahead n rb.tailIdx 1 := h.nextIdx_eq hn h.tail_lt
  have hlt : Fifo.ahead n rb.tailIdx 1 < n := by
    have := h.tail_lt
    exact Fifo.ahead_lt h.tail_lt (by omega)
  have hstored : stored { rb with tailIdx := rb.nextIdx rb.tailIdx, full := false } = k := by
    have hfull := h.full_eq
    obtain ⟨rfl, -, -, hh, ht, -⟩ := h
    simp only [stored, Bool.false_eq_true, if_false, hnext, Fifo.ahead] at hk ⊢
    cases hf : rb.full with
    | true =>
      have := hfull hf
      simp only [hf, if_true] at hk
      split <;> split <;> omega
    | false =>
      simp only [hf, Bool.false_eq_true, if_false] at hk
      split at hk <;> split <;> split <;> omega
  refine ⟨{ rb with tailIdx := rb.nextIdx rb.tailIdx, full := false }, ?_, ?_, ?_, rfl⟩
  · simp [get, hne, bind, Except.bind, pure, Except.pure, hcons.1, slot, h.elem]
  · exact ⟨h.size, h.elem, h.cells, h.head_lt, by simpa [hnext] using hlt, by simp⟩
  · rw [hcons.2, toList, hstored]
    simp only [hnext, h.size, h.elem]

theorem get_of_empty (hne : rb.empty = true) : rb.get = .error .ringBufferGet := by
  simp [get, hne, bind, Except.bind]

theorem put_ok (rb : RingBuffer) (data : List Byte) : ∃ rb', rb.put data = .ok rb' := by
  cases hfull : rb.full <;>
    simp [put, get, empty, hfull, bind, Except.bind, pure, Except.pure, Functor.map, Except.map]

theorem Wf.put_of_not_full (h : rb.Wf n e) (hn : n < 255) (hfull : rb.full = false)
    {data : List Byte} (hdata : data.length = e) :
    ∃ rb', rb.put data = .ok rb' ∧ rb'.Wf n e ∧ rb'.toList = rb.toList ++ [data] := by
  have hnext : rb.nextIdx rb.headIdx = Fifo.ahead n rb.headIdx 1 := h.nextIdx_eq hn h.head_lt
  have hhead := h.head_eq hfull
  have hlt : rb.stored < n := by
    have := h.stored_le
    have := h.full_iff
    simp only [hfull, Bool.false_eq_true, false_iff, length_toList] at this
    omega
  have hnlt : Fifo.ahead n rb.headIdx 1 < n := by
    have := h.head_lt
    exact Fifo.ahead_lt h.head_lt (by omega)
  have htake : data.take e = data := by rw [← hdata, List.take_length]
  let rb' : RingBuffer := { rb with
    buffer := store (rb.headIdx * e) data rb.buffer
    headIdx := Fifo.ahead n rb.headIdx 1
    full := Fifo.ahead n rb.headIdx 1 == rb.tailIdx }
  have hstored : rb'.stored = rb.stored + 1 := by
    obtain ⟨rfl, -, -, hh, ht, -⟩ := h
    simp only [stored, hfull, rb', Fifo.ahead, Bool.false_eq_true, if_false, beq_iff_eq] at hlt ⊢
    split at hlt <;> split <;> split <;> (try split) <;> omega
  refine ⟨rb', ?_, ?_, ?_⟩
  · simp [put, hfull, bind, Except.bind, pure, Except.pure, htake, hnext, h.elem, rb']
  · refine ⟨h.size, h.elem, ?_, hnlt, h.tail_lt, by simp [rb']⟩
    have hend : rb.headIdx * e + data.length ≤ rb.buffer.length := by
      rw [hdata, h.cells]
      exact slot_end_le h.head_lt
    exact (length_store hend).trans h.cells
  · rw [toList, hstored]
    simp only [rb', h.size, h.elem, toList]
    apply Fifo.window_push h.tail_lt hlt
    intro j
    rw [slot_store h.cells hdata h.head_lt, hhead]

theorem Wf.put_spec (h : rb.Wf n e) (hn : n < 255) {data : List Byte} (hdata : data.length = e) :
    ∃ rb', rb.put data = .ok rb' ∧ rb'.Wf n e ∧ rb'.toList = Fifo.push n rb.toList data := by
  cases hfull : rb.full with
  | false =>
    obtain ⟨rb', hput, hwf, hlist⟩ := h.put_of_not_full hn hfull hdata
    refine ⟨rb', hput, hwf, ?_⟩
    have hlt : rb.toList.length < n := by
      have := h.stored_le
      have := h.full_iff
      simp only [hfull, Bool.false_eq_true, false_iff, length_toList] at this ⊢
      omega
    rw [hlist, Fifo.push_of_lt hlt]
  | true =>
    have hlen := h.full_iff.mp hfull
    have hpos := h.head_lt
    match hq : rb.toList with
    | [] =>
      rw [hq] at hlen
      simp only [List.length_nil] at hlen
      omega
    | x :: q =>
      obtain ⟨rb₁, hget, hwf₁, hlist₁, hfull₁⟩ := h.get_spec hn hq
      obtain ⟨rb', hput, hwf, hlist⟩ := hwf₁.put_of_not_full hn hfull₁ hdata
      refine ⟨rb', ?_, hwf, ?_⟩
      · rw [← hput]
        simp [put, hfull, hfull₁, hget, Functor.map, Except.map, bind, Except.bind, pure,
          Except.pure]
      · rw [hlist, hlist₁, Fifo.push_of_full (hq ▸ hlen)]

theorem Wf.peekTail_spec (h : rb.Wf n e) {x : List Byte} {q : List (List Byte)}
    (hq : rb.toList = x :: q) : rb.peekTail = .ok x := by
  have hne : rb.empty = false := by
    rw [← Bool.not_eq_true, h.empty_iff, hq]
    simp
  obtain ⟨k, -, -, hcons⟩ := h.toList_cons hne
  rw [hq, List.cons.injEq] at hcons
  simp [peekTail, hne, bind, Except.bind, pure, Except.pure, hcons.1, slot, h.elem]

end

structure Growing (n e : Nat) (rb : RingBuffer) : Prop where
  wf : rb.Wf n e
  start : rb.full = true ∨ rb.tailIdx = 0

theorem ofSize_growing {n e : Nat} (hn : 1 ≤ n) : Growing n e (ofSize n e) :=
  ⟨ofSize_wf hn, .inr rfl⟩

theorem put_tailIdx {rb rb' : RingBuffer} {data : List Byte} (hfull : rb.full = false)
    (h : rb.put data = .ok rb') : rb'.tailIdx = rb.tailIdx := by
  simp only [put, hfull] at h
  cases h
  rfl

section

variable {n e : Nat} {rb : RingBuffer}

theorem Growing.put_spec (h : rb.Growing n e) (hn : n < 255) {data : List Byte}
    (hdata : data.length = e) :
    ∃ rb', rb.put data = .ok rb' ∧ rb'.Growing n e ∧ rb'.toList = Fifo.push n rb.toList data := by
  obtain ⟨rb', hput, hwf, hlist⟩ := h.wf.put_spec hn hdata
  refine ⟨rb', hput, ⟨hwf, ?_⟩, hlist⟩
  cases hfull : rb.full with
  | false =>
    have hstart := h.start.resolve_left (by simp [hfull])
    exact .inr ((put_tailIdx hfull hput).trans hstart)
  | true =>
    have hlength := h.wf.full_iff.mp hfull
    have hpos : 0 < n := Nat.lt_of_le_of_lt (Nat.zero_le _) h.wf.head_lt
    refine .inl (hwf.full_iff.mpr ?_)
    rw [hlist, Fifo.length_push hlength.le hpos, hlength]
    omega

/-- The count of a buffer that has wrapped without being full is one too high. -/
theorem Wf.count_eq_iff (h : rb.Wf n e) (hn : n < 255) :
    rb.count = rb.toList.length ↔ rb.full = true ∨ rb.tailIdx ≤ rb.headIdx := by
  obtain ⟨rfl, -, -, hh, ht, -⟩ := h
  rw [length_toList, count, stored]
  cases rb.full with
  | true => simp
  | false =>
    by_cases hle : rb.tailIdx ≤ rb.headIdx
    · simp only [hle, if_true, or_true, iff_true, Bool.false_eq_true, if_false]
      omega
    · simp only [hle, if_false, or_false, Bool.false_eq_true, iff_false]
      omega

theorem Growing.count_eq (h : rb.Growing n e) (hn : n < 255) : rb.count = rb.toList.length := by
  refine (h.wf.count_eq_iff hn).mpr (h.start.imp_right fun htail => ?_)
  rw [htail]
  exact Nat.zero_le rb.headIdx

theorem Wf.cell_of_head (h : rb.Wf n e) {offset : Nat} (hoffset : offset < rb.stored) :
    Fifo.ahead n rb.tailIdx (rb.stored - 1 - offset) =
      if rb.headIdx < offset + 1 then n + rb.headIdx - 1 - offset else rb.headIdx - 1 - offset := by
  obtain ⟨rfl, -, -, hh, ht, hfull⟩ := h
  by_cases hf : rb.full = true
  · have hsame := hfull hf
    rw [stored, if_pos hf] at hoffset ⊢
    unfold Fifo.ahead
    split <;> split <;> omega
  · rw [stored, if_neg hf] at hoffset ⊢
    by_cases hle : rb.tailIdx ≤ rb.headIdx
    · rw [if_pos hle] at hoffset ⊢
      unfold Fifo.ahead
      split <;> split <;> omega
    · rw [if_neg hle] at hoffset ⊢
      unfold Fifo.ahead
      split <;> split <;> omega

theorem Wf.peekHead_spec (h : rb.Wf n e) (hn : n < 255) (hcount : rb.count = rb.toList.length)
    {offset : Nat} {x : List Byte} (hx : rb.toList.reverse[offset]? = some x) :
    rb.peekHead offset = .ok x := by
  have hoffset : offset < rb.stored := by
    obtain ⟨hlt, -⟩ := List.getElem?_eq_some_iff.mp hx
    simpa using hlt
  have hlt : offset < rb.count := by rwa [hcount, length_toList]
  have hcell := h.cell_of_head hoffset
  have hle := h.stored_le
  have hhead := h.head_lt
  have hidx : (((if (rb.headIdx : Int) - 1 - offset < 0 then (n : Int) + (rb.headIdx - 1 - offset)
      else rb.headIdx - 1 - offset) % 256).toNat) =
        Fifo.ahead n rb.tailIdx (rb.stored - 1 - offset) := by
    rw [hcell]
    split <;> split <;> omega
  have hload : rb.peekHead offset = .ok (slot e (Fifo.ahead n rb.tailIdx (rb.stored - 1 - offset))
      rb.buffer) := by
    rw [← hidx, ← h.size, ← h.elem]
    simp [peekHead, hlt, bind, Except.bind, pure, Except.pure, slot]
  rw [hload]
  rw [List.getElem?_reverse (by simpa using hoffset), length_toList, toList, Fifo.window,
    List.getElem?_map, List.getElem?_range (by omega)] at hx
  rw [← Option.some.inj hx, h.size, h.elem]

theorem Growing.peekHead_spec (h : rb.Growing n e) (hn : n < 255) {offset : Nat}
    {x : List Byte} (hx : rb.toList.reverse[offset]? = some x) : rb.peekHead offset = .ok x :=
  h.wf.peekHead_spec hn (h.count_eq hn) hx

theorem peekHead_of_count_le {offset : Nat} (h : rb.count ≤ offset) :
    rb.peekHead offset = .error .ringBufferPeekHead := by
  simp [peekHead, Nat.not_lt.mpr h, bind, Except.bind]

end

def exec : Fifo.Op (List Byte) → RingBuffer × List (List Byte) →
    Except Assert (RingBuffer × List (List Byte))
  | .put data, (rb, out) => do return (← rb.put data, out)
  | .get, (rb, out) => do
    let (x, rb) ← rb.get
    return (rb, out ++ [x])

variable {n e : Nat}

theorem exec_put_ok {data : List Byte} {rb rb' : RingBuffer} {out out' : List (List Byte)} :
    exec (.put data) (rb, out) = .ok (rb', out') ↔ rb.put data = .ok rb' ∧ out = out' := by
  cases h : rb.put data <;> simp [exec, h, bind, Except.bind, pure, Except.pure]

theorem exec_get_ok {rb rb' : RingBuffer} {out out' : List (List Byte)} :
    exec .get (rb, out) = .ok (rb', out') ↔ ∃ x, rb.get = .ok (x, rb') ∧ out ++ [x] = out' := by
  cases h : rb.get with
  | error a => simp [exec, h, bind, Except.bind]
  | ok r => simp [exec, h, bind, Except.bind, pure, Except.pure, Prod.ext_iff, eq_comm]

theorem Wf.exec_spec {rb : RingBuffer} (h : rb.Wf n e) (hn : n < 255)
    (op : Fifo.Op (List Byte)) (hop : ∀ data, op = .put data → data.length = e)
    (out : List (List Byte)) :
    (∃ rb' out', exec op (rb, out) = .ok (rb', out') ∧ rb'.Wf n e ∧
        Fifo.exec n op (rb.toList, out) = .ok (rb'.toList, out')) ∨
      exec op (rb, out) = .error .ringBufferGet ∧
        Fifo.exec n op (rb.toList, out) = .error () := by
  cases op with
  | put data =>
    obtain ⟨rb', hput, hwf, hlist⟩ := h.put_spec hn (hop data rfl)
    refine .inl ⟨rb', out, exec_put_ok.mpr ⟨hput, rfl⟩, hwf, ?_⟩
    rw [Fifo.exec, hlist]
  | get =>
    match hq : rb.toList with
    | [] =>
      have hempty : rb.empty = true := h.empty_iff.mpr hq
      refine .inr ⟨?_, rfl⟩
      simp [exec, get_of_empty hempty, bind, Except.bind]
    | x :: q =>
      obtain ⟨rb', hget, hwf, hlist, -⟩ := h.get_spec hn hq
      refine .inl ⟨rb', out ++ [x], exec_get_ok.mpr ⟨x, hget, rfl⟩, hwf, ?_⟩
      rw [Fifo.exec, hlist]

theorem Wf.run_spec {rb : RingBuffer} (h : rb.Wf n e) (hn : n < 255)
    {ops : List (Fifo.Op (List Byte))} (hops : ∀ data, .put data ∈ ops → data.length = e)
    (out : List (List Byte)) :
    (∃ rb' out', Run.run exec ops (rb, out) = .ok (rb', out') ∧ rb'.Wf n e ∧
        Run.run (Fifo.exec n) ops (rb.toList, out) = .ok (rb'.toList, out')) ∨
      Run.run exec ops (rb, out) = .error .ringBufferGet ∧
        Run.run (Fifo.exec n) ops (rb.toList, out) = .error () := by
  induction ops generalizing rb out with
  | nil => exact .inl ⟨rb, out, rfl, h, rfl⟩
  | cons op ops ih =>
    have hop : ∀ data, op = .put data → data.length = e :=
      fun data hd => hops data (hd ▸ List.mem_cons_self)
    simp only [Run.run_cons]
    rcases h.exec_spec hn op hop out with ⟨rb', out', hc, hwf, ha⟩ | ⟨hc, ha⟩
    · rw [hc, ha]
      exact ih hwf (fun data hd => hops data (List.mem_cons_of_mem op hd)) out'
    · rw [hc, ha]
      exact .inr ⟨rfl, rfl⟩

theorem Wf.length_le {rb : RingBuffer} (h : rb.Wf n e) : rb.toList.length ≤ n := by
  rw [length_toList]
  exact h.stored_le

theorem refines_fifo (hn : 1 ≤ n) (hn' : n < 255) {ops : List (Fifo.Op (List Byte))}
    (hops : ∀ data, .put data ∈ ops → data.length = e) :
    (∃ rb q out, Run.run exec ops (ofSize n e, []) = .ok (rb, out) ∧
        Run.run (Fifo.exec n) ops ([], []) = .ok (q, out) ∧
        q.length ≤ n ∧ rb.headIdx < rb.bufferSize ∧ rb.tailIdx < rb.bufferSize ∧
        (rb.empty = true ↔ q = []) ∧ (rb.full = true ↔ q.length = n) ∧
        (∀ x q', q = x :: q' → rb.peekTail = .ok x) ∧
        (∀ x q', q = x :: q' → ∃ rb', rb.get = .ok (x, rb'))) ∨
      Run.run exec ops (ofSize n e, []) = .error .ringBufferGet ∧
        Run.run (Fifo.exec n) ops ([], []) = .error () := by
  have hspec := (ofSize_wf (n := n) (e := e) hn).run_spec hn' hops []
  rw [toList_ofSize] at hspec
  refine hspec.imp ?_ id
  rintro ⟨rb, out, hc, hwf, ha⟩
  refine ⟨rb, rb.toList, out, hc, ha, hwf.length_le, ?_, ?_, hwf.empty_iff, hwf.full_iff, ?_, ?_⟩
  · exact hwf.size ▸ hwf.head_lt
  · exact hwf.size ▸ hwf.tail_lt
  · exact fun x q' hq => hwf.peekTail_spec hq
  · intro x q' hq
    obtain ⟨rb', hget, -⟩ := hwf.get_spec hn' hq
    exact ⟨rb', hget⟩

theorem refines_fifo_overwrite :
    ∃ rb, Run.run exec [.put [1, 2], .put [3, 4], .put [5, 6], .get] (ofSize 2 2, []) =
        .ok (rb, [[3, 4]]) ∧
      rb.empty = false ∧ rb.full = false ∧ rb.peekTail = .ok [5, 6] := by
  have hops : ∀ data : List Byte,
      .put data ∈ [Fifo.Op.put [1, 2], .put [3, 4], .put [5, 6], .get] → data.length = 2 := by
    simp
  obtain ⟨rb, q, out, hc, ha, -, -, -, hempty, hfull, hpeek, -⟩ | ⟨hc, -⟩ :=
    refines_fifo (n := 2) (e := 2) (by decide) (by decide) hops
  · obtain ⟨rfl, rfl⟩ : [[5, 6]] = q ∧ [[3, 4]] = out := Prod.mk.inj (Except.ok.inj ha)
    exact ⟨rb, hc, by simpa using hempty, by simpa using hfull, hpeek _ _ rfl⟩
  · cases hc

/-- The buffer counts the elements of a queue and shows the latest of them. -/
structure Reports (rb : RingBuffer) (q : List (List Byte)) : Prop where
  count : rb.count = q.length
  peekHead (offset : Nat) (x : List Byte) : q.reverse[offset]? = some x → rb.peekHead offset = .ok x
  bounds (offset : Nat) : q.length ≤ offset → rb.peekHead offset = .error .ringBufferPeekHead

theorem Wf.reports {rb : RingBuffer} (h : rb.Wf n e) (hn : n < 255) :
    rb.Reports rb.toList ↔ rb.full = true ∨ rb.tailIdx ≤ rb.headIdx := by
  rw [← h.count_eq_iff hn]
  constructor
  · exact Reports.count
  · intro hcount
    exact ⟨hcount, fun _ _ hx => h.peekHead_spec hn hcount hx,
      fun _ hle => peekHead_of_count_le (hcount ▸ hle)⟩

theorem reports_iff (hn : 1 ≤ n) (hn' : n < 255) {ops : List (Fifo.Op (List Byte))}
    (hops : ∀ data, .put data ∈ ops → data.length = e) {rb : RingBuffer} {out : List (List Byte)}
    (hrun : Run.run exec ops (ofSize n e, []) = .ok (rb, out)) :
    ∃ q, Run.run (Fifo.exec n) ops ([], []) = .ok (q, out) ∧ q <:+ Fifo.puts ops ∧
      (rb.Reports q ↔ rb.full = true ∨ rb.tailIdx ≤ rb.headIdx) := by
  obtain ⟨rb', out', hc, hwf, ha⟩ | ⟨hc, -⟩ :=
    (ofSize_wf (n := n) (e := e) hn).run_spec hn' hops []
  · cases hc.symm.trans hrun
    rw [toList_ofSize] at ha
    exact ⟨rb.toList, ha, Fifo.run_suffix ha, hwf.reports hn'⟩
  · cases hc.symm.trans hrun

theorem reports_iff_unwrapped :
    ∃ rb, Run.run exec [.put [1], .put [2], .get] (ofSize 3 1, []) = .ok (rb, [[1]]) ∧
      rb.Reports [[2]] := by
  have hops : ∀ data : List Byte,
      .put data ∈ [Fifo.Op.put [1], .put [2], .get] → data.length = 1 := by
    simp
  have hrun : ∃ rb, Run.run exec [.put [1], .put [2], .get] (ofSize 3 1, []) = .ok (rb, [[1]]) ∧
      rb.tailIdx ≤ rb.headIdx := ⟨_, rfl, by decide⟩
  obtain ⟨rb, h, hle⟩ := hrun
  obtain ⟨q, ha, -, hreports⟩ := reports_iff (by decide) (by decide) hops h
  obtain ⟨rfl, -⟩ : [[2]] = q ∧ [[1]] = [[1]] := Prod.mk.inj (Except.ok.inj ha)
  exact ⟨rb, h, hreports.mpr (.inr hle)⟩

theorem not_reports :
    ∃ rb, Run.run exec [.put [1], .put [2], .get] (ofSize 2 1, []) = .ok (rb, [[1]]) ∧
      Run.run (Fifo.exec 2) [.put [1], .put [2], .get] ([], []) = .ok ([[2]], [[1]]) ∧
      rb.count = 2 ∧ rb.peekHead 1 = .ok [1] ∧ ¬rb.Reports [[2]] := by
  refine ⟨_, rfl, rfl, rfl, rfl, fun h => ?_⟩
  exact absurd h.count (by decide)

end Nsumo.Common.RingBuffer
