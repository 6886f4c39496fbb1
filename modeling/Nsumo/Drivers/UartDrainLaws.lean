import Nsumo.Drivers.UartLaws
import Nsumo.Lib.Progress

namespace Nsumo.Drivers.Uart

open Common Lib Lib.Run

@[simp] def Main.distance : Main → Nat
  | .putchar .start _ _ => 9
  | .putchar .enable _ _ => 7
  | .idle => 6
  | .putchar .poll _ _ => 5
  | .putchar .disable _ _ => 4
  | .putchar .check _ _ => 3
  | .putchar (.put _) _ _ => 2

def Main.outer : Main → List Byte
  | .idle => []
  | .putchar _ _ outer => outer

def unfinished (n : Nat) (s : Uart) : Nat := n + (s.raising + s.txIfg.toNat) - s.written.length

def free (s : Uart) : Nat := bufferSize - s.txBuffer.toList.length

/-- A bound on the steps after which the first `n` bytes are written. The end of a transmission
frees a cell, and a character that takes the cell brings the main program back to its start. -/
def work (n : Nat) (s : Uart) : Nat :=
  10 * s.unfinished n + 8 * s.free + s.main.distance + s.raising

def fairKinds : List Event := [.main, .interrupt, .raise]

section

variable {s t : Uart} {n : Nat}

theorem uartTxStart_ok (h : uartTxStart s = .ok t) : t = s ∨ ∃ c, t = writeTxbuf c s := by
  unfold uartTxStart at h
  split at h
  case isTrue =>
    cases h
    exact .inl rfl
  case isFalse =>
    obtain ⟨data, -, hret⟩ := bind_ok.mp h
    cases hret
    exact .inr ⟨_, rfl⟩

theorem isrUartTx_ok (h : isrUartTx s = .ok t) :
    ∃ txBuffer, uartTxStart { s with txBuffer, txIfg := false } = .ok t := by
  cases hempty : s.txBuffer.empty with
  | true =>
    rw [isrUartTx, hempty] at h
    cases h
  | false =>
    cases hget : s.txBuffer.get with
    | error e =>
      rw [isrUartTx, hempty] at h
      change (s.txBuffer.get >>= _) = _ at h
      rw [hget] at h
      cases h
    | ok taken => exact ⟨taken.2, (isrUartTx_eq hempty hget).symm.trans h⟩

structure Grows (s t : Uart) : Prop where
  written : s.written <+: t.written
  input : s.input <+: t.input
  shallow : s.main.outer.length ≤ 1 → t.main.outer.length ≤ 1

theorem Grows.of_same (hwritten : t.written = s.written) (hinput : t.input = s.input)
    (hshallow : s.main.outer.length ≤ 1 → t.main.outer.length ≤ 1) : Grows s t :=
  ⟨hwritten ▸ List.prefix_rfl, hinput ▸ List.prefix_rfl, hshallow⟩

theorem Grows.refl (s : Uart) : Grows s s := .of_same rfl rfl id

theorem Grows.of_start (h : uartTxStart s = .ok t) : Grows s t := by
  obtain rfl | ⟨c, rfl⟩ := uartTxStart_ok h
  · exact .refl t
  · exact ⟨List.prefix_append _ _, List.prefix_rfl, id⟩

theorem outer_callPutchar (c : Byte) : (callPutchar c).outer.length ≤ 1 := by
  unfold callPutchar
  split <;> simp [Main.outer]

theorem outer_returnPutchar (outer : List Byte) :
    (returnPutchar outer).outer.length ≤ outer.length := by
  cases outer <;> simp [returnPutchar, Main.outer]

theorem Grows.of_putchar {point : Point} {c : Byte} {outer : List Byte}
    (hmain : s.main = .putchar point c outer) (h : stepPutchar point c outer s = .ok t) :
    Grows s t := by
  have houter : s.main.outer = outer := by rw [hmain]; rfl
  cases point with
  | poll =>
    cases h
    split
    · exact .refl s
    · exact .of_same rfl rfl (by rw [houter]; exact id)
  | disable | check =>
    cases h
    exact .of_same rfl rfl (by rw [houter]; exact id)
  | put txOngoing =>
    obtain ⟨txBuffer, -, hret⟩ := bind_ok.mp h
    cases hret
    refine .of_same rfl rfl ?_
    rw [houter]
    cases txOngoing <;> exact id
  | start =>
    obtain ⟨m, hm, hret⟩ := bind_ok.mp h
    cases hret
    have hgrows := Grows.of_start hm
    exact ⟨hgrows.written, hgrows.input, by rw [houter]; exact id⟩
  | enable =>
    cases h
    refine .of_same rfl rfl fun hle => ?_
    rw [houter] at hle
    exact Nat.le_trans (outer_returnPutchar outer) hle

theorem Grows.of_step {event : Event} (h : step event s = .ok t) : Grows s t := by
  cases event with
  | call c =>
    cases h
    split
    · exact ⟨List.prefix_rfl, List.prefix_append _ _, fun _ => outer_callPutchar c⟩
    · exact .refl s
  | main =>
    cases hmain : s.main with
    | idle =>
      rw [step, hmain] at h
      cases h
      exact .refl s
    | putchar point c outer =>
      rw [step, hmain] at h
      exact .of_putchar hmain h
  | interrupt =>
    rw [step] at h
    split at h
    · obtain ⟨txBuffer, hstart⟩ := isrUartTx_ok h
      have hgrows := Grows.of_start hstart
      exact ⟨hgrows.written, hgrows.input, hgrows.shallow⟩
    · cases h
      exact .refl s
  | raise =>
    cases h
    split
    · exact .of_same rfl rfl id
    · exact .refl s

theorem length_flatten (h : s.txBuffer.Wf bufferSize 1) :
    s.txBuffer.toList.flatten.length = s.txBuffer.toList.length := by
  have hone : s.txBuffer.toList.map List.length = List.replicate s.txBuffer.toList.length 1 := by
    rw [List.eq_replicate_iff]
    refine ⟨List.length_map _, fun len hlen => ?_⟩
    obtain ⟨x, hx, rfl⟩ := List.mem_map.mp hlen
    exact h.length_of_mem hx
  rw [List.length_flatten, hone]
  simp

theorem uartTxStart_length (h : s.txBuffer.Wf bufferSize 1)
    (hidle : s.raising + s.txIfg.toNat = 0) :
    ∃ written raising, uartTxStart s = .ok { s with written, raising } ∧
      written.length = s.written.length + raising ∧ raising ≤ 1 := by
  obtain ⟨written, raising, hstart, htext, hraised⟩ := uartTxStart_spec h hidle
  have hlength := congrArg List.length htext
  have hflat := length_flatten h
  have hifg : s.txIfg.toNat = 0 := by omega
  refine ⟨written, raising, hstart, ?_⟩
  cases hq : s.txBuffer.toList with
  | nil =>
    rw [hq] at hlength hraised
    simp [hifg] at hlength hraised
    omega
  | cons x q =>
    have hx := h.length_of_mem (hq ▸ List.mem_cons_self)
    rw [hq] at hlength hraised
    simp [hifg, hx] at hlength hraised
    omega

theorem Inv.raising_le (h : Inv s) : s.raising + s.txIfg.toNat ≤ 1 := by
  rw [h.transmitting]
  exact Bool.toNat_le _

theorem work_lt_of_distance {main : Main} {txIe : Bool} {input : List Byte}
    (h : main.distance < s.main.distance) :
    work n { s with main, txIe, input } < work n s :=
  Nat.add_lt_add_right (Nat.add_lt_add_left h _) _

theorem distance_callPutchar (c : Byte) : (callPutchar c).distance = 5 := by
  unfold callPutchar
  split <;> rfl

theorem distance_returnPutchar (outer : List Byte) : (returnPutchar outer).distance ≤ 6 := by
  cases outer <;> simp [returnPutchar, Main.distance]

theorem call_lowers (hidle : s.main = .idle) (c : Byte) (input : List Byte) :
    work n { s with main := callPutchar c, input } < work n s := by
  refine work_lt_of_distance ?_
  rw [distance_callPutchar, hidle]
  decide

theorem Inv.raise_lowers (h : Inv s) (hraising : 0 < s.raising) :
    work n { s with raising := s.raising - 1, txIfg := true } < work n s := by
  have hle := h.raising_le
  have hone : s.raising = 1 := by omega
  have hifg : s.txIfg.toNat = 0 := by omega
  simp only [work, unfinished, free, hone, hifg, Bool.toNat_true]
  omega

theorem Inv.interrupt_lowers (h : Inv s) (hifg : s.txIfg = true) (hie : s.txIe = true)
    (hleft : s.written.length < n) (hisr : isrUartTx s = .ok t) : work n t < work n s := by
  have hidle := h.raising_le
  rw [hifg, Bool.toNat_true] at hidle
  have hne := h.delivers.interruptNotEmpty hifg hie
  obtain ⟨x, q, hq⟩ : ∃ x q, s.txBuffer.toList = x :: q := by
    refine List.exists_cons_of_ne_nil fun hnil => ?_
    rw [h.wf.empty_iff.mpr hnil] at hne
    cases hne
  obtain ⟨txBuffer, hget, hwf, hlist, -⟩ := h.wf.get_spec (by decide) hq
  have hquiet : s.raising + false.toNat = 0 := by simpa using hidle
  obtain ⟨written, raising, hstart, hwritten, hraised⟩ :=
    @uartTxStart_length { s with txBuffer, txIfg := false } hwf hquiet
  have ht := hisr.symm.trans ((isrUartTx_eq hne hget).trans hstart)
  cases ht
  have hlen : s.txBuffer.toList.length = q.length + 1 := by rw [hq, List.length_cons]
  have hwritten' : written.length = s.written.length + raising := hwritten
  simp only [work, unfinished, free, hifg, hlist, hlen, hwritten', Bool.toNat_true,
    Bool.toNat_false]
  omega

theorem Inv.put_lowers {txOngoing : Bool} {c : Byte} {outer : List Byte} (h : Inv s)
    (hmain : s.main = .putchar (.put txOngoing) c outer)
    (hstep : stepPutchar (.put txOngoing) c outer s = .ok t) : work n t < work n s := by
  have hfull := h.delivers.putNotFull txOngoing c outer hmain
  have hdata : [c].length = 1 := rfl
  obtain ⟨txBuffer, hput, -, hlist⟩ := h.wf.put_of_not_full (by decide) hfull hdata
  obtain ⟨txBuffer', hput', hret⟩ := bind_ok.mp hstep
  cases hput.symm.trans hput'
  cases hret
  have hdistance : (Main.putchar (if txOngoing then .enable else .start) c outer).distance ≤ 9 := by
    cases txOngoing <;> simp
  have hlt : s.txBuffer.toList.length < bufferSize := by
    have hle := h.wf.length_le
    rw [← Bool.not_eq_true, h.wf.full_iff] at hfull
    omega
  have hlength : txBuffer.toList.length = s.txBuffer.toList.length + 1 := by
    rw [hlist, List.length_append, List.length_singleton]
  have hbefore : s.main.distance = 2 := by rw [hmain]; rfl
  rw [work, work, free, free, hbefore, hlength]
  simp only [unfinished]
  omega

theorem Inv.start_lowers {c : Byte} {outer : List Byte} (h : Inv s)
    (hmain : s.main = .putchar .start c outer) (hleft : s.written.length < n)
    (hstep : stepPutchar .start c outer s = .ok t) : work n t < work n s := by
  have hidle := h.transmitting
  rw [hmain] at hidle
  have hquiet : s.raising + s.txIfg.toNat = 0 := hidle
  obtain ⟨written, raising, hstart, hwritten, hraised⟩ := uartTxStart_length h.wf hquiet
  obtain ⟨m, hm, hret⟩ := bind_ok.mp hstep
  cases hstart.symm.trans hm
  cases hret
  simp only [work, unfinished, free, hmain, Main.distance, hwritten]
  omega

theorem Inv.main_lowers {point : Point} {c : Byte} {outer : List Byte} (h : Inv s)
    (hmain : s.main = .putchar point c outer) (hpoll : point = .poll → s.txBuffer.full = false)
    (hleft : s.written.length < n) (hstep : stepPutchar point c outer s = .ok t) :
    work n t < work n s := by
  cases point with
  | poll =>
    rw [stepPutchar, hpoll rfl] at hstep
    cases hstep
    refine work_lt_of_distance ?_
    simp [hmain]
  | disable | check =>
    cases hstep
    refine work_lt_of_distance ?_
    simp [hmain, uartTxDisableInterrupt]
  | put txOngoing => exact h.put_lowers hmain hstep
  | start => exact h.start_lowers hmain hleft hstep
  | enable =>
    cases hstep
    refine work_lt_of_distance ?_
    rw [show (uartTxEnableInterrupt s).main.distance = 7 by simp [hmain, uartTxEnableInterrupt]]
    exact Nat.lt_succ_of_le (distance_returnPutchar outer)

theorem Inv.step_lowers (h : Inv s) (hleft : s.written.length < n) {event : Event}
    (hstep : Uart.step event s = .ok t) : t = s ∨ work n t < work n s := by
  cases event with
  | call c =>
    cases hstep
    split
    case isTrue hidle => exact .inr (call_lowers hidle c _)
    case isFalse => exact .inl rfl
  | main =>
    cases hmain : s.main with
    | idle =>
      rw [Uart.step, hmain] at hstep
      cases hstep
      exact .inl rfl
    | putchar point c outer =>
      rw [Uart.step, hmain] at hstep
      by_cases hpoll : point = .poll → s.txBuffer.full = false
      case pos => exact .inr (h.main_lowers hmain hpoll hleft hstep)
      case neg =>
        simp only [Classical.not_imp, Bool.not_eq_false] at hpoll
        obtain ⟨rfl, hfull⟩ := hpoll
        change stepPutchar .poll c outer s = _ at hstep
        rw [stepPutchar, if_pos hfull] at hstep
        cases hstep
        exact .inl rfl
  | interrupt =>
    rw [Uart.step] at hstep
    split at hstep
    case isTrue htaken =>
      obtain ⟨hifg, hie⟩ := Bool.and_eq_true_iff.mp htaken
      exact .inr (h.interrupt_lowers hifg hie hleft hstep)
    case isFalse =>
      cases hstep
      exact .inl rfl
  | raise =>
    cases hstep
    split
    case isTrue hraising => exact .inr (h.raise_lowers hraising)
    case isFalse => exact .inl rfl

theorem Inv.transmission_helps (h : Inv s) (hleft : s.written.length < n)
    (hguarded : s.main.guarded = false)
    (hsending : s.main.transmitting s.txBuffer.toList = true) :
    ∃ event ∈ fairKinds, ∀ t, Uart.step event s = .ok t → work n t < work n s := by
  have hone := h.transmitting
  rw [hsending, Bool.toNat_true] at hone
  by_cases hraising : 0 < s.raising
  case pos =>
    refine ⟨.raise, by decide, fun t ht => ?_⟩
    rw [Uart.step, if_pos hraising] at ht
    cases ht
    exact h.raise_lowers hraising
  case neg =>
    have hifg : s.txIfg = true := by
      cases hifg : s.txIfg with
      | true => rfl
      | false =>
        rw [hifg, Bool.toNat_false] at hone
        omega
    have hie : s.txIe = true := by rw [h.enabled, hguarded]; rfl
    refine ⟨.interrupt, by decide, fun t ht => ?_⟩
    rw [Uart.step, hifg, hie] at ht
    exact h.interrupt_lowers hifg hie hleft ht

theorem Inv.unsent_of_idle (h : Inv s) (hidle : s.main = .idle)
    (hleft : s.written.length < (expand s.input).length) :
    s.main.transmitting s.txBuffer.toList = true := by
  have htext := h.text
  rw [hidle] at htext ⊢
  cases hq : s.txBuffer.toList with
  | cons x q => simp [Main.transmitting, Main.starting]
  | nil =>
    rw [← htext, hq] at hleft
    simp [Main.unsent] at hleft

theorem Inv.helps (h : Inv s) (hn : n ≤ (expand s.input).length) (hleft : s.written.length < n) :
    ∃ event ∈ fairKinds, ∀ t, Uart.step event s = .ok t → work n t < work n s := by
  cases hmain : s.main with
  | idle =>
    have hsending := h.unsent_of_idle hmain (Nat.lt_of_lt_of_le hleft hn)
    exact h.transmission_helps hleft (by rw [hmain]; rfl) hsending
  | putchar point c outer =>
    by_cases hpoll : point = .poll → s.txBuffer.full = false
    case pos =>
      refine ⟨.main, by decide, fun t ht => ?_⟩
      rw [Uart.step, hmain] at ht
      exact h.main_lowers hmain hpoll hleft ht
    case neg =>
      simp only [Classical.not_imp, Bool.not_eq_false] at hpoll
      obtain ⟨rfl, hfull⟩ := hpoll
      refine h.transmission_helps hleft (by rw [hmain]; rfl) ?_
      have hlen := h.wf.full_iff.mp hfull
      rw [hmain]
      cases hq : s.txBuffer.toList with
      | cons x q => simp [Main.transmitting, Main.starting]
      | nil =>
        rw [hq] at hlen
        cases hlen

theorem progress (text : List Byte) :
    Progress Uart.step fairKinds (fun s => Inv s ∧ text <+: s.input)
      (fun s => (expand text).length ≤ s.written.length) (work (expand text).length) where
  keep event s t h hstep := by
    obtain ⟨t', hstep', hinv⟩ := h.1.step event
    cases hstep.symm.trans hstep'
    exact ⟨hinv, h.2.trans (Grows.of_step hstep).input⟩
  stable event s t _ hstep hdone := Nat.le_trans hdone (Grows.of_step hstep).written.length_le
  lowers event s t h hdone hstep := h.1.step_lowers (Nat.lt_of_not_le hdone) hstep
  helps s h hdone := by
    refine h.1.helps ?_ (Nat.lt_of_not_le hdone)
    obtain ⟨rest, hrest⟩ := h.2
    rw [← hrest, expand, expand, List.flatMap_append, List.length_append]
    exact Nat.le_add_right _ _

theorem expand_mono {text text' : List Byte} (h : text <+: text') :
    expand text <+: expand text' := by
  obtain ⟨rest, rfl⟩ := h
  rw [expand, expand, List.flatMap_append]
  exact List.prefix_append _ _

theorem Inv.work_le (h : Inv s) (hshallow : s.main.outer.length ≤ 1) :
    work (expand s.input).length s ≤ 200 := by
  have htext := congrArg List.length h.text
  have hflat := length_flatten h.wf
  have hle := h.wf.length_le
  have hraising := h.raising_le
  have htodo : s.main.todo.length ≤ 2 := by
    cases hmain : s.main with
    | idle => decide
    | putchar point c outer =>
      rw [hmain] at hshallow
      have houter : outer.length ≤ 1 := hshallow
      cases point <;> simp <;> omega
  have hunsent : (s.main.unsent s.txBuffer.toList).length ≤ s.txBuffer.toList.length := by
    rw [← hflat, Main.unsent]
    split
    · exact Nat.le_refl _
    · cases s.txBuffer.toList <;> simp
  have hdistance : s.main.distance ≤ 9 := by
    cases s.main with
    | idle => decide
    | putchar point c outer => cases point <;> simp
  simp only [List.length_append] at htext
  simp only [work, unfinished, free, bufferSize] at hle ⊢
  omega

theorem shallow_run {events : List Event} (hrun : run Uart.step events uartInit = .ok s) :
    s.main.outer.length ≤ 1 := by
  have keep : ∀ event m m', m.main.outer.length ≤ 1 → Uart.step event m = .ok m' →
      m'.main.outer.length ≤ 1 := fun _ _ _ hm hstep => (Grows.of_step hstep).shallow hm
  have init : uartInit.main.outer.length ≤ 1 := Nat.zero_le 1
  exact run_invariant keep init hrun

/-- No call of `_putchar` starves: whatever has been passed is sent within 201 rounds of the main
program, the interrupt and the hardware, also while further calls keep the buffer full. -/
theorem sent_in_time (before : List Event) {rounds : List (List Event)}
    (hfair : ∀ round ∈ rounds, Progress.Fair fairKinds round) (hlen : 200 < rounds.length) :
    ∃ s t, run Uart.step before uartInit = .ok s ∧
      run Uart.step rounds.flatten s = .ok t ∧ expand s.input <+: t.written := by
  obtain ⟨s, hbefore, hs⟩ := inv_init.run before
  obtain ⟨t, hrun, ht⟩ := hs.run rounds.flatten
  have hwork := hs.work_le (shallow_run hbefore)
  have hI : Inv s ∧ s.input <+: s.input := ⟨hs, List.prefix_rfl⟩
  have hdone := (progress s.input).rounds hI hfair (Nat.lt_of_le_of_lt hwork hlen) hrun
  have hinput : s.input <+: t.input := by
    have keep : ∀ event m m', s.input <+: m.input → Uart.step event m = .ok m' →
        s.input <+: m'.input := fun _ _ _ hm hstep => hm.trans (Grows.of_step hstep).input
    exact run_invariant keep List.prefix_rfl hrun
  refine ⟨s, t, hbefore, hrun, ?_⟩
  exact List.prefix_of_prefix_length_le (expand_mono hinput) ht.delivers.inOrder hdone

theorem sent_in_time_busy :
    ∃ s t, run Uart.step [.call 65] uartInit = .ok s ∧
      run Uart.step (List.replicate 201 [.call 66, .raise, .interrupt, .main]).flatten s = .ok t ∧
      expand s.input <+: t.written := by
  refine sent_in_time [.call 65] (fun round hround => ?_) ?_
  · rw [List.eq_of_mem_replicate hround]
    decide
  · rw [List.length_replicate]
    decide

end

end Nsumo.Drivers.Uart
