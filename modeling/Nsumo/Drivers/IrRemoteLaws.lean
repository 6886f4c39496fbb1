import Nsumo.Common.RingBufferLaws
import Nsumo.Drivers.IrRemote
import Nsumo.Lib.Bits
import Nsumo.Lib.Run

namespace Nsumo.Drivers.IrRemote

open Common Lib Lib.Bits

theorem isValidPulse_late {pulse ms : Nat} (h : 110 ≤ ms) : isValidPulse pulse ms = false := by
  unfold isValidPulse
  split_ifs <;> simp <;> omega

theorem isValidPulse_bit {pulse ms : Nat} (hp : isBitPulse pulse = true) (h : ms < 5) :
    isValidPulse pulse ms = true := by
  simp only [isBitPulse, Bool.and_eq_true, decide_eq_true_eq] at hp
  unfold isValidPulse
  split_ifs <;> simp <;> omega

theorem isrPulse_spec (ir : IrRemote) :
    ∃ ir', ir.isrPulse = .ok ir' ∧ ir'.pulseCount = ir.irTimerStop.decodePulse.pulseCount ∧
      ir'.irMessage = ir.irTimerStop.decodePulse.irMessage ∧ ir'.timerMs = 0 ∧
      ir'.timerRunning = true ∧
      ir'.enqueued = ir.enqueued ++
        (if isMessagePulse ir'.pulseCount then [decodedCmd ir'.irMessage] else []) := by
  have henq : ir.irTimerStop.decodePulse.enqueued = ir.enqueued := by
    unfold decodePulse
    dsimp only
    split_ifs <;> rfl
  unfold isrPulse
  dsimp only
  cases hm : isMessagePulse ir.irTimerStop.decodePulse.pulseCount with
  | false => exact ⟨_, rfl, rfl, rfl, rfl, rfl, by simp [irTimerStart, hm, henq]⟩
  | true =>
    obtain ⟨buf, hbuf⟩ := RingBuffer.put_ok ir.irTimerStop.decodePulse.irCmdBuffer
      [decodedCmd ir.irTimerStop.decodePulse.irMessage]
    simp only [hbuf, bind, Except.bind, pure, Except.pure, if_true]
    exact ⟨_, rfl, rfl, rfl, rfl, rfl, by simp [irTimerStart, hm, henq]⟩

theorem run_timer {ir : IrRemote} {n : Nat} (h : ir.timerMs + n ≤ 150) :
    Run.run handle (List.replicate n .timer) ir = .ok { ir with timerMs := ir.timerMs + n } := by
  induction n generalizing ir with
  | zero => rfl
  | succ n ih =>
    have hlt : ir.timerMs < 150 := by omega
    have hstep : handle .timer ir = .ok { ir with timerMs := ir.timerMs + 1 } := by
      simp [handle, isrTimerA0, hlt]
    rw [List.replicate_succ, Run.run_cons, hstep]
    refine (ih (by simpa using (by omega : ir.timerMs + 1 + n ≤ 150))).trans ?_
    simp [Nat.add_assoc, Nat.add_comm 1 n]

def pulseAfter (ticks : Nat) : List Irq := List.replicate ticks .timer ++ [.pulse]

theorem run_pulseAfter {ir : IrRemote} {ticks : Nat} (h0 : ir.timerMs = 0) (h : ticks ≤ 150) :
    Run.run handle (pulseAfter ticks) ir = { ir with timerMs := ticks }.isrPulse := by
  rw [pulseAfter, Run.run_append, run_timer (by omega), h0, Nat.zero_add]
  cases hp : isrPulse { ir with timerMs := ticks } <;>
    simp [Except.bind, Run.run_cons, handle, hp]

def sincePulse (history : List Irq) : Nat := (history.reverse.takeWhile (· == .timer)).length

/-- Between messages the decoder is empty; otherwise its counter knows the time since the pulse. -/
def Synced (history : List Irq) (ir : IrRemote) : Prop :=
  (ir.pulseCount = 0 ∧ ir.irMessage = 0) ∨
    (ir.timerRunning = true ∧ ir.timerMs = sincePulse history)

theorem synced_step {history : List Irq} {irq : Irq} {ir ir' : IrRemote}
    (h : Synced history ir) (hs : handle irq ir = .ok ir') : Synced (history ++ [irq]) ir' := by
  cases irq with
  | pulse =>
    obtain ⟨ir₁, hok, -, -, hms, hrun, -⟩ := isrPulse_spec ir
    rw [handle, hok, Except.ok.injEq] at hs
    subst hs
    exact .inr ⟨hrun, by simp [hms, sincePulse]⟩
  | timer =>
    rw [handle, Except.ok.injEq] at hs
    subst hs
    unfold isrTimerA0
    split_ifs with hlt
    · refine h.imp id ?_
      rintro ⟨hrun, hms⟩
      exact ⟨hrun, by simp [hms, sincePulse]⟩
    · exact .inl ⟨rfl, rfl⟩

theorem synced_run {history : List Irq} {ir : IrRemote}
    (h : Run.run handle history init = .ok ir) : Synced history ir := by
  induction history using List.reverseRecOn generalizing ir with
  | nil =>
    cases h
    exact .inl ⟨rfl, rfl⟩
  | append_singleton history irq ih =>
    obtain ⟨m, hm, hstep⟩ := Run.run_append_ok.mp h
    obtain ⟨ir', hir, hnil⟩ := Run.run_cons_ok.mp hstep
    cases hnil
    exact synced_step (ih hm) hir

structure Receiving (n : Nat) (word : BitVec 32) (ir : IrRemote) : Prop where
  count : ir.pulseCount = n
  word : ir.irMessage = word
  fresh : ir.timerMs = 0

theorem start_pulse {history : List Irq} {ir : IrRemote} (h : Synced history ir)
    (hquiet : ir.timerRunning = false ∨ 110 ≤ sincePulse history) :
    ∃ ir', ir.isrPulse = .ok ir' ∧ Receiving 1 0 ir' ∧ ir'.enqueued = ir.enqueued := by
  have hdecode : ir.irTimerStop.decodePulse.pulseCount = 1 ∧
      ir.irTimerStop.decodePulse.irMessage = 0 := by
    rcases h with ⟨hcount, hraw⟩ | ⟨hrun, hms⟩
    · simp only [decodePulse, irTimerStop, hcount, hraw, isBitPulse]
      split_ifs <;> simp_all
    · have hlate : 110 ≤ ir.timerMs := by
        rw [hms]
        exact hquiet.resolve_left (by simp [hrun])
      simp [decodePulse, irTimerStop, isValidPulse_late hlate]
  obtain ⟨ir', hok, hcount, hraw, hms, -, henq⟩ := isrPulse_spec ir
  rw [hdecode.1] at hcount
  refine ⟨ir', hok, ⟨hcount, hraw.trans hdecode.2, hms⟩, ?_⟩
  simp [henq, hcount, isMessagePulse]

theorem lead_pulse {ir : IrRemote} (h : Receiving 1 0 ir) {lead : Nat} (hlead : lead < 10) :
    ∃ ir', Run.run handle (pulseAfter lead) ir = .ok ir' ∧ Receiving 2 0 ir' ∧
      ir'.enqueued = ir.enqueued := by
  rw [run_pulseAfter h.fresh (by omega)]
  obtain ⟨ir', hok, hcount, hraw, hms, -, henq⟩ := isrPulse_spec { ir with timerMs := lead }
  simp [decodePulse, irTimerStop, h.count, h.word, isValidPulse, hlead, isBitPulse] at hcount hraw
  exact ⟨ir', hok, ⟨hcount, hraw, hms⟩, by simp [henq, hcount, isMessagePulse]⟩

theorem bit_pulse {ir : IrRemote} {k : Nat} {word : BitVec 32} (h : Receiving (2 + k) word ir)
    (hk : k < 32) {gap : Nat} (hgap : gap < 5) :
    ∃ ir', Run.run handle (pulseAfter gap) ir = .ok ir' ∧
      Receiving (3 + k) (shiftBit word (2 ≤ gap)) ir' ∧
      ir'.enqueued = ir.enqueued ++
        (if k = 31 then [decodedCmd (shiftBit word (2 ≤ gap))] else []) := by
  have hmod : (2 + k + 1) % 65536 = 3 + k := by omega
  have hbit : isBitPulse (3 + k) = true := by
    simp [isBitPulse]
    omega
  rw [run_pulseAfter h.fresh (by omega)]
  obtain ⟨ir', hok, hcount, hraw, hms, -, henq⟩ := isrPulse_spec { ir with timerMs := gap }
  simp only [decodePulse, irTimerStop, h.count, h.word, hmod, hbit, isValidPulse_bit hbit hgap,
    Bool.not_true, Bool.false_eq_true, if_false, if_true] at hcount hraw
  have hword : ir'.irMessage = shiftBit word (2 ≤ gap) := by
    rw [hraw, shiftBit]
    simp
  refine ⟨ir', hok, ⟨hcount, hword, hms⟩, ?_⟩
  have hmsg : isMessagePulse (3 + k) = decide (k = 31) := by
    rw [Bool.eq_iff_iff]
    simp [isMessagePulse]
    omega
  rw [henq, hcount, hmsg, hword]
  simp

def bitPulses (gap : Nat → Nat) (n : Nat) : List Irq :=
  (List.range n).flatMap fun k => pulseAfter (gap k)

theorem bits_run {ir : IrRemote} (h : Receiving 2 0 ir) {gap : Nat → Nat} {w : BitVec 32}
    (hgap : ∀ k < 32, gap k < 5) (hbit : ∀ k < 32, (2 ≤ gap k ↔ w.getMsbD k = true)) {n : Nat}
    (hn : n ≤ 32) :
    ∃ ir', Run.run handle (bitPulses gap n) ir = .ok ir' ∧
      Receiving (2 + n) (shiftIn ((List.range n).map w.getMsbD) 0) ir' ∧
      ir'.enqueued = ir.enqueued ++ (if n = 32 then [decodedCmd w] else []) := by
  induction n with
  | zero => exact ⟨ir, rfl, h, by simp⟩
  | succ n ih =>
    obtain ⟨m, hm, hrec, henq⟩ := ih (Nat.le_of_succ_le hn)
    obtain ⟨ir', hir, hrec', henq'⟩ := bit_pulse hrec hn (hgap n hn)
    have hshift : shiftBit (shiftIn ((List.range n).map w.getMsbD) 0) (2 ≤ gap n) =
        (shiftIn ((List.range (n + 1)).map w.getMsbD) 0 : BitVec 32) := by
      have hb : decide (2 ≤ gap n) = w.getMsbD n := by
        rw [Bool.eq_iff_iff, decide_eq_true_eq]
        exact hbit n hn
      rw [List.range_succ, List.map_append, shiftIn_append, hb]
      rfl
    rw [hshift] at hrec' henq'
    refine ⟨ir', ?_, by simpa [Nat.add_comm, Nat.add_left_comm] using hrec', ?_⟩
    · rw [bitPulses, List.range_succ, List.flatMap_append, List.flatMap_singleton]
      exact Run.run_append_ok.mpr ⟨m, hm, hir⟩
    · by_cases hlast : n = 31
      · subst hlast
        have hw : shiftIn ((List.range 32).map w.getMsbD) 0 = w := shiftIn_msbFirst w
        rw [henq', henq, if_neg (by decide), if_pos rfl, if_pos rfl, hw, List.append_nil]
      · rw [henq', henq, if_neg (by omega), if_neg hlast, if_neg (by omega), List.append_nil]

theorem message_run {history : List Irq} {ir : IrRemote} (h : Synced history ir)
    (hquiet : ir.timerRunning = false ∨ 110 ≤ sincePulse history) {lead : Nat} (hlead : lead < 10)
    {gap : Nat → Nat} {w : BitVec 32} (hgap : ∀ k < 32, gap k < 5)
    (hbit : ∀ k < 32, (2 ≤ gap k ↔ w.getMsbD k = true)) {n : Nat} (hn : n ≤ 32) :
    ∃ ir', Run.run handle (.pulse :: (pulseAfter lead ++ bitPulses gap n)) ir = .ok ir' ∧
      ir'.enqueued = ir.enqueued ++ (if n = 32 then [decodedCmd w] else []) := by
  obtain ⟨ir₁, h₁, hrec₁, henq₁⟩ := start_pulse h hquiet
  obtain ⟨ir₂, h₂, hrec₂, henq₂⟩ := lead_pulse hrec₁ hlead
  obtain ⟨ir', h', -, henq'⟩ := bits_run hrec₂ hgap hbit hn
  refine ⟨ir', ?_, ?_⟩
  · exact Run.run_cons_ok.mpr ⟨ir₁, h₁, Run.run_append_ok.mpr ⟨ir₂, h₂, h'⟩⟩
  · rw [henq', henq₂, henq₁]

end Nsumo.Drivers.IrRemote
