import Nsumo.Drivers.IrRemoteLaws

namespace Nsumo.Drivers.IrRemote

open Common Lib

def waiting (ir : IrRemote) : List IrCmd := ir.irCmdBuffer.toList.map (·.headD IrCmd.none)

def BufferWf (ir : IrRemote) : Prop := ir.irCmdBuffer.Wf 10 1

theorem init_bufferWf : BufferWf init := RingBuffer.ofSize_wf (by decide)

theorem waiting_init : waiting init = [] := by simp [waiting, init]

def withBuffer (ir : IrRemote) (irCmdBuffer : RingBuffer) : IrRemote := { ir with irCmdBuffer }

section

variable {ir ir' : IrRemote} {irq : Irq}

theorem decodePulse_withBuffer (ir : IrRemote) (rb : RingBuffer) :
    decodePulse (ir.withBuffer rb) = ir.decodePulse.withBuffer rb := by
  unfold decodePulse withBuffer
  dsimp only
  split_ifs <;> rfl

theorem decodePulse_frame (ir : IrRemote) :
    ir.decodePulse.irCmdBuffer = ir.irCmdBuffer ∧ ir.decodePulse.enqueued = ir.enqueued := by
  unfold decodePulse
  dsimp only
  split_ifs <;> exact ⟨rfl, rfl⟩

def pulseCommand (ir : IrRemote) : Option IrCmd :=
  let ir := ir.irTimerStop.decodePulse
  if isMessagePulse ir.pulseCount then some (decodedCmd ir.irMessage) else none

theorem isrPulse_none (h : ir.pulseCommand = none) :
    ir.isrPulse = .ok ir.irTimerStop.decodePulse.irTimerStart := by
  have hpulse : isMessagePulse ir.irTimerStop.decodePulse.pulseCount = false := by
    by_contra hpulse
    simp [pulseCommand, hpulse] at h
  simp [isrPulse, hpulse]

theorem isrPulse_some {cmd : IrCmd} (h : ir.pulseCommand = some cmd) :
    ∃ rb, ir.irCmdBuffer.put [cmd] = .ok rb ∧
      ir.isrPulse = .ok { ir.irTimerStop.decodePulse.irTimerStart with
        irCmdBuffer := rb
        enqueued := ir.enqueued ++ [cmd] } := by
  have hpulse : isMessagePulse ir.irTimerStop.decodePulse.pulseCount = true := by
    by_contra hpulse
    simp [pulseCommand, hpulse] at h
  have hcmd : decodedCmd ir.irTimerStop.decodePulse.irMessage = cmd := by
    simpa [pulseCommand, hpulse] using h
  obtain ⟨hbuffer, henqueued⟩ := decodePulse_frame ir.irTimerStop
  obtain ⟨rb, hput⟩ := RingBuffer.put_ok ir.irCmdBuffer [cmd]
  refine ⟨rb, hput, ?_⟩
  have hput' : ir.irTimerStop.decodePulse.irCmdBuffer.put [cmd] = .ok rb := by rwa [hbuffer]
  rw [isrPulse]
  simp only [hpulse, if_true, hcmd, hput', henqueued]
  rfl

theorem waiting_put (h : BufferWf ir) {cmd : IrCmd} {rb : RingBuffer}
    (hput : ir.irCmdBuffer.put [cmd] = .ok rb) :
    rb.Wf 10 1 ∧ (ir.withBuffer rb).waiting = Fifo.push 10 ir.waiting cmd := by
  obtain ⟨rb', hput', hwf, hlist⟩ := h.put_spec (by decide) (List.length_singleton (a := cmd))
  cases hput.symm.trans hput'
  refine ⟨hwf, ?_⟩
  rw [waiting, withBuffer, hlist, ← Fifo.push_map]
  rfl

theorem handle_spec (h : BufferWf ir) (irq : Irq) :
    ∃ ir', handle irq ir = .ok ir' ∧ BufferWf ir' ∧ ∃ put : Option IrCmd,
      (put ≠ none → irq = .pulse) ∧ ir'.enqueued = ir.enqueued ++ put.toList ∧
      ir'.waiting = put.elim ir.waiting (Fifo.push 10 ir.waiting) := by
  cases irq with
  | timer =>
    have hframe : ir.isrTimerA0.irCmdBuffer = ir.irCmdBuffer ∧
        ir.isrTimerA0.enqueued = ir.enqueued := by
      unfold isrTimerA0
      split_ifs <;> exact ⟨rfl, rfl⟩
    refine ⟨_, rfl, ?_, none, nofun, ?_, ?_⟩
    · rwa [BufferWf, hframe.1]
    · rw [hframe.2]
      exact (List.append_nil _).symm
    · rw [waiting, hframe.1]
      rfl
  | pulse =>
    obtain ⟨hbuffer, henqueued⟩ := decodePulse_frame ir.irTimerStop
    cases hcmd : ir.pulseCommand with
    | none =>
      refine ⟨_, isrPulse_none hcmd, ?_, none, nofun, ?_, ?_⟩
      · change ir.irTimerStop.decodePulse.irCmdBuffer.Wf 10 1
        rwa [hbuffer]
      · exact henqueued.trans (List.append_nil _).symm
      · exact congrArg (fun rb : RingBuffer => rb.toList.map _) hbuffer
    | some cmd =>
      obtain ⟨rb, hput, hpulse⟩ := isrPulse_some hcmd
      obtain ⟨hwf, hwaiting⟩ := waiting_put h hput
      exact ⟨_, hpulse, hwf, some cmd, fun _ => rfl, rfl, hwaiting⟩

theorem handle_withBuffer (h : handle irq ir = .ok ir') (rb : RingBuffer) :
    ∃ rb', handle irq (ir.withBuffer rb) = .ok (ir'.withBuffer rb') := by
  cases irq with
  | timer =>
    cases h
    refine ⟨rb, congrArg Except.ok ?_⟩
    unfold isrTimerA0 withBuffer
    dsimp only
    split_ifs <;> rfl
  | pulse =>
    have hstop : (ir.withBuffer rb).irTimerStop.decodePulse =
        ir.irTimerStop.decodePulse.withBuffer rb := decodePulse_withBuffer ir.irTimerStop rb
    have hsame : (ir.withBuffer rb).pulseCommand = ir.pulseCommand := by
      rw [pulseCommand, hstop]
      rfl
    cases hcmd : ir.pulseCommand with
    | none =>
      cases (isrPulse_none hcmd).symm.trans h
      refine ⟨rb, (isrPulse_none (hsame.trans hcmd)).trans ?_⟩
      rw [hstop]
      rfl
    | some cmd =>
      obtain ⟨_, -, hpulse⟩ := isrPulse_some hcmd
      cases hpulse.symm.trans h
      obtain ⟨rb', -, hpulse'⟩ := isrPulse_some (hsame.trans hcmd)
      refine ⟨rb', hpulse'.trans ?_⟩
      rw [hstop]
      rfl

theorem getCmd_spec (h : BufferWf ir) :
    ∃ cmd rb, ir.irRemoteGetCmd = .ok (cmd, ir.withBuffer rb) ∧ rb.Wf 10 1 ∧
      (ir.waiting = [] ∧ cmd = IrCmd.none ∧ (ir.withBuffer rb).waiting = [] ∨
        ir.waiting = cmd :: (ir.withBuffer rb).waiting) := by
  cases hq : ir.irCmdBuffer.toList with
  | nil =>
    have hempty : ir.irCmdBuffer.empty = true := h.empty_iff.mpr hq
    have hwaiting : ir.waiting = [] := by rw [waiting, hq]; rfl
    refine ⟨IrCmd.none, ir.irCmdBuffer, ?_, h, .inl ⟨hwaiting, rfl, hwaiting⟩⟩
    rw [irRemoteGetCmd, hempty]
    rfl
  | cons x q =>
    have hempty : ir.irCmdBuffer.empty = false := by
      rw [← Bool.not_eq_true, h.empty_iff, hq]
      exact List.cons_ne_nil x q
    obtain ⟨rb, hget, hwf, hlist, -⟩ := h.get_spec (by decide) hq
    refine ⟨x.headD IrCmd.none, rb, ?_, hwf, .inr ?_⟩
    · rw [irRemoteGetCmd, hempty, hget]
      rfl
    · rw [waiting, waiting, hq, withBuffer, hlist]
      rfl

end

end Nsumo.Drivers.IrRemote
