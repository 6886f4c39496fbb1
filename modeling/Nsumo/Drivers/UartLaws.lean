import Nsumo.Common.RingBufferLaws
import Nsumo.Drivers.Uart

namespace Nsumo.Drivers.Uart

open Common Lib Lib.Run

def expand (text : List Byte) : List Byte :=
  text.flatMap fun c => if c = lineFeed then [carriageReturn, lineFeed] else [c]

@[simp] def Main.todo : Main → List Byte
  | .idle => []
  | .putchar .start _ outer | .putchar .enable _ outer => outer
  | .putchar _ c outer => c :: outer

def Main.starting : Main → Bool
  | .putchar .start _ _ => true
  | _ => false

def Main.guarded : Main → Bool
  | .putchar .check _ _ | .putchar (.put _) _ _ | .putchar .start _ _
  | .putchar .enable _ _ => true
  | _ => false

def Main.unsent (main : Main) (q : List (List Byte)) : List Byte :=
  (if main.starting then q else q.tail).flatten

def Main.transmitting (main : Main) (q : List (List Byte)) : Bool := !main.starting && q ≠ []

/-- What a call has established on its way to the named statement, `q` being the buffer. -/
def Main.Established (q : List (List Byte)) : Main → Prop
  | .putchar .disable _ _ | .putchar .check _ _ => q.length < bufferSize
  | .putchar (.put txOngoing) _ _ => q.length < bufferSize ∧ txOngoing = decide (q ≠ [])
  | .putchar .start _ _ => q.length = 1
  | _ => True

structure Inv (s : Uart) : Prop where
  wf : s.txBuffer.Wf bufferSize 1
  text : s.written ++ s.main.unsent s.txBuffer.toList ++ s.main.todo = expand s.input
  transmitting : s.raising + s.txIfg.toNat = (s.main.transmitting s.txBuffer.toList).toNat
  enabled : s.txIe = !s.main.guarded
  established : s.main.Established s.txBuffer.toList

theorem Inv.of_list {s : Uart} {q : List (List Byte)} (hq : s.txBuffer.toList = q)
    (wf : s.txBuffer.Wf bufferSize 1)
    (text : s.written ++ s.main.unsent q ++ s.main.todo = expand s.input)
    (transmitting : s.raising + s.txIfg.toNat = (s.main.transmitting q).toNat)
    (enabled : s.txIe = !s.main.guarded) (established : s.main.Established q) : Inv s := by
  subst hq
  exact ⟨wf, text, transmitting, enabled, established⟩

theorem inv_init : Inv uartInit where
  wf := RingBuffer.ofSize_wf (by decide)
  text := rfl
  transmitting := rfl
  enabled := rfl
  established := trivial

theorem expand_concat (text : List Byte) (c : Byte) :
    expand (text ++ [c]) = expand text ++ (callPutchar c).todo := by
  unfold callPutchar
  split
  case isTrue hc => simp [expand, hc]
  case isFalse hc =>
    have hc' : ¬c = 10#8 := hc
    simp [expand, hc']

def Main.Waits (main : Main) : Prop := main = .idle ∨ ∃ c outer, main = .putchar .poll c outer

theorem callPutchar_waits (c : Byte) : (callPutchar c).Waits := by
  unfold callPutchar
  split <;> exact .inr ⟨_, _, rfl⟩

theorem returnPutchar_waits (outer : List Byte) : (returnPutchar outer).Waits := by
  cases outer with
  | nil => exact .inl rfl
  | cons c outer => exact .inr ⟨c, outer, rfl⟩

theorem todo_returnPutchar (outer : List Byte) : (returnPutchar outer).todo = outer := by
  cases outer <;> rfl

section

variable {s s' : Uart}

theorem Inv.waits (h : Inv s) (hs : s.main.starting = false) {main : Main} (hmain : main.Waits)
    {input : List Byte}
    (htext : s.written ++ s.txBuffer.toList.tail.flatten ++ main.todo = expand input) :
    Inv { s with main, txIe := true, input } := by
  have htransmitting := h.transmitting
  rw [Main.transmitting, hs] at htransmitting
  obtain rfl | ⟨c, outer, rfl⟩ := hmain
  · exact ⟨h.wf, htext, htransmitting, rfl, trivial⟩
  · exact ⟨h.wf, htext, htransmitting, rfl, trivial⟩

theorem uartTxStart_spec (h : s.txBuffer.Wf bufferSize 1)
    (hidle : s.raising + s.txIfg.toNat = 0) :
    ∃ written raising, uartTxStart s = .ok { s with written, raising } ∧
      written ++ s.txBuffer.toList.tail.flatten = s.written ++ s.txBuffer.toList.flatten ∧
      raising + s.txIfg.toNat = (decide (s.txBuffer.toList ≠ [])).toNat := by
  cases hq : s.txBuffer.toList with
  | nil =>
    refine ⟨s.written, s.raising, ?_, by simp, by simpa using hidle⟩
    rw [uartTxStart, if_pos (h.empty_iff.mpr hq)]
  | cons x q =>
    obtain ⟨c, rfl⟩ := List.length_eq_one_iff.mp (h.length_of_mem (hq ▸ List.mem_cons_self))
    refine ⟨s.written ++ [c], s.raising + 1, ?_, by simp, by simp; omega⟩
    rw [uartTxStart, if_neg (by simp [h.empty_iff, hq]), h.peekTail_spec hq]
    rfl

theorem isrUartTx_eq {x : List Byte} {txBuffer : RingBuffer} (hne : s.txBuffer.empty = false)
    (hget : s.txBuffer.get = .ok (x, txBuffer)) :
    isrUartTx s = uartTxStart { s with txBuffer, txIfg := false } := by
  rw [isrUartTx, hne]
  change (s.txBuffer.get >>= _) = _
  rw [hget]
  change (if txBuffer.empty = true then Except.ok _ else _) = _
  by_cases hempty : txBuffer.empty = true
  case pos => rw [if_pos hempty, uartTxStart, if_pos hempty]; rfl
  case neg => rw [if_neg hempty]; rfl

theorem Inv.text_of_not_starting (h : Inv s) (hs : s.main.starting = false) :
    s.written ++ s.txBuffer.toList.tail.flatten ++ s.main.todo = expand s.input := by
  have htext := h.text
  rwa [Main.unsent, hs] at htext

theorem Inv.call (h : Inv s) (c : Byte) : ∃ s', step (.call c) s = .ok s' ∧ Inv s' := by
  refine ⟨_, rfl, ?_⟩
  split
  case isFalse => exact h
  case isTrue hidle =>
    have hs : s.main.starting = false := by rw [hidle]; rfl
    have htext := h.text_of_not_starting hs
    rw [hidle, Main.todo, List.append_nil] at htext
    have hie : s.txIe = true := by rw [h.enabled, hidle]; rfl
    have hinv := h.waits hs (callPutchar_waits c) (by rw [htext, ← expand_concat])
    rwa [← hie] at hinv

theorem Inv.raise (h : Inv s) : ∃ s', step .raise s = .ok s' ∧ Inv s' := by
  refine ⟨_, rfl, ?_⟩
  split
  case isFalse => exact h
  case isTrue hraising =>
    have hle := Bool.toNat_le (s.main.transmitting s.txBuffer.toList)
    refine ⟨h.wf, h.text, ?_, h.enabled, h.established⟩
    rw [← h.transmitting] at hle ⊢
    simp only [Bool.toNat_true]
    omega

theorem Main.starting_of_guarded {main : Main} (h : main.guarded = false) :
    main.starting = false := by
  cases main with
  | idle => rfl
  | putchar point => cases point <;> simp [Main.guarded, Main.starting] at h ⊢

theorem Main.established_of_le {main : Main} {q q' : List (List Byte)}
    (h : main.guarded = false) (hle : q'.length ≤ q.length) (he : main.Established q) :
    main.Established q' := by
  cases main with
  | idle => trivial
  | putchar point =>
    cases point with
    | poll => trivial
    | disable => exact Nat.lt_of_le_of_lt hle he
    | check | put | start | enable => cases h

theorem Inv.interrupt (h : Inv s) : ∃ s', step .interrupt s = .ok s' ∧ Inv s' := by
  by_cases htaken : s.txIfg && s.txIe
  case neg => exact ⟨s, if_neg htaken, h⟩
  case pos =>
    rw [show step .interrupt s = isrUartTx s from if_pos htaken]
    obtain ⟨hifg, hie⟩ := Bool.and_eq_true_iff.mp htaken
    have hguarded : s.main.guarded = false := by simpa [hie] using h.enabled
    have hs := Main.starting_of_guarded hguarded
    have hraising := h.transmitting
    have htext := h.text_of_not_starting hs
    rw [Main.transmitting, hs, hifg] at hraising
    cases hq : s.txBuffer.toList with
    | nil => simp [hq] at hraising
    | cons x q =>
      have hne : s.txBuffer.empty = false := by
        rw [← Bool.not_eq_true, h.wf.empty_iff, hq]
        simp
      obtain ⟨txBuffer, hget, hwf, rfl, -⟩ := h.wf.get_spec (by decide) hq
      have hidle : s.raising + false.toNat = 0 := by simpa [hq] using hraising
      obtain ⟨written, raising, hstart, hwritten, hraised⟩ :=
        @uartTxStart_spec { s with txBuffer, txIfg := false } hwf hidle
      rw [hq, List.tail_cons] at htext
      refine ⟨_, (isrUartTx_eq hne hget).trans hstart, hwf, ?_, ?_, h.enabled, ?_⟩
      · rw [Main.unsent, hs]
        exact (congrArg (· ++ _) hwritten).trans htext
      · rw [Main.transmitting, hs]
        simpa using hraised
      · exact Main.established_of_le hguarded (by simp [hq]) h.established

theorem Inv.put {txOngoing : Bool} {c : Byte} {outer : List Byte} (h : Inv s)
    (hmain : s.main = .putchar (.put txOngoing) c outer) :
    ∃ s', stepPutchar (.put txOngoing) c outer s = .ok s' ∧ Inv s' := by
  obtain ⟨hwf, htext, htransmitting, henabled, hestablished⟩ := h
  rw [hmain] at htext htransmitting henabled hestablished
  obtain ⟨hlt, rfl⟩ := hestablished
  have hfull : s.txBuffer.full = false := by
    rw [← Bool.not_eq_true, hwf.full_iff]
    omega
  have hdata : [c].length = 1 := rfl
  obtain ⟨txBuffer, hput, hwf', hlist⟩ := hwf.put_of_not_full (by decide) hfull hdata
  cases hq : s.txBuffer.toList with
  | nil =>
    rw [hq] at htext htransmitting hlist
    refine ⟨{ s with txBuffer, main := .putchar .start c outer }, ?_,
      .of_list hlist hwf' ?_ htransmitting henabled rfl⟩
    · simp [stepPutchar, hput]
    · simpa [Main.unsent, Main.starting, Main.todo] using htext
  | cons x q =>
    rw [hq] at htext htransmitting hlist
    refine ⟨{ s with txBuffer, main := .putchar .enable c outer }, ?_,
      .of_list hlist hwf' ?_ htransmitting henabled trivial⟩
    · simp [stepPutchar, hput]
    · simpa [Main.unsent, Main.starting, Main.todo] using htext

theorem Inv.putchar (h : Inv s) : ∃ s', step .main s = .ok s' ∧ Inv s' := by
  obtain ⟨hwf, htext, htransmitting, henabled, hestablished⟩ := id h
  cases hmain : s.main with
  | idle => exact ⟨s, by rw [step, hmain], h⟩
  | putchar point c outer =>
    rw [show step .main s = stepPutchar point c outer s by rw [step, hmain]]
    rw [hmain] at htext htransmitting henabled hestablished
    cases point with
    | poll =>
      refine ⟨_, rfl, ?_⟩
      split
      case isTrue => exact h
      case isFalse hfull =>
        have hlt : s.txBuffer.toList.length < bufferSize := by
          have hle := hwf.length_le
          rw [hwf.full_iff] at hfull
          omega
        exact ⟨hwf, htext, htransmitting, henabled, hlt⟩
    | disable => exact ⟨_, rfl, hwf, htext, htransmitting, rfl, hestablished⟩
    | check =>
      refine ⟨_, rfl, hwf, htext, htransmitting, henabled, hestablished, ?_⟩
      have hempty : s.txBuffer.empty = decide (s.txBuffer.toList = []) := by
        rw [Bool.eq_iff_iff, decide_eq_true_iff]
        exact hwf.empty_iff
      simp [hempty]
    | put txOngoing => exact h.put hmain
    | start =>
      have hidle : s.raising + s.txIfg.toNat = 0 := htransmitting
      obtain ⟨written, raising, hstart, hwritten, hraised⟩ := uartTxStart_spec hwf hidle
      refine ⟨{ s with written, raising, main := .putchar .enable c outer },
        congrArg (· >>= _) hstart, hwf, ?_, hraised, henabled, trivial⟩
      exact (congrArg (· ++ _) hwritten).trans htext
    | enable =>
      refine ⟨_, rfl, ?_⟩
      exact h.waits (by rw [hmain]; rfl) (returnPutchar_waits outer)
        (by rw [todo_returnPutchar]; exact htext)

theorem Inv.step (h : Inv s) (event : Event) : ∃ s', step event s = .ok s' ∧ Inv s' := by
  cases event with
  | call c => exact h.call c
  | main => exact h.putchar
  | interrupt => exact h.interrupt
  | raise => exact h.raise

theorem Inv.run (h : Inv s) (events : List Event) :
    ∃ s', Run.run Uart.step events s = .ok s' ∧ Inv s' := by
  induction events generalizing s with
  | nil => exact ⟨s, rfl, h⟩
  | cons event events ih =>
    obtain ⟨m, hm, hinv⟩ := h.step event
    obtain ⟨s', hs', hinv'⟩ := ih hinv
    exact ⟨s', run_cons_ok.mpr ⟨m, hm, hs'⟩, hinv'⟩

structure Delivers (s : Uart) : Prop where
  inOrder : s.written <+: expand s.input
  complete : s.main = .idle → s.txBuffer.empty = true → s.written = expand s.input
  putNotFull (txOngoing : Bool) (c : Byte) (outer : List Byte) :
    s.main = .putchar (.put txOngoing) c outer → s.txBuffer.full = false
  interruptNotEmpty : s.txIfg = true → s.txIe = true → s.txBuffer.empty = false

theorem Inv.delivers (h : Inv s) : Delivers s where
  inOrder := by
    rw [← h.text, List.append_assoc]
    exact List.prefix_append _ _
  complete hidle hempty := by
    have htext := h.text
    rw [h.wf.empty_iff.mp hempty, hidle] at htext
    simpa [Main.unsent, Main.starting] using htext
  putNotFull txOngoing c outer hmain := by
    have hestablished := h.established
    rw [hmain] at hestablished
    rw [← Bool.not_eq_true, h.wf.full_iff]
    exact Nat.ne_of_lt hestablished.1
  interruptNotEmpty hifg _ := by
    have htransmitting := h.transmitting
    rw [hifg] at htransmitting
    rw [← Bool.not_eq_true, h.wf.empty_iff]
    intro hq
    simp [Main.transmitting, hq] at htransmitting

theorem delivers_text (events : List Event) :
    ∃ s, Run.run Uart.step events uartInit = .ok s ∧ Delivers s := by
  obtain ⟨s, hrun, hinv⟩ := inv_init.run events
  exact ⟨s, hrun, hinv.delivers⟩

end

end Nsumo.Drivers.Uart
