import Nsumo.Drivers.IrChainLaws

namespace Nsumo.Drivers.IrRemote

open Common Lib Lib.Bits

def Inside (gaps : List Nat) : Prop := ∀ k (hk : k < gaps.length), gaps[k] < window (k + 2)

instance (gaps : List Nat) : Decidable (Inside gaps) :=
  inferInstanceAs (Decidable (∀ k (hk : k < gaps.length), gaps[k] < window (k + 2)))

/-- A message and the repeat codes after it: the ticks before its first pulse and before each of
the later ones.  The pulses after the 34th belong to the repeat codes. -/
structure Message : Type where
  word : BitVec 32
  silence : Nat
  gaps : List Nat
  whole : 33 ≤ gaps.length
  codes : bits gaps = msbFirst word
  inside : Inside gaps

def messagePulses (n : Nat) : Nat := if n < 33 then 0 else 1 + (n - 34) / 2

namespace Message

def irqs (m : Message) : List Irq :=
  List.replicate m.silence .timer ++ .pulse :: m.gaps.flatMap pulseAfter

def commands (m : Message) : List IrCmd :=
  List.replicate (messagePulses m.gaps.length) (decodedCmd m.word)

/-- Each message starts too late to belong to the one before it; the first one comes at least
`limit` ticks after whatever was received before. -/
def Spaced (limit : Nat) : List Message → Prop
  | [] => True
  | m :: messages => limit ≤ m.silence ∧ Spaced (window (m.gaps.length + 2)) messages

end Message

def Restarts (history : List Irq) (limit : Nat) : Prop :=
  ∀ ticks, limit ≤ ticks → Chain (history ++ List.replicate ticks .timer ++ [.pulse]) []

section

variable {history before : List Irq} {gaps : List Nat} {ir : IrRemote}

theorem restarts_of_silent (h : .pulse ∉ history) (limit : Nat) : Restarts history limit := by
  intro ticks _
  refine .idle (.inl ?_)
  simp [h]

theorem Chain.restarts (h : Chain before gaps) : Restarts before (window (gaps.length + 2)) := by
  intro ticks hticks
  obtain hidle | hwait := Nat.lt_or_ge 150 ticks
  · exact .idle (.inr (Nat.lt_of_lt_of_le hidle (le_sincePulse before ticks)))
  · have hchain := Chain.outside h hticks hwait
    rwa [pulseAfter, ← List.append_assoc] at hchain

theorem inside_concat {ticks : Nat} :
    Inside (gaps ++ [ticks]) ↔ Inside gaps ∧ ticks < window (gaps.length + 2) := by
  constructor
  · intro h
    refine ⟨fun k hk => ?_, ?_⟩
    · have hk' := h k (by simp; omega)
      rwa [List.getElem_append_left hk] at hk'
    · have hlast := h gaps.length (by simp)
      rwa [List.getElem_concat_length rfl] at hlast
  · rintro ⟨h, hticks⟩ k hk
    rw [List.length_append, List.length_singleton] at hk
    obtain hlt | rfl := Nat.lt_succ_iff_lt_or_eq.mp hk
    · rw [List.getElem_append_left hlt]
      exact h k hlt
    · rwa [List.getElem_concat_length rfl]

theorem Chain.extend (h : Chain before []) (hinside : Inside gaps) :
    Chain (before ++ gaps.flatMap pulseAfter) gaps := by
  induction gaps using List.reverseRecOn with
  | nil => simpa using h
  | append_singleton gaps ticks ih =>
    obtain ⟨hgaps, hticks⟩ := inside_concat.mp hinside
    rw [List.flatMap_append, List.flatMap_singleton, ← List.append_assoc]
    exact .inside (ih hgaps) hticks

theorem run_timers_enqueued {ticks : Nat} {ir' : IrRemote}
    (h : Run.run handle (List.replicate ticks .timer) ir = .ok ir') :
    ir'.enqueued = ir.enqueued := by
  refine Run.run_invariant_along (C := fun irq _ => irq = .timer)
    (I := fun t => t.enqueued = ir.enqueued) ?_ ?_ rfl h
  · rintro _ s t rfl hs ht
    cases ht
    rw [← hs]
    unfold isrTimerA0
    split_ifs <;> rfl
  · rintro pre irq post _ hsplit -
    exact List.eq_of_mem_replicate (hsplit ▸ by simp : irq ∈ List.replicate ticks Irq.timer)

theorem messagePulses_succ (n : Nat) :
    messagePulses (n + 1) = messagePulses n + if isMessagePulse (n + 2) then 1 else 0 := by
  have hpulse : isMessagePulse (n + 2) = decide (n + 2 = 34 ∨ 37 ≤ n + 2 ∧ (n + 2) % 2 = 1) := by
    rw [Bool.eq_iff_iff, isMessagePulse_iff, decide_eq_true_eq]
  simp only [messagePulses, hpulse, decide_eq_true_eq]
  split_ifs <;> omega

theorem word_concat_of_whole {ticks : Nat} (h : 33 ≤ gaps.length) :
    word (gaps ++ [ticks]) = word gaps := by
  rw [word_concat, if_neg]
  simp only [isBitPulse, Bool.and_eq_true, decide_eq_true_eq]
  omega

theorem replicate_messagePulses {ticks : Nat} :
    List.replicate (messagePulses gaps.length) (decodedCmd (word gaps)) ++
        (if isMessagePulse (gaps.length + 2) then [decodedCmd (word (gaps ++ [ticks]))] else []) =
      List.replicate (messagePulses (gaps ++ [ticks]).length)
        (decodedCmd (word (gaps ++ [ticks]))) := by
  rw [List.length_append, List.length_singleton, messagePulses_succ]
  obtain hlt | hwhole := Nat.lt_or_ge gaps.length 33
  · have hnone : messagePulses gaps.length = 0 := if_pos hlt
    rw [hnone]
    split <;> rfl
  · rw [word_concat_of_whole hwhole]
    split
    · exact List.replicate_succ'.symm
    · exact List.append_nil _

theorem Chain.run_commands (h : Chain before []) (hir : Run.run handle before init = .ok ir)
    (hinside : Inside gaps) :
    ∃ ir', Run.run handle (gaps.flatMap pulseAfter) ir = .ok ir' ∧
      ir'.enqueued = ir.enqueued ++
        List.replicate (messagePulses gaps.length) (decodedCmd (word gaps)) := by
  induction gaps using List.reverseRecOn with
  | nil => exact ⟨ir, rfl, by simp [messagePulses]⟩
  | append_singleton gaps ticks ih =>
    obtain ⟨hgaps, -⟩ := inside_concat.mp hinside
    obtain ⟨m, hm, hcommands⟩ := ih hgaps
    obtain ⟨late, hlate⟩ := run_total (List.replicate ticks .timer) m
    obtain ⟨ir', hpulse, -⟩ := isrPulse_spec late
    refine ⟨ir', ?_, ?_⟩
    · rw [List.flatMap_append, List.flatMap_singleton]
      exact Run.run_append_ok.mpr ⟨m, hm, Run.run_concat_ok.mpr ⟨late, hlate, hpulse⟩⟩
    · have hchain := h.extend hinside
      rw [List.flatMap_append, List.flatMap_singleton, pulseAfter, ← List.append_assoc,
        ← List.append_assoc] at hchain
      have hbefore := Run.run_append_ok.mpr ⟨m, Run.run_append_ok.mpr ⟨ir, hir, hm⟩, hlate⟩
      rw [hchain.isrPulse hbefore hpulse, run_timers_enqueued hlate, hcommands,
        List.append_assoc, List.length_append, List.length_singleton, replicate_messagePulses,
        List.length_append, List.length_singleton]

theorem Message.commands_eq (m : Message) :
    m.commands =
      List.replicate (messagePulses m.gaps.length) (decodedCmd (IrRemote.word m.gaps)) := by
  rw [IrRemote.word, m.codes, shiftIn_msbFirst]
  rfl

theorem Message.run (m : Message) {limit : Nat} (h : Restarts history limit)
    (hlimit : limit ≤ m.silence) (hir : Run.run handle history init = .ok ir) :
    ∃ ir', Run.run handle m.irqs ir = .ok ir' ∧ ir'.enqueued = ir.enqueued ++ m.commands ∧
      Restarts (history ++ m.irqs) (window (m.gaps.length + 2)) := by
  have hstart := h m.silence hlimit
  obtain ⟨late, hlate⟩ := run_total (List.replicate m.silence .timer) ir
  obtain ⟨start, hpulse, -⟩ := isrPulse_spec late
  have hbefore := Run.run_append_ok.mpr ⟨ir, hir, hlate⟩
  obtain ⟨ir', hgaps, hcommands⟩ :=
    hstart.run_commands (Run.run_concat_ok.mpr ⟨late, hbefore, hpulse⟩) m.inside
  refine ⟨ir', ?_, ?_, ?_⟩
  · exact Run.run_append_ok.mpr ⟨late, hlate, Run.run_cons_ok.mpr ⟨start, hpulse, hgaps⟩⟩
  · rw [hcommands, hstart.isrPulse hbefore hpulse, run_timers_enqueued hlate, m.commands_eq]
    exact congrArg (· ++ _) (List.append_nil _)
  · have hchain := (hstart.extend m.inside).restarts
    rwa [List.append_assoc, List.append_assoc, List.singleton_append] at hchain

theorem messages_run {messages : List Message} {limit : Nat} (h : Restarts history limit)
    (hspaced : Message.Spaced limit messages) (hir : Run.run handle history init = .ok ir) :
    ∃ ir', Run.run handle (messages.flatMap Message.irqs) ir = .ok ir' ∧
      ir'.enqueued = ir.enqueued ++ messages.flatMap Message.commands := by
  induction messages generalizing history limit ir with
  | nil => exact ⟨ir, rfl, (List.append_nil _).symm⟩
  | cons m messages ih =>
    obtain ⟨hlimit, hspaced⟩ := hspaced
    obtain ⟨next, hnext, hcommands, hrestarts⟩ := m.run h hlimit hir
    obtain ⟨ir', hrest, hlater⟩ :=
      ih hrestarts hspaced (Run.run_append_ok.mpr ⟨ir, hir, hnext⟩)
    refine ⟨ir', Run.run_append_ok.mpr ⟨next, hnext, hrest⟩, ?_⟩
    rw [hlater, hcommands, List.flatMap_cons, List.append_assoc]

end

def codedGaps (w : BitVec 32) : List Nat := 9 :: (msbFirst w).map fun bit => if bit then 4 else 1

theorem bits_codedGaps (w : BitVec 32) (rest : List Nat) :
    bits (codedGaps w ++ rest) = msbFirst w := by
  have hlength : (codedGaps w).length = 33 := by simp [codedGaps, msbFirst]
  have hbit (b : Bool) : decide (2 ≤ if b then 4 else 1) = b := by cases b <;> rfl
  rw [bits, List.drop_append_of_le_length (by omega),
    List.take_append_of_le_length (by rw [List.length_drop]; omega), codedGaps, List.drop_one,
    List.tail_cons, List.take_of_length_le (by simp [msbFirst]), List.map_map]
  conv_rhs => rw [← List.map_id (msbFirst w)]
  exact List.map_congr_left fun b _ => hbit b

def pressed (w : BitVec 32) (repeats : List Nat) (h : Inside (codedGaps w ++ repeats)) :
    Message where
  word := w
  silence := 110
  gaps := codedGaps w ++ repeats
  whole := by simp [codedGaps, msbFirst]
  codes := bits_codedGaps w repeats
  inside := h

theorem inside_codedGaps (w : BitVec 32) : Inside (codedGaps w ++ []) := by
  rw [List.append_nil]
  rintro (_ | k) hk
  · exact (by decide : 9 < window 2)
  · have hlength : (codedGaps w).length = 33 := by simp [codedGaps, msbFirst]
    have hwindow : window (k + 1 + 2) = 5 := by
      rw [window, if_neg (by omega), if_pos (by omega)]
    simp only [codedGaps, List.getElem_cons_succ, List.getElem_map, hwindow]
    split <;> decide

end Nsumo.Drivers.IrRemote
