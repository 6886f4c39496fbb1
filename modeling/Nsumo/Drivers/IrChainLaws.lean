import Nsumo.Drivers.IrRemoteLaws

namespace Nsumo.Drivers.IrRemote

open Common Lib Lib.Bits

/-- Upper limit of the gap before the `n`-th pulse of a chain.  The 16-bit count has no 65536th. -/
def window (n : Nat) : Nat :=
  if n = 2 then
    10
  else if n ≤ 34 then
    5
  else if n = 35 then
    50
  else if n = 65536 then
    0
  else if n % 2 = 1 then
    110
  else
    5

/-- `Chain history gaps`: the history ends with a pulse, and `gaps` are the timer interrupts before
the second and every later pulse of the chain that this pulse belongs to. -/
inductive Chain : List Irq → List Nat → Prop
  | idle {before : List Irq} (h : .pulse ∉ before ∨ 150 < sincePulse before) :
    Chain (before ++ [.pulse]) []
  | outside {before : List Irq} {gaps : List Nat} {ticks : Nat} (chain : Chain before gaps)
    (h : window (gaps.length + 2) ≤ ticks) (hwait : ticks ≤ 150) :
    Chain (before ++ pulseAfter ticks) []
  | inside {before : List Irq} {gaps : List Nat} {ticks : Nat} (chain : Chain before gaps)
    (h : ticks < window (gaps.length + 2)) : Chain (before ++ pulseAfter ticks) (gaps ++ [ticks])

def bits (gaps : List Nat) : List Bool := ((gaps.drop 1).take 32).map (2 ≤ ·)

def Puts (history : List Irq) (earlier : List Byte) (cmd : Byte) : Prop :=
  ∃ before ir ir', history = before ++ [.pulse] ∧ Run.run handle before init = .ok ir ∧
    ir.isrPulse = .ok ir' ∧ ir.enqueued = earlier ∧ ir'.enqueued = earlier ++ [cmd]

theorem window_le (n : Nat) : window n ≤ 110 := by
  unfold window
  split_ifs <;> omega

theorem isValidPulse_window {n ms : Nat} (h2 : 2 ≤ n) (hn : n ≤ 65536) :
    isValidPulse (n % 65536) ms = decide (ms < window n) := by
  obtain rfl | hlt := Nat.eq_or_lt_of_le hn
  · simp [isValidPulse, window]
  · rw [Nat.mod_eq_of_lt hlt]
    unfold isValidPulse window
    split_ifs <;> first | omega | rfl

theorem Chain.length_lt {history : List Irq} {gaps : List Nat} (h : Chain history gaps) :
    gaps.length + 1 < 65536 := by
  induction h with
  | idle | outside => simp
  | inside _ h ih =>
    rw [List.length_append, List.length_singleton]
    refine Nat.lt_of_le_of_ne ih fun heq => ?_
    change _ < window (_ + 1 + 1) at h
    rw [heq] at h
    exact absurd h (Nat.not_lt_zero _)

theorem Chain.inside_window {history : List Irq} {gaps : List Nat} (h : Chain history gaps) {k : Nat}
    (hk : k < gaps.length) : gaps[k] < window (k + 2) := by
  induction h with
  | idle | outside => simp at hk
  | @inside before gaps ticks _ h ih =>
    rw [List.length_append, List.length_singleton] at hk
    obtain hlt | rfl := Nat.lt_succ_iff_lt_or_eq.mp hk
    · rw [List.getElem_append_left hlt]
      exact ih hlt
    · simpa using h

theorem Chain.split {history : List Irq} {gaps : List Nat} (h : Chain history gaps) {n : Nat}
    (hn : n ≤ gaps.length) :
    ∃ earlier, history = earlier ++ (gaps.drop n).flatMap pulseAfter ∧
      Chain earlier (gaps.take n) := by
  induction h with
  | @idle before h => exact ⟨before ++ [.pulse], by simp, by simpa using .idle h⟩
  | @outside before gaps ticks chain h hwait =>
    exact ⟨before ++ pulseAfter ticks, by simp, by simpa using .outside chain h hwait⟩
  | @inside before gaps ticks chain h ih =>
    rw [List.length_append, List.length_singleton] at hn
    obtain hle | rfl := Nat.le_succ_iff.mp hn
    · obtain ⟨earlier, rfl, hearlier⟩ := ih hle
      refine ⟨earlier, ?_, ?_⟩
      · rw [List.drop_append_of_le_length hle, List.flatMap_append, List.flatMap_singleton,
          List.append_assoc]
      · rwa [List.take_append_of_le_length hle]
    · refine ⟨before ++ pulseAfter ticks, by simp, ?_⟩
      rw [List.take_of_length_le (by simp)]
      exact .inside chain h

theorem le_sincePulse (before : List Irq) (ticks : Nat) :
    ticks ≤ sincePulse (before ++ List.replicate ticks .timer) := by
  rw [sincePulse, List.reverse_append, List.reverse_replicate]
  induction ticks with
  | zero => exact Nat.zero_le _
  | succ ticks ih => simp [List.replicate_succ]

theorem Chain.next {before : List Irq} {gaps : List Nat} (h : Chain before gaps) (ticks : Nat) :
    ∃ gaps', Chain (before ++ pulseAfter ticks) gaps' := by
  rcases Nat.lt_or_ge ticks (window (gaps.length + 2)) with hin | hout
  · exact ⟨_, .inside h hin⟩
  · rcases Nat.lt_or_ge 150 ticks with hidle | hwait
    · refine ⟨[], ?_⟩
      rw [pulseAfter, ← List.append_assoc]
      exact .idle (.inr (Nat.lt_of_lt_of_le hidle (le_sincePulse before ticks)))
    · exact ⟨[], .outside h hout hwait⟩

def Heard (history : List Irq) : Prop :=
  .pulse ∉ history ∨ ∃ before ticks gaps,
    history = before ++ List.replicate ticks .timer ∧ Chain before gaps

theorem Heard.pulse {history : List Irq} (h : Heard history) :
    ∃ gaps, Chain (history ++ [.pulse]) gaps := by
  obtain hnone | ⟨before, ticks, gaps, rfl, hchain⟩ := h
  · exact ⟨[], .idle (.inl hnone)⟩
  · rw [List.append_assoc]
    exact hchain.next ticks

theorem heard (history : List Irq) : Heard history := by
  induction history using List.reverseRecOn with
  | nil => exact .inl (by simp)
  | append_singleton history irq ih =>
    cases irq with
    | timer =>
      refine ih.imp (by simp) ?_
      rintro ⟨before, ticks, gaps, rfl, hchain⟩
      refine ⟨before, ticks + 1, gaps, ?_, hchain⟩
      rw [List.replicate_succ', List.append_assoc]
    | pulse =>
      obtain ⟨gaps, hchain⟩ := ih.pulse
      exact .inr ⟨history ++ [.pulse], 0, gaps, (List.append_nil _).symm, hchain⟩

def word (gaps : List Nat) : BitVec 32 := shiftIn (bits gaps) 0

theorem word_concat {gaps : List Nat} {ticks : Nat} :
    word (gaps ++ [ticks]) =
      if isBitPulse (gaps.length + 2) then shiftBit (word gaps) (2 ≤ ticks) else word gaps := by
  have hbit : isBitPulse (gaps.length + 2) = decide (1 ≤ gaps.length ∧ gaps.length ≤ 32) := by
    rw [Bool.eq_iff_iff]
    simp [isBitPulse]
  simp only [hbit, decide_eq_true_eq]
  split_ifs with h
  · have hbits : bits (gaps ++ [ticks]) = bits gaps ++ [decide (2 ≤ ticks)] := by
      rw [bits, bits, List.drop_append_of_le_length h.1, List.take_of_length_le (by simp; omega),
        List.take_of_length_le (by simp; omega), List.map_append]
      rfl
    rw [word, hbits, shiftIn_append, shiftIn_singleton, word]
  · have hbits : bits (gaps ++ [ticks]) = bits gaps := by
      rcases Nat.eq_zero_or_pos gaps.length with h0 | hpos
      · rw [List.length_eq_zero_iff.mp h0]
        rfl
      · rw [bits, bits, List.drop_append_of_le_length hpos,
          List.take_append_of_le_length (by simp; omega)]
    rw [word, word, hbits]

theorem isrPulse_outside {ir : IrRemote}
    (h : isValidPulse ((ir.pulseCount + 1) % 65536) ir.timerMs = false) :
    ∃ ir', ir.isrPulse = .ok ir' ∧ Receiving 1 0 ir' := by
  obtain ⟨ir', hok, hcount, hraw, hms, -, -⟩ := isrPulse_spec ir
  simp [decodePulse, irTimerStop, h] at hcount hraw
  exact ⟨ir', hok, hcount, hraw, hms⟩

theorem isrPulse_inside {ir : IrRemote} {gaps : List Nat} (hlen : gaps.length + 1 < 65536)
    (hcount : ir.pulseCount = gaps.length + 1) (hword : ir.irMessage = word gaps)
    (hvalid : isValidPulse ((ir.pulseCount + 1) % 65536) ir.timerMs = true) :
    ∃ ir', ir.isrPulse = .ok ir' ∧
      Receiving (gaps.length + 2) (word (gaps ++ [ir.timerMs])) ir' := by
  have hlt : gaps.length + 2 < 65536 := by
    refine Nat.lt_of_le_of_ne hlen fun heq => ?_
    rw [hcount, heq] at hvalid
    cases hvalid
  obtain ⟨ir', hok, hcount', hraw, hms, -, -⟩ := isrPulse_spec ir
  have hnext : (ir.pulseCount + 1) % 65536 = gaps.length + 2 := by
    rw [hcount, Nat.mod_eq_of_lt hlt]
  refine ⟨ir', hok, ?_, ?_, hms⟩
  · rw [hcount']
    cases hbit : isBitPulse ((ir.pulseCount + 1) % 65536) <;>
      simpa [decodePulse, irTimerStop, hvalid, hbit] using hnext
  · rw [hraw, word_concat, ← hword, ← hnext]
    cases hbit : isBitPulse ((ir.pulseCount + 1) % 65536) <;>
      simp [decodePulse, irTimerStop, hvalid, hbit, shiftBit]

theorem run_silent {history : List Irq} (h : .pulse ∉ history) {ir ir' : IrRemote}
    (hstop : ir.timerRunning = false) (hrun : Run.run handle history ir = .ok ir') :
    ir'.timerRunning = false := by
  induction history generalizing ir with
  | nil =>
    cases hrun
    exact hstop
  | cons irq history ih =>
    obtain ⟨m, hm, hrest⟩ := Run.run_cons_ok.mp hrun
    cases irq with
    | pulse => simp at h
    | timer =>
      refine ih (fun hmem => h (List.mem_cons_of_mem _ hmem)) ?_ hrest
      cases hm
      unfold isrTimerA0
      split_ifs
      · exact hstop
      · rfl

theorem run_total (history : List Irq) (ir : IrRemote) :
    ∃ ir', Run.run handle history ir = .ok ir' := by
  induction history generalizing ir with
  | nil => exact ⟨ir, rfl⟩
  | cons irq history ih =>
    obtain ⟨m, hm⟩ : ∃ m, handle irq ir = .ok m := by
      cases irq with
      | pulse =>
        obtain ⟨m, hm, -⟩ := isrPulse_spec ir
        exact ⟨m, hm⟩
      | timer => exact ⟨_, rfl⟩
    obtain ⟨ir', hrest⟩ := ih m
    exact ⟨ir', Run.run_cons_ok.mpr ⟨m, hm, hrest⟩⟩

theorem Chain.receiving {history : List Irq} {gaps : List Nat} (h : Chain history gaps) :
    ∃ ir, Run.run handle history init = .ok ir ∧ Receiving (gaps.length + 1) (word gaps) ir := by
  induction h with
  | @idle before h =>
    obtain ⟨ir, hir⟩ := run_total before init
    have hquiet : ir.timerRunning = false ∨ 110 ≤ sincePulse before :=
      h.imp (fun hnone => run_silent hnone rfl hir) (fun hlong => by omega)
    obtain ⟨ir', hir', hrec, -⟩ := start_pulse (synced_run hir) hquiet
    exact ⟨ir', Run.run_concat_ok.mpr ⟨ir, hir, hir'⟩, hrec⟩
  | @outside before gaps ticks chain h hwait ih =>
    obtain ⟨ir, hir, hcount, -, hms⟩ := ih
    have hout : isValidPulse ((ir.pulseCount + 1) % 65536) ticks = false := by
      rw [hcount, isValidPulse_window (by omega) chain.length_lt]
      exact decide_eq_false (Nat.not_lt.mpr h)
    obtain ⟨ir', hir', hrec⟩ := @isrPulse_outside { ir with timerMs := ticks } hout
    exact ⟨ir', Run.run_append_ok.mpr ⟨ir, hir, (run_pulseAfter hms hwait).trans hir'⟩, hrec⟩
  | @inside before gaps ticks chain h ih =>
    obtain ⟨ir, hir, hcount, hword, hms⟩ := ih
    have hin : isValidPulse ((ir.pulseCount + 1) % 65536) ticks = true := by
      rw [hcount, isValidPulse_window (by omega) chain.length_lt]
      exact decide_eq_true h
    have hwait : ticks ≤ 150 := by
      have := window_le (gaps.length + 2)
      omega
    obtain ⟨ir', hir', hrec⟩ := @isrPulse_inside { ir with timerMs := ticks } gaps
      chain.length_lt hcount hword hin
    refine ⟨ir', Run.run_append_ok.mpr ⟨ir, hir, (run_pulseAfter hms hwait).trans hir'⟩, ?_⟩
    rwa [List.length_append, List.length_singleton]

theorem Chain.last_pulse {history : List Irq} {gaps : List Nat} (h : Chain history gaps) :
    ∃ before, history = before ++ [.pulse] := by
  cases h with
  | idle => exact ⟨_, rfl⟩
  | outside | inside => exact ⟨_, (List.append_assoc _ _ _).symm⟩

theorem Chain.isrPulse {before : List Irq} {gaps : List Nat} (h : Chain (before ++ [.pulse]) gaps)
    {ir ir' : IrRemote} (hir : Run.run handle before init = .ok ir) (hp : ir.isrPulse = .ok ir') :
    ir'.enqueued = ir.enqueued ++
      (if isMessagePulse (gaps.length + 1) then [decodedCmd (word gaps)] else []) := by
  obtain ⟨irAt, hrun, hcount, hword, -⟩ := h.receiving
  obtain ⟨m, hm, hlast⟩ := Run.run_concat_ok.mp hrun
  cases hir.symm.trans hm
  cases hp.symm.trans hlast
  obtain ⟨m, hm, -, -, -, -, henq⟩ := isrPulse_spec ir
  cases hp.symm.trans hm
  rw [henq, hcount, hword]

theorem Chain.puts {history : List Irq} {gaps : List Nat} (h : Chain history gaps)
    (hmsg : isMessagePulse (gaps.length + 1) = true) :
    ∃ earlier, Puts history earlier (decodedCmd (word gaps)) := by
  obtain ⟨before, rfl⟩ := h.last_pulse
  obtain ⟨ir, hir⟩ := run_total before init
  obtain ⟨ir', hp, -⟩ := isrPulse_spec ir
  refine ⟨ir.enqueued, before, ir, ir', rfl, hir, hp, rfl, ?_⟩
  rw [h.isrPulse hir hp, if_pos hmsg]

theorem puts_of_enqueued {history : List Irq} {ir : IrRemote}
    (h : Run.run handle history init = .ok ir) {earlier later : List Byte} {cmd : Byte}
    (hcmd : ir.enqueued = earlier ++ cmd :: later) :
    ∃ upTo rest, history = upTo ++ rest ∧ Puts upTo earlier cmd := by
  induction history using List.reverseRecOn generalizing ir later with
  | nil =>
    cases h
    simp [init] at hcmd
  | append_singleton history irq ih =>
    obtain ⟨m, hm, hstep⟩ := Run.run_concat_ok.mp h
    have hearlier : ∀ {later}, m.enqueued = earlier ++ cmd :: later →
        ∃ upTo rest, history ++ [irq] = upTo ++ rest ∧ Puts upTo earlier cmd := by
      intro later hcmd
      obtain ⟨upTo, rest, rfl, hputs⟩ := ih hm hcmd
      exact ⟨upTo, rest ++ [irq], by rw [List.append_assoc], hputs⟩
    cases irq with
    | timer =>
      cases hstep
      refine hearlier (Eq.trans ?_ hcmd)
      unfold isrTimerA0
      split_ifs <;> rfl
    | pulse =>
      obtain ⟨gaps, hchain⟩ := (heard history).pulse
      have henq := hchain.isrPulse hm hstep
      split_ifs at henq with hmsg
      · rw [hcmd] at henq
        obtain rfl | ⟨later, x, rfl⟩ := List.eq_nil_or_concat later
        · obtain ⟨hbefore, hlast⟩ := List.append_inj' henq rfl
          exact ⟨history ++ [.pulse], [], (List.append_nil _).symm, history, m, ir, rfl, hm, hstep,
            hbefore.symm, hcmd⟩
        · rw [List.concat_eq_append, ← List.cons_append, ← List.append_assoc] at henq
          exact hearlier (List.append_inj' henq rfl).1.symm
      · rw [List.append_nil] at henq
        exact hearlier (henq.symm.trans hcmd)

theorem isMessagePulse_iff {n : Nat} :
    isMessagePulse n = true ↔ n = 34 ∨ (37 ≤ n ∧ n % 2 = 1) := by
  simp [isMessagePulse]
  omega

theorem Chain.suffix {history : List Irq} {gaps : List Nat} (h : Chain history gaps) :
    ∃ before, history = before ++ .pulse :: gaps.flatMap pulseAfter := by
  obtain ⟨upTo, rfl, hstart⟩ := h.split (Nat.zero_le _)
  obtain ⟨before, rfl⟩ := hstart.last_pulse
  exact ⟨before, by rw [List.drop_zero, List.append_assoc]; rfl⟩

theorem msbFirst_decodedCmd_word {gaps : List Nat} (h : 33 ≤ gaps.length) :
    msbFirst (decodedCmd (word gaps)) = ((bits gaps).drop 16).take 8 := by
  have hlen : (bits gaps).length = 32 := by
    simp [bits]
    omega
  rw [decodedCmd, msbFirst_extractLsb' _ (by decide), word, msbFirst_shiftIn hlen]

theorem word_take {gaps : List Nat} : word (gaps.take 33) = word gaps := by
  rw [word, word, bits, bits, List.drop_take, List.take_take, Nat.min_self]

/-- Every command put comes from one chain: it is put by pulse 34 from the bits before it, or by a
later odd pulse of the same chain, which then repeats what pulse 34 put. -/
theorem enqueued_from_chain {history : List Irq} {ir : IrRemote}
    (h : Run.run handle history init = .ok ir) {earlier later : List Byte} {cmd : Byte}
    (hcmd : ir.enqueued = earlier ++ cmd :: later) :
    ∃ upTo rest gaps, history = upTo ++ rest ∧ Puts upTo earlier cmd ∧ Chain upTo gaps ∧
      (∀ k (hk : k < gaps.length), gaps[k] < window (k + 2)) ∧
      (∃ before, upTo = before ++ .pulse :: gaps.flatMap pulseAfter) ∧
      msbFirst cmd = ((bits gaps).drop 16).take 8 ∧
      (gaps.length + 1 = 34 ∨ 37 ≤ gaps.length + 1 ∧ (gaps.length + 1) % 2 = 1 ∧
        ∃ upTo34 earlier34, upTo = upTo34 ++ (gaps.drop 33).flatMap pulseAfter ∧
          Chain upTo34 (gaps.take 33) ∧ Puts upTo34 earlier34 cmd) := by
  obtain ⟨upTo, rest, rfl, hputs⟩ := puts_of_enqueued h hcmd
  obtain ⟨before, m, m', rfl, hm, hp, hearlier, henq⟩ := hputs
  obtain ⟨gaps, hchain⟩ := (heard before).pulse
  have hput := hchain.isrPulse hm hp
  rw [henq, hearlier, List.append_cancel_left_eq] at hput
  split_ifs at hput with hmsg
  · have hcmd : cmd = decodedCmd (word gaps) := List.singleton_inj.mp hput
    have hnumber := isMessagePulse_iff.mp hmsg
    have hlen : 33 ≤ gaps.length := by omega
    refine ⟨_, rest, gaps, rfl, ⟨before, m, m', rfl, hm, hp, hearlier, henq⟩, hchain,
      fun k hk => hchain.inside_window hk, hchain.suffix, ?_, hnumber.imp_right ?_⟩
    · rw [hcmd, msbFirst_decodedCmd_word hlen]
    · rintro ⟨hlate, hodd⟩
      obtain ⟨upTo34, hsplit, hchain34⟩ := hchain.split hlen
      have hlen34 : (gaps.take 33).length = 33 := List.length_take_of_le hlen
      obtain ⟨earlier34, hputs34⟩ := hchain34.puts (by rw [hlen34]; rfl)
      rw [word_take, ← hcmd] at hputs34
      exact ⟨hlate, hodd, upTo34, earlier34, hsplit, hchain34, hputs34⟩

theorem enqueued_eq_nil {history : List Irq} {ir : IrRemote}
    (h : Run.run handle history init = .ok ir) (hcount : history.count .pulse < 34) :
    ir.enqueued = [] := by
  by_contra hne
  obtain ⟨cmd, later, hcmd⟩ := List.exists_cons_of_ne_nil hne
  obtain ⟨_, rest, rfl, before, m, m', rfl, hm, hp, hearlier, henq⟩ :=
    @puts_of_enqueued _ ir h [] later cmd hcmd
  obtain ⟨gaps, hchain⟩ := (heard before).pulse
  have hput := hchain.isrPulse hm hp
  rw [henq, hearlier, List.append_cancel_left_eq] at hput
  split_ifs at hput with hmsg
  obtain ⟨start, hsplit⟩ := hchain.suffix
  have hgaps : (gaps.flatMap pulseAfter).count .pulse = gaps.length := by
    rw [List.count_flatMap]
    simp [pulseAfter, List.count_replicate, Function.comp_def]
  have hnumber := isMessagePulse_iff.mp hmsg
  rw [hsplit, List.count_append, List.count_append, List.count_cons_self, hgaps] at hcount
  omega

theorem enqueued_from_chain_power_on :
    ∃ upTo gaps, Chain upTo gaps ∧ msbFirst (0xE7 : Byte) = ((bits gaps).drop 16).take 8 := by
  obtain ⟨ir, hir, hcmd⟩ := @message_run [] init (.inl ⟨rfl, rfl⟩) (.inl rfl) 9 (by decide)
    (fun k => if (0x0000E700#32).getMsbD k then 2 else 0) 0x0000E700#32
    (by intro k _; split <;> decide) (by intro k _; split <;> simp_all) 32 (Nat.le_refl 32)
  obtain ⟨upTo, -, gaps, -, -, hchain, -, -, hbits, -⟩ :=
    @enqueued_from_chain _ ir hir [] [] 0xE7 hcmd
  exact ⟨upTo, gaps, hchain, hbits⟩

end Nsumo.Drivers.IrRemote
