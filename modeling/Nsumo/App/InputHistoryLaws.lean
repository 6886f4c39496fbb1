import Nsumo.App.StateMachineLaws
import Nsumo.Lib.Recent

namespace Nsumo.App

open Common Lib

def noticed (input : Input) : Bool := !(input.enemy.position == .none && input.line == .none)

def sided (input : Input) : Bool := enemyAtLeft input.enemy || enemyAtRight input.enemy

/-- The inputs in which something is detected, each run of equal ones once. -/
def sightings (inputs : List Input) : List Input := (inputs.filter noticed).destutter (· ≠ ·)

def retained (n : Nat) (inputs : List Input) : List Input :=
  (sightings inputs).rtake (min n (sightings inputs).length)

def lastSided (inputs : List Input) : Option Input := inputs.reverse.find? sided

def entries (history : RingBuffer) : List Input := history.toList.map .ofBytes

theorem inputEqual_eq (a b : Input) : inputEqual a b = decide (a = b) := by
  obtain ⟨⟨position, range⟩, line⟩ := a
  obtain ⟨⟨position', range'⟩, line'⟩ := b
  simp only [inputEqual, Input.mk.injEq, Enemy.mk.injEq, beq_eq_decide, Bool.decide_and]
  ac_rfl

theorem retained_eq (n : Nat) (inputs : List Input) :
    retained n inputs = (sightings inputs).rtake n := by
  rw [retained, List.rtake, List.rtake]
  congr 1
  omega

section

variable {n : Nat} {history : RingBuffer}

theorem entries_put (h : history.Growing n 3) (hn : n < 255) (input : Input) :
    ∃ history', history.put input.toBytes = .ok history' ∧ history'.Growing n 3 ∧
      entries history' = Fifo.push n (entries history) input := by
  obtain ⟨history', hput, hgrowing, hlist⟩ := h.put_spec hn input.length_toBytes
  refine ⟨history', hput, hgrowing, ?_⟩
  rw [entries, hlist, ← Fifo.push_map, Input.ofBytes_toBytes, entries]

theorem entries_reverse (h : history.Growing n 3) (hn : n < 255) {offset : Nat} {input : Input}
    (hinput : (entries history).reverse[offset]? = some input) :
    ∃ bytes, history.peekHead offset = .ok bytes ∧ Input.ofBytes bytes = input := by
  rw [entries, ← List.map_reverse, List.getElem?_map, Option.map_eq_some_iff] at hinput
  obtain ⟨bytes, hbytes, hof⟩ := hinput
  exact ⟨bytes, h.peekHead_spec hn hbytes, hof⟩

theorem entries_length (h : history.Growing n 3) (hn : n < 255) :
    history.count = (entries history).length := by
  rw [entries, List.length_map, h.count_eq hn]

theorem save_noticed (h : history.Growing n 3) (hn : n < 255) {input : Input}
    (hinput : noticed input = true) :
    ∃ history', inputHistorySave history input = .ok history' ∧ history'.Growing n 3 ∧
      entries history' = Recent.remember n (entries history) input := by
  have hskip : (input.enemy.position == .none && input.line == .none) = false := by
    rwa [noticed, Bool.not_eq_true'] at hinput
  obtain ⟨history', hput, hgrowing, hpush⟩ := entries_put h hn input
  rw [inputHistorySave, hskip, if_neg Bool.false_ne_true, entries_length h hn, Recent.remember]
  obtain hnil | ⟨q, last, hlast⟩ := List.eq_nil_or_concat (entries history)
  · rw [hnil] at hpush ⊢
    exact ⟨history', hput, hgrowing, hpush⟩
  · rw [List.concat_eq_append] at hlast
    obtain ⟨bytes, hpeek, hof⟩ := @entries_reverse n history h hn 0 last (by simp [hlast])
    have hcount : ((entries history).length != 0) = true := by simp [hlast]
    have hgetLast : (entries history).getLast? = some last := by rw [hlast, List.getLast?_concat]
    rw [hcount, if_pos rfl, hpeek, Run.ok_bind, hof, hgetLast]
    dsimp only
    rw [inputEqual_eq]
    by_cases heq : last = input
    · subst heq
      exact ⟨history, by simp, h, by simp⟩
    · have hne : ¬input = last := Ne.symm heq
      refine ⟨history', by simpa [hne] using hput, hgrowing, ?_⟩
      rw [if_neg (by simpa using heq), hpush]

theorem save_spec (h : history.Growing n 3) (hn : n < 255) (input : Input) :
    ∃ history', inputHistorySave history input = .ok history' ∧ history'.Growing n 3 ∧
      entries history' = if noticed input then Recent.remember n (entries history) input
        else entries history := by
  cases hinput : noticed input with
  | true => exact save_noticed h hn hinput
  | false =>
    have hskip : (input.enemy.position == .none && input.line == .none) = true := by
      rwa [noticed, Bool.not_eq_false'] at hinput
    exact ⟨history, by rw [inputHistorySave, hskip]; rfl, h, rfl⟩

def save (input : Input) (history : RingBuffer) : Except Assert RingBuffer :=
  inputHistorySave history input

theorem saves_spec (h : history.Growing n 3) (hn : n < 255) (inputs : List Input) :
    ∃ history', Run.run save inputs history = .ok history' ∧ history'.Growing n 3 ∧
      entries history' =
        (inputs.filter noticed).foldl (Recent.remember n) (entries history) := by
  induction inputs generalizing history with
  | nil => exact ⟨history, rfl, h, rfl⟩
  | cons input inputs ih =>
    obtain ⟨next, hsave, hgrowing, hentries⟩ := save_spec h hn input
    obtain ⟨history', hrun, hgrowing', hentries'⟩ := ih hgrowing
    refine ⟨history', Run.run_cons_ok.mpr ⟨next, hsave, hrun⟩, hgrowing', ?_⟩
    rw [hentries', hentries, List.filter_cons]
    split <;> rfl

theorem saves_retained (hn : 1 ≤ n) (hn' : n < 255) (inputs : List Input) :
    ∃ history', Run.run save inputs (.ofSize n 3) = .ok history' ∧ history'.Growing n 3 ∧
      entries history' = retained n inputs := by
  obtain ⟨history', hrun, hgrowing, hentries⟩ :=
    saves_spec (RingBuffer.ofSize_growing hn) hn' inputs
  refine ⟨history', hrun, hgrowing, ?_⟩
  rw [hentries, entries, RingBuffer.toList_ofSize, List.map_nil, Recent.foldl_remember hn,
    retained_eq, sightings]

theorem lastDirectedEnemyFrom_eq {offsets : List Nat} {read : Nat → Input}
    (h : ∀ offset ∈ offsets, ∃ bytes, history.peekHead offset = .ok bytes ∧
      Input.ofBytes bytes = read offset) :
    lastDirectedEnemyFrom history offsets =
      .ok (((offsets.map read).find? sided).elim enemyNone Input.enemy) := by
  induction offsets with
  | nil => rfl
  | cons offset offsets ih =>
    obtain ⟨bytes, hpeek, hof⟩ := h offset List.mem_cons_self
    have hrest := ih fun o ho => h o (List.mem_cons_of_mem _ ho)
    rw [lastDirectedEnemyFrom, hpeek, Run.ok_bind, hof, hrest, List.map_cons, List.find?_cons]
    cases hsided : sided (read offset) with
    | true =>
      rw [sided] at hsided
      simp only [hsided, if_true, Option.elim]
      rfl
    | false =>
      rw [sided] at hsided
      simp only [hsided, Bool.false_eq_true, if_false]

theorem lastDirectedEnemy_spec (h : history.Growing n 3) (hn : n < 255) :
    inputHistoryLastDirectedEnemy history =
      .ok ((lastSided (entries history)).elim enemyNone Input.enemy) := by
  have hread (offset : Nat) (hoffset : offset ∈ List.range history.count) :
      ∃ bytes, history.peekHead offset = .ok bytes ∧
        Input.ofBytes bytes = (entries history).reverse.getD offset ⟨enemyNone, .none⟩ := by
    rw [entries_length h hn, List.mem_range] at hoffset
    apply entries_reverse h hn
    rw [List.getD_eq_getElem?_getD]
    rw [List.getElem?_eq_getElem (by simpa using hoffset), Option.getD_some]
  rw [inputHistoryLastDirectedEnemy, lastDirectedEnemyFrom_eq hread, entries_length h hn, lastSided]
  congr 3
  apply List.ext_getElem (by simp)
  intro i hi hi'
  rw [List.getElem_map, List.getElem_range, List.getD_eq_getElem?_getD, List.getElem?_eq_getElem hi',
    Option.getD_some]

end

section

variable {cnt : BitVec 32} {data data' : StateMachineData} {event : StateEvent}

theorem Taken.inputHistory (h : Taken cnt data event data') :
    data'.inputHistory = data.inputHistory := by
  cases h <;> rfl

theorem Processed.inputHistory (h : Processed cnt data event data') :
    data'.inputHistory = data.inputHistory := by
  cases h <;> rfl

def Readings.input (readings : Readings) : Input := ⟨readings.enemy, readings.line⟩

theorem searchRun_rotate {enemy : Enemy} (hrotate : data.search.state = .rotate)
    (henemy : inputHistoryLastDirectedEnemy data.inputHistory = .ok enemy) :
    ∃ data', stateSearchRun cnt data = .ok data' ∧ data'.drives =
      .set (if enemyAtRight enemy then .rotateRight else .rotateLeft) .fast :: data.drives := by
  simp only [stateSearchRun, hrotate, henemy, Run.ok_bind, driveSet_eq]
  split <;> exact ⟨_, rfl, rfl⟩

theorem atRight_lastSided (sighting : Option Input) :
    enemyAtRight (sighting.elim enemyNone Input.enemy) = true ↔
      ∃ input, sighting = some input ∧ enemyAtRight input.enemy = true := by
  cases sighting with
  | none => simp [enemyNone, enemyAtRight]
  | some input => simp

end

theorem history_retains (n : Nat) (hn : 1 ≤ n) (hn' : n < 255) (inputs : List Input) :
    ∃ history, Run.run save inputs (.ofSize n 3) = .ok history ∧
      entries history = retained n inputs ∧
      inputHistoryLastDirectedEnemy history =
        .ok ((lastSided (retained n inputs)).elim enemyNone Input.enemy) ∧
      ∀ cnt data, data.inputHistory = history → data.search.state = .rotate →
        ∃ data' direction, stateSearchRun cnt data = .ok data' ∧
          data'.drives = .set direction .fast :: data.drives ∧
          (direction = .rotateRight ↔ ∃ input, lastSided (retained n inputs) = some input ∧
            enemyAtRight input.enemy = true) := by
  obtain ⟨history, hrun, hgrowing, hentries⟩ := saves_retained hn hn' inputs
  have hlast := lastDirectedEnemy_spec hgrowing hn'
  rw [hentries] at hlast
  refine ⟨history, hrun, hentries, hlast, fun cnt data hdata hrotate => ?_⟩
  obtain ⟨data', hrun', hdrives⟩ := @searchRun_rotate cnt data _ hrotate (hdata ▸ hlast)
  refine ⟨data', _, hrun', hdrives, ?_⟩
  rw [← atRight_lastSided]
  split
  case isTrue hright => exact iff_of_true rfl hright
  case isFalse hright => exact iff_of_false (by decide) hright

theorem history_retains_right :
    ∃ history, Run.run save
        [⟨⟨.left, .far⟩, .none⟩, ⟨⟨.right, .far⟩, .none⟩, ⟨enemyNone, .none⟩,
          ⟨⟨.right, .far⟩, .none⟩, ⟨⟨.front, .mid⟩, .none⟩] (.ofSize 2 3) = .ok history ∧
      entries history = [⟨⟨.right, .far⟩, .none⟩, ⟨⟨.front, .mid⟩, .none⟩] ∧
      inputHistoryLastDirectedEnemy history = .ok ⟨.right, .far⟩ := by
  obtain ⟨history, hrun, hentries, hlast, -⟩ := history_retains 2 (by decide) (by decide)
    [⟨⟨.left, .far⟩, .none⟩, ⟨⟨.right, .far⟩, .none⟩, ⟨enemyNone, .none⟩,
      ⟨⟨.right, .far⟩, .none⟩, ⟨⟨.front, .mid⟩, .none⟩]
  exact ⟨history, hrun, hentries, hlast⟩

end Nsumo.App
