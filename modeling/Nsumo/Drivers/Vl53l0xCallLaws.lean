import Nsumo.Drivers.Vl53l0xStartLaws

namespace Nsumo.Drivers

open Common Lib

namespace Vl53l0x

structure Polled (F : Prop) (P : Vl53l0x Observed → Prop) : Prop where
  address {s : Vl53l0x Observed} (idx : Vl53l0xIdx) (h : P s) :
    P { s with dev := Observed.bus.setSlaveAddress (vl53l0xCfgs idx) s.dev }
  passed {s : Vl53l0x Observed} (h : P s) : P (Vl53l0x.passed s)
  got {s : Vl53l0x Observed} (idx : Vl53l0xIdx) (h : P s) :
    P { s with dev := s.dev.got regResultInterruptStatus idx }
  fail {s : Vl53l0x Observed} (h : P s) : P { s with dev := s.dev.fail false }
  faulty {s : Vl53l0x Observed} (h : P s) :
    (s.dev.sensors.outcomes 0).error ≠ none → ¬F

def Tells (F : Prop) (done : Bool) (sensor : Sensor) : Prop :=
  sensor.page = 0 → (done = true → sensor.interrupt = true) ∧
    (sensor.interrupt = true → done = false → ¬F)

section

variable {F : Prop} {P : Vl53l0x Observed → Prop} {E : Vl53l0xStop → Vl53l0x Observed → Prop}
  {idx : Vl53l0xIdx}

theorem Polled.read (hP : Polled F P) :
    Triple (fun s => s.dev.sensors.slaveAddress = vl53l0xCfgs idx ∧ P s)
      (i2cReadAddr8Data8 Observed.bus regResultInterruptStatus)
      (fun r s => P s ∧
        Tells F (r.1 == none && r.2 &&& 0x07 != 0) (s.dev.sensors.sensor idx)) E := by
  rintro s ⟨haddr, hs⟩
  have hs := hP.passed hs
  have haddr : (Vl53l0x.passed s).dev.sensors.slaveAddress = vl53l0xCfgs idx := by
    rw [passed_eq]
    exact (Sensors.happen_frame (s.dev.sensors.events 0) s.dev.sensors).1.trans haddr
  have hother : regResultInterruptStatus ≠ regResultRangeStatus + 10 := by decide
  obtain hrun | ⟨herror, e, data, hrun⟩ := Observed.read8_cases haddr hother
  · rw [hrun]
    let t := Vl53l0x.passed s
    let values := (t.dev.sensors.outcomes 0).values
    let status := (t.dev.sensors.sensor idx).read values regResultInterruptStatus
    refine ⟨hP.got idx hs, ?_⟩
    rw [Observed.got_other hother]
    change Tells F (status &&& 0x07 != 0) (t.dev.sensors.sensor idx)
    refine fun hpage => ⟨fun hdone => ?_, fun hinterrupt hnot => ?_⟩
    · exact interruptStatus_done hpage (bne_iff_ne.mp hdone)
    · have hbits : status &&& 0x07 ≠ 0 := Sensor.status_of_interrupt hpage hinterrupt
      exact absurd (bne_iff_ne.mpr hbits) (ne_true_of_eq_false hnot)
  · rw [hrun]
    exact ⟨hP.fail hs, fun _ => ⟨fun hdone => absurd hdone Bool.false_ne_true,
      fun _ _ => hP.faulty hs herror⟩⟩

theorem Polled.isSysrangeDone (hP : Polled F P) (hfront : idx ∈ fronts) :
    Triple P (vl53l0xIsSysrangeDone Observed.bus idx)
      (fun b s => P s ∧ Tells F b (s.dev.sensors.sensor idx)) E := by
  refine .cond (fun hother => ?_) fun _ => ?_
  · simp only [fronts, List.mem_cons, List.not_mem_nil, or_false] at hfront
    tauto
  · refine Triple.bind (Q := fun _ s => s.dev.sensors.slaveAddress = vl53l0xCfgs idx ∧ P s)
      (.update fun _ h => ⟨rfl, hP.address idx h⟩) fun _ => ?_
    exact hP.read.bind fun r => .ret fun _ h => h

end

structure Finished (F : Prop) (q : Vl53l0xIdx → List (BitVec 16)) (done : List Vl53l0xIdx)
    (s : Vl53l0x Observed) : Prop where
  ranges : ∃ slave, Follows F (ranging q slave) s
  status : s.statusMultiple = .done
  finished : ∀ idx ∈ done, idx ∈ fronts → (s.dev.sensors.sensor idx).interrupt = true

def reading (q : Vl53l0xIdx → List (BitVec 16)) (ms : Vl53l0xIdx → BitVec 16) (stored : Bool)
    (left : List Vl53l0xIdx) (slave : Vl53l0xIdx) : Plan where
  expect idx :=
    if idx ∈ fronts then
      if idx ∈ left then .done (q idx) (ms idx) else .waits (q idx ++ [ms idx])
    else
      .waits (q idx)
  slave := slave
  page := 0
  signal := .served
  latest idx := if idx ∈ fronts ∧ idx ∉ left then toRange (ms idx) else cached (q idx)
  stored := stored

section

variable {F : Prop} {q q' : Vl53l0xIdx → List (BitVec 16)} {ms : Vl53l0xIdx → BitVec 16}
  {done : List Vl53l0xIdx} {idx slave : Vl53l0xIdx} {s : Vl53l0x Observed}
  {E : Vl53l0xStop → Vl53l0x Observed → Prop} {fuel : Nat}

theorem finished_polled : Polled F (Finished F q done) where
  address idx h := by
    obtain ⟨slave, hranges⟩ := h.ranges
    exact ⟨⟨idx, hranges.address rfl idx⟩, h.status, h.finished⟩
  passed {s} h := by
    obtain ⟨slave, hranges⟩ := h.ranges
    refine ⟨⟨slave, hranges.passed⟩, ?_, fun idx hidx hfront => ?_⟩
    · rw [passed_eq, h.status, ite_self]
    · rw [passed_eq]
      exact (Sensors.happen_kept (s.dev.sensors.events 0) idx s.dev.sensors).interrupt
        (h.finished idx hidx hfront)
  got {s} idx h := by
    obtain ⟨slave, hranges⟩ := h.ranges
    have hgot := @Follows.got _ _ _ regResultInterruptStatus hranges (by decide)
    rw [Observed.got_other (by decide)] at hgot ⊢
    exact ⟨⟨slave, hgot⟩, h.status, h.finished⟩
  fail h := by
    obtain ⟨slave, hranges⟩ := h.ranges
    exact ⟨⟨slave, hranges.fail false⟩, h.status, h.finished⟩
  faulty h := h.ranges.choose_spec.not_faultless

theorem stuck_polled (hF : ¬F) : Polled F Stuck where
  address _ h := ⟨h.initialized, h.started, h.latest, h.rest⟩
  passed h := h.passed
  got idx h := by
    rw [Observed.got_other (by decide)]
    exact ⟨h.initialized, h.started, h.latest, h.rest⟩
  fail h := ⟨h.initialized, h.started, h.latest, h.rest⟩
  faulty _ _ := hF

theorem Finished.page (h : Finished F q done s) (idx : Vl53l0xIdx) :
    (s.dev.sensors.sensor idx).page = 0 := by
  obtain ⟨slave, hranges⟩ := h.ranges
  exact (hranges.page idx).trans (ite_self _)

theorem Finished.mono {done' : List Vl53l0xIdx} (h : Finished F q done s) (hsub : done' ⊆ done) :
    Finished F q done' s :=
  ⟨h.ranges, h.status, fun idx hidx => h.finished idx (hsub hidx)⟩

theorem Finished.cons (h : Finished F q done s)
    (hfinished : idx ∈ fronts → (s.dev.sensors.sensor idx).interrupt = true) :
    Finished F q (idx :: done) s := by
  refine ⟨h.ranges, h.status, fun i hi hfront => ?_⟩
  obtain rfl | hi := List.mem_cons.mp hi
  · exact hfinished hfront
  · exact h.finished i hi hfront

theorem isSysrangeDone_finished :
    Triple (Finished F q done) (vl53l0xIsSysrangeDone Observed.bus idx)
      (fun b => Finished F q (if b then idx :: done else done)) E := by
  by_cases hfront : idx ∈ fronts
  · refine (finished_polled.isSysrangeDone hfront).conseq (fun _ h => h) (fun b s h => ?_)
      fun _ _ h => h
    split
    · rename_i hb
      exact h.1.cons fun _ => (h.2 (h.1.page idx)).1 hb
    · exact h.1
  · refine .cond (fun _ => .ret fun s h => h.cons fun h => absurd h hfront) fun hother => ?_
    simp only [fronts, List.mem_cons, List.not_mem_nil, or_false] at hfront
    tauto

theorem areSysrangesDone_finished (idxs : List Vl53l0xIdx) :
    Triple (Finished F q done) (areSysrangesDone Observed.bus idxs)
      (fun b => Finished F q (if b then idxs ++ done else [])) E :=
  areSysrangesDone_rule (fun _ h hsub => h.mono hsub) fun _ _ => isSysrangeDone_finished

theorem Finished.reading (h : Finished F q done s) (hleft : .frontLeft ∈ done)
    (hright : .frontRight ∈ done) :
    ∃ ms slave, Follows F (reading q ms false fronts slave) s := by
  obtain ⟨slave, hranges⟩ := h.ranges
  have hsignal : s.dev.sensors.edge = false ∧
      (s.dev.sensors.sensor .front).interrupt = true := by
    obtain ⟨hstatus, -⟩ | ⟨-, hsignal⟩ := hranges.signal
    · cases h.status.symm.trans hstatus
    · exact hsignal
  have hinterrupt : ∀ idx ∈ fronts, (s.dev.sensors.sensor idx).interrupt = true := by
    intro idx hidx
    have hmem := hidx
    simp only [fronts, List.mem_cons, List.not_mem_nil, or_false] at hmem
    obtain rfl | rfl | rfl := hmem
    · exact hsignal.2
    · exact h.finished _ hleft hidx
    · exact h.finished _ hright hidx
  have hdone (idx : Vl53l0xIdx) (hidx : idx ∈ fronts) :
      (Expect.done (q idx) (s.dev.sensors.sensor idx).range).Holds (s.dev.sensors.sensor idx)
        (s.dev.log idx) := by
    have hruns := hranges.expect idx
    rw [ranging, starting_started hidx List.not_mem_nil] at hruns
    obtain ⟨-, hnot, -⟩ | ⟨hstill, -, hlog⟩ := hruns
    · cases hnot.symm.trans (hinterrupt idx hidx)
    · exact ⟨hstill, hinterrupt idx hidx, rfl, hlog⟩
  refine ⟨fun idx => (s.dev.sensors.sensor idx).range, slave, hranges.initialized,
    hranges.slaveAddress, hranges.page, fun idx => ?_, ?_, ?_,
    fun hstored => Bool.noConfusion hstored, hranges.faultless⟩
  · have hexpect := hranges.expect idx
    by_cases hidx : idx ∈ fronts
    · simp only [Vl53l0x.reading, if_pos hidx]
      exact hdone idx hidx
    · simp only [Vl53l0x.reading, if_neg hidx]
      simpa only [ranging, starting, hidx, false_and, if_false] using hexpect
  · exact ⟨h.status, hsignal.1, (hdone .front (by decide)).1⟩
  · rw [hranges.latest]
    funext idx
    exact (if_neg fun hin => hin.2 hin.1).symm

theorem isSysrangeDone_stuck (hF : ¬F) :
    Triple (fun s => Stuck s ∧ .frontRight ∉ done) (vl53l0xIsSysrangeDone Observed.bus idx)
      (fun b s => Stuck s ∧ .frontRight ∉ (if b then idx :: done else done)) E := by
  by_cases hfront : idx ∈ fronts
  · rintro s ⟨hs, hnot⟩
    refine ((stuck_polled hF).isSysrangeDone (E := E) hfront).conseq (fun _ h => h)
      (fun b t h => ⟨h.1, ?_⟩) (fun _ _ h => h) s hs
    split
    · rename_i hb
      rintro hright
      obtain rfl | hright := List.mem_cons.mp hright
      · have hrest := h.1.rest
        exact Bool.false_ne_true (hrest.1.2.symm.trans ((h.2 hrest.2).1 hb))
      · exact hnot hright
    · exact hnot
  · refine .cond (fun _ => .ret fun s h => ⟨h.1, ?_⟩) fun hother => ?_
    · intro hright
      obtain rfl | hright := List.mem_cons.mp hright
      · exact hfront (by decide)
      · exact h.2 hright
    · simp only [fronts, List.mem_cons, List.not_mem_nil, or_false] at hfront
      tauto

theorem areSysrangesDone_stuck (hF : ¬F) {idxs : List Vl53l0xIdx} (hright : .frontRight ∈ idxs) :
    Triple Stuck (areSysrangesDone Observed.bus idxs) (fun b s => b = false ∧ Stuck s) E := by
  have hrun := @areSysrangesDone_rule Observed Observed.bus E
    (fun done s => Stuck s ∧ .frontRight ∉ done) [] idxs
    (fun s h hsub => ⟨h.1, fun hmem => h.2 (hsub hmem)⟩) fun _ _ => isSysrangeDone_stuck hF
  refine hrun.conseq (fun s h => ⟨h, List.not_mem_nil⟩) (fun b s h => ⟨?_, h.1⟩) fun _ _ h => h
  cases b with
  | false => rfl
  | true => exact absurd (List.mem_append_left _ hright) h.2

theorem isMultipleDone_follows :
    Triple (fun s => Between F q s ∧ s.statusMultiple ≠ .notStarted)
      (isMultipleDone Observed.bus)
      (fun b s => if b then ∃ ms slave, Follows F (reading q ms false fronts slave) s
        else Between F q s) E := by
  refine Triple.bind (Q := fun r s => r = s.statusMultiple ∧ Between F q s ∧
    s.statusMultiple ≠ .notStarted) (fun _ h => ⟨rfl, h.1.passed, passed_started h.2⟩)
    fun status => .cond (fun hstatus => ?_) fun _ => .ret fun _ h => h.2.1
  rintro s ⟨hs, h, hstarted⟩
  cases h with
  | fresh hq h => exact absurd h.signal.1 hstarted
  | @ranging slave h =>
    refine (@areSysrangesDone_finished F q [] E _).conseq (fun _ h => h)
      (fun b t h => ?_) (fun _ _ h => h) s ⟨⟨slave, h⟩, hs.symm.trans hstatus, by simp⟩
    cases b with
    | false =>
      obtain ⟨slave, hranges⟩ := h.ranges
      exact .ranging hranges
    | true => exact h.reading (by decide) (by decide)
  | stuck hF hq h =>
    refine (areSysrangesDone_stuck (E := E) hF (by decide)).conseq (fun _ h => h)
      (fun b t h => ?_) (fun _ _ h => h) s h
    rw [h.1]
    exact .stuck hF hq h.2

end

def Plan.hold (e : Expect) (range : Nat) (p : Plan) : Plan := { p with
  expect := Function.update p.expect p.slave e
  latest := Function.update p.latest p.slave range
  stored := true }

def storeRange (idx : Vl53l0xIdx) (range : Nat) (s : Vl53l0x Observed) : Vl53l0x Observed :=
  { s with latestRanges := fun i => if i = idx then range else s.latestRanges i }

theorem storeRange_self {idx : Vl53l0xIdx} {range : Nat} {s : Vl53l0x Observed}
    (h : s.latestRanges idx = range) : storeRange idx range s = s := by
  have hlatest : (fun i => if i = idx then range else s.latestRanges i) = s.latestRanges := by
    funext i
    split
    · rename_i hi
      rw [hi, h]
    · rfl
  rw [storeRange, hlatest]

theorem rounds_concat (l : List (BitVec 16)) (range : BitVec 16) :
    rounds (l ++ [range]) = rounds l ++ [.started, .completed range] ++ [.read range] := by
  simp [rounds]

namespace Sensor

theorem read_range {sensor : Sensor} (values : Byte → Byte) (hpage : sensor.page = 0) :
    (sensor.read values (regResultRangeStatus + 10 + 1)).toNat +
      256 * (sensor.read values (regResultRangeStatus + 10)).toNat = sensor.range.toNat := by
  rw [Sensor.read, if_neg (by rintro ⟨-, h⟩; revert h; decide),
    if_neg (by rintro ⟨-, h⟩; revert h; decide), if_pos ⟨hpage, by decide⟩,
    Sensor.read, if_neg (by rintro ⟨-, h⟩; revert h; decide), if_pos ⟨hpage, rfl⟩]
  have hlow : (sensor.range.extractLsb' 0 8).toNat = sensor.range.toNat % 256 := by
    simp [BitVec.extractLsb'_toNat]
  have hhigh : (sensor.range.extractLsb' 8 8).toNat = sensor.range.toNat / 256 := by
    have hlt := sensor.range.isLt
    rw [BitVec.extractLsb'_toNat, Nat.shiftRight_eq_div_pow]
    omega
  rw [hlow, hhigh]
  exact Nat.mod_add_div _ _

end Sensor

section

variable {F : Prop} {q : Vl53l0xIdx → List (BitVec 16)} {p : Plan} {s : Vl53l0x Observed}
  {e : Expect} {l : List (BitVec 16)} {range : BitVec 16} {old : Nat}

theorem Follows.storeRange (h : Follows F (p.hold e old) s) (range : Nat) :
    Follows F (p.hold e range) (storeRange p.slave range s) := by
  refine ⟨h.initialized, h.slaveAddress, h.page, h.expect, h.signal, ?_, h.stored, h.faultless⟩
  funext i
  rw [Vl53l0x.storeRange, h.latest]
  by_cases hi : i = p.slave
  · subst hi
    simp [Plan.hold]
  · simp [Plan.hold, hi]

theorem Observed.got_range {d : Observed} {idx : Vl53l0xIdx}
    (hpage : (d.sensors.sensor idx).page = 0) :
    d.got (regResultRangeStatus + 10) idx =
      note idx (.read (d.sensors.sensor idx).range) { d with
        sensors := { d.sensors with outcomes := fun k => d.sensors.outcomes (k + 1) }
        stored := true } := by
  simp only [got, hpage, decide_true, Bool.and_self, if_true, Bool.or_true]

theorem Follows.got_range (h : Follows F p s) (hdone : p.expect p.slave = .done l range)
    (hpage : p.page = 0) :
    Follows F (p.hold (.kept (l ++ [range])) (p.latest p.slave))
      { s with dev := s.dev.got (regResultRangeStatus + 10) p.slave } := by
  rw [Observed.got_range (h.page_slave.trans hpage)]
  have hslave := h.expect p.slave
  rw [hdone] at hslave
  obtain ⟨hstill, -, hrange, hlog⟩ := hslave
  refine ⟨h.initialized, h.slaveAddress, h.page, fun i => ?_, h.signal, ?_, fun _ => rfl,
    fun hF k => h.faultless hF (k + 1)⟩
  · by_cases hi : i = p.slave
    · subst hi
      simp only [Plan.hold, Observed.note, Function.update_self]
      refine ⟨hstill, ?_⟩
      rw [hlog, hrange, rounds_concat]
    · simp only [Plan.hold, Observed.note, Function.update_of_ne hi]
      exact h.expect i
  · rw [Plan.hold, Function.update_eq_self]
    exact h.latest

theorem Follows.wrote_clear (h : Follows F (p.hold e old) s) (hpage : p.page = 0)
    (hsignal : p.signal = .served)
    (hkept : ∀ sensor log, e.Holds sensor log → (Expect.kept l).Holds sensor log) :
    Follows F (p.hold (.waits l) old)
      { s with dev := s.dev.wrote regSystemInterruptClear 0x01 p.slave } := by
  have hwrite := Sensor.write_clear (h.page_slave.trans hpage)
  have hstarts : (s.dev.sensors.sensor p.slave).starts regSystemInterruptClear [0x01] = false :=
    Sensor.starts_plain (.inr (by decide))
  have hslave := h.expect p.slave
  simp only [Plan.hold, Function.update_self] at hslave
  obtain ⟨hstill, hlog⟩ := hkept _ _ hslave
  have hserved := h.signal
  change p.signal.Holds _ _ _ at hserved
  rw [hsignal] at hserved
  have hpage := (congrArg Sensor.page hwrite).trans h.page_slave
  have hexpect : (Expect.waits l).Holds
      ((s.dev.sensors.sensor p.slave).write regSystemInterruptClear 0x01)
      ((s.dev.wrote regSystemInterruptClear 0x01 p.slave).log p.slave) := by
    refine ⟨⟨(congrArg Sensor.measuring hwrite).trans hstill, congrArg Sensor.interrupt hwrite⟩, ?_⟩
    rw [Observed.wrote_log_self]
    exact (if_neg (ne_true_of_eq_false hstarts)).trans hlog
  have hfront : p.signal.Holds s.statusMultiple s.dev.sensors.edge
      ((s.dev.wrote regSystemInterruptClear 0x01 p.slave).sensors.sensor .front) := by
    rw [hsignal, Observed.wrote_sensors]
    refine ⟨hserved.1, hserved.2.1, ?_⟩
    by_cases hi : .front = p.slave
    · simp only [← hi, Function.update_self]
      rw [← hi] at hstill
      simp only [Plan.hold, ← hi] at hwrite
      exact (congrArg Sensor.measuring hwrite).trans hstill
    · simp only [Function.update_of_ne hi]
      exact hserved.2.2
  have hrun := h.wrote hpage hexpect hfront
  simp only [Plan.hold, Function.update_idem] at hrun ⊢
  exact hrun

def Stored (F : Prop) (q : Vl53l0xIdx → List (BitVec 16)) (p : Plan) (l : List (BitVec 16))
    (range : BitVec 16) (r : Option I2cError × Nat) : Vl53l0x Observed → Prop :=
  After (fun stop s => EndsAt F q stop (storeRange p.slave r.2 s))
    (fun s => r.2 = range.toNat ∧
      Follows F (p.hold (.kept (l ++ [range])) (p.latest p.slave)) s) r.1

theorem Fails.readRange (hfails : Fails F q p) (hdone : p.expect p.slave = .done l range)
    (hpage : p.page = 0) (hold : p.latest p.slave = old) (hlt : old < 65536) :
    Triple (Follows F p) (i2cReadAddr8Data16 Observed.bus (regResultRangeStatus + 10) old)
      (Stored F q p l range) (EndsAt F q) := by
  refine Triple.bind (Q := fun r => Stored F q p l range
    (r.1, (r.2.headD 0).toNat + 256 * (r.2.tail.headD 0).toNat)) ?_ fun r => .ret fun _ h => h
  intro s hs
  have hs := hs.passed
  generalize hdata : [BitVec.ofNat 8 old, BitVec.ofNat 8 (old / 256)] = data
  have hlength : data.length = 2 := by rw [← hdata]; rfl
  generalize hread : Observed.read (regResultRangeStatus + 10) data (passed s).dev = r
  have hrun : i2cReadBytes Observed.bus (regResultRangeStatus + 10) data s =
      .ok (r.1, r.2.1) { passed s with dev := r.2.2 } := by
    rw [← hread]
    rfl
  rw [hrun]
  obtain hok | ⟨herror, e, bytes, touched, hfail, -, hbytes⟩ :=
    Observed.read_cases hs.slaveAddress (regResultRangeStatus + 10) data
  · have hslave := hs.expect p.slave
    rw [hdone] at hslave
    rw [hlength] at hok
    obtain rfl := hread.symm.trans hok
    refine ⟨?_, hs.got_range hdone hpage⟩
    rw [← hslave.2.2.1]
    exact Sensor.read_range _ (hs.page_slave.trans hpage)
  · obtain rfl := hread.symm.trans hfail
    have hF := hs.not_faultless herror
    refine fun _ => ⟨hF, fun r hr => ?_⟩
    cases hr
    refine ⟨rfl, fun hclean => ?_⟩
    have htouched : touched = false := by
      have htorn := hclean.1
      simp only [storeRange, Observed.fail, Bool.or_eq_false_iff] at htorn
      exact htorn.2
    subst htouched
    have hsame : ((bytes.headD 0).toNat + 256 * (bytes.tail.headD 0).toNat) = old := by
      rw [hbytes rfl rfl, ← hdata]
      simp only [List.headD_cons, List.tail_cons, BitVec.toNat_ofNat]
      omega
    rw [hsame]
    have hcached := @storeRange_self p.slave old { passed s with dev := (passed s).dev.fail false }
      ((congrFun hs.latest p.slave).trans hold)
    exact (congrArg (Between F q) hcached).mpr (hfails hF _ hs hclean)

def Held (F : Prop) (p : Plan) (range : BitVec 16) (e : Expect) (stored : Nat)
    (s : Vl53l0x Observed) : Prop :=
  stored = range.toNat ∧ Follows F (p.hold e stored) s

theorem hold_clear {e : Expect} {stored : Nat} (hpage : p.page = 0) (hsignal : p.signal = .served)
    (hkept : ∀ sensor log, e.Holds sensor log → (Expect.kept l).Holds sensor log) :
    Triple (Follows F (p.hold e stored))
      (i2cWriteAddr8Data8 Observed.bus regSystemInterruptClear 0x01)
      (After (EndsAt F q) (Follows F (p.hold (.waits l) stored))) (EndsAt F q) :=
  (fails_stored rfl).write fun _ h => h.wrote_clear hpage hsignal hkept

theorem Fails.holdRange {P : Vl53l0x Observed → Prop} {fuel : Nat} (hfails : Fails F q p)
    (hdone : p.expect p.slave = .done l range) (hpage : p.page = 0) (hsignal : p.signal = .served)
    (hlt : p.latest p.slave < 65536)
    (haddress : Triple P (i2cSetSlaveAddress Observed.bus (vl53l0xCfgs p.slave))
      (fun _ => Follows F p) (EndsAt F q)) :
    Triple P (vl53l0xReadRange Observed.bus fuel p.slave)
      (fun _ => Follows F (p.hold (.waits (l ++ [range])) (toRange range))) (EndsAt F q) := by
  have hrange (old : Nat) : Triple (fun s => Follows F p s ∧ s.latestRanges p.slave = old)
      (i2cReadAddr8Data16 Observed.bus (regResultRangeStatus + 10) old) (Stored F q p l range)
      (EndsAt F q) := by
    rintro s ⟨hs, hold⟩
    have hold : p.latest p.slave = old := (congrFun hs.latest p.slave).symm.trans hold
    exact hfails.readRange hdone hpage hold (hold ▸ hlt) s hs
  have hstore (error : Option I2cError) (stored : Nat) :
      Triple (Stored F q p l range (error, stored)) (setLatestRange p.slave stored)
        (fun _ => After (EndsAt F q) (Held F p range (.kept (l ++ [range])) stored) error)
        (EndsAt F q) := by
    refine .update fun s h => ?_
    cases error with
    | none => exact ⟨h.1, h.2.storeRange stored⟩
    | some e => exact h
  have hclear (stored : Nat) : Triple (Held F p range (.kept (l ++ [range])) stored)
      (i2cWriteAddr8Data8 Observed.bus regSystemInterruptClear 0x01)
      (After (EndsAt F q) (Held F p range (.waits (l ++ [range])) stored)) (EndsAt F q) :=
    .guarded fun hstored => (hold_clear hpage hsignal fun _ _ h => h).conseq (fun _ h => h)
      (fun _ _ h => h.mono fun _ h => ⟨hstored, h⟩) fun _ _ h => h
  refine readRange_rule endsAt_fuel haddress (hfails.read (by decide)) hrange hstore hclear
    (fun stored => .update fun s h => ?_) (hold_clear hpage hsignal fun _ _ h => ⟨h.1.1, h.2⟩)
  have hmapped : (if stored = 8190 ∨ stored = 8191 then vl53l0xOutOfRange else stored) =
      toRange range := by rw [h.1, toRange]
  rw [hmapped]
  exact h.2.storeRange (toRange range)

end

theorem cached_lt (l : List (BitVec 16)) : cached l < 65536 := by
  have hrange (range : BitVec 16) : toRange range < 65536 := by
    rw [toRange]
    split
    · decide
    · exact range.isLt
  rw [cached]
  cases l.getLast? with
  | none => decide
  | some range => exact hrange range

theorem cached_concat (l : List (BitVec 16)) (range : BitVec 16) :
    cached (l ++ [range]) = toRange range := by
  simp [cached]

def extend (q : Vl53l0xIdx → List (BitVec 16)) (ms : Vl53l0xIdx → BitVec 16) (idx : Vl53l0xIdx) :
    List (BitVec 16) :=
  if idx ∈ fronts then q idx ++ [ms idx] else q idx

section

variable {F : Prop} {q q' : Vl53l0xIdx → List (BitVec 16)} {ms : Vl53l0xIdx → BitVec 16}
  {stored : Bool} {left : List Vl53l0xIdx} {idx slave : Vl53l0xIdx} {fuel : Nat}

theorem reading_expect (hfront : idx ∈ fronts) (hleft : idx ∈ left) :
    (reading q ms stored left slave).expect idx = .done (q idx) (ms idx) :=
  (if_pos hfront).trans (if_pos hleft)

theorem reading_latest_lt (i : Vl53l0xIdx) (hleft : i ∈ left) :
    (reading q ms stored left slave).latest i < 65536 :=
  lt_of_eq_of_lt (if_neg fun hin => hin.2 hleft) (cached_lt _)

theorem reading_read (stored : Bool) (hfront : idx ∈ fronts) (hnot : idx ∉ left) :
    reading q ms true left idx =
      (reading q ms stored (idx :: left) idx).hold (.waits (q idx ++ [ms idx]))
        (toRange (ms idx)) := by
  rw [reading, Plan.hold, Plan.mk.injEq]
  refine ⟨funext fun i => ?_, rfl, rfl, rfl, funext fun i => ?_, rfl⟩
  · by_cases hi : i = idx
    · subst hi
      simp [reading, hfront, hnot]
    · simp [reading, hi]
  · by_cases hi : i = idx
    · subst hi
      simp [reading, hfront, hnot]
    · simp [reading, hi]

theorem reading_resting :
    reading q ms true [] slave = resting (extend q ms) true slave .served := by
  rw [reading, resting, Plan.mk.injEq]
  refine ⟨funext fun i => ?_, rfl, rfl, rfl, funext fun i => ?_, rfl⟩
  · by_cases hi : i ∈ fronts
    · simp [extend, hi]
    · simp [extend, hi]
  · by_cases hi : i ∈ fronts
    · simp [extend, hi, cached_concat]
    · simp [extend, hi]

theorem readRange_follows (hfront : idx ∈ fronts) (hnot : idx ∉ left)
    (hfails : Fails F q' (reading q ms stored (idx :: left) idx)) :
    Triple (Follows F (reading q ms stored (idx :: left) slave))
      (vl53l0xReadRange Observed.bus fuel idx)
      (fun _ => Follows F (reading q ms true left idx)) (EndsAt F q') := by
  rw [reading_read stored hfront hnot]
  exact hfails.holdRange (reading_expect hfront List.mem_cons_self) rfl rfl
    (reading_latest_lt idx List.mem_cons_self) (Follows.address_triple rfl)

theorem fails_reading : Fails F q (reading q ms false fronts slave) := by
  intro _ s hs _
  have hfront := hs.expect .front
  rw [reading_expect (by decide) (by decide)] at hfront
  refine @Between.ranging F q _ slave ⟨hs.initialized, hs.slaveAddress, hs.page, fun idx => ?_, ?_,
    ?_, fun hstored => Bool.noConfusion hstored, fun hF k => hs.faultless hF (k + 1)⟩
  · have hexpect := hs.expect idx
    by_cases hidx : idx ∈ fronts
    · rw [reading_expect hidx hidx] at hexpect
      rw [ranging, starting_started hidx List.not_mem_nil]
      obtain ⟨hstill, hinterrupt, hrange, hlog⟩ := hexpect
      rw [← hrange] at hlog
      exact .inr ⟨hstill, hinterrupt, hlog⟩
    · simp only [reading, if_neg hidx] at hexpect
      simp only [ranging, starting, hidx, false_and, if_false]
      exact hexpect
  · exact .inr ⟨hs.signal.1, hs.signal.2.1, hfront.2.1⟩
  · refine hs.latest.trans (funext fun idx => ?_)
    exact if_neg fun hin => hin.2 hin.1

theorem reading_polled :
    Polled F fun s => ∃ slave, Follows F (reading q ms false fronts slave) s where
  address := by
    rintro s idx ⟨slave, h⟩
    exact ⟨idx, h.address rfl idx⟩
  passed := by
    rintro s ⟨slave, h⟩
    exact ⟨slave, h.passed⟩
  got := by
    rintro s idx ⟨slave, h⟩
    have hgot := @Follows.got _ _ _ regResultInterruptStatus h (by decide)
    rw [Observed.got_other (by decide)] at hgot ⊢
    exact ⟨slave, hgot⟩
  fail := by
    rintro s ⟨slave, h⟩
    exact ⟨slave, h.fail false⟩
  faulty := by
    rintro s ⟨slave, h⟩
    exact h.not_faultless

theorem sanity_follows {E : Vl53l0xStop → Vl53l0x Observed → Prop} :
    Triple (fun s => ∃ slave, Follows F (reading q ms false fronts slave) s)
      (vl53l0xIsSysrangeDone Observed.bus .front)
      (fun b s => (b = false → ¬F) ∧ ∃ slave, Follows F (reading q ms false fronts slave) s) E := by
  refine (reading_polled.isSysrangeDone (by decide)).conseq (fun _ h => h) (fun b s h => ?_)
    fun _ _ h => h
  obtain ⟨⟨slave, hreading⟩, htells⟩ := h
  have hdone := hreading.expect .front
  rw [reading_expect (by decide) (by decide)] at hdone
  have hpage := (hreading.page .front).trans (ite_self _)
  exact ⟨(htells hpage).2 hdone.2.1, slave, hreading⟩

theorem assert_follows {P : Vl53l0x Observed → Prop} (expression : Bool) :
    Triple (fun s => (expression = false → ¬F) ∧ P s) (vl53l0xAssert expression) (fun _ => P)
      (EndsAt F q) := by
  refine .cond (fun _ => .ret fun s h => h.2) fun hnot => .raise fun s h _ => ?_
  exact ⟨h.1 ((Bool.not_eq_true _).mp hnot), fun r hr => Vl53l0xStop.noConfusion hr⟩

theorem Follows.unstored {p : Plan} {s : Vl53l0x Observed} (h : Follows F p s) :
    Follows F { p with stored := false } s :=
  ⟨h.initialized, h.slaveAddress, h.page, h.expect, h.signal, h.latest,
    fun hstored => Bool.noConfusion hstored, h.faultless⟩

theorem readSensors_follows :
    Triple (fun s => ∃ slave, Follows F (reading q ms false fronts slave) s)
      (readSensors Observed.bus fuel)
      (fun _ => Follows F (ranging (extend q ms) .frontRight)) (EndsAt F q) := by
  refine sanity_follows.bind fun done => (assert_follows done).bind fun _ => ?_
  refine (Triple.some fun slave => readRange_follows (by decide) (by decide) fails_reading).bind
    fun _ => ?_
  refine (readRange_follows (by decide) (by decide) (fails_stored rfl)).bind fun _ => ?_
  refine (readRange_follows (by decide) (by decide) (fails_stored rfl)).bind fun _ => ?_
  rw [reading_resting]
  refine (startMeasuring_follows (.inr rfl) (fun _ _ _ _ => fails_stored rfl)
    (fails_stored rfl)).conseq (fun _ h => h) (fun _ _ h => h.unstored) fun _ _ h => h

theorem readRangeMultiple_follows :
    Triple (Between F q) (vl53l0xReadRangeMultiple Observed.bus fuel)
      (fun ranges s => ranges.ranges = s.latestRanges ∧
        if ranges.freshValues then ∃ ms, Between F (extend q ms) s else Between F q s)
      (EndsAt F q) := by
  refine Triple.bind (Q := fun r s => (r.initialized = false → ¬F) ∧ Between F q s)
    (.read fun s h => ⟨fun hnot => absurd h.initialized (ne_true_of_eq_false hnot), h⟩) fun r => ?_
  refine (assert_follows r.initialized).bind fun _ => ?_
  refine startIfNotStarted_follows.bind fun _ => ?_
  refine isMultipleDone_follows.bind fun done => .cond (fun hdone => ?_) fun hdone => ?_
  · simp only [if_pos hdone]
    refine Triple.bind (Q := fun _ s => ∃ ms, Between F (extend q ms) s)
      (.some fun ms => readSensors_follows.conseq (fun _ h => h) (fun _ s h => ⟨ms, .ranging h⟩)
        fun _ _ h => h) fun _ => ?_
    refine Triple.bind (Q := fun r s => r = s ∧ ∃ ms, Between F (extend q ms) s)
      (.read fun _ h => ⟨rfl, h⟩) fun r => .ret fun s h => ?_
    exact ⟨congrArg latestRanges h.1, h.2⟩
  · simp only [if_neg hdone]
    refine Triple.bind (Q := fun r s => r = s ∧ Between F q s) (.read fun _ h => ⟨rfl, h⟩)
      fun r => .ret fun s h => ?_
    exact ⟨congrArg latestRanges h.1, h.2⟩

end

end Vl53l0x

end Nsumo.Drivers
