import Nsumo.Drivers.Vl53l0xRangingLaws
import Nsumo.Drivers.Vl53l0xRules

namespace Nsumo.Drivers

open Common Lib

namespace Vl53l0x

/-- The status of the sensor may read as finished: registers of other pages read anything. -/
def Sensor.MayReadDone (s : Sensor) : Prop := s.page ≠ 0 ∨ s.interrupt = true

instance (s : Sensor) : Decidable s.MayReadDone := inferInstanceAs (Decidable (_ ∨ _))

/-- No transfer has failed while the front sensor was idle and both side sensors could read as
finished. -/
def Unbroken (d : Sensors) : Prop :=
  ∀ sensor ∈ d.failed,
    ¬((sensor .front).Idle ∧ (sensor .frontLeft).MayReadDone ∧ (sensor .frontRight).MayReadDone)

instance (d : Sensors) : Decidable (Unbroken d) := List.decidableBAll _ d.failed

def Checks (fuel : Nat) (s u : Vl53l0x Sensors) : Prop :=
  ∃ m, startIfNotStarted Sensors.bus fuel s = .ok () m ∧ isMultipleDone Sensors.bus m = .ok true u

def SanityReadGoesThrough (fuel : Nat) (s : Vl53l0x Sensors) : Prop :=
  ∀ u, Checks fuel s u → (u.dev.outcomes 0).error = none

namespace Sensor

structure Sound (s : Sensor) : Prop where
  alone : s.measuring = true → s.interrupt = false
  paged : s.page ≠ 0 → s.Idle

theorem not_measuring {s : Sensor} (halone : s.measuring = true → s.interrupt = false)
    (hinterrupt : s.interrupt = true) : s.measuring = false := by
  cases hmeasuring : s.measuring with
  | false => rfl
  | true => simp [halone hmeasuring] at hinterrupt

theorem Sound.not_measuring {s : Sensor} (h : s.Sound) (hinterrupt : s.interrupt = true) :
    s.measuring = false := Sensor.not_measuring h.alone hinterrupt

def AtRest (s : Sensor) : Prop := s.Idle ∧ s.page = 0

theorem Sound.rest_of_not_done {s : Sensor} (hmeasuring : s.measuring = false)
    (h : ¬s.MayReadDone) : s.AtRest := by
  rw [MayReadDone, not_or, not_not, Bool.not_eq_true] at h
  exact ⟨⟨hmeasuring, h.2⟩, h.1⟩

theorem AtRest.not_mayReadDone {s : Sensor} (h : s.AtRest) : ¬s.MayReadDone := by
  rintro (hpage | hinterrupt)
  · exact hpage h.2
  · simp [h.1.2] at hinterrupt

end Sensor

structure Started (s : Vl53l0x Sensors) : Prop where
  initialized : s.initialized = true
  sound (idx : Vl53l0xIdx) : (s.dev.sensor idx).Sound
  front : s.statusMultiple = .measuring ∧ s.dev.edge = (s.dev.sensor .front).interrupt ∨
    s.statusMultiple = .done ∧ s.dev.edge = false ∧ (s.dev.sensor .front).interrupt = true

structure ReadingOut (s : Vl53l0x Sensors) : Prop where
  initialized : s.initialized = true
  sound (idx : Vl53l0xIdx) : (s.dev.sensor idx).Sound
  done : s.statusMultiple = .done
  edge : s.dev.edge = false
  still : ∀ idx ∈ fronts, (s.dev.sensor idx).measuring = false

inductive Checkable (s : Vl53l0x Sensors) : Prop
  | fresh (initialized : s.initialized = true) (status : s.statusMultiple = .notStarted)
    (edge : s.dev.edge = false) (rest : ∀ idx, (s.dev.sensor idx).AtRest)
  | started (h : Started s)
  | stuck (initialized : s.initialized = true) (sound : ∀ idx, (s.dev.sensor idx).Sound)
    (status : s.statusMultiple = .done) (edge : s.dev.edge = false)
    (front : (s.dev.sensor .front).measuring = false)
    (rest : (s.dev.sensor .frontLeft).AtRest ∨ (s.dev.sensor .frontRight).AtRest)

theorem ReadingOut.checkable {s : Vl53l0x Sensors} (h : ReadingOut s)
    (hbroken : ¬((s.dev.sensor .front).Idle ∧ (s.dev.sensor .frontLeft).MayReadDone ∧
      (s.dev.sensor .frontRight).MayReadDone)) : Checkable s := by
  cases hinterrupt : (s.dev.sensor .front).interrupt with
  | true => exact .started ⟨h.initialized, h.sound, .inr ⟨h.done, h.edge, hinterrupt⟩⟩
  | false =>
    have hfront := h.still .front (by decide)
    have hsides := not_and_or.mp fun hsides => hbroken ⟨⟨hfront, hinterrupt⟩, hsides⟩
    exact .stuck h.initialized h.sound h.done h.edge hfront
      (hsides.imp (Sensor.Sound.rest_of_not_done (h.still _ (by decide)))
        (Sensor.Sound.rest_of_not_done (h.still _ (by decide))))

namespace Sensors

section

variable {idx i : Vl53l0xIdx} {range : BitVec 16} {d : Sensors}

theorem complete_sound (h : (d.sensor i).Sound) : ((d.complete idx range).sensor i).Sound := by
  cases hmeasuring : (d.sensor i).measuring with
  | false => rwa [complete_still hmeasuring]
  | true =>
    by_cases hi : i = idx
    · subst hi
      rw [complete_self hmeasuring]
      refine ⟨nofun, fun hpage => ?_⟩
      simp [(h.paged hpage).1] at hmeasuring
    · rwa [complete_of_ne hi]

theorem complete_edge
    (halone : (d.sensor .front).measuring = true → (d.sensor .front).interrupt = false)
    (hedge : d.edge = (d.sensor .front).interrupt) :
    (d.complete idx range).edge = ((d.complete idx range).sensor .front).interrupt := by
  cases hmeasuring : (d.sensor idx).measuring with
  | false => rwa [complete_not_measuring hmeasuring]
  | true =>
    by_cases hidx : idx = .front
    · subst hidx
      rw [complete_self hmeasuring, complete, if_pos hmeasuring, halone hmeasuring]
      simp
    · rw [complete_of_ne (Ne.symm hidx), complete, if_pos hmeasuring, ← hedge]
      simp [hidx]

theorem happen_sound (events : List SensorEvent) (h : (d.sensor i).Sound) :
    ((happen events d).2.sensor i).Sound := by
  induction events generalizing d with
  | nil => exact h
  | cons event events ih =>
    cases event with
    | complete idx range => exact ih (complete_sound h)
    | frontInterrupt => exact @ih { d with edge := false } h

theorem happen_front (events : List SensorEvent)
    (halone : (d.sensor .front).measuring = true → (d.sensor .front).interrupt = false)
    (hedge : d.edge = (d.sensor .front).interrupt) :
    (happen events d).1 = false ∧
        (happen events d).2.edge = ((happen events d).2.sensor .front).interrupt ∨
      (happen events d).1 = true ∧ (happen events d).2.edge = false ∧
        ((happen events d).2.sensor .front).interrupt = true := by
  induction events generalizing d with
  | nil => exact .inl ⟨rfl, hedge⟩
  | cons event events ih =>
    cases event with
    | complete idx range =>
      exact ih ((complete_kept idx .front range d).alone halone) (complete_edge halone hedge)
    | frontInterrupt =>
      cases hpending : d.edge with
      | false =>
        have hsame : { d with edge := false } = d := by rw [← hpending]
        rw [happen, hsame, hpending, Bool.false_or]
        exact ih halone hedge
      | true =>
        have hinterrupt : (d.sensor .front).interrupt = true := hedge.symm.trans hpending
        have hstill := Sensor.not_measuring halone hinterrupt
        obtain ⟨-, hafter⟩ := @happen_quiet { d with edge := false } events rfl hstill
        have hsensor := @happen_still .front { d with edge := false } events hstill
        refine .inr ⟨by rw [happen, hpending, Bool.true_or], hafter, ?_⟩
        rw [happen, hsensor]
        exact hinterrupt

end

end Sensors

section

variable {s : Vl53l0x Sensors}

theorem elapsed_sound {idx : Vl53l0xIdx} (h : (s.dev.sensor idx).Sound) :
    ((elapsed s).dev.sensor idx).Sound := by
  rw [elapsed_dev]
  exact Sensors.happen_sound (s.dev.events 0) h

theorem Started.elapsed (h : Started s) : Started (elapsed s) := by
  have hsound := h.sound .front
  constructor
  · rw [elapsed_initialized, h.initialized]
  · exact fun idx => elapsed_sound (h.sound idx)
  · obtain ⟨hstatus, hedge⟩ | ⟨hstatus, hedge, hinterrupt⟩ := h.front
    · rw [elapsed_statusMultiple, elapsed_dev]
      obtain ⟨hfired, hafter⟩ | ⟨hfired, hafter, hfinished⟩ :=
        Sensors.happen_front (s.dev.events 0) hsound.alone hedge
      · exact .inl ⟨by rw [Sensors.elapse, hfired]; exact hstatus, hafter⟩
      · exact .inr ⟨by rw [Sensors.elapse, hfired]; rfl, hafter, hfinished⟩
    · have hstill := hsound.not_measuring hinterrupt
      obtain ⟨hkept, hafter⟩ := elapsed_quiet hedge hstill
      refine .inr ⟨hkept.trans hstatus, hafter, ?_⟩
      rw [elapsed_still hstill]
      exact hinterrupt

theorem ReadingOut.elapsed (h : ReadingOut s) : ReadingOut (elapsed s) := by
  have hfront := h.still .front (by decide)
  obtain ⟨hkept, hafter⟩ := elapsed_quiet h.edge hfront
  constructor
  · rw [elapsed_initialized, h.initialized]
  · exact fun idx => elapsed_sound (h.sound idx)
  · exact hkept.trans h.done
  · exact hafter
  · intro idx hidx
    have hstill := h.still idx hidx
    rw [elapsed_still hstill]
    exact hstill

theorem atRest_elapsed {idx : Vl53l0xIdx} (h : (s.dev.sensor idx).AtRest) :
    ((elapsed s).dev.sensor idx).AtRest := by
  rw [elapsed_still h.1.1]
  exact h

theorem Checkable.elapsed (h : Checkable s) : Checkable (elapsed s) := by
  cases h with
  | fresh initialized status edge rest =>
    obtain ⟨hkept, hafter⟩ := elapsed_quiet edge (rest .front).1.1
    refine .fresh ?_ (hkept.trans status) hafter fun idx => atRest_elapsed (rest idx)
    rw [elapsed_initialized, initialized]
  | started h => exact .started h.elapsed
  | stuck initialized sound status edge front rest =>
    obtain ⟨hkept, hafter⟩ := elapsed_quiet edge front
    refine .stuck ?_ (fun idx => elapsed_sound (sound idx)) (hkept.trans status) hafter ?_
      (rest.imp atRest_elapsed atRest_elapsed)
    · rw [elapsed_initialized, initialized]
    · rw [elapsed_still front]
      exact front

end

def Ends (stop : Vl53l0xStop) (t : Vl53l0x Sensors) : Prop :=
  stop ≠ .assert ∧ ∀ r, stop = .result r → Unbroken t.dev → Checkable t

def core (s : Vl53l0x Sensors) : Bool × StatusMultiple × (Vl53l0xIdx → Sensor) × Bool :=
  (s.initialized, s.statusMultiple, s.dev.sensor, s.dev.edge)

theorem core_sensor {s t : Vl53l0x Sensors} (h : core s = core t) : s.dev.sensor = t.dev.sensor :=
  congrArg (fun c => c.2.2.1) h

structure Stage (P : Vl53l0x Sensors → Prop) : Prop where
  same {s t : Vl53l0x Sensors} : P s → core s = core t → P t
  elapsed {s : Vl53l0x Sensors} : P s → P (elapsed s)
  fail {s : Vl53l0x Sensors} : P s → Ends (.result .errorI2c) { s with dev := s.dev.fail }

def At (idx : Vl53l0xIdx) (P : Vl53l0x Sensors → Prop) (s : Vl53l0x Sensors) : Prop :=
  s.dev.slaveAddress = vl53l0xCfgs idx ∧ P s

theorem elapsed_slaveAddress (s : Vl53l0x Sensors) :
    (elapsed s).dev.slaveAddress = s.dev.slaveAddress := by
  rw [elapsed_dev]
  exact (Sensors.happen_frame (s.dev.events 0) s.dev).1

theorem ends_fuel (t : Vl53l0x Sensors) : Ends .fuel t := ⟨nofun, nofun⟩

section

variable {P Q : Vl53l0x Sensors → Prop} {idx : Vl53l0xIdx} {reg data : Byte} {fuel : Nat}

theorem At.elapsed (hP : Stage P) {s : Vl53l0x Sensors} (h : At idx P s) : At idx P (elapsed s) :=
  ⟨(elapsed_slaveAddress s).trans h.1, hP.elapsed h.2⟩

theorem Stage.address (hP : Stage P) :
    Triple P (i2cSetSlaveAddress Sensors.bus (vl53l0xCfgs idx)) (fun _ => At idx P) Ends :=
  .update fun _ h => ⟨rfl, hP.same h rfl⟩

theorem Stage.write (hP : Stage P) (hQ : ∀ s, P s → Q (written reg data idx s)) :
    Triple (At idx P) (i2cWriteAddr8Data8 Sensors.bus reg data) (After Ends (At idx Q)) Ends := by
  intro s hs
  obtain ⟨haddr, hPs⟩ := hs.elapsed hP
  change After Ends (At idx Q) (Sensors.write reg [data] (Vl53l0x.elapsed s).dev).1
    { Vl53l0x.elapsed s with dev := (Sensors.write reg [data] (Vl53l0x.elapsed s).dev).2 }
  obtain hok | ⟨e, herror⟩ := Sensors.write_cases haddr reg data
  · rw [hok]
    exact ⟨haddr, hQ _ hPs⟩
  · rw [herror]
    exact hP.fail hPs

theorem Stage.readBytes (hP : Stage P) (bytes : List Byte) :
    Triple (At idx P) (i2cReadBytes Sensors.bus reg bytes) (fun r => After Ends (At idx P) r.1)
      Ends := by
  intro s hs
  obtain ⟨haddr, hPs⟩ := hs.elapsed hP
  change After Ends (At idx P) (Sensors.read reg bytes (Vl53l0x.elapsed s).dev).1
    { Vl53l0x.elapsed s with dev := (Sensors.read reg bytes (Vl53l0x.elapsed s).dev).2.2 }
  obtain hok | ⟨-, e, read, herror⟩ := Sensors.read_cases haddr reg bytes
  · rw [hok]
    exact ⟨haddr, hP.same hPs rfl⟩
  · rw [herror]
    exact hP.fail hPs

theorem Stage.read (hP : Stage P) :
    Triple (At idx P) (i2cReadAddr8Data8 Sensors.bus reg) (fun r => After Ends (At idx P) r.1)
      Ends :=
  (hP.readBytes [0]).bind fun _ => .ret fun _ h => h

theorem Stage.read16 (hP : Stage P) {old : Nat} :
    Triple (At idx P) (i2cReadAddr8Data16 Sensors.bus reg old)
      (fun r => After Ends (At idx P) r.1) Ends :=
  (hP.readBytes _).bind fun _ => .ret fun _ h => h

theorem Checkable.same {s t : Vl53l0x Sensors} (h : Checkable s) (hcore : core s = core t) :
    Checkable t := by
  have hsensor := core_sensor hcore
  simp only [core, Prod.mk.injEq] at hcore
  obtain ⟨hinitialized, hstatus, -, hedge⟩ := hcore
  cases h with
  | fresh initialized status edge rest =>
    exact .fresh (hinitialized ▸ initialized) (hstatus ▸ status) (hedge ▸ edge) (hsensor ▸ rest)
  | started h =>
    exact .started ⟨hinitialized ▸ h.initialized, hsensor ▸ h.sound,
      hstatus ▸ hedge ▸ hsensor ▸ h.front⟩
  | stuck initialized sound status edge front rest =>
    exact .stuck (hinitialized ▸ initialized) (hsensor ▸ sound) (hstatus ▸ status) (hedge ▸ edge)
      (hsensor ▸ front) (hsensor ▸ rest)

theorem Stage.latest (hP : Stage P) {range : Nat} (error : Option I2cError) :
    Triple (After Ends (At idx P) error) (setLatestRange idx range)
      (fun _ => After Ends (At idx P) error) Ends := by
  refine .update fun s h => ?_
  cases error with
  | none => exact ⟨h.1, hP.same h.2 rfl⟩
  | some e => exact ⟨h.1, fun r hr hunbroken => (h.2 r hr hunbroken).same rfl⟩

end

def Starting (waiting : List Vl53l0xIdx) (s : Vl53l0x Sensors) : Prop :=
  Started s ∧ ∀ idx ∈ waiting, (s.dev.sensor idx).Idle

def Reading (cleared : List Vl53l0xIdx) (s : Vl53l0x Sensors) : Prop :=
  ReadingOut s ∧ ∀ idx ∈ cleared, (s.dev.sensor idx).Idle

theorem idle_elapsed {s : Vl53l0x Sensors} {idx : Vl53l0xIdx} (h : (s.dev.sensor idx).Idle) :
    ((elapsed s).dev.sensor idx).Idle := by
  rw [elapsed_still h.1]
  exact h

theorem Started.same {s t : Vl53l0x Sensors} (h : Started s) (hcore : core s = core t) :
    Started t := by
  simp only [core, Prod.mk.injEq] at hcore
  obtain ⟨hinitialized, hstatus, hsensor, hedge⟩ := hcore
  exact ⟨hinitialized ▸ h.initialized, hsensor ▸ h.sound, hstatus ▸ hedge ▸ hsensor ▸ h.front⟩

theorem ReadingOut.same {s t : Vl53l0x Sensors} (h : ReadingOut s) (hcore : core s = core t) :
    ReadingOut t := by
  simp only [core, Prod.mk.injEq] at hcore
  obtain ⟨hinitialized, hstatus, hsensor, hedge⟩ := hcore
  exact ⟨hinitialized ▸ h.initialized, hsensor ▸ h.sound, hstatus ▸ h.done, hedge ▸ h.edge,
    hsensor ▸ h.still⟩

theorem starting_stage (waiting : List Vl53l0xIdx) : Stage (Starting waiting) where
  same h hcore := ⟨h.1.same hcore, core_sensor hcore ▸ h.2⟩
  elapsed h := ⟨h.1.elapsed, fun idx hidx => idle_elapsed (h.2 idx hidx)⟩
  fail h := ⟨nofun, fun _ _ _ => .started (h.1.same rfl)⟩

theorem reading_stage (cleared : List Vl53l0xIdx) : Stage (Reading cleared) where
  same h hcore := ⟨h.1.same hcore, core_sensor hcore ▸ h.2⟩
  elapsed h := ⟨h.1.elapsed, fun idx hidx => idle_elapsed (h.2 idx hidx)⟩
  fail {s} h := by
    refine ⟨nofun, fun _ _ hunbroken => ?_⟩
    have hfail : ReadingOut { s with dev := s.dev.fail } := h.1.same rfl
    exact hfail.checkable (hunbroken s.dev.sensor (by simp [Sensors.fail]))

section

variable {s : Vl53l0x Sensors} {idx i : Vl53l0xIdx} {waiting : List Vl53l0xIdx} {reg data : Byte}

theorem written_self :
    (written reg data idx s).dev.sensor idx = (s.dev.sensor idx).write reg data :=
  Function.update_self ..

theorem written_of_ne (h : i ≠ idx) :
    (written reg data idx s).dev.sensor i = s.dev.sensor i := Function.update_of_ne h ..

theorem written_sound (h : ∀ i, (s.dev.sensor i).Sound)
    (hsound : ((s.dev.sensor idx).write reg data).Sound) (i : Vl53l0xIdx) :
    ((written reg data idx s).dev.sensor i).Sound := by
  by_cases hi : i = idx
  · subst hi
    rwa [written_self]
  · rw [written_of_ne hi]
    exact h i

theorem Started.written (h : Started s) (hsound : ((s.dev.sensor idx).write reg data).Sound)
    (hinterrupt : ((s.dev.sensor idx).write reg data).interrupt = (s.dev.sensor idx).interrupt) :
    Started (written reg data idx s) := by
  have hfront : ((Vl53l0x.written reg data idx s).dev.sensor .front).interrupt =
      (s.dev.sensor .front).interrupt := by
    by_cases hi : .front = idx
    · subst hi
      rw [written_self, hinterrupt]
    · rw [written_of_ne hi]
  refine ⟨h.initialized, written_sound h.sound hsound, ?_⟩
  rw [hfront]
  exact h.front

theorem idle_written (hi : i ≠ idx) (h : (s.dev.sensor i).Idle) :
    ((written reg data idx s).dev.sensor i).Idle := by
  rwa [written_of_ne hi]

def StartingOn (page : Byte) (idx : Vl53l0xIdx) (waiting : List Vl53l0xIdx)
    (s : Vl53l0x Sensors) : Prop :=
  Starting (idx :: waiting) s ∧ (s.dev.sensor idx).page = page

theorem startingOn_stage (page : Byte) (idx : Vl53l0xIdx) (waiting : List Vl53l0xIdx) :
    Stage (StartingOn page idx waiting) where
  same h hcore := ⟨(starting_stage _).same h.1 hcore, core_sensor hcore ▸ h.2⟩
  elapsed {s} h := by
    refine ⟨(starting_stage _).elapsed h.1, ?_⟩
    have hidle := h.1.2 idx List.mem_cons_self
    rw [elapsed_still hidle.1]
    exact h.2
  fail h := (starting_stage _).fail h.1

theorem Starting.write_page (h : Starting (idx :: waiting) s) {page : Byte}
    (hwrite : (s.dev.sensor idx).write reg data = { s.dev.sensor idx with page := page }) :
    StartingOn page idx waiting (written reg data idx s) := by
  have hidle : (s.dev.sensor idx).Idle := h.2 idx List.mem_cons_self
  have hsound : ((s.dev.sensor idx).write reg data).Sound := by
    rw [hwrite]
    exact ⟨(h.1.sound idx).alone, fun _ => hidle⟩
  refine ⟨⟨h.1.written hsound (by rw [hwrite]), fun i hi => ?_⟩, by rw [written_self, hwrite]⟩
  by_cases heq : i = idx
  · subst heq
    rw [written_self, hwrite]
    exact hidle
  · exact idle_written heq (h.2 i hi)

theorem StartingOn.write_start (h : StartingOn 0 idx waiting s) (hnot : idx ∉ waiting) :
    Starting waiting (Vl53l0x.written regSysrangeStart 0x01 idx s) := by
  have hidle : (s.dev.sensor idx).Idle := h.1.2 idx List.mem_cons_self
  have hwrite := Sensor.write_start h.2
  have hsound : ((s.dev.sensor idx).write regSysrangeStart 0x01).Sound := by
    rw [hwrite]
    exact ⟨fun _ => hidle.2, fun hpage => absurd h.2 hpage⟩
  refine ⟨h.1.1.written hsound (by rw [hwrite]), fun i hi => ?_⟩
  refine idle_written ?_ (h.1.2 i (List.mem_cons_of_mem _ hi))
  rintro rfl
  exact hnot hi

end

theorem written_plain {s : Vl53l0x Sensors} {idx : Vl53l0xIdx} {reg data : Byte}
    (h : (s.dev.sensor idx).write reg data = s.dev.sensor idx) :
    core s = core (written reg data idx s) := by
  simp only [core, written, h, Function.update_eq_self]

section

variable {P Q R : Vl53l0x Sensors → Prop} {idx : Vl53l0xIdx} {waiting : List Vl53l0xIdx}
  {reg data : Byte} {fuel : Nat}

theorem Stage.writePlain (hP : Stage P) (hreg : reg ≠ 0xFF)
    (hplain : ∀ s, P s → (s.dev.sensor idx).page ≠ 0 ∨
      reg ≠ regSysrangeStart ∧ reg ≠ regSystemInterruptClear) :
    Triple (At idx P) (i2cWriteAddr8Data8 Sensors.bus reg data) (After Ends (At idx P)) Ends :=
  hP.write fun s hs => hP.same hs (written_plain (Sensor.write_plain hreg (hplain s hs)))

theorem selectPage (page : Byte) :
    Triple (At idx (Starting (idx :: waiting))) (i2cWriteAddr8Data8 Sensors.bus 0xFF page)
      (After Ends (At idx (StartingOn page idx waiting))) Ends :=
  (starting_stage _).write fun _ h => h.write_page (Sensor.write_page page _)

theorem startSysrange_starting (hnot : idx ∉ waiting) :
    Triple (Starting (idx :: waiting)) (vl53l0xStartSysrange Sensors.bus fuel idx)
      (fun _ => Starting waiting) Ends := by
  have hstart := starting_stage (idx :: waiting)
  have hone := startingOn_stage 0x01 idx waiting
  have hzero := startingOn_stage 0x00 idx waiting
  have hother : ∀ s, StartingOn 0x01 idx waiting s → (s.dev.sensor idx).page ≠ 0 := by
    intro s hs
    rw [hs.2]
    decide
  have hrun : Triple (Starting (idx :: waiting)) (vl53l0xStartSysrange Sensors.bus fuel idx)
      (fun _ => At idx (Starting waiting)) Ends := by
    apply startSysrange_rule ends_fuel hstart.address
    · exact fun data => hstart.writePlain (by decide) fun _ _ => .inr (by decide)
    · exact selectPage 0x01
    · exact fun reg data hreg => hone.writePlain hreg fun s hs => .inl (hother s hs)
    · exact (selectPage 0x00).strengthen fun _ h => ⟨h.1, h.2.1⟩
    · exact fun data => hzero.writePlain (by decide) fun _ _ => .inr (by decide)
    · exact hzero.write fun _ h => h.write_start hnot
    · exact (starting_stage waiting).read
  exact hrun.conseq (fun _ h => h) (fun _ _ h => h.2) fun _ _ h => h

theorem Reading.write_clear {s : Vl53l0x Sensors} {cleared : List Vl53l0xIdx}
    (h : Reading cleared s) (hfront : idx ∈ fronts) :
    Reading (idx :: cleared) (written regSystemInterruptClear 0x01 idx s) := by
  have hsensor : ((s.dev.sensor idx).write regSystemInterruptClear 0x01).Sound ∧
      ((s.dev.sensor idx).write regSystemInterruptClear 0x01).Idle := by
    by_cases hpage : (s.dev.sensor idx).page = 0
    · rw [Sensor.write_clear hpage]
      exact ⟨⟨fun _ => rfl, fun hne => absurd hpage hne⟩, h.1.still idx hfront, rfl⟩
    · rw [Sensor.write_plain (by decide) (.inl hpage)]
      exact ⟨h.1.sound idx, (h.1.sound idx).paged hpage⟩
  have hidle (i : Vl53l0xIdx) (hi : i = idx ∨ (s.dev.sensor i).Idle) :
      ((written regSystemInterruptClear 0x01 idx s).dev.sensor i).Idle := by
    by_cases heq : i = idx
    · subst heq
      rw [written_self]
      exact hsensor.2
    · exact idle_written heq (hi.resolve_left heq)
  refine ⟨⟨h.1.initialized, written_sound h.1.sound hsensor.1, h.1.done, h.1.edge, ?_⟩, ?_⟩
  · intro i hi
    by_cases heq : i = idx
    · exact (hidle i (.inl heq)).1
    · rw [written_of_ne heq]
      exact h.1.still i hi
  · intro i hi
    exact hidle i ((List.mem_cons.mp hi).imp id (h.2 i))

theorem clear_clear {s : Vl53l0x Sensors} {cleared : List Vl53l0xIdx}
    (h : Reading (idx :: idx :: cleared) s) : Reading (idx :: cleared) s :=
  ⟨h.1, fun i hi => h.2 i (List.mem_cons_of_mem _ hi)⟩

theorem readRange_reading {cleared : List Vl53l0xIdx} (hfront : idx ∈ fronts) :
    Triple (Reading cleared) (vl53l0xReadRange Sensors.bus fuel idx)
      (fun _ => Reading (idx :: cleared)) Ends := by
  have hreading := reading_stage cleared
  have hcleared := reading_stage (idx :: cleared)
  have hrun : Triple (Reading cleared) (vl53l0xReadRange Sensors.bus fuel idx)
      (fun _ => At idx (Reading (idx :: cleared))) Ends := by
    apply readRange_rule ends_fuel hreading.address hreading.read
    · exact fun old => hreading.read16.strengthen fun _ h => h.1
    · exact fun error range => hreading.latest error
    · exact fun range => hreading.write fun _ h => h.write_clear hfront
    · exact fun range => hcleared.latest none
    · exact hcleared.write fun _ h => clear_clear (h.write_clear hfront)
  exact hrun.conseq (fun _ h => h) (fun _ _ h => h.2) fun _ _ h => h

structure Ready (s : Vl53l0x Sensors) : Prop where
  initialized : s.initialized = true
  sound (i : Vl53l0xIdx) : (s.dev.sensor i).Sound
  edge : s.dev.edge = false
  idle : ∀ i ∈ fronts, (s.dev.sensor i).Idle

theorem Ready.elapsed {s : Vl53l0x Sensors} (h : Ready s) :
    Ready (elapsed s) ∧ (elapsed s).statusMultiple = s.statusMultiple := by
  obtain ⟨hkept, hafter⟩ := elapsed_quiet h.edge (h.idle .front (by decide)).1
  refine ⟨⟨?_, fun i => elapsed_sound (h.sound i), hafter, fun i hi => idle_elapsed (h.idle i hi)⟩,
    hkept⟩
  rw [elapsed_initialized, h.initialized]

theorem startMeasuring_started :
    Triple (fun s => Ready s ∧ s.statusMultiple ≠ .measuring)
      (vl53l0xStartMeasuringMultiple Sensors.bus fuel) (fun _ => Started) Ends := by
  have hright : Triple (Starting [.frontRight]) (vl53l0xStartSysrange Sensors.bus fuel .frontRight)
      (fun _ => Started) Ends :=
    (startSysrange_starting (by decide)).conseq (fun _ h => h) (fun _ _ h => h.1) fun _ _ h => h
  have hset : Triple Ready (setStatusMultiple Sensors.bus .measuring) (fun _ => Starting fronts)
      Ends := by
    intro s h
    have hidle := h.elapsed.1.idle
    exact ⟨⟨h.elapsed.1.initialized, h.elapsed.1.sound,
      .inl ⟨rfl, h.elapsed.1.edge.trans (hidle .front (by decide)).2.symm⟩⟩, hidle⟩
  refine startMeasuring_rule (fun s h => h.1.initialized) ?_ hset
    (startSysrange_starting (by decide)) (startSysrange_starting (by decide)) hright
  rintro s ⟨h, hstatus⟩
  exact ⟨h.elapsed.2 ▸ hstatus, h.elapsed.1⟩

theorem startIfNotStarted_checkable :
    Triple Checkable (startIfNotStarted Sensors.bus fuel) (fun _ => Checkable) Ends := by
  refine Triple.bind (Q := fun r s => r = s.statusMultiple ∧ Checkable s)
    (fun _ h => ⟨rfl, h.elapsed⟩) fun status => ?_
  refine .cond (fun hstatus => ?_) fun _ => .ret fun _ h => h.2
  refine Triple.bind (Q := fun _ => Started) (startMeasuring_started.strengthen ?_) fun _ =>
    (waitDone_rule ends_fuel fun _ h => h.elapsed).conseq (fun _ h => h) (fun _ _ h => .started h)
      fun _ _ h => h
  rintro s ⟨hs, h⟩
  rw [hs] at hstatus
  cases h with
  | fresh initialized status edge rest =>
    refine ⟨⟨initialized, fun i => ?_, edge, fun i _ => (rest i).1⟩, by rw [hstatus]; decide⟩
    exact ⟨fun _ => (rest i).1.2, fun _ => (rest i).1⟩
  | started h =>
    have hfront := h.front
    simp [hstatus] at hfront
  | stuck _ _ status => simp [hstatus] at status

structure Passing (done : List Vl53l0xIdx) (s : Vl53l0x Sensors) : Prop where
  checkable : Checkable s
  status : s.statusMultiple = .done
  finished : ∀ i ∈ done, i ∈ fronts → (s.dev.sensor i).MayReadDone

section

variable {s t : Vl53l0x Sensors} {done : List Vl53l0xIdx}

theorem mayReadDone_elapsed (h : (s.dev.sensor idx).MayReadDone) :
    ((elapsed s).dev.sensor idx).MayReadDone := by
  have hkept := elapsed_kept s idx
  exact h.imp (fun hpage => hkept.page.trans_ne hpage) hkept.interrupt

theorem Passing.same (h : Passing done s) (hcore : core s = core t) : Passing done t :=
  ⟨h.checkable.same hcore, (congrArg (fun c => c.2.1) hcore).symm.trans h.status,
    core_sensor hcore ▸ h.finished⟩

theorem Passing.elapsed (h : Passing done s) : Passing done (elapsed s) := by
  refine ⟨h.checkable.elapsed, ?_, fun i hi hfront => mayReadDone_elapsed (h.finished i hi hfront)⟩
  rw [elapsed_statusMultiple, h.status, ite_self]

theorem Passing.mono {done' : List Vl53l0xIdx} (h : Passing done s) (hsub : done' ⊆ done) :
    Passing done' s :=
  ⟨h.checkable, h.status, fun i hi => h.finished i (hsub hi)⟩

theorem Passing.cons (h : Passing done s) (hfinished : i ∈ fronts → (s.dev.sensor i).MayReadDone) :
    Passing (i :: done) s := by
  refine ⟨h.checkable, h.status, fun j hj hfront => ?_⟩
  obtain rfl | hj := List.mem_cons.mp hj
  · exact hfinished hfront
  · exact h.finished j hj hfront

theorem mayReadDone_of_status {values : Byte → Byte} {sensor : Sensor}
    (hdone : sensor.read values regResultInterruptStatus &&& 0x07 ≠ 0) : sensor.MayReadDone := by
  by_cases hpage : sensor.page = 0
  · exact .inr (interruptStatus_done hpage hdone)
  · exact .inl hpage

theorem status_passing :
    Triple (At idx (Passing done)) (i2cReadAddr8Data8 Sensors.bus regResultInterruptStatus)
      (fun r s => Passing done s ∧
        (r.1 = none → r.2 &&& 0x07 ≠ 0 → (s.dev.sensor idx).MayReadDone)) Ends := by
  rintro s ⟨haddr, hs⟩
  have haddr := (elapsed_slaveAddress s).trans haddr
  have hs := hs.elapsed
  obtain hrun | ⟨-, e, data, hrun⟩ := read8_cases haddr regResultInterruptStatus
  · rw [hrun]
    exact ⟨hs.same rfl, fun _ hdone => mayReadDone_of_status hdone⟩
  · rw [hrun]
    exact ⟨hs.same rfl, fun hnone => absurd hnone (Option.some_ne_none e)⟩

theorem isSysrangeDone_passing :
    Triple (Passing done) (vl53l0xIsSysrangeDone Sensors.bus idx)
      (fun b => Passing (if b then idx :: done else done)) Ends := by
  refine .cond (fun hother => .ret fun s h => h.cons ?_) fun _ => ?_
  · simp [fronts, hother]
  · refine Triple.bind (Q := fun _ => At idx (Passing done))
      (.update fun _ h => ⟨rfl, h.same rfl⟩) fun _ => ?_
    refine status_passing.bind fun r => .ret fun s h => ?_
    split
    · rename_i hdone
      obtain ⟨hnone, hbits⟩ := by simpa using hdone
      exact h.1.cons fun _ => h.2 hnone hbits
    · exact h.1

theorem areSysrangesDone_passing (idxs : List Vl53l0xIdx) :
    Triple (Passing done) (areSysrangesDone Sensors.bus idxs)
      (fun b => Passing (if b then idxs ++ done else [])) Ends :=
  areSysrangesDone_rule (fun _ h hsub => h.mono hsub) fun _ _ => isSysrangeDone_passing

/-- The three sensors have finished, but for a side sensor that is lost on another page. -/
def Verified (s : Vl53l0x Sensors) : Prop :=
  ReadingOut s ∧ (s.dev.sensor .front).interrupt = true

theorem Sensor.Sound.still {sensor : Sensor} (h : sensor.Sound) (hdone : sensor.MayReadDone) :
    sensor.measuring = false :=
  hdone.elim (fun hpage => (h.paged hpage).1) h.not_measuring

theorem Passing.verified (h : Passing done s) (hleft : .frontLeft ∈ done)
    (hright : .frontRight ∈ done) : Verified s := by
  have hleft := h.finished _ hleft (by decide)
  have hright := h.finished _ hright (by decide)
  cases h.checkable with
  | fresh _ status => simp [h.status] at status
  | stuck _ _ _ _ _ rest =>
    exact (rest.elim (fun h => h.not_mayReadDone hleft) fun h => h.not_mayReadDone hright).elim
  | started hstarted =>
    have hsound := hstarted.sound
    obtain ⟨hstatus, -⟩ | ⟨-, hedge, hinterrupt⟩ := hstarted.front
    · simp [h.status] at hstatus
    · refine ⟨⟨hstarted.initialized, hsound, h.status, hedge, fun i hi => ?_⟩, hinterrupt⟩
      simp only [fronts, List.mem_cons, List.not_mem_nil, or_false] at hi
      obtain rfl | rfl | rfl := hi
      · exact (hsound _).not_measuring hinterrupt
      · exact (hsound _).still hleft
      · exact (hsound _).still hright

end

theorem isMultipleDone_checkable :
    Triple Checkable (isMultipleDone Sensors.bus)
      (fun b s => Checkable s ∧ (b = true → Verified s)) Ends := by
  refine Triple.bind (Q := fun r s => r = s.statusMultiple ∧ Checkable s)
    (fun _ h => ⟨rfl, h.elapsed⟩) fun status => ?_
  refine .cond (fun hstatus => ?_) fun _ => .ret fun _ h => ⟨h.2, nofun⟩
  refine (areSysrangesDone_passing _).conseq (P := Passing []) (fun s h => ?_) (fun b s h => ?_)
    fun _ _ h => h
  · exact ⟨h.2, h.1.symm.trans hstatus, nofun⟩
  · refine ⟨h.checkable, fun hb => ?_⟩
    rw [if_pos hb] at h
    exact h.verified (by decide) (by decide)

theorem Sensors.happen_outcomes (events : List SensorEvent) (d : Sensors) :
    (happen events d).2.outcomes = d.outcomes := by
  induction events generalizing d with
  | nil => rfl
  | cons event events ih =>
    cases event with
    | complete idx range =>
      refine (ih _).trans ?_
      rw [complete]
      split <;> rfl
    | frontInterrupt => exact ih { d with edge := false }

theorem Verified.elapsed {s : Vl53l0x Sensors} (h : Verified s) : Verified (elapsed s) := by
  exact ⟨h.1.elapsed, (elapsed_kept s .front).interrupt h.2⟩

theorem Sensor.status_of_interrupt {sensor : Sensor} {values : Byte → Byte}
    (hpage : sensor.page = 0) (hinterrupt : sensor.interrupt = true) :
    sensor.read values regResultInterruptStatus &&& 0x07 ≠ 0 := by
  rw [Sensor.read, if_pos ⟨hpage, rfl⟩, if_pos hinterrupt]
  intro h
  have hbit := congrArg (·.getLsbD 2) h
  simp at hbit

theorem Verified.page {s : Vl53l0x Sensors} (h : Verified s) : (s.dev.sensor .front).page = 0 := by
  by_contra hpage
  have hidle := (h.1.sound .front).paged hpage
  exact Bool.false_ne_true (hidle.2.symm.trans h.2)

theorem sanityRead_verified :
    Triple (fun s => (s.dev.outcomes 0).error = none ∧ At .front Verified s)
      (i2cReadAddr8Data8 Sensors.bus regResultInterruptStatus)
      (fun r s => (r.1 = none ∧ r.2 &&& 0x07 ≠ 0) ∧ Verified s) Ends := by
  rintro s ⟨hok, haddr, hs⟩
  have haddr := (elapsed_slaveAddress s).trans haddr
  have hs := hs.elapsed
  have hok : ((Vl53l0x.elapsed s).dev.outcomes 0).error = none := by
    rw [elapsed_dev]
    have houtcomes := Sensors.happen_outcomes (s.dev.events 0) s.dev
    exact (congrArg (fun f => (f 0).error) houtcomes).trans hok
  obtain hrun | ⟨herror, -⟩ := read8_cases haddr regResultInterruptStatus
  · rw [hrun]
    exact ⟨⟨rfl, Sensor.status_of_interrupt hs.page hs.2⟩, hs.1.same rfl, hs.2⟩
  · exact absurd hok herror

theorem sanity_verified :
    Triple (fun s => (s.dev.outcomes 0).error = none ∧ Verified s)
      (vl53l0xIsSysrangeDone Sensors.bus .front) (fun b s => b = true ∧ Reading [] s) Ends := by
  refine .cond (fun hother => by simp at hother) fun _ => ?_
  refine Triple.bind (Q := fun _ s => (s.dev.outcomes 0).error = none ∧ At .front Verified s)
    (.update fun s h => ⟨h.1, rfl, h.2.1.same rfl, h.2.2⟩) fun _ => ?_
  refine sanityRead_verified.bind fun r => .ret fun s h => ⟨?_, h.2.1, nofun⟩
  simpa using h.1

theorem readSensors_started :
    Triple (fun s => (s.dev.outcomes 0).error = none ∧ Verified s)
      (readSensors Sensors.bus fuel) (fun _ => Started) Ends := by
  refine sanity_verified.bind fun done => .guarded fun hdone => ?_
  rw [hdone]
  refine Triple.bind (Q := fun _ => Reading []) (.ret fun _ h => h) fun _ => ?_
  refine (readRange_reading (by decide)).bind fun _ => ?_
  refine (readRange_reading (by decide)).bind fun _ => ?_
  refine (readRange_reading (by decide)).bind fun _ => ?_
  refine startMeasuring_started.strengthen fun s h => ?_
  refine ⟨⟨h.1.initialized, h.1.sound, h.1.edge, fun i hi => h.2 i ?_⟩, by rw [h.1.done]; decide⟩
  simp only [fronts, List.mem_cons, List.not_mem_nil, or_false] at hi ⊢
  tauto

theorem Checkable.initialized {s : Vl53l0x Sensors} (h : Checkable s) : s.initialized = true := by
  cases h with
  | fresh initialized => exact initialized
  | started h => exact h.initialized
  | stuck initialized => exact initialized

theorem readRangeMultiple_checkable :
    Triple (fun s => SanityReadGoesThrough fuel s ∧ Checkable s)
      (vl53l0xReadRangeMultiple Sensors.bus fuel) (fun _ => Checkable) Ends := by
  refine Triple.bind (Q := fun r s => r.initialized = true ∧ SanityReadGoesThrough fuel s ∧
    Checkable s) (.read fun s h => ⟨h.2.initialized, h⟩) fun r => ?_
  refine .guarded fun hinitialized => ?_
  rw [hinitialized]
  refine Triple.bind (Q := fun _ s => SanityReadGoesThrough fuel s ∧ Checkable s)
    (.ret fun _ h => h) fun _ => ?_
  refine startIfNotStarted_checkable.trace.bind fun _ => ?_
  refine isMultipleDone_checkable.trace.bind fun done => .cond (fun hdone => ?_) fun _ => ?_
  · refine Triple.bind (readSensors_started.strengthen ?_) fun _ => ?_
    · rintro u ⟨⟨m, ⟨s, hread, hstart⟩, hcheck⟩, -, hverified⟩
      exact ⟨hread u ⟨m, hstart, hdone ▸ hcheck⟩, hverified hdone⟩
    · refine Triple.bind (Q := fun _ => Started) (.read fun _ h => h) fun _ => ?_
      exact .ret fun _ h => .started h
  · refine Triple.bind (Q := fun _ => Checkable) (.read fun _ h => h.2.1) fun _ => ?_
    exact .ret fun _ h => h

end

section

variable {fuel : Nat} {fuels : List Nat} {s t : Vl53l0x Sensors}

theorem call_checkable (h : Checkable s) (hread : SanityReadGoesThrough fuel s)
    (hcall : call fuel s = .ok t) (hunbroken : Unbroken t.dev) : Checkable t := by
  have hcheckable := @readRangeMultiple_checkable fuel s ⟨hread, h⟩
  obtain ⟨ranges, hrun⟩ | ⟨r, hrun⟩ := call_ok hcall
  · rw [hrun] at hcheckable
    exact hcheckable
  · rw [hrun] at hcheckable
    exact hcheckable.2 r rfl hunbroken

theorem call_ne_assert (h : Checkable s) (hread : SanityReadGoesThrough fuel s) :
    call fuel s ≠ .error .assert := by
  intro hcall
  have hcheckable := @readRangeMultiple_checkable fuel s ⟨hread, h⟩
  obtain ⟨t, hrun⟩ := call_error hcall
  rw [hrun] at hcheckable
  exact hcheckable.1 rfl

theorem Initial.checkable (h : Initial s) : Checkable s :=
  .fresh h.initialized h.statusMultiple h.edge fun idx => ⟨h.idle idx, h.page idx⟩

theorem afterCalls_checkable (hinit : Checkable s)
    (hunbroken : AfterCalls (fun t => Unbroken t.dev) fuels s)
    (hread : Run.Along call SanityReadGoesThrough fuels s) : AfterCalls Checkable fuels s :=
  Run.afterEach_invariant (fun _ _ _ hread h => call_checkable h hread) hread hunbroken hinit

theorem never_asserts (hinit : Initial s)
    (hunbroken : AfterCalls (fun t => Unbroken t.dev) fuels s)
    (hread : Run.Along call SanityReadGoesThrough fuels s) :
    Run.run call fuels s ≠ .error .assert := by
  intro hrun
  obtain ⟨pre, fuel, post, m, hsplit, hpre, hcall⟩ := Run.run_error hrun
  have hm := afterCalls_checkable hinit.checkable hunbroken hread pre _ m hsplit hpre
  exact call_ne_assert hm (hread pre fuel post m hsplit hpre) hcall

end

def failingAt (transfer : Nat) : Vl53l0x Sensors where
  stopVariable := 0x3C
  statusMultiple := .notStarted
  initialized := true
  latestRanges _ := vl53l0xOutOfRange
  dev := {
    sensor := fun _ => ⟨0, false, false, 0⟩
    slaveAddress := 0x33
    edge := false
    events := fun access => if access = 29 then
      [.complete .front 100, .frontInterrupt, .complete .frontLeft 200, .complete .frontRight 300]
      else []
    outcomes := fun k => ⟨if k = transfer then some .timeout else none, 0, fun _ => 0⟩
    failed := [] }

theorem failingAt_initial (transfer : Nat) : Initial (failingAt transfer) where
  initialized := rfl
  statusMultiple := rfl
  latestRanges _ := rfl
  slaveAddress := rfl
  page _ := rfl
  idle _ := ⟨rfl, rfl⟩
  edge := rfl
  failed := rfl

def checked (fuel : Nat) (s : Vl53l0x Sensors) : Option (Vl53l0x Sensors) :=
  match startIfNotStarted Sensors.bus fuel s with
  | .error _ _ => none
  | .ok _ m =>
    match isMultipleDone Sensors.bus m with
    | .ok true u => some u
    | .ok false _ | .error _ _ => none

theorem checks_iff {fuel : Nat} {s u : Vl53l0x Sensors} :
    Checks fuel s u ↔ u ∈ checked fuel s := by
  rw [checked]
  cases hstart : startIfNotStarted Sensors.bus fuel s with
  | error => simp [Checks, hstart]
  | ok _ m =>
    cases hdone : isMultipleDone Sensors.bus m with
    | error => simp [Checks, hstart, hdone]
    | ok done t => cases done <;> simp [Checks, hstart, hdone]

instance (fuel : Nat) (s : Vl53l0x Sensors) : Decidable (SanityReadGoesThrough fuel s) :=
  decidable_of_iff (∀ u ∈ checked fuel s, (u.dev.outcomes 0).error = none)
    (forall_congr' fun _ => by rw [checks_iff])

theorem never_asserts_failingAt :
    (checked 1 (failingAt 38)).isSome = true ∧
      Run.run call [1, 1] (failingAt 38) ≠ .error .assert := by
  have hunbroken : Run.AfterEach call (fun t => Unbroken t.dev) [1, 1] (failingAt 38) := by
    decide +kernel
  exact ⟨by decide +kernel, never_asserts (failingAt_initial 38) hunbroken (by decide +kernel)⟩

def asserts (r : Except Vl53l0xStop (Vl53l0x Sensors)) : Bool :=
  match r with
  | .error .assert => true
  | _ => false

theorem eq_of_asserts {r : Except Vl53l0xStop (Vl53l0x Sensors)} (h : asserts r = true) :
    r = .error .assert := by
  unfold asserts at h
  split at h
  · rfl
  · cases h

/-- The read of the sanity check itself fails, or the front left sensor is not read after the front
sensor: then the front sensor is idle in the next call. -/
theorem asserts_failingAt :
    (Initial (failingAt 29) ∧ Run.run call [1] (failingAt 29) = .error .assert) ∧
      Initial (failingAt 34) ∧ Run.run call [1, 1] (failingAt 34) = .error .assert :=
  ⟨⟨failingAt_initial 29, eq_of_asserts (by decide +kernel)⟩,
    failingAt_initial 34, eq_of_asserts (by decide +kernel)⟩

end Vl53l0x

end Nsumo.Drivers
