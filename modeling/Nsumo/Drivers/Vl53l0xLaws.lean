import Nsumo.Drivers.Vl53l0xRules
import Nsumo.Drivers.Vl53l0xSensors

namespace Nsumo.Drivers

open Common Lib

namespace Vl53l0x

def fronts : List Vl53l0xIdx := [.front, .frontLeft, .frontRight]

def Ranging (s : Vl53l0x Sensors) : Prop :=
  s.statusMultiple ≠ .notStarted → ∀ idx ∈ fronts, ¬(s.dev.sensor idx).Idle

/-- No transfer has failed while one of these sensors was idle. -/
def Harmless (d : Sensors) : Prop :=
  ∀ sensor ∈ d.failed, ∀ idx ∈ fronts, ¬(sensor idx).Idle

structure View : Type where
  slave : Vl53l0xIdx
  page : Byte
  idle : Vl53l0xIdx → Bool
  finished : Vl53l0xIdx → Bool

structure Shows (v : View) (s : Vl53l0x Sensors) : Prop where
  initialized : s.initialized = true
  slaveAddress : s.dev.slaveAddress = vl53l0xCfgs v.slave
  page (idx : Vl53l0xIdx) : (s.dev.sensor idx).page = if idx = v.slave then v.page else 0
  idle (idx : Vl53l0xIdx) : (s.dev.sensor idx).Idle ↔ v.idle idx = true
  finished (idx : Vl53l0xIdx) : v.finished idx = true → (s.dev.sensor idx).interrupt = true
  alone (idx : Vl53l0xIdx) :
    (s.dev.sensor idx).measuring = true → (s.dev.sensor idx).interrupt = false
  fresh : s.statusMultiple = .notStarted → s.dev.edge = false ∧ v.idle .front = true
  harmless : Harmless s.dev

def Since (least : StatusMultiple) (v : View) (s : Vl53l0x Sensors) : Prop :=
  Shows v s ∧ (s.statusMultiple = least ∨ s.statusMultiple = .done)

namespace Sensors

structure Kept (a b : Sensor) : Prop where
  page : b.page = a.page
  idle : b.Idle ↔ a.Idle
  interrupt : a.interrupt = true → b.interrupt = true
  alone : (a.measuring = true → a.interrupt = false) →
    b.measuring = true → b.interrupt = false

theorem Kept.refl (a : Sensor) : Kept a a := ⟨rfl, .rfl, id, id⟩

theorem Kept.trans {a b c : Sensor} (hab : Kept a b) (hbc : Kept b c) : Kept a c :=
  ⟨hbc.page.trans hab.page, hbc.idle.trans hab.idle, fun h => hbc.interrupt (hab.interrupt h),
    fun h => hbc.alone (hab.alone h)⟩

theorem complete_kept (idx i : Vl53l0xIdx) (range : BitVec 16) (d : Sensors) :
    Kept (d.sensor i) ((d.complete idx range).sensor i) := by
  rw [complete]
  split
  · rename_i hmeasuring
    by_cases hi : i = idx
    · subst hi
      simp only [Function.update_self]
      exact ⟨rfl, by simp [Sensor.Idle, hmeasuring], fun _ => rfl, fun _ h => by cases h⟩
    · simp only [Function.update_of_ne hi]
      exact .refl _
  · exact .refl _

theorem happen_kept (events : List SensorEvent) (i : Vl53l0xIdx) (d : Sensors) :
    Kept (d.sensor i) ((happen events d).2.sensor i) := by
  induction events generalizing d with
  | nil => exact .refl _
  | cons event events ih =>
    cases event with
    | complete idx range => exact (complete_kept idx i range d).trans (ih _)
    | frontInterrupt => exact ih { d with edge := false }

theorem complete_frame (idx : Vl53l0xIdx) (range : BitVec 16) (d : Sensors) :
    (d.complete idx range).slaveAddress = d.slaveAddress ∧
      (d.complete idx range).failed = d.failed := by
  rw [complete]
  split <;> exact ⟨rfl, rfl⟩

theorem happen_frame (events : List SensorEvent) (d : Sensors) :
    (happen events d).2.slaveAddress = d.slaveAddress ∧
      (happen events d).2.failed = d.failed := by
  induction events generalizing d with
  | nil => exact ⟨rfl, rfl⟩
  | cons event events ih =>
    cases event with
    | complete idx range =>
      have hframe := complete_frame idx range d
      exact ⟨(ih _).1.trans hframe.1, (ih _).2.trans hframe.2⟩
    | frontInterrupt => exact ih { d with edge := false }

section

variable {idx i : Vl53l0xIdx} {range : BitVec 16} {d : Sensors}

theorem complete_self (h : (d.sensor idx).measuring = true) :
    (d.complete idx range).sensor idx =
      { d.sensor idx with measuring := false, interrupt := true, range := range } := by
  rw [complete, if_pos h]
  exact Function.update_self ..

theorem complete_of_ne (h : i ≠ idx) : (d.complete idx range).sensor i = d.sensor i := by
  rw [complete]
  split
  · exact Function.update_of_ne h ..
  · rfl

theorem complete_not_measuring (h : (d.sensor idx).measuring = false) :
    d.complete idx range = d := by
  rw [complete, h, if_neg Bool.false_ne_true]

theorem complete_still (h : (d.sensor i).measuring = false) :
    (d.complete idx range).sensor i = d.sensor i := by
  by_cases hi : i = idx
  · rw [complete_not_measuring (hi ▸ h)]
  · exact complete_of_ne hi

theorem complete_edge_still (hedge : d.edge = false) (h : (d.sensor .front).measuring = false) :
    (d.complete idx range).edge = false := by
  rw [complete]
  split
  · rename_i hmeasuring
    have hidx : idx ≠ .front := by
      rintro rfl
      simp [h] at hmeasuring
    simp [hedge, hidx]
  · exact hedge

theorem happen_still (events : List SensorEvent) (h : (d.sensor i).measuring = false) :
    (happen events d).2.sensor i = d.sensor i := by
  induction events generalizing d with
  | nil => rfl
  | cons event events ih =>
    cases event with
    | complete idx range =>
      have hstill := @complete_still idx i range d h
      exact (ih (by rw [hstill, h])).trans hstill
    | frontInterrupt => exact @ih { d with edge := false } h

theorem happen_quiet (events : List SensorEvent) (hedge : d.edge = false)
    (h : (d.sensor .front).measuring = false) :
    (happen events d).1 = false ∧ (happen events d).2.edge = false := by
  induction events generalizing d with
  | nil => exact ⟨rfl, hedge⟩
  | cons event events ih =>
    cases event with
    | complete idx range => exact ih (complete_edge_still hedge h) (by rw [complete_still h, h])
    | frontInterrupt =>
      obtain ⟨hfired, hafter⟩ := @ih { d with edge := false } rfl h
      exact ⟨by rw [happen, hedge, hfired]; rfl, hafter⟩

end

end Sensors

def elapsed (s : Vl53l0x Sensors) : Vl53l0x Sensors :=
  let t := { s with dev := s.dev.elapse.2 }
  if s.dev.elapse.1 then frontMeasurementDoneIsr t else t

theorem elapsed_dev (s : Vl53l0x Sensors) : (elapsed s).dev = s.dev.elapse.2 := by
  rw [elapsed]
  cases s.dev.elapse.1 <;> rfl

theorem elapsed_initialized (s : Vl53l0x Sensors) : (elapsed s).initialized = s.initialized := by
  rw [elapsed]
  cases s.dev.elapse.1 <;> rfl

theorem elapsed_statusMultiple (s : Vl53l0x Sensors) :
    (elapsed s).statusMultiple = if s.dev.elapse.1 then .done else s.statusMultiple := by
  rw [elapsed]
  cases s.dev.elapse.1 <;> rfl

theorem elapsed_kept (s : Vl53l0x Sensors) (idx : Vl53l0xIdx) :
    Sensors.Kept (s.dev.sensor idx) ((elapsed s).dev.sensor idx) := by
  rw [elapsed_dev]
  exact Sensors.happen_kept (s.dev.events 0) idx s.dev

theorem elapsed_still {s : Vl53l0x Sensors} {idx : Vl53l0xIdx}
    (h : (s.dev.sensor idx).measuring = false) :
    (elapsed s).dev.sensor idx = s.dev.sensor idx := by
  rw [elapsed_dev]
  exact Sensors.happen_still (s.dev.events 0) h

theorem elapsed_quiet {s : Vl53l0x Sensors} (hedge : s.dev.edge = false)
    (h : (s.dev.sensor .front).measuring = false) :
    (elapsed s).statusMultiple = s.statusMultiple ∧ (elapsed s).dev.edge = false := by
  obtain ⟨hfired, hafter⟩ := Sensors.happen_quiet (s.dev.events 0) hedge h
  rw [elapsed_statusMultiple, elapsed_dev, Sensors.elapse, hfired]
  exact ⟨rfl, hafter⟩

theorem Shows.elapsed {v : View} {s : Vl53l0x Sensors} (h : Shows v s) : Shows v (elapsed s) := by
  have hkept := elapsed_kept s
  have hframe := Sensors.happen_frame (s.dev.events 0) s.dev
  constructor
  · rw [elapsed_initialized, h.initialized]
  · rw [elapsed_dev]
    exact hframe.1.trans h.slaveAddress
  · intro idx
    rw [(hkept idx).page, h.page]
  · intro idx
    rw [(hkept idx).idle, h.idle]
  · intro idx hfinished
    exact (hkept idx).interrupt (h.finished idx hfinished)
  · intro idx
    exact (hkept idx).alone (h.alone idx)
  · rw [elapsed_statusMultiple, elapsed_dev]
    intro hstatus
    cases hfired : s.dev.elapse.1 with
    | true => simp [hfired] at hstatus
    | false =>
      obtain ⟨hedge, hidle⟩ := h.fresh (by simpa [hfired] using hstatus)
      exact ⟨(Sensors.happen_quiet _ hedge ((h.idle .front).mpr hidle).1).2, hidle⟩
  · intro sensor hsensor
    rw [elapsed_dev] at hsensor
    exact h.harmless sensor (hframe.2 ▸ hsensor)

theorem Since.elapsed {least : StatusMultiple} {v : View} {s : Vl53l0x Sensors}
    (h : Since least v s) : Since least v (elapsed s) := by
  refine ⟨h.1.elapsed, ?_⟩
  rw [elapsed_statusMultiple]
  split
  · exact .inr rfl
  · exact h.2

def View.SomeIdle (v : View) : Prop := ∃ idx ∈ fronts, v.idle idx = true

def Resting (least : StatusMultiple) (done : List Vl53l0xIdx) (s : Vl53l0x Sensors) : Prop :=
  ∃ v : View, (v.page = 0 ∧ ¬v.SomeIdle ∧ ∀ idx ∈ done, idx ∈ fronts → v.finished idx = true) ∧
    Since least v s

def View.AllIdle (v : View) : Prop :=
  v.page = 0 ∧ ∀ idx ∈ fronts, v.idle idx = true ∧ v.finished idx = false

def Good (s : Vl53l0x Sensors) : Prop :=
  (∃ v : View, v.AllIdle ∧ Shows v s ∧ s.statusMultiple = .notStarted) ∨ Resting .measuring [] s

def Lost (s : Vl53l0x Sensors) : Prop := ¬Harmless s.dev ∧ ¬Ranging s

def Ended (stop : Vl53l0xStop) (s : Vl53l0x Sensors) : Prop :=
  ∀ r, stop = .result r → Good s ∨ Lost s

def Transferred (P : Vl53l0x Sensors → Prop) (error : Option I2cError) (s : Vl53l0x Sensors) :
    Prop :=
  match error with
  | none => P s
  | some _ => Good s ∨ Lost s

theorem Transferred.after {P : Vl53l0x Sensors → Prop} {error : Option I2cError}
    {s : Vl53l0x Sensors} (h : Transferred P error s) : After Ended P error s := by
  cases error with
  | none => exact h
  | some e => exact fun _ _ => h

theorem after_triple {α : Type} {P Q : Vl53l0x Sensors → Prop} {x : Driver Sensors α}
    {error : α → Option I2cError} (h : Triple P x (fun a => Transferred Q (error a)) Ended) :
    Triple P x (fun a => After Ended Q (error a)) Ended :=
  h.conseq (fun _ h => h) (fun _ _ h => h.after) fun _ _ h => h

theorem ended_fuel (t : Vl53l0x Sensors) : Ended .fuel t := by
  intro r hr
  cases hr

namespace Sensors

theorem addressee_cfgs (idx : Vl53l0xIdx) : addressee (vl53l0xCfgs idx) = some idx := by
  cases idx <;> decide

theorem write_cases {d : Sensors} {idx : Vl53l0xIdx} (haddr : d.slaveAddress = vl53l0xCfgs idx)
    (reg data : Byte) :
    write reg [data] d = (none, { d with
        outcomes := fun k => d.outcomes (k + 1)
        sensor := Function.update d.sensor idx ((d.sensor idx).write reg data) }) ∨
      ∃ e, write reg [data] d = (some e, d.fail) := by
  rw [write, haddr, addressee_cfgs]
  cases d.nextError with
  | none => exact .inl rfl
  | some e => exact .inr ⟨e, rfl⟩

theorem nextError_none {d : Sensors} (haddr : addressee d.slaveAddress = none) :
    d.nextError = some .start := by
  rw [nextError, haddr]
  rfl

theorem nextError_some {d : Sensors} {idx : Vl53l0xIdx}
    (haddr : addressee d.slaveAddress = some idx) : d.nextError = (d.outcomes 0).error := by
  rw [nextError, haddr]
  rfl

theorem read_cases {d : Sensors} {idx : Vl53l0xIdx} (haddr : d.slaveAddress = vl53l0xCfgs idx)
    (reg : Byte) (data : List Byte) :
    read reg data d = (none, (d.sensor idx).readBytes (d.outcomes 0).values reg data.length,
        { d with outcomes := fun k => d.outcomes (k + 1) }) ∨
      (d.outcomes 0).error ≠ none ∧ ∃ e bytes, read reg data d = (some e, bytes, d.fail) := by
  have haddressee : addressee d.slaveAddress = some idx := by rw [haddr, addressee_cfgs]
  rw [read, nextError_some haddressee, haddressee]
  cases (d.outcomes 0).error with
  | none => exact .inl rfl
  | some e => exact .inr ⟨Option.some_ne_none e, e, _, rfl⟩

end Sensors

theorem read8_cases {s : Vl53l0x Sensors} {idx : Vl53l0xIdx}
    (haddr : (elapsed s).dev.slaveAddress = vl53l0xCfgs idx) (reg : Byte) :
    i2cReadAddr8Data8 Sensors.bus reg s =
        .ok (none, ((elapsed s).dev.sensor idx).read ((elapsed s).dev.outcomes 0).values reg)
          { elapsed s with dev := { (elapsed s).dev with
            outcomes := fun k => (elapsed s).dev.outcomes (k + 1) } } ∨
      ((elapsed s).dev.outcomes 0).error ≠ none ∧ ∃ e data,
        i2cReadAddr8Data8 Sensors.bus reg s =
          .ok (some e, data) { elapsed s with dev := (elapsed s).dev.fail } := by
  have hrun : i2cReadAddr8Data8 Sensors.bus reg s =
      .ok ((Sensors.read reg [0] (elapsed s).dev).1,
          (Sensors.read reg [0] (elapsed s).dev).2.1.headD 0)
        { elapsed s with dev := (Sensors.read reg [0] (elapsed s).dev).2.2 } := rfl
  rw [hrun]
  obtain hok | ⟨herror, e, bytes, hfail⟩ := Sensors.read_cases haddr reg [0]
  · rw [hok]
    exact .inl rfl
  · rw [hfail]
    exact .inr ⟨herror, e, _, rfl⟩

section

variable {least : StatusMultiple} {v w : View} {s : Vl53l0x Sensors}

theorem Since.started (h : Since least v s) (hleast : least ≠ .notStarted) :
    s.statusMultiple ≠ .notStarted := by
  obtain hstatus | hstatus := h.2
  · rwa [hstatus]
  · simp [hstatus]

theorem Shows.fail (h : Shows v s) (hidle : ¬v.SomeIdle) :
    Shows v { s with dev := s.dev.fail } := by
  refine { h with harmless := ?_ }
  intro sensor hsensor idx hfront hsensorIdle
  obtain hold | hnew := List.mem_append.mp hsensor
  · exact h.harmless sensor hold idx hfront hsensorIdle
  · rw [List.mem_singleton.mp hnew, h.idle] at hsensorIdle
    exact hidle ⟨idx, hfront, hsensorIdle⟩

theorem Since.fail_lost (h : Since least v s) (hleast : least ≠ .notStarted)
    (hidle : v.SomeIdle) : Lost { s with dev := s.dev.fail } := by
  obtain ⟨idx, hfront, hview⟩ := hidle
  have hsensor : (s.dev.sensor idx).Idle := (h.1.idle idx).mpr hview
  refine ⟨fun hharmless => ?_, fun hranging => ?_⟩
  · have hlast : s.dev.sensor ∈ s.dev.fail.failed := by simp [Sensors.fail]
    exact hharmless s.dev.sensor hlast idx hfront hsensor
  · exact hranging (h.started hleast) idx hfront hsensor

theorem Since.measuring (h : Since least v s) (hleast : least ≠ .notStarted) :
    Since .measuring v s := by
  refine ⟨h.1, ?_⟩
  have hstarted := h.started hleast
  cases hstatus : s.statusMultiple <;> simp_all

theorem Resting.good {done : List Vl53l0xIdx} (h : Resting least done s)
    (hleast : least ≠ .notStarted) : Good s := by
  obtain ⟨v, ⟨hpage, hidle, -⟩, hv⟩ := h
  exact .inr ⟨v, ⟨hpage, hidle, by simp⟩, hv.measuring hleast⟩

theorem Since.fail (h : Since least v s) (hleast : least ≠ .notStarted)
    (hv : v.page = 0 ∨ v.SomeIdle) :
    Good { s with dev := s.dev.fail } ∨ Lost { s with dev := s.dev.fail } := by
  by_cases hidle : v.SomeIdle
  · exact .inr (h.fail_lost hleast hidle)
  · have hpage : v.page = 0 := hv.resolve_right hidle
    have hfail : Since least v { s with dev := s.dev.fail } := ⟨h.1.fail hidle, h.2⟩
    exact .inl (.inr ⟨v, ⟨hpage, hidle, by simp⟩, hfail.measuring hleast⟩)

def written (reg data : Byte) (idx : Vl53l0xIdx) (s : Vl53l0x Sensors) : Vl53l0x Sensors :=
  { s with dev := { s.dev with
      outcomes := fun k => s.dev.outcomes (k + 1)
      sensor := Function.update s.dev.sensor idx ((s.dev.sensor idx).write reg data) } }

theorem write_triple {reg data : Byte} (hleast : least ≠ .notStarted)
    (hv : v.page = 0 ∨ v.SomeIdle)
    (hwrite : ∀ s, Since least v s → Shows w (written reg data v.slave s)) :
    Triple (Since least v) (i2cWriteAddr8Data8 Sensors.bus reg data)
      (Transferred (Since least w)) Ended := by
  intro s hs
  have ht : Since least v (Vl53l0x.elapsed s) := hs.elapsed
  change Transferred (Since least w) (Sensors.write reg [data] (Vl53l0x.elapsed s).dev).1
    { Vl53l0x.elapsed s with dev := (Sensors.write reg [data] (Vl53l0x.elapsed s).dev).2 }
  obtain hok | ⟨e, herror⟩ := Sensors.write_cases ht.1.slaveAddress reg data
  · rw [hok]
    exact ⟨hwrite _ ht, ht.2⟩
  · rw [herror]
    exact ht.fail hleast hv

theorem Shows.outcomes {outcomes : Nat → Outcome} (h : Shows v s) :
    Shows v { s with dev := { s.dev with outcomes := outcomes } } := { h with }

theorem readBytes_triple {reg : Byte} {data : List Byte} (hleast : least ≠ .notStarted)
    (hv : v.page = 0 ∨ v.SomeIdle) :
    Triple (Since least v) (i2cReadBytes Sensors.bus reg data)
      (fun r => Transferred (Since least v) r.1) Ended := by
  intro s hs
  have ht : Since least v (Vl53l0x.elapsed s) := hs.elapsed
  change Transferred (Since least v) (Sensors.read reg data (Vl53l0x.elapsed s).dev).1
    { Vl53l0x.elapsed s with dev := (Sensors.read reg data (Vl53l0x.elapsed s).dev).2.2 }
  obtain hok | ⟨-, e, bytes, herror⟩ := Sensors.read_cases ht.1.slaveAddress reg data
  · rw [hok]
    exact ⟨ht.1.outcomes, ht.2⟩
  · rw [herror]
    exact ht.fail hleast hv

end

namespace Sensor

theorem write_page (data : Byte) (s : Sensor) : s.write 0xFF data = { s with page := data } := rfl

theorem write_plain {s : Sensor} {reg data : Byte} (hpage : reg ≠ 0xFF)
    (hreg : s.page ≠ 0 ∨ reg ≠ regSysrangeStart ∧ reg ≠ regSystemInterruptClear) :
    s.write reg data = s := by
  rw [write, if_neg hpage, if_neg, if_neg]
  · rintro ⟨hzero, hclear, -⟩
    exact hreg.elim (fun hne => hne hzero) fun hne => hne.2 hclear
  · rintro ⟨hzero, hstart, -⟩
    exact hreg.elim (fun hne => hne hzero) fun hne => hne.1 hstart

theorem write_start {s : Sensor} (hpage : s.page = 0) :
    s.write regSysrangeStart 0x01 = { s with measuring := true } := by
  rw [write, if_neg (by decide), if_pos ⟨hpage, rfl, by decide⟩]

theorem write_clear {s : Sensor} (hpage : s.page = 0) :
    s.write regSystemInterruptClear 0x01 = { s with interrupt := false } := by
  rw [write, if_neg (by decide), if_neg, if_pos ⟨hpage, rfl, by decide⟩]
  rintro ⟨-, hreg, -⟩
  exact absurd hreg (by decide)

end Sensor

section

variable {least : StatusMultiple} {v w : View} {s : Vl53l0x Sensors} {reg data : Byte}

theorem Shows.written (h : Shows v s) (hstarted : s.statusMultiple ≠ .notStarted)
    (hslave : w.slave = v.slave)
    (hrest : ∀ idx ≠ v.slave, w.idle idx = v.idle idx ∧ w.finished idx = v.finished idx)
    (hpage : ((s.dev.sensor v.slave).write reg data).page = w.page)
    (hidle : ((s.dev.sensor v.slave).write reg data).Idle ↔ w.idle v.slave = true)
    (hfinished : w.finished v.slave = true →
      ((s.dev.sensor v.slave).write reg data).interrupt = true)
    (halone : ((s.dev.sensor v.slave).write reg data).measuring = true →
      ((s.dev.sensor v.slave).write reg data).interrupt = false) :
    Shows w (written reg data v.slave s) where
  initialized := h.initialized
  slaveAddress := by rw [hslave]; exact h.slaveAddress
  page := by
    refine (Function.forall_update_iff s.dev.sensor fun idx sensor =>
      sensor.page = if idx = w.slave then w.page else 0).mpr ⟨?_, fun idx hidx => ?_⟩
    · rw [hpage, if_pos hslave.symm]
    · rw [h.page, if_neg hidx, if_neg (hslave ▸ hidx)]
  idle := by
    refine (Function.forall_update_iff s.dev.sensor fun idx sensor =>
      sensor.Idle ↔ w.idle idx = true).mpr ⟨hidle, fun idx hidx => ?_⟩
    rw [h.idle, (hrest idx hidx).1]
  finished := by
    refine (Function.forall_update_iff s.dev.sensor fun idx sensor =>
      w.finished idx = true → sensor.interrupt = true).mpr ⟨hfinished, fun idx hidx => ?_⟩
    rw [(hrest idx hidx).2]
    exact h.finished idx
  alone := (Function.forall_update_iff s.dev.sensor fun _ sensor =>
    sensor.measuring = true → sensor.interrupt = false).mpr ⟨halone, fun idx _ => h.alone idx⟩
  fresh hstatus := absurd hstatus hstarted
  harmless := h.harmless

theorem Shows.page_slave (h : Shows v s) : (s.dev.sensor v.slave).page = v.page := by
  rw [h.page, if_pos rfl]

def View.select (v : View) (page : Byte) : View := { v with page := page }

theorem page_triple (hleast : least ≠ .notStarted) (hv : v.page = 0 ∨ v.SomeIdle) :
    Triple (Since least v) (i2cWriteAddr8Data8 Sensors.bus 0xFF data)
      (Transferred (Since least (v.select data))) Ended := by
  apply write_triple hleast hv
  intro s h
  apply h.1.written (w := v.select data) (h.started hleast) rfl (fun _ _ => ⟨rfl, rfl⟩) <;>
    rw [Sensor.write_page]
  · rfl
  · exact h.1.idle v.slave
  · exact h.1.finished v.slave
  · exact h.1.alone v.slave

theorem plain_triple (hleast : least ≠ .notStarted) (hv : v.page = 0 ∨ v.SomeIdle)
    (hpage : reg ≠ 0xFF)
    (hreg : v.page ≠ 0 ∨ reg ≠ regSysrangeStart ∧ reg ≠ regSystemInterruptClear) :
    Triple (Since least v) (i2cWriteAddr8Data8 Sensors.bus reg data)
      (Transferred (Since least v)) Ended := by
  apply write_triple hleast hv
  intro s h
  have hsensor : (s.dev.sensor v.slave).write reg data = s.dev.sensor v.slave :=
    Sensor.write_plain hpage (h.1.page_slave ▸ hreg)
  apply h.1.written (h.started hleast) rfl (fun _ _ => ⟨rfl, rfl⟩) <;> rw [hsensor]
  · exact h.1.page_slave
  · exact h.1.idle v.slave
  · exact h.1.finished v.slave
  · exact h.1.alone v.slave

def View.start (v : View) : View := { v with idle := Function.update v.idle v.slave false }

def View.clear (v : View) : View := { v with
  idle := Function.update v.idle v.slave true
  finished := Function.update v.finished v.slave false }

theorem start_triple (hleast : least ≠ .notStarted) (hpage : v.page = 0)
    (hidle : v.idle v.slave = true) (hfinished : v.finished v.slave = false) :
    Triple (Since least v) (i2cWriteAddr8Data8 Sensors.bus regSysrangeStart 0x01)
      (Transferred (Since least v.start)) Ended := by
  apply write_triple hleast (.inl hpage)
  intro s h
  have hzero : (s.dev.sensor v.slave).page = 0 := h.1.page_slave.trans hpage
  have hclear : (s.dev.sensor v.slave).interrupt = false := ((h.1.idle v.slave).mpr hidle).2
  apply h.1.written (w := v.start) (h.started hleast) rfl
  · intro idx hidx
    exact ⟨Function.update_of_ne hidx .., rfl⟩
  all_goals rw [Sensor.write_start hzero]
  · exact h.1.page_slave
  · simp [Sensor.Idle, View.start]
  · simp [View.start, hfinished]
  · exact fun _ => hclear

theorem clear_triple (hleast : least ≠ .notStarted) (hpage : v.page = 0)
    (hdone : v.idle v.slave = true ∨ v.finished v.slave = true) :
    Triple (Since least v) (i2cWriteAddr8Data8 Sensors.bus regSystemInterruptClear 0x01)
      (Transferred (Since least v.clear)) Ended := by
  apply write_triple hleast (.inl hpage)
  intro s h
  have hzero : (s.dev.sensor v.slave).page = 0 := h.1.page_slave.trans hpage
  have hmeasuring : (s.dev.sensor v.slave).measuring = false := by
    obtain hidle | hfinished := hdone
    · exact ((h.1.idle v.slave).mpr hidle).1
    · have hinterrupt := h.1.finished v.slave hfinished
      cases hm : (s.dev.sensor v.slave).measuring with
      | false => rfl
      | true => simp [h.1.alone v.slave hm] at hinterrupt
  apply h.1.written (w := v.clear) (h.started hleast) rfl
  · intro idx hidx
    exact ⟨Function.update_of_ne hidx .., Function.update_of_ne hidx ..⟩
  all_goals rw [Sensor.write_clear hzero]
  · exact h.1.page_slave
  · simp [Sensor.Idle, View.clear, hmeasuring]
  · simp [View.clear]
  · exact fun _ => rfl

end

section

variable {least : StatusMultiple} {v : View} {P Q R : Vl53l0x Sensors → Prop} {reg data : Byte}

def View.address (v : View) (idx : Vl53l0xIdx) : View := { v with slave := idx }

theorem address_triple {idx : Vl53l0xIdx} (hpage : v.page = 0) :
    Triple (Since least v) (i2cSetSlaveAddress Sensors.bus (vl53l0xCfgs idx))
      (fun _ => Since least (v.address idx)) Ended := by
  apply Triple.update
  intro s h
  refine ⟨{ h.1 with slaveAddress := rfl, page := fun i => ?_ }, h.2⟩
  change (s.dev.sensor i).page = if i = idx then v.page else 0
  rw [h.1.page, hpage, ite_self, ite_self]

theorem read_triple (hleast : least ≠ .notStarted) (hv : v.page = 0 ∨ v.SomeIdle) :
    Triple (Since least v) (i2cReadAddr8Data8 Sensors.bus reg)
      (fun r => Transferred (Since least v) r.1) Ended :=
  (readBytes_triple hleast hv).bind fun _ => .ret fun _ h => h

theorem View.select_select (v : View) (hpage : v.page = 0) : (v.select 1).select 0 = v := by
  rw [← hpage]
  rfl

theorem startSysrange_triple {fuel : Nat} (v : View) (idx : Vl53l0xIdx)
    (hleast : least ≠ .notStarted) (hpage : v.page = 0) (hfront : idx ∈ fronts)
    (hidle : v.idle idx = true) (hfinished : v.finished idx = false) :
    Triple (Since least v) (vl53l0xStartSysrange Sensors.bus fuel idx)
      (fun _ => Since least (v.address idx).start) Ended := by
  have hsome : (v.address idx).SomeIdle := ⟨idx, hfront, hidle⟩
  have hone : (0x01 : Byte) ≠ 0 := by decide
  have hplain (reg data : Byte) (hreg : reg ≠ 0xFF ∧ reg ≠ regSysrangeStart ∧
      reg ≠ regSystemInterruptClear) :=
    after_triple (@plain_triple least (v.address idx) reg data hleast (.inr hsome) hreg.1
      (.inr hreg.2))
  have hzero := @page_triple least ((v.address idx).select 0x01) 0x00 hleast (.inr hsome)
  rw [View.select_select (v.address idx) hpage] at hzero
  exact startSysrange_rule ended_fuel (address_triple hpage)
    (fun data => hplain 0x80 data (by decide))
    (after_triple (page_triple hleast (.inr hsome)))
    (fun reg data hreg => after_triple (plain_triple hleast (.inr hsome) hreg (.inl hone)))
    (after_triple hzero) (fun data => hplain 0x80 data (by decide))
    (after_triple (@start_triple least (v.address idx) hleast hpage hidle hfinished))
    (after_triple (read_triple hleast (.inl hpage)))

theorem readData16_triple {old : Nat} (hleast : least ≠ .notStarted)
    (hv : v.page = 0 ∨ v.SomeIdle) :
    Triple (Since least v) (i2cReadAddr8Data16 Sensors.bus reg old)
      (fun r => Transferred (Since least v) r.1) Ended :=
  (readBytes_triple hleast hv).bind fun _ => .ret fun _ h => h

theorem setLatestRange_triple {idx : Vl53l0xIdx} {range : Nat} (error : Option I2cError) :
    Triple (Transferred (Since least v) error) (setLatestRange idx range)
      (fun _ => Transferred (Since least v) error) Ended := by
  apply Triple.update
  intro s h
  cases error with
  | none => exact ⟨{ h.1 with }, h.2⟩
  | some e =>
    obtain (⟨w, hw, hshows, hstatus⟩ | ⟨w, hw, hsince⟩) | hlost := h
    · exact .inl (.inl ⟨w, hw, { hshows with }, hstatus⟩)
    · exact .inl (.inr ⟨w, hw, { hsince.1 with }, hsince.2⟩)
    · exact .inr hlost

theorem View.clear_clear (v : View) : v.clear.clear = v.clear := by
  simp only [View.clear, Function.update_idem]

theorem readRange_triple {fuel : Nat} (v : View) (idx : Vl53l0xIdx) (hleast : least ≠ .notStarted)
    (hpage : v.page = 0) (hfinished : v.finished idx = true) :
    Triple (Since least v) (vl53l0xReadRange Sensors.bus fuel idx)
      (fun _ => Since least (v.address idx).clear) Ended := by
  have hcleared : (v.address idx).clear.idle idx = true := Function.update_self ..
  have hagain := clear_triple (v := (v.address idx).clear) hleast hpage (.inl hcleared)
  rw [View.clear_clear] at hagain
  have hclear (range : Nat) :=
    after_triple (@clear_triple least (v.address idx) hleast hpage (.inr hfinished))
  refine readRange_rule ended_fuel (address_triple hpage)
    (after_triple (read_triple hleast (.inl hpage)))
    (fun old => (@readData16_triple least (v.address idx) _ old hleast (.inl hpage)).strengthen
      fun _ h => h.1)
    (fun error range => after_triple (setLatestRange_triple error)) hclear
    (fun range => setLatestRange_triple none) (after_triple hagain)

end

end Vl53l0x

end Nsumo.Drivers
