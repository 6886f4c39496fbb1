import Nsumo.Drivers.Vl53l0xObserved
import Nsumo.Drivers.Vl53l0xSanityLaws

namespace Nsumo.Drivers

open Common Lib

namespace Vl53l0x

def rounds (q : List (BitVec 16)) : List Observation :=
  q.flatMap fun range => [.started, .completed range, .read range]

/-- What a point of the driver knows of a sensor whose measurements `q` have been read. -/
inductive Expect : Type
  | waits (q : List (BitVec 16))
  | runs (q : List (BitVec 16))
  | done (q : List (BitVec 16)) (range : BitVec 16)
  | kept (q : List (BitVec 16))

def Expect.Holds : Expect → Sensor → List Observation → Prop
  | .waits q, s, log => s.Idle ∧ log = rounds q
  | .runs q, s, log =>
    s.measuring = true ∧ s.interrupt = false ∧ log = rounds q ++ [.started] ∨
      s.measuring = false ∧ s.interrupt = true ∧
        log = rounds q ++ [.started, .completed s.range]
  | .done q range, s, log =>
    s.measuring = false ∧ s.interrupt = true ∧ s.range = range ∧
      log = rounds q ++ [.started, .completed range]
  | .kept q, s, log => s.measuring = false ∧ log = rounds q

inductive Signal : Type
  | fresh
  | armed
  | running
  | served

def Signal.Holds : Signal → StatusMultiple → Bool → Sensor → Prop
  | .fresh, status, edge, front =>
    status = .notStarted ∧ edge = false ∧ front.measuring = false
  | .armed, status, edge, front => status = .measuring ∧ edge = false ∧ front.Idle
  | .running, status, edge, front =>
    status = .measuring ∧ edge = front.interrupt ∨
      status = .done ∧ edge = false ∧ front.interrupt = true
  | .served, status, edge, front => status = .done ∧ edge = false ∧ front.measuring = false

structure Plan : Type where
  expect : Vl53l0xIdx → Expect
  slave : Vl53l0xIdx
  page : Byte
  signal : Signal
  latest : Vl53l0xIdx → Nat
  stored : Bool

structure Follows (F : Prop) (p : Plan) (s : Vl53l0x Observed) : Prop where
  initialized : s.initialized = true
  slaveAddress : s.dev.sensors.slaveAddress = vl53l0xCfgs p.slave
  page (idx : Vl53l0xIdx) :
    (s.dev.sensors.sensor idx).page = if idx = p.slave then p.page else 0
  expect (idx : Vl53l0xIdx) :
    (p.expect idx).Holds (s.dev.sensors.sensor idx) (s.dev.log idx)
  signal : p.signal.Holds s.statusMultiple s.dev.sensors.edge (s.dev.sensors.sensor .front)
  latest : s.latestRanges = p.latest
  stored : p.stored = true → s.dev.stored = true
  faultless : F → ∀ k, (s.dev.sensors.outcomes k).error = none

theorem Expect.Holds.alone {e : Expect} {s : Sensor} {log : List Observation} (h : e.Holds s log)
    (hmeasuring : s.measuring = true) : s.interrupt = false := by
  cases e with
  | waits q => exact h.1.2
  | runs q =>
    obtain ⟨-, hinterrupt, -⟩ | ⟨hstill, -⟩ := h
    · exact hinterrupt
    · simp [hmeasuring] at hstill
  | done q range => exact absurd (hmeasuring.symm.trans h.1) Bool.false_ne_true.symm
  | kept q => exact absurd (hmeasuring.symm.trans h.1) Bool.false_ne_true.symm

namespace Sensors

theorem happen_step (events : List SensorEvent) (idx : Vl53l0xIdx) (d : Sensors) :
    (happen events d).2.sensor idx = d.sensor idx ∨
      (d.sensor idx).measuring = true ∧ ∃ range, (happen events d).2.sensor idx =
        { d.sensor idx with measuring := false, interrupt := true, range := range } := by
  induction events generalizing d with
  | nil => exact .inl rfl
  | cons event events ih =>
    cases event with
    | frontInterrupt => exact ih { d with edge := false }
    | complete i range =>
      by_cases hi : idx = i ∧ (d.sensor idx).measuring = true
      · obtain ⟨rfl, hmeasuring⟩ := hi
        have hself := @complete_self idx range d hmeasuring
        have hstill := @happen_still idx (d.complete idx range) events (by rw [hself])
        exact .inr ⟨hmeasuring, range, hstill.trans hself⟩
      · have hsame : (d.complete i range).sensor idx = d.sensor idx := by
          by_cases hidx : idx = i
          · subst hidx
            exact complete_still (by simpa using hi)
          · exact complete_of_ne hidx
        have hrest := ih (d.complete i range)
        rwa [hsame] at hrest

end Sensors

theorem Expect.Holds.step {e : Expect} {a b : Sensor} {log : List Observation} (h : e.Holds a log)
    (hstep : b = a ∨ a.measuring = true ∧ ∃ range,
      b = { a with measuring := false, interrupt := true, range := range }) :
    e.Holds b (if a.measuring && !b.measuring then log ++ [.completed b.range] else log) := by
  obtain rfl | ⟨hmeasuring, range, rfl⟩ := hstep
  · rwa [Bool.and_not_self, if_neg Bool.false_ne_true]
  · rw [hmeasuring]
    cases e with
    | waits q => exact absurd (hmeasuring.symm.trans h.1.1) Bool.false_ne_true.symm
    | runs q =>
      obtain ⟨-, -, hlog⟩ | ⟨hstill, -⟩ := h
      · refine .inr ⟨rfl, rfl, ?_⟩
        rw [hlog]
        simp
      · simp [hmeasuring] at hstill
    | done q range' => exact absurd (hmeasuring.symm.trans h.1) Bool.false_ne_true.symm
    | kept q => exact absurd (hmeasuring.symm.trans h.1) Bool.false_ne_true.symm

def passed (s : Vl53l0x Observed) : Vl53l0x Observed :=
  let t := { s with dev := s.dev.elapse.2 }
  if s.dev.elapse.1 then frontMeasurementDoneIsr t else t

theorem passed_eq (s : Vl53l0x Observed) : passed s = { s with
    dev := s.dev.elapse.2
    statusMultiple := if s.dev.elapse.1 then .done else s.statusMultiple } := by
  rw [passed]
  cases s.dev.elapse.1 <;> rfl

theorem Signal.Holds.step {signal : Signal} {status : StatusMultiple} {d : Sensors}
    (events : List SensorEvent) (h : signal.Holds status d.edge (d.sensor .front))
    (halone : (d.sensor .front).measuring = true → (d.sensor .front).interrupt = false) :
    signal.Holds (if (Sensors.happen events d).1 then .done else status)
      (Sensors.happen events d).2.edge ((Sensors.happen events d).2.sensor .front) := by
  cases signal with
  | fresh =>
    obtain ⟨hstatus, hedge, hstill⟩ := h
    obtain ⟨hfired, hafter⟩ := Sensors.happen_quiet events hedge hstill
    rw [hfired, Sensors.happen_still events hstill]
    exact ⟨hstatus, hafter, hstill⟩
  | armed =>
    obtain ⟨hstatus, hedge, hidle⟩ := h
    obtain ⟨hfired, hafter⟩ := Sensors.happen_quiet events hedge hidle.1
    rw [hfired, Sensors.happen_still events hidle.1]
    exact ⟨hstatus, hafter, hidle⟩
  | served =>
    obtain ⟨hstatus, hedge, hstill⟩ := h
    obtain ⟨hfired, hafter⟩ := Sensors.happen_quiet events hedge hstill
    rw [hfired, Sensors.happen_still events hstill]
    exact ⟨hstatus, hafter, hstill⟩
  | running =>
    obtain ⟨hstatus, hedge⟩ | ⟨hstatus, hedge, hinterrupt⟩ := h
    · obtain ⟨hfired, hafter⟩ | ⟨hfired, hafter, hfinished⟩ :=
        Sensors.happen_front events halone hedge
      · rw [hfired]
        exact .inl ⟨hstatus, hafter⟩
      · rw [hfired]
        exact .inr ⟨rfl, hafter, hfinished⟩
    · have hstill := Sensor.not_measuring halone hinterrupt
      obtain ⟨hfired, hafter⟩ := Sensors.happen_quiet events hedge hstill
      rw [hfired, Sensors.happen_still events hstill]
      exact .inr ⟨hstatus, hafter, hinterrupt⟩

section

variable {F : Prop} {p p' : Plan} {s : Vl53l0x Observed}

theorem Follows.passed (h : Follows F p s) : Follows F p (passed s) := by
  have hframe := Sensors.happen_frame (s.dev.sensors.events 0) s.dev.sensors
  have hkept (idx : Vl53l0xIdx) := Sensors.happen_kept (s.dev.sensors.events 0) idx s.dev.sensors
  rw [passed_eq]
  constructor
  · exact h.initialized
  · exact hframe.1.trans h.slaveAddress
  · exact fun idx => (hkept idx).page.trans (h.page idx)
  · exact fun idx => (h.expect idx).step (Sensors.happen_step _ idx s.dev.sensors)
  · exact h.signal.step (s.dev.sensors.events 0) (h.expect .front).alone
  · exact h.latest
  · exact h.stored
  · intro hF k
    have houtcomes := Sensors.happen_outcomes (s.dev.sensors.events 0) s.dev.sensors
    exact (congrArg (fun f => (f k).error) houtcomes).trans (h.faultless hF k)

end

/-- No transfer has failed after its call had stored a byte of a range, and none while the front
right sensor showed another page. -/
def Clean (d : Observed) : Prop :=
  d.torn = false ∧ ∀ sensor ∈ d.sensors.failed, (sensor .frontRight).page = 0

instance (d : Observed) : Decidable (Clean d) := inferInstanceAs (Decidable (_ ∧ _))

def cached (q : List (BitVec 16)) : Nat := (q.getLast?.map toRange).getD vl53l0xOutOfRange

def resting (q : Vl53l0xIdx → List (BitVec 16)) (stored : Bool) (slave : Vl53l0xIdx)
    (signal : Signal) : Plan where
  expect idx := .waits (q idx)
  slave := slave
  page := 0
  signal := signal
  latest idx := cached (q idx)
  stored := stored

def starting (q : Vl53l0xIdx → List (BitVec 16)) (stored : Bool) (waiting : List Vl53l0xIdx)
    (slave : Vl53l0xIdx) (page : Byte) : Plan where
  expect idx := if idx ∈ fronts ∧ idx ∉ waiting then .runs (q idx) else .waits (q idx)
  slave := slave
  page := page
  signal := if .front ∈ waiting then .armed else .running
  latest idx := cached (q idx)
  stored := stored

def ranging (q : Vl53l0xIdx → List (BitVec 16)) (slave : Vl53l0xIdx) : Plan :=
  starting q false [] slave 0

/-- The first start has failed before the front right sensor was started. -/
structure Stuck (s : Vl53l0x Observed) : Prop where
  initialized : s.initialized = true
  started : s.statusMultiple ≠ .notStarted
  latest : s.latestRanges = fun _ => vl53l0xOutOfRange
  rest : (s.dev.sensors.sensor .frontRight).AtRest

inductive Between (F : Prop) (q : Vl53l0xIdx → List (BitVec 16)) (s : Vl53l0x Observed) : Prop
  | fresh {slave} (hq : q = fun _ => []) (h : Follows F (resting q false slave .fresh) s)
  | ranging {slave} (h : Follows F (ranging q slave) s)
  | stuck (hF : ¬F) (hq : q = fun _ => []) (h : Stuck s)

def EndsAt (F : Prop) (q : Vl53l0xIdx → List (BitVec 16)) (stop : Vl53l0xStop)
    (t : Vl53l0x Observed) : Prop :=
  stop ≠ .fuel →
    ¬F ∧ ∀ r, stop = .result r → r = .errorI2c ∧ (Clean t.dev → Between F q t)

theorem endsAt_fuel {F : Prop} {q : Vl53l0xIdx → List (BitVec 16)} (t : Vl53l0x Observed) :
    EndsAt F q .fuel t := fun h => absurd rfl h

namespace Observed

def wrote (reg data : Byte) (idx : Vl53l0xIdx) (d : Observed) : Observed :=
  let noted := { d with sensors := { d.sensors with
    outcomes := fun k => d.sensors.outcomes (k + 1)
    sensor := Function.update d.sensors.sensor idx ((d.sensors.sensor idx).write reg data) } }
  if (d.sensors.sensor idx).starts reg [data] then noted.note idx .started else noted

def got (reg : Byte) (idx : Vl53l0xIdx) (d : Observed) : Observed :=
  let ofRange := decide (reg = regResultRangeStatus + 10)
  let noted := { d with
    sensors := { d.sensors with outcomes := fun k => d.sensors.outcomes (k + 1) }
    stored := d.stored || ofRange }
  if ofRange && (d.sensors.sensor idx).page = 0 then
    noted.note idx (.read (d.sensors.sensor idx).range)
  else
    noted

section

variable {d : Observed} {idx : Vl53l0xIdx}

theorem write_cases (haddr : d.sensors.slaveAddress = vl53l0xCfgs idx) (reg data : Byte) :
    write reg [data] d = (none, d.wrote reg data idx) ∨
      (d.sensors.outcomes 0).error ≠ none ∧ ∃ e, write reg [data] d = (some e, d.fail false) := by
  have haddressee : Sensors.addressee d.sensors.slaveAddress = some idx := by
    rw [haddr, Sensors.addressee_cfgs]
  cases herror : (d.sensors.outcomes 0).error with
  | none =>
    left
    rw [write, Sensors.write, Sensors.nextError, haddressee, herror]
    rfl
  | some e =>
    right
    refine ⟨Option.some_ne_none e, e, ?_⟩
    rw [write, Sensors.write, Sensors.nextError, haddressee, herror]
    rfl

theorem length_readBytes (values : Byte → Byte) (reg : Byte) (n : Nat) (s : Sensor) :
    (s.readBytes values reg n).length = n := by
  induction n generalizing reg with
  | zero => rfl
  | succ n ih => rw [Sensor.readBytes, List.length_append, ih, List.length_singleton]

theorem read_cases (haddr : d.sensors.slaveAddress = vl53l0xCfgs idx) (reg : Byte)
    (data : List Byte) :
    read reg data d = (none,
        (d.sensors.sensor idx).readBytes (d.sensors.outcomes 0).values reg data.length,
        d.got reg idx) ∨
      (d.sensors.outcomes 0).error ≠ none ∧ ∃ e bytes touched,
        read reg data d = (some e, bytes, d.fail touched) ∧
          (reg ≠ regResultRangeStatus + 10 → touched = false) ∧
          (reg = regResultRangeStatus + 10 → touched = false → bytes = data) := by
  have haddressee : Sensors.addressee d.sensors.slaveAddress = some idx := by
    rw [haddr, Sensors.addressee_cfgs]
  cases herror : (d.sensors.outcomes 0).error with
  | none =>
    left
    rw [read, Sensors.read, Sensors.nextError, haddressee, herror]
    rfl
  | some e =>
    right
    let values := (d.sensors.outcomes 0).values
    let kept := data.length - min (d.sensors.outcomes 0).stored (data.length - 1)
    let bytes := data.take kept ++
      ((d.sensors.sensor idx).readBytes values reg data.length).drop kept
    let ofRange := decide (reg = regResultRangeStatus + 10)
    refine ⟨Option.some_ne_none e, e, bytes, ofRange && (d.sensors.outcomes 0).stored != 0,
      ?_, fun hreg => ?_, fun hreg htouched => ?_⟩
    · rw [read, Sensors.read, Sensors.nextError, haddressee, herror]
      rfl
    · exact (congrArg (· && _) (decide_eq_false hreg)).trans (Bool.false_and _)
    · have hstored : (d.sensors.outcomes 0).stored = 0 := by simpa [ofRange, hreg] using htouched
      have hkept : kept = data.length := by simp [kept, hstored]
      have hlength := length_readBytes values reg data.length (d.sensors.sensor idx)
      simp [bytes, hkept, List.drop_eq_nil_of_le (Nat.le_of_eq hlength)]

end

theorem read8_cases {s : Vl53l0x Observed} {idx : Vl53l0xIdx} {reg : Byte}
    (haddr : (passed s).dev.sensors.slaveAddress = vl53l0xCfgs idx)
    (hreg : reg ≠ regResultRangeStatus + 10) :
    i2cReadAddr8Data8 bus reg s =
        .ok (none, ((passed s).dev.sensors.sensor idx).read
            ((passed s).dev.sensors.outcomes 0).values reg)
          { passed s with dev := (passed s).dev.got reg idx } ∨
      ((passed s).dev.sensors.outcomes 0).error ≠ none ∧ ∃ e data,
        i2cReadAddr8Data8 bus reg s =
          .ok (some e, data) { passed s with dev := (passed s).dev.fail false } := by
  have hrun : i2cReadAddr8Data8 bus reg s =
      .ok ((read reg [0] (passed s).dev).1, (read reg [0] (passed s).dev).2.1.headD 0)
        { passed s with dev := (read reg [0] (passed s).dev).2.2 } := rfl
  rw [hrun]
  obtain hok | ⟨herror, e, bytes, touched, hfail, hother, -⟩ := read_cases haddr reg [0]
  · rw [hok]
    exact .inl rfl
  · rw [hfail, hother hreg]
    exact .inr ⟨herror, e, _, rfl⟩

end Observed

namespace Observed

section

variable {d : Observed} {reg data : Byte} {idx i : Vl53l0xIdx}

theorem wrote_sensors : (d.wrote reg data idx).sensors = { d.sensors with
    outcomes := fun k => d.sensors.outcomes (k + 1)
    sensor := Function.update d.sensors.sensor idx ((d.sensors.sensor idx).write reg data) } := by
  rw [wrote]
  split <;> rfl

theorem wrote_stored : (d.wrote reg data idx).stored = d.stored := by
  rw [wrote]
  split <;> rfl

theorem wrote_log_self : (d.wrote reg data idx).log idx =
    if (d.sensors.sensor idx).starts reg [data] then d.log idx ++ [.started] else d.log idx := by
  rw [wrote]
  split
  · exact Function.update_self ..
  · rfl

theorem wrote_log_of_ne (h : i ≠ idx) : (d.wrote reg data idx).log i = d.log i := by
  rw [wrote]
  split
  · exact Function.update_of_ne h ..
  · rfl

theorem got_other (hreg : reg ≠ regResultRangeStatus + 10) : d.got reg idx = { d with
    sensors := { d.sensors with outcomes := fun k => d.sensors.outcomes (k + 1) } } := by
  simp only [got, decide_eq_false hreg, Bool.false_and, Bool.false_eq_true, if_false, Bool.or_false]

end

end Observed

theorem Sensor.starts_page (data : Byte) (s : Sensor) : s.starts 0xFF [data] = false := by
  simp [starts, regSysrangeStart]

theorem Sensor.starts_plain {s : Sensor} {reg data : Byte}
    (hreg : s.page ≠ 0 ∨ reg ≠ regSysrangeStart) : s.starts reg [data] = false := by
  rw [starts, starts, Bool.or_false, decide_eq_false_iff_not]
  rintro ⟨hpage, hstart, -⟩
  exact hreg.elim (fun h => h hpage) fun h => h hstart

theorem Sensor.starts_start {s : Sensor} (hpage : s.page = 0) :
    s.starts regSysrangeStart [0x01] = true := by
  rw [starts, hpage]
  rfl

theorem Expect.Holds.page {e : Expect} {s : Sensor} {log : List Observation} (page : Byte)
    (h : e.Holds s log) : e.Holds { s with page := page } log := by
  cases e <;> exact h

section

variable {F : Prop} {p : Plan} {s : Vl53l0x Observed} {reg data : Byte}

theorem Follows.fail (h : Follows F p s) (touched : Bool) :
    Follows F p { s with dev := s.dev.fail touched } where
  initialized := h.initialized
  slaveAddress := h.slaveAddress
  page := h.page
  expect := h.expect
  signal := h.signal
  latest := h.latest
  stored hstored := by simp [Observed.fail, h.stored hstored]
  faultless hF k := h.faultless hF (k + 1)

theorem Follows.not_faultless (h : Follows F p s)
    (herror : (s.dev.sensors.outcomes 0).error ≠ none) : ¬F :=
  fun hF => herror (h.faultless hF 0)

theorem Follows.page_slave (h : Follows F p s) :
    (s.dev.sensors.sensor p.slave).page = p.page := by rw [h.page, if_pos rfl]

theorem Follows.address (h : Follows F p s) (hpage : p.page = 0) (idx : Vl53l0xIdx) :
    Follows F { p with slave := idx }
      { s with dev := Observed.bus.setSlaveAddress (vl53l0xCfgs idx) s.dev } where
  initialized := h.initialized
  slaveAddress := rfl
  page i := by
    have hi := h.page i
    rw [hpage, ite_self] at hi ⊢
    exact hi
  expect := h.expect
  signal := h.signal
  latest := h.latest
  stored := h.stored
  faultless := h.faultless

theorem Follows.wrote (h : Follows F p s) {page : Byte} {e : Expect} {signal : Signal}
    (hpage : ((s.dev.sensors.sensor p.slave).write reg data).page = page)
    (hexpect : e.Holds ((s.dev.sensors.sensor p.slave).write reg data)
      ((s.dev.wrote reg data p.slave).log p.slave))
    (hsignal : signal.Holds s.statusMultiple s.dev.sensors.edge
      ((s.dev.wrote reg data p.slave).sensors.sensor .front)) :
    Follows F { p with
        page := page, expect := Function.update p.expect p.slave e, signal := signal }
      { s with dev := s.dev.wrote reg data p.slave } := by
  have hsensors := @Observed.wrote_sensors s.dev reg data p.slave
  constructor
  · exact h.initialized
  · rw [hsensors]
    exact h.slaveAddress
  · rw [hsensors]
    refine (Function.forall_update_iff s.dev.sensors.sensor fun i sensor =>
      sensor.page = if i = p.slave then page else 0).mpr ⟨?_, fun i hi => ?_⟩
    · rw [hpage, if_pos rfl]
    · rw [h.page, if_neg hi, if_neg hi]
  · intro i
    by_cases hi : i = p.slave
    · subst hi
      rw [hsensors]
      simp only [Function.update_self]
      exact hexpect
    · rw [hsensors, Observed.wrote_log_of_ne hi]
      simp only [Function.update_of_ne hi]
      exact h.expect i
  · rw [hsensors] at hsignal ⊢
    exact hsignal
  · exact h.latest
  · intro hstored
    exact Observed.wrote_stored.trans (h.stored hstored)
  · intro hF k
    rw [hsensors]
    exact h.faultless hF (k + 1)

theorem Follows.got (h : Follows F p s) (hreg : reg ≠ regResultRangeStatus + 10) :
    Follows F p { s with dev := s.dev.got reg p.slave } := by
  rw [Observed.got_other hreg]
  exact ⟨h.initialized, h.slaveAddress, h.page, h.expect, h.signal, h.latest, h.stored,
    fun hF k => h.faultless hF (k + 1)⟩

theorem Follows.wrote_page (h : Follows F p s) {page : Byte}
    (hwrite : (s.dev.sensors.sensor p.slave).write reg data =
      { s.dev.sensors.sensor p.slave with page := page })
    (hstarts : (s.dev.sensors.sensor p.slave).starts reg [data] = false) :
    Follows F { p with page := page } { s with dev := s.dev.wrote reg data p.slave } := by
  have hlog : (s.dev.wrote reg data p.slave).log p.slave = s.dev.log p.slave := by
    rw [Observed.wrote_log_self, hstarts, if_neg Bool.false_ne_true]
  have hfront : p.signal.Holds s.statusMultiple s.dev.sensors.edge
      ((s.dev.wrote reg data p.slave).sensors.sensor .front) := by
    rw [Observed.wrote_sensors]
    by_cases hslave : .front = p.slave
    · simp only [← hslave, Function.update_self] at hwrite ⊢
      rw [hwrite]
      have hsignal := h.signal
      cases hp : p.signal <;> rw [hp] at hsignal <;> exact hsignal
    · simp only [Function.update_of_ne hslave]
      exact h.signal
  have hpage : ((s.dev.sensors.sensor p.slave).write reg data).page = page := by rw [hwrite]
  have hexpect : (p.expect p.slave).Holds ((s.dev.sensors.sensor p.slave).write reg data)
      ((s.dev.wrote reg data p.slave).log p.slave) := by
    rw [hwrite, hlog]
    exact (h.expect p.slave).page page
  have hrun := h.wrote hpage hexpect hfront
  rwa [Function.update_eq_self] at hrun

end

theorem Follows.wrote_plain {F : Prop} {p : Plan} {s : Vl53l0x Observed} {reg data : Byte}
    (h : Follows F p s) (hreg : reg ≠ 0xFF)
    (hplain : p.page ≠ 0 ∨ reg ≠ regSysrangeStart ∧ reg ≠ regSystemInterruptClear) :
    Follows F p { s with dev := s.dev.wrote reg data p.slave } := by
  have hplain : (s.dev.sensors.sensor p.slave).page ≠ 0 ∨
      reg ≠ regSysrangeStart ∧ reg ≠ regSystemInterruptClear := by rwa [h.page_slave]
  have hwrite : (s.dev.sensors.sensor p.slave).write reg data =
      { s.dev.sensors.sensor p.slave with page := p.page } := by
    rw [Sensor.write_plain hreg hplain, ← h.page_slave]
  exact h.wrote_page hwrite (Sensor.starts_plain (hplain.imp id And.left))

end Vl53l0x

end Nsumo.Drivers
