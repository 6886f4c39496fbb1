import Nsumo.Drivers.Vl53l0xInitRules
import Nsumo.Drivers.Vl53l0xObserverLaws
import Nsumo.Drivers.Vl53l0xSensors
import Nsumo.Drivers.Vl53l0xWired

namespace Nsumo.Drivers

open Common Lib

namespace Vl53l0x

/-- The address of the transfers is the one that was set last, and the front sensor, which has not
been started, does not interrupt. -/
structure Addressed {δ : Type} (bus : Bus δ) (board : Board δ) (addr : δ → Byte) : Prop where
  quiet (d : δ) : (bus.elapse d).1 = false
  elapse (d : δ) : addr (bus.elapse d).2 = addr d
  setSlaveAddress (a : Byte) (d : δ) : addr (bus.setSlaveAddress a d) = a
  write (reg : Byte) (data : List Byte) (d : δ) : addr (bus.write reg data d).2 = addr d
  read (reg : Byte) (data : List Byte) (d : δ) : addr (bus.read reg data d).2.2 = addr d
  setPorts (ports : PortRegs) (d : δ) : addr (board.setPorts ports d) = addr d
  setInterrupts (regs : IoRegs PinIsr) (d : δ) : addr (board.setInterrupts regs d) = addr d
  setI2cInitialized (d : δ) : addr (board.setI2cInitialized d) = addr d

theorem Wired.perform_slaveAddress {δ : Type} (reg : Byte) (data : List Byte) (w : Wired δ) :
    (w.perform reg data).slaveAddress = w.slaveAddress := by
  unfold perform
  split
  · rfl
  · split
    · rfl
    · rfl

theorem Wired.addressed {δ : Type} {bus : Bus δ} (hquiet : ∀ d, (bus.elapse d).1 = false) :
    Addressed (Wired.bus bus) Wired.wiredBoard Wired.slaveAddress where
  quiet w := hquiet w.dev
  elapse _ := rfl
  setSlaveAddress _ _ := rfl
  write reg data w := by
    cases herror : (bus.write reg data w.dev).1 with
    | none => simp [Wired.bus, herror, perform_slaveAddress]
    | some error => simp [Wired.bus, herror]
  read _ _ _ := rfl
  setPorts _ _ := rfl
  setInterrupts _ _ := rfl
  setI2cInitialized _ := rfl

structure NotStarted {δ : Type} (addr : δ → Byte) (A : Byte → Prop) (s : Vl53l0x δ) : Prop where
  statusMultiple : s.statusMultiple = .notStarted
  latestRanges (idx : Vl53l0xIdx) : s.latestRanges idx = vl53l0xOutOfRange
  slaveAddress : A (addr s.dev)

section

variable {δ : Type} {bus : Bus δ} {board : Board δ} {addr : δ → Byte} {A : Byte → Prop}
  {fuel : Nat} {idx : Vl53l0xIdx}

theorem NotStarted.dev {s : Vl53l0x δ} {d : δ} (h : NotStarted addr A s)
    (hd : addr d = addr s.dev) : NotStarted addr A { s with dev := d } :=
  ⟨h.statusMultiple, h.latestRanges, hd ▸ h.slaveAddress⟩

abbrev Anyhow (_ : Vl53l0xStop) (_ : Vl53l0x δ) : Prop := True

theorem elapse_notStarted (h : Addressed bus board addr) :
    Triple (NotStarted addr A) (elapse bus) (fun _ => NotStarted addr A) Anyhow := by
  refine .update fun s hs => ?_
  rw [h.quiet]
  exact hs.dev (h.elapse s.dev)

theorem setSlaveAddress_notStarted (h : Addressed bus board addr) (a : Byte) :
    Triple (NotStarted addr A) (i2cSetSlaveAddress bus a) (fun _ => NotStarted addr (· = a))
      Anyhow :=
  .update fun s hs => ⟨hs.statusMultiple, hs.latestRanges, h.setSlaveAddress a s.dev⟩

theorem readBytes_notStarted (h : Addressed bus board addr) (reg : Byte) (data : List Byte) :
    Triple (NotStarted addr A) (i2cReadBytes bus reg data) (fun _ => NotStarted addr A) Anyhow :=
  (elapse_notStarted h).bind fun _ => .updateGet fun s hs => hs.dev (h.read reg data s.dev)

theorem writeBytes_notStarted (h : Addressed bus board addr) (reg : Byte) (data : List Byte) :
    Triple (NotStarted addr A) (i2cWriteBytes bus reg data) (fun _ => NotStarted addr A) Anyhow :=
  (elapse_notStarted h).bind fun _ => .updateGet fun s hs => hs.dev (h.write reg data s.dev)

theorem after_notStarted {α : Type} {x : Driver δ α} {error : α → Option I2cError}
    (h : Triple (NotStarted addr A) x (fun _ => NotStarted addr A) Anyhow) :
    Triple (NotStarted addr A) x (fun r => After Anyhow (NotStarted addr A) (error r)) Anyhow :=
  h.conseq (fun _ hs => hs) (fun _ _ hs => .intro hs trivial _) fun _ _ hE => hE

theorem notStarted_carries (h : Addressed bus board addr) :
    InitCarries bus board (NotStarted addr A) Anyhow where
  fuel _ _ := trivial
  raise _ _ _ := trivial
  write reg data _ := after_notStarted (writeBytes_notStarted h reg [data])
  read reg data _ := after_notStarted (readBytes_notStarted h reg data)
  readMap data := by
    refine (readBytes_notStarted h _ data).conseq (fun _ hs => hs) (fun r _ hs => ?_)
      fun _ _ hE => hE
    cases r.1 with
    | none => exact hs
    | some error => trivial
  writeMap data := after_notStarted (writeBytes_notStarted h _ data)
  setInterrupts regs s hs := hs.dev (h.setInterrupts regs s.dev)

theorem initAddress_notStarted (h : Addressed bus board addr) :
    Triple (NotStarted addr fun _ => True) (vl53l0xInitAddress bus board idx)
      (fun _ => NotStarted addr fun _ => True) Anyhow :=
  initAddress_rule (fun s hs => hs.dev (h.setPorts _ s.dev)) (setSlaveAddress_notStarted h _)
    (deviceIsBooted_rule (notStarted_carries h).toCarriesOn fun _ _ => trivial)
    ((after_notStarted (writeBytes_notStarted h _ _)).conseq (fun _ hs => hs)
      (fun _ _ hs => hs.mono fun _ hs => ⟨hs.statusMultiple, hs.latestRanges, trivial⟩)
      fun _ _ hE => hE)

theorem dataInit_notStarted (h : Addressed bus board addr) :
    Triple (NotStarted addr A) (vl53l0xDataInit bus) (fun _ => NotStarted addr A) Anyhow :=
  dataInit_rule (S := fun _ => NotStarted addr A) (notStarted_carries h).toCarriesOn
    (notStarted_carries h).toCarriesOn (fun _ => readBytes_notStarted h _ _) fun error _ _ =>
      .update fun _ hs => .intro ⟨hs.statusMultiple, hs.latestRanges, hs.slaveAddress⟩ trivial error

theorem initConfig_notStarted (h : Addressed bus board addr) (idx : Vl53l0xIdx) :
    Triple (NotStarted addr A) (vl53l0xInitConfig bus board fuel idx)
      (fun _ => NotStarted addr (· = vl53l0xCfgs idx)) Anyhow :=
  (notStarted_carries h).initConfig (setSlaveAddress_notStarted h _) (dataInit_notStarted h)

theorem initAddresses_notStarted (h : Addressed bus board addr) :
    Triple (NotStarted addr fun _ => True) (vl53l0xInitAddresses bus board)
      (fun _ => NotStarted addr fun _ => True) Anyhow := by
  refine (assertXshutPins_rule fun _ _ => trivial).bind fun _ => ?_
  refine Triple.strengthen (P := NotStarted addr fun _ => True) ?_ fun _ hs => hs.2
  exact (initAddress_notStarted h).bind fun _ => (initAddress_notStarted h).bind fun _ =>
    (initAddress_notStarted h).bind fun _ => (initAddress_notStarted h).bind fun _ =>
      initAddress_notStarted h

theorem init_notStarted (h : Addressed bus board addr) :
    Triple (NotStarted addr fun _ => True) (vl53l0xInit bus board fuel)
      (fun _ t => t.initialized = true ∧ NotStarted addr (· = vl53l0xCfgs .frontRight) t)
      Anyhow := by
  have hi2c : Triple (NotStarted addr fun _ => True) (i2cInit bus board)
      (fun _ => NotStarted addr fun _ => True) Anyhow := by
    refine (notStarted_carries h).i2cInit ?_ fun s hs => hs.dev (h.setI2cInitialized s.dev)
    exact (setSlaveAddress_notStarted h _).conseq (fun _ hs => hs)
      (fun _ _ hs => ⟨hs.statusMultiple, hs.latestRanges, trivial⟩) fun _ _ hE => hE
  refine (Triple.read fun _ hs => hs).bind fun s => ?_
  refine (assert_rule fun _ _ _ => trivial).bind fun _ => .guarded fun _ => ?_
  refine hi2c.bind fun _ => (initAddresses_notStarted h).bind fun _ => ?_
  refine (initConfig_notStarted h _).bind fun _ => (initConfig_notStarted h _).bind fun _ => ?_
  refine (initConfig_notStarted h _).bind fun _ => (initConfig_notStarted h _).bind fun _ => ?_
  refine (initConfig_notStarted h _).bind fun _ => .update fun _ hs => ?_
  exact ⟨rfl, hs.statusMultiple, hs.latestRanges, hs.slaveAddress⟩

/-- What `vl53l0x_init` leaves in the driver, beside sensors at rest. -/
theorem init_initial (h : Addressed bus board addr) {s t : Vl53l0x δ}
    (hstatus : s.statusMultiple = .notStarted)
    (hranges : ∀ idx, s.latestRanges idx = vl53l0xOutOfRange)
    (hrun : vl53l0xInit bus board fuel s = .ok () t) {sensors : Sensors}
    (haddress : sensors.slaveAddress = addr t.dev)
    (hrest : ∀ idx, (sensors.sensor idx).page = 0 ∧ (sensors.sensor idx).Idle)
    (hedge : sensors.edge = false) (hfailed : sensors.failed = []) :
    Initial (mapDev (fun _ => sensors) t) := by
  obtain ⟨hinitialized, ht⟩ := (init_notStarted h).ok ⟨hstatus, hranges, trivial⟩ hrun
  exact ⟨hinitialized, ht.statusMultiple, ht.latestRanges, haddress.trans ht.slaveAddress,
    fun idx => (hrest idx).1, fun idx => (hrest idx).2, hedge, hfailed⟩

end

end Vl53l0x

end Nsumo.Drivers
