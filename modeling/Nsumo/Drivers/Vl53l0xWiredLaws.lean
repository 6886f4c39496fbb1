import Nsumo.Drivers.Vl53l0xInitRules
import Nsumo.Drivers.Vl53l0xWired

namespace Nsumo.Drivers

open Common Lib

namespace Vl53l0x

variable {δ : Type} {bus : Bus δ} {s : Vl53l0x (Wired δ)} {P Q : Vl53l0x (Wired δ) → Prop}
  {E : Vl53l0xStop → Vl53l0x (Wired δ) → Prop}

def moved (status : StatusMultiple) (dev : δ) (s : Vl53l0x (Wired δ)) : Vl53l0x (Wired δ) :=
  { s with statusMultiple := status, dev := { s.dev with dev } }

theorem elapse_wired (bus : Bus δ) (s : Vl53l0x (Wired δ)) :
    ∃ status dev, elapse (Wired.bus bus) s = .ok () (moved status dev s) := by
  cases hinterrupt : (bus.elapse s.dev.dev).1 with
  | false =>
    refine ⟨s.statusMultiple, (bus.elapse s.dev.dev).2, ?_⟩
    change EStateM.Result.ok () (if (bus.elapse s.dev.dev).1 then _ else _) = _
    rw [hinterrupt]
    rfl
  | true =>
    refine ⟨.done, (bus.elapse s.dev.dev).2, ?_⟩
    change EStateM.Result.ok () (if (bus.elapse s.dev.dev).1 then _ else _) = _
    rw [hinterrupt]
    rfl

theorem writeBytes_wired (bus : Bus δ) (reg : Byte) (data : List Byte) (s : Vl53l0x (Wired δ)) :
    ∃ error status dev t, i2cWriteBytes (Wired.bus bus) reg data s = .ok error t ∧
      t = if error = none then
        { moved status dev s with dev := (moved status dev s).dev.perform reg data }
      else moved status dev s := by
  obtain ⟨status, dev, helapse⟩ := elapse_wired bus s
  refine ⟨(bus.write reg data dev).1, status, (bus.write reg data dev).2, _, bind_run helapse, ?_⟩
  cases hwrite : (bus.write reg data dev).1 with
  | none => simp [moved, Wired.bus, hwrite]
  | some error => simp [moved, Wired.bus, hwrite]

theorem readBytes_wired (bus : Bus δ) (reg : Byte) (data : List Byte) (s : Vl53l0x (Wired δ)) :
    ∃ error value status dev, i2cReadBytes (Wired.bus bus) reg data s =
      .ok (error, s.dev.answer reg error value) (moved status dev s) := by
  obtain ⟨status, dev, helapse⟩ := elapse_wired bus s
  exact ⟨_, _, status, _, bind_run helapse⟩

theorem write_wired_rule {reg : Byte} {data : List Byte}
    (hok : ∀ status dev s, P s →
      Q { moved status dev s with dev := (moved status dev s).dev.perform reg data })
    (hfail : ∀ status dev s, P s → E (.result .errorI2c) (moved status dev s)) :
    Triple P (i2cWriteBytes (Wired.bus bus) reg data) (After E Q) E := by
  intro s hs
  obtain ⟨error, status, dev, t, hrun, ht⟩ := writeBytes_wired bus reg data s
  rw [hrun, ht]
  cases error with
  | none => exact hok status dev s hs
  | some error => exact hfail status dev s hs

theorem perform_plain {reg : Byte} (hreg : plainReg reg = true ∨ SpadDevice.isSpadEnable reg = true)
    (data : List Byte) (w : Wired δ) : w.perform reg data = w := by
  have haddress : reg ≠ regSlaveDeviceAddress := by
    rintro rfl
    revert hreg
    decide
  have hstop : reg ≠ 0x91 := by
    rintro rfl
    revert hreg
    decide
  rw [Wired.perform, if_neg haddress, if_neg hstop]

structure Steady (P : Vl53l0x (Wired δ) → Prop) (E : Vl53l0xStop → Vl53l0x (Wired δ) → Prop) :
    Prop where
  moved (status : StatusMultiple) (dev : δ) (s : Vl53l0x (Wired δ)) : P s → P (moved status dev s)
  setInterrupts (regs : IoRegs PinIsr) (s : Vl53l0x (Wired δ)) :
    P s → P { s with dev := Wired.wiredBoard.setInterrupts regs s.dev }
  stop (stop : Vl53l0xStop) (s : Vl53l0x (Wired δ)) : P s → E stop s

theorem Steady.write (h : Steady P E) {reg : Byte} (data : List Byte)
    (hreg : plainReg reg = true ∨ SpadDevice.isSpadEnable reg = true) :
    Triple P (i2cWriteBytes (Wired.bus bus) reg data) (After E P) E := by
  refine write_wired_rule (fun status dev s hs => ?_) fun status dev s hs => ?_
  · rw [perform_plain hreg]
    exact h.moved status dev s hs
  · exact h.stop _ _ (h.moved status dev s hs)

theorem Steady.carries (h : Steady P E) : InitCarries (Wired.bus bus) Wired.wiredBoard P E where
  fuel := h.stop .fuel
  write reg data hreg := h.write [data] (.inl hreg)
  read reg data hreg := by
    intro s hs
    obtain ⟨error, value, status, dev, hrun⟩ := readBytes_wired bus reg data s
    rw [hrun]
    exact .intro (h.moved status dev s hs) (h.stop _ _ (h.moved status dev s hs)) error
  raise := h.stop
  readMap data := by
    intro s hs
    obtain ⟨error, value, status, dev, hrun⟩ :=
      readBytes_wired bus regGlobalConfigSpadEnablesRef0 data s
    rw [hrun]
    cases error with
    | none => exact h.moved status dev s hs
    | some error => exact h.stop _ _ (h.moved status dev s hs)
  writeMap data := h.write data (.inr rfl)
  setInterrupts := h.setInterrupts

theorem Steady.and (h : Steady P E) (hQ : Steady Q fun _ _ => True) :
    Steady (fun s => Q s ∧ P s) E where
  moved status dev s hs := ⟨hQ.moved status dev s hs.1, h.moved status dev s hs.2⟩
  setInterrupts regs s hs := ⟨hQ.setInterrupts regs s hs.1, h.setInterrupts regs s hs.2⟩
  stop stop s hs := h.stop stop s hs.2

theorem Steady.addressed (h : Steady P E) (addr : Byte) :
    Steady (fun s => s.dev.slaveAddress = addr ∧ P s) E :=
  h.and ⟨fun _ _ _ hs => hs, fun _ _ hs => hs, fun _ _ _ => trivial⟩

theorem Steady.stored (h : Steady P E) (stopVariable : Byte) :
    Steady (fun s => s.stopVariable = stopVariable ∧ P s) E :=
  h.and ⟨fun _ _ _ hs => hs, fun _ _ hs => hs, fun _ _ _ => trivial⟩

def Unique (addresses : Vl53l0xIdx → Option Byte) : Prop :=
  ∀ idx idx' addr, addresses idx = some addr → addresses idx' = some addr → idx = idx'

def assigned (woken : List Vl53l0xIdx) (idx : Vl53l0xIdx) : Option Byte :=
  if idx ∈ woken then some (vl53l0xCfgs idx) else none

def waking (woken : List Vl53l0xIdx) (new idx : Vl53l0xIdx) : Option Byte :=
  if idx = new then some vl53l0xDefaultAddress else assigned woken idx

theorem cfgs_injective : Function.Injective vl53l0xCfgs := by
  intro idx idx' h
  cases idx <;> cases idx' <;> first | rfl | cases h

theorem cfgs_ne_default (idx : Vl53l0xIdx) : vl53l0xCfgs idx ≠ vl53l0xDefaultAddress := by
  cases idx <;> decide

theorem assigned_eq_some {woken : List Vl53l0xIdx} {idx : Vl53l0xIdx} {addr : Byte} :
    assigned woken idx = some addr ↔ idx ∈ woken ∧ vl53l0xCfgs idx = addr := by
  simp [assigned]

theorem unique_assigned (woken : List Vl53l0xIdx) : Unique (assigned woken) := by
  intro idx idx' addr h h'
  exact cfgs_injective ((assigned_eq_some.mp h).2.trans (assigned_eq_some.mp h').2.symm)

theorem assigned_ne_default (woken : List Vl53l0xIdx) (idx : Vl53l0xIdx) :
    assigned woken idx ≠ some vl53l0xDefaultAddress :=
  fun h => cfgs_ne_default idx (assigned_eq_some.mp h).2

theorem unique_waking (woken : List Vl53l0xIdx) (new : Vl53l0xIdx) : Unique (waking woken new) := by
  intro idx idx' addr h h'
  unfold waking at h h'
  split at h <;> split at h'
  case isTrue.isTrue heq heq' => exact heq.trans heq'.symm
  case isTrue.isFalse => exact absurd (h'.trans h.symm) (assigned_ne_default woken idx')
  case isFalse.isTrue => exact absurd (h.trans h'.symm) (assigned_ne_default woken idx)
  case isFalse.isFalse => exact unique_assigned woken idx idx' addr h h'

structure Recorded (stops : Vl53l0xIdx → Byte) (addresses : Vl53l0xIdx → Option Byte)
    (w : Wired δ) : Prop where
  listen : w.addresses = addresses
  snapshots : ∀ snapshot ∈ w.snapshots, Unique snapshot
  stops : w.stops = stops
  stopWrites : w.stopWrites = []

structure Listening (stops : Vl53l0xIdx → Byte) (addresses : Vl53l0xIdx → Option Byte)
    (w : Wired δ) : Prop extends Recorded stops addresses w where
  awake (idx : Vl53l0xIdx) : Wired.awake w.board.ports idx = (addresses idx).isSome

variable {w w' : Wired δ} {stops : Vl53l0xIdx → Byte} {addresses : Vl53l0xIdx → Option Byte}
  {woken : List Vl53l0xIdx} {new : Vl53l0xIdx}

theorem Recorded.of_eq (h : Recorded stops addresses w) (haddresses : w'.addresses = w.addresses)
    (hsnapshots : w'.snapshots = w.snapshots) (hstops : w'.stops = w.stops)
    (hwrites : w'.stopWrites = w.stopWrites) : Recorded stops addresses w' where
  listen := haddresses.trans h.listen
  snapshots := by rw [hsnapshots]; exact h.snapshots
  stops := hstops.trans h.stops
  stopWrites := hwrites.trans h.stopWrites

theorem Listening.of_eq (h : Listening stops addresses w) (haddresses : w'.addresses = w.addresses)
    (hports : w'.board.ports = w.board.ports) (hsnapshots : w'.snapshots = w.snapshots)
    (hstops : w'.stops = w.stops) (hwrites : w'.stopWrites = w.stopWrites) :
    Listening stops addresses w' where
  toRecorded := h.toRecorded.of_eq haddresses hsnapshots hstops hwrites
  awake idx := by rw [hports, h.awake]

theorem Recorded.listenAt (h : Recorded stops addresses w) {addresses' : Vl53l0xIdx → Option Byte}
    (hunique : Unique addresses') : Recorded stops addresses' (w.listenAt addresses') where
  listen := rfl
  snapshots snapshot hmem := by
    obtain rfl | hmem := List.mem_cons.mp hmem
    · exact hunique
    · exact h.snapshots snapshot hmem
  stops := h.stops
  stopWrites := h.stopWrites

theorem xshutIo_place {idx idx' : Vl53l0xIdx} (h : idx ≠ idx') :
    (xshutIo idx).place ≠ (xshutIo idx').place := by
  revert h
  cases idx <;> cases idx' <;> decide

theorem awake_setOut (ports : PortRegs) (new idx : Vl53l0xIdx) :
    Wired.awake (PortRegs.ioSetOut (xshutIo new) .high ports) idx =
      (decide (idx = new) || Wired.awake ports idx) := by
  by_cases hidx : idx = new
  · subst hidx
    rw [Wired.awake, PortRegs.getCurrentConfig_setOut]
    simp
  · rw [Wired.awake, PortRegs.getCurrentConfig_setOut_of_ne (xshutIo_place hidx), Wired.awake]
    simp [hidx]

theorem Listening.wake (h : Listening stops (assigned woken) w) (hnew : new ∉ woken) :
    Listening stops (waking woken new)
      (w.setPorts (PortRegs.ioSetOut (xshutIo new) .high w.board.ports)) := by
  have haddresses : (fun idx =>
      if Wired.awake (PortRegs.ioSetOut (xshutIo new) .high w.board.ports) idx then
        some ((w.addresses idx).getD vl53l0xDefaultAddress)
      else none) = waking woken new := by
    funext idx
    rw [awake_setOut, h.awake, h.listen, waking]
    by_cases hidx : idx = new
    · simp [hidx, assigned, hnew]
    · cases hassigned : assigned woken idx <;> simp [hidx]
  have hports : Recorded stops (assigned woken)
      { w with board.ports := PortRegs.ioSetOut (xshutIo new) .high w.board.ports } :=
    h.toRecorded.of_eq rfl rfl rfl rfl
  refine ⟨?_, fun idx => (awake_setOut w.board.ports new idx).trans ?_⟩
  · rw [Wired.setPorts, haddresses]
    exact hports.listenAt (unique_waking woken new)
  · rw [h.awake, waking]
    by_cases hidx : idx = new <;> simp [hidx]

theorem mem_listeners {idx : Vl53l0xIdx} :
    idx ∈ w.listeners ↔ w.addresses idx = some w.slaveAddress := by
  cases idx <;> simp [Wired.listeners]

theorem Listening.configure (h : Listening stops (waking woken new) w)
    (haddress : w.slaveAddress = vl53l0xDefaultAddress) :
    Listening stops (assigned (new :: woken))
      (w.perform regSlaveDeviceAddress [vl53l0xCfgs new &&& 0x7F]) := by
  have hown : vl53l0xCfgs new &&& 0x7F = vl53l0xCfgs new := by
    cases new <;> decide
  have hlisteners : ∀ idx, idx ∈ w.listeners ↔ idx = new := by
    intro idx
    rw [mem_listeners, h.listen, haddress, waking]
    split
    case isTrue hidx => simp [hidx]
    case isFalse hidx => simp [hidx, assigned_ne_default]
  have haddresses : (fun idx => if idx ∈ w.listeners then
      some (vl53l0xCfgs new &&& 0x7F) else w.addresses idx) = assigned (new :: woken) := by
    funext idx
    rw [h.listen, hown, waking]
    by_cases hidx : idx = new
    · simp [hlisteners, hidx, assigned]
    · simp [hlisteners, hidx, assigned]
  refine ⟨?_, fun idx => (h.awake idx).trans ?_⟩
  · rw [Wired.perform, if_pos rfl, List.headD_cons, haddresses]
    exact h.toRecorded.listenAt (unique_assigned _)
  · rw [waking, assigned, assigned]
    by_cases hidx : idx = new <;> simp [hidx]

def UniqueSoFar (_ : Vl53l0xStop) (s : Vl53l0x (Wired δ)) : Prop :=
  ∀ snapshot ∈ s.dev.snapshots, Unique snapshot

theorem listening_steady (stops : Vl53l0xIdx → Byte) (addresses : Vl53l0xIdx → Option Byte) :
    Steady (fun s : Vl53l0x (Wired δ) => Listening stops addresses s.dev) UniqueSoFar where
  moved _ _ _ h := h.of_eq rfl rfl rfl rfl rfl
  setInterrupts _ _ h := h.of_eq rfl rfl rfl rfl rfl
  stop _ _ h := h.snapshots

theorem recorded_steady (stops : Vl53l0xIdx → Byte) (addresses : Vl53l0xIdx → Option Byte) :
    Steady (fun s : Vl53l0x (Wired δ) => Recorded stops addresses s.dev) UniqueSoFar where
  moved _ _ _ h := h.of_eq rfl rfl rfl rfl
  setInterrupts _ _ h := h.of_eq rfl rfl rfl rfl
  stop _ _ h := h.snapshots

theorem setSlaveAddress_listening (addr : Byte) :
    Triple (fun s => Listening stops addresses s.dev) (i2cSetSlaveAddress (Wired.bus bus) addr)
      (fun _ s => s.dev.slaveAddress = addr ∧ Listening stops addresses s.dev) E :=
  .update fun _ h => ⟨rfl, h.of_eq rfl rfl rfl rfl rfl⟩

theorem initAddress_listening (hnew : new ∉ woken) :
    Triple (fun s => Listening stops (assigned woken) s.dev)
      (vl53l0xInitAddress (Wired.bus bus) Wired.wiredBoard new)
      (fun _ s => Listening stops (assigned (new :: woken)) s.dev) UniqueSoFar := by
  have hsteady :=
    (@listening_steady δ stops (waking woken new)).addressed vl53l0xDefaultAddress
  refine initAddress_rule (fun _ h => h.wake hnew)
    (setSlaveAddress_listening vl53l0xDefaultAddress)
    (deviceIsBooted_rule hsteady.carries.toCarriesOn fun _ h => h.2.snapshots) ?_
  refine write_wired_rule (fun status dev s h => ?_) fun status dev s h => h.2.snapshots
  exact Listening.configure (h.2.of_eq rfl rfl rfl rfl rfl) h.1

def allSensors : List Vl53l0xIdx := [.frontRight, .frontLeft, .right, .left, .front]

theorem assigned_allSensors (idx : Vl53l0xIdx) : assigned allSensors idx = some (vl53l0xCfgs idx) := by
  cases idx <;> rfl

theorem listeners_allSensors {idx : Vl53l0xIdx} (h : w.addresses = assigned allSensors)
    (haddress : w.slaveAddress = vl53l0xCfgs idx) : w.listeners = [idx] := by
  have hlistening : ∀ idx', w.addresses idx' = some w.slaveAddress ↔
      vl53l0xCfgs idx' = vl53l0xCfgs idx := by
    intro idx'
    rw [h, assigned_allSensors, haddress, Option.some.injEq]
  simp only [Wired.listeners, hlistening]
  cases idx <;> rfl

theorem dataInit_listening (idx : Vl53l0xIdx) :
    Triple (fun s => s.dev.slaveAddress = vl53l0xCfgs idx ∧
        Listening stops (assigned allSensors) s.dev)
      (vl53l0xDataInit (Wired.bus bus))
      (fun _ s => s.stopVariable = stops idx ∧ Listening stops (assigned allSensors) s.dev)
      UniqueSoFar := by
  have hstored := (@listening_steady δ stops (assigned allSensors)).stored (stops idx)
  have haddressed := (@listening_steady δ stops (assigned allSensors)).addressed (vl53l0xCfgs idx)
  -- What is read is the stop variable of the only sensor at the address, unless the read fails.
  refine dataInit_rule (S := fun r s => (r.1 = none → r.2 = [stops idx]) ∧
    Listening stops (assigned allSensors) s.dev) haddressed.carries.toCarriesOn
    hstored.carries.toCarriesOn (fun old => ?_) fun error data old => ?_
  · rintro s ⟨haddress, h⟩
    obtain ⟨error, value, status, dev, hrun⟩ := readBytes_wired bus 0x91 [old] s
    rw [hrun]
    refine ⟨?_, h.of_eq rfl rfl rfl rfl rfl⟩
    rintro rfl
    rw [Wired.answer, if_pos ⟨rfl, rfl⟩, listeners_allSensors h.listen haddress, h.stops]
    rfl
  · refine .update fun s hs => ?_
    cases error with
    | none =>
      obtain ⟨hdata, h⟩ := hs
      cases hdata rfl
      exact ⟨rfl, h⟩
    | some error => exact hs.2.snapshots

theorem initConfig_listening (idx : Vl53l0xIdx) (fuel : Nat) :
    Triple (fun s => Listening stops (assigned allSensors) s.dev)
      (vl53l0xInitConfig (Wired.bus bus) Wired.wiredBoard fuel idx)
      (fun _ s => s.stopVariable = stops idx ∧ Listening stops (assigned allSensors) s.dev)
      UniqueSoFar :=
  ((listening_steady stops (assigned allSensors)).stored (stops idx)).carries.initConfig
    (setSlaveAddress_listening _) (dataInit_listening idx)

theorem Recorded.listening (h : Recorded stops (assigned []) w)
    (hpins : ∀ idx, PortRegs.ioGetCurrentConfig (xshutIo idx) w.board.ports = xshutConfig) :
    Listening stops (assigned []) w where
  toRecorded := h
  awake idx := by rw [Wired.awake, hpins]; rfl

theorem initAddresses_listening :
    Triple (fun s => Recorded stops (assigned []) s.dev)
      (vl53l0xInitAddresses (Wired.bus bus) Wired.wiredBoard)
      (fun _ s => Listening stops (assigned allSensors) s.dev) UniqueSoFar := by
  refine (assertXshutPins_rule fun _ h => h.snapshots).bind fun _ => ?_
  refine Triple.strengthen (P := fun s => Listening stops (assigned []) s.dev) ?_
    fun s hs => hs.2.listening hs.1
  exact (initAddress_listening (by decide)).bind fun _ =>
    (initAddress_listening (by decide)).bind fun _ =>
    (initAddress_listening (by decide)).bind fun _ =>
    (initAddress_listening (by decide)).bind fun _ => initAddress_listening (by decide)

theorem i2cInit_recorded :
    Triple (fun s => Recorded stops (assigned []) s.dev) (i2cInit (Wired.bus bus) Wired.wiredBoard)
      (fun _ s => Recorded stops (assigned []) s.dev) UniqueSoFar :=
  (recorded_steady stops (assigned [])).carries.i2cInit (.update fun _ h => h.of_eq rfl rfl rfl rfl)
    fun _ h => h.of_eq rfl rfl rfl rfl

theorem init_listening (fuel : Nat) :
    Triple (fun s => Recorded stops (assigned []) s.dev)
      (vl53l0xInit (Wired.bus bus) Wired.wiredBoard fuel)
      (fun _ s => s.stopVariable = stops .frontRight ∧
        Listening stops (assigned allSensors) s.dev) UniqueSoFar := by
  have hconfig (idx : Vl53l0xIdx) :
      Triple (fun s => Listening stops (assigned allSensors) s.dev)
        (vl53l0xInitConfig (Wired.bus bus) Wired.wiredBoard fuel idx)
        (fun _ s => Listening stops (assigned allSensors) s.dev) UniqueSoFar :=
    (initConfig_listening idx fuel).conseq (fun _ h => h) (fun _ _ h => h.2) fun _ _ h => h
  refine (Triple.read fun _ h => h).bind fun s => ?_
  refine (assert_rule fun _ _ h => h.snapshots).bind fun _ => .guarded fun _ => ?_
  refine i2cInit_recorded.bind fun _ => initAddresses_listening.bind fun _ => ?_
  refine (hconfig _).bind fun _ => (hconfig _).bind fun _ => (hconfig _).bind fun _ => ?_
  refine (hconfig _).bind fun _ => (initConfig_listening _ fuel).bind fun _ => ?_
  exact .update fun _ h => ⟨h.1, h.2.of_eq rfl rfl rfl rfl rfl⟩

theorem wired_recorded (s : Vl53l0x δ) (board : BoardState) (stops : Vl53l0xIdx → Byte) :
    Recorded stops (assigned []) (wired s board stops).dev where
  listen := rfl
  snapshots snapshot hmem := by
    obtain rfl := List.mem_singleton.mp hmem
    exact nofun
  stops := rfl
  stopWrites := rfl

def wiredInit (bus : Bus δ) (fuel : Nat) (s : Vl53l0x δ) (board : BoardState)
    (stops : Vl53l0xIdx → Byte) : EStateM.Result Vl53l0xStop (Vl53l0x (Wired δ)) Unit :=
  vl53l0xInit (Wired.bus bus) Wired.wiredBoard fuel (wired s board stops)

theorem init_addresses (bus : Bus δ) (fuel : Nat) (s : Vl53l0x δ) (board : BoardState)
    (stops : Vl53l0xIdx → Byte) :
    (∀ snapshot ∈ (stateAfter (wiredInit bus fuel s board stops)).dev.snapshots,
        Unique snapshot) ∧
      ∀ t, wiredInit bus fuel s board stops = .ok () t →
        ∀ idx, t.dev.addresses idx = some (vl53l0xCfgs idx) := by
  have hinit := @init_listening δ bus stops fuel
  have hstart := wired_recorded s board stops
  have hunique : Triple (fun s => Recorded stops (assigned []) s.dev)
      (vl53l0xInit (Wired.bus bus) Wired.wiredBoard fuel)
      (fun _ s => ∀ snapshot ∈ s.dev.snapshots, Unique snapshot)
      fun _ s => ∀ snapshot ∈ s.dev.snapshots, Unique snapshot :=
    hinit.conseq (fun _ h => h) (fun _ _ h => h.2.snapshots) fun _ _ h => h
  refine ⟨hunique.after hstart, fun t ht idx => ?_⟩
  obtain ⟨-, h⟩ := hinit.ok hstart ht
  rw [h.listen, assigned_allSensors]

def readyBus : Bus Unit where
  elapse d := (false, d)
  setSlaveAddress _ d := d
  write _ _ d := (none, d)
  read reg data d :=
    let value : Byte :=
      if reg = regIdentificationModelId then vl53l0xExpectedDeviceId
      else if reg = regSysrangeStart then 0x00
      else 0x05
    (none, data.map fun _ => value, d)

def unstarted : Vl53l0x Unit where
  stopVariable := 0
  statusMultiple := .notStarted
  initialized := false
  latestRanges _ := vl53l0xOutOfRange
  dev := ()

def frontStop : Vl53l0xIdx → Byte
  | .front => 0x3C
  | _ => 0x3D

def stopWritesOf (run : EStateM.Result Vl53l0xStop (Vl53l0x (Wired δ)) Unit) :
    Option (List (Vl53l0xIdx × Byte)) :=
  match run with
  | .ok _ t => some t.dev.stopWrites
  | .error _ _ => none

theorem ok_of_stopWritesOf {run : EStateM.Result Vl53l0xStop (Vl53l0x (Wired δ)) Unit}
    {writes : List (Vl53l0xIdx × Byte)} (h : stopWritesOf run = some writes) :
    ∃ t, run = .ok () t ∧ t.dev.stopWrites = writes := by
  cases run with
  | ok _ t => exact ⟨t, rfl, Option.some.inj h⟩
  | error _ _ => cases h

theorem init_ready : stopWritesOf (wiredInit readyBus 1 unstarted BoardState.boot frontStop) =
    some [] := by
  decide +kernel

theorem init_addresses_ready :
    ∃ t, wiredInit readyBus 1 unstarted BoardState.boot frontStop = .ok () t ∧
      ∀ idx, t.dev.addresses idx = some (vl53l0xCfgs idx) := by
  obtain ⟨t, hinit, -⟩ := ok_of_stopWritesOf init_ready
  exact ⟨t, hinit, (init_addresses readyBus 1 unstarted BoardState.boot frontStop).2 t hinit⟩

end Vl53l0x

end Nsumo.Drivers
