import Nsumo.Drivers.Vl53l0xInitRules
import Nsumo.Drivers.Vl53l0xLoggedLaws

namespace Nsumo.Drivers

open Common Lib

def Board.logged {δ : Type} (board : Board δ) : Board (Vl53l0x.Logged δ) where
  ports d := board.ports d.dev
  setPorts ports d := { d with dev := board.setPorts ports d.dev }
  interrupts d := board.interrupts d.dev
  setInterrupts regs d := { d with dev := board.setInterrupts regs d.dev }
  i2cInitialized d := board.i2cInitialized d.dev
  setI2cInitialized d := { d with dev := board.setI2cInitialized d.dev }

namespace Vl53l0x

/-- What a function returns at once after a transfer with an error. -/
def BusEvent.stop : BusEvent → Vl53l0xStop
  | .read reg (some error) =>
    if reg = regGlobalConfigSpadEnablesRef0 then .result (i2cResult error) else .result .errorI2c
  | _ => .result .errorI2c

variable {δ : Type} {bus : Bus δ} {board : Board δ} {s t : Vl53l0x (Logged δ)} {event : BusEvent}
  {b : Bool} {fuel : Nat}

def NoneFailed (s : Vl53l0x (Logged δ)) : Prop :=
  s.initialized = false ∧ ∀ event ∈ s.dev.log, event.error = none

inductive InitEnd (stop : Vl53l0xStop) (s : Vl53l0x (Logged δ)) : Prop
  | clean : NoneFailed s → InitEnd stop s
  | failed {events : List BusEvent} {event : BusEvent} : s.initialized = false →
      s.dev.log = events ++ [event] → (∀ e ∈ events, e.error = none) → event.error ≠ none →
      stop = event.stop → InitEnd stop s

theorem NoneFailed.next (hs : NoneFailed s) (hlog : t.dev.log = s.dev.log ++ [.elapsed b, event])
    (hinitialized : t.initialized = s.initialized) (hok : event.error = none) : NoneFailed t := by
  refine ⟨hinitialized.trans hs.1, fun e he => ?_⟩
  rw [hlog] at he
  rcases List.mem_append.mp he with he | he
  · exact hs.2 e he
  · simp only [List.mem_cons, List.not_mem_nil, or_false] at he
    obtain rfl | rfl := he
    · rfl
    · exact hok

theorem NoneFailed.fail (hs : NoneFailed s) (hlog : t.dev.log = s.dev.log ++ [.elapsed b, event])
    (hinitialized : t.initialized = s.initialized) (hfail : event.error ≠ none) :
    InitEnd event.stop t := by
  have hsplit : t.dev.log = (s.dev.log ++ [.elapsed b]) ++ [event] := by
    rw [hlog, List.append_assoc]
    rfl
  refine .failed (hinitialized.trans hs.1) hsplit (fun e he => ?_) hfail rfl
  rcases List.mem_append.mp he with he | he
  · exact hs.2 e he
  · rw [List.mem_singleton.mp he]
    rfl

theorem NoneFailed.after (hs : NoneFailed s) (hlog : t.dev.log = s.dev.log ++ [.elapsed b, event])
    (hinitialized : t.initialized = s.initialized) (hstop : event.stop = .result .errorI2c) :
    After InitEnd NoneFailed event.error t := by
  cases herror : event.error with
  | none => exact hs.next hlog hinitialized herror
  | some error =>
    have hend := hs.fail hlog hinitialized (by rw [herror]; exact nofun)
    rw [hstop] at hend
    exact hend

theorem writeBytes_noneFailed (reg : Byte) (data : List Byte) :
    Triple NoneFailed (i2cWriteBytes (Logged.bus bus) reg data) (After InitEnd NoneFailed) InitEnd := by
  intro s hs
  obtain ⟨b, d, t, ht, hlog, hinitialized⟩ := writeBytes_run bus reg data s
  rw [ht]
  exact hs.after hlog hinitialized rfl

theorem readBytes_noneFailed {reg : Byte} (hreg : reg ≠ regGlobalConfigSpadEnablesRef0)
    (data : List Byte) :
    Triple NoneFailed (i2cReadBytes (Logged.bus bus) reg data) (fun r => After InitEnd NoneFailed r.1)
      InitEnd := by
  intro s hs
  obtain ⟨b, d, t, ht, hlog, hinitialized⟩ := readBytes_run bus reg data s
  rw [ht]
  refine hs.after hlog hinitialized ?_
  cases (bus.read reg data d).1 with
  | none => rfl
  | some error => exact if_neg hreg

theorem readMap_noneFailed (data : List Byte) :
    Triple NoneFailed (i2cReadBytes (Logged.bus bus) regGlobalConfigSpadEnablesRef0 data)
      (fun r s => match r.1 with
        | none => NoneFailed s
        | some error => InitEnd (.result (i2cResult error)) s) InitEnd := by
  intro s hs
  obtain ⟨b, d, t, ht, hlog, hinitialized⟩ :=
    readBytes_run bus regGlobalConfigSpadEnablesRef0 data s
  rw [ht]
  dsimp only
  cases herror : (bus.read regGlobalConfigSpadEnablesRef0 data d).1 with
  | none => exact hs.next hlog hinitialized herror
  | some error =>
    rw [herror] at hlog
    exact hs.fail hlog hinitialized nofun

theorem setStopVariable_noneFailed (error : Option I2cError) (stopVariable : Byte) :
    Triple (After InitEnd NoneFailed error)
      (setStopVariable stopVariable : Driver (Logged δ) Unit)
      (fun _ => After InitEnd NoneFailed error) InitEnd := by
  refine .update fun s hs => ?_
  cases error with
  | none => exact hs
  | some e =>
    cases hs with
    | clean hclean => exact .clean hclean
    | failed hinitialized hlog hevents hfail hstop =>
      exact .failed hinitialized hlog hevents hfail hstop

theorem noneFailed_carriesOn : CarriesOn plainReg (Logged.bus bus) NoneFailed InitEnd where
  fuel _ hs := .clean hs
  write reg data _ := writeBytes_noneFailed reg [data]
  read reg data hreg := readBytes_noneFailed (by rintro rfl; cases hreg) data

theorem noneFailed_carries :
    InitCarries (Logged.bus bus) board.logged NoneFailed InitEnd where
  toCarriesOn := noneFailed_carriesOn
  raise _ _ hs := .clean hs
  readMap := readMap_noneFailed
  writeMap := writeBytes_noneFailed _
  setInterrupts _ _ hs := hs

theorem dataInit_noneFailed :
    Triple NoneFailed (vl53l0xDataInit (Logged.bus bus)) (fun _ => NoneFailed) InitEnd :=
  dataInit_rule noneFailed_carriesOn noneFailed_carriesOn
    (fun old => readBytes_noneFailed (by decide) [old])
    fun error data old => setStopVariable_noneFailed error (data.headD old)

theorem initAddress_noneFailed (idx : Vl53l0xIdx) :
    Triple NoneFailed (vl53l0xInitAddress (Logged.bus bus) board.logged idx)
      (fun _ => NoneFailed) InitEnd :=
  initAddress_rule (fun _ hs => hs) (.update fun _ hs => hs)
    (deviceIsBooted_rule noneFailed_carriesOn fun _ hs => .clean hs) (writeBytes_noneFailed _ _)

theorem initAddresses_noneFailed :
    Triple NoneFailed (vl53l0xInitAddresses (Logged.bus bus) board.logged) (fun _ => NoneFailed)
      InitEnd := by
  refine (assertXshutPins_rule fun _ hs => .clean hs).bind fun _ => ?_
  refine Triple.strengthen (P := NoneFailed) ?_ fun _ hs => hs.2
  exact (initAddress_noneFailed _).bind fun _ => (initAddress_noneFailed _).bind fun _ =>
    (initAddress_noneFailed _).bind fun _ => (initAddress_noneFailed _).bind fun _ =>
      initAddress_noneFailed _

theorem initConfig_noneFailed (fuel : Nat) (idx : Vl53l0xIdx) :
    Triple NoneFailed (vl53l0xInitConfig (Logged.bus bus) board.logged fuel idx)
      (fun _ => NoneFailed) InitEnd :=
  noneFailed_carries.initConfig (.update fun _ hs => hs) dataInit_noneFailed

theorem i2cInit_noneFailed :
    Triple NoneFailed (i2cInit (Logged.bus bus) board.logged) (fun _ => NoneFailed) InitEnd :=
  noneFailed_carries.i2cInit (.update fun _ hs => hs) fun _ hs => hs

theorem init_end (fuel : Nat) :
    Triple NoneFailed (vl53l0xInit (Logged.bus bus) board.logged fuel)
      (fun _ t => t.initialized = true ∧ ∀ event ∈ t.dev.log, event.error = none) InitEnd := by
  refine (Triple.read fun _ hs => hs).bind fun s => ?_
  refine (assert_rule fun _ _ hs => .clean hs).bind fun _ => .guarded fun _ => ?_
  refine i2cInit_noneFailed.bind fun _ => initAddresses_noneFailed.bind fun _ => ?_
  refine (initConfig_noneFailed fuel _).bind fun _ => (initConfig_noneFailed fuel _).bind fun _ => ?_
  refine (initConfig_noneFailed fuel _).bind fun _ => (initConfig_noneFailed fuel _).bind fun _ => ?_
  refine (initConfig_noneFailed fuel _).bind fun _ => ?_
  exact .update fun _ hs => ⟨rfl, hs.2⟩

def initRun (bus : Bus δ) (board : Board δ) (fuel : Nat) (s : Vl53l0x δ) :
    EStateM.Result Vl53l0xStop (Vl53l0x (Logged δ)) Unit :=
  vl53l0xInit (Logged.bus bus) board.logged fuel (logged s)

structure ErrorsReported (run : EStateM.Result Vl53l0xStop (Vl53l0x (Logged δ)) Unit) :
    Prop where
  failed (pre post : List BusEvent) (event : BusEvent) :
    (stateAfter run).dev.log = pre ++ event :: post → event.error ≠ none →
      post = [] ∧ (stateAfter run).initialized = false ∧
        ∃ t, run = .error (.result .errorI2c) t
  ok (t : Vl53l0x (Logged δ)) : run = .ok () t →
    t.initialized = true ∧ ∀ event ∈ t.dev.log, event.error = none

/-- The read of the good SPADs fails, and its error is not the one that has the number of
`VL53L0X_RESULT_ERROR_I2C`. -/
def BusEvent.Misreported (event : BusEvent) : Prop :=
  ∃ error, event = .read regGlobalConfigSpadEnablesRef0 (some error) ∧ error ≠ .start

theorem BusEvent.not_misreported (hok : event.error = none) : ¬event.Misreported := by
  rintro ⟨error, rfl, -⟩
  cases hok

theorem i2cResult_eq_errorI2c_iff (error : I2cError) :
    i2cResult error = .errorI2c ↔ error = .start := by
  cases error <;> decide

theorem BusEvent.stop_eq_errorI2c_iff (hfail : event.error ≠ none) :
    event.stop = .result .errorI2c ↔ ¬event.Misreported := by
  cases event with
  | elapsed interrupt => exact absurd rfl hfail
  | written reg data error => exact iff_of_true rfl (by rintro ⟨error, ⟨⟩, -⟩)
  | read reg error =>
    cases error with
    | none => exact absurd rfl hfail
    | some error =>
      rw [BusEvent.stop]
      split
      case isTrue hreg =>
        rw [Vl53l0xStop.result.injEq, i2cResult_eq_errorI2c_iff]
        constructor
        · rintro rfl ⟨e, heq, hne⟩
          cases heq
          exact hne rfl
        · intro hreported
          by_contra hne
          exact hreported ⟨error, by rw [hreg], hne⟩
      case isFalse hreg =>
        refine iff_of_true rfl ?_
        rintro ⟨e, heq, -⟩
        cases heq
        exact hreg rfl

theorem errorsReported_of_none {run : EStateM.Result Vl53l0xStop (Vl53l0x (Logged δ)) Unit}
    (hnone : ∀ event ∈ (stateAfter run).dev.log, event.error = none)
    (hok : ∀ t, run = .ok () t → t.initialized = true) : ErrorsReported run where
  failed pre post event hlog hfail :=
    absurd (hnone event (by rw [hlog]; exact List.mem_append_right _ List.mem_cons_self)) hfail
  ok t ht := ⟨hok t ht, by rw [ht] at hnone; exact hnone⟩

theorem errorsReported_failed {stop : Vl53l0xStop} {events : List BusEvent}
    (hinitialized : t.initialized = false) (hlog : t.dev.log = events ++ [event])
    (hevents : ∀ e ∈ events, e.error = none) (hfail : event.error ≠ none) :
    ErrorsReported (.error stop t) ↔ stop = .result .errorI2c := by
  constructor
  · intro h
    obtain ⟨-, -, u, hu⟩ := h.failed events [] event hlog hfail
    cases hu
    rfl
  · rintro rfl
    refine ⟨fun pre post e he hfailed => ⟨?_, hinitialized, t, rfl⟩, fun u hu => by cases hu⟩
    change t.dev.log = pre ++ e :: post at he
    rw [hlog] at he
    obtain rfl | ⟨post, last, rfl⟩ := List.eq_nil_or_concat post
    · rfl
    · rw [List.concat_eq_append, ← List.cons_append, ← List.append_assoc] at he
      have hsplit := List.append_inj_left' he rfl
      exact absurd (hevents e (by rw [hsplit]; simp)) hfailed

theorem reported_iff_of_none {run : EStateM.Result Vl53l0xStop (Vl53l0x (Logged δ)) Unit}
    (hnone : ∀ event ∈ (stateAfter run).dev.log, event.error = none)
    (hok : ∀ t, run = .ok () t → t.initialized = true) :
    ErrorsReported run ↔ ∀ event ∈ (stateAfter run).dev.log, ¬event.Misreported :=
  iff_of_true (errorsReported_of_none hnone hok) fun event hevent =>
    BusEvent.not_misreported (hnone event hevent)

theorem InitEnd.reported_iff {stop : Vl53l0xStop} (h : InitEnd stop t) :
    ErrorsReported (.error stop t) ↔ ∀ event ∈ t.dev.log, ¬event.Misreported := by
  cases h with
  | clean hnone => exact reported_iff_of_none hnone.2 nofun
  | @failed events event hinitialized hlog hevents hfail hstop =>
    rw [errorsReported_failed hinitialized hlog hevents hfail, hstop,
      BusEvent.stop_eq_errorI2c_iff hfail, hlog]
    constructor
    · intro hreported e he
      rcases List.mem_append.mp he with he | he
      · exact BusEvent.not_misreported (hevents e he)
      · rwa [List.mem_singleton.mp he]
    · exact fun h => h event (List.mem_append_right _ List.mem_cons_self)

theorem errors_reported_iff (bus : Bus δ) (board : Board δ) (fuel : Nat) (s : Vl53l0x δ) :
    ErrorsReported (initRun bus board fuel s) ↔
      ∀ event ∈ (stateAfter (initRun bus board fuel s)).dev.log, ¬event.Misreported := by
  cases hinitialized : s.initialized with
  | true =>
    have hrun : initRun bus board fuel s = .error .assert (logged s) := by
      change (vl53l0xAssert (!s.initialized) >>= _ : Driver (Logged δ) Unit) (logged s) = _
      rw [hinitialized]
      rfl
    rw [hrun]
    exact reported_iff_of_none nofun nofun
  | false =>
    have htriple := @init_end δ bus board fuel
    have hstart : NoneFailed (logged s) := ⟨hinitialized, nofun⟩
    cases hrun : initRun bus board fuel s with
    | ok _ t =>
      obtain ⟨hdone, hnone⟩ := htriple.ok hstart hrun
      refine reported_iff_of_none hnone fun u hu => ?_
      cases hu
      exact hdone
    | error stop t => exact (htriple.error hstart hrun).reported_iff

def nackBus : Bus BoardState where
  elapse d := (false, d)
  setSlaveAddress _ d := d
  write _ _ d := (none, d)
  read reg data d :=
    if reg = regGlobalConfigSpadEnablesRef0 then
      (some .tx, data, d)
    else
      (none, data.map fun _ => vl53l0xExpectedDeviceId, d)

def atBoot : Vl53l0x BoardState where
  stopVariable := 0
  statusMultiple := .notStarted
  initialized := false
  latestRanges _ := vl53l0xOutOfRange
  dev := BoardState.boot

theorem initRun_nack : reported (initRun nackBus BoardState.board 1 atBoot) =
    (some (.result .errorBoot),
      some (.read regGlobalConfigSpadEnablesRef0 (some .tx))) := by
  decide +kernel

theorem not_errorsReported_nack :
    ¬ErrorsReported (initRun nackBus BoardState.board 1 atBoot) := by
  intro h
  have hnack := initRun_nack
  cases hrun : initRun nackBus BoardState.board 1 atBoot with
  | ok _ t =>
    rw [hrun] at hnack
    cases hnack
  | error stop t =>
    rw [hrun] at hnack h
    obtain ⟨hstop, hlast⟩ := Prod.mk.inj hnack
    obtain ⟨events, hlog⟩ := List.getLast?_eq_some_iff.mp hlast
    obtain ⟨-, -, u, hu⟩ := h.failed events [] _ hlog nofun
    cases hu
    cases hstop

end Vl53l0x

end Nsumo.Drivers
