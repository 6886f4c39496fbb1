import Nsumo.Drivers.I2cLaws
import Nsumo.Drivers.Vl53l0xMastered
import Nsumo.Drivers.Vl53l0xObserverLaws
import Nsumo.Drivers.Vl53l0xSanityLaws
import Nsumo.Drivers.Vl53l0xSingle
import Nsumo.Lib.Backward
import Nsumo.Lib.Registers

/-! Ranging over the transfers of the I2C master is ranging over the bus that is assumed of them. -/

namespace Nsumo.Drivers

open Common Lib

namespace I2c

section

variable {P Q : I2c → Prop} {E : I2cError → I2c → Prop} {flag : I2cFlag}

theorem waitFor_rule (hP : ∀ s, P s → P (s.afterWait flag)) (hE : ∀ e s, P s → E e s) :
    Triple P (waitFor flag) (fun _ => P) E := by
  intro s hs
  rw [waitFor_run]
  cases waitError flag (s.waits 0) with
  | none => exact hP s hs
  | some e => exact hE e _ (hP s hs)

theorem access_rule {a : I2cAccess} (h : ∀ s, P s → Q { s with trace := s.trace ++ [a] }) :
    Triple P (access a) (fun _ => Q) E := .update h

theorem assert_rule {expression : Bool} (h : expression = true) :
    Triple P (i2cAssert expression) (fun _ => P) E :=
  .cond (fun _ => .ret fun _ hs => hs) fun hnot => absurd h hnot

theorem waitFor_ok_rule (h : ∀ s, waitError flag (s.waits 0) = none → P s → Q (s.afterWait flag)) :
    Triple P (waitFor flag) (fun _ => Q) fun _ _ => True := by
  intro s hs
  rw [waitFor_run]
  cases herror : waitError flag (s.waits 0) with
  | none => exact h s herror hs
  | some e => trivial

def Holds (buffer : TxBuffer) (s : I2c) : Prop :=
  (∀ a ∈ s.trace, unseen a = false) → txBuffer s.trace = buffer

variable {buffer buffer' : TxBuffer}

theorem Holds.access {a : I2cAccess} {s t : I2c} (h : Holds buffer s)
    (ht : t.trace = s.trace ++ [a]) (hbuffer : unseen a = false → buffer.access a = buffer') :
    Holds buffer' t := by
  intro hseen
  rw [ht] at hseen ⊢
  rw [txBuffer, List.foldl_append, ← txBuffer,
    h fun a hmem => hseen a (List.mem_append_left _ hmem)]
  exact hbuffer (hseen a (List.mem_append_right _ List.mem_cons_self))

theorem control_holds (c : I2cControl) :
    Triple (Holds buffer) (access (.control c)) (fun _ => Holds buffer) E :=
  access_rule fun _ hs => hs.access rfl fun _ => rfl

theorem txBuf_holds (byte : Byte) : Triple (Holds buffer) (i2cSetTxByte byte)
    (fun _ => Holds { buffer with pending := some byte }) E :=
  access_rule fun _ hs => hs.access rfl fun _ => rfl

theorem waitCondition_holds (hflag : flag.awaited = false) :
    Triple (Holds buffer) (waitFor flag) (fun _ => Holds buffer) fun _ _ => True := by
  refine waitFor_ok_rule fun s _ hs => hs.access rfl fun _ => ?_
  cases flag with
  | ucb0TxIfg | ucb0RxIfg => cases hflag
  | ucTxStt | ucTxStp => rfl

theorem waitTxByte_holds : Triple (Holds buffer) i2cWaitTxByte
    (fun _ => Holds { sent := buffer.sent ++ buffer.pending.toList, pending := none })
    fun _ _ => True := by
  refine waitFor_ok_rule fun s herror hs => hs.access rfl ?_
  rw [herror]
  cases (poll .ucb0TxIfg (s.waits 0).polls).2 with
  | false => nofun
  | true => exact fun _ => rfl

theorem sendByte_holds {done : List Byte} (byte : Byte) {rest : Transfer} {R : I2c → Prop}
    (hrest : Triple (Holds ⟨done ++ [byte], none⟩) rest (fun _ => R) fun _ _ => True) :
    Triple (Holds ⟨done, none⟩) (i2cSetTxByte byte >>= fun _ => i2cWaitTxByte >>= fun _ => rest)
      (fun _ => R) fun _ _ => True :=
  (txBuf_holds byte).bind fun _ => waitTxByte_holds.bind fun _ => hrest

theorem sendBytes_holds {done bytes : List Byte} :
    Triple (Holds ⟨done, none⟩) (sendBytes bytes) (fun _ => Holds ⟨done ++ bytes, none⟩)
      fun _ _ => True := by
  induction bytes generalizing done with
  | nil => exact .ret fun _ hs => by rwa [List.append_nil]
  | cons byte bytes ih =>
    rw [List.append_cons]
    exact sendByte_holds byte ih

theorem i2cWrite_holds (reg : Byte) (data : List Byte) :
    Triple (Holds ⟨[], none⟩) (i2cWrite [reg] data) (fun _ => Holds ⟨reg :: data, none⟩)
      fun _ _ => True := by
  have haddr : Triple (Holds ⟨[], none⟩) (i2cSendAddr [reg]) (fun _ => Holds ⟨[reg], none⟩)
      fun _ _ => True :=
    (control_holds _).bind fun _ => (control_holds _).bind fun _ => (txBuf_holds reg).bind fun _ =>
      (waitCondition_holds rfl).bind fun _ => waitTxByte_holds.bind fun _ => .ret fun _ hs => hs
  have hassert : Triple (Holds ⟨[], none⟩) (i2cAssert (decide (0 < data.length)))
      (fun _ => Holds ⟨[], none⟩) fun _ _ => True :=
    .cond (fun _ => .ret fun _ hs => hs) fun _ => .raise fun _ _ => trivial
  refine (assert_rule rfl).bind fun _ => hassert.bind fun _ => ?_
  refine haddr.bind fun _ => sendBytes_holds.bind fun _ => ?_
  exact (control_holds _).bind fun _ => waitCondition_holds rfl

section

variable {rx : Nat → Byte} {data : List Byte} {k n : Nat}

def loaded (rx : Nat → Byte) (data : List Byte) (k : Nat) : List Byte :=
  data.take (data.length - k) ++ ((List.range k).map rx).reverse

theorem loaded_zero (rx : Nat → Byte) (data : List Byte) : loaded rx data 0 = data := by
  simp [loaded]

theorem loaded_succ (h : k < data.length) :
    (loaded rx data k).set (data.length - (k + 1)) (rx k) = loaded rx data (k + 1) := by
  have hlength : (data.take (data.length - k)).length = data.length - (k + 1) + 1 := by
    rw [List.length_take]
    omega
  rw [loaded, loaded, List.set_append_left _ _ (by omega), List.range_succ, List.map_append,
    List.reverse_append, List.map_singleton, List.reverse_singleton, ← List.append_assoc]
  congr 1
  apply List.ext_getElem
  · simp only [List.length_set, List.length_take, List.length_append, List.length_singleton]
    omega
  · intro j hj hj'
    rw [List.getElem_set, List.getElem_append]
    split_ifs with hlast hbefore hbefore
    · simp only [List.length_take] at hbefore
      omega
    · simp
    · simp
    · simp only [List.length_set] at hj
      simp only [List.length_take] at hbefore
      omega

structure Loading (rx : Nat → Byte) (data : List Byte) (k : Nat) (s : I2c) : Prop where
  rxBuf (j : Nat) : s.rxBuf j = rx (k + j)
  stored : s.data = loaded rx data k

def LoadedSome (rx : Nat → Byte) (data : List Byte) (_ : I2cError) (s : I2c) : Prop :=
  ∃ k ≤ data.length - 1, s.data = loaded rx data k

theorem wait_loading (hk : k ≤ data.length - 1) :
    Triple (Loading rx data k) (waitFor flag) (fun _ => Loading rx data k) (LoadedSome rx data) :=
  waitFor_rule (fun _ h => ⟨h.rxBuf, h.stored⟩) fun _ _ h => ⟨k, hk, h.stored⟩

theorem access_loading (a : I2cAccess) :
    Triple (Loading rx data k) (access a) (fun _ => Loading rx data k) E :=
  access_rule fun _ h => ⟨h.rxBuf, h.stored⟩

theorem getRxByte_loading (hk : k < data.length) {i : Nat} (hi : i = data.length - (k + 1)) :
    Triple (Loading rx data k) (i2cGetRxByte i) (fun _ => Loading rx data (k + 1)) E := by
  refine .update fun s h => ⟨fun j => ?_, ?_⟩
  · rw [h.rxBuf, Nat.add_assoc, Nat.add_comm 1]
  · rw [hi, h.stored, h.rxBuf]
    exact loaded_succ hk

theorem receiveBytes_loading {i : Nat} (hi : k + i + 1 = data.length) :
    Triple (Loading rx data k) (receiveBytes i) (fun _ => Loading rx data (k + i))
      (LoadedSome rx data) := by
  induction i generalizing k with
  | zero => exact .ret fun _ h => h
  | succ i ih =>
    refine (wait_loading (by omega)).bind fun _ =>
      (getRxByte_loading (by omega) (by omega)).bind fun _ => ?_
    rw [← Nat.add_assoc, Nat.add_right_comm]
    exact ih (by omega)

theorem i2cStartRxTransfer_loading (reg : Byte) :
    Triple (Loading rx data 0) (i2cStartRxTransfer [reg]) (fun _ => Loading rx data 0)
      (LoadedSome rx data) := by
  have haddr : Triple (Loading rx data 0) (i2cSendAddr [reg]) (fun _ => Loading rx data 0)
      (LoadedSome rx data) :=
    (access_loading _).bind fun _ => (access_loading _).bind fun _ =>
      (access_loading _).bind fun _ => (wait_loading (Nat.zero_le _)).bind fun _ =>
        (wait_loading (Nat.zero_le _)).bind fun _ => .ret fun _ h => h
  exact haddr.bind fun _ => (access_loading _).bind fun _ => (access_loading _).bind fun _ =>
    wait_loading (Nat.zero_le _)

theorem i2cRead_loading (rx : Nat → Byte) (reg : Byte) (data : List Byte) :
    Triple (Loading rx data 0) (i2cRead [reg] data.length) (fun _ => Loading rx data data.length)
      (LoadedSome rx data) := by
  have hassert : Triple (Loading rx data 0) (i2cAssert (decide (0 < data.length)))
      (fun _ s => 0 < data.length ∧ Loading rx data 0 s) (LoadedSome rx data) :=
    .cond (fun hdata => .ret fun _ hs => ⟨of_decide_eq_true hdata, hs⟩) fun _ =>
      .raise fun _ hs => ⟨0, Nat.zero_le _, hs.stored⟩
  refine (assert_rule rfl).bind fun _ => hassert.bind fun _ => .guarded fun hdata => ?_
  have hreceive : Triple (Loading rx data 0) (receiveBytes (data.length - 1))
      (fun _ => Loading rx data (data.length - 1)) (LoadedSome rx data) := by
    have hall := @receiveBytes_loading rx data 0 (data.length - 1) (by omega)
    rwa [Nat.zero_add] at hall
  have hlast : Triple (Loading rx data (data.length - 1)) (i2cGetRxByte 0)
      (fun _ => Loading rx data data.length) (LoadedSome rx data) := by
    have hbyte := @getRxByte_loading (LoadedSome rx data) rx data (data.length - 1) (by omega) 0
    rw [Nat.sub_add_cancel hdata, Nat.sub_self] at hbyte
    exact hbyte rfl
  refine (i2cStartRxTransfer_loading reg).bind fun _ => hreceive.bind fun _ => ?_
  refine ((access_loading _).bind fun _ => wait_loading (Nat.le_refl _)).bind fun _ => ?_
  exact (wait_loading (Nat.le_refl _)).bind fun _ => hlast

end

end

end I2c

/-- Whatever an access of the one bus leads to, an access of the other leads to what it is related
to. -/
structure Bus.Backward {δ δ' : Type} (D : δ → δ' → Prop) (bus : Bus δ) (bus' : Bus δ') : Prop where
  elapse (d : δ) (d' : δ') : D (bus.elapse d).2 d' →
    ∃ c, D d c ∧ bus'.elapse c = ((bus.elapse d).1, d')
  setSlaveAddress (addr : Byte) (d : δ) (d' : δ') : D (bus.setSlaveAddress addr d) d' →
    ∃ c, D d c ∧ bus'.setSlaveAddress addr c = d'
  write (reg : Byte) (data : List Byte) (d : δ) (d' : δ') : D (bus.write reg data d).2 d' →
    ∃ c, D d c ∧ bus'.write reg data c = ((bus.write reg data d).1, d')
  read (reg : Byte) (data : List Byte) (d : δ) (d' : δ') : D (bus.read reg data d).2.2 d' →
    ∃ c, D d c ∧ bus'.read reg data c = ((bus.read reg data d).1, (bus.read reg data d).2.1, d')

namespace Vl53l0x

def OnDevices {δ δ' : Type} (D : δ → δ' → Prop) (s : Vl53l0x δ) (t : Vl53l0x δ') : Prop :=
  ∃ d', D s.dev d' ∧ t = mapDev (fun _ => d') s

section

variable {δ δ' : Type} {D : δ → δ' → Prop} {bus : Bus δ} {bus' : Bus δ'}

theorem get_backward {α : Type} {k : Vl53l0x δ → Driver δ α} {k' : Vl53l0x δ' → Driver δ' α}
    (hsame : ∀ (s : Vl53l0x δ) c c', k' (mapDev (fun _ => c) s) = k' (mapDev (fun _ => c') s))
    (hk : ∀ s c, Backward (OnDevices D) (k s) (k' (mapDev (fun _ => c) s))) :
    Backward (OnDevices D) (get >>= k) (get >>= k') := by
  refine .read fun s t' ⟨d', _, _⟩ => ⟨_, ?_, hk s d'⟩
  rintro _ ⟨c, -, rfl⟩
  exact hsame s c d'

theorem assert_backward (expression : Bool) :
    Backward (OnDevices D) (vl53l0xAssert expression) (vl53l0xAssert expression) :=
  .cond (.ret _) (.raise _)

theorem check_backward (error : Option I2cError) :
    Backward (OnDevices D) (check error) (check error) := by
  cases error with
  | none => exact .ret _
  | some e => exact .raise _

theorem setLatestRange_backward (idx : Vl53l0xIdx) (range : Nat) :
    Backward (OnDevices D) (setLatestRange idx range) (setLatestRange idx range) := by
  refine .update ?_
  rintro s _ ⟨d', hd', rfl⟩
  exact ⟨_, ⟨d', hd', rfl⟩, rfl⟩

theorem elapse_backward (h : bus.Backward D bus') :
    Backward (OnDevices D) (elapse bus) (elapse bus') := by
  refine .update ?_
  rintro s _ ⟨d', hd', rfl⟩
  obtain ⟨c, hc, helapse⟩ := h.elapse s.dev d' (by revert hd'; split <;> exact id)
  refine ⟨_, ⟨c, hc, rfl⟩, ?_⟩
  simp only [mapDev, helapse]
  split <;> rfl

theorem getStatus_backward (h : bus.Backward D bus') :
    Backward (OnDevices D) (getStatusMultiple bus) (getStatusMultiple bus') :=
  (elapse_backward h).bind fun _ => get_backward (fun _ _ _ => rfl) fun _ _ => .ret _

theorem setStatus_backward (h : bus.Backward D bus') (status : StatusMultiple) :
    Backward (OnDevices D) (setStatusMultiple bus status) (setStatusMultiple bus' status) := by
  refine (elapse_backward h).bind fun _ => .update ?_
  rintro s _ ⟨d', hd', rfl⟩
  exact ⟨_, ⟨d', hd', rfl⟩, rfl⟩

theorem setSlaveAddress_backward (h : bus.Backward D bus') (addr : Byte) :
    Backward (OnDevices D) (i2cSetSlaveAddress bus addr) (i2cSetSlaveAddress bus' addr) := by
  refine .update ?_
  rintro s _ ⟨d', hd', rfl⟩
  obtain ⟨c, hc, haddr⟩ := h.setSlaveAddress addr s.dev d' hd'
  refine ⟨_, ⟨c, hc, rfl⟩, ?_⟩
  simp only [mapDev, haddr]

theorem write_backward (h : bus.Backward D bus') (addr data : Byte) :
    Backward (OnDevices D) (i2cWriteAddr8Data8 bus addr data)
      (i2cWriteAddr8Data8 bus' addr data) := by
  refine (elapse_backward h).bind fun _ => .updateGet ?_
  rintro s _ ⟨d', hd', rfl⟩
  obtain ⟨c, hc, hwrite⟩ := h.write addr [data] s.dev d' hd'
  refine ⟨_, ⟨c, hc, rfl⟩, ?_⟩
  simp only [mapDev, hwrite]

theorem readBytes_backward (h : bus.Backward D bus') (addr : Byte) (data : List Byte) :
    Backward (OnDevices D) (i2cReadBytes bus addr data) (i2cReadBytes bus' addr data) := by
  refine (elapse_backward h).bind fun _ => .updateGet ?_
  rintro s _ ⟨d', hd', rfl⟩
  obtain ⟨c, hc, hread⟩ := h.read addr data s.dev d' hd'
  refine ⟨_, ⟨c, hc, rfl⟩, ?_⟩
  simp only [mapDev, hread]

theorem read8_backward (h : bus.Backward D bus') (addr : Byte) :
    Backward (OnDevices D) (i2cReadAddr8Data8 bus addr) (i2cReadAddr8Data8 bus' addr) :=
  (readBytes_backward h addr [0]).bind fun _ => .ret _

theorem read16_backward (h : bus.Backward D bus') (addr : Byte) (data : Nat) :
    Backward (OnDevices D) (i2cReadAddr8Data16 bus addr data) (i2cReadAddr8Data16 bus' addr data) :=
  (readBytes_backward h addr _).bind fun _ => .ret _

theorem write8regs_backward (h : bus.Backward D bus') (regs : List (Byte × Byte)) :
    Backward (OnDevices D) (vl53l0xWrite8regs bus regs) (vl53l0xWrite8regs bus' regs) := by
  induction regs with
  | nil => exact .ret _
  | cons reg regs ih =>
    exact (write_backward h reg.1 reg.2).bind fun error => (check_backward error).bind fun _ => ih

theorem pollRegister_backward (h : bus.Backward D bus') (addr : Byte) (again : Byte → Bool)
    (fuel : Nat) :
    Backward (OnDevices D) (pollRegister bus addr again fuel)
      (pollRegister bus' addr again fuel) := by
  induction fuel with
  | zero => exact .raise _
  | succ fuel ih =>
    exact (read8_backward h addr).bind fun r => (check_backward r.1).bind fun _ => .cond ih (.ret _)

theorem startSysrange_backward (h : bus.Backward D bus') (fuel : Nat) (idx : Vl53l0xIdx) :
    Backward (OnDevices D) (vl53l0xStartSysrange bus fuel idx)
      (vl53l0xStartSysrange bus' fuel idx) := by
  refine (setSlaveAddress_backward h _).bind fun _ => (write8regs_backward h _).bind fun _ => ?_
  refine get_backward (fun _ _ _ => rfl) fun s _ => ?_
  refine (write_backward h _ _).bind fun error => (check_backward error).bind fun _ => ?_
  refine (write8regs_backward h _).bind fun _ => (write_backward h _ _).bind fun error => ?_
  exact (check_backward error).bind fun _ => pollRegister_backward h _ _ fuel

theorem isSysrangeDone_backward (h : bus.Backward D bus') (idx : Vl53l0xIdx) :
    Backward (OnDevices D) (vl53l0xIsSysrangeDone bus idx) (vl53l0xIsSysrangeDone bus' idx) := by
  refine .cond (.ret _) ?_
  exact (setSlaveAddress_backward h _).bind fun _ => (read8_backward h _).bind fun _ => .ret _

theorem readRange_backward (h : bus.Backward D bus') (fuel : Nat) (idx : Vl53l0xIdx) :
    Backward (OnDevices D) (vl53l0xReadRange bus fuel idx) (vl53l0xReadRange bus' fuel idx) := by
  refine (setSlaveAddress_backward h _).bind fun _ => ?_
  refine (pollRegister_backward h _ _ fuel).bind fun _ => ?_
  refine get_backward (fun _ _ _ => rfl) fun s _ => (read16_backward h _ _).bind fun r => ?_
  refine (setLatestRange_backward idx r.2).bind fun _ => (check_backward r.1).bind fun _ => ?_
  refine (write_backward h _ _).bind fun error => (check_backward error).bind fun _ => ?_
  refine (setLatestRange_backward idx _).bind fun _ => ?_
  exact (write_backward h _ _).bind check_backward

theorem startMeasuring_backward (h : bus.Backward D bus') (fuel : Nat) :
    Backward (OnDevices D) (vl53l0xStartMeasuringMultiple bus fuel)
      (vl53l0xStartMeasuringMultiple bus' fuel) := by
  refine get_backward (fun _ _ _ => rfl) fun s _ => (assert_backward _).bind fun _ => ?_
  refine (getStatus_backward h).bind fun status => .cond (.raise _) ?_
  refine (setStatus_backward h _).bind fun _ => (startSysrange_backward h fuel _).bind fun _ => ?_
  exact (startSysrange_backward h fuel _).bind fun _ => startSysrange_backward h fuel _

theorem waitDone_backward (h : bus.Backward D bus') (fuel : Nat) :
    Backward (OnDevices D) (waitDone bus fuel) (waitDone bus' fuel) := by
  induction fuel with
  | zero => exact .raise _
  | succ fuel ih => exact (getStatus_backward h).bind fun status => .cond ih (.ret _)

theorem startIfNotStarted_backward (h : bus.Backward D bus') (fuel : Nat) :
    Backward (OnDevices D) (startIfNotStarted bus fuel) (startIfNotStarted bus' fuel) :=
  (getStatus_backward h).bind fun _ =>
    .cond ((startMeasuring_backward h fuel).bind fun _ => waitDone_backward h fuel) (.ret _)

theorem areSysrangesDone_backward (h : bus.Backward D bus') (idxs : List Vl53l0xIdx) :
    Backward (OnDevices D) (areSysrangesDone bus idxs) (areSysrangesDone bus' idxs) := by
  induction idxs with
  | nil => exact .ret _
  | cons idx idxs ih => exact (isSysrangeDone_backward h idx).bind fun _ => .cond ih (.ret _)

theorem isMultipleDone_backward (h : bus.Backward D bus') :
    Backward (OnDevices D) (isMultipleDone bus) (isMultipleDone bus') :=
  (getStatus_backward h).bind fun _ => .cond (areSysrangesDone_backward h _) (.ret _)

theorem readSensors_backward (h : bus.Backward D bus') (fuel : Nat) :
    Backward (OnDevices D) (readSensors bus fuel) (readSensors bus' fuel) := by
  refine (isSysrangeDone_backward h _).bind fun done => (assert_backward done).bind fun _ => ?_
  refine (readRange_backward h fuel _).bind fun _ => (readRange_backward h fuel _).bind fun _ => ?_
  exact (readRange_backward h fuel _).bind fun _ => startMeasuring_backward h fuel

theorem readRangeMultiple_backward (h : bus.Backward D bus') (fuel : Nat) :
    Backward (OnDevices D) (vl53l0xReadRangeMultiple bus fuel)
      (vl53l0xReadRangeMultiple bus' fuel) := by
  refine get_backward (fun _ _ _ => rfl) fun s _ => (assert_backward _).bind fun _ => ?_
  refine (startIfNotStarted_backward h fuel).bind fun _ => ?_
  refine (isMultipleDone_backward h).bind fun done => .cond ?_ ?_
  · exact (readSensors_backward h fuel).bind fun _ =>
      get_backward (fun _ _ _ => rfl) fun _ _ => .ret _
  · exact get_backward (fun _ _ _ => rfl) fun _ _ => .ret _

theorem readRangeSingle_backward (h : bus.Backward D bus') (fuel : Nat) (idx : Vl53l0xIdx)
    (range : Nat) :
    Backward (OnDevices D) (vl53l0xReadRangeSingle bus fuel idx range)
      (vl53l0xReadRangeSingle bus' fuel idx range) := by
  have hlocal : Backward (OnDevices D) (vl53l0xReadRangeLocal bus fuel idx range)
      (vl53l0xReadRangeLocal bus' fuel idx range) := by
    refine (setSlaveAddress_backward h _).bind fun _ => ?_
    refine (pollRegister_backward h _ _ fuel).bind fun _ => (read16_backward h _ _).bind fun r => ?_
    refine (check_backward r.1).bind fun _ => (write_backward h _ _).bind fun error => ?_
    refine (check_backward error).bind fun _ => Backward.bind ?_ fun _ => .ret _
    exact (write_backward h _ _).bind check_backward
  refine get_backward (fun _ _ _ => rfl) fun s _ => (assert_backward _).bind fun _ => ?_
  exact (startSysrange_backward h fuel idx).bind fun _ => hlocal

theorem answered_backward {α : Type} {x : Driver δ α} {y : Driver δ' α}
    (h : Backward (OnDevices D) x y) : Backward (OnDevices D) (answered x) (answered y) := by
  intro s t' ht
  have hx := h s t'
  rw [answered] at ht
  cases hrun : x s with
  | ok a t =>
    rw [hrun] at ht hx
    obtain ⟨u, hu, hy⟩ := hx ht
    exact ⟨u, hu, by rw [answered, answered, hy, hrun]; rfl⟩
  | error stop t =>
    rw [hrun] at ht hx
    obtain ⟨u, hu, hy⟩ := hx (by cases stop <;> exact ht)
    exact ⟨u, hu, by rw [answered, answered, hy, hrun]; cases stop <;> rfl⟩

theorem runCalls_backward (h : bus.Backward D bus') (fuel : Nat) (calls : List RangeCall) :
    Backward (OnDevices D) (runCalls bus fuel calls) (runCalls bus' fuel calls) := by
  have hcall (call : RangeCall) :
      Backward (OnDevices D) (call.run bus fuel) (call.run bus' fuel) := by
    cases call with
    | single idx => exact (readRangeSingle_backward h fuel idx 0).bind fun _ => .ret _
    | multiple => exact (readRangeMultiple_backward h fuel).bind fun _ => .ret _
  induction calls with
  | nil => exact .ret _
  | cons call calls ih =>
    exact (answered_backward (hcall call)).bind fun _ => ih.bind fun _ => .ret _

end

theorem Sensor.readBytes_eq (values : Byte → Byte) (reg : Byte) (n : Nat) (s : Sensor) :
    s.readBytes values reg n = (Registers.load (s.read values) reg n).reverse := by
  induction n generalizing reg with
  | zero => rfl
  | succ n ih => rw [readBytes, ih, Registers.load, List.reverse_cons]

namespace Sensors

def withOutcomes (outcomes : Nat → Outcome) (d : Sensors) : Sensors := { d with outcomes }

def ahead (outcome : Outcome) (outcomes : Nat → Outcome) : Nat → Outcome
  | 0 => outcome
  | k + 1 => outcomes k

section

variable {d : Sensors} {outcomes : Nat → Outcome} {idx : Vl53l0xIdx}

theorem happen_withOutcomes (events : List SensorEvent) (d : Sensors) :
    happen events (d.withOutcomes outcomes) =
      ((happen events d).1, (happen events d).2.withOutcomes outcomes) := by
  induction events generalizing d with
  | nil => rfl
  | cons event events ih =>
    cases event with
    | complete idx range =>
      have hcomplete : (d.withOutcomes outcomes).complete idx range =
          (d.complete idx range).withOutcomes outcomes := by
        unfold complete
        split <;> first | rfl | (simp_all [withOutcomes])
      rw [happen, hcomplete, ih]
      rfl
    | frontInterrupt =>
      change (d.edge || (happen events ({ d with edge := false }.withOutcomes outcomes)).1,
        (happen events ({ d with edge := false }.withOutcomes outcomes)).2) = _
      rw [ih]
      rfl

theorem elapse_withOutcomes (d : Sensors) :
    (d.withOutcomes outcomes).elapse = (d.elapse.1, d.elapse.2.withOutcomes outcomes) := by
  rw [elapse, elapse]
  change ((happen (d.events 0) (d.withOutcomes outcomes)).1,
    { (happen (d.events 0) (d.withOutcomes outcomes)).2 with
      events := fun k => d.events (k + 1) }) = _
  rw [happen_withOutcomes]
  rfl

theorem nextError_ahead (hidx : addressee d.slaveAddress = some idx) (outcome : Outcome) :
    (d.withOutcomes (ahead outcome outcomes)).nextError = outcome.error := by
  rw [nextError, withOutcomes, hidx]
  rfl

variable {reg : Byte} {data : List Byte} {values : Byte → Byte} {error : I2cError} {stored : Nat}

theorem write_ahead (hidx : addressee d.slaveAddress = some idx) :
    (d.withOutcomes (ahead ⟨none, stored, values⟩ outcomes)).write reg data = (none, { d with
      outcomes
      sensor := Function.update d.sensor idx ((d.sensor idx).writeBytes reg data) }) := by
  rw [write, nextError_ahead hidx]
  simp only [withOutcomes, hidx]
  rfl

theorem write_ahead_error (hidx : addressee d.slaveAddress = some idx) :
    (d.withOutcomes (ahead ⟨some error, stored, values⟩ outcomes)).write reg data =
      (some error, { d with outcomes, failed := d.failed ++ [d.sensor] }) := by
  rw [write, nextError_ahead hidx]
  rfl

theorem write_ahead_none (hidx : addressee d.slaveAddress = none) (outcome : Outcome) :
    (d.withOutcomes (ahead outcome outcomes)).write reg data =
      (some .start, { d with outcomes, failed := d.failed ++ [d.sensor] }) := by
  have herror : (d.withOutcomes (ahead outcome outcomes)).nextError = some .start :=
    nextError_none hidx
  rw [write, herror]
  rfl

theorem read_ahead_none (hidx : addressee d.slaveAddress = none) (outcome : Outcome) :
    (d.withOutcomes (ahead outcome outcomes)).read reg data =
      (some .start, data, { d with outcomes, failed := d.failed ++ [d.sensor] }) := by
  have herror : (d.withOutcomes (ahead outcome outcomes)).nextError = some .start :=
    nextError_none hidx
  rw [read, herror]
  simp only [withOutcomes, hidx]
  rfl

theorem read_ahead (hidx : addressee d.slaveAddress = some idx) :
    (d.withOutcomes (ahead ⟨none, stored, values⟩ outcomes)).read reg data =
      (none, (Registers.load ((d.sensor idx).read values) reg data.length).reverse,
        d.withOutcomes outcomes) := by
  rw [read, nextError_ahead hidx]
  simp only [withOutcomes, hidx, ← Sensor.readBytes_eq]
  rfl

theorem read_ahead_error (hidx : addressee d.slaveAddress = some idx)
    (h : stored ≤ data.length - 1) :
    (d.withOutcomes (ahead ⟨some error, stored, values⟩ outcomes)).read reg data =
      (some error, data.take (data.length - stored) ++
        (Registers.load ((d.sensor idx).read values) reg stored).reverse,
        { d with outcomes, failed := d.failed ++ [d.sensor] }) := by
  have hlength : stored ≤ data.length := Nat.le_trans h (Nat.sub_le _ _)
  have hkept : data.length - min stored (data.length - 1) = data.length - stored := by omega
  have hdrop : ((d.sensor idx).readBytes values reg data.length).drop (data.length - stored) =
      (Registers.load ((d.sensor idx).read values) reg stored).reverse := by
    rw [Sensor.readBytes_eq, List.drop_reverse, Registers.length_load,
      Nat.sub_sub_self hlength, Registers.take_load _ _ hlength]
  rw [read, nextError_ahead hidx]
  simp only [withOutcomes, hidx]
  change (_, data.take (data.length - min stored (data.length - 1)) ++
    ((d.sensor idx).readBytes values reg data.length).drop
      (data.length - min stored (data.length - 1)), _) = _
  rw [hkept, hdrop]
  rfl

end

end Sensors

namespace Mastered

open Sensors

def Foreseen (m : Mastered) (d : Sensors) : Prop :=
  (∀ made ∈ m.made, made.Reliable) ∧ ∃ outcomes, d = m.sensors.withOutcomes outcomes

section

variable {m : Mastered} {outcomes : Nat → Outcome} {idx : Vl53l0xIdx} {reg : Byte}
  {data : List Byte} {error : I2cError} {trace : List I2cAccess} {t : I2c}

theorem obey_address {bytes : List Byte} (h : bytes.length ≤ 1) (s : Sensor) :
    s.obey bytes = s := by
  match bytes with
  | [] | [_] => rfl
  | _ :: _ :: _ =>
    rw [List.length_cons, List.length_cons] at h
    omega

@[simp] theorem after_made (error : Option I2cError) :
    (m.after error trace).made = m.made ++ [⟨error, trace⟩] := by
  cases error <;> rfl

@[simp] theorem after_sensors_none : (m.after none trace).sensors = m.sensors := rfl

@[simp] theorem after_sensors_some :
    (m.after (some error) trace).sensors = m.fail.sensors := rfl

theorem reliable_after {error : Option I2cError}
    (h : ∀ made ∈ m.made ++ [⟨error, trace⟩], made.Reliable) :
    (∀ made ∈ m.made, made.Reliable) ∧ I2c.Made.Reliable ⟨error, trace⟩ :=
  ⟨fun made hmem => h made (List.mem_append_left _ hmem),
    h _ (List.mem_append_right _ List.mem_cons_self)⟩

theorem write_none (hidx : addressee m.sensors.slaveAddress = none) :
    m.write reg data = (some .start, m.fail) := by
  rw [Mastered.write, hidx]

theorem write_foreseen (reg : Byte) (data : List Byte) (outcomes : Nat → Outcome) (m : Mastered)
    (h : ∀ made ∈ (m.write reg data).2.made, made.Reliable) :
    ∃ d, m.Foreseen d ∧ d.write reg data =
      ((m.write reg data).1, (m.write reg data).2.sensors.withOutcomes outcomes) := by
  cases hidx : addressee m.sensors.slaveAddress with
  | none =>
    rw [write_none hidx] at h ⊢
    exact ⟨_, ⟨h, _, rfl⟩, write_ahead_none hidx ⟨none, 0, fun _ => 0⟩⟩
  | some idx =>
    cases hrun : I2c.i2cWrite [reg] data (m.master (fun _ => 0) []) with
    | ok _ t =>
      simp only [Mastered.write, hidx, hrun, I2c.ended] at h ⊢
      obtain ⟨hmade, hseen, -⟩ := reliable_after (by simpa using h)
      have hsent : I2c.sent t.trace = reg :: data := by
        have hholds := (I2c.i2cWrite_holds reg data).ok (s := m.master (fun _ => 0) [])
          (fun _ => rfl) hrun
        rw [I2c.sent, hholds hseen]
      refine ⟨_, ⟨hmade, ahead ⟨none, 0, fun _ => 0⟩ outcomes, rfl⟩, ?_⟩
      rw [write_ahead hidx, hsent]
      rfl
    | error error t =>
      simp only [Mastered.write, hidx, hrun, I2c.ended] at h ⊢
      obtain ⟨hmade, -, hfew⟩ := reliable_after (by simpa using h)
      refine ⟨_, ⟨hmade, ahead ⟨some error, 0, fun _ => 0⟩ outcomes, rfl⟩, ?_⟩
      rw [write_ahead_error hidx, obey_address (hfew (Option.some_ne_none error)),
        Function.update_eq_self]
      rfl

theorem read_none (hidx : addressee m.sensors.slaveAddress = none) :
    m.read reg data = (some .start, data, m.fail) := by
  rw [Mastered.read, hidx]

def sends (m : Mastered) (idx : Vl53l0xIdx) (reg : Byte) (k : Nat) : Byte :=
  (m.sensors.sensor idx).read (m.values 0) (reg + BitVec.ofNat 8 k)

theorem loaded_sends (k : Nat) :
    I2c.loaded (m.sends idx reg) data k = data.take (data.length - k) ++
      (Registers.load ((m.sensors.sensor idx).read (m.values 0)) reg k).reverse := by
  rw [I2c.loaded, Registers.load_eq_map]
  rfl

theorem read_foreseen (reg : Byte) (data : List Byte) (outcomes : Nat → Outcome) (m : Mastered)
    (h : ∀ made ∈ (m.read reg data).2.2.made, made.Reliable) :
    ∃ d, m.Foreseen d ∧ d.read reg data = ((m.read reg data).1, (m.read reg data).2.1,
      (m.read reg data).2.2.sensors.withOutcomes outcomes) := by
  cases hidx : addressee m.sensors.slaveAddress with
  | none =>
    rw [read_none hidx] at h ⊢
    exact ⟨_, ⟨h, _, rfl⟩, read_ahead_none hidx ⟨none, 0, fun _ => 0⟩⟩
  | some idx =>
    have hstart : I2c.Loading (m.sends idx reg) data 0 (m.master (m.sends idx reg) data) :=
      ⟨fun j => congrArg _ (Nat.zero_add j).symm, (I2c.loaded_zero _ _).symm⟩
    have hloading := I2c.i2cRead_loading (m.sends idx reg) reg data
    cases hrun : I2c.i2cRead [reg] data.length (m.master (m.sends idx reg) data) with
    | ok _ t =>
      have hstored := (hloading.ok hstart hrun).stored
      unfold sends at hrun
      simp only [Mastered.read, hidx, hrun, I2c.ended] at h ⊢
      obtain ⟨hmade, hseen, -⟩ := reliable_after (by simpa using h)
      refine ⟨_, ⟨hmade, ahead ⟨none, 0, m.values 0⟩ outcomes, rfl⟩, ?_⟩
      rw [read_ahead hidx, if_pos hseen, hstored, loaded_sends, Nat.sub_self, List.take_zero,
        List.nil_append]
      rfl
    | error error t =>
      obtain ⟨k, hk, hstored⟩ := hloading.error hstart hrun
      unfold sends at hrun
      simp only [Mastered.read, hidx, hrun, I2c.ended] at h ⊢
      obtain ⟨hmade, hseen, -⟩ := reliable_after (by simpa using h)
      refine ⟨_, ⟨hmade, ahead ⟨some error, k, m.values 0⟩ outcomes, rfl⟩, ?_⟩
      rw [read_ahead_error hidx hk, if_pos hseen, hstored, loaded_sends]
      rfl

theorem backward_sensors : bus.Backward Foreseen Sensors.bus where
  elapse m := by
    rintro _ ⟨hmade, outcomes, rfl⟩
    exact ⟨_, ⟨hmade, outcomes, rfl⟩, elapse_withOutcomes m.sensors⟩
  setSlaveAddress addr m := by
    rintro _ ⟨hmade, outcomes, rfl⟩
    exact ⟨_, ⟨hmade, outcomes, rfl⟩, rfl⟩
  write reg data m := by
    rintro _ ⟨hmade, outcomes, rfl⟩
    exact write_foreseen reg data outcomes m hmade
  read reg data m := by
    rintro _ ⟨hmade, outcomes, rfl⟩
    exact read_foreseen reg data outcomes m hmade

end

end Mastered

/-- Programs that measure over the transfers of the I2C master get the answers that they get on the
assumed bus, where the transfers have some ends. -/
theorem master_allowed (fuel : Nat) (calls : List RangeCall) (s : Vl53l0x Mastered)
    (h : ∀ made ∈ (stateAfter (runCalls Mastered.bus fuel calls s)).dev.made, made.Reliable) :
    ∃ outcomes, runCalls Sensors.bus fuel calls
        (mapDev (fun m => m.sensors.withOutcomes outcomes) s) =
      mapResult (mapDev Mastered.sensors) (runCalls Mastered.bus fuel calls s) := by
  let run := runCalls Mastered.bus fuel calls s
  obtain ⟨_, ⟨_, ⟨-, outcomes, rfl⟩, rfl⟩, hrun⟩ :=
    runCalls_backward Mastered.backward_sensors fuel calls s
      (mapDev Mastered.sensors (stateAfter run)) ⟨_, ⟨h, _, rfl⟩, rfl⟩
  refine ⟨outcomes, hrun.trans ?_⟩
  change mapResult _ run = mapResult _ run
  cases run <;> rfl

def promptly : Vl53l0x Mastered :=
  mapDev (fun sensors => {
    sensors
    waits := fun _ _ => ⟨fun j => j = 1, false⟩
    values := fun _ _ => 0
    stale := fun _ _ => 0
    made := [] }) (failingAt 0)

theorem master_allowed_promptly :
    ∃ outcomes, runCalls Sensors.bus 1 [.multiple, .multiple]
        (mapDev (fun m => m.sensors.withOutcomes outcomes) promptly) =
      mapResult (mapDev Mastered.sensors)
        (runCalls Mastered.bus 1 [.multiple, .multiple] promptly) :=
  master_allowed 1 [.multiple, .multiple] promptly (by decide +kernel)

end Vl53l0x

end Nsumo.Drivers
