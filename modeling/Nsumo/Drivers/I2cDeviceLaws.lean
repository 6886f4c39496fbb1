import Nsumo.Drivers.I2cDevice
import Nsumo.Drivers.I2cTraceLaws

namespace Nsumo.Drivers

open Common Lib

namespace I2cDevice

open I2c

def act (d : I2cDevice) : I2cAction → I2cDevice
  | .control c => d.control c
  | .txBuf byte => d.send byte
  | .receive _ => { d with pointer := d.pointer + 1 }
  | .wait _ => d

def answered : List I2cAction → I2cDevice → List Byte
  | [], _ => []
  | .receive i :: actions, d => d.reg d.pointer :: answered actions (d.act (.receive i))
  | .control c :: actions, d => answered actions (d.act (.control c))
  | .txBuf byte :: actions, d => answered actions (d.act (.txBuf byte))
  | .wait flag :: actions, d => answered actions (d.act (.wait flag))

section

variable {waits : Nat → I2cWait} {rxBuf : Nat → Byte} {d : I2cDevice}

theorem foldl_see {actions : List I2cAction} (hgo : AllGoThrough (waitFlags actions) waits) :
    (entries actions waits rxBuf).foldl see d = actions.foldl act d := by
  induction actions generalizing waits rxBuf d with
  | nil => rfl
  | cons action actions ih =>
    cases action with
    | control | txBuf | receive => exact ih hgo
    | wait flag =>
      rw [entries_wait actions hgo.1]
      exact ih hgo.2

theorem answers_iff {actions : List I2cAction} (hgo : AllGoThrough (waitFlags actions) waits) :
    Answers d (entries actions waits rxBuf) ↔ receives actions rxBuf = answered actions d := by
  induction actions generalizing waits rxBuf d with
  | nil => exact iff_of_true trivial rfl
  | cons action actions ih =>
    cases action with
    | control c => exact (and_iff_right (by simp)).trans (ih hgo)
    | txBuf byte => exact (and_iff_right (by simp)).trans (ih hgo)
    | receive i =>
      change _ ∧ Answers _ _ ↔ _ :: _ = _ :: _
      rw [List.cons.injEq]
      exact and_congr (by simp) (ih hgo)
    | wait flag =>
      rw [entries_wait actions hgo.1]
      exact (and_iff_right (by simp)).trans (ih hgo.2)

end

theorem foldl_act_send {d : I2cDevice} (hdata : d.selecting = false) (data : List Byte) :
    (sendActions data).foldl act d = { d with
      reg := Registers.store d.pointer data d.reg
      pointer := d.pointer + BitVec.ofNat 8 data.length } := by
  induction data generalizing d with
  | nil => simp [sendActions, Registers.store]
  | cons byte data ih =>
    have hsend : d.send byte =
        { d with reg := Function.update d.reg d.pointer byte, pointer := d.pointer + 1 } := by
      rw [send, hdata]
      rfl
    change (sendActions data).foldl act (d.send byte) = _
    rw [hsend, List.length_cons, Registers.add_ofNat_succ]
    exact @ih { d with reg := Function.update d.reg d.pointer byte, pointer := d.pointer + 1 } hdata

theorem foldl_act_write (d : I2cDevice) (addr : Byte) (data : List Byte) :
    ((writeActions [addr] data).foldl act d).reg = Registers.store addr data d.reg := by
  rw [writeActions, List.foldl_append, List.foldl_append]
  change ((sendActions data).foldl act
    { d with pointer := addr, transmitter := true, selecting := false }).reg = _
  rw [foldl_act_send rfl]

theorem answered_receive {d : I2cDevice} (n : Nat) (rest : List I2cAction) :
    answered (receiveActions n ++ rest) d = Registers.load d.reg d.pointer n ++
      answered rest { d with pointer := d.pointer + BitVec.ofNat 8 n } := by
  induction n generalizing d with
  | zero => simp [receiveActions, Registers.load]
  | succ n ih =>
    change d.reg d.pointer :: answered (receiveActions n ++ rest)
      { d with pointer := d.pointer + 1 } = _
    rw [ih, Registers.add_ofNat_succ]
    rfl

theorem answered_read (d : I2cDevice) (addr : Byte) {n : Nat} (hn : 0 < n) :
    answered (readActions [addr] n) d = Registers.load d.reg addr n := by
  obtain ⟨n, rfl⟩ := Nat.exists_eq_succ_of_ne_zero (Nat.ne_of_gt hn)
  change answered (receiveActions n ++ _)
    { d with pointer := addr, transmitter := false, selecting := false } = _
  rw [answered_receive, Registers.load_succ]
  rfl

end I2cDevice

namespace I2c

section

variable {addr : Byte} {data : List Byte} {s t : I2c} {d : I2cDevice}

theorem i2cWrite_store (hdata : 0 < data.length)
    (hrun : i2cWrite [addr] data { s with trace := [] } = .ok () t) :
    (t.trace.foldl I2cDevice.see d).reg = Registers.store addr data d.reg := by
  rw [@i2cWrite_eq [addr] data Nat.one_pos hdata] at hrun
  obtain ⟨t', ht', hgo, htrace, -⟩ | ⟨e, t', ht', -⟩ :=
    performAll_fresh (writeActions [addr] data) s
  · cases hrun.symm.trans ht'
    rw [htrace, I2cDevice.foldl_see hgo, I2cDevice.foldl_act_write]
  · cases hrun.symm.trans ht'

theorem i2cRead_load {n : Nat} (hn : 0 < n) (hdata : s.data.length = n)
    (hrun : i2cRead [addr] n { s with trace := [] } = .ok () t)
    (hanswers : I2cDevice.Answers d t.trace) : t.data = (Registers.load d.reg addr n).reverse := by
  rw [@i2cRead_eq [addr] n Nat.one_pos hn] at hrun
  obtain ⟨t', ht', hgo, htrace, hstores⟩ | ⟨e, t', ht', -⟩ :=
    performAll_fresh (readActions [addr] n) s
  · cases hrun.symm.trans ht'
    rw [htrace, I2cDevice.answers_iff hgo, I2cDevice.answered_read d addr hn] at hanswers
    rw [hstores, stores_read hn hdata, hanswers]
  · cases hrun.symm.trans ht'

end

def readyWaits (flags : List I2cFlag) (k : Nat) : I2cWait :=
  ⟨fun _ => (flags.getD k .ucTxStp).awaited, false⟩

theorem readyWaits_goThrough (flags : List I2cFlag) : AllGoThrough flags (readyWaits flags) := by
  induction flags with
  | nil => trivial
  | cons flag flags ih =>
    refine ⟨⟨rfl, ?_⟩, ih⟩
    change if flag.awaited = true then
      ¬I2cWait.Late ⟨fun _ => flag.awaited, false⟩ else I2cWait.Cleared ⟨fun _ => flag.awaited, false⟩
    split
    · rename_i hflag
      exact fun hlate => hlate.1 ⟨0, by decide, hflag⟩
    · rename_i hflag
      exact ⟨0, by decide, Bool.eq_false_iff.mpr hflag⟩

def readyBus (actions : List I2cAction) (rxBuf : Nat → Byte) (data : List Byte) : I2c where
  waits := readyWaits (waitFlags actions)
  rxBuf := rxBuf
  data := data
  trace := []

theorem performAll_ready (actions : List I2cAction) (rxBuf : Nat → Byte) (data : List Byte) :
    ∃ t, performAll actions (readyBus actions rxBuf data) = .ok () t ∧
      t.trace = entries actions (readyWaits (waitFlags actions)) rxBuf := by
  obtain ⟨t, ht, -, htrace, -⟩ | ⟨e, t, -, hfail, -⟩ :=
    performAll_fresh actions (readyBus actions rxBuf data)
  · exact ⟨t, ht, htrace⟩
  · exact absurd (readyWaits_goThrough _) hfail

theorem receives_receive {rxBuf : Nat → Byte} (n : Nat) (rest : List I2cAction) :
    receives (receiveActions n ++ rest) rxBuf =
      (List.range n).map rxBuf ++ receives rest fun k => rxBuf (k + n) := by
  induction n generalizing rxBuf with
  | zero => rfl
  | succ n ih =>
    change rxBuf 0 :: receives (receiveActions n ++ rest) (fun k => rxBuf (k + 1)) = _
    rw [ih, List.range_succ_eq_map, List.map_cons, List.map_map]
    rfl

theorem receives_read {rxBuf : Nat → Byte} (addr : Byte) {n : Nat} (hn : 0 < n) :
    receives (readActions [addr] n) rxBuf = (List.range n).map rxBuf := by
  obtain ⟨n, rfl⟩ := Nat.exists_eq_succ_of_ne_zero (Nat.ne_of_gt hn)
  change receives (receiveActions n ++ _) rxBuf = _
  rw [receives_receive, List.range_succ, List.map_append, List.map_singleton]
  change _ ++ [rxBuf (0 + n)] = _
  rw [Nat.zero_add]

theorem map_getD_range (bytes : List Byte) :
    (List.range bytes.length).map (fun k => bytes.getD k 0) = bytes := by
  apply List.ext_getElem
  · simp
  · intro k _ hk
    simp [hk]

end I2c

section

variable {addr : Byte} {data : List Byte}

theorem load_store_data (hsize : data.length ≤ 255) (reg : Byte → Byte) :
    Registers.load (Registers.store addr data reg) addr data.length = data :=
  Registers.load_store (Nat.le_succ_of_le hsize)

theorem ReadsBack.reverse_eq (h : ReadsBack addr data) (hdata : 0 < data.length)
    (hsize : data.length ≤ 255) : data.reverse = data := by
  let d : I2cDevice := ⟨fun _ => 0, 0, false, false⟩
  let s := I2c.readyBus (I2c.writeActions [addr] data) (fun _ => 0) []
  let s' := I2c.readyBus (I2c.readActions [addr] data.length) (fun k => data.getD k 0) data
  obtain ⟨t, ht, -⟩ := I2c.performAll_ready (I2c.writeActions [addr] data) (fun _ => 0) []
  obtain ⟨t', ht', htrace⟩ := I2c.performAll_ready (I2c.readActions [addr] data.length)
    (fun k => data.getD k 0) data
  rw [← @I2c.i2cWrite_eq [addr] data Nat.one_pos hdata] at ht
  rw [← @I2c.i2cRead_eq [addr] data.length Nat.one_pos hdata] at ht'
  have hreg : (t.trace.foldl I2cDevice.see d).reg = Registers.store addr data d.reg :=
    @I2c.i2cWrite_store addr data s t d hdata ht
  have hanswers : I2cDevice.Answers (t.trace.foldl I2cDevice.see d) t'.trace := by
    rw [htrace, I2cDevice.answers_iff (I2c.readyWaits_goThrough _),
      I2cDevice.answered_read _ _ hdata, hreg, load_store_data hsize, I2c.receives_read addr hdata,
      I2c.map_getD_range]
  have hread := @I2c.i2cRead_load addr s' t' _ data.length hdata rfl ht' hanswers
  rw [hreg, load_store_data hsize] at hread
  exact hread.symm.trans (h d s s' t t' ht ht' rfl hanswers)

theorem readsBack_iff (hdata : 0 < data.length) (hsize : data.length ≤ 255) :
    ReadsBack addr data ↔ data.reverse = data := by
  constructor
  · exact fun h => h.reverse_eq hdata hsize
  · intro hpalindrome d s s' t t' hwrite hread hlength hanswers
    rw [I2c.i2cRead_load hdata hlength hread hanswers, I2c.i2cWrite_store hdata hwrite,
      load_store_data hsize, hpalindrome]

end

theorem readsBack_iff_spadEnables : ReadsBack 0xB0 [1, 2] ↔ [1, 2].reverse = ([1, 2] : List Byte) :=
  readsBack_iff (by decide) (by decide)

theorem not_readsBack : ¬ReadsBack 0xB0 [1, 2] := fun h =>
  absurd (h.reverse_eq (by decide) (by decide)) (by decide)

end Nsumo.Drivers
