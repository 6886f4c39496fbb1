import Nsumo.Drivers.I2cLaws

namespace Nsumo.Drivers

open Common

namespace I2c

/-- `UCB0TXIFG` is read as set after each byte and before the next; `pending` tells whether a byte
still waits for it. -/
def TxObserved : (pending : Bool) → List I2cAccess → Prop
  | pending, [] => pending = false
  | pending, .txBuf _ :: trace => pending = false ∧ TxObserved true trace
  | _, .waited .ucb0TxIfg true _ :: trace => TxObserved false trace
  | pending, _ :: trace => TxObserved pending trace

def RxObserved : (seen : Bool) → List I2cAccess → Prop
  | _, [] => True
  | seen, .rxBuf _ :: trace => seen = true ∧ RxObserved false trace
  | _, .waited .ucb0RxIfg true _ :: trace => RxObserved true trace
  | seen, _ :: trace => RxObserved seen trace

def TimeoutsTrue (trace : List I2cAccess) : Prop :=
  ∀ flag last, I2cAccess.waited flag last (some .timeout) ∈ trace → last ≠ flag.awaited

def received (trace : List I2cAccess) : List Byte :=
  trace.filterMap fun
    | .rxBuf byte => some byte
    | _ => none

/-- A write that succeeds has seen `UCB0TXIFG` for every byte, and no timeout is wrong. -/
def WriteSound (addr bytes : List Byte) (s : I2c) : Prop :=
  match i2cWrite addr bytes { s with trace := [] } with
  | .ok _ t => TxObserved false t.trace ∧ TimeoutsTrue t.trace
  | .error _ t => TimeoutsTrue t.trace

def ReadSound (addr : List Byte) (dataSize : Nat) (s : I2c) : Prop :=
  match i2cRead addr dataSize { s with trace := [] } with
  | .ok _ t =>
    (RxObserved false t.trace ∧ t.data = (received t.trace).reverse) ∧ TimeoutsTrue t.trace
  | .error _ t => TimeoutsTrue t.trace

def NeverLate : List I2cFlag → (Nat → I2cWait) → Prop
  | [], _ => True
  | flag :: flags, waits =>
    ¬(flag.awaited = true ∧ (waits 0).Late) ∧
      ((waits 0).GoesThrough flag → NeverLate flags fun k => waits (k + 1))

def AllSeen (flag : I2cFlag) : List I2cFlag → (Nat → I2cWait) → Prop
  | [], _ => True
  | f :: flags, waits => (f = flag → (waits 0).Seen) ∧ AllSeen flag flags fun k => waits (k + 1)

section

variable {waits : Nat → I2cWait} {rxBuf : Nat → Byte}

theorem timeoutsTrue_cons {a : I2cAccess} {trace : List I2cAccess} :
    TimeoutsTrue (a :: trace) ↔
      (∀ flag last, a = .waited flag last (some .timeout) → last ≠ flag.awaited) ∧
        TimeoutsTrue trace := by
  simp only [TimeoutsTrue, List.mem_cons, or_imp, forall_and, eq_comm]

theorem timeoutsTrue_waited {flag : I2cFlag} {wait : I2cWait} {trace : List I2cAccess} :
    TimeoutsTrue (.waited flag (poll flag wait.polls).2 (waitError flag wait) :: trace) ↔
      ¬(flag.awaited = true ∧ wait.Late) ∧ TimeoutsTrue trace := by
  rw [timeoutsTrue_cons, ← timeout_awaited]
  apply and_congr_left
  intro _
  constructor
  · rintro h ⟨herror, hlast⟩
    exact h flag _ (by rw [herror]) hlast
  · intro h f last heq hlast
    injection heq with hf hbit herror
    subst hf hbit
    exact h ⟨herror, hlast⟩

theorem timeoutsTrue_entries (actions : List I2cAction) :
    TimeoutsTrue (entries actions waits rxBuf) ↔ NeverLate (waitFlags actions) waits := by
  induction actions generalizing waits rxBuf with
  | nil => simp [entries, TimeoutsTrue, waitFlags, NeverLate]
  | cons action actions ih =>
    cases action with
    | control | txBuf | receive =>
      rw [entries, timeoutsTrue_cons, waitFlags, ih]
      simp
    | wait flag =>
      rw [entries, timeoutsTrue_waited, waitFlags, NeverLate]
      apply and_congr_right
      intro _
      cases herror : waitError flag (waits 0) with
      | none =>
        have hgo : (waits 0).GoesThrough flag := waitError_eq_none.mp herror
        simpa [hgo] using ih
      | some e =>
        have hfail : ¬(waits 0).GoesThrough flag := by
          rw [← waitError_eq_none, herror]
          exact Option.some_ne_none e
        simp [hfail, TimeoutsTrue]

def TxShape : (pending : Bool) → List I2cAction → Prop
  | pending, [] => pending = false
  | pending, .txBuf _ :: actions => pending = false ∧ TxShape true actions
  | pending, .wait .ucb0TxIfg :: actions => pending = true ∧ TxShape false actions
  | pending, _ :: actions => TxShape pending actions

def RxShape : (seen : Bool) → List I2cAction → Prop
  | seen, [] => seen = false
  | seen, .receive _ :: actions => seen = true ∧ RxShape false actions
  | seen, .wait .ucb0RxIfg :: actions => seen = false ∧ RxShape true actions
  | seen, _ :: actions => RxShape seen actions

theorem entries_wait {flag : I2cFlag} (actions : List I2cAction)
    (hgo : (waits 0).GoesThrough flag) :
    entries (.wait flag :: actions) waits rxBuf =
      .waited flag (poll flag (waits 0).polls).2 none ::
        entries actions (fun k => waits (k + 1)) rxBuf := by
  rw [entries, waitError_eq_none.mpr hgo]
  rfl

theorem goesThrough_last {flag : I2cFlag} {wait : I2cWait} (hflag : flag.awaited = true)
    (hgo : wait.GoesThrough flag) : (poll flag wait.polls).2 = true ↔ wait.Seen := by
  have hlate : ¬wait.Late := by simpa [I2cWait.GoesThrough, hflag] using hgo.2
  rw [(poll_byte hflag).2, or_iff_left hlate]

@[simp] theorem txObserved_txBuf {pending : Bool} {byte : Byte} {trace : List I2cAccess} :
    TxObserved pending (.txBuf byte :: trace) ↔ pending = false ∧ TxObserved true trace := .rfl

theorem txObserved_waited {pending last : Bool} {flag : I2cFlag} {error : Option I2cError}
    {trace : List I2cAccess} : TxObserved pending (.waited flag last error :: trace) ↔
      TxObserved (pending && !(flag = .ucb0TxIfg && last)) trace := by
  cases flag <;> cases last <;> simp [TxObserved]

theorem rxObserved_waited {seen last : Bool} {flag : I2cFlag} {error : Option I2cError}
    {trace : List I2cAccess} : RxObserved seen (.waited flag last error :: trace) ↔
      RxObserved (seen || (flag = .ucb0RxIfg && last)) trace := by
  cases flag <;> cases last <;> simp [RxObserved]

theorem not_txObserved {actions : List I2cAction} (hshape : TxShape false actions)
    (hgo : AllGoThrough (waitFlags actions) waits) :
    ¬TxObserved true (entries actions waits rxBuf) := by
  induction actions generalizing waits rxBuf with
  | nil => simp [entries, TxObserved]
  | cons action actions ih =>
    cases action with
    | control => exact ih hshape hgo
    | receive => exact ih hshape hgo
    | txBuf => simp [entries]
    | wait flag =>
      rw [entries_wait actions hgo.1, txObserved_waited]
      cases flag with
      | ucb0TxIfg => cases hshape.1
      | ucb0RxIfg | ucTxStt | ucTxStp => exact ih hshape hgo.2

theorem txObserved_entries {pending : Bool} {actions : List I2cAction}
    (hshape : TxShape pending actions) (hgo : AllGoThrough (waitFlags actions) waits) :
    TxObserved pending (entries actions waits rxBuf) ↔
      AllSeen .ucb0TxIfg (waitFlags actions) waits := by
  induction actions generalizing pending waits rxBuf with
  | nil => exact iff_of_true hshape trivial
  | cons action actions ih =>
    cases action with
    | control => exact ih hshape hgo
    | receive => exact ih hshape hgo
    | txBuf => exact (and_iff_right hshape.1).trans (ih hshape.2 hgo)
    | wait flag =>
      rw [entries_wait actions hgo.1, txObserved_waited, waitFlags, AllSeen]
      cases flag with
      | ucb0TxIfg =>
        obtain ⟨rfl, hrest⟩ := hshape
        have hlast := goesThrough_last rfl hgo.1
        by_cases hseen : (waits 0).Seen
        · simpa [hlast.mpr hseen, hseen] using ih hrest hgo.2
        · have hunseen := mt hlast.mp hseen
          simpa [hunseen, hseen] using not_txObserved hrest hgo.2
      | ucb0RxIfg | ucTxStt | ucTxStp => simpa using ih hshape hgo.2

theorem not_rxObserved {actions : List I2cAction} (hshape : RxShape true actions)
    (hgo : AllGoThrough (waitFlags actions) waits) :
    ¬RxObserved false (entries actions waits rxBuf) := by
  induction actions generalizing waits rxBuf with
  | nil => cases hshape
  | cons action actions ih =>
    cases action with
    | control => exact ih hshape hgo
    | txBuf => exact ih hshape hgo
    | receive => simp [entries, RxObserved]
    | wait flag =>
      rw [entries_wait actions hgo.1, rxObserved_waited]
      cases flag with
      | ucb0RxIfg => cases hshape.1
      | ucb0TxIfg | ucTxStt | ucTxStp => exact ih hshape hgo.2

theorem rxObserved_entries {seen : Bool} {actions : List I2cAction}
    (hshape : RxShape seen actions) (hgo : AllGoThrough (waitFlags actions) waits) :
    RxObserved seen (entries actions waits rxBuf) ↔
      AllSeen .ucb0RxIfg (waitFlags actions) waits := by
  induction actions generalizing seen waits rxBuf with
  | nil => exact iff_of_true trivial trivial
  | cons action actions ih =>
    cases action with
    | control => exact ih hshape hgo
    | txBuf => exact ih hshape hgo
    | receive => exact (and_iff_right hshape.1).trans (ih hshape.2 hgo)
    | wait flag =>
      rw [entries_wait actions hgo.1, rxObserved_waited, waitFlags, AllSeen]
      cases flag with
      | ucb0RxIfg =>
        obtain ⟨rfl, hrest⟩ := hshape
        have hlast := goesThrough_last rfl hgo.1
        by_cases hseen : (waits 0).Seen
        · simpa [hlast.mpr hseen, hseen] using ih hrest hgo.2
        · have hunseen := mt hlast.mp hseen
          simpa [hunseen, hseen] using not_rxObserved hrest hgo.2
      | ucb0TxIfg | ucTxStt | ucTxStp => simpa using ih hshape hgo.2

end

theorem waitFlags_append (xs ys : List I2cAction) :
    waitFlags (xs ++ ys) = waitFlags xs ++ waitFlags ys := by
  induction xs with
  | nil => rfl
  | cons x xs ih => cases x <;> simp [waitFlags, ih]

theorem waitFlags_send (bytes : List Byte) :
    waitFlags (sendActions bytes) = List.replicate bytes.length .ucb0TxIfg := by
  induction bytes with
  | nil => rfl
  | cons byte bytes ih => simp [sendActions, waitFlags, ih, List.replicate_succ]

theorem waitFlags_receive (i : Nat) :
    waitFlags (receiveActions i) = List.replicate i .ucb0RxIfg := by
  induction i with
  | zero => rfl
  | succ i ih => simp [receiveActions, waitFlags, ih, List.replicate_succ]

def addrFlags (addr : List Byte) : List I2cFlag :=
  .ucTxStt :: List.replicate addr.length .ucb0TxIfg

def writeFlags (addr bytes : List Byte) : List I2cFlag :=
  addrFlags addr ++ (List.replicate bytes.length .ucb0TxIfg ++ [.ucTxStp])

def readFlags (addr : List Byte) (dataSize : Nat) : List I2cFlag :=
  addrFlags addr ++ (.ucTxStt :: List.replicate (dataSize - 1) .ucb0RxIfg ++
    [.ucTxStp, .ucb0RxIfg])

theorem waitFlags_addr {addr : List Byte} (haddr : 0 < addr.length) :
    waitFlags (addrActions addr) = addrFlags addr := by
  obtain ⟨byte, addr, rfl⟩ := List.exists_cons_of_length_pos haddr
  simp [addrActions, addrFlags, waitFlags, waitFlags_send, List.replicate_succ]

theorem waitFlags_write {addr : List Byte} (haddr : 0 < addr.length) (bytes : List Byte) :
    waitFlags (writeActions addr bytes) = writeFlags addr bytes := by
  rw [writeActions, writeFlags, waitFlags_append, waitFlags_append, waitFlags_addr haddr,
    waitFlags_send]
  rfl

theorem waitFlags_read {addr : List Byte} (haddr : 0 < addr.length) (dataSize : Nat) :
    waitFlags (readActions addr dataSize) = readFlags addr dataSize := by
  rw [readActions, readFlags, waitFlags_append, waitFlags_append, waitFlags_append,
    waitFlags_append, waitFlags_addr haddr, waitFlags_receive]
  rfl

theorem txShape_send {rest : List I2cAction} (bytes : List Byte) (hrest : TxShape false rest) :
    TxShape false (sendActions bytes ++ rest) := by
  induction bytes with
  | nil => exact hrest
  | cons byte bytes ih => exact ⟨rfl, rfl, ih⟩

theorem txShape_write (addr bytes : List Byte) : TxShape false (writeActions addr bytes) :=
  ⟨rfl, rfl, txShape_send addr.tail (txShape_send bytes rfl)⟩

theorem rxShape_send {rest : List I2cAction} (bytes : List Byte) (hrest : RxShape false rest) :
    RxShape false (sendActions bytes ++ rest) := by
  induction bytes with
  | nil => exact hrest
  | cons byte bytes ih => exact ih

theorem rxShape_receive {rest : List I2cAction} (i : Nat) (hrest : RxShape false rest) :
    RxShape false (receiveActions i ++ rest) := by
  induction i with
  | zero => exact hrest
  | succ i ih => exact ⟨rfl, rfl, ih⟩

theorem rxShape_read (addr : List Byte) (dataSize : Nat) :
    RxShape false (readActions addr dataSize) :=
  rxShape_send addr.tail (rxShape_receive (dataSize - 1) ⟨rfl, rfl, rfl⟩)

def receives : List I2cAction → (Nat → Byte) → List Byte
  | [], _ => []
  | .receive _ :: actions, rxBuf => rxBuf 0 :: receives actions fun k => rxBuf (k + 1)
  | .control _ :: actions, rxBuf | .txBuf _ :: actions, rxBuf
  | .wait _ :: actions, rxBuf => receives actions rxBuf

theorem received_entries {actions : List I2cAction} {waits : Nat → I2cWait} {rxBuf : Nat → Byte}
    (hgo : AllGoThrough (waitFlags actions) waits) :
    received (entries actions waits rxBuf) = receives actions rxBuf := by
  induction actions generalizing waits rxBuf with
  | nil => rfl
  | cons action actions ih =>
    cases action with
    | control => exact ih hgo
    | txBuf => exact ih hgo
    | receive i => exact congrArg (rxBuf 0 :: ·) (ih hgo)
    | wait flag =>
      rw [entries_wait actions hgo.1]
      exact ih hgo.2

section

variable {rest : List I2cAction} {rxBuf : Nat → Byte} {data : List Byte}

theorem receives_send (bytes : List Byte) :
    receives (sendActions bytes ++ rest) rxBuf = receives rest rxBuf := by
  induction bytes with
  | nil => rfl
  | cons byte bytes ih => exact ih

theorem stores_send (bytes : List Byte) :
    stores (sendActions bytes ++ rest) rxBuf data = stores rest rxBuf data := by
  induction bytes with
  | nil => rfl
  | cons byte bytes ih => exact ih

theorem stores_receive (i : Nat) (hi : i < data.length) :
    stores (receiveActions i ++ (stopActions ++ [.wait .ucb0RxIfg, .receive 0])) rxBuf data =
      (receives (receiveActions i ++ (stopActions ++ [.wait .ucb0RxIfg, .receive 0])) rxBuf).reverse
        ++ data.drop (i + 1) := by
  induction i generalizing rxBuf data with
  | zero =>
    obtain ⟨byte, data, rfl⟩ := List.exists_cons_of_length_pos hi
    rfl
  | succ i ih =>
    change stores (receiveActions i ++ _) (fun k => rxBuf (k + 1)) (data.set (i + 1) (rxBuf 0)) =
      (rxBuf 0 :: receives (receiveActions i ++ _) fun k => rxBuf (k + 1)).reverse ++ _
    rw [ih (by rw [List.length_set]; omega), List.reverse_cons, List.append_assoc]
    apply congrArg
    have hset : i + 1 < (data.set (i + 1) (rxBuf 0)).length := by rwa [List.length_set]
    rw [List.drop_eq_getElem_cons hset, List.getElem_set_self, List.drop_set_of_lt (by omega)]
    rfl

end

theorem stores_read {addr : List Byte} {dataSize : Nat} {rxBuf : Nat → Byte} {data : List Byte}
    (hsize : 0 < dataSize) (hdata : data.length = dataSize) :
    stores (readActions addr dataSize) rxBuf data =
      (receives (readActions addr dataSize) rxBuf).reverse := by
  change stores (sendActions addr.tail ++ _) rxBuf data =
    (receives (sendActions addr.tail ++ _) rxBuf).reverse
  rw [stores_send, receives_send]
  change stores (receiveActions (dataSize - 1) ++ _) rxBuf data =
    (receives (receiveActions (dataSize - 1) ++ _) rxBuf).reverse
  rw [stores_receive _ (by omega), List.drop_eq_nil_of_le (by omega), List.append_nil]

/-- No wait that is got to sees its flag at its last poll only, and a transfer that goes through has
seen every one of the flags `flag`. -/
def Trustworthy (flag : I2cFlag) (flags : List I2cFlag) (waits : Nat → I2cWait) : Prop :=
  NeverLate flags waits ∧ (AllGoThrough flags waits → AllSeen flag flags waits)

theorem performAll_fresh (actions : List I2cAction) (s : I2c) :
    (∃ t, performAll actions { s with trace := [] } = .ok () t ∧
        AllGoThrough (waitFlags actions) s.waits ∧ t.trace = entries actions s.waits s.rxBuf ∧
        t.data = stores actions s.rxBuf s.data) ∨
      ∃ e t, performAll actions { s with trace := [] } = .error e t ∧
        ¬AllGoThrough (waitFlags actions) s.waits ∧
        t.trace = entries actions s.waits s.rxBuf := by
  simpa using performAll_run actions { s with trace := [] }

theorem writeSound_iff {addr bytes : List Byte} {s : I2c} (haddr : 0 < addr.length)
    (hbytes : 0 < bytes.length) :
    WriteSound addr bytes s ↔ Trustworthy .ucb0TxIfg (writeFlags addr bytes) s.waits := by
  rw [WriteSound, Trustworthy, i2cWrite_eq haddr hbytes, ← waitFlags_write haddr]
  obtain ⟨t, hrun, hgo, htrace, -⟩ | ⟨e, t, hrun, hfail, htrace⟩ :=
    performAll_fresh (writeActions addr bytes) s
  · simp only [hrun]
    rw [htrace, timeoutsTrue_entries, txObserved_entries (txShape_write addr bytes) hgo, and_comm]
    simp [hgo]
  · simp only [hrun]
    rw [htrace, timeoutsTrue_entries]
    simp [hfail]

theorem readSound_iff {addr : List Byte} {dataSize : Nat} {s : I2c} (haddr : 0 < addr.length)
    (hsize : 0 < dataSize) (hdata : s.data.length = dataSize) :
    ReadSound addr dataSize s ↔ Trustworthy .ucb0RxIfg (readFlags addr dataSize) s.waits := by
  rw [ReadSound, Trustworthy, i2cRead_eq haddr hsize, ← waitFlags_read haddr]
  obtain ⟨t, hrun, hgo, htrace, hstores⟩ | ⟨e, t, hrun, hfail, htrace⟩ :=
    performAll_fresh (readActions addr dataSize) s
  · simp only [hrun]
    rw [htrace, hstores, timeoutsTrue_entries, rxObserved_entries (rxShape_read addr dataSize) hgo,
      received_entries hgo, stores_read hsize hdata, and_comm]
    simp [hgo]
  · simp only [hrun]
    rw [htrace, timeoutsTrue_entries]
    simp [hfail]

theorem transfers_sound_iff {addr bytes : List Byte} {dataSize : Nat} {s : I2c}
    (haddr : 0 < addr.length) (hbytes : 0 < bytes.length) (hsize : 0 < dataSize)
    (hdata : s.data.length = dataSize) :
    (WriteSound addr bytes s ↔ Trustworthy .ucb0TxIfg (writeFlags addr bytes) s.waits) ∧
      (ReadSound addr dataSize s ↔ Trustworthy .ucb0RxIfg (readFlags addr dataSize) s.waits) :=
  ⟨writeSound_iff haddr hbytes, readSound_iff haddr hsize hdata⟩

def deadBus : I2c where
  waits _ := ⟨fun _ => false, false⟩
  rxBuf _ := 0
  data := [0]
  trace := []

theorem transfers_sound_iff_deadBus :
    (WriteSound [0x80] [0x01] deadBus ↔
        Trustworthy .ucb0TxIfg (writeFlags [0x80] [0x01]) deadBus.waits) ∧
      (ReadSound [0x80] 1 deadBus ↔
        Trustworthy .ucb0RxIfg (readFlags [0x80] 1) deadBus.waits) :=
  transfers_sound_iff (by decide) (by decide) (by decide) rfl

theorem deadBus_goesThrough (flags : List I2cFlag) : AllGoThrough flags deadBus.waits := by
  induction flags with
  | nil => trivial
  | cons flag flags ih =>
    refine ⟨⟨rfl, ?_⟩, ih⟩
    split
    · rintro ⟨-, hlate⟩
      cases hlate
    · exact ⟨0, by decide, rfl⟩

theorem deadBus_not_seen {flag : I2cFlag} {flags : List I2cFlag} (hmem : flag ∈ flags) :
    ¬AllSeen flag flags deadBus.waits := by
  induction flags with
  | nil => cases hmem
  | cons f flags ih =>
    rintro ⟨hhead, hrest⟩
    cases hmem with
    | head =>
      obtain ⟨j, -, hset⟩ := hhead rfl
      cases hset
    | tail _ hmem => exact ih hmem hrest

theorem deadBus_not_trustworthy {flag : I2cFlag} {flags : List I2cFlag} (hmem : flag ∈ flags) :
    ¬Trustworthy flag flags deadBus.waits :=
  fun h => deadBus_not_seen hmem (h.2 (deadBus_goesThrough flags))

theorem transfers_unsound_deadBus :
    ¬WriteSound [0x80] [0x01] deadBus ∧ ¬ReadSound [0x80] 1 deadBus := by
  have hread := @readSound_iff [0x80] 1 deadBus (by decide) (by decide) rfl
  rw [writeSound_iff (by decide) (by decide), hread]
  exact ⟨deadBus_not_trustworthy (by decide), deadBus_not_trustworthy (by decide)⟩

end I2c

end Nsumo.Drivers
