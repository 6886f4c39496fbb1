import Nsumo.Drivers.Vl53l0xWiredLaws

namespace Nsumo.Drivers

open Common Lib

namespace Vl53l0x

variable {δ : Type} {bus : Bus δ} {s t : Vl53l0x (Wired δ)} {P Q : Vl53l0x (Wired δ) → Prop}
  {E : Vl53l0xStop → Vl53l0x (Wired δ) → Prop} {stops : Vl53l0xIdx → Byte} {fuel : Nat}
  {idx : Vl53l0xIdx} {value : Byte} {writes : List (Vl53l0xIdx × Byte)}

theorem startSysrange_plain {bus : Bus (Wired δ)} {P₀ : Vl53l0x (Wired δ) → Prop}
    (hP₀ : CarriesOn plainReg bus P₀ E) (hQ : CarriesOn plainReg bus Q E)
    (haddress : Triple P (i2cSetSlaveAddress bus (vl53l0xCfgs idx)) (fun _ => P₀) E)
    (hvalue : ∀ s, P₀ s → s.stopVariable = value)
    (hstop : Triple P₀ (i2cWriteAddr8Data8 bus 0x91 value) (After E Q) E) :
    Triple P (vl53l0xStartSysrange bus fuel idx) (fun _ => Q) E := by
  refine haddress.bind fun _ => (hP₀.writeRegs rfl).bind fun _ => ?_
  refine Triple.bind (Q := fun r s => r.stopVariable = value ∧ P₀ s)
    (.read fun s hs => ⟨hvalue s hs, hs⟩) fun r => .guarded ?_
  rintro rfl
  refine hstop.bind fun error => (check_rule error).bind fun _ => ?_
  refine (hQ.writeRegs rfl).bind fun _ => ?_
  exact (hQ.write _ _ rfl).bind fun error => (check_rule error).bind fun _ => hQ.poll rfl

structure Written (value : Byte) (writes : List (Vl53l0xIdx × Byte)) (s : Vl53l0x (Wired δ)) :
    Prop where
  listen : s.dev.addresses = assigned allSensors
  stored : s.stopVariable = value
  stopWrites : s.dev.stopWrites = writes

def WrittenOrNot (value : Byte) (writes : List (Vl53l0xIdx × Byte)) (idx : Vl53l0xIdx)
    (s : Vl53l0x (Wired δ)) : Prop :=
  Written value writes s ∨ Written value ((idx, value) :: writes) s

theorem Written.steady (hstop : ∀ s : Vl53l0x (Wired δ), Written value writes s → Q s) :
    Steady (Written value writes) fun _ => Q where
  moved _ _ _ h := ⟨h.listen, h.stored, h.stopWrites⟩
  setInterrupts _ _ h := ⟨h.listen, h.stored, h.stopWrites⟩
  stop _ s h := hstop s h

theorem write_stop_written :
    Triple (fun s => s.dev.slaveAddress = vl53l0xCfgs idx ∧ Written value writes s)
      (i2cWriteAddr8Data8 (Wired.bus bus) 0x91 value)
      (After (fun _ => WrittenOrNot value writes idx) (Written value ((idx, value) :: writes)))
      fun _ => WrittenOrNot value writes idx := by
  refine write_wired_rule (fun status dev s hs => ?_) fun status dev s hs => ?_
  · obtain ⟨haddress, h⟩ := hs
    have hlisteners : (moved status dev s).dev.listeners = [idx] :=
      listeners_allSensors h.listen haddress
    refine ⟨h.listen, h.stored, ?_⟩
    change (moved status dev s).dev.listeners.map (fun idx => (idx, value)) ++ s.dev.stopWrites = _
    rw [hlisteners, h.stopWrites]
    rfl
  · exact .inl ⟨hs.2.listen, hs.2.stored, hs.2.stopWrites⟩

theorem startSysrange_written :
    Triple (Written value writes) (vl53l0xStartSysrange (Wired.bus bus) fuel idx)
      (fun _ => Written value ((idx, value) :: writes)) fun _ => WrittenOrNot value writes idx := by
  have hbefore : Steady (@Written δ value writes) fun _ => WrittenOrNot value writes idx :=
    Written.steady fun _ => .inl
  have hafter : Steady (@Written δ value ((idx, value) :: writes))
      fun _ => WrittenOrNot value writes idx :=
    Written.steady fun _ => .inr
  refine startSysrange_plain (hbefore.addressed (vl53l0xCfgs idx)).carries.toCarriesOn
    hafter.carries.toCarriesOn (.update fun _ h => ?_) (fun _ h => h.2.stored) write_stop_written
  exact ⟨rfl, h.listen, h.stored, h.stopWrites⟩

def started (bus : Bus δ) (fuel : Nat) (starts : List Vl53l0xIdx) (s : Vl53l0x (Wired δ)) :
    Vl53l0x (Wired δ) :=
  starts.foldl (fun s idx => stateAfter (vl53l0xStartSysrange (Wired.bus bus) fuel idx s)) s

def Calibrated (stops : Vl53l0xIdx → Byte) (s : Vl53l0x (Wired δ)) : Prop :=
  ∀ write ∈ s.dev.stopWrites, write.2 = stops write.1

theorem startSysrange_after (bus : Bus δ) (fuel : Nat) (idx : Vl53l0xIdx)
    (h : Written value writes s) :
    WrittenOrNot value writes idx
      (stateAfter (vl53l0xStartSysrange (Wired.bus bus) fuel idx s)) := by
  have hrun : Triple (Written value writes) (vl53l0xStartSysrange (Wired.bus bus) fuel idx)
      (fun _ => WrittenOrNot value writes idx) fun _ => WrittenOrNot value writes idx :=
    startSysrange_written.conseq (fun _ h => h) (fun _ _ => .inr) fun _ _ h => h
  exact hrun.after h

theorem started_written (starts : List Vl53l0xIdx) (h : Written value writes s) :
    ∃ news, news ⊆ starts.map (fun idx => (idx, value)) ∧
      Written value (news ++ writes) (started bus fuel starts s) := by
  induction starts generalizing s writes with
  | nil => exact ⟨[], List.nil_subset _, h⟩
  | cons idx starts ih =>
    cases startSysrange_after bus fuel idx h with
    | inl hnot =>
      obtain ⟨news, hnews, hstarted⟩ := ih hnot
      exact ⟨news, List.subset_cons_of_subset _ hnews, hstarted⟩
    | inr hwritten =>
      obtain ⟨news, hnews, hstarted⟩ := ih hwritten
      refine ⟨news ++ [(idx, value)], ?_, ?_⟩
      · intro write hwrite
        obtain hwrite | hwrite := List.mem_append.mp hwrite
        · exact List.mem_cons_of_mem _ (hnews hwrite)
        · rw [List.mem_singleton.mp hwrite]
          exact List.mem_cons_self
      · rw [List.append_assoc]
        exact hstarted

theorem wiredInit_written {s : Vl53l0x δ} {board : BoardState}
    (hinit : wiredInit bus fuel s board stops = .ok () t) : Written (stops .frontRight) [] t := by
  obtain ⟨hstored, h⟩ := (init_listening fuel).ok (wired_recorded s board stops) hinit
  exact ⟨h.listen, hstored, h.stopWrites⟩

theorem calibrated_iff {s : Vl53l0x δ} {board : BoardState}
    (hinit : wiredInit bus fuel s board stops = .ok () t) (starts : List Vl53l0xIdx) :
    ((∀ idx ∈ starts, stops idx = stops .frontRight) →
        Calibrated stops (started bus fuel starts t)) ∧
      ∀ idx u, vl53l0xStartSysrange (Wired.bus bus) fuel idx (started bus fuel starts t) =
          .ok () u →
        (u.dev.stopWrites = (idx, stops idx) :: (started bus fuel starts t).dev.stopWrites ↔
          stops idx = stops .frontRight) := by
  obtain ⟨news, hnews, hstarted⟩ := started_written starts (wiredInit_written hinit)
  refine ⟨fun hsame write hwrite => ?_, fun idx u hu => ?_⟩
  · rw [hstarted.stopWrites, List.append_nil] at hwrite
    obtain ⟨idx, hidx, rfl⟩ := List.mem_map.mp (hnews hwrite)
    exact (hsame idx hidx).symm
  · rw [(startSysrange_written.ok hstarted hu).stopWrites, hstarted.stopWrites, List.cons.injEq,
      Prod.mk.injEq]
    exact ⟨fun h => h.1.2.symm, fun h => ⟨⟨rfl, h.symm⟩, rfl⟩⟩

theorem calibrated_sides :
    ∃ t, wiredInit readyBus 1 unstarted BoardState.boot frontStop = .ok () t ∧
      Calibrated frontStop (started readyBus 1 [.left, .right] t) := by
  obtain ⟨t, hinit, -⟩ := ok_of_stopWritesOf init_ready
  exact ⟨t, hinit, (calibrated_iff hinit [.left, .right]).1 (by decide)⟩

theorem start_front_ready :
    stopWritesOf ((do
      vl53l0xInit (Wired.bus readyBus) Wired.wiredBoard 1
      vl53l0xStartSysrange (Wired.bus readyBus) 1 .front : Driver (Wired Unit) Unit)
        (wired unstarted BoardState.boot frontStop)) = some [(.front, 0x3D)] := by
  decide +kernel

theorem front_miscalibrated :
    ∃ t u, wiredInit readyBus 1 unstarted BoardState.boot frontStop = .ok () t ∧
      vl53l0xStartSysrange (Wired.bus readyBus) 1 .front t = .ok () u ∧
      u.dev.stopWrites = [(.front, 0x3D)] ∧ frontStop .front = 0x3C := by
  obtain ⟨t, hinit, -⟩ := ok_of_stopWritesOf init_ready
  obtain ⟨u, hu, hwrites⟩ := ok_of_stopWritesOf start_front_ready
  rw [bind_run hinit] at hu
  exact ⟨t, u, hinit, hu, hwrites, rfl⟩

end Vl53l0x

end Nsumo.Drivers
