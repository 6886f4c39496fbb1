import Nsumo.Drivers.Vl53l0xLogged
import Nsumo.Drivers.Vl53l0xSpad
import Nsumo.Lib.Triple

namespace Nsumo.Drivers

open Common Lib

namespace Vl53l0x

theorem elapse_run {δ : Type} (bus : Bus δ) (s : Vl53l0x δ) :
    ∃ t, elapse bus s = .ok () t ∧ t.dev = (bus.elapse s.dev).2 ∧
      t.initialized = s.initialized ∧ t.statusMultiple =
        if (bus.elapse s.dev).1 then StatusMultiple.done else s.statusMultiple :=
  ⟨_, rfl, by dsimp only; split <;> rfl, by dsimp only; split <;> rfl,
    by dsimp only; split <;> rfl⟩

variable {δ : Type} (bus : Bus δ)

theorem elapse_logged (s : Vl53l0x (Logged δ)) :
    ∃ b t, elapse (Logged.bus bus) s = .ok () t ∧ t.initialized = s.initialized ∧
      ∀ event, t.dev.log ++ [event] = s.dev.log ++ [.elapsed b, event] := by
  obtain ⟨t, ht, hdev, hinitialized, -⟩ := elapse_run (Logged.bus bus) s
  refine ⟨(bus.elapse s.dev.dev).1, t, ht, hinitialized, fun event => ?_⟩
  rw [hdev]
  exact List.append_assoc _ _ _

theorem writeBytes_run (reg : Byte) (data : List Byte) (s : Vl53l0x (Logged δ)) :
    ∃ b d t, i2cWriteBytes (Logged.bus bus) reg data s = .ok (bus.write reg data d).1 t ∧
      t.dev.log = s.dev.log ++ [.elapsed b, .written reg data (bus.write reg data d).1] ∧
      t.initialized = s.initialized := by
  obtain ⟨b, u, hu, hinitialized, hlog⟩ := elapse_logged bus s
  exact ⟨b, u.dev.dev, _, bind_run hu, hlog _, hinitialized⟩

theorem write_run (reg data : Byte) (s : Vl53l0x (Logged δ)) :
    ∃ b d t, i2cWriteAddr8Data8 (Logged.bus bus) reg data s = .ok (bus.write reg [data] d).1 t ∧
      t.dev.log = s.dev.log ++ [.elapsed b, .written reg [data] (bus.write reg [data] d).1] ∧
      t.initialized = s.initialized :=
  writeBytes_run bus reg [data] s

theorem readBytes_run (reg : Byte) (data : List Byte) (s : Vl53l0x (Logged δ)) :
    ∃ b d t, i2cReadBytes (Logged.bus bus) reg data s =
        .ok ((bus.read reg data d).1, (bus.read reg data d).2.1) t ∧
      t.dev.log = s.dev.log ++ [.elapsed b, .read reg (bus.read reg data d).1] ∧
      t.initialized = s.initialized := by
  obtain ⟨b, u, hu, hinitialized, hlog⟩ := elapse_logged bus s
  exact ⟨b, u.dev.dev, _, bind_run hu, hlog _, hinitialized⟩

end Vl53l0x

end Nsumo.Drivers
