import Nsumo.Drivers.Vl53l0xLoggedLaws
import Nsumo.Drivers.Vl53l0xRules
import Nsumo.Lib.Fuel
import Mathlib.Logic.Function.Iterate
import Mathlib.Logic.Relation

namespace Nsumo.Drivers

open Common Lib

namespace Vl53l0x

section

variable {δ : Type} (bus : Bus δ)

end

variable {δ : Type} {bus : Bus δ} {reg : Byte} {again : Byte → Bool} {s t : Vl53l0x (Logged δ)}

def NoFuel {δ α : Type} (x : Driver δ α) : Prop :=
  Triple (fun _ => True) x (fun _ _ => True) fun stop _ => stop ≠ .fuel

theorem NoFuel.ne {δ α : Type} {x : Driver δ α} (h : NoFuel x) (s t : Vl53l0x δ) :
    x s ≠ .error .fuel t :=
  fun hx => h.error trivial hx rfl

section

variable {δ α β : Type} (bus : Bus δ)

theorem NoFuel.bind {x : Driver δ α} {f : α → Driver δ β} (hx : NoFuel x)
    (hf : ∀ a, NoFuel (f a)) : NoFuel (x >>= f) :=
  Triple.bind hx hf

theorem NoFuel.ret (a : α) : NoFuel (pure a : Driver δ α) := fun _ _ => trivial

theorem NoFuel.update (g : Vl53l0x δ → Vl53l0x δ) : NoFuel (modify g : Driver δ Unit) :=
  fun _ _ => trivial

theorem NoFuel.read : NoFuel (get : Driver δ (Vl53l0x δ)) := fun _ _ => trivial

end

end Vl53l0x

end Nsumo.Drivers
