import Nsumo.Drivers.Pwm
import Nsumo.Lib.Run

namespace Nsumo.Drivers

open Common Lib

def outmod (enabled : Bool) : Word := if enabled then outmod7 else outmod0

def runMode (running : Bool) : Word := if running then mc1 else mc0

structure PwmChannelCfg.Valid (cfg : PwmChannelCfg) : Prop where
  cctl : cfg.cctl = outmod cfg.enabled
  ccr : cfg.enabled = true → 1 ≤ cfg.ccr ∧ cfg.ccr ≤ 75

namespace PwmState

theorem pwmScaleDutyCycle_bounds : ∀ duty : Byte, 0 < duty → duty ≤ 100 →
    1 ≤ (pwmScaleDutyCycle duty).setWidth 16 ∧ (pwmScaleDutyCycle duty).setWidth 16 ≤ (75 : Word) := by
  decide

structure Consistent (s : PwmState) : Prop where
  channels (pwm : Pwm) : (s.pwmCfgs pwm).Valid
  ta0ctl : s.ta0ctl = tassel2 + id3 + runMode s.pwmEnabled
  enabled : s.pwmEnabled = !s.pwmAllChannelsDisabled

variable {s : PwmState}

theorem pwmAllChannelsDisabled_iff :
    s.pwmAllChannelsDisabled = true ↔ ∀ pwm, (s.pwmCfgs pwm).enabled = false := by
  simp only [pwmAllChannelsDisabled, List.all_cons, List.all_nil, Bool.and_true, Bool.and_eq_true,
    Bool.not_eq_true']
  constructor
  · rintro ⟨hleft, hright⟩ pwm
    cases pwm with
    | tb6612fngLeft => exact hleft
    | tb6612fngRight => exact hright
  · exact fun h => ⟨h _, h _⟩

theorem Consistent.running_iff (h : Consistent s) :
    s.pwmEnabled = true ↔ ∃ pwm, (s.pwmCfgs pwm).enabled = true := by
  rw [h.enabled, Bool.not_eq_true', ← Bool.not_eq_true, pwmAllChannelsDisabled_iff]
  simp

theorem pwmEnable_ta0ctl (enable : Bool) (h : s.ta0ctl = tassel2 + id3 + runMode s.pwmEnabled) :
    (pwmEnable enable s).ta0ctl = tassel2 + id3 + runMode enable := by
  rw [pwmEnable]
  split
  case isTrue =>
    dsimp only
    rw [h]
    cases s.pwmEnabled <;> cases enable <;> rfl
  case isFalse hsame => rw [h, not_not.mp hsame]

theorem pwmEnable_pwmEnabled (enable : Bool) (s : PwmState) :
    (pwmEnable enable s).pwmEnabled = enable := by
  rw [pwmEnable]
  split
  case isTrue => rfl
  case isFalse hsame => exact not_not.mp hsame

theorem pwmEnable_pwmCfgs (enable : Bool) (s : PwmState) :
    (pwmEnable enable s).pwmCfgs = s.pwmCfgs := by
  rw [pwmEnable]
  split <;> rfl

theorem pwmEnable_same {enable : Bool} (hsame : s.pwmEnabled = enable) : pwmEnable enable s = s := by
  rw [pwmEnable, if_neg (not_not.mpr hsame)]

def settle (s : PwmState) : PwmState := pwmEnable (!s.pwmAllChannelsDisabled) s

theorem consistent_settle (hchannels : ∀ pwm, (s.pwmCfgs pwm).Valid)
    (hta0ctl : s.ta0ctl = tassel2 + id3 + runMode s.pwmEnabled) : Consistent s.settle where
  channels pwm := by
    rw [settle, pwmEnable_pwmCfgs]
    exact hchannels pwm
  ta0ctl := by rw [settle, pwmEnable_ta0ctl _ hta0ctl, pwmEnable_pwmEnabled]
  enabled := by
    have hall : s.settle.pwmAllChannelsDisabled = s.pwmAllChannelsDisabled := by
      rw [pwmAllChannelsDisabled, settle, pwmEnable_pwmCfgs]
      rfl
    rw [hall, settle, pwmEnable_pwmEnabled]

theorem Consistent.settle_eq (h : Consistent s) : s.settle = s := pwmEnable_same h.enabled

def channelCfg (enable : Bool) (ccr : Word) : PwmChannelCfg where
  enabled := enable
  cctl := outmod enable
  ccr := ccr

theorem setCfg_valid (h : Consistent s) (pwm : Pwm) {cfg : PwmChannelCfg} (hcfg : cfg.Valid)
    (ch : Pwm) : ((s.setCfg pwm cfg).pwmCfgs ch).Valid := by
  change (Function.update s.pwmCfgs pwm cfg ch).Valid
  by_cases hch : ch = pwm
  · rwa [hch, Function.update_self]
  · rw [Function.update_of_ne hch]
    exact h.channels ch

theorem Consistent.cfg_eq (h : Consistent s) (pwm : Pwm) :
    s.pwmCfgs pwm = channelCfg (s.pwmCfgs pwm).enabled (s.pwmCfgs pwm).ccr := by
  rw [channelCfg, ← (h.channels pwm).cctl]

theorem channelEnable_eq (h : Consistent s) (pwm : Pwm) (enable : Bool) :
    pwmChannelEnable pwm enable s =
      (s.setCfg pwm (channelCfg enable (s.pwmCfgs pwm).ccr)).settle := by
  by_cases hsame : (s.pwmCfgs pwm).enabled = enable
  · have hset : s.setCfg pwm (channelCfg enable (s.pwmCfgs pwm).ccr) = s := by
      rw [← hsame, ← h.cfg_eq, setCfg, Function.update_eq_self]
    rw [hset, h.settle_eq, pwmChannelEnable, if_neg (not_not.mpr hsame)]
  · rw [pwmChannelEnable, if_pos hsame, settle]
    cases enable with
    | true =>
      have hall : (s.setCfg pwm
          (channelCfg true (s.pwmCfgs pwm).ccr)).pwmAllChannelsDisabled = false := by
        rw [← Bool.not_eq_true, pwmAllChannelsDisabled_iff]
        intro hdisabled
        simpa [setCfg, channelCfg] using hdisabled pwm
      rw [hall]
      rfl
    | false =>
      have hrunning : s.pwmEnabled = true := h.running_iff.mpr ⟨pwm, by simpa using hsame⟩
      change (if (s.setCfg pwm (channelCfg false _)).pwmAllChannelsDisabled = true
        then pwmEnable false _ else _) = _
      split
      case isTrue hall =>
        rw [hall]
        rfl
      case isFalse hall =>
        rw [Bool.not_eq_true] at hall
        rw [hall]
        exact (@pwmEnable_same (s.setCfg pwm (channelCfg false _)) _ hrunning).symm

theorem Consistent.channelEnable (h : Consistent s) (pwm : Pwm) (enable : Bool)
    (hccr : enable = true → 1 ≤ (s.pwmCfgs pwm).ccr ∧ (s.pwmCfgs pwm).ccr ≤ 75) :
    Consistent (pwmChannelEnable pwm enable s) ∧ (pwmChannelEnable pwm enable s).pwmCfgs =
      Function.update s.pwmCfgs pwm (channelCfg enable (s.pwmCfgs pwm).ccr) := by
  rw [channelEnable_eq h]
  refine ⟨consistent_settle (setCfg_valid h pwm ⟨rfl, hccr⟩) h.ta0ctl, ?_⟩
  rw [settle, pwmEnable_pwmCfgs]
  rfl

theorem Consistent.setCcr (h : Consistent s) (pwm : Pwm) {ccr : Word}
    (hccr : 1 ≤ ccr ∧ ccr ≤ 75) : Consistent (s.setCfg pwm { s.pwmCfgs pwm with ccr }) where
  channels := setCfg_valid h pwm ⟨(h.channels pwm).cctl, fun _ => hccr⟩
  ta0ctl := h.ta0ctl
  enabled := by
    have hsame : (s.setCfg pwm { s.pwmCfgs pwm with ccr }).pwmAllChannelsDisabled =
        s.pwmAllChannelsDisabled := by cases pwm <;> rfl
    rw [hsame]
    exact h.enabled

theorem Consistent.setDutyCycle (h : Consistent s) (pwm : Pwm) {duty : Byte} (hduty : duty ≤ 100) :
    ∃ t, pwmSetDutyCycle pwm duty s = .ok t ∧ Consistent t ∧
      t.pwmCfgs = Function.update s.pwmCfgs pwm (channelCfg (decide (0 < duty))
        (if 0 < duty then (pwmScaleDutyCycle duty).setWidth 16 else (s.pwmCfgs pwm).ccr)) := by
  rw [pwmSetDutyCycle, decide_eq_true hduty]
  refine ⟨_, rfl, ?_⟩
  by_cases hpos : 0 < duty
  · have hbounds := pwmScaleDutyCycle_bounds duty hpos hduty
    rw [decide_eq_true hpos, if_pos hpos, if_pos rfl]
    have hset := (h.setCcr pwm hbounds).channelEnable pwm true fun _ => by
      simpa [setCfg] using hbounds
    refine ⟨hset.1, hset.2.trans ?_⟩
    simp [setCfg]
  · rw [decide_eq_false hpos, if_neg hpos, if_neg Bool.false_ne_true]
    exact h.channelEnable pwm false nofun

end PwmState

end Nsumo.Drivers
