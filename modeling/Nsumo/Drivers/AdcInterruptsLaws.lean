import Nsumo.Drivers.AdcInterrupts
import Nsumo.Drivers.AdcLaws
import Nsumo.Lib.Masked
import Mathlib.Data.List.Forall2

namespace Nsumo.Drivers.AdcSystem

open Adc Common Lib Io

def channel (io : Io) : Fin adcChannelCount := ⟨ioPinIdx io, ioPinIdx_lt io⟩

def cached (cnt : Nat) (cache : AdcChannelValues) (sample : Nat → BitVec 16) : AdcChannelValues :=
  Cells.filled sample cnt cache

def pinWords (pins : List Io) : List (AdcChannelValues → BitVec 16) :=
  pins.map fun io cache => cache (channel io)

abbrev Snapshots : Type := Masked AdcChannelValues (Nat → BitVec 16) (BitVec 16)

def block (cnt : Nat) (sample : Nat → BitVec 16) (k : Nat) (old : AdcChannelValues) :
    AdcChannelValues :=
  Cells.filled (fun j => sample (cnt - 1 - j)) k old

inductive Sequence (samples : Nat → Nat → BitVec 16) (cnt : Nat) (m : Snapshots) (s : AdcSystem) :
    Prop
  | converting {k : Nat} {old : AdcChannelValues} : s.transfers = some k → s.adc10ifg = false →
      s.isr = none → k < cnt → s.converted = m.served.length →
      s.adc.adcDtcBlock = block cnt (samples m.served.length) k old →
      s.adc.adcDtcBlockCache = m.shared → Sequence samples cnt m s
  | waiting {old : AdcChannelValues} : s.transfers = none → s.adc10ifg = true → s.isr = none →
      s.converted = m.served.length + 1 →
      s.adc.adcDtcBlock = block cnt (samples m.served.length) cnt old →
      s.adc.adcDtcBlockCache = m.shared → Sequence samples cnt m s
  | copying {i : Nat} {old : AdcChannelValues} : s.transfers = none → s.adc10ifg = false →
      s.isr = some i → i ≤ cnt → s.converted = m.served.length + 1 →
      s.adc.adcDtcBlock = block cnt (samples m.served.length) cnt old →
      s.adc.adcDtcBlockCache = cached i m.shared (samples m.served.length) → s.main = none →
      Sequence samples cnt m s

inductive Reading (pins : List Io) (m : Snapshots) (s : AdcSystem) : Prop
  | outside : s.main = none → s.gie = true → m.reading = none → Reading pins m s
  | copying {done rest : List Io} {old : AdcChannelValues} : s.main = some rest → s.gie = false →
      s.isr = none → pins = done ++ rest →
      m.reading = some (done.map fun io => m.shared (channel io)) →
      Stored m.shared old done s.values → Reading pins m s

def Returned (pins : List Io) (result : List (BitVec 16) × Nat)
    (returned : AdcChannelValues × Nat) : Prop :=
  (result.1 = pins.map fun io => returned.1 (channel io)) ∧
    result.2 ≤ returned.2 ∧ returned.2 ≤ result.2 + 1

/-- A call of `adc_get_channel_values` is a masked part that reads the cache. -/
structure Copies (samples : Nat → Nat → BitVec 16) (pins : List Io) (cnt : Nat) (m : Snapshots)
    (s : AdcSystem) : Prop where
  configured : Configured pins s.adc
  count : s.adc.dtcChannelCnt.toNat = cnt
  served : m.served = (List.range m.served.length).map samples
  sequence : Sequence samples cnt m s
  reading : Reading pins m s
  returned : List.Forall₂ (Returned pins) m.results s.returned

section

variable {samples : Nat → Nat → BitVec 16} {pins : List Io} {cnt : Nat} {m : Snapshots}
  {s : AdcSystem}

theorem filled_zero (f : Nat → BitVec 16) (cells : AdcChannelValues) :
    Cells.filled f 0 cells = cells := by
  funext k
  exact if_neg (Nat.not_lt_zero _)

theorem read_block {f : Nat → BitVec 16} {old : AdcChannelValues} {i : Nat} (hi : i < cnt)
    (hcnt : cnt ≤ 8) :
    Cells.read AdcStop.outside (cnt - 1 - i) (block cnt f cnt old) = .ok (f i) := by
  have hlt : cnt - 1 - i < cnt := by omega
  have hin : cnt - 1 - i < adcChannelCount := Nat.lt_of_lt_of_le hlt hcnt
  have hback : cnt - 1 - (cnt - 1 - i) = i := by omega
  rw [Cells.read_ok hin, block, Cells.filled, if_pos hlt, hback]

theorem Sequence.cache (h : Sequence samples cnt m s) (hisr : s.isr = none) :
    s.adc.adcDtcBlockCache = m.shared := by
  cases h with
  | converting _ _ _ _ _ _ hcache | waiting _ _ _ _ _ hcache => exact hcache
  | copying _ _ hisr' => cases hisr.symm.trans hisr'

theorem configured_withBlock {adc : Adc} (h : Configured pins adc) (adcDtcBlock : AdcChannelValues)
    (adcDtcBlockCache : AdcChannelValues) (adc10ctl0 : BitVec 16) :
    Configured pins { adc with adcDtcBlock, adcDtcBlockCache, adc10ctl0 } :=
  ⟨h.listed, h.port1, h.lt, h.le, h.transfers, h.inch⟩

theorem Sequence.main (h : Sequence samples cnt m s) (hisr : s.isr = none) {m' : Snapshots}
    {s' : AdcSystem} (hshared : m'.shared = m.shared) (hserved : m'.served = m.served)
    (hadc : s'.adc = s.adc) (htransfers : s'.transfers = s.transfers)
    (hifg : s'.adc10ifg = s.adc10ifg) (hisr' : s'.isr = none)
    (hconverted : s'.converted = s.converted) : Sequence samples cnt m' s' := by
  cases h with
  | converting ht hf hi hk hc hb hs =>
    rw [← hserved] at hc hb
    rw [← hadc] at hb hs
    exact .converting (htransfers.trans ht) (hifg.trans hf) hisr' hk (hconverted.trans hc) hb
      (hs.trans hshared.symm)
  | waiting ht hf hi hc hb hs =>
    rw [← hserved] at hc hb
    rw [← hadc] at hb hs
    exact .waiting (htransfers.trans ht) (hifg.trans hf) hisr' (hconverted.trans hc) hb
      (hs.trans hshared.symm)
  | copying _ _ hi => cases hisr.symm.trans hi

theorem Sequence.converted_le (h : Sequence samples cnt m s) :
    m.served.length ≤ s.converted ∧ s.converted ≤ m.served.length + 1 := by
  cases h with
  | converting _ _ _ _ hc | waiting _ _ _ hc | copying _ _ _ _ hc => omega

theorem Reading.conversion (h : Reading pins m s) {s' : AdcSystem} (hmain : s'.main = s.main)
    (hgie : s'.gie = s.gie) (hisr : s'.isr = s.isr) (hvalues : s'.values = s.values) :
    Reading pins m s' := by
  cases h with
  | outside hm hg hr => exact .outside (hmain.trans hm) (hgie.trans hg) hr
  | copying hm hg hi hp hr hv =>
    exact .copying (hmain.trans hm) (hgie.trans hg) (hisr.trans hi) hp hr (by rwa [hvalues])

theorem Copies.conversion (h : Copies samples pins cnt m s) :
    ∃ s', s.stepConversion samples = .ok s' ∧ Copies samples pins cnt m s' := by
  have hsequence := h.sequence
  rw [stepConversion]
  cases hsequence with
  | waiting ht | copying ht =>
    rw [ht]
    exact ⟨s, rfl, h⟩
  | @converting k old ht hf hi hk hc hb hs =>
    have hle : cnt ≤ 8 := by rw [← h.count]; exact h.configured.le
    have hin : k < adcChannelCount := Nat.lt_of_lt_of_le hk hle
    have hinch : (s.adc.adc10ctl1 >>> 12).toNat = cnt - 1 := by
      have hsucc := h.configured.inch
      rw [h.count] at hsucc
      omega
    have hwrite : Cells.write AdcStop.outside k (samples s.converted (cnt - 1 - k))
        s.adc.adcDtcBlock = .ok (block cnt (samples m.served.length) (k + 1) old) := by
      rw [Cells.write_ok hin, hb, hc, block, block]
      exact congrArg Except.ok (Cells.filled_succ _ hin old)
    have hconfigured : Configured pins { s.adc with
        adcDtcBlock := block cnt (samples m.served.length) (k + 1) old } :=
      configured_withBlock h.configured _ _ _
    have hdtc : s.adc.adc10dtc1.toNat = cnt := by rw [h.configured.transfers, h.count]
    have hreading := h.reading
    rw [ht]
    dsimp only
    rw [hinch, hwrite, Run.ok_bind, hdtc]
    split
    case isTrue hlast =>
      refine ⟨_, rfl, hconfigured, h.count, h.served, ?_, hreading.conversion rfl rfl rfl rfl,
        h.returned⟩
      exact .waiting rfl rfl hi (congrArg (· + 1) hc) (by rw [hlast]) hs
    case isFalse hmore =>
      refine ⟨_, rfl, hconfigured, h.count, h.served, ?_, hreading.conversion rfl rfl rfl rfl,
        h.returned⟩
      exact .converting rfl hf hi (by omega) hc rfl hs

theorem Copies.interrupt (h : Copies samples pins cnt m s) :
    Copies samples pins cnt m s.acceptInterrupt := by
  rw [acceptInterrupt]
  split
  case isFalse => exact h
  case isTrue haccept =>
    simp only [Bool.and_eq_true] at haccept
    obtain ⟨⟨⟨hifg, hgie⟩, -⟩, -⟩ := haccept
    have hmain : s.main = none ∧ m.reading = none := by
      cases h.reading with
      | outside hm _ hr => exact ⟨hm, hr⟩
      | copying _ hg => cases hgie.symm.trans hg
    refine ⟨h.configured, h.count, h.served, ?_, .outside hmain.1 hgie hmain.2, h.returned⟩
    cases h.sequence with
    | converting _ hf | copying _ hf => cases hifg.symm.trans hf
    | waiting ht _ _ hc hb hs =>
      exact .copying ht rfl rfl (Nat.zero_le _) hc hb
        (hs.trans (filled_zero _ _).symm) hmain.1

theorem Copies.isr (h : Copies samples pins cnt m s) {i : Nat} (hisr : s.isr = some i) :
    ∃ s', ∃ events : List (Masked.Event (Nat → BitVec 16)), s.stepIsr i = .ok s' ∧
      Copies samples pins cnt (events.foldl (Masked.step (cached cnt) (pinWords pins)) m) s' := by
  have hle : cnt ≤ 8 := by rw [← h.count]; exact h.configured.le
  have hsequence := h.sequence
  cases hsequence with
  | converting _ _ hi | waiting _ _ hi => cases hisr.symm.trans hi
  | @copying j old ht hf hi hj hc hb hs hmain =>
    cases hisr.symm.trans hi
    have hreading : s.gie = true ∧ m.reading = none := by
      cases h.reading with
      | outside _ hg hr => exact ⟨hg, hr⟩
      | copying hm => cases hmain.symm.trans hm
    rw [stepIsr, h.count]
    split
    case isTrue hlt =>
      have hin : i < adcChannelCount := Nat.lt_of_lt_of_le hlt hle
      rw [hb, read_block hlt hle, Run.ok_bind, hs, Cells.write_ok hin, Run.ok_bind, cached,
        Cells.filled_succ _ hin]
      refine ⟨_, [], rfl, ?_, h.count, h.served, ?_, .outside hmain hreading.1 hreading.2,
        h.returned⟩
      · exact configured_withBlock h.configured _ _ _
      · exact .copying ht hf rfl hlt hc hb rfl hmain
    case isFalse hnot =>
      obtain rfl : i = cnt := by omega
      have hstep : [Masked.Event.serve (samples m.served.length)].foldl
          (Masked.step (cached i) (pinWords pins)) m =
            { m with
              shared := cached i m.shared (samples m.served.length)
              served := m.served ++ [samples m.served.length] } := by
        rw [List.foldl_cons, Masked.step, hreading.2]
        rfl
      refine ⟨_, [.serve (samples m.served.length)], rfl, ?_⟩
      rw [hstep]
      refine ⟨?_, h.count, ?_, ?_, .outside hmain hreading.1 hreading.2, h.returned⟩
      · exact configured_withBlock h.configured _ _ _
      · simp only [List.length_append, List.length_singleton, List.range_succ, List.map_append,
          List.map_singleton]
        rw [← h.served]
      · refine .converting rfl hf rfl ?_ ?_ (filled_zero _ _).symm hs
        · have hinch := h.configured.inch
          rw [h.count] at hinch
          omega
        · rw [List.length_append]
          exact hc

theorem pinWords_next {done rest : List Io} {io : Io} :
    (pinWords (done ++ io :: rest))[done.length]? = some fun cache => cache (channel io) := by
  rw [pinWords, List.getElem?_map, List.getElem?_append_right (Nat.le_refl _), Nat.sub_self]
  rfl

theorem Copies.main (h : Copies samples pins cnt m s) (hisr : s.isr = none) :
    ∃ s', s.stepMain = .ok s' ∧
      Copies samples pins cnt (m.step (cached cnt) (pinWords pins) .read) s' := by
  have hreading := h.reading
  rw [stepMain, Masked.step, Masked.stepRead]
  cases hreading with
  | outside hm hg hr =>
    rw [hm, hr, h.configured.listed]
    dsimp only
    refine ⟨_, rfl, h.configured, h.count, h.served,
      h.sequence.main hisr rfl rfl rfl rfl rfl hisr rfl,
      ?_, h.returned⟩
    exact .copying rfl rfl hisr (List.nil_append pins).symm rfl
      ⟨fun _ h => absurd h List.not_mem_nil, fun _ _ => rfl⟩
  | @copying done rest old hm hg _ hp hr hv =>
    rw [hm, hr]
    dsimp only
    rw [List.length_map]
    cases rest with
    | nil =>
      rw [List.append_nil] at hp
      subst hp
      rw [pinWords, List.getElem?_map, List.getElem?_eq_none (Nat.le_refl _)]
      refine ⟨_, rfl, h.configured, h.count, h.served,
        h.sequence.main hisr rfl rfl rfl rfl rfl hisr rfl, .outside rfl rfl rfl, ?_⟩
      refine List.rel_append h.returned (.cons ⟨?_, h.sequence.converted_le⟩ .nil)
      exact List.map_congr_left fun io hio => (hv.listed io hio (ioPinIdx_lt io)).symm
    | cons io rest =>
      have hio : io ∈ pins := by rw [hp]; exact List.mem_append_right _ List.mem_cons_self
      have hin : ioPinIdx io < adcChannelCount := ioPinIdx_lt io
      rw [hp, pinWords_next]
      dsimp only
      rw [ioToAdcIdx_ok (h.configured.port1 io hio), Run.ok_bind, toNat_ofNat_ioPinIdx,
        h.sequence.cache hisr, Cells.read_ok hin, Run.ok_bind, Cells.write_ok hin, Run.ok_bind]
      rw [hp] at h
      refine ⟨_, rfl, h.configured, h.count, h.served,
        h.sequence.main hisr rfl rfl rfl rfl rfl hisr rfl, ?_, h.returned⟩
      refine .copying rfl hg hisr (List.append_cons done io rest) ?_ (hv.store hin)
      rw [List.map_append]
      rfl

theorem Copies.step (h : Copies samples pins cnt m s) (event : Event) :
    ∃ s', step samples event s = .ok s' ∧ ∃ events : List (Masked.Event (Nat → BitVec 16)),
      Copies samples pins cnt (events.foldl (Masked.step (cached cnt) (pinWords pins)) m) s' := by
  cases event with
  | conversion =>
    obtain ⟨s', hstep, hcopies⟩ := h.conversion
    exact ⟨s', hstep, [], hcopies⟩
  | interrupt => exact ⟨_, rfl, [], h.interrupt⟩
  | isr =>
    rw [AdcSystem.step]
    cases hisr : s.isr with
    | none => exact ⟨s, rfl, [], h⟩
    | some i =>
      obtain ⟨s', events, hstep, hcopies⟩ := h.isr hisr
      exact ⟨s', hstep, events, hcopies⟩
  | main =>
    rw [AdcSystem.step]
    split
    case isTrue hisr =>
      obtain ⟨s', hstep, hcopies⟩ := h.main hisr
      exact ⟨s', hstep, [.read], hcopies⟩
    case isFalse => exact ⟨s, rfl, [], h⟩

theorem start_copies (samples : Nat → Nat → BitVec 16) (h : Port1Pins pins) :
    ∃ s, start pins = .ok s ∧
      Copies samples pins s.adc.dtcChannelCnt.toNat (Masked.start fun _ => 0) s := by
  obtain ⟨adc, hinit, hconfigured⟩ := adcInit_ok h (rfl : reset.initialized = false)
  have hcache : adc.adcDtcBlockCache = fun _ => 0 := by
    obtain ⟨_, -, hinit⟩ := Run.bind_ok.mp hinit
    obtain ⟨_, -, hinit⟩ := Run.bind_ok.mp hinit
    cases hinit
    rfl
  refine ⟨_, by rw [start, hinit]; rfl, hconfigured, rfl, rfl, ?_, .outside rfl rfl rfl, .nil⟩
  refine .converting rfl rfl rfl ?_ rfl (filled_zero _ _).symm hcache
  exact Nat.lt_of_lt_of_eq (Nat.succ_pos _) hconfigured.inch

theorem isr_steps {n i : Nat} (hend : i + n = s.adc.dtcChannelCnt.toNat) :
    Run.run (step samples) (List.replicate n .isr) { s with isr := some i } =
      ((List.range' i n).foldlM (fun cache i => do
        let sample ← Cells.read AdcStop.outside (s.adc.dtcChannelCnt.toNat - 1 - i) s.adc.adcDtcBlock
        Cells.write AdcStop.outside i sample cache) s.adc.adcDtcBlockCache).map fun cache =>
          { s with adc.adcDtcBlockCache := cache, isr := some (i + n) } := by
  induction n generalizing i s with
  | zero => rfl
  | succ n ih =>
    have hlt : i < s.adc.dtcChannelCnt.toNat := by omega
    rw [List.replicate_succ, Run.run_cons, List.range'_succ, List.foldlM_cons]
    simp only [AdcSystem.step, stepIsr, if_pos hlt]
    cases Cells.read AdcStop.outside (s.adc.dtcChannelCnt.toNat - 1 - i) s.adc.adcDtcBlock with
    | error e => rfl
    | ok sample =>
      simp only [Run.ok_bind]
      cases Cells.write AdcStop.outside i sample s.adc.adcDtcBlockCache with
      | error e => rfl
      | ok cache =>
        have hrest := @ih { s with adc.adcDtcBlockCache := cache } (i + 1) (by rw [← hend]; omega)
        rw [Nat.add_right_comm, Nat.add_assoc] at hrest
        exact hrest

theorem isr_run : Run.run (step samples)
    (List.replicate (s.adc.dtcChannelCnt.toNat + 1) .isr) { s with isr := some 0 } =
      (isrAdc10 s.adc).map fun adc => { s with adc, transfers := some 0, isr := none } := by
  rw [List.replicate_succ', Run.run_append, isr_steps (Nat.zero_add _), isrAdc10,
    List.range_eq_range']
  cases (List.range' 0 s.adc.dtcChannelCnt.toNat).foldlM (fun cache i => do
      let sample ← Cells.read AdcStop.outside (s.adc.dtcChannelCnt.toNat - 1 - i) s.adc.adcDtcBlock
      Cells.write AdcStop.outside i sample cache) s.adc.adcDtcBlockCache with
  | error e => rfl
  | ok cache =>
    simp [Run.run, AdcSystem.step, stepIsr, Except.map, Except.bind]

theorem main_steps {rest : List Io} (hisr : s.isr = none) :
    Run.run (step samples) (List.replicate (rest.length + 1) .main) { s with main := some rest } =
      (rest.foldlM (fun values io => do
        let channelIdx ← ioToAdcIdx io
        let value ← Cells.read AdcStop.outside channelIdx.toNat s.adc.adcDtcBlockCache
        Cells.write AdcStop.outside channelIdx.toNat value values) s.values).map fun values =>
          { s with
            values
            gie := true
            main := none
            returned := s.returned ++ [(values, s.converted)] } := by
  induction rest generalizing s with
  | nil => simp [Run.run, AdcSystem.step, hisr, stepMain, Except.map, Except.bind]
  | cons io rest ih =>
    rw [List.length_cons, List.replicate_succ, Run.run_cons, List.foldlM_cons]
    simp only [AdcSystem.step, if_pos hisr, stepMain]
    cases ioToAdcIdx io with
    | error e => rfl
    | ok channelIdx =>
      simp only [Run.ok_bind]
      cases Cells.read AdcStop.outside channelIdx.toNat s.adc.adcDtcBlockCache with
      | error e => rfl
      | ok value =>
        simp only [Run.ok_bind]
        cases Cells.write AdcStop.outside channelIdx.toNat value s.values with
        | error e => rfl
        | ok values => exact @ih { s with values } hisr

theorem main_run (hisr : s.isr = none) (hmain : s.main = none) :
    Run.run (step samples)
        (List.replicate ((s.adc.adcPins.take s.adc.adcPinCnt.toNat).length + 2) .main) s =
      (adcGetChannelValues s.values s.adc).map fun values =>
        { s with
          values
          gie := true
          main := none
          returned := s.returned ++ [(values, s.converted)] } := by
  rw [List.replicate_succ, Run.run_cons]
  simp only [AdcSystem.step, if_pos hisr, stepMain, hmain]
  exact @main_steps samples { s with gie := false } _ hisr

theorem foldl_cached {io : Io} (hlt : ioPinIdx io < cnt) (round : Nat) :
    (((List.range round).map samples).foldl (cached cnt) fun _ => 0) (channel io) =
      if round = 0 then 0 else samples (round - 1) (ioPinIdx io) := by
  cases round with
  | zero => rfl
  | succ round =>
    rw [List.range_succ, List.map_append, List.foldl_append]
    exact if_pos hlt

end

/-- The values of one sequence of conversions, the last or the last but one that had ended; all zero
before the first. -/
structure OfRound (samples : Nat → Nat → BitVec 16) (pins : List Io) (round : Nat)
    (returned : AdcChannelValues × Nat) : Prop where
  values : ∀ io ∈ pins, returned.1 (channel io) =
    if round = 0 then 0 else samples (round - 1) (ioPinIdx io)
  le : round ≤ returned.2
  near : returned.2 ≤ round + 1

def Consistent (samples : Nat → Nat → BitVec 16) (pins : List Io) (s : AdcSystem) : Prop :=
  ∃ cnt m, Masked.Inv (cached cnt) (pinWords pins) (fun _ => 0) m ∧ Copies samples pins cnt m s

section

variable {samples : Nat → Nat → BitVec 16} {pins : List Io} {s s' : AdcSystem}

theorem start_consistent (samples : Nat → Nat → BitVec 16) (h : Port1Pins pins) :
    ∃ s, start pins = .ok s ∧ Consistent samples pins s := by
  obtain ⟨s, hstart, hcopies⟩ := start_copies samples h
  exact ⟨s, hstart, _, _, Masked.start_inv _, hcopies⟩

theorem Consistent.step (h : Consistent samples pins s) (event : Event) :
    ∃ s', AdcSystem.step samples event s = .ok s' ∧ Consistent samples pins s' := by
  obtain ⟨cnt, m, hm, hcopies⟩ := h
  obtain ⟨s', hstep, events, hcopies'⟩ := hcopies.step event
  exact ⟨s', hstep, cnt, _, Total.foldl_invariant (fun _ event h => h.step event) hm events,
    hcopies'⟩

theorem Consistent.rounds (h : Consistent samples pins s) :
    ∃ rounds : List Nat, rounds.Pairwise (· ≤ ·) ∧
      List.Forall₂ (OfRound samples pins) rounds s.returned := by
  obtain ⟨cnt, m, hm, hcopies⟩ := h
  refine ⟨m.results.map Prod.snd, hm.sorted, ?_⟩
  rw [List.forall₂_map_left_iff]
  refine ((List.forall₂_and_left _ _).mpr ⟨hm.results, hcopies.returned⟩).imp ?_
  rintro result returned ⟨⟨hle, hsnapshot⟩, hvalues, hbefore, hnear⟩
  refine ⟨fun io hio => ?_, hbefore, hnear⟩
  rw [Masked.snapshot, pinWords, List.map_map, hvalues, hcopies.served, ← List.map_take,
    List.take_range, Nat.min_eq_left hle, List.map_inj_left] at hsnapshot
  have hlt : ioPinIdx io < cnt :=
    Nat.lt_of_lt_of_eq (hcopies.configured.lt io hio) hcopies.count
  exact (hsnapshot io hio).trans (foldl_cached hlt result.2)

theorem stepMain_returned (hcalled : s.main ≠ some []) (h : s.stepMain = .ok s') :
    s'.returned = s.returned := by
  unfold stepMain at h
  split at h
  case h_1 =>
    cases h
    rfl
  case h_2 =>
    obtain ⟨_, -, h⟩ := Run.bind_ok.mp h
    obtain ⟨_, -, h⟩ := Run.bind_ok.mp h
    obtain ⟨_, -, h⟩ := Run.bind_ok.mp h
    cases h
    rfl
  case h_3 hmain => exact absurd hmain hcalled

theorem step_returned {event : Event} (hevent : event ≠ .main)
    (h : AdcSystem.step samples event s = .ok s') : s'.returned = s.returned := by
  cases event with
  | main => exact absurd rfl hevent
  | conversion =>
    rw [AdcSystem.step, stepConversion] at h
    split at h
    · cases h
      rfl
    · obtain ⟨_, -, h⟩ := Run.bind_ok.mp h
      split at h <;> (cases h; rfl)
  | interrupt =>
    cases h
    rw [acceptInterrupt]
    split <;> rfl
  | isr =>
    rw [AdcSystem.step] at h
    split at h
    · rw [stepIsr] at h
      split at h
      · obtain ⟨_, -, h⟩ := Run.bind_ok.mp h
        obtain ⟨_, -, h⟩ := Run.bind_ok.mp h
        cases h
        rfl
      · cases h
        rfl
    · cases h
      rfl

end

/-- However the conversions, their interrupt and the main program interleave, no call mixes two
sequences of conversions, and a later call does not go back to an earlier one. -/
theorem values_of_rounds {pins : List Io} (h : Port1Pins pins) (samples : Nat → Nat → BitVec 16)
    (events : List Event) :
    ∃ s s', start pins = .ok s ∧ Run.run (step samples) events s = .ok s' ∧
      ∃ rounds : List Nat, rounds.Pairwise (· ≤ ·) ∧
        List.Forall₂ (OfRound samples pins) rounds s'.returned := by
  obtain ⟨s, hstart, hs⟩ := start_consistent samples h
  obtain ⟨s', hrun, hs'⟩ := Run.run_total (fun event _ ht => ht.step event) hs events
  exact ⟨s, s', hstart, hrun, hs'.rounds⟩

def duringCall : List Event :=
  [.conversion, .main, .main, .main] ++ List.replicate 5 .conversion ++ [.interrupt, .isr] ++
    List.replicate 3 .main ++ .interrupt :: List.replicate 7 .isr ++ List.replicate 6 .main

theorem values_of_rounds_nsumo :
    ∃ s s', start (ioAdcPins .nsumo) = .ok s ∧
      Run.run (step fun round channel => BitVec.ofNat 16 (8 * round + channel)) duringCall s =
        .ok s' ∧
      ∃ rounds : List Nat, rounds.Pairwise (· ≤ ·) ∧
        List.Forall₂ (OfRound (fun round channel => BitVec.ofNat 16 (8 * round + channel))
          (ioAdcPins .nsumo)) rounds s'.returned :=
  values_of_rounds ⟨by decide, by decide⟩ _ duringCall

end Nsumo.Drivers.AdcSystem
