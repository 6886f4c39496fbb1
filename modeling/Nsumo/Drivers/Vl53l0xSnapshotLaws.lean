import Nsumo.Drivers.Vl53l0xCallLaws

namespace Nsumo.Drivers

open Common Lib

namespace Vl53l0x

def lastFresh (answers : List Answer) : Vl53l0xIdx → Nat :=
  (freshRanges answers).getLast?.getD fun _ => vl53l0xOutOfRange

def KeepsFresh (answers : List Answer) : Prop :=
  ∀ pre ranges post, answers = pre ++ .ok ⟨ranges, false⟩ :: post → ranges = lastFresh pre

def FromRound (t : Vl53l0x Observed) (k : Nat) (ranges : Vl53l0xIdx → Nat) : Prop :=
  ∀ idx ∈ fronts, ∃ range, (completions (t.dev.log idx))[k]? = some range ∧
    ranges idx = toRange range

structure RoundsReturned (t : Vl53l0x Observed) (answers : List Answer) : Prop where
  ok : ∀ answer ∈ answers, ∃ ranges, answer = .ok ranges
  fresh (k : Nat) (ranges : Vl53l0xIdx → Nat) :
    (freshRanges answers)[k]? = some ranges → FromRound t k ranges
  kept : KeepsFresh answers
  once (idx : Vl53l0xIdx) : ReadOnce (t.dev.log idx)

def Consistent (s t : Vl53l0x Observed) : Answer → Prop
  | .ok ranges => (∀ idx ∈ fronts, ranges.ranges idx = vl53l0xOutOfRange) ∨
    ∃ k, FromRound t k ranges.ranges
  | .error _ => t.latestRanges = s.latestRanges

def Consistently (fuels : List Nat) (s : Vl53l0x Sensors) : Prop :=
  ∀ pre fuel post m answers t answer, fuels = pre ++ fuel :: post →
    Run.run answeredCall pre (observe s, []) = .ok (m, answers) →
      answeredCall fuel (m, answers) = .ok (t, answers ++ [answer]) → Consistent m t answer

def seen (rs : List (Vl53l0xIdx → BitVec 16)) (idx : Vl53l0xIdx) : List (BitVec 16) :=
  if idx ∈ fronts then rs.map (· idx) else []

def snapshot (ms : Vl53l0xIdx → BitVec 16) (idx : Vl53l0xIdx) : Nat :=
  if idx ∈ fronts then toRange (ms idx) else vl53l0xOutOfRange

theorem extend_seen (rs : List (Vl53l0xIdx → BitVec 16)) (ms : Vl53l0xIdx → BitVec 16) :
    extend (seen rs) ms = seen (rs ++ [ms]) := by
  funext idx
  by_cases hfront : idx ∈ fronts
  · simp [extend, seen, hfront]
  · simp [extend, seen, hfront]

theorem cached_seen (rs : List (Vl53l0xIdx → BitVec 16)) :
    (fun idx => cached (seen rs idx)) =
      (rs.map snapshot).getLast?.getD fun _ => vl53l0xOutOfRange := by
  funext idx
  obtain rfl | ⟨rs, ms, rfl⟩ := List.eq_nil_or_concat rs
  · simp [seen, cached]
  · by_cases hfront : idx ∈ fronts
    · simp [seen, hfront, cached, snapshot]
    · simp [seen, hfront, cached, snapshot]

theorem completions_append (log log' : List Observation) :
    completions (log ++ log') = completions log ++ completions log' := List.filterMap_append

theorem completions_rounds (l : List (BitVec 16)) : completions (rounds l) = l := by
  induction l with
  | nil => rfl
  | cons range l ih => exact congrArg (range :: ·) ih

theorem readOnce_rounds {log : List Observation} (l : List (BitVec 16)) (h : ReadOnce log) :
    ReadOnce (rounds l ++ log) := by
  induction l with
  | nil => exact h
  | cons range l ih => exact ⟨rfl, ih⟩

section

variable {F : Prop} {p : Plan} {q : Vl53l0xIdx → List (BitVec 16)} {s : Vl53l0x Observed}
  {slave : Vl53l0xIdx}

theorem Expect.Holds.log {e : Expect} {sensor : Sensor} {log : List Observation}
    {l : List (BitVec 16)} (h : e.Holds sensor log) (he : e = .waits l ∨ e = .runs l) :
    ReadOnce log ∧ l <+: completions log := by
  have hsplit : ∃ rest, log = rounds l ++ rest ∧ ReadOnce rest := by
    obtain rfl | rfl := he
    · exact ⟨[], h.2.trans (List.append_nil _).symm, trivial⟩
    · obtain ⟨-, -, hlog⟩ | ⟨-, -, hlog⟩ := h
      · exact ⟨_, hlog, trivial⟩
      · exact ⟨_, hlog, trivial⟩
  obtain ⟨rest, rfl, hrest⟩ := hsplit
  refine ⟨readOnce_rounds l hrest, ?_⟩
  rw [completions_append, completions_rounds]
  exact List.prefix_append _ _

theorem resting_log {stored : Bool} {signal : Signal}
    (h : Follows F (resting q stored slave signal) s) (idx : Vl53l0xIdx) :
    ReadOnce (s.dev.log idx) ∧ q idx <+: completions (s.dev.log idx) :=
  (h.expect idx).log (.inl rfl)

theorem ranging_log (h : Follows F (ranging q slave) s) (idx : Vl53l0xIdx) :
    ReadOnce (s.dev.log idx) ∧ q idx <+: completions (s.dev.log idx) := by
  refine (h.expect idx).log ?_
  by_cases hfront : idx ∈ fronts
  · exact .inr (starting_started hfront List.not_mem_nil)
  · exact .inl (if_neg fun hin => hfront hin.1)

theorem Between.readOnce (h : Between F q s) (hF : F) (idx : Vl53l0xIdx) :
    ReadOnce (s.dev.log idx) := by
  cases h with
  | fresh hq h => exact (resting_log (hq ▸ h) idx).1
  | ranging h => exact (ranging_log h idx).1
  | stuck hnot => exact absurd hF hnot

theorem Between.completed (h : Between F q s) (idx : Vl53l0xIdx) :
    q idx <+: completions (s.dev.log idx) := by
  cases h with
  | fresh hq h =>
    rw [hq]
    exact List.nil_prefix
  | ranging h => exact (ranging_log h idx).2
  | stuck hnot hq =>
    rw [hq]
    exact List.nil_prefix

theorem Between.latest (h : Between F q s) : s.latestRanges = fun idx => cached (q idx) := by
  cases h with
  | fresh hq h => exact h.latest
  | ranging h => exact h.latest
  | stuck hnot hq h =>
    rw [hq]
    exact h.latest

theorem Follows.beginCall (h : Follows F p s) (hstored : p.stored = false) :
    Follows F p (beginCall s) :=
  ⟨h.initialized, h.slaveAddress, h.page, h.expect, h.signal, h.latest,
    fun htrue => absurd htrue (ne_true_of_eq_false hstored), h.faultless⟩

theorem Between.beginCall (h : Between F q s) : Between F q (beginCall s) := by
  cases h with
  | fresh hq h => exact .fresh hq (h.beginCall rfl)
  | ranging h => exact .ranging (h.beginCall rfl)
  | stuck hF hq h => exact .stuck hF hq ⟨h.initialized, h.started, h.latest, h.rest⟩

theorem Between.fromRound {rs : List (Vl53l0xIdx → BitVec 16)} {ms : Vl53l0xIdx → BitVec 16}
    {k : Nat} (h : Between F (seen rs) s) (hk : rs[k]? = some ms) :
    FromRound s k (snapshot ms) := by
  intro idx hfront
  obtain ⟨rest, hrest⟩ := h.completed idx
  refine ⟨ms idx, ?_, if_pos hfront⟩
  have hseen : (seen rs idx)[k]? = some (ms idx) := by
    rw [seen, if_pos hfront, List.getElem?_map, hk, Option.map_some]
  obtain ⟨hlt, -⟩ := List.getElem?_eq_some_iff.mp hseen
  rw [← hrest, List.getElem?_append_left hlt, hseen]

end

theorem freshRanges_append (answers answers' : List Answer) :
    freshRanges (answers ++ answers') = freshRanges answers ++ freshRanges answers' :=
  List.filterMap_append

theorem keepsFresh_nil : KeepsFresh [] := by
  intro pre ranges post hsplit
  simp at hsplit

theorem KeepsFresh.concat {answers : List Answer} {answer : Answer} (h : KeepsFresh answers)
    (hanswer : ∀ ranges, answer = .ok ⟨ranges, false⟩ → ranges = lastFresh answers) :
    KeepsFresh (answers ++ [answer]) := by
  intro pre ranges post hsplit
  obtain rfl | ⟨post, last, rfl⟩ := List.eq_nil_or_concat post
  · obtain ⟨rfl, hlast⟩ := List.append_inj' hsplit rfl
    exact hanswer ranges (List.singleton_inj.mp hlast)
  · have hsplit' : answers ++ [answer] = (pre ++ .ok ⟨ranges, false⟩ :: post) ++ [last] := by
      simpa using hsplit
    exact h pre ranges post (List.append_inj' hsplit' rfl).1

structure Known (F : Prop) (rs : List (Vl53l0xIdx → BitVec 16))
    (c : Vl53l0x Observed × List Answer) : Prop where
  between : Between F (seen rs) c.1
  fresh : freshRanges c.2 = rs.map snapshot
  kept : KeepsFresh c.2
  ok : F → ∀ answer ∈ c.2, ∃ ranges, answer = .ok ranges

section

variable {F : Prop} {rs : List (Vl53l0xIdx → BitVec 16)} {fuel : Nat}
  {c c' : Vl53l0x Observed × List Answer}

theorem answeredCall_ok (h : answeredCall fuel c = .ok c') :
    (∃ ranges, vl53l0xReadRangeMultiple Observed.bus fuel (beginCall c.1) = .ok ranges c'.1 ∧
      c'.2 = c.2 ++ [.ok ranges]) ∨
    ∃ r, vl53l0xReadRangeMultiple Observed.bus fuel (beginCall c.1) = .error (.result r) c'.1 ∧
      c'.2 = c.2 ++ [.error r] := by
  obtain ⟨s, answers⟩ := c
  rw [answeredCall] at h
  split at h
  · rename_i hcall
    cases h
    exact .inl ⟨_, hcall, rfl⟩
  · rename_i hcall
    cases h
    exact .inr ⟨_, hcall, rfl⟩
  · cases h

theorem Known.latest (h : Known F rs c) : c.1.latestRanges = lastFresh c.2 := by
  rw [lastFresh, h.fresh, ← cached_seen]
  exact h.between.latest

theorem Known.answer {ranges : Vl53l0xRanges} (h : Known F rs c)
    (hcall : vl53l0xReadRangeMultiple Observed.bus fuel (beginCall c.1) = .ok ranges c'.1)
    (hanswers : c'.2 = c.2 ++ [.ok ranges]) :
    ranges.ranges = c'.1.latestRanges ∧ ∃ rs', Known F rs' c' := by
  obtain ⟨hranges, hrun⟩ := Triple.ok readRangeMultiple_follows h.between.beginCall hcall
  refine ⟨hranges, ?_⟩
  have hok (hF : F) (answer : Answer) (hmem : answer ∈ c'.2) : ∃ ranges, answer = .ok ranges := by
    rw [hanswers] at hmem
    obtain hmem | hmem := List.mem_append.mp hmem
    · exact h.ok hF answer hmem
    · exact ⟨ranges, List.mem_singleton.mp hmem⟩
  obtain ⟨values, fresh⟩ := ranges
  cases fresh with
  | true =>
    obtain ⟨ms, hms⟩ := hrun
    rw [extend_seen] at hms
    have hvalues : values = snapshot ms := by
      have hlatest := hranges.trans (hms.latest.trans (cached_seen _))
      simpa using hlatest
    refine ⟨rs ++ [ms], hms, ?_, ?_, hok⟩
    · rw [hanswers, freshRanges_append, h.fresh, List.map_append, hvalues]
      rfl
    · rw [hanswers]
      exact h.kept.concat fun ranges hranges => by simp at hranges
  | false =>
    have hrun : Between F (seen rs) c'.1 := hrun
    refine ⟨rs, hrun, ?_, ?_, hok⟩
    · rw [hanswers, freshRanges_append, h.fresh]
      exact List.append_nil _
    · rw [hanswers]
      refine h.kept.concat fun ranges heq => ?_
      cases heq
      exact hranges.trans (hrun.latest.trans (h.between.latest.symm.trans h.latest))

theorem Known.error {r : Vl53l0xResult} (h : Known F rs c)
    (hcall : vl53l0xReadRangeMultiple Observed.bus fuel (beginCall c.1) = .error (.result r) c'.1)
    (hanswers : c'.2 = c.2 ++ [.error r]) : ¬F ∧ (Clean c'.1.dev → Known F rs c') := by
  have hrun := Triple.error readRangeMultiple_follows h.between.beginCall hcall
  obtain ⟨hF, hends⟩ := hrun fun hfuel => Vl53l0xStop.noConfusion hfuel
  refine ⟨hF, fun hclean => ⟨(hends r rfl).2 hclean, ?_, ?_, fun htrue => absurd htrue hF⟩⟩
  · rw [hanswers, freshRanges_append, h.fresh]
    exact List.append_nil _
  · rw [hanswers]
    exact h.kept.concat fun ranges hranges => by simp at hranges

theorem Known.stop_fuel {stop : Vl53l0xStop} (h : Known F rs c) (hF : F)
    (hcall : answeredCall fuel c = .error stop) : stop = .fuel := by
  have hrun := @readRangeMultiple_follows F _ fuel _ h.between.beginCall
  obtain ⟨s, answers⟩ := c
  rw [answeredCall] at hcall
  cases hresult : vl53l0xReadRangeMultiple Observed.bus fuel (beginCall s) with
  | ok ranges t => simp [hresult] at hcall
  | error stop' t =>
    rw [hresult] at hcall hrun
    by_contra hne
    cases stop' with
    | result r => cases hcall
    | assert => exact (hrun (by decide)).1 hF
    | fuel => exact hne (Except.error.inj hcall).symm

theorem Known.step (h : Known F rs c) (hcall : answeredCall fuel c = .ok c')
    (hclean : F ∨ Clean c'.1.dev) : ∃ rs', Known F rs' c' := by
  obtain ⟨ranges, hok, hanswers⟩ | ⟨r, herror, hanswers⟩ := answeredCall_ok hcall
  · exact (h.answer hok hanswers).2
  · obtain ⟨hF, hknown⟩ := h.error herror hanswers
    exact ⟨rs, hknown (hclean.resolve_left hF)⟩

theorem Known.consistent {answer : Answer} (h : Known F rs c)
    (hcall : answeredCall fuel c = .ok c') (hanswer : c'.2 = c.2 ++ [answer])
    (hclean : Clean c'.1.dev) : Consistent c.1 c'.1 answer := by
  obtain ⟨ranges, hok, hanswers⟩ | ⟨r, herror, hanswers⟩ := answeredCall_ok hcall
  · obtain ⟨-, hlast⟩ := List.append_inj' (hanswer.symm.trans hanswers) rfl
    obtain rfl := List.singleton_inj.mp hlast
    obtain ⟨hranges, rs', hknown⟩ := h.answer hok hanswers
    have hlatest := hranges.trans (hknown.between.latest.trans (cached_seen rs'))
    obtain rfl | ⟨rs', ms, rfl⟩ := List.eq_nil_or_concat rs'
    · exact .inl fun idx _ => congrFun hlatest idx
    · refine .inr ⟨rs'.length, ?_⟩
      have hms : ranges.ranges = snapshot ms := by simpa using hlatest
      rw [hms]
      exact hknown.between.fromRound (by simp)
  · obtain ⟨-, hlast⟩ := List.append_inj' (hanswer.symm.trans hanswers) rfl
    obtain rfl := List.singleton_inj.mp hlast
    obtain ⟨-, hknown⟩ := h.error herror hanswers
    exact (hknown hclean).between.latest.trans h.between.latest.symm

end

section

variable {F : Prop} {fuels : List Nat} {s : Vl53l0x Sensors}

theorem Initial.between (h : Initial s) (hF : F → ∀ k, (s.dev.outcomes k).error = none) :
    Between F (fun _ => []) (observe s) := by
  refine @Between.fresh F _ _ .frontRight rfl ⟨h.initialized, h.slaveAddress, fun idx => ?_,
    fun idx => ⟨h.idle idx, rfl⟩, ?_, ?_, fun hstored => Bool.noConfusion hstored, hF⟩
  · exact (h.page idx).trans (ite_self _).symm
  · exact ⟨h.statusMultiple, h.edge, (h.idle .front).1⟩
  · exact funext h.latestRanges

theorem Initial.known (h : Initial s) (hF : F → ∀ k, (s.dev.outcomes k).error = none) :
    Known F [] (observe s, []) := by
  have hseen : seen [] = fun _ => [] := funext fun idx => ite_self _
  refine ⟨?_, rfl, keepsFresh_nil, fun _ answer hmem => absurd hmem List.not_mem_nil⟩
  rw [hseen]
  exact h.between hF

theorem known_run (hinit : Known F [] (observe s, []))
    (hclean : Run.AfterEach answeredCall (fun c => F ∨ Clean c.1.dev) fuels (observe s, [])) :
    Run.AfterEach answeredCall (fun c => ∃ rs, Known F rs c) fuels (observe s, []) := by
  refine Run.afterEach_invariant (C := fun _ _ => True) ?_ (fun _ _ _ _ _ _ => trivial) hclean
    ⟨[], hinit⟩
  rintro fuel c c' - ⟨rs, h⟩ hcall hc
  exact h.step hcall hc

theorem returns_rounds (hinit : Initial s) (hok : ∀ k, (s.dev.outcomes k).error = none) :
    (∀ stop, Run.run answeredCall fuels (observe s, []) = .error stop → stop = .fuel) ∧
      ∀ t answers, Run.run answeredCall fuels (observe s, []) = .ok (t, answers) →
        RoundsReturned t answers := by
  have hknown := @known_run True fuels s (hinit.known fun _ => hok) fun _ _ _ _ _ => .inl trivial
  constructor
  · intro stop hrun
    obtain ⟨pre, fuel, post, c, hsplit, hpre, hcall⟩ := Run.run_error hrun
    obtain ⟨rs, h⟩ := hknown pre _ c hsplit hpre
    exact h.stop_fuel trivial hcall
  · intro t answers hrun
    obtain ⟨rs, h⟩ := hknown fuels [] _ (List.append_nil _).symm hrun
    refine ⟨h.ok trivial, fun k ranges hk => ?_, h.kept, h.between.readOnce trivial⟩
    rw [h.fresh, List.getElem?_map] at hk
    obtain ⟨ms, hms, rfl⟩ := Option.map_eq_some_iff.mp hk
    exact h.between.fromRound hms

theorem consistently_of_clean (hinit : Initial s)
    (hclean : Run.AfterEach answeredCall (fun c => Clean c.1.dev) fuels (observe s, [])) :
    Consistently fuels s := by
  have hknown := @known_run False fuels s (hinit.known False.elim)
    fun pre post c hsplit hrun => .inr (hclean pre post c hsplit hrun)
  intro pre fuel post m answers t answer hsplit hpre hcall
  obtain ⟨rs, h⟩ := hknown pre _ _ hsplit hpre
  refine h.consistent hcall rfl ?_
  refine hclean (pre ++ [fuel]) post _ ?_ (Run.run_concat_ok.mpr ⟨_, hpre, hcall⟩)
  rw [hsplit, List.append_assoc, List.singleton_append]

end

def inTime : Vl53l0x Sensors :=
  { failingAt 0 with dev := { (failingAt 0).dev with outcomes := fun _ => ⟨none, 0, fun _ => 0⟩ } }

theorem inTime_initial : Initial inTime :=
  have h := failingAt_initial 0
  ⟨h.initialized, h.statusMultiple, h.latestRanges, h.slaveAddress, h.page, h.idle, h.edge,
    h.failed⟩

theorem returns_rounds_inTime :
    (∀ stop, Run.run answeredCall [1, 1] (observe inTime, []) = .error stop → stop = .fuel) ∧
      ∀ t answers, Run.run answeredCall [1, 1] (observe inTime, []) = .ok (t, answers) →
        RoundsReturned t answers := returns_rounds inTime_initial fun _ => rfl

theorem consistently_inTime : Consistently [1, 1] inTime :=
  consistently_of_clean inTime_initial (by decide +kernel)

def lastRanges (answers : List Answer) : List Nat :=
  match answers.getLast? with
  | some (.ok ranges) => fronts.map ranges.ranges
  | _ => []

def shown (c : Vl53l0x Observed × List Answer) : List (List Nat) :=
  lastRanges c.2 :: fronts.map c.1.latestRanges ::
    fronts.map fun idx => (completions (c.1.dev.log idx)).map BitVec.toNat

/-- The first call fails once it has read two of the three sensors. -/
theorem shown_failingAt :
    (Run.run answeredCall [1] (observe (failingAt 38), [])).toOption.map shown =
        some [[], [100, 200, 8190], [100], [200], [300]] ∧
      (Run.run answeredCall [1, 1] (observe (failingAt 38), [])).toOption.map shown =
        some [[100, 200, 8190], [100, 200, 8190], [100], [200], [300]] := by
  decide +kernel

theorem ok_of_shown {r : Except Vl53l0xStop (Vl53l0x Observed × List Answer)}
    {lists : List (List Nat)} (h : r.toOption.map shown = some lists) :
    ∃ c, r = .ok c ∧ shown c = lists := by
  cases r with
  | error stop => cases h
  | ok c => exact ⟨c, rfl, Option.some.inj h⟩

theorem not_consistent_of_shown {s t : Vl53l0x Observed} {answers : List Answer}
    {ranges : Vl53l0xRanges} (h : shown (t, answers ++ [.ok ranges]) =
      [[100, 200, 8190], [100, 200, 8190], [100], [200], [300]]) :
    ¬Consistent s t (.ok ranges) := by
  simp only [shown, lastRanges, List.getLast?_concat, fronts, List.map_cons, List.map_nil,
    List.cons.injEq, and_true] at h
  obtain ⟨⟨hfront, -, hright⟩, -, hfronts, -, hrights⟩ := h
  rintro (hinitial | ⟨k, hround⟩)
  · have hrange := hinitial .front (by decide)
    rw [hfront] at hrange
    cases hrange
  · obtain ⟨front, hcompleted, -⟩ := hround .front (by decide)
    have hlt := (List.getElem?_eq_some_iff.mp hcompleted).1
    have hlength := congrArg List.length hfronts
    rw [List.length_map, List.length_singleton] at hlength
    have hk : k = 0 := by omega
    subst hk
    obtain ⟨right, hcompleted, hrange⟩ := hround .frontRight (by decide)
    have hmapped := congrArg (·[0]?) hrights
    simp only [List.getElem?_map, hcompleted, Option.map_some, List.getElem?_cons_zero,
      Option.some.injEq] at hmapped
    rw [hright, toRange, hmapped] at hrange
    cases hrange

theorem not_consistently_failingAt :
    Initial (failingAt 38) ∧ ¬Consistently [1] (failingAt 38) ∧
      ∃ m t answers ranges,
        Run.run answeredCall [1] (observe (failingAt 38), []) = .ok (m, answers) ∧
          answeredCall 1 (m, answers) = .ok (t, answers ++ [.ok ranges]) ∧
            ¬Consistent m t (.ok ranges) := by
  obtain ⟨⟨m, answers⟩, hone, hshown⟩ := ok_of_shown shown_failingAt.1
  obtain ⟨⟨t, answers'⟩, htwo, hshown'⟩ := ok_of_shown shown_failingAt.2
  refine ⟨failingAt_initial 38, fun h => ?_, m, t, answers, ?_⟩
  · obtain ⟨c, hcall, hnil⟩ := Run.run_cons_ok.mp hone
    cases hnil
    obtain ⟨ranges, -, hanswers⟩ | ⟨r, -, hanswers⟩ := answeredCall_ok hcall
    · obtain rfl := hanswers
      cases congrArg List.head? hshown
    · obtain rfl := hanswers
      have hsame : m.latestRanges = (observe (failingAt 38)).latestRanges :=
        h [] 1 [] (observe (failingAt 38)) [] m (.error r) rfl rfl hcall
      have hcached := congrArg (·[1]?) hshown
      simp only [shown, hsame] at hcached
      cases hcached
  · obtain ⟨c, hpre, hcall⟩ := (@Run.run_concat_ok _ _ _ answeredCall [1] 1 _ _).mp htwo
    cases hone.symm.trans hpre
    obtain ⟨ranges, -, hanswers⟩ | ⟨r, -, hanswers⟩ := answeredCall_ok hcall
    · obtain rfl := hanswers
      exact ⟨ranges, hone, hcall, not_consistent_of_shown hshown'⟩
    · obtain rfl := hanswers
      have hlast := congrArg List.head? hshown'
      simp only [shown, lastRanges, List.getLast?_concat] at hlast
      cases hlast

end Vl53l0x

end Nsumo.Drivers
