import Llamesh.Wedge.Model
import Mathlib.Data.Rat.Cast.Order

/-!
# Streaks of wedged ticks

What the bookkeeping of the watchdog means in terms of the ticks it has made: `wedged_since` is the
instant of the oldest tick of the current streak, the latest consecutive ticks that all judged the
instance wedged with one pid. An order to stop is made at the newest tick of a streak that spans the
window, and is carried out after the verification under the lock.
-/

namespace Llamesh.Wedge

open Transition

variable {F : Type} [LT F] [DecidableLT F] [LE F] [DecidableLE F] [NatCast F] [Add F] [Mul F]
  [Div F] [OfScientific F]

variable {ι : Type} [DecidableEq ι]

/-! ### The streak -/

/-- The tick judged the instance wedged, with this pid. -/
def Tick.wedged (id : ι) (pid : Nat) (t : Tick ι) : Bool :=
  t.judged.any fun j =>
    decide (j.candidate.id = id ∧ j.candidate.pid = pid ∧ j.verdict = .wedgedThisTick)

/-- The latest consecutive ticks that all judged the instance wedged, with this pid. -/
def streak (id : ι) (pid : Nat) (ticks : List (Tick ι)) : List (Tick ι) :=
  ticks.takeWhile (Tick.wedged id pid)

/-- The instant of the oldest tick of the streak. -/
def streakStart (id : ι) (pid : Nat) (ticks : List (Tick ι)) : Option Nat :=
  (streak id pid ticks).getLast?.map (·.now)

/-- The `wedged_since` of an instance under a pid. -/
def WedgeDetectorState.sinceOf (d : WedgeDetectorState ι) (id : ι) (pid : Nat) : Option Nat :=
  (d.perInstance.lookup id).bind fun st => if st.pid = pid then st.wedgedSince else none

/-- What restarts a streak: the tick did not judge the instance, which held no slot, or judged it
not wedged, could not read its CPU, or found another pid. -/
def Tick.Restarts (id : ι) (pid : Nat) (t : Tick ι) : Prop :=
  ∀ j ∈ t.judged, j.candidate.id = id →
    j.verdict = .notWedged ∨ j.busyNow = none ∨ j.candidate.pid ≠ pid

private theorem Tick.wedged_iff {id : ι} {pid : Nat} {t : Tick ι} :
    t.wedged id pid = true ↔ ∃ j ∈ t.judged, j.candidate.id = id ∧ j.candidate.pid = pid ∧
      j.verdict = .wedgedThisTick := by
  simp [Tick.wedged]

/-- A wedged tick continues the streak or starts one, any other tick ends it. -/
theorem streakStart_cons (id : ι) (pid : Nat) (t : Tick ι) (ticks : List (Tick ι)) :
    streakStart id pid (t :: ticks) =
      if t.wedged id pid then some ((streakStart id pid ticks).getD t.now) else none := by
  unfold streakStart streak
  rw [List.takeWhile_cons]
  split
  · rw [List.getLast?_cons]
    cases (ticks.takeWhile (Tick.wedged id pid)).getLast? with
    | none => rfl
    | some first => rfl
  · rfl

/-- The judgement is one a tick can make: a wedged instance had a request waiting on it, and its CPU
was readable. -/
def Judgement.Sound (j : Judgement ι) : Prop :=
  j.verdict = .wedgedThisTick →
    j.candidate.awaitingDownstream < j.candidate.inFlight ∧ j.busyNow.isSome = true

/-- A restarting tick is not part of a streak. -/
theorem Tick.Restarts.not_wedged {id : ι} {pid : Nat} {t : Tick ι} (h : t.Restarts id pid)
    (hsound : ∀ j ∈ t.judged, j.Sound) : t.wedged id pid = false := by
  rw [Bool.eq_false_iff]
  intro hw
  obtain ⟨j, hj, hid, hpid, hverdict⟩ := Tick.wedged_iff.mp hw
  obtain hnot | hunread | hother := h j hj hid
  · rw [hverdict] at hnot
    cases hnot
  · have hread := (hsound j hj hverdict).2
    rw [hunread] at hread
    cases hread
  · exact hother hpid

/-! ### The loop over the candidates -/

section Loop

variable (cfg : Config) (samples : Samples ι) (trusted : Bool) (now : Nat)

variable (F) in
/-- The judgement of a candidate. -/
def judgementOf (table : Table ι InstanceWedgeState) (c : Candidate ι) : Judgement ι :=
  ⟨c, samples.cpuNow c.id, verdictOf F cfg samples trusted now table c⟩

variable (F) in
/-- The streak a candidate's entry holds after its verdict. -/
def sinceAfter (table : Table ι InstanceWedgeState) (c : Candidate ι) : Option Nat :=
  since now (entryFor now (table.lookup c.id) (samples.cpuNow c.id) c.pid)
    (verdictOf F cfg samples trusted now table c)

variable (F) in
/-- The entry of a candidate after its verdict. -/
def entryAfter (table : Table ι InstanceWedgeState) (c : Candidate ι) : InstanceWedgeState :=
  { entryFor now (table.lookup c.id) (samples.cpuNow c.id) c.pid with
    wedgedSince := sinceAfter F cfg samples trusted now table c }.advance now (samples.cpuNow c.id)

variable (F) in
/-- The order a candidate's verdict gives. -/
def orderOf (table : Table ι InstanceWedgeState) (c : Candidate ι) : Option (Order ι) :=
  let wedgedFor := now - (sinceAfter F cfg samples trusted now table c).getD now
  if verdictOf F cfg samples trusted now table c = .wedgedThisTick ∧ cfg.window ≤ wedgedFor then
    some ⟨c.id, c.pid, wedgedFor, c.lastActivity⟩
  else none

private theorem judge_toKill (loop : Loop ι) (c : Candidate ι) :
    (judge F cfg samples trusted now loop c).toKill =
      loop.toKill ++ (orderOf F cfg samples trusted now loop.perInstance c).toList := by
  by_cases horder : verdictOf F cfg samples trusted now loop.perInstance c = .wedgedThisTick ∧
      cfg.window ≤ now - (sinceAfter F cfg samples trusted now loop.perInstance c).getD now
  · have hsome : orderOf F cfg samples trusted now loop.perInstance c = some _ := if_pos horder
    rw [hsome]
    exact if_pos horder
  · have hnone : orderOf F cfg samples trusted now loop.perInstance c = none := if_neg horder
    rw [hnone, Option.toList_none, List.append_nil]
    exact if_neg horder

/-- The body of the loop, by what it does to each of the three accumulators. -/
theorem judge_eq (loop : Loop ι) (c : Candidate ι) :
    judge F cfg samples trusted now loop c =
      ⟨loop.perInstance.insert c.id (entryAfter F cfg samples trusted now loop.perInstance c),
        judgementOf F cfg samples trusted now loop.perInstance c :: loop.judged,
        loop.toKill ++ (orderOf F cfg samples trusted now loop.perInstance c).toList⟩ := by
  rw [← judge_toKill]
  rfl

/-- A verdict only reads the candidate's own entry. -/
theorem verdictOf_congr {table table' : Table ι InstanceWedgeState} {c : Candidate ι}
    (h : table.lookup c.id = table'.lookup c.id) :
    verdictOf F cfg samples trusted now table c = verdictOf F cfg samples trusted now table' c := by
  simp only [verdictOf, h]

private theorem judgementOf_congr {table table' : Table ι InstanceWedgeState} {c : Candidate ι}
    (h : table.lookup c.id = table'.lookup c.id) :
    judgementOf F cfg samples trusted now table c =
      judgementOf F cfg samples trusted now table' c := by
  simp only [judgementOf, verdictOf_congr (F := F) cfg samples trusted now h]

private theorem sinceAfter_congr {table table' : Table ι InstanceWedgeState} {c : Candidate ι}
    (h : table.lookup c.id = table'.lookup c.id) :
    sinceAfter F cfg samples trusted now table c =
      sinceAfter F cfg samples trusted now table' c := by
  simp only [sinceAfter, h, verdictOf_congr (F := F) cfg samples trusted now h]

private theorem entryAfter_congr {table table' : Table ι InstanceWedgeState} {c : Candidate ι}
    (h : table.lookup c.id = table'.lookup c.id) :
    entryAfter F cfg samples trusted now table c =
      entryAfter F cfg samples trusted now table' c := by
  simp only [entryAfter, h, sinceAfter_congr (F := F) cfg samples trusted now h]

private theorem orderOf_congr {table table' : Table ι InstanceWedgeState} {c : Candidate ι}
    (h : table.lookup c.id = table'.lookup c.id) :
    orderOf F cfg samples trusted now table c = orderOf F cfg samples trusted now table' c := by
  simp only [orderOf, sinceAfter_congr (F := F) cfg samples trusted now h,
    verdictOf_congr (F := F) cfg samples trusted now h]

/-- The whole loop, over candidates with distinct ids: each is judged against the bookkeeping the
loop started from. -/
theorem foldl_judge {candidates : List (Candidate ι)} (hnodup : (candidates.map (·.id)).Nodup)
    (loop : Loop ι) :
    let after := candidates.foldl (judge F cfg samples trusted now) loop
    (∀ id, id ∉ candidates.map (·.id) → after.perInstance.lookup id = loop.perInstance.lookup id) ∧
      (∀ c ∈ candidates, after.perInstance.lookup c.id =
        some (entryAfter F cfg samples trusted now loop.perInstance c)) ∧
      (∀ j, j ∈ after.judged ↔ j ∈ loop.judged ∨
        ∃ c ∈ candidates, j = judgementOf F cfg samples trusted now loop.perInstance c) ∧
      (∀ o, o ∈ after.toKill ↔ o ∈ loop.toKill ∨
        ∃ c ∈ candidates, orderOf F cfg samples trusted now loop.perInstance c = some o) := by
  induction candidates generalizing loop with
  | nil => simp
  | cons c candidates ih =>
    rw [List.map_cons, List.nodup_cons] at hnodup
    obtain ⟨hfresh, hrest⟩ := hnodup
    obtain ⟨hother, hentry, hjudged, horders⟩ := ih hrest (judge F cfg samples trusted now loop c)
    -- the entries of the later candidates are untouched by the first
    have hsame : ∀ d ∈ candidates,
        (judge F cfg samples trusted now loop c).perInstance.lookup d.id =
          loop.perInstance.lookup d.id := by
      intro d hd
      have hne : d.id ≠ c.id := by
        intro he
        exact hfresh (he ▸ List.mem_map.mpr ⟨d, hd, rfl⟩)
      rw [judge_eq, AList.lookup_insert_ne hne]
    simp only [List.foldl_cons]
    refine ⟨?_, ?_, ?_, ?_⟩
    · intro id hid
      rw [List.map_cons, List.mem_cons, not_or] at hid
      rw [hother id hid.2, judge_eq, AList.lookup_insert_ne hid.1]
    · intro d hd
      obtain rfl | hd := List.mem_cons.mp hd
      · rw [hother d.id hfresh, judge_eq, AList.lookup_insert]
      · rw [hentry d hd, entryAfter_congr cfg samples trusted now (hsame d hd)]
    · intro j
      rw [hjudged j]
      have hlater : (∃ d ∈ candidates, j = judgementOf F cfg samples trusted now
            (judge F cfg samples trusted now loop c).perInstance d) ↔
          ∃ d ∈ candidates, j = judgementOf F cfg samples trusted now loop.perInstance d := by
        apply exists_congr
        intro d
        apply and_congr_right
        intro hd
        rw [judgementOf_congr cfg samples trusted now (hsame d hd)]
      rw [hlater, judge_eq]
      simp only [List.mem_cons, exists_eq_or_imp]
      rw [or_assoc, or_left_comm]
    · intro o
      rw [horders o]
      have hlater : (∃ d ∈ candidates, orderOf F cfg samples trusted now
            (judge F cfg samples trusted now loop c).perInstance d = some o) ↔
          ∃ d ∈ candidates, orderOf F cfg samples trusted now loop.perInstance d = some o := by
        apply exists_congr
        intro d
        apply and_congr_right
        intro hd
        rw [orderOf_congr cfg samples trusted now (hsame d hd)]
      rw [hlater, judge_eq]
      simp only [List.mem_append, Option.mem_toList, List.mem_cons,
        exists_eq_or_imp, or_assoc]

/-- The verdict on a wedged candidate rests on a waiting request and a CPU reading. -/
theorem judgementOf_sound (table : Table ι InstanceWedgeState) (c : Candidate ι) :
    (judgementOf F cfg samples trusted now table c).Sound := by
  intro hverdict
  obtain ⟨hheld, cpu, hcpu⟩ := evaluateWedge_eq_wedged hverdict
  refine ⟨hheld, ?_⟩
  change (samples.cpuNow c.id).isSome = true
  cases hbusy : samples.cpuNow c.id with
  | some busy => rfl
  | none =>
    have hnone : cpuBusy F cfg now c.pid (table.lookup c.id) none = none := by
      cases table.lookup c.id <;> rfl
    simp only [wedgeInputs, hbusy, hnone] at hcpu
    cases hcpu

/-- An entry keeps its streak only under its own pid. -/
theorem entryFor_wedgedSince (d : WedgeDetectorState ι) (id : ι) (busyNow : Option Nat)
    (pid : Nat) :
    (entryFor now (d.perInstance.lookup id) busyNow pid).wedgedSince = d.sinceOf id pid := by
  unfold entryFor WedgeDetectorState.sinceOf
  cases d.perInstance.lookup id with
  | none => simp
  | some st =>
    simp only [Option.getD_some, Option.bind_some]
    by_cases hpid : st.pid = pid
    · simp [hpid]
    · simp [hpid]

/-- The entry is the candidate's process's. -/
theorem entryFor_pid (prev : Option InstanceWedgeState) (busyNow : Option Nat) (pid : Nat) :
    (entryFor now prev busyNow pid).pid = pid := by
  unfold entryFor
  dsimp only
  split
  · rfl
  · next hpid => exact not_not.mp hpid

private theorem InstanceWedgeState.advance_pid (st : InstanceWedgeState) (busyNow : Option Nat) :
    (st.advance now busyNow).pid = st.pid := by
  cases busyNow <;> rfl

private theorem InstanceWedgeState.advance_wedgedSince (st : InstanceWedgeState)
    (busyNow : Option Nat) :
    (st.advance now busyNow).wedgedSince = st.wedgedSince := by
  cases busyNow <;> rfl

end Loop

/-! ### The decision of a tick -/

/-- An order that a tick made: at its newest tick, a streak of its instance and pid spans the
window, and that tick read the instance's last activity. -/
def Order.Due (cfg : Config) (ticks : List (Tick ι)) (o : Order ι) : Prop :=
  ∃ last older first, ticks = last :: older ∧ streakStart o.id o.pid ticks = some first ∧
    cfg.window ≤ last.now - first ∧ o.wedgedFor = last.now - first ∧
      ∃ j ∈ last.judged, j.candidate.id = o.id ∧ j.candidate.pid = o.pid ∧
        j.verdict = .wedgedThisTick ∧ j.candidate.lastActivity = o.sampledLastActivity

section Decided

variable {cfg : Config} {samples : Samples ι} {s : State ι} {candidates : List (Candidate ι)}

variable (F) in
/-- The newest tick after a decision. -/
def tickOf (cfg : Config) (samples : Samples ι) (s : State ι) (candidates : List (Candidate ι)) :
    Tick ι :=
  ⟨s.now, (judgeAll F cfg samples s.now s.detector candidates).judged⟩

variable (F) in
/-- The streak of a candidate after the decision, by the bookkeeping the tick started from. -/
theorem sinceAfter_retain {c : Candidate ι} (hc : c ∈ candidates) (trusted : Bool) :
    sinceAfter F cfg samples trusted s.now
        (s.detector.perInstance.retain (candidates.map (·.id))) c =
      if verdictOf F cfg samples trusted s.now
          (s.detector.perInstance.retain (candidates.map (·.id))) c = .wedgedThisTick
      then some ((s.detector.sinceOf c.id c.pid).getD s.now) else none := by
  have hlive : (s.detector.perInstance.retain (candidates.map (·.id))).lookup c.id =
      s.detector.perInstance.lookup c.id := by
    rw [Table.lookup_retain, if_pos (List.mem_map.mpr ⟨c, hc, rfl⟩)]
  unfold sinceAfter
  rw [hlive]
  cases verdictOf F cfg samples trusted s.now
      (s.detector.perInstance.retain (candidates.map (·.id))) c with
  | notWedged => rfl
  | wedgedThisTick => simp only [since, entryFor_wedgedSince, if_true]

/-- The new tick judged a candidate wedged just when its verdict says so. -/
theorem tickOf_wedged_iff (hnodup : (candidates.map (·.id)).Nodup) {id : ι} {pid : Nat} :
    (tickOf F cfg samples s candidates).wedged id pid = true ↔
      ∃ c ∈ candidates, c.id = id ∧ c.pid = pid ∧
        verdictOf F cfg samples (latch s.detector samples && samples.gpuUsable) s.now
          (s.detector.perInstance.retain (candidates.map (·.id))) c = .wedgedThisTick := by
  obtain ⟨-, -, hjudged, -⟩ := foldl_judge (F := F) cfg samples
    (latch s.detector samples && samples.gpuUsable) s.now hnodup
    ⟨s.detector.perInstance.retain (candidates.map (·.id)), [], []⟩
  rw [Tick.wedged_iff]
  constructor
  · rintro ⟨j, hj, hid, hpid, hverdict⟩
    obtain hnil | ⟨c, hc, rfl⟩ := (hjudged j).mp hj
    · cases hnil
    · exact ⟨c, hc, hid, hpid, hverdict⟩
  · rintro ⟨c, hc, hid, hpid, hverdict⟩
    exact ⟨_, (hjudged _).mpr (.inr ⟨c, hc, rfl⟩), hid, hpid, hverdict⟩

/-- After a decision the bookkeeping still says when the streaks started. -/
theorem sinceOf_decided (hnodup : (candidates.map (·.id)).Nodup)
    (hsince : ∀ id pid, s.detector.sinceOf id pid = streakStart id pid s.ticks) (id : ι)
    (pid : Nat) :
    (s.decided F cfg samples candidates).detector.sinceOf id pid =
      streakStart id pid (tickOf F cfg samples s candidates :: s.ticks) := by
  obtain ⟨hother, hentry, -, -⟩ := foldl_judge (F := F) cfg samples
    (latch s.detector samples && samples.gpuUsable) s.now hnodup
    ⟨s.detector.perInstance.retain (candidates.map (·.id)), [], []⟩
  rw [streakStart_cons]
  by_cases hid : id ∈ candidates.map (·.id)
  · obtain ⟨c, hc, rfl⟩ := List.mem_map.mp hid
    have hlookup : (s.decided F cfg samples candidates).detector.perInstance.lookup c.id = _ :=
      hentry c hc
    simp only [WedgeDetectorState.sinceOf, hlookup, Option.bind_some, entryAfter,
      InstanceWedgeState.advance_pid, InstanceWedgeState.advance_wedgedSince, entryFor_pid]
    by_cases hpid : c.pid = pid
    · subst hpid
      rw [if_pos rfl, sinceAfter_retain F hc, hsince]
      by_cases hverdict : verdictOf F cfg samples (latch s.detector samples && samples.gpuUsable)
          s.now (s.detector.perInstance.retain (candidates.map (·.id))) c = .wedgedThisTick
      · rw [if_pos hverdict, if_pos ((tickOf_wedged_iff hnodup).mpr ⟨c, hc, rfl, rfl, hverdict⟩)]
        rfl
      · have hw : ¬ (tickOf F cfg samples s candidates).wedged c.id c.pid = true := by
          intro hw
          obtain ⟨d, hd, hdc, -, hd'⟩ := (tickOf_wedged_iff hnodup).mp hw
          rw [List.inj_on_of_nodup_map hnodup hd hc hdc] at hd'
          exact hverdict hd'
        rw [if_neg hverdict, if_neg hw]
    · have hw : ¬ (tickOf F cfg samples s candidates).wedged c.id pid = true := by
        intro hw
        obtain ⟨d, hd, hdc, hdpid, -⟩ := (tickOf_wedged_iff hnodup).mp hw
        rw [List.inj_on_of_nodup_map hnodup hd hc hdc] at hdpid
        exact hpid hdpid
      rw [if_neg hpid, if_neg hw]
  · -- the instance holds no slot: its entry is pruned, and the tick has no judgement of it
    have hlookup : (s.decided F cfg samples candidates).detector.perInstance.lookup id = _ :=
      hother id hid
    have hw : ¬ (tickOf F cfg samples s candidates).wedged id pid = true := by
      intro hw
      obtain ⟨d, hd, rfl, -, -⟩ := (tickOf_wedged_iff hnodup).mp hw
      exact hid (List.mem_map.mpr ⟨d, hd, rfl⟩)
    rw [Table.lookup_retain, if_neg hid] at hlookup
    simp only [WedgeDetectorState.sinceOf, hlookup, Option.bind_none]
    rw [if_neg hw]

/-- The judgements of a decision are sound. -/
theorem tickOf_sound (hnodup : (candidates.map (·.id)).Nodup) :
    ∀ j ∈ (tickOf F cfg samples s candidates).judged, j.Sound := by
  obtain ⟨-, -, hjudged, -⟩ := foldl_judge (F := F) cfg samples
    (latch s.detector samples && samples.gpuUsable) s.now hnodup
    ⟨s.detector.perInstance.retain (candidates.map (·.id)), [], []⟩
  intro j hj
  obtain hnil | ⟨c, hc, rfl⟩ := (hjudged j).mp hj
  · cases hnil
  · exact judgementOf_sound cfg samples _ s.now _ c

/-- The orders of a decision are due. -/
theorem due_of_decided (hnodup : (candidates.map (·.id)).Nodup)
    (hsince : ∀ id pid, s.detector.sinceOf id pid = streakStart id pid s.ticks) {o : Order ι}
    (ho : o ∈ (judgeAll F cfg samples s.now s.detector candidates).toKill) :
    o.Due cfg (tickOf F cfg samples s candidates :: s.ticks) := by
  obtain ⟨-, -, hjudged, horders⟩ := foldl_judge (F := F) cfg samples
    (latch s.detector samples && samples.gpuUsable) s.now hnodup
    ⟨s.detector.perInstance.retain (candidates.map (·.id)), [], []⟩
  obtain hnil | ⟨c, hc, horder⟩ := (horders o).mp ho
  · cases hnil
  · unfold orderOf at horder
    dsimp only at horder
    split at horder
    · next hdue =>
      obtain ⟨hverdict, hwindow⟩ := hdue
      rw [sinceAfter_retain F hc, if_pos hverdict, Option.getD_some] at horder hwindow
      obtain rfl := Option.some.inj horder
      have hw : (tickOf F cfg samples s candidates).wedged c.id c.pid = true :=
        (tickOf_wedged_iff hnodup).mpr ⟨c, hc, rfl, rfl, hverdict⟩
      refine ⟨_, _, _, rfl, ?_, hwindow, rfl, _, (hjudged _).mpr (.inr ⟨c, hc, rfl⟩), rfl, rfl,
        hverdict, rfl⟩
      rw [streakStart_cons, if_pos hw, hsince]
      rfl
    · cases horder

end Decided

/-! ### Runs -/

/-- A stop that the ticks and the verification under the lock justify: the newest ticks before it
all judged the instance wedged with its pid, a request waiting on it and its CPU readable, none of
them restarts the streak, and they span the window; under the lock the instance had the pid, a
request that was waiting on it, and the last activity that the newest tick had read. -/
structure Stop.Justified (cfg : Config) (stop : Stop ι) : Prop where
  spans : ∃ first last, (streak stop.order.id stop.order.pid stop.ticks).getLast? = some first ∧
    (streak stop.order.id stop.order.pid stop.ticks).head? = some last ∧
      cfg.window ≤ last.now - first.now ∧
        ∃ j ∈ last.judged, j.candidate.id = stop.order.id ∧ j.candidate.pid = stop.order.pid ∧
          j.candidate.lastActivity = stop.seen.lastActivity
  wedged : ∀ t ∈ streak stop.order.id stop.order.pid stop.ticks,
    ¬ t.Restarts stop.order.id stop.order.pid ∧
      ∃ j ∈ t.judged, j.candidate.id = stop.order.id ∧ j.candidate.pid = stop.order.pid ∧
        j.verdict = .wedgedThisTick ∧ j.busyNow.isSome = true ∧
          j.candidate.awaitingDownstream < j.candidate.inFlight
  rechecked : stop.seen.streamsAwaitingDownstream < stop.seen.inFlightRequests ∧
    stop.seen.pid = some stop.order.pid

/-- What holds in each phase. -/
def PhaseOk (cfg : Config) (ticks : List (Tick ι)) : Phase ι → Prop
  | .idle => True
  | .snapshot todo candidates => (candidates.map (·.id) ++ todo).Nodup
  | .sampling candidates => (candidates.map (·.id)).Nodup
  | .killing orders => ∀ o ∈ orders, o.Due cfg ticks
  | .removing o seen orders =>
    o.Due cfg ticks ∧ stillWedged o seen = true ∧ ∀ o ∈ orders, o.Due cfg ticks

/-- The invariant of the watchdog. -/
structure Inv (cfg : Config) (s : State ι) : Prop where
  since : ∀ id pid, s.detector.sinceOf id pid = streakStart id pid s.ticks
  sound : ∀ t ∈ s.ticks, ∀ j ∈ t.judged, j.Sound
  phase : PhaseOk cfg s.ticks s.phase
  stops : ∀ stop ∈ s.stops, stop.ticks <:+ s.ticks ∧ stop.Justified cfg

private theorem inv_init (cfg : Config) : Inv cfg (State.init : State ι) where
  since := by
    intro id pid
    rfl
  sound := by simp [State.init]
  phase := trivial
  stops := by simp [State.init]

/-- A step that touches neither the bookkeeping, the ticks nor the stops. -/
theorem Inv.of_phase {cfg : Config} {s t : State ι} (h : Inv cfg s) (hd : t.detector = s.detector)
    (ht : t.ticks = s.ticks) (hs : t.stops = s.stops) (hp : PhaseOk cfg s.ticks t.phase) :
    Inv cfg t where
  since := by simpa only [hd, ht] using h.since
  sound := by simpa only [ht] using h.sound
  phase := by simpa only [ht] using hp
  stops := by simpa only [ht, hs] using h.stops

/-- Every tick of a streak judged the instance wedged. -/
theorem wedged_of_mem_streak {id : ι} {pid : Nat} {ticks : List (Tick ι)} {t : Tick ι}
    (h : t ∈ streak id pid ticks) : t ∈ ticks ∧ t.wedged id pid = true :=
  ⟨(List.takeWhile_sublist _).subset h, List.all_eq_true.mp List.all_takeWhile t h⟩

/-- A due order, verified under the lock, justifies the stop. -/
theorem justified_of_due {cfg : Config} {s : State ι} {o : Order ι} {seen : Instance}
    (hsound : ∀ t ∈ s.ticks, ∀ j ∈ t.judged, j.Sound) (hdue : o.Due cfg s.ticks)
    (hseen : stillWedged o seen = true) : (⟨o, seen, s.ticks⟩ : Stop ι).Justified cfg := by
  simp only [stillWedged, Bool.and_eq_true, decide_eq_true_eq] at hseen
  obtain ⟨⟨hheld, hpid⟩, hactivity⟩ := hseen
  obtain ⟨last, older, first, hticks, hstart, hwindow, -, j, hj, hid, hjpid, hverdict, hread⟩ :=
    hdue
  refine ⟨?_, ?_, hheld, hpid⟩
  · obtain ⟨oldest, holdest, rfl⟩ := Option.map_eq_some_iff.mp hstart
    have hw : last.wedged o.id o.pid = true := Tick.wedged_iff.mpr ⟨j, hj, hid, hjpid, hverdict⟩
    refine ⟨oldest, last, holdest, ?_, hwindow, j, hj, hid, hjpid, hread.trans hactivity.symm⟩
    simp only [hticks, streak, List.takeWhile_cons, hw, if_true, List.head?_cons]
  · intro t ht
    obtain ⟨hmem, hw⟩ := wedged_of_mem_streak ht
    constructor
    · intro hrestarts
      rw [hrestarts.not_wedged (hsound t hmem)] at hw
      cases hw
    · obtain ⟨i, hi, hiid, hipid, hiverdict⟩ := Tick.wedged_iff.mp hw
      have hs := hsound t hmem i hi hiverdict
      exact ⟨i, hi, hiid, hipid, hiverdict, hs.2, hs.1⟩

omit [DecidableEq ι] in
/-- Reading one more instance keeps the ids distinct. -/
theorem nodup_read {todo : List ι} {id : ι} {candidates : List (Candidate ι)}
    {inst : Option Instance}
    (h : (candidates.map (·.id) ++ id :: todo).Nodup) :
    ((candidates ++ (inst.bind (candidateOf id)).toList).map (·.id) ++ todo).Nodup := by
  cases hfound : inst.bind (candidateOf id) with
  | none =>
    simp only [Option.toList_none, List.append_nil]
    exact h.sublist ((List.sublist_cons_self id todo).append_left _)
  | some c =>
    have hid : c.id = id := by
      obtain ⟨i, -, hi⟩ := Option.bind_eq_some_iff.mp hfound
      unfold candidateOf at hi
      split at hi
      · cases hi
      · obtain ⟨pid, -, rfl⟩ := Option.map_eq_some_iff.mp hi
        rfl
    simpa [hid] using h

/-- Each step keeps the invariant. -/
theorem inv_step {cfg : Config} {s t : State ι} {l : Label ι} (hinv : Inv cfg s)
    (h : step F cfg s l = some t) : Inv cfg t := by
  cases l with
  | beginTick ids =>
    simp only [step] at h
    split at h
    · obtain ⟨hperm, rfl⟩ := guarded_eq_some.mp h
      exact hinv.of_phase rfl rfl rfl (hperm.nodup_iff.mpr s.instances.nodupKeys)
    · cases h
  | read =>
    simp only [step] at h
    split at h
    · next id todo candidates hphase =>
      obtain rfl := Option.some.inj h
      have hnodup := hinv.phase
      rw [hphase] at hnodup
      exact hinv.of_phase rfl rfl rfl (nodup_read hnodup)
    · cases h
  | endSnapshot =>
    simp only [step] at h
    split at h
    · next candidates hphase =>
      obtain rfl := Option.some.inj h
      have hnodup := hinv.phase
      rw [hphase] at hnodup
      refine hinv.of_phase rfl rfl rfl ?_
      simpa [PhaseOk] using hnodup
    · cases h
  | decide samples =>
    simp only [step] at h
    split at h
    · next candidates hphase =>
      obtain rfl := Option.some.inj h
      have hnodup := hinv.phase
      rw [hphase] at hnodup
      refine ⟨sinceOf_decided hnodup hinv.since, ?_, ?_, ?_⟩
      · intro u hu
        obtain rfl | hu := List.mem_cons.mp hu
        · exact tickOf_sound (F := F) hnodup
        · exact hinv.sound u hu
      · intro o ho
        exact due_of_decided hnodup hinv.since ho
      · intro stop hstop
        obtain ⟨hsuffix, hjust⟩ := hinv.stops stop hstop
        exact ⟨hsuffix.trans (List.suffix_cons _ _), hjust⟩
    · cases h
  | recheck =>
    simp only [step] at h
    split at h
    · next o orders hphase =>
      have hdue := hinv.phase
      rw [hphase] at hdue
      have hrest : ∀ p ∈ orders, p.Due cfg s.ticks := fun p hp => hdue p (List.mem_cons_of_mem o hp)
      split at h
      · obtain rfl := Option.some.inj h
        exact hinv.of_phase rfl rfl rfl hrest
      · split at h
        · next hwedged =>
          obtain rfl := Option.some.inj h
          exact hinv.of_phase rfl rfl rfl ⟨hdue o List.mem_cons_self, hwedged, hrest⟩
        · obtain rfl := Option.some.inj h
          exact hinv.of_phase rfl rfl rfl hrest
    · cases h
  | remove =>
    simp only [step] at h
    split at h
    · next o seen orders hphase =>
      obtain rfl := Option.some.inj h
      have hphaseOk := hinv.phase
      rw [hphase] at hphaseOk
      obtain ⟨hdue, hwedged, hrest⟩ := hphaseOk
      refine ⟨hinv.since, hinv.sound, hrest, ?_⟩
      intro stop hstop
      obtain rfl | hstop := List.mem_cons.mp hstop
      · exact ⟨List.suffix_refl _, justified_of_due hinv.sound hdue hwedged⟩
      · exact hinv.stops stop hstop
    · cases h
  | endTick =>
    simp only [step] at h
    split at h
    · obtain rfl := Option.some.inj h
      exact hinv.of_phase rfl rfl rfl trivial
    · cases h
  | elapse nanos =>
    obtain rfl := Option.some.inj h
    exact hinv.of_phase rfl rfl rfl hinv.phase
  | change id inst =>
    obtain rfl := Option.some.inj h
    exact hinv.of_phase rfl rfl rfl hinv.phase
  | insert id inst =>
    obtain ⟨-, rfl⟩ := guarded_eq_some.mp h
    exact hinv.of_phase rfl rfl rfl hinv.phase
  | unmap id =>
    obtain ⟨-, rfl⟩ := guarded_eq_some.mp h
    exact hinv.of_phase rfl rfl rfl hinv.phase

/-- In every run, each stop of a wedged instance is justified by the ticks just before it and the
verification under the lock, the bookkeeping says when the streak of each instance started, and a
tick that restarts a streak leaves none. -/
theorem wedged_stops_justified (cfg : Config) {labels : List (Label ι)} {s : State ι}
    (h : exec (step F cfg) State.init labels = some s) :
    (∀ stop ∈ s.stops, stop.ticks <:+ s.ticks ∧ stop.Justified cfg) ∧
      (∀ id pid, s.detector.sinceOf id pid = streakStart id pid s.ticks) ∧
        ∀ t older, s.ticks = t :: older → ∀ id pid, t.Restarts id pid →
          s.detector.sinceOf id pid = none := by
  have hinv : Inv cfg s := exec_invariant (fun _ _ _ => inv_step) (inv_init cfg) h
  refine ⟨hinv.stops, hinv.since, ?_⟩
  intro t older hticks id pid hrestarts
  have hsound := hinv.sound t (by rw [hticks]; exact List.mem_cons_self)
  rw [hinv.since, hticks, streakStart_cons, hrestarts.not_wedged hsound]
  rfl

/-- A process that stops working after its first sample, on a node without a GPU. -/
def hungProcess : List (Label Nat) :=
  let samples : Samples Nat := ⟨false, fun _ => some 40, ∅, none, false⟩
  let tick : List (Label Nat) := [.beginTick [7], .read, .endSnapshot, .decide samples]
  ([.insert 7 ⟨some 100, true, 1, 0, 3⟩] : List (Label Nat)) ++ tick ++
    ([.endTick, .elapse 2000000] : List (Label Nat)) ++ tick ++
    ([.endTick, .elapse 5000000] : List (Label Nat)) ++ tick ++
    ([.recheck, .remove] : List (Label Nat))

/-- It is stopped once, after its streak. -/
theorem hungProcess_stopped :
    ∃ s, exec (step ℚ ⟨5, true, 100⟩) State.init hungProcess = some s ∧
      s.stops.length = 1 ∧ ∀ stop ∈ s.stops, stop.Justified ⟨5, true, 100⟩ := by
  have hrun :
      (exec (step ℚ ⟨5, true, 100⟩) State.init hungProcess).map (·.stops.length) = some 1 := by
    decide +kernel
  obtain ⟨s, hs, hstops⟩ := Option.map_eq_some_iff.mp hrun
  refine ⟨s, hs, hstops, ?_⟩
  intro stop hstop
  exact ((wedged_stops_justified ⟨5, true, 100⟩ hs).1 stop hstop).2

end Llamesh.Wedge
