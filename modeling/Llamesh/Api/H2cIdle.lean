import Llamesh.Library.Run

/-!
# Idle cleartext HTTP/2 connections

HTTP/2 has no header timeout, so `serve_h2c_connection` (`src/api.rs:723–913`) counts the streams of
a connection by guards and looks every five seconds whether it is idle: it then asks for a graceful
shutdown, and drops the connection if that takes longer than twenty seconds. A look loads the count,
then the clock, then the last activity, and acts on them, while the streams go on beside it: what
holds is said of the loads, and a stream that starts after the count was loaded does not stop the
drop. A look that finds a stream leaves the connection as it is, and without a stream the connection
ends within the idle time, thirty seconds and four times the lateness of a look.

Times are in nanoseconds since the connection was made. The clock and the store of `touch` are one
step, while the start of a stream touches and counts in two, and so does the drop of a guard. The
sleep of the watchdog ends at some time after it is due; `late` is by how much the end of a look may
come after that, and any run has some.
-/

namespace Llamesh.Api.H2c

open Transition

/-- `H2C_WATCHDOG_TICK`. -/
def watchdogTick : Nat := 5000000000

/-- `H2C_SHUTDOWN_GRACE`. -/
def shutdownGrace : Nat := 20000000000

/-- `Duration::as_millis`. -/
def asMillis (nanos : Nat) : Nat := nanos / 1000000

/-- What a look of the watchdog has loaded: the streams that were counted, the clock, and the last
activity, cut to a millisecond. -/
structure Look where
  live : List Nat
  clock : Nat
  activeUntil : Nat
deriving DecidableEq, Repr

/-- How the connection came to its end. -/
inductive End where
  | finished
  | dropped (look : Look)
deriving DecidableEq, Repr

/-- The watchdog: in its sleep, woken, after it has loaded the count and found none, after it has
read the clock, and about to act. -/
inductive WatchPc where
  | sleeping
  | woken
  | quiet (live : List Nat)
  | clocked (live : List Nat) (clock : Nat)
  | requesting (look : Look)
  | breaking (look : Look)
deriving DecidableEq, Repr

/-- A connection. `starting` are the streams that have touched and are not counted yet, `live` those
whose guard is counted, `dropping` those whose guard is counted off and has not touched yet;
`tickedAt` is when the sleep of the watchdog began. `requestedOn` is the look a shutdown was
requested on; nothing reads it. -/
structure Connection where
  now : Nat
  activeStreams : Nat
  lastActivityMs : Nat
  starting : List Nat
  live : List Nat
  dropping : List Nat
  watch : WatchPc
  tickedAt : Nat
  shutdownRequestedAt : Option Nat
  requestedOn : Option Look
  ended : Option End
deriving DecidableEq, Repr

/-- A new connection. -/
def Connection.init : Connection := ⟨0, 0, 0, [], [], [], .sleeping, 0, none, none, none⟩

/-- What happens to the connection. -/
inductive Label where
  | advance (nanos : Nat)
  /-- The service is called for a stream: it touches, and makes the guard. -/
  | start (stream : Nat)
  | count (stream : Nat)
  /-- A frame of its response is sent. -/
  | frame (stream : Nat)
  /-- The guard is dropped: the count, then the time. -/
  | countOff (stream : Nat)
  | touch (stream : Nat)
  /-- The parts of a look. -/
  | wake
  | loadCount
  | readClock
  | compare
  | act
  | finish
deriving DecidableEq

/-- The parts of a look, in their order. -/
def lookParts : List Label := [.wake, .loadCount, .readClock, .compare, .act]

/-- `touch`. `src/api.rs:757–762`. -/
def Connection.touched (c : Connection) : Connection := { c with lastActivityMs := asMillis c.now }

/-- `idle_for`, in milliseconds, of the clock that was read. `src/api.rs:769–775`. -/
def Connection.idleFor (c : Connection) (clock : Nat) : Nat := asMillis clock - c.lastActivityMs

/-- When the last activity was, cut to a millisecond. -/
def Connection.activeUntil (c : Connection) : Nat := c.lastActivityMs * 1000000

/-- The watchdog goes to sleep again. -/
def Connection.sleep (c : Connection) : Connection :=
  { c with watch := .sleeping, tickedAt := c.now }

/-- The look at the clock that was read. `src/api.rs:897–908`. -/
def Connection.decide (idleSecs : Nat) (c : Connection) (live : List Nat) (clock : Nat) :
    Connection :=
  match c.shutdownRequestedAt with
  | none =>
    if c.idleFor clock ≥ idleSecs * 1000 then
      { c with watch := .requesting ⟨live, clock, c.activeUntil⟩ }
    else c.sleep
  | some at_ =>
    if clock - at_ ≥ shutdownGrace then
      { c with watch := .breaking ⟨live, clock, c.activeUntil⟩ }
    else c.sleep

/-- One part of a look. `src/api.rs:891–910`. -/
def Connection.lookStep (idleSecs : Nat) (c : Connection) : Label → Option Connection
  | .wake =>
    guarded (c.watch = .sleeping ∧ c.tickedAt + watchdogTick ≤ c.now) { c with watch := .woken }
  | .loadCount =>
    guarded (c.watch = .woken)
      (if c.activeStreams > 0 then c.sleep else { c with watch := .quiet c.live })
  | .readClock =>
    match c.watch with
    | .quiet live => some { c with watch := .clocked live c.now }
    | _ => none
  | .compare =>
    match c.watch with
    | .clocked live clock => some (c.decide idleSecs live clock)
    | _ => none
  | .act =>
    match c.watch with
    | .requesting look =>
      some { c.sleep with shutdownRequestedAt := some c.now, requestedOn := some look }
    | .breaking look => some { c with ended := some (.dropped look) }
    | _ => none
  | _ => none

/-- One step. -/
def step (late idleSecs : Nat) (c : Connection) (label : Label) : Option Connection :=
  match c.ended with
  | some _ => none
  | none =>
    match label with
    | .advance nanos =>
      guarded (c.now + nanos ≤ c.tickedAt + watchdogTick + late) { c with now := c.now + nanos }
    | .start stream =>
      guarded (stream ∉ c.starting ∧ stream ∉ c.live ∧ stream ∉ c.dropping)
        { c.touched with starting := stream :: c.starting }
    | .count stream =>
      guarded (stream ∈ c.starting)
        { c with
          activeStreams := c.activeStreams + 1
          starting := c.starting.erase stream
          live := stream :: c.live }
    | .frame stream => guarded (stream ∈ c.live) c.touched
    | .countOff stream =>
      guarded (stream ∈ c.live)
        { c with
          activeStreams := c.activeStreams - 1
          live := c.live.erase stream
          dropping := stream :: c.dropping }
    | .touch stream =>
      guarded (stream ∈ c.dropping) { c.touched with dropping := c.dropping.erase stream }
    | .finish => guarded (c.watch = .sleeping) { c with ended := some .finished }
    | _ => c.lookStep idleSecs label

/-! ## The invariant -/

/-- The connection has no stream. -/
def Connection.Quiet (c : Connection) : Prop := c.starting = [] ∧ c.live = [] ∧ c.dropping = []

/-- What a look has found so far: no stream was counted, and the idle time or the grace was over at
the clock. -/
def WatchPc.Found (idleSecs : Nat) (c : Connection) : WatchPc → Prop
  | .sleeping => True
  | .woken => c.tickedAt + watchdogTick ≤ c.now
  | .quiet live => c.tickedAt + watchdogTick ≤ c.now ∧ live = []
  | .clocked live clock =>
    c.tickedAt + watchdogTick ≤ clock ∧ clock ≤ c.now ∧ live = []
  | .requesting look =>
    c.shutdownRequestedAt = none ∧ look.live = [] ∧
      idleSecs * 1000000000 ≤ look.clock - look.activeUntil
  | .breaking look =>
    look.live = [] ∧ ∃ at_, c.shutdownRequestedAt = some at_ ∧ shutdownGrace ≤ look.clock - at_

/-- What holds of a connection that has not ended: the streams are counted, the last look found a
stream or an activity unless a shutdown is requested, and it was within the grace of the request
unless it found a stream. -/
structure Inv (late idleSecs : Nat) (c : Connection) : Prop where
  counted : c.activeStreams = c.live.length
  ticked : c.tickedAt ≤ c.now
  due : c.now ≤ c.tickedAt + watchdogTick + late
  found : c.watch.Found idleSecs c
  asked : ∀ look, c.requestedOn = some look →
    look.live = [] ∧ idleSecs * 1000000000 ≤ look.clock - look.activeUntil
  awake : c.shutdownRequestedAt = none → c.requestedOn = none ∧ (c.Quiet →
    c.tickedAt < c.activeUntil + idleSecs * 1000000000 + late + 1000000)
  requested : ∀ at_, c.shutdownRequestedAt = some at_ → c.requestedOn ≠ none ∧ at_ ≤ c.tickedAt ∧
    (c.Quiet → at_ < c.activeUntil + idleSecs * 1000000000 + watchdogTick + 2 * late + 1000000)
  graced : ∀ at_, c.shutdownRequestedAt = some at_ → c.Quiet →
    c.tickedAt < at_ + shutdownGrace + late ∨ c.tickedAt < c.activeUntil + 1000000

variable {late idleSecs : Nat} {c d : Connection} {label : Label}

private theorem lt_touched (c : Connection) : c.now < c.touched.activeUntil + 1000000 := by
  simp only [Connection.touched, Connection.activeUntil, asMillis]
  omega

private theorem found_congr (h : c.watch.Found idleSecs c) (hwatch : d.watch = c.watch)
    (hticked : d.tickedAt = c.tickedAt) (hnow : c.now ≤ d.now)
    (hrequested : d.shutdownRequestedAt = c.shutdownRequestedAt) :
    d.watch.Found idleSecs d := by
  rw [hwatch]
  unfold WatchPc.Found at h ⊢
  rw [hticked, hrequested]
  cases hpc : c.watch with
  | sleeping => trivial
  | woken =>
    rw [hpc] at h
    exact Nat.le_trans h hnow
  | quiet live =>
    rw [hpc] at h
    exact ⟨Nat.le_trans h.1 hnow, h.2⟩
  | clocked live clock =>
    rw [hpc] at h
    exact ⟨h.1, Nat.le_trans h.2.1 hnow, h.2.2⟩
  | requesting look =>
    rw [hpc] at h
    exact h
  | breaking look =>
    rw [hpc] at h
    exact h

private theorem inv_touched (inv : Inv late idleSecs c) {starting dropping : List Nat} :
    Inv late idleSecs { c.touched with starting := starting, dropping := dropping } := by
  have hlt := lt_touched c
  have hticked := inv.ticked
  refine ⟨inv.counted, inv.ticked, inv.due,
    found_congr inv.found rfl rfl (Nat.le_refl _) rfl, inv.asked, ?_, ?_, ?_⟩
  · refine fun hnone => ⟨(inv.awake hnone).1, fun _ => ?_⟩
    change c.tickedAt < c.touched.activeUntil + _ + _ + _
    omega
  · intro at_ hat
    obtain ⟨hasked, hpast, -⟩ := inv.requested at_ hat
    refine ⟨hasked, hpast, fun _ => ?_⟩
    change at_ < c.touched.activeUntil + _ + _ + _ + _
    omega
  · intro at_ _ _
    right
    change c.tickedAt < c.touched.activeUntil + _
    omega

private theorem inv_streams (inv : Inv late idleSecs c) {streams : Nat}
    {starting live dropping : List Nat} (hcounted : streams = live.length)
    (hstays : live ≠ [] ∨ dropping ≠ []) :
    Inv late idleSecs
      { c with
        activeStreams := streams, starting := starting, live := live, dropping := dropping } := by
  have hbusy : ¬ (starting = [] ∧ live = [] ∧ dropping = []) := by
    rintro ⟨-, hlive, hdropping⟩
    exact hstays.elim (absurd hlive) (absurd hdropping)
  exact ⟨hcounted, inv.ticked, inv.due, found_congr inv.found rfl rfl (Nat.le_refl _) rfl,
    inv.asked, fun hnone => ⟨(inv.awake hnone).1, fun hquiet => absurd hquiet hbusy⟩,
    fun at_ hat => ⟨(inv.requested at_ hat).1, (inv.requested at_ hat).2.1,
      fun hquiet => absurd hquiet hbusy⟩,
    fun _ _ hquiet => absurd hquiet hbusy⟩

private theorem inv_watch (inv : Inv late idleSecs c) {watch : WatchPc}
    (hfound : watch.Found idleSecs { c with watch := watch }) :
    Inv late idleSecs { c with watch := watch } :=
  ⟨inv.counted, inv.ticked, inv.due, hfound, inv.asked, inv.awake, inv.requested, inv.graced⟩

private theorem inv_sleep (inv : Inv late idleSecs c)
    (hawake : c.shutdownRequestedAt = none → c.Quiet →
      c.now < c.activeUntil + idleSecs * 1000000000 + late + 1000000)
    (hgraced : ∀ at_, c.shutdownRequestedAt = some at_ → c.Quiet →
      c.now < at_ + shutdownGrace + late) :
    Inv late idleSecs c.sleep where
  counted := inv.counted
  ticked := Nat.le_refl _
  due := Nat.le_trans (Nat.le_add_right _ _) (Nat.le_add_right _ _)
  found := trivial
  asked := inv.asked
  awake := fun hnone => ⟨(inv.awake hnone).1, hawake hnone⟩
  requested := fun at_ hat => ⟨(inv.requested at_ hat).1,
    Nat.le_trans (inv.requested at_ hat).2.1 inv.ticked, (inv.requested at_ hat).2.2⟩
  graced := fun at_ hat hquiet => .inl (hgraced at_ hat hquiet)

private theorem live_eq_nil (inv : Inv late idleSecs c) (hidle : ¬ c.activeStreams > 0) :
    c.live = [] :=
  List.eq_nil_of_length_eq_zero (inv.counted.symm.trans (Nat.eq_zero_of_not_pos hidle))

private theorem lt_of_idleFor {clock : Nat} (h : ¬ c.idleFor clock ≥ idleSecs * 1000) :
    clock < c.activeUntil + idleSecs * 1000000000 := by
  simp only [Connection.idleFor, Connection.activeUntil, asMillis] at h ⊢
  omega

private theorem le_of_idleFor {clock : Nat} (h : c.idleFor clock ≥ idleSecs * 1000) :
    idleSecs * 1000000000 ≤ clock - c.activeUntil := by
  have hmillis : asMillis clock * 1000000 ≤ clock := Nat.div_mul_le_self _ _
  calc idleSecs * 1000000000
      = idleSecs * 1000 * 1000000 := (Nat.mul_assoc idleSecs 1000 1000000).symm
    _ ≤ (asMillis clock - c.lastActivityMs) * 1000000 := Nat.mul_le_mul_right _ h
    _ = asMillis clock * 1000000 - c.activeUntil := Nat.sub_mul _ _ _
    _ ≤ clock - c.activeUntil := Nat.sub_le_sub_right hmillis _

private theorem inv_decide (inv : Inv late idleSecs c) {live : List Nat} {clock : Nat}
    (hwatch : c.watch = .clocked live clock) :
    Inv late idleSecs (c.decide idleSecs live clock) := by
  have hfound := inv.found
  rw [hwatch] at hfound
  obtain ⟨hdue, -, hlive⟩ := hfound
  have hlate := inv.due
  unfold Connection.decide
  split
  · next hnone =>
    split
    · next hlong => exact inv_watch inv ⟨hnone, hlive, le_of_idleFor hlong⟩
    · next hrecent =>
      have hlt := lt_of_idleFor hrecent
      refine inv_sleep inv (fun _ _ => by omega) fun at_ hat => ?_
      rw [hnone] at hat
      cases hat
  · next at_ hat =>
    split
    · next hgrace => exact inv_watch inv ⟨hlive, at_, hat, hgrace⟩
    · next hgrace =>
      refine inv_sleep inv (fun hnone => ?_) fun at' hat' _ => ?_
      · rw [hat] at hnone
        cases hnone
      · rw [hat] at hat'
        cases hat'
        omega

private theorem inv_request (inv : Inv late idleSecs c) {look : Look}
    (hwatch : c.watch = .requesting look) :
    Inv late idleSecs
      { c.sleep with shutdownRequestedAt := some c.now, requestedOn := some look } := by
  -- the look before found an activity, unless a stream is there
  have hfound := inv.found
  rw [hwatch] at hfound
  obtain ⟨hnone, hlive, hlong⟩ := hfound
  refine ⟨inv.counted, Nat.le_refl _, Nat.le_trans (Nat.le_add_right _ _) (Nat.le_add_right _ _),
    trivial, ?_, ?_, ?_, ?_⟩
  · rintro _ ⟨⟩
    exact ⟨hlive, hlong⟩
  · intro hnone
    cases hnone
  · rintro at_ ⟨⟩
    refine ⟨Option.some_ne_none _, Nat.le_refl _, fun hquiet => ?_⟩
    have hawake := (inv.awake hnone).2 hquiet
    have hdue := inv.due
    change c.now < c.activeUntil + _ + _ + _ + _
    omega
  · rintro at_ ⟨⟩ _
    left
    change c.now < c.now + shutdownGrace + late
    unfold shutdownGrace
    omega

private theorem inv_lookStep (inv : Inv late idleSecs c)
    (h : c.lookStep idleSecs label = some d) (hserving : d.ended = none) :
    Inv late idleSecs d := by
  cases label with
  | wake =>
    obtain ⟨⟨-, hdue⟩, rfl⟩ := guarded_eq_some.mp h
    exact inv_watch inv hdue
  | loadCount =>
    obtain ⟨hwatch, rfl⟩ := guarded_eq_some.mp h
    split
    · next hbusy =>
      have hquiet : ¬ c.Quiet := by
        rintro ⟨-, hlive, -⟩
        rw [inv.counted, hlive] at hbusy
        exact absurd hbusy (by decide)
      exact inv_sleep inv (fun _ h => absurd h hquiet) fun _ _ h => absurd h hquiet
    · next hidle =>
      have hfound := inv.found
      rw [hwatch] at hfound
      exact inv_watch inv ⟨hfound, live_eq_nil inv hidle⟩
  | readClock =>
    simp only [Connection.lookStep] at h
    split at h
    · next live hwatch =>
      cases h
      have hfound := inv.found
      rw [hwatch] at hfound
      exact inv_watch inv ⟨hfound.1, Nat.le_refl _, hfound.2⟩
    · cases h
  | compare =>
    simp only [Connection.lookStep] at h
    split at h
    · next live clock hwatch =>
      cases h
      exact inv_decide inv hwatch
    · cases h
  | act =>
    simp only [Connection.lookStep] at h
    split at h
    · next look hwatch =>
      cases h
      exact inv_request inv hwatch
    · cases h
      cases hserving
    · cases h
  | _ => cases h

private theorem inv_step (inv : c.ended = none → Inv late idleSecs c)
    (h : step late idleSecs c label = some d) (hserving : d.ended = none) :
    Inv late idleSecs d := by
  unfold step at h
  split at h
  · cases h
  · next hended =>
    replace inv := inv hended
    split at h
    · next nanos =>
      obtain ⟨hdue, rfl⟩ := guarded_eq_some.mp h
      exact ⟨inv.counted, Nat.le_trans inv.ticked (Nat.le_add_right _ _), hdue,
        found_congr inv.found rfl rfl (Nat.le_add_right _ _) rfl, inv.asked, inv.awake,
        inv.requested, inv.graced⟩
    · obtain ⟨-, rfl⟩ := guarded_eq_some.mp h
      exact inv_touched inv
    · next stream =>
      obtain ⟨-, rfl⟩ := guarded_eq_some.mp h
      refine inv_streams inv ?_ (.inl (List.cons_ne_nil _ _))
      rw [List.length_cons, inv.counted]
    · obtain ⟨-, rfl⟩ := guarded_eq_some.mp h
      exact inv_touched inv
    · next stream =>
      obtain ⟨hlive, rfl⟩ := guarded_eq_some.mp h
      refine inv_streams inv ?_ (.inr (List.cons_ne_nil _ _))
      rw [List.length_erase_of_mem hlive, inv.counted]
    · obtain ⟨-, rfl⟩ := guarded_eq_some.mp h
      exact inv_touched inv
    · obtain ⟨-, rfl⟩ := guarded_eq_some.mp h
      cases hserving
    · exact inv_lookStep inv h hserving

private theorem inv_init (late idleSecs : Nat) : Inv late idleSecs Connection.init where
  counted := rfl
  ticked := Nat.le_refl _
  due := Nat.zero_le _
  found := trivial
  asked := fun look h => by cases h
  awake := fun _ => ⟨rfl, fun _ => by
    simp only [Connection.init, Connection.activeUntil]
    omega⟩
  requested := fun at_ hat => by cases hat
  graced := fun at_ hat => by cases hat

/-! ## Every run -/

/-- What the connection was shut down on: a look that counted no stream, at a clock at which the
idle time, and for a drop the grace, was over. -/
structure ShutDown (idleSecs : Nat) (c : Connection) : Prop where
  requested : ∀ at_, c.shutdownRequestedAt = some at_ → ∃ look, c.requestedOn = some look ∧
    look.live = [] ∧ idleSecs * 1000000000 ≤ look.clock - look.activeUntil
  dropped : ∀ look, c.ended = some (.dropped look) → look.live = [] ∧
    ∃ at_, c.shutdownRequestedAt = some at_ ∧ shutdownGrace ≤ look.clock - at_

private theorem Inv.shutDown (inv : Inv late idleSecs c) (hended : c.ended = none) :
    ShutDown idleSecs c where
  requested := by
    intro at_ hat
    obtain ⟨look, hlook⟩ := Option.ne_none_iff_exists'.mp (inv.requested at_ hat).1
    exact ⟨look, hlook, inv.asked look hlook⟩
  dropped := by
    intro look h
    rw [hended] at h
    cases h

private theorem lookStep_ended (h : c.lookStep idleSecs label = some d)
    (hserving : c.ended = none) :
    d.ended = none ∨
      ∃ look, c.watch = .breaking look ∧ d = { c with ended := some (.dropped look) } := by
  cases label with
  | wake =>
    obtain ⟨-, rfl⟩ := guarded_eq_some.mp h
    exact .inl hserving
  | loadCount =>
    obtain ⟨-, rfl⟩ := guarded_eq_some.mp h
    split
    · exact .inl hserving
    · exact .inl hserving
  | readClock =>
    simp only [Connection.lookStep] at h
    split at h
    · cases h
      exact .inl hserving
    · cases h
  | compare =>
    simp only [Connection.lookStep] at h
    split at h
    · cases h
      left
      unfold Connection.decide
      split <;> split <;> exact hserving
    · cases h
  | act =>
    simp only [Connection.lookStep] at h
    split at h
    · cases h
      exact .inl hserving
    · next look hwatch =>
      cases h
      exact .inr ⟨look, hwatch, rfl⟩
    · cases h
  | _ => cases h

private theorem step_ended (h : step late idleSecs c label = some d) : c.ended = none ∧
    (d.ended = none ∨ d = { c with ended := some .finished } ∨
      c.lookStep idleSecs label = some d) := by
  unfold step at h
  split at h
  · cases h
  · next hserving =>
    refine ⟨hserving, ?_⟩
    split at h
    · obtain ⟨-, rfl⟩ := guarded_eq_some.mp h
      exact .inl hserving
    · obtain ⟨-, rfl⟩ := guarded_eq_some.mp h
      exact .inl hserving
    · obtain ⟨-, rfl⟩ := guarded_eq_some.mp h
      exact .inl hserving
    · obtain ⟨-, rfl⟩ := guarded_eq_some.mp h
      exact .inl hserving
    · obtain ⟨-, rfl⟩ := guarded_eq_some.mp h
      exact .inl hserving
    · obtain ⟨-, rfl⟩ := guarded_eq_some.mp h
      exact .inl hserving
    · obtain ⟨-, rfl⟩ := guarded_eq_some.mp h
      exact .inr (.inl rfl)
    · exact .inr (.inr h)

private theorem shutDown_step (inv : c.ended = none → Inv late idleSecs c)
    (h : step late idleSecs c label = some d) : ShutDown idleSecs d := by
  obtain ⟨hserving, hended⟩ := step_ended h
  have hbefore := (inv hserving).shutDown hserving
  have hfound := (inv hserving).found
  obtain hended | rfl | hlook := hended
  · exact (inv_step inv h hended).shutDown hended
  · exact ⟨hbefore.requested, fun look hlook => by cases hlook⟩
  · obtain hended | ⟨look, hwatch, rfl⟩ := lookStep_ended hlook hserving
    · exact (inv_step inv h hended).shutDown hended
    · rw [hwatch] at hfound
      refine ⟨hbefore.requested, ?_⟩
      rintro _ ⟨⟩
      exact hfound

private theorem reachable_inv (h : Reachable (step late idleSecs) Connection.init c) :
    (c.ended = none → Inv late idleSecs c) ∧ ShutDown idleSecs c := by
  refine Reachable.invariant
    (P := fun c => (c.ended = none → Inv late idleSecs c) ∧ ShutDown idleSecs c) ?_ ?_ h
  · rintro c label d ⟨inv, -⟩ hstep
    exact ⟨inv_step inv hstep, shutDown_step inv hstep⟩
  · exact ⟨fun _ => inv_init late idleSecs, (inv_init late idleSecs).shutDown rfl⟩

private theorem Inv.now_lt (inv : Inv late idleSecs c) (hquiet : c.Quiet) :
    c.now < c.activeUntil + (idleSecs + 30) * 1000000000 + 4 * late + 1000000 := by
  have hdue := inv.due
  cases hrequested : c.shutdownRequestedAt with
  | none =>
    have hawake := (inv.awake hrequested).2 hquiet
    simp only [watchdogTick] at hdue
    omega
  | some at_ =>
    have hasked := (inv.requested at_ hrequested).2.2 hquiet
    have hgraced := inv.graced at_ hrequested hquiet
    simp only [watchdogTick, shutdownGrace] at hdue hasked hgraced
    omega

private theorem exists_lookStep (hserving : c.ended = none)
    (hdue : c.tickedAt + watchdogTick ≤ c.now) :
    ∃ label ∈ lookParts, (step late idleSecs c label).isSome = true := by
  cases hwatch : c.watch with
  | sleeping =>
    refine ⟨.wake, by decide, ?_⟩
    simp only [step, hserving, Connection.lookStep]
    rw [guarded, if_pos ⟨hwatch, hdue⟩]
    rfl
  | woken =>
    refine ⟨.loadCount, by decide, ?_⟩
    simp only [step, hserving, Connection.lookStep]
    rw [guarded, if_pos hwatch]
    rfl
  | quiet live =>
    refine ⟨.readClock, by decide, ?_⟩
    simp only [step, hserving, Connection.lookStep, hwatch]
    rfl
  | clocked live clock =>
    refine ⟨.compare, by decide, ?_⟩
    simp only [step, hserving, Connection.lookStep, hwatch]
    rfl
  | requesting look =>
    refine ⟨.act, by decide, ?_⟩
    simp only [step, hserving, Connection.lookStep, hwatch]
    rfl
  | breaking look =>
    refine ⟨.act, by decide, ?_⟩
    simp only [step, hserving, Connection.lookStep, hwatch]
    rfl

/-- A connection is shut down only on a look that counted no stream, once the idle time was over at
the clock of the look, and dropped only on such a look once the grace was; a look that counts a
stream does nothing but go to sleep again; a look that is due goes on; and a connection without a
stream ends within the idle time, thirty seconds, and four times the lateness of a look. -/
theorem idle_connection_bounded (h : Reachable (step late idleSecs) Connection.init c) :
    ShutDown idleSecs c ∧
      (∀ d, step late idleSecs c .loadCount = some d → c.live ≠ [] → d = c.sleep) ∧
      (c.ended = none → c.tickedAt + watchdogTick ≤ c.now →
        ∃ label ∈ lookParts, (step late idleSecs c label).isSome = true) ∧
      (c.ended = none → c.Quiet →
        c.now < c.activeUntil + (idleSecs + 30) * 1000000000 + 4 * late + 1000000) := by
  obtain ⟨inv, hshut⟩ := reachable_inv h
  refine ⟨hshut, ?_, exists_lookStep, fun hserving hquiet => (inv hserving).now_lt hquiet⟩
  intro d hstep hlive
  obtain ⟨hserving, -⟩ := step_ended hstep
  simp only [step, hserving] at hstep
  obtain ⟨-, rfl⟩ := guarded_eq_some.mp hstep
  refine if_pos ?_
  rw [(inv hserving).counted]
  exact List.length_pos_iff.mpr hlive

/-- A stream of forty seconds, then nothing; each look comes a second late. -/
def longStream : List Label :=
  let late : List Label := [.advance 5000000000, .advance 1000000000]
  let looks : Nat → Nat → List Label := fun parts n =>
    (List.replicate n (late ++ lookParts.take parts)).flatten
  [.start 1, .count 1, .frame 1] ++ looks 2 6 ++ [.advance 4000000000, .countOff 1, .touch 1] ++
    [.advance 2000000000] ++ lookParts.take 4 ++ looks 4 5 ++ [.act] ++ looks 4 2

/-- The connection is asked to shut down some thirty seconds after the stream, and is still in its
grace. -/
theorem longStream_bounded : ∃ c,
    exec (step 1000000000 30) Connection.init longStream = some c ∧ c.ended = none ∧ c.Quiet ∧
      c.shutdownRequestedAt = some 72000000000 ∧ c.now = 84000000000 ∧
      ShutDown 30 c ∧
      c.now < c.activeUntil + (30 + 30) * 1000000000 + 4 * 1000000000 + 1000000 := by
  have hrun : exec (step 1000000000 30) Connection.init longStream = some
      ⟨84000000000, 0, 40000, [], [], [], .sleeping, 84000000000, some 72000000000,
        some ⟨[], 72000000000, 40000000000⟩, none⟩ := by
    decide +kernel
  have hbounded := idle_connection_bounded ⟨longStream, hrun⟩
  exact ⟨_, hrun, rfl, ⟨rfl, rfl, rfl⟩, rfl, rfl, hbounded.1, hbounded.2.2.2 rfl ⟨rfl, rfl, rfl⟩⟩

end Llamesh.Api.H2c
