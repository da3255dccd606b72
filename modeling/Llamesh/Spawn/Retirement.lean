import Llamesh.Library.Run

/-!
# The announcement of retired capacity

`retire_instances` (`src/node_state/mod.rs:1310–1360`) hands the victims it was given, with the
write lock of the map, to a task of its own, so that a caller that is dropped leaves no half-stopped
instance behind. The task gives the ports and the lock back, stops every victim and waits until its
memory is released. Then the capacity is announced (`notify_retired_capacity`): by the task itself,
or, for an eviction in favour of the caller, when the `RetirementWake` is dropped that the caller
receives and keeps until it has claimed the capacity (`src/node_state/mod.rs:78–93,2499–2650`).

The wake goes through a oneshot channel. It is dropped by the task when the receiver is gone, with
the channel when the receiver is dropped before it has read, and by the caller otherwise.

Announced means `notify_retired_capacity` only. `stop_and_cleanup_instance` also triggers gossip for
every victim, before its memory is released (`src/node_state/mod.rs:1305–1306`); that trigger wakes
no queue, and the step `.stop` leaves it out.
-/

namespace Llamesh.Spawn.Retirement

open Transition

/-- The detached task. -/
inductive TaskPc where
  /-- Giving ports back, with the lock of the map. -/
  | locked
  | stopping
  /-- The first victim left is stopped. -/
  | waiting
  /-- Before `notify_retired_capacity`, without a wake. -/
  | announcing
  | done
deriving DecidableEq, Repr

/-- The receiver of the channel. -/
inductive Receiver where
  | pending
  | received
  | dropped
deriving DecidableEq, Repr

/-- Where the announcement is: not due, in the channel, with the caller, in a task of its own, or
made. -/
inductive Wake where
  | none
  | sent
  | held
  | spawned
  | notified
deriving DecidableEq, Repr

/-- One call of `retire_instances`. -/
structure Call where
  owner : Nat
  deferWake : Bool
  victims : List Nat
  portsLeft : List Nat
  stopsLeft : List Nat
  /-- The victims whose memory is not released. -/
  unreleased : List Nat
  task : TaskPc
  receiver : Receiver
  wake : Wake
  notifications : Nat
deriving DecidableEq, Repr

/-- All calls, the callers that have returned or were dropped, and who has the lock of the map. -/
structure Node where
  calls : List Call
  ended : List Nat
  lock : Option Nat

/-- No instance was retired yet. -/
def Node.init : Node := ⟨[], [], none⟩

/-- What can happen to a call. -/
inductive Event where
  | releasePort
  | unlock
  | stop
  /-- The reservation of a victim is released: its process was reaped. -/
  | reaped (victim : Nat)
  | waited
  | finish
  | announce
  | receive
  /-- The task that a dropped wake has spawned. -/
  | notify
deriving DecidableEq, Repr

/-- What can happen. -/
inductive Label where
  | retire (owner : Nat) (deferWake : Bool) (victims : List Nat)
  | event (i : Nat) (e : Event)
  /-- A caller is done with its admission, fails, or is dropped at an await. -/
  | finished (owner : Nat)

/-- A call as it begins. -/
def Call.begin (owner : Nat) (deferWake : Bool) (victims : List Nat) : Call where
  owner := owner
  deferWake := deferWake
  victims := victims
  portsLeft := victims
  stopsLeft := victims
  unreleased := victims
  task := .locked
  receiver := .pending
  wake := .none
  notifications := 0

/-- The send of the wake, which gives it back when the receiver is gone. -/
def Call.send (c : Call) : Call :=
  { c with task := .done, wake := if c.receiver = .dropped then .spawned else .sent }

/-- One event. `src/node_state/mod.rs:1319–1355`. -/
def Call.step (c : Call) : Event → Option Call
  | .releasePort =>
    match c.portsLeft with
    | _ :: rest => guarded (c.task = .locked) { c with portsLeft := rest }
    | [] => none
  | .unlock => guarded (c.task = .locked ∧ c.portsLeft = []) { c with task := .stopping }
  | .stop => guarded (c.task = .stopping ∧ c.stopsLeft ≠ []) { c with task := .waiting }
  | .reaped victim => some { c with unreleased := c.unreleased.filter (· ≠ victim) }
  | .waited =>
    match c.stopsLeft with
    | victim :: rest =>
      guarded (c.task = .waiting ∧ victim ∉ c.unreleased)
        { c with task := .stopping, stopsLeft := rest }
    | [] => none
  | .finish =>
    guarded (c.task = .stopping ∧ c.stopsLeft = [])
      (if c.deferWake then c.send else { c with task := .announcing })
  | .announce =>
    guarded (c.task = .announcing)
      { c with task := .done, wake := .notified, notifications := c.notifications + 1 }
  | .receive =>
    guarded (c.task = .done ∧ c.receiver = .pending)
      { c with receiver := .received, wake := if c.wake = .sent then .held else c.wake }
  | .notify =>
    guarded (c.wake = .spawned)
      { c with wake := .notified, notifications := c.notifications + 1 }

/-- The receiver and a wake that was received are dropped with the caller. -/
def Call.drop (c : Call) : Call :=
  { c with
    receiver := if c.receiver = .pending then .dropped else c.receiver
    wake := if c.wake = .sent ∨ c.wake = .held then .spawned else c.wake }

/-- The lock after an event of call `i`. -/
def Node.lockAfter (s : Node) (i : Nat) : Event → Option Nat
  | .unlock => if s.lock = some i then none else s.lock
  | _ => s.lock

/-- One step. A caller awaits one call before it begins another. -/
def step (s : Node) : Label → Option Node
  | .retire owner deferWake victims =>
    guarded (s.lock = none ∧ owner ∉ s.ended ∧
        ∀ c ∈ s.calls, c.owner = owner → c.receiver ≠ .pending)
      { s with
        calls := s.calls ++ [.begin owner deferWake victims]
        lock := some s.calls.length }
  | .event i e =>
    (s.calls[i]?).bind fun c =>
      (c.step e).map fun c' => { s with calls := s.calls.set i c', lock := s.lockAfter i e }
  | .finished owner =>
    guarded (owner ∉ s.ended)
      { s with
        calls := s.calls.map fun c => if c.owner = owner then c.drop else c
        ended := owner :: s.ended }

/-! ## The invariant -/

/-- What holds of a call; `ended` is whether its caller is. -/
structure CallInv (ended : Prop) (c : Call) : Prop where
  ports : c.task ≠ .locked → c.portsLeft = []
  /-- What is not waited for is released. -/
  released : ∀ v ∈ c.victims, v ∈ c.stopsLeft ∨ v ∉ c.unreleased
  stopped : c.task = .announcing ∨ c.task = .done → c.stopsLeft = []
  undue : c.task ≠ .done → c.wake = .none
  due : c.task = .done → c.wake ≠ .none
  counted : c.notifications = if c.wake = .notified then 1 else 0
  /-- A wake in the channel or with the caller goes when the caller does. -/
  owned : c.wake = .sent ∨ c.wake = .held → ¬ ended
  sent : c.wake = .sent → c.receiver = .pending
  unread : c.task ≠ .done → c.receiver ≠ .received
  dropped : ended → c.receiver ≠ .pending
  gone : c.receiver = .dropped → ended
  /-- A wake is dropped only with its caller. -/
  deferred : c.deferWake = true → c.wake = .spawned ∨ c.wake = .notified → ended
  eager : c.task = .announcing → c.deferWake = false
  undeferred : c.deferWake = false → c.wake = .none ∨ c.wake = .notified

variable {ended : Prop} {c c' : Call} {e : Event}

private theorem callInv_begin (owner : Nat) (deferWake : Bool) (victims : List Nat)
    (hended : ¬ ended) : CallInv ended (.begin owner deferWake victims) where
  ports := fun h => absurd rfl h
  released := fun v hv => .inl hv
  stopped := fun h => by rcases h with h | h <;> cases h
  undue := fun _ => rfl
  due := fun h => by cases h
  counted := rfl
  owned := fun _ => hended
  sent := fun h => by cases h
  unread := fun _ h => by cases h
  dropped := fun h => absurd h hended
  gone := fun h => by cases h
  deferred := fun _ h => by rcases h with h | h <;> cases h
  eager := fun h => by cases h
  undeferred := fun _ => .inl rfl

private theorem callInv_task {task : TaskPc} {ports stops unreleased : List Nat}
    (inv : CallInv ended c) (hnot : c.task ≠ .done) (htask : task ≠ .done)
    (hports : task ≠ .locked → ports = [])
    (hreleased : ∀ v ∈ c.victims, v ∈ stops ∨ v ∉ unreleased)
    (hstopped : task = .announcing → stops = [] ∧ c.deferWake = false) :
    CallInv ended { c with
      task := task, portsLeft := ports, stopsLeft := stops, unreleased := unreleased } := by
  have hwake : c.wake = .none := inv.undue hnot
  exact { inv with
    ports := hports
    released := hreleased
    stopped := fun h => h.elim (fun h => (hstopped h).1) fun h => absurd h htask
    undue := fun _ => hwake
    due := fun h => absurd h htask
    unread := fun _ => inv.unread hnot
    eager := fun h => (hstopped h).2 }

private theorem callInv_reaped (inv : CallInv ended c) (victim : Nat) :
    CallInv ended { c with unreleased := c.unreleased.filter (· ≠ victim) } := by
  refine { inv with released := fun v hv => ?_ }
  refine (inv.released v hv).imp_right fun hnot hmem => ?_
  exact hnot (List.mem_filter.mp hmem).1

private theorem callInv_send (inv : CallInv ended c) (htask : c.task = .stopping)
    (hstops : c.stopsLeft = []) (hdefer : c.deferWake = true) : CallInv ended c.send := by
  have hnot : c.task ≠ .done := by
    rw [htask]
    decide
  have hwake : c.wake = .none := inv.undue hnot
  have hcounted : c.notifications = 0 := by
    rw [inv.counted, hwake]
    rfl
  have hports : c.portsLeft = [] := inv.ports (by rw [htask]; decide)
  unfold Call.send
  by_cases hdropped : c.receiver = .dropped
  · rw [if_pos hdropped]
    have hended : ended := inv.gone hdropped
    exact
      { ports := fun _ => hports
        released := inv.released
        stopped := fun _ => hstops
        undue := fun h => absurd rfl h
        due := fun _ h => by cases h
        counted := hcounted
        owned := fun h => by rcases h with h | h <;> cases h
        sent := fun h => by cases h
        unread := fun h => absurd rfl h
        dropped := inv.dropped
        gone := inv.gone
        deferred := fun _ _ => hended
        eager := fun h => by cases h
        undeferred := fun h => by rw [hdefer] at h; cases h }
  · rw [if_neg hdropped]
    have hpending : c.receiver = .pending := by
      cases hreceiver : c.receiver with
      | pending => rfl
      | received => exact absurd hreceiver (inv.unread hnot)
      | dropped => exact absurd hreceiver hdropped
    exact
      { ports := fun _ => hports
        released := inv.released
        stopped := fun _ => hstops
        undue := fun h => absurd rfl h
        due := fun _ h => by cases h
        counted := hcounted
        owned := fun _ hended => inv.dropped hended hpending
        sent := fun _ => hpending
        unread := fun h => absurd rfl h
        dropped := inv.dropped
        gone := inv.gone
        deferred := fun _ h => by rcases h with h | h <;> cases h
        eager := fun h => by cases h
        undeferred := fun h => by rw [hdefer] at h; cases h }

private theorem callInv_announce (inv : CallInv ended c) (htask : c.task = .announcing) :
    CallInv ended { c with
      task := .done, wake := .notified, notifications := c.notifications + 1 } := by
  have hwake : c.wake = .none := inv.undue (by rw [htask]; decide)
  have hcounted : c.notifications = 0 := by
    rw [inv.counted, hwake]
    rfl
  have heager := inv.eager htask
  exact
    { ports := fun _ => inv.ports (by rw [htask]; decide)
      released := inv.released
      stopped := fun _ => inv.stopped (.inl htask)
      undue := fun h => absurd rfl h
      due := fun _ h => by cases h
      counted := by
        change c.notifications + 1 = 1
        rw [hcounted]
      owned := fun h => by rcases h with h | h <;> cases h
      sent := fun h => by cases h
      unread := fun h => absurd rfl h
      dropped := inv.dropped
      gone := inv.gone
      deferred := fun hdefer => by
        change c.deferWake = true at hdefer
        rw [heager] at hdefer
        cases hdefer
      eager := fun h => by cases h
      undeferred := fun _ => .inr rfl }

private theorem callInv_receive (inv : CallInv ended c) (htask : c.task = .done)
    (hpending : c.receiver = .pending) :
    CallInv ended { c with
      receiver := .received, wake := if c.wake = .sent then .held else c.wake } := by
  have hnot : ¬ ended := fun hended => inv.dropped hended hpending
  by_cases hsent : c.wake = .sent
  · rw [if_pos hsent]
    exact { inv with
      undue := fun h => absurd htask h
      due := fun _ h => by cases h
      counted := by
        have hcounted := inv.counted
        rw [hsent] at hcounted
        exact hcounted
      owned := fun _ => hnot
      sent := fun h => by cases h
      unread := fun h => absurd htask h
      dropped := fun hended => absurd hended hnot
      gone := fun h => by cases h
      deferred := fun _ h => by rcases h with h | h <;> cases h
      undeferred := fun heager => by
        have hwake := inv.undeferred heager
        rw [hsent] at hwake
        rcases hwake with h | h <;> cases h }
  · rw [if_neg hsent]
    exact { inv with
      sent := fun h => absurd h hsent
      unread := fun h => absurd htask h
      dropped := fun hended => absurd hended hnot
      gone := fun h => by cases h }

private theorem callInv_notify (inv : CallInv ended c) (hspawned : c.wake = .spawned) :
    CallInv ended { c with wake := .notified, notifications := c.notifications + 1 } := by
  have hcounted : c.notifications = 0 := by
    rw [inv.counted, hspawned]
    rfl
  exact { inv with
    undue := fun h => by
      have hwake := inv.undue h
      rw [hspawned] at hwake
      cases hwake
    due := fun _ h => by cases h
    counted := by
      change c.notifications + 1 = 1
      rw [hcounted]
    owned := fun h => by rcases h with h | h <;> cases h
    sent := fun h => by cases h
    deferred := fun hdefer _ => inv.deferred hdefer (.inl hspawned)
    undeferred := fun _ => .inr rfl }

private theorem callInv_step (inv : CallInv ended c) (h : c.step e = some c') :
    CallInv ended c' := by
  cases e with
  | releasePort =>
    simp only [Call.step] at h
    split at h
    · obtain ⟨htask, rfl⟩ := guarded_eq_some.mp h
      exact callInv_task inv (by rw [htask]; decide) (by rw [htask]; decide)
        (fun hne => absurd htask hne) inv.released fun h => by rw [htask] at h; cases h
    · cases h
  | unlock =>
    obtain ⟨⟨htask, hports⟩, rfl⟩ := guarded_eq_some.mp h
    exact callInv_task inv (by rw [htask]; decide) (by decide) (fun _ => hports) inv.released
      fun h => by cases h
  | stop =>
    obtain ⟨⟨htask, -⟩, rfl⟩ := guarded_eq_some.mp h
    have hports := inv.ports (by rw [htask]; decide)
    exact callInv_task inv (by rw [htask]; decide) (by decide) (fun _ => hports) inv.released
      fun h => by cases h
  | reaped victim =>
    cases h
    exact callInv_reaped inv victim
  | waited =>
    simp only [Call.step] at h
    split at h
    · next victim rest hstops =>
      obtain ⟨⟨htask, hnot⟩, rfl⟩ := guarded_eq_some.mp h
      have hports := inv.ports (by rw [htask]; decide)
      refine callInv_task inv (by rw [htask]; decide) (by decide) (fun _ => hports) ?_
        fun h => by cases h
      intro v hv
      rcases inv.released v hv with hmem | hreleased
      · rw [hstops] at hmem
        rcases List.mem_cons.mp hmem with rfl | hrest
        · exact .inr hnot
        · exact .inl hrest
      · exact .inr hreleased
    · cases h
  | finish =>
    obtain ⟨⟨htask, hstops⟩, rfl⟩ := guarded_eq_some.mp h
    by_cases hdefer : c.deferWake = true
    · rw [if_pos hdefer]
      exact callInv_send inv htask hstops hdefer
    · rw [if_neg hdefer]
      have hports := inv.ports (by rw [htask]; decide)
      exact callInv_task inv (by rw [htask]; decide) (by decide) (fun _ => hports) inv.released
        fun _ => ⟨hstops, Bool.not_eq_true _ ▸ hdefer⟩
  | announce =>
    obtain ⟨htask, rfl⟩ := guarded_eq_some.mp h
    exact callInv_announce inv htask
  | receive =>
    obtain ⟨⟨htask, hpending⟩, rfl⟩ := guarded_eq_some.mp h
    exact callInv_receive inv htask hpending
  | notify =>
    obtain ⟨hspawned, rfl⟩ := guarded_eq_some.mp h
    exact callInv_notify inv hspawned

private theorem callInv_drop (inv : CallInv False c) : CallInv True c.drop := by
  have hreceiver : c.drop.receiver ≠ .pending := by
    simp only [Call.drop]
    split
    · decide
    · assumption
  have hunread : c.task ≠ .done → c.drop.receiver ≠ .received := by
    intro htask
    simp only [Call.drop]
    split
    · decide
    · exact inv.unread htask
  by_cases hwake : c.wake = .sent ∨ c.wake = .held
  · have hspawned : c.drop.wake = .spawned := if_pos hwake
    have hnone : c.wake ≠ .none := by rcases hwake with h | h <;> (rw [h]; decide)
    have hcounted : c.notifications = 0 := by
      rw [inv.counted, if_neg (by rcases hwake with h | h <;> (rw [h]; decide))]
    exact
      { ports := inv.ports
        released := inv.released
        stopped := inv.stopped
        undue := fun h => absurd (inv.undue h) hnone
        due := fun _ h => by rw [hspawned] at h; cases h
        counted := by
          rw [hspawned]
          exact hcounted
        owned := fun h => by rw [hspawned] at h; rcases h with h | h <;> cases h
        sent := fun h => by rw [hspawned] at h; cases h
        unread := hunread
        dropped := fun _ => hreceiver
        gone := fun _ => trivial
        deferred := fun _ _ => trivial
        eager := inv.eager
        undeferred := fun heager => by
          have hquiet := inv.undeferred heager
          rcases hwake with h | h <;> (rw [h] at hquiet; rcases hquiet with h | h <;> cases h) }
  · have hsame : c.drop.wake = c.wake := if_neg hwake
    exact
      { ports := inv.ports
        released := inv.released
        stopped := inv.stopped
        undue := fun h => hsame.trans (inv.undue h)
        due := fun h => hsame ▸ inv.due h
        counted := by
          rw [hsame]
          exact inv.counted
        owned := fun h => absurd (hsame ▸ h) hwake
        sent := fun h => absurd (.inl (hsame ▸ h)) hwake
        unread := hunread
        dropped := fun _ => hreceiver
        gone := fun _ => trivial
        deferred := fun _ _ => trivial
        eager := inv.eager
        undeferred := fun heager => hsame ▸ inv.undeferred heager }

/-! ## Every interleaving -/

/-- The invariant of the node. -/
structure Inv (s : Node) : Prop where
  calls : ∀ c ∈ s.calls, CallInv (c.owner ∈ s.ended) c
  /-- The lock is with a call until its ports are given back. -/
  locked : ∀ i c, s.calls[i]? = some c → c.task = .locked → s.lock = some i

variable {s t : Node} {label : Label}

private theorem owner_step (h : c.step e = some c') : c'.owner = c.owner := by
  cases e with
  | releasePort | waited =>
    simp only [Call.step] at h
    split at h
    · obtain ⟨-, rfl⟩ := guarded_eq_some.mp h
      rfl
    · cases h
  | reaped victim =>
    cases h
    rfl
  | finish =>
    obtain ⟨-, rfl⟩ := guarded_eq_some.mp h
    split <;> rfl
  | unlock | stop | announce | receive | notify =>
    obtain ⟨-, rfl⟩ := guarded_eq_some.mp h
    rfl

private theorem locked_of_step (h : c.step e = some c') (hlocked : c'.task = .locked) :
    c.task = .locked ∧ e ≠ .unlock := by
  cases e with
  | releasePort =>
    simp only [Call.step] at h
    split at h
    · obtain ⟨-, rfl⟩ := guarded_eq_some.mp h
      exact ⟨hlocked, fun h => by cases h⟩
    · cases h
  | waited =>
    simp only [Call.step] at h
    split at h
    · obtain ⟨-, rfl⟩ := guarded_eq_some.mp h
      cases hlocked
    · cases h
  | reaped victim =>
    cases h
    exact ⟨hlocked, fun h => by cases h⟩
  | finish =>
    obtain ⟨-, rfl⟩ := guarded_eq_some.mp h
    by_cases hdefer : c.deferWake = true
    · rw [if_pos hdefer] at hlocked
      cases hlocked
    · rw [if_neg hdefer] at hlocked
      cases hlocked
  | unlock | stop | announce =>
    obtain ⟨-, rfl⟩ := guarded_eq_some.mp h
    cases hlocked
  | receive | notify =>
    obtain ⟨-, rfl⟩ := guarded_eq_some.mp h
    exact ⟨hlocked, fun h => by cases h⟩

private theorem inv_retire {owner : Nat} {deferWake : Bool} {victims : List Nat} (inv : Inv s)
    (hlock : s.lock = none) (hended : owner ∉ s.ended) :
    Inv { s with
      calls := s.calls ++ [.begin owner deferWake victims]
      lock := some s.calls.length } := by
  refine ⟨fun c hc => ?_, fun i c hi htask => ?_⟩
  · rcases List.mem_append.mp hc with hc | hc
    · exact inv.calls c hc
    · rw [List.mem_singleton.mp hc]
      exact callInv_begin owner deferWake victims hended
  · change (s.calls ++ [.begin owner deferWake victims])[i]? = some c at hi
    rcases Nat.lt_or_ge i s.calls.length with hlt | hge
    · -- the lock was free, so no earlier call has it
      rw [List.getElem?_append_left hlt] at hi
      have hheld := inv.locked i c hi htask
      rw [hlock] at hheld
      cases hheld
    · have hlt := (List.getElem?_eq_some_iff.mp hi).1
      rw [List.length_append, List.length_singleton] at hlt
      exact congrArg some (by omega)

private theorem inv_event {i : Nat} (inv : Inv s) (hi : s.calls[i]? = some c)
    (hstep : c.step e = some c') :
    Inv { s with calls := s.calls.set i c', lock := s.lockAfter i e } := by
  have howner := owner_step hstep
  have hcall := callInv_step (inv.calls c (List.mem_of_getElem? hi)) hstep
  refine ⟨fun d hd => ?_, fun j d hj htask => ?_⟩
  · rcases List.mem_or_eq_of_mem_set hd with hd | rfl
    · exact inv.calls d hd
    · rwa [← howner] at hcall
  · change (s.calls.set i c')[j]? = some d at hj
    have hkeep : e ≠ .unlock ∨ j ≠ i → s.lock = some j → s.lockAfter i e = some j := by
      intro hother hlock
      cases e with
      | unlock =>
        have hne : s.lock ≠ some i := by
          rw [hlock]
          exact fun h => (hother.resolve_left fun h => h rfl) (Option.some.inj h)
        rw [Node.lockAfter, if_neg hne, hlock]
      | _ => exact hlock
    by_cases heq : j = i
    · subst heq
      rw [List.getElem?_set_self (List.getElem?_eq_some_iff.mp hi).1] at hj
      obtain rfl := Option.some.inj hj
      obtain ⟨hlocked, hne⟩ := locked_of_step hstep htask
      exact hkeep (.inl hne) (inv.locked j c hi hlocked)
    · rw [List.getElem?_set_ne (Ne.symm heq)] at hj
      exact hkeep (.inr heq) (inv.locked j d hj htask)

private theorem inv_finished {owner : Nat} (inv : Inv s) (hended : owner ∉ s.ended) :
    Inv { s with
      calls := s.calls.map fun c => if c.owner = owner then c.drop else c
      ended := owner :: s.ended } := by
  refine ⟨fun d hd => ?_, fun j d hj htask => ?_⟩
  · obtain ⟨c, hc, rfl⟩ := List.mem_map.mp hd
    have hcall := inv.calls c hc
    by_cases howner : c.owner = owner
    · rw [if_pos howner]
      have hdropped := callInv_drop (c := c) (by simpa only [howner, hended] using hcall)
      have hmem : c.drop.owner ∈ owner :: s.ended := by
        change c.owner ∈ owner :: s.ended
        rw [howner]
        exact List.mem_cons_self
      simpa only [hmem] using hdropped
    · rw [if_neg howner]
      have hmem : (c.owner ∈ owner :: s.ended) = (c.owner ∈ s.ended) := by
        rw [List.mem_cons, eq_false howner, false_or]
      rwa [← hmem] at hcall
  · change (s.calls.map _)[j]? = some d at hj
    rw [List.getElem?_map, Option.map_eq_some_iff] at hj
    obtain ⟨c, hc, rfl⟩ := hj
    refine inv.locked j c hc ?_
    by_cases howner : c.owner = owner
    · rwa [if_pos howner] at htask
    · rwa [if_neg howner] at htask

private theorem inv_step (inv : Inv s) (h : step s label = some t) : Inv t := by
  cases label with
  | retire owner deferWake victims =>
    obtain ⟨⟨hlock, hended, -⟩, rfl⟩ := guarded_eq_some.mp h
    exact inv_retire inv hlock hended
  | event i e =>
    obtain ⟨c, hi, hstep⟩ := Option.bind_eq_some_iff.mp h
    obtain ⟨c', hc', rfl⟩ := Option.map_eq_some_iff.mp hstep
    exact inv_event inv hi hc'
  | finished owner =>
    obtain ⟨hended, rfl⟩ := guarded_eq_some.mp h
    exact inv_finished inv hended

private theorem inv_init : Inv Node.init :=
  ⟨fun c hc => (by cases hc), fun i c hi => (by cases hi)⟩

/-- Capacity is announced once and only when all of it is given back: not while the caller it was
freed for is at work, but without fail when that caller is gone, however it went. No one takes the
lock of the map while the ports of removed instances are in use. -/
theorem retired_capacity_announced (h : Reachable step Node.init s) (hc : c ∈ s.calls) :
    (c.wake ≠ .none → c.portsLeft = [] ∧ ∀ v ∈ c.victims, v ∉ c.unreleased) ∧
    c.notifications ≤ 1 ∧
    (c.deferWake = true → c.owner ∉ s.ended → c.notifications = 0 ∧ c.wake ≠ .spawned) ∧
    (c.task = .done → c.deferWake = false ∨ c.owner ∈ s.ended →
      c.wake = .spawned ∨ c.notifications = 1) ∧
    (s.lock = none → c.portsLeft = []) := by
  have inv : Inv s := h.invariant (fun _ _ _ inv hstep => inv_step inv hstep) inv_init
  have hcall := inv.calls c hc
  have hcounted := hcall.counted
  refine ⟨fun hwake => ?_, ?_, fun hdefer hended => ?_, fun htask hgone => ?_, fun hlock => ?_⟩
  · have htask : c.task = .done := by
      by_contra hnot
      exact hwake (hcall.undue hnot)
    refine ⟨hcall.ports (by rw [htask]; decide), fun v hv => ?_⟩
    rcases hcall.released v hv with hmem | hreleased
    · rw [hcall.stopped (.inr htask)] at hmem
      cases hmem
    · exact hreleased
  · rw [hcounted]
    split
    · exact Nat.le_refl 1
    · exact Nat.zero_le 1
  · have hquiet := fun hwake => hended (hcall.deferred hdefer hwake)
    exact ⟨by rw [hcounted, if_neg fun h => hquiet (.inr h)], fun h => hquiet (.inl h)⟩
  · have hnotified : c.wake = .notified → c.notifications = 1 := fun h => by
      rw [hcounted, if_pos h]
    rcases hgone with heager | hended
    · exact .inr (hnotified ((hcall.undeferred heager).resolve_left (hcall.due htask)))
    · cases hwake : c.wake with
      | none => exact absurd hwake (hcall.due htask)
      | sent => exact absurd hended (hcall.owned (.inl hwake))
      | held => exact absurd hended (hcall.owned (.inr hwake))
      | spawned => exact .inl rfl
      | notified => exact .inr (hnotified hwake)
  · obtain ⟨i, hi⟩ := List.mem_iff_getElem?.mp hc
    refine hcall.ports fun hlocked => ?_
    have hheld := inv.locked i c hi hlocked
    rw [hlock] at hheld
    cases hheld

/-- A request evicts two instances and is cancelled when the wake is already in the channel. -/
def cancelledEviction : List Label :=
  [.retire 0 true [7, 8], .event 0 .releasePort, .event 0 .releasePort, .event 0 .unlock,
    .event 0 .stop, .event 0 (.reaped 8), .event 0 (.reaped 7), .event 0 .waited, .event 0 .stop,
    .event 0 .waited, .event 0 .finish, .finished 0]

/-- The wake is dropped with the channel. -/
theorem cancelledEviction_announced : ∃ s c, exec step Node.init cancelledEviction = some s ∧
    s.calls = [c] ∧ c.task = .done ∧ c.owner ∈ s.ended ∧ c.wake = .spawned ∧
    (∀ v ∈ c.victims, v ∉ c.unreleased) := by
  have hrun : exec step Node.init cancelledEviction = some
      ⟨[⟨0, true, [7, 8], [], [], [], .done, .dropped, .spawned, 0⟩], [0], none⟩ := by rfl
  refine ⟨_, _, hrun, rfl, rfl, List.mem_cons_self, rfl, ?_⟩
  exact ((retired_capacity_announced ⟨_, hrun⟩ List.mem_cons_self).1 (by decide)).2

end Llamesh.Spawn.Retirement
