import Llamesh.Waiters.Model

/-!
# What the tasks do

The steps by what they do to the state, with the guard of each: a request from the arrival to the
wake, in the attempt and after it, the waking tasks, and the instances. Every invariant is a case
split over these.
-/

namespace Llamesh.Waiters

open Transition

variable {maxConcurrent : Nat} {s t : State} {l : Label}

/-- What a step from the arrival to the wake does. -/
inductive QueueEffect (maxConcurrent : Nat) (s : State) : Label → State → Prop
  | arrive :
      QueueEffect maxConcurrent s .arrive
        { setRequest s s.next .checking with next := s.next + 1 }
  | checkQueue (id : Nat) (hpc : s.requests.lookup id = some .checking) :
      QueueEffect maxConcurrent s (.checkQueue id)
        (setRequest s id (if s.queue.isEmpty then .checkingPending else .yielding))
  | checkPending (id : Nat) (hpc : s.requests.lookup id = some .checkingPending) :
      QueueEffect maxConcurrent s (.checkPending id)
        (setRequest s id (if s.pending.isEmpty then .trying false else .yielding))
  | settle (id : Nat) (again : Bool) (hpc : s.requests.lookup id = some .yielding) :
      QueueEffect maxConcurrent s (.settle id again)
        (setRequest s id (if again then .checking else .joining false false))
  | enqueue (id : Nat) (recheck waited : Bool)
      (hpc : s.requests.lookup id = some (.joining recheck waited)) :
      QueueEffect maxConcurrent s (.enqueue id)
        { setRequest s id (.queued .silent (if recheck then .due else .done)) with
          queue := (s.queue.filter fun k => receiverAlive s k) ++ [id] }
  | readAvailable (id : Nat) (channel : Channel)
      (hpc : s.requests.lookup id = some (.queued channel .due)) :
      QueueEffect maxConcurrent s (.readAvailable id)
        (setRequest s id
          (.queued channel (.counted (availableReadySlots maxConcurrent s.instances))))
  | readPending (id waker : Nat) (channel : Channel) (available : Nat)
      (hpc : s.requests.lookup id = some (.queued channel (.counted available)))
      (hwaker : waker ∉ s.wakers) :
      QueueEffect maxConcurrent s (.readPending id waker)
        (if available - s.pending.length = 0 then setRequest s id (.queued channel .done)
        else setWaker (setRequest s id (.queued channel .done)) waker
          ⟨.popping, available - s.pending.length, false, true⟩)
  | receive (id : Nat) (hpc : s.requests.lookup id = some (.queued .permit .done)) :
      QueueEffect maxConcurrent s (.receive id) (setRequest s id (.trying true))
  | receiveClosed (id : Nat) (hpc : s.requests.lookup id = some (.queued .closed .done)) :
      QueueEffect maxConcurrent s (.receive id) (endRequest s id)
  | leave (id : Nat) (pc : Pc) (hpc : s.requests.lookup id = some pc)
      (hserving : ∀ token inst, pc ≠ .serving token inst) :
      QueueEffect maxConcurrent s (.leave id) (leaveStep s id pc)
  | removeEntry (id : Nat) (hid : id ∈ s.entryRemovers) :
      QueueEffect maxConcurrent s (.removeEntry id)
        { s with queue := remove s.queue id, entryRemovers := s.entryRemovers.erase id }
  | removeToken (id : Nat) (hid : id ∈ s.tokenRemovers) :
      QueueEffect maxConcurrent s (.removeToken id)
        { s with pending := remove s.pending id, tokenRemovers := s.tokenRemovers.erase id }

/-- Every step of the queue is one of its effects. -/
theorem queueStep_effect (h : queueStep maxConcurrent s l = some t) :
    QueueEffect maxConcurrent s l t := by
  cases l <;> simp only [queueStep, reduceCtorEq] at h
  case arrive =>
    cases h
    exact .arrive
  case checkQueue id =>
    split at h
    · next hpc =>
      cases h
      exact .checkQueue id hpc
    · cases h
  case checkPending id =>
    split at h
    · next hpc =>
      cases h
      exact .checkPending id hpc
    · cases h
  case settle id again =>
    split at h
    · next hpc =>
      cases h
      exact .settle id again hpc
    · cases h
  case enqueue id =>
    split at h
    · next recheck waited hpc =>
      cases h
      exact .enqueue id recheck waited hpc
    · cases h
  case readAvailable id =>
    split at h
    · next channel hpc =>
      cases h
      exact .readAvailable id channel hpc
    · cases h
  case readPending id waker =>
    split at h
    · next channel available hpc =>
      rw [guarded_eq_some] at h
      obtain ⟨hwaker, rfl⟩ := h
      exact .readPending id waker channel available hpc hwaker
    · cases h
  case receive id =>
    split at h
    · next hpc =>
      cases h
      exact .receive id hpc
    · next hpc =>
      cases h
      exact .receiveClosed id hpc
    · cases h
  case leave id =>
    split at h
    · cases h
    · next pc hserving hpc =>
      cases h
      exact .leave id pc hpc hserving
    · cases h
  case removeEntry id =>
    rw [guarded_eq_some] at h
    obtain ⟨hid, rfl⟩ := h
    exact .removeEntry id hid
  case removeToken id =>
    rw [guarded_eq_some] at h
    obtain ⟨hid, rfl⟩ := h
    exact .removeToken id hid

/-- What a step of the attempt does. -/
inductive AttemptEffect (maxConcurrent : Nat) (s : State) : Label → State → Prop
  | lock (id : Nat) (token : Bool) (hpc : s.requests.lookup id = some (.trying token))
      (hlock : s.lock = none) :
      AttemptEffect maxConcurrent s (.lock id)
        { setRequest s id (.locked token) with lock := some id }
  | keepTurn (id : Nat) (hpc : s.requests.lookup id = some (.locked true)) :
      AttemptEffect maxConcurrent s (.recheckQueue id) (setRequest s id (.passed true))
  | queueEmpty (id : Nat) (hpc : s.requests.lookup id = some (.locked false))
      (hqueue : s.queue.isEmpty = true) :
      AttemptEffect maxConcurrent s (.recheckQueue id) (setRequest s id .lockedPending)
  | queueBusy (id : Nat) (hpc : s.requests.lookup id = some (.locked false))
      (hqueue : s.queue.isEmpty ≠ true) :
      AttemptEffect maxConcurrent s (.recheckQueue id)
        { setRequest s id (.joining false false) with lock := none }
  | pendingEmpty (id : Nat) (hpc : s.requests.lookup id = some .lockedPending)
      (hpending : s.pending.isEmpty = true) :
      AttemptEffect maxConcurrent s (.recheckPending id) (setRequest s id (.passed false))
  | pendingBusy (id : Nat) (hpc : s.requests.lookup id = some .lockedPending)
      (hpending : s.pending.isEmpty ≠ true) :
      AttemptEffect maxConcurrent s (.recheckPending id)
        { setRequest s id (.joining false false) with lock := none }
  | beginScan (id : Nat) (order : List Nat) (token : Bool)
      (hpc : s.requests.lookup id = some (.passed token)) (horder : order.Perm s.instances.keys) :
      AttemptEffect maxConcurrent s (.beginScan id order)
        (setRequest s id (.scanning token order none))
  | scan (id : Nat) (token : Bool) (inst : Nat) (rest : List Nat) (best : Option (Nat × Nat))
      (hpc : s.requests.lookup id = some (.scanning token (inst :: rest) best)) :
      AttemptEffect maxConcurrent s (.scan id)
        (setRequest s id (.scanning token rest (better maxConcurrent s.instances best inst)))
  | acquire (id : Nat) (token : Bool) (inst seen : Nat) (i : Instance)
      (hpc : s.requests.lookup id = some (.scanning token [] (some (inst, seen))))
      (hinst : s.instances.lookup inst = some i) (hroom : acquirable maxConcurrent i = true) :
      AttemptEffect maxConcurrent s (.choose id)
        { setRequest s id (.serving token inst) with
          lock := none
          instances := s.instances.insert inst { i with inFlight := i.inFlight + 1 } }
  | noneFits (id : Nat) (token : Bool) (best : Option (Nat × Nat))
      (hpc : s.requests.lookup id = some (.scanning token [] best)) :
      AttemptEffect maxConcurrent s (.choose id) (setRequest s id (.planning token))
  | admitted (id : Nat) (token : Bool) (hpc : s.requests.lookup id = some (.planning token)) :
      AttemptEffect maxConcurrent s (.admitted id)
        { setRequest s id (.spawning token) with lock := none }
  | blocked (id : Nat) (token : Bool) (hpc : s.requests.lookup id = some (.planning token)) :
      AttemptEffect maxConcurrent s (.blocked id)
        { setRequest s id (.afterBlock token) with lock := none }
  | evict (id : Nat) (token : Bool)
      (hpc : s.requests.lookup id = some (.passed token) ∨
        s.requests.lookup id = some (.planning token)) :
      AttemptEffect maxConcurrent s (.evict id)
        { setRequest s id (.retiring token) with lock := none }
  | reaped (id : Nat) (token : Bool) (hpc : s.requests.lookup id = some (.retiring token)) :
      AttemptEffect maxConcurrent s (.reaped id) (setRequest s id (.trying token))
  | replan (id : Nat) (token : Bool) (hpc : s.requests.lookup id = some (.planning token)) :
      AttemptEffect maxConcurrent s (.replan id)
        { setRequest s id (.trying token) with lock := none }

/-- Every step of an attempt is one of its effects. -/
theorem attemptStep_effect (h : attemptStep maxConcurrent s l = some t) :
    AttemptEffect maxConcurrent s l t := by
  cases l <;> simp only [attemptStep, reduceCtorEq] at h
  case lock id =>
    split at h
    · next token hpc =>
      rw [guarded_eq_some] at h
      obtain ⟨hlock, rfl⟩ := h
      exact .lock id token hpc hlock
    · cases h
  case recheckQueue id =>
    split at h
    · next hpc =>
      cases h
      exact .keepTurn id hpc
    · next hpc =>
      cases h
      split
      · next hqueue => exact .queueEmpty id hpc hqueue
      · next hqueue => exact .queueBusy id hpc hqueue
    · cases h
  case recheckPending id =>
    split at h
    · next hpc =>
      cases h
      split
      · next hpending => exact .pendingEmpty id hpc hpending
      · next hpending => exact .pendingBusy id hpc hpending
    · cases h
  case beginScan id order =>
    split at h
    · next token hpc =>
      rw [guarded_eq_some] at h
      obtain ⟨horder, rfl⟩ := h
      exact .beginScan id order token hpc horder
    · cases h
  case scan id =>
    split at h
    · next token inst rest best hpc =>
      cases h
      exact .scan id token inst rest best hpc
    · cases h
  case choose id =>
    split at h
    · next token best hpc =>
      split at h
      · next inst i hbest =>
        cases h
        simp only [Option.bind_eq_some_iff, Option.map_eq_some_iff, Prod.mk.injEq] at hbest
        obtain ⟨⟨inst, seen⟩, rfl, i, hinst, rfl, rfl⟩ := hbest
        split
        · next hroom => exact .acquire id token inst seen i hpc hinst hroom
        · exact .noneFits id token _ hpc
      · cases h
        exact .noneFits id token best hpc
    · cases h
  case admitted id =>
    split at h
    · next token hpc =>
      cases h
      exact .admitted id token hpc
    · cases h
  case blocked id =>
    split at h
    · next token hpc =>
      cases h
      exact .blocked id token hpc
    · cases h
  case evict id =>
    split at h
    · next token hpc =>
      cases h
      exact .evict id token (.inl hpc)
    · next token hpc =>
      cases h
      exact .evict id token (.inr hpc)
    · cases h
  case reaped id =>
    split at h
    · next token hpc =>
      cases h
      exact .reaped id token hpc
    · cases h
  case replan id =>
    split at h
    · next token hpc =>
      cases h
      exact .replan id token hpc
    · cases h

/-- What a step after the attempt does. -/
inductive ServeEffect (s : State) : Label → State → Prop
  | spawned (id inst : Nat) (draining token : Bool)
      (hpc : s.requests.lookup id = some (.spawning token)) (hnew : inst ∉ s.instances) :
      ServeEffect s (.spawned id inst draining)
        { setRequest s id (.serving token inst) with
          instances := s.instances.insert inst ⟨1, .starting, draining, true⟩ }
  | spawnBlocked (id : Nat) (token : Bool) (hpc : s.requests.lookup id = some (.spawning token)) :
      ServeEffect s (.spawnBlocked id) (setRequest s id (.afterBlock token))
  | giveBackServing (id inst : Nat) (hpc : s.requests.lookup id = some (.serving true inst)) :
      ServeEffect s (.giveBack id)
        { setRequest s id (.serving false inst) with pending := remove s.pending id }
  | giveBackBlocked (id : Nat) (hpc : s.requests.lookup id = some .returning) :
      ServeEffect s (.giveBack id)
        { setRequest s id (.joining true true) with pending := remove s.pending id }
  | finish (id waker : Nat) (afterLoad token : Bool) (inst : Nat)
      (hpc : s.requests.lookup id = some (.serving token inst)) (hwaker : waker ∉ s.wakers) :
      ServeEffect s (.finish id waker afterLoad)
        { endRequest s id with
          wakers := s.wakers.insert waker { pc := .releasing inst afterLoad, budget := 0 }
          tokenRemovers := if token then id :: s.tokenRemovers else s.tokenRemovers }
  | retry (id waker inst : Nat) (hpc : s.requests.lookup id = some (.serving false inst))
      (hwaker : waker ∉ s.wakers) :
      ServeEffect s (.retry id waker)
        { setRequest s id .checking with
          wakers := s.wakers.insert waker { pc := .releasing inst true, budget := 0 } }
  | park (id waker inst : Nat) (hpc : s.requests.lookup id = some (.serving false inst))
      (hwaker : waker ∉ s.wakers) :
      ServeEffect s (.park id waker)
        { setRequest s id .parked with
          wakers := s.wakers.insert waker { pc := .releasing inst true, budget := 0 } }
  | unpark (id : Nat) (hpc : s.requests.lookup id = some .parked) :
      ServeEffect s (.unpark id) (setRequest s id .checking)
  | dropChecking (id waker : Nat) (hpc : s.requests.lookup id = some .checking)
      (hwaker : waker ∉ s.wakers) :
      ServeEffect s (.dropProfile id waker)
        { endRequest s id with
          wakers := s.wakers.insert waker { pc := .popping, budget := 1 } }
  | dropTrying (id waker : Nat) (token : Bool)
      (hpc : s.requests.lookup id = some (.trying token)) (hwaker : waker ∉ s.wakers) :
      ServeEffect s (.dropProfile id waker)
        { endRequest s id with
          pending := if token then remove s.pending id else s.pending
          wakers := s.wakers.insert waker { pc := .popping, budget := 1 } }

/-- Every step of a served request is one of its effects. -/
theorem serveStep_effect (h : serveStep s l = some t) : ServeEffect s l t := by
  cases l <;> simp only [serveStep, reduceCtorEq] at h
  case spawned id inst draining =>
    split at h
    · next token hpc =>
      rw [guarded_eq_some] at h
      obtain ⟨hnew, rfl⟩ := h
      exact .spawned id inst draining token hpc hnew
    · cases h
  case spawnBlocked id =>
    split at h
    · next token hpc =>
      cases h
      exact .spawnBlocked id token hpc
    · cases h
  case giveBack id =>
    split at h
    · next inst hpc =>
      cases h
      exact .giveBackServing id inst hpc
    · next hpc =>
      cases h
      exact .giveBackBlocked id hpc
    · cases h
  case finish id waker afterLoad =>
    split at h
    · next token inst hpc =>
      rw [guarded_eq_some] at h
      obtain ⟨hwaker, rfl⟩ := h
      exact .finish id waker afterLoad token inst hpc hwaker
    · cases h
  case retry id waker =>
    split at h
    · next inst hpc =>
      rw [guarded_eq_some] at h
      obtain ⟨hwaker, rfl⟩ := h
      exact .retry id waker inst hpc hwaker
    · cases h
  case park id waker =>
    split at h
    · next inst hpc =>
      rw [guarded_eq_some] at h
      obtain ⟨hwaker, rfl⟩ := h
      exact .park id waker inst hpc hwaker
    · cases h
  case unpark id =>
    split at h
    · next hpc =>
      cases h
      exact .unpark id hpc
    · cases h
  case dropProfile id waker =>
    split at h
    · next hpc =>
      rw [guarded_eq_some] at h
      obtain ⟨hwaker, rfl⟩ := h
      exact .dropChecking id waker hpc hwaker
    · next token hpc =>
      rw [guarded_eq_some] at h
      obtain ⟨hwaker, rfl⟩ := h
      exact .dropTrying id waker token hpc hwaker
    · cases h

/-- What a step of a waking task does. -/
inductive WakerEffect (maxConcurrent : Nat) (s : State) : Label → State → Prop
  | startWaker (w : Nat) (cancellable : Bool) (hnew : w ∉ s.wakers) :
      WakerEffect maxConcurrent s (.startWaker w cancellable)
        (setWaker s w ⟨.popping, 1, false, cancellable⟩)
  | releaseSlot (w inst budget : Nat) (afterLoad all cancellable : Bool)
      (hw : s.wakers.lookup w = some ⟨.releasing inst afterLoad, budget, all, cancellable⟩)
      (hload : afterLoad = true →
        (s.instances.lookup inst).map (fun i => i.status) ≠ some .starting) :
      WakerEffect maxConcurrent s (.releaseSlot w)
        { setWaker s w { pc := .popping, budget := 1 } with
          instances := s.instances.modify inst fun i => { i with inFlight := i.inFlight - 1 } }
  | readSpare (w inst budget : Nat) (all cancellable : Bool)
      (hw : s.wakers.lookup w = some ⟨.readied inst, budget, all, cancellable⟩) :
      WakerEffect maxConcurrent s (.readSpare w)
        (setWaker s w
          { pc := .popping
            budget := spareSlots maxConcurrent s.instances inst + 1
            all := maxConcurrent == 0 })
  | nobodyWaits (w : Nat) (k : Waker) (hw : s.wakers.lookup w = some k) (hpc : k.pc = .popping)
      (hqueue : s.queue = []) :
      WakerEffect maxConcurrent s (.wake w) { s with wakers := s.wakers.erase w }
  | pop (w id : Nat) (k : Waker) (rest : List Nat) (hw : s.wakers.lookup w = some k)
      (hpc : k.pc = .popping) (hqueue : s.queue = id :: rest) :
      WakerEffect maxConcurrent s (.wake w)
        { setWaker s w { k with pc := .popped id } with queue := rest }
  | promote (w id : Nat) (k : Waker) (hw : s.wakers.lookup w = some k)
      (hpc : k.pc = .popped id) :
      WakerEffect maxConcurrent s (.wake w)
        { setWaker s w { k with pc := .promoted id } with pending := promote s.pending id }
  | deliver (w id : Nat) (k : Waker) (recheck : Recheck) (hw : s.wakers.lookup w = some k)
      (hpc : k.pc = .promoted id)
      (hrequest : s.requests.lookup id = some (.queued .silent recheck)) :
      WakerEffect maxConcurrent s (.wake w)
        (afterDelivery (setRequest s id (.queued .permit recheck)) w k)
  | refuse (w id : Nat) (k : Waker) (hw : s.wakers.lookup w = some k)
      (hpc : k.pc = .promoted id)
      (hrequest : ∀ recheck, s.requests.lookup id ≠ some (.queued .silent recheck)) :
      WakerEffect maxConcurrent s (.wake w) (setWaker s w { k with pc := .refused id })
  | discard (w id : Nat) (k : Waker) (hw : s.wakers.lookup w = some k)
      (hpc : k.pc = .refused id) :
      WakerEffect maxConcurrent s (.wake w)
        { setWaker s w { k with pc := .popping } with pending := remove s.pending id }
  | cancelClosing (w id : Nat) (k : Waker) (recheck : Recheck) (hw : s.wakers.lookup w = some k)
      (hpc : k.pc = .popped id)
      (hrequest : s.requests.lookup id = some (.queued .silent recheck)) :
      WakerEffect maxConcurrent s (.cancelWaker w)
        (setRequest { s with wakers := s.wakers.erase w } id (.queued .closed recheck))
  | cancelPopped (w id : Nat) (k : Waker) (hw : s.wakers.lookup w = some k)
      (hpc : k.pc = .popped id)
      (hrequest : ∀ recheck, s.requests.lookup id ≠ some (.queued .silent recheck)) :
      WakerEffect maxConcurrent s (.cancelWaker w) { s with wakers := s.wakers.erase w }
  | cancelRefused (w id : Nat) (k : Waker) (hw : s.wakers.lookup w = some k)
      (hpc : k.pc = .refused id) :
      WakerEffect maxConcurrent s (.cancelWaker w)
        { s with wakers := s.wakers.erase w, tokenRemovers := id :: s.tokenRemovers }
  | cancelEmpty (w : Nat) (k : Waker) (hw : s.wakers.lookup w = some k)
      (hpopped : ∀ id, k.pc ≠ .popped id) (hrefused : ∀ id, k.pc ≠ .refused id)
      (hpromoted : k.pc.isPromoted = false) :
      WakerEffect maxConcurrent s (.cancelWaker w) { s with wakers := s.wakers.erase w }

private theorem wake_effect {w : Nat} (h : wakerStep maxConcurrent s (.wake w) = some t) :
    WakerEffect maxConcurrent s (.wake w) t := by
  simp only [wakerStep] at h
  split at h
  case h_2 => cases h
  case h_1 k hw =>
    split at h
    case h_1 hpc =>
      split at h
      · next hqueue =>
        cases h
        exact .nobodyWaits w k hw hpc hqueue
      · next id rest hqueue =>
        cases h
        exact .pop w id k rest hw hpc hqueue
    case h_2 id hpc =>
      cases h
      exact .promote w id k hw hpc
    case h_3 id hpc =>
      split at h
      · next recheck hrequest =>
        cases h
        exact .deliver w id k recheck hw hpc hrequest
      · next hrequest =>
        cases h
        exact .refuse w id k hw hpc hrequest
    case h_4 id hpc =>
      cases h
      exact .discard w id k hw hpc
    case h_5 => cases h
    case h_6 => cases h

/-- Every step of a waker is one of its effects. -/
theorem wakerStep_effect (h : wakerStep maxConcurrent s l = some t) :
    WakerEffect maxConcurrent s l t := by
  cases l <;> simp only [wakerStep, reduceCtorEq] at h
  case startWaker w cancellable =>
    rw [guarded_eq_some] at h
    obtain ⟨hnew, rfl⟩ := h
    exact .startWaker w cancellable hnew
  case releaseSlot w =>
    split at h
    · next inst afterLoad budget all cancellable hw =>
      rw [guarded_eq_some] at h
      obtain ⟨hload, rfl⟩ := h
      exact .releaseSlot w inst budget afterLoad all cancellable hw hload
    · cases h
  case readSpare w =>
    split at h
    · next inst budget all cancellable hw =>
      cases h
      exact .readSpare w inst budget all cancellable hw
    · cases h
  case wake w => exact wake_effect h
  case cancelWaker w =>
    split at h
    · next k hw =>
      rw [guarded_eq_some] at h
      obtain ⟨⟨-, hpromoted⟩, rfl⟩ := h
      split
      · next id hpc =>
        split
        · next recheck hrequest => exact .cancelClosing w id k recheck hw hpc hrequest
        · next hrequest => exact .cancelPopped w id k hw hpc hrequest
      · next id hpc => exact .cancelRefused w id k hw hpc
      · next hpopped hrefused => exact .cancelEmpty w k hw hpopped hrefused hpromoted
    · cases h

/-- What a step of an instance does. -/
inductive InstanceEffect (s : State) : Label → State → Prop
  | prewarmed (inst : Nat) (hnew : inst ∉ s.instances) :
      InstanceEffect s (.prewarmed inst)
        { s with instances := s.instances.insert inst ⟨0, .starting, false, true⟩ }
  | becomeReady (inst w : Nat) (i : Instance) (hinst : s.instances.lookup inst = some i)
      (hstatus : i.status = .starting) (hw : w ∉ s.wakers) :
      InstanceEffect s (.becomeReady inst w)
        { setWaker s w { pc := .readied inst, budget := 0 } with
          instances := s.instances.insert inst { i with status := .ready } }
  | failLoad (inst : Nat) (i : Instance) (hinst : s.instances.lookup inst = some i)
      (hstatus : i.status = .starting) :
      InstanceEffect s (.failLoad inst)
        { s with instances := s.instances.insert inst { i with status := .failed } }
  | drain (inst : Nat) :
      InstanceEffect s (.drain inst)
        { s with instances := s.instances.modify inst fun i => { i with draining := true } }
  | cancelDrain (inst w : Nat) (hw : w ∉ s.wakers) :
      InstanceEffect s (.cancelDrain inst w)
        { setWaker s w { pc := .popping, budget := 1 } with
          instances := s.instances.modify inst fun i => { i with draining := false } }
  | die (inst : Nat) :
      InstanceEffect s (.die inst)
        { s with instances := s.instances.modify inst fun i => { i with alive := false } }
  | retire (inst : Nat) :
      InstanceEffect s (.retire inst) { s with instances := s.instances.erase inst }

/-- Every step of an instance is one of its effects. -/
theorem instanceStep_effect (h : instanceStep s l = some t) : InstanceEffect s l t := by
  cases l <;> simp only [instanceStep, reduceCtorEq] at h
  case prewarmed inst =>
    rw [guarded_eq_some] at h
    obtain ⟨hnew, rfl⟩ := h
    exact .prewarmed inst hnew
  case becomeReady inst w =>
    split at h
    · next i hinst =>
      rw [guarded_eq_some] at h
      obtain ⟨⟨hstatus, hw⟩, rfl⟩ := h
      exact .becomeReady inst w i hinst hstatus hw
    · cases h
  case failLoad inst =>
    split at h
    · next i hinst =>
      rw [guarded_eq_some] at h
      obtain ⟨hstatus, rfl⟩ := h
      exact .failLoad inst i hinst hstatus
    · cases h
  case drain inst =>
    cases h
    exact .drain inst
  case cancelDrain inst w =>
    rw [guarded_eq_some] at h
    obtain ⟨hw, rfl⟩ := h
    exact .cancelDrain inst w hw
  case die inst =>
    cases h
    exact .die inst
  case retire inst =>
    cases h
    exact .retire inst

end Llamesh.Waiters
