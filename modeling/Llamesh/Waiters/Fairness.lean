import Llamesh.Waiters.Refines

/-!
# Fresh requests and the requests before them

A request without a token takes a slot or a spawn admission after it found the queue empty and then,
under the write lock, found it empty again and no token pending. The checks are three reads under
three locks, and a waiter moves from the queue to the tokens between two of them. Where no waiter
does so while a fresh request checks, no fresh request goes first.
-/

namespace Llamesh.Waiters

open Transition

variable (earlier : Nat → Nat → Bool)

/-! ### In the line -/

/-- Waits, was woken and still has its token, or was woken and joins the line again. -/
def Standing.outstanding : Standing → Bool
  | .waiting | .woken | .again => true
  | _ => false

namespace Line

/-- A request that is there and outstanding. -/
def Outstanding (a : Line) (id : Nat) : Prop :=
  ∃ st, a.standing id = some st ∧ st.outstanding = true

/-- Nobody is outstanding before a request that attempts to take a slot without a token. -/
def NoneBefore (a : Line) : Prop :=
  ∀ id w, a.standing id = some .attempting → earlier w id = true → ¬a.Outstanding w

/-- A request passes when no earlier one is on its way between the line and the tokens, and joins
when no later one attempts. -/
def InTurn (a : Line) : Event → Prop
  | .pass id => ∀ w, earlier w id = true →
      w ∉ a.queue ∧ (∀ v, a.hand v ≠ some (.taken w)) ∧ a.standing w ≠ some .again
  | .join w => ∀ id, a.standing id = some .attempting → earlier w id = false
  | .other => True

variable {earlier}

/-- With no token pending, an outstanding request is in the line, in a hand, or joins again. -/
theorem Sound.place_of_outstanding {a : Line} (ha : a.Sound) (hpending : a.pending = []) {w : Nat}
    (hw : a.Outstanding w) :
    w ∈ a.queue ∨ (∃ v, a.hand v = some (.taken w)) ∨ a.standing w = some .again := by
  obtain ⟨st, hst, hout⟩ := hw
  cases st with
  | idle | attempting | served | dropped => simp [Standing.outstanding] at hout
  | again => exact .inr (.inr hst)
  | waiting =>
    rcases ha.waiting_entry w hst with hq | ⟨v, hv | hv⟩
    · exact .inl hq
    · exact .inr (.inl ⟨v, hv⟩)
    · have hmem := ha.promoted_pending v w hv hst
      simp [hpending] at hmem
  | woken =>
    have hmem := ha.woken_pending w hst
    simp [hpending] at hmem

private theorem NoneBefore.keep {a b : Line} (ha : NoneBefore earlier a)
    (hatt : ∀ id, b.standing id = some .attempting → a.standing id = some .attempting)
    (hout : ∀ w, b.Outstanding w → a.Outstanding w) : NoneBefore earlier b := by
  intro id w hid hw hb
  exact ha id w (hatt id hid) hw (hout w hb)

private theorem NoneBefore.stand {a b : Line} {id : Nat} {st : Option Standing}
    (ha : NoneBefore earlier a) (hb : b.standing = (a.stand id st).standing)
    (hatt : st ≠ some .attempting)
    (hout : ∀ x, st = some x → x.outstanding = true → a.Outstanding id) :
    NoneBefore earlier b := by
  apply ha.keep
  · intro k hk
    rw [hb, stand_standing] at hk
    split at hk
    · exact absurd hk hatt
    · exact hk
  · rintro k ⟨x, hx, hxo⟩
    rw [hb, stand_standing] at hx
    split at hx
    · next h => exact h ▸ hout x hx hxo
    · exact ⟨x, hx, hxo⟩

/-- A step that is taken in turn lets nobody pass a request before it. -/
theorem NoneBefore.step {e : Event} {a b : Line} (hsound : a.Sound) (ha : NoneBefore earlier a)
    (hturn : InTurn earlier a e) (h : Step e a b) : NoneBefore earlier b := by
  cases h with
  | arrive => exact ha.stand rfl (by simp) (by simp [Standing.outstanding])
  | @pass _ id hidle hpending =>
    intro k w hk hw hout
    have hwa : a.Outstanding w := by
      obtain ⟨x, hx, hxo⟩ := hout
      rw [stand_standing] at hx
      split at hx
      · cases hx
        simp [Standing.outstanding] at hxo
      · exact ⟨x, hx, hxo⟩
    rw [stand_standing] at hk
    split at hk
    · next hki =>
      -- The one that passes: its three reads leave the earlier request no place.
      subst hki
      obtain ⟨hq, hhand, hagain⟩ := hturn w hw
      rcases hsound.place_of_outstanding hpending hwa with h | ⟨v, h⟩ | h
      · exact hq h
      · exact hhand v h
      · exact hagain h
    · exact ha k w hk hw hwa
  | serve => exact ha.stand rfl (by simp) (by simp [Standing.outstanding])
  | quit => exact ha.stand rfl (by simp) (by simp [Standing.outstanding])
  | @join _ id keep hfree hkeep =>
    intro k w hk hw hout
    change (a.stand id (some .waiting)).standing k = _ at hk
    rw [stand_standing] at hk
    split at hk
    · cases hk
    · by_cases hwi : w = id
      · subst hwi
        rw [hturn k hk] at hw
        cases hw
      · obtain ⟨x, hx, hxo⟩ := hout
        change (a.stand id (some .waiting)).standing w = _ at hx
        rw [stand_standing, if_neg hwi] at hx
        exact ha k w hk hw ⟨x, hx, hxo⟩
  | leave => exact ha.stand rfl (by simp) (by simp)
  | giveBack hwoken hst =>
    refine ha.stand rfl ?_ fun _ _ _ => ⟨.woken, hwoken, rfl⟩
    rcases hst with rfl | rfl | rfl <;> simp
  | deliver _ hwait => exact ha.stand rfl (by simp) fun _ _ _ => ⟨.waiting, hwait, rfl⟩
  | lose _ _ => exact ha.stand rfl (by simp) (by simp [Standing.outstanding])
  | stay | removeEntry | removeToken | take | promote | refuse | discard | drop | forget =>
    exact ha.keep (fun _ h => h) fun _ h => h

/-- A request that is served by a step and had no token was attempting. -/
theorem attempting_of_served {e : Event} {a b : Line} {id : Nat} (h : Step e a b)
    (hserved : a.standing id ≠ some .served) (hwoken : a.standing id ≠ some .woken)
    (hb : b.standing id = some .served) : a.standing id = some .attempting := by
  cases h with
  | serve hatt =>
    rw [stand_standing] at hb
    split at hb
    · next h => exact h ▸ hatt
    · exact absurd hb hserved
  | giveBack hw _ =>
    change (stand _ _ _).standing id = _ at hb
    rw [stand_standing] at hb
    split at hb
    · next h => exact absurd (h ▸ hw) hwoken
    · exact absurd hb hserved
  | arrive | pass | quit | join | leave | deliver | lose =>
    change (stand _ _ _).standing id = _ at hb
    rw [stand_standing] at hb
    split at hb
    · cases hb
    · exact absurd hb hserved
  | stay | removeEntry | removeToken | take | promote | refuse | discard | drop | forget =>
    exact absurd hb hserved

end Line

/-! ### In the code -/

/-- Waits in the queue, was woken and still has its token, or was woken and joins the queue
again. -/
def Pc.outstanding : Pc → Bool
  | .queued .silent _ | .joining _ true => true
  | pc => pc.hasToken

/-- Owns a slot, or a reservation to spawn an instance. -/
def Pc.isAdmitted : Pc → Bool
  | .spawning _ | .serving _ _ => true
  | _ => false

/-- Whether a request of the state is outstanding. -/
def outstanding (s : State) (id : Nat) : Bool := (s.requests.lookup id).any Pc.outstanding

/-- Whether a request without a token takes a slot or a spawn admission between two states. -/
def takesFresh (s t : State) (id : Nat) : Bool :=
  ((s.requests.lookup id).any fun pc => !pc.hasToken && !pc.isAdmitted) &&
    (t.requests.lookup id).any fun pc => !pc.hasToken && pc.isAdmitted

/-- The re-check of the tokens passes while no earlier request is in the queue, was taken out of it
without its token, or gave its token back to join again; and no request joins while a later one is
past its re-check. -/
def inTurn (s : State) : Label → Bool
  | .recheckPending id =>
    !s.pending.isEmpty ||
      ((s.queue.all fun w => !earlier w id) &&
        (s.wakers.entries.all fun e =>
          match e.2.pc with
          | .popped w => !earlier w id
          | _ => true) &&
        s.requests.entries.all fun e =>
          match e.2 with
          | .joining _ true => !earlier e.1 id
          | _ => true)
  | .enqueue w =>
    s.requests.entries.all fun e => decide (e.2.standing ≠ .attempting) || !earlier w e.1
  | _ => true

variable {earlier}

/-- Outstanding in the code is outstanding in the line. -/
theorem Pc.outstanding_eq (pc : Pc) : pc.outstanding = pc.standing.outstanding := by
  cases pc with
  | joining recheck waited => cases waited <;> rfl
  | queued channel recheck => cases channel <;> rfl
  | trying token | locked token | passed token | planning token | retiring token
  | spawning token | serving token | scanning token => cases token <;> rfl
  | checking | checkingPending | yielding | lockedPending | returning | parked => rfl

private theorem mem_entries {α : Type} {t : Table Nat α} {k : Nat} {x : α}
    (h : t.lookup k = some x) : (⟨k, x⟩ : Sigma fun _ : Nat => α) ∈ t.entries :=
  AList.mem_lookup_iff.mp h

private theorem again_of_standing {pc : Pc} (h : pc.standing = .again) :
    ∃ recheck, pc = .joining recheck true := by
  unfold Pc.standing at h
  split at h <;> simp_all
  split at h <;> simp_all

private theorem taken_of_hand {pc : WakerPc} {id : Nat} (h : pc.hand = some (.taken id)) :
    pc = .popped id := by
  unfold WakerPc.hand at h
  split at h <;> simp_all

/-- A step of the code that is taken in turn is taken in turn in the line. -/
theorem inTurn_line {s : State} {l : Label} (h : inTurn earlier s l = true) :
    Line.InTurn earlier (line s) (event s l) := by
  cases l
  case recheckPending id =>
    simp only [event]
    split
    · next hp =>
      simp only [inTurn, hp, List.isEmpty_nil, Bool.not_true, Bool.false_or, Bool.and_eq_true,
        List.all_eq_true] at h
      obtain ⟨⟨hqueue, hwakers⟩, hrequests⟩ := h
      intro w hw
      refine ⟨fun hq => ?_, fun v hv => ?_, fun hst => ?_⟩
      · have hfree := hqueue w hq
        simp [hw] at hfree
      · simp only [line, hands, Option.bind_eq_some_iff] at hv
        obtain ⟨k, hk, hhand⟩ := hv
        have hfree := hwakers _ (mem_entries hk)
        rw [taken_of_hand hhand] at hfree
        simp [hw] at hfree
      · simp only [line, standings, Option.map_eq_some_iff] at hst
        obtain ⟨pc, hpc, hst⟩ := hst
        obtain ⟨recheck, rfl⟩ := again_of_standing hst
        have hfree := hrequests _ (mem_entries hpc)
        simp [hw] at hfree
    · trivial
  case enqueue w =>
    intro id hid
    simp only [line, standings, Option.map_eq_some_iff] at hid
    obtain ⟨pc, hpc, hst⟩ := hid
    simp only [inTurn, List.all_eq_true] at h
    have hfree := h _ (mem_entries hpc)
    simpa [hst] using hfree
  all_goals trivial

/-- The line is sound, and nobody is outstanding before a request that attempts without a token. -/
private def FairInv (earlier : Nat → Nat → Bool) (s : State) : Prop :=
  (line s).Sound ∧ Line.NoneBefore earlier (line s)

private theorem fairInv_init : FairInv earlier State.init := by
  refine ⟨sound_init, ?_⟩
  intro id w hid
  simp [line, standings, State.init] at hid

private theorem fairInv_step {maxConcurrent : Nat} {s t : State} {l : Label}
    (h : FairInv earlier s) (hturn : inTurn earlier s l = true)
    (hs : step maxConcurrent s l = some t) : FairInv earlier t :=
  ⟨sound_step h.1 hs, Line.NoneBefore.step h.1 h.2 (inTurn_line hturn) (step_refines hs)⟩

private theorem attempting_of_takesFresh {maxConcurrent : Nat} {s t : State} {l : Label} {id : Nat}
    (hs : step maxConcurrent s l = some t) (h : takesFresh s t id = true) :
    (line s).standing id = some .attempting := by
  simp only [takesFresh, Bool.and_eq_true, Option.any_eq_true, Bool.not_eq_true'] at h
  obtain ⟨⟨pc, hpc, htoken, hnew⟩, pc', hpc', htoken', hadmitted⟩ := h
  have hbefore : (line s).standing id = some pc.standing := standing_of_lookup hpc
  have hserved : (line t).standing id = some .served := by
    rw [standing_of_lookup hpc']
    unfold Pc.isAdmitted at hadmitted
    split at hadmitted
    · next token => cases token <;> simp_all [Pc.hasToken, Pc.standing]
    · next token inst => cases token <;> simp_all [Pc.hasToken, Pc.standing]
    · cases hadmitted
  apply Line.attempting_of_served (step_refines hs) ?_ ?_ hserved
  · rw [hbefore]
    unfold Pc.standing
    split <;> simp_all [Pc.isAdmitted]
  · rw [hbefore]
    unfold Pc.standing
    split <;> simp_all

/-- In a run whose steps are taken in turn, a request without a token takes a slot or a spawn
admission only while no request that counts as earlier is outstanding. -/
theorem fresh_requests_wait_their_turn {maxConcurrent : Nat} {labels : List Label} {s t : State}
    {l : Label} {id w : Nat} (hrun : exec (step maxConcurrent) State.init labels = some s)
    (hturn : Along (step maxConcurrent) (fun s l => inTurn earlier s l = true) State.init labels)
    (hs : step maxConcurrent s l = some t) (hfresh : takesFresh s t id = true)
    (hw : earlier w id = true) : outstanding s w = false := by
  have hinv : FairInv earlier s :=
    exec_invariant_along (fun _ _ _ h hc hstep => fairInv_step h hc hstep) fairInv_init hturn hrun
  have hnone := hinv.2 id w (attempting_of_takesFresh hs hfresh) hw
  by_contra hout
  rw [Bool.not_eq_false, outstanding, Option.any_eq_true] at hout
  obtain ⟨pc, hpc, hpo⟩ := hout
  exact hnone ⟨pc.standing, standing_of_lookup hpc, by rw [← Pc.outstanding_eq, hpo]⟩

/-- The first request spawns instance 7 with one slot, which becomes ready. -/
def coldStart : List Label :=
  [.arrive, .checkQueue 0, .checkPending 0, .lock 0, .recheckQueue 0, .recheckPending 0,
    .beginScan 0 [], .choose 0, .admitted 0, .spawned 0 7 false, .becomeReady 7 100,
    .readSpare 100, .wake 100]

/-- The second request finds no slot and queues. -/
def secondQueues : List Label :=
  [.arrive, .checkQueue 1, .checkPending 1, .lock 1, .recheckQueue 1, .recheckPending 1,
    .beginScan 1 [7], .scan 1, .choose 1, .blocked 1, .enqueue 1, .readAvailable 1,
    .readPending 1 101]

/-- A third request arrives and comes to the end of its scan. -/
def thirdScans : List Label :=
  [.arrive, .checkQueue 2, .checkPending 2, .lock 2, .recheckQueue 2, .recheckPending 2,
    .beginScan 2 [7], .scan 2]

/-- The first request is done and wakes the second, which is served and done before the third
arrives. -/
def servedInTurn : List Label :=
  coldStart ++ secondQueues ++
    ([.finish 0 102 false, .releaseSlot 102, .wake 102, .wake 102, .wake 102, .receive 1, .lock 1,
      .recheckQueue 1, .beginScan 1 [7], .scan 1, .choose 1, .giveBack 1, .finish 1 103 false,
      .releaseSlot 103, .wake 103] : List Label) ++ thirdScans

/-- The third takes a fresh slot, and the second is not waiting. -/
theorem servedInTurn_third_is_next :
    ∃ s t, exec (step 1) State.init servedInTurn = some s ∧ step 1 s (.choose 2) = some t ∧
      takesFresh s t 2 = true ∧ outstanding s 1 = false := by
  have hrun : ((exec (step 1) State.init servedInTurn).any fun s =>
      (step 1 s (.choose 2)).any fun t => takesFresh s t 2) = true := by decide +kernel
  have hturn : Along (step 1) (fun s l => inTurn (fun w id => decide (w < id)) s l = true)
      State.init servedInTurn := along_of_checkAlong (by decide +kernel)
  obtain ⟨s, hs, hrest⟩ := Option.any_eq_true _ _ |>.mp hrun
  obtain ⟨t, ht, hfresh⟩ := Option.any_eq_true _ _ |>.mp hrest
  exact ⟨s, t, hs, ht, hfresh, fresh_requests_wait_their_turn hs hturn ht hfresh (by decide)⟩

/-- The first request is done and its waking task takes the entry of the second out of the queue.
Before the token of that entry is pending, the third request makes all of its checks. -/
def betweenQueueAndTokens : List Label :=
  coldStart ++ secondQueues ++
    ([.finish 0 102 false, .releaseSlot 102, .wake 102] : List Label) ++ thirdScans

/-- The third request takes the slot the second was about to be woken for. -/
theorem third_bypasses_second :
    ∃ s t, exec (step 1) State.init betweenQueueAndTokens = some s ∧
      step 1 s (.choose 2) = some t ∧ takesFresh s t 2 = true ∧ outstanding s 1 = true := by
  have hrun : ((exec (step 1) State.init betweenQueueAndTokens).any fun s =>
      (step 1 s (.choose 2)).any fun t => takesFresh s t 2 && outstanding s 1) = true := by
    decide +kernel
  obtain ⟨s, hs, hrest⟩ := Option.any_eq_true _ _ |>.mp hrun
  obtain ⟨t, ht, hboth⟩ := Option.any_eq_true _ _ |>.mp hrest
  rw [Bool.and_eq_true] at hboth
  exact ⟨s, t, hs, ht, hboth.1, hboth.2⟩

end Llamesh.Waiters
