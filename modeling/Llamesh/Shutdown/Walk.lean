import Llamesh.Shutdown.Model

/-!
# Wakes and the shutdown's walk

Every waiting request is in its queue, in the hands of a wake, or has been given
its wake. Once the shutdown has taken its snapshot, the queues that still have
waiters are the ones its walk has ahead of it.
-/

namespace Llamesh.Shutdown

open Transition Queue

universe u

variable {κ : Type u} [DecidableEq κ]

omit [DecidableEq κ] in
/-- A receiver is alive while its request waits. -/
theorem receiverAlive_iff {requests : Table Nat (RequestPc κ)} {token : Nat} :
    receiverAlive requests token = true ↔
      ∃ id key, requests.lookup id = some (.waiting key token) := by
  unfold receiverAlive
  rw [List.any_eq_true]
  constructor
  · rintro ⟨e, he, hm⟩
    obtain ⟨id, pc⟩ := e
    cases pc <;> simp only [Bool.false_eq_true, beq_iff_eq] at hm
    subst hm
    exact ⟨id, _, AList.mem_lookup_iff.mpr he⟩
  · rintro ⟨id, key, hl⟩
    exact ⟨⟨id, .waiting key token⟩, AList.mem_lookup_iff.mp hl, by simp⟩

/-- A wake holds the waiter `token`. -/
def Held (s : State κ) (token : Nat) : Prop :=
  (∃ waker all pc, s.wakers.lookup waker = some ⟨all, pc⟩ ∧ pc.holds = some token) ∨
    ∃ pc, s.shutdown = .waking pc ∧ pc.holds = some token

/-- The queue of `key` is ahead of a walk. -/
def WakePc.Ahead (key : κ) : WakePc κ → Prop
  | .snapshot => True
  | .popping keys => key ∈ keys
  | .popped k _ keys | .promoted k _ keys | .refused k _ keys => key ∈ k :: keys
  | .announcing => False

/-- The queue of `key` is ahead of the shutdown. -/
def ShutdownPc.Ahead (key : κ) : ShutdownPc κ → Prop
  | .idle | .stored => True
  | .waking pc => pc.Ahead key
  | .returned _ => False

/-- The `notify_waiters` calls before the `Notified` of a request. -/
def RequestPc.calls? : RequestPc κ → Option Nat
  | .subscribed calls | .checked calls | .parked calls => some calls
  | _ => none

/-- The `Notified` of a request that goes on to wait for it. -/
def RequestPc.waits? : RequestPc κ → Option Nat
  | .checked calls | .parked calls => some calls
  | _ => none

/-- The invariant of shutdown, wakes and requests. -/
structure Inv (s : State κ) : Prop where
  token_lt : ∀ id key token, s.requests.lookup id = some (.waiting key token) →
    token < s.nextToken
  token_unique : ∀ id id' key key' token, s.requests.lookup id = some (.waiting key token) →
    s.requests.lookup id' = some (.waiting key' token) → id = id'
  removed : ∀ key token, (key, token) ∈ s.removers → token < s.nextToken ∧
    ∀ id key', s.requests.lookup id ≠ some (.waiting key' token)
  waiting : ∀ id key token, s.requests.lookup id = some (.waiting key token) →
    token ∈ queueOf s.queues key ∨ Held s token ∨ (s.wakes.lookup token).isSome
  flag : s.shutdown ≠ .idle → s.draining = true
  ahead : ∀ key, queueOf s.queues key ≠ [] → s.shutdown.Ahead key
  calls_le : ∀ id pc calls, s.requests.lookup id = some pc → pc.calls? = some calls →
    calls ≤ s.notifyCalls
  calls_lt : ∀ id pc calls shutdownCalls, s.requests.lookup id = some pc →
    pc.waits? = some calls → s.shutdown = .returned shutdownCalls → calls < shutdownCalls
  returned_le : ∀ calls, s.shutdown = .returned calls → calls ≤ s.notifyCalls

/-- The invariant holds before the shutdown. -/
theorem inv_init : Inv (State.init : State κ) where
  token_lt id key token h := by simp [State.init] at h
  token_unique id id' key key' token h := by simp [State.init] at h
  removed key token h := by simp [State.init] at h
  waiting id key token h := by simp [State.init] at h
  flag h := absurd rfl h
  ahead key h := trivial
  calls_le id pc calls h := by simp [State.init] at h
  calls_lt id pc calls c h := by simp [State.init] at h
  returned_le calls h := by simp [State.init] at h

/-! ### What a piece of a walk does -/

/-- The effect of one piece of a walk from `pc` to `next`. -/
structure WalkEffect (s : State κ) (pc : WakePc κ) (t : State κ) (next : Option (WakePc κ)) :
    Prop where
  requests : t.requests = s.requests
  removers : t.removers = s.removers
  nextToken : t.nextToken = s.nextToken
  wakers : t.wakers = s.wakers
  shutdown : t.shutdown = s.shutdown
  draining : t.draining = s.draining
  notifyCalls : s.notifyCalls ≤ t.notifyCalls
  shrinks : ∀ key token, token ∈ queueOf t.queues key → token ∈ queueOf s.queues key
  taken : ∀ key token, token ∈ queueOf s.queues key → token ∈ queueOf t.queues key ∨
    next.bind WakePc.holds = some token
  passed : ∀ token, pc.holds = some token → next.bind WakePc.holds = some token ∨
    (t.wakes.lookup token).isSome ∨ receiverAlive s.requests token = false
  wakes : ∀ token, (s.wakes.lookup token).isSome → (t.wakes.lookup token).isSome

private theorem walkEffect_same {s : State κ} {pc : WakePc κ} (hh : pc.holds = none)
    (next : Option (WakePc κ)) : WalkEffect s pc s next := by
  refine ⟨rfl, rfl, rfl, rfl, rfl, rfl, Nat.le_refl _, fun _ _ h => h, fun _ _ h => .inl h, ?_,
    fun _ h => h⟩
  intro token h
  rw [hh] at h
  cases h

/-- Each piece of a walk has the effect. -/
theorem walk_effect {s t : State κ} {all sees : Bool} {pc : WakePc κ} {next : Option (WakePc κ)}
    (h : walk s all sees pc = (t, next)) : WalkEffect s pc t next := by
  cases pc with
  | snapshot =>
    obtain ⟨rfl, rfl⟩ := Prod.mk.inj h
    exact walkEffect_same rfl _
  | popping keys =>
    cases keys with
    | nil =>
      obtain ⟨rfl, rfl⟩ := Prod.mk.inj h
      exact walkEffect_same rfl _
    | cons key keys =>
      simp only [walk] at h
      split at h
      · next queues hpop =>
        obtain ⟨rfl, rfl⟩ := Prod.mk.inj h
        obtain ⟨-, hq⟩ := popFront_none hpop
        refine ⟨rfl, rfl, rfl, rfl, rfl, rfl, Nat.le_refl _, ?_, ?_, nofun, fun _ h => h⟩
        · intro k token hm
          rw [← hq k]
          exact hm
        · intro k token hm
          rw [← hq k] at hm
          exact .inl hm
      · next token queues hpop =>
        obtain ⟨rfl, rfl⟩ := Prod.mk.inj h
        obtain ⟨hfront, hq⟩ := popFront_some hpop
        refine ⟨rfl, rfl, rfl, rfl, rfl, rfl, Nat.le_refl _, ?_, ?_, nofun, fun _ h => h⟩
        · intro k t hm
          by_cases hk : k = key
          · rw [hk, hfront]
            rw [hk] at hm
            exact List.mem_cons_of_mem _ hm
          · rw [← hq k hk]
            exact hm
        · intro k t hm
          by_cases hk : k = key
          · rw [hk] at hm ⊢
            rw [hfront] at hm
            rcases List.mem_cons.mp hm with rfl | hm
            · exact .inr rfl
            · exact .inl hm
          · rw [← hq k hk] at hm
            exact .inl hm
  | popped key token keys =>
    obtain ⟨rfl, rfl⟩ := Prod.mk.inj h
    exact ⟨rfl, rfl, rfl, rfl, rfl, rfl, Nat.le_refl _, fun _ _ h => h, fun _ _ h => .inl h,
      fun _ h => .inl h, fun _ h => h⟩
  | promoted key token keys =>
    simp only [walk] at h
    split at h
    · obtain ⟨rfl, rfl⟩ := Prod.mk.inj h
      refine ⟨rfl, rfl, rfl, rfl, rfl, rfl, Nat.le_refl _, fun _ _ h => h, fun _ _ h => .inl h,
        ?_, ?_⟩
      · intro t ht
        obtain rfl := Option.some.inj ht
        exact .inr (.inl (by simp))
      · intro t ht
        rw [Table.lookup_insert_eq]
        split
        · rfl
        · exact ht
    · next hdead =>
      obtain ⟨rfl, rfl⟩ := Prod.mk.inj h
      refine ⟨rfl, rfl, rfl, rfl, rfl, rfl, Nat.le_refl _, fun _ _ h => h, fun _ _ h => .inl h,
        ?_, fun _ h => h⟩
      intro t ht
      obtain rfl := Option.some.inj ht
      exact .inr (.inr (by simpa using hdead))
  | refused key token keys =>
    obtain ⟨rfl, rfl⟩ := Prod.mk.inj h
    exact ⟨rfl, rfl, rfl, rfl, rfl, rfl, Nat.le_refl _, fun _ _ h => h, fun _ _ h => .inl h, nofun,
      fun _ h => h⟩
  | announcing =>
    obtain ⟨rfl, rfl⟩ := Prod.mk.inj h
    exact ⟨rfl, rfl, rfl, rfl, rfl, rfl, Nat.le_succ _, fun _ _ h => h, fun _ _ h => .inl h, nofun,
      fun _ h => h⟩

/-- The shutdown's walk stays on a key until its queue is empty, so the queues with waiters stay
ahead of it. -/
theorem walk_ahead {s t : State κ} {pc : WakePc κ} {next : Option (WakePc κ)}
    (h : walk s true true pc = (t, next))
    (hs : ∀ key, queueOf s.queues key ≠ [] → pc.Ahead key) :
    ∀ key, queueOf t.queues key ≠ [] → ∃ pc', next = some pc' ∧ pc'.Ahead key := by
  intro k hk
  cases pc with
  | snapshot =>
    obtain ⟨rfl, rfl⟩ := Prod.mk.inj h
    refine ⟨_, rfl, ?_⟩
    unfold queueOf at hk
    cases hl : s.queues.lookup k with
    | none => simp [hl] at hk
    | some q => exact Table.mem_keys_of_lookup hl
  | popping keys =>
    cases keys with
    | nil =>
      obtain ⟨rfl, rfl⟩ := Prod.mk.inj h
      exact absurd (hs k hk) List.not_mem_nil
    | cons key keys =>
      simp only [walk] at h
      split at h
      · next queues hpop =>
        obtain ⟨rfl, rfl⟩ := Prod.mk.inj h
        obtain ⟨hempty, hq⟩ := popFront_none hpop
        refine ⟨_, rfl, ?_⟩
        have hk' : queueOf s.queues k ≠ [] := by
          rw [← hq k]
          exact hk
        rcases List.mem_cons.mp (hs k hk') with rfl | hm
        · exact absurd hempty hk'
        · exact hm
      · next token queues hpop =>
        obtain ⟨rfl, rfl⟩ := Prod.mk.inj h
        obtain ⟨hfront, hq⟩ := popFront_some hpop
        refine ⟨_, rfl, ?_⟩
        by_cases hkey : k = key
        · rw [hkey]
          exact List.mem_cons_self
        · exact hs k (by rw [← hq k hkey]; exact hk)
  | popped key token keys | refused key token keys =>
    obtain ⟨rfl, rfl⟩ := Prod.mk.inj h
    exact ⟨_, rfl, hs k hk⟩
  | promoted key token keys =>
    simp only [walk] at h
    split at h
    · obtain ⟨rfl, rfl⟩ := Prod.mk.inj h
      exact ⟨_, rfl, hs k hk⟩
    · obtain ⟨rfl, rfl⟩ := Prod.mk.inj h
      exact ⟨_, rfl, hs k hk⟩
  | announcing =>
    obtain ⟨rfl, rfl⟩ := Prod.mk.inj h
    exact (hs k hk).elim

/-! ### Wakes keep the invariant -/

private theorem inv_wakes {s t : State κ} (h : Inv s) (hreq : t.requests = s.requests)
    (hrem : t.removers = s.removers) (htok : t.nextToken = s.nextToken)
    (hcalls : s.notifyCalls ≤ t.notifyCalls)
    (hwait : ∀ id key token, s.requests.lookup id = some (.waiting key token) →
      token ∈ queueOf t.queues key ∨ Held t token ∨ (t.wakes.lookup token).isSome)
    (hflag : t.shutdown ≠ .idle → t.draining = true)
    (hahead : ∀ key, queueOf t.queues key ≠ [] → t.shutdown.Ahead key)
    (hret : ∀ c, t.shutdown = .returned c →
      s.shutdown = .returned c ∨ c = t.notifyCalls ∧ s.notifyCalls < c) : Inv t := by
  constructor
  · rw [hreq, htok]
    exact h.token_lt
  · rw [hreq]
    exact h.token_unique
  · rw [hrem, htok, hreq]
    exact h.removed
  · rw [hreq]
    exact hwait
  · exact hflag
  · exact hahead
  · rw [hreq]
    intro id pc calls hl hc
    exact Nat.le_trans (h.calls_le id pc calls hl hc) hcalls
  · rw [hreq]
    intro id pc calls c hl hw hc
    rcases hret c hc with hold | ⟨-, hlt⟩
    · exact h.calls_lt id pc calls c hl hw hold
    · have hle : calls ≤ s.notifyCalls := by
        apply h.calls_le id pc calls hl
        cases pc <;> simp_all [RequestPc.waits?, RequestPc.calls?]
      omega
  · intro c hc
    rcases hret c hc with hold | ⟨heq, -⟩
    · exact Nat.le_trans (h.returned_le c hold) hcalls
    · exact Nat.le_of_eq heq

private theorem waiting_walk {s t : State κ} (h : Inv s) {pc : WakePc κ}
    {next : Option (WakePc κ)} (he : WalkEffect s pc t next) {id : Nat} {key : κ} {token : Nat}
    (hl : s.requests.lookup id = some (.waiting key token)) :
    token ∈ queueOf t.queues key ∨ next.bind WakePc.holds = some token ∨
      (Held s token ∧ pc.holds ≠ some token) ∨ (t.wakes.lookup token).isSome := by
  have halive : receiverAlive s.requests token = true := receiverAlive_iff.mpr ⟨id, key, hl⟩
  rcases h.waiting id key token hl with hq | hh | hw
  · rcases he.taken key token hq with hq | hn
    · exact .inl hq
    · exact .inr (.inl hn)
  · by_cases hp : pc.holds = some token
    · rcases he.passed token hp with hn | hw | hd
      · exact .inr (.inl hn)
      · exact .inr (.inr (.inr hw))
      · rw [halive] at hd
        cases hd
    · exact .inr (.inr (.inl ⟨hh, hp⟩))
  · exact .inr (.inr (.inr (he.wakes token hw)))

/-- Queues that only lose waiters gain no key. -/
theorem queue_nonempty_of_shrinks {queues rest : Queues κ}
    (hs : ∀ key token, token ∈ queueOf rest key → token ∈ queueOf queues key) {key : κ}
    (hk : queueOf rest key ≠ []) : queueOf queues key ≠ [] := by
  obtain ⟨token, hm⟩ := List.exists_mem_of_ne_nil _ hk
  exact List.ne_nil_of_mem (hs key token hm)

private theorem inv_wake {s s' : State κ} (h : Inv s) {waker : Nat} {all : Bool} {pc : WakePc κ}
    (hl : s.wakers.lookup waker = some ⟨all, pc⟩) {next : Option (WakePc κ)}
    (he : WalkEffect s pc s' next) {wakers : Table Nat (Waker κ)}
    (hself : ∀ pc', next = some pc' → wakers.lookup waker = some ⟨all, pc'⟩)
    (hother : ∀ w, w ≠ waker → wakers.lookup w = s.wakers.lookup w) :
    Inv { s' with wakers } := by
  refine inv_wakes h he.requests he.removers he.nextToken he.notifyCalls ?_ ?_ ?_ ?_
  · intro id key token hreq
    rcases waiting_walk h he hreq with hq | hn | ⟨hh, hp⟩ | hw
    · exact .inl hq
    · obtain ⟨pc', hnext, hpc'⟩ := Option.bind_eq_some_iff.mp hn
      exact .inr (.inl (.inl ⟨waker, all, pc', hself pc' hnext, hpc'⟩))
    · rcases hh with ⟨w, a, q, hw, hq⟩ | ⟨q, hsd, hq⟩
      · have hne : w ≠ waker := by
          intro heq
          rw [heq, hl] at hw
          obtain ⟨-, rfl⟩ := Waker.mk.inj (Option.some.inj hw)
          exact hp hq
        exact .inr (.inl (.inl ⟨w, a, q, (hother w hne).trans hw, hq⟩))
      · exact .inr (.inl (.inr ⟨q, he.shutdown.trans hsd, hq⟩))
    · exact .inr (.inr hw)
  · intro hne
    exact he.draining.trans (h.flag (he.shutdown ▸ hne))
  · intro key hk
    show s'.shutdown.Ahead key
    rw [he.shutdown]
    exact h.ahead key (queue_nonempty_of_shrinks he.shrinks hk)
  · intro c hc
    exact .inl (he.shutdown.symm.trans hc)

private theorem inv_cancelWaker {s : State κ} (h : Inv s) {waker : Nat} {all : Bool}
    {pc : WakePc κ} (hl : s.wakers.lookup waker = some ⟨all, pc⟩) {wakes : Table Nat Wake}
    (hwakes : ∀ token, (s.wakes.lookup token).isSome ∨ pc.holds = some token →
      (wakes.lookup token).isSome) :
    Inv { s with wakers := s.wakers.erase waker, wakes } := by
  refine inv_wakes h rfl rfl rfl (Nat.le_refl _) ?_ h.flag h.ahead fun c hc => .inl hc
  intro id key token hreq
  rcases h.waiting id key token hreq with hq | (⟨w, a, q, hw, hq⟩ | hsd) | hw
  · exact .inl hq
  · by_cases hwk : w = waker
    · rw [hwk, hl] at hw
      obtain ⟨-, rfl⟩ := Waker.mk.inj (Option.some.inj hw)
      exact .inr (.inr (hwakes token (.inr hq)))
    · exact .inr (.inl (.inl ⟨w, a, q, Table.lookup_erase_eq_some.mpr ⟨hwk, hw⟩, hq⟩))
  · exact .inr (.inl (.inr hsd))
  · exact .inr (.inr (hwakes token (.inl hw)))

/-- A piece of a wake keeps the invariant. -/
theorem inv_wakerStep {s t : State κ} {l : Label κ} (h : Inv s)
    (hstep : wakerStep s l = some t) : Inv t := by
  cases l <;> simp only [wakerStep, guarded_eq_some, reduceCtorEq] at hstep
  case startWaker waker key =>
    obtain ⟨hn, rfl⟩ := hstep
    refine inv_wakes h rfl rfl rfl (Nat.le_refl _) ?_ h.flag h.ahead fun c hc => .inl hc
    intro id k token hreq
    rcases h.waiting id k token hreq with hq | (⟨w, a, q, hw, hq⟩ | hsd) | hw
    · exact .inl hq
    · have hne : w ≠ waker := by
        rintro rfl
        exact hn (AList.lookup_isSome.mp (by simp [hw]))
      exact .inr (.inl (.inl ⟨w, a, q, Table.lookup_insert_eq_some.mpr (.inr ⟨hne, hw⟩), hq⟩))
    · exact .inr (.inl (.inr hsd))
    · exact .inr (.inr hw)
  case wake waker sees =>
    split at hstep
    · next all pc hl =>
      split at hstep
      · next s' pc' hwalk =>
        obtain rfl := Option.some.inj hstep
        have he := walk_effect hwalk
        refine inv_wake h hl he ?_ ?_
        · intro q hq
          obtain rfl := Option.some.inj hq
          exact AList.lookup_insert _
        · intro w hw
          rw [AList.lookup_insert_ne hw, he.wakers]
      · next s' hwalk =>
        obtain rfl := Option.some.inj hstep
        have he := walk_effect hwalk
        refine inv_wake h hl he (by simp) ?_
        intro w hw
        rw [AList.lookup_erase_ne hw, he.wakers]
    · cases hstep
  case cancelWaker waker =>
    split at hstep
    · next all pc hl =>
      split at hstep
      · next token hh =>
        obtain rfl := Option.some.inj hstep
        apply inv_cancelWaker h hl
        intro t ht
        rw [Table.lookup_insert_eq]
        split
        · rfl
        · next hne =>
          rcases ht with ht | ht
          · exact ht
          · exact absurd (Option.some.inj (ht.symm.trans hh)) hne
      · next hh =>
        obtain rfl := Option.some.inj hstep
        apply inv_cancelWaker h hl
        intro t ht
        rcases ht with ht | ht
        · exact ht
        · rw [hh] at ht
          cases ht
    · cases hstep

/-! ### The shutdown keeps the invariant -/

omit [DecidableEq κ] in
private theorem Held.byWaker {s : State κ} {token : Nat} (h : Held s token)
    (hno : ∀ pc, s.shutdown ≠ .waking pc) :
    ∃ w all pc, s.wakers.lookup w = some ⟨all, pc⟩ ∧ pc.holds = some token := by
  rcases h with hw | ⟨pc, hpc, -⟩
  · exact hw
  · exact absurd hpc (hno pc)

private theorem waiting_shutdownWalk {s t : State κ} (h : Inv s) {pc : WakePc κ}
    {next : Option (WakePc κ)} (he : WalkEffect s pc t next) (hst : s.shutdown = .waking pc)
    {id : Nat} {key : κ} {token : Nat} (hl : s.requests.lookup id = some (.waiting key token)) :
    token ∈ queueOf t.queues key ∨ next.bind WakePc.holds = some token ∨
      (∃ w all q, t.wakers.lookup w = some ⟨all, q⟩ ∧ q.holds = some token) ∨
        (t.wakes.lookup token).isSome := by
  rcases waiting_walk h he hl with hq | hn | ⟨hh, hp⟩ | hw
  · exact .inl hq
  · exact .inr (.inl hn)
  · rcases hh with ⟨w, a, q, hw, hq⟩ | ⟨q, hsd, hq⟩
    · exact .inr (.inr (.inl ⟨w, a, q, by rw [← hw, ← he.wakers], hq⟩))
    · rw [hst] at hsd
      obtain rfl := ShutdownPc.waking.inj hsd
      exact absurd hq hp
  · exact .inr (.inr (.inr hw))

/-- A piece of the shutdown keeps the invariant. -/
theorem inv_shutdownStep {s t : State κ} {l : Label κ} (h : Inv s)
    (hstep : shutdownStep s l = some t) : Inv t := by
  cases l <;> simp only [shutdownStep, guarded_eq_some, reduceCtorEq] at hstep
  case beginShutdown =>
    obtain ⟨hidle, rfl⟩ := hstep
    refine inv_wakes h rfl rfl rfl (Nat.le_refl _) ?_ (fun _ => rfl) (fun _ _ => trivial) (by simp)
    intro id key token hreq
    rcases h.waiting id key token hreq with hq | hh | hw
    · exact .inl hq
    · exact .inr (.inl (.inl (hh.byWaker (by simp [hidle]))))
    · exact .inr (.inr hw)
  case shutdownWake =>
    split at hstep
    · next hst =>
      obtain rfl := Option.some.inj hstep
      refine inv_wakes h rfl rfl rfl (Nat.le_refl _) ?_ (fun _ => h.flag (by simp [hst]))
        (fun _ _ => trivial) (by simp)
      intro id key token hreq
      rcases h.waiting id key token hreq with hq | hh | hw
      · exact .inl hq
      · exact .inr (.inl (.inl (hh.byWaker (by simp [hst]))))
      · exact .inr (.inr hw)
    · next pc hst =>
      have hflag : s.draining = true := h.flag (by simp [hst])
      have hahead : ∀ key, queueOf s.queues key ≠ [] → pc.Ahead key := by
        intro key hk
        have ha := h.ahead key hk
        rw [hst] at ha
        exact ha
      split at hstep
      · next s' pc' hwalk =>
        obtain rfl := Option.some.inj hstep
        have he := walk_effect hwalk
        refine inv_wakes h he.requests he.removers he.nextToken he.notifyCalls ?_
          (fun _ => he.draining.trans hflag) ?_ (by simp)
        · intro id key token hreq
          rcases waiting_shutdownWalk h he hst hreq with hq | hn | hh | hw
          · exact .inl hq
          · exact .inr (.inl (.inr ⟨pc', rfl, hn⟩))
          · exact .inr (.inl (.inl hh))
          · exact .inr (.inr hw)
        · intro key hk
          obtain ⟨q, hq, ha⟩ := walk_ahead hwalk hahead key hk
          obtain rfl := Option.some.inj hq
          exact ha
      · next s' hwalk =>
        obtain rfl := Option.some.inj hstep
        have he := walk_effect hwalk
        have hlt : s.notifyCalls < s'.notifyCalls := by
          -- Only the announcement ends the walk of `notify_all_queues`.
          cases pc with
          | popping keys =>
            cases keys with
            | nil => simp [walk] at hwalk
            | cons key keys =>
              simp only [walk] at hwalk
              split at hwalk <;> cases (Prod.mk.inj hwalk).2
          | promoted key token keys =>
            simp only [walk] at hwalk
            split at hwalk <;> cases (Prod.mk.inj hwalk).2
          | announcing =>
            obtain ⟨rfl, -⟩ := Prod.mk.inj hwalk
            exact Nat.lt_succ_self _
          | _ => cases (Prod.mk.inj hwalk).2
        refine inv_wakes h he.requests he.removers he.nextToken he.notifyCalls ?_
          (fun _ => he.draining.trans hflag) ?_ ?_
        · intro id key token hreq
          rcases waiting_shutdownWalk h he hst hreq with hq | hn | hh | hw
          · exact .inl hq
          · cases hn
          · exact .inr (.inl (.inl hh))
          · exact .inr (.inr hw)
        · intro key hk
          obtain ⟨q, hq, -⟩ := walk_ahead hwalk hahead key hk
          cases hq
        · intro c hc
          obtain rfl := ShutdownPc.returned.inj hc
          exact .inr ⟨rfl, hlt⟩
    · cases hstep

end Llamesh.Shutdown
