import Mathlib.Data.List.Nodup
import Llamesh.Waiters.Line

/-!
# Every step keeps the line sound

One lemma for each change of the line, and from them the invariant for every step.
-/

namespace Llamesh.Waiters

namespace Line

/-- A request leaves, or stands otherwise without waiting before or after. -/
theorem Sound.stand {a : Line} (ha : a.Sound) {id : Nat} {st : Option Standing}
    (hid : id < a.next)
    (hst : st = none ∨ st ≠ some .waiting ∧ st ≠ some .woken ∧ ¬a.Entry id ∧ ¬a.Stale id) :
    (a.stand id st).Sound where
  nodup := ha.nodup
  held_notMem := ha.held_notMem
  held_unique := ha.held_unique
  entry_live := by
    intro k (hk : a.Entry k)
    rw [stand_standing]
    split
    · rcases hst with rfl | ⟨-, -, hne, -⟩
      · exact .inr rfl
      · simp_all
    · exact ha.entry_live k hk
  stale_gone := by
    intro k (hk : a.Stale k)
    rw [stand_standing]
    split
    · rcases hst with rfl | ⟨-, -, -, hns⟩
      · rfl
      · simp_all
    · exact ha.stale_gone k hk
  waiting_entry := by
    intro k hk
    rw [stand_standing] at hk
    split at hk
    · rcases hst with rfl | ⟨hne, -⟩ <;> simp_all
    · exact ha.waiting_entry k hk
  promoted_pending := by
    intro w k hw hk
    rw [stand_standing] at hk
    split at hk
    · rcases hst with rfl | ⟨hne, -⟩ <;> simp_all
    · exact ha.promoted_pending w k hw hk
  woken_pending := by
    intro k hk
    rw [stand_standing] at hk
    split at hk
    · rcases hst with rfl | ⟨-, hne, -⟩ <;> simp_all
    · exact ha.woken_pending k hk
  lt_next := by
    intro k hk
    show k < a.next
    by_cases hki : k = id
    · subst hki
      exact hid
    · rw [stand_standing, if_neg hki] at hk
      exact ha.lt_next k hk

/-- Other requests are to be cleaned up. -/
theorem Sound.removers {a : Line} (ha : a.Sound) {removers : List Nat}
    (h : ∀ k ∈ removers, a.standing k = none ∧ k < a.next) :
    ({ a with removers := removers } : Line).Sound where
  nodup := ha.nodup
  held_notMem := ha.held_notMem
  held_unique := ha.held_unique
  entry_live := ha.entry_live
  stale_gone := by
    rintro k (hk | hk)
    · exact (h k hk).1
    · exact ha.stale_gone k (.inr hk)
  waiting_entry := ha.waiting_entry
  promoted_pending := ha.promoted_pending
  woken_pending := ha.woken_pending
  lt_next := by
    rintro k (hk | hk | hk | hk)
    · exact ha.lt_next k (.inl hk)
    · exact ha.lt_next k (.inr (.inl hk))
    · exact (h k hk).2
    · exact ha.lt_next k (.inr (.inr (.inr hk)))

/-- Tokens of requests that neither wait nor are woken are removed, or others added. -/
theorem Sound.pending {a : Line} (ha : a.Sound) {pending : List Nat}
    (h : ∀ k ∈ a.pending, a.standing k = some .waiting ∨ a.standing k = some .woken → k ∈ pending) :
    ({ a with pending := pending } : Line).Sound :=
  { ha with
    promoted_pending := fun w k hw hk => h k (ha.promoted_pending w k hw hk) (.inl hk)
    woken_pending := fun k hk => h k (ha.woken_pending k hk) (.inr hk) }

/-- What the other waking tasks hold after one of them let go. -/
theorem holds_handle {a : Line} {w v k : Nat} {h : Option Hand}
    (hh : ∀ id, h ≠ some (.taken id) ∧ h ≠ some (.promoted id)) :
    (a.handle w h).Holds v k ↔ v ≠ w ∧ a.Holds v k := by
  simp only [Holds, handle_hand]
  by_cases hv : v = w <;> simp [hv, hh]

/-- A waking task that refuses nothing leaves nothing to be removed. -/
theorem Stale.of_handle {a b : Line} {w k : Nat} {h : Option Hand} (hk : b.Stale k)
    (hremovers : b.removers = a.removers) (hhand : b.hand = (a.handle w h).hand)
    (hrefused : ∀ id, h ≠ some (.refused id)) : a.Stale k := by
  rcases hk with hk | ⟨v, hv⟩
  · exact .inl (hremovers ▸ hk)
  · rw [hhand, handle_hand] at hv
    split at hv
    · exact absurd hv (hrefused k)
    · exact .inr ⟨v, hv⟩

private theorem Sound.lt_next_of {a b : Line} (ha : a.Sound) (hstanding : b.standing = a.standing)
    (hnext : b.next = a.next) (hentry : ∀ k, b.Entry k → a.Entry k)
    (hstale : ∀ k, b.Stale k → a.Stale k) (k : Nat)
    (hk : b.standing k ≠ none ∨ b.Entry k ∨ b.Stale k) : k < b.next := by
  rw [hnext]
  rw [hstanding] at hk
  exact ha.lt_next k (hk.imp_right (Or.imp (hentry k) (hstale k)))

/-- A waking task lets go of an entry whose request is gone, or of nothing. -/
theorem Sound.letGo {a : Line} (ha : a.Sound) {w : Nat} {h : Option Hand}
    (hfree : ∀ id, a.Holds w id → a.standing id = none)
    (hh : h = none ∨ ∃ id, h = some (.refused id) ∧ a.standing id = none ∧ id < a.next) :
    (a.handle w h).Sound := by
  have hholds : ∀ v k, (a.handle w h).Holds v k ↔ v ≠ w ∧ a.Holds v k := by
    intro v k
    apply holds_handle
    rcases hh with rfl | ⟨id, rfl, -⟩ <;> simp
  have hentry : ∀ k, (a.handle w h).Entry k → a.Entry k := by
    rintro k (hk | ⟨v, hv⟩)
    · exact .inl hk
    · exact .inr ⟨v, ((hholds v k).mp hv).2⟩
  have hstale : ∀ k, (a.handle w h).Stale k → a.Stale k ∨ a.standing k = none ∧ k < a.next := by
    rintro k (hk | ⟨v, hv⟩)
    · exact .inl (.inl hk)
    · rw [handle_hand] at hv
      split at hv
      · rcases hh with rfl | ⟨id, rfl, hid⟩
        · simp at hv
        · simp only [Option.some.injEq, Hand.refused.injEq] at hv
          exact .inr (hv ▸ hid)
      · exact .inl (.inr ⟨v, hv⟩)
  constructor
  case nodup => exact ha.nodup
  case held_notMem => exact fun v k hv => ha.held_notMem v k ((hholds v k).mp hv).2
  case held_unique =>
    exact fun u v k hu hv => ha.held_unique u v k ((hholds u k).mp hu).2 ((hholds v k).mp hv).2
  case entry_live => exact fun k hk => ha.entry_live k (hentry k hk)
  case stale_gone =>
    intro k hk
    rcases hstale k hk with h | h
    · exact ha.stale_gone k h
    · exact h.1
  case waiting_entry =>
    intro k hk
    rcases ha.waiting_entry k hk with hq | ⟨v, hv⟩
    · exact .inl hq
    · have hne : v ≠ w := by
        rintro rfl
        have hgone := hfree k hv
        rw [show a.standing k = some .waiting from hk] at hgone
        cases hgone
      exact .inr ⟨v, (hholds v k).mpr ⟨hne, hv⟩⟩
  case promoted_pending =>
    intro v k hv hk
    obtain ⟨hne, -⟩ := (hholds v k).mp (.inr hv)
    rw [handle_hand, if_neg hne] at hv
    exact ha.promoted_pending v k hv hk
  case woken_pending => exact ha.woken_pending
  case lt_next =>
    rintro k (hk | hk | hk)
    · exact ha.lt_next k (.inl hk)
    · exact ha.lt_next k (.inr (.inl (hentry k hk)))
    · rcases hstale k hk with h | h
      · exact ha.lt_next k (.inr (.inr h))
      · exact h.2

/-- A waking task parts with the entry of a request that waits, which then does not wait. -/
theorem Sound.sent {a : Line} (ha : a.Sound) {w id : Nat} {st : Standing} (hw : a.Holds w id)
    (hwait : a.standing id = some .waiting) (hst : st ≠ .waiting)
    (hwoken : st = .woken → id ∈ a.pending) :
    ((a.stand id (some st)).handle w none).Sound := by
  have hholds : ∀ v k, ((a.stand id (some st)).handle w none).Holds v k ↔ v ≠ w ∧ a.Holds v k :=
    fun v k => holds_handle (a := a.stand id (some st)) (h := none) (by simp)
  -- The entry was in this hand only.
  have hentry : ∀ k, ((a.stand id (some st)).handle w none).Entry k → a.Entry k ∧ k ≠ id := by
    rintro k (hk | ⟨v, hv⟩)
    · refine ⟨.inl hk, ?_⟩
      rintro rfl
      exact ha.held_notMem w k hw hk
    · obtain ⟨hne, hva⟩ := (hholds v k).mp hv
      refine ⟨.inr ⟨v, hva⟩, ?_⟩
      rintro rfl
      exact hne (ha.held_unique v w k hva hw)
  have hstale : ∀ k, ((a.stand id (some st)).handle w none).Stale k → a.Stale k ∧ k ≠ id := by
    intro k hk
    have hka : a.Stale k := by
      rcases hk with hk | ⟨v, hv⟩
      · exact .inl hk
      · rw [handle_hand] at hv
        split at hv
        · cases hv
        · exact .inr ⟨v, hv⟩
    refine ⟨hka, ?_⟩
    rintro rfl
    exact ha.not_stale hwait hka
  have hother : ∀ k, k ≠ id →
      ((a.stand id (some st)).handle w none).standing k = a.standing k := by
    intro k hk
    show (a.stand id (some st)).standing k = a.standing k
    rw [stand_standing, if_neg hk]
  have hown : ((a.stand id (some st)).handle w none).standing id = some st := by
    show (a.stand id (some st)).standing id = some st
    rw [stand_standing, if_pos rfl]
  constructor
  case nodup => exact ha.nodup
  case held_notMem => exact fun v k hv => ha.held_notMem v k ((hholds v k).mp hv).2
  case held_unique =>
    exact fun u v k hu hv => ha.held_unique u v k ((hholds u k).mp hu).2 ((hholds v k).mp hv).2
  case entry_live =>
    intro k hk
    obtain ⟨hk, hne⟩ := hentry k hk
    rw [hother k hne]
    exact ha.entry_live k hk
  case stale_gone =>
    intro k hk
    obtain ⟨hk, hne⟩ := hstale k hk
    rw [hother k hne]
    exact ha.stale_gone k hk
  case waiting_entry =>
    intro k hk
    have hne : k ≠ id := by
      rintro rfl
      rw [hown] at hk
      exact hst (Option.some.inj hk)
    rw [hother k hne] at hk
    rcases ha.waiting_entry k hk with hq | ⟨v, hv⟩
    · exact .inl hq
    · refine .inr ⟨v, (hholds v k).mpr ⟨?_, hv⟩⟩
      rintro rfl
      exact hne (by rcases hv with h | h <;> rcases hw with h' | h' <;> simp_all)
  case promoted_pending =>
    intro v k hv hk
    obtain ⟨hne, hva⟩ := (hholds v k).mp (.inr hv)
    rw [handle_hand, if_neg hne] at hv
    have hki : k ≠ id := by
      rintro rfl
      exact hne (ha.held_unique v w k hva hw)
    rw [hother k hki] at hk
    exact ha.promoted_pending v k hv hk
  case woken_pending =>
    intro k hk
    by_cases hki : k = id
    · subst hki
      rw [hown] at hk
      exact hwoken (Option.some.inj hk)
    · rw [hother k hki] at hk
      exact ha.woken_pending k hk
  case lt_next =>
    rintro k (hk | hk | hk)
    · by_cases hki : k = id
      · subst hki
        exact ha.lt_next k (.inl (by rw [hwait]; simp))
      · rw [hother k hki] at hk
        exact ha.lt_next k (.inl hk)
    · exact ha.lt_next k (.inr (.inl (hentry k hk).1))
    · exact ha.lt_next k (.inr (.inr (hstale k hk).1))

/-- A new request arrives. -/
theorem Sound.arrive {a : Line} (ha : a.Sound) :
    ({ a.stand a.next (some .idle) with next := a.next + 1 } : Line).Sound := by
  have hold : ∀ k, a.standing k ≠ none ∨ a.Entry k ∨ a.Stale k → k ≠ a.next :=
    fun k hk => Nat.ne_of_lt (ha.lt_next k hk)
  -- The number is taken first: nothing of the new request is anywhere yet.
  have hnext : ({ a with next := a.next + 1 } : Line).Sound :=
    { ha with lt_next := fun k hk => Nat.lt_succ_of_lt (ha.lt_next k hk) }
  show (Line.stand { a with next := a.next + 1 } a.next (some .idle)).Sound
  refine hnext.stand (Nat.lt_succ_self _) (.inr ⟨by simp, by simp, ?_, ?_⟩)
  · exact fun h => hold a.next (.inr (.inl h)) rfl
  · exact fun h => hold a.next (.inr (.inr h)) rfl

/-- A request joins the line, from which entries of other requests that left are pruned. -/
theorem Sound.join {a : Line} (ha : a.Sound) {id : Nat} {st : Standing} {keep : Nat → Bool}
    (hst : a.standing id = some st) (hne : st ≠ .waiting)
    (hkeep : ∀ k, a.standing k = some .waiting → keep k = true) :
    ({ a.stand id (some .waiting) with queue := a.queue.filter keep ++ [id] } : Line).Sound := by
  have hout := ha.not_entry hst hne
  have hfresh := ha.not_stale hst
  constructor
  case nodup =>
    refine List.nodup_append.mpr ⟨ha.nodup.filter _, List.nodup_singleton id, ?_⟩
    rintro k hk j hj rfl
    rw [List.mem_singleton] at hj
    subst hj
    exact hout (.inl (List.mem_of_mem_filter hk))
  case held_notMem =>
    intro w k (hw : a.Holds w k) hk
    rcases List.mem_append.mp hk with hk | hk
    · exact ha.held_notMem w k hw (List.mem_of_mem_filter hk)
    · rw [List.mem_singleton] at hk
      subst hk
      exact hout (.inr ⟨w, hw⟩)
  case held_unique => exact ha.held_unique
  case entry_live =>
    intro k hk
    rw [show ∀ q, ({ a.stand id (some .waiting) with queue := q } : Line).standing k =
      (a.stand id (some .waiting)).standing k from fun _ => rfl, stand_standing]
    split
    · exact .inl rfl
    · next hki =>
      rcases hk with hk | hk
      · rcases List.mem_append.mp hk with hk | hk
        · exact ha.entry_live k (.inl (List.mem_of_mem_filter hk))
        · exact absurd (List.mem_singleton.mp hk) hki
      · exact ha.entry_live k (.inr hk)
  case stale_gone =>
    intro k (hk : a.Stale k)
    have hki : k ≠ id := by
      rintro rfl
      exact hfresh hk
    show (a.stand id (some .waiting)).standing k = none
    rw [stand_standing, if_neg hki]
    exact ha.stale_gone k hk
  case waiting_entry =>
    intro k (hk : (a.stand id (some .waiting)).standing k = some .waiting)
    by_cases hki : k = id
    · subst hki
      exact .inl (by simp)
    · rw [stand_standing, if_neg hki] at hk
      rcases ha.waiting_entry k hk with hq | hw
      · exact .inl (List.mem_append.mpr (.inl (List.mem_filter.mpr ⟨hq, hkeep k hk⟩)))
      · exact .inr hw
  case promoted_pending =>
    intro w k hw (hk : (a.stand id (some .waiting)).standing k = some .waiting)
    have hki : k ≠ id := by
      rintro rfl
      exact hout (.inr ⟨w, .inr hw⟩)
    rw [stand_standing, if_neg hki] at hk
    exact ha.promoted_pending w k hw hk
  case woken_pending =>
    intro k (hk : (a.stand id (some .waiting)).standing k = some .woken)
    rw [stand_standing] at hk
    split at hk
    · cases hk
    · exact ha.woken_pending k hk
  case lt_next =>
    intro k hk
    have hid := ha.lt_next id (.inl (by rw [hst]; simp))
    by_cases hki : k = id
    · subst hki
      exact hid
    · refine ha.lt_next k ?_
      rcases hk with hk | (hk | hk) | hk
      · rw [show ∀ q, ({ a.stand id (some .waiting) with queue := q } : Line).standing k =
          (a.stand id (some .waiting)).standing k from fun _ => rfl, stand_standing,
          if_neg hki] at hk
        exact .inl hk
      · rcases List.mem_append.mp hk with hk | hk
        · exact .inr (.inl (.inl (List.mem_of_mem_filter hk)))
        · exact absurd (List.mem_singleton.mp hk) hki
      · exact .inr (.inl (.inr hk))
      · exact .inr (.inr hk)

/-- The entry of a request that is gone is removed from the line. -/
theorem Sound.removeEntry {a : Line} (ha : a.Sound) {id : Nat} (hid : a.standing id = none) :
    ({ a with queue := a.queue.filter fun k => decide (k ≠ id) } : Line).Sound := by
  have hentry : ∀ k, ({ a with queue := a.queue.filter fun k => decide (k ≠ id) } : Line).Entry k →
      a.Entry k := by
    rintro k (hk | hk)
    · exact .inl (List.mem_of_mem_filter hk)
    · exact .inr hk
  refine { ha with nodup := ha.nodup.filter _, held_notMem := ?_, entry_live := ?_,
                   waiting_entry := ?_, lt_next := ?_ }
  · exact fun w k hw hk => ha.held_notMem w k hw (List.mem_of_mem_filter hk)
  · exact fun k hk => ha.entry_live k (hentry k hk)
  · intro k hk
    rcases ha.waiting_entry k hk with hq | hw
    · refine .inl (List.mem_filter.mpr ⟨hq, decide_eq_true ?_⟩)
      rintro rfl
      rw [show a.standing k = some .waiting from hk] at hid
      cases hid
    · exact .inr hw
  · rintro k (hk | hk | hk)
    · exact ha.lt_next k (.inl hk)
    · exact ha.lt_next k (.inr (.inl (hentry k hk)))
    · exact ha.lt_next k (.inr (.inr hk))

/-- A waking task takes the first entry. -/
theorem Sound.take {a : Line} (ha : a.Sound) {w id : Nat} {rest : List Nat}
    (hhand : a.hand w = none) (hqueue : a.queue = id :: rest) :
    ({ a.handle w (some (.taken id)) with queue := rest } : Line).Sound := by
  have hnodup : (id :: rest).Nodup := hqueue ▸ ha.nodup
  have hholds : ∀ v k, ({ a.handle w (some (.taken id)) with queue := rest } : Line).Holds v k ↔
      v = w ∧ k = id ∨ a.Holds v k := by
    intro v k
    show (a.handle w _).hand v = _ ∨ (a.handle w _).hand v = _ ↔ _
    rw [handle_hand]
    by_cases hv : v = w
    · subst hv
      simp [Holds, hhand, eq_comm]
    · simp [Holds, hv]
  have hentry : ∀ k, ({ a.handle w (some (.taken id)) with queue := rest } : Line).Entry k ↔
      a.Entry k := by
    intro k
    simp only [Entry, hholds, hqueue, List.mem_cons]
    constructor
    · rintro (hk | ⟨v, ⟨-, rfl⟩ | hv⟩)
      · exact .inl (.inr hk)
      · exact .inl (.inl rfl)
      · exact .inr ⟨v, hv⟩
    · rintro ((rfl | hk) | ⟨v, hv⟩)
      · exact .inr ⟨w, .inl ⟨rfl, rfl⟩⟩
      · exact .inl hk
      · exact .inr ⟨v, .inr hv⟩
  have hstale : ∀ k, ({ a.handle w (some (.taken id)) with queue := rest } : Line).Stale k →
      a.Stale k := by
    intro k hk
    exact hk.of_handle rfl rfl (by simp)
  have hin : ∀ v k, a.Holds v k → k ≠ id ∧ k ∉ rest := by
    intro v k hv
    have hk := ha.held_notMem v k hv
    rw [hqueue, List.mem_cons, not_or] at hk
    exact hk
  constructor
  case nodup => exact hnodup.of_cons
  case held_notMem =>
    intro v k hv
    rcases (hholds v k).mp hv with ⟨-, rfl⟩ | hv
    · exact (List.nodup_cons.mp hnodup).1
    · exact (hin v k hv).2
  case held_unique =>
    intro u v k hu hv
    rcases (hholds u k).mp hu with ⟨hw, hk⟩ | hua <;>
      rcases (hholds v k).mp hv with ⟨hw', hk'⟩ | hva
    · exact hw.trans hw'.symm
    · exact absurd hk (hin v k hva).1
    · exact absurd hk' (hin u k hua).1
    · exact ha.held_unique u v k hua hva
  case entry_live => exact fun k hk => ha.entry_live k ((hentry k).mp hk)
  case stale_gone => exact fun k hk => ha.stale_gone k (hstale k hk)
  case waiting_entry => exact fun k hk => (hentry k).mpr (ha.waiting_entry k hk)
  case promoted_pending =>
    intro v k hv hk
    change (a.handle w _).hand v = _ at hv
    rw [handle_hand] at hv
    split at hv
    · cases hv
    · exact ha.promoted_pending v k hv hk
  case woken_pending => exact ha.woken_pending
  case lt_next => exact ha.lt_next_of rfl rfl (fun k => (hentry k).mp) hstale

/-- The token of a taken entry becomes pending. -/
theorem Sound.promote {a : Line} (ha : a.Sound) {w id : Nat} {pending : List Nat}
    (hhand : a.hand w = some (.taken id)) (hpending : ∀ k, k ∈ pending ↔ k ∈ a.pending ∨ k = id) :
    ({ a.handle w (some (.promoted id)) with pending := pending } : Line).Sound := by
  have hholds : ∀ v k, ({ a.handle w (some (.promoted id)) with pending := pending } : Line).Holds
      v k ↔ a.Holds v k := by
    intro v k
    show (a.handle w _).hand v = _ ∨ (a.handle w _).hand v = _ ↔ _
    rw [handle_hand]
    by_cases hv : v = w
    · subst hv
      simp [Holds, hhand]
    · simp [Holds, hv]
  have hentry : ∀ k, ({ a.handle w (some (.promoted id)) with pending := pending } : Line).Entry k ↔
      a.Entry k := by
    intro k
    simp only [Entry, hholds]
    exact Iff.rfl
  have hstale : ∀ k, ({ a.handle w (some (.promoted id)) with pending := pending } : Line).Stale k →
      a.Stale k := by
    intro k hk
    exact hk.of_handle rfl rfl nofun
  constructor
  case nodup => exact ha.nodup
  case held_notMem => exact fun v k hv => ha.held_notMem v k ((hholds v k).mp hv)
  case held_unique =>
    exact fun u v k hu hv => ha.held_unique u v k ((hholds u k).mp hu) ((hholds v k).mp hv)
  case entry_live => exact fun k hk => ha.entry_live k ((hentry k).mp hk)
  case stale_gone => exact fun k hk => ha.stale_gone k (hstale k hk)
  case waiting_entry => exact fun k hk => (hentry k).mpr (ha.waiting_entry k hk)
  case promoted_pending =>
    intro v k hv hk
    change (a.handle w _).hand v = _ at hv
    rw [handle_hand] at hv
    split at hv
    · simp only [Option.some.injEq, Hand.promoted.injEq] at hv
      exact (hpending k).mpr (.inr hv.symm)
    · exact (hpending k).mpr (.inl (ha.promoted_pending v k hv hk))
  case woken_pending => exact fun k hk => (hpending k).mpr (.inl (ha.woken_pending k hk))
  case lt_next => exact ha.lt_next_of rfl rfl (fun k => (hentry k).mp) hstale

/-- A held entry whose request does not wait belongs to a request that is gone. -/
theorem Sound.gone_of_holds {a : Line} (ha : a.Sound) {w id : Nat} (hw : a.Holds w id)
    (hwait : a.standing id ≠ some .waiting) : a.standing id = none :=
  (ha.entry_live id (.inr ⟨w, hw⟩)).resolve_left hwait

/-- Every step keeps the line sound. -/
theorem Sound.step {e : Event} {a b : Line} (ha : a.Sound) (h : Step e a b) : b.Sound := by
  have hlt : ∀ {id st}, a.standing id = some st → id < a.next :=
    fun h => ha.lt_next _ (.inl (by rw [h]; simp))
  have hgone : ∀ {id}, id ∈ a.removers → a.standing id = none ∧ id < a.next :=
    fun h => ⟨ha.stale_gone _ (.inl h), ha.lt_next _ (.inr (.inr (.inl h)))⟩
  have hrefused : ∀ {w id}, a.hand w = some (.refused id) → a.standing id = none ∧ id < a.next :=
    fun h => ⟨ha.stale_gone _ (.inr ⟨_, h⟩), ha.lt_next _ (.inr (.inr (.inr ⟨_, h⟩)))⟩
  cases h with
  | stay => exact ha
  | arrive => exact ha.arrive
  | pass hidle _ =>
    exact ha.stand (hlt hidle)
      (.inr ⟨by simp, by simp, ha.not_entry hidle (by simp), ha.not_stale hidle⟩)
  | serve hatt =>
    exact ha.stand (hlt hatt)
      (.inr ⟨by simp, by simp, ha.not_entry hatt (by simp), ha.not_stale hatt⟩)
  | quit hout =>
    rcases hout with h | h
    · exact ha.stand (hlt h) (.inr ⟨by simp, by simp, ha.not_entry h (by simp), ha.not_stale h⟩)
    · exact ha.stand (hlt h) (.inr ⟨by simp, by simp, ha.not_entry h (by simp), ha.not_stale h⟩)
  | join hfree hkeep =>
    rcases hfree with h | h
    · exact ha.join h (by simp) hkeep
    · exact ha.join h (by simp) hkeep
  | @leave _ id removers hid hsub =>
    have hst : (a.stand id none).Sound := ha.stand (ha.lt_next id (.inl hid)) (.inl rfl)
    refine hst.removers ?_
    intro k hk
    rw [stand_standing]
    split
    · next h => exact ⟨rfl, h ▸ ha.lt_next id (.inl hid)⟩
    · next h => exact hgone ((hsub k hk).resolve_left h)
  | @giveBack _ id st hwoken hst =>
    have hstand : (a.stand id st).Sound := by
      refine ha.stand (hlt hwoken) ?_
      rcases hst with rfl | rfl | rfl
      · exact .inl rfl
      · exact .inr ⟨by simp, by simp, ha.not_entry hwoken (by simp), ha.not_stale hwoken⟩
      · exact .inr ⟨by simp, by simp, ha.not_entry hwoken (by simp), ha.not_stale hwoken⟩
    refine hstand.pending ?_
    intro k hk hks
    refine List.mem_filter.mpr ⟨hk, decide_eq_true ?_⟩
    rintro rfl
    rw [stand_standing, if_pos rfl] at hks
    rcases hst with rfl | rfl | rfl <;> simp at hks
  | @removeEntry _ id removers hid hsub =>
    refine (ha.removeEntry (hgone hid).1).removers ?_
    exact fun k hk => hgone (hsub k hk)
  | @removeToken _ id removers hid hsub =>
    have hpending :
        ({ a with pending := a.pending.filter fun k => decide (k ≠ id) } : Line).Sound := by
      refine ha.pending ?_
      intro k hk hks
      refine List.mem_filter.mpr ⟨hk, decide_eq_true ?_⟩
      rintro rfl
      rw [(hgone hid).1] at hks
      simp at hks
    exact hpending.removers fun k hk => hgone (hsub k hk)
  | take hhand hqueue => exact ha.take hhand hqueue
  | promote hhand hpending => exact ha.promote hhand hpending
  | deliver hhand hwait =>
    exact ha.sent (.inr hhand) hwait (by simp) fun _ => ha.promoted_pending _ _ hhand hwait
  | @refuse _ w id hhand hwait =>
    have hnone := ha.gone_of_holds (.inr hhand) hwait
    refine ha.letGo ?_ (.inr ⟨id, rfl, hnone, ha.lt_next id (.inr (.inl (.inr ⟨w, .inr hhand⟩)))⟩)
    rintro k (hk | hk) <;> simp_all
  | @discard _ w id hhand =>
    refine (ha.letGo (w := w) (h := none) ?_ (.inl rfl)).pending ?_
    · rintro k (hk | hk) <;> simp_all
    · intro k hk hks
      refine List.mem_filter.mpr ⟨hk, decide_eq_true ?_⟩
      rintro rfl
      rw [show (a.handle w none).standing k = a.standing k from rfl, (hrefused hhand).1] at hks
      simp at hks
  | lose hhand hwait => exact ha.sent (.inl hhand) hwait (by simp) (by simp)
  | @drop _ w id hhand hwait =>
    have hnone := ha.gone_of_holds (.inl hhand) hwait
    refine ha.letGo ?_ (.inl rfl)
    rintro k (hk | hk) <;> simp_all
  | @forget _ w id removers hhand hsub =>
    refine (ha.letGo (w := w) (h := none) ?_ (.inl rfl)).removers ?_
    · rintro k (hk | hk) <;> simp_all
    · intro k hk
      rcases hsub k hk with rfl | hk
      · exact hrefused hhand
      · exact hgone hk

end Line

end Llamesh.Waiters
