import Llamesh.Library.Run
import Mathlib.Logic.Function.Basic

/-!
# The output of a starting process

Two tasks copy the output of the process into its startup log (`src/instance.rs:812–846`). When it
has exited, the readiness task waits with `OutputReaders::drained` until both have come to the end
of their stream (`src/instance.rs:190–226`, `src/node_state/mod.rs:3034–3048`), so that the report
of the failure has the last lines too. The wait subscribes before it reads the count of open
readers, so the last reader cannot close unnoticed.

A reader also ends at a line it cannot read, and the log stops growing at its limit. A `Notified` is
the number of `notify_waiters` calls made before it was created.
-/

namespace Llamesh.Instance.Output

open Transition

/-- `MAX_STARTUP_LOG_LINES`. -/
def maxStartupLogLines : Nat := 10000

/-- The two streams of a process. -/
inductive Stream where
  | stdout
  | stderr
deriving DecidableEq, Repr

/-- The task that reads a stream: `ended` is before `closed` counts it off, `counted` before it
wakes the waiters. -/
inductive ReaderPc where
  | reading
  | ended
  | counted
  | done
deriving DecidableEq, Repr

/-- The readiness task in `drained`. -/
inductive DrainPc where
  | idle
  | subscribed (calls : Nat)
  | waiting (calls : Nat)
  | drained
  | timedOut
deriving DecidableEq, Repr

/-- The output of a process whose readers are spawned. `written` is all it has written to a stream,
of which `unread` is still in the pipe; `closed` is when the write end of the pipe is. -/
structure Pipes where
  written : Stream → List String
  unread : Stream → List String
  closed : Stream → Bool
  reader : Stream → ReaderPc
  openReaders : Nat
  notifyCalls : Nat
  startupLog : List (Stream × String)
  drain : DrainPc

/-- A process right after `spawn`. -/
def Pipes.init : Pipes where
  written := fun _ => []
  unread := fun _ => []
  closed := fun _ => false
  reader := fun _ => .reading
  openReaders := 2
  notifyCalls := 0
  startupLog := []
  drain := .idle

/-- What the process, the readers and the readiness task do. -/
inductive Label where
  | write (stream : Stream) (line : String)
  | close (stream : Stream)
  | readLine (stream : Stream)
  /-- The next line cannot be read. -/
  | readFailed (stream : Stream)
  | readEnd (stream : Stream)
  | countOff (stream : Stream)
  | notify (stream : Stream)
  | drainSubscribe
  | drainCheck
  | drainWake
  | drainTimeout

/-- One line is copied. `src/instance.rs:819–825`. -/
def Pipes.push (s : Pipes) (stream : Stream) (line : String) (rest : List String) : Pipes :=
  { s with
    unread := Function.update s.unread stream rest
    startupLog :=
      if s.startupLog.length < maxStartupLogLines then s.startupLog ++ [(stream, line)]
      else s.startupLog }

/-- One step. -/
def step (s : Pipes) : Label → Option Pipes
  | .write stream line =>
    guarded (s.closed stream = false)
      { s with
        written := Function.update s.written stream (s.written stream ++ [line])
        unread := Function.update s.unread stream (s.unread stream ++ [line]) }
  | .close stream => some { s with closed := Function.update s.closed stream true }
  | .readLine stream =>
    match s.unread stream with
    | line :: rest => guarded (s.reader stream = .reading) (s.push stream line rest)
    | [] => none
  | .readFailed stream =>
    guarded (s.reader stream = .reading) { s with reader := Function.update s.reader stream .ended }
  | .readEnd stream =>
    guarded (s.reader stream = .reading ∧ s.unread stream = [] ∧ s.closed stream = true)
      { s with reader := Function.update s.reader stream .ended }
  | .countOff stream =>
    guarded (s.reader stream = .ended)
      { s with
        reader := Function.update s.reader stream .counted
        openReaders := s.openReaders - 1 }
  | .notify stream =>
    guarded (s.reader stream = .counted)
      { s with
        reader := Function.update s.reader stream .done
        notifyCalls := s.notifyCalls + 1 }
  | .drainSubscribe => guarded (s.drain = .idle) { s with drain := .subscribed s.notifyCalls }
  | .drainCheck =>
    match s.drain with
    | .subscribed calls =>
      some { s with drain := if s.openReaders = 0 then .drained else .waiting calls }
    | _ => none
  | .drainWake =>
    match s.drain with
    | .waiting calls =>
      guarded (calls < s.notifyCalls) { s with drain := .subscribed s.notifyCalls }
    | _ => none
  | .drainTimeout =>
    match s.drain with
    | .subscribed _ | .waiting _ => some { s with drain := .timedOut }
    | _ => none

/-! ## The invariant -/

/-- The lines of a stream in the log. -/
def Pipes.linesOf (s : Pipes) (stream : Stream) : List String :=
  s.startupLog.filterMap fun entry => if entry.1 = stream then some entry.2 else none

/-- The reader has counted itself off. -/
def ReaderPc.counts : ReaderPc → Nat
  | .reading | .ended => 1
  | .counted | .done => 0

/-- What the wait rests on. -/
structure DrainInv (s : Pipes) : Prop where
  opened : s.openReaders = (s.reader .stdout).counts + (s.reader .stderr).counts
  drained : s.drain = .drained → s.openReaders = 0
  subscribed : ∀ calls, s.drain = .subscribed calls → calls ≤ s.notifyCalls
  /-- Who waits found a reader open, which has not woken it yet or has. -/
  waiting : ∀ calls, s.drain = .waiting calls → calls ≤ s.notifyCalls ∧
    (calls < s.notifyCalls ∨ ∃ stream, s.reader stream ≠ .done)

/-- The log has the first lines of every stream, and all that were read until it was full. -/
def Copied (s : Pipes) : Prop :=
  ∀ stream, ∃ dropped, s.linesOf stream ++ dropped ++ s.unread stream = s.written stream ∧
    (dropped ≠ [] → maxStartupLogLines ≤ s.startupLog.length)

/-- A reader is ended only by the end of its stream. -/
def EndedAtEnd (s : Pipes) : Prop :=
  ∀ stream, s.reader stream ≠ .reading → s.unread stream = [] ∧ s.closed stream = true

variable {s t : Pipes} {label : Label} {stream : Stream}

/-! ## The wait -/

private theorem counts_update (s : Pipes) (stream : Stream) (pc : ReaderPc) :
    ((Function.update s.reader stream pc) .stdout).counts +
        ((Function.update s.reader stream pc) .stderr).counts + (s.reader stream).counts =
      (s.reader .stdout).counts + (s.reader .stderr).counts + pc.counts := by
  cases stream with
  | stdout =>
    simp only [Function.update_self, Function.update_of_ne, ne_eq, reduceCtorEq, not_false_eq_true]
    omega
  | stderr =>
    simp only [Function.update_self, Function.update_of_ne, ne_eq, reduceCtorEq, not_false_eq_true]
    omega

private theorem exists_not_done {pc : ReaderPc} (hpc : pc ≠ .done) (stream : Stream) :
    ∃ other, Function.update s.reader stream pc other ≠ .done :=
  ⟨stream, by rwa [Function.update_self]⟩

private theorem drainInv_end (inv : DrainInv s) (hreading : s.reader stream = .reading) :
    DrainInv { s with reader := Function.update s.reader stream .ended } := by
  have hopened := inv.opened
  have hcounts := counts_update s stream .ended
  rw [hreading, show ReaderPc.reading.counts = ReaderPc.ended.counts from rfl] at hcounts
  refine ⟨?_, inv.drained, inv.subscribed, fun calls hcalls => ?_⟩
  · exact hopened.trans (Nat.add_right_cancel hcounts).symm
  · exact ⟨(inv.waiting calls hcalls).1, .inr (exists_not_done (by decide) stream)⟩

private theorem drainInv_countOff (inv : DrainInv s) (hended : s.reader stream = .ended) :
    DrainInv { s with
      reader := Function.update s.reader stream .counted, openReaders := s.openReaders - 1 } := by
  have hopened := inv.opened
  have hcounts := counts_update s stream .counted
  rw [hended, show ReaderPc.ended.counts = 1 from rfl, ← hopened] at hcounts
  refine ⟨?_, fun hdrained => ?_, inv.subscribed, fun calls hcalls => ?_⟩
  · exact Nat.sub_eq_of_eq_add hcounts.symm
  · have hzero := inv.drained hdrained
    change s.openReaders - 1 = 0
    rw [hzero]
  · exact ⟨(inv.waiting calls hcalls).1, .inr (exists_not_done (by decide) stream)⟩

private theorem drainInv_notify (inv : DrainInv s) (hcounted : s.reader stream = .counted) :
    DrainInv { s with
      reader := Function.update s.reader stream .done, notifyCalls := s.notifyCalls + 1 } := by
  have hopened := inv.opened
  have hcounts := counts_update s stream .done
  rw [hcounted, show ReaderPc.counted.counts = ReaderPc.done.counts from rfl] at hcounts
  refine ⟨?_, inv.drained, fun calls hcalls => ?_, fun calls hcalls => ?_⟩
  · exact hopened.trans (Nat.add_right_cancel hcounts).symm
  · exact Nat.le_succ_of_le (inv.subscribed calls hcalls)
  · have hle := (inv.waiting calls hcalls).1
    exact ⟨Nat.le_succ_of_le hle, .inl (Nat.lt_succ_of_le hle)⟩

private theorem exists_open (inv : DrainInv s) (hopen : s.openReaders ≠ 0) :
    ∃ stream, s.reader stream ≠ .done := by
  by_contra hnone
  have hdone : ∀ stream, s.reader stream = .done := fun stream => by
    by_contra hne
    exact hnone ⟨stream, hne⟩
  apply hopen
  rw [inv.opened, hdone .stdout, hdone .stderr]
  rfl

private theorem drainInv_drain {drain : DrainPc} (inv : DrainInv s) (hdrained : drain ≠ .drained)
    (hsubscribed : ∀ calls, drain = .subscribed calls → calls ≤ s.notifyCalls)
    (hwaiting : ∀ calls, drain ≠ .waiting calls) : DrainInv { s with drain := drain } where
  opened := inv.opened
  drained := fun h => absurd h hdrained
  subscribed := hsubscribed
  waiting := fun calls h => absurd h (hwaiting calls)

private theorem drainInv_subscribe (inv : DrainInv s) :
    DrainInv { s with drain := .subscribed s.notifyCalls } := by
  refine drainInv_drain inv (fun h => by cases h) ?_ (fun calls h => by cases h)
  rintro calls ⟨⟩
  exact Nat.le_refl _

private theorem drainInv_step (inv : DrainInv s) (h : step s label = some t) : DrainInv t := by
  cases label with
  | write stream line =>
    obtain ⟨-, rfl⟩ := guarded_eq_some.mp h
    exact { inv with }
  | close stream =>
    cases h
    exact { inv with }
  | readLine stream =>
    simp only [step] at h
    split at h
    · obtain ⟨-, rfl⟩ := guarded_eq_some.mp h
      exact { inv with }
    · cases h
  | readFailed stream =>
    obtain ⟨hreading, rfl⟩ := guarded_eq_some.mp h
    exact drainInv_end inv hreading
  | readEnd stream =>
    obtain ⟨⟨hreading, -⟩, rfl⟩ := guarded_eq_some.mp h
    exact drainInv_end inv hreading
  | countOff stream =>
    obtain ⟨hended, rfl⟩ := guarded_eq_some.mp h
    exact drainInv_countOff inv hended
  | notify stream =>
    obtain ⟨hcounted, rfl⟩ := guarded_eq_some.mp h
    exact drainInv_notify inv hcounted
  | drainSubscribe =>
    obtain ⟨-, rfl⟩ := guarded_eq_some.mp h
    exact drainInv_subscribe inv
  | drainCheck =>
    simp only [step] at h
    split at h
    · next calls hsubscribed =>
      cases h
      have hle := inv.subscribed calls hsubscribed
      have hnotDone := exists_open inv
      by_cases hopen : s.openReaders = 0
      · rw [if_pos hopen]
        exact ⟨inv.opened, fun _ => hopen, fun calls h => (by cases h), fun calls h => (by cases h)⟩
      · rw [if_neg hopen]
        refine ⟨inv.opened, fun h => (by cases h), fun calls h => (by cases h), ?_⟩
        rintro calls' ⟨⟩
        exact ⟨hle, .inr (hnotDone hopen)⟩
    · cases h
  | drainWake =>
    simp only [step] at h
    split at h
    · obtain ⟨-, rfl⟩ := guarded_eq_some.mp h
      exact drainInv_subscribe inv
    · cases h
  | drainTimeout =>
    have htimedOut : DrainInv { s with drain := .timedOut } :=
      drainInv_drain inv (fun h => by cases h) (fun calls h => by cases h)
        (fun calls h => by cases h)
    simp only [step] at h
    split at h
    · cases h
      exact htimedOut
    · cases h
      exact htimedOut
    · cases h

/-! ## The log -/

private theorem linesOf_push (hroom : s.startupLog.length < maxStartupLogLines) (line : String)
    (rest : List String) (other : Stream) :
    (s.push stream line rest).linesOf other =
      s.linesOf other ++ if stream = other then [line] else [] := by
  simp only [Pipes.linesOf, Pipes.push, if_pos hroom, List.filterMap_append]
  by_cases hother : stream = other
  · simp only [List.filterMap_cons, List.filterMap_nil, if_pos hother]
  · simp only [List.filterMap_cons, List.filterMap_nil, if_neg hother]

private theorem linesOf_push_full (hfull : ¬ s.startupLog.length < maxStartupLogLines)
    (line : String) (rest : List String) (other : Stream) :
    (s.push stream line rest).linesOf other = s.linesOf other := by
  simp only [Pipes.linesOf, Pipes.push, if_neg hfull]

private theorem length_startupLog (s : Pipes) :
    s.startupLog.length = (s.linesOf .stdout).length + (s.linesOf .stderr).length := by
  unfold Pipes.linesOf
  induction s.startupLog with
  | nil => rfl
  | cons entry log ih =>
    obtain ⟨_ | _, line⟩ := entry
    · simp only [List.filterMap_cons, reduceCtorEq, if_true, if_false, List.length_cons, ih]
      omega
    · simp only [List.filterMap_cons, reduceCtorEq, if_true, if_false, List.length_cons, ih]
      omega

private theorem copied_write (hcopied : Copied s) (stream : Stream) (line : String) :
    Copied { s with
      written := Function.update s.written stream (s.written stream ++ [line])
      unread := Function.update s.unread stream (s.unread stream ++ [line]) } := by
  intro other
  obtain ⟨dropped, hlines, hfull⟩ := hcopied other
  refine ⟨dropped, ?_, hfull⟩
  change s.linesOf other ++ dropped ++ Function.update s.unread stream _ other =
    Function.update s.written stream _ other
  by_cases hother : other = stream
  · subst hother
    rw [Function.update_self, Function.update_self, ← hlines, List.append_assoc (_ ++ dropped)]
  · rw [Function.update_of_ne hother, Function.update_of_ne hother]
    exact hlines

private theorem copied_push {line : String} {rest : List String} (hcopied : Copied s)
    (hunread : s.unread stream = line :: rest) : Copied (s.push stream line rest) := by
  intro other
  obtain ⟨dropped, hlines, hfull⟩ := hcopied other
  change ∃ dropped, (s.push stream line rest).linesOf other ++ dropped ++
    Function.update s.unread stream rest other = s.written other ∧ _
  by_cases hroom : s.startupLog.length < maxStartupLogLines
  · -- While the log has room nothing was dropped.
    have hnone : dropped = [] := by
      by_contra hdropped
      exact absurd hroom (Nat.not_lt.mpr (hfull hdropped))
    subst hnone
    rw [linesOf_push hroom]
    refine ⟨[], ?_, fun h => absurd rfl h⟩
    by_cases hother : other = stream
    · subst hother
      rw [Function.update_self, if_pos rfl, ← hlines, hunread]
      simp only [List.append_nil, List.append_assoc, List.cons_append, List.nil_append]
    · rw [Function.update_of_ne hother, if_neg (Ne.symm hother), List.append_nil]
      exact hlines
  · have hfull' : maxStartupLogLines ≤ (s.push stream line rest).startupLog.length := by
      simpa only [Pipes.push, if_neg hroom] using Nat.not_lt.mp hroom
    rw [linesOf_push_full hroom]
    by_cases hother : other = stream
    · subst hother
      refine ⟨dropped ++ [line], ?_, fun _ => hfull'⟩
      rw [Function.update_self, ← hlines, hunread]
      simp only [List.append_assoc, List.cons_append, List.nil_append]
    · refine ⟨dropped, ?_, fun _ => hfull'⟩
      rw [Function.update_of_ne hother]
      exact hlines

private theorem step_lines (h : step s label = some t) :
    (t.written = s.written ∧ t.unread = s.unread ∧ t.startupLog = s.startupLog) ∨
    (∃ stream line, s.closed stream = false ∧ t = { s with
      written := Function.update s.written stream (s.written stream ++ [line])
      unread := Function.update s.unread stream (s.unread stream ++ [line]) }) ∨
    (∃ stream line rest, s.reader stream = .reading ∧ s.unread stream = line :: rest ∧
      t = s.push stream line rest) := by
  cases label with
  | write stream line =>
    obtain ⟨hclosed, rfl⟩ := guarded_eq_some.mp h
    exact .inr (.inl ⟨stream, line, hclosed, rfl⟩)
  | readLine stream =>
    simp only [step] at h
    split at h
    · next line rest hunread =>
      obtain ⟨hreading, rfl⟩ := guarded_eq_some.mp h
      exact .inr (.inr ⟨stream, line, rest, hreading, hunread, rfl⟩)
    · cases h
  | close stream =>
    cases h
    exact .inl ⟨rfl, rfl, rfl⟩
  | readFailed stream | readEnd stream | countOff stream | notify stream =>
    obtain ⟨-, rfl⟩ := guarded_eq_some.mp h
    exact .inl ⟨rfl, rfl, rfl⟩
  | drainSubscribe =>
    obtain ⟨-, rfl⟩ := guarded_eq_some.mp h
    exact .inl ⟨rfl, rfl, rfl⟩
  | drainCheck =>
    simp only [step] at h
    split at h <;> cases h
    exact .inl ⟨rfl, rfl, rfl⟩
  | drainWake =>
    simp only [step] at h
    split at h
    · obtain ⟨-, rfl⟩ := guarded_eq_some.mp h
      exact .inl ⟨rfl, rfl, rfl⟩
    · cases h
  | drainTimeout =>
    simp only [step] at h
    split at h <;> cases h <;> exact .inl ⟨rfl, rfl, rfl⟩

private theorem copied_step (hcopied : Copied s) (h : step s label = some t) : Copied t := by
  obtain ⟨hwritten, hunread, hlog⟩ | ⟨stream, line, -, rfl⟩ |
    ⟨stream, line, rest, -, hunread, rfl⟩ := step_lines h
  · intro other
    obtain ⟨dropped, hlines, hfull⟩ := hcopied other
    refine ⟨dropped, ?_, ?_⟩
    · rw [Pipes.linesOf, hwritten, hunread, hlog]
      exact hlines
    · rw [hlog]
      exact hfull
  · exact copied_write hcopied stream line
  · exact copied_push hcopied hunread

private theorem endedAtEnd_step (hended : EndedAtEnd s)
    (hread : ∀ stream, label ≠ .readFailed stream) (h : step s label = some t) :
    EndedAtEnd t := by
  have hmoved : ∀ stream pc, s.reader stream ≠ .reading →
      ∀ other, Function.update s.reader stream pc other ≠ .reading → s.reader other ≠ .reading := by
    intro stream pc hne other hother
    by_cases heq : other = stream
    · rwa [heq]
    · rwa [Function.update_of_ne heq] at hother
  cases label with
  | write stream line =>
    obtain ⟨hclosed, rfl⟩ := guarded_eq_some.mp h
    intro other hother
    have hne : other ≠ stream := by
      rintro rfl
      rw [(hended other hother).2] at hclosed
      cases hclosed
    change Function.update s.unread stream _ other = [] ∧ _
    rw [Function.update_of_ne hne]
    exact hended other hother
  | close stream =>
    cases h
    intro other hother
    refine ⟨(hended other hother).1, ?_⟩
    change Function.update s.closed stream true other = true
    by_cases heq : other = stream
    · rw [heq, Function.update_self]
    · rw [Function.update_of_ne heq]
      exact (hended other hother).2
  | readLine stream =>
    simp only [step] at h
    split at h
    · obtain ⟨hreading, rfl⟩ := guarded_eq_some.mp h
      intro other hother
      have hne : other ≠ stream := by
        rintro rfl
        exact hother hreading
      change Function.update s.unread stream _ other = [] ∧ _
      rw [Function.update_of_ne hne]
      exact hended other hother
    · cases h
  | readFailed stream => exact absurd rfl (hread stream)
  | readEnd stream =>
    obtain ⟨⟨-, hunread, hclosed⟩, rfl⟩ := guarded_eq_some.mp h
    intro other hother
    by_cases heq : other = stream
    · rw [heq]
      exact ⟨hunread, hclosed⟩
    · refine hended other ?_
      change Function.update s.reader stream .ended other ≠ .reading at hother
      rwa [Function.update_of_ne heq] at hother
  | countOff stream =>
    obtain ⟨hreader, rfl⟩ := guarded_eq_some.mp h
    exact fun other hother => hended other (hmoved stream _ (by rw [hreader]; decide) other hother)
  | notify stream =>
    obtain ⟨hreader, rfl⟩ := guarded_eq_some.mp h
    exact fun other hother => hended other (hmoved stream _ (by rw [hreader]; decide) other hother)
  | drainSubscribe =>
    obtain ⟨-, rfl⟩ := guarded_eq_some.mp h
    exact hended
  | drainCheck =>
    simp only [step] at h
    split at h <;> cases h
    exact hended
  | drainWake =>
    simp only [step] at h
    split at h
    · obtain ⟨-, rfl⟩ := guarded_eq_some.mp h
      exact hended
    · cases h
  | drainTimeout =>
    simp only [step] at h
    split at h <;> cases h <;> exact hended

/-! ## Every run -/

private theorem drainInv_init : DrainInv Pipes.init :=
  ⟨rfl, fun h => (by cases h), fun calls h => (by cases h), fun calls h => (by cases h)⟩

private theorem drainInv_reachable (h : Reachable step Pipes.init s) : DrainInv s :=
  h.invariant (fun _ _ _ inv hstep => drainInv_step inv hstep) drainInv_init

private theorem copied_reachable (h : Reachable step Pipes.init s) : Copied s :=
  h.invariant (P := Copied) (fun _ _ _ hcopied hstep => copied_step hcopied hstep)
    (fun _ => ⟨[], rfl, fun h => absurd rfl h⟩)

private theorem not_reading (inv : DrainInv s) (hzero : s.openReaders = 0) (stream : Stream) :
    s.reader stream ≠ .reading := by
  intro hreading
  have hopened := inv.opened
  cases stream with
  | stdout =>
    rw [hreading, show ReaderPc.reading.counts = 1 from rfl] at hopened
    omega
  | stderr =>
    rw [hreading, show ReaderPc.reading.counts = 1 from rfl] at hopened
    omega

private theorem linesOf_eq_written (hcopied : Copied s)
    (hroom : (s.written .stdout).length + (s.written .stderr).length ≤ maxStartupLogLines)
    (hunread : s.unread stream = []) : s.linesOf stream = s.written stream := by
  obtain ⟨dropped, hlines, hfull⟩ := hcopied stream
  have hnone : dropped = [] := by
    by_contra hdropped
    have hmax := hfull hdropped
    have hpos := List.length_pos_iff.mpr hdropped
    have hlength := length_startupLog s
    have hother : ∀ other, (s.linesOf other).length ≤ (s.written other).length := fun other => by
      obtain ⟨dropped', hlines', -⟩ := hcopied other
      have hlen := congrArg List.length hlines'
      simp only [List.length_append] at hlen
      omega
    have hout := hother .stdout
    have herr := hother .stderr
    have hlen := congrArg List.length hlines
    simp only [List.length_append] at hlen
    cases stream with
    | stdout => omega
    | stderr => omega
  rw [← hlines, hnone, hunread, List.append_nil, List.append_nil]

/-- The wait never sleeps through the last reader, and what a wait that returned in time reports is
all the process wrote: both streams are at their end, and the log has every line of them in order
when there are no more lines than it holds. -/
theorem drained_output_complete {labels : List Label} (h : exec step Pipes.init labels = some s) :
    (∀ calls, s.drain = .waiting calls → (∀ stream, s.reader stream = .done) →
      calls < s.notifyCalls) ∧
    (s.drain = .drained → (∀ stream, Label.readFailed stream ∉ labels) →
      (∀ stream, s.closed stream = true) ∧
      ((s.written .stdout).length + (s.written .stderr).length ≤ maxStartupLogLines →
        ∀ stream, s.linesOf stream = s.written stream)) := by
  have inv := drainInv_reachable ⟨labels, h⟩
  refine ⟨fun calls hwaiting hdone => ?_, fun hdrained hread => ?_⟩
  · obtain ⟨-, hwoken | ⟨stream, hnot⟩⟩ := inv.waiting calls hwaiting
    · exact hwoken
    · exact absurd (hdone stream) hnot
  · have hended : EndedAtEnd s := by
      refine exec_invariant_along (P := EndedAtEnd)
        (C := fun _ label => ∀ stream, label ≠ .readFailed stream)
        (fun _ _ _ hended hlabel hstep => endedAtEnd_step hended hlabel hstep)
        (fun stream hne => absurd rfl hne) ?_ h
      refine along_of_forall_mem (fun label hmem stream heq => ?_) _
      exact hread stream (heq ▸ hmem)
    have hends := fun stream => hended stream (not_reading inv (inv.drained hdrained) stream)
    refine ⟨fun stream => (hends stream).2, fun hroom stream => ?_⟩
    exact linesOf_eq_written (copied_reachable ⟨labels, h⟩) hroom (hends stream).1

/-- The process exits with its last line still in the pipe, while the wait goes on. -/
def lastLine : List Label :=
  [.write .stdout "loading model", .readLine .stdout, .write .stderr "error: out of memory",
    .close .stdout, .close .stderr, .drainSubscribe, .drainCheck, .readEnd .stdout,
    .countOff .stdout, .notify .stdout, .drainWake, .drainCheck, .readLine .stderr,
    .readEnd .stderr, .countOff .stderr, .notify .stderr, .drainWake, .drainCheck]

/-- The line is in the log when the wait returns. -/
theorem lastLine_complete : ∃ s, exec step Pipes.init lastLine = some s ∧ s.drain = .drained ∧
    s.linesOf .stderr = ["error: out of memory"] := by
  have hread : ∀ stream, Label.readFailed stream ∉ lastLine := by
    rintro (_ | _) <;> simp [lastLine]
  refine ⟨_, rfl, rfl, ?_⟩
  have hrun : exec step Pipes.init lastLine = some _ := rfl
  exact (((drained_output_complete hrun).2 rfl hread).2 (by decide) .stderr).trans rfl

end Llamesh.Instance.Output
