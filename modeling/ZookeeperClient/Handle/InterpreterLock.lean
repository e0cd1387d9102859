import ZookeeperClient.Handle.Close

/-!
# `close` and the interpreter lock

The threads of a handle under the interpreter lock. A Ruby thread needs the lock for each of its
steps; `rb_thread_wait_fd` gives it up, but `zkrb_dequeue`, `zkrb_signal`, `zookeeper_close` and
`zkrb_queue_free` do not, and wait for `zkrb_q_mutex`, which all handles share, or for the threads
of the C client while nobody else can run Ruby code. The threads of the C client do not need the
lock.

A call that has the lock and waits for a writer that is blocked at a full pipe waits for ever: the
event thread, which could make room, cannot call `read` without the lock.

## Main definitions

- `GvlHolder`, `GvlCZookeeper`, `gvlCZookeeper` — a handle with the interpreter lock
- `GvlCZookeeper.Destroys` — every call of `close` comes to its end, and the handle to its own
- `GvlCZookeeper.Undamaged` — the steps that do not keep `close` from its end
- `GvlCZookeeper.Deadlocked` — `zkrb_signal` has the lock, and a writer has `zkrb_q_mutex`

## Main results

- `not_destroys_failed_read` — a handle that is not closed, since `read` has failed
- `waking_of_deadlocked` — in a deadlock `close` never returns
- `destroys_of_undamaged` — in runs all of whose steps satisfy `Undamaged`, `close` destroys the
  handle
-/

namespace ZookeeperClient

open Transition

/-- Who has the interpreter lock between two steps. -/
inductive GvlHolder where
  /-- The event thread, in `zkrb_dequeue`. -/
  | eventThread
  /-- A call of `close`, in `zkrb_signal` or `close_handle`. -/
  | closer
  /-- Another thread, in a call that waits for `zkrb_q_mutex`. -/
  | other
  deriving DecidableEq, Repr

/-- A handle and the interpreter lock. -/
structure GvlCZookeeper (ε : Type) where
  handle : CZookeeper ε
  gvl : Option GvlHolder
  deriving DecidableEq, Repr

/-- The steps of a handle, and of those who take the lock for a call that may wait. -/
inductive GvlAct (ε : Type) where
  | handle (a : CZookeeperAct ε)
  /-- The event thread calls `zkrb_dequeue`. -/
  | enterDequeue
  /-- `close` calls `zkrb_signal`. -/
  | enterSignal
  /-- Another thread begins a call that waits for `zkrb_q_mutex`. -/
  | enterOther
  /-- That call gets the mutex and returns. -/
  | leaveOther
  deriving DecidableEq, Repr

namespace GvlCZookeeper

variable {ε : Type}

def initial : GvlCZookeeper ε where
  handle := .initial
  gvl := none

/-- Who has to have the interpreter lock for a step. The threads of the C client do not, and
`rb_thread_wait_fd` notices that the pipe has become readable before it takes the lock again. -/
def Runs (s : GvlCZookeeper ε) : CZookeeperAct ε → Prop
  | .thread .dequeue => s.gvl = some .eventThread
  | .close .signal | .close .zookeeperClose | .close .queueFree => s.gvl = some .closer
  | .thread .wake | .enqueue _ | .finishWrite | .lockElsewhere | .unlockElsewhere => True
  | .init _ | .thread _ | .call _ | .close _ => s.gvl = none

/-- Who has the lock after a step. `zkrb_signal` keeps it while its write is blocked, and
`close_handle` from its beginning to its end. -/
def gvlAfter (cap : ℕ) (s : GvlCZookeeper ε) : CZookeeperAct ε → Option GvlHolder
  | .thread .dequeue | .close .queueFree => none
  | .close .signal => if s.handle.pipe < cap then none else s.gvl
  | .close .closeHandle =>
    if (s.handle.closeNext cap .closeHandle).call = .destroying then some .closer else none
  | .finishWrite => if s.handle.qMutex = some (.writer .signalling) then none else s.gvl
  | _ => s.gvl

def Enabled (cap : ℕ) (s : GvlCZookeeper ε) : GvlAct ε → Prop
  | .handle a => s.handle.Enabled cap a ∧ s.Runs a
  | .enterDequeue => s.handle.thread = .dequeuing ∧ s.gvl = none
  | .enterSignal => s.handle.call = .waking ∧ s.gvl = none
  | .enterOther => s.gvl = none
  | .leaveOther => s.gvl = some .other ∧ s.handle.qMutex = none

def next (cap : ℕ) (s : GvlCZookeeper ε) : GvlAct ε → GvlCZookeeper ε
  | .handle a => ⟨s.handle.next cap a, s.gvlAfter cap a⟩
  | .enterDequeue => { s with gvl := some .eventThread }
  | .enterSignal => { s with gvl := some .closer }
  | .enterOther => { s with gvl := some .other }
  | .leaveOther => { s with gvl := none }

end GvlCZookeeper

/-- The system of one handle under the interpreter lock. -/
def gvlCZookeeper (ε : Type) (cap : ℕ) : System (GvlCZookeeper ε) (GvlAct ε) where
  Init s := s = GvlCZookeeper.initial
  Enabled := GvlCZookeeper.Enabled cap
  next := GvlCZookeeper.next cap

namespace GvlCZookeeper

variable {ε : Type} {cap : ℕ} {s s' : GvlCZookeeper ε}

/-- The steps of a call of `close`, of the event thread it waits for, of the writers that are
blocked and of those who have the interpreter lock. -/
def Own : GvlAct ε → Prop
  | .handle a => CZookeeper.Own a
  | .enterDequeue | .enterSignal | .leaveOther => True
  | .enterOther => False

/-- The steps that are taken in the end if they can be: those of `Own` without the exceptions. -/
def Due (s : GvlCZookeeper ε) : GvlAct ε → Prop
  | .handle a => s.handle.Due a
  | a => Own a

/-- In runs whose steps meet `ok`, no call of `close` raises; one that has returned leaves the
handle closed and `@event_thread` `nil`; and one that is in progress returns to the `close` or
`reopen` that has called it, however the threads are scheduled. -/
structure Destroys (cap : ℕ) (ok : GvlCZookeeper ε → GvlAct ε → Prop) (s : GvlCZookeeper ε) :
    Prop where
  unraised (error : EventThreadError) : s.handle.call ≠ .raised error
  destroyed : s.handle.call = .returned →
    s.handle.closed = true ∧ s.handle.eventThread = false
  finish : s.handle.call.InProgress →
    (gvlCZookeeper ε cap).Inevitable (fun s a => ok s a ∧ Own a) Due
      (fun s' => s'.handle.call = .returned ∧ s'.handle.op = s.handle.op) s

/-- Whoever waits for `zkrb_q_mutex` gets it without the event thread. -/
def MutexComes (cap : ℕ) (s : GvlCZookeeper ε) : Prop :=
  s.handle.qMutex = none ∨ s.handle.pipe < cap

/-- No exception ends the event thread. No writer on the pipe of another handle is blocked.
`zkrb_signal` finds room in the pipe, and so does `zkrb_enqueue` unless the event thread is between
finding the list empty and its `read` and nobody has the interpreter lock in a call; the event
thread does not leave there for `@_shutting_down` while a write is blocked; and no other thread
takes the interpreter lock for a call that waits for `zkrb_q_mutex` before there is room. -/
def Undamaged (cap : ℕ) (s : GvlCZookeeper ε) : GvlAct ε → Prop
  | .handle .lockElsewhere => False
  | .handle (.enqueue _) => s.handle.pipe < cap ∨ (s.handle.toLoop.Waiting ∧ s.gvl = none)
  | .handle a => s.handle.Undamaged cap a
  | .enterSignal | .enterOther => s.MutexComes cap
  | .enterDequeue | .leaveOther => True

theorem undamaged_handle {a : CZookeeperAct ε} (h : s.Undamaged cap (.handle a)) :
    s.handle.Undamaged cap a := by
  cases a with
  | lockElsewhere => exact h.elim
  | enqueue event => exact h.imp id And.left
  | init | thread | call | close | finishWrite | unlockElsewhere => exact h

/-- A run under the lock is a run of the handle. -/
theorem reachable_handle {ok : GvlCZookeeper ε → GvlAct ε → Prop}
    {okHandle : CZookeeper ε → CZookeeperAct ε → Prop}
    (hok : ∀ s a, ok s (.handle a) → okHandle s.handle a)
    (h : (gvlCZookeeper ε cap).Reachable ok s) :
    (cZookeeper ε cap).Reachable okHandle s.handle := by
  refine h.map handle ?_ fun s a hen ha => ?_
  · rintro _ rfl
    rfl
  · cases a with
    | handle a => exact Or.inr ((cZookeeper ε cap).step_intro a hen.1 (hok s a ha))
    | enterDequeue | enterSignal | enterOther | leaveOther => exact Or.inl rfl

/-! ## The defects -/

/-- `read` fails in the event thread, and then `close` is called. -/
def closeAfterFailedRead : List (GvlAct ℕ) :=
  [.handle (.thread .waitUntil), .handle (.init .queueAlloc), .handle (.init .zookeeperInit),
    .handle (.init .setData), .handle (.init .setRunningAndNotify), .handle (.thread .waitUntil),
    .handle (.thread .enter), .handle (.thread .fetchDataPtr), .handle (.thread .checkClosed),
    .enterDequeue, .handle (.thread .dequeue), .handle (.thread .checkShutdown),
    .handle (.enqueue 7), .handle (.thread .wake), .handle (.thread .readFails),
    .handle (.call .reopen), .handle (.close .testClosed), .handle (.close .shutDown),
    .handle (.close .testThread), .enterSignal, .handle (.close .signal), .handle (.close .join)]

/-- `close` raises `read failed`, and with it the `reopen` that has called it. -/
theorem not_destroys_failed_read :
    ¬∀ s, (gvlCZookeeper ℕ 65536).Reachable System.anyStep s →
      s.Destroys 65536 System.anyStep := by
  intro hall
  have hvalid : (gvlCZookeeper ℕ 65536).Valid System.anyStep initial closeAfterFailedRead := by
    simp [System.Valid, System.anyStep, gvlCZookeeper, Enabled, Runs, next, gvlAfter, initial,
      CZookeeper.Enabled, CZookeeper.InitEnabled, CZookeeper.ThreadEnabled,
      CZookeeper.CloseEnabled, CZookeeper.ClientRuns, CZookeeper.next, CZookeeper.initNext,
      CZookeeper.threadNext, CZookeeper.closeNext, CZookeeper.zkrbSignal, CZookeeper.zkrbEnqueue,
      CZookeeper.writeByte, CZookeeper.initial, EventThreadPc.broadcast, ClosePc.InProgress,
      closeAfterFailedRead]
  exact (hall _ (hvalid.reachable_exec rfl)).unraised .readFailed rfl

/-- `zkrb_signal` has the interpreter lock and waits for `zkrb_q_mutex`, which a writer has that is
blocked at a full pipe, and the event thread waits for the pipe or for the lock. -/
structure Deadlocked (cap : ℕ) (s : GvlCZookeeper ε) : Prop where
  call : s.handle.call = .waking
  gvl : s.gvl = some .closer
  qMutex : s.handle.qMutex = some (.writer .enqueuing)
  full : ¬s.handle.pipe < cap
  thread : s.handle.thread = .parked ∨ s.handle.thread = .readable

theorem deadlocked_next (hs : s.Deadlocked cap) {a : GvlAct ε} (hen : s.Enabled cap a) :
    (s.next cap a).Deadlocked cap := by
  have hgvl : s.gvl ≠ none := by simp [hs.gvl]
  cases a with
  | handle a =>
    obtain ⟨hen, hruns⟩ := hen
    cases a with
    | init | call => exact absurd hruns hgvl
    | thread act =>
      cases act with
      | wake => exact ⟨hs.call, hs.gvl, hs.qMutex, hs.full, Or.inr rfl⟩
      | dequeue => simp [Runs, hs.gvl] at hruns
      | waitUntil | enter | fetchDataPtr | checkClosed | checkShutdown | read | readFails | push
        | pushRaises => exact absurd hruns hgvl
    | close act =>
      cases act with
      | signal => simp [CZookeeper.Enabled, CZookeeper.CloseEnabled, hs.qMutex] at hen
      | zookeeperClose | queueFree =>
        simp [CZookeeper.Enabled, CZookeeper.CloseEnabled, hs.call] at hen
      | testClosed | shutDown | testThread | join | forget | closeHandle =>
        exact absurd hruns hgvl
    | enqueue event => simp [CZookeeper.Enabled, hs.qMutex] at hen
    | finishWrite => exact absurd hen.2 hs.full
    | lockElsewhere | unlockElsewhere => simp [CZookeeper.Enabled, hs.qMutex] at hen
  | enterDequeue | enterSignal => exact absurd hen.2 hgvl
  | enterOther => exact absurd hen hgvl
  | leaveOther => simp [Enabled, hs.gvl] at hen

/-- **In a deadlock `close` never returns**, and nobody else runs Ruby code any more. -/
theorem waking_of_deadlocked (hs : s.Deadlocked cap)
    (h : (gvlCZookeeper ε cap).Reaches System.anyStep s s') :
    s'.handle.call = .waking ∧ s'.gvl = some .closer := by
  have hs' : s'.Deadlocked cap := h.invariant (I := Deadlocked cap)
    (fun _ _ hs hen _ => deadlocked_next hs hen) hs
  exact ⟨hs'.call, hs'.gvl⟩

/-- Two events fill a pipe of one byte while the event thread is parked, and then `reopen` closes
the handle. -/
theorem deadlocked_full_pipe :
    Deadlocked 1 ((gvlCZookeeper ℕ 1).exec initial
      [.handle (.thread .waitUntil), .handle (.init .queueAlloc), .handle (.init .zookeeperInit),
        .handle (.init .setData), .handle (.init .setRunningAndNotify),
        .handle (.thread .waitUntil), .handle (.thread .enter), .handle (.thread .fetchDataPtr),
        .handle (.thread .checkClosed), .enterDequeue, .handle (.thread .dequeue),
        .handle (.thread .checkShutdown), .handle (.enqueue 7), .handle (.enqueue 8),
        .handle (.call .reopen), .handle (.close .testClosed), .handle (.close .shutDown),
        .handle (.close .testThread), .enterSignal]) where
  call := rfl
  gvl := rfl
  qMutex := rfl
  full := by decide
  thread := Or.inl rfl

/-! ## Runs in which `close` comes to its end -/

theorem healthy_of_reachable (h : (gvlCZookeeper ε cap).Reachable (Undamaged cap) s) :
    s.handle.Healthy cap :=
  CZookeeper.healthy_of_reachable (reachable_handle (fun _ _ => undamaged_handle) h)

/-- Where whoever has the interpreter lock is. -/
structure Locked (cap : ℕ) (s : GvlCZookeeper ε) : Prop where
  eventThread : s.gvl = some .eventThread → s.handle.thread = .dequeuing
  closer : s.gvl = some .closer →
    s.handle.call = .waking ∨ s.handle.call = .destroying ∨ s.handle.call = .freeing
  destroying : s.handle.call = .destroying ∨ s.handle.call = .freeing → s.gvl = some .closer
  /-- A blocked writer finds room, or the event thread can get the lock and make it. -/
  blocked (w : Writer) : s.handle.qMutex = some (.writer w) → s.handle.pipe < cap ∨ s.gvl = none
  enqueuing : s.handle.qMutex = none ∨ s.handle.qMutex = some (.writer .enqueuing)

theorem locked_initial : (initial : GvlCZookeeper ε).Locked cap where
  eventThread h := by cases h
  closer h := by cases h
  destroying h := by rcases h with h | h <;> cases h
  blocked w h := by cases h
  enqueuing := Or.inl rfl

/-- Nobody has the lock after the step, and `close` is not in `close_handle`. -/
theorem Locked.of_none {s' : GvlCZookeeper ε} (hgvl : s'.gvl = none)
    (hcall : s'.handle.call ≠ .destroying ∧ s'.handle.call ≠ .freeing)
    (hmutex : s'.handle.qMutex = none ∨ s'.handle.qMutex = some (.writer .enqueuing)) :
    s'.Locked cap where
  eventThread h := by cases hgvl.symm.trans h
  closer h := by cases hgvl.symm.trans h
  destroying h := by
    obtain h | h := h
    · exact absurd h hcall.1
    · exact absurd h hcall.2
  blocked _ _ := Or.inr hgvl
  enqueuing := hmutex

/-- `close` is in `close_handle` only with the lock. -/
theorem Locked.not_destroying (hs : s.Locked cap) (hgvl : s.gvl ≠ some .closer) :
    s.handle.call ≠ .destroying ∧ s.handle.call ≠ .freeing :=
  ⟨fun h => hgvl (hs.destroying (Or.inl h)), fun h => hgvl (hs.destroying (Or.inr h))⟩

/-- Between calls that keep it nobody has the lock. -/
theorem Locked.thread (hs : s.Locked cap) {act : EventThreadAct}
    (hen : s.handle.ThreadEnabled act) (hruns : s.Runs (.thread act)) :
    (s.next cap (.handle (.thread act))).Locked cap := by
  cases act with
  | dequeue =>
    have hcall := hs.not_destroying (by simp [show s.gvl = _ from hruns])
    refine Locked.of_none rfl ?_ ?_ <;>
      simp only [next, CZookeeper.next, CZookeeper.threadNext] <;> split
    · exact hcall
    · exact hcall
    · exact hs.enqueuing
    · exact hs.enqueuing
  | wake =>
    refine ⟨fun hgvl => ?_, hs.closer, hs.destroying, hs.blocked, hs.enqueuing⟩
    have hpc := hs.eventThread hgvl
    rw [hen.1] at hpc
    cases hpc
  | waitUntil | enter | fetchDataPtr | checkClosed | checkShutdown | read | readFails | push
    | pushRaises =>
    have hgvl : s.gvl = none := hruns
    exact Locked.of_none hgvl (hs.not_destroying (by simp [hgvl])) hs.enqueuing

theorem Locked.close (hs : s.Locked cap) (hhealthy : s.handle.Healthy cap)
    (hcon : s.handle.Constructed) (hord : s.handle.Ordered) {act : CloseAct}
    (hen : s.handle.CloseEnabled act) (hruns : s.Runs (.close act))
    (hok : s.handle.Undamaged cap (.close act)) :
    (s.next cap (.handle (.close act))).Locked cap := by
  cases act with
  | testClosed =>
    refine Locked.of_none hruns ?_ hs.enqueuing
    simp only [next, CZookeeper.next, CZookeeper.closeNext]
    split_ifs <;> simp
  | shutDown | forget =>
    exact Locked.of_none hruns ⟨fun h => (by cases h), fun h => (by cases h)⟩ hs.enqueuing
  | testThread =>
    have hstep : s.handle.closeNext cap .testThread = _ := hord.testThread_eq hcon hen
    refine Locked.of_none hruns ?_ ?_ <;> simp only [next, CZookeeper.next, hstep]
    · split_ifs <;> simp
    · exact hs.enqueuing
  | join =>
    refine Locked.of_none hruns ?_ hs.enqueuing
    simp only [next, CZookeeper.next, CZookeeper.closeNext]
    split <;> simp
  | signal =>
    have hroom : s.handle.pipe < cap := hok
    refine Locked.of_none (if_pos hroom) ?_ ?_ <;>
      simp [next, CZookeeper.next, CZookeeper.closeNext, CZookeeper.zkrbSignal,
        CZookeeper.writeByte, hroom]
  | closeHandle =>
    have hstep : s.handle.closeNext cap .closeHandle = _ := hord.closeHandle_eq hcon hen
    have hended : s.handle.thread = .ended none := hord.forgotten (hord.behind_of hen).2.2
    have hgvl : (s.next cap (.handle (.close .closeHandle))).gvl = some .closer := by
      simp [next, gvlAfter, hstep]
    refine ⟨fun h => (by cases hgvl.symm.trans h), fun _ => Or.inr (Or.inl ?_), fun _ => hgvl,
      fun w hheld => Or.inl ?_, ?_⟩ <;> simp only [next, CZookeeper.next, hstep] at *
    · -- the event thread has ended, so a blocked writer has room
      refine hhealthy.room ?_ hheld
      simp [Loop.Waiting, CZookeeper.toLoop, hended, EventThreadPc.toPc]
    · exact hs.enqueuing
  | zookeeperClose =>
    have hgvl : s.gvl = some .closer := hruns
    exact ⟨fun h => (by cases hgvl.symm.trans h), fun _ => Or.inr (Or.inr rfl), fun _ => hgvl,
      hs.blocked, hs.enqueuing⟩
  | queueFree =>
    exact Locked.of_none rfl ⟨fun h => (by cases h), fun h => (by cases h)⟩ hs.enqueuing

/-- A write that blocks leaves the lock to the event thread. -/
theorem Locked.enqueue (hs : s.Locked cap) {event : ε}
    (hok : s.Undamaged cap (.handle (.enqueue event))) :
    (s.next cap (.handle (.enqueue event))).Locked cap := by
  by_cases hroom : s.handle.pipe < cap
  · refine ⟨?_, ?_, ?_, ?_, ?_⟩ <;>
      simp only [next, gvlAfter, CZookeeper.next, CZookeeper.zkrbEnqueue, CZookeeper.writeByte,
        hroom, if_true]
    · exact hs.eventThread
    · exact hs.closer
    · exact hs.destroying
    · exact fun w h => by cases h
    · exact Or.inl trivial
  · have hgvl := (hok.resolve_left hroom).2
    refine Locked.of_none hgvl ?_ ?_ <;>
      simp only [next, CZookeeper.next, CZookeeper.zkrbEnqueue, CZookeeper.writeByte, hroom,
        if_false]
    · exact hs.not_destroying (by simp [hgvl])
    · exact Or.inr trivial

theorem Locked.finishWrite (hs : s.Locked cap) (hen : s.handle.Enabled cap .finishWrite) :
    (s.next cap (.handle .finishWrite)).Locked cap := by
  obtain ⟨⟨w, hheld⟩, -⟩ := hen
  have hnot : s.handle.qMutex ≠ some (.writer .signalling) := by
    obtain hfree | hbusy := hs.enqueuing
    · simp [hfree]
    · simp [hbusy]
  refine ⟨?_, ?_, ?_, fun w h => (by cases h), Or.inl rfl⟩ <;>
    simp only [next, gvlAfter, CZookeeper.next, hnot, if_false]
  · exact hs.eventThread
  · exact hs.closer
  · exact hs.destroying

theorem locked_next (hs : s.Locked cap) (hhealthy : s.handle.Healthy cap)
    (hcon : s.handle.Constructed) (hord : s.handle.Ordered) {a : GvlAct ε}
    (hen : s.Enabled cap a) (hok : s.Undamaged cap a) : (s.next cap a).Locked cap := by
  cases a with
  | handle a =>
    obtain ⟨hen, hruns⟩ := hen
    cases a with
    | init act =>
      have hgvl : s.gvl = none := hruns
      have hcall := hs.not_destroying (by simp [hgvl])
      cases act <;> exact Locked.of_none hgvl hcall hs.enqueuing
    | thread act => exact hs.thread hen hruns
    | call op =>
      exact Locked.of_none hruns ⟨fun h => (by cases h), fun h => (by cases h)⟩ hs.enqueuing
    | close act => exact hs.close hhealthy hcon hord hen hruns hok
    | enqueue event => exact hs.enqueue hok
    | finishWrite => exact hs.finishWrite hen
    | lockElsewhere => exact hok.elim
    | unlockElsewhere =>
      have hheld : s.handle.qMutex = some .elsewhere := hen
      obtain hfree | hbusy := hs.enqueuing
      · cases hheld.symm.trans hfree
      · cases hheld.symm.trans hbusy
  | enterDequeue =>
    obtain ⟨hpc, hgvl⟩ := hen
    refine ⟨fun _ => hpc, fun h => (by cases h), fun h => ?_, fun w hheld => Or.inl ?_,
      hs.enqueuing⟩
    · cases hgvl.symm.trans (hs.destroying h)
    · refine hhealthy.room ?_ hheld
      simp [Loop.Waiting, CZookeeper.toLoop, hpc, EventThreadPc.toPc]
  | enterSignal =>
    refine ⟨fun h => (by cases h), fun _ => Or.inl hen.1, fun _ => rfl, fun w hheld => Or.inl ?_,
      hs.enqueuing⟩
    exact hok.resolve_left fun hfree => by cases hfree.symm.trans hheld
  | enterOther =>
    have hgvl : s.gvl = none := hen
    refine ⟨fun h => (by cases h), fun h => (by cases h), fun h => ?_, fun w hheld => Or.inl ?_,
      hs.enqueuing⟩
    · cases hgvl.symm.trans (hs.destroying h)
    · exact hok.resolve_left fun hfree => by cases hfree.symm.trans hheld
  | leaveOther => exact Locked.of_none rfl (hs.not_destroying (by simp [hen.1])) hs.enqueuing

theorem locked_of_reachable (h : (gvlCZookeeper ε cap).Reachable (Undamaged cap) s) :
    s.Locked cap := by
  refine h.invariant_under
    (J := fun s => s.handle.Healthy cap ∧ s.handle.Constructed ∧ s.handle.Ordered) ?_ ?_ ?_
  · exact fun s hr => ⟨healthy_of_reachable hr, CZookeeper.ordered_of_reachable
      (reachable_handle (fun _ _ => undamaged_handle) hr)⟩
  · rintro _ rfl
    exact locked_initial
  · exact fun s a ⟨hhealthy, hcon, hord⟩ hs hen hok =>
      locked_next hs hhealthy hcon hord hen hok

/-! ### What is left to do -/

/-- Taking and giving back the lock comes before the steps that need it. -/
def gvlRank : Option GvlHolder → ℕ
  | some .other => 3
  | none => 2
  | some .eventThread | some .closer => 0

def rank (s : GvlCZookeeper ε) : ℕ :=
  4 * s.handle.rank + gvlRank s.gvl

theorem gvlRank_le (gvl : Option GvlHolder) : gvlRank gvl ≤ 3 := by
  obtain _ | _ | _ | _ := gvl <;> simp [gvlRank]

/-- Every step that is taken without new events brings `close` closer to its end. -/
theorem rank_next (hord : s.handle.Ordered) {a : GvlAct ε} (hen : s.Enabled cap a) (hown : Own a) :
    (s.next cap a).rank < s.rank := by
  cases a with
  | handle a =>
    have hlower := CZookeeper.rank_next hord hen.1 hown
    have hafter := gvlRank_le (s.gvlAfter cap a)
    simp only [rank, next]
    omega
  | enterDequeue | enterSignal =>
    have hgvl : s.gvl = none := hen.2
    simp [rank, next, hgvl, gvlRank]
  | enterOther => exact hown.elim
  | leaveOther =>
    have hgvl : s.gvl = some .other := hen.1
    simp [rank, next, hgvl, gvlRank]

/-- Whoever has the lock waits for nobody but a writer that has room. -/
theorem exists_due_of_gvl (hs : s.Locked cap) {who : GvlHolder} (hgvl : s.gvl = some who) :
    ∃ a, s.Enabled cap a ∧ s.Due a := by
  obtain hfree | hbusy := hs.enqueuing
  · cases who with
    | eventThread =>
      exact ⟨.handle (.thread .dequeue), ⟨⟨hs.eventThread hgvl, hfree⟩, hgvl⟩, trivial, trivial⟩
    | closer =>
      obtain hcall | hcall | hcall := hs.closer hgvl
      · exact ⟨.handle (.close .signal), ⟨⟨hcall, hfree⟩, hgvl⟩, trivial, trivial⟩
      · refine ⟨.handle (.close .zookeeperClose), ⟨⟨hcall, ?_⟩, hgvl⟩, trivial, trivial⟩
        simp [hfree]
      · exact ⟨.handle (.close .queueFree), ⟨⟨hcall, hfree⟩, hgvl⟩, trivial, trivial⟩
    | other => exact ⟨.leaveOther, ⟨hgvl, hfree⟩, trivial⟩
  · have hroom : s.handle.pipe < cap :=
      (hs.blocked .enqueuing hbusy).resolve_right (by simp [hgvl])
    exact ⟨.handle .finishWrite, ⟨⟨⟨_, hbusy⟩, hroom⟩, trivial⟩, trivial, trivial⟩

/-- A step that is due without the lock is due with it, or the lock is taken for it. -/
theorem exists_due_of_handle (hs : s.Locked cap) (hgvl : s.gvl = none) {a : CZookeeperAct ε}
    (hen : s.handle.Enabled cap a) (hdue : s.handle.Due a) : ∃ a, s.Enabled cap a ∧ s.Due a := by
  obtain ⟨hnot, hnot'⟩ := hs.not_destroying (by simp [hgvl])
  cases a with
  | thread act =>
    cases act with
    | dequeue => exact ⟨.enterDequeue, ⟨hen.1, hgvl⟩, trivial⟩
    | wake => exact ⟨.handle (.thread .wake), ⟨hen, trivial⟩, hdue⟩
    | waitUntil | enter | fetchDataPtr | checkClosed | checkShutdown | read | readFails | push
      | pushRaises => exact ⟨.handle (.thread _), ⟨hen, hgvl⟩, hdue⟩
  | close act =>
    cases act with
    | signal => exact ⟨.enterSignal, ⟨hen.1, hgvl⟩, trivial⟩
    | zookeeperClose => exact absurd hen.1 hnot
    | queueFree => exact absurd hen.1 hnot'
    | testClosed | shutDown | testThread | join | forget | closeHandle =>
      exact ⟨.handle (.close _), ⟨hen, hgvl⟩, hdue⟩
  | finishWrite => exact ⟨.handle .finishWrite, ⟨hen, trivial⟩, hdue⟩
  | unlockElsewhere => exact ⟨.handle .unlockElsewhere, ⟨hen, trivial⟩, hdue⟩
  | init | call | enqueue | lockElsewhere => exact hdue.1.elim

theorem exists_due (hcap : 0 < cap) (h : (gvlCZookeeper ε cap).Reachable (Undamaged cap) s)
    (hcall : s.handle.call.InProgress) : ∃ a, s.Enabled cap a ∧ s.Due a := by
  have hs := locked_of_reachable h
  cases hgvl : s.gvl with
  | some who => exact exists_due_of_gvl hs hgvl
  | none =>
    obtain ⟨a, hen, hdue⟩ := CZookeeper.exists_due hcap
      (reachable_handle (fun _ _ => undamaged_handle) h) hcall
    exact exists_due_of_handle hs hgvl hen hdue

variable (cap) in
/-- A step of `Own` leaves it at the call that has been made. -/
theorem call_next_of_own {a : GvlAct ε} (hown : Own a) (hcall : s.handle.call ≠ .idle) :
    (s.next cap a).handle.op = s.handle.op ∧ (s.next cap a).handle.call ≠ .idle := by
  cases a with
  | handle a => exact CZookeeper.call_next_of_own cap hown hcall
  | enterDequeue | enterSignal | enterOther | leaveOther => exact ⟨rfl, hcall⟩

/-- **When `close` destroys the handle.** In every run in which no exception ends the event
thread, no write to the pipe is blocked for good, and nobody waits for a blocked write with the
interpreter lock, no call of `close` raises, each one comes to its end, however the threads are
scheduled and wherever the event thread is, and leaves the handle closed and `@event_thread` `nil`.
So `reopen` goes on to its new handle. -/
theorem destroys_of_undamaged (hcap : 0 < cap)
    (h : (gvlCZookeeper ε cap).Reachable (Undamaged cap) s) : s.Destroys cap (Undamaged cap) := by
  refine ⟨(healthy_of_reachable h).call, fun hcall => ?_, fun hcall => ?_⟩
  · obtain ⟨-, hord⟩ := CZookeeper.ordered_of_reachable
      (reachable_handle (fun _ _ => undamaged_handle) h)
    have hclosed := hord.behind_of hcall
    exact ⟨hclosed, (hord.closed hclosed).2.2⟩
  · have hmade : s.handle.call ≠ .idle := by
      intro hidle
      rw [hidle] at hcall
      exact hcall
    refine System.inevitable_of_rank (gvlCZookeeper ε cap) _ _
      (fun s' => (gvlCZookeeper ε cap).Reachable (Undamaged cap) s' ∧
        s'.handle.op = s.handle.op ∧ s'.handle.call ≠ .idle) _ rank ?_ ?_ s ⟨h, rfl, hmade⟩
    · intro s' ⟨hr, hop, hmade'⟩ hgoal
      have hprogress := (healthy_of_reachable hr).inProgress_or_returned hmade'
      exact exists_due hcap hr (hprogress.resolve_right fun hpc => hgoal ⟨hpc, hop⟩)
    · intro s' a ⟨hr, hop, hmade'⟩ _ hen ⟨hok, hown⟩
      obtain ⟨hop', hcall'⟩ := call_next_of_own cap hown hmade'
      have hord := (CZookeeper.ordered_of_reachable
        (reachable_handle (fun _ _ => undamaged_handle) hr)).2
      exact ⟨⟨hr.next a hen hok, hop'.trans hop, hcall'⟩, rank_next hord hen hown⟩

/-- `reopen` closes a handle whose event thread is parked at a pipe of one byte, while another
thread is in a call that waits for `zkrb_q_mutex`. -/
theorem destroys_parked :
    Destroys 1 (Undamaged 1) ((gvlCZookeeper ℕ 1).exec initial
      [.handle (.thread .waitUntil), .handle (.init .queueAlloc), .handle (.init .zookeeperInit),
        .handle (.init .setData), .handle (.init .setRunningAndNotify),
        .handle (.thread .waitUntil), .handle (.thread .enter), .handle (.thread .fetchDataPtr),
        .handle (.thread .checkClosed), .enterDequeue, .handle (.thread .dequeue),
        .handle (.thread .checkShutdown), .handle (.call .reopen), .handle (.close .testClosed),
        .handle (.close .shutDown), .handle (.close .testThread), .enterOther]) := by
  refine destroys_of_undamaged Nat.one_pos (System.Valid.reachable_exec rfl ?_)
  simp [System.Valid, Undamaged, MutexComes, gvlCZookeeper, Enabled, Runs, next, gvlAfter, initial,
    CZookeeper.Undamaged, CZookeeper.Enabled, CZookeeper.InitEnabled, CZookeeper.ThreadEnabled,
    CZookeeper.CloseEnabled, CZookeeper.next, CZookeeper.initNext, CZookeeper.threadNext,
    CZookeeper.closeNext, CZookeeper.initial, EventThreadPc.broadcast, ClosePc.InProgress]

end GvlCZookeeper

end ZookeeperClient
