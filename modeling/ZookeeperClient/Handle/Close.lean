import ZookeeperClient.Handle.EventThread

/-!
# How `close` ends

`CZookeeper#close` joins the event thread before it frees the handle, and `Thread#join`
raises again what has ended the thread. Only `GotNilEventException` is rescued in the event
thread, so after any other exception no call of `close` comes to `close_handle`. The other way
for `close` not to come to its end is a write to a pipe that is full and that the event thread
will not read any more.

## Main definitions

- `CZookeeper.Own`, `CZookeeper.Due` — the steps that end a call of `close`
- `CZookeeper.Undamaged` — the steps that do not keep `close` from its end
- `CZookeeper.rank` — how far a call is from its end

## Main results

- `unclosed_of_error` — a handle whose event thread an exception has ended is never closed
- `healthy_of_reachable` — what holds in runs all of whose steps satisfy `Undamaged`
- `exists_due`, `rank_next` — in such runs a call has a step to take, and comes closer to its end
-/

namespace ZookeeperClient

open Transition

namespace CZookeeper

variable {ε : Type} {cap : ℕ} {s s' : CZookeeper ε}

/-- The steps of a call of `close`, of the event thread it waits for and of the writers that are
blocked. New events and the writers on other pipes are not among them. -/
def Own : CZookeeperAct ε → Prop
  | .close _ | .thread _ | .finishWrite | .unlockElsewhere => True
  | .init _ | .call _ | .enqueue _ | .lockElsewhere => False

/-- The steps that are taken in the end if they can be: those of `Own` without the exceptions. -/
def Due (s : CZookeeper ε) (a : CZookeeperAct ε) : Prop :=
  Own a ∧ s.Unraised a

/-- No exception ends the event thread. `zkrb_signal` finds room in the pipe, and so does
`zkrb_enqueue` unless the event thread is between finding the list empty and its `read`; and the
event thread does not leave there for `@_shutting_down` while a write is blocked. -/
def Undamaged (cap : ℕ) (s : CZookeeper ε) : CZookeeperAct ε → Prop
  | .thread .readFails | .thread .pushRaises => False
  | .thread .checkShutdown => s.shuttingDown = true → ∀ w, s.qMutex ≠ some (.writer w)
  | .close .signal => s.pipe < cap
  | .enqueue _ => s.pipe < cap ∨ s.toLoop.Waiting
  | _ => True

theorem unraised_of_undamaged {a : CZookeeperAct ε} (h : s.Undamaged cap a) : s.Unraised a := by
  cases a with
  | thread act => cases act <;> first | exact h | trivial
  | init | call | close | enqueue | finishWrite | lockElsewhere | unlockElsewhere => trivial

/-! ## The defect -/

theorem thread_next_of_ended {error : Option EventThreadError} (hended : s.thread = .ended error)
    {a : CZookeeperAct ε} (hen : s.Enabled cap a) : (s.next cap a).thread = .ended error := by
  cases a with
  | init act =>
    cases act <;> simp [next, CZookeeper.initNext, hended, EventThreadPc.broadcast]
  | thread act => exact absurd ⟨error, hended⟩ (not_ended_of_enabled hen)
  | call | finishWrite | lockElsewhere | unlockElsewhere => exact hended
  | close act =>
    obtain ⟨-, hthread, -⟩ := frame_closeNext cap s act
    exact hthread.trans hended
  | enqueue event =>
    simp only [next, zkrbEnqueue, writeByte]
    split <;> exact hended

/-- **A handle whose event thread an exception has ended is never closed**, however often `close`
is called. -/
theorem unclosed_of_error {error : EventThreadError}
    (h : (cZookeeper ε cap).Reachable System.anyStep s) (hended : s.thread = .ended (some error))
    (h' : (cZookeeper ε cap).Reaches System.anyStep s s') :
    s'.closed = false ∧ s'.eventThread = true ∧ s'.call ≠ .returned := by
  have hended' : s'.thread = .ended (some error) :=
    h'.invariant (I := fun s' => s'.thread = .ended (some error))
      (fun _ _ hpc hen _ => thread_next_of_ended hpc hen) hended
  obtain ⟨-, hord⟩ := ordered_of_reachable (h.trans h')
  have hevent : s'.eventThread = true := by
    by_contra hoff
    have hpc := hord.forgotten (by simpa using hoff)
    simp [hended'] at hpc
  have hclosed : s'.closed = false := by
    by_contra hon
    have hoff := (hord.closed (by simpa using hon)).2.2
    simp [hevent] at hoff
  refine ⟨hclosed, hevent, ?_⟩
  intro hcall
  have hbehind := hord.behind_of hcall
  simp [hclosed, Behind] at hbehind

/-! ## Runs in which `close` comes to its end -/

/-- What holds in runs without the defects. -/
structure Healthy (cap : ℕ) (s : CZookeeper ε) : Prop where
  thread (error : EventThreadError) : s.thread ≠ .ended (some error)
  call (error : EventThreadError) : s.call ≠ .raised error
  /-- A blocked write will find room. -/
  drained (w : Writer) : s.qMutex = some (.writer w) → s.pipe < cap ∨ s.toLoop.Waiting
  woken : s.call = .signalling ∨ s.call = .joining → s.woken = true

theorem healthy_initial : (initial : CZookeeper ε).Healthy cap where
  thread error := by simp [initial]
  call error := by simp [initial]
  drained w h := by cases h
  woken h := by rcases h with h | h <;> cases h

/-- A write to the pipe that begins where there is room, or where there will be. -/
theorem drained_writeByte (w : Writer) (h : s.pipe < cap ∨ s.toLoop.Waiting) (w' : Writer)
    (hheld : (s.writeByte cap w).qMutex = some (.writer w')) :
    (s.writeByte cap w).pipe < cap ∨ (s.writeByte cap w).toLoop.Waiting := by
  unfold writeByte at hheld ⊢
  split at hheld
  · cases hheld
  · next hfull =>
    rw [if_neg hfull]
    exact h

/-- Away from its wait for the pipe, the event thread finds a blocked writer with room. -/
theorem Healthy.room (hs : s.Healthy cap) (hpc : ¬s.toLoop.Waiting) {w : Writer}
    (hheld : s.qMutex = some (.writer w)) : s.pipe < cap := by
  obtain hroom | hw := hs.drained w hheld
  · exact hroom
  · exact absurd hw hpc

theorem Healthy.of_thread (hs : s.Healthy cap) (pc : EventThreadPc ε) (queue : List ε)
    (hpc : ∀ error, pc ≠ .ended (some error))
    (hdrained : ∀ w, s.qMutex = some (.writer w) → s.pipe < cap ∨
      { s with thread := pc, queue := queue }.toLoop.Waiting) :
    Healthy cap { s with thread := pc, queue := queue } :=
  ⟨hpc, hs.call, hdrained, hs.woken⟩

theorem Healthy.threadNext (hs : s.Healthy cap) (hpipe : s.pipe ≤ cap) (hcon : s.Constructed)
    (hord : s.Ordered) {act : EventThreadAct} (hen : s.ThreadEnabled act)
    (hok : s.Undamaged cap (.thread act)) : (s.threadNext act).Healthy cap := by
  have hopen := hord.of_not_ended (not_ended_of_enabled hen)
  cases act with
  | waitUntil =>
    refine hs.of_thread _ s.queue ?_ fun w hheld => Or.inl (hs.room ?_ hheld)
    · split_ifs <;> simp
    · obtain hpc | hpc := hen <;> simp [Loop.Waiting, toLoop, hpc, EventThreadPc.toPc]
  | enter | checkClosed =>
    have hpc : s.thread = _ := hen
    refine hs.of_thread _ s.queue ?_ fun w hheld => Or.inl (hs.room ?_ hheld)
    · split_ifs <;> simp
    · simp [Loop.Waiting, toLoop, hpc, EventThreadPc.toPc]
  | fetchDataPtr =>
    have hpc : s.thread = .fetching := hen
    have hdata := hcon.data_of_running (hcon.running_of_thread (by simp [hpc]))
    refine hs.of_thread _ s.queue ?_ fun w hheld => Or.inl (hs.room ?_ hheld)
    · simp [hdata, hopen.2.1]
    · simp [Loop.Waiting, toLoop, hpc, EventThreadPc.toPc]
  | dequeue =>
    obtain ⟨-, hfree⟩ := hen
    simp only [CZookeeper.threadNext]
    split
    · exact hs.of_thread _ _ (by simp) (by simp [hfree])
    · exact hs.of_thread _ s.queue (by simp) (by simp [hfree])
  -- the event thread leaves the loop only when no writer is blocked
  | checkShutdown =>
    refine hs.of_thread _ s.queue (by split_ifs <;> simp) fun w hheld => ?_
    cases hshut : s.shuttingDown with
    | true => exact absurd hheld (hok hshut w)
    | false =>
      right
      simp [Loop.Waiting, toLoop, EventThreadPc.toPc]
  | wake =>
    refine hs.of_thread _ s.queue (by simp) fun w hheld => ?_
    right
    simp [Loop.Waiting, toLoop, EventThreadPc.toPc]
  | read =>
    obtain ⟨-, hbyte⟩ := hen
    refine ⟨by simp [CZookeeper.threadNext], hs.call, fun w hheld => ?_, hs.woken⟩
    -- the read makes room
    left
    simp only [CZookeeper.threadNext, Loop.bufSize]
    omega
  | push =>
    obtain ⟨event, hpc⟩ := hen
    refine hs.of_thread _ s.queue (by simp) fun w hheld => Or.inl (hs.room ?_ hheld)
    simp [Loop.Waiting, toLoop, hpc, EventThreadPc.toPc]
  | readFails | pushRaises => exact hok.elim

theorem Healthy.of_call (hs : s.Healthy cap) (pc : ClosePc) (hpc : ∀ error, pc ≠ .raised error)
    (hwoken : pc ≠ .signalling ∧ pc ≠ .joining) : Healthy cap { s with call := pc } := by
  refine ⟨hs.thread, hpc, hs.drained, fun h => ?_⟩
  obtain h | h := h
  · exact absurd h hwoken.1
  · exact absurd h hwoken.2

theorem Healthy.closeNext (hs : s.Healthy cap) (hcon : s.Constructed) (hord : s.Ordered)
    {act : CloseAct} (hen : s.CloseEnabled act) (hok : s.Undamaged cap (.close act)) :
    (s.closeNext cap act).Healthy cap := by
  cases act with
  | testClosed => exact hs.of_call _ (by split_ifs <;> simp) (by split_ifs <;> simp)
  | shutDown | forget | zookeeperClose | queueFree =>
    exact ⟨hs.thread, by simp [CZookeeper.closeNext], hs.drained, by simp [CZookeeper.closeNext]⟩
  | testThread =>
    rw [hord.testThread_eq hcon hen]
    exact hs.of_call _ (by split_ifs <;> simp) (by split_ifs <;> simp)
  | signal =>
    have hroom : s.pipe < cap := hok
    simp only [CZookeeper.closeNext, zkrbSignal, writeByte, hroom, if_true]
    exact ⟨hs.thread, by simp, by simp, fun _ => rfl⟩
  -- no exception has ended the event thread, so `join` does not raise
  | join =>
    obtain ⟨hpc, error, hended⟩ := hen
    obtain rfl : error = none := by
      cases error with
      | none => rfl
      | some error => exact absurd hended (hs.thread error)
    refine hs.of_call _ ?_ ?_ <;> simp [hended]
  | closeHandle =>
    rw [hord.closeHandle_eq hcon hen]
    exact ⟨hs.thread, by simp, hs.drained, by simp⟩

theorem healthy_next (hs : s.Healthy cap) (hpipe : s.pipe ≤ cap) (hcon : s.Constructed)
    (hord : s.Ordered) {a : CZookeeperAct ε} (hen : s.Enabled cap a)
    (hok : s.Undamaged cap a) : (s.next cap a).Healthy cap := by
  cases a with
  | init act =>
    cases act with
    | queueAlloc | zookeeperInit | initRaises | setData =>
      exact ⟨hs.thread, hs.call, hs.drained, hs.woken⟩
    -- the broadcast may wake the event thread, which is not in its loop yet
    | setRunningAndNotify =>
      refine ⟨fun error h => hs.thread error (ended_broadcast.mp h), hs.call, fun w hheld => ?_,
        hs.woken⟩
      obtain hroom | hw := hs.drained w hheld
      · exact Or.inl hroom
      · right
        revert hw
        simp only [next, CZookeeper.initNext, Loop.Waiting, toLoop]
        cases s.thread <;> exact id
  | thread act => exact hs.threadNext hpipe hcon hord hen hok
  | call op => exact ⟨hs.thread, by simp [next], hs.drained, by simp [next]⟩
  | close act => exact hs.closeNext hcon hord hen hok
  | enqueue event =>
    refine ⟨?_, ?_, drained_writeByte .enqueuing hok, ?_⟩
    all_goals
      simp only [next, zkrbEnqueue, writeByte]
      split
    · exact hs.thread
    · exact hs.thread
    · exact hs.call
    · exact hs.call
    · exact hs.woken
    · exact hs.woken
  | finishWrite =>
    refine ⟨hs.thread, fun error => ?_, fun w h => (by cases h), fun h => ?_⟩
    · simp only [next]
      split
      · simp
      · exact hs.call error
    · by_cases hsig : s.qMutex = some (.writer .signalling)
      · exact hs.woken (Or.inl (hord.signalling.mp hsig))
      · simp only [next, hsig, if_false] at h
        exact hs.woken h
  | lockElsewhere => exact ⟨hs.thread, hs.call, fun w h => (by cases h), hs.woken⟩
  | unlockElsewhere => exact ⟨hs.thread, hs.call, fun w h => (by cases h), hs.woken⟩

theorem healthy_of_reachable (h : (cZookeeper ε cap).Reachable (Undamaged cap) s) :
    s.Healthy cap := by
  refine h.invariant_under (J := fun s => (s.Constructed ∧ s.Ordered) ∧ s.pipe ≤ cap) ?_ ?_ ?_
  · intro s hr
    have hloop := reachable_toLoop (fun _ _ => unraised_of_undamaged) hr
    exact ⟨ordered_of_reachable hr, (Loop.inv_of_reachable hloop).pipe_le⟩
  · rintro _ rfl
    exact healthy_initial
  · intro s a ⟨⟨hcon, hord⟩, hpipe⟩ hs hen hok
    exact healthy_next hs hpipe hcon hord hen hok

/-! ### What is left to do -/

/-- A bound on the steps of a call of `close`. -/
def closeRank : ClosePc → ℕ
  | .called => 11
  | .flagging => 10
  | .testing => 9
  | .waking => 8
  | .signalling => 7
  | .joining => 6
  | .forgetting => 5
  | .finishing => 4
  | .destroying => 3
  | .freeing => 2
  | .idle | .returned | .raised _ => 0

/-- A bound on the steps of the event thread until it comes back to the list, or ends. -/
def threadRank : EventThreadPc ε → ℕ
  | .started | .notified => 24
  | .waiting | .delivering _ => 23
  | .entering => 22
  | .fetching => 21
  | .checking => 20
  | .dequeuing => 19
  | .foundEmpty => 18
  | .parked => 17
  | .readable => 16
  | .ended _ => 0

/-- A bound on the steps until a call of `close` is at its end. Taking an event from the list or
reading from the pipe leads back to the head of the loop, and every write adds a byte. -/
def rank (s : CZookeeper ε) : ℕ :=
  64 * closeRank s.call + 32 * s.qMutex.toList.length + 8 * s.queue.length + 8 * s.pipe +
    threadRank s.thread

theorem rank_threadNext {act : EventThreadAct} (hen : s.ThreadEnabled act) :
    (s.threadNext act).rank < s.rank := by
  cases act with
  | waitUntil =>
    have hbefore : threadRank s.thread = 24 := by
      obtain hpc | hpc := hen <;> rw [hpc] <;> rfl
    simp only [rank, CZookeeper.threadNext, hbefore]
    split_ifs <;> simp only [threadRank] <;> omega
  | enter | fetchDataPtr | checkClosed | checkShutdown =>
    have hpc : s.thread = _ := hen
    simp only [rank, CZookeeper.threadNext, hpc]
    split_ifs <;> simp only [threadRank] <;> omega
  | dequeue =>
    obtain ⟨hpc, -⟩ := hen
    cases hq : s.queue with
    | nil =>
      simp only [rank, CZookeeper.threadNext, hq, hpc, threadRank]
      omega
    | cons event rest =>
      simp only [rank, CZookeeper.threadNext, hq, hpc, threadRank, List.length_cons]
      omega
  | wake =>
    simp only [rank, CZookeeper.threadNext, hen.1, threadRank]
    omega
  | read =>
    obtain ⟨hpc, hbyte⟩ := hen
    simp only [rank, CZookeeper.threadNext, hpc, threadRank, Loop.bufSize]
    omega
  | readFails =>
    have hpc : s.thread = .readable := hen
    simp only [rank, CZookeeper.threadNext, hpc, threadRank]
    omega
  | push | pushRaises =>
    obtain ⟨event, hpc⟩ := hen
    simp only [rank, CZookeeper.threadNext, hpc, threadRank]
    omega

theorem rank_closeNext {act : CloseAct} (hen : s.CloseEnabled act) :
    (s.closeNext cap act).rank < s.rank := by
  cases act with
  | testClosed | testThread =>
    have hpc : s.call = _ := hen
    simp only [rank, CZookeeper.closeNext, hpc]
    split_ifs <;> simp only [closeRank] <;> omega
  | shutDown | forget =>
    have hpc : s.call = _ := hen
    simp only [rank, CZookeeper.closeNext, hpc, closeRank]
    omega
  | closeHandle =>
    have hpc : s.call = .finishing := hen
    simp only [CZookeeper.closeNext]
    split_ifs <;> simp only [rank, hpc, closeRank] <;> omega
  | signal =>
    obtain ⟨hpc, hfree⟩ := hen
    simp only [CZookeeper.closeNext, zkrbSignal, writeByte]
    split_ifs <;> simp only [rank, hpc, hfree, closeRank, Option.toList, List.length_cons,
      List.length_nil] <;> omega
  | join =>
    obtain ⟨hpc, error, hended⟩ := hen
    simp only [rank, CZookeeper.closeNext, hpc, hended]
    cases error <;> simp only [closeRank] <;> omega
  | zookeeperClose | queueFree =>
    simp only [rank, CZookeeper.closeNext, hen.1, closeRank]
    omega

/-- Every step that is taken without new events brings `close` closer to its end. -/
theorem rank_next (hord : s.Ordered) {a : CZookeeperAct ε} (hen : s.Enabled cap a)
    (hown : Own a) : (s.next cap a).rank < s.rank := by
  cases a with
  | thread act => exact rank_threadNext hen
  | close act => exact rank_closeNext hen
  | finishWrite =>
    obtain ⟨⟨w, hheld⟩, -⟩ := hen
    cases w with
    | enqueuing =>
      simp [rank, next, hheld]
      omega
    | signalling =>
      simp [rank, next, hheld, hord.signalling.mp hheld, closeRank]
      omega
  | unlockElsewhere =>
    have hheld : s.qMutex = some .elsewhere := hen
    simp [rank, next, hheld]
  | init | call | enqueue | lockElsewhere => exact hown.elim

/-! ### There is always a step to take -/

/-- A writer that is blocked goes on, or the event thread does and makes room. -/
theorem exists_due_of_writer (hcap : 0 < cap) (hs : s.Healthy cap) {w : Writer}
    (hheld : s.qMutex = some (.writer w)) : ∃ a, s.Enabled cap a ∧ s.Due a := by
  by_cases hroom : s.pipe < cap
  · exact ⟨.finishWrite, ⟨⟨w, hheld⟩, hroom⟩, trivial, trivial⟩
  · have hbyte : 0 < s.pipe := by omega
    have hw := (hs.drained w hheld).resolve_left hroom
    simp only [Loop.Waiting, toLoop] at hw
    cases hpc : s.thread with
    | foundEmpty => exact ⟨.thread .checkShutdown, hpc, trivial, trivial⟩
    | parked => exact ⟨.thread .wake, ⟨hpc, hbyte⟩, trivial, trivial⟩
    | readable => exact ⟨.thread .read, ⟨hpc, hbyte⟩, trivial, trivial⟩
    | started | waiting | notified | entering | fetching | checking | dequeuing
      | delivering event | ended error => simp [hpc, EventThreadPc.toPc] at hw

/-- The mutex is free, or whoever holds it has a step to take. -/
theorem exists_due_of_mutex (hcap : 0 < cap) (hs : s.Healthy cap) :
    s.qMutex = none ∨ ∃ a, s.Enabled cap a ∧ s.Due a := by
  cases hheld : s.qMutex with
  | none => exact Or.inl rfl
  | some holder =>
    right
    cases holder with
    | writer w => exact exists_due_of_writer hcap hs hheld
    | elsewhere => exact ⟨.unlockElsewhere, hheld, trivial, trivial⟩

/-- An event thread that has been woken for the shutdown goes on until it ends. -/
theorem exists_due_of_thread (hcap : 0 < cap) (hs : s.Healthy cap) (hcon : s.Constructed)
    (hloop : s.toLoop.Inv cap) (hcall : s.call = .joining) (hthread : ¬s.ThreadEnded) :
    ∃ a, s.Enabled cap a ∧ s.Due a := by
  have hrunning := hcon.called (by simp [hcall])
  obtain hfree | hdue := exists_due_of_mutex hcap hs
  · -- the byte of the wake-up is still in the pipe
    have hbyte (hpc : s.toLoop.pc = .parked ∨ s.toLoop.pc = .readable) : 0 < s.pipe := by
      refine hloop.wakeup hpc (hs.woken (Or.inr hcall)) ?_
      simp [toLoop, hfree]
    cases hpc : s.thread with
    | started => exact ⟨.thread .waitUntil, Or.inl hpc, trivial, trivial⟩
    | waiting => exact absurd hpc (hcon.notWaiting hrunning)
    | notified => exact ⟨.thread .waitUntil, Or.inr hpc, trivial, trivial⟩
    | entering => exact ⟨.thread .enter, hpc, trivial, trivial⟩
    | fetching => exact ⟨.thread .fetchDataPtr, hpc, trivial, trivial⟩
    | checking => exact ⟨.thread .checkClosed, hpc, trivial, trivial⟩
    | dequeuing => exact ⟨.thread .dequeue, ⟨hpc, hfree⟩, trivial, trivial⟩
    | foundEmpty => exact ⟨.thread .checkShutdown, hpc, trivial, trivial⟩
    | parked =>
      have hpos := hbyte (Or.inl (by simp [toLoop, hpc, EventThreadPc.toPc]))
      exact ⟨.thread .wake, ⟨hpc, hpos⟩, trivial, trivial⟩
    | readable =>
      have hpos := hbyte (Or.inr (by simp [toLoop, hpc, EventThreadPc.toPc]))
      exact ⟨.thread .read, ⟨hpc, hpos⟩, trivial, trivial⟩
    | delivering event => exact ⟨.thread .push, ⟨event, hpc⟩, trivial, trivial⟩
    | ended error => exact absurd ⟨error, hpc⟩ hthread
  · exact hdue

/-- As long as a call of `close` is in progress, it has a step to take, or the thread that it
waits for has. -/
theorem exists_due (hcap : 0 < cap) (h : (cZookeeper ε cap).Reachable (Undamaged cap) s)
    (hcall : s.call.InProgress) : ∃ a, s.Enabled cap a ∧ s.Due a := by
  have hs := healthy_of_reachable h
  obtain ⟨hcon, hord⟩ := ordered_of_reachable h
  have hloop := Loop.inv_of_reachable
    (reachable_toLoop (fun _ _ => unraised_of_undamaged) h)
  cases hpc : s.call with
  | called => exact ⟨.close .testClosed, hpc, trivial, trivial⟩
  | flagging => exact ⟨.close .shutDown, hpc, trivial, trivial⟩
  | testing => exact ⟨.close .testThread, hpc, trivial, trivial⟩
  -- `zkrb_signal` waits for the mutex, which its holder gives back
  | waking =>
    obtain hfree | hdue := exists_due_of_mutex hcap hs
    · exact ⟨.close .signal, ⟨hpc, hfree⟩, trivial, trivial⟩
    · exact hdue
  | signalling => exact exists_due_of_writer hcap hs (hord.signalling.mpr hpc)
  -- `join` waits for the event thread, which the byte of `zkrb_signal` wakes
  | joining =>
    by_cases hthread : s.ThreadEnded
    · exact ⟨.close .join, ⟨hpc, hthread⟩, trivial, trivial⟩
    · exact exists_due_of_thread hcap hs hcon hloop hpc hthread
  | forgetting => exact ⟨.close .forget, hpc, trivial, trivial⟩
  | finishing => exact ⟨.close .closeHandle, hpc, trivial, trivial⟩
  | destroying =>
    by_cases hheld : s.qMutex = some (.writer .enqueuing)
    · exact exists_due_of_writer hcap hs hheld
    · exact ⟨.close .zookeeperClose, ⟨hpc, hheld⟩, trivial, trivial⟩
  | freeing =>
    obtain hfree | hdue := exists_due_of_mutex hcap hs
    · exact ⟨.close .queueFree, ⟨hpc, hfree⟩, trivial, trivial⟩
    · exact hdue
  | idle | returned | raised error => simp [hpc, ClosePc.InProgress] at hcall

/-- A step of `Own` leaves it at the call that has been made. -/
theorem call_next_of_own (cap : ℕ) {a : CZookeeperAct ε} (hown : Own a) (hcall : s.call ≠ .idle) :
    (s.next cap a).op = s.op ∧ (s.next cap a).call ≠ .idle := by
  cases a with
  | thread act =>
    cases act with
    | dequeue =>
      simp only [next, CZookeeper.threadNext]
      split <;> exact ⟨rfl, hcall⟩
    | waitUntil | enter | fetchDataPtr | checkClosed | checkShutdown | wake | read | readFails
      | push | pushRaises => exact ⟨rfl, hcall⟩
  | close act =>
    cases act with
    | testClosed | testThread =>
      refine ⟨rfl, ?_⟩
      simp only [next, CZookeeper.closeNext]
      split_ifs <;> simp
    | join =>
      refine ⟨rfl, ?_⟩
      simp only [next, CZookeeper.closeNext]
      split <;> simp
    | shutDown | forget | zookeeperClose | queueFree =>
      exact ⟨rfl, by simp [next, CZookeeper.closeNext]⟩
    | signal =>
      simp only [next, CZookeeper.closeNext, zkrbSignal, writeByte]
      split <;> simp
    | closeHandle =>
      simp only [next, CZookeeper.closeNext]
      split_ifs <;> simp
  | finishWrite =>
    refine ⟨rfl, ?_⟩
    simp only [next]
    split
    · simp
    · exact hcall
  | unlockElsewhere => exact ⟨rfl, hcall⟩
  | init | call | enqueue | lockElsewhere => exact hown.elim

/-- In a run without the defects a call that has been made is in progress or has returned. -/
theorem Healthy.inProgress_or_returned (hs : s.Healthy cap) (hcall : s.call ≠ .idle) :
    s.call.InProgress ∨ s.call = .returned := by
  cases hpc : s.call with
  | idle => exact absurd hpc hcall
  | returned => exact Or.inr rfl
  | raised error => exact absurd hpc (hs.call error)
  | called | flagging | testing | waking | signalling | joining | forgetting | finishing
    | destroying | freeing => exact Or.inl trivial

end CZookeeper

end ZookeeperClient
