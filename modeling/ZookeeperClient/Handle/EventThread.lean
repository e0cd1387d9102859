import ZookeeperClient.Handle.Defs

/-!
# The event thread and the memory it uses

The constructor sets `@_running` last, `close` sets `@_shutting_down` first and frees the
handle only after it has joined the event thread. So the checks of `@_closed` and of the
handle in `get_next_event` always pass, and the event loop can be looked at without them.

## Main definitions

- `CZookeeper.Constructed`, `CZookeeper.Ordered` — what each part of `close` and of the
  constructor has behind it
- `CZookeeper.OutlivesThread` — the handle and the queue outlive the event thread
- `CZookeeper.toLoop` — the event loop of a handle

## Main results

- `outlivesThread_of_reachable` — the handle and the queue outlive the event thread
- `reachable_toLoop` — the event thread of a handle runs the event loop
-/

namespace ZookeeperClient

open Transition

namespace CZookeeper

variable {ε : Type} {cap : ℕ} {s : CZookeeper ε}

/-- The event thread has left its loop, or has not entered it. -/
def ThreadEnded (s : CZookeeper ε) : Prop :=
  ∃ error, s.thread = .ended error

/-- The handle and the queue outlive the event thread. -/
structure OutlivesThread (s : CZookeeper ε) : Prop where
  once : s.destroyed ≤ 1
  /-- `close_handle` has run only if the event thread has left its loop. -/
  ended : 0 < s.destroyed → s.ThreadEnded
  /-- A thread that may still call `zkrb_dequeue` or `read` does so on a queue that is there. -/
  unfreed : ¬s.ThreadEnded → s.freed = false
  /-- `zookeeper handle is closed` is never raised, neither in `get_next_event` nor in `close`. -/
  handleOpen : s.thread ≠ .ended (some .handleClosed) ∧ s.call ≠ .raised .handleClosed
  flags : s.closed = true → s.shuttingDown = true ∧ s.running = true

/-! ## The constructor -/

/-- What the constructor has behind it: `@_running` is set last, the event thread waits for it,
and nobody can call `close` before. -/
structure Constructed (s : CZookeeper ε) : Prop where
  running : s.running = true ↔ s.init = .returned
  data : s.data = true ↔ s.init = .ready ∨ s.init = .returned
  waits : s.running = false → s.thread = .started ∨ s.thread = .waiting
  notWaiting : s.running = true → s.thread ≠ .waiting
  called : s.call ≠ .idle → s.running = true

theorem constructed_initial : (initial : CZookeeper ε).Constructed where
  running := by simp [initial]
  data := by simp [initial]
  waits := by simp [initial]
  notWaiting := by simp [initial]
  called := by simp [initial]

/-- The event thread does not get past its wait before `@_running` is set. -/
theorem Constructed.running_of_thread (hs : s.Constructed)
    (hthread : s.thread ≠ .started ∧ s.thread ≠ .waiting) : s.running = true := by
  by_contra hrun
  obtain hpc | hpc := hs.waits (by simpa using hrun)
  · exact hthread.1 hpc
  · exact hthread.2 hpc

theorem Constructed.data_of_running (hs : s.Constructed) (hrunning : s.running = true) :
    s.data = true :=
  hs.data.mpr (Or.inr (hs.running.mp hrunning))

theorem Constructed.initNext (hs : s.Constructed) {act : InitAct} (hen : s.InitEnabled act) :
    (s.initNext act).Constructed := by
  -- before the constructor has returned, nothing runs and `close` is not called
  have hrun : s.init ≠ .returned → s.running = false ∧ s.call = .idle := by
    intro hinit
    have hoff : s.running = false := by simpa using mt hs.running.mp hinit
    refine ⟨hoff, ?_⟩
    by_contra hcall
    simp [hs.called hcall] at hoff
  cases act with
  | queueAlloc =>
    obtain ⟨hoff, hcall⟩ := hrun (by simp [hen.1])
    have hdata := hs.data
    rw [hen.1] at hdata
    exact ⟨by simp [CZookeeper.initNext, hoff], by simpa [CZookeeper.initNext] using hdata,
      hs.waits, hs.notWaiting, fun h => absurd hcall h⟩
  | zookeeperInit =>
    have hinit : s.init = .connecting := hen
    obtain ⟨hoff, hcall⟩ := hrun (by simp [hinit])
    have hdata := hs.data
    rw [hinit] at hdata
    exact ⟨by simp [CZookeeper.initNext, hoff], by simpa [CZookeeper.initNext] using hdata,
      hs.waits, hs.notWaiting, fun h => absurd hcall h⟩
  | initRaises =>
    have hinit : s.init ≠ .returned ∧ ¬(s.init = .ready ∨ s.init = .returned) := by
      obtain hinit | hinit := hen <;> simp [hinit]
    obtain ⟨hoff, hcall⟩ := hrun hinit.1
    have hdata : s.data = false := by simpa using mt hs.data.mp hinit.2
    exact ⟨by simp [CZookeeper.initNext, hoff], by simp [CZookeeper.initNext, hdata],
      hs.waits, hs.notWaiting, fun h => absurd hcall h⟩
  | setData =>
    have hinit : s.init = .connected := hen
    obtain ⟨hoff, hcall⟩ := hrun (by simp [hinit])
    exact ⟨by simp [CZookeeper.initNext, hoff], by simp [CZookeeper.initNext],
      hs.waits, hs.notWaiting, fun h => absurd hcall h⟩
  | setRunningAndNotify =>
    have hinit : s.init = .ready := hen
    have hdata : s.data = true := hs.data.mpr (Or.inl hinit)
    refine ⟨by simp [CZookeeper.initNext], by simp [CZookeeper.initNext, hdata],
      by simp [CZookeeper.initNext], ?_, fun _ => rfl⟩
    -- the broadcast reaches a thread that is already waiting
    intro _
    simp only [CZookeeper.initNext]
    cases s.thread <;> simp [EventThreadPc.broadcast]

theorem Constructed.threadNext (hs : s.Constructed) {act : EventThreadAct}
    (hen : s.ThreadEnabled act) : (s.threadNext act).Constructed := by
  -- only a running handle lets the event thread past its wait
  have hrun : act ≠ .waitUntil → s.running = true := by
    intro hact
    apply hs.running_of_thread
    cases act with
    | waitUntil => exact absurd rfl hact
    | enter | fetchDataPtr | checkClosed | checkShutdown | readFails =>
      have hpc : s.thread = _ := hen
      simp [hpc]
    | dequeue | wake | read => simp [hen.1]
    | push | pushRaises =>
      obtain ⟨event, hpc⟩ := hen
      simp [hpc]
  cases act with
  | waitUntil =>
    refine ⟨hs.running, hs.data, fun hoff => ?_, fun hon => ?_, hs.called⟩
    · have hoff' : s.running = false := hoff
      exact Or.inr (by simp [CZookeeper.threadNext, hoff'])
    · have hon' : s.running = true := hon
      simp only [CZookeeper.threadNext, hon', if_true]
      split <;> simp
  | dequeue =>
    have hon := hrun (by simp)
    simp only [CZookeeper.threadNext]
    split
    all_goals exact ⟨hs.running, hs.data, fun hoff => by simp [hon] at hoff,
      fun _ => by simp, hs.called⟩
  | enter | fetchDataPtr | checkClosed | checkShutdown =>
    have hon := hrun (by simp)
    refine ⟨hs.running, hs.data, fun hoff => ?_, fun _ => ?_, hs.called⟩
    · have hoff' : s.running = false := hoff
      simp [hon] at hoff'
    · simp only [CZookeeper.threadNext]
      split_ifs <;> simp
  | wake | read | readFails | push | pushRaises =>
    have hon := hrun (by simp)
    refine ⟨hs.running, hs.data, fun hoff => ?_, fun _ => by simp [CZookeeper.threadNext],
      hs.called⟩
    have hoff' : s.running = false := hoff
    simp [hon] at hoff'

/-- A step that leaves the constructor, the event thread and `@_running` alone. -/
theorem Constructed.congr (hs : s.Constructed) {s' : CZookeeper ε} (hinit : s'.init = s.init)
    (hthread : s'.thread = s.thread) (hrunning : s'.running = s.running)
    (hdata : s'.data = s.data) (hcall : s'.call ≠ .idle → s.running = true) :
    s'.Constructed := by
  refine ⟨?_, ?_, ?_, ?_, ?_⟩
  · rw [hrunning, hinit]
    exact hs.running
  · rw [hdata, hinit]
    exact hs.data
  · rw [hrunning, hthread]
    exact hs.waits
  · rw [hrunning, hthread]
    exact hs.notWaiting
  · rw [hrunning]
    exact hcall

/-! ## Closing -/

/-- What a call of `close` has behind it at each point. -/
def Behind (s : CZookeeper ε) : ClosePc → Prop
  | .idle | .called => True
  | .flagging => s.closed = false
  | .testing | .waking | .signalling | .joining => s.closed = false ∧ s.shuttingDown = true
  | .forgetting => s.closed = false ∧ s.shuttingDown = true ∧ s.thread = .ended none
  | .finishing => s.closed = false ∧ s.shuttingDown = true ∧ s.eventThread = false
  | .destroying | .freeing => s.closed = true ∧ s.freed = false
  | .returned => s.closed = true
  | .raised error => error ≠ .handleClosed

/-- What is behind a call depends on the flags of the handle, and on the event thread only when
that has ended. -/
theorem Behind.frame {s' : CZookeeper ε} {pc : ClosePc} (h : s.Behind pc)
    (hclosed : s'.closed = s.closed) (hshut : s'.shuttingDown = s.shuttingDown)
    (hfreed : s'.freed = s.freed) (hevent : s'.eventThread = s.eventThread)
    (hended : s.thread = .ended none → s'.thread = .ended none) : s'.Behind pc := by
  cases pc with
  | idle | called | raised => exact h
  | flagging | returned => exact hclosed.trans h
  | testing | waking | signalling | joining => exact ⟨hclosed.trans h.1, hshut.trans h.2⟩
  | forgetting => exact ⟨hclosed.trans h.1, hshut.trans h.2.1, hended h.2.2⟩
  | finishing => exact ⟨hclosed.trans h.1, hshut.trans h.2.1, hevent.trans h.2.2⟩
  | destroying | freeing => exact ⟨hclosed.trans h.1, hfreed.trans h.2⟩

/-- The order in which `close` does its work. -/
structure Ordered (s : CZookeeper ε) : Prop where
  behind : s.Behind s.call
  /-- `@event_thread` has been joined, and no exception has ended it. -/
  forgotten : s.eventThread = false → s.thread = .ended none
  closed : s.closed = true →
    s.shuttingDown = true ∧ s.call ≠ .idle ∧ s.eventThread = false
  freed : s.freed = true → s.closed = true
  count : s.destroyed = if s.closed then 1 else 0
  /-- Exactly a call that is blocked in `zkrb_signal` holds the mutex as a signaller. -/
  signalling : s.qMutex = some (.writer .signalling) ↔ s.call = .signalling
  handleOpen : s.thread ≠ .ended (some .handleClosed)

theorem ordered_initial : (initial : CZookeeper ε).Ordered where
  behind := trivial
  forgotten h := by cases h
  closed h := by cases h
  freed h := by cases h
  count := rfl
  signalling := by simp [initial]
  handleOpen := by simp [initial]

theorem Ordered.behind_of (hs : s.Ordered) {pc : ClosePc} (hpc : s.call = pc) : s.Behind pc :=
  hpc ▸ hs.behind

theorem Ordered.unfreed (hs : s.Ordered) (hclosed : s.closed = false) : s.freed = false := by
  by_contra hon
  have hon' := hs.freed (by simpa using hon)
  simp [hclosed] at hon'

/-- While the event thread has not ended, nothing has been closed or freed. -/
theorem Ordered.of_not_ended (hs : s.Ordered) (hthread : ¬s.ThreadEnded) :
    s.closed = false ∧ s.freed = false ∧ s.eventThread = true := by
  have hforgotten : s.eventThread = true := by
    by_contra hoff
    exact hthread ⟨none, hs.forgotten (by simpa using hoff)⟩
  have hclosed : s.closed = false := by
    by_contra hon
    have hoff := (hs.closed (by simpa using hon)).2.2
    simp [hforgotten] at hoff
  exact ⟨hclosed, hs.unfreed hclosed, hforgotten⟩

/-! ### The event thread -/

theorem not_ended_of_enabled {act : EventThreadAct} (hen : s.ThreadEnabled act) :
    ¬s.ThreadEnded := by
  rintro ⟨error, hended⟩
  cases act with
  | waitUntil => rcases hen with hpc | hpc <;> simp [hended] at hpc
  | enter | fetchDataPtr | checkClosed | checkShutdown | readFails =>
    have hpc : s.thread = _ := hen
    simp [hended] at hpc
  | dequeue | wake | read =>
    have hpc := hen.1
    simp [hended] at hpc
  | push | pushRaises =>
    obtain ⟨event, hpc⟩ := hen
    simp [hended] at hpc

theorem Ordered.of_thread (hs : s.Ordered) (hthread : ¬s.ThreadEnded)
    (pc : EventThreadPc ε) (queue : List ε) (pipe : ℕ) (hpc : pc ≠ .ended (some .handleClosed)) :
    Ordered { s with thread := pc, queue := queue, pipe := pipe } := by
  refine ⟨?_, fun h => ?_, hs.closed, hs.freed, hs.count, hs.signalling, hpc⟩
  · exact hs.behind.frame rfl rfl rfl rfl fun hended => absurd ⟨none, hended⟩ hthread
  · exact absurd ⟨none, hs.forgotten h⟩ hthread

theorem Ordered.threadNext (hs : s.Ordered) {act : EventThreadAct} (hen : s.ThreadEnabled act) :
    (s.threadNext act).Ordered := by
  have hthread := not_ended_of_enabled hen
  cases act with
  | waitUntil =>
    refine hs.of_thread hthread _ s.queue s.pipe ?_
    split
    · split <;> simp
    · simp
  | enter | checkClosed | checkShutdown =>
    refine hs.of_thread hthread _ s.queue s.pipe ?_
    split <;> simp
  | fetchDataPtr =>
    -- the handle is still there
    refine hs.of_thread hthread _ s.queue s.pipe ?_
    rw [(hs.of_not_ended hthread).2.1]
    split <;> simp
  | dequeue =>
    simp only [CZookeeper.threadNext]
    split
    · exact hs.of_thread hthread _ _ s.pipe (by simp)
    · exact hs.of_thread hthread _ s.queue s.pipe (by simp)
  | read => exact hs.of_thread hthread _ s.queue _ (by simp)
  | wake | readFails | push | pushRaises =>
    exact hs.of_thread hthread _ s.queue s.pipe (by simp)

/-! ### The constructor -/

theorem ended_broadcast {pc : EventThreadPc ε} {error : Option EventThreadError} :
    pc.broadcast = .ended error ↔ pc = .ended error := by
  cases pc <;> simp [EventThreadPc.broadcast]

theorem Ordered.initNext (hs : s.Ordered) (act : InitAct) : (s.initNext act).Ordered := by
  cases act with
  | queueAlloc | zookeeperInit | initRaises | setData =>
    exact ⟨hs.behind, hs.forgotten, hs.closed, hs.freed, hs.count, hs.signalling,
      hs.handleOpen⟩
  | setRunningAndNotify =>
    refine ⟨?_, fun h => ended_broadcast.mpr (hs.forgotten h), hs.closed, hs.freed, hs.count,
      hs.signalling, fun h => hs.handleOpen (ended_broadcast.mp h)⟩
    exact hs.behind.frame rfl rfl rfl rfl ended_broadcast.mpr

/-! ### The calls of `close` -/

/-- A call of `close` that goes on to `pc`, with nobody holding the mutex as a signaller. -/
theorem Ordered.callTo (hs : s.Ordered) (pc : ClosePc) (hcall : s.call ≠ .signalling)
    (hbehind : s.Behind pc) (hne : pc ≠ .idle ∧ pc ≠ .signalling) :
    Ordered { s with call := pc } := by
  refine ⟨hbehind, hs.forgotten, fun h => ?_, hs.freed, hs.count, ?_, hs.handleOpen⟩
  · obtain ⟨hshut, -, hforgotten⟩ := hs.closed h
    exact ⟨hshut, hne.1, hforgotten⟩
  · show s.qMutex = _ ↔ pc = _
    rw [hs.signalling]
    exact iff_of_false hcall hne.2

/-- `stop_event_thread!` finds the handle open. -/
theorem Ordered.testThread_eq (hs : s.Ordered) (hcon : s.Constructed) (hpc : s.call = .testing) :
    s.closeNext cap .testThread =
      { s with call := if s.eventThread then .waking else .finishing } := by
  have hdata := hcon.data_of_running (hcon.called (by simp [hpc]))
  have hbehind := hs.behind_of hpc
  simp only [CZookeeper.closeNext, hbehind.1, hdata, hs.unfreed hbehind.1]
  cases s.eventThread <;> rfl

/-- The last section of `close` finds the handle open, and goes on to free it. -/
theorem Ordered.closeHandle_eq (hs : s.Ordered) (hcon : s.Constructed)
    (hpc : s.call = .finishing) :
    s.closeNext cap .closeHandle =
      { s with closed := true, destroyed := s.destroyed + 1, call := .destroying } := by
  have hdata := hcon.data_of_running (hcon.called (by simp [hpc]))
  have hbehind := hs.behind_of hpc
  simp [CZookeeper.closeNext, hbehind.1, hdata, hs.unfreed hbehind.1]

theorem Ordered.closeNext (hs : s.Ordered) (hcon : s.Constructed) {act : CloseAct}
    (hen : s.CloseEnabled act) : (s.closeNext cap act).Ordered := by
  cases act with
  | testClosed =>
    have hpc : s.call = .called := hen
    refine hs.callTo _ (by simp [hpc]) ?_ ?_
    · cases hclosed : s.closed with
      | true => exact hclosed
      | false => exact hclosed
    · split <;> simp
  | shutDown =>
    have hpc : s.call = .flagging := hen
    have hbehind := hs.behind_of hpc
    have hshut : Ordered { s with shuttingDown := true } := by
      refine ⟨?_, hs.forgotten, fun h => ?_, hs.freed, hs.count, hs.signalling, hs.handleOpen⟩
      · show Behind _ s.call
        rw [hpc]
        exact hbehind
      · exact ⟨rfl, (hs.closed h).2⟩
    exact hshut.callTo .testing (by simp [hpc]) ⟨hbehind, rfl⟩ (by simp)
  -- the handle is open, so `stop_event_thread!` signals it if there is a thread
  | testThread =>
    have hpc : s.call = .testing := hen
    obtain ⟨hclosed, hshut⟩ := hs.behind_of hpc
    rw [hs.testThread_eq hcon hpc]
    refine hs.callTo _ (by simp [hpc]) ?_ (by split <;> simp)
    cases hevent : s.eventThread with
    | true => exact ⟨hclosed, hshut⟩
    | false => exact ⟨hclosed, hshut, hevent⟩
  | signal =>
    obtain ⟨hpc, -⟩ := hen
    have hbehind := hs.behind_of hpc
    simp only [CZookeeper.closeNext, zkrbSignal, writeByte]
    split
    all_goals exact ⟨hbehind, hs.forgotten, fun h => ⟨hbehind.2, by simp, (hs.closed h).2.2⟩,
      hs.freed, hs.count, by simp, hs.handleOpen⟩
  | join =>
    obtain ⟨hpc, error, hended⟩ := hen
    have hbehind := hs.behind_of hpc
    refine hs.callTo _ (by simp [hpc]) ?_ ?_
    · rw [hended]
      cases error with
      | none => exact ⟨hbehind.1, hbehind.2, hended⟩
      -- the thread was not ended by a closed handle, whatever else has ended it
      | some error =>
        rintro rfl
        exact hs.handleOpen hended
    · rw [hended]
      cases error <;> simp
  | forget =>
    have hpc : s.call = .forgetting := hen
    obtain ⟨hclosed, hshut, hended⟩ := hs.behind_of hpc
    have hforgotten : Ordered { s with eventThread := false } := by
      refine ⟨?_, fun _ => hended, fun h => ?_, hs.freed, hs.count, hs.signalling, hs.handleOpen⟩
      · show Behind _ s.call
        rw [hpc]
        exact ⟨hclosed, hshut, hended⟩
      · exact ⟨hshut, (hs.closed h).2.1, rfl⟩
    exact hforgotten.callTo .finishing (by simp [hpc]) ⟨hclosed, hshut, rfl⟩ (by simp)
  | closeHandle =>
    have hpc : s.call = .finishing := hen
    obtain ⟨hclosed, hshut, hforgotten⟩ := hs.behind_of hpc
    rw [hs.closeHandle_eq hcon hpc]
    refine ⟨⟨rfl, hs.unfreed hclosed⟩, hs.forgotten, fun _ => ⟨hshut, by simp, hforgotten⟩,
      fun _ => rfl, by simp [hs.count, hclosed], ?_, hs.handleOpen⟩
    show s.qMutex = _ ↔ _
    rw [hs.signalling, hpc]
    simp
  | zookeeperClose =>
    obtain ⟨hpc, -⟩ := hen
    have hbehind := hs.behind_of hpc
    exact hs.callTo .freeing (by simp [hpc]) hbehind (by simp)
  | queueFree =>
    obtain ⟨hpc, -⟩ := hen
    have hbehind := hs.behind_of hpc
    refine ⟨hbehind.1, hs.forgotten, fun h => ⟨(hs.closed h).1, ?_, (hs.closed h).2.2⟩,
      fun _ => hbehind.1, hs.count, ?_, hs.handleOpen⟩
    · simp [CZookeeper.closeNext]
    · show s.qMutex = _ ↔ _
      rw [hs.signalling, hpc]
      simp [CZookeeper.closeNext]

/-! ## Every run -/

/-- A call of `close` leaves the constructor's part of the state alone. -/
theorem frame_closeNext (cap : ℕ) (s : CZookeeper ε) (act : CloseAct) :
    (s.closeNext cap act).init = s.init ∧ (s.closeNext cap act).thread = s.thread ∧
      (s.closeNext cap act).running = s.running ∧ (s.closeNext cap act).data = s.data := by
  cases act with
  | testClosed | shutDown | testThread | join | forget | zookeeperClose | queueFree =>
    exact ⟨rfl, rfl, rfl, rfl⟩
  | signal =>
    simp only [CZookeeper.closeNext, zkrbSignal, writeByte]
    split <;> exact ⟨rfl, rfl, rfl, rfl⟩
  | closeHandle =>
    simp only [CZookeeper.closeNext]
    split
    · exact ⟨rfl, rfl, rfl, rfl⟩
    · split <;> exact ⟨rfl, rfl, rfl, rfl⟩

/-- A step of a call of `close` is a step of a call that has been made. -/
theorem call_ne_idle {act : CloseAct} (hen : s.CloseEnabled act) : s.call ≠ .idle := by
  cases act with
  | testClosed | shutDown | testThread | forget | closeHandle =>
    have hpc : s.call = _ := hen
    simp [hpc]
  | signal | join | zookeeperClose | queueFree => simp [hen.1]

theorem constructed_next (hs : s.Constructed) (hord : s.Ordered) {a : CZookeeperAct ε}
    (hen : s.Enabled cap a) : (s.next cap a).Constructed := by
  cases a with
  | init act => exact hs.initNext hen
  | thread act => exact hs.threadNext hen
  | call op => exact hs.congr rfl rfl rfl rfl fun _ => hs.running.mpr hen.1
  | close act =>
    obtain ⟨hinit, hthread, hrunning, hdata⟩ := frame_closeNext cap s act
    exact hs.congr hinit hthread hrunning hdata fun _ => hs.called (call_ne_idle hen)
  | enqueue event =>
    simp only [next, zkrbEnqueue, writeByte]
    split <;> exact hs.congr rfl rfl rfl rfl hs.called
  | finishWrite =>
    refine hs.congr rfl rfl rfl rfl fun hcall => hs.called ?_
    by_cases hsig : s.qMutex = some (.writer .signalling)
    · simp [hord.signalling.mp hsig]
    · simpa [next, hsig] using hcall
  | lockElsewhere | unlockElsewhere => exact hs.congr rfl rfl rfl rfl hs.called

theorem Ordered.of_mutex (hs : s.Ordered) (queue : List ε) (pipe : ℕ)
    (holder : Option QMutexHolder)
    (hsig : holder = some (.writer .signalling) ↔ s.call = .signalling) :
    Ordered { s with queue := queue, pipe := pipe, qMutex := holder } := by
  refine ⟨?_, hs.forgotten, hs.closed, hs.freed, hs.count, hsig, hs.handleOpen⟩
  exact hs.behind.frame rfl rfl rfl rfl id

theorem ordered_next (hs : s.Ordered) (hcon : s.Constructed) {a : CZookeeperAct ε}
    (hen : s.Enabled cap a) : (s.next cap a).Ordered := by
  cases a with
  | init act => exact hs.initNext act
  | thread act => exact hs.threadNext hen
  | call op =>
    obtain ⟨-, hcall⟩ := hen
    have hop : Ordered { s with op := op } := by
      refine ⟨?_, hs.forgotten, hs.closed, hs.freed, hs.count, hs.signalling, hs.handleOpen⟩
      exact hs.behind.frame rfl rfl rfl rfl id
    refine hop.callTo .called ?_ trivial (by simp)
    intro hpc
    exact hcall (by rw [show s.call = .signalling from hpc]; trivial)
  | close act => exact hs.closeNext hcon hen
  | enqueue event =>
    have hfree : s.qMutex = none := hen.2
    have hcall : s.call ≠ .signalling := by simp [← hs.signalling, hfree]
    simp only [next, zkrbEnqueue, writeByte]
    split
    · exact hs.of_mutex _ _ _ (by simp [hcall])
    · exact hs.of_mutex _ s.pipe _ (by simp [hcall])
  | finishWrite =>
    by_cases hsig : s.qMutex = some (.writer .signalling)
    · have hpc := hs.signalling.mp hsig
      have hbehind := hs.behind_of hpc
      simp only [next, hsig, if_true]
      refine ⟨hbehind, hs.forgotten, fun h => ⟨hbehind.2, by simp, (hs.closed h).2.2⟩,
        hs.freed, hs.count, by simp, hs.handleOpen⟩
    · have hcall : s.call ≠ .signalling := fun hpc => hsig (hs.signalling.mpr hpc)
      simp only [next, hsig, if_false]
      exact hs.of_mutex s.queue _ _ (by simp [hcall])
  | lockElsewhere =>
    have hfree : s.qMutex = none := hen
    refine hs.of_mutex s.queue s.pipe _ ?_
    simp [← hs.signalling, hfree]
  | unlockElsewhere =>
    have hheld : s.qMutex = some .elsewhere := hen
    refine hs.of_mutex s.queue s.pipe _ ?_
    simp [← hs.signalling, hheld]

theorem ordered_of_reachable {ok : CZookeeper ε → CZookeeperAct ε → Prop}
    (h : (cZookeeper ε cap).Reachable ok s) : s.Constructed ∧ s.Ordered := by
  refine h.invariant (I := fun s => s.Constructed ∧ s.Ordered) ?_ ?_
  · rintro _ rfl
    exact ⟨constructed_initial, ordered_initial⟩
  · intro s a ⟨hcon, hord⟩ hen _
    exact ⟨constructed_next hcon hord hen, ordered_next hord hcon hen⟩

/-- **The handle and the queue outlive the event thread.** In every state of every run,
`close_handle` has run at most once and only after the event thread has left its loop, so that
thread never uses a queue that has been freed and never finds its handle closed; and a closed
handle is running and shutting down. -/
theorem outlivesThread_of_reachable (h : (cZookeeper ε cap).Reachable System.anyStep s) :
    s.OutlivesThread := by
  obtain ⟨hcon, hord⟩ := ordered_of_reachable h
  refine ⟨?_, ?_, ?_, ⟨hord.handleOpen, ?_⟩, ?_⟩
  · rw [hord.count]
    split <;> omega
  · intro hpos
    have hclosed : s.closed = true := by
      by_contra hoff
      rw [hord.count, if_neg hoff] at hpos
      omega
    exact ⟨none, hord.forgotten (hord.closed hclosed).2.2⟩
  · intro hthread
    exact (hord.of_not_ended hthread).2.1
  · intro hcall
    exact hord.behind_of hcall rfl
  · intro hclosed
    obtain ⟨hshut, hcall, -⟩ := hord.closed hclosed
    exact ⟨hshut, hcon.called hcall⟩

/-- A run from the constructor to the end of a `close` that finds the event thread parked. -/
theorem outlivesThread_parked :
    OutlivesThread ((cZookeeper ℕ 65536).exec initial
      [.thread .waitUntil, .init .queueAlloc, .init .zookeeperInit, .init .setData,
        .init .setRunningAndNotify, .thread .waitUntil, .thread .enter, .thread .fetchDataPtr,
        .thread .checkClosed, .thread .dequeue, .thread .checkShutdown, .call .close,
        .close .testClosed, .close .shutDown, .close .testThread, .close .signal, .thread .wake,
        .thread .read, .thread .checkClosed, .thread .dequeue, .thread .checkShutdown,
        .close .join, .close .forget, .close .closeHandle, .close .zookeeperClose,
        .close .queueFree]) := by
  refine outlivesThread_of_reachable (System.Valid.reachable_exec rfl ?_)
  simp [System.Valid, System.anyStep, cZookeeper, Enabled, InitEnabled, ThreadEnabled,
    CloseEnabled, next, CZookeeper.initNext, CZookeeper.threadNext, CZookeeper.closeNext,
    zkrbSignal, writeByte, initial, EventThreadPc.broadcast, ClosePc.InProgress, Loop.bufSize]

/-! ## The event loop -/

end CZookeeper

/-- Where the event thread is in the event loop, whose checks of `@_closed` always pass. -/
def EventThreadPc.toPc {ε : Type} : EventThreadPc ε → Pc ε
  | .started | .waiting | .notified => .starting
  | .entering | .fetching | .checking | .dequeuing => .dequeue
  | .foundEmpty => .foundEmpty
  | .parked => .parked
  | .readable => .readable
  | .delivering event => .delivering event
  | .ended _ => .exited

/-- The writer that holds the mutex, if its pipe is that of this handle. -/
def QMutexHolder.toWriter : QMutexHolder → Option Writer
  | .writer w => some w
  | .elsewhere => none

namespace CZookeeper

variable {ε : Type} {cap : ℕ} {s : CZookeeper ε}

/-- The event loop of a handle. -/
def toLoop (s : CZookeeper ε) : Loop ε where
  queue := s.queue
  pipe := s.pipe
  qMutex := s.qMutex.bind QMutexHolder.toWriter
  pc := s.thread.toPc
  running := s.running
  shuttingDown := s.shuttingDown
  woken := s.woken

/-- No exception ends the event thread. -/
def Unraised (_ : CZookeeper ε) : CZookeeperAct ε → Prop
  | .thread .readFails | .thread .pushRaises => False
  | _ => True

/-- A step of a handle is a step of its event loop, or none. -/
theorem toLoop_next (hcon : s.Constructed) (hord : s.Ordered) {a : CZookeeperAct ε}
    (hen : s.Enabled cap a) (hok : s.Unraised a) :
    (s.next cap a).toLoop = s.toLoop ∨
      (eventLoop ε cap).Step System.anyStep s.toLoop (s.next cap a).toLoop := by
  cases a with
  | init act =>
    cases act with
    | queueAlloc | zookeeperInit | initRaises | setData => exact Or.inl rfl
    | setRunningAndNotify =>
      refine Or.inr ⟨.setRunning, trivial, trivial, ?_⟩
      simp only [next, CZookeeper.initNext, toLoop, eventLoop, Loop.next]
      cases s.thread <;> rfl
  | thread act =>
    have hopen := hord.of_not_ended (not_ended_of_enabled hen)
    cases act with
    | waitUntil =>
      have hpc : s.toLoop.pc = .starting := by
        obtain hpc | hpc := hen <;> simp [toLoop, hpc, EventThreadPc.toPc]
      cases hrun : s.running with
      | true =>
        refine Or.inr ⟨.start, ⟨hpc, hrun⟩, trivial, ?_⟩
        simp only [next, CZookeeper.threadNext, toLoop, eventLoop, Loop.next, hrun, if_true]
        cases s.shuttingDown <;> rfl
      | false =>
        left
        obtain hpc | hpc := hen
        all_goals simp [next, CZookeeper.threadNext, toLoop, hrun, hpc, EventThreadPc.toPc]
    -- what the C code checks before the loop is not seen in the abstract loop
    | enter =>
      have hpc : s.thread = .entering := hen
      left
      simp [next, CZookeeper.threadNext, toLoop, hopen.1, hpc, EventThreadPc.toPc]
    | fetchDataPtr =>
      have hpc : s.thread = .fetching := hen
      have hdata := hcon.data_of_running (hcon.running_of_thread (by simp [hpc]))
      left
      simp [next, CZookeeper.threadNext, toLoop, hopen.2.1, hdata, hpc, EventThreadPc.toPc]
    | checkClosed =>
      have hpc : s.thread = .checking := hen
      left
      simp [next, CZookeeper.threadNext, toLoop, hopen.1, hpc, EventThreadPc.toPc]
    | dequeue =>
      obtain ⟨hpc, hfree⟩ := hen
      refine Or.inr ⟨.dequeue, ⟨by simp [toLoop, hpc, EventThreadPc.toPc], by
        simp [toLoop, hfree]⟩, trivial, ?_⟩
      simp only [next, CZookeeper.threadNext, toLoop, eventLoop, Loop.next, Loop.zkrbDequeue]
      cases s.queue <;> rfl
    | checkShutdown =>
      have hpc : s.thread = .foundEmpty := hen
      refine Or.inr ⟨.checkShutdown, by simp [eventLoop, Loop.Enabled, toLoop, hpc,
        EventThreadPc.toPc], trivial, ?_⟩
      simp only [next, CZookeeper.threadNext, toLoop, eventLoop, Loop.next]
      cases s.shuttingDown <;> rfl
    | wake =>
      obtain ⟨hpc, hbyte⟩ := hen
      exact Or.inr ⟨.wake, ⟨by simp [toLoop, hpc, EventThreadPc.toPc], hbyte⟩, trivial, rfl⟩
    | read =>
      obtain ⟨hpc, hbyte⟩ := hen
      exact Or.inr ⟨.read, ⟨by simp [toLoop, hpc, EventThreadPc.toPc], hbyte⟩, trivial, rfl⟩
    | push =>
      obtain ⟨event, hpc⟩ := hen
      exact Or.inr ⟨.push, ⟨event, by simp [toLoop, hpc, EventThreadPc.toPc]⟩, trivial, rfl⟩
    | readFails | pushRaises => exact hok.elim
  | call op => exact Or.inl rfl
  | close act =>
    cases act with
    | testClosed | testThread | join | forget | zookeeperClose | queueFree => exact Or.inl rfl
    | shutDown => exact Or.inr ⟨.shutDown, trivial, trivial, rfl⟩
    | signal =>
      obtain ⟨hpc, hfree⟩ := hen
      have hbehind := hord.behind_of hpc
      refine Or.inr ⟨.signal, by simp [eventLoop, Loop.Enabled, toLoop, hfree], trivial, ?_⟩
      simp only [next, CZookeeper.closeNext, zkrbSignal, writeByte, toLoop, eventLoop, Loop.next,
        Loop.zkrbSignal, Loop.writeByte, hbehind.2, Bool.or_true]
      split <;> rfl
    | closeHandle =>
      left
      simp only [next, CZookeeper.closeNext]
      split
      · rfl
      · split <;> rfl
  | enqueue event =>
    refine Or.inr ⟨.enqueue event, by simp [eventLoop, Loop.Enabled, toLoop, hen.2], trivial, ?_⟩
    simp only [next, zkrbEnqueue, writeByte, toLoop, eventLoop, Loop.next, Loop.zkrbEnqueue,
      Loop.writeByte]
    split <;> rfl
  | finishWrite =>
    obtain ⟨⟨w, hheld⟩, hroom⟩ := hen
    refine Or.inr ⟨.finishWrite, ⟨?_, hroom⟩, trivial, rfl⟩
    simp [toLoop, hheld, QMutexHolder.toWriter]
  | lockElsewhere =>
    have hfree : s.qMutex = none := hen
    simp [next, toLoop, hfree, QMutexHolder.toWriter]
  | unlockElsewhere =>
    have hheld : s.qMutex = some .elsewhere := hen
    simp [next, toLoop, hheld, QMutexHolder.toWriter]

/-- While no exception ends the event thread, the handle runs the event loop. -/
theorem reachable_toLoop {ok : CZookeeper ε → CZookeeperAct ε → Prop}
    (hok : ∀ s a, ok s a → s.Unraised a) (h : (cZookeeper ε cap).Reachable ok s) :
    (eventLoop ε cap).Reachable System.anyStep s.toLoop := by
  refine h.invariant_under (I := fun s => (eventLoop ε cap).Reachable System.anyStep s.toLoop)
    (fun _ => ordered_of_reachable) ?_ ?_
  · rintro _ rfl
    exact System.Reachable.of_init rfl
  · intro s a ⟨hcon, hord⟩ hloop hen ha
    obtain hsame | hstep := toLoop_next hcon hord hen (hok s a ha)
    · show (eventLoop ε cap).Reachable System.anyStep (s.next cap a).toLoop
      rw [hsame]
      exact hloop
    · exact hloop.trans (Relation.ReflTransGen.single hstep)

end CZookeeper

end ZookeeperClient
