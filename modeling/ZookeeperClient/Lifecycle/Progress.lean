import ZookeeperClient.Lifecycle.Order
import ZookeeperClient.Transition.Fair

/-!
# From the C client to the callbacks

An event makes its way through the `zkrb` queue of its handle, the event thread, `@event_queue` and
the dispatch thread. If nobody closes or replaces the handle, and the two threads are treated
fairly, it gets to `dispatch_next_callback` at last, and so does every event before it. No pipe
becomes full here, and no exception ends an event thread: `Lifecycle.Faults` has these.

## Main definitions

- `Lifecycle.Calm` — neither `close` nor `reopen` goes on, and no callback ends the dispatch thread
- `Lifecycle.EventThreadDue`, `Lifecycle.DispatchThreadDue` — the steps that are treated fairly

## Main results

- `dispatched_of_weaklyFair` — every event that the C client hands over is dispatched
-/

namespace ZookeeperClient

open Transition

namespace Lifecycle

variable {ε : Type} {s : Lifecycle ε} {h d count : ℕ}

/-- Neither `close` nor `reopen` goes on, and no callback raises `ShutdownException`. -/
def Calm (_ : Lifecycle ε) : LifecycleAct ε → Prop
  | .call _ | .control _ _ | .thread _ .raisesShutdown => False
  | _ => True

/-- The event thread of the handle goes on with an event. -/
def EventThreadDue (h : ℕ) (s : Lifecycle ε) (a : LifecycleAct ε) : Prop :=
  (s.transports h).undelivered ≠ [] ∧
    (a = .push h ∨ ∃ act, Transport.Internal act ∧ a = .eventThread h act)

/-- A dispatch thread goes on with an event. -/
def DispatchThreadDue (d : ℕ) (s : Lifecycle ε) (a : LifecycleAct ε) : Prop :=
  s.delivery.pending d ≠ [] ∧ ∃ act, a = .thread d act ∧ act ≠ .raisesShutdown

/-! ## From the C client to `@event_queue` -/

/-- The event thread of the handle has not ended and has not been told to. -/
structure Delivers (h : ℕ) (s : Lifecycle ε) : Prop where
  made : h < s.nextCzk
  open_ : (s.transports h).shuttingDown = false
  live : (s.transports h).eventThread ≠ .exited

/-- A step of a transport that is not shutting down leaves its event thread alive. -/
theorem Delivers.step (hs : s.Delivers h) {h' : ℕ} {act : TransportAct ε}
    (hopen : ((s.transports h).next act).shuttingDown = false)
    (hlive : ((s.transports h).next act).eventThread ≠ .exited) : (s.step h' act).Delivers h := by
  refine ⟨hs.made, ?_, ?_⟩ <;> rw [transports_step] <;> split
  · next heq => exact heq ▸ hopen
  · exact hs.open_
  · next heq => exact heq ▸ hlive
  · exact hs.live

theorem delivers_next {a : LifecycleAct ε} (hen : s.Enabled a) (hcalm : s.Calm a)
    (hs : s.Delivers h) : (s.next a).Delivers h := by
  have hopen := hs.open_
  have hlive := hs.live
  have heff := effect_next hen
  generalize s.next a = s' at heff ⊢
  cases heff with
  | thread => exact ⟨hs.made, hs.open_, hs.live⟩
  | @enqueue h' event =>
    have hstep : (s.step h' (.enqueue event)).Delivers h := hs.step hopen hlive
    exact ⟨hstep.made, hstep.open_, hstep.live⟩
  | @push h' event =>
    have hstep : (s.step h' .push).Delivers h := hs.step hopen (by simp [Transport.next])
    exact ⟨hstep.made, hstep.open_, hstep.live⟩
  | @eventThread h' act hlt hact hen' =>
    cases act with
    | start => exact hs.step hopen (by simp [Transport.next, hopen])
    | checkShutdown => exact hs.step hopen (by simp [Transport.next, hopen])
    | dequeue =>
      refine hs.step ?_ ?_ <;> simp only [Transport.next, Transport.zkrbDequeue] <;> split
      · exact hopen
      · exact hopen
      · simp
      · simp
    | _ => exact hact.elim
  | _ => exact hcalm.elim

/-- How many steps an event thread is from its next `push`, if there is an event for it. -/
def pushDistance : EventThread ε → ℕ
  | .delivering _ | .exited => 0
  | .iterating => 1
  | .starting | .foundEmpty => 2

/-- How many steps of the event thread it takes at most until `count` events have been pushed. -/
def pushesLeft (h count : ℕ) (s : Lifecycle ε) : ℕ :=
  3 * (count - (ofHandle h s.pushed).length) + pushDistance (s.transports h).eventThread

/-- There are events of the handle to push. -/
structure ToPush (h count : ℕ) (s : Lifecycle ε) : Prop where
  delivers : s.Delivers h
  enqueued : count ≤ (s.enqueued h).length

def Pushed (h count : ℕ) (s : Lifecycle ε) : Prop :=
  count ≤ (ofHandle h s.pushed).length

/-- As long as the event thread has not ended, nothing has been discarded. -/
theorem enqueued_of_delivers (hs : s.Delivers h) (hhandles : s.Handles) (htransit : s.Transit h) :
    s.enqueued h = ofHandle h s.pushed ++ (s.transports h).undelivered := by
  have horderly := Transport.orderly_of_reachable (hhandles.reachable h)
  have hkept : (s.transports h).freed = false := by
    by_contra hfreed
    exact hs.live (horderly.exited_of_closed (horderly.closed_of_freed (by simpa using hfreed)))
  have hall := htransit.enqueued
  rwa [htransit.discarded hkept, List.append_nil] at hall

theorem undelivered_of_toPush (hs : s.ToPush h count) (hnot : ¬s.Pushed h count)
    (hhandles : s.Handles) (htransit : s.Transit h) : (s.transports h).undelivered ≠ [] := by
  intro hnone
  have hall := congrArg List.length (enqueued_of_delivers hs.delivers hhandles htransit)
  rw [hnone, List.append_nil] at hall
  exact hnot (hs.enqueued.trans hall.le)

/-- The event thread is not blocked. -/
theorem exists_eventThreadDue (hs : s.ToPush h count) (hnot : ¬s.Pushed h count)
    (hhandles : s.Handles) (htransit : s.Transit h) :
    ∃ a, s.Enabled a ∧ s.EventThreadDue h a := by
  have hsome := undelivered_of_toPush hs hnot hhandles htransit
  have hmade := hs.delivers.made
  have hinternal (act : TransportAct ε) (hact : Transport.Internal act)
      (hen : (s.transports h).Enabled act) : ∃ a, s.Enabled a ∧ s.EventThreadDue h a :=
    ⟨.eventThread h act, ⟨hmade, hact, hen⟩, hsome, Or.inr ⟨act, hact, rfl⟩⟩
  cases hpc : (s.transports h).eventThread with
  | starting => exact hinternal .start trivial hpc
  | iterating => exact hinternal .dequeue trivial hpc
  | foundEmpty => exact hinternal .checkShutdown trivial hpc
  | delivering event => exact ⟨.push h, ⟨hmade, event, hpc⟩, hsome, Or.inl rfl⟩
  | exited => exact absurd hpc hs.delivers.live

/-- A step of the event thread brings it closer to its next `push`. -/
theorem pushesLeft_internal (hs : s.ToPush h count)
    (hsome : (s.transports h).undelivered ≠ []) {act : TransportAct ε}
    (hact : Transport.Internal act) (hen : (s.transports h).Enabled act) :
    (s.step h act).pushesLeft h count < s.pushesLeft h count := by
  have hopen := hs.delivers.open_
  unfold pushesLeft
  rw [transports_step, if_pos rfl]
  refine Nat.add_lt_add_left ?_ _
  cases act with
  | start =>
    have hpc : (s.transports h).eventThread = .starting := hen
    simp [Transport.next, hopen, hpc, pushDistance]
  | checkShutdown =>
    have hpc : (s.transports h).eventThread = .foundEmpty := hen
    simp [Transport.next, hopen, hpc, pushDistance]
  | dequeue =>
    have hpc : (s.transports h).eventThread = .iterating := hen
    cases hq : (s.transports h).queue with
    | nil => simp [Transport.undelivered, Transport.hand, hpc, hq] at hsome
    | cons event rest => simp [Transport.next, Transport.zkrbDequeue, hq, hpc, pushDistance]
  | _ => exact hact.elim

theorem pushesLeft_next {a : LifecycleAct ε} (hen : s.Enabled a) (hcalm : s.Calm a)
    (hs : s.ToPush h count) (hnot : ¬s.Pushed h count) (hhandles : s.Handles)
    (htransit : s.Transit h) :
    (s.next a).pushesLeft h count ≤ s.pushesLeft h count ∧
      (s.EventThreadDue h a → (s.next a).pushesLeft h count < s.pushesLeft h count) := by
  have hsome := undelivered_of_toPush hs hnot hhandles htransit
  have hleft : (ofHandle h s.pushed).length < count := Nat.lt_of_not_le hnot
  have heff := effect_next hen
  generalize s.next a = s' at heff ⊢
  cases heff with
  | thread =>
    refine ⟨Nat.le_refl _, fun hdue => ?_⟩
    obtain ⟨-, heq | ⟨act, -, heq⟩⟩ := hdue <;> cases heq
  | @enqueue h' event =>
    refine ⟨Nat.le_of_eq ?_, fun hdue => ?_⟩
    · show 3 * _ + pushDistance ((s.step h' (.enqueue event)).transports h).eventThread = _
      rw [transports_step]
      split
      · next heq => rw [heq]; rfl
      · rfl
    · obtain ⟨-, heq | ⟨act, -, heq⟩⟩ := hdue <;> cases heq
  | @eventThread h' act hlt hact hen' =>
    by_cases hh : h' = h
    · subst hh
      have hlower := pushesLeft_internal hs hsome hact hen'
      exact ⟨hlower.le, fun _ => hlower⟩
    · refine ⟨Nat.le_of_eq ?_, fun hdue => ?_⟩
      · show 3 * _ + pushDistance ((s.step h' act).transports h).eventThread = _
        rw [transports_step, if_neg (Ne.symm hh)]
        rfl
      · obtain ⟨-, heq | ⟨act', -, heq⟩⟩ := hdue
        · cases heq
        · obtain ⟨rfl, -⟩ := LifecycleAct.eventThread.inj heq
          exact absurd rfl hh
  | @push h' event hlt hpc =>
    by_cases hh : h' = h
    · subst hh
      have hlower : 3 * (count - (ofHandle h' (s.pushed ++ [(h', event)])).length) +
          pushDistance ((s.step h' .push).transports h').eventThread < s.pushesLeft h' count := by
        rw [transports_step, if_pos rfl, ofHandle_append, ofHandle_singleton, if_pos rfl,
          List.length_append, pushesLeft, hpc]
        simp only [Transport.next, pushDistance, List.length_singleton]
        omega
      exact ⟨hlower.le, fun _ => hlower⟩
    · refine ⟨Nat.le_of_eq ?_, fun hdue => ?_⟩
      · show 3 * (count - (ofHandle h (s.pushed ++ [(h', event)])).length) +
          pushDistance ((s.step h' .push).transports h).eventThread = _
        rw [transports_step, if_neg (Ne.symm hh), ofHandle_append, ofHandle_singleton, if_neg hh,
          List.append_nil]
        rfl
      · obtain ⟨-, heq | ⟨act', -, heq⟩⟩ := hdue
        · exact absurd (LifecycleAct.push.inj heq) hh
        · cases heq
  | _ => exact hcalm.elim

theorem enqueued_next {a : LifecycleAct ε} (hen : s.Enabled a) :
    s.enqueued h <+: (s.next a).enqueued h := by
  have heff := effect_next hen
  generalize s.next a = s' at heff ⊢
  cases heff with
  | @enqueue h' event =>
    show s.enqueued h <+: Function.update s.enqueued h' (s.enqueued h' ++ [event]) h
    by_cases hh : h = h'
    · rw [hh, Function.update_self]
      exact List.prefix_append _ _
    · have hsame := Function.update_of_ne hh (s.enqueued h' ++ [event]) s.enqueued
      exact hsame ▸ List.prefix_rfl
  | _ => exact List.prefix_rfl

theorem pushed_next {a : LifecycleAct ε} (hen : s.Enabled a) : s.pushed <+: (s.next a).pushed := by
  have heff := effect_next hen
  generalize s.next a = s' at heff ⊢
  cases heff with
  | push => exact List.prefix_append _ _
  | _ => exact List.prefix_rfl

/-- What has been pushed is a part of what has been enqueued. -/
theorem ofHandle_pushed_isPrefix (htransit : s.Transit h) :
    ofHandle h s.pushed <+: s.enqueued h := by
  rw [htransit.enqueued, List.append_assoc]
  exact List.prefix_append _ _

/-! ## From `@event_queue` to the callbacks -/

/-- How many steps of the dispatch thread it takes at most until `count` events have been
dispatched. -/
def dispatchesLeft (d count : ℕ) (s : Lifecycle ε) : ℕ :=
  s.delivery.dispatchesLeft d count

/-- There are events to dispatch, and a thread that serves the queue. -/
structure ToDispatch (d count : ℕ) (s : Lifecycle ε) : Prop where
  serving : s.delivery.Serving d
  free : s.owner = none
  pushed : count ≤ s.pushed.length

def Dispatched (count : ℕ) (s : Lifecycle ε) : Prop :=
  count ≤ s.delivery.dispatched.length

/-- A thread that serves the queue is the only one that events go through. -/
theorem through_of_serving (hserving : s.delivery.Serving d) (hone : s.OneConsumer)
    (hthrough : ∃ d', s.Through d') : s.Through d := by
  obtain ⟨d', hothers, hpushed⟩ := hthrough
  by_cases hd : d = d'
  · exact hd ▸ ⟨hothers, hpushed⟩
  · have hempty : s.delivery.hand d' = [] := by
      by_contra hhand
      have hlooping := Delivery.looping_of_busy (Delivery.busy_of_hand hhand)
      exact hd (hone.unique hserving.queue_open hserving.looping hlooping)
    refine ⟨fun d'' hd'' => ?_, ?_⟩
    · by_cases heq : d'' = d'
      · rw [heq, hempty]
      · exact hothers d'' heq
    · rw [hpushed, Delivery.pending, Delivery.pending, hempty, hothers d hd]

theorem exists_dispatchThreadDue (hs : s.ToDispatch d count) (hnot : ¬s.Dispatched count)
    (hthrough : s.Through d) : ∃ a, s.Enabled a ∧ s.DispatchThreadDue d a := by
  have hpending : s.delivery.pending d ≠ [] := by
    intro hnone
    have hall := hthrough.2
    rw [hnone, List.append_nil] at hall
    exact hnot (hs.pushed.trans (congrArg List.length hall).le)
  obtain ⟨act, hen, hact⟩ := Delivery.exists_enabled_of_serving hs.serving hpending
  refine ⟨.thread d act, ?_, hpending, act, rfl, hact⟩
  show s.delivery.Enabled (s.owner = none) d act
  simpa [hs.free] using hen

/-- A thread that does not take events leaves the one that does alone. -/
theorem frame_thread (hs : s.delivery.Serving d) (hone : s.OneConsumer) {d' : ℕ} (hd : d' ≠ d)
    {act : ThreadAct} (hen : s.delivery.Enabled (s.owner = none) d' act) :
    (s.delivery.next d' act).queue = s.delivery.queue ∧
      (s.delivery.next d' act).dispatched = s.delivery.dispatched ∧
      (s.delivery.next d' act).threads d = s.delivery.threads d := by
  obtain rfl : act = .signal := by
    refine Delivery.eq_signal_of_not_looping hen fun hlooping => hd ?_
    exact hone.unique hs.queue_open hlooping hs.looping
  exact ⟨rfl, rfl, (Delivery.frame_next hen).2.2 d (Ne.symm hd)⟩

theorem toDispatch_next {a : LifecycleAct ε} (hen : s.Enabled a) (hcalm : s.Calm a)
    (hone : s.OneConsumer) (hs : s.ToDispatch d count) : (s.next a).ToDispatch d count := by
  have hpushed := hs.pushed.trans (pushed_next hen).length_le
  have heff := effect_next hen
  generalize s.next a = s' at heff hpushed ⊢
  cases heff with
  | @thread d' act hen' =>
    refine ⟨?_, hs.free, hpushed⟩
    by_cases hd : d' = d
    · subst hd
      refine hs.serving.next hen' fun hact => ?_
      rw [hact] at hcalm
      exact hcalm
    · obtain ⟨hqueue, -, hthread⟩ := frame_thread hs.serving hone hd hen'
      refine ⟨?_, ?_, ?_⟩
      · simpa only [Delivery.Looping, hthread] using hs.serving.looping
      · exact (congrArg QueueWithPipe.closed hqueue).trans hs.serving.queue_open
      · exact hqueue ▸ hs.serving.no_killToken
  | push => exact ⟨hs.serving.push _, hs.free, hpushed⟩
  | enqueue | eventThread => exact ⟨hs.serving, hs.free, hpushed⟩
  | _ => exact hcalm.elim

theorem dispatchesLeft_next {a : LifecycleAct ε} (hen : s.Enabled a) (hcalm : s.Calm a)
    (hone : s.OneConsumer) (hs : s.ToDispatch d count) (hnot : ¬s.Dispatched count) :
    (s.next a).dispatchesLeft d count ≤ s.dispatchesLeft d count ∧
      (s.DispatchThreadDue d a → (s.next a).dispatchesLeft d count < s.dispatchesLeft d count) := by
  have heff := effect_next hen
  generalize s.next a = s' at heff ⊢
  cases heff with
  | @thread d' act hen' =>
    by_cases hd : d' = d
    · subst hd
      have hlower := Delivery.dispatchesLeft_next hs.serving hnot hen' fun hact => by
        rw [hact] at hcalm
        exact hcalm
      exact ⟨hlower.le, fun _ => hlower⟩
    · obtain ⟨-, hdispatched, hthread⟩ := frame_thread hs.serving hone hd hen'
      refine ⟨Nat.le_of_eq ?_, fun hdue => ?_⟩
      · simp only [dispatchesLeft, Delivery.dispatchesLeft, hdispatched, hthread]
      · obtain ⟨-, act', heq, -⟩ := hdue
        obtain ⟨rfl, -⟩ := LifecycleAct.thread.inj heq
        exact absurd rfl hd
  | push | enqueue | eventThread =>
    refine ⟨Nat.le_refl _, fun hdue => ?_⟩
    obtain ⟨-, act', heq, -⟩ := hdue
    cases heq
  | _ => exact hcalm.elim

/-! ## All the way -/

theorem through_of_reachable (h : (lifecycle ε).Reachable SetsUpAlone s) : ∃ d, s.Through d := by
  refine h.invariant_under (I := fun s => ∃ d, s.Through d) (fun _ => oneConsumer_of_reachable) ?_
    fun s a hone hs hen _ => through_next hen hone hs
  rintro _ rfl
  refine ⟨0, fun d hd => ?_, rfl⟩
  simp [initial, Delivery.initial, Delivery.hand, hd]

variable {n : ℕ}

/-- What has been enqueued is pushed, if the event thread is treated fairly. -/
theorem exists_pushed (r : (lifecycle ε).Run SetsUpAlone) (hcalm : r.From n Calm)
    (hfair : r.WeaklyFair (EventThreadDue h)) (hdelivers : (r.state n).Delivers h) :
    ∃ m, n ≤ m ∧ (r.state n).enqueued h <+: ofHandle h (r.state m).pushed := by
  obtain ⟨m, hm, hpushed⟩ := r.eventually_of_rank hfair hcalm
    (ToPush h ((r.state n).enqueued h).length) (Pushed h ((r.state n).enqueued h).length)
    (pushesLeft h ((r.state n).enqueued h).length)
    (fun s hr hs hnot => exists_eventThreadDue hs hnot (handles_of_reachable hr)
      (transit_of_reachable hr h))
    (fun s a hr hs hnot hen ha => Or.inr ⟨⟨delivers_next hen ha hs.delivers,
      hs.enqueued.trans (enqueued_next hen).length_le⟩,
      pushesLeft_next hen ha hs hnot (handles_of_reachable hr) (transit_of_reachable hr h)⟩)
    ⟨hdelivers, le_rfl⟩
  have hbefore : (r.state n).enqueued h <+: (r.state m).enqueued h :=
    r.always_of_step (r.from_ok n) (I := fun s => (r.state n).enqueued h <+: s.enqueued h)
      (fun s a _ hI hen _ => hI.trans (enqueued_next hen)) List.prefix_rfl hm
  exact ⟨m, hm, List.prefix_of_prefix_length_le hbefore
    (ofHandle_pushed_isPrefix (transit_of_reachable (r.reachable m) h)) hpushed⟩

/-- What has been pushed is dispatched, if the dispatch thread is treated fairly. -/
theorem exists_dispatched (r : (lifecycle ε).Run SetsUpAlone) (hcalm : r.From n Calm)
    (hfair : r.WeaklyFair (DispatchThreadDue d)) (hs : (r.state n).ToDispatch d 0) :
    ∃ m, n ≤ m ∧ (r.state n).pushed <+: (r.state m).delivery.dispatched := by
  obtain ⟨m, hm, hdispatched⟩ := r.eventually_of_rank hfair hcalm
    (ToDispatch d (r.state n).pushed.length) (Dispatched (r.state n).pushed.length)
    (dispatchesLeft d (r.state n).pushed.length)
    (fun s hr hs hnot => exists_dispatchThreadDue hs hnot
      (through_of_serving hs.serving (oneConsumer_of_reachable hr) (through_of_reachable hr)))
    (fun s a hr hs hnot hen ha => Or.inr ⟨toDispatch_next hen ha (oneConsumer_of_reachable hr) hs,
      dispatchesLeft_next hen ha (oneConsumer_of_reachable hr) hs hnot⟩)
    ⟨hs.serving, hs.free, le_rfl⟩
  have hbefore : (r.state n).pushed <+: (r.state m).pushed :=
    r.always_of_step (r.from_ok n) (I := fun s => (r.state n).pushed <+: s.pushed)
      (fun s a _ hI hen _ => hI.trans (pushed_next hen)) List.prefix_rfl hm
  obtain ⟨d', -, hthrough⟩ := through_of_reachable (r.reachable m)
  have hafter : (r.state m).delivery.dispatched <+: (r.state m).pushed := by
    rw [hthrough]
    exact List.prefix_append _ _
  exact ⟨m, hm, List.prefix_of_prefix_length_le hbefore hafter hdispatched⟩

/-- **Every event is dispatched.** Let nobody call `close` or `reopen` any more from some moment on,
with `@mutex` free, and let no callback raise `ShutdownException`. If a dispatch thread serves the
queue at that moment and the event thread of a handle has not been told to end, and both threads are
treated fairly from then on, then all events that the C client has handed over so far are passed to
`dispatch_next_callback` at last, in their order, however many others come in. -/
theorem dispatched_of_weaklyFair (r : (lifecycle ε).Run SetsUpAlone) (hcalm : r.From n Calm)
    (hfree : (r.state n).owner = none) (hdelivers : (r.state n).Delivers h)
    (hserving : (r.state n).delivery.Serving d) (hevent : r.WeaklyFair (EventThreadDue h))
    (hdispatch : r.WeaklyFair (DispatchThreadDue d)) :
    ∃ m, n ≤ m ∧ (r.state n).enqueued h <+: ofHandle h (r.state m).delivery.dispatched := by
  obtain ⟨m, hm, hpushed⟩ := exists_pushed r hcalm hevent hdelivers
  have hserves : (r.state m).ToDispatch d 0 :=
    r.always_of_step hcalm (fun s a hr hs hen ha =>
      toDispatch_next hen ha (oneConsumer_of_reachable hr) hs) ⟨hserving, hfree, Nat.zero_le _⟩ hm
  obtain ⟨m', hm', hdispatched⟩ := exists_dispatched r (hcalm.mono hm) hdispatch hserves
  exact ⟨m', hm.trans hm', hpushed.trans (hdispatched.filterMap _)⟩

/-- An event is on its way when the threads start. -/
def eventOnItsWay : List (LifecycleAct ℕ) :=
  [.enqueue 0 7, .eventThread 0 .start, .eventThread 0 .dequeue, .push 0, .thread 0 .check,
    .thread 0 .pop, .thread 0 .pass, .thread 0 .lookup, .thread 0 .callbackEnds]

theorem valid_eventOnItsWay : (lifecycle ℕ).Valid SetsUpAlone initial eventOnItsWay := by
  simp [eventOnItsWay, System.Valid, SetsUpAlone, lifecycle, Enabled, next, initial, step,
    Delivery.Enabled, Delivery.next, Delivery.threadTo, Delivery.push, Delivery.initial,
    QueueWithPipe.new, QueueWithPipe.push, QueueWithPipe.take, Transport.Enabled,
    Transport.Internal, Transport.next, Transport.zkrbDequeue, Transport.initial]

/-- At the end the event has been dispatched, and there is no other. -/
theorem exec_eventOnItsWay :
    (((lifecycle ℕ).exec initial eventOnItsWay).transports 0).undelivered = [] ∧
      ((lifecycle ℕ).exec initial eventOnItsWay).delivery.pending 0 = [] :=
  ⟨rfl, rfl⟩

theorem dispatched_of_weaklyFair_eventOnItsWay :
    let r := System.Run.ofList rfl valid_eventOnItsWay
    ∃ m, 1 ≤ m ∧ (r.state 1).enqueued 0 <+: ofHandle 0 (r.state m).delivery.dispatched := by
  obtain ⟨hundelivered, hpending⟩ := exec_eventOnItsWay
  refine dispatched_of_weaklyFair (d := 0) _ ?_ rfl ⟨Nat.one_pos, rfl, ?_⟩ ⟨?_, rfl, ?_⟩
    (System.Run.weaklyFair_ofList rfl valid_eventOnItsWay fun a _ hdue => hdue.1 hundelivered)
    (System.Run.weaklyFair_ofList rfl valid_eventOnItsWay fun a _ hdue => hdue.1 hpending)
  · intro m a _ hact
    have hmem : a ∈ eventOnItsWay := List.mem_of_getElem? hact
    simp only [eventOnItsWay, List.mem_cons, List.not_mem_nil, or_false] at hmem
    rcases hmem with rfl | rfl | rfl | rfl | rfl | rfl | rfl | rfl | rfl <;> trivial
  · show EventThread.starting ≠ .exited
    simp
  · simp [Delivery.Looping, System.Run.ofList, System.exec, eventOnItsWay, lifecycle, next,
      initial, step, Delivery.initial]
  · show QueueItem.killToken ∉ []
    simp

end Lifecycle

end ZookeeperClient
