import ZookeeperClient.Java.Sessions
import ZookeeperClient.Lifecycle.Progress

/-!
# The events of the Java backend

The threads of the Java client push the events of all sessions to one `@event_queue`. A client has
one dispatch thread in its life, which the constructor starts after the first session has been
connected. If the constructor has stopped waiting before that, there is none: `reopen` does not call
`setup_dispatch_thread!` as it does in the C backend.

## Main definitions

- `JavaLog`, `javaLog` — the client with the events that have been pushed
- `JavaLog.Calm` — neither `close` nor `reopen` goes on, and no callback ends the dispatch thread
- `JavaLog.DispatchThreadDue` — the steps that are treated fairly

## Main results

- `dispatched_in_order` — events are dispatched in order, and by a connected client only
- `all_dispatched_of_weaklyFair` — every event is dispatched at last
-/

namespace ZookeeperClient

open Transition

/-- A client, and the events that have been pushed to `@event_queue` so far. -/
structure JavaLog (ε : Type) where
  client : JavaLifecycle ε
  pushed : List (ℕ × ε)

namespace JavaLog

variable {ε : Type}

/-- A client whose constructor has returned, with the session connected or not. -/
def initial (connected : Bool) : JavaLog ε where
  client := .initial connected
  pushed := []

def next (s : JavaLog ε) (a : JavaLifecycleAct ε) : JavaLog ε where
  client := s.client.next a
  pushed :=
    match a with
    | .push h event => s.pushed ++ [(h, event)]
    | _ => s.pushed

/-- Neither `close` nor `reopen` goes on, and no callback raises `ShutdownException`. -/
def Calm (_ : JavaLog ε) : JavaLifecycleAct ε → Prop
  | .call _ | .control _ _ | .thread _ .raisesShutdown => False
  | _ => True

/-- The dispatch thread goes on with an event. -/
def DispatchThreadDue (s : JavaLog ε) (a : JavaLifecycleAct ε) : Prop :=
  s.client.delivery.pending 0 ≠ [] ∧ ∃ act, a = .thread 0 act ∧ act ≠ .raisesShutdown

end JavaLog

/-- The system of one client of the Java backend, with its history. -/
def javaLog (ε : Type) (connected : Bool) : System (JavaLog ε) (JavaLifecycleAct ε) where
  Init s := s = JavaLog.initial connected
  Enabled s a := s.client.Enabled a
  next := JavaLog.next

/-! ## The order of the events -/

namespace JavaLog

variable {ε : Type} {s : JavaLog ε} {connected : Bool} {ok : JavaLog ε → JavaLifecycleAct ε → Prop}

/-- Calls of `close` and `reopen` leave the threads and the events in the queue alone. -/
theorem delivery_control {c : ℕ} {act : JavaControlAct} (hen : s.client.ControlEnabled c act) :
    (s.client.controlNext c act).delivery.threads = s.client.delivery.threads ∧
      (s.client.controlNext c act).delivery.dispatched = s.client.delivery.dispatched ∧
      (s.client.controlNext c act).delivery.queue.objs = s.client.delivery.queue.objs := by
  have heff := JavaLifecycle.effect_controlNext hen
  generalize s.client.controlNext c act = s' at heff ⊢
  cases heff with
  | beginWait => exact ⟨rfl, rfl, QueueWithPipe.objs_gracefulClose _⟩
  | _ => exact ⟨rfl, rfl, rfl⟩

/-- Thread 0 is the only dispatch thread there is, if there is one, and all events go through it. -/
structure Through (connected : Bool) (s : JavaLog ε) : Prop where
  unborn (d : ℕ) (hd : d ≠ 0) : s.client.delivery.threads d = .unborn
  pushed : s.pushed = s.client.delivery.dispatched ++ s.client.delivery.pending 0
  unconnected (h : connected = false) :
    s.client.delivery.threads 0 = .unborn ∧ s.client.delivery.dispatched = []

/-- A step that leaves the threads and the events alone. -/
theorem Through.congr (hs : s.Through connected) {s' : JavaLog ε}
    (hthreads : s'.client.delivery.threads = s.client.delivery.threads)
    (hdispatched : s'.client.delivery.dispatched = s.client.delivery.dispatched)
    (hobjs : s'.client.delivery.queue.objs = s.client.delivery.queue.objs)
    (hpushed : s'.pushed = s.pushed) : s'.Through connected := by
  refine ⟨fun d hd => ?_, ?_, fun h => ?_⟩
  · rw [hthreads]
    exact hs.unborn d hd
  · rw [hpushed, hs.pushed, hdispatched]
    simp only [Delivery.pending, Delivery.hand, hthreads, hobjs]
  · rw [hthreads, hdispatched]
    exact hs.unconnected h

theorem through_next {a : JavaLifecycleAct ε} (hen : s.client.Enabled a)
    (hs : s.Through connected) : (s.next a).Through connected := by
  cases a with
  | call op => exact hs.congr rfl rfl rfl rfl
  | control c act =>
    obtain ⟨hthreads, hdispatched, hobjs⟩ := delivery_control hen
    exact hs.congr hthreads hdispatched hobjs rfl
  | thread d act =>
    obtain rfl := Delivery.eq_of_unborn hs.unborn hen
    refine ⟨fun d hd => Delivery.unborn_next hs.unborn hen hd, ?_, fun h => ?_⟩
    · exact hs.pushed.trans (Delivery.dispatched_pending_next hen).symm
    · exact absurd hen (Delivery.not_enabled_of_unborn (hs.unconnected h).1)
  | push h event =>
    refine ⟨hs.unborn, ?_, hs.unconnected⟩
    show s.pushed ++ [(h, event)] = s.client.delivery.dispatched ++
      (s.client.delivery.push (h, event)).pending 0
    rw [hs.pushed, List.append_assoc]
    simp [Delivery.pending, Delivery.hand, Delivery.push]

theorem through_of_reachable (h : (javaLog ε connected).Reachable ok s) :
    s.Through connected := by
  refine h.invariant (I := Through connected) ?_ fun s a hs hen _ => through_next hen hs
  rintro _ rfl
  cases connected with
  | true => exact ⟨fun d hd => if_neg hd, rfl, fun hc => by cases hc⟩
  | false => exact ⟨fun _ _ => rfl, rfl, fun _ => ⟨rfl, rfl⟩⟩

/-- **Events are dispatched in order.** In every run with any number of calls of `close` and
`reopen` on any threads: the events that have been passed to `dispatch_next_callback`, and after
them those in the hand of the dispatch thread and in `@event_queue`, are the ones that have been
pushed for any session, in that order, with none lost or repeated. Where the constructor has
returned without a connection none has been dispatched, whatever `reopen` has done since. -/
theorem dispatched_in_order (h : (javaLog ε connected).Reachable ok s) :
    s.client.delivery.dispatched ++ s.client.delivery.pending 0 = s.pushed ∧
      (connected = false → s.client.delivery.dispatched = []) :=
  have hs := through_of_reachable h
  ⟨hs.pushed.symm, fun hc => (hs.unconnected hc).2⟩

/-- Events of two sessions, of which the first one is closed by `reopen` in between. -/
def eventsOfTwo : List (JavaLifecycleAct ℕ) :=
  [.push 0 7, .thread 0 .check, .thread 0 .pop, .call .reopen, .control 0 .enter,
    .control 0 .construct, .push 1 8, .control 0 .closeOrig, .push 0 9, .control 0 .leave,
    .thread 0 .pass, .thread 0 .lookup]

theorem dispatched_in_order_eventsOfTwo :
    let s := (javaLog ℕ true).exec (initial true) eventsOfTwo
    s.client.delivery.dispatched ++ s.client.delivery.pending 0 = s.pushed ∧
      (true = false → s.client.delivery.dispatched = []) := by
  have hvalid : (javaLog ℕ true).Valid System.anyStep (initial true) eventsOfTwo := by
    simp [eventsOfTwo, System.Valid, System.anyStep, javaLog, next, initial, JavaLifecycle.Enabled,
      JavaLifecycle.next, JavaLifecycle.ControlEnabled, JavaLifecycle.controlNext,
      JavaLifecycle.initial, JavaLifecycle.callTo, JavaLifecycle.closeSession, Delivery.Enabled,
      Delivery.next, Delivery.threadTo, Delivery.push, Delivery.initial, QueueWithPipe.new,
      QueueWithPipe.push, QueueWithPipe.take]
  exact dispatched_in_order (System.Valid.reachable_exec rfl hvalid)

/-! ## Every event is dispatched -/

variable {count n : ℕ}

/-- There are events to dispatch, and a thread that serves the queue. -/
structure ToDispatch (count : ℕ) (s : JavaLog ε) : Prop where
  serving : s.client.delivery.Serving 0
  free : s.client.owner = none
  pushed : count ≤ s.pushed.length

def Dispatched (count : ℕ) (s : JavaLog ε) : Prop :=
  count ≤ s.client.delivery.dispatched.length

theorem pushed_next (s : JavaLog ε) (a : JavaLifecycleAct ε) : s.pushed <+: (s.next a).pushed := by
  cases a with
  | push h event => exact List.prefix_append _ _
  | _ => exact List.prefix_rfl

theorem exists_due (hs : s.ToDispatch count) (hnot : ¬s.Dispatched count)
    (hthrough : s.Through connected) : ∃ a, s.client.Enabled a ∧ s.DispatchThreadDue a := by
  have hpending : s.client.delivery.pending 0 ≠ [] := by
    intro hnone
    have hall := hthrough.pushed
    rw [hnone, List.append_nil] at hall
    exact hnot (hs.pushed.trans (congrArg List.length hall).le)
  obtain ⟨act, hen, hact⟩ := Delivery.exists_enabled_of_serving hs.serving hpending
  refine ⟨.thread 0 act, ?_, hpending, act, rfl, hact⟩
  show s.client.delivery.Enabled (s.client.owner = none) 0 act
  simpa [hs.free] using hen

theorem toDispatch_next {a : JavaLifecycleAct ε} (hen : s.client.Enabled a) (hcalm : s.Calm a)
    (hthrough : s.Through connected) (hs : s.ToDispatch count) : (s.next a).ToDispatch count := by
  have hpushed := hs.pushed.trans (pushed_next s a).length_le
  cases a with
  | thread d act =>
    obtain rfl := Delivery.eq_of_unborn hthrough.unborn hen
    refine ⟨hs.serving.next hen fun hact => ?_, hs.free, hpushed⟩
    rw [hact] at hcalm
    exact hcalm
  | push h event => exact ⟨hs.serving.push _, hs.free, hpushed⟩
  | _ => exact hcalm.elim

/-- A push leaves the dispatch thread where it is, and a step of the thread brings it closer to the
event. -/
theorem dispatchesLeft_next {a : JavaLifecycleAct ε} (hen : s.client.Enabled a) (hcalm : s.Calm a)
    (hthrough : s.Through connected) (hs : s.ToDispatch count) (hnot : ¬s.Dispatched count) :
    (s.next a).client.delivery.dispatchesLeft 0 count ≤ s.client.delivery.dispatchesLeft 0 count ∧
      (s.DispatchThreadDue a → (s.next a).client.delivery.dispatchesLeft 0 count <
        s.client.delivery.dispatchesLeft 0 count) := by
  cases a with
  | thread d act =>
    obtain rfl := Delivery.eq_of_unborn hthrough.unborn hen
    have hlower := Delivery.dispatchesLeft_next hs.serving hnot hen fun hact => by
      rw [hact] at hcalm
      exact hcalm
    exact ⟨hlower.le, fun _ => hlower⟩
  | push h event =>
    refine ⟨Nat.le_refl _, fun hdue => ?_⟩
    obtain ⟨-, act, heq, -⟩ := hdue
    cases heq
  | _ => exact hcalm.elim

/-- **Every event is dispatched.** Let nobody call `close` or `reopen` any more from some moment on,
with `@mutex` free, and let no callback raise `ShutdownException`. If the dispatch thread serves the
queue at that moment and is treated fairly from then on, all events that have been pushed so far are
passed to `dispatch_next_callback` at last, in their order, however many others come in. -/
theorem all_dispatched_of_weaklyFair (r : (javaLog ε connected).Run System.anyStep)
    (hcalm : r.From n Calm) (hfree : (r.state n).client.owner = none)
    (hserving : (r.state n).client.delivery.Serving 0) (hfair : r.WeaklyFair DispatchThreadDue) :
    ∃ m, n ≤ m ∧ (r.state n).pushed <+: (r.state m).client.delivery.dispatched := by
  obtain ⟨m, hm, hdispatched⟩ := r.eventually_of_rank hfair hcalm
    (ToDispatch (r.state n).pushed.length) (Dispatched (r.state n).pushed.length)
    (fun s => s.client.delivery.dispatchesLeft 0 (r.state n).pushed.length)
    (fun s hr hs hnot => exists_due hs hnot (through_of_reachable hr))
    (fun s a hr hs hnot hen ha => Or.inr ⟨toDispatch_next hen ha (through_of_reachable hr) hs,
      dispatchesLeft_next hen ha (through_of_reachable hr) hs hnot⟩)
    ⟨hserving, hfree, le_rfl⟩
  have hbefore : (r.state n).pushed <+: (r.state m).pushed :=
    r.always_of_step hcalm (I := fun s => (r.state n).pushed <+: s.pushed)
      (fun s a _ hI _ _ => hI.trans (pushed_next s a)) List.prefix_rfl hm
  have hafter : (r.state m).client.delivery.dispatched <+: (r.state m).pushed := by
    rw [(through_of_reachable (r.reachable m)).pushed]
    exact List.prefix_append _ _
  exact ⟨m, hm, List.prefix_of_prefix_length_le hbefore hafter hdispatched⟩

/-- Two events, pushed before the dispatch thread looks at the queue. -/
def twoEvents : List (JavaLifecycleAct ℕ) :=
  [.push 0 7, .push 0 8, .thread 0 .check, .thread 0 .pop, .thread 0 .pass, .thread 0 .lookup,
    .thread 0 .callbackEnds, .thread 0 .check, .thread 0 .pop, .thread 0 .pass]

theorem valid_twoEvents :
    (javaLog ℕ true).Valid System.anyStep (initial true) twoEvents := by
  simp [twoEvents, System.Valid, System.anyStep, javaLog, next, initial, JavaLifecycle.Enabled,
    JavaLifecycle.next, JavaLifecycle.initial, Delivery.Enabled, Delivery.next, Delivery.threadTo,
    Delivery.push, Delivery.initial, QueueWithPipe.new, QueueWithPipe.push, QueueWithPipe.take]

theorem pending_twoEvents :
    ((javaLog ℕ true).exec (initial true) twoEvents).client.delivery.pending 0 = [] := rfl

theorem all_dispatched_of_weaklyFair_twoEvents :
    let r := System.Run.ofList rfl valid_twoEvents
    ∃ m, 2 ≤ m ∧ (r.state 2).pushed <+: (r.state m).client.delivery.dispatched := by
  refine all_dispatched_of_weaklyFair _ ?_ rfl ⟨?_, rfl, ?_⟩
    (System.Run.weaklyFair_ofList rfl valid_twoEvents fun a _ hdue => hdue.1 pending_twoEvents)
  · intro m a _ hact
    have hmem : a ∈ twoEvents := List.mem_of_getElem? hact
    simp only [twoEvents, List.mem_cons, List.not_mem_nil, or_false] at hmem
    rcases hmem with rfl | rfl | rfl | rfl | rfl | rfl | rfl | rfl | rfl | rfl <;> trivial
  · simp [Delivery.Looping, System.Run.ofList, System.exec, twoEvents, javaLog, next, initial,
      JavaLifecycle.next, JavaLifecycle.initial, Delivery.push, Delivery.initial]
  · simp [System.Run.ofList, System.exec, twoEvents, javaLog, next, initial,
      JavaLifecycle.next, JavaLifecycle.initial, Delivery.push, Delivery.initial,
      QueueWithPipe.push, QueueWithPipe.new]

end JavaLog

end ZookeeperClient
