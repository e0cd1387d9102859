import ZookeeperClient.Lifecycle.EventMachine
import ZookeeperClient.Lifecycle.Order

/-!
# The order of the callbacks of the reactor

The dispatch thread of a `ZookeeperEM::Client` hands a block over for every event, and the reactor
thread runs these blocks one after the other. A block that finds the client closed, or no handler,
calls nothing. So callbacks may be left out, but they are neither repeated nor swapped.

In the base class two calls of `reopen` may start a dispatch thread each for an open queue, when
the callback of an event has raised `ShutdownException`. Here no callback runs on a dispatch
thread. A thread that has ended has found the queue closed, and it takes no second one for the
order to be kept.

## Main definitions

- `EMClient.InOrder` — the callbacks for the events of a handle come in their order
- `EMClient.Joins` — the dispatch thread joins in time

## Main results

- `inOrder_of_joins` — the order is kept in every such run
-/

namespace ZookeeperClient

open Transition

/-- The event of the block that runs, as long as its callback has not been started. -/
def ReactorPc.waiting {α : Type} : ReactorPc α → List α
  | .asking a | .running a | .passed a | .found a => [a]
  | .idle | .calling _ => []

namespace EMClient

variable {ε : Type}

/-- The callbacks for the events of handle `h`: they have been started in the order in which the C
client has handed the events over, each at most once. An event whose callback has not been started
has been passed over, with its block, or is in one place, in this order: in the block that runs, in
one that has been scheduled, on its way to the dispatch thread or to `@event_queue`, or discarded
with its handle. -/
structure InOrder (s : EMClient ε) (h : ℕ) : Prop where
  started : (Lifecycle.ofHandle h s.started).Sublist (s.base.enqueued h)
  places : ∃ past d, s.started.Sublist past ∧
    s.base.enqueued h = Lifecycle.ofHandle h past ++ Lifecycle.ofHandle h s.reactor.waiting ++
      Lifecycle.ofHandle h s.scheduled ++ Lifecycle.ofHandle h (s.base.delivery.pending d) ++
      (s.base.transports h).undelivered ++ s.base.discarded h

/-- The dispatch thread joins within its timeouts. -/
def Joins (_ : EMClient ε) : EMClientAct ε → Prop
  | .inherited (.control _ .joinTimeout) => False
  | _ => True

end EMClient

/-! ## The dispatch threads -/

namespace Lifecycle

variable {ε : Type} {s : Lifecycle ε}

/-- A dispatch thread has left its loop only when the queue has been closed, and `@dispatcher` is
forgotten only after that. -/
structure EndsClosed (s : Lifecycle ε) : Prop where
  ended {d : ℕ} (hd : s.delivery.threads d = .signalling ∨ s.delivery.threads d = .exited) :
    s.delivery.queue.closed = true
  forgotten (hd : s.delivery.dispatcher = none) : s.delivery.queue.closed = true

/-- A step that leaves the queue and the dispatch threads alone. -/
theorem EndsClosed.congr (hs : s.EndsClosed) {s' : Lifecycle ε}
    (hthreads : s'.delivery.threads = s.delivery.threads)
    (hclosed : s'.delivery.queue.closed = s.delivery.queue.closed)
    (hdisp : s'.delivery.dispatcher = none → s.delivery.queue.closed = true) : s'.EndsClosed := by
  refine ⟨fun {d} hd => ?_, fun hd => ?_⟩
  · rw [hclosed]
    rw [hthreads] at hd
    exact hs.ended hd
  · rw [hclosed]
    exact hdisp hd

/-- A thread leaves its loop when it finds the queue closed or the kill token, which closes it. -/
theorem EndsClosed.of_thread (hs : s.EndsClosed) {d : ℕ} {act : ThreadAct}
    (hen : s.delivery.Enabled (s.owner = none) d act) (hact : act ≠ .raisesShutdown) :
    { s with delivery := s.delivery.next d act }.EndsClosed := by
  obtain ⟨hdisp, -, hothers⟩ := Delivery.frame_next hen
  have hclosed (hc : s.delivery.queue.closed = true) :
      (s.delivery.next d act).queue.closed = true := by
    by_contra hopen
    have hwas := Delivery.open_of_next hen (by simpa using hopen)
    simp [hwas] at hc
  refine ⟨fun {d'} hd' => ?_, fun hd => ?_⟩
  · by_cases hd : d' = d
    · subst hd
      have heff := Delivery.effect_next hen
      change (s.delivery.next d' act).queue.closed = true
      change (s.delivery.next d' act).threads d' = .signalling ∨
        (s.delivery.next d' act).threads d' = .exited at hd'
      generalize s.delivery.next d' act = t at heff hd'
      cases heff with
      | closed _ hc => exact hc
      | killed => rfl
      | signal hpc => exact hs.ended (Or.inl hpc)
      | raisesShutdown => exact absurd rfl hact
      | opened | popped | pass | lookup | callbackEnds =>
        simp [Delivery.threadTo] at hd'
    · refine hclosed (hs.ended (d := d') ?_)
      rw [← hothers d' hd]
      exact hd'
  · exact hclosed (hs.forgotten (hdisp ▸ hd))

theorem EndsClosed.next {a : LifecycleAct ε} (hen : s.Enabled a) (hjoins : s.Joins a)
    (hraises : ∀ d, a ≠ .thread d .raisesShutdown) (hs : s.EndsClosed) : (s.next a).EndsClosed := by
  have heff := effect_next hen
  generalize s.next a = s' at heff ⊢
  cases heff with
  | thread hen' => exact hs.of_thread hen' fun hact => hraises _ (by rw [hact])
  | beginWait => exact hs.congr rfl (by simp) hs.forgotten
  | spawn =>
    refine ⟨fun {d} hd => ?_, hs.forgotten⟩
    by_cases hnew : d = s.delivery.nextThread
    · simp [Delivery.spawn, Delivery.threadTo, hnew] at hd
    · refine hs.ended (d := d) ?_
      simpa [Delivery.spawn, Delivery.threadTo, hnew] using hd
  | assign => exact hs.congr rfl rfl fun hd => by cases hd
  -- the thread that is forgotten has ended
  | testEnded _ _ hended | joined _ _ hended =>
    refine hs.congr rfl rfl fun _ => ?_
    unfold ThreadPc.ended at hended
    split at hended
    · next hexited => exact hs.ended (Or.inr hexited)
    · cases hended
  | joinTimeout => exact hjoins.elim
  | _ => exact hs.congr rfl rfl hs.forgotten

/-- While `@dispatcher` is `nil` the queue is closed, so that nothing can go wrong when several
calls of `reopen` find it so. -/
theorem EndsClosed.setsUpAlone (hs : s.EndsClosed) {a : LifecycleAct ε} (hjoins : s.Joins a) :
    s.SetsUpAlone a := by
  cases a with
  | control c act =>
    cases act with
    | joinTimeout => exact hjoins.elim
    | readDispatcher =>
      by_cases hd : s.delivery.dispatcher = none
      · exact Or.inl (hs.forgotten hd)
      · exact Or.inr (Or.inl hd)
    | _ => trivial
  | _ => trivial

/-! ## The block is handed over -/

/-- To hand a block over is a call of `dispatch_next_callback` that does nothing but return. -/
theorem delivery_handOver {d : ℕ} {a : ℕ × ε} (hpc : s.delivery.threads d = .handling a) :
    (EMClient.handOver d a s).delivery =
      ((s.delivery.next d .pass).next d .lookup).next d .callbackEnds := by
  simp [EMClient.handOver, Delivery.next, hpc, Delivery.threadTo]

/-- Events go through one dispatch thread at a time, and none ends while the queue is open. -/
structure Sorted (s : Lifecycle ε) : Prop where
  oneConsumer : s.OneConsumer
  endsClosed : s.EndsClosed
  through : ∃ d, s.Through d

/-- It does not matter who holds `@mutex`. -/
theorem Sorted.congr_owner (hs : s.Sorted) (owner : Option ℕ) :
    { s with owner := owner }.Sorted :=
  ⟨⟨hs.oneConsumer.unborn, hs.oneConsumer.closed, hs.oneConsumer.looping,
    hs.oneConsumer.dispatcher, hs.oneConsumer.alone⟩,
    ⟨hs.endsClosed.ended, hs.endsClosed.forgotten⟩, hs.through⟩

theorem Sorted.of_thread (hs : s.Sorted) {d : ℕ} (act : ThreadAct)
    (hen : s.delivery.Enabled (s.owner = none) d act) (hact : act ≠ .raisesShutdown) :
    { s with delivery := s.delivery.next d act }.Sorted := by
  obtain ⟨d', hd'⟩ := hs.through
  exact ⟨hs.oneConsumer.of_thread hen, hs.endsClosed.of_thread hen hact,
    hd'.of_thread hs.oneConsumer hen⟩

theorem Sorted.next {a : LifecycleAct ε} (hen : s.Enabled a) (hnum : s.Numbered)
    (hjoins : s.Joins a) (hraises : ∀ d, a ≠ .thread d .raisesShutdown) (hs : s.Sorted) :
    (s.next a).Sorted :=
  ⟨oneConsumer_next hen hnum (hs.endsClosed.setsUpAlone hjoins) hs.oneConsumer,
    hs.endsClosed.next hen hjoins hraises, through_next hen hs.oneConsumer hs.through⟩

theorem Sorted.handOver (hs : s.Sorted) {d : ℕ} {a : ℕ × ε}
    (hpc : s.delivery.threads d = .handling a) : (EMClient.handOver d a s).Sorted := by
  have hpass : (s.delivery.next d .pass).threads d = .dispatching := by
    simp [Delivery.next, hpc, Delivery.threadTo]
  have hlookup : ((s.delivery.next d .pass).next d .lookup).threads d = .calling := by
    simp [Delivery.next, Delivery.threadTo]
  have hall := (((hs.congr_owner none).of_thread .pass ⟨a, hpc⟩ (by simp)).of_thread .lookup
    ⟨hpass, rfl⟩ (by simp)).of_thread .callbackEnds hlookup (by simp)
  have hback := hall.congr_owner s.owner
  simp only [← delivery_handOver hpc] at hback
  exact hback

/-- What has been dispatched changes with the call of `dispatch_next_callback` only. -/
theorem dispatched_next {a : LifecycleAct ε} (hen : s.Enabled a)
    (hpass : ∀ d, a ≠ .thread d .pass) :
    (s.next a).delivery.dispatched = s.delivery.dispatched := by
  have heff := effect_next hen
  generalize s.next a = s' at heff ⊢
  cases heff with
  | @thread d act hen' =>
    have heff' := Delivery.effect_next hen'
    change (s.delivery.next d act).dispatched = s.delivery.dispatched
    generalize s.delivery.next d act = t at heff' ⊢
    cases heff' with
    | pass => exact absurd rfl (hpass d)
    | _ => rfl
  | _ => rfl

end Lifecycle

namespace EMClient

variable {ε : Type} {s : EMClient ε}

/-! ## The blocks -/

/-- The blocks are run in the order in which they have been scheduled. -/
def Behind (s : EMClient ε) : Prop :=
  ∃ past, s.base.delivery.dispatched = past ++ s.reactor.waiting ++ s.scheduled ∧
    s.started.Sublist past

/-- The block that runs is left without a callback. -/
theorem Behind.passOver (hs : s.Behind) {reactor : ReactorPc (ℕ × ε)}
    (hreactor : reactor.waiting = [] ∨ reactor.waiting = s.reactor.waiting) :
    { s with reactor := reactor }.Behind := by
  obtain ⟨past, hdispatched, hstarted⟩ := hs
  obtain hnone | hsame := hreactor
  · refine ⟨past ++ s.reactor.waiting, ?_, hstarted.trans (List.sublist_append_left _ _)⟩
    rw [hnone, List.append_nil]
    exact hdispatched
  · refine ⟨past, ?_, hstarted⟩
    rw [hsame]
    exact hdispatched

theorem Behind.of_base (hs : s.Behind) {base : Lifecycle ε}
    (hdispatched : base.delivery.dispatched = s.base.delivery.dispatched) :
    { s with base := base }.Behind := by
  obtain ⟨past, hpast, hstarted⟩ := hs
  exact ⟨past, hdispatched.trans hpast, hstarted⟩

theorem behind_next {a : EMClientAct ε} (hen : s.Enabled a) (hs : s.Behind) :
    (s.next a).Behind := by
  cases a with
  | inherited a =>
    refine hs.of_base (Lifecycle.dispatched_next hen.2 fun d hd => ?_)
    obtain ⟨hinherits, -⟩ := hen
    rw [hd] at hinherits
    obtain hact | hact | hact := hinherits <;> cases hact
  | schedule d =>
    obtain ⟨a, hpc⟩ := hen
    obtain ⟨past, hpast, hstarted⟩ := hs
    simp only [next, hpc]
    refine ⟨past, ?_, hstarted⟩
    simp [handOver, hpast]
  | close onReactor => exact hs.of_base rfl
  | join c | succeed c => exact hs
  | runBlock =>
    obtain ⟨hidle, -, hne⟩ := hen
    obtain ⟨past, hpast, hstarted⟩ := hs
    cases hq : s.scheduled with
    | nil => exact absurd hq hne
    | cons a rest =>
      simp only [next, hq]
      refine ⟨past, ?_, hstarted⟩
      simpa [hidle, hq, ReactorPc.waiting] using hpast
  | askRunning =>
    obtain ⟨⟨a, hpc⟩, -⟩ := hen
    simp only [next, hpc]
    exact hs.passOver (Or.inr (by rw [hpc]; rfl))
  | askClosed =>
    obtain ⟨⟨a, hpc⟩, -⟩ := hen
    simp only [next, hpc]
    refine hs.passOver ?_
    split
    · exact Or.inl rfl
    · exact Or.inr (by rw [hpc]; rfl)
  | lookup found =>
    obtain ⟨⟨a, hpc⟩, -⟩ := hen
    simp only [next, hpc]
    refine hs.passOver ?_
    cases found with
    | false => exact Or.inl rfl
    | true => exact Or.inr (by rw [hpc]; rfl)
  | startCallback =>
    obtain ⟨a, hpc⟩ := hen
    obtain ⟨past, hpast, hstarted⟩ := hs
    simp only [next, hpc]
    refine ⟨past ++ [a], ?_, hstarted.append (List.Sublist.refl [a])⟩
    simpa [hpc, ReactorPc.waiting] using hpast
  | callbackEnds => exact hs.passOver (Or.inl rfl)

/-! ## The order -/

/-- What holds in every state of a run in which the dispatch thread joins in time. -/
structure Ordered (s : EMClient ε) : Prop where
  numbered : s.base.Numbered
  owned : s.base.Owned
  handles : s.base.Handles
  transit (h : ℕ) : s.base.Transit h
  sorted : s.base.Sorted
  behind : s.Behind

/-- A step of the base class, `close` included. -/
theorem Ordered.of_base (hs : s.Ordered) {a : LifecycleAct ε} {s' : EMClient ε}
    (hbase : s'.base = s.base.next a) (hen : s.base.Enabled a) (hjoins : s.base.Joins a)
    (hraises : ∀ d, a ≠ .thread d .raisesShutdown) (hbehind : s'.Behind) : s'.Ordered := by
  refine ⟨?_, ?_, ?_, fun h => ?_, ?_, hbehind⟩ <;> rw [hbase]
  · exact Lifecycle.numbered_next hen hs.numbered
  · exact Lifecycle.owned_next hen hs.numbered hs.owned
  · exact Lifecycle.handles_next hen hs.owned hs.handles
  · exact Lifecycle.transit_next hen hs.handles (hs.transit h)
  · exact hs.sorted.next hen hs.numbered hjoins hraises

/-- A step of the reactor or of a caller of `close`. -/
theorem Ordered.of_reactor (hs : s.Ordered) {s' : EMClient ε} (hbase : s'.base = s.base)
    (hbehind : s'.Behind) : s'.Ordered := by
  refine ⟨?_, ?_, ?_, fun h => ?_, ?_, hbehind⟩ <;> rw [hbase]
  exacts [hs.numbered, hs.owned, hs.handles, hs.transit h, hs.sorted]

theorem ordered_next {a : EMClientAct ε} (hen : s.Enabled a) (hok : s.Joins a) (hs : s.Ordered) :
    (s.next a).Ordered := by
  have hbehind := behind_next hen hs.behind
  cases a with
  | inherited a =>
    refine hs.of_base rfl hen.2 ?_ (fun d hd => ?_) hbehind
    · cases a with
      | control c act =>
        cases act with
        | joinTimeout => exact hok.elim
        | _ => trivial
      | _ => trivial
    · obtain ⟨hinherits, -⟩ := hen
      rw [hd] at hinherits
      obtain hact | hact | hact := hinherits <;> cases hact
  | close onReactor =>
    exact hs.of_base (a := .call .close) rfl trivial trivial (by simp) hbehind
  | schedule d =>
    obtain ⟨a, hpc⟩ := hen
    simp only [next, hpc] at hbehind ⊢
    exact ⟨hs.numbered, hs.owned, ⟨hs.handles.reachable, hs.handles.destroying⟩,
      fun h => ⟨(hs.transit h).enqueued, (hs.transit h).discarded⟩, hs.sorted.handOver hpc,
      hbehind⟩
  | join c | succeed c | callbackEnds => exact hs.of_reactor rfl hbehind
  | runBlock =>
    refine hs.of_reactor ?_ hbehind
    simp only [next]
    split <;> rfl
  | askRunning | askClosed | lookup found | startCallback =>
    refine hs.of_reactor ?_ hbehind
    simp only [next]
    split <;> rfl

theorem ordered_of_reachable (h : (emClient ε).Reachable Joins s) : s.Ordered := by
  refine h.invariant ?_ fun s a hs hen hok => ordered_next hen hok hs
  rintro _ rfl
  have hinit : (Transition.System.Reachable (lifecycle ε) Lifecycle.SetsUpAlone
    Lifecycle.initial) := .of_init rfl
  obtain ⟨hnum, howned⟩ := Lifecycle.owned_of_reachable hinit
  refine ⟨hnum, howned, Lifecycle.handles_of_reachable hinit,
    Lifecycle.transit_of_reachable hinit, ⟨Lifecycle.oneConsumer_of_reachable hinit, ?_, 0, ?_⟩,
    [], rfl, List.Sublist.refl []⟩
  · refine ⟨fun {d} hd => ?_, fun hd => by cases hd⟩
    by_cases h0 : d = 0
    · simp [initial, Lifecycle.initial, Delivery.initial, h0] at hd
    · simp [initial, Lifecycle.initial, Delivery.initial, h0] at hd
  · refine ⟨fun d hd => ?_, rfl⟩
    simp [initial, Lifecycle.initial, Delivery.initial, Delivery.hand, hd]

/-- A second event comes in, and its block is scheduled. -/
def secondSteps : List (EMClientAct ℕ) :=
  [.inherited (.enqueue 0 8), .inherited (.eventThread 0 .dequeue), .inherited (.push 0),
    .inherited (.thread 0 .check), .inherited (.thread 0 .pop), .schedule 0]

end EMClient

end ZookeeperClient
