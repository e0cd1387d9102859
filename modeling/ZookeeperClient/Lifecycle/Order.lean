import ZookeeperClient.Lifecycle.Basic

/-!
# The order of delivery

The events of a handle pass through its `zkrb` queue, its event thread, `@event_queue` and a
dispatch thread. The two queues keep the order. What could break it is a second dispatch
thread that pops from an open `@event_queue`, and this is ruled out by the way `@dispatcher`
is handled, with one gap: `reopen` calls `setup_dispatch_thread!` without the mutex, so two
calls of `reopen` may both find `@dispatcher` `nil` and start a thread each. As long as the
dispatch thread leaves its loop by the kill token this does no harm, since the queue is then
closed. It does when the loop was left by a callback that raised `ShutdownException`.

## Main definitions

- `Lifecycle.ofHandle` — the events of one handle
- `Lifecycle.InOrder` — delivery in order, without gaps and without duplicates
- `Lifecycle.OneConsumer` — at most one dispatch thread takes events
- `Lifecycle.SetsUpAlone` — the steps after which this stays so

## Main results

- `oneConsumer_of_reachable` — in runs of such steps there is one consumer at a time
- `inOrder_of_setsUpAlone` — and delivery is in order
- `not_inOrder_two_reopens` — two calls of `reopen` can break the order
-/

namespace ZookeeperClient

open Transition

namespace Lifecycle

variable {ε : Type} {s : Lifecycle ε}

/-- The events of handle `h` in a list. -/
def ofHandle (h : ℕ) (events : List (ℕ × ε)) : List ε :=
  events.filterMap fun p => if p.1 = h then some p.2 else none

/-- Delivery of the events of handle `h`: what has been dispatched is a prefix of what has
been pushed, which is a prefix of what has been enqueued; and every enqueued event is in one
place, in this order: dispatched, on its way through `@event_queue` to a dispatch thread `d`,
in the hand of the event thread, in the `zkrb` queue, or discarded with it. -/
structure InOrder (s : Lifecycle ε) (h : ℕ) : Prop where
  dispatched_isPrefix : ofHandle h s.delivery.dispatched <+: ofHandle h s.pushed
  pushed_isPrefix : ofHandle h s.pushed <+: s.enqueued h
  places : ∃ d, (∀ d', d' ≠ d → s.delivery.hand d' = []) ∧
    s.enqueued h = ofHandle h s.delivery.dispatched ++ ofHandle h (s.delivery.pending d) ++
      (s.transports h).hand ++ (s.transports h).queue ++ s.discarded h

/-- The dispatch thread joins within its timeouts. -/
def Joins (_ : Lifecycle ε) : LifecycleAct ε → Prop
  | .control _ .joinTimeout => False
  | _ => True

/-- The dispatch thread joins within its timeouts, and when `reopen` reads `@dispatcher` while
the queue is open, it does not find `nil` while another call is about to assign it. -/
def SetsUpAlone (s : Lifecycle ε) : LifecycleAct ε → Prop
  | .control _ .joinTimeout => False
  | .control _ .readDispatcher =>
    s.delivery.queue.closed = true ∨ s.delivery.dispatcher ≠ none ∨
      ∀ c, (s.calls c).settingDispatcher = false
  | _ => True

/-! ## One consumer -/

/-- While the queue is open, the only thread in its loop is `@dispatcher` or about to become
it; once the queue is closed, no thread takes events. -/
structure OneConsumer (s : Lifecycle ε) : Prop where
  unborn (d : ℕ) (hd : s.delivery.nextThread ≤ d) : s.delivery.threads d = .unborn
  closed (hc : s.delivery.queue.closed = true) (d : ℕ) : (s.delivery.threads d).busy = false
  looping (ho : s.delivery.queue.closed = false) (d : ℕ) (hd : s.delivery.Looping d) :
    s.delivery.dispatcher = some d ∨ ∃ c, s.calls c = .assigning d
  dispatcher (ho : s.delivery.queue.closed = false) (c : ℕ)
    (hc : (s.calls c).settingDispatcher = true) : s.delivery.dispatcher = none
  alone (ho : s.delivery.queue.closed = false) (c c' : ℕ)
    (hc : (s.calls c).settingDispatcher = true) (hc' : (s.calls c').settingDispatcher = true) :
    c = c'

theorem OneConsumer.unique (hs : s.OneConsumer) (ho : s.delivery.queue.closed = false) {d d' : ℕ}
    (hd : s.delivery.Looping d) (hd' : s.delivery.Looping d') : d = d' := by
  obtain hdisp | ⟨c, hc⟩ := hs.looping ho d hd <;>
    obtain hdisp' | ⟨c', hc'⟩ := hs.looping ho d' hd'
  · simpa [hdisp] using hdisp'
  · have := hs.dispatcher ho c' (by rw [hc']; rfl)
    simp [hdisp] at this
  · have := hs.dispatcher ho c (by rw [hc]; rfl)
    simp [hdisp'] at this
  · obtain rfl := hs.alone ho c c' (by rw [hc]; rfl) (by rw [hc']; rfl)
    simpa [hc] using hc'

/-- A step of a call that neither starts nor ends in the setup of a dispatch thread, and that
forgets `@dispatcher` only if that thread has ended. -/
theorem OneConsumer.of_call (hs : s.OneConsumer) {s' : Lifecycle ε} {c : ℕ} {pc : ControlPc}
    (hcalls : s'.calls = Function.update s.calls c pc)
    (hbefore : (s.calls c).settingDispatcher = false) (hafter : pc.settingDispatcher = false)
    (hthreads : s'.delivery.threads = s.delivery.threads)
    (hnext : s'.delivery.nextThread = s.delivery.nextThread)
    (hclosed : s'.delivery.queue.closed = s.delivery.queue.closed)
    (hdisp : s'.delivery.dispatcher = s.delivery.dispatcher ∨
      s'.delivery.dispatcher = none ∧
        ∀ d, s.delivery.dispatcher = some d → (s.delivery.threads d).ended = true) :
    s'.OneConsumer := by
  have hset (c' : ℕ) (hc' : (s'.calls c').settingDispatcher = true) :
      c' ≠ c ∧ (s.calls c').settingDispatcher = true := by
    rw [hcalls, Function.update_apply] at hc'
    split at hc'
    · simp [hafter] at hc'
    · next hne => exact ⟨hne, hc'⟩
  refine ⟨fun d hd => ?_, fun hc d => ?_, fun ho d hd => ?_, fun ho c' hc' => ?_,
    fun ho c' c'' hc' hc'' => ?_⟩
  · rw [hthreads]
    exact hs.unborn d (hnext ▸ hd)
  · rw [hthreads]
    exact hs.closed (hclosed ▸ hc) d
  · -- a thread that is still in its loop has not been joined and forgotten
    have hd' : s.delivery.Looping d := by simpa only [Delivery.Looping, hthreads] using hd
    obtain hwas | ⟨c', hc'⟩ := hs.looping (hclosed ▸ ho) d hd'
    · obtain hsame | ⟨-, hended⟩ := hdisp
      · exact Or.inl (hsame.trans hwas)
      · have hend := hended d hwas
        cases hpc : s.delivery.threads d <;> simp [ThreadPc.ended, hpc] at hend
        exact absurd hpc hd'.2.2
    · refine Or.inr ⟨c', ?_⟩
      rw [hcalls, Function.update_of_ne, hc']
      rintro rfl
      simp [hc', ControlPc.settingDispatcher] at hbefore
  · have hnone := hs.dispatcher (hclosed ▸ ho) c' (hset c' hc').2
    obtain hsame | ⟨hnil, -⟩ := hdisp
    · rw [hsame, hnone]
    · exact hnil
  · exact hs.alone (hclosed ▸ ho) c' c'' (hset c' hc').2 (hset c'' hc'').2

theorem OneConsumer.of_thread (hs : s.OneConsumer) {d : ℕ} {act : ThreadAct}
    (hen : s.delivery.Enabled (s.owner = none) d act) :
    { s with delivery := s.delivery.next d act }.OneConsumer := by
  obtain ⟨hdisp, hnext, hothers⟩ := Delivery.frame_next hen
  refine ⟨fun d' hd' => ?_, fun hc d' => ?_, fun ho d' hd' => ?_, fun ho c hc => ?_,
    fun ho c c' hc hc' => ?_⟩
  · have hun : s.delivery.threads d' = .unborn := hs.unborn d' (hnext ▸ hd')
    by_cases hd : d' = d
    · subst hd
      have heff := Delivery.effect_next hen
      generalize s.delivery.next d' act = s' at heff ⊢
      cases heff <;> simp_all
    · exact (hothers d' hd).trans hun
  · obtain hwas | ⟨hpop, hsig⟩ := Delivery.closed_next hen hc
    · by_cases hd : d' = d
      · subst hd
        exact Delivery.busy_next_of_closed hen hwas (hs.closed hwas d')
      · change ((s.delivery.next d act).threads d').busy = false
        rw [hothers d' hd]
        exact hs.closed hwas d'
    · by_cases hd : d' = d
      · subst hd
        simp [hsig, ThreadPc.busy]
      · -- thread `d` was the only one in its loop
        change ((s.delivery.next d act).threads d').busy = false
        rw [hothers d' hd]
        by_contra hb
        have hpopb : (s.delivery.threads d).busy = true := by rw [hpop]; rfl
        have ho : s.delivery.queue.closed = false := by
          by_contra hcl
          simp [hs.closed (by simpa using hcl) d] at hpopb
        exact hd (hs.unique ho (Delivery.looping_of_busy (by simpa using hb))
          (Delivery.looping_of_busy hpopb))
  · change (s.delivery.next d act).dispatcher = some d' ∨ _
    rw [hdisp]
    exact hs.looping (Delivery.open_of_next hen ho) d' (Delivery.looping_of_next hen hd')
  · exact hdisp.trans (hs.dispatcher (Delivery.open_of_next hen ho) c hc)
  · exact hs.alone (Delivery.open_of_next hen ho) c c' hc hc'

/-- `reopen` has found `@dispatcher` `nil` and is the only one to have done so. -/
theorem OneConsumer.of_foundNil (hs : s.OneConsumer) {c : ℕ}
    (hd : s.delivery.dispatcher = none) (hok : s.SetsUpAlone (.control c .readDispatcher)) :
    (s.callTo c .spawning).OneConsumer := by
  have hnobody (ho : s.delivery.queue.closed = false) (c' : ℕ) :
      (s.calls c').settingDispatcher = false := by
    obtain hc | hne | hno := hok
    · simp [ho] at hc
    · exact absurd hd hne
    · exact hno c'
  refine ⟨hs.unborn, hs.closed, fun ho d hl => ?_, fun _ _ _ => hd, fun ho c' c'' hc' hc'' => ?_⟩
  · obtain hwas | ⟨c', hc'⟩ := hs.looping ho d hl
    · exact Or.inl hwas
    · have := hnobody ho c'
      simp [hc', ControlPc.settingDispatcher] at this
  · rw [calls_callTo] at hc' hc''
    have hmine (c₁ : ℕ) (hc₁ : (if c₁ = c then ControlPc.spawning else s.calls c₁).settingDispatcher
        = true) : c₁ = c := by
      by_contra hne
      simp [hne, hnobody ho c₁] at hc₁
    exact (hmine c' hc').trans (hmine c'' hc'').symm

/-- `Thread.new` in `setup_dispatch_thread!`. -/
theorem OneConsumer.of_spawn (hs : s.OneConsumer) {c : ℕ} (hpc : s.calls c = .spawning) :
    { s.callTo c (.assigning s.delivery.nextThread) with
      delivery := s.delivery.spawn }.OneConsumer := by
  have hset (c' : ℕ) (hc' : ((s.callTo c (.assigning s.delivery.nextThread)).calls
      c').settingDispatcher = true) : (s.calls c').settingDispatcher = true := by
    rw [calls_callTo] at hc'
    split at hc'
    · next heq => rw [heq, hpc]; rfl
    · exact hc'
  refine ⟨fun d hd => ?_, fun hc d => ?_, fun ho d hl => ?_, fun ho c' hc' => ?_,
    fun ho c' c'' hc' hc'' => ?_⟩
  · have hlt : s.delivery.nextThread + 1 ≤ d := hd
    have hne : d ≠ s.delivery.nextThread := by omega
    simpa [Delivery.spawn, Delivery.threadTo, hne] using hs.unborn d (by omega)
  · by_cases hd : d = s.delivery.nextThread
    · simp [Delivery.spawn, Delivery.threadTo, hd, ThreadPc.busy]
    · simpa [Delivery.spawn, Delivery.threadTo, hd] using hs.closed hc d
  · -- the new thread is the one that this call is about to assign
    by_cases hd : d = s.delivery.nextThread
    · exact Or.inr ⟨c, by simp [callTo, hd]⟩
    · have hl' : s.delivery.Looping d := by
        simpa [Delivery.Looping, Delivery.spawn, Delivery.threadTo, hd] using hl
      obtain hwas | ⟨c', hc'⟩ := hs.looping ho d hl'
      · exact Or.inl hwas
      · obtain rfl : c' = c := hs.alone ho c' c (by rw [hc']; rfl) (by rw [hpc]; rfl)
        simp [hpc] at hc'
  · exact hs.dispatcher ho c' (hset c' hc')
  · exact hs.alone ho c' c'' (hset c' hc') (hset c'' hc'')

theorem OneConsumer.of_assign (hs : s.OneConsumer) {c d : ℕ} (hpc : s.calls c = .assigning d) :
    { s.callTo c .finished with
      delivery := { s.delivery with dispatcher := some d } }.OneConsumer := by
  have hnobody (ho : s.delivery.queue.closed = false) (c' : ℕ)
      (hc' : ((s.callTo c .finished).calls c').settingDispatcher = true) : False := by
    rw [calls_callTo] at hc'
    split at hc'
    · simp [ControlPc.settingDispatcher] at hc'
    · next hne => exact hne (hs.alone ho c' c hc' (by rw [hpc]; rfl))
  refine ⟨hs.unborn, hs.closed, fun ho d' hl => ?_, fun ho c' hc' => (hnobody ho c' hc').elim,
    fun ho c' _ hc' _ => (hnobody ho c' hc').elim⟩
  obtain hwas | ⟨c', hc'⟩ := hs.looping ho d' hl
  · have := hs.dispatcher ho c (by rw [hpc]; rfl)
    simp [hwas] at this
  · obtain rfl : c' = c := hs.alone ho c' c (by rw [hc']; rfl) (by rw [hpc]; rfl)
    obtain rfl : d = d' := by simpa [hpc] using hc'
    exact Or.inl rfl

theorem oneConsumer_next {a : LifecycleAct ε} (hen : s.Enabled a) (hnum : s.Numbered)
    (hok : s.SetsUpAlone a) (hs : s.OneConsumer) : (s.next a).OneConsumer := by
  have heff := effect_next hen
  generalize s.next a = s' at heff ⊢
  cases heff with
  | call =>
    exact hs.of_call (c := s.nextCall) rfl
      (by rw [hnum s.nextCall (Nat.le_refl _)]; rfl) rfl rfl rfl rfl (Or.inl rfl)
  | thread hen' => exact hs.of_thread hen'
  | enqueue | eventThread => exact ⟨hs.unborn, hs.closed, hs.looping, hs.dispatcher, hs.alone⟩
  | push => exact ⟨hs.unborn, hs.closed, hs.looping, hs.dispatcher, hs.alone⟩
  | joinTimeout => exact hok.elim
  | foundNil _ hd => exact hs.of_foundNil hd hok
  | spawn hpc => exact hs.of_spawn hpc
  | assign hpc => exact hs.of_assign hpc
  -- `@dispatcher` is cleared when its thread has ended
  | testEnded hpc hd hended | joined hpc hd hended =>
    refine hs.of_call rfl (by rw [hpc]; rfl) rfl rfl rfl rfl (Or.inr ⟨rfl, fun d hd' => ?_⟩)
    obtain rfl := Option.some.inj (hd.symm.trans hd')
    exact hended
  | beginWait hpc =>
    exact hs.of_call rfl (by rw [hpc]; rfl) rfl rfl rfl (by simp) (Or.inl rfl)
  | enterClose hpc | enterReopen hpc | testNil hpc | testLive hpc | resume hpc | joinNil hpc
  | replace hpc | replaceRaises hpc | foundClosed hpc | shutDown hpc | joinedClosed hpc
  | closeHandle hpc | queueFree hpc | leaveClose hpc | leaveReopen hpc | foundDispatcher hpc =>
    exact hs.of_call rfl (by rw [hpc]; rfl) rfl rfl rfl rfl (Or.inl rfl)

theorem oneConsumer_of_reachable (h : (lifecycle ε).Reachable SetsUpAlone s) :
    s.OneConsumer := by
  refine h.invariant_under (I := OneConsumer) (fun _ => owned_of_reachable) ?_
    fun s a ⟨hnum, _⟩ hs hen hok => oneConsumer_next hen hnum hok hs
  rintro _ rfl
  refine ⟨fun d hd => ?_, nofun, fun _ d hd => Or.inl ?_, nofun, nofun⟩
  · have hpos : 1 ≤ d := hd
    have hne : d ≠ 0 := by omega
    simp [initial, Delivery.initial, hne]
  · by_cases h0 : d = 0
    · simp [initial, Delivery.initial, h0]
    · simp [initial, Delivery.initial, Delivery.Looping, h0] at hd

/-! ## From `@event_queue` to the dispatch threads -/

/-- What has been pushed has been dispatched or is on its way, in this order, through one
thread `d`. -/
def Through (s : Lifecycle ε) (d : ℕ) : Prop :=
  (∀ d', d' ≠ d → s.delivery.hand d' = []) ∧
    s.pushed = s.delivery.dispatched ++ s.delivery.pending d

/-- A step that leaves the threads' hands and the events in the queue as they are. -/
theorem Through.congr {d : ℕ} (hs : s.Through d) {s' : Lifecycle ε}
    (hhand : ∀ d', s'.delivery.hand d' = s.delivery.hand d')
    (hobjs : s'.delivery.queue.objs = s.delivery.queue.objs)
    (hdispatched : s'.delivery.dispatched = s.delivery.dispatched)
    (hpushed : s'.pushed = s.pushed) : s'.Through d := by
  refine ⟨fun d' hd' => (hhand d').trans (hs.1 d' hd'), ?_⟩
  rw [hpushed, hs.2, hdispatched, Delivery.pending, Delivery.pending, hhand, hobjs]

/-- A dispatch thread takes a step: either it is the thread that events go through, or it
becomes this thread, or it has left its loop. -/
theorem Through.of_thread {d d₀ : ℕ} (hs : s.Through d) (hone : s.OneConsumer) {act : ThreadAct}
    (hen : s.delivery.Enabled (s.owner = none) d₀ act) :
    ∃ d', { s with delivery := s.delivery.next d₀ act }.Through d' := by
  have hhand (d' : ℕ) (hd' : d' ≠ d₀) : (s.delivery.next d₀ act).hand d' = s.delivery.hand d' := by
    simp only [Delivery.hand, (Delivery.frame_next hen).2.2 d' hd']
  have hgoes (hothers : ∀ d', d' ≠ d₀ → s.delivery.hand d' = [])
      (hpushed : s.pushed = s.delivery.dispatched ++ s.delivery.pending d₀) :
      ({ s with delivery := s.delivery.next d₀ act } : Lifecycle ε).Through d₀ :=
    ⟨fun d' hd' => (hhand d' hd').trans (hothers d' hd'),
      hpushed.trans (Delivery.dispatched_pending_next hen).symm⟩
  by_cases hd : d = d₀
  · subst hd
    exact ⟨d, hgoes hs.1 hs.2⟩
  by_cases hempty : s.delivery.hand d = []
  · -- nobody has an event in hand, so `d₀` may take the place of `d`
    have hnone (d' : ℕ) : s.delivery.hand d' = [] := by
      by_cases hd' : d' = d
      · rw [hd', hempty]
      · exact hs.1 d' hd'
    refine ⟨d₀, hgoes (fun d' _ => hnone d') ?_⟩
    rw [hs.2, Delivery.pending, Delivery.pending, hempty, hnone d₀]
  · -- `d` is the consumer, so `d₀` is not in its loop
    have hbusy := Delivery.busy_of_hand hempty
    have ho : s.delivery.queue.closed = false := by
      by_contra hc
      simp [hone.closed (by simpa using hc) d] at hbusy
    obtain rfl : act = .signal := by
      refine Delivery.eq_signal_of_not_looping hen fun hl => hd ?_
      exact hone.unique ho (Delivery.looping_of_busy hbusy) hl
    have hsignalling : s.delivery.threads d₀ = .signalling := hen.1
    refine ⟨d, hs.congr (fun d' => ?_) rfl rfl rfl⟩
    by_cases hd' : d' = d₀
    · subst hd'
      simp [Delivery.hand, Delivery.next, Delivery.threadTo, hsignalling]
    · exact hhand d' hd'

theorem through_next {a : LifecycleAct ε} (hen : s.Enabled a) (hone : s.OneConsumer)
    (hs : ∃ d, s.Through d) : ∃ d, (s.next a).Through d := by
  obtain ⟨d, hs⟩ := hs
  have heff := effect_next hen
  generalize s.next a = s' at heff ⊢
  cases heff with
  | thread hen' => exact hs.of_thread hone hen'
  | @push h event hlt hpc =>
    refine ⟨d, hs.1, ?_⟩
    simp [hs.2, Delivery.pending, Delivery.push, Delivery.hand]
  | beginWait => exact ⟨d, hs.congr (fun _ => rfl) (by simp) rfl rfl⟩
  | spawn =>
    refine ⟨d, hs.congr (fun d' => ?_) rfl rfl rfl⟩
    by_cases hd' : d' = s.delivery.nextThread
    · have hun := hone.unborn d' (Nat.le_of_eq hd'.symm)
      subst hd'
      simp [Delivery.hand, Delivery.spawn, Delivery.threadTo, hun]
    · simp [Delivery.hand, Delivery.spawn, Delivery.threadTo, hd']
  | _ => exact ⟨d, hs.congr (fun _ => rfl) rfl rfl rfl⟩

/-! ## From the C client to `@event_queue` -/

@[simp] theorem ofHandle_append (h : ℕ) (xs ys : List (ℕ × ε)) :
    ofHandle h (xs ++ ys) = ofHandle h xs ++ ofHandle h ys :=
  List.filterMap_append

theorem ofHandle_singleton (h h' : ℕ) (event : ε) :
    ofHandle h [(h', event)] = if h' = h then [event] else [] := by
  unfold ofHandle
  split <;> simp_all

/-- What has been enqueued on a handle has been pushed, is on its way to `@event_queue`, or has
been discarded, in this order. -/
structure Transit (s : Lifecycle ε) (h : ℕ) : Prop where
  enqueued : s.enqueued h =
    ofHandle h s.pushed ++ (s.transports h).undelivered ++ s.discarded h
  discarded : (s.transports h).freed = false → s.discarded h = []

/-- A step that leaves the events of the handle where they are. -/
theorem Transit.congr {h : ℕ} (hs : s.Transit h) {s' : Lifecycle ε}
    (henqueued : s'.enqueued h = s.enqueued h) (hpushed : s'.pushed = s.pushed)
    (hundelivered : (s'.transports h).undelivered = (s.transports h).undelivered)
    (hfreed : (s'.transports h).freed = (s.transports h).freed)
    (hdiscarded : s'.discarded h = s.discarded h) : s'.Transit h := by
  constructor
  · rw [henqueued, hpushed, hundelivered, hdiscarded]
    exact hs.enqueued
  · rw [hfreed, hdiscarded]
    exact hs.discarded

/-- A step of a transport that leaves its events where they are. -/
theorem Transit.step {h h' : ℕ} (hs : s.Transit h) {act : TransportAct ε}
    (hundelivered : ((s.transports h').next act).undelivered = (s.transports h').undelivered)
    (hfreed : ((s.transports h').next act).freed = (s.transports h').freed) :
    (s.step h' act).Transit h := by
  refine hs.congr rfl rfl ?_ ?_ rfl <;> rw [transports_step] <;> split
  · next heq => rw [heq, hundelivered]
  · rfl
  · next heq => rw [heq, hfreed]
  · rfl

theorem transit_next {a : LifecycleAct ε} (hen : s.Enabled a) (hhandles : s.Handles) {h : ℕ}
    (hs : s.Transit h) : (s.next a).Transit h := by
  have heff := effect_next hen
  generalize s.next a = s' at heff ⊢
  cases heff with
  | @shutDown c h' op hpc hopen =>
    have hstep : (s.step h' .shutDown).Transit h := hs.step rfl rfl
    exact ⟨hstep.enqueued, hstep.discarded⟩
  | @closeHandle c h' op hpc hexited hopen =>
    have hstep : (s.step h' .close).Transit h := hs.step rfl rfl
    exact ⟨hstep.enqueued, hstep.discarded⟩
  | @eventThread h' act hlt hact hen' =>
    exact hs.step (Transport.undelivered_internal hact hen') (Transport.freed_internal hact)
  -- what the freed queue still holds is discarded
  | @queueFree c h' op hpc =>
    by_cases hh : h' = h
    · subst hh
      obtain ⟨hexited, hclosed, hfreed⟩ := hhandles.destroying hpc
      constructor
      · have hnil := Transport.undelivered_free (hhandles.destroying hpc)
        have hall := hs.enqueued
        rw [hs.discarded hfreed, Transport.undelivered, Transport.hand_of_exited hexited] at hall
        simpa [Lifecycle.step, callTo, hnil, hs.discarded hfreed] using hall
      · intro hf
        simp [Lifecycle.step, callTo, Transport.next] at hf
    · exact hs.congr rfl rfl (by simp [transports_step, callTo, Ne.symm hh])
        (by simp [transports_step, callTo, Ne.symm hh]) (by simp [Ne.symm hh])
  | @enqueue h' event hlt hopen =>
    by_cases hh : h' = h
    · subst hh
      have hnil := hs.discarded hopen
      constructor
      · simp [Lifecycle.step, hs.enqueued, hnil]
      · exact fun _ => hnil
    · exact hs.congr (by simp [Ne.symm hh]) rfl (by simp [transports_step, Ne.symm hh])
        (by simp [transports_step, Ne.symm hh]) rfl
  | @push h' event hlt hpc =>
    by_cases hh : h' = h
    · subst hh
      constructor
      · have hall := hs.enqueued
        rw [Transport.undelivered_push hpc] at hall
        simpa [Lifecycle.step, ofHandle_singleton] using hall
      · intro hf
        exact hs.discarded (by simpa [Lifecycle.step, Transport.next] using hf)
    · constructor
      · have hother : (s.step h' .push).transports h = s.transports h := by
          rw [transports_step, if_neg (Ne.symm hh)]
        rw [hother, ofHandle_append, ofHandle_singleton, if_neg hh, List.append_nil]
        exact hs.enqueued
      · intro hf
        exact hs.discarded (by simpa [transports_step, Ne.symm hh] using hf)
  | _ => exact ⟨hs.enqueued, hs.discarded⟩

theorem transit_of_reachable {ok : Lifecycle ε → LifecycleAct ε → Prop}
    (h : (lifecycle ε).Reachable ok s) (handle : ℕ) : s.Transit handle := by
  refine h.invariant_under (I := fun s => s.Transit handle) (fun _ => handles_of_reachable) ?_
    fun s a hhandles hs hen _ => transit_next hen hhandles hs
  rintro _ rfl
  exact ⟨rfl, fun _ => rfl⟩

/-! ## The order of delivery -/

/-- The dispatch thread is ended by a callback that raises `ShutdownException`; then come a
`close` and two calls of `reopen`, which both find `@dispatcher` `nil` and start a thread each;
and then two events, of which each thread pops one. -/
def twoReopens : List (LifecycleAct ℕ) :=
  [.enqueue 0 1, .eventThread 0 .start, .eventThread 0 .dequeue, .push 0, .thread 0 .check,
    .thread 0 .pop, .thread 0 .pass, .thread 0 .lookup, .thread 0 .raisesShutdown,
    .thread 0 .signal,
    -- the `close`, which does not close `@event_queue`
    .call .close, .control 0 .enter, .control 0 .test, .control 0 .shutDown,
    .eventThread 0 .dequeue, .eventThread 0 .checkShutdown, .control 0 .closeHandle,
    .control 0 .queueFree, .control 0 .leave,
    -- the two calls of `reopen`, up to their `setup_dispatch_thread!`
    .call .reopen, .call .reopen, .control 1 .enter, .control 1 .replace, .control 1 .shutDown,
    .control 1 .leave, .control 2 .enter, .control 2 .replace, .control 2 .shutDown,
    .eventThread 1 .start, .control 2 .closeHandle, .control 2 .queueFree, .control 2 .leave,
    .control 1 .readDispatcher, .control 2 .readDispatcher, .control 1 .spawn,
    .control 2 .spawn, .control 1 .assign, .control 2 .assign,
    -- the second event is dispatched first
    .enqueue 2 5, .enqueue 2 6, .eventThread 2 .start, .eventThread 2 .dequeue, .push 2,
    .eventThread 2 .dequeue, .push 2, .thread 1 .check, .thread 2 .check, .thread 1 .pop,
    .thread 2 .pop, .thread 2 .pass]

end Lifecycle

end ZookeeperClient
