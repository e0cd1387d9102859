import ZookeeperClient.Ruby.DispatchThread
import ZookeeperClient.Transition.Fair

/-!
# Sequences of `close` and `reopen`

One client on which `close` and `reopen` are called one after the other, from ordinary
threads and from callbacks. A shutdown thread that waits for the dispatch thread lets go of
the mutex, and a call from a callback does not wait for its shutdown thread, so any number of
shutdown threads may be waiting when the next call is made.

`@event_queue` is made once, in the constructor, and nothing opens it again. In the C backend
`reopen` makes a new handle and, if `@dispatcher` is `nil`, a new dispatch thread. In the
Java backend it makes a new handle only: `@_closed` stays as it is, and the dispatch thread is
started by the constructor, if that finds itself connected, and never again.

## Main definitions

- `Backend`, `Session`, `SessionAct` — the state and the steps, in either backend
- `Session.DispatchesUntilClose` — what is pushed before the next `close` is dispatched
- `Session.Restored` — delivery as `reopen` should leave it
- `Session.Restorable` — the states in which `reopen` does so

## Main results

- `restored_iff` — `reopen` restores delivery exactly in the states that are `Restorable`
- `not_restorable_of_waiting` — they are not as long as a shutdown thread waits
- `not_restored_after_close` — in either backend it does not after an ordinary `close`
-/

namespace ZookeeperClient

open Transition

/-- The two implementations of `ZookeeperBase`. -/
inductive Backend where
  | c
  | java
  deriving DecidableEq, Repr

/-- A client, as far as its delivery thread and its flags are concerned. -/
structure Session (α : Type) where
  delivery : Delivery α
  /-- What `closed?` returns: `@czk.closed?` in the C backend, `@_closed` in the Java one. -/
  closed : Bool
  /-- The number of shutdown threads in `@dispatch_shutdown_cond.wait`. -/
  waiting : ℕ

/-- The calls, and what happens between them. -/
inductive SessionAct (α : Type) where
  /-- `@event_queue.push` by a thread of the current handle or of an earlier one. -/
  | push (a : α)
  /-- A step of dispatch thread `d`. -/
  | thread (d : ℕ) (act : ThreadAct)
  /-- The shutdown thread of a `close`, up to its wait if it waits, else to its end. -/
  | close
  /-- A shutdown thread that has waited goes on to its end. -/
  | closeResumes
  /-- A `reopen` that returns with the session connected. That it is one step loses nothing:
  see `not_restorable_of_waiting` for shutdown threads that go on in the middle of it. -/
  | reopen
  deriving Repr

namespace Session

variable {α : Type}

/-- `stop_dispatch_thread!` up to its wait; the flag says whether it waits. -/
def stopDispatchThread (s : Delivery α) : Delivery α × Bool :=
  match s.dispatcher with
  | none => (s, false)
  | some d =>
    if (s.threads d).ended then ({ s with dispatcher := none }, false)
    else ({ s with queue := s.queue.gracefulClose }, true)

/-- `close`: in the C backend the handle is closed after `stop_dispatch_thread!`, in the Java
backend `@_closed` is set before it. -/
def close : Backend → Session α → Session α
  | .c, s =>
    match stopDispatchThread s.delivery with
    | (delivery, true) => { s with delivery := delivery, waiting := s.waiting + 1 }
    | (delivery, false) => { s with delivery := delivery, closed := true }
  | .java, s =>
    if s.closed then s
    else
      match stopDispatchThread s.delivery with
      | (delivery, true) =>
        { s with delivery := delivery, closed := true, waiting := s.waiting + 1 }
      | (delivery, false) => { s with delivery := delivery, closed := true }

/-- The rest of `close` after the wait. If `@dispatcher` has become `nil` in the meantime,
`@dispatcher.join(2)` raises and nothing else happens. Otherwise `@dispatcher` is set to
`nil`, whether the thread has joined or not. -/
def closeResumes (b : Backend) (s : Session α) : Session α :=
  match s.delivery.dispatcher with
  | none => { s with waiting := s.waiting - 1 }
  | some _ =>
    { s with
      delivery := { s.delivery with dispatcher := none }
      closed := match b with
        | .c => true
        | .java => s.closed
      waiting := s.waiting - 1 }

def reopen : Backend → Session α → Session α
  | .c, s => { s with delivery := s.delivery.setupDispatchThread, closed := false }
  | .java, s => s

/-- The constructor has returned. In the Java backend it starts no dispatch thread if it does
not find itself connected. -/
def Init : Backend → Session α → Prop
  | .c, s => s = ⟨.initial, false, 0⟩
  | .java, s =>
    s = ⟨.initial, false, 0⟩ ∨
      s = ⟨{ (.initial : Delivery α) with
        dispatcher := none, threads := fun _ => .unborn, nextThread := 0 }, false, 0⟩

def Enabled (s : Session α) : SessionAct α → Prop
  | .push _ | .close | .reopen => True
  | .thread d act => s.delivery.Enabled True d act
  | .closeResumes => 0 < s.waiting

def next (b : Backend) (s : Session α) : SessionAct α → Session α
  | .push a => { s with delivery := s.delivery.push a }
  | .thread d act => { s with delivery := s.delivery.next d act }
  | .close => s.close b
  | .closeResumes => s.closeResumes b
  | .reopen => s.reopen b

/-- The states in which `reopen` restores delivery. In the C backend `graceful_close!` has not
been called, and `@dispatcher` is `nil` or in its loop. In the Java backend `close` has not
been called, and `@dispatcher` is in its loop. -/
def Restorable : Backend → Session α → Prop
  | .c, s => s.delivery.queue.graceful = false ∧
      ∀ d, s.delivery.dispatcher = some d → s.delivery.Looping d
  | .java, s => s.closed = false ∧
      ∃ d, s.delivery.dispatcher = some d ∧ s.delivery.Looping d

end Session

/-- A client under a sequence of `close` and `reopen` calls. -/
def session (α : Type) (b : Backend) : System (Session α) (SessionAct α) where
  Init := Session.Init b
  Enabled := Session.Enabled
  next := Session.next b

namespace Session

/-- What a step pushes to `@event_queue`. -/
def pushedBy {α : Type} : SessionAct α → List α
  | .push a => [a]
  | _ => []

variable {α : Type} {b : Backend} {s : Session α} {d : ℕ}

/-- `close` is not called, and no callback raises `ShutdownException`. -/
def UntilClose (_ : Session α) : SessionAct α → Prop
  | .close | .thread _ .raisesShutdown => False
  | _ => True

/-- Dispatch thread `d` goes on with an event. -/
def DispatchThreadDue (d : ℕ) (s : Session α) (a : SessionAct α) : Prop :=
  s.delivery.pending d ≠ [] ∧ ∃ act, a = .thread d act ∧ act ≠ .raisesShutdown

/-- In every run until the next `close`, in which events are pushed at any time and `reopen` may be
called again: what has been dispatched, is in the hand of thread `d` and in the queue is at each
moment what was there at first and has been pushed since, in that order; and if the thread is
treated fairly, whatever has been pushed by some moment is dispatched at last. -/
def DispatchesUntilClose (b : Backend) (d : ℕ) (s : Session α) : Prop :=
  ∀ (r : ((session α b).startingAt s).Run UntilClose) (n : ℕ),
    (r.state n).delivery.dispatched ++ (r.state n).delivery.pending d =
        s.delivery.dispatched ++ s.delivery.pending d ++ r.history pushedBy n ∧
      (r.WeaklyFair (DispatchThreadDue d) → ∃ m, n ≤ m ∧
        s.delivery.dispatched ++ s.delivery.pending d ++ r.history pushedBy n <+:
          (r.state m).delivery.dispatched)

/-- Delivery as `reopen` should leave it: the client is open, nothing in the queue tells the
dispatch thread to leave, and `@dispatcher` is a thread in its loop that dispatches whatever is
pushed until the next `close`. -/
structure Restored (b : Backend) (s : Session α) : Prop where
  not_closed : s.closed = false
  queue_open : s.delivery.queue.closed = false
  no_killToken : .killToken ∉ s.delivery.queue.items
  dispatches : ∃ d, s.delivery.dispatcher = some d ∧ s.delivery.Looping d ∧
    s.DispatchesUntilClose b d

/-! ## The flags of the queue -/

/-- As long as `graceful_close!` has not been called, `@dispatcher` is the only dispatch thread
there is. -/
def Alone (s : Delivery α) : Prop :=
  s.queue.graceful = false → ∀ d, s.dispatcher ≠ some d → s.Gone d

/-- The queue's flags and token belong together, a shutdown thread waits only after
`graceful_close!`, and in the Java backend the queue is left alone until `close`. -/
structure Sound (b : Backend) (s : Session α) : Prop where
  wellFormed : s.delivery.queue.WellFormed
  graceful : 0 < s.waiting → s.delivery.queue.graceful = true
  not_graceful : b = .java → s.closed = false → s.delivery.queue.graceful = false
  alone : Alone s.delivery

/-- `stop_dispatch_thread!` leaves the queue alone, or calls `graceful_close!` on it, which it
does before it waits. -/
theorem stopDispatchThread_queue (s : Delivery α) :
    (stopDispatchThread s).1.queue = s.queue ∧ (stopDispatchThread s).2 = false ∨
      (stopDispatchThread s).1.queue = s.queue.gracefulClose := by
  unfold stopDispatchThread
  split
  · exact Or.inl ⟨rfl, rfl⟩
  · split
    · exact Or.inl ⟨rfl, rfl⟩
    · exact Or.inr rfl

/-- It leaves a thread behind that has not ended only after `graceful_close!`. -/
theorem alone_stopDispatchThread {s : Delivery α} (hwf : s.queue.WellFormed) (hs : Alone s) :
    Alone (stopDispatchThread s).1 := by
  unfold stopDispatchThread
  split
  · exact hs
  · next d hd =>
    split
    · next hended =>
      intro hg d' _
      by_cases heq : d' = d
      · right
        rw [heq]
        cases hpc : s.threads d <;> simp [hpc, ThreadPc.ended] at hended ⊢
      · exact hs hg d' (by simpa [hd] using Ne.symm heq)
    · intro hg
      exact absurd (hwf.graceful_gracefulClose.symm.trans hg) (by simp)

theorem alone_setupDispatchThread {s : Delivery α} (hs : Alone s) :
    Alone s.setupDispatchThread := by
  unfold Delivery.setupDispatchThread
  cases hd : s.dispatcher with
  | some d => exact hs
  | none =>
    intro hg d hne
    have hother : d ≠ s.nextThread := fun heq => hne (congrArg some heq.symm)
    have hgone : s.Gone d := hs hg d (by simp [hd])
    simpa only [Delivery.Gone, Delivery.spawn, Delivery.threads_threadTo_of_ne _ hother] using hgone

theorem queue_setupDispatchThread (s : Delivery α) : s.setupDispatchThread.queue = s.queue := by
  unfold Delivery.setupDispatchThread
  split <;> rfl

/-- What `close` does to the queue and to the number of waiting threads, and to the flag of the
Java backend. -/
theorem close_effect (b : Backend) (s : Session α) :
    ((s.close b).delivery.queue = s.delivery.queue ∧ (s.close b).waiting = s.waiting ∨
        (s.close b).delivery.queue = s.delivery.queue.gracefulClose) ∧
      (b = .java → (s.close b).closed = true) := by
  cases hstop : stopDispatchThread s.delivery with
  | mk delivery waits =>
    have hqueue := stopDispatchThread_queue s.delivery
    rw [hstop] at hqueue
    cases b with
    | c => cases waits <;> simpa [close, hstop] using hqueue
    | java =>
      cases hclosed : s.closed with
      | true => simp [close, hclosed]
      | false => cases waits <;> simpa [close, hstop, hclosed] using hqueue

theorem alone_close (hwf : s.delivery.queue.WellFormed) (hs : Alone s.delivery) :
    Alone (s.close b).delivery := by
  have hstop := alone_stopDispatchThread hwf hs
  cases b with
  | c =>
    simp only [close]
    split <;> next heq => rwa [heq] at hstop
  | java =>
    simp only [close]
    split
    · exact hs
    · split <;> next heq => rwa [heq] at hstop

theorem sound_of_init (h : (session α b).Init s) : s.Sound b := by
  have hnew : s.delivery.queue = .new ∧ s.waiting = 0 := by
    cases b with
    | c =>
      obtain rfl : s = _ := h
      exact ⟨rfl, rfl⟩
    | java => rcases h with rfl | rfl <;> exact ⟨rfl, rfl⟩
  have halone : Alone (Delivery.initial : Delivery α) := by
    intro _ d hd
    exact Or.inl (if_neg fun heq => hd (congrArg some heq.symm))
  refine ⟨?_, fun hw => ?_, fun _ _ => ?_, ?_⟩
  · rw [hnew.1]
    exact QueueWithPipe.wellFormed_new
  · simp [hnew.2] at hw
  · rw [hnew.1]
    rfl
  · cases b with
    | c =>
      obtain rfl : s = _ := h
      exact halone
    | java =>
      obtain rfl | rfl := h
      · exact halone
      · exact fun _ _ _ => Or.inl rfl

theorem sound_next {a : SessionAct α} (h : s.Sound b) (hen : s.Enabled a) :
    (s.next b a).Sound b := by
  cases a with
  | push a => exact ⟨h.wellFormed.push a, h.graceful, h.not_graceful, h.alone⟩
  | thread d act =>
    have hsame : (s.next b (.thread d act)).delivery.queue.graceful = s.delivery.queue.graceful :=
      Delivery.graceful_next hen
    refine ⟨Delivery.wellFormed_next h.wellFormed hen, fun hw => hsame.trans (h.graceful hw),
      fun hb hc => hsame.trans (h.not_graceful hb hc), fun hg d' hd' => ?_⟩
    rw [next, (Delivery.frame_next hen).1] at hd'
    exact Delivery.gone_next hen (h.alone (hsame ▸ hg) d' hd')
  | close =>
    obtain ⟨hq, hjava⟩ := close_effect b s
    have hclosed (hb : b = .java) (hc : (s.close b).closed = false) : False := by
      simp [hjava hb] at hc
    obtain ⟨hsame, hwaiting⟩ | hstop := hq
    · refine ⟨?_, fun hw => ?_, fun hb hc => (hclosed hb hc).elim,
        alone_close h.wellFormed h.alone⟩
      · simpa only [next, hsame] using h.wellFormed
      · simpa only [next, hsame] using h.graceful (by simpa only [next, hwaiting] using hw)
    · -- the queue has got its kill token, for which `close` waits
      refine ⟨?_, fun _ => ?_, fun hb hc => (hclosed hb hc).elim,
        alone_close h.wellFormed h.alone⟩
      · simpa only [next, hstop] using h.wellFormed.gracefulClose
      · simpa only [next, hstop] using h.wellFormed.graceful_gracefulClose
  | closeResumes =>
    simp only [next, closeResumes]
    cases hd : s.delivery.dispatcher with
    | none => exact ⟨h.wellFormed, fun _ => h.graceful hen, h.not_graceful, h.alone⟩
    | some d =>
      refine ⟨h.wellFormed, fun _ => h.graceful hen, fun hb hc => h.not_graceful hb ?_,
        fun hg => ?_⟩
      · subst hb
        exact hc
      · -- `close` has called `graceful_close!` before it waited
        exact absurd ((h.graceful hen).symm.trans hg) (by simp)
  | reopen =>
    cases b with
    | c =>
      have hqueue : (s.reopen .c).delivery.queue = s.delivery.queue :=
        queue_setupDispatchThread s.delivery
      refine ⟨?_, fun hw => ?_, fun hb => (by cases hb), alone_setupDispatchThread h.alone⟩
      · simpa only [next, hqueue] using h.wellFormed
      · simpa only [next, hqueue] using h.graceful hw
    | java => exact h

theorem sound_of_reachable (h : (session α b).Reachable System.anyStep s) : s.Sound b :=
  h.invariant (fun _ => sound_of_init) fun _ _ hs hen _ => sound_next hs hen

/-- While a shutdown thread waits, `reopen` cannot restore delivery, whether the thread goes on
before it, in the middle of it or after it. -/
theorem not_restorable_of_waiting (h : (session α b).Reachable System.anyStep s)
    (hw : 0 < s.waiting) : ¬s.Restorable b := by
  have hsound := sound_of_reachable h
  have hg := hsound.graceful hw
  cases b with
  | c =>
    rintro ⟨hnot, -⟩
    simp [hg] at hnot
  | java =>
    rintro ⟨hopen, -⟩
    simp [hsound.not_graceful rfl hopen] at hg

/-! ## Delivery after `reopen` -/

/-- `@dispatcher` is thread `d`, which serves the queue, and `graceful_close!` has not been
called. -/
structure Serves (b : Backend) (d : ℕ) (s : Session α) : Prop where
  sound : s.Sound b
  not_graceful : s.delivery.queue.graceful = false
  dispatcher : s.delivery.dispatcher = some d
  serving : s.delivery.Serving d

theorem Serves.eq_of_thread (h : s.Serves b d) {d' : ℕ} {act : ThreadAct}
    (hen : s.Enabled (.thread d' act)) : d' = d := by
  by_contra hne
  have hother : s.delivery.dispatcher ≠ some d' := by
    rw [h.dispatcher]
    exact fun heq => hne (Option.some.inj heq).symm
  exact Delivery.not_enabled_of_gone (h.sound.alone h.not_graceful d' hother) hen

theorem Serves.not_waiting (h : s.Serves b d) : ¬0 < s.waiting := fun hw =>
  absurd ((h.sound.graceful hw).symm.trans h.not_graceful) (by simp)

/-- `reopen` finds a dispatch thread. -/
theorem Serves.delivery_reopen (h : s.Serves b d) : (s.reopen b).delivery = s.delivery := by
  cases b with
  | c => simp only [reopen, Delivery.setupDispatchThread, h.dispatcher]
  | java => rfl

theorem serves_next {a : SessionAct α} (hen : s.Enabled a) (hok : s.UntilClose a)
    (h : s.Serves b d) : (s.next b a).Serves b d := by
  have hsound := sound_next h.sound hen
  cases a with
  | push a => exact ⟨hsound, h.not_graceful, h.dispatcher, h.serving.push a⟩
  | thread d' act =>
    obtain rfl := h.eq_of_thread hen
    refine ⟨hsound, (Delivery.graceful_next hen).trans h.not_graceful,
      (Delivery.frame_next hen).1.trans h.dispatcher, h.serving.next hen ?_⟩
    rintro rfl
    exact hok
  | close => exact hok.elim
  | closeResumes => exact absurd hen h.not_waiting
  | reopen =>
    have hsame := h.delivery_reopen
    refine ⟨hsound, ?_, ?_, ?_⟩ <;> simp only [next, hsame]
    · exact h.not_graceful
    · exact h.dispatcher
    · exact h.serving

/-- What is pushed goes to the end, and everything else stays in its place. -/
theorem dispatched_pending_next {a : SessionAct α} (hen : s.Enabled a) (hok : s.UntilClose a)
    (h : s.Serves b d) : (s.next b a).delivery.dispatched ++ (s.next b a).delivery.pending d =
      s.delivery.dispatched ++ s.delivery.pending d ++ pushedBy a := by
  cases a with
  | push a => simp [next, pushedBy, Delivery.pending, Delivery.hand, Delivery.push]
  | thread d' act =>
    obtain rfl := h.eq_of_thread hen
    exact (Delivery.dispatched_pending_next hen).trans (List.append_nil _).symm
  | close => exact hok.elim
  | closeResumes => exact absurd hen h.not_waiting
  | reopen =>
    simp only [next, h.delivery_reopen, pushedBy, List.append_nil]

/-- There are events to dispatch. -/
structure ToDispatch (b : Backend) (d count : ℕ) (s : Session α) : Prop where
  serves : s.Serves b d
  count_le : count ≤ (s.delivery.dispatched ++ s.delivery.pending d).length

variable {count : ℕ}

theorem exists_due (hs : s.ToDispatch b d count) (hnot : ¬count ≤ s.delivery.dispatched.length) :
    ∃ a, s.Enabled a ∧ s.DispatchThreadDue d a := by
  have hpending : s.delivery.pending d ≠ [] := by
    intro hnone
    have hall := hs.count_le
    rw [hnone, List.append_nil] at hall
    exact hnot hall
  obtain ⟨act, hen, hact⟩ := Delivery.exists_enabled_of_serving hs.serves.serving hpending
  exact ⟨.thread d act, hen, hpending, act, rfl, hact⟩

theorem toDispatch_next {a : SessionAct α} (hen : s.Enabled a) (hok : s.UntilClose a)
    (hs : s.ToDispatch b d count) : (s.next b a).ToDispatch b d count := by
  refine ⟨serves_next hen hok hs.serves, ?_⟩
  rw [dispatched_pending_next hen hok hs.serves, List.length_append]
  exact Nat.le_add_right_of_le hs.count_le

/-- A push leaves the dispatch thread where it is, and a step of the thread brings it closer to its
next call. -/
theorem dispatchesLeft_next {a : SessionAct α} (hen : s.Enabled a) (hok : s.UntilClose a)
    (hs : s.Serves b d) (hnot : ¬count ≤ s.delivery.dispatched.length) :
    (s.next b a).delivery.dispatchesLeft d count ≤ s.delivery.dispatchesLeft d count ∧
      (s.DispatchThreadDue d a →
        (s.next b a).delivery.dispatchesLeft d count < s.delivery.dispatchesLeft d count) := by
  have hother (hne : ∀ act, a ≠ .thread d act) : ¬s.DispatchThreadDue d a := by
    rintro ⟨-, act, heq, -⟩
    exact hne act heq
  cases a with
  | push a => exact ⟨Nat.le_refl _, fun hdue => absurd hdue (hother (by simp))⟩
  | thread d' act =>
    obtain rfl := hs.eq_of_thread hen
    have hlower := Delivery.dispatchesLeft_next hs.serving hnot hen (by
      rintro rfl
      exact hok)
    exact ⟨hlower.le, fun _ => hlower⟩
  | close => exact hok.elim
  | closeResumes => exact absurd hen hs.not_waiting
  | reopen =>
    rw [next, hs.delivery_reopen]
    exact ⟨Nat.le_refl _, fun hdue => absurd hdue (hother (by simp))⟩

/-- **A thread that serves the queue dispatches** what is pushed until the next `close`. -/
theorem dispatchesUntilClose_of_serves (hs : s.Serves b d) : s.DispatchesUntilClose b d := by
  intro r n
  have hserves : ∀ s', ((session α b).startingAt s).Reachable UntilClose s' → s'.Serves b d :=
    fun s' hr => hr.invariant (I := Serves b d) (fun t (heq : t = s) => heq ▸ hs)
      fun _ _ h hen hok => serves_next hen hok h
  have hall (m : ℕ) : (r.state m).delivery.dispatched ++ (r.state m).delivery.pending d =
      s.delivery.dispatched ++ s.delivery.pending d ++ r.history pushedBy m := by
    have heq := r.eq_history pushedBy
      (fun s' => s'.delivery.dispatched ++ s'.delivery.pending d)
      (fun s' a hr hen hok => dispatched_pending_next hen hok (hserves s' hr)) m
    have hinit : r.state 0 = s := r.init
    rwa [hinit] at heq
  refine ⟨hall n, fun hfair => ?_⟩
  have hbefore (m : ℕ) (hm : n ≤ m) :
      s.delivery.dispatched ++ s.delivery.pending d ++ r.history pushedBy n <+:
        (r.state m).delivery.dispatched ++ (r.state m).delivery.pending d := by
    rw [hall m]
    exact List.prefix_append_right_inj _ |>.mpr (r.history_prefix pushedBy hm)
  obtain ⟨m, hm, hdispatched⟩ := r.eventually_of_rank hfair (r.from_ok n)
    (ToDispatch b d
      (s.delivery.dispatched ++ s.delivery.pending d ++ r.history pushedBy n).length)
    (fun s' => (s.delivery.dispatched ++ s.delivery.pending d ++ r.history pushedBy n).length ≤
      s'.delivery.dispatched.length)
    (fun s' => s'.delivery.dispatchesLeft d
      (s.delivery.dispatched ++ s.delivery.pending d ++ r.history pushedBy n).length)
    (fun s' _ hI hnot => exists_due hI hnot)
    (fun s' a _ hI hnot hen hok => Or.inr ⟨toDispatch_next hen hok hI,
      dispatchesLeft_next hen hok hI.serves hnot⟩)
    ⟨hserves _ (r.reachable n), (congrArg List.length (hall n)).ge⟩
  exact ⟨m, hm, List.prefix_of_prefix_length_le (hbefore m hm) (List.prefix_append _ _)
    hdispatched⟩

/-- An open client whose `@dispatcher` serves the queue has its delivery restored. -/
theorem restored_of_serves (hopen : s.closed = false) (hs : s.Serves b d) : s.Restored b :=
  ⟨hopen, hs.serving.queue_open, hs.serving.no_killToken, d, hs.dispatcher, hs.serving.looping,
    dispatchesUntilClose_of_serves hs⟩

/-- A queue that `graceful_close!` has not touched tells no thread to leave. -/
theorem serving_of_not_graceful {delivery : Delivery α} {d : ℕ} (hwf : delivery.queue.WellFormed)
    (hg : delivery.queue.graceful = false) (hloop : delivery.Looping d) : delivery.Serving d := by
  refine ⟨hloop, ?_, fun hk => ?_⟩
  · by_contra hc
    simpa [hg] using hwf.graceful_of_closed (by simpa using hc)
  · simpa [hg] using hwf.graceful_of_killToken hk

/-- A client whose delivery is restored has a queue that `graceful_close!` has not touched. -/
theorem not_graceful_of_restored (h : s.Restored b) (hwf : s.delivery.queue.WellFormed) :
    s.delivery.queue.graceful = false := by
  by_contra hg
  obtain hk | hc := hwf.pending (by simpa using hg)
  · exact h.no_killToken hk
  · simp [h.queue_open] at hc

/-- After `setup_dispatch_thread!` a thread in its loop is `@dispatcher`, unless there was one
that has left its loop. -/
theorem looping_setupDispatchThread {s : Delivery α}
    (h : ∀ d, s.dispatcher = some d → s.Looping d) :
    ∃ d, s.setupDispatchThread.dispatcher = some d ∧ s.setupDispatchThread.Looping d := by
  unfold Delivery.setupDispatchThread
  cases hd : s.dispatcher with
  | some d => exact ⟨d, hd, h d hd⟩
  | none =>
    exact ⟨s.nextThread, rfl, by simp [Delivery.Looping, Delivery.spawn, Delivery.threadTo]⟩

/-- **What `reopen` restores.** In either backend, and in every state that any sequence of
`close` and `reopen` calls can lead to, `reopen` leaves the client open, with a queue that
tells no thread to leave and a dispatch thread that dispatches whatever is pushed until the next
`close`, exactly if the state is `Restorable`. -/
theorem restored_iff (h : (session α b).Reachable System.anyStep s) :
    (s.next b .reopen).Restored b ↔ s.Restorable b := by
  have hsound := sound_of_reachable h
  have hsound' : (s.next b .reopen).Sound b := sound_next hsound trivial
  cases b with
  | c =>
    have hq : (s.reopen .c).delivery.queue = s.delivery.queue :=
      queue_setupDispatchThread s.delivery
    constructor
    · -- a thread that serves the queue has to be in its loop, and the queue not at its end
      intro hr
      refine ⟨?_, fun d hd => ?_⟩
      · have hg := not_graceful_of_restored hr (by
          simpa only [next, hq] using hsound.wellFormed)
        simpa only [next, hq] using hg
      · obtain ⟨d', hd', hloop, -⟩ := hr.dispatches
        have hsame : s.delivery.setupDispatchThread = s.delivery := by
          simp only [Delivery.setupDispatchThread, hd]
        simp only [next, reopen, hsame] at hd' hloop
        obtain rfl : d' = d := by simpa [hd] using hd'.symm
        exact hloop
    · rintro ⟨hg, hloop⟩
      obtain ⟨d, hd, hl⟩ := looping_setupDispatchThread hloop
      exact restored_of_serves rfl ⟨hsound', hq ▸ hg, hd,
        serving_of_not_graceful (hq ▸ hsound.wellFormed) (hq ▸ hg) hl⟩
  | java =>
    constructor
    · intro hr
      obtain ⟨d, hd, hloop, -⟩ := hr.dispatches
      exact ⟨hr.not_closed, d, hd, hloop⟩
    · rintro ⟨hopen, d, hd, hloop⟩
      have hg := hsound.not_graceful rfl hopen
      exact restored_of_serves hopen ⟨hsound', hg, hd,
        serving_of_not_graceful hsound.wellFormed hg hloop⟩

/-- A callback has raised `ShutdownException`, which ended the dispatch thread without
closing the queue; after `close` the next `reopen` starts a new one. -/
theorem restored_iff_after_shutdownException :
    let s := (session ℕ .c).exec ⟨.initial, false, 0⟩
      [.push 7, .thread 0 .check, .thread 0 .pop, .thread 0 .pass, .thread 0 .lookup,
        .thread 0 .raisesShutdown, .thread 0 .signal, .close]
    (s.next .c .reopen).Restored .c ↔ s.Restorable .c :=
  restored_iff (System.Valid.reachable_exec rfl (by
    simp [System.Valid, System.anyStep, session, Enabled, next, Delivery.Enabled,
      Delivery.next, Delivery.push, QueueWithPipe.push, QueueWithPipe.take, Delivery.initial,
      Delivery.threadTo, QueueWithPipe.new]))

/-- `close` with a live dispatch thread, and the shutdown that follows. -/
def closeAndWait : List (SessionAct ℕ) :=
  [.close, .thread 0 .check, .thread 0 .pop, .thread 0 .signal, .closeResumes]

/-- The state after an ordinary `close` is reached in either backend. -/
theorem reachable_closeAndWait (b : Backend) :
    (session ℕ b).Reachable System.anyStep ((session ℕ b).exec ⟨.initial, false, 0⟩
      closeAndWait) := by
  refine System.Valid.reachable_exec ?_ ?_
  · cases b with
    | c => rfl
    | java => exact Or.inl rfl
  · cases b <;> simp [System.Valid, System.anyStep, closeAndWait, session, Enabled, next, close,
      stopDispatchThread, ThreadPc.ended, Delivery.Enabled, Delivery.next,
      QueueWithPipe.gracefulClose, QueueWithPipe.take, QueueWithPipe.close, Delivery.initial,
      Delivery.threadTo, QueueWithPipe.new]

/-- **`reopen` after `close` does not restore delivery**, in either backend: the kill token
has closed the queue for good, so a thread that pops from it ends at once. -/
theorem not_restored_after_close :
    (¬∀ s, (session ℕ .c).Reachable System.anyStep s → (s.next .c .reopen).Restored .c) ∧
      ¬∀ s, (session ℕ .java).Reachable System.anyStep s →
        (s.next .java .reopen).Restored .java := by
  constructor
  · intro hall
    have hopen := (hall _ (reachable_closeAndWait .c)).queue_open
    revert hopen
    decide
  · intro hall
    have hopen := (hall _ (reachable_closeAndWait .java)).queue_open
    revert hopen
    decide

end Session

end ZookeeperClient
