import ZookeeperClient.Lifecycle.Close

/-!
# The client for EventMachine

`ZookeeperEM::Client` of `lib/zookeeper/em_client.rb`. Its dispatch thread calls nothing itself:
it schedules a block for every event, and the reactor thread runs the blocks one after the
other. A block tests `running?` and `closed?`, takes the handler out of its table and calls it,
in steps between which other threads go on. `close` is that of the C backend with
`event_dispatch_thread?` replaced by `EM.reactor_thread?`, and it lets `on_close` succeed when
that has returned: a call on any other thread joins its shutdown thread first, a call on the
reactor thread does not.

The threads below are those of the lifecycle of a client. The calls of `close` are its shutdown
threads, and each one has a caller here.

## Main definitions

- `CloserPc`, `ReactorPc` — where a caller of `close` and the reactor thread are
- `EMClient`, `EMClientAct`, `emClient` — the state, the steps and the system
- `EMClient.Quiesces` — `on_close` succeeds after the close and no callback starts after it
- `EMClient.Orderly` — a condition on the steps

## Main results

- `quiesces_of_orderly` — runs whose steps meet the condition
- `not_quiesces_reactor_close` — a call of `close` on the reactor thread
- `not_quiesces_passed_block` — a block that has passed its test when `on_close` succeeds
-/

namespace ZookeeperClient

open Transition

/-- Where the caller of `ZookeeperEM::Client#close` is. -/
inductive CloserPc where
  /-- The call is none of `close`, or has not been made. -/
  | idle
  /-- In `shutdown_thread.join`. -/
  | joining
  /-- `super()` has returned. -/
  | succeeding
  | returned
  /-- The shutdown thread has raised, and so has `join`. -/
  | raised
  deriving DecidableEq, Repr

/-- Where the reactor thread is. -/
inductive ReactorPc (α : Type) where
  | idle
  /-- In the block for an event, before `running?`. -/
  | asking (a : α)
  /-- Between `running?` and `closed?`. -/
  | running (a : α)
  /-- In `dispatch_next_callback` of the base class, before the lookup. -/
  | passed (a : α)
  /-- The handler has been found and is about to be called. -/
  | found (a : α)
  | calling (a : α)
  deriving DecidableEq, Repr

/-- The block has passed its test, and its callback has not been started. -/
def ReactorPc.committed {α : Type} : ReactorPc α → Bool
  | .passed _ | .found _ => true
  | _ => false

/-- Code of the user may run on the reactor thread. -/
def ReactorPc.atUser {α : Type} : ReactorPc α → Bool
  | .idle | .calling _ => true
  | _ => false

/-- The state of a `ZookeeperEM::Client`. -/
structure EMClient (ε : Type) where
  base : Lifecycle ε
  /-- The callers of `close`, by the numbers of their shutdown threads. -/
  closers : ℕ → CloserPc
  /-- The blocks passed to `EM.schedule` that have not been run, by their events. -/
  scheduled : List (ℕ × ε)
  reactor : ReactorPc (ℕ × ε)
  /-- The call of `close` that the reactor thread is in. -/
  reactorCall : Option ℕ
  /-- `on_close` has succeeded. -/
  succeeded : Bool
  /-- History: the events whose callbacks have been started. -/
  started : List (ℕ × ε)
  /-- History: those of them whose callbacks have been started after `on_close` succeeded. -/
  late : List (ℕ × ε)

/-- The steps of a `ZookeeperEM::Client`. -/
inductive EMClientAct (ε : Type) where
  /-- A step that the base class takes as well. -/
  | inherited (a : LifecycleAct ε)
  /-- Dispatch thread `d` calls `dispatch_next_callback`, which calls `EM.schedule`. -/
  | schedule (d : ℕ)
  /-- `close` is called. -/
  | close (onReactor : Bool)
  /-- `shutdown_thread.join` returns or raises, for call `c`. -/
  | join (c : ℕ)
  /-- `on_close.succeed`, for call `c`. -/
  | succeed (c : ℕ)
  /-- The reactor thread goes on to the next block. -/
  | runBlock
  /-- `running?` returns. It is true, since `CZookeeper.new` waits for the end of `zkrb_init`
  and nothing sets `@_running` back. -/
  | askRunning
  | askClosed
  /-- `get_completion` or `get_watcher` returns; the flag says whether there is a handler. -/
  | lookup (found : Bool)
  | startCallback
  | callbackEnds
  deriving Repr

namespace EMClient

variable {ε : Type}

/-- A client whose constructor has returned. -/
def initial : EMClient ε where
  base := .initial
  closers := fun _ => .idle
  scheduled := []
  reactor := .idle
  reactorCall := none
  succeeded := false
  started := []
  late := []

/-- Call `c` is one of `close`. -/
def IsClose (s : EMClient ε) (c : ℕ) : Prop :=
  s.closers c ≠ .idle

/-- The steps of the base class that this class has. Its `close` and its
`dispatch_next_callback` are others. -/
def Inherits : LifecycleAct ε → Prop
  | .call .close => False
  | .thread _ act => act = .check ∨ act = .pop ∨ act = .signal
  | _ => True

/-- Dispatch thread `d` has scheduled the block for an event and goes on with its loop. -/
def handOver (d : ℕ) (a : ℕ × ε) (s : Lifecycle ε) : Lifecycle ε :=
  { s with
    delivery :=
      { s.delivery.threadTo d .checking with dispatched := s.delivery.dispatched ++ [a] } }

/-- When a step may be taken. `running?`, `closed?` and the lookup take `@mutex`. -/
def Enabled (s : EMClient ε) : EMClientAct ε → Prop
  | .inherited a => Inherits a ∧ s.base.Enabled a
  | .schedule d => ∃ a, s.base.delivery.threads d = .handling a
  | .close onReactor => onReactor = true → s.reactor.atUser = true ∧ s.reactorCall = none
  | .join c => s.closers c = .joining ∧
      (s.base.calls c = .finished ∨ s.base.calls c = .raised)
  | .succeed c => s.closers c = .succeeding
  | .runBlock => s.reactor = .idle ∧ s.reactorCall = none ∧ s.scheduled ≠ []
  | .askRunning => (∃ a, s.reactor = .asking a) ∧ s.base.owner = none
  | .askClosed => (∃ a, s.reactor = .running a) ∧ s.base.owner = none
  | .lookup _ => (∃ a, s.reactor = .passed a) ∧ s.base.owner = none
  | .startCallback => ∃ a, s.reactor = .found a
  | .callbackEnds => (∃ a, s.reactor = .calling a) ∧ s.reactorCall = none

def next (s : EMClient ε) : EMClientAct ε → EMClient ε
  | .inherited a => { s with base := s.base.next a }
  | .schedule d =>
    match s.base.delivery.threads d with
    | .handling a => { s with base := handOver d a s.base, scheduled := s.scheduled ++ [a] }
    | _ => s
  | .close onReactor =>
    { s with
      base := s.base.next (.call .close)
      closers := Function.update s.closers s.base.nextCall
        (if onReactor then .succeeding else .joining)
      reactorCall := if onReactor then some s.base.nextCall else s.reactorCall }
  | .join c =>
    { s with
      closers := Function.update s.closers c
        (if s.base.calls c = .finished then .succeeding else .raised) }
  | .succeed c =>
    { s with
      closers := Function.update s.closers c .returned
      reactorCall := if s.reactorCall = some c then none else s.reactorCall
      succeeded := true }
  | .runBlock =>
    match s.scheduled with
    | a :: rest => { s with reactor := .asking a, scheduled := rest }
    | [] => s
  | .askRunning =>
    match s.reactor with
    | .asking a => { s with reactor := .running a }
    | _ => s
  | .askClosed =>
    match s.reactor with
    | .running a =>
      { s with
        reactor := if (s.base.transports s.base.czk).closed then .idle else .passed a }
    | _ => s
  | .lookup found =>
    match s.reactor with
    | .passed a => { s with reactor := if found then .found a else .idle }
    | _ => s
  | .startCallback =>
    match s.reactor with
    | .found a =>
      { s with
        reactor := .calling a
        started := s.started ++ [a]
        late := if s.succeeded then s.late ++ [a] else s.late }
    | _ => s
  | .callbackEnds => { s with reactor := .idle }

/-- The close operation has completed: the shutdown thread of some call of `close` has come to
its end, no dispatch thread is left, and the `CZookeeper` is closed. -/
structure Completed (s : EMClient ε) : Prop where
  finished : ∃ c, s.IsClose c ∧ s.base.calls c = .finished
  stopped (d : ℕ) : s.base.delivery.threads d = .unborn ∨ s.base.delivery.threads d = .exited
  closed : (s.base.transports s.base.czk).closed = true

/-- `on_close` succeeds only after the close operation has completed, and no callback is started
after that. -/
structure Quiesces (s : EMClient ε) : Prop where
  completed : s.succeeded = true → s.Completed
  none_late : s.late = []

/-- `close` is not called on the reactor thread; `reopen` has returned when `close` is called,
and is not called after that; the dispatch thread joins in time; and when `on_close` succeeds,
the reactor thread is not between the test of a block and the start of its callback. -/
def Orderly (s : EMClient ε) : EMClientAct ε → Prop
  | .inherited (.call _) => ∀ c, ¬s.IsClose c
  | .inherited (.control _ .joinTimeout) => False
  | .close onReactor => onReactor = false ∧
      ∀ c, ¬s.IsClose c → s.base.calls c = .idle ∨ s.base.calls c = .finished ∨
        s.base.calls c = .raised
  | .succeed _ => s.reactor.committed = false
  | _ => True

end EMClient

/-- The system of one `ZookeeperEM::Client`. -/
def emClient (ε : Type) : System (EMClient ε) (EMClientAct ε) where
  Init s := s = EMClient.initial
  Enabled := EMClient.Enabled
  next := EMClient.next

/-- Where a shutdown thread can be that closes handle `czk`. -/
def ControlPc.closes (czk : ℕ) : ControlPc → Bool
  | .called .close | .testing | .tested | .waiting | .woken | .leaving .close | .finished
  | .raised => true
  | .closing h .close | .joining h .close | .destroying h .close => h == czk
  | _ => false

/-- Where a call of `reopen` can be as long as there is a dispatch thread. -/
def ControlPc.reopens : ControlPc → Bool
  | .idle | .called .reopen | .replacing | .closing _ .reopen | .joining _ .reopen
  | .destroying _ .reopen | .leaving .reopen | .settingUp | .finished | .raised => true
  | _ => false

/-- The call has not been made or is over. -/
def ControlPc.rests : ControlPc → Bool
  | .idle | .finished | .raised => true
  | _ => false

/-- The call has set `@_closed`, or has found it set. -/
def ControlPc.hasClosed : ControlPc → Bool
  | .destroying _ _ | .leaving _ | .finished => true
  | _ => false

namespace Lifecycle

variable {ε : Type} {s : Lifecycle ε} {isClose : ℕ → Prop}

/-- How far the calls of `close`, which are those that `isClose` names, have come with the
client. Calls of `reopen` are over when the first one of `close` is made. -/
structure Closes (s : Lifecycle ε) (isClose : ℕ → Prop) : Prop where
  closes {c : ℕ} (hc : isClose c) : (s.calls c).closes s.czk = true
  reopens {c : ℕ} (hc : ¬isClose c) : (s.calls c).reopens = true
  apart {c c' : ℕ} (hc : isClose c) (hc' : ¬isClose c') : (s.calls c').rests = true
  unborn (d : ℕ) (hd : d ≠ 0) : s.delivery.threads d = .unborn
  dispatcher : s.delivery.dispatcher = some 0 ∨
    s.delivery.dispatcher = none ∧ s.delivery.threads 0 = .exited ∧ ∃ c, isClose c
  stopped {c : ℕ} (hc : isClose c) (hpc : (s.calls c).stopped = true) :
    s.delivery.dispatcher = none
  closed {c : ℕ} (hc : isClose c) (hpc : (s.calls c).hasClosed = true) :
    (s.transports s.czk).closed = true

/-- A call that is over stays over. -/
theorem finished_next {a : LifecycleAct ε} (hen : s.Enabled a) {c : ℕ} (hne : c ≠ s.nextCall)
    (hc : s.calls c = .finished) : (s.next a).calls c = .finished := by
  have heff := effect_next hen
  generalize s.next a = s' at heff ⊢
  have hmove {c' : ℕ} {pc : ControlPc} (hpc : s.calls c' ≠ .finished) :
      (s.callTo c' pc).calls c = .finished := by
    rw [calls_callTo, if_neg]
    · exact hc
    · rintro rfl
      exact hpc hc
  cases heff with
  | call => exact (calls_callTo s.nextCall c _).trans ((if_neg hne).trans hc)
  | thread | enqueue | eventThread | push => exact hc
  | enterClose hpc | enterReopen hpc | testNil hpc | testEnded hpc | testLive hpc
  | beginWait hpc | resume hpc | joinNil hpc | joined hpc | joinTimeout hpc | replace hpc
  | replaceRaises hpc | foundClosed hpc | shutDown hpc | joinedClosed hpc | closeHandle hpc
  | queueFree hpc | leaveClose hpc | leaveReopen hpc | foundDispatcher hpc | foundNil hpc
  | spawn hpc | assign hpc => exact hmove (by simp [hpc])

namespace Closes

/-- A call that is at no place of `reopen` is one of `close`. -/
theorem isClose_of_pc (hs : s.Closes isClose) {c : ℕ} {pc : ControlPc} (hpc : s.calls c = pc)
    (hno : pc.reopens = false) : isClose c := by
  by_contra hc
  have := hs.reopens hc
  simp [hpc, hno] at this

/-- A call that is at no place of `close`, and not over, is one of `reopen`, and `close` has not
been called. -/
theorem not_isClose_of_pc (hs : s.Closes isClose) {c : ℕ} {pc : ControlPc} (hpc : s.calls c = pc)
    (hno : pc.closes s.czk = false) (hmoves : pc.rests = false) (c' : ℕ) : ¬isClose c' := by
  have hc : ¬isClose c := by
    intro hc
    have := hs.closes hc
    simp [hpc, hno] at this
  intro hc'
  have := hs.apart hc' hc
  simp [hpc, hmoves] at this

/-- The dispatch thread is alive as long as `@dispatcher` is set or `close` has not been
called. -/
theorem dispatcher_of_not_isClose (hs : s.Closes isClose) (hno : ∀ c, ¬isClose c) :
    s.delivery.dispatcher = some 0 := by
  obtain hd | ⟨-, -, c, hc⟩ := hs.dispatcher
  · exact hd
  · exact absurd hc (hno c)

/-- A call of `close` goes on to `pc`, with the handle and the dispatch thread as they are. -/
theorem of_close (hs : s.Closes isClose) {s' : Lifecycle ε} {c : ℕ} {pc : ControlPc}
    (hcalls : s'.calls = Function.update s.calls c pc) (hc : isClose c)
    (hczk : s'.czk = s.czk) (hthreads : s'.delivery.threads = s.delivery.threads)
    (hcloses : pc.closes s.czk = true)
    (hdispatcher : s'.delivery.dispatcher = s.delivery.dispatcher ∨
      s'.delivery.dispatcher = none ∧ s.delivery.threads 0 = .exited)
    (hstopped : pc.stopped = true → s'.delivery.dispatcher = none)
    (hkeeps : (s.transports s.czk).closed = true → (s'.transports s.czk).closed = true)
    (hclosed : pc.hasClosed = true → (s'.transports s.czk).closed = true) :
    s'.Closes isClose := by
  have hcall (c' : ℕ) : s'.calls c' = if c' = c then pc else s.calls c' := by
    rw [hcalls, Function.update_apply]
  have hother {c' : ℕ} (hc' : ¬isClose c') : s'.calls c' = s.calls c' := by
    rw [hcall, if_neg]
    rintro rfl
    exact hc' hc
  refine ⟨fun {c'} hc' => ?_, fun hc' => ?_, fun hc' hc'' => ?_, fun d hd => ?_, ?_,
    fun {c'} hc' hpc => ?_, fun {c'} hc' hpc => ?_⟩
  · rw [hcall, hczk]
    split
    · exact hcloses
    · exact hs.closes hc'
  · rw [hother hc']
    exact hs.reopens hc'
  · rw [hother hc'']
    exact hs.apart hc' hc''
  · rw [hthreads]
    exact hs.unborn d hd
  · rw [hthreads]
    obtain hsame | ⟨hnone, hexited⟩ := hdispatcher
    · rw [hsame]
      exact hs.dispatcher
    · exact Or.inr ⟨hnone, hexited, c, hc⟩
  · rw [hcall] at hpc
    split at hpc
    · exact hstopped hpc
    · have hnone := hs.stopped hc' hpc
      obtain hsame | ⟨hnone', -⟩ := hdispatcher
      · exact hsame.trans hnone
      · exact hnone'
  · rw [hczk]
    rw [hcall] at hpc
    split at hpc
    · exact hclosed hpc
    · exact hkeeps (hs.closed hc' hpc)

/-- A call of `reopen` goes on, and `close` has not been called. -/
theorem of_reopen (hs : s.Closes isClose) {s' : Lifecycle ε} {c : ℕ} {pc : ControlPc}
    (hcalls : s'.calls = Function.update s.calls c pc) (hno : ∀ c', ¬isClose c')
    (hdelivery : s'.delivery = s.delivery) (hreopens : pc.reopens = true) :
    s'.Closes isClose := by
  refine ⟨fun hc => absurd hc (hno _), fun {c'} _ => ?_, fun hc => absurd hc (hno _), ?_, ?_,
    fun hc => absurd hc (hno _), fun hc => absurd hc (hno _)⟩
  · rw [hcalls, Function.update_apply]
    split
    · exact hreopens
    · exact hs.reopens (hno c')
  · rw [hdelivery]
    exact hs.unborn
  · rw [hdelivery]
    exact hs.dispatcher

/-- A call in `CZookeeper#close` goes on with it, whether it is one of `close` or of `reopen`. -/
theorem of_handle (hs : s.Closes isClose) {s' : Lifecycle ε} {c h : ℕ} {op : ControlOp}
    {pc : ControlPc}
    (hpc : s.calls c = .closing h op ∨ s.calls c = .joining h op ∨ s.calls c = .destroying h op)
    (hcalls : s'.calls = Function.update s.calls c pc)
    (hpc' : pc = .joining h op ∨ pc = .destroying h op ∨ pc = .leaving op)
    (hczk : s'.czk = s.czk) (hdelivery : s'.delivery = s.delivery)
    (hkeeps : (s.transports s.czk).closed = true → (s'.transports s.czk).closed = true)
    (hclosed : s.calls c ≠ .destroying h op → pc ≠ .joining h op →
      (s'.transports h).closed = true) : s'.Closes isClose := by
  cases op with
  | close =>
    have hc : isClose c := by
      obtain hpc | hpc | hpc := hpc <;> exact hs.isClose_of_pc hpc rfl
    obtain rfl : h = s.czk := by
      have hcloses := hs.closes hc
      obtain hpc | hpc | hpc := hpc <;> simpa [hpc, ControlPc.closes] using hcloses
    have hstopped : s.delivery.dispatcher = none := by
      refine hs.stopped hc ?_
      obtain hpc | hpc | hpc := hpc <;> rw [hpc] <;> rfl
    refine hs.of_close hcalls hc hczk (by rw [hdelivery]) ?_ (Or.inl (by rw [hdelivery]))
      (fun _ => by rw [hdelivery, hstopped]) hkeeps fun hpast => ?_
    · obtain rfl | rfl | rfl := hpc' <;> simp [ControlPc.closes]
    · by_cases hdestroying : s.calls c = .destroying s.czk .close
      · exact hkeeps (hs.closed hc (by rw [hdestroying]; rfl))
      · refine hclosed hdestroying ?_
        rintro rfl
        simp [ControlPc.hasClosed] at hpast
  | reopen =>
    have hno : ∀ c', ¬isClose c' := by
      obtain hpc | hpc | hpc := hpc <;> exact hs.not_isClose_of_pc hpc rfl rfl
    refine hs.of_reopen hcalls hno hdelivery ?_
    obtain rfl | rfl | rfl := hpc' <;> rfl

/-- No call goes on. -/
theorem of_calls (hs : s.Closes isClose) {s' : Lifecycle ε} (hcalls : s'.calls = s.calls)
    (hczk : s'.czk = s.czk) (hdispatcher : s'.delivery.dispatcher = s.delivery.dispatcher)
    (hunborn : ∀ d, d ≠ 0 → s'.delivery.threads d = .unborn)
    (hexited : s.delivery.threads 0 = .exited → s'.delivery.threads 0 = .exited)
    (hkeeps : (s.transports s.czk).closed = true → (s'.transports s.czk).closed = true) :
    s'.Closes isClose := by
  refine ⟨fun hc => ?_, fun hc => ?_, fun hc hc' => ?_, hunborn, ?_, fun hc hpc => ?_,
    fun hc hpc => ?_⟩
  · rw [hcalls, hczk]
    exact hs.closes hc
  · rw [hcalls]
    exact hs.reopens hc
  · rw [hcalls]
    exact hs.apart hc hc'
  · rw [hdispatcher]
    exact hs.dispatcher.imp_right fun ⟨hnone, hended, hcall⟩ => ⟨hnone, hexited hended, hcall⟩
  · rw [hdispatcher]
    exact hs.stopped hc (hcalls ▸ hpc)
  · rw [hczk]
    exact hkeeps (hs.closed hc (hcalls ▸ hpc))

theorem next {a : LifecycleAct ε} (hen : s.Enabled a)
    (hcall : ∀ op, a ≠ .call op) (htimeout : ∀ c, a ≠ .control c .joinTimeout)
    (hs : s.Closes isClose) : (s.next a).Closes isClose := by
  have heff := effect_next hen
  have hkeeps := closed_next hen (h := s.czk)
  generalize s.next a = s' at heff hkeeps ⊢
  -- the dispatch thread that has been joined is thread 0
  have hjoined {d : ℕ} (hd : s.delivery.dispatcher = some d)
      (hended : (s.delivery.threads d).ended = true) : s.delivery.threads 0 = .exited := by
    obtain hsome | ⟨hnone, -⟩ := hs.dispatcher
    · obtain rfl : 0 = d := Option.some.inj (hsome.symm.trans hd)
      revert hended
      cases s.delivery.threads 0 <;> simp [ThreadPc.ended]
    · simp [hnone] at hd
  have hflag {p : Prop} (h : false = true) : p := absurd h Bool.false_ne_true
  cases heff with
  | call => exact absurd rfl (hcall _)
  | joinTimeout => exact absurd rfl (htimeout _)
  | enterClose hpc =>
    exact hs.of_close rfl (hs.isClose_of_pc hpc rfl) rfl rfl rfl (Or.inl rfl) hflag id hflag
  | testNil hpc hd =>
    exact hs.of_close rfl (hs.isClose_of_pc hpc rfl) rfl rfl (by simp [ControlPc.closes])
      (Or.inl rfl) (fun _ => hd) id hflag
  | testEnded hpc hd hended | joined hpc hd hended =>
    exact hs.of_close rfl (hs.isClose_of_pc hpc rfl) rfl rfl (by simp [ControlPc.closes])
      (Or.inr ⟨rfl, hjoined hd hended⟩) (fun _ => rfl) id hflag
  | testLive hpc | beginWait hpc | resume hpc | joinNil hpc =>
    exact hs.of_close rfl (hs.isClose_of_pc hpc rfl) rfl rfl rfl (Or.inl rfl) hflag id hflag
  | foundClosed hpc hclosed =>
    exact hs.of_handle (Or.inl hpc) rfl (Or.inr (Or.inr rfl)) rfl rfl id fun _ _ => hclosed
  | shutDown hpc =>
    exact hs.of_handle (Or.inl hpc) rfl (Or.inl rfl) rfl rfl hkeeps
      fun _ hne => absurd rfl hne
  | joinedClosed hpc hclosed =>
    exact hs.of_handle (Or.inr (Or.inl hpc)) rfl (Or.inr (Or.inr rfl)) rfl rfl id
      fun _ _ => hclosed
  | closeHandle hpc =>
    refine hs.of_handle (Or.inr (Or.inl hpc)) rfl (Or.inr (Or.inl rfl)) rfl rfl hkeeps
      fun _ _ => ?_
    simp [Lifecycle.step, Transport.next]
  | queueFree hpc =>
    exact hs.of_handle (Or.inr (Or.inr hpc)) rfl (Or.inr (Or.inr rfl)) rfl rfl hkeeps
      fun hne _ => absurd hpc hne
  | leaveClose hpc =>
    have hc := hs.isClose_of_pc hpc rfl
    exact hs.of_close rfl hc rfl rfl rfl (Or.inl rfl)
      (fun _ => hs.stopped hc (by rw [hpc]; rfl)) id
      fun _ => hs.closed hc (by rw [hpc]; rfl)
  | enterReopen hpc | replace hpc | replaceRaises hpc | leaveReopen hpc | foundDispatcher hpc =>
    exact hs.of_reopen rfl (hs.not_isClose_of_pc hpc rfl rfl) rfl rfl
  | foundNil hpc hd =>
    have hsome := hs.dispatcher_of_not_isClose (hs.not_isClose_of_pc hpc rfl rfl)
    simp [hd] at hsome
  | spawn hpc | assign hpc =>
    have hcloses := hs.closes (hs.isClose_of_pc hpc rfl)
    simp [hpc, ControlPc.closes] at hcloses
  | thread hen' =>
    exact hs.of_calls rfl rfl (Delivery.frame_next hen').1
      (fun d' hd' => Delivery.unborn_next hs.unborn hen' hd') (Delivery.exited_next hen') id
  | enqueue | eventThread | push => exact hs.of_calls rfl rfl rfl hs.unborn id hkeeps

/-- A new call of `close`, when every call of `reopen` is over. -/
theorem call_close (hs : s.Closes isClose)
    (hrests : ∀ c, ¬isClose c → (s.calls c).rests = true) :
    (s.next (.call .close)).Closes fun c => c = s.nextCall ∨ isClose c := by
  have hcall (c : ℕ) : (s.next (.call .close)).calls c =
      if c = s.nextCall then .called .close else s.calls c := calls_callTo s.nextCall c _
  refine ⟨fun {c} hc => ?_, fun {c} hc => ?_, fun {_ c'} _ hc' => ?_, hs.unborn, ?_,
    fun {c} hc hpc => ?_, fun {c} hc hpc => ?_⟩
  · rw [hcall]
    split
    · rfl
    · next hne => exact hs.closes (hc.resolve_left hne)
  · obtain ⟨hne, hno⟩ := not_or.1 hc
    rw [hcall, if_neg hne]
    exact hs.reopens hno
  · obtain ⟨hne, hno⟩ := not_or.1 hc'
    rw [hcall, if_neg hne]
    exact hrests c' hno
  · exact hs.dispatcher.imp_right fun ⟨hnone, hended, c, hc⟩ => ⟨hnone, hended, c, Or.inr hc⟩
  · rw [hcall] at hpc
    split at hpc
    · simp [ControlPc.stopped] at hpc
    · next hne => exact hs.stopped (hc.resolve_left hne) hpc
  · rw [hcall] at hpc
    split at hpc
    · simp [ControlPc.hasClosed] at hpc
    · next hne => exact hs.closed (hc.resolve_left hne) hpc

/-- A new call of `reopen`, before any of `close`. -/
theorem call_reopen (hs : s.Closes isClose) (hno : ∀ c, ¬isClose c) :
    (s.next (.call .reopen)).Closes isClose :=
  hs.of_reopen rfl hno rfl rfl

/-- A dispatch thread hands an event over to the reactor thread. -/
theorem handOver (hs : s.Closes isClose) {d : ℕ} {a : ℕ × ε}
    (hpc : s.delivery.threads d = .handling a) : (EMClient.handOver d a s).Closes isClose := by
  obtain rfl : d = 0 := by
    by_contra hd
    simp [hs.unborn d hd] at hpc
  refine hs.of_calls rfl rfl rfl (fun d' hd' => ?_) (fun hended => ?_) id
  · exact (Delivery.threads_threadTo_of_ne _ hd').trans (hs.unborn d' hd')
  · simp [hpc] at hended

end Closes

end Lifecycle

namespace EMClient

variable {ε : Type} {s : EMClient ε}

/-- What holds in every state of a run whose steps are orderly. -/
structure Inv (s : EMClient ε) : Prop where
  /-- Calls that have not been made have no caller. -/
  numbered {c : ℕ} (hc : s.base.nextCall ≤ c) : ¬s.IsClose c
  closes : s.base.Closes s.IsClose
  /-- A caller goes on from `super()` when its shutdown thread has come to its end. -/
  joined {c : ℕ} (hc : s.closers c = .succeeding ∨ s.closers c = .returned) :
    s.base.calls c = .finished
  off_reactor : s.reactorCall = none
  succeeded (hs : s.succeeded = true) : ∃ c, s.closers c = .returned
  not_committed (hs : s.succeeded = true) : s.reactor.committed = false
  none_late : s.late = []

theorem Inv.completed (hs : s.Inv) {c : ℕ} (hc : s.closers c = .returned) : s.Completed := by
  have hclose : s.IsClose c := by simp [IsClose, hc]
  have hfinished := hs.joined (Or.inr hc)
  have hnone := hs.closes.stopped hclose (by rw [hfinished]; rfl)
  refine ⟨⟨c, hclose, hfinished⟩, fun d => ?_, hs.closes.closed hclose (by rw [hfinished]; rfl)⟩
  by_cases hd : d = 0
  · obtain hsome | ⟨-, hended, -⟩ := hs.closes.dispatcher
    · simp [hnone] at hsome
    · exact Or.inr (hd ▸ hended)
  · exact Or.inl (hs.closes.unborn d hd)

theorem Inv.quiesces (hs : s.Inv) : s.Quiesces := by
  refine ⟨fun hsucc => ?_, hs.none_late⟩
  obtain ⟨c, hc⟩ := hs.succeeded hsucc
  exact hs.completed hc

theorem Inv.inherited (hs : s.Inv) {a : LifecycleAct ε} (hinherits : Inherits a)
    (hen : s.base.Enabled a) (hok : s.Orderly (.inherited a)) :
    (s.next (.inherited a)).Inv := by
  have hcalls : s.base.nextCall ≤ (s.base.next a).nextCall := by
    have heff := Lifecycle.effect_next hen
    generalize s.base.next a = base at heff ⊢
    cases heff <;> simp [Lifecycle.callTo, Lifecycle.forgetDispatcher, Lifecycle.step]
  have hcloses : (s.base.next a).Closes s.IsClose := by
    cases a with
    | call op =>
      cases op with
      | close => exact hinherits.elim
      | reopen => exact hs.closes.call_reopen hok
    | control c act =>
      refine hs.closes.next hen (by simp) ?_
      rintro c' ⟨⟩
      exact hok
    | thread | enqueue | eventThread | push => exact hs.closes.next hen (by simp) (by simp)
  refine ⟨fun hc => hs.numbered (hcalls.trans hc), hcloses, fun {c} hc => ?_, hs.off_reactor,
    hs.succeeded, hs.not_committed, hs.none_late⟩
  refine Lifecycle.finished_next hen ?_ (hs.joined hc)
  rintro rfl
  have hidle := hs.numbered (Nat.le_refl s.base.nextCall)
  change s.closers s.base.nextCall = .succeeding ∨ s.closers s.base.nextCall = .returned at hc
  obtain hc | hc := hc <;> simp [IsClose, hc] at hidle

/-- `close` is called on another thread than the reactor's. -/
theorem Inv.close (hs : s.Inv)
    (hrests : ∀ c, ¬s.IsClose c → s.base.calls c = .idle ∨ s.base.calls c = .finished ∨
      s.base.calls c = .raised) :
    (s.next (.close false)).Inv := by
  have hclosers (c : ℕ) : (s.next (.close false)).closers c =
      if c = s.base.nextCall then .joining else s.closers c := Function.update_apply _ _ _ _
  have hisClose : (s.next (.close false)).IsClose =
      fun c => c = s.base.nextCall ∨ s.IsClose c := by
    funext c
    rw [IsClose, hclosers]
    split
    · next heq => simp [heq]
    · next hne => simp [hne, IsClose]
  refine ⟨fun {c} hc => ?_, ?_, fun {c} hc => ?_, hs.off_reactor, fun hsucc => ?_,
    hs.not_committed, hs.none_late⟩
  · have hlt : s.base.nextCall + 1 ≤ c := hc
    rw [hisClose, not_or]
    exact ⟨by omega, hs.numbered (by omega)⟩
  · rw [hisClose]
    refine hs.closes.call_close fun c hc => ?_
    obtain hpc | hpc | hpc := hrests c hc <;> rw [hpc] <;> rfl
  · rw [hclosers] at hc
    split at hc
    · simp at hc
    · next hne =>
      have hcall := Lifecycle.calls_callTo (s := s.base) s.base.nextCall c (.called .close)
      exact hcall.trans ((if_neg hne).trans (hs.joined hc))
  · obtain ⟨c, hc⟩ := hs.succeeded hsucc
    refine ⟨c, ?_⟩
    rw [hclosers, if_neg]
    · exact hc
    · rintro rfl
      exact hs.numbered (Nat.le_refl _) (by simp [IsClose, hc])

theorem Inv.of_closer (hs : s.Inv) {s' : EMClient ε} {c : ℕ} {pc : CloserPc}
    (hclosers : s'.closers = Function.update s.closers c pc) (hc : s.IsClose c)
    (hpc : pc ≠ .idle) (hbase : s'.base = s.base) (hcall : s'.reactorCall = none)
    (hfinished : pc = .succeeding ∨ pc = .returned → s.base.calls c = .finished)
    (hsucceeded : s'.succeeded = true → ∃ c', s'.closers c' = .returned)
    (hcommitted : s'.succeeded = true → s'.reactor.committed = false)
    (hlate : s'.late = []) : s'.Inv := by
  have hisClose : s'.IsClose = s.IsClose := by
    funext c'
    rw [IsClose, IsClose, hclosers, Function.update_apply]
    split
    · next heq => exact propext ⟨fun _ => heq ▸ hc, fun _ => hpc⟩
    · rfl
  refine ⟨?_, ?_, fun {c'} hc' => ?_, hcall, hsucceeded, hcommitted, hlate⟩
  · rw [hisClose, hbase]
    exact hs.numbered
  · rw [hisClose, hbase]
    exact hs.closes
  · rw [hbase]
    rw [hclosers, Function.update_apply] at hc'
    split at hc'
    · next heq => exact heq ▸ hfinished hc'
    · exact hs.joined hc'

/-- The reactor thread goes on, or a block is added. -/
theorem Inv.of_reactor (hs : s.Inv) {s' : EMClient ε} (hclosers : s'.closers = s.closers)
    (hbase : s'.base = s.base) (hcall : s'.reactorCall = s.reactorCall)
    (hsucceeded : s'.succeeded = s.succeeded)
    (hcommitted : s.succeeded = true → s'.reactor.committed = false)
    (hlate : s'.late = []) : s'.Inv := by
  have hisClose : s'.IsClose = s.IsClose := by
    funext c
    rw [IsClose, hclosers, IsClose]
  refine ⟨?_, ?_, ?_, hcall.trans hs.off_reactor, ?_, ?_, hlate⟩
  · rw [hisClose, hbase]
    exact hs.numbered
  · rw [hisClose, hbase]
    exact hs.closes
  · rw [hclosers, hbase]
    exact hs.joined
  · rw [hclosers, hsucceeded]
    exact hs.succeeded
  · rw [hsucceeded]
    exact hcommitted

theorem inv_next {a : EMClientAct ε} (hen : s.Enabled a) (hok : s.Orderly a) (hs : s.Inv) :
    (s.next a).Inv := by
  cases a with
  | inherited a => exact hs.inherited hen.1 hen.2 hok
  | schedule d =>
    obtain ⟨a, hpc⟩ := hen
    simp only [next, hpc]
    exact ⟨hs.numbered, hs.closes.handOver hpc, hs.joined, hs.off_reactor, hs.succeeded,
      hs.not_committed, hs.none_late⟩
  | close onReactor =>
    obtain ⟨rfl, hrests⟩ := hok
    exact hs.close hrests
  | join c =>
    obtain ⟨hjoining, -⟩ := hen
    refine hs.of_closer rfl (by simp [IsClose, hjoining]) ?_ rfl hs.off_reactor ?_ ?_
      hs.not_committed hs.none_late
    · split <;> simp
    · split
      · next hfinished => exact fun _ => hfinished
      · simp
    · intro hsucc
      obtain ⟨c', hc'⟩ := hs.succeeded hsucc
      refine ⟨c', (Function.update_of_ne ?_ _ _).trans hc'⟩
      rintro rfl
      simp [hjoining] at hc'
  | succeed c =>
    have hpc : s.closers c = .succeeding := hen
    refine hs.of_closer rfl (by simp [IsClose, hpc]) (by simp) rfl ?_
      (fun _ => hs.joined (Or.inl hpc)) (fun _ => ⟨c, Function.update_self _ _ _⟩)
      (fun _ => hok) hs.none_late
    simp [next, hs.off_reactor]
  | runBlock =>
    obtain ⟨-, -, hne⟩ := hen
    cases hq : s.scheduled with
    | nil => exact absurd hq hne
    | cons a rest =>
      simp only [next, hq]
      exact hs.of_reactor rfl rfl rfl rfl (fun _ => rfl) hs.none_late
  | askRunning =>
    obtain ⟨⟨a, hpc⟩, -⟩ := hen
    simp only [next, hpc]
    exact hs.of_reactor rfl rfl rfl rfl (fun _ => rfl) hs.none_late
  | askClosed =>
    obtain ⟨⟨a, hpc⟩, -⟩ := hen
    simp only [next, hpc]
    refine hs.of_reactor rfl rfl rfl rfl (fun hsucc => ?_) hs.none_late
    -- a client whose `on_close` has succeeded is closed
    have hclosed := (hs.quiesces.completed hsucc).closed
    simp [hclosed, ReactorPc.committed]
  | lookup found =>
    obtain ⟨⟨a, hpc⟩, -⟩ := hen
    simp only [next, hpc]
    refine hs.of_reactor rfl rfl rfl rfl (fun hsucc => ?_) hs.none_late
    have := hs.not_committed hsucc
    simp [hpc, ReactorPc.committed] at this
  | startCallback =>
    obtain ⟨a, hpc⟩ := hen
    have hnot : s.succeeded = false := by
      by_contra hsucc
      have := hs.not_committed (by simpa using hsucc)
      simp [hpc, ReactorPc.committed] at this
    simp only [next, hpc]
    exact hs.of_reactor rfl rfl rfl rfl (fun _ => rfl) (by simp [hnot, hs.none_late])
  | callbackEnds => exact hs.of_reactor rfl rfl rfl rfl (fun _ => rfl) hs.none_late

theorem inv_of_reachable (h : (emClient ε).Reachable Orderly s) : s.Inv := by
  refine h.invariant ?_ fun s a hs hen hok => inv_next hen hok hs
  rintro _ rfl
  refine ⟨fun _ => by simp [IsClose, initial], ⟨fun hc => absurd rfl hc, fun _ => rfl,
    fun hc => absurd rfl hc, fun d hd => by simp [initial, Lifecycle.initial, Delivery.initial, hd],
    Or.inl rfl, fun hc => absurd rfl hc, fun hc => absurd rfl hc⟩, by simp [initial], rfl, nofun,
    nofun, rfl⟩

/-- **`on_close` and the callbacks of the reactor.** In every run in which `close` is called off
the reactor thread, `reopen` is over when that happens and does not follow it, the dispatch
thread joins in time, and no block is between its test and its callback when `on_close`
succeeds: `on_close` succeeds after the close operation has completed, and no callback is
started after that. -/
theorem quiesces_of_orderly (h : (emClient ε).Reachable Orderly s) : s.Quiesces :=
  (inv_of_reachable h).quiesces

/-- An event comes in, and the block for it passes its test on the reactor thread. -/
def deliverySteps : List (EMClientAct ℕ) :=
  [.inherited (.eventThread 0 .start), .inherited (.enqueue 0 7),
    .inherited (.eventThread 0 .dequeue), .inherited (.push 0), .inherited (.thread 0 .check),
    .inherited (.thread 0 .pop), .schedule 0, .runBlock, .askRunning, .askClosed]

/-- `close` is called off the reactor thread, and its caller joins the shutdown thread. -/
def closeSteps : List (EMClientAct ℕ) :=
  [.close false, .inherited (.control 0 .enter), .inherited (.control 0 .test),
    .inherited (.control 0 .beginWait), .inherited (.thread 0 .check),
    .inherited (.thread 0 .pop), .inherited (.thread 0 .signal),
    .inherited (.control 0 .resume), .inherited (.control 0 .join),
    .inherited (.control 0 .shutDown), .inherited (.eventThread 0 .dequeue),
    .inherited (.eventThread 0 .checkShutdown), .inherited (.control 0 .closeHandle),
    .inherited (.control 0 .queueFree), .inherited (.control 0 .leave), .join 0]

/-- A callback that ends before `on_close` succeeds. -/
theorem quiesces_callback :
    ((emClient ℕ).exec initial (deliverySteps ++ [.lookup true, .startCallback] ++ closeSteps ++
      [.callbackEnds, .succeed 0])).Quiesces :=
  quiesces_of_orderly (System.Valid.reachable_exec rfl (by
    simp [deliverySteps, closeSteps, System.Valid, Orderly, emClient, Enabled, Inherits, next,
      initial, handOver, IsClose, ReactorPc.atUser, ReactorPc.committed, Lifecycle.Enabled,
      Lifecycle.ControlEnabled, Lifecycle.next, Lifecycle.controlNext, Lifecycle.initial,
      Lifecycle.callTo, Lifecycle.step, Lifecycle.forgetDispatcher, Delivery.Enabled,
      Delivery.next, Delivery.push, Delivery.threadTo, Delivery.initial, QueueWithPipe.new,
      QueueWithPipe.gracefulClose, QueueWithPipe.take, QueueWithPipe.close, QueueWithPipe.push,
      ThreadPc.ended, Transport.Enabled, Transport.Internal, Transport.next,
      Transport.zkrbDequeue, Transport.initial]))

/-- **`close` in a callback.** On the reactor thread `close` does not join its shutdown thread:
`on_close` succeeds before that thread has taken `@mutex`. -/
theorem not_quiesces_reactor_close :
    ¬∀ s, (emClient ℕ).Reachable System.anyStep s → s.Quiesces := by
  intro hall
  have hvalid : (emClient ℕ).Valid System.anyStep initial
      (deliverySteps ++ [.lookup true, .startCallback, .close true, .succeed 0]) := by
    simp [deliverySteps, System.Valid, System.anyStep, emClient, Enabled, Inherits, next, initial,
      handOver, ReactorPc.atUser, Lifecycle.Enabled, Lifecycle.next, Lifecycle.initial,
      Lifecycle.callTo, Lifecycle.step, Delivery.Enabled, Delivery.next, Delivery.push,
      Delivery.threadTo, Delivery.initial, QueueWithPipe.new, QueueWithPipe.take,
      QueueWithPipe.push, Transport.Enabled, Transport.Internal, Transport.next,
      Transport.zkrbDequeue, Transport.initial]
  have hclosed := ((hall _ (hvalid.reachable_exec rfl)).completed (by decide +kernel)).closed
  revert hclosed
  decide +kernel

/-- **A block that has passed its test.** `close` is called off the reactor thread and joins its
shutdown thread, and everything else is in order as well; but the reactor thread has passed the
test of a block before the client was closed, and starts the callback after `on_close` has
succeeded. -/
theorem not_quiesces_passed_block :
    ¬∀ s, (emClient ℕ).Reachable (fun s a => (∃ c, a = .succeed c) ∨ s.Orderly a) s →
      s.Quiesces := by
  intro hall
  have hvalid : (emClient ℕ).Valid (fun s a => (∃ c, a = .succeed c) ∨ s.Orderly a) initial
      (deliverySteps ++ closeSteps ++ [.succeed 0, .lookup true, .startCallback]) := by
    simp [deliverySteps, closeSteps, System.Valid, Orderly, emClient, Enabled, Inherits, next,
      initial, handOver, IsClose, ReactorPc.atUser, Lifecycle.Enabled,
      Lifecycle.ControlEnabled, Lifecycle.next, Lifecycle.controlNext, Lifecycle.initial,
      Lifecycle.callTo, Lifecycle.step, Lifecycle.forgetDispatcher, Delivery.Enabled,
      Delivery.next, Delivery.push, Delivery.threadTo, Delivery.initial, QueueWithPipe.new,
      QueueWithPipe.gracefulClose, QueueWithPipe.take, QueueWithPipe.close, QueueWithPipe.push,
      ThreadPc.ended, Transport.Enabled, Transport.Internal, Transport.next,
      Transport.zkrbDequeue, Transport.initial]
  have hlate := (hall _ (hvalid.reachable_exec rfl)).none_late
  revert hlate
  decide +kernel

end EMClient

end ZookeeperClient
