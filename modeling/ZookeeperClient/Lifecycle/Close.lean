import ZookeeperClient.Lifecycle.Basic
import ZookeeperClient.Transition.Total

/-!
# Several calls of `close`

Any number of calls of `close` on one client, from ordinary threads and from callbacks. The
shutdown threads take turns with the mutex, except that one that waits for the dispatch
thread lets go of it in the middle of `stop_dispatch_thread!`. If another one comes in then,
one of the two sets `@dispatcher` to `nil` and the other calls `join` on it. Nothing goes
wrong in the event thread here; `Lifecycle.Faults` has what can.

## Main definitions

- `Lifecycle.ClosesOnly`, `Lifecycle.ClosesApart` — conditions on the steps
- `Lifecycle.Own`, `Lifecycle.Due` — the steps that end a shutdown
- `Lifecycle.ClosesSafely` — no call raises, all of them finish, and the client is closed

## Main results

- `closesSafely_of_closesApart` — runs in which no shutdown begins while another one waits
-/

namespace ZookeeperClient

open Transition

/-- Where a shutdown thread that closes handle 0 can be. -/
def ControlPc.ofClose : ControlPc → Bool
  | .idle | .called .close | .testing | .tested | .waiting | .woken | .leaving .close
  | .finished | .raised => true
  | .closing h .close | .joining h .close | .destroying h .close => h == 0
  | _ => false

/-- The call has entered its synchronized section and has not left it. -/
def ControlPc.inBody (pc : ControlPc) : Bool :=
  pc.holds || pc == .waiting

/-- The call has found a live dispatch thread and has yet to join it. -/
def ControlPc.waits : ControlPc → Bool
  | .tested | .waiting | .woken => true
  | _ => false

/-- The call is past `stop_dispatch_thread!`. -/
def ControlPc.stopped : ControlPc → Bool
  | .closing _ _ | .joining _ _ | .destroying _ _ | .leaving _ | .finished => true
  | _ => false

/-- The call is past `@czk.close`. -/
def ControlPc.past : ControlPc → Bool
  | .leaving _ | .finished => true
  | _ => false

namespace Lifecycle

variable {ε : Type} {s : Lifecycle ε}

/-- Nobody calls `reopen`. -/
def ClosesOnly (_ : Lifecycle ε) : LifecycleAct ε → Prop
  | .call .reopen => False
  | _ => True

/-- Nobody calls `reopen`, and no shutdown thread enters its synchronized section while another
one waits on `@dispatch_shutdown_cond`. -/
def ClosesApart (s : Lifecycle ε) : LifecycleAct ε → Prop
  | .call .reopen => False
  | .control _ .enter => ∀ c, s.calls c ≠ .waiting
  | _ => True

/-- The steps of the client's own threads that are not new calls or new events. An event
thread that finds nothing in the queue goes back to waiting for its pipe, unless it is to
shut down. -/
def Own (s : Lifecycle ε) : LifecycleAct ε → Prop
  | .call _ | .enqueue _ _ => False
  | .eventThread h .dequeue => (s.transports h).queue ≠ [] ∨ (s.transports h).shuttingDown = true
  | _ => True

/-- The steps of the shutdown threads and of the event thread that they wait for. The dispatch
thread is not among them: its callback may never return. -/
def Due (s : Lifecycle ε) : LifecycleAct ε → Prop
  | .control c act => s.ClosesApart (.control c act)
  | .eventThread h act => s.Own (.eventThread h act)
  | .push _ => True
  | _ => False

/-- Every call that has been made has returned. -/
def AllFinished (s : Lifecycle ε) : Prop :=
  ∀ c, s.calls c = .idle ∨ s.calls c = .finished

/-- `close` is safe: no call has raised; however the threads are scheduled, all calls that
have been made finish; and once one has finished, `@dispatcher` is `nil`, `closed?` is true and
the handle has been destroyed once. -/
structure ClosesSafely (s : Lifecycle ε) : Prop where
  none_raised (c : ℕ) : s.calls c ≠ .raised
  finish : (lifecycle ε).Inevitable (fun s a => s.ClosesApart a ∧ s.Own a) Due AllFinished s
  closed {c : ℕ} (hc : s.calls c = .finished) :
    s.delivery.dispatcher = none ∧ (s.transports s.czk).closed = true ∧
      (s.transports s.czk).freed = true ∧ s.destroyed s.czk = 1

/-! ## Where the calls are -/

/-- Only shutdown threads of handle 0 and dispatch thread 0 are at work. -/
structure OneHandle (s : Lifecycle ε) : Prop where
  czk : s.czk = 0
  nextCzk : s.nextCzk = 1
  ofClose (c : ℕ) : (s.calls c).ofClose = true
  unborn (d : ℕ) (hd : d ≠ 0) : s.delivery.threads d = .unborn

theorem OneHandle.eq_zero (hs : s.OneHandle) {h : ℕ} (hlt : h < s.nextCzk) : h = 0 := by
  rw [hs.nextCzk] at hlt
  omega

/-- At most one call is in its synchronized section. -/
def Alone (s : Lifecycle ε) : Prop :=
  ∀ c c', (s.calls c).inBody = true → (s.calls c').inBody = true → c = c'

theorem forall_callTo {P : ControlPc → Prop} {c : ℕ} {pc : ControlPc}
    (h : ∀ c', P (s.calls c')) (hpc : P pc) (c' : ℕ) : P ((s.callTo c pc).calls c') := by
  rw [calls_callTo]
  split
  · exact hpc
  · exact h c'

/-- What holds of a call after call `c` has moved on held before, unless it is call `c` of which
it has become true. -/
theorem of_moved {P : ControlPc → Bool} {s' : Lifecycle ε} {c c' : ℕ} {pc : ControlPc}
    (hcalls : s'.calls = Function.update s.calls c pc) (hc' : P (s'.calls c') = true)
    (hpc : P pc = true → P (s.calls c) = true) : P (s.calls c') = true := by
  rw [hcalls, Function.update_apply] at hc'
  split at hc'
  · next heq => exact heq ▸ hpc hc'
  · exact hc'

theorem OneHandle.of_pc (hs : s.OneHandle) {c : ℕ} {pc : ControlPc} (hpc : s.calls c = pc) :
    pc.ofClose = true :=
  hpc ▸ hs.ofClose c

/-- No call is in a part of `reopen`. -/
theorem OneHandle.elim (hs : s.OneHandle) {c : ℕ} {pc : ControlPc} (hpc : s.calls c = pc)
    (hno : pc.ofClose = false) {p : Prop} : p := by
  have := hs.of_pc hpc
  simp [hno] at this

theorem OneHandle.of_closing (hs : s.OneHandle) {c h : ℕ} {op : ControlOp}
    (hpc : s.calls c = .closing h op) : h = 0 ∧ op = .close := by
  have := hs.of_pc hpc
  cases op <;> simp_all [ControlPc.ofClose]

theorem OneHandle.of_joining (hs : s.OneHandle) {c h : ℕ} {op : ControlOp}
    (hpc : s.calls c = .joining h op) : h = 0 ∧ op = .close := by
  have := hs.of_pc hpc
  cases op <;> simp_all [ControlPc.ofClose]

theorem OneHandle.of_destroying (hs : s.OneHandle) {c h : ℕ} {op : ControlOp}
    (hpc : s.calls c = .destroying h op) : h = 0 ∧ op = .close := by
  have := hs.of_pc hpc
  cases op <;> simp_all [ControlPc.ofClose]

theorem oneHandle_next {a : LifecycleAct ε} (hen : s.Enabled a) (hok : s.ClosesOnly a)
    (hs : s.OneHandle) : (s.next a).OneHandle := by
  have heff := effect_next hen
  generalize s.next a = s' at heff ⊢
  have hmove {c : ℕ} {pc : ControlPc} (hpc : pc.ofClose = true) (c' : ℕ) :
      ((s.callTo c pc).calls c').ofClose = true :=
    forall_callTo (P := fun pc => pc.ofClose = true) hs.ofClose hpc c'
  cases heff with
  | @call op =>
    cases op with
    | close => exact ⟨hs.czk, hs.nextCzk, hmove rfl, hs.unborn⟩
    | reopen => exact hok.elim
  | enterClose | testNil | testEnded | testLive | beginWait | resume | joinNil | joined
  | joinTimeout | leaveClose =>
    exact ⟨hs.czk, hs.nextCzk, hmove (by simp [ControlPc.ofClose, hs.czk]), hs.unborn⟩
  | enterReopen hpc | replace hpc | replaceRaises hpc | leaveReopen hpc | foundDispatcher hpc
  | foundNil hpc | spawn hpc | assign hpc => exact hs.elim hpc rfl
  | foundClosed hpc | shutDown hpc =>
    obtain ⟨rfl, rfl⟩ := hs.of_closing hpc
    exact ⟨hs.czk, hs.nextCzk, hmove rfl, hs.unborn⟩
  | joinedClosed hpc | closeHandle hpc =>
    obtain ⟨rfl, rfl⟩ := hs.of_joining hpc
    exact ⟨hs.czk, hs.nextCzk, hmove rfl, hs.unborn⟩
  | queueFree hpc =>
    obtain ⟨rfl, rfl⟩ := hs.of_destroying hpc
    exact ⟨hs.czk, hs.nextCzk, hmove rfl, hs.unborn⟩
  | thread hen' =>
    exact ⟨hs.czk, hs.nextCzk, hs.ofClose, fun d' hd' => Delivery.unborn_next hs.unborn hen' hd'⟩
  | enqueue | eventThread | push => exact ⟨hs.czk, hs.nextCzk, hs.ofClose, hs.unborn⟩

theorem alone_next {a : LifecycleAct ε} (hen : s.Enabled a) (hok : s.ClosesApart a)
    (howned : s.Owned) (hone : s.OneHandle) (hs : s.Alone) : (s.next a).Alone := by
  have heff := effect_next hen
  generalize s.next a = s' at heff ⊢
  -- a call that was in its section before, or that leaves it
  have hmove {c : ℕ} {pc : ControlPc} (hpc : pc.inBody = true → (s.calls c).inBody = true) :
      (s.callTo c pc).Alone :=
    fun c' c'' hc' hc'' => hs c' c'' (of_moved rfl hc' hpc) (of_moved rfl hc'' hpc)
  cases heff with
  | @enterClose c hpc hfree =>
    -- the mutex is free and nobody waits on the condition, so no call is in its section
    have hnobody (c' : ℕ) : (s.calls c').inBody = false := by
      have hholds : (s.calls c').holds = false := by
        simpa [hfree] using howned c'
      have hwaiting := hok c'
      simp [ControlPc.inBody, hholds, hwaiting]
    have hmine (c' : ℕ) (hc' : ((s.callTo c .testing).calls c').inBody = true) : c' = c := by
      rw [calls_callTo] at hc'
      by_contra hne
      simp [hne, hnobody c'] at hc'
    exact fun c' c'' hc' hc'' => (hmine c' hc').trans (hmine c'' hc'').symm
  | call => exact hmove nofun
  | thread | enqueue | eventThread | push => exact hs
  | joinNil | leaveClose => exact hmove nofun
  | testNil hpc | testEnded hpc | testLive hpc | beginWait hpc | resume hpc | joined hpc
  | joinTimeout hpc | foundClosed hpc | shutDown hpc | joinedClosed hpc | closeHandle hpc
  | queueFree hpc => exact hmove fun _ => by rw [hpc]; rfl
  | enterReopen hpc | replace hpc | replaceRaises hpc | leaveReopen hpc | foundDispatcher hpc
  | foundNil hpc | spawn hpc | assign hpc => exact hone.elim hpc rfl

/-- A call that waits has a thread to wait for; a call past `stop_dispatch_thread!` has left
none. -/
structure Stopping (s : Lifecycle ε) : Prop where
  waits {c : ℕ} (hc : (s.calls c).waits = true) : s.delivery.dispatcher ≠ none
  stopped {c : ℕ} (hc : (s.calls c).stopped = true) : s.delivery.dispatcher = none

/-- A call moves on and `@dispatcher` stays as it is. -/
theorem Stopping.of_call (hs : s.Stopping) {s' : Lifecycle ε} {c : ℕ} {pc : ControlPc}
    (hcalls : s'.calls = Function.update s.calls c pc)
    (hdisp : s'.delivery.dispatcher = s.delivery.dispatcher)
    (hwaits : pc.waits = true → (s.calls c).waits = true)
    (hstopped : pc.stopped = true → (s.calls c).stopped = true) : s'.Stopping := by
  refine ⟨fun hc => ?_, fun hc => ?_⟩
  · rw [hdisp]
    exact hs.waits (of_moved hcalls hc hwaits)
  · rw [hdisp]
    exact hs.stopped (of_moved hcalls hc hstopped)

/-- A call forgets `@dispatcher`. Nobody else was waiting for that thread. -/
theorem Stopping.of_forget (halone : s.Alone) {c : ℕ} (hbody : (s.calls c).inBody = true) :
    (s.callTo c (.closing s.czk .close)).forgetDispatcher.Stopping := by
  refine ⟨fun {c'} hc => ?_, fun _ => rfl⟩
  change ((s.callTo c (.closing s.czk .close)).calls c').waits = true at hc
  rw [calls_callTo] at hc
  split at hc
  · simp [ControlPc.waits] at hc
  · next hne =>
    refine absurd (halone c' c ?_ hbody) hne
    cases hpc : s.calls c' <;> simp [hpc, ControlPc.waits] at hc <;> rfl

theorem stopping_next {a : LifecycleAct ε} (hen : s.Enabled a) (hone : s.OneHandle)
    (halone : s.Alone) (hs : s.Stopping) : (s.next a).Stopping := by
  have heff := effect_next hen
  generalize s.next a = s' at heff ⊢
  cases heff with
  | call | enterClose | joinNil =>
    exact hs.of_call rfl rfl (by simp [ControlPc.waits]) (by simp [ControlPc.stopped])
  | testNil _ hd =>
    exact ⟨fun hc => hs.waits (of_moved rfl hc (by simp [ControlPc.waits])), fun _ => hd⟩
  -- the thread has been joined, or given up, and is forgotten
  | testEnded hpc | joined hpc | joinTimeout hpc =>
    exact .of_forget halone (by rw [hpc]; rfl)
  | testLive _ hd =>
    refine ⟨fun _ => ?_, fun hc => hs.stopped (of_moved rfl hc (by simp [ControlPc.stopped]))⟩
    change s.delivery.dispatcher ≠ none
    simp [hd]
  | beginWait hpc | resume hpc | foundClosed hpc | shutDown hpc | joinedClosed hpc
  | closeHandle hpc | queueFree hpc | leaveClose hpc =>
    exact hs.of_call rfl rfl (by simp [ControlPc.waits, hpc]) (by simp [ControlPc.stopped, hpc])
  | thread hen' =>
    have hsame := (Delivery.frame_next hen').1
    refine ⟨fun hc => ?_, fun hc => hsame.trans (hs.stopped hc)⟩
    change (s.delivery.next _ _).dispatcher ≠ none
    rw [hsame]
    exact hs.waits hc
  | enqueue | eventThread | push => exact ⟨hs.waits, hs.stopped⟩
  | enterReopen hpc | replace hpc | replaceRaises hpc | leaveReopen hpc | foundDispatcher hpc
  | foundNil hpc | spawn hpc | assign hpc => exact hone.elim hpc rfl

theorem not_raised_next {a : LifecycleAct ε} (hen : s.Enabled a) (hone : s.OneHandle)
    (hstop : s.Stopping) (hs : ∀ c, s.calls c ≠ .raised) (c : ℕ) :
    (s.next a).calls c ≠ .raised := by
  have heff := effect_next hen
  generalize s.next a = s' at heff ⊢
  have hmove {c₀ : ℕ} {pc : ControlPc} (hpc : pc ≠ .raised) :
      (s.callTo c₀ pc).calls c ≠ .raised :=
    forall_callTo (P := fun pc => pc ≠ .raised) hs hpc c
  cases heff with
  | joinNil hpc hd => exact absurd hd (hstop.waits (by rw [hpc]; rfl))
  | replaceRaises hpc => exact hone.elim hpc rfl
  | thread | enqueue | eventThread | push => exact hs c
  | _ => exact hmove (by simp)

/-! ## The handle -/

/-- The way of handle 0 to its end. -/
structure HandleEnd (s : Lifecycle ε) : Prop where
  shuttingDown {c h : ℕ} {op : ControlOp} (hc : s.calls c = .joining h op) :
    (s.transports h).shuttingDown = true
  past {c : ℕ} (hc : (s.calls c).past = true) : (s.transports 0).freed = true
  closed (hclosed : (s.transports 0).closed = true) :
    (s.transports 0).freed = true ∨ ∃ c op, s.calls c = .destroying 0 op
  destroyed : s.destroyed 0 = if (s.transports 0).closed then 1 else 0

/-- A call moves on, neither into `zookeeper_close` nor out of it. -/
theorem HandleEnd.of_call (hs : s.HandleEnd) {s' : Lifecycle ε} {c : ℕ} {pc : ControlPc}
    (hcalls : s'.calls = Function.update s.calls c pc)
    (hclosed : (s'.transports 0).closed = (s.transports 0).closed)
    (hfreed : (s'.transports 0).freed = (s.transports 0).freed)
    (hshut : ∀ h, (s.transports h).shuttingDown = true → (s'.transports h).shuttingDown = true)
    (hdestroyed : s'.destroyed 0 = s.destroyed 0)
    (hbefore : ∀ op, s.calls c ≠ .destroying 0 op)
    (hjoining : ∀ h op, pc = .joining h op → (s'.transports h).shuttingDown = true)
    (hpast : pc.past = true → (s.transports 0).freed = true) : s'.HandleEnd := by
  refine ⟨fun {c' h op} hc => ?_, fun {c'} hc => ?_, fun hc => ?_, ?_⟩
  · rw [hcalls, Function.update_apply] at hc
    split at hc
    · exact hjoining h op hc
    · exact hshut h (hs.shuttingDown hc)
  · rw [hfreed]
    rw [hcalls, Function.update_apply] at hc
    split at hc
    · exact hpast hc
    · exact hs.past hc
  · rw [hfreed]
    obtain hf | ⟨c', op, hc'⟩ := hs.closed (hclosed ▸ hc)
    · exact Or.inl hf
    · refine Or.inr ⟨c', op, ?_⟩
      rw [hcalls, Function.update_of_ne, hc']
      rintro rfl
      exact hbefore op hc'
  · rw [hdestroyed, hclosed]
    exact hs.destroyed

/-- A transport moves on, and no call does. -/
theorem HandleEnd.of_transport (hs : s.HandleEnd) {s' : Lifecycle ε} (hcalls : s'.calls = s.calls)
    (hclosed : (s'.transports 0).closed = (s.transports 0).closed)
    (hfreed : (s'.transports 0).freed = (s.transports 0).freed)
    (hshut : ∀ h, (s.transports h).shuttingDown = true → (s'.transports h).shuttingDown = true)
    (hdestroyed : s'.destroyed 0 = s.destroyed 0) : s'.HandleEnd := by
  refine ⟨fun hc => ?_, fun hc => ?_, fun hc => ?_, ?_⟩
  · rw [hcalls] at hc
    exact hshut _ (hs.shuttingDown hc)
  · rw [hcalls] at hc
    rw [hfreed]
    exact hs.past hc
  · rw [hcalls, hfreed]
    exact hs.closed (hclosed ▸ hc)
  · rw [hdestroyed, hclosed]
    exact hs.destroyed

/-- A call that finds the handle closed finds its queue freed, since nobody else is in
`zookeeper_close`. -/
theorem HandleEnd.freed_of_closed (hs : s.HandleEnd) (halone : s.Alone) {c : ℕ}
    (hbody : (s.calls c).inBody = true) (hnot : ∀ op, s.calls c ≠ .destroying 0 op)
    (hclosed : (s.transports 0).closed = true) : (s.transports 0).freed = true := by
  obtain hf | ⟨c', op, hc'⟩ := hs.closed hclosed
  · exact hf
  · obtain rfl := halone c c' hbody (by rw [hc']; rfl)
    exact absurd hc' (hnot op)

theorem joining_of_callTo {c c' h : ℕ} {pc : ControlPc} {op : ControlOp}
    (hc : (s.callTo c pc).calls c' = .joining h op) (hpc : pc ≠ .joining h op) :
    s.calls c' = .joining h op := by
  rw [calls_callTo] at hc
  split at hc
  · exact absurd hc hpc
  · exact hc

theorem handleEnd_next {a : LifecycleAct ε} (hen : s.Enabled a) (hnum : s.Numbered)
    (hone : s.OneHandle) (halone : s.Alone) (hs : s.HandleEnd) : (s.next a).HandleEnd := by
  have heff := effect_next hen
  have hshut (h : ℕ) : (s.transports h).shuttingDown = true →
      ((s.next a).transports h).shuttingDown = true := shuttingDown_next hen
  have hfreed : (s.transports 0).freed = true → ((s.next a).transports 0).freed = true :=
    freed_next hen
  generalize s.next a = s' at heff hshut hfreed ⊢
  cases heff with
  | call =>
    have hidle := hnum s.nextCall (Nat.le_refl _)
    exact hs.of_call rfl rfl rfl hshut rfl (by simp [hidle]) (by simp)
      (by simp [ControlPc.past])
  | enterClose hpc | testNil hpc | testEnded hpc | testLive hpc | beginWait hpc | resume hpc
  | joinNil hpc | joined hpc | joinTimeout hpc =>
    exact hs.of_call rfl rfl rfl hshut rfl (by simp [hpc]) (by simp) (by simp [ControlPc.past])
  -- a closed handle has been freed, since no other call is destroying it
  | foundClosed hpc hclosed =>
    obtain ⟨rfl, rfl⟩ := hone.of_closing hpc
    exact hs.of_call rfl rfl rfl hshut rfl (by simp [hpc]) (by simp) fun _ =>
      hs.freed_of_closed halone (by rw [hpc]; rfl) (by simp [hpc]) hclosed
  | @shutDown c h op hpc hopen =>
    obtain ⟨rfl, rfl⟩ := hone.of_closing hpc
    refine hs.of_call rfl ?_ ?_ hshut rfl (by simp [hpc]) ?_ (by simp [ControlPc.past])
    · simp [Lifecycle.step, callTo, Transport.next]
    · simp [Lifecycle.step, callTo, Transport.next]
    · rintro h' op' heq
      obtain ⟨rfl, -⟩ : 0 = h' ∧ ControlOp.close = op' := by simpa using heq
      simp [Lifecycle.step, callTo, Transport.next]
  | joinedClosed hpc hclosed =>
    obtain ⟨rfl, rfl⟩ := hone.of_joining hpc
    exact hs.of_call rfl rfl rfl hshut rfl (by simp [hpc]) (by simp) fun _ =>
      hs.freed_of_closed halone (by rw [hpc]; rfl) (by simp [hpc]) hclosed
  | @closeHandle c h op hpc hexited hopen =>
    obtain ⟨rfl, rfl⟩ := hone.of_joining hpc
    refine ⟨fun {c' h' op'} hc => ?_, fun {c'} hc => ?_, fun _ => Or.inr ⟨c, .close, ?_⟩, ?_⟩
    · exact hshut h' (hs.shuttingDown (joining_of_callTo hc (by simp)))
    · refine hfreed (hs.past (of_moved (P := ControlPc.past) rfl hc (by simp [ControlPc.past])))
    · simp [Lifecycle.step, callTo]
    · have hzero := hs.destroyed
      simp [hopen] at hzero
      simp [Lifecycle.step, callTo, Transport.next, hzero]
  | @queueFree c h op hpc =>
    obtain ⟨rfl, rfl⟩ := hone.of_destroying hpc
    have hafter : (((s.callTo c (.leaving .close)).step 0 .free).transports 0).freed = true := by
      simp [Lifecycle.step, Transport.next]
    refine ⟨fun {c' h' op'} hc => ?_, fun _ => hafter, fun _ => Or.inl hafter, ?_⟩
    · exact hshut h' (hs.shuttingDown (joining_of_callTo hc (by simp)))
    · simpa [Lifecycle.step, callTo, Transport.next] using hs.destroyed
  | leaveClose hpc =>
    exact hs.of_call rfl rfl rfl hshut rfl (by simp [hpc]) (by simp) fun _ =>
      hs.past (by rw [hpc]; rfl)
  | thread => exact hs.of_transport rfl rfl rfl hshut rfl
  | enqueue | push =>
    refine hs.of_transport rfl ?_ ?_ hshut rfl <;>
      simp only [transports_step] <;> split <;> rfl
  | eventThread hlt hact =>
    refine hs.of_transport rfl ?_ ?_ hshut rfl <;> rw [transports_step] <;> split
    · exact Transport.closed_internal hact
    · rfl
    · exact Transport.freed_internal hact
    · rfl
  | enterReopen hpc | replace hpc | replaceRaises hpc | leaveReopen hpc | foundDispatcher hpc
  | foundNil hpc | spawn hpc | assign hpc => exact hone.elim hpc rfl

/-! ## All of it together -/

/-- What holds in every state of a run in which the calls of `close` do not overlap badly. -/
structure Closing (s : Lifecycle ε) : Prop where
  numbered : s.Numbered
  owned : s.Owned
  oneHandle : s.OneHandle
  alone : s.Alone
  stopping : s.Stopping
  not_raised (c : ℕ) : s.calls c ≠ .raised
  handleEnd : s.HandleEnd

theorem closesOnly_of_closesApart {a : LifecycleAct ε} (h : s.ClosesApart a) :
    s.ClosesOnly a := by
  cases a with
  | call op => cases op <;> exact h
  | _ => trivial

theorem closing_of_reachable (h : (lifecycle ε).Reachable ClosesApart s) : s.Closing := by
  refine h.invariant ?_ fun s a hs hen hok => ?_
  · rintro _ rfl
    refine ⟨fun _ _ => rfl, fun c => by simp [initial, ControlPc.holds],
      ⟨rfl, rfl, fun _ => rfl, fun d hd => by simp [initial, Delivery.initial, hd]⟩,
      nofun, ⟨nofun, nofun⟩, nofun, ⟨nofun, nofun, nofun, rfl⟩⟩
  · exact ⟨numbered_next hen hs.numbered, owned_next hen hs.numbered hs.owned,
      oneHandle_next hen (closesOnly_of_closesApart hok) hs.oneHandle,
      alone_next hen hok hs.owned hs.oneHandle hs.alone,
      stopping_next hen hs.oneHandle hs.alone hs.stopping,
      not_raised_next hen hs.oneHandle hs.stopping hs.not_raised,
      handleEnd_next hen hs.numbered hs.oneHandle hs.alone hs.handleEnd⟩

/-! ## Every shutdown comes to its end -/

/-- How far a shutdown thread is from its end. Each number leaves room for what the step adds
to the queues. -/
def callRank : ControlPc → ℕ
  | .called _ => 16
  | .testing => 15
  | .tested => 14
  | .waiting => 8
  | .woken => 7
  | .closing _ _ => 6
  | .joining _ _ => 3
  | .destroying _ _ => 2
  | .leaving _ => 1
  | _ => 0

/-- How far an event thread is from waiting or from its end, if nothing is enqueued. -/
def transportRank (t : Transport ε) : ℕ :=
  7 * t.queue.length +
    match t.eventThread with
    | .starting => 3
    | .iterating => if t.shuttingDown then 2 else 0
    | .foundEmpty => 1
    | .delivering _ => if t.shuttingDown then 8 else 6
    | .exited => 0

/-- The ranks of all calls that have been made. -/
def callsRank (s : Lifecycle ε) : ℕ :=
  ∑ c ∈ Finset.range s.nextCall, callRank (s.calls c)

/-- A bound for the number of steps that the client can take on its own. -/
def rank (s : Lifecycle ε) : ℕ :=
  s.callsRank + transportRank (s.transports 0) + s.delivery.stepsLeft 0

/-- The sum changes by what one call's rank changes. -/
theorem callsRank_moved {s' : Lifecycle ε} {c : ℕ} {pc : ControlPc} (hc : c < s.nextCall)
    (hcalls : s'.calls = Function.update s.calls c pc) (hnext : s'.nextCall = s.nextCall) :
    s'.callsRank + callRank (s.calls c) = s.callsRank + callRank pc := by
  unfold callsRank
  rw [hcalls, hnext]
  exact total_update callRank hc pc

theorem transportRank_internal {t : Transport ε} {act : TransportAct ε}
    (hact : Transport.Internal act) (hen : t.Enabled act)
    (hown : act = .dequeue → t.queue ≠ [] ∨ t.shuttingDown = true) :
    transportRank (t.next act) < transportRank t := by
  cases act with
  | start =>
    have hpc : t.eventThread = .starting := hen
    cases hs : t.shuttingDown <;> simp [transportRank, Transport.next, hpc, hs]
  | dequeue =>
    have hpc : t.eventThread = .iterating := hen
    cases hq : t.queue with
    | nil =>
      have hs : t.shuttingDown = true := by simpa [hq] using hown rfl
      simp [transportRank, Transport.next, Transport.zkrbDequeue, hpc, hq, hs]
    | cons event rest =>
      cases hs : t.shuttingDown <;>
        simp [transportRank, Transport.next, Transport.zkrbDequeue, hpc, hq, hs] <;> omega
  | checkShutdown =>
    have hpc : t.eventThread = .foundEmpty := hen
    cases hs : t.shuttingDown <;> simp [transportRank, Transport.next, hpc, hs]
  | _ => exact hact.elim

theorem transportRank_push {t : Transport ε} {event : ε} (hpc : t.eventThread = .delivering event) :
    transportRank (t.next .push) + 6 ≤ transportRank t := by
  cases hs : t.shuttingDown <;> simp [transportRank, Transport.next, hpc, hs]

theorem transportRank_shutDown (t : Transport ε) :
    transportRank (t.next .shutDown) ≤ transportRank t + 2 := by
  cases hpc : t.eventThread <;> cases hs : t.shuttingDown <;>
    simp [transportRank, Transport.next, hpc, hs]

theorem transportRank_free (t : Transport ε) :
    transportRank (t.next .free) ≤ transportRank t := by
  unfold transportRank
  exact Nat.add_le_add_right (by simp [Transport.next]) _

/-- A call that is not idle has been made. -/
theorem Numbered.lt (hs : s.Numbered) {c : ℕ} {pc : ControlPc} (hpc : s.calls c = pc)
    (hne : pc ≠ .idle) : c < s.nextCall := by
  by_contra hlt
  exact hne (hpc.symm.trans (hs c (by omega)))

/-- A call moves on, and what it adds to the queues is less than what its rank loses. -/
theorem rank_lt_of_moved (hnum : s.Numbered) {s' : Lifecycle ε} {c : ℕ} {pc pc' : ControlPc}
    (hpc : s.calls c = pc) (hne : pc ≠ .idle) (hcalls : s'.calls = Function.update s.calls c pc')
    (hnext : s'.nextCall = s.nextCall)
    (hless : callRank pc' + transportRank (s'.transports 0) + s'.delivery.stepsLeft 0 <
      callRank pc + transportRank (s.transports 0) + s.delivery.stepsLeft 0) :
    s'.rank < s.rank := by
  have hmoved := callsRank_moved (hnum.lt hpc hne) hcalls hnext
  rw [hpc] at hmoved
  unfold rank
  omega

/-- Every step that the client takes on its own brings it closer to its end. -/
theorem rank_next {a : LifecycleAct ε} (hen : s.Enabled a) (hown : s.Own a) (hs : s.Closing) :
    (s.next a).rank < s.rank := by
  have hnum := hs.numbered
  have hone := hs.oneHandle
  have heff := effect_next hen
  generalize s.next a = s' at heff ⊢
  cases heff with
  | call | enqueue => exact hown.elim
  | enterClose hpc | testNil hpc | testEnded hpc | testLive hpc | resume hpc | joinNil hpc
  | joined hpc | joinTimeout hpc | foundClosed hpc | joinedClosed hpc | leaveClose hpc =>
    refine rank_lt_of_moved hnum hpc (by simp) rfl rfl ?_
    simp [callRank, callTo, forgetDispatcher, Delivery.stepsLeft]
  | beginWait hpc =>
    refine rank_lt_of_moved hnum hpc (by simp) rfl rfl ?_
    have hitems := s.delivery.queue.length_gracefulClose
    simp only [callRank, callTo, Delivery.stepsLeft]
    omega
  | @shutDown c h op hpc =>
    obtain ⟨rfl, rfl⟩ := hone.of_closing hpc
    refine rank_lt_of_moved hnum hpc (by simp) rfl rfl ?_
    have hrank := transportRank_shutDown (s.transports 0)
    simp only [callRank, Lifecycle.step, callTo, Function.update_self]
    omega
  | closeHandle hpc =>
    obtain ⟨rfl, rfl⟩ := hone.of_joining hpc
    refine rank_lt_of_moved hnum hpc (by simp) rfl rfl ?_
    simp [callRank, Lifecycle.step, callTo, transportRank, Transport.next]
  | queueFree hpc =>
    obtain ⟨rfl, rfl⟩ := hone.of_destroying hpc
    refine rank_lt_of_moved hnum hpc (by simp) rfl rfl ?_
    have hrank := transportRank_free (s.transports 0)
    simp only [callRank, Lifecycle.step, callTo, Function.update_self]
    omega
  | @thread d act hen' =>
    obtain rfl := Delivery.eq_of_unborn hone.unborn hen'
    have hless := Delivery.stepsLeft_next hen'
    simp only [rank, callsRank]
    omega
  | @eventThread h act hlt hact hen' =>
    obtain rfl := hone.eq_zero hlt
    have hless := transportRank_internal hact hen' (by rintro rfl; exact hown)
    simp only [rank, callsRank, Lifecycle.step, Function.update_self]
    omega
  -- the pushed event is one more for the dispatch thread and one less for the handle
  | @push h event hlt hpc =>
    obtain rfl := hone.eq_zero hlt
    have hless := transportRank_push hpc
    have hadd := s.delivery.stepsLeft_push (0, event) 0
    simp only [rank, callsRank, Lifecycle.step, Function.update_self]
    omega
  | enterReopen hpc | replace hpc | replaceRaises hpc | leaveReopen hpc | foundDispatcher hpc
  | foundNil hpc | spawn hpc | assign hpc => exact hone.elim hpc rfl

/-- The event thread that a shutdown thread waits for has a step to take. -/
theorem exists_due_of_joining (hs : s.Closing) {c : ℕ} {op : ControlOp}
    (hpc : s.calls c = .joining 0 op) : ∃ a, s.Enabled a ∧ s.Due a := by
  have hlt : 0 < s.nextCzk := by simp [hs.oneHandle.nextCzk]
  cases ht : (s.transports 0).eventThread with
  | exited => exact ⟨.control c .closeHandle, ⟨0, op, hpc, ht⟩, trivial⟩
  | starting => exact ⟨.eventThread 0 .start, ⟨hlt, trivial, ht⟩, trivial⟩
  | iterating =>
    exact ⟨.eventThread 0 .dequeue, ⟨hlt, trivial, ht⟩, Or.inr (hs.handleEnd.shuttingDown hpc)⟩
  | foundEmpty => exact ⟨.eventThread 0 .checkShutdown, ⟨hlt, trivial, ht⟩, trivial⟩
  | delivering event => exact ⟨.push 0, ⟨hlt, event, ht⟩, trivial⟩

/-- A call in its synchronized section, or the event thread that it waits for, has a step to
take. -/
theorem exists_due_of_inBody (hs : s.Closing) {c : ℕ} (hc : (s.calls c).inBody = true) :
    ∃ a, s.Enabled a ∧ s.Due a := by
  cases hpc : s.calls c with
  | testing => exact ⟨.control c .test, hpc, trivial⟩
  | tested => exact ⟨.control c .beginWait, hpc, trivial⟩
  | waiting =>
    -- the mutex is free, since whoever holds it is in its section as well
    have hfree : s.owner = none := by
      cases howner : s.owner with
      | none => rfl
      | some c' =>
        have hholds := (hs.owned c').2 howner
        obtain rfl := hs.alone c c' hc (by simp [ControlPc.inBody, hholds])
        simp [hpc, ControlPc.holds] at hholds
    exact ⟨.control c .resume, ⟨hpc, hfree⟩, trivial⟩
  -- the join ends with the thread or by its timeout
  | woken =>
    cases hd : s.delivery.dispatcher with
    | none => exact absurd hd (hs.stopping.waits (by rw [hpc]; rfl))
    | some d =>
      cases he : (s.delivery.threads d).ended with
      | true =>
        refine ⟨.control c .join, ⟨hpc, fun d' hd' => ?_⟩, trivial⟩
        obtain rfl := Option.some.inj (hd.symm.trans hd')
        exact he
      | false => exact ⟨.control c .joinTimeout, ⟨hpc, d, hd, he⟩, trivial⟩
  | closing h op => exact ⟨.control c .shutDown, ⟨h, op, hpc⟩, trivial⟩
  | joining h op =>
    obtain ⟨rfl, rfl⟩ := hs.oneHandle.of_joining hpc
    exact exists_due_of_joining hs hpc
  | destroying h op => exact ⟨.control c .queueFree, ⟨h, op, hpc⟩, trivial⟩
  | leaving op => exact ⟨.control c .leave, ⟨op, hpc⟩, trivial⟩
  | replacing => exact hs.oneHandle.elim hpc rfl
  | idle | called | settingUp | spawning | assigning | finished | raised =>
    simp [hpc, ControlPc.inBody, ControlPc.holds] at hc

/-- As long as a call has not finished, some shutdown thread or the event thread has a step
to take. -/
theorem exists_due (hs : s.Closing) (hgoal : ¬s.AllFinished) : ∃ a, s.Enabled a ∧ s.Due a := by
  by_cases hbody : ∃ c, (s.calls c).inBody = true
  · obtain ⟨c, hc⟩ := hbody
    exact exists_due_of_inBody hs hc
  · obtain ⟨c, hc⟩ : ∃ c, ¬(s.calls c = .idle ∨ s.calls c = .finished) := by
      simpa [AllFinished] using hgoal
    have hnot (c' : ℕ) : (s.calls c').inBody ≠ true := fun hc' => hbody ⟨c', hc'⟩
    have hfree : s.owner = none := by
      cases howner : s.owner with
      | none => rfl
      | some c' => exact absurd (by simp [ControlPc.inBody, (hs.owned c').2 howner]) (hnot c')
    have hwaiting (c' : ℕ) : s.calls c' ≠ .waiting := by
      intro hpc
      exact hnot c' (by rw [hpc]; rfl)
    cases hpc : s.calls c with
    | called op => exact ⟨.control c .enter, ⟨⟨op, hpc⟩, hfree⟩, hwaiting⟩
    | idle | finished => simp [hpc] at hc
    | raised => exact absurd hpc (hs.not_raised c)
    | settingUp | spawning | assigning => exact hs.oneHandle.elim hpc rfl
    | testing | tested | waiting | woken | replacing | closing | joining | destroying | leaving =>
      exact absurd (by rw [hpc]; rfl) (hnot c)

/-- **`close` is safe while shutdown threads do not overlap.** In every run without `reopen` in
which no shutdown thread enters its section while another one waits for the dispatch thread, no
call raises, all calls finish, however the threads are scheduled and whether or not the dispatch
thread ends in time, and the first one to finish leaves the client closed and its handle
destroyed once. -/
theorem closesSafely_of_closesApart (h : (lifecycle ε).Reachable ClosesApart s) :
    s.ClosesSafely := by
  have hs := closing_of_reachable h
  refine ⟨hs.not_raised, ?_, fun {c} hc => ?_⟩
  · refine System.inevitable_of_rank (lifecycle ε) _ _ (fun s => (lifecycle ε).Reachable
      ClosesApart s) _ rank ?_ ?_ s h
    · exact fun s hr hgoal => exists_due (closing_of_reachable hr) hgoal
    · exact fun s a hr _ hen ⟨hok, hown⟩ =>
        ⟨hr.next a hen hok, rank_next hen hown (closing_of_reachable hr)⟩
  · have hfreed := hs.handleEnd.past (c := c) (by rw [hc]; rfl)
    have hclosed := (Transport.orderly_of_reachable
      ((handles_of_reachable h).reachable 0)).closed_of_freed hfreed
    have hdestroyed := hs.handleEnd.destroyed
    rw [hclosed] at hdestroyed
    rw [hs.oneHandle.czk]
    exact ⟨hs.stopping.stopped (c := c) (by rw [hc]; rfl), hclosed, hfreed, hdestroyed⟩

end Lifecycle

end ZookeeperClient
