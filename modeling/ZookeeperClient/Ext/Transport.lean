import ZookeeperClient.Ext.EventLoop

/-!
# The way of an event out of a handle

The events of one handle pass through its `zkrb` queue and the hand of its event thread
into `@event_queue`. This is the event loop without the pipe: an event thread that waits
may go on at any time. `reachable_transport` shows that every run of the event loop is a
run of this system, so what is proved here about all its runs holds of the code's loop.

`close_handle` comes in as well: it sets `@_closed`, calls `zookeeper_close`, during which
the completion functions of outstanding requests still enqueue their events, and frees the
queue.

## Main definitions

- `EventThread` — where the event thread is
- `Transport`, `TransportAct` — the state and the steps
- `Transport.undelivered` — the events that have not reached `@event_queue`, in order
-/

namespace ZookeeperClient

open Transition

/-- Where the event thread of a handle is. -/
inductive EventThread (ε : Type) where
  /-- Waiting for `@_running`. -/
  | starting
  /-- In `get_next_event`, before `zkrb_dequeue`. -/
  | iterating
  /-- `zkrb_dequeue` returned `NULL`; `@_shutting_down` has not been checked yet. -/
  | foundEmpty
  /-- `get_next_event` returned an event; it has not been pushed yet. -/
  | delivering (event : ε)
  | exited
  deriving DecidableEq, Repr

/-- One handle, as far as its events are concerned. -/
structure Transport (ε : Type) where
  /-- The `zkrb` queue. -/
  queue : List ε
  eventThread : EventThread ε
  shuttingDown : Bool
  /-- `@_closed`; `zookeeper_close` has been called. -/
  closed : Bool
  /-- `zkrb_queue_free` has been called. -/
  freed : Bool
  deriving DecidableEq, Repr

/-- The steps of the event thread and of the threads around it. -/
inductive TransportAct (ε : Type) where
  /-- The event thread has seen `@_running`. -/
  | start
  | dequeue
  /-- The check of `@_shutting_down`. -/
  | checkShutdown
  /-- `@event_queue.push(hash)`. -/
  | push
  /-- `zkrb_enqueue`. -/
  | enqueue (event : ε)
  /-- `shut_down!` and `wake_event_loop!`. -/
  | shutDown
  /-- `close_handle`, up to the call of `zookeeper_close`. -/
  | close
  /-- `zookeeper_close` has returned; `zkrb_queue_free`. -/
  | free
  deriving DecidableEq, Repr

namespace Transport

variable {ε : Type}

/-- A handle that has just been allocated. -/
def initial : Transport ε where
  queue := []
  eventThread := .starting
  shuttingDown := false
  closed := false
  freed := false

/-- `zkrb_dequeue` and what `method_get_next_event` does with its result. -/
def zkrbDequeue (t : Transport ε) : Transport ε :=
  match t.queue with
  | event :: rest => { t with queue := rest, eventThread := .delivering event }
  | [] => { t with eventThread := .foundEmpty }

/-- When a step may be taken. `stop_event_thread!` joins the event thread before
`close_handle`. -/
def Enabled (t : Transport ε) : TransportAct ε → Prop
  | .start => t.eventThread = .starting
  | .dequeue => t.eventThread = .iterating
  | .checkShutdown => t.eventThread = .foundEmpty
  | .push => ∃ event, t.eventThread = .delivering event
  | .enqueue _ => t.freed = false
  | .shutDown => True
  | .close => t.eventThread = .exited ∧ t.closed = false
  | .free => t.eventThread = .exited ∧ t.closed = true ∧ t.freed = false

def next (t : Transport ε) : TransportAct ε → Transport ε
  | .start => { t with eventThread := if t.shuttingDown then .exited else .iterating }
  | .dequeue => t.zkrbDequeue
  | .checkShutdown => { t with eventThread := if t.shuttingDown then .exited else .iterating }
  | .push => { t with eventThread := .iterating }
  | .enqueue event => { t with queue := t.queue ++ [event] }
  | .shutDown => { t with shuttingDown := true }
  | .close => { t with closed := true }
  | .free => { t with queue := [], freed := true }

/-- The event in the hand of the event thread. -/
def hand (t : Transport ε) : List ε :=
  match t.eventThread with
  | .delivering event => [event]
  | _ => []

/-- The events on their way to `@event_queue`, the next one to be pushed first. -/
def undelivered (t : Transport ε) : List ε :=
  t.hand ++ t.queue

end Transport

/-- The transport of one handle. -/
def transport (ε : Type) : System (Transport ε) (TransportAct ε) where
  Init t := t = Transport.initial
  Enabled := Transport.Enabled
  next := Transport.next

namespace Transport

variable {ε : Type} {t : Transport ε}

theorem enabled_shutDown (t : Transport ε) : t.Enabled .shutDown := trivial

/-! ## What each step does to the events -/

@[simp] theorem undelivered_initial : (initial : Transport ε).undelivered = [] := rfl

theorem undelivered_start (h : t.Enabled .start) :
    (t.next .start).undelivered = t.undelivered := by
  have hpc : t.eventThread = .starting := h
  cases hshut : t.shuttingDown <;> simp [undelivered, hand, next, hpc, hshut]

/-- Taking an event out of the list moves it into the event thread's hand. -/
theorem undelivered_dequeue (h : t.Enabled .dequeue) :
    (t.next .dequeue).undelivered = t.undelivered := by
  have hpc : t.eventThread = .iterating := h
  cases hq : t.queue <;> simp [undelivered, hand, next, zkrbDequeue, hpc, hq]

theorem undelivered_checkShutdown (h : t.Enabled .checkShutdown) :
    (t.next .checkShutdown).undelivered = t.undelivered := by
  have hpc : t.eventThread = .foundEmpty := h
  cases hshut : t.shuttingDown <;> simp [undelivered, hand, next, hpc, hshut]

theorem undelivered_push {event : ε} (h : t.eventThread = .delivering event) :
    t.undelivered = event :: (t.next .push).undelivered := by
  simp [undelivered, hand, next, h]

@[simp] theorem undelivered_enqueue (event : ε) :
    (t.next (.enqueue event)).undelivered = t.undelivered ++ [event] := by
  simp [undelivered, hand, next]

@[simp] theorem undelivered_shutDown : (t.next .shutDown).undelivered = t.undelivered := rfl

@[simp] theorem undelivered_close : (t.next .close).undelivered = t.undelivered := rfl

theorem hand_of_exited (h : t.eventThread = .exited) : t.hand = [] := by
  simp [hand, h]

/-- The steps of the event thread that neither push nor take part in a shutdown. -/
def Internal : TransportAct ε → Prop
  | .start | .dequeue | .checkShutdown => True
  | _ => False

/-- An internal step of the event thread leaves the events in their order. -/
theorem undelivered_internal {act : TransportAct ε} (hact : Internal act)
    (h : t.Enabled act) : (t.next act).undelivered = t.undelivered := by
  cases act with
  | start => exact undelivered_start h
  | dequeue => exact undelivered_dequeue h
  | checkShutdown => exact undelivered_checkShutdown h
  | _ => exact hact.elim

theorem closed_internal {act : TransportAct ε} (hact : Internal act) :
    (t.next act).closed = t.closed := by
  cases act with
  | dequeue => cases hq : t.queue <;> simp [next, zkrbDequeue, hq]
  | start | checkShutdown => rfl
  | _ => exact hact.elim

theorem freed_internal {act : TransportAct ε} (hact : Internal act) :
    (t.next act).freed = t.freed := by
  cases act with
  | dequeue => cases hq : t.queue <;> simp [next, zkrbDequeue, hq]
  | start | checkShutdown => rfl
  | _ => exact hact.elim

theorem undelivered_free (h : t.Enabled .free) : (t.next .free).undelivered = [] := by
  simp [undelivered, hand, next, h.1]

/-! ## The end of a handle -/

theorem shuttingDown_next (h : t.shuttingDown = true) (act : TransportAct ε) :
    (t.next act).shuttingDown = true := by
  cases act with
  | shutDown => rfl
  | dequeue => cases hq : t.queue <;> simp [next, zkrbDequeue, hq, h]
  | _ => exact h

theorem closed_next (h : t.closed = true) (act : TransportAct ε) :
    (t.next act).closed = true := by
  cases act with
  | close => rfl
  | dequeue => cases hq : t.queue <;> simp [next, zkrbDequeue, hq, h]
  | _ => exact h

theorem freed_next (h : t.freed = true) (act : TransportAct ε) : (t.next act).freed = true := by
  cases act with
  | free => rfl
  | dequeue => cases hq : t.queue <;> simp [next, zkrbDequeue, hq, h]
  | _ => exact h

/-- The event thread has ended before the handle is closed, and the queue of a closed handle is
empty once it is freed. -/
structure Orderly (t : Transport ε) : Prop where
  exited_of_closed : t.closed = true → t.eventThread = .exited
  closed_of_freed : t.freed = true → t.closed = true
  queue_of_freed : t.freed = true → t.queue = []

theorem orderly_next (h : t.Orderly) {act : TransportAct ε} (hen : t.Enabled act) :
    (t.next act).Orderly := by
  have hopen (hpc : t.eventThread ≠ .exited) : t.closed = false := by
    by_contra hc
    exact hpc (h.exited_of_closed (by simpa using hc))
  have hkept (hpc : t.eventThread ≠ .exited) : t.freed = false := by
    by_contra hf
    simpa [hopen hpc] using h.closed_of_freed (by simpa using hf)
  -- a step of the event thread is one before the close, and changes no flag
  have hlive (t' : Transport ε) (hpc : t.eventThread ≠ .exited) (hclosed : t'.closed = t.closed)
      (hfreed : t'.freed = t.freed) : t'.Orderly := by
    constructor <;> simp [hclosed, hfreed, hopen hpc, hkept hpc]
  cases act with
  | start =>
    have hpc : t.eventThread = .starting := hen
    exact hlive _ (by simp [hpc]) rfl rfl
  | dequeue =>
    have hpc : t.eventThread = .iterating := hen
    cases hq : t.queue <;> exact hlive _ (by simp [hpc]) (by simp [next, zkrbDequeue, hq])
      (by simp [next, zkrbDequeue, hq])
  | checkShutdown =>
    have hpc : t.eventThread = .foundEmpty := hen
    exact hlive _ (by simp [hpc]) rfl rfl
  | push =>
    obtain ⟨event, hpc⟩ := hen
    exact hlive _ (by simp [hpc]) rfl rfl
  | enqueue event =>
    have hfreed : t.freed = false := hen
    refine ⟨h.exited_of_closed, h.closed_of_freed, fun hf => ?_⟩
    simp [next, hfreed] at hf
  | shutDown => exact ⟨h.exited_of_closed, h.closed_of_freed, h.queue_of_freed⟩
  | close => exact ⟨fun _ => hen.1, fun _ => rfl, h.queue_of_freed⟩
  | free => exact ⟨fun _ => hen.1, fun _ => hen.2.1, fun _ => rfl⟩

/-- Whatever happens to a closed handle, its queue can be freed until it is. -/
theorem enabled_free_next (h : t.Enabled .free) {act : TransportAct ε} (hen : t.Enabled act)
    (hact : act ≠ .free) : (t.next act).Enabled .free := by
  obtain ⟨hexited, hclosed, hfreed⟩ := h
  cases act with
  | start | dequeue | checkShutdown | push => simp [Enabled, hexited] at hen
  | enqueue | shutDown => exact ⟨hexited, hclosed, hfreed⟩
  | close => exact ⟨hexited, rfl, hfreed⟩
  | free => exact absurd rfl hact

theorem orderly_of_reachable (h : (transport ε).Reachable System.anyStep t) : t.Orderly := by
  refine h.invariant ?_ fun _ _ ht hen _ => orderly_next ht hen
  rintro _ rfl
  constructor <;> simp [initial]

end Transport

/-! ## The event loop refines the transport -/

namespace Loop

variable {ε : Type} {cap : ℕ}

/-- The transport of a loop: the pipe and the mutex are forgotten, and waiting for the pipe
counts as the start of the next iteration. -/
def toTransport (s : Loop ε) : Transport ε where
  queue := s.queue
  eventThread :=
    match s.pc with
    | .starting => .starting
    | .dequeue | .parked | .readable => .iterating
    | .foundEmpty => .foundEmpty
    | .delivering event => .delivering event
    | .exited => .exited
  shuttingDown := s.shuttingDown
  closed := false
  freed := false

@[simp] theorem toTransport_writeByte (w : Writer) (s : Loop ε) :
    (s.writeByte cap w).toTransport = s.toTransport := by
  unfold writeByte
  split <;> rfl

/-- A step of the loop is the transport's step of the same name, or concerns the pipe only. -/
theorem toTransport_next {s : Loop ε} {a : LoopAct ε} (hen : Enabled cap s a) :
    (s.next cap a).toTransport = s.toTransport ∨
      (transport ε).Step System.anyStep s.toTransport (s.next cap a).toTransport := by
  have step (b : TransportAct ε) (hb : s.toTransport.Enabled b)
      (heq : (s.next cap a).toTransport = s.toTransport.next b) :
      (transport ε).Step System.anyStep s.toTransport (s.next cap a).toTransport := by
    rw [heq]
    exact System.step_intro (transport ε) b hb trivial
  cases a with
  | setRunning => exact Or.inl rfl
  | start =>
    refine Or.inr (step .start (by simp [Transport.Enabled, toTransport, hen.1]) ?_)
    cases hshut : s.shuttingDown <;> simp [next, toTransport, Transport.next, hshut]
  | dequeue =>
    refine Or.inr (step .dequeue (by simp [Transport.Enabled, toTransport, hen.1]) ?_)
    cases hq : s.queue <;> simp [next, zkrbDequeue, toTransport, Transport.next,
      Transport.zkrbDequeue, hq]
  | checkShutdown =>
    have hpc : s.pc = .foundEmpty := hen
    refine Or.inr (step .checkShutdown (by simp [Transport.Enabled, toTransport, hpc]) ?_)
    cases hshut : s.shuttingDown <;> simp [next, toTransport, Transport.next, hshut]
  -- waiting and reading are not seen in the abstract transport
  | wake => exact Or.inl (by simp [next, toTransport, hen.1])
  | read => exact Or.inl (by simp [next, toTransport, hen.1])
  | push =>
    obtain ⟨event, hpc⟩ := hen
    exact Or.inr (step .push ⟨event, by simp [toTransport, hpc]⟩ rfl)
  | enqueue event =>
    refine Or.inr (step (.enqueue event) rfl ?_)
    simp only [next, zkrbEnqueue, toTransport_writeByte]
    rfl
  | signal =>
    left
    simp only [next, zkrbSignal, toTransport_writeByte]
    rfl
  | finishWrite => exact Or.inl rfl
  | shutDown => exact Or.inr (step .shutDown trivial rfl)

/-- Every run of the event loop is a run of the transport. -/
theorem reachable_transport {s : Loop ε} (h : (eventLoop ε cap).Reachable System.anyStep s) :
    (transport ε).Reachable System.anyStep s.toTransport := by
  refine h.map toTransport ?_ fun s a hen _ => toTransport_next hen
  rintro _ rfl
  rfl

end Loop

end ZookeeperClient
