import ZookeeperClient.Ext.Transport
import ZookeeperClient.Ruby.Dispatch

/-!
# One client under concurrent use

The system of one `Zookeeper` object of the C backend: any number of threads that call
operations, the C client's threads, the event threads of all handles, the dispatch thread,
and `reopen`.

`@mutex` is held by `reopen` from its first step to its last, and by nobody else between
two steps: `setup_call`, `czk` and the lookup in `dispatch_next_callback` hold it for one
step each. What `reopen` does up to the replacement of `@czk` is one step, since nobody who
does not hold `@mutex` can tell its parts from each other.

The dispatch thread is alive throughout. A callback may return or raise, which is the same
here because the loop of the dispatch thread rescues every exception.

## Main definitions

- `CallPc`, `DispatcherPc`, `ReopenPc` — where the threads are
- `Client`, `ClientAct` — the state and the steps
- `client` — the system
- `Client.toDispatch`, `Client.line` — events on their way to a lookup, in order
-/

namespace ZookeeperClient

open Transition

/-- What the constructor and the logger's level fix. -/
structure Setup where
  /-- The debug log is on. -/
  debug : Bool
  host : Bytes
  defaultWatcher : Handler

inductive CallPc where
  | idle
  /-- `setup_call` has returned. -/
  | registered (reqId : ℤ) (methName : Meth) (opts : ReqHash)
  /-- `czk` has returned. -/
  | located (reqId : ℤ) (methName : Meth) (opts : ReqHash) (czk : ℕ)
  /-- The `zoo_*` function has returned, or the call has raised. -/
  | returned (reqId : ℤ)

/-- The id that `setup_call` has given to a call. -/
def CallPc.reqId : CallPc → Option ℤ
  | .idle => none
  | .registered reqId _ _ | .located reqId _ _ _ | .returned reqId => some reqId

/-- Where the dispatch thread is. -/
inductive DispatcherPc where
  /-- In `get_next_event`. -/
  | waiting
  /-- `dispatch_next_callback` has been called with `hash`. -/
  | received (hash : RawHash)
  /-- The lookup has returned `entry`. -/
  | taken (hash : CallbackHash) (entry : Option ReqHash)
  | running

/-- Where `reopen` is; `@mutex` is held unless it is `free`. -/
inductive ReopenPc where
  | free
  /-- `@czk` has been replaced; `orig_czk.close` begins. -/
  | replaced (orig : ℕ)
  /-- The event thread of `orig_czk` has been told to stop. -/
  | joining (orig : ℕ)
  /-- In `zookeeper_close` for `orig_czk`. -/
  | destroying (orig : ℕ)
  /-- In `wait_until_connected`. -/
  | connecting
  deriving DecidableEq, Repr

/-- The state of a client. -/
structure Client where
  requests : Requests
  czk : ℕ
  /-- The number of the next `CZookeeper`. -/
  nextCzk : ℕ
  transports : ℕ → Transport ZkrbEvent
  /-- The requests whose completion function the C client of a handle has yet to call. -/
  outstanding : ℕ → ℤ → Bool
  /-- The watches that the C client of a handle holds. -/
  watches : ℕ → ℤ → Bool
  eventQueue : List RawHash
  dispatcher : DispatcherPc
  reopening : ReopenPc
  calls : ℕ → CallPc
  /-- History: the method and the options with which an id was issued. -/
  issued : ℤ → Option (Meth × ReqHash)
  /-- History: the completion function of a request has been called. -/
  completed : ℤ → Bool
  /-- History: the calls of user objects by the dispatch thread. -/
  invocations : List Invocation
  /-- History: the handle on which the watch of a call has been installed. -/
  home : ℤ → Option ℕ
  /-- History: `dispatch_next_callback` has taken up the event that ends a watch. -/
  takenUp : ℤ → Bool

/-- The steps of a client. -/
inductive ClientAct where
  /-- `setup_call`, by call `i`. -/
  | setupCall (i : ℕ) (methName : Meth) (opts : ReqHash)
  /-- `czk`, by call `i`. -/
  | locate (i : ℕ)
  /-- The `zoo_*` function of call `i` accepts the request; `watched` says whether a watch is
  installed. -/
  | submit (i : ℕ) (watched : Bool)
  /-- Call `i` raises, or its `zoo_*` function returns an error code. -/
  | refuse (i : ℕ)
  /-- The C client calls a completion function. -/
  | complete (h : ℕ) (event : ZkrbEvent)
  /-- The C client reports an event to the watch of a request. -/
  | fire (h : ℕ) (event : ZkrbEvent)
  /-- The C client reports an event to the session's own watcher. -/
  | sessionEvent (h : ℕ) (event : ZkrbEvent)
  /-- An internal step of the event thread of a handle. -/
  | eventThread (h : ℕ) (act : TransportAct ZkrbEvent)
  /-- `@event_queue.push(hash)`, by the event thread of a handle. -/
  | push (h : ℕ)
  /-- `@event_queue.pop`. -/
  | pop
  /-- The debug log raises in `dispatch_next_callback`. -/
  | preludeRaises
  /-- `dispatch_next_callback`, up to `get_completion` or `get_watcher`. -/
  | lookup
  /-- `dispatch_next_callback`, up to the call of the callback. -/
  | proceed
  /-- The callback returns or raises. -/
  | callbackEnds
  /-- `reopen`, up to the replacement of `@czk`. -/
  | reopen
  /-- `reopen`, when `CZookeeper.new` raises. -/
  | reopenRaises
  /-- `shut_down!` and `wake_event_loop!` for `orig_czk`. -/
  | shutDown
  /-- `close_handle` of `orig_czk`, after its event thread has been joined. -/
  | zookeeperClose
  /-- `zookeeper_close` returns; `zkrb_queue_free`. -/
  | queueFree
  /-- `wait_until_connected` returns. -/
  | reopened

/-- The operation is asynchronous: `sync` always is. -/
def isAsync (methName : Meth) (opts : ReqHash) : Bool :=
  methName == .sync || opts.callback.isSome

namespace Client

/-- A client whose constructor has returned. -/
def initial (setup : Setup) : Client where
  requests := Requests.initial setup.defaultWatcher
  czk := 0
  nextCzk := 1
  transports := fun _ => Transport.initial
  outstanding := fun _ _ => false
  watches := fun _ _ => false
  eventQueue := []
  dispatcher := .waiting
  reopening := .free
  calls := fun _ => .idle
  issued := fun _ => none
  completed := fun _ => false
  invocations := []
  home := fun _ => none
  takenUp := fun _ => false

/-- A step of one handle's transport. -/
def step (h : ℕ) (act : TransportAct ZkrbEvent) (s : Client) : Client :=
  { s with transports := Function.update s.transports h ((s.transports h).next act) }

/-- Call `i` goes on to `pc`. -/
def callTo (i : ℕ) (pc : CallPc) (s : Client) : Client :=
  { s with calls := Function.update s.calls i pc }

/-- A request of a handle is recorded in `table`, or removed from it. -/
def mark (table : ℕ → ℤ → Bool) (h : ℕ) (r : ℤ) (b : Bool) : ℕ → ℤ → Bool :=
  Function.update table h (Function.update (table h) r b)

/-- What the C client remembers of an accepted request. -/
def accept (h : ℕ) (r : ℤ) (async watched : Bool) (s : Client) : Client :=
  { s with
    outstanding := if async then mark s.outstanding h r true else s.outstanding
    watches := if watched then mark s.watches h r true else s.watches
    home := if watched then Function.update s.home r (some h) else s.home }

/-- The history of watch events after `dispatch_next_callback` has been called with `hash`. -/
def takeUp (hash : RawHash) (s : Client) : ℤ → Bool :=
  if hash.isCompletion || hash.isSession then s.takenUp
  else Function.update s.takenUp hash.reqId true

/-- `dispatch_next_callback` after the lookup. -/
def dispatchTaken (host : Bytes) (hash : CallbackHash) (entry : Option ReqHash) (s : Client) :
    Client :=
  match restoreEntry hash entry s.requests with
  | .error _ => { s with dispatcher := .waiting }
  | .ok requests =>
    match callbackOf hash entry with
    | none => { s with requests := requests, dispatcher := .waiting }
    | some (callback, hash) =>
      match callback.call host hash with
      | .error _ => { s with requests := requests, dispatcher := .waiting }
      | .ok invocation =>
        { s with
          requests := requests
          dispatcher := .running
          invocations := s.invocations ++ [invocation] }

def Enabled (setup : Setup) (s : Client) : ClientAct → Prop
  | .setupCall i _ _ => s.calls i = .idle ∧ s.reopening = .free
  | .locate i => (∃ r m opts, s.calls i = .registered r m opts) ∧ s.reopening = .free
  | .submit i _ => ∃ r m opts h, s.calls i = .located r m opts h ∧ (s.transports h).closed = false
  | .refuse i => ∃ r m opts h, s.calls i = .located r m opts h
  | .complete h event =>
    s.outstanding h event.reqId = true ∧ event.completion.isWatcher = false ∧
      (s.transports h).Enabled (.enqueue event)
  | .fire h event =>
    s.watches h event.reqId = true ∧ event.completion.isWatcher = true ∧
      (s.transports h).Enabled (.enqueue event)
  | .sessionEvent h event =>
    h < s.nextCzk ∧ event.reqId = ZKRB_GLOBAL_CB_REQ ∧ event.completion.isWatcher = true ∧
      (s.transports h).Enabled (.enqueue event)
  | .eventThread h act =>
    h < s.nextCzk ∧ Transport.Internal act ∧ (s.transports h).Enabled act
  | .push h => (s.transports h).Enabled .push
  | .pop => s.dispatcher = .waiting ∧ s.eventQueue ≠ []
  | .preludeRaises =>
    ∃ hash e, s.dispatcher = .received hash ∧ dispatchPrelude setup.debug hash = .error e
  | .lookup =>
    (∃ hash hash', s.dispatcher = .received hash ∧
      dispatchPrelude setup.debug hash = .ok hash') ∧ s.reopening = .free
  | .proceed => ∃ hash entry, s.dispatcher = .taken hash entry
  | .callbackEnds => s.dispatcher = .running
  | .reopen => s.reopening = .free
  | .reopenRaises => s.reopening = .free
  | .shutDown => ∃ orig, s.reopening = .replaced orig
  | .zookeeperClose => ∃ orig, s.reopening = .joining orig ∧ (s.transports orig).Enabled .close
  | .queueFree => ∃ orig, s.reopening = .destroying orig ∧ (s.transports orig).Enabled .free
  | .reopened => s.reopening = .connecting

def next (setup : Setup) (s : Client) : ClientAct → Client
  | .setupCall i m opts =>
    let r := s.requests.currentReqId
    { s.callTo i (.registered r m opts) with
      requests := s.requests.setupCall m opts
      issued := Function.update s.issued r (some (m, opts)) }
  | .locate i =>
    match s.calls i with
    | .registered r m opts => s.callTo i (.located r m opts s.czk)
    | _ => s
  | .submit i watched =>
    match s.calls i with
    | .located r m opts h =>
      (s.callTo i (.returned r)).accept h r (isAsync m opts) (opts.watcher.isSome && watched)
    | _ => s
  | .refuse i =>
    match s.calls i with
    | .located r _ _ _ => s.callTo i (.returned r)
    | _ => s
  | .complete h event =>
    { s.step h (.enqueue event) with
      outstanding := mark s.outstanding h event.reqId false
      completed := Function.update s.completed event.reqId true }
  | .fire h event =>
    { s.step h (.enqueue event) with
      watches :=
        if (zkrbEventToRuby event).isSession then s.watches
        else mark s.watches h event.reqId false }
  | .sessionEvent h event => s.step h (.enqueue event)
  | .eventThread h act => s.step h act
  | .push h =>
    match (s.transports h).eventThread with
    | .delivering event =>
      { s.step h .push with eventQueue := s.eventQueue ++ [zkrbEventToRuby event] }
    | _ => s
  | .pop =>
    match s.eventQueue with
    | hash :: rest => { s with eventQueue := rest, dispatcher := .received hash }
    | [] => s
  | .preludeRaises =>
    match s.dispatcher with
    | .received hash => { s with dispatcher := .waiting, takenUp := s.takeUp hash }
    | _ => s
  | .lookup =>
    match s.dispatcher with
    | .received hash =>
      { s with
        requests := (takeEntry hash.convert s.requests).2
        dispatcher := .taken hash.convert (takeEntry hash.convert s.requests).1
        takenUp := s.takeUp hash }
    | _ => s
  | .proceed =>
    match s.dispatcher with
    | .taken hash entry => s.dispatchTaken setup.host hash entry
    | _ => s
  | .callbackEnds => { s with dispatcher := .waiting }
  | .reopen =>
    { s with
      requests := s.requests.flush setup.defaultWatcher
      czk := s.nextCzk
      nextCzk := s.nextCzk + 1
      transports := Function.update s.transports s.nextCzk Transport.initial
      outstanding := Function.update s.outstanding s.nextCzk fun _ => false
      watches := Function.update s.watches s.nextCzk fun _ => false
      reopening := .replaced s.czk }
  | .reopenRaises => { s with requests := s.requests.flush setup.defaultWatcher }
  | .shutDown =>
    match s.reopening with
    | .replaced orig => { s.step orig .shutDown with reopening := .joining orig }
    | _ => s
  | .zookeeperClose =>
    match s.reopening with
    | .joining orig => { s.step orig .close with reopening := .destroying orig }
    | _ => s
  | .queueFree =>
    match s.reopening with
    | .destroying orig => { s.step orig .free with reopening := .connecting }
    | _ => s
  | .reopened => { s with reopening := .free }

/-- The hashes that have been pushed but not looked up, the next one first. -/
def toDispatch (s : Client) : List RawHash :=
  match s.dispatcher with
  | .received hash => hash :: s.eventQueue
  | _ => s.eventQueue

/-- The events of a handle, and all events pushed before them, that have not been looked up. -/
def line (s : Client) (h : ℕ) : List RawHash :=
  s.toDispatch ++ (s.transports h).undelivered.map zkrbEventToRuby

end Client

/-- The system of one client. -/
def client (setup : Setup) : System Client ClientAct where
  Init s := s = Client.initial setup
  Enabled := Client.Enabled setup
  next := Client.next setup

end ZookeeperClient
