import ZookeeperClient.Ruby.Event
import Mathlib.Data.List.TakeDrop
import Mathlib.Logic.Function.Basic

/-!
# The request tables of a client

`setup_call` of `lib/zookeeper/common.rb` numbers a request and registers its
callback in `@completion_reqs` and its watcher in `@watcher_reqs`, both under the
request's id. `get_completion` and `get_watcher` take a registration out again when
an event carrying the id is dispatched.

The options hash of a caller and the entries of the two tables are Ruby hashes with
keys in common, and `dispatch_next_callback` hands an entry to a method written for an
options hash. All of them are therefore one type, `ReqHash`, in which an absent key
reads as `nil`.

## Main definitions

- `Handler` — the value of `:callback` or `:watcher`
- `ReqHash`, `Requests` — the hashes and the two tables with the request counter
- `Requests.setupCall` — `setup_call`
- `Requests.getCompletion`, `Requests.getWatcher` — the lookups of the dispatcher
- `Requests.flush` — what `reopen` does to the tables
-/

namespace ZookeeperClient

/-! ## Handlers -/

/-- The text of the host argument from its first `/` on. -/
def chrootPath (host : Bytes) : Bytes :=
  host.dropWhile (· ≠ 47)

def stripChrootFrom (host : Bytes) (path : Option Bytes) : Option Bytes :=
  path.map fun p =>
    if chrootPath host ≠ [] ∧ (chrootPath host).isPrefixOf p then
      p.drop (chrootPath host).length
    else p

section StripChroot

variable {host p : Bytes}

theorem stripChrootFrom_append (host p : Bytes) :
    stripChrootFrom host (some (chrootPath host ++ p)) = some p := by
  by_cases hc : chrootPath host = []
  · simp [stripChrootFrom, hc]
  · simp [stripChrootFrom, hc]

theorem stripChrootFrom_of_not_below (h : chrootPath host = [] ∨ ¬chrootPath host <+: p) :
    stripChrootFrom host (some p) = some p := by
  obtain h | h := h
  · simp [stripChrootFrom, h]
  · simp [stripChrootFrom, h]

/-- A path that has been cut off to fit in a buffer, with its terminator: what is left after
`strip_chroot_from` is the path below the chroot when all of it has fitted, or when a chroot that
fills the buffer by itself is followed by the same bytes again. -/
theorem stripChrootFrom_take_iff (host p : Bytes) {size : ℕ} (hsize : 0 < size) :
    stripChrootFrom host (some ((chrootPath host ++ p).take (size - 1))) = some p ↔
      (chrootPath host ++ p).length < size ∨
        size ≤ (chrootPath host).length ∧ p = (chrootPath host).take (size - 1) := by
  rw [List.length_append]
  by_cases hlen : (chrootPath host).length < size
  · -- the chroot is in the buffer, and with it the beginning of the path
    have htake : (chrootPath host ++ p).take (size - 1) =
        chrootPath host ++ p.take (size - 1 - (chrootPath host).length) := by
      rw [List.take_append, List.take_of_length_le (by omega)]
    rw [htake, stripChrootFrom_append, Option.some_inj, List.take_eq_self_iff]
    omega
  · -- the buffer holds a piece of the chroot, which is no chroot to be removed
    have htake : (chrootPath host ++ p).take (size - 1) = (chrootPath host).take (size - 1) := by
      rw [List.take_append_of_le_length (by omega)]
    have hnot : ¬chrootPath host <+: (chrootPath host).take (size - 1) := by
      intro hpre
      have hle := hpre.length_le
      rw [List.length_take] at hle
      omega
    rw [htake, stripChrootFrom_of_not_below (Or.inr hnot), Option.some_inj]
    constructor
    · intro hsame
      exact Or.inr ⟨by omega, hsame.symm⟩
    · rintro (hshort | ⟨-, hp⟩)
      · omega
      · exact hp.symm

end StripChroot

/-- The value of `:callback` or `:watcher` in a hash: an object of the user, or the lambda
in which `setup_completion` of `ext/zookeeper_base.rb` wraps the callback of a `create`. -/
inductive Handler where
  | user (obj : Obj)
  | stripping (cb : Handler)
  deriving DecidableEq, Repr

/-- The user's object that a handler finally calls. -/
def Handler.callee : Handler → Obj
  | .user obj => obj
  | .stripping cb => cb.callee

/-- `respond_to?(:call)`; a lambda always does. -/
def Handler.respondToCall : Handler → Bool
  | .user obj => obj.callable
  | .stripping _ => true

/-- The hash that reaches the user's object when the handler is called with `hash`. -/
def Handler.passed (host : Bytes) : Handler → CallbackHash → CallbackHash
  | .user _, hash => hash
  | .stripping cb, hash =>
    cb.passed host { hash with string := some (stripChrootFrom host (hash.string.getD none)) }

/-- One call of a user's object. -/
structure Invocation where
  callee : Obj
  hash : CallbackHash

/-- `callback.call(hash)`: the call of the user's object, or `NoMethodError` when the object
inside the lambda has no method `call`. -/
def Handler.call (host : Bytes) (cb : Handler) (hash : CallbackHash) :
    Except RubyError Invocation :=
  if cb.callee.callable then .ok ⟨cb.callee, cb.passed host hash⟩ else .error .noMethodError

/-! ## Tables -/

/-- The Ruby hashes of a request: options of a call and entries of the tables. -/
structure ReqHash where
  callback : Option Handler := none
  callbackContext : Option Obj := none
  watcher : Option Handler := none
  watcherContext : Option Obj := none
  context : Option Obj := none
  deriving DecidableEq, Repr

/-- The operations of a client. -/
inductive Meth where
  | get | set | getChildren | stat | create | delete | sync | setAcl | getAcl
  deriving DecidableEq, Repr

/-- `@current_req_id`, `@completion_reqs` and `@watcher_reqs`. -/
structure Requests where
  currentReqId : ℤ
  completionReqs : ℤ → Option ReqHash
  watcherReqs : ℤ → Option ReqHash

namespace Requests

def setupWatcher (reqId : ℤ) (callOpts : ReqHash) (t : Requests) : Requests :=
  { t with
    watcherReqs := Function.update t.watcherReqs reqId
      (some { watcher := callOpts.watcher, context := callOpts.watcherContext }) }

/-- `setup_completion` of `lib/zookeeper/common.rb`. -/
def setupCompletion (reqId : ℤ) (callOpts : ReqHash) (t : Requests) : Requests :=
  { t with
    completionReqs := Function.update t.completionReqs reqId
      (some { callback := callOpts.callback, context := callOpts.callbackContext }) }

/-- The change that `setup_completion` of `ext/zookeeper_base.rb` makes to the caller's
hash: the callback of a `create` is wrapped in place. -/
def wrapCallback (methName : Meth) (callOpts : ReqHash) : ReqHash :=
  if methName = .create then
    { callOpts with callback := callOpts.callback.map .stripping }
  else callOpts

/-- `setup_call`; the id it returns is the counter's value before the call. -/
def setupCall (methName : Meth) (opts : ReqHash) (t : Requests) : Requests :=
  let reqId := t.currentReqId
  let t := { t with currentReqId := t.currentReqId + 1 }
  let t := if opts.callback.isSome then
      setupCompletion reqId (wrapCallback methName opts) t
    else t
  if opts.watcher.isSome then setupWatcher reqId opts t else t

/-- `get_watcher`: the entry of the global watcher stays in the table. -/
def getWatcher (reqId : ℤ) (t : Requests) : Option ReqHash × Requests :=
  (t.watcherReqs reqId,
    if reqId = ZKRB_GLOBAL_CB_REQ then t
    else { t with watcherReqs := Function.update t.watcherReqs reqId none })

def getCompletion (reqId : ℤ) (t : Requests) : Option ReqHash × Requests :=
  (t.completionReqs reqId,
    { t with completionReqs := Function.update t.completionReqs reqId none })

/-- `@watcher_reqs.clear` followed by `set_default_global_watcher`. -/
def flush (defaultWatcher : Handler) (t : Requests) : Requests :=
  { t with
    watcherReqs := Function.update (fun _ => none) ZKRB_GLOBAL_CB_REQ
      (some { watcher := some defaultWatcher }) }

/-- The tables of a client whose constructor has returned. -/
def initial (defaultWatcher : Handler) : Requests :=
  flush defaultWatcher ⟨0, fun _ => none, fun _ => none⟩

/-! ## What each operation does to each field -/

variable (t : Requests) (reqId r : ℤ) (callOpts opts : ReqHash) (methName : Meth)
  (defaultWatcher : Handler)

@[simp] theorem currentReqId_setupWatcher :
    (t.setupWatcher reqId callOpts).currentReqId = t.currentReqId := rfl

@[simp] theorem completionReqs_setupWatcher :
    (t.setupWatcher reqId callOpts).completionReqs = t.completionReqs := rfl

@[simp] theorem currentReqId_getWatcher :
    (t.getWatcher reqId).2.currentReqId = t.currentReqId := by
  unfold getWatcher
  split <;> rfl

@[simp] theorem completionReqs_getWatcher :
    (t.getWatcher reqId).2.completionReqs = t.completionReqs := by
  unfold getWatcher
  split <;> rfl

@[simp] theorem currentReqId_getCompletion :
    (t.getCompletion reqId).2.currentReqId = t.currentReqId := rfl

@[simp] theorem watcherReqs_getCompletion :
    (t.getCompletion reqId).2.watcherReqs = t.watcherReqs := rfl

@[simp] theorem currentReqId_flush : (t.flush defaultWatcher).currentReqId = t.currentReqId := rfl

@[simp] theorem completionReqs_flush :
    (t.flush defaultWatcher).completionReqs = t.completionReqs := rfl

@[simp] theorem currentReqId_setupCall :
    (t.setupCall methName opts).currentReqId = t.currentReqId + 1 := by
  unfold setupCall
  split <;> split <;> rfl

/-- A call registers its completion under the id it is given. -/
theorem completionReqs_setupCall :
    (t.setupCall methName opts).completionReqs =
      if opts.callback.isSome then
        Function.update t.completionReqs t.currentReqId
          (some { callback := (wrapCallback methName opts).callback,
                  context := opts.callbackContext })
      else t.completionReqs := by
  unfold setupCall wrapCallback setupCompletion
  split <;> split <;> first | rfl | (split <;> rfl)

/-- A call registers its watcher under the id it is given. -/
theorem watcherReqs_setupCall :
    (t.setupCall methName opts).watcherReqs =
      if opts.watcher.isSome then
        Function.update t.watcherReqs t.currentReqId
          (some { watcher := opts.watcher, context := opts.watcherContext })
      else t.watcherReqs := by
  unfold setupCall
  split <;> split <;> rfl

/-- A registered watcher is not touched by a lookup under another id. -/
theorem watcherReqs_getWatcher_of_ne (h : r ≠ reqId) :
    (t.getWatcher reqId).2.watcherReqs r = t.watcherReqs r := by
  unfold getWatcher
  split
  · rfl
  · exact Function.update_of_ne h _ _

theorem watcherReqs_getWatcher_self (h : reqId ≠ ZKRB_GLOBAL_CB_REQ) :
    (t.getWatcher reqId).2.watcherReqs reqId = none := by
  rw [getWatcher, if_neg h]
  exact Function.update_self ..

theorem completionReqs_getCompletion_of_ne (h : r ≠ reqId) :
    (t.getCompletion reqId).2.completionReqs r = t.completionReqs r :=
  Function.update_of_ne h _ _

theorem completionReqs_getCompletion_self :
    (t.getCompletion reqId).2.completionReqs reqId = none :=
  Function.update_self ..

theorem watcherReqs_setupWatcher_of_ne (h : r ≠ reqId) :
    (t.setupWatcher reqId callOpts).watcherReqs r = t.watcherReqs r :=
  Function.update_of_ne h _ _

theorem watcherReqs_setupWatcher_self :
    (t.setupWatcher reqId callOpts).watcherReqs reqId =
      some { watcher := callOpts.watcher, context := callOpts.watcherContext } :=
  Function.update_self ..

theorem completionReqs_setupCall_of_ne (h : r ≠ t.currentReqId) :
    (t.setupCall methName opts).completionReqs r = t.completionReqs r := by
  rw [completionReqs_setupCall]
  split
  · exact Function.update_of_ne h _ _
  · rfl

theorem watcherReqs_setupCall_of_ne (h : r ≠ t.currentReqId) :
    (t.setupCall methName opts).watcherReqs r = t.watcherReqs r := by
  rw [watcherReqs_setupCall]
  split
  · exact Function.update_of_ne h _ _
  · rfl

end Requests

/-- A handler calls the user's object with the context it was given. -/
@[simp] theorem Handler.context_passed (host : Bytes) (cb : Handler) (hash : CallbackHash) :
    (cb.passed host hash).context = hash.context := by
  induction cb generalizing hash with
  | user obj => rfl
  | stripping cb ih => exact ih _

@[simp] theorem Handler.reqId_passed (host : Bytes) (cb : Handler) (hash : CallbackHash) :
    (cb.passed host hash).reqId = hash.reqId := by
  induction cb generalizing hash with
  | user obj => rfl
  | stripping cb ih => exact ih _

@[simp] theorem Handler.rc_passed (host : Bytes) (cb : Handler) (hash : CallbackHash) :
    (cb.passed host hash).rc = hash.rc := by
  induction cb generalizing hash with
  | user obj => rfl
  | stripping cb ih => exact ih _

@[simp] theorem Handler.isCompletion_passed (host : Bytes) (cb : Handler)
    (hash : CallbackHash) : (cb.passed host hash).isCompletion = hash.isCompletion := by
  simp [EventHash.isCompletion]

/-- What is called, and with what, when a call does not raise. -/
theorem Handler.call_eq_ok {host : Bytes} {cb : Handler} {hash : CallbackHash}
    {inv : Invocation} (h : cb.call host hash = .ok inv) :
    cb.callee.callable = true ∧ inv.callee = cb.callee ∧ inv.hash = cb.passed host hash := by
  unfold Handler.call at h
  split at h
  · next hcall =>
    cases h
    exact ⟨hcall, rfl, rfl⟩
  · cases h

/-- A handler around an object that responds to `call` responds to `call` itself. -/
theorem Handler.respondToCall_of_callable {cb : Handler} (h : cb.callee.callable = true) :
    cb.respondToCall = true := by
  cases cb with
  | user obj => exact h
  | stripping cb => rfl

/-- The wrapper of a `create` ends in the object the caller passed. -/
@[simp] theorem Requests.callee_wrapCallback (methName : Meth) (opts : ReqHash) :
    (wrapCallback methName opts).callback.map Handler.callee =
      opts.callback.map Handler.callee := by
  unfold wrapCallback
  split
  · simp only [Option.map_map]
    rfl
  · rfl

end ZookeeperClient
