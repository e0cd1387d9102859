import ZookeeperClient.Operations.Java
import ZookeeperClient.Ruby.Dispatch

/-!
# The two backends side by side

The same operation with the same options on a client of each backend, while the server answers
the same. A synchronous call returns the answer; an asynchronous one returns at once, and the
answer comes as an event whose hash `dispatch_next_callback` hands to the callback. The two
backends should not be told apart by what is returned and what is handed over.

## Main definitions

- `CAnswer.ofOutcome`, `CompletionFn.event`, `JavaCallback.event` — how an answer of the server
  arrives in each backend
- `Handed`, `Observed` — what a callback and what a caller sees
- `Agree` — both backends return normally and show the same

## Main results

- `handed_eq_iff` — a callback is handed the same by both, but for a failed `get_acl`
-/

namespace ZookeeperClient

/-! ## How an answer arrives -/

/-- `MAX_ZNODE_SIZE`, the size of the buffer of a synchronous `get`. -/
def MAX_ZNODE_SIZE : ℕ := 1048576

/-- `sizeof(realpath)`, the buffer of a synchronous `create`. -/
def REALPATH_SIZE : ℕ := 16384

/-- The path as the server has it. -/
def serverPath (host : Bytes) (reply : Reply) : Bytes :=
  chrootPath host ++ reply.path

/-- The answer of a `zoo_` function to a call. A synchronous call fills its buffers as far as
they go; a submission is accepted. What is not read is left empty. -/
def CAnswer.ofOutcome (host : Bytes) (async : Bool) (outcome : ServerOutcome) : CAnswer :=
  let unset : CAnswer :=
    { rc := ZOK, data := none, stat := ⟨0, 0, 0, 0, 0, 0, 0, 0, 0, 0, 0⟩, strings := [],
      realpath := [], acls := [], accepted := async }
  if async then unset
  else
    match outcome with
    | .ok reply =>
      { unset with
        data := reply.data.map (List.take MAX_ZNODE_SIZE)
        stat := reply.stat
        strings := reply.children
        realpath := (serverPath host reply).take (REALPATH_SIZE - 1)
        acls := reply.acls }
    | .failed code => { unset with rc := code }

/-- The event that a completion function enqueues. On a failure the C client passes `NULL` for
everything but the code. -/
def CompletionFn.event (host : Bytes) (reqId : ℤ) (fn : CompletionFn) :
    ServerOutcome → ZkrbEvent
  | .ok reply =>
    { reqId := reqId
      rc := ZOK
      completion := match fn with
        | .data => .data reply.data (some reply.stat)
        | .stat => .stat (some reply.stat)
        | .string => .string (some (serverPath host reply))
        | .stringsStat => .stringsStat (some reply.children) (some reply.stat)
        | .acl => .acl (some reply.acls) (some reply.stat)
        | .void => .void }
  | .failed code =>
    { reqId := reqId
      rc := code
      completion := match fn with
        | .data => .data none none
        | .stat => .stat none
        | .string => .string none
        | .stringsStat => .stringsStat none none
        | .acl => .acl none none
        | .void => .void }

/-- The call of a callback object. The Java client strips the chroot itself; on a failure it
passes `null` for everything but the code and the path. -/
def JavaCallback.event (path : Option Bytes) (cb : JavaCallback) : ServerOutcome → JavaEvent
  | .ok reply =>
    match cb with
    | .data => .dataCallback ZOK path reply.data (some reply.stat)
    | .string => .stringCallback ZOK path (some reply.path)
    | .stat => .statCallback ZOK path (some reply.stat)
    | .children2 => .children2Callback ZOK path (some reply.children) (some reply.stat)
    | .acl => .aclCallback ZOK path (some reply.acls) (some reply.stat)
    | .void => .voidCallback ZOK path
  | .failed code =>
    match cb with
    | .data => .dataCallback code path none none
    | .string => .stringCallback code path none
    | .stat => .statCallback code path none
    | .children2 => .children2Callback code path none none
    | .acl => .aclCallback code path none none
    | .void => .voidCallback code path

/-! ## What is seen -/

/-- What a callback reads of its hash; a key that is absent reads as `nil`. -/
structure Handed where
  rc : Option ℤ
  data : Option Bytes
  string : Option Bytes
  strings : Option (List Bytes)
  acl : Option (List RubyACL)
  stat : Option ZookeeperStat

/-- The values that a callback reads. -/
def EventHash.handed (hash : CallbackHash) : Handed where
  rc := hash.rc
  data := hash.data.join
  string := hash.string.join
  strings := hash.strings.join
  acl := hash.acl.join
  stat := hash.stat

/-- What `dispatch_next_callback` hands to the callback of a request when it gets a hash. -/
def handedBy (host : Bytes) (debug : Bool) (raw : RawHash) (t : Requests) : Option Handed :=
  (dispatchNextCallback debug (some raw) t).called.bind fun (cb, hash) =>
    (cb.call host hash).toOption.map fun inv => inv.hash.handed

/-- What a caller sees of an operation. -/
structure Observed where
  returned : Returned
  /-- For a call with a callback: what the event hands to it, if it can be called. -/
  pushed : Option (Option Handed)

/-- A client with its connection and the log level. -/
structure Setting where
  /-- The host argument of the client. -/
  host : Bytes
  /-- The debug log is on. -/
  debug : Bool
  /-- The tables before the call. -/
  requests : Requests

section Observe

variable (s : Setting) (methName : Meth) (options : Options) (outcome : ServerOutcome)

/-- The C backend of a connected client, with the server's answer. -/
def nativeHandle : CHandle where
  host := s.host
  state := 3
  connected := true
  isOpen := true
  answer := .ofOutcome s.host (methName = .sync ∨ (options.get .callback).truthy = true) outcome

/-- The operation on the C backend. -/
def observeNative : Except OperationError Observed :=
  let run := (Zookeeper.operation _ methName).run (nativeHandle s methName options outcome).base
    options s.requests
  run.result.map fun (rv, fn) =>
    ⟨rv, fn.map fun fn => handedBy s.host s.debug
      (zkrbEventToRuby (fn.event s.host rv.reqId outcome)) run.requests⟩

/-- The operation on the Java backend. -/
def observeJava : Except OperationError Observed :=
  let run := (Zookeeper.operation _ methName).run (JavaClient.base ⟨true, outcome⟩) options
    s.requests
  run.result.map fun (rv, cb) =>
    ⟨rv, cb.map fun cb => handedBy s.host s.debug
      (JavaEvent.toRuby rv.reqId (cb.event (javaPath (options.get .path)).toOption outcome))
      run.requests⟩

/-- Both backends return normally, with the same result; and with a callback both push an event
that hands it the same. -/
def Agree : Prop :=
  ∃ seen, observeNative s methName options outcome = .ok seen ∧
    observeJava s methName options outcome = .ok seen ∧
    seen.pushed.isSome = (options.get .callback).truthy

end Observe

/-- The operations for which the backends are compared. -/
def Meth.compared : Meth → Bool
  | .stat | .sync => false
  | _ => true

/-! ## What is handed over -/

theorem named_of_eq_none {raw : RawHash} (htype : raw.type = none) (hstate : raw.state = none) :
    raw.Named := by
  simp only [EventHash.Named, prettifyEvent, htype, hstate]
  rfl

/-- A completion without a type, whose request has a callback. -/
theorem handedBy_eq {host : Bytes} {debug : Bool} {raw : RawHash} {t : Requests} {cb : Handler}
    {context : Option Obj} (hrc : raw.isCompletion = true) (htype : raw.type = none)
    (hstate : raw.state = none)
    (hentry : t.completionReqs raw.reqId = some { callback := some cb, context := context }) :
    handedBy host debug raw t =
      if cb.callee.callable then
        some (cb.passed host { raw.convert with context := context }).handed
      else none := by
  have hprelude : dispatchPrelude debug raw = .ok raw.convert :=
    dispatchPrelude_of_named fun _ => named_of_eq_none htype hstate
  have htake : takeEntry raw.convert t = t.getCompletion raw.reqId :=
    takeEntry_completion hrc t
  have hsession : raw.convert.isSession = false := by
    simp [EventHash.isSession, EventHash.convert, htype]
  rw [handedBy, dispatchNextCallback_of_ok hprelude (restoreEntry_of_not_session hsession _ _),
    htake]
  simp only [Requests.getCompletion, hentry, callbackOf, isCompletion_convert, hrc,
    Option.bind_some]
  cases hcall : cb.callee.callable with
  | true =>
    simp [Handler.respondToCall_of_callable hcall, Handler.call, hcall, Except.toOption]
  | false =>
    cases cb.respondToCall <;> simp [Handler.call, hcall, Except.toOption]

/-- The hash of a completion function is a completion without a type, under the request's id. -/
theorem completion_event (host : Bytes) (reqId : ℤ) (fn : CompletionFn) (outcome : ServerOutcome) :
    (zkrbEventToRuby (fn.event host reqId outcome)).isCompletion = true ∧
      (zkrbEventToRuby (fn.event host reqId outcome)).type = none ∧
      (zkrbEventToRuby (fn.event host reqId outcome)).state = none ∧
      (zkrbEventToRuby (fn.event host reqId outcome)).reqId = reqId := by
  cases outcome <;> cases fn <;> exact ⟨rfl, rfl, rfl, rfl⟩

theorem javaCompletion_event (path : Option Bytes) (reqId : ℤ) (cb : JavaCallback)
    (outcome : ServerOutcome) :
    (JavaEvent.toRuby reqId (cb.event path outcome)).isCompletion = true ∧
      (JavaEvent.toRuby reqId (cb.event path outcome)).type = none ∧
      (JavaEvent.toRuby reqId (cb.event path outcome)).state = none ∧
      (JavaEvent.toRuby reqId (cb.event path outcome)).reqId = reqId := by
  cases outcome <;> cases cb <;> exact ⟨rfl, rfl, rfl, rfl⟩

/-- The hash that the callback gets: that of a `create` of the C backend is wrapped. -/
def wrapped (host : Bytes) (methName : Meth) (hash : CallbackHash) : CallbackHash :=
  if methName = .create then
    { hash with string := some (stripChrootFrom host (hash.string.getD none)) }
  else hash

section HandedAfterCall

variable (s : Setting) (methName : Meth) {options : Options} {cb : Obj}
  (hcb : options.obj .callback = some cb)

include hcb

theorem handedBy_setupCall (fn : CompletionFn) (outcome : ServerOutcome) :
    handedBy s.host s.debug
        (zkrbEventToRuby (fn.event s.host s.requests.currentReqId outcome))
        (s.requests.setupCall methName options.toReqHash) =
      if cb.callable then
        some (wrapped s.host methName
          (zkrbEventToRuby (fn.event s.host s.requests.currentReqId outcome)).convert).handed
      else none := by
  obtain ⟨hrc, htype, hstate, hid⟩ :=
    completion_event s.host s.requests.currentReqId fn outcome
  have hhandler : (Requests.wrapCallback methName options.toReqHash).callback =
      some (if methName = .create then .stripping (.user cb) else .user cb) := by
    unfold Requests.wrapCallback
    split <;> simp [Options.toReqHash, hcb]
  have hentry : (s.requests.setupCall methName options.toReqHash).completionReqs
      (zkrbEventToRuby (fn.event s.host s.requests.currentReqId outcome)).reqId =
      some { callback := some (if methName = .create then .stripping (.user cb) else .user cb),
             context := options.obj .callbackContext } := by
    rw [Requests.completionReqs_setupCall, hid, if_pos (by simp [Options.toReqHash, hcb]),
      Function.update_self, hhandler]
    rfl
  rw [handedBy_eq hrc htype hstate hentry]
  unfold wrapped
  by_cases hcreate : methName = .create
  · simp only [if_pos hcreate]
    rfl
  · simp only [if_neg hcreate]
    rfl

theorem handedBy_setupCallJava (path : Option Bytes) (jcb : JavaCallback)
    (outcome : ServerOutcome) :
    handedBy s.host s.debug
        (JavaEvent.toRuby s.requests.currentReqId (jcb.event path outcome))
        (s.requests.setupCallJava options.toReqHash) =
      if cb.callable then
        some (JavaEvent.toRuby s.requests.currentReqId
          (jcb.event path outcome)).convert.handed
      else none := by
  obtain ⟨hrc, htype, hstate, hid⟩ :=
    javaCompletion_event path s.requests.currentReqId jcb outcome
  have hentry : (s.requests.setupCallJava options.toReqHash).completionReqs
      (JavaEvent.toRuby s.requests.currentReqId (jcb.event path outcome)).reqId =
      some { callback := some (.user cb), context := options.obj .callbackContext } := by
    rw [hid]
    unfold Requests.setupCallJava
    simp only [Options.toReqHash, hcb, Option.map_some, Option.isSome_some, if_true]
    split <;> exact Function.update_self ..
  rw [handedBy_eq hrc htype hstate hentry]
  rfl

end HandedAfterCall

/-- The completion function and the callback class that an operation passes to the client. -/
def completionsOf : Meth → CompletionFn × JavaCallback
  | .get => (.data, .data)
  | .set | .stat => (.stat, .stat)
  | .getChildren => (.stringsStat, .children2)
  | .create => (.string, .string)
  | .delete => (.void, .void)
  | .sync => (.string, .void)
  | .setAcl => (.void, .acl)
  | .getAcl => (.acl, .acl)

/-- Both backends hand a callback the same, but for the empty array that the Java backend makes
of the missing ACL of a failed `get_acl`. -/
theorem handed_eq_iff {methName : Meth} (hm : methName.compared = true)
    (hsetAcl : methName ≠ .setAcl) (host : Bytes) (reqId : ℤ) (path : Option Bytes)
    (outcome : ServerOutcome) :
    (wrapped host methName (zkrbEventToRuby
        ((completionsOf methName).1.event host reqId outcome)).convert).handed =
      (JavaEvent.toRuby reqId ((completionsOf methName).2.event path outcome)).convert.handed ↔
    (methName = .getAcl → ∃ reply, outcome = .ok reply) := by
  cases outcome with
  | ok reply =>
    refine ⟨fun _ _ => ⟨reply, rfl⟩, fun _ => ?_⟩
    have hstat := zookeeperStat_new_eq (some reply.stat)
    cases methName with
    | create =>
      have hpath : stripChrootFrom host (some (serverPath host reply)) = some reply.path :=
        stripChrootFrom_append host reply.path
      simp [wrapped, completionsOf, CompletionFn.event, JavaCallback.event, zkrbEventToRuby,
        JavaEvent.toRuby, EventHash.convert, EventHash.handed, hpath]
    | getAcl =>
      have hacl : zkrbAclVectorToRuby reply.acls = reply.acls.map jzkdACLToHash := rfl
      simp [wrapped, completionsOf, CompletionFn.event, JavaCallback.event, zkrbEventToRuby,
        JavaEvent.toRuby, EventHash.convert, EventHash.handed, hstat, hacl]
    | get | set | getChildren | delete =>
      simp [wrapped, completionsOf, CompletionFn.event, JavaCallback.event, zkrbEventToRuby,
        JavaEvent.toRuby, EventHash.convert, EventHash.handed, hstat]
    | setAcl => exact absurd rfl hsetAcl
    | stat | sync => cases hm
  | failed code =>
    cases methName with
    | getAcl =>
      simp [wrapped, completionsOf, CompletionFn.event, JavaCallback.event, zkrbEventToRuby,
        JavaEvent.toRuby, EventHash.convert, EventHash.handed]
    | get | set | getChildren | create | delete =>
      refine iff_of_true ?_ (by simp)
      simp [wrapped, completionsOf, CompletionFn.event, JavaCallback.event, zkrbEventToRuby,
        JavaEvent.toRuby, EventHash.convert, EventHash.handed, statValue, javaStatValue,
        stripChrootFrom]
    | setAcl => exact absurd rfl hsetAcl
    | stat | sync => cases hm

end ZookeeperClient
