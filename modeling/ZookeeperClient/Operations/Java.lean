import ZookeeperClient.Operations.Native
import ZookeeperClient.Java.Callbacks

/-!
# The operations of the Java backend

The methods of `java/zookeeper_base.rb` that the operations call. The Java client accepts the
argument types of its published signatures; what the server answers to a request is a parameter.
A `KeeperException` carries the code of a failure, and `handle_keeper_exception` returns it.
Anything else that is raised reaches the caller.

## Main definitions

- `Reply`, `ServerOutcome` — what the server answers
- `JavaCallback` — the callback classes of `JavaCB`
- `fromRubyAcl` — `JZKD::ACL.from_ruby_acl`
- `JavaClient.get` to `JavaClient.getAcl` — the methods
- `JavaClient.base` — the Java backend
-/

namespace ZookeeperClient

/-- A code that is not `ZOK`. -/
abbrev ErrorCode := { code : ℤ // code ≠ ZOK }

/-- A successful answer of the server. Each operation reads the fields that its response has. -/
structure Reply where
  /-- `none` is a node without data. -/
  data : Option Bytes
  stat : Stat
  children : List Bytes
  /-- Relative to the chroot. -/
  path : Bytes
  acls : List ACL

/-- What comes of a request at the server. -/
inductive ServerOutcome where
  | ok (reply : Reply)
  | failed (code : ErrorCode)

/-- The class of a callback object of `JavaCB`, or the interface that the Java client asks
for. -/
inductive JavaCallback where
  | data
  | string
  | stat
  | children2
  | acl
  | void
  deriving DecidableEq, Repr

/-- The code of a node that does not exist. -/
def ZNONODE : ℤ := -101

/-! ## Conversions -/

/-- A value passed as a path. No method accepts `null` there. -/
def javaPath : RubyValue → Except OperationError Bytes
  | .str bytes => .ok bytes
  | _ => .error .typeError

/-- A value passed as an `int`. -/
def javaInt : RubyValue → Except OperationError ℤ
  | .int n => checkInt n
  | _ => .error .typeError

def toJavaBytes : RubyValue → Except OperationError Bytes
  | .str bytes => .ok bytes
  | _ => .error .noMethodError

/-- `String.from_java_bytes`. -/
def fromJavaBytes : Option Bytes → Except OperationError Bytes
  | some bytes => .ok bytes
  | none => .error .typeError

/-- `JZKD::ACL.from_ruby_acl`. Every object has `to_s`. -/
def fromRubyAcl : RubyValue → Except OperationError (ℤ × RubyValue × RubyValue)
  | .acl perms (.aclId scheme id) =>
    match perms.toI with
    | some n => do
      let n ← checkInt n
      return (n, scheme, id)
    | none => .error .noMethodError
  | .acl _ _ => .error .noMethodError
  | _ => .error .typeError

/-- `setup_call`, where nothing overrides `setup_completion`. -/
def Requests.setupCallJava (opts : ReqHash) (t : Requests) : Requests :=
  let reqId := t.currentReqId
  let t := { t with currentReqId := t.currentReqId + 1 }
  let t := if opts.callback.isSome then setupCompletion reqId opts t else t
  if opts.watcher.isSome then setupWatcher reqId opts t else t

/-! ## The methods -/

/-- The state of the Java backend that an operation finds. -/
structure JavaClient where
  connected : Bool
  outcome : ServerOutcome

namespace JavaClient

variable (j : JavaClient)

/-- `assert_open` of `java/zookeeper_base.rb`. -/
def assertOpen : Except OperationError Unit :=
  if j.connected then .ok () else .error .notConnected

/-- An asynchronous call: the Java client asks for `expected` and is passed `passed`. -/
def async (expected passed : JavaCallback) :
    Except OperationError (BaseReturn × Option JavaCallback) :=
  if expected = passed then .ok ({ rc := ZOK }, some passed) else .error .typeError

/-- A synchronous call: what becomes of a successful answer, or the code of the exception. -/
def sync (rest : Reply → Except OperationError BaseReturn) :
    Except OperationError (BaseReturn × Option JavaCallback) :=
  match j.outcome with
  | .ok reply => do
    let ret ← rest reply
    return (ret, none)
  | .failed code => .ok ({ rc := code }, none)

def get (path callback : RubyValue) :
    Except OperationError (BaseReturn × Option JavaCallback) := do
  let _ ← javaPath path
  if callback.truthy then async .data .data
  else j.sync fun reply => do
    let data ← fromJavaBytes reply.data
    return { rc := ZOK, data := some data, stat := javaStatValue (some reply.stat) }

/-- `set`. The operation has set the default of the version already. -/
def set (path data callback version : RubyValue) :
    Except OperationError (BaseReturn × Option JavaCallback) := do
  let _ ← toJavaBytes data
  let _ ← javaPath path
  let _ ← javaInt (if version.truthy then version else .int (-1))
  if callback.truthy then async .stat .stat
  else j.sync fun reply => return { rc := ZOK, stat := javaStatValue (some reply.stat) }

def getChildren (path callback : RubyValue) :
    Except OperationError (BaseReturn × Option JavaCallback) := do
  let _ ← javaPath path
  if callback.truthy then async .children2 .children2
  else j.sync fun reply =>
    return { rc := ZOK, children := some reply.children, stat := javaStatValue (some reply.stat) }

/-- `create`. `CreateMode.fromFlag` knows all four values of the flags. -/
def create (path data callback acl : RubyValue) :
    Except OperationError (BaseReturn × Option JavaCallback) := do
  let _ ← acl.toArray.mapM fromRubyAcl
  let _ ← toJavaBytes (if data.truthy then data else .str [])
  let _ ← javaPath path
  if callback.truthy then async .string .string
  else j.sync fun reply => return { rc := ZOK, path := some reply.path }

/-- `sync`. -/
def syncPath (path : RubyValue) : Except OperationError (BaseReturn × Option JavaCallback) := do
  let _ ← javaPath path
  async .void .void

def delete (path version callback : RubyValue) :
    Except OperationError (BaseReturn × Option JavaCallback) := do
  let _ ← javaPath path
  let _ ← javaInt version
  if callback.truthy then async .void .void
  else j.sync fun _ => return { rc := ZOK }

/-- `set_acl`. `setACL` asks for a `StatCallback`. -/
def setAcl (path acl callback version : RubyValue) :
    Except OperationError (BaseReturn × Option JavaCallback) := do
  let _ ← (RubyValue.flatten acl.toArray).mapM fromRubyAcl
  let _ ← javaPath path
  let _ ← javaInt version
  if callback.truthy then async .stat .acl
  else j.sync fun _ => return { rc := ZOK }

/-- `exists`. The Java client returns `null` for a node that does not exist. -/
def existsNode (path callback : RubyValue) :
    Except OperationError (BaseReturn × Option JavaCallback) := do
  let _ ← javaPath path
  if callback.truthy then async .stat .stat
  else
    match j.outcome with
    | .failed ⟨code, _⟩ =>
      return ({ rc := if code = ZNONODE then ZOK else code }, none)
    | .ok reply => return ({ rc := ZOK, stat := javaStatValue (some reply.stat) }, none)

def getAcl (path callback : RubyValue) :
    Except OperationError (BaseReturn × Option JavaCallback) := do
  let _ ← javaPath path
  if callback.truthy then async .acl .acl
  else j.sync fun reply =>
    return { rc := ZOK, acl := some (reply.acls.map jzkdACLToHash),
             stat := javaStatValue (some reply.stat) }

/-- The Java backend. -/
def base : ZookeeperBase JavaCallback where
  assertOpen := j.assertOpen
  setupCall _ := Requests.setupCallJava
  get _ path callback _ := j.get path callback
  set _ path data callback version := j.set path data callback version
  getChildren _ path callback _ := j.getChildren path callback
  exists' _ path callback _ := j.existsNode path callback
  create _ path data callback acl _ := j.create path data callback acl
  delete _ path version callback := j.delete path version callback
  sync _ path := JavaClient.syncPath path
  setAcl _ path acl callback version := j.setAcl path acl callback version
  getAcl _ path callback := j.getAcl path callback

end JavaClient

end ZookeeperClient
