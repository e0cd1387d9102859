import ZookeeperClient.Operations.Defs
import Mathlib.Algebra.Ring.Int.Defs

/-!
# The operations of the C backend

The methods of `ext/zookeeper_c.c` that the operations call, and what `ext/zookeeper_base.rb`
adds to them. A method checks the types of its arguments, takes the handle, and calls a `zoo_`
function of the C client. The answer of that function is a parameter here.

## Main definitions

- `CompletionFn` — the completion functions of `ext/zookeeper_lib.c`
- `num2int`, `zkrbRubyToAclvector` and others — the conversions of arguments
- `CAnswer`, `CHandle` — what a method finds in the C client
- `CHandle.methodGet` to `CHandle.methodGetAcl` — the methods
- `CHandle.base` — the C backend
-/

namespace ZookeeperClient

/-- The completion function that an asynchronous call passes to the C client. -/
inductive CompletionFn where
  | data
  | stat
  | string
  | stringsStat
  | acl
  | void
  deriving DecidableEq, Repr

/-! ## Conversions -/

/-- `Check_Type(v, T_STRING)`; the bytes of the string. -/
def checkString : RubyValue → Except OperationError Bytes
  | .str bytes => .ok bytes
  | _ => .error .typeError

/-- The number fits into a C `int`. -/
def FitsInt (n : ℤ) : Prop :=
  -2 ^ 31 ≤ n ∧ n < 2 ^ 31

instance (n : ℤ) : Decidable (FitsInt n) :=
  inferInstanceAs (Decidable (_ ∧ _))

/-- A number as a C `int`. -/
def checkInt (n : ℤ) : Except OperationError ℤ :=
  if FitsInt n then .ok n else .error .rangeError

/-- `NUM2INT`, and `FIX2INT` on a value whose type has not been checked. -/
def num2int : RubyValue → Except OperationError ℤ
  | .int n | .other (some n) _ _ => checkInt n
  | _ => .error .typeError

/-- `Check_Type(v, T_FIXNUM)` and `FIX2INT`. -/
def fix2int : RubyValue → Except OperationError ℤ
  | .int n => if -2 ^ 62 ≤ n ∧ n < 2 ^ 62 then checkInt n else .error .typeError
  | _ => .error .typeError

/-- A string that `zkrb_ruby_to_id` copies, unless it is `nil`. `RSTRING_LEN` does not check
the type. -/
def rstring : RubyValue → Except OperationError (Option Bytes)
  | .nil => .ok none
  | .str bytes => .ok (some bytes)
  | _ => .error .undefined

/-- `zkrb_ruby_to_id`: an object without the instance variables has `nil` for both. -/
def zkrbRubyToId : RubyValue → Except OperationError (Option Bytes × Option Bytes)
  | .aclId scheme id => do
    let scheme ← rstring scheme
    let id ← rstring id
    return (scheme, id)
  | _ => .ok (none, none)

def zkrbRubyToAcl : RubyValue → Except OperationError (ℤ × Option Bytes × Option Bytes)
  | .acl perms id => do
    let perms ← num2int perms
    let id ← zkrbRubyToId id
    return (perms, id)
  | _ => do
    -- `@perms` is `nil`
    let perms ← num2int .nil
    return (perms, none, none)

def zkrbRubyToAclvector :
    RubyValue → Except OperationError (List (ℤ × Option Bytes × Option Bytes))
  | .array elems => elems.mapM zkrbRubyToAcl
  | _ => .error .typeError

/-- `if (v != Qnil)`, followed by a check or a conversion of `v`. -/
def unlessNil {α : Type} (f : RubyValue → Except OperationError α) :
    RubyValue → Except OperationError Unit
  | .nil => .ok ()
  | v => do
    let _ ← f v
    return ()

/-! ## The methods -/

/-- What a `zoo_` function returns, and what it leaves in the variables that a synchronous call
passes to it. -/
structure CAnswer where
  rc : ℤ
  /-- The buffer up to `data_len`; `none` if that is -1. -/
  data : Option Bytes
  stat : Stat
  strings : List Bytes
  /-- `realpath`, up to its terminator. -/
  realpath : Bytes
  acls : List ACL
  /-- The C client has accepted a completion or a watch. -/
  accepted : Bool

/-- The state of the C backend that an operation finds. -/
structure CHandle where
  /-- The host argument of the client, with the chroot. -/
  host : Bytes
  /-- What `state` returns in `assert_open`. -/
  state : ℤ
  /-- What `connected?` returns there. -/
  connected : Bool
  /-- `zk->zh` is not `NULL` when the method is entered. -/
  isOpen : Bool
  answer : CAnswer

def ZOO_EXPIRED_SESSION_STATE : ℤ := -112

namespace CHandle

variable (h : CHandle)

/-- `assert_open` of `ext/zookeeper_base.rb`. -/
def assertOpen : Except OperationError Unit :=
  if h.state = ZOO_EXPIRED_SESSION_STATE then .error .sessionExpired
  else if h.connected then .ok () else .error .notConnected

/-- `STANDARD_PREAMBLE`: the type of the path, and the handle. The request id is always an
integer. -/
def standardPreamble (path : RubyValue) : Except OperationError Unit := do
  let _ ← checkString path
  if h.isOpen then return () else throw (.runtimeError "zookeeper handle is closed")

/-- The end of a method that returns an array: the code, and what `rest` adds to it if the call
was synchronous and has succeeded. -/
def output (async : Bool) (fn : CompletionFn) (rest : BaseReturn → BaseReturn) :
    BaseReturn × Option CompletionFn :=
  let ret : BaseReturn := { rc := h.answer.rc }
  if async then (ret, some fn)
  else (if h.answer.rc = ZOK then rest ret else ret, none)

def methodGet (path async : RubyValue) :
    Except OperationError (BaseReturn × Option CompletionFn) := do
  h.standardPreamble path
  return h.output async.truthy .data fun ret =>
    { ret with data := h.answer.data, stat := statValue (some h.answer.stat) }

def methodSet (path data async version : RubyValue) :
    Except OperationError (BaseReturn × Option CompletionFn) := do
  h.standardPreamble path
  unlessNil checkString data
  let _ ← num2int version
  return h.output async.truthy .stat fun ret =>
    { ret with stat := statValue (some h.answer.stat) }

def methodGetChildren (path async : RubyValue) :
    Except OperationError (BaseReturn × Option CompletionFn) := do
  h.standardPreamble path
  return h.output async.truthy .stringsStat fun ret =>
    { ret with children := some h.answer.strings, stat := statValue (some h.answer.stat) }

def methodExists (path async : RubyValue) :
    Except OperationError (BaseReturn × Option CompletionFn) := do
  h.standardPreamble path
  return h.output async.truthy .stat fun ret =>
    { ret with stat := statValue (some h.answer.stat) }

/-- `method_create`. The flags are an `int`. -/
def methodCreate (path data async acls : RubyValue) :
    Except OperationError (BaseReturn × Option CompletionFn) := do
  h.standardPreamble path
  unlessNil checkString data
  unlessNil zkrbRubyToAclvector acls
  return h.output async.truthy .string fun ret => { ret with path := some h.answer.realpath }

def methodDelete (path version async : RubyValue) :
    Except OperationError (BaseReturn × Option CompletionFn) := do
  h.standardPreamble path
  let _ ← fix2int version
  return h.output async.truthy .void id

/-- `method_sync`, which is always asynchronous. -/
def methodSync (path : RubyValue) : Except OperationError (BaseReturn × Option CompletionFn) := do
  h.standardPreamble path
  return h.output true .string id

def methodSetAcl (path acls async version : RubyValue) :
    Except OperationError (BaseReturn × Option CompletionFn) := do
  h.standardPreamble path
  let _ ← zkrbRubyToAclvector acls
  let _ ← num2int version
  return h.output async.truthy .void id

def methodGetAcl (path async : RubyValue) :
    Except OperationError (BaseReturn × Option CompletionFn) := do
  h.standardPreamble path
  return h.output async.truthy .acl fun ret =>
    { ret with
      acl := some (zkrbAclVectorToRuby h.answer.acls)
      stat := statValue (some h.answer.stat) }

/-- `ZookeeperBase#create` of `ext/zookeeper_base.rb`. -/
def create (path data callback acl : RubyValue) :
    Except OperationError (BaseReturn × Option CompletionFn) := do
  let (ret, fn) ← h.methodCreate path data callback acl
  return ({ ret with path := stripChrootFrom h.host ret.path }, fn)

/-- The C backend. Its methods other than `create` are delegated to the `CZookeeper`. -/
def base : ZookeeperBase CompletionFn where
  assertOpen := h.assertOpen
  setupCall := Requests.setupCall
  get _ path callback _ := h.methodGet path callback
  set _ path data callback version := h.methodSet path data callback version
  getChildren _ path callback _ := h.methodGetChildren path callback
  exists' _ path callback _ := h.methodExists path callback
  create _ path data callback acl _ := h.create path data callback acl
  delete _ path version callback := h.methodDelete path version callback
  sync _ path := h.methodSync path
  setAcl _ path acl callback version := h.methodSetAcl path acl callback version
  getAcl _ path callback := h.methodGetAcl path callback

end CHandle

end ZookeeperClient
