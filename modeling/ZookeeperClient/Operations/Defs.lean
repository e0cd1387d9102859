import ZookeeperClient.Operations.Options

/-!
# The public operations

The nine operations of `lib/zookeeper.rb`. Each checks that the client is open and that the
options have the right keys, sets its defaults, registers its handlers with `setup_call`, and
calls the method of its name in `ZookeeperBase`, which there are two of. What follows the call
is the same in all of them, so they are one definition with parameters.

## Main definitions

- `BaseReturn`, `Returned` — what a method of `ZookeeperBase` and what an operation returns
- `ZookeeperBase` — the methods that the operations inherit
- `Operation`, `Operation.run` — an operation by what is its own, and its run
- `Zookeeper.get` to `Zookeeper.getAcl`, `Zookeeper.operation` — the operations
-/

namespace ZookeeperClient

/-- What a method of `ZookeeperBase` returns: the code, and the rest of the array. What the
array does not have is `nil` for the caller. -/
structure BaseReturn where
  rc : ℤ
  data : Option Bytes := none
  stat : RubyStat := .nil
  children : Option (List Bytes) := none
  path : Option Bytes := none
  acl : Option (List ACLHash) := none

/-- The hash that an operation returns. -/
structure Returned where
  reqId : ℤ
  rc : ℤ
  data : Option (Option Bytes) := none
  stat : Option ZookeeperStat := none
  children : Option (Option (List Bytes)) := none
  path : Option (Option Bytes) := none
  acl : Option (Option (List ACLHash)) := none

/-- `flags` of `create`. -/
def createFlags (options : Options) : ℤ :=
  (if (options.get .ephemeral).truthy then 1 else 0) +
    if (options.get .sequence).truthy then 2 else 0

/-- What the class `Zookeeper` inherits. The methods return what the operation gets, and the
completion function or callback object that they pass to the client; `κ` is the type of
these. -/
structure ZookeeperBase (κ : Type) where
  assertOpen : Except OperationError Unit
  setupCall : Meth → ReqHash → Requests → Requests
  get (reqId : ℤ) (path callback watcher : RubyValue) :
    Except OperationError (BaseReturn × Option κ)
  set (reqId : ℤ) (path data callback version : RubyValue) :
    Except OperationError (BaseReturn × Option κ)
  getChildren (reqId : ℤ) (path callback watcher : RubyValue) :
    Except OperationError (BaseReturn × Option κ)
  exists' (reqId : ℤ) (path callback watcher : RubyValue) :
    Except OperationError (BaseReturn × Option κ)
  create (reqId : ℤ) (path data callback acl : RubyValue) (flags : ℤ) :
    Except OperationError (BaseReturn × Option κ)
  delete (reqId : ℤ) (path version callback : RubyValue) :
    Except OperationError (BaseReturn × Option κ)
  sync (reqId : ℤ) (path : RubyValue) : Except OperationError (BaseReturn × Option κ)
  setAcl (reqId : ℤ) (path acl callback version : RubyValue) :
    Except OperationError (BaseReturn × Option κ)
  getAcl (reqId : ℤ) (path callback : RubyValue) : Except OperationError (BaseReturn × Option κ)

/-- An operation, by what is its own. -/
structure Operation (κ : Type) where
  methName : Meth
  supported : List Key
  required : List Key
  /-- The operation calls `assert_valid_data_size!`. -/
  checksData : Bool := false
  /-- The options with a default, and the default. -/
  default : Option (Key × OptionValue) := none
  call (base : ZookeeperBase κ) (reqId : ℤ) (options : Options) :
    Except OperationError (BaseReturn × Option κ)
  /-- What is merged into the result of a call without a callback. -/
  merge (rv : Returned) (ret : BaseReturn) : Returned := rv

/-- How an operation ends. -/
structure OperationRun (κ : Type) where
  /-- What is returned, with the completion passed to the client, or what is raised. -/
  result : Except OperationError (Returned × Option κ)
  /-- The tables afterwards. -/
  requests : Requests

namespace Operation

variable {κ : Type}

/-- The checks of the options. -/
def checkOptions (op : Operation κ) (options : Options) : Except OperationError Unit := do
  assertSupportedKeys options op.supported
  assertRequiredKeys options op.required
  if op.checksData then assertValidDataSize options

/-- The checks, from `assert_open` on. -/
def check (op : Operation κ) (base : ZookeeperBase κ) (options : Options) :
    Except OperationError Unit := do
  base.assertOpen
  op.checkOptions options

/-- The options after the defaults have been set. -/
def withDefault (op : Operation κ) (options : Options) : Options :=
  match op.default with
  | none => options
  | some (key, v) => options.orAssign key v

/-- The hash that is returned. -/
def returned (op : Operation κ) (reqId : ℤ) (options : Options) (ret : BaseReturn) : Returned :=
  let rv : Returned := { reqId := reqId, rc := ret.rc }
  if (options.get .callback).truthy then rv else op.merge rv ret

/-- The body of an operation. The callback that is passed on is the one that the caller has
given: its wrapper, in a `create` of the C backend, counts as true as well. -/
def run (op : Operation κ) (base : ZookeeperBase κ) (options : Options) (t : Requests) :
    OperationRun κ :=
  match op.check base options with
  | .error e => ⟨.error e, t⟩
  | .ok () =>
    let options := op.withDefault options
    let t' := base.setupCall op.methName options.toReqHash t
    match op.call base t.currentReqId options with
    | .error e => ⟨.error e, t'⟩
    | .ok (ret, completion) =>
      ⟨.ok (op.returned t.currentReqId options ret, completion), t'⟩

theorem run_of_check_error {op : Operation κ} {base : ZookeeperBase κ} {options : Options}
    {e : OperationError} (t : Requests) (h : op.check base options = .error e) :
    op.run base options t = ⟨.error e, t⟩ := by
  simp only [run, h]

/-- A call that passes its checks returns or raises what its method in the base class does, and
leaves the tables as `setup_call` does. -/
theorem run_of_check_ok {op : Operation κ} {base : ZookeeperBase κ} {options : Options}
    (t : Requests) (h : op.check base options = .ok ()) :
    op.run base options t =
      ⟨(op.call base t.currentReqId (op.withDefault options)).map fun (ret, completion) =>
          (op.returned t.currentReqId (op.withDefault options) ret, completion),
        base.setupCall op.methName (op.withDefault options).toReqHash t⟩ := by
  simp only [run, h]
  cases op.call base t.currentReqId (op.withDefault options) <;> rfl

theorem result_of_call {op : Operation κ} {base : ZookeeperBase κ} {options : Options}
    {t : Requests} {ret : BaseReturn} {completion : Option κ}
    (hcheck : op.check base options = .ok ())
    (hcall : op.call base t.currentReqId (op.withDefault options) = .ok (ret, completion)) :
    (op.run base options t).result =
      .ok (op.returned t.currentReqId (op.withDefault options) ret, completion) := by
  rw [run_of_check_ok t hcheck, hcall]
  rfl

/-- A call that returns has passed its checks, and returns what its method does. -/
theorem run_eq_ok {op : Operation κ} {base : ZookeeperBase κ} {options : Options} {t : Requests}
    {rv : Returned} {completion : Option κ}
    (h : (op.run base options t).result = .ok (rv, completion)) :
    op.check base options = .ok () ∧
      ∃ ret, op.call base t.currentReqId (op.withDefault options) = .ok (ret, completion) ∧
        rv = op.returned t.currentReqId (op.withDefault options) ret := by
  cases hcheck : op.check base options with
  | error e =>
    rw [run_of_check_error t hcheck] at h
    cases h
  | ok u =>
    rw [run_of_check_ok t hcheck] at h
    cases hcall : op.call base t.currentReqId (op.withDefault options) with
    | error e =>
      rw [hcall] at h
      cases h
    | ok p =>
      rw [hcall] at h
      cases h
      exact ⟨rfl, p.1, rfl, rfl⟩

end Operation

/-! ## The operations -/

/-- `-1`, the default of `:version`. -/
def anyVersion : OptionValue where
  value := .int (-1)
  toSLength := 2
  obj := ⟨-1, false⟩

/-- `ZOO_OPEN_ACL_UNSAFE`, the default of `:acl`. `ZOO_PERM_ALL` is 15 here, since
`ZOO_PERM_READ` is 0. -/
def zooOpenAclUnsafe : OptionValue where
  value :=
    .array [.acl (.int 15) (.aclId (.str "world".toUTF8.toList) (.str "anyone".toUTF8.toList))]
  toSLength := 0
  obj := ⟨0, false⟩

namespace Zookeeper

variable (κ : Type)

def get : Operation κ where
  methName := .get
  supported := [.path, .watcher, .watcherContext, .callback, .callbackContext]
  required := [.path]
  call base reqId options :=
    base.get reqId (options.get .path) (options.get .callback) (options.get .watcher)
  merge rv ret := { rv with data := some ret.data, stat := some (.new ret.stat) }

def set : Operation κ where
  methName := .set
  supported := [.path, .data, .version, .callback, .callbackContext]
  required := [.path]
  checksData := true
  default := some (.version, anyVersion)
  call base reqId options :=
    base.set reqId (options.get .path) (options.get .data) (options.get .callback)
      (options.get .version)
  merge rv ret := { rv with stat := some (.new ret.stat) }

def getChildren : Operation κ where
  methName := .getChildren
  supported := [.path, .callback, .callbackContext, .watcher, .watcherContext]
  required := [.path]
  call base reqId options :=
    base.getChildren reqId (options.get .path) (options.get .callback) (options.get .watcher)
  merge rv ret := { rv with children := some ret.children, stat := some (.new ret.stat) }

def stat : Operation κ where
  methName := .stat
  supported := [.path, .callback, .callbackContext, .watcher, .watcherContext]
  required := [.path]
  call base reqId options :=
    base.exists' reqId (options.get .path) (options.get .callback) (options.get .watcher)
  merge rv ret := { rv with stat := some (.new ret.stat) }

def create : Operation κ where
  methName := .create
  supported := [.path, .data, .acl, .ephemeral, .sequence, .callback, .callbackContext]
  required := [.path]
  checksData := true
  default := some (.acl, zooOpenAclUnsafe)
  call base reqId options :=
    base.create reqId (options.get .path) (options.get .data) (options.get .callback)
      (options.get .acl) (createFlags options)
  merge rv ret := { rv with path := some ret.path }

def delete : Operation κ where
  methName := .delete
  supported := [.path, .version, .callback, .callbackContext]
  required := [.path]
  default := some (.version, anyVersion)
  call base reqId options :=
    base.delete reqId (options.get .path) (options.get .version) (options.get .callback)

/-- `sync`, which does not pass the callback on. -/
def sync : Operation κ where
  methName := .sync
  supported := [.path, .callback, .callbackContext]
  required := [.path, .callback]
  call base reqId options := base.sync reqId (options.get .path)

def setAcl : Operation κ where
  methName := .setAcl
  supported := [.path, .acl, .version, .callback, .callbackContext]
  required := [.path, .acl]
  default := some (.version, anyVersion)
  call base reqId options :=
    base.setAcl reqId (options.get .path) (options.get .acl) (options.get .callback)
      (options.get .version)

/-- `get_acl`. It passes `:get_acl` on to `setup_call`, as its own name. -/
def getAcl : Operation κ where
  methName := .getAcl
  supported := [.path, .callback, .callbackContext]
  required := [.path]
  call base reqId options := base.getAcl reqId (options.get .path) (options.get .callback)
  merge rv ret := { rv with acl := some ret.acl, stat := some (.new ret.stat) }

/-- The operation of a name. -/
def operation : Meth → Operation κ
  | .get => get κ
  | .set => set κ
  | .getChildren => getChildren κ
  | .stat => stat κ
  | .create => create κ
  | .delete => delete κ
  | .sync => sync κ
  | .setAcl => setAcl κ
  | .getAcl => getAcl κ

variable {κ : Type} (methName : Meth) (options : Options)

theorem methName_operation : (operation κ methName).methName = methName := by
  cases methName <;> rfl

/-- The default concerns the version or the ACL only. -/
theorem lookup_withDefault {key : Key} (hversion : key ≠ .version) (hacl : key ≠ .acl) :
    ((operation κ methName).withDefault options).lookup key = options.lookup key := by
  cases methName with
  | get | getChildren | stat | sync | getAcl => rfl
  | set | delete | setAcl => exact Options.lookup_orAssign_of_ne _ hversion
  | create => exact Options.lookup_orAssign_of_ne _ hacl

theorem get_withDefault {key : Key} (hversion : key ≠ .version) (hacl : key ≠ .acl) :
    ((operation κ methName).withDefault options).get key = options.get key := by
  rw [Options.get, lookup_withDefault methName options hversion hacl, Options.get]

theorem toReqHash_withDefault :
    ((operation κ methName).withDefault options).toReqHash = options.toReqHash := by
  simp [Options.toReqHash, Options.obj, lookup_withDefault]

end Zookeeper

end ZookeeperClient
