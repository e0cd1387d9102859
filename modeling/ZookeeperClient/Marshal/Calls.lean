import ZookeeperClient.Marshal.Callbacks
import ZookeeperClient.Operations.Arguments

/-!
# What the C client is given

The methods of `ext/zookeeper_c.c` pass Ruby values on to the C client: strings as pointers, with
or without a length, integers after a conversion or a cast, lists of ACLs as vectors. This module
has their arguments only; what the calls return is modelled elsewhere.

## Main definitions

- `ZooArgs` — the arguments of a `zoo_` function
- `getArgs` to `setAclArgs` — the methods, up to the call
- `argsBase` — the C backend with these methods
- `Words`, `zkrbInit`, `baseInit` — the call of `zookeeper_init`
- `ClientId`, `methodClientId` — the way back of the session's id and password
-/

namespace ZookeeperClient

namespace Marshal

open Memory

/-! ## Conversions -/

/-- The integer is a Fixnum. -/
def IsFixnum (n : ℤ) : Prop :=
  -2 ^ 62 ≤ n ∧ n < 2 ^ 62

instance (n : ℤ) : Decidable (IsFixnum n) :=
  inferInstanceAs (Decidable (_ ∧ _))

/-- `Check_Type(v, T_FIXNUM)`. -/
def checkFixnum : RubyValue → CResult Unit
  | .int n => if IsFixnum n then .ok () else .error .typeError
  | _ => .error .typeError

/-- `NUM2LL`, of an integer. -/
def num2ll (n : ℤ) : CResult ℤ :=
  if -2 ^ 63 ≤ n ∧ n < 2 ^ 63 then .ok n else .error .rangeError

/-- `RSTRING_PTR`: Ruby keeps a zero byte behind the bytes of a string. -/
def rstringPtr (bytes : Bytes) : Block :=
  bytes ++ [0]

/-- `data_ptr` and `(int)data_len`. The length is a `size_t`; for `nil` it is -1. -/
def dataArgs : RubyValue → CResult (Option Block × ℤ)
  | .nil => .ok (none, toInt (2 ^ 64 - 1))
  | v => (checkString v).map fun bytes => (some (rstringPtr bytes), toInt bytes.length)

/-- The data that the C client makes of a pointer and a length, of which -1 stands for no
data. -/
def clientData : Option Block × ℤ → CResult (Option Bytes)
  | (p, len) => if len = -1 then .ok none else do
    let block ← deref .undefined p
    let bytes ← rbStrNew block len
    return some bytes

/-! ## The methods -/

/-- What a method passes to a `zoo_` function. An argument that the function does not have is
`none`. -/
structure ZooArgs where
  path : Block
  /-- A pointer, and a length. -/
  data : Option (Option Block × ℤ) := none
  acl : Option (Option (CVector StructACL)) := none
  version : Option ℤ := none
  flags : Option ℤ := none
  /-- The context of the completion function. -/
  callback : Option CallingContext := none
  /-- The context of the watcher. -/
  watch : Option CallingContext := none

section Methods

variable (h : CHandle) (env : Allocators)

/-- The test of `zk->zh`. -/
def checkOpen : CResult Unit :=
  if h.isOpen then .ok () else .error (.runtimeError "zookeeper handle is closed")

/-- `flag ? zkrb_calling_context_alloc(NUM2LL(reqid), queue) : NULL`. -/
def contextAlloc (reqid : ℤ) (flag : RubyValue) : CResult (Option CallingContext) :=
  if flag.truthy then (num2ll reqid).map fun n => some ⟨n⟩ else .ok none

/-- `STANDARD_PREAMBLE`. -/
def standardPreamble (reqid path async watch : RubyValue) : CResult ZooArgs :=
  match reqid with
  | .int n => do
    let path ← checkString path
    let () ← checkOpen h
    let callback ← contextAlloc n async
    let watch ← contextAlloc n watch
    return { path := rstringPtr path, callback := callback, watch := watch }
  | _ => .error .typeError

def getArgs (reqid path async watch : RubyValue) : CResult ZooArgs :=
  standardPreamble h reqid path async watch

def getChildrenArgs (reqid path async watch : RubyValue) : CResult ZooArgs :=
  standardPreamble h reqid path async watch

def existsArgs (reqid path async watch : RubyValue) : CResult ZooArgs :=
  standardPreamble h reqid path async watch

def syncArgs (reqid path : RubyValue) : CResult ZooArgs :=
  standardPreamble h reqid path (.bool true) (.bool false)

/-- `aclptr` of `method_create`. -/
def createAcl : RubyValue → CResult (Option (CVector StructACL))
  | .nil => .ok none
  | acls => (zkrbRubyToAclvector env acls).map some

def createArgs (reqid path data async acls flags : RubyValue) : CResult ZooArgs := do
  let args ← standardPreamble h reqid path async (.bool false)
  let data ← dataArgs data
  let () ← checkFixnum flags
  let acl ← createAcl env acls
  let flags ← num2int flags
  return { args with data := some data, acl := some acl, flags := some flags }

def deleteArgs (reqid path version async : RubyValue) : CResult ZooArgs := do
  let args ← standardPreamble h reqid path async (.bool false)
  let () ← checkFixnum version
  let version ← num2int version
  return { args with version := some version }

def setArgs (reqid path data async version : RubyValue) : CResult ZooArgs := do
  let args ← standardPreamble h reqid path async (.bool false)
  let data ← dataArgs data
  let version ← num2int version
  return { args with data := some data, version := some version }

def setAclArgs (reqid path acls async version : RubyValue) : CResult ZooArgs := do
  let args ← standardPreamble h reqid path async (.bool false)
  let acl ← zkrbRubyToAclvector env acls
  let version ← num2int version
  return { args with acl := some (some acl), version := some version }

def getAclArgs (reqid path async : RubyValue) : CResult ZooArgs :=
  standardPreamble h reqid path async (.bool false)

/-- The C backend, as far as it calls the C client, whose answers are `answer`. -/
def argsBase (answer : ZooArgs → BaseReturn) : ZookeeperBase ZooArgs :=
  let call := fun (args : CResult ZooArgs) => args.map fun args => (answer args, some args)
  { assertOpen := h.assertOpen
    setupCall := Requests.setupCall
    get reqId path callback watcher := call (getArgs h (.int reqId) path callback watcher)
    set reqId path data callback version :=
      call (setArgs h (.int reqId) path data callback version)
    getChildren reqId path callback watcher :=
      call (getChildrenArgs h (.int reqId) path callback watcher)
    exists' reqId path callback watcher := call (existsArgs h (.int reqId) path callback watcher)
    create reqId path data callback acl flags :=
      call (createArgs h env (.int reqId) path data callback acl (.int flags))
    delete reqId path version callback :=
      call (deleteArgs h (.int reqId) path version callback)
    sync reqId path := call (syncArgs h (.int reqId) path)
    setAcl reqId path acl callback version :=
      call (setAclArgs h env (.int reqId) path acl callback version)
    getAcl reqId path callback := call (getAclArgs h (.int reqId) path callback) }

end Methods

/-! ## What a method passes -/

theorem bind_eq_ok {ε α β : Type} {x : Except ε α} {f : α → Except ε β} {b : β} :
    (x >>= f) = .ok b ↔ ∃ a, x = .ok a ∧ f a = .ok b := by
  cases x with
  | error e => exact ⟨nofun, nofun⟩
  | ok a => exact ⟨fun h => ⟨a, rfl, h⟩, fun ⟨_, ha, h⟩ => Except.ok.inj ha ▸ h⟩

theorem checkString_eq_ok {v : RubyValue} {s : Bytes} (h : checkString v = .ok s) :
    v = .str s := by
  cases v <;> cases h
  rfl

theorem num2int_int {n m : ℤ} (h : num2int (.int n) = .ok m) : m = n := by
  have hcheck : checkInt n = .ok m := h
  unfold checkInt at hcheck
  split at hcheck <;> cases hcheck
  rfl

/-- A context carries the id of its request. -/
theorem contextAlloc_eq_some {n : ℤ} {flag : RubyValue} {ctx : CallingContext}
    (h : contextAlloc n flag = .ok (some ctx)) : ctx.reqId = n := by
  unfold contextAlloc num2ll at h
  split at h
  · split at h <;> cases h
    rfl
  · cases h

/-- What the preamble leaves. -/
structure Preamble (n : ℤ) (path async watch : RubyValue) (args : ZooArgs) : Prop where
  path : ∃ s, path = .str s ∧ args.path = rstringPtr s
  callback : contextAlloc n async = .ok args.callback
  watch : contextAlloc n watch = .ok args.watch

section Passed

variable {h : CHandle} {env : Allocators}
  {reqid path data async watch acls flags version : RubyValue} {args : ZooArgs}

theorem standardPreamble_eq_ok (hargs : standardPreamble h reqid path async watch = .ok args) :
    ∃ n, reqid = .int n ∧ Preamble n path async watch args ∧
      args.data = none ∧ args.acl = none := by
  cases reqid with
  | int n =>
    obtain ⟨s, hs, hargs⟩ := bind_eq_ok.mp hargs
    obtain ⟨-, -, hargs⟩ := bind_eq_ok.mp hargs
    obtain ⟨callback, hcallback, hargs⟩ := bind_eq_ok.mp hargs
    obtain ⟨watch, hwatch, hargs⟩ := bind_eq_ok.mp hargs
    cases hargs
    exact ⟨n, rfl, ⟨⟨s, checkString_eq_ok hs, rfl⟩, hcallback, hwatch⟩, rfl, rfl⟩
  | _ => cases hargs

theorem createArgs_eq_ok (hargs : createArgs h env reqid path data async acls flags = .ok args) :
    ∃ n, reqid = .int n ∧ Preamble n path async (.bool false) args ∧
      (∃ d, dataArgs data = .ok d ∧ args.data = some d) ∧
      (∃ acl, createAcl env acls = .ok acl ∧ args.acl = some acl) ∧
      ∃ n, num2int flags = .ok n ∧ args.flags = some n := by
  obtain ⟨pre, hpre, hargs⟩ := bind_eq_ok.mp hargs
  obtain ⟨d, hd, hargs⟩ := bind_eq_ok.mp hargs
  obtain ⟨-, -, hargs⟩ := bind_eq_ok.mp hargs
  obtain ⟨acl, hacl, hargs⟩ := bind_eq_ok.mp hargs
  obtain ⟨f, hf, hargs⟩ := bind_eq_ok.mp hargs
  cases hargs
  obtain ⟨n, hn, ⟨hpath, hcallback, hwatch⟩, -⟩ := standardPreamble_eq_ok hpre
  exact ⟨n, hn, ⟨hpath, hcallback, hwatch⟩, ⟨d, hd, rfl⟩, ⟨acl, hacl, rfl⟩, f, hf, rfl⟩

theorem deleteArgs_eq_ok (hargs : deleteArgs h reqid path version async = .ok args) :
    ∃ n, reqid = .int n ∧ Preamble n path async (.bool false) args ∧
      args.data = none ∧ args.acl = none ∧
      ∃ n, num2int version = .ok n ∧ args.version = some n := by
  obtain ⟨pre, hpre, hargs⟩ := bind_eq_ok.mp hargs
  obtain ⟨-, -, hargs⟩ := bind_eq_ok.mp hargs
  obtain ⟨v, hv, hargs⟩ := bind_eq_ok.mp hargs
  cases hargs
  obtain ⟨n, hn, ⟨hpath, hcallback, hwatch⟩, hdata, hacl⟩ := standardPreamble_eq_ok hpre
  exact ⟨n, hn, ⟨hpath, hcallback, hwatch⟩, hdata, hacl, v, hv, rfl⟩

theorem setArgs_eq_ok (hargs : setArgs h reqid path data async version = .ok args) :
    ∃ n, reqid = .int n ∧ Preamble n path async (.bool false) args ∧
      (∃ d, dataArgs data = .ok d ∧ args.data = some d) ∧ args.acl = none ∧
      ∃ n, num2int version = .ok n ∧ args.version = some n := by
  obtain ⟨pre, hpre, hargs⟩ := bind_eq_ok.mp hargs
  obtain ⟨d, hd, hargs⟩ := bind_eq_ok.mp hargs
  obtain ⟨v, hv, hargs⟩ := bind_eq_ok.mp hargs
  cases hargs
  obtain ⟨n, hn, ⟨hpath, hcallback, hwatch⟩, -, hacl⟩ := standardPreamble_eq_ok hpre
  exact ⟨n, hn, ⟨hpath, hcallback, hwatch⟩, ⟨d, hd, rfl⟩, hacl, v, hv, rfl⟩

theorem setAclArgs_eq_ok (hargs : setAclArgs h env reqid path acls async version = .ok args) :
    ∃ n, reqid = .int n ∧ Preamble n path async (.bool false) args ∧ args.data = none ∧
      (∃ v, zkrbRubyToAclvector env acls = .ok v ∧ args.acl = some (some v)) ∧
      ∃ n, num2int version = .ok n ∧ args.version = some n := by
  obtain ⟨pre, hpre, hargs⟩ := bind_eq_ok.mp hargs
  obtain ⟨acl, hacl, hargs⟩ := bind_eq_ok.mp hargs
  obtain ⟨v, hv, hargs⟩ := bind_eq_ok.mp hargs
  cases hargs
  obtain ⟨n, hn, ⟨hpath, hcallback, hwatch⟩, hdata, -⟩ := standardPreamble_eq_ok hpre
  exact ⟨n, hn, ⟨hpath, hcallback, hwatch⟩, hdata, ⟨acl, hacl, rfl⟩, v, hv, rfl⟩

end Passed

/-! ## What an operation passes -/

/-- Data whose length is an `int` gets to the C client as it is. -/
theorem clientData_of_dataArgs {s : Bytes} {d : Option Block × ℤ} (hlen : s.length < 2 ^ 31)
    (hd : dataArgs (.str s) = .ok d) : d.2 = s.length ∧ clientData d = .ok (some s) := by
  obtain rfl : (some (rstringPtr s), toInt s.length) = d := Except.ok.inj hd
  have hcast : toInt s.length = s.length := toInt_eq_self_iff.mpr ⟨by omega, by omega⟩
  have hread : rbStrNew (rstringPtr s) s.length = .ok s := by
    have hroom : (s.length : ℤ) ≤ (rstringPtr s).length := by
      rw [rstringPtr, List.length_append]
      omega
    rw [rbStrNew, if_pos ⟨by omega, hroom⟩, Int.toNat_natCast, rstringPtr, List.take_left]
  rw [hcast]
  refine ⟨rfl, ?_⟩
  simp only [clientData, deref_some, hread, bind, Except.bind, pure, Except.pure]
  rw [if_neg (by omega)]

/-- Only keys that the operation supports get through its checks. -/
theorem supported_of_check {κ : Type} {op : Operation κ} {base : ZookeeperBase κ}
    {options : Options} {key : Key} {v : OptionValue} (h : op.check base options = .ok ())
    (hkey : options.lookup key = some v) : key ∈ op.supported := by
  obtain ⟨_, -, h⟩ := bind_eq_ok.mp h
  obtain ⟨_, hsupported, -⟩ := bind_eq_ok.mp h
  unfold assertSupportedKeys at hsupported
  split at hsupported
  · next hempty =>
    by_contra hnot
    have hmem : key ∈ options.keys.filter (· ∉ op.supported) := by
      refine List.mem_filter.mpr ⟨?_, by simpa using hnot⟩
      obtain ⟨before, after, hsplit, -⟩ := List.lookup_eq_some_iff.mp hkey
      rw [hsplit, Options.keys, List.map_append]
      exact List.mem_append_right _ List.mem_cons_self
    rw [List.isEmpty_iff.mp hempty] at hmem
    cases hmem
  · cases hsupported

/-- The operations that take data check its size. -/
theorem checksData_of_supported {κ : Type} {m : Meth}
    (h : Key.data ∈ (Zookeeper.operation κ m).supported) :
    (Zookeeper.operation κ m).checksData = true := by
  cases m with
  | set | create => rfl
  | _ => exact absurd h (by simp [Zookeeper.operation, Zookeeper.get, Zookeeper.getChildren,
      Zookeeper.stat, Zookeeper.delete, Zookeeper.sync, Zookeeper.setAcl, Zookeeper.getAcl])

/-- Data that an operation accepts has less than 2^20 characters. -/
theorem toSLength_of_check {κ : Type} {m : Meth} {base : ZookeeperBase κ} {options : Options}
    {v : OptionValue} {s : Bytes} (h : (Zookeeper.operation κ m).check base options = .ok ())
    (hdata : options.lookup .data = some v) (hvalue : v.value = .str s) :
    v.toSLength < 1048576 := by
  have hchecks := checksData_of_supported (supported_of_check h hdata)
  obtain ⟨_, -, h⟩ := bind_eq_ok.mp h
  obtain ⟨_, -, h⟩ := bind_eq_ok.mp h
  obtain ⟨_, -, h⟩ := bind_eq_ok.mp h
  rw [if_pos hchecks] at h
  unfold assertValidDataSize at h
  simp only [hdata, hvalue] at h
  split at h
  · cases h
  · omega

section Operations

variable {h : CHandle} {env : Allocators} {answer : ZooArgs → BaseReturn} {m : Meth}
  {options : Options} {t : Requests} {rv : Returned} {args : ZooArgs}

/-- The arguments of the C client for an operation that has called it. -/
structure PassedBy (env : Allocators) (m : Meth) (options : Options) (args : ZooArgs) : Prop where
  path : ∃ s, options.get .path = .str s ∧ args.path = rstringPtr s
  data : Key.data ∈ (Zookeeper.operation ZooArgs m).supported →
    ∃ d, dataArgs (options.get .data) = .ok d ∧ args.data = some d
  acl : Key.acl ∈ (Zookeeper.operation ZooArgs m).supported →
    ∀ elems, options.get .acl = .array elems →
      ∃ v, zkrbRubyToAclvector env (.array elems) = .ok v ∧ args.acl = some (some v)

/-- An array of ACLs is not replaced by a default. -/
theorem get_acl_withDefault {elems : List RubyValue} (helems : options.get .acl = .array elems) :
    ((Zookeeper.operation ZooArgs m).withDefault options).get .acl = .array elems := by
  cases m with
  | create =>
    refine (Options.get_orAssign_self _ _ _).trans ?_
    rw [helems]
    rfl
  | set | delete | setAcl => exact (Options.get_orAssign_of_ne _ (by decide)).trans helems
  | _ => exact helems

theorem passedBy_of_run
    (hrun : ((Zookeeper.operation ZooArgs m).run (argsBase h env answer) options t).result =
      .ok (rv, some args)) : PassedBy env m options args := by
  obtain ⟨-, ret, hcall, -⟩ := Operation.run_eq_ok hrun
  have hpath : ((Zookeeper.operation ZooArgs m).withDefault options).get .path =
      options.get .path := Zookeeper.get_withDefault m options (by decide) (by decide)
  have hdata : ((Zookeeper.operation ZooArgs m).withDefault options).get .data =
      options.get .data := Zookeeper.get_withDefault m options (by decide) (by decide)
  cases m with
  | get | getChildren | stat | getAcl | sync =>
    obtain ⟨a, hargs, heq⟩ := map_eq_ok.mp hcall
    cases heq
    obtain ⟨_, -, ⟨hp, -, -⟩, -⟩ := standardPreamble_eq_ok hargs
    exact ⟨hp, fun hkey => absurd hkey (by decide), fun hkey => absurd hkey (by decide)⟩
  | set =>
    obtain ⟨a, hargs, heq⟩ := map_eq_ok.mp hcall
    cases heq
    obtain ⟨_, -, ⟨hp, -, -⟩, hd, -⟩ := setArgs_eq_ok hargs
    rw [hpath] at hp
    rw [hdata] at hd
    exact ⟨hp, fun _ => hd, fun hkey => absurd hkey (by decide)⟩
  | delete =>
    obtain ⟨a, hargs, heq⟩ := map_eq_ok.mp hcall
    cases heq
    obtain ⟨_, -, ⟨hp, -, -⟩, -⟩ := deleteArgs_eq_ok hargs
    rw [hpath] at hp
    exact ⟨hp, fun hkey => absurd hkey (by decide), fun hkey => absurd hkey (by decide)⟩
  | create =>
    obtain ⟨a, hargs, heq⟩ := map_eq_ok.mp hcall
    cases heq
    obtain ⟨_, -, ⟨hp, -, -⟩, hd, hacl, -⟩ := createArgs_eq_ok hargs
    rw [hpath] at hp
    rw [hdata] at hd
    refine ⟨hp, fun _ => hd, fun _ elems helems => ?_⟩
    obtain ⟨acl, hcreate, hacl⟩ := hacl
    rw [get_acl_withDefault helems] at hcreate
    obtain ⟨v, hv, rfl⟩ := map_eq_ok.mp hcreate
    exact ⟨v, hv, hacl⟩
  | setAcl =>
    obtain ⟨a, hargs, heq⟩ := map_eq_ok.mp hcall
    cases heq
    obtain ⟨_, -, ⟨hp, -, -⟩, -, hacl, -⟩ := setAclArgs_eq_ok hargs
    rw [hpath] at hp
    refine ⟨hp, fun hkey => absurd hkey (by decide), fun _ elems helems => ?_⟩
    rw [get_acl_withDefault helems] at hacl
    exact hacl

end Operations

/-! ## The start of a session -/

/-- How Ruby represents values as words: a Fixnum is tagged, anything else is an address or a
constant. -/
structure Words where
  word : RubyValue → ℤ
  fixnum (n : ℤ) (hn : IsFixnum n) : word (.int n) = 2 * n + 1

/-- Everything but the integers is one constant. -/
def Words.tagged : Words where
  word
    | .int n => 2 * n + 1
    | _ => 8
  fixnum _ _ := rfl

/-- What `method_zkrb_init` passes to `zoo_set_debug_level` and `zookeeper_init`. -/
structure InitArgs where
  debugLevel : ℤ
  host : Block
  recvTimeout : ℤ

section Init

variable (w : Words)

/-- The log level that is passed on: 0 for `nil`, and otherwise the word itself, not the number
that it stands for. -/
def debugLevelArg : RubyValue → CResult ℤ
  | .nil => .ok 0
  | level => do
    let () ← checkFixnum level
    return toInt (w.word level)

/-- `method_zkrb_init`, whose options are `nil` or a hash with `logLevel` under `:zkc_log_level`.
`timeout` is `@_session_timeout_msec`. -/
def zkrbInit (hostPort logLevel timeout : RubyValue) : CResult InitArgs := do
  let host ← checkString hostPort
  let debugLevel ← debugLevelArg w logLevel
  return ⟨debugLevel, rstringPtr host, toInt (w.word timeout)⟩

/-- `ZookeeperBase#initialize`, and `CZookeeper#initialize` of the client it makes. -/
def baseInit (host timeout : RubyValue) : CResult InitArgs :=
  match host with
  | .str bytes =>
    -- `host.end_with?('/')`
    if bytes.getLast? = some 47 then .error (.badArguments "Host argument may not end with /")
    else zkrbInit w host .nil timeout
  | _ => .error .noMethodError

end Init

/-! ## The way back -/

/-- `clientid_t` of the C client, with the memory behind it. -/
structure ClientId where
  clientId : ℤ
  passwd : Block
  behind : Block

/-- `method_client_id`: what `session_id` and `session_passwd` return. -/
def methodClientId (cid : ClientId) : CResult (ℤ × Bytes) := do
  let passwd ← rbStrNew2 (some (cid.passwd ++ cid.behind))
  return (cid.clientId, passwd)

end Marshal

end ZookeeperClient
