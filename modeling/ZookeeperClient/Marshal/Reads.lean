import ZookeeperClient.Marshal.Callbacks
import ZookeeperClient.Operations.Arguments

/-!
# The two ways of a read

`get`, `stat`, `get_children` and `get_acl` can be called with a callback or without. A call
without one passes variables to the C client, and `ext/zookeeper_c.c` makes an array of what the
client leaves in them. With a callback, the client passes its answer to a completion function,
and a hash goes through the event queue to the callback. The reads are modelled on the memory
of `ZookeeperClient.Marshal`, with the C client as a parameter.

## Main definitions

- `ZooCall`, `Output` — a call of the C client, and the variables after it
- `methodGet`, `methodExists`, `methodGetChildren`, `methodGetAcl` — the methods
- `Answers`, `completionOf` — what the C client does with the server's reply
- `SameAnswer` — what is returned and what the callback receives are the same

## Main results

- `reads_agree` — the two ways of a read give the same answer
-/

namespace ZookeeperClient

namespace Marshal

open Memory

/-! ## Calls of the C client -/

/-- The reads of the C client; each comes as `zoo_`, `zoo_w`, `zoo_a` and `zoo_aw`. -/
inductive ReadFn where
  | get
  | exists'
  | getChildren2
  | getAcl
  deriving DecidableEq, Repr

/-- `zkrb_call_type`. -/
inductive CallType where
  | sync
  | async
  | syncWatch
  | asyncWatch
  deriving DecidableEq, Repr

/-- The end of `STANDARD_PREAMBLE`. -/
def callType (async watch : RubyValue) : CallType :=
  if async.truthy then
    if watch.truthy then .asyncWatch else .async
  else
    if watch.truthy then .syncWatch else .sync

/-- `IS_SYNC`. -/
def CallType.isSync : CallType → Bool
  | .sync | .syncWatch => true
  | .async | .asyncWatch => false

/-- A call of the C client. -/
inductive ZooCall where
  | sync (fn : ReadFn) (watch : Bool)
  | async (fn : ReadFn) (watch : Bool) (completion : CompletionFn)
  /-- A call that does not read, by its completion function. -/
  | other (completion : CompletionFn)
  deriving DecidableEq, Repr

/-- The `switch` of a read, with the completion function that it uses. -/
def zooCall (fn : ReadFn) (completion : CompletionFn) : CallType → ZooCall
  | .sync => .sync fn false
  | .syncWatch => .sync fn true
  | .async => .async fn false completion
  | .asyncWatch => .async fn true completion

/-- The return code, and the variables that a method passes to the C client, after the call. -/
structure Output where
  rc : ℤ
  data : Block
  dataLen : ℤ
  stat : Stat
  strings : StringVector
  acls : CVector StructACL

/-! ## The methods -/

/-- The data of a synchronous `get`. -/
def readBuffer (out : Output) : CResult (Option Bytes) :=
  if out.dataLen = -1 then .ok none else (rbStrNew out.data out.dataLen).map some

/-- What `method_get` adds to its array. -/
def pushGet (out : Output) (ret : BaseReturn) : CResult BaseReturn := do
  let data ← readBuffer out
  return { ret with data := data, stat := statValue (some out.stat) }

def pushExists (out : Output) (ret : BaseReturn) : CResult BaseReturn :=
  .ok { ret with stat := statValue (some out.stat) }

def pushGetChildren (out : Output) (ret : BaseReturn) : CResult BaseReturn := do
  let strings ← zkrbStringVectorToRuby out.strings
  return { ret with children := some strings, stat := statValue (some out.stat) }

def pushGetAcl (out : Output) (ret : BaseReturn) : CResult BaseReturn := do
  let acls ← zkrbAclVectorToRuby out.acls
  return { ret with acl := some acls, stat := statValue (some out.stat) }

/-- The array of a synchronous call: the code, and what `push` adds to it if the call has
succeeded. -/
def pushed (push : Output → BaseReturn → CResult BaseReturn) (out : Output) :
    CResult BaseReturn :=
  if out.rc = ZOK then push out { rc := out.rc } else .ok { rc := out.rc }

section Methods

variable (h : CHandle) (client : ZooCall → Output)

/-- What the four methods have in common. -/
def readMethod (fn : ReadFn) (completion : CompletionFn)
    (push : Output → BaseReturn → CResult BaseReturn) (path async watch : RubyValue) :
    CResult (BaseReturn × Option ZooCall) := do
  h.standardPreamble path
  let call := zooCall fn completion (callType async watch)
  if (callType async watch).isSync then (pushed push (client call)).map fun ret => (ret, none)
  else return ({ rc := (client call).rc }, some call)

def methodGet (path async watch : RubyValue) : CResult (BaseReturn × Option ZooCall) :=
  readMethod h client .get .data pushGet path async watch

def methodExists (path async watch : RubyValue) : CResult (BaseReturn × Option ZooCall) :=
  readMethod h client .exists' .stat pushExists path async watch

def methodGetChildren (path async watch : RubyValue) : CResult (BaseReturn × Option ZooCall) :=
  readMethod h client .getChildren2 .stringsStat pushGetChildren path async watch

/-- `method_get_acl`, whose `watch` is `Qfalse`. -/
def methodGetAcl (path async : RubyValue) : CResult (BaseReturn × Option ZooCall) :=
  readMethod h client .getAcl .acl pushGetAcl path async (.bool false)

/-- The C backend with these methods. -/
def readBase : ZookeeperBase ZooCall :=
  let other := fun (r : CResult (BaseReturn × Option CompletionFn)) =>
    r.map fun (ret, fn) => (ret, fn.map ZooCall.other)
  { assertOpen := h.base.assertOpen
    setupCall := h.base.setupCall
    get _ path callback watcher := methodGet h client path callback watcher
    set reqId path data callback version :=
      other (h.base.set reqId path data callback version)
    getChildren _ path callback watcher := methodGetChildren h client path callback watcher
    exists' _ path callback watcher := methodExists h client path callback watcher
    create reqId path data callback acl flags :=
      other (h.base.create reqId path data callback acl flags)
    delete reqId path version callback := other (h.base.delete reqId path version callback)
    sync reqId path := other (h.base.sync reqId path)
    setAcl reqId path acl callback version :=
      other (h.base.setAcl reqId path acl callback version)
    getAcl _ path callback := methodGetAcl h client path callback }

end Methods

/-! ## The C client -/

/-- What the server replies to a read. -/
inductive ReadReply where
  | ok (data : Option Bytes) (fits : ∀ bytes, data = some bytes → bytes.length ≤ MAX_ZNODE_SIZE)
    (stat : Stat) (children : List CString) (acls : List CACL)
  | failed (rc : ℤ) (ne : rc ≠ ZOK)

/-- The buffer of `zoo_get` has the data, as far as it goes; without data the length is -1. -/
def Output.HoldsData (out : Output) : Option Bytes → Prop
  | none => out.dataLen = -1
  | some bytes =>
    out.data.length = MAX_ZNODE_SIZE ∧ out.dataLen = min bytes.length MAX_ZNODE_SIZE ∧
      out.data.take (min bytes.length MAX_ZNODE_SIZE) = bytes.take MAX_ZNODE_SIZE

/-- The variables have the reply, those that the function fills. -/
def Output.Holds (out : Output) (fn : ReadFn) : ReadReply → Prop
  | .ok data _ stat children acls =>
    out.rc = ZOK ∧ out.stat = stat ∧ (fn = .get → out.HoldsData data) ∧
      (fn = .getChildren2 → out.strings = stringVector children) ∧
      (fn = .getAcl → out.acls = .ofList (acls.map CACL.struct))
  | .failed rc _ => out.rc = rc

/-- A synchronous call leaves the reply in the variables. -/
def Answers (client : ZooCall → Output) (fn : ReadFn) (reply : ReadReply) : Prop :=
  ∀ watch, (client (.sync fn watch)).Holds fn reply

/-- What the C client calls with the reply to an asynchronous call, if the completion function
has the type that goes with the call. -/
def completionOf : ReadFn → CompletionFn → ReadReply → Option Invocation
  | .get, .data, .ok data _ stat _ _ =>
    some (.data ZOK ⟨data, (data.map fun bytes => (bytes.length : ℤ)).getD (-1), by
      rintro bytes rfl
      simp⟩ (some stat))
  | .get, .data, .failed rc _ => some (.data rc ⟨none, 0, by simp⟩ none)
  | .exists', .stat, .ok _ _ stat _ _ => some (.stat ZOK (some stat))
  | .exists', .stat, .failed rc _ => some (.stat rc none)
  | .getChildren2, .stringsStat, .ok _ _ stat children _ =>
    some (.stringsStat ZOK (some children) (some stat))
  | .getChildren2, .stringsStat, .failed rc _ => some (.stringsStat rc none none)
  | .getAcl, .acl, .ok _ _ stat _ acls => some (.acl ZOK (some acls) (some stat))
  | .getAcl, .acl, .failed rc _ => some (.acl rc none none)
  | _, _, _ => none

/-- The read of an operation. -/
def readFn : Meth → Option ReadFn
  | .get => some .get
  | .stat => some .exists'
  | .getChildren => some .getChildren2
  | .getAcl => some .getAcl
  | _ => none

/-! ## The answers -/

/-- What is returned and what a callback receives: the same code, the same data, children, ACLs
and `Stat`, which does not exist after an error. -/
structure SameAnswer (rv : Returned) (hash : CallbackHash) : Prop where
  rc : hash.rc = some rv.rc
  data : hash.data = rv.data
  children : hash.strings = rv.children
  acl : hash.acl.map (Option.map (List.map RubyACL.toHash)) = rv.acl
  stat : hash.stat = rv.stat
  notExists : rv.rc ≠ ZOK → ∃ stat, rv.stat = some stat ∧ stat.present = false

/-! ## What a method returns -/

section ReadMethod

variable {h : CHandle} {client : ZooCall → Output} {fn : ReadFn} {completion : CompletionFn}
  {push : Output → BaseReturn → CResult BaseReturn} {path async watch : RubyValue}
  {ret : BaseReturn} {call : Option ZooCall}

theorem readMethod_sync (hasync : async.truthy = false)
    (hret : readMethod h client fn completion push path async watch = .ok (ret, call)) :
    ∃ w, pushed push (client (.sync fn w)) = .ok ret := by
  have htype : (callType async watch).isSync = true ∧
      zooCall fn completion (callType async watch) = .sync fn watch.truthy := by
    cases hw : watch.truthy <;> simp [callType, hasync, hw, CallType.isSync, zooCall]
  unfold readMethod at hret
  obtain ⟨-, hret⟩ := then_eq_ok.mp hret
  rw [if_pos htype.1, htype.2] at hret
  obtain ⟨ret', hpush, heq⟩ := map_eq_ok.mp hret
  cases heq
  exact ⟨watch.truthy, hpush⟩

theorem readMethod_async (hasync : async.truthy = true)
    (hret : readMethod h client fn completion push path async watch = .ok (ret, call)) :
    call = some (.async fn watch.truthy completion) := by
  have htype : (callType async watch).isSync = false ∧
      zooCall fn completion (callType async watch) = .async fn watch.truthy completion := by
    cases hw : watch.truthy <;> simp [callType, hasync, hw, CallType.isSync, zooCall]
  unfold readMethod at hret
  obtain ⟨-, hret⟩ := then_eq_ok.mp hret
  rw [if_neg (by simp [htype.1]), htype.2] at hret
  cases hret
  rfl

end ReadMethod

/-- What a synchronous read returns for a reply. -/
def returnOf : ReadFn → ReadReply → BaseReturn
  | _, .failed rc _ => { rc := rc }
  | .get, .ok data _ stat _ _ => { rc := ZOK, data := data, stat := statValue (some stat) }
  | .exists', .ok _ _ stat _ _ => { rc := ZOK, stat := statValue (some stat) }
  | .getChildren2, .ok _ _ stat children _ =>
    { rc := ZOK, children := some (children.map CString.str), stat := statValue (some stat) }
  | .getAcl, .ok _ _ stat _ acls =>
    { rc := ZOK
      acl := some (ZookeeperClient.zkrbAclVectorToRuby (acls.map CACL.value))
      stat := statValue (some stat) }

section Pushed

variable {out : Output} {reply : ReadReply}

theorem pushed_failed {push : Output → BaseReturn → CResult BaseReturn} {fn : ReadFn} {rc : ℤ}
    {ne : rc ≠ ZOK} (hout : out.Holds fn (.failed rc ne)) :
    pushed push out = .ok (returnOf fn (.failed rc ne)) := by
  have hrc : out.rc = rc := hout
  rw [pushed, if_neg (hrc ▸ ne), hrc]
  cases fn <;> rfl

/-- The buffer is read back as the data that was put there. -/
theorem readBuffer_eq {data : Option Bytes}
    (fits : ∀ bytes, data = some bytes → bytes.length ≤ MAX_ZNODE_SIZE)
    (hdata : out.HoldsData data) : readBuffer out = .ok data := by
  unfold readBuffer
  cases data with
  | none => exact if_pos hdata
  | some bytes =>
    obtain ⟨hsize, hlen, htake⟩ := hdata
    have hfits := fits bytes rfl
    rw [Nat.min_eq_left hfits] at hlen htake
    rw [List.take_of_length_le hfits] at htake
    have hread : rbStrNew out.data bytes.length = .ok bytes := by
      rw [rbStrNew, if_pos ⟨by omega, by omega⟩, Int.toNat_natCast, htake]
    rw [if_neg (by omega), hlen, hread]
    rfl

theorem pushed_get (hout : out.Holds .get reply) :
    pushed pushGet out = .ok (returnOf .get reply) := by
  cases reply with
  | failed rc ne => exact pushed_failed hout
  | ok data fits stat children acls =>
    obtain ⟨hrc, hstat, hdata, -, -⟩ := hout
    rw [pushed, if_pos hrc, pushGet, readBuffer_eq fits (hdata rfl), hstat, hrc]
    rfl

theorem pushed_exists (hout : out.Holds .exists' reply) :
    pushed pushExists out = .ok (returnOf .exists' reply) := by
  cases reply with
  | failed rc ne => exact pushed_failed hout
  | ok data fits stat children acls =>
    obtain ⟨hrc, hstat, -, -, -⟩ := hout
    rw [pushed, if_pos hrc, pushExists, hstat, hrc]
    rfl

theorem pushed_getChildren (hout : out.Holds .getChildren2 reply) :
    pushed pushGetChildren out = .ok (returnOf .getChildren2 reply) := by
  cases reply with
  | failed rc ne => exact pushed_failed hout
  | ok data fits stat children acls =>
    obtain ⟨hrc, hstat, -, hstrings, -⟩ := hout
    rw [pushed, if_pos hrc, pushGetChildren, hstrings rfl, zkrbStringVectorToRuby_eq, hstat, hrc]
    rfl

theorem pushed_getAcl (hout : out.Holds .getAcl reply) :
    pushed pushGetAcl out = .ok (returnOf .getAcl reply) := by
  cases reply with
  | failed rc ne => exact pushed_failed hout
  | ok data fits stat children acls =>
    obtain ⟨hrc, hstat, -, -, hacls⟩ := hout
    rw [pushed, if_pos hrc, pushGetAcl, hacls rfl, zkrbAclVectorToRuby_ofList, hstat, hrc]
    rfl

end Pushed

/-! ## What a callback receives -/

/-- A completion reaches the callback that is registered for its request. -/
theorem called_of_entry (env : Allocators) {inv : Invocation} (hinv : inv.isCompletion = true)
    {reqId : ℤ} {tables : Requests} {cb : Obj} {context : Option Obj}
    (hentry : tables.completionReqs reqId =
      some { callback := some (.user cb), context := context })
    (hcallable : cb.callable = true) (debug : Bool) :
    ∃ raw, (inv.run env ⟨reqId⟩).bind zkrbEventToRuby = .ok raw ∧
      (dispatchNextCallback debug (some raw) tables).called =
        some (.user cb, { inv.handed reqId with context := context }) := by
  have hid : (inv.event reqId).reqId = reqId := by cases inv <;> rfl
  have hcompletion := (isCompletion_event reqId inv).trans hinv
  have hprelude := dispatchPrelude_completion debug (inv.event reqId) hcompletion
  have hsession := isSession_eq_false_of_isCompletion (inv.event reqId) hcompletion
  have htake : takeEntry (ZookeeperClient.zkrbEventToRuby (inv.event reqId)).convert tables = _ :=
    takeEntry_completion hcompletion tables
  refine ⟨_, zkrbEventToRuby_run env ⟨reqId⟩ inv, ?_⟩
  rw [dispatchNextCallback_of_ok hprelude (restoreEntry_of_not_session hsession _ _), htake]
  show callbackOf _ (tables.getCompletion _).1 = _
  rw [reqId_convert, reqId_zkrbEventToRuby, hid]
  have hcalled : (Handler.user cb).respondToCall = true := hcallable
  simp only [Requests.getCompletion, hentry, ← convert_event]
  exact callbackOf_completion hcompletion rfl hcalled

/-- The result of a read, which is that of its method under the keys of the operation. -/
theorem returned_sync {m : Meth} {options : Options}
    (hcb : (options.get .callback).truthy = false) (reqId : ℤ) (ret : BaseReturn) :
    (Zookeeper.operation ZooCall m).returned reqId options ret =
      (Zookeeper.operation ZooCall m).merge { reqId := reqId, rc := ret.rc } ret := by
  rw [Operation.returned, if_neg (by simp [hcb])]

/-- A failed read: the code, and a `Stat` that does not exist. -/
theorem sameAnswer_failed {m : Meth} {fn : ReadFn} (hm : readFn m = some fn)
    {rc : ℤ} (ne : rc ≠ ZOK) :
    ∃ inv, completionOf fn (completionsOf m).1 (.failed rc ne) = some inv ∧
      inv.isCompletion = true ∧ ∀ reqId reqId' context, SameAnswer
        ((Zookeeper.operation ZooCall m).merge
          { reqId := reqId, rc := (returnOf fn (.failed rc ne)).rc }
          (returnOf fn (.failed rc ne)))
        { inv.handed reqId' with context := context } := by
  cases m <;> cases hm <;>
    exact ⟨_, rfl, rfl, fun _ _ _ => ⟨rfl, rfl, rfl, rfl, rfl, fun _ => ⟨_, rfl, rfl⟩⟩⟩

theorem sameAnswer_ok {m : Meth} {fn : ReadFn} (hm : readFn m = some fn) {data : Option Bytes}
    (fits : ∀ bytes, data = some bytes → bytes.length ≤ MAX_ZNODE_SIZE) (stat : Stat)
    (children : List CString) (acls : List CACL) :
    ∃ inv, completionOf fn (completionsOf m).1 (.ok data fits stat children acls) = some inv ∧
      inv.isCompletion = true ∧ ∀ reqId reqId' context, SameAnswer
        ((Zookeeper.operation ZooCall m).merge
          { reqId := reqId, rc := (returnOf fn (.ok data fits stat children acls)).rc }
          (returnOf fn (.ok data fits stat children acls)))
        { inv.handed reqId' with context := context } := by
  have hstat := congrArg some (ZookeeperStat.new_statValue (some stat)).symm
  cases m <;> cases hm
  case get =>
    refine ⟨_, rfl, rfl, fun _ _ _ => ⟨rfl, ?_, rfl, rfl, hstat, fun hne => absurd rfl hne⟩⟩
    cases data with
    | none => rfl
    | some bytes => simp [Invocation.handed, DataArg.bytes, Zookeeper.operation, Zookeeper.get,
        returnOf]
  case getChildren | stat =>
    exact ⟨_, rfl, rfl, fun _ _ _ => ⟨rfl, rfl, rfl, rfl, hstat, fun hne => absurd rfl hne⟩⟩
  case getAcl =>
    refine ⟨_, rfl, rfl, fun _ _ _ => ⟨rfl, rfl, rfl, ?_, hstat, fun hne => absurd rfl hne⟩⟩
    have hacls : (acls.map CACL.object).map RubyACL.toHash =
        (acls.map CACL.value).map ZookeeperClient.zkrbAclToRuby := by
      rw [List.map_map, List.map_map]
      rfl
    exact congrArg (fun l => some (some l)) hacls

/-- The reads of an operation end in the same answer. -/
theorem sameAnswer_returned {m : Meth} {fn : ReadFn} (hm : readFn m = some fn)
    {options : Options} (hcb : (options.get .callback).truthy = false) (reply : ReadReply) :
    ∃ inv, completionOf fn (completionsOf m).1 reply = some inv ∧ inv.isCompletion = true ∧
      ∀ reqId reqId' context, SameAnswer
        ((Zookeeper.operation ZooCall m).returned reqId options (returnOf fn reply))
        { inv.handed reqId' with context := context } := by
  simp only [returned_sync hcb]
  cases reply with
  | failed rc ne => exact sameAnswer_failed hm ne
  | ok data fits stat children acls => exact sameAnswer_ok hm fits stat children acls

/-- The options of a read are passed on as they are. -/
theorem withDefault_read {m : Meth} {fn : ReadFn} (hm : readFn m = some fn) (options : Options) :
    (Zookeeper.operation ZooCall m).withDefault options = options := by
  cases m <;> cases hm <;> rfl

/-- A read that returns has registered its handlers, and returns what its method does. -/
theorem run_read_eq_ok {m : Meth} {fn : ReadFn} (hm : readFn m = some fn)
    {base : ZookeeperBase ZooCall} {options : Options} {t : Requests} {rv : Returned}
    {call : Option ZooCall}
    (h : ((Zookeeper.operation ZooCall m).run base options t).result = .ok (rv, call)) :
    ((Zookeeper.operation ZooCall m).run base options t).requests =
        base.setupCall m options.toReqHash t ∧
      ∃ ret, (Zookeeper.operation ZooCall m).call base t.currentReqId options =
          .ok (ret, call) ∧
        rv = (Zookeeper.operation ZooCall m).returned t.currentReqId options ret := by
  obtain ⟨hcheck, ret, hcall, hrv⟩ := Operation.run_eq_ok h
  rw [withDefault_read hm] at hcall hrv
  refine ⟨?_, ret, hcall, hrv⟩
  rw [Operation.run_of_check_ok t hcheck, withDefault_read hm, Zookeeper.methName_operation]

/-- A synchronous read of a client that answers returns the reply. -/
theorem call_sync {m : Meth} {fn : ReadFn} (hm : readFn m = some fn) {h : CHandle}
    {client : ZooCall → Output} {reply : ReadReply} (hclient : Answers client fn reply)
    {options : Options} (hcb : (options.get .callback).truthy = false) {reqId : ℤ}
    {ret : BaseReturn} {call : Option ZooCall}
    (hcall : (Zookeeper.operation ZooCall m).call (readBase h client) reqId options =
      .ok (ret, call)) :
    ret = returnOf fn reply := by
  cases m <;> cases hm
  case get =>
    obtain ⟨w, hw⟩ := readMethod_sync hcb hcall
    exact Except.ok.inj (hw.symm.trans (pushed_get (hclient w)))
  case getChildren =>
    obtain ⟨w, hw⟩ := readMethod_sync hcb hcall
    exact Except.ok.inj (hw.symm.trans (pushed_getChildren (hclient w)))
  case stat =>
    obtain ⟨w, hw⟩ := readMethod_sync hcb hcall
    exact Except.ok.inj (hw.symm.trans (pushed_exists (hclient w)))
  case getAcl =>
    obtain ⟨w, hw⟩ := readMethod_sync hcb hcall
    exact Except.ok.inj (hw.symm.trans (pushed_getAcl (hclient w)))

/-- An asynchronous read passes the completion function of its operation. -/
theorem call_async {m : Meth} {fn : ReadFn} (hm : readFn m = some fn) {h : CHandle}
    {client : ZooCall → Output} {options : Options}
    (hcb : (options.get .callback).truthy = true) {reqId : ℤ} {ret : BaseReturn}
    {call : Option ZooCall}
    (hcall : (Zookeeper.operation ZooCall m).call (readBase h client) reqId options =
      .ok (ret, call)) :
    ∃ w, call = some (.async fn w (completionsOf m).1) := by
  cases m <;> cases hm <;> exact ⟨_, readMethod_async hcb hcall⟩

/-- **The two ways of a read agree.** Let the C client answer a read with a reply, leaving it in
the variables of a synchronous call and passing it to the completion function of an asynchronous
one. If the operation returns normally without a callback, and with one, then what the first
returns and what the callback of the second receives are the same answer. The client may be in
any state, the options may have a watcher or not, and the event may be dispatched at any time
while its request is registered. -/
theorem reads_agree (env : Allocators) {m : Meth} {fn : ReadFn} (hm : readFn m = some fn)
    {client : ZooCall → Output} {reply : ReadReply} (hclient : Answers client fn reply)
    {h h' : CHandle} {options options' : Options} {t t' : Requests}
    (hsync : (options.get .callback).truthy = false) {rv : Returned} {call : Option ZooCall}
    (hrun : ((Zookeeper.operation ZooCall m).run (readBase h client) options t).result =
      .ok (rv, call))
    {cb : Obj} (hasync : options'.obj .callback = some cb) (hcallable : cb.callable = true)
    {rv' : Returned} {call' : Option ZooCall}
    (hrun' : ((Zookeeper.operation ZooCall m).run (readBase h' client) options' t').result =
      .ok (rv', call'))
    (debug : Bool) {tables : Requests}
    (htables : tables.completionReqs rv'.reqId =
      ((Zookeeper.operation ZooCall m).run (readBase h' client) options'
        t').requests.completionReqs rv'.reqId) :
    ∃ watch completion inv raw hash, call' = some (.async fn watch completion) ∧
      completionOf fn completion reply = some inv ∧
      (inv.run env ⟨rv'.reqId⟩).bind zkrbEventToRuby = .ok raw ∧
      (dispatchNextCallback debug (some raw) tables).called = some (.user cb, hash) ∧
      SameAnswer rv hash := by
  have htruthy : (options'.get .callback).truthy = true := by
    rw [← Options.isSome_obj, hasync]
    rfl
  obtain ⟨-, ret, hcall, rfl⟩ := run_read_eq_ok hm hrun
  obtain ⟨hrequests, ret', hcall', rfl⟩ := run_read_eq_ok hm hrun'
  obtain rfl := call_sync hm hclient hsync hcall
  obtain ⟨watch, rfl⟩ := call_async hm htruthy hcall'
  have hid : ((Zookeeper.operation ZooCall m).returned t'.currentReqId options' ret').reqId =
      t'.currentReqId := by
    simp [Operation.returned, htruthy]
  obtain ⟨inv, hinv, hcompletion, hsame⟩ := sameAnswer_returned hm hsync reply
  -- the request is registered with the callback that was given
  have hentry : tables.completionReqs t'.currentReqId =
      some { callback := some (.user cb), context := options'.obj .callbackContext } := by
    rw [hid, hrequests] at htables
    rw [htables]
    show (t'.setupCall m options'.toReqHash).completionReqs _ = _
    have hwrap : Requests.wrapCallback m options'.toReqHash = options'.toReqHash := by
      cases m <;> cases hm <;> rfl
    rw [Requests.completionReqs_setupCall, hwrap, if_pos (by simp [Options.toReqHash, hasync]),
      Function.update_self]
    simp [Options.toReqHash, hasync]
  rw [hid]
  obtain ⟨raw, hraw, hcalled⟩ := called_of_entry env hcompletion hentry hcallable debug
  exact ⟨watch, _, inv, raw, _, rfl, hinv, hraw, hcalled, hsame _ _ _⟩

/-- `/` has two children, of which one has an empty name; it is read with a watcher and a
callback, and without. -/
theorem reads_agree_children :
    ∃ raw hash, (dispatchNextCallback true (some raw)
        ⟨8, Function.update (fun _ => none) 7 (some { callback := some (.user ⟨1, true⟩) }),
          fun _ => none⟩).called = some (.user ⟨1, true⟩, hash) ∧
      SameAnswer
        { reqId := 3, rc := ZOK, children := some (some [[97], []]),
          stat := some (.new (.array [1, 2, 3, 4, 5, 6, 7, 8, 9, 10, 11])) } hash := by
  let stat : Stat := ⟨1, 2, 3, 4, 5, 6, 7, 8, 9, 10, 11⟩
  let children : List CString := [.ofBytes [97], .ofBytes []]
  let client : ZooCall → Output := fun _ =>
    { rc := ZOK, data := [], dataLen := -1, stat := stat, strings := stringVector children,
      acls := .ofList [] }
  let h : CHandle :=
    { host := [], state := 3, connected := true, isOpen := true,
      answer := ⟨ZOK, none, stat, [], [], [], true⟩ }
  let path : OptionValue := ⟨.str [47], 1, ⟨9, false⟩⟩
  let handler : OptionValue := ⟨.other none none none, 1, ⟨1, true⟩⟩
  let options : Options := [(.path, path)]
  let options' : Options := [(.path, path), (.watcher, handler), (.callback, handler)]
  let t : Requests := ⟨3, fun _ => none, fun _ => none⟩
  let t' : Requests := ⟨7, fun _ => none, fun _ => none⟩
  let tables : Requests :=
    ⟨8, Function.update (fun _ => none) 7 (some { callback := some (.user ⟨1, true⟩) }),
      fun _ => none⟩
  let rv : Returned :=
    { reqId := 3, rc := ZOK, children := some (some [[97], []]),
      stat := some (.new (.array [1, 2, 3, 4, 5, 6, 7, 8, 9, 10, 11])) }
  have hclient : Answers client .getChildren2 (.ok none (by simp) stat children []) :=
    fun _ => ⟨rfl, rfl, fun _ => rfl, fun _ => rfl, fun _ => rfl⟩
  have hrun : ((Zookeeper.operation ZooCall .getChildren).run (readBase h client) options
      t).result = .ok (rv, none) := rfl
  have hrun' : ((Zookeeper.operation ZooCall .getChildren).run (readBase h client) options'
      t').result = .ok ({ reqId := 7, rc := ZOK },
        some (.async .getChildren2 true .stringsStat)) := rfl
  have htables : tables.completionReqs 7 = ((Zookeeper.operation ZooCall .getChildren).run
      (readBase h client) options' t').requests.completionReqs 7 := rfl
  obtain ⟨_, _, _, raw, hash, -, -, -, hcalled, hsame⟩ :=
    reads_agree .zeroed rfl hclient rfl hrun rfl rfl hrun' true htables
  exact ⟨raw, hash, hcalled, hsame⟩

end Marshal

end ZookeeperClient
