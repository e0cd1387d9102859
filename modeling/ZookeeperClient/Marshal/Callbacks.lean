import ZookeeperClient.Marshal.Acls
import ZookeeperClient.Ruby.Dispatch

/-!
# From the arguments of a callback to a Ruby hash

The eight callbacks that `ext/zookeeper_lib.c` passes to the C client copy their arguments into a
`zkrb_event_t`: a tag, and a union of pointers to what belongs to the tag. `zkrb_event_to_ruby`
switches on the tag and reads the member of the union that should be there. To read another
member is `OperationError.undefined`.

## Main definitions

- `CompletionPtr`, `ZkrbEventT` — the union and `zkrb_event_t`
- `zkrbStateCallback` to `zkrbAclCallback` — the callbacks
- `zkrbEventToRuby` — the switch
- `Invocation` — a callback with the arguments it can be given
- `Invocation.handed` — the hash that should reach the handler

## Main results

- `zkrbEventToRuby_run` — what is marshalled is the event of the invocation
- `marshalled` — the hash has the arguments, and is routed to the right table
-/

namespace ZookeeperClient

/-- The field of a name. -/
def Stat.field (s : Stat) : StatMember → ℤ
  | .czxid => s.czxid
  | .mzxid => s.mzxid
  | .ctime => s.ctime
  | .mtime => s.mtime
  | .version => s.version
  | .cversion => s.cversion
  | .aversion => s.aversion
  | .ephemeralOwner => s.ephemeralOwner
  | .dataLength => s.dataLength
  | .numChildren => s.numChildren
  | .pzxid => s.pzxid

/-- The object that has each field of a `struct Stat` under its own name. -/
def ZookeeperStat.ofStruct : Option Stat → ZookeeperStat
  | none => ⟨false, fun _ => none⟩
  | some s => ⟨true, fun m => some (s.field m)⟩

/-- The positions of `zkrb_stat_to_rarray` are those of `Stat#initialize`. -/
theorem ZookeeperStat.new_statValue (stat : Option Stat) :
    ZookeeperStat.new (statValue stat) = .ofStruct stat := by
  cases stat with
  | none => rfl
  | some s =>
    show ZookeeperStat.mk _ _ = ZookeeperStat.mk _ _
    congr 1
    funext m
    cases m <;> rfl

namespace Marshal

open Memory

/-! ## The structures -/

/-- `struct String_vector`. -/
abbrev StringVector := CVector (Option Block)

/-- The tag of a `zkrb_event_t`. -/
inductive EventType where
  | data | stat | void | string | strings | stringsStat | acl | watcher
  deriving DecidableEq, Repr

structure DataCompletion where
  data : Option Block
  dataLen : ℤ
  stat : Option Stat

structure StatCompletion where
  stat : Option Stat

structure StringCompletion where
  value : Option Block

structure StringsCompletion where
  values : Option StringVector

structure StringsStatCompletion where
  values : Option StringVector
  stat : Option Stat

structure AclCompletion where
  acl : Option (CVector StructACL)
  stat : Option Stat

structure WatcherCompletion where
  type : ℤ
  state : ℤ
  path : Option Block

/-- The union `completion`, by the member that was written last. -/
inductive CompletionPtr where
  | dataCompletion (ctx : DataCompletion)
  | statCompletion (ctx : StatCompletion)
  /-- The pointer is `NULL`. -/
  | voidCompletion
  | stringCompletion (ctx : StringCompletion)
  | stringsCompletion (ctx : StringsCompletion)
  | stringsStatCompletion (ctx : StringsStatCompletion)
  | aclCompletion (ctx : AclCompletion)
  | watcherCompletion (ctx : WatcherCompletion)

namespace CompletionPtr

def getData : CompletionPtr → CResult DataCompletion
  | .dataCompletion ctx => .ok ctx
  | _ => .error .undefined

def getStat : CompletionPtr → CResult StatCompletion
  | .statCompletion ctx => .ok ctx
  | _ => .error .undefined

def getString : CompletionPtr → CResult StringCompletion
  | .stringCompletion ctx => .ok ctx
  | _ => .error .undefined

def getStrings : CompletionPtr → CResult StringsCompletion
  | .stringsCompletion ctx => .ok ctx
  | _ => .error .undefined

def getStringsStat : CompletionPtr → CResult StringsStatCompletion
  | .stringsStatCompletion ctx => .ok ctx
  | _ => .error .undefined

def getAcl : CompletionPtr → CResult AclCompletion
  | .aclCompletion ctx => .ok ctx
  | _ => .error .undefined

def getWatcher : CompletionPtr → CResult WatcherCompletion
  | .watcherCompletion ctx => .ok ctx
  | _ => .error .undefined

end CompletionPtr

/-- `zkrb_event_t`. -/
structure ZkrbEventT where
  reqId : ℤ
  /-- `none` when it has not been set. -/
  rc : Option ℤ
  type : EventType
  completion : CompletionPtr

/-- `zkrb_calling_context`, without the queue. -/
structure CallingContext where
  reqId : ℤ

/-! ## The callbacks -/

/-- `p ? f(p) : NULL`. -/
def unlessNull {α β : Type} (f : α → CResult β) : Option α → CResult (Option β)
  | none => .ok none
  | some a => (f a).map some

/-- A conversion that succeeds on some arguments does so on a pointer to one of them. -/
theorem unlessNull_map {α β γ : Type} {f : α → CResult β} {g : γ → α} {h : γ → β}
    (hf : ∀ c, f (g c) = .ok (h c)) (p : Option γ) :
    unlessNull f (p.map g) = .ok (p.map h) := by
  cases p with
  | none => rfl
  | some c =>
    show (f (g c)).map some = _
    rw [hf]
    rfl

section Callbacks

variable (env : Allocators)

/-- One round of the loop of `zkrb_clone_string_vector`. -/
def cloneString (p : Option Block) : CResult (Option Block) :=
  (strdup .undefined p).map some

def zkrbCloneStringVector (src : StringVector) : CResult StringVector :=
  (env.stringVector.allocate src.count).fill .undefined src.count fun k =>
    (load .undefined src.data k).bind cloneString

/-- `ZKH_SETUP_EVENT`, with the fields that are set after it. -/
def setupEvent (ctx : CallingContext) (rc : ℤ) (type : EventType) (completion : CompletionPtr) :
    ZkrbEventT :=
  ⟨ctx.reqId, some rc, type, completion⟩

/-- `zkrb_state_callback`, which does not test its path for `NULL`. -/
def zkrbStateCallback (type state : ℤ) (path : Option Block) (ctx : CallingContext) :
    CResult ZkrbEventT := do
  let path ← strdup .undefined path
  return ⟨ctx.reqId, none, .watcher, .watcherCompletion ⟨type, state, some path⟩⟩

/-- The copy of `value` in `zkrb_data_callback`. -/
def copyData (value : Block) (valueLen : ℤ) : CResult Block :=
  if 0 ≤ valueLen then
    memcpy .undefined (malloc env.junk valueLen.toNat) value valueLen.toNat
  else .error .undefined

def zkrbDataCallback (rc : ℤ) (value : Option Block) (valueLen : ℤ) (stat : Option Stat)
    (ctx : CallingContext) : CResult ZkrbEventT := do
  let data ← unlessNull (fun value => copyData env value valueLen) value
  let dataLen := if value.isSome then valueLen else 0
  return setupEvent ctx rc .data (.dataCompletion ⟨data, dataLen, stat⟩)

def zkrbStatCallback (rc : ℤ) (stat : Option Stat) (ctx : CallingContext) :
    CResult ZkrbEventT :=
  .ok (setupEvent ctx rc .stat (.statCompletion ⟨stat⟩))

def zkrbStringCallback (rc : ℤ) (string : Option Block) (ctx : CallingContext) :
    CResult ZkrbEventT := do
  let value ← unlessNull (fun p => strdup .undefined (some p)) string
  return setupEvent ctx rc .string (.stringCompletion ⟨value⟩)

def zkrbStringsCallback (rc : ℤ) (strings : Option StringVector) (ctx : CallingContext) :
    CResult ZkrbEventT := do
  let values ← unlessNull (zkrbCloneStringVector env) strings
  return setupEvent ctx rc .strings (.stringsCompletion ⟨values⟩)

def zkrbStringsStatCallback (rc : ℤ) (strings : Option StringVector) (stat : Option Stat)
    (ctx : CallingContext) : CResult ZkrbEventT := do
  let values ← unlessNull (zkrbCloneStringVector env) strings
  return setupEvent ctx rc .stringsStat (.stringsStatCompletion ⟨values, stat⟩)

def zkrbVoidCallback (rc : ℤ) (ctx : CallingContext) : CResult ZkrbEventT :=
  .ok (setupEvent ctx rc .void .voidCompletion)

def zkrbAclCallback (rc : ℤ) (acls : Option (CVector StructACL)) (stat : Option Stat)
    (ctx : CallingContext) : CResult ZkrbEventT := do
  let acl ← unlessNull (zkrbCloneAclVector env) acls
  return setupEvent ctx rc .acl (.aclCompletion ⟨acl, stat⟩)

end Callbacks

/-! ## The switch -/

/-- `rb_str_new`. -/
def rbStrNew (p : Block) (len : ℤ) : CResult Bytes :=
  if 0 ≤ len ∧ len ≤ p.length then .ok (p.take len.toNat) else .error .undefined

def zkrbStringVectorToRuby (v : StringVector) : CResult (List Bytes) :=
  v.toArray .undefined rbStrNew2

/-- `zkrb_event_to_ruby`, of an event that is not `NULL`. -/
def zkrbEventToRuby (event : ZkrbEventT) : CResult RawHash := do
  let hash : RawHash := { reqId := event.reqId }
  let hash ←
    if event.type = .watcher then .ok hash
    else (deref .undefined event.rc).map fun rc => { hash with rc := some rc }
  match event.type with
  | .data =>
    let ctx ← event.completion.getData
    let data ← unlessNull (fun p => rbStrNew p ctx.dataLen) ctx.data
    return { hash with data := some data, stat := some (statValue ctx.stat) }
  | .stat =>
    let ctx ← event.completion.getStat
    return { hash with stat := some (statValue ctx.stat) }
  | .string =>
    let ctx ← event.completion.getString
    let string ← unlessNull (fun p => rbStrNew2 (some p)) ctx.value
    return { hash with string := some string }
  | .strings =>
    let ctx ← event.completion.getStrings
    let strings ← unlessNull zkrbStringVectorToRuby ctx.values
    return { hash with strings := some strings }
  | .stringsStat =>
    let ctx ← event.completion.getStringsStat
    let strings ← unlessNull zkrbStringVectorToRuby ctx.values
    return { hash with strings := some strings, stat := some (statValue ctx.stat) }
  | .acl =>
    let ctx ← event.completion.getAcl
    let acl ← unlessNull zkrbAclVectorToRuby ctx.acl
    return { hash with acl := some acl, stat := some (statValue ctx.stat) }
  | .watcher =>
    let ctx ← event.completion.getWatcher
    let path ← unlessNull (fun p => rbStrNew2 (some p)) ctx.path
    return { hash with type := some ctx.type, state := some ctx.state, path := some path }
  | .void => return hash

/-! ## Invocations -/

/-- A pointer to data and a length: unless the pointer is null, that many bytes can be read
there. -/
structure DataArg where
  value : Option Block
  len : ℤ
  readable : ∀ block, value = some block → 0 ≤ len ∧ len ≤ block.length

/-- The data. -/
def DataArg.bytes (arg : DataArg) : Option Bytes :=
  arg.value.map fun block => block.take arg.len.toNat

/-- A callback with arguments that the C client can give it. -/
inductive Invocation where
  | data (rc : ℤ) (value : DataArg) (stat : Option Stat)
  | stat (rc : ℤ) (stat : Option Stat)
  | string (rc : ℤ) (string : Option CString)
  | strings (rc : ℤ) (strings : Option (List CString))
  | stringsStat (rc : ℤ) (strings : Option (List CString)) (stat : Option Stat)
  | void (rc : ℤ)
  | acl (rc : ℤ) (acls : Option (List CACL)) (stat : Option Stat)
  | state (type state : ℤ) (path : CString)

/-- The vector of some strings. -/
def stringVector (strings : List CString) : StringVector :=
  .ofList (strings.map fun s => some s.block)

namespace Invocation

/-- The callback runs. -/
def run (env : Allocators) (ctx : CallingContext) : Invocation → CResult ZkrbEventT
  | .data rc arg s => zkrbDataCallback env rc arg.value arg.len s ctx
  | .stat rc s => zkrbStatCallback rc s ctx
  | .string rc value => zkrbStringCallback rc (value.map CString.block) ctx
  | .strings rc values => zkrbStringsCallback env rc (values.map stringVector) ctx
  | .stringsStat rc values s =>
    zkrbStringsStatCallback env rc (values.map stringVector) s ctx
  | .void rc => zkrbVoidCallback rc ctx
  | .acl rc acls s =>
    zkrbAclCallback env rc (acls.map fun acls => .ofList (acls.map CACL.struct)) s ctx
  | .state type st path => zkrbStateCallback type st (some path.block) ctx

/-- The callback is a completion. -/
def isCompletion : Invocation → Bool
  | .state _ _ _ => false
  | _ => true

/-- What the handler should get: the request id, the return code if the callback is a
completion, and the arguments under their names, with `nil` for `NULL`. -/
def handed (reqId : ℤ) : Invocation → CallbackHash
  | .data rc arg s =>
    { reqId := reqId, rc := some rc, data := some arg.bytes, stat := some (.ofStruct s) }
  | .stat rc s => { reqId := reqId, rc := some rc, stat := some (.ofStruct s) }
  | .string rc value => { reqId := reqId, rc := some rc, string := some (value.map CString.str) }
  | .strings rc values =>
    { reqId := reqId, rc := some rc, strings := some (values.map (List.map CString.str)) }
  | .stringsStat rc values s =>
    { reqId := reqId, rc := some rc, strings := some (values.map (List.map CString.str)),
      stat := some (.ofStruct s) }
  | .void rc => { reqId := reqId, rc := some rc }
  | .acl rc acls s =>
    { reqId := reqId, rc := some rc, acl := some (acls.map (List.map CACL.object)),
      stat := some (.ofStruct s) }
  | .state type st path =>
    { reqId := reqId, type := some type, state := some st, path := some (some path.str) }

/-- The event, without its memory. -/
def event (reqId : ℤ) : Invocation → ZkrbEvent
  | .data rc arg s => ⟨reqId, rc, .data arg.bytes s⟩
  | .stat rc s => ⟨reqId, rc, .stat s⟩
  | .string rc value => ⟨reqId, rc, .string (value.map CString.str)⟩
  | .strings rc values => ⟨reqId, rc, .strings (values.map (List.map CString.str))⟩
  | .stringsStat rc values s =>
    ⟨reqId, rc, .stringsStat (values.map (List.map CString.str)) s⟩
  | .void rc => ⟨reqId, rc, .void⟩
  | .acl rc acls s => ⟨reqId, rc, .acl (acls.map (List.map CACL.value)) s⟩
  | .state type st path => ⟨reqId, ZOK, .watcher type st (some path.str)⟩

end Invocation

/-! ## Copies and conversions of what is well formed -/

variable (env : Allocators)

theorem copy_string (s : Option CString) :
    unlessNull (fun p => strdup OperationError.undefined (some p)) (s.map CString.block) =
      .ok (s.map fun s => s.copy.block) :=
  unlessNull_map (g := CString.block) (strdup_cstring OperationError.undefined) s

theorem cloneString_block (s : CString) :
    cloneString (some s.block) = .ok (some s.copy.block) := by
  rw [cloneString, strdup_cstring]
  rfl

theorem rbStrNew2_block (s : CString) : rbStrNew2 (some s.block) = .ok s.str := by
  simp only [rbStrNew2, deref_some, readString_cstring, bind, Except.bind]

theorem zkrbCloneStringVector_eq (strings : List CString) :
    zkrbCloneStringVector env (stringVector strings) =
      .ok (stringVector (strings.map CString.copy)) := by
  have hfill := CVector.fill_map OperationError.undefined
    (fun s (_ : s ∈ strings) => cloneString_block s) env.stringVector
  simpa [zkrbCloneStringVector, stringVector, CVector.ofList, Function.comp_def] using hfill

theorem zkrbStringVectorToRuby_eq (strings : List CString) :
    zkrbStringVectorToRuby (stringVector strings) = .ok (strings.map CString.str) :=
  CVector.toArray_map OperationError.undefined fun s _ => rbStrNew2_block s

theorem string_toRuby (s : Option CString) :
    unlessNull (fun p => rbStrNew2 (some p)) (s.map fun s => s.copy.block) =
      .ok (s.map CString.str) :=
  unlessNull_map (fun s => by rw [rbStrNew2_block, CString.str_copy]) s

theorem copy_strings (strings : Option (List CString)) :
    unlessNull (zkrbCloneStringVector env) (strings.map stringVector) =
      .ok (strings.map fun l => stringVector (l.map CString.copy)) :=
  unlessNull_map (zkrbCloneStringVector_eq env) strings

theorem strings_toRuby (strings : Option (List CString)) :
    unlessNull zkrbStringVectorToRuby
        (strings.map fun l => stringVector (l.map CString.copy)) =
      .ok (strings.map (List.map CString.str)) :=
  unlessNull_map (fun l => by
    rw [zkrbStringVectorToRuby_eq, List.map_map]
    exact congrArg _ (List.map_congr_left fun s _ => CString.str_copy s)) strings

theorem copy_acls (acls : Option (List CACL)) :
    unlessNull (zkrbCloneAclVector env)
        (acls.map fun l => CVector.ofList (l.map CACL.struct)) =
      .ok (acls.map fun l => CVector.ofList ((l.map CACL.copy).map CACL.struct)) :=
  unlessNull_map (fun l => by rw [zkrbCloneAclVector_ofList, List.map_map]; rfl) acls

theorem acls_toRuby (acls : Option (List CACL)) :
    unlessNull zkrbAclVectorToRuby
        (acls.map fun l => CVector.ofList ((l.map CACL.copy).map CACL.struct)) =
      .ok ((acls.map (List.map CACL.value)).map ZookeeperClient.zkrbAclVectorToRuby) := by
  rw [Option.map_map]
  refine unlessNull_map (fun l => ?_) acls
  rw [zkrbAclVectorToRuby_ofList, List.map_map]
  exact congrArg _ (congrArg _ (List.map_congr_left fun acl _ => CACL.value_copy acl))

/-- The data of an invocation is copied, and the copy is read again. -/
theorem copy_data (arg : DataArg) :
    unlessNull (fun value => copyData env value arg.len) arg.value = .ok arg.bytes := by
  cases hvalue : arg.value with
  | none => simp [unlessNull, DataArg.bytes, hvalue]
  | some block =>
    obtain ⟨hpos, hle⟩ := arg.readable block hvalue
    rw [unlessNull, copyData, if_pos hpos, memcpy_malloc _ _ (by omega), DataArg.bytes, hvalue]
    rfl

theorem data_toRuby (arg : DataArg) :
    unlessNull (fun p => rbStrNew p (if arg.value.isSome then arg.len else 0)) arg.bytes =
      .ok arg.bytes := by
  cases hvalue : arg.value with
  | none => simp [unlessNull, DataArg.bytes, hvalue]
  | some block =>
    obtain ⟨hpos, hle⟩ := arg.readable block hvalue
    have hread : rbStrNew (block.take arg.len.toNat) arg.len =
        .ok (block.take arg.len.toNat) := by
      rw [rbStrNew, if_pos ⟨hpos, by rw [List.length_take]; omega⟩, List.take_take,
        Nat.min_self]
    rw [DataArg.bytes, hvalue]
    show (rbStrNew (block.take arg.len.toNat) arg.len).map some = _
    rw [hread]
    rfl

/-- **What is marshalled.** Whatever memory the allocations find, each callback and
`zkrb_event_to_ruby` after it come to the hash of the invocation's event. -/
theorem zkrbEventToRuby_run (ctx : CallingContext) (inv : Invocation) :
    (inv.run env ctx).bind zkrbEventToRuby =
      .ok (ZookeeperClient.zkrbEventToRuby (inv.event ctx.reqId)) := by
  cases inv with
  | data rc arg stat =>
    simp only [Invocation.run, zkrbDataCallback, copy_data, bind, Except.bind, pure, Except.pure]
    simp only [zkrbEventToRuby, setupEvent, CompletionPtr.getData, data_toRuby, bind, Except.bind]
    rfl
  | stat rc stat => rfl
  | string rc string =>
    simp only [Invocation.run, zkrbStringCallback, copy_string, bind, Except.bind, pure,
      Except.pure]
    simp only [zkrbEventToRuby, setupEvent, CompletionPtr.getString, string_toRuby, bind,
      Except.bind]
    rfl
  | strings rc strings =>
    simp only [Invocation.run, zkrbStringsCallback, copy_strings, bind, Except.bind, pure,
      Except.pure]
    simp only [zkrbEventToRuby, setupEvent, CompletionPtr.getStrings, strings_toRuby, bind,
      Except.bind]
    rfl
  | stringsStat rc strings stat =>
    simp only [Invocation.run, zkrbStringsStatCallback, copy_strings, bind, Except.bind, pure,
      Except.pure]
    simp only [zkrbEventToRuby, setupEvent, CompletionPtr.getStringsStat, strings_toRuby, bind,
      Except.bind]
    rfl
  | void rc => rfl
  | acl rc acls stat =>
    simp only [Invocation.run, zkrbAclCallback, copy_acls, bind, Except.bind, pure, Except.pure]
    simp only [zkrbEventToRuby, setupEvent, CompletionPtr.getAcl, acls_toRuby, bind, Except.bind]
    rfl
  | state type state path =>
    simp only [Invocation.run, zkrbStateCallback, strdup_cstring, bind, Except.bind, pure,
      Except.pure]
    have hpath := string_toRuby (some path)
    simp only [Option.map_some] at hpath
    simp only [zkrbEventToRuby, CompletionPtr.getWatcher, hpath, bind, Except.bind]
    rfl

theorem isCompletion_event (reqId : ℤ) (inv : Invocation) :
    (ZookeeperClient.zkrbEventToRuby (inv.event reqId)).isCompletion = inv.isCompletion := by
  cases inv <;> rfl

theorem convert_event (reqId : ℤ) (inv : Invocation) :
    (ZookeeperClient.zkrbEventToRuby (inv.event reqId)).convert = inv.handed reqId := by
  cases inv with
  | string | strings | void | state => rfl
  | data | stat | stringsStat =>
    simp [Invocation.event, Invocation.handed, ZookeeperClient.zkrbEventToRuby,
      EventHash.convert, ZookeeperStat.new_statValue]
  | acl rc acls stat =>
    have hacls : ((acls.map (List.map CACL.value)).map ZookeeperClient.zkrbAclVectorToRuby).map
        (List.map RubyACL.new) = acls.map (List.map CACL.object) := by
      cases acls with
      | none => rfl
      | some l =>
        simp only [Option.map_some, ZookeeperClient.zkrbAclVectorToRuby, List.map_map]
        rfl
    simp only [Invocation.event, Invocation.handed, ZookeeperClient.zkrbEventToRuby,
      EventHash.convert, Option.map_some, hacls, ZookeeperStat.new_statValue]

/-- **Events are marshalled faithfully.** For every callback, with any arguments and any memory
behind the allocations: the hash carries the id of the calling context, and `:rc` exactly for a
completion; the dispatcher makes of it what the handler should get; it looks for a completion in
`@completion_reqs` only and for a watch event in `@watcher_reqs` only; and it never calls
`setup_completion` with an argument missing. -/
theorem marshalled (env : Allocators) (ctx : CallingContext) (inv : Invocation) :
    ∃ raw, (inv.run env ctx).bind zkrbEventToRuby = .ok raw ∧
      raw.reqId = ctx.reqId ∧ raw.rc.isSome = inv.isCompletion ∧
      raw.convert = inv.handed ctx.reqId ∧
      (∀ t : Requests, takeEntry raw.convert t =
        if inv.isCompletion then t.getCompletion ctx.reqId else t.getWatcher ctx.reqId) ∧
      ∀ entry t, restoreEntry raw.convert entry t ≠ .error .argumentError := by
  have hid : (inv.event ctx.reqId).reqId = ctx.reqId := by cases inv <;> rfl
  have hrc := isCompletion_event ctx.reqId inv
  refine ⟨_, zkrbEventToRuby_run env ctx inv, by rw [reqId_zkrbEventToRuby, hid], hrc,
    convert_event ctx.reqId inv, fun t => ?_, fun entry t => ?_⟩
  · rw [takeEntry, isCompletion_convert, reqId_convert, hrc, reqId_zkrbEventToRuby, hid]
  · intro hrestore
    -- only a session event gets there, and then a completion cannot
    unfold restoreEntry at hrestore
    split at hrestore
    · next hsession =>
      split at hrestore
      · next hcompletion =>
        have hnot := isSession_eq_false_of_isCompletion (inv.event ctx.reqId) hcompletion
        rw [isSession_convert, hnot] at hsession
        cases hsession
      · cases entry with
        | none => cases hrestore
        | some callOpts => cases hrestore
    · cases hrestore

end Marshal

end ZookeeperClient
