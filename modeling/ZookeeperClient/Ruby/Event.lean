import Mathlib.Data.Int.Notation
import Mathlib.Data.Nat.Notation

/-!
# Events and the hashes they become

The C client reports completions and watch events through the callbacks of
`ext/zookeeper_lib.c`; each becomes a `zkrb_event_t`, and `zkrb_event_to_ruby` turns
it into the Ruby hash that travels through `@event_queue`. `dispatch_next_callback`
converts the `:stat` and `:acl` values of that hash before it looks for a handler.

A key of a Ruby hash is a field of type `Option`: `none` when the hash does not have
the key. Where the value may be `nil` the field is a nested `Option`.

## Main definitions

- `ZkrbEvent` — `zkrb_event_t`
- `EventHash` — the hash, over the types of its `:stat` and `:acl` values
- `zkrbEventToRuby` — `zkrb_event_to_ruby`
- `EventHash.convert` — the conversions made by `dispatch_next_callback`
- `prettifyEvent` — `prettify_event`, which the debug log evaluates
-/

namespace ZookeeperClient

/-- A C string, or the bytes of a Ruby string. -/
abbrev Bytes := List UInt8

/-- A Ruby value other than `nil` and `false`, as the dispatcher sees it. -/
structure Obj where
  objectId : ℤ
  /-- `respond_to?(:call)`. -/
  callable : Bool
  deriving DecidableEq, Repr

/-- The exceptions the modelled Ruby methods raise. -/
inductive RubyError where
  | argumentError
  | keyError
  | noMethodError
  | shutdownException
  deriving DecidableEq, Repr

/-- The return code of a call that succeeded. -/
def ZOK : ℤ := 0

/-- The return code of a request that is outstanding when its handle is closed. -/
def ZCLOSING : ℤ := -116

/-- The request id of the session's own watcher. -/
def ZKRB_GLOBAL_CB_REQ : ℤ := -1

/-- The type of an event about the session rather than about a node. -/
def ZOO_SESSION_EVENT : ℤ := -1

/-- `struct Stat` of the C client. -/
structure Stat where
  czxid : ℤ
  mzxid : ℤ
  ctime : ℤ
  mtime : ℤ
  version : ℤ
  cversion : ℤ
  aversion : ℤ
  ephemeralOwner : ℤ
  dataLength : ℤ
  numChildren : ℤ
  pzxid : ℤ
  deriving DecidableEq, Repr

/-- `struct Id` of the C client. -/
structure Id where
  scheme : Bytes
  id : Bytes
  deriving DecidableEq, Repr

/-- `struct ACL` of the C client. -/
structure ACL where
  perms : ℤ
  id : Id
  deriving DecidableEq, Repr

/-- The `type` tag and the `completion` union of a `zkrb_event_t`. A `NULL` pointer
is `none`. -/
inductive Completion where
  | data (data : Option Bytes) (stat : Option Stat)
  | stat (stat : Option Stat)
  | void
  | string (value : Option Bytes)
  | strings (values : Option (List Bytes))
  | stringsStat (values : Option (List Bytes)) (stat : Option Stat)
  | acl (acl : Option (List ACL)) (stat : Option Stat)
  | watcher (type state : ℤ) (path : Option Bytes)
  deriving DecidableEq, Repr

/-- The event is a watch event, `ZKRB_WATCHER`. -/
def Completion.isWatcher : Completion → Bool
  | .watcher _ _ _ => true
  | _ => false

/-- `zkrb_event_t`. -/
structure ZkrbEvent where
  reqId : ℤ
  rc : ℤ
  completion : Completion
  deriving DecidableEq, Repr

/-! ## Ruby values -/

/-- The members of a `ZookeeperStat::Stat`. -/
inductive StatMember where
  | czxid | mzxid | ctime | mtime | version | cversion | aversion
  | ephemeralOwner | dataLength | numChildren | pzxid
  deriving DecidableEq, Repr

/-- The values of `:stat` from which `ZookeeperStat::Stat.new` builds an object. -/
inductive RubyStat where
  | nil
  | array (values : List ℤ)
  | hash (pairs : List (StatMember × ℤ))
  deriving DecidableEq, Repr

/-- `ZookeeperStat::Stat`. -/
structure ZookeeperStat where
  /-- `@exists`. -/
  present : Bool
  /-- The other instance variables; `none` is `nil`. -/
  member : StatMember → Option ℤ

/-- The order in which `Stat#initialize` assigns the elements of an array. -/
def StatMember.all : List StatMember :=
  [.czxid, .mzxid, .ctime, .mtime, .version, .cversion, .aversion,
    .ephemeralOwner, .dataLength, .numChildren, .pzxid]

/-- `ZookeeperStat::Stat#initialize`. -/
def ZookeeperStat.new : RubyStat → ZookeeperStat
  | .nil => ⟨false, fun _ => none⟩
  | .array values => ⟨true, fun m => values[StatMember.all.idxOf m]?⟩
  | .hash pairs =>
    ⟨true, fun m => ((pairs.reverse.find? fun p => p.1 = m).map Prod.snd)⟩

/-- The hash that `zkrb_id_to_ruby` builds. -/
structure IdHash where
  scheme : Bytes
  id : Bytes
  deriving DecidableEq, Repr

/-- The hash that `zkrb_acl_to_ruby` builds. -/
structure ACLHash where
  perms : ℤ
  id : IdHash
  deriving DecidableEq, Repr

/-- `ZookeeperACLs::Id`. -/
structure RubyId where
  scheme : Bytes
  id : Bytes
  deriving DecidableEq, Repr

/-- `ZookeeperACLs::ACL`. -/
structure RubyACL where
  perms : ℤ
  id : RubyId
  deriving DecidableEq, Repr

/-- `ZookeeperACLs::ACL#initialize` on a hash whose `:id` is a hash. -/
def RubyACL.new (hash : ACLHash) : RubyACL :=
  ⟨hash.perms, ⟨hash.id.scheme, hash.id.id⟩⟩

/-- The hash of one event; `σ` and `α` are the types of its `:stat` and of the elements
of its `:acl`. -/
structure EventHash (σ α : Type) where
  reqId : ℤ
  rc : Option ℤ := none
  data : Option (Option Bytes) := none
  stat : Option σ := none
  string : Option (Option Bytes) := none
  strings : Option (Option (List Bytes)) := none
  acl : Option (Option (List α)) := none
  type : Option ℤ := none
  state : Option ℤ := none
  path : Option (Option Bytes) := none
  /-- `hash[:context]`, set by the dispatcher. -/
  context : Option Obj := none

/-- The hash as it is pushed to `@event_queue`. -/
abbrev RawHash := EventHash RubyStat ACLHash

/-- The hash as a handler receives it. -/
abbrev CallbackHash := EventHash ZookeeperStat RubyACL

/-- `is_completion` of `dispatch_next_callback`: the hash has the key `:rc`. -/
def EventHash.isCompletion {σ α : Type} (hash : EventHash σ α) : Bool :=
  hash.rc.isSome

/-- The event is a session event. -/
def EventHash.isSession {σ α : Type} (hash : EventHash σ α) : Bool :=
  hash.type == some ZOO_SESSION_EVENT

def zkrbStatToRarray (s : Stat) : List ℤ :=
  [s.czxid, s.mzxid, s.ctime, s.mtime, s.version, s.cversion, s.aversion,
    s.ephemeralOwner, s.dataLength, s.numChildren, s.pzxid]

/-- The value of `:stat`: an array, or `nil` for `NULL`. -/
def statValue : Option Stat → RubyStat
  | none => .nil
  | some s => .array (zkrbStatToRarray s)

def zkrbIdToRuby (id : Id) : IdHash :=
  ⟨id.scheme, id.id⟩

def zkrbAclToRuby (acl : ACL) : ACLHash :=
  ⟨acl.perms, zkrbIdToRuby acl.id⟩

def zkrbAclVectorToRuby (acls : List ACL) : List ACLHash :=
  acls.map zkrbAclToRuby

/-- `zkrb_event_to_ruby`: `:rc` is set for every event but a watch event. -/
def zkrbEventToRuby (event : ZkrbEvent) : RawHash :=
  match event.completion with
  | .data data stat =>
    { reqId := event.reqId, rc := some event.rc, data := some data,
      stat := some (statValue stat) }
  | .stat stat =>
    { reqId := event.reqId, rc := some event.rc, stat := some (statValue stat) }
  | .void => { reqId := event.reqId, rc := some event.rc }
  | .string value => { reqId := event.reqId, rc := some event.rc, string := some value }
  | .strings values => { reqId := event.reqId, rc := some event.rc, strings := some values }
  | .stringsStat values stat =>
    { reqId := event.reqId, rc := some event.rc, strings := some values,
      stat := some (statValue stat) }
  | .acl acl stat =>
    { reqId := event.reqId, rc := some event.rc, acl := some (acl.map zkrbAclVectorToRuby),
      stat := some (statValue stat) }
  | .watcher type state path =>
    { reqId := event.reqId, type := some type, state := some state, path := some path }

/-- The conversions of `:stat` and `:acl` in `dispatch_next_callback`. -/
def EventHash.convert (hash : RawHash) : CallbackHash where
  reqId := hash.reqId
  rc := hash.rc
  data := hash.data
  stat := hash.stat.map ZookeeperStat.new
  string := hash.string
  strings := hash.strings
  acl := hash.acl.map (Option.map (List.map RubyACL.new))
  type := hash.type
  state := hash.state
  path := hash.path
  context := hash.context

/-! ## The debug log -/

def eventTypeNames : List (ℤ × String) :=
  [(1, "created"), (2, "deleted"), (3, "changed"), (4, "child"), (-1, "session"),
    (-2, "notwatching")]

def stateNames : List (ℤ × String) :=
  [(-112, "expired_session"), (-113, "auth_failed"), (0, "closed"), (1, "connecting"),
    (2, "associating"), (3, "connected")]

/-- `Hash#fetch`, applied to a value unless it is `nil`. -/
def fetchName (names : List (ℤ × String)) : Option ℤ → Except RubyError (Option String)
  | none => .ok none
  | some v =>
    match names.lookup v with
    | some name => .ok (some name)
    | none => .error .keyError

/-- `prettify_event`: the names of the event's type and state. -/
def prettifyEvent (hash : RawHash) : Except RubyError (Option String × Option String) := do
  let type ← fetchName eventTypeNames hash.type
  let state ← fetchName stateNames hash.state
  return (type, state)

/-- The debug log can print the event: its type and state have names. -/
def EventHash.Named (hash : RawHash) : Prop :=
  (prettifyEvent hash).isOk

instance (hash : RawHash) : Decidable hash.Named :=
  inferInstanceAs (Decidable (_ = true))

/-! ## Facts about the hash of an event -/

@[simp] theorem reqId_zkrbEventToRuby (event : ZkrbEvent) :
    (zkrbEventToRuby event).reqId = event.reqId := by
  unfold zkrbEventToRuby
  split <;> rfl

/-- The hash has the key `:rc` exactly when the event is no watch event. -/
@[simp] theorem isCompletion_zkrbEventToRuby (event : ZkrbEvent) :
    (zkrbEventToRuby event).isCompletion = !event.completion.isWatcher := by
  unfold zkrbEventToRuby
  cases event.completion <;> rfl

theorem type_zkrbEventToRuby (event : ZkrbEvent) :
    (zkrbEventToRuby event).type =
      match event.completion with
      | .watcher type _ _ => some type
      | _ => none := by
  unfold zkrbEventToRuby
  cases event.completion <;> rfl

@[simp] theorem reqId_convert (hash : RawHash) : hash.convert.reqId = hash.reqId := rfl

@[simp] theorem isCompletion_convert (hash : RawHash) :
    hash.convert.isCompletion = hash.isCompletion := rfl

@[simp] theorem isSession_convert (hash : RawHash) :
    hash.convert.isSession = hash.isSession := rfl

/-- A completion is never taken for a session event. -/
theorem isSession_eq_false_of_isCompletion (event : ZkrbEvent)
    (h : (zkrbEventToRuby event).isCompletion = true) :
    (zkrbEventToRuby event).isSession = false := by
  cases hc : event.completion <;>
    simp_all [EventHash.isSession, type_zkrbEventToRuby, Completion.isWatcher]

/-- The debug log can print every completion. -/
theorem named_of_isCompletion (event : ZkrbEvent)
    (h : (zkrbEventToRuby event).isCompletion = true) : (zkrbEventToRuby event).Named := by
  obtain ⟨reqId, rc, completion⟩ := event
  cases completion
  case watcher => simp [Completion.isWatcher] at h
  all_goals rfl

end ZookeeperClient
