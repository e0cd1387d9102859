import ZookeeperClient.Ruby.Event

/-!
# The hashes of the Java callbacks

In the Java backend the threads of the Java client call the objects of `JavaCB` and the lambda
of `create_watcher`, and these push the hash of an event straight to `@event_queue`. The hash
has the keys of the C backend and `:path` besides; `:stat` is a hash and not an array.

## Main definitions

- `JavaEvent` — what the Java client calls, and with what
- `JavaEvent.toRuby` — the hash that is pushed
- `Produced` — the hashes that either backend pushes
-/

namespace ZookeeperClient

/-- `MEMBERS` of `JZKD::Stat`. -/
def jzkdStatMembers : List StatMember :=
  [.version, .czxid, .mzxid, .ctime, .mtime, .cversion, .aversion, .ephemeralOwner,
    .dataLength, .numChildren, .pzxid]

/-- The getter of a member. -/
def Stat.get (s : Stat) : StatMember → ℤ
  | .czxid => s.czxid
  | .mzxid => s.mzxid
  | .ctime => s.ctime
  | .mtime => s.mtime
  | .version => s.version
  | .cversion => s.cversion
  | .aversion => s.aversion
  | .ephemeralOwner => s.ephemeralOwner
  | .dataLength => s.dataLength
  | .numChildren => s.numChildren
  | .pzxid => s.pzxid

/-- `JZKD::Stat#to_hash`. -/
def jzkdStatToHash (s : Stat) : List (StatMember × ℤ) :=
  jzkdStatMembers.map fun k => (k, s.get k)

/-- `stat && stat.to_hash`. -/
def javaStatValue : Option Stat → RubyStat
  | none => .nil
  | some s => .hash (jzkdStatToHash s)

/-- `JZKD::ACL#to_hash`. -/
def jzkdACLToHash (acl : ACL) : ACLHash :=
  ⟨acl.perms, acl.id.scheme, acl.id.id⟩

/-- A call of a callback by the Java client. A Java `null` is `none`. -/
inductive JavaEvent where
  | dataCallback (rc : ℤ) (path : Option Bytes) (data : Option Bytes) (stat : Option Stat)
  | stringCallback (rc : ℤ) (path : Option Bytes) (str : Option Bytes)
  | statCallback (rc : ℤ) (path : Option Bytes) (stat : Option Stat)
  | children2Callback (rc : ℤ) (path : Option Bytes) (children : Option (List Bytes))
      (stat : Option Stat)
  | aclCallback (rc : ℤ) (path : Option Bytes) (acl : Option (List ACL)) (stat : Option Stat)
  | voidCallback (rc : ℤ) (path : Option Bytes)
  /-- `WatcherCallback#process`, or the lambda of `create_watcher`. -/
  | watcher (type state : ℤ) (path : Option Bytes)
  deriving DecidableEq, Repr

/-- `processResult` or `process`: the hash pushed by the callback object that was made for
`reqId`. -/
def JavaEvent.toRuby (reqId : ℤ) : JavaEvent → RawHash
  | .dataCallback rc path data stat =>
    { reqId := reqId, rc := some rc, path := some path, data := some data,
      stat := some (javaStatValue stat) }
  | .stringCallback rc path str =>
    { reqId := reqId, rc := some rc, path := some path, string := some str }
  | .statCallback rc path stat =>
    { reqId := reqId, rc := some rc, path := some path, stat := some (javaStatValue stat) }
  | .children2Callback rc path children stat =>
    { reqId := reqId, rc := some rc, path := some path, strings := some children,
      stat := some (javaStatValue stat) }
  | .aclCallback rc path acl stat =>
    -- `Array(acl)` makes an empty array of `nil`
    { reqId := reqId, rc := some rc, path := some path,
      acl := some (some ((acl.getD []).map jzkdACLToHash)), stat := some (javaStatValue stat) }
  | .voidCallback rc path => { reqId := reqId, rc := some rc, path := some path }
  | .watcher type state path =>
    { reqId := reqId, type := some type, state := some state, path := some path }

/-- The hash comes from `zkrb_event_to_ruby` or from a Java callback. -/
def Produced (hash : RawHash) : Prop :=
  (∃ event, hash = zkrbEventToRuby event) ∨ ∃ reqId event, hash = JavaEvent.toRuby reqId event

/-! ## Facts about the hash of an event -/

/-- Both backends hand `Stat.new` the same members, under their own names. -/
theorem zookeeperStat_new_eq (stat : Option Stat) :
    ZookeeperStat.new (javaStatValue stat) = ZookeeperStat.new (statValue stat) := by
  cases stat with
  | none => rfl
  | some s =>
    simp only [javaStatValue, statValue, ZookeeperStat.new]
    congr 1
    funext m
    cases m <;> rfl

/-- A hash of either backend that has the key `:rc` has no type. -/
theorem Produced.isSession_eq_false {hash : RawHash} (h : Produced hash)
    (hc : hash.isCompletion = true) : hash.isSession = false := by
  obtain ⟨event, rfl⟩ | ⟨reqId, event, rfl⟩ := h
  · exact isSession_eq_false_of_isCompletion event hc
  · cases event with
    | watcher => cases hc
    | _ => rfl

end ZookeeperClient
