import ZookeeperClient.Ruby.Request

/-!
# Dispatching one event

`dispatch_next_callback` of `lib/zookeeper/common.rb`, cut at the places where the
dispatch thread gives up `@mutex` or calls into user code. The parts are steps of the
client model; `dispatchNextCallback` runs them one after the other.

## Main definitions

- `dispatchPrelude` — the debug log and the conversions, before any table is read
- `takeEntry` — `get_completion` or `get_watcher`
- `restoreEntry` — the re-registration after a session event
- `callbackOf` — which handler is called, and with which hash
- `dispatchNextCallback` — the whole method
-/

namespace ZookeeperClient

/-- From the start of `dispatch_next_callback` to the lookup. With the debug log on, an
event whose type or state has no name raises before any table is read. -/
def dispatchPrelude (debug : Bool) (hash : RawHash) : Except RubyError CallbackHash :=
  if debug then (prettifyEvent hash).map fun _ => hash.convert else .ok hash.convert

/-- `is_completion ? get_completion(hash[:req_id]) : get_watcher(hash[:req_id])`. -/
def takeEntry (hash : CallbackHash) (t : Requests) : Option ReqHash × Requests :=
  if hash.isCompletion then t.getCompletion hash.reqId else t.getWatcher hash.reqId

/-- The branch for session events: the entry goes back through `setup_watcher`, and
`setup_completion` is called with an argument missing. -/
def restoreEntry (hash : CallbackHash) (entry : Option ReqHash) (t : Requests) :
    Except RubyError Requests :=
  if hash.isSession then
    if hash.isCompletion then .error .argumentError
    else
      match entry with
      | some callOpts => .ok (t.setupWatcher hash.reqId callOpts)
      | none => .error .noMethodError
  else .ok t

/-- The handler that is called and the hash it is called with, if there is an entry and its
handler responds to `call`. -/
def callbackOf (hash : CallbackHash) (entry : Option ReqHash) :
    Option (Handler × CallbackHash) :=
  entry.bind fun entry =>
    (if hash.isCompletion then entry.callback else entry.watcher).bind fun callback =>
      if callback.respondToCall then some (callback, { hash with context := entry.context })
      else none

/-- What one call of `dispatch_next_callback` does up to the moment the callback starts. -/
structure Dispatched where
  requests : Requests
  /-- The handler that is called, with its argument. -/
  called : Option (Handler × CallbackHash)
  /-- The value returned, or the exception raised before a callback is reached. -/
  result : Except RubyError (Option Bool)

def dispatchNextCallback (debug : Bool) (hash : Option RawHash) (t : Requests) : Dispatched :=
  match hash with
  | none => ⟨t, none, .ok none⟩
  | some raw =>
    match dispatchPrelude debug raw with
    | .error e => ⟨t, none, .error e⟩
    | .ok hash =>
      let (entry, t) := takeEntry hash t
      match restoreEntry hash entry t with
      | .error e => ⟨t, none, .error e⟩
      | .ok t => ⟨t, callbackOf hash entry, .ok (some true)⟩

/-! ## The three ways a dispatch ends -/

section Outcome

variable {debug : Bool} {raw : RawHash} {hash : CallbackHash} {t t' : Requests} {e : RubyError}

theorem dispatchNextCallback_of_prelude_error (hp : dispatchPrelude debug raw = .error e) :
    dispatchNextCallback debug (some raw) t = ⟨t, none, .error e⟩ := by
  simp only [dispatchNextCallback, hp]

theorem dispatchNextCallback_of_restore_error (hp : dispatchPrelude debug raw = .ok hash)
    (hr : restoreEntry hash (takeEntry hash t).1 (takeEntry hash t).2 = .error e) :
    dispatchNextCallback debug (some raw) t = ⟨(takeEntry hash t).2, none, .error e⟩ := by
  simp only [dispatchNextCallback, hp, hr]

theorem dispatchNextCallback_of_ok (hp : dispatchPrelude debug raw = .ok hash)
    (hr : restoreEntry hash (takeEntry hash t).1 (takeEntry hash t).2 = .ok t') :
    dispatchNextCallback debug (some raw) t =
      ⟨t', callbackOf hash (takeEntry hash t).1, .ok (some true)⟩ := by
  simp only [dispatchNextCallback, hp, hr]

end Outcome

/-! ## Lookups -/

/-- A completion is looked up in `@completion_reqs` only. -/
theorem takeEntry_completion {hash : CallbackHash} (h : hash.isCompletion = true)
    (t : Requests) : takeEntry hash t = t.getCompletion hash.reqId :=
  if_pos h

/-- A watch event is looked up in `@watcher_reqs` only. -/
theorem takeEntry_watch {hash : CallbackHash} (h : hash.isCompletion = false)
    (t : Requests) : takeEntry hash t = t.getWatcher hash.reqId := by
  rw [takeEntry, h]
  rfl

@[simp] theorem currentReqId_takeEntry (hash : CallbackHash) (t : Requests) :
    (takeEntry hash t).2.currentReqId = t.currentReqId := by
  unfold takeEntry
  split <;> simp

theorem completionReqs_takeEntry_watch {hash : CallbackHash} (h : hash.isCompletion = false)
    (t : Requests) : (takeEntry hash t).2.completionReqs = t.completionReqs := by
  rw [takeEntry_watch h]
  exact Requests.completionReqs_getWatcher t _

theorem watcherReqs_takeEntry_completion {hash : CallbackHash} (h : hash.isCompletion = true)
    (t : Requests) : (takeEntry hash t).2.watcherReqs = t.watcherReqs := by
  rw [takeEntry_completion h]
  rfl

theorem completionReqs_takeEntry_of_ne {hash : CallbackHash} {r : ℤ} (h : r ≠ hash.reqId)
    (t : Requests) : (takeEntry hash t).2.completionReqs r = t.completionReqs r := by
  by_cases hc : hash.isCompletion
  · rw [takeEntry_completion hc]
    exact Requests.completionReqs_getCompletion_of_ne t _ r h
  · rw [completionReqs_takeEntry_watch (by simpa using hc)]

theorem watcherReqs_takeEntry_of_ne {hash : CallbackHash} {r : ℤ} (h : r ≠ hash.reqId)
    (t : Requests) : (takeEntry hash t).2.watcherReqs r = t.watcherReqs r := by
  by_cases hc : hash.isCompletion
  · rw [watcherReqs_takeEntry_completion hc]
  · rw [takeEntry_watch (by simpa using hc)]
    exact Requests.watcherReqs_getWatcher_of_ne t _ r h

theorem completionReqs_takeEntry_eq_none {hash : CallbackHash} {t : Requests} {r : ℤ}
    (hr : t.completionReqs r = none) : (takeEntry hash t).2.completionReqs r = none := by
  by_cases hid : r = hash.reqId
  · subst hid
    unfold takeEntry
    split
    · exact Requests.completionReqs_getCompletion_self ..
    · rw [Requests.completionReqs_getWatcher, hr]
  · rw [completionReqs_takeEntry_of_ne hid, hr]

theorem watcherReqs_takeEntry_eq_none {hash : CallbackHash} {t : Requests} {r : ℤ}
    (hr : t.watcherReqs r = none) : (takeEntry hash t).2.watcherReqs r = none := by
  by_cases hid : r = hash.reqId
  · subst hid
    unfold takeEntry
    split
    · exact hr
    · unfold Requests.getWatcher
      split
      · exact hr
      · exact Function.update_self ..
  · rw [watcherReqs_takeEntry_of_ne hid, hr]

/-! ## Re-registration -/

/-- An event that is no session event leaves the tables as the lookup left them. -/
theorem restoreEntry_of_not_session {hash : CallbackHash} (h : hash.isSession = false)
    (entry : Option ReqHash) (t : Requests) : restoreEntry hash entry t = .ok t := by
  simp [restoreEntry, h]

theorem restoreEntry_session {hash : CallbackHash} (hs : hash.isSession = true)
    (hc : hash.isCompletion = false) (entry : ReqHash) (t : Requests) :
    restoreEntry hash (some entry) t = .ok (t.setupWatcher hash.reqId entry) := by
  simp [restoreEntry, hs, hc]

/-- What a re-registration has put back, when it has not raised. -/
theorem restoreEntry_session_eq_ok {hash : CallbackHash} (hs : hash.isSession = true)
    {entry : Option ReqHash} {t t' : Requests} (h : restoreEntry hash entry t = .ok t') :
    hash.isCompletion = false ∧
      ∃ callOpts, entry = some callOpts ∧ t' = t.setupWatcher hash.reqId callOpts := by
  unfold restoreEntry at h
  rw [if_pos hs] at h
  split at h
  · cases h
  · next hc =>
    cases entry with
    | none => cases h
    | some callOpts => exact ⟨by simpa using hc, callOpts, rfl, (Except.ok.inj h).symm⟩

/-- Whatever the re-registration does, it touches the watcher of the event's own id only. -/
theorem restoreEntry_frame {hash : CallbackHash} {entry : Option ReqHash} {t t' : Requests}
    (h : restoreEntry hash entry t = .ok t') :
    t'.currentReqId = t.currentReqId ∧ t'.completionReqs = t.completionReqs ∧
      ∀ r, r ≠ hash.reqId → t'.watcherReqs r = t.watcherReqs r := by
  unfold restoreEntry at h
  split at h
  · split at h
    · cases h
    · cases entry with
      | none => cases h
      | some callOpts =>
        obtain rfl : t.setupWatcher hash.reqId callOpts = t' := by simpa using h
        exact ⟨rfl, rfl, fun r hr => Requests.watcherReqs_setupWatcher_of_ne t _ r _ hr⟩
  · obtain rfl : t = t' := by simpa using h
    exact ⟨rfl, rfl, fun _ _ => rfl⟩

/-! ## Callbacks -/

/-- A completion calls the callback of its entry, with the context of its entry. -/
theorem callbackOf_completion {hash : CallbackHash} (h : hash.isCompletion = true)
    {entry : ReqHash} {cb : Handler} (hcb : entry.callback = some cb)
    (hcall : cb.respondToCall = true) :
    callbackOf hash (some entry) = some (cb, { hash with context := entry.context }) := by
  simp [callbackOf, h, hcb, hcall]

/-- Whatever is called gets the event's own hash, and the context of the entry. -/
theorem callbackOf_eq_some {hash : CallbackHash} {entry : Option ReqHash} {cb : Handler}
    {arg : CallbackHash} (h : callbackOf hash entry = some (cb, arg)) :
    ∃ e, entry = some e ∧ (if hash.isCompletion then e.callback else e.watcher) = some cb ∧
      cb.respondToCall = true ∧ arg = { hash with context := e.context } := by
  cases entry with
  | none => cases h
  | some e =>
    have hbind : ((if hash.isCompletion then e.callback else e.watcher).bind fun c =>
        if c.respondToCall then some (c, { hash with context := e.context }) else none) =
        some (cb, arg) := h
    obtain ⟨c, hc, hcalled⟩ := Option.bind_eq_some_iff.mp hbind
    by_cases hcall : c.respondToCall
    · rw [if_pos hcall] at hcalled
      obtain ⟨rfl, rfl⟩ := Prod.mk.inj (Option.some.inj hcalled)
      exact ⟨e, rfl, hc, hcall, rfl⟩
    · rw [if_neg hcall] at hcalled
      cases hcalled

/-! ## The prelude -/

/-- The prelude raises only for the debug log. -/
theorem dispatchPrelude_of_named {debug : Bool} {hash : RawHash}
    (h : debug = true → hash.Named) : dispatchPrelude debug hash = .ok hash.convert := by
  cases debug with
  | false => rfl
  | true =>
    have hok : (prettifyEvent hash).isOk = true := h rfl
    unfold dispatchPrelude
    cases hp : prettifyEvent hash with
    | ok names => rfl
    | error e =>
      rw [hp] at hok
      cases hok

theorem dispatchPrelude_of_not_named {hash : RawHash} (h : ¬hash.Named) :
    ∃ e, dispatchPrelude true hash = .error e := by
  unfold dispatchPrelude
  cases hp : prettifyEvent hash with
  | ok names => exact absurd (by rw [EventHash.Named, hp]; rfl) h
  | error e => exact ⟨e, rfl⟩

theorem dispatchPrelude_eq_ok {debug : Bool} {hash : RawHash} {converted : CallbackHash}
    (h : dispatchPrelude debug hash = .ok converted) : converted = hash.convert := by
  unfold dispatchPrelude at h
  split at h
  · cases hp : prettifyEvent hash <;> rw [hp] at h <;> cases h
    rfl
  · cases h
    rfl

theorem dispatchPrelude_completion (debug : Bool) (event : ZkrbEvent)
    (h : (zkrbEventToRuby event).isCompletion = true) :
    dispatchPrelude debug (zkrbEventToRuby event) = .ok (zkrbEventToRuby event).convert :=
  dispatchPrelude_of_named fun _ => named_of_isCompletion event h

end ZookeeperClient
