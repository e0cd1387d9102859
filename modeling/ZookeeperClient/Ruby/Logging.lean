import ZookeeperClient.Ruby.NoHandler
import ZookeeperClient.Transition.Lockstep

/-!
# The debug log

With the logger at debug level `dispatch_next_callback` prints every event before it does anything
else, and `prettify_event` raises for a type or a state without a name: the dispatch thread
reports the exception and goes on with the next event. The events of a list are dispatched with
the debug log on and off; callbacks may do anything, also to the tables.

## Main definitions

- `DispatchLoop`, `DispatchLoop.dispatch` — the dispatch thread, with what it has called
- `Printable` — the debug log makes no difference to one event

## Main results

- `logging_transparent_iff` — it makes no difference to a run exactly when it makes none to any
  event
- `not_transparent` — an event that is lost
-/

namespace ZookeeperClient

open Transition

/-- The dispatch thread between two events; `ω` is the state of everything that the callbacks
work on, apart from the tables. -/
structure DispatchLoop (ω : Type) where
  requests : Requests
  world : ω
  /-- The callbacks that have been called, with their hashes, the first one first. -/
  invocations : List (Handler × CallbackHash)

/-- What the callbacks do when they are called. -/
abbrev Callbacks (ω : Type) := Handler → CallbackHash → Requests × ω → Requests × ω

namespace DispatchLoop

variable {ω : Type} (callbacks : Callbacks ω)

/-- One round of the dispatch thread. Exceptions, of the dispatcher or of the callback, are
rescued. -/
def dispatch (debug : Bool) (event : ZkrbEvent) (s : DispatchLoop ω) : DispatchLoop ω :=
  let dispatched := dispatchNextCallback debug (some (zkrbEventToRuby event)) s.requests
  match dispatched.called with
  | none => { s with requests := dispatched.requests }
  | some (cb, hash) =>
    let (requests, world) := callbacks cb hash (dispatched.requests, s.world)
    ⟨requests, world, s.invocations ++ [(cb, hash)]⟩

/-- What is compared: the invocations and the tables. -/
def observe (s : DispatchLoop ω) : List (Handler × CallbackHash) × Requests :=
  (s.invocations, s.requests)

end DispatchLoop

/-- The debug log makes no difference to an event: it can print it; or there is no watcher for
the event; or there is one that cannot be called, and its entry stays as it is. -/
def Printable (event : ZkrbEvent) (t : Requests) : Prop :=
  (zkrbEventToRuby event).Named ∨
    match t.watcherReqs event.reqId with
    | none => True
    | some entry => entry.watcher.any Handler.respondToCall = false ∧
        if (zkrbEventToRuby event).isSession then entry = { watcher := entry.watcher }
        else event.reqId = ZKRB_GLOBAL_CB_REQ

/-! ## One event -/

variable {ω : Type} {callbacks : Callbacks ω} {event : ZkrbEvent} {s : DispatchLoop ω}

/-- An event that the debug log cannot print is lost when it is on. -/
theorem dispatch_debug_of_not_named (h : ¬(zkrbEventToRuby event).Named) :
    DispatchLoop.dispatch callbacks true event s = s := by
  obtain ⟨e, he⟩ := dispatchPrelude_of_not_named h
  rw [DispatchLoop.dispatch, dispatchNextCallback_of_prelude_error he]

/-- An event that the debug log can print is dispatched alike. -/
theorem dispatch_debug_of_named (h : (zkrbEventToRuby event).Named) :
    DispatchLoop.dispatch callbacks true event s =
      DispatchLoop.dispatch callbacks false event s := by
  have hon : dispatchPrelude true (zkrbEventToRuby event) =
      dispatchPrelude false (zkrbEventToRuby event) := dispatchPrelude_of_named fun _ => h
  simp only [DispatchLoop.dispatch, dispatchNextCallback, hon]

/-- Only a watch event has something that the debug log cannot print. -/
theorem isCompletion_of_not_named (h : ¬(zkrbEventToRuby event).Named) :
    (zkrbEventToRuby event).isCompletion = false := by
  by_contra hc
  exact h (named_of_isCompletion event (by simpa using hc))

section Unnamed

variable {t : Requests} (h : ¬(zkrbEventToRuby event).Named)

include h

/-- Without a watcher nothing happens, but for the exception after a session event. -/
theorem dispatchNextCallback_no_watcher (hnone : t.watcherReqs event.reqId = none) :
    (dispatchNextCallback false (some (zkrbEventToRuby event)) t).requests = t ∧
      (dispatchNextCallback false (some (zkrbEventToRuby event)) t).called = none := by
  have hc := isCompletion_of_not_named h
  have hno : ¬HasHandler (zkrbEventToRuby event) t := by
    simp [HasHandler, hc, hnone]
  by_cases hs : (zkrbEventToRuby event).isSession = true
  · rw [dispatch_session_of_not_hasHandler (Or.inl ⟨event, rfl⟩) hno hs rfl]
    exact ⟨rfl, rfl⟩
  · have hharmless : Harmless false (zkrbEventToRuby event) t :=
      dispatch_of_not_hasHandler hno (by simpa using hs) rfl
    rw [show dispatchNextCallback false (some (zkrbEventToRuby event)) t = _ from hharmless]
    exact ⟨rfl, rfl⟩

/-- With a watcher, its entry is put back after a session event, and the watcher is called if it
can be. -/
theorem dispatchNextCallback_watcher {entry : ReqHash}
    (hentry : t.watcherReqs event.reqId = some entry) :
    (dispatchNextCallback false (some (zkrbEventToRuby event)) t).requests =
        (if (zkrbEventToRuby event).isSession then
          (t.getWatcher event.reqId).2.setupWatcher event.reqId entry
        else (t.getWatcher event.reqId).2) ∧
      (dispatchNextCallback false (some (zkrbEventToRuby event)) t).called.isSome =
        entry.watcher.any Handler.respondToCall := by
  have hc := isCompletion_of_not_named h
  have htake : takeEntry (zkrbEventToRuby event).convert t = t.getWatcher event.reqId := by
    rw [takeEntry_watch (by rw [isCompletion_convert, hc]), reqId_convert, reqId_zkrbEventToRuby]
  have hfound : (t.getWatcher event.reqId).1 = some entry := hentry
  have hcalled : (callbackOf (zkrbEventToRuby event).convert (some entry)).isSome =
      entry.watcher.any Handler.respondToCall := by
    simp only [callbackOf, Option.bind_some, isCompletion_convert, hc]
    cases entry.watcher with
    | none => rfl
    | some w => cases hw : w.respondToCall <;> simp [hw]
  by_cases hs : (zkrbEventToRuby event).isSession = true
  · have hrestore : restoreEntry (zkrbEventToRuby event).convert
        (takeEntry (zkrbEventToRuby event).convert t).1
        (takeEntry (zkrbEventToRuby event).convert t).2 =
          .ok ((t.getWatcher event.reqId).2.setupWatcher event.reqId entry) := by
      rw [htake, hfound, restoreEntry_session (by rw [isSession_convert, hs])
        (by rw [isCompletion_convert, hc]), reqId_convert, reqId_zkrbEventToRuby]
    rw [dispatchNextCallback_of_ok rfl hrestore, htake, hfound, if_pos hs]
    exact ⟨rfl, hcalled⟩
  · have hrestore : restoreEntry (zkrbEventToRuby event).convert
        (takeEntry (zkrbEventToRuby event).convert t).1
        (takeEntry (zkrbEventToRuby event).convert t).2 =
          .ok (takeEntry (zkrbEventToRuby event).convert t).2 :=
      restoreEntry_of_not_session (by rw [isSession_convert]; simpa using hs) _ _
    rw [dispatchNextCallback_of_ok rfl hrestore, htake, hfound, if_neg hs]
    exact ⟨rfl, hcalled⟩

end Unnamed

/-- A dispatch that calls nothing changes the tables at most. -/
theorem dispatch_of_called_none (debug : Bool)
    (h : (dispatchNextCallback debug (some (zkrbEventToRuby event)) s.requests).called = none) :
    DispatchLoop.dispatch callbacks debug event s = { s with requests :=
      (dispatchNextCallback debug (some (zkrbEventToRuby event)) s.requests).requests } := by
  simp only [DispatchLoop.dispatch, h]

/-- A dispatch that calls a callback is seen. -/
theorem dispatch_of_called_some (debug : Bool)
    (h : (dispatchNextCallback debug (some (zkrbEventToRuby event)) s.requests).called.isSome =
      true) :
    (DispatchLoop.dispatch callbacks debug event s).invocations.length =
      s.invocations.length + 1 := by
  obtain ⟨⟨cb, hash⟩, hcalled⟩ := Option.isSome_iff_exists.mp h
  simp [DispatchLoop.dispatch, hcalled]

/-- An entry that is taken out and put back is the same exactly when it has nothing but a
watcher. -/
theorem getWatcher_setupWatcher_iff {t : Requests} {r : ℤ} {entry : ReqHash}
    (hentry : t.watcherReqs r = some entry) :
    (t.getWatcher r).2.setupWatcher r entry = t ↔ entry = { watcher := entry.watcher } := by
  have hupdate : ((t.getWatcher r).2.setupWatcher r entry).watcherReqs =
      Function.update t.watcherReqs r
        (some { watcher := entry.watcher, context := entry.watcherContext }) := by
    unfold Requests.getWatcher
    split
    · rfl
    · exact Function.update_idem _ _ _
  constructor
  · intro hsame
    have hput := congrFun hupdate r
    rw [hsame, hentry, Function.update_self, Option.some_inj] at hput
    have hcontext : entry.watcherContext = none := by rw [hput]
    rw [hcontext] at hput
    exact hput
  · intro hplain
    have hput : some entry =
        some { watcher := entry.watcher, context := entry.watcherContext } := by
      rw [hplain]
    have hsame : ((t.getWatcher r).2.setupWatcher r entry).watcherReqs = t.watcherReqs := by
      rw [hupdate, ← hput, ← hentry]
      exact Function.update_eq_self r _
    have hcounter : ((t.getWatcher r).2.setupWatcher r entry).currentReqId = t.currentReqId :=
      Requests.currentReqId_getWatcher t r
    have hcompletions : ((t.getWatcher r).2.setupWatcher r entry).completionReqs =
        t.completionReqs := Requests.completionReqs_getWatcher t r
    cases t
    exact congr (congr (congrArg Requests.mk hcounter) hcompletions) hsame

/-- Only the entry of the global watcher stays where it is when it is looked up. -/
theorem getWatcher_eq_iff {t : Requests} {r : ℤ} {entry : ReqHash}
    (hentry : t.watcherReqs r = some entry) :
    (t.getWatcher r).2 = t ↔ r = ZKRB_GLOBAL_CB_REQ := by
  unfold Requests.getWatcher
  split
  · next hglobal => exact iff_of_true rfl hglobal
  · next hglobal =>
    refine iff_of_false (fun hsame => ?_) hglobal
    have hgone := congrFun (congrArg Requests.watcherReqs hsame) r
    rw [hentry] at hgone
    simp at hgone

theorem dispatch_eq_of_printable (h : Printable event s.requests) :
    DispatchLoop.dispatch callbacks true event s =
      DispatchLoop.dispatch callbacks false event s := by
  by_cases hnamed : (zkrbEventToRuby event).Named
  · exact dispatch_debug_of_named hnamed
  rw [dispatch_debug_of_not_named hnamed]
  have hwatcher := h.resolve_left hnamed
  suffices hsame : (dispatchNextCallback false (some (zkrbEventToRuby event))
      s.requests).called = none ∧ (dispatchNextCallback false (some (zkrbEventToRuby event))
      s.requests).requests = s.requests by
    rw [dispatch_of_called_none false hsame.1, hsame.2]
  cases hentry : s.requests.watcherReqs event.reqId with
  | none => exact (dispatchNextCallback_no_watcher hnamed hentry).symm
  | some entry =>
    rw [hentry] at hwatcher
    obtain ⟨hrequests, hcalled⟩ := dispatchNextCallback_watcher hnamed hentry
    rw [hwatcher.1] at hcalled
    refine ⟨by simpa using hcalled, ?_⟩
    rw [hrequests]
    split
    · next hs => exact (getWatcher_setupWatcher_iff hentry).mpr (by simpa [hs] using hwatcher.2)
    · next hs => exact (getWatcher_eq_iff hentry).mpr (by simpa [hs] using hwatcher.2)

theorem observe_ne_of_not_printable (h : ¬Printable event s.requests) :
    (DispatchLoop.dispatch callbacks true event s).observe ≠
      (DispatchLoop.dispatch callbacks false event s).observe := by
  obtain ⟨hnamed, hwatcher⟩ := not_or.mp h
  rw [dispatch_debug_of_not_named hnamed]
  intro hsame
  cases hentry : s.requests.watcherReqs event.reqId with
  | none =>
    rw [hentry] at hwatcher
    exact hwatcher trivial
  | some entry =>
    rw [hentry] at hwatcher
    obtain ⟨hrequests, hcalled⟩ := dispatchNextCallback_watcher hnamed hentry
    cases hcall : entry.watcher.any Handler.respondToCall with
    | true =>
      -- the watcher is called in one of the runs only
      have hlength : (DispatchLoop.dispatch callbacks false event s).invocations.length = _ :=
        dispatch_of_called_some false (hcalled.trans hcall)
      have hinvocations : s.invocations =
          (DispatchLoop.dispatch callbacks false event s).invocations := congrArg Prod.fst hsame
      rw [← hinvocations] at hlength
      omega
    | false =>
      -- nobody is called, but the entry is gone or has changed
      rw [hcall] at hcalled
      rw [dispatch_of_called_none false (by simpa using hcalled)] at hsame
      have htables : _ = s.requests := (congrArg Prod.snd hsame).symm
      rw [hrequests] at htables
      refine hwatcher ⟨hcall, ?_⟩
      split
      · next hs => exact (getWatcher_setupWatcher_iff hentry).mp (by rwa [if_pos hs] at htables)
      · next hs => exact (getWatcher_eq_iff hentry).mp (by rwa [if_neg hs] at htables)

/-- **When the debug log makes no difference.** For every list of events, every content of the
tables and all callbacks: the dispatch thread makes the same invocations and has the same tables
with the debug log and without it, after every beginning of the list, if and only if without it
every event is, when its turn comes, one to which the log makes no difference. -/
theorem logging_transparent_iff (callbacks : Callbacks ω) (events : List ZkrbEvent)
    (s : DispatchLoop ω) :
    Indistinguishable DispatchLoop.observe (DispatchLoop.dispatch callbacks true)
        (DispatchLoop.dispatch callbacks false) events s ↔
      Along (DispatchLoop.dispatch callbacks false)
        (fun event s => Printable event s.requests) events s :=
  indistinguishable_iff_along (fun _ _ => dispatch_eq_of_printable)
    (fun _ _ => observe_ne_of_not_printable) events s

/-- A type without a name: the watcher of the node is called with the debug log off only. -/
theorem not_transparent :
    ¬∀ (ω : Type) (callbacks : Callbacks ω) (events : List ZkrbEvent) (s : DispatchLoop ω),
      (run (DispatchLoop.dispatch callbacks true) s events).observe =
        (run (DispatchLoop.dispatch callbacks false) s events).observe := by
  intro hall
  let entry : ReqHash := { watcher := some (.user ⟨1, true⟩) }
  have hsame := hall Unit (fun _ _ state => state) [⟨5, ZOK, .watcher 5 3 (some [47])⟩]
    ⟨⟨6, fun _ => none, Function.update (fun _ => none) 5 (some entry)⟩, (), []⟩
  have hlength : 0 = 1 := congrArg (fun seen => seen.1.length) hsame
  omega

end ZookeeperClient
