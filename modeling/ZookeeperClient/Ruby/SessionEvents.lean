import ZookeeperClient.Ruby.Dispatch
import Mathlib.Tactic.Push

/-!
# A watcher across session events

A session event takes the entry of a watcher out of `@watcher_reqs` and puts it back
through `setup_watcher`, which reads the key `:watcher_context` of a hash that has the
key `:context`. The first session event is reported with the watcher's context, and the
entry it leaves behind has none.

## Main definitions

- `TableAct` — a call or a dispatch, the uses of the tables between two `reopen`s
- `WatchEvents` — session events, then at most one other event
- `Survives` — what a watcher is promised for each of its events

## Main results

- `survives_iff` — the promise is kept exactly for watchers whose context is `nil` or whose
  events contain no session event
-/

namespace ZookeeperClient

/-- The uses of the request tables while no `reopen` runs. -/
inductive TableAct where
  /-- `setup_call` of an operation. -/
  | call (methName : Meth) (opts : ReqHash)
  /-- `dispatch_next_callback` on the hash of an event. -/
  | dispatch (event : ZkrbEvent)

/-- One dispatch of an event of the C client. -/
def dispatchEvent (debug : Bool) (event : ZkrbEvent) (t : Requests) : Dispatched :=
  dispatchNextCallback debug (some (zkrbEventToRuby event)) t

/-- The tables after one use. -/
def TableAct.apply (debug : Bool) (t : Requests) : TableAct → Requests
  | .call methName opts => t.setupCall methName opts
  | .dispatch event => (dispatchEvent debug event t).requests

/-- The event is a session event. -/
def ZkrbEvent.isSession (event : ZkrbEvent) : Bool :=
  (zkrbEventToRuby event).isSession

/-- The watch events for the request `r`, in the order of their dispatch. -/
def watchEventsFor (r : ℤ) (acts : List TableAct) : List ZkrbEvent :=
  acts.filterMap fun
    | .dispatch event => if event.reqId = r ∧ event.completion.isWatcher then some event else none
    | .call _ _ => none

/-- Any number of session events, followed by at most one event of another type. -/
inductive WatchEvents : List ZkrbEvent → Prop where
  | nil : WatchEvents []
  | last {event : ZkrbEvent} (h : event.isSession = false) : WatchEvents [event]
  | session {event : ZkrbEvent} {events : List ZkrbEvent} (h : event.isSession = true)
      (hrest : WatchEvents events) : WatchEvents (event :: events)

/-- The promise for one watch event: the watcher `w` is called with its context `c`, and its
entry stays as it was after a session event and is gone after any other. -/
def Promise (debug : Bool) (r : ℤ) (w : Obj) (c : Option Obj) (event : ZkrbEvent)
    (t : Requests) : Prop :=
  (dispatchEvent debug event t).called =
      some (.user w, { (zkrbEventToRuby event).convert with context := c }) ∧
    (dispatchEvent debug event t).requests.watcherReqs r =
      if event.isSession then some { watcher := some (.user w), context := c } else none

/-- The promise is kept for every watch event for `r`. -/
def Survives (debug : Bool) (r : ℤ) (w : Obj) (c : Option Obj) :
    Requests → List TableAct → Prop
  | _, [] => True
  | t, act :: acts =>
    (∀ event ∈ watchEventsFor r [act], Promise debug r w c event t) ∧
      Survives debug r w c (act.apply debug t) acts

/-- The tables of a client after any calls, dispatches and flushes by `reopen`. -/
inductive Requests.Reached (debug : Bool) (defaultWatcher : Handler) : Requests → Prop where
  | initial : Reached debug defaultWatcher (Requests.initial defaultWatcher)
  | apply {t : Requests} (h : Reached debug defaultWatcher t) (act : TableAct) :
      Reached debug defaultWatcher (act.apply debug t)
  | flush {t : Requests} (h : Reached debug defaultWatcher t) :
      Reached debug defaultWatcher (t.flush defaultWatcher)

/-! ## Uses that do not concern the watcher -/

variable (debug : Bool) (t : Requests) {r : ℤ}

theorem dispatchEvent_requests (event : ZkrbEvent) :
    (dispatchEvent debug event t).requests = t ∨
      let taken := takeEntry (zkrbEventToRuby event).convert t
      (dispatchEvent debug event t).requests = taken.2 ∨
        restoreEntry (zkrbEventToRuby event).convert taken.1 taken.2 =
          .ok (dispatchEvent debug event t).requests := by
  unfold dispatchEvent
  cases hp : dispatchPrelude debug (zkrbEventToRuby event) with
  | error e => exact Or.inl (by rw [dispatchNextCallback_of_prelude_error hp])
  | ok hash =>
    obtain rfl := dispatchPrelude_eq_ok hp
    right
    cases hr : restoreEntry (zkrbEventToRuby event).convert
        (takeEntry (zkrbEventToRuby event).convert t).1
        (takeEntry (zkrbEventToRuby event).convert t).2 with
    | error e => exact Or.inl (by rw [dispatchNextCallback_of_restore_error hp hr])
    | ok t' => exact Or.inr (by rw [dispatchNextCallback_of_ok hp hr, hr])

theorem currentReqId_le_apply (act : TableAct) :
    t.currentReqId ≤ (act.apply debug t).currentReqId := by
  cases act with
  | call methName opts =>
    simp only [TableAct.apply, Requests.currentReqId_setupCall]
    omega
  | dispatch event =>
    suffices h : (dispatchEvent debug event t).requests.currentReqId = t.currentReqId by
      simp [TableAct.apply, h]
    obtain h | h | h := dispatchEvent_requests debug t event
    · rw [h]
    · rw [h, currentReqId_takeEntry]
    · rw [(restoreEntry_frame h).1, currentReqId_takeEntry]

/-- The ids of requests are never negative, so none is the global id. -/
theorem Requests.Reached.currentReqId_nonneg {defaultWatcher : Handler}
    (h : Reached debug defaultWatcher t) : 0 ≤ t.currentReqId := by
  induction h with
  | initial => exact Int.le_refl 0
  | apply _ act ih => exact Int.le_trans ih (currentReqId_le_apply debug _ act)
  | flush _ ih => exact ih

/-- A use that is no watch event for `r` leaves the watcher of `r` alone. -/
theorem watcherReqs_apply_of_not_event {act : TableAct} (hr : r < t.currentReqId)
    (hact : watchEventsFor r [act] = []) :
    (act.apply debug t).watcherReqs r = t.watcherReqs r := by
  cases act with
  | call methName opts =>
    exact Requests.watcherReqs_setupCall_of_ne t r opts methName (by omega)
  | dispatch event =>
    have hne : ¬(event.reqId = r ∧ event.completion.isWatcher = true) := by
      simpa [watchEventsFor] using hact
    simp only [TableAct.apply]
    by_cases hid : r = (zkrbEventToRuby event).convert.reqId
    · -- a completion under the same id is looked up in the other table
      have hc : (zkrbEventToRuby event).isCompletion = true := by
        simp only [reqId_convert, reqId_zkrbEventToRuby] at hid
        simpa using fun hw => hne ⟨hid.symm, hw⟩
      have hs := isSession_eq_false_of_isCompletion event hc
      obtain h | h | h := dispatchEvent_requests debug t event
      · rw [h]
      · rw [h, watcherReqs_takeEntry_completion (by simpa using hc)]
      · rw [restoreEntry_of_not_session (by simpa using hs)] at h
        rw [← Except.ok.inj h, watcherReqs_takeEntry_completion (by simpa using hc)]
    · obtain h | h | h := dispatchEvent_requests debug t event
      · rw [h]
      · rw [h, watcherReqs_takeEntry_of_ne hid]
      · rw [(restoreEntry_frame h).2.2 r hid, watcherReqs_takeEntry_of_ne hid]

/-! ## One watch event -/

section OneEvent

variable {event : ZkrbEvent} {w : Obj} {c : Option Obj}

/-- A watch event whose type and state the debug log can print calls the watcher if it responds
to `call`, and leaves an entry behind only if it is a session event. -/
theorem dispatchEvent_watch (hid : event.reqId = r) (hw : event.completion.isWatcher = true)
    (hr : r ≠ ZKRB_GLOBAL_CB_REQ) (hnamed : debug = true → (zkrbEventToRuby event).Named)
    (hentry : t.watcherReqs r = some { watcher := some (.user w), context := c }) :
    (dispatchEvent debug event t).called =
        (if w.callable then
          some (.user w, { (zkrbEventToRuby event).convert with context := c }) else none) ∧
      (dispatchEvent debug event t).requests.watcherReqs r =
        if event.isSession then some { watcher := some (.user w) } else none := by
  have hcompletion : (zkrbEventToRuby event).convert.isCompletion = false := by simp [hw]
  have hreq : (zkrbEventToRuby event).convert.reqId = r := by simpa using hid
  have htaken : takeEntry (zkrbEventToRuby event).convert t = t.getWatcher r := by
    rw [takeEntry_watch hcompletion, hreq]
  have hcalled : callbackOf (zkrbEventToRuby event).convert
      (some { watcher := some (.user w), context := c }) =
      if w.callable then
        some (.user w, { (zkrbEventToRuby event).convert with context := c }) else none := by
    simp [callbackOf, hcompletion, Handler.respondToCall]
  have hfirst : (t.getWatcher r).1 = some { watcher := some (.user w), context := c } := hentry
  have hp := dispatchPrelude_of_named hnamed
  by_cases hs : event.isSession = true
  · -- the entry is put back, without its context
    have hrestore := restoreEntry_session (by simpa [ZkrbEvent.isSession] using hs) hcompletion
      { watcher := some (.user w), context := c } (t.getWatcher r).2
    rw [← hfirst, ← htaken] at hrestore
    rw [dispatchEvent, dispatchNextCallback_of_ok hp hrestore, htaken, hfirst, hreq, if_pos hs]
    exact ⟨hcalled, Requests.watcherReqs_setupWatcher_self ..⟩
  · have hrestore := @restoreEntry_of_not_session (zkrbEventToRuby event).convert
      (by simpa [ZkrbEvent.isSession] using hs) (t.getWatcher r).1 (t.getWatcher r).2
    rw [← htaken] at hrestore
    rw [dispatchEvent, dispatchNextCallback_of_ok hp hrestore, htaken, hfirst, if_neg hs]
    exact ⟨hcalled, Requests.watcherReqs_getWatcher_self t r hr⟩

/-- With the debug log on, an event without a name calls nothing. -/
theorem dispatchEvent_not_named (h : ¬(zkrbEventToRuby event).Named) :
    (dispatchEvent true event t).called = none := by
  obtain ⟨e, he⟩ := dispatchPrelude_of_not_named h
  rw [dispatchEvent, dispatchNextCallback_of_prelude_error he]

/-- When the promise for one event is kept. -/
theorem promise_iff (hid : event.reqId = r) (hw : event.completion.isWatcher = true)
    (hr : r ≠ ZKRB_GLOBAL_CB_REQ)
    (hentry : t.watcherReqs r = some { watcher := some (.user w), context := c }) :
    Promise debug r w c event t ↔
      w.callable = true ∧ (debug = true → (zkrbEventToRuby event).Named) ∧
        (c = none ∨ event.isSession = false) := by
  by_cases hnamed : debug = true → (zkrbEventToRuby event).Named
  · obtain ⟨hcalled, hreqs⟩ := dispatchEvent_watch debug t hid hw hr hnamed hentry
    rw [Promise, hcalled, hreqs, eq_true hnamed]
    by_cases hcall : w.callable = true <;> by_cases hs : event.isSession = true
    · simp [hcall, hs, eq_comm]
    · simp [hcall, hs]
    · simp [hcall]
    · simp [hcall]
  · -- the prelude raises, and nothing is called
    push Not at hnamed
    obtain ⟨rfl, hnot⟩ := hnamed
    constructor
    · rintro ⟨hcalled, -⟩
      rw [dispatchEvent_not_named t hnot] at hcalled
      cases hcalled
    · exact fun ⟨_, h, _⟩ => absurd (h rfl) hnot

end OneEvent

/-! ## All events of a watcher -/

section AllEvents

variable {w : Obj} {c : Option Obj}

theorem watchEventsFor_cons (act : TableAct) (acts : List TableAct) :
    watchEventsFor r (act :: acts) = watchEventsFor r [act] ++ watchEventsFor r acts := by
  simp only [watchEventsFor, ← List.filterMap_append, List.singleton_append]

theorem watchEventsFor_singleton (act : TableAct) :
    watchEventsFor r [act] = [] ∨
      ∃ event, act = .dispatch event ∧ watchEventsFor r [act] = [event] ∧ event.reqId = r ∧
        event.completion.isWatcher = true := by
  cases act with
  | call methName opts => exact Or.inl rfl
  | dispatch event =>
    by_cases h : event.reqId = r ∧ event.completion.isWatcher = true
    · exact Or.inr ⟨event, rfl, by simp [watchEventsFor, h], h⟩
    · exact Or.inl (by simpa [watchEventsFor] using h)

/-- After its last event a watcher is promised nothing. -/
theorem survives_of_no_events {acts : List TableAct} (h : watchEventsFor r acts = []) :
    Survives debug r w c t acts := by
  induction acts generalizing t with
  | nil => trivial
  | cons act acts ih =>
    rw [watchEventsFor_cons, List.append_eq_nil_iff] at h
    exact ⟨by simp [h.1], ih _ h.2⟩

/-- The exact condition, for a watcher whose entry is in the table. -/
theorem survives_iff_of_entry {acts : List TableAct} (hr : r ≠ ZKRB_GLOBAL_CB_REQ)
    (hlt : r < t.currentReqId)
    (hentry : t.watcherReqs r = some { watcher := some (.user w), context := c })
    (hevents : WatchEvents (watchEventsFor r acts)) :
    Survives debug r w c t acts ↔
      watchEventsFor r acts = [] ∨
        w.callable = true ∧
          (debug = true → ∀ event ∈ watchEventsFor r acts, (zkrbEventToRuby event).Named) ∧
          (c = none ∨ ∀ event ∈ watchEventsFor r acts, event.isSession = false) := by
  induction acts generalizing t with
  | nil => simp [Survives, watchEventsFor]
  | cons act acts ih =>
    have hlt' : r < (act.apply debug t).currentReqId :=
      Int.lt_of_lt_of_le hlt (currentReqId_le_apply debug t act)
    rw [watchEventsFor_cons] at hevents ⊢
    -- a step that is no event for the watch leaves its entry alone
    obtain hnone | ⟨event, rfl, hone, hid, hw⟩ := watchEventsFor_singleton (r := r) act
    · rw [hnone, List.nil_append] at hevents ⊢
      have hkept := watcherReqs_apply_of_not_event debug t hlt hnone
      rw [Survives, hnone, ih _ hlt' (hkept.trans hentry) hevents]
      simp
    · rw [hone, List.singleton_append] at hevents ⊢
      have hpromise := promise_iff debug t hid hw hr hentry
      have hstep : Survives debug r w c t (.dispatch event :: acts) ↔
          Promise debug r w c event t ∧
            Survives debug r w c (TableAct.apply debug t (.dispatch event)) acts := by
        rw [Survives, hone]
        simp
      rw [hstep]
      generalize hrest : watchEventsFor r acts = rest at hevents ih ⊢
      cases hevents with
      | last hs =>
        have hdone : Survives debug r w c (TableAct.apply debug t (.dispatch event)) acts :=
          survives_of_no_events debug _ hrest
        rw [hpromise]
        simp [hdone, hs]
      | session hs hrest' =>
        -- a kept promise means that `c` is `nil`, and leaves the entry as it was
        have hentry' (hp : Promise debug r w c event t) :
            (TableAct.apply debug t (.dispatch event)).watcherReqs r =
              some { watcher := some (.user w), context := c } := by
          simpa [TableAct.apply, hs] using hp.2
        constructor
        · rintro ⟨hp, hsurvives⟩
          obtain ⟨hcall, hnamed, hc⟩ := hpromise.mp hp
          have hcnone : c = none := by simpa [hs] using hc
          refine Or.inr ⟨hcall, ?_, Or.inl hcnone⟩
          obtain hnil | ⟨-, hnamed', -⟩ := (ih _ hlt' (hentry' hp) hrest').mp hsurvives
          · simpa [hnil] using hnamed
          · exact fun hd => List.forall_mem_cons.mpr ⟨hnamed hd, hnamed' hd⟩
        · rintro (hnil | ⟨hcall, hnamed, hc⟩)
          · cases hnil
          · have hcnone : c = none := by simpa [hs] using hc
            have hp : Promise debug r w c event t :=
              hpromise.mpr ⟨hcall, fun hd => (List.forall_mem_cons.mp (hnamed hd)).1,
                Or.inl hcnone⟩
            exact ⟨hp, (ih _ hlt' (hentry' hp) hrest').mpr (Or.inr
              ⟨hcall, fun hd => (List.forall_mem_cons.mp (hnamed hd)).2, Or.inl hcnone⟩)⟩

/-- **A watcher across session events.** A watcher registered by any call on a client keeps
what it is promised, for all its events and whatever other calls and dispatches come between
them, exactly when it has no event at all, or it responds to `call`, the debug log can print
every event, and either its context is `nil` or none of the events is a session event. -/
theorem survives_iff {defaultWatcher : Handler} {opts : ReqHash} {acts : List TableAct}
    (methName : Meth) (ht : Requests.Reached debug defaultWatcher t)
    (hw : opts.watcher = some (.user w))
    (hevents : WatchEvents (watchEventsFor t.currentReqId acts)) :
    Survives debug t.currentReqId w opts.watcherContext (t.setupCall methName opts) acts ↔
      watchEventsFor t.currentReqId acts = [] ∨
        w.callable = true ∧
          (debug = true → ∀ event ∈ watchEventsFor t.currentReqId acts,
            (zkrbEventToRuby event).Named) ∧
          (opts.watcherContext = none ∨
            ∀ event ∈ watchEventsFor t.currentReqId acts, event.isSession = false) := by
  have hnonneg := ht.currentReqId_nonneg debug t
  refine survives_iff_of_entry debug _ ?_ ?_ ?_ hevents
  · rw [ZKRB_GLOBAL_CB_REQ]
    omega
  · rw [Requests.currentReqId_setupCall]
    omega
  · rw [Requests.watcherReqs_setupCall, hw]
    exact Function.update_self ..

/-- The session event that the C client reports to a watcher when it has reconnected. -/
def connectedEvent (r : ℤ) : ZkrbEvent :=
  ⟨r, 0, .watcher ZOO_SESSION_EVENT 3 (some [])⟩

/-- The first request of a client, with the watcher 2 and the context 3. -/
def watchedGet : ReqHash :=
  { watcher := some (.user ⟨2, true⟩), watcherContext := some ⟨3, false⟩ }

/-- Two session events: after the first the entry has lost its context, and the second is
reported with none. -/
theorem context_lost_after_session_event :
    let t := (Requests.initial (.user ⟨1, true⟩)).setupCall .get watchedGet
    let once := dispatchEvent false (connectedEvent 0) t
    let twice := dispatchEvent false (connectedEvent 0) once.requests
    WatchEvents (watchEventsFor 0
        [.dispatch (connectedEvent 0), .dispatch (connectedEvent 0)]) ∧
      once.called.map (fun c => c.2.context) = some (some ⟨3, false⟩) ∧
      twice.called.map (fun c => c.2.context) = some none ∧
      ¬Survives false 0 ⟨2, true⟩ (some ⟨3, false⟩) t
        [.dispatch (connectedEvent 0), .dispatch (connectedEvent 0)] := by
  refine ⟨.session rfl (.session rfl .nil), by decide, by decide, ?_⟩
  rintro ⟨hfirst, -⟩
  have hentry := (hfirst (connectedEvent 0) (by decide)).2
  exact absurd hentry (by decide)

/-- A watcher without a context, across one session event. -/
theorem survives_iff_of_no_context :
    let t := Requests.initial (.user ⟨1, true⟩)
    Survives true 0 ⟨2, true⟩ none
        (t.setupCall .get { watcher := some (.user ⟨2, true⟩) }) [.dispatch (connectedEvent 0)] ↔
      watchEventsFor 0 [.dispatch (connectedEvent 0)] = [] ∨
        (⟨2, true⟩ : Obj).callable = true ∧
          (true = true → ∀ event ∈ watchEventsFor 0 [.dispatch (connectedEvent 0)],
            (zkrbEventToRuby event).Named) ∧
          ((none : Option Obj) = none ∨
            ∀ event ∈ watchEventsFor 0 [.dispatch (connectedEvent 0)],
              event.isSession = false) :=
  have hevents : WatchEvents (watchEventsFor 0 [.dispatch (connectedEvent 0)]) :=
    .session rfl .nil
  survives_iff true (Requests.initial (.user ⟨1, true⟩)) .get .initial rfl hevents

end AllEvents

end ZookeeperClient
