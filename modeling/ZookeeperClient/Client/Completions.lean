import ZookeeperClient.Client.Answers
import ZookeeperClient.Client.Entries

/-!
# Every completion is answered once

What the callers of asynchronous operations are promised about their callbacks, in every
state of every run and across `reopen`: ids do not repeat, a completion that is dispatched
finds the entry of its own request, and its callback is called once and with its own
context.

## Main definitions

- `Client.CompletionContract` — the promise

## Main results

- `completionContract_of_reachable` — the promise is kept in every reachable state
-/

namespace ZookeeperClient

open Transition

namespace Client

variable {setup : Setup} {s : Client}

/-- What the callers of asynchronous operations are promised. -/
structure CompletionContract (setup : Setup) (s : Client) : Prop where
  /-- No id is given out twice: the next one is new, and different calls have different ids. -/
  next_id : s.issued s.requests.currentReqId = none
  ids : ∀ i j r, (s.calls i).reqId = some r → (s.calls j).reqId = some r → i = j
  /-- No id is the global one. -/
  not_global : ∀ i r, (s.calls i).reqId = some r → r ≠ ZKRB_GLOBAL_CB_REQ
  /-- The completion of a request is passed to a callback at most once. -/
  once : ∀ r, s.invocations.countP (fun inv => completes r inv.hash) ≤ 1
  /-- Every call is made for an event of the request it belongs to. -/
  own : ∀ inv ∈ s.invocations, OwnCall setup s inv
  /-- A completion that is dispatched finds the entry of its request. -/
  found : ∀ raw m opts cb, s.dispatcher = .received raw → raw.isCompletion = true →
    s.issued raw.reqId = some (m, opts) → opts.callback = some cb →
    dispatchPrelude setup.debug raw = .ok raw.convert ∧
      ∃ e, s.requests.completionReqs raw.reqId = some e ∧
        e.callback.map Handler.callee = some cb.callee ∧ e.context = opts.callbackContext
  /-- The callback is invoked, if it is callable. -/
  answered : ∀ hash entry m opts cb, s.dispatcher = .taken hash entry →
    hash.isCompletion = true → s.issued hash.reqId = some (m, opts) → opts.callback = some cb →
    cb.callee.callable = true →
    ∃ inv, (s.next setup .proceed).invocations = s.invocations ++ [inv] ∧
      completes hash.reqId inv.hash = true ∧ inv.callee = cb.callee ∧
      inv.hash.context = opts.callbackContext
  /-- The lookup of one kind of event never touches the table of the other. -/
  separate : ∀ raw, s.dispatcher = .received raw →
    if raw.isCompletion then
      (s.next setup .lookup).requests.watcherReqs = s.requests.watcherReqs
    else (s.next setup .lookup).requests.completionReqs = s.requests.completionReqs

/-- The dispatch thread has found an entry for the completion in its hands. -/
def Found (s : Client) : Prop :=
  ∀ hash entry m opts, s.dispatcher = .taken hash entry → hash.isCompletion = true →
    s.issued hash.reqId = some (m, opts) → opts.callback.isSome → entry ≠ none

/-- The entry of a completion that has arrived at the dispatch thread is in the table. -/
theorem Tracked.entry_of_received (hs : Tracked s) {raw : RawHash}
    (hpc : s.dispatcher = .received raw) (hc : raw.isCompletion = true) {m : Meth}
    {opts : ReqHash} (hx : s.issued raw.reqId = some (m, opts)) (hcb : opts.callback.isSome) :
    s.requests.completionReqs raw.reqId ≠ none := by
  refine hs.kept ⟨.inRuby, trivial, ?_⟩ hx hcb
  simp [tokens, toDispatch_of_received hpc, completes, hc]

theorem found_next (hids : Ids s) (htracked : Tracked s) (hs : Found s) {a : ClientAct}
    (hen : Enabled setup s a) : Found (s.next setup a) := by
  obtain ⟨i, m, opts, rfl⟩ | rfl | rfl | rfl | rfl | hquiet := quiet_or hen
  · intro hash entry m' opts' hpc hc hx hcb
    by_cases hr : hash.reqId = s.requests.currentReqId
    · -- a request that has not been issued has no answer
      have htaken : 0 < s.tokens .taken hash.reqId := by
        have hpc' : s.dispatcher = .taken hash entry := hpc
        simp [tokens, hpc', completes, hc]
      obtain ⟨x, hx'⟩ := htracked.issued htaken
      exact absurd hr (hids.ne_current_of_issued hx')
    · exact hs hash entry m' opts' hpc hc (by simpa [next, hr] using hx) hcb
  · -- the lookup finds the entry, which a tracked answer still has
    obtain ⟨⟨raw, hash', hpc, -⟩, -⟩ := hen
    intro hash entry m opts htaken hc hx hcb
    simp only [next, hpc] at htaken hx
    obtain ⟨rfl, rfl⟩ : raw.convert = hash ∧ (takeEntry raw.convert s.requests).1 = entry := by
      simpa using htaken
    rw [takeEntry_completion hc]
    exact htracked.entry_of_received hpc hc hx hcb
  · obtain ⟨hash, entry, hpc⟩ := hen
    obtain ⟨requests, dispatcher, invocations, heq, -, hdisp, -⟩ :=
      dispatchTaken_cases setup.host hash entry s
    intro hash' entry' m opts htaken
    simp only [next, hpc, heq] at htaken
    obtain rfl | rfl := hdisp <;> cases htaken
  · exact hs
  · exact hs
  · intro hash entry m opts hpc hc hx hcb
    rw [hquiet.issued] at hx
    exact hs hash entry m opts (hquiet.taken hpc) hc hx hcb

theorem found_of_reachable {ok : Client → ClientAct → Prop}
    (h : (client setup).Reachable ok s) : Found s := by
  refine h.invariant_under (I := Found) (J := fun s => Ids s ∧ Tracked s)
    (fun _ hr => ⟨ids_of_reachable hr, tracked_of_reachable hr⟩) ?_
    fun _ _ hJ hs hen _ => found_next hJ.1 hJ.2 hs hen
  rintro _ rfl
  intro hash entry m opts hpc
  simp [initial] at hpc

theorem answered_of_found (hgenuine : Genuine setup s) (hfound : Found s) {hash : CallbackHash}
    {entry : Option ReqHash} {m : Meth} {opts : ReqHash} {cb : Handler}
    (hpc : s.dispatcher = .taken hash entry) (hc : hash.isCompletion = true)
    (hx : s.issued hash.reqId = some (m, opts)) (hcb : opts.callback = some cb)
    (hcall : cb.callee.callable = true) (hsession : hash.isSession = false) :
    ∃ inv, (s.next setup .proceed).invocations = s.invocations ++ [inv] ∧
      completes hash.reqId inv.hash = true ∧ inv.callee = cb.callee ∧
      inv.hash.context = opts.callbackContext := by
  obtain ⟨e, rfl⟩ := Option.ne_none_iff_exists'.mp
    (hfound hash entry m opts hpc hc hx (by simp [hcb]))
  have hentry : EntryFor setup s hash e := hgenuine.taken hpc
  -- the entry found is the one that the request itself has registered
  obtain ⟨m', opts', cb', hx', hcb', hcallee, hcontext⟩ : CompletionEntry s hash.reqId e := by
    simpa [EntryFor, hc] using hentry
  obtain ⟨rfl, rfl⟩ : m = m' ∧ opts = opts' := by simpa [hx] using hx'
  obtain rfl := Option.some.inj (hcb.symm.trans hcb')
  obtain ⟨callback, hcallback, hsame⟩ := Option.map_eq_some_iff.mp hcallee
  have hcallable : callback.callee.callable = true := hsame ▸ hcall
  have hcalled := callbackOf_completion hc hcallback
    (Handler.respondToCall_of_callable hcallable)
  refine ⟨⟨callback.callee, callback.passed setup.host { hash with context := e.context }⟩,
    ?_, ?_, hsame, ?_⟩
  · simp only [next, hpc, dispatchTaken, restoreEntry_of_not_session hsession, hcalled,
      Handler.call, if_pos hcallable]
  · simp [completes, EventHash.isCompletion] at hc ⊢
    exact hc
  · simpa using hcontext

/-- A completion in the hands of the dispatch thread is no session event. -/
def TakenFromC (s : Client) : Prop :=
  ∀ hash entry, s.dispatcher = .taken hash entry → hash.isCompletion = true →
    hash.isSession = false

theorem takenFromC_of_reachable {ok : Client → ClientAct → Prop}
    (h : (client setup).Reachable ok s) : TakenFromC s := by
  refine h.invariant_under (I := TakenFromC) (fun _ => fromC_of_reachable) ?_
    fun s a hfrom hs hen _ => ?_
  · rintro _ rfl
    intro hash entry hpc
    simp [initial] at hpc
  · change TakenFromC (s.next setup a)
    obtain ⟨i, m, opts, rfl⟩ | rfl | rfl | rfl | rfl | hquiet := quiet_or hen
    · exact hs
    · obtain ⟨⟨raw, hash', hpc, -⟩, -⟩ := hen
      intro hash entry htaken hc
      simp only [next, hpc] at htaken
      obtain ⟨rfl, -⟩ : raw.convert = hash ∧ (takeEntry raw.convert s.requests).1 = entry := by
        simpa using htaken
      obtain ⟨event, rfl⟩ := hfrom raw (by simp [toDispatch_of_received hpc])
      exact isSession_eq_false_of_isCompletion event hc
    · obtain ⟨hash, entry, hpc⟩ := hen
      obtain ⟨requests, dispatcher, invocations, heq, -, hdisp, -⟩ :=
        dispatchTaken_cases setup.host hash entry s
      intro hash' entry' htaken
      simp only [next, hpc, heq] at htaken
      obtain rfl | rfl := hdisp <;> cases htaken
    · exact hs
    · exact hs
    · exact fun hash entry hpc => hs hash entry (hquiet.taken hpc)

/-- **Completions are answered exactly by their own callbacks.** In every state of every run,
whatever calls, events, dispatches and reopens have come before, the promise to the callers
holds. -/
theorem completionContract_of_reachable
    (h : (client setup).Reachable System.anyStep s) : CompletionContract setup s := by
  have hids := ids_of_reachable h
  have htracked := tracked_of_reachable h
  have hgenuine := genuine_of_reachable h
  refine ⟨hids.not_issued, fun _ _ _ => hids.unique, fun i r hr => ?_,
    fun r => htracked.placed.le_one .invoked r, hgenuine.invocation,
    fun raw m opts cb hpc hc hx hcb => ?_, fun hash entry m opts cb hpc hc hx hcb hcall => ?_,
    fun raw hpc => ?_⟩
  · obtain ⟨x, hx⟩ := hids.calls hr
    exact hids.ne_global hx
  · refine ⟨(fromC_of_reachable h).prelude hpc hc, ?_⟩
    obtain ⟨e, he⟩ := Option.ne_none_iff_exists'.mp
      (htracked.entry_of_received hpc hc hx (by simp [hcb]))
    obtain ⟨m', opts', cb', hx', hcb', hcallee, hcontext⟩ := hgenuine.completion he
    obtain ⟨rfl, rfl⟩ : m = m' ∧ opts = opts' := by simpa [hx] using hx'
    obtain rfl := Option.some.inj (hcb.symm.trans hcb')
    exact ⟨e, he, hcallee, hcontext⟩
  · exact answered_of_found hgenuine (found_of_reachable h) hpc hc hx hcb hcall
      (takenFromC_of_reachable h hash entry hpc hc)
  · simp only [next, hpc]
    split
    · next hc => exact watcherReqs_takeEntry_completion hc _
    · next hc => exact completionReqs_takeEntry_watch (by simpa using hc) _

/-- A client with a chrooted connection and the debug log on. -/
def debugSetup : Setup :=
  ⟨true, [104, 47, 97], .user ⟨1, true⟩⟩

/-- The options of an asynchronous watched `get`. -/
def asyncWatched : ReqHash where
  callback := some (.user ⟨2, true⟩)
  callbackContext := some ⟨3, false⟩
  watcher := some (.user ⟨4, true⟩)

/-- The run of an asynchronous watched `get` up to the lookup of its completion. -/
theorem completionContract_watchedGet :
    CompletionContract debugSetup ((client debugSetup).exec (initial debugSetup)
      [.setupCall 0 .get asyncWatched, .locate 0,
        .submit 0 true, .complete 0 ⟨0, ZOK, .data (some [1]) none⟩,
        .eventThread 0 .start, .eventThread 0 .dequeue, .push 0, .pop, .lookup]) :=
  completionContract_of_reachable (System.Valid.reachable_exec rfl (by
    simp [System.Valid, System.anyStep, client, Enabled, next, initial, callTo, accept, isAsync,
      step, mark, Requests.initial, Requests.flush, Transport.initial, Transport.Enabled,
      Transport.Internal, Transport.next, Transport.zkrbDequeue, Completion.isWatcher,
      debugSetup, asyncWatched, dispatchPrelude, prettifyEvent, zkrbEventToRuby, fetchName]
    exact ⟨_, rfl⟩))

end Client

end ZookeeperClient
