import ZookeeperClient.Client.Basic

/-!
# Whose entries are in the tables

An entry of `@completion_reqs` or `@watcher_reqs` carries an id, and so does every event.
The entries found under an id are those of the request that was issued with it, and so
are the user objects that the dispatch thread calls.

## Main definitions

- `Client.EntryFor` — the entry of a table is the one that belongs to an event
- `Client.OwnCall` — a user object has been called for an event of its own request

## Main results

- `genuine_of_reachable` — all entries and all calls belong to the request with their id
-/

namespace ZookeeperClient

open Transition

namespace Client

variable {setup : Setup} {s : Client}

/-- The entry is the registration of the callback with which `r` was issued. -/
def CompletionEntry (s : Client) (r : ℤ) (e : ReqHash) : Prop :=
  ∃ m opts cb, s.issued r = some (m, opts) ∧ opts.callback = some cb ∧
    e.callback.map Handler.callee = some cb.callee ∧ e.context = opts.callbackContext

/-- The entry holds the watcher with which `r` was issued, or that of the session. -/
def WatchEntry (setup : Setup) (s : Client) (r : ℤ) (e : ReqHash) : Prop :=
  (r = ZKRB_GLOBAL_CB_REQ ∧ e.watcher = some setup.defaultWatcher) ∨
    ∃ m opts w, s.issued r = some (m, opts) ∧ opts.watcher = some w ∧ e.watcher = some w

/-- The entry of the right table for an event with this hash. -/
def EntryFor {σ α : Type} (setup : Setup) (s : Client) (hash : EventHash σ α) (e : ReqHash) :
    Prop :=
  if hash.isCompletion then CompletionEntry s hash.reqId e
  else WatchEntry setup s hash.reqId e

/-- A completion is answered by the callback of its own request, with its own context; a watch
event by the watcher of its own request. -/
def OwnCall (setup : Setup) (s : Client) (inv : Invocation) : Prop :=
  if inv.hash.isCompletion then
    ∃ m opts cb, s.issued inv.hash.reqId = some (m, opts) ∧ opts.callback = some cb ∧
      inv.callee = cb.callee ∧ inv.hash.context = opts.callbackContext
  else
    (inv.hash.reqId = ZKRB_GLOBAL_CB_REQ ∧ inv.callee = setup.defaultWatcher.callee) ∨
      ∃ m opts w, s.issued inv.hash.reqId = some (m, opts) ∧ opts.watcher = some w ∧
        inv.callee = w.callee

/-- All entries, in the tables and in the hands of the dispatch thread, and all calls belong to
the request whose id they carry. -/
structure Genuine (setup : Setup) (s : Client) : Prop where
  completion : ∀ {r e}, s.requests.completionReqs r = some e → CompletionEntry s r e
  watcher : ∀ {r e}, s.requests.watcherReqs r = some e → WatchEntry setup s r e
  taken : ∀ {hash e}, s.dispatcher = .taken hash (some e) → EntryFor setup s hash e
  invocation : ∀ inv ∈ s.invocations, OwnCall setup s inv

/-- Issued ids stay issued. -/
def Extends (s s' : Client) : Prop :=
  ∀ {r x}, s.issued r = some x → s'.issued r = some x

theorem Extends.completionEntry {s' : Client} (h : Extends s s') {r : ℤ} {e : ReqHash}
    (he : CompletionEntry s r e) : CompletionEntry s' r e := by
  obtain ⟨m, opts, cb, hx, hcb, hcallee, hcontext⟩ := he
  exact ⟨m, opts, cb, h hx, hcb, hcallee, hcontext⟩

theorem Extends.watchEntry {s' : Client} (h : Extends s s') {r : ℤ} {e : ReqHash}
    (he : WatchEntry setup s r e) : WatchEntry setup s' r e := by
  obtain hglobal | ⟨m, opts, w, hx, hw, hwatcher⟩ := he
  · exact Or.inl hglobal
  · exact Or.inr ⟨m, opts, w, h hx, hw, hwatcher⟩

theorem Extends.entryFor {σ α : Type} {s' : Client} (h : Extends s s') {hash : EventHash σ α}
    {e : ReqHash} (he : EntryFor setup s hash e) : EntryFor setup s' hash e := by
  unfold EntryFor at he ⊢
  split
  · next hc => exact h.completionEntry (by simpa [hc] using he)
  · next hc => exact h.watchEntry (by simpa [hc] using he)

theorem Extends.ownCall {s' : Client} (h : Extends s s') {inv : Invocation}
    (hi : OwnCall setup s inv) : OwnCall setup s' inv := by
  unfold OwnCall at hi ⊢
  split
  · next hc =>
    rw [if_pos hc] at hi
    obtain ⟨m, opts, cb, hx, hrest⟩ := hi
    exact ⟨m, opts, cb, h hx, hrest⟩
  · next hc =>
    rw [if_neg hc] at hi
    obtain hglobal | ⟨m, opts, w, hx, hrest⟩ := hi
    · exact Or.inl hglobal
    · exact Or.inr ⟨m, opts, w, h hx, hrest⟩

theorem watchEntry_flush {t : Requests} {r : ℤ} {e : ReqHash}
    (he : (t.flush setup.defaultWatcher).watcherReqs r = some e) : WatchEntry setup s r e := by
  by_cases hr : r = ZKRB_GLOBAL_CB_REQ
  · subst hr
    obtain rfl : { watcher := some setup.defaultWatcher } = e := by
      simpa [Requests.flush] using he
    exact Or.inl ⟨rfl, rfl⟩
  · simp [Requests.flush, hr] at he

theorem genuine_initial : Genuine setup (initial setup) where
  completion h := by simp [initial, Requests.initial] at h
  watcher h := watchEntry_flush h
  taken h := by simp [initial] at h
  invocation inv h := by simp [initial] at h

theorem genuine_setupCall (hids : Ids s) (hs : Genuine setup s) {i : ℕ} {m : Meth}
    {opts : ReqHash} : Genuine setup (s.next setup (.setupCall i m opts)) := by
  have hext : Extends s (s.next setup (.setupCall i m opts)) := fun {r x} hx => by
    simp [next, hids.ne_current_of_issued hx, hx]
  -- a new entry is that of the call; the others are as before
  refine ⟨fun {r e} he => ?_, fun {r e} he => ?_, fun {hash e} hpc => hext.entryFor (hs.taken hpc),
    fun inv hinv => hext.ownCall (hs.invocation inv hinv)⟩
  · by_cases hr : r = s.requests.currentReqId
    · subst hr
      simp only [next, Requests.completionReqs_setupCall] at he
      split at he
      · next hsome =>
        obtain ⟨cb, hcb⟩ := Option.isSome_iff_exists.mp hsome
        rw [Function.update_self] at he
        obtain rfl := Option.some.inj he
        refine ⟨m, opts, cb, by simp [next], hcb, ?_, rfl⟩
        rw [Requests.callee_wrapCallback, hcb]
        rfl
      · exact hext.completionEntry (hs.completion he)
    · simp only [next, Requests.completionReqs_setupCall_of_ne _ _ _ _ hr] at he
      exact hext.completionEntry (hs.completion he)
  · by_cases hr : r = s.requests.currentReqId
    · subst hr
      simp only [next, Requests.watcherReqs_setupCall] at he
      split at he
      · next hsome =>
        obtain ⟨w, hw⟩ := Option.isSome_iff_exists.mp hsome
        rw [Function.update_self] at he
        obtain rfl := Option.some.inj he
        exact Or.inr ⟨m, opts, w, by simp [next], hw, hw⟩
      · exact hext.watchEntry (hs.watcher he)
    · simp only [next, Requests.watcherReqs_setupCall_of_ne _ _ _ _ hr] at he
      exact hext.watchEntry (hs.watcher he)

theorem genuine_lookup (hs : Genuine setup s) (hen : Enabled setup s .lookup) :
    Genuine setup (s.next setup .lookup) := by
  obtain ⟨⟨hash, hash', hpc, -⟩, -⟩ := hen
  simp only [next, hpc]
  refine ⟨fun {r e} he => ?_, fun {r e} he => ?_, fun {taken e} htaken => ?_, hs.invocation⟩
  · -- a lookup only removes entries
    by_cases hc : hash.isCompletion = true
    · by_cases hr : r = hash.reqId
      · subst hr
        simp only [takeEntry_completion (show hash.convert.isCompletion = true from hc),
          reqId_convert, Requests.completionReqs_getCompletion_self, reduceCtorEq] at he
      · exact hs.completion (by rwa [completionReqs_takeEntry_of_ne hr] at he)
    · rw [completionReqs_takeEntry_watch (by simpa using hc)] at he
      exact hs.completion he
  · by_cases hc : hash.isCompletion = true
    · rw [watcherReqs_takeEntry_completion (by simpa using hc)] at he
      exact hs.watcher he
    · by_cases hr : r = hash.reqId
      · subst hr
        rw [takeEntry_watch (by simpa using hc)] at he
        by_cases hg : hash.reqId = ZKRB_GLOBAL_CB_REQ
        · exact hs.watcher (by simpa [Requests.getWatcher, hg] using he)
        · simp [Requests.watcherReqs_getWatcher_self _ _ hg] at he
      · exact hs.watcher (by rwa [watcherReqs_takeEntry_of_ne hr] at he)
  · obtain ⟨rfl, hentry⟩ : hash.convert = taken ∧
        (takeEntry hash.convert s.requests).1 = some e := by simpa using htaken
    unfold EntryFor
    split
    · next hc =>
      rw [takeEntry_completion hc] at hentry
      exact hs.completion hentry
    · next hc =>
      rw [takeEntry_watch (by simpa using hc)] at hentry
      exact hs.watcher hentry

/-- A call of a user object by the second half of a dispatch belongs to the event's request. -/
theorem ownCall_of_entryFor {host : Bytes} {hash arg : CallbackHash} {entry : Option ReqHash}
    {cb : Handler} {inv : Invocation} (hentry : ∀ e, entry = some e → EntryFor setup s hash e)
    (hcalled : callbackOf hash entry = some (cb, arg)) (hcall : cb.call host arg = .ok inv) :
    OwnCall setup s inv := by
  obtain ⟨e, rfl, hcb, -, rfl⟩ := callbackOf_eq_some hcalled
  obtain ⟨-, hcallee, hhash⟩ := Handler.call_eq_ok hcall
  have he := hentry e rfl
  unfold EntryFor at he
  unfold OwnCall
  simp only [hcallee, hhash, Handler.isCompletion_passed, Handler.reqId_passed,
    Handler.context_passed]
  by_cases hc : hash.isCompletion = true
  · simp only [hc, if_true] at he hcb
    obtain ⟨m, opts, cb', hx, hopts, hsame, hcontext⟩ := he
    rw [hcb] at hsame
    rw [if_pos (by simpa [EventHash.isCompletion] using hc)]
    exact ⟨m, opts, cb', hx, hopts, Option.some.inj hsame, hcontext⟩
  · simp only [hc, if_false, Bool.false_eq_true] at he hcb
    rw [if_neg (by simpa [EventHash.isCompletion] using hc)]
    obtain ⟨hglobal, hw⟩ | ⟨m, opts, w, hx, hopts, hw⟩ := he
    · obtain rfl := Option.some.inj (hcb.symm.trans hw)
      exact Or.inl ⟨hglobal, rfl⟩
    · obtain rfl := Option.some.inj (hcb.symm.trans hw)
      exact Or.inr ⟨m, opts, cb, hx, hopts, rfl⟩

theorem genuine_proceed (hs : Genuine setup s) (hen : Enabled setup s .proceed) :
    Genuine setup (s.next setup .proceed) := by
  obtain ⟨hash, entry, hpc⟩ := hen
  obtain ⟨requests, dispatcher, invocations, heq, hreq, hdisp, hinv⟩ :=
    dispatchTaken_cases setup.host hash entry s
  have hentry (e : ReqHash) (he : entry = some e) : EntryFor setup s hash e :=
    hs.taken (he ▸ hpc)
  simp only [next, hpc, heq]
  refine ⟨fun {r e} he => ?_, fun {r e} he => ?_, fun {taken e} htaken => ?_, fun inv hmem => ?_⟩
  · obtain ⟨-, rfl⟩ | hreq := hreq
    · exact hs.completion he
    · exact hs.completion ((restoreEntry_frame hreq).2.1 ▸ he)
  · obtain ⟨-, rfl⟩ | hreq := hreq
    · exact hs.watcher he
    · by_cases hr : r = hash.reqId
      · -- the entry put back has the watcher of the entry taken out
        subst hr
        by_cases hse : hash.isSession = true
        · obtain ⟨hc, e₀, rfl, rfl⟩ := restoreEntry_session_eq_ok hse hreq
          rw [Requests.watcherReqs_setupWatcher_self] at he
          obtain rfl := Option.some.inj he
          simpa [EntryFor, hc, WatchEntry] using hentry e₀ rfl
        · rw [restoreEntry_of_not_session (by simpa using hse)] at hreq
          obtain rfl := Except.ok.inj hreq
          exact hs.watcher he
      · exact hs.watcher ((restoreEntry_frame hreq).2.2 r hr ▸ he)
  · simp only at htaken
    obtain rfl | rfl := hdisp <;> cases htaken
  · obtain hmem | hmem := List.mem_append.mp hmem
    · exact hs.invocation inv hmem
    · obtain rfl | ⟨cb, arg, inv', hcalled, hcall, rfl⟩ := hinv
      · cases hmem
      · obtain rfl := List.mem_singleton.mp hmem
        exact ownCall_of_entryFor hentry hcalled hcall

theorem genuine_next (hids : Ids s) (hs : Genuine setup s) {a : ClientAct}
    (hen : Enabled setup s a) : Genuine setup (s.next setup a) := by
  obtain ⟨i, m, opts, rfl⟩ | rfl | rfl | rfl | rfl | hquiet := quiet_or hen
  · exact genuine_setupCall hids hs
  · exact genuine_lookup hs hen
  · exact genuine_proceed hs hen
  · exact ⟨hs.completion, watchEntry_flush, hs.taken, hs.invocation⟩
  · exact ⟨hs.completion, watchEntry_flush, hs.taken, hs.invocation⟩
  · have hext : Extends s (s.next setup a) := fun hx => by rw [hquiet.issued, hx]
    refine ⟨fun he => ?_, fun he => ?_, fun he => hext.entryFor (hs.taken (hquiet.taken he)),
      fun inv hmem => hext.ownCall (hs.invocation inv (hquiet.invocations ▸ hmem))⟩
    · exact hext.completionEntry (hs.completion (by rwa [hquiet.requests] at he))
    · exact hext.watchEntry (hs.watcher (by rwa [hquiet.requests] at he))

theorem genuine_of_reachable {ok : Client → ClientAct → Prop}
    (h : (client setup).Reachable ok s) : Genuine setup s := by
  refine h.invariant_under (fun _ => ids_of_reachable) ?_
    fun _ _ hids hs hen _ => genuine_next hids hs hen
  rintro _ rfl
  exact genuine_initial

end Client

end ZookeeperClient
