import ZookeeperClient.Client.Watches

/-!
# What a flush leaves behind

`reopen` clears `@watcher_reqs` with `@mutex` held. For a session event the dispatch thread
takes the entry out in one critical section and puts it back later, without the mutex. An
entry that is in its hands during the flush comes back afterwards.

## Main definitions

- `Client.Flushed` — besides the session's own watcher only later requests have entries
- `Client.Undisturbed` — no entry of a request is in the hands of the dispatch thread at a flush

## Main results

- `not_flushed_after_reopen` — a flushed entry that comes back
- `flushed_of_undisturbed` — in runs all of whose steps satisfy `Undisturbed` none does
-/

namespace ZookeeperClient

open Transition

namespace Client

variable {setup : Setup} {s s₀ : Client}

/-- The request has been issued since `s₀`. -/
def IssuedSince (s₀ s : Client) (r : ℤ) : Prop :=
  s₀.issued r = none ∧ s.issued r ≠ none

/-- The entries of the table are that of the session's own watcher, which is the default watcher,
and entries of requests issued since `s₀`. -/
structure Flushed (setup : Setup) (s₀ s : Client) : Prop where
  session : ∃ e, s.requests.watcherReqs ZKRB_GLOBAL_CB_REQ = some e ∧
    e.watcher = some setup.defaultWatcher
  others : ∀ r, s.requests.watcherReqs r ≠ none → r = ZKRB_GLOBAL_CB_REQ ∨ IssuedSince s₀ s r

/-- When the table is flushed, the dispatch thread is not about to put back the entry of a
request. -/
def Undisturbed (s : Client) : ClientAct → Prop
  | .reopen | .reopenRaises => ∀ r, s.Restoring r → r = ZKRB_GLOBAL_CB_REQ
  | _ => True

/-! ## The defect -/

/-- A client without the debug log. -/
def plainSetup : Setup :=
  ⟨false, [104], .user ⟨1, true⟩⟩

/-- A watched `get_children`, and a session event for its watch up to the lookup. -/
def sessionLookup : List ClientAct :=
  [.setupCall 0 .getChildren watchedChildren, .locate 0, .submit 0 true,
    .fire 0 ⟨0, ZOK, .watcher (-1) 1 (some [])⟩, .eventThread 0 .start, .eventThread 0 .dequeue,
    .push 0, .pop, .lookup]

/-- The rest of a `reopen`, and after it the rest of the dispatch. -/
def reopenAndProceed : List ClientAct :=
  [.shutDown, .eventThread 0 .dequeue, .eventThread 0 .checkShutdown, .zookeeperClose,
    .queueFree, .reopened, .proceed]

/-- The dispatch thread has taken out the entry of watch 0 for a session event when `reopen`
flushes the table, and puts it back when `reopen` has returned. -/
theorem not_flushed_after_reopen :
    ¬∀ (setup : Setup) (s s' : Client), (client setup).Reachable System.anyStep s →
      Enabled setup s .reopen → (client setup).Reaches System.anyStep (s.next setup .reopen) s' →
      s'.reopening = .free → Flushed setup s s' := by
  intro hall
  have hvalid : (client plainSetup).Valid System.anyStep (initial plainSetup) sessionLookup := by
    simp [System.Valid, System.anyStep, client, Enabled, next, initial, callTo, accept, isAsync,
      step, mark, watchedChildren, Transport.initial, Transport.Enabled, Transport.Internal,
      Transport.next, Transport.zkrbDequeue, Completion.isWatcher, Requests.initial,
      Requests.flush, dispatchPrelude, plainSetup, sessionLookup]
  have hvalid' : (client plainSetup).Valid System.anyStep
      (((client plainSetup).exec (initial plainSetup) sessionLookup).next plainSetup .reopen)
      reopenAndProceed := by
    simp [System.Valid, System.anyStep, client, Enabled, next, initial, callTo, accept, isAsync,
      step, mark, watchedChildren, Transport.initial, Transport.Enabled, Transport.Internal,
      Transport.next, Transport.zkrbDequeue, Requests.initial, Requests.flush, plainSetup,
      sessionLookup, reopenAndProceed]
  have hflushed := hall _ _ _ (hvalid.reachable_exec rfl) rfl hvalid'.reaches_exec (by rfl)
  obtain hr | ⟨hr, -⟩ := hflushed.others 0 (fun hnone => by cases hnone)
  · cases hr
  · cases hr

/-! ## Runs in which no flush is disturbed -/

/-- Where an entry comes from: it was there, its request has just been issued, or the dispatch
thread has put it back. -/
theorem watcherReqs_of_next {a : ClientAct} (hen : Enabled setup s a) {r : ℤ}
    (hr : (s.next setup a).requests.watcherReqs r ≠ none) :
    r = ZKRB_GLOBAL_CB_REQ ∨ (s.requests.watcherReqs r ≠ none ∧ a ≠ .reopen ∧ a ≠ .reopenRaises) ∨
      (∃ i m opts, a = .setupCall i m opts ∧ r = s.requests.currentReqId) ∨
      a = .proceed ∧ s.Restoring r := by
  have heff := effect_next hen
  generalize s.next setup a = s' at heff hr
  cases heff with
  | @setupCall i m opts =>
    by_cases hid : r = s.requests.currentReqId
    · exact Or.inr (Or.inr (Or.inl ⟨i, m, opts, rfl, hid⟩))
    · rw [Requests.watcherReqs_setupCall_of_ne _ _ _ _ hid] at hr
      exact Or.inr (Or.inl ⟨hr, by simp, by simp⟩)
  | @lookup hash hpc =>
    refine Or.inr (Or.inl ⟨?_, by simp, by simp⟩)
    intro hnone
    apply hr
    exact watcherReqs_takeEntry_eq_none hnone
  | @proceed hash entry requests dispatcher invocations hpc hreq =>
    obtain ⟨-, rfl⟩ | hreq := hreq
    · exact Or.inr (Or.inl ⟨hr, by simp, by simp⟩)
    · by_cases hid : r = hash.reqId
      · by_cases hsession : hash.isSession = true
        · -- the entry of a session event goes back
          obtain ⟨hc, callOpts, rfl, -⟩ := restoreEntry_session_eq_ok hsession hreq
          exact Or.inr (Or.inr (Or.inr
            ⟨rfl, hash, callOpts, hpc, watchOf_iff.mpr ⟨hc, hid.symm⟩, hsession⟩))
        · rw [restoreEntry_of_not_session (by simpa using hsession)] at hreq
          obtain rfl := Except.ok.inj hreq
          exact Or.inr (Or.inl ⟨hr, by simp, by simp⟩)
      · simp only [(restoreEntry_frame hreq).2.2 r hid] at hr
        exact Or.inr (Or.inl ⟨hr, by simp, by simp⟩)
  -- the flush leaves the global entry only
  | reopen | reopenRaises =>
    left
    by_contra hid
    simp [Requests.flush, hid] at hr
  | _ => exact Or.inr (Or.inl ⟨hr, by simp, by simp⟩)

/-- An entry gets into the hands of the dispatch thread by its lookup in the table. -/
theorem restoring_of_next {a : ClientAct} (hen : Enabled setup s a) {r : ℤ}
    (hr : (s.next setup a).Restoring r) :
    s.Restoring r ∧ a ≠ .lookup ∨ a = .lookup ∧ s.requests.watcherReqs r ≠ none := by
  obtain ⟨hash, e, hpc, hw, hsession⟩ := hr
  have heff := effect_next hen
  generalize s.next setup a = s' at heff hpc
  cases heff with
  | @lookup raw hraw =>
    obtain ⟨rfl, he⟩ : raw.convert = hash ∧ (takeEntry raw.convert s.requests).1 = some e := by
      simpa using hpc
    obtain ⟨hc, rfl⟩ := watchOf_iff.mp hw
    rw [takeEntry_watch hc] at he
    refine Or.inr ⟨rfl, ?_⟩
    intro hnone
    have hsome : s.requests.watcherReqs raw.convert.reqId = some e := he
    rw [hnone] at hsome
    cases hsome
  | proceed hpc' hreq hdisp =>
    obtain rfl | rfl := hdisp <;> cases hpc
  | pop | preludeRaises | callbackEnds => cases hpc
  | _ => exact Or.inl ⟨⟨hash, e, hpc, hw, hsession⟩, by simp⟩

/-- What holds from a flush on: the entries in the table, and the one in the hands of the
dispatch thread, are the session's own or have been registered since `s₀`. -/
structure Since (s₀ s : Client) : Prop where
  issued : ∀ r, s₀.issued r ≠ none → s.issued r ≠ none
  table : ∀ r, s.requests.watcherReqs r ≠ none → r = ZKRB_GLOBAL_CB_REQ ∨ IssuedSince s₀ s r
  restoring : ∀ r, s.Restoring r → r = ZKRB_GLOBAL_CB_REQ ∨ IssuedSince s₀ s r

theorem since_next (hids : Ids s) (hs : Since s₀ s) {a : ClientAct} (hen : Enabled setup s a) :
    Since s₀ (s.next setup a) := by
  have hkeep (r : ℤ) (hr : s.issued r ≠ none) : (s.next setup a).issued r ≠ none := by
    obtain ⟨x, hx⟩ := Option.ne_none_iff_exists'.mp hr
    rw [issued_next hids hen hx]
    exact Option.some_ne_none x
  have hsince (r : ℤ) (hr : r = ZKRB_GLOBAL_CB_REQ ∨ IssuedSince s₀ s r) :
      r = ZKRB_GLOBAL_CB_REQ ∨ IssuedSince s₀ (s.next setup a) r :=
    hr.imp_right fun h => ⟨h.1, hkeep r h.2⟩
  refine ⟨fun r hr => hkeep r (hs.issued r hr), ?_, ?_⟩
  · intro r hr
    rcases watcherReqs_of_next hen hr with
      hglobal | ⟨hbefore, -⟩ | ⟨i, m, opts, rfl, rfl⟩ | ⟨rfl, hrestoring⟩
    · exact Or.inl hglobal
    · exact hsince r (hs.table r hbefore)
    · -- the id is issued by this step, and had not been issued at the flush
      refine Or.inr ⟨?_, by simp [next]⟩
      by_contra hold
      exact hs.issued _ hold hids.not_issued
    · exact hsince r (hs.restoring r hrestoring)
  · intro r hr
    obtain ⟨hbefore, -⟩ | ⟨-, hbefore⟩ := restoring_of_next hen hr
    · exact hsince r (hs.restoring r hbefore)
    · exact hsince r (hs.table r hbefore)

/-- Right after an undisturbed flush only the session's own watcher is left. -/
theorem since_flush {a : ClientAct} (ha : a = .reopen ∨ a = .reopenRaises)
    (hok : s.Undisturbed a) : Since s (s.next setup a) := by
  have htable (r : ℤ) (hr : (s.requests.flush setup.defaultWatcher).watcherReqs r ≠ none) :
      r = ZKRB_GLOBAL_CB_REQ := by
    by_contra hne
    simp [Requests.flush, hne] at hr
  obtain rfl | rfl := ha
  · exact ⟨fun _ h => h, fun r hr => Or.inl (htable r hr), fun r hr => Or.inl (hok r hr)⟩
  · exact ⟨fun _ h => h, fun r hr => Or.inl (htable r hr), fun r hr => Or.inl (hok r hr)⟩

/-! ### The session's own watcher -/

/-- The entry of the session's own watcher is never taken out. -/
theorem session_next {a : ClientAct} (hen : Enabled setup s a)
    (hs : s.requests.watcherReqs ZKRB_GLOBAL_CB_REQ ≠ none) :
    (s.next setup a).requests.watcherReqs ZKRB_GLOBAL_CB_REQ ≠ none := by
  obtain hkeep | ⟨rfl, raw, hpc, hw⟩ | rfl | rfl := watcherReqs_next hen hs
  · exact hkeep
  · obtain ⟨hc, hid⟩ := watchOf_iff.mp hw
    have hc' : raw.convert.isCompletion = false := hc
    simp only [next, hpc, takeEntry_watch hc', Requests.getWatcher, reqId_convert, hid, if_true]
    exact hs
  · simp [next, Requests.flush]
  · simp [next, Requests.flush]

theorem session_of_reachable {ok : Client → ClientAct → Prop}
    (h : (client setup).Reachable ok s) :
    ∃ e, s.requests.watcherReqs ZKRB_GLOBAL_CB_REQ = some e ∧
      e.watcher = some setup.defaultWatcher := by
  have hsome : s.requests.watcherReqs ZKRB_GLOBAL_CB_REQ ≠ none := by
    refine h.invariant (I := fun s => s.requests.watcherReqs ZKRB_GLOBAL_CB_REQ ≠ none) ?_
      fun _ _ hs hen _ => session_next hen hs
    rintro _ rfl
    simp [initial, Requests.initial, Requests.flush]
  obtain ⟨e, he⟩ := Option.ne_none_iff_exists'.mp hsome
  refine ⟨e, he, ?_⟩
  obtain ⟨-, hw⟩ | ⟨m, opts, w, hx, -⟩ := (genuine_of_reachable h).watcher he
  · exact hw
  · -- the global id is not issued
    exact absurd rfl ((ids_of_reachable h).ne_global hx)

/-- **A flush leaves nothing behind while no entry is being put back.** If at every flush of the
table the dispatch thread has no entry of a request in its hands, then from each `reopen` on,
whether it returns or raises, the table holds the default watcher and entries of requests issued
after the flush. -/
theorem flushed_of_undisturbed {a : ClientAct} (ha : a = .reopen ∨ a = .reopenRaises)
    {s' : Client} (h : (client setup).Reachable Undisturbed s) (hen : Enabled setup s a)
    (hok : s.Undisturbed a) (h' : (client setup).Reaches Undisturbed (s.next setup a) s') :
    Flushed setup s s' := by
  have hnext : (client setup).Reachable Undisturbed (s.next setup a) := h.next a hen hok
  have hboth : (client setup).Reachable Undisturbed s' ∧ Since s s' := by
    refine h'.invariant (I := fun s' => (client setup).Reachable Undisturbed s' ∧ Since s s')
      ?_ ⟨hnext, since_flush ha hok⟩
    intro s'' a' ⟨hreach, hsince⟩ hen' hok'
    exact ⟨hreach.next a' hen' hok', since_next (ids_of_reachable hreach) hsince hen'⟩
  exact ⟨session_of_reachable hboth.1, hboth.2.table⟩

/-- A watch is registered before a `reopen` and another one after it. -/
theorem flushed_between_watches :
    Flushed plainSetup
      ((client plainSetup).exec (initial plainSetup) [.setupCall 0 .getChildren watchedChildren])
      ((client plainSetup).exec
        (((client plainSetup).exec (initial plainSetup)
          [.setupCall 0 .getChildren watchedChildren]).next plainSetup .reopen)
        [.shutDown, .eventThread 0 .start, .zookeeperClose, .queueFree, .reopened,
          .setupCall 1 .getChildren watchedChildren]) := by
  refine flushed_of_undisturbed (Or.inl rfl) (System.Valid.reachable_exec rfl ?_) rfl ?_
    (System.Valid.reaches_exec ?_)
  · simp [System.Valid, Undisturbed, client, Enabled, initial]
  · simp [Undisturbed, Restoring, client, next, initial, callTo]
  · simp [System.Valid, Undisturbed, client, Enabled, next, initial, callTo, step,
      Transport.initial, Transport.Enabled, Transport.Internal, Transport.next]

end Client

end ZookeeperClient
