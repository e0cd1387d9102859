import ZookeeperClient.Client.Entries
import ZookeeperClient.Client.WatchOrder

/-!
# Live watches and their handlers

A call with a `:watcher` registers it in one critical section, reads `@czk` in a second
and installs the watch outside both. A `reopen` between the first and the second clears
the registration and replaces the handle, and the watch is then installed on the new
handle without a handler.

## Main definitions

- `Client.HasHandler` — the watches of the current handle have their handlers
- `Client.Answerable` — no watch event of the current handle is reported as unknown
- `Client.Settled` — no watched call is between its registration and `czk` at a `reopen`

## Main results

- `not_hasHandler_after_reopen` — the run described above
- `hasHandler_of_settled` — runs all of whose steps satisfy `Settled` keep all handlers
-/

namespace ZookeeperClient

open Transition

/-- The id of a watched call that has not submitted its request and will submit it to the handle
`czk`, as far as is known. -/
def CallPc.exposed (czk : ℕ) : CallPc → Option ℤ
  | .registered r _ opts => if opts.watcher.isSome then some r else none
  | .located r _ opts h => if opts.watcher.isSome ∧ h = czk then some r else none
  | _ => none

theorem CallPc.request_of_exposed {czk : ℕ} {pc : CallPc} {r : ℤ}
    (h : pc.exposed czk = some r) : ∃ m opts, pc.request = some (r, m, opts) := by
  cases pc with
  | idle | returned => cases h
  | registered r' m opts =>
    obtain ⟨-, rfl⟩ : opts.watcher.isSome ∧ r' = r := by simpa [exposed] using h
    exact ⟨m, opts, rfl⟩
  | located r' m opts h' =>
    obtain ⟨-, rfl⟩ : (opts.watcher.isSome ∧ h' = czk) ∧ r' = r := by simpa [exposed] using h
    exact ⟨m, opts, rfl⟩

namespace Client

variable {setup : Setup} {s : Client}

/-- Every watch that a call has installed on the current handle, and whose final event has not
been taken up, has the watcher of that call registered, or in the hands of the dispatch thread
that is about to put it back. -/
def HasHandler (s : Client) : Prop :=
  ∀ r m opts w, s.home r = some s.czk → s.takenUp r = false → s.issued r = some (m, opts) →
    opts.watcher = some w →
    (∃ e, s.requests.watcherReqs r = some e ∧ e.watcher = some w) ∨
      ∃ hash e, s.dispatcher = .taken hash (some e) ∧ e.watcher = some w ∧
        watchOf r hash = true ∧ hash.isSession = true

/-- The lookup of a watch event of the current handle finds an entry. -/
def Answerable (s : Client) : Prop :=
  ∀ raw, s.dispatcher = .received raw → raw.isCompletion = false →
    s.home raw.reqId = some s.czk → s.requests.watcherReqs raw.reqId ≠ none

/-- When `reopen` begins, no watched call is between its registration and `czk`; and a `reopen`
that raises finds no watch of the current handle, installed or about to be. -/
def Settled (s : Client) : ClientAct → Prop
  | .reopen => ∀ i r m opts, s.calls i = .registered r m opts → opts.watcher = none
  | .reopenRaises =>
    (∀ i, (s.calls i).exposed s.czk = none) ∧ ∀ r, s.home r = some s.czk → s.takenUp r = true
  | _ => True

/-! ## The defect -/

/-- A `get_children` with a watcher. -/
def watchedChildren : ReqHash where
  watcher := some (.user ⟨2, true⟩)

/-- The watched call 0 has registered its watcher and has not read `@czk` when `reopen` runs. The
watch fires on the new handle, and the event has no handler. -/
theorem not_hasHandler_after_reopen :
    ∃ s, (client ⟨false, [104], .user ⟨1, true⟩⟩).Reachable System.anyStep s ∧
      ¬s.HasHandler ∧ ¬s.Answerable := by
  have hvalid : (client ⟨false, [104], .user ⟨1, true⟩⟩).Valid System.anyStep
      (initial ⟨false, [104], .user ⟨1, true⟩⟩)
      [.setupCall 0 .getChildren watchedChildren, .reopen, .shutDown, .eventThread 0 .start,
        .zookeeperClose, .queueFree, .reopened, .locate 0, .submit 0 true,
        .fire 1 ⟨0, ZOK, .watcher 4 3 (some [47])⟩, .eventThread 1 .start,
        .eventThread 1 .dequeue, .push 1, .pop] := by
    simp [System.Valid, System.anyStep, client, Enabled, next, initial, callTo, accept, isAsync,
      step, mark, watchedChildren, Transport.initial, Transport.Enabled, Transport.Internal,
      Transport.next, Transport.zkrbDequeue, Completion.isWatcher, Requests.initial,
      Requests.flush]
  refine ⟨_, hvalid.reachable_exec rfl, fun hhas => ?_, fun hans => ?_⟩
  · rcases hhas 0 .getChildren watchedChildren (.user ⟨2, true⟩) (by rfl) (by rfl) (by rfl) rfl
      with ⟨e, he, -⟩ | ⟨hash, e, hpc, -⟩
    · cases he
    · cases hpc
  · exact hans _ rfl (by rfl) (by rfl) (by rfl)

/-! ## Runs in which watched calls are settled -/

/-- The dispatch thread is about to put the watcher of `r` back after a session event. -/
def Restoring (s : Client) (r : ℤ) : Prop :=
  ∃ hash e, s.dispatcher = .taken hash (some e) ∧ watchOf r hash = true ∧ hash.isSession = true

/-- A registered watcher stays registered unless one of its events is looked up, or the table is
cleared. -/
theorem watcherReqs_next {a : ClientAct} (hen : Enabled setup s a) {r : ℤ}
    (hr : s.requests.watcherReqs r ≠ none) :
    (s.next setup a).requests.watcherReqs r ≠ none ∨
      (a = .lookup ∧ ∃ hash, s.dispatcher = .received hash ∧ watchOf r hash = true) ∨
      a = .reopen ∨ a = .reopenRaises := by
  have heff := effect_next hen
  generalize s.next setup a = s' at heff ⊢
  cases heff with
  | @setupCall i m opts =>
    refine Or.inl ?_
    simp only [Requests.watcherReqs_setupCall]
    split
    · by_cases hid : r = s.requests.currentReqId
      · simp [hid]
      · simpa [hid] using hr
    · exact hr
  | @lookup hash hpc =>
    by_cases hw : watchOf r hash = true
    · exact Or.inr (Or.inl ⟨rfl, hash, hpc, hw⟩)
    · left
      by_cases hc : hash.isCompletion = true
      · have hcompletion : hash.convert.isCompletion = true := hc
        simpa only [watcherReqs_takeEntry_completion hcompletion] using hr
      · have hid : r ≠ hash.convert.reqId := by
          rintro rfl
          exact hw (watchOf_iff.mpr ⟨by simpa using hc, rfl⟩)
        simpa only [watcherReqs_takeEntry_of_ne hid] using hr
  | @proceed hash entry requests dispatcher invocations hpc hreq =>
    left
    obtain ⟨-, rfl⟩ | hreq := hreq
    · exact hr
    · by_cases hid : r = hash.reqId
      · by_cases hsession : hash.isSession = true
        · -- the entry of a session event goes back
          obtain ⟨-, callOpts, -, rfl⟩ := restoreEntry_session_eq_ok hsession hreq
          simp [hid, Requests.watcherReqs_setupWatcher_self]
        · rw [restoreEntry_of_not_session (by simpa using hsession)] at hreq
          obtain rfl := Except.ok.inj hreq
          exact hr
      · simpa only [(restoreEntry_frame hreq).2.2 r hid] using hr
  | reopen => exact Or.inr (Or.inr (Or.inl rfl))
  | reopenRaises => exact Or.inr (Or.inr (Or.inr rfl))
  | _ => exact Or.inl hr

/-- A call is exposed from its registration on, until it has been submitted. -/
theorem exposed_next {a : ClientAct} (hen : Enabled setup s a) (hreopen : a ≠ .reopen) {i : ℕ}
    {r : ℤ} (he : ((s.next setup a).calls i).exposed (s.next setup a).czk = some r) :
    (s.calls i).exposed s.czk = some r ∨
      ∃ m opts, a = .setupCall i m opts ∧ r = s.requests.currentReqId ∧ opts.watcher.isSome := by
  have hkeep {j : ℕ} {pc : CallPc} (hpc : ∀ k, pc.exposed s.czk = some k →
      (s.calls j).exposed s.czk = some k)
      (he : ((s.callTo j pc).calls i).exposed s.czk = some r) :
      (s.calls i).exposed s.czk = some r := by
    by_cases hij : i = j
    · subst hij
      exact hpc r (by simpa [callTo] using he)
    · simpa [callTo, hij] using he
  have heff := effect_next hen
  generalize s.next setup a = s' at heff he
  cases heff with
  | @setupCall j m opts =>
    by_cases hij : i = j
    · subst hij
      obtain ⟨hw, rfl⟩ : opts.watcher.isSome ∧ s.requests.currentReqId = r := by
        simpa [callTo, CallPc.exposed] using he
      exact Or.inr ⟨m, opts, rfl, rfl, hw⟩
    · exact Or.inl (by simpa [callTo, hij] using he)
  | locate hpc => exact Or.inl (hkeep (by simp [hpc, CallPc.exposed]) he)
  | submit => exact Or.inl (hkeep (by simp [CallPc.exposed]) he)
  | refuse => exact Or.inl (hkeep (by simp [CallPc.exposed]) he)
  | reopen => exact absurd rfl hreopen
  | _ => exact Or.inl he

/-- The handlers of the current handle, and of the watches that are about to be installed. -/
structure Handled (s : Client) : Prop where
  exposed : ∀ {i r}, (s.calls i).exposed s.czk = some r → s.requests.watcherReqs r ≠ none
  handler : ∀ {r}, s.home r = some s.czk → s.takenUp r = false →
    s.requests.watcherReqs r ≠ none ∨ s.Restoring r

theorem handled_initial : Handled (initial setup) where
  exposed h := by simp [initial, CallPc.exposed] at h
  handler h := by simp [initial] at h

/-- A call that has not installed its watch has no events. -/
theorem not_received_of_exposed (hids : Ids s) (hord : Ordered s) {i : ℕ} {r : ℤ} {czk : ℕ}
    (he : (s.calls i).exposed czk = some r) {hash : RawHash}
    (hpc : s.dispatcher = .received hash) : watchOf r hash = false := by
  obtain ⟨m, opts, hreq⟩ := CallPc.request_of_exposed he
  have hglobal : r ≠ ZKRB_GLOBAL_CB_REQ := hids.ne_global (hids.request hreq)
  have hmem : hash ∈ s.toDispatch := by simp [toDispatch_of_received hpc]
  by_contra hw
  exact hord.inRuby hmem (by simpa using hw) hglobal (hord.fresh hreq)

theorem exposed_handled_next (hids : Ids s) (halloc : Allocated s) (hord : Ordered s)
    (hs : Handled s) {a : ClientAct} (hen : Enabled setup s a) (hok : Settled s a) {i : ℕ} {r : ℤ}
    (he : ((s.next setup a).calls i).exposed (s.next setup a).czk = some r) :
    (s.next setup a).requests.watcherReqs r ≠ none := by
  by_cases hreopen : a = .reopen
  · -- a call can only be exposed to the new handle through its registration
    subst hreopen
    change (s.calls i).exposed s.nextCzk = some r at he
    cases hpc : s.calls i with
    | idle | returned => simp [hpc, CallPc.exposed] at he
    | registered r' m opts => simp [hpc, CallPc.exposed, hok i r' m opts hpc] at he
    | located r' m opts h =>
      obtain ⟨⟨-, rfl⟩, -⟩ : (opts.watcher.isSome ∧ h = s.nextCzk) ∧ r' = r := by
        simpa [hpc, CallPc.exposed] using he
      exact absurd (halloc.refs.call hpc) (Nat.lt_irrefl _)
  · obtain hbefore | ⟨m, opts, rfl, rfl, hw⟩ := exposed_next hen hreopen he
    · rcases watcherReqs_next hen (hs.exposed hbefore) with
        hkeep | ⟨rfl, hash, hpc, hw⟩ | rfl | rfl
      · exact hkeep
      · simp [not_received_of_exposed hids hord hbefore hpc] at hw
      · exact absurd rfl hreopen
      · simp [hok.1 i] at hbefore
    · simp [next, Requests.watcherReqs_setupCall, hw]

theorem watcherReqs_proceed {r : ℤ} (h : s.Restoring r) :
    (s.next setup .proceed).requests.watcherReqs r ≠ none := by
  obtain ⟨hash, e, hpc, hw, hsession⟩ := h
  obtain ⟨hc, rfl⟩ := watchOf_iff.mp hw
  simp only [next, hpc, dispatchTaken, restoreEntry_session hsession hc]
  split
  · simp [Requests.watcherReqs_setupWatcher_self]
  · split <;> simp [Requests.watcherReqs_setupWatcher_self]

/-- The dispatch thread puts an entry back with its next step. -/
theorem restoring_next {a : ClientAct} (hen : Enabled setup s a) {r : ℤ} (h : s.Restoring r) :
    a = .proceed ∨ (s.next setup a).Restoring r := by
  obtain ⟨hash, e, hpc, hrest⟩ := h
  have heff := effect_next hen
  generalize s.next setup a = s' at heff ⊢
  cases heff with
  | proceed => exact Or.inl rfl
  | pop hpc' | preludeRaises hpc' | lookup hpc' | callbackEnds hpc' => simp [hpc] at hpc'
  | _ => exact Or.inr ⟨hash, e, hpc, hrest⟩

/-- The lookup of a session event takes the entry of the watcher out for a moment only. -/
theorem restoring_lookup {r : ℤ} {hash : RawHash} (hpc : s.dispatcher = .received hash)
    (hw : watchOf r hash = true) (hsession : hash.isSession = true)
    (hr : s.requests.watcherReqs r ≠ none) : (s.next setup .lookup).Restoring r := by
  obtain ⟨hc, rfl⟩ := watchOf_iff.mp hw
  obtain ⟨e, he⟩ := Option.ne_none_iff_exists'.mp hr
  refine ⟨hash.convert, e, ?_, hw, hsession⟩
  simp only [next, hpc, takeEntry_watch (show hash.convert.isCompletion = false from hc),
    Requests.getWatcher, reqId_convert, he]

theorem handler_next (hord : Ordered s) (hs : Handled s) {a : ClientAct}
    (hen : Enabled setup s a) (hok : Settled s a) {r : ℤ}
    (hhome : (s.next setup a).home r = some (s.next setup a).czk)
    (htaken : (s.next setup a).takenUp r = false) :
    (s.next setup a).requests.watcherReqs r ≠ none ∨ (s.next setup a).Restoring r := by
  obtain ⟨hczk, -, hreopen⟩ | ⟨rfl, -, -⟩ := czk_next hen
  · rw [hczk] at hhome
    obtain hsame | ⟨i, watched, m, opts, h, rfl, hpc, hw, hh⟩ := home_next hen r
    · rw [hsame] at hhome
      have htaken' : s.takenUp r = false := by
        obtain ⟨heq, -⟩ | ⟨hash, -, heq, -⟩ := takenUp_next hen
        · rwa [heq] at htaken
        · rw [heq, takeUp_apply] at htaken
          split at htaken
          · cases htaken
          · exact htaken
      obtain hr | hrestoring := hs.handler hhome htaken'
      · obtain hkeep | ⟨rfl, hash, hpc, hw⟩ | rfl | rfl := watcherReqs_next hen hr
        · exact Or.inl hkeep
        · -- the lookup takes the entry out; for a session event it will be put back
          right
          refine restoring_lookup hpc hw ?_ hr
          by_contra hsession
          obtain ⟨-, hne, -⟩ | ⟨hash', hpc', heq, -⟩ := takenUp_next hen
          · exact hne rfl
          · obtain rfl : hash = hash' := by simpa [hpc] using hpc'
            simp [heq, takeUp_apply, hw, hsession] at htaken
        · exact absurd rfl hreopen
        · simp [hok.2 r hhome] at htaken'
      · obtain rfl | hkeep := restoring_next hen hrestoring
        · exact Or.inl (watcherReqs_proceed hrestoring)
        · exact Or.inr hkeep
    · -- the watch has just been installed
      obtain rfl : h = s.czk := Option.some.inj (hh.symm.trans hhome)
      have hexposed : (s.calls i).exposed s.czk = some r := by
        simp [hpc, CallPc.exposed, hw]
      obtain hkeep | ⟨hne, -⟩ | hne | hne := watcherReqs_next hen (hs.exposed hexposed)
      · exact Or.inl hkeep
      · cases hne
      · cases hne
      · cases hne
  · exact absurd (hord.below hhome) (Nat.lt_irrefl _)

/-- **Every live watch has its handler, and every event of the current handle finds it**, in all
runs in which `reopen` never comes between the registration of a watched call and its `czk`, and
a `reopen` that raises finds the current handle without watches. -/
theorem hasHandler_of_settled (h : (client setup).Reachable Settled s) :
    s.HasHandler ∧ s.Answerable := by
  have hs : Handled s := by
    refine h.invariant_under (I := Handled) (J := fun s => Ids s ∧ Allocated s ∧ Ordered s)
      (fun _ hr => ⟨ids_of_reachable hr, allocated_of_reachable hr, ordered_of_reachable hr⟩) ?_
      fun _ _ ⟨hids, halloc, hord⟩ hs hen hok =>
        ⟨exposed_handled_next hids halloc hord hs hen hok,
          handler_next hord hs hen hok⟩
    rintro _ rfl
    exact handled_initial
  have hgenuine := genuine_of_reachable h
  have hids := ids_of_reachable h
  have hord := ordered_of_reachable h
  -- an entry under a request's id has the watcher of the request
  have hentry {r : ℤ} {m : Meth} {opts : ReqHash} {w : Handler} {e : ReqHash}
      (hx : s.issued r = some (m, opts)) (hw : opts.watcher = some w)
      (he : WatchEntry setup s r e) : e.watcher = some w := by
    obtain ⟨rfl, -⟩ | ⟨m', opts', w', hx', hw', hwatcher⟩ := he
    · exact absurd (hids.issued hx).1 (by decide)
    · obtain ⟨rfl, rfl⟩ : m = m' ∧ opts = opts' := by simpa [hx] using hx'
      rw [hwatcher, ← hw', hw]
  constructor
  · intro r m opts w hhome htaken hx hw
    obtain hr | ⟨hash, e, hpc, hwatch, hsession⟩ := hs.handler hhome htaken
    · obtain ⟨e, he⟩ := Option.ne_none_iff_exists'.mp hr
      exact Or.inl ⟨e, he, hentry hx hw (hgenuine.watcher he)⟩
    · obtain ⟨hc, rfl⟩ := watchOf_iff.mp hwatch
      have he : EntryFor setup s hash e := hgenuine.taken hpc
      simp only [EntryFor, hc, Bool.false_eq_true, if_false] at he
      exact Or.inr ⟨hash, e, hpc, hentry hx hw he, hwatch, hsession⟩
  · intro raw hpc hc hhome
    have hmem : raw ∈ s.line s.czk :=
      List.mem_append_left _ (by simp [toDispatch_of_received hpc])
    have htaken := hord.not_takenUp hhome hmem (watchOf_iff.mpr ⟨hc, rfl⟩)
    obtain hr | ⟨hash, e, hpc', -⟩ := hs.handler hhome htaken
    · exact hr
    · simp [hpc] at hpc'

/-- A watched call and the session event that its watch reports, up to the lookup. -/
theorem hasHandler_before_reopen :
    ((client ⟨false, [104], .user ⟨1, true⟩⟩).exec (initial ⟨false, [104], .user ⟨1, true⟩⟩)
        [.setupCall 0 .getChildren watchedChildren, .locate 0, .submit 0 true,
          .fire 0 ⟨0, ZOK, .watcher ZOO_SESSION_EVENT 1 (some [])⟩, .eventThread 0 .start,
          .eventThread 0 .dequeue, .push 0, .pop, .lookup]).HasHandler ∧
      ((client ⟨false, [104], .user ⟨1, true⟩⟩).exec (initial ⟨false, [104], .user ⟨1, true⟩⟩)
        [.setupCall 0 .getChildren watchedChildren, .locate 0, .submit 0 true,
          .fire 0 ⟨0, ZOK, .watcher ZOO_SESSION_EVENT 1 (some [])⟩, .eventThread 0 .start,
          .eventThread 0 .dequeue, .push 0, .pop, .lookup]).Answerable :=
  hasHandler_of_settled (System.Valid.reachable_exec rfl (by
    simp [System.Valid, Settled, client, Enabled, next, initial, callTo, accept, isAsync, step,
      mark, watchedChildren, Transport.initial, Transport.Enabled, Transport.Internal,
      Transport.next, Transport.zkrbDequeue, Completion.isWatcher, Requests.initial,
      Requests.flush, dispatchPrelude]))

end Client

end ZookeeperClient
