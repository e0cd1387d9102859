import ZookeeperClient.Client.Defs

/-!
# What the steps of a client do

Facts that all results about clients share: how a step changes the lists of events on
their way, what the part of `dispatch_next_callback` after the lookup may do, and that
request ids are never given out twice.

## Main results

- `effect_next` — everything a step can do
- `setupCall_or_frame` — only `setup_call` touches the counter and the issued ids
- `ids_of_reachable` — the ids of different calls differ and are never the global id
- `flow_next` — what a step can do to the events on their way
- `mem_undelivered_of_next`, `mem_toDispatch_of_next` — where an event comes from
- `allocated_of_reachable` — nothing refers to a handle that does not exist
- `fromC_of_reachable` — every hash on its way to a lookup came from the C client
- `next_lookup_proceed` — the two steps of a dispatch are `dispatchNextCallback`
-/

namespace ZookeeperClient

open Transition

/-- The method and options that a call still has to submit, with its id. -/
def CallPc.request : CallPc → Option (ℤ × Meth × ReqHash)
  | .registered r m opts | .located r m opts _ => some (r, m, opts)
  | _ => none

theorem CallPc.reqId_of_request {pc : CallPc} {r : ℤ} {m : Meth} {opts : ReqHash}
    (h : pc.request = some (r, m, opts)) : pc.reqId = some r := by
  cases pc <;> simp_all [request, reqId]

namespace Client

variable {setup : Setup} {s : Client}

/-! ## Tables and transports -/

theorem mark_apply (table : ℕ → ℤ → Bool) (h h' : ℕ) (r r' : ℤ) (b : Bool) :
    mark table h r b h' r' = if h' = h ∧ r' = r then b else table h' r' := by
  by_cases hh : h' = h
  · subst hh
    by_cases hr : r' = r <;> simp [mark, hr]
  · simp [mark, hh]

theorem transports_step (h h' : ℕ) (act : TransportAct ZkrbEvent) :
    (s.step h act).transports h' =
      if h' = h then (s.transports h).next act else s.transports h' := by
  by_cases hh : h' = h
  · subst hh
    simp [step]
  · simp [step, hh]

/-- A step that leaves the events of its handle in order leaves those of all handles so. -/
theorem undelivered_step {h : ℕ} {act : TransportAct ZkrbEvent}
    (hsame : ((s.transports h).next act).undelivered = (s.transports h).undelivered) (h' : ℕ) :
    ((s.step h act).transports h').undelivered = (s.transports h').undelivered := by
  rw [transports_step]
  split
  · next heq => rw [hsame, heq]
  · rfl

theorem undelivered_step_enqueue (h h' : ℕ) (event : ZkrbEvent) :
    ((s.step h (.enqueue event)).transports h').undelivered =
      if h' = h then (s.transports h).undelivered ++ [event]
      else (s.transports h').undelivered := by
  rw [transports_step]
  split
  · exact Transport.undelivered_enqueue event
  · rfl

/-! ## Hashes on their way -/

theorem toDispatch_of_received {hash : RawHash} (h : s.dispatcher = .received hash) :
    s.toDispatch = hash :: s.eventQueue := by
  simp [toDispatch, h]

theorem toDispatch_of_not_received (h : ∀ hash, s.dispatcher ≠ .received hash) :
    s.toDispatch = s.eventQueue := by
  unfold toDispatch
  split
  · next hash hpc => exact absurd hpc (h hash)
  · rfl

theorem toDispatch_append (hash : RawHash) :
    { s with eventQueue := s.eventQueue ++ [hash] }.toDispatch = s.toDispatch ++ [hash] := by
  cases h : s.dispatcher <;> simp [toDispatch, h]

/-! ## The second half of a dispatch -/

/-- What `dispatchTaken` can do: it may put the entry of a session event back, and it may call
one user object. -/
theorem dispatchTaken_cases (host : Bytes) (hash : CallbackHash) (entry : Option ReqHash)
    (s : Client) :
    ∃ requests dispatcher invocations,
      s.dispatchTaken host hash entry =
          { s with
            requests := requests
            dispatcher := dispatcher
            invocations := s.invocations ++ invocations } ∧
        ((∃ e, restoreEntry hash entry s.requests = .error e) ∧ requests = s.requests ∨
          restoreEntry hash entry s.requests = .ok requests) ∧
        (dispatcher = .waiting ∨ dispatcher = .running) ∧
        (invocations = [] ∨ ∃ cb arg inv, callbackOf hash entry = some (cb, arg) ∧
          cb.call host arg = .ok inv ∧ invocations = [inv]) := by
  unfold dispatchTaken
  cases hr : restoreEntry hash entry s.requests with
  | error e =>
    exact ⟨s.requests, .waiting, [], by simp, Or.inl ⟨⟨e, rfl⟩, rfl⟩, Or.inl rfl, Or.inl rfl⟩
  | ok requests =>
    cases hc : callbackOf hash entry with
    | none => exact ⟨requests, .waiting, [], by simp, Or.inr rfl, Or.inl rfl, Or.inl rfl⟩
    | some called =>
      obtain ⟨cb, arg⟩ := called
      cases hi : cb.call host arg with
      | error e =>
        exact ⟨requests, .waiting, [], by simp [hi], Or.inr rfl, Or.inl rfl, Or.inl rfl⟩
      | ok inv =>
        exact ⟨requests, .running, [inv], by simp [hi], Or.inr rfl, Or.inr rfl,
          Or.inr ⟨cb, arg, inv, rfl, hi, rfl⟩⟩

/-- The second half of a dispatch never touches the completions or the counter. -/
theorem dispatchTaken_requests (host : Bytes) (hash : CallbackHash) (entry : Option ReqHash)
    (s : Client) :
    (s.dispatchTaken host hash entry).requests.currentReqId = s.requests.currentReqId ∧
      (s.dispatchTaken host hash entry).requests.completionReqs = s.requests.completionReqs := by
  obtain ⟨requests, dispatcher, invocations, heq, hreq, -, -⟩ :=
    dispatchTaken_cases host hash entry s
  rw [heq]
  obtain ⟨-, rfl⟩ | hreq := hreq
  · exact ⟨rfl, rfl⟩
  · exact ⟨(restoreEntry_frame hreq).1, (restoreEntry_frame hreq).2.1⟩

/-- The two steps of a dispatch change the tables as `dispatch_next_callback` does. -/
theorem next_lookup_proceed {raw : RawHash} (h : s.dispatcher = .received raw)
    {hash : CallbackHash} (hp : dispatchPrelude setup.debug raw = .ok hash) :
    ((s.next setup .lookup).next setup .proceed).requests =
      (dispatchNextCallback setup.debug (some raw) s.requests).requests := by
  obtain rfl := dispatchPrelude_eq_ok hp
  simp only [next, h]
  unfold dispatchTaken
  cases hr : restoreEntry raw.convert (takeEntry raw.convert s.requests).1
      (takeEntry raw.convert s.requests).2 with
  | error e => rw [dispatchNextCallback_of_restore_error hp hr]
  | ok requests =>
    rw [dispatchNextCallback_of_ok hp hr]
    cases hc : callbackOf raw.convert (takeEntry raw.convert s.requests).1 with
    | none => rfl
    | some called =>
      obtain ⟨cb, arg⟩ := called
      cases hi : cb.call setup.host arg <;> simp [hi]

/-! ## The effect of each step -/

/-- What a step does, with the facts that let it be taken. -/
inductive Effect (setup : Setup) (s : Client) : ClientAct → Client → Prop where
  | setupCall {i m opts} (hidle : s.calls i = .idle) (hfree : s.reopening = .free) :
      Effect setup s (.setupCall i m opts)
        { s.callTo i (.registered s.requests.currentReqId m opts) with
          requests := s.requests.setupCall m opts
          issued := Function.update s.issued s.requests.currentReqId (some (m, opts)) }
  | locate {i r m opts} (hpc : s.calls i = .registered r m opts) (hfree : s.reopening = .free) :
      Effect setup s (.locate i) (s.callTo i (.located r m opts s.czk))
  | submit {i watched r m opts h} (hpc : s.calls i = .located r m opts h)
      (hopen : (s.transports h).closed = false) :
      Effect setup s (.submit i watched)
        ((s.callTo i (.returned r)).accept h r (isAsync m opts) (opts.watcher.isSome && watched))
  | refuse {i r m opts h} (hpc : s.calls i = .located r m opts h) :
      Effect setup s (.refuse i) (s.callTo i (.returned r))
  | complete {h event} (hout : s.outstanding h event.reqId = true)
      (hw : event.completion.isWatcher = false)
      (hopen : (s.transports h).Enabled (.enqueue event)) :
      Effect setup s (.complete h event)
        { s.step h (.enqueue event) with
          outstanding := mark s.outstanding h event.reqId false
          completed := Function.update s.completed event.reqId true }
  | fire {h event} (hwatch : s.watches h event.reqId = true)
      (hw : event.completion.isWatcher = true)
      (hopen : (s.transports h).Enabled (.enqueue event)) :
      Effect setup s (.fire h event)
        { s.step h (.enqueue event) with
          watches :=
            if (zkrbEventToRuby event).isSession then s.watches
            else mark s.watches h event.reqId false }
  | sessionEvent {h event} (hlt : h < s.nextCzk) (hid : event.reqId = ZKRB_GLOBAL_CB_REQ)
      (hw : event.completion.isWatcher = true)
      (hopen : (s.transports h).Enabled (.enqueue event)) :
      Effect setup s (.sessionEvent h event) (s.step h (.enqueue event))
  | eventThread {h act} (hlt : h < s.nextCzk) (hact : Transport.Internal act)
      (hopen : (s.transports h).Enabled act) :
      Effect setup s (.eventThread h act) (s.step h act)
  | push {h event} (hpc : (s.transports h).eventThread = .delivering event) :
      Effect setup s (.push h)
        { s.step h .push with eventQueue := s.eventQueue ++ [zkrbEventToRuby event] }
  | pop {hash rest} (hpc : s.dispatcher = .waiting) (hq : s.eventQueue = hash :: rest) :
      Effect setup s .pop { s with eventQueue := rest, dispatcher := .received hash }
  | preludeRaises {hash e} (hpc : s.dispatcher = .received hash)
      (he : dispatchPrelude setup.debug hash = .error e) :
      Effect setup s .preludeRaises { s with dispatcher := .waiting, takenUp := s.takeUp hash }
  | lookup {hash} (hpc : s.dispatcher = .received hash)
      (hp : dispatchPrelude setup.debug hash = .ok hash.convert) (hfree : s.reopening = .free) :
      Effect setup s .lookup
        { s with
          requests := (takeEntry hash.convert s.requests).2
          dispatcher := .taken hash.convert (takeEntry hash.convert s.requests).1
          takenUp := s.takeUp hash }
  | proceed {hash entry requests dispatcher invocations}
      (hpc : s.dispatcher = .taken hash entry)
      (hreq : (∃ e, restoreEntry hash entry s.requests = .error e) ∧ requests = s.requests ∨
        restoreEntry hash entry s.requests = .ok requests)
      (hdisp : dispatcher = .waiting ∨ dispatcher = .running)
      (hinv : invocations = [] ∨ ∃ cb arg inv, callbackOf hash entry = some (cb, arg) ∧
        cb.call setup.host arg = .ok inv ∧ invocations = [inv]) :
      Effect setup s .proceed
        { s with
          requests := requests
          dispatcher := dispatcher
          invocations := s.invocations ++ invocations }
  | callbackEnds (hpc : s.dispatcher = .running) :
      Effect setup s .callbackEnds { s with dispatcher := .waiting }
  | reopen (hfree : s.reopening = .free) :
      Effect setup s .reopen
        { s with
          requests := s.requests.flush setup.defaultWatcher
          czk := s.nextCzk
          nextCzk := s.nextCzk + 1
          transports := Function.update s.transports s.nextCzk Transport.initial
          outstanding := Function.update s.outstanding s.nextCzk fun _ => false
          watches := Function.update s.watches s.nextCzk fun _ => false
          reopening := .replaced s.czk }
  | reopenRaises (hfree : s.reopening = .free) :
      Effect setup s .reopenRaises
        { s with requests := s.requests.flush setup.defaultWatcher }
  | shutDown {orig} (hpc : s.reopening = .replaced orig) :
      Effect setup s .shutDown { s.step orig .shutDown with reopening := .joining orig }
  | zookeeperClose {orig} (hpc : s.reopening = .joining orig)
      (hopen : (s.transports orig).Enabled .close) :
      Effect setup s .zookeeperClose { s.step orig .close with reopening := .destroying orig }
  | queueFree {orig} (hpc : s.reopening = .destroying orig)
      (hopen : (s.transports orig).Enabled .free) :
      Effect setup s .queueFree { s.step orig .free with reopening := .connecting }
  | reopened (hpc : s.reopening = .connecting) :
      Effect setup s .reopened { s with reopening := .free }

/-- Everything a step can do. -/
theorem effect_next {a : ClientAct} (hen : Enabled setup s a) :
    Effect setup s a (s.next setup a) := by
  cases a with
  | setupCall i m opts => exact .setupCall hen.1 hen.2
  | locate i =>
    obtain ⟨⟨r, m, opts, hpc⟩, hfree⟩ := hen
    simpa only [next, hpc] using Effect.locate hpc hfree
  | submit i watched =>
    obtain ⟨r, m, opts, h, hpc, hopen⟩ := hen
    simpa only [next, hpc] using Effect.submit hpc hopen
  | refuse i =>
    obtain ⟨r, m, opts, h, hpc⟩ := hen
    simpa only [next, hpc] using Effect.refuse hpc
  | complete h event => exact .complete hen.1 hen.2.1 hen.2.2
  | fire h event => exact .fire hen.1 hen.2.1 hen.2.2
  | sessionEvent h event => exact .sessionEvent hen.1 hen.2.1 hen.2.2.1 hen.2.2.2
  | eventThread h act => exact .eventThread hen.1 hen.2.1 hen.2.2
  | push h =>
    obtain ⟨event, hpc⟩ := hen
    simpa only [next, hpc] using Effect.push hpc
  | pop =>
    cases hq : s.eventQueue with
    | nil => exact absurd hq hen.2
    | cons hash rest => simpa only [next, hq] using Effect.pop hen.1 hq
  | preludeRaises =>
    obtain ⟨hash, e, hpc, he⟩ := hen
    simpa only [next, hpc] using Effect.preludeRaises hpc he
  | lookup =>
    obtain ⟨⟨hash, hash', hpc, hp⟩, hfree⟩ := hen
    obtain rfl := dispatchPrelude_eq_ok hp
    simpa only [next, hpc] using Effect.lookup hpc hp hfree
  | proceed =>
    obtain ⟨hash, entry, hpc⟩ := hen
    obtain ⟨requests, dispatcher, invocations, heq, hreq, hdisp, hinv⟩ :=
      dispatchTaken_cases setup.host hash entry s
    simpa only [next, hpc, heq] using Effect.proceed hpc hreq hdisp hinv
  | callbackEnds => exact .callbackEnds hen
  | reopen => exact .reopen hen
  | reopenRaises => exact .reopenRaises hen
  | shutDown =>
    obtain ⟨orig, hpc⟩ := hen
    simpa only [next, hpc] using Effect.shutDown hpc
  | zookeeperClose =>
    obtain ⟨orig, hpc, hopen⟩ := hen
    simpa only [next, hpc] using Effect.zookeeperClose hpc hopen
  | queueFree =>
    obtain ⟨orig, hpc, hopen⟩ := hen
    simpa only [next, hpc] using Effect.queueFree hpc hopen
  | reopened => exact .reopened hen

/-! ## Request ids -/

/-- What every step but `setup_call` leaves alone. -/
structure Frame (s s' : Client) : Prop where
  currentReqId : s'.requests.currentReqId = s.requests.currentReqId
  issued : s'.issued = s.issued
  reqId : ∀ i, (s'.calls i).reqId = (s.calls i).reqId
  request : ∀ i x, (s'.calls i).request = some x → (s.calls i).request = some x

theorem Frame.of_calls_eq {s' : Client} (hid : s'.requests.currentReqId = s.requests.currentReqId)
    (hissued : s'.issued = s.issued) (hcalls : s'.calls = s.calls) : Frame s s' :=
  ⟨hid, hissued, fun _ => by rw [hcalls], fun _ _ h => by rwa [hcalls] at h⟩

/-- A call that goes on keeps its id, and takes up no new request. -/
theorem Frame.of_callTo {s' : Client} (i : ℕ) (pc : CallPc)
    (hid : s'.requests.currentReqId = s.requests.currentReqId)
    (hissued : s'.issued = s.issued) (hcalls : s'.calls = Function.update s.calls i pc)
    (hpc : pc.reqId = (s.calls i).reqId)
    (hreq : ∀ x, pc.request = some x → (s.calls i).request = some x) : Frame s s' := by
  refine ⟨hid, hissued, fun j => ?_, fun j x hx => ?_⟩
  · by_cases hj : j = i
    · subst hj
      simp [hcalls, hpc]
    · simp [hcalls, hj]
  · by_cases hj : j = i
    · subst hj
      exact hreq x (by simpa [hcalls] using hx)
    · simpa [hcalls, hj] using hx

theorem Frame.ne_setupCall {a : ClientAct} (hframe : Frame s (s.next setup a)) (i : ℕ)
    (m : Meth) (opts : ReqHash) : a ≠ .setupCall i m opts := by
  rintro rfl
  have hsame := hframe.currentReqId
  simp only [next, Requests.currentReqId_setupCall] at hsame
  omega

/-- Only `setup_call` touches the counter, the issued ids and the ids of the calls. -/
theorem setupCall_or_frame {a : ClientAct} (hen : Enabled setup s a) :
    (∃ i m opts, a = .setupCall i m opts) ∨ Frame s (s.next setup a) := by
  have heff := effect_next hen
  generalize s.next setup a = s' at heff ⊢
  cases heff with
  | @setupCall i m opts => exact Or.inl ⟨i, m, opts, rfl⟩
  | @locate i r m opts hpc =>
    right
    exact .of_callTo i _ rfl rfl rfl (by simp [hpc, CallPc.reqId]) (by simp [hpc, CallPc.request])
  | @submit i watched r m opts h hpc =>
    right
    exact .of_callTo i (.returned r) rfl rfl rfl (by simp [hpc, CallPc.reqId])
      (by simp [CallPc.request])
  | @refuse i r m opts h hpc =>
    right
    exact .of_callTo i _ rfl rfl rfl (by simp [hpc, CallPc.reqId]) (by simp [CallPc.request])
  | lookup => exact Or.inr (.of_calls_eq (currentReqId_takeEntry _ _) rfl rfl)
  | proceed _ hreq =>
    refine Or.inr (.of_calls_eq ?_ rfl rfl)
    obtain ⟨-, rfl⟩ | hreq := hreq
    · rfl
    · exact (restoreEntry_frame hreq).1
  | _ => exact Or.inr (.of_calls_eq rfl rfl rfl)

/-- Ids are issued in order, and each belongs to one call. -/
structure Ids (s : Client) : Prop where
  nonneg : 0 ≤ s.requests.currentReqId
  issued : ∀ {r x}, s.issued r = some x → 0 ≤ r ∧ r < s.requests.currentReqId
  calls : ∀ {i r}, (s.calls i).reqId = some r → ∃ x, s.issued r = some x
  unique : ∀ {i j r}, (s.calls i).reqId = some r → (s.calls j).reqId = some r → i = j
  request : ∀ {i r m opts}, (s.calls i).request = some (r, m, opts) → s.issued r = some (m, opts)

theorem ids_initial : Ids (initial setup) := by
  constructor <;> simp [initial, Requests.initial, Requests.flush, CallPc.reqId, CallPc.request]

theorem Ids.not_issued (h : Ids s) : s.issued s.requests.currentReqId = none := by
  cases hx : s.issued s.requests.currentReqId with
  | none => rfl
  | some x => exact absurd (h.issued hx).2 (Int.lt_irrefl _)

theorem Ids.ne_current_of_issued (h : Ids s) {r : ℤ} {x : Meth × ReqHash}
    (hx : s.issued r = some x) : r ≠ s.requests.currentReqId := by
  rintro rfl
  simp [h.not_issued] at hx

/-- A call with an id keeps it when a new id is issued. -/
theorem Ids.ne_current (h : Ids s) {i : ℕ} {r : ℤ} (hr : (s.calls i).reqId = some r) :
    r ≠ s.requests.currentReqId := by
  obtain ⟨x, hx⟩ := h.calls hr
  exact h.ne_current_of_issued hx

theorem Ids.ne_global (h : Ids s) {r : ℤ} {x : Meth × ReqHash} (hx : s.issued r = some x) :
    r ≠ ZKRB_GLOBAL_CB_REQ := by
  have hnonneg := (h.issued hx).1
  rw [ZKRB_GLOBAL_CB_REQ]
  omega

theorem issued_next (hids : Ids s) {a : ClientAct} (hen : Enabled setup s a) {r : ℤ}
    {x : Meth × ReqHash} (hx : s.issued r = some x) : (s.next setup a).issued r = some x := by
  obtain ⟨i, m, opts, rfl⟩ | hframe := setupCall_or_frame hen
  · simp [next, hids.ne_current_of_issued hx, hx]
  · rw [hframe.issued, hx]

theorem ids_next (hs : Ids s) {a : ClientAct} (hen : Enabled setup s a) :
    Ids (s.next setup a) := by
  obtain ⟨i, m, opts, rfl⟩ | hframe := setupCall_or_frame hen
  · set r := s.requests.currentReqId with hr
    have hcalls (j : ℕ) : ((s.next setup (.setupCall i m opts)).calls j) =
        if j = i then .registered r m opts else s.calls j := by
      simp [next, callTo, Function.update_apply, hr]
    have hissued (k : ℤ) : (s.next setup (.setupCall i m opts)).issued k =
        if k = r then some (m, opts) else s.issued k := by
      simp [next, Function.update_apply, hr]
    have hcur : (s.next setup (.setupCall i m opts)).requests.currentReqId = r + 1 := by
      simp [next, hr]
    -- all older ids are below the counter, so the new one is theirs alone
    have hnonneg := hs.nonneg
    refine ⟨by omega, fun {k x} hk => ?_, fun {j k} hj => ?_, fun {j j' k} hj hj' => ?_,
      fun {j k m' opts'} hj => ?_⟩
    · rw [hissued] at hk
      split at hk
      · omega
      · have := hs.issued hk
        omega
    · rw [hcalls] at hj
      split at hj
      · obtain rfl : r = k := by simpa [CallPc.reqId] using hj
        exact ⟨(m, opts), by simp [hissued]⟩
      · obtain ⟨x, hx⟩ := hs.calls hj
        exact ⟨x, by rw [hissued, if_neg (hs.ne_current hj), hx]⟩
    · rw [hcalls] at hj hj'
      by_cases h₁ : j = i <;> by_cases h₂ : j' = i
      · rw [h₁, h₂]
      · obtain rfl : r = k := by simpa [h₁, CallPc.reqId] using hj
        exact absurd rfl (hs.ne_current (by simpa [h₂] using hj'))
      · obtain rfl : r = k := by simpa [h₂, CallPc.reqId] using hj'
        exact absurd rfl (hs.ne_current (by simpa [h₁] using hj))
      · exact hs.unique (by simpa [h₁] using hj) (by simpa [h₂] using hj')
    · rw [hcalls] at hj
      split at hj
      · obtain ⟨rfl, rfl, rfl⟩ : r = k ∧ m = m' ∧ opts = opts' := by
          simpa [CallPc.request] using hj
        simp [hissued]
      · rw [hissued, if_neg (hs.ne_current (CallPc.reqId_of_request hj)), hs.request hj]
  · refine ⟨?_, ?_, ?_, ?_, ?_⟩
    · rw [hframe.currentReqId]
      exact hs.nonneg
    · rw [hframe.issued, hframe.currentReqId]
      exact hs.issued
    · rw [hframe.issued]
      exact fun h => hs.calls (by rwa [hframe.reqId] at h)
    · exact fun h h' => hs.unique (by rwa [hframe.reqId] at h) (by rwa [hframe.reqId] at h')
    · rw [hframe.issued]
      exact fun h => hs.request (hframe.request _ _ h)

theorem ids_of_reachable {ok : Client → ClientAct → Prop}
    (h : (client setup).Reachable ok s) : Ids s := by
  refine h.invariant ?_ fun _ _ hi hen _ => ids_next hi hen
  rintro _ rfl
  exact ids_initial

/-! ## Events on their way -/

/-- What a step can do to the events on their way to a lookup. -/
inductive Flow (s s' : Client) : ClientAct → Prop where
  /-- Nothing comes, goes or changes its place in the order. -/
  | still {a : ClientAct} (ha : a ≠ .lookup ∧ a ≠ .preludeRaises)
      (hd : s'.toDispatch = s.toDispatch)
      (hu : ∀ h, (s'.transports h).undelivered = (s.transports h).undelivered) : Flow s s' a
  /-- The C client reports an event. -/
  | reported {a : ClientAct} (h : ℕ) (event : ZkrbEvent)
      (ha : a = .complete h event ∨ a = .fire h event ∨ a = .sessionEvent h event)
      (hd : s'.toDispatch = s.toDispatch)
      (hu : ∀ h', (s'.transports h').undelivered =
        if h' = h then (s.transports h).undelivered ++ [event]
        else (s.transports h').undelivered) : Flow s s' a
  /-- An event thread pushes. -/
  | pushed (h : ℕ) (event : ZkrbEvent)
      (hd : s'.toDispatch = s.toDispatch ++ [zkrbEventToRuby event])
      (hu : (s.transports h).undelivered = event :: (s'.transports h).undelivered)
      (hother : ∀ h', h' ≠ h →
        (s'.transports h').undelivered = (s.transports h').undelivered) : Flow s s' (.push h)
  /-- The dispatch thread looks an entry up, or fails before that. -/
  | takenUp {a : ClientAct} (hash : RawHash) (ha : a = .lookup ∨ a = .preludeRaises)
      (hpc : s.dispatcher = .received hash) (hd : s.toDispatch = hash :: s'.toDispatch)
      (hu : ∀ h, (s'.transports h).undelivered = (s.transports h).undelivered) : Flow s s' a
  /-- The events of one handle are discarded. -/
  | dropped {a : ClientAct} (h : ℕ)
      (ha : a = .queueFree ∧ s.reopening = .destroying h ∨ a = .reopen ∧ h = s.nextCzk)
      (hd : s'.toDispatch = s.toDispatch) (hu : (s'.transports h).undelivered = [])
      (hother : ∀ h', h' ≠ h →
        (s'.transports h').undelivered = (s.transports h').undelivered) : Flow s s' a

theorem flow_next {a : ClientAct} (hen : Enabled setup s a) : Flow s (s.next setup a) a := by
  have heff := effect_next hen
  generalize s.next setup a = s' at heff ⊢
  cases heff with
  | @complete h event =>
    exact .reported h event (Or.inl rfl) rfl fun h' => undelivered_step_enqueue h h' event
  | @fire h event =>
    exact .reported h event (Or.inr (Or.inl rfl)) rfl fun h' =>
      undelivered_step_enqueue h h' event
  | @sessionEvent h event =>
    exact .reported h event (Or.inr (Or.inr rfl)) rfl fun h' =>
      undelivered_step_enqueue h h' event
  | eventThread _ hact hopen =>
    exact .still (by simp) rfl fun h' =>
      undelivered_step (Transport.undelivered_internal hact hopen) h'
  | @push h event hpc =>
    refine .pushed h event (toDispatch_append _) ?_ fun h' hne => ?_
    · rw [transports_step, if_pos rfl]
      exact Transport.undelivered_push hpc
    · rw [transports_step, if_neg hne]
  | pop hpc hq => exact .still (by simp) (by simp [toDispatch, hpc, hq]) fun _ => rfl
  | @preludeRaises hash e hpc =>
    exact .takenUp hash (Or.inr rfl) hpc (toDispatch_of_received hpc) fun _ => rfl
  | @lookup hash hpc =>
    exact .takenUp hash (Or.inl rfl) hpc (toDispatch_of_received hpc) fun _ => rfl
  | proceed hpc _ hdisp =>
    refine .still (by simp) ?_ fun _ => rfl
    rw [toDispatch_of_not_received (s := s) (by simp [hpc]), toDispatch_of_not_received]
    obtain rfl | rfl := hdisp <;> simp
  | callbackEnds hpc => exact .still (by simp) (by simp [toDispatch, hpc]) fun _ => rfl
  | reopen =>
    refine .dropped s.nextCzk (Or.inr ⟨rfl, rfl⟩) rfl (by simp) fun h' hne => ?_
    simp [hne]
  | shutDown =>
    exact .still (by simp) rfl fun h' => undelivered_step Transport.undelivered_shutDown h'
  | zookeeperClose =>
    exact .still (by simp) rfl fun h' => undelivered_step Transport.undelivered_close h'
  | @queueFree orig hpc hopen =>
    refine .dropped orig (Or.inl ⟨rfl, hpc⟩) rfl ?_ fun h' hne => ?_
    · rw [transports_step, if_pos rfl]
      exact Transport.undelivered_free hopen
    · rw [transports_step, if_neg hne]
  | setupCall | locate | submit | refuse | reopenRaises | reopened =>
    exact .still (by simp) rfl fun _ => rfl

/-- Only the C client puts an event into a handle's transport. -/
theorem mem_undelivered_of_next {a : ClientAct} (hen : Enabled setup s a) {h : ℕ}
    {event : ZkrbEvent} (hmem : event ∈ ((s.next setup a).transports h).undelivered) :
    event ∈ (s.transports h).undelivered ∨
      a = .complete h event ∨ a = .fire h event ∨ a = .sessionEvent h event := by
  cases flow_next hen with
  | still _ _ hu => exact Or.inl (hu h ▸ hmem)
  | takenUp _ _ _ _ hu => exact Or.inl (hu h ▸ hmem)
  | reported h' event' ha _ hu =>
    rw [hu] at hmem
    split at hmem
    · next heq =>
      subst heq
      obtain hmem | hmem := List.mem_append.mp hmem
      · exact Or.inl hmem
      · obtain rfl := List.mem_singleton.mp hmem
        exact Or.inr ha
    · exact Or.inl hmem
  | pushed h' event' _ hu hother =>
    by_cases hh : h = h'
    · subst hh
      exact Or.inl (hu ▸ List.mem_cons_of_mem _ hmem)
    · exact Or.inl (hother h hh ▸ hmem)
  | dropped h' _ _ hu hother =>
    by_cases hh : h = h'
    · subst hh
      rw [hu] at hmem
      cases hmem
    · exact Or.inl (hother h hh ▸ hmem)

/-- Only an event thread puts a hash in front of the dispatch thread. -/
theorem mem_toDispatch_of_next {a : ClientAct} (hen : Enabled setup s a) {hash : RawHash}
    (hmem : hash ∈ (s.next setup a).toDispatch) :
    hash ∈ s.toDispatch ∨
      ∃ h, ∃ event ∈ (s.transports h).undelivered, hash = zkrbEventToRuby event := by
  cases flow_next hen with
  | still _ hd => exact Or.inl (hd ▸ hmem)
  | reported _ _ _ hd => exact Or.inl (hd ▸ hmem)
  | dropped _ _ hd => exact Or.inl (hd ▸ hmem)
  | takenUp hash' _ _ hd => exact Or.inl (hd ▸ List.mem_cons_of_mem _ hmem)
  | pushed h event hd hu =>
    rw [hd] at hmem
    obtain hmem | hmem := List.mem_append.mp hmem
    · exact Or.inl hmem
    · exact Or.inr ⟨h, event, by simp [hu], List.mem_singleton.mp hmem⟩

/-- Every hash on its way to a lookup is the image of an event of the C client. -/
def FromC (s : Client) : Prop :=
  ∀ hash ∈ s.toDispatch, ∃ event, hash = zkrbEventToRuby event

theorem fromC_of_reachable {ok : Client → ClientAct → Prop}
    (h : (client setup).Reachable ok s) : FromC s := by
  refine h.invariant (I := FromC) ?_ fun s a hs hen _ => ?_
  · rintro _ rfl
    simp [FromC, initial, toDispatch]
  · intro hash hmem
    obtain hmem | ⟨h, event, -, rfl⟩ := mem_toDispatch_of_next hen hmem
    · exact hs hash hmem
    · exact ⟨event, rfl⟩

theorem FromC.prelude (hs : FromC s) {raw : RawHash} (hpc : s.dispatcher = .received raw)
    (hc : raw.isCompletion = true) : dispatchPrelude setup.debug raw = .ok raw.convert := by
  obtain ⟨event, rfl⟩ := hs raw (by simp [toDispatch_of_received hpc])
  exact dispatchPrelude_completion _ event hc

/-! ## Handles that exist -/

/-- Only `reopen` replaces the handle. -/
theorem czk_next {a : ClientAct} (hen : Enabled setup s a) :
    ((s.next setup a).czk = s.czk ∧ (s.next setup a).nextCzk = s.nextCzk ∧ a ≠ .reopen) ∨
      a = .reopen ∧ (s.next setup a).czk = s.nextCzk ∧
        (s.next setup a).nextCzk = s.nextCzk + 1 := by
  have heff := effect_next hen
  generalize s.next setup a = s' at heff ⊢
  cases heff with
  | reopen => exact Or.inr ⟨rfl, rfl, rfl⟩
  | _ => exact Or.inl ⟨rfl, rfl, by simp⟩

/-- Calls and C clients refer to handles below `n` only. -/
structure RefersBelow (n : ℕ) (s : Client) : Prop where
  call : ∀ {i r m opts h}, s.calls i = .located r m opts h → h < n
  outstanding : ∀ {h r}, s.outstanding h r = true → h < n
  watches : ∀ {h r}, s.watches h r = true → h < n

theorem RefersBelow.callTo {n : ℕ} (hs : RefersBelow n s) (i : ℕ) (pc : CallPc)
    (hpc : ∀ r m opts h, pc = .located r m opts h → h < n) : RefersBelow n (s.callTo i pc) := by
  refine ⟨fun {j r m opts h} hj => ?_, hs.outstanding, hs.watches⟩
  by_cases hji : j = i
  · exact hpc r m opts h (by simpa [Client.callTo, hji] using hj)
  · exact hs.call (by simpa [Client.callTo, hji] using hj)

theorem RefersBelow.accept {n : ℕ} (hs : RefersBelow n s) {h : ℕ} (hh : h < n) (r : ℤ)
    (async watched : Bool) : RefersBelow n (s.accept h r async watched) := by
  refine ⟨hs.call, fun {h' r'} hout => ?_, fun {h' r'} hw => ?_⟩
  · by_cases hself : h' = h
    · rwa [hself]
    · cases async
      · exact hs.outstanding hout
      · exact hs.outstanding (r := r') (by simpa [Client.accept, mark_apply, hself] using hout)
  · by_cases hself : h' = h
    · rwa [hself]
    · cases watched
      · exact hs.watches hw
      · exact hs.watches (r := r') (by simpa [Client.accept, mark_apply, hself] using hw)

/-- No step refers to a handle that is not there. -/
theorem refersBelow_next {n : ℕ} (hs : RefersBelow n s) (hczk : s.czk < n) {a : ClientAct}
    (hen : Enabled setup s a) : RefersBelow n (s.next setup a) := by
  have heff := effect_next hen
  generalize s.next setup a = s' at heff ⊢
  cases heff with
  | @setupCall i m opts =>
    have := hs.callTo i (.registered s.requests.currentReqId m opts) (by simp)
    exact ⟨this.call, this.outstanding, this.watches⟩
  | locate =>
    refine hs.callTo _ _ fun r' m' opts' h heq => ?_
    obtain ⟨-, -, -, rfl⟩ := CallPc.located.inj heq
    exact hczk
  | submit hpc => exact (hs.callTo _ _ (by simp)).accept (hs.call hpc) _ _ _
  | refuse => exact hs.callTo _ _ (by simp)
  | @complete h event =>
    refine ⟨hs.call, fun {h' r} hout => ?_, hs.watches⟩
    simp only [mark_apply] at hout
    split at hout
    · cases hout
    · exact hs.outstanding hout
  | @fire h event =>
    refine ⟨hs.call, hs.outstanding, fun {h' r} hw => ?_⟩
    simp only at hw
    split at hw
    · exact hs.watches hw
    · simp only [mark_apply] at hw
      split at hw
      · cases hw
      · exact hs.watches hw
  | reopen =>
    refine ⟨hs.call, fun {h r} hout => ?_, fun {h r} hw => ?_⟩
    · by_cases hh : h = s.nextCzk
      · simp [hh] at hout
      · exact hs.outstanding (r := r) (by simpa [hh] using hout)
    · by_cases hh : h = s.nextCzk
      · simp [hh] at hw
      · exact hs.watches (r := r) (by simpa [hh] using hw)
  | _ => exact ⟨hs.call, hs.outstanding, hs.watches⟩

/-- Nothing refers to a handle that has not been made yet. -/
structure Allocated (s : Client) : Prop where
  czk : s.czk < s.nextCzk
  refs : RefersBelow s.nextCzk s
  undelivered : ∀ {h}, s.nextCzk ≤ h → (s.transports h).undelivered = []

theorem allocated_initial : Allocated (initial setup) where
  czk := Nat.zero_lt_one
  refs := by constructor <;> simp [initial]
  undelivered _ := rfl

theorem lt_nextCzk_of_reported {a : ClientAct} {h : ℕ} {event : ZkrbEvent}
    (hen : Enabled setup s a) (hs : Allocated s)
    (ha : a = .complete h event ∨ a = .fire h event ∨ a = .sessionEvent h event) :
    h < s.nextCzk := by
  obtain rfl | rfl | rfl := ha
  · exact hs.refs.outstanding hen.1
  · exact hs.refs.watches hen.1
  · exact hen.1

theorem allocated_next (hs : Allocated s) {a : ClientAct} (hen : Enabled setup s a) :
    Allocated (s.next setup a) := by
  have hrefs := refersBelow_next hs.refs hs.czk hen
  have hle : s.nextCzk ≤ (s.next setup a).nextCzk := by
    obtain ⟨-, hsame, -⟩ | ⟨-, -, hsucc⟩ := czk_next hen <;> omega
  refine ⟨?_, ⟨fun h => Nat.lt_of_lt_of_le (hrefs.call h) hle,
    fun h => Nat.lt_of_lt_of_le (hrefs.outstanding h) hle,
    fun h => Nat.lt_of_lt_of_le (hrefs.watches h) hle⟩, fun {h} hh => ?_⟩
  · have hczk := hs.czk
    obtain ⟨hsame, hsame', -⟩ | ⟨-, hnew, hsucc⟩ := czk_next hen <;> omega
  have hh' := Nat.le_trans hle hh
  cases flow_next hen with
  | still _ _ hu => rw [hu, hs.undelivered hh']
  | takenUp _ _ _ _ hu => rw [hu, hs.undelivered hh']
  | reported h' event ha _ hu =>
    have hlt := lt_nextCzk_of_reported hen hs ha
    rw [hu, if_neg (by omega), hs.undelivered hh']
  | pushed h' event _ hu hother =>
    by_cases heq : h = h'
    · subst heq
      rw [hs.undelivered hh'] at hu
      cases hu
    · rw [hother h heq, hs.undelivered hh']
  | dropped h' _ _ hu hother =>
    by_cases heq : h = h'
    · rw [heq, hu]
    · rw [hother h heq, hs.undelivered hh']

theorem allocated_of_reachable {ok : Client → ClientAct → Prop}
    (h : (client setup).Reachable ok s) : Allocated s := by
  refine h.invariant ?_ fun _ _ hs hen _ => allocated_next hs hen
  rintro _ rfl
  exact allocated_initial

/-! ## Changes of the tables -/

/-- The step leaves the tables alone, looks nothing up and calls nothing. -/
structure Quiet (s s' : Client) : Prop where
  requests : s'.requests = s.requests
  issued : s'.issued = s.issued
  invocations : s'.invocations = s.invocations
  taken : ∀ {hash entry}, s'.dispatcher = .taken hash entry → s.dispatcher = .taken hash entry

/-- The steps that are not quiet. -/
theorem quiet_or {a : ClientAct} (hen : Enabled setup s a) :
    (∃ i m opts, a = .setupCall i m opts) ∨ a = .lookup ∨ a = .proceed ∨ a = .reopen ∨
      a = .reopenRaises ∨ Quiet s (s.next setup a) := by
  have heff := effect_next hen
  generalize s.next setup a = s' at heff ⊢
  cases heff with
  | @setupCall i m opts => exact Or.inl ⟨i, m, opts, rfl⟩
  | lookup | proceed | reopen | reopenRaises => simp
  | pop | preludeRaises | callbackEnds =>
    simp only [reduceCtorEq, exists_false, false_or]
    exact ⟨rfl, rfl, rfl, fun h => by cases h⟩
  | _ =>
    simp only [reduceCtorEq, exists_false, false_or]
    exact ⟨rfl, rfl, rfl, id⟩

/-- An entry of `@completion_reqs` changes only when its request is registered, or when a
completion with its id is looked up. -/
theorem completionReqs_next {a : ClientAct} (hen : Enabled setup s a) (r : ℤ) :
    (∃ i m opts, a = .setupCall i m opts) ∨
      (s.next setup a).requests.completionReqs r = s.requests.completionReqs r ∨
      a = .lookup ∧ ∃ hash, s.dispatcher = .received hash ∧ hash.isCompletion = true ∧
        hash.reqId = r := by
  obtain hcall | rfl | rfl | rfl | rfl | hquiet := quiet_or hen
  · exact Or.inl hcall
  · obtain ⟨⟨hash, hash', hpc, -⟩, -⟩ := hen
    right
    by_cases hc : hash.isCompletion = true ∧ hash.reqId = r
    · exact Or.inr ⟨rfl, hash, hpc, hc⟩
    · left
      simp only [next, hpc]
      by_cases hcomp : hash.isCompletion = true
      · exact completionReqs_takeEntry_of_ne (fun heq => hc ⟨hcomp, heq.symm⟩) _
      · rw [completionReqs_takeEntry_watch (by simpa using hcomp)]
  · obtain ⟨hash, entry, hpc⟩ := hen
    refine Or.inr (Or.inl ?_)
    simp only [next, hpc]
    rw [(dispatchTaken_requests _ _ _ _).2]
  · exact Or.inr (Or.inl rfl)
  · exact Or.inr (Or.inl rfl)
  · exact Or.inr (Or.inl (by rw [hquiet.requests]))

end Client

end ZookeeperClient
