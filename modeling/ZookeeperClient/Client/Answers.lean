import ZookeeperClient.Client.Basic
import ZookeeperClient.Transition.Places

/-!
# Where the answer to a request is

The answer to a request travels from the call that submits it through the C client, the
transport of a handle, `@event_queue` and the dispatch thread into the request's callback.
Seen as a token it is at one of these places at a time, and as long as it has not been
looked up the entry of its request is in `@completion_reqs`. Both hold in every state of
every run, with any number of `reopen`s.

## Main definitions

- `Client.Place`, `Client.tokens` — where the answer to a request may be
- `Client.Forward` — what a step can do to the answers
- `Client.Tracked` — the invariant

## Main results

- `forward_next` — a step moves the answer to one request at most
- `tracked_of_reachable` — answers are placed, and awaited ones have their entry
-/

namespace ZookeeperClient

open Transition

/-- The hash reports the completion of request `r`. -/
def completes {σ α : Type} (r : ℤ) (hash : EventHash σ α) : Bool :=
  hash.isCompletion && hash.reqId == r

theorem completes_iff {σ α : Type} {r : ℤ} {hash : EventHash σ α} :
    completes r hash = true ↔ hash.isCompletion = true ∧ hash.reqId = r := by
  simp [completes]

namespace Client

variable {setup : Setup} {s : Client}

/-! ## Answers as tokens -/

/-- The places through which the answer to a request passes. -/
inductive Place where
  /-- The call has not submitted the request yet. -/
  | call (i : ℕ)
  /-- The C client of a handle owes the completion. -/
  | outstanding (h : ℕ)
  /-- In the `zkrb` queue or in the hand of the event thread. -/
  | inHandle (h : ℕ)
  /-- In `@event_queue`, or received by the dispatch thread. -/
  | inRuby
  /-- Looked up by the dispatch thread. -/
  | taken
  /-- Passed to a callback. -/
  | invoked

/-- The place comes before the lookup. -/
def Place.BeforeLookup : Place → Prop
  | .taken | .invoked => False
  | _ => True

/-- How often the answer to request `r` is at a place. -/
def tokens (s : Client) (p : Place) (r : ℤ) : ℕ :=
  match p with
  | .call i => if (s.calls i).request.any fun x => x.1 == r then 1 else 0
  | .outstanding h => if s.outstanding h r then 1 else 0
  | .inHandle h =>
    (s.transports h).undelivered.countP fun event => completes r (zkrbEventToRuby event)
  | .inRuby => s.toDispatch.countP (completes r)
  | .taken =>
    match s.dispatcher with
    | .taken hash _ => if completes r hash then 1 else 0
    | _ => 0
  | .invoked => s.invocations.countP fun inv => completes r inv.hash

/-- The answer to request `r` has not been looked up yet. -/
def Awaited (s : Client) (r : ℤ) : Prop :=
  ∃ p, p.BeforeLookup ∧ 0 < s.tokens p r

/-- A step loses answers or moves one of them forward. -/
def Forward (s s' : Client) : Prop :=
  (∀ p r, s'.tokens p r ≤ s.tokens p r) ∨
    ∃ p q r, Moved s.tokens s'.tokens p q r ∧ (q.BeforeLookup → p.BeforeLookup)

theorem Forward.placed {s' : Client} (h : Forward s s') (hs : Placed s.tokens) :
    Placed s'.tokens := by
  obtain hle | ⟨p, q, r, hm, -⟩ := h
  · exact hs.anti hle
  · exact hs.move hm

/-- An answer that is somewhere after a step was somewhere before it. -/
theorem Forward.present {s' : Client} (h : Forward s s') {p : Place} {r : ℤ}
    (hp : 0 < s'.tokens p r) : ∃ q, (p.BeforeLookup → q.BeforeLookup) ∧ 0 < s.tokens q r := by
  obtain hle | ⟨p', q, r', hm, hback⟩ := h
  · exact ⟨p, id, Nat.lt_of_lt_of_le hp (hle p r)⟩
  · by_cases hh : p = q ∧ r = r'
    · obtain ⟨rfl, rfl⟩ := hh
      exact ⟨p', hback, Nat.lt_of_le_of_lt (Nat.zero_le _) hm.left⟩
    · exact ⟨p, id, Nat.lt_of_lt_of_le hp (hm.rest p r hh)⟩

/-- The answer to at most one request comes to `q`: to the request that `hash` completes. -/
theorem Forward.of_arrival {σ α : Type} {s' : Client} (hash : EventHash σ α) {p q : Place}
    (hne : p ≠ q) (hback : q.BeforeLookup → p.BeforeLookup)
    (hleft : ∀ r, completes r hash = true → s'.tokens p r < s.tokens p r)
    (harrived : ∀ r, s'.tokens q r ≤ s.tokens q r + if completes r hash then 1 else 0)
    (hrest : ∀ p' r, p' ≠ q → s'.tokens p' r ≤ s.tokens p' r) : Forward s s' := by
  by_cases hc : hash.isCompletion = true
  · have hself : completes hash.reqId hash = true := by simp [completes, hc]
    refine Or.inr ⟨p, q, hash.reqId, ⟨hne, hleft _ hself, ?_, fun p' r hnot => ?_⟩, hback⟩
    · simpa [hself] using harrived hash.reqId
    · by_cases hp : p' = q
      · subst hp
        have hr : hash.reqId ≠ r := fun heq => hnot ⟨rfl, heq.symm⟩
        simpa [completes, hr] using harrived r
      · exact hrest p' r hp
  · -- an event that is no completion is no answer
    refine Or.inl fun p' r => ?_
    by_cases hp : p' = q
    · subst hp
      simpa [completes, hc] using harrived r
    · exact hrest p' r hp

theorem Forward.awaited {s' : Client} (h : Forward s s') {r : ℤ} (hr : s'.Awaited r) :
    s.Awaited r := by
  obtain ⟨p, hp, hpos⟩ := hr
  obtain ⟨q, hback, hq⟩ := h.present hpos
  exact ⟨q, hback hp, hq⟩

/-! ### What a step does at each place -/

/-- A call that goes on has no more requests to submit than before. -/
theorem tokens_call_le {s' : Client} (hframe : Frame s s') (i : ℕ) (r : ℤ) :
    s'.tokens (.call i) r ≤ s.tokens (.call i) r := by
  simp only [tokens]
  cases hreq : (s'.calls i).request with
  | none => simp
  | some x => exact Nat.le_of_eq (by rw [hframe.request i x hreq])

theorem completes_watch {event : ZkrbEvent} (h : event.completion.isWatcher = true) (r : ℤ) :
    completes r (zkrbEventToRuby event) = false := by
  simp [completes, h]

theorem tokens_inHandle_of_eq {s' : Client} {h : ℕ}
    (hu : (s'.transports h).undelivered = (s.transports h).undelivered) (r : ℤ) :
    s'.tokens (.inHandle h) r = s.tokens (.inHandle h) r := by
  simp only [tokens, hu]

theorem tokens_inRuby_of_eq {s' : Client} (hd : s'.toDispatch = s.toDispatch) (r : ℤ) :
    s'.tokens .inRuby r = s.tokens .inRuby r := by
  simp only [tokens, hd]

theorem tokens_inHandle_le {a : ClientAct} (hen : Enabled setup s a)
    (ha : ∀ h event, a ≠ .complete h event) (h : ℕ) (r : ℤ) :
    (s.next setup a).tokens (.inHandle h) r ≤ s.tokens (.inHandle h) r := by
  cases flow_next hen with
  | still _ _ hu => exact Nat.le_of_eq (tokens_inHandle_of_eq (hu h) r)
  | takenUp _ _ _ _ hu => exact Nat.le_of_eq (tokens_inHandle_of_eq (hu h) r)
  | reported h' event hact _ hu =>
    -- what is not a completion answers no request
    have hw : event.completion.isWatcher = true := by
      obtain rfl | rfl | rfl := hact
      · exact absurd rfl (ha h' event)
      · exact hen.2.1
      · exact hen.2.2.1
    simp only [tokens, hu]
    split
    · next heq => simp [heq, completes_watch hw]
    · exact Nat.le_refl _
  | pushed h' event _ hu hother =>
    by_cases hh : h = h'
    · subst hh
      simp only [tokens, hu, List.countP_cons]
      omega
    · exact Nat.le_of_eq (tokens_inHandle_of_eq (hother h hh) r)
  | dropped h' _ _ hu hother =>
    by_cases hh : h = h'
    · subst hh
      simp [tokens, hu]
    · exact Nat.le_of_eq (tokens_inHandle_of_eq (hother h hh) r)

theorem tokens_inRuby_le {a : ClientAct} (hen : Enabled setup s a) (ha : ∀ h, a ≠ .push h)
    (r : ℤ) : (s.next setup a).tokens .inRuby r ≤ s.tokens .inRuby r := by
  cases flow_next hen with
  | still _ hd => exact Nat.le_of_eq (tokens_inRuby_of_eq hd r)
  | reported _ _ _ hd => exact Nat.le_of_eq (tokens_inRuby_of_eq hd r)
  | dropped _ _ hd => exact Nat.le_of_eq (tokens_inRuby_of_eq hd r)
  | pushed h => exact absurd rfl (ha h)
  | takenUp hash _ _ hd =>
    simp only [tokens, hd, List.countP_cons]
    omega

theorem tokens_outstanding_le {s' : Client} {h : ℕ} {r : ℤ}
    (hout : s'.outstanding h r = true → s.outstanding h r = true) :
    s'.tokens (.outstanding h) r ≤ s.tokens (.outstanding h) r := by
  simp only [tokens]
  split
  · next hr => simp [hout hr]
  · exact Nat.zero_le _

theorem tokens_taken_le {s' : Client}
    (hdisp : ∀ hash entry, s'.dispatcher = .taken hash entry → s.dispatcher = .taken hash entry)
    (r : ℤ) : s'.tokens .taken r ≤ s.tokens .taken r := by
  simp only [tokens]
  split
  · next hash entry hpc => simp [hdisp hash entry hpc]
  · exact Nat.zero_le _

/-- A step that neither accepts nor completes a request, and pushes, looks up and calls nothing,
adds no answer anywhere. -/
theorem forward_of_lose {a : ClientAct} (hen : Enabled setup s a)
    (hframe : Frame s (s.next setup a)) (hcomplete : ∀ h event, a ≠ .complete h event)
    (hpush : ∀ h, a ≠ .push h)
    (hout : ∀ h r, (s.next setup a).outstanding h r = true → s.outstanding h r = true)
    (hdisp : ∀ hash entry, (s.next setup a).dispatcher = .taken hash entry →
      s.dispatcher = .taken hash entry)
    (hinv : (s.next setup a).invocations = s.invocations) : Forward s (s.next setup a) := by
  refine Or.inl fun p r => ?_
  cases p with
  | call i => exact tokens_call_le hframe i r
  | outstanding h => exact tokens_outstanding_le (hout h r)
  | inHandle h => exact tokens_inHandle_le hen hcomplete h r
  | inRuby => exact tokens_inRuby_le hen hpush r
  | taken => exact tokens_taken_le hdisp r
  | invoked => simp only [tokens, hinv, Nat.le_refl]

theorem forward_submit {i : ℕ} {watched : Bool} (hen : Enabled setup s (.submit i watched))
    (hframe : Frame s (s.next setup (.submit i watched))) :
    Forward s (s.next setup (.submit i watched)) := by
  obtain ⟨r, m, opts, h, hpc, hopen⟩ := id hen
  by_cases hasync : isAsync m opts = true
  · refine Or.inr ⟨.call i, .outstanding h, r, ⟨by simp, ?_, ?_, ?_⟩, fun _ => trivial⟩
    · simp [tokens, next, hpc, callTo, accept, CallPc.request]
    · simp only [tokens]
      split <;> omega
    · intro p' r' hne
      cases p' with
      | call j => exact tokens_call_le hframe j r'
      | outstanding h' =>
        refine tokens_outstanding_le fun hr => ?_
        have hne' : ¬(h' = h ∧ r' = r) := fun hh => hne ⟨by rw [hh.1], hh.2⟩
        simpa [next, hpc, callTo, accept, hasync, mark_apply, hne'] using hr
      | inHandle h' => exact tokens_inHandle_le hen (by simp) h' r'
      | inRuby => exact tokens_inRuby_le hen (by simp) r'
      | taken => exact tokens_taken_le (by simp [next, hpc, callTo, accept]) r'
      | invoked => simp [tokens, next, hpc, callTo, accept]
  · refine forward_of_lose hen hframe (by simp) (by simp) ?_ ?_ ?_ <;>
      simp [next, hpc, callTo, accept, hasync]

theorem forward_complete {h : ℕ} {event : ZkrbEvent}
    (hen : Enabled setup s (.complete h event))
    (hframe : Frame s (s.next setup (.complete h event))) :
    Forward s (s.next setup (.complete h event)) := by
  obtain ⟨hout, -, -⟩ := id hen
  have hu (h' : ℕ) := undelivered_step_enqueue (s := s) h h' event
  -- the answer leaves the outstanding calls and enters the list of its handle
  refine .of_arrival (zkrbEventToRuby event) (p := .outstanding h) (q := .inHandle h) (by simp)
    (fun _ => trivial) (fun r hr => ?_) (fun r => ?_) fun p' r' hp => ?_
  · obtain ⟨-, rfl⟩ := completes_iff.mp hr
    simp [tokens, next, mark_apply, hout]
  · simp [tokens, next, hu]
  · cases p' with
    | call j => exact tokens_call_le hframe j r'
    | outstanding h' =>
      refine tokens_outstanding_le fun hr => ?_
      simp only [next, mark_apply] at hr
      split at hr
      · cases hr
      · exact hr
    | inHandle h' =>
      have hh : h' ≠ h := fun heq => hp (heq ▸ rfl)
      exact Nat.le_of_eq (tokens_inHandle_of_eq ((hu h').trans (if_neg hh)) r')
    | inRuby => exact tokens_inRuby_le hen (by simp) r'
    | taken => exact tokens_taken_le (by simp [next, step]) r'
    | invoked => simp [tokens, next, step]

theorem forward_push {h : ℕ} (hen : Enabled setup s (.push h))
    (hframe : Frame s (s.next setup (.push h))) : Forward s (s.next setup (.push h)) := by
  obtain ⟨event, hpc⟩ := id hen
  have hd : (s.next setup (.push h)).toDispatch = s.toDispatch ++ [zkrbEventToRuby event] := by
    simp only [next, hpc]
    exact toDispatch_append _
  have hu : (s.transports h).undelivered =
      event :: ((s.next setup (.push h)).transports h).undelivered := by
    simp only [next, hpc, transports_step, if_true]
    exact Transport.undelivered_push hpc
  refine .of_arrival (zkrbEventToRuby event) (p := .inHandle h) (q := .inRuby) (by simp)
    (fun _ => trivial) (fun r hr => ?_) (fun r => ?_) fun p' r' hp => ?_
  · simp [tokens, hu, hr]
  · simp [tokens, hd]
  · cases p' with
    | call j => exact tokens_call_le hframe j r'
    | outstanding h' => exact tokens_outstanding_le (by simp [next, hpc, step])
    | inHandle h' => exact tokens_inHandle_le hen (by simp) h' r'
    | inRuby => exact absurd rfl hp
    | taken => exact tokens_taken_le (by simp [next, hpc, step]) r'
    | invoked => simp [tokens, next, hpc, step]

theorem forward_lookup (hen : Enabled setup s .lookup) (hframe : Frame s (s.next setup .lookup)) :
    Forward s (s.next setup .lookup) := by
  obtain ⟨⟨hash, hash', hpc, -⟩, -⟩ := id hen
  have hd : s.toDispatch = hash :: (s.next setup .lookup).toDispatch := by
    simp only [next, hpc]
    exact toDispatch_of_received hpc
  refine .of_arrival hash (p := .inRuby) (q := .taken) (by simp) (fun h => h.elim)
    (fun r hr => ?_) (fun r => ?_) fun p' r' hp => ?_
  · simp [tokens, hd, hr]
  · have htaken : (s.next setup .lookup).tokens .taken r = if completes r hash then 1 else 0 := by
      simp [tokens, next, hpc, completes]
    rw [htaken]
    exact Nat.le_add_left _ _
  · cases p' with
    | call j => exact tokens_call_le hframe j r'
    | outstanding h' => exact tokens_outstanding_le (by simp [next, hpc])
    | inHandle h' => exact tokens_inHandle_le hen (by simp) h' r'
    | inRuby => exact tokens_inRuby_le hen (by simp) r'
    | taken => exact absurd rfl hp
    | invoked => simp [tokens, next, hpc]

/-- The hash that reaches a user object belongs to the same event. -/
theorem completes_invocation {host : Bytes} {hash arg : CallbackHash} {entry : Option ReqHash}
    {cb : Handler} {inv : Invocation} (hcalled : callbackOf hash entry = some (cb, arg))
    (hcall : cb.call host arg = .ok inv) (r : ℤ) : completes r inv.hash = completes r hash := by
  obtain ⟨e, -, -, -, rfl⟩ := callbackOf_eq_some hcalled
  obtain ⟨-, -, hhash⟩ := Handler.call_eq_ok hcall
  simp [completes, hhash, EventHash.isCompletion]

theorem forward_proceed (hen : Enabled setup s .proceed)
    (hframe : Frame s (s.next setup .proceed)) : Forward s (s.next setup .proceed) := by
  obtain ⟨hash, entry, hpc⟩ := id hen
  obtain ⟨requests, dispatcher, invocations, heq, -, hdisp, hinv⟩ :=
    dispatchTaken_cases setup.host hash entry s
  have hnext : s.next setup .proceed = s.dispatchTaken setup.host hash entry := by
    simp only [next, hpc]
  have hgone (r : ℤ) : (s.next setup .proceed).tokens .taken r = 0 := by
    rw [hnext, heq]
    obtain rfl | rfl := hdisp <;> rfl
  have hinvoked (r : ℤ) : (s.next setup .proceed).tokens .invoked r =
      s.tokens .invoked r + invocations.countP fun inv => completes r inv.hash := by
    simp [tokens, hnext, heq]
  -- what was taken out is handed to its callback, or is gone if there is none
  refine .of_arrival hash (p := .taken) (q := .invoked) (by simp) (fun h => h.elim)
    (fun r hr => ?_) (fun r => ?_) fun p' r' hp => ?_
  · rw [hgone]
    simp [tokens, hpc, hr]
  · rw [hinvoked]
    obtain rfl | ⟨cb, arg, inv, hcalled, hcall, rfl⟩ := hinv
    · simp
    · simp [completes_invocation hcalled hcall]
  · cases p' with
    | call j => exact tokens_call_le hframe j r'
    | outstanding h' => exact tokens_outstanding_le (by simp [hnext, heq])
    | inHandle h' => exact tokens_inHandle_le hen (by simp) h' r'
    | inRuby => exact tokens_inRuby_le hen (by simp) r'
    | taken => simp [hgone r']
    | invoked => exact absurd rfl hp

/-- A step of a run moves the answer to one request at most, and never back before its
lookup. -/
theorem forward_next {a : ClientAct} (hen : Enabled setup s a)
    (hframe : Frame s (s.next setup a)) : Forward s (s.next setup a) := by
  cases a with
  | setupCall i m opts => exact absurd rfl (hframe.ne_setupCall i m opts)
  | submit i watched => exact forward_submit hen hframe
  | complete h event => exact forward_complete hen hframe
  | push h => exact forward_push hen hframe
  | lookup => exact forward_lookup hen hframe
  | proceed => exact forward_proceed hen hframe
  | locate i =>
    obtain ⟨⟨r, m, opts, hpc⟩, -⟩ := id hen
    refine forward_of_lose hen hframe (by simp) (by simp) ?_ ?_ ?_ <;>
      simp [next, hpc, callTo]
  | refuse i =>
    obtain ⟨r, m, opts, h, hpc⟩ := id hen
    refine forward_of_lose hen hframe (by simp) (by simp) ?_ ?_ ?_ <;>
      simp [next, hpc, callTo]
  | pop =>
    refine forward_of_lose hen hframe (by simp) (by simp) ?_ ?_ ?_ <;>
      cases hq : s.eventQueue <;> simp [next, hq]
  | preludeRaises =>
    obtain ⟨hash, e, hpc, -⟩ := id hen
    refine forward_of_lose hen hframe (by simp) (by simp) ?_ ?_ ?_ <;> simp [next, hpc]
  | reopen =>
    refine forward_of_lose hen hframe (by simp) (by simp) ?_ ?_ ?_
    · intro h r
      by_cases hh : h = s.nextCzk <;> simp [next, hh]
    · exact fun _ _ h => h
    · rfl
  | shutDown =>
    obtain ⟨orig, hpc⟩ := id hen
    refine forward_of_lose hen hframe (by simp) (by simp) ?_ ?_ ?_ <;> simp [next, hpc, step]
  | zookeeperClose =>
    obtain ⟨orig, hpc, -⟩ := id hen
    refine forward_of_lose hen hframe (by simp) (by simp) ?_ ?_ ?_ <;> simp [next, hpc, step]
  | queueFree =>
    obtain ⟨orig, hpc, -⟩ := id hen
    refine forward_of_lose hen hframe (by simp) (by simp) ?_ ?_ ?_ <;> simp [next, hpc, step]
  -- these steps move no answer
  | fire | sessionEvent | eventThread | callbackEnds | reopenRaises | reopened =>
    refine forward_of_lose hen hframe (by simp) (by simp) ?_ ?_ ?_ <;> simp [next, step]

/-! ## Where answers are -/

/-- What holds of every answer at every moment of a run. -/
structure Tracked (s : Client) : Prop where
  placed : Placed s.tokens
  issued : ∀ {p r}, 0 < s.tokens p r → ∃ x, s.issued r = some x
  /-- As long as the answer has not been looked up, the callback is registered. -/
  kept : ∀ {r m opts}, s.Awaited r → s.issued r = some (m, opts) → opts.callback.isSome →
    s.requests.completionReqs r ≠ none

theorem tracked_initial : Tracked (initial setup) := by
  have hnone (p : Place) (r : ℤ) : (initial setup).tokens p r = 0 := by
    cases p <;> rfl
  refine ⟨⟨by simp [hnone], by simp [hnone]⟩, by simp [hnone], ?_⟩
  rintro r m opts ⟨p, -, hp⟩
  simp [hnone] at hp

/-- A new call is the only place of its answer. -/
theorem tracked_setupCall (hids : Ids s) (hs : Tracked s) {i : ℕ} {m : Meth} {opts : ReqHash}
    (hen : Enabled setup s (.setupCall i m opts)) :
    Tracked (s.next setup (.setupCall i m opts)) := by
  have hidle : s.calls i = .idle := hen.1
  set r := s.requests.currentReqId with hr
  have hle (p : Place) (r' : ℤ) (hne : ¬(p = .call i ∧ r' = r)) :
      (s.next setup (.setupCall i m opts)).tokens p r' ≤ s.tokens p r' := by
    cases p with
    | call j =>
      by_cases hj : j = i
      · subst hj
        have hr' : r ≠ r' := fun heq => hne ⟨rfl, heq.symm⟩
        simp [tokens, next, callTo, CallPc.request, ← hr, hr']
      · simp [tokens, next, callTo, hj]
    | _ => exact Nat.le_refl _
  -- nothing can be under way under an id that has not been issued
  have hnone (p : Place) : s.tokens p r = 0 := by
    by_contra hsome
    obtain ⟨x, hx⟩ := hs.issued (Nat.pos_of_ne_zero hsome)
    exact hids.ne_current_of_issued hx hr
  have hissued (r' : ℤ) : (s.next setup (.setupCall i m opts)).issued r' =
      if r' = r then some (m, opts) else s.issued r' := by
    simp [next, Function.update_apply, hr]
  refine ⟨hs.placed.enter hnone ?_ hle, fun {p r'} hp => ?_, fun {r' m' opts'} haw hx hcb => ?_⟩
  · simp only [tokens]
    split <;> omega
  · by_cases hh : r' = r
    · exact ⟨(m, opts), by simp [hissued, hh]⟩
    · obtain ⟨x, hx⟩ := hs.issued (Nat.lt_of_lt_of_le hp (hle p r' fun h => hh h.2))
      exact ⟨x, by simp [hissued, hh, hx]⟩
  · by_cases hh : r' = r
    · subst hh
      obtain ⟨rfl, rfl⟩ : m = m' ∧ opts = opts' := by simpa [hissued] using hx
      simp [next, callTo, Requests.completionReqs_setupCall, hcb, hr]
    · obtain ⟨p, hp, hpos⟩ := haw
      have hpos' := Nat.lt_of_lt_of_le hpos (hle p r' fun h => hh h.2)
      have := hs.kept ⟨p, hp, hpos'⟩ (by simpa [hissued, hh] using hx) hcb
      simpa [next, Requests.completionReqs_setupCall_of_ne _ _ _ _ (hr ▸ hh)] using this

theorem not_awaited_of_taken {hash : CallbackHash} {entry : Option ReqHash}
    (hs : Placed s.tokens) (hpc : s.dispatcher = .taken hash entry)
    (hc : hash.isCompletion = true) : ¬s.Awaited hash.reqId := by
  rintro ⟨p, hp, hpos⟩
  have htaken : 0 < s.tokens .taken hash.reqId := by
    simp [tokens, hpc, completes, hc]
  rw [hs.unique hpos htaken] at hp
  exact hp

theorem tracked_next (hids : Ids s) (hs : Tracked s) {a : ClientAct}
    (hen : Enabled setup s a) : Tracked (s.next setup a) := by
  obtain ⟨i, m, opts, rfl⟩ | hframe := setupCall_or_frame hen
  · exact tracked_setupCall hids hs hen
  · have hforward := forward_next hen hframe
    have hplaced := hforward.placed hs.placed
    refine ⟨hplaced, fun hp => ?_, fun {r m opts} haw hx hcb => ?_⟩
    · obtain ⟨q, -, hq⟩ := hforward.present hp
      rw [hframe.issued]
      exact hs.issued hq
    · rw [hframe.issued] at hx
      have hentry := hs.kept (hforward.awaited haw) hx hcb
      obtain ⟨i, m, opts, rfl⟩ | hsame | ⟨rfl, hash, hpc, hc, rfl⟩ := completionReqs_next hen r
      · exact absurd rfl (hframe.ne_setupCall i m opts)
      · rwa [hsame]
      · have htaken : (s.next setup .lookup).dispatcher =
            .taken hash.convert (takeEntry hash.convert s.requests).1 := by
          simp only [next, hpc]
        exact absurd haw (not_awaited_of_taken hplaced htaken hc)

theorem tracked_of_reachable {ok : Client → ClientAct → Prop}
    (h : (client setup).Reachable ok s) : Tracked s := by
  refine h.invariant_under (fun _ => ids_of_reachable) ?_
    fun _ _ hids hs hen _ => tracked_next hids hs hen
  rintro _ rfl
  exact tracked_initial

end Client

end ZookeeperClient
