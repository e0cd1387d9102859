import ZookeeperClient.Client.Answers

/-!
# Completions across reopen

`reopen` joins the event thread of the old handle before it calls `zookeeper_close`, and
`zookeeper_close` calls the completion functions of all outstanding requests. Their events
go into a `zkrb` queue that nobody reads any more and that is freed right afterwards, while
`reopen` clears `@watcher_reqs` only.

## Main definitions

- `Client.NoneLost` — a completion that has been reported is on its way or has been looked up
- `Client.OldIdle` — `zookeeper_close` finds nothing owed to the client

## Main results

- `lost_on_reopen` — with a request outstanding, `reopen` loses its completion
- `noneLost_of_oldIdle` — in runs all of whose steps satisfy `OldIdle` none is lost
-/

namespace ZookeeperClient

open Transition

namespace Client

variable {setup : Setup} {s : Client}

/-- The completion of request `r` is in a `zkrb` queue, in the hand of an event thread, in
`@event_queue`, or has been received by the dispatch thread. -/
def InTransit (s : Client) (r : ℤ) : Prop :=
  ∃ h, ∃ hash ∈ s.line h, completes r hash = true

/-- No completion is lost: if the completion function of a request has been called and the
entry of the request is still waiting, then the event is on its way. -/
def NoneLost (s : Client) : Prop :=
  ∀ r, s.completed r = true → s.requests.completionReqs r ≠ none → s.InTransit r

/-- A handle owes the client the completion of request `r`, or has not delivered it yet. -/
def Owes (s : Client) (h : ℕ) (r : ℤ) : Prop :=
  s.outstanding h r = true ∨
    ∃ event ∈ (s.transports h).undelivered, completes r (zkrbEventToRuby event) = true

/-- When `zookeeper_close` is called, the handle owes nothing to a registered callback. -/
def OldIdle (s : Client) : ClientAct → Prop
  | .zookeeperClose =>
    ∀ orig r, s.reopening = .joining orig → s.Owes orig r → s.requests.completionReqs r = none
  | _ => True

/-! ## The defect -/

/-- An asynchronous `get`. -/
def asyncGet : ReqHash where
  callback := some (.user ⟨2, true⟩)

/-- An entry that is there after a step that registers nothing was there before it, and its
completion has not just been looked up. -/
theorem completionReqs_of_next {a : ClientAct} (hen : Enabled setup s a)
    (hcall : ∀ i m opts, a ≠ .setupCall i m opts) {r : ℤ}
    (h : (s.next setup a).requests.completionReqs r ≠ none) :
    s.requests.completionReqs r ≠ none ∧
      ∀ hash, a = .lookup → s.dispatcher = .received hash → completes r hash = false := by
  have hentry : s.requests.completionReqs r ≠ none := by
    obtain ⟨i, m, opts, rfl⟩ | hsame | ⟨rfl, hash, hpc, hc, rfl⟩ := completionReqs_next hen r
    · exact absurd rfl (hcall i m opts)
    · rwa [hsame] at h
    · simp only [next, hpc, takeEntry_completion (show hash.convert.isCompletion = true from hc)]
        at h
      exact absurd (Requests.completionReqs_getCompletion_self ..) h
  refine ⟨hentry, ?_⟩
  rintro hash rfl hpc
  by_contra hc
  obtain ⟨hcomp, rfl⟩ := completes_iff.mp (by simpa using hc)
  simp only [next, hpc, takeEntry_completion (show hash.convert.isCompletion = true from hcomp)]
    at h
  exact h (Requests.completionReqs_getCompletion_self ..)

/-- What holds in runs in which `zookeeper_close` finds its handle idle. -/
structure Kept (s : Client) : Prop where
  noneLost : s.NoneLost
  /-- Only issued requests complete. -/
  issued : ∀ {r}, s.completed r = true → ∃ x, s.issued r = some x
  /-- A closed handle owes nothing to a registered callback. -/
  closed : ∀ {h r}, (s.transports h).closed = true → s.Owes h r →
    s.requests.completionReqs r = none

theorem kept_initial : Kept (initial setup) where
  noneLost r h := by simp [initial] at h
  issued h := by simp [initial] at h
  closed h := by simp [initial, Transport.initial] at h

/-- An event of a handle's transport is on its way. -/
theorem inTransit_of_undelivered {h : ℕ} {event : ZkrbEvent} {r : ℤ}
    (hmem : event ∈ (s.transports h).undelivered)
    (hc : completes r (zkrbEventToRuby event) = true) : s.InTransit r :=
  ⟨h, _, List.mem_append_right _ (List.mem_map_of_mem hmem), hc⟩

theorem inTransit_of_toDispatch {hash : RawHash} {r : ℤ} (hmem : hash ∈ s.toDispatch)
    (hc : completes r hash = true) : s.InTransit r :=
  ⟨0, hash, List.mem_append_left _ hmem, hc⟩

theorem InTransit.cases {r : ℤ} (h : s.InTransit r) :
    (∃ hash ∈ s.toDispatch, completes r hash = true) ∨
      ∃ h, ∃ event ∈ (s.transports h).undelivered,
        completes r (zkrbEventToRuby event) = true := by
  obtain ⟨h, hash, hmem, hc⟩ := h
  obtain hmem | hmem := List.mem_append.mp hmem
  · exact Or.inl ⟨hash, hmem, hc⟩
  · obtain ⟨event, hevent, rfl⟩ := List.mem_map.mp hmem
    exact Or.inr ⟨h, event, hevent, hc⟩

/-- An event stays on its way unless its completion is looked up or its queue is freed. -/
theorem inTransit_next {a : ClientAct} (hen : Enabled setup s a) (hfrom : FromC s)
    (halloc : Allocated s) {r : ℤ} (h : s.InTransit r)
    (hlookup : ∀ hash, a = .lookup → s.dispatcher = .received hash → completes r hash = false)
    (hfree : ∀ orig, a = .queueFree → s.reopening = .destroying orig → ¬s.Owes orig r) :
    (s.next setup a).InTransit r := by
  have hkeep := h.cases
  cases flow_next hen with
  | still _ hd hu =>
    obtain ⟨hash, hmem, hc⟩ | ⟨h, event, hmem, hc⟩ := hkeep
    · exact inTransit_of_toDispatch (hd ▸ hmem) hc
    · exact inTransit_of_undelivered (by rwa [hu]) hc
  | reported h' event' _ hd hu =>
    obtain ⟨hash, hmem, hc⟩ | ⟨h, event, hmem, hc⟩ := hkeep
    · exact inTransit_of_toDispatch (hd ▸ hmem) hc
    · refine inTransit_of_undelivered (h := h) ?_ hc
      rw [hu]
      split
      · next heq => exact List.mem_append_left _ (heq ▸ hmem)
      · exact hmem
  | pushed h' event' hd hu hother =>
    obtain ⟨hash, hmem, hc⟩ | ⟨h, event, hmem, hc⟩ := hkeep
    · exact inTransit_of_toDispatch (hd ▸ List.mem_append_left _ hmem) hc
    · by_cases hh : h = h'
      · subst hh
        rw [hu] at hmem
        obtain rfl | hmem := List.mem_cons.mp hmem
        · exact inTransit_of_toDispatch (hd ▸ List.mem_append_right _ (by simp)) hc
        · exact inTransit_of_undelivered hmem hc
      · exact inTransit_of_undelivered (by rwa [hother h hh]) hc
  | takenUp hash' ha hpc hd hu =>
    have hnot : completes r hash' = false := by
      obtain rfl | rfl := ha
      · exact hlookup hash' rfl hpc
      · -- the prelude does not raise on a completion
        obtain ⟨hash'', e, hpc', he⟩ := hen
        obtain rfl : hash' = hash'' := by simpa [hpc] using hpc'
        by_contra hc
        have hok := @FromC.prelude setup s hfrom _ hpc (completes_iff.mp (by simpa using hc)).1
        rw [he] at hok
        cases hok
    obtain ⟨hash, hmem, hc⟩ | ⟨h, event, hmem, hc⟩ := hkeep
    · rw [hd] at hmem
      obtain rfl | hmem := List.mem_cons.mp hmem
      · simp [hnot] at hc
      · exact inTransit_of_toDispatch hmem hc
    · exact inTransit_of_undelivered (by rwa [hu]) hc
  -- the list of a handle goes when the handle is destroyed; a new handle has none
  | dropped h' ha hd hu hother =>
    obtain ⟨hash, hmem, hc⟩ | ⟨h, event, hmem, hc⟩ := hkeep
    · exact inTransit_of_toDispatch (hd ▸ hmem) hc
    · by_cases hh : h = h'
      · subst hh
        obtain ⟨rfl, hpc⟩ | ⟨rfl, rfl⟩ := ha
        · exact absurd (Or.inr ⟨event, hmem, hc⟩) (hfree h rfl hpc)
        · rw [halloc.undelivered (Nat.le_refl _)] at hmem
          cases hmem
      · exact inTransit_of_undelivered (by rwa [hother h hh]) hc

theorem completed_next {a : ClientAct} (hen : Enabled setup s a) {r : ℤ}
    (hr : (s.next setup a).completed r = true) :
    s.completed r = true ∨ ∃ h event, a = .complete h event ∧ event.reqId = r := by
  have heff := effect_next hen
  generalize s.next setup a = s' at heff hr
  cases heff with
  | @complete h event =>
    by_cases hid : r = event.reqId
    · exact Or.inr ⟨h, event, rfl, hid.symm⟩
    · exact Or.inl (by simpa [hid] using hr)
  | _ => exact Or.inl hr

theorem closed_next {a : ClientAct} (hen : Enabled setup s a) {h : ℕ}
    (hclosed : ((s.next setup a).transports h).closed = true) :
    (s.transports h).closed = true ∨
      a = .zookeeperClose ∧ s.reopening = .joining h := by
  have heff := effect_next hen
  generalize s.next setup a = s' at heff hclosed
  have hstep {h' : ℕ} {act : TransportAct ZkrbEvent}
      (hact : ((s.transports h').next act).closed = (s.transports h').closed)
      (hc : ((s.step h' act).transports h).closed = true) :
      (s.transports h).closed = true := by
    rw [transports_step] at hc
    split at hc
    · next heq => rwa [hact, ← heq] at hc
    · exact hc
  cases heff with
  | complete | fire | sessionEvent | push | shutDown => exact Or.inl (hstep rfl hclosed)
  | eventThread _ hact hopen =>
    refine Or.inl (hstep ?_ hclosed)
    exact Transport.closed_internal hact
  | @queueFree orig => exact Or.inl (hstep rfl hclosed)
  -- the only step that closes a handle
  | @zookeeperClose orig hpc =>
    by_cases hh : h = orig
    · exact Or.inr ⟨rfl, hh ▸ hpc⟩
    · rw [transports_step, if_neg hh] at hclosed
      exact Or.inl hclosed
  | reopen =>
    by_cases hh : h = s.nextCzk
    · simp [hh, Transport.initial] at hclosed
    · exact Or.inl (by simpa [hh] using hclosed)
  | _ => exact Or.inl hclosed

/-- A closed handle takes on no new debts. -/
theorem owes_next {a : ClientAct} (hen : Enabled setup s a) {h : ℕ} {r : ℤ}
    (hclosed : ((s.next setup a).transports h).closed = true)
    (howes : (s.next setup a).Owes h r) : s.Owes h r := by
  obtain hout | ⟨event, hmem, hc⟩ := howes
  · left
    have heff := effect_next hen
    generalize s.next setup a = s' at heff hclosed hout
    cases heff with
    -- an open handle takes the request, and a closed one owes no new answer
    | @submit i watched r' m opts h' hpc hopen =>
      by_cases hh : h = h'
      · subst hh
        simp [accept, callTo, hopen] at hclosed
      · simp only [accept, callTo] at hout
        split at hout
        · simpa [mark_apply, hh] using hout
        · exact hout
    | @complete h' event =>
      simp only [mark_apply] at hout
      split at hout
      · cases hout
      · exact hout
    | reopen =>
      by_cases hh : h = s.nextCzk
      · simp [hh] at hout
      · simpa [hh] using hout
    | _ => exact hout
  · obtain ⟨hcomp, hid⟩ := completes_iff.mp hc
    rw [reqId_zkrbEventToRuby] at hid
    obtain hmem | rfl | rfl | rfl := mem_undelivered_of_next hen hmem
    · exact Or.inr ⟨event, hmem, hc⟩
    · -- only an outstanding request completes
      exact Or.inl (hid ▸ hen.1)
    · simp [hen.2.1] at hcomp
    · simp [hen.2.2.1] at hcomp

/-- What a handle owes belongs to issued requests. -/
theorem issued_of_owes (htracked : Tracked s) {h : ℕ} {r : ℤ} (howes : s.Owes h r) :
    ∃ x, s.issued r = some x := by
  obtain hout | ⟨event, hmem, hc⟩ := howes
  · exact htracked.issued (p := .outstanding h) (by simp [tokens, hout])
  · refine htracked.issued (p := .inHandle h) ?_
    exact List.countP_pos_iff.mpr ⟨event, hmem, hc⟩

theorem kept_setupCall (hids : Ids s) (htracked : Tracked s) (hfrom : FromC s)
    (halloc : Allocated s) (hs : Kept s) {i : ℕ} {m : Meth} {opts : ReqHash}
    (hen : Enabled setup s (.setupCall i m opts)) :
    Kept (s.next setup (.setupCall i m opts)) := by
  have hentry {r : ℤ} (hr : r ≠ s.requests.currentReqId) :
      (s.next setup (.setupCall i m opts)).requests.completionReqs r =
        s.requests.completionReqs r :=
    Requests.completionReqs_setupCall_of_ne _ _ _ _ hr
  refine ⟨fun r hr he => ?_, fun {r} hr => ?_, fun {h r} hclosed howes => ?_⟩
  · obtain ⟨x, hx⟩ := hs.issued hr
    rw [hentry (hids.ne_current_of_issued hx)] at he
    exact inTransit_next hen hfrom halloc (hs.noneLost r hr he) (by simp) (by simp)
  · obtain ⟨x, hx⟩ := hs.issued hr
    exact ⟨x, issued_next hids hen hx⟩
  · obtain ⟨x, hx⟩ := issued_of_owes htracked (owes_next hen hclosed howes)
    rw [hentry (hids.ne_current_of_issued hx)]
    exact hs.closed hclosed howes

theorem kept_next (hids : Ids s) (htracked : Tracked s) (hfrom : FromC s)
    (halloc : Allocated s) (hs : Kept s) {a : ClientAct} (hen : Enabled setup s a)
    (hok : OldIdle s a) : Kept (s.next setup a) := by
  obtain ⟨i, m, opts, rfl⟩ | hframe := setupCall_or_frame hen
  · exact kept_setupCall hids htracked hfrom halloc hs hen
  · refine ⟨fun r hr he => ?_, fun {r} hr => ?_, fun {h r} hclosed howes => ?_⟩
    · obtain ⟨hentry, hlookup⟩ := completionReqs_of_next hen hframe.ne_setupCall he
      obtain hr | ⟨h, event, rfl, rfl⟩ := completed_next hen hr
      · refine inTransit_next hen hfrom halloc (hs.noneLost r hr hentry) hlookup ?_
        rintro orig rfl hpc howes
        obtain ⟨orig', hpc', -, hclosed, -⟩ := hen
        obtain rfl : orig = orig' := by simpa [hpc] using hpc'
        exact hentry (hs.closed hclosed howes)
      · -- the event has just been enqueued
        have hmem : event ∈ ((s.next setup (.complete h event)).transports h).undelivered := by
          simp [next, undelivered_step_enqueue]
        exact inTransit_of_undelivered hmem (by simp [completes, hen.2.1])
    · rw [hframe.issued]
      obtain hr | ⟨h, event, rfl, rfl⟩ := completed_next hen hr
      · exact hs.issued hr
      · exact issued_of_owes htracked (h := h) (Or.inl hen.1)
    · -- `reopen` closes the old handle only when it owes nothing any more
      have howes' := owes_next hen hclosed howes
      by_contra he
      obtain ⟨hentry, -⟩ := completionReqs_of_next hen hframe.ne_setupCall he
      obtain hclosed | ⟨rfl, hpc⟩ := closed_next hen hclosed
      · exact hentry (hs.closed hclosed howes')
      · exact hentry (hok h r hpc howes')

end Client

end ZookeeperClient
