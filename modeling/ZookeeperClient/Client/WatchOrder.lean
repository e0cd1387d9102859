import ZookeeperClient.Client.Basic
import Mathlib.Data.List.Pairwise

/-!
# The events of one watch, in order

A watch reports any number of session events and at most one event that ends it. Its
events go through one transport and `@event_queue` to the dispatch thread without
overtaking each other, so the dispatch thread takes the final event up last.

## Main definitions

- `Client.trail` — the events of a watch from the one taken up last to those to come
- `Client.Ordered` — only the last event of a trail ends the watch

## Main results

- `ordered_of_reachable` — trails are in order in every reachable state
- `Ordered.not_takenUp` — an event on its way belongs to a watch that is still owed one
-/

namespace ZookeeperClient

open Transition

/-- The hash is a watch event for request `r`. -/
def watchOf {σ α : Type} (r : ℤ) (hash : EventHash σ α) : Bool :=
  !hash.isCompletion && hash.reqId == r

theorem watchOf_iff {σ α : Type} {r : ℤ} {hash : EventHash σ α} :
    watchOf r hash = true ↔ hash.isCompletion = false ∧ hash.reqId = r := by
  simp [watchOf]

/-- Only the last event of the list ends the watch. -/
def Orderly (l : List Bool) : Prop :=
  l.Pairwise fun a _ => a = false

theorem Orderly.sublist {l l' : List Bool} (h : Orderly l) (hl : List.Sublist l' l) :
    Orderly l' :=
  List.Pairwise.sublist hl h

/-- What comes behind can be exchanged as long as something came behind before. -/
theorem Orderly.exchange {l m : List Bool} {b : Bool} (h : Orderly (l ++ [b])) (hm : Orderly m) :
    Orderly (l ++ m) := by
  obtain ⟨hl, -, hlast⟩ := List.pairwise_append.mp h
  exact List.pairwise_append.mpr ⟨hl, hm, fun a ha _ _ => hlast a ha b (by simp)⟩

namespace Client

variable {setup : Setup} {s : Client}

/-- The watch events for `r` on their way from handle `h`. -/
def watchLine (s : Client) (h : ℕ) (r : ℤ) : List RawHash :=
  (s.line h).filter (watchOf r)

/-- The events of the watch `r` of handle `h`, `true` for one that ends the watch: the final one
if it has been taken up, those on their way, and a place for those still to come. -/
def trail (s : Client) (h : ℕ) (r : ℤ) : List Bool :=
  (if s.takenUp r then [true] else []) ++ (s.watchLine h r).map (fun hash => !hash.isSession) ++
    if s.watches h r then [false] else []

/-- The state of all watches and their events. -/
structure Ordered (s : Client) : Prop where
  /-- Watch events come from the handle on which the watch has been installed. -/
  inHandle : ∀ {h r event}, event ∈ (s.transports h).undelivered →
    watchOf r (zkrbEventToRuby event) = true → r ≠ ZKRB_GLOBAL_CB_REQ → s.home r = some h
  inRuby : ∀ {r hash}, hash ∈ s.toDispatch → watchOf r hash = true → r ≠ ZKRB_GLOBAL_CB_REQ →
    s.home r ≠ none
  takenUp : ∀ {r}, s.takenUp r = true → r ≠ ZKRB_GLOBAL_CB_REQ → s.home r ≠ none
  live : ∀ {h r}, s.watches h r = true → s.home r = some h
  trail : ∀ {h r}, s.home r = some h → Orderly (s.trail h r)
  below : ∀ {h r}, s.home r = some h → h < s.nextCzk
  issued : ∀ {h r}, s.home r = some h → ∃ m opts w, s.issued r = some (m, opts) ∧
    opts.watcher = some w
  /-- A call that has not submitted its request has no watch yet. -/
  fresh : ∀ {i r m opts}, (s.calls i).request = some (r, m, opts) → s.home r = none

theorem ordered_initial : Ordered (initial setup) := by
  constructor <;> simp [initial, CallPc.request, toDispatch]

/-! ## What a step does to the watches -/

theorem home_next {a : ClientAct} (hen : Enabled setup s a) (r : ℤ) :
    (s.next setup a).home r = s.home r ∨
      ∃ i watched m opts h, a = .submit i watched ∧ s.calls i = .located r m opts h ∧
        opts.watcher.isSome ∧ (s.next setup a).home r = some h := by
  have heff := effect_next hen
  generalize s.next setup a = s' at heff ⊢
  cases heff with
  | @submit i watched r' m opts h hpc hopen =>
    by_cases hw : (opts.watcher.isSome && watched) = true
    · by_cases hr : r = r'
      · subst hr
        refine Or.inr ⟨i, watched, m, opts, h, rfl, hpc, ?_, by simp [accept, hw]⟩
        simp only [Bool.and_eq_true] at hw
        exact hw.1
      · exact Or.inl (by simp [accept, callTo, hw, hr])
    · exact Or.inl (by simp [accept, callTo, hw])
  | _ => exact Or.inl rfl

/-- A watch stays where it has been installed. -/
theorem home_extends (hs : Ordered s) {a : ClientAct} (hen : Enabled setup s a) {h : ℕ} {r : ℤ}
    (hr : s.home r = some h) : (s.next setup a).home r = some h := by
  obtain hsame | ⟨i, watched, m, opts, h', -, hpc, -⟩ := home_next hen r
  · rw [hsame, hr]
  · have hfresh := hs.fresh (i := i) (r := r) (by rw [hpc]; rfl)
    rw [hr] at hfresh
    cases hfresh

theorem watches_next {a : ClientAct} (hen : Enabled setup s a) {h : ℕ} {r : ℤ}
    (hw : (s.next setup a).watches h r = true) :
    s.watches h r = true ∨
      ∃ i watched m opts, a = .submit i watched ∧ s.calls i = .located r m opts h ∧
        (s.next setup a).home r = some h := by
  have heff := effect_next hen
  generalize s.next setup a = s' at heff hw ⊢
  cases heff with
  -- a watch is installed with the call that asks for it
  | @submit i watched r' m opts h' hpc hopen =>
    by_cases hwatch : (opts.watcher.isSome && watched) = true
    · simp only [accept, callTo, hwatch, if_true, mark_apply] at hw
      split at hw
      · next heq =>
        obtain ⟨rfl, rfl⟩ := heq
        exact Or.inr ⟨i, watched, m, opts, rfl, hpc, by simp [accept, hwatch]⟩
      · exact Or.inl hw
    · exact Or.inl (by simpa [accept, callTo, hwatch] using hw)
  | @fire h' event =>
    simp only at hw
    split at hw
    · exact Or.inl hw
    · simp only [mark_apply] at hw
      split at hw
      · cases hw
      · exact Or.inl hw
  | reopen =>
    by_cases hh : h = s.nextCzk
    · simp [hh] at hw
    · exact Or.inl (by simpa [hh] using hw)
  | _ => exact Or.inl hw

theorem takeUp_apply (hash : RawHash) (r : ℤ) :
    s.takeUp hash r = if watchOf r hash && !hash.isSession then true else s.takenUp r := by
  unfold takeUp
  by_cases hc : hash.isCompletion = true
  · simp [hc, watchOf]
  · by_cases hs : hash.isSession = true
    · simp [hs]
    · by_cases hr : r = hash.reqId
      · simp [hc, hs, hr, watchOf]
      · simp [hc, hs, hr, watchOf, Ne.symm hr]

/-- The final event of a watch is taken up by the dispatch thread. -/
theorem takenUp_next {a : ClientAct} (hen : Enabled setup s a) :
    ((s.next setup a).takenUp = s.takenUp ∧ a ≠ .lookup ∧ a ≠ .preludeRaises) ∨
      ∃ hash, s.dispatcher = .received hash ∧ (s.next setup a).takenUp = s.takeUp hash ∧
        (a = .lookup ∨ a = .preludeRaises) := by
  have heff := effect_next hen
  generalize s.next setup a = s' at heff ⊢
  cases heff with
  | @preludeRaises hash e hpc => exact Or.inr ⟨hash, hpc, rfl, Or.inr rfl⟩
  | @lookup hash hpc => exact Or.inr ⟨hash, hpc, rfl, Or.inl rfl⟩
  | _ => exact Or.inl ⟨rfl, by simp, by simp⟩

/-! ## What a step does to a trail -/

/-- An event of the watch `r` in a transport is in that of the handle of `r`. -/
theorem Ordered.not_watchOf (hs : Ordered s) {h h' : ℕ} {r : ℤ} {event : ZkrbEvent}
    (hr : s.home r = some h) (hglobal : r ≠ ZKRB_GLOBAL_CB_REQ) (hne : h' ≠ h)
    (hmem : event ∈ (s.transports h').undelivered) :
    watchOf r (zkrbEventToRuby event) = false := by
  by_contra hw
  have hhome := hs.inHandle hmem (by simpa using hw) hglobal
  rw [hr] at hhome
  exact hne (Option.some.inj hhome).symm

/-- A step that does not report a session's event leaves the watch events of a request in their
order: it reports one more, takes the first up, or drops some. -/
theorem watchLine_next (hs : Ordered s) {a : ClientAct} (hen : Enabled setup s a) {h : ℕ} {r : ℤ}
    (hr : s.home r = some h) (hglobal : r ≠ ZKRB_GLOBAL_CB_REQ) :
    (∃ hash, (a = .lookup ∨ a = .preludeRaises) ∧ s.dispatcher = .received hash ∧
        s.watchLine h r =
          (if watchOf r hash then [hash] else []) ++ (s.next setup a).watchLine h r) ∨
      (∃ event, a = .fire h event ∧ event.reqId = r ∧
        (s.next setup a).watchLine h r = s.watchLine h r ++ [zkrbEventToRuby event]) ∨
      (a ≠ .lookup ∧ a ≠ .preludeRaises) ∧ (∀ event, a = .fire h event → event.reqId ≠ r) ∧
        List.Sublist ((s.next setup a).watchLine h r) (s.watchLine h r) := by
  cases flow_next hen with
  | still ha hd hu =>
    have hsame : (s.next setup a).watchLine h r = s.watchLine h r := by
      simp only [watchLine, line, hd, hu]
    by_cases hfire : ∃ event, a = .fire h event ∧ event.reqId = r
    · -- a report is never still
      obtain ⟨event, rfl, -⟩ := hfire
      have hlen := congrArg List.length (hu h)
      simp [next, undelivered_step_enqueue] at hlen
    · exact Or.inr (Or.inr ⟨ha, fun event he hid => hfire ⟨event, he, hid⟩,
        hsame ▸ List.Sublist.refl _⟩)
  | reported h' event ha hd hu =>
    by_cases hself : h' = h ∧ watchOf r (zkrbEventToRuby event) = true
    · -- an event of the watch itself can only come from `fire`
      obtain ⟨rfl, hw⟩ := hself
      obtain ⟨hc, hid⟩ := watchOf_iff.mp hw
      have hline : (s.next setup a).watchLine h' r =
          s.watchLine h' r ++ [zkrbEventToRuby event] := by
        simp [watchLine, line, hd, hu, hw]
      obtain rfl | rfl | rfl := ha
      · simp [hen.2.1] at hc
      · exact Or.inr (Or.inl ⟨event, rfl, by simpa using hid, hline⟩)
      · exact absurd (hid.symm.trans ((reqId_zkrbEventToRuby event).trans hen.2.1)) hglobal
    · have hsame : (s.next setup a).watchLine h r = s.watchLine h r := by
        by_cases hh : h = h'
        · subst hh
          have hw : watchOf r (zkrbEventToRuby event) = false := by simpa using hself
          simp [watchLine, line, hd, hu, hw]
        · simp [watchLine, line, hd, hu, hh]
      refine Or.inr (Or.inr ⟨?_, ?_, hsame ▸ List.Sublist.refl _⟩)
      · obtain rfl | rfl | rfl := ha <;> simp
      · rintro event' rfl hid
        obtain ⟨rfl, rfl⟩ : h = h' ∧ event' = event := by simpa using ha
        exact hself ⟨rfl, by simp [watchOf, hen.2.1, hid]⟩
  | pushed h' event hd hu hother =>
    refine Or.inr (Or.inr ⟨by simp, by simp, ?_⟩)
    by_cases hh : h' = h
    · subst hh
      simp [watchLine, line, hd, hu]
    · have hmem : event ∈ (s.transports h').undelivered := by simp [hu]
      -- another handle holds no event of the watch, which it is not the home of
      have hw := hs.not_watchOf hr hglobal hh hmem
      simp [watchLine, line, hd, hother h (Ne.symm hh), hw]
  | takenUp hash ha hpc hd hu =>
    refine Or.inl ⟨hash, ha, hpc, ?_⟩
    simp only [watchLine, line, hd, hu, List.cons_append, List.filter_cons]
    split <;> simp
  | dropped h' ha hd hu hother =>
    refine Or.inr (Or.inr ⟨?_, ?_, ?_⟩)
    · obtain ⟨rfl, -⟩ | ⟨rfl, -⟩ := ha <;> simp
    · obtain ⟨rfl, -⟩ | ⟨rfl, -⟩ := ha <;> simp
    · simp only [watchLine, line, hd]
      refine ((List.Sublist.map _ ?_).append_left _).filter _
      by_cases hh : h = h'
      · rw [hh, hu]
        exact List.nil_sublist _
      · rw [hother h hh]

theorem watches_le (hs : Ordered s) {a : ClientAct} (hen : Enabled setup s a) {h : ℕ} {r : ℤ}
    (hr : s.home r = some h) (hw : (s.next setup a).watches h r = true) :
    s.watches h r = true := by
  obtain hw | ⟨i, watched, m, opts, -, hpc, -⟩ := watches_next hen hw
  · exact hw
  · have hfresh := hs.fresh (i := i) (r := r) (by rw [hpc]; rfl)
    rw [hr] at hfresh
    cases hfresh

/-- The trail of an installed watch stays in order. -/
theorem orderly_trail_next (hs : Ordered s) {a : ClientAct} (hen : Enabled setup s a) {h : ℕ}
    {r : ℤ} (hr : s.home r = some h) (hglobal : r ≠ ZKRB_GLOBAL_CB_REQ) :
    Orderly ((s.next setup a).trail h r) := by
  have hold := hs.trail hr
  have hlive : List.Sublist (if (s.next setup a).watches h r then [false] else [])
      (if s.watches h r then [false] else []) := by
    split
    · next hw => rw [if_pos (watches_le hs hen hr hw)]
    · exact List.nil_sublist _
  rcases watchLine_next hs hen hr hglobal with
    ⟨hash, ha, hpc, hline⟩ | ⟨event, rfl, rfl, hline⟩ | ⟨hne, -, hline⟩
  · -- the first event on its way is taken up
    have htaken : (s.next setup a).takenUp = s.takeUp hash := by
      obtain ⟨-, hne⟩ | ⟨hash', hpc', htaken, -⟩ := takenUp_next hen
      · obtain rfl | rfl := ha
        · exact absurd rfl hne.1
        · exact absurd rfl hne.2
      · obtain rfl : hash = hash' := by simpa [hpc] using hpc'
        exact htaken
    refine hold.sublist ?_
    unfold trail
    rw [htaken, takeUp_apply, hline, List.map_append, ← List.append_assoc]
    refine List.Sublist.append (List.Sublist.append_right ?_ _) hlive
    by_cases hw : watchOf r hash = true <;> by_cases hsession : hash.isSession = true <;>
      simp [hw, hsession]
  · -- the C client reports an event of the watch, which it therefore holds
    have hw : s.watches h event.reqId = true := hen.1
    have htaken : (s.next setup (.fire h event)).takenUp = s.takenUp := rfl
    unfold trail at hold ⊢
    rw [if_pos hw] at hold
    rw [htaken, hline, List.map_append, ← List.append_assoc, List.append_assoc]
    refine hold.exchange ?_
    by_cases hsession : (zkrbEventToRuby event).isSession = true
    · simp [next, step, hsession, hw, Orderly]
    · simp [next, step, hsession, mark_apply, Orderly]
  · -- events may have been dropped, together with their handle
    have htaken : (s.next setup a).takenUp = s.takenUp := by
      obtain ⟨hsame, -⟩ | ⟨-, -, -, rfl | rfl⟩ := takenUp_next hen
      · exact hsame
      · exact absurd rfl hne.1
      · exact absurd rfl hne.2
    refine hold.sublist ?_
    unfold trail
    rw [htaken]
    exact List.Sublist.append ((hline.map _).append_left _) hlive

/-- A watch that has just been installed has no events yet. -/
theorem orderly_trail_submit (hs : Ordered s) {i : ℕ} {watched : Bool} {r : ℤ} {m : Meth}
    {opts : ReqHash} {h : ℕ} (hpc : s.calls i = .located r m opts h)
    (hglobal : r ≠ ZKRB_GLOBAL_CB_REQ) :
    Orderly ((s.next setup (.submit i watched)).trail h r) := by
  have hfresh : s.home r = none := hs.fresh (i := i) (r := r) (by rw [hpc]; rfl)
  have hline : (s.next setup (.submit i watched)).watchLine h r = [] := by
    refine List.filter_eq_nil_iff.mpr fun hash hmem hw => ?_
    simp only [next, hpc] at hmem
    obtain hmem | hmem := List.mem_append.mp hmem
    · exact hs.inRuby hmem hw hglobal hfresh
    · obtain ⟨event, hevent, rfl⟩ := List.mem_map.mp hmem
      have hhome := hs.inHandle hevent hw hglobal
      rw [hfresh] at hhome
      cases hhome
  have htaken : (s.next setup (.submit i watched)).takenUp r = false := by
    simp only [next, hpc]
    by_contra ht
    exact hs.takenUp (by simpa [accept, callTo] using ht) hglobal hfresh
  unfold trail
  rw [hline, htaken]
  by_cases hw : (s.next setup (.submit i watched)).watches h r = true <;> simp [hw, Orderly]

/-! ## What a step does to the rest of the state of the watches -/

theorem home_ne_none_next (hs : Ordered s) {a : ClientAct} (hen : Enabled setup s a) {r : ℤ}
    (hr : s.home r ≠ none) : (s.next setup a).home r ≠ none := by
  obtain ⟨h, hh⟩ := Option.ne_none_iff_exists'.mp hr
  rw [home_extends hs hen hh]
  simp

theorem inHandle_next (hs : Ordered s) {a : ClientAct} (hen : Enabled setup s a) {h : ℕ} {r : ℤ}
    {event : ZkrbEvent} (hmem : event ∈ ((s.next setup a).transports h).undelivered)
    (hw : watchOf r (zkrbEventToRuby event) = true) (hr : r ≠ ZKRB_GLOBAL_CB_REQ) :
    (s.next setup a).home r = some h := by
  obtain ⟨hc, hid⟩ := watchOf_iff.mp hw
  rw [reqId_zkrbEventToRuby] at hid
  obtain hmem | rfl | rfl | rfl := mem_undelivered_of_next hen hmem
  · exact home_extends hs hen (hs.inHandle hmem hw hr)
  · simp [hen.2.1] at hc
  · -- the C client that has just reported the event holds the watch
    exact home_extends hs hen (hs.live (hid ▸ hen.1))
  · exact absurd (hid.symm.trans hen.2.1) hr

theorem inRuby_next (hs : Ordered s) {a : ClientAct} (hen : Enabled setup s a) {r : ℤ}
    {hash : RawHash} (hmem : hash ∈ (s.next setup a).toDispatch) (hw : watchOf r hash = true)
    (hr : r ≠ ZKRB_GLOBAL_CB_REQ) : (s.next setup a).home r ≠ none := by
  refine home_ne_none_next hs hen ?_
  obtain hbefore | ⟨h, event, hbefore, rfl⟩ := mem_toDispatch_of_next hen hmem
  · exact hs.inRuby hbefore hw hr
  · simp [hs.inHandle hbefore hw hr]

theorem home_of_takenUp_next (hs : Ordered s) {a : ClientAct} (hen : Enabled setup s a) {r : ℤ}
    (ht : (s.next setup a).takenUp r = true) (hr : r ≠ ZKRB_GLOBAL_CB_REQ) :
    (s.next setup a).home r ≠ none := by
  refine home_ne_none_next hs hen ?_
  obtain ⟨hsame, -⟩ | ⟨hash, hpc, htaken, -⟩ := takenUp_next hen
  · exact hs.takenUp (hsame ▸ ht) hr
  · rw [htaken, takeUp_apply] at ht
    split at ht
    · next hw =>
      simp only [Bool.and_eq_true] at hw
      exact hs.inRuby (by simp [toDispatch_of_received hpc]) hw.1 hr
    · exact hs.takenUp ht hr

/-- The trail of a watch is in order, whether the watch was installed before or is now. -/
theorem trail_next (hids : Ids s) (hs : Ordered s) {a : ClientAct} (hen : Enabled setup s a)
    {h : ℕ} {r : ℤ} (hr : (s.next setup a).home r = some h) :
    Orderly ((s.next setup a).trail h r) := by
  obtain hsame | ⟨i, watched, m, opts, h', rfl, hpc, -, hhome⟩ := home_next hen r
  · rw [hsame] at hr
    obtain ⟨m, opts, w, hx, -⟩ := hs.issued hr
    exact orderly_trail_next hs hen hr (hids.ne_global hx)
  · obtain rfl : h' = h := Option.some.inj (hhome.symm.trans hr)
    have hx := hids.request (i := i) (by rw [hpc]; rfl)
    exact orderly_trail_submit hs hpc (hids.ne_global hx)

/-- A call that has not submitted its request has no watch yet. -/
theorem fresh_next (hids : Ids s) (hs : Ordered s) {a : ClientAct} (hen : Enabled setup s a)
    {i : ℕ} {r : ℤ} {m : Meth} {opts : ReqHash}
    (hreq : ((s.next setup a).calls i).request = some (r, m, opts)) :
    (s.next setup a).home r = none := by
  obtain ⟨j, m', opts', rfl⟩ | hframe := setupCall_or_frame hen
  · change s.home r = none
    by_cases hi : i = j
    · -- the id has not been issued before
      subst hi
      obtain ⟨rfl, -⟩ : s.requests.currentReqId = r ∧ _ := by
        simpa [next, callTo, CallPc.request] using hreq
      by_contra hhome
      obtain ⟨h, hh⟩ := Option.ne_none_iff_exists'.mp hhome
      obtain ⟨m, opts, w, hx, -⟩ := hs.issued hh
      exact hids.ne_current_of_issued hx rfl
    · exact hs.fresh (i := i) (by simpa [next, callTo, hi] using hreq)
  · have hreq' := hframe.request i _ hreq
    obtain hsame | ⟨j, watched, m', opts', h', rfl, hpc, -⟩ := home_next hen r
    · rw [hsame, hs.fresh hreq']
    · -- the call that submits has no request left
      obtain rfl : i = j :=
        hids.unique (CallPc.reqId_of_request hreq') (by rw [hpc]; rfl)
      simp [next, hpc, callTo, accept, CallPc.request] at hreq

theorem ordered_next (hids : Ids s) (halloc : Allocated s) (hs : Ordered s) {a : ClientAct}
    (hen : Enabled setup s a) : Ordered (s.next setup a) := by
  refine ⟨inHandle_next hs hen, inRuby_next hs hen, home_of_takenUp_next hs hen,
    fun {h r} hw => ?_, trail_next hids hs hen, fun {h r} hr => ?_, fun {h r} hr => ?_,
    fresh_next hids hs hen⟩
  · obtain hw | ⟨-, -, -, -, -, -, hhome⟩ := watches_next hen hw
    · exact home_extends hs hen (hs.live hw)
    · exact hhome
  · have hle : s.nextCzk ≤ (s.next setup a).nextCzk := by
      obtain ⟨-, hsame, -⟩ | ⟨-, -, hsucc⟩ := czk_next hen <;> omega
    obtain hsame | ⟨i, watched, m, opts, h', rfl, hpc, -, hhome⟩ := home_next hen r
    · exact Nat.lt_of_lt_of_le (hs.below (hsame ▸ hr)) hle
    · obtain rfl : h' = h := Option.some.inj (hhome.symm.trans hr)
      exact Nat.lt_of_lt_of_le (halloc.refs.call hpc) hle
  · obtain hsame | ⟨i, watched, m, opts, h', rfl, hpc, hw, hhome⟩ := home_next hen r
    · obtain ⟨m, opts, w, hx, hw⟩ := hs.issued (hsame ▸ hr)
      exact ⟨m, opts, w, issued_next hids hen hx, hw⟩
    · obtain ⟨w, hw⟩ := Option.isSome_iff_exists.mp hw
      have hx := hids.request (i := i) (by rw [hpc]; rfl)
      exact ⟨m, opts, w, issued_next hids hen hx, hw⟩

theorem ordered_of_reachable {ok : Client → ClientAct → Prop}
    (h : (client setup).Reachable ok s) : Ordered s := by
  refine h.invariant_under (I := Ordered) (J := fun s => Ids s ∧ Allocated s)
    (fun _ hr => ⟨ids_of_reachable hr, allocated_of_reachable hr⟩) ?_
    fun _ _ hJ hs hen _ => ordered_next hJ.1 hJ.2 hs hen
  rintro _ rfl
  exact ordered_initial

/-- As long as an event of a watch is on its way, the final one has not been taken up. -/
theorem Ordered.not_takenUp (hs : Ordered s) {h : ℕ} {r : ℤ} (hr : s.home r = some h)
    {hash : RawHash} (hmem : hash ∈ s.line h) (hw : watchOf r hash = true) :
    s.takenUp r = false := by
  by_contra ht
  have horder := hs.trail hr
  have hmem' : hash ∈ s.watchLine h r := List.mem_filter.mpr ⟨hmem, hw⟩
  rw [Bool.not_eq_false] at ht
  rw [Client.trail, if_pos ht, List.append_assoc, List.singleton_append] at horder
  have hfirst := List.rel_of_pairwise_cons horder
    (List.mem_append_left _ (List.mem_map_of_mem hmem'))
  cases hfirst

end Client

end ZookeeperClient
