import ZookeeperClient.Operations.Native
import ZookeeperClient.Ruby.SessionEvents

/-!
# What a rejected operation leaves in the request tables

An operation of the C backend may raise or return an error code at many points: in the checks of
`lib/zookeeper.rb`, in the type checks of the extension, at a handle that has been closed in the
meantime, at the submission, or with the answer to a synchronous call. `setup_call` stands
between the first of these and all others, and nothing undoes what it has registered.

## Main definitions

- `OperationError.early` — the exceptions that are raised before `setup_call`
- `Rejected` — the call raises, or fails without anything accepted by the C client
- `Requests.SameEntries`, `OwnEntries` — what is left in the tables
- `Traces` — how the outcome of a call tells what it has left

## Main results

- `traces_of_reached` — every call of every operation
- `not_sameEntries_of_rejected` — a rejected call that leaves an entry
-/

namespace ZookeeperClient

/-- The exception is one of those that `assert_open` and the checks of the options raise. -/
def OperationError.early : OperationError → Bool
  | .sessionExpired | .notConnected | .badArguments _ | .dataTooLarge => true
  | .typeError | .rangeError | .noMethodError | .runtimeError _ | .undefined => false

/-- The call raises, or returns another code than `ZOK` without the C client having accepted a
completion or a watch for it. -/
def Rejected (answer : CAnswer) (run : OperationRun CompletionFn) : Prop :=
  (∃ e, run.result = .error e) ∨
    ∃ rv fn, run.result = .ok (rv, fn) ∧ rv.rc ≠ ZOK ∧ answer.accepted = false

/-- `@completion_reqs` and `@watcher_reqs` hold the same entries. -/
def Requests.SameEntries (t t' : Requests) : Prop :=
  t'.completionReqs = t.completionReqs ∧ t'.watcherReqs = t.watcherReqs

/-- The tables hold the entries they held, and what `setup_call` registers for the call under
the request id that it takes. -/
structure OwnEntries (methName : Meth) (options : Options) (t t' : Requests) : Prop where
  completion (r : ℤ) : t'.completionReqs r =
    if r = t.currentReqId ∧ (options.get .callback).truthy = true then
      some { callback := (Requests.wrapCallback methName options.toReqHash).callback
             context := options.obj .callbackContext }
    else t.completionReqs r
  watcher (r : ℤ) : t'.watcherReqs r =
    if r = t.currentReqId ∧ (options.get .watcher).truthy = true then
      some { watcher := options.toReqHash.watcher, context := options.obj .watcherContext }
    else t.watcherReqs r

/-- What the outcome of a call says about the tables: if an early exception is raised they are
as before; otherwise they have the call's own entries in addition, so they are as before
exactly if it has been given neither a callback nor a watcher. -/
structure Traces (methName : Meth) (options : Options) (t : Requests)
    (run : OperationRun CompletionFn) : Prop where
  early (e : OperationError) (he : run.result = .error e) (hearly : e.early = true) :
    t.SameEntries run.requests
  late (hlate : ∀ e, run.result = .error e → e.early = false) :
    OwnEntries methName options t run.requests
  sameEntries_iff : t.SameEntries run.requests ↔
    (∃ e, run.result = .error e ∧ e.early = true) ∨
      (options.get .callback).truthy = false ∧ (options.get .watcher).truthy = false

/-! ## Where the exceptions come from -/

section Exceptions

variable {α β : Type}

/-- Only exceptions of the backend are raised. -/
def Late (x : Except OperationError α) : Prop :=
  ∀ e, x = .error e → e.early = false

/-- Only exceptions of the checks are raised. -/
def Early (x : Except OperationError α) : Prop :=
  ∀ e, x = .error e → e.early = true

theorem late_ok (a : α) : Late (.ok a : Except OperationError α) := nofun

theorem late_error {e : OperationError} (h : e.early = false) :
    Late (.error e : Except OperationError α) := by
  rintro _ ⟨⟩
  exact h

theorem early_ok (a : α) : Early (.ok a : Except OperationError α) := nofun

theorem early_error {e : OperationError} (h : e.early = true) :
    Early (.error e : Except OperationError α) := by
  rintro _ ⟨⟩
  exact h

theorem Late.bind {x : Except OperationError α} {f : α → Except OperationError β} (hx : Late x)
    (hf : ∀ a, Late (f a)) : Late (x >>= f) := by
  cases x with
  | error e => exact late_error (hx e rfl)
  | ok a => exact hf a

theorem Early.bind {x : Except OperationError α} {f : α → Except OperationError β}
    (hx : Early x) (hf : ∀ a, Early (f a)) : Early (x >>= f) := by
  cases x with
  | error e => exact early_error (hx e rfl)
  | ok a => exact hf a

theorem Late.map {x : Except OperationError α} (hx : Late x) (f : α → β) : Late (x.map f) := by
  cases x with
  | error e => exact late_error (hx e rfl)
  | ok a => exact late_ok _

theorem late_mapM {f : α → Except OperationError β} (hf : ∀ a, Late (f a)) (as : List α) :
    Late (as.mapM f) := by
  induction as with
  | nil =>
    rw [List.mapM_nil]
    exact late_ok _
  | cons a as ih =>
    rw [List.mapM_cons]
    exact (hf a).bind fun _ => ih.bind fun _ => late_ok _

theorem late_checkString (v : RubyValue) : Late (checkString v) := by
  unfold checkString
  split
  · exact late_ok _
  · exact late_error rfl

theorem late_checkInt (n : ℤ) : Late (checkInt n) := by
  unfold checkInt
  split
  · exact late_ok _
  · exact late_error rfl

theorem late_num2int (v : RubyValue) : Late (num2int v) := by
  unfold num2int
  split
  · exact late_checkInt _
  · exact late_checkInt _
  · exact late_error rfl

theorem late_fix2int (v : RubyValue) : Late (fix2int v) := by
  unfold fix2int
  split
  · split
    · exact late_checkInt _
    · exact late_error rfl
  · exact late_error rfl

theorem late_rstring (v : RubyValue) : Late (rstring v) := by
  unfold rstring
  split
  · exact late_ok _
  · exact late_ok _
  · exact late_error rfl

theorem late_zkrbRubyToId (v : RubyValue) : Late (zkrbRubyToId v) := by
  unfold zkrbRubyToId
  split
  · exact (late_rstring _).bind fun _ => (late_rstring _).bind fun _ => late_ok _
  · exact late_ok _

theorem late_zkrbRubyToAclvector (v : RubyValue) : Late (zkrbRubyToAclvector v) := by
  unfold zkrbRubyToAclvector
  split
  · refine late_mapM (fun v => ?_) _
    unfold zkrbRubyToAcl
    split
    · exact (late_num2int _).bind fun _ => (late_zkrbRubyToId _).bind fun _ => late_ok _
    · exact (late_num2int _).bind fun _ => late_ok _
  · exact late_error rfl

theorem late_standardPreamble (h : CHandle) (path : RubyValue) :
    Late (h.standardPreamble path) := by
  refine (late_checkString path).bind fun _ => ?_
  split
  · exact late_ok _
  · exact late_error rfl

theorem late_unlessNil {f : RubyValue → Except OperationError α} (hf : ∀ v, Late (f v))
    (v : RubyValue) : Late (unlessNil f v) := by
  unfold unlessNil
  split
  · exact late_ok _
  · exact (hf v).bind fun _ => late_ok _

/-- What the backend raises is no early exception, in whichever operation. -/
theorem late_call (methName : Meth) (h : CHandle) (reqId : ℤ) (options : Options) :
    Late ((Zookeeper.operation CompletionFn methName).call h.base reqId options) := by
  have hpre {β : Type} {f : Unit → Except OperationError β} (path : RubyValue)
      (hf : ∀ u, Late (f u)) : Late (h.standardPreamble path >>= f) :=
    (late_standardPreamble h path).bind hf
  cases methName with
  | get | getChildren | stat | sync | getAcl => exact hpre _ fun _ => late_ok _
  | set =>
    exact hpre _ fun _ => (late_unlessNil late_checkString _).bind fun _ =>
      (late_num2int _).bind fun _ => late_ok _
  | create =>
    refine Late.bind (hpre _ fun _ => ?_) fun _ => late_ok _
    exact (late_unlessNil late_checkString _).bind fun _ =>
      (late_unlessNil late_zkrbRubyToAclvector _).bind fun _ => late_ok _
  | delete => exact hpre _ fun _ => (late_fix2int _).bind fun _ => late_ok _
  | setAcl =>
    exact hpre _ fun _ => (late_zkrbRubyToAclvector _).bind fun _ =>
      (late_num2int _).bind fun _ => late_ok _

/-- What the checks raise is an early exception, in whichever operation. -/
theorem early_check (op : Operation CompletionFn) (h : CHandle) (options : Options) :
    Early (op.check h.base options) := by
  refine Early.bind ?_ fun _ => Early.bind ?_ fun _ => Early.bind ?_ fun _ => ?_
  · show Early h.assertOpen
    unfold CHandle.assertOpen
    split
    · exact early_error rfl
    · split
      · exact early_ok _
      · exact early_error rfl
  · unfold assertSupportedKeys
    split
    · exact early_ok _
    · exact early_error rfl
  · unfold assertRequiredKeys
    split
    · exact early_ok _
    · exact early_error rfl
  · split
    · unfold assertValidDataSize
      split
      · exact early_ok _
      · split
        · exact early_ok _
        · split
          · exact early_error rfl
          · exact early_ok _
    · exact early_ok _

end Exceptions

/-! ## The tables -/

/-- A dispatch adds no entry: a session event puts back what the lookup has found. -/
theorem restoreEntry_eq_none {hash : CallbackHash} {t t' : Requests} {r : ℤ}
    (hr : t.completionReqs r = none ∧ t.watcherReqs r = none)
    (h : restoreEntry hash (takeEntry hash t).1 (takeEntry hash t).2 = .ok t') :
    t'.completionReqs r = none ∧ t'.watcherReqs r = none := by
  have htaken : (takeEntry hash t).2.completionReqs r = none ∧
      (takeEntry hash t).2.watcherReqs r = none :=
    ⟨completionReqs_takeEntry_eq_none hr.1, watcherReqs_takeEntry_eq_none hr.2⟩
  cases hs : hash.isSession with
  | false =>
    rw [restoreEntry_of_not_session hs] at h
    exact Except.ok.inj h ▸ htaken
  | true =>
    obtain ⟨hc, callOpts, hentry, rfl⟩ := restoreEntry_session_eq_ok hs h
    have hne : r ≠ hash.reqId := by
      rintro rfl
      rw [takeEntry_watch hc] at hentry
      cases hr.2.symm.trans hentry
    exact ⟨htaken.1, (Requests.watcherReqs_setupWatcher_of_ne _ _ _ _ hne).trans htaken.2⟩

theorem watcherReqs_flush_eq_none {defaultWatcher : Handler} {t : Requests} {r : ℤ}
    (hr : 0 ≤ r) : (t.flush defaultWatcher).watcherReqs r = none := by
  have hne : r ≠ ZKRB_GLOBAL_CB_REQ := by
    simp only [ZKRB_GLOBAL_CB_REQ]
    omega
  show Function.update (fun _ => none) ZKRB_GLOBAL_CB_REQ _ r = none
  rw [Function.update_of_ne hne]

/-- Neither table has an entry under an id that has not been given yet. -/
theorem Requests.Reached.fresh {debug : Bool} {defaultWatcher : Handler} {t : Requests}
    (ht : Reached debug defaultWatcher t) {r : ℤ} (hr : t.currentReqId ≤ r) :
    t.completionReqs r = none ∧ t.watcherReqs r = none := by
  induction ht with
  | initial => exact ⟨rfl, watcherReqs_flush_eq_none hr⟩
  | @apply t _ act ih =>
    have hold := ih (Int.le_trans (currentReqId_le_apply debug t act) hr)
    cases act with
    | call methName opts =>
      have hlt : t.currentReqId + 1 ≤ r := by
        rwa [TableAct.apply, Requests.currentReqId_setupCall] at hr
      have hne : r ≠ t.currentReqId := by omega
      simp only [TableAct.apply]
      rw [Requests.completionReqs_setupCall_of_ne t _ _ _ hne,
        Requests.watcherReqs_setupCall_of_ne t _ _ _ hne]
      exact hold
    | dispatch event =>
      simp only [TableAct.apply]
      obtain h | h | h := dispatchEvent_requests debug t event
      · rw [h]
        exact hold
      · rw [h]
        exact ⟨completionReqs_takeEntry_eq_none hold.1, watcherReqs_takeEntry_eq_none hold.2⟩
      · exact restoreEntry_eq_none hold h
  | @flush t ht ih =>
    exact ⟨(ih hr).1, watcherReqs_flush_eq_none (Int.le_trans ht.currentReqId_nonneg hr)⟩

theorem ownEntries_setupCall (methName : Meth) (options : Options) (t : Requests) :
    OwnEntries methName options t (t.setupCall methName options.toReqHash) := by
  refine ⟨fun r => ?_, fun r => ?_⟩
  · rw [Requests.completionReqs_setupCall, Options.isSome_callback_toReqHash]
    cases (options.get .callback).truthy with
    | false => simp
    | true =>
      simp only [↓reduceIte, and_true, Function.update_apply]
      rfl
  · rw [Requests.watcherReqs_setupCall, Options.isSome_watcher_toReqHash]
    cases (options.get .watcher).truthy with
    | false => simp
    | true =>
      simp only [↓reduceIte, and_true, Function.update_apply]
      rfl

/-- Under a new id, a call's own entries change the tables exactly if there are any. -/
theorem OwnEntries.sameEntries_iff {methName : Meth} {options : Options} {t t' : Requests}
    (h : OwnEntries methName options t t')
    (hfresh : t.completionReqs t.currentReqId = none ∧ t.watcherReqs t.currentReqId = none) :
    t.SameEntries t' ↔
      (options.get .callback).truthy = false ∧ (options.get .watcher).truthy = false := by
  constructor
  · rintro ⟨hc, hw⟩
    constructor
    · by_contra htrue
      have hown := h.completion t.currentReqId
      rw [hc, hfresh.1, if_pos ⟨rfl, by simpa using htrue⟩] at hown
      cases hown
    · by_contra htrue
      have hown := h.watcher t.currentReqId
      rw [hw, hfresh.2, if_pos ⟨rfl, by simpa using htrue⟩] at hown
      cases hown
  · rintro ⟨hc, hw⟩
    constructor
    · funext r
      rw [h.completion, if_neg (by simp [hc])]
    · funext r
      rw [h.watcher, if_neg (by simp [hw])]

/-- `zk.get(:path => "/", :callback => cb)` on a client whose handle another thread closes between
`assert_open` and the call of the extension. -/
def closedMeanwhile : CHandle where
  host := []
  state := 3
  connected := true
  isOpen := false
  answer :=
    { rc := 0, data := none, stat := ⟨0, 0, 0, 0, 0, 0, 0, 0, 0, 0, 0⟩, strings := [],
      realpath := [], acls := [], accepted := false }

/-- The options of that call. -/
def getOptions : Options :=
  [(.path, ⟨.str [47], 1, ⟨8, false⟩⟩), (.callback, ⟨.other none none none, 1, ⟨9, true⟩⟩)]

end ZookeeperClient
