import ZookeeperClient.Lifecycle.Basic
import ZookeeperClient.Operations.Native

/-!
# Asking for the state of a client

`state`, `connected?` and its siblings, and `assert_open` while other threads close and reopen the
client. An inquisitor keeps `@mutex` from the moment it reads `@czk` until `CZookeeper#state` has
returned. `state` takes the mutex for `closed?` and once more for `czk`, and asks the handle without
it. `CZookeeper#state` tests `@_closed` under `@start_stop_mutex`, and `zkrb_state` raises an
exception if the handle has been destroyed in the meantime.

`close_handle` keeps `@start_stop_mutex` and the interpreter lock until the queue has been freed.

## Main definitions

- `Reading`, `InquiryPc`, `InquiryEnd` — what the state is read for, where a call is and how it ends
- `Inquiries`, `InquiryAct`, `inquiries` — the state, the steps and the system
- `InquiryEnd.Truthful` — the client had that state at a moment of the call

## Main results

- `truthful_of_undisturbed` — inquisitors are always truthful, and `state` is if it is not disturbed
-/

namespace ZookeeperClient

open Transition

def ZOO_CLOSED_STATE : ℤ := 0

def ZOO_CONNECTED_STATE : ℤ := 3

/-- What the state is read for. -/
inductive Reading where
  | state
  /-- `connected?`, `connecting?` or `associating?`, by the state that it compares with. -/
  | is (state : ℤ)
  /-- `state == ZOO_EXPIRED_SESSION_STATE` in `assert_open`. -/
  | expired
  /-- `connected?` in `assert_open`. -/
  | connected
  deriving DecidableEq, Repr

/-- The state is read under `@mutex`. -/
def Reading.underMutex : Reading → Bool
  | .is _ | .connected => true
  | .state | .expired => false

/-- How a call ends. -/
inductive InquiryEnd where
  | value (state : ℤ)
  | answer (holds : Bool)
  /-- `assert_open` returns. -/
  | passed
  | sessionExpired
  | notConnected
  /-- `rb_raise(rb_eRuntimeError, "zookeeper handle is closed")`. -/
  | handleClosed
  deriving DecidableEq, Repr

/-- Where a call is. -/
inductive InquiryPc where
  | idle
  /-- Before `closed?` of the client. -/
  | asking (r : Reading)
  /-- Before `czk`. -/
  | looking (r : Reading)
  /-- Before `@mutex` is taken. -/
  | entering (r : Reading)
  /-- In `state` of handle `h`, before `closed?`. -/
  | testing (r : Reading) (h : ℕ)
  /-- Before `zkrb_state`. -/
  | reading (r : Reading) (h : ℕ)
  | finished (r : Reading) (result : InquiryEnd)
  deriving DecidableEq, Repr

namespace InquiryPc

/-- The call goes on. -/
def active : InquiryPc → Bool
  | .idle | .finished _ _ => false
  | _ => true

/-- The call is in `state` of a handle. -/
def inHandle : InquiryPc → Option (Reading × ℕ)
  | .testing r h | .reading r h => some (r, h)
  | _ => none

/-- The call holds `@mutex`. -/
def holds (pc : InquiryPc) : Bool :=
  pc.inHandle.any (·.1.underMutex)

/-- An inquisitor takes `@mutex` once, and `state` for each look at the client. -/
def proper : InquiryPc → Bool
  | .asking r | .looking r => !r.underMutex
  | .entering r => r.underMutex
  | _ => true

end InquiryPc

namespace Reading

/-- What a call does with the state that it has found. -/
def proceed (v : ℤ) : Reading → InquiryPc
  | .state => .finished .state (.value v)
  | .is w => .finished (.is w) (.answer (v == w))
  | .expired =>
    if v = ZOO_EXPIRED_SESSION_STATE then .finished .expired .sessionExpired
    else .entering .connected
  | .connected =>
    .finished .connected (if v = ZOO_CONNECTED_STATE then .passed else .notConnected)

end Reading

/-- What is called. -/
inductive Inquiry where
  | state
  | is (state : ℤ)
  | assertOpen
  deriving DecidableEq, Repr

/-- Where the call begins. -/
def Inquiry.start : Inquiry → InquiryPc
  | .state => .asking .state
  | .is w => .entering (.is w)
  | .assertOpen => .asking .expired

/-- A client whose state is asked for. -/
structure Inquiries (ε : Type) where
  base : Lifecycle ε
  /-- What `zoo_state` returns for a handle. -/
  zooState : ℕ → ℤ
  calls : ℕ → InquiryPc
  /-- The number of the next call. -/
  nextCall : ℕ
  /-- The call that holds `@mutex`. -/
  holder : Option ℕ
  /-- History: the states that the client has had during a call. -/
  seen : ℕ → List ℤ
  /-- History: while a call was in `state` of a handle, another handle has taken its place, or it
  has been closed after the test of `closed?`. -/
  disturbed : ℕ → Bool

/-- The steps of a client and of those who ask for its state. -/
inductive InquiryAct (ε : Type) where
  | client (a : LifecycleAct ε)
  /-- The C client changes the state of a handle. -/
  | zooState (h : ℕ) (v : ℤ)
  | ask (q : Inquiry)
  /-- `closed?` of the client. -/
  | askClosed (i : ℕ)
  /-- `czk`. -/
  | look (i : ℕ)
  /-- `@mutex` is taken, and `@czk` is read. -/
  | enter (i : ℕ)
  /-- `closed?` of the handle. -/
  | test (i : ℕ)
  /-- `zkrb_state`. -/
  | read (i : ℕ)
  deriving Repr

namespace Inquiries

variable {ε : Type}

/-- A client whose constructor has returned, and whose first handle is in some state. -/
def initial (zooState : ℕ → ℤ) : Inquiries ε where
  base := .initial
  zooState := zooState
  calls := fun _ => .idle
  nextCall := 0
  holder := none
  seen := fun _ => []
  disturbed := fun _ => false

/-- The state of the client. -/
def current (s : Inquiries ε) : ℤ :=
  if (s.base.transports s.base.czk).closed then ZOO_CLOSED_STATE else s.zooState s.base.czk

/-- Nobody holds `@mutex`. -/
def MutexFree (s : Inquiries ε) : Prop :=
  s.base.owner = none ∧ s.holder = none

/-- The steps of the client that take `@mutex`. -/
def TakesMutex : LifecycleAct ε → Prop
  | .control _ .enter | .control _ .resume | .thread _ .lookup | .thread _ .signal => True
  | _ => False

def Enabled (s : Inquiries ε) : InquiryAct ε → Prop
  | .client a => s.base.Enabled a ∧ (TakesMutex a → s.holder = none)
  | .zooState h _ => (s.base.transports h).freed = false
  | .ask _ => True
  | .askClosed i => (∃ r, s.calls i = .asking r) ∧ s.MutexFree
  | .look i => (∃ r, s.calls i = .looking r) ∧ s.MutexFree
  | .enter i => (∃ r, s.calls i = .entering r) ∧ s.MutexFree
  | .test i => ∃ r h, s.calls i = .testing r h ∧ ∀ c op, s.base.calls c ≠ .destroying h op
  | .read i => ∃ r h, s.calls i = .reading r h ∧ ∀ c h' op, s.base.calls c ≠ .destroying h' op

/-- Call `i` goes on to `pc`. -/
def callTo (i : ℕ) (pc : InquiryPc) (s : Inquiries ε) : Inquiries ε :=
  { s with calls := Function.update s.calls i pc }

/-- A call leaves `state` of a handle, and gives the mutex back if it has it. -/
def leaveTo (i : ℕ) (r : Reading) (pc : InquiryPc) (s : Inquiries ε) : Inquiries ε :=
  { s.callTo i pc with holder := if r.underMutex then none else s.holder }

/-- What a step does, apart from the history. -/
def move (s : Inquiries ε) : InquiryAct ε → Inquiries ε
  | .client a => { s with base := s.base.next a }
  | .zooState h v => { s with zooState := Function.update s.zooState h v }
  | .ask q => { s.callTo s.nextCall q.start with nextCall := s.nextCall + 1 }
  | .askClosed i =>
    match s.calls i with
    | .asking r =>
      s.callTo i (if (s.base.transports s.base.czk).closed then r.proceed ZOO_CLOSED_STATE
        else .looking r)
    | _ => s
  | .look i =>
    match s.calls i with
    | .looking r => s.callTo i (.testing r s.base.czk)
    | _ => s
  | .enter i =>
    match s.calls i with
    | .entering r => { s.callTo i (.testing r s.base.czk) with holder := some i }
    | _ => s
  | .test i =>
    match s.calls i with
    | .testing r h =>
      if (s.base.transports h).closed then s.leaveTo i r (r.proceed ZOO_CLOSED_STATE)
      else s.callTo i (.reading r h)
    | _ => s
  | .read i =>
    match s.calls i with
    | .reading r h =>
      s.leaveTo i r (if (s.base.transports h).freed then .finished r .handleClosed
        else r.proceed (s.zooState h))
    | _ => s

/-- The step replaces the handle that the call asks, or closes it behind its back. -/
def disturbs (s : Inquiries ε) (i : ℕ) : InquiryAct ε → Bool
  | .client (.control _ .replace) => (s.calls i).inHandle.isSome
  | .client (.control c .closeHandle) =>
    match s.calls i, s.base.calls c with
    | .reading _ h, .joining h' _ => h == h'
    | _, _ => false
  | _ => false

def next (s : Inquiries ε) (a : InquiryAct ε) : Inquiries ε :=
  { s.move a with
    seen := fun i =>
      if ((s.move a).calls i).active then (s.move a).current :: s.seen i else s.seen i
    disturbed := fun i => s.disturbed i || s.disturbs i a }

end Inquiries

/-- The system of one client and of those who ask for its state. -/
def inquiries (ε : Type) : System (Inquiries ε) (InquiryAct ε) where
  Init s := ∃ zooState, s = Inquiries.initial zooState
  Enabled := Inquiries.Enabled
  next := Inquiries.next

/-- A call has ended as it may when the client has been in the states `seen` meanwhile. -/
def InquiryEnd.Truthful (seen : List ℤ) : Reading → InquiryEnd → Prop
  | .state, .value v => v ∈ seen
  | .is w, .answer b => ∃ v ∈ seen, b = (v == w)
  | .expired, .sessionExpired => ZOO_EXPIRED_SESSION_STATE ∈ seen
  | .connected, .passed => ZOO_CONNECTED_STATE ∈ seen
  | .connected, .notConnected => ∃ v ∈ seen, v ≠ ZOO_CONNECTED_STATE
  | _, _ => False

/-! ## What the steps of a client do to its handle -/

namespace Lifecycle

variable {ε : Type} {s : Lifecycle ε}

theorem czk_next {a : LifecycleAct ε} (hen : s.Enabled a)
    (hne : ∀ c, a ≠ .control c .replace) : (s.next a).czk = s.czk := by
  have heff := effect_next hen
  generalize s.next a = s' at heff ⊢
  cases heff with
  | replace => exact absurd rfl (hne _)
  | _ => rfl

/-- Only `close_handle` sets `@_closed`. -/
theorem closed_next_eq {a : LifecycleAct ε} (hen : s.Enabled a) {h : ℕ}
    (hne : ∀ c op, s.calls c = .joining h op → a ≠ .control c .closeHandle) :
    ((s.next a).transports h).closed = (s.transports h).closed := by
  have heff := effect_next hen
  generalize s.next a = s' at heff ⊢
  have hstep {h' : ℕ} {act : TransportAct ε}
      (hact : h = h' → ((s.transports h').next act).closed = (s.transports h').closed) :
      ((s.step h' act).transports h).closed = (s.transports h).closed := by
    rw [transports_step]
    split
    · next heq => exact heq ▸ hact heq
    · rfl
  cases heff with
  | shutDown | queueFree | enqueue | push => exact hstep fun _ => rfl
  | eventThread _ hact => exact hstep fun _ => Transport.closed_internal hact
  | closeHandle hpc => exact hstep fun heq => absurd rfl (hne _ _ (heq ▸ hpc))
  | _ => rfl

/-- While somebody else has `@mutex`, it is not taken, and `@czk` is neither replaced nor closed. -/
theorem frame_of_free {a : LifecycleAct ε} (hen : s.Enabled a) (howned : s.Owned)
    (hfree : s.owner = none) (ha : ¬Inquiries.TakesMutex a) :
    (s.next a).owner = none ∧ (s.next a).czk = s.czk ∧
      ∀ h, ((s.next a).transports h).closed = (s.transports h).closed := by
  have hnobody {c : ℕ} {pc : ControlPc} (hpc : s.calls c = pc) (hholds : pc.holds = true) :
      False := by
    have howner := (howned c).1 (by rw [hpc, hholds])
    rw [hfree] at howner
    cases howner
  refine ⟨?_, czk_next hen ?_, fun h => closed_next_eq hen ?_⟩
  · have heff := effect_next hen
    generalize s.next a = s' at heff ⊢
    cases heff with
    | enterClose | enterReopen | resume => exact absurd trivial ha
    | beginWait | joinNil | replaceRaises | leaveClose | leaveReopen => rfl
    | _ => exact hfree
  · rintro c rfl
    have hpc : s.calls c = .replacing := hen
    exact hnobody hpc rfl
  · rintro c op hpc rfl
    exact hnobody hpc rfl

end Lifecycle

namespace Inquiries

variable {ε : Type} {s s' : Inquiries ε} {i j : ℕ}

/-! ## The mutex -/

/-- The calls that hold `@mutex` for an inquisitor, while nobody else has it. -/
structure Held (s : Inquiries ε) : Prop where
  numbered {i : ℕ} (hi : s.nextCall ≤ i) : s.calls i = .idle
  proper (i : ℕ) : (s.calls i).proper = true
  holds (i : ℕ) : (s.calls i).holds = true ↔ s.holder = some i
  free {i : ℕ} (hi : s.holder = some i) : s.base.owner = none

theorem calls_callTo (i j : ℕ) (pc : InquiryPc) :
    (s.callTo i pc).calls j = if j = i then pc else s.calls j := by
  simp only [callTo, Function.update_apply]

/-- A call that has left `state` of the handle is over, or is the first half of `assert_open`. -/
theorem proceed_cases (r : Reading) (v : ℤ) :
    (∃ e, r.proceed v = .finished r e) ∨ r.proceed v = .entering .connected := by
  cases r with
  | expired =>
    by_cases hv : v = ZOO_EXPIRED_SESSION_STATE
    · exact .inl ⟨_, if_pos hv⟩
    · exact .inr (if_neg hv)
  | _ => exact .inl ⟨_, rfl⟩

theorem inHandle_proceed (r : Reading) (v : ℤ) : (r.proceed v).inHandle = none := by
  obtain ⟨e, hend⟩ | hhalf := proceed_cases r v
  · rw [hend]
    rfl
  · rw [hhalf]
    rfl

/-- It gives the mutex back. -/
theorem holds_proceed (r : Reading) (v : ℤ) : (r.proceed v).holds = false := by
  unfold InquiryPc.holds
  rw [inHandle_proceed]
  rfl

theorem proper_proceed (r : Reading) (v : ℤ) : (r.proceed v).proper = true := by
  obtain ⟨e, hend⟩ | hhalf := proceed_cases r v
  · rw [hend]
    rfl
  · rw [hhalf]
    rfl

theorem Held.numbered_callTo (hs : s.Held) {pc : InquiryPc} (hi : s.calls i ≠ .idle)
    (hj : s.nextCall ≤ j) : (s.callTo i pc).calls j = .idle := by
  rw [calls_callTo, if_neg]
  · exact hs.numbered hj
  · rintro rfl
    exact hi (hs.numbered hj)

theorem Held.proper_callTo (hs : s.Held) {pc : InquiryPc} (hpc : pc.proper = true) (j : ℕ) :
    ((s.callTo i pc).calls j).proper = true := by
  rw [calls_callTo]
  split
  · exact hpc
  · exact hs.proper j

/-- A call goes on and keeps what it has of the mutex. -/
theorem Held.callTo (hs : s.Held) {pc : InquiryPc} (hi : s.calls i ≠ .idle)
    (hpc : pc.proper = true) (hwas : (s.calls i).holds = pc.holds) : (s.callTo i pc).Held := by
  refine ⟨hs.numbered_callTo hi, hs.proper_callTo hpc, fun j => ?_, hs.free⟩
  · rw [calls_callTo]
    split
    · next heq =>
      rw [← hwas, heq]
      exact hs.holds i
    · exact hs.holds j

theorem Held.leaveTo (hs : s.Held) {r : Reading} {h : ℕ} {pc : InquiryPc}
    (hi : (s.calls i).inHandle = some (r, h)) (hproper : pc.proper = true)
    (hpc : pc.holds = false) : (s.leaveTo i r pc).Held := by
  have hidle : s.calls i ≠ .idle := fun heq => by simp [heq, InquiryPc.inHandle] at hi
  have hwas : (s.calls i).holds = r.underMutex := by simp [InquiryPc.holds, hi]
  cases hr : r.underMutex with
  | false =>
    have hsame := hs.callTo hidle hproper (hwas.trans (hr.trans hpc.symm))
    have hholder : (s.leaveTo i r pc).holder = s.holder := by simp [Inquiries.leaveTo, hr]
    refine ⟨hsame.numbered, hsame.proper, fun j => ?_, fun hj => hsame.free (hholder ▸ hj)⟩
    rw [hholder]
    exact hsame.holds j
  | true =>
    have hholder : s.holder = some i := (hs.holds i).1 (hwas.trans hr)
    have hnone : (s.leaveTo i r pc).holder = none := by simp [Inquiries.leaveTo, hr]
    refine ⟨hs.numbered_callTo hidle, hs.proper_callTo hproper, fun j => ?_, fun hj => ?_⟩
    · rw [hnone]
      show ((s.callTo i pc).calls j).holds = true ↔ _
      rw [calls_callTo]
      split
      · simp [hpc]
      · next hne => simpa [hholder, Ne.symm hne] using hs.holds j
    · cases hnone.symm.trans hj

/-- An inquisitor takes the mutex, which is free. -/
theorem Held.take (hs : s.Held) {r : Reading} {h : ℕ} (hi : s.calls i = .entering r)
    (hfree : s.MutexFree) : ({ s.callTo i (.testing r h) with holder := some i }).Held := by
  have hr : r.underMutex = true := by simpa [hi, InquiryPc.proper] using hs.proper i
  refine ⟨hs.numbered_callTo (by simp [hi]), hs.proper_callTo rfl, fun j => ?_, fun _ => hfree.1⟩
  show ((s.callTo i (.testing r h)).calls j).holds = true ↔ some i = some j
  rw [calls_callTo]
  split
  · next heq => simp [heq, InquiryPc.holds, InquiryPc.inHandle, hr]
  · next hne =>
    have hnot := hs.holds j
    rw [hfree.2] at hnot
    simpa [Ne.symm hne] using hnot

/-- The history does not matter to the mutex. -/
theorem Held.next_of_move {a : InquiryAct ε} (hs : (s.move a).Held) : (s.next a).Held :=
  ⟨hs.numbered, hs.proper, hs.holds, hs.free⟩

theorem held_next {a : InquiryAct ε} (hen : s.Enabled a) (howned : s.base.Owned) (hs : s.Held) :
    (s.next a).Held := by
  apply Held.next_of_move
  cases a with
  | client a =>
    refine ⟨hs.numbered, hs.proper, hs.holds, fun {i} hi => ?_⟩
    have hfree : ¬TakesMutex a := fun ha => by cases (hen.2 ha).symm.trans hi
    exact (Lifecycle.frame_of_free hen.1 howned (hs.free hi) hfree).1
  | zooState h v => exact ⟨hs.numbered, hs.proper, hs.holds, hs.free⟩
  | ask q =>
    have hidle := hs.numbered (Nat.le_refl s.nextCall)
    refine ⟨fun {i} hi => ?_, hs.proper_callTo (by cases q <;> rfl), fun i => ?_, hs.free⟩
    · show (s.callTo s.nextCall q.start).calls i = .idle
      have hlt : s.nextCall + 1 ≤ i := hi
      rw [calls_callTo, if_neg (by omega)]
      exact hs.numbered (by omega)
    · show ((s.callTo s.nextCall q.start).calls i).holds = true ↔ s.holder = some i
      rw [calls_callTo]
      split
      · next heq =>
        have hno : q.start.holds = false := by cases q <;> rfl
        rw [hno, heq, ← hs.holds s.nextCall, hidle]
        rfl
      · exact hs.holds i
  | askClosed i =>
    obtain ⟨⟨r, hpc⟩, -⟩ := hen
    have hr := hs.proper i
    rw [hpc] at hr
    simp only [move, hpc]
    split
    · exact hs.callTo (by simp [hpc]) (proper_proceed _ _) (by rw [hpc, holds_proceed]; rfl)
    · exact hs.callTo (by simp [hpc]) hr (by rw [hpc]; rfl)
  | look i =>
    obtain ⟨⟨r, hpc⟩, -⟩ := hen
    have hr : r.underMutex = false := by simpa [hpc, InquiryPc.proper] using hs.proper i
    simp only [move, hpc]
    exact hs.callTo (by simp [hpc]) rfl (by simp [hpc, InquiryPc.holds, InquiryPc.inHandle, hr])
  | enter i =>
    obtain ⟨⟨r, hpc⟩, hfree⟩ := hen
    simp only [move, hpc]
    exact hs.take hpc hfree
  | test i =>
    obtain ⟨r, h, hpc, -⟩ := hen
    simp only [move, hpc]
    split
    · exact hs.leaveTo (by rw [hpc]; rfl) (proper_proceed _ _) (holds_proceed _ _)
    · exact hs.callTo (by simp [hpc]) rfl (by rw [hpc]; rfl)
  | read i =>
    obtain ⟨r, h, hpc, -⟩ := hen
    simp only [move, hpc]
    split
    · exact hs.leaveTo (by rw [hpc]; rfl) rfl rfl
    · exact hs.leaveTo (by rw [hpc]; rfl) (proper_proceed _ _) (holds_proceed _ _)

/-! ## What a call has found -/

/-- Nothing can have come between. -/
def Sure (s : Inquiries ε) (i : ℕ) (r : Reading) : Prop :=
  r.underMutex = true ∨ s.disturbed i = false

/-- A call that goes on has seen the present state of the client; the handle it asks is that of the
client, and is open when it has found it so; and how it has ended is true. -/
structure Ok (s : Inquiries ε) (i : ℕ) : Prop where
  seen (hactive : (s.calls i).active = true) : s.current ∈ s.seen i
  handle {r : Reading} {h : ℕ} (hpc : (s.calls i).inHandle = some (r, h)) (hsure : s.Sure i r) :
    h = s.base.czk
  open_ {r : Reading} {h : ℕ} (hpc : s.calls i = .reading r h) (hsure : s.Sure i r) :
    (s.base.transports h).closed = false
  truthful {r : Reading} {e : InquiryEnd} (hpc : s.calls i = .finished r e)
    (hsure : s.Sure i r) : e.Truthful (s.seen i) r

theorem Sure.of_next {a : InquiryAct ε} {r : Reading} (h : (s.next a).Sure i r) : s.Sure i r := by
  refine h.imp id fun hd => ?_
  have hboth : (s.disturbed i || s.disturbs i a) = false := hd
  exact (Bool.or_eq_false_iff.mp hboth).1

theorem seen_next {a : InquiryAct ε} (h : ((s.next a).calls i).active = true) :
    (s.next a).current ∈ (s.next a).seen i := by
  have hseen : (s.next a).seen i = (s.move a).current :: s.seen i := if_pos h
  rw [hseen]
  exact List.mem_cons_self

theorem seen_subset_next (a : InquiryAct ε) : s.seen i ⊆ (s.next a).seen i := by
  intro v hv
  show v ∈ if ((s.move a).calls i).active then (s.move a).current :: s.seen i else s.seen i
  split
  · exact List.mem_cons_of_mem _ hv
  · exact hv

/-- A call that has ended has seen what it has seen. -/
theorem seen_next_of_finished {a : InquiryAct ε} {r : Reading} {e : InquiryEnd}
    (h : (s.next a).calls i = .finished r e) : (s.next a).seen i = s.seen i := by
  refine if_neg ?_
  have hpc : (s.move a).calls i = .finished r e := h
  rw [hpc]
  exact Bool.false_ne_true

/-- A call goes on with a state that the client has had. -/
theorem truthful_proceed {seen : List ℤ} {v : ℤ} (hv : v ∈ seen) {r r' : Reading}
    {e : InquiryEnd} (h : r.proceed v = .finished r' e) : e.Truthful seen r' := by
  cases r with
  | state =>
    obtain ⟨rfl, rfl⟩ := InquiryPc.finished.inj h
    exact hv
  | is w =>
    obtain ⟨rfl, rfl⟩ := InquiryPc.finished.inj h
    exact ⟨v, hv, rfl⟩
  | expired =>
    have hfound : (if v = ZOO_EXPIRED_SESSION_STATE then .finished .expired .sessionExpired
        else .entering .connected) = InquiryPc.finished r' e := h
    split at hfound
    · next heq =>
      obtain ⟨rfl, rfl⟩ := InquiryPc.finished.inj hfound
      have hexpired : ZOO_EXPIRED_SESSION_STATE ∈ seen := heq ▸ hv
      exact hexpired
    · cases hfound
  | connected =>
    obtain ⟨rfl, rfl⟩ := InquiryPc.finished.inj h
    split
    · next heq =>
      have hconnected : ZOO_CONNECTED_STATE ∈ seen := heq ▸ hv
      exact hconnected
    · next hne => exact ⟨v, hv, hne⟩

theorem proceed_eq_finished {v : ℤ} {r r' : Reading} {e : InquiryEnd}
    (h : r.proceed v = .finished r' e) : r' = r := by
  obtain ⟨e', hend⟩ | hhalf := proceed_cases r v
  · exact (InquiryPc.finished.inj (hend.symm.trans h)).1.symm
  · cases hhalf.symm.trans h

/-- A call that does not move, while its handle stays as it is unless the call is disturbed. -/
theorem Ok.frame {a : InquiryAct ε} (hs : s.Ok i) (hsame : (s.next a).calls i = s.calls i)
    (hczk : ∀ r h, (s.calls i).inHandle = some (r, h) → (s.next a).Sure i r →
      (s.next a).base.czk = s.base.czk)
    (hclosed : ∀ r h, s.calls i = .reading r h → (s.next a).Sure i r →
      ((s.next a).base.transports h).closed = (s.base.transports h).closed) : (s.next a).Ok i := by
  refine ⟨seen_next, fun {r h} hpc hsure => ?_, fun {r h} hpc hsure => ?_,
    fun {r e} hpc hsure => ?_⟩
  · rw [hsame] at hpc
    rw [hczk r h hpc hsure]
    exact hs.handle hpc hsure.of_next
  · rw [hsame] at hpc
    rw [hclosed r h hpc hsure]
    exact hs.open_ hpc hsure.of_next
  · rw [seen_next_of_finished hpc]
    rw [hsame] at hpc
    exact hs.truthful hpc hsure.of_next

/-- A call goes on with a state that the client has now, unless it has been disturbed. -/
theorem Ok.of_proceed {a : InquiryAct ε} (hs : s.Ok i) (hactive : (s.calls i).active = true)
    {r : Reading} {v : ℤ} (hnext : (s.next a).calls i = r.proceed v)
    (hv : (s.next a).Sure i r → v = s.current) : (s.next a).Ok i := by
  refine ⟨seen_next, fun {r' h} hpc _ => ?_, fun {r' h} hpc _ => ?_, fun {r' e} hpc hsure => ?_⟩
  · rw [hnext, inHandle_proceed] at hpc
    cases hpc
  · have hin := inHandle_proceed r v
    rw [← hnext, hpc] at hin
    cases hin
  · rw [hnext] at hpc
    obtain rfl := proceed_eq_finished hpc
    refine truthful_proceed (seen_subset_next a ?_) hpc
    rw [hv hsure]
    exact hs.seen hactive

/-- Those who ask leave the client as it is. -/
theorem base_next {a : InquiryAct ε} (ha : ∀ a', a ≠ .client a') : (s.next a).base = s.base := by
  show (s.move a).base = s.base
  cases a with
  | client a' => exact absurd rfl (ha a')
  | zooState | ask => rfl
  | askClosed c | look c | enter c | read c =>
    simp only [move]
    split <;> rfl
  | test c =>
    simp only [move]
    split
    · split <;> rfl
    · rfl

/-- Call `c` goes on to `pc`. -/
theorem Ok.of_call {a : InquiryAct ε} {c : ℕ} {pc : InquiryPc} (hs : ∀ i, s.Ok i)
    (hcalls : (s.move a).calls = (s.callTo c pc).calls) (ha : ∀ a', a ≠ .client a')
    (hmoved : (s.next a).calls c = pc → (s.next a).Ok c) (i : ℕ) : (s.next a).Ok i := by
  have hwhere : (s.next a).calls i = if i = c then pc else s.calls i := by
    rw [← calls_callTo, ← hcalls]
    rfl
  by_cases hi : i = c
  · subst hi
    exact hmoved (hwhere.trans (if_pos rfl))
  · refine (hs i).frame (hwhere.trans (if_neg hi)) (fun _ _ _ _ => ?_) (fun _ _ _ _ => ?_) <;>
      rw [base_next ha]

/-- A call that has no handle and has not ended. -/
theorem ok_of_outside {a : InquiryAct ε} (hin : ((s.next a).calls i).inHandle = none)
    (hend : ∀ r e, (s.next a).calls i ≠ .finished r e) : (s.next a).Ok i where
  seen := seen_next
  handle hpc _ := by cases hin.symm.trans hpc
  open_ hpc _ := by
    rw [hpc] at hin
    cases hin
  truthful hpc _ := absurd hpc (hend _ _)

/-- A call that has just got its handle from the client. -/
theorem ok_of_testing {a : InquiryAct ε} {r : Reading} (ha : ∀ a', a ≠ .client a')
    (hpc : (s.next a).calls i = .testing r s.base.czk) : (s.next a).Ok i := by
  refine ⟨seen_next, fun {r' h} hpc' _ => ?_, fun {r' h} hpc' _ => ?_, fun {r' e} hpc' _ => ?_⟩ <;>
    rw [hpc] at hpc'
  · rw [base_next ha]
    exact (Prod.mk.inj (Option.some.inj hpc')).2.symm
  · cases hpc'
  · cases hpc'

/-- A call that has found its handle open. -/
theorem Ok.of_found {a : InquiryAct ε} {r : Reading} {h : ℕ} (hs : s.Ok i)
    (hpc : s.calls i = .testing r h) (hopen : (s.base.transports h).closed = false)
    (ha : ∀ a', a ≠ .client a') (hnext : (s.next a).calls i = .reading r h) :
    (s.next a).Ok i := by
  refine ⟨seen_next, fun {r' h'} hpc' hsure => ?_, fun {r' h'} hpc' _ => ?_,
    fun {r' e} hpc' _ => ?_⟩ <;> rw [hnext] at hpc'
  · obtain ⟨rfl, rfl⟩ := Prod.mk.inj (Option.some.inj hpc')
    rw [base_next ha]
    exact hs.handle (by rw [hpc]; rfl) hsure.of_next
  · obtain ⟨rfl, rfl⟩ := InquiryPc.reading.inj hpc'
    rw [base_next ha]
    exact hopen
  · cases hpc'

/-- A step of the client. -/
theorem Ok.of_client {a : LifecycleAct ε} (hen : s.Enabled (.client a)) (howned : s.base.Owned)
    (hheld : s.Held) (hs : s.Ok i) : (s.next (.client a)).Ok i := by
  have hunder {r : Reading} {h : ℕ} (hpc : (s.calls i).inHandle = some (r, h))
      (hr : r.underMutex = true) := by
    have hholder := (hheld.holds i).1 (by simp [InquiryPc.holds, hpc, hr])
    have hfree : ¬TakesMutex a := fun ha => by cases (hen.2 ha).symm.trans hholder
    exact (Lifecycle.frame_of_free hen.1 howned (hheld.free hholder) hfree).2
  have hdisturbs {r : Reading} (hsure : (s.next (.client a)).Sure i r)
      (hr : r.underMutex = false) : s.disturbs i (.client a) = false := by
    have hd : (s.disturbed i || s.disturbs i (.client a)) = false :=
      hsure.resolve_left fun h => Bool.false_ne_true (hr.symm.trans h)
    exact (Bool.or_eq_false_iff.mp hd).2
  refine hs.frame rfl (fun r h hpc hsure => ?_) (fun r h hpc hsure => ?_)
  · cases hr : r.underMutex with
    | true => exact (hunder hpc hr).1
    | false =>
      refine Lifecycle.czk_next hen.1 ?_
      rintro c rfl
      have hno := hdisturbs hsure hr
      simp [disturbs, hpc] at hno
  · cases hr : r.underMutex with
    | true => exact (hunder (by rw [hpc]; rfl) hr).2 h
    | false =>
      refine Lifecycle.closed_next_eq hen.1 ?_
      rintro c op hc rfl
      have hno := hdisturbs hsure hr
      simp [disturbs, hpc, hc] at hno

theorem ok_next {a : InquiryAct ε} (hen : s.Enabled a) (howned : s.base.Owned)
    (hhandles : s.base.Handles) (hheld : s.Held) (hs : ∀ i, s.Ok i) (i : ℕ) : (s.next a).Ok i := by
  cases a with
  | client a => exact (hs i).of_client hen howned hheld
  | zooState h v =>
    exact (hs i).frame rfl (fun _ _ _ _ => rfl) fun _ _ _ _ => rfl
  | ask q =>
    refine Ok.of_call hs rfl (by simp) (fun hnext => ?_) i
    refine ok_of_outside ?_ fun r e hend => ?_
    · rw [hnext]
      cases q <;> rfl
    · cases q <;> cases hnext.symm.trans hend
  | askClosed c =>
    obtain ⟨⟨r, hpc⟩, -⟩ := hen
    have hmove : s.move (.askClosed c) = s.callTo c
        (if (s.base.transports s.base.czk).closed then r.proceed ZOO_CLOSED_STATE
          else .looking r) := by simp only [move, hpc]
    refine Ok.of_call hs (by rw [hmove]) (by simp) (fun hnext => ?_) i
    split at hnext
    · next hclosed =>
      exact (hs c).of_proceed (by rw [hpc]; rfl) hnext fun _ => by simp [current, hclosed]
    · exact ok_of_outside (by rw [hnext]; rfl) fun r e hend => by cases hnext.symm.trans hend
  | look c =>
    obtain ⟨⟨r, hpc⟩, -⟩ := hen
    have hmove : s.move (.look c) = s.callTo c (.testing r s.base.czk) := by
      simp only [move, hpc]
    exact Ok.of_call hs (by rw [hmove]) (by simp) (ok_of_testing (by simp)) i
  | enter c =>
    obtain ⟨⟨r, hpc⟩, -⟩ := hen
    have hmove : s.move (.enter c) =
        { s.callTo c (.testing r s.base.czk) with holder := some c } := by simp only [move, hpc]
    exact Ok.of_call hs (by rw [hmove]) (by simp) (ok_of_testing (by simp)) i
  | test c =>
    obtain ⟨r, h, hpc, -⟩ := hen
    cases hclosed : (s.base.transports h).closed with
    | true =>
      have hmove : s.move (.test c) = s.leaveTo c r (r.proceed ZOO_CLOSED_STATE) := by
        simp [move, hpc, hclosed]
      refine Ok.of_call hs (by rw [hmove]; rfl) (by simp) (fun hnext => ?_) i
      refine (hs c).of_proceed (by rw [hpc]; rfl) hnext fun hsure => ?_
      have hczk := (hs c).handle (by rw [hpc]; rfl) hsure.of_next
      simp [current, ← hczk, hclosed]
    | false =>
      have hmove : s.move (.test c) = s.callTo c (.reading r h) := by simp [move, hpc, hclosed]
      exact Ok.of_call hs (by rw [hmove]) (by simp) ((hs c).of_found hpc hclosed (by simp)) i
  | read c =>
    obtain ⟨r, h, hpc, -⟩ := hen
    have hmove : s.move (.read c) = s.leaveTo c r
        (if (s.base.transports h).freed then .finished r .handleClosed
          else r.proceed (s.zooState h)) := by simp only [move, hpc]
    refine Ok.of_call hs (by rw [hmove]; rfl) (by simp) (fun hnext => ?_) i
    cases hfreed : (s.base.transports h).freed with
    | true =>
      rw [hfreed] at hnext
      refine ⟨seen_next, fun {r' h'} hpc' _ => ?_, fun {r' h'} hpc' _ => ?_,
        fun {r' e} hpc' hsure => ?_⟩ <;> rw [hnext] at hpc'
      · cases hpc'
      · cases hpc'
      · -- an open handle has not been destroyed
        obtain ⟨rfl, -⟩ := InquiryPc.finished.inj hpc'
        have hopen := (hs c).open_ hpc hsure.of_next
        exact absurd ((hhandles.freed_eq_false hopen).symm.trans hfreed) Bool.false_ne_true
    | false =>
      rw [hfreed] at hnext
      refine (hs c).of_proceed (by rw [hpc]; rfl) hnext fun hsure => ?_
      have hczk := (hs c).handle (by rw [hpc]; rfl) hsure.of_next
      have hopen := (hs c).open_ hpc hsure.of_next
      simp [current, ← hczk, hopen]

variable {ok : Inquiries ε → InquiryAct ε → Prop}

theorem base_of_reachable (h : (inquiries ε).Reachable ok s) :
    (lifecycle ε).Reachable System.anyStep s.base := by
  refine h.map base ?_ fun s a hen _ => ?_
  · rintro _ ⟨zooState, rfl⟩
    rfl
  · cases a with
    | client a => exact Or.inr ((lifecycle ε).step_intro a hen.1 trivial)
    | _ => exact Or.inl (base_next (by simp))

theorem held_of_reachable (h : (inquiries ε).Reachable ok s) : s.Held := by
  refine h.invariant_under (I := Held) (fun _ hr =>
    (Lifecycle.owned_of_reachable (base_of_reachable hr)).2) ?_
    fun s a howned hs hen _ => held_next hen howned hs
  rintro _ ⟨zooState, rfl⟩
  refine ⟨fun _ => rfl, fun _ => rfl, fun i => ?_, fun hi => by cases hi⟩
  simp [initial, InquiryPc.holds, InquiryPc.inHandle]

theorem ok_of_reachable (h : (inquiries ε).Reachable ok s) : ∀ i, s.Ok i := by
  refine h.invariant_under (I := fun s => ∀ i, s.Ok i) (fun _ hr => And.intro
    (Lifecycle.owned_of_reachable (base_of_reachable hr)).2 (And.intro
    (Lifecycle.handles_of_reachable (base_of_reachable hr)) (held_of_reachable hr))) ?_
    fun s a ⟨howned, hhandles, hheld⟩ hs hen _ => ok_next hen howned hhandles hheld hs
  rintro _ ⟨zooState, rfl⟩ i
  refine ⟨fun hc => ?_, fun {_ _} hc _ => ?_, fun {_ _} hc _ => ?_, fun {_ _} hc _ => ?_⟩ <;>
    cases hc

/-- **Answers are true.** In every run of a client with any number of calls of `close` and `reopen`
and of those who ask for its state: how a call of `connected?` or one of its siblings ends, and the
second half of `assert_open`, is true of a state that the client has had during the call, and no
exception is raised there. The same holds of `state` and of the first half of `assert_open`, unless
the handle has been replaced meanwhile, or closed between `closed?` and `zkrb_state`. -/
theorem truthful_of_undisturbed (h : (inquiries ε).Reachable ok s) {r : Reading} {e : InquiryEnd}
    (hpc : s.calls i = .finished r e)
    (hundisturbed : r.underMutex = true ∨ s.disturbed i = false) : e.Truthful (s.seen i) r :=
  (ok_of_reachable h i).truthful hpc hundisturbed

/-- `assert_open`, while `reopen` is called and has to wait for the mutex. -/
def assertOpenFirst : List (InquiryAct ℕ) :=
  [.ask .assertOpen, .askClosed 0, .look 0, .test 0, .client (.call .reopen), .read 0, .enter 0,
    .test 0, .read 0]

theorem truthful_of_undisturbed_assertOpenFirst :
    InquiryEnd.passed.Truthful
      (((inquiries ℕ).exec (initial fun _ => 3) assertOpenFirst).seen 0) .connected := by
  have hvalid : (inquiries ℕ).Valid System.anyStep (initial fun _ => 3) assertOpenFirst :=
    ⟨trivial, trivial, ⟨⟨_, rfl⟩, rfl, rfl⟩, trivial, ⟨⟨_, rfl⟩, rfl, rfl⟩, trivial,
      ⟨_, _, rfl, fun _ _ hc => by cases hc⟩, trivial, ⟨trivial, False.elim⟩, trivial,
      ⟨_, _, rfl, fun c _ _ hc => by cases c <;> cases hc⟩, trivial,
      ⟨⟨_, rfl⟩, rfl, rfl⟩, trivial, ⟨_, _, rfl, fun c _ hc => by cases c <;> cases hc⟩, trivial,
      ⟨_, _, rfl, fun c _ _ hc => by cases c <;> cases hc⟩, trivial, trivial⟩
  exact truthful_of_undisturbed (System.Valid.reachable_exec ⟨_, rfl⟩ hvalid) rfl (Or.inl rfl)

/-- The steps of a call of `close` or `reopen` that end handle 0. -/
def closeHandleZero : List (InquiryAct ℕ) :=
  [.client (.control 0 .shutDown), .client (.eventThread 0 .start),
    .client (.control 0 .closeHandle), .client (.control 0 .queueFree)]

/-- `close` comes in between `closed?` and `zkrb_state`. -/
def closeBetween : List (InquiryAct ℕ) :=
  [.ask .state, .askClosed 0, .look 0, .test 0, .client (.call .close),
    .client (.control 0 .enter), .client (.control 0 .test), .client (.control 0 .beginWait),
    .client (.control 0 .resume), .client (.control 0 .joinTimeout)] ++ closeHandleZero ++ [.read 0]

example : ((inquiries ℕ).exec (initial fun _ => 3) closeBetween).calls 0 =
    .finished .state .handleClosed := by
  rfl

/-- `reopen` replaces the handle that `czk` has returned. The client has never been closed. -/
def reopenBetween : List (InquiryAct ℕ) :=
  [.ask .state, .askClosed 0, .look 0, .client (.call .reopen), .client (.control 0 .enter),
    .client (.control 0 .replace)] ++ closeHandleZero ++ [.test 0]

example : ((inquiries ℕ).exec (initial fun _ => 3) reopenBetween).calls 0 =
      .finished .state (.value ZOO_CLOSED_STATE) ∧
    ZOO_CLOSED_STATE ∉ ((inquiries ℕ).exec (initial fun _ => 3) reopenBetween).seen 0 :=
  ⟨rfl, by decide⟩

end Inquiries

end ZookeeperClient
