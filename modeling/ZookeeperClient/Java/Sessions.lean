import ZookeeperClient.Java.Lifecycle

/-!
# The sessions of the Java backend

`reopen` replaces the session of the client, and `close` closes it. Both hold `@mutex`, but `close`
gives it up while it waits for the dispatch thread, and a call of `reopen` may come in between.

## Main definitions

- `JavaLifecycle.Kept` — sessions are closed when they are replaced, and `close` does not raise
- `JavaLifecycle.Over` — the client has been closed, and no call is under way that could change that
- `JavaLifecycle.ReopensFirst`, `JavaLifecycle.ClosesOnly` — conditions on the steps

## Main results

- `no_session_left_behind` — no order of the calls leaves a session behind
- `all_closed_of_reopensFirst` — after `close` every session is closed
- `close_once` — but a session that `reopen` makes after that is closed by another `reopen` only
-/

namespace ZookeeperClient

open Transition

namespace JavaPc

/-- The call is in the block of `unless @_closed`. -/
def inBody : JavaPc → Bool
  | .testing | .tested | .waiting | .woken | .closing => true
  | _ => false

/-- The call has found a dispatch thread and has yet to join it. -/
def waits : JavaPc → Bool
  | .tested | .waiting | .woken => true
  | _ => false

/-- The call is one of `close`. -/
def closes : JavaPc → Bool
  | .called .close | .testing | .tested | .waiting | .woken | .closing | .leaving .close
  | .finished .close | .raised .close => true
  | _ => false

/-- The call is one of `reopen` that has not returned. -/
def reopens : JavaPc → Bool
  | .called .reopen | .replacing | .ensuring _ _ | .leaving .reopen => true
  | _ => false

end JavaPc

namespace JavaLifecycle

variable {ε : Type} {s s' : JavaLifecycle ε}

/-- **Kept in order.** No call of `close` raises an exception. All sessions but `@jzk` have been
closed, save the one that a call of `reopen` is about to close, which holds the mutex. -/
structure Kept (s : JavaLifecycle ε) : Prop where
  not_raised (c : ℕ) : s.calls c ≠ .raised .close
  replaced {h : ℕ} (hlt : h < s.nextJzk) (hne : h ≠ s.jzk) : s.jzkClosed h = true ∨
    ∃ c raises, s.calls c = .ensuring h raises ∧ s.owner = some c

/-- The client has been closed, and neither `close` nor `reopen` is under way. -/
structure Over (s : JavaLifecycle ε) : Prop where
  closed : s.closed = true
  inBody (c : ℕ) : (s.calls c).inBody = false
  reopens (c : ℕ) : (s.calls c).reopens = false

/-- `reopen` has returned when `close` is called, and is not called after that. -/
def ReopensFirst (s : JavaLifecycle ε) : JavaLifecycleAct ε → Prop
  | .call .close => ∀ c, (s.calls c).reopens = false
  | .call .reopen => ∀ c, (s.calls c).closes = false
  | _ => True

/-- `reopen` is not called. -/
def ClosesOnly (_ : JavaLifecycle ε) : JavaLifecycleAct ε → Prop
  | .call .reopen => False
  | _ => True

/-! ## What a step does -/

/-- What a step does, with the facts that let it be taken. -/
inductive Effect (s : JavaLifecycle ε) : JavaLifecycleAct ε → JavaLifecycle ε → Prop where
  | call {op} : Effect s (.call op)
      { s.callTo s.nextCall (.called op) with nextCall := s.nextCall + 1 }
  | enterClose {c} (hpc : s.calls c = .called .close) (hfree : s.owner = none)
      (hopen : s.closed = false) :
      Effect s (.control c .enter) { s.callTo c .testing with closed := true, owner := some c }
  | foundClosed {c} (hpc : s.calls c = .called .close) (hfree : s.owner = none)
      (hclosed : s.closed = true) :
      Effect s (.control c .enter) { s.callTo c (.leaving .close) with owner := some c }
  | enterReopen {c} (hpc : s.calls c = .called .reopen) (hfree : s.owner = none) :
      Effect s (.control c .enter) { s.callTo c .replacing with owner := some c }
  | testNil {c} (hpc : s.calls c = .testing) (hd : s.delivery.dispatcher = none) :
      Effect s (.control c .test) (s.callTo c .closing)
  | testEnded {c} (hpc : s.calls c = .testing) :
      Effect s (.control c .test) (s.callTo c .closing).forgetDispatcher
  | testLive {c d} (hpc : s.calls c = .testing) (hd : s.delivery.dispatcher = some d) :
      Effect s (.control c .test) (s.callTo c .tested)
  | beginWait {c} (hpc : s.calls c = .tested) :
      Effect s (.control c .beginWait)
        { s.callTo c .waiting with
          delivery := { s.delivery with queue := s.delivery.queue.gracefulClose }
          owner := none }
  | resume {c} (hpc : s.calls c = .waiting) (hfree : s.owner = none) :
      Effect s (.control c .resume) { s.callTo c .woken with owner := some c }
  | joinNil {c} (hpc : s.calls c = .woken) (hd : s.delivery.dispatcher = none) :
      Effect s (.control c .join) { s.callTo c (.raised .close) with owner := none }
  | joined {c act} (hpc : s.calls c = .woken) :
      Effect s (.control c act) (s.callTo c .closing).forgetDispatcher
  | closeJzk {c} (hpc : s.calls c = .closing) :
      Effect s (.control c .closeJzk) ((s.callTo c (.leaving .close)).closeSession s.jzk)
  | construct {c} (hpc : s.calls c = .replacing) :
      Effect s (.control c .construct)
        { s.callTo c (.ensuring s.jzk false) with jzk := s.nextJzk, nextJzk := s.nextJzk + 1 }
  | constructRaises {c} (hpc : s.calls c = .replacing) :
      Effect s (.control c .constructRaises) (s.callTo c (.ensuring s.jzk true))
  | reopenRaises {c orig} (hpc : s.calls c = .ensuring orig true) :
      Effect s (.control c .closeOrig)
        { (s.callTo c (.raised .reopen)).closeSession orig with owner := none }
  | replaced {c orig} (hpc : s.calls c = .ensuring orig false) :
      Effect s (.control c .closeOrig) ((s.callTo c (.leaving .reopen)).closeSession orig)
  | leave {c op} (hpc : s.calls c = .leaving op) :
      Effect s (.control c .leave) { s.callTo c (.finished op) with owner := none }
  | thread {d act} (hen : s.delivery.Enabled (s.owner = none) d act) :
      Effect s (.thread d act) { s with delivery := s.delivery.next d act }
  | push {h event} : Effect s (.push h event)
      { s with delivery := s.delivery.push (h, event) }

/-- Everything a step of a call can do. -/
theorem effect_controlNext {c : ℕ} {act : JavaControlAct} (hen : s.ControlEnabled c act) :
    Effect s (.control c act) (s.controlNext c act) := by
  cases act with
  | enter =>
    obtain ⟨⟨op, hpc⟩, hfree⟩ := hen
    cases op with
    | close =>
      cases hc : s.closed with
      | false => simpa [controlNext, hpc, hc] using Effect.enterClose hpc hfree hc
      | true => simpa [controlNext, hpc, hc] using Effect.foundClosed hpc hfree hc
    | reopen => simpa only [controlNext, hpc] using Effect.enterReopen hpc hfree
  | test =>
    cases hd : s.delivery.dispatcher with
    | none => simpa only [controlNext, hd] using Effect.testNil hen hd
    | some d =>
      cases hended : (s.delivery.threads d).ended with
      | true => simpa [controlNext, hd, hended] using Effect.testEnded (s := s) hen
      | false => simpa [controlNext, hd, hended] using Effect.testLive hen hd
  | beginWait => exact .beginWait hen
  | resume => exact .resume hen.1 hen.2
  | join =>
    obtain ⟨hpc, -⟩ := hen
    cases hd : s.delivery.dispatcher with
    | none => simpa only [controlNext, hd] using Effect.joinNil hpc hd
    | some d =>
      have heff : Effect s (.control c .join) (s.callTo c .closing).forgetDispatcher := .joined hpc
      simpa only [controlNext, hd] using heff
  | joinTimeout => exact .joined hen.1
  | closeJzk => exact .closeJzk hen
  | construct => exact .construct hen
  | constructRaises => exact .constructRaises hen
  | closeOrig =>
    obtain ⟨orig, raises, hpc⟩ := hen
    cases raises with
    | true => simpa [controlNext, hpc] using Effect.reopenRaises hpc
    | false => simpa [controlNext, hpc] using Effect.replaced hpc
  | leave =>
    obtain ⟨op, hpc⟩ := hen
    simpa only [controlNext, hpc] using Effect.leave hpc

theorem effect_next {a : JavaLifecycleAct ε} (hen : s.Enabled a) : Effect s a (s.next a) := by
  cases a with
  | call op => exact .call
  | control c act => exact effect_controlNext hen
  | thread d act => exact .thread hen
  | push h event => exact .push

theorem calls_callTo (c c' : ℕ) (pc : JavaPc) :
    (s.callTo c pc).calls c' = if c' = c then pc else s.calls c' := by
  simp only [callTo, Function.update_apply]

/-- What holds of all calls holds after a step of one of them. -/
theorem forall_callTo {P : ℕ → JavaPc → Prop} {c : ℕ} {pc : JavaPc}
    (hs : ∀ c', c' ≠ c → P c' (s.calls c')) (hc : P c pc) (c' : ℕ) :
    P c' ((s.callTo c pc).calls c') := by
  rw [calls_callTo]
  split
  · next heq => exact heq ▸ hc
  · next hne => exact hs c' hne

/-! ## The mutex -/

/-- Calls that have not been made are idle, and whoever is where one holds `@mutex` has it. -/
structure Held (s : JavaLifecycle ε) : Prop where
  numbered {c : ℕ} (hc : s.nextCall ≤ c) : s.calls c = .idle
  owner {c : ℕ} (hc : (s.calls c).holds = true) : s.owner = some c

theorem Held.eq (hs : s.Held) {c c' : ℕ} (hc : (s.calls c).holds = true)
    (hc' : (s.calls c').holds = true) : c = c' := by
  have hsame := (hs.owner hc).symm.trans (hs.owner hc')
  exact Option.some.inj hsame

/-- A call goes on that keeps the mutex, takes it or gives it back. -/
theorem Held.of_call (hs : s.Held) {c : ℕ} {pc : JavaPc} (hmade : s.calls c ≠ .idle)
    (hcalls : s'.calls = (s.callTo c pc).calls) (hnext : s'.nextCall = s.nextCall)
    (hothers : s'.owner = s.owner ∨ s.owner = none ∨ s.owner = some c)
    (hmine : pc.holds = true → s'.owner = some c) : s'.Held := by
  refine ⟨fun {c'} hc' => ?_, fun {c'} hc' => ?_⟩
  · rw [hcalls, calls_callTo, if_neg]
    · exact hs.numbered (hnext ▸ hc')
    · rintro rfl
      exact hmade (hs.numbered (hnext ▸ hc'))
  · rw [hcalls, calls_callTo] at hc'
    split at hc'
    · next heq => exact heq ▸ hmine hc'
    · next hne =>
      have howner := hs.owner hc'
      obtain hsame | hnone | hsome := hothers
      · exact hsame.trans howner
      · simp [hnone] at howner
      · exact absurd (Option.some.inj (howner.symm.trans hsome)) hne

theorem held_next {a : JavaLifecycleAct ε} (hen : s.Enabled a) (hs : s.Held) : (s.next a).Held := by
  have heff := effect_next hen
  generalize s.next a = s' at heff ⊢
  have hkept {c : ℕ} {pc : JavaPc} (hpc : s.calls c = pc) (hholds : pc.holds = true) :
      s.owner = some c := hs.owner (hpc ▸ hholds)
  cases heff with
  | call =>
    have hidle := hs.numbered (Nat.le_refl s.nextCall)
    refine ⟨fun {c'} hc' => ?_, fun {c'} hc' => ?_⟩
    · have hlt : s.nextCall + 1 ≤ c' := hc'
      rw [calls_callTo, if_neg (by omega)]
      exact hs.numbered (by omega)
    · rw [calls_callTo] at hc'
      split at hc'
      · cases hc'
      · exact hs.owner hc'
  | enterClose hpc hfree | foundClosed hpc hfree | enterReopen hpc hfree | resume hpc hfree =>
    exact hs.of_call (by simp [hpc]) rfl rfl (Or.inr (Or.inl hfree)) fun _ => rfl
  | beginWait hpc | joinNil hpc | reopenRaises hpc | leave hpc =>
    exact hs.of_call (by simp [hpc]) rfl rfl (Or.inr (Or.inr (hkept hpc rfl)))
      (by simp [JavaPc.holds])
  | testNil hpc | testEnded hpc | testLive hpc | joined hpc | closeJzk hpc | construct hpc
  | constructRaises hpc | replaced hpc =>
    exact hs.of_call (by simp [hpc]) rfl rfl (Or.inl rfl) fun _ => hkept hpc rfl
  | thread | push => exact ⟨hs.numbered, hs.owner⟩

/-! ## The body of `close` -/

/-- Only one call of `close` is ever in its body, and it has its `@dispatcher` until it forgets
it. -/
structure OneBody (s : JavaLifecycle ε) : Prop where
  closed {c : ℕ} (hc : (s.calls c).inBody = true) : s.closed = true
  alone {c c' : ℕ} (hc : (s.calls c).inBody = true) (hc' : (s.calls c').inBody = true) : c = c'
  waits {c : ℕ} (hc : (s.calls c).waits = true) : s.delivery.dispatcher ≠ none

theorem inBody_of_waits {pc : JavaPc} (h : pc.waits = true) : pc.inBody = true := by
  cases pc <;> first | rfl | cases h

/-- A call goes on that is in its body or does not enter it. -/
theorem OneBody.of_call (hs : s.OneBody) {c : ℕ} {pc : JavaPc}
    (hcalls : s'.calls = (s.callTo c pc).calls) (hclosed : s'.closed = s.closed)
    (hbody : pc.inBody = true → (s.calls c).inBody = true)
    (hothers : s'.delivery.dispatcher = s.delivery.dispatcher ∨ (s.calls c).inBody = true)
    (hmine : pc.waits = true → s'.delivery.dispatcher ≠ none) : s'.OneBody := by
  have hwas {c' : ℕ} (hc' : (s'.calls c').inBody = true) : (s.calls c').inBody = true := by
    rw [hcalls, calls_callTo] at hc'
    split at hc'
    · next heq => exact heq ▸ hbody hc'
    · exact hc'
  refine ⟨fun hc' => hclosed.trans (hs.closed (hwas hc')),
    fun hc' hc'' => hs.alone (hwas hc') (hwas hc''), fun {c'} hc' => ?_⟩
  rw [hcalls, calls_callTo] at hc'
  split at hc'
  · exact hmine hc'
  · next hne =>
    obtain hsame | hmine' := hothers
    · rw [hsame]
      exact hs.waits hc'
    · exact absurd (hs.alone (inBody_of_waits hc') hmine') hne

theorem oneBody_next {a : JavaLifecycleAct ε} (hen : s.Enabled a) (hs : s.OneBody) :
    (s.next a).OneBody := by
  have heff := effect_next hen
  generalize s.next a = s' at heff ⊢
  have hin {c : ℕ} {pc : JavaPc} (hpc : s.calls c = pc) (hbody : pc.inBody = true) :
      (s.calls c).inBody = true := hpc ▸ hbody
  cases heff with
  | call =>
    exact hs.of_call (c := s.nextCall) rfl rfl (by simp [JavaPc.inBody]) (Or.inl rfl)
      (by simp [JavaPc.waits])
  | @enterClose c hpc hfree hopen =>
    -- the client was open, so that nobody was in the body
    have hnobody (c' : ℕ) : (s.calls c').inBody = false := by
      by_contra hc'
      have hclosed := hs.closed (c := c') (by simpa using hc')
      simp [hopen] at hclosed
    have hmine {c' : ℕ} (hc' : ((s.callTo c .testing).calls c').inBody = true) : c' = c := by
      by_contra hne
      simp [calls_callTo, hne, hnobody c'] at hc'
    refine ⟨fun _ => rfl, fun hc' hc'' => (hmine hc').trans (hmine hc'').symm, fun {c'} hc' => ?_⟩
    obtain rfl := hmine (inBody_of_waits hc')
    simp [callTo, JavaPc.waits] at hc'
  | testNil hpc | testEnded hpc | joined hpc =>
    exact hs.of_call rfl rfl (fun _ => hin hpc rfl) (Or.inr (hin hpc rfl)) (by simp [JavaPc.waits])
  | testLive hpc hd =>
    refine hs.of_call rfl rfl (fun _ => hin hpc rfl) (Or.inl rfl) fun _ hnone => ?_
    cases hd.symm.trans hnone
  | beginWait hpc | resume hpc =>
    exact hs.of_call rfl rfl (fun _ => hin hpc rfl) (Or.inl rfl)
      fun _ => hs.waits (by rw [hpc]; rfl)
  | foundClosed | enterReopen | joinNil | closeJzk | construct | constructRaises | reopenRaises
  | replaced | leave =>
    exact hs.of_call rfl rfl (by simp [JavaPc.inBody]) (Or.inl rfl) (by simp [JavaPc.waits])
  | thread hen' =>
    refine ⟨hs.closed, hs.alone, fun hc hnone => hs.waits hc ?_⟩
    rw [← (Delivery.frame_next hen').1]
    exact hnone
  | push => exact ⟨hs.closed, hs.alone, hs.waits⟩

/-! ## The sessions -/

/-- A call goes on, and no session is replaced. -/
theorem Kept.of_call (hs : s.Kept) {c : ℕ} {pc : JavaPc}
    (hcalls : s'.calls = (s.callTo c pc).calls) (hraised : pc ≠ .raised .close)
    (hjzk : s'.jzk = s.jzk) (hnext : s'.nextJzk = s.nextJzk)
    (hclosed : ∀ h, s.jzkClosed h = true → s'.jzkClosed h = true)
    (hmine : ∀ h raises, s.calls c = .ensuring h raises → s'.jzkClosed h = true)
    (hothers : s'.owner = s.owner ∨ s.owner = none ∨ s.owner = some c) : s'.Kept := by
  refine ⟨fun c' => ?_, fun {h} hlt hne => ?_⟩
  · rw [hcalls]
    exact forall_callTo (P := fun _ pc => pc ≠ .raised .close) (fun c' _ => hs.not_raised c')
      hraised c'
  · rw [hjzk] at hne
    rw [hnext] at hlt
    obtain hwas | ⟨c', raises, hpc, howner⟩ := hs.replaced hlt hne
    · exact Or.inl (hclosed h hwas)
    · by_cases hc : c' = c
      · exact Or.inl (hmine h raises (hc ▸ hpc))
      · refine Or.inr ⟨c', raises, ?_, ?_⟩
        · rw [hcalls, calls_callTo, if_neg hc]
          exact hpc
        · obtain hsame | hnone | hsome := hothers
          · exact hsame.trans howner
          · simp [hnone] at howner
          · exact absurd (Option.some.inj (howner.symm.trans hsome)) hc

/-- A session that is closed stays closed. -/
theorem jzkClosed_closeSession {h h' : ℕ} (hh : s.jzkClosed h = true) :
    (s.closeSession h').jzkClosed h = true := by
  by_cases heq : h = h'
  · simp [closeSession, heq]
  · simpa [closeSession, heq] using hh

theorem kept_next {a : JavaLifecycleAct ε} (hen : s.Enabled a) (hheld : s.Held) (hbody : s.OneBody)
    (hs : s.Kept) : (s.next a).Kept := by
  have heff := effect_next hen
  generalize s.next a = s' at heff ⊢
  have hkept {c : ℕ} {pc : JavaPc} (hpc : s.calls c = pc) (hholds : pc.holds = true) :
      s.owner = some c := hheld.owner (hpc ▸ hholds)
  cases heff with
  | call =>
    have hidle := hheld.numbered (Nat.le_refl s.nextCall)
    exact hs.of_call (c := s.nextCall) rfl (by simp) rfl rfl (fun _ => id)
      (by simp [hidle]) (Or.inl rfl)
  | enterClose hpc hfree | foundClosed hpc hfree | enterReopen hpc hfree | resume hpc hfree =>
    exact hs.of_call rfl (by simp) rfl rfl (fun _ => id) (by simp [hpc])
      (Or.inr (Or.inl hfree))
  | beginWait hpc =>
    exact hs.of_call rfl (by simp) rfl rfl (fun _ => id) (by simp [hpc])
      (Or.inr (Or.inr (hkept hpc rfl)))
  | leave hpc =>
    exact hs.of_call rfl (by simp) rfl rfl (fun _ => id) (by simp [hpc])
      (Or.inr (Or.inr (hkept hpc rfl)))
  | testNil hpc | testEnded hpc | testLive hpc | joined hpc | constructRaises hpc =>
    exact hs.of_call rfl (by simp) rfl rfl (fun _ => id) (by simp [hpc]) (Or.inl rfl)
  | joinNil hpc hd => exact absurd hd (hbody.waits (by rw [hpc]; rfl))
  | closeJzk hpc =>
    exact hs.of_call rfl (by simp) rfl rfl (fun _ => jzkClosed_closeSession (s := s))
      (by simp [hpc]) (Or.inl rfl)
  | @construct c hpc =>
    refine ⟨fun c' => ?_, fun {h} hlt hne => ?_⟩
    · exact forall_callTo (P := fun _ pc => pc ≠ .raised .close)
        (fun c' _ => hs.not_raised c') (by simp) c'
    · by_cases hjzk : h = s.jzk
      · refine Or.inr ⟨c, false, ?_, hkept hpc rfl⟩
        simp [callTo, hjzk]
      · have hlt' : h < s.nextJzk + 1 := hlt
        have hne' : h ≠ s.nextJzk := hne
        obtain hwas | ⟨c', raises, hpc', howner⟩ := hs.replaced (h := h) (by omega) hjzk
        · exact Or.inl hwas
        · -- nobody else can be in `ensure`, since this call holds the mutex
          have hsame := Option.some.inj (howner.symm.trans (hkept hpc rfl))
          rw [hsame, hpc] at hpc'
          cases hpc'
  | reopenRaises hpc =>
    refine hs.of_call rfl (by simp) rfl rfl (fun _ => jzkClosed_closeSession (s := s))
      (fun h raises hpc' => ?_) (Or.inr (Or.inr (hkept hpc rfl)))
    obtain ⟨rfl, -⟩ := JavaPc.ensuring.inj (hpc.symm.trans hpc')
    exact Function.update_self _ _ _
  | replaced hpc =>
    refine hs.of_call rfl (by simp) rfl rfl (fun _ => jzkClosed_closeSession (s := s))
      (fun h raises hpc' => ?_) (Or.inl rfl)
    obtain ⟨rfl, -⟩ := JavaPc.ensuring.inj (hpc.symm.trans hpc')
    exact Function.update_self _ _ _
  | thread | push => exact ⟨hs.not_raised, hs.replaced⟩

variable {ok : JavaLifecycle ε → JavaLifecycleAct ε → Prop}

theorem held_of_reachable (h : (javaLifecycle ε).Reachable ok s) : s.Held := by
  refine h.invariant ?_ fun s a hs hen _ => held_next hen hs
  rintro _ ⟨connected, rfl⟩
  exact ⟨fun _ => rfl, fun hc => by cases hc⟩

theorem oneBody_of_reachable (h : (javaLifecycle ε).Reachable ok s) : s.OneBody := by
  refine h.invariant ?_ fun s a hs hen _ => oneBody_next hen hs
  rintro _ ⟨connected, rfl⟩
  refine ⟨fun {_} hc => ?_, fun {_ _} hc => ?_, fun {_} hc => ?_⟩ <;> cases hc

theorem kept_of_reachable (h : (javaLifecycle ε).Reachable ok s) : s.Kept := by
  refine h.invariant_under (I := Kept)
    (fun _ hr => And.intro (held_of_reachable hr) (oneBody_of_reachable hr)) ?_
    fun s a ⟨hheld, hbody⟩ hs hen _ => kept_next hen hheld hbody hs
  rintro _ ⟨connected, rfl⟩
  refine ⟨fun _ hc => (by cases hc), fun {h} hlt hne => ?_⟩
  have hlt' : h < 1 := hlt
  exact absurd (Nat.lt_one_iff.mp hlt') hne

/-- While `close` waits for the dispatch thread, `reopen` replaces the session; `close` goes on to
close the new one. -/
def reopenBetween : List (JavaLifecycleAct ℕ) :=
  [.call .close, .control 0 .enter, .control 0 .test, .control 0 .beginWait, .call .reopen,
    .control 1 .enter, .control 1 .construct, .control 1 .closeOrig, .control 1 .leave,
    .control 0 .resume, .control 0 .joinTimeout, .control 0 .closeJzk, .control 0 .leave]

/-- `reopen` and `close` do not meet, and the session is closed when `close` has come to its
end. -/
structure Apart (s : JavaLifecycle ε) : Prop where
  apart {c d : ℕ} (hc : (s.calls c).closes = true) : (s.calls d).reopens = false
  closes (hs : s.closed = true) : ∃ c, (s.calls c).closes = true
  session (hs : s.closed = true) : (∃ c, (s.calls c).inBody = true) ∨ s.jzkClosed s.jzk = true

theorem closes_of_inBody {pc : JavaPc} (h : pc.inBody = true) : pc.closes = true := by
  cases pc <;> first | rfl | cases h

/-- A call goes on as what it is. -/
theorem Apart.of_call (hs : s.Apart) {c : ℕ} {pc : JavaPc}
    (hcalls : s'.calls = (s.callTo c pc).calls) (hcloses : pc.closes = (s.calls c).closes)
    (hreopens : pc.reopens = true → (s.calls c).reopens = true)
    (hclosed : s'.closed = true → s.closed = true ∨ pc.inBody = true)
    (hsession : s'.closed = true →
      (∃ c, (s'.calls c).inBody = true) ∨ s'.jzkClosed s'.jzk = true) : s'.Apart := by
  have hwas (c' : ℕ) : (s'.calls c').closes = (s.calls c').closes := by
    rw [hcalls]
    exact forall_callTo (P := fun c' pc => pc.closes = (s.calls c').closes) (fun _ _ => rfl)
      hcloses c'
  refine ⟨fun {c' c''} hc' => ?_, fun hclosed' => ?_, hsession⟩
  · have hno := hs.apart (d := c'') ((hwas c').symm.trans hc')
    rw [hcalls, calls_callTo]
    split
    · next heq =>
      rw [heq] at hno
      by_contra hpc
      simp [hreopens (by simpa using hpc)] at hno
    · exact hno
  · obtain hbefore | hbody := hclosed hclosed'
    · obtain ⟨c', hc'⟩ := hs.closes hbefore
      exact ⟨c', (hwas c').trans hc'⟩
    · refine ⟨c, ?_⟩
      rw [hwas c, ← hcloses]
      exact closes_of_inBody hbody

/-- A call that was not the one in the body leaves the session as it is. -/
theorem Apart.session_callTo (hs : s.Apart) {c : ℕ} {pc : JavaPc}
    (hbody : (s.calls c).inBody = true → pc.inBody = true) (hclosed : s.closed = true) :
    (∃ c', ((s.callTo c pc).calls c').inBody = true) ∨ s.jzkClosed s.jzk = true := by
  refine (hs.session hclosed).imp (fun ⟨c', hc'⟩ => ⟨c', ?_⟩) id
  rw [calls_callTo]
  split
  · next heq => exact hbody (heq ▸ hc')
  · exact hc'

theorem apart_next {a : JavaLifecycleAct ε} (hen : s.Enabled a) (hok : s.ReopensFirst a)
    (hheld : s.Held) (hbody : s.OneBody) (hs : s.Apart) : (s.next a).Apart := by
  have heff := effect_next hen
  generalize s.next a = s' at heff ⊢
  cases heff with
  | @call op =>
    have hidle := hheld.numbered (Nat.le_refl s.nextCall)
    have hsession (hclosed : s.closed = true) :
        (∃ c, ((s.callTo s.nextCall (.called op)).calls c).inBody = true) ∨
          s.jzkClosed s.jzk = true :=
      hs.session_callTo (by simp [hidle, JavaPc.inBody]) hclosed
    cases op with
    | close =>
      refine ⟨fun {_ c'} _ => ?_, fun _ => ⟨s.nextCall, by simp [callTo, JavaPc.closes]⟩, hsession⟩
      exact forall_callTo (P := fun _ pc => pc.reopens = false) (fun c' _ => hok c') rfl c'
    | reopen =>
      have hnobody (c' : ℕ) : ((s.callTo s.nextCall (.called .reopen)).calls c').closes = false :=
        forall_callTo (P := fun _ pc => pc.closes = false) (fun c' _ => hok c') rfl c'
      refine ⟨fun {c' _} hc' => ?_, fun hclosed => ?_, hsession⟩
      · exact absurd ((hnobody c').symm.trans hc') Bool.false_ne_true
      · obtain ⟨c', hc'⟩ := hs.closes hclosed
        exact absurd ((hok c').symm.trans hc') Bool.false_ne_true
  | @enterClose c hpc =>
    have hcalls : ({ s.callTo c .testing with
        closed := true
        owner := some c } : JavaLifecycle ε).calls = (s.callTo c .testing).calls := rfl
    exact hs.of_call hcalls (by rw [hpc]; rfl) (by simp [JavaPc.reopens]) (fun _ => Or.inr rfl)
      fun _ => Or.inl ⟨c, by simp [callTo, JavaPc.inBody]⟩
  | testNil hpc | testEnded hpc | testLive hpc | beginWait hpc | resume hpc | joined hpc =>
    exact hs.of_call rfl (by rw [hpc]; rfl) (by simp [JavaPc.reopens]) Or.inl
      (hs.session_callTo fun _ => rfl)
  | joinNil hpc hd => exact absurd hd (hbody.waits (by rw [hpc]; rfl))
  | closeJzk hpc =>
    exact hs.of_call rfl (by rw [hpc]; rfl) (by simp [JavaPc.reopens]) Or.inl
      fun _ => Or.inr (Function.update_self _ _ _)
  | foundClosed hpc =>
    exact hs.of_call rfl (by rw [hpc]; rfl) (by simp [JavaPc.reopens]) Or.inl
      (hs.session_callTo (by simp [hpc, JavaPc.inBody]))
  | enterReopen hpc | constructRaises hpc =>
    exact hs.of_call rfl (by rw [hpc]; rfl) (by simp [hpc, JavaPc.reopens]) Or.inl
      (hs.session_callTo (by simp [hpc, JavaPc.inBody]))
  | @construct c hpc =>
    -- the client has not been closed, since this is a call of `reopen`
    refine hs.of_call rfl (by rw [hpc]; rfl) (by simp [hpc, JavaPc.reopens]) Or.inl
      fun hclosed => ?_
    obtain ⟨c', hc'⟩ := hs.closes hclosed
    have hno := hs.apart (d := c) hc'
    rw [hpc] at hno
    cases hno
  | reopenRaises hpc | replaced hpc =>
    refine hs.of_call rfl (by rw [hpc]; rfl) (by simp [hpc, JavaPc.reopens]) Or.inl
      fun hclosed => ?_
    exact (hs.session_callTo (by simp [hpc, JavaPc.inBody]) hclosed).imp id
      (jzkClosed_closeSession (s := s))
  | @leave c op hpc =>
    refine hs.of_call rfl ?_ (by simp [JavaPc.reopens]) Or.inl
      (hs.session_callTo (by simp [hpc, JavaPc.inBody]))
    rw [hpc]
    cases op <;> rfl
  | thread | push => exact ⟨hs.apart, hs.closes, hs.session⟩

theorem apart_of_reachable (h : (javaLifecycle ε).Reachable ReopensFirst s) : s.Apart := by
  refine h.invariant_under (I := Apart)
    (fun _ hr => And.intro (held_of_reachable hr) (oneBody_of_reachable hr)) ?_
    fun s a ⟨hheld, hbody⟩ hs hen hok => apart_next hen hok hheld hbody hs
  rintro _ ⟨connected, rfl⟩
  refine ⟨fun {_ _} hc => ?_, fun hclosed => ?_, fun hclosed => ?_⟩
  · cases hc
  · cases hclosed
  · cases hclosed

/-- **`close` closes everything.** If `reopen` has returned when `close` is called and is not called
after that, then all sessions that have ever been made are closed as soon as the first call of
`close` to enter has come to its end. -/
theorem all_closed_of_reopensFirst (h : (javaLifecycle ε).Reachable ReopensFirst s)
    (hclosed : s.closed = true) (hover : ∀ c, (s.calls c).inBody = false) {j : ℕ}
    (hj : j < s.nextJzk) : s.jzkClosed j = true := by
  have hs := apart_of_reachable h
  by_cases hjzk : j = s.jzk
  · obtain ⟨c, hc⟩ | hsession := hs.session hclosed
    · exact absurd ((hover c).symm.trans hc) Bool.false_ne_true
    · exact hjzk ▸ hsession
  · obtain hwas | ⟨c, raises, hpc, -⟩ := (kept_of_reachable h).replaced hj hjzk
    · exact hwas
    · -- `reopen` is not under way any more
      obtain ⟨c', hc'⟩ := hs.closes hclosed
      have hno := hs.apart (d := c) hc'
      rw [hpc] at hno
      cases hno

/-- `reopen`, and then `close`, which does not wait any longer for the dispatch thread. -/
def closeAtEnd : List (JavaLifecycleAct ℕ) :=
  [.call .reopen, .control 0 .enter, .control 0 .construct, .control 0 .closeOrig,
    .control 0 .leave, .call .close, .control 1 .enter, .control 1 .test, .control 1 .beginWait,
    .control 1 .resume, .control 1 .joinTimeout, .control 1 .closeJzk, .control 1 .leave]

theorem all_closed_of_reopensFirst_atEnd :
    ((javaLifecycle ℕ).exec (initial true) closeAtEnd).jzkClosed 1 = true := by
  refine all_closed_of_reopensFirst (System.Valid.reachable_exec ⟨true, rfl⟩ ?_) rfl (fun c => ?_)
    (Nat.lt_succ_self 1)
  · refine ⟨trivial, fun _ => rfl, ⟨⟨_, rfl⟩, rfl⟩, trivial, rfl, trivial, ⟨_, _, rfl⟩, trivial,
      ⟨_, rfl⟩, trivial, trivial, fun c => ?_, ⟨⟨_, rfl⟩, rfl⟩, trivial, rfl, trivial, rfl, trivial,
      ⟨rfl, rfl⟩, trivial, ⟨rfl, _, rfl, rfl⟩, trivial, rfl, trivial, ⟨_, rfl⟩, trivial, trivial⟩
    obtain _ | c := c <;> rfl
  · obtain _ | _ | c := c <;> rfl

/-! ## Sessions after the end -/

theorem over_next {a : JavaLifecycleAct ε} (hen : s.Enabled a) (hok : s.ClosesOnly a)
    (hs : s.Over) : (s.next a).Over ∧ (s.next a).jzk = s.jzk ∧
      (s.next a).nextJzk = s.nextJzk ∧ (s.next a).jzkClosed = s.jzkClosed := by
  have heff := effect_next hen
  generalize s.next a = s' at heff ⊢
  have hcall {c : ℕ} {pc : JavaPc} (hbody : pc.inBody = false) (hreopens : pc.reopens = false)
      (hcalls : s'.calls = (s.callTo c pc).calls) (hclosed : s'.closed = s.closed) : s'.Over := by
    refine ⟨hclosed.trans hs.closed, fun c' => ?_, fun c' => ?_⟩ <;> rw [hcalls]
    · exact forall_callTo (P := fun _ pc => pc.inBody = false) (fun c' _ => hs.inBody c') hbody c'
    · exact forall_callTo (P := fun _ pc => pc.reopens = false) (fun c' _ => hs.reopens c')
        hreopens c'
  have hnobody {c : ℕ} {pc : JavaPc} (hpc : s.calls c = pc) (hbody : pc.inBody = true) : False := by
    have hno := hs.inBody c
    rw [hpc, hbody] at hno
    cases hno
  have hnone {c : ℕ} {pc : JavaPc} (hpc : s.calls c = pc) (hreopens : pc.reopens = true) :
      False := by
    have hno := hs.reopens c
    rw [hpc, hreopens] at hno
    cases hno
  cases heff with
  | @call op =>
    cases op with
    | close => exact ⟨hcall rfl rfl rfl rfl, rfl, rfl, rfl⟩
    | reopen => exact hok.elim
  | enterClose _ _ hopen => exact absurd (hopen.symm.trans hs.closed) Bool.false_ne_true
  | foundClosed => exact ⟨hcall rfl rfl rfl rfl, rfl, rfl, rfl⟩
  | @leave c op hpc =>
    cases op with
    | close => exact ⟨hcall rfl rfl rfl rfl, rfl, rfl, rfl⟩
    | reopen => exact (hnone hpc rfl).elim
  | thread | push => exact ⟨⟨hs.closed, hs.inBody, hs.reopens⟩, rfl, rfl, rfl⟩
  | testNil hpc | testEnded hpc | testLive hpc | beginWait hpc | resume hpc | joinNil hpc
  | joined hpc | closeJzk hpc => exact (hnobody hpc rfl).elim
  | enterReopen hpc | construct hpc | constructRaises hpc | reopenRaises hpc | replaced hpc =>
    exact (hnone hpc rfl).elim

/-- **A client is closed once.** When it has been closed, no further call of `close` closes
anything, whatever `reopen` has done in between: the session that is there stays open or closed, as
long as `reopen` is not called. -/
theorem close_once (hs : s.Over) (hrun : (javaLifecycle ε).Reaches ClosesOnly s s') :
    s'.Over ∧ s'.jzk = s.jzk ∧ s'.nextJzk = s.nextJzk ∧ s'.jzkClosed = s.jzkClosed := by
  refine hrun.invariant (I := fun t => t.Over ∧ t.jzk = s.jzk ∧ t.nextJzk = s.nextJzk ∧
    t.jzkClosed = s.jzkClosed) ?_ ⟨hs, rfl, rfl, rfl⟩
  rintro t a ⟨hover, hjzk, hnext, hclosed⟩ hen hok
  obtain ⟨hover', hjzk', hnext', hclosed'⟩ := over_next hen hok hover
  exact ⟨hover', hjzk'.trans hjzk, hnext'.trans hnext, hclosed'.trans hclosed⟩

/-- The client has been closed, and `reopen` has made session 1 after that. -/
def reopenAtEnd : List (JavaLifecycleAct ℕ) :=
  [.call .close, .control 0 .enter, .control 0 .test, .control 0 .closeJzk, .control 0 .leave,
    .call .reopen, .control 1 .enter, .control 1 .construct, .control 1 .closeOrig,
    .control 1 .leave]

/-- `close` is called once more: session 1 stays open. -/
theorem close_once_reopened :
    let s := (javaLifecycle ℕ).exec (initial false) reopenAtEnd
    let s' := (javaLifecycle ℕ).exec s [.call .close, .control 2 .enter, .control 2 .leave]
    s'.Over ∧ s'.jzk = s.jzk ∧ s'.nextJzk = s.nextJzk ∧ s'.jzkClosed = s.jzkClosed := by
  refine close_once ⟨rfl, fun c => ?_, fun c => ?_⟩ (System.Valid.reaches_exec ?_)
  · obtain _ | _ | c := c <;> rfl
  · obtain _ | _ | c := c <;> rfl
  · exact ⟨trivial, trivial, ⟨⟨_, rfl⟩, rfl⟩, trivial, ⟨_, rfl⟩, trivial, trivial⟩

end JavaLifecycle

end ZookeeperClient
