import ZookeeperClient.Lifecycle.Defs

/-!
# What the steps of a client's lifecycle do

## Main results

- `effect_next` — everything a step can do
- `handles_of_reachable` — what holds of each handle: its queue is freed after its event
  thread has ended, and only then are events discarded
-/

namespace ZookeeperClient

open Transition

namespace Lifecycle

variable {ε : Type} {s : Lifecycle ε}

/-- What a step does, with the facts that let it be taken. -/
inductive Effect (s : Lifecycle ε) : LifecycleAct ε → Lifecycle ε → Prop where
  | call {op} : Effect s (.call op)
      { s.callTo s.nextCall (.called op) with nextCall := s.nextCall + 1 }
  | enterClose {c} (hpc : s.calls c = .called .close) (hfree : s.owner = none) :
      Effect s (.control c .enter) { s.callTo c .testing with owner := some c }
  | enterReopen {c} (hpc : s.calls c = .called .reopen) (hfree : s.owner = none) :
      Effect s (.control c .enter) { s.callTo c .replacing with owner := some c }
  | testNil {c} (hpc : s.calls c = .testing) (hd : s.delivery.dispatcher = none) :
      Effect s (.control c .test) (s.callTo c (.closing s.czk .close))
  | testEnded {c d} (hpc : s.calls c = .testing) (hd : s.delivery.dispatcher = some d)
      (hended : (s.delivery.threads d).ended = true) :
      Effect s (.control c .test) (s.callTo c (.closing s.czk .close)).forgetDispatcher
  | testLive {c d} (hpc : s.calls c = .testing) (hd : s.delivery.dispatcher = some d)
      (hlive : (s.delivery.threads d).ended = false) :
      Effect s (.control c .test) (s.callTo c .tested)
  | beginWait {c} (hpc : s.calls c = .tested) :
      Effect s (.control c .beginWait)
        { s.callTo c .waiting with
          delivery := { s.delivery with queue := s.delivery.queue.gracefulClose }
          owner := none }
  | resume {c} (hpc : s.calls c = .waiting) (hfree : s.owner = none) :
      Effect s (.control c .resume) { s.callTo c .woken with owner := some c }
  | joinNil {c} (hpc : s.calls c = .woken) (hd : s.delivery.dispatcher = none) :
      Effect s (.control c .join) { s.callTo c .raised with owner := none }
  | joined {c d} (hpc : s.calls c = .woken) (hd : s.delivery.dispatcher = some d)
      (hended : (s.delivery.threads d).ended = true) :
      Effect s (.control c .join) (s.callTo c (.closing s.czk .close)).forgetDispatcher
  | joinTimeout {c d} (hpc : s.calls c = .woken) (hd : s.delivery.dispatcher = some d)
      (hlive : (s.delivery.threads d).ended = false) :
      Effect s (.control c .joinTimeout) (s.callTo c (.closing s.czk .close)).forgetDispatcher
  | replace {c} (hpc : s.calls c = .replacing) :
      Effect s (.control c .replace)
        { s.callTo c (.closing s.czk .reopen) with
          czk := s.nextCzk
          nextCzk := s.nextCzk + 1 }
  | replaceRaises {c} (hpc : s.calls c = .replacing) :
      Effect s (.control c .replaceRaises) { s.callTo c .raised with owner := none }
  | foundClosed {c h op} (hpc : s.calls c = .closing h op)
      (hclosed : (s.transports h).closed = true) :
      Effect s (.control c .shutDown) (s.callTo c (.leaving op))
  | shutDown {c h op} (hpc : s.calls c = .closing h op)
      (hopen : (s.transports h).closed = false) :
      Effect s (.control c .shutDown) ((s.callTo c (.joining h op)).step h .shutDown)
  | joinedClosed {c h op} (hpc : s.calls c = .joining h op)
      (hclosed : (s.transports h).closed = true) :
      Effect s (.control c .closeHandle) (s.callTo c (.leaving op))
  | closeHandle {c h op} (hpc : s.calls c = .joining h op)
      (hexited : (s.transports h).eventThread = .exited)
      (hopen : (s.transports h).closed = false) :
      Effect s (.control c .closeHandle)
        { (s.callTo c (.destroying h op)).step h .close with
          destroyed := Function.update s.destroyed h (s.destroyed h + 1) }
  | queueFree {c h op} (hpc : s.calls c = .destroying h op) :
      Effect s (.control c .queueFree)
        { (s.callTo c (.leaving op)).step h .free with
          discarded := Function.update s.discarded h (s.discarded h ++ (s.transports h).queue) }
  | leaveClose {c} (hpc : s.calls c = .leaving .close) :
      Effect s (.control c .leave) { s.callTo c .finished with owner := none }
  | leaveReopen {c} (hpc : s.calls c = .leaving .reopen) :
      Effect s (.control c .leave) { s.callTo c .settingUp with owner := none }
  | foundDispatcher {c d} (hpc : s.calls c = .settingUp)
      (hd : s.delivery.dispatcher = some d) :
      Effect s (.control c .readDispatcher) (s.callTo c .finished)
  | foundNil {c} (hpc : s.calls c = .settingUp) (hd : s.delivery.dispatcher = none) :
      Effect s (.control c .readDispatcher) (s.callTo c .spawning)
  | spawn {c} (hpc : s.calls c = .spawning) :
      Effect s (.control c .spawn)
        { s.callTo c (.assigning s.delivery.nextThread) with delivery := s.delivery.spawn }
  | assign {c d} (hpc : s.calls c = .assigning d) :
      Effect s (.control c .assign)
        { s.callTo c .finished with delivery := { s.delivery with dispatcher := some d } }
  | thread {d act} (hen : s.delivery.Enabled (s.owner = none) d act) :
      Effect s (.thread d act) { s with delivery := s.delivery.next d act }
  | enqueue {h event} (hlt : h < s.nextCzk) (hopen : (s.transports h).freed = false) :
      Effect s (.enqueue h event)
        { s.step h (.enqueue event) with
          enqueued := Function.update s.enqueued h (s.enqueued h ++ [event]) }
  | eventThread {h act} (hlt : h < s.nextCzk) (hact : Transport.Internal act)
      (hen : (s.transports h).Enabled act) : Effect s (.eventThread h act) (s.step h act)
  | push {h event} (hlt : h < s.nextCzk) (hpc : (s.transports h).eventThread = .delivering event) :
      Effect s (.push h)
        { s.step h .push with
          delivery := s.delivery.push (h, event)
          pushed := s.pushed ++ [(h, event)] }

/-- Everything a step of a call can do. -/
theorem effect_controlNext {c : ℕ} {act : ControlAct} (hen : s.ControlEnabled c act) :
    Effect s (.control c act) (s.controlNext c act) := by
  cases act with
  | enter =>
    obtain ⟨⟨op, hpc⟩, hfree⟩ := hen
    cases op with
    | close => simpa only [controlNext, hpc] using Effect.enterClose hpc hfree
    | reopen => simpa only [controlNext, hpc] using Effect.enterReopen hpc hfree
  | test =>
    cases hd : s.delivery.dispatcher with
    | none => simpa only [controlNext, hd] using Effect.testNil hen hd
    | some d =>
      cases he : (s.delivery.threads d).ended with
      | true => simpa [controlNext, hd, he] using Effect.testEnded hen hd he
      | false => simpa [controlNext, hd, he] using Effect.testLive hen hd he
  | beginWait => exact .beginWait hen
  | resume => exact .resume hen.1 hen.2
  | join =>
    cases hd : s.delivery.dispatcher with
    | none => simpa only [controlNext, hd] using Effect.joinNil hen.1 hd
    | some d => simpa only [controlNext, hd] using Effect.joined hen.1 hd (hen.2 d hd)
  | joinTimeout =>
    obtain ⟨hpc, d, hd, hlive⟩ := hen
    exact .joinTimeout hpc hd hlive
  | replace => exact .replace hen
  | replaceRaises => exact .replaceRaises hen
  | shutDown =>
    obtain ⟨h, op, hpc⟩ := hen
    cases hc : (s.transports h).closed with
    | true => simpa [controlNext, hpc, hc] using Effect.foundClosed hpc hc
    | false => simpa [controlNext, hpc, hc] using Effect.shutDown hpc hc
  | closeHandle =>
    obtain ⟨h, op, hpc, hexited⟩ := hen
    cases hc : (s.transports h).closed with
    | true => simpa [controlNext, hpc, hc] using Effect.joinedClosed hpc hc
    | false => simpa [controlNext, hpc, hc] using Effect.closeHandle hpc hexited hc
  | queueFree =>
    obtain ⟨h, op, hpc⟩ := hen
    simpa only [controlNext, hpc] using Effect.queueFree hpc
  | leave =>
    obtain ⟨op, hpc⟩ := hen
    cases op with
    | close => simpa only [controlNext, hpc] using Effect.leaveClose hpc
    | reopen => simpa only [controlNext, hpc] using Effect.leaveReopen hpc
  | readDispatcher =>
    cases hd : s.delivery.dispatcher with
    | none => simpa [controlNext, hd] using Effect.foundNil hen hd
    | some d => simpa [controlNext, hd] using Effect.foundDispatcher hen hd
  | spawn => exact .spawn hen
  | assign =>
    obtain ⟨d, hpc⟩ := hen
    simpa only [controlNext, hpc] using Effect.assign hpc

/-- Everything a step can do. -/
theorem effect_next {a : LifecycleAct ε} (hen : s.Enabled a) : Effect s a (s.next a) := by
  cases a with
  | call op => exact .call
  | control c act => exact effect_controlNext hen
  | thread d act => exact .thread hen
  | enqueue h event => exact .enqueue hen.1 hen.2
  | eventThread h act => exact .eventThread hen.1 hen.2.1 hen.2.2
  | push h =>
    obtain ⟨hlt, event, hpc⟩ := hen
    simpa only [next, hpc] using Effect.push hlt hpc

/-! ## The mutex -/

theorem calls_callTo (c c' : ℕ) (pc : ControlPc) :
    (s.callTo c pc).calls c' = if c' = c then pc else s.calls c' := by
  simp only [callTo, Function.update_apply]

/-- The calls whose pc says so hold `@mutex`, and nobody else does. -/
def Owned (s : Lifecycle ε) : Prop :=
  ∀ c, (s.calls c).holds = true ↔ s.owner = some c

theorem Owned.eq (h : s.Owned) {c c' : ℕ} (hc : (s.calls c).holds = true)
    (hc' : (s.calls c').holds = true) : c = c' := by
  have hsame := ((h c).1 hc).symm.trans ((h c').1 hc')
  simpa using hsame

/-- A step of a call that keeps what it has of the mutex. -/
theorem Owned.keep (h : s.Owned) {s' : Lifecycle ε} {c : ℕ} {pc : ControlPc}
    (hcalls : s'.calls = Function.update s.calls c pc) (howner : s'.owner = s.owner)
    (hsame : pc.holds = (s.calls c).holds) : s'.Owned := by
  intro c'
  rw [hcalls, howner, ← h c', Function.update_apply]
  split
  · next heq => rw [hsame, heq]
  · rfl

theorem Owned.take (h : s.Owned) {s' : Lifecycle ε} {c : ℕ} {pc : ControlPc}
    (hcalls : s'.calls = Function.update s.calls c pc) (hfree : s.owner = none)
    (howner : s'.owner = some c) (hpc : pc.holds = true) : s'.Owned := by
  intro c'
  have hnot := h c'
  rw [hcalls, howner, Function.update_apply]
  rw [hfree] at hnot
  split
  · next heq => simp [hpc, heq]
  · next hne => simpa [Ne.symm hne] using hnot

theorem Owned.give (h : s.Owned) {s' : Lifecycle ε} {c : ℕ} {pc : ControlPc}
    (hcalls : s'.calls = Function.update s.calls c pc) (hheld : (s.calls c).holds = true)
    (howner : s'.owner = none) (hpc : pc.holds = false) : s'.Owned := by
  intro c'
  rw [hcalls, howner, Function.update_apply]
  split
  · simp [hpc]
  · next hne =>
    have hnot : (s.calls c').holds ≠ true := fun hc' => hne (h.eq hc' hheld)
    simpa using hnot

/-- Calls that have not been made yet are idle. -/
def Numbered (s : Lifecycle ε) : Prop :=
  ∀ c, s.nextCall ≤ c → s.calls c = .idle

theorem numbered_next {a : LifecycleAct ε} (hen : s.Enabled a) (hs : s.Numbered) :
    (s.next a).Numbered := by
  have heff := effect_next hen
  generalize s.next a = s' at heff ⊢
  have hother {c c' : ℕ} {pc : ControlPc} (hne : s.calls c ≠ .idle) (hc' : s.nextCall ≤ c') :
      (s.callTo c pc).calls c' = .idle := by
    rw [calls_callTo, if_neg]
    · exact hs c' hc'
    · rintro rfl
      exact hne (hs _ hc')
  intro c' hc'
  cases heff with
  | call =>
    have hlt : s.nextCall + 1 ≤ c' := hc'
    rw [calls_callTo, if_neg (by omega)]
    exact hs c' (by omega)
  | thread | enqueue | eventThread | push => exact hs c' hc'
  | enterClose hpc | enterReopen hpc | testNil hpc | testEnded hpc | testLive hpc
  | beginWait hpc | resume hpc | joinNil hpc | joined hpc | joinTimeout hpc | replace hpc
  | replaceRaises hpc | foundClosed hpc | shutDown hpc | joinedClosed hpc | closeHandle hpc
  | queueFree hpc | leaveClose hpc | leaveReopen hpc | foundDispatcher hpc | foundNil hpc
  | spawn hpc | assign hpc => exact hother (by simp [hpc]) hc'

theorem owned_next {a : LifecycleAct ε} (hen : s.Enabled a) (hnum : s.Numbered)
    (hs : s.Owned) : (s.next a).Owned := by
  have heff := effect_next hen
  generalize s.next a = s' at heff ⊢
  cases heff with
  | call => exact hs.keep rfl rfl (by simp [hnum s.nextCall (Nat.le_refl _), ControlPc.holds])
  | enterClose hpc hfree | enterReopen hpc hfree | resume hpc hfree =>
    exact hs.take rfl hfree rfl rfl
  | beginWait hpc | joinNil hpc | replaceRaises hpc | leaveClose hpc | leaveReopen hpc =>
    exact hs.give rfl (by rw [hpc]; rfl) rfl rfl
  | thread | enqueue | eventThread | push => exact hs
  | testNil hpc | testEnded hpc | testLive hpc | joined hpc | joinTimeout hpc | replace hpc
  | foundClosed hpc | shutDown hpc | joinedClosed hpc | closeHandle hpc | queueFree hpc
  | foundDispatcher hpc | foundNil hpc | spawn hpc | assign hpc =>
    exact hs.keep rfl rfl (by rw [hpc]; rfl)

theorem owned_of_reachable {ok : Lifecycle ε → LifecycleAct ε → Prop}
    (h : (lifecycle ε).Reachable ok s) : s.Numbered ∧ s.Owned := by
  refine h.invariant (I := fun s => s.Numbered ∧ s.Owned) ?_ fun s a ⟨hnum, hs⟩ hen _ =>
    ⟨numbered_next hen hnum, owned_next hen hnum hs⟩
  rintro _ rfl
  exact ⟨fun _ _ => rfl, fun c => by simp [initial, ControlPc.holds]⟩

/-! ## The handles -/

theorem transports_step (h h' : ℕ) (act : TransportAct ε) :
    (s.step h act).transports h' =
      if h' = h then (s.transports h').next act else s.transports h' := by
  by_cases hh : h' = h
  · subst hh
    simp [step]
  · simp [step, hh]

/-- A step moves a handle's transport by one step or leaves it alone. -/
theorem transports_next {a : LifecycleAct ε} (hen : s.Enabled a) (h : ℕ) :
    (s.next a).transports h = s.transports h ∨
      ∃ act, (s.next a).transports h = (s.transports h).next act := by
  have heff := effect_next hen
  generalize s.next a = s' at heff ⊢
  have hstep (h' : ℕ) (act : TransportAct ε) :
      (s.step h' act).transports h = s.transports h ∨
        ∃ act', (s.step h' act).transports h = (s.transports h).next act' := by
    rw [transports_step]
    split
    · exact Or.inr ⟨act, rfl⟩
    · exact Or.inl rfl
  cases heff with
  | shutDown | closeHandle | queueFree | enqueue | eventThread | push => exact hstep _ _
  | _ => exact Or.inl rfl

theorem shuttingDown_next {a : LifecycleAct ε} (hen : s.Enabled a) {h : ℕ}
    (hs : (s.transports h).shuttingDown = true) :
    ((s.next a).transports h).shuttingDown = true := by
  obtain hsame | ⟨act, hact⟩ := transports_next hen h
  · rwa [hsame]
  · rw [hact]
    exact Transport.shuttingDown_next hs act

theorem closed_next {a : LifecycleAct ε} (hen : s.Enabled a) {h : ℕ}
    (hs : (s.transports h).closed = true) : ((s.next a).transports h).closed = true := by
  obtain hsame | ⟨act, hact⟩ := transports_next hen h
  · rwa [hsame]
  · rw [hact]
    exact Transport.closed_next hs act

theorem freed_next {a : LifecycleAct ε} (hen : s.Enabled a) {h : ℕ}
    (hs : (s.transports h).freed = true) : ((s.next a).transports h).freed = true := by
  obtain hsame | ⟨act, hact⟩ := transports_next hen h
  · rwa [hsame]
  · rw [hact]
    exact Transport.freed_next hs act

/-- Every handle's transport is in a state that a transport can reach, and a call that is in
`zookeeper_close` has found the event thread ended. -/
structure Handles (s : Lifecycle ε) : Prop where
  reachable (h : ℕ) : (transport ε).Reachable System.anyStep (s.transports h)
  destroying {c h : ℕ} {op : ControlOp} (hpc : s.calls c = .destroying h op) :
    (s.transports h).Enabled .free

/-- A handle whose transport takes a step, or none. -/
theorem Handles.step (hs : s.Handles) {h : ℕ} {act : TransportAct ε}
    (hen : (s.transports h).Enabled act) (h' : ℕ) :
    (transport ε).Reachable System.anyStep ((s.step h act).transports h') := by
  rw [transports_step]
  split
  · next heq =>
    subst heq
    exact (hs.reachable h').next act hen trivial
  · exact hs.reachable h'

theorem Handles.step_destroying (hs : s.Handles) {c h h' : ℕ} {op : ControlOp}
    {act : TransportAct ε} (hpc : s.calls c = .destroying h' op)
    (hen : (s.transports h).Enabled act) (hact : act ≠ .free) :
    ((s.step h act).transports h').Enabled .free := by
  rw [transports_step]
  split
  · next heq =>
    subst heq
    exact Transport.enabled_free_next (hs.destroying hpc) hen hact
  · exact hs.destroying hpc

/-- An open handle is not freed. -/
theorem Handles.freed_eq_false (hs : s.Handles) {h : ℕ} (hopen : (s.transports h).closed = false) :
    (s.transports h).freed = false := by
  by_contra hf
  have := (Transport.orderly_of_reachable (hs.reachable h)).closed_of_freed (by simpa using hf)
  simp [hopen] at this

theorem handles_next {a : LifecycleAct ε} (hen : s.Enabled a) (howned : s.Owned)
    (hs : s.Handles) : (s.next a).Handles := by
  have heff := effect_next hen
  generalize s.next a = s' at heff ⊢
  have hcall {c c' h : ℕ} {pc : ControlPc} {op : ControlOp}
      (hpc : (s.callTo c pc).calls c' = .destroying h op) (hne : pc ≠ .destroying h op) :
      s.calls c' = .destroying h op := by
    rw [calls_callTo] at hpc
    split at hpc
    · exact absurd hpc hne
    · exact hpc
  cases heff with
  | shutDown hpc hopen =>
    refine ⟨fun h' => ?_, fun hpc' => hs.step_destroying (hcall hpc' (by simp)) trivial (by simp)⟩
    exact hs.step (Transport.enabled_shutDown _) h'
  | @closeHandle c h op hpc hexited hopen =>
    refine ⟨hs.step ⟨hexited, hopen⟩, fun {c' h' op'} hpc' => ?_⟩
    by_cases hc : c' = c
    · subst hc
      obtain ⟨rfl, rfl⟩ : h = h' ∧ op = op' := by simpa [callTo, Lifecycle.step] using hpc'
      have hfree : (s.transports h).freed = false := hs.freed_eq_false hopen
      simp [Lifecycle.step, Transport.Enabled, Transport.next, callTo, hexited, hfree]
    · have hwas : s.calls c' = .destroying h' op' := by
        simpa [callTo, Lifecycle.step, hc] using hpc'
      exact hs.step_destroying hwas ⟨hexited, hopen⟩ (by simp)
  | @queueFree c h op hpc =>
    refine ⟨hs.step (hs.destroying hpc), fun {c' h' op'} hpc' => ?_⟩
    have hpc'' := hcall hpc' (by simp)
    -- only the owner of the mutex is destroying a handle
    obtain rfl : c' = c := howned.eq (by rw [hpc'']; rfl) (by rw [hpc]; rfl)
    simp [callTo, Lifecycle.step] at hpc'
  | enqueue hlt hopen =>
    exact ⟨hs.step hopen, fun hpc' => hs.step_destroying hpc' hopen (by simp)⟩
  | @eventThread h act hlt hact hen' =>
    refine ⟨hs.step hen', fun hpc' => hs.step_destroying hpc' hen' ?_⟩
    rintro rfl
    exact hact
  | push hlt hpc =>
    exact ⟨hs.step ⟨_, hpc⟩, fun hpc' => hs.step_destroying hpc' ⟨_, hpc⟩ (by simp)⟩
  | thread => exact ⟨hs.reachable, hs.destroying⟩
  | _ => exact ⟨hs.reachable, fun hpc' => hs.destroying (hcall hpc' (by simp))⟩

/-- Every handle is a transport, whatever happens around it. -/
theorem handles_of_reachable {ok : Lifecycle ε → LifecycleAct ε → Prop}
    (h : (lifecycle ε).Reachable ok s) : s.Handles := by
  refine h.invariant_under (I := Handles) (fun _ => owned_of_reachable) ?_
    fun s a ⟨_, howned⟩ hs hen _ => handles_next hen howned hs
  rintro _ rfl
  exact ⟨fun _ => .of_init rfl, nofun⟩

end Lifecycle

end ZookeeperClient
