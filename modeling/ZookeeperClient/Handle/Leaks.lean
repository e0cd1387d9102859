import ZookeeperClient.Handle.Memory
import ZookeeperClient.Transition.Basic

/-!
# What an instance leaks

The runs of the memory of `Handle.Memory`, with the ledger at their side. Two things follow from
the ledger alone: the events come out in the order in which they went in, and what is lost is lost
in certain steps only.

## Main definitions

- `memory`, `ledger` — the two transition systems
- `Clean` — a step that loses nothing

## Main results

- `no_memory_fault` — no run comes to a fault
- `handed_in_order` — `get_next_event` returns what the callbacks were given, in their order
- `nothing_leaks` — when the memory is empty at the end but for the structure of the instance
-/

namespace ZookeeperClient

namespace Marshal

namespace EventMemory

open Memory Transition
open scoped Pointwise

/-! ## Runs -/

section Runs

variable (h : CHandle) (env : Allocators) (junk : ℕ → ZkrbEventLl ℕ ℕ)

/-- One instance, whose state is `none` after a fault. -/
def memory : System (Option Instance) MemoryAct where
  Init s := ∃ isInit, s = Instance.zkrbInit junk isInit
  Enabled s a := ∃ inst, s = some inst ∧ Permitted inst a
  next s a := s.bind fun inst => inst.step h env junk a

/-- The ledgers. A step goes with what is left behind if a method raises an exception. -/
def ledger : System Ledger (List Lost × MemoryAct) where
  Init l := ∃ isInit, l = Ledger.init isInit
  Enabled _ b := ∀ x ∈ b.1, x.OfRaise
  next l b := l.next h env b.1 b.2

variable {h env junk}

/-- **A run** comes to no fault, and the ledger follows it to its end. -/
theorem owns_exec {s : Instance} {l : Ledger} (hs : Owns s l) {as : List MemoryAct}
    (has : (memory h env junk).Valid System.anyStep (some s) as) :
    ∃ bs s', bs.map Prod.snd = as ∧ (ledger h env).Valid System.anyStep l bs ∧
      (memory h env junk).exec (some s) as = some s' ∧ Owns s' ((ledger h env).exec l bs) := by
  induction as generalizing s l with
  | nil => exact ⟨[], s, rfl, trivial, rfl, hs⟩
  | cons a as ih =>
    obtain ⟨⟨inst, hinst, ha⟩, -, hrest⟩ := has
    obtain rfl := Option.some.inj hinst
    obtain ⟨raised, hraised, s', hstep, hs'⟩ := owns_step h env junk hs ha
    have hnext : (memory h env junk).next (some s) a = some s' := hstep
    rw [hnext] at hrest
    obtain ⟨bs, s'', hmap, hvalid, hexec, hs''⟩ := ih hs' hrest
    refine ⟨(raised, a) :: bs, s'', ?_, ⟨hraised, trivial, hvalid⟩, ?_, hs''⟩
    · rw [List.map_cons, hmap]
    · rw [System.exec_cons, hnext, hexec]

/-- What a ledger has returned are the callbacks that have been reported, without those whose
events are in the queue. -/
structure InOrder (l : Ledger) : Prop where
  returned : l.returned <+: l.reported.map hashOf
  whole : l.isOpen → l.returned ++ l.events.map hashOf = l.reported.map hashOf

theorem InOrder.callback {l : Ledger} (hl : InOrder l) (ctx : CallingContext) (inv : Invocation) :
    InOrder (l.callback ctx inv) where
  returned := by
    show l.returned <+: (l.reported ++ [(ctx, inv)]).map hashOf
    rw [List.map_append]
    exact hl.returned.trans (List.prefix_append _ _)
  whole hopen := by
    show l.returned ++ (l.events ++ [(ctx, inv)]).map hashOf =
      (l.reported ++ [(ctx, inv)]).map hashOf
    rw [List.map_append, List.map_append, ← List.append_assoc, hl.whole hopen]

theorem InOrder.next {l : Ledger} (hl : InOrder l) (raised : List Lost) (a : MemoryAct) :
    InOrder (l.next h env raised a) := by
  have hdestroy : InOrder l.destroy := ⟨hl.returned, nofun⟩
  cases a with
  | call m =>
    simp only [Ledger.next]
    split <;> exact ⟨hl.returned, hl.whole⟩
  | ret i reply =>
    simp only [Ledger.next]
    split
    · exact hl
    · exact ⟨hl.returned, hl.whole⟩
  | complete i inv =>
    simp only [Ledger.next]
    split
    · exact hl
    · next ctx _ => exact ⟨(hl.callback ctx inv).returned, (hl.callback ctx inv).whole⟩
  | sessionEvent state path =>
    simp only [Ledger.next]
    split
    · exact hl.callback _ _
    · exact hl
  | watchEvent i type state path =>
    simp only [Ledger.next]
    split
    · exact hl
    · next ctx _ =>
      have hcallback := hl.callback ctx (.state type state path)
      split
      · exact hcallback
      · exact ⟨hcallback.returned, hcallback.whole⟩
  | getNextEvent =>
    simp only [Ledger.next]
    split
    · exact hl
    · next event events hevents =>
      split
      · next hopen =>
        have hwhole := hl.whole hopen
        rw [hevents, List.map_cons, List.append_cons] at hwhole
        exact ⟨⟨_, hwhole⟩, fun _ => hwhole⟩
      · exact hl
  | closeHandle =>
    simp only [Ledger.next]
    split
    · exact hdestroy
    · exact hl
  | dropCompletion i | dropWatch i =>
    simp only [Ledger.next]
    split
    · exact hl
    · exact ⟨hl.returned, hl.whole⟩
  | finalize => exact hdestroy

/-! ### What is lost -/

/-- What is lost takes up memory. -/
def Lost.OwnsBlock : Lost → Prop
  | .pointers n => n ≠ 0
  | .children names => names ≠ []
  | .context _ | .partialAcls _ _ | .acls _ => True

theorem Lost.ne_zero_of_mem {x : Lost} (hx : x.OwnsBlock) {own : Multiset (ℕ × Cell)}
    (hown : own ∈ x.at') : own ≠ 0 := by
  cases x with
  | context ctx =>
    obtain ⟨p, hown⟩ := Set.mem_iUnion.mp hown
    exact ne_zero_of_mem_pointsTo_add ((add_zero (contextAt p ctx)).ge hown)
  | partialAcls n converted =>
    obtain ⟨p, hown⟩ := Set.mem_iUnion.mp hown
    obtain ⟨d, hown⟩ := Set.mem_iUnion.mp hown
    obtain ⟨cs, hown⟩ := Set.mem_iUnion.mp hown
    rw [add_assoc] at hown
    exact ne_zero_of_mem_pointsTo_add hown
  | acls v =>
    obtain ⟨p, hown⟩ := Set.mem_iUnion.mp hown
    obtain ⟨data, hown⟩ := Set.mem_iUnion.mp hown
    exact ne_zero_of_mem_pointsTo_add hown
  | pointers n =>
    obtain ⟨n, rfl⟩ := Nat.exists_eq_succ_of_ne_zero hx
    obtain ⟨data, hown⟩ := Set.mem_iUnion.mp hown
    obtain ⟨cs, hown⟩ := Set.mem_iUnion.mp hown
    obtain ⟨-, hown⟩ := mem_fact_add.mp hown
    exact ne_zero_of_mem_pointsTo_add ((add_zero (pointsTo data _)).ge hown)
  | children names =>
    obtain ⟨data, hown⟩ := Set.mem_iUnion.mp hown
    cases data with
    | none => exact absurd hown.1 hx
    | some d =>
      obtain ⟨-, hown⟩ := mem_fact_add.mp hown
      obtain ⟨cs, hown⟩ := Set.mem_iUnion.mp hown
      exact ne_zero_of_mem_pointsTo_add hown

/-- What is lost is nothing exactly if the list is empty. -/
theorem Lost.eq_nil_iff {lost : List Lost} (hlost : ∀ x ∈ lost, x.OwnsBlock)
    {own : Multiset (ℕ × Cell)} (hown : own ∈ Lost.all lost) : own = 0 ↔ lost = [] := by
  cases lost with
  | nil => exact ⟨fun _ => rfl, fun _ => hown⟩
  | cons x lost =>
    obtain ⟨own, hx, rest, -, rfl⟩ := hown
    refine ⟨fun hzero => ?_, nofun⟩
    have hown := Lost.ne_zero_of_mem (hlost x List.mem_cons_self) hx
    exact absurd (Multiset.le_zero.mp (hzero ▸ Multiset.le_add_right own rest)) hown

theorem Lost.OfRaise.ownsBlock {x : Lost} (hx : x.OfRaise) : x.OwnsBlock := by
  cases x with
  | context | partialAcls | acls => trivial
  | pointers | children => cases hx

theorem ownsBlock_lostWith (event : CallingContext × Invocation) :
    ∀ x ∈ lostWith event, x.OwnsBlock := by
  unfold lostWith
  split
  · exact List.forall_mem_nil _
  · next hne =>
    intro x hx
    obtain rfl := List.mem_singleton.mp hx
    exact hne

theorem ownsBlock_left (m : MethodCall) (isSync : Bool) (reply : Reply) :
    ∀ x ∈ m.left isSync reply, x.OwnsBlock := by
  cases m with
  | getChildren reqid path async watch =>
    intro x hx
    simp only [MethodCall.left] at hx
    split at hx
    · next hok =>
      obtain rfl := List.mem_singleton.mp hx
      simpa [Lost.OwnsBlock, stringVector, CVector.ofList] using hok.2.2
    · cases hx
  | _ => exact List.forall_mem_nil _

/-- Everything that is lost takes up memory. -/
theorem ownsBlock_next {l : Ledger} (hl : ∀ x ∈ l.lost, x.OwnsBlock) {raised : List Lost}
    (hraised : ∀ x ∈ raised, x.OfRaise) (a : MemoryAct) :
    ∀ x ∈ (l.next h env raised a).lost, x.OwnsBlock := by
  have happend {lost : List Lost} (hlost : ∀ x ∈ lost, x.OwnsBlock) :
      ∀ x ∈ l.lost ++ lost, x.OwnsBlock := by
    intro x hx
    obtain hx | hx := List.mem_append.mp hx
    · exact hl x hx
    · exact hlost x hx
  have hdestroy : ∀ x ∈ l.destroy.lost, x.OwnsBlock := by
    refine happend fun x hx => ?_
    obtain ⟨event, -, hx⟩ := List.mem_flatMap.mp hx
    exact ownsBlock_lostWith event x hx
  cases a with
  | call m =>
    simp only [Ledger.next]
    split
    · exact happend fun x hx => (hraised x hx).ownsBlock
    · exact hl
  | ret i reply =>
    simp only [Ledger.next]
    split
    · exact hl
    · exact happend (ownsBlock_left _ _ _)
  | complete i inv =>
    simp only [Ledger.next]
    split
    · exact hl
    · refine happend ?_
      split
      · exact List.forall_mem_nil _
      · exact fun x hx => List.mem_singleton.mp hx ▸ trivial
  | sessionEvent state path =>
    simp only [Ledger.next]
    split <;> exact hl
  | watchEvent i type state path =>
    simp only [Ledger.next]
    split
    · exact hl
    · split <;> exact hl
  | getNextEvent =>
    simp only [Ledger.next]
    split
    · exact hl
    · split
      · exact happend (ownsBlock_lostWith _)
      · exact hl
  | closeHandle =>
    simp only [Ledger.next]
    split
    · exact hdestroy
    · exact hl
  | dropCompletion i | dropWatch i =>
    simp only [Ledger.next]
    split
    · exact hl
    · exact happend fun x hx => List.mem_singleton.mp hx ▸ trivial
  | finalize => exact hdestroy

variable (h env) in
/-- A step that loses nothing. -/
def Clean (l : Ledger) : List Lost × MemoryAct → Prop
  | (raised, .call m) =>
    (∃ args, m.args { h with isOpen := l.isOpen } env = .ok args) ∨ raised = []
  | (_, .ret i reply) => ∀ c, l.calls[i]? = some c → c.method.left c.isSync reply = []
  | (_, .complete i inv) => ∀ ctx, l.completions[i]? = some ctx → frees ctx inv
  | (_, .getNextEvent) => l.isOpen → ∀ event ∈ l.events.head?, leakedPointers event.2 = 0
  | (_, .closeHandle) => l.isOpen → ∀ event ∈ l.events, leakedPointers event.2 = 0
  | (_, .dropCompletion i) => l.completions.length ≤ i
  | (_, .dropWatch i) => l.watches.length ≤ i
  | (_, .finalize) => ∀ event ∈ l.events, leakedPointers event.2 = 0
  | (_, .sessionEvent _ _) | (_, .watchEvent _ _ _ _) => True

theorem lostWith_eq_nil {event : CallingContext × Invocation} :
    lostWith event = [] ↔ leakedPointers event.2 = 0 := by
  unfold lostWith
  split <;> simp_all

theorem lost_destroy (l : Ledger) :
    l.destroy.lost = l.lost ↔ ∀ event ∈ l.events, leakedPointers event.2 = 0 := by
  simp [Ledger.destroy, lostWith_eq_nil]

/-- **A step is clean** exactly if nothing is lost with it. -/
theorem clean_iff (l : Ledger) (b : List Lost × MemoryAct) :
    Clean h env l b ↔ (l.next h env b.1 b.2).lost = l.lost := by
  obtain ⟨raised, a⟩ := b
  cases a with
  | call m =>
    simp only [Clean, Ledger.next]
    split
    · next e herror => simp [herror]
    · next args hargs => simp [hargs]
  | ret i reply =>
    simp only [Clean, Ledger.next]
    split
    · next hnone => simp [hnone]
    · next c hc => simp [hc]
  | complete i inv =>
    simp only [Clean, Ledger.next]
    split
    · next hnone => simp [hnone]
    · next ctx hctx => simp [hctx]
  | sessionEvent state path =>
    simp only [Clean, Ledger.next]
    split <;> simp [Ledger.callback]
  | watchEvent i type state path =>
    simp only [Clean, Ledger.next]
    split
    · simp
    · split <;> simp [Ledger.callback]
  | getNextEvent =>
    simp only [Clean, Ledger.next]
    split
    · next hnil => simp [hnil]
    · next event events hevents =>
      split
      · next hopen => simp [hevents, hopen, lostWith_eq_nil]
      · next hclosed => simp [hclosed]
  | closeHandle =>
    simp only [Clean, Ledger.next]
    split
    · next hopen => simp [hopen, lost_destroy]
    · next hclosed => simp [hclosed]
  | dropCompletion i | dropWatch i =>
    simp only [Clean, Ledger.next]
    split
    · next hnone => simpa using hnone
    · next ctx hctx => simpa using (List.getElem?_eq_some_iff.mp hctx).1
  | finalize => exact (lost_destroy l).symm

variable (h env) in
theorem lost_prefix_next (l : Ledger) (b : List Lost × MemoryAct) :
    l.lost <+: (l.next h env b.1 b.2).lost := by
  obtain ⟨raised, a⟩ := b
  cases a with
  | call m | ret i reply | complete i inv | dropCompletion i | dropWatch i =>
    simp only [Ledger.next]
    split <;> simp
  | sessionEvent state path =>
    simp only [Ledger.next]
    split <;> simp [Ledger.callback]
  | watchEvent i type state path =>
    simp only [Ledger.next]
    split
    · simp
    · split <;> simp [Ledger.callback]
  | getNextEvent =>
    simp only [Ledger.next]
    split
    · simp
    · split <;> simp
  | closeHandle =>
    simp only [Ledger.next]
    split <;> simp [Ledger.destroy]
  | finalize => exact List.prefix_append _ _

variable (h env) in
theorem lost_prefix_exec (l : Ledger) (bs : List (List Lost × MemoryAct)) :
    l.lost <+: ((ledger h env).exec l bs).lost := by
  induction bs generalizing l with
  | nil => exact List.prefix_rfl
  | cons b bs ih => exact (lost_prefix_next h env l b).trans (ih _)

/-- **A run loses nothing** exactly if each of its steps is clean. -/
theorem valid_clean_iff {l : Ledger} {bs : List (List Lost × MemoryAct)}
    (hbs : (ledger h env).Valid System.anyStep l bs) :
    (ledger h env).Valid (Clean h env) l bs ↔ ((ledger h env).exec l bs).lost = l.lost := by
  induction bs generalizing l with
  | nil => exact ⟨fun _ => rfl, fun _ => trivial⟩
  | cons b bs ih =>
    obtain ⟨hb, -, hrest⟩ := hbs
    have hnext := lost_prefix_next h env l b
    constructor
    · rintro ⟨-, hclean, hvalid⟩
      exact ((ih hrest).mp hvalid).trans ((clean_iff l b).mp hclean)
    · intro hlost
      have hstep : (l.next h env b.1 b.2).lost = l.lost := by
        have hlast := lost_prefix_exec h env (l.next h env b.1 b.2) bs
        rw [System.exec_cons] at hlost
        refine (hnext.eq_of_length (Nat.le_antisymm hnext.length_le ?_)).symm
        rw [← hlost]
        exact hlast.length_le
      exact ⟨hb, (clean_iff l b).mpr hstep, (ih hrest).mpr (hlost.trans hstep.symm)⟩

/-- The structure of the instance stays where it is. -/
theorem Owns.heap_block {s : Instance} {l : Ledger} (hs : Owns s l) :
    s.arena.heap s.block = some .instanceData := by
  obtain ⟨events, hm, -⟩ := hs.blocks
  have hfirst : ∃ R, ledgerAt s events l = instanceAt s.block + R := by
    unfold ledgerAt
    cases hzh : s.zh with
    | none =>
      simp only [sessionAt, add_assoc]
      exact ⟨_, rfl⟩
    | some ctx =>
      simp only [sessionAt, add_assoc]
      exact ⟨_, rfl⟩
  obtain ⟨R, hR⟩ := hfirst
  obtain ⟨_, ⟨_, rfl, own, -, rfl⟩, hholds⟩ := hm.of_eq hR
  exact hholds.heap_eq

/-- When nobody has anything any more, what is left besides the structure is lost. -/
theorem Owns.heap_eq_none_iff {s : Instance} {l : Ledger} (hs : Owns s l)
    (hqueue : s.queue = none) (hcompletions : s.completions = []) (hwatches : s.watches = [])
    (hcalls : s.calls = []) (hlost : ∀ x ∈ l.lost, x.OwnsBlock) :
    (∀ p, p ≠ s.block → s.arena.heap p = none) ↔ l.lost = [] := by
  obtain ⟨events, hm, -, hnone⟩ := hs.blocks
  obtain rfl := hnone hqueue
  have hzh := hs.queue hqueue
  obtain ⟨hlenc, hlenw, hlen, hlene⟩ := lengths_of_sat hm
  rw [hcompletions] at hlenc
  rw [hwatches] at hlenw
  rw [hcalls] at hlen
  obtain ⟨own, hown, hholds⟩ := hm
  have hall : own ∈ instanceAt s.block + Lost.all l.lost := by
    simpa only [ledgerAt, hzh, sessionAt, hcompletions, hwatches, hcalls,
      List.eq_nil_of_length_eq_zero hlenc.symm, List.eq_nil_of_length_eq_zero hlenw.symm,
      List.eq_nil_of_length_eq_zero hlen.symm, List.eq_nil_of_length_eq_zero hlene.symm,
      listAt_nil, add_zero] using hown
  obtain ⟨_, rfl, rest, hrest, rfl⟩ := hall
  rw [← Lost.eq_nil_iff hlost hrest, hholds.rest_eq_zero_iff]

/-! ## The results -/

/-- A handle of a connected client. -/
def connectedHandle : CHandle where
  host := []
  state := 3
  connected := true
  isOpen := true
  answer := ⟨ZOK, none, ⟨0, 0, 0, 0, 0, 0, 0, 0, 0, 0, 0⟩, [], [], [], true⟩

/-- Nodes that are allocated contain null pointers. -/
def nullNodes : ℕ → ZkrbEventLl ℕ ℕ :=
  fun _ => ⟨none, none⟩

/-- A call of `exists` with a completion function and a watch, and an event about the session. Of
the two events one has been returned. -/
def openRun : List MemoryAct :=
  [.call (.stat (.int 5) (.str [47, 97]) (.bool true) (.bool true)), .ret 0 ⟨ZOK, [], []⟩,
    .sessionEvent 3 (.ofBytes []), .complete 0 (.stat ZOK none), .getNextEvent]

/-- Then the watch fires, and the handle is closed with two events in the queue. -/
def closedRun : List MemoryAct :=
  openRun ++ [.watchEvent 0 3 3 (.ofBytes [47, 97]), .closeHandle, .finalize]

theorem valid_openRun : (memory connectedHandle .zeroed nullNodes).Valid System.anyStep
    (Instance.zkrbInit nullNodes true) openRun :=
  ⟨⟨_, rfl, trivial⟩, trivial, ⟨_, rfl, trivial⟩, trivial, ⟨_, rfl, trivial⟩, trivial,
    ⟨_, rfl, rfl, rfl⟩, trivial, ⟨_, rfl, trivial⟩, trivial, trivial⟩

theorem valid_closedRun : (memory connectedHandle .zeroed nullNodes).Valid System.anyStep
    (Instance.zkrbInit nullNodes true) closedRun :=
  ⟨⟨_, rfl, trivial⟩, trivial, ⟨_, rfl, trivial⟩, trivial, ⟨_, rfl, trivial⟩, trivial,
    ⟨_, rfl, rfl, rfl⟩, trivial, ⟨_, rfl, trivial⟩, trivial, ⟨_, rfl, rfl⟩, trivial,
    ⟨_, rfl, trivial⟩, trivial, ⟨_, rfl, trivial⟩, trivial, trivial⟩

/-- **No fault.** In no order of methods, callbacks, `get_next_event`, `close_handle` and the
finalizer is anything used after it has been freed, or freed twice. The memory is what the ledger
of the same steps says. -/
theorem no_memory_fault {s : Option Instance}
    (hs : (memory h env junk).Reachable System.anyStep s) :
    ∃ inst l, s = some inst ∧ (ledger h env).Reachable System.anyStep l ∧ Owns inst l := by
  refine hs.invariant (I := fun s => ∃ inst l, s = some inst ∧
    (ledger h env).Reachable System.anyStep l ∧ Owns inst l) ?_ ?_
  · rintro _ ⟨isInit, rfl⟩
    obtain ⟨inst, hinst, howns⟩ := Owns.zkrbInit junk isInit
    exact ⟨inst, _, hinst, .of_init ⟨isInit, rfl⟩, howns⟩
  · rintro _ a ⟨inst, l, rfl, hl, howns⟩ ⟨inst', hinst, ha⟩ -
    obtain rfl := Option.some.inj hinst
    obtain ⟨raised, hraised, s', hstep, hs'⟩ := owns_step h env junk howns ha
    exact ⟨s', _, hstep, hl.next (raised, a) hraised trivial, hs'⟩

theorem no_memory_fault_openRun : ∃ inst l,
    (memory connectedHandle .zeroed nullNodes).exec (Instance.zkrbInit nullNodes true) openRun =
      some inst ∧
    (ledger connectedHandle .zeroed).Reachable System.anyStep l ∧ Owns inst l :=
  no_memory_fault (valid_openRun.reachable_exec ⟨true, rfl⟩)

/-- The run of an instance, and of its ledger. -/
theorem exec_zkrbInit {isInit : Bool} {as : List MemoryAct}
    (has : (memory h env junk).Valid System.anyStep (Instance.zkrbInit junk isInit) as) :
    ∃ bs s, bs.map Prod.snd = as ∧
      (ledger h env).Valid System.anyStep (Ledger.init isInit) bs ∧
      (memory h env junk).exec (Instance.zkrbInit junk isInit) as = some s ∧
      Owns s ((ledger h env).exec (Ledger.init isInit) bs) := by
  obtain ⟨inst, hinst, howns⟩ := Owns.zkrbInit junk isInit
  rw [hinst] at has ⊢
  exact owns_exec howns has

/-- **In order.** `get_next_event` returns the hashes of the callbacks in the order in which the C
client has called them, and until the handle is closed, those that it has not returned yet are in
the queue. -/
theorem handed_in_order {isInit : Bool} {as : List MemoryAct}
    (has : (memory h env junk).Valid System.anyStep (Instance.zkrbInit junk isInit) as) :
    ∃ bs l s, bs.map Prod.snd = as ∧ l = (ledger h env).exec (Ledger.init isInit) bs ∧
      (memory h env junk).exec (Instance.zkrbInit junk isInit) as = some s ∧ Owns s l ∧
      s.returned <+: l.reported.map hashOf ∧
      (s.zh.isSome → s.returned ++ l.events.map hashOf = l.reported.map hashOf) := by
  obtain ⟨bs, s, hmap, hvalid, hexec, howns⟩ := exec_zkrbInit has
  refine ⟨bs, _, s, hmap, rfl, hexec, howns, ?_⟩
  have horder : InOrder ((ledger h env).exec (Ledger.init isInit) bs) :=
    System.Reaches.invariant (I := InOrder) (fun l b hl _ _ => hl.next b.1 b.2)
      hvalid.reaches_exec ⟨List.prefix_rfl, fun _ => rfl⟩
  rw [howns.returned, howns.isOpen]
  exact ⟨horder.returned, horder.whole⟩

theorem handed_in_order_openRun : ∃ bs l s, bs.map Prod.snd = openRun ∧
    l = (ledger connectedHandle .zeroed).exec (Ledger.init true) bs ∧
    (memory connectedHandle .zeroed nullNodes).exec (Instance.zkrbInit nullNodes true) openRun =
      some s ∧ Owns s l ∧
    s.returned <+: l.reported.map hashOf ∧
    (s.zh.isSome → s.returned ++ l.events.map hashOf = l.reported.map hashOf) :=
  handed_in_order valid_openRun

/-- **What leaks.** When nobody has a handle, a context or a running method any more, the structure
of the instance is still there, and the memory is empty otherwise exactly if the instance had a
handle and each of its steps was clean. -/
theorem nothing_leaks {isInit : Bool} {as : List MemoryAct}
    (has : (memory h env junk).Valid System.anyStep (Instance.zkrbInit junk isInit) as)
    {s : Instance} (hs : (memory h env junk).exec (Instance.zkrbInit junk isInit) as = some s)
    (hqueue : s.queue = none) (hcompletions : s.completions = []) (hwatches : s.watches = [])
    (hcalls : s.calls = []) :
    ∃ bs, bs.map Prod.snd = as ∧ Owns s ((ledger h env).exec (Ledger.init isInit) bs) ∧
      s.arena.heap s.block = some .instanceData ∧
      ((∀ p, p ≠ s.block → s.arena.heap p = none) ↔
        isInit ∧ (ledger h env).Valid (Clean h env) (Ledger.init isInit) bs) := by
  obtain ⟨bs, s', hmap, hvalid, hexec, howns⟩ := exec_zkrbInit has
  obtain rfl := Option.some.inj (hexec.symm.trans hs)
  refine ⟨bs, hmap, howns, howns.heap_block, ?_⟩
  have hlost : ∀ x ∈ ((ledger h env).exec (Ledger.init isInit) bs).lost, x.OwnsBlock := by
    refine System.Reaches.invariant (I := fun l => ∀ x ∈ l.lost, x.OwnsBlock)
      (fun l b hl hb _ => ownsBlock_next hl hb b.2) hvalid.reaches_exec ?_
    cases isInit with
    | true => exact List.forall_mem_nil _
    | false => exact fun x hx => List.mem_singleton.mp hx ▸ trivial
  rw [howns.heap_eq_none_iff hqueue hcompletions hwatches hcalls hlost]
  cases isInit with
  | true =>
    rw [valid_clean_iff hvalid]
    exact ⟨fun hnil => ⟨rfl, hnil⟩, And.right⟩
  | false =>
    have hfirst := (lost_prefix_exec h env (Ledger.init false) bs).length_le
    refine ⟨fun hnil => ?_, nofun⟩
    rw [hnil] at hfirst
    exact absurd hfirst (by decide)

theorem nothing_leaks_closedRun : ∃ s,
    (memory connectedHandle .zeroed nullNodes).exec (Instance.zkrbInit nullNodes true) closedRun =
      some s ∧ ∃ bs, bs.map Prod.snd = closedRun ∧
    Owns s ((ledger connectedHandle .zeroed).exec (Ledger.init true) bs) ∧
    s.arena.heap s.block = some .instanceData ∧
    ((∀ p, p ≠ s.block → s.arena.heap p = none) ↔ true ∧ (ledger connectedHandle .zeroed).Valid
      (Clean connectedHandle .zeroed) (Ledger.init true) bs) :=
  ⟨_, rfl, nothing_leaks valid_closedRun rfl rfl rfl rfl rfl⟩

end Runs

end EventMemory

end Marshal

end ZookeeperClient
