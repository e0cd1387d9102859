import ZookeeperClient.Ext.EventLoop
import ZookeeperClient.Memory.Segment

/-!
# The linked list of a queue of events

`zkrb_queue_t` of `ext/zookeeper_lib.c` on an explicit heap. The queue is a list of nodes whose
last one is empty: `zkrb_enqueue` fills it and links a new empty one behind it, `zkrb_dequeue`
removes the first node. What the functions do with the pipe and with `zkrb_q_mutex` is the
subject of `Ext.EventLoop`.

The address that `malloc` returns, and what the new node contains, are arguments. A function that
follows a pointer to no allocated node, or frees one, has no result.

## Main definitions

- `ZkrbEventLl`, `ZkrbQueue` — the nodes and the queue
- `ZkrbQueue.zkrbEnqueue`, `ZkrbQueue.zkrbDequeue`, `ZkrbQueue.zkrbPeek` — the operations
- `ZkrbQueue.zkrbQueueAlloc`, `ZkrbQueue.zkrbQueueFree` — its beginning and its end
- `QueueOp.abstract` — the operations on a sequence of events
- `ZkrbQueue.Lists` — the nodes hold a sequence of events

## Main results

- `Lists.step_eq` — each operation keeps the nodes in order and returns what it should
- `Lists.freeLoop_eq` — the loop of `zkrb_queue_free` comes to its end
- `implements_fifo` — both, over every sequence of operations
- `Lists.loop_next` — the nodes hold the list of `Loop` through every step of the event loop
-/

namespace ZookeeperClient

open Memory

/-- `zkrb_event_ll_t`. Events are known by their addresses, and `NULL` is `none`. -/
structure ZkrbEventLl (ι ε : Type) where
  event : Option ε
  next : Option ι

/-- `zkrb_queue_t`, with the heap that its nodes are on. -/
structure ZkrbQueue (ι ε : Type) where
  nodes : Heap ι (ZkrbEventLl ι ε)
  head : Option ι
  tail : Option ι

/-- An operation on a queue. `zkrb_enqueue` calls `malloc`, which returns `p`. -/
inductive QueueOp (ι ε : Type) where
  | enqueue (elt : ε) (p : ι) (junk : ZkrbEventLl ι ε)
  | dequeue
  | peek

namespace ZkrbQueue

variable {ι ε : Type} [DecidableEq ι]

def zkrbEventLlAlloc (p : ι) (junk : ZkrbEventLl ι ε) (h : Heap ι (ZkrbEventLl ι ε)) :
    Option (Heap ι (ZkrbEventLl ι ε)) := do
  let h ← (h.malloc p junk).modify p fun rv => { rv with event := none }
  h.modify p fun rv => { rv with next := none }

def zkrbQueueAlloc (p : ι) (junk : ZkrbEventLl ι ε) (h : Heap ι (ZkrbEventLl ι ε)) :
    Option (ZkrbQueue ι ε) := do
  let nodes ← zkrbEventLlAlloc p junk h
  return { nodes := nodes, head := some p, tail := some p }

def zkrbEnqueue (elt : ε) (p : ι) (junk : ZkrbEventLl ι ε) (q : ZkrbQueue ι ε) :
    Option (ZkrbQueue ι ε) :=
  match q.tail with
  -- `check_debug` goes to the end of the function
  | none => some q
  | some tail => do
    let nodes ← q.nodes.modify tail fun node => { node with event := some elt }
    let nodes ← (nodes.malloc p junk).modify tail fun node => { node with next := some p }
    -- `q->tail = q->tail->next`, and the two fields of the new tail
    let node ← nodes tail
    let tail ← node.next
    let nodes ← nodes.modify tail fun node => { node with event := none }
    let nodes ← nodes.modify tail fun node => { node with next := none }
    return { q with nodes := nodes, tail := some tail }

def zkrbPeek (q : ZkrbQueue ι ε) : Option (Option ε) :=
  match q.head with
  | none => some none
  | some head => (q.nodes head).map ZkrbEventLl.event

def zkrbDequeue (q : ZkrbQueue ι ε) : Option (Option ε × ZkrbQueue ι ε) :=
  match q.head with
  | none => some (none, q)
  | some oldRoot => do
    let root ← q.nodes oldRoot
    match root.event with
    -- `ZKRB_QUEUE_EMPTY`
    | none => return (none, q)
    | some rv =>
      let nodes ← q.nodes.free oldRoot
      return (some rv, { q with nodes := nodes, head := root.next })

/-- The loop of `zkrb_queue_free`, with the events that it passes to `zkrb_event_free`. It has no
result if it has not come to its end after so many rounds. -/
def freeLoop : ℕ → ZkrbQueue ι ε → Option (List ε × ZkrbQueue ι ε)
  | 0, _ => none
  | fuel + 1, q => do
    match ← q.zkrbDequeue with
    | (none, q) => return ([], q)
    | (some elt, q) =>
      let (freed, q) ← freeLoop fuel q
      return (elt :: freed, q)

/-- `zkrb_queue_free`: the events that are freed, and the heap. -/
def zkrbQueueFree (fuel : ℕ) (q : ZkrbQueue ι ε) :
    Option (List ε × Heap ι (ZkrbEventLl ι ε)) := do
  let (freed, q) ← q.freeLoop fuel
  let nodes ← q.nodes.freePtr q.head
  return (freed, nodes)

/-! ## Sequences of operations -/

/-- An operation: what it returns, and the queue afterwards. -/
def step (q : ZkrbQueue ι ε) : QueueOp ι ε → Option (Option ε × ZkrbQueue ι ε)
  | .enqueue elt p junk => (q.zkrbEnqueue elt p junk).map fun q => (none, q)
  | .dequeue => q.zkrbDequeue
  | .peek => q.zkrbPeek.map fun rv => (rv, q)

/-- Operations one after the other. -/
def run (q : ZkrbQueue ι ε) : List (QueueOp ι ε) → Option (List (Option ε) × ZkrbQueue ι ε)
  | [] => some ([], q)
  | op :: ops => do
    let (rv, q) ← q.step op
    let (rvs, q) ← q.run ops
    return (rv :: rvs, q)

/-- `malloc` returns an address that is not in use. -/
def AllocatesFor (q : ZkrbQueue ι ε) : QueueOp ι ε → Prop
  | .enqueue _ p _ => q.nodes p = none
  | .dequeue | .peek => True

/-- So it does in all of these operations. -/
def Allocates (q : ZkrbQueue ι ε) : List (QueueOp ι ε) → Prop
  | [] => True
  | op :: ops => q.AllocatesFor op ∧ ∀ rv q', q.step op = some (rv, q') → q'.Allocates ops

end ZkrbQueue

namespace QueueOp

variable {ι ε : Type}

/-- What an operation is for: what it returns, and the sequence afterwards. -/
def abstract (events : List ε) : QueueOp ι ε → Option ε × List ε
  | .enqueue elt _ _ => (none, events ++ [elt])
  | .dequeue => (events.head?, events.tail)
  | .peek => (events.head?, events)

/-- Operations on a sequence, one after the other. -/
def abstractRun (events : List ε) : List (QueueOp ι ε) → List (Option ε) × List ε
  | [] => ([], events)
  | op :: ops =>
    let rest := abstractRun (op.abstract events).2 ops
    ((op.abstract events).1 :: rest.1, rest.2)

/-- The events that are enqueued. -/
def enqueued : List (QueueOp ι ε) → List ε
  | [] => []
  | .enqueue elt _ _ :: ops => elt :: enqueued ops
  | .dequeue :: ops | .peek :: ops => enqueued ops

/-- The sequence holds events in the order in which they have been enqueued. -/
theorem abstractRun_sublist (events : List ε) (ops : List (QueueOp ι ε)) :
    (abstractRun events ops).2.Sublist (events ++ enqueued ops) := by
  induction ops generalizing events with
  | nil => simp [abstractRun]
  | cons op ops ih =>
    cases op with
    | enqueue elt p junk =>
      have h := ih (events ++ [elt])
      rwa [List.append_assoc] at h
    | dequeue => exact (ih events.tail).trans ((List.tail_sublist events).append_right _)
    | peek => exact ih events

end QueueOp

namespace ZkrbQueue

variable {ι ε : Type} [DecidableEq ι]

/-! ## The nodes -/

/-- The nodes from `head` along `next` are `cells`, which hold the events, and at last `t`, which
is the tail and empty. Other queues may have nodes on the heap `h₀`. -/
structure Lists (h₀ : Heap ι (ZkrbEventLl ι ε)) (q : ZkrbQueue ι ε)
    (cells : List (ι × ZkrbEventLl ι ε)) (t : ι) (events : List ε) : Prop where
  path : Segment ZkrbEventLl.next q.nodes q.head (cells ++ [(t, ⟨none, none⟩)]) none
  tail : q.tail = some t
  events : cells.map (fun cell => cell.2.event) = events.map some
  own : ∀ a ∈ cells.map Prod.fst ++ [t], h₀ a = none
  frame : ∀ a ∉ cells.map Prod.fst ++ [t], q.nodes a = h₀ a

/-- No node that the operation frees can be reached afterwards. -/
def FreesUnreachable (q : ZkrbQueue ι ε) (op : QueueOp ι ε) : Prop :=
  ∀ rv q', q.step op = some (rv, q') → ∀ a, q.nodes a ≠ none → q'.nodes a = none →
    ¬Reaches ZkrbEventLl.next q'.nodes q'.head a ∧ q'.tail ≠ some a

/-- The nodes are in order and hold these events, the next operation frees no node that can be
reached, and `zkrb_queue_free` terminates, passes each event to `zkrb_event_free` once and leaves
nothing on the heap. -/
structure Implements (h₀ : Heap ι (ZkrbEventLl ι ε)) (q : ZkrbQueue ι ε) (events : List ε) :
    Prop where
  nodes : ∃ cells t, q.Lists h₀ cells t events ∧ (cells.map Prod.fst ++ [t]).Nodup
  safe : ∀ op, q.AllocatesFor op → (q.step op).isSome ∧ q.FreesUnreachable op
  frees : ∀ fuel, events.length < fuel →
    (∃ q', q.freeLoop fuel = some (events, q')) ∧ q.zkrbQueueFree fuel = some (events, h₀)
  once : events.Nodup

end ZkrbQueue

namespace ZkrbQueue.Lists

variable {ι ε : Type} {h₀ : Heap ι (ZkrbEventLl ι ε)} {q : ZkrbQueue ι ε}
  {cells : List (ι × ZkrbEventLl ι ε)} {t : ι} {events : List ε}

theorem nodup (hs : q.Lists h₀ cells t events) : (cells.map Prod.fst ++ [t]).Nodup := by
  simpa using hs.path.nodup

theorem tail_eq (hs : q.Lists h₀ cells t events) : q.nodes t = some ⟨none, none⟩ :=
  hs.path.get_mem (by simp)

theorem head_eq (hs : q.Lists h₀ [] t events) : q.head = some t :=
  hs.path.1

theorem isSome_nodes (hs : q.Lists h₀ cells t events) {a : ι}
    (ha : a ∈ cells.map Prod.fst ++ [t]) : (q.nodes a).isSome := by
  have hmem : a ∈ (cells ++ [(t, (⟨none, none⟩ : ZkrbEventLl ι ε))]).map Prod.fst := by
    simpa using ha
  obtain ⟨⟨b, v⟩, hbv, rfl⟩ := List.mem_map.mp hmem
  rw [hs.path.get_mem hbv]
  rfl

/-- The first node of a queue that has events. -/
theorem exists_cons {elt : ε} (hs : q.Lists h₀ cells t (elt :: events)) :
    ∃ a next cells', cells = (a, ⟨some elt, next⟩) :: cells' := by
  cases cells with
  | nil => exact absurd hs.events (by simp)
  | cons cell cells' =>
    obtain ⟨a, event, next⟩ := cell
    obtain ⟨rfl, -⟩ : event = some elt ∧ _ := by simpa using hs.events
    exact ⟨a, next, cells', rfl⟩

theorem peek_eq (hs : q.Lists h₀ cells t events) : q.zkrbPeek = some events.head? := by
  cases events with
  | nil =>
    obtain rfl : cells = [] := by simpa using hs.events
    simp [zkrbPeek, hs.head_eq, hs.tail_eq]
  | cons elt events =>
    obtain ⟨a, next, cells', rfl⟩ := hs.exists_cons
    obtain ⟨hhead, ha, -⟩ := hs.path
    simp [zkrbPeek, hhead, ha]

variable [DecidableEq ι]

theorem zkrbQueueAlloc_eq (p : ι) (junk : ZkrbEventLl ι ε) (h₀ : Heap ι (ZkrbEventLl ι ε)) :
    zkrbQueueAlloc p junk h₀ =
      some ⟨Function.update h₀ p (some ⟨none, none⟩), some p, some p⟩ := by
  unfold zkrbQueueAlloc zkrbEventLlAlloc
  rw [Heap.modify_eq (v := junk) (by simp [Heap.malloc])]
  simp [Heap.malloc, Heap.modify]

/-- A new queue consists of its tail. -/
theorem of_alloc {p : ι} {junk : ZkrbEventLl ι ε} (hp : h₀ p = none)
    (hq : zkrbQueueAlloc p junk h₀ = some q) : q.Lists h₀ [] p [] := by
  rw [zkrbQueueAlloc_eq] at hq
  obtain rfl := Option.some.inj hq
  refine ⟨⟨rfl, by simp, rfl⟩, rfl, rfl, by simpa using hp, fun a ha => ?_⟩
  exact Function.update_of_ne (by simpa using ha) _ _

/-- What `zkrb_enqueue` writes: the old tail and the new one. -/
theorem zkrbEnqueue_eq (hs : q.Lists h₀ cells t events) (elt : ε) {p : ι}
    (junk : ZkrbEventLl ι ε) (hp : q.nodes p = none) :
    ∃ q', q.zkrbEnqueue elt p junk = some q' ∧ q'.head = q.head ∧ q'.tail = some p ∧
      q'.nodes t = some ⟨some elt, some p⟩ ∧ q'.nodes p = some ⟨none, none⟩ ∧
      ∀ a, a ≠ t → a ≠ p → q'.nodes a = q.nodes a := by
  have hne : p ≠ t := by
    rintro rfl
    rw [hs.tail_eq] at hp
    cases hp
  have hne' : t ≠ p := hne.symm
  unfold zkrbEnqueue
  simp only [hs.tail]
  rw [Heap.modify_eq hs.tail_eq]
  simp only [Option.bind_eq_bind, Option.bind_some]
  rw [Heap.modify_eq (v := ⟨some elt, none⟩) (by simp [Heap.malloc, hne'])]
  simp only [Option.bind_some, Function.update_self]
  rw [Heap.modify_eq (v := junk) (by simp [Heap.malloc, hne])]
  simp only [Option.bind_some]
  rw [Heap.modify_eq (v := { junk with event := none }) (by simp)]
  refine ⟨_, rfl, rfl, rfl, ?_, ?_, ?_⟩
  · simp [hne']
  · simp
  · intro a hat hap
    simp [Heap.malloc, hat, hap]

theorem enqueue (hs : q.Lists h₀ cells t events) (elt : ε) {p : ι} (junk : ZkrbEventLl ι ε)
    (hp : q.nodes p = none) :
    ∃ q', q.zkrbEnqueue elt p junk = some q' ∧
      q'.Lists h₀ (cells ++ [(t, ⟨some elt, some p⟩)]) p (events ++ [elt]) := by
  obtain ⟨q', heq, hhead, htail, ht, hp', hframe⟩ := hs.zkrbEnqueue_eq elt junk hp
  obtain ⟨link, hpath, hlink, -⟩ := Segment.append_iff.mp hs.path
  have hnodup := hs.nodup
  have hmem : p ∉ cells.map Prod.fst ++ [t] := by
    intro hmem
    have hsome := hs.isSome_nodes hmem
    rw [hp] at hsome
    cases hsome
  refine ⟨q', heq, ?_, htail, ?_, ?_, ?_⟩
  · -- the path through the old cells is as before, since the tail is none of them
    have hold : Segment ZkrbEventLl.next q'.nodes q'.head cells link := by
      rw [hhead]
      refine hpath.congr fun a ha => hframe a ?_ ?_
      · rintro rfl
        exact (List.nodup_append.mp hnodup).2.2 a ha a (by simp) rfl
      · rintro rfl
        exact hmem (List.mem_append_left _ ha)
    exact (hold.concat hlink ht).concat rfl hp'
  · simp [hs.events]
  · intro a ha
    simp only [List.map_append, List.map_cons, List.map_nil, List.append_assoc] at ha
    obtain ha | ha := List.mem_append.mp ha
    · exact hs.own a (List.mem_append_left _ ha)
    · obtain rfl | rfl : a = t ∨ a = p := by simpa using ha
      · exact hs.own a (by simp)
      · exact (hs.frame a hmem).symm.trans hp
  · intro a ha
    have ha' : a ∉ cells.map Prod.fst ++ [t] ∧ a ≠ p := by
      simpa [not_or, and_assoc] using ha
    have hat : a ≠ t := by
      rintro rfl
      exact ha'.1 (by simp)
    rw [hframe a hat ha'.2, hs.frame a ha'.1]

/-- A queue without events has an empty first node. -/
theorem dequeue_nil (hs : q.Lists h₀ cells t []) : q.zkrbDequeue = some (none, q) := by
  obtain rfl : cells = [] := by simpa using hs.events
  simp [zkrbDequeue, hs.head_eq, hs.tail_eq]

theorem dequeue_cons {elt : ε} {a : ι} {next : Option ι}
    (hs : q.Lists h₀ ((a, ⟨some elt, next⟩) :: cells) t (elt :: events)) :
    ∃ q', q.zkrbDequeue = some (some elt, q') ∧ q'.Lists h₀ cells t events ∧
      q'.nodes = Function.update q.nodes a none := by
  obtain ⟨hhead, ha, hrest⟩ := hs.path
  have hnodup : a ∉ cells.map Prod.fst ++ [t] := (List.nodup_cons.mp hs.nodup).1
  refine ⟨⟨Function.update q.nodes a none, next, q.tail⟩, ?_, ⟨?_, hs.tail, ?_, ?_, ?_⟩, rfl⟩
  · simp [zkrbDequeue, hhead, ha, Heap.free_eq ha]
  · refine Segment.congr hrest fun b hb => Function.update_of_ne ?_ _ _
    rintro rfl
    exact hnodup (by simpa using hb)
  · simpa using hs.events
  · exact fun b hb => hs.own b (List.mem_cons_of_mem _ hb)
  · intro b hb
    by_cases hba : b = a
    · subst hba
      simp [hs.own b (by simp)]
    · rw [← hs.frame b (by simpa [hba] using hb)]
      exact Function.update_of_ne hba _ _

/-- **One operation**: it returns what it does on the sequence of events, and the nodes hold the
new sequence. -/
theorem step_eq (hs : q.Lists h₀ cells t events) {op : QueueOp ι ε} (hop : q.AllocatesFor op) :
    ∃ q' cells' t', q.step op = some ((op.abstract events).1, q') ∧
      q'.Lists h₀ cells' t' (op.abstract events).2 := by
  cases op with
  | enqueue elt p junk =>
    obtain ⟨q', heq, hq'⟩ := hs.enqueue elt junk hop
    exact ⟨q', _, _, by rw [step, heq]; rfl, hq'⟩
  | dequeue =>
    cases events with
    | nil => exact ⟨q, cells, t, hs.dequeue_nil, hs⟩
    | cons elt events =>
      obtain ⟨a, next, cells', rfl⟩ := hs.exists_cons
      obtain ⟨q', heq, hq', -⟩ := hs.dequeue_cons
      exact ⟨q', cells', t, heq, hq'⟩
  | peek => exact ⟨q, cells, t, by rw [step, hs.peek_eq]; rfl, hs⟩

/-- The only node that an operation frees is the first one, when the path begins behind it. -/
theorem freesUnreachable (hs : q.Lists h₀ cells t events) {op : QueueOp ι ε}
    (hop : q.AllocatesFor op) : q.FreesUnreachable op := by
  intro rv q' heq a ha hfreed
  obtain ⟨q'', cells', t', heq', hs'⟩ := hs.step_eq hop
  obtain ⟨-, rfl⟩ := Prod.mk.inj (Option.some.inj (heq.symm.trans heq'))
  have hnot : a ∉ cells'.map Prod.fst ++ [t'] := by
    intro hmem
    have hsome := hs'.isSome_nodes hmem
    rw [hfreed] at hsome
    cases hsome
  constructor
  · exact fun hreach => hnot (by simpa using hs'.path.mem_of_reaches hreach)
  · rw [hs'.tail]
    rintro ⟨⟩
    exact hnot (by simp)

/-- **The loop of `zkrb_queue_free`** comes to its end after one round for each event and one
more. -/
theorem freeLoop_eq (hs : q.Lists h₀ cells t events) {fuel : ℕ} (hfuel : events.length < fuel) :
    ∃ q', q.freeLoop fuel = some (events, q') ∧ q'.Lists h₀ [] t [] := by
  induction events generalizing fuel q cells with
  | nil =>
    obtain ⟨n, rfl⟩ := Nat.exists_eq_add_one_of_ne_zero (by omega : fuel ≠ 0)
    obtain rfl : cells = [] := by simpa using hs.events
    exact ⟨q, by simp [freeLoop, hs.dequeue_nil], hs⟩
  | cons elt events ih =>
    obtain ⟨n, rfl⟩ := Nat.exists_eq_add_one_of_ne_zero (by omega : fuel ≠ 0)
    obtain ⟨a, next, cells', rfl⟩ := hs.exists_cons
    obtain ⟨q', heq, hq', -⟩ := hs.dequeue_cons
    obtain ⟨q'', hloop, hend⟩ := ih hq' (by simpa using hfuel)
    exact ⟨q'', by simp [freeLoop, heq, hloop], hend⟩

/-- The heap is as it was before the queue was made. -/
theorem zkrbQueueFree_eq (hs : q.Lists h₀ cells t events) {fuel : ℕ}
    (hfuel : events.length < fuel) : q.zkrbQueueFree fuel = some (events, h₀) := by
  obtain ⟨q', hloop, hend⟩ := hs.freeLoop_eq hfuel
  have hheap : Function.update q'.nodes t none = h₀ := by
    funext a
    by_cases ha : a = t
    · subst ha
      rw [Function.update_self, hend.own a (by simp)]
    · rw [Function.update_of_ne ha, hend.frame a (by simpa using ha)]
  simp [zkrbQueueFree, hloop, hend.head_eq, Heap.freePtr, Heap.free_eq hend.tail_eq, hheap]

/-- Over any operations, the queue does what they do on the sequence of events. -/
theorem run_eq (hs : q.Lists h₀ cells t events) {ops : List (QueueOp ι ε)}
    (hops : q.Allocates ops) :
    ∃ q' cells' t', q.run ops = some ((QueueOp.abstractRun events ops).1, q') ∧
      q'.Lists h₀ cells' t' (QueueOp.abstractRun events ops).2 := by
  induction ops generalizing q cells t events with
  | nil => exact ⟨q, cells, t, rfl, hs⟩
  | cons op ops ih =>
    obtain ⟨hop, hrest⟩ := hops
    obtain ⟨q', cells', t', heq, hs'⟩ := hs.step_eq hop
    obtain ⟨q'', cells'', t'', hrun, hs''⟩ := ih hs' (hrest _ _ heq)
    exact ⟨q'', cells'', t'', by simp [run, heq, hrun, QueueOp.abstractRun], hs''⟩

end ZkrbQueue.Lists

namespace ZkrbQueue

variable {ι ε : Type} [DecidableEq ι]

/-- **The linked list is a queue.** Whatever is enqueued, dequeued and looked at after
`zkrb_queue_alloc`, no pointer to a node that is not allocated is followed, the operations return
what they do on a sequence of events, and the nodes hold that sequence. -/
theorem implements_fifo {h₀ : Heap ι (ZkrbEventLl ι ε)} {p : ι} (junk : ZkrbEventLl ι ε)
    (hp : h₀ p = none) {q : ZkrbQueue ι ε} (hq : zkrbQueueAlloc p junk h₀ = some q)
    {ops : List (QueueOp ι ε)} (hops : q.Allocates ops) (hdistinct : (QueueOp.enqueued ops).Nodup) :
    ∃ q', q.run ops = some ((QueueOp.abstractRun [] ops).1, q') ∧
      q'.Implements h₀ (QueueOp.abstractRun [] ops).2 := by
  obtain ⟨q', cells, t, hrun, hs⟩ := (Lists.of_alloc hp hq).run_eq hops
  refine ⟨q', hrun, ⟨cells, t, hs, hs.nodup⟩, ?_, ?_, ?_⟩
  · intro op hop
    obtain ⟨q'', -, -, heq, -⟩ := hs.step_eq hop
    exact ⟨by rw [heq]; rfl, hs.freesUnreachable hop⟩
  · intro fuel hfuel
    obtain ⟨q'', hloop, -⟩ := hs.freeLoop_eq hfuel
    exact ⟨⟨q'', hloop⟩, hs.zkrbQueueFree_eq hfuel⟩
  · exact hdistinct.sublist (QueueOp.abstractRun_sublist [] ops)

/-- Two events, taken out again, and a third time in vain. -/
def twoEvents : List (QueueOp ℕ ℕ) :=
  [.enqueue 7 1 ⟨none, none⟩, .enqueue 8 2 ⟨some 9, some 0⟩, .dequeue, .peek, .dequeue, .dequeue]

theorem implements_fifo_twoEvents :
    ∃ q q', zkrbQueueAlloc 0 ⟨none, none⟩ (fun _ => none) = some q ∧
      q.run twoEvents = some ([none, none, some 7, some 8, some 8, none], q') ∧
      q'.Implements (fun _ => none) [] := by
  have hq := Lists.zkrbQueueAlloc_eq (ε := ℕ) 0 ⟨none, none⟩ fun _ => none
  have hops : ∀ q, zkrbQueueAlloc 0 ⟨none, none⟩ (fun _ => none) = some q →
      q.Allocates twoEvents := by
    rintro q ⟨⟩
    refine ⟨rfl, ?_⟩
    rintro rv q' ⟨⟩
    refine ⟨rfl, ?_⟩
    rintro rv q' ⟨⟩
    refine ⟨trivial, ?_⟩
    rintro rv q' ⟨⟩
    refine ⟨trivial, ?_⟩
    rintro rv q' ⟨⟩
    refine ⟨trivial, ?_⟩
    rintro rv q' ⟨⟩
    refine ⟨trivial, ?_⟩
    rintro rv q' ⟨⟩
    trivial
  obtain ⟨q', hrun⟩ := implements_fifo ⟨none, none⟩ rfl hq (hops _ hq) (by decide)
  exact ⟨_, q', hq, hrun⟩

end ZkrbQueue

/-! ## The event loop -/

/-- The operation on the list of events in a step of the event loop. -/
def LoopAct.queueOps {ι ε : Type} (p : ι) (junk : ZkrbEventLl ι ε) :
    LoopAct ε → List (QueueOp ι ε)
  | .enqueue event => [.enqueue event p junk]
  | .dequeue => [.dequeue]
  | _ => []

theorem queue_writeByte {ε : Type} (cap : ℕ) (w : Writer) (s : Loop ε) :
    (s.writeByte cap w).queue = s.queue := by
  unfold Loop.writeByte
  split <;> rfl

theorem queue_loop_next {ι ε : Type} (cap : ℕ) (s : Loop ε) (a : LoopAct ε) (p : ι)
    (junk : ZkrbEventLl ι ε) :
    (s.next cap a).queue = (QueueOp.abstractRun s.queue (a.queueOps p junk)).2 := by
  cases a with
  | enqueue event => exact queue_writeByte cap .enqueuing _
  | signal => exact queue_writeByte cap .signalling _
  | dequeue =>
    cases hq : s.queue <;>
      simp [Loop.next, Loop.zkrbDequeue, hq, LoopAct.queueOps, QueueOp.abstractRun,
        QueueOp.abstract]
  | setRunning | start | checkShutdown | wake | read | push | finishWrite | shutDown => rfl

/-- **The list of the event loop.** In every step of the loop the nodes go on to hold its list of
events. -/
theorem ZkrbQueue.Lists.loop_next {ι ε : Type} [DecidableEq ι]
    {h₀ : Heap ι (ZkrbEventLl ι ε)} {q : ZkrbQueue ι ε} {cells : List (ι × ZkrbEventLl ι ε)}
    {t : ι} {s : Loop ε} (hs : q.Lists h₀ cells t s.queue) (cap : ℕ) (a : LoopAct ε) {p : ι}
    (junk : ZkrbEventLl ι ε) (hp : q.nodes p = none) :
    ∃ rvs q' cells' t', q.run (a.queueOps p junk) = some (rvs, q') ∧
      q'.Lists h₀ cells' t' (s.next cap a).queue := by
  have hops : q.Allocates (a.queueOps p junk) := by
    cases a with
    | enqueue event => exact ⟨hp, fun _ _ _ => trivial⟩
    | dequeue => exact ⟨trivial, fun _ _ _ => trivial⟩
    | setRunning | start | checkShutdown | wake | read | push | signal | finishWrite
      | shutDown => trivial
  obtain ⟨q', cells', t', hrun, hs'⟩ := hs.run_eq hops
  rw [queue_loop_next cap s a p junk]
  exact ⟨_, q', cells', t', hrun, hs'⟩

end ZookeeperClient
