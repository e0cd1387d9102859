import ZookeeperClient.Ruby.Event
import Mathlib.Data.List.Basic

/-!
# The queue between the handles and the dispatch thread

`QueueWithPipe` of `lib/zookeeper/common/queue_with_pipe.rb`: a Ruby `Queue` with two
flags. `graceful_close!` puts the kill token behind everything that has been pushed; the
thread that pops the token closes the queue, and from then on `pop` raises.

## Main definitions

- `QueueWithPipe` — the queue with its flags
- `QueueWithPipe.push`, `gracefulClose`, `take` — its methods
- `QueueWithPipe.objs` — what has been pushed and not popped, in order
- `QueueWithPipe.WellFormed` — how the flags and the token belong together
-/

namespace ZookeeperClient

/-- What is in the queue. -/
inductive QueueItem (α : Type) where
  | obj (a : α)
  | killToken
  deriving DecidableEq, Repr

structure QueueWithPipe (α : Type) where
  items : List (QueueItem α)
  closed : Bool
  graceful : Bool
  deriving DecidableEq, Repr

namespace QueueWithPipe

variable {α : Type}

/-- `QueueWithPipe#initialize`. -/
def new : QueueWithPipe α where
  items := []
  closed := false
  graceful := false

def push (a : α) (q : QueueWithPipe α) : QueueWithPipe α :=
  { q with items := q.items ++ [.obj a] }

def close (q : QueueWithPipe α) : QueueWithPipe α :=
  { q with closed := true }

def gracefulClose (q : QueueWithPipe α) : QueueWithPipe α :=
  if q.graceful || q.closed then q
  else { q with items := q.items ++ [.killToken], graceful := true }

/-- The rest of `pop` after its check of `closed?`: `none` when `@queue.pop` blocks, otherwise
the value returned or the exception raised, and the queue afterwards. -/
def take (q : QueueWithPipe α) : Option (Except RubyError α × QueueWithPipe α) :=
  match q.items with
  | [] => none
  | .obj a :: rest => some (.ok a, { q with items := rest })
  | .killToken :: rest => some (.error .shutdownException, { q with items := rest }.close)

/-- The objects in a list of items. -/
def objsOf (items : List (QueueItem α)) : List α :=
  items.filterMap fun
    | .obj a => some a
    | .killToken => none

/-- The objects in the queue. -/
def objs (q : QueueWithPipe α) : List α :=
  objsOf q.items

/-- The flags and the token: the token is in the queue from `graceful_close!` until it is
popped, and popping it closes the queue. -/
structure WellFormed (q : QueueWithPipe α) : Prop where
  graceful_of_killToken : .killToken ∈ q.items → q.graceful = true
  graceful_of_closed : q.closed = true → q.graceful = true
  pending : q.graceful = true → .killToken ∈ q.items ∨ q.closed = true

/-! ## What each method does -/

@[simp] theorem objs_push (a : α) (q : QueueWithPipe α) : (q.push a).objs = q.objs ++ [a] := by
  simp [objs, objsOf, push]

@[simp] theorem objs_gracefulClose (q : QueueWithPipe α) : q.gracefulClose.objs = q.objs := by
  unfold gracefulClose
  split
  · rfl
  · simp [objs, objsOf]

@[simp] theorem closed_gracefulClose (q : QueueWithPipe α) :
    q.gracefulClose.closed = q.closed := by
  unfold gracefulClose
  split <;> rfl

theorem length_gracefulClose (q : QueueWithPipe α) :
    q.gracefulClose.items.length ≤ q.items.length + 1 := by
  unfold gracefulClose
  split <;> simp

theorem take_obj {q : QueueWithPipe α} {a : α} {rest : List (QueueItem α)}
    (h : q.items = .obj a :: rest) : q.take = some (.ok a, { q with items := rest }) := by
  simp only [take, h]

theorem take_killToken {q : QueueWithPipe α} {rest : List (QueueItem α)}
    (h : q.items = .killToken :: rest) :
    q.take = some (.error .shutdownException, { q with items := rest, closed := true }) := by
  simp only [take, h, close]

/-! ## The flags stay well-formed -/

theorem wellFormed_new : (new : QueueWithPipe α).WellFormed := by
  constructor <;> simp [new]

theorem WellFormed.push {q : QueueWithPipe α} (h : q.WellFormed) (a : α) :
    (q.push a).WellFormed := by
  refine ⟨fun hk => ?_, h.graceful_of_closed, fun hg => ?_⟩
  · exact h.graceful_of_killToken (by simpa [QueueWithPipe.push] using hk)
  · obtain hk | hc := h.pending hg
    · exact Or.inl (List.mem_append_left _ hk)
    · exact Or.inr hc

theorem WellFormed.gracefulClose {q : QueueWithPipe α} (h : q.WellFormed) :
    q.gracefulClose.WellFormed := by
  unfold QueueWithPipe.gracefulClose
  split
  · exact h
  · exact ⟨fun _ => rfl, fun _ => rfl, fun _ => Or.inl (by simp)⟩

theorem WellFormed.graceful_gracefulClose {q : QueueWithPipe α} (h : q.WellFormed) :
    q.gracefulClose.graceful = true := by
  unfold QueueWithPipe.gracefulClose
  cases hg : q.graceful with
  | true => simpa using hg
  | false =>
    cases hc : q.closed with
    | true => simpa [hg] using h.graceful_of_closed hc
    | false => rfl

theorem WellFormed.take {q q' : QueueWithPipe α} {r : Except RubyError α} (h : q.WellFormed)
    (ht : q.take = some (r, q')) : q'.WellFormed := by
  cases hq : q.items with
  | nil => simp [QueueWithPipe.take, hq] at ht
  | cons item rest =>
    cases item with
    | obj a =>
      rw [take_obj hq] at ht
      obtain ⟨-, rfl⟩ : _ ∧ { q with items := rest } = q' := by simpa using ht
      refine ⟨fun hk => h.graceful_of_killToken (by simp [hq, hk]), h.graceful_of_closed,
        fun hg => ?_⟩
      simpa [hq] using h.pending hg
    | killToken =>
      rw [take_killToken hq] at ht
      obtain ⟨-, rfl⟩ : _ ∧ { q with items := rest, closed := true } = q' := by simpa using ht
      have hg := h.graceful_of_killToken (by simp [hq])
      exact ⟨fun _ => hg, fun _ => hg, fun _ => Or.inr rfl⟩

end QueueWithPipe

end ZookeeperClient
