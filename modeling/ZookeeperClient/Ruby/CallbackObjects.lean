import ZookeeperClient.Transition.Basic
import Mathlib.Data.Int.Notation
import Mathlib.Data.List.Nodup
import Mathlib.Logic.Function.Basic

/-!
# Callback objects

The objects of `ZookeeperCallbacks`. A caller passes one to an asynchronous operation, asks it from
time to time whether it is `completed?`, and then reads its attributes. The dispatch thread calls
the object: `initialize_context` assigns the attributes one after the other, the block of the object
is called, and `@completed` is set. No lock is taken on either side.

`@completed` is never set back, and an object may be called again: a watcher is called for every
session event, and one object may be passed to several operations.

## Main definitions

- `CallbackClass` — what `initialize_context` assigns; one for each class
- `CallbackObject`, `CallbackObjectAct`, `callbackObject` — the state, the steps and the system

## Main results

- `never_older` — what a reader finds is not older than the call that it has seen completed
-/

namespace ZookeeperClient

open Transition

/-- The keys of the hash that a handler is called with. -/
inductive HashKey where
  | rc | data | stat | string | strings | acl | type | state | path | context
  deriving DecidableEq, Repr

/-- The attributes of callback objects. -/
inductive Attribute where
  | returnCode | data | stat | string | children | acl | type | state | path | context
  deriving DecidableEq, Repr

/-- A class of callback objects: the attributes that its `initialize_context` assigns, in this
order, with the keys of their values, or without a key for `nil`. -/
structure CallbackClass where
  assigns : List (Attribute × Option HashKey)
  nodup : (assigns.map Prod.fst).Nodup

namespace ZookeeperCallbacks

def Callback : CallbackClass := ⟨[(.context, none)], by decide⟩

def WatcherCallback : CallbackClass :=
  ⟨[(.type, some .type), (.state, some .state), (.path, some .path), (.context, some .context)],
    by decide⟩

def DataCallback : CallbackClass :=
  ⟨[(.returnCode, some .rc), (.data, some .data), (.stat, some .stat), (.context, some .context)],
    by decide⟩

/-- Its `path` is another name of `string`. -/
def StringCallback : CallbackClass :=
  ⟨[(.returnCode, some .rc), (.string, some .string), (.context, some .context)], by decide⟩

def StringsCallback : CallbackClass :=
  ⟨[(.returnCode, some .rc), (.children, some .strings), (.stat, some .stat),
    (.context, some .context)], by decide⟩

def StatCallback : CallbackClass :=
  ⟨[(.returnCode, some .rc), (.stat, some .stat), (.context, some .context)], by decide⟩

def VoidCallback : CallbackClass :=
  ⟨[(.returnCode, some .rc), (.context, some .context)], by decide⟩

def ACLCallback : CallbackClass :=
  ⟨[(.returnCode, some .rc), (.acl, some .acl), (.stat, some .stat), (.context, some .context)],
    by decide⟩

end ZookeeperCallbacks

namespace CallbackClass

variable {V : Type} (c : CallbackClass)

/-- The assignments of `initialize_context`. The right-hand sides are evaluated first. -/
def row (hash : HashKey → Option V) : List (Attribute × Option V) :=
  c.assigns.map fun (attr, key) => (attr, key.bind hash)

/-- What an attribute is when `initialize_context` has returned. -/
def value (hash : HashKey → Option V) (attr : Attribute) : Option V :=
  ((c.row hash).lookup attr).join

variable {c} {hash : HashKey → Option V} {attr : Attribute} {v : Option V}

theorem map_fst_row : (c.row hash).map Prod.fst = c.assigns.map Prod.fst := by
  simp [row]

theorem value_of_mem (h : (attr, v) ∈ c.row hash) : c.value hash attr = v := by
  have hnodup : ((c.row hash).map Prod.fst).Nodup := map_fst_row ▸ c.nodup
  unfold value
  generalize c.row hash = row at h hnodup
  induction row with
  | nil => cases h
  | cons entry row ih =>
    obtain ⟨other, w⟩ := entry
    obtain ⟨hnot, hnodup⟩ := List.nodup_cons.mp hnodup
    obtain heq | hmem := List.mem_cons.mp h
    · obtain ⟨rfl, rfl⟩ := Prod.mk.inj heq
      rw [List.lookup_cons_self]
      rfl
    · have hne : attr ≠ other := by
        rintro rfl
        exact hnot (List.mem_map.mpr ⟨(attr, v), hmem, rfl⟩)
      rw [List.lookup_cons, beq_false_of_ne hne]
      exact ih hmem hnodup

/-- An attribute of another class stays `nil`. -/
theorem value_of_notMem (h : attr ∉ c.assigns.map Prod.fst) :
    c.value hash attr = none := by
  have hnone : (c.row hash).lookup attr = none := by
    rw [List.lookup_eq_none_iff]
    intro entry hmem
    have hne : attr ≠ entry.1 := by
      rintro rfl
      exact h (map_fst_row ▸ List.mem_map_of_mem hmem)
    simpa using hne
  rw [value, hnone]
  rfl

end CallbackClass

/-- Whoever reads an object. -/
structure CallbackReader (V : Type) where
  /-- The last call that had completed when `completed?` returned `true`. -/
  since : Option ℕ
  /-- What has been read after that. -/
  reads : List (Attribute × Option V)

/-- The state of a callback object. -/
structure CallbackObject (V : Type) where
  attributes : Attribute → Option V
  completed : Bool
  /-- The assignments that are left of a call; with none left, the block is called. -/
  running : Option (List (Attribute × Option V))
  /-- History: how often the object has been called. -/
  begun : ℕ
  /-- History: the last call that has set `@completed`. -/
  lastCompleted : ℕ
  /-- History: the hash of each call. -/
  hashes : ℕ → HashKey → Option V
  readers : ℕ → CallbackReader V

/-- The steps of the dispatch thread and of the readers. -/
inductive CallbackObjectAct (V : Type) where
  | call (hash : HashKey → Option V)
  /-- The next assignment of `initialize_context`. -/
  | assign
  /-- The block has returned, or there is none: `@completed = true`. -/
  | complete
  /-- The block raises an exception. -/
  | blockRaises
  /-- Reader `i` calls `completed?`. -/
  | poll (i : ℕ)
  /-- Reader `i` has been told that the object is completed, and reads an attribute. -/
  | read (i : ℕ) (attr : Attribute)

namespace CallbackObject

variable {V : Type}

def initial : CallbackObject V where
  attributes := fun _ => none
  completed := false
  running := none
  begun := 0
  lastCompleted := 0
  hashes := fun _ _ => none
  readers := fun _ => ⟨none, []⟩

/-- The dispatch thread calls an object after it has returned from the last call. -/
def Enabled (s : CallbackObject V) : CallbackObjectAct V → Prop
  | .call _ => s.running = none
  | .assign => ∃ entry rest, s.running = some (entry :: rest)
  | .complete | .blockRaises => s.running = some []
  | .poll _ => True
  | .read i _ => (s.readers i).since.isSome

def next (c : CallbackClass) (s : CallbackObject V) : CallbackObjectAct V → CallbackObject V
  | .call hash =>
    { s with
      running := some (c.row hash)
      begun := s.begun + 1
      hashes := Function.update s.hashes (s.begun + 1) hash }
  | .assign =>
    match s.running with
    | some ((attr, v) :: rest) =>
      { s with
        attributes := Function.update s.attributes attr v
        running := some rest }
    | _ => s
  | .complete => { s with completed := true, running := none, lastCompleted := s.begun }
  | .blockRaises => { s with running := none }
  | .poll i =>
    { s with
      readers := Function.update s.readers i
        ⟨if s.completed then some s.lastCompleted else none, []⟩ }
  | .read i attr =>
    { s with
      readers := Function.update s.readers i
        { s.readers i with
          reads := (s.readers i).reads ++ [(attr, s.attributes attr)] } }

end CallbackObject

/-- The system of one callback object of class `c`. -/
def callbackObject (V : Type) (c : CallbackClass) :
    System (CallbackObject V) (CallbackObjectAct V) where
  Init s := s = CallbackObject.initial
  Enabled := CallbackObject.Enabled
  next := CallbackObject.next c

namespace CallbackObject

variable {V : Type} {c : CallbackClass} {s : CallbackObject V} {attr : Attribute}
  {v : Option V} {k : ℕ}

/-- The value comes from the hash of call `k` or of a later one. -/
def FromCall (c : CallbackClass) (s : CallbackObject V) (k : ℕ) (attr : Attribute)
    (v : Option V) : Prop :=
  ∃ j, k ≤ j ∧ j ≤ s.begun ∧ v = c.value (s.hashes j) attr

theorem FromCall.mono {k' : ℕ} (h : s.FromCall c k attr v) (hk : k' ≤ k) :
    s.FromCall c k' attr v := by
  obtain ⟨j, hkj, hj, hv⟩ := h
  exact ⟨j, Nat.le_trans hk hkj, hj, hv⟩

/-- The hashes of the calls that have begun are not touched. -/
theorem FromCall.next (h : s.FromCall c k attr v) (a : CallbackObjectAct V) :
    (s.next c a).FromCall c k attr v := by
  obtain ⟨j, hkj, hj, hv⟩ := h
  cases a with
  | call hash =>
    refine ⟨j, hkj, Nat.le_succ_of_le hj, ?_⟩
    have hsame : Function.update s.hashes (s.begun + 1) hash j = s.hashes j :=
      Function.update_of_ne (by omega) _ _
    exact hv.trans (congrArg (c.value · attr) hsame.symm)
  | assign =>
    have hframe : (s.next c .assign).begun = s.begun ∧ (s.next c .assign).hashes = s.hashes := by
      simp only [CallbackObject.next]
      split <;> exact ⟨rfl, rfl⟩
    refine ⟨j, hkj, hframe.1 ▸ hj, ?_⟩
    rw [hframe.2]
    exact hv
  | _ => exact ⟨j, hkj, hj, hv⟩

/-- What holds between two steps. During a call, the attributes that have been assigned are those of
its hash. -/
structure Inv (c : CallbackClass) (s : CallbackObject V) : Prop where
  completed (h : s.completed = true) : 1 ≤ s.lastCompleted
  last : s.lastCompleted ≤ s.begun
  foreign {attr : Attribute} (h : attr ∉ c.assigns.map Prod.fst) : s.attributes attr = none
  called {rest : List (Attribute × Option V)} (h : s.running = some rest) : 1 ≤ s.begun
  row {rest : List (Attribute × Option V)} (h : s.running = some rest) :
    ∃ done, c.row (s.hashes s.begun) = done ++ rest
  assigned {rest : List (Attribute × Option V)} (h : s.running = some rest) {attr : Attribute}
    (hattr : attr ∉ rest.map Prod.fst) : s.attributes attr = c.value (s.hashes s.begun) attr
  fresh (h : 1 ≤ s.lastCompleted) (attr : Attribute) :
    s.FromCall c s.lastCompleted attr (s.attributes attr)
  since {i k : ℕ} (h : (s.readers i).since = some k) : 1 ≤ k ∧ k ≤ s.lastCompleted
  reads {i k : ℕ} (h : (s.readers i).since = some k) {attr : Attribute} {v : Option V}
    (hmem : (attr, v) ∈ (s.readers i).reads) : s.FromCall c k attr v

theorem Inv.call (hs : s.Inv c) (hash : HashKey → Option V) : (s.next c (.call hash)).Inv c := by
  have hself : Function.update s.hashes (s.begun + 1) hash (s.begun + 1) = hash :=
    Function.update_self _ _ _
  refine ⟨hs.completed, Nat.le_succ_of_le hs.last, hs.foreign, fun _ => Nat.succ_pos _,
    fun {rest} h => ⟨[], ?_⟩, fun {rest} h {attr} hattr => ?_,
    fun h attr => (hs.fresh h attr).next _, hs.since, fun h _ _ hmem => (hs.reads h hmem).next _⟩
  · obtain rfl := Option.some.inj h
    exact congrArg c.row hself
  · obtain rfl := Option.some.inj h
    rw [CallbackClass.map_fst_row] at hattr
    exact (hs.foreign hattr).trans (CallbackClass.value_of_notMem hattr).symm

theorem Inv.assign (hs : s.Inv c) (hen : s.Enabled .assign) : (s.next c .assign).Inv c := by
  obtain ⟨⟨attr, w⟩, rest, hrunning⟩ := hen
  have hnext : s.next c .assign = { s with
      attributes := Function.update s.attributes attr w
      running := some rest } := by
    simp only [CallbackObject.next, hrunning]
  obtain ⟨done, hrow⟩ := hs.row hrunning
  have hmem : (attr, w) ∈ c.row (s.hashes s.begun) := by
    rw [hrow]
    simp
  have hw := CallbackClass.value_of_mem hmem
  rw [hnext]
  refine ⟨hs.completed, hs.last, fun {other} h => ?_, fun _ => hs.called hrunning,
    fun {rest'} h => ?_, fun {rest'} h {other} hother => ?_, fun h other => ?_, hs.since, hs.reads⟩
  · have hne : other ≠ attr := by
      rintro rfl
      exact h (CallbackClass.map_fst_row ▸ List.mem_map_of_mem hmem)
    exact (Function.update_of_ne hne _ _).trans (hs.foreign h)
  · obtain rfl := Option.some.inj h
    exact ⟨done ++ [(attr, w)], by simpa using hrow⟩
  · obtain rfl := Option.some.inj h
    by_cases heq : other = attr
    · rw [heq]
      exact (Function.update_self _ _ _).trans hw.symm
    · refine (Function.update_of_ne heq _ _).trans (hs.assigned hrunning ?_)
      simpa [heq] using hother
  · by_cases heq : other = attr
    · rw [heq]
      exact ⟨s.begun, hs.last, Nat.le_refl _, (Function.update_self _ _ _).trans hw.symm⟩
    · have hsame := Function.update_of_ne heq w s.attributes
      obtain ⟨j, hkj, hj, hv⟩ := hs.fresh h other
      exact ⟨j, hkj, hj, hsame.trans hv⟩

theorem Inv.complete (hs : s.Inv c) (hen : s.running = some []) :
    (s.next c .complete).Inv c := by
  refine ⟨fun _ => hs.called hen, Nat.le_refl _, hs.foreign, fun h => ?_, fun h => ?_,
    fun h => ?_, fun h attr => ?_, fun h => ?_, hs.reads⟩
  · cases h
  · cases h
  · cases h
  · exact ⟨s.begun, Nat.le_refl _, Nat.le_refl _, hs.assigned hen List.not_mem_nil⟩
  · exact ⟨(hs.since h).1, Nat.le_trans (hs.since h).2 hs.last⟩

/-- One reader goes on. -/
theorem Inv.withReader (hs : s.Inv c) (i : ℕ) {r : CallbackReader V}
    (hsince : ∀ k, r.since = some k → 1 ≤ k ∧ k ≤ s.lastCompleted)
    (hreads : ∀ k, r.since = some k → ∀ attr v, (attr, v) ∈ r.reads → s.FromCall c k attr v) :
    ({ s with readers := Function.update s.readers i r } : CallbackObject V).Inv c := by
  refine ⟨hs.completed, hs.last, hs.foreign, hs.called, hs.row, hs.assigned, hs.fresh,
    fun {j k} h => ?_, fun {j k} h {attr v} hmem => ?_⟩
  · have hj : (Function.update s.readers i r j).since = some k := h
    rw [Function.update_apply] at hj
    split at hj
    · exact hsince k hj
    · exact hs.since hj
  · have hj : (Function.update s.readers i r j).since = some k := h
    have hread : (attr, v) ∈ (Function.update s.readers i r j).reads := hmem
    rw [Function.update_apply] at hj hread
    split at hj
    · next heq =>
      rw [if_pos heq] at hread
      exact hreads k hj attr v hread
    · next hne =>
      rw [if_neg hne] at hread
      exact hs.reads hj hread

theorem Inv.poll (hs : s.Inv c) (i : ℕ) : (s.next c (.poll i)).Inv c := by
  refine hs.withReader i (fun k hk => ?_) fun _ _ attr v hmem => ?_
  · have hpolled : (if s.completed then some s.lastCompleted else none) = some k := hk
    split at hpolled
    · next hcompleted =>
      obtain rfl := Option.some.inj hpolled
      exact ⟨hs.completed hcompleted, Nat.le_refl _⟩
    · cases hpolled
  · cases hmem

theorem Inv.read (hs : s.Inv c) (i : ℕ) (attr : Attribute) : (s.next c (.read i attr)).Inv c := by
  refine hs.withReader i (fun k hk => hs.since hk) fun k hk other v hmem => ?_
  obtain hold | hnew := List.mem_append.mp hmem
  · exact hs.reads hk hold
  · obtain ⟨rfl, rfl⟩ := Prod.mk.inj (List.mem_singleton.mp hnew)
    obtain ⟨hpos, hlast⟩ := hs.since hk
    exact (hs.fresh (Nat.le_trans hpos hlast) other).mono hlast

theorem inv_next {a : CallbackObjectAct V} (hen : s.Enabled a) (hs : s.Inv c) :
    (s.next c a).Inv c := by
  cases a with
  | call hash => exact hs.call hash
  | assign => exact hs.assign hen
  | complete => exact hs.complete hen
  | blockRaises =>
    refine ⟨hs.completed, hs.last, hs.foreign, fun h => ?_, fun h => ?_, fun h => ?_, hs.fresh,
      hs.since, hs.reads⟩ <;> cases h
  | poll i => exact hs.poll i
  | read i attr => exact hs.read i attr

theorem inv_of_reachable {ok : CallbackObject V → CallbackObjectAct V → Prop}
    (h : (callbackObject V c).Reachable ok s) : s.Inv c := by
  refine h.invariant ?_ fun s a hs hen _ => inv_next hen hs
  rintro _ rfl
  refine ⟨fun h => ?_, Nat.le_refl _, fun _ => rfl, fun h => ?_, fun h => ?_, fun h => ?_,
    fun h => ?_, fun h => ?_, fun h => ?_⟩ <;> cases h

/-- **Nothing older is read.** In every run with any number of calls of an object of any class, by
one thread after the other, some of them with a block that raises, and with any number of readers: a
reader to whom `completed?` has returned `true` reads attributes of the call that had completed by
then or of later ones. If no other call has begun since, everything it reads is of that call. -/
theorem never_older {ok : CallbackObject V → CallbackObjectAct V → Prop}
    (h : (callbackObject V c).Reachable ok s) {i : ℕ} (hsince : (s.readers i).since = some k) :
    1 ≤ k ∧ ∀ attr v, (attr, v) ∈ (s.readers i).reads →
      (∃ j, k ≤ j ∧ j ≤ s.begun ∧ v = c.value (s.hashes j) attr) ∧
        (s.begun = k → v = c.value (s.hashes k) attr) := by
  have hs := inv_of_reachable h
  refine ⟨(hs.since hsince).1, fun attr v hmem => ?_⟩
  obtain ⟨j, hkj, hj, hv⟩ := hs.reads hsince hmem
  refine ⟨⟨j, hkj, hj, hv⟩, fun hbegun => ?_⟩
  obtain rfl : j = k := Nat.le_antisymm (hbegun ▸ hj) hkj
  exact hv

/-- A hash with two keys. -/
def twoKeys (type state : ℤ) : HashKey → Option ℤ
  | .type => some type
  | .state => some state
  | _ => none

/-- A watcher is called, and read when it has completed. -/
def calledOnce : List (CallbackObjectAct ℤ) :=
  [.poll 0, .call (twoKeys 1 3), .assign, .assign, .assign, .assign, .poll 1, .complete, .poll 0,
    .read 0 .type, .read 0 .state]

theorem never_older_calledOnce :
    let s := (callbackObject ℤ ZookeeperCallbacks.WatcherCallback).exec initial calledOnce
    1 ≤ 1 ∧ ∀ attr v, (attr, v) ∈ (s.readers 0).reads →
      (∃ j, 1 ≤ j ∧ j ≤ s.begun ∧
        v = ZookeeperCallbacks.WatcherCallback.value (s.hashes j) attr) ∧
      (s.begun = 1 → v = ZookeeperCallbacks.WatcherCallback.value (s.hashes 1) attr) := by
  have hvalid : (callbackObject ℤ ZookeeperCallbacks.WatcherCallback).Valid System.anyStep initial
      calledOnce :=
    ⟨trivial, trivial, rfl, trivial, ⟨_, _, rfl⟩, trivial, ⟨_, _, rfl⟩, trivial, ⟨_, _, rfl⟩,
      trivial, ⟨_, _, rfl⟩, trivial, trivial, trivial, rfl, trivial, trivial, trivial, rfl, trivial,
      rfl, trivial, trivial⟩
  exact never_older (System.Valid.reachable_exec rfl hvalid) rfl

-- in a second call the reader finds the type of one event with the state of the other
example :
    let s := (callbackObject ℤ ZookeeperCallbacks.WatcherCallback).exec initial
      (calledOnce ++ [.poll 0, .call (twoKeys (-1) 1), .assign, .read 0 .type, .read 0 .state])
    (s.readers 0).reads = [(.type, some (-1)), (.state, some 3)] := by
  rfl

end CallbackObject

end ZookeeperClient
