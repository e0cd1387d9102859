import ZookeeperClient.Ruby.QueueWithPipe
import ZookeeperClient.Transition.Basic
import ZookeeperClient.Transition.Total

/-!
# Many threads in `pop`

`QueueWithPipe` with its methods cut into steps: `closed?`, the `pop` of the inner queue, the
comparison with the kill token and `close` are separate, and any number of threads may be
between them. `@mutex` guards the two flags; the only method that does something else while it
holds the mutex is `graceful_close!`, which pushes the token. Each call of `pop` has a number.

## Main definitions

- `Consumers`, `ConsumersAct`, `consumers` — the calls of `pop` on one queue
- `Consumers.Releases` — what closing the queue should do
- `Consumers.HasRoom` — no more threads wait than there are items

## Main results

- `not_releases_two_consumers` — two threads wait, and one of them is never released
- `releases_of_hasRoom` — closing releases everybody while there is room
-/

namespace ZookeeperClient

open Transition

/-- Where a call of `pop` is. -/
inductive PopPc (α : Type) where
  | idle
  /-- Before `closed?`. -/
  | called
  /-- In `@queue.pop`. -/
  | popping
  /-- Before `rv == KILL_TOKEN`. -/
  | popped (rv : QueueItem α)
  /-- In `close`. -/
  | closing
  | returned (rv : QueueItem α)
  /-- `ShutdownException` has been raised. -/
  | shutDown
  /-- The inner queue was empty, and the call was not to block. -/
  | threadError
  deriving DecidableEq

/-- A call in `@queue.pop`, as a number. -/
def PopPc.waits {α : Type} : PopPc α → ℕ
  | .popping => 1
  | _ => 0

/-- The call has the kill token. -/
def PopPc.hasToken {α : Type} : PopPc α → Bool
  | .popped .killToken | .closing => true
  | _ => false

/-- One queue with the calls of `pop` on it. -/
structure Consumers (α : Type) where
  queue : QueueWithPipe α
  /-- `graceful_close!` holds `@mutex`, and has not pushed the token yet. -/
  locked : Bool
  calls : ℕ → PopPc α
  nonBlocking : ℕ → Bool
  nextCall : ℕ
  /-- History: what has been pushed. -/
  pushed : List α
  /-- History: what has been pushed before the kill token. -/
  early : List α
  /-- History: what the inner queue has handed out, and to which call. -/
  taken : List (ℕ × α)

/-- The steps of the threads. -/
inductive ConsumersAct (α : Type) where
  | push (a : α)
  /-- `pop` is called. -/
  | call (nonBlocking : Bool)
  /-- `closed?`. -/
  | test (c : ℕ)
  /-- `@queue.pop` returns. -/
  | take (c : ℕ)
  /-- `@queue.pop(true)` raises. -/
  | takeEmpty (c : ℕ)
  /-- `rv == KILL_TOKEN`. -/
  | compare (c : ℕ)
  /-- `close`, and `ShutdownException` is raised. -/
  | close (c : ℕ)
  /-- `graceful_close!`, up to `push(KILL_TOKEN)`. -/
  | gracefulClose
  | putToken
  /-- `close`, by whoever is not in `pop`. -/
  | closeOutside
  deriving DecidableEq

namespace Consumers

variable {α : Type}

/-- A new queue. -/
def initial : Consumers α where
  queue := .new
  locked := false
  calls := fun _ => .idle
  nonBlocking := fun _ => false
  nextCall := 0
  pushed := []
  early := []
  taken := []

/-- Call `c` goes on to `pc`. -/
def callTo (c : ℕ) (pc : PopPc α) (s : Consumers α) : Consumers α :=
  { s with calls := Function.update s.calls c pc }

def Enabled (s : Consumers α) : ConsumersAct α → Prop
  | .push _ => True
  | .call _ => True
  | .test c => s.calls c = .called ∧ s.locked = false
  | .take c => s.calls c = .popping ∧ s.queue.items ≠ []
  | .takeEmpty c => s.calls c = .popping ∧ s.nonBlocking c = true ∧ s.queue.items = []
  | .compare c => ∃ rv, s.calls c = .popped rv
  | .close c => s.calls c = .closing ∧ s.locked = false
  | .gracefulClose => s.locked = false
  | .putToken => s.locked = true
  | .closeOutside => s.locked = false

def next (s : Consumers α) : ConsumersAct α → Consumers α
  | .push a =>
    { s with
      queue := s.queue.push a
      pushed := s.pushed ++ [a]
      early := if s.queue.graceful && !s.locked then s.early else s.early ++ [a] }
  | .call nonBlocking =>
    { s.callTo s.nextCall .called with
      nonBlocking := Function.update s.nonBlocking s.nextCall nonBlocking
      nextCall := s.nextCall + 1 }
  | .test c => s.callTo c (if s.queue.closed then .shutDown else .popping)
  | .take c =>
    match s.queue.items with
    | [] => s
    | item :: rest =>
      { s.callTo c (.popped item) with
        queue := { s.queue with items := rest }
        taken :=
          match item with
          | .obj a => s.taken ++ [(c, a)]
          | .killToken => s.taken }
  | .takeEmpty c => s.callTo c .threadError
  | .compare c =>
    match s.calls c with
    | .popped .killToken => s.callTo c .closing
    | .popped rv => s.callTo c (.returned rv)
    | _ => s
  | .close c => { s.callTo c .shutDown with queue := s.queue.close }
  | .gracefulClose =>
    if s.queue.graceful || s.queue.closed then s
    else { s with queue := { s.queue with graceful := true }, locked := true }
  | .putToken =>
    { s with
      queue := { s.queue with items := s.queue.items ++ [.killToken] }
      locked := false }
  | .closeOutside => { s with queue := s.queue.close }

end Consumers

/-- The system of the threads that use one queue. -/
def consumers (α : Type) : System (Consumers α) (ConsumersAct α) where
  Init s := s = Consumers.initial
  Enabled := Consumers.Enabled
  next := Consumers.next

namespace Consumers

variable {α : Type}

/-! ## What closing the queue should do -/

/-- The number of calls in `@queue.pop`. -/
def waiting (s : Consumers α) : ℕ :=
  total PopPc.waits s.nextCall s.calls

/-- A step that leads to a state in which no more calls wait than there are items, from the moment
`graceful_close!` is called; and nobody but the call that has taken the token closes the queue
before it has been taken. -/
def HasRoom (s : Consumers α) : ConsumersAct α → Prop
  | .gracefulClose =>
    s.queue.graceful = true ∨ s.queue.closed = true ∨ s.waiting ≤ s.queue.items.length + 1
  | .test _ =>
    s.queue.closed = true ∨ s.queue.graceful = false ∨ s.waiting < s.queue.items.length
  | .closeOutside => s.queue.graceful = true ∧ .killToken ∉ s.queue.items
  | _ => True

/-- A step of a call of `pop`, or of `graceful_close!`, on its way to its end. -/
def Own (s : Consumers α) (a : ConsumersAct α) : Prop :=
  s.HasRoom a ∧
    match a with
    | .test _ | .take _ | .takeEmpty _ | .compare _ | .close _ | .putToken => True
    | .push _ | .call _ | .gracefulClose | .closeOutside => False

/-- The call has ended with an object or with `ShutdownException`, or has found the inner queue
empty and was not to block. -/
def Ended (c : ℕ) (s : Consumers α) : Prop :=
  (∃ a, s.calls c = .returned (.obj a)) ∨ s.calls c = .shutDown ∨
    s.nonBlocking c = true ∧ s.calls c = .threadError

/-- The queue is closed as it should be. -/
structure Releases (s : Consumers α) : Prop where
  /-- What has been pushed is in the queue still, or has been handed out, in its order. -/
  accounted : s.taken.map Prod.snd ++ s.queue.objs = s.pushed
  /-- A call is handed out one object at most, and that is the one it returns. -/
  once : (s.taken.map Prod.fst).Nodup ∧ ∀ c a, (c, a) ∈ s.taken ↔
    s.calls c = .popped (.obj a) ∨ s.calls c = .returned (.obj a)
  /-- When the queue is closed, everything pushed before the kill token has been handed out. -/
  early : s.queue.closed = true → s.early <+: s.taken.map Prod.snd
  token : ∀ c, s.calls c ≠ .returned .killToken
  /-- No call is blocked in a closed queue. -/
  unblocked : s.queue.closed = true → ∀ c, s.calls c = .popping → s.queue.items ≠ []
  /-- After `graceful_close!` every call comes to its end. -/
  released : s.queue.graceful = true → ∀ c, c < s.nextCall →
    (consumers α).Inevitable Own Own (Ended c) s

/-- Two threads are in `@queue.pop` when the queue is closed. The one that is given the token
closes the queue, and the other one waits for ever. -/
theorem not_releases_two_consumers :
    ¬∀ s, (consumers ℕ).Reachable System.anyStep s → s.Releases := by
  intro h
  have hvalid : (consumers ℕ).Valid System.anyStep initial
      [.call false, .call false, .test 0, .test 1, .gracefulClose, .putToken, .take 0,
        .compare 0, .close 0] := by
    refine ⟨trivial, trivial, trivial, trivial, ⟨rfl, rfl⟩, trivial, ⟨rfl, rfl⟩, trivial, rfl,
      trivial, rfl, trivial, ⟨rfl, by simp [consumers, next, initial, callTo]⟩, trivial, ⟨_, rfl⟩,
      trivial, ⟨rfl, rfl⟩, trivial, trivial⟩
  exact (h _ (hvalid.reachable_exec rfl)).unblocked rfl 1 rfl rfl

/-! ## One call by itself -/

/-- A call that nobody disturbs does what `QueueWithPipe.take` does. -/
theorem next_take_obj {s : Consumers α} {c : ℕ} {a : α} {q : QueueWithPipe α}
    (htake : s.queue.take = some (.ok a, q)) :
    ((s.next (.take c)).next (.compare c)).queue = q ∧
      ((s.next (.take c)).next (.compare c)).calls c = .returned (.obj a) := by
  cases hitems : s.queue.items with
  | nil => simp [QueueWithPipe.take, hitems] at htake
  | cons item rest =>
    cases item with
    | killToken => simp [QueueWithPipe.take_killToken hitems] at htake
    | obj b =>
      rw [QueueWithPipe.take_obj hitems] at htake
      obtain ⟨rfl, rfl⟩ : b = a ∧ { s.queue with items := rest } = q := by simpa using htake
      simp [next, hitems, callTo]

theorem next_take_killToken {s : Consumers α} {c : ℕ} {e : RubyError} {q : QueueWithPipe α}
    (htake : s.queue.take = some (.error e, q)) :
    (((s.next (.take c)).next (.compare c)).next (.close c)).queue = q ∧
      (((s.next (.take c)).next (.compare c)).next (.close c)).calls c = .shutDown := by
  cases hitems : s.queue.items with
  | nil => simp [QueueWithPipe.take, hitems] at htake
  | cons item rest =>
    cases item with
    | obj b => simp [QueueWithPipe.take_obj hitems] at htake
    | killToken =>
      rw [QueueWithPipe.take_killToken hitems] at htake
      obtain ⟨-, rfl⟩ : _ ∧ { s.queue with items := rest, closed := true } = q := by
        simpa using htake
      simp [next, hitems, callTo, QueueWithPipe.close]

/-! ## The invariant -/

/-- A call has what it has been handed, no call has returned the token, and only a call that is
not to block has found the queue empty. -/
structure Hands (s : Consumers α) : Prop where
  numbered : ∀ c, s.calls c = .idle ↔ s.nextCall ≤ c
  blocking : ∀ c, s.calls c = .threadError → s.nonBlocking c = true
  nodup : (s.taken.map Prod.fst).Nodup
  taken : ∀ c a, (c, a) ∈ s.taken ↔
    s.calls c = .popped (.obj a) ∨ s.calls c = .returned (.obj a)
  token : ∀ c, s.calls c ≠ .returned .killToken

/-- From the moment `graceful_close!` holds the mutex there are as many items as calls that wait
for one, with the token that it is about to push. -/
def Room (s : Consumers α) : Prop :=
  s.queue.graceful = true → s.waiting ≤ s.queue.items.length + s.locked.toNat

/-- Where the kill token is: it has not been pushed, it is in the queue, or a call has taken it. -/
inductive Phase (s : Consumers α) : Prop where
  | before (objs : List α) (items : s.queue.items = objs.map .obj)
      (graceful : s.queue.graceful = s.locked) (closed : s.queue.closed = false)
      (early : s.early = s.pushed) (none : ∀ c, (s.calls c).hasToken = false)
  | put (front back : List α)
      (items : s.queue.items = front.map .obj ++ .killToken :: back.map .obj)
      (graceful : s.queue.graceful = true) (locked : s.locked = false)
      (closed : s.queue.closed = false) (early : s.taken.map Prod.snd ++ front = s.early)
      (none : ∀ c, (s.calls c).hasToken = false)
  | taken (objs : List α) (items : s.queue.items = objs.map .obj)
      (graceful : s.queue.graceful = true) (locked : s.locked = false)
      (early : s.early <+: s.taken.map Prod.snd)
      (ends : s.queue.closed = true ∨ ∃ c, (s.calls c).hasToken = true)

/-- What holds in every state of a run whose steps leave room. -/
structure Inv (s : Consumers α) : Prop where
  hands : s.Hands
  accounted : s.taken.map Prod.snd ++ s.queue.objs = s.pushed
  room : s.Room
  phase : s.Phase

variable {s s' : Consumers α} {c : ℕ} {pc : PopPc α}

theorem objsOf_map (objs : List α) : QueueWithPipe.objsOf (objs.map .obj) = objs := by
  simp [QueueWithPipe.objsOf, List.filterMap_map]

theorem Hands.lt_nextCall (hs : s.Hands) (hc : s.calls c ≠ .idle) : c < s.nextCall := by
  by_contra hlt
  exact hc ((hs.numbered c).mpr (by omega))

/-- A call that has not been handed anything is not in the history. -/
theorem Hands.not_mem (hs : s.Hands) (hpc : ∀ a, s.calls c ≠ .popped (.obj a))
    (hpc' : ∀ a, s.calls c ≠ .returned (.obj a)) : c ∉ s.taken.map Prod.fst := by
  intro hmem
  obtain ⟨⟨d, a⟩, hda, rfl : d = c⟩ := List.mem_map.mp hmem
  obtain h | h := (hs.taken d a).mp hda
  · exact hpc a h
  · exact hpc' a h

/-- A call goes on with the object that it has been handed, if any. -/
theorem Hands.moved (hs : s.Hands) (hcalls : s'.calls = Function.update s.calls c pc)
    (hnext : ∀ d, d ≠ c → (s.nextCall ≤ d ↔ s'.nextCall ≤ d)) (hc : c < s'.nextCall)
    (htaken : s'.taken = s.taken) (hblocking : ∀ d, d ≠ c → s'.nonBlocking d = s.nonBlocking d)
    (hidle : pc ≠ .idle) (hkill : pc ≠ .returned .killToken)
    (herror : pc = .threadError → s'.nonBlocking c = true)
    (hobj : ∀ a, (pc = .popped (.obj a) ∨ pc = .returned (.obj a)) ↔
      (s.calls c = .popped (.obj a) ∨ s.calls c = .returned (.obj a))) : s'.Hands := by
  have hother (d : ℕ) (hd : d ≠ c) : s'.calls d = s.calls d := by
    rw [hcalls, Function.update_of_ne hd]
  have hself : s'.calls c = pc := by rw [hcalls, Function.update_self]
  refine ⟨fun d => ?_, fun d hd => ?_, htaken ▸ hs.nodup, fun d a => ?_, fun d => ?_⟩
  · by_cases hd : d = c
    · rw [hd, hself]
      exact iff_of_false hidle (by omega)
    · rw [hother d hd, hs.numbered d, hnext d hd]
  · by_cases hdc : d = c
    · subst hdc
      exact herror (hself.symm.trans hd)
    · rw [hother d hdc] at hd
      rw [hblocking d hdc]
      exact hs.blocking d hd
  · rw [htaken, hs.taken d a]
    by_cases hd : d = c
    · rw [hd, hself]
      exact (hobj a).symm
    · rw [hother d hd]
  · by_cases hd : d = c
    · rw [hd, hself]
      exact hkill
    · rw [hother d hd]
      exact hs.token d

/-- A call goes on with or without the token, as before. -/
theorem hasToken_moved (hcalls : s'.calls = Function.update s.calls c pc)
    (htoken : pc.hasToken = (s.calls c).hasToken) (d : ℕ) :
    (s'.calls d).hasToken = (s.calls d).hasToken := by
  rw [hcalls]
  by_cases hd : d = c
  · subst hd
    simpa using htoken
  · rw [Function.update_of_ne hd]

theorem waiting_moved (hcalls : s'.calls = Function.update s.calls c pc)
    (hnext : s'.nextCall = s.nextCall) (hc : c < s.nextCall) :
    s'.waiting + (s.calls c).waits = s.waiting + pc.waits := by
  unfold waiting
  rw [hcalls, hnext]
  exact total_update PopPc.waits hc pc

/-- A step that leaves the calls alone. -/
theorem Hands.congr (hs : s.Hands) (hcalls : s'.calls = s.calls)
    (hnext : s'.nextCall = s.nextCall) (htaken : s'.taken = s.taken)
    (hblocking : s'.nonBlocking = s.nonBlocking) : s'.Hands := by
  refine ⟨?_, ?_, ?_, ?_, ?_⟩
  · rw [hcalls, hnext]
    exact hs.numbered
  · rw [hcalls, hblocking]
    exact hs.blocking
  · rw [htaken]
    exact hs.nodup
  · rw [hcalls, htaken]
    exact hs.taken
  · rw [hcalls]
    exact hs.token

/-- A step that leaves the queue and its history alone. -/
theorem Phase.congr (hs : s.Phase) (hqueue : s'.queue = s.queue) (hlocked : s'.locked = s.locked)
    (hpushed : s'.pushed = s.pushed) (hearly : s'.early = s.early) (htaken : s'.taken = s.taken)
    (htoken : ∀ d, (s'.calls d).hasToken = (s.calls d).hasToken) : s'.Phase := by
  cases hs with
  | before objs items graceful closed early none =>
    exact .before objs (by rw [hqueue, items]) (by rw [hqueue, hlocked, graceful])
      (by rw [hqueue, closed]) (by rw [hearly, hpushed, early]) fun d => (htoken d).trans (none d)
  | put front back items graceful locked closed early none =>
    exact .put front back (by rw [hqueue, items]) (by rw [hqueue, graceful])
      (by rw [hlocked, locked]) (by rw [hqueue, closed]) (by rw [hearly, htaken, early])
      fun d => (htoken d).trans (none d)
  | taken objs items graceful locked early ends =>
    refine .taken objs (by rw [hqueue, items]) (by rw [hqueue, graceful])
      (by rw [hlocked, locked]) (by rw [hearly, htaken]; exact early) ?_
    rw [hqueue]
    exact ends.imp_right (Exists.imp fun d hd => (htoken d).trans hd)

/-- A call goes on without touching the queue. -/
theorem Inv.callTo (hs : s.Inv) (hc : s.calls c ≠ .idle)
    (hroom : s.queue.graceful = true →
      s.waiting + pc.waits ≤ s.queue.items.length + s.locked.toNat + (s.calls c).waits)
    (htoken : pc.hasToken = (s.calls c).hasToken) (hidle : pc ≠ .idle)
    (hkill : pc ≠ .returned .killToken) (herror : pc = .threadError → s.nonBlocking c = true)
    (hobj : ∀ a, (pc = .popped (.obj a) ∨ pc = .returned (.obj a)) ↔
      (s.calls c = .popped (.obj a) ∨ s.calls c = .returned (.obj a))) :
    (s.callTo c pc).Inv := by
  have hlt := hs.hands.lt_nextCall hc
  have hwaiting : (s.callTo c pc).waiting + (s.calls c).waits = s.waiting + pc.waits :=
    waiting_moved rfl rfl hlt
  refine ⟨hs.hands.moved rfl (fun _ _ => Iff.rfl) hlt rfl (fun _ _ => rfl) hidle hkill herror hobj,
    hs.accounted, fun hg => ?_,
    hs.phase.congr rfl rfl rfl rfl rfl (hasToken_moved rfl htoken)⟩
  have hle := hroom hg
  show (s.callTo c pc).waiting ≤ s.queue.items.length + s.locked.toNat
  omega

/-! ## The steps -/

theorem inv_push (hs : s.Inv) (a : α) : (s.next (.push a)).Inv := by
  have hlen : (s.queue.push a).items.length = s.queue.items.length + 1 := by
    simp [QueueWithPipe.push]
  refine ⟨hs.hands.congr rfl rfl rfl rfl, ?_, ?_, ?_⟩
  · show s.taken.map Prod.snd ++ (s.queue.push a).objs = s.pushed ++ [a]
    rw [QueueWithPipe.objs_push, ← List.append_assoc, hs.accounted]
  · intro hg
    show s.waiting ≤ (s.queue.push a).items.length + s.locked.toNat
    have hle := hs.room hg
    omega
  · cases hs.phase with
    | before objs items graceful closed early none =>
      refine .before (objs ++ [a]) ?_ graceful closed ?_ none
      · simp [next, QueueWithPipe.push, items]
      · simp [next, graceful, early]
    | put front back items graceful locked closed early none =>
      refine .put front (back ++ [a]) ?_ graceful locked closed ?_ none
      · simp [next, QueueWithPipe.push, items]
      · simpa [next, graceful, locked] using early
    | taken objs items graceful locked early ends =>
      refine .taken (objs ++ [a]) ?_ graceful locked ?_ ends
      · simp [next, QueueWithPipe.push, items]
      · simpa [next, graceful, locked] using early

/-- A new call waits for nothing and has nothing. -/
theorem inv_call (hs : s.Inv) (nonBlocking : Bool) : (s.next (.call nonBlocking)).Inv := by
  have hidle := (hs.hands.numbered s.nextCall).mpr le_rfl
  have hwaiting : (s.next (.call nonBlocking)).waiting = s.waiting := total_succ PopPc.waits _
  refine ⟨hs.hands.moved rfl (fun d hd => ?_) (Nat.lt_succ_self _) rfl
    (fun d hd => Function.update_of_ne hd _ _) (by simp) (by simp) (by simp) (by simp [hidle]),
    hs.accounted, fun hg => hwaiting.le.trans (hs.room hg), ?_⟩
  · show s.nextCall ≤ d ↔ s.nextCall + 1 ≤ d
    omega
  exact hs.phase.congr rfl rfl rfl rfl rfl
    (hasToken_moved rfl (by rw [hidle]; rfl))

/-- A call gets past `closed?` only while there is an item for it, once `graceful_close!` has been
called. -/
theorem inv_test (hs : s.Inv) (hpc : s.calls c = .called) (hroom : s.HasRoom (.test c)) :
    (s.next (.test c)).Inv := by
  have hne : s.calls c ≠ .idle := by simp [hpc]
  show (s.callTo c _).Inv
  cases hclosed : s.queue.closed with
  | true =>
    refine hs.callTo hne (fun hg => ?_) (by rw [hpc]; rfl) (by simp) (by simp) (by simp)
      (by simp [hpc])
    exact (hs.room hg).trans (Nat.le_add_right _ _)
  | false =>
    refine hs.callTo hne (fun hg => ?_) (by rw [hpc]; rfl) (by simp) (by simp) (by simp)
      (by simp [hpc])
    have hspace : s.waiting < s.queue.items.length := by
      simpa [HasRoom, hclosed, hg] using hroom
    show s.waiting + 1 ≤ _
    omega

theorem inv_takeEmpty (hs : s.Inv) (hpc : s.calls c = .popping)
    (hblocking : s.nonBlocking c = true) : (s.next (.takeEmpty c)).Inv := by
  refine hs.callTo (by simp [hpc]) (fun hg => ?_) (by rw [hpc]; rfl) (by simp) (by simp)
    (fun _ => hblocking) (by simp [hpc])
  exact (hs.room hg).trans (Nat.le_add_right _ _)

theorem inv_compare {rv : QueueItem α} (hs : s.Inv) (hpc : s.calls c = .popped rv) :
    (s.next (.compare c)).Inv := by
  have hroom (hg : s.queue.graceful = true) :
      s.waiting ≤ s.queue.items.length + s.locked.toNat + (s.calls c).waits :=
    (hs.room hg).trans (Nat.le_add_right _ _)
  cases rv with
  | obj a =>
    have heq : s.next (.compare c) = s.callTo c (.returned (.obj a)) := by simp [next, hpc]
    rw [heq]
    exact hs.callTo (by simp [hpc]) hroom (by rw [hpc]; rfl) (by simp) (by simp) (by simp)
      (by simp [hpc])
  | killToken =>
    have heq : s.next (.compare c) = s.callTo c .closing := by simp [next, hpc]
    rw [heq]
    exact hs.callTo (by simp [hpc]) hroom (by rw [hpc]; rfl) (by simp) (by simp) (by simp)
      (by simp [hpc])

/-- The inner queue hands an object to a call. -/
theorem inv_take_obj {a : α} {rest : List (QueueItem α)} (hs : s.Inv)
    (hpc : s.calls c = .popping) (hitems : s.queue.items = .obj a :: rest) :
    (s.next (.take c)).Inv := by
  have hlt := hs.hands.lt_nextCall (c := c) (by simp [hpc])
  have heq : s.next (.take c) =
      { s.callTo c (.popped (.obj a)) with
        queue := { s.queue with items := rest }
        taken := s.taken ++ [(c, a)] } := by
    simp only [next, hitems]
  have hnot := hs.hands.not_mem (c := c) (by simp [hpc]) (by simp [hpc])
  rw [heq]
  refine ⟨⟨fun d => ?_, fun d hd => ?_, ?_, fun d b => ?_, fun d => ?_⟩, ?_, fun hg => ?_, ?_⟩
  · by_cases hd : d = c
    · subst hd
      simpa [callTo] using hlt
    · simpa [callTo, hd] using hs.hands.numbered d
  · have hne : d ≠ c := by
      rintro rfl
      simp [callTo] at hd
    exact hs.hands.blocking d (by simpa [callTo, hne] using hd)
  · show ((s.taken ++ [(c, a)]).map Prod.fst).Nodup
    rw [List.map_append]
    exact hs.hands.nodup.append (List.nodup_singleton c) (List.disjoint_singleton.mpr hnot)
  · by_cases hd : d = c
    · subst hd
      have hold : (d, b) ∉ s.taken := fun hmem => hnot (List.mem_map.mpr ⟨_, hmem, rfl⟩)
      simp [callTo, hold, eq_comm]
    · simpa [callTo, hd] using hs.hands.taken d b
  · by_cases hd : d = c
    · subst hd
      simp [callTo]
    · simpa [callTo, hd] using hs.hands.token d
  · have hacc := hs.accounted
    rw [QueueWithPipe.objs, hitems] at hacc
    show (s.taken ++ [(c, a)]).map Prod.snd ++ QueueWithPipe.objsOf rest = s.pushed
    rw [List.map_append, List.append_assoc]
    exact hacc
  · have hmoved : (s.callTo c (.popped (.obj a))).waiting + (s.calls c).waits =
        s.waiting + (PopPc.popped (.obj a)).waits := waiting_moved rfl rfl hlt
    have hle := hs.room hg
    rw [hpc, hitems, List.length_cons] at *
    simp only [PopPc.waits] at hmoved
    show (s.callTo c (.popped (.obj a))).waiting ≤ rest.length + s.locked.toNat
    omega
  · have htoken : ∀ d, ((s.callTo c (.popped (.obj a))).calls d).hasToken =
        (s.calls d).hasToken := hasToken_moved rfl (by rw [hpc]; rfl)
    cases hs.phase with
    | before objs items graceful closed early none =>
      obtain ⟨b, objs, rfl, hb, hrest⟩ := List.map_eq_cons_iff.mp (items.symm.trans hitems)
      exact .before objs hrest.symm graceful closed early fun d => (htoken d).trans (none d)
    | put front back items graceful locked closed early none =>
      cases front with
      | nil => cases items.symm.trans hitems
      | cons b front =>
        obtain ⟨hb, hrest⟩ := List.cons.inj (items.symm.trans hitems)
        obtain rfl := QueueItem.obj.inj hb
        refine .put front back hrest.symm graceful locked closed ?_
          fun d => (htoken d).trans (none d)
        show (s.taken ++ [(c, b)]).map Prod.snd ++ front = s.early
        rw [List.map_append, List.append_assoc]
        exact early
    | taken objs items graceful locked early ends =>
      obtain ⟨b, objs, rfl, hb, hrest⟩ := List.map_eq_cons_iff.mp (items.symm.trans hitems)
      refine .taken objs hrest.symm graceful locked ?_ ?_
      · show s.early <+: (s.taken ++ [(c, a)]).map Prod.snd
        rw [List.map_append]
        exact early.trans (List.prefix_append _ _)
      · exact ends.imp_right (Exists.imp fun d hd => (htoken d).trans hd)

/-- The inner queue hands the token to a call, when everything in front of it has been handed
out. -/
theorem inv_take_killToken {rest : List (QueueItem α)} (hs : s.Inv)
    (hpc : s.calls c = .popping) (hitems : s.queue.items = .killToken :: rest) :
    (s.next (.take c)).Inv := by
  have hlt := hs.hands.lt_nextCall (c := c) (by simp [hpc])
  have heq : s.next (.take c) =
      { s.callTo c (.popped .killToken) with queue := { s.queue with items := rest } } := by
    simp only [next, hitems]
    rfl
  rw [heq]
  refine ⟨hs.hands.moved rfl (fun _ _ => Iff.rfl) hlt rfl (fun _ _ => rfl) (by simp)
    (by simp) (by simp) (by simp [hpc]), ?_, fun hg => ?_, ?_⟩
  · have hacc := hs.accounted
    rw [QueueWithPipe.objs, hitems] at hacc
    exact hacc
  · have hmoved : (s.callTo c (.popped .killToken)).waiting + (s.calls c).waits =
        s.waiting + (PopPc.popped .killToken).waits := waiting_moved rfl rfl hlt
    have hle := hs.room hg
    rw [hpc, hitems, List.length_cons] at *
    simp only [PopPc.waits] at hmoved
    show (s.callTo c (.popped .killToken)).waiting ≤ rest.length + s.locked.toNat
    omega
  · cases hs.phase with
    | before objs items graceful closed early none =>
      obtain ⟨b, objs, rfl, hb, hrest⟩ := List.map_eq_cons_iff.mp (items.symm.trans hitems)
      cases hb
    | put front back items graceful locked closed early none =>
      cases front with
      | nil =>
        obtain ⟨-, hrest⟩ := List.cons.inj (items.symm.trans hitems)
        refine .taken back hrest.symm graceful locked ?_ (Or.inr ⟨c, by simp [callTo]; rfl⟩)
        show s.early <+: s.taken.map Prod.snd
        rw [← early, List.append_nil]
      | cons b front => cases (List.cons.inj (items.symm.trans hitems)).1
    | taken objs items graceful locked early ends =>
      obtain ⟨b, objs, rfl, hb, hrest⟩ := List.map_eq_cons_iff.mp (items.symm.trans hitems)
      cases hb

/-- The call that has taken the token closes the queue. -/
theorem inv_close (hs : s.Inv) (hpc : s.calls c = .closing) : (s.next (.close c)).Inv := by
  have hlt := hs.hands.lt_nextCall (c := c) (by simp [hpc])
  have hhas : (s.calls c).hasToken = true := by rw [hpc]; rfl
  refine ⟨hs.hands.moved rfl (fun _ _ => Iff.rfl) hlt rfl (fun _ _ => rfl) (by simp)
    (by simp) (by simp) (by simp [hpc]), hs.accounted,
    fun hg => ?_, ?_⟩
  · have hmoved : (s.next (.close c)).waiting + (s.calls c).waits =
        s.waiting + PopPc.shutDown.waits := waiting_moved rfl rfl hlt
    rw [hpc] at hmoved
    exact (Nat.le.intro hmoved).trans (hs.room hg)
  · cases hs.phase with
    | before objs items graceful closed early none => exact absurd hhas (by simp [none c])
    | put front back items graceful locked closed early none =>
      exact absurd hhas (by simp [none c])
    | taken objs items graceful locked early ends =>
      exact .taken objs items graceful locked early (Or.inl rfl)

theorem inv_gracefulClose (hs : s.Inv) (hroom : s.HasRoom .gracefulClose) :
    (s.next .gracefulClose).Inv := by
  cases hg : s.queue.graceful with
  | true =>
    have heq : s.next .gracefulClose = s := by simp [next, hg]
    rwa [heq]
  | false =>
    cases hclosed : s.queue.closed with
    | true =>
      have heq : s.next .gracefulClose = s := by simp [next, hclosed]
      rwa [heq]
    | false =>
      have heq : s.next .gracefulClose =
          { s with queue := { s.queue with graceful := true }, locked := true } := by
        simp [next, hg, hclosed]
      rw [heq]
      refine ⟨hs.hands.congr rfl rfl rfl rfl, hs.accounted, fun _ => ?_, ?_⟩
      · show s.waiting ≤ s.queue.items.length + 1
        simpa [HasRoom, hg, hclosed] using hroom
      · cases hs.phase with
        | before objs items graceful closed early none =>
          exact .before objs items rfl closed early none
        | put front back items graceful locked closed early none =>
          exact absurd graceful (by simp [hg])
        | taken objs items graceful locked early ends =>
          exact absurd graceful (by simp [hg])

theorem inv_putToken (hs : s.Inv) (hlocked : s.locked = true) : (s.next .putToken).Inv := by
  cases hs.phase with
  | put front back items graceful locked closed early none =>
    exact absurd locked (by simp [hlocked])
  | taken objs items graceful locked early ends => exact absurd locked (by simp [hlocked])
  | before objs items graceful closed early none =>
    have hobjs : s.queue.objs = objs := by rw [QueueWithPipe.objs, items, objsOf_map]
    have hg : s.queue.graceful = true := graceful.trans hlocked
    refine ⟨hs.hands.congr rfl rfl rfl rfl, ?_, ?_, .put objs [] ?_ hg rfl closed ?_ none⟩
    · simpa [next, QueueWithPipe.objs, QueueWithPipe.objsOf] using hs.accounted
    · intro _
      have hle := hs.room hg
      rw [hlocked] at hle
      show s.waiting ≤ (s.queue.items ++ [QueueItem.killToken]).length + 0
      rw [List.length_append]
      exact hle
    · simp [next, items]
    · show s.taken.map Prod.snd ++ objs = s.early
      rw [early, ← hobjs, hs.accounted]

theorem inv_closeOutside (hs : s.Inv) (hlocked : s.locked = false)
    (hroom : s.HasRoom .closeOutside) : (s.next .closeOutside).Inv := by
  refine ⟨hs.hands.congr rfl rfl rfl rfl, hs.accounted, hs.room, ?_⟩
  obtain ⟨hg, htoken⟩ := hroom
  cases hs.phase with
  | before objs items graceful closed early none =>
    rw [hg, hlocked] at graceful
    cases graceful
  | put front back items graceful locked closed early none =>
    exact absurd (by simp [items]) htoken
  | taken objs items graceful locked early ends =>
    exact .taken objs items graceful locked early (Or.inl rfl)

/-- Every step that leaves room keeps the invariant. -/
theorem inv_next {a : ConsumersAct α} (hs : s.Inv) (hen : s.Enabled a) (hroom : s.HasRoom a) :
    (s.next a).Inv := by
  cases a with
  | push a => exact inv_push hs a
  | call nonBlocking => exact inv_call hs nonBlocking
  | test c => exact inv_test hs hen.1 hroom
  | take c =>
    obtain ⟨hpc, hne⟩ := hen
    obtain ⟨item, rest, hitems⟩ := List.exists_cons_of_ne_nil hne
    cases item with
    | obj a => exact inv_take_obj hs hpc hitems
    | killToken => exact inv_take_killToken hs hpc hitems
  | takeEmpty c => exact inv_takeEmpty hs hen.1 hen.2.1
  | compare c =>
    obtain ⟨rv, hpc⟩ := hen
    exact inv_compare hs hpc
  | close c => exact inv_close hs hen.1
  | gracefulClose => exact inv_gracefulClose hs hroom
  | putToken => exact inv_putToken hs hen
  | closeOutside => exact inv_closeOutside hs hen hroom

theorem inv_initial : (initial : Consumers α).Inv := by
  refine ⟨⟨?_, ?_, List.nodup_nil, ?_, ?_⟩, rfl, ?_, .before [] rfl rfl rfl rfl ?_⟩
  · simp [initial]
  · simp [initial]
  · simp [initial]
  · simp [initial]
  · exact fun h => absurd h (by simp [initial, QueueWithPipe.new])
  · simp [initial, PopPc.hasToken]

theorem inv_of_reachable (h : (consumers α).Reachable HasRoom s) : s.Inv := by
  refine h.invariant (I := Inv) ?_ fun s a hs hen hroom => inv_next hs hen hroom
  rintro s rfl
  exact inv_initial

/-! ## Every call comes to its end -/

/-- How far a call is from its end. -/
def popRank : PopPc α → ℕ
  | .called => 5
  | .popping => 4
  | .popped _ => 3
  | .closing => 2
  | .idle | .returned _ | .shutDown | .threadError => 0

/-- A bound for the number of steps that the calls and `graceful_close!` can take on their own. -/
def rank (s : Consumers α) : ℕ :=
  total popRank s.nextCall s.calls + s.locked.toNat

theorem rank_moved (hs : s.Hands) (hcalls : s'.calls = Function.update s.calls c pc)
    (hnext : s'.nextCall = s.nextCall) (hlocked : s'.locked = s.locked)
    (hless : popRank pc < popRank (s.calls c)) : s'.rank < s.rank := by
  have hlt : c < s.nextCall := hs.lt_nextCall fun hpc => by simp [hpc, popRank] at hless
  have hmoved := total_update popRank (f := s.calls) hlt pc
  unfold rank
  rw [hcalls, hnext, hlocked]
  omega

/-- Every step that the calls take on their own brings them closer to their ends. -/
theorem rank_next {a : ConsumersAct α} (hs : s.Inv) (hen : s.Enabled a) (hown : s.Own a) :
    (s.next a).rank < s.rank := by
  cases a with
  | test c =>
    refine rank_moved hs.hands rfl rfl rfl ?_
    rw [hen.1]
    cases s.queue.closed <;> simp [popRank]
  | take c =>
    obtain ⟨hpc, hne⟩ := hen
    obtain ⟨item, rest, hitems⟩ := List.exists_cons_of_ne_nil hne
    have hcalls : (s.next (.take c)).calls = Function.update s.calls c (.popped item) := by
      simp only [next, hitems]
      rfl
    refine rank_moved hs.hands hcalls ?_ ?_ (by simp [hpc, popRank])
    all_goals
      simp only [next, hitems]
      rfl
  | takeEmpty c => exact rank_moved hs.hands rfl rfl rfl (by simp [hen.1, popRank])
  | compare c =>
    obtain ⟨rv, hpc⟩ := hen
    cases rv with
    | obj a =>
      have hcalls : (s.next (.compare c)).calls =
          Function.update s.calls c (.returned (.obj a)) := by
        simp only [next, hpc]
        rfl
      refine rank_moved hs.hands hcalls ?_ ?_ (by simp [hpc, popRank])
      all_goals
        simp only [next, hpc]
        rfl
    | killToken =>
      have hcalls : (s.next (.compare c)).calls = Function.update s.calls c .closing := by
        simp only [next, hpc]
        rfl
      refine rank_moved hs.hands hcalls ?_ ?_ (by simp [hpc, popRank])
      all_goals
        simp only [next, hpc]
        rfl
  | close c => exact rank_moved hs.hands rfl rfl rfl (by simp [hen.1, popRank])
  | putToken =>
    have hlocked : s.locked = true := hen
    show total popRank s.nextCall s.calls + 0 < total popRank s.nextCall s.calls + _
    simp [hlocked]
  | push a => exact hown.2.elim
  | call nonBlocking => exact hown.2.elim
  | gracefulClose => exact hown.2.elim
  | closeOutside => exact hown.2.elim

/-- A step of their own neither opens the queue nor adds a call. -/
theorem own_frame {a : ConsumersAct α} (hown : s.Own a) :
    (s.next a).queue.graceful = s.queue.graceful ∧ (s.next a).nextCall = s.nextCall := by
  cases a with
  | test c => exact ⟨rfl, rfl⟩
  | take c =>
    simp only [next]
    split <;> exact ⟨rfl, rfl⟩
  | takeEmpty c => exact ⟨rfl, rfl⟩
  | compare c =>
    simp only [next]
    split <;> exact ⟨rfl, rfl⟩
  | close c => exact ⟨rfl, rfl⟩
  | putToken => exact ⟨rfl, rfl⟩
  | push a => exact hown.2.elim
  | call nonBlocking => exact hown.2.elim
  | gracefulClose => exact hown.2.elim
  | closeOutside => exact hown.2.elim

/-- A call in `@queue.pop` finds an item. -/
theorem items_ne_nil (hs : s.Inv) (hg : s.queue.graceful = true) (hlocked : s.locked = false)
    (hpc : s.calls c = .popping) : s.queue.items ≠ [] := by
  have hle := hs.room hg
  have hshare : (s.calls c).waits ≤ s.waiting :=
    le_total PopPc.waits (hs.hands.lt_nextCall (by simp [hpc]))
  rw [hpc] at hshare
  rw [hlocked, Bool.toNat_false, Nat.add_zero] at hle
  exact List.ne_nil_of_length_pos (Nat.lt_of_lt_of_le Nat.zero_lt_one (hshare.trans hle))

/-- The call that has taken the token has a step to take. -/
theorem exists_own_of_hasToken (hlocked : s.locked = false)
    (htoken : (s.calls c).hasToken = true) : ∃ a, s.Enabled a ∧ s.Own a := by
  cases hpc : s.calls c with
  | popped rv => exact ⟨.compare c, ⟨rv, hpc⟩, trivial, trivial⟩
  | closing => exact ⟨.close c, ⟨hpc, hlocked⟩, trivial, trivial⟩
  | idle | called | popping | returned rv | shutDown | threadError =>
    rw [hpc] at htoken
    cases htoken

/-- After `graceful_close!` a call that has not come to its end has a step to take, or another
one has. -/
theorem exists_own (hs : s.Inv) (hg : s.queue.graceful = true) (hc : c < s.nextCall)
    (hnot : ¬Ended c s) : ∃ a, s.Enabled a ∧ s.Own a := by
  cases hlocked : s.locked with
  | true => exact ⟨.putToken, hlocked, trivial, trivial⟩
  | false =>
    cases hpc : s.calls c with
    | idle => exact absurd ((hs.hands.numbered c).mp hpc) (by omega)
    | popping => exact ⟨.take c, ⟨hpc, items_ne_nil hs hg hlocked hpc⟩, trivial, trivial⟩
    | popped rv => exact ⟨.compare c, ⟨rv, hpc⟩, trivial, trivial⟩
    | closing => exact ⟨.close c, ⟨hpc, hlocked⟩, trivial, trivial⟩
    | returned rv =>
      cases rv with
      | obj a => exact absurd (Or.inl ⟨a, hpc⟩) hnot
      | killToken => exact absurd hpc (hs.hands.token c)
    | shutDown => exact absurd (Or.inr (Or.inl hpc)) hnot
    | threadError => exact absurd (Or.inr (Or.inr ⟨hs.hands.blocking c hpc, hpc⟩)) hnot
    | called =>
      -- it may pass `closed?`, or another call has to go on first
      cases hclosed : s.queue.closed with
      | true => exact ⟨.test c, ⟨hpc, hlocked⟩, Or.inl hclosed, trivial⟩
      | false =>
        by_cases hspace : s.waiting < s.queue.items.length
        · exact ⟨.test c, ⟨hpc, hlocked⟩, Or.inr (Or.inr hspace), trivial⟩
        · cases hs.phase with
          | before objs items graceful closed early none =>
            rw [hg, hlocked] at graceful
            cases graceful
          | put front back items graceful locked closed early none =>
            have hpos : 0 < s.queue.items.length := by simp [items]
            obtain ⟨d, -, hd⟩ := exists_pos_of_total_pos PopPc.waits
              (show 0 < total PopPc.waits s.nextCall s.calls from by
                show 0 < s.waiting
                omega)
            have hpopping : s.calls d = .popping := by
              cases hpcd : s.calls d <;> simp [hpcd, PopPc.waits] at hd ⊢
            exact ⟨.take d, ⟨hpopping, items_ne_nil hs hg hlocked hpopping⟩, trivial, trivial⟩
          | taken objs items graceful locked early ends =>
            obtain h | ⟨d, hd⟩ := ends
            · rw [hclosed] at h
              cases h
            · exact exists_own_of_hasToken hlocked hd

theorem inevitable_ended (hs : s.Inv) (hg : s.queue.graceful = true) (hc : c < s.nextCall) :
    (consumers α).Inevitable Own Own (Ended c) s := by
  refine System.inevitable_of_rank (consumers α) Own Own
    (fun s => s.Inv ∧ s.queue.graceful = true ∧ c < s.nextCall) (Ended c) rank ?_ ?_ s
    ⟨hs, hg, hc⟩
  · rintro s ⟨hs, hg, hc⟩ hnot
    exact exists_own hs hg hc hnot
  · rintro s a ⟨hs, hg, hc⟩ - hen hown
    obtain ⟨hgraceful, hnext⟩ := own_frame hown
    exact ⟨⟨inv_next hs hen hown.1, hgraceful.trans hg, hc.trans_eq hnext.symm⟩,
      rank_next hs hen hown⟩

/-- **Closing the queue releases everybody while there is room.** In every run in which, from the
moment `graceful_close!` is called, no more calls are in `@queue.pop` than there are items, and in
which nobody else closes the queue before the kill token has been taken, what has been pushed
before the token is handed out once and in order, nobody is blocked in a closed queue, and every
call comes to its end. -/
theorem releases_of_hasRoom (h : (consumers α).Reachable HasRoom s) : s.Releases := by
  have hs := inv_of_reachable h
  refine ⟨hs.accounted, ⟨hs.hands.nodup, hs.hands.taken⟩, fun hclosed => ?_, hs.hands.token,
    fun hclosed c hpc => ?_, fun hg c hc => inevitable_ended hs hg hc⟩
  · cases hs.phase with
    | before objs items graceful closed early none =>
      rw [hclosed] at closed
      cases closed
    | put front back items graceful locked closed early none =>
      rw [hclosed] at closed
      cases closed
    | taken objs items graceful locked early ends => exact early
  · cases hs.phase with
    | before objs items graceful closed early none =>
      rw [hclosed] at closed
      cases closed
    | put front back items graceful locked closed early none =>
      rw [hclosed] at closed
      cases closed
    | taken objs items graceful locked early ends =>
      exact items_ne_nil hs graceful locked hpc

/-- Two threads wait while an object and then the token come. -/
theorem releases_two_consumers :
    ((consumers ℕ).exec initial
      [.call false, .call false, .test 0, .test 1, .push 7, .gracefulClose,
        .putToken]).Releases := by
  have hvalid : (consumers ℕ).Valid HasRoom initial
      [.call false, .call false, .test 0, .test 1, .push 7, .gracefulClose, .putToken] := by
    refine ⟨trivial, trivial, trivial, trivial, ⟨rfl, rfl⟩, Or.inr (Or.inl rfl), ⟨rfl, rfl⟩,
      Or.inr (Or.inl rfl), trivial, trivial, rfl, Or.inr (Or.inr ?_), rfl, trivial, trivial⟩
    decide
  exact releases_of_hasRoom (hvalid.reachable_exec rfl)

end Consumers

end ZookeeperClient
