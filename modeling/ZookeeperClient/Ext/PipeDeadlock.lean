import ZookeeperClient.Ext.EventLoop

/-!
# The event queue and its wake-up pipe

`zkrb_enqueue` writes to the pipe while it holds `zkrb_q_mutex`, and the event thread
reads from the pipe only after it has found the list empty. A burst that keeps the list
from becoming empty therefore fills the pipe: the next producer blocks with the mutex
held, and the event thread waits for that mutex in `zkrb_dequeue`.

## Main definitions

- `Loop.Deadlocked` — the producer and the event thread wait for each other
- `Loop.CanTake` — the event thread can go on to take the first event of the list
- `Loop.FindsRoom` — the steps that no writer begins at a full pipe at a bad moment

## Main results

- `deadlocked_of_burst` — with a pipe of any capacity the deadlock can be reached
- `deadlocked_next` — no step leads out of it
- `no_deadlock` — runs all of whose steps satisfy `FindsRoom` never reach it
-/

namespace ZookeeperClient

open Transition

namespace Loop

variable {ε : Type} {cap : ℕ}

/-- A producer is blocked in `write` with `zkrb_q_mutex` held, and the event thread waits for
the mutex in `zkrb_dequeue`. -/
def Deadlocked (cap : ℕ) (s : Loop ε) : Prop :=
  s.qMutex ≠ none ∧ ¬s.pipe < cap ∧ s.pc = .dequeue

/-- The event thread has entered its loop and has not left it. -/
def InLoop (s : Loop ε) : Prop :=
  s.pc ≠ .starting ∧ s.pc ≠ .exited

/-- The steps of the event thread in its loop, and the end of a blocked write. -/
def OwnStep : LoopAct ε → Prop
  | .dequeue | .checkShutdown | .wake | .read | .push | .finishWrite => True
  | _ => False

/-- Without any further event or signal, the event thread goes on to take the first event. -/
def CanTake (cap : ℕ) (s : Loop ε) : Prop :=
  ∀ event rest, s.queue = event :: rest →
    ∃ s', (eventLoop ε cap).Reaches (fun _ a => OwnStep a) s s' ∧
      s'.pc = .delivering event ∧ s'.queue = rest

/-- A writer that begins finds room in the pipe, unless the event thread is waiting for the
pipe or has ended. -/
def FindsRoom (cap : ℕ) (s : Loop ε) : LoopAct ε → Prop
  | .enqueue _ | .signal => s.pipe < cap ∨ s.Waiting ∨ s.pc = .exited
  | _ => True

instance (s : Loop ε) : Decidable s.Waiting :=
  match h : s.pc with
  | .foundEmpty => isTrue (Or.inl h)
  | .parked => isTrue (Or.inr (Or.inl h))
  | .readable => isTrue (Or.inr (Or.inr h))
  | .starting | .dequeue | .delivering _ | .exited => isFalse (by simp [Waiting, h])

/-! ## The deadlock -/

/-- No step leads out of the deadlock. -/
theorem deadlocked_next {s : Loop ε} (h : Deadlocked cap s) {a : LoopAct ε}
    (hen : Enabled cap s a) : Deadlocked cap (s.next cap a) := by
  obtain ⟨hheld, hfull, hpc⟩ := h
  cases a with
  | setRunning | shutDown => exact ⟨hheld, hfull, hpc⟩
  | dequeue => exact absurd hen.2 hheld
  | enqueue event => exact absurd hen hheld
  | signal => exact absurd hen hheld
  | finishWrite => exact absurd hen.2 hfull
  | start | checkShutdown | wake | read | push => simp [Enabled, hpc] at hen

/-- From a state in which the event thread is about to dequeue, as many events as the pipe has
room for, and one more, block the last producer. -/
theorem reaches_deadlocked (event : ε) {s : Loop ε} (hpc : s.pc = .dequeue)
    (hfree : s.qMutex = none) (hpipe : s.pipe ≤ cap) :
    ∃ s', (eventLoop ε cap).Reaches System.anyStep s s' ∧ Deadlocked cap s' := by
  have henq : Enabled cap s (.enqueue event) := hfree
  induction hroom : cap - s.pipe generalizing s with
  | zero =>
    have hfull : ¬s.pipe < cap := by omega
    refine ⟨s.next cap (.enqueue event),
      (eventLoop ε cap).reaches_single (.enqueue event) henq trivial, ?_⟩
    simp [Deadlocked, next, zkrbEnqueue, writeByte, hfull, hpc]
  | succ room ih =>
    have hlt : s.pipe < cap := by omega
    have hpipe : (s.next cap (.enqueue event)).pipe = s.pipe + 1 := by
      simp [next, zkrbEnqueue, writeByte, hlt]
    obtain ⟨s', hrun, hdead⟩ := @ih (s.next cap (.enqueue event))
      (by simp [next, zkrbEnqueue, writeByte, hlt, hpc])
      (by simp [next, zkrbEnqueue, writeByte, hlt])
      (by rw [hpipe]; omega)
      (by simp [Enabled, next, zkrbEnqueue, writeByte, hlt])
      (by rw [hpipe]; omega)
    exact ⟨s', (eventLoop ε cap).reaches_head (.enqueue event) henq trivial hrun, hdead⟩

/-- A pipe of any capacity is filled by a burst that starts before the event thread takes its
first event. -/
theorem deadlocked_of_burst (cap : ℕ) (event : ε) :
    ∃ s, (eventLoop ε cap).Reachable System.anyStep s ∧ Deadlocked cap s := by
  have hstart : (eventLoop ε cap).Reachable System.anyStep
      ((eventLoop ε cap).exec Loop.initial [.setRunning, .start]) :=
    System.Valid.reachable_exec rfl
      (by simp [System.Valid, System.anyStep, eventLoop, Enabled, next, initial])
  obtain ⟨s', hrun, hdead⟩ := @reaches_deadlocked ε cap event
    ((eventLoop ε cap).exec Loop.initial [.setRunning, .start]) rfl rfl (Nat.zero_le _)
  exact ⟨s', hstart.trans hrun, hdead⟩

/-- A burst of 65537 events deadlocks a pipe of 65536 bytes. -/
theorem deadlocked_pipe_65536 :
    ∃ s, (eventLoop ℕ 65536).Reachable System.anyStep s ∧ Deadlocked 65536 s :=
  deadlocked_of_burst 65536 0

/-! ## Runs without the deadlock -/

/-- A writer stays blocked only while the event thread is waiting for the pipe or has ended. -/
def Drained (cap : ℕ) (s : Loop ε) : Prop :=
  s.qMutex ≠ none → s.pipe < cap ∨ s.Waiting ∨ s.pc = .exited

theorem drained_writeByte {s : Loop ε} {w : Writer}
    (h : s.pipe < cap ∨ s.Waiting ∨ s.pc = .exited) : Drained cap (s.writeByte cap w) := by
  unfold writeByte
  split
  · exact fun hm => absurd rfl hm
  · next hfull => exact fun _ => Or.inr (h.resolve_left hfull)

/-- A step that satisfies `FindsRoom` leaves no writer blocked at a bad moment. -/
theorem drained_next {s : Loop ε} (h : Drained cap s) (hinv : Inv cap s) {a : LoopAct ε}
    (hen : Enabled cap s a) (hok : FindsRoom cap s a) : Drained cap (s.next cap a) := by
  cases a with
  | setRunning | shutDown => exact h
  | start =>
    intro hm
    obtain hroom | hw | he := h hm
    · exact Or.inl hroom
    · simp [Waiting, hen.1] at hw
    · simp [hen.1] at he
  -- the mutex of the list is free, so no write is blocked
  | dequeue =>
    intro hm
    have hfree := hen.2
    cases hq : s.queue <;> simp [next, zkrbDequeue, hq, hfree] at hm
  | checkShutdown =>
    intro _
    right
    simp only [next, Waiting]
    split <;> simp
  | wake => exact fun _ => Or.inr (Or.inl (Or.inr (Or.inr rfl)))
  | read =>
    -- the read makes room
    intro _
    left
    have hpos := hen.2
    have hle := hinv.pipe_le
    simp only [next, bufSize]
    omega
  | push =>
    intro hm
    obtain ⟨event, hpc⟩ := hen
    obtain hroom | hw | he := h hm
    · exact Or.inl hroom
    · simp [Waiting, hpc] at hw
    · simp [hpc] at he
  | enqueue event => exact drained_writeByte hok
  | signal => exact drained_writeByte hok
  | finishWrite => exact fun hm => absurd rfl hm

theorem drained_of_reachable {s : Loop ε}
    (h : (eventLoop ε cap).Reachable (FindsRoom cap) s) : Drained cap s := by
  refine h.invariant_under (fun _ => inv_of_reachable) ?_
    fun _ _ hinv hd hen hok => drained_next hd hinv hen hok
  rintro _ rfl
  exact fun hm => absurd rfl hm

theorem not_deadlocked_of_drained {s : Loop ε} (h : Drained cap s) : ¬Deadlocked cap s := by
  rintro ⟨hheld, hfull, hpc⟩
  obtain hroom | hw | he := h hheld
  · exact hfull hroom
  · simp [Waiting, hpc] at hw
  · simp [hpc] at he

/-- How many of its own steps the event thread is from taking an event. -/
def distance (s : Loop ε) : ℕ :=
  (match s.pc with
    | .foundEmpty => 6
    | .parked => 4
    | .readable | .delivering _ => 2
    | _ => 0) + s.qMutex.toList.length

/-- What the event thread's own steps keep on the way to the first event. -/
structure OnTheWay (cap : ℕ) (queue : List ε) (s : Loop ε) : Prop where
  reachable : (eventLoop ε cap).Reachable (FindsRoom cap) s
  queue_eq : s.queue = queue
  inLoop : s.InLoop
  up : s.shuttingDown = false

/-- Short of the next dequeue, the event thread or the blocked writer has a step. -/
theorem progress (hcap : 0 < cap) {queue : List ε} (hqueue : queue ≠ []) {s : Loop ε}
    (h : OnTheWay cap queue s) (hgoal : ¬(s.pc = .dequeue ∧ s.qMutex = none)) :
    ∃ a, Enabled cap s a ∧ OwnStep a ∧ OnTheWay cap queue (s.next cap a) ∧
      (s.next cap a).distance < s.distance := by
  have hinv := inv_of_reachable h.reachable
  have hdrained := drained_of_reachable h.reachable
  obtain ⟨hr, hq, ⟨hns, hne⟩, hup⟩ := h
  have hlen : 0 < s.queue.length := by
    rw [hq]
    exact List.length_pos_iff.mpr hqueue
  cases hpc : s.pc with
  | starting => exact absurd hpc hns
  | exited => exact absurd hpc hne
  | dequeue =>
    -- the mutex is held by a writer, who has room
    have hheld : s.qMutex ≠ none := fun hm => hgoal ⟨hpc, hm⟩
    have hsome : s.qMutex.isSome = true := Option.isSome_iff_ne_none.mpr hheld
    have hroom : s.pipe < cap := by
      by_contra hfull
      exact not_deadlocked_of_drained hdrained ⟨hheld, hfull, hpc⟩
    have hen : Enabled cap s .finishWrite := ⟨hsome, hroom⟩
    refine ⟨.finishWrite, hen, trivial,
      ⟨hr.next .finishWrite hen trivial, hq, ⟨hns, hne⟩, hup⟩, ?_⟩
    obtain ⟨w, hsome⟩ := Option.isSome_iff_exists.mp hsome
    simp [distance, next, hpc, hsome]
  | foundEmpty =>
    have hen : Enabled cap s .checkShutdown := hpc
    refine ⟨.checkShutdown, hen, trivial,
      ⟨hr.next .checkShutdown hen trivial, hq, by simp [InLoop, next, hup], hup⟩, ?_⟩
    simp [distance, next, hpc, hup]
  | parked =>
    -- a queued event has its byte in the pipe
    have hw : s.Waiting := Or.inr (Or.inl hpc)
    have hbyte : 0 < s.pipe := by
      have hannounced := hinv.announced hw
      by_cases hm : s.qMutex = none
      · simp only [unannounced, hm, reduceCtorEq, if_false] at hannounced
        omega
      · have := hinv.full hw hm
        omega
    have hen : Enabled cap s .wake := ⟨hpc, hbyte⟩
    refine ⟨.wake, hen, trivial,
      ⟨hr.next .wake hen trivial, hq, by simp [InLoop, next], hup⟩, ?_⟩
    simp only [distance, next, hpc]
    omega
  | readable =>
    have hw : s.Waiting := Or.inr (Or.inr hpc)
    have hbyte : 0 < s.pipe := by
      have hannounced := hinv.announced hw
      by_cases hm : s.qMutex = none
      · simp only [unannounced, hm, reduceCtorEq, if_false] at hannounced
        omega
      · have := hinv.full hw hm
        omega
    have hen : Enabled cap s .read := ⟨hpc, hbyte⟩
    refine ⟨.read, hen, trivial,
      ⟨hr.next .read hen trivial, hq, by simp [InLoop, next], hup⟩, ?_⟩
    simp only [distance, next, hpc]
    omega
  | delivering event =>
    have hen : Enabled cap s .push := ⟨event, hpc⟩
    refine ⟨.push, hen, trivial,
      ⟨hr.next .push hen trivial, hq, by simp [InLoop, next], hup⟩, ?_⟩
    simp only [distance, next, hpc]
    omega

/-- In a run without a bad write the first event of the list can always be taken. -/
theorem canTake_of_reachable (hcap : 0 < cap) {s : Loop ε}
    (h : (eventLoop ε cap).Reachable (FindsRoom cap) s) (hloop : s.InLoop)
    (hup : s.shuttingDown = false) : CanTake cap s := by
  intro event rest hq
  obtain ⟨s₁, hrun, hway, hpc, hfree⟩ :=
    System.exists_reaches_of_rank (eventLoop ε cap) (fun _ a => OwnStep a)
      (OnTheWay cap (event :: rest)) (fun s => s.pc = .dequeue ∧ s.qMutex = none)
      distance (fun s hs hg => progress hcap (List.cons_ne_nil _ _) hs hg)
      s ⟨h, hq, hloop, hup⟩
  have hen : Enabled cap s₁ .dequeue := ⟨hpc, hfree⟩
  refine ⟨s₁.next cap .dequeue,
    (eventLoop ε cap).reaches_tail .dequeue hrun hen trivial, ?_, ?_⟩
  · simp [next, zkrbDequeue, hway.queue_eq]
  · simp [next, zkrbDequeue, hway.queue_eq]

/-- **No deadlock on the wake-up pipe.** If no writer begins at a full pipe while the event
thread is busy elsewhere, then in every state reached the producer and the event thread do not
wait for each other, and an event thread that is in its loop can take the first event. -/
theorem no_deadlock (hcap : 0 < cap) {s : Loop ε}
    (h : (eventLoop ε cap).Reachable (FindsRoom cap) s) :
    ¬Deadlocked cap s ∧ (s.InLoop → s.shuttingDown = false → CanTake cap s) :=
  ⟨not_deadlocked_of_drained (drained_of_reachable h), canTake_of_reachable hcap h⟩

/-- An event that comes while the event thread is parked at a pipe of one byte. -/
theorem no_deadlock_parked :
    let s := (eventLoop ℕ 1).exec Loop.initial
      [.setRunning, .start, .dequeue, .checkShutdown, .enqueue 7, .enqueue 8]
    ¬Deadlocked 1 s ∧ (s.InLoop → s.shuttingDown = false → CanTake 1 s) :=
  no_deadlock Nat.one_pos (System.Valid.reachable_exec rfl (by
    simp [System.Valid, eventLoop, FindsRoom, Enabled, next, zkrbDequeue, zkrbEnqueue,
      writeByte, Waiting, initial]))

end Loop

end ZookeeperClient
