import ZookeeperClient.Ext.EventLoop
import ZookeeperClient.Transition.Fair

/-!
# The event thread makes progress

The event loop of a handle together with what has gone into it and come out of it. The threads of
the C client, `wake_event_loop!` and the event thread meet at `zkrb_q_mutex` and at the pipe. If the
pipe does not become full, nobody is ever blocked with the mutex in hand, and an event thread that
is treated fairly hands on every event, no matter how many others come in. It ends with the list
empty, and only when `@_shutting_down` has been set. No `read` fails here, and no
`@event_queue.push` raises: what becomes of the handle then is in `Handle.Close`.

## Main definitions

- `LoopLog`, `loggedLoop` — the event loop with its history
- `LoopLog.HasRoom` — the pipe does not become full
- `LoopLog.EventThread` — the steps of the event thread

## Main results

- `pushed_of_weaklyFair` — every event is pushed at last, unless the event thread ends
-/

namespace ZookeeperClient

open Transition

/-- An event loop, and the events that have been passed to `zkrb_enqueue` and pushed to
`@event_queue` so far. -/
structure LoopLog (ε : Type) where
  loop : Loop ε
  enqueued : List ε
  pushed : List ε

namespace LoopLog

variable {ε : Type} {cap : ℕ}

def initial : LoopLog ε where
  loop := .initial
  enqueued := []
  pushed := []

def next (cap : ℕ) (s : LoopLog ε) (a : LoopAct ε) : LoopLog ε where
  loop := s.loop.next cap a
  enqueued :=
    match a with
    | .enqueue event => s.enqueued ++ [event]
    | _ => s.enqueued
  pushed :=
    match a, s.loop.pc with
    | .push, .delivering event => s.pushed ++ [event]
    | _, _ => s.pushed

/-- The writers find room in the pipe. -/
def HasRoom (cap : ℕ) (s : LoopLog ε) : LoopAct ε → Prop
  | .enqueue _ | .signal => s.loop.pipe < cap
  | _ => True

/-- The steps of the event thread. -/
def EventThread (_ : LoopLog ε) : LoopAct ε → Prop
  | .start | .dequeue | .checkShutdown | .wake | .read | .push => True
  | .setRunning | .enqueue _ | .signal | .finishWrite | .shutDown => False

/-- The event in the hand of the event thread. -/
def hand (s : LoopLog ε) : List ε :=
  match s.loop.pc with
  | .delivering event => [event]
  | _ => []

end LoopLog

/-- The event loop with its history. -/
def loggedLoop (ε : Type) (cap : ℕ) : System (LoopLog ε) (LoopAct ε) where
  Init s := s = LoopLog.initial
  Enabled s := s.loop.Enabled cap
  next := LoopLog.next cap

namespace LoopLog

variable {ε : Type} {cap : ℕ} {s : LoopLog ε}

/-! ## What holds at every moment -/

/-- Every event is in one place, nobody is blocked, and the event thread has not ended for no
reason. -/
structure Kept (cap : ℕ) (s : LoopLog ε) : Prop where
  places : s.enqueued = s.pushed ++ s.hand ++ s.loop.queue
  loop : Loop.Inv cap s.loop
  unblocked : s.loop.qMutex = none
  exited : s.loop.pc = .exited → s.loop.shuttingDown = true

/-- `zkrb_enqueue` with room in the pipe. -/
theorem next_enqueue (event : ε) (hroom : s.loop.pipe < cap) : s.next cap (.enqueue event) =
    { loop :=
        { s.loop with
          queue := s.loop.queue ++ [event], pipe := s.loop.pipe + 1, qMutex := none }
      enqueued := s.enqueued ++ [event]
      pushed := s.pushed } := by
  simp [next, Loop.next, Loop.zkrbEnqueue, Loop.writeByte, hroom]

/-- `zkrb_signal` with room in the pipe. -/
theorem next_signal (hroom : s.loop.pipe < cap) : s.next cap .signal =
    { s with
      loop :=
        { s.loop with
          woken := s.loop.woken || s.loop.shuttingDown, pipe := s.loop.pipe + 1
          qMutex := none } } := by
  simp [next, Loop.next, Loop.zkrbSignal, Loop.writeByte, hroom]

theorem kept_next {a : LoopAct ε} (hen : s.loop.Enabled cap a) (hroom : s.HasRoom cap a)
    (hs : s.Kept cap) : (s.next cap a).Kept cap := by
  have hloop := Loop.inv_next hs.loop a hen
  have hplaces := hs.places
  unfold hand at hplaces
  cases a with
  | setRunning => exact ⟨hs.places, hloop, hs.unblocked, hs.exited⟩
  | shutDown => exact ⟨hs.places, hloop, hs.unblocked, fun _ => rfl⟩
  | finishWrite => simp [Loop.Enabled, hs.unblocked] at hen
  | start =>
    obtain ⟨hpc, -⟩ := hen
    rw [hpc] at hplaces
    cases hshut : s.loop.shuttingDown with
    | true => exact ⟨by simpa [next, hand, Loop.next, hshut] using hplaces, hloop, hs.unblocked,
        fun _ => hshut⟩
    | false => exact ⟨by simpa [next, hand, Loop.next, hshut] using hplaces, hloop, hs.unblocked,
        by simp [next, Loop.next, hshut]⟩
  | checkShutdown =>
    rw [show s.loop.pc = .foundEmpty from hen] at hplaces
    cases hshut : s.loop.shuttingDown with
    | true => exact ⟨by simpa [next, hand, Loop.next, hshut] using hplaces, hloop, hs.unblocked,
        fun _ => hshut⟩
    | false => exact ⟨by simpa [next, hand, Loop.next, hshut] using hplaces, hloop, hs.unblocked,
        by simp [next, Loop.next, hshut]⟩
  | dequeue =>
    obtain ⟨hpc, -⟩ := hen
    rw [hpc] at hplaces
    cases hq : s.loop.queue with
    | nil =>
      refine ⟨?_, hloop, ?_, ?_⟩
      · simpa [next, hand, Loop.next, Loop.zkrbDequeue, hq] using hplaces
      · simpa [next, Loop.next, Loop.zkrbDequeue, hq] using hs.unblocked
      · simp [next, Loop.next, Loop.zkrbDequeue, hq]
    | cons event rest =>
      refine ⟨?_, hloop, ?_, ?_⟩
      · simpa [next, hand, Loop.next, Loop.zkrbDequeue, hq] using hplaces
      · simpa [next, Loop.next, Loop.zkrbDequeue, hq] using hs.unblocked
      · simp [next, Loop.next, Loop.zkrbDequeue, hq]
  | wake =>
    obtain ⟨hpc, -⟩ := hen
    rw [hpc] at hplaces
    exact ⟨hplaces, hloop, hs.unblocked, by simp [next, Loop.next]⟩
  | read =>
    obtain ⟨hpc, -⟩ := hen
    rw [hpc] at hplaces
    exact ⟨hplaces, hloop, hs.unblocked, by simp [next, Loop.next]⟩
  | push =>
    obtain ⟨event, hpc⟩ := hen
    rw [hpc] at hplaces
    exact ⟨by simpa [next, hand, hpc, Loop.next] using hplaces, hloop, hs.unblocked,
      by simp [next, Loop.next]⟩
  | enqueue event =>
    refine ⟨?_, hloop, ?_, ?_⟩ <;> rw [next_enqueue event hroom]
    · show s.enqueued ++ [event] = s.pushed ++ s.hand ++ (s.loop.queue ++ [event])
      rw [hs.places, List.append_assoc]
    · exact hs.exited
  | signal =>
    refine ⟨?_, hloop, ?_, ?_⟩ <;> rw [next_signal hroom]
    · exact hs.places
    · exact hs.exited

theorem kept_of_reachable (h : (loggedLoop ε cap).Reachable (HasRoom cap) s) : s.Kept cap := by
  refine h.invariant ?_ fun s a hs hen hok => kept_next hen hok hs
  rintro _ rfl
  exact ⟨rfl, Loop.inv_initial, rfl, fun hpc => by cases hpc⟩

/-! ## Progress -/

/-- How many steps the event thread is from its next `push`, if there is an event for it. -/
def distance : Pc ε → ℕ
  | .delivering _ | .exited => 0
  | .dequeue => 1
  | .starting | .readable => 2
  | .parked => 3
  | .foundEmpty => 4

/-- How many steps of the event thread it takes at most until `count` events have been pushed. -/
def stepsLeft (count : ℕ) (s : LoopLog ε) : ℕ :=
  5 * (count - s.pushed.length) + distance s.loop.pc

/-- There are events to push, and the event thread may start. -/
structure Pending (count : ℕ) (s : LoopLog ε) : Prop where
  enqueued : count ≤ s.enqueued.length
  running : s.loop.running = true

/-- That many events have been pushed, or the event thread has ended. -/
def Done (count : ℕ) (s : LoopLog ε) : Prop :=
  count ≤ s.pushed.length ∨ s.loop.pc = .exited

/-- The list is not empty unless the event thread has the event in hand. -/
theorem Kept.queue_ne_nil (hs : s.Kept cap) {count : ℕ} (hpending : s.Pending count)
    (hnot : ¬s.Done count) (hhand : s.hand = []) : s.loop.queue ≠ [] := by
  intro hq
  have hplaces := congrArg List.length hs.places
  have henqueued := hpending.enqueued
  simp only [hhand, hq, List.append_nil] at hplaces
  exact hnot (Or.inl (by omega))

/-- **The event thread is not blocked**, while there are events to push. -/
theorem exists_enabled (hs : s.Kept cap) {count : ℕ} (hpending : s.Pending count)
    (hnot : ¬s.Done count) : ∃ a, s.loop.Enabled cap a ∧ s.EventThread a := by
  -- while the event thread waits, each event in the list has its byte in the pipe
  have hbyte (hwaiting : s.loop.Waiting) (hhand : s.hand = []) : 0 < s.loop.pipe := by
    have hlength := List.length_pos_iff.mpr (hs.queue_ne_nil hpending hnot hhand)
    have hannounced := hs.loop.announced hwaiting
    simp only [Loop.unannounced, hs.unblocked, reduceCtorEq, if_false] at hannounced
    omega
  cases hpc : s.loop.pc with
  | starting => exact ⟨.start, ⟨hpc, hpending.running⟩, trivial⟩
  | dequeue => exact ⟨.dequeue, ⟨hpc, hs.unblocked⟩, trivial⟩
  | foundEmpty => exact ⟨.checkShutdown, hpc, trivial⟩
  | parked =>
    refine ⟨.wake, ⟨hpc, hbyte (Or.inr (Or.inl hpc)) ?_⟩, trivial⟩
    rw [hand, hpc]
  | readable =>
    refine ⟨.read, ⟨hpc, hbyte (Or.inr (Or.inr hpc)) ?_⟩, trivial⟩
    rw [hand, hpc]
  | delivering event => exact ⟨.push, ⟨event, hpc⟩, trivial⟩
  | exited => exact absurd (Or.inr hpc) hnot

/-- A step of the event thread brings it closer to its next `push`. -/
theorem stepsLeft_next {a : LoopAct ε} (hen : s.loop.Enabled cap a) (ha : s.EventThread a)
    (hs : s.Kept cap) {count : ℕ} (hpending : s.Pending count) (hnot : ¬s.Done count) :
    (s.next cap a).Done count ∨ (s.next cap a).stepsLeft count < s.stepsLeft count := by
  have hleft : s.pushed.length < count := by
    by_contra hle
    exact hnot (Or.inl (by omega))
  unfold stepsLeft
  cases a with
  | setRunning | enqueue event | signal | finishWrite | shutDown => exact ha.elim
  | start =>
    obtain ⟨hpc, -⟩ := hen
    cases hshut : s.loop.shuttingDown with
    | true => exact Or.inl (Or.inr (by simp [next, Loop.next, hshut]))
    | false => exact Or.inr (by simp [next, Loop.next, hshut, hpc, distance])
  | checkShutdown =>
    have hpc : s.loop.pc = .foundEmpty := hen
    cases hshut : s.loop.shuttingDown with
    | true => exact Or.inl (Or.inr (by simp [next, Loop.next, hshut]))
    | false => exact Or.inr (by simp [next, Loop.next, hshut, hpc, distance])
  | dequeue =>
    obtain ⟨hpc, -⟩ := hen
    have hne := hs.queue_ne_nil hpending hnot (by rw [hand, hpc])
    obtain ⟨event, rest, hq⟩ := List.exists_cons_of_ne_nil hne
    exact Or.inr (by simp [next, Loop.next, Loop.zkrbDequeue, hq, hpc, distance])
  | wake | read =>
    obtain ⟨hpc, -⟩ := hen
    exact Or.inr (by simp [next, Loop.next, hpc, distance])
  | push =>
    obtain ⟨event, hpc⟩ := hen
    refine Or.inr ?_
    simp only [next, Loop.next, hpc, distance, List.length_append, List.length_singleton]
    omega

/-- Another thread leaves the event thread where it is. -/
theorem frame_next {a : LoopAct ε} (hen : s.loop.Enabled cap a) (hroom : s.HasRoom cap a)
    (ha : ¬s.EventThread a) (hs : s.Kept cap) :
    (s.next cap a).loop.pc = s.loop.pc ∧ (s.next cap a).pushed = s.pushed := by
  cases a with
  | start | dequeue | checkShutdown | wake | read | push => exact absurd trivial ha
  | setRunning | shutDown => exact ⟨rfl, rfl⟩
  | finishWrite => simp [Loop.Enabled, hs.unblocked] at hen
  | enqueue event =>
    rw [next_enqueue event hroom]
    exact ⟨rfl, rfl⟩
  | signal =>
    rw [next_signal hroom]
    exact ⟨rfl, rfl⟩

theorem enqueued_next (s : LoopLog ε) (a : LoopAct ε) : s.enqueued <+: (s.next cap a).enqueued := by
  cases a with
  | enqueue event => exact List.prefix_append _ _
  | _ => exact List.prefix_rfl

theorem running_next (hs : s.loop.running = true) (a : LoopAct ε) :
    (s.next cap a).loop.running = true := by
  cases a with
  | setRunning => rfl
  | dequeue => cases hq : s.loop.queue <;> simp [next, Loop.next, Loop.zkrbDequeue, hq, hs]
  | enqueue event =>
    simp only [next, Loop.next, Loop.zkrbEnqueue, Loop.writeByte]
    split <;> exact hs
  | signal =>
    simp only [next, Loop.next, Loop.zkrbSignal, Loop.writeByte]
    split <;> exact hs
  | _ => exact hs

theorem Pending.next {count : ℕ} (hs : s.Pending count) (a : LoopAct ε) :
    (s.next cap a).Pending count :=
  ⟨hs.enqueued.trans (enqueued_next s a).length_le, running_next hs.running a⟩

/-- No step takes the event thread away from its goal. -/
theorem progress_next {a : LoopAct ε} (hen : s.loop.Enabled cap a) (hroom : s.HasRoom cap a)
    (hs : s.Kept cap) {count : ℕ} (hpending : s.Pending count) (hnot : ¬s.Done count) :
    (s.next cap a).Done count ∨ ((s.next cap a).Pending count ∧
      (s.next cap a).stepsLeft count ≤ s.stepsLeft count ∧
      (s.EventThread a → (s.next cap a).stepsLeft count < s.stepsLeft count)) := by
  by_cases ha : s.EventThread a
  · refine (stepsLeft_next hen ha hs hpending hnot).imp id fun hlt => ?_
    exact ⟨hpending.next a, hlt.le, fun _ => hlt⟩
  · obtain ⟨hpc, hpushed⟩ := frame_next hen hroom ha hs
    refine Or.inr ⟨hpending.next a, ?_, fun hthread => absurd hthread ha⟩
    unfold stepsLeft
    rw [hpc, hpushed]

/-- **Every event is pushed.** In every infinite run in which the event thread is treated fairly and
the pipe does not become full: once the handle is running, whatever has been passed to
`zkrb_enqueue` is pushed to `@event_queue` at last, in this order and with nothing in between,
unless the event thread ends; and it ends only after `@_shutting_down` has been set. -/
theorem pushed_of_weaklyFair (r : (loggedLoop ε cap).Run (HasRoom cap))
    (hfair : r.WeaklyFair EventThread) {n : ℕ} (hrunning : (r.state n).loop.running = true) :
    ∃ m, n ≤ m ∧ ((r.state n).enqueued <+: (r.state m).pushed ∨
      ((r.state m).loop.pc = .exited ∧ (r.state m).loop.shuttingDown = true)) := by
  obtain ⟨m, hm, hdone⟩ := r.eventually_of_rank hfair (r.from_ok n)
    (Pending (r.state n).enqueued.length) (Done (r.state n).enqueued.length)
    (stepsLeft (r.state n).enqueued.length)
    (fun s hr hpending hnot => exists_enabled (kept_of_reachable hr) hpending hnot)
    (fun s a hr hpending hnot hen hroom =>
      progress_next hen hroom (kept_of_reachable hr) hpending hnot)
    ⟨le_rfl, hrunning⟩
  have hs := kept_of_reachable (r.reachable m)
  refine ⟨m, hm, ?_⟩
  obtain hcount | hexited := hdone
  · have hbefore : (r.state n).enqueued <+: (r.state m).enqueued :=
      r.always_of_step (r.from_ok n) (I := fun s => (r.state n).enqueued <+: s.enqueued)
        (fun s a _ hI _ _ => hI.trans (enqueued_next s a)) List.prefix_rfl hm
    have hpushed : (r.state m).pushed <+: (r.state m).enqueued := by
      rw [hs.places, List.append_assoc]
      exact List.prefix_append _ _
    exact Or.inl (List.prefix_of_prefix_length_le hbefore hpushed hcount)
  · exact Or.inr ⟨hexited, hs.exited hexited⟩

/-- One event is pushed, and the event thread waits for the next one. -/
def oneEvent : List (LoopAct ℕ) :=
  [.setRunning, .enqueue 7, .start, .dequeue, .push, .dequeue, .checkShutdown, .wake, .read,
    .dequeue, .checkShutdown]

theorem valid_oneEvent : (loggedLoop ℕ 65536).Valid (HasRoom 65536) initial oneEvent := by
  simp [oneEvent, System.Valid, loggedLoop, HasRoom, next, initial, Loop.Enabled, Loop.next,
    Loop.zkrbDequeue, Loop.zkrbEnqueue, Loop.writeByte, Loop.initial, Loop.bufSize]

/-- At the end of it the event thread waits for the pipe, which is empty. -/
theorem exec_oneEvent : ((loggedLoop ℕ 65536).exec initial oneEvent).loop.pc = .parked ∧
    ((loggedLoop ℕ 65536).exec initial oneEvent).loop.pipe = 0 :=
  ⟨rfl, rfl⟩

theorem pushed_of_weaklyFair_oneEvent :
    let r := System.Run.ofList rfl valid_oneEvent
    ∃ m, 2 ≤ m ∧ ((r.state 2).enqueued <+: (r.state m).pushed ∨
      ((r.state m).loop.pc = .exited ∧ (r.state m).loop.shuttingDown = true)) :=
  pushed_of_weaklyFair _ (System.Run.weaklyFair_ofList rfl valid_oneEvent (by
    obtain ⟨hpc, hpipe⟩ := exec_oneEvent
    rintro (_ | _ | _ | _ | _ | _ | _ | _ | _ | _ | _) hen ha <;>
      simp_all [loggedLoop, Loop.Enabled, EventThread])) rfl

end LoopLog

end ZookeeperClient
