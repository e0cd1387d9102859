import ZookeeperClient.Handle.EventThread
import ZookeeperClient.Client.Flush

/-!
# A reopen that raises

`reopen` flushes `@watcher_reqs` before it calls `CZookeeper.new`, and `CZookeeper.new` starts
the event thread before it calls `zkrb_init`. When `zkrb_init` raises, nothing undoes either:
the watchers of the handle that stays in use are gone, and the event thread of the handle that
has failed waits for `@_running` for ever.

## Main definitions

- `CZookeeper.LeftWaiting` — the event thread will never end
- `Client.Restored` — what a failed `reopen` leaves as it was

## Main results

- `watcher_kept_iff` — when a watcher survives
- `leftWaiting_of_raised` — the event thread is always left behind
- `not_restored_of_raised` — so no failed `reopen` leaves everything as it was
-/

namespace ZookeeperClient

open Transition

namespace CZookeeper

variable {ε : Type} {cap : ℕ} {s s' : CZookeeper ε}

/-- The event thread has not ended, and in no later state is `@_running` set, which it waits
for. -/
def LeftWaiting (cap : ℕ) (s : CZookeeper ε) : Prop :=
  ∀ s', (cZookeeper ε cap).Reaches System.anyStep s s' →
    s'.running = false ∧ ¬s'.ThreadEnded

theorem init_next_of_raised (hinit : s.init = .raised) {a : CZookeeperAct ε}
    (hen : s.Enabled cap a) : (s.next cap a).init = .raised := by
  cases a with
  | init act =>
    cases act with
    | queueAlloc =>
      have hpc := hen.1
      simp [hinit] at hpc
    | initRaises => rfl
    | zookeeperInit | setData | setRunningAndNotify =>
      have hpc : s.init = _ := hen
      simp [hinit] at hpc
  | thread act =>
    cases act with
    | dequeue =>
      simp only [next, CZookeeper.threadNext]
      split <;> exact hinit
    | waitUntil | enter | fetchDataPtr | checkClosed | checkShutdown | wake | read | readFails
      | push | pushRaises => exact hinit
  | call | finishWrite | lockElsewhere | unlockElsewhere => exact hinit
  | close act => exact (frame_closeNext cap s act).1.trans hinit
  | enqueue event =>
    simp only [next, zkrbEnqueue, writeByte]
    split <;> exact hinit

/-- **The event thread of a handle that could not be created waits for ever.** -/
theorem leftWaiting_of_raised (h : (cZookeeper ε cap).Reachable System.anyStep s)
    (hinit : s.init = .raised) : s.LeftWaiting cap := by
  intro s' h'
  have hinit' : s'.init = .raised :=
    h'.invariant (I := fun s' => s'.init = .raised)
      (fun _ _ hi hen _ => init_next_of_raised hi hen) hinit
  obtain ⟨hcon, -⟩ := ordered_of_reachable (h.trans h')
  have hoff : s'.running = false := by
    by_contra hon
    have hreturned := hcon.running.mp (by simpa using hon)
    simp [hinit'] at hreturned
  refine ⟨hoff, ?_⟩
  rintro ⟨error, hended⟩
  obtain hpc | hpc := hcon.waits hoff <;> simp [hended] at hpc

end CZookeeper

namespace Client

variable {setup : Setup} {s : Client} {cap : ℕ} {failed : CZookeeper ZkrbEvent}

/-- What a `reopen` that raises leaves as it was: `@czk`, the entries of all watches of its
handle, `@completion_reqs`, and the threads, of which none of the handle that has failed is
left waiting. -/
structure Restored (cap : ℕ) (s s' : Client) (failed : CZookeeper ZkrbEvent) : Prop where
  czk : s'.czk = s.czk
  watchers : ∀ r, s.watches s.czk r = true →
    s'.requests.watcherReqs r = s.requests.watcherReqs r
  completions : s'.requests.completionReqs = s.requests.completionReqs
  threads : ¬failed.LeftWaiting cap

/-- The entry of a watch survives only if it is gone already. -/
theorem watcher_kept_iff {r : ℤ} (hr : r ≠ ZKRB_GLOBAL_CB_REQ) :
    (s.next setup .reopenRaises).requests.watcherReqs r = s.requests.watcherReqs r ↔
      s.requests.watcherReqs r = none := by
  have hflushed : (s.next setup .reopenRaises).requests.watcherReqs r = none := by
    simp [next, Requests.flush, Function.update_of_ne hr]
  rw [hflushed]
  exact eq_comm

/-- **No failed `reopen` leaves everything as it was.** Whatever the state of the client, and
wherever `zkrb_init` has raised, the event thread of the new handle is left waiting. -/
theorem not_restored_of_raised (s : Client)
    (hfailed : (cZookeeper ZkrbEvent cap).Reachable System.anyStep failed)
    (hraised : failed.init = .raised) :
    ¬Restored cap s (s.next setup .reopenRaises) failed := by
  intro hrestored
  exact hrestored.threads (CZookeeper.leftWaiting_of_raised hfailed hraised)

/-- `zookeeper_init` returns `NULL`. -/
def failedInit : List (CZookeeperAct ZkrbEvent) :=
  [.init .queueAlloc, .thread .waitUntil, .init .initRaises]

theorem valid_failedInit :
    (cZookeeper ZkrbEvent 65536).Valid System.anyStep CZookeeper.initial failedInit := by
  simp [System.Valid, System.anyStep, cZookeeper, CZookeeper.Enabled, CZookeeper.InitEnabled,
    CZookeeper.ThreadEnabled, CZookeeper.next, CZookeeper.initNext, CZookeeper.threadNext,
    CZookeeper.initial, failedInit]

/-- The first `reopen` of a client fails. -/
theorem not_restored_initially :
    ¬Restored 65536 (initial plainSetup) ((initial plainSetup).next plainSetup .reopenRaises)
      ((cZookeeper ZkrbEvent 65536).exec .initial failedInit) :=
  not_restored_of_raised _ (valid_failedInit.reachable_exec rfl) rfl

/-- A watch that has been accepted by the handle loses its watcher. -/
theorem not_restored_watched :
    ¬∀ (setup : Setup) (s : Client) (failed : CZookeeper ZkrbEvent),
      (client setup).Reachable System.anyStep s → Enabled setup s .reopenRaises →
      (s.transports s.czk).closed = false →
      (cZookeeper ZkrbEvent 65536).Reachable System.anyStep failed → failed.init = .raised →
      Restored 65536 s (s.next setup .reopenRaises) failed := by
  intro hall
  have hvalid : (client plainSetup).Valid System.anyStep (initial plainSetup)
      [.setupCall 0 .getChildren watchedChildren, .locate 0, .submit 0 true] := by
    simp [System.Valid, System.anyStep, client, Enabled, next, initial, callTo,
      Transport.initial]
  have hrestored := hall plainSetup _ _ (hvalid.reachable_exec rfl) rfl rfl
    (valid_failedInit.reachable_exec rfl) rfl
  have hkept := hrestored.watchers 0 rfl
  cases hkept

end Client

end ZookeeperClient
