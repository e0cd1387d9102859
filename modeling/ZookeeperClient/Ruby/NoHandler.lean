import ZookeeperClient.Java.Callbacks
import ZookeeperClient.Ruby.Dispatch

/-!
# Events without a handler

An event may find no entry under its id: `reopen` has flushed the table, or the event is a
duplicate. `dispatch_next_callback` has a branch for that, which logs a warning. Before it gets
there it re-registers the entry of a session event, and there is none; and with the debug log
on it prints the names of the event's type and state before anything else.

## Main definitions

- `HasHandler` — the table to which an event is routed has an entry for it
- `Harmless` — the dispatch returns `true`, calls nothing and leaves the tables alone

## Main results

- `harmless_iff` — an event without a handler is harmless unless it is a session event, or an
  event that the debug log cannot name
- `not_harmless_session` — a session event whose entry is gone
-/

namespace ZookeeperClient

variable {debug : Bool} {raw : RawHash} {t : Requests}

/-- The table to which `dispatch_next_callback` routes the event has an entry for its id. -/
def HasHandler (raw : RawHash) (t : Requests) : Prop :=
  (if raw.isCompletion then t.completionReqs raw.reqId else t.watcherReqs raw.reqId) ≠ none

/-- `dispatch_next_callback` returns `true` without calling a callback, and the tables are as
they were. -/
def Harmless (debug : Bool) (raw : RawHash) (t : Requests) : Prop :=
  dispatchNextCallback debug (some raw) t = ⟨t, none, .ok (some true)⟩

namespace Requests

theorem getCompletion_of_none {r : ℤ} (h : t.completionReqs r = none) :
    t.getCompletion r = (none, t) := by
  have hsame : Function.update t.completionReqs r none = t.completionReqs := by
    rw [← h]
    exact Function.update_eq_self r _
  simp only [getCompletion, hsame, h]

theorem getWatcher_of_none {r : ℤ} (h : t.watcherReqs r = none) :
    t.getWatcher r = (none, t) := by
  have hsame : Function.update t.watcherReqs r none = t.watcherReqs := by
    rw [← h]
    exact Function.update_eq_self r _
  simp only [getWatcher, hsame, h, ite_self]

end Requests

/-- The lookup of an event without a handler finds nothing and removes nothing. -/
theorem takeEntry_of_not_hasHandler (h : ¬HasHandler raw t) :
    takeEntry raw.convert t = (none, t) := by
  have hnone := not_not.mp h
  by_cases hc : raw.isCompletion = true
  · rw [if_pos hc] at hnone
    rw [takeEntry_completion hc]
    exact Requests.getCompletion_of_none hnone
  · rw [if_neg hc] at hnone
    rw [takeEntry_watch (by simpa using hc)]
    exact Requests.getWatcher_of_none hnone

/-- A session event whose entry is gone raises: the branch that puts the entry back asks `nil`
for its watcher. -/
theorem dispatch_session_of_not_hasHandler (hraw : Produced raw) (h : ¬HasHandler raw t)
    (hs : raw.isSession = true) (hp : dispatchPrelude debug raw = .ok raw.convert) :
    dispatchNextCallback debug (some raw) t = ⟨t, none, .error .noMethodError⟩ := by
  have hc : raw.isCompletion = false := by
    by_contra hc
    have hns := hraw.isSession_eq_false (by simpa using hc)
    rw [hs] at hns
    cases hns
  have htake := takeEntry_of_not_hasHandler h
  have hrestore : restoreEntry raw.convert (takeEntry raw.convert t).1
      (takeEntry raw.convert t).2 = .error .noMethodError := by
    rw [htake]
    simp [restoreEntry, hs, hc]
  rw [dispatchNextCallback_of_restore_error hp hrestore, htake]

/-- The warning is all that comes of an event without a handler. -/
theorem dispatch_of_not_hasHandler (h : ¬HasHandler raw t) (hs : raw.isSession = false)
    (hp : dispatchPrelude debug raw = .ok raw.convert) : Harmless debug raw t := by
  have htake := takeEntry_of_not_hasHandler h
  have hrestore : restoreEntry raw.convert (takeEntry raw.convert t).1
      (takeEntry raw.convert t).2 = .ok t := by
    rw [htake]
    exact restoreEntry_of_not_session hs none t
  show dispatchNextCallback debug (some raw) t = _
  rw [dispatchNextCallback_of_ok hp hrestore, htake]
  rfl

/-- **When an event without a handler is harmless.** For every state of the tables and every
event of either backend that finds no entry: the dispatch returns `true`, calls nothing and
leaves the tables as they were, if and only if the event is no session event and, with the debug
log on, its type and state have names. -/
theorem harmless_iff (hraw : Produced raw) (h : ¬HasHandler raw t) :
    Harmless debug raw t ↔ raw.isSession = false ∧ (debug = true → raw.Named) := by
  constructor
  · intro hharmless
    have hresult : (dispatchNextCallback debug (some raw) t).result = .ok (some true) := by
      rw [hharmless]
    -- an event that cannot be printed raises before the tables are looked at
    have hnamed : debug = true → raw.Named := by
      rintro rfl
      by_contra hnot
      obtain ⟨e, he⟩ := dispatchPrelude_of_not_named hnot
      rw [dispatchNextCallback_of_prelude_error he] at hresult
      cases hresult
    refine ⟨?_, hnamed⟩
    by_contra hs
    -- a session event asks the missing entry for its watcher
    rw [dispatch_session_of_not_hasHandler hraw h (by simpa using hs)
      (dispatchPrelude_of_named hnamed)] at hresult
    cases hresult
  · intro ⟨hs, hnamed⟩
    exact dispatch_of_not_hasHandler h hs (dispatchPrelude_of_named hnamed)

/-- A change of node `/` whose watcher has been flushed. -/
theorem harmless_flushed :
    Harmless true (zkrbEventToRuby ⟨5, ZOK, .watcher 3 3 (some [47])⟩)
      ⟨6, fun _ => none, fun _ => none⟩ :=
  (harmless_iff (Or.inl ⟨_, rfl⟩) (by simp [HasHandler])).mpr
    ⟨by decide, fun _ => by decide⟩

/-- A session event for a watcher that `reopen` has flushed makes the dispatch raise. -/
theorem not_harmless_session :
    ¬∀ debug raw t, Produced raw → ¬HasHandler raw t → Harmless debug raw t := by
  intro hall
  have hharmless := hall false (zkrbEventToRuby ⟨5, ZOK, .watcher (-1) 3 (some [])⟩)
    ⟨6, fun _ => none, fun _ => none⟩ (Or.inl ⟨_, rfl⟩) (by simp [HasHandler])
  have hresult := congrArg Dispatched.result hharmless
  cases hresult

end ZookeeperClient
