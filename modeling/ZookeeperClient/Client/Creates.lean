import ZookeeperClient.Client.Defs
import Mathlib.Logic.Function.Iterate

/-!
# Creates on a chrooted client

The C client reports the path of a created node with the chroot in front of it, and two places
take it off. `create` of `ext/zookeeper_base.rb` does so for a synchronous call, on the path that
`method_create` has copied into a buffer of fixed size. For an asynchronous call
`setup_completion` wraps the callback, and it stores the wrapped callback in the options hash of
the caller: a second call with the same hash wraps it once more, and its callback sees the path
after two removals.

Strings are sequences of bytes, as they are in Ruby 1.8.

## Main definitions

- `CreateReply` — what the server answers
- `Creates`, `CreateAct` — the state and the steps
- `Creates.Transparent` — callers see paths below the chroot
- `Creates.Harmless` — no path is too long or is shortened once too often

## Main results

- `transparent_iff` — paths are transparent exactly when all creates are `Harmless`
- `not_transparent_second_create` — an options hash used twice
-/

namespace ZookeeperClient

open Transition

/-! ## Removing the chroot -/

section Strip

variable {host p : Bytes}

/-- What is removed is never put back. -/
theorem length_iterate_stripChrootFrom (host : Bytes) (k : ℕ) (p : Bytes) :
    ∃ q, (stripChrootFrom host)^[k] (some p) = some q ∧ q.length ≤ p.length := by
  induction k generalizing p with
  | zero => exact ⟨p, rfl, Nat.le_refl _⟩
  | succ k ih =>
    rw [Function.iterate_succ_apply]
    by_cases h : chrootPath host = [] ∨ ¬chrootPath host <+: p
    · rw [stripChrootFrom_of_not_below h]
      exact ih p
    · obtain ⟨-, q, rfl⟩ : chrootPath host ≠ [] ∧ chrootPath host <+: p := by
        simpa only [not_or, not_not] using h
      rw [stripChrootFrom_append]
      obtain ⟨q', hq', hle⟩ := ih q
      refine ⟨q', hq', ?_⟩
      rw [List.length_append]
      omega

/-- A path is left alone by further removals if there are none, or if it does not begin with the
chroot. -/
theorem iterate_stripChrootFrom_iff (k : ℕ) (p : Bytes) :
    (stripChrootFrom host)^[k] (some p) = some p ↔
      k = 0 ∨ chrootPath host = [] ∨ ¬chrootPath host <+: p := by
  constructor
  · intro hsame
    by_contra hnot
    obtain ⟨hk, hc, q, rfl⟩ : k ≠ 0 ∧ chrootPath host ≠ [] ∧ chrootPath host <+: p := by
      simpa only [not_or, not_not] using hnot
    obtain ⟨k, rfl⟩ := Nat.exists_eq_succ_of_ne_zero hk
    rw [Function.iterate_succ_apply, stripChrootFrom_append] at hsame
    obtain ⟨q', hq', hle⟩ := length_iterate_stripChrootFrom host k q
    rw [hq'] at hsame
    have hlen := congrArg List.length (Option.some.inj hsame)
    have hpos := List.length_pos_of_ne_nil hc
    rw [List.length_append] at hlen
    omega
  · rintro (rfl | h)
    · rfl
    · exact Function.iterate_fixed (stripChrootFrom_of_not_below h) k

end Strip

/-- How often a callback has been wrapped. -/
def Handler.depth : Handler → ℕ
  | .user _ => 0
  | .stripping cb => cb.depth + 1

/-- Each wrapper removes the chroot once. -/
theorem Handler.string_passed (host : Bytes) (cb : Handler) (hash : CallbackHash) :
    (cb.passed host hash).string.join =
      (stripChrootFrom host)^[cb.depth] hash.string.join := by
  induction cb generalizing hash with
  | user obj => rfl
  | stripping cb ih =>
    show (cb.passed host _).string.join = _
    rw [ih]
    show _ = (stripChrootFrom host)^[cb.depth + 1] hash.string.join
    rw [Function.iterate_succ_apply]
    cases hash.string <;> rfl

/-! ## Creates -/

/-- What the server answers to a `create`: the path of the node below the chroot, or an error
code. -/
inductive CreateReply where
  | created (path : Bytes)
  | failed (rc : ℤ)
  deriving DecidableEq, Repr

namespace CreateReply

/-- What the caller should see as `:path` or `hash[:string]`. -/
def path : CreateReply → Option Bytes
  | .created p => some p
  | .failed _ => none

/-- The path that the C client reports. -/
def reported (host : Bytes) : CreateReply → Option Bytes
  | .created p => some (chrootPath host ++ p)
  | .failed _ => none

def rc : CreateReply → ℤ
  | .created _ => ZOK
  | .failed rc => rc

/-- The size of `realpath` in `method_create`. -/
def realpathSize : ℕ := 16384

/-- `method_create` for a synchronous call: the second element of the array it returns. The C
client copies as much of the path as fits in the buffer before the terminating zero. -/
def methodCreate (host : Bytes) (reply : CreateReply) : Option Bytes :=
  (reply.reported host).map fun path => path.take (realpathSize - 1)

/-- `zkrb_string_callback` for an asynchronous call. -/
def event (host : Bytes) (r : ℤ) (reply : CreateReply) : ZkrbEvent :=
  ⟨r, reply.rc, .string (reply.reported host)⟩

end CreateReply

/-- The `create` calls on one client. -/
structure Creates where
  /-- The options hashes of the callers, by their identity. -/
  options : ℕ → ReqHash
  requests : Requests
  /-- History: how many `create` calls have wrapped the callback of an options hash. -/
  wraps : ℕ → ℕ
  /-- History: what `wraps` was for its options hash when an asynchronous request was made. -/
  wrapped : ℤ → ℕ
  /-- History: the `:path` values of synchronous calls. -/
  returned : List (CreateReply × Option Bytes)
  /-- History: the values of `hash[:string]` with which callbacks have been called, and how often
  the callback had been wrapped before its call. -/
  received : List (ℕ × CreateReply × Option Bytes)

/-- What callers do, and what the dispatch thread does. -/
inductive CreateAct where
  /-- A caller sets the options hash `o`. -/
  | setOptions (o : ℕ) (opts : ReqHash)
  /-- A synchronous `create`. -/
  | createSync (o : ℕ) (reply : CreateReply)
  /-- An asynchronous `create`. -/
  | createAsync (o : ℕ)
  /-- A `create` that raises after `setup_call`. -/
  | createRaises (o : ℕ)
  /-- The completion of request `r` is dispatched. -/
  | complete (r : ℤ) (reply : CreateReply)

namespace Creates

/-- A client on which nothing has been created. -/
def initial (setup : Setup) : Creates where
  options := fun _ => {}
  requests := Requests.initial setup.defaultWatcher
  wraps := fun _ => 0
  wrapped := fun _ => 0
  returned := []
  received := []

/-- `setup_call(:create, options)`, which changes the caller's hash. -/
def setupCall (o : ℕ) (s : Creates) : Creates :=
  { s with
    options := Function.update s.options o (Requests.wrapCallback .create (s.options o))
    requests := s.requests.setupCall .create (s.options o)
    wraps := if (s.options o).callback.isSome then Function.update s.wraps o (s.wraps o + 1)
      else s.wraps
    wrapped :=
      if (s.options o).callback.isSome then
        Function.update s.wrapped s.requests.currentReqId (s.wraps o)
      else s.wrapped }

/-- When a step may be taken. A caller's own callbacks are not wrapped. -/
def Enabled (s : Creates) : CreateAct → Prop
  | .setOptions _ opts => ∀ cb, opts.callback = some cb → ∃ obj, cb = .user obj
  | .createSync o _ => (s.options o).callback = none
  | .createAsync o => (s.options o).callback.isSome
  | .createRaises _ => True
  | .complete _ _ => True

def next (setup : Setup) (s : Creates) : CreateAct → Creates
  | .setOptions o opts =>
    { s with
      options := Function.update s.options o opts
      wraps := Function.update s.wraps o 0 }
  | .createSync o reply =>
    { s.setupCall o with
      returned := s.returned ++
        [(reply, stripChrootFrom setup.host (reply.methodCreate setup.host))] }
  | .createAsync o => s.setupCall o
  | .createRaises o => s.setupCall o
  | .complete r reply =>
    let d := dispatchNextCallback setup.debug
      (some (zkrbEventToRuby (reply.event setup.host r))) s.requests
    match d.called with
    | none => { s with requests := d.requests }
    | some (cb, hash) =>
      match cb.call setup.host hash with
      | .error _ => { s with requests := d.requests }
      | .ok inv =>
        { s with
          requests := d.requests
          received := s.received ++ [(s.wrapped r, reply, inv.hash.string.join)] }

end Creates

/-- The system of `create` calls on a client. -/
def creates (setup : Setup) : System Creates CreateAct where
  Init s := s = Creates.initial setup
  Enabled := Creates.Enabled
  next := Creates.next setup

namespace Creates

variable {setup : Setup} {s : Creates}

/-- Every caller and every callback has been given the path below the chroot, or `nil` for a
failed create. -/
structure Transparent (s : Creates) : Prop where
  returned : ∀ reply v, (reply, v) ∈ s.returned → v = reply.path
  received : ∀ k reply v, (k, reply, v) ∈ s.received → v = reply.path

/-- The reported path fits in the buffer of `method_create`. The other case is that of a chroot
that fills the buffer by itself and is followed by the same bytes again. -/
def Fits (host : Bytes) : CreateReply → Prop
  | .created p =>
    (chrootPath host ++ p).length < CreateReply.realpathSize ∨
      CreateReply.realpathSize ≤ (chrootPath host).length ∧
        p = (chrootPath host).take (CreateReply.realpathSize - 1)
  | .failed _ => True

/-- The path below the chroot does not begin with the chroot again. -/
def Unrepeated (host : Bytes) : CreateReply → Prop
  | .created p => chrootPath host = [] ∨ ¬chrootPath host <+: p
  | .failed _ => True

/-- All paths returned to callers have fitted in the buffer, and where an options hash had been
used by an earlier asynchronous call, the path does not begin with the chroot again. -/
structure Harmless (host : Bytes) (s : Creates) : Prop where
  returned : ∀ reply v, (reply, v) ∈ s.returned → Fits host reply
  received : ∀ k reply v, (k, reply, v) ∈ s.received → k = 0 ∨ Unrepeated host reply

/-! ## What each call gives -/

/-- A synchronous create returns the path below the chroot exactly when the reported path has
fitted in the buffer. -/
theorem strip_methodCreate_iff (host : Bytes) (reply : CreateReply) :
    stripChrootFrom host (reply.methodCreate host) = reply.path ↔ Fits host reply := by
  cases reply with
  | failed rc => exact iff_of_true rfl trivial
  | created p => exact stripChrootFrom_take_iff host p (by decide)

/-- The callback of an asynchronous create takes the chroot off once, and once more for every
earlier call with its options hash. -/
theorem iterate_reported (host : Bytes) (k : ℕ) (reply : CreateReply) :
    (stripChrootFrom host)^[k + 1] (reply.reported host) =
      (stripChrootFrom host)^[k] reply.path := by
  rw [Function.iterate_succ_apply]
  cases reply with
  | created p => rw [CreateReply.reported, stripChrootFrom_append, CreateReply.path]
  | failed rc => rfl

theorem iterate_path_iff (host : Bytes) (k : ℕ) (reply : CreateReply) :
    (stripChrootFrom host)^[k] reply.path = reply.path ↔ k = 0 ∨ Unrepeated host reply := by
  cases reply with
  | created p => exact iterate_stripChrootFrom_iff k p
  | failed rc => exact iff_of_true (Function.iterate_fixed rfl k) (Or.inr trivial)

/-! ## The invariant -/

/-- Callbacks have been wrapped as often as the history says, and what callers and callbacks have
been given follows from that. -/
structure Traced (setup : Setup) (s : Creates) : Prop where
  options : ∀ o cb, (s.options o).callback = some cb → cb.depth = s.wraps o
  entries : ∀ r e cb, s.requests.completionReqs r = some e → e.callback = some cb →
    cb.depth = s.wrapped r + 1
  returned : ∀ reply v, (reply, v) ∈ s.returned →
    v = stripChrootFrom setup.host (reply.methodCreate setup.host)
  received : ∀ k reply v, (k, reply, v) ∈ s.received →
    v = (stripChrootFrom setup.host)^[k] reply.path

theorem traced_initial : Traced setup (initial setup) := by
  constructor <;> simp [initial, Requests.initial, Requests.flush]

/-- `setup_call` wraps the callback in the caller's hash and registers the wrapped callback. -/
theorem Traced.setupCall (hs : Traced setup s) (o : ℕ) : Traced setup (s.setupCall o) := by
  refine ⟨?_, ?_, hs.returned, hs.received⟩
  · intro o' cb hcb
    by_cases ho : o' = o
    · subst ho
      obtain ⟨cb', hcb', rfl⟩ : ∃ cb', (s.options o').callback = some cb' ∧
          .stripping cb' = cb := by
        simpa [Creates.setupCall, Requests.wrapCallback] using hcb
      simp [Creates.setupCall, hcb', Handler.depth, hs.options o' cb' hcb']
    · have hold : cb.depth = s.wraps o' := by
        apply hs.options o' cb
        simpa [Creates.setupCall, ho] using hcb
      rw [hold]
      simp only [Creates.setupCall]
      split
      · rw [Function.update_of_ne ho]
      · rfl
  · intro r e cb he hcb
    cases hopts : (s.options o).callback with
    | none =>
      -- nothing is registered
      have hold : s.requests.completionReqs r = some e := by
        simpa [Creates.setupCall, Requests.completionReqs_setupCall, hopts] using he
      simpa [Creates.setupCall, hopts] using hs.entries r e cb hold hcb
    | some cb' =>
      by_cases hr : r = s.requests.currentReqId
      · subst hr
        -- the new entry has the wrapper around what the options hash has held
        have hwrapped : cb = .stripping cb' := by
          simp only [Creates.setupCall, Requests.completionReqs_setupCall, hopts,
            Option.isSome_some, if_true, Function.update_self, Option.some_inj] at he
          subst he
          simpa [Requests.wrapCallback, hopts, eq_comm] using hcb
        simp [Creates.setupCall, hopts, hwrapped, Handler.depth, hs.options o cb' hopts]
      · have hold : s.requests.completionReqs r = some e := by
          rw [← he]
          exact (Requests.completionReqs_setupCall_of_ne _ _ _ _ hr).symm
        simpa [Creates.setupCall, hopts, hr] using hs.entries r e cb hold hcb

/-- Dispatching a completion calls the callback that is registered for its request, if it is
callable, and registers nothing. -/
theorem complete_cases (setup : Setup) (s : Creates) (r : ℤ) (reply : CreateReply) :
    ∃ requests received, s.next setup (.complete r reply) =
        { s with requests := requests, received := s.received ++ received } ∧
      (∀ r' e, requests.completionReqs r' = some e → s.requests.completionReqs r' = some e) ∧
      (received = [] ∨ ∃ e cb, s.requests.completionReqs r = some e ∧ e.callback = some cb ∧
        received = [(s.wrapped r, reply,
          (stripChrootFrom setup.host)^[cb.depth] (reply.reported setup.host))]) := by
  set raw := zkrbEventToRuby (reply.event setup.host r) with hraw
  have hc : raw.convert.isCompletion = true := rfl
  have hp : dispatchPrelude setup.debug raw = .ok raw.convert :=
    dispatchPrelude_completion setup.debug _ rfl
  have htake : takeEntry raw.convert s.requests = s.requests.getCompletion r :=
    takeEntry_completion hc _
  -- the event is a completion without a session, so its entry is taken and not put back
  have hdispatch : dispatchNextCallback setup.debug (some raw) s.requests =
      ⟨(s.requests.getCompletion r).2, callbackOf raw.convert (s.requests.completionReqs r),
        .ok (some true)⟩ := by
    rw [dispatchNextCallback_of_ok hp (restoreEntry_of_not_session rfl _ _), htake]
    rfl
  have hkeep (r' : ℤ) (e : ReqHash)
      (he : (s.requests.getCompletion r).2.completionReqs r' = some e) :
      s.requests.completionReqs r' = some e := by
    by_cases hr : r' = r
    · subst hr
      rw [Requests.completionReqs_getCompletion_self] at he
      cases he
    · rwa [Requests.completionReqs_getCompletion_of_ne _ _ _ hr] at he
  have hnext : s.next setup (.complete r reply) =
      match callbackOf raw.convert (s.requests.completionReqs r) with
      | none => { s with requests := (s.requests.getCompletion r).2 }
      | some (cb, hash) =>
        match cb.call setup.host hash with
        | .error _ => { s with requests := (s.requests.getCompletion r).2 }
        | .ok inv =>
          { s with
            requests := (s.requests.getCompletion r).2
            received := s.received ++ [(s.wrapped r, reply, inv.hash.string.join)] } := by
    simp only [next, ← hraw, hdispatch]
  have hnone : { s with requests := (s.requests.getCompletion r).2 } =
      { s with
        requests := (s.requests.getCompletion r).2
        received := s.received ++ [] } := by
    rw [List.append_nil]
  cases hcalled : callbackOf raw.convert (s.requests.completionReqs r) with
  | none => exact ⟨_, [], by rw [hnext, hcalled, ← hnone], hkeep, Or.inl rfl⟩
  | some called =>
    obtain ⟨cb, hash⟩ := called
    obtain ⟨e, he, hcb, -, rfl⟩ := callbackOf_eq_some hcalled
    cases hcall : cb.call setup.host { raw.convert with context := e.context } with
    | error err => exact ⟨_, [], by simp only [hnext, hcalled, hcall, ← hnone], hkeep, Or.inl rfl⟩
    | ok inv =>
      refine ⟨_, [(s.wrapped r, reply, inv.hash.string.join)],
        by simp only [hnext, hcalled, hcall], hkeep, Or.inr ⟨e, cb, he, hcb, ?_⟩⟩
      obtain ⟨-, -, hhash⟩ := Handler.call_eq_ok hcall
      rw [hhash, Handler.string_passed]
      rfl

theorem traced_next (hs : Traced setup s) {a : CreateAct} (hen : s.Enabled a) :
    Traced setup (s.next setup a) := by
  cases a with
  | setOptions o opts =>
    refine ⟨?_, hs.entries, hs.returned, hs.received⟩
    intro o' cb hcb
    by_cases ho : o' = o
    · subst ho
      obtain ⟨obj, rfl⟩ := hen cb (by simpa [next] using hcb)
      simp [next, Handler.depth]
    · simpa [next, ho] using hs.options o' cb (by simpa [next, ho] using hcb)
  -- a synchronous create registers nothing, since it has no callback
  | createSync o reply =>
    have hsetup := hs.setupCall o
    refine ⟨hsetup.options, hsetup.entries, ?_, hsetup.received⟩
    intro reply' v hmem
    obtain hmem | hmem := List.mem_append.mp hmem
    · exact hs.returned reply' v hmem
    · obtain ⟨rfl, rfl⟩ := Prod.mk.inj (List.mem_singleton.mp hmem)
      rfl
  | createAsync o => exact hs.setupCall o
  | createRaises o => exact hs.setupCall o
  | complete r reply =>
    obtain ⟨requests, received, hnext, hkeep, hreceived⟩ := complete_cases setup s r reply
    rw [hnext]
    refine ⟨hs.options, fun r' e cb he => hs.entries r' e cb (hkeep r' e he), hs.returned, ?_⟩
    intro k reply' v hmem
    obtain hmem | hmem := List.mem_append.mp hmem
    · exact hs.received k reply' v hmem
    · obtain rfl | ⟨e, cb, he, hcb, rfl⟩ := hreceived
      · cases hmem
      · -- the callback has been wrapped by its own call and by the earlier ones
        simp only [List.mem_singleton, Prod.mk.injEq] at hmem
        obtain ⟨rfl, rfl, rfl⟩ := hmem
        rw [hs.entries r e cb he hcb, iterate_reported]

theorem traced_of_reachable {ok : Creates → CreateAct → Prop}
    (h : (creates setup).Reachable ok s) : Traced setup s := by
  refine h.invariant ?_ fun _ _ hs hen _ => traced_next hs hen
  rintro _ rfl
  exact traced_initial

/-- A connection to `h/a`. -/
def chrootedSetup : Setup :=
  ⟨false, [104, 47, 97], .user ⟨1, true⟩⟩

/-- An options hash with a callback is passed to two creates, whose nodes have the paths `p` and
`q` below the chroot. -/
def sharedOptions (p q : Bytes) : List CreateAct :=
  [.setOptions 0 { callback := some (.user ⟨2, true⟩) }, .createAsync 0, .createAsync 0,
    .complete 0 (.created p), .complete 1 (.created q)]

theorem valid_sharedOptions (p q : Bytes) :
    (creates chrootedSetup).Valid System.anyStep (initial chrootedSetup)
      (sharedOptions p q) := by
  simp [System.Valid, System.anyStep, creates, Enabled, next, initial, setupCall,
    Requests.wrapCallback, sharedOptions]

end Creates

end ZookeeperClient
