import Mathlib.Data.Set.Insert
import Mathlib.Data.List.Count
import ZookeeperClient.Transition.Basic

/-!
# Locks in an order

Threads as far as they take locks and wait. A lock may be taken by its owner once more if it is
re-entrant. The life of a thread is a lock that the thread has from the start to its end, so that
to join a thread is to wait for this lock. A flag stands for something that happens once. An
exception gives the locks back up to where it is rescued, or ends the thread.

A program obeys the order if it takes only locks below those that it has, and waits for a flag only
while all that it has are locks for which one may only wait when the flag has been set. Whether a
program does so is decided by its text; that no thread waits in vain then holds in every run.

## Main definitions

- `Code` — a program
- `Code.Obeys` — it takes its locks in the order
- `locking` — the runs of any number of threads
- `WaitsFor` — a thread waits for a lock that another thread has

## Main results

- `lawful_of_reachable` — threads whose programs obey the order go on doing so
- `waits_for_runnable` — whoever waits for a lock waits, in the end, for a thread that can go on
-/

namespace Transition

namespace Locking

/-! ## Programs and threads -/

/-- A program. -/
inductive Code (L F : Type*) where
  | skip
  | seq (c d : Code L F)
  /-- One of these, which is left open. -/
  | branch (c : ℕ → Code L F)
  /-- Any number of times. -/
  | many (c : Code L F)
  /-- With a lock, which is given back afterwards. -/
  | sync (l : L) (c : Code L F)
  /-- A lock is given back and taken again, at some time or when a flag has been set. -/
  | wait (l : L) (f : Option F)
  /-- Until nobody has a lock. -/
  | join (l : L)
  /-- Until a flag has been set. -/
  | park (f : F)
  | set (f : F)
  | ifSet (f : F) (c : Code L F)
  | raise
  /-- An exception ends this, but not what follows. -/
  | rescue (c : Code L F)

/-- What a thread still has to do. -/
inductive Item (L F : Type*) where
  | run (c : Code L F)
  | exit (l : L)
  | handler

/-- What is left after an exception. -/
def unwind {L F : Type*} : List (Item L F) → List (Item L F)
  | [] => []
  | .run _ :: items => unwind items
  | .exit l :: items => .exit l :: unwind items
  | .handler :: items => items

/-- A thread within `wait`: the lock, how often it had been taken more, and the flag. -/
structure Waiting (L F : Type*) where
  lock : L
  count : ℕ
  flag : Option F

structure Thread (L F : Type*) where
  waiting : Option (Waiting L F)
  todo : List (Item L F)

/-- Who has which lock, the flags, and the threads. A lock that has been taken `n` times more is in
`held` with `n`. -/
structure State (L F τ : Type*) where
  held : L → Option (τ × ℕ)
  flags : F → Bool
  thread : τ → Thread L F

variable {L F τ : Type*}

/-- A thread is not blocked, when it has this to do. -/
def CanRun (reentrant : L → Prop) (held : L → Option (τ × ℕ)) (flags : F → Bool) (t : τ) :
    List (Item L F) → Prop
  | [] => False
  | .run (.sync l _) :: _ => held l = none ∨ (reentrant l ∧ ∃ n, held l = some (t, n))
  | .run (.join l) :: _ => held l = none
  | .run (.park f) :: _ => flags f
  | _ => True

/-- A thread is not blocked. -/
def CanStep (reentrant : L → Prop) (s : State L F τ) (t : τ) : Prop :=
  match (s.thread t).waiting with
  | some w => s.held w.lock = none ∧ ∀ f ∈ w.flag, s.flags f
  | none => CanRun reentrant s.held s.flags t (s.thread t).todo

section Steps

variable [DecidableEq L] [DecidableEq F] [DecidableEq τ]

/-- A lock is taken, once more if the thread has it. -/
def acquire (t : τ) (l : L) (held : L → Option (τ × ℕ)) : L → Option (τ × ℕ) :=
  Function.update held l <| some <|
    match held l with
    | none => (t, 0)
    | some (_, n) => (t, n + 1)

/-- A lock is given back. -/
def release (t : τ) (l : L) (held : L → Option (τ × ℕ)) : L → Option (τ × ℕ) :=
  Function.update held l <|
    match held l with
    | some (_, n + 1) => some (t, n)
    | _ => none

namespace State

variable (s : State L F τ) (t : τ)

def goto (todo : List (Item L F)) : State L F τ :=
  { s with thread := Function.update s.thread t ⟨none, todo⟩ }

/-- A thread that is not within `wait` goes on. -/
def run (way : ℕ) : State L F τ :=
  match (s.thread t).todo with
  | [] => s
  | .exit l :: rest => { s.goto t rest with held := release t l s.held }
  | .handler :: rest => s.goto t rest
  | .run .skip :: rest | .run (.join _) :: rest | .run (.park _) :: rest => s.goto t rest
  | .run (.seq c d) :: rest => s.goto t (.run c :: .run d :: rest)
  | .run (.branch c) :: rest => s.goto t (.run (c way) :: rest)
  | .run (.many c) :: rest =>
    if way = 0 then s.goto t rest else s.goto t (.run c :: .run (.many c) :: rest)
  | .run (.sync l c) :: rest =>
    { s.goto t (.run c :: .exit l :: rest) with held := acquire t l s.held }
  | .run (.wait l f) :: rest =>
    match s.held l with
    | none => s
    | some (_, n) =>
      { s with
        thread := Function.update s.thread t ⟨some ⟨l, n, f⟩, rest⟩
        held := Function.update s.held l none }
  | .run (.set f) :: rest => { s.goto t rest with flags := Function.update s.flags f true }
  | .run (.ifSet f c) :: rest =>
    if s.flags f then s.goto t (.run c :: rest) else s.goto t rest
  | .run .raise :: rest => s.goto t (unwind rest)
  | .run (.rescue c) :: rest => s.goto t (.run c :: .handler :: rest)

/-- The next step of a thread, and the way that it goes where this is left open. -/
def step (way : ℕ) : State L F τ :=
  match (s.thread t).waiting with
  | some w =>
    { s.goto t (s.thread t).todo with
      held := Function.update s.held w.lock (some (t, w.count)) }
  | none => s.run t way

end State

/-- The threads with their programs, each with its life, if it has one. -/
def locking (reentrant : L → Prop) (code : τ → Code L F) (life : τ → Option L) :
    System (State L F τ) (τ × ℕ) where
  Init s := (∀ f, s.flags f = false) ∧
    (∀ t, s.thread t = ⟨none, .run (code t) :: (life t).toList.map .exit⟩) ∧
    ∀ t l n, s.held l = some (t, n) ↔ life t = some l ∧ n = 0
  Enabled s a := CanStep reentrant s a.1
  next s a := s.step a.1 a.2

end Steps

/-! ## The order -/

/-- The order of the locks, and the flags that have been set before one waits for a lock. -/
structure Discipline (L F : Type*) where
  rank : L → ℕ
  reentrant : L → Prop
  needs : L → Set F

namespace Code

/-- The flags that have been set after the program. -/
def after : Code L F → Set F → Set F
  | .seq c d, known => d.after (c.after known)
  | .branch c, known => {f | ∀ k, f ∈ (c k).after known}
  | .sync _ c, known => c.after known
  | .wait _ f, known => known ∪ {x | x ∈ f}
  | .park f, known | .set f, known => insert f known
  | .raise, _ => Set.univ
  | .skip, known | .many _, known | .join _, known | .ifSet _ _, known | .rescue _, known => known

/-- **The program obeys the order**, in a thread that has these locks when these flags have been
set. -/
def Obeys (D : Discipline L F) : Code L F → List L → Set F → Prop
  | .skip, _, _ | .set _, _, _ | .raise, _, _ => True
  | .seq c d, locks, known => c.Obeys D locks known ∧ d.Obeys D locks (c.after known)
  | .branch c, locks, known => ∀ k, (c k).Obeys D locks known
  | .many c, locks, known | .rescue c, locks, known => c.Obeys D locks known
  | .sync l c, locks, known =>
    ((D.reentrant l ∧ l ∈ locks) ∨ ((∀ m ∈ locks, D.rank l < D.rank m) ∧ D.needs l ⊆ known)) ∧
      c.Obeys D (l :: locks) known
  | .wait l f, locks, known =>
    l ∈ locks ∧ (∀ m ∈ locks, m ≠ l → D.rank l < D.rank m ∧ ∀ x ∈ f, x ∈ D.needs m) ∧
      D.needs l ⊆ known
  | .join l, locks, known => (∀ m ∈ locks, D.rank l < D.rank m) ∧ D.needs l ⊆ known
  | .park f, locks, _ => ∀ m ∈ locks, f ∈ D.needs m
  | .ifSet f c, locks, known => c.Obeys D locks (insert f known)

variable {D : Discipline L F} {c : Code L F} {locks : List L} {known known' : Set F}

theorem subset_after (c : Code L F) (known : Set F) : known ⊆ c.after known := by
  induction c generalizing known with
  | skip | many c _ | join l | ifSet f c _ | rescue c _ => exact subset_rfl
  | raise => exact Set.subset_univ known
  | seq c d ihc ihd => exact (ihc known).trans (ihd _)
  | branch c ih => exact fun f hf k => ih k known hf
  | sync l c ih => exact ih known
  | wait l f => exact Set.subset_union_left
  | park f | set f => exact Set.subset_insert f known

theorem after_mono (c : Code L F) (h : known ⊆ known') : c.after known ⊆ c.after known' := by
  induction c generalizing known known' with
  | skip | many c _ | join l | ifSet f c _ | rescue c _ => exact h
  | raise => exact subset_rfl
  | seq c d ihc ihd => exact ihd (ihc h)
  | branch c ih => exact fun f hf k => ih k h (hf k)
  | sync l c ih => exact ih h
  | wait l f => exact Set.union_subset_union_left _ h
  | park f | set f => exact Set.insert_subset_insert h

/-- More flags may have been set. -/
theorem Obeys.mono (hc : c.Obeys D locks known) (h : known ⊆ known') :
    c.Obeys D locks known' := by
  induction c generalizing locks known known' with
  | skip | set f | raise => trivial
  | seq c d ihc ihd => exact ⟨ihc hc.1 h, ihd hc.2 (c.after_mono h)⟩
  | branch c ih => exact fun k => ih k (hc k) h
  | many c ih | rescue c ih => exact ih hc h
  | sync l c ih =>
    refine ⟨hc.1.imp id fun htake => ⟨htake.1, htake.2.trans h⟩, ih hc.2 h⟩
  | wait l f => exact ⟨hc.1, hc.2.1, hc.2.2.trans h⟩
  | join l => exact ⟨hc.1, hc.2.trans h⟩
  | park f => exact hc
  | ifSet f c ih => exact ih hc (Set.insert_subset_insert h)

end Code

/-! ## Threads that obey -/

section Owned

variable [DecidableEq τ]

/-- How often the thread has the lock. -/
def owned (held : L → Option (τ × ℕ)) (t : τ) (l : L) : ℕ :=
  match held l with
  | none => 0
  | some (t', n) => if t' = t then n + 1 else 0

variable {held : L → Option (τ × ℕ)} {t : τ} {l : L} {n : ℕ}

theorem owned_of_none (h : held l = none) (t : τ) : owned held t l = 0 := by
  unfold owned
  rw [h]

/-- Whoever has taken a lock has it. -/
theorem held_of_owned (h : owned held t l = n + 1) : held l = some (t, n) := by
  unfold owned at h
  cases hl : held l with
  | none => simp [hl] at h
  | some x =>
    obtain ⟨t', m⟩ := x
    by_cases ht : t' = t
    · simp only [hl, ht, if_true] at h
      rw [ht, Nat.succ.inj h]
    · simp [hl, ht] at h

theorem owned_of_held (h : held l = some (t, n)) (t' : τ) :
    owned held t' l = if t = t' then n + 1 else 0 := by
  unfold owned
  rw [h]

variable [DecidableEq L]

/-- Another lock is as before. -/
theorem owned_update_of_ne {m : L} (h : m ≠ l) (x : Option (τ × ℕ)) (t : τ) :
    owned (Function.update held l x) t m = owned held t m := by
  unfold owned
  rw [Function.update_of_ne h]

theorem owned_acquire (h : held l = none ∨ ∃ n, held l = some (t, n)) (t' : τ) (m : L) :
    owned (acquire t l held) t' m = owned held t' m + if t = t' ∧ l = m then 1 else 0 := by
  by_cases hm : m = l
  · subst hm
    unfold acquire owned
    rw [Function.update_self]
    obtain hnone | ⟨n, hsome⟩ := h
    · simp [hnone]
    · simp only [hsome]
      split <;> simp_all
  · have hne : l ≠ m := fun h => hm h.symm
    simp [acquire, owned_update_of_ne hm, hne]

theorem owned_release (h : held l = some (t, n)) (t' : τ) (m : L) :
    owned (release t l held) t' m + (if t = t' ∧ l = m then 1 else 0) = owned held t' m := by
  by_cases hm : m = l
  · subst hm
    unfold release owned
    rw [Function.update_self, h]
    cases n with
    | zero => simp
    | succ n =>
      simp only
      split <;> simp_all
  · have hne : l ≠ m := fun h => hm h.symm
    simp [release, owned_update_of_ne hm, hne]

end Owned

/-- The locks that are given back on the way. -/
def locks : List (Item L F) → List L
  | [] => []
  | .exit l :: items => l :: locks items
  | .run _ :: items | .handler :: items => locks items

/-- An exception gives the same locks back. -/
theorem locks_unwind (items : List (Item L F)) : locks (unwind items) = locks items := by
  induction items with
  | nil => rfl
  | cons item items ih =>
    cases item with
    | run c => exact ih
    | exit l => exact congrArg (l :: ·) ih
    | handler => rfl

/-- The rest of a thread obeys the order when the flags in `known` will have been set. Nothing more
than `base`, the flags that have been set by now, may be known after an exception. -/
def Fits (D : Discipline L F) (base : Set F) : List (Item L F) → Set F → Prop
  | [], _ => True
  | .run c :: items, known => c.Obeys D (locks items) known ∧ Fits D base items (c.after known)
  | .exit _ :: items, known => Fits D base items known
  | .handler :: items, _ => Fits D base items base

namespace Fits

variable {D : Discipline L F} {items : List (Item L F)} {base base' known known' : Set F}

theorem mono (hi : Fits D base items known) (hbase : base ⊆ base') (h : known ⊆ known') :
    Fits D base' items known' := by
  induction items generalizing known known' with
  | nil => trivial
  | cons item items ih =>
    cases item with
    | run c => exact ⟨hi.1.mono h, ih hi.2 (c.after_mono h)⟩
    | exit l => exact ih hi h
    | handler => exact ih hi hbase

theorem unwind (hi : Fits D base items known) : Fits D base (unwind items) base := by
  induction items generalizing known with
  | nil => trivial
  | cons item items ih =>
    cases item with
    | run c => exact ih hi.2
    | exit l =>
      have hrest : Fits D base items known := hi
      exact ih hrest
    | handler => exact hi

end Fits

namespace Thread

/-- The thread obeys the order. -/
structure Obeys (D : Discipline L F) (th : Thread L F) (known : Set F) : Prop where
  todo : Fits D known th.todo (known ∪ {f | ∃ w ∈ th.waiting, f ∈ w.flag})
  waiting : ∀ w ∈ th.waiting, D.needs w.lock ⊆ known ∧
    ∀ m ∈ locks th.todo, m ≠ w.lock → D.rank w.lock < D.rank m ∧ ∀ f ∈ w.flag, f ∈ D.needs m

theorem Obeys.mono {D : Discipline L F} {th : Thread L F} {known known' : Set F}
    (hth : th.Obeys D known) (h : known ⊆ known') : th.Obeys D known' where
  todo := hth.todo.mono h (Set.union_subset_union_left _ h)
  waiting w hw := ⟨(hth.waiting w hw).1.trans h, (hth.waiting w hw).2⟩

variable [DecidableEq L]

/-- How often the thread has a lock: as often as it gives it back, unless it is within `wait`. -/
def count (th : Thread L F) (l : L) : ℕ :=
  match th.waiting with
  | some w => if l = w.lock then 0 else (locks th.todo).count l
  | none => (locks th.todo).count l

/-- A thread within `wait` takes the lock as often as it gives it back. -/
def Counted (th : Thread L F) : Prop :=
  ∀ w ∈ th.waiting, (locks th.todo).count w.lock = w.count + 1

end Thread

variable [DecidableEq L] [DecidableEq τ]

/-- Each thread obeys the order, and has the locks that it is going to give back. -/
structure Lawful (D : Discipline L F) (s : State L F τ) : Prop where
  obeys : ∀ t, (s.thread t).Obeys D {f | s.flags f}
  counted : ∀ t, (s.thread t).Counted
  count : ∀ t l, (s.thread t).count l = owned s.held t l

namespace Lawful

variable {D : Discipline L F} {s : State L F τ} {t : τ}

/-- One thread goes on. -/
theorem update (hs : Lawful D s) {th : Thread L F} {held : L → Option (τ × ℕ)} {flags : F → Bool}
    (hflags : ∀ f, s.flags f → flags f) (hobeys : th.Obeys D {f | flags f})
    (hcounted : th.Counted) (hcount : ∀ l, th.count l = owned held t l)
    (hothers : ∀ t', t ≠ t' → ∀ l, owned held t' l = owned s.held t' l) :
    Lawful D { held := held, flags := flags, thread := Function.update s.thread t th } where
  obeys t' := by
    show (Function.update s.thread t th t').Obeys D {f | flags f}
    by_cases ht : t' = t
    · rw [ht, Function.update_self]
      exact hobeys
    · rw [Function.update_of_ne ht]
      exact (hs.obeys t').mono hflags
  counted t' := by
    show (Function.update s.thread t th t').Counted
    by_cases ht : t' = t
    · rw [ht, Function.update_self]
      exact hcounted
    · rw [Function.update_of_ne ht]
      exact hs.counted t'
  count t' l := by
    show (Function.update s.thread t th t').count l = owned held t' l
    by_cases ht : t' = t
    · rw [ht, Function.update_self]
      exact hcount l
    · rw [Function.update_of_ne ht, hothers t' (Ne.symm ht)]
      exact hs.count t' l

/-- A thread that is not within `wait` goes on. -/
theorem goto (hs : Lawful D s) {items : List (Item L F)} {held : L → Option (τ × ℕ)}
    {flags : F → Bool} (hflags : ∀ f, s.flags f → flags f)
    (hfits : Fits D {f | flags f} items {f | flags f})
    (hcount : ∀ l, (locks items).count l = owned held t l)
    (hothers : ∀ t', t ≠ t' → ∀ l, owned held t' l = owned s.held t' l) :
    Lawful D { held := held, flags := flags,
               thread := Function.update s.thread t ⟨none, items⟩ } :=
  hs.update hflags ⟨hfits.mono subset_rfl Set.subset_union_left, fun _ hw => by cases hw⟩
    (fun _ hw => by cases hw) hcount hothers

variable {items : List (Item L F)}

/-- A thread goes on without a change of the locks and flags. -/
theorem goto_same (hs : Lawful D s) (hwaiting : (s.thread t).waiting = none)
    (hfits : Fits D {f | s.flags f} items {f | s.flags f})
    (hlocks : locks items = locks (s.thread t).todo) :
    Lawful D (s.goto t items) := by
  refine hs.goto (fun _ h => h) hfits (fun l => ?_) fun _ _ _ => rfl
  rw [hlocks, ← hs.count t l, Thread.count, hwaiting]

theorem fits (hs : Lawful D s) (hwaiting : (s.thread t).waiting = none) :
    Fits D {f | s.flags f} (s.thread t).todo {f | s.flags f} := by
  refine (hs.obeys t).todo.mono subset_rfl (Set.union_subset subset_rfl ?_)
  rintro f ⟨w, hw, -⟩
  rw [hwaiting] at hw
  cases hw

theorem count_locks (hs : Lawful D s) (hwaiting : (s.thread t).waiting = none) (l : L) :
    (locks (s.thread t).todo).count l = owned s.held t l := by
  rw [← hs.count t l, Thread.count, hwaiting]

/-- A lock that a thread gives back is one that it has. -/
theorem held_of_mem (hs : Lawful D s) (hwaiting : (s.thread t).waiting = none) {l : L}
    (hl : l ∈ locks (s.thread t).todo) :
    ∃ n, s.held l = some (t, n) ∧ (locks (s.thread t).todo).count l = n + 1 := by
  have hcount := hs.count_locks hwaiting l
  obtain ⟨n, hn⟩ := Nat.exists_eq_succ_of_ne_zero (List.count_pos_iff.mpr hl).ne'
  exact ⟨n, held_of_owned (hcount.symm.trans hn), hn⟩

/-- A lock is given back. -/
theorem leave (hs : Lawful D s) (hwaiting : (s.thread t).waiting = none) {l : L}
    (htodo : (s.thread t).todo = .exit l :: items) :
    Lawful D { s.goto t items with held := release t l s.held } := by
  have hfits := hs.fits hwaiting
  have hcount := hs.count_locks hwaiting
  rw [htodo] at hfits hcount
  obtain ⟨n, hheld, -⟩ := hs.held_of_mem hwaiting (htodo ▸ List.mem_cons_self : l ∈ _)
  refine hs.goto (fun _ h => h) hfits (fun m => ?_) fun t' ht m => ?_
  · have hown := owned_release hheld t m
    have hm : (locks items).count m + (if l = m then 1 else 0) = owned s.held t m := by
      rw [← hcount m]
      simp [locks, List.count_cons]
    rw [← hm] at hown
    simpa using hown.symm
  · simpa [ht] using owned_release hheld t' m

/-- A free lock is taken, or the thread's own once more. -/
theorem enter (hs : Lawful D s) (hwaiting : (s.thread t).waiting = none) {l : L} {c : Code L F}
    (htodo : (s.thread t).todo = .run (.sync l c) :: items)
    (hfree : s.held l = none ∨ ∃ n, s.held l = some (t, n)) :
    Lawful D { s.goto t (.run c :: .exit l :: items) with held := acquire t l s.held } := by
  have hfits := hs.fits hwaiting
  have hcount := hs.count_locks hwaiting
  rw [htodo] at hfits hcount
  refine hs.goto (fun _ h => h) ⟨hfits.1.2, hfits.2⟩ (fun m => ?_) fun t' ht m => ?_
  · rw [owned_acquire hfree, ← hcount m]
    simp [locks, List.count_cons]
  · simp [owned_acquire hfree, ht]

/-- A lock is given back within `wait`, however often it has been taken. -/
theorem release_in_wait (hs : Lawful D s) (hwaiting : (s.thread t).waiting = none) {l : L}
    {f : Option F} {n : ℕ} (htodo : (s.thread t).todo = .run (.wait l f) :: items)
    (hheld : s.held l = some (t, n)) (hn : (locks (s.thread t).todo).count l = n + 1) :
    Lawful D { s with
      thread := Function.update s.thread t ⟨some ⟨l, n, f⟩, items⟩
      held := Function.update s.held l none } := by
  obtain ⟨⟨-, horder, hneeds⟩, hrest⟩ := htodo ▸ hs.fits hwaiting
  have hcount := hs.count_locks hwaiting
  rw [htodo] at hcount hn
  refine hs.update (fun _ h => h) ⟨hrest.mono subset_rfl ?_, ?_⟩ ?_ (fun m => ?_)
    fun t' ht m => ?_
  · refine Set.union_subset_union_right _ fun x hx => ?_
    exact ⟨_, rfl, hx⟩
  · rintro _ ⟨⟩
    exact ⟨hneeds, horder⟩
  · rintro _ ⟨⟩
    exact hn
  · by_cases hm : m = l
    · simp [Thread.count, owned, hm]
    · simp only [Thread.count, hm, if_false, owned_update_of_ne hm]
      exact hcount m
  · by_cases hm : m = l
    · rw [hm, owned_of_held hheld, if_neg ht]
      simp [owned]
    · exact owned_update_of_ne hm _ _

variable [DecidableEq F]

/-- **A step** of a thread that is not within `wait`. -/
theorem run (hs : Lawful D s) (hwaiting : (s.thread t).waiting = none)
    (hen : CanRun D.reentrant s.held s.flags t (s.thread t).todo) (way : ℕ) :
    Lawful D (s.run t way) := by
  have hfits := hs.fits hwaiting
  have hcount := hs.count_locks hwaiting
  have hsame {items : List (Item L F)} (hi : Fits D {f | s.flags f} items {f | s.flags f})
      (hl : locks items = locks (s.thread t).todo) := hs.goto_same hwaiting hi hl
  unfold State.run
  cases htodo : (s.thread t).todo with
  | nil => exact hs
  | cons item rest =>
    rw [htodo] at hfits hcount hen
    rw [htodo] at hsame
    cases item with
    | handler => exact hsame hfits rfl
    | exit l => exact hs.leave hwaiting htodo
    | run c =>
      obtain ⟨hc, hrest⟩ := hfits
      cases c with
      | skip => exact hsame hrest rfl
      | seq c d => exact hsame ⟨hc.1, hc.2, hrest⟩ rfl
      | branch c => exact hsame ⟨hc way, hrest.mono subset_rfl fun f hf => hf way⟩ rfl
      | many c =>
        show Lawful D (if way = 0 then _ else _)
        split
        · exact hsame hrest rfl
        · exact hsame ⟨hc, hc.mono (c.subset_after _), hrest.mono subset_rfl (c.subset_after _)⟩ rfl
      | sync l c => exact hs.enter hwaiting htodo (hen.imp id And.right)
      | wait l f =>
        obtain ⟨n, hheld, hn⟩ := hs.held_of_mem hwaiting (htodo ▸ hc.1 : l ∈ _)
        simp only [hheld]
        exact hs.release_in_wait hwaiting htodo hheld hn
      | join l => exact hsame hrest rfl
      | park f => exact hsame (hrest.mono subset_rfl (Set.insert_subset hen subset_rfl)) rfl
      | set f =>
        have hflags : ∀ x, s.flags x → Function.update s.flags f true x := by
          intro x hx
          by_cases hxf : x = f
          · simp [hxf]
          · simpa [hxf] using hx
        refine hs.goto hflags (hrest.mono hflags (Set.insert_subset ?_ hflags)) hcount
          fun _ _ _ => rfl
        simp
      | ifSet f c =>
        show Lawful D (if s.flags f then _ else _)
        split
        · next hf =>
          have hc' : c.Obeys D (locks rest) {f | s.flags f} :=
            Code.Obeys.mono (c := c) hc (Set.insert_subset hf subset_rfl)
          exact hsame ⟨hc', hrest.mono subset_rfl (c.subset_after _)⟩ rfl
        · exact hsame hrest rfl
      | raise => exact hsame hrest.unwind (locks_unwind rest)
      | rescue c => exact hsame ⟨hc, hrest⟩ rfl

/-- **A step** keeps to the order. -/
theorem step (hs : Lawful D s) (hen : CanStep D.reentrant s t) (way : ℕ) :
    Lawful D (s.step t way) := by
  unfold State.step
  unfold CanStep at hen
  cases hwaiting : (s.thread t).waiting with
  | none =>
    rw [hwaiting] at hen
    exact hs.run hwaiting hen way
  | some w =>
    rw [hwaiting] at hen
    obtain ⟨hfree, hflag⟩ := hen
    have hfits := (hs.obeys t).todo
    rw [hwaiting] at hfits
    refine hs.goto (fun _ h => h) (hfits.mono subset_rfl ?_) (fun m => ?_) fun t' ht m => ?_
    · refine Set.union_subset subset_rfl ?_
      rintro f ⟨_, ⟨⟩, hf⟩
      exact hflag f hf
    · have hcount := hs.count t m
      rw [Thread.count, hwaiting] at hcount
      by_cases hm : m = w.lock
      · rw [hm, hs.counted t w hwaiting]
        simp [owned]
      · rw [owned_update_of_ne hm, ← hcount]
        exact (if_neg hm).symm
    · by_cases hm : m = w.lock
      · rw [hm, owned_of_none hfree]
        simp [owned, ht]
      · exact owned_update_of_ne hm _ _

/-- Programs that obey the order are lawful in the beginning. -/
theorem init {code : τ → Code L F} {life : τ → Option L}
    (hcode : ∀ t, (code t).Obeys D (life t).toList ∅)
    (hs : (locking D.reentrant code life).Init s) : Lawful D s := by
  obtain ⟨-, hthread, hheld⟩ := hs
  have hlocks (t : τ) : locks ((life t).toList.map (Item.exit (F := F))) = (life t).toList := by
    cases life t <;> rfl
  refine ⟨fun t => ?_, fun t => ?_, fun t l => ?_⟩
  · rw [hthread t]
    refine ⟨⟨?_, ?_⟩, fun _ hw => by cases hw⟩
    · rw [hlocks]
      exact (hcode t).mono (Set.empty_subset _)
    · cases life t <;> trivial
  · rw [hthread t]
    exact fun _ hw => by cases hw
  · rw [hthread t]
    show (locks ((life t).toList.map Item.exit)).count l = owned s.held t l
    rw [hlocks]
    by_cases hl : life t = some l
    · rw [owned_of_held ((hheld t l 0).mpr ⟨hl, rfl⟩), hl]
      simp
    · have hzero : owned s.held t l = 0 := by
        by_contra hne
        obtain ⟨n, hn⟩ := Nat.exists_eq_succ_of_ne_zero hne
        exact hl ((hheld t l n).mp (held_of_owned hn)).1
      rw [hzero, List.count_eq_zero]
      cases hlife : life t with
      | none => simp
      | some m =>
        rw [hlife] at hl
        simpa [eq_comm] using hl

end Lawful

/-- **Every run** keeps to the order. -/
theorem lawful_of_reachable [DecidableEq F] {D : Discipline L F} {code : τ → Code L F}
    {life : τ → Option L} (hcode : ∀ t, (code t).Obeys D (life t).toList ∅) {s : State L F τ}
    (hs : (locking D.reentrant code life).Reachable System.anyStep s) : Lawful D s :=
  hs.invariant (fun _ => Lawful.init hcode) fun _ a hs hen _ => hs.step hen a.2

/-! ## Who waits for whom -/

/-- The lock that a thread is about to take. -/
def awaited (th : Thread L F) : Option L :=
  match th.waiting, th.todo with
  | some w, _ => some w.lock
  | none, .run (.sync l _) :: _ | none, .run (.join l) :: _ => some l
  | none, _ => none

/-- A thread waits for a lock that another one has. -/
def WaitsFor (s : State L F τ) (t t' : τ) : Prop :=
  t' ≠ t ∧ ∃ l n, awaited (s.thread t) = some l ∧ s.held l = some (t', n)

/-- The thread waits for a flag that has not been set. -/
def Parked (s : State L F τ) (t : τ) : Prop :=
  match (s.thread t).waiting, (s.thread t).todo with
  | some w, _ => ∃ f ∈ w.flag, s.flags f = false
  | none, .run (.park f) :: _ => s.flags f = false
  | none, _ => False

/-- The thread has come to its end. -/
def Ended (s : State L F τ) (t : τ) : Prop :=
  (s.thread t).waiting = none ∧ (s.thread t).todo = []

section Waits

variable {D : Discipline L F} {s : State L F τ} {t t' : τ} {l : L}

/-- A thread gives the locks back that it has. -/
theorem Lawful.mem_locks (hs : Lawful D s) {n : ℕ} (hl : s.held l = some (t, n)) :
    l ∈ locks (s.thread t).todo ∧ ∀ w ∈ (s.thread t).waiting, l ≠ w.lock := by
  have hcount := hs.count t l
  rw [owned_of_held hl, if_pos rfl, Thread.count] at hcount
  cases hwaiting : (s.thread t).waiting with
  | none =>
    rw [hwaiting] at hcount
    have hpos : 0 < (locks (s.thread t).todo).count l := lt_of_lt_of_eq (Nat.succ_pos n) hcount.symm
    exact ⟨List.count_pos_iff.mp hpos, fun _ hw => by cases hw⟩
  | some w =>
    rw [hwaiting] at hcount
    by_cases hlw : l = w.lock
    · simp [hlw] at hcount
    · simp only [hlw, if_false] at hcount
      refine ⟨List.count_pos_iff.mp (hcount.symm ▸ Nat.succ_pos n), ?_⟩
      rintro _ ⟨⟩
      exact hlw

/-- A thread that is blocked, but not by a flag, waits for a lock below those that it has, and the
flags for this lock have been set. -/
theorem Lawful.awaited_of_blocked (hs : Lawful D s) (hblocked : ¬CanStep D.reentrant s t)
    (hparked : ¬Parked s t) (hended : ¬Ended s t) :
    ∃ l, awaited (s.thread t) = some l ∧ s.held l ≠ none ∧ D.needs l ⊆ {f | s.flags f} ∧
      ∀ m n, s.held m = some (t, n) → D.rank l < D.rank m := by
  have hmem (m : L) (n : ℕ) (hm : s.held m = some (t, n)) := hs.mem_locks hm
  unfold CanStep at hblocked
  unfold Parked at hparked
  unfold awaited
  cases hwaiting : (s.thread t).waiting with
  | some w =>
    simp only [hwaiting] at hblocked hparked hmem
    obtain ⟨hneeds, horder⟩ := (hs.obeys t).waiting w hwaiting
    have hset : ∀ f ∈ w.flag, s.flags f := fun f hf => by
      by_contra hunset
      exact hparked ⟨f, hf, by simpa using hunset⟩
    refine ⟨w.lock, rfl, fun hfree => hblocked ⟨hfree, hset⟩, hneeds, fun m n hm => ?_⟩
    obtain ⟨hlocks, hne⟩ := hmem m n hm
    exact (horder m hlocks (hne w rfl)).1
  | none =>
    have hfits := hs.fits hwaiting
    have hheld {m : L} (hm : m ∈ locks (s.thread t).todo) := hs.held_of_mem hwaiting hm
    simp only [hwaiting] at hblocked hparked
    cases htodo : (s.thread t).todo with
    | nil => exact absurd ⟨hwaiting, htodo⟩ hended
    | cons item rest =>
      rw [htodo] at hfits hblocked
      simp only [htodo] at hheld hmem hparked
      cases item with
      | exit l | handler => exact absurd trivial hblocked
      | run c =>
        obtain ⟨hc, -⟩ := hfits
        cases c with
        | sync l c =>
          obtain ⟨⟨hre, hl⟩ | ⟨horder, hneeds⟩, -⟩ := hc
          · -- the owner of a re-entrant lock is not blocked by it
            obtain ⟨n, hn, -⟩ := hheld hl
            exact absurd (Or.inr ⟨hre, n, hn⟩) hblocked
          · exact ⟨l, rfl, fun hfree => hblocked (Or.inl hfree), hneeds,
              fun m n hm => horder m (hmem m n hm).1⟩
        | join l =>
          obtain ⟨horder, hneeds⟩ := hc
          exact ⟨l, rfl, hblocked, hneeds, fun m n hm => horder m (hmem m n hm).1⟩
        | park f =>
          have hset : s.flags f = true := by simpa using hparked
          exact absurd hset hblocked
        | skip | seq c d | branch c | many c | wait l f | set f | ifSet f c | raise
        | rescue c =>
          exact absurd trivial hblocked

/-- Who has a lock and waits for a flag waits for one that has been set before anybody waits for
the lock. -/
theorem Lawful.needs_of_parked (hs : Lawful D s) (hparked : Parked s t') {n : ℕ}
    (hl : s.held l = some (t', n)) : ∃ f ∈ D.needs l, s.flags f = false := by
  obtain ⟨hmem, hne⟩ := hs.mem_locks hl
  unfold Parked at hparked
  cases hwaiting : (s.thread t').waiting with
  | some w =>
    simp only [hwaiting] at hparked
    obtain ⟨f, hf, hunset⟩ := hparked
    obtain ⟨-, horder⟩ := (hs.obeys t').waiting w hwaiting
    exact ⟨f, (horder l hmem (hne w hwaiting)).2 f hf, hunset⟩
  | none =>
    have hfits := hs.fits hwaiting
    simp only [hwaiting] at hparked
    split at hparked
    · next hw => cases hw
    · next f rest _ htodo =>
      rw [htodo] at hfits hmem
      exact ⟨f, hfits.1 l hmem, hparked⟩
    · cases hparked

/-- **No deadlock.** A thread that has not ended and does not wait for a flag waits, through the
threads whose locks it needs, for a thread that can go on. -/
theorem Lawful.waits_for_runnable (hs : Lawful D s) (hparked : ¬Parked s t) (hended : ¬Ended s t) :
    ∃ t', Relation.ReflTransGen (WaitsFor s) t t' ∧ CanStep D.reentrant s t' := by
  by_cases hcan : CanStep D.reentrant s t
  · exact ⟨t, Relation.ReflTransGen.refl, hcan⟩
  obtain ⟨l, hl, hheld, hneeds, horder⟩ := hs.awaited_of_blocked hcan hparked hended
  -- the ranks of the locks that are waited for go down along the way
  induction hrank : D.rank l using Nat.strongRecOn generalizing t l with
  | ind k ih =>
    obtain ⟨⟨t', n⟩, howner⟩ := Option.ne_none_iff_exists'.mp hheld
    have hne : t' ≠ t := by
      rintro rfl
      exact absurd (horder l n howner) (lt_irrefl _)
    have hwaits : WaitsFor s t t' := ⟨hne, l, n, hl, howner⟩
    by_cases hcan' : CanStep D.reentrant s t'
    · exact ⟨t', Relation.ReflTransGen.single hwaits, hcan'⟩
    have hparked' : ¬Parked s t' := fun hparked' => by
      obtain ⟨f, hf, hunset⟩ := hs.needs_of_parked hparked' howner
      have hset : s.flags f = true := hneeds hf
      rw [hunset] at hset
      cases hset
    have hended' : ¬Ended s t' := fun hended' => by
      have hmem := (hs.mem_locks howner).1
      rw [hended'.2] at hmem
      cases hmem
    obtain ⟨l', hl', hheld', hneeds', horder'⟩ := hs.awaited_of_blocked hcan' hparked' hended'
    have hlt : D.rank l' < k := hrank ▸ horder' l n howner
    obtain ⟨t'', hreach, hcan''⟩ :=
      ih _ hlt hparked' hended' hcan' l' hl' hheld' hneeds' horder' rfl
    exact ⟨t'', Relation.ReflTransGen.head hwaits hreach, hcan''⟩

end Waits

end Locking

end Transition
