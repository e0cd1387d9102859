import Mathlib.Algebra.Group.Pointwise.Set.Lattice
import Mathlib.Algebra.Order.Group.Multiset
import Mathlib.Data.Multiset.UnionInter
import Mathlib.Tactic.Abel
import ZookeeperClient.Memory.Segment

/-!
# Programs that allocate and free

A program works on an arena of blocks, which are numbered in the order in which they are
allocated; the number of a block that has been freed is not used again. To read, write or free a
block that is not allocated is a fault, and the program has no result.

Assertions are sets of parts of the memory, and the pointwise sum of two assertions says that the
memory splits into a part for each. A triple `Triple P c Q` speaks of the part of the memory that
the program needs; whatever else is allocated is left alone. So a triple whose postcondition is
`0` says that everything is freed, once, and one whose postcondition is not says what is left.

## Main definitions

- `Arena`, `Prog` — the memory and the programs
- `Arena.Holds` — exactly these blocks are allocated
- `Assertion`, `pointsTo`, `fact` — assertions, whose algebra is that of pointwise sums
- `Triple` — what a program needs and what it leaves
- `Reads` — a program that reads a value and changes nothing

## Main results

- `Triple.frame`, `Triple.step` — the frame rule, alone and with the rule for sequences
- `Triple.alloc`, `Triple.load`, `Triple.store`, `Triple.free` — the memory operations
- `Reads.bind` — programs that only read
- `Triple.forLoop` — the invariant rule
-/

namespace Memory

open scoped Pointwise

/-! ## The memory -/

/-- The blocks that are allocated, and the number that the next one gets. -/
structure Arena (ν : Type) where
  next : ℕ
  heap : Heap ℕ ν

namespace Arena

variable {ν : Type}

def empty : Arena ν :=
  ⟨0, fun _ => none⟩

/-- Exactly these blocks are allocated, with these contents. -/
structure Holds (m : Arena ν) (own : Multiset (ℕ × ν)) : Prop where
  nodup : (own.map Prod.fst).Nodup
  heap_iff : ∀ p v, m.heap p = some v ↔ (p, v) ∈ own
  lt_next : ∀ p v, (p, v) ∈ own → p < m.next

namespace Holds

variable {m : Arena ν} {own own' : Multiset (ℕ × ν)} {p : ℕ} {v : ν}

theorem empty : (empty : Arena ν).Holds 0 where
  nodup := Multiset.nodup_zero
  heap_iff _ _ := ⟨nofun, fun h => absurd h (Multiset.notMem_zero _)⟩
  lt_next _ _ h := absurd h (Multiset.notMem_zero _)

theorem heap_eq (h : m.Holds ({(p, v)} + own)) : m.heap p = some v :=
  (h.heap_iff p v).mpr (by simp)

/-- The other blocks have other numbers. -/
theorem ne_of_mem (h : m.Holds ({(p, v)} + own)) {q : ℕ} {w : ν} (hq : (q, w) ∈ own) :
    q ≠ p := by
  rintro rfl
  have hnodup := h.nodup
  rw [Multiset.map_add, Multiset.map_singleton, Multiset.singleton_add,
    Multiset.nodup_cons] at hnodup
  exact hnodup.1 (Multiset.mem_map.mpr ⟨(q, w), hq, rfl⟩)

theorem alloc (h : m.Holds own) (v : ν) :
    (⟨m.next + 1, m.heap.malloc m.next v⟩ : Arena ν).Holds ({(m.next, v)} + own) where
  nodup := by
    rw [Multiset.map_add, Multiset.map_singleton, Multiset.singleton_add, Multiset.nodup_cons]
    refine ⟨fun hmem => ?_, h.nodup⟩
    obtain ⟨⟨q, w⟩, hq, hnext : q = m.next⟩ := Multiset.mem_map.mp hmem
    exact absurd (h.lt_next q w hq) (by omega)
  heap_iff q w := by
    by_cases hq : q = m.next
    · subst hq
      have hnot : (m.next, w) ∉ own := fun hmem => (h.lt_next _ w hmem).ne rfl
      simp [Heap.malloc, hnot, eq_comm]
    · simp [Heap.malloc, hq, h.heap_iff]
  lt_next q w hq := by
    obtain hq | hq := Multiset.mem_add.mp hq
    · obtain ⟨rfl, -⟩ := Prod.mk.inj (Multiset.mem_singleton.mp hq)
      exact Nat.lt_succ_self _
    · exact Nat.lt_succ_of_lt (h.lt_next q w hq)

theorem store (h : m.Holds ({(p, v)} + own)) (w : ν) :
    ({ m with heap := Function.update m.heap p (some w) } : Arena ν).Holds
      ({(p, w)} + own) where
  nodup := by simpa using h.nodup
  heap_iff q u := by
    by_cases hq : q = p
    · subst hq
      have hnot : (q, u) ∉ own := fun hmem => h.ne_of_mem hmem rfl
      simp [hnot, eq_comm]
    · simp [hq, h.heap_iff]
  lt_next q u hq := by
    obtain hq | hq := Multiset.mem_add.mp hq
    · obtain ⟨rfl, -⟩ := Prod.mk.inj (Multiset.mem_singleton.mp hq)
      exact h.lt_next q v (by simp)
    · exact h.lt_next q u (Multiset.mem_add.mpr (Or.inr hq))

theorem free (h : m.Holds ({(p, v)} + own)) :
    ({ m with heap := Function.update m.heap p none } : Arena ν).Holds own where
  nodup := by
    have hnodup := h.nodup
    rw [Multiset.map_add] at hnodup
    exact (Multiset.nodup_add.mp hnodup).2.1
  heap_iff q u := by
    by_cases hq : q = p
    · subst hq
      have hnot : (q, u) ∉ own := fun hmem => h.ne_of_mem hmem rfl
      simp [hnot]
    · simp [hq, h.heap_iff]
  lt_next q u hq := h.lt_next q u (Multiset.mem_add.mpr (Or.inr hq))

theorem eq_zero_iff (h : m.Holds own) : own = 0 ↔ ∀ p, m.heap p = none := by
  constructor
  · rintro rfl p
    refine Option.eq_none_iff_forall_not_mem.mpr fun v hv => ?_
    exact absurd ((h.heap_iff p v).mp hv) (Multiset.notMem_zero _)
  · intro hnone
    refine Multiset.eq_zero_of_forall_notMem fun x hx => ?_
    have hsome := (h.heap_iff x.1 x.2).mpr hx
    rw [hnone] at hsome
    cases hsome

/-- One block is allocated and no other. -/
theorem rest_eq_zero_iff (h : m.Holds ({(p, v)} + own)) :
    own = 0 ↔ ∀ q, q ≠ p → m.heap q = none := by
  rw [h.free.eq_zero_iff]
  refine forall_congr' fun q => ?_
  by_cases hq : q = p
  · simp [hq]
  · simp [hq]

/-- The memory determines what it holds. -/
theorem unique (h : m.Holds own) (h' : m.Holds own') : own = own' := by
  refine (Multiset.Nodup.ext (Multiset.Nodup.of_map _ h.nodup)
    (Multiset.Nodup.of_map _ h'.nodup)).mpr ?_
  rintro ⟨p, v⟩
  exact (h.heap_iff p v).symm.trans (h'.heap_iff p v)

end Holds

end Arena

/-! ## Programs -/

/-- A program, which has no result if it comes to a fault. -/
abbrev Prog (ν : Type) := StateT (Arena ν) Option

namespace Prog

variable {ν α σ : Type} {ε : Type*}

def fault : Prog ν α := fun _ => none

/-- A block is allocated, which holds `v`. -/
def alloc (v : ν) : Prog ν ℕ := fun m =>
  some (m.next, ⟨m.next + 1, m.heap.malloc m.next v⟩)

def load (p : ℕ) : Prog ν ν := fun m =>
  (m.heap p).map fun v => (v, m)

def store (p : ℕ) (v : ν) : Prog ν Unit := fun m =>
  (m.heap.modify p fun _ => v).map fun heap => ((), { m with heap := heap })

def free (p : ℕ) : Prog ν Unit := fun m =>
  (m.heap.free p).map fun heap => ((), { m with heap := heap })

/-- A pointer is freed, which may be null. -/
def freePtr : Option ℕ → Prog ν Unit
  | none => pure ()
  | some p => free p

/-- What comes to an error is a fault. -/
def ofResult : Except ε α → Prog ν α
  | .ok a => pure a
  | .error _ => fault

/-- What there is not is a fault. -/
def ofOption : Option α → Prog ν α
  | some a => pure a
  | none => fault

/-- A block is read, in which one kind of contents is expected. -/
def loadAs (get : ν → Option α) (p : ℕ) : Prog ν α := do
  let v ← load p
  ofOption (get v)

/-- `for (k = 0; k < n; ++k) s = body(k, s)`. -/
def forLoop (body : ℕ → σ → Prog ν σ) (s : σ) : ℕ → Prog ν σ
  | 0 => pure s
  | n + 1 => do
    let s ← forLoop body s n
    body n s

/-- `p ? f(*p) : NULL`. -/
def unlessNull {β : Type} (f : α → Prog ν β) : Option α → Prog ν (Option β)
  | none => pure none
  | some a => do
    let b ← f a
    return some b

end Prog

/-! ## Assertions -/

/-- What is said about a part of the memory: the parts of which it is true. -/
abbrev Assertion (ν : Type) := Set (Multiset (ℕ × ν))

section Assertions

variable {ν : Type}

/-- The block `p`, which holds `v`, and nothing else. -/
def pointsTo (p : ℕ) (v : ν) : Assertion ν :=
  {{(p, v)}}

/-- No block at all, and a fact about values. -/
def fact (φ : Prop) : Assertion ν :=
  {own | φ ∧ own = 0}

variable {φ : Prop} {P : Assertion ν} {own : Multiset (ℕ × ν)}

theorem mem_fact_add : own ∈ fact φ + P ↔ φ ∧ own ∈ P := by
  constructor
  · rintro ⟨_, ⟨hφ, rfl⟩, b, hb, rfl⟩
    exact ⟨hφ, by simpa using hb⟩
  · rintro ⟨hφ, hown⟩
    exact ⟨0, ⟨hφ, rfl⟩, own, hown, zero_add own⟩

@[simp] theorem fact_true : (fact True : Assertion ν) = 0 := by
  ext own
  simp [fact]

theorem fact_of (hφ : φ) : (fact φ : Assertion ν) = 0 := by
  rw [eq_true hφ, fact_true]

theorem fact_add_of (hφ : φ) : fact φ + P = P := by
  rw [fact_of hφ, zero_add]

theorem subset_fact_add (hφ : φ) : P ⊆ fact φ + P :=
  fun _ hown => mem_fact_add.mpr ⟨hφ, hown⟩

/-- Where there is a block, there is memory. -/
theorem ne_zero_of_mem_pointsTo_add {p : ℕ} {v : ν} (h : own ∈ pointsTo p v + P) : own ≠ 0 := by
  obtain ⟨_, rfl, rest, -, rfl⟩ := h
  exact Multiset.cons_ne_zero

end Assertions

/-! ## Triples -/

/-- **A triple.** From any memory in which `P` holds of a part, the program comes to a result `a`
without a fault, and then `Q a` holds of a part and the rest is as before. -/
def Triple {ν α : Type} (P : Assertion ν) (c : Prog ν α) (Q : α → Assertion ν) : Prop :=
  ∀ frame m, ∀ own ∈ P, m.Holds (own + frame) →
    ∃ a m', c m = some (a, m') ∧ ∃ own' ∈ Q a, m'.Holds (own' + frame)

/-- All that is allocated is described by `P`. -/
def Arena.Sat {ν : Type} (m : Arena ν) (P : Assertion ν) : Prop :=
  ∃ own ∈ P, m.Holds own

theorem Arena.Sat.mono {ν : Type} {m : Arena ν} {P Q : Assertion ν} (hm : m.Sat P)
    (h : P ⊆ Q) : m.Sat Q := by
  obtain ⟨own, hown, hm⟩ := hm
  exact ⟨own, h hown, hm⟩

theorem Arena.Sat.of_eq {ν : Type} {m : Arena ν} {P Q : Assertion ν} (hm : m.Sat P)
    (h : P = Q) : m.Sat Q :=
  h ▸ hm

/-- The program reads `a` and changes nothing. -/
abbrev Reads {ν α : Type} (P : Assertion ν) (c : Prog ν α) (a : α) : Prop :=
  Triple P c fun b => fact (b = a) + P

namespace Triple

variable {ν α β σ : Type} {P P' R : Assertion ν} {c : Prog ν α} {Q : α → Assertion ν}
  {p : ℕ} {v w : ν}

/-- The program runs in a memory of which more is described than it needs. -/
theorem run (h : Triple P c Q) (R : Assertion ν) {m : Arena ν} {T : Assertion ν} (hm : m.Sat T)
    (hT : T = P + R) : ∃ a m', c m = some (a, m') ∧ m'.Sat (Q a + R) := by
  subst hT
  obtain ⟨_, ⟨own, hown, rest, hrest, rfl⟩, hm⟩ := hm
  obtain ⟨a, m', hc, own', hown', hm'⟩ := h rest m own hown hm
  exact ⟨a, m', hc, own' + rest, Set.add_mem_add hown' hrest, hm'⟩

/-! ### Structural rules -/

/-- **Consequence**: a stronger precondition and a weaker postcondition. -/
theorem mono {Q' : α → Assertion ν} (h : Triple P' c Q') (hpre : P ⊆ P')
    (hpost : ∀ a, Q' a ⊆ Q a) : Triple P c Q := by
  intro frame m own hown hm
  obtain ⟨a, m', hc, own', hown', hm'⟩ := h frame m own (hpre hown) hm
  exact ⟨a, m', hc, own', hpost a hown', hm'⟩

theorem pre (h : Triple P' c Q) (hpre : P = P') : Triple P c Q :=
  hpre ▸ h

theorem post {Q' : α → Assertion ν} (h : Triple P c Q') (hpost : ∀ a, Q' a ⊆ Q a) :
    Triple P c Q :=
  h.mono subset_rfl hpost

/-- **Frame**: what the program does not need stays. -/
theorem frame (R : Assertion ν) (h : Triple P c Q) : Triple (P + R) c fun a => Q a + R := by
  rintro frame m _ ⟨own, hown, rest, hrest, rfl⟩ hm
  obtain ⟨a, m', hc, own', hown', hm'⟩ :=
    h (rest + frame) m own hown (by rwa [← add_assoc])
  exact ⟨a, m', hc, own' + rest, Set.add_mem_add hown' hrest, by rwa [add_assoc]⟩

theorem of_empty : Triple ∅ c Q :=
  fun _ _ _ h => absurd h (Set.notMem_empty _)

theorem of_fact {φ : Prop} (h : φ → Triple P c Q) : Triple (fact φ + P) c Q := by
  intro frame m own hown hm
  obtain ⟨hφ, hown⟩ := mem_fact_add.mp hown
  exact h hφ frame m own hown hm

theorem of_iUnion {ι : Type*} {P : ι → Assertion ν} (h : ∀ i, Triple (P i) c Q) :
    Triple (⋃ i, P i) c Q := by
  intro frame m own hown hm
  obtain ⟨i, hi⟩ := Set.mem_iUnion.mp hown
  exact h i frame m own hi hm

theorem of_iUnion_add {ι : Type*} {P : ι → Assertion ν} (h : ∀ i, Triple (P i + R) c Q) :
    Triple ((⋃ i, P i) + R) c Q := by
  rw [Set.iUnion_add]
  exact of_iUnion h

theorem ret {a : α} (h : P ⊆ Q a) : Triple P (pure a) Q :=
  fun _ m own hown hm => ⟨a, m, rfl, own, h hown, hm⟩

theorem bind {f : α → Prog ν β} {Q' : β → Assertion ν} (hc : Triple P c Q)
    (hf : ∀ a, Triple (Q a) (f a) Q') : Triple P (c >>= f) Q' := by
  intro frame m own hown hm
  obtain ⟨a, m', hc, own', hown', hm'⟩ := hc frame m own hown hm
  obtain ⟨b, m'', hf, hpost⟩ := hf a frame m' own' hown' hm'
  refine ⟨b, m'', ?_, hpost⟩
  show (c m).bind _ = _
  rw [hc]
  exact hf

/-- **One step** of a sequence, which needs a part of the memory. -/
theorem step {f : α → Prog ν β} {Q' : β → Assertion ν} (R : Assertion ν) (hc : Triple P' c Q)
    (hpre : P = P' + R) (hf : ∀ a, Triple (Q a + R) (f a) Q') : Triple P (c >>= f) Q' :=
  (hc.frame R).pre hpre |>.bind hf

/-- A step whose result is known. -/
theorem step_eq {a : α} {f : α → Prog ν β} {Q : Assertion ν} {Q' : β → Assertion ν}
    (R : Assertion ν) (hc : Triple P' c fun b => fact (b = a) + Q) (hpre : P = P' + R)
    (hf : Triple (Q + R) (f a) Q') : Triple P (c >>= f) Q' := by
  refine hc.step R hpre fun b => ?_
  rw [add_assoc]
  exact of_fact fun hb => hb ▸ hf

/-! ### Memory operations -/

theorem alloc (v : ν) : Triple 0 (Prog.alloc v) fun p => pointsTo p v := by
  rintro frame m _ rfl hm
  rw [zero_add] at hm
  exact ⟨m.next, _, rfl, _, rfl, hm.alloc v⟩

theorem load : Reads (pointsTo p v) (Prog.load p) v := by
  rintro frame m _ rfl hm
  refine ⟨v, m, ?_, _, subset_fact_add rfl rfl, hm⟩
  show (m.heap p).map _ = _
  rw [hm.heap_eq]
  rfl

theorem store (w : ν) : Triple (pointsTo p v) (Prog.store p w) fun _ => pointsTo p w := by
  rintro frame m _ rfl hm
  refine ⟨(), _, ?_, _, rfl, hm.store w⟩
  show (m.heap.modify p fun _ => w).map _ = _
  rw [Heap.modify_eq hm.heap_eq]
  rfl

theorem free : Triple (pointsTo p v) (Prog.free p) fun _ => 0 := by
  rintro frame m _ rfl hm
  refine ⟨(), _, ?_, 0, rfl, by simpa using hm.free⟩
  show (m.heap.free p).map _ = _
  rw [Heap.free_eq hm.heap_eq]
  rfl

theorem ofResult {ε : Type*} {x : Except ε α} {a : α} (h : x = .ok a) :
    Reads (0 : Assertion ν) (Prog.ofResult x) a := by
  subst h
  exact ret (subset_fact_add rfl)

theorem ofOption {x : Option α} {a : α} (h : x = some a) :
    Reads (0 : Assertion ν) (Prog.ofOption x) a := by
  subst h
  exact ret (subset_fact_add rfl)

theorem loadAs {get : ν → Option α} {a : α} (h : get v = some a) :
    Reads (pointsTo p v) (Prog.loadAs get p) a := by
  refine load.step_eq 0 (add_zero _).symm ?_
  rw [add_comm]
  exact ((ofOption h).frame _).post fun b => by rw [add_zero]

/-! ### Sequences of memory operations -/

variable {f : α → Prog ν β} {Q' : β → Assertion ν}

theorem alloc_bind {f : ℕ → Prog ν β} (v : ν) (h : ∀ p, Triple (pointsTo p v + P) (f p) Q') :
    Triple P (Prog.alloc v >>= f) Q' :=
  (alloc v).step P (zero_add P).symm h

theorem loadAs_bind {get : ν → Option α} {a : α} (hget : get v = some a)
    (h : Triple (pointsTo p v + P) (f a) Q') :
    Triple (pointsTo p v + P) (Prog.loadAs get p >>= f) Q' :=
  (loadAs hget).step_eq P rfl h

theorem store_bind {f : Unit → Prog ν β} (w : ν) (h : Triple (pointsTo p w + P) (f ()) Q') :
    Triple (pointsTo p v + P) (Prog.store p w >>= f) Q' :=
  (store w).step P rfl fun _ => h

theorem free_bind {f : Unit → Prog ν β} (h : Triple P (f ()) Q') :
    Triple (pointsTo p v + P) (Prog.free p >>= f) Q' :=
  free.step P rfl fun _ => by rwa [zero_add]

theorem ofResult_bind {ε : Type*} {x : Except ε α} {a : α} (hx : x = .ok a)
    (h : Triple P (f a) Q') : Triple P (Prog.ofResult x >>= f) Q' :=
  (ofResult hx).step_eq P (zero_add P).symm (by rwa [zero_add])

/-! ### Loops -/

/-- **The invariant rule.** -/
theorem forLoop {f : ℕ → σ → Prog ν σ} {s : σ} {n : ℕ} (I : ℕ → σ → Assertion ν)
    (h : ∀ k, k < n → ∀ s, Triple (I k s) (f k s) (I (k + 1))) :
    Triple (I 0 s) (Prog.forLoop f s n) (I n) := by
  induction n with
  | zero => exact ret subset_rfl
  | succ n ih =>
    refine (ih fun k hk => h k (by omega)).bind fun s => ?_
    exact h n (by omega) s

end Triple

/-! ### Programs that only read -/

namespace Reads

variable {ν α β : Type} {P : Assertion ν} {c : Prog ν α} {f : α → Prog ν β} {a : α} {b : β}
  {Q : β → Assertion ν}

theorem ret (a : α) : Reads P (pure a) a :=
  Triple.ret (subset_fact_add rfl)

theorem bind_triple (hc : Reads P c a) (hf : Triple P (f a) Q) : Triple P (c >>= f) Q :=
  Triple.bind hc fun _ => Triple.of_fact fun hb => hb ▸ hf

theorem bind (hc : Reads P c a) (hf : Reads P (f a) b) : Reads P (c >>= f) b :=
  hc.bind_triple hf

/-- What is read is a part of what there is. -/
theorem frame {P' : Assertion ν} (R : Assertion ν) (hc : Reads P' c a) (hpre : P = P' + R) :
    Reads P c a := by
  subst hpre
  refine (Triple.frame R hc).post fun b => ?_
  rw [add_assoc]

variable {X A B : Assertion ν}

theorem first (h : Reads X c a) : Reads (X + A) c a :=
  h.frame A rfl

theorem last (h : Reads A c a) : Reads (X + A) c a :=
  h.frame X (add_comm X A)

theorem second (h : Reads A c a) : Reads (X + (A + B)) c a :=
  h.first.last

theorem third (h : Reads B c a) : Reads (X + (A + B)) c a :=
  h.last.last

theorem of_iUnion {ι : Type*} {P : ι → Assertion ν} (h : ∀ i, Reads (P i) c a) :
    Reads (⋃ i, P i) c a :=
  Triple.of_iUnion fun i => (h i).post fun _ =>
    Set.add_subset_add_left (Set.subset_iUnion P i)

theorem ofOption {x : Option α} (h : x = some a) : Reads P (Prog.ofOption x) a :=
  frame P (Triple.ofOption h) (zero_add P).symm

theorem ofResult {ε : Type*} {x : Except ε α} (h : x = .ok a) : Reads P (Prog.ofResult x) a :=
  frame P (Triple.ofResult h) (zero_add P).symm

end Reads

end Memory
