import Mathlib.Logic.Function.Basic
import Mathlib.Data.List.Nodup

/-!
# Linked cells on a heap

A heap maps the addresses of allocated cells to their contents. Reading, writing and freeing an
address that is not allocated is an error, `none`. Cells are linked by a function that reads the
next address out of a cell's contents; a segment is a finite path along these links.

## Main definitions

- `Heap`, `Heap.malloc`, `Heap.modify`, `Heap.free` — the heap
- `Segment` — a path from one link to another, with the cells on it
- `Reaches` — an address that is met on the way along the links

## Main results

- `Segment.append_iff`, `Segment.congr` — how segments compose, and their frame rule
- `Segment.unique`, `Segment.nodup` — a path that comes to its end meets no cell twice
- `Segment.mem_of_reaches` — it meets nothing else
-/

namespace Memory

/-- The allocated cells, by their addresses. -/
abbrev Heap (ι ν : Type*) := ι → Option ν

variable {ι ν : Type*}

namespace Heap

variable [DecidableEq ι] (h : Heap ι ν) (p : ι)

/-- A cell comes into being at `p`, with the contents `v`. -/
def malloc (v : ν) : Heap ι ν :=
  Function.update h p (some v)

/-- The contents of a cell are changed. -/
def modify (f : ν → ν) : Option (Heap ι ν) :=
  (h p).map fun v => Function.update h p (some (f v))

/-- A cell is freed. -/
def free : Option (Heap ι ν) :=
  (h p).map fun _ => Function.update h p none

/-- A pointer is freed, which may be null. -/
def freePtr : Option ι → Option (Heap ι ν)
  | none => some h
  | some p => h.free p

variable {h p} {v : ν}

theorem modify_eq (hp : h p = some v) (f : ν → ν) :
    h.modify p f = some (Function.update h p (some (f v))) := by
  simp [modify, hp]

theorem free_eq (hp : h p = some v) : h.free p = some (Function.update h p none) := by
  simp [free, hp]

end Heap

variable (next : ν → Option ι) (h : Heap ι ν)

/-- The path from `p` to `q` along the links leads through these cells. -/
def Segment : Option ι → List (ι × ν) → Option ι → Prop
  | p, [], q => p = q
  | p, (a, v) :: cells, q => p = some a ∧ h a = some v ∧ Segment (next v) cells q

/-- The address is met on the way from `p` along the links. -/
inductive Reaches : Option ι → ι → Prop where
  | here (a : ι) : Reaches (some a) a
  | there {a b : ι} {v : ν} (ha : h a = some v) (hb : Reaches (next v) b) : Reaches (some a) b

namespace Segment

variable {next h} {p q r : Option ι} {cells cells' : List (ι × ν)}

@[simp] theorem nil_iff : Segment next h p [] q ↔ p = q := Iff.rfl

@[simp] theorem cons_iff {a : ι} {v : ν} :
    Segment next h p ((a, v) :: cells) q ↔
      p = some a ∧ h a = some v ∧ Segment next h (next v) cells q :=
  Iff.rfl

theorem append_iff :
    Segment next h p (cells ++ cells') r ↔
      ∃ q, Segment next h p cells q ∧ Segment next h q cells' r := by
  induction cells generalizing p with
  | nil => simp
  | cons cell cells ih =>
    obtain ⟨a, v⟩ := cell
    simp only [List.cons_append, cons_iff, ih]
    constructor
    · rintro ⟨hp, ha, q, hq, hr⟩
      exact ⟨q, ⟨hp, ha, hq⟩, hr⟩
    · rintro ⟨q, ⟨hp, ha, hq⟩, hr⟩
      exact ⟨hp, ha, q, hq, hr⟩

/-- A path with one more cell at its end. -/
theorem concat (hs : Segment next h p cells q) {a : ι} {v : ν} (hq : q = some a)
    (ha : h a = some v) : Segment next h p (cells ++ [(a, v)]) (next v) :=
  append_iff.mpr ⟨q, hs, hq, ha, rfl⟩

theorem get_mem (hs : Segment next h p cells q) {a : ι} {v : ν} (hmem : (a, v) ∈ cells) :
    h a = some v := by
  induction cells generalizing p with
  | nil => cases hmem
  | cons cell cells ih =>
    obtain ⟨-, hv, hrest⟩ := hs
    obtain rfl | hmem := List.mem_cons.mp hmem
    · exact hv
    · exact ih hrest hmem

/-- The path depends on the cells that it leads through only. -/
theorem congr {h' : Heap ι ν} (hs : Segment next h p cells q)
    (hsame : ∀ a ∈ cells.map Prod.fst, h' a = h a) : Segment next h' p cells q := by
  induction cells generalizing p with
  | nil => exact hs
  | cons cell cells ih =>
    obtain ⟨hp, hv, hrest⟩ := hs
    refine ⟨hp, ?_, ih hrest fun a ha => hsame a (List.mem_cons_of_mem _ ha)⟩
    rw [hsame _ List.mem_cons_self, hv]

/-- There is one path to the end. -/
theorem unique (hs : Segment next h p cells none) (hs' : Segment next h p cells' none) :
    cells = cells' := by
  induction cells generalizing p cells' with
  | nil =>
    obtain rfl : p = none := hs
    cases cells' with
    | nil => rfl
    | cons cell cells' => exact absurd hs'.1 (by simp)
  | cons cell cells ih =>
    obtain ⟨a, v⟩ := cell
    obtain ⟨rfl, hv, hrest⟩ := hs
    cases cells' with
    | nil => exact absurd hs' (by simp)
    | cons cell' cells' =>
      obtain ⟨a', v'⟩ := cell'
      obtain ⟨ha, hv', hrest'⟩ := hs'
      obtain rfl : a = a' := Option.some.inj ha
      obtain rfl : v = v' := Option.some.inj (hv.symm.trans hv')
      rw [ih hrest hrest']

/-- A path that met a cell twice would never come to its end. -/
theorem nodup (hs : Segment next h p cells none) : (cells.map Prod.fst).Nodup := by
  induction cells generalizing p with
  | nil => exact List.nodup_nil
  | cons cell cells ih =>
    obtain ⟨a, v⟩ := cell
    have hwhole := hs
    obtain ⟨rfl, hv, hrest⟩ := hs
    refine List.nodup_cons.mpr ⟨fun hmem => ?_, ih hrest⟩
    obtain ⟨⟨b, w⟩, hbw, rfl : b = a⟩ := List.mem_map.mp hmem
    obtain ⟨front, back, rfl⟩ := List.append_of_mem hbw
    -- the rest of the path from the second meeting is the whole path again
    obtain ⟨q, -, hq⟩ := append_iff.mp hrest
    obtain ⟨rfl, -⟩ := id hq
    have hlen := congrArg List.length (unique hq hwhole)
    simp only [List.length_cons, List.length_append] at hlen
    omega

/-- What is met on the way to the end is on the path. -/
theorem mem_of_reaches (hs : Segment next h p cells none) {a : ι} (ha : Reaches next h p a) :
    a ∈ cells.map Prod.fst := by
  induction ha generalizing cells with
  | here a =>
    cases cells with
    | nil => cases hs
    | cons cell cells =>
      obtain ⟨b, v⟩ := cell
      obtain ⟨hb, -, -⟩ := hs
      obtain rfl : a = b := Option.some.inj hb
      exact List.mem_cons_self
  | there hv _ ih =>
    cases cells with
    | nil => cases hs
    | cons cell cells =>
      obtain ⟨b, w⟩ := cell
      obtain ⟨hb, hw, hrest⟩ := hs
      obtain rfl := Option.some.inj hb
      obtain rfl := Option.some.inj (hv.symm.trans hw)
      exact List.mem_cons_of_mem _ (ih hrest)

end Segment

end Memory
