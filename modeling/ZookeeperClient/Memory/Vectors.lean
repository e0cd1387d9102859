import ZookeeperClient.Memory.Block
import ZookeeperClient.Memory.Triple

/-!
# Counted vectors in blocks of their own

A counted vector takes two blocks: its head has the count and a pointer to the data, which is null
for a vector without elements, and the data is an array of fixed length. The elements may own
blocks themselves, which `E c a` says of an element `c` that stands for the value `a`.

## Main definitions

- `Layout`, `VectorLayout` — which contents of a block are of which kind
- `ptrAt`, `listAt`, `VectorLayout.vectorAt` — pointers, arrays and vectors with what they own
- `VectorLayout.fill`, `collect`, `forEach`, `deallocate` — the loops over a vector

## Main results

- `fill_triple` — a vector that is allocated and filled is the one that `CVector.fill` computes
- `collect_triple` — a vector that is read stays as it is
- `forEach_triple`, `deallocate_triple` — which blocks are left of a vector that is freed
-/

namespace Memory

open scoped Pointwise

/-- How contents of one kind are written to a block and read from it. -/
structure Layout (ν κ : Type) where
  put : κ → ν
  get : ν → Option κ
  get_put : ∀ x, get (put x) = some x

section Values

variable {ν κ α : Type}

/-- A pointer that is null for `none`, and otherwise owns what is there. -/
def ptrAt (A : ℕ → α → Assertion ν) : Option ℕ → Option α → Assertion ν
  | none, none => 0
  | some p, some a => A p a
  | none, some _ => ∅
  | some _, none => ∅

theorem ptrAt_none {A : ℕ → α → Assertion ν} {a : Option α} : ptrAt A none a ⊆ 0 := by
  cases a with
  | none => exact subset_rfl
  | some a => exact Set.empty_subset _

/-- The elements of an array, with what each of them owns. -/
def listAt (E : κ → α → Assertion ν) : List κ → List α → Assertion ν
  | [], [] => 0
  | c :: cs, a :: as => E c a + listAt E cs as
  | [], _ :: _ => ∅
  | _ :: _, [] => ∅

variable {E : κ → α → Assertion ν} {cs : List κ} {as : List α}
  {own : Multiset (ℕ × ν)}

@[simp] theorem listAt_nil : listAt E [] [] = 0 := rfl

theorem listAt_cons (c : κ) (a : α) :
    listAt E (c :: cs) (a :: as) = E c a + listAt E cs as := rfl

theorem length_of_mem_listAt (h : own ∈ listAt E cs as) : cs.length = as.length := by
  induction cs generalizing as own with
  | nil =>
    cases as with
    | nil => rfl
    | cons a as => cases h
  | cons c cs ih =>
    cases as with
    | nil => cases h
    | cons a as =>
      obtain ⟨-, -, rest, hrest, -⟩ := h
      exact congrArg Nat.succ (ih hrest)

/-- An array has as many elements as it stands for. -/
theorem listAt_eq_fact (E : κ → α → Assertion ν) (cs : List κ) (as : List α) :
    listAt E cs as = fact (cs.length = as.length) + listAt E cs as := by
  ext own
  rw [mem_fact_add]
  exact ⟨fun h => ⟨length_of_mem_listAt h, h⟩, And.right⟩

theorem listAt_append {ds : List κ} {bs : List α} (hlen : cs.length = as.length) :
    listAt E (cs ++ ds) (as ++ bs) = listAt E cs as + listAt E ds bs := by
  induction cs generalizing as with
  | nil =>
    obtain rfl : as = [] := List.eq_nil_of_length_eq_zero hlen.symm
    exact (zero_add _).symm
  | cons c cs ih =>
    cases as with
    | nil => cases hlen
    | cons a as =>
      rw [List.cons_append, List.cons_append, listAt_cons, listAt_cons, ih (Nat.succ.inj hlen),
        add_assoc]

/-- One element, and the rest. -/
theorem listAt_eraseIdx {k : ℕ} (hlen : cs.length = as.length) (hk : k < cs.length)
    (hk' : k < as.length) :
    listAt E cs as = E cs[k] as[k] + listAt E (cs.eraseIdx k) (as.eraseIdx k) := by
  rw [List.eraseIdx_eq_take_drop_succ, List.eraseIdx_eq_take_drop_succ,
    listAt_append (by simp [hlen])]
  conv_lhs => rw [← List.take_append_drop k cs, ← List.take_append_drop k as]
  rw [listAt_append (by simp [hlen]), List.drop_eq_getElem_cons hk, List.drop_eq_getElem_cons hk',
    listAt_cons, add_left_comm]

end Values

/-! ## Freeing what a pointer owns -/

namespace Triple

variable {ν α β : Type} {A : ℕ → α → Assertion ν} {P : Assertion ν}
  {Q : β → Assertion ν}

/-- `free(p)`, where there is one block or none. -/
theorem freePtr {p : Option ℕ} {a : Option α} (hA : ∀ q a, ∃ v, A q a = pointsTo q v) :
    Triple (ptrAt A p a) (Prog.freePtr p) fun _ => 0 := by
  cases p with
  | none =>
    cases a with
    | none => exact ret subset_rfl
    | some a => exact of_empty
  | some p =>
    cases a with
    | none => exact of_empty
    | some a =>
      obtain ⟨v, hv⟩ := hA p a
      exact free.pre hv

/-- A pointer to a fresh copy, or null. -/
theorem unlessNull {γ δ : Type} {f : δ → Prog ν ℕ} {k : γ → δ} {g : γ → α} {c : Option γ}
    (h : ∀ x, Triple 0 (f (k x)) fun p => A p (g x)) :
    Triple 0 (Prog.unlessNull f (c.map k)) fun p => ptrAt A p (c.map g) := by
  cases c with
  | none => exact ret subset_rfl
  | some x => exact (h x).bind fun p => ret subset_rfl

/-- What a pointer points to is read, unless the pointer is null. -/
theorem unlessNull_read {f : ℕ → Prog ν α} {p : Option ℕ} {a : Option α}
    (h : ∀ q x, a = some x → Reads (A q x) (f q) x) :
    Reads (ptrAt A p a) (Prog.unlessNull f p) a := by
  cases p with
  | none =>
    cases a with
    | none => exact Reads.ret none
    | some a => exact of_empty
  | some p =>
    cases a with
    | none => exact of_empty
    | some a => exact (h p a rfl).bind (Reads.ret (some a))

end Triple

/-! ## Vectors -/

/-- The layout of the head and of the data, and the element that an array consists of at first. -/
structure VectorLayout (ν κ : Type) where
  head : Layout ν (ℤ × Option ℕ)
  data : Layout ν (List κ)
  zero : κ

namespace VectorLayout

variable {ν κ α : Type} (L : VectorLayout ν κ)

/-- `allocate_T_vector(dst, len)`: a negative length is more than `calloc` can allocate. -/
def allocate (dst : ℕ) (len : ℤ) : Prog ν Unit :=
  if len = 0 then Prog.store dst (L.head.put (0, none))
  else if 0 < len then do
    let data ← Prog.alloc (L.data.put (List.replicate len.toNat L.zero))
    Prog.store dst (L.head.put (len, some data))
  else Prog.store dst (L.head.put (len, none))

/-- The address of the data. -/
def dataPtr (v : ℕ) : Prog ν ℕ := do
  let head ← Prog.loadAs L.head.get v
  Prog.ofOption head.2

/-- `v->data[k]`. -/
def getElem (v k : ℕ) : Prog ν κ := do
  let data ← L.dataPtr v
  let elems ← Prog.loadAs L.data.get data
  Prog.ofOption elems[k]?

/-- `v->data[k] = x`. -/
def setElem (v k : ℕ) (x : κ) : Prog ν Unit := do
  let data ← L.dataPtr v
  let elems ← Prog.loadAs L.data.get data
  if k < elems.length then Prog.store data (L.data.put (elems.set k x)) else Prog.fault

/-- A vector is allocated, and its elements are made one by one. -/
def fill (n : ℤ) (make : ℕ → Prog ν κ) : Prog ν ℕ := do
  -- what the new head contains
  let dst ← Prog.alloc (L.head.put (0, none))
  let () ← L.allocate dst n
  let () ← Prog.forLoop (fun k () => (do let x ← make k; L.setElem dst k x)) () n.toNat
  return dst

/-- `for (k = 0; k < v->count; ++k) push(read(v->data[k]))`. -/
def collect (read : κ → Prog ν α) (v : ℕ) : Prog ν (CVector α) := do
  let head ← Prog.loadAs L.head.get v
  let elems ← Prog.forLoop (fun k elems => (do
    let x ← L.getElem v k
    let a ← read x
    return elems ++ [a])) [] head.1.toNat
  return ⟨head.1, elems⟩

/-- `for (k = 0; k < v->count; ++k) visit(v->data[k])`. -/
def forEach (visit : κ → Prog ν Unit) (v : ℕ) : Prog ν Unit := do
  let head ← Prog.loadAs L.head.get v
  Prog.forLoop (fun k () => (do let x ← L.getElem v k; visit x)) () head.1.toNat

/-- `deallocate_T_vector(v)`, whose elements are replaced by what is left of them. -/
def deallocate (dealloc : κ → Prog ν κ) (v : ℕ) : Prog ν Unit := do
  let head ← Prog.loadAs L.head.get v
  match head.2 with
  | none => pure ()
  | some data => do
    let () ← Prog.forLoop (fun k () => (do
      let x ← L.getElem v k
      let x ← dealloc x
      L.setElem v k x)) () head.1.toNat
    let () ← Prog.free data
    Prog.store v (L.head.put (head.1, none))

/-! ### What a vector owns -/

variable (E : κ → α → Assertion ν)

/-- The data of a vector: null if there are no elements. -/
def arrayAt : Option ℕ → List α → Assertion ν
  | none, as => fact (as = [])
  | some data, as => fact (as ≠ []) + ⋃ cs, (pointsTo data (L.data.put cs) + listAt E cs as)

/-- A vector, with its elements. -/
def vectorAt (p : ℕ) (v : CVector α) : Assertion ν :=
  ⋃ data, (pointsTo p (L.head.put (v.count, data)) + L.arrayAt E data v.data)

/-- The data of a vector of length `n` that has just been allocated. -/
def cleared (n : ℤ) : Option ℕ → Assertion ν
  | none => fact (n ≤ 0)
  | some data => fact (0 < n) + pointsTo data (L.data.put (List.replicate n.toNat L.zero))

/-- An array of `n` elements that own nothing any more; none at all if `n` is 0. -/
def dangling : ℕ → Assertion ν
  | 0 => 0
  | n + 1 => ⋃ data, ⋃ cs, fact (cs.length = n + 1) + pointsTo data (L.data.put cs)

variable {L E}

/-! ### Access to the elements -/

variable {p d k : ℕ} {n : ℤ} {cs : List κ} {as : List α}

theorem dataPtr_triple : Reads (pointsTo p (L.head.put (n, some d))) (L.dataPtr p) d :=
  (Triple.loadAs (L.head.get_put _)).bind (Reads.ofOption rfl)

theorem getElem_triple {c : κ} (hc : cs[k]? = some c) :
    Reads (pointsTo p (L.head.put (n, some d)) + pointsTo d (L.data.put cs)) (L.getElem p k)
      c := by
  refine (dataPtr_triple.frame _ rfl).bind ?_
  refine Reads.bind ?_ (Reads.ofOption hc)
  exact (Triple.loadAs (L.data.get_put cs)).frame _ (add_comm _ _)

theorem setElem_triple (x : κ) (hk : k < cs.length) :
    Triple (pointsTo p (L.head.put (n, some d)) + pointsTo d (L.data.put cs)) (L.setElem p k x)
      fun _ => pointsTo p (L.head.put (n, some d)) + pointsTo d (L.data.put (cs.set k x)) := by
  refine dataPtr_triple.step_eq _ rfl ?_
  refine (Triple.loadAs (L.data.get_put cs)).step_eq _ (add_comm _ _) ?_
  rw [if_pos hk]
  refine ((Triple.store _).frame _).post fun _ => ?_
  rw [add_comm]

/-- One element, and those before and after it. -/
theorem listAt_focus (hlen : cs.length = as.length) (hk : k < cs.length) (hk' : k < as.length) :
    listAt E cs as = listAt E (cs.take k) (as.take k) +
      (E cs[k] as[k] + listAt E (cs.drop (k + 1)) (as.drop (k + 1))) := by
  conv_lhs => rw [← List.take_append_drop k cs, ← List.take_append_drop k as]
  rw [listAt_append (by simp [hlen]), List.drop_eq_getElem_cons hk, List.drop_eq_getElem_cons hk']
  rfl

/-! ### The loops -/

variable {v : CVector α}

/-- No elements, no block. -/
theorem arrayAt_nil {data : Option ℕ} : L.arrayAt E data [] ⊆ 0 := by
  cases data with
  | none => exact (fact_of rfl).subset
  | some d => exact fun own hown => absurd rfl (mem_fact_add.mp hown).1

@[simp] theorem dangling_zero : L.dangling 0 = 0 := rfl

theorem pointsTo_subset_dangling (hcs : cs.length ≠ 0) :
    pointsTo d (L.data.put cs) ⊆ L.dangling cs.length := by
  obtain ⟨n, hn⟩ := Nat.exists_eq_succ_of_ne_zero hcs
  intro own hown
  rw [hn]
  refine Set.mem_iUnion.mpr ⟨d, Set.mem_iUnion.mpr ⟨cs, ?_⟩⟩
  exact mem_fact_add.mpr ⟨hn, hown⟩

/-- Each element is visited once, and what it owned is gone. -/
theorem forEach_triple {visit : κ → Prog ν Unit}
    (hvisit : ∀ c, ∀ a ∈ v.data, Triple (E c a) (visit c) fun _ => 0)
    (hcount : v.data.length = v.count.toNat) :
    Triple (L.vectorAt E p v) (L.forEach visit p)
      fun _ => (⋃ data, pointsTo p (L.head.put (v.count, data))) + L.dangling v.data.length := by
  have hhead (data : Option ℕ) : pointsTo p (L.head.put (v.count, data)) ⊆
      ⋃ data, pointsTo p (L.head.put (v.count, data)) :=
    Set.subset_iUnion (fun data => pointsTo p (L.head.put (v.count, data))) data
  refine Triple.of_iUnion fun data => ?_
  refine Triple.loadAs_bind (L.head.get_put _) ?_
  show Triple _ (Prog.forLoop _ () v.count.toNat) _
  rw [← hcount]
  cases data with
  | none =>
    rw [add_comm]
    refine Triple.of_fact fun hnil => ?_
    rw [hnil]
    refine Triple.ret ?_
    rw [List.length_nil, dangling_zero, add_zero]
    exact hhead none
  | some d =>
    rw [arrayAt, add_left_comm]
    refine Triple.of_fact fun hne => ?_
    rw [add_comm]
    refine Triple.of_iUnion_add fun cs => ?_
    rw [listAt_eq_fact, add_left_comm, add_assoc]
    refine Triple.of_fact fun hlen => ?_
    rw [add_right_comm, add_comm (pointsTo d _)]
    -- in round `k` the elements from `k` on have not been visited
    have hloop := Triple.forLoop (f := fun k () => (do let x ← L.getElem p k; visit x))
      (s := ()) (n := v.data.length)
      (fun k _ => pointsTo p (L.head.put (v.count, some d)) + pointsTo d (L.data.put cs) +
        listAt E (cs.drop k) (v.data.drop k)) fun k hk s => ?_
    · refine hloop.post fun _ => ?_
      rw [List.drop_of_length_le hlen.le, List.drop_length, listAt_nil, add_zero, ← hlen]
      refine Set.add_subset_add (hhead (some d)) (pointsTo_subset_dangling ?_)
      simpa [hlen] using hne
    · have hk' : k < cs.length := by omega
      rw [List.drop_eq_getElem_cons hk', List.drop_eq_getElem_cons hk]
      refine (getElem_triple (List.getElem?_eq_getElem hk')).step_eq _ rfl ?_
      rw [listAt_cons, add_left_comm]
      refine ((hvisit _ _ (List.getElem_mem hk)).frame _).post fun _ => ?_
      rw [zero_add]

/-- Everything is freed but the head. -/
theorem deallocate_triple {dealloc : κ → Prog ν κ}
    (hdealloc : ∀ c, ∀ a ∈ v.data, Triple (E c a) (dealloc c) fun _ => 0)
    (hcount : v.data.length = v.count.toNat) :
    Triple (L.vectorAt E p v) (L.deallocate dealloc p)
      fun _ => ⋃ data, pointsTo p (L.head.put (v.count, data)) := by
  have hhead (data : Option ℕ) : pointsTo p (L.head.put (v.count, data)) ⊆
      ⋃ data, pointsTo p (L.head.put (v.count, data)) :=
    Set.subset_iUnion (fun data => pointsTo p (L.head.put (v.count, data))) data
  refine Triple.of_iUnion fun data => ?_
  refine Triple.loadAs_bind (L.head.get_put _) ?_
  cases data with
  | none =>
    rw [add_comm]
    exact Triple.of_fact fun _ => Triple.ret (hhead none)
  | some d =>
    rw [arrayAt, add_left_comm]
    refine Triple.of_fact fun _ => ?_
    -- in round `k` the elements from `k` on have not been freed
    let I : ℕ → Unit → Assertion ν := fun k _ =>
      ⋃ cs, (fact (cs.length = v.data.length) +
        (pointsTo p (L.head.put (v.count, some d)) + pointsTo d (L.data.put cs) +
          listAt E (cs.drop k) (v.data.drop k)))
    have hround (k : ℕ) (hk : k < v.data.length) (s : Unit) :
        Triple (I k s) (do
          let x ← L.getElem p k
          let x ← dealloc x
          L.setElem p k x) (I (k + 1)) := by
      refine Triple.of_iUnion fun cs => Triple.of_fact fun hlen => ?_
      have hk' : k < cs.length := by omega
      rw [List.drop_eq_getElem_cons hk', List.drop_eq_getElem_cons hk]
      refine (getElem_triple (List.getElem?_eq_getElem hk')).step_eq _ rfl ?_
      rw [listAt_cons, add_left_comm]
      refine (hdealloc _ _ (List.getElem_mem hk)).step _ rfl fun x => ?_
      rw [zero_add]
      refine ((setElem_triple x hk').frame _).post fun _ => ?_
      refine Set.subset_iUnion_of_subset (cs.set k x) ?_
      rw [List.drop_set_of_lt (Nat.lt_succ_self k), List.length_set]
      exact subset_fact_add hlen
    have hloop := Triple.forLoop (s := ()) I hround
    rw [hcount] at hloop
    refine hloop.mono ?_ (fun _ => subset_rfl) |>.bind fun _ => ?_
    · rw [Set.add_iUnion]
      refine Set.iUnion_subset fun cs => Set.subset_iUnion_of_subset cs ?_
      rw [listAt_eq_fact, add_left_comm (pointsTo d _), add_left_comm, ← add_assoc (pointsTo p _)]
      rfl
    · refine Triple.of_iUnion fun cs => Triple.of_fact fun hlen => ?_
      rw [← hcount, List.drop_of_length_le hlen.le, List.drop_length, listAt_nil, add_zero,
        add_comm]
      refine Triple.free_bind ?_
      exact (Triple.store _).post fun _ => hhead none

/-- The values of a vector are read, and the vector stays as it is. -/
theorem collect_triple {read : κ → Prog ν α}
    (hread : ∀ c, ∀ a ∈ v.data, Reads (E c a) (read c) a)
    (hcount : v.data.length = v.count.toNat) :
    Reads (L.vectorAt E p v) (L.collect read p) v := by
  have hvector (data : Option ℕ) :
      pointsTo p (L.head.put (v.count, data)) + L.arrayAt E data v.data ⊆ L.vectorAt E p v :=
    Set.subset_iUnion
      (fun data => pointsTo p (L.head.put (v.count, data)) + L.arrayAt E data v.data) data
  refine Triple.of_iUnion fun data => ?_
  refine Triple.loadAs_bind (L.head.get_put _) ?_
  cases data with
  | none =>
    rw [add_comm]
    refine Triple.of_fact fun hnil => ?_
    have hzero : v.count.toNat = 0 := by rw [← hcount, hnil, List.length_nil]
    have hv : (⟨v.count, []⟩ : CVector α) = v := by rw [← hnil]
    show Triple _ (Prog.forLoop _ [] v.count.toNat >>= _) _
    rw [hzero]
    refine Triple.ret (Set.Subset.trans ?_ (subset_fact_add hv))
    refine Set.Subset.trans ?_ (hvector none)
    rw [arrayAt, fact_of hnil, add_zero]
  | some d =>
    rw [arrayAt, add_left_comm]
    refine Triple.of_fact fun hne => ?_
    rw [add_comm]
    refine Triple.of_iUnion_add fun cs => ?_
    rw [listAt_eq_fact, add_left_comm, add_assoc]
    refine Triple.of_fact fun hlen => ?_
    rw [add_right_comm, add_comm (pointsTo d _)]
    -- before round `k` the first `k` values have been read
    have hloop := Triple.forLoop (s := []) (n := v.data.length)
      (f := fun k elems => (do
        let x ← L.getElem p k
        let a ← read x
        return elems ++ [a]))
      (fun k elems => fact (elems = v.data.take k) +
        (pointsTo p (L.head.put (v.count, some d)) + pointsTo d (L.data.put cs) +
          listAt E cs v.data)) fun k hk elems => ?_
    · rw [fact_add_of List.take_zero.symm, hcount] at hloop
      refine hloop.step_eq 0 (add_zero _).symm (Triple.ret ?_)
      rw [add_zero, ← hcount, List.take_length]
      refine Set.Subset.trans ?_ (subset_fact_add rfl)
      refine Set.Subset.trans ?_ (hvector (some d))
      rw [arrayAt, fact_add_of hne, add_assoc]
      refine Set.add_subset_add_left ?_
      exact Set.subset_iUnion (fun cs => pointsTo d (L.data.put cs) + listAt E cs v.data) cs
    · refine Triple.of_fact fun helems => ?_
      have hk' : k < cs.length := by omega
      refine (getElem_triple (List.getElem?_eq_getElem hk')).step_eq _ rfl ?_
      rw [listAt_focus hlen hk' hk, add_left_comm (listAt E (cs.take k) _), add_left_comm]
      refine (hread _ _ (List.getElem_mem hk)).step_eq _ rfl ?_
      refine Triple.ret (subset_fact_add ?_)
      rw [helems, List.take_append_getElem]

/-- What `allocate` leaves: a head, and data if there are to be elements. -/
theorem allocate_triple {x : ℤ × Option ℕ} :
    Triple (pointsTo p (L.head.put x)) (L.allocate p n) fun _ =>
      ⋃ data, (pointsTo p (L.head.put (n, data)) + L.cleared n data) := by
  unfold allocate
  split
  · next h0 =>
    subst h0
    refine (Triple.store _).post fun _ => Set.subset_iUnion_of_subset none ?_
    rw [cleared, fact_of le_rfl, add_zero]
  · split
    · next hn =>
      refine Triple.alloc_bind _ fun d => ?_
      rw [add_comm]
      refine ((Triple.store _).frame _).post fun _ => Set.subset_iUnion_of_subset (some d) ?_
      rw [cleared, fact_add_of hn]
    · next hn =>
      refine (Triple.store _).post fun _ => Set.subset_iUnion_of_subset none ?_
      rw [cleared, fact_of (by omega), add_zero]

/-- **A vector is filled** as `CVector.fill` does it, each element in blocks of its own. -/
theorem fill_triple {ε : Type} {fault : ε} {A : Allocator α} {read : ℕ → Except ε α}
    {make : ℕ → Prog ν κ} (hfill : (A.allocate n).fill fault n read = .ok v)
    (hmake : ∀ k a, read k = .ok a → Triple 0 (make k) fun c => E c a) :
    Triple 0 (L.fill n make) fun p => L.vectorAt E p v := by
  have hcount : v.count = n := (CVector.count_fill hfill).trans (A.count_allocate n)
  obtain ⟨hlength, helems⟩ := CVector.getElem?_fill hfill
  rw [A.length_allocate] at hlength
  refine Triple.alloc_bind _ fun p => ?_
  rw [add_zero]
  refine allocate_triple.bind fun _ => Triple.of_iUnion fun data => ?_
  cases data with
  | none =>
    rw [cleared, add_comm]
    refine Triple.of_fact fun hn => ?_
    have hzero : n.toNat = 0 := by omega
    rw [hzero]
    refine Triple.ret (Set.subset_iUnion_of_subset none ?_)
    rw [hcount, arrayAt, fact_of (List.eq_nil_of_length_eq_zero (by omega)), add_zero]
  | some d =>
    rw [cleared, add_left_comm]
    refine Triple.of_fact fun hn => ?_
    -- before round `k` the first `k` elements have been made
    have hloop := Triple.forLoop (s := ()) (n := n.toNat)
      (f := fun k () => (do let x ← make k; L.setElem p k x))
      (fun k _ => ⋃ cs, (fact (cs.length = n.toNat) +
        (pointsTo p (L.head.put (n, some d)) + pointsTo d (L.data.put cs) +
          listAt E (cs.take k) (v.data.take k)))) fun k hk _ => ?_
    · refine (hloop.mono ?_ fun _ => subset_rfl).bind fun _ => ?_
      · refine Set.subset_iUnion_of_subset (List.replicate n.toNat L.zero) ?_
        rw [fact_add_of List.length_replicate, List.take_zero, List.take_zero, listAt_nil,
          add_zero]
      · refine Triple.of_iUnion fun cs => Triple.of_fact fun hcs => Triple.ret ?_
        refine Set.subset_iUnion_of_subset (some d) ?_
        have hne : v.data ≠ [] := List.ne_nil_of_length_pos (by omega)
        rw [hcount, arrayAt, fact_add_of hne, add_assoc]
        refine Set.add_subset_add_left (Set.subset_iUnion_of_subset cs ?_)
        rw [List.take_of_length_le hcs.le, List.take_of_length_le hlength.le]
    · refine Triple.of_iUnion fun cs => Triple.of_fact fun hcs => ?_
      obtain ⟨a, ha, hget⟩ := helems k hk
      refine (hmake k a ha).step _ (zero_add _).symm fun c => ?_
      rw [add_left_comm]
      refine ((setElem_triple c (by omega)).frame _).post fun _ => ?_
      refine Set.subset_iUnion_of_subset (cs.set k c) ?_
      rw [List.length_set, fact_add_of hcs, List.take_add_one, List.take_add_one, hget,
        List.take_set_of_le le_rfl, List.getElem?_set_self (by omega),
        listAt_append (by simp; omega), add_comm (E c a)]
      exact Set.add_subset_add_left (Set.add_subset_add_left (add_zero (E c a)).ge)

end VectorLayout

end Memory
