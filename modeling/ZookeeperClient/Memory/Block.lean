import Mathlib.Data.List.TakeWhile
import Mathlib.Data.Int.Notation

/-!
# Blocks of memory, strings and counted vectors

C code that copies data works on blocks of bytes, on strings that end at the first zero byte, on
arrays that come with a count, and with loops that go through an array by its index. An access
outside of a block, through a null pointer, or of a string without a terminator, is the error
`fault`. What a fresh block holds is arbitrary.

## Main definitions

- `forLoop`, `load`, `store` — loops and array accesses
- `malloc`, `memcpy`, `strncpy` — blocks
- `CString`, `readString`, `strdup` — strings
- `CVector`, `Allocator`, `CVector.fill`, `CVector.toArray` — counted vectors

## Main results

- `forLoop_invariant` — the invariant rule
- `CVector.fill_map`, `CVector.toArray_map` — what the two kinds of copying loops compute
-/

namespace Memory

universe u v

variable {ε : Type v} {α β σ : Type u}

/-! ## Loops -/

/-- `for (k = 0; k < n; ++k) body`. -/
def forLoop (body : ℕ → σ → Except ε σ) (s : σ) : ℕ → Except ε σ
  | 0 => .ok s
  | n + 1 => (forLoop body s n).bind (body n)

/-- What holds at the start and is kept by every round holds at the end, and the loop gets
there. -/
theorem forLoop_invariant {body : ℕ → σ → Except ε σ} {s : σ} {n : ℕ} (P : ℕ → σ → Prop)
    (h0 : P 0 s)
    (hstep : ∀ k, k < n → ∀ s, P k s → ∃ s', body k s = .ok s' ∧ P (k + 1) s') :
    ∃ s', forLoop body s n = .ok s' ∧ P n s' := by
  induction n with
  | zero => exact ⟨s, rfl, h0⟩
  | succ n ih =>
    obtain ⟨s', hs', hP⟩ := ih fun k hk => hstep k (by omega)
    obtain ⟨s'', hs'', hP'⟩ := hstep n (by omega) s' hP
    refine ⟨s'', ?_, hP'⟩
    show (forLoop body s n).bind (body n) = _
    rw [hs']
    exact hs''

/-- What every round keeps holds when the loop gets to its end. -/
theorem forLoop_preserves {body : ℕ → σ → Except ε σ} {s s' : σ} {n : ℕ} (P : ℕ → σ → Prop)
    (h0 : P 0 s) (hstep : ∀ k, k < n → ∀ s s', P k s → body k s = .ok s' → P (k + 1) s')
    (h : forLoop body s n = .ok s') : P n s' := by
  induction n generalizing s' with
  | zero =>
    cases h
    exact h0
  | succ n ih =>
    have hbind : (forLoop body s n).bind (body n) = .ok s' := h
    cases hprev : forLoop body s n with
    | error e =>
      rw [hprev] at hbind
      cases hbind
    | ok s'' =>
      rw [hprev] at hbind
      exact hstep n (by omega) s'' s' (ih (fun k hk => hstep k (by omega)) hprev) hbind

section Access

variable (fault : ε)

/-- `*p`, of a pointer that may be null. -/
def deref : Option α → Except ε α
  | none => .error fault
  | some a => .ok a

/-- `data[k]`. -/
def load (data : List α) (k : ℕ) : Except ε α :=
  deref fault data[k]?

/-- `data[k] = v`. -/
def store (data : List α) (k : ℕ) (v : α) : Except ε (List α) :=
  if k < data.length then .ok (data.set k v) else .error fault

@[simp] theorem deref_some (a : α) : deref fault (some a) = .ok a := rfl

theorem load_of_lt {data : List α} {k : ℕ} (h : k < data.length) :
    load fault data k = .ok data[k] := by
  rw [load, List.getElem?_eq_getElem h]
  rfl

/-- Writing at the end of the part of an array that has been written already. -/
theorem store_append {written : List α} {data : List α} {k : ℕ} (hk : written.length = k)
    (h : k < data.length) (v : α) :
    store fault (written ++ data.drop k) k v = .ok ((written ++ [v]) ++ data.drop (k + 1)) := by
  have hlt : k < (written ++ data.drop k).length := by
    rw [List.length_append, List.length_drop]
    omega
  rw [store, if_pos hlt, List.set_append, if_neg (by omega), hk, Nat.sub_self,
    List.drop_eq_getElem_cons h, List.set_cons_zero, List.append_assoc]
  rfl

variable {fault}

theorem store_eq_ok {data data' : List α} {k : ℕ} {v : α}
    (h : store fault data k v = .ok data') : k < data.length ∧ data' = data.set k v := by
  unfold store at h
  split at h
  · next hk =>
    cases h
    exact ⟨hk, rfl⟩
  · cases h

end Access

/-! ## Blocks -/

/-- The bytes from an address to the end of its block. -/
abbrev Block := List UInt8

/-- `malloc(n)`, where the memory happens to hold `junk`. -/
def malloc (junk : ℕ → UInt8) (n : ℕ) : Block :=
  (List.range n).map junk

@[simp] theorem length_malloc (junk : ℕ → UInt8) (n : ℕ) : (malloc junk n).length = n := by
  simp [malloc]

/-- There is no zero byte in the string. -/
def NulFree (bytes : Block) : Prop :=
  0 ∉ bytes

instance (bytes : Block) : Decidable (NulFree bytes) :=
  inferInstanceAs (Decidable (¬_))

/-- The bytes before the first zero byte. -/
def upToNul (bytes : Block) : Block :=
  bytes.takeWhile (· ≠ 0)

theorem NulFree.decide_ne {bytes : Block} (h : NulFree bytes) :
    ∀ b ∈ bytes, decide (b ≠ 0) = true := by
  intro b hb
  exact decide_eq_true fun h0 => h (h0 ▸ hb)

theorem nulFree_upToNul (bytes : Block) : NulFree (upToNul bytes) := by
  intro h
  have hne := List.mem_takeWhile_imp h
  simp at hne

theorem upToNul_append {s rest : Block} (h : NulFree s) :
    upToNul (s ++ 0 :: rest) = s := by
  rw [upToNul, List.takeWhile_append_of_pos h.decide_ne, List.takeWhile_cons_of_neg (by simp),
    List.append_nil]

theorem upToNul_of_nulFree {s : Block} (h : NulFree s) : upToNul s = s :=
  List.takeWhile_eq_self_iff.mpr h.decide_ne

theorem length_upToNul_le (s : Block) : (upToNul s).length ≤ s.length :=
  (List.takeWhile_sublist _).length_le

/-- What is read up to the first zero byte is the whole exactly when there is none. -/
theorem upToNul_eq_self_iff {s : Block} : upToNul s = s ↔ NulFree s := by
  refine ⟨fun h => ?_, upToNul_of_nulFree⟩
  rw [← h]
  exact nulFree_upToNul s

section Copy

variable (fault : ε)

/-- `memcpy(dst, src, n)`. -/
def memcpy (dst src : Block) (n : ℕ) : Except ε Block :=
  if n ≤ dst.length ∧ n ≤ src.length then .ok (src.take n ++ dst.drop n) else .error fault

/-- `strncpy(dst, src, n)`: what is left of the `n` bytes after a zero byte is filled with
zeros. -/
def strncpy (dst src : Block) (n : ℕ) : Except ε Block :=
  if n ≤ dst.length ∧ (n ≤ src.length ∨ 0 ∈ src) then
    let s := upToNul (src.take n)
    .ok (s ++ List.replicate (n - s.length) 0 ++ dst.drop n)
  else .error fault

theorem memcpy_malloc (junk : ℕ → UInt8) {src : Block} {n : ℕ} (h : n ≤ src.length) :
    memcpy fault (malloc junk n) src n = .ok (src.take n) := by
  rw [memcpy, if_pos ⟨by simp, h⟩, List.drop_eq_nil_of_le (by simp), List.append_nil]

end Copy

/-! ## Strings -/

/-- A string that ends within its block. -/
structure CString where
  block : Block
  terminated : 0 ∈ block

namespace CString

/-- The bytes before the terminator. -/
def str (s : CString) : Block :=
  upToNul s.block

/-- The terminator after some bytes. -/
def ofBytes (bytes : Block) : CString :=
  ⟨bytes ++ [0], by simp⟩

theorem nulFree_str (s : CString) : NulFree s.str :=
  nulFree_upToNul s.block

/-- The same string, in a block of its own. -/
def copy (s : CString) : CString :=
  ofBytes s.str

theorem str_ofBytes {bytes : Block} (h : NulFree bytes) : (ofBytes bytes).str = bytes :=
  upToNul_append h

@[simp] theorem str_copy (s : CString) : s.copy.str = s.str :=
  str_ofBytes s.nulFree_str

theorem copy_ofBytes {bytes : Block} (h : NulFree bytes) :
    (ofBytes bytes).copy = ofBytes bytes :=
  congrArg ofBytes (str_ofBytes h)

end CString

section Strings

variable (fault : ε)

/-- The string at an address, as `strlen` finds its end. -/
def readString (block : Block) : Except ε Block :=
  if 0 ∈ block then .ok (upToNul block) else .error fault

/-- `strdup(p)`. -/
def strdup (p : Option Block) : Except ε Block := do
  let block ← deref fault p
  let s ← readString fault block
  return s ++ [0]

@[simp] theorem readString_cstring (s : CString) : readString fault s.block = .ok s.str :=
  if_pos s.terminated

@[simp] theorem strdup_cstring (s : CString) :
    strdup fault (some s.block) = .ok s.copy.block := by
  simp only [strdup, deref_some, readString_cstring, bind, Except.bind, pure, Except.pure]
  rfl

/-- What is read from an address is all of `s` exactly when `s` has no zero byte and one follows
it. -/
theorem readString_append_iff {s rest : Block} :
    readString fault (s ++ rest) = .ok s ↔ NulFree s ∧ rest.head? = some 0 := by
  constructor
  · intro h
    unfold readString at h
    split at h
    · next hmem =>
      have hs : upToNul (s ++ rest) = s := Except.ok.inj h
      have hfree : NulFree s := hs ▸ nulFree_upToNul (s ++ rest)
      refine ⟨hfree, ?_⟩
      cases rest with
      | nil => simp [NulFree] at hfree hmem; contradiction
      | cons b rest =>
        by_contra hb
        have hne : b ≠ 0 := fun h0 => hb (congrArg some h0)
        -- another byte would be read as well
        have hlen := congrArg List.length hs
        rw [upToNul, List.takeWhile_append_of_pos hfree.decide_ne,
          List.takeWhile_cons_of_pos (by simpa using hne), List.length_append,
          List.length_cons] at hlen
        omega
    · cases h
  · rintro ⟨hfree, hhead⟩
    obtain ⟨b, rest, rfl⟩ := List.exists_cons_of_ne_nil (l := rest) (by rintro rfl; cases hhead)
    obtain rfl : b = 0 := Option.some.inj hhead
    rw [readString, if_pos (by simp), upToNul_append hfree]

end Strings

/-! ## Counted vectors -/

/-- An array with its count. -/
structure CVector (α : Type u) where
  count : ℤ
  data : List α

/-- How vectors are allocated: with the count that is asked for, and room for that many. -/
structure Allocator (α : Type u) where
  allocate : ℤ → CVector α
  count_allocate (n : ℤ) : (allocate n).count = n
  length_allocate (n : ℤ) : (allocate n).data.length = n.toNat

/-- An allocator that clears the memory. -/
def Allocator.calloc (zero : α) : Allocator α where
  allocate n := ⟨n, List.replicate n.toNat zero⟩
  count_allocate _ := rfl
  length_allocate _ := List.length_replicate

namespace CVector

def ofList (elems : List α) : CVector α :=
  ⟨elems.length, elems⟩

/-- `for (k = 0; k < n; ++k) dst->data[k] = read(k)`. -/
def fill (fault : ε) (dst : CVector β) (n : ℤ) (read : ℕ → Except ε β) :
    Except ε (CVector β) := do
  let data ← forLoop (fun k data => (do let v ← read k; store fault data k v)) dst.data n.toNat
  return { dst with data := data }

/-- `for (k = 0; k < v->count; ++k) push(convert(v->data[k]))`. -/
def toArray (fault : ε) (convert : α → Except ε β) (v : CVector α) : Except ε (List β) :=
  forLoop
    (fun k ary => do
      let elem ← load fault v.data k
      let x ← convert elem
      return ary ++ [x])
    [] v.count.toNat

section Filled

variable {fault : ε} {dst v : CVector β} {n : ℤ} {read : ℕ → Except ε β}

theorem fill_eq_ok (h : fill fault dst n read = .ok v) :
    v.count = dst.count ∧
      forLoop (fun k data => (do let v ← read k; store fault data k v)) dst.data n.toNat =
        .ok v.data := by
  unfold fill at h
  cases hloop : forLoop (fun k data => (do let v ← read k; store fault data k v)) dst.data
      n.toNat with
  | error e =>
    rw [hloop] at h
    cases h
  | ok data =>
    rw [hloop] at h
    cases h
    exact ⟨rfl, rfl⟩

/-- The count of a vector does not change when it is filled. -/
theorem count_fill (h : fill fault dst n read = .ok v) : v.count = dst.count :=
  (fill_eq_ok h).1

/-- What a vector that was filled has at its positions, and no others. -/
theorem getElem?_fill (h : fill fault dst n read = .ok v) :
    v.data.length = dst.data.length ∧
      ∀ k, k < n.toNat → ∃ x, read k = .ok x ∧ v.data[k]? = some x := by
  refine forLoop_preserves
    (fun m data => data.length = dst.data.length ∧
      ∀ k, k < m → ∃ x, read k = .ok x ∧ data[k]? = some x)
    ⟨rfl, by simp⟩ ?_ (fill_eq_ok h).2
  rintro m - data data' ⟨hlen, hdata⟩ hround
  cases hread : read m with
  | error e => simp [hread, bind, Except.bind] at hround
  | ok x =>
    have hstore : store fault data m x = .ok data' := by
      simpa [hread, bind, Except.bind] using hround
    obtain ⟨hm, rfl⟩ := store_eq_ok hstore
    refine ⟨by rw [List.length_set, hlen], ?_⟩
    intro k hk
    obtain hlt | rfl := Nat.lt_succ_iff_lt_or_eq.mp hk
    · rw [List.getElem?_set_ne (by omega)]
      exact hdata k hlt
    · exact ⟨x, hread, List.getElem?_set_self hm⟩

end Filled

/-- A vector that is filled up to its end. -/
theorem fill_eq (fault : ε) {dst : CVector β} {n : ℤ} {read : ℕ → Except ε β} {l : List β}
    (hn : n.toNat = l.length) (hlen : dst.data.length = l.length)
    (hread : ∀ k (h : k < l.length), read k = .ok l[k]) :
    fill fault dst n read = .ok ⟨dst.count, l⟩ := by
  -- before round `k` the first `k` entries have been written
  have hloop : ∃ data, forLoop (fun k data => (do let v ← read k; store fault data k v))
      dst.data l.length = .ok data ∧ data = l.take l.length ++ dst.data.drop l.length := by
    refine forLoop_invariant (fun k data => data = l.take k ++ dst.data.drop k) (by simp) ?_
    rintro k hk data rfl
    refine ⟨_, ?_, rfl⟩
    have htake : (l.take k).length = k := List.length_take_of_le (by omega)
    simp only [hread k hk, bind, Except.bind]
    rw [store_append fault htake (by omega), List.take_append_getElem hk]
  obtain ⟨data, hloop, hdata⟩ := hloop
  rw [List.take_length, List.drop_eq_nil_of_le (by omega), List.append_nil] at hdata
  subst hdata
  rw [fill, hn, hloop]
  rfl

section Map

variable {γ : Type u} (fault : ε) {convert : α → Except ε β} {g : γ → α} {f : γ → β} {l : List γ}
  (h : ∀ c ∈ l, convert (g c) = .ok (f c))

include h

/-- A loop that copies the elements of an array one by one into a fresh vector. -/
theorem fill_map (A : Allocator β) :
    (A.allocate l.length).fill fault l.length
        (fun k => (load fault (l.map g) k).bind convert) =
      .ok (ofList (l.map f)) := by
  rw [fill_eq (l := l.map f) fault (by simp) (by simp [A.length_allocate])]
  · simp [ofList, A.count_allocate]
  · intro k hk
    have hk' : k < l.length := by simpa using hk
    rw [load_of_lt fault (by simpa using hk'), List.getElem_map, List.getElem_map]
    exact h _ (List.getElem_mem hk')

/-- The conversion of a vector to an array converts its elements in their order. -/
theorem toArray_map : (ofList (l.map g)).toArray fault convert = .ok (l.map f) := by
  -- before round `k` the first `k` elements have been pushed
  have hloop : ∃ ary, forLoop (fun k ary => (do
      let elem ← load fault (l.map g) k
      let x ← convert elem
      return ary ++ [x])) [] l.length = .ok ary ∧ ary = (l.take l.length).map f := by
    refine forLoop_invariant (fun k ary => ary = (l.take k).map f) (by simp) ?_
    rintro k hk ary rfl
    refine ⟨_, ?_, rfl⟩
    have hload : load fault (l.map g) k = .ok (g l[k]) := by
      rw [load_of_lt fault (by simpa using hk), List.getElem_map]
    simp only [hload, h _ (List.getElem_mem hk), bind, Except.bind, pure, Except.pure]
    rw [← List.take_append_getElem hk, List.map_append]
    rfl
  obtain ⟨ary, hloop, hary⟩ := hloop
  rw [List.take_length] at hary
  rw [← hary, ← hloop]
  unfold toArray
  congr 1
  simp [ofList]

end Map

end CVector

end Memory
