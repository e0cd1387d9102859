import ZookeeperClient.Memory.Block
import ZookeeperClient.Operations.Native
import Mathlib.Algebra.Ring.Nat
import Mathlib.Data.Int.Basic

/-!
# ACLs in memory

`ext/zookeeper_lib.c` copies lists of ACLs between Ruby objects, the structures of the C client
and Ruby hashes. Here its functions work on memory: a string is a pointer to a block that should
hold a terminator, a vector comes with a count, and what an allocation finds in memory is
arbitrary. An access to memory that is not there is `OperationError.undefined`.

## Main definitions

- `Allocators` — how memory is allocated
- `StructId`, `StructACL` — `struct Id` and `struct ACL`
- `zkrbRubyToAclvector`, `zkrbCloneAclVector`, `zkrbAclVectorToRuby` — the three loops
- `Survives` — what a list of ACLs goes through

## Main results

- `acls_survive_iff` — a list of plain ACLs survives exactly when its length is an `int`
- `not_survives` — a list that is longer
-/

namespace ZookeeperClient

open Memory

namespace RubyACL

/-- `ACL#to_hash`. -/
def toHash (acl : RubyACL) : ACLHash :=
  ⟨acl.perms, ⟨acl.id.scheme, acl.id.id⟩⟩

/-- The object, as the C code sees it. -/
def toValue (acl : RubyACL) : RubyValue :=
  .acl (.int acl.perms) (.aclId (.str acl.id.scheme) (.str acl.id.id))

/-- The numbers and strings of the ACL can be those of a `struct ACL`. -/
structure Plain (acl : RubyACL) : Prop where
  perms : FitsInt acl.perms
  scheme : NulFree acl.id.scheme
  id : NulFree acl.id.id

end RubyACL

namespace Marshal

/-- What a C function returns, or the exception that it raises. -/
abbrev CResult := Except OperationError

/-- `struct Id`: two pointers. -/
structure StructId where
  scheme : Option Block
  id : Option Block

/-- `struct ACL`. -/
structure StructACL where
  perms : ℤ
  id : StructId

/-- What `malloc`, `allocate_ACL_vector` and `allocate_String_vector` return. -/
structure Allocators where
  junk : ℕ → UInt8
  aclVector : Allocator StructACL
  stringVector : Allocator (Option Block)

/-- Memory that is cleared. -/
def Allocators.zeroed : Allocators where
  junk _ := 0
  aclVector := .calloc ⟨0, ⟨none, none⟩⟩
  stringVector := .calloc none

/-- `(int)` of a wider integer. -/
def toInt (n : ℤ) : ℤ :=
  n.bmod (2 ^ 32)

/-- The cast changes nothing exactly when the number is an `int`. -/
theorem toInt_eq_self_iff {n : ℤ} : toInt n = n ↔ FitsInt n := by
  unfold toInt FitsInt
  constructor
  · intro h
    have hlow := Int.le_bmod (x := n) (m := 2 ^ 32) (by decide)
    have hhigh := Int.bmod_lt (x := n) (m := 2 ^ 32) (by decide)
    rw [h] at hlow hhigh
    omega
  · rintro ⟨hlow, hhigh⟩
    exact Int.bmod_eq_of_le_mul_two (by omega) (by omega)

/-! ## From Ruby -/

variable (env : Allocators)

/-- The copy of a Ruby string in `zkrb_ruby_to_id`: a buffer of `RSTRING_LEN + 1` bytes,
`strncpy`, and the terminator. -/
def copyRstring (bytes : Bytes) : CResult Block := do
  let buf := malloc env.junk (bytes.length + 1)
  -- Ruby keeps a zero byte behind the bytes of a string
  let buf ← strncpy .undefined buf (bytes ++ [0]) bytes.length
  store .undefined buf bytes.length 0

/-- `NULL` for `nil`. -/
def copyUnlessNil : Option Bytes → CResult (Option Block)
  | none => .ok none
  | some bytes => (copyRstring env bytes).map some

/-- `zkrb_ruby_to_id`, whose strings are copied. -/
def zkrbRubyToId (rubyid : RubyValue) : CResult StructId := do
  let (scheme, ident) ← ZookeeperClient.zkrbRubyToId rubyid
  let scheme ← copyUnlessNil env scheme
  let ident ← copyUnlessNil env ident
  return ⟨scheme, ident⟩

/-- `zkrb_ruby_to_acl`: an object that is no ACL has `nil` for its instance variables. -/
def zkrbRubyToAcl : RubyValue → CResult StructACL
  | .acl perms rubyid => do
    let perms ← num2int perms
    let id ← zkrbRubyToId env rubyid
    return ⟨perms, id⟩
  | _ => do
    let perms ← num2int .nil
    let id ← zkrbRubyToId env .nil
    return ⟨perms, id⟩

/-- `zkrb_ruby_to_aclvector`: the length of the array is cast to `int`. -/
def zkrbRubyToAclvector : RubyValue → CResult (CVector StructACL)
  | .array elems =>
    let v := env.aclVector.allocate (toInt elems.length)
    v.fill .undefined v.count fun k => zkrbRubyToAcl env (elems.getD k .nil)
  | _ => .error .typeError

/-! ## Copies -/

/-- One round of the loop of `zkrb_clone_acl_vector`. -/
def cloneAcl (elt : StructACL) : CResult StructACL := do
  let scheme ← strdup .undefined elt.id.scheme
  let id ← strdup .undefined elt.id.id
  return ⟨elt.perms, ⟨some scheme, some id⟩⟩

def zkrbCloneAclVector (src : CVector StructACL) : CResult (CVector StructACL) :=
  (env.aclVector.allocate src.count).fill .undefined src.count fun k =>
    (load .undefined src.data k).bind cloneAcl

/-! ## To Ruby -/

/-- `rb_str_new2`. -/
def rbStrNew2 (p : Option Block) : CResult Bytes := do
  let block ← deref .undefined p
  readString .undefined block

def zkrbIdToRuby (id : StructId) : CResult IdHash := do
  let scheme ← rbStrNew2 id.scheme
  let ident ← rbStrNew2 id.id
  return ⟨scheme, ident⟩

def zkrbAclToRuby (acl : StructACL) : CResult ACLHash := do
  let id ← zkrbIdToRuby acl.id
  return ⟨acl.perms, id⟩

def zkrbAclVectorToRuby (v : CVector StructACL) : CResult (List ACLHash) :=
  v.toArray .undefined zkrbAclToRuby

/-! ## Strings that are copied -/

/-- Whatever the bytes, the copy stays inside its buffer and ends there. -/
theorem copyRstring_eq (bytes : Bytes) :
    copyRstring env bytes =
      .ok (upToNul bytes ++
        List.replicate (bytes.length - (upToNul bytes).length) 0 ++ [0]) := by
  generalize hpadded : upToNul bytes ++
    List.replicate (bytes.length - (upToNul bytes).length) 0 = padded
  have hlen : padded.length = bytes.length := by
    have hle := length_upToNul_le bytes
    rw [← hpadded, List.length_append, List.length_replicate]
    omega
  have hcopied : strncpy OperationError.undefined (malloc env.junk (bytes.length + 1))
      (bytes ++ [0]) bytes.length =
        .ok (padded ++ (malloc env.junk (bytes.length + 1)).drop bytes.length) := by
    rw [strncpy, if_pos ⟨by simp, Or.inr (by simp)⟩, List.take_left, ← hpadded]
  have hend : (malloc env.junk (bytes.length + 1)).drop (bytes.length + 1) = [] :=
    List.drop_eq_nil_of_le (by simp)
  simp only [copyRstring, hcopied, bind, Except.bind]
  rw [store_append _ hlen (by simp), hend, List.append_nil]

/-- The C client reads the copy up to the first zero byte of the string. -/
theorem readString_copyRstring {bytes : Bytes} {block : Block}
    (h : copyRstring env bytes = .ok block) :
    readString OperationError.undefined block = .ok (upToNul bytes) := by
  rw [copyRstring_eq] at h
  obtain rfl := Except.ok.inj h
  have hzeros : ∀ n : ℕ, List.replicate n (0 : UInt8) ++ [0] = 0 :: List.replicate n 0 :=
    fun n => (List.replicate_succ' (n := n) (a := (0 : UInt8))).symm.trans List.replicate_succ
  rw [List.append_assoc, hzeros, readString, if_pos (by simp),
    upToNul_append (nulFree_upToNul bytes)]

theorem copyRstring_of_nulFree {bytes : Bytes} (h : NulFree bytes) :
    copyRstring env bytes = .ok (bytes ++ [0]) := by
  rw [copyRstring_eq, upToNul_of_nulFree h, Nat.sub_self]
  simp

/-! ## Lists of ACLs that are well formed -/

/-- A `struct ACL` whose strings end. -/
structure CACL where
  perms : ℤ
  scheme : CString
  id : CString

namespace CACL

def struct (acl : CACL) : StructACL :=
  ⟨acl.perms, ⟨some acl.scheme.block, some acl.id.block⟩⟩

/-- The same ACL, in fresh memory. -/
def copy (acl : CACL) : CACL :=
  ⟨acl.perms, acl.scheme.copy, acl.id.copy⟩

/-- The ACL, without its memory. -/
def value (acl : CACL) : ACL :=
  ⟨acl.perms, ⟨acl.scheme.str, acl.id.str⟩⟩

/-- The ACL as a Ruby object. -/
def object (acl : CACL) : RubyACL :=
  ⟨acl.perms, ⟨acl.scheme.str, acl.id.str⟩⟩

theorem value_copy (acl : CACL) : acl.copy.value = acl.value := by
  simp [copy, value]

def ofRuby (acl : RubyACL) : CACL :=
  ⟨acl.perms, .ofBytes acl.id.scheme, .ofBytes acl.id.id⟩

end CACL

theorem cloneAcl_struct (acl : CACL) : cloneAcl acl.struct = .ok acl.copy.struct := by
  simp only [cloneAcl, CACL.struct, strdup_cstring, bind, Except.bind, pure, Except.pure]
  rfl

theorem zkrbAclToRuby_struct (acl : CACL) :
    zkrbAclToRuby acl.struct = .ok (ZookeeperClient.zkrbAclToRuby acl.value) := by
  simp only [zkrbAclToRuby, zkrbIdToRuby, rbStrNew2, CACL.struct, deref_some,
    readString_cstring, bind, Except.bind, pure, Except.pure]
  rfl

theorem zkrbRubyToAcl_toValue {acl : RubyACL} (h : acl.Plain) :
    zkrbRubyToAcl env acl.toValue = .ok (CACL.ofRuby acl).struct := by
  have hperms : checkInt acl.perms = .ok acl.perms := if_pos h.perms
  simp only [zkrbRubyToAcl, RubyACL.toValue, num2int, hperms, zkrbRubyToId,
    ZookeeperClient.zkrbRubyToId, rstring, copyUnlessNil, copyRstring_of_nulFree env h.scheme,
    copyRstring_of_nulFree env h.id, bind, Except.bind, pure, Except.pure, Except.map]
  rfl

/-- A clone has the same ACLs, in the same order. -/
theorem zkrbCloneAclVector_ofList (acls : List CACL) :
    zkrbCloneAclVector env (.ofList (acls.map CACL.struct)) =
      .ok (.ofList (acls.map fun acl => acl.copy.struct)) := by
  have hfill := CVector.fill_map OperationError.undefined
    (fun acl (_ : acl ∈ acls) => cloneAcl_struct acl) env.aclVector
  simpa [zkrbCloneAclVector, CVector.ofList] using hfill

theorem zkrbAclVectorToRuby_ofList (acls : List CACL) :
    zkrbAclVectorToRuby (.ofList (acls.map CACL.struct)) =
      .ok (ZookeeperClient.zkrbAclVectorToRuby (acls.map CACL.value)) := by
  have harray := CVector.toArray_map OperationError.undefined
    (fun acl (_ : acl ∈ acls) => zkrbAclToRuby_struct acl)
  rw [zkrbAclVectorToRuby, harray, ZookeeperClient.zkrbAclVectorToRuby, List.map_map]
  rfl

/-! ## The round trip -/

/-- The list is copied into a vector with its ACLs in order, their strings terminated; the
vector's clone is the same; and the ACLs that come out at the other end are those that went
in. -/
def Survives (acls : List RubyACL) : Prop :=
  ∃ v copy hashes,
    zkrbRubyToAclvector env (.array (acls.map RubyACL.toValue)) = .ok v ∧
    v.count = acls.length ∧ v.data = acls.map (fun acl => (CACL.ofRuby acl).struct) ∧
    zkrbCloneAclVector env v = .ok copy ∧ copy = v ∧
    zkrbAclVectorToRuby copy = .ok hashes ∧
    hashes.map (fun hash => (RubyACL.new hash).toHash) = acls.map RubyACL.toHash

section RoundTrip

variable {env} {acls : List RubyACL} (h : ∀ acl ∈ acls, acl.Plain)

include h

/-- An array whose length is an `int` becomes a vector of its ACLs. -/
theorem zkrbRubyToAclvector_of_plain (hlen : acls.length < 2 ^ 31) :
    zkrbRubyToAclvector env (.array (acls.map RubyACL.toValue)) =
      .ok (.ofList (acls.map fun acl => (CACL.ofRuby acl).struct)) := by
  have hcast : toInt (acls.map RubyACL.toValue).length = acls.length := by
    rw [List.length_map]
    exact toInt_eq_self_iff.mpr ⟨by omega, by omega⟩
  show CVector.fill _ (env.aclVector.allocate (toInt (acls.map RubyACL.toValue).length))
    (env.aclVector.allocate (toInt (acls.map RubyACL.toValue).length)).count _ = _
  rw [hcast, env.aclVector.count_allocate,
    CVector.fill_eq (l := acls.map fun acl => (CACL.ofRuby acl).struct)
      OperationError.undefined (by simp) (by simp [env.aclVector.length_allocate])]
  · simp [CVector.ofList, env.aclVector.count_allocate]
  · intro k hk
    have hk' : k < acls.length := by simpa using hk
    have hget : (acls.map RubyACL.toValue).getD k .nil = acls[k].toValue := by
      simp [List.getD, hk']
    rw [hget, zkrbRubyToAcl_toValue env (h _ (List.getElem_mem hk')), List.getElem_map]

/-- The clone of ACLs that came from Ruby is in the same state as the original. -/
theorem copy_ofRuby {acl : RubyACL} (hacl : acl ∈ acls) :
    (CACL.ofRuby acl).copy = CACL.ofRuby acl := by
  simp [CACL.copy, CACL.ofRuby, CString.copy_ofBytes (h acl hacl).scheme,
    CString.copy_ofBytes (h acl hacl).id]

/-- An ACL of a hash that came from memory. -/
theorem new_zkrbAclToRuby {acl : RubyACL} (hacl : acl ∈ acls) :
    RubyACL.new (ZookeeperClient.zkrbAclToRuby (CACL.ofRuby acl).value) = acl := by
  simp [RubyACL.new, ZookeeperClient.zkrbAclToRuby, ZookeeperClient.zkrbIdToRuby, CACL.value,
    CACL.ofRuby, CString.str_ofBytes (h acl hacl).scheme, CString.str_ofBytes (h acl hacl).id]

theorem survives_of_lt (hlen : acls.length < 2 ^ 31) : Survives env acls := by
  have hvector : zkrbRubyToAclvector env (.array (acls.map RubyACL.toValue)) =
      .ok (.ofList (acls.map fun acl => (CACL.ofRuby acl).struct)) :=
    zkrbRubyToAclvector_of_plain h hlen
  have hclone := zkrbCloneAclVector_ofList env (acls.map CACL.ofRuby)
  have hruby := zkrbAclVectorToRuby_ofList (acls.map CACL.ofRuby)
  have hcopy : (acls.map CACL.ofRuby).map (fun acl => acl.copy.struct) =
      (acls.map CACL.ofRuby).map CACL.struct := by
    rw [List.map_map, List.map_map]
    exact List.map_congr_left fun acl hacl => congrArg CACL.struct (copy_ofRuby h hacl)
  rw [hcopy] at hclone
  rw [List.map_map] at hclone hruby
  refine ⟨_, _, _, hvector, by simp [CVector.ofList], rfl, hclone, rfl, hruby, ?_⟩
  rw [List.map_map, ZookeeperClient.zkrbAclVectorToRuby, List.map_map, List.map_map]
  refine List.map_congr_left fun acl hacl => ?_
  show (RubyACL.new (ZookeeperClient.zkrbAclToRuby (CACL.ofRuby acl).value)).toHash = _
  rw [new_zkrbAclToRuby h hacl]

end RoundTrip

/-- **When ACLs survive.** A list of plain ACLs goes through the three loops unchanged, with
any memory behind the allocations, if and only if its length is an `int`. -/
theorem acls_survive_iff (env : Allocators) {acls : List RubyACL} (h : ∀ acl ∈ acls, acl.Plain) :
    Survives env acls ↔ acls.length < 2 ^ 31 := by
  refine ⟨?_, survives_of_lt h⟩
  rintro ⟨v, -, -, hvector, hcount, -⟩
  -- the count is the length after the cast
  have hcast : v.count = toInt (acls.map RubyACL.toValue).length :=
    (CVector.count_fill hvector).trans (env.aclVector.count_allocate _)
  rw [hcount, List.length_map] at hcast
  have hfits := toInt_eq_self_iff.mp hcast.symm
  have hhigh := hfits.2
  omega

/-- An ACL for `world:anyone`, and one for `digest:` with an empty id. -/
theorem survives_two :
    Survives .zeroed [⟨15, ⟨[119, 111, 114, 108, 100], [97, 110, 121, 111, 110, 101]⟩⟩,
      ⟨-1, ⟨[100, 105, 103, 101, 115, 116], []⟩⟩] := by
  refine (acls_survive_iff .zeroed ?_).mpr (by decide)
  intro acl hacl
  obtain rfl | rfl : acl = _ ∨ acl = _ := by simpa using hacl
  · exact ⟨by decide, by decide, by decide⟩
  · exact ⟨by decide, by decide, by decide⟩

/-- 2^31 ACLs are cast to a negative count. -/
theorem not_survives :
    ¬∀ (env : Allocators) (acls : List RubyACL), (∀ acl ∈ acls, acl.Plain) →
      Survives env acls := by
  intro hall
  have hplain : ∀ acl ∈ List.replicate (2 ^ 31) (⟨31, ⟨[97], [98]⟩⟩ : RubyACL), acl.Plain := by
    intro acl hacl
    rw [List.eq_of_mem_replicate hacl]
    exact ⟨by decide, by decide, by decide⟩
  obtain ⟨v, -, -, hvector, hcount, -⟩ := hall .zeroed _ hplain
  have hcast := (CVector.count_fill hvector).trans (Allocators.zeroed.aclVector.count_allocate _)
  rw [hcount, List.length_map, List.length_replicate] at hcast
  revert hcast
  decide

end Marshal

end ZookeeperClient
