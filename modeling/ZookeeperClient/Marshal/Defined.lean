import ZookeeperClient.Marshal.Calls

/-!
# Accesses to memory in the methods

`RSTRING_LEN` and `RSTRING_PTR` do not look at what they are given, and `zkrb_ruby_to_id` takes
them of the scheme and of the id of an ACL. If these are strings or `nil`, then a method accesses
no memory that is not there, whatever its arguments are.

## Main definitions

- `StringIds` — the scheme and the id of each ACL are strings
- `Defined` — no access to memory that is not there

## Main results

- `createArgs`, `setAclArgs` — the methods that convert ACLs
- `deleteArgs`, `setArgs`, `standardPreamble` — the other ones
-/

namespace ZookeeperClient

namespace Marshal

open Memory

/-- A value that `zkrb_ruby_to_id` can copy. -/
def IsRstring (v : RubyValue) : Prop :=
  v = .nil ∨ ∃ bytes, v = .str bytes

/-- The scheme and the id of each ACL are strings, which `zkrb_ruby_to_id` does not check. -/
def StringIds : RubyValue → Prop
  | .array elems => ∀ perms scheme id, .acl perms (.aclId scheme id) ∈ elems →
    IsRstring scheme ∧ IsRstring id
  | _ => True

/-- No access to memory that is not there. -/
def Defined {α : Type} (r : CResult α) : Prop :=
  r ≠ .error .undefined

namespace Defined

variable {α β σ : Type} {r : CResult α}

theorem ok (a : α) : Defined (.ok a) := nofun

theorem typeError : Defined (.error .typeError : CResult α) := nofun

theorem rangeError : Defined (.error .rangeError : CResult α) := nofun

theorem runtimeError (message : String) : Defined (.error (.runtimeError message) : CResult α) :=
  nofun

theorem bind {f : α → CResult β} (hr : Defined r) (hf : ∀ a, r = .ok a → Defined (f a)) :
    Defined (r >>= f) := by
  cases r with
  | ok a => exact hf a rfl
  | error e => exact fun he => hr (by cases he; rfl)

theorem map {f : α → β} (hr : Defined r) : Defined (r.map f) := by
  cases r with
  | ok a => exact ok _
  | error e => exact fun he => hr (by cases he; rfl)

theorem forLoop {body : ℕ → σ → CResult σ} {s : σ} {n : ℕ} (I : ℕ → σ → Prop) (h₀ : I 0 s)
    (h : ∀ k, k < n → ∀ s, I k s → Defined (body k s) ∧ ∀ s', body k s = .ok s' → I (k + 1) s') :
    Defined (Memory.forLoop body s n) ∧ ∀ s', Memory.forLoop body s n = .ok s' → I n s' := by
  induction n with
  | zero => exact ⟨ok s, fun s' hs' => Except.ok.inj hs' ▸ h₀⟩
  | succ n ih =>
    obtain ⟨hdefined, hn⟩ := ih fun k hk => h k (by omega)
    constructor
    · exact hdefined.bind fun s hs => (h n (by omega) s (hn s hs)).1
    · intro s' hs'
      obtain ⟨s, hs, hbody⟩ := bind_eq_ok.mp hs'
      exact (h n (by omega) s (hn s hs)).2 s' hbody

theorem checkInt (n : ℤ) : Defined (checkInt n) := by
  unfold ZookeeperClient.checkInt
  split
  · exact ok n
  · exact rangeError

theorem num2int (v : RubyValue) : Defined (num2int v) := by
  unfold ZookeeperClient.num2int
  split
  · exact checkInt _
  · exact checkInt _
  · exact typeError

theorem checkString (v : RubyValue) : Defined (checkString v) := by
  cases v with
  | str bytes => exact ok bytes
  | _ => exact typeError

theorem checkFixnum (v : RubyValue) : Defined (checkFixnum v) := by
  cases v with
  | int n =>
    show Defined (if IsFixnum n then _ else _)
    split
    · exact ok ()
    · exact typeError
  | _ => exact typeError

theorem dataArgs (v : RubyValue) : Defined (dataArgs v) := by
  unfold Marshal.dataArgs
  split
  · exact ok _
  · exact (checkString v).map

theorem contextAlloc (n : ℤ) (flag : RubyValue) : Defined (contextAlloc n flag) := by
  unfold Marshal.contextAlloc num2ll
  split
  · refine map ?_
    split
    · exact ok n
    · exact rangeError
  · exact ok none

theorem rstring {v : RubyValue} (hv : IsRstring v) : Defined (rstring v) := by
  obtain rfl | ⟨bytes, rfl⟩ := hv
  · exact ok none
  · exact ok (some bytes)

variable (h : CHandle) (env : Allocators)

theorem standardPreamble (reqid path async watch : RubyValue) :
    Defined (standardPreamble h reqid path async watch) := by
  cases reqid with
  | int n =>
    refine (checkString path).bind fun _ _ => ?_
    have hopen : Defined (checkOpen h) := by
      unfold checkOpen
      split
      · exact ok ()
      · exact runtimeError _
    refine hopen.bind fun _ _ => (contextAlloc n async).bind fun _ _ => ?_
    exact (contextAlloc n watch).bind fun _ _ => ok _
  | _ => exact typeError

theorem copyUnlessNil (s : Option Bytes) : Defined (copyUnlessNil env s) := by
  cases s with
  | none => exact ok none
  | some bytes =>
    show Defined ((copyRstring env bytes).map some)
    rw [copyRstring_eq]
    exact ok _

theorem zkrbRubyToAcl {rubyacl : RubyValue} (hacl : ∀ perms scheme id,
    rubyacl = .acl perms (.aclId scheme id) → IsRstring scheme ∧ IsRstring id) :
    Defined (zkrbRubyToAcl env rubyacl) := by
  have hid {rubyid : RubyValue} (hid : ∀ scheme id, rubyid = .aclId scheme id →
      IsRstring scheme ∧ IsRstring id) : Defined (zkrbRubyToId env rubyid) := by
    refine bind ?_ fun strings _ => (copyUnlessNil env _).bind fun _ _ =>
      (copyUnlessNil env _).bind fun _ _ => ok _
    cases rubyid with
    | aclId scheme id =>
      obtain ⟨hscheme, hident⟩ := hid scheme id rfl
      exact (rstring hscheme).bind fun _ _ => (rstring hident).bind fun _ _ => ok _
    | _ => exact ok _
  cases rubyacl with
  | acl perms rubyid =>
    refine (num2int perms).bind fun _ _ => bind (hid fun scheme id hrubyid => ?_) fun _ _ => ok _
    exact hacl perms scheme id (congrArg _ hrubyid)
  | _ =>
    have hnil : Defined (zkrbRubyToId env .nil) := hid fun _ _ hnil => by cases hnil
    exact (num2int .nil).bind fun _ _ => hnil.bind fun _ _ => ok _

theorem zkrbRubyToAclvector {acls : RubyValue} (hacls : StringIds acls) :
    Defined (zkrbRubyToAclvector env acls) := by
  cases acls with
  | array elems =>
    have hlength := env.aclVector.length_allocate (toInt elems.length)
    show Defined (CVector.fill OperationError.undefined (env.aclVector.allocate _)
      (env.aclVector.allocate (toInt elems.length)).count fun k =>
        Marshal.zkrbRubyToAcl env (elems.getD k .nil))
    rw [env.aclVector.count_allocate]
    generalize env.aclVector.allocate (toInt elems.length) = v at hlength ⊢
    refine bind (forLoop (fun _ data => data.length = v.data.length) rfl fun k hk data hdata =>
      ⟨?_, fun data' hround => ?_⟩).1 fun _ _ => ok _
    · refine bind (zkrbRubyToAcl env fun perms scheme id helem => ?_) fun acl _ => ?_
      · refine hacls perms scheme id ?_
        rw [List.getD_eq_getElem?_getD] at helem
        cases hget : elems[k]? with
        | none =>
          rw [hget] at helem
          cases helem
        | some elem =>
          rw [hget] at helem
          obtain rfl : elem = .acl perms (.aclId scheme id) := helem
          exact List.mem_of_getElem? hget
      · rw [store, if_pos (by omega)]
        exact ok _
    · obtain ⟨acl, -, hstore⟩ := bind_eq_ok.mp hround
      obtain ⟨-, rfl⟩ := store_eq_ok hstore
      rw [List.length_set, hdata]
  | _ => exact typeError

variable {h env} {reqid path data async acls flags version : RubyValue}

variable (h) in
theorem deleteArgs : Defined (deleteArgs h reqid path version async) := by
  refine (standardPreamble h _ _ _ _).bind fun _ _ => (checkFixnum version).bind fun _ _ => ?_
  exact (num2int version).bind fun _ _ => ok _

variable (h) in
theorem setArgs : Defined (setArgs h reqid path data async version) := by
  refine (standardPreamble h _ _ _ _).bind fun _ _ => (dataArgs data).bind fun _ _ => ?_
  exact (num2int version).bind fun _ _ => ok _

variable (h env) in
theorem createArgs (hacls : StringIds acls) :
    Defined (createArgs h env reqid path data async acls flags) := by
  have hacl : Defined (createAcl env acls) := by
    unfold Marshal.createAcl
    split
    · exact ok none
    · exact (zkrbRubyToAclvector env hacls).map
  refine (standardPreamble h _ _ _ _).bind fun _ _ => (dataArgs data).bind fun _ _ => ?_
  refine (checkFixnum flags).bind fun _ _ => hacl.bind fun _ _ => ?_
  exact (num2int flags).bind fun _ _ => ok _

variable (h env) in
theorem setAclArgs (hacls : StringIds acls) :
    Defined (setAclArgs h env reqid path acls async version) := by
  refine (standardPreamble h _ _ _ _).bind fun _ _ => ?_
  refine (zkrbRubyToAclvector env hacls).bind fun _ _ => ?_
  exact (num2int version).bind fun _ _ => ok _

end Defined

end Marshal

end ZookeeperClient
