import ZookeeperClient.Marshal.Calls
import ZookeeperClient.Text.Encoding

/-!
# Strings on their way to C

A string reaches the C client as a pointer to its bytes, as a pointer with a length, or as a copy
that `strncpy` makes. The password of a session comes back from a field of sixteen bytes, up to
the first zero byte in it.

## Main definitions

- `StringSite` — the places where a string crosses
- `StringSite.Crosses` — the string arrives as it is, or the call raises
- `StringSite.Whole` — the strings that a place lets through unchanged

## Main results

- `crosses_iff` — a zero byte ends every string that crosses without a length
- `not_crosses` — a path with a zero byte in it
-/

namespace ZookeeperClient

namespace Marshal

open Memory Text

/-- The strings of an ACL. -/
inductive AclPart where
  | scheme
  | id
  deriving DecidableEq, Repr

/-- The instance variable of a `ZookeeperACLs::Id`. -/
def AclPart.value : AclPart → RubyValue → RubyValue
  | .scheme, .aclId s _ => s
  | .id, .aclId _ s => s
  | _, _ => .nil

/-- The field of a `struct Id`. -/
def AclPart.pointer : AclPart → StructId → Option Block
  | .scheme, struct => struct.scheme
  | .id, struct => struct.id

/-- Where a string crosses. -/
inductive StringSite where
  | path (m : Meth) (s : Bytes)
  | data (m : Meth) (e : Encoding) (s : Bytes)
  | host (s : Bytes)
  /-- A string of the `k`-th of `n` ACLs. -/
  | acl (m : Meth) (part : AclPart) (n : ℕ) (k : Fin n) (s : Bytes)
  | session (cid : ClientId) (length_passwd : cid.passwd.length = 16)

namespace StringSite

/-- Whenever the operation calls the C client, with any options, the arguments satisfy `P`. -/
def Calls (m : Meth) (given : Options → Prop) (P : Options → ZooArgs → Prop) : Prop :=
  ∀ h env answer options t rv args, given options →
    ((Zookeeper.operation ZooArgs m).run (argsBase h env answer) options t).result =
      .ok (rv, some args) → P options args

/-- Wherever nothing is raised, the string that arrives is the one that was passed. -/
def Crosses : StringSite → Prop
  | .path m s => Calls m (fun options => options.get .path = .str s) fun _ args =>
      readString OperationError.undefined args.path = .ok s
  | .data m e s => Calls m
      (fun options => ∃ v, options.lookup .data = some v ∧ v.value = .str s ∧
        v.toSLength = e.chars s)
      fun _ args => ∃ d, args.data = some d ∧ clientData d = .ok (some s)
  | .host s => ∀ w timeout init, baseInit w (.str s) timeout = .ok init →
      readString OperationError.undefined init.host = .ok s
  | .acl m part n k s => Calls m
      (fun options => ∃ elems perms ident, options.get .acl = .array elems ∧ elems.length = n ∧
        elems[k.val]? = some (.acl perms ident) ∧ part.value ident = .str s)
      fun _ args => ∃ v entry, args.acl = some (some v) ∧ v.data[k.val]? = some entry ∧
        rbStrNew2 (part.pointer entry.id) = .ok s
  | .session cid _ => methodClientId cid = .ok (cid.clientId, cid.passwd)

/-- The string is read to its end: it has no zero byte, or comes with its length, or a host that
ends with a slash is not accepted. Of the ACLs, those count whose position is below the length
of the array as an `int`. -/
def Whole : StringSite → Prop
  | .path _ s => NulFree s
  | .data _ _ _ => True
  | .host s => NulFree s ∨ s.getLast? = some 47
  | .acl m _ n k s => Key.acl ∈ (Zookeeper.operation ZooArgs m).supported →
      NulFree s ∧ (k : ℤ) < toInt n
  | .session cid _ => NulFree cid.passwd ∧ cid.behind.head? = some 0

end StringSite

/-! ## Reading up to a zero byte -/

theorem readString_rstringPtr_iff {s : Bytes} :
    readString OperationError.undefined (rstringPtr s) = .ok s ↔ NulFree s :=
  (readString_append_iff _).trans (and_iff_left rfl)

theorem methodClientId_iff {cid : ClientId} :
    methodClientId cid = .ok (cid.clientId, cid.passwd) ↔
      NulFree cid.passwd ∧ cid.behind.head? = some 0 := by
  rw [← readString_append_iff OperationError.undefined]
  refine bind_pure_eq_ok.trans ?_
  constructor
  · rintro ⟨passwd, hpasswd, heq⟩
    obtain rfl : passwd = cid.passwd := congrArg Prod.snd heq
    exact hpasswd
  · exact fun h => ⟨cid.passwd, h, rfl⟩

/-- What `zookeeper_init` gets for a host that does not end with a slash. -/
theorem baseInit_of_ne {w : Words} {s : Bytes} (hslash : s.getLast? ≠ some 47)
    (timeout : RubyValue) :
    baseInit w (.str s) timeout = .ok ⟨0, rstringPtr s, toInt (w.word timeout)⟩ := by
  rw [baseInit, if_neg hslash]
  rfl

theorem host_iff (s : Bytes) : (StringSite.host s).Crosses ↔ NulFree s ∨ s.getLast? = some 47 := by
  by_cases hslash : s.getLast? = some 47
  · refine iff_of_true (fun w timeout init hinit => ?_) (Or.inr hslash)
    rw [baseInit, if_pos hslash] at hinit
    cases hinit
  · rw [or_iff_left hslash, ← readString_rstringPtr_iff]
    constructor
    · exact fun h => h .tagged .nil _ (baseInit_of_ne hslash .nil)
    · intro h w timeout init hinit
      rw [baseInit_of_ne hslash] at hinit
      cases hinit
      exact h

section Acls

variable {env : Allocators} {part : AclPart} {s : Bytes}

/-- A string that is copied is read up to its first zero byte. -/
theorem rbStrNew2_copyUnlessNil {p : Option Block} (h : copyUnlessNil env (some s) = .ok p) :
    rbStrNew2 p = .ok (upToNul s) := by
  obtain ⟨block, hblock, rfl⟩ := map_eq_ok.mp h
  exact readString_copyRstring env hblock

theorem rbStrNew2_pointer {ident : RubyValue} {struct : StructId}
    (hs : part.value ident = .str s) (h : zkrbRubyToId env ident = .ok struct) :
    rbStrNew2 (part.pointer struct) = .ok (upToNul s) := by
  obtain ⟨⟨scheme, id⟩, hpair, h⟩ := bind_eq_ok.mp h
  obtain ⟨p, hp, h⟩ := bind_eq_ok.mp h
  obtain ⟨q, hq, h⟩ := bind_eq_ok.mp h
  cases h
  cases ident with
  | aclId a b =>
    obtain ⟨scheme', hscheme, hpair⟩ := bind_eq_ok.mp hpair
    obtain ⟨id', hid, hpair⟩ := bind_eq_ok.mp hpair
    cases hpair
    cases part with
    | scheme =>
      obtain rfl : a = .str s := hs
      cases hscheme
      exact rbStrNew2_copyUnlessNil hp
    | id =>
      obtain rfl : b = .str s := hs
      cases hid
      exact rbStrNew2_copyUnlessNil hq
  | _ => cases part <;> cases hs

/-- The vector of an array of ACLs has, below its count, what became of them. -/
theorem zkrbRubyToAclvector_eq_ok {elems : List RubyValue} {v : CVector StructACL}
    (h : zkrbRubyToAclvector env (.array elems) = .ok v) :
    v.data.length = (toInt elems.length).toNat ∧
      ∀ k, k < v.data.length →
        ∃ acl, zkrbRubyToAcl env (elems.getD k .nil) = .ok acl ∧ v.data[k]? = some acl := by
  obtain ⟨hlen, hdata⟩ := CVector.getElem?_fill h
  rw [env.aclVector.length_allocate] at hlen
  refine ⟨hlen, fun k hk => hdata k ?_⟩
  rw [env.aclVector.count_allocate, ← hlen]
  exact hk

/-- The string of an ACL in the vector is the one of the ACL in the array, up to its first zero
byte. -/
theorem rbStrNew2_entry {elems : List RubyValue} {v : CVector StructACL}
    (hv : zkrbRubyToAclvector env (.array elems) = .ok v) {k : ℕ} {perms ident : RubyValue}
    (hk : elems[k]? = some (.acl perms ident)) (hs : part.value ident = .str s)
    {entry : StructACL} (hentry : v.data[k]? = some entry) :
    rbStrNew2 (part.pointer entry.id) = .ok (upToNul s) := by
  obtain ⟨hlt, -⟩ := List.getElem?_eq_some_iff.mp hentry
  obtain ⟨acl, hacl, hget⟩ := (zkrbRubyToAclvector_eq_ok hv).2 k hlt
  obtain rfl : entry = acl := Option.some.inj (hentry.symm.trans hget)
  have helem : elems.getD k .nil = .acl perms ident := by rw [List.getD, hk]; rfl
  rw [helem] at hacl
  obtain ⟨n, -, hacl⟩ := bind_eq_ok.mp hacl
  obtain ⟨struct, hstruct, hacl⟩ := bind_eq_ok.mp hacl
  cases hacl
  exact rbStrNew2_pointer hs hstruct

end Acls

/-! ## Calls -/

/-- Options of an operation. -/
def sampleOptions (m : Meth) (path : Bytes) (acls : List RubyValue) : Options :=
  let options : Options :=
    [(.path, ⟨.str path, 0, ⟨0, false⟩⟩), (.callback, ⟨.other none none none, 0, ⟨1, true⟩⟩)]
  match m with
  | .create | .setAcl => (.acl, ⟨.array acls, 0, ⟨2, false⟩⟩) :: options
  | _ => options

/-- A handle that is open. -/
def sampleHandle : CHandle where
  host := []
  state := 3
  connected := true
  isOpen := true
  answer := ⟨ZOK, none, ⟨0, 0, 0, 0, 0, 0, 0, 0, 0, 0, 0⟩, [], [], [], true⟩

section Call

variable (h : CHandle) (env : Allocators) (answer : ZooArgs → BaseReturn) (reqId : ℤ)
  (options : Options)

theorem call_create :
    (Zookeeper.operation ZooArgs .create).call (argsBase h env answer) reqId options =
      (createArgs h env (.int reqId) (options.get .path) (options.get .data)
        (options.get .callback) (options.get .acl) (.int (createFlags options))).map
          fun args => (answer args, some args) := rfl

theorem call_setAcl :
    (Zookeeper.operation ZooArgs .setAcl).call (argsBase h env answer) reqId options =
      (setAclArgs h env (.int reqId) (options.get .path) (options.get .acl)
        (options.get .callback) (options.get .version)).map
          fun args => (answer args, some args) := rfl

end Call

/-- An operation calls the C client, whatever its path is, if its ACLs are accepted. -/
theorem run_sample (m : Meth) (path : Bytes) {acls : List RubyValue} {v : CVector StructACL}
    (hv : zkrbRubyToAclvector .zeroed (.array acls) = .ok v) :
    ∃ rv args, ((Zookeeper.operation ZooArgs m).run
      (argsBase sampleHandle .zeroed fun _ => { rc := ZOK }) (sampleOptions m path acls)
      ⟨0, fun _ => none, fun _ => none⟩).result = .ok (rv, some args) := by
  cases m with
  | create =>
    have hacl : createAcl .zeroed (.array acls) = .ok (some v) := by
      show (zkrbRubyToAclvector .zeroed (.array acls)).map some = _
      rw [hv]
      rfl
    let args : ZooArgs :=
      { path := rstringPtr path, callback := some ⟨0⟩, data := some (none, -1),
        acl := some (some v), flags := some 0 }
    have hargs : createArgs sampleHandle .zeroed (.int 0) (.str path) .nil
        (.other none none none) (.array acls) (.int 0) = .ok args := by
      unfold createArgs
      rw [hacl]
      rfl
    have hcall : (Zookeeper.operation ZooArgs .create).call
        (argsBase sampleHandle .zeroed fun _ => { rc := ZOK }) 0
        ((Zookeeper.operation ZooArgs .create).withDefault (sampleOptions .create path acls)) =
          .ok ({ rc := ZOK }, some args) := by
      rw [call_create]
      exact congrArg (Except.map _) hargs
    exact ⟨_, args, Operation.result_of_call rfl hcall⟩
  | setAcl =>
    let args : ZooArgs :=
      { path := rstringPtr path, callback := some ⟨0⟩, acl := some (some v),
        version := some (-1) }
    have hargs : setAclArgs sampleHandle .zeroed (.int 0) (.str path) (.array acls)
        (.other none none none) (.int (-1)) = .ok args := by
      unfold setAclArgs
      rw [hv]
      rfl
    have hcall : (Zookeeper.operation ZooArgs .setAcl).call
        (argsBase sampleHandle .zeroed fun _ => { rc := ZOK }) 0
        ((Zookeeper.operation ZooArgs .setAcl).withDefault (sampleOptions .setAcl path acls)) =
          .ok ({ rc := ZOK }, some args) := by
      rw [call_setAcl]
      exact congrArg (Except.map _) hargs
    exact ⟨_, args, Operation.result_of_call rfl hcall⟩
  | _ => exact ⟨_, _, rfl⟩

/-! ## The places -/

/-- An id with the string in its place. -/
def sampleId (s : Bytes) : AclPart → RubyValue
  | .scheme => .aclId (.str s) .nil
  | .id => .aclId .nil (.str s)

def sampleAcl (part : AclPart) (s : Bytes) : RubyValue :=
  .acl (.int 0) (sampleId s part)

theorem path_iff (m : Meth) (s : Bytes) : (StringSite.path m s).Crosses ↔ NulFree s := by
  rw [← readString_rstringPtr_iff]
  constructor
  · intro h
    have hempty : zkrbRubyToAclvector .zeroed (.array []) = .ok ⟨0, []⟩ := rfl
    obtain ⟨rv, args, hrun⟩ := run_sample m s hempty
    have hgiven : (sampleOptions m s []).get .path = .str s := by cases m <;> rfl
    obtain ⟨⟨s', hs', hpath⟩, -, -⟩ := passedBy_of_run hrun
    obtain rfl : s = s' := RubyValue.str.inj (hgiven.symm.trans hs')
    rw [← hpath]
    exact h _ _ _ _ _ _ _ hgiven hrun
  · intro h handle env answer options t rv args hgiven hrun
    obtain ⟨⟨s', hs', hpath⟩, -, -⟩ := passedBy_of_run hrun
    obtain rfl : s = s' := RubyValue.str.inj (hgiven.symm.trans hs')
    rw [hpath]
    exact h

theorem exists_zkrbRubyToAcl (env : Allocators) (part : AclPart) (s : Bytes) :
    ∃ entry, zkrbRubyToAcl env (sampleAcl part s) = .ok entry := by
  obtain ⟨block, hcopy⟩ : ∃ block, copyRstring env s = .ok block := ⟨_, copyRstring_eq env s⟩
  obtain ⟨struct, hid⟩ : ∃ struct, zkrbRubyToId env (sampleId s part) = .ok struct := by
    cases part <;>
      simp [zkrbRubyToId, ZookeeperClient.zkrbRubyToId, sampleId, rstring, copyUnlessNil, hcopy,
        bind, Except.bind, Except.map, pure, Except.pure]
  have hperms : num2int (.int 0) = .ok 0 := rfl
  refine ⟨⟨0, struct⟩, ?_⟩
  simp only [zkrbRubyToAcl, sampleAcl, hperms, hid, bind, Except.bind, pure, Except.pure]

theorem toInt_natCast_le (n : ℕ) : toInt n ≤ n := by
  unfold toInt Int.bmod
  dsimp only
  split <;> omega

/-- An array that has one ACL several times is accepted, whatever its length. -/
theorem exists_zkrbRubyToAclvector (env : Allocators) (part : AclPart) (s : Bytes) (n : ℕ) :
    ∃ v, zkrbRubyToAclvector env (.array (List.replicate n (sampleAcl part s))) = .ok v := by
  obtain ⟨entry, hentry⟩ := exists_zkrbRubyToAcl env part s
  have hread : ∀ k (h : k < (List.replicate (toInt n).toNat entry).length),
      zkrbRubyToAcl env ((List.replicate n (sampleAcl part s)).getD k .nil) =
        .ok (List.replicate (toInt n).toNat entry)[k] := by
    intro k hk
    have hcount : k < (toInt n).toNat := by simpa using hk
    have hle := toInt_natCast_le n
    have helem : (List.replicate n (sampleAcl part s)).getD k .nil = sampleAcl part s := by
      rw [List.getD, List.getElem?_replicate_of_lt (by omega)]
      rfl
    rw [helem, hentry, List.getElem_replicate]
  have hfill : (env.aclVector.allocate (toInt n)).fill OperationError.undefined (toInt n)
      (fun k => zkrbRubyToAcl env ((List.replicate n (sampleAcl part s)).getD k .nil)) = .ok _ :=
    CVector.fill_eq OperationError.undefined (by simp) (by simp [env.aclVector.length_allocate])
      hread
  refine ⟨⟨(env.aclVector.allocate (toInt n)).count, List.replicate (toInt n).toNat entry⟩, ?_⟩
  unfold zkrbRubyToAclvector
  dsimp only
  rw [List.length_replicate, env.aclVector.count_allocate (toInt n)]
  rw [env.aclVector.count_allocate (toInt n)] at hfill
  exact hfill

theorem get_acl_sampleOptions {m : Meth} (path : Bytes) (acls : List RubyValue)
    (h : Key.acl ∈ (Zookeeper.operation ZooArgs m).supported) :
    (sampleOptions m path acls).get .acl = .array acls := by
  cases m with
  | create | setAcl => rfl
  | _ => exact absurd h (by decide)

theorem acl_iff (m : Meth) (part : AclPart) (n : ℕ) (k : Fin n) (s : Bytes) :
    (StringSite.acl m part n k s).Crosses ↔
      (Key.acl ∈ (Zookeeper.operation ZooArgs m).supported → NulFree s ∧ (k : ℤ) < toInt n) := by
  constructor
  · intro h hsupported
    obtain ⟨v, hv⟩ := exists_zkrbRubyToAclvector .zeroed part s n
    obtain ⟨rv, args, hrun⟩ := run_sample m [] hv
    have hget := get_acl_sampleOptions [] (List.replicate n (sampleAcl part s)) hsupported
    have helem : (List.replicate n (sampleAcl part s))[k.val]? = some (sampleAcl part s) :=
      List.getElem?_replicate_of_lt k.isLt
    have hvalue : part.value (sampleId s part) = .str s := by cases part <;> rfl
    obtain ⟨v', entry, hargs, hentry, hread⟩ := h _ _ _ _ _ _ _
      ⟨_, _, _, hget, List.length_replicate, helem, hvalue⟩ hrun
    obtain ⟨v'', hv', hargs'⟩ := (passedBy_of_run hrun).acl hsupported _ hget
    obtain rfl : v' = v'' := Option.some.inj (Option.some.inj (hargs.symm.trans hargs'))
    rw [rbStrNew2_entry hv' helem hvalue hentry] at hread
    refine ⟨upToNul_eq_self_iff.mp (Except.ok.inj hread), ?_⟩
    obtain ⟨hlt, -⟩ := List.getElem?_eq_some_iff.mp hentry
    rw [(zkrbRubyToAclvector_eq_ok hv').1, List.length_replicate] at hlt
    omega
  · intro hwhole h env answer options t rv args hgiven hrun
    obtain ⟨elems, perms, ident, hget, rfl, helem, hvalue⟩ := hgiven
    obtain ⟨option, hlookup, -⟩ := Options.lookup_of_get hget nofun
    have hsupported := supported_of_check (Operation.run_eq_ok hrun).1 hlookup
    obtain ⟨hfree, hk⟩ := hwhole hsupported
    obtain ⟨v, hv, hargs⟩ := (passedBy_of_run hrun).acl hsupported elems hget
    have hlt : k.val < v.data.length := by
      rw [(zkrbRubyToAclvector_eq_ok hv).1]
      omega
    refine ⟨v, _, hargs, List.getElem?_eq_getElem hlt, ?_⟩
    rw [rbStrNew2_entry hv helem hvalue (List.getElem?_eq_getElem hlt), upToNul_of_nulFree hfree]

/-- Data that is accepted is short enough for an `int`, whatever its encoding. -/
theorem crosses_data (m : Meth) (e : Encoding) (s : Bytes) : (StringSite.data m e s).Crosses := by
  rintro h env answer options t rv args ⟨v, hlookup, hvalue, hchars⟩ hrun
  obtain ⟨hcheck, -⟩ := Operation.run_eq_ok hrun
  obtain ⟨d, hd, hargs⟩ := (passedBy_of_run hrun).data (supported_of_check hcheck hlookup)
  have hget : options.get .data = .str s := by rw [Options.get, hlookup, ← hvalue]; rfl
  rw [hget] at hd
  refine ⟨d, hargs, (clientData_of_dataArgs ?_ hd).2⟩
  have hbytes := e.length_le_mul_chars s
  have hsize := toSLength_of_check hcheck hlookup hvalue
  rw [hchars] at hsize
  omega

/-- **Which strings cross unchanged.** At every place, the string that arrives wherever the call
does not raise is the one that was passed, and the session's id and password are those of the C
client, if and only if nothing is lost of it at a zero byte or with the position of its ACL. -/
theorem crosses_iff (site : StringSite) : site.Crosses ↔ site.Whole := by
  cases site with
  | path m s => exact path_iff m s
  | data m e s => exact iff_of_true (crosses_data m e s) trivial
  | host s => exact host_iff s
  | acl m part n k s => exact acl_iff m part n k s
  | session cid length_passwd => exact methodClientId_iff

/-- The path `/a\0b` names the node `/a`. -/
theorem not_crosses : ¬∀ site : StringSite, site.Crosses := by
  intro hall
  have hfree := (path_iff .delete [47, 97, 0, 98]).mp (hall _)
  exact absurd hfree (by decide)

end Marshal

end ZookeeperClient
