import ZookeeperClient.Operations.Backends

/-!
# The arguments that both backends accept

A backend checks the values of the options by converting them: the C extension to C types, the
Java backend to the parameter types of the Java client. What is accepted by one may raise in the
other.

## Main definitions

- `ArgsFit` — the arguments of an operation fit both backends
- `Succeeds` — a computation returns normally
- `NativeArgs`, `JavaArgs` — the conversions of each backend succeed

## Main results

- `argsFit_iff` — the arguments fit exactly if the conversions of both backends succeed
-/

namespace ZookeeperClient

/-! ## Arguments that fit -/

/-- A version is an `int`, or left to its default. -/
def VersionFits (options : Options) : Prop :=
  (options.get .version).truthy = true → ∃ n, options.get .version = .int n ∧ FitsInt n

/-- The permissions of an ACL are an `int`, or an object that `to_int` and `to_i` both turn into
one. -/
inductive PermsFit : RubyValue → Prop where
  | int {n : ℤ} (hn : FitsInt n) : PermsFit (.int n)
  | other {n m : ℤ} {toA : Option (List RubyValue)} (hn : FitsInt n) (hm : FitsInt m) :
      PermsFit (.other (some n) (some m) toA)

/-- A scheme or an id is a string or `nil`. -/
inductive NameFits : RubyValue → Prop where
  | nil : NameFits .nil
  | str {bytes : Bytes} : NameFits (.str bytes)

/-- An array of `ZookeeperACLs::ACL` objects whose parts fit. -/
inductive AclFits : RubyValue → Prop where
  | array {elems : List RubyValue} (helems : ∀ v ∈ elems, ∃ perms scheme id,
      v = .acl perms (.aclId scheme id) ∧ PermsFit perms ∧ NameFits scheme ∧ NameFits id) :
      AclFits (.array elems)

/-- The arguments of an operation fit both backends. -/
def ArgsFit (methName : Meth) (options : Options) : Prop :=
  (∃ path, options.get .path = .str path) ∧
    match methName with
    | .set => (∃ data, options.get .data = .str data) ∧ VersionFits options
    | .create => (options.get .data = .nil ∨ ∃ data, options.get .data = .str data) ∧
        ((options.get .acl).truthy = true → AclFits (options.get .acl))
    | .delete => VersionFits options
    | .setAcl => (options.get .callback).truthy = false ∧ AclFits (options.get .acl) ∧
        VersionFits options
    | .get | .getChildren | .getAcl | .stat | .sync => True

/-! ## Computations that return normally -/

section Succeeds

variable {ε α β : Type}

/-- The computation returns normally. -/
def Succeeds (x : Except ε α) : Prop :=
  ∃ a, x = .ok a

theorem succeeds_ok (a : α) : Succeeds (.ok a : Except ε α) := ⟨a, rfl⟩

theorem not_succeeds_error (e : ε) :
    ¬Succeeds (.error e : Except ε α) := nofun

/-- A computation of two steps, of which the second does not depend on the result of the
first. -/
theorem succeeds_bind {x : Except ε α}
    {f : α → Except ε β} {p : Prop} (hf : ∀ a, Succeeds (f a) ↔ p) :
    Succeeds (x >>= f) ↔ Succeeds x ∧ p := by
  cases x with
  | error e => exact ⟨nofun, fun h => absurd h.1 (not_succeeds_error e)⟩
  | ok a => exact ⟨fun h => ⟨succeeds_ok a, (hf a).1 h⟩, fun h => (hf a).2 h.2⟩

theorem succeeds_bind_pure {x : Except ε α} {f : α → β} :
    Succeeds (x >>= fun a => pure (f a)) ↔ Succeeds x :=
  (succeeds_bind fun a => iff_of_true (succeeds_ok (f a)) trivial).trans (and_iff_left trivial)

theorem then_eq_ok {x : Except ε α} {y : Except ε β}
    {b : β} : (x >>= fun _ => y) = .ok b ↔ Succeeds x ∧ y = .ok b := by
  cases x with
  | error e => exact ⟨nofun, fun h => absurd h.1 (not_succeeds_error e)⟩
  | ok a => exact ⟨fun h => ⟨succeeds_ok a, h⟩, fun h => h.2⟩

theorem map_eq_ok {f : α → β} {x : Except ε α} {b : β} :
    x.map f = .ok b ↔ ∃ a, x = .ok a ∧ f a = b := by
  cases x with
  | error e => exact ⟨nofun, nofun⟩
  | ok a => simp [Except.map]

theorem bind_pure_eq_ok {x : Except ε α} {f : α → β} {b : β} :
    (x >>= fun a => pure (f a)) = .ok b ↔ ∃ a, x = .ok a ∧ f a = b := by
  cases x with
  | error e => exact ⟨nofun, nofun⟩
  | ok a =>
    constructor
    · exact fun h => ⟨a, rfl, Except.ok.inj h⟩
    · rintro ⟨_, ⟨⟩, rfl⟩
      rfl

theorem succeeds_mapM {f : α → Except ε β} {as : List α} :
    Succeeds (as.mapM f) ↔ ∀ a ∈ as, Succeeds (f a) := by
  induction as with
  | nil => exact ⟨nofun, fun _ => succeeds_ok _⟩
  | cons a as ih =>
    rw [List.mapM_cons, List.forall_mem_cons, ← ih]
    cases f a with
    | error e => exact ⟨nofun, fun h => absurd h.1 (not_succeeds_error e)⟩
    | ok b =>
      cases as.mapM f with
      | error e => exact ⟨nofun, fun h => absurd h.2 (not_succeeds_error e)⟩
      | ok bs => exact ⟨fun _ => ⟨succeeds_ok b, succeeds_ok bs⟩, fun _ => succeeds_ok _⟩

end Succeeds

theorem succeeds_checkString {v : RubyValue} : Succeeds (checkString v) ↔ ∃ s, v = .str s := by
  cases v with
  | str s => exact ⟨fun _ => ⟨s, rfl⟩, fun _ => succeeds_ok s⟩
  | _ => exact ⟨nofun, nofun⟩

theorem succeeds_javaPath {v : RubyValue} : Succeeds (javaPath v) ↔ ∃ s, v = .str s := by
  cases v with
  | str s => exact ⟨fun _ => ⟨s, rfl⟩, fun _ => succeeds_ok s⟩
  | _ => exact ⟨nofun, nofun⟩

theorem succeeds_toJavaBytes {v : RubyValue} : Succeeds (toJavaBytes v) ↔ ∃ s, v = .str s := by
  cases v with
  | str s => exact ⟨fun _ => ⟨s, rfl⟩, fun _ => succeeds_ok s⟩
  | _ => exact ⟨nofun, nofun⟩

theorem succeeds_checkInt {n : ℤ} : Succeeds (checkInt n) ↔ FitsInt n := by
  unfold checkInt
  split
  · next h => exact ⟨fun _ => h, fun _ => succeeds_ok n⟩
  · next h => exact ⟨nofun, fun hn => absurd hn h⟩

theorem succeeds_version {v : RubyValue} :
    Succeeds (num2int v) ∧ Succeeds (javaInt v) ↔ ∃ n, v = .int n ∧ FitsInt n := by
  cases v with
  | int n =>
    refine ⟨fun h => ⟨n, rfl, succeeds_checkInt.1 h.2⟩, ?_⟩
    rintro ⟨_, ⟨⟩, hn⟩
    exact ⟨succeeds_checkInt.2 hn, succeeds_checkInt.2 hn⟩
  | _ => exact ⟨fun h => absurd h.2 (not_succeeds_error _), nofun⟩

/-- So is one for `delete`, where the C backend asks for a Fixnum. -/
theorem succeeds_deleteVersion {v : RubyValue} :
    Succeeds (fix2int v) ∧ Succeeds (javaInt v) ↔ ∃ n, v = .int n ∧ FitsInt n := by
  cases v with
  | int n =>
    refine ⟨fun h => ⟨n, rfl, succeeds_checkInt.1 h.2⟩, ?_⟩
    rintro ⟨_, ⟨⟩, hn⟩
    refine ⟨?_, succeeds_checkInt.2 hn⟩
    obtain ⟨hlow, hhigh⟩ := hn
    have hfix : -2 ^ 62 ≤ n ∧ n < 2 ^ 62 := by constructor <;> omega
    simp only [fix2int, if_pos hfix]
    exact succeeds_checkInt.2 ⟨hlow, hhigh⟩
  | _ => exact ⟨fun h => absurd h.2 (not_succeeds_error _), nofun⟩

theorem succeeds_perms {v : RubyValue} :
    Succeeds (num2int v) ∧ (∃ n, v.toI = some n ∧ FitsInt n) ↔ PermsFit v := by
  cases v with
  | int n =>
    refine ⟨fun h => .int (succeeds_checkInt.1 h.1), ?_⟩
    rintro ⟨hn⟩
    exact ⟨succeeds_checkInt.2 hn, n, rfl, hn⟩
  | other toInt toI toA =>
    cases toInt with
    | none => exact ⟨fun h => absurd h.1 (not_succeeds_error _), nofun⟩
    | some n =>
      constructor
      · rintro ⟨hn, m, hm, hfits⟩
        obtain rfl : toI = some m := hm
        exact .other (succeeds_checkInt.1 hn) hfits
      · rintro ⟨hn, hm⟩
        exact ⟨succeeds_checkInt.2 ‹_›, _, rfl, ‹_›⟩
  | _ => exact ⟨fun h => absurd h.1 (not_succeeds_error _), nofun⟩

theorem succeeds_rstring {v : RubyValue} : Succeeds (rstring v) ↔ NameFits v := by
  cases v with
  | nil => exact ⟨fun _ => .nil, fun _ => succeeds_ok none⟩
  | str s => exact ⟨fun _ => .str, fun _ => succeeds_ok (some s)⟩
  | _ => exact ⟨nofun, nofun⟩

theorem succeeds_aclEntry {v : RubyValue} :
    Succeeds (zkrbRubyToAcl v) ∧ Succeeds (fromRubyAcl v) ↔
      ∃ perms scheme id, v = .acl perms (.aclId scheme id) ∧ PermsFit perms ∧ NameFits scheme ∧
        NameFits id := by
  -- an object of another kind is accepted by neither
  have hno {w : RubyValue} (hw : ¬Succeeds (fromRubyAcl w))
      (hp : ∀ perms scheme id, w ≠ .acl perms (.aclId scheme id)) :
      Succeeds (zkrbRubyToAcl w) ∧ Succeeds (fromRubyAcl w) ↔ ∃ perms scheme id,
        w = .acl perms (.aclId scheme id) ∧ PermsFit perms ∧ NameFits scheme ∧ NameFits id :=
    ⟨fun h => absurd h.2 hw, fun ⟨perms, scheme, id, h, _⟩ => absurd h (hp perms scheme id)⟩
  cases v with
  | acl perms id =>
    cases id with
    | aclId scheme ident =>
      have hnative : Succeeds (zkrbRubyToAcl (.acl perms (.aclId scheme ident))) ↔
          Succeeds (num2int perms) ∧ Succeeds (rstring scheme) ∧ Succeeds (rstring ident) := by
        have hid : Succeeds (zkrbRubyToId (.aclId scheme ident)) ↔
            Succeeds (rstring scheme) ∧ Succeeds (rstring ident) :=
          succeeds_bind fun _ => succeeds_bind_pure
        exact succeeds_bind fun _ => succeeds_bind_pure.trans hid
      have hjava : Succeeds (fromRubyAcl (.acl perms (.aclId scheme ident))) ↔
          ∃ n, perms.toI = some n ∧ FitsInt n := by
        simp only [fromRubyAcl]
        cases perms.toI with
        | none => exact ⟨nofun, nofun⟩
        | some n =>
          simp only [Option.some.injEq, exists_eq_left']
          exact succeeds_bind_pure.trans succeeds_checkInt
      rw [hnative, hjava, succeeds_rstring, succeeds_rstring]
      constructor
      · rintro ⟨⟨hperms, hscheme, hident⟩, hint⟩
        exact ⟨perms, scheme, ident, rfl, succeeds_perms.1 ⟨hperms, hint⟩, hscheme, hident⟩
      · rintro ⟨_, _, _, ⟨⟩, hperms, hscheme, hident⟩
        obtain ⟨hnum, hint⟩ := succeeds_perms.2 hperms
        exact ⟨⟨hnum, hscheme, hident⟩, hint⟩
    | _ => exact hno (not_succeeds_error _) nofun
  | _ => exact hno (not_succeeds_error _) nofun

theorem flatten_of_acls {elems : List RubyValue}
    (h : ∀ v ∈ elems, ∃ perms id, v = .acl perms id) : RubyValue.flatten elems = elems := by
  induction elems with
  | nil => rfl
  | cons v elems ih =>
    obtain ⟨⟨perms, id, rfl⟩, hrest⟩ := List.forall_mem_cons.1 h
    rw [RubyValue.flatten, RubyValue.flat, ih hrest]
    · rfl
    · nofun

/-- What the C backend accepts in an array of ACLs has permissions. -/
theorem acl_of_succeeds {v : RubyValue} (h : Succeeds (zkrbRubyToAcl v)) :
    ∃ perms id, v = .acl perms id := by
  cases v with
  | acl perms id => exact ⟨perms, id, rfl⟩
  | _ => exact absurd h (not_succeeds_error _)

/-- An ACL that the C backend accepts for an array, and the Java backend as well, flattened or
not. -/
theorem succeeds_acl {v : RubyValue} {flattened : List RubyValue}
    (hflat : flattened = v.toArray ∨ flattened = RubyValue.flatten v.toArray) :
    Succeeds (zkrbRubyToAclvector v) ∧ Succeeds (flattened.mapM fromRubyAcl) ↔ AclFits v := by
  cases v with
  | array elems =>
    have hsame (hacls : ∀ v ∈ elems, ∃ perms id, v = .acl perms id) : flattened = elems := by
      obtain rfl | rfl := hflat
      · rfl
      · exact flatten_of_acls hacls
    constructor
    · rintro ⟨hnative, hjava⟩
      have hentries := succeeds_mapM.1 hnative
      rw [hsame fun v hv => acl_of_succeeds (hentries v hv)] at hjava
      exact .array fun v hv => succeeds_aclEntry.1 ⟨hentries v hv, succeeds_mapM.1 hjava v hv⟩
    · rintro ⟨helems⟩
      have hboth (v : RubyValue) (hv : v ∈ elems) := succeeds_aclEntry.2 (helems v hv)
      rw [hsame fun v hv => acl_of_succeeds (hboth v hv).1]
      exact ⟨succeeds_mapM.2 fun v hv => (hboth v hv).1,
        succeeds_mapM.2 fun v hv => (hboth v hv).2⟩
  | _ => exact ⟨fun h => absurd h.1 (not_succeeds_error _), nofun⟩

/-! ## The arguments of an operation -/

/-- The C backend accepts the arguments. -/
def NativeArgs (methName : Meth) (options : Options) : Prop :=
  Succeeds (checkString (options.get .path)) ∧
    match methName with
    | .set => Succeeds (unlessNil checkString (options.get .data)) ∧
        Succeeds (num2int (options.get .version))
    | .create => Succeeds (unlessNil checkString (options.get .data)) ∧
        Succeeds (unlessNil zkrbRubyToAclvector (options.get .acl))
    | .delete => Succeeds (fix2int (options.get .version))
    | .setAcl => Succeeds (zkrbRubyToAclvector (options.get .acl)) ∧
        Succeeds (num2int (options.get .version))
    | .get | .getChildren | .getAcl | .stat | .sync => True

/-- The Java backend accepts the arguments. -/
def JavaArgs (methName : Meth) (options : Options) : Prop :=
  Succeeds (javaPath (options.get .path)) ∧
    match methName with
    | .set => Succeeds (toJavaBytes (options.get .data)) ∧
        Succeeds (javaInt
          (if (options.get .version).truthy then options.get .version else .int (-1)))
    | .create => Succeeds (toJavaBytes
          (if (options.get .data).truthy then options.get .data else .str [])) ∧
        Succeeds ((options.get .acl).toArray.mapM fromRubyAcl)
    | .delete => Succeeds (javaInt (options.get .version))
    | .setAcl => Succeeds ((RubyValue.flatten (options.get .acl).toArray).mapM fromRubyAcl) ∧
        Succeeds (javaInt (options.get .version))
    | .get | .getChildren | .getAcl | .stat | .sync => True

theorem succeeds_path {v : RubyValue} :
    Succeeds (checkString v) ∧ Succeeds (javaPath v) ↔ ∃ path, v = .str path := by
  rw [succeeds_checkString, succeeds_javaPath, and_self]

/-- The data of a `set`: that of the Java backend must be there. -/
theorem succeeds_setData {v : RubyValue} :
    Succeeds (unlessNil checkString v) ∧ Succeeds (toJavaBytes v) ↔ ∃ data, v = .str data := by
  rw [succeeds_toJavaBytes]
  refine ⟨And.right, ?_⟩
  rintro ⟨data, rfl⟩
  exact ⟨succeeds_ok (), data, rfl⟩

theorem succeeds_createData {v : RubyValue} :
    Succeeds (unlessNil checkString v) ∧
        Succeeds (toJavaBytes (if v.truthy then v else .str [])) ↔
      v = .nil ∨ ∃ data, v = .str data := by
  cases v with
  | nil => exact iff_of_true ⟨succeeds_ok (), succeeds_ok []⟩ (.inl rfl)
  | str data => exact iff_of_true ⟨succeeds_ok (), succeeds_ok data⟩ (.inr ⟨data, rfl⟩)
  | _ =>
    refine iff_of_false (fun h => not_succeeds_error _ h.1) ?_
    rintro (h | ⟨_, h⟩) <;> cases h

theorem versionFits_iff {options : Options} :
    (∃ n, (options.orAssign .version anyVersion).get .version = .int n ∧ FitsInt n) ↔
      VersionFits options := by
  rw [Options.get_orAssign_self]
  unfold VersionFits
  split
  · next h => exact ⟨fun hn _ => hn, fun hn => hn h⟩
  · next h => exact iff_of_true ⟨-1, rfl, by decide⟩ fun h' => absurd h' h

/-- The version of a `set`, whose Java method has the same default once more. -/
theorem succeeds_setVersion {options : Options} :
    Succeeds (num2int ((options.orAssign .version anyVersion).get .version)) ∧
        Succeeds (javaInt
          (if ((options.orAssign .version anyVersion).get .version).truthy then
            (options.orAssign .version anyVersion).get .version
          else .int (-1))) ↔
      VersionFits options := by
  have htruthy : ((options.orAssign .version anyVersion).get .version).truthy = true := by
    rw [Options.get_orAssign_self]
    split
    · assumption
    · rfl
  rw [if_pos htruthy]
  exact succeeds_version.trans versionFits_iff

/-- The open ACL, which is the default of a `create`. -/
theorem aclFits_open : AclFits zooOpenAclUnsafe.value := by
  refine .array fun v hv => ?_
  obtain rfl := List.mem_singleton.1 hv
  exact ⟨_, _, _, rfl, .int (by decide), .str, .str⟩

theorem succeeds_createAcl {options : Options} :
    Succeeds (unlessNil zkrbRubyToAclvector
          ((options.orAssign .acl zooOpenAclUnsafe).get .acl)) ∧
        Succeeds (((options.orAssign .acl zooOpenAclUnsafe).get .acl).toArray.mapM fromRubyAcl) ↔
      ((options.get .acl).truthy = true → AclFits (options.get .acl)) := by
  have hunless {v : RubyValue} (hv : v.truthy = true) :
      Succeeds (unlessNil zkrbRubyToAclvector v) ↔ Succeeds (zkrbRubyToAclvector v) := by
    have hbind : Succeeds (zkrbRubyToAclvector v >>= fun _ => pure ()) ↔
        Succeeds (zkrbRubyToAclvector v) := succeeds_bind_pure
    cases v with
    | nil => cases hv
    | _ => exact hbind
  rw [Options.get_orAssign_self]
  split
  · next h =>
    rw [hunless h, succeeds_acl (.inl rfl)]
    exact ⟨fun hfits _ => hfits, fun hfits => hfits h⟩
  · next h =>
    rw [hunless rfl, succeeds_acl (.inl rfl)]
    exact iff_of_true aclFits_open fun h' => absurd h' h

/-- Both backends accept the arguments, and the Java backend the callback. -/
theorem argsFit_iff {methName : Meth} {options : Options} (hm : methName.compared = true) :
    (NativeArgs methName ((Zookeeper.operation CompletionFn methName).withDefault options) ∧
        JavaArgs methName ((Zookeeper.operation JavaCallback methName).withDefault options)) ∧
        ((options.get .callback).truthy = true → methName ≠ .setAcl) ↔
      ArgsFit methName options := by
  have hkey {key : Key} (hversion : key ≠ .version) (hacl : key ≠ .acl) :
      ((Zookeeper.operation CompletionFn methName).withDefault options).get key =
        options.get key :=
    Zookeeper.get_withDefault methName options hversion hacl
  have hsame : (Zookeeper.operation JavaCallback methName).withDefault options =
      (Zookeeper.operation CompletionFn methName).withDefault options := by
    cases methName <;> rfl
  unfold NativeArgs JavaArgs ArgsFit
  rw [hsame, hkey (by decide) (by decide), ← succeeds_path, hkey (by decide) (by decide)]
  -- the conversions of the two backends are paired up argument by argument
  cases methName with
  | get | getChildren | getAcl => simp
  | set =>
    refine (and_iff_left nofun).trans (and_and_and_comm.trans (and_congr_right' ?_))
    exact and_and_and_comm.trans (and_congr succeeds_setData succeeds_setVersion)
  | create =>
    refine (and_iff_left nofun).trans (and_and_and_comm.trans (and_congr_right' ?_))
    exact and_and_and_comm.trans (and_congr succeeds_createData succeeds_createAcl)
  | delete =>
    refine (and_iff_left nofun).trans (and_and_and_comm.trans (and_congr_right' ?_))
    exact succeeds_deleteVersion.trans versionFits_iff
  | setAcl =>
    have hcallback : ((options.get .callback).truthy = true → Meth.setAcl ≠ .setAcl) ↔
        (options.get .callback).truthy = false := by
      simp
    have hacl : (options.orAssign .version anyVersion).get .acl = options.get .acl :=
      Options.get_orAssign_of_ne _ (by decide)
    rw [hcallback, ← hacl]
    refine (and_congr_left' and_and_and_comm).trans (and_assoc.trans (and_congr_right' ?_))
    refine and_comm.trans (and_congr_right' (and_and_and_comm.trans ?_))
    exact and_congr (succeeds_acl (.inr rfl)) (succeeds_version.trans versionFits_iff)
  | stat | sync => cases hm

end ZookeeperClient
