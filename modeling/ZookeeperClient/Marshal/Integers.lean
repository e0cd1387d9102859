import ZookeeperClient.Marshal.Calls

/-!
# Integers on their way to C

An integer reaches the C client through a conversion that raises when it does not fit, through a
conversion to `int64_t` as the id of a request, or as the bare word that Ruby has for it.

## Main definitions

- `IntSite` — the places where an integer crosses
- `CrossesUnchanged` — the integer arrives as it is, or the call raises
- `Converted` — the integers that a place lets through unchanged

## Main results

- `crossesUnchanged_iff` — the session timeout and the log level cross as words
- `not_crossesUnchanged` — a session timeout of 10000 milliseconds
-/

namespace ZookeeperClient

namespace Marshal

/-- Where an integer crosses. -/
inductive IntSite where
  | sessionTimeout
  | logLevel
  | createFlags
  | deleteVersion
  | setVersion
  | setAclVersion
  | perms
  | reqId
  /-- The request id of an event. -/
  | reportedReqId
  deriving DecidableEq, Repr

/-- Wherever the call does not raise, what arrives is the integer. -/
def CrossesUnchanged (w : Words) (env : Allocators) (n : ℤ) : IntSite → Prop
  | .sessionTimeout => ∀ host level init,
      zkrbInit w host level (.int n) = .ok init → init.recvTimeout = n
  | .logLevel => ∀ host timeout init,
      zkrbInit w host (.int n) timeout = .ok init → init.debugLevel = n
  | .createFlags => ∀ h reqid path data async acls args,
      createArgs h env reqid path data async acls (.int n) = .ok args → args.flags = some n
  | .deleteVersion => ∀ h reqid path async args,
      deleteArgs h reqid path (.int n) async = .ok args → args.version = some n
  | .setVersion => ∀ h reqid path data async args,
      setArgs h reqid path data async (.int n) = .ok args → args.version = some n
  | .setAclVersion => ∀ h reqid path acls async args,
      setAclArgs h env reqid path acls async (.int n) = .ok args → args.version = some n
  | .perms => ∀ id acl, zkrbRubyToAcl env (.acl (.int n) id) = .ok acl → acl.perms = n
  | .reqId => ∀ h path async watch args,
      standardPreamble h (.int n) path async watch = .ok args →
        ∀ ctx, args.callback = some ctx ∨ args.watch = some ctx → ctx.reqId = n
  | .reportedReqId => ∀ inv raw,
      ((Invocation.run env ⟨n⟩ inv).bind zkrbEventToRuby) = .ok raw → raw.reqId = n

/-- The integers that cross unchanged, or make the call raise. -/
def Converted (n : ℤ) : IntSite → Prop
  | .sessionTimeout => n = -1
  | .logLevel => n = -1 ∨ ¬IsFixnum n
  | _ => True

/-! ## Words -/

theorem fitsInt_toInt (n : ℤ) : FitsInt (toInt n) := by
  have hlow := Int.le_bmod (x := n) (m := 2 ^ 32) (by decide)
  have hhigh := Int.bmod_lt (x := n) (m := 2 ^ 32) (by decide)
  unfold toInt FitsInt
  omega

/-- The only Fixnum whose word is cast to itself. -/
theorem toInt_tagged_iff {n : ℤ} : toInt (2 * n + 1) = n ↔ n = -1 := by
  constructor
  · intro h
    have hfits := fitsInt_toInt (2 * n + 1)
    rw [h] at hfits
    -- the word and the number differ by a multiple of 2^32
    have hmod : (2 * n + 1) % (2 ^ 32 : ℤ) = n % 2 ^ 32 := by
      have hcast : toInt (2 * n + 1) % (2 ^ 32 : ℤ) = (2 * n + 1) % 2 ^ 32 := Int.bmod_emod
      rw [← hcast, h]
    unfold FitsInt at hfits
    omega
  · rintro rfl
    rfl

variable {w : Words} {env : Allocators} {n : ℤ}

/-- What `zookeeper_init` gets. -/
theorem zkrbInit_eq_ok {hostPort logLevel timeout : RubyValue} {init : InitArgs}
    (h : zkrbInit w hostPort logLevel timeout = .ok init) :
    (∃ s, hostPort = .str s ∧ init.host = rstringPtr s) ∧
      debugLevelArg w logLevel = .ok init.debugLevel ∧
      init.recvTimeout = toInt (w.word timeout) := by
  obtain ⟨s, hs, h⟩ := bind_eq_ok.mp h
  obtain ⟨level, hlevel, h⟩ := bind_eq_ok.mp h
  cases h
  exact ⟨⟨s, checkString_eq_ok hs, rfl⟩, hlevel, rfl⟩

theorem debugLevelArg_int (w : Words) (n : ℤ) :
    debugLevelArg w (.int n) =
      if IsFixnum n then .ok (toInt (2 * n + 1)) else .error .typeError := by
  by_cases hn : IsFixnum n
  · simp [debugLevelArg, checkFixnum, hn, w.fixnum n hn, bind, Except.bind, pure, Except.pure]
  · simp [debugLevelArg, checkFixnum, hn, bind, Except.bind]

theorem sessionTimeout_iff : CrossesUnchanged w env n .sessionTimeout ↔ n = -1 := by
  constructor
  · intro h
    have hinit : zkrbInit w (.str [104]) .nil (.int n) =
        .ok ⟨0, rstringPtr [104], toInt (w.word (.int n))⟩ := rfl
    have hword : toInt (w.word (.int n)) = n := h _ _ _ hinit
    have hfits := fitsInt_toInt (w.word (.int n))
    rw [hword] at hfits
    have hfixnum : IsFixnum n := by
      unfold FitsInt at hfits
      unfold IsFixnum
      omega
    rw [w.fixnum n hfixnum] at hword
    exact toInt_tagged_iff.mp hword
  · rintro rfl host level init hinit
    rw [(zkrbInit_eq_ok hinit).2.2, w.fixnum _ (by decide)]
    rfl

theorem logLevel_iff : CrossesUnchanged w env n .logLevel ↔ n = -1 ∨ ¬IsFixnum n := by
  constructor
  · intro h
    by_cases hfixnum : IsFixnum n
    · have hlevel : debugLevelArg w (.int n) = .ok (toInt (2 * n + 1)) := by
        rw [debugLevelArg_int, if_pos hfixnum]
      have hinit : zkrbInit w (.str [104]) (.int n) .nil =
          .ok ⟨toInt (2 * n + 1), rstringPtr [104], toInt (w.word .nil)⟩ := by
        simp only [zkrbInit, checkString, hlevel, bind, Except.bind]
        rfl
      exact Or.inl (toInt_tagged_iff.mp (h _ _ _ hinit))
    · exact Or.inr hfixnum
  · rintro hn host timeout init hinit
    have hlevel := (zkrbInit_eq_ok hinit).2.1
    rw [debugLevelArg_int] at hlevel
    split at hlevel
    · next hfixnum =>
      obtain rfl := hn.resolve_right (not_not.mpr hfixnum)
      exact (Except.ok.inj hlevel).symm
    · cases hlevel

theorem perms_zkrbRubyToAcl {id : RubyValue} {acl : StructACL}
    (h : zkrbRubyToAcl env (.acl (.int n) id) = .ok acl) : acl.perms = n := by
  obtain ⟨perms, hperms, h⟩ := bind_eq_ok.mp h
  obtain ⟨ident, -, h⟩ := bind_eq_ok.mp h
  cases h
  exact num2int_int hperms

/-- **Which integers cross unchanged.** At every place, for every integer, and however Ruby
represents what is no Fixnum: what arrives wherever the call does not raise is the integer, if
and only if the place converts it, or it is -1, or it is a log level that makes the call
raise. -/
theorem crossesUnchanged_iff (w : Words) (env : Allocators) (n : ℤ) (site : IntSite) :
    CrossesUnchanged w env n site ↔ Converted n site := by
  cases site with
  | sessionTimeout => exact sessionTimeout_iff
  | logLevel => exact logLevel_iff
  | createFlags =>
    refine iff_of_true ?_ trivial
    intro h reqid path data async acls args hargs
    obtain ⟨-, -, -, -, -, f, hf, hflags⟩ := createArgs_eq_ok hargs
    rw [hflags, num2int_int hf]
  | deleteVersion =>
    refine iff_of_true ?_ trivial
    intro h reqid path async args hargs
    obtain ⟨-, -, -, -, -, v, hv, hversion⟩ := deleteArgs_eq_ok hargs
    rw [hversion, num2int_int hv]
  | setVersion =>
    refine iff_of_true ?_ trivial
    intro h reqid path data async args hargs
    obtain ⟨-, -, -, -, -, v, hv, hversion⟩ := setArgs_eq_ok hargs
    rw [hversion, num2int_int hv]
  | setAclVersion =>
    refine iff_of_true ?_ trivial
    intro h reqid path acls async args hargs
    obtain ⟨-, -, -, -, -, v, hv, hversion⟩ := setAclArgs_eq_ok hargs
    rw [hversion, num2int_int hv]
  | perms => exact iff_of_true (fun _ _ => perms_zkrbRubyToAcl) trivial
  | reqId =>
    refine iff_of_true ?_ trivial
    rintro h path async watch args hargs ctx hctx
    obtain ⟨m, hm, ⟨-, hcallback, hwatch⟩, -⟩ := standardPreamble_eq_ok hargs
    cases hm
    obtain hctx | hctx := hctx
    · exact contextAlloc_eq_some (hctx ▸ hcallback)
    · exact contextAlloc_eq_some (hctx ▸ hwatch)
  | reportedReqId =>
    refine iff_of_true ?_ trivial
    intro inv raw hraw
    rw [zkrbEventToRuby_run] at hraw
    cases hraw
    rw [reqId_zkrbEventToRuby]
    cases inv <;> rfl

/-- The default of 10000 milliseconds, `DEFAULT_SESSION_TIMEOUT_MSEC`, arrives as 20001. -/
theorem not_crossesUnchanged :
    ¬∀ (w : Words) (env : Allocators) (n : ℤ) (site : IntSite), CrossesUnchanged w env n site := by
  intro hall
  have hcrosses : (20001 : ℤ) = 10000 := hall .tagged .zeroed 10000 .sessionTimeout
    (.str [104]) .nil ⟨0, rstringPtr [104], 20001⟩ rfl
  omega

end Marshal

end ZookeeperClient
