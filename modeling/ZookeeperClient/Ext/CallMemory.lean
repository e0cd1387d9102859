import ZookeeperClient.Ext.EventMemory
import ZookeeperClient.Marshal.Defined

/-!
# The memory of a method call

Each method of `ext/zookeeper_c.c` allocates the contexts that it hands to the C client, and some
allocate a buffer or a vector of ACLs that they free after the call. A conversion that raises an
exception leaves what has been allocated until then behind.

A method is in two halves, up to the `zoo_` function and after it, since the interpreter lock is
given up in between. The first half goes along with the function of `Marshal.Calls` that computes
the arguments: it ends in the same way, and what it has allocated stands for these arguments.

## Main definitions

- `Call` — a program that may raise an exception, which does not undo what it has done
- `MethodCall`, `MethodCall.enter`, `MethodCall.leave` — the methods and their halves
- `Frame` — the local variables of a method during the call

## Main results

- `enter_ends` — the first half, in all its outcomes
- `leave_triple` — what the second half frees
-/

namespace ZookeeperClient

namespace Marshal

namespace EventMemory

open Memory
open scoped Pointwise

/-! ## Programs that raise -/

/-- A program that may end with an exception. -/
abbrev Call (α : Type) := ExceptT OperationError (Prog Cell) α

namespace Call

variable {α β γ δ : Type}

/-- A conversion, which raises or comes to a fault. -/
def check : CResult α → Call α
  | .error .undefined => ExceptT.mk Prog.fault
  | .error e => throw e
  | .ok a => pure a

/-- A program that does not raise. -/
def ofProg (c : Prog Cell α) : Call α :=
  ExceptT.mk (do let a ← c; return .ok a)

/-- `for (k = 0; k < n; ++k) body(k)`. -/
def forLoop (body : ℕ → Call Unit) : ℕ → Call Unit
  | 0 => pure ()
  | n + 1 => do
    let () ← forLoop body n
    body n

end Call

/-- What holds after a program that should end like `r`: `Q` relates the two results, and `X` is
what is left after an exception. -/
def outcome {α β : Type} (Q : α → β → Assertion Cell) (X : Assertion Cell) :
    CResult β → CResult α → Assertion Cell
  | .ok b, .ok a => Q a b
  | .error e, .error e' => fact (e' = e) + X
  | .ok _, .error _ => ∅
  | .error _, .ok _ => ∅

/-- The program ends like `r`, with a result or with the same exception. -/
def Ends {α β : Type} (P : Assertion Cell) (c : Call α) (r : CResult β)
    (Q : α → β → Assertion Cell) (X : Assertion Cell) : Prop :=
  Defined r → Triple P c.run (outcome Q X r)

namespace Ends

variable {α β γ δ : Type} {P P' R X : Assertion Cell} {c : Call α} {r : CResult β}
  {Q Q' : α → β → Assertion Cell}

theorem mono {X' : Assertion Cell} (h : Ends P' c r Q' X') (hpre : P ⊆ P')
    (hpost : ∀ a b, Q' a b ⊆ Q a b) (hraise : X' ⊆ X) : Ends P c r Q X := by
  intro hr
  refine (h hr).mono hpre fun a => ?_
  cases r with
  | ok b =>
    cases a with
    | ok a => exact hpost a b
    | error e => exact subset_rfl
  | error e =>
    cases a with
    | ok a => exact subset_rfl
    | error e' => exact Set.add_subset_add_left hraise

theorem frame (R : Assertion Cell) (h : Ends P c r Q X) :
    Ends (P + R) c r (fun a b => Q a b + R) (X + R) := by
  intro hr
  refine ((h hr).frame R).post fun a => ?_
  cases r with
  | ok b =>
    cases a with
    | ok a => exact subset_rfl
    | error e => exact (Set.empty_add).subset
  | error e =>
    cases a with
    | ok a => exact (Set.empty_add).subset
    | error e' => exact (add_assoc _ _ _).subset

theorem of_fact {φ : Prop} (h : φ → Ends P c r Q X) : Ends (fact φ + P) c r Q X :=
  fun hr => Triple.of_fact fun hφ => h hφ hr

theorem of_iUnion {ι : Type*} {P : ι → Assertion Cell} (h : ∀ i, Ends (P i) c r Q X) :
    Ends (⋃ i, P i) c r Q X :=
  fun hr => Triple.of_iUnion fun i => h i hr

theorem check {r : CResult α} :
    Ends P (Call.check r) r (fun a b => fact (a = b) + P) P := by
  intro hr
  cases r with
  | ok a => exact Triple.ret (subset_fact_add rfl)
  | error e =>
    cases e with
    | undefined => exact absurd rfl hr
    | _ => exact Triple.ret (subset_fact_add rfl)

theorem ofProg {c : Prog Cell α} {b : β} (h : Triple P c fun a => Q a b) :
    Ends P (Call.ofProg c) (.ok b) Q X := by
  intro _
  show Triple P (c >>= fun a => pure (Except.ok a)) _
  exact h.bind fun _ => Triple.ret subset_rfl

theorem ret {a : α} {b : β} (h : P ⊆ Q a b) : Ends P (pure a) (.ok b) Q X :=
  fun _ => Triple.ret h

/-- **Two steps**, of the program and of what it goes along with. -/
theorem bind {f : α → Call γ} {g : β → CResult δ} {Q' : γ → δ → Assertion Cell}
    (hc : Ends P c r Q X) (hf : ∀ a b, r = .ok b → Ends (Q a b) (f a) (g b) Q' X) :
    Ends P (c >>= f) (r >>= g) Q' X := by
  intro hr
  cases r with
  | error e =>
    have he : (Except.error e : CResult β) ≠ .error .undefined := fun h => by
      cases h
      exact hr rfl
    refine (hc he).bind fun a => ?_
    cases a with
    | ok a => exact Triple.of_empty
    | error e' => exact Triple.ret subset_rfl
  | ok b =>
    refine (hc nofun).bind fun a => ?_
    cases a with
    | ok a => exact hf a b rfl hr
    | error e' => exact Triple.of_empty

/-- A step of the program alone. -/
theorem ofProg_bind {c : Prog Cell α} {Q : α → Assertion Cell} {f : α → Call γ} {r : CResult δ}
    {Q' : γ → δ → Assertion Cell} (hc : Triple P c Q) (hf : ∀ a, Ends (Q a) (f a) r Q' X) :
    Ends P (Call.ofProg c >>= f) r Q' X :=
  bind (r := .ok ()) (g := fun _ => r) (Q := fun a _ => Q a) (ofProg hc) fun a _ _ => hf a

/-- A conversion of both. -/
theorem check_bind {r : CResult α} {f : α → Call γ} {g : α → CResult δ}
    {Q' : γ → δ → Assertion Cell} (hraise : P ⊆ X)
    (hf : ∀ a, r = .ok a → Ends P (f a) (g a) Q' X) :
    Ends P (Call.check r >>= f) (r >>= g) Q' X := by
  refine (check.mono subset_rfl (fun _ _ => subset_rfl) hraise).bind fun a b hb => ?_
  refine of_fact fun hab => ?_
  subst hab
  exact hf a hb

/-- **Two loops** that go along with each other. -/
theorem forLoop {σ : Type} {body : ℕ → Call Unit} {body' : ℕ → σ → CResult σ} {s : σ} {n : ℕ}
    (I : ℕ → σ → Assertion Cell)
    (h : ∀ k, k < n → ∀ s, Ends (I k s) (body k) (body' k s) (fun _ => I (k + 1)) X) :
    Ends (I 0 s) (Call.forLoop body n) (Memory.forLoop body' s n) (fun _ => I n) X := by
  induction n with
  | zero => exact ret subset_rfl
  | succ n ih =>
    refine (ih fun k hk => h k (by omega)).bind fun a s' _ => ?_
    exact h n (by omega) s'

end Ends

/-! ## ACLs from Ruby -/

section Methods

variable (h : CHandle) (env : Allocators)

/-- The copies of `zkrb_ruby_to_id`. -/
def copyUnlessNil : Option Bytes → Prog Cell (Option ℕ) :=
  Prog.unlessNull fun bytes => do
    let block ← Prog.ofResult (copyRstring env bytes)
    Prog.alloc (.bytes block)

def zkrbRubyToId (rubyid : RubyValue) : Call (Option ℕ × Option ℕ) := do
  let strings ← Call.check (ZookeeperClient.zkrbRubyToId rubyid)
  let scheme ← Call.ofProg (copyUnlessNil env strings.1)
  let ident ← Call.ofProg (copyUnlessNil env strings.2)
  return (scheme, ident)

/-- `zkrb_ruby_to_acl`: an object that is no ACL has `nil` for its instance variables. -/
def zkrbRubyToAcl (rubyacl : RubyValue) : Call AclElem :=
  match rubyacl with
  | .acl perms rubyid => do
    let perms ← Call.check (num2int perms)
    let id ← zkrbRubyToId env rubyid
    return ⟨perms, id.1, id.2⟩
  | _ => do
    let perms ← Call.check (num2int .nil)
    let id ← zkrbRubyToId env .nil
    return ⟨perms, id.1, id.2⟩

/-- A vector of `n` ACLs is allocated and filled. -/
def fillAcls (n : ℤ) (elems : ℕ → RubyValue) : Call ℕ := do
  let v ← Call.ofProg (Prog.alloc (.vector 0 none))
  let () ← Call.ofProg (aclVec.allocate v n)
  let () ← Call.forLoop (fun k => (do
    let elem ← zkrbRubyToAcl env (elems k)
    Call.ofProg (aclVec.setElem v k elem))) n.toNat
  return v

def zkrbRubyToAclvector (acls : RubyValue) : Call ℕ :=
  match acls with
  | .array elems => fillAcls env (toInt elems.length) fun k => elems.getD k .nil
  | _ => Call.check (.error .typeError)

/-! ## The methods up to the call -/

/-- The pointers among the local variables of a method, as it calls the C client. -/
structure Frame where
  /-- `data_ctx`, for the completion function. -/
  callback : Option ℕ := none
  /-- `watch_ctx`, for the watcher. -/
  watch : Option ℕ := none
  /-- `aclptr`. -/
  acl : Option ℕ := none
  /-- `data` of `method_get`. -/
  buffer : Option ℕ := none

def contextAlloc (reqid : ℤ) (flag : RubyValue) : Call (Option ℕ) :=
  if flag.truthy then do
    let n ← Call.check (num2ll reqid)
    let ctx ← Call.ofProg (Prog.alloc (.context ⟨n⟩))
    return some ctx
  else return none

def standardPreamble (reqid path async watch : RubyValue) : Call Frame :=
  match reqid with
  | .int n => do
    let _ ← Call.check (checkString path)
    let () ← Call.check (checkOpen h)
    let callback ← contextAlloc n async
    let watch ← contextAlloc n watch
    return { callback := callback, watch := watch }
  | _ => Call.check (.error .typeError)

def MAX_ZNODE_SIZE : ℕ := 1048576

def methodGet (reqid path async watch : RubyValue) : Call Frame := do
  let frame ← standardPreamble h reqid path async watch
  let data ← Call.ofProg (Prog.alloc (.bytes (malloc env.junk MAX_ZNODE_SIZE)))
  return { frame with buffer := some data }

def methodGetChildren (reqid path async watch : RubyValue) : Call Frame :=
  standardPreamble h reqid path async watch

def methodExists (reqid path async watch : RubyValue) : Call Frame :=
  standardPreamble h reqid path async watch

def methodSync (reqid path : RubyValue) : Call Frame :=
  standardPreamble h reqid path (.bool true) (.bool false)

/-- `aclptr` of `method_create`. -/
def createAclptr (acls : RubyValue) : Call (Option ℕ) :=
  match acls with
  | .nil => return none
  | acls => do
    let aclptr ← zkrbRubyToAclvector env acls
    return some aclptr

def methodCreate (reqid path data async acls flags : RubyValue) : Call Frame := do
  let frame ← standardPreamble h reqid path async (.bool false)
  let _ ← Call.check (dataArgs data)
  let () ← Call.check (checkFixnum flags)
  let aclptr ← createAclptr env acls
  let _ ← Call.check (num2int flags)
  return { frame with acl := aclptr }

def methodDelete (reqid path version async : RubyValue) : Call Frame := do
  let frame ← standardPreamble h reqid path async (.bool false)
  let () ← Call.check (checkFixnum version)
  let _ ← Call.check (num2int version)
  return frame

def methodSet (reqid path data async version : RubyValue) : Call Frame := do
  let frame ← standardPreamble h reqid path async (.bool false)
  let _ ← Call.check (dataArgs data)
  let _ ← Call.check (num2int version)
  return frame

def methodSetAcl (reqid path acls async version : RubyValue) : Call Frame := do
  let frame ← standardPreamble h reqid path async (.bool false)
  let aclptr ← zkrbRubyToAclvector env acls
  let _ ← Call.check (num2int version)
  return { frame with acl := some aclptr }

def methodGetAcl (reqid path async : RubyValue) : Call Frame :=
  standardPreamble h reqid path async (.bool false)

end Methods

/-- A call of a method, with its arguments. -/
inductive MethodCall where
  | get (reqid path async watch : RubyValue)
  | getChildren (reqid path async watch : RubyValue)
  | stat (reqid path async watch : RubyValue)
  | sync (reqid path : RubyValue)
  | create (reqid path data async acls flags : RubyValue)
  | delete (reqid path version async : RubyValue)
  | set (reqid path data async version : RubyValue)
  | setAcl (reqid path acls async version : RubyValue)
  | getAcl (reqid path async : RubyValue)

namespace MethodCall

variable (h : CHandle) (env : Allocators)

/-- The method up to the call. -/
def enter : MethodCall → Call Frame
  | .get reqid path async watch => methodGet h env reqid path async watch
  | .getChildren reqid path async watch => methodGetChildren h reqid path async watch
  | .stat reqid path async watch => methodExists h reqid path async watch
  | .sync reqid path => methodSync h reqid path
  | .create reqid path data async acls flags =>
    methodCreate h env reqid path data async acls flags
  | .delete reqid path version async => methodDelete h reqid path version async
  | .set reqid path data async version => methodSet h reqid path data async version
  | .setAcl reqid path acls async version => methodSetAcl h env reqid path acls async version
  | .getAcl reqid path async => methodGetAcl h reqid path async

/-- The arguments of the call. -/
def args : MethodCall → CResult ZooArgs
  | .get reqid path async watch => getArgs h reqid path async watch
  | .getChildren reqid path async watch => getChildrenArgs h reqid path async watch
  | .stat reqid path async watch => existsArgs h reqid path async watch
  | .sync reqid path => syncArgs h reqid path
  | .create reqid path data async acls flags => createArgs h env reqid path data async acls flags
  | .delete reqid path version async => deleteArgs h reqid path version async
  | .set reqid path data async version => setArgs h reqid path data async version
  | .setAcl reqid path acls async version => setAclArgs h env reqid path acls async version
  | .getAcl reqid path async => getAclArgs h reqid path async

end MethodCall

/-- The scheme and the id of each ACL are strings. -/
def MethodCall.StringIds : MethodCall → Prop
  | .create _ _ _ _ acls _ | .setAcl _ _ acls _ _ => Marshal.StringIds acls
  | _ => True

theorem MethodCall.defined_args (h : CHandle) (env : Allocators) {m : MethodCall}
    (hm : m.StringIds) : Defined (m.args h env) := by
  cases m with
  | get | getChildren | stat | sync | getAcl => exact Defined.standardPreamble h _ _ _ _
  | create reqid path data async acls flags => exact Defined.createArgs h env hm
  | delete reqid path version async => exact Defined.deleteArgs h
  | set reqid path data async version => exact Defined.setArgs h
  | setAcl reqid path acls async version => exact Defined.setAclArgs h env hm

/-! ## What is never freed -/

/-- Blocks that no pointer leads to any more. -/
inductive Lost where
  /-- A context that the C client has not been given, or has dropped. -/
  | context (ctx : CallingContext)
  /-- A vector with room for `n` ACLs, of which these had been converted. -/
  | partialAcls (n : ℤ) (converted : List StructACL)
  | acls (v : CVector StructACL)
  /-- The array of a vector of `n` strings, without the strings. -/
  | pointers (n : ℕ)
  /-- The strings of a vector, with their array. -/
  | children (names : List (Option Block))

namespace Lost

def at' : Lost → Assertion Cell
  | .context ctx => ⋃ p, contextAt p ctx
  | .partialAcls n converted => ⋃ p, ⋃ d, ⋃ cs, (pointsTo p (.vector n (some d)) +
      pointsTo d (.acls cs) + listAt aclAt (cs.take converted.length) converted)
  | .acls v => ⋃ p, aclVectorAt p v
  | .pointers n => stringVec.dangling n
  | .children names => ⋃ data, stringVec.arrayAt stringAt data names

/-- Everything that has been lost. -/
def all (lost : List Lost) : Assertion Cell :=
  (lost.map at').sum

@[simp] theorem all_nil : all [] = 0 := rfl

theorem all_append (lost lost' : List Lost) : all (lost ++ lost') = all lost + all lost' := by
  simp [all]

/-- What an exception can leave behind. -/
def OfRaise : Lost → Prop
  | .context _ | .partialAcls _ _ | .acls _ => True
  | .pointers _ | .children _ => False

end Lost

/-- What is left of a method that has raised an exception. -/
def raisedAt : Assertion Cell :=
  ⋃ lost : List Lost, (fact (∀ l ∈ lost, l.OfRaise) + Lost.all lost)

theorem zero_subset_raisedAt : 0 ⊆ raisedAt :=
  Set.subset_iUnion_of_subset [] (subset_fact_add nofun)

theorem lost_subset_raisedAt {l : Lost} (hl : l.OfRaise) : l.at' ⊆ raisedAt := by
  refine Set.subset_iUnion_of_subset [l] ?_
  rw [fact_add_of (List.forall_mem_singleton.mpr hl)]
  exact (add_zero l.at').ge

/-- Two remains are one. -/
theorem add_subset_raisedAt {P Q : Assertion Cell} (hP : P ⊆ raisedAt) (hQ : Q ⊆ raisedAt) :
    P + Q ⊆ raisedAt := by
  rintro _ ⟨own, hown, own', hown', rfl⟩
  obtain ⟨lost, hlost⟩ := Set.mem_iUnion.mp (hP hown)
  obtain ⟨lost', hlost'⟩ := Set.mem_iUnion.mp (hQ hown')
  obtain ⟨hraise, hown⟩ := mem_fact_add.mp hlost
  obtain ⟨hraise', hown'⟩ := mem_fact_add.mp hlost'
  refine Set.mem_iUnion.mpr ⟨lost ++ lost', mem_fact_add.mpr ⟨?_, ?_⟩⟩
  · intro l hl
    obtain hl | hl := List.mem_append.mp hl
    · exact hraise l hl
    · exact hraise' l hl
  · rw [Lost.all_append]
    exact Set.add_mem_add hown hown'

theorem context_subset_raisedAt (p : Option ℕ) (ctx : Option CallingContext) :
    ptrAt contextAt p ctx ⊆ raisedAt := by
  cases p with
  | none =>
    cases ctx with
    | none => exact zero_subset_raisedAt
    | some ctx => exact Set.empty_subset _
  | some p =>
    cases ctx with
    | none => exact Set.empty_subset _
    | some ctx =>
      refine Set.Subset.trans ?_ (lost_subset_raisedAt (l := .context ctx) trivial)
      exact Set.subset_iUnion_of_subset p subset_rfl

/-! ## The first half of a method -/

/-- The contexts that a method hands over. -/
def handedAt (frame : Frame) (args : ZooArgs) : Assertion Cell :=
  ptrAt contextAt frame.callback args.callback + ptrAt contextAt frame.watch args.watch

/-- The pointers of a method to its own memory. -/
structure Temps where
  acl : Option ℕ
  buffer : Option ℕ

def Frame.temps (frame : Frame) : Temps :=
  ⟨frame.acl, frame.buffer⟩

/-- What a method frees after the call. -/
def tempsAt (temps : Temps) (v : Option (CVector StructACL)) : Assertion Cell :=
  ptrAt aclVectorAt temps.acl v + ⋃ block, ptrAt blockAt temps.buffer block

section Enter

variable (h : CHandle) (env : Allocators)

theorem copyUnlessNil_triple (s : Option Bytes) :
    ∃ block, Marshal.copyUnlessNil env s = .ok block ∧
      Triple 0 (copyUnlessNil env s) fun p => ptrAt blockAt p block := by
  cases s with
  | none => exact ⟨none, rfl, Triple.ret subset_rfl⟩
  | some bytes =>
    refine ⟨_, congrArg (Except.map some) (copyRstring_eq env bytes), ?_⟩
    refine Triple.bind (Triple.ofResult_bind (copyRstring_eq env bytes) (Triple.alloc _))
      fun p => ?_
    exact Triple.ret subset_rfl

theorem zkrbRubyToId_ends (rubyid : RubyValue) :
    Ends 0 (zkrbRubyToId env rubyid) (Marshal.zkrbRubyToId env rubyid)
      (fun p id => ptrAt blockAt p.1 id.scheme + ptrAt blockAt p.2 id.id) 0 := by
  refine Ends.check_bind subset_rfl fun strings _ => ?_
  obtain ⟨s, t⟩ := strings
  obtain ⟨scheme, hscheme, htriple⟩ := copyUnlessNil_triple env s
  obtain ⟨ident, hident, htriple'⟩ := copyUnlessNil_triple env t
  have hid : (do
      let scheme ← Marshal.copyUnlessNil env s
      let ident ← Marshal.copyUnlessNil env t
      return (⟨scheme, ident⟩ : StructId)) = .ok ⟨scheme, ident⟩ := by
    rw [hscheme, hident]
    rfl
  show Ends 0 _ (do
      let scheme ← Marshal.copyUnlessNil env s
      let ident ← Marshal.copyUnlessNil env t
      return (⟨scheme, ident⟩ : StructId)) _ _
  rw [hid]
  refine Ends.ofProg_bind htriple fun p => ?_
  refine Ends.ofProg_bind ((htriple'.frame _).pre (zero_add _).symm) fun q => ?_
  refine Ends.ret ?_
  rw [add_comm]

theorem zkrbRubyToAcl_ends (rubyacl : RubyValue) :
    Ends 0 (zkrbRubyToAcl env rubyacl) (Marshal.zkrbRubyToAcl env rubyacl) aclAt 0 := by
  cases rubyacl with
  | acl perms rubyid =>
    refine Ends.check_bind subset_rfl fun perms _ => ?_
    refine (zkrbRubyToId_ends env rubyid).bind fun p id _ => Ends.ret ?_
    exact subset_fact_add rfl
  | _ =>
    refine Ends.check_bind subset_rfl fun perms _ => ?_
    refine (zkrbRubyToId_ends env .nil).bind fun p id _ => Ends.ret ?_
    exact subset_fact_add rfl

/-- One round of the loop of `zkrb_ruby_to_aclvector`: the first `k` elements have been
converted. -/
theorem convert_ends {n : ℤ} {p d k : ℕ} (hk : k < n.toNat) (rubyacl : RubyValue)
    (data : List StructACL) :
    Ends (fact (data.length = n.toNat) + ⋃ cs, (fact (cs.length = n.toNat) +
        (pointsTo p (.vector n (some d)) + pointsTo d (.acls cs) +
          listAt aclAt (cs.take k) (data.take k))))
      (do let elem ← zkrbRubyToAcl env rubyacl; Call.ofProg (aclVec.setElem p k elem))
      (do let v ← Marshal.zkrbRubyToAcl env rubyacl; store .undefined data k v)
      (fun _ data => fact (data.length = n.toNat) + ⋃ cs, (fact (cs.length = n.toNat) +
        (pointsTo p (.vector n (some d)) + pointsTo d (.acls cs) +
          listAt aclAt (cs.take (k + 1)) (data.take (k + 1)))))
      raisedAt := by
  refine Ends.of_fact fun hdata => Ends.of_iUnion fun cs => Ends.of_fact fun hcs => ?_
  refine Ends.bind (((zkrbRubyToAcl_ends env rubyacl).frame _).mono (zero_add _).ge
    (fun _ _ => subset_rfl) ?_) fun elem acl _ => ?_
  · -- what has been converted before is lost
    rw [zero_add]
    refine Set.Subset.trans ?_ (lost_subset_raisedAt (l := .partialAcls n (data.take k)) trivial)
    refine Set.subset_iUnion_of_subset p (Set.subset_iUnion_of_subset d
      (Set.subset_iUnion_of_subset cs ?_))
    rw [List.length_take_of_le (by omega)]
  · have hstore : store OperationError.undefined data k acl = .ok (data.set k acl) :=
      if_pos (by omega)
    have hk' : k < cs.length := by omega
    have hset : Triple (pointsTo p (.vector n (some d)) + pointsTo d (.acls cs))
        (aclVec.setElem p k elem)
        fun _ => pointsTo p (.vector n (some d)) + pointsTo d (.acls (cs.set k elem)) :=
      VectorLayout.setElem_triple (L := aclVec) (p := p) (d := d) (n := n) elem hk'
    rw [hstore]
    refine Ends.ofProg (((hset.frame (aclAt elem acl + listAt aclAt (cs.take k)
      (data.take k))).pre (add_left_comm _ _ _)).post fun _ => ?_)
    rw [fact_add_of (by rw [List.length_set, hdata])]
    refine Set.subset_iUnion_of_subset (cs.set k elem) ?_
    rw [List.length_set, fact_add_of hcs, List.take_add_one, List.take_add_one,
      List.take_set_of_le le_rfl, List.take_set_of_le le_rfl,
      List.getElem?_set_self (by omega), List.getElem?_set_self (by omega),
      listAt_append (by simp; omega), add_comm (aclAt elem acl)]
    exact Set.add_subset_add_left (Set.add_subset_add_left (add_zero (aclAt elem acl)).ge)

theorem fillAcls_ends (n : ℤ) (elems : ℕ → RubyValue) :
    Ends 0 (fillAcls env n elems)
      ((env.aclVector.allocate n).fill .undefined n fun k => Marshal.zkrbRubyToAcl env (elems k))
      (fun p v => fact (v.data.length = v.count.toNat) + aclVectorAt p v) raisedAt := by
  have hlength := env.aclVector.length_allocate n
  have hcount := env.aclVector.count_allocate n
  generalize env.aclVector.allocate n = v at hlength hcount ⊢
  refine Ends.ofProg_bind (Triple.alloc _) fun p => ?_
  refine Ends.ofProg_bind (VectorLayout.allocate_triple (L := aclVec) (x := (0, none))) fun _ => ?_
  refine Ends.of_iUnion fun data => ?_
  unfold CVector.fill
  cases data with
  | none =>
    rw [VectorLayout.cleared, add_comm]
    refine Ends.of_fact fun hn => ?_
    have hzero : n.toNat = 0 := by omega
    have hnil : v.data = [] := List.eq_nil_of_length_eq_zero (by omega)
    rw [hzero]
    refine Ends.ret (Set.Subset.trans ?_ (subset_fact_add ?_))
    · refine Set.subset_iUnion_of_subset none ?_
      rw [hcount, hnil, VectorLayout.arrayAt, fact_of rfl, add_zero]
    · rw [hcount, ← hlength]
  | some d =>
    rw [VectorLayout.cleared, add_left_comm]
    refine Ends.of_fact fun hn => ?_
    refine Ends.bind ((Ends.forLoop _ fun k hk data =>
      convert_ends (d := d) env hk (elems k) data).mono ?_ (fun _ _ => subset_rfl)
        subset_rfl) fun _ data _ => ?_
    · refine Set.Subset.trans ?_ (subset_fact_add hlength)
      refine Set.subset_iUnion_of_subset (List.replicate n.toNat aclVec.zero) ?_
      rw [fact_add_of List.length_replicate, List.take_zero, List.take_zero, listAt_nil,
        add_zero]
      rfl
    · refine Ends.of_fact fun hdata => Ends.of_iUnion fun cs => Ends.of_fact fun hcs => ?_
      have hne : data ≠ [] := List.ne_nil_of_length_pos (by omega)
      refine Ends.ret (Set.Subset.trans ?_ (subset_fact_add ?_))
      · refine Set.subset_iUnion_of_subset (some d) ?_
        rw [hcount, VectorLayout.arrayAt, fact_add_of hne, add_assoc]
        refine Set.add_subset_add_left (Set.subset_iUnion_of_subset cs ?_)
        rw [List.take_of_length_le hcs.le, List.take_of_length_le hdata.le]
        rfl
      · rw [hcount, ← hdata]

theorem counted_some {v : CVector StructACL} (h : v.data.length = v.count.toNat) :
    Counted (some v) := by
  rintro _ ⟨⟩
  exact h

/-- A vector of ACLs from Ruby, or what is left of it when an ACL cannot be converted. -/
theorem zkrbRubyToAclvector_ends (acls : RubyValue) :
    Ends 0 (zkrbRubyToAclvector env acls) (Marshal.zkrbRubyToAclvector env acls)
      (fun p v => fact (Counted (some v)) + ptrAt aclVectorAt (some p) (some v)) raisedAt := by
  cases acls with
  | array elems =>
    show Ends 0 (fillAcls env (toInt elems.length) fun k => elems.getD k .nil)
      ((env.aclVector.allocate (toInt elems.length)).fill .undefined
        (env.aclVector.allocate (toInt elems.length)).count fun k =>
          Marshal.zkrbRubyToAcl env (elems.getD k .nil)) _ _
    rw [env.aclVector.count_allocate]
    refine (fillAcls_ends env _ _).mono subset_rfl (fun p v => ?_) subset_rfl
    rintro own hown
    obtain ⟨hv, hown⟩ := mem_fact_add.mp hown
    exact mem_fact_add.mpr ⟨counted_some hv, hown⟩
  | _ => exact fun _ => Triple.ret (Set.Subset.trans zero_subset_raisedAt (subset_fact_add rfl))

theorem contextAlloc_ends (n : ℤ) (flag : RubyValue) :
    Ends 0 (contextAlloc n flag) (Marshal.contextAlloc n flag) (ptrAt contextAt) 0 := by
  unfold contextAlloc Marshal.contextAlloc
  split
  · have hmap : (num2ll n).map (fun n => some (CallingContext.mk n)) =
        num2ll n >>= fun n => .ok (some ⟨n⟩) := by
      cases num2ll n <;> rfl
    rw [hmap]
    refine Ends.check_bind subset_rfl fun n _ => ?_
    exact Ends.ofProg_bind (Triple.alloc _) fun p => Ends.ret subset_rfl
  · exact Ends.ret subset_rfl

theorem handedAt_subset_raisedAt (frame : Frame) (args : ZooArgs) :
    handedAt frame args ⊆ raisedAt :=
  add_subset_raisedAt (context_subset_raisedAt _ _) (context_subset_raisedAt _ _)

/-- The contexts of a call. -/
theorem standardPreamble_ends (reqid path async watch : RubyValue) :
    Ends 0 (standardPreamble h reqid path async watch)
      (Marshal.standardPreamble h reqid path async watch)
      (fun frame args => fact (frame.temps = ⟨none, none⟩ ∧ args.acl = none) +
        handedAt frame args) raisedAt := by
  cases reqid with
  | int n =>
    refine Ends.check_bind zero_subset_raisedAt fun path _ => ?_
    refine Ends.check_bind zero_subset_raisedAt fun _ _ => ?_
    refine ((contextAlloc_ends n async).mono subset_rfl (fun _ _ => subset_rfl)
      zero_subset_raisedAt).bind fun p callback _ => ?_
    refine (((contextAlloc_ends n watch).frame (ptrAt contextAt p callback)).mono
      (zero_add _).ge (fun _ _ => subset_rfl) ?_).bind fun q w _ => Ends.ret ?_
    · rw [zero_add]
      exact context_subset_raisedAt p callback
    · refine Set.Subset.trans ?_ (subset_fact_add ⟨rfl, rfl⟩)
      exact (add_comm _ _).subset
  | _ => exact fun _ => Triple.ret (Set.Subset.trans zero_subset_raisedAt (subset_fact_add rfl))

/-- The pointers that a method has. -/
def MethodCall.Uses : MethodCall → Temps → Prop
  | .get _ _ _ _, temps => temps.acl = none
  | .create _ _ _ _ _ _, temps | .setAcl _ _ _ _ _, temps => temps.buffer = none
  | _, temps => temps = ⟨none, none⟩

/-- What a method has allocated when it calls the C client. -/
def frameAt (m : MethodCall) (frame : Frame) (args : ZooArgs) : Assertion Cell :=
  handedAt frame args +
    (fact (m.Uses frame.temps ∧ Counted args.acl.join) + tempsAt frame.temps args.acl.join)

/-- A method that has contexts only. -/
theorem frameAt_of_preamble (m : MethodCall) (args : ZooArgs) {frame : Frame}
    (h : frame.temps = ⟨none, none⟩ ∧ args.acl = none) :
    handedAt frame args ⊆ frameAt m frame args := by
  obtain ⟨htemps, hacl⟩ := h
  have huses : m.Uses ⟨none, none⟩ := by cases m <;> rfl
  unfold frameAt
  rw [htemps, hacl, fact_add_of ⟨huses, nofun⟩]
  refine Set.Subset.trans (add_zero (handedAt frame args)).ge (Set.add_subset_add_left ?_)
  refine Set.Subset.trans (add_zero (0 : Assertion Cell)).ge (Set.add_subset_add_left ?_)
  exact Set.subset_iUnion_of_subset none subset_rfl

/-- A method that has a vector of ACLs as well. -/
theorem frameAt_of_acl {m : MethodCall} {frame : Frame} {args args' : ZooArgs} {p : Option ℕ}
    {v : Option (CVector StructACL)} (h : frame.temps = ⟨none, none⟩ ∧ args.acl = none)
    (huses : m.Uses ⟨p, none⟩) (hcallback : args'.callback = args.callback)
    (hwatch : args'.watch = args.watch) (hacl : args'.acl.join = v) :
    handedAt frame args + (fact (Counted v) + ptrAt aclVectorAt p v) ⊆
      frameAt m { frame with acl := p } args' := by
  have hbuffer : frame.buffer = none := congrArg Temps.buffer h.1
  have htemps : ({ frame with acl := p } : Frame).temps = ⟨p, none⟩ := by
    rw [← hbuffer]
    rfl
  unfold frameAt handedAt tempsAt
  rw [hcallback, hwatch, hacl, htemps]
  have hbuffers : ptrAt aclVectorAt p v ⊆
      ptrAt aclVectorAt p v + ⋃ block, ptrAt blockAt none block := by
    refine Set.Subset.trans (add_zero (ptrAt aclVectorAt p v)).ge (Set.add_subset_add_left ?_)
    exact Set.subset_iUnion_of_subset none subset_rfl
  refine Set.add_subset_add_left fun own hown => ?_
  obtain ⟨hv, hown⟩ := mem_fact_add.mp hown
  exact mem_fact_add.mpr ⟨⟨huses, hv⟩, hbuffers hown⟩

theorem aclptr_subset_raisedAt (p : Option ℕ) (v : Option (CVector StructACL)) :
    fact (Counted v) + ptrAt aclVectorAt p v ⊆ raisedAt := by
  intro own hown
  obtain ⟨-, hown⟩ := mem_fact_add.mp hown
  cases p with
  | none =>
    cases v with
    | none => exact zero_subset_raisedAt hown
    | some v => cases hown
  | some p =>
    cases v with
    | none => cases hown
    | some v =>
      refine lost_subset_raisedAt (l := .acls v) trivial ?_
      exact Set.mem_iUnion.mpr ⟨p, hown⟩

theorem createAclptr_ends (acls : RubyValue) :
    Ends 0 (createAclptr env acls) (createAcl env acls)
      (fun p v => fact (Counted v) + ptrAt aclVectorAt p v) raisedAt := by
  have hsome (acls : RubyValue) :
      Ends 0 (do let aclptr ← zkrbRubyToAclvector env acls; return some aclptr)
        ((Marshal.zkrbRubyToAclvector env acls).map some)
        (fun p v => fact (Counted v) + ptrAt aclVectorAt p v) raisedAt := by
    have hmap : (Marshal.zkrbRubyToAclvector env acls).map some =
        Marshal.zkrbRubyToAclvector env acls >>= fun v => .ok (some v) := by
      cases Marshal.zkrbRubyToAclvector env acls <;> rfl
    rw [hmap]
    exact (zkrbRubyToAclvector_ends env acls).bind fun p v _ => Ends.ret subset_rfl
  cases acls with
  | nil => exact Ends.ret (subset_fact_add nofun)
  | _ => exact hsome _

/-- **The first half of a method** ends as `Marshal.Calls` says: with the contexts of the arguments
and with the vector of their ACLs, or with an exception, and then only contexts and ACLs are left
behind. -/
theorem enter_ends (m : MethodCall) :
    Ends 0 (m.enter h env) (m.args h env) (frameAt m) raisedAt := by
  have hpreamble (reqid path async watch : RubyValue) :
      Ends 0 (standardPreamble h reqid path async watch)
        (Marshal.standardPreamble h reqid path async watch) (frameAt m) raisedAt := by
    refine (standardPreamble_ends h reqid path async watch).mono subset_rfl (fun frame args => ?_)
      subset_rfl
    intro own hown
    obtain ⟨htemps, hown⟩ := mem_fact_add.mp hown
    exact frameAt_of_preamble m args htemps hown
  cases m with
  | getChildren | stat | sync | getAcl => exact hpreamble _ _ _ _
  | get reqid path async watch =>
    have hargs : getArgs h reqid path async watch =
        Marshal.standardPreamble h reqid path async watch >>= fun args => .ok args := by
      unfold getArgs
      cases Marshal.standardPreamble h reqid path async watch <;> rfl
    show Ends 0 _ (getArgs h reqid path async watch) _ _
    rw [hargs]
    refine Ends.bind (standardPreamble_ends h _ _ _ _) fun frame args _ => ?_
    refine Ends.of_fact fun htemps => ?_
    refine Ends.ofProg_bind (((Triple.alloc _).frame _).pre (zero_add _).symm) fun p => ?_
    refine Ends.ret ?_
    have hacl : frame.acl = none := congrArg Temps.acl htemps.1
    unfold frameAt tempsAt
    rw [htemps.2, fact_add_of ⟨hacl, nofun⟩, add_comm]
    refine Set.add_subset_add_left ?_
    show _ ⊆ ptrAt aclVectorAt frame.acl none + ⋃ block, ptrAt blockAt (some p) block
    rw [hacl]
    refine Set.Subset.trans (zero_add (pointsTo p _)).ge (Set.add_subset_add_left ?_)
    exact Set.subset_iUnion_of_subset (some (malloc env.junk MAX_ZNODE_SIZE)) subset_rfl
  | create reqid path data async acls flags =>
    refine Ends.bind (standardPreamble_ends h _ _ _ _) fun frame args _ => ?_
    refine Ends.of_fact fun htemps => ?_
    have hlost := handedAt_subset_raisedAt frame args
    refine Ends.check_bind hlost fun _ _ => Ends.check_bind hlost fun _ _ => ?_
    refine (((createAclptr_ends env acls).frame (handedAt frame args)).mono (zero_add _).ge
      (fun _ _ => (add_comm _ _).subset) (add_subset_raisedAt subset_rfl hlost)).bind
      fun p v _ => ?_
    refine Ends.check_bind (add_subset_raisedAt hlost (aclptr_subset_raisedAt p v)) fun _ _ => ?_
    exact Ends.ret (frameAt_of_acl htemps rfl rfl rfl rfl)
  | delete reqid path version async =>
    refine Ends.bind (standardPreamble_ends h _ _ _ _) fun frame args _ => ?_
    refine Ends.of_fact fun htemps => ?_
    have hlost := handedAt_subset_raisedAt frame args
    refine Ends.check_bind hlost fun _ _ => Ends.check_bind hlost fun _ _ => ?_
    exact Ends.ret (frameAt_of_preamble _ { args with version := _ } htemps)
  | set reqid path data async version =>
    refine Ends.bind (standardPreamble_ends h _ _ _ _) fun frame args _ => ?_
    refine Ends.of_fact fun htemps => ?_
    have hlost := handedAt_subset_raisedAt frame args
    refine Ends.check_bind hlost fun _ _ => Ends.check_bind hlost fun _ _ => ?_
    exact Ends.ret (frameAt_of_preamble _ { args with data := _, version := _ } htemps)
  | setAcl reqid path acls async version =>
    refine Ends.bind (standardPreamble_ends h _ _ _ _) fun frame args _ => ?_
    refine Ends.of_fact fun htemps => ?_
    have hlost := handedAt_subset_raisedAt frame args
    refine (((zkrbRubyToAclvector_ends env acls).frame (handedAt frame args)).mono
      (zero_add _).ge (fun _ _ => (add_comm _ _).subset)
      (add_subset_raisedAt subset_rfl hlost)).bind fun p v _ => ?_
    refine Ends.check_bind (add_subset_raisedAt hlost (aclptr_subset_raisedAt _ _)) fun _ _ => ?_
    exact Ends.ret (frameAt_of_acl htemps rfl rfl rfl rfl)

end Enter

/-! ## The second half of a method -/

/-- What the C client returns, and what it writes to the vectors that the method gives it. -/
structure Reply where
  rc : ℤ
  strings : List CString
  acls : List CACL

/-- `IS_SYNC(call_type)`: the completion function has no context. -/
def Frame.isSync (frame : Frame) : Bool :=
  frame.callback.isNone

/-- `strings` of `method_get_children`, an automatic variable, which the client fills. -/
def childrenOut (strings : List CString) : Prog Cell Unit := do
  let out ← zkrbCloneStringVector (stringVector strings)
  let _ ← readStrings out
  Prog.free out

/-- `acls` of `method_get_acl`, likewise. -/
def aclOut (acls : List CACL) : Prog Cell Unit := do
  let out ← zkrbCloneAclVector (.ofList (acls.map CACL.struct))
  let _ ← readAcls out
  let () ← aclVec.deallocate deallocateAcl out
  Prog.free out

namespace MethodCall

/-- The method after the call. -/
def leave (temps : Temps) (isSync : Bool) (reply : Reply) : MethodCall → Prog Cell Unit
  | .get _ _ _ _ => Prog.freePtr temps.buffer
  | .create _ _ _ _ _ _ | .setAcl _ _ _ _ _ => freeAclVector temps.acl
  | .getChildren _ _ _ _ =>
    if isSync ∧ reply.rc = ZOK then childrenOut reply.strings else pure ()
  | .getAcl _ _ _ => if isSync ∧ reply.rc = ZOK then aclOut reply.acls else pure ()
  | .stat _ _ _ _ | .sync _ _ | .delete _ _ _ _ | .set _ _ _ _ _ => pure ()

/-- What a call leaves behind that is never freed. -/
def left (isSync : Bool) (reply : Reply) : MethodCall → List Lost
  | .getChildren _ _ _ _ =>
    if isSync ∧ reply.rc = ZOK ∧ reply.strings ≠ [] then
      [.children (stringVector (reply.strings.map CString.copy)).data]
    else []
  | _ => []

end MethodCall

theorem childrenOut_triple (strings : List CString) :
    Triple 0 (childrenOut strings)
      fun _ => ⋃ data, stringVec.arrayAt stringAt data
        (stringVector (strings.map CString.copy)).data := by
  have hcount : (stringVector (strings.map CString.copy)).data.length =
      (stringVector (strings.map CString.copy)).count.toNat := (Int.toNat_natCast _).symm
  refine (zkrbCloneStringVector_triple strings).bind fun p => ?_
  refine Reads.bind_triple (VectorLayout.collect_triple (fun elem s _ => readBlock elem s)
    hcount) ?_
  refine Triple.of_iUnion fun data => ?_
  refine (Triple.free.frame _).post fun _ => ?_
  rw [zero_add]
  exact Set.subset_iUnion_of_subset data subset_rfl

theorem aclOut_triple (acls : List CACL) : Triple 0 (aclOut acls) fun _ => 0 := by
  have hcount : (CVector.ofList ((acls.map CACL.copy).map CACL.struct)).data.length =
      (CVector.ofList ((acls.map CACL.copy).map CACL.struct)).count.toNat :=
    (Int.toNat_natCast _).symm
  refine (zkrbCloneAclVector_triple acls).bind fun p => ?_
  refine Reads.bind_triple (VectorLayout.collect_triple
    (fun elem acl _ => reads_readAcl elem acl) hcount) ?_
  refine (VectorLayout.deallocate_triple (fun elem acl _ => freeAcl_triple elem acl)
    hcount).bind fun _ => ?_
  exact Triple.of_iUnion fun data => Triple.free

section Leave

variable {temps : Temps} {v : Option (CVector StructACL)}

theorem tempsAt_acl (h : temps.acl = none) :
    tempsAt temps v ⊆ ⋃ block, ptrAt blockAt temps.buffer block := by
  unfold tempsAt
  rw [h]
  exact (Set.add_subset_add_right ptrAt_none).trans (zero_add _).subset

theorem tempsAt_buffer (h : temps.buffer = none) :
    tempsAt temps v ⊆ ptrAt aclVectorAt temps.acl v := by
  unfold tempsAt
  rw [h]
  refine (Set.add_subset_add_left (Set.iUnion_subset fun block => ptrAt_none)).trans ?_
  exact (add_zero _).subset

theorem tempsAt_none (h : temps = ⟨none, none⟩) : tempsAt temps v ⊆ 0 := by
  subst h
  exact (tempsAt_buffer rfl).trans ptrAt_none

/-- **The second half of a method** frees everything that the method has allocated for itself. What
it leaves behind are the names of the children, which the client has allocated. -/
theorem leave_triple {m : MethodCall} (huses : m.Uses temps) (hv : Counted v) (isSync : Bool)
    (reply : Reply) :
    Triple (tempsAt temps v) (m.leave temps isSync reply)
      fun _ => Lost.all (m.left isSync reply) := by
  have hnone {c : Prog Cell Unit} {Q : Assertion Cell} (hc : Triple 0 c fun _ => Q)
      (htemps : temps = ⟨none, none⟩) : Triple (tempsAt temps v) c fun _ => Q :=
    hc.mono (tempsAt_none htemps) fun _ => subset_rfl
  cases m with
  | get reqid path async watch =>
    refine Triple.mono ?_ (tempsAt_acl huses) fun _ => subset_rfl
    exact Triple.of_iUnion fun block => freeBlock _ block
  | create | setAcl =>
    exact (freeAclVector_triple hv _).mono (tempsAt_buffer huses) fun _ => subset_rfl
  | getChildren reqid path async watch =>
    refine hnone ?_ huses
    show Triple 0 (if isSync ∧ reply.rc = ZOK then childrenOut reply.strings else pure ())
      fun _ => Lost.all (if isSync ∧ reply.rc = ZOK ∧ reply.strings ≠ [] then _ else [])
    by_cases hok : isSync ∧ reply.rc = ZOK
    · rw [if_pos hok]
      refine (childrenOut_triple reply.strings).post fun _ => Set.iUnion_subset fun data => ?_
      by_cases hnil : reply.strings = []
      · rw [if_neg fun h => h.2.2 hnil, hnil]
        exact VectorLayout.arrayAt_nil
      · rw [if_pos ⟨hok.1, hok.2, hnil⟩]
        refine Set.Subset.trans ?_ (add_zero (Lost.children _).at').ge
        exact Set.subset_iUnion_of_subset data subset_rfl
    · rw [if_neg hok, if_neg fun h => hok ⟨h.1, h.2.1⟩]
      exact Triple.ret subset_rfl
  | getAcl reqid path async =>
    refine hnone ?_ huses
    show Triple 0 (if isSync ∧ reply.rc = ZOK then aclOut reply.acls else pure ()) fun _ => 0
    by_cases hok : isSync ∧ reply.rc = ZOK
    · rw [if_pos hok]
      exact aclOut_triple reply.acls
    · rw [if_neg hok]
      exact Triple.ret subset_rfl
  | stat | sync | delete | set => exact hnone (Triple.ret subset_rfl) huses

end Leave

end EventMemory

end Marshal

end ZookeeperClient
