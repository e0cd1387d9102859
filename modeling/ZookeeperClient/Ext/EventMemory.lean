import ZookeeperClient.Marshal.Calls
import ZookeeperClient.Memory.Vectors

/-!
# The memory of an event

The callbacks of `ext/zookeeper_lib.c` allocate an event block by block and free the context that
they are called with; `zkrb_event_to_ruby` follows the pointers of the event, and
`zkrb_event_free` frees it. The values that the blocks hold are those of `Marshal.Callbacks`.
The arguments of a callback are in the memory of the C client, which these functions only read.

## Main definitions

- `Cell` — what a block can hold
- `zkrbDataCallback` to `zkrbStateCallback`, `zkrbEventToRuby`, `zkrbEventFree` — the functions
- `eventAt` — the blocks of an event
- `leftover` — the block of an event that is not freed with it

## Main results

- `onHeap_triple` — a callback makes the event of its invocation, in fresh blocks, and frees its
  context unless it is that of the session
- `zkrbEventToRuby_triple` — the conversion reads nothing else and changes nothing
- `zkrbEventFree_triple` — each block of the event is freed once, but for an array of pointers
- `delivered_triple` — an event from the callback to the end
-/

namespace ZookeeperClient

namespace Marshal

namespace EventMemory

open Memory
open scoped Pointwise

/-! ## Blocks -/

/-- `struct ACL`, whose strings are in blocks of their own. -/
structure AclElem where
  perms : ℤ
  scheme : Option ℕ
  id : Option ℕ

/-- One of the structures that the union of a `zkrb_event_t` points to. -/
inductive CompletionBlock where
  | data (data : Option ℕ) (dataLen : ℤ) (stat : Option ℕ)
  | stat (stat : Option ℕ)
  | string (value : Option ℕ)
  | strings (values : Option ℕ)
  | stringsStat (values stat : Option ℕ)
  | acl (acl stat : Option ℕ)
  | watcher (type state : ℤ) (path : Option ℕ)

/-- `zkrb_event_t`. -/
structure EventBlock where
  reqId : ℤ
  rc : Option ℤ
  type : EventType
  completion : Option ℕ

/-- What a block can hold. -/
inductive Cell where
  | bytes (block : Block)
  | stat (s : Stat)
  | strings (data : List (Option ℕ))
  | acls (data : List AclElem)
  /-- `struct String_vector` or `struct ACL_vector`. -/
  | vector (count : ℤ) (data : Option ℕ)
  | completion (c : CompletionBlock)
  | event (e : EventBlock)
  | context (ctx : CallingContext)
  /-- `struct zkrb_instance_data`, whose members are those of `Instance`. -/
  | instanceData

namespace Cell

def getBytes : Cell → Option Block
  | .bytes block => some block
  | _ => none

def getStat : Cell → Option Stat
  | .stat s => some s
  | _ => none

def getStrings : Cell → Option (List (Option ℕ))
  | .strings data => some data
  | _ => none

def getAcls : Cell → Option (List AclElem)
  | .acls data => some data
  | _ => none

def getVector : Cell → Option (ℤ × Option ℕ)
  | .vector count data => some (count, data)
  | _ => none

def getCompletion : Cell → Option CompletionBlock
  | .completion c => some c
  | _ => none

def getEvent : Cell → Option EventBlock
  | .event e => some e
  | _ => none

def getContext : Cell → Option CallingContext
  | .context ctx => some ctx
  | _ => none

end Cell

/-- The layout of both structures. -/
def vectorHead : Layout Cell (ℤ × Option ℕ) :=
  ⟨fun x => .vector x.1 x.2, Cell.getVector, fun _ => rfl⟩

/-- `struct String_vector`, after `calloc`. -/
def stringVec : VectorLayout Cell (Option ℕ) :=
  ⟨vectorHead, ⟨.strings, Cell.getStrings, fun _ => rfl⟩, none⟩

/-- `struct ACL_vector`, after `calloc`. -/
def aclVec : VectorLayout Cell AclElem :=
  ⟨vectorHead, ⟨.acls, Cell.getAcls, fun _ => rfl⟩, ⟨0, none, none⟩⟩

/-! ## The callbacks -/

def ZKRB_GLOBAL_REQ : ℤ := -1

section Callbacks

variable (env : Allocators)

/-- An event is allocated, with the request id of the context, and the context is freed. -/
def takeContext (frees : CallingContext → Bool) (callingCtx : ℕ) (rc : Option ℤ)
    (type : EventType) (completion : Option ℕ) : Prog Cell ℕ := do
  let ctx ← Prog.loadAs Cell.getContext callingCtx
  let event ← Prog.alloc (.event ⟨ctx.reqId, rc, type, completion⟩)
  let () ← if frees ctx then Prog.free callingCtx else pure ()
  return event

/-- `ZKH_SETUP_EVENT`, with the fields that are set after it. -/
def setupEvent (callingCtx : ℕ) (rc : ℤ) (type : EventType) (completion : Option ℕ) :
    Prog Cell ℕ :=
  takeContext (fun ctx => decide (ctx.reqId ≠ ZKRB_GLOBAL_REQ)) callingCtx (some rc) type
    completion

/-- `strdup(p)`, of a pointer into the memory of the client. -/
def strdupBlock (p : Option Block) : Prog Cell ℕ := do
  let block ← Prog.ofResult (strdup OperationError.undefined p)
  Prog.alloc (.bytes block)

/-- `stat ? copy of *stat : NULL`. -/
def copyStat : Option Stat → Prog Cell (Option ℕ) :=
  Prog.unlessNull fun s => Prog.alloc (.stat s)

def zkrbCloneStringVector (src : StringVector) : Prog Cell ℕ :=
  stringVec.fill src.count fun k => do
    let elem ← Prog.ofResult (load OperationError.undefined src.data k)
    let p ← strdupBlock elem
    return some p

def zkrbCloneAclVector (src : CVector StructACL) : Prog Cell ℕ :=
  aclVec.fill src.count fun k => do
    let elt ← Prog.ofResult (load OperationError.undefined src.data k)
    let scheme ← strdupBlock elt.id.scheme
    let id ← strdupBlock elt.id.id
    return ⟨elt.perms, some scheme, some id⟩

/-- `zkrb_state_callback`, which looks at the type of the event and not at the request id. -/
def zkrbStateCallback (type state : ℤ) (path : Option Block) (callingCtx : ℕ) :
    Prog Cell ℕ := do
  let wc ← Prog.alloc (.completion (.watcher type state none))
  let p ← strdupBlock path
  let () ← Prog.store wc (.completion (.watcher type state (some p)))
  takeContext (fun _ => decide (type ≠ ZOO_SESSION_EVENT)) callingCtx none .watcher (some wc)

def zkrbDataCallback (rc : ℤ) (value : Option Block) (valueLen : ℤ) (stat : Option Stat)
    (callingCtx : ℕ) : Prog Cell ℕ := do
  let dc ← Prog.alloc (.completion (.data none 0 none))
  let data ← Prog.unlessNull (fun value => (do
    let copy ← Prog.ofResult (copyData env value valueLen)
    Prog.alloc (.bytes copy))) value
  let s ← copyStat stat
  let () ← Prog.store dc
    (.completion (.data data (if value.isSome then valueLen else 0) s))
  setupEvent callingCtx rc .data (some dc)

def zkrbStatCallback (rc : ℤ) (stat : Option Stat) (callingCtx : ℕ) : Prog Cell ℕ := do
  let sc ← Prog.alloc (.completion (.stat none))
  let s ← copyStat stat
  let () ← Prog.store sc (.completion (.stat s))
  setupEvent callingCtx rc .stat (some sc)

def zkrbStringCallback (rc : ℤ) (string : Option Block) (callingCtx : ℕ) : Prog Cell ℕ := do
  let sc ← Prog.alloc (.completion (.string none))
  let value ← Prog.unlessNull (fun p => strdupBlock (some p)) string
  let () ← Prog.store sc (.completion (.string value))
  setupEvent callingCtx rc .string (some sc)

def zkrbStringsCallback (rc : ℤ) (strings : Option StringVector) (callingCtx : ℕ) :
    Prog Cell ℕ := do
  let sc ← Prog.alloc (.completion (.strings none))
  let values ← Prog.unlessNull zkrbCloneStringVector strings
  let () ← Prog.store sc (.completion (.strings values))
  setupEvent callingCtx rc .strings (some sc)

def zkrbStringsStatCallback (rc : ℤ) (strings : Option StringVector) (stat : Option Stat)
    (callingCtx : ℕ) : Prog Cell ℕ := do
  let sc ← Prog.alloc (.completion (.stringsStat none none))
  let s ← copyStat stat
  let values ← Prog.unlessNull zkrbCloneStringVector strings
  let () ← Prog.store sc (.completion (.stringsStat values s))
  setupEvent callingCtx rc .stringsStat (some sc)

def zkrbVoidCallback (rc : ℤ) (callingCtx : ℕ) : Prog Cell ℕ :=
  setupEvent callingCtx rc .void none

def zkrbAclCallback (rc : ℤ) (acls : Option (CVector StructACL)) (stat : Option Stat)
    (callingCtx : ℕ) : Prog Cell ℕ := do
  let ac ← Prog.alloc (.completion (.acl none none))
  let acl ← Prog.unlessNull zkrbCloneAclVector acls
  let s ← copyStat stat
  let () ← Prog.store ac (.completion (.acl acl s))
  setupEvent callingCtx rc .acl (some ac)

end Callbacks

/-! ## Reading an event -/

def readBytes (p : ℕ) : Prog Cell Block :=
  Prog.loadAs Cell.getBytes p

def readStat (p : ℕ) : Prog Cell Stat :=
  Prog.loadAs Cell.getStat p

def readStrings (p : ℕ) : Prog Cell StringVector :=
  stringVec.collect (Prog.unlessNull readBytes) p

/-- The ACL of an element. -/
def readAcl (elem : AclElem) : Prog Cell StructACL := do
  let scheme ← Prog.unlessNull readBytes elem.scheme
  let id ← Prog.unlessNull readBytes elem.id
  return ⟨elem.perms, ⟨scheme, id⟩⟩

def readAcls (p : ℕ) : Prog Cell (CVector StructACL) :=
  aclVec.collect readAcl p

/-- The member of the union that belongs to the tag, with what it points to. -/
def readStruct : EventType → CompletionBlock → Prog Cell CompletionPtr
  | .data, .data data dataLen stat => do
    let data ← Prog.unlessNull readBytes data
    let stat ← Prog.unlessNull readStat stat
    return .dataCompletion ⟨data, dataLen, stat⟩
  | .stat, .stat stat => do
    let stat ← Prog.unlessNull readStat stat
    return .statCompletion ⟨stat⟩
  | .string, .string value => do
    let value ← Prog.unlessNull readBytes value
    return .stringCompletion ⟨value⟩
  | .strings, .strings values => do
    let values ← Prog.unlessNull readStrings values
    return .stringsCompletion ⟨values⟩
  | .stringsStat, .stringsStat values stat => do
    let values ← Prog.unlessNull readStrings values
    let stat ← Prog.unlessNull readStat stat
    return .stringsStatCompletion ⟨values, stat⟩
  | .acl, .acl acl stat => do
    let acl ← Prog.unlessNull readAcls acl
    let stat ← Prog.unlessNull readStat stat
    return .aclCompletion ⟨acl, stat⟩
  | .watcher, .watcher type state path => do
    let path ← Prog.unlessNull readBytes path
    return .watcherCompletion ⟨type, state, path⟩
  | _, _ => Prog.fault

def readCompletion (type : EventType) (completion : Option ℕ) : Prog Cell CompletionPtr :=
  if type = .void then pure .voidCompletion
  else do
    let p ← Prog.ofOption completion
    let c ← Prog.loadAs Cell.getCompletion p
    readStruct type c

/-- `zkrb_event_to_ruby`: what the pointers lead to, and the conversion of that. -/
def zkrbEventToRuby (event : ℕ) : Prog Cell RawHash := do
  let e ← Prog.loadAs Cell.getEvent event
  let completion ← readCompletion e.type e.completion
  Prog.ofResult (Marshal.zkrbEventToRuby ⟨e.reqId, e.rc, e.type, completion⟩)

/-! ## Freeing an event -/

/-- The strings of a vector and its head, but not the array in between. -/
def freeStrings : Option ℕ → Prog Cell Unit
  | none => pure ()
  | some values => do
    let () ← stringVec.forEach Prog.freePtr values
    Prog.free values

/-- `deallocate_ACL`: both pointers are null afterwards. -/
def deallocateAcl (elem : AclElem) : Prog Cell AclElem := do
  let () ← Prog.freePtr elem.scheme
  let () ← Prog.freePtr elem.id
  return ⟨elem.perms, none, none⟩

/-- `deallocate_ACL_vector`, and the `free` after it. -/
def freeAclVector : Option ℕ → Prog Cell Unit
  | none => pure ()
  | some acl => do
    let () ← aclVec.deallocate deallocateAcl acl
    Prog.free acl

/-- The cases of `zkrb_event_free`. -/
def freeStruct (p : ℕ) : EventType → CompletionBlock → Prog Cell Unit
  | .data, .data data _ stat => do
    let () ← Prog.freePtr data
    let () ← Prog.freePtr stat
    Prog.free p
  | .stat, .stat stat => do
    let () ← Prog.freePtr stat
    Prog.free p
  | .string, .string value => do
    let () ← Prog.freePtr value
    Prog.free p
  | .strings, .strings values => do
    let () ← freeStrings values
    Prog.free p
  | .stringsStat, .stringsStat values stat => do
    let () ← freeStrings values
    let () ← Prog.freePtr stat
    Prog.free p
  | .acl, .acl acl stat => do
    let () ← freeAclVector acl
    let () ← Prog.freePtr stat
    Prog.free p
  | .watcher, .watcher _ _ path => do
    let () ← Prog.freePtr path
    Prog.free p
  | _, _ => Prog.fault

def freeCompletion (type : EventType) (completion : Option ℕ) : Prog Cell Unit :=
  if type = .void then pure ()
  else do
    let p ← Prog.ofOption completion
    let c ← Prog.loadAs Cell.getCompletion p
    freeStruct p type c

def zkrbEventFree (event : ℕ) : Prog Cell Unit := do
  let e ← Prog.loadAs Cell.getEvent event
  let () ← freeCompletion e.type e.completion
  Prog.free event

/-! ## The blocks of an event -/

def blockAt (p : ℕ) (block : Block) : Assertion Cell :=
  pointsTo p (.bytes block)

def statAt (p : ℕ) (s : Stat) : Assertion Cell :=
  pointsTo p (.stat s)

def contextAt (p : ℕ) (ctx : CallingContext) : Assertion Cell :=
  pointsTo p (.context ctx)

def stringAt : Option ℕ → Option Block → Assertion Cell :=
  ptrAt blockAt

def aclAt (elem : AclElem) (acl : StructACL) : Assertion Cell :=
  fact (elem.perms = acl.perms) +
    (ptrAt blockAt elem.scheme acl.id.scheme + ptrAt blockAt elem.id acl.id.id)

def stringVectorAt (p : ℕ) (v : StringVector) : Assertion Cell :=
  stringVec.vectorAt stringAt p v

def aclVectorAt (p : ℕ) (v : CVector StructACL) : Assertion Cell :=
  aclVec.vectorAt aclAt p v

/-- A structure and what its pointers own. -/
def structAt (p : ℕ) : CompletionPtr → Assertion Cell
  | .dataCompletion ctx => ⋃ data, ⋃ stat,
    (pointsTo p (.completion (.data data ctx.dataLen stat)) +
      (ptrAt blockAt data ctx.data + ptrAt statAt stat ctx.stat))
  | .statCompletion ctx => ⋃ stat,
    (pointsTo p (.completion (.stat stat)) + ptrAt statAt stat ctx.stat)
  | .voidCompletion => ∅
  | .stringCompletion ctx => ⋃ value,
    (pointsTo p (.completion (.string value)) + ptrAt blockAt value ctx.value)
  | .stringsCompletion ctx => ⋃ values,
    (pointsTo p (.completion (.strings values)) + ptrAt stringVectorAt values ctx.values)
  | .stringsStatCompletion ctx => ⋃ values, ⋃ stat,
    (pointsTo p (.completion (.stringsStat values stat)) +
      (ptrAt stringVectorAt values ctx.values + ptrAt statAt stat ctx.stat))
  | .aclCompletion ctx => ⋃ acl, ⋃ stat,
    (pointsTo p (.completion (.acl acl stat)) +
      (ptrAt aclVectorAt acl ctx.acl + ptrAt statAt stat ctx.stat))
  | .watcherCompletion ctx => ⋃ path,
    (pointsTo p (.completion (.watcher ctx.type ctx.state path)) + ptrAt blockAt path ctx.path)

def completionAt : Option ℕ → CompletionPtr → Assertion Cell
  | some p, c => structAt p c
  | none, .voidCompletion => 0
  | none, _ => ∅

/-- The blocks of an event. -/
def eventAt (p : ℕ) (e : ZkrbEventT) : Assertion Cell :=
  ⋃ c, (pointsTo p (.event ⟨e.reqId, e.rc, e.type, c⟩) + completionAt c e.completion)

/-! ## From the callback to the event -/

/-- The event that a callback makes. -/
def made (ctx : CallingContext) : Invocation → ZkrbEventT
  | .data rc arg s => Marshal.setupEvent ctx rc .data
    (.dataCompletion ⟨arg.bytes, if arg.value.isSome then arg.len else 0, s⟩)
  | .stat rc s => Marshal.setupEvent ctx rc .stat (.statCompletion ⟨s⟩)
  | .string rc value => Marshal.setupEvent ctx rc .string
    (.stringCompletion ⟨value.map fun s => s.copy.block⟩)
  | .strings rc values => Marshal.setupEvent ctx rc .strings
    (.stringsCompletion ⟨values.map fun l => stringVector (l.map CString.copy)⟩)
  | .stringsStat rc values s => Marshal.setupEvent ctx rc .stringsStat
    (.stringsStatCompletion ⟨values.map fun l => stringVector (l.map CString.copy), s⟩)
  | .void rc => Marshal.setupEvent ctx rc .void .voidCompletion
  | .acl rc acls s => Marshal.setupEvent ctx rc .acl
    (.aclCompletion ⟨acls.map fun l => .ofList ((l.map CACL.copy).map CACL.struct), s⟩)
  | .state type st path =>
    ⟨ctx.reqId, none, .watcher, .watcherCompletion ⟨type, st, some path.copy.block⟩⟩

theorem run_eq (env : Allocators) (ctx : CallingContext) (inv : Invocation) :
    inv.run env ctx = .ok (made ctx inv) := by
  cases inv with
  | data rc arg s =>
    simp only [Invocation.run, Marshal.zkrbDataCallback, copy_data, bind, Except.bind, pure,
      Except.pure]
    rfl
  | stat rc s => rfl
  | string rc value =>
    simp only [Invocation.run, Marshal.zkrbStringCallback, copy_string, bind, Except.bind, pure,
      Except.pure]
    rfl
  | strings rc values =>
    simp only [Invocation.run, Marshal.zkrbStringsCallback, copy_strings, bind, Except.bind, pure,
      Except.pure]
    rfl
  | stringsStat rc values s =>
    simp only [Invocation.run, Marshal.zkrbStringsStatCallback, copy_strings, bind, Except.bind,
      pure, Except.pure]
    rfl
  | void rc => rfl
  | acl rc acls s =>
    simp only [Invocation.run, Marshal.zkrbAclCallback, copy_acls, bind, Except.bind, pure,
      Except.pure]
    rfl
  | state type st path =>
    simp only [Invocation.run, Marshal.zkrbStateCallback, strdup_cstring, bind, Except.bind, pure,
      Except.pure]
    rfl

/-- The callback of an invocation. -/
def onHeap (env : Allocators) (callingCtx : ℕ) : Invocation → Prog Cell ℕ
  | .data rc arg s => zkrbDataCallback env rc arg.value arg.len s callingCtx
  | .stat rc s => zkrbStatCallback rc s callingCtx
  | .string rc value => zkrbStringCallback rc (value.map CString.block) callingCtx
  | .strings rc values => zkrbStringsCallback rc (values.map stringVector) callingCtx
  | .stringsStat rc values s =>
    zkrbStringsStatCallback rc (values.map stringVector) s callingCtx
  | .void rc => zkrbVoidCallback rc callingCtx
  | .acl rc acls s =>
    zkrbAclCallback rc (acls.map fun acls => .ofList (acls.map CACL.struct)) s callingCtx
  | .state type st path => zkrbStateCallback type st (some path.block) callingCtx

/-- The callback frees its context. -/
def frees (ctx : CallingContext) : Invocation → Bool
  | .state type _ _ => decide (type ≠ ZOO_SESSION_EVENT)
  | _ => decide (ctx.reqId ≠ ZKRB_GLOBAL_REQ)

/-- What is left of a context. -/
def keptContext (freed : Bool) (p : ℕ) (ctx : CallingContext) : Assertion Cell :=
  if freed then 0 else contextAt p ctx

theorem takeContext_triple {q : ℕ} {ctx : CallingContext} {freed : CallingContext → Bool}
    {rc : Option ℤ} {type : EventType} {c : Option ℕ} {completion : CompletionPtr} :
    Triple (contextAt q ctx + completionAt c completion) (takeContext freed q rc type c)
      fun p => eventAt p ⟨ctx.reqId, rc, type, completion⟩ + keptContext (freed ctx) q ctx := by
  refine Triple.loadAs_bind (v := Cell.context ctx) rfl (Triple.alloc_bind _ fun p => ?_)
  have hevent : pointsTo p (.event ⟨ctx.reqId, rc, type, c⟩) + completionAt c completion ⊆
      eventAt p ⟨ctx.reqId, rc, type, completion⟩ :=
    Set.subset_iUnion (fun c => pointsTo p (Cell.event ⟨ctx.reqId, rc, type, c⟩) +
      completionAt c completion) c
  unfold keptContext
  rw [add_left_comm]
  split
  · refine Triple.free_bind (Triple.ret ?_)
    rwa [add_zero]
  · refine Triple.ret ?_
    rw [add_comm]
    exact Set.add_subset_add_right hevent

theorem strdupBlock_triple {p : Option Block} {block : Block}
    (h : strdup OperationError.undefined p = .ok block) :
    Triple 0 (strdupBlock p) fun q => blockAt q block :=
  Triple.ofResult_bind h (Triple.alloc _)

theorem strdupBlock_cstring (s : CString) :
    Triple 0 (strdupBlock (some s.block)) fun q => blockAt q s.copy.block :=
  strdupBlock_triple (strdup_cstring _ s)

theorem copyStat_triple (s : Option Stat) : Triple 0 (copyStat s) fun p => ptrAt statAt p s := by
  have hcopy := Triple.unlessNull (A := statAt) (f := fun s => Prog.alloc (Cell.stat s)) (k := id)
    (g := id) (c := s) fun s => Triple.alloc _
  rwa [Option.map_id_fun] at hcopy

/-- The data of an invocation is copied to a block of its own. -/
theorem copyData_triple (env : Allocators) (arg : DataArg) :
    Triple 0 (Prog.unlessNull (fun value => (do
      let copy ← Prog.ofResult (copyData env value arg.len)
      Prog.alloc (Cell.bytes copy))) arg.value) fun p => ptrAt blockAt p arg.bytes := by
  have hcopy := copy_data env arg
  cases hvalue : arg.value with
  | none =>
    rw [hvalue] at hcopy
    rw [← Except.ok.inj hcopy]
    exact Triple.ret subset_rfl
  | some block =>
    rw [hvalue] at hcopy
    obtain ⟨copy, hblock, hbytes⟩ := map_eq_ok.mp hcopy
    rw [← hbytes]
    refine Triple.bind (Triple.ofResult_bind hblock (Triple.alloc _)) fun p => ?_
    exact Triple.ret subset_rfl

theorem zkrbCloneStringVector_triple (strings : List CString) :
    Triple 0 (zkrbCloneStringVector (stringVector strings))
      fun p => stringVectorAt p (stringVector (strings.map CString.copy)) := by
  refine VectorLayout.fill_triple (zkrbCloneStringVector_eq .zeroed strings) fun k s hread => ?_
  obtain ⟨elem, helem, hclone⟩ := bind_eq_ok.mp hread
  obtain ⟨block, hblock, rfl⟩ := map_eq_ok.mp hclone
  refine Triple.ofResult_bind helem ?_
  exact (strdupBlock_triple hblock).bind fun p => Triple.ret subset_rfl

theorem zkrbCloneAclVector_triple (acls : List CACL) :
    Triple 0 (zkrbCloneAclVector (.ofList (acls.map CACL.struct)))
      fun p => aclVectorAt p (.ofList ((acls.map CACL.copy).map CACL.struct)) := by
  rw [List.map_map]
  refine VectorLayout.fill_triple (zkrbCloneAclVector_ofList .zeroed acls) fun k acl hread => ?_
  obtain ⟨elt, helt, hclone⟩ := bind_eq_ok.mp hread
  obtain ⟨scheme, hscheme, hclone⟩ := bind_eq_ok.mp hclone
  obtain ⟨id, hid, hclone⟩ := bind_eq_ok.mp hclone
  obtain rfl := Except.ok.inj hclone
  refine Triple.ofResult_bind helt ?_
  refine (strdupBlock_triple hscheme).bind fun p => ?_
  refine (strdupBlock_triple hid).step _ (zero_add _).symm fun q => Triple.ret ?_
  rw [add_comm]
  exact subset_fact_add rfl

/-- A structure, its pointers, and the context become an event. -/
theorem structAt_triple {p q : ℕ} {ctx : CallingContext} {freed : CallingContext → Bool}
    {rc : Option ℤ} {type : EventType} {c : CompletionBlock} {completion : CompletionPtr}
    {P R : Assertion Cell} {v : CompletionBlock}
    (hstruct : pointsTo p (.completion c) + R ⊆ structAt p completion)
    (hpre : P = pointsTo p (.completion v) + (contextAt q ctx + R)) :
    Triple P (do
      let () ← Prog.store p (.completion c)
      takeContext freed q rc type (some p))
      fun p => eventAt p ⟨ctx.reqId, rc, type, completion⟩ + keptContext (freed ctx) q ctx := by
  subst hpre
  refine Triple.store_bind _ ?_
  rw [add_left_comm]
  exact takeContext_triple.mono (Set.add_subset_add_left hstruct) fun _ => subset_rfl

/-- **A callback** makes the event of its invocation, in blocks of its own. It frees the context
that it is called with, unless that belongs to the session. -/
theorem onHeap_triple (env : Allocators) (q : ℕ) (ctx : CallingContext) (inv : Invocation) :
    Triple (contextAt q ctx) (onHeap env q inv)
      fun p => eventAt p (made ctx inv) + keptContext (frees ctx inv) q ctx := by
  cases inv with
  | data rc arg s =>
    refine Triple.alloc_bind _ fun p => ?_
    refine (copyData_triple env arg).step _ (zero_add _).symm fun data => ?_
    refine (copyStat_triple s).step _ (zero_add _).symm fun stat => ?_
    refine structAt_triple (v := .data none 0 none) (R := ptrAt blockAt data arg.bytes +
      ptrAt statAt stat s) ?_ (by abel)
    exact Set.subset_iUnion_of_subset data (Set.subset_iUnion_of_subset stat subset_rfl)
  | stat rc s =>
    refine Triple.alloc_bind _ fun p => ?_
    refine (copyStat_triple s).step _ (zero_add _).symm fun stat => ?_
    refine structAt_triple (v := .stat none) (R := ptrAt statAt stat s) ?_ (by abel)
    exact Set.subset_iUnion_of_subset stat subset_rfl
  | string rc value =>
    refine Triple.alloc_bind _ fun p => ?_
    refine (Triple.unlessNull (f := fun p => strdupBlock (some p)) (k := CString.block)
      (c := value) strdupBlock_cstring).step _ (zero_add _).symm fun string => ?_
    refine structAt_triple (v := .string none)
      (R := ptrAt blockAt string (value.map fun s => s.copy.block)) ?_ (by abel)
    exact Set.subset_iUnion_of_subset string subset_rfl
  | strings rc values =>
    refine Triple.alloc_bind _ fun p => ?_
    refine (Triple.unlessNull (c := values) zkrbCloneStringVector_triple).step _
      (zero_add _).symm fun strings => ?_
    refine structAt_triple (v := .strings none) (R := ptrAt stringVectorAt strings
      (values.map fun l => stringVector (l.map CString.copy))) ?_ (by abel)
    exact Set.subset_iUnion_of_subset strings subset_rfl
  | stringsStat rc values s =>
    refine Triple.alloc_bind _ fun p => ?_
    refine (copyStat_triple s).step _ (zero_add _).symm fun stat => ?_
    refine (Triple.unlessNull (c := values) zkrbCloneStringVector_triple).step _
      (zero_add _).symm fun strings => ?_
    refine structAt_triple (v := .stringsStat none none) (R := ptrAt stringVectorAt strings
      (values.map fun l => stringVector (l.map CString.copy)) + ptrAt statAt stat s) ?_ (by abel)
    exact Set.subset_iUnion_of_subset strings (Set.subset_iUnion_of_subset stat subset_rfl)
  | void rc =>
    refine takeContext_triple.pre ?_
    exact (add_zero _).symm
  | acl rc acls s =>
    refine Triple.alloc_bind _ fun p => ?_
    refine (Triple.unlessNull (c := acls) zkrbCloneAclVector_triple).step _
      (zero_add _).symm fun acl => ?_
    refine (copyStat_triple s).step _ (zero_add _).symm fun stat => ?_
    refine structAt_triple (v := .acl none none) (R := ptrAt aclVectorAt acl
      (acls.map fun l => .ofList ((l.map CACL.copy).map CACL.struct)) + ptrAt statAt stat s) ?_
      (by abel)
    exact Set.subset_iUnion_of_subset acl (Set.subset_iUnion_of_subset stat subset_rfl)
  | state type st path =>
    refine Triple.alloc_bind _ fun p => ?_
    refine (strdupBlock_cstring path).step _ (zero_add _).symm fun block => ?_
    refine structAt_triple (v := .watcher type st none) (R := blockAt block path.copy.block) ?_
      (by abel)
    exact Set.subset_iUnion_of_subset (some block) subset_rfl

/-! ## Well-formed events -/

/-- The tag that belongs to a structure. -/
def tag : CompletionPtr → EventType
  | .dataCompletion _ => .data
  | .statCompletion _ => .stat
  | .voidCompletion => .void
  | .stringCompletion _ => .string
  | .stringsCompletion _ => .strings
  | .stringsStatCompletion _ => .stringsStat
  | .aclCompletion _ => .acl
  | .watcherCompletion _ => .watcher

/-- The count of a vector, if there is one, is the number of its elements. -/
def Counted {α : Type} (v : Option (CVector α)) : Prop :=
  ∀ w, v = some w → w.data.length = w.count.toNat

def CountedVectors : CompletionPtr → Prop
  | .stringsCompletion ctx => Counted ctx.values
  | .stringsStatCompletion ctx => Counted ctx.values
  | .aclCompletion ctx => Counted ctx.acl
  | _ => True

/-- The tag of an event says which structure is there, and vectors have as many elements as they
say. -/
structure WellFormed (e : ZkrbEventT) : Prop where
  type : e.type = tag e.completion
  counted : CountedVectors e.completion

theorem counted_ofList {α β : Type} (values : Option (List α)) (f : List α → List β) :
    Counted (values.map fun l => CVector.ofList (f l)) := by
  intro w hw
  obtain ⟨l, -, rfl⟩ := Option.map_eq_some_iff.mp hw
  exact (Int.toNat_natCast _).symm

theorem wellFormed_made (ctx : CallingContext) (inv : Invocation) : WellFormed (made ctx inv) := by
  cases inv with
  | strings rc values => exact ⟨rfl, counted_ofList values _⟩
  | stringsStat rc values s => exact ⟨rfl, counted_ofList values _⟩
  | acl rc acls s => exact ⟨rfl, counted_ofList acls _⟩
  | data | stat | string | void | state => exact ⟨rfl, trivial⟩

/-! ## Reading -/

theorem readBlock (elem : Option ℕ) (s : Option Block) :
    Reads (ptrAt blockAt elem s) (Prog.unlessNull readBytes elem) s :=
  Triple.unlessNull_read fun _ _ _ => Triple.loadAs rfl

theorem readStatPtr (p : Option ℕ) (s : Option Stat) :
    Reads (ptrAt statAt p s) (Prog.unlessNull readStat p) s :=
  Triple.unlessNull_read fun _ _ _ => Triple.loadAs rfl

theorem reads_readAcl (elem : AclElem) (acl : StructACL) :
    Reads (aclAt elem acl) (readAcl elem) acl := by
  refine Triple.of_fact fun hperms => ?_
  rw [aclAt, fact_add_of hperms]
  refine (readBlock elem.scheme acl.id.scheme).first.bind ?_
  refine (readBlock elem.id acl.id.id).last.bind ?_
  rw [hperms]
  exact Reads.ret acl

theorem readStringsPtr {v : Option StringVector} (hv : Counted v) (p : Option ℕ) :
    Reads (ptrAt stringVectorAt p v) (Prog.unlessNull readStrings p) v :=
  Triple.unlessNull_read fun _ w hw =>
    VectorLayout.collect_triple (fun elem s _ => readBlock elem s) (hv w hw)

theorem readAclsPtr {v : Option (CVector StructACL)} (hv : Counted v) (p : Option ℕ) :
    Reads (ptrAt aclVectorAt p v) (Prog.unlessNull readAcls p) v :=
  Triple.unlessNull_read fun _ w hw =>
    VectorLayout.collect_triple (fun elem acl _ => reads_readAcl elem acl) (hv w hw)

theorem reads_readCompletion_some {p : ℕ} {type : EventType} {c : CompletionBlock}
    {R : Assertion Cell} {completion : CompletionPtr} (htype : type ≠ .void)
    (h : Reads (pointsTo p (.completion c) + R) (readStruct type c) completion) :
    Reads (pointsTo p (.completion c) + R) (readCompletion type (some p)) completion := by
  have hload : Reads (pointsTo p (.completion c)) (Prog.loadAs Cell.getCompletion p) c :=
    Triple.loadAs rfl
  rw [readCompletion, if_neg htype]
  exact (Reads.ofOption rfl).bind (hload.first.bind h)

/-- The member of the union that the tag names is read. -/
theorem reads_readCompletion {completion : CompletionPtr} (hc : CountedVectors completion)
    (c : Option ℕ) :
    Reads (completionAt c completion) (readCompletion (tag completion) c) completion := by
  cases c with
  | none =>
    cases completion with
    | voidCompletion => exact Reads.ret _
    | _ => exact Triple.of_empty
  | some p =>
    cases completion with
    | voidCompletion => exact Triple.of_empty
    | dataCompletion ctx =>
      refine Reads.of_iUnion fun data => Reads.of_iUnion fun stat => ?_
      refine reads_readCompletion_some nofun ?_
      refine (readBlock data ctx.data).second.bind ?_
      exact (readStatPtr stat ctx.stat).third.bind (Reads.ret _)
    | statCompletion ctx =>
      refine Reads.of_iUnion fun stat => ?_
      refine reads_readCompletion_some nofun ?_
      exact (readStatPtr stat ctx.stat).last.bind (Reads.ret _)
    | stringCompletion ctx =>
      refine Reads.of_iUnion fun value => ?_
      refine reads_readCompletion_some nofun ?_
      exact (readBlock value ctx.value).last.bind (Reads.ret _)
    | stringsCompletion ctx =>
      refine Reads.of_iUnion fun values => ?_
      refine reads_readCompletion_some nofun ?_
      exact (readStringsPtr hc values).last.bind (Reads.ret _)
    | stringsStatCompletion ctx =>
      refine Reads.of_iUnion fun values => Reads.of_iUnion fun stat => ?_
      refine reads_readCompletion_some nofun ?_
      refine (readStringsPtr hc values).second.bind ?_
      exact (readStatPtr stat ctx.stat).third.bind (Reads.ret _)
    | aclCompletion ctx =>
      refine Reads.of_iUnion fun acl => Reads.of_iUnion fun stat => ?_
      refine reads_readCompletion_some nofun ?_
      refine (readAclsPtr hc acl).second.bind ?_
      exact (readStatPtr stat ctx.stat).third.bind (Reads.ret _)
    | watcherCompletion ctx =>
      refine Reads.of_iUnion fun path => ?_
      refine reads_readCompletion_some nofun ?_
      exact (readBlock path ctx.path).last.bind (Reads.ret _)

/-- **The conversion** of an event reads its blocks only and changes nothing. -/
theorem reads_zkrbEventToRuby {e : ZkrbEventT} (he : WellFormed e) {hash : RawHash}
    (hhash : Marshal.zkrbEventToRuby e = .ok hash) (p : ℕ) :
    Reads (eventAt p e) (zkrbEventToRuby p) hash := by
  refine Reads.of_iUnion fun c => ?_
  have hload : Reads (pointsTo p (.event ⟨e.reqId, e.rc, e.type, c⟩))
    (Prog.loadAs Cell.getEvent p) ⟨e.reqId, e.rc, e.type, c⟩ := Triple.loadAs rfl
  refine hload.first.bind ?_
  show Reads _ (readCompletion e.type c >>= _) _
  rw [he.type]
  refine (reads_readCompletion he.counted c).last.bind ?_
  rw [← he.type]
  exact Reads.ofResult hhash

/-! ## Freeing -/

/-- What is left of the strings of a vector: the array between its head and them. -/
def leftStrings : Option StringVector → Assertion Cell
  | none => 0
  | some v => stringVec.dangling v.data.length

/-- What is left of an event. -/
def leftover : CompletionPtr → Assertion Cell
  | .stringsCompletion ctx => leftStrings ctx.values
  | .stringsStatCompletion ctx => leftStrings ctx.values
  | _ => 0

theorem freeBlock (p : Option ℕ) (block : Option Block) :
    Triple (ptrAt blockAt p block) (Prog.freePtr p) fun _ => 0 :=
  Triple.freePtr fun _ _ => ⟨_, rfl⟩

theorem freeStat (p : Option ℕ) (s : Option Stat) :
    Triple (ptrAt statAt p s) (Prog.freePtr p) fun _ => 0 :=
  Triple.freePtr fun _ _ => ⟨_, rfl⟩

theorem freeStrings_triple {v : Option StringVector} (hv : Counted v) (p : Option ℕ) :
    Triple (ptrAt stringVectorAt p v) (freeStrings p) fun _ => leftStrings v := by
  cases p with
  | none =>
    cases v with
    | none => exact Triple.ret subset_rfl
    | some v => exact Triple.of_empty
  | some p =>
    cases v with
    | none => exact Triple.of_empty
    | some v =>
      refine (VectorLayout.forEach_triple (fun elem s _ => freeBlock elem s) (hv v rfl)).bind
        fun _ => Triple.of_iUnion_add fun data => ?_
      refine (Triple.free.frame _).post fun _ => ?_
      rw [zero_add]
      rfl

theorem freeAcl_triple (elem : AclElem) (acl : StructACL) :
    Triple (aclAt elem acl) (deallocateAcl elem) fun _ => 0 := by
  refine Triple.of_fact fun _ => ?_
  refine (freeBlock _ _).step _ rfl fun _ => ?_
  rw [zero_add]
  exact (freeBlock _ _).bind fun _ => Triple.ret subset_rfl

theorem freeAclVector_triple {v : Option (CVector StructACL)} (hv : Counted v) (p : Option ℕ) :
    Triple (ptrAt aclVectorAt p v) (freeAclVector p) fun _ => 0 := by
  cases p with
  | none =>
    cases v with
    | none => exact Triple.ret subset_rfl
    | some v => exact Triple.of_empty
  | some p =>
    cases v with
    | none => exact Triple.of_empty
    | some v =>
      refine (VectorLayout.deallocate_triple (fun elem acl _ => freeAcl_triple elem acl)
        (hv v rfl)).bind fun _ => Triple.of_iUnion fun data => ?_
      exact Triple.free

theorem freeCompletion_some {p : ℕ} {type : EventType} {c : CompletionBlock}
    {R Q : Assertion Cell} (htype : type ≠ .void)
    (h : Triple (pointsTo p (.completion c) + R) (freeStruct p type c) fun _ => Q) :
    Triple (pointsTo p (.completion c) + R) (freeCompletion type (some p)) fun _ => Q := by
  have hload : Reads (pointsTo p (.completion c)) (Prog.loadAs Cell.getCompletion p) c :=
    Triple.loadAs rfl
  rw [freeCompletion, if_neg htype]
  exact (Reads.ofOption rfl).bind_triple (hload.first.bind_triple h)

/-- The last block of a structure is that of the structure itself. -/
theorem free_last {p : ℕ} {v : Cell} {A Q : Assertion Cell} {c : Prog Cell Unit}
    (hc : Triple A c fun _ => Q) :
    Triple (pointsTo p v + A) (do let () ← c; Prog.free p) fun _ => Q := by
  rw [add_comm]
  refine (hc.frame _).bind fun _ => ?_
  rw [add_comm]
  exact (Triple.free.frame _).post fun _ => (zero_add Q).subset

theorem free_last_two {p : ℕ} {v : Cell} {A B Q : Assertion Cell} {c d : Prog Cell Unit}
    (hc : Triple A c fun _ => Q) (hd : Triple B d fun _ => 0) :
    Triple (pointsTo p v + (A + B)) (do let () ← c; let () ← d; Prog.free p) fun _ => Q := by
  rw [add_left_comm]
  refine hc.step _ rfl fun _ => ?_
  rw [add_comm]
  exact ((free_last hd).frame Q).post fun _ => (zero_add Q).subset

/-- The cases of `zkrb_event_free`: everything that the structure owns is freed, but for the array
of a vector of strings. -/
theorem freeCompletion_triple {completion : CompletionPtr} (hc : CountedVectors completion)
    (c : Option ℕ) :
    Triple (completionAt c completion) (freeCompletion (tag completion) c)
      fun _ => leftover completion := by
  cases c with
  | none =>
    cases completion with
    | voidCompletion => exact Triple.ret subset_rfl
    | _ => exact Triple.of_empty
  | some p =>
    cases completion with
    | voidCompletion => exact Triple.of_empty
    | dataCompletion ctx =>
      refine Triple.of_iUnion fun data => Triple.of_iUnion fun stat => ?_
      exact freeCompletion_some nofun
        (free_last_two (freeBlock data ctx.data) (freeStat stat ctx.stat))
    | statCompletion ctx =>
      refine Triple.of_iUnion fun stat => ?_
      exact freeCompletion_some nofun (free_last (freeStat stat ctx.stat))
    | stringCompletion ctx =>
      refine Triple.of_iUnion fun value => ?_
      exact freeCompletion_some nofun (free_last (freeBlock value ctx.value))
    | stringsCompletion ctx =>
      refine Triple.of_iUnion fun values => ?_
      exact freeCompletion_some nofun (free_last (freeStrings_triple hc values))
    | stringsStatCompletion ctx =>
      refine Triple.of_iUnion fun values => Triple.of_iUnion fun stat => ?_
      exact freeCompletion_some nofun
        (free_last_two (freeStrings_triple hc values) (freeStat stat ctx.stat))
    | aclCompletion ctx =>
      refine Triple.of_iUnion fun acl => Triple.of_iUnion fun stat => ?_
      exact freeCompletion_some nofun
        (free_last_two (freeAclVector_triple hc acl) (freeStat stat ctx.stat))
    | watcherCompletion ctx =>
      refine Triple.of_iUnion fun path => ?_
      exact freeCompletion_some nofun (free_last (freeBlock path ctx.path))

/-- **An event is freed**: each of its blocks once, but for the array of a vector of strings. -/
theorem zkrbEventFree_triple {e : ZkrbEventT} (he : WellFormed e) (p : ℕ) :
    Triple (eventAt p e) (zkrbEventFree p) fun _ => leftover e.completion := by
  refine Triple.of_iUnion fun c => ?_
  have hload : Reads (pointsTo p (.event ⟨e.reqId, e.rc, e.type, c⟩))
    (Prog.loadAs Cell.getEvent p) ⟨e.reqId, e.rc, e.type, c⟩ := Triple.loadAs rfl
  refine hload.first.bind_triple ?_
  refine free_last ?_
  show Triple _ (freeCompletion e.type c) _
  rw [he.type]
  exact freeCompletion_triple he.counted c

/-! ## From the callback to the end -/

/-- A callback, and what becomes of its event in `method_get_next_event`. -/
def delivered (env : Allocators) (callingCtx : ℕ) (inv : Invocation) : Prog Cell RawHash := do
  let event ← onHeap env callingCtx inv
  let hash ← zkrbEventToRuby event
  let () ← zkrbEventFree event
  return hash

/-- The length of the array that an event leaks. -/
def leakedPointers : Invocation → ℕ
  | .strings _ (some strings) => strings.length
  | .stringsStat _ (some strings) _ => strings.length
  | _ => 0

theorem leftover_made (ctx : CallingContext) (inv : Invocation) :
    leftover (made ctx inv).completion = stringVec.dangling (leakedPointers inv) := by
  have hlength (strings : List CString) :
      (stringVector (strings.map CString.copy)).data.length = strings.length := by
    simp [stringVector, CVector.ofList]
  cases inv with
  | strings rc values =>
    cases values with
    | none => rfl
    | some strings => exact congrArg stringVec.dangling (hlength strings)
  | stringsStat rc values s =>
    cases values with
    | none => rfl
    | some strings => exact congrArg stringVec.dangling (hlength strings)
  | data | stat | string | void | acl | state => rfl

theorem delivered_triple (env : Allocators) (q : ℕ) (ctx : CallingContext) (inv : Invocation) :
    Triple (contextAt q ctx) (delivered env q inv) fun hash =>
      fact (hash = ZookeeperClient.zkrbEventToRuby (inv.event ctx.reqId)) +
        (stringVec.dangling (leakedPointers inv) + keptContext (frees ctx inv) q ctx) := by
  have hwf := wellFormed_made ctx inv
  have hhash := zkrbEventToRuby_run env ctx inv
  rw [run_eq] at hhash
  refine (onHeap_triple env q ctx inv).bind fun p => ?_
  refine (reads_zkrbEventToRuby hwf hhash p).first.bind_triple ?_
  refine (zkrbEventFree_triple hwf p).step _ rfl fun _ => Triple.ret ?_
  rw [leftover_made]
  exact subset_fact_add rfl

end EventMemory

end Marshal

end ZookeeperClient
