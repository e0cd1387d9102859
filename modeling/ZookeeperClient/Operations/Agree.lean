import ZookeeperClient.Operations.Arguments

/-!
# Where the two backends agree

Each call is reduced to what it returns, once the arguments are accepted. The returned hashes
differ in the data and paths that the C extension cuts off and in the missing data that the Java
backend raises on; what is handed over differs in the ACL of a failed `get_acl`; and the
asynchronous `set_acl` of the Java backend passes a callback of the wrong class.

## Main definitions

- `OutcomeFits` — the answer of the server reaches the caller through both backends
- `nativeReturn`, `javaReturn` — what each backend returns for an answer
- `nativeSeen`, `javaSeen` — what the caller sees then

## Main results

- `agree_iff` — the backends agree exactly for arguments and answers that fit
- `not_agree_set_without_data` — `set` without `:data`
-/

namespace ZookeeperClient

/-- The answer of the server reaches the caller through both backends. -/
def OutcomeFits (host : Bytes) (methName : Meth) (options : Options) : ServerOutcome → Prop
  | .ok reply =>
    match methName with
    | .get => (options.get .callback).truthy = true ∨
        ∃ data, reply.data = some data ∧ data.length ≤ MAX_ZNODE_SIZE
    | .create => (options.get .callback).truthy = true ∨
        (serverPath host reply).length < REALPATH_SIZE ∨
        -- the buffer ends within the chroot and happens to hold the path
        REALPATH_SIZE - 1 < (chrootPath host).length ∧
          (chrootPath host).take (REALPATH_SIZE - 1) = reply.path
    | _ => True
  | .failed _ =>
    match methName with
    | .getAcl => ∀ cb, options.obj .callback = some cb → cb.callable = false
    | _ => True

/-! ## What the methods return -/

/-- What the C backend makes of a successful answer to a synchronous call. -/
def nativeReply (host : Bytes) (reply : Reply) : Meth → BaseReturn
  | .get =>
    { rc := ZOK, data := reply.data.map (List.take MAX_ZNODE_SIZE),
      stat := statValue (some reply.stat) }
  | .set | .stat => { rc := ZOK, stat := statValue (some reply.stat) }
  | .getChildren =>
    { rc := ZOK, children := some reply.children, stat := statValue (some reply.stat) }
  | .create =>
    { rc := ZOK,
      path := stripChrootFrom host (some ((serverPath host reply).take (REALPATH_SIZE - 1))) }
  | .delete | .setAcl | .sync => { rc := ZOK }
  | .getAcl =>
    { rc := ZOK, acl := some (zkrbAclVectorToRuby reply.acls),
      stat := statValue (some reply.stat) }

/-- What the C backend returns, once it has accepted the arguments. -/
def nativeReturn (host : Bytes) (methName : Meth) (async : Bool) (outcome : ServerOutcome) :
    BaseReturn × Option CompletionFn :=
  if async then ({ rc := ZOK }, some (completionsOf methName).1)
  else
    match outcome with
    | .ok reply => (nativeReply host reply methName, none)
    | .failed code => ({ rc := code }, none)

/-- What the Java backend makes of a successful answer to a synchronous call. -/
def javaReply (reply : Reply) : Meth → Except OperationError BaseReturn
  | .get => do
    let data ← fromJavaBytes reply.data
    return { rc := ZOK, data := some data, stat := javaStatValue (some reply.stat) }
  | .set | .stat => .ok { rc := ZOK, stat := javaStatValue (some reply.stat) }
  | .getChildren =>
    .ok { rc := ZOK, children := some reply.children, stat := javaStatValue (some reply.stat) }
  | .create => .ok { rc := ZOK, path := some reply.path }
  | .delete | .setAcl | .sync => .ok { rc := ZOK }
  | .getAcl =>
    .ok { rc := ZOK, acl := some (reply.acls.map jzkdACLToHash),
          stat := javaStatValue (some reply.stat) }

/-- What the Java backend returns or raises, once it has accepted the arguments. -/
def javaReturn (methName : Meth) (async : Bool) (outcome : ServerOutcome) :
    Except OperationError (BaseReturn × Option JavaCallback) :=
  if async then
    if methName = .setAcl then .error .typeError
    else .ok ({ rc := ZOK }, some (completionsOf methName).2)
  else
    match outcome with
    | .ok reply => (javaReply reply methName).map fun ret => (ret, none)
    | .failed code => .ok ({ rc := code }, none)

section Calls

variable (s : Setting) (methName : Meth) (options : Options) (outcome : ServerOutcome)

/-- The call that an operation makes in the C backend. -/
def nativeCall : Except OperationError (BaseReturn × Option CompletionFn) :=
  (Zookeeper.operation CompletionFn methName).call (nativeHandle s methName options outcome).base
    s.requests.currentReqId ((Zookeeper.operation CompletionFn methName).withDefault options)

/-- The call that an operation makes in the Java backend. -/
def javaCall : Except OperationError (BaseReturn × Option JavaCallback) :=
  (Zookeeper.operation JavaCallback methName).call (JavaClient.base ⟨true, outcome⟩)
    s.requests.currentReqId ((Zookeeper.operation JavaCallback methName).withDefault options)

variable {s methName options outcome}

theorem succeeds_standardPreamble {v : RubyValue} :
    Succeeds ((nativeHandle s methName options outcome).standardPreamble v) ↔
      Succeeds (checkString v) :=
  (succeeds_bind fun _ => iff_of_true (succeeds_ok _) trivial).trans (and_iff_left trivial)

/-- What a method makes of the answer of the C client. -/
theorem output_eq (hsync : methName ≠ .sync) {rest : BaseReturn → BaseReturn}
    {ret : Reply → BaseReturn}
    (hrest : ∀ reply, outcome = .ok reply → (options.get .callback).truthy = false →
      rest { rc := ZOK } = ret reply) (fn : CompletionFn) :
    (nativeHandle s methName options outcome).output (options.get .callback).truthy fn rest =
      if (options.get .callback).truthy then ({ rc := ZOK }, some fn)
      else
        match outcome with
        | .ok reply => (ret reply, none)
        | .failed code => ({ rc := code }, none) := by
  cases hcb : (options.get .callback).truthy with
  | true => simp [CHandle.output, nativeHandle, CAnswer.ofOutcome, hcb]
  | false =>
    cases outcome with
    | ok reply =>
      simp [CHandle.output, nativeHandle, CAnswer.ofOutcome, hcb, hsync, hrest reply rfl hcb]
    | failed code =>
      simp [CHandle.output, nativeHandle, CAnswer.ofOutcome, hcb, hsync, code.2]

theorem answer_ok (hsync : methName ≠ .sync) (hcb : (options.get .callback).truthy = false)
    {reply : Reply} (ho : outcome = .ok reply) :
    (nativeHandle s methName options outcome).answer =
      { rc := ZOK
        data := reply.data.map (List.take MAX_ZNODE_SIZE)
        stat := reply.stat
        strings := reply.children
        realpath := (serverPath s.host reply).take (REALPATH_SIZE - 1)
        acls := reply.acls
        accepted := false } := by
  subst ho
  simp [nativeHandle, CAnswer.ofOutcome, hcb, hsync]

/-- The end of each method of the C backend but `create`. -/
theorem output_eq_nativeReturn (hsync : methName ≠ .sync) {rest : BaseReturn → BaseReturn}
    (hrest : ∀ reply, outcome = .ok reply → (options.get .callback).truthy = false →
      rest { rc := ZOK } = nativeReply s.host reply methName) :
    (nativeHandle s methName options outcome).output (options.get .callback).truthy
        (completionsOf methName).1 rest =
      nativeReturn s.host methName (options.get .callback).truthy outcome :=
  output_eq hsync hrest _

theorem methodCreate_eq_ok {path data async acls : RubyValue}
    {p : BaseReturn × Option CompletionFn} :
    (nativeHandle s methName options outcome).methodCreate path data async acls = .ok p ↔
      (Succeeds (checkString path) ∧ Succeeds (unlessNil checkString data) ∧
        Succeeds (unlessNil zkrbRubyToAclvector acls)) ∧
      (nativeHandle s methName options outcome).output async.truthy .string (fun ret =>
        { ret with path := some (nativeHandle s methName options outcome).answer.realpath }) =
          p := by
  unfold CHandle.methodCreate
  simp only [then_eq_ok, succeeds_standardPreamble, and_assoc]
  refine and_congr_right' (and_congr_right' (and_congr_right' ?_))
  exact ⟨Except.ok.inj, congrArg _⟩

/-- The end of `create` in the C backend. -/
theorem stripped_output :
    let out := (nativeHandle s .create options outcome).output (options.get .callback).truthy
      .string fun ret =>
        { ret with path := some (nativeHandle s .create options outcome).answer.realpath }
    ({ out.1 with path := stripChrootFrom s.host out.1.path }, out.2) =
      nativeReturn s.host .create (options.get .callback).truthy outcome := by
  intro out
  have hout : out = if (options.get .callback).truthy then ({ rc := ZOK }, some .string)
      else
        match outcome with
        | .ok reply =>
          ({ rc := ZOK, path := some ((serverPath s.host reply).take (REALPATH_SIZE - 1)) }, none)
        | .failed code => ({ rc := code }, none) := by
    refine output_eq (by decide) (fun reply ho hcb => ?_) _
    rw [answer_ok (by decide) hcb ho]
  rw [hout]
  unfold nativeReturn
  split
  · rfl
  · cases outcome with
    | ok reply => rfl
    | failed code => rfl

/-- What a call of the C backend returns, and when it does. -/
theorem nativeCall_eq_ok (hm : methName.compared = true)
    {p : BaseReturn × Option CompletionFn} :
    nativeCall s methName options outcome = .ok p ↔
      NativeArgs methName ((Zookeeper.operation CompletionFn methName).withDefault options) ∧
        nativeReturn s.host methName (options.get .callback).truthy outcome = p := by
  have hpre {y : Except OperationError (BaseReturn × Option CompletionFn)} (path : RubyValue) :
      ((nativeHandle s methName options outcome).standardPreamble path >>= fun _ => y) = .ok p ↔
        Succeeds (checkString path) ∧ y = .ok p :=
    then_eq_ok.trans (and_congr_left' succeeds_standardPreamble)
  have hcallback : ((Zookeeper.operation CompletionFn methName).withDefault options).get .callback =
      options.get .callback :=
    Zookeeper.get_withDefault methName options (by decide) (by decide)
  have hpure {x : BaseReturn × Option CompletionFn}
      (hx : x = nativeReturn s.host methName (options.get .callback).truthy outcome) :
      (.ok x : Except OperationError _) = .ok p ↔
        nativeReturn s.host methName (options.get .callback).truthy outcome = p := by
    rw [hx]
    exact ⟨Except.ok.inj, congrArg _⟩
  have hsync : methName ≠ .sync := by
    rintro rfl
    cases hm
  -- each method checks its arguments in a row and ends in `output`
  cases methName with
  | get | getChildren | getAcl =>
    refine (hpre _).trans (and_congr (and_iff_left trivial).symm (hpure ?_))
    rw [hcallback]
    refine output_eq_nativeReturn hsync fun reply ho hcb => ?_
    rw [answer_ok hsync hcb ho]
    rfl
  | set =>
    refine (hpre _).trans ((and_congr_right' ?_).trans and_assoc.symm)
    refine then_eq_ok.trans ((and_congr_right' (then_eq_ok.trans ?_)).trans and_assoc.symm)
    refine and_congr_right' (hpure ?_)
    rw [hcallback]
    refine output_eq_nativeReturn hsync fun reply ho hcb => ?_
    rw [answer_ok hsync hcb ho]
    rfl
  | delete =>
    refine (hpre _).trans ((and_congr_right' ?_).trans and_assoc.symm)
    refine then_eq_ok.trans (and_congr_right' (hpure ?_))
    rw [hcallback]
    exact output_eq_nativeReturn hsync fun _ _ _ => rfl
  | setAcl =>
    refine (hpre _).trans ((and_congr_right' ?_).trans and_assoc.symm)
    refine then_eq_ok.trans ((and_congr_right' (then_eq_ok.trans ?_)).trans and_assoc.symm)
    refine and_congr_right' (hpure ?_)
    rw [hcallback]
    exact output_eq_nativeReturn hsync fun _ _ _ => rfl
  | create =>
    -- `ext/zookeeper_base.rb` strips the chroot from what the extension returns
    have hcreate {x : Except OperationError (BaseReturn × Option CompletionFn)} :
        (x >>= fun r => pure ({ r.1 with path := stripChrootFrom s.host r.1.path }, r.2)) =
            .ok p ↔
          ∃ r, x = .ok r ∧ ({ r.1 with path := stripChrootFrom s.host r.1.path }, r.2) = p :=
      bind_pure_eq_ok
    refine hcreate.trans ?_
    rw [hcallback]
    constructor
    · rintro ⟨r, hr, rfl⟩
      obtain ⟨hargs, rfl⟩ := methodCreate_eq_ok.1 hr
      exact ⟨hargs, stripped_output.symm⟩
    · rintro ⟨hargs, rfl⟩
      exact ⟨_, methodCreate_eq_ok.2 ⟨hargs, rfl⟩, stripped_output⟩
  | stat | sync => cases hm

/-- The end of each method of the Java backend but `set_acl`. -/
theorem output_eq_javaReturn (hsetAcl : methName ≠ .setAcl) (async : Bool)
    {rest : Reply → Except OperationError BaseReturn}
    (hrest : ∀ reply, rest reply = javaReply reply methName) :
    (if async then JavaClient.async (completionsOf methName).2 (completionsOf methName).2
      else JavaClient.sync ⟨true, outcome⟩ rest) = javaReturn methName async outcome := by
  cases async with
  | true => simp [JavaClient.async, javaReturn, hsetAcl]
  | false =>
    cases outcome with
    | ok reply =>
      simp only [JavaClient.sync, javaReturn, hrest]
      cases javaReply reply methName <;> rfl
    | failed code => rfl

/-- What a call of the Java backend returns, and when it does. -/
theorem javaCall_eq_ok (hm : methName.compared = true)
    {p : BaseReturn × Option JavaCallback} :
    javaCall s methName options outcome = .ok p ↔
      JavaArgs methName ((Zookeeper.operation JavaCallback methName).withDefault options) ∧
        javaReturn methName (options.get .callback).truthy outcome = .ok p := by
  have hcallback : ((Zookeeper.operation JavaCallback methName).withDefault options).get .callback =
      options.get .callback :=
    Zookeeper.get_withDefault methName options (by decide) (by decide)
  -- the arguments are converted in an order of the method's own
  cases methName with
  | get | getChildren | getAcl =>
    refine then_eq_ok.trans (and_congr (and_iff_left trivial).symm ?_)
    rw [hcallback, ← output_eq_javaReturn (by decide) _ fun _ => rfl]
    rfl
  | set =>
    refine then_eq_ok.trans ((and_congr_right' (then_eq_ok.trans
      (and_congr_right' then_eq_ok))).trans ?_)
    rw [hcallback, ← output_eq_javaReturn (by decide) _ fun _ => rfl]
    exact and_left_comm.trans ((and_congr_right' and_assoc.symm).trans and_assoc.symm)
  | delete =>
    refine then_eq_ok.trans ((and_congr_right' then_eq_ok).trans ?_)
    rw [hcallback, ← output_eq_javaReturn (by decide) _ fun _ => rfl]
    exact and_assoc.symm
  | create =>
    refine then_eq_ok.trans ((and_congr_right' (then_eq_ok.trans
      (and_congr_right' then_eq_ok))).trans ?_)
    rw [hcallback, ← output_eq_javaReturn (by decide) _ fun _ => rfl]
    constructor
    · rintro ⟨hacl, hdata, hpath, hend⟩
      exact ⟨⟨hpath, hdata, hacl⟩, hend⟩
    · rintro ⟨⟨hpath, hdata, hacl⟩, hend⟩
      exact ⟨hacl, hdata, hpath, hend⟩
  | setAcl =>
    refine then_eq_ok.trans ((and_congr_right' (then_eq_ok.trans
      (and_congr_right' then_eq_ok))).trans ?_)
    -- the callback is of the wrong class
    have hend : (if (options.get .callback).truthy then JavaClient.async .stat .acl
        else JavaClient.sync ⟨true, outcome⟩ fun _ => return { rc := ZOK }) =
        javaReturn .setAcl (options.get .callback).truthy outcome := by
      unfold javaReturn
      split
      · rfl
      · cases outcome <;> rfl
    rw [hcallback, ← hend]
    exact and_left_comm.trans ((and_congr_right' and_assoc.symm).trans and_assoc.symm)
  | stat | sync => cases hm

end Calls

/-! ## What the caller sees -/

/-- Both backends make the same hash of what a method returns. -/
theorem returned_eq (methName : Meth) (reqId : ℤ) (options : Options) (ret : BaseReturn) :
    (Zookeeper.operation JavaCallback methName).returned reqId
        ((Zookeeper.operation JavaCallback methName).withDefault options) ret =
      (Zookeeper.operation CompletionFn methName).returned reqId
        ((Zookeeper.operation CompletionFn methName).withDefault options) ret := by
  cases methName <;> rfl

theorem reqId_returned (methName : Meth) (reqId : ℤ) (options : Options) (ret : BaseReturn) :
    ((Zookeeper.operation CompletionFn methName).returned reqId options ret).reqId = reqId := by
  cases methName <;> simp only [Operation.returned] <;> split <;> rfl

section Seen

variable (s : Setting) (methName : Meth) (options : Options) (outcome : ServerOutcome)

/-- What the caller sees of a call that the C backend has made. -/
def nativeSeen (p : BaseReturn × Option CompletionFn) : Observed where
  returned := (Zookeeper.operation CompletionFn methName).returned s.requests.currentReqId
    ((Zookeeper.operation CompletionFn methName).withDefault options) p.1
  pushed := p.2.map fun fn => handedBy s.host s.debug
    (zkrbEventToRuby (fn.event s.host s.requests.currentReqId outcome))
    (s.requests.setupCall methName options.toReqHash)

/-- What the caller sees of a call that the Java backend has made. -/
def javaSeen (p : BaseReturn × Option JavaCallback) : Observed where
  returned := (Zookeeper.operation CompletionFn methName).returned s.requests.currentReqId
    ((Zookeeper.operation CompletionFn methName).withDefault options) p.1
  pushed := p.2.map fun cb => handedBy s.host s.debug
    (JavaEvent.toRuby s.requests.currentReqId
      (cb.event (javaPath (options.get .path)).toOption outcome))
    (s.requests.setupCallJava options.toReqHash)

variable {s methName options outcome}

theorem observeNative_eq
    (hcheck : (Zookeeper.operation CompletionFn methName).checkOptions options = .ok ()) :
    observeNative s methName options outcome =
      (nativeCall s methName options outcome).map (nativeSeen s methName options outcome) := by
  have hopen : (Zookeeper.operation CompletionFn methName).check
      (nativeHandle s methName options outcome).base options = .ok () := hcheck
  unfold observeNative
  rw [Operation.run_of_check_ok s.requests hopen, Zookeeper.methName_operation,
    Zookeeper.toReqHash_withDefault]
  show Except.map _ (Except.map _ (nativeCall s methName options outcome)) = _
  cases nativeCall s methName options outcome with
  | error e => rfl
  | ok p =>
    simp only [Except.map, reqId_returned]
    rfl

theorem observeJava_eq
    (hcheck : (Zookeeper.operation JavaCallback methName).checkOptions options = .ok ()) :
    observeJava s methName options outcome =
      (javaCall s methName options outcome).map (javaSeen s methName options outcome) := by
  have hopen : (Zookeeper.operation JavaCallback methName).check
      (JavaClient.base ⟨true, outcome⟩) options = .ok () := hcheck
  unfold observeJava
  rw [Operation.run_of_check_ok s.requests hopen, Zookeeper.toReqHash_withDefault]
  show Except.map _ (Except.map _ (javaCall s methName options outcome)) = _
  cases javaCall s methName options outcome with
  | error e => rfl
  | ok p =>
    simp only [Except.map, returned_eq, reqId_returned]
    rfl

/-- Whether the backends agree is a matter of the arguments and of what the methods return. -/
theorem agree_iff_calls (hm : methName.compared = true)
    (hcheck : (Zookeeper.operation CompletionFn methName).checkOptions options = .ok ()) :
    Agree s methName options outcome ↔
      (NativeArgs methName ((Zookeeper.operation CompletionFn methName).withDefault options) ∧
        JavaArgs methName ((Zookeeper.operation JavaCallback methName).withDefault options)) ∧
      ∃ q, javaReturn methName (options.get .callback).truthy outcome = .ok q ∧
        nativeSeen s methName options outcome
            (nativeReturn s.host methName (options.get .callback).truthy outcome) =
          javaSeen s methName options outcome q ∧
        q.2.isSome = (options.get .callback).truthy := by
  have hcheck' : (Zookeeper.operation JavaCallback methName).checkOptions options = .ok () := by
    rw [← hcheck]
    cases methName <;> rfl
  unfold Agree
  rw [observeNative_eq hcheck, observeJava_eq hcheck']
  simp only [map_eq_ok, nativeCall_eq_ok hm, javaCall_eq_ok hm]
  constructor
  · rintro ⟨_, ⟨_, ⟨hnative, rfl⟩, rfl⟩, ⟨q, ⟨hjava, hq⟩, hseen⟩, hpushed⟩
    refine ⟨⟨hnative, hjava⟩, q, hq, hseen.symm, ?_⟩
    rw [← hseen] at hpushed
    simpa [javaSeen] using hpushed
  · rintro ⟨⟨hnative, hjava⟩, q, hq, hseen, hpushed⟩
    refine ⟨_, ⟨_, ⟨hnative, rfl⟩, rfl⟩, ⟨q, ⟨hjava, hq⟩, hseen.symm⟩, ?_⟩
    rw [hseen]
    simpa [javaSeen] using hpushed

/-- With a callback only the event can differ, and `set_acl` of the Java backend fails. -/
theorem answer_async (hm : methName.compared = true)
    (hcb : (options.get .callback).truthy = true) :
    (∃ q, javaReturn methName true outcome = .ok q ∧
        nativeSeen s methName options outcome (nativeReturn s.host methName true outcome) =
          javaSeen s methName options outcome q ∧ q.2.isSome = true) ↔
      methName ≠ .setAcl ∧ OutcomeFits s.host methName options outcome := by
  obtain ⟨cb, hobj⟩ : ∃ cb, options.obj .callback = some cb :=
    Option.isSome_iff_exists.1 ((options.isSome_obj .callback).trans hcb)
  by_cases hsetAcl : methName = .setAcl
  · refine iff_of_false ?_ fun h => h.1 hsetAcl
    rintro ⟨q, hq, -⟩
    simp [javaReturn, hsetAcl] at hq
  -- the returned hashes have nothing but the id and the code
  have hseen : nativeSeen s methName options outcome (nativeReturn s.host methName true outcome) =
      javaSeen s methName options outcome ({ rc := ZOK }, some (completionsOf methName).2) ↔
      (cb.callable = true → methName = .getAcl → ∃ reply, outcome = .ok reply) := by
    simp only [nativeSeen, javaSeen, nativeReturn, if_true, Option.map_some,
      handedBy_setupCall s methName hobj, handedBy_setupCallJava s hobj, Observed.mk.injEq,
      true_and, Option.some.injEq]
    cases cb.callable with
    | false => simp
    | true => simpa using handed_eq_iff hm hsetAcl s.host s.requests.currentReqId _ outcome
  have hfits : OutcomeFits s.host methName options outcome ↔
      (cb.callable = true → methName = .getAcl → ∃ reply, outcome = .ok reply) := by
    cases outcome with
    | ok reply => cases methName <;> simp [OutcomeFits, hcb]
    | failed code => cases methName <;> simp [OutcomeFits, hobj]
  rw [hfits, ← hseen]
  constructor
  · rintro ⟨q, hq, hsame, -⟩
    obtain rfl : _ = q := by simpa [javaReturn, hsetAcl] using hq
    exact ⟨hsetAcl, hsame⟩
  · rintro ⟨-, hsame⟩
    exact ⟨_, by simp [javaReturn, hsetAcl], hsame, rfl⟩

/-- The data that the C backend returns, cut off at the size of its buffer. -/
theorem take_data_eq_iff {data : Option Bytes} {data' : Bytes} :
    data.map (List.take MAX_ZNODE_SIZE) = some data' ∧ fromJavaBytes data = .ok data' ↔
      data = some data' ∧ data'.length ≤ MAX_ZNODE_SIZE := by
  cases data with
  | none => exact ⟨nofun, nofun⟩
  | some d =>
    constructor
    · rintro ⟨htake, ⟨⟩⟩
      exact ⟨rfl, (List.take_eq_self_iff _).1 (Option.some.inj htake)⟩
    · rintro ⟨⟨⟩, hle⟩
      exact ⟨congrArg some (List.take_of_length_le hle), rfl⟩

/-- The path that the C backend returns, cut off at the size of its buffer. -/
theorem take_path_eq_iff (host : Bytes) (reply : Reply) :
    stripChrootFrom host (some ((serverPath host reply).take (REALPATH_SIZE - 1))) =
        some reply.path ↔
      (serverPath host reply).length < REALPATH_SIZE ∨
        REALPATH_SIZE - 1 < (chrootPath host).length ∧
          (chrootPath host).take (REALPATH_SIZE - 1) = reply.path := by
  have hsize : 0 < REALPATH_SIZE := by decide
  refine (stripChrootFrom_take_iff host reply.path hsize).trans (or_congr_right ?_)
  refine and_congr ?_ eq_comm
  omega

/-- What the two backends return for a successful synchronous call. -/
theorem reply_eq_iff (hm : methName.compared = true)
    (hcb : (options.get .callback).truthy = false) (reply : Reply) :
    (∃ ret, javaReply reply methName = .ok ret ∧
        nativeSeen s methName options (.ok reply) (nativeReply s.host reply methName, none) =
          javaSeen s methName options (.ok reply) (ret, none)) ↔
      OutcomeFits s.host methName options (.ok reply) := by
  have hreturned (ret : BaseReturn) :
      (Zookeeper.operation CompletionFn methName).returned s.requests.currentReqId
          ((Zookeeper.operation CompletionFn methName).withDefault options) ret =
        (Zookeeper.operation CompletionFn methName).merge
          { reqId := s.requests.currentReqId, rc := ret.rc } ret := by
    have hcallback :
        ((Zookeeper.operation CompletionFn methName).withDefault options).get .callback =
          options.get .callback :=
      Zookeeper.get_withDefault methName options (by decide) (by decide)
    simp [Operation.returned, hcallback, hcb]
  have hstat := zookeeperStat_new_eq (some reply.stat)
  have hseen (ret : BaseReturn) :
      nativeSeen s methName options (.ok reply) (nativeReply s.host reply methName, none) =
          javaSeen s methName options (.ok reply) (ret, none) ↔
        (Zookeeper.operation CompletionFn methName).merge
            { reqId := s.requests.currentReqId, rc := (nativeReply s.host reply methName).rc }
            (nativeReply s.host reply methName) =
          (Zookeeper.operation CompletionFn methName).merge
            { reqId := s.requests.currentReqId, rc := ret.rc } ret := by
    simp [nativeSeen, javaSeen, hreturned]
  -- what is left to compare is what the operation merges into its result
  simp only [hseen]
  cases methName with
  | get =>
    have hdata : OutcomeFits s.host .get options (.ok reply) ↔
        ∃ data, reply.data = some data ∧ data.length ≤ MAX_ZNODE_SIZE := by
      simp [OutcomeFits, hcb]
    rw [hdata]
    simp only [← take_data_eq_iff, javaReply, bind_pure_eq_ok]
    constructor
    · rintro ⟨_, ⟨data, hbytes, rfl⟩, hmerge⟩
      simp only [Zookeeper.operation, Zookeeper.get, Returned.mk.injEq, Option.some.injEq]
        at hmerge
      exact ⟨data, hmerge.2.2.1, hbytes⟩
    · rintro ⟨data, htake, hbytes⟩
      refine ⟨_, ⟨data, hbytes, rfl⟩, ?_⟩
      simp only [Zookeeper.operation, Zookeeper.get, nativeReply, htake, hstat]
  | create =>
    have hpath : OutcomeFits s.host .create options (.ok reply) ↔
        stripChrootFrom s.host (some ((serverPath s.host reply).take (REALPATH_SIZE - 1))) =
          some reply.path := by
      rw [take_path_eq_iff]
      simp [OutcomeFits, hcb]
    simp [hpath, javaReply, Zookeeper.operation, Zookeeper.create, nativeReply]
  | set | delete | getChildren | setAcl =>
    refine iff_of_true ⟨_, rfl, ?_⟩ trivial
    simp only [Zookeeper.operation, Zookeeper.set, Zookeeper.delete, Zookeeper.getChildren,
      Zookeeper.setAcl, nativeReply, hstat]
  | getAcl =>
    refine iff_of_true ⟨_, rfl, ?_⟩ trivial
    have hacl : zkrbAclVectorToRuby reply.acls = reply.acls.map jzkdACLToHash := rfl
    simp only [Zookeeper.operation, Zookeeper.getAcl, nativeReply, hstat, hacl]
  | stat | sync => cases hm

/-- Without a callback only the reply can differ. -/
theorem answer_sync (hm : methName.compared = true)
    (hcb : (options.get .callback).truthy = false) :
    (∃ q, javaReturn methName false outcome = .ok q ∧
        nativeSeen s methName options outcome (nativeReturn s.host methName false outcome) =
          javaSeen s methName options outcome q ∧ q.2.isSome = false) ↔
      OutcomeFits s.host methName options outcome := by
  cases outcome with
  | failed code =>
    have hfits : OutcomeFits s.host methName options (.failed code) := by
      have hobj : options.obj .callback = none :=
        Option.isSome_eq_false_iff.1 ((options.isSome_obj .callback).trans hcb) |>
          Option.isNone_iff_eq_none.1
      cases methName <;> simp [OutcomeFits, hobj]
    exact iff_of_true ⟨_, rfl, rfl, rfl⟩ hfits
  | ok reply =>
    rw [← reply_eq_iff hm hcb]
    simp only [javaReturn, Bool.false_eq_true, if_false, map_eq_ok]
    constructor
    · rintro ⟨_, ⟨ret, hret, rfl⟩, hseen, -⟩
      exact ⟨ret, hret, hseen⟩
    · rintro ⟨ret, hret, hseen⟩
      exact ⟨_, ⟨ret, hret, rfl⟩, hseen, rfl⟩

end Seen

/-- For an operation with options that pass its checks, the backends agree exactly if both
accept the arguments, and the answer reaches the caller through both. -/
theorem agree_iff {s : Setting} {methName : Meth} {options : Options} {outcome : ServerOutcome}
    (hm : methName.compared = true)
    (hcheck : (Zookeeper.operation CompletionFn methName).checkOptions options = .ok ()) :
    Agree s methName options outcome ↔
      ArgsFit methName options ∧ OutcomeFits s.host methName options outcome := by
  rw [agree_iff_calls hm hcheck, ← argsFit_iff hm]
  refine (and_congr_right' ?_).trans and_assoc.symm
  -- only a call with a callback pushes an event
  cases hcb : (options.get .callback).truthy with
  | true => simpa using answer_async hm hcb
  | false => simpa using answer_sync hm hcb

/-- A new client, with its connection. -/
def newSetting : Setting where
  host := []
  debug := false
  requests := .initial (.user ⟨7, true⟩)

/-- The options of a call for the root that gives nothing but the path. -/
def pathOnly : Options :=
  [(.path, ⟨.str [47], 1, ⟨8, false⟩⟩)]

/-- What the server says of a root with one byte of data. -/
def rootReply : Reply where
  data := some [97]
  stat := ⟨0, 0, 0, 0, 0, 0, 0, 0, 0, 0, 0⟩
  children := []
  path := [47]
  acls := []

theorem agree_get_root : Agree newSetting .get pathOnly (.ok rootReply) :=
  (agree_iff rfl rfl).2 ⟨⟨⟨[47], rfl⟩, trivial⟩, .inr ⟨[97], rfl, by decide⟩⟩

/-- **A `set` without `:data`.** The C backend takes `nil` for an empty node; the Java backend
asks `nil` for its bytes. -/
theorem not_agree_set_without_data :
    ¬∀ (s : Setting) (methName : Meth) (options : Options) (outcome : ServerOutcome),
      methName.compared = true →
      (Zookeeper.operation CompletionFn methName).checkOptions options = .ok () →
      Agree s methName options outcome := by
  intro hall
  obtain ⟨seen, -, hjava, -⟩ := hall newSetting .set pathOnly (.ok rootReply) rfl rfl
  have hraised : observeJava newSetting .set pathOnly (.ok rootReply) = .error .noMethodError :=
    rfl
  rw [hraised] at hjava
  cases hjava

end ZookeeperClient
