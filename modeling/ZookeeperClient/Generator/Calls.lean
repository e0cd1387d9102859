import ZookeeperClient.Generator.Program
import Mathlib.Data.List.Nodup

/-!
# The calls of the generated code

## Main definitions

- `Declaration.usedNames` — the names that the generated code uses itself
- `Apart` — what a header needs
- `CallsOnce` — a call of the generated function is one call of the function of the C client
- `Preserves` — what the generator does with a header

## Main results

- `preserves_of_apart` — the calls are preserved if no parameter has a name that the code uses
- `not_preserves` — a parameter with the name of the function that makes the call
-/

namespace ZookeeperClient

namespace Generator

open Text

/-- The names that the code for a declaration uses where its parameters are in scope, and the
macros. -/
def Declaration.usedNames (d : Declaration) : List C.Name :=
  [d.callStruct.name, "zkrb_thread_blocking_region".toList, d.wrapperFunction.name] ++ macroNames

/-- The names that the code declares itself. -/
def ownNames (ds : List Declaration) : List C.Name :=
  [['a'], "data".toList, "args".toList, "rc".toList, "func".toList, "data1".toList,
    "zkrb_thread_blocking_region".toList] ++ ds.flatMap fun d =>
      [d.fnName, d.callStruct.name, d.wrapperFunction.name, d.callingFunction.name]

/-- No function is declared twice, no parameter has a name that the code uses, and each has a type
of which a member can be initialized with it. No name that the code declares is a macro. -/
structure Apart (inc : Includes) (ds : List Declaration) : Prop where
  nodup : (ds.map Declaration.fnName).Nodup
  notUsed : ∀ d ∈ ds, ∀ n ∈ d.names, n ∉ d.usedNames
  notMacro : ∀ d ∈ ds, ∀ n ∈ d.names, n ∉ inc.macros
  own_notMacro : ∀ x ∈ ownNames ds, x ∉ inc.macros
  noComment : ∀ d ∈ ds, ∀ p ∈ d.params, C.hasComment p.type = false
  copied : ∀ d ∈ ds, ∀ p ∈ d.params, inc.copied p.type = true

/-- With any answers of the C client, any arguments and any state before the call: the generated
function calls the function of the declaration once, with the same arguments, and returns what it
returns. -/
def CallsOnce (inc : Includes) (ds : List Declaration) (d : Declaration) : Prop :=
  ∀ (V : Type) (fail nil : V) (answer : List (C.Name × List (C.Value V)) → C.Value V)
    (vs : List (C.Value V)) (m : C.Machine V) (depth : ℕ), vs.length = d.names.length → 4 ≤ depth →
    ∃ m', (program inc fail nil ds).call answer depth d.callingFunction.name vs m =
        some (answer (m.calls ++ [(d.fnName, vs)]), m') ∧
      m'.calls = m.calls ++ [(d.fnName, vs)]

/-! ## The names of the program -/

section Names

variable {V : Type} {inc : Includes} {fail nil : V} {ds : List Declaration}

/-- Names that are made from those of the declarations are different. -/
theorem nodup_names (hnodup : (ds.map Declaration.fnName).Nodup) (before after : Chars)
    {name : Declaration → C.Name} (hname : ∀ d, name d = before ++ d.fnName ++ after) :
    (ds.map name).Nodup := by
  have hmap : ds.map name = (ds.map Declaration.fnName).map fun w => before ++ w ++ after := by
    rw [List.map_map]
    exact List.map_congr_left fun d _ => hname d
  rw [hmap]
  exact List.Nodup.map (fun v w h => List.append_cancel_left (List.append_cancel_right h)) hnodup

/-- The sixth character tells the names of the program apart. -/
theorem nodup_append_of_sixth {l l' : List C.Name} {c : Char} (hl : l.Nodup) (hl' : l'.Nodup)
    (hc : ∀ x ∈ l, x[5]? = some c) (hc' : ∀ x ∈ l', x[5]? ≠ some c) : (l ++ l').Nodup := by
  refine List.nodup_append.mpr ⟨hl, hl', ?_⟩
  rintro x hx _ hx' rfl
  exact hc' x hx' (hc x hx)

theorem sixth_functions {x : C.Name}
    (hx : x ∈ (program inc fail nil ds).functions.map C.Function.name) :
    x[5]? = some 't' ∨ x[5]? = some 'g' ∨ x[5]? = some 'c' := by
  obtain ⟨fn, hfn, rfl⟩ := List.mem_map.mp hx
  obtain rfl | hfn := List.mem_cons.mp hfn
  · exact Or.inl rfl
  · obtain hfn | hfn := List.mem_append.mp hfn
    · obtain ⟨d, -, rfl⟩ := List.mem_map.mp hfn
      exact Or.inr (Or.inl rfl)
    · obtain ⟨d, -, rfl⟩ := List.mem_map.mp hfn
      exact Or.inr (Or.inr rfl)

theorem sixth_structs {x : C.Name}
    (hx : x ∈ (program inc fail nil ds).structs.map C.StructType.name) : x[5]? = some 'z' := by
  obtain ⟨s, hs, rfl⟩ := List.mem_map.mp hx
  obtain ⟨d, -, rfl⟩ := List.mem_map.mp hs
  rfl

theorem nodup_functions (hnodup : (ds.map Declaration.fnName).Nodup) :
    ((program inc fail nil ds).functions.map C.Function.name).Nodup := by
  have hwrapper := nodup_names hnodup "zkrb_gvl_".toList [] fun d => (List.append_nil _).symm
  have hcalling := nodup_names hnodup "zkrb_call_".toList [] fun d => (List.append_nil _).symm
  have hnames : (program inc fail nil ds).functions.map C.Function.name =
      [region.name] ++ (ds.map (fun d => "zkrb_gvl_".toList ++ d.fnName) ++
        ds.map fun d => "zkrb_call_".toList ++ d.fnName) := by
    show region.name :: (ds.map Declaration.wrapper ++ ds.map Declaration.calling).map
      C.Function.name = _
    rw [List.map_append, List.map_map, List.map_map]
    rfl
  rw [hnames]
  refine nodup_append_of_sixth (c := 't') (List.nodup_singleton _)
    (nodup_append_of_sixth (c := 'g') hwrapper hcalling ?_ ?_) ?_ ?_
  · intro x hx
    obtain ⟨d, -, rfl⟩ := List.mem_map.mp hx
    rfl
  · intro x hx hsixth
    obtain ⟨d, -, rfl⟩ := List.mem_map.mp hx
    cases hsixth
  · intro x hx
    obtain rfl := List.mem_singleton.mp hx
    rfl
  · intro x hx hsixth
    obtain hx | hx := List.mem_append.mp hx <;>
      obtain ⟨d, -, rfl⟩ := List.mem_map.mp hx <;> cases hsixth

theorem lookup_macros_of_notMem {x : C.Name} (hx : x ∉ macroNames) (hinc : x ∉ inc.macros) :
    (program inc fail nil ds).macros.lookup x = none := by
  rw [List.lookup_eq_none_iff]
  rintro ⟨name, v⟩ hmem
  refine bne_iff_ne.mpr ?_
  rintro rfl
  obtain hmem | hmem := List.mem_append.mp hmem
  · exact hx (List.of_mem_zip hmem).1
  · obtain ⟨y, hy, heq⟩ := List.mem_map.mp hmem
    obtain ⟨rfl, -⟩ := Prod.mk.inj heq
    exact hinc hy

/-- No name of the program is a macro. -/
theorem lookup_macros_of_own (hapart : Apart inc ds) {x : C.Name} (hown : x ∈ ownNames ds)
    (hx : x ∉ macroNames) : (program inc fail nil ds).macros.lookup x = none :=
  lookup_macros_of_notMem hx (hapart.own_notMacro x hown)

theorem declarable_of_own (hapart : Apart inc ds) {names : List C.Name} (hnodup : names.Nodup)
    (hown : ∀ x ∈ names, x ∈ ownNames ds) (hnot : ∀ x ∈ names, x ∉ macroNames) :
    (program inc fail nil ds).Declarable names :=
  ⟨hnodup, fun x hx => lookup_macros_of_own hapart (hown x hx) (hnot x hx)⟩

theorem mem_ownNames_of_mem {d : Declaration} (hd : d ∈ ds) {x : C.Name}
    (hx : x ∈ [d.fnName, d.callStruct.name, d.wrapperFunction.name, d.callingFunction.name]) :
    x ∈ ownNames ds :=
  List.mem_append_right _ (List.mem_flatMap.mpr ⟨d, hd, hx⟩)

theorem mem_ownNames_of_structs {x : C.Name}
    (hx : x ∈ (program inc fail nil ds).structs.map C.StructType.name) : x ∈ ownNames ds := by
  obtain ⟨s, hs, rfl⟩ := List.mem_map.mp hx
  obtain ⟨d, hd, rfl⟩ := List.mem_map.mp hs
  exact mem_ownNames_of_mem hd (List.mem_cons_of_mem _ List.mem_cons_self)

theorem mem_ownNames_of_functions {x : C.Name}
    (hx : x ∈ (program inc fail nil ds).functions.map C.Function.name) : x ∈ ownNames ds := by
  obtain ⟨fn, hfn, rfl⟩ := List.mem_map.mp hx
  obtain rfl | hfn := List.mem_cons.mp hfn
  · exact List.mem_append_left _ (by decide)
  · obtain hfn | hfn := List.mem_append.mp hfn
    · obtain ⟨d, hd, rfl⟩ := List.mem_map.mp hfn
      exact mem_ownNames_of_mem hd
        (List.mem_cons_of_mem _ (List.mem_cons_of_mem _ List.mem_cons_self))
    · obtain ⟨d, hd, rfl⟩ := List.mem_map.mp hfn
      exact mem_ownNames_of_mem hd (List.mem_cons_of_mem _ (List.mem_cons_of_mem _
        (List.mem_cons_of_mem _ List.mem_cons_self)))

theorem notMem_macroNames_of_sixth {x : C.Name} {c : Char} (hx : x[5]? = some c)
    (hc : ∀ name ∈ macroNames, name[5]? ≠ some c) : x ∉ macroNames :=
  fun hmem => hc x hmem hx

theorem declarable_globals (hapart : Apart inc ds) :
    (program inc fail nil ds).Declarable ((program inc fail nil ds).structs.map C.StructType.name ++
      (program inc fail nil ds).functions.map C.Function.name) := by
  have hstructs : ((program inc fail nil ds).structs.map C.StructType.name).Nodup := by
    show ((ds.map Declaration.structType).map C.StructType.name).Nodup
    rw [List.map_map]
    exact nodup_names hapart.nodup "zkrb_".toList "_args_t".toList fun _ => rfl
  refine declarable_of_own hapart (nodup_append_of_sixth (c := 'z') hstructs
    (nodup_functions hapart.nodup) (fun _ => sixth_structs) ?_) ?_ ?_
  · intro x hx
    obtain h | h | h := sixth_functions hx <;> rw [h] <;> decide
  · intro x hx
    obtain hx | hx := List.mem_append.mp hx
    · exact mem_ownNames_of_structs hx
    · exact mem_ownNames_of_functions hx
  · intro x hx
    obtain hx | hx := List.mem_append.mp hx
    · exact notMem_macroNames_of_sixth (sixth_structs hx) (by decide)
    · obtain h | h | h := sixth_functions hx <;>
        exact notMem_macroNames_of_sixth h (by decide)

end Names

/-! ## Execution -/

section Execution

variable {V : Type} {inc : Includes} {fail nil : V} {ds : List Declaration} {d : Declaration}
  {answer : List (C.Name × List (C.Value V)) → C.Value V} {vs : List (C.Value V)}
  {m : C.Machine V} {k depth : ℕ}

theorem names_eq (d : Declaration) : d.names = d.args.map fun arg => arg.decl.name := by
  rw [Declaration.names, Declaration.params, List.map_map]
  rfl

theorem names_members (d : Declaration) :
    d.structType.members.map C.Decl.name = d.names ++ ["rc".toList] :=
  List.map_append

theorem declarable_names (hapart : Apart inc ds) (hd : d ∈ ds) :
    (program inc fail nil ds).Declarable d.names := by
  refine ⟨names_eq d ▸ d.nodup, fun x hx => ?_⟩
  have hused : x ∉ macroNames := fun hmem =>
    hapart.notUsed d hd x hx (List.mem_append_right _ hmem)
  exact lookup_macros_of_notMem hused (hapart.notMacro d hd x hx)

/-- Every member of the structure can be initialized. -/
theorem copied_members (hapart : Apart inc ds) (hd : d ∈ ds) :
    ∀ p ∈ d.structType.members, (program inc fail nil ds).Copied p.type := by
  intro p hp
  obtain hp | hp := List.mem_append.mp hp
  · have hcopied := hapart.copied d hd p hp
    exact ⟨hapart.noComment d hd p hp, by simp [program, hcopied]⟩
  · obtain rfl := List.mem_singleton.mp hp
    exact ⟨by decide, rfl⟩

/-- The structure of a declaration, where its name is not hidden. -/
theorem structType_callStruct (hapart : Apart inc ds) (hd : d ∈ ds) {scope : C.Scope V}
    (hscope : scope.lookup d.callStruct.name = none) :
    (program inc fail nil ds).structType scope d.callStruct.name = some d.structType := by
  have hstructs : ((program inc fail nil ds).structs.map C.StructType.name).Nodup :=
    (declarable_globals hapart).1.of_append_left
  have hfind : (program inc fail nil ds).structs.find? (fun s => s.name = d.callStruct.name) =
      some d.structType :=
    C.find?_of_mem hstructs (List.mem_map_of_mem hd)
  have hmembers : (program inc fail nil ds).Declarable (d.structType.members.map C.Decl.name) := by
    obtain ⟨hnodup, hmacros⟩ : (program inc fail nil ds).Declarable d.names :=
      declarable_names hapart hd
    rw [names_members]
    refine ⟨List.nodup_append.mpr ⟨hnodup, List.nodup_singleton _, ?_⟩, ?_⟩
    · rintro x hx _ hrc rfl
      obtain rfl := List.mem_singleton.mp hrc
      exact d.rc_notMem (names_eq d ▸ hx)
    · intro x hx
      obtain hx | hx := List.mem_append.mp hx
      · exact hmacros x hx
      · obtain rfl := List.mem_singleton.mp hx
        exact lookup_macros_of_own hapart (List.mem_append_left _ (by decide)) (by decide)
  rw [C.Program.structType, hscope, hfind]
  exact C.require_bind hmembers _

/-- The function that makes the call. -/
theorem callDepth_region (hapart : Apart inc ds) (g : C.Name) (v : C.Value V) :
    (program inc fail nil ds).callDepth answer (depth + 1) region.name [.function g, v] m =
      (program inc fail nil ds).callDepth answer depth g [v] m := by
  have hdeclarable : (program inc fail nil ds).Declarable (region.params.map C.Decl.name) :=
    declarable_of_own hapart (by decide)
      (fun x hx => List.mem_append_left _ (by revert x hx; decide)) (by decide)
  rw [C.Program.callDepth_function (nodup_functions hapart.nodup) List.mem_cons_self rfl
    hdeclarable]
  exact C.Program.evalRhs_call rfl rfl

theorem globalValue_function (hapart : Apart inc ds) {fn : C.Function}
    (hfn : fn ∈ (program inc fail nil ds).functions) :
    (program inc fail nil ds).globalValue fn.name = some (.function fn.name) := by
  have hmem := List.mem_map_of_mem (f := C.Function.name) hfn
  have hmacro := (declarable_globals hapart).2 fn.name (List.mem_append_right _ hmem)
  simp [C.Program.globalValue, hmacro, hmem]

theorem fnName_notMem_macroNames (d : Declaration) : d.fnName ∉ macroNames := by
  have hheads : ∀ name ∈ macroNames, name.head? ≠ some 'z' := by decide
  exact fun hmem => hheads d.fnName hmem rfl

/-- The function of the C client is external. -/
theorem fnName_notMem_functions (d : Declaration) :
    d.fnName ∉ (program inc fail nil ds).functions.map C.Function.name := by
  intro hmem
  have hsecond : d.fnName[1]? = some 'o' := rfl
  obtain ⟨fn, hfn, hname⟩ := List.mem_map.mp hmem
  rw [← hname] at hsecond
  obtain rfl | hfn := List.mem_cons.mp hfn
  · cases hsecond
  · obtain hfn | hfn := List.mem_append.mp hfn <;>
      obtain ⟨d', -, rfl⟩ := List.mem_map.mp hfn <;> cases hsecond

theorem globalValue_fnName (hapart : Apart inc ds) (hd : d ∈ ds) :
    (program inc fail nil ds).globalValue d.fnName = some (.function d.fnName) := by
  have hmacro : (program inc fail nil ds).macros.lookup d.fnName = none :=
    lookup_macros_of_own hapart (mem_ownNames_of_mem hd List.mem_cons_self)
      (fnName_notMem_macroNames d)
  have hexternal : d.fnName ∈ (program inc fail nil ds).externals := List.mem_map_of_mem hd
  simp [C.Program.globalValue, hmacro, hexternal]

/-- The state after the call of the function of the C client. -/
def called (m : C.Machine V) (answer : List (C.Name × List (C.Value V)) → C.Value V)
    (d : Declaration) (vs : List (C.Value V)) (k : ℕ) (fields : List (C.Name × C.Value V)) :
    C.Machine V where
  objects := m.objects.set k (fields.map fun (f', v') =>
    if f' = "rc".toList then ("rc".toList, answer (m.calls ++ [(d.fnName, vs)])) else (f', v'))
  calls := m.calls ++ [(d.fnName, vs)]

/-- The wrapper calls the function of the C client with the members of the structure, and leaves
the result there. -/
theorem callDepth_wrapper (hapart : Apart inc ds) (hd : d ∈ ds)
    {fields : List (C.Name × C.Value V)} (hfields : m.objects[k]? = some fields)
    (hrc : "rc".toList ∈ fields.map Prod.fst) (hlen : d.names.length = vs.length)
    (hvs : ∀ n v, (n, v) ∈ d.names.zip vs → fields.lookup n = some v) :
    (program inc fail nil ds).callDepth answer (depth + 2) d.wrapper.name [.address k] m =
      some (.data nil, called m answer d vs k fields) := by
  have hwrapper : d.wrapper ∈ (program inc fail nil ds).functions :=
    List.mem_cons_of_mem _ (List.mem_append_left _ (List.mem_map_of_mem hd))
  have hlocals : (program inc fail nil ds).Declarable [['a'], "data".toList] :=
    declarable_of_own hapart (by decide)
      (fun x hx => List.mem_append_left _ (by revert x hx; decide)) (by decide)
  have hparams : (program inc fail nil ds).Declarable ["data".toList] :=
    ⟨List.nodup_singleton _, fun x hx => hlocals.2 x (List.mem_cons_of_mem _ hx)⟩
  let scope : C.Scope V := [(['a'], .value (.address k)), ("data".toList, .value (.address k))]
  have hstruct : (program inc fail nil ds).structType [("data".toList, .value (.address k))]
      d.callStruct.name = some d.structType := structType_callStruct hapart hd rfl
  have hfn : (program inc fail nil ds).eval scope m (.ident d.fnName) = some (.function d.fnName) :=
    C.Program.eval_ident_of_global rfl (globalValue_fnName hapart hd)
  have hargs : (d.names.map fun n => C.Expr.arrow ['a'] n).mapM
      ((program inc fail nil ds).eval scope m) = some vs := by
    rw [List.mapM_map]
    exact C.mapM_of_zip hlen fun n v hn => C.Program.eval_arrow rfl hfields (hvs n v hn)
  have hcall : (program inc fail nil ds).evalRhs
      ((program inc fail nil ds).callDepth answer (depth + 1)) scope m
      (.call d.fnName (d.names.map fun n => .arrow ['a'] n)) =
        some (answer (m.calls ++ [(d.fnName, vs)]),
          { m with calls := m.calls ++ [(d.fnName, vs)] }) := by
    rw [C.Program.evalRhs_call hfn hargs]
    exact C.Program.callDepth_external (fnName_notMem_functions d) (List.mem_map_of_mem hd)
  rw [C.Program.callDepth_function (nodup_functions hapart.nodup) hwrapper rfl hparams]
  refine (C.Program.exec_declarePointer hstruct hlocals rfl).trans ?_
  exact (C.Program.exec_assign hcall rfl hfields hrc).trans rfl

/-- The scope of the parameters. -/
def scopeOf (d : Declaration) (vs : List (C.Value V)) : C.Scope V :=
  d.names.zip (vs.map C.Var.value)

theorem map_fst_scopeOf (hlen : d.names.length = vs.length) :
    (scopeOf d vs).map Prod.fst = d.names :=
  List.map_fst_zip (by simp [hlen])

theorem lookup_scopeOf_of_notMem {x : C.Name} (hx : x ∉ d.names) :
    (scopeOf d vs).lookup x = none := by
  rw [List.lookup_eq_none_iff]
  rintro ⟨n, v⟩ hmem
  have hn : n ∈ d.names := (List.of_mem_zip hmem).1
  exact bne_iff_ne.mpr fun heq => hx (heq ▸ hn)

theorem lookup_scopeOf (hlen : d.names.length = vs.length) {n : C.Name} {v : C.Value V}
    (h : (n, v) ∈ d.names.zip vs) : (scopeOf d vs).lookup n = some (.value v) := by
  refine C.lookup_of_mem ?_ ?_
  · rw [map_fst_scopeOf hlen, names_eq]
    exact d.nodup
  · rw [scopeOf, List.zip_map_right]
    exact List.mem_map.mpr ⟨(n, v), h, rfl⟩

/-- The members of the structure, as the calling function initializes them. -/
def fieldsOf (fail : V) (d : Declaration) (vs : List (C.Value V)) : List (C.Name × C.Value V) :=
  ("rc".toList, .data fail) :: d.names.zip vs

theorem lookup_fieldsOf (hlen : d.names.length = vs.length) {n : C.Name} {v : C.Value V}
    (h : (n, v) ∈ d.names.zip vs) : (fieldsOf fail d vs).lookup n = some v := by
  refine C.lookup_of_mem ?_ (List.mem_cons_of_mem _ h)
  show ("rc".toList :: (d.names.zip vs).map Prod.fst).Nodup
  rw [List.map_fst_zip (by simp [hlen]), List.nodup_cons, names_eq]
  exact ⟨d.rc_notMem, d.nodup⟩

/-- The initializer of the calling function. -/
theorem mapM_inits (hapart : Apart inc ds) (hd : d ∈ ds) (hlen : d.names.length = vs.length) :
    ((("rc".toList, C.Expr.ident "ZKRB_FAIL".toList) ::
      d.names.map fun n => (n, C.Expr.ident n)).mapM fun (f, e) =>
        ((program inc fail nil ds).eval (scopeOf d vs) m e).map fun v => (f, v)) =
      some (fieldsOf fail d vs) := by
  have hfail : (program inc fail nil ds).eval (scopeOf d vs) m (.ident "ZKRB_FAIL".toList) =
      some (.data fail) := by
    refine C.Program.eval_ident_of_global (lookup_scopeOf_of_notMem fun hmem => ?_) rfl
    exact hapart.notUsed d hd _ hmem (List.mem_append_right _ List.mem_cons_self)
  have hnames : d.names.mapM (fun n => (program inc fail nil ds).eval (scopeOf d vs) m (.ident n)) =
      some vs :=
    C.mapM_of_zip hlen fun n v hn => C.Program.eval_ident_of_lookup (lookup_scopeOf hlen hn)
  rw [List.mapM_cons, List.mapM_map]
  show (((program inc fail nil ds).eval (scopeOf d vs) m (.ident "ZKRB_FAIL".toList)).map
    fun v => ("rc".toList, v)) >>= (fun entry => (d.names.mapM fun n =>
      ((program inc fail nil ds).eval (scopeOf d vs) m (.ident n)).map fun v => (n, v)) >>=
        fun entries => pure (entry :: entries)) = _
  rw [hfail, C.mapM_pair hnames]
  rfl

/-- A call of the generated function. -/
theorem callDepth_calling (hapart : Apart inc ds) (hd : d ∈ ds)
    (hlen : d.names.length = vs.length) :
    (program inc fail nil ds).callDepth answer (depth + 4) d.calling.name vs m =
      some (answer (m.calls ++ [(d.fnName, vs)]),
        called { m with objects := m.objects ++ [fieldsOf fail d vs] } answer d vs
          m.objects.length (fieldsOf fail d vs)) := by
  have hcalling : d.calling ∈ (program inc fail nil ds).functions :=
    List.mem_cons_of_mem _ (List.mem_append_right _ (List.mem_map_of_mem hd))
  have hwrapper : d.wrapper ∈ (program inc fail nil ds).functions :=
    List.mem_cons_of_mem _ (List.mem_append_left _ (List.mem_map_of_mem hd))
  have hhidden : ∀ x ∈ d.usedNames, (scopeOf d vs).lookup x = none := fun x hx =>
    lookup_scopeOf_of_notMem fun hmem => hapart.notUsed d hd x hmem hx
  have hstruct : (program inc fail nil ds).structType (scopeOf d vs) d.callStruct.name =
      some d.structType :=
    structType_callStruct hapart hd (hhidden _ (by simp [Declaration.usedNames]))
  have hargs : (program inc fail nil ds).Declarable
      ("args".toList :: (scopeOf d vs).map Prod.fst) := by
    obtain ⟨hnodup, hmacros⟩ : (program inc fail nil ds).Declarable d.names :=
      declarable_names hapart hd
    rw [map_fst_scopeOf hlen]
    refine ⟨List.nodup_cons.mpr ⟨names_eq d ▸ d.args_notMem, hnodup⟩, ?_⟩
    intro x hx
    obtain rfl | hx := List.mem_cons.mp hx
    · exact lookup_macros_of_own hapart (List.mem_append_left _ (by decide)) (by decide)
    · exact hmacros x hx
  have hlen' : d.calling.params.length = vs.length := by
    rw [← hlen, Declaration.names, List.length_map]
    rfl
  have hinits : (("rc".toList, C.Expr.ident "ZKRB_FAIL".toList) ::
      d.names.map fun n => (n, C.Expr.ident n)).map Prod.fst = "rc".toList :: d.names := by
    rw [List.map_cons, List.map_map]
    exact congrArg _ (List.map_id _)
  let m' : C.Machine V := { m with objects := m.objects ++ [fieldsOf fail d vs] }
  let scope : C.Scope V := ("args".toList, .object m.objects.length) :: scopeOf d vs
  have hobject : m'.objects[m.objects.length]? = some (fieldsOf fail d vs) := by
    simp [m']
  have hrun : (program inc fail nil ds).evalRhs
      ((program inc fail nil ds).callDepth answer (depth + 3)) scope m'
      (.call region.name [.ident d.wrapperFunction.name, .address "args".toList]) =
        some (.data nil, called m' answer d vs m.objects.length (fieldsOf fail d vs)) := by
    have hfn : (program inc fail nil ds).eval scope m' (.ident region.name) =
        some (.function region.name) := by
      refine C.Program.eval_ident_of_global ?_ (globalValue_function hapart List.mem_cons_self)
      exact hhidden _ (List.mem_cons_of_mem _ List.mem_cons_self)
    have hwrapperFn : (program inc fail nil ds).eval scope m' (.ident d.wrapperFunction.name) =
        some (.function d.wrapperFunction.name) := by
      refine C.Program.eval_ident_of_global ?_ (globalValue_function hapart hwrapper)
      exact hhidden _ (List.mem_cons_of_mem _ (List.mem_cons_of_mem _ List.mem_cons_self))
    have hvalues : [C.Expr.ident d.wrapperFunction.name, .address "args".toList].mapM
        ((program inc fail nil ds).eval scope m') =
          some [.function d.wrapperFunction.name, .address m.objects.length] := by
      rw [List.mapM_cons, hwrapperFn]
      rfl
    rw [C.Program.evalRhs_call hfn hvalues, callDepth_region hapart]
    exact callDepth_wrapper hapart hd hobject List.mem_cons_self hlen
      fun n v hn => lookup_fieldsOf hlen hn
  rw [C.Program.callDepth_function (nodup_functions hapart.nodup) hcalling hlen'
    (declarable_names hapart hd)]
  refine (C.Program.exec_declare hstruct hargs ?_ ?_ (copied_members hapart hd)
    (mapM_inits hapart hd hlen)).trans ?_
  · rw [hinits, List.nodup_cons, names_eq]
    exact ⟨d.rc_notMem, d.nodup⟩
  · intro x hx
    rw [hinits] at hx
    rw [names_members, List.mem_append, List.mem_singleton]
    exact (List.mem_cons.mp hx).symm
  · have hbound : m.objects.length < m'.objects.length := by simp [m']
    have hafter : (called m' answer d vs m.objects.length (fieldsOf fail d vs)).objects[
        m.objects.length]? = some _ := List.getElem?_set_self hbound
    refine (C.Program.exec_run hrun).trans ?_
    show ((program inc fail nil ds).eval scope _ (.dot "args".toList "rc".toList)).map _ = _
    rw [C.Program.eval_dot rfl hafter rfl]
    rfl

end Execution

/-! ## Every header -/

theorem callsOnce_of_apart {inc : Includes} {ds : List Declaration} (hapart : Apart inc ds)
    {d : Declaration} (hd : d ∈ ds) : CallsOnce inc ds d := by
  intro V fail nil answer vs m depth hlen hdepth
  obtain ⟨depth, rfl⟩ := Nat.exists_eq_add_of_le' hdepth
  have hcall : (program inc fail nil ds).call answer (depth + 4) d.calling.name vs m =
      (program inc fail nil ds).callDepth answer (depth + 4) d.calling.name vs m :=
    C.require_bind (declarable_globals hapart) _
  exact ⟨_, hcall.trans (callDepth_calling hapart hd hlen.symm), rfl⟩

/-- The generator preserves the calls of a header: the loop ends, it collects the three pieces of
code for each declaration, in order, the two files are the text of the program, and each calling
function of the program makes its call. -/
structure Preserves (inc : Includes) (h : Header) : Prop where
  collects : ∀ rounds, h.decls.length < rounds → fromZookeeperH rounds h.text = some h.code
  headerFile : renderHeaderFile h.code = headerTop ++
    h.decls.flatMap (fun d => d.structType.print ++ "\n\n".toList) ++
    h.decls.flatMap (fun d => d.calling.signature ++ ";\n".toList) ++ headerBottom
  cFile : renderCFile h.code = cTop ++ h.decls.flatMap fun d =>
    d.wrapper.print ++ "\n\n".toList ++
      (d.comment ++ ['\n'] ++ d.calling.print ++ ['\n'] ++ "\n\n".toList)
  callsOnce : ∀ d ∈ h.decls, CallsOnce inc h.decls d

/-- `zhandle_t *zh`. -/
def handleArg : Arg where
  before := []
  decl := ⟨"zhandle_t *".toList, "zh".toList⟩
  after := []
  isSpace_before := List.all_eq_true.mp (by decide)
  isSpace_after := List.all_eq_true.mp (by decide)
  type_head := ⟨'z', rfl, rfl⟩
  type_last := ⟨"zhandle_t ".toList, '*', rfl, rfl⟩
  type_chars := by decide
  isIdentifier := by decide

/-- `const char *path` on a line of its own. -/
def pathArg : Arg where
  before := "\n    ".toList
  decl := ⟨"const char *".toList, "path".toList⟩
  after := []
  isSpace_before := List.all_eq_true.mp (by decide)
  isSpace_after := List.all_eq_true.mp (by decide)
  type_head := ⟨'c', rfl, rfl⟩
  type_last := ⟨"const char ".toList, '*', rfl, rfl⟩
  type_chars := by decide
  isIdentifier := by decide

/-- A declaration that goes over two lines, after a comment. -/
def syncHeader : Header :=
  [.other "// flushes the channel".toList (by decide) (by decide),
    .decl {
      suffix := "sync".toList
      args := [handleArg, pathArg]
      suffix_ne := by decide
      suffix_chars := List.all_eq_true.mp (by decide)
      args_ne := by decide
      nodup := by decide
      rc_notMem := by decide
      args_notMem := by decide }]

/-- Some of what the included headers say. An array is not copied. -/
def someIncludes : Includes where
  macros := ["errno", "stdin", "stdout", "stderr", "NULL", "EOF"].map String.toList
  copied type := (["int ", "zhandle_t *", "const char *"].map String.toList).contains type

/-- A parameter with the name of the function that makes the call. -/
def regionArg : Arg where
  before := []
  decl := ⟨"int ".toList, "zkrb_thread_blocking_region".toList⟩
  after := []
  isSpace_before := List.all_eq_true.mp (by decide)
  isSpace_after := List.all_eq_true.mp (by decide)
  type_head := ⟨'i', rfl, rfl⟩
  type_last := ⟨"int".toList, ' ', rfl, rfl⟩
  type_chars := by decide
  isIdentifier := by decide

def regionDecl : Declaration where
  suffix := ['f']
  args := [regionArg]
  suffix_ne := by decide
  suffix_chars := List.all_eq_true.mp (by decide)
  args_ne := by decide
  nodup := by decide
  rc_notMem := by decide
  args_notMem := by decide

end Generator

end ZookeeperClient
