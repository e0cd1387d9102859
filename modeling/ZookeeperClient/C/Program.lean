import ZookeeperClient.Text.Fields

/-!
# A part of C

Structures, functions without branches, and calls: enough for functions that pack their arguments
into a structure and hand its address over. A type is a text; which types a member of a structure
can have, and be given the value of a parameter of the same type, is a part of the program. A name
that is declared in a function hides the global one; a macro replaces every name, so no name of a
macro can be declared. Functions of the program are executed; a call of an external one is
recorded, with its arguments, and answered. Where a program does not compile, or does something
undefined, there is no result.

## Main definitions

- `Decl`, `StructType`, `Stmt`, `Function`, and their texts
- `Program`, `Machine`, `Program.call` — programs, the state, and the execution of a call

## Main results

- `callDepth_function`, `callDepth_external` — the two kinds of calls
- `mapM_of_zip` — parameters and members have the values that they were given, in their order
-/

namespace C

open Text

abbrev Name := Chars

/-! ## Syntax -/

def isIdentChar (c : Char) : Bool :=
  c.isAlphanum || c == '_'

def keywords : List Name :=
  ["auto", "break", "case", "char", "const", "continue", "default", "do", "double", "else", "enum",
    "extern", "float", "for", "goto", "if", "inline", "int", "long", "register", "restrict",
    "return", "short", "signed", "sizeof", "static", "struct", "switch", "typedef", "union",
    "unsigned", "void", "volatile", "while", "_Bool", "_Complex", "_Imaginary"].map String.toList

structure IsIdentifier (name : Name) : Prop where
  ne_nil : name ≠ []
  chars : ∀ c ∈ name, isIdentChar c = true
  head : name.head?.any Char.isDigit = false
  notKeyword : name ∉ keywords

instance (name : Name) : Decidable (IsIdentifier name) :=
  decidable_of_iff (name ≠ [] ∧ name.all isIdentChar = true ∧
      name.head?.any Char.isDigit = false ∧ name ∉ keywords)
    ⟨fun h => ⟨h.1, List.all_eq_true.mp h.2.1, h.2.2.1, h.2.2.2⟩,
      fun h => ⟨h.ne_nil, List.all_eq_true.mpr h.chars, h.head, h.notKeyword⟩⟩

/-- A comment begins in the text. -/
def hasComment : Chars → Bool
  | '/' :: '/' :: _ | '/' :: '*' :: _ => true
  | _ :: rest => hasComment rest
  | [] => false

/-- A declaration: the type, with what stands between it and the name, and the name. -/
structure Decl where
  type : Chars
  name : Name
  deriving DecidableEq, Repr

structure StructType where
  name : Name
  members : List Decl
  deriving DecidableEq, Repr

inductive Expr where
  | ident (x : Name)
  /-- `x.f`. -/
  | dot (x f : Name)
  /-- `x->f`. -/
  | arrow (x f : Name)
  /-- `(void *)&x`. -/
  | address (x : Name)
  deriving DecidableEq, Repr

/-- An expression, or a call. -/
inductive Rhs where
  | expr (e : Expr)
  | call (fn : Name) (args : List Expr)
  deriving DecidableEq, Repr

inductive Stmt where
  | blank
  /-- `T x = { .f = e, … };`. -/
  | declare (type x : Name) (inits : List (Name × Expr))
  /-- `T *x = (T *)y;`. -/
  | declarePointer (type x y : Name)
  /-- `x->f = rhs;`. -/
  | assign (x f : Name) (rhs : Rhs)
  | run (rhs : Rhs)
  | ret (rhs : Rhs)
  deriving DecidableEq, Repr

/-- A function; `result` is what stands before its name. -/
structure Function where
  result : Chars
  name : Name
  params : List Decl
  body : List Stmt
  deriving DecidableEq, Repr

/-! ## Texts -/

def Decl.print (d : Decl) : Chars :=
  d.type ++ d.name

/-- Texts with a comma between them. -/
def commas (parts : List Chars) : Chars :=
  ", ".toList.intercalate parts

def StructType.print (s : StructType) : Chars :=
  lines (["typedef struct \x7b".toList] ++
    s.members.map (fun d => "  ".toList ++ d.print ++ [';']) ++ ["\x7d ".toList ++ s.name ++ [';']])

def Expr.print : Expr → Chars
  | ident x => x
  | dot x f => x ++ ['.'] ++ f
  | arrow x f => x ++ "->".toList ++ f
  | address x => "(void *)&".toList ++ x

def Rhs.print : Rhs → Chars
  | expr e => e.print
  | call fn args => fn ++ ['('] ++ commas (args.map Expr.print) ++ [')']

/-- An initializer with designators. -/
def printInits (inits : List (Name × Expr)) : Chars :=
  ",\n".toList.intercalate
    (inits.map fun (f, e) => "    .".toList ++ f ++ " = ".toList ++ e.print)

def Stmt.print : Stmt → Chars
  | blank => []
  | declare type x inits =>
    lines ["  ".toList ++ type ++ [' '] ++ x ++ " = \x7b".toList, printInits inits,
      "  \x7d;".toList]
  | declarePointer type x y =>
    "  ".toList ++ type ++ " *".toList ++ x ++ " = (".toList ++ type ++ " *)".toList ++ y ++ [';']
  | assign x f rhs => "  ".toList ++ x ++ "->".toList ++ f ++ " = ".toList ++ rhs.print ++ [';']
  | run rhs => "  ".toList ++ rhs.print ++ [';']
  | ret rhs => "  return ".toList ++ rhs.print ++ [';']

def Function.signature (fn : Function) : Chars :=
  fn.result ++ fn.name ++ ['('] ++ commas (fn.params.map Decl.print) ++ [')']

def Function.print (fn : Function) : Chars :=
  lines ([fn.signature ++ " \x7b".toList] ++ fn.body.map Stmt.print ++ ["\x7d".toList])

section Print

variable (type x y f fn : Name) (rhs : Rhs) (args : List Expr)

theorem print_declarePointer : (Stmt.declarePointer type x y).print =
    "  ".toList ++ type ++ " *".toList ++ x ++ " = (".toList ++ type ++ " *)".toList ++ y ++
      [';'] := rfl

theorem print_assign : (Stmt.assign x f rhs).print =
    "  ".toList ++ x ++ "->".toList ++ f ++ " = ".toList ++ rhs.print ++ [';'] := rfl

theorem print_ret : (Stmt.ret rhs).print = "  return ".toList ++ rhs.print ++ [';'] := rfl

theorem print_call :
    (Rhs.call fn args).print = fn ++ ['('] ++ commas (args.map Expr.print) ++ [')'] := rfl

end Print

/-! ## Execution -/

/-- Without the condition there is no result. -/
def require (p : Prop) [Decidable p] : Option Unit :=
  if p then some () else none

/-- A value: data of any kind, the address of an object, or a function. -/
inductive Value (V : Type) where
  | data (v : V)
  | address (k : ℕ)
  | function (g : Name)
  deriving DecidableEq, Repr

/-- The structures that have been allocated, and the external calls that have been made. -/
structure Machine (V : Type) where
  objects : List (List (Name × Value V))
  calls : List (Name × List (Value V))
  deriving DecidableEq, Repr

/-- What a declared name stands for. -/
inductive Var (V : Type) where
  | value (v : Value V)
  /-- A variable of a structure type. -/
  | object (k : ℕ)

abbrev Scope (V : Type) := List (Name × Var V)

structure Program (V : Type) where
  structs : List StructType
  functions : List Function
  externals : List Name
  /-- Macros that stand for a constant, or for something else. -/
  macros : List (Name × Option V)
  /-- A member that is declared with this type can be initialized with a parameter that is declared
  with it. With an array it cannot: the parameter is a pointer. -/
  copied : Chars → Bool

namespace Program

variable {V : Type} (P : Program V)

/-- The names can be declared together. -/
def Declarable (names : List Name) : Prop :=
  names.Nodup ∧ ∀ x ∈ names, P.macros.lookup x = none

instance (names : List Name) : Decidable (P.Declarable names) :=
  inferInstanceAs (Decidable (_ ∧ _))

/-- The text is a type, of a member that a parameter can be copied to. -/
def Copied (type : Chars) : Prop :=
  hasComment type = false ∧ P.copied type = true

instance (type : Chars) : Decidable (P.Copied type) :=
  inferInstanceAs (Decidable (_ ∧ _))

/-- What a name stands for outside of all functions. -/
def globalValue (x : Name) : Option (Value V) :=
  match P.macros.lookup x with
  | some v => v.map .data
  | none =>
    if x ∈ P.functions.map Function.name ∨ x ∈ P.externals then some (.function x) else none

/-- The structure that a name of a type stands for. -/
def structType (scope : Scope V) (type : Name) : Option StructType :=
  match scope.lookup type with
  | some _ => none
  | none => do
    let s ← P.structs.find? fun s => s.name = type
    require (P.Declarable (s.members.map Decl.name))
    return s

def eval (scope : Scope V) (m : Machine V) : Expr → Option (Value V)
  | .ident x =>
    match scope.lookup x with
    | some (.value v) => some v
    | some (.object _) => none
    | none => P.globalValue x
  | .dot x f =>
    match scope.lookup x with
    | some (.object k) => (m.objects[k]?).bind fun fields => fields.lookup f
    | _ => none
  | .arrow x f =>
    match scope.lookup x with
    | some (.value (.address k)) => (m.objects[k]?).bind fun fields => fields.lookup f
    | _ => none
  | .address x =>
    match scope.lookup x with
    | some (.object k) => some (.address k)
    | _ => none

/-- The function that is called by a name, which may be that of a variable. -/
def callee (scope : Scope V) (m : Machine V) (fn : Name) : Option Name :=
  match P.eval scope m (.ident fn) with
  | some (.function g) => some g
  | _ => none

section Exec

variable (call : Name → List (Value V) → Machine V → Option (Value V × Machine V))

def evalRhs (scope : Scope V) (m : Machine V) : Rhs → Option (Value V × Machine V)
  | .expr e => (P.eval scope m e).map fun v => (v, m)
  | .call fn args => do
    let g ← P.callee scope m fn
    let vs ← args.mapM (P.eval scope m)
    call g vs m

/-- The statements of a function, up to `return`. Members that are not initialized are not
modelled. -/
def exec : List Stmt → Scope V → Machine V → Option (Value V × Machine V)
  | [], _, _ => none
  | .blank :: rest, scope, m => exec rest scope m
  | .declare type x inits :: rest, scope, m => do
    let s ← P.structType scope type
    require (P.Declarable (x :: scope.map Prod.fst))
    require ((inits.map Prod.fst).Nodup ∧ ∀ f ∈ inits.map Prod.fst, f ∈ s.members.map Decl.name)
    require (∀ d ∈ s.members, P.Copied d.type)
    let fields ← inits.mapM fun (f, e) => (P.eval scope m e).map fun v => (f, v)
    exec rest ((x, .object m.objects.length) :: scope) { m with objects := m.objects ++ [fields] }
  | .declarePointer type x y :: rest, scope, m => do
    let _ ← P.structType scope type
    require (P.Declarable (x :: scope.map Prod.fst))
    let v ← P.eval scope m (.ident y)
    exec rest ((x, .value v) :: scope) m
  | .assign x f rhs :: rest, scope, m => do
    let (v, m) ← P.evalRhs call scope m rhs
    match scope.lookup x with
    | some (.value (.address k)) =>
      let fields ← m.objects[k]?
      require (f ∈ fields.map Prod.fst)
      let fields := fields.map fun (f', v') => if f' = f then (f, v) else (f', v')
      exec rest scope { m with objects := m.objects.set k fields }
    | _ => none
  | .run rhs :: rest, scope, m => do
    let (_, m) ← P.evalRhs call scope m rhs
    exec rest scope m
  | .ret rhs :: _, scope, m => P.evalRhs call scope m rhs

end Exec

/-- A call of a function, nested at most `n` deep. The answers of external functions depend on
the calls up to theirs. -/
def callDepth (answer : List (Name × List (Value V)) → Value V) :
    ℕ → Name → List (Value V) → Machine V → Option (Value V × Machine V)
  | 0, _, _, _ => none
  | n + 1, g, vs, m =>
    match P.functions.find? fun fn => fn.name = g with
    | some fn => do
      require (fn.params.length = vs.length ∧ P.Declarable (fn.params.map Decl.name))
      P.exec (callDepth answer n) fn.body ((fn.params.map Decl.name).zip (vs.map Var.value)) m
    | none => do
      require (g ∈ P.externals)
      let calls := m.calls ++ [(g, vs)]
      return (answer calls, { m with calls := calls })

/-- A call of a function of the program, which compiles only if nothing is defined twice. -/
def call (answer : List (Name × List (Value V)) → Value V) (n : ℕ) (g : Name)
    (vs : List (Value V)) (m : Machine V) : Option (Value V × Machine V) := do
  require (P.Declarable (P.structs.map StructType.name ++ P.functions.map Function.name))
  P.callDepth answer n g vs m

end Program

/-! ## Tables -/

section Tables

variable {α β : Type}

theorem require_bind {p : Prop} [Decidable p] (hp : p) (rest : Unit → Option α) :
    (require p >>= rest) = rest () := by
  rw [require, if_pos hp]
  rfl

theorem lookup_of_mem {l : List (Name × α)} {x : Name} {v : α} (hnodup : (l.map Prod.fst).Nodup)
    (h : (x, v) ∈ l) : l.lookup x = some v := by
  induction l with
  | nil => cases h
  | cons entry l ih =>
    obtain ⟨y, w⟩ := entry
    obtain ⟨hnot, hnodup⟩ := List.nodup_cons.mp hnodup
    obtain heq | hmem := List.mem_cons.mp h
    · cases heq
      exact List.lookup_cons_self
    · have hne : x ≠ y := by
        rintro rfl
        exact hnot (List.mem_map.mpr ⟨(x, v), hmem, rfl⟩)
      rw [List.lookup_cons, beq_false_of_ne hne]
      exact ih hnodup hmem

theorem find?_of_mem {l : List α} {key : α → Name} {a : α} (hnodup : (l.map key).Nodup)
    (h : a ∈ l) : l.find? (fun b => key b = key a) = some a := by
  induction l with
  | nil => cases h
  | cons b l ih =>
    obtain ⟨hnot, hnodup⟩ := List.nodup_cons.mp hnodup
    obtain rfl | hmem := List.mem_cons.mp h
    · exact List.find?_cons_of_pos (by simp)
    · have hne : key b ≠ key a := fun heq => hnot (heq ▸ List.mem_map_of_mem hmem)
      rw [List.find?_cons_of_neg (by simpa using hne)]
      exact ih hnodup hmem

/-- A function that has the given values at the elements of a list, in their order. -/
theorem mapM_of_zip {f : α → Option β} {xs : List α} {vs : List β} (hlen : xs.length = vs.length)
    (h : ∀ x v, (x, v) ∈ xs.zip vs → f x = some v) : xs.mapM f = some vs := by
  induction xs generalizing vs with
  | nil =>
    obtain rfl := List.length_eq_zero_iff.mp hlen.symm
    rfl
  | cons x xs ih =>
    cases vs with
    | nil => cases hlen
    | cons v vs =>
      have hx := h x v List.mem_cons_self
      have hxs := ih (Nat.succ.inj hlen) fun y w hy => h y w (List.mem_cons_of_mem _ hy)
      rw [List.mapM_cons, hx, hxs]
      rfl

theorem mapM_pair {f : α → Option β} {xs : List α} {vs : List β} (h : xs.mapM f = some vs) :
    (xs.mapM fun x => (f x).map fun v => (x, v)) = some (xs.zip vs) := by
  induction xs generalizing vs with
  | nil =>
    cases h
    rfl
  | cons x xs ih =>
    rw [List.mapM_cons] at h ⊢
    obtain ⟨v, hv, h⟩ := Option.bind_eq_some_iff.mp h
    obtain ⟨vs, hvs, h⟩ := Option.bind_eq_some_iff.mp h
    cases h
    rw [hv, ih hvs]
    rfl

end Tables

namespace Program

variable {V : Type} {P : Program V}

/-! ## Execution, rule by rule -/

section Rules

variable {call : Name → List (Value V) → Machine V → Option (Value V × Machine V)}
  {scope : Scope V} {m m' : Machine V} {rest : List Stmt} {type x y f fn g : Name}

theorem eval_ident_of_lookup {v : Value V} (h : scope.lookup x = some (.value v)) :
    P.eval scope m (.ident x) = some v := by
  simp [eval, h]

theorem eval_ident_of_global {v : Value V} (h : scope.lookup x = none)
    (hv : P.globalValue x = some v) : P.eval scope m (.ident x) = some v := by
  simp [eval, h, hv]

theorem eval_dot {k : ℕ} {fields : List (Name × Value V)} {v : Value V}
    (h : scope.lookup x = some (.object k)) (hfields : m.objects[k]? = some fields)
    (hv : fields.lookup f = some v) : P.eval scope m (.dot x f) = some v := by
  simp [eval, h, hfields, hv]

theorem eval_arrow {k : ℕ} {fields : List (Name × Value V)} {v : Value V}
    (h : scope.lookup x = some (.value (.address k))) (hfields : m.objects[k]? = some fields)
    (hv : fields.lookup f = some v) : P.eval scope m (.arrow x f) = some v := by
  simp [eval, h, hfields, hv]

theorem callee_of_eval (h : P.eval scope m (.ident fn) = some (.function g)) :
    P.callee scope m fn = some g := by
  simp [callee, h]

theorem evalRhs_call {args : List Expr} {vs : List (Value V)}
    (hfn : P.eval scope m (.ident fn) = some (.function g))
    (hargs : args.mapM (P.eval scope m) = some vs) :
    P.evalRhs call scope m (.call fn args) = call g vs m := by
  simp [evalRhs, callee_of_eval hfn, hargs]

theorem exec_declare {s : StructType} {inits : List (Name × Expr)}
    {fields : List (Name × Value V)} (hs : P.structType scope type = some s)
    (hx : P.Declarable (x :: scope.map Prod.fst)) (hnodup : (inits.map Prod.fst).Nodup)
    (hmem : ∀ f ∈ inits.map Prod.fst, f ∈ s.members.map Decl.name)
    (hcopied : ∀ d ∈ s.members, P.Copied d.type)
    (hfields : (inits.mapM fun (f, e) => (P.eval scope m e).map fun v => (f, v)) =
      some fields) :
    P.exec call (.declare type x inits :: rest) scope m =
      P.exec call rest ((x, .object m.objects.length) :: scope)
        { m with objects := m.objects ++ [fields] } := by
  have hmem' : (inits.map Prod.fst).Nodup ∧
      ∀ f ∈ inits.map Prod.fst, f ∈ s.members.map Decl.name := ⟨hnodup, hmem⟩
  rw [exec, hs]
  refine (require_bind hx _).trans ((require_bind hmem' _).trans ?_)
  refine (require_bind hcopied _).trans ?_
  rw [hfields]
  rfl

theorem exec_declarePointer {s : StructType} {v : Value V}
    (hs : P.structType scope type = some s) (hx : P.Declarable (x :: scope.map Prod.fst))
    (hv : P.eval scope m (.ident y) = some v) :
    P.exec call (.declarePointer type x y :: rest) scope m =
      P.exec call rest ((x, .value v) :: scope) m := by
  rw [exec, hs, hv]
  exact require_bind hx _

theorem exec_assign {rhs : Rhs} {v : Value V} {k : ℕ} {fields : List (Name × Value V)}
    (hrhs : P.evalRhs call scope m rhs = some (v, m'))
    (hx : scope.lookup x = some (.value (.address k))) (hfields : m'.objects[k]? = some fields)
    (hf : f ∈ fields.map Prod.fst) :
    P.exec call (.assign x f rhs :: rest) scope m =
      P.exec call rest scope
        { m' with
          objects := m'.objects.set k
            (fields.map fun (f', v') => if f' = f then (f, v) else (f', v')) } := by
  rw [exec, hrhs]
  rw [Option.bind_eq_bind, Option.bind_some]
  dsimp only
  rw [hx]
  dsimp only
  rw [hfields]
  exact require_bind hf _

theorem exec_run {rhs : Rhs} {v : Value V} (hrhs : P.evalRhs call scope m rhs = some (v, m')) :
    P.exec call (.run rhs :: rest) scope m = P.exec call rest scope m' := by
  rw [exec, hrhs]
  rfl

end Rules

section Calls

variable {answer : List (Name × List (Value V)) → Value V} {n : ℕ} {vs : List (Value V)}
  {m : Machine V}

theorem callDepth_function {fn : Function} (hnodup : (P.functions.map Function.name).Nodup)
    (hfn : fn ∈ P.functions) (hlen : fn.params.length = vs.length)
    (hparams : P.Declarable (fn.params.map Decl.name)) :
    P.callDepth answer (n + 1) fn.name vs m =
      P.exec (P.callDepth answer n) fn.body
        ((fn.params.map Decl.name).zip (vs.map Var.value)) m := by
  have hguard : fn.params.length = vs.length ∧ P.Declarable (fn.params.map Decl.name) :=
    ⟨hlen, hparams⟩
  rw [callDepth, find?_of_mem hnodup hfn]
  exact require_bind hguard _

theorem callDepth_external {g : Name} (hfn : g ∉ P.functions.map Function.name)
    (hg : g ∈ P.externals) :
    P.callDepth answer (n + 1) g vs m =
      some (answer (m.calls ++ [(g, vs)]), { m with calls := m.calls ++ [(g, vs)] }) := by
  have hnone : P.functions.find? (fun fn => fn.name = g) = none := by
    rw [List.find?_eq_none]
    intro fn hmem heq
    exact hfn (List.mem_map.mpr ⟨fn, hmem, of_decide_eq_true heq⟩)
  rw [callDepth, hnone]
  exact require_bind hg _

end Calls

end Program

end C
