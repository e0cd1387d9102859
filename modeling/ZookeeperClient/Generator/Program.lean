import ZookeeperClient.Generator.Headers

/-!
# The generated code as a program

What the generator writes is text. It is the text of a C program, which has for each declaration
a structure and two functions, and the function that makes calls without the lock of the
interpreter.

## Main definitions

- `region`, `Declaration.structType`, `Declaration.wrapper`, `Declaration.calling` — the parts of
  the program
- `Includes` — what the included headers say about types and macros
- `program` — the program

## Main results

- `body_callStruct`, `body_wrapperFunction`, `body_callingFunction` — their texts
- `renderHeaderFile_code`, `renderCFile_code` — the two files
-/

namespace ZookeeperClient

namespace Generator

open Text

/-! ## The code as a program -/

/-- `zkrb_thread_blocking_region` of `ext/zkrb_wrapper_compat.c`, as it is compiled for Ruby 1.8.
For later versions it has `rb_thread_blocking_region` of the interpreter make the same call, without
the lock, and returns what that returns. -/
def region : C.Function where
  result := "VALUE ".toList
  name := "zkrb_thread_blocking_region".toList
  params := [⟨"zkrb_blocking_function_t *".toList, "func".toList⟩,
    ⟨"void *".toList, "data1".toList⟩]
  body := [.ret (.call "func".toList [.ident "data1".toList])]

namespace Declaration

variable (d : Declaration)

def names : List C.Name :=
  d.params.map C.Decl.name

def structType : C.StructType where
  name := d.callStruct.name
  members := d.params ++ [⟨"int ".toList, "rc".toList⟩]

def wrapper : C.Function where
  result := "static VALUE ".toList
  name := d.wrapperFunction.name
  params := [⟨"void *".toList, "data".toList⟩]
  body := [.declarePointer d.callStruct.name ['a'] "data".toList,
    .assign ['a'] "rc".toList (.call d.fnName (d.names.map fun m => .arrow ['a'] m)),
    .ret (.expr (.ident "Qnil".toList))]

def calling : C.Function where
  result := "int ".toList
  name := d.callingFunction.name
  params := d.params
  body := [
    .declare d.callStruct.name "args".toList
      (("rc".toList, .ident "ZKRB_FAIL".toList) :: d.names.map fun n => (n, .ident n)),
    .blank,
    .run (.call "zkrb_thread_blocking_region".toList
      [.ident d.wrapperFunction.name, .address "args".toList]),
    .blank,
    .ret (.expr (.dot "args".toList "rc".toList))]

/-- The comment before the calling function. -/
def comment : Chars :=
  "// wrapper that calls ".toList ++ d.fnName ++ " via ".toList ++ d.wrapperFunction.name ++
    " inside rb_thread_blocking_region".toList

end Declaration

/-- The two macros that the generated code uses, and those that tell that the headers next to it
have been included. -/
def macroNames : List C.Name :=
  ["ZKRB_FAIL".toList, "Qnil".toList, "ZKRB_WRAPPER_H".toList, "ZKRB_WRAPPER_COMPAT_H".toList,
    "__dbg_h__".toList]

/-- What the headers that the generated files include say: `ruby.h`, `zookeeper.h` and those of the
C library, with what they include in turn. -/
structure Includes where
  /-- The macros that they define, such as `errno`. -/
  macros : List C.Name
  /-- The types of which a member can be initialized with a parameter. -/
  copied : Chars → Bool

/-- The program for some declarations, with the values of the two macros that it uses. -/
def program {V : Type} (inc : Includes) (fail nil : V) (ds : List Declaration) : C.Program V where
  structs := ds.map Declaration.structType
  functions := region :: (ds.map Declaration.wrapper ++ ds.map Declaration.calling)
  externals := ds.map Declaration.fnName
  macros := macroNames.zip [some fail, some nil, none, none, none] ++
    inc.macros.map fun x => (x, none)
  copied type := type == "int ".toList || inc.copied type

/-- What is collected from a header. -/
def Header.code (h : Header) : GeneratedCode :=
  ⟨h.decls.map Declaration.callStruct, h.decls.map Declaration.wrapperFunction,
    h.decls.map Declaration.callingFunction⟩

/-! ## The texts of the program -/

section Texts

/-- The parts of a line that the generator writes as one. -/
theorem int_rc : "  int rc;".toList =
    "  ".toList ++ ("int ".toList ++ ("rc".toList ++ [';'])) := by decide

theorem void_data : "(void *data)".toList =
    ['('] ++ ("void *".toList ++ ("data".toList ++ [')'])) := by decide

theorem star_a : " *a = (".toList = " *".toList ++ (['a'] ++ " = (".toList) := by decide

theorem star_data : " *)data;".toList = " *)".toList ++ ("data".toList ++ [';']) := by decide

theorem a_rc : "  a->rc = ".toList =
    "  ".toList ++ (['a'] ++ ("->".toList ++ ("rc".toList ++ " = ".toList))) := by decide

theorem a_arrow : "a->".toList = ['a'] ++ "->".toList := by decide

theorem close_call : ");".toList = [')'] ++ [';'] := by decide

theorem return_qnil : "  return Qnil;".toList =
    "  return ".toList ++ ("Qnil".toList ++ [';']) := by decide

theorem inside_newline : " inside rb_thread_blocking_region\n".toList =
    " inside rb_thread_blocking_region".toList ++ ['\n'] := by decide

theorem open_newline : " \x7b\n".toList = " \x7b".toList ++ ['\n'] := by decide

theorem args_newline : " args = \x7b\n".toList =
    [' '] ++ ("args".toList ++ (" = \x7b".toList ++ ['\n'])) := by decide

theorem rc_fail : "    .rc = ZKRB_FAIL,\n".toList =
    "    .".toList ++ ("rc".toList ++ (" = ".toList ++ ("ZKRB_FAIL".toList ++ ",\n".toList))) := by
  decide

theorem close_newline : "  \x7d;\n".toList = "  \x7d;".toList ++ ['\n'] := by decide

theorem region_call : "  zkrb_thread_blocking_region(".toList =
    "  ".toList ++ ("zkrb_thread_blocking_region".toList ++ ['(']) := by decide

theorem address_args : ", (void *)&args);".toList =
    ", ".toList ++ ("(void *)&".toList ++ ("args".toList ++ ([')'] ++ [';']))) := by decide

theorem return_rc : "\n  return args.rc;\n\x7d\n".toList =
    ['\n'] ++ ("  return ".toList ++ ("args".toList ++ (['.'] ++ ("rc".toList ++ ([';'] ++
      (['\n'] ++ ("\x7d".toList ++ ['\n']))))))) := by decide

attribute [local irreducible] String.toList

theorem commas_singleton (w : Chars) : C.commas [w] = w :=
  List.intercalate_singleton

/-- The lines of a wrapper. -/
theorem signature_wrapper (name : Chars) (body : List C.Stmt) :
    "static VALUE ".toList ++ name ++ "(void *data)".toList =
      C.Function.signature
        ⟨"static VALUE ".toList, name, [⟨"void *".toList, "data".toList⟩], body⟩ := by
  show _ = "static VALUE ".toList ++ name ++ ['('] ++
    C.commas ["void *".toList ++ "data".toList] ++ [')']
  rw [commas_singleton, void_data]
  simp only [List.append_assoc]

theorem declarePointer_wrapper (type : Chars) :
    "  ".toList ++ type ++ " *a = (".toList ++ type ++ " *)data;".toList =
      (C.Stmt.declarePointer type ['a'] "data".toList).print := by
  rw [C.print_declarePointer, star_a, star_data]
  simp only [List.append_assoc]

theorem assign_wrapper (fn : Chars) (args : List C.Expr) :
    "  a->rc = ".toList ++ fn ++ ['('] ++ C.commas (args.map C.Expr.print) ++ ");".toList =
      (C.Stmt.assign ['a'] "rc".toList (.call fn args)).print := by
  rw [C.print_assign, C.print_call, a_rc, close_call]
  simp only [List.append_assoc]

theorem ret_wrapper : "  return Qnil;".toList =
    (C.Stmt.ret (.expr (.ident "Qnil".toList))).print := by
  rw [C.print_ret, return_qnil, List.append_assoc]
  rfl

variable (d : Declaration)

theorem body_callStruct : d.callStruct.body = d.structType.print := by
  have hargs : d.callStruct.typedArgs.map (fun n => "  ".toList ++ n ++ [';']) =
      d.params.map fun p => "  ".toList ++ p.print ++ [';'] := by
    rw [Declaration.callStruct, List.map_map]
    rfl
  unfold CallStruct.body
  rw [hargs, int_rc]
  simp only [C.StructType.print, Declaration.structType, C.Decl.print, List.map_append,
    List.map_cons, List.map_nil, List.append_assoc]

theorem body_wrapperFunction : d.wrapperFunction.body = d.wrapper.print := by
  have hnames : memberNames d.callStruct.typedArgs = d.names := d.memberNames_params
  have hargs : joinComma (d.names.map fun m => "a->".toList ++ m) =
      C.commas ((d.names.map fun m => C.Expr.arrow ['a'] m).map C.Expr.print) := by
    rw [a_arrow, List.map_map]
    rfl
  show lines ["static VALUE ".toList ++ d.wrapperFunction.name ++ "(void *data)".toList ++
      " \x7b".toList,
    "  ".toList ++ d.callStruct.name ++ " *a = (".toList ++ d.callStruct.name ++
      " *)data;".toList,
    "  a->rc = ".toList ++ d.fnName ++ ['('] ++
      joinComma ((memberNames d.callStruct.typedArgs).map fun m => "a->".toList ++ m) ++
      ");".toList,
    "  return Qnil;".toList, "\x7d".toList] = _
  rw [hnames, hargs, signature_wrapper _ d.wrapper.body, declarePointer_wrapper, assign_wrapper,
    ret_wrapper]
  rfl

theorem names_ne_nil : d.names ≠ [] := by
  simpa [Declaration.names, Declaration.params] using d.args_ne

theorem inits_calling : "    .rc = ZKRB_FAIL,\n".toList ++ d.callingFunction.initializerLines =
    C.printInits (("rc".toList, .ident "ZKRB_FAIL".toList) ::
      d.names.map fun n => (n, C.Expr.ident n)) := by
  have hinits : (d.names.map fun n => (n, C.Expr.ident n)).map
      (fun init => "    .".toList ++ init.1 ++ " = ".toList ++ init.2.print) =
        d.names.map fun n => "    .".toList ++ n ++ " = ".toList ++ n := by
    rw [List.map_map]
    rfl
  show _ ++ ",\n".toList.intercalate ((memberNames d.callStruct.typedArgs).map fun n =>
    "    .".toList ++ n ++ " = ".toList ++ n) = ",\n".toList.intercalate
      (("    .".toList ++ "rc".toList ++ " = ".toList ++ "ZKRB_FAIL".toList) ::
        (d.names.map fun n => (n, C.Expr.ident n)).map
          fun init => "    .".toList ++ init.1 ++ " = ".toList ++ init.2.print)
  rw [hinits, List.intercalate_cons_of_ne_nil (by simpa using names_ne_nil d), rc_fail,
    show memberNames d.callStruct.typedArgs = d.names from d.memberNames_params]
  simp only [List.append_assoc]

theorem signature_calling : d.callingFunction.fnSignature = d.calling.signature := rfl

theorem call_calling : d.callingFunction.rbThreadBlockingRegionCall =
    (C.Stmt.run (.call "zkrb_thread_blocking_region".toList
      [.ident d.wrapperFunction.name, .address "args".toList])).print := by
  show "  zkrb_thread_blocking_region(".toList ++ d.wrapperFunction.name ++
      ", (void *)&args);".toList = "  ".toList ++ ("zkrb_thread_blocking_region".toList ++ ['('] ++
        ", ".toList.intercalate [d.wrapperFunction.name, "(void *)&".toList ++ "args".toList] ++
        [')']) ++ [';']
  rw [List.intercalate_cons_cons, List.intercalate_singleton, region_call, address_args]
  simp only [List.append_assoc]

/-- The calling function is the comment and the function. -/
theorem body_callingFunction :
    d.callingFunction.body = d.comment ++ ['\n'] ++ d.calling.print ++ ['\n'] := by
  show lines ["// wrapper that calls ".toList ++ d.fnName ++ " via ".toList ++
      d.wrapperFunction.name ++ " inside rb_thread_blocking_region\n".toList ++
      d.callingFunction.fnSignature ++ " \x7b\n".toList ++
      "  ".toList ++ d.callStruct.name ++ " args = \x7b\n".toList ++
      "    .rc = ZKRB_FAIL,\n".toList ++ d.callingFunction.initializerLines ++ ['\n'] ++
      "  \x7d;\n".toList, d.callingFunction.rbThreadBlockingRegionCall,
      "\n  return args.rc;\n\x7d\n".toList] = _
  have hprint : d.calling.print = lines [d.calling.signature ++ " \x7b".toList,
      lines ["  ".toList ++ d.callStruct.name ++ [' '] ++ "args".toList ++ " = \x7b".toList,
        C.printInits (("rc".toList, .ident "ZKRB_FAIL".toList) ::
          d.names.map fun n => (n, C.Expr.ident n)), "  \x7d;".toList],
      [], (C.Stmt.run (.call "zkrb_thread_blocking_region".toList
        [.ident d.wrapperFunction.name, .address "args".toList])).print,
      [], "  return ".toList ++ ("args".toList ++ ['.'] ++ "rc".toList) ++ [';'],
      "\x7d".toList] := rfl
  have hcomment : d.comment = "// wrapper that calls ".toList ++ d.fnName ++ " via ".toList ++
      d.wrapperFunction.name ++ " inside rb_thread_blocking_region".toList := rfl
  rw [hprint, hcomment, ← inits_calling, call_calling, signature_calling, inside_newline,
    open_newline, args_newline, close_newline, return_rc]
  simp only [lines_cons_cons, lines_singleton, List.append_assoc, List.nil_append]

end Texts

/-! ## The two files -/

theorem puts_of_getLast? {s : Chars} {c : Char} (h : s.getLast? = some c) (hc : c ≠ '\n') :
    puts s = s ++ ['\n'] :=
  if_neg fun hnewline => hc (Option.some.inj (h.symm.trans hnewline))

theorem puts_newline (s : Chars) : puts (s ++ "\n\n".toList) = s ++ "\n\n".toList :=
  if_pos (by rw [List.getLast?_append]; rfl)

/-- The header has the structures and the declarations of the calling functions. -/
theorem renderHeaderFile_code (h : Header) :
    renderHeaderFile h.code = headerTop ++
      h.decls.flatMap (fun d => d.structType.print ++ "\n\n".toList) ++
      h.decls.flatMap (fun d => d.calling.signature ++ ";\n".toList) ++ headerBottom := by
  have hstruct : ∀ d : Declaration,
      puts d.callStruct.body ++ puts [] = d.structType.print ++ "\n\n".toList := by
    intro d
    have hlast : d.callStruct.body.getLast? = some ';' := by
      have hne : "\x7d ".toList ++ d.callStruct.name ++ [';'] ≠ [] :=
        List.append_ne_nil_of_right_ne_nil _ (List.cons_ne_nil _ _)
      rw [CallStruct.body, getLast?_lines hne, List.getLast?_append]
      rfl
    rw [puts_of_getLast? hlast (by decide), body_callStruct, List.append_assoc]
    rfl
  have hcalling : ∀ d : Declaration, puts (d.callingFunction.fnSignature ++ [';']) =
      d.calling.signature ++ ";\n".toList := by
    intro d
    rw [puts_of_getLast? (c := ';') List.getLast?_concat (by decide), List.append_assoc,
      signature_calling]
    rfl
  rw [renderHeaderFile, Header.code, List.flatMap_map, List.flatMap_map]
  simp only [hstruct, hcalling]

/-- The other file has the functions. -/
theorem renderCFile_code (h : Header) :
    renderCFile h.code = cTop ++ h.decls.flatMap fun d =>
      d.wrapper.print ++ "\n\n".toList ++
        (d.comment ++ ['\n'] ++ d.calling.print ++ ['\n'] ++ "\n\n".toList) := by
  rw [renderCFile, Header.code, List.zip_map', List.flatMap_map]
  simp only [puts_newline, body_wrapperFunction, body_callingFunction]

end Generator

end ZookeeperClient
