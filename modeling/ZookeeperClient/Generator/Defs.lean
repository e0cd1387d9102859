import ZookeeperClient.Text.Fields

/-!
# The generator of the wrappers

`ext/generate_gvl_code.rb` reads the header of the C client, and writes for each function
`zoo_NAME` that it finds there a structure for the arguments, a function that unpacks them and
calls `zoo_NAME`, and a function that packs them and has the other one called without the lock of
the interpreter.

## Main definitions

- `REGEXP` — the declarations that are found
- `CallStruct`, `WrapperFunction`, `CallingFunction` — the three pieces of code
- `fromZookeeperHLoop` — the loop that collects them
- `renderHeaderFile`, `renderCFile` — the two files
-/

namespace ZookeeperClient

namespace Generator

open Text

/-- `/^ZOOAPI int (zoo_[^(]+)\(([^)]+)\);$/m`. -/
def REGEXP : Pattern :=
  .seq .lineStart <| .seq (.lit "ZOOAPI int ".toList) <|
    .seq (.group (.seq (.lit "zoo_".toList) (.many fun c => c != '('))) <| .seq (.lit ['(']) <|
      .seq (.group (.many fun c => c != ')')) <| .seq (.lit ");".toList) .lineEnd

/-! ## The pieces of code -/

structure CallStruct where
  zooFnName : Chars
  typedArgs : List Chars
  deriving DecidableEq, Repr

namespace CallStruct

variable (struct : CallStruct)

def name : Chars :=
  "zkrb_".toList ++ struct.zooFnName ++ "_args_t".toList

def body : Chars :=
  lines (["typedef struct \x7b".toList] ++
    struct.typedArgs.map (fun n => "  ".toList ++ n ++ [';']) ++ ["  int rc;".toList] ++
    ["\x7d ".toList ++ struct.name ++ [';']])

end CallStruct

/-- `/[ *]/`. -/
def isSeparator (c : Char) : Bool :=
  c == ' ' || c == '*'

/-- `MemberNames#member_names`. A name that is `nil` leaves no text. -/
def memberNames (typedArgs : List Chars) : List Chars :=
  typedArgs.map fun n => ((split isSeparator n).getLast?).getD []

/-- `Array#join` with `", "`. -/
def joinComma (parts : List Chars) : Chars :=
  ", ".toList.intercalate parts

structure WrapperFunction where
  zooFnName : Chars
  struct : CallStruct
  deriving DecidableEq, Repr

namespace WrapperFunction

variable (fn : WrapperFunction)

def name : Chars :=
  "zkrb_gvl_".toList ++ fn.zooFnName

def fnSignature : Chars :=
  "static VALUE ".toList ++ fn.name ++ "(void *data)".toList

def body : Chars :=
  let funcall := "  a->rc = ".toList ++ fn.zooFnName ++ ['('] ++
    joinComma ((memberNames fn.struct.typedArgs).map fun m => "a->".toList ++ m) ++
    ");".toList
  lines [fn.fnSignature ++ " \x7b".toList,
    "  ".toList ++ fn.struct.name ++ " *a = (".toList ++ fn.struct.name ++ " *)data;".toList,
    funcall, "  return Qnil;".toList, "\x7d".toList]

end WrapperFunction

structure CallingFunction where
  zooFnName : Chars
  struct : CallStruct
  wrapperFn : WrapperFunction
  deriving DecidableEq, Repr

namespace CallingFunction

variable (fn : CallingFunction)

def name : Chars :=
  "zkrb_call_".toList ++ fn.zooFnName

def fnSignature : Chars :=
  "int ".toList ++ fn.name ++ ['('] ++ joinComma fn.struct.typedArgs ++ [')']

def initializerLines : Chars :=
  ",\n".toList.intercalate
    ((memberNames fn.struct.typedArgs).map fun n => "    .".toList ++ n ++ " = ".toList ++ n)

def top : Chars :=
  "// wrapper that calls ".toList ++ fn.zooFnName ++ " via ".toList ++ fn.wrapperFn.name ++
    " inside rb_thread_blocking_region\n".toList ++
    fn.fnSignature ++ " \x7b\n".toList ++
    "  ".toList ++ fn.struct.name ++ " args = \x7b\n".toList ++
    "    .rc = ZKRB_FAIL,\n".toList ++
    fn.initializerLines ++ ['\n'] ++
    "  \x7d;\n".toList

def rbThreadBlockingRegionCall : Chars :=
  "  zkrb_thread_blocking_region(".toList ++ fn.wrapperFn.name ++ ", (void *)&args);".toList

def bottom : Chars :=
  "\n  return args.rc;\n\x7d\n".toList

def body : Chars :=
  lines [fn.top, fn.rbThreadBlockingRegionCall, bottom]

end CallingFunction

/-! ## The loop -/

structure GeneratedCode where
  structs : List CallStruct
  wrapperFns : List WrapperFunction
  callingFns : List CallingFunction
  deriving DecidableEq, Repr

/-- What is collected for one function. -/
def GeneratedCode.add (code : GeneratedCode) (zooFnName : Chars) (typedArgs : List Chars) :
    GeneratedCode :=
  let struct : CallStruct := ⟨zooFnName, typedArgs⟩
  let wrapperFn : WrapperFunction := ⟨zooFnName, struct⟩
  let callingFn : CallingFunction := ⟨zooFnName, struct, wrapperFn⟩
  ⟨code.structs ++ [struct], code.wrapperFns ++ [wrapperFn], code.callingFns ++ [callingFn]⟩

/-- The fix for the argument of `zoo_aset_acl` that has no name. -/
def fixArgs (zooFnName : Chars) (typedArgs : List Chars) : List Chars :=
  if zooFnName = "zoo_aset_acl".toList then
    match typedArgs.idxOf? "void_completion_t".toList with
    | some idx => typedArgs.set idx "void_completion_t completion".toList
    | none => typedArgs
  else typedArgs

/-- `argstr.split(',').map(&:strip)`. -/
def splitArgs (argstr : Chars) : List Chars :=
  (split (· == ',') argstr).map strip

/-- The loop of `GeneratedCode.from_zookeeper_h`, for a number of rounds; `none` if it is not
over by then. -/
def fromZookeeperHLoop : ℕ → Chars → GeneratedCode → Option GeneratedCode
  | 0, _, _ => none
  | rounds + 1, text, code =>
    match REGEXP.search true text with
    | none => some code
    | some m =>
      let zooFnName := (m.groups[0]?).getD []
      let argstr := (m.groups[1]?).getD []
      fromZookeeperHLoop rounds m.post
        (code.add zooFnName (fixArgs zooFnName (splitArgs argstr)))

/-- `GeneratedCode.from_zookeeper_h`. -/
def fromZookeeperH (rounds : ℕ) (text : Chars) : Option GeneratedCode :=
  fromZookeeperHLoop rounds text ⟨[], [], []⟩

/-! ## The files -/

/-- `puts`. -/
def puts (s : Chars) : Chars :=
  if s.getLast? = some '\n' then s else s ++ ['\n']

def headerTop : Chars :=
  lines (["#ifndef ZKRB_WRAPPER_H", "#define ZKRB_WRAPPER_H", "#if 0", "",
    "  AUTOGENERATED BY generate_gvl_code.rb ", "", "#endif", "", "#include \"ruby.h\"",
    "#include \"c-client-src/zookeeper.h\"", "#include \"zkrb_wrapper_compat.h\"",
    "#include \"dbg.h\"", "", "#define ZKRB_FAIL -1", "", ""].map String.toList)

def headerBottom : Chars :=
  "\n#endif /* ZKRB_WRAPPER_H */\n".toList

/-- `render_header_file`. -/
def renderHeaderFile (code : GeneratedCode) : Chars :=
  headerTop ++ code.structs.flatMap (fun struct => puts struct.body ++ puts []) ++
    code.callingFns.flatMap (fun cf => puts (cf.fnSignature ++ [';'])) ++ headerBottom

def cTop : Chars :=
  lines (["/*", "",
    "Autogenerated boilerplate wrappers around zoo_* function calls necessary for using",
    "rb_thread_blocking_region to release the GIL when calling native code.", "",
    "generated by ext/generate_gvl_code.rb", "", "*/", "", "#include \"ruby.h\"",
    "#include \"zkrb_wrapper.h\"", "#include <errno.h>", "#include <stdio.h>",
    "#include <stdlib.h>", "", ""].map String.toList)

/-- `render_c_file`. -/
def renderCFile (code : GeneratedCode) : Chars :=
  cTop ++ (code.wrapperFns.zip code.callingFns).flatMap fun (wrapFn, callFn) =>
    puts (wrapFn.body ++ "\n\n".toList) ++ puts (callFn.body ++ "\n\n".toList)

/-- The structure for `zoo_state`. -/
example : CallStruct.body ⟨"zoo_state".toList, ["zhandle_t *zh".toList]⟩ =
    "typedef struct \x7b\n  zhandle_t *zh;\n  int rc;\n\x7d zkrb_zoo_state_args_t;".toList := by
  decide

end Generator

end ZookeeperClient
