import ZookeeperClient.Ruby.Request

/-!
# The options of an operation

The public operations of `lib/zookeeper.rb` take a hash of options. They check its keys and
the size of `:data`; the values themselves are looked at by the backends only, so they may be
any Ruby objects. An object is modelled by what the operations and the backends ask of it.

## Main definitions

- `RubyValue`, `OptionValue`, `Key`, `Options` — the hash
- `OperationError` — the exceptions that an operation raises
- `Options.orAssign` — `options[k] ||= v`
- `assertSupportedKeys`, `assertRequiredKeys`, `assertValidDataSize` — the checks
-/

namespace ZookeeperClient

/-! ## Values -/

/-- A Ruby object. -/
inductive RubyValue where
  | nil
  | bool (b : Bool)
  | int (n : ℤ)
  | str (bytes : Bytes)
  | array (elems : List RubyValue)
  /-- `ZookeeperACLs::ACL`, by its instance variables. -/
  | acl (perms id : RubyValue)
  /-- `ZookeeperACLs::Id`, by its instance variables. -/
  | aclId (scheme id : RubyValue)
  /-- Any other object: what its `to_int`, `to_i` and `to_a` return, if it has them. -/
  | other (toInt toI : Option ℤ) (toA : Option (List RubyValue))

namespace RubyValue

/-- The object counts as true in a condition. -/
def truthy : RubyValue → Bool
  | .nil | .bool false => false
  | _ => true

/-- The digits at the start of a string, with single underscores between them. -/
def leadingDigits (acc : ℕ) : Bytes → ℕ
  | [] => acc
  | c :: rest =>
    if 48 ≤ c ∧ c ≤ 57 then leadingDigits (10 * acc + (c.toNat - 48)) rest
    else
      match c, rest with
      | 95, d :: _ => if 48 ≤ d ∧ d ≤ 57 then leadingDigits acc rest else acc
      | _, _ => acc

/-- `String#to_i`. -/
def strToI (bytes : Bytes) : ℤ :=
  let unsigned : Bytes → ℕ
    | 95 :: _ => 0
    | digits => leadingDigits 0 digits
  match bytes.dropWhile fun c => c = 32 ∨ 9 ≤ c ∧ c ≤ 13 with
  | 45 :: digits => -unsigned digits
  | 43 :: digits => unsigned digits
  | digits => unsigned digits

/-- `to_i`, if the object has it. -/
def toI : RubyValue → Option ℤ
  | .nil => some 0
  | .int n => some n
  | .str bytes => some (strToI bytes)
  | .other _ toI _ => toI
  | .bool _ | .array _ | .acl _ _ | .aclId _ _ => none

/-- `Array(v)`. -/
def toArray : RubyValue → List RubyValue
  | .nil => []
  | .array elems => elems
  | .other _ _ (some elems) => elems
  | v => [v]

mutual

/-- The object as an element of an array that is flattened. -/
def flat : RubyValue → List RubyValue
  | .array elems => flatten elems
  | v => [v]

def flatten : List RubyValue → List RubyValue
  | [] => []
  | v :: rest => v.flat ++ flatten rest

end

end RubyValue

/-- The value of an option. -/
structure OptionValue where
  value : RubyValue
  /-- `to_s.length`, which counts characters. -/
  toSLength : ℕ
  /-- The object as a callback or a context. -/
  obj : Obj

/-! ## The hash -/

/-- A key of an options hash. -/
inductive Key where
  | path | data | acl | version | ephemeral | sequence
  | callback | callbackContext | watcher | watcherContext
  /-- A key that no operation knows, by its `inspect`. -/
  | other (inspected : String)
  deriving DecidableEq, Repr

def Key.inspect : Key → String
  | .path => ":path"
  | .data => ":data"
  | .acl => ":acl"
  | .version => ":version"
  | .ephemeral => ":ephemeral"
  | .sequence => ":sequence"
  | .callback => ":callback"
  | .callbackContext => ":callback_context"
  | .watcher => ":watcher"
  | .watcherContext => ":watcher_context"
  | .other inspected => inspected

/-- `Array#inspect`, of an array of keys. -/
def inspectKeys (keys : List Key) : String :=
  "[" ++ ", ".intercalate (keys.map Key.inspect) ++ "]"

/-- An options hash, in the order of its keys. -/
abbrev Options := List (Key × OptionValue)

namespace Options

/-- `options.keys`. -/
def keys (options : Options) : List Key :=
  options.map Prod.fst

/-- `options[key]`. -/
def get (options : Options) (key : Key) : RubyValue :=
  ((options.lookup key).map OptionValue.value).getD .nil

/-- `options[key] = v`. -/
def set (key : Key) (v : OptionValue) : Options → Options
  | [] => [(key, v)]
  | (key', v') :: rest => if key' = key then (key, v) :: rest else (key', v') :: set key v rest

/-- `options[key] ||= v`. -/
def orAssign (options : Options) (key : Key) (v : OptionValue) : Options :=
  if (options.get key).truthy then options else options.set key v

/-- The object under a key, unless it is `nil` or `false`. -/
def obj (options : Options) (key : Key) : Option Obj :=
  (options.lookup key).bind fun v => if v.value.truthy then some v.obj else none

/-- What `setup_call` reads of the hash. -/
def toReqHash (options : Options) : ReqHash where
  callback := (options.obj .callback).map .user
  callbackContext := options.obj .callbackContext
  watcher := (options.obj .watcher).map .user
  watcherContext := options.obj .watcherContext

/-- What is not `nil` has been given. -/
theorem lookup_of_get {options : Options} {key : Key} {v : RubyValue}
    (h : options.get key = v) (hv : v ≠ .nil) :
    ∃ option, options.lookup key = some option ∧ option.value = v := by
  unfold get at h
  cases hlookup : options.lookup key with
  | none =>
    rw [hlookup] at h
    exact absurd h.symm hv
  | some option =>
    rw [hlookup] at h
    exact ⟨option, rfl, h⟩

/-! ### Reading after writing -/

theorem lookup_set (options : Options) (key key' : Key) (v : OptionValue) :
    (options.set key v).lookup key' = if key' = key then some v else options.lookup key' := by
  induction options with
  | nil =>
    by_cases h : key' = key
    · simp [set, h]
    · have hne : (key' == key) = false := by simpa using h
      simp [set, List.lookup_cons, h, hne]
  | cons entry rest ih =>
    obtain ⟨k, w⟩ := entry
    unfold set
    by_cases hk : k = key
    · subst hk
      by_cases h : key' = k
      · simp [h]
      · have hne : (key' == k) = false := by simpa using h
        simp [List.lookup_cons, h, hne]
    · rw [if_neg hk]
      by_cases h : key' = k
      · subst h
        simp [hk]
      · have hne : (key' == k) = false := by simpa using h
        simp only [List.lookup_cons, hne]
        exact ih

theorem lookup_orAssign_of_ne {options : Options} {key key' : Key} (v : OptionValue)
    (h : key' ≠ key) : (options.orAssign key v).lookup key' = options.lookup key' := by
  unfold orAssign
  split
  · rfl
  · rw [lookup_set, if_neg h]

theorem get_orAssign_of_ne {options : Options} {key key' : Key} (v : OptionValue)
    (h : key' ≠ key) : (options.orAssign key v).get key' = options.get key' := by
  rw [get, lookup_orAssign_of_ne v h, get]

/-- A key with a default reads as what was given, unless that was `nil` or `false`. -/
theorem get_orAssign_self (options : Options) (key : Key) (v : OptionValue) :
    (options.orAssign key v).get key =
      if (options.get key).truthy then options.get key else v.value := by
  unfold orAssign
  split
  · rfl
  · rw [get, lookup_set, if_pos rfl]
    rfl

/-- A handler is passed exactly when the option counts as true. -/
theorem isSome_obj (options : Options) (key : Key) :
    (options.obj key).isSome = (options.get key).truthy := by
  unfold obj get
  cases options.lookup key with
  | none => rfl
  | some v =>
    show (if v.value.truthy then some v.obj else none).isSome = v.value.truthy
    cases v.value.truthy <;> rfl

theorem isSome_callback_toReqHash (options : Options) :
    options.toReqHash.callback.isSome = (options.get .callback).truthy := by
  simp [toReqHash, isSome_obj]

theorem isSome_watcher_toReqHash (options : Options) :
    options.toReqHash.watcher.isSome = (options.get .watcher).truthy := by
  simp [toReqHash, isSome_obj]

end Options

/-! ## Exceptions -/

/-- What an operation raises. -/
inductive OperationError where
  | sessionExpired
  | notConnected
  | badArguments (text : String)
  /-- `ZookeeperException::DataTooLargeException`; its text quotes the data. -/
  | dataTooLarge
  | typeError
  | rangeError
  | noMethodError
  | runtimeError (text : String)
  /-- No exception: the C code reads memory as a string that is none. -/
  | undefined
  deriving DecidableEq, Repr

/-! ## The checks of `lib/zookeeper.rb` and `lib/zookeeper/common.rb` -/

def assertSupportedKeys (args : Options) (supported : List Key) : Except OperationError Unit :=
  if (args.keys.filter (· ∉ supported)).isEmpty then .ok ()
  else .error (.badArguments
    ("Supported arguments are: " ++ inspectKeys supported ++ ", but arguments " ++
      inspectKeys args.keys ++ " were supplied instead"))

def assertRequiredKeys (args : Options) (required : List Key) : Except OperationError Unit :=
  if (required.filter (· ∉ args.keys)).isEmpty then .ok ()
  else .error (.badArguments
    ("Required arguments are: " ++ inspectKeys required ++ ", but only the arguments " ++
      inspectKeys args.keys ++ " were supplied."))

/-- `assert_valid_data_size!`, applied to `options[:data]`. -/
def assertValidDataSize (options : Options) : Except OperationError Unit :=
  match options.lookup .data with
  | none => .ok ()
  | some data =>
    match data.value with
    | .nil => .ok ()
    | _ => if 1048576 ≤ data.toSLength then .error .dataTooLarge else .ok ()

end ZookeeperClient
