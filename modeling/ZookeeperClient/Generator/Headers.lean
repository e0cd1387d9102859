import ZookeeperClient.Generator.Defs
import ZookeeperClient.C.Program

/-!
# Headers

The headers that the generator is made for: lines of any kind, and between them declarations
`ZOOAPI int zoo_NAME(args);` that start a line, end a line and may go over several lines.

## Main definitions

- `Arg`, `Declaration`, `Item`, `Header` — headers, and their texts

## Main results

- `results_declaration` — the regular expression matches a declaration in one way
- `fromZookeeperHLoop_header` — what is collected from a header
-/

namespace ZookeeperClient

namespace Generator

open Text

/-- An argument: a type, which ends with a space or an asterisk, and an identifier. -/
structure Arg where
  before : Chars
  decl : C.Decl
  after : Chars
  isSpace_before : ∀ c ∈ before, isSpace c = true
  isSpace_after : ∀ c ∈ after, isSpace c = true
  type_head : ∃ c, decl.type.head? = some c ∧ isSpace c = false
  type_last : ∃ init c, decl.type = init ++ [c] ∧ isSeparator c = true
  type_chars : '(' ∉ decl.type ∧ ')' ∉ decl.type ∧ ',' ∉ decl.type
  isIdentifier : C.IsIdentifier decl.name

def Arg.text (arg : Arg) : Chars :=
  arg.before ++ arg.decl.print ++ arg.after

/-- `ZOOAPI int zoo_NAME(args);`. -/
structure Declaration where
  suffix : Chars
  args : List Arg
  suffix_ne : suffix ≠ []
  suffix_chars : ∀ c ∈ suffix, C.isIdentChar c = true
  args_ne : args ≠ []
  nodup : (args.map fun arg => arg.decl.name).Nodup
  rc_notMem : "rc".toList ∉ args.map fun arg => arg.decl.name
  args_notMem : "args".toList ∉ args.map fun arg => arg.decl.name

namespace Declaration

variable (d : Declaration)

def fnName : Chars :=
  "zoo_".toList ++ d.suffix

def params : List C.Decl :=
  d.args.map Arg.decl

def argText : Chars :=
  [','].intercalate (d.args.map Arg.text)

def text : Chars :=
  "ZOOAPI int ".toList ++ (d.fnName ++ (['('] ++ (d.argText ++ ");".toList)))

end Declaration

/-- A declaration, or a line that does not look like the start of one. -/
inductive Item where
  | other (line : Chars) (oneLine : '\n' ∉ line) (noStart : ¬"ZOOAPI int zoo_".toList <+: line)
  | decl (d : Declaration)

def Item.text : Item → Chars
  | .other line _ _ => line
  | .decl d => d.text

abbrev Header := List Item

namespace Header

def text (h : Header) : Chars :=
  lines (h.map Item.text)

def decls : Header → List Declaration
  | [] => []
  | .other _ _ _ :: h => decls h
  | .decl d :: h => d :: decls h

end Header

/-! ## Characters of a declaration -/

/-- The characters that have a meaning for the generator. -/
def specialChars : Chars :=
  ['(', ')', ',', ' ', '*', '\x00', '\t', '\n', '\x0b', '\x0c', '\r']

theorem notMem_specialChars {c : Char} (h : C.isIdentChar c = true) : c ∉ specialChars := by
  have hany : specialChars.any C.isIdentChar = false := by decide
  exact fun hmem => List.any_eq_false.mp hany c hmem h

theorem isSeparator_of_isIdentChar {c : Char} (h : C.isIdentChar c = true) :
    isSeparator c = false := by
  have hc := notMem_specialChars h
  simp only [specialChars, List.mem_cons, List.not_mem_nil, or_false, not_or] at hc
  simp [isSeparator, hc]

theorem isTrailing_of_isIdentChar {c : Char} (h : C.isIdentChar c = true) :
    isTrailing c = false := by
  have hc := notMem_specialChars h
  simp only [specialChars, List.mem_cons, List.not_mem_nil, or_false, not_or] at hc
  simp [isTrailing, isSpace, hc]

namespace Arg

variable (arg : Arg)

theorem print_ne_nil : arg.decl.print ≠ [] := by
  obtain ⟨init, c, htype, -⟩ := arg.type_last
  simp [C.Decl.print, htype]

/-- Neither a parenthesis nor a comma is part of an argument. -/
theorem text_chars : ∀ c ∈ arg.text, c ≠ '(' ∧ c ≠ ')' ∧ c ≠ ',' := by
  have hspace : ∀ c, isSpace c = true → c ≠ '(' ∧ c ≠ ')' ∧ c ≠ ',' := by
    intro c hc
    refine ⟨?_, ?_, ?_⟩ <;> rintro rfl <;> exact absurd hc (by decide)
  intro c hc
  simp only [text, C.Decl.print, List.mem_append] at hc
  obtain (hc | hc | hc) | hc := hc
  · exact hspace c (arg.isSpace_before c hc)
  · obtain ⟨hopen, hclose, hcomma⟩ := arg.type_chars
    exact ⟨ne_of_mem_of_not_mem hc hopen, ne_of_mem_of_not_mem hc hclose,
      ne_of_mem_of_not_mem hc hcomma⟩
  · have hspecial := notMem_specialChars (arg.isIdentifier.chars c hc)
    simp only [specialChars, List.mem_cons, List.not_mem_nil, or_false, not_or] at hspecial
    exact ⟨hspecial.1, hspecial.2.1, hspecial.2.2.1⟩
  · exact hspace c (arg.isSpace_after c hc)

/-- `strip` leaves the declaration. -/
theorem strip_text : strip arg.text = arg.decl.print := by
  obtain ⟨c, hhead, hc⟩ := arg.type_head
  obtain ⟨a, ha⟩ : ∃ a, arg.decl.name.getLast? = some a := by
    cases hlast : arg.decl.name.getLast? with
    | none => exact absurd (List.getLast?_eq_none_iff.mp hlast) arg.isIdentifier.ne_nil
    | some a => exact ⟨a, rfl⟩
  refine strip_surrounded arg.isSpace_before arg.isSpace_after ?_ hc ?_
    (isTrailing_of_isIdentChar (arg.isIdentifier.chars a (List.mem_of_getLast? ha)))
  · rw [C.Decl.print, List.head?_append, hhead]
    rfl
  · rw [C.Decl.print, List.getLast?_append, ha]
    rfl

/-- The last part of the declaration is the name. -/
theorem getLast?_split_print :
    (split isSeparator arg.decl.print).getLast? = some arg.decl.name := by
  obtain ⟨init, c, htype, hc⟩ := arg.type_last
  rw [C.Decl.print, htype, List.append_assoc]
  exact getLast?_split init hc
    (fun d hd => isSeparator_of_isIdentChar (arg.isIdentifier.chars d hd))
    arg.isIdentifier.ne_nil

end Arg

namespace Declaration

variable (d : Declaration)

theorem splitArgs_argText : splitArgs d.argText = d.params.map C.Decl.print := by
  have hsplit : split (· == ',') d.argText = d.args.map Arg.text := by
    refine split_join ?_ ?_ (by simpa using d.args_ne)
    · rintro _ hmem hcomma
      obtain ⟨arg, -, rfl⟩ := List.mem_map.mp hmem
      exact (arg.text_chars ',' hcomma).2.2 rfl
    · rintro _ hmem hnil
      obtain ⟨arg, -, rfl⟩ := List.mem_map.mp hmem
      simp [Arg.text, arg.print_ne_nil] at hnil
  rw [splitArgs, hsplit, params, List.map_map, List.map_map]
  exact List.map_congr_left fun arg _ => arg.strip_text

/-- The fix for `zoo_aset_acl` does not touch an argument with a name. -/
theorem fixArgs_params :
    fixArgs d.fnName (d.params.map C.Decl.print) = d.params.map C.Decl.print := by
  have hnone : (d.params.map C.Decl.print).idxOf? "void_completion_t".toList = none := by
    rw [List.idxOf?_eq_none_iff]
    rintro hmem
    obtain ⟨decl, hdecl, hprint⟩ := List.mem_map.mp hmem
    obtain ⟨arg, -, rfl⟩ := List.mem_map.mp hdecl
    obtain ⟨init, c, htype, hc⟩ := arg.type_last
    have hsep : c ∈ "void_completion_t".toList := by
      rw [← hprint, C.Decl.print, htype]
      simp
    have hany : "void_completion_t".toList.any isSeparator = false := by decide
    exact List.any_eq_false.mp hany c hsep hc
  unfold fixArgs
  rw [hnone]
  split <;> rfl

theorem memberNames_params :
    memberNames (d.params.map C.Decl.print) = d.params.map C.Decl.name := by
  rw [memberNames, params, List.map_map, List.map_map, List.map_map]
  refine List.map_congr_left fun arg _ => ?_
  show ((split isSeparator arg.decl.print).getLast?).getD [] = arg.decl.name
  rw [arg.getLast?_split_print]
  rfl

end Declaration

/-! ## The regular expression -/

/-- The part of `REGEXP` after `ZOOAPI int `. -/
def signaturePattern : Pattern :=
  .seq (.group (.seq (.lit "zoo_".toList) (.many fun c => c != '('))) <| .seq (.lit ['(']) <|
    .seq (.group (.many fun c => c != ')')) <| .seq (.lit ");".toList) .lineEnd

theorem REGEXP_eq :
    REGEXP = .seq .lineStart (.seq (.lit "ZOOAPI int ".toList) signaturePattern) := rfl

/-- What follows the arguments: the end of the line. -/
theorem results_end {b : Bool} {t : Chars} (ht : t.head? = none ∨ t.head? = some '\n') :
    (Pattern.seq (.lit ");".toList) .lineEnd).results b (");".toList ++ t) =
      [⟨");".toList, [], t⟩] := by
  rw [Pattern.results_seq_lit, Pattern.results, if_pos ht]
  rfl

/-- The arguments, up to the first closing parenthesis. -/
theorem results_args {b : Bool} {w t : Chars} (hw : ∀ c ∈ w, c ≠ ')') (hne : w ≠ [])
    (ht : t.head? = none ∨ t.head? = some '\n') :
    (Pattern.seq (.group (.many fun c => c != ')')) <| .seq (.lit ");".toList) .lineEnd).results b
      (w ++ (");".toList ++ t)) = [⟨w ++ ");".toList, [w], t⟩] := by
  obtain ⟨ms, hms, hhead⟩ : ∃ ms, (Pattern.many fun c => c != ')').results b
      (w ++ (");".toList ++ t)) = ⟨w, [], ");".toList ++ t⟩ :: ms ∧
        ∀ m ∈ ms, ∃ d ∈ w, m.post.head? = some d :=
    Pattern.results_many (fun c hc => bne_iff_ne.mpr (hw c hc)) rfl hne b (';' :: t)
  rw [Pattern.results_seq_of_first (Pattern.results_group hms)]
  · dsimp only
    rw [results_end ht]
    rfl
  · intro m' hm'
    obtain ⟨m, hm, rfl⟩ := List.mem_map.mp hm'
    obtain ⟨c, hc, hpost⟩ := hhead m hm
    refine Pattern.results_seq_lit_eq_nil ?_
    rintro ⟨rest, hrest⟩
    rw [← hrest] at hpost
    exact hw c hc (Option.some.inj hpost).symm

/-- The name and the arguments of a function. -/
theorem results_signature {b : Bool} {suffix args t : Chars} (hsuffix : ∀ c ∈ suffix, c ≠ '(')
    (hsuffix_ne : suffix ≠ []) (hargs : ∀ c ∈ args, c ≠ ')') (hargs_ne : args ≠ [])
    (ht : t.head? = none ∨ t.head? = some '\n') :
    signaturePattern.results b
      ("zoo_".toList ++ suffix ++ (['('] ++ (args ++ (");".toList ++ t)))) =
        [⟨"zoo_".toList ++ suffix ++ (['('] ++ (args ++ ");".toList)),
          ["zoo_".toList ++ suffix, args], t⟩] := by
  obtain ⟨ms, hms, hhead⟩ : ∃ ms, (Pattern.many fun c => c != '(').results
      (startsLine b "zoo_".toList) (suffix ++ (['('] ++ (args ++ (");".toList ++ t)))) =
        ⟨suffix, [], ['('] ++ (args ++ (");".toList ++ t))⟩ :: ms ∧
          ∀ m ∈ ms, ∃ d ∈ suffix, m.post.head? = some d :=
    Pattern.results_many (fun c hc => bne_iff_ne.mpr (hsuffix c hc)) rfl hsuffix_ne _ _
  have hname : (Pattern.seq (.lit "zoo_".toList) (.many fun c => c != '(')).results b
      ("zoo_".toList ++ suffix ++ (['('] ++ (args ++ (");".toList ++ t)))) =
        ⟨"zoo_".toList ++ suffix, [], ['('] ++ (args ++ (");".toList ++ t))⟩ ::
          ms.map (Match.after "zoo_".toList []) := by
    rw [List.append_assoc, Pattern.results_seq_lit, hms]
    rfl
  rw [signaturePattern, Pattern.results_seq_of_first (Pattern.results_group hname)]
  · dsimp only
    rw [Pattern.results_seq_lit, results_args hargs hargs_ne ht]
    rfl
  · intro m' hm'
    obtain ⟨m'', hm'', rfl⟩ := List.mem_map.mp hm'
    obtain ⟨m, hm, rfl⟩ := List.mem_map.mp hm''
    obtain ⟨c, hc, hpost⟩ := hhead m hm
    refine Pattern.results_seq_lit_eq_nil ?_
    rintro ⟨rest, hrest⟩
    have hpost' : m.post = ['('] ++ rest := hrest.symm
    rw [hpost'] at hpost
    exact hsuffix c hc (Option.some.inj hpost).symm

namespace Declaration

variable (d : Declaration)

theorem suffix_ne_paren : ∀ c ∈ d.suffix, c ≠ '(' := by
  intro c hc
  have hspecial := notMem_specialChars (d.suffix_chars c hc)
  simp only [specialChars, List.mem_cons, List.not_mem_nil, or_false, not_or] at hspecial
  exact hspecial.1

theorem argText_ne_nil : d.argText ≠ [] := by
  obtain ⟨arg, args, hargs⟩ := List.exists_cons_of_ne_nil d.args_ne
  rw [argText, hargs, List.map_cons, intercalate_cons]
  intro hnil
  have htext : arg.text = [] := (List.append_eq_nil_iff.mp hnil).1
  simp [Arg.text, arg.print_ne_nil] at htext

theorem argText_ne_paren : ∀ c ∈ d.argText, c ≠ ')' := by
  obtain ⟨arg, args, hargs⟩ := List.exists_cons_of_ne_nil d.args_ne
  rw [argText, hargs, List.map_cons, intercalate_cons]
  intro c hc
  obtain hc | hc := List.mem_append.mp hc
  · exact (arg.text_chars c hc).2.1
  · obtain ⟨w, hw, hc⟩ := List.mem_flatMap.mp hc
    obtain ⟨arg', -, rfl⟩ := List.mem_map.mp hw
    obtain rfl | hc := List.mem_cons.mp hc
    · decide
    · exact (arg'.text_chars c hc).2.1

theorem text_append (t : Chars) :
    d.text ++ t = "ZOOAPI int ".toList ++
      ("zoo_".toList ++ d.suffix ++ (['('] ++ (d.argText ++ (");".toList ++ t)))) := by
  unfold text fnName
  generalize "ZOOAPI int ".toList = zooapi
  generalize "zoo_".toList = zoo
  generalize ");".toList = ending
  simp only [List.append_assoc]

/-- The regular expression matches a declaration in one way, with the name and the arguments as
its groups. -/
theorem results_declaration {t : Chars} (ht : t.head? = none ∨ t.head? = some '\n') :
    REGEXP.results true (d.text ++ t) = [⟨d.text, [d.fnName, d.argText], t⟩] := by
  have hsignature := results_signature (b := startsLine true "ZOOAPI int ".toList)
    d.suffix_ne_paren d.suffix_ne d.argText_ne_paren d.argText_ne_nil ht
  rw [text_append, REGEXP_eq, Pattern.results_seq_lineStart, Pattern.results_seq_lit, hsignature]
  unfold text fnName
  generalize "ZOOAPI int ".toList = zooapi
  generalize "zoo_".toList = zoo
  generalize ");".toList = ending
  rfl

end Declaration

/-- A line of another kind does not match. -/
theorem results_other {line t : Chars} (hstart : ¬"ZOOAPI int zoo_".toList <+: line)
    (ht : t.head? = none ∨ t.head? = some '\n') : REGEXP.results true (line ++ t) = [] := by
  rw [REGEXP_eq, Pattern.results_seq_lineStart]
  by_cases hprefix : "ZOOAPI int ".toList <+: line ++ t
  · obtain ⟨rest, hrest⟩ := hprefix
    have hzoo : ¬"zoo_".toList <+: rest := by
      rintro ⟨rest', rfl⟩
      refine hstart (Pattern.prefix_of_line (by decide) ht ⟨rest', ?_⟩)
      rw [← hrest, ← List.append_assoc]
      rfl
    have hsignature : signaturePattern.results (startsLine true "ZOOAPI int ".toList) rest = [] :=
      Pattern.results_seq_eq_nil (by
        rw [Pattern.results, Pattern.results_seq_lit_eq_nil hzoo, List.map_nil])
    rw [← hrest, Pattern.results_seq_lit, hsignature, List.map_nil]
  · exact Pattern.results_seq_lit_eq_nil hprefix

/-! ## The loop -/

namespace Declaration

variable (d : Declaration)

def callStruct : CallStruct :=
  ⟨d.fnName, d.params.map C.Decl.print⟩

def wrapperFunction : WrapperFunction :=
  ⟨d.fnName, d.callStruct⟩

def callingFunction : CallingFunction :=
  ⟨d.fnName, d.callStruct, d.wrapperFunction⟩

end Declaration

namespace Header

/-- The items, each after a newline. -/
def tail (h : Header) : Chars :=
  h.flatMap fun item => ['\n'] ++ item.text

theorem text_cons (item : Item) (h : Header) : text (item :: h) = item.text ++ tail h := by
  rw [text, List.map_cons, lines, intercalate_cons, List.flatMap_map]
  rfl

theorem head?_tail (h : Header) : (tail h).head? = none ∨ (tail h).head? = some '\n' := by
  cases h with
  | nil => exact Or.inl rfl
  | cons item h => exact Or.inr rfl

/-- A newline is skipped. -/
theorem search_newline (s : Chars) : REGEXP.search true ('\n' :: s) = REGEXP.search true s := by
  have hno : REGEXP.results true ([] ++ '\n' :: s) = [] := results_other (by decide) (Or.inr rfl)
  exact Pattern.search_line (by simp) hno

theorem search_other {line : Chars} (hline : '\n' ∉ line)
    (hstart : ¬"ZOOAPI int zoo_".toList <+: line) (h : Header) :
    REGEXP.search true (line ++ tail h) = REGEXP.search true (tail h) := by
  have hno := results_other hstart (head?_tail h)
  cases h with
  | nil =>
    rw [show line ++ tail [] = line from List.append_nil line] at hno ⊢
    exact Pattern.search_lastLine hline hno
  | cons item h =>
    refine (Pattern.search_line hline hno).trans ?_
    exact (search_newline _).symm

theorem search_decl (d : Declaration) (h : Header) :
    REGEXP.search true (d.text ++ tail h) = some ⟨d.text, [d.fnName, d.argText], tail h⟩ :=
  Pattern.search_of_results (d.results_declaration (head?_tail h))

/-- The loop goes by what the search finds. -/
theorem loop_congr {s t : Chars} (h : REGEXP.search true s = REGEXP.search true t) (rounds : ℕ)
    (code : GeneratedCode) :
    fromZookeeperHLoop rounds s code = fromZookeeperHLoop rounds t code := by
  cases rounds with
  | zero => rfl
  | succ rounds => simp only [fromZookeeperHLoop, h]

/-- What the loop adds for the items of a header, in a round for each declaration and one
more. -/
theorem loop_tail (h : Header) {rounds : ℕ} (hrounds : h.decls.length < rounds)
    (code : GeneratedCode) :
    fromZookeeperHLoop rounds (tail h) code =
      some ⟨code.structs ++ h.decls.map Declaration.callStruct,
        code.wrapperFns ++ h.decls.map Declaration.wrapperFunction,
        code.callingFns ++ h.decls.map Declaration.callingFunction⟩ := by
  induction h generalizing rounds code with
  | nil =>
    cases rounds with
    | zero => cases hrounds
    | succ rounds =>
      have hnone : REGEXP.search true (tail []) = none := rfl
      simp [fromZookeeperHLoop, hnone, decls]
  | cons item h ih =>
    have hsearch : REGEXP.search true (tail (item :: h)) =
        REGEXP.search true (item.text ++ tail h) := search_newline _
    cases item with
    | other line hline hstart =>
      rw [loop_congr (hsearch.trans (search_other hline hstart h))]
      exact ih hrounds code
    | decl d =>
      cases rounds with
      | zero => cases hrounds
      | succ rounds =>
        have hfound := hsearch.trans (search_decl d h)
        have hargs : fixArgs d.fnName (splitArgs d.argText) = d.params.map C.Decl.print := by
          rw [d.splitArgs_argText, d.fixArgs_params]
        simp only [fromZookeeperHLoop, hfound]
        show fromZookeeperHLoop rounds (tail h)
          (code.add d.fnName (fixArgs d.fnName (splitArgs d.argText))) = _
        rw [hargs, ih (Nat.lt_of_succ_lt_succ hrounds)]
        simp only [GeneratedCode.add, decls, List.map_cons, List.append_assoc,
          List.singleton_append]
        rfl

/-- **What is collected.** For a header, the loop ends, with a structure, a wrapper and a calling
function for each declaration, in their order. -/
theorem fromZookeeperH_text (h : Header) {rounds : ℕ} (hrounds : h.decls.length < rounds) :
    fromZookeeperH rounds h.text =
      some ⟨h.decls.map Declaration.callStruct, h.decls.map Declaration.wrapperFunction,
        h.decls.map Declaration.callingFunction⟩ := by
  have hsearch : REGEXP.search true h.text = REGEXP.search true (tail h) := by
    cases h with
    | nil => rfl
    | cons item h =>
      rw [text_cons]
      exact (search_newline _).symm
  rw [fromZookeeperH, loop_congr hsearch, loop_tail h hrounds]
  rfl

end Header

end Generator

end ZookeeperClient
