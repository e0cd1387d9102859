import ZookeeperClient.Text.Pattern
import Mathlib.Data.List.DropRight

/-!
# Texts that are split, stripped and joined

Splitting leaves out the empty fields at the end; stripping takes white space away at both ends,
and zero characters at the end.

## Main definitions

- `split`, `strip`, `lines` — the operations

## Main results

- `split_join` — the fields of a text that was joined
- `getLast?_split` — the last field
- `strip_surrounded` — a text with white space around it
-/

namespace Text

def isSpace (c : Char) : Bool :=
  [' ', '\t', '\n', '\x0b', '\x0c', '\r'].contains c

/-- White space or the zero character. -/
def isTrailing (c : Char) : Bool :=
  c == '\x00' || isSpace c

def strip (s : Chars) : Chars :=
  (s.dropWhile isSpace).rdropWhile isTrailing

/-- The fields between the characters of a class. -/
def split (p : Char → Bool) (s : Chars) : List Chars :=
  (s.splitOnP p).rdropWhile List.isEmpty

/-- Texts with a newline between them. -/
def lines (parts : List Chars) : Chars :=
  ['\n'].intercalate parts

/-- All parts but the first have the separator before them. -/
theorem intercalate_cons (sep w : Chars) (parts : List Chars) :
    sep.intercalate (w :: parts) = w ++ parts.flatMap fun v => sep ++ v := by
  induction parts generalizing w with
  | nil => simp
  | cons v parts ih =>
    rw [List.intercalate_cons_cons, ih v, List.flatMap_cons, List.append_assoc, List.append_assoc]

@[simp] theorem lines_singleton (w : Chars) : lines [w] = w :=
  List.intercalate_singleton

@[simp] theorem lines_cons_cons (v w : Chars) (parts : List Chars) :
    lines (v :: w :: parts) = v ++ ['\n'] ++ lines (w :: parts) :=
  List.intercalate_cons_cons

theorem getLast?_lines {w : Chars} (hw : w ≠ []) (parts : List Chars) :
    (lines (parts ++ [w])).getLast? = w.getLast? := by
  induction parts with
  | nil => rw [List.nil_append, lines_singleton]
  | cons v parts ih =>
    have hne : parts ++ [w] ≠ [] := List.append_ne_nil_of_right_ne_nil _ (List.cons_ne_nil _ _)
    rw [List.cons_append, lines, List.intercalate_cons_of_ne_nil hne, List.getLast?_append]
    show (lines (parts ++ [w])).getLast?.or _ = _
    rw [ih, List.getLast?_eq_some_getLast hw]
    rfl

theorem split_join {c : Char} {parts : List Chars} (hc : ∀ w ∈ parts, c ∉ w)
    (hne : ∀ w ∈ parts, w ≠ []) (h : parts ≠ []) :
    split (· == c) ([c].intercalate parts) = parts := by
  have hsplit : ([c].intercalate parts).splitOnP (· == c) = parts :=
    List.splitOn_intercalate c hc h
  rw [split, hsplit, List.rdropWhile_eq_self_iff]
  intro hl
  simpa using hne _ (List.getLast_mem hl)

/-- The last field is what follows the last separator. -/
theorem getLast?_split {p : Char → Bool} (s : Chars) {c : Char} {w : Chars} (hc : p c = true)
    (hw : ∀ d ∈ w, p d = false) (hne : w ≠ []) :
    (split p (s ++ c :: w)).getLast? = some w := by
  have hsplit : (s ++ c :: w).splitOnP p = s.splitOnP p ++ [w] := by
    rw [List.splitOnP_append_cons s w hc, List.splitOnP_eq_singleton hw]
  have hkeep : split p (s ++ c :: w) = s.splitOnP p ++ [w] := by
    rw [split, hsplit, List.rdropWhile_eq_self_iff]
    intro hl
    rw [List.getLast_append_singleton]
    simpa using hne
  rw [hkeep, List.getLast?_append, List.getLast?_singleton]
  rfl

theorem rdropWhile_append {p : Char → Bool} {core after : Chars}
    (hafter : ∀ d ∈ after, p d = true) : (core ++ after).rdropWhile p = core.rdropWhile p := by
  induction after using List.reverseRecOn with
  | nil => rw [List.append_nil]
  | append_singleton after d ih =>
    rw [← List.append_assoc, List.rdropWhile_concat_pos _ _ _ (hafter d (by simp))]
    exact ih fun e he => hafter e (List.mem_append_left _ he)

/-- A text that neither starts with white space nor ends with what is stripped. -/
theorem strip_surrounded {before core after : Chars} {a c : Char}
    (hbefore : ∀ d ∈ before, isSpace d = true) (hafter : ∀ d ∈ after, isSpace d = true)
    (hhead : core.head? = some a) (ha : isSpace a = false) (hlast : core.getLast? = some c)
    (hc : isTrailing c = false) : strip (before ++ core ++ after) = core := by
  obtain ⟨rest, rfl⟩ : ∃ rest, core = a :: rest := by
    cases core with
    | nil => cases hhead
    | cons d rest => exact ⟨rest, by rw [Option.some.inj hhead]⟩
  have hleft : (before ++ (a :: rest) ++ after).dropWhile isSpace = (a :: rest) ++ after := by
    rw [List.append_assoc, List.dropWhile_append_of_pos hbefore]
    exact List.dropWhile_cons_of_neg (by simp [ha])
  have hright : ((a :: rest) ++ after).rdropWhile isTrailing = (a :: rest).rdropWhile isTrailing :=
    rdropWhile_append fun d hd => by simp [isTrailing, hafter d hd]
  rw [strip, hleft, hright, List.rdropWhile_eq_self_iff]
  intro hl
  have hend : (a :: rest).getLast hl = c :=
    Option.some.inj ((List.getLast?_eq_some_getLast hl).symm.trans hlast)
  rw [hend, hc]
  exact Bool.false_ne_true

end Text
