import Mathlib.Data.List.Basic
import Mathlib.Data.List.Infix
import Mathlib.Data.Nat.Notation

/-!
# Patterns that are matched with backtracking

Regular expressions without alternatives, where a repetition takes as many characters as it can,
and gives them back one by one when the rest of the pattern does not match. The matches of a
pattern at a place are listed in the order in which they are tried; the first one counts. A line
ends before a newline and at the end of the text.

## Main definitions

- `Pattern`, `Pattern.results` — patterns, and the matches at a place
- `Pattern.search` — the leftmost match

## Main results

- `results_seq_of_first` — a sequence whose first part does not have to give back characters
- `results_many` — a repetition up to the first character that it does not take
- `search_line` — a pattern that is tied to the start of a line, over a line without a match
-/

namespace Text

abbrev Chars := List Char

inductive Pattern where
  | lit (w : Chars)
  /-- One or more characters of a class. -/
  | many (p : Char → Bool)
  | lineStart
  | lineEnd
  | seq (x y : Pattern)
  /-- A part whose text is kept. -/
  | group (x : Pattern)

/-- A match: its text, the texts of its groups, and what follows it. -/
structure Match where
  text : Chars
  groups : List Chars
  post : Chars
  deriving DecidableEq, Repr

/-- A match that follows another text. -/
def Match.after (w : Chars) (groups : List Chars) (m : Match) : Match :=
  ⟨w ++ m.text, groups ++ m.groups, m.post⟩

/-- The text after `w` is at the start of a line, if that before it is according to `b`. -/
def startsLine (b : Bool) (w : Chars) : Bool :=
  match w.getLast? with
  | none => b
  | some c => c == '\n'

/-- The ways to split off one or more characters of a class, the longest first. -/
def spans (p : Char → Bool) : Chars → List (Chars × Chars)
  | [] => []
  | c :: s =>
    if p c then (spans p s).map (fun (w, rest) => (c :: w, rest)) ++ [([c], s)] else []

namespace Pattern

/-- The matches at the start of `s`, which is the start of a line according to `b`. -/
def results : Pattern → Bool → Chars → List Match
  | lit w, _, s => if w <+: s then [⟨w, [], s.drop w.length⟩] else []
  | many p, _, s => (spans p s).map fun (w, rest) => ⟨w, [], rest⟩
  | lineStart, b, s => if b then [⟨[], [], s⟩] else []
  | lineEnd, _, s => if s.head? = none ∨ s.head? = some '\n' then [⟨[], [], s⟩] else []
  | seq x y, b, s => (x.results b s).flatMap fun m =>
      (y.results (startsLine b m.text) m.post).map (Match.after m.text m.groups)
  | group x, b, s => (x.results b s).map fun m => { m with groups := m.text :: m.groups }

/-- The leftmost match. -/
def search (x : Pattern) : Bool → Chars → Option Match
  | b, [] => (x.results b []).head?
  | b, c :: s =>
    match (x.results b (c :: s)).head? with
    | some m => some m
    | none => search x (c == '\n') s

variable {x y : Pattern} {b : Bool} {s : Chars}

/-! ## The matches at a place -/

theorem results_lit_append (b : Bool) (w s : Chars) :
    (lit w).results b (w ++ s) = [⟨w, [], s⟩] := by
  simp [results]

theorem results_seq_eq_nil (hx : x.results b s = []) : (seq x y).results b s = [] := by
  simp [results, hx]

/-- A sequence in which only the first match of the first part is followed by the second. -/
theorem results_seq_of_first {m : Match} {ms : List Match} (hx : x.results b s = m :: ms)
    (hy : ∀ m' ∈ ms, y.results (startsLine b m'.text) m'.post = []) :
    (seq x y).results b s =
      (y.results (startsLine b m.text) m.post).map (Match.after m.text m.groups) := by
  have hrest : (ms.flatMap fun m' =>
      (y.results (startsLine b m'.text) m'.post).map (Match.after m'.text m'.groups)) = [] := by
    rw [List.flatMap_eq_nil_iff]
    intro m' hm'
    rw [hy m' hm', List.map_nil]
  simp only [results, hx, List.flatMap_cons, hrest, List.append_nil]

theorem results_group {m : Match} {ms : List Match} (hx : x.results b s = m :: ms) :
    (group x).results b s =
      ⟨m.text, m.text :: m.groups, m.post⟩ ::
        ms.map fun m => ⟨m.text, m.text :: m.groups, m.post⟩ := by
  simp [results, hx]

theorem results_seq_lit (w : Chars) :
    (seq (lit w) y).results b (w ++ s) =
      (y.results (startsLine b w) s).map (Match.after w []) :=
  results_seq_of_first (results_lit_append b w s) (by simp)

theorem results_seq_lit_eq_nil {w : Chars} (h : ¬w <+: s) : (seq (lit w) y).results b s = [] :=
  results_seq_eq_nil (if_neg h)

theorem results_seq_lineStart :
    (seq lineStart y).results true s = y.results true s := by
  have hstart : lineStart.results true s = [⟨[], [], s⟩] := rfl
  rw [results_seq_of_first hstart (by simp)]
  exact List.map_id _

/-- The spans of a class, up to a character that is not in it. -/
theorem spans_append {p : Char → Bool} {w : Chars} {c : Char} (hw : ∀ d ∈ w, p d = true)
    (hc : p c = false) (hne : w ≠ []) (s : Chars) :
    ∃ ms, spans p (w ++ c :: s) = (w, c :: s) :: ms ∧
      ∀ m ∈ ms, ∃ d ∈ w, m.2.head? = some d := by
  induction w with
  | nil => exact absurd rfl hne
  | cons a w ih =>
    have ha : p a = true := hw a List.mem_cons_self
    cases w with
    | nil => exact ⟨[], by simp [spans, ha, hc], by simp⟩
    | cons d w =>
      obtain ⟨ms, hms, hhead⟩ := ih (fun e he => hw e (List.mem_cons_of_mem a he))
        (List.cons_ne_nil d w)
      refine ⟨ms.map (fun (w, rest) => (a :: w, rest)) ++ [([a], d :: w ++ c :: s)], ?_, ?_⟩
      · show spans p (a :: (d :: w ++ c :: s)) = _
        rw [spans, if_pos ha, hms]
        rfl
      · intro m hm
        obtain hm | hm := List.mem_append.mp hm
        · obtain ⟨m', hm', rfl⟩ := List.mem_map.mp hm
          obtain ⟨e, he, hhead'⟩ := hhead m' hm'
          exact ⟨e, List.mem_cons_of_mem a he, hhead'⟩
        · obtain rfl := List.mem_singleton.mp hm
          exact ⟨d, List.mem_cons_of_mem a List.mem_cons_self, rfl⟩

/-- A repetition takes the characters of its class first, and a match that gives some of them back
is followed by one of them. -/
theorem results_many {p : Char → Bool} {w : Chars} {c : Char} (hw : ∀ d ∈ w, p d = true)
    (hc : p c = false) (hne : w ≠ []) (b : Bool) (s : Chars) :
    ∃ ms, (many p).results b (w ++ c :: s) = ⟨w, [], c :: s⟩ :: ms ∧
      ∀ m ∈ ms, ∃ d ∈ w, m.post.head? = some d := by
  obtain ⟨ms, hms, hhead⟩ := spans_append hw hc hne s
  refine ⟨ms.map fun (w, rest) => ⟨w, [], rest⟩, by simp [results, hms], ?_⟩
  intro m hm
  obtain ⟨m', hm', rfl⟩ := List.mem_map.mp hm
  exact hhead m' hm'

/-! ## Search -/

/-- A text without a newline is found at a place only within the line. -/
theorem prefix_of_line {w line : Chars} (hw : '\n' ∉ w) (hs : s.head? = none ∨ s.head? = some '\n')
    (h : w <+: line ++ s) : w <+: line := by
  obtain hw' | ⟨rest, rfl⟩ := List.prefix_or_prefix_of_prefix h (List.prefix_append line s)
  · exact hw'
  · have hrest : rest <+: s := (List.prefix_append_right_inj line).mp h
    cases rest with
    | nil => simp
    | cons c rest =>
      obtain ⟨t, rfl⟩ := hrest
      obtain hnone | hc := hs
      · cases hnone
      · obtain rfl : c = '\n' := Option.some.inj hc
        exact absurd (List.mem_append_right line List.mem_cons_self) hw

theorem search_of_results {m : Match} {ms : List Match} (h : x.results b s = m :: ms) :
    x.search b s = some m := by
  cases s <;> simp [search, h]

theorem search_cons {c : Char} (h : x.results b (c :: s) = []) :
    x.search b (c :: s) = x.search (c == '\n') s := by
  simp [search, h]

theorem newline_not_mem_cons {c : Char} {line : Chars} (h : '\n' ∉ c :: line) :
    (c == '\n') = false ∧ '\n' ∉ line := by
  simp only [List.mem_cons, not_or] at h
  exact ⟨beq_false_of_ne (Ne.symm h.1), h.2⟩

/-- A pattern that is tied to the start of a line is not found within a line. -/
theorem search_within (y : Pattern) {line : Chars} (hline : '\n' ∉ line) (s : Chars) :
    (seq lineStart y).search false (line ++ s) = (seq lineStart y).search false s := by
  induction line with
  | nil => rfl
  | cons c line ih =>
    obtain ⟨hfalse, hline⟩ := newline_not_mem_cons hline
    rw [List.cons_append, search_cons rfl, hfalse, ih hline]

/-- The search for such a pattern goes on after a line at which it does not match. -/
theorem search_line {line : Chars} (hline : '\n' ∉ line)
    (h : (seq lineStart y).results true (line ++ '\n' :: s) = []) :
    (seq lineStart y).search true (line ++ '\n' :: s) = (seq lineStart y).search true s := by
  cases line with
  | nil => exact search_cons h
  | cons c line =>
    obtain ⟨hfalse, hline⟩ := newline_not_mem_cons hline
    rw [List.cons_append] at h ⊢
    rw [search_cons h, hfalse, search_within y hline]
    exact search_cons rfl

theorem search_lastLine {line : Chars} (hline : '\n' ∉ line)
    (h : (seq lineStart y).results true line = []) :
    (seq lineStart y).search true line = none := by
  cases line with
  | nil => simp [search, h]
  | cons c line =>
    obtain ⟨hfalse, hline⟩ := newline_not_mem_cons hline
    have hend := search_within y hline []
    rw [List.append_nil] at hend
    rw [search_cons h, hfalse, hend]
    rfl

end Pattern

end Text
