import Helios.Proofs.Scanning

/-!
# Positions — where tokens and lexical failures stand

A step of the lexer puts its token, or its failure, on the line where it starts (`Scanner.Ahead`), and a trace
from the start of a text counts the line breaks it has gone past. So every token of a text stands on one of its
lines, and so does every failure of the lexer.

There is one place where the lexer has no answer at all: a fenced block with a blank line that the common
indentation would cut inside a character (`Scanner.Uncut`). Texts where it comes to such a block are kept apart
(`Token.Breaks`).
-/

namespace Helios

/-- The number of lines of a text: each line break starts one more. -/
def lineCount (source : String) : Nat := 1 + source.toList.count '\n'

namespace Position

/-- **A position in a text** of so many lines. -/
structure On (lines : Nat) (p : Position) : Prop where
  line_pos : 1 ≤ p.line
  line_le : p.line ≤ lines
  column_pos : 1 ≤ p.column

theorem column_step_pos {p : Position} (h : 1 ≤ p.column) (c : Char) : 1 ≤ (p.step c).column := by
  unfold step
  split
  · exact Nat.le_refl 1
  · exact Nat.le_succ_of_le h

theorem column_advance_pos {p : Position} (h : 1 ≤ p.column) (cs : List Char) : 1 ≤ (p.advance cs).column := by
  induction cs generalizing p with
  | nil => exact h
  | cons c cs ih => exact ih (column_step_pos h c)

end Position

namespace Scanner

/-! ## Steps -/

/-- A position on the line where the lexer stands, and not before it. -/
structure Ahead (s : Scanner) (p : Position) : Prop where
  line_eq : p.line = s.pos.line
  column_le : s.pos.column ≤ p.column

theorem Ahead.here (s : Scanner) : s.Ahead s.pos := ⟨rfl, Nat.le_refl _⟩

/-- **A fenced block that cannot be cut free** of its indentation: the lines between the one where the lexer
    stands and the closing one. -/
structure Uncut (s : Scanner) (f : Fence) : Prop where
  opening : Fence.opening? s.currentLine = some f
  dedent : Text.dedent ((Text.splitLines s.rest).tail.takeWhile fun l => !f.closes l) = none

theorem ahead_openerPos (s : Scanner) : s.Ahead s.openerPos := ⟨rfl, Nat.le_add_right _ _⟩

theorem Spans.uncut {s : Scanner} {f : Fence} {body more : List (List Char)} {last : List Char}
    (h : s.Spans f body last more) (hopen : Fence.opening? s.currentLine = some f) (hcut : Text.dedent body = none) :
    s.Uncut f := by
  refine ⟨hopen, ?_⟩
  rw [h.lines, List.tail_cons, (split_of_closes h.inside h.closing more).1]
  exact hcut

theorem step_token {s next : Scanner} {t : Token} (h : s.step = .token t next) : s.Ahead t.pos := by
  cases steps_iff.mpr h with
  | fence hfence hblock =>
    cases hblock
    exact s.ahead_openerPos
  | char hfence hrest hstart =>
    cases hstart
    exact .here s

/-- **A step fails where it stands**, unless there is a block there that cannot be cut. -/
theorem step_fail {s : Scanner} {e : Error} (h : s.step = .fail e) :
    (∃ p issue, e = .lex p issue ∧ s.Ahead p) ∨ (e = ⟨.broken, .unknown⟩ ∧ ∃ f, s.Uncut f) := by
  cases steps_iff.mpr h with
  | @fence f _ hfence hblock =>
    cases hblock with
    | unclosed => exact .inl ⟨_, _, rfl, s.ahead_openerPos⟩
    | torn hspans hcut => exact .inr ⟨rfl, f, hspans.uncut (fence?_eq_some_iff.mp hfence).2.2 hcut⟩
  | char hfence hrest hstart =>
    cases hstart
    exact .inl ⟨_, _, rfl, .here s⟩

/-! ## Traces -/

/-- Every token of a trace was ahead of the lexer at some state of the trace. -/
theorem Scans.token_ahead {s s' : Scanner} {ts : List Token} (h : s.Scans ts s') {t : Token} (ht : t ∈ ts) :
    ∃ ts₁ s₁, s.Scans ts₁ s₁ ∧ s₁.Ahead t.pos := by
  obtain ⟨ts₁, s₁, next, hs, hstep⟩ := h.yielded ht
  exact ⟨ts₁, s₁, hs, step_token hstep⟩

/-- **What is ahead of the lexer in a text stands on a line of the text.** -/
theorem Scans.on {source : String} {ts : List Token} {s : Scanner} {p : Position}
    (h : (Scanner.start source.toList).Scans ts s) (hp : s.Ahead p) : p.On (lineCount source) := by
  obtain ⟨cs, htext, hpos⟩ := h.chars
  have htext : source.toList = cs ++ s.rest := htext
  have hpos : s.pos = Position.start.advance cs := hpos
  have hline : p.line = 1 + cs.count '\n' := by
    rw [hp.line_eq, hpos, Position.line_advance]
    rfl
  refine ⟨?_, ?_, ?_⟩
  · omega
  · rw [lineCount, htext, List.count_append]
    omega
  · have hcolumn : 1 ≤ s.pos.column := hpos ▸ Position.column_advance_pos (Nat.le_refl 1) cs
    exact Nat.le_trans hcolumn hp.column_le

end Scanner

/-! ## Texts -/

namespace Token

/-- **The lexer breaks off** in a text: it comes to a fenced block that cannot be cut free of its indentation. -/
def Breaks (source : String) : Prop :=
  ∃ ts s f, (Scanner.start source.toList).Scans ts s ∧ s.Uncut f

/-- **The tokens of a text stand on its lines**, and only the last one is the end of input. -/
theorem tokenize_ok {source : String} {tokens : List Token} (h : tokenize source = .ok tokens) :
    ∃ ts last, tokens = ts ++ [last] ∧ (∀ t ∈ ts, t.kind ≠ .eof ∧ t.pos.On (lineCount source)) ∧
      last.kind = .eof ∧ last.pos.On (lineCount source) := by
  obtain ⟨ts, s', hs, -, rfl⟩ := tokenize_eq_ok_iff.mp h
  refine ⟨ts, _, rfl, fun t ht => ⟨(hs.token_bounds t ht).1, ?_⟩, rfl, hs.on (.here s')⟩
  obtain ⟨ts₁, s₁, hs₁, hahead⟩ := hs.token_ahead ht
  exact hs₁.on hahead

/-- **A failure of the lexer stands on a line of the text**, unless the lexer breaks off. -/
theorem tokenize_error {source : String} {e : Error} (h : tokenize source = .error e) :
    (∃ p issue, e = .lex p issue ∧ p.On (lineCount source)) ∨ (e = ⟨.broken, .unknown⟩ ∧ Breaks source) := by
  obtain ⟨ts, s, hs, hfail⟩ := tokenize_eq_error_iff.mp h
  rcases Scanner.step_fail hfail with ⟨p, issue, rfl, hp⟩ | ⟨rfl, f, hf⟩
  · exact .inl ⟨p, issue, rfl, hs.on hp⟩
  · exact .inr ⟨rfl, ts, s, f, hs, hf⟩

end Token

end Helios
