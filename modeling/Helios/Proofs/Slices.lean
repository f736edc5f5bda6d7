import Mathlib.Data.List.TakeWhile
import Helios.Proofs.Positions
import Helios.Expr.Parser

/-!
# Slices — the tokens of a text and what lies between them

The lexer loses nothing: a text is its tokens, in order, each with the characters that were skipped before it
(`Slice`), and what is left of the text when the lexer stops. What may be skipped depends on the tokens before
only: line breaks inside brackets or after a separator, `;` after a separator (`Gap`).

The lexer counts lines and columns as it goes, and `Position.after` says from the text alone what it must have
counted. So two neighbours on one line meet in the counts exactly when nothing was skipped between them, and that
is what `Cursor.touches` asks for.

The invariant (`Scanner.Reading`) holds before the text and every step keeps it (`Reading.skip`, `Reading.token`), so
it holds along a trace (`Reading.scans`). Where the run ends, all of its tokens are slices (`Reading.ends`), whether it
has found the end of the text or fails.
-/

namespace Helios

/-! ## Positions -/

namespace Position

/-- **The place after a text**: a line more for each line break, and the characters since the last one. -/
def after (cs : List Char) : Position :=
  ⟨1 + cs.count '\n', 1 + (cs.reverse.takeWhile (· ≠ '\n')).length⟩

theorem step_after (cs : List Char) (c : Char) : (after cs).step c = after (cs ++ [c]) := by
  unfold step after
  by_cases hc : c = '\n'
  · simp [hc, Nat.add_assoc]
  · simp [hc, Nat.add_comm 1]

theorem advance_after (cs ds : List Char) : (after cs).advance ds = after (cs ++ ds) := by
  induction ds generalizing cs with
  | nil => rw [advance_nil, List.append_nil]
  | cons d ds ih =>
    rw [advance_cons, step_after, ih, List.append_assoc]
    rfl

/-- Within a line the characters are counted. -/
theorem advance_of_not_mem {cs : List Char} (h : '\n' ∉ cs) (p : Position) :
    p.advance cs = ⟨p.line, p.column + cs.length⟩ := by
  induction cs generalizing p with
  | nil => rfl
  | cons c cs ih =>
    obtain ⟨hc, hcs⟩ := List.ne_and_not_mem_of_not_mem_cons h
    rw [advance_cons, ih hcs, step, if_neg (Ne.symm hc), List.length_cons, Nat.add_assoc, Nat.add_comm 1]

/-- Any text moves the position. -/
theorem advance_eq_self_iff {p : Position} {cs : List Char} : p.advance cs = p ↔ cs = [] := by
  constructor
  · intro h
    by_cases hmem : '\n' ∈ cs
    · have hline := p.line_advance cs
      have hcount := List.count_pos_iff.mpr hmem
      rw [h] at hline
      omega
    · have hcolumn := congrArg Position.column h
      rw [advance_of_not_mem hmem] at hcolumn
      exact List.eq_nil_of_length_eq_zero (by simpa using hcolumn)
  · rintro rfl
    rfl

end Position

/-! ## Gaps -/

/-- **What one step of the lexer skips**, when so many brackets are open and a separator was read last, or nothing
    yet: a blank, a comment to the end of its line, a line break that separates nothing, or such a `;`. -/
inductive Filler (depth : Nat) (separated : Bool) : List Char → List Char → Prop
  | blank {c : Char} {after : List Char} (h : c = ' ' ∨ c = '\t' ∨ c = '\r') : Filler depth separated [c] after
  | comment {cs after : List Char} (hline : '\n' ∉ cs) (hend : Seam after) :
      Filler depth separated ('#' :: cs) after
  | newline {after : List Char} (h : 0 < depth ∨ separated = true) : Filler depth separated ['\n'] after
  | semicolon {after : List Char} (h : separated = true) : Filler depth separated [';'] after

/-- **What is skipped before a token**, and the text after it. -/
inductive Gap (depth : Nat) (separated : Bool) : List Char → List Char → Prop
  | nil {after : List Char} : Gap depth separated [] after
  | cons {cs gap after : List Char} (h : Filler depth separated cs (gap ++ after))
      (hgap : Gap depth separated gap after) : Gap depth separated (cs ++ gap) after

theorem Gap.snoc {depth : Nat} {separated : Bool} {gap cs after : List Char}
    (hgap : Gap depth separated gap (cs ++ after)) (h : Filler depth separated cs after) :
    Gap depth separated (gap ++ cs) after := by
  generalize hrest : cs ++ after = rest at hgap
  induction hgap with
  | nil =>
    subst hrest
    have hone : Gap depth separated (cs ++ []) after := .cons h .nil
    simpa using hone
  | cons hfirst _ ih =>
    subst hrest
    rw [List.append_assoc]
    exact .cons (by rwa [List.append_assoc]) (ih rfl)

/-! ## Slices -/

namespace Token

/-- The number of brackets open after some tokens. -/
def openBrackets (ts : List Token) : Nat := ts.foldl (fun d t => t.kind.depthAfter d) 0

/-- Whether the last of some tokens is a separator, or there are none. -/
def separated (ts : List Token) : Bool := (ts.getLast?.map fun t => t.kind.isNewline).getD true

theorem openBrackets_snoc (ts : List Token) (t : Token) :
    openBrackets (ts ++ [t]) = t.kind.depthAfter (openBrackets ts) := by
  unfold openBrackets
  rw [List.foldl_append]
  rfl

theorem separated_snoc (ts : List Token) (t : Token) : separated (ts ++ [t]) = t.kind.isNewline := by
  unfold separated
  rw [List.getLast?_concat]
  rfl

/-- Whether the token is a fenced block. -/
def Fenced (t : Token) : Prop := ∃ language code, t.kind = .passthrough language code

end Token

/-- **A token and what was skipped before it.** -/
structure Slice where
  gap : List Char
  token : Token

namespace Slice

/-- The text that the slice takes up. -/
def text (p : Slice) : List Char := p.gap ++ p.token.text.toList

/-- The text that slices take up together. -/
def join (ps : List Slice) : List Char := ps.flatMap text

@[simp] theorem join_nil : join [] = [] := rfl

@[simp] theorem join_append (ps qs : List Slice) : join (ps ++ qs) = join ps ++ join qs := List.flatMap_append

@[simp] theorem join_cons (p : Slice) (ps : List Slice) : join (p :: ps) = p.text ++ join ps := rfl

/-- **What is known of a slice** between the slices before it and the text after it. Only the first two are about
    where it lies; the others are about its token: a separator follows no other, a fenced block stands after one, and
    any other token keeps to its line. -/
structure Fits (before : List Slice) (p : Slice) (after : List Char) : Prop where
  skipped : Gap (Token.openBrackets (before.map token)) (Token.separated (before.map token)) p.gap
    (p.token.text.toList ++ after)
  pos : ¬ p.token.Fenced → p.token.pos = .after (join before ++ p.gap)
  single : p.token.kind.isNewline = true → Token.separated (before.map token) = false
  fenced : p.token.Fenced → Token.separated (before.map token) = true
  line : ¬ p.token.Fenced → p.token.kind.isNewline = false → '\n' ∉ p.token.text.toList

end Slice

/-- **A text laid out in slices**, up to the text that is left. -/
inductive Laid (source : List Char) : List Slice → List Char → Prop
  | nil : Laid source [] source
  | snoc {before : List Slice} {p : Slice} {after : List Char} (h : Laid source before (p.text ++ after))
      (hp : p.Fits before after) : Laid source (before ++ [p]) after

namespace Laid

variable {source rest : List Char} {slices before after : List Slice} {p q : Slice}

theorem source_eq (h : Laid source slices rest) : source = Slice.join slices ++ rest := by
  induction h with
  | nil => rfl
  | snoc _ _ ih => simpa using ih

theorem fits (h : Laid source slices rest) (hslices : slices = before ++ p :: after) :
    p.Fits before (Slice.join after ++ rest) := by
  induction h generalizing after with
  | nil => simp at hslices
  | @snoc before' p' rest _ hp ih =>
    rcases List.eq_nil_or_concat after with rfl | ⟨after, last, rfl⟩
    · obtain ⟨rfl, hlast⟩ := List.append_inj' hslices rfl
      obtain rfl := (List.cons.inj hlast).1
      exact hp
    · have hsplit : before' ++ [p'] = (before ++ p :: after) ++ [last] := by simpa using hslices
      obtain ⟨hbefore, hlast⟩ := List.append_inj' hsplit rfl
      obtain rfl := (List.cons.inj hlast).1
      simpa using ih hbefore

/-- **Neighbours touch exactly when nothing was skipped between them.** The first one keeps to its line, so the
    counts at its end are those of `Position.after`, and any text skipped would move them on. -/
theorem touches_iff (h : Laid source slices rest) (hslices : slices = before ++ p :: q :: after)
    (hfence : ¬ p.token.Fenced) (hnewline : p.token.kind.isNewline = false) {c : Cursor}
    (hprev : c.prev = some p.token) (hpeek : c.peek = q.token) : c.touches = true ↔ q.gap = [] := by
  have hp := h.fits hslices
  have hslices' : slices = (before ++ [p]) ++ q :: after := by simpa using hslices
  have hq := h.fits hslices'
  have hseparated : Token.separated ((before ++ [p]).map Slice.token) = false := by
    rw [List.map_append, List.map_singleton, Token.separated_snoc, hnewline]
  have hqfence : ¬ q.token.Fenced := by
    intro hfenced
    rw [hq.fenced hfenced] at hseparated
    nomatch hseparated
  -- the token has no line break in it, so the column that `touches` computes is where its slice ends
  have hend : (⟨p.token.pos.line, p.token.pos.column + p.token.text.length⟩ : Position) =
      .after (Slice.join (before ++ [p])) := by
    rw [← String.length_toList, ← Position.advance_of_not_mem (hp.line hfence hnewline), hp.pos hfence,
      Position.advance_after]
    simp [Slice.text]
  have hstart : q.token.pos = (Position.after (Slice.join (before ++ [p]))).advance q.gap := by
    rw [hq.pos hqfence, Position.advance_after]
  have htouches : c.touches = true ↔
      (⟨p.token.pos.line, p.token.pos.column + p.token.text.length⟩ : Position) = q.token.pos := by
    unfold Cursor.touches
    rw [hprev, hpeek]
    cases q.token.pos
    simp
  rw [htouches, hend, hstart, eq_comm, Position.advance_eq_self_iff]

end Laid

/-! ## Steps -/

namespace Scanner

/-- A string is read up to a line break at most. -/
theorem newline_not_mem_raw {quote : Char} {cs : List Char} {t : StringText} (hquote : quote ≠ '\n')
    (h : stringText quote cs = some t) : '\n' ∉ t.raw := by
  fun_induction stringText quote cs generalizing t with
  | case1 => cases h
  | case2 => cases h
  | case3 cs => cases h
  | case4 c cs hc ih =>
    obtain ⟨s, hs, rfl⟩ := Option.map_eq_some_iff.mp h
    simpa [Ne.symm hc] using ih hs
  | case5 => cases h
  | case6 cs hnil hcons hline =>
    obtain rfl := Option.some.inj h
    simpa using Ne.symm hquote
  | case7 c cs hnil hcons hline hne ih =>
    obtain ⟨s, hs, rfl⟩ := Option.map_eq_some_iff.mp h
    simpa [Ne.symm hline] using ih hs

/-- A text is its first line and what a line break starts. -/
theorem seam_dropWhile (cs : List Char) : Seam (cs.dropWhile (· ≠ '\n')) := by
  intro c hc
  have hhead := List.head?_dropWhile_not (· ≠ '\n') cs
  rw [hc] at hhead
  simpa using hhead

/-- A number is read up to a line break at most. -/
theorem newline_not_mem_number {c : Char} {cs : List Char} {kind : TokenKind} (hc : Decimal.isDigit c = true)
    (h : (numberText (c :: cs)).kind? = some kind) : '\n' ∉ (numberText (c :: cs)).chars := by
  -- the number is that of the first line alone
  have hsplit := (List.takeWhile_append_dropWhile (p := (· ≠ '\n')) (l := c :: cs)).symm
  have hsame := numberText_append (seam_dropWhile (c :: cs)) ((c :: cs).takeWhile (· ≠ '\n'))
  rw [← hsplit] at hsame
  have hne : c ≠ '\n' := by
    rintro rfl
    rw [isDigit_newline] at hc
    nomatch hc
  rw [hsame] at h ⊢
  rw [List.takeWhile_cons_of_pos (by simpa using hne)] at h ⊢
  intro hmem
  have hline := (numberText_front hc h).2.mem hmem
  rcases List.mem_cons.mp hline with heq | hline
  · exact hne heq.symm
  · simpa using List.mem_takeWhile_imp hline

/-- The second character of a symbol is always the same. -/
theorem symbol?_two {c : Char} {next : Option Char} {sym : Symbol} (h : symbol? c next = some (sym, true)) :
    next = some '=' := by
  unfold symbol? at h
  split at h <;> (try split at h) <;> simp_all

/-- **What a step that skips goes past**, and what it keeps. -/
structure Skips (s : Scanner) (cs : List Char) (next : Scanner) : Prop where
  rest : s.rest = cs ++ next.rest
  filler : Filler s.depth s.afterSeparator cs next.rest
  pos : next.pos = s.pos.advance cs
  depth : next.depth = s.depth
  separated : next.afterSeparator = s.afterSeparator
  line : next.lineStart = true → next.depth = 0 → next.afterSeparator = true

/-- **What a step that yields a token goes past**, and what it says of the token. -/
structure Yields (s : Scanner) (t : Token) (next : Scanner) : Prop where
  rest : s.rest = t.text.toList ++ next.rest
  pos : next.pos = s.pos.advance t.text.toList
  depth : next.depth = t.kind.depthAfter s.depth
  separated : next.afterSeparator = t.kind.isNewline
  line : next.lineStart = true → next.afterSeparator = true
  start : ¬ t.Fenced → t.pos = s.pos
  single : t.kind.isNewline = true → s.afterSeparator = false
  fenced : t.Fenced → s.lineStart = true ∧ s.depth = 0
  inline : ¬ t.Fenced → t.kind.isNewline = false → '\n' ∉ t.text.toList

theorem wordKind_plain (word : String) :
    (∀ language code, wordKind word ≠ .passthrough language code) ∧ (wordKind word).isNewline = false := by
  unfold wordKind
  split
  · exact ⟨nofun, rfl⟩
  · split <;> exact ⟨nofun, rfl⟩

variable {s next : Scanner} {c : Char} {cs chars : List Char} {t : Token} {kind : TokenKind} {line : Bool}

theorem Ignores.skips (h : s.Ignores c chars line) (hrest : s.rest = c :: cs) :
    s.Skips chars { s.skipOver chars with lineStart := line } := by
  have hone : s.rest = [c] ++ s.rest.drop 1 := by rw [hrest]; rfl
  cases h with
  | blank hc => exact ⟨hone, .blank hc, rfl, rfl, rfl, nofun⟩
  | comment hc =>
    have hline : s.currentLine = '#' :: cs.takeWhile (· ≠ '\n') := by
      rw [currentLine, hrest, hc]
      rfl
    have hdrop : s.rest.drop s.currentLine.length = s.rest.dropWhile (· ≠ '\n') := by
      conv => lhs; arg 2; rw [← List.takeWhile_append_dropWhile (p := (· ≠ '\n')) (l := s.rest)]
      exact List.drop_left
    refine ⟨?_, ?_, rfl, rfl, rfl, nofun⟩
    · show s.rest = s.currentLine ++ s.rest.drop s.currentLine.length
      rw [hdrop]
      exact (List.takeWhile_append_dropWhile).symm
    · show Filler _ _ s.currentLine (s.rest.drop s.currentLine.length)
      rw [hdrop, hline]
      refine .comment (fun hmem => ?_) (seam_dropWhile s.rest)
      simpa using List.mem_takeWhile_imp hmem
  | lineBreak hc hseparated =>
    subst hc
    have hinside : 0 < s.depth ∨ s.afterSeparator = true := by
      rcases Nat.eq_zero_or_pos s.depth with hzero | hpos
      · exact .inr (by simpa [hzero] using hseparated)
      · exact .inl hpos
    refine ⟨hone, .newline hinside, rfl, rfl, rfl, fun _ hdepth => ?_⟩
    exact hinside.resolve_left (by rw [show s.depth = 0 from hdepth]; exact Nat.lt_irrefl 0)
  | semicolon hc hseparated =>
    subst hc
    exact ⟨hone, .semicolon hseparated, rfl, rfl, rfl, nofun⟩

namespace Lexeme

theorem kind_ne_passthrough (h : s.Lexeme c cs kind chars line) (language code : String) :
    kind ≠ .passthrough language code := by
  cases h with
  | lineBreak | semicolon | string | symbol => nofun
  | number hc hkind => rcases NumberText.kind?_eq_some hkind with ⟨x, rfl⟩ | ⟨x, rfl⟩ <;> nofun
  | word hc => exact (wordKind_plain _).1 language code

theorem not_fenced (h : s.Lexeme c cs kind chars line) {text : String} {p : Position} :
    ¬ (Token.mk kind text p).Fenced :=
  fun ⟨language, code, heq⟩ => h.kind_ne_passthrough language code heq

/-- A line break and a `;` are the separators. -/
theorem separates (h : s.Lexeme c cs kind chars line) (hkind : kind.isNewline = true) : s.afterSeparator = false := by
  cases h with
  | lineBreak hc hseparates => simpa using hseparates.2
  | semicolon hc hseparates => simpa using hseparates
  | string | symbol => nomatch hkind
  | number hc hnumber =>
    rcases NumberText.kind?_eq_some hnumber with ⟨x, rfl⟩ | ⟨x, rfl⟩ <;> nomatch hkind
  | word hc =>
    rw [(wordKind_plain _).2] at hkind
    nomatch hkind

/-- A line starts past a line break only. -/
theorem isNewline_of_line (h : s.Lexeme c cs kind chars true) : kind.isNewline = true := by
  cases h
  rfl

theorem ne_newline (h : s.Lexeme c cs kind chars line) (hkind : kind.isNewline = false) : c ≠ '\n' := by
  rintro rfl
  cases h with
  | lineBreak | semicolon => nomatch hkind
  | string hc => revert hc; decide
  | number hc | word hc => revert hc; decide
  | symbol hsym => exact (other_of_symbol? hsym).mark (by decide)

/-- Every other token lies in one line. -/
theorem newline_not_mem (h : s.Lexeme c cs kind chars line) (hc : c ≠ '\n') : '\n' ∉ chars := by
  cases h with
  | lineBreak hline => exact absurd hline hc
  | semicolon => simpa using hc.symm
  | string hquote ht => simpa [hc.symm] using newline_not_mem_raw hc ht
  | number hdigit hkind => exact newline_not_mem_number hdigit hkind
  | word hword =>
    intro hmem
    simpa [isWordChar_newline] using List.mem_takeWhile_imp hmem
  | @symbol sym two hsym =>
    cases two with
    | false => simpa using hc.symm
    | true =>
      -- the second character is no line break either
      obtain ⟨more, rfl⟩ : ∃ more, cs = '=' :: more := List.head?_eq_some_iff.mp (symbol?_two hsym)
      simpa using hc.symm

theorem yields (h : s.Lexeme c cs kind chars line) (hrest : s.rest = c :: cs) :
    s.Yields ⟨kind, String.ofList chars, s.pos⟩
      { s.skipOver chars with
        depth := kind.depthAfter s.depth, lineStart := line, afterSeparator := kind.isNewline } := by
  have htext : (String.ofList chars).toList = chars := String.toList_ofList
  refine ⟨?_, ?_, rfl, rfl, fun hline => ?_, fun _ => rfl, h.separates, fun hfenced => absurd hfenced h.not_fenced,
    fun _ hkind => ?_⟩
  · obtain ⟨more, hmore⟩ := h.front.2
    show s.rest = (String.ofList chars).toList ++ s.rest.drop chars.length
    rw [htext, hrest, ← hmore, List.drop_left]
  · show s.pos.advance chars = s.pos.advance (String.ofList chars).toList
    rw [htext]
  · obtain rfl : line = true := hline
    exact h.isNewline_of_line
  · show '\n' ∉ (String.ofList chars).toList
    rw [htext]
    exact h.newline_not_mem (h.ne_newline hkind)

end Lexeme

theorem Spans.yields {f : Fence} {body more : List (List Char)} {last code : List Char} (h : s.Spans f body last more)
    (hline : s.lineStart = true) (hdepth : s.depth = 0) :
    s.Yields ⟨.passthrough f.language (String.ofList code), String.ofList (s.blockText body last), s.openerPos⟩
      { s.skipOver (s.blockText body last) with afterSeparator := false } := by
  have htext : (String.ofList (s.blockText body last)).toList = s.blockText body last := String.toList_ofList
  have hfenced : (Token.mk (.passthrough f.language (String.ofList code)) (String.ofList (s.blockText body last))
      s.openerPos).Fenced := ⟨_, _, rfl⟩
  refine ⟨?_, ?_, rfl, rfl, nofun, fun hplain => absurd hfenced hplain, nofun, fun _ => ⟨hline, hdepth⟩,
    fun hplain => absurd hfenced hplain⟩
  · obtain ⟨after, hafter⟩ := h.front.2
    show s.rest = (String.ofList (s.blockText body last)).toList ++ s.rest.drop (s.blockText body last).length
    rw [htext, ← hafter, List.drop_left]
  · show s.pos.advance (s.blockText body last) = s.pos.advance (String.ofList (s.blockText body last)).toList
    rw [htext]

/-- **A step that skips goes past a filler.** -/
theorem step_skips (h : s.step = .skip next) : ∃ chars, s.Skips chars next := by
  cases steps_iff.mpr h with
  | fence hfence hblock => nomatch hblock
  | char hfence hrest hstart =>
    cases hstart with
    | skip hignores => exact ⟨_, hignores.skips hrest⟩

/-- **A step that yields a token goes past its text.** -/
theorem step_yields (h : s.step = .token t next) : s.Yields t next := by
  cases steps_iff.mpr h with
  | fence hfence hblock =>
    obtain ⟨hline, hdepth, -⟩ := fence?_eq_some_iff.mp hfence
    cases hblock with
    | block hspans => exact hspans.yields hline hdepth
  | char hfence hrest hstart =>
    cases hstart with
    | token hlexeme => exact hlexeme.yields hrest

/-! ## Runs -/

/-- **The lexer reads on in a text**: so much of it is laid out in slices and the gap so far, and what the lexer has
    counted and kept in mind is what the text and the tokens say. At the start of a line outside of brackets the last
    token was a separator, so that a fenced block never follows another token directly. -/
structure Reading (source : List Char) (slices : List Slice) (gap : List Char) (s : Scanner) : Prop where
  laid : Laid source slices (gap ++ s.rest)
  skipped : Gap (Token.openBrackets (slices.map Slice.token)) (Token.separated (slices.map Slice.token)) gap s.rest
  pos : s.pos = .after (Slice.join slices ++ gap)
  depth : s.depth = Token.openBrackets (slices.map Slice.token)
  separated : s.afterSeparator = Token.separated (slices.map Slice.token)
  line : s.lineStart = true → s.depth = 0 → s.afterSeparator = true

namespace Reading

variable {source gap : List Char} {slices : List Slice}

theorem start (source : List Char) : Reading source [] [] (.start source) :=
  ⟨.nil, .nil, rfl, rfl, rfl, fun _ _ => rfl⟩

theorem skip (h : Reading source slices gap s) (hstep : s.step = .skip next) :
    ∃ gap', Reading source slices gap' next := by
  obtain ⟨cs, hskips⟩ := step_skips hstep
  have hfiller := hskips.filler
  rw [h.depth, h.separated] at hfiller
  refine ⟨gap ++ cs, ?_, ?_, ?_, hskips.depth.trans h.depth, hskips.separated.trans h.separated, hskips.line⟩
  · rw [List.append_assoc, ← hskips.rest]
    exact h.laid
  · exact .snoc (hskips.rest ▸ h.skipped) hfiller
  · rw [hskips.pos, h.pos, Position.advance_after, List.append_assoc]

theorem token (h : Reading source slices gap s) (hstep : s.step = .token t next) :
    Reading source (slices ++ [⟨gap, t⟩]) [] next := by
  have hyields := step_yields hstep
  have hfits : (Slice.mk gap t).Fits slices next.rest := by
    refine ⟨hyields.rest ▸ h.skipped, fun hplain => (hyields.start hplain).trans h.pos, fun hsep => ?_, fun hfenced => ?_,
      hyields.inline⟩
    · rw [← h.separated]
      exact hyields.single hsep
    · obtain ⟨hline, hdepth⟩ := hyields.fenced hfenced
      rw [← h.separated]
      exact h.line hline hdepth
  refine ⟨.snoc ?_ hfits, .nil, ?_, ?_, ?_, fun hline _ => hyields.line hline⟩
  · rw [Slice.text, List.append_assoc, List.nil_append, ← hyields.rest]
    exact h.laid
  · rw [hyields.pos, h.pos, Position.advance_after]
    simp [Slice.text]
  · rw [hyields.depth, h.depth, List.map_append]
    exact (Token.openBrackets_snoc _ t).symm
  · rw [hyields.separated, List.map_append]
    exact (Token.separated_snoc _ t).symm

/-- At the end of the text only the gap is left. -/
theorem finish (h : Reading source slices gap s) (hstep : s.step = .finish t) :
    Laid source (slices ++ [⟨gap, t⟩]) [] := by
  obtain ⟨hrest, rfl⟩ := step_eq_finish hstep
  have hlaid := h.laid
  have hgap := h.skipped
  rw [hrest] at hlaid hgap
  refine .snoc (by rwa [Slice.text, List.append_assoc]) ⟨hgap, fun _ => h.pos, nofun, ?_, fun _ _ => by simp⟩
  rintro ⟨language, code, heq⟩
  nomatch heq

/-- **A trace lays its tokens out.** -/
theorem scans {s' : Scanner} {ts : List Token} (hs : s.Scans ts s') (h : Reading source slices gap s) :
    ∃ slices' gap', Reading source slices' gap' s' ∧ slices'.map Slice.token = slices.map Slice.token ++ ts := by
  induction hs generalizing slices gap with
  | refl => exact ⟨slices, gap, h, (List.append_nil _).symm⟩
  | @step s s₁ s' o ts hstep _ ih =>
    rcases step_of_result hstep with ⟨rfl, hskip⟩ | ⟨t, rfl, htoken⟩
    · obtain ⟨gap₁, hnext⟩ := h.skip hskip
      exact ih hnext
    · obtain ⟨slices', gap', hnext, htokens⟩ := ih (h.token htoken)
      exact ⟨slices', gap', hnext, by simpa using htokens⟩

/-- **The end of a run** covers the whole text, or leaves what could not be read. -/
theorem ends {ts : List Token} {r : List Token × Option Error} (hend : s.Ends ts r) (h : Reading source slices gap s)
    (hts : slices.map Slice.token = ts) :
    ∃ slices' tail, slices'.map Slice.token = r.1 ∧ Laid source slices' tail ∧ (r.2 = none → tail = []) := by
  cases hend with
  | finish hrest =>
    exact ⟨_, [], by rw [List.map_append, hts]; rfl, h.finish (step_of_rest_nil hrest), fun _ => rfl⟩
  | fail hstep => exact ⟨slices, _, hts, h.laid, nofun⟩

end Reading

end Scanner

/-! ## Texts -/

namespace Token

/-- Every separator of a text follows a token that is none. -/
theorem single_of_laid {source rest : List Char} {slices : List Slice} (h : Laid source slices rest)
    {before after : List Token} {t : Token} (hts : slices.map Slice.token = before ++ t :: after)
    (ht : t.kind.isNewline = true) : separated before = false := by
  obtain ⟨front, back, rfl, rfl, hback⟩ := List.map_eq_append_iff.mp hts
  obtain ⟨p, after', rfl, rfl, rfl⟩ := List.map_eq_cons_iff.mp hback
  exact (h.fits rfl).single ht

/-- **The lexer loses nothing, and its positions are exact.** Up to its end or its first failure the tokens are
    slices of the text, in order, with nothing but gaps between them; a token other than a fenced block stands where
    the text before it ends. A token that is neither a fenced block nor a separator touches the next one exactly when
    no character lies between them. A run that finds the end covers the whole text, ends with its only end of input,
    starts with no separator and has no two in a row. -/
theorem scan_slices (source : String) :
    ∃ slices tail, slices.map Slice.token = (scan source).1 ∧ source.toList = Slice.join slices ++ tail ∧
      (∀ before p after, slices = before ++ p :: after →
        Gap (openBrackets (before.map Slice.token)) (separated (before.map Slice.token)) p.gap
          (p.token.text.toList ++ (Slice.join after ++ tail)) ∧
        (¬ p.token.Fenced → p.token.pos = .after (Slice.join before ++ p.gap))) ∧
      (∀ before p q after, slices = before ++ p :: q :: after → ¬ p.token.Fenced → p.token.kind.isNewline = false →
        ∀ c : Cursor, c.prev = some p.token → c.peek = q.token → (c.touches = true ↔ q.gap = [])) ∧
      ((scan source).2 = none →
        tail = [] ∧
        (∃ ts last, (scan source).1 = ts ++ [last] ∧ last.kind = .eof ∧ ∀ t ∈ ts, t.kind ≠ .eof) ∧
        (∀ t ∈ (scan source).1.head?, t.kind ≠ .newline) ∧
        (∀ before t t' after, (scan source).1 = before ++ t :: t' :: after →
          ¬ (t.kind = .newline ∧ t'.kind = .newline))) := by
  obtain ⟨ts, s, hs, hends⟩ := scan_eq_iff.mp (Eq.refl (scan source))
  obtain ⟨slices, gap, hreading, hts⟩ := (Scanner.Reading.start source.toList).scans hs
  obtain ⟨slices, tail, htokens, hlaid, hend⟩ := hreading.ends hends hts
  refine ⟨slices, tail, htokens, hlaid.source_eq, fun before p after hslices => ?_, fun before p q after hslices hfence
    hnewline c hprev hpeek => hlaid.touches_iff hslices hfence hnewline hprev hpeek, fun herror => ⟨hend herror, ?_, ?_,
    ?_⟩⟩
  · exact ⟨(hlaid.fits hslices).skipped, (hlaid.fits hslices).pos⟩
  · have hok : tokenize source = .ok (scan source).1 := by
      have hscan : scan source = ((scan source).1, none) := by rw [← herror]
      rw [tokenize, hscan]
    obtain ⟨ts, last, hts, hplain, hlast, -⟩ := tokenize_ok hok
    exact ⟨ts, last, hts, hlast, fun t ht => (hplain t ht).1⟩
  -- the start of a text counts as after a separator, as a line break does
  · rintro t ht hkind
    obtain ⟨after, hafter⟩ := List.head?_eq_some_iff.mp ht
    have hsplit : slices.map Slice.token = [] ++ t :: after := htokens.trans hafter
    have hsingle := single_of_laid hlaid hsplit (by rw [hkind]; rfl)
    nomatch hsingle
  · rintro before t t' after hts ⟨hkind, hkind'⟩
    have hsplit : slices.map Slice.token = (before ++ [t]) ++ t' :: after := by rw [htokens, hts]; simp
    have hsingle := single_of_laid hlaid hsplit (by rw [hkind']; rfl)
    rw [separated_snoc, hkind] at hsingle
    nomatch hsingle

end Token

end Helios
