import Helios.Proofs.Readback
import Helios.Proofs.Recognition
import Helios.Proofs.Slices

/-!
# Lexemes — lines that are written token by token

`Spelled` says how tokens are written, each before a text that does not go on with it: the lexer takes as much as it
can, so a word is one only before something else than a letter, digit or underscore. A line is a list of lexemes, which
are tokens with the blanks before them (`Lexeme.Line`). The lexer reads it as these tokens, each at its place
(`Line.tokenize`), and a cursor on its way over them knows which of them touch (`Line.follows`): that is where no blank
was written.
-/

namespace Helios

open Scanner (Apart Breaks PointFree Closed Quoted IsWord Solid)
open Decimal (IsDigits Numeral natOfDigits floatOfDecimal)

/-! ## How tokens are written -/

/-- **The spelling of tokens**: the text writes a token of the kind, when `rest` comes after it. -/
inductive Spelled : TokenKind → List Char → List Char → Prop
  | ident {name : String} {rest : List Char} (hword : IsWord name.toList) (hkey : ∀ k : Keyword, k.text ≠ name)
    (hend : name ≠ "end") (hrest : Apart rest) : Spelled (.ident name) name.toList rest
  | keyword {rest : List Char} (k : Keyword) (hrest : Apart rest) : Spelled (.keyword k) k.text.toList rest
  | int {n : Int64} {ds rest : List Char} (hds : IsDigits ds) (hn : n.toInt = natOfDigits ds) (hrest : Breaks rest) :
    Spelled (.int n) ds rest
  /-- Digits, a point, and more digits or none; the number is rounded to a double. -/
  | float {ds fs rest : List Char} (hds : IsDigits ds) (hfs : ∀ c ∈ fs, Decimal.isDigit c = true) (hrest : Apart rest)
    (hpoint : fs ≠ [] → PointFree rest) :
    Spelled (.float (floatOfDecimal (natOfDigits (ds ++ fs)) (-fs.length))) (ds ++ '.' :: fs) rest
  | str {quote : Char} {text value rest : List Char} (hquote : quote = '"' ∨ quote = '\'')
    (h : Quoted quote text value) : Spelled (.str (String.ofList value)) (quote :: (text ++ [quote])) rest
  | symbol {rest : List Char} (s : Symbol) (hrest : Closed s rest) : Spelled (.symbol s) s.text.toList rest

namespace Decimal

theorem readInt64_of_natOfDigits {ds : List Char} {n : Int64} (hds : IsDigits ds) (hn : n.toInt = natOfDigits ds) :
    readInt64 ds = some n := by
  have hnumeral : Numeral ds n.toInt := hn ▸ .plain hds
  rw [readInt64_numeral hnumeral, if_pos (fitsInt_iff.mpr ⟨n, rfl⟩), Int64.ofInt_toInt]

theorem readFloat_point {ds fs : List Char} (hds : IsDigits ds) (hfs : ∀ c ∈ fs, isDigit c = true) :
    readFloat (ds ++ '.' :: fs) = some (floatOfDecimal (natOfDigits (ds ++ fs)) (-fs.length)) := by
  have htake : (ds ++ '.' :: fs).takeWhile isDigit = ds := by
    rw [List.takeWhile_append_of_pos hds.2]
    exact List.append_nil ds
  have hdrop : (ds ++ '.' :: fs).dropWhile isDigit = '.' :: fs := List.dropWhile_append_of_pos hds.2
  have hmagnitude : readMagnitude (ds ++ '.' :: fs) =
      some (floatOfDecimal (natOfDigits (ds ++ fs)) (-fs.length)) := by
    unfold readMagnitude
    rw [htake, hdrop]
    show (if ds = [] ∧ fs.takeWhile isDigit = [] then none else (readPower (fs.dropWhile isDigit)).map fun e =>
      floatOfDecimal (natOfDigits (ds ++ fs.takeWhile isDigit)) (e - (fs.takeWhile isDigit).length)) = _
    rw [List.takeWhile_eq_self_iff.mpr hfs, List.dropWhile_eq_nil_iff.mpr hfs, if_neg fun h => hds.1 h.1,
      ← Int.zero_sub]
    rfl
  rw [readFloat_of_digits hds (splitSign_digits hds _), hmagnitude]
  rfl

end Decimal

namespace Spelled

variable {k : TokenKind} {text rest : List Char}

/-- **What spells a token is read as it.** -/
theorem reads (h : Spelled k text rest) : Scanner.Reads text rest k := by
  cases h with
  | @ident name _ hword hkey hend hrest =>
    have hreads := Scanner.reads_word hword hrest
    have hkeyword : Keyword.ofText? name = none :=
      List.find?_eq_none.mpr fun k _ heq => hkey k (eq_of_beq heq)
    rwa [String.ofList_toList, Scanner.wordKind, if_neg hend, hkeyword] at hreads
  | keyword k hrest => exact Scanner.reads_keyword k hrest
  | int hds hn hrest => exact Scanner.reads_int hds hrest (Decimal.readInt64_of_natOfDigits hds hn)
  | float hds hfs hrest hpoint => exact Scanner.reads_float hds hfs hrest hpoint (Decimal.readFloat_point hds hfs)
  | str hquote h => exact Scanner.reads_string hquote h rest
  | symbol s hrest => exact Scanner.reads_symbol s hrest

/-- Only a colon ends like a fence. -/
theorem solid (h : Spelled k text rest) (hk : k ≠ .symbol .colon) : Solid text := by
  have hdigits {ds : List Char} (hne : ds ≠ []) (hds : ∀ c ∈ ds, Decimal.isDigit c = true) : Solid ds :=
    Scanner.solid_word hne fun d hd => Scanner.isWordChar_of_digit (hds d hd)
  have hword {w : List Char} (hw : IsWord w) : Solid w := by
    refine Scanner.solid_word ?_ hw.forall_mem
    obtain ⟨c, cs, rfl, -⟩ := hw
    nofun
  cases h with
  | ident hw => exact hword hw
  | keyword k => exact hword (Scanner.isWord_keyword k)
  | int hds => exact hdigits hds.1 hds.2
  | @float ds fs _ hds hfs =>
    cases fs with
    | nil => exact ⟨ds, '.', rfl, by decide, by decide⟩
    | cons f fs => exact ((hdigits (List.cons_ne_nil f fs) hfs).append ['.']).append ds
  | @str quote body _ _ hquote =>
    refine ⟨quote :: body, quote, rfl, ?_⟩
    rcases hquote with rfl | rfl <;> decide
  | symbol s =>
    have hlast : ∃ front c, s.text.toList = front ++ [c] ∧ Text.isBlank c = false ∧ (s ≠ .colon → c ≠ ':') := by
      cases s with
      | eqEq => exact ⟨['='], '=', rfl, by decide⟩
      | ne => exact ⟨['!'], '=', rfl, by decide⟩
      | le => exact ⟨['<'], '=', rfl, by decide⟩
      | ge => exact ⟨['>'], '=', rfl, by decide⟩
      | _ => exact ⟨[], _, rfl, by decide⟩
    obtain ⟨front, c, htext, hblank, hcolon⟩ := hlast
    exact ⟨front, c, htext, hblank, hcolon fun heq => hk (congrArg TokenKind.symbol heq)⟩

end Spelled

/-! ## Lines -/

/-- Characters that the lexer skips within a line. -/
def Blanks (cs : List Char) : Prop := ∀ c ∈ cs, c = ' ' ∨ c = '\t' ∨ c = '\r'

namespace Blanks

variable {cs : List Char}

theorem newline_not_mem (h : Blanks cs) : '\n' ∉ cs := by
  intro hmem
  rcases h _ hmem with heq | heq | heq <;> nomatch heq

theorem isBlank (h : Blanks cs) : ∀ c ∈ cs, Text.isBlank c = true := by
  intro c hc
  rcases h c hc with rfl | rfl | rfl <;> decide

/-- The lexer goes past blanks. -/
theorem scans (h : Blanks cs) {s : Scanner} {rest : List Char} (hline : s.lineStart = false)
    (hrest : s.rest = cs ++ rest) :
    ∃ s', s.Scans [] s' ∧ s'.lineStart = false ∧ s'.rest = rest ∧ s'.pos = s.pos.advance cs := by
  induction cs generalizing s with
  | nil => exact ⟨s, .refl, hline, hrest, rfl⟩
  | cons c cs ih =>
    obtain ⟨hc, h⟩ := List.forall_mem_cons.mp h
    have hstep : s.step = .skip (s.skipOver [c]) := by
      rw [Scanner.step_of_lineStart hline hrest, (Scanner.Ignores.blank hc).stepChar_eq]
      rfl
    have hnext : (s.skipOver [c]).rest = cs ++ rest := by
      show s.rest.drop 1 = cs ++ rest
      rw [hrest]
      rfl
    obtain ⟨s', hs, hline', hrest', hpos⟩ := ih h rfl hnext
    refine ⟨s', Scanner.Scans.step (o := none) ?_ hs, hline', hrest', hpos⟩
    rw [hstep]
    rfl

end Blanks

/-- **A token as it is written**: its text, the kind of token that it is, and what stands before it. -/
structure Lexeme where
  gap : List Char
  text : List Char
  kind : TokenKind

namespace Lexeme

/-- The text of some lexemes. -/
def chars (ls : List Lexeme) : List Char := ls.flatMap fun l => l.gap ++ l.text

theorem chars_cons (l : Lexeme) (ls : List Lexeme) : chars (l :: ls) = l.gap ++ (l.text ++ chars ls) := by
  simp [chars]

/-- **A line**: lexemes with blanks before them, and blanks at the end. -/
inductive Line : List Lexeme → List Char → Prop
  | nil {trailing : List Char} (h : Blanks trailing) : Line [] trailing
  | cons {l : Lexeme} {ls : List Lexeme} {trailing : List Char} (hgap : Blanks l.gap)
    (htext : Spelled l.kind l.text (chars ls ++ trailing)) (h : Line ls trailing) : Line (l :: ls) trailing

/-- The tokens of some lexemes that start at a place. -/
def tokens (p : Position) : List Lexeme → List Token
  | [] => []
  | l :: ls =>
    ⟨l.kind, String.ofList l.text, p.advance l.gap⟩ :: tokens ((p.advance l.gap).advance l.text) ls

namespace Line

variable {ls : List Lexeme} {trailing : List Char}

theorem newline_not_mem (h : Line ls trailing) : '\n' ∉ chars ls ++ trailing := by
  induction h with
  | nil h => exact h.newline_not_mem
  | @cons l ls trailing hgap htext _ ih =>
    rw [chars_cons, List.append_assoc, List.append_assoc]
    simp only [List.mem_append, not_or] at ih ⊢
    exact ⟨hgap.newline_not_mem, htext.reads.line, ih⟩

/-- From the inside of a line the lexer reads the tokens of its lexemes. -/
theorem scans (h : Line ls trailing) {s : Scanner} (hline : s.lineStart = false)
    (hrest : s.rest = chars ls ++ trailing) : ∃ s', s.Scans (tokens s.pos ls) s' ∧ s'.rest = [] := by
  induction h generalizing s with
  | nil h =>
    obtain ⟨s', hs, -, hrest', -⟩ := h.scans hline (hrest.trans (List.append_nil _).symm)
    exact ⟨s', hs, hrest'⟩
  | @cons l ls trailing hgap htext _ ih =>
    rw [chars_cons, List.append_assoc, List.append_assoc] at hrest
    obtain ⟨s₁, hs₁, hline₁, hrest₁, hpos₁⟩ := hgap.scans hline hrest
    obtain ⟨depth, hstep⟩ := htext.reads.step s₁ hline₁ hrest₁
    -- the state after the token, which has the text of the token behind it
    let s₂ : Scanner := { { s₁ with depth }.skipOver l.text with afterSeparator := l.kind.isNewline }
    have hrest₂ : s₂.rest = chars ls ++ trailing := by
      show s₁.rest.drop l.text.length = _
      rw [hrest₁, List.drop_left]
    obtain ⟨s', hs', hrest'⟩ := @ih s₂ rfl hrest₂
    have htoken : s₁.step.result = some (some ⟨l.kind, String.ofList l.text, s₁.pos⟩, s₂) := by
      rw [hstep]
      rfl
    have hpos₂ : s₂.pos = s₁.pos.advance l.text := rfl
    rw [hpos₂, hpos₁] at hs'
    rw [hpos₁] at htoken
    exact ⟨s', hs₁.append (.step htoken hs'), hrest'⟩

end Line

end Lexeme

namespace Text

/-- Blanks at the end are trimmed. -/
theorem trim_append {bs : List Char} (h : ∀ b ∈ bs, isBlank b = true) (cs : List Char) :
    trim (cs ++ bs) = trim cs := by
  unfold trim trimStart
  rw [List.dropWhile_append]
  split
  · rename_i hempty
    rw [List.isEmpty_iff.mp hempty, List.dropWhile_eq_nil_iff.mpr h]
  · unfold trimEnd
    rw [List.reverse_append, List.dropWhile_append_of_pos fun b hb => h b (List.mem_reverse.mp hb)]

end Text

namespace Lexeme

namespace Line

variable {ls : List Lexeme} {trailing : List Char}

theorem trailing_blanks (h : Line ls trailing) : Blanks trailing := by
  induction h with
  | nil h => exact h
  | cons _ _ _ ih => exact ih

/-- The last lexeme of a line decides whether it ends like a fence. -/
theorem solid (h : Line ls trailing) (hne : ls ≠ []) (hlast : ∀ l ∈ ls.getLast?, l.kind ≠ .symbol .colon) :
    Solid (chars ls) := by
  induction h with
  | nil => exact absurd rfl hne
  | @cons l ls trailing _ htext h ih =>
    rw [chars_cons]
    cases ls with
    | nil =>
      have hone := (htext.solid (hlast l rfl)).append l.gap
      rwa [chars, List.flatMap_nil, List.append_nil]
    | cons l' ls =>
      have hrest := ih nofun fun k hk => hlast k (by simpa using hk)
      exact (hrest.append l.text).append l.gap

/-- **A line is read as its tokens**, when it does not end like a fence. -/
theorem tokenize (h : Line ls trailing) (hlast : ∀ l ∈ ls.getLast?, l.kind ≠ .symbol .colon) :
    ∃ e : Scanner, Token.tokenize (String.ofList (chars ls ++ trailing)) =
      .ok (tokens .start ls ++ [⟨.eof, "", e.pos⟩]) := by
  have hfence : Fence.opening? (chars ls ++ trailing) = none := by
    have htrim := Text.trim_append h.trailing_blanks.isBlank (chars ls)
    unfold Fence.opening?
    rw [htrim]
    cases ls with
    | nil => decide
    | cons l ls => exact (h.solid nofun hlast).opening?_eq_none
  obtain ⟨s', hs, hrest⟩ :=
    @scans _ _ h { Scanner.start (chars ls ++ trailing) with lineStart := false } rfl rfl
  obtain ⟨e, hs, hrest⟩ := hs.of_inside h.newline_not_mem hfence hrest
  refine ⟨e, Token.tokenize_eq_ok_iff.mpr ⟨_, e, ?_, hrest, rfl⟩⟩
  rwa [String.toList_ofList]

end Line

end Lexeme

/-! ## On the way over a line -/

/-- **From one cursor to another over lexemes.** The cursor sees where a lexeme touches the one before. -/
inductive Cursor.Follows : Cursor → List Lexeme → Cursor → Prop
  | nil {c : Cursor} : Follows c [] c
  | cons {c c' : Cursor} {l : Lexeme} {ls : List Lexeme} (hrest : c.rest ≠ []) (hk : c.peek.kind = l.kind)
    (hgap : c.prev ≠ none → (c.touches = true ↔ l.gap = [])) (h : Follows c.next ls c') : Follows c (l :: ls) c'

namespace Cursor.Follows

variable {c c₁ c' : Cursor} {l : Lexeme} {ls ls' : List Lexeme}

theorem reads (h : c.Follows ls c') : c.Reads (ls.map Lexeme.kind) c' := by
  induction h with
  | nil => exact .nil
  | cons hrest hk _ _ ih => exact .cons hrest hk ih

theorem of_append (h : c.Follows (ls ++ ls') c') : ∃ c₁, c.Follows ls c₁ ∧ c₁.Follows ls' c' := by
  induction ls generalizing c with
  | nil => exact ⟨c, .nil, h⟩
  | cons l ls ih =>
    cases h with
    | cons hrest hk hgap h =>
      obtain ⟨c₁, h₁, h₂⟩ := ih h
      exact ⟨c₁, .cons hrest hk hgap h₁, h₂⟩

theorem of_cons (h : c.Follows (l :: ls) c') :
    c.peek.kind = l.kind ∧ (c.prev ≠ none → (c.touches = true ↔ l.gap = [])) ∧ c.next.Follows ls c' := by
  cases h with
  | cons _ hk hgap h => exact ⟨hk, hgap, h⟩

/-- After a lexeme the cursor has a token before it. -/
theorem prev_ne_none (h : c.Follows ls c') (hprev : c.prev ≠ none ∨ ls ≠ []) : c'.prev ≠ none := by
  induction h with
  | nil => exact hprev.resolve_right (fun hne => hne rfl)
  | @cons c _ _ _ hrest _ _ _ ih =>
    refine ih (.inl ?_)
    obtain ⟨t, rest, hcons⟩ := List.exists_cons_of_ne_nil hrest
    unfold Cursor.next
    rw [hcons]
    nofun

end Cursor.Follows

namespace Lexeme.Line

variable {ls : List Lexeme} {trailing : List Char}

/-- **A cursor follows the tokens of a line**, from where the token before them ends, if there is one. -/
theorem follows (h : Line ls trailing) {p : Position} {prev : Option Token}
    (hprev : ∀ t ∈ prev, p = ⟨t.pos.line, t.pos.column + t.text.length⟩) (stop : Token) :
    ∃ c', Cursor.Follows ⟨prev, tokens p ls, stop⟩ ls c' ∧ c'.rest = [] ∧ c'.stop = stop := by
  induction h generalizing p prev with
  | nil => exact ⟨_, .nil, rfl, rfl⟩
  | @cons l ls trailing hgap htext _ ih =>
    have hpos : p.advance l.gap = ⟨p.line, p.column + l.gap.length⟩ :=
      Position.advance_of_not_mem hgap.newline_not_mem p
    have hnext : ∀ t ∈ some (Token.mk l.kind (String.ofList l.text) (p.advance l.gap)),
        (p.advance l.gap).advance l.text = ⟨t.pos.line, t.pos.column + t.text.length⟩ := by
      rintro t ht
      obtain rfl := Option.some.inj ht
      rw [Position.advance_of_not_mem htext.reads.line, String.length_ofList]
    obtain ⟨c', hfollows, hrest, hstop⟩ := ih hnext
    refine ⟨c', .cons nofun rfl (fun hne => ?_) hfollows, hrest, hstop⟩
    obtain ⟨t, rfl⟩ := Option.ne_none_iff_exists'.mp hne
    have hp := hprev t rfl
    unfold Cursor.touches
    rw [tokens]
    show (t.pos.line == (p.advance l.gap).line && t.pos.column + t.text.length == (p.advance l.gap).column) = true ↔ _
    rw [hpos, hp]
    simp

end Lexeme.Line

end Helios
