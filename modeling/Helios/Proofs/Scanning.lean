import Helios.Proofs.Steps

/-!
# Scanning — how the lexer goes through a text

A step of the lexer that neither fails nor finds the end takes a nonempty `Piece` off the front of the rest
(`Scanner.step_takes`). `Scanner.Scans` is the trace of the lexer, one such step after the other. A run is a trace
to the end of the text or to a step that fails (`Scanner.run_eq_iff`), as the fuel of `Scanner.run` always suffices;
so the tokens of a text are those of a trace to its end (`Token.tokenize_eq_ok_iff`).

What a step does depends on the rest of the text only up to a line break. `Scanner.embed` puts more text after
the rest, none or some that starts with a line break, and moves the lexer down by some lines; a step takes the
same piece there (`Scanner.Takes`), and a whole trace goes the same way (`Scanner.Scans.embed`).
-/

namespace Helios

/-! ## Moving down -/

namespace Position

/-- The same place some lines further down. -/
def down (k : Nat) (p : Position) : Position := ⟨p.line + k, p.column⟩

theorem step_down (k : Nat) (p : Position) (c : Char) : (p.down k).step c = (p.step c).down k := by
  unfold step down
  split
  · simp only [Position.mk.injEq, and_true]
    omega
  · rfl

theorem advance_down (k : Nat) (p : Position) (cs : List Char) :
    (p.down k).advance cs = (p.advance cs).down k := by
  induction cs generalizing p with
  | nil => rfl
  | cons c cs ih => rw [advance_cons, advance_cons, step_down, ih]

/-- The line after some characters. -/
theorem line_advance (p : Position) (cs : List Char) :
    (p.advance cs).line = p.line + cs.count '\n' := by
  induction cs generalizing p with
  | nil => rfl
  | cons c cs ih =>
    rw [advance_cons, ih, List.count_cons]
    unfold step
    by_cases hc : c = '\n'
    · simp only [hc, if_pos, beq_self_eq_true]
      omega
    · simp [hc]

end Position

/-- The same token some lines further down. -/
def Token.down (k : Nat) (t : Token) : Token := { t with pos := t.pos.down k }

/-! ## What the parts of the lexer see of the rest -/

/-- **Text that the lexer does not look into** from before it: none, or some that starts with a line break. -/
def Seam (tail : List Char) : Prop := ∀ c, tail.head? = some c → c = '\n'

theorem seam_nil : Seam [] := nofun

theorem seam_newline (cs : List Char) : Seam ('\n' :: cs) := by
  intro c hc
  exact (Option.some.inj hc).symm

namespace Seam

variable {tail : List Char} {p : Char → Bool}

theorem eq_nil_or (h : Seam tail) : tail = [] ∨ ∃ more, tail = '\n' :: more := by
  cases tail with
  | nil => exact .inl rfl
  | cons c more => exact .inr ⟨more, by rw [h c rfl]⟩

theorem takeWhile_append (h : Seam tail) (hp : p '\n' = false) (cs : List Char) :
    (cs ++ tail).takeWhile p = cs.takeWhile p := by
  induction cs with
  | nil =>
    cases tail with
    | nil => rfl
    | cons c tail =>
      obtain rfl := h c rfl
      simp [hp]
  | cons c cs ih =>
    rw [List.cons_append, List.takeWhile_cons, List.takeWhile_cons, ih]

theorem dropWhile_append (h : Seam tail) (hp : p '\n' = false) (cs : List Char) :
    (cs ++ tail).dropWhile p = cs.dropWhile p ++ tail := by
  induction cs with
  | nil =>
    cases tail with
    | nil => rfl
    | cons c tail =>
      obtain rfl := h c rfl
      simp [hp]
  | cons c cs ih =>
    rw [List.cons_append, List.dropWhile_cons, List.dropWhile_cons, ih]
    split <;> rfl

end Seam

namespace Scanner

/-- The number that `text`, a point and digits after it, is the front of. -/
def NumberText.afterFraction (text : List Char) : List Char → NumberText
  | '.' :: e :: more =>
    if Decimal.isDigit e then
      .malformed (text ++ '.' :: (e :: more).takeWhile fun c => isWordChar c || c == '.')
    else .close .float text ('.' :: e :: more)
  | rest => .close .float text rest

/-- The number that the digits `whole` are the front of. -/
def NumberText.afterWhole (whole : List Char) : List Char → NumberText
  | '.' :: [] => .float (whole ++ ['.'])
  | '.' :: d :: more =>
    if Decimal.isDigit d then
      .afterFraction (whole ++ '.' :: (d :: more).takeWhile Decimal.isDigit)
        ((d :: more).dropWhile Decimal.isDigit)
    else if isWordChar d then .close .int whole ('.' :: d :: more)
    else .float (whole ++ ['.'])
  | rest => .close .int whole rest

namespace NumberText

theorem afterFraction_point (text : List Char) (e : Char) (more : List Char) :
    afterFraction text ('.' :: e :: more) =
      if Decimal.isDigit e then
        .malformed (text ++ '.' :: (e :: more).takeWhile fun c => isWordChar c || c == '.')
      else .close .float text ('.' :: e :: more) := rfl

theorem afterWhole_point (whole : List Char) (d : Char) (more : List Char) :
    afterWhole whole ('.' :: d :: more) =
      if Decimal.isDigit d then
        .afterFraction (whole ++ '.' :: (d :: more).takeWhile Decimal.isDigit)
          ((d :: more).dropWhile Decimal.isDigit)
      else if isWordChar d then .close .int whole ('.' :: d :: more)
      else .float (whole ++ ['.']) := rfl

theorem afterFraction_of_ne {text : List Char} {c : Char} (hc : c ≠ '.') (rest : List Char) :
    afterFraction text (c :: rest) = .close .float text (c :: rest) := by
  unfold afterFraction
  split
  · rename_i heq
    exact absurd (List.cons.inj heq).1 hc
  · rfl

theorem afterWhole_of_ne {whole : List Char} {c : Char} (hc : c ≠ '.') (rest : List Char) :
    afterWhole whole (c :: rest) = .close .int whole (c :: rest) := by
  unfold afterWhole
  split
  · rename_i heq
    exact absurd (List.cons.inj heq).1 hc
  · rename_i heq
    exact absurd (List.cons.inj heq).1 hc
  · rfl

end NumberText

/-- A number is read in two parts. -/
theorem numberText_eq (cs : List Char) :
    numberText cs = .afterWhole (cs.takeWhile Decimal.isDigit) (cs.dropWhile Decimal.isDigit) := by
  unfold numberText
  generalize cs.takeWhile Decimal.isDigit = whole
  generalize cs.dropWhile Decimal.isDigit = rest
  dsimp only
  split
  · rename_i tail
    split
    · rfl
    · rename_i d more
      rw [NumberText.afterWhole_point]
      congr 1
  · rename_i hne
    cases rest with
    | nil => rfl
    | cons c more =>
      rw [NumberText.afterWhole_of_ne]
      rintro rfl
      exact hne more rfl

section Seam

variable {tail : List Char} (h : Seam tail)
include h

theorem close_append (wrap : List Char → NumberText) (cs rest : List Char) :
    NumberText.close wrap cs (rest ++ tail) = NumberText.close wrap cs rest := by
  unfold NumberText.close
  rw [h.takeWhile_append isWordChar_newline]

theorem afterFraction_append (text rest : List Char) :
    NumberText.afterFraction text (rest ++ tail) = NumberText.afterFraction text rest := by
  match rest with
  | [] => rcases h.eq_nil_or with rfl | ⟨more, rfl⟩ <;> rfl
  | [c] =>
    by_cases hc : c = '.'
    · subst hc
      rcases h.eq_nil_or with rfl | ⟨more, rfl⟩ <;> rfl
    · rw [List.cons_append, NumberText.afterFraction_of_ne hc, NumberText.afterFraction_of_ne hc]
      exact close_append h .float text [c]
  | c :: e :: more =>
    by_cases hc : c = '.'
    · subst hc
      have hwhile := h.takeWhile_append (p := fun c => isWordChar c || c == '.') (by decide) (e :: more)
      have hclose := close_append h .float text ('.' :: e :: more)
      dsimp only [List.cons_append] at hwhile hclose ⊢
      rw [NumberText.afterFraction_point, NumberText.afterFraction_point, hwhile, hclose]
    · rw [List.cons_append, NumberText.afterFraction_of_ne hc, NumberText.afterFraction_of_ne hc]
      exact close_append h .float text (c :: e :: more)

theorem afterWhole_append (whole rest : List Char) :
    NumberText.afterWhole whole (rest ++ tail) = NumberText.afterWhole whole rest := by
  match rest with
  | [] => rcases h.eq_nil_or with rfl | ⟨more, rfl⟩ <;> rfl
  | [c] =>
    by_cases hc : c = '.'
    · subst hc
      rcases h.eq_nil_or with rfl | ⟨more, rfl⟩ <;> rfl
    · rw [List.cons_append, NumberText.afterWhole_of_ne hc, NumberText.afterWhole_of_ne hc]
      exact close_append h .int whole [c]
  | c :: d :: more =>
    by_cases hc : c = '.'
    · subst hc
      have htake := h.takeWhile_append isDigit_newline (d :: more)
      have hdrop := h.dropWhile_append isDigit_newline (d :: more)
      have hclose := close_append h .int whole ('.' :: d :: more)
      dsimp only [List.cons_append] at htake hdrop hclose ⊢
      rw [NumberText.afterWhole_point, NumberText.afterWhole_point, htake, hdrop, hclose, afterFraction_append h]
    · rw [List.cons_append, NumberText.afterWhole_of_ne hc, NumberText.afterWhole_of_ne hc]
      exact close_append h .int whole (c :: d :: more)

/-- A number is read up to a line break at most. -/
theorem numberText_append (cs : List Char) : numberText (cs ++ tail) = numberText cs := by
  rw [numberText_eq, numberText_eq, h.takeWhile_append isDigit_newline, h.dropWhile_append isDigit_newline,
    afterWhole_append h]

end Seam

/-! ## What is taken stands at the front -/

theorem close_chars {wrap : List Char → NumberText} (hwrap : ∀ cs, (wrap cs).chars = cs) {cs rest : List Char}
    {kind : TokenKind} (h : (NumberText.close wrap cs rest).kind? = some kind) :
    (NumberText.close wrap cs rest).chars = cs := by
  unfold NumberText.close at h ⊢
  split at h
  · exact hwrap cs
  · nomatch h

theorem afterFraction_chars {text rest : List Char} {kind : TokenKind}
    (h : (NumberText.afterFraction text rest).kind? = some kind) :
    (NumberText.afterFraction text rest).chars = text := by
  unfold NumberText.afterFraction at h ⊢
  split at h
  · rename_i e more
    split at h
    · nomatch h
    · rename_i he
      rw [if_neg he]
      exact close_chars (fun _ => rfl) h
  · exact close_chars (fun _ => rfl) h

/-- A number that is read is its whole part and maybe some of what follows that. -/
theorem afterWhole_chars {whole rest : List Char} {kind : TokenKind}
    (h : (NumberText.afterWhole whole rest).kind? = some kind) :
    ∃ more, (NumberText.afterWhole whole rest).chars = whole ++ more ∧ more <+: rest := by
  have hclose {rest : List Char} (hk : (NumberText.close .int whole rest).kind? = some kind) :
      ∃ more, (NumberText.close .int whole rest).chars = whole ++ more ∧ more <+: rest :=
    ⟨[], by rw [close_chars (fun _ => rfl) hk, List.append_nil], List.nil_prefix⟩
  unfold NumberText.afterWhole at h ⊢
  split at h
  · exact ⟨['.'], rfl, List.prefix_rfl⟩
  · rename_i d more
    split at h
    · rename_i hd
      rw [if_pos hd]
      refine ⟨'.' :: (d :: more).takeWhile Decimal.isDigit, afterFraction_chars h, ?_⟩
      exact (List.prefix_cons_inj '.').mpr (List.takeWhile_prefix _)
    · rename_i hd
      rw [if_neg hd]
      split at h
      · rename_i hword
        rw [if_pos hword]
        exact hclose h
      · rename_i hword
        rw [if_neg hword]
        exact ⟨['.'], rfl, ⟨d :: more, rfl⟩⟩
  · exact hclose h

/-- A number that is read stands at the front of the text. -/
theorem numberText_front {c : Char} {cs : List Char} {kind : TokenKind} (hc : Decimal.isDigit c = true)
    (h : (numberText (c :: cs)).kind? = some kind) :
    (numberText (c :: cs)).chars ≠ [] ∧ (numberText (c :: cs)).chars <+: c :: cs := by
  have hcs := (List.takeWhile_append_dropWhile (p := Decimal.isDigit) (l := c :: cs)).symm
  rw [numberText_eq] at h ⊢
  obtain ⟨more, hchars, hfront⟩ := afterWhole_chars h
  rw [hchars]
  constructor
  · rw [List.takeWhile_cons_of_pos hc]
    nofun
  · conv => rhs; rw [hcs]
    exact (List.prefix_append_right_inj _).mpr hfront

/-- A character of a string that is not escaped. -/
theorem stringText_of_ne {quote c : Char} (hc : c ≠ '\\') (cs : List Char) :
    stringText quote (c :: cs) =
      if c = '\n' then none
      else if c = quote then some ⟨[], [c]⟩
      else (stringText quote cs).map fun s => ⟨c :: s.value, c :: s.raw⟩ := by
  rw [stringText]
  · rintro rfl
    exact absurd rfl hc
  · rintro _ _ rfl
    exact absurd rfl hc

/-- A string that is read stands at the front of the text, whatever follows. -/
theorem stringText_append {quote : Char} {cs : List Char} {t : StringText} (h : stringText quote cs = some t) :
    t.raw <+: cs ∧ ∀ tail, stringText quote (cs ++ tail) = some t := by
  fun_induction stringText quote cs generalizing t with
  | case1 => nomatch h
  | case2 => nomatch h
  | case3 cs => nomatch h
  | case4 c cs hc ih =>
    obtain ⟨s, hs, rfl⟩ := Option.map_eq_some_iff.mp h
    obtain ⟨hraw, happend⟩ := ih hs
    refine ⟨?_, fun tail => ?_⟩
    · exact (List.prefix_cons_inj _).mpr ((List.prefix_cons_inj _).mpr hraw)
    · rw [List.cons_append, List.cons_append, stringText, if_neg hc, happend tail]
      rfl
  | case5 => nomatch h
  | case6 cs hnil hcons hline =>
    obtain rfl := Option.some.inj h
    -- a backslash at this place would have been read as the start of an escape
    have hquote : quote ≠ '\\' := by
      rintro rfl
      cases cs with
      | nil => exact hnil rfl rfl
      | cons c cs => exact hcons c cs rfl rfl
    refine ⟨⟨cs, rfl⟩, fun tail => ?_⟩
    rw [List.cons_append, stringText_of_ne hquote, if_neg hline, if_pos rfl]
  | case7 c cs hnil hcons hline hquote ih =>
    obtain ⟨s, hs, rfl⟩ := Option.map_eq_some_iff.mp h
    obtain ⟨hraw, happend⟩ := ih hs
    have hc : c ≠ '\\' := by
      rintro rfl
      cases cs with
      | nil => exact hnil rfl rfl
      | cons c cs => exact hcons c cs rfl rfl
    refine ⟨(List.prefix_cons_inj _).mpr hraw, fun tail => ?_⟩
    rw [List.cons_append, stringText_of_ne hc, if_neg hline, if_neg hquote, happend tail]
    rfl

end Scanner

namespace Text

/-- The lines of two texts with a line break between them. -/
theorem splitLines_append (cs ds : List Char) :
    splitLines (cs ++ '\n' :: ds) = splitLines cs ++ splitLines ds := by
  induction cs with
  | nil => rfl
  | cons c cs ih =>
    obtain ⟨line, rest, hlines⟩ := List.exists_cons_of_ne_nil (splitLines_ne_nil cs)
    rw [List.cons_append, splitLines, splitLines, ih, hlines]
    split <;> rfl

theorem joinLines_prefix {xs : List (List Char)} (hxs : xs ≠ []) (ys : List (List Char)) :
    joinLines xs <+: joinLines (xs ++ ys) := by
  induction xs with
  | nil => exact absurd rfl hxs
  | cons x xs ih =>
    cases xs with
    | nil =>
      cases ys with
      | nil => exact List.prefix_rfl
      | cons y ys => exact List.prefix_append _ _
    | cons x' xs =>
      have hrest := ih (List.cons_ne_nil x' xs)
      rw [List.cons_append, List.cons_append, joinLines_cons_cons, joinLines_cons_cons]
      exact (List.prefix_append_right_inj x).mpr ((List.prefix_cons_inj _).mpr hrest)

end Text

/-! ## Steps -/

/-- What a step gives when it neither fails nor finds the end: a token or none, and where to go on. -/
def Step.result : Step → Option (Option Token × Scanner)
  | skip next => some (none, next)
  | token t next => some (some t, next)
  | finish _ | fail _ => none

/-- **A piece of text that a step takes**: its characters, the token it is, if any, the column where that starts,
    and whether a new line starts after it. -/
structure Piece where
  chars : List Char
  kind : Option TokenKind
  column : Nat
  lineStart : Bool

namespace Piece

/-- The token of a piece that `s` takes. -/
def token? (p : Piece) (s : Scanner) : Option Token :=
  p.kind.map fun kind => ⟨kind, String.ofList p.chars, ⟨s.pos.line, p.column⟩⟩

/-- The lexer after the piece. -/
def next (p : Piece) (s : Scanner) : Scanner where
  rest := s.rest.drop p.chars.length
  pos := s.pos.advance p.chars
  depth := p.kind.elim s.depth fun kind => kind.depthAfter s.depth
  lineStart := p.lineStart
  afterSeparator := p.kind.elim s.afterSeparator fun kind => kind.isNewline

/-- The piece stands at the front of what `s` has to read. -/
structure Fits (p : Piece) (s : Scanner) : Prop where
  ne_nil : p.chars ≠ []
  front : p.chars <+: s.rest
  kind_ne : p.kind ≠ some .eof

end Piece

namespace Scanner

/-- The lexer some lines further down, with more text after the rest. -/
def embed (s : Scanner) (k : Nat) (tail : List Char) : Scanner :=
  { s with rest := s.rest ++ tail, pos := s.pos.down k }

theorem Piece.next_embed {p : Piece} {s : Scanner} (h : p.Fits s) (k : Nat) (tail : List Char) :
    p.next (s.embed k tail) = (p.next s).embed k tail := by
  unfold Piece.next embed
  dsimp only
  rw [List.drop_append_of_le_length h.front.length_le, Position.advance_down]

theorem Piece.token?_embed (p : Piece) (s : Scanner) (k : Nat) (tail : List Char) :
    p.token? (s.embed k tail) = (p.token? s).map (Token.down k) := by
  unfold Piece.token?
  rw [Option.map_map]
  rfl

theorem embed_zero (s : Scanner) : s.embed 0 [] = s := by
  unfold embed Position.down
  rw [List.append_nil]
  rfl

theorem currentLine_embed {tail : List Char} (h : Seam tail) (s : Scanner) (k : Nat) :
    (s.embed k tail).currentLine = s.currentLine :=
  h.takeWhile_append (by decide) s.rest

/-- **A piece that a step takes wherever the same text stands before a seam.** -/
structure Takes (s : Scanner) (p : Piece) (step : Nat → List Char → Step) : Prop where
  fits : p.Fits s
  result : ∀ k tail, Seam tail →
    (step k tail).result = some (p.token? (s.embed k tail), p.next (s.embed k tail))

theorem wordKind_ne_eof (word : String) : wordKind word ≠ .eof := by
  unfold wordKind
  split
  · nofun
  · split <;> nofun

theorem symbol?_seam {c : Char} {cs tail : List Char} (h : Seam tail) :
    symbol? c (cs ++ tail).head? = symbol? c cs.head? := by
  cases cs with
  | cons d cs => rfl
  | nil =>
    rcases h.eq_nil_or with rfl | ⟨more, rfl⟩
    · rfl
    · unfold symbol?
      split <;> rfl

/-- A symbol of two characters needs a second one. -/
theorem symbol?_none {c : Char} {sym : Symbol} {two : Bool} (h : symbol? c none = some (sym, two)) :
    two = false := by
  unfold symbol? at h
  split at h <;> simp_all

/-! ### What a character starts -/

section Character

variable {s : Scanner} {c : Char} {cs chars : List Char} {kind : TokenKind} {line : Bool}

theorem Ignores.front (h : s.Ignores c chars line) (hrest : s.rest = c :: cs) : chars ≠ [] ∧ chars <+: s.rest := by
  have hone : [c] <+: s.rest := ⟨cs, hrest.symm⟩
  cases h with
  | comment hc =>
    refine ⟨?_, List.takeWhile_prefix _⟩
    unfold currentLine
    rw [hrest, hc]
    nofun
  | blank | lineBreak | semicolon => exact ⟨List.cons_ne_nil c [], hone⟩

theorem Lexeme.front (h : s.Lexeme c cs kind chars line) : chars ≠ [] ∧ chars <+: c :: cs := by
  have hone : [c] <+: c :: cs := ⟨cs, rfl⟩
  cases h with
  | lineBreak | semicolon => exact ⟨List.cons_ne_nil c [], hone⟩
  | string hc ht => exact ⟨List.cons_ne_nil c _, (List.prefix_cons_inj c).mpr (stringText_append ht).1⟩
  | number hc hkind => exact numberText_front hc hkind
  | word hc =>
    refine ⟨?_, List.takeWhile_prefix _⟩
    rw [List.takeWhile_cons_of_pos (isWordChar_of_start hc)]
    nofun
  | @symbol _ two hsym => exact ⟨by cases two <;> nofun, List.take_prefix _ _⟩

theorem Lexeme.kind_ne_eof (h : s.Lexeme c cs kind chars line) : kind ≠ .eof := by
  cases h with
  | lineBreak | semicolon | string | symbol => nofun
  | number hc hkind => rcases NumberText.kind?_eq_some hkind with ⟨x, rfl⟩ | ⟨x, rfl⟩ <;> nofun
  | word hc => exact wordKind_ne_eof _

variable {tail : List Char}

theorem Ignores.embed (h : s.Ignores c chars line) (ht : Seam tail) (k : Nat) :
    (s.embed k tail).Ignores c chars line := by
  cases h with
  | blank hc => exact .blank hc
  | comment hc =>
    rw [← currentLine_embed ht s k]
    exact .comment hc
  | lineBreak hc hseparated => exact .lineBreak hc hseparated
  | semicolon hc hseparated => exact .semicolon hc hseparated

theorem Lexeme.embed (h : s.Lexeme c cs kind chars line) (ht : Seam tail) (k : Nat) :
    (s.embed k tail).Lexeme c (cs ++ tail) kind chars line := by
  cases h with
  | lineBreak hc hseparates => exact .lineBreak hc hseparates
  | semicolon hc hseparates => exact .semicolon hc hseparates
  | string hc hstring => exact .string hc ((stringText_append hstring).2 tail)
  | number hc hkind =>
    have hsame : numberText (c :: (cs ++ tail)) = numberText (c :: cs) := numberText_append ht (c :: cs)
    rw [← hsame] at hkind ⊢
    exact .number hc hkind
  | word hc =>
    have hsame : (c :: (cs ++ tail)).takeWhile isWordChar = (c :: cs).takeWhile isWordChar :=
      ht.takeWhile_append isWordChar_newline (c :: cs)
    rw [← hsame]
    exact .word hc
  | @symbol sym two hsym =>
    -- a symbol of two characters does not reach over the seam
    have hsame : (c :: (cs ++ tail)).take (if two then 2 else 1) = (c :: cs).take (if two then 2 else 1) := by
      cases cs with
      | nil =>
        rw [symbol?_none hsym]
        rfl
      | cons d cs => cases two <;> rfl
    rw [← hsame]
    exact .symbol ((symbol?_seam ht).trans hsym)

/-- **A character starts a piece.** -/
theorem Starts.takes {r : Step} (h : s.Starts c cs r) (hrest : s.rest = c :: cs) (hr : r.result ≠ none) :
    ∃ p, s.Takes p fun k tail => (s.embed k tail).stepChar c (cs ++ tail) := by
  cases h with
  | @skip chars line h =>
    obtain ⟨hne, hfront⟩ := h.front hrest
    refine ⟨⟨chars, none, 0, line⟩, ⟨hne, hfront, nofun⟩, fun k tail ht => ?_⟩
    rw [(h.embed ht k).stepChar_eq]
    rfl
  | @token kind chars line h =>
    obtain ⟨hne, hfront⟩ := h.front
    refine ⟨⟨chars, some kind, s.pos.column, line⟩, ⟨hne, hrest ▸ hfront, ?_⟩, fun k tail ht => ?_⟩
    · exact fun heq => h.kind_ne_eof (Option.some.inj heq)
    · rw [(h.embed ht k).stepChar_eq]
      rfl
  | fail h => exact absurd rfl hr

end Character

/-! ### What a fence starts -/

section Block

variable {s : Scanner} {f : Fence} {body more : List (List Char)} {last : List Char}

/-- What comes after the seam makes lines of its own, after the closing one. -/
theorem Spans.embed (h : s.Spans f body last more) {tail : List Char} (ht : Seam tail) (k : Nat) :
    ∃ extra, (s.embed k tail).Spans f body last (more ++ extra) := by
  obtain ⟨extra, hlines⟩ : ∃ extra, Text.splitLines (s.rest ++ tail) = Text.splitLines s.rest ++ extra := by
    rcases ht.eq_nil_or with rfl | ⟨after, rfl⟩
    · exact ⟨[], by rw [List.append_nil, List.append_nil]⟩
    · exact ⟨Text.splitLines after, Text.splitLines_append s.rest after⟩
  refine ⟨extra, ?_, h.inside, h.closing⟩
  show Text.splitLines (s.rest ++ tail) = _
  rw [currentLine_embed ht, hlines, h.lines, List.cons_append, List.append_assoc, List.cons_append]

theorem Spans.front (h : s.Spans f body last more) : s.blockText body last ≠ [] ∧ s.blockText body last <+: s.rest := by
  constructor
  · unfold blockText
    cases body <;> simp [Text.joinLines_cons_cons]
  · have hsplit : Text.splitLines s.rest = (s.currentLine :: (body ++ [last])) ++ more := by
      rw [h.lines]
      simp
    rw [← Text.joinLines_splitLines s.rest, hsplit]
    exact Text.joinLines_prefix (List.cons_ne_nil _ _) more

/-- **A fence takes its block.** -/
theorem Fences.takes {r : Step} (h : s.Fences f r) (hr : r.result ≠ none) :
    ∃ p, s.Takes p fun k tail => (s.embed k tail).fencedBlock f := by
  cases h with
  | unclosed | torn => exact absurd rfl hr
  | @block body more last code h hcut =>
    obtain ⟨hne, hfront⟩ := h.front
    refine ⟨⟨s.blockText body last, some (.passthrough f.language (String.ofList code)), s.openerPos.column, false⟩,
      ⟨hne, hfront, nofun⟩, fun k tail ht => ?_⟩
    obtain ⟨extra, hthere⟩ := h.embed ht k
    rw [(Fences.block hthere hcut).fencedBlock_eq]
    unfold openerPos blockText
    rw [currentLine_embed ht]
    rfl

end Block

/-! ### Steps -/

theorem fence?_embed (s : Scanner) {tail : List Char} (ht : Seam tail) (k : Nat) :
    (s.embed k tail).fence? = s.fence? := by
  unfold fence?
  rw [currentLine_embed ht]
  rfl

/-- **Every step that succeeds takes a piece.** -/
theorem step_takes {s : Scanner} (h : s.step.result ≠ none) :
    ∃ p, s.Takes p fun k tail => (s.embed k tail).step := by
  have hsteps := s.steps_step
  generalize s.step = r at h hsteps
  cases hsteps with
  | fence hfence hblock =>
    obtain ⟨p, hp⟩ := hblock.takes h
    refine ⟨p, hp.fits, fun k tail ht => ?_⟩
    rw [step_of_fence ((s.fence?_embed ht k).trans hfence)]
    exact hp.result k tail ht
  | finish => exact absurd rfl h
  | @char c cs _ hfence hrest hstart =>
    obtain ⟨p, hp⟩ := hstart.takes hrest h
    refine ⟨p, hp.fits, fun k tail ht => ?_⟩
    have hrest' : (s.embed k tail).rest = c :: (cs ++ tail) := congrArg (· ++ tail) hrest
    rw [step_of_char ((s.fence?_embed ht k).trans hfence) hrest']
    exact hp.result k tail ht

/-- **What a step gives is a piece**, and the token it is. -/
theorem step_piece {s s₁ : Scanner} {o : Option Token} (h : s.step.result = some (o, s₁)) :
    ∃ p, s.Takes p (fun k tail => (s.embed k tail).step) ∧ o = p.token? s ∧ s₁ = p.next s := by
  obtain ⟨p, hp⟩ := step_takes (s := s) (by rw [h]; nofun)
  have hhere := hp.result 0 [] seam_nil
  rw [embed_zero, h] at hhere
  obtain ⟨ho, hs⟩ := Prod.mk.inj (Option.some.inj hhere)
  exact ⟨p, hp, ho, hs⟩

/-- The end is found at the end of the text. -/
theorem step_eq_finish {s : Scanner} {t : Token} (h : s.step = .finish t) :
    s.rest = [] ∧ t = ⟨.eof, "", s.pos⟩ := by
  cases steps_iff.mpr h with
  | fence hfence hblock => nomatch hblock
  | finish hrest => exact ⟨hrest, rfl⟩
  | char hfence hrest hstart => nomatch hstart

/-! ## Traces -/

theorem result_of_skip {s next : Scanner} (h : s.step = .skip next) : s.step.result = some (none, next) := by
  rw [h]
  rfl

theorem result_of_token {s next : Scanner} {t : Token} (h : s.step = .token t next) :
    s.step.result = some (some t, next) := by
  rw [h]
  rfl

theorem step_of_result {s next : Scanner} {o : Option Token} (h : s.step.result = some (o, next)) :
    (o = none ∧ s.step = .skip next) ∨ ∃ t, o = some t ∧ s.step = .token t next := by
  cases hstep : s.step with
  | skip next' =>
    rw [hstep] at h
    obtain ⟨rfl, rfl⟩ := Prod.mk.inj (Option.some.inj h)
    exact .inl ⟨rfl, rfl⟩
  | token t next' =>
    rw [hstep] at h
    obtain ⟨rfl, rfl⟩ := Prod.mk.inj (Option.some.inj h)
    exact .inr ⟨t, rfl, rfl⟩
  | finish t | fail e =>
    rw [hstep] at h
    nomatch h

/-- **The trace of the lexer**: from one state to another, with the tokens on the way. -/
inductive Scans : Scanner → List Token → Scanner → Prop
  | refl {s : Scanner} : Scans s [] s
  | step {s s₁ s' : Scanner} {o : Option Token} {ts : List Token} (h : s.step.result = some (o, s₁))
    (hs : Scans s₁ ts s') : Scans s (o.toList ++ ts) s'

namespace Scans

variable {s s₁ s' : Scanner} {ts ts' : List Token}

theorem append (h : s.Scans ts s₁) (h' : s₁.Scans ts' s') : s.Scans (ts ++ ts') s' := by
  induction h with
  | refl => exact h'
  | step hstep _ ih =>
    rw [List.append_assoc]
    exact .step hstep (ih h')

theorem one {o : Option Token} (h : s.step.result = some (o, s₁)) : s.Scans o.toList s₁ := by
  have hone := Scans.step h .refl
  rwa [List.append_nil] at hone

/-- **A trace does not depend on what follows a seam**, nor on the line. -/
theorem embed (h : s.Scans ts s') (k : Nat) {tail : List Char} (ht : Seam tail) :
    (s.embed k tail).Scans (ts.map (Token.down k)) (s'.embed k tail) := by
  induction h with
  | refl => exact .refl
  | @step s s₁ s' o ts hstep _ ih =>
    obtain ⟨p, hp, rfl, rfl⟩ := step_piece hstep
    have hthere := hp.result k tail ht
    rw [Piece.next_embed hp.fits, Piece.token?_embed] at hthere
    have hmap : ((p.token? s).toList ++ ts).map (Token.down k) =
        ((p.token? s).map (Token.down k)).toList ++ ts.map (Token.down k) := by
      rw [List.map_append]
      cases p.token? s <;> rfl
    rw [hmap]
    exact .step hthere ih

/-- The text between the two states. -/
theorem chars (h : s.Scans ts s') : ∃ cs, s.rest = cs ++ s'.rest ∧ s'.pos = s.pos.advance cs := by
  induction h with
  | refl => exact ⟨[], rfl, rfl⟩
  | @step s s₁ s' o ts hstep _ ih =>
    obtain ⟨p, hp, -, rfl⟩ := step_piece hstep
    obtain ⟨cs, hrest, hpos⟩ := ih
    refine ⟨p.chars ++ cs, ?_, ?_⟩
    · obtain ⟨more, hmore⟩ := hp.fits.front
      have hnext : (p.next s).rest = more := by
        show s.rest.drop p.chars.length = more
        rw [← hmore, List.drop_left]
      rw [List.append_assoc, ← hrest, hnext, hmore]
    · rw [hpos, Position.advance_append]
      rfl

/-- Each token of a trace was yielded at some state of the trace. -/
theorem yielded (h : s.Scans ts s') {t : Token} (ht : t ∈ ts) :
    ∃ ts₁ s₁ next, s.Scans ts₁ s₁ ∧ s₁.step = .token t next := by
  induction h with
  | refl => nomatch ht
  | @step s s₁ s' o ts hstep _ ih =>
    rcases List.mem_append.mp ht with ht | ht
    · obtain rfl := Option.mem_toList.mp ht
      rcases step_of_result hstep with ⟨hnone, -⟩ | ⟨u, hsome, htoken⟩
      · nomatch hnone
      · obtain rfl := Option.some.inj hsome
        exact ⟨[], s, s₁, .refl, htoken⟩
    · obtain ⟨ts₁, s₂, next, hs, htoken⟩ := ih ht
      exact ⟨_, s₂, next, .step hstep hs, htoken⟩

theorem line_le (h : s.Scans ts s') : s.pos.line ≤ s'.pos.line := by
  obtain ⟨cs, -, hpos⟩ := h.chars
  rw [hpos, Position.line_advance]
  omega

/-- The tokens count the open brackets. -/
theorem depth_eq (h : s.Scans ts s') : s'.depth = ts.foldl (fun d t => t.kind.depthAfter d) s.depth := by
  induction h with
  | refl => rfl
  | @step s s₁ s' o ts hstep _ ih =>
    obtain ⟨p, -, rfl, rfl⟩ := step_piece hstep
    rw [ih, List.foldl_append]
    unfold Piece.token? Piece.next
    cases p.kind <;> rfl

/-- The last token says whether the lexer stands after a separator. -/
theorem afterSeparator_eq (h : s.Scans ts s') :
    s'.afterSeparator = (ts.getLast?.map fun t => t.kind.isNewline).getD s.afterSeparator := by
  induction h with
  | refl => rfl
  | @step s s₁ s' o ts hstep _ ih =>
    obtain ⟨p, -, rfl, rfl⟩ := step_piece hstep
    rw [ih, List.getLast?_append]
    unfold Piece.token? Piece.next
    cases ts.getLast? <;> cases p.kind <;> rfl

/-- The tokens of a trace are none that ends the input, and stand on the lines between the two states. -/
theorem token_bounds (h : s.Scans ts s') :
    ∀ t ∈ ts, t.kind ≠ .eof ∧ s.pos.line ≤ t.pos.line ∧ t.pos.line ≤ s'.pos.line := by
  induction h with
  | refl => nofun
  | @step s s₁ s' o ts hstep hs ih =>
    have hline := (Scans.one hstep).line_le
    have hline' := hs.line_le
    obtain ⟨p, hp, rfl, rfl⟩ := step_piece hstep
    intro t ht
    rcases List.mem_append.mp ht with ht | ht
    · obtain ⟨kind, hkind, rfl⟩ := Option.map_eq_some_iff.mp (Option.mem_toList.mp ht)
      exact ⟨fun heq => hp.fits.kind_ne (hkind.trans (congrArg some heq)), Nat.le_refl _, Nat.le_trans hline hline'⟩
    · obtain ⟨hne, hlow, hhigh⟩ := ih t ht
      exact ⟨hne, Nat.le_trans hline hlow, hhigh⟩

end Scans

/-! ## Runs -/

theorem run_skip {s next : Scanner} (h : s.step = .skip next) (fuel : Nat) : run (fuel + 1) s = run fuel next := by
  rw [run, h]

theorem run_token {s next : Scanner} {t : Token} (h : s.step = .token t next) (fuel : Nat) :
    run (fuel + 1) s = (t :: (run fuel next).1, (run fuel next).2) := by
  rw [run, h]

theorem run_finish {s : Scanner} {t : Token} (h : s.step = .finish t) (fuel : Nat) : run (fuel + 1) s = ([t], none) := by
  rw [run, h]

theorem run_fail {s : Scanner} {e : Error} (h : s.step = .fail e) (fuel : Nat) : run (fuel + 1) s = ([], some e) := by
  rw [run, h]

/-- **A step that succeeds**, to a token or past a filler, goes in front of the run after it. -/
theorem run_of_result {s next : Scanner} {o : Option Token} (h : s.step.result = some (o, next)) (fuel : Nat) :
    run (fuel + 1) s = (o.toList ++ (run fuel next).1, (run fuel next).2) := by
  rcases step_of_result h with ⟨rfl, hskip⟩ | ⟨t, rfl, htoken⟩
  · exact run_skip hskip fuel
  · exact run_token htoken fuel

/-- Every step that succeeds reads something. -/
theorem rest_length_lt {s s₁ : Scanner} {o : Option Token} (h : s.step.result = some (o, s₁)) :
    s₁.rest.length < s.rest.length := by
  obtain ⟨p, hp, -, rfl⟩ := step_piece h
  have hpos := List.length_pos_iff.mpr hp.fits.ne_nil
  have hle := hp.fits.front.length_le
  show (s.rest.drop _).length < _
  rw [List.length_drop]
  omega

/-- **A run goes on from where a trace ends**: its tokens are those of the trace and of the run from there. -/
theorem run_of_scans_append {s s' : Scanner} {ts : List Token} (h : s.Scans ts s') {fuel : Nat}
    (hfuel : s.rest.length < fuel) :
    ∃ fuel', s'.rest.length < fuel' ∧ run fuel s = (ts ++ (run fuel' s').1, (run fuel' s').2) := by
  induction h generalizing fuel with
  | refl => exact ⟨fuel, hfuel, rfl⟩
  | @step s s₁ s' o ts hstep _ ih =>
    have hshorter := rest_length_lt hstep
    obtain ⟨fuel, rfl⟩ : ∃ n, fuel = n + 1 := ⟨fuel - 1, by omega⟩
    obtain ⟨fuel', hfuel', hrun⟩ := ih (show s₁.rest.length < fuel by omega)
    refine ⟨fuel', hfuel', ?_⟩
    rw [run_of_result hstep, hrun, List.append_assoc]

/-- **How a run ends** that has gone through a trace with some tokens: at the end of the text, or at a step that
    fails. -/
inductive Ends (s : Scanner) (ts : List Token) : List Token × Option Error → Prop
  | finish (hrest : s.rest = []) : s.Ends ts (ts ++ [⟨.eof, "", s.pos⟩], none)
  | fail {e : Error} (hstep : s.step = .fail e) : s.Ends ts (ts, some e)

theorem Ends.cons {s : Scanner} {ts : List Token} {r : List Token × Option Error} (h : s.Ends ts r)
    (ts' : List Token) : s.Ends (ts' ++ ts) (ts' ++ r.1, r.2) := by
  cases h with
  | finish hrest =>
    rw [← List.append_assoc]
    exact .finish hrest
  | fail hstep => exact .fail hstep

/-- **A run is a trace and its end**: each step reads something, so the fuel does not run out before. -/
theorem exists_scans {fuel : Nat} {s : Scanner} (hfuel : s.rest.length < fuel) :
    ∃ ts s', s.Scans ts s' ∧ s'.Ends ts (run fuel s) := by
  induction fuel generalizing s with
  | zero => nomatch hfuel
  | succ fuel ih =>
    have hgo {o : Option Token} {next : Scanner} (h : s.step.result = some (o, next)) :
        ∃ ts s', s.Scans ts s' ∧ s'.Ends ts (run (fuel + 1) s) := by
      have hshorter := rest_length_lt h
      obtain ⟨ts, s', hs, hend⟩ := ih (show next.rest.length < fuel by omega)
      rw [run_of_result h]
      exact ⟨_, s', .step h hs, hend.cons _⟩
    cases hstep : s.step with
    | skip next => exact hgo (result_of_skip hstep)
    | token t next => exact hgo (result_of_token hstep)
    | finish t =>
      obtain ⟨hrest, rfl⟩ := step_eq_finish hstep
      rw [run_finish hstep]
      exact ⟨[], s, .refl, .finish hrest⟩
    | fail e =>
      rw [run_fail hstep]
      exact ⟨[], s, .refl, .fail hstep⟩

/-- **What a run gives** is known from a trace and its end. -/
theorem run_eq_iff {fuel : Nat} {s : Scanner} (hfuel : s.rest.length < fuel) {r : List Token × Option Error} :
    run fuel s = r ↔ ∃ ts s', s.Scans ts s' ∧ s'.Ends ts r := by
  constructor
  · rintro rfl
    exact exists_scans hfuel
  · rintro ⟨ts, s', hs, hend⟩
    obtain ⟨fuel', hfuel', hrun⟩ := run_of_scans_append hs hfuel
    obtain ⟨fuel', rfl⟩ : ∃ n, fuel' = n + 1 := ⟨fuel' - 1, by omega⟩
    cases hend with
    | finish hrest => rw [hrun, run_finish (step_of_rest_nil hrest)]
    | fail hstep => rw [hrun, run_fail hstep, List.append_nil]

end Scanner

/-! ## Texts -/

namespace Token

variable {source : String}

theorem scan_eq_iff {r : List Token × Option Error} :
    scan source = r ↔ ∃ ts s', (Scanner.start source.toList).Scans ts s' ∧ s'.Ends ts r :=
  Scanner.run_eq_iff (Nat.lt_succ_self _)

/-- **The tokens of a text are those of a trace to its end.** -/
theorem tokenize_eq_ok_iff {tokens : List Token} :
    tokenize source = .ok tokens ↔ ∃ ts s', (Scanner.start source.toList).Scans ts s' ∧ s'.rest = [] ∧
      tokens = ts ++ [⟨.eof, "", s'.pos⟩] := by
  have hscan : tokenize source = .ok tokens ↔ scan source = (tokens, none) := by
    unfold tokenize
    rcases scan source with ⟨ts, _ | e⟩ <;> simp
  rw [hscan, scan_eq_iff]
  constructor
  · rintro ⟨ts, s', hs, hend⟩
    cases hend with
    | finish hrest => exact ⟨ts, s', hs, hrest, rfl⟩
  · rintro ⟨ts, s', hs, hrest, rfl⟩
    exact ⟨ts, s', hs, .finish hrest⟩

/-- **A text has no tokens** when a trace comes to a step that fails. -/
theorem tokenize_eq_error_iff {e : Error} :
    tokenize source = .error e ↔ ∃ ts s', (Scanner.start source.toList).Scans ts s' ∧ s'.step = .fail e := by
  have hscan : tokenize source = .error e ↔ ∃ ts, scan source = (ts, some e) := by
    unfold tokenize
    rcases scan source with ⟨ts, _ | e'⟩ <;> simp
  rw [hscan]
  constructor
  · rintro ⟨ts, h⟩
    obtain ⟨ts', s', hs, hend⟩ := scan_eq_iff.mp h
    cases hend with
    | fail hstep => exact ⟨ts, s', hs, hstep⟩
  · rintro ⟨ts, s', hs, hstep⟩
    exact ⟨ts, scan_eq_iff.mpr ⟨ts, s', hs, .fail hstep⟩⟩

end Token

end Helios
