import Mathlib.Data.List.TakeWhile
import Helios.Token.Lexer

/-!
# Steps — what one step of the lexer can do

`Scanner.step` tries one thing after the other. Here every outcome of a step is a case of a relation, with the
conditions under which it comes about:

* what a character starts (`Scanner.Starts`): something to go past (`Ignores`), a token (`Lexeme`) or a failure
  (`Rejects`);
* what a fence starts (`Scanner.Fences`): a block up to its first closing line, or a failure;
* what a step does at all (`Scanner.Steps`): one of these two, or the end of the text.

The relations are the graphs of the functions, and of the lexer as a whole (`Scanner.steps_iff`). So what holds of
every step is shown by cases on them, and a step is known where the conditions of a case hold.
-/

namespace Helios

/-- How a token changes the number of open brackets. -/
def TokenKind.depthAfter (depth : Nat) : TokenKind → Nat
  | symbol s => s.depthAfter depth
  | _ => depth

namespace Text

/-- The first line is what comes before the first line break. -/
theorem splitLines_eq_cons {cs line : List Char} {rest : List (List Char)} (h : splitLines cs = line :: rest) :
    line = cs.takeWhile (· ≠ '\n') := by
  induction cs generalizing line rest with
  | nil =>
    obtain ⟨rfl, -⟩ := List.cons.inj h
    rfl
  | cons c cs ih =>
    obtain ⟨line', rest', hlines⟩ := List.exists_cons_of_ne_nil (splitLines_ne_nil cs)
    rw [splitLines, hlines] at h
    split at h
    · rename_i hc
      obtain ⟨rfl, -⟩ := List.cons.inj h
      simp [hc]
    · rename_i hc
      obtain ⟨rfl, -⟩ := List.cons.inj h
      simp [hc, ih hlines]

end Text

namespace Scanner

/-! ## Characters -/

theorem isWordChar_newline : isWordChar '\n' = false := by decide

theorem isDigit_newline : Decimal.isDigit '\n' = false := by decide

theorem isWordChar_of_start {c : Char} (h : isWordStart c = true) : isWordChar c = true := by
  unfold isWordChar
  rw [h]
  rfl

theorem isDigit_eq_false_of_start {c : Char} (h : isWordStart c = true) : Decimal.isDigit c = false := by
  unfold isWordStart at h
  unfold Decimal.isDigit
  simp only [Char.le_def, UInt32.le_iff_toNat_le, Bool.or_eq_true, Bool.and_eq_true, decide_eq_true_eq,
    beq_iff_eq, Char.reduceVal, UInt32.reduceToNat, Bool.and_eq_false_imp, decide_eq_false_iff_not] at h ⊢
  rcases h with (h | h) | rfl
  · omega
  · omega
  · decide

/-- The characters that start a blank, a comment, a separator or a string. -/
def marks : List Char := [' ', '\t', '\r', '#', '\n', ';', '"', '\'']

theorem not_mem_marks_iff {c : Char} : c ∉ marks ↔
    ¬ (c = ' ' ∨ c = '\t' ∨ c = '\r') ∧ ¬ c = '#' ∧ ¬ c = '\n' ∧ ¬ c = ';' ∧ ¬ (c = '"' ∨ c = '\'') := by
  simp only [marks, List.mem_cons, List.not_mem_nil, or_false, not_or, and_assoc]

/-- A class of characters without any mark. -/
theorem not_mem_marks_of {p : Char → Bool} (hp : marks.any p = false) {c : Char} (hc : p c = true) : c ∉ marks :=
  fun hmem => List.any_eq_false.mp hp c hmem hc

/-- A character that starts nothing but a symbol. -/
structure Other (c : Char) : Prop where
  mark : c ∉ marks
  digit : Decimal.isDigit c = false
  word : isWordStart c = false

/-- What starts a symbol starts nothing else. -/
theorem other_of_symbol? {c : Char} {next : Option Char} {r : Symbol × Bool} (h : symbol? c next = some r) :
    Other c := by
  unfold symbol? at h
  split at h
  all_goals first
    | exact ⟨by decide, by decide, by decide⟩
    | nomatch h

/-! ## What a character starts -/

/-- **What is gone past without a token**: its characters, and whether a line starts after it. -/
inductive Ignores (s : Scanner) (c : Char) : List Char → Bool → Prop
  | blank (hc : c = ' ' ∨ c = '\t' ∨ c = '\r') : s.Ignores c [c] false
  | comment (hc : c = '#') : s.Ignores c s.currentLine false
  | lineBreak (hc : c = '\n') (hseparated : ¬ (s.depth = 0 ∧ !s.afterSeparator)) : s.Ignores c [c] true
  | semicolon (hc : c = ';') (hseparated : s.afterSeparator = true) : s.Ignores c [c] false

/-- **What is a token**: its kind, its characters, and whether a line starts after it. -/
inductive Lexeme (s : Scanner) (c : Char) (cs : List Char) : TokenKind → List Char → Bool → Prop
  | lineBreak (hc : c = '\n') (hseparates : s.depth = 0 ∧ !s.afterSeparator) : s.Lexeme c cs .newline [c] true
  | semicolon (hc : c = ';') (hseparates : ¬ s.afterSeparator = true) : s.Lexeme c cs .newline [c] false
  | string {t : StringText} (hc : c = '"' ∨ c = '\'') (ht : stringText c cs = some t) :
      s.Lexeme c cs (.str (String.ofList t.value)) (c :: t.raw) false
  | number {kind : TokenKind} (hc : Decimal.isDigit c = true) (hkind : (numberText (c :: cs)).kind? = some kind) :
      s.Lexeme c cs kind (numberText (c :: cs)).chars false
  | word (hc : isWordStart c = true) :
      s.Lexeme c cs (wordKind (String.ofList ((c :: cs).takeWhile isWordChar))) ((c :: cs).takeWhile isWordChar) false
  | symbol {sym : Symbol} {two : Bool} (hsym : symbol? c cs.head? = some (sym, two)) :
      s.Lexeme c cs (.symbol sym) ((c :: cs).take (if two then 2 else 1)) false

/-- **What is neither**: what is wrong with it. -/
inductive Rejects (c : Char) (cs : List Char) : LexIssue → Prop
  | string (hc : c = '"' ∨ c = '\'') (ht : stringText c cs = none) : Rejects c cs .unterminatedString
  | number (hc : Decimal.isDigit c = true) (hkind : (numberText (c :: cs)).kind? = none) :
      Rejects c cs (.malformedNumber (String.ofList (numberText (c :: cs)).chars))
  | other (hc : Other c) (hsym : symbol? c cs.head? = none) : Rejects c cs (.unexpectedChar c)

/-- **What a step does that starts with a character.** -/
inductive Starts (s : Scanner) (c : Char) (cs : List Char) : Step → Prop
  | skip {chars : List Char} {line : Bool} (h : s.Ignores c chars line) :
      s.Starts c cs (.skip { s.skipOver chars with lineStart := line })
  | token {kind : TokenKind} {chars : List Char} {line : Bool} (h : s.Lexeme c cs kind chars line) :
      s.Starts c cs (.token ⟨kind, String.ofList chars, s.pos⟩
        { s.skipOver chars with
          depth := kind.depthAfter s.depth, lineStart := line, afterSeparator := kind.isNewline })
  | fail {issue : LexIssue} (h : Rejects c cs issue) : s.Starts c cs (.fail (.lex s.pos issue))

theorem wordKind_depthAfter (word : String) (d : Nat) : (wordKind word).depthAfter d = d := by
  unfold wordKind
  split
  · rfl
  · split <;> rfl

theorem NumberText.kind?_eq_some {n : NumberText} {kind : TokenKind} (h : n.kind? = some kind) :
    (∃ x, kind = .int x) ∨ ∃ x, kind = .float x := by
  cases n with
  | int cs =>
    obtain ⟨x, -, rfl⟩ := Option.map_eq_some_iff.mp h
    exact .inl ⟨x, rfl⟩
  | float cs =>
    obtain ⟨x, -, rfl⟩ := Option.map_eq_some_iff.mp h
    exact .inr ⟨x, rfl⟩
  | malformed cs => nomatch h

/-- A token that is no bracket leaves the number of open brackets. -/
theorem Lexeme.yieldToken {s : Scanner} {c : Char} {cs chars : List Char} {kind : TokenKind}
    (h : s.Lexeme c cs kind chars false) (hdepth : kind.depthAfter s.depth = s.depth) :
    s.Starts c cs (s.yieldToken kind chars) := by
  have htoken := Starts.token h
  rw [hdepth] at htoken
  exact htoken

/-- **Every step that starts with a character** is one of the cases. -/
theorem starts_stepChar (s : Scanner) (c : Char) (cs : List Char) : s.Starts c cs (s.stepChar c cs) := by
  unfold stepChar
  split
  · next hc => exact .skip (.blank hc)
  split
  · next hc => exact .skip (.comment hc)
  split
  · next hc =>
    split
    · next hsep => exact .token (.lineBreak hc hsep)
    · next hsep => exact .skip (.lineBreak hc hsep)
  split
  · next hc =>
    split
    · next hsep => exact .skip (.semicolon hc hsep)
    · next hsep => exact .token (.semicolon hc hsep)
  split
  · next hc =>
    split
    · next ht => exact .token (.string hc ht)
    · next ht => exact .fail (.string hc ht)
  split
  · next hc =>
    dsimp only
    split
    · next kind hkind =>
      refine (Lexeme.number hc hkind).yieldToken ?_
      rcases NumberText.kind?_eq_some hkind with ⟨x, rfl⟩ | ⟨x, rfl⟩ <;> rfl
    · next hkind => exact .fail (.number hc hkind)
  split
  · next hc => exact (Lexeme.word hc).yieldToken (wordKind_depthAfter _ _)
  split
  · next hsym => exact .token (.symbol hsym)
  · rename_i hblank hcomment hline hsemicolon hquote hdigit hword _ hsym
    have hmark := not_mem_marks_iff.mpr ⟨hblank, hcomment, hline, hsemicolon, hquote⟩
    exact .fail (.other ⟨hmark, by simpa using hdigit, by simpa using hword⟩ hsym)

/-! ### The graph

The other way round, a character that a case asks for is none that an earlier case asks for. -/

section Graph

variable {s : Scanner} {c : Char} {cs : List Char}

/-- The conditions of `stepChar` on marks, for a character that is none. -/
theorem ite_marks {α : Type} (hc : c ∉ marks) (blank comment line semicolon quote other : α) :
    (if c = ' ' ∨ c = '\t' ∨ c = '\r' then blank else if c = '#' then comment else if c = '\n' then line
      else if c = ';' then semicolon else if c = '"' ∨ c = '\'' then quote else other) = other := by
  obtain ⟨hblank, hcomment, hline, hsemicolon, hquote⟩ := not_mem_marks_iff.mp hc
  rw [if_neg hblank, if_neg hcomment, if_neg hline, if_neg hsemicolon, if_neg hquote]

theorem Ignores.stepChar_eq {chars : List Char} {line : Bool} (h : s.Ignores c chars line) :
    s.stepChar c cs = .skip { s.skipOver chars with lineStart := line } := by
  cases h with
  | blank hc =>
    unfold stepChar
    rw [if_pos hc]
    rfl
  | comment hc =>
    subst hc
    rfl
  | lineBreak hc hseparated =>
    subst hc
    unfold stepChar
    rw [if_neg (by decide), if_neg (by decide), if_pos rfl, if_neg hseparated]
  | semicolon hc hseparated =>
    subst hc
    unfold stepChar
    rw [if_neg (by decide), if_neg (by decide), if_neg (by decide), if_pos rfl, if_pos hseparated]
    rfl

theorem Lexeme.stepChar_eq {kind : TokenKind} {chars : List Char} {line : Bool} (h : s.Lexeme c cs kind chars line) :
    s.stepChar c cs = .token ⟨kind, String.ofList chars, s.pos⟩
      { s.skipOver chars with
        depth := kind.depthAfter s.depth, lineStart := line, afterSeparator := kind.isNewline } := by
  cases h with
  | lineBreak hc hseparates =>
    subst hc
    unfold stepChar
    rw [if_neg (by decide), if_neg (by decide), if_pos rfl, if_pos hseparates]
    rfl
  | semicolon hc hseparates =>
    subst hc
    unfold stepChar
    rw [if_neg (by decide), if_neg (by decide), if_neg (by decide), if_pos rfl, if_neg hseparates]
    rfl
  | string hc ht =>
    rcases hc with rfl | rfl
    all_goals
      unfold stepChar
      rw [if_neg (by decide), if_neg (by decide), if_neg (by decide), if_neg (by decide), if_pos (by decide), ht]
      rfl
  | number hc hkind =>
    unfold stepChar
    rw [ite_marks (not_mem_marks_of (by decide) hc), if_pos hc]
    dsimp only
    rw [hkind]
    rcases NumberText.kind?_eq_some hkind with ⟨x, rfl⟩ | ⟨x, rfl⟩ <;> rfl
  | word hc =>
    have hdigit : ¬ Decimal.isDigit c = true := by simp [isDigit_eq_false_of_start hc]
    unfold stepChar
    rw [ite_marks (not_mem_marks_of (by decide) hc), if_neg hdigit, if_pos hc, wordKind_depthAfter]
    rfl
  | symbol hsym =>
    obtain ⟨hmark, hdigit, hword⟩ := other_of_symbol? hsym
    unfold stepChar
    rw [ite_marks hmark, if_neg (by simp [hdigit]), if_neg (by simp [hword]), hsym]
    rfl

theorem Rejects.stepChar_eq {issue : LexIssue} (h : Rejects c cs issue) :
    s.stepChar c cs = .fail (.lex s.pos issue) := by
  cases h with
  | string hc ht =>
    rcases hc with rfl | rfl
    all_goals
      unfold stepChar
      rw [if_neg (by decide), if_neg (by decide), if_neg (by decide), if_neg (by decide), if_pos (by decide), ht]
  | number hc hkind =>
    unfold stepChar
    rw [ite_marks (not_mem_marks_of (by decide) hc), if_pos hc]
    dsimp only
    rw [hkind]
  | other hc hsym =>
    unfold stepChar
    rw [ite_marks hc.mark, if_neg (by simp [hc.digit]), if_neg (by simp [hc.word]), hsym]

theorem Starts.stepChar_eq {r : Step} (h : s.Starts c cs r) : s.stepChar c cs = r := by
  cases h with
  | skip h => exact h.stepChar_eq
  | token h => exact h.stepChar_eq
  | fail h => exact h.stepChar_eq

end Graph

/-! ## What a fence starts -/

/-- The place of an opener: past the blanks before it, which are counted in bytes. -/
def openerPos (s : Scanner) : Position :=
  ⟨s.pos.line, s.pos.column + Text.byteLength (s.currentLine.takeWhile Text.isBlank)⟩

/-- **A block lies ahead**: `body` are the lines between the current one and the first later one that closes it. -/
structure Spans (s : Scanner) (f : Fence) (body : List (List Char)) (last : List Char) (more : List (List Char)) :
    Prop where
  lines : Text.splitLines s.rest = s.currentLine :: (body ++ last :: more)
  inside : ∀ l ∈ body, f.closes l = false
  closing : f.closes last = true

/-- The text of a block, its opening and its closing line included. -/
def blockText (s : Scanner) (body : List (List Char)) (last : List Char) : List Char :=
  Text.joinLines (s.currentLine :: (body ++ [last]))

/-- **What a step does that starts with a fence.** -/
inductive Fences (s : Scanner) (f : Fence) : Step → Prop
  | unclosed (hopen : ∀ l ∈ (Text.splitLines s.rest).tail, f.closes l = false) :
      s.Fences f (.fail (.lex s.openerPos (.unclosedFence f.opener f.closer)))
  | torn {body more : List (List Char)} {last : List Char} (h : s.Spans f body last more)
      (hcut : Text.dedent body = none) : s.Fences f (.fail ⟨.broken, .unknown⟩)
  | block {body more : List (List Char)} {last code : List Char} (h : s.Spans f body last more)
      (hcut : Text.dedent body = some code) :
      s.Fences f (.token
        ⟨.passthrough f.language (String.ofList code), String.ofList (s.blockText body last), s.openerPos⟩
        { s.skipOver (s.blockText body last) with afterSeparator := false })

/-- The lines up to the first that closes a block, and those from it on. -/
theorem split_of_closes {f : Fence} {body : List (List Char)} {last : List Char}
    (hbody : ∀ l ∈ body, f.closes l = false) (hlast : f.closes last = true) (more : List (List Char)) :
    (body ++ last :: more).takeWhile (fun l => !f.closes l) = body ∧
    (body ++ last :: more).dropWhile (fun l => !f.closes l) = last :: more := by
  have hopen : ∀ l ∈ body, (!f.closes l) = true := fun l hl => by rw [hbody l hl]; rfl
  constructor
  · rw [List.takeWhile_append_of_pos hopen, List.takeWhile_cons, hlast]
    exact List.append_nil body
  · rw [List.dropWhile_append_of_pos hopen, List.dropWhile_cons, hlast]
    rfl

/-- The first line of the rest is the current one. -/
theorem splitLines_rest (s : Scanner) : ∃ later, Text.splitLines s.rest = s.currentLine :: later := by
  obtain ⟨first, later, hlines⟩ := List.exists_cons_of_ne_nil (Text.splitLines_ne_nil s.rest)
  exact ⟨later, by rw [hlines, Text.splitLines_eq_cons hlines]; rfl⟩

/-- **Every step that starts with a fence** is one of the cases. -/
theorem fences_fencedBlock (s : Scanner) (f : Fence) : s.Fences f (s.fencedBlock f) := by
  obtain ⟨later, hlines⟩ := s.splitLines_rest
  unfold fencedBlock
  rw [hlines]
  dsimp only
  split
  · next hclose =>
    refine .unclosed fun l hl => ?_
    rw [hlines] at hl
    simpa using List.dropWhile_eq_nil_iff.mp hclose l hl
  · next last more hclose =>
    have hspans : s.Spans f (later.takeWhile fun l => !f.closes l) last more := by
      refine ⟨?_, fun l hl => ?_, ?_⟩
      · rw [hlines, ← hclose, List.takeWhile_append_dropWhile]
      · simpa using List.mem_takeWhile_imp hl
      · have hlast := List.head?_dropWhile_not (fun l => !f.closes l) later
        rw [hclose] at hlast
        simpa using hlast
    split
    · next hcut => exact .torn hspans hcut
    · next code hcut => exact .block hspans hcut

theorem Fences.fencedBlock_eq {s : Scanner} {f : Fence} {r : Step} (h : s.Fences f r) : s.fencedBlock f = r := by
  cases h with
  | unclosed hopen =>
    obtain ⟨later, hlines⟩ := s.splitLines_rest
    have hclose : later.dropWhile (fun l => !f.closes l) = [] := by
      refine List.dropWhile_eq_nil_iff.mpr fun l hl => ?_
      rw [hopen l (by rw [hlines]; exact hl)]
      rfl
    unfold fencedBlock
    rw [hlines]
    dsimp only
    rw [hclose]
    rfl
  | torn h hcut =>
    obtain ⟨htake, hdrop⟩ := split_of_closes h.inside h.closing _
    unfold fencedBlock
    rw [h.lines]
    dsimp only
    rw [htake, hdrop]
    dsimp only
    rw [hcut]
  | block h hcut =>
    obtain ⟨htake, hdrop⟩ := split_of_closes h.inside h.closing _
    unfold fencedBlock
    rw [h.lines]
    dsimp only
    rw [htake, hdrop]
    dsimp only
    rw [hcut]
    rfl

/-! ## What a step does -/

/-- The fence that a step finds: one is looked for at the start of a line outside of brackets. -/
def fence? (s : Scanner) : Option Fence :=
  if s.lineStart ∧ s.depth = 0 then Fence.opening? s.currentLine else none

theorem fence?_eq_some_iff {s : Scanner} {f : Fence} :
    s.fence? = some f ↔ s.lineStart = true ∧ s.depth = 0 ∧ Fence.opening? s.currentLine = some f := by
  unfold fence?
  rw [Option.ite_none_right_eq_some, and_assoc]

theorem step_of_fence {s : Scanner} {f : Fence} (hfence : s.fence? = some f) : s.step = s.fencedBlock f := by
  unfold fence? at hfence
  unfold step
  rw [hfence]

theorem step_of_char {s : Scanner} {c : Char} {cs : List Char} (hfence : s.fence? = none) (hrest : s.rest = c :: cs) :
    s.step = s.stepChar c cs := by
  unfold fence? at hfence
  unfold step
  rw [hfence, hrest]

/-- At the end of the text there is no fence. -/
theorem step_of_rest_nil {s : Scanner} (h : s.rest = []) : s.step = .finish ⟨.eof, "", s.pos⟩ := by
  have hopening : Fence.opening? s.currentLine = none := by
    unfold currentLine
    rw [h]
    rfl
  unfold step
  rw [hopening, ite_self, h]

/-- **What a step does.** -/
inductive Steps (s : Scanner) : Step → Prop
  | fence {f : Fence} {r : Step} (hfence : s.fence? = some f) (h : s.Fences f r) : s.Steps r
  | finish (hrest : s.rest = []) : s.Steps (.finish ⟨.eof, "", s.pos⟩)
  | char {c : Char} {cs : List Char} {r : Step} (hfence : s.fence? = none) (hrest : s.rest = c :: cs)
      (h : s.Starts c cs r) : s.Steps r

/-- **Every step** is one of the cases. -/
theorem steps_step (s : Scanner) : s.Steps s.step := by
  cases hfence : s.fence? with
  | some f =>
    rw [step_of_fence hfence]
    exact .fence hfence (fences_fencedBlock s f)
  | none =>
    cases hrest : s.rest with
    | nil =>
      rw [step_of_rest_nil hrest]
      exact .finish hrest
    | cons c cs =>
      rw [step_of_char hfence hrest]
      exact .char hfence hrest (starts_stepChar s c cs)

/-- **The cases are the steps**: each is what the lexer does where its conditions hold. -/
theorem steps_iff {s : Scanner} {r : Step} : s.Steps r ↔ s.step = r := by
  constructor
  · intro h
    cases h with
    | fence hfence h => exact (step_of_fence hfence).trans h.fencedBlock_eq
    | finish hrest => exact step_of_rest_nil hrest
    | char hfence hrest h => exact (step_of_char hfence hrest).trans h.stepChar_eq
  · rintro rfl
    exact s.steps_step

end Scanner

end Helios
