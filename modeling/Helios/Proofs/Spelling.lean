import Helios.Proofs.Scanning
import Helios.Proofs.Grammar
import Helios.Proofs.Positional

/-!
# Spelling — the texts of tokens and how the lexer reads them back

`Scanner.Reads cs rest kind`: one step of the lexer reads the text `cs`, when `rest` comes after it, as a token of
that kind. What comes after matters: a word or a number goes on as long as it can, so it is read as a whole only
before something that breaks it off (`Scanner.Apart`, `Scanner.Breaks`). There is one lemma for each spelling: words,
whole numbers, numbers with a point, strings and symbols. `Scanner.Lexes` is about whole texts, which blanks and
tokens make up.
-/

namespace Helios

namespace Scanner

open Decimal (IsDigits)

/-! ## Reading a text -/

/-- **What breaks off a word**: the end, or no character of a word. -/
def Apart (rest : List Char) : Prop := ∀ c ∈ rest.head?, isWordChar c = false

/-- **What breaks off a word or a number**: the end, no character of a word, or a point only before a word. -/
inductive Breaks : List Char → Prop
  | nil : Breaks []
  | other {c : Char} {rest : List Char} (hne : c ≠ '.') (h : isWordChar c = false) : Breaks (c :: rest)
  | member {c : Char} {rest : List Char} (h : isWordStart c = true) : Breaks ('.' :: c :: rest)

/-- **The text `cs` before `rest` is read as one token of the given kind**, from anywhere but the start of a line; it
    stands on one line. Only the number of open brackets may be another one after it. -/
structure Reads (cs rest : List Char) (kind : TokenKind) : Prop where
  line : '\n' ∉ cs
  step : ∀ s : Scanner, s.lineStart = false → s.rest = cs ++ rest →
    ∃ depth, s.step = { s with depth }.yieldToken kind cs

/-- **The text `cs` before `rest` is read as tokens of the kinds `ks`**, from anywhere but the start of a line; it
    stands on one line. -/
structure Lexes (cs rest : List Char) (ks : List TokenKind) : Prop where
  line : '\n' ∉ cs
  scans : ∀ s : Scanner, s.lineStart = false → s.rest = cs ++ rest →
    ∃ ts s', s.Scans ts s' ∧ ts.map Token.kind = ks ∧ s'.lineStart = false ∧ s'.rest = rest

variable {c : Char} {cs ds rest : List Char} {ks ks' : List TokenKind} {kind : TokenKind}

namespace Lexes

theorem nil : Lexes [] rest [] where
  line := nofun
  scans s hline hrest := ⟨[], s, .refl, rfl, hline, hrest⟩

theorem append (h : Lexes cs (ds ++ rest) ks) (h' : Lexes ds rest ks') : Lexes (cs ++ ds) rest (ks ++ ks') where
  line hmem := (List.mem_append.mp hmem).elim h.line h'.line
  scans s hline hrest := by
    obtain ⟨ts, s₁, hs, hks, hline₁, hrest₁⟩ := h.scans s hline (by rw [hrest, List.append_assoc])
    obtain ⟨ts', s', hs', hks', hline', hrest'⟩ := h'.scans s₁ hline₁ hrest₁
    exact ⟨ts ++ ts', s', hs.append hs', by rw [List.map_append, hks, hks'], hline', hrest'⟩

end Lexes

theorem step_of_lineStart {s : Scanner} (hline : s.lineStart = false) (hrest : s.rest = c :: cs) :
    s.step = s.stepChar c cs := by
  refine step_of_char ?_ hrest
  unfold fence?
  rw [hline]
  rfl

/-- What is a token wherever it stands. -/
theorem reads_of_lexeme (hline : '\n' ∉ c :: cs)
    (h : ∀ s : Scanner, s.Lexeme c (cs ++ rest) kind (c :: cs) false) : Reads (c :: cs) rest kind where
  line := hline
  step s hstart hrest := by
    have hchar : s.step = s.stepChar c (cs ++ rest) := step_of_lineStart hstart hrest
    exact ⟨kind.depthAfter s.depth, hchar.trans (h s).stepChar_eq⟩

/-- What is read as one token is a text of one token. -/
theorem Reads.lexes (h : Reads cs rest kind) : Lexes cs rest [kind] where
  line := h.line
  scans s hstart hrest := by
    obtain ⟨depth, hstep⟩ := h.step s hstart hrest
    refine ⟨[⟨kind, String.ofList cs, s.pos⟩],
      { { s with depth }.skipOver cs with afterSeparator := kind.isNewline }, ?_, rfl, rfl, ?_⟩
    · refine Scans.one (o := some _) ?_
      rw [hstep]
      rfl
    · show s.rest.drop cs.length = rest
      rw [hrest, List.drop_left]

/-- A blank between tokens. -/
theorem lexes_blank : Lexes [' '] rest [] where
  line := by decide
  scans s hline hrest := by
    refine ⟨[], s.skipOver [' '], ?_, rfl, rfl, ?_⟩
    · refine Scans.one (o := none) ?_
      rw [step_of_lineStart hline hrest]
      rfl
    · show s.rest.drop 1 = rest
      rw [hrest]
      rfl

/-! ## Words -/

theorem Breaks.apart (h : Breaks rest) : Apart rest := by
  intro c hc
  cases h with
  | nil => nomatch hc
  | other _ h => exact Option.some.inj hc ▸ h
  | member =>
    obtain rfl := Option.some.inj hc
    decide

/-- A run of word characters ends where it is broken off. -/
theorem Apart.takeWhile_append {p : Char → Bool} (h : Apart rest) (hp : ∀ c, p c = true → isWordChar c = true)
    (hcs : ∀ c ∈ cs, p c = true) : (cs ++ rest).takeWhile p = cs ∧ (cs ++ rest).dropWhile p = rest := by
  have hrest : rest.takeWhile p = [] ∧ rest.dropWhile p = rest := by
    cases rest with
    | nil => exact ⟨rfl, rfl⟩
    | cons c rest =>
      have hc : ¬ p c = true := fun hpc => by
        have := hp c hpc
        rw [h c rfl] at this
        nomatch this
      exact ⟨List.takeWhile_cons_of_neg hc, List.dropWhile_cons_of_neg hc⟩
  rw [List.takeWhile_append_of_pos hcs, List.dropWhile_append_of_pos hcs, hrest.1, hrest.2, List.append_nil]
  exact ⟨rfl, rfl⟩

/-- A letter or underscore, then letters, digits and underscores. -/
def IsWord (w : List Char) : Prop := ∃ c cs, w = c :: cs ∧ isWordStart c = true ∧ ∀ d ∈ cs, isWordChar d = true

theorem IsWord.forall_mem {w : List Char} (hw : IsWord w) : ∀ d ∈ w, isWordChar d = true := by
  obtain ⟨c, cs, rfl, hc, hcs⟩ := hw
  exact List.forall_mem_cons.mpr ⟨isWordChar_of_start hc, hcs⟩

/-- Word characters stand on one line. -/
theorem newline_not_mem (h : ∀ d ∈ cs, isWordChar d = true) : '\n' ∉ cs := by
  intro hmem
  have hword := h '\n' hmem
  rw [isWordChar_newline] at hword
  nomatch hword

theorem reads_word {w : List Char} (hw : IsWord w) (h : Apart rest) : Reads w rest (wordKind (String.ofList w)) := by
  obtain ⟨htake, -⟩ := h.takeWhile_append (fun _ h => h) hw.forall_mem
  have hline := newline_not_mem hw.forall_mem
  obtain ⟨c, cs, rfl, hc, -⟩ := hw
  refine reads_of_lexeme hline fun s => ?_
  have hlexeme : s.Lexeme c (cs ++ rest) _ _ false := .word hc
  rwa [← List.cons_append, htake] at hlexeme

/-! ## Numbers -/

/-- Nothing goes on with a number where a word is broken off. -/
theorem Apart.close (h : Apart rest) (wrap : List Char → NumberText) (cs : List Char) :
    NumberText.close wrap cs rest = wrap cs := by
  have hrun : rest.takeWhile isWordChar = [] := by
    have hnil : ∀ c ∈ ([] : List Char), isWordChar c = true := nofun
    exact (h.takeWhile_append (fun _ h => h) hnil).1
  unfold NumberText.close
  rw [hrun]

theorem Breaks.afterWhole (h : Breaks rest) (cs : List Char) : NumberText.afterWhole cs rest = .int cs := by
  have hclose := h.apart.close .int cs
  cases h with
  | nil => exact hclose
  | other hne _ => rw [NumberText.afterWhole_of_ne hne, hclose]
  | member h =>
    -- the point is left for the member access, as no digit follows it
    rw [NumberText.afterWhole_point, isDigit_eq_false_of_start h, isWordChar_of_start h, hclose]
    rfl

/-- **What does not go on with a fraction**: no second point before a digit. -/
def PointFree (rest : List Char) : Prop := ∀ c more, rest = '.' :: c :: more → Decimal.isDigit c = false

theorem Breaks.pointFree (h : Breaks rest) : PointFree rest := by
  rintro c more rfl
  cases h with
  | other hne _ => exact absurd rfl hne
  | member h => exact isDigit_eq_false_of_start h

theorem Apart.afterFraction (h : Apart rest) (hpoint : PointFree rest) (cs : List Char) :
    NumberText.afterFraction cs rest = .float cs := by
  have hclose := h.close .float cs
  unfold NumberText.afterFraction
  split
  · rw [hpoint _ _ rfl, hclose]
    rfl
  · exact hclose

theorem isWordChar_of_digit (h : Decimal.isDigit c = true) : isWordChar c = true := by
  unfold isWordChar
  rw [h, Bool.or_true]

theorem numberText_int (hds : IsDigits ds) (h : Breaks rest) : numberText (ds ++ rest) = .int ds := by
  obtain ⟨htake, hdrop⟩ := h.apart.takeWhile_append (fun _ => isWordChar_of_digit) hds.2
  rw [numberText_eq, htake, hdrop, h.afterWhole]

theorem isDigit_eq_false_of_not_word (h : isWordChar c = false) : Decimal.isDigit c = false := by
  unfold isWordChar at h
  exact (Bool.or_eq_false_iff.mp h).2

/-- A number with a point is read up to where a word is broken off; after digits of a fraction there is no second
    point with a digit. -/
theorem numberText_float {fs : List Char} (hds : IsDigits ds) (hfs : ∀ c ∈ fs, Decimal.isDigit c = true)
    (h : Apart rest) (hpoint : fs ≠ [] → PointFree rest) :
    numberText (ds ++ '.' :: fs ++ rest) = .float (ds ++ '.' :: fs) := by
  have hwhole : ∀ tail, (ds ++ '.' :: tail).takeWhile Decimal.isDigit = ds ∧
      (ds ++ '.' :: tail).dropWhile Decimal.isDigit = '.' :: tail := by
    intro tail
    rw [List.takeWhile_append_of_pos hds.2, List.dropWhile_append_of_pos hds.2]
    exact ⟨List.append_nil ds, rfl⟩
  rw [numberText_eq, List.append_assoc, List.cons_append, (hwhole _).1, (hwhole _).2]
  cases fs with
  | nil =>
    rw [List.nil_append]
    cases rest with
    | nil => rfl
    | cons c rest =>
      have hc := h c rfl
      rw [NumberText.afterWhole_point, isDigit_eq_false_of_not_word hc, hc]
      rfl
  | cons f fs =>
    obtain ⟨htake, hdrop⟩ := h.takeWhile_append (fun _ => isWordChar_of_digit) hfs
    rw [List.cons_append, NumberText.afterWhole_point, if_pos (hfs f List.mem_cons_self), ← List.cons_append, htake,
      hdrop, h.afterFraction (hpoint nofun)]

/-- A number is read back if its text is. -/
theorem reads_number {n : NumberText} (hc : Decimal.isDigit c = true) (hline : '\n' ∉ c :: cs)
    (htext : numberText (c :: cs ++ rest) = n) (hchars : n.chars = c :: cs) (hkind : n.kind? = some kind) :
    Reads (c :: cs) rest kind := by
  refine reads_of_lexeme hline fun s => ?_
  rw [List.cons_append] at htext
  have hlexeme : s.Lexeme c (cs ++ rest) kind _ false := .number hc (by rw [htext, hkind])
  rwa [htext, hchars] at hlexeme

theorem newline_not_mem_digits (hds : ∀ c ∈ ds, Decimal.isDigit c = true) : '\n' ∉ ds :=
  newline_not_mem fun d hd => isWordChar_of_digit (hds d hd)

theorem reads_int (hds : IsDigits ds) (h : Breaks rest) {n : Int64} (hread : Decimal.readInt64 ds = some n) :
    Reads ds rest (.int n) := by
  have htext := numberText_int hds h
  have hline := newline_not_mem_digits hds.2
  obtain ⟨c, cs, rfl⟩ := List.exists_cons_of_ne_nil hds.1
  exact reads_number (hds.2 c List.mem_cons_self) hline htext rfl (congrArg (Option.map TokenKind.int) hread)

theorem reads_float {fs : List Char} (hds : IsDigits ds) (hfs : ∀ c ∈ fs, Decimal.isDigit c = true) (h : Apart rest)
    (hpoint : fs ≠ [] → PointFree rest) {x : Float} (hread : Decimal.readFloat (ds ++ '.' :: fs) = some x) :
    Reads (ds ++ '.' :: fs) rest (.float x) := by
  have htext := numberText_float hds hfs h hpoint
  have hline : '\n' ∉ ds ++ '.' :: fs := by
    have hwhole := newline_not_mem_digits hds.2
    have hfraction := newline_not_mem_digits hfs
    simp [hwhole, hfraction]
  obtain ⟨c, cs, rfl⟩ := List.exists_cons_of_ne_nil hds.1
  exact reads_number (hds.2 c List.mem_cons_self) hline htext rfl (congrArg (Option.map TokenKind.float) hread)

/-! ## Strings -/

/-- **A character that a string shows as it is or with one of the six short escapes.** -/
def IsPlain (c : Char) : Prop :=
  Text.escapeChar c = [c] ∨
    Text.escapeChar c ∈ [['\\', 'n'], ['\\', 't'], ['\\', 'r'], ['\\', '0'], ['\\', '\\'], ['\\', '"']]

/-- Such a character is read back. -/
theorem IsPlain.cases (h : IsPlain c) :
    (Text.escapeChar c = [c] ∧ c ≠ '\\' ∧ c ≠ '"' ∧ c ≠ '\n') ∨
      ∃ d, Text.escapeChar c = ['\\', d] ∧ d ≠ '\n' ∧ unescape d = c := by
  unfold IsPlain at h
  unfold Text.escapeChar at h ⊢
  split at h
  · exact .inr ⟨'n', rfl, by decide, rfl⟩
  · exact .inr ⟨'t', rfl, by decide, rfl⟩
  · exact .inr ⟨'r', rfl, by decide, rfl⟩
  · exact .inr ⟨'0', rfl, by decide, rfl⟩
  · exact .inr ⟨'\\', rfl, by decide, rfl⟩
  · exact .inr ⟨'"', rfl, by decide, rfl⟩
  · rename_i hline _ _ _ hslash hquote
    split at h
    · rename_i hprint
      rw [if_pos hprint]
      exact .inl ⟨rfl, hslash, hquote, hline⟩
    · simp at h

instance : DecidablePred IsPlain := fun _ => inferInstanceAs (Decidable (_ ∨ _))

/-- Every other character is written with its number. -/
theorem escapeChar_of_not_plain (h : ¬ IsPlain c) :
    Text.escapeChar c = '\\' :: 'u' :: '{' :: (Text.hex c.toNat ++ ['}']) := by
  unfold IsPlain at h
  unfold Text.escapeChar at h ⊢
  split at h
  iterate 6 exact absurd (.inr (by decide)) h
  · rename_i hline htab hreturn hnull hslash hquote
    split at h
    · exact absurd (.inl rfl) h
    · rename_i hprint
      rw [if_neg hprint]
      rfl

/-- **What the written form of a character denotes.** The lexer knows no escape with a number: after the backslash,
    each character of such an escape stands for itself. -/
def rereadChar (c : Char) : List Char :=
  if IsPlain c then [c] else 'u' :: '{' :: (Text.hex c.toNat ++ ['}'])

/-- **What the written form of a string denotes.** -/
def reread (t : String) : String := String.ofList (t.toList.flatMap rereadChar)

theorem flatMap_rereadChar_of_plain (hcs : ∀ c ∈ cs, IsPlain c) : cs.flatMap rereadChar = cs :=
  (List.flatMap_congr fun c hc => if_pos (hcs c hc)).trans (List.flatMap_singleton' cs)

theorem length_le_flatMap_rereadChar (cs : List Char) : cs.length ≤ (cs.flatMap rereadChar).length := by
  induction cs with
  | nil => exact Nat.le_refl 0
  | cons c cs ih =>
    have hpos : 1 ≤ (rereadChar c).length := by
      unfold rereadChar
      split <;> simp
    rw [List.flatMap_cons, List.length_append, List.length_cons]
    omega

/-- A string is denoted by its written form only if no character in it is written with its number, as such an
    escape denotes more than one. -/
theorem flatMap_rereadChar_eq_iff : cs.flatMap rereadChar = cs ↔ ∀ c ∈ cs, IsPlain c := by
  refine ⟨fun h => ?_, flatMap_rereadChar_of_plain⟩
  induction cs with
  | nil => nofun
  | cons c cs ih =>
    rw [List.flatMap_cons] at h
    have hc : IsPlain c := by
      refine Decidable.of_not_not fun hc => ?_
      have hlength := congrArg List.length h
      have hrest := length_le_flatMap_rereadChar cs
      rw [rereadChar, if_neg hc] at hlength
      simp only [List.length_cons, List.length_append] at hlength
      omega
    rw [rereadChar, if_pos hc] at h
    exact List.forall_mem_cons.mpr ⟨hc, ih (List.cons.inj h).2⟩

theorem reread_eq_iff {t : String} : reread t = t ↔ ∀ c ∈ t.toList, IsPlain c := by
  rw [← flatMap_rereadChar_eq_iff, ← String.toList_inj, reread, String.toList_ofList]

/-- **What stands between the quotes of a string**, and the characters that it denotes. -/
inductive Quoted (quote : Char) : List Char → List Char → Prop
  | nil : Quoted quote [] []
  | plain {c : Char} {text value : List Char} (hslash : c ≠ '\\') (hquote : c ≠ quote) (hline : c ≠ '\n')
    (h : Quoted quote text value) : Quoted quote (c :: text) (c :: value)
  | escaped {c : Char} {text value : List Char} (hline : c ≠ '\n') (h : Quoted quote text value) :
    Quoted quote ('\\' :: c :: text) (unescape c :: value)

namespace Quoted

variable {quote : Char} {text text' value value' : List Char}

theorem append (h : Quoted quote text value) (h' : Quoted quote text' value') :
    Quoted quote (text ++ text') (value ++ value') := by
  induction h with
  | nil => exact h'
  | plain hslash hquote hline _ ih => exact .plain hslash hquote hline ih
  | escaped hline _ ih => exact .escaped hline ih

/-- Characters that are shown as they are. -/
theorem self (h : ∀ c ∈ text, c ≠ '\\' ∧ c ≠ quote ∧ c ≠ '\n') : Quoted quote text text := by
  induction text with
  | nil => exact .nil
  | cons c text ih =>
    obtain ⟨⟨hslash, hquote, hline⟩, h⟩ := List.forall_mem_cons.mp h
    exact .plain hslash hquote hline (ih h)

theorem newline_not_mem (h : Quoted quote text value) : '\n' ∉ text := by
  induction h with
  | nil => nofun
  | plain _ _ hline _ ih => exact List.not_mem_cons_of_ne_of_not_mem hline.symm ih
  | escaped hline _ ih =>
    exact List.not_mem_cons_of_ne_of_not_mem (by decide) (List.not_mem_cons_of_ne_of_not_mem hline.symm ih)

/-- It is read up to the closing quote, whatever follows. -/
theorem stringText (h : Quoted quote text value) (hslash : quote ≠ '\\') (hline : quote ≠ '\n') (rest : List Char) :
    stringText quote (text ++ quote :: rest) = some ⟨value, text ++ [quote]⟩ := by
  induction h with
  | nil => rw [List.nil_append, stringText_of_ne hslash, if_neg hline, if_pos rfl, List.nil_append]
  | plain hc hquote hline _ ih =>
    rw [List.cons_append, stringText_of_ne hc, if_neg hline, if_neg hquote, ih]
    rfl
  | escaped hline _ ih =>
    rw [List.cons_append, List.cons_append, Scanner.stringText, if_neg hline, ih]
    rfl

end Quoted

/-- **A string in quotes of either sort.** -/
theorem reads_string {quote : Char} {text value : List Char} (hquote : quote = '"' ∨ quote = '\'')
    (h : Quoted quote text value) (rest : List Char) :
    Reads (quote :: (text ++ [quote])) rest (.str (String.ofList value)) := by
  have hplain : quote ≠ '\\' ∧ quote ≠ '\n' := by rcases hquote with rfl | rfl <;> decide
  have hchars : '\n' ∉ quote :: (text ++ [quote]) := by
    have htext := h.newline_not_mem
    simp [htext, hplain.2.symm]
  refine reads_of_lexeme hchars fun s => ?_
  rw [List.append_assoc, List.singleton_append]
  exact .string hquote (h.stringText hplain.1 hplain.2 rest)

theorem plain_hex (n : Nat) : ∀ c ∈ Text.hex n, c ≠ '\\' ∧ c ≠ '"' ∧ c ≠ '\n' := by
  have hdigit : ∀ d < 16, d.digitChar ≠ '\\' ∧ d.digitChar ≠ '"' ∧ d.digitChar ≠ '\n' := by decide
  induction n using Nat.strongRecOn with
  | ind n ih =>
    unfold Text.hex
    rw [Nat.toDigits_eq_if (by decide)]
    split
    · rename_i hlt
      exact List.forall_mem_singleton.mpr (hdigit n hlt)
    · have hlast := hdigit (n % 16) (Nat.mod_lt n (by decide))
      exact List.forall_mem_append.mpr ⟨ih (n / 16) (by omega), List.forall_mem_singleton.mpr hlast⟩

/-- The written form of one character. -/
theorem quoted_escapeChar (c : Char) : Quoted '"' (Text.escapeChar c) (rereadChar c) := by
  unfold rereadChar
  by_cases hc : IsPlain c
  · rw [if_pos hc]
    -- a character stands for itself, or a backslash and another one stand for it
    rcases hc.cases with ⟨heq, hslash, hquote, hline⟩ | ⟨d, heq, hline, hd⟩
    · rw [heq]
      exact .plain hslash hquote hline .nil
    · rw [heq, ← hd]
      exact .escaped hline .nil
  · rw [if_neg hc, escapeChar_of_not_plain hc]
    have hclose : Quoted '"' ['}'] ['}'] := .plain (by decide) (by decide) (by decide) .nil
    have hnumber := (Quoted.self (plain_hex c.toNat)).append hclose
    exact .escaped (by decide) (.plain (by decide) (by decide) (by decide) hnumber)

theorem quoted_escape (cs : List Char) : Quoted '"' (Text.escape cs) (cs.flatMap rereadChar) := by
  induction cs with
  | nil => exact .nil
  | cons c cs ih =>
    have hescape : Text.escape (c :: cs) = Text.escapeChar c ++ Text.escape cs := List.flatMap_cons
    rw [hescape, List.flatMap_cons]
    exact (quoted_escapeChar c).append ih

/-- **A written string is read as one token**, the string itself if its characters are. -/
theorem reads_quote (t : String) (rest : List Char) : Reads (Text.quote t).toList rest (.str (reread t)) := by
  have htext : (Text.quote t).toList = '"' :: (Text.escape t.toList ++ ['"']) := by
    unfold Text.quote
    simp
  rw [htext]
  exact reads_string (.inl rfl) (quoted_escape t.toList) rest

/-! ## Symbols -/

/-- What does not go on with a symbol of one character that may take an `=`. -/
def Closed (s : Symbol) (rest : List Char) : Prop := s ∈ [Symbol.assign, .lt, .gt] → rest.head? ≠ some '='

/-- A symbol as the table has it, with its second character or without. -/
theorem reads_of_symbol? {sym : Symbol} {two : Bool} (hsym : symbol? c (cs ++ rest).head? = some (sym, two))
    (htwo : (c :: cs ++ rest).take (if two then 2 else 1) = c :: cs) (hline : '\n' ∉ c :: cs) :
    Reads (c :: cs) rest (.symbol sym) := by
  refine reads_of_lexeme hline fun s => ?_
  have hlexeme : s.Lexeme c (cs ++ rest) _ _ false := .symbol hsym
  rwa [← List.cons_append, htwo] at hlexeme

/-- **A symbol**, unless it goes on. -/
theorem reads_symbol (s : Symbol) (h : Closed s rest) : Reads s.text.toList rest (.symbol s) := by
  cases s with
  | assign | lt | gt => exact @reads_of_symbol? _ [] _ _ _ (if_neg (h (by decide))) rfl (by decide)
  | eqEq | ne | le | ge => exact @reads_of_symbol? _ ['='] _ _ _ rfl rfl (by decide)
  | _ => exact @reads_of_symbol? _ [] _ _ _ rfl rfl (by decide)

/-- A symbol that never goes on. -/
theorem lexes_mark (s : Symbol) (hs : s ∉ [Symbol.assign, .lt, .gt]) (rest : List Char) :
    Lexes s.text.toList rest [.symbol s] := (reads_symbol s fun h => absurd h hs).lexes

theorem isWord_keyword (k : Keyword) : IsWord k.text.toList := by
  cases k <;> exact ⟨_, _, rfl, by decide, List.all_eq_true.mp (by decide)⟩

theorem wordKind_keyword (k : Keyword) : wordKind k.text = .keyword k := by
  cases k <;> rfl

theorem reads_keyword (k : Keyword) (h : Apart rest) : Reads k.text.toList rest (.keyword k) := by
  have hword := reads_word (isWord_keyword k) h
  rwa [String.ofList_toList, wordKind_keyword] at hword

/-- **An operator between blanks.** -/
theorem reads_operator (op : BinOp) : Reads op.text.toList (' ' :: rest) op.token := by
  have hblank : Apart (' ' :: rest) := fun c hc => Option.some.inj hc ▸ rfl
  have hclosed (s : Symbol) : Closed s (' ' :: rest) := fun _ heq => nomatch heq
  cases op with
  | and => exact reads_keyword .and hblank
  | or => exact reads_keyword .or hblank
  | add => exact reads_symbol .plus (hclosed _)
  | sub => exact reads_symbol .minus (hclosed _)
  | mul => exact reads_symbol .star (hclosed _)
  | div => exact reads_symbol .slash (hclosed _)
  | rem => exact reads_symbol .percent (hclosed _)
  | eq => exact reads_symbol .eqEq (hclosed _)
  | ne => exact reads_symbol .ne (hclosed _)
  | lt => exact reads_symbol .lt (hclosed _)
  | le => exact reads_symbol .le (hclosed _)
  | gt => exact reads_symbol .gt (hclosed _)
  | ge => exact reads_symbol .ge (hclosed _)

/-! ## The start of a text -/

/-- A text whose last character is neither a blank nor a colon, as that of a fence is. -/
def Solid (cs : List Char) : Prop := ∃ front c, cs = front ++ [c] ∧ Text.isBlank c = false ∧ c ≠ ':'

theorem Solid.append (h : Solid ds) (cs : List Char) : Solid (cs ++ ds) := by
  obtain ⟨front, c, rfl, hc⟩ := h
  exact ⟨cs ++ front, c, (List.append_assoc cs front [c]).symm, hc⟩

theorem isBlank_eq_false_of_word (h : isWordChar c = true) : Text.isBlank c = false := by
  have hnat : c.toNat = c.val.toNat := rfl
  unfold isWordChar isWordStart Decimal.isDigit at h
  simp only [Char.le_def, UInt32.le_iff_toNat_le, Bool.or_eq_true, Bool.and_eq_true, decide_eq_true_eq,
    beq_iff_eq, Char.reduceVal, UInt32.reduceToNat] at h
  rcases h with (h | rfl) | h
  · unfold Text.isBlank
    simp only [Bool.or_eq_false_iff, Bool.and_eq_false_imp, decide_eq_true_eq, decide_eq_false_iff_not,
      beq_eq_false_iff_ne]
    omega
  · decide
  · unfold Text.isBlank
    simp only [Bool.or_eq_false_iff, Bool.and_eq_false_imp, decide_eq_true_eq, decide_eq_false_iff_not,
      beq_eq_false_iff_ne]
    omega

theorem solid_word (hne : cs ≠ []) (h : ∀ d ∈ cs, isWordChar d = true) : Solid cs := by
  refine ⟨cs.dropLast, cs.getLast hne, (List.dropLast_concat_getLast hne).symm, ?_, ?_⟩
  · exact isBlank_eq_false_of_word (h _ (List.getLast_mem hne))
  · intro heq
    have hword := h _ (List.getLast_mem hne)
    rw [heq] at hword
    nomatch hword

/-- Trimming keeps a last character that is not blank. -/
theorem trim_getLast (hc : Text.isBlank c = false) (cs : List Char) :
    (Text.trim (cs ++ [c])).getLast? = some c := by
  have hstart : ∃ ds, Text.trimStart (cs ++ [c]) = ds ++ [c] := by
    unfold Text.trimStart
    rw [List.dropWhile_append]
    split
    · exact ⟨[], by simp [hc]⟩
    · exact ⟨_, rfl⟩
  obtain ⟨ds, hds⟩ := hstart
  unfold Text.trim Text.trimEnd
  rw [hds, List.reverse_append]
  simp [hc]

/-- No fence opens on a line that ends otherwise. -/
theorem Solid.opening?_eq_none (h : Solid cs) : Fence.opening? cs = none := by
  obtain ⟨front, c, rfl, hblank, hcolon⟩ := h
  have hopener : ∀ f ∈ Fence.all, f.opener.toList.getLast? = some ':' := by decide
  unfold Fence.opening?
  rw [List.find?_eq_none]
  intro f hf heq
  have hlast := congrArg List.getLast? (eq_of_beq heq)
  rw [hopener f hf, trim_getLast hblank] at hlast
  exact hcolon (Option.some.inj hlast).symm

/-- **A line on which no fence opens is read from its start** as it is from the inside. -/
theorem Scans.of_inside {ts : List Token} {s' : Scanner} (hline : '\n' ∉ cs) (hfence : Fence.opening? cs = none)
    (h : ({ start cs with lineStart := false } : Scanner).Scans ts s') (hrest : s'.rest = []) :
    ∃ s'', (start cs).Scans ts s'' ∧ s''.rest = [] := by
  cases cs with
  | nil =>
    cases h with
    | refl => exact ⟨_, .refl, rfl⟩
    | step hstep =>
      rw [step_of_rest_nil rfl] at hstep
      nomatch hstep
  | cons d ds =>
    have hcurrent : (Scanner.start (d :: ds)).currentLine = d :: ds := by
      have hall : ∀ c ∈ d :: ds, decide (c ≠ '\n') = true := fun c hc => decide_eq_true fun heq => hline (heq ▸ hc)
      have htake : (d :: ds ++ []).takeWhile (· ≠ '\n') = d :: ds ++ [].takeWhile (· ≠ '\n') :=
        List.takeWhile_append_of_pos hall
      rwa [List.takeWhile_nil, List.append_nil] at htake
    -- the first step is the same as inside of the line, as it finds no fence
    let inside : Scanner := { Scanner.start (d :: ds) with lineStart := false }
    have hfirst : (Scanner.start (d :: ds)).step = inside.step := by
      have hclosed : (Scanner.start (d :: ds)).fence? = none := by
        unfold fence?
        rw [hcurrent, hfence, ite_self]
      have hchar : inside.step = inside.stepChar d ds := step_of_lineStart rfl rfl
      rw [hchar, step_of_char hclosed rfl]
      rfl
    refine ⟨s', ?_, hrest⟩
    cases h with
    | refl => nomatch hrest
    | step hstep hs => exact .step (hfirst ▸ hstep) hs

/-- **A text on one line is read from its start**, when it does not end like a fence. -/
theorem Lexes.start (h : Lexes cs [] ks) (hsolid : Solid cs) :
    ∃ ts s', (start cs).Scans ts s' ∧ ts.map Token.kind = ks ∧ s'.rest = [] := by
  obtain ⟨ts, s', hs, hks, -, hrest⟩ :=
    h.scans { Scanner.start cs with lineStart := false } rfl (List.append_nil _).symm
  obtain ⟨s'', hs, hrest⟩ := hs.of_inside h.line hsolid.opening?_eq_none hrest
  exact ⟨ts, s'', hs, hks, hrest⟩

/-! ## Tokens that the lexer yields -/

/-- **What is known of every token**: a name is a word and no keyword, and numbers have no sign. -/
def Lexical : TokenKind → Prop
  | .ident name => IsWord name.toList ∧ wordKind name = .ident name
  | .int n => 0 ≤ n.toInt
  | .float x => Decimal.Unsigned x
  | _ => True

theorem wordKind_cases (word : String) :
    wordKind word = .end_ ∨ (∃ k, wordKind word = .keyword k) ∨ wordKind word = .ident word := by
  unfold wordKind
  split
  · exact .inl rfl
  · split
    · exact .inr (.inl ⟨_, rfl⟩)
    · exact .inr (.inr rfl)

theorem lexical_word {w : List Char} (hw : IsWord w) : Lexical (wordKind (String.ofList w)) := by
  rcases wordKind_cases (String.ofList w) with h | ⟨k, h⟩ | h
  · rw [h]
    trivial
  · rw [h]
    trivial
  · rw [h]
    exact ⟨by rwa [String.toList_ofList], h⟩

theorem lexical_number (hc : Decimal.isDigit c = true) (h : (numberText (c :: cs)).kind? = some kind) :
    Lexical kind := by
  have hwhole : IsDigits ((c :: cs).takeWhile Decimal.isDigit) := by
    refine ⟨?_, fun d hd => ?_⟩
    · rw [List.takeWhile_cons_of_pos hc]
      nofun
    · exact List.all_eq_true.mp List.all_takeWhile d hd
  rw [numberText_eq] at h
  obtain ⟨more, hchars, -⟩ := afterWhole_chars h
  have hsign := Decimal.splitSign_digits hwhole more
  rw [← hchars] at hsign
  generalize NumberText.afterWhole _ _ = n at h hsign
  cases n with
  | int text =>
    obtain ⟨x, hread, rfl⟩ := Option.map_eq_some_iff.mp h
    exact Decimal.readInt64_nonneg hsign hread
  | float text =>
    obtain ⟨x, hread, rfl⟩ := Option.map_eq_some_iff.mp h
    exact Decimal.readFloat_unsigned hsign hread
  | malformed text => nomatch h

theorem Lexeme.lexical {s : Scanner} {chars : List Char} {line : Bool} (h : s.Lexeme c cs kind chars line) :
    Lexical kind := by
  cases h with
  | lineBreak | semicolon | string | symbol => trivial
  | number hc hkind => exact lexical_number hc hkind
  | word hc =>
    refine lexical_word ⟨c, cs.takeWhile isWordChar, ?_, hc, ?_⟩
    · rw [List.takeWhile_cons_of_pos (isWordChar_of_start hc)]
    · exact List.all_eq_true.mp List.all_takeWhile

theorem lexical_step {s s₁ : Scanner} {t : Token} (h : s.step = .token t s₁) : Lexical t.kind := by
  cases steps_iff.mpr h with
  | fence hfence hblock =>
    cases hblock
    trivial
  | char hfence hrest hstart =>
    cases hstart with
    | token hlexeme => exact hlexeme.lexical

/-- **Every token of a trace is one the lexer can yield.** -/
theorem Scans.lexical {s s' : Scanner} {ts : List Token} (h : s.Scans ts s') : ∀ t ∈ ts, Lexical t.kind := by
  intro t ht
  obtain ⟨ts₁, s₁, next, -, hstep⟩ := h.yielded ht
  exact lexical_step hstep

end Scanner

end Helios
