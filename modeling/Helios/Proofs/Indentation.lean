import Helios.Proofs.LineEnds
import Helios.Proofs.Positions

/-!
# Indentation — where a fenced block is cut

A fenced block loses the bytes of indentation that its lines share. Lines of blanks only do not count for what is
shared, but they are cut as well. On the others the cut comes right after spaces and tabs, so it never tears a character
(`Text.dedentLine_of_indented`). A line of blanks has no such promise: a blank may be a character of several bytes, and
the cut may come inside it (`Text.Straddles`). `Text.dedent_eq_none_iff` says that nothing else goes wrong.

For the lexer this is the only way to break off. It does so exactly on the texts in which it comes to a closed block
with such a line (`Scanner.Tears`, `Token.tokenize_eq_broken_iff`).
-/

namespace Helios

/-! ## Cuts -/

namespace Text

variable {n : Nat} {c : Char} {cs rest line : List Char} {lines : List (List Char)}

/-- **A character reaches across** the byte `n` of a text. -/
def Straddles (n : Nat) (cs : List Char) : Prop :=
  ∃ before c after, cs = before ++ c :: after ∧ byteLength before < n ∧ n < byteLength before + c.utf8Size

@[simp] theorem byteLength_nil : byteLength [] = 0 := rfl

@[simp] theorem byteLength_cons (c : Char) (cs : List Char) : byteLength (c :: cs) = c.utf8Size + byteLength cs := rfl

theorem byteLength_append (cs ds : List Char) : byteLength (cs ++ ds) = byteLength cs + byteLength ds := by
  induction cs with
  | nil => simp
  | cons c cs ih => simp [ih, Nat.add_assoc]

theorem length_le_byteLength (cs : List Char) : cs.length ≤ byteLength cs := by
  induction cs with
  | nil => exact Nat.le_refl 0
  | cons c cs ih =>
    have hpos := c.utf8Size_pos
    rw [List.length_cons, byteLength_cons]
    omega

theorem Straddles.lt_byteLength (h : Straddles n cs) : n < byteLength cs := by
  obtain ⟨before, c, after, rfl, -, hacross⟩ := h
  simp only [byteLength_append, byteLength_cons]
  omega

/-- A cut after a character. -/
theorem dropBytes_cons (c : Char) (cs : List Char) (n : Nat) :
    dropBytes (c.utf8Size + n) (c :: cs) = dropBytes n cs := by
  obtain ⟨k, hk⟩ : ∃ k, c.utf8Size + n = k + 1 := Nat.exists_eq_add_one.mpr (Nat.add_pos_left c.utf8Size_pos n)
  have hfits : c.utf8Size ≤ k + 1 := hk ▸ Nat.le_add_right _ _
  rw [hk, dropBytes, if_pos hfits, ← hk, Nat.add_sub_cancel_left]

/-- The characters before a cut are those that take up the bytes before it. -/
theorem dropBytes_eq_some_iff :
    dropBytes n cs = some rest ↔ ∃ before, cs = before ++ rest ∧ byteLength before = n := by
  constructor
  · intro h
    fun_induction dropBytes n cs with
    | case1 cs => exact ⟨[], Option.some.inj h, rfl⟩
    | case2 => nomatch h
    | case3 n c cs hfits ih =>
      obtain ⟨before, rfl, hlen⟩ := ih h
      refine ⟨c :: before, rfl, ?_⟩
      rw [byteLength_cons, hlen]
      omega
    | case4 => nomatch h
  · rintro ⟨before, rfl, rfl⟩
    induction before with
    | nil => rw [List.nil_append, byteLength_nil, dropBytes]
    | cons c before ih => rw [List.cons_append, byteLength_cons, dropBytes_cons, ih]

/-- **A cut fails** past the end of a text, and inside a character. -/
theorem dropBytes_eq_none_iff : dropBytes n cs = none ↔ byteLength cs < n ∨ Straddles n cs := by
  induction cs generalizing n with
  | nil =>
    cases n with
    | zero =>
      refine iff_of_false nofun ?_
      rintro (h | h)
      · nomatch h
      · exact absurd h.lt_byteLength (Nat.lt_irrefl 0)
    | succ n => exact iff_of_true rfl (.inl (Nat.succ_pos n))
  | cons c cs ih =>
    cases n with
    | zero =>
      refine iff_of_false nofun ?_
      rintro (h | ⟨before, d, after, -, h, -⟩)
      · exact Nat.not_lt_zero _ h
      · exact Nat.not_lt_zero _ h
    | succ n =>
      rw [dropBytes]
      by_cases hfits : c.utf8Size ≤ n + 1
      · rw [if_pos hfits, ih, byteLength_cons]
        refine or_congr (by omega) ?_
        constructor
        · rintro ⟨before, d, after, rfl, hbefore, hacross⟩
          refine ⟨c :: before, d, after, rfl, ?_, ?_⟩ <;> rw [byteLength_cons] <;> omega
        · rintro ⟨before, d, after, hcs, hbefore, hacross⟩
          cases before with
          | nil =>
            -- the first character ends before the cut
            obtain ⟨rfl, rfl⟩ := List.cons.inj hcs
            rw [byteLength_nil] at hacross
            omega
          | cons b before =>
            obtain ⟨rfl, rfl⟩ := List.cons.inj hcs
            rw [byteLength_cons] at hbefore hacross
            exact ⟨before, d, after, rfl, by omega, by omega⟩
      · rw [if_neg hfits]
        refine iff_of_true rfl (.inr ⟨[], c, cs, rfl, Nat.succ_pos n, ?_⟩)
        rw [byteLength_nil]
        omega

/-! ## Lines -/

/-- A line is cut at a character, unless a character reaches across the indentation. A line that is too short is not
    cut. -/
theorem dedentLine_eq_none_iff : dedentLine n line = none ↔ Straddles n (dropReturn line) := by
  unfold dedentLine
  dsimp only
  by_cases hlong : n ≤ byteLength (dropReturn line)
  · rw [if_pos hlong, dropBytes_eq_none_iff]
    exact or_iff_right (Nat.not_lt.mpr hlong)
  · rw [if_neg hlong]
    exact iff_of_false nofun fun h => hlong h.lt_byteLength.le

theorem utf8Size_of_isIndent (h : isIndent c = true) : c.utf8Size = 1 := by
  unfold isIndent at h
  rcases Bool.or_eq_true_iff.mp h with h | h
  · rw [eq_of_beq h]
    rfl
  · rw [eq_of_beq h]
    rfl

theorem byteLength_of_isIndent (h : ∀ c ∈ cs, isIndent c = true) : byteLength cs = cs.length := by
  induction cs with
  | nil => rfl
  | cons c cs ih =>
    obtain ⟨hc, hcs⟩ := List.forall_mem_cons.mp h
    rw [byteLength_cons, utf8Size_of_isIndent hc, ih hcs, List.length_cons, Nat.add_comm]

/-- The carriage return at the end of a line is not part of its indentation. -/
theorem indentOf_dropReturn (line : List Char) : indentOf (dropReturn line) = indentOf line := by
  by_cases h : line.getLast? = some '\r'
  · obtain ⟨init, rfl⟩ := List.getLast?_eq_some_iff.mp h
    rw [dropReturn_return, indentOf_return]
  · unfold dropReturn
    rw [if_neg h]

/-- **A line that is indented far enough is cut between characters**: only spaces and tabs go. -/
theorem dedentLine_of_indented (h : n ≤ indentOf line) :
    dedentLine n line = some ((dropReturn line).drop n) ∧ ∀ c ∈ (dropReturn line).take n, isIndent c = true := by
  rw [← indentOf_dropReturn] at h
  unfold dedentLine
  dsimp only
  generalize dropReturn line = l at h ⊢
  unfold indentOf at h
  -- what goes is the front of the indentation
  have hfront : l.take n = (l.takeWhile isIndent).take n := by
    have hwhole : (l.takeWhile isIndent ++ l.dropWhile isIndent).take n = (l.takeWhile isIndent).take n :=
      List.take_append_of_le_length h
    rwa [List.takeWhile_append_dropWhile] at hwhole
  have hindent : ∀ c ∈ l.take n, isIndent c = true := by
    intro c hc
    rw [hfront] at hc
    exact List.mem_takeWhile_imp (List.mem_of_mem_take hc)
  have hbytes : byteLength (l.take n) = n := by
    rw [byteLength_of_isIndent hindent, hfront, List.length_take]
    exact Nat.min_eq_left h
  have hlong : n ≤ byteLength l := by
    have hsum := byteLength_append (l.take n) (l.drop n)
    rw [List.take_append_drop] at hsum
    omega
  rw [if_pos hlong]
  exact ⟨dropBytes_eq_some_iff.mpr ⟨l.take n, (List.take_append_drop n l).symm, hbytes⟩, hindent⟩

/-- Every line that is not blank is indented as far as all of them are. -/
theorem commonIndent_le (hline : line ∈ lines) (hblank : trim line ≠ []) : commonIndent lines ≤ indentOf line := by
  unfold commonIndent
  apply List.min?_getD_le_of_mem
  apply List.mem_map_of_mem
  exact List.mem_filter.mpr ⟨hline, decide_eq_true hblank⟩

theorem mapM_eq_none_iff {α β : Type} {f : α → Option β} {xs : List α} : xs.mapM f = none ↔ ∃ x ∈ xs, f x = none := by
  induction xs with
  | nil => simp
  | cons x xs ih =>
    rw [List.mapM_cons]
    cases hx : f x with
    | none => simp [hx]
    | some y =>
      cases hxs : xs.mapM f with
      | none => simpa [hx, hxs] using ih.mp hxs
      | some ys =>
        have hsome := mt ih.mpr (by rw [hxs]; nofun)
        simpa [hx, hxs] using hsome

/-- **A block cannot be cut free** of its indentation exactly when a character of a blank line reaches across it. -/
theorem dedent_eq_none_iff : dedent lines = none ↔
    ∃ line ∈ lines, trim line = [] ∧ Straddles (commonIndent lines) (dropReturn line) := by
  unfold dedent
  rw [Option.map_eq_none_iff, mapM_eq_none_iff]
  constructor
  · rintro ⟨line, hline, hnone⟩
    refine ⟨line, hline, ?_, dedentLine_eq_none_iff.mp hnone⟩
    by_contra hblank
    rw [(dedentLine_of_indented (commonIndent_le hline hblank)).1] at hnone
    nomatch hnone
  · rintro ⟨line, hline, -, hstraddles⟩
    exact ⟨line, hline, dedentLine_eq_none_iff.mpr hstraddles⟩

theorem isBlank_of_trim_eq_nil (h : trim line = []) (hc : c ∈ line) : isBlank c = true := by
  unfold trim trimEnd trimStart at h
  have hstart := List.dropWhile_eq_nil_iff.mp (List.reverse_eq_nil_iff.mp h)
  by_contra hnot
  -- what is left at the front is not blank
  have hne : line.dropWhile isBlank ≠ [] := fun hnil => hnot (List.dropWhile_eq_nil_iff.mp hnil c hc)
  have hhead := List.head_dropWhile_not isBlank hne
  have hmem := hstart _ (List.mem_reverse.mpr (List.head_mem hne))
  rw [hmem] at hhead
  nomatch hhead

theorem mem_of_mem_dropReturn (h : c ∈ dropReturn line) : c ∈ line := by
  unfold dropReturn at h
  split at h
  · exact (List.dropLast_sublist line).subset h
  · exact h

/-- The character that a cut would tear is a blank of several bytes. -/
theorem exists_wide_blank (hblank : trim line = []) (h : Straddles n (dropReturn line)) :
    ∃ c ∈ line, isBlank c = true ∧ c.utf8Size ≠ 1 := by
  obtain ⟨before, c, after, hline, hbefore, hacross⟩ := h
  have hc : c ∈ line := mem_of_mem_dropReturn (by simp [hline])
  exact ⟨c, hc, isBlank_of_trim_eq_nil hblank hc, by omega⟩

end Text

/-! ## Blocks -/

namespace Scanner

variable {s s' : Scanner} {f : Fence} {e : Error}

/-- **A closed block that tears a character** stands where the lexer is: `body` are the lines between the one that
    opens it and the first that closes it, and one of them is blank with a character across the common indentation. -/
structure Tears (s : Scanner) : Prop where
  lineStart : s.lineStart = true
  depth : s.depth = 0
  block : ∃ f first body last more, Fence.opening? s.currentLine = some f ∧
    Text.splitLines s.rest = first :: (body ++ last :: more) ∧ (∀ l ∈ body, f.closes l = false) ∧
    f.closes last = true ∧
    ∃ line ∈ body, Text.trim line = [] ∧ Text.Straddles (Text.commonIndent body) (Text.dropReturn line)

/-- **A step breaks off** exactly where a block tears a character. -/
theorem step_eq_broken_iff : s.step = .fail ⟨.broken, .unknown⟩ ↔ s.Tears := by
  constructor
  · intro h
    cases steps_iff.mpr h with
    | fence hfence hblock =>
      obtain ⟨hline, hdepth, hopen⟩ := fence?_eq_some_iff.mp hfence
      cases hblock with
      | torn hspans hcut =>
        exact ⟨hline, hdepth, _, _, _, _, _, hopen, hspans.lines, hspans.inside, hspans.closing,
          Text.dedent_eq_none_iff.mp hcut⟩
    | char hfence hrest hstart => nomatch hstart
  · rintro ⟨hline, hdepth, f, first, body, last, more, hopen, hlines, hinside, hclosing, htorn⟩
    have hfence := fence?_eq_some_iff.mpr ⟨hline, hdepth, hopen⟩
    obtain rfl : first = s.currentLine := Text.splitLines_eq_cons hlines
    exact steps_iff.mp (.fence hfence (.torn ⟨hlines, hinside, hclosing⟩ (Text.dedent_eq_none_iff.mpr htorn)))

end Scanner

/-! ## Texts -/

namespace Token

/-- **The lexer breaks off** exactly in the texts in which it comes to a block that tears a character. -/
theorem tokenize_eq_broken_iff {source : String} : tokenize source = .error ⟨.broken, .unknown⟩ ↔
    ∃ ts s, (Scanner.start source.toList).Scans ts s ∧ s.Tears := by
  simp only [tokenize_eq_error_iff, Scanner.step_eq_broken_iff]

/-- **Where dedenting tears characters.** In a block of lines only a blank line can have a character across the common
    indentation; every other line is cut after spaces and tabs. A text has tokens, or a failure of the lexer with its
    place, or the lexer breaks off. It does that exactly when it comes to a closed block with such a blank line, and so
    never in a text whose blanks are all of one byte. -/
theorem dedent_tears_iff (source : String) :
    (∀ lines line, line ∈ lines → Text.trim line ≠ [] →
      Text.dedentLine (Text.commonIndent lines) line =
        some ((Text.dropReturn line).drop (Text.commonIndent lines)) ∧
      ∀ c ∈ (Text.dropReturn line).take (Text.commonIndent lines), Text.isIndent c = true) ∧
    (∀ lines, Text.dedent lines = none ↔
      ∃ line ∈ lines, Text.trim line = [] ∧ Text.Straddles (Text.commonIndent lines) (Text.dropReturn line)) ∧
    ((∃ tokens, tokenize source = .ok tokens) ∨ (∃ p issue, tokenize source = .error (.lex p issue)) ∨
      tokenize source = .error ⟨.broken, .unknown⟩) ∧
    (tokenize source = .error ⟨.broken, .unknown⟩ ↔ ∃ ts s, (Scanner.start source.toList).Scans ts s ∧ s.Tears) ∧
    ((∀ c ∈ source.toList, Text.isBlank c = true → c.utf8Size = 1) →
      tokenize source ≠ .error ⟨.broken, .unknown⟩) := by
  refine ⟨fun lines line hline hblank => Text.dedentLine_of_indented (Text.commonIndent_le hline hblank),
    fun lines => Text.dedent_eq_none_iff, ?_, tokenize_eq_broken_iff, ?_⟩
  · cases h : tokenize source with
    | ok tokens => exact .inl ⟨tokens, rfl⟩
    | error e =>
      rcases tokenize_error h with ⟨p, issue, rfl, -⟩ | ⟨rfl, -⟩
      · exact .inr (.inl ⟨p, issue, rfl⟩)
      · exact .inr (.inr rfl)
  · intro hnarrow hbroken
    obtain ⟨ts, s, hs, htears⟩ := tokenize_eq_broken_iff.mp hbroken
    obtain ⟨f, first, body, last, more, -, hlines, -, -, line, hline, hblank, hstraddles⟩ := htears.block
    obtain ⟨c, hc, hcblank, hwide⟩ := Text.exists_wide_blank hblank hstraddles
    -- the line is one of the text
    have hrest : c ∈ s.rest := (Text.mem_splitLines (by rw [hlines]; simp [hline])).2 c hc
    obtain ⟨cs, htext, -⟩ := hs.chars
    have hmem : c ∈ source.toList := by
      rw [show source.toList = cs ++ s.rest from htext]
      exact List.mem_append_right _ hrest
    exact hwide (hnarrow c hmem hcblank)

/-- A block with an empty line has blanks of one byte, and tokens. -/
theorem dedent_tears_iff_narrow :
    (∀ c ∈ "lua:\n x\n\nend_lua".toList, Text.isBlank c = true → c.utf8Size = 1) ∧
    tokenize "lua:\n x\n\nend_lua" ≠ .error ⟨.broken, .unknown⟩ := by
  have hchars : "lua:\n x\n\nend_lua".toList = ['l', 'u', 'a', ':', '\n', ' ', 'x', '\n', '\n', 'e', 'n', 'd', '_',
      'l', 'u', 'a'] := by
    simp
  have hall : ("lua:\n x\n\nend_lua".toList.all fun c => !Text.isBlank c || c.utf8Size == 1) = true := by
    rw [hchars]
    rfl
  have hnarrow : ∀ c ∈ "lua:\n x\n\nend_lua".toList, Text.isBlank c = true → c.utf8Size = 1 := by
    intro c hc hblank
    have hone := List.all_eq_true.mp hall c hc
    simpa [hblank] using hone
  exact ⟨hnarrow, (dedent_tears_iff _).2.2.2.2 hnarrow⟩

/-- **A torn character**: with an ideographic space, which has three bytes, on a line of its own and an indentation of
    one byte, the lexer breaks off. -/
theorem dedent_tears_wide_space : tokenize "lua:\n x\n\u3000\nend_lua" = .error ⟨.broken, .unknown⟩ := by
  rfl

end Token

end Helios
