import Helios.Proofs.Slices
import Helios.Proofs.Indentation

/-!
# Openers — where fenced blocks stand

A fenced block stands where its opener stands, with blanks before it on the line (`Fence.Opens`). Every other token has
the column that the lexer has counted to, character by character. For a block the lexer stands at the start of the line,
and the bytes of the blanks are added to its column. So the column is right exactly when each blank is a single byte
(`Fence.Stands`).

The lexer counts from the first column where a line starts (`Scanner.AtLine`), which every step keeps. A trace comes to
each of its tokens in a state in which this holds (`Scanner.Passes`).
-/

namespace Helios

/-! ## Texts -/

namespace Text

variable {cs : List Char}

theorem byteLength_eq_length_iff : byteLength cs = cs.length ↔ ∀ c ∈ cs, c.utf8Size = 1 := by
  induction cs with
  | nil => simp
  | cons c cs ih =>
    have hpos := c.utf8Size_pos
    have hle := length_le_byteLength cs
    rw [byteLength_cons, List.length_cons, List.forall_mem_cons, ← ih]
    omega

/-- Trimming takes blanks off a text. -/
theorem exists_blanks_trim (cs : List Char) :
    ∃ after, cs = cs.takeWhile isBlank ++ trim cs ++ after ∧ ∀ c ∈ after, isBlank c = true := by
  refine ⟨((trimStart cs).reverse.takeWhile isBlank).reverse, ?_, fun c hc => ?_⟩
  · have hend : trim cs ++ ((trimStart cs).reverse.takeWhile isBlank).reverse = trimStart cs := by
      show ((trimStart cs).reverse.dropWhile isBlank).reverse ++ _ = _
      rw [← List.reverse_append, List.takeWhile_append_dropWhile, List.reverse_reverse]
    rw [List.append_assoc, hend]
    exact List.takeWhile_append_dropWhile.symm
  · exact List.mem_takeWhile_imp (List.mem_reverse.mp hc)

end Text

/-- **A line starts after a text**: it is empty or ends with a line break. -/
def LineStarts (before : List Char) : Prop := ∀ c, before.getLast? = some c → c = '\n'

theorem Position.column_after_eq_one_iff {cs : List Char} : (after cs).column = 1 ↔ LineStarts cs := by
  unfold after LineStarts
  rw [← List.head?_reverse]
  cases cs.reverse with
  | nil => simp
  | cons c cs => by_cases hc : c = '\n' <;> simp [hc]

/-! ## Fences -/

namespace Fence

/-- **A fence is opened in a text**: a line starts after `before`, and on it there is the opener, after `blanks` and
    before blanks to the end of the line. -/
structure Opens (f : Fence) (source before blanks : List Char) : Prop where
  known : f ∈ all
  lineStarts : LineStarts before
  blank : ∀ c ∈ blanks, Text.isBlank c = true
  inline : '\n' ∉ blanks
  text : ∃ rest after, source = before ++ blanks ++ f.opener.toList ++ rest ++ after ∧
    (∀ c ∈ rest, Text.isBlank c = true) ∧ Seam after

/-- **Where a block stands that opens after some text**: on the line of its opener, and in the column that the bytes of
    the blanks lead to. It is the column of the opener exactly when each of them is a single byte. -/
structure Stands (before blanks : List Char) (p : Position) : Prop where
  line : p.line = (Position.after (before ++ blanks)).line
  column : p.column = 1 + Text.byteLength blanks
  exact : p = .after (before ++ blanks) ↔ ∀ c ∈ blanks, c.utf8Size = 1

variable {f : Fence} {source before blanks : List Char}

/-- Before the opener there are as many characters as blanks. -/
theorem Opens.after_eq (h : f.Opens source before blanks) :
    Position.after (before ++ blanks) = ⟨(Position.after before).line, 1 + blanks.length⟩ := by
  rw [← Position.advance_after, Position.advance_of_not_mem h.inline, Position.column_after_eq_one_iff.mpr h.lineStarts]

theorem Opens.stands (h : f.Opens source before blanks) :
    Stands before blanks ⟨(Position.after before).line, 1 + Text.byteLength blanks⟩ := by
  refine ⟨?_, rfl, ?_⟩
  · rw [h.after_eq]
  · rw [h.after_eq, ← Text.byteLength_eq_length_iff, Position.mk.injEq]
    omega

end Fence

/-! ## Steps -/

namespace Scanner

variable {s s' next : Scanner} {f : Fence} {t : Token} {c : Char} {cs : List Char} {p : Position}

/-- The lexer counts from the first column where a line starts. -/
def AtLine (s : Scanner) : Prop := s.lineStart = true → s.pos.column = 1

/-- **Every step keeps the count of columns.** -/
theorem step_atLine {o : Option Token} (h : s.step.result = some (o, next)) : next.AtLine := by
  have hsteps := s.steps_step
  generalize s.step = r at h hsteps
  intro hline
  cases hsteps with
  | fence hfence hblock =>
    cases hblock with
    | unclosed | torn => nomatch h
    | block =>
      obtain ⟨-, rfl⟩ := Prod.mk.inj (Option.some.inj h)
      nomatch hline
  | finish => nomatch h
  | char hfence hrest hstart =>
    -- a line starts past a line break only
    cases hstart with
    | skip hignores =>
      obtain ⟨-, rfl⟩ := Prod.mk.inj (Option.some.inj h)
      cases hignores with
      | lineBreak hc =>
        subst hc
        rfl
      | blank | comment | semicolon => nomatch hline
    | token hlexeme =>
      obtain ⟨-, rfl⟩ := Prod.mk.inj (Option.some.inj h)
      cases hlexeme with
      | lineBreak hc =>
        subst hc
        rfl
      | semicolon | string | number | word | symbol => nomatch hline
    | fail => nomatch h

/-- The blanks before the opener of a block. -/
def blanks (s : Scanner) : List Char := s.currentLine.takeWhile Text.isBlank

/-- **A step to a fenced block** starts at a line outside of brackets that opens its fence. -/
theorem step_fenced (h : s.step = .token t next) (ht : t.Fenced) :
    ∃ f code, s.lineStart = true ∧ Fence.opening? s.currentLine = some f ∧ t.pos = s.openerPos ∧
      t.kind = .passthrough f.language code := by
  cases steps_iff.mpr h with
  | fence hfence hblock =>
    obtain ⟨hline, -, hopen⟩ := fence?_eq_some_iff.mp hfence
    cases hblock
    exact ⟨_, _, hline, hopen, rfl, rfl⟩
  | char hfence hrest hstart =>
    cases hstart with
    | token hlexeme => exact absurd ht hlexeme.not_fenced

/-- **A step to an open end** starts at such a line too. -/
theorem step_unclosed {opener closer : String} (h : s.step = .fail (.lex p (.unclosedFence opener closer))) :
    ∃ f, s.lineStart = true ∧ Fence.opening? s.currentLine = some f ∧ p = s.openerPos ∧ f.opener = opener ∧
      f.closer = closer := by
  cases steps_iff.mpr h with
  | fence hfence hblock =>
    obtain ⟨hline, -, hopen⟩ := fence?_eq_some_iff.mp hfence
    cases hblock
    exact ⟨_, hline, hopen, rfl, rfl, rfl⟩
  | char hfence hrest hstart =>
    cases hstart with
    | fail hrejects => nomatch hrejects

/-! ## Runs -/

namespace Reading

variable {source gap : List Char} {slices : List Slice}

/-- **Where a line is that opens a fence**: the text before it has been read. -/
theorem opens (h : Reading source slices gap s) (hline : s.AtLine) (hstart : s.lineStart = true)
    (hopen : Fence.opening? s.currentLine = some f) : f.Opens source (Slice.join slices ++ gap) s.blanks := by
  have hcolumn := hline hstart
  rw [h.pos, Position.column_after_eq_one_iff] at hcolumn
  have hfind : (Fence.all.find? fun f => f.opener.toList == Text.trim s.currentLine) = some f := hopen
  have hfound := List.find?_some hfind
  have hopener : f.opener.toList = Text.trim s.currentLine := eq_of_beq hfound
  obtain ⟨rest, hsplit, hrest⟩ := Text.exists_blanks_trim s.currentLine
  have hinline : '\n' ∉ s.currentLine := newline_not_mem_currentLine s
  refine ⟨List.mem_of_find?_eq_some hfind, hcolumn, fun c hc => List.mem_takeWhile_imp hc,
    fun hmem => hinline ((List.takeWhile_prefix _).subset hmem), rest, s.rest.dropWhile (· ≠ '\n'), ?_, hrest,
    seam_dropWhile s.rest⟩
  calc source = Slice.join slices ++ (gap ++ s.rest) := h.laid.source_eq
    _ = Slice.join slices ++ (gap ++ (s.currentLine ++ s.rest.dropWhile (· ≠ '\n'))) := by
      rw [currentLine, List.takeWhile_append_dropWhile]
    _ = Slice.join slices ++ (gap ++ (s.blanks ++ f.opener.toList ++ rest ++ s.rest.dropWhile (· ≠ '\n'))) := by
      rw [hopener]
      exact congrArg (fun line => Slice.join slices ++ (gap ++ (line ++ s.rest.dropWhile (· ≠ '\n')))) hsplit
    _ = _ := by simp only [List.append_assoc]

/-- The count of the lexer leads to where the block stands. -/
theorem stands (h : Reading source slices gap s) (hline : s.AtLine) (hstart : s.lineStart = true)
    (hopen : Fence.opening? s.currentLine = some f) :
    Fence.Stands (Slice.join slices ++ gap) s.blanks s.openerPos := by
  show Fence.Stands _ _ ⟨s.pos.line, s.pos.column + Text.byteLength s.blanks⟩
  rw [hline hstart, h.pos]
  exact (h.opens hline hstart hopen).stands

end Reading

/-- **The lexer passes a fenced block**: in a state of a run over the text, its next token is the block of a slice. -/
def Passes (source : List Char) (before : List Slice) (p : Slice) : Prop :=
  p.token.Fenced → ∃ s next, Reading source before p.gap s ∧ s.AtLine ∧ s.step = .token p.token next

/-- **Every slice has been passed.** -/
def Passed (source : List Char) (slices : List Slice) : Prop :=
  ∀ before p after, slices = before ++ p :: after → Passes source before p

theorem Passed.snoc {source : List Char} {slices : List Slice} {q : Slice} (h : Passed source slices)
    (hq : Passes source slices q) : Passed source (slices ++ [q]) := by
  intro before p after hslices
  rcases List.eq_nil_or_concat after with rfl | ⟨after, last, rfl⟩
  · obtain ⟨rfl, hlast⟩ := List.append_inj' hslices rfl
    obtain rfl := (List.cons.inj hlast).1
    exact hq
  · have hsplit : slices ++ [q] = (before ++ p :: after) ++ [last] := by simpa using hslices
    exact h before p after (List.append_inj' hsplit rfl).1

/-- **A trace passes its fenced blocks one by one.** -/
theorem Reading.passes {source gap : List Char} {slices : List Slice} {ts : List Token} (hs : s.Scans ts s')
    (h : Reading source slices gap s) (hline : s.AtLine) (hpassed : Passed source slices) :
    ∃ slices' gap', Reading source slices' gap' s' ∧ s'.AtLine ∧ Passed source slices' ∧
      slices'.map Slice.token = slices.map Slice.token ++ ts := by
  induction hs generalizing slices gap with
  | refl => exact ⟨slices, gap, h, hline, hpassed, (List.append_nil _).symm⟩
  | @step s s₁ s' o ts hstep _ ih =>
    have hline₁ := step_atLine hstep
    rcases step_of_result hstep with ⟨rfl, hskip⟩ | ⟨t, rfl, htoken⟩
    · obtain ⟨gap₁, hnext⟩ := h.skip hskip
      exact ih hnext hline₁ hpassed
    · have hpassed₁ := hpassed.snoc (q := ⟨gap, t⟩) fun _ => ⟨s, s₁, h, hline, htoken⟩
      obtain ⟨slices', gap', hnext, hline', hpassed', htokens⟩ := ih (h.token htoken) hline₁ hpassed₁
      exact ⟨slices', gap', hnext, hline', hpassed', by simpa using htokens⟩

/-- **A run has passed its fenced blocks**, and if it fails it has come to the step that fails. -/
theorem Reading.passed {source gap : List Char} {slices : List Slice} {ts : List Token}
    {r : List Token × Option Error} (hend : s.Ends ts r) (h : Reading source slices gap s) (hline : s.AtLine)
    (hpassed : Passed source slices) (hts : slices.map Slice.token = ts) :
    ∃ slices' tail, slices'.map Slice.token = r.1 ∧ source = Slice.join slices' ++ tail ∧ Passed source slices' ∧
      ∀ e, r.2 = some e → ∃ gap s, Reading source slices' gap s ∧ s.AtLine ∧ s.step = .fail e := by
  cases hend with
  | finish hrest =>
    have heof : Passes source slices ⟨gap, ⟨.eof, "", s.pos⟩⟩ := by
      rintro ⟨language, code, hkind⟩
      nomatch hkind
    refine ⟨_, [], ?_, (h.finish (step_of_rest_nil hrest)).source_eq, hpassed.snoc heof, nofun⟩
    rw [List.map_append, hts]
    rfl
  | fail hstep =>
    refine ⟨slices, gap ++ s.rest, hts, h.laid.source_eq, hpassed, fun e he => ?_⟩
    obtain rfl := Option.some.inj he
    exact ⟨gap, s, h, hline, hstep⟩

end Scanner

/-! ## Texts -/

namespace Token

/-- **Where fenced blocks stand.** Each block of a text, closed or not, stands on the line of its opener, in the column
    after the bytes of the blanks before it. So it stands where its opener does, the characters before it counted, exactly
    when all these blanks are single bytes. -/
theorem fenced_blocks_stand (source : String) :
    ∃ slices tail, slices.map Slice.token = (scan source).1 ∧ source.toList = Slice.join slices ++ tail ∧
      (∀ before p after, slices = before ++ p :: after → p.token.Fenced →
        ∃ (f : Fence) (blanks : List Char) (code : String), p.token.kind = .passthrough f.language code ∧
          f.Opens source.toList (Slice.join before ++ p.gap) blanks ∧
          Fence.Stands (Slice.join before ++ p.gap) blanks p.token.pos) ∧
      ∀ p opener closer, (scan source).2 = some (.lex p (.unclosedFence opener closer)) →
        ∃ (f : Fence) (gap blanks : List Char), f.opener = opener ∧ f.closer = closer ∧
          f.Opens source.toList (Slice.join slices ++ gap) blanks ∧ Fence.Stands (Slice.join slices ++ gap) blanks p := by
  obtain ⟨ts, s, hs, hend⟩ := scan_eq_iff.mp (Eq.refl (scan source))
  obtain ⟨slices, gap, hreading, hline, hpassed, hts⟩ :=
    (Scanner.Reading.start source.toList).passes hs (fun _ => rfl) (by simp [Scanner.Passed])
  obtain ⟨slices, tail, htokens, hsource, hpasses, hfails⟩ := hreading.passed hend hline hpassed hts
  refine ⟨slices, tail, htokens, hsource, fun before p after hslices hfenced => ?_, fun p opener closer herror => ?_⟩
  · obtain ⟨s, next, hreading, hline, hstep⟩ := hpasses before p after hslices hfenced
    obtain ⟨f, code, hstart, hopen, hpos, hkind⟩ := Scanner.step_fenced hstep hfenced
    exact ⟨f, s.blanks, code, hkind, hreading.opens hline hstart hopen, hpos ▸ hreading.stands hline hstart hopen⟩
  · obtain ⟨gap, s, hreading, hline, hfail⟩ := hfails _ herror
    obtain ⟨f, hstart, hopen, rfl, hopener, hcloser⟩ := Scanner.step_unclosed hfail
    exact ⟨f, gap, s.blanks, hopener, hcloser, hreading.opens hline hstart hopen, hreading.stands hline hstart hopen⟩

/-- A block without its closing line, after a tab: a single byte. -/
theorem fenced_blocks_stand_unclosed :
    (scan "\tlua:\nx").2 = some (.lex ⟨1, 2⟩ (.unclosedFence "lua:" "end_lua")) ∧
    ∃ (f : Fence) (before blanks : List Char), f.opener = "lua:" ∧ f.Opens "\tlua:\nx".toList before blanks ∧
      Fence.Stands before blanks ⟨1, 2⟩ := by
  have herror : (scan "\tlua:\nx").2 = some (.lex ⟨1, 2⟩ (.unclosedFence "lua:" "end_lua")) := rfl
  obtain ⟨slices, tail, -, -, -, hfails⟩ := fenced_blocks_stand "\tlua:\nx"
  obtain ⟨f, gap, blanks, hopener, -, hopens, hstands⟩ := hfails _ _ _ herror
  exact ⟨herror, f, _, blanks, hopener, hopens, hstands⟩

/-- **A block that does not stand where its opener does**: after an ideographic space, which is one character of three
    bytes, the lexer gives the fourth column for the second. -/
theorem fenced_block_after_wide_blank :
    ∃ tokens t, tokenize "\u3000lua:\nend_lua" = .ok tokens ∧ t ∈ tokens ∧ t.kind = .passthrough "lua" "" ∧
      (⟨"lua:", "end_lua", "lua"⟩ : Fence).Opens "\u3000lua:\nend_lua".toList [] ['\u3000'] ∧
      t.pos = ⟨1, 4⟩ ∧ Position.after ([] ++ ['\u3000']) = ⟨1, 2⟩ := by
  refine ⟨[⟨.passthrough "lua" "", "\u3000lua:\nend_lua", ⟨1, 4⟩⟩, ⟨.eof, "", ⟨2, 8⟩⟩], _, rfl, List.mem_cons_self, rfl,
    ⟨by decide, nofun, List.forall_mem_singleton.mpr rfl, by decide, [], '\n' :: "end_lua".toList, by simp, nofun,
      seam_newline _⟩, rfl, rfl⟩

end Token

end Helios
