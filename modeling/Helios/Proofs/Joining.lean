import Helios.Proofs.Relocation

/-!
# Joining — the program of two texts, one below the other

A text that parses and another one below it parse to the statements of the first and then those of the second,
whose lines are further down. Three things make it so:

* the parser does inside of a longer program what it does in its own (`Stmt.topLevel_follows`);
* a program that parses leaves no bracket open, so the lexer ends outside of all brackets and starts the second
  text as it would start alone (`Scanner.scans_join`);
* the line break between the texts is a separator, or there is one before it already (`Stretch.below_of_above`).
-/

namespace Helios

/-! ## The seam -/

theorem Token.down_zero (t : Token) : t.down 0 = t := rfl

namespace Cursor

theorem Reads.prev {c c' : Cursor} {ks : List TokenKind} (h : c.Reads ks c') :
    c'.prev = c.prev ∨ ∃ t ∈ c.rest, c'.prev = some t := by
  induction h with
  | nil => exact .inl rfl
  | @cons c c' _ _ hrest _ _ ih =>
    obtain ⟨t, rest, hcons⟩ := List.exists_cons_of_ne_nil hrest
    have hnext : c.next = ⟨some t, rest, c.stop⟩ := by
      unfold Cursor.next
      rw [hcons]
    rw [hnext] at ih
    rw [hcons]
    rcases ih with hprev | ⟨u, hu, hprev⟩
    · exact .inr ⟨t, List.mem_cons_self, hprev⟩
    · exact .inr ⟨u, List.mem_cons_of_mem t hu, hprev⟩

/-- Tokens on different lines do not touch. -/
theorem touches_of_line_lt {c : Cursor} (h : ∀ t, c.prev = some t → t.pos.line < c.peek.pos.line) :
    c.touches = false := by
  unfold touches
  split
  · rfl
  · rename_i t ht
    have hne : (t.pos.line == c.peek.pos.line) = false := beq_eq_false_iff_ne.mpr (Nat.ne_of_lt (h t ht))
    rw [hne]
    rfl

end Cursor

namespace Scanner

/-- The separator that a line break after the text is: none if there is one already. -/
def separator (e : Scanner) : List Token := if e.afterSeparator then [] else [⟨.newline, "\n", e.pos⟩]

/-- **The line break between two texts** takes the lexer from the end of the first, outside of brackets, to the start
    of the second. -/
theorem step_newline {e : Scanner} (hrest : e.rest = []) (hdepth : e.depth = 0) (cs : List Char) :
    (e.embed 0 ('\n' :: cs)).Scans e.separator ((start cs).embed e.pos.line []) := by
  obtain ⟨rest, pos, depth, lineStart, afterSeparator⟩ := e
  obtain rfl : rest = [] := hrest
  obtain rfl : depth = 0 := hdepth
  have hnext : (start cs).embed pos.line [] = ⟨cs, ⟨pos.line + 1, 1⟩, 0, true, true⟩ := by
    unfold embed start Position.down Position.start
    rw [List.append_nil, Nat.add_comm]
  rw [hnext]
  cases afterSeparator with
  | true => exact Scans.one (o := none) (by cases lineStart <;> rfl)
  | false => exact Scans.one (o := some ⟨.newline, "\n", pos⟩) (by cases lineStart <;> rfl)

/-- **The tokens of two texts with a line break between them.** -/
theorem scans_join {cs₁ cs₂ : List Char} {ts₁ ts₂ : List Token} {e₁ e₂ : Scanner}
    (h₁ : (start cs₁).Scans ts₁ e₁) (h₂ : (start cs₂).Scans ts₂ e₂) (hrest : e₁.rest = []) (hdepth : e₁.depth = 0) :
    (start (cs₁ ++ '\n' :: cs₂)).Scans (ts₁ ++ (e₁.separator ++ ts₂.map (Token.down e₁.pos.line)))
      (e₂.embed e₁.pos.line []) := by
  have hfirst := h₁.embed 0 (seam_newline cs₂)
  have hsame : ts₁.map (Token.down 0) = ts₁ := List.map_id ts₁
  rw [hsame] at hfirst
  exact hfirst.append ((step_newline hrest hdepth cs₂).append (h₂.embed e₁.pos.line seam_nil))

end Scanner

namespace Stmt

/-- **When a text parses**, by the trace of the lexer. -/
theorem parseProgram_eq_ok_iff {source : String} {p : Block} :
    parseProgram source = .ok p ↔ ∃ ts e c', (Scanner.start source.toList).Scans ts e ∧ e.rest = [] ∧
      topLevel (Cursor.before ts e).fuel (.before ts e) = (.ok p, c') := by
  unfold parseProgram
  constructor
  · intro h
    cases htokens : Token.tokenize source with
    | error err =>
      rw [htokens] at h
      nomatch h
    | ok tokens =>
      rw [htokens] at h
      obtain ⟨ts, e, hs, hrest, rfl⟩ := Token.tokenize_eq_ok_iff.mp htokens
      refine ⟨ts, e, (topLevel (Cursor.before ts e).fuel (.before ts e)).2, hs, hrest, ?_⟩
      rw [← Cursor.start_eq_before]
      exact Prod.ext h rfl
  · rintro ⟨ts, e, c', hs, hrest, h⟩
    rw [Token.tokenize_eq_ok_iff.mpr ⟨ts, e, hs, hrest, rfl⟩]
    show (topLevel (Cursor.start _).fuel (Cursor.start _)).1 = _
    rw [Cursor.start_eq_before, h]

end Stmt

namespace Stretch

variable {cs₁ cs₂ : List Char} {ts₁ ts₂ : List Token} {e₁ e₂ : Scanner}

/-- The place of the first of two texts: a separator and the tokens of the second come after it. -/
def above (e₁ e₂ : Scanner) (ts₂ : List Token) : Stretch where
  lines := 0
  tail := e₁.separator ++ ts₂.map (Token.down e₁.pos.line)
  stop := ⟨.eof, "", e₂.pos.down e₁.pos.line⟩
  stop_eof := rfl

/-- The place of the second of two texts. -/
def below (e₁ e₂ : Scanner) : Stretch where
  lines := e₁.pos.line
  tail := []
  stop := ⟨.eof, "", e₂.pos.down e₁.pos.line⟩
  stop_eof := rfl

theorem above_embeds (h₁ : (Scanner.start cs₁).Scans ts₁ e₁) (ts₂ : List Token) (e₂ : Scanner) :
    (above e₁ e₂ ts₂).Embeds (.before ts₁ e₁)
      (.before (ts₁ ++ (e₁.separator ++ ts₂.map (Token.down e₁.pos.line))) (e₂.embed e₁.pos.line [])) where
  eof := rfl
  tokens t ht := (h₁.token_bounds t ht).1
  stop := rfl
  rest := congrArg (· ++ _) (List.map_id ts₁).symm
  prev := .inr ⟨rfl, rfl⟩
  seam := by
    show Token.Like 0 _ ((e₁.separator ++ _).headD _) ∨ _
    unfold Scanner.separator
    split
    · -- the last token is a separator already
      rename_i hsep
      refine .inr fun t ht => TokenKind.isNewline_iff.mp ?_
      rw [h₁.afterSeparator_eq, show ts₁.getLast? = some t from ht] at hsep
      exact hsep
    · exact .inl ⟨rfl, .inr ⟨rfl, rfl⟩, fun hne => absurd rfl hne⟩

/-- What the second text starts with is on a later line. -/
theorem line_lt_peek (h₂ : (Scanner.start cs₂).Scans ts₂ e₂) {k : Nat} {d : Cursor}
    (hrest : d.rest = ts₂.map (Token.down k)) (hstop : d.stop = ⟨.eof, "", e₂.pos.down k⟩) :
    k < d.peek.pos.line := by
  unfold Cursor.peek
  rw [hrest, hstop]
  cases ts₂ with
  | nil =>
    have := h₂.line_le
    show k < e₂.pos.line + k
    exact Nat.lt_add_of_pos_left this
  | cons t ts =>
    have := (h₂.token_bounds t List.mem_cons_self).2.1
    show k < t.pos.line + k
    exact Nat.lt_add_of_pos_left this

theorem below_embeds (h₂ : (Scanner.start cs₂).Scans ts₂ e₂) {d : Cursor}
    (hrest : d.rest = ts₂.map (Token.down e₁.pos.line)) (hstop : d.stop = ⟨.eof, "", e₂.pos.down e₁.pos.line⟩)
    (htouches : d.touches = false) : (below e₁ e₂).Embeds (.before ts₂ e₂) d where
  eof := rfl
  tokens t ht := (h₂.token_bounds t ht).1
  stop := hstop
  rest := hrest.trans (List.append_nil _).symm
  prev := .inr ⟨rfl, htouches⟩
  seam := .inl (.of_down _ ⟨.eof, "", e₂.pos⟩)

/-- **From the end of the first text to the start of the second**, over the line break between them. -/
theorem below_of_above (h₁ : (Scanner.start cs₁).Scans ts₁ e₁) (h₂ : (Scanner.start cs₂).Scans ts₂ e₂)
    {ks : List TokenKind} {c' d' : Cursor} (hks : (Cursor.before ts₁ e₁).Reads ks c') (hnil : c'.rest = [])
    (h : (above e₁ e₂ ts₂).Embeds c' d') :
    ∃ d, Parse.skipNewlines d = Parse.skipNewlines d' ∧ (below e₁ e₂).Embeds (.before ts₂ e₂) d := by
  have hrest : d'.rest = e₁.separator ++ ts₂.map (Token.down e₁.pos.line) := by
    rw [h.rest, hnil]
    rfl
  unfold Scanner.separator at hrest
  split at hrest
  · refine ⟨d', rfl, below_embeds h₂ hrest h.stop ?_⟩
    rcases h.prev with ⟨t, hprev, hprev'⟩ | ⟨-, htouches⟩
    · -- the token before is one of the first text
      obtain ⟨u, hu, hc⟩ := hks.prev.resolve_left (by rw [hprev]; nofun)
      obtain rfl : t = u := Option.some.inj (hprev.symm.trans hc)
      refine Cursor.touches_of_line_lt fun v hv => ?_
      obtain rfl : t = v := Option.some.inj (hprev'.symm.trans hv)
      exact Nat.lt_of_le_of_lt (h₁.token_bounds t hu).2.2 (line_lt_peek h₂ hrest h.stop)
    · exact htouches
  · have hnext : d'.next = ⟨some ⟨.newline, "\n", e₁.pos⟩, ts₂.map (Token.down e₁.pos.line), d'.stop⟩ := by
      unfold Cursor.next
      rw [hrest]
      rfl
    have hline : d'.peek.kind.isNewline = true := by
      unfold Cursor.peek
      rw [hrest]
      rfl
    refine ⟨d'.next, Parse.skipNewlines_next (by rw [hrest]; nofun) hline, ?_⟩
    rw [hnext]
    refine below_embeds h₂ rfl h.stop (Cursor.touches_of_line_lt fun v hv => ?_)
    obtain rfl := Option.some.inj hv
    exact line_lt_peek h₂ rfl h.stop

end Stretch

namespace Stmt

/-- A program has ended where there are no more tokens. -/
theorem topLevel_nil {d : Cursor} (hrest : d.rest = []) (hstop : d.stop.kind = .eof) (fuel : Nat) :
    topLevel (fuel + 1) d = (.ok [], d) := by
  have heof : d.peek.kind = .eof := by
    unfold Cursor.peek
    rw [hrest]
    exact hstop
  have hskip := Parse.skipNewlines_of_ne (c := d) (by rw [heof]; rfl)
  exact (topLevel_eq_ok hskip).mpr (.inl ⟨heof, rfl, rfl⟩)

/-- **Parsing two texts, one below the other**, gives the statements of the first and then those of the second, which
    stand as many lines further down, nested ones included, as the first text has lines. -/
theorem parseProgram_join {first second : String} {p q : Block} (hp : parseProgram first = .ok p)
    (hq : parseProgram second = .ok q) :
    parseProgram (first ++ "\n" ++ second) = .ok (p ++ downBlock (1 + first.toList.count '\n') q) := by
  obtain ⟨ts₁, e₁, c₁, h₁, hrest₁, htop₁⟩ := parseProgram_eq_ok_iff.mp hp
  obtain ⟨ts₂, e₂, c₂, h₂, hrest₂, htop₂⟩ := parseProgram_eq_ok_iff.mp hq
  obtain ⟨ks₁, d₁, hks₁, hnest, hnil₁, hlength₁, hthere₁, hgoes₁⟩ :=
    topLevel_follows (Stretch.above_embeds h₁ ts₂ e₂) htop₁
  obtain ⟨d, hskip, hbelow⟩ := Stretch.below_of_above h₁ h₂ hks₁ hnil₁ hthere₁
  obtain ⟨ks₂, d₂, hks₂, -, hnil₂, hlength₂, hthere₂, hgoes₂⟩ := topLevel_follows hbelow htop₂
  -- the first program leaves no bracket open
  have hkinds₁ : ts₁.map Token.kind = ks₁ := by
    have := hks₁.kinds
    rwa [hnil₁, List.map_nil, List.append_nil] at this
  have hdepth : e₁.depth = 0 := by
    rw [h₁.depth_eq, ← List.foldl_map (f := Token.kind) (g := TokenKind.depthAfter), hkinds₁]
    exact hnest 0
  have hline : e₁.pos.line = 1 + first.toList.count '\n' := by
    obtain ⟨cs, hcs, hpos⟩ := h₁.chars
    rw [hrest₁, List.append_nil] at hcs
    rw [hpos, ← hcs, Position.line_advance]
    rfl
  have hchars : (first ++ "\n" ++ second).toList = first.toList ++ '\n' :: second.toList := by simp
  refine parseProgram_eq_ok_iff.mpr ⟨_, _, d₂, hchars ▸ Scanner.scans_join h₁ h₂ hrest₁ hdepth, ?_, ?_⟩
  · show e₂.rest ++ [] = []
    rw [hrest₂]
    rfl
  · have hend : d₂.rest = [] := by
      rw [hthere₂.rest, hnil₂]
      rfl
    have hstop : d₂.stop.kind = .eof := by rw [hthere₂.stop]; rfl
    have hsecond (m : Nat) : topLevel (m + q.length + 1) d₁ = (.ok (downBlock e₁.pos.line q), d₂) := by
      refine topLevel_congr hskip.symm ?_
      have hjoin := hgoes₂ m [] d₂ (topLevel_nil hend hstop m)
      rw [List.append_nil] at hjoin
      rw [Nat.add_right_comm]
      exact hjoin
    -- each statement takes a token, so the fuel suffices for those of both programs
    have hread₁ : ts₁.length = ks₁.length + c₁.rest.length := hks₁.length_eq
    have hread₂ : ts₂.length = ks₂.length + c₂.rest.length := hks₂.length_eq
    have hfuel : q.length + 1 + p.length ≤ (Cursor.before (ts₁ ++ (e₁.separator ++
        ts₂.map (Token.down e₁.pos.line))) (e₂.embed e₁.pos.line [])).fuel := by
      unfold Cursor.fuel Cursor.before
      simp only [List.length_append, List.length_map]
      omega
    obtain ⟨m, hm⟩ := Nat.exists_eq_add_of_le' hfuel
    rw [hm, ← Nat.add_assoc, ← Nat.add_assoc, hgoes₁ (m + q.length) _ _ (hsecond m), hline]
    exact congrArg (fun b => (Except.ok (b ++ _), d₂)) (downBlock_zero p)

/-- A first text that ends in a comment on a line of its own, and a second one that ends without a separator. -/
theorem parseProgram_join_nested :
    parseProgram "f [\n1]\n#" = .ok [⟨1, .call (.var "f") [.list [.literal (.int 1)]]⟩] ∧
    parseProgram "while x:\nbreak;end" = .ok [⟨1, .while_ (.var "x") [⟨2, .break_⟩]⟩] ∧
    parseProgram ("f [\n1]\n#" ++ "\n" ++ "while x:\nbreak;end") = .ok
      [⟨1, .call (.var "f") [.list [.literal (.int 1)]]⟩, ⟨4, .while_ (.var "x") [⟨5, .break_⟩]⟩] := by
  have hfirst : parseProgram "f [\n1]\n#" = .ok [⟨1, .call (.var "f") [.list [.literal (.int 1)]]⟩] := by
    have hchars : "f [\n1]\n#".toList = ['f', ' ', '[', '\n', '1', ']', '\n', '#'] := by simp
    unfold parseProgram Token.tokenize Token.scan
    rw [hchars]
    with_unfolding_all rfl
  have hsecond : parseProgram "while x:\nbreak;end" = .ok [⟨1, .while_ (.var "x") [⟨2, .break_⟩]⟩] := by
    have hchars : "while x:\nbreak;end".toList = ['w', 'h', 'i', 'l', 'e', ' ', 'x', ':', '\n', 'b', 'r', 'e', 'a',
        'k', ';', 'e', 'n', 'd'] := by simp
    unfold parseProgram Token.tokenize Token.scan
    rw [hchars]
    with_unfolding_all rfl
  have hcount : "f [\n1]\n#".toList.count '\n' = 2 := by simp
  refine ⟨hfirst, hsecond, ?_⟩
  rw [parseProgram_join hfirst hsecond, hcount]
  rfl

end Stmt

end Helios
