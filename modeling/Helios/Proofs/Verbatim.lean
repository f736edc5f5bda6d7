import Mathlib.Data.List.Forall2
import Helios.Proofs.Indentation

/-!
# Verbatim — what a fenced block takes over

The lines of a fenced block are taken over as they stand, without the indentation that they share and without the
carriage return at their ends (`Text.Dedented`). The indentation is as large as the lines allow: on some line there is
no further space or tab. Lines of blanks do not count for it, and what is left of them is the end of them. This is asked
of blocks whose blank lines are of spaces, tabs and carriage returns (`Text.PlainBlanks`); in others a cut may tear a
character.

The lexer comes to the line that opens a fence and goes on after the first later one that closes it
(`Scanner.Encloses.step`). What lies between them makes one token, and the next step starts from the text after them;
tokens and failures from there on stand on the closing line or below it (`Scanner.line_le_of_run`).
-/

namespace Helios

/-! ## Lines -/

namespace Text

variable {n k : Nat} {line out : List Char} {lines outs : List (List Char)}

/-- **The blank lines of a block are plain**: spaces, tabs and carriage returns. -/
def PlainBlanks (lines : List (List Char)) : Prop :=
  ∀ line ∈ lines, trim line = [] → ∀ c ∈ line, c = ' ' ∨ c = '\t' ∨ c = '\r'

/-- A line that starts with so many spaces and tabs. -/
def Indented (n : Nat) (line : List Char) : Prop :=
  ∃ indent rest, line = indent ++ rest ∧ indent.length = n ∧ ∀ c ∈ indent, c = ' ' ∨ c = '\t'

/-- **A line and what is taken over of it** when `k` spaces and tabs are cut off: what is between them and a carriage
    return at the end, and of a line of blanks the end of what is before one. -/
structure Uncovered (k : Nat) (line out : List Char) : Prop where
  plain : trim line ≠ [] → ∃ indent tail, line = indent ++ out ++ tail ∧ indent.length = k ∧
    (∀ c ∈ indent, c = ' ' ∨ c = '\t') ∧ (tail = ['\r'] ∨ tail = [] ∧ line.getLast? ≠ some '\r')
  blank : trim line = [] → out <:+ dropReturn line

/-- **Lines and what is taken over of them**: all are cut alike, and as far as those that are not blank allow. -/
structure Dedented (k : Nat) (lines outs : List (List Char)) : Prop where
  uncovered : List.Forall₂ (Uncovered k) lines outs
  greatest : (∃ line ∈ lines, trim line ≠ []) →
    ∀ n, (∀ line ∈ lines, trim line ≠ [] → Indented n line) → n ≤ k
  reached : (∃ line ∈ lines, trim line ≠ []) → ∃ line out, (line, out) ∈ lines.zip outs ∧ trim line ≠ [] ∧
    ∀ c, out.head? = some c → c ≠ ' ' ∧ c ≠ '\t'

theorem isIndent_iff {c : Char} : isIndent c = true ↔ c = ' ' ∨ c = '\t' := by
  unfold isIndent
  rw [Bool.or_eq_true, beq_iff_eq, beq_iff_eq]

theorem Indented.le_indentOf (h : Indented n line) : n ≤ indentOf line := by
  obtain ⟨indent, rest, rfl, rfl, hindent⟩ := h
  unfold indentOf
  rw [List.takeWhile_append_of_pos fun c hc => isIndent_iff.mpr (hindent c hc), List.length_append]
  exact Nat.le_add_right _ _

theorem eq_dropReturn (line : List Char) :
    line = dropReturn line ++ ['\r'] ∨ line = dropReturn line ∧ line.getLast? ≠ some '\r' := by
  by_cases h : line.getLast? = some '\r'
  · obtain ⟨init, rfl⟩ := List.getLast?_eq_some_iff.mp h
    exact .inl (by rw [dropReturn_return])
  · exact .inr ⟨by rw [dropReturn, if_neg h], h⟩

/-- What is cut off a line is its front. -/
theorem suffix_of_dedentLine (h : dedentLine n line = some out) : out <:+ dropReturn line := by
  unfold dedentLine at h
  dsimp only at h
  split at h
  · obtain ⟨before, hline, -⟩ := dropBytes_eq_some_iff.mp h
    exact ⟨before, hline.symm⟩
  · obtain rfl := Option.some.inj h
    exact List.dropWhile_suffix _

/-- **A line that is indented far enough loses spaces and tabs only.** -/
theorem uncovered_of_dedentLine (hindented : trim line ≠ [] → k ≤ indentOf line) (h : dedentLine k line = some out) :
    Uncovered k line out := by
  refine ⟨fun hplain => ?_, fun _ => suffix_of_dedentLine h⟩
  obtain ⟨hcut, hindent⟩ := dedentLine_of_indented (hindented hplain)
  obtain rfl := Option.some.inj (h.symm.trans hcut)
  have hlen : ((dropReturn line).take k).length = k := by
    have hle : indentOf (dropReturn line) ≤ (dropReturn line).length := (List.takeWhile_prefix _).length_le
    rw [indentOf_dropReturn] at hle
    have hindented := hindented hplain
    rw [List.length_take]
    omega
  have hwhole : (dropReturn line).take k ++ (dropReturn line).drop k = dropReturn line := List.take_append_drop k _
  have hspaces : ∀ c ∈ (dropReturn line).take k, c = ' ' ∨ c = '\t' := fun c hc => isIndent_iff.mp (hindent c hc)
  rcases eq_dropReturn line with hreturn | ⟨hnone, hlast⟩
  · exact ⟨_, ['\r'], by rw [hwhole]; exact hreturn, hlen, hspaces, .inl rfl⟩
  · exact ⟨_, [], by rw [hwhole, List.append_nil]; exact hnone, hlen, hspaces, .inr ⟨rfl, hlast⟩⟩

/-- A line that is cut by all of its indentation goes on with something else. -/
theorem head?_of_dedentLine (h : dedentLine (indentOf line) line = some out) {c : Char} (hc : out.head? = some c) :
    c ≠ ' ' ∧ c ≠ '\t' := by
  rw [(dedentLine_of_indented (Nat.le_refl _)).1] at h
  obtain rfl := Option.some.inj h
  have hdrop : (dropReturn line).drop (indentOf line) = (dropReturn line).dropWhile isIndent := by
    rw [← indentOf_dropReturn]
    have hsplit : ((dropReturn line).takeWhile isIndent ++ (dropReturn line).dropWhile isIndent).drop
        ((dropReturn line).takeWhile isIndent).length = (dropReturn line).dropWhile isIndent := List.drop_left
    rwa [List.takeWhile_append_dropWhile] at hsplit
  have hhead := List.head?_dropWhile_not isIndent (dropReturn line)
  rw [hdrop] at hc
  rw [hc] at hhead
  have hnot : isIndent c = false := by simpa using hhead
  exact not_or.mp fun h => by rw [isIndent_iff.mpr h] at hnot; nomatch hnot

/-- If there are lines that are not blank, one of them has the common indentation. -/
theorem exists_indentOf_eq (h : ∃ line ∈ lines, trim line ≠ []) :
    ∃ line ∈ lines, trim line ≠ [] ∧ indentOf line = commonIndent lines := by
  obtain ⟨line, hline, hplain⟩ := h
  unfold commonIndent
  cases hmin : ((lines.filter fun l => trim l ≠ []).map indentOf).min? with
  | none =>
    have hnil := List.map_eq_nil_iff.mp (List.min?_eq_none_iff.mp hmin)
    have hmem : line ∈ lines.filter fun l => trim l ≠ [] := List.mem_filter.mpr ⟨hline, decide_eq_true hplain⟩
    rw [hnil] at hmem
    nomatch hmem
  | some k =>
    obtain ⟨l, hl, rfl⟩ := List.mem_map.mp (List.min?_mem hmin)
    obtain ⟨hl, hplain⟩ := List.mem_filter.mp hl
    exact ⟨l, hl, of_decide_eq_true hplain, rfl⟩

theorem forall₂_of_mapM {α β : Type} {f : α → Option β} {xs : List α} {ys : List β} (h : xs.mapM f = some ys) :
    List.Forall₂ (fun x y => f x = some y) xs ys := by
  induction xs generalizing ys with
  | nil =>
    obtain rfl := Option.some.inj h
    exact .nil
  | cons x xs ih =>
    rw [List.mapM_cons] at h
    obtain ⟨y, hx, h⟩ := Option.bind_eq_some_iff.mp h
    obtain ⟨rest, hxs, h⟩ := Option.bind_eq_some_iff.mp h
    obtain rfl := Option.some.inj h
    exact .cons hx (ih hxs)

theorem exists_mem_zip {α β : Type} {R : α → β → Prop} {xs : List α} {ys : List β} (h : List.Forall₂ R xs ys) {x : α}
    (hx : x ∈ xs) : ∃ y, (x, y) ∈ xs.zip ys ∧ R x y := by
  induction h with
  | nil => nomatch hx
  | cons hxy _ ih =>
    rcases List.mem_cons.mp hx with rfl | hx
    · exact ⟨_, List.mem_cons_self, hxy⟩
    · obtain ⟨y, hy, hR⟩ := ih hx
      exact ⟨y, List.mem_cons_of_mem _ hy, hR⟩

/-- Plain blanks are single bytes, so no cut tears one. -/
theorem dedent_ne_none (h : PlainBlanks lines) : dedent lines ≠ none := by
  intro hnone
  obtain ⟨line, hline, hblank, hstraddles⟩ := dedent_eq_none_iff.mp hnone
  obtain ⟨c, hc, -, hwide⟩ := exists_wide_blank hblank hstraddles
  rcases h line hline hblank c hc with rfl | rfl | rfl <;> exact hwide rfl

/-- **A block is taken over verbatim up to its common indentation.** -/
theorem dedented_of_plainBlanks (h : PlainBlanks lines) :
    ∃ k outs, dedent lines = some (outs.flatMap (· ++ ['\n'])) ∧ Dedented k lines outs := by
  obtain ⟨code, hcode⟩ := Option.ne_none_iff_exists'.mp (dedent_ne_none h)
  obtain ⟨outs, houts, rfl⟩ := Option.map_eq_some_iff.mp hcode
  have hcuts := forall₂_of_mapM houts
  refine ⟨commonIndent lines, outs, hcode, ?_, fun hplain n hn => ?_, fun hplain => ?_⟩
  · refine List.forall₂_iff_zip.mpr ⟨hcuts.length_eq, fun {line out} hmem => ?_⟩
    have hline : line ∈ lines := (List.of_mem_zip hmem).1
    exact uncovered_of_dedentLine (commonIndent_le hline) ((List.forall₂_iff_zip.mp hcuts).2 hmem)
  · obtain ⟨line, hline, hplain, hk⟩ := exists_indentOf_eq hplain
    rw [← hk]
    exact (hn line hline hplain).le_indentOf
  · obtain ⟨line, hline, hplain, hk⟩ := exists_indentOf_eq hplain
    obtain ⟨out, hmem, hcut⟩ := exists_mem_zip hcuts hline
    rw [← hk] at hcut
    exact ⟨line, out, hmem, hplain, fun c hc => head?_of_dedentLine hcut hc⟩

/-- Lines put together are the first one and each further one after its line break. -/
theorem joinLines_cons (line : List Char) (rest : List (List Char)) :
    joinLines (line :: rest) = line ++ rest.flatMap ('\n' :: ·) := by
  induction rest generalizing line with
  | nil => exact (List.append_nil line).symm
  | cons next rest ih =>
    rw [joinLines_cons_cons, ih, List.flatMap_cons]
    rfl

/-- There is a line break between any two lines. -/
theorem count_joinLines {xs : List (List Char)} (h : ∀ x ∈ xs, '\n' ∉ x) :
    (joinLines xs).count '\n' = xs.length - 1 := by
  induction xs with
  | nil => rfl
  | cons x xs ih =>
    obtain ⟨hx, hxs⟩ := List.forall_mem_cons.mp h
    have hzero : x.count '\n' = 0 := List.count_eq_zero.mpr hx
    cases xs with
    | nil => exact hzero
    | cons y ys =>
      rw [joinLines_cons_cons, List.count_append, hzero, List.count_cons_self, ih hxs]
      simp

end Text

/-! ## Blocks -/

namespace Scanner

variable {s s' next : Scanner} {f : Fence} {t : Token} {body more : List (List Char)} {last : List Char}

/-- **A closed block stands where the lexer is**, at the start of a line outside of brackets: `body` are the lines
    between the one that opens the fence and the first later one that closes it, which is `last`. -/
structure Encloses (s : Scanner) (f : Fence) (body : List (List Char)) (last : List Char) (more : List (List Char)) :
    Prop where
  lineStart : s.lineStart = true
  depth : s.depth = 0
  opening : Fence.opening? s.currentLine = some f
  lines : Text.splitLines s.rest = s.currentLine :: (body ++ last :: more)
  inside : ∀ l ∈ body, Text.trim l ≠ f.closer.toList
  closing : Text.trim last = f.closer.toList

/-- **The lexer takes a block**: the text from the opening line to the closing one is one token, and it goes on with what
    comes after them. -/
structure TakesOver (s : Scanner) (f : Fence) (body : List (List Char)) (last : List Char) (more : List (List Char))
    (t : Token) (next : Scanner) : Prop where
  step : s.step = .token t next
  kind : ∃ code, Text.dedent body = some code ∧ t.kind = .passthrough f.language (String.ofList code)
  text : t.text.toList = Text.joinLines (s.currentLine :: (body ++ [last]))
  rest : next.rest = more.flatMap ('\n' :: ·)
  line : next.pos.line = s.pos.line + body.length + 1

/-- **A closed block is taken** up to its first closing line. -/
theorem Encloses.step (h : s.Encloses f body last more) (hplain : Text.PlainBlanks body) :
    ∃ t next, s.TakesOver f body last more t next := by
  obtain ⟨code, hcode⟩ := Option.ne_none_iff_exists'.mp (Text.dedent_ne_none hplain)
  have hinside : ∀ l ∈ body, f.closes l = false := fun l hl => beq_false_of_ne (h.inside l hl)
  have hspans : s.Spans f body last more := ⟨h.lines, hinside, beq_iff_eq.mpr h.closing⟩
  have hfence := fence?_eq_some_iff.mpr ⟨h.lineStart, h.depth, h.opening⟩
  -- the text from the opening line to the closing one is the front of the rest
  have hrest : s.rest = Text.joinLines (s.currentLine :: (body ++ [last])) ++ more.flatMap ('\n' :: ·) := by
    rw [← Text.joinLines_splitLines s.rest, h.lines, Text.joinLines_cons, Text.joinLines_cons]
    simp
  have hcount : (Text.joinLines (s.currentLine :: (body ++ [last]))).count '\n' = body.length + 1 := by
    rw [Text.count_joinLines]
    · simp
    · intro l hl
      have hmem : l ∈ Text.splitLines s.rest := by
        rw [h.lines]
        rcases List.mem_cons.mp hl with rfl | hl
        · exact List.mem_cons_self
        · refine List.mem_cons_of_mem _ ?_
          rcases List.mem_append.mp hl with hl | hl
          · exact List.mem_append_left _ hl
          · obtain rfl := List.mem_singleton.mp hl
            exact List.mem_append_right _ List.mem_cons_self
      exact (Text.mem_splitLines hmem).1
  refine ⟨_, _, steps_iff.mp (.fence hfence (.block hspans hcode)), ⟨code, hcode, rfl⟩, String.toList_ofList, ?_, ?_⟩
  · show s.rest.drop (Text.joinLines (s.currentLine :: (body ++ [last]))).length = _
    rw [hrest, List.drop_left]
  · show (s.pos.advance (Text.joinLines (s.currentLine :: (body ++ [last])))).line = _
    rw [Position.line_advance, hcount, Nat.add_assoc]

/-! ## Runs -/

/-- **What a run gives stands where it starts or below.** -/
theorem line_le_of_run {fuel : Nat} (hfuel : s.rest.length < fuel) :
    (∀ u ∈ (run fuel s).1, s.pos.line ≤ u.pos.line) ∧
    ∀ p issue, (run fuel s).2 = some (.lex p issue) → s.pos.line ≤ p.line := by
  obtain ⟨ts, s', hs, hend⟩ := exists_scans hfuel
  generalize run fuel s = r at hend ⊢
  cases hend with
  | finish hrest =>
    refine ⟨fun u hu => ?_, nofun⟩
    rcases List.mem_append.mp hu with hu | hu
    · exact (hs.token_bounds u hu).2.1
    · obtain rfl := List.mem_singleton.mp hu
      exact hs.line_le
  | fail hstep =>
    refine ⟨fun u hu => (hs.token_bounds u hu).2.1, fun p issue he => ?_⟩
    obtain rfl := Option.some.inj he
    rcases step_fail hstep with ⟨p', issue', heq, hahead⟩ | ⟨heq, -⟩
    · cases heq
      exact hs.line_le.trans hahead.line_eq.ge
    · nomatch heq

end Scanner

/-! ## Texts -/

namespace Token

/-- **Fenced blocks are taken over verbatim.** A block whose blank lines are plain is cut to one line for each of its
    lines, all of them by as many spaces and tabs as those that are not blank have in common. Where the lexer comes to
    such a block, it takes it up to the first line that closes its fence. The tokens of the text are those before the
    block, the block itself, and those of a run over the text after its closing line: none stands on a line in between,
    and no failure of the lexer does. -/
theorem blocks_verbatim (source : String) :
    (∀ lines, Text.PlainBlanks lines →
      ∃ k outs, Text.dedent lines = some (outs.flatMap (· ++ ['\n'])) ∧ Text.Dedented k lines outs) ∧
    ∀ ts s f body last more, (Scanner.start source.toList).Scans ts s → s.Encloses f body last more →
      Text.PlainBlanks body →
      ∃ t next fuel, s.TakesOver f body last more t next ∧ next.rest.length < fuel ∧
        scan source = (ts ++ t :: (Scanner.run fuel next).1, (Scanner.run fuel next).2) ∧
        (∀ u ∈ ts, u.pos.line ≤ s.pos.line) ∧
        (∀ u ∈ (Scanner.run fuel next).1, s.pos.line + body.length + 1 ≤ u.pos.line) ∧
        ∀ p issue, (Scanner.run fuel next).2 = some (.lex p issue) → s.pos.line + body.length + 1 ≤ p.line := by
  refine ⟨fun lines hplain => Text.dedented_of_plainBlanks hplain, fun ts s f body last more hscans hblock hplain => ?_⟩
  obtain ⟨t, next, htakes⟩ := hblock.step hplain
  have hthrough : (Scanner.start source.toList).Scans (ts ++ [t]) next :=
    hscans.append (.one (Scanner.result_of_token htakes.step))
  obtain ⟨fuel, hfuel, hrun⟩ := Scanner.run_of_scans_append hthrough (Nat.lt_succ_self _)
  have hafter := Scanner.line_le_of_run hfuel
  rw [htakes.line] at hafter
  refine ⟨t, next, fuel, htakes, hfuel, ?_, fun u hu => (hscans.token_bounds u hu).2.2, hafter.1, hafter.2⟩
  rw [List.append_assoc] at hrun
  exact hrun

/-- A quote that nothing closes and a character that starts no token are taken over, with a blank line between them. -/
theorem blocks_verbatim_lone_quote :
    (Scanner.start "lua:\n \"\n\n  $\nend_lua\nx".toList).Encloses ⟨"lua:", "end_lua", "lua"⟩
      [[' ', '"'], [], [' ', ' ', '$']] "end_lua".toList [['x']] ∧
    Text.PlainBlanks [[' ', '"'], [], [' ', ' ', '$']] ∧
    ∃ t next fuel,
      (Scanner.start "lua:\n \"\n\n  $\nend_lua\nx".toList).TakesOver ⟨"lua:", "end_lua", "lua"⟩
        [[' ', '"'], [], [' ', ' ', '$']] "end_lua".toList [['x']] t next ∧
      scan "lua:\n \"\n\n  $\nend_lua\nx" = (t :: (Scanner.run fuel next).1, (Scanner.run fuel next).2) := by
  have hblock : (Scanner.start "lua:\n \"\n\n  $\nend_lua\nx".toList).Encloses ⟨"lua:", "end_lua", "lua"⟩
      [[' ', '"'], [], [' ', ' ', '$']] "end_lua".toList [['x']] :=
    ⟨rfl, rfl, rfl, rfl, by decide, rfl⟩
  have hplain : Text.PlainBlanks [[' ', '"'], [], [' ', ' ', '$']] := by
    intro line hline hblank
    rcases List.mem_cons.mp hline with rfl | hline
    · nomatch hblank
    rcases List.mem_cons.mp hline with rfl | hline
    · nofun
    · obtain rfl := List.mem_singleton.mp hline
      nomatch hblank
  obtain ⟨t, next, fuel, htakes, -, hscan, -⟩ := (blocks_verbatim _).2 _ _ _ _ _ _ .refl hblock hplain
  exact ⟨hblock, hplain, t, next, fuel, htakes, hscan⟩

end Token

end Helios
