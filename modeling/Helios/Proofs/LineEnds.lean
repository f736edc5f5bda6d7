import Helios.Proofs.Sight
import Helios.Proofs.Slices

/-!
# Line ends — carriage returns before line breaks

A text may end its lines with a carriage return and a line break. It parses to the same program as with line breaks
alone (`Stmt.parseProgram_withReturns`).

Every part of the lexer drops the carriage return in its own way. Between tokens it is a blank, in a comment it is one
more character, a fence is looked for in a trimmed line, the lines of a block lose it in `Text.dedent`, and numbers,
words and symbols end before it as they end before a line break. In a string it comes right before a failure.

The two lexers run side by side (`Scanner.Alike`). The second takes a step more at most line ends, to skip the
carriage return (`Scanner.AtBreak`). Otherwise they do the same, and yield the same tokens but for the columns of
separators and the texts of fenced blocks, which the parser does not see (`Token.Recast`).
-/

namespace Helios

/-! ## Texts -/

namespace Text

/-- **A text with a carriage return before every line break.** -/
def withReturns (cs : List Char) : List Char := cs.flatMap fun c => if c = '\n' then ['\r', '\n'] else [c]

variable {c : Char} {cs ds line : List Char}

theorem withReturns_newline (cs : List Char) : withReturns ('\n' :: cs) = '\r' :: '\n' :: withReturns cs := rfl

theorem withReturns_cons (hc : c ≠ '\n') (cs : List Char) : withReturns (c :: cs) = c :: withReturns cs := by
  unfold withReturns
  rw [List.flatMap_cons, if_neg hc]
  rfl

theorem withReturns_append (cs ds : List Char) : withReturns (cs ++ ds) = withReturns cs ++ withReturns ds :=
  List.flatMap_append

/-- Within a line there is nothing to do. -/
theorem withReturns_of_not_mem (h : '\n' ∉ cs) : withReturns cs = cs := by
  induction cs with
  | nil => rfl
  | cons c cs ih =>
    obtain ⟨hc, hcs⟩ := List.ne_and_not_mem_of_not_mem_cons h
    rw [withReturns_cons hc.symm, ih hcs]

/-- A text is one line, or a line, a line break and more. -/
theorem eq_line_or (cs : List Char) : '\n' ∉ cs ∨ ∃ line after, cs = line ++ '\n' :: after ∧ '\n' ∉ line := by
  by_cases h : '\n' ∈ cs
  · obtain ⟨line, after, rfl, hline⟩ := List.eq_append_cons_of_mem h
    exact .inr ⟨line, after, rfl, hline⟩
  · exact .inl h

/-- What stops at both characters stops at the end of a line. -/
theorem takeWhile_withReturns {p : Char → Bool} (hline : p '\n' = false) (hreturn : p '\r' = false) (cs : List Char) :
    (withReturns cs).takeWhile p = cs.takeWhile p := by
  induction cs with
  | nil => rfl
  | cons c cs ih =>
    by_cases hc : c = '\n'
    · subst hc
      rw [withReturns_newline, List.takeWhile_cons_of_neg (by simp [hreturn]),
        List.takeWhile_cons_of_neg (by simp [hline])]
    · rw [withReturns_cons hc, List.takeWhile_cons, List.takeWhile_cons, ih]

theorem dropWhile_withReturns {p : Char → Bool} (hline : p '\n' = false) (hreturn : p '\r' = false) (cs : List Char) :
    (withReturns cs).dropWhile p = withReturns (cs.dropWhile p) := by
  induction cs with
  | nil => rfl
  | cons c cs ih =>
    by_cases hc : c = '\n'
    · subst hc
      rw [withReturns_newline, List.dropWhile_cons_of_neg (by simp [hreturn]),
        List.dropWhile_cons_of_neg (by simp [hline]), withReturns_newline]
    · rw [withReturns_cons hc, List.dropWhile_cons, List.dropWhile_cons, ih]
      split
      · rfl
      · rw [withReturns_cons hc]

/-- The text after a front that lies in one line. -/
theorem drop_withReturns (hfront : ds <+: cs) (hline : '\n' ∉ ds) :
    (withReturns cs).drop ds.length = withReturns (cs.drop ds.length) := by
  obtain ⟨after, rfl⟩ := hfront
  rw [withReturns_append, withReturns_of_not_mem hline, List.drop_left, List.drop_left]

/-! ## Lines -/

theorem trimEnd_return (line : List Char) : trimEnd (line ++ ['\r']) = trimEnd line := by
  unfold trimEnd
  rw [List.reverse_append, List.reverse_singleton, List.singleton_append, List.dropWhile_cons_of_pos (by decide)]

/-- **A carriage return at the end of a line is trimmed.** -/
theorem trim_return (line : List Char) : trim (line ++ ['\r']) = trim line := by
  unfold trim trimStart
  rw [List.dropWhile_append]
  split
  · next hblank =>
    rw [List.isEmpty_iff.mp hblank]
    rfl
  · exact trimEnd_return _

theorem indentOf_return (line : List Char) : indentOf (line ++ ['\r']) = indentOf line := by
  unfold indentOf
  rw [List.takeWhile_append]
  split
  · next hall => rw [List.takeWhile_cons_of_neg (by decide), List.append_nil, hall]
  · rfl

theorem dropReturn_of_not_mem (h : '\r' ∉ line) : dropReturn line = line :=
  if_neg fun heq => h (List.mem_of_getLast? heq)

theorem dropReturn_return (line : List Char) : dropReturn (line ++ ['\r']) = line := by
  unfold dropReturn
  rw [List.getLast?_concat, if_pos rfl, List.dropLast_concat]

theorem commonIndent_return (lines : List (List Char)) :
    commonIndent (lines.map (· ++ ['\r'])) = commonIndent lines := by
  unfold commonIndent
  rw [List.filter_map, List.map_map]
  have hindent : indentOf ∘ (· ++ ['\r']) = indentOf := funext indentOf_return
  have hblank : (fun l => decide (trim l ≠ [])) ∘ (· ++ ['\r']) = fun l => decide (trim l ≠ []) :=
    funext fun l => by rw [Function.comp_apply, trim_return]
  rw [hindent, hblank]

/-- **A block loses the carriage returns of its lines.** -/
theorem dedent_return {lines : List (List Char)} (h : ∀ l ∈ lines, '\r' ∉ l) :
    dedent (lines.map (· ++ ['\r'])) = dedent lines := by
  unfold dedent
  rw [commonIndent_return]
  generalize commonIndent lines = indent
  congr 1
  induction lines with
  | nil => rfl
  | cons line lines ih =>
    obtain ⟨hline, hlines⟩ := List.forall_mem_cons.mp h
    have hone : dedentLine indent (line ++ ['\r']) = dedentLine indent line := by
      unfold dedentLine
      rw [dropReturn_return, dropReturn_of_not_mem hline]
    rw [List.map_cons, List.mapM_cons, List.mapM_cons, hone, ih hlines]

/-- Lines with a carriage return at the end of each but the last. -/
def returnLines : List (List Char) → List (List Char)
  | [] => []
  | [line] => [line]
  | line :: next :: rest => (line ++ ['\r']) :: returnLines (next :: rest)

theorem returnLines_cons (line : List Char) {rest : List (List Char)} (h : rest ≠ []) :
    returnLines (line :: rest) = (line ++ ['\r']) :: returnLines rest := by
  obtain ⟨next, rest, rfl⟩ := List.exists_cons_of_ne_nil h
  rfl

theorem splitLines_withReturns (cs : List Char) : splitLines (withReturns cs) = returnLines (splitLines cs) := by
  induction cs with
  | nil => rfl
  | cons c cs ih =>
    by_cases hc : c = '\n'
    · subst hc
      have hlines : splitLines ('\n' :: cs) = [] :: splitLines cs := rfl
      rw [withReturns_newline, hlines, returnLines_cons _ (splitLines_ne_nil cs), ← ih]
      rfl
    · rw [withReturns_cons hc, splitLines, splitLines, if_neg hc, if_neg hc, ih]
      obtain ⟨line, rest, hlines⟩ := List.exists_cons_of_ne_nil (splitLines_ne_nil cs)
      rw [hlines]
      cases rest with
      | nil => rfl
      | cons next rest => rfl

theorem returnLines_append (ls : List (List Char)) {more : List (List Char)} (h : more ≠ []) :
    returnLines (ls ++ more) = ls.map (· ++ ['\r']) ++ returnLines more := by
  induction ls with
  | nil => rfl
  | cons l ls ih =>
    rw [List.cons_append, returnLines_cons l (by simp [h]), ih]
    rfl

theorem mem_returnLines {l : List Char} {ls : List (List Char)} (h : l ∈ returnLines ls) :
    ∃ line ∈ ls, l = line ∨ l = line ++ ['\r'] := by
  rcases List.eq_nil_or_concat ls with rfl | ⟨ls, last, rfl⟩
  · nomatch h
  · rw [List.concat_eq_append, returnLines_append ls (List.cons_ne_nil last [])] at h
    rcases List.mem_append.mp h with h | h
    · obtain ⟨line, hline, rfl⟩ := List.mem_map.mp h
      exact ⟨line, by simp [hline], .inr rfl⟩
    · obtain rfl := List.mem_singleton.mp h
      exact ⟨l, by simp, .inl rfl⟩

theorem mem_splitLines {l : List Char} (h : l ∈ splitLines cs) : '\n' ∉ l ∧ ∀ c ∈ l, c ∈ cs := by
  induction cs generalizing l with
  | nil =>
    obtain rfl := List.mem_singleton.mp h
    exact ⟨nofun, nofun⟩
  | cons c cs ih =>
    obtain ⟨line, rest, hlines⟩ := List.exists_cons_of_ne_nil (splitLines_ne_nil cs)
    rw [hlines] at ih
    rw [splitLines, hlines] at h
    -- a line of the rest, or the first one with one more character
    have hrest {l : List Char} (hl : l ∈ line :: rest) : '\n' ∉ l ∧ ∀ d ∈ l, d ∈ c :: cs :=
      ⟨(ih hl).1, fun d hd => List.mem_cons_of_mem c ((ih hl).2 d hd)⟩
    split at h
    · rcases List.mem_cons.mp h with rfl | h
      · exact ⟨nofun, nofun⟩
      · exact hrest h
    · next hc =>
      rcases List.mem_cons.mp h with rfl | h
      · obtain ⟨hline, hmem⟩ := hrest List.mem_cons_self
        refine ⟨by simpa [Ne.symm hc] using hline, fun d hd => ?_⟩
        rcases List.mem_cons.mp hd with rfl | hd
        · exact List.mem_cons_self
        · exact hmem d hd
      · exact hrest (List.mem_cons_of_mem line h)

theorem joinLines_append {ls more : List (List Char)} (hls : ls ≠ []) (hmore : more ≠ []) :
    joinLines (ls ++ more) = joinLines ls ++ '\n' :: joinLines more := by
  induction ls with
  | nil => exact absurd rfl hls
  | cons l ls ih =>
    cases ls with
    | nil =>
      obtain ⟨next, rest, rfl⟩ := List.exists_cons_of_ne_nil hmore
      rfl
    | cons l' ls =>
      have hrest := ih (List.cons_ne_nil l' ls)
      rw [List.cons_append, List.cons_append, joinLines_cons_cons, joinLines_cons_cons, List.append_assoc,
        List.cons_append, ← List.cons_append, hrest]

/-- A text without line breaks is one line. -/
theorem splitLines_of_not_mem (h : '\n' ∉ line) : splitLines line = [line] := by
  induction line with
  | nil => rfl
  | cons c cs ih =>
    obtain ⟨hc, hcs⟩ := not_or.mp (List.mem_cons.not.mp h)
    rw [splitLines, if_neg (Ne.symm hc), ih hcs]

/-- **Lines put together are cut into the same lines.** -/
theorem splitLines_joinLines {ls : List (List Char)} (hls : ls ≠ []) (h : ∀ l ∈ ls, '\n' ∉ l) :
    splitLines (joinLines ls) = ls := by
  induction ls with
  | nil => exact absurd rfl hls
  | cons l ls ih =>
    obtain ⟨hl, hrest⟩ := List.forall_mem_cons.mp h
    cases ls with
    | nil => exact splitLines_of_not_mem hl
    | cons next rest =>
      rw [joinLines_cons_cons, splitLines_append, splitLines_of_not_mem hl, ih (List.cons_ne_nil next rest) hrest]
      rfl

/-- Lines that a line break follows. -/
theorem joinLines_return {ls : List (List Char)} (hls : ls ≠ []) (h : ∀ l ∈ ls, '\n' ∉ l) :
    joinLines (ls.map (· ++ ['\r'])) = withReturns (joinLines ls) ++ ['\r'] := by
  induction ls with
  | nil => exact absurd rfl hls
  | cons l ls ih =>
    obtain ⟨hl, hrest⟩ := List.forall_mem_cons.mp h
    cases ls with
    | nil =>
      show l ++ ['\r'] = withReturns l ++ ['\r']
      rw [withReturns_of_not_mem hl]
    | cons l' ls =>
      have hjoin := ih (List.cons_ne_nil l' ls) hrest
      rw [List.map_cons] at hjoin
      rw [List.map_cons, List.map_cons, joinLines_cons_cons, hjoin, joinLines_cons_cons, withReturns_append,
        withReturns_of_not_mem hl, withReturns_newline]
      simp

end Text

/-! ## Literals and symbols -/

namespace Scanner

open Text

variable {c : Char} {cs : List Char}

theorem close_withReturns (wrap : List Char → NumberText) (text rest : List Char) :
    NumberText.close wrap text (withReturns rest) = NumberText.close wrap text rest := by
  unfold NumberText.close
  rw [takeWhile_withReturns isWordChar_newline (by decide)]

/-- What does not start with a point does not with carriage returns either. -/
theorem withReturns_ne_point (hc : c ≠ '.') (cs : List Char) :
    ∃ c' cs', withReturns (c :: cs) = c' :: cs' ∧ c' ≠ '.' := by
  by_cases hline : c = '\n'
  · subst hline
    exact ⟨'\r', _, withReturns_newline cs, by decide⟩
  · exact ⟨c, _, withReturns_cons hline cs, hc⟩

theorem afterFraction_withReturns (text rest : List Char) :
    NumberText.afterFraction text (withReturns rest) = NumberText.afterFraction text rest := by
  match rest with
  | [] => rfl
  | c :: rest =>
    by_cases hc : c = '.'
    · subst hc
      rw [withReturns_cons (by decide)]
      match rest with
      | [] => rfl
      | e :: more =>
        by_cases he : e = '\n'
        · subst he
          rfl
        · have hwhile :=
            takeWhile_withReturns (p := fun c => isWordChar c || c == '.') (by decide) (by decide) (e :: more)
          have hclose := close_withReturns .float text ('.' :: e :: more)
          rw [withReturns_cons (by decide), withReturns_cons he] at hclose
          rw [withReturns_cons he] at hwhile ⊢
          rw [NumberText.afterFraction_point, NumberText.afterFraction_point, hwhile, hclose]
    · obtain ⟨c', rest', heq, hc'⟩ := withReturns_ne_point hc rest
      rw [heq, NumberText.afterFraction_of_ne hc', NumberText.afterFraction_of_ne hc, ← heq, close_withReturns]

theorem afterWhole_withReturns (whole rest : List Char) :
    NumberText.afterWhole whole (withReturns rest) = NumberText.afterWhole whole rest := by
  match rest with
  | [] => rfl
  | c :: rest =>
    by_cases hc : c = '.'
    · subst hc
      rw [withReturns_cons (by decide)]
      match rest with
      | [] => rfl
      | d :: more =>
        by_cases hd : d = '\n'
        · subst hd
          rfl
        · have htake := takeWhile_withReturns isDigit_newline (by decide) (d :: more)
          have hdrop := dropWhile_withReturns isDigit_newline (by decide) (d :: more)
          have hclose := close_withReturns .int whole ('.' :: d :: more)
          rw [withReturns_cons (by decide), withReturns_cons hd] at hclose
          rw [withReturns_cons hd] at htake hdrop ⊢
          rw [NumberText.afterWhole_point, NumberText.afterWhole_point, htake, hdrop, hclose,
            afterFraction_withReturns]
    · obtain ⟨c', rest', heq, hc'⟩ := withReturns_ne_point hc rest
      rw [heq, NumberText.afterWhole_of_ne hc', NumberText.afterWhole_of_ne hc, ← heq, close_withReturns]

/-- **A number ends before a carriage return as it does before a line break.** -/
theorem numberText_withReturns (cs : List Char) : numberText (withReturns cs) = numberText cs := by
  rw [numberText_eq, numberText_eq, takeWhile_withReturns isDigit_newline (by decide),
    dropWhile_withReturns isDigit_newline (by decide), afterWhole_withReturns]

theorem ne_backslash (hnil : c = '\\' → cs = [] → False) (hcons : ∀ d ds, c = '\\' → cs = d :: ds → False) :
    c ≠ '\\' := by
  intro hc
  cases cs with
  | nil => exact hnil hc rfl
  | cons d ds => exact hcons d ds hc rfl

/-- **A string that is not closed in its line is not closed**, also when a backslash stands before the carriage
    return. -/
theorem stringText_withReturns {quote : Char} (hquote : quote ≠ '\r') (cs : List Char) :
    stringText quote (withReturns cs) = stringText quote cs := by
  fun_induction stringText quote cs with
  | case1 => rfl
  | case2 => rfl
  | case3 cs =>
    rw [withReturns_cons (by decide), withReturns_newline, stringText, if_neg (by decide), stringText_of_ne (by decide),
      if_pos rfl]
    rfl
  | case4 c cs hc ih => rw [withReturns_cons (by decide), withReturns_cons hc, stringText, if_neg hc, ih]
  | case5 cs hnil hcons =>
    rw [withReturns_newline, stringText_of_ne (by decide), if_neg (by decide), if_neg hquote.symm,
      stringText_of_ne (by decide), if_pos rfl]
    rfl
  | case6 cs hnil hcons hline =>
    rw [withReturns_cons hline, stringText_of_ne (ne_backslash hnil hcons), if_neg hline, if_pos rfl]
  | case7 c cs hnil hcons hline hne ih =>
    rw [withReturns_cons hline, stringText_of_ne (ne_backslash hnil hcons), if_neg hline, if_neg hne, ih]

theorem symbol?_withReturns (c : Char) (cs : List Char) : symbol? c (withReturns cs).head? = symbol? c cs.head? := by
  cases cs with
  | nil => rfl
  | cons d cs =>
    by_cases hd : d = '\n'
    · subst hd
      unfold symbol?
      split <;> rfl
    · rw [withReturns_cons hd]
      rfl

/-! ## Steps -/

/-- The lexer at the same place of the text with carriage returns. -/
def returned (s : Scanner) : Scanner := { s with rest := withReturns s.rest }

/-- **The two lexers before a line break**, the second of them past the carriage return. -/
structure AtBreak (s s' : Scanner) : Prop where
  rest : ∃ after, s.rest = '\n' :: after ∧ s'.rest = '\n' :: withReturns after
  line : s'.pos.line = s.pos.line
  depth : s'.depth = s.depth
  separated : s'.afterSeparator = s.afterSeparator

/-- **The two lexers at one place.** -/
def Alike (s s' : Scanner) : Prop := s' = s.returned ∨ s.AtBreak s'

end Scanner

/-- **Steps that do the same.** A token that is recast ends its line. -/
inductive Step.Alike : Step → Step → Prop
  | skip {next next' : Scanner} (h : next.Alike next') : Alike (.skip next) (.skip next')
  | token {t : Token} {next next' : Scanner} (h : next.Alike next') : Alike (.token t next) (.token t next')
  | recast {t u : Token} {next next' : Scanner} (htu : t.Recast u) (hline : t.pos.line < next.pos.line)
    (h : next.Alike next') : Alike (.token t next) (.token u next')
  | finish {t : Token} : Alike (.finish t) (.finish t)
  | fail {e e' : Error} : Alike (.fail e) (.fail e')

namespace Scanner

open Text

variable {s s' : Scanner} {c : Char} {cs : List Char}

theorem advance_withReturns (p : Position) (cs : List Char) : p.advance (withReturns cs) = p.advance cs := by
  induction cs generalizing p with
  | nil => rfl
  | cons c cs ih =>
    by_cases hc : c = '\n'
    · subst hc
      rw [withReturns_newline, Position.advance_cons, Position.advance_cons, ih]
      rfl
    · rw [withReturns_cons hc, Position.advance_cons, Position.advance_cons, ih]

theorem Alike.withSeparator (h : s.Alike s') (separated : Bool) :
    Alike { s with afterSeparator := separated } { s' with afterSeparator := separated } := by
  rcases h with rfl | ⟨hrest, hline, hdepth, -⟩
  · exact .inl rfl
  · exact .inr ⟨hrest, hline, hdepth, rfl⟩

/-- Going past what lies in one line. -/
theorem skipOver_returned (hfront : cs <+: s.rest) (hline : '\n' ∉ cs) :
    s.returned.skipOver cs = (s.skipOver cs).returned := by
  unfold skipOver returned
  dsimp only
  rw [drop_withReturns hfront hline]

/-- Going past all that is left. -/
theorem skipOver_all (hrest : s.rest = cs) : s.returned.skipOver (withReturns cs) = (s.skipOver cs).returned := by
  subst hrest
  unfold skipOver returned
  dsimp only
  rw [List.drop_length, List.drop_length, advance_withReturns]
  rfl

/-- Going up to a line break, past the carriage return. -/
theorem skipOver_line {after : List Char} (hrest : s.rest = cs ++ '\n' :: after) :
    (s.skipOver cs).AtBreak (s.returned.skipOver (withReturns cs ++ ['\r'])) where
  rest := by
    have hrest' : s.returned.rest = (withReturns cs ++ ['\r']) ++ '\n' :: withReturns after := by
      show withReturns s.rest = _
      rw [hrest, withReturns_append, withReturns_newline, List.append_assoc]
      rfl
    refine ⟨after, ?_, ?_⟩
    · show s.rest.drop cs.length = _
      rw [hrest, List.drop_left]
    · show s.returned.rest.drop (withReturns cs ++ ['\r']).length = _
      rw [hrest', List.drop_left]
  line := by
    show (s.pos.advance (withReturns cs ++ ['\r'])).line = (s.pos.advance cs).line
    rw [Position.advance_append, advance_withReturns]
    rfl
  depth := rfl
  separated := rfl

theorem takeWhile_line {line : List Char} (hline : '\n' ∉ line) (after : List Char) :
    (line ++ '\n' :: after).takeWhile (· ≠ '\n') = line := by
  rw [(seam_newline after).takeWhile_append (by decide), List.takeWhile_eq_self_iff]
  intro c hc
  simpa using ne_of_mem_of_not_mem hc hline

/-- The current line is all that is left, or it has a carriage return more before its line break. -/
theorem currentLine_returned (s : Scanner) :
    (s.rest = s.currentLine ∧ s.returned.currentLine = s.currentLine) ∨
    ∃ after, s.rest = s.currentLine ++ '\n' :: after ∧ s.returned.currentLine = s.currentLine ++ ['\r'] := by
  unfold currentLine returned
  dsimp only
  rcases eq_line_or s.rest with hall | ⟨line, after, heq, hline⟩
  · rw [withReturns_of_not_mem hall]
    refine .inl ⟨(List.takeWhile_eq_self_iff.mpr fun c hc => ?_).symm, rfl⟩
    simpa using ne_of_mem_of_not_mem hc hall
  · have hline' : '\n' ∉ line ++ ['\r'] := by simpa using hline
    have hrest' : withReturns s.rest = (line ++ ['\r']) ++ '\n' :: withReturns after := by
      rw [heq, withReturns_append, withReturns_newline, withReturns_of_not_mem hline, List.append_assoc]
      rfl
    rw [hrest', takeWhile_line hline', heq, takeWhile_line hline]
    exact .inr ⟨after, rfl, rfl⟩

theorem newline_not_mem_currentLine (s : Scanner) : '\n' ∉ s.currentLine := by
  intro hmem
  simpa using List.mem_takeWhile_imp hmem

theorem opening?_returned (s : Scanner) : Fence.opening? s.returned.currentLine = Fence.opening? s.currentLine := by
  unfold Fence.opening?
  rcases s.currentLine_returned with ⟨-, heq⟩ | ⟨_, -, heq⟩ <;> rw [heq]
  rw [trim_return]

/-- **A comment** ends at the line break, past the carriage return. -/
theorem comment_returned (s : Scanner) :
    (s.skipOver s.currentLine).Alike (s.returned.skipOver s.returned.currentLine) := by
  have hline := withReturns_of_not_mem s.newline_not_mem_currentLine
  rcases s.currentLine_returned with ⟨hrest, heq⟩ | ⟨after, hrest, heq⟩
  · have hall := skipOver_all hrest
    rw [hline] at hall
    exact .inl (by rw [heq, hall])
  · have hbreak := skipOver_line hrest
    rw [hline] at hbreak
    exact .inr (by rwa [heq])

section Character

variable {chars : List Char} {kind : TokenKind} {line : Bool} (hc : c ≠ '\n')
include hc

theorem Lexeme.returned (h : s.Lexeme c cs kind chars line) (hreturn : c ≠ '\r') :
    s.returned.Lexeme c (withReturns cs) kind chars line := by
  have hcons : withReturns (c :: cs) = c :: withReturns cs := withReturns_cons hc cs
  cases h with
  | lineBreak hline => exact absurd hline hc
  | semicolon hsemicolon hseparates => exact .semicolon hsemicolon hseparates
  | string hquote ht => exact .string hquote ((stringText_withReturns hreturn cs).trans ht)
  | number hdigit hkind =>
    have hsame := numberText_withReturns (c :: cs)
    rw [hcons] at hsame
    rw [← hsame] at hkind ⊢
    exact .number hdigit hkind
  | word hword =>
    have hsame := takeWhile_withReturns (p := isWordChar) isWordChar_newline (by decide) (c :: cs)
    rw [hcons] at hsame
    rw [← hsame]
    exact .word hword
  | @symbol sym two hsym =>
    have hsame : (c :: withReturns cs).take (if two then 2 else 1) = (c :: cs).take (if two then 2 else 1) := by
      cases two with
      | false => rfl
      | true =>
        -- the second character is no line break either
        obtain ⟨more, rfl⟩ : ∃ more, cs = '=' :: more := List.head?_eq_some_iff.mp (symbol?_two hsym)
        rw [withReturns_cons (by decide)]
        rfl
    rw [← hsame]
    exact .symbol ((symbol?_withReturns c cs).trans hsym)

theorem Rejects.returned {issue : LexIssue} (h : Rejects c cs issue) (hreturn : c ≠ '\r') :
    Rejects c (withReturns cs) issue := by
  cases h with
  | string hquote ht => exact .string hquote ((stringText_withReturns hreturn cs).trans ht)
  | number hdigit hkind =>
    have hsame := numberText_withReturns (c :: cs)
    rw [withReturns_cons hc] at hsame
    rw [← hsame] at hkind ⊢
    exact .number hdigit hkind
  | other hother hsym => exact .other hother ((symbol?_withReturns c cs).trans hsym)

/-- **A character that is no line break starts the same.** -/
theorem Starts.returned {r : Step} (h : s.Starts c cs r) (hrest : s.rest = c :: cs) (hreturn : c ≠ '\r') :
    Step.Alike r (s.returned.stepChar c (withReturns cs)) := by
  have hone : [c] <+: s.rest := ⟨cs, hrest.symm⟩
  have hsingle : '\n' ∉ [c] := by simpa using hc.symm
  cases h with
  | skip hignores =>
    cases hignores with
    | blank hblank =>
      rw [(Ignores.blank hblank).stepChar_eq, skipOver_returned hone hsingle]
      exact .skip (.inl rfl)
    | comment hcomment =>
      rw [(Ignores.comment hcomment).stepChar_eq]
      exact .skip s.comment_returned
    | lineBreak hline => exact absurd hline hc
    | semicolon hsemicolon hseparated =>
      have hthere : s.returned.Ignores c [c] false := .semicolon hsemicolon hseparated
      rw [hthere.stepChar_eq, skipOver_returned hone hsingle]
      exact .skip (.inl rfl)
  | token hlexeme =>
    have hskip := skipOver_returned (hrest ▸ hlexeme.front.2) (hlexeme.newline_not_mem hc)
    rw [(hlexeme.returned hc hreturn).stepChar_eq, hskip]
    exact .token (.inl rfl)
  | fail hrejects =>
    rw [(hrejects.returned hc hreturn).stepChar_eq]
    exact .fail

end Character

theorem fence?_returned (s : Scanner) : s.returned.fence? = s.fence? := by
  unfold fence?
  rw [opening?_returned]
  rfl

/-- At a line break there is no fence. -/
theorem fence?_newline {after : List Char} (hrest : s.rest = '\n' :: after) : s.fence? = none := by
  have hopening : Fence.opening? s.currentLine = none := by
    unfold currentLine
    rw [hrest]
    rfl
  unfold fence?
  rw [hopening, ite_self]

/-- **At a line break** the lexers do the same: one yields a separator if the other does. -/
theorem step_atBreak (h : s.AtBreak s') : Step.Alike s.step s'.step := by
  obtain ⟨⟨after, hrest, hrest'⟩, hline, hdepth, hseparated⟩ := h
  rw [step_of_char (fence?_newline hrest) hrest, step_of_char (fence?_newline hrest') hrest']
  -- the next line starts at the same place
  have hnext {separated separated' : Bool} (heq : separated' = separated) :
      Alike ⟨s.rest.drop 1, s.pos.advance ['\n'], s.depth, true, separated⟩
        ⟨s'.rest.drop 1, s'.pos.advance ['\n'], s'.depth, true, separated'⟩ := by
    refine .inl ?_
    have hpos : s'.pos.advance ['\n'] = s.pos.advance ['\n'] := congrArg (fun line => Position.mk (line + 1) 1) hline
    rw [hpos, hrest, hrest', hdepth, heq]
    rfl
  by_cases hsep : s.depth = 0 ∧ !s.afterSeparator
  · have hsep' : s'.depth = 0 ∧ !s'.afterSeparator := by rwa [hdepth, hseparated]
    rw [(Lexeme.lineBreak rfl hsep).stepChar_eq, (Lexeme.lineBreak rfl hsep').stepChar_eq]
    exact .recast ⟨rfl, rfl, hline⟩ (Nat.lt_succ_self _) (hnext rfl)
  · have hsep' : ¬ (s'.depth = 0 ∧ !s'.afterSeparator) := by rwa [hdepth, hseparated]
    rw [(Ignores.lineBreak rfl hsep).stepChar_eq, (Ignores.lineBreak rfl hsep').stepChar_eq]
    exact .skip (hnext hseparated)

/-- Before a line break the second lexer skips the carriage return. -/
theorem step_return {after : List Char} (hrest : s.rest = '\n' :: after) :
    ∃ next, s.returned.step = .skip next ∧ s.AtBreak next := by
  have hrest' : s.returned.rest = '\r' :: '\n' :: withReturns after := by
    show withReturns s.rest = _
    rw [hrest, withReturns_newline]
  have hfront : s.rest = [] ++ '\n' :: after := hrest
  have hskip := skipOver_line hfront
  refine ⟨s.returned.skipOver ['\r'], ?_, hskip.rest, hskip.line, rfl, rfl⟩
  have hblank : s.returned.Ignores '\r' ['\r'] false := .blank (by decide)
  rw [step_of_char (s.fence?_returned.trans (fence?_newline hrest)) hrest', hblank.stepChar_eq]
  rfl

theorem closes_return (f : Fence) (line : List Char) : f.closes (line ++ ['\r']) = f.closes line := by
  unfold Fence.closes
  rw [trim_return]

/-- Going past some of the lines, the last of which has a carriage return if a line break follows it. -/
theorem skipOver_lines {body more more' : List (List Char)} {last last' : List Char}
    (hlines : splitLines s.rest = body ++ last :: more) (hlast : returnLines (last :: more) = last' :: more') :
    (s.skipOver (joinLines (body ++ [last]))).Alike
      (s.returned.skipOver (joinLines (body.map (· ++ ['\r']) ++ [last']))) := by
  have hjoin : s.rest = joinLines (body ++ last :: more) := by rw [← hlines, joinLines_splitLines]
  cases more with
  | nil =>
    obtain ⟨rfl, -⟩ := List.cons.inj hlast
    -- these are all the lines
    have hreturned : joinLines (body.map (· ++ ['\r']) ++ [last]) = withReturns (joinLines (body ++ [last])) := by
      rw [← hjoin, ← joinLines_splitLines (withReturns s.rest), splitLines_withReturns, hlines,
        returnLines_append body (List.cons_ne_nil last [])]
      rfl
    rw [hreturned]
    exact .inl (skipOver_all hjoin)
  | cons next rest =>
    obtain ⟨rfl, -⟩ := List.cons.inj hlast
    have hsplit : body ++ last :: next :: rest = (body ++ [last]) ++ next :: rest := by simp
    have hinline : ∀ l ∈ body ++ [last], '\n' ∉ l := by
      intro l hl
      have hmem : l ∈ splitLines s.rest := by
        rw [hlines, hsplit]
        exact List.mem_append_left _ hl
      exact (mem_splitLines hmem).1
    have hreturned := joinLines_return (by simp) hinline
    rw [List.map_append, List.map_singleton] at hreturned
    rw [hreturned]
    have hrest : s.rest = joinLines (body ++ [last]) ++ '\n' :: joinLines (next :: rest) := by
      rw [hjoin, hsplit, joinLines_append (by simp) (by simp)]
    exact .inr (skipOver_line hrest)

/-- **A block lies ahead alike**, a carriage return more at the end of its lines. -/
theorem Spans.returned {f : Fence} {body more : List (List Char)} {last : List Char} (h : s.Spans f body last more) :
    ∃ last' more', returnLines (last :: more) = last' :: more' ∧
      s.returned.currentLine = s.currentLine ++ ['\r'] ∧ s.returned.Spans f (body.map (· ++ ['\r'])) last' more' := by
  obtain ⟨last', more', hreturn, hlast⟩ : ∃ last' more', returnLines (last :: more) = last' :: more' ∧
      f.closes last' = f.closes last := by
    cases more with
    | nil => exact ⟨last, [], rfl, rfl⟩
    | cons next rest => exact ⟨_, _, rfl, closes_return f last⟩
  have hlines : splitLines s.returned.rest =
      (s.currentLine ++ ['\r']) :: (body.map (· ++ ['\r']) ++ last' :: more') := by
    show splitLines (withReturns s.rest) = _
    rw [splitLines_withReturns, h.lines, returnLines_cons _ (by simp),
      returnLines_append body (List.cons_ne_nil last more), hreturn]
  have hfirst : s.currentLine ++ ['\r'] = s.returned.currentLine := splitLines_eq_cons hlines
  refine ⟨last', more', hreturn, hfirst.symm, hfirst ▸ hlines, fun l hl => ?_, hlast.trans h.closing⟩
  obtain ⟨line, hline, rfl⟩ := List.mem_map.mp hl
  rw [closes_return]
  exact h.inside line hline

/-- **A fenced block is taken alike**, without the carriage returns. -/
theorem Fences.returned {f : Fence} {r : Step} (h : s.Fences f r) (hclean : '\r' ∉ s.rest) :
    Step.Alike r (s.returned.fencedBlock f) := by
  -- the lines of a block have no carriage return of their own
  have hdedent {body more : List (List Char)} {last : List Char} (h : s.Spans f body last more) :
      dedent (body.map (· ++ ['\r'])) = dedent body :=
    dedent_return fun l hl hmem => hclean ((mem_splitLines (by rw [h.lines]; simp [hl])).2 _ hmem)
  cases h with
  | unclosed hopen =>
    have hopen' : ∀ l ∈ (splitLines s.returned.rest).tail, f.closes l = false := by
      intro l hl
      obtain ⟨later, hlines⟩ := s.splitLines_rest
      rw [hlines] at hopen
      have hl : l ∈ returnLines later := by
        have hsplit : splitLines s.returned.rest = returnLines (s.currentLine :: later) := by
          rw [← hlines]
          exact splitLines_withReturns s.rest
        rw [hsplit] at hl
        cases later <;> exact hl
      obtain ⟨line, hline, rfl | rfl⟩ := mem_returnLines hl
      · exact hopen l hline
      · rw [closes_return]
        exact hopen line hline
    rw [(Fences.unclosed hopen').fencedBlock_eq]
    exact .fail
  | torn hspans hcut =>
    obtain ⟨last', more', -, -, hthere⟩ := hspans.returned
    rw [(Fences.torn hthere ((hdedent hspans).trans hcut)).fencedBlock_eq]
    exact .fail
  | @block body more last code hspans hcut =>
    obtain ⟨last', more', hreturn, hfirst, hthere⟩ := hspans.returned
    rw [(Fences.block hthere ((hdedent hspans).trans hcut)).fencedBlock_eq]
    have htext : s.returned.blockText (body.map (· ++ ['\r'])) last' =
        joinLines ((s.currentLine :: body).map (· ++ ['\r']) ++ [last']) := by
      unfold blockText
      rw [hfirst]
      rfl
    have hlines : splitLines s.rest = (s.currentLine :: body) ++ last :: more := hspans.lines
    have hnext := skipOver_lines hlines hreturn
    rw [← htext] at hnext
    refine .recast ⟨rfl, rfl, rfl⟩ ?_ (hnext.withSeparator false)
    -- the closing line is a later one
    show s.pos.line < (s.pos.advance (joinLines ((s.currentLine :: body) ++ [last]))).line
    rw [Position.line_advance, joinLines_append (List.cons_ne_nil s.currentLine body) (List.cons_ne_nil last []),
      List.count_append, List.count_cons_self]
    omega

/-- **A step at the same place does the same**, if it is not before a line break. -/
theorem step_returned (hclean : '\r' ∉ s.rest) (hline : ∀ after, s.rest ≠ '\n' :: after) :
    Step.Alike s.step s.returned.step := by
  have hsteps := s.steps_step
  generalize s.step = r at hsteps ⊢
  cases hsteps with
  | fence hfence hblock =>
    rw [step_of_fence (s.fence?_returned.trans hfence)]
    exact hblock.returned hclean
  | finish hrest =>
    rw [step_of_rest_nil (s := s.returned) (congrArg withReturns hrest)]
    exact .finish
  | @char c cs _ hfence hrest hstart =>
    have hc : c ≠ '\n' := by
      rintro rfl
      exact hline cs hrest
    have hreturn : c ≠ '\r' := by
      rintro rfl
      exact hclean (hrest ▸ List.mem_cons_self)
    have hrest' : s.returned.rest = c :: withReturns cs := (congrArg withReturns hrest).trans (withReturns_cons hc cs)
    rw [step_of_char (s.fence?_returned.trans hfence) hrest']
    exact hstart.returned hc hrest hreturn

/-! ## Runs -/

/-- **Runs that do the same** from a line on: both fail, or both find the end, with the same tokens but for those that
    are recast. -/
def RunsAlike (line : Nat) (r r' : List Token × Option Error) : Prop :=
  (r.2 ≠ none ∧ r'.2 ≠ none) ∨
  ∃ ts us, ∃ e : Scanner, r = (ts ++ [⟨.eof, "", e.pos⟩], none) ∧ r' = (us ++ [⟨.eof, "", e.pos⟩], none) ∧
    Token.Recasts ⟨.eof, "", e.pos⟩ ts us ∧ line ≤ e.pos.line ∧ ∀ v ∈ ts ++ us, line ≤ v.pos.line

namespace RunsAlike

variable {line line' : Nat} {r r' : List Token × Option Error} {t u : Token}

theorem mono (h : RunsAlike line' r r') (hline : line ≤ line') : RunsAlike line r r' := by
  refine h.imp_right fun ⟨ts, us, e, hr, hr', hrecasts, hstop, hlater⟩ => ?_
  exact ⟨ts, us, e, hr, hr', hrecasts, hline.trans hstop, fun v hv => hline.trans (hlater v hv)⟩

theorem token (h : RunsAlike line r r') (ht : line ≤ t.pos.line) :
    RunsAlike line (t :: r.1, r.2) (t :: r'.1, r'.2) := by
  refine h.imp_right fun ⟨ts, us, e, hr, hr', hrecasts, hstop, hlater⟩ => ?_
  subst hr hr'
  refine ⟨t :: ts, t :: us, e, rfl, rfl, .same t hrecasts, hstop, fun v hv => ?_⟩
  have hv' : v = t ∨ v ∈ ts ++ us := by simpa [or_assoc, or_left_comm] using hv
  exact hv'.elim (fun heq => heq ▸ ht) (hlater v)

theorem recast (h : RunsAlike line' r r') (htu : t.Recast u) (ht : line ≤ t.pos.line) (hline : t.pos.line < line') :
    RunsAlike line (t :: r.1, r.2) (u :: r'.1, r'.2) := by
  refine h.imp_right fun ⟨ts, us, e, hr, hr', hrecasts, hstop, hlater⟩ => ?_
  subst hr hr'
  refine ⟨t :: ts, u :: us, e, rfl, rfl, .recast htu (fun v hv => hline.trans_le (hlater v hv)) (hline.trans_le hstop)
    hrecasts, (ht.trans hline.le).trans hstop, fun v hv => ?_⟩
  have hv' : v = t ∨ v = u ∨ v ∈ ts ++ us := by simpa [or_assoc, or_left_comm] using hv
  rcases hv' with rfl | rfl | hv'
  · exact ht
  · rw [htu.line]
    exact ht
  · exact (ht.trans hline.le).trans (hlater v hv')

end RunsAlike

/-- What is left after a step is the end of what was left before. -/
theorem clean_of_result {o : Option Token} {next : Scanner} (h : s.step.result = some (o, next))
    (hclean : '\r' ∉ s.rest) : '\r' ∉ next.rest := by
  obtain ⟨chars, hrest, -⟩ := (Scans.one h).chars
  rw [hrest] at hclean
  exact fun hmem => hclean (List.mem_append_right _ hmem)

/-- **The two lexers do the same to the end of the text.** The second may take more steps. -/
theorem run_alike {fuel fuel' : Nat} (hclean : '\r' ∉ s.rest) (h : s.Alike s') (hfuel : s.rest.length < fuel)
    (hfuel' : s'.rest.length < fuel') : RunsAlike s.pos.line (run fuel s) (run fuel' s') := by
  induction fuel' generalizing fuel s s' with
  | zero => exact absurd hfuel' (Nat.not_lt_zero _)
  | succ fuel' ih =>
    have hsteps : (∃ next, s'.step = .skip next ∧ s.AtBreak next) ∨ Step.Alike s.step s'.step := by
      rcases h with rfl | hbreak
      · by_cases hline : ∃ after, s.rest = '\n' :: after
        · exact .inl (step_return hline.choose_spec)
        · exact .inr (step_returned hclean (not_exists.mp hline))
      · exact .inr (step_atBreak hbreak)
    rcases hsteps with ⟨next, hstep, hbreak⟩ | hsteps
    · -- a carriage return
      have hshorter := rest_length_lt (result_of_skip hstep)
      rw [run_skip hstep]
      exact ih hclean (.inr hbreak) hfuel (by omega)
    obtain ⟨fuel, rfl⟩ : ∃ n, fuel = n + 1 := ⟨fuel - 1, by omega⟩
    rw [run, run]
    revert hsteps
    generalize hstep : s.step = x
    generalize hstep' : s'.step = y
    intro hsteps
    cases hsteps with
    | @skip next next' hnext =>
      have hshorter := rest_length_lt (result_of_skip hstep)
      have hshorter' := rest_length_lt (result_of_skip hstep')
      have hline := (Scans.one (result_of_skip hstep)).line_le
      exact (ih (clean_of_result (result_of_skip hstep) hclean) hnext (by omega) (by omega)).mono hline
    | @token t next next' hnext =>
      have hshorter := rest_length_lt (result_of_token hstep)
      have hshorter' := rest_length_lt (result_of_token hstep')
      have hone := Scans.one (result_of_token hstep)
      have hfuel₁ : next.rest.length < fuel := by omega
      have hrest := ih (clean_of_result (result_of_token hstep) hclean) hnext hfuel₁ (by omega)
      exact (hrest.mono hone.line_le).token (hone.token_bounds t (List.mem_singleton_self t)).2.1
    | @recast t u next next' htu hline hnext =>
      have hshorter := rest_length_lt (result_of_token hstep)
      have hshorter' := rest_length_lt (result_of_token hstep')
      have hone := Scans.one (result_of_token hstep)
      have hfuel₁ : next.rest.length < fuel := by omega
      have hrest := ih (clean_of_result (result_of_token hstep) hclean) hnext hfuel₁ (by omega)
      exact hrest.recast htu (hone.token_bounds t (List.mem_singleton_self t)).2.1 hline
    | @finish t =>
      obtain ⟨-, rfl⟩ := step_eq_finish hstep
      exact .inr ⟨[], [], s, rfl, rfl, .nil, Nat.le_refl _, fun v hv => absurd hv List.not_mem_nil⟩
    | fail => exact .inl ⟨Option.some_ne_none _, Option.some_ne_none _⟩

end Scanner

/-! ## Programs -/

namespace Stmt

/-- What comes of the tokens of a text. -/
theorem parseProgram_of_scan {source : String} {ts : List Token} {e : Scanner}
    (h : Token.scan source = (ts ++ [⟨.eof, "", e.pos⟩], none)) :
    parseProgram source = (topLevel (Cursor.before ts e).fuel (.before ts e)).1 := by
  unfold parseProgram Token.tokenize
  rw [h]
  show (topLevel (Cursor.start _).fuel (Cursor.start _)).1 = _
  rw [Cursor.start_eq_before]

theorem parseProgram_ne_ok {source : String} (h : (Token.scan source).2 ≠ none) (p : Block) :
    parseProgram source ≠ .ok p := by
  unfold parseProgram Token.tokenize
  revert h
  obtain ⟨ts, failure⟩ := Token.scan source
  cases failure with
  | none => exact fun h => absurd rfl h
  | some err => nofun

/-- Programs whose tokens are the same but for those that are recast. -/
theorem topLevel_of_recasts {ts us : List Token} {e : Scanner} (h : Token.Recasts ⟨.eof, "", e.pos⟩ ts us) {p : Block}
    (hp : (topLevel (Cursor.before ts e).fuel (.before ts e)).1 = .ok p) :
    (topLevel (Cursor.before us e).fuel (.before us e)).1 = .ok p := by
  have halike : (Cursor.before ts e).Alike (.before us e) := ⟨rfl, h, .inl rfl⟩
  obtain ⟨d', hd, -⟩ := topLevel_blind _ halike (Prod.ext hp rfl)
  rw [halike.fuel_eq, hd]

/-- **Line ends do not matter.** A text without carriage returns and the text with one before every line break parse to
    the same program, or neither parses. -/
theorem parseProgram_withReturns {source : String} (h : '\r' ∉ source.toList) (p : Block) :
    parseProgram (String.ofList (Text.withReturns source.toList)) = .ok p ↔ parseProgram source = .ok p := by
  have hclean : '\r' ∉ (Scanner.start source.toList).rest := h
  have halike : (Scanner.start source.toList).Alike (.start (Text.withReturns source.toList)) := .inl rfl
  have hruns := Scanner.run_alike hclean halike (Nat.lt_succ_self _) (Nat.lt_succ_self _)
  have hscan : Token.scan (String.ofList (Text.withReturns source.toList)) =
      Scanner.run ((Text.withReturns source.toList).length + 1) (.start (Text.withReturns source.toList)) := by
    unfold Token.scan
    rw [String.toList_ofList]
  rcases hruns with ⟨hfail, hfail'⟩ | ⟨ts, us, e, hts, hus, hrecasts, -, -⟩
  · exact iff_of_false (parseProgram_ne_ok (by rw [hscan]; exact hfail') p) (parseProgram_ne_ok hfail p)
  · rw [parseProgram_of_scan (hscan.trans hus), parseProgram_of_scan hts]
    exact ⟨topLevel_of_recasts hrecasts.symm, topLevel_of_recasts hrecasts⟩

/-- A fenced block, a comment, a string and a statement that goes on over a line end. -/
theorem parseProgram_withReturns_block :
    '\r' ∉ "lua:\n  x\nend_lua\nf [1, # c\n'a']".toList ∧
    parseProgram (String.ofList (Text.withReturns "lua:\n  x\nend_lua\nf [1, # c\n'a']".toList)) = .ok
      [⟨1, .passthrough "lua" "x\n"⟩,
       ⟨4, .call (.var "f") [.list [.literal (.int 1), .literal (.str "a")]]⟩] := by
  have hchars : "lua:\n  x\nend_lua\nf [1, # c\n'a']".toList = ['l', 'u', 'a', ':', '\n', ' ', ' ', 'x', '\n', 'e',
      'n', 'd', '_', 'l', 'u', 'a', '\n', 'f', ' ', '[', '1', ',', ' ', '#', ' ', 'c', '\n', '\'', 'a', '\'', ']'] := by
    simp
  have hclean : '\r' ∉ "lua:\n  x\nend_lua\nf [1, # c\n'a']".toList := by
    rw [hchars]
    decide
  refine ⟨hclean, (parseProgram_withReturns hclean _).mpr ?_⟩
  unfold parseProgram Token.tokenize Token.scan
  rw [hchars]
  with_unfolding_all rfl

end Stmt

end Helios
