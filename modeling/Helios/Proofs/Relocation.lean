import Helios.Proofs.Stretch

/-!
# Relocation — statements parsed inside of a longer program

The parser of statements does inside of a longer program what it does in its own, and its statements carry the
lines they have there (`Stmt.down`). `Stmt.Followed` says so of each of its functions and `topLevel_follows` of a
whole program: the longer program starts with the same statements and then goes on with what comes after them.

Blocks and programs skip line breaks first. So they may start where the two cursors see different tokens, past a
separator that is the last token of the program.
-/

namespace Helios

/-! ## Statements further down -/

namespace Stmt

mutual

/-- The same statement, with the statements inside of it `k` lines further down. -/
def down (k : Nat) : Stmt → Stmt
  | branch cond yes no => branch cond (downBlock k yes) (downBlock k no)
  | while_ cond body => while_ cond (downBlock k body)
  | for_ var items body => for_ var items (downBlock k body)
  | define name params body => define name params (downBlock k body)
  | s => s

/-- **The same statements `k` lines further down**, nested ones included. -/
def downBlock (k : Nat) : List (Located Stmt) → List (Located Stmt)
  | [] => []
  | ⟨line, s⟩ :: rest => ⟨line + k, s.down k⟩ :: downBlock k rest

end

mutual

/-- By no lines, a statement stays where it is. -/
theorem down_zero : (s : Stmt) → s.down 0 = s
  | branch cond yes no => by rw [down, downBlock_zero yes, downBlock_zero no]
  | while_ cond body => by rw [down, downBlock_zero body]
  | for_ var items body => by rw [down, downBlock_zero body]
  | define name params body => by rw [down, downBlock_zero body]
  | assign .. | print .. | call .. | return_ .. | break_ | continue_ => rfl
  | contain .. | passthrough .. | command .. => rfl

theorem downBlock_zero : (b : List (Located Stmt)) → downBlock 0 b = b
  | [] => rfl
  | ⟨line, s⟩ :: rest => by rw [downBlock, down_zero s, downBlock_zero rest]; rfl

end

end Stmt

/-! ## Separators -/

namespace Parse

variable {c : Cursor}

/-- A parser that succeeds hands its result on. -/
theorem bind_of_ok {α β : Type} {x : Parse α} {a : α} {c' : Cursor} (h : x c = (.ok a, c')) (f : α → Parse β) :
    (x >>= f) c = f a c' := by
  show ExceptT.bindCont f (x c).1 (x c).2 = _
  rw [h]
  rfl

theorem bind_congr {α β : Type} {x : Parse α} {d : Cursor} (h : x c = x d) (f : α → Parse β) :
    (x >>= f) c = (x >>= f) d := by
  show ExceptT.bindCont f (x c).1 (x c).2 = ExceptT.bindCont f (x d).1 (x d).2
  rw [h]

theorem failAt_ne_ok {α : Type} {p : Position} {issue : ParseIssue} {c' : Cursor} {a : α} :
    (failAt p issue : Parse α) c ≠ (.ok a, c') := fun h => nomatch congrArg Prod.fst h

/-- Where there are no line breaks none are skipped. -/
theorem skipNewlines_of_ne (h : c.peek.kind.isNewline = false) : skipNewlines c = (.ok (), c) := by
  have hnone : c.rest.takeWhile (fun t => t.kind.isNewline) = [] := by
    unfold Cursor.peek at h
    cases hrest : c.rest with
    | nil => rfl
    | cons t rest =>
      rw [hrest] at h
      exact List.takeWhile_cons_of_neg (by rw [Bool.not_eq_true]; exact h)
  unfold skipNewlines
  rw [hnone]

/-- Skipping one line break and then all of them is skipping all. -/
theorem skipNewlines_next (hne : c.rest ≠ []) (h : c.peek.kind.isNewline = true) :
    skipNewlines c.next = skipNewlines c := by
  obtain ⟨t, rest, hrest⟩ := List.exists_cons_of_ne_nil hne
  have ht : t.kind.isNewline = true := by
    unfold Cursor.peek at h
    rwa [hrest] at h
  have hnext : c.next = ⟨some t, rest, c.stop⟩ := by
    unfold Cursor.next
    rw [hrest]
  unfold skipNewlines
  rw [hnext, hrest, List.takeWhile_cons_of_pos (p := fun t : Token => t.kind.isNewline) ht,
    List.dropWhile_cons_of_pos (p := fun t : Token => t.kind.isNewline) ht]
  dsimp only
  cases htail : rest.takeWhile fun t => t.kind.isNewline with
  | nil =>
    have hdrop : rest.dropWhile (fun t => t.kind.isNewline) = rest := by
      have := List.takeWhile_append_dropWhile (p := fun t : Token => t.kind.isNewline) (l := rest)
      rwa [htail] at this
    rw [hdrop]
    rfl
  | cons u us =>
    dsimp only
    rw [List.getLastD_cons]

/-- The end of the text and the words that end a block are separators too, which stay. -/
theorem expectSeparator_eq (c : Cursor) : expectSeparator c =
    if endsStatement c.peek.kind then if c.peek.kind.isNewline then (.ok (), c.next) else (.ok (), c)
    else fail (.expected "end of statement") c := by
  show (if endsStatement c.peek.kind = true then _ else _ : Parse Unit) c = _
  split
  · show (if c.peek.kind.isNewline = true then _ else _ : Parse Unit) c = _
    split <;> rfl
  · rfl

end Parse

theorem TokenKind.isNewline_iff {k : TokenKind} : k.isNewline = true ↔ k = .newline := by
  cases k <;> simp [isNewline]

theorem TokenKind.isNewline_eq_false {k : TokenKind} (h : k ≠ .newline) : k.isNewline = false := by
  rwa [← Bool.not_eq_true, isNewline_iff]

theorem Cursor.peekNext_eq {c : Cursor} (h : c.rest ≠ []) : c.peekNext = c.next.peek := by
  obtain ⟨t, rest, hrest⟩ := List.exists_cons_of_ne_nil h
  unfold peekNext peek next
  rw [hrest]
  rfl

namespace Stretch

variable {s : Stretch} {c c' d : Cursor}

/-- **Line breaks are passed alike.** The longer program may have more of them where the program ends, so the
    second cursor stops before those. -/
theorem Embeds.skipNewlines (h : s.Embeds c d) :
    ∃ ks c' d', Parse.skipNewlines c = (.ok (), c') ∧ c.Reads ks c' ∧ Nests 0 0 ks ∧
      Parse.skipNewlines d' = Parse.skipNewlines d ∧ s.Embeds c' d' ∧ c'.peek.kind ≠ .newline := by
  induction hn : c.rest.length generalizing c d with
  | zero =>
    have hpeek : c.peek = c.stop := by
      unfold Cursor.peek
      rw [List.length_eq_zero_iff.mp hn]
      rfl
    have hline : c.peek.kind ≠ .newline := by
      rw [hpeek, h.eof]
      nofun
    have hskip := Parse.skipNewlines_of_ne (c := c) (by rw [hpeek, h.eof]; rfl)
    exact ⟨[], c, d, hskip, .nil, .nil, rfl, h, hline⟩
  | succ n ih =>
    have hne : c.rest ≠ [] := List.ne_nil_of_length_eq_add_one hn
    by_cases hline : c.peek.kind = .newline
    · have hlength : c.next.rest.length = n := by
        obtain ⟨t, rest, hrest⟩ := List.exists_cons_of_ne_nil hne
        unfold Cursor.next
        rw [hrest] at hn ⊢
        exact Nat.succ.inj hn
      obtain ⟨ks, c', d', hskip, hks, hnest, hd, hthere, hstop⟩ := ih (h.next hne) hlength
      have hline' : d.peek.kind = .newline := by
        rw [(h.aligns hne).peek.kind_eq (by rw [hline]; nofun), hline]
      have hne' : d.rest ≠ [] := by
        rw [h.rest]
        simp [hne]
      refine ⟨.newline :: ks, c', d', ?_, .cons hne hline hks, hnest, ?_, hthere, hstop⟩
      · rw [← Parse.skipNewlines_next hne (TokenKind.isNewline_iff.mpr hline), hskip]
      · rw [← Parse.skipNewlines_next hne' (TokenKind.isNewline_iff.mpr hline'), hd]
    · have hskip := Parse.skipNewlines_of_ne (TokenKind.isNewline_eq_false hline)
      exact ⟨[], c, d, hskip, .nil, .nil, rfl, h, hline⟩

/-- **Statements end alike.** The longer program may have a line break where the program ends; what comes next skips
    it. -/
theorem Aligns.expectSeparator (h : s.Aligns c d) {u : Unit} (heq : Parse.expectSeparator c = (.ok u, c')) :
    ∃ ks d₁ d', c.Reads ks c' ∧ Nests 0 0 ks ∧ Parse.expectSeparator d = (.ok (), d₁) ∧
      Parse.skipNewlines d₁ = Parse.skipNewlines d' ∧ s.Embeds c' d' := by
  have hsame : Parse.endsStatement d.peek.kind = Parse.endsStatement c.peek.kind := h.peek.congr rfl
  rw [Parse.expectSeparator_eq] at heq
  rw [Parse.expectSeparator_eq, hsame]
  split at heq
  · rename_i hends
    rw [if_pos hends]
    split at heq
    · rename_i hline
      obtain ⟨-, rfl⟩ := Prod.mk.inj heq
      rw [TokenKind.isNewline_iff] at hline
      have hline' : d.peek.kind = .newline := by rw [h.peek.kind_eq (by rw [hline]; nofun), hline]
      have hne := h.rest_ne_nil (by rw [hline]; nofun)
      rw [if_pos (TokenKind.isNewline_iff.mpr hline')]
      exact ⟨[.newline], d.next, d.next, .cons hne hline .nil, fun _ => rfl, rfl, rfl, h.toEmbeds.next hne⟩
    · rename_i hline
      obtain ⟨-, rfl⟩ := Prod.mk.inj heq
      split
      · rename_i hline'
        have hne' : d.rest ≠ [] := by
          intro hnil
          unfold Cursor.peek at hline'
          rw [hnil, h.stop, List.headD_nil, s.stop_eof] at hline'
          nomatch hline'
        exact ⟨[], d.next, d, .nil, .nil, rfl, Parse.skipNewlines_next hne' hline', h.toEmbeds⟩
      · exact ⟨[], d, d, .nil, .nil, rfl, rfl, h.toEmbeds⟩
  · exact absurd heq Parse.fail_ne_ok

namespace Follows

section Separators

variable {α β : Type} {i o : Nat} {S : α → β → Prop} {f : Unit → Parse α} {g : Unit → Parse β}

/-- A parser that skips line breaks first may start where the cursors see different tokens, if it fails where the
    program ends. -/
theorem skipNewlines (h : s.Embeds c d) (hend : ∀ c', c'.peek.kind = .eof → ∀ a c'', f () c' ≠ (.ok a, c''))
    (hf : ∀ c' d', s.Aligns c' d' → s.Follows i o S (f ()) c' (g ()) d') :
    s.Follows i o S (Parse.skipNewlines >>= f) c (Parse.skipNewlines >>= g) d := by
  intro a c'' heq
  obtain ⟨ks, c', d', hskip, hks, hnest, hd, hthere, hline⟩ := h.skipNewlines
  rw [Parse.bind_of_ok hskip] at heq
  have haligns := hthere.aligns (hthere.rest_ne_nil fun heof => hend c' heof a c'' heq)
  obtain ⟨ks', b, d'', hks', hnest', hb, hrest⟩ := hf c' d' haligns heq
  have hline' : d'.peek.kind ≠ .newline := by
    rwa [haligns.peek.kind_eq fun heof => hend c' heof a c'' heq]
  refine ⟨ks ++ ks', b, d'', hks.append hks', (hnest.lift i).append hnest', ?_, hrest⟩
  rw [← Parse.bind_congr hd, Parse.bind_of_ok (Parse.skipNewlines_of_ne (TokenKind.isNewline_eq_false hline'))]
  exact hb

/-- After a statement, what skips line breaks first may start where the cursors see different tokens. -/
theorem expectSeparator (h : s.Aligns c d)
    (hg : ∀ d₁ d₂ b d', Parse.skipNewlines d₁ = Parse.skipNewlines d₂ → g () d₂ = (.ok b, d') →
      g () d₁ = (.ok b, d'))
    (hf : ∀ c' d', s.Embeds c' d' → s.Follows i o S (f ()) c' (g ()) d') :
    s.Follows i o S (Parse.expectSeparator >>= f) c (Parse.expectSeparator >>= g) d := by
  intro a c'' heq
  obtain ⟨_, c', hsep, heq⟩ := Parse.bind_eq_ok.mp heq
  obtain ⟨ks, d₁, d', hks, hnest, hsep', hskip, hthere⟩ := h.expectSeparator hsep
  obtain ⟨ks', b, d'', hks', hnest', hb, hrest⟩ := hf c' d' hthere heq
  refine ⟨ks ++ ks', b, d'', hks.append hks', (hnest.lift i).append hnest', ?_, hrest⟩
  exact Parse.bind_eq_ok.mpr ⟨(), d₁, hsep', hg d₁ d' b d'' hskip hb⟩

end Separators

variable {α : Type} {p : TokenKind → Bool} {item : Parse α}

/-- Item after item, at both cursors. -/
theorem manyUntil (hp : p .newline = p .eof)
    (hitem : ∀ {c d}, s.Aligns c d → s.Follows 0 0 Eq item c item d) (more fuel : Nat) (h : s.Aligns c d) :
    s.Follows 0 0 Eq (Parse.manyUntil (fun c => (.ok (p c.peek.kind), c)) item fuel) c
      (Parse.manyUntil (fun c => (.ok (p c.peek.kind), c)) item (more + fuel)) d := by
  induction fuel generalizing c d with
  | zero => exact .exhausted
  | succ fuel ih =>
    refine .test hp h ?_
    split
    · exact .pure h rfl
    · exact (hitem h).same fun a _ _ h => (ih h).same fun rest _ _ h => .pure h rfl

theorem many (hp : p .newline = p .eof)
    (hitem : ∀ {c d}, s.Aligns c d → s.Follows 0 0 Eq item c item d) (h : s.Aligns c d) :
    s.Follows 0 0 Eq (Parse.many (fun c => (.ok (p c.peek.kind), c)) item) c
      (Parse.many (fun c => (.ok (p c.peek.kind), c)) item) d := by
  exact withFuel (x := Parse.manyUntil _ item) (y := Parse.manyUntil _ item) h
    fun more => manyUntil hp hitem more c.fuel h

end Follows

end Stretch

/-! ## Simple statements and commands -/

namespace Stmt

open Stretch

variable {s : Stretch} {c d : Cursor}

theorem withComma_follows {item : Parse Expr} (hitem : s.Follows 0 0 Eq item c item d) :
    s.Follows 0 0 Eq (withComma item) c (withComma item) d := by
  refine hitem.same fun e _ _ h => ?_
  exact .eatSymbol h (fun _ => rfl) (fun h => .pure h rfl) (.pure h rfl)

theorem printArgs_follows (h : s.Aligns c d) : s.Follows 0 0 Eq printArgs c printArgs d := by
  refine .test (p := fun k => k.isSymbol .leftParen) rfl h (.touches h ?_)
  split
  · exact Expr.parenArgs_follows h
  · exact .many (p := Parse.endsStatement) rfl (fun h => withComma_follows (Expr.parser_follows h)) h

theorem commandArgs_follows (h : s.Aligns c d) : s.Follows 0 0 Eq commandArgs c commandArgs d :=
  .many (p := Parse.endsStatement) rfl (fun h => withComma_follows (Expr.commandArg_follows h)) h

/-- A call has no lines of its own. -/
theorem ofCall?_down {e : Expr} {t : Stmt} (h : ofCall? e = some t) (k : Nat) : t.down k = t := by
  cases e with
  | call callee args => exact Option.some.inj h ▸ rfl
  | _ => nomatch h

/-- What follows the word `call`. -/
theorem callCommand_follows (h : s.Aligns c d) :
    s.Follows 0 0 (fun a b => b = a.down s.lines) callCommand c callCommand d := by
  unfold callCommand
  refine .eatKeyword h (fun h => ?_) ?_
  · simp only [if_true, pure_bind]
    refine .test (p := Parse.endsStatement) rfl h ?_
    exact (commandArgs_follows h).same fun args _ _ h => .pure h rfl
  · simp only [Bool.false_eq_true, if_false]
    refine (Expr.commandArg_follows h).same fun callee _ _ h => .test (p := Parse.endsStatement) rfl h ?_
    split
    · rename_i hcall _
      exact .pure h (ofCall?_down hcall _).symm
    · exact (commandArgs_follows h).same fun args _ _ h => .pure h rfl

theorem callStatement_follows (pos pos' : Position) (h : s.Aligns c d) :
    s.Follows 0 0 (fun a b => b = a.down s.lines) (callStatement pos) c (callStatement pos') d := by
  refine (Expr.commandArg_follows h).same fun e _ _ h => .test (p := Parse.endsStatement) rfl h ?_
  split
  · split
    · rename_i hcall
      exact .pure h (ofCall?_down hcall _).symm
    · split
      · exact .pure h rfl
      · exact .failAt
  · refine .peekKind ?_
    rw [h.peek.congr (f := startsArg) rfl]
    split
    · exact (commandArgs_follows h).same fun args _ _ h => .pure h rfl
    · exact .failAt

theorem literalName_follows (h : s.Aligns c d) : s.Follows 0 0 Eq literalName c literalName d := by
  unfold literalName
  refine .peek ?_
  by_cases heof : c.peek.kind = .eof
  · rw [heof]
    exact .fail
  rw [h.peek.kind_eq heof, h.peek.text heof]
  generalize hk : c.peek.kind = k
  split
  · exact .advance h hk nofun nofun (fun _ => rfl) fun h => .pure h rfl
  · exact .advance h hk nofun nofun (fun _ => rfl) fun h => .pure h rfl
  · exact .advance h hk nofun nofun (fun _ => rfl) fun h => .pure h rfl
  · exact .fail

/-- The arguments of a command, slot by slot. -/
theorem positionals_follows (v : Verb) (slots : List Slot) (index : Nat) (h : s.Aligns c d) :
    s.Follows 0 0 Eq (positionals v index slots) c (positionals v index slots) d := by
  induction slots generalizing index c d with
  | nil => exact .pure h rfl
  | cons slot slots ih =>
    unfold positionals
    refine .peekKind ?_
    rw [h.peek.congr (f := clauseWord?) rfl]
    refine .test (p := Parse.endsStatement) rfl h ?_
    split
    · exact .fail
    · have hrest {c d : Cursor} (h : s.Aligns c d) (p : Positional) :
          s.Follows 0 0 Eq (do let rest ← positionals v (index + 1) slots; pure (p :: rest)) c
            (do let rest ← positionals v (index + 1) slots; pure (p :: rest)) d :=
        (ih (index + 1) h).same fun rest _ _ h => .pure h rfl
      cases slot with
      | name =>
        refine Follows.same ((literalName_follows h).map ?_) fun p _ _ h => hrest h p
        exact fun a b hab => congrArg _ hab
      | expr =>
        refine Follows.same ((Expr.commandArg_follows h).map ?_) fun p _ _ h => hrest h p
        exact fun a b hab => congrArg _ hab

theorem clauseValues_follows (kind : ClauseKind) (n : Nat) (h : s.Aligns c d) :
    s.Follows 0 0 Eq (clauseValues kind n) c (clauseValues kind n) d := by
  induction n generalizing c d with
  | zero => exact .pure h rfl
  | succ n ih =>
    refine .test (p := Parse.endsStatement) rfl h ?_
    split
    · exact .fail
    · exact (Expr.commandArg_follows h).same fun e _ _ h => (ih h).same fun rest _ _ h => .pure h rfl

theorem clauseBody_follows (kind : ClauseKind) (h : s.Aligns c d) :
    s.Follows 0 0 Eq (clauseBody kind) c (clauseBody kind) d := by
  unfold clauseBody
  split
  · refine .expectIdent h fun name _ _ _ _ h => ?_
    exact .pure h rfl
  · refine .expectIdent h fun name _ _ _ _ h => ?_
    refine (Follows.many (p := fun k => Parse.endsStatement k || (clauseWord? k).isSome) rfl
      Expr.commandArg_follows h).same fun args _ _ h => ?_
    exact .pure h rfl
  · exact (clauseValues_follows _ _ h).same fun es _ _ h => .pure h rfl

/-- A clause, which may not stand twice. -/
theorem clause_follows (v : Verb) (before : List ClauseKind) (h : s.Aligns c d) :
    s.Follows 0 0 Eq (clause v before) c (clause v before) d := by
  unfold clause
  refine .peek ?_
  rw [h.peek.congr (f := clauseWord?) rfl]
  split
  · exact .fail
  · rename_i kind hword
    split
    · exact .failAt
    · split
      · exact .failAt
      · have hplain : c.peek.kind ≠ .eof ∧ c.peek.kind ≠ .newline ∧ Nests 0 0 [c.peek.kind] := by
          unfold clauseWord? at hword
          split at hword
          · rename_i hk
            rw [hk]
            exact ⟨nofun, nofun, fun _ => rfl⟩
          · nomatch hword
        exact .advance h rfl hplain.1 hplain.2.1 hplain.2.2 fun h => clauseBody_follows kind h

theorem clauses_follows (v : Verb) (more fuel : Nat) (before : List ClauseKind) (h : s.Aligns c d) :
    s.Follows 0 0 Eq (clauses v fuel before) c (clauses v (more + fuel) before) d := by
  induction fuel generalizing before c d with
  | zero => exact .exhausted
  | succ fuel ih =>
    refine .test (p := Parse.endsStatement) rfl h ?_
    split
    · exact .pure h rfl
    · refine (clause_follows v before h).same fun cl _ _ h => ?_
      exact (ih _ h).same fun rest _ _ h => .pure h rfl

/-- **A command of the program is the same one in the longer text.** -/
theorem command_follows (surface : Surface) (h : s.Aligns c d) :
    s.Follows 0 0 Eq (command_ surface) c (command_ surface) d := by
  unfold command_
  refine .peek ?_
  by_cases heof : c.peek.kind = .eof
  · rw [heof]
    exact .fail
  rw [h.peek.kind_eq heof]
  generalize hk : c.peek.kind = k
  split
  · split
    · exact .failAt
    · rename_i v _
      refine .advance h hk nofun nofun (fun _ => rfl) fun h => ?_
      refine (positionals_follows v v.slots 0 h).same fun ps c d h => ?_
      have hclauses := Follows.withFuel (x := fun fuel => clauses v fuel []) (y := fun fuel => clauses v fuel []) h
        fun more => clauses_follows v more c.fuel [] h
      refine hclauses.same fun cs _ _ h => ?_
      split
      · exact .fail
      · exact .pure h rfl
  · exact .fail

/-! ## Blocks -/

theorem parameters_follows (function : String) (more fuel : Nat) (before : List String) (h : s.Aligns c d) :
    s.Follows 1 0 Eq (parameters function fuel before) c (parameters function (more + fuel) before) d := by
  induction fuel generalizing before c d with
  | zero => exact .exhausted
  | succ fuel ih =>
    refine .eatSymbol h (fun _ => rfl) (fun h => .pure h rfl) ?_
    refine .expectIdent h fun param _ _ _ _ h => ?_
    dsimp only
    split
    · exact .failAt
    · refine .eatSymbol h (fun _ => rfl) (fun h => ih _ h) ?_
      exact .expectSymbol h (fun _ => rfl) fun _ _ _ _ h => .pure h rfl

/-- The name and the parameters of a function. -/
theorem signature_follows (h : s.Aligns c d) : s.Follows 0 0 Eq signature c signature d := by
  refine .expectIdent h fun name _ _ _ _ h => ?_
  -- what follows the parameters
  have hafter {c d : Cursor} (h : s.Aligns c d) (params : List String) :
      s.Follows 0 0 Eq
        (do let _ ← Parse.expectSymbol .colon "after the function signature"; pure (name, params)) c
        (do let _ ← Parse.expectSymbol .colon "after the function signature"; pure (name, params)) d :=
    .expectSymbol h (fun _ => rfl) fun _ _ _ _ h => .pure h rfl
  refine .eatSymbol (j := 1) h (fun _ => rfl) (fun h => ?_) (hafter h [])
  refine Follows.same (Follows.withFuel (x := fun fuel => parameters name fuel [])
    (y := fun fuel => parameters name fuel []) h fun more => parameters_follows name more _ [] h) ?_
  exact fun params _ _ h => hafter h params

theorem pathRest_follows (more fuel : Nat) (path : String) (h : s.Aligns c d) :
    s.Follows 0 0 Eq (pathRest fuel path) c (pathRest (more + fuel) path) d := by
  induction fuel generalizing path c d with
  | zero => exact .exhausted
  | succ fuel ih =>
    refine .eatSymbol h (fun _ => rfl) (fun h => ?_) (.pure h rfl)
    refine .expectIdent h fun part _ _ _ _ h => ?_
    exact ih _ h

theorem checkBlocks_follows (ctx : Context) (pos pos' : Position) (h : s.Aligns c d) :
    s.Follows 0 0 Eq (checkBlocks ctx pos) c (checkBlocks ctx pos') d := by
  unfold checkBlocks
  split
  · exact .failAt
  · exact .pure h rfl

/-- A block that is closed is closed by the same token. -/
theorem requireEnd_follows {t u : Token} (htu : u.kind = t.kind) (issue : String → ParseIssue)
    (h : s.Aligns c d) :
    s.Follows 0 0 Eq (requireEnd t issue) c (requireEnd u issue) d := by
  unfold requireEnd
  rw [htu]
  split
  · exact .pure h rfl
  · exact .failAt

/-- A block starts by skipping line breaks. -/
theorem blockBody_congr {fuel : Nat} {ctx : Context} {opened : OpenBlock} {d₁ d₂ d' : Cursor} {r : Block × Token}
    (hskip : Parse.skipNewlines d₁ = Parse.skipNewlines d₂) (h : blockBody fuel ctx opened d₂ = (.ok r, d')) :
    blockBody fuel ctx opened d₁ = (.ok r, d') := by
  cases fuel with
  | zero => exact absurd h Parse.exhausted_ne_ok
  | succ fuel => exact (Parse.bind_congr hskip _).trans h

/-- Statements that are the same but further down, and the tokens that close them. -/
def ClosedAlike (k : Nat) (a b : Block × Token) : Prop :=
  b.1 = downBlock k a.1 ∧ b.2.kind = a.2.kind ∧ b.2.pos = a.2.pos.down k

/-- What each function of the parser of statements does with some fuel, it does with more of it at the same place of
    a longer program, and its statements are further down there. A block may start where the cursors see different
    tokens: it fails where the program ends. -/
structure Followed (s : Stretch) (more fuel : Nat) : Prop where
  statement : ∀ {c d} ctx, s.Aligns c d → s.Follows 0 0 (fun a b => b = ⟨a.line + s.lines, a.node.down s.lines⟩)
    (statement fuel ctx) c (statement (more + fuel) ctx) d
  statementBody : ∀ {c d} ctx, s.Aligns c d → s.Follows 0 0 (fun a b => b = a.down s.lines)
    (statementBody fuel ctx c.peek) c (statementBody (more + fuel) ctx d.peek) d
  blockBody : ∀ {c d} ctx opened opened', s.Embeds c d → s.Follows 0 0 (ClosedAlike s.lines)
    (blockBody fuel ctx opened) c (blockBody (more + fuel) ctx opened') d
  plainBlock : ∀ {c d} ctx kind pos pos', s.Aligns c d → s.Follows 0 0 (fun a b => b = downBlock s.lines a)
    (plainBlock fuel ctx ⟨kind, pos⟩) c (plainBlock (more + fuel) ctx ⟨kind, pos'⟩) d
  ifChain : ∀ {c d} ctx opened opened', s.Aligns c d → s.Follows 0 0 (fun a b => b = a.down s.lines)
    (ifChain fuel ctx opened) c (ifChain (more + fuel) ctx opened') d

namespace Followed

variable {more fuel : Nat}

theorem zero : Followed s more 0 := by
  constructor <;> (intros; exact .exhausted)

/-- One level of fuel less: a statement, further down. -/
theorem statement_succ (ih : Followed s more fuel) (ctx : Context) (h : s.Aligns c d) :
    s.Follows 0 0 (fun a b => b = ⟨a.line + s.lines, a.node.down s.lines⟩) (Stmt.statement (fuel + 1) ctx) c
      (Stmt.statement (more + fuel + 1) ctx) d := by
  refine .peek ?_
  refine (ih.statementBody ctx h).bind fun a b _ _ hab h' => .pure h' ?_
  rw [hab, h.peek.pos]
  rfl

theorem statementBody_succ (ih : Followed s more fuel) (ctx : Context) (h : s.Aligns c d) :
    s.Follows 0 0 (fun a b => b = a.down s.lines) (Stmt.statementBody (fuel + 1) ctx c.peek) c
      (Stmt.statementBody (more + fuel + 1) ctx d.peek) d := by
  unfold Stmt.statementBody
  by_cases heof : c.peek.kind = .eof
  · rw [heof]
    exact .fail
  rw [h.peek.kind_eq heof]
  generalize hk : c.peek.kind = k
  split
  · -- `let`
    refine .keyword h hk fun h => ?_
    refine .expectIdent h fun name _ _ _ _ h => ?_
    refine .expectSymbol h (fun _ => rfl) fun _ _ _ _ h => ?_
    exact (Expr.parser_follows h).same fun e _ _ h => .pure h rfl
  · -- `print`
    refine .keyword h hk fun h => ?_
    exact (printArgs_follows h).same fun args _ _ h => .pure h rfl
  · -- `if`
    refine .keyword h hk fun h => ?_
    exact (checkBlocks_follows ctx _ _ h).same fun _ _ _ h => ih.ifChain _ _ _ h
  · -- `while`
    refine .keyword h hk fun h => ?_
    refine (Expr.parser_follows h).same fun cond _ _ h => ?_
    refine .expectSymbol h (fun _ => rfl) fun _ _ _ _ h => ?_
    refine (ih.plainBlock ctx .while_ _ _ h).bind fun body body' _ _ hbody h => .pure h ?_
    rw [hbody, down]
  · -- `for`
    refine .keyword h hk fun h => ?_
    refine .expectIdent h fun var _ _ _ _ h => ?_
    refine .eatKeyword h (fun h => ?_) .fail
    refine (Expr.parser_follows h).same fun items _ _ h => ?_
    refine .expectSymbol h (fun _ => rfl) fun _ _ _ _ h => ?_
    refine (ih.plainBlock ctx .for_ _ _ h).bind fun body body' _ _ hbody h => .pure h ?_
    rw [hbody, down]
  · -- `solar_def`
    refine .keyword h hk fun h => ?_
    refine (signature_follows h).same fun (name, params) _ _ h => ?_
    refine (ih.plainBlock ctx .def_ _ _ h).bind fun body body' _ _ hbody h => .pure h ?_
    rw [hbody, down]
  · -- `return`
    split
    · refine .keyword h hk fun h => ?_
      refine .test (p := Parse.endsStatement) rfl h ?_
      split
      · exact .pure h rfl
      · exact (Expr.parser_follows h).same fun e _ _ h => .pure h rfl
    · exact .failAt
  · -- `break`
    split
    · exact .keyword h hk fun h => .pure h rfl
    · exact .failAt
  · -- `continue`
    split
    · exact .keyword h hk fun h => .pure h rfl
    · exact .failAt
  · -- `contain`
    refine .keyword h hk fun h => ?_
    refine .expectIdent h fun first _ _ _ _ h => ?_
    refine Follows.same (Follows.withFuel (x := fun fuel => pathRest fuel first)
      (y := fun fuel => pathRest fuel first) h fun more => pathRest_follows more _ first h) ?_
    exact fun path _ _ h => .pure h rfl
  · exact .advance h hk nofun nofun (fun _ => rfl) fun h => .pure h rfl
  · -- `call`
    exact .keyword h hk fun h => callCommand_follows h
  · refine .keyword h hk fun h => ?_
    exact (command_follows .ui h).map fun a b hab => (congrArg Stmt.command hab).symm
  · refine .keyword h hk fun h => ?_
    exact (command_follows .game h).map fun a b hab => (congrArg Stmt.command hab).symm
  · -- a name
    have hnext := (h.next (by rw [hk]; nofun) (by rw [hk]; nofun)).peek
    have hne := h.rest_ne_nil heof
    have hne' : d.rest ≠ [] := by
      rw [h.rest]
      simp [hne]
    rw [← Cursor.peekNext_eq hne, ← Cursor.peekNext_eq hne'] at hnext
    refine .flag (p := fun c => c.peekNext.kind.isSymbol .assign)
      (hnext.congr (f := fun k => k.isSymbol .assign) rfl) ?_
    split
    · exact .failAt
    · exact callStatement_follows _ _ h
  · exact .fail

/-- The statements of a block; line breaks before its end are no exception. -/
theorem blockBody_succ (ih : Followed s more fuel) (ctx : Context) (opened opened' : OpenBlock)
    (h : s.Embeds c d) :
    s.Follows 0 0 (ClosedAlike s.lines) (Stmt.blockBody (fuel + 1) ctx opened) c
      (Stmt.blockBody (more + fuel + 1) ctx opened') d := by
  refine .skipNewlines h (fun c' heof a c'' heq => ?_) fun c d h => .peekKind ?_
  · rw [Parse.peekKind_bind, heof] at heq
    nomatch congrArg Prod.fst heq
  by_cases heof : c.peek.kind = .eof
  · rw [heof]
    exact .failAt
  -- the three tokens that close a block
  have hclose {k : TokenKind} (hk : c.peek.kind = k) (heof : k ≠ .eof) (hline : k ≠ .newline)
      (hnest : Nests 0 0 [k]) :
      s.Follows 0 0 (ClosedAlike s.lines) (do let t ← Parse.advance; pure ([], t)) c
        (do let t ← Parse.advance; pure ([], t)) d := by
    refine .advance h hk heof hline hnest fun h' => .pure h' ⟨rfl, h.peek.kind_eq ?_, h.peek.pos⟩
    rwa [hk]
  rw [h.peek.kind_eq heof]
  generalize hk : c.peek.kind = k
  split
  · exact hclose hk nofun nofun fun _ => rfl
  · exact hclose hk nofun nofun fun _ => rfl
  · exact hclose hk nofun nofun fun _ => rfl
  · exact .failAt
  · refine (ih.statement ctx h).bind fun a b _ _ hab h => ?_
    refine .expectSeparator h ?_ fun _ _ h => ?_
    · -- the separators may stand at different places, but the rest of the block skips line breaks
      intro d₁ d₂ r d' hskip hr
      obtain ⟨rest, d₃, hrest, hr⟩ := Parse.bind_eq_ok.mp hr
      exact Parse.bind_eq_ok.mpr ⟨rest, d₃, blockBody_congr hskip hrest, hr⟩
    · refine (ih.blockBody ctx opened opened' h).bind fun (rest, t) (rest', t') _ _ hrest h => .pure h ?_
      obtain ⟨rfl, hkind, hpos⟩ := hrest
      subst hab
      exact ⟨rfl, hkind, hpos⟩

theorem plainBlock_succ (ih : Followed s more fuel) (ctx : Context) (kind : BlockKind) (pos pos' : Position)
    (h : s.Aligns c d) :
    s.Follows 0 0 (fun a b => b = downBlock s.lines a) (Stmt.plainBlock (fuel + 1) ctx ⟨kind, pos⟩) c
      (Stmt.plainBlock (more + fuel + 1) ctx ⟨kind, pos'⟩) d := by
  refine (checkBlocks_follows ctx pos pos' h).same fun _ _ _ h => ?_
  refine (ih.blockBody _ ⟨kind, pos⟩ ⟨kind, pos'⟩ h.toEmbeds).bind fun (body, t) (body', t') _ _ hbody h => ?_
  exact (requireEnd_follows hbody.2.1 .strayBranch h).same fun _ _ _ h => .pure h hbody.1

theorem ifChain_succ (ih : Followed s more fuel) (ctx : Context) (opened opened' : OpenBlock) (h : s.Aligns c d) :
    s.Follows 0 0 (fun a b => b = a.down s.lines) (Stmt.ifChain (fuel + 1) ctx opened) c
      (Stmt.ifChain (more + fuel + 1) ctx opened') d := by
  refine (Expr.parser_follows h).same fun cond _ _ h => ?_
  refine .expectSymbol h (fun _ => rfl) fun _ _ _ _ h => ?_
  refine (ih.blockBody ctx opened opened' h.toEmbeds).bind fun (yes, t) (yes', t') _ _ hyes h => ?_
  obtain ⟨rfl, hkind, hpos⟩ := hyes
  dsimp only at hkind hpos ⊢
  rw [hkind]
  split
  · refine (ih.ifChain ctx opened opened' h).bind fun a b _ _ hab h => .pure h ?_
    rw [hab, hpos, down]
    rfl
  · refine .expectSymbol h (fun _ => rfl) fun _ _ _ _ h => ?_
    refine (ih.blockBody ctx opened opened' h.toEmbeds).bind fun (no, last) (no', last') _ _ hno h => ?_
    refine (requireEnd_follows hno.2.1 .branchAfterElse h).same fun _ _ _ h => .pure h ?_
    rw [hno.1, down]
  · refine .pure h ?_
    rw [down]
    rfl

/-- By induction on the fuel of the shorter parse. -/
theorem all (s : Stretch) (more fuel : Nat) : Followed s more fuel := by
  induction fuel with
  | zero => exact zero
  | succ fuel ih =>
    exact ⟨ih.statement_succ, ih.statementBody_succ, ih.blockBody_succ, ih.plainBlock_succ, ih.ifChain_succ⟩

end Followed

/-! ## Programs -/

/-- A program starts by skipping line breaks. -/
theorem topLevel_congr {fuel : Nat} {d₁ d₂ d' : Cursor} {r : Block}
    (hskip : Parse.skipNewlines d₁ = Parse.skipNewlines d₂) (h : topLevel fuel d₂ = (.ok r, d')) :
    topLevel fuel d₁ = (.ok r, d') := by
  cases fuel with
  | zero => exact absurd h Parse.exhausted_ne_ok
  | succ fuel => exact (Parse.bind_congr hskip _).trans h

/-- What can start a statement of a program. -/
def startsStatement : TokenKind → Bool
  | .eof | .end_ | .keyword .elif | .keyword .else_ => false
  | _ => true

/-- **When a program parses**: after line breaks it ends, or it goes on with a statement, a separator and more of a
    program. -/
theorem topLevel_eq_ok {fuel : Nat} {c c₀ c' : Cursor} {b : Block} (hskip : Parse.skipNewlines c = (.ok (), c₀)) :
    topLevel (fuel + 1) c = (.ok b, c') ↔
      (c₀.peek.kind = .eof ∧ b = [] ∧ c' = c₀) ∨
      startsStatement c₀.peek.kind = true ∧ ∃ l rest c₁ c₂, statement c₀.fuel .top c₀ = (.ok l, c₁) ∧
        Parse.expectSeparator c₁ = (.ok (), c₂) ∧ topLevel fuel c₂ = (.ok rest, c') ∧ b = l :: rest := by
  rw [topLevel, Parse.bind_of_ok hskip, Parse.peek_bind]
  generalize c₀.peek.kind = k
  split
  · simp [startsStatement, Parse.pure_eq_ok]
  · simp [startsStatement, Parse.failAt_ne_ok]
  · simp [startsStatement, Parse.failAt_ne_ok]
  · simp [startsStatement, Parse.failAt_ne_ok]
  · rename_i heof hend helif helse
    have hstarts : startsStatement k = true := by
      unfold startsStatement
      split
      · exact absurd rfl heof
      · exact absurd rfl hend
      · exact absurd rfl helif
      · exact absurd rfl helse
      · rfl
    simp only [Parse.bind_eq_ok, Parse.pure_eq_ok]
    constructor
    · rintro ⟨l, c₁, hl, ⟨⟩, c₂, hsep, rest, c₃, hrest, rfl, rfl⟩
      exact .inr ⟨hstarts, l, rest, c₁, c₂, hl, hsep, hrest, rfl⟩
    · rintro (⟨heq, -⟩ | ⟨-, l, rest, c₁, c₂, hl, hsep, hrest, rfl⟩)
      · exact absurd heq heof
      · exact ⟨l, c₁, hl, (), c₂, hsep, rest, c', hrest, rfl, rfl⟩

/-- A statement takes a token: no token that starts one ends one. -/
theorem statement_takes {c₀ c₁ c₂ : Cursor} {ks : List TokenKind} (hstarts : startsStatement c₀.peek.kind = true)
    (hline : c₀.peek.kind ≠ .newline) (hks : c₀.Reads ks c₁) (hsep : Parse.expectSeparator c₁ = (.ok (), c₂)) :
    1 ≤ ks.length := by
  cases hks with
  | cons => exact Nat.le_add_left 1 _
  | nil =>
    have hends : Parse.endsStatement c₀.peek.kind = false := by
      unfold Parse.endsStatement
      split
      all_goals first | rfl | simp_all [startsStatement]
    rw [Parse.expectSeparator_eq, hends] at hsep
    exact absurd hsep Parse.fail_ne_ok

/-- **A program is parsed alike inside of a longer one**, which then goes on with what comes after it. Its brackets
    are balanced, and each of its statements takes a token. -/
theorem topLevel_follows {fuel : Nat} {c' : Cursor} {b : Block} (h : s.Embeds c d)
    (heq : topLevel fuel c = (.ok b, c')) :
    ∃ ks d', c.Reads ks c' ∧ Nests 0 0 ks ∧ c'.rest = [] ∧ b.length ≤ ks.length ∧ s.Embeds c' d' ∧
      ∀ m r d'', topLevel (m + 1) d' = (.ok r, d'') →
        topLevel (m + 1 + b.length) d = (.ok (downBlock s.lines b ++ r), d'') := by
  induction fuel generalizing b c d with
  | zero => exact absurd heq Parse.exhausted_ne_ok
  | succ fuel ih =>
    obtain ⟨ks₀, c₀, d₀, hskip, hks₀, hnest₀, hd, h₀, hline⟩ := h.skipNewlines
    rcases (topLevel_eq_ok hskip).mp heq with ⟨heof, rfl, rfl⟩ | ⟨hstarts, l, rest, c₁, c₂, hl, hsep, hrest, rfl⟩
    · have hnil := h₀.rest_eq_nil heof
      exact ⟨ks₀, d₀, hks₀, hnest₀, hnil, Nat.zero_le _, h₀, fun m r d'' hr => topLevel_congr hd.symm hr⟩
    · have heof : c₀.peek.kind ≠ .eof := fun heof => by rw [heof] at hstarts; nomatch hstarts
      have haligns := h₀.aligns (h₀.rest_ne_nil heof)
      have hstatement := Follows.withFuel (x := fun fuel => statement fuel .top)
        (y := fun fuel => statement fuel .top) haligns
        fun more => (Followed.all s more c₀.fuel).statement .top haligns
      obtain ⟨ks₁, l', d₁, hks₁, hnest₁, hl', hll', h₁⟩ := hstatement hl
      obtain ⟨ks₂, d₂', d₂, hks₂, hnest₂, hsep', hskip₂, h₂⟩ := h₁.expectSeparator hsep
      obtain ⟨ks₃, d', hks₃, hnest₃, hnil, hlength, hthere, hgoes⟩ := ih h₂ hrest
      have htakes := statement_takes hstarts hline hks₁ hsep
      refine ⟨ks₀ ++ (ks₁ ++ (ks₂ ++ ks₃)), d', hks₀.append (hks₁.append (hks₂.append hks₃)),
        hnest₀.append (hnest₁.append (hnest₂.append hnest₃)), hnil, ?_, hthere, fun m r d'' hr => ?_⟩
      · simp only [List.length_append, List.length_cons]
        omega
      · -- the longer program has the same statement first
        have hk' : d₀.peek.kind = c₀.peek.kind := haligns.peek.kind_eq heof
        have hskip₀ : Parse.skipNewlines d₀ = (.ok (), d₀) :=
          Parse.skipNewlines_of_ne (by rw [hk', TokenKind.isNewline_eq_false hline])
        have hrest' := topLevel_congr hskip₂ (hgoes m r d'' hr)
        subst hll'
        refine topLevel_congr hd.symm ((topLevel_eq_ok hskip₀).mpr (.inr ⟨by rw [hk', hstarts], ?_⟩))
        exact ⟨_, _, d₁, d₂', hl', hsep', hrest', rfl⟩

end Stmt

end Helios
