import Helios.Proofs.Joining

/-!
# Sight — what the parser does not see of a token

Of a separator or a fenced block the parser reads the kind and the line, but neither the text nor the column. A
program can have such tokens written otherwise (`Token.Recast`) and parse as before, with one proviso: brackets ask
whether they touch the token before them, so what comes after such a token must be on a later line
(`Token.Recasts`).

`Parse.Blind` is the logic for this: from two cursors before tokens that differ in that way only (`Cursor.Alike`), the
parser gives the same result. The relation between the cursors is symmetric, so one direction is enough. Nearly all
parsers are blind because they are made of blind ones. The exceptions look at a token or at what it touches
(`Blind.peek`, `Blind.look`), and there a recast token must not matter.
-/

namespace Helios

/-! ## Tokens -/

/-- A separator or a fenced block. -/
def TokenKind.isUnread : TokenKind → Bool
  | newline | passthrough .. => true
  | _ => false

namespace Token

/-- **A separator or a fenced block that is written otherwise**: with another text or at another column of its line. -/
structure Recast (t u : Token) : Prop where
  unread : t.kind.isUnread = true
  kind : u.kind = t.kind
  line : u.pos.line = t.pos.line

/-- **The same tokens before an end of input, some of them written otherwise.** After these the line ends. -/
inductive Recasts (stop : Token) : List Token → List Token → Prop
  | nil : Recasts stop [] []
  | same {ts us : List Token} (t : Token) (h : Recasts stop ts us) : Recasts stop (t :: ts) (t :: us)
  | recast {t u : Token} {ts us : List Token} (htu : t.Recast u) (hlater : ∀ v ∈ ts ++ us, t.pos.line < v.pos.line)
    (hstop : t.pos.line < stop.pos.line) (h : Recasts stop ts us) : Recasts stop (t :: ts) (u :: us)

variable {t u stop : Token} {ts us : List Token}

/-- Recasting goes both ways. -/
theorem Recast.symm (h : Recast t u) : Recast u t := ⟨h.kind ▸ h.unread, h.kind.symm, h.line.symm⟩

theorem Recast.eq_or (h : Recast t u) : t.kind = .newline ∨ ∃ language code, t.kind = .passthrough language code := by
  have hunread := h.unread
  unfold TokenKind.isUnread at hunread
  split at hunread
  · next hk => exact .inl hk
  · next hk => exact .inr ⟨_, _, hk⟩
  · nomatch hunread

theorem Recasts.symm (h : Recasts stop ts us) : Recasts stop us ts := by
  induction h with
  | nil => exact .nil
  | same t _ ih => exact .same t ih
  | recast htu hlater hstop _ ih =>
    refine .recast htu.symm (fun v hv => ?_) (htu.line ▸ hstop) ih
    rw [htu.line]
    exact hlater v (List.mem_append.mpr (List.mem_append.mp hv).symm)

/-- There are as many tokens. -/
theorem Recasts.length_eq (h : Recasts stop ts us) : us.length = ts.length := by
  induction h with
  | nil => rfl
  | same _ _ ih => exact congrArg (· + 1) ih
  | recast _ _ _ _ ih => exact congrArg (· + 1) ih

end Token

/-! ## Cursors -/

/-- **Cursors before the same tokens, some of them written otherwise.** What they passed last touches what they see
    next at both or at neither, if they see the same token. -/
structure Cursor.Alike (c d : Cursor) : Prop where
  stop : d.stop = c.stop
  rest : Token.Recasts c.stop c.rest d.rest
  prev : d.prev = c.prev ∨ c.touches = false ∧ d.touches = false

namespace Cursor.Alike

variable {c d : Cursor}

/-- So does likeness. -/
theorem symm (h : c.Alike d) : d.Alike c where
  stop := h.stop.symm
  rest := h.stop ▸ h.rest.symm
  prev := h.prev.imp Eq.symm And.symm

theorem fuel_eq (h : c.Alike d) : d.fuel = c.fuel := by
  unfold Cursor.fuel
  rw [h.rest.length_eq]

/-- The cursors see the same token or one written otherwise. -/
theorem peek (h : c.Alike d) : d.peek = c.peek ∨ c.peek.Recast d.peek := by
  obtain ⟨hstop, hrest, -⟩ := h
  unfold Cursor.peek
  revert hrest
  generalize c.rest = ts
  generalize d.rest = us
  intro hrest
  cases hrest with
  | nil => exact .inl hstop
  | same t _ => exact .inl rfl
  | recast htu _ _ _ => exact .inr htu

/-- Alike cursors see the same kinds. -/
theorem peek_kind (h : c.Alike d) : d.peek.kind = c.peek.kind :=
  h.peek.elim (congrArg Token.kind) Token.Recast.kind

/-- A token that is read is the same. -/
theorem peek_eq (h : c.Alike d) {k : TokenKind} (hk : c.peek.kind = k) (hread : k.isUnread = false) :
    d.peek = c.peek := by
  refine h.peek.resolve_right fun hrecast => ?_
  have hunread := hrecast.unread
  rw [hk, hread] at hunread
  nomatch hunread

/-- And the same blanks, unless the token was recast. -/
theorem touches_eq (h : c.Alike d) (hpeek : d.peek = c.peek) : d.touches = c.touches := by
  rcases h.prev with hprev | ⟨hc, hd⟩
  · unfold Cursor.touches
    rw [hprev, hpeek]
  · rw [hc, hd]

/-- What is on a later line does not touch. -/
theorem touches_later {t stop : Token} {ts : List Token} (hlater : ∀ v ∈ ts, t.pos.line < v.pos.line)
    (hstop : t.pos.line < stop.pos.line) : Cursor.touches ⟨some t, ts, stop⟩ = false := by
  refine touches_of_line_lt fun v hv => ?_
  obtain rfl := Option.some.inj hv
  unfold Cursor.peek
  cases ts with
  | nil => exact hstop
  | cons u us => exact hlater u List.mem_cons_self

/-- Past a token, alike or recast, they are alike again. -/
theorem next (h : c.Alike d) : c.next.Alike d.next := by
  obtain ⟨hstop, hrest, hprev⟩ := h
  obtain ⟨prev, ts, stop⟩ := c
  obtain ⟨prev', us, stop'⟩ := d
  obtain rfl : stop' = stop := hstop
  dsimp only at hrest hprev
  cases hrest with
  | nil => exact ⟨rfl, .nil, hprev⟩
  | same t h => exact ⟨rfl, h, .inl rfl⟩
  | recast htu hlater hstop h =>
    refine ⟨rfl, h, .inr ⟨?_, ?_⟩⟩
    · exact touches_later (fun v hv => hlater v (List.mem_append_left _ hv)) hstop
    · refine touches_later (fun v hv => ?_) (htu.line ▸ hstop)
      rw [htu.line]
      exact hlater v (List.mem_append_right _ hv)

/-- The tokens after the next one are of the same kind too. -/
theorem peekNext_kind (h : c.Alike d) : d.peekNext.kind = c.peekNext.kind := by
  by_cases hnil : c.rest = []
  · have hnil' : d.rest = [] := List.length_eq_zero_iff.mp (by rw [h.rest.length_eq, hnil]; rfl)
    unfold Cursor.peekNext
    rw [hnil, hnil', h.stop]
  · have hnil' : d.rest ≠ [] := fun heq => hnil (List.length_eq_zero_iff.mp (by rw [← h.rest.length_eq, heq]; rfl))
    rw [Cursor.peekNext_eq hnil, Cursor.peekNext_eq hnil', h.next.peek_kind]

end Cursor.Alike

/-! ## Parsers -/

namespace Parse

variable {α β : Type} {c d : Cursor}

/-- What `x` gives at `c`, it gives at `d`, and it stops at the same place. -/
def Agrees (x : Parse α) (c d : Cursor) : Prop :=
  ∀ ⦃a : α⦄ ⦃c' : Cursor⦄, x c = (.ok a, c') → ∃ d', x d = (.ok a, d') ∧ c'.Alike d'

/-- **A parser that does not see how a separator or a fenced block is written.** -/
def Blind (x : Parse α) : Prop := ∀ ⦃c d : Cursor⦄, c.Alike d → x.Agrees c d

namespace Agrees

/-- A parser that agrees here, and then one that agrees everywhere. -/
theorem bind {x : Parse α} {f : α → Parse β} (hx : x.Agrees c d) (hf : ∀ a, (f a).Blind) : (x >>= f).Agrees c d := by
  intro b c' h
  obtain ⟨a, c₁, ha, hb⟩ := bind_eq_ok.mp h
  obtain ⟨d₁, ha', h₁⟩ := hx ha
  obtain ⟨d', hb', h'⟩ := hf a h₁ hb
  exact ⟨d', bind_eq_ok.mpr ⟨a, d₁, ha', hb'⟩, h'⟩

/-- Looking at the kind of a token, which is that of the token that the first cursor sees. -/
theorem peekKind {f : TokenKind → Parse α} (h : c.Alike d) (hf : (f c.peek.kind).Agrees c d) :
    (Parse.peekKind >>= f).Agrees c d := by
  intro a c' heq
  obtain ⟨d', heq', h'⟩ := hf heq
  rw [← h.peek_kind] at heq'
  exact ⟨d', heq', h'⟩

/-- Taking a token that both cursors see. -/
theorem advance (h : c.Alike d) (hpeek : d.peek = c.peek) : Parse.advance.Agrees c d := by
  rintro a c' ⟨⟩
  refine ⟨d.next, ?_, h.next⟩
  rw [← hpeek]
  rfl

end Agrees

namespace Blind

variable {x : Parse α} {f : α → Parse β}

theorem pure (a : α) : Blind (pure a) := by
  rintro c d h b c' ⟨⟩
  exact ⟨d, rfl, h⟩

/-- One parser after another. -/
theorem bind (hx : x.Blind) (hf : ∀ a, (f a).Blind) : (x >>= f).Blind := fun _ _ h => (hx h).bind hf

/-- A choice that goes on in one way. -/
theorem ite_bind {b : Bool} {y : Parse α} (hx : x.Blind) (hy : y.Blind) (hf : ∀ a, (f a).Blind) :
    (if b then x >>= f else y >>= f).Blind := by
  split
  · exact hx.bind hf
  · exact hy.bind hf

theorem map (hx : x.Blind) (f : α → β) : (f <$> x).Blind := by
  rw [map_eq_pure_bind]
  exact hx.bind fun a => pure (f a)

/-- Where both fail nothing is said. -/
theorem fail (issue : TokenKind → ParseIssue) : (Parse.fail issue : Parse α).Blind :=
  fun _ _ _ _ _ h => absurd h fail_ne_ok

theorem failAt (p : Position) (issue : ParseIssue) : (Parse.failAt p issue : Parse α).Blind :=
  fun _ _ _ _ _ h => absurd h failAt_ne_ok

theorem exhausted : (Parse.exhausted : Parse α).Blind := fun _ _ _ _ _ h => absurd h exhausted_ne_ok

/-- What comes out the same at both cursors. -/
theorem flag {p : Cursor → α} (hp : ∀ {c d}, c.Alike d → p d = p c) : Blind fun c => (.ok (p c), c) := by
  rintro c d h a c' ⟨⟩
  exact ⟨d, congrArg (fun a => (Except.ok a, d)) (hp h), h⟩

/-- What is known of the kind of the current token. -/
theorem ofKind (f : TokenKind → α) : Blind fun c => (.ok (f c.peek.kind), c) := flag fun h => congrArg f h.peek_kind

/-- A parser that takes its fuel from the cursor. -/
theorem withFuel {x : Nat → Parse α} (hx : ∀ fuel, (x fuel).Blind) : Blind fun c => x c.fuel c := by
  intro c d h a c' heq
  obtain ⟨d', heq', h'⟩ := hx c.fuel h heq
  rw [← h.fuel_eq] at heq'
  exact ⟨d', heq', h'⟩

/-- Going past a token, whatever it is. -/
theorem skip (hx : x.Blind) : (Parse.advance >>= fun _ => x).Blind := fun _ _ h _ _ heq => hx h.next heq

/-- Looking at a token and at whether it touches the one before. -/
theorem look {f : Token → Bool → Parse α} (hf : ∀ t b, (f t b).Blind)
    (hrecast : ∀ t u b b', t.Recast u → f t b = f u b') :
    Blind (Parse.peek >>= fun t => Parse.touches >>= fun b => f t b) := by
  intro c d h
  show ∀ a c', f c.peek c.touches c = (.ok a, c') → ∃ d', f d.peek d.touches d = (.ok a, d') ∧ c'.Alike d'
  rcases h.peek with hpeek | htu
  · rw [h.touches_eq hpeek, hpeek]
    exact hf _ _ h
  · rw [← hrecast _ _ c.touches d.touches htu]
    exact hf _ _ h

/-- Looking at a token. -/
theorem peek {f : Token → Parse α} (hf : ∀ t, (f t).Blind) (hrecast : ∀ t u, t.Recast u → f t = f u) :
    (Parse.peek >>= f).Blind :=
  look (f := fun t _ => f t) (fun t _ => hf t) fun t u _ _ => hrecast t u

/-- Taking a token of a certain kind if there is one. -/
theorem eat (p : TokenKind → Bool) : Blind fun c => if p c.peek.kind then (.ok true, c.next) else (.ok false, c) := by
  intro c d h a c' heq
  dsimp only at heq ⊢
  rw [h.peek_kind]
  by_cases hp : p c.peek.kind = true
  · rw [if_pos hp] at heq ⊢
    cases heq
    exact ⟨d.next, rfl, h.next⟩
  · rw [if_neg hp] at heq ⊢
    cases heq
    exact ⟨d, rfl, h⟩

theorem eatSymbol (s : Symbol) : (Parse.eatSymbol s).Blind := eat fun k => k.isSymbol s

theorem eatKeyword (word : Keyword) : (Parse.eatKeyword word).Blind := eat fun k => k.isKeyword word

/-- A recast token is no symbol. -/
theorem expectSymbol (s : Symbol) (context : String) : (Parse.expectSymbol s context).Blind := by
  intro c d h a c' heq
  have hone (c : Cursor) : Parse.expectSymbol s context c = (Parse.expectSymbol s context >>= Pure.pure) c := by
    rw [bind_pure]
  rw [hone] at heq
  obtain ⟨hk, heq⟩ := expectSymbol_bind_eq_ok.mp heq
  obtain ⟨rfl, rfl⟩ := pure_eq_ok.mp heq
  have hpeek := h.peek_eq hk rfl
  refine ⟨d.next, ?_, h.next⟩
  rw [hone]
  exact expectSymbol_bind_eq_ok.mpr ⟨by rw [hpeek, hk], by rw [hpeek]; rfl⟩

theorem expectIdent (what : String) : (Parse.expectIdent what).Blind := by
  unfold Parse.expectIdent
  refine peek (fun t => ?_) fun t u htu => ?_
  · split
    · exact skip (pure _)
    · exact fail _
  · rw [htu.kind]
    rcases htu.eq_or with hk | ⟨_, _, hk⟩ <;> rw [hk]

theorem expectClosing (close : Symbol) (opened : Token) : (Parse.expectClosing close opened).Blind := by
  refine (eatSymbol close).bind fun found => ?_
  cases found with
  | true => exact pure ()
  | false => exact fail _

theorem atSeparator : Parse.atSeparator.Blind := ofKind endsStatement

theorem expectSeparator : Parse.expectSeparator.Blind := by
  refine atSeparator.bind fun ends => ?_
  split
  · refine (ofKind id).bind fun k => ?_
    split
    · exact skip (pure ())
    · exact pure ()
  · exact fail _

/-- A recast line break is a line break. -/
theorem skipNewlines : Parse.skipNewlines.Blind := by
  intro c
  induction hn : c.rest.length generalizing c with
  | zero =>
    intro d h a c' heq
    have hnil := List.length_eq_zero_iff.mp hn
    have hnil' : d.rest = [] := List.length_eq_zero_iff.mp (by rw [h.rest.length_eq, hn])
    unfold Parse.skipNewlines at heq ⊢
    rw [hnil] at heq
    cases heq
    exact ⟨d, by rw [hnil']; rfl, h⟩
  | succ n ih =>
    intro d h
    have hne : c.rest ≠ [] := List.ne_nil_of_length_eq_add_one hn
    have hne' : d.rest ≠ [] := List.ne_nil_of_length_eq_add_one (h.rest.length_eq.trans hn)
    by_cases hline : c.peek.kind.isNewline = true
    · have hlength : c.next.rest.length = n := by
        obtain ⟨t, rest, hrest⟩ := List.exists_cons_of_ne_nil hne
        unfold Cursor.next
        rw [hrest] at hn ⊢
        exact Nat.succ.inj hn
      have hnext := ih hlength h.next
      unfold Agrees at hnext ⊢
      rwa [skipNewlines_next hne hline, skipNewlines_next hne' (by rwa [h.peek_kind])] at hnext
    · rw [Bool.not_eq_true] at hline
      intro a c' heq
      rw [skipNewlines_of_ne hline] at heq
      cases heq
      exact ⟨d, skipNewlines_of_ne (by rwa [h.peek_kind]), h⟩

/-- Item after item. -/
theorem manyUntil {stop : Parse Bool} {item : Parse α} (hstop : stop.Blind) (hitem : item.Blind) (fuel : Nat) :
    (Parse.manyUntil stop item fuel).Blind := by
  induction fuel with
  | zero => exact exhausted
  | succ fuel ih =>
    refine hstop.bind fun stopped => ?_
    split
    · exact pure []
    · exact hitem.bind fun a => ih.bind fun rest => pure (a :: rest)

theorem many {stop : Parse Bool} {item : Parse α} (hstop : stop.Blind) (hitem : item.Blind) :
    (Parse.many stop item).Blind := withFuel (manyUntil hstop hitem)

end Blind

end Parse

/-! ## Expressions -/

namespace Expr

open Parse (Blind)

/-- What a recast token is not: an expression by itself. -/
theorem atom?_recast {t : Token} {u : Token} (h : t.Recast u) : atom? t.kind = none := by
  rcases h.eq_or with hk | ⟨_, _, hk⟩ <;> rw [hk] <;> rfl

/-- Depth is not read off the text. -/
theorem checkDepth_blind (depth : Nat) : (checkDepth depth).Blind := by
  unfold checkDepth
  split
  · exact .fail _
  · exact .pure ()

/-- The functions of the parser of expressions are blind with some fuel. -/
structure BlindBy (fuel : Nat) : Prop where
  expression : ∀ depth, (expression fuel depth).Blind
  chain : ∀ depth level, (chain fuel depth level).Blind
  operand : ∀ depth level, (operand fuel depth level).Blind
  chainRest : ∀ depth level left, (chainRest fuel depth level left).Blind
  unaryOrPostfix : ∀ depth command, (unaryOrPostfix fuel depth command).Blind
  postfixRest : ∀ depth command e, (postfixRest fuel depth command e).Blind
  primary : ∀ depth, (primary fuel depth).Blind
  commaList : ∀ depth close opened, (commaList fuel depth close opened).Blind
  pairList : ∀ depth opened, (pairList fuel depth opened).Blind

namespace BlindBy

variable {fuel : Nat}

theorem zero : BlindBy 0 := by
  constructor <;> (intros; simp only [Expr.expression, Expr.chain, Expr.operand, Expr.chainRest, Expr.unaryOrPostfix,
    Expr.postfixRest, Expr.primary, Expr.commaList, Expr.pairList]; exact .exhausted)

/-- One level of fuel less: an expression. -/
theorem expression_succ (ih : BlindBy fuel) (depth : Nat) : (Expr.expression (fuel + 1) depth).Blind := by
  rw [Expr.expression]
  exact (checkDepth_blind depth).bind fun _ => ih.chain (depth + 1) .or

theorem chain_succ (ih : BlindBy fuel) (depth : Nat) (level : Level) :
    (Expr.chain (fuel + 1) depth level).Blind := by
  rw [Expr.chain]
  exact (ih.operand depth level).bind fun left => ih.chainRest depth level left

theorem operand_succ (ih : BlindBy fuel) (depth : Nat) (level : Level) :
    (Expr.operand (fuel + 1) depth level).Blind := by
  rw [Expr.operand]
  split
  · exact ih.chain depth _
  · exact ih.unaryOrPostfix depth false

theorem chainRest_succ (ih : BlindBy fuel) (depth : Nat) (level : Level) (left : Expr) :
    (Expr.chainRest (fuel + 1) depth level left).Blind := by
  rw [Expr.chainRest]
  refine (Blind.ofKind id).bind fun k => ?_
  split
  · exact .skip ((ih.operand depth level).bind fun right => ih.chainRest depth level _)
  · exact .pure left

/-- A recast token is no sign. -/
theorem unaryOrPostfix_succ (ih : BlindBy fuel) (depth : Nat) (command : Bool) :
    (Expr.unaryOrPostfix (fuel + 1) depth command).Blind := by
  rw [Expr.unaryOrPostfix]
  refine (Blind.ofKind id).bind fun k => ?_
  split
  · refine .skip ((checkDepth_blind depth).bind fun _ => ?_)
    exact (ih.unaryOrPostfix (depth + 1) command).bind fun e => .pure _
  · exact (ih.primary depth).bind fun e => ih.postfixRest depth command e

theorem postfixRest_succ (ih : BlindBy fuel) (depth : Nat) (command : Bool) (e : Expr) :
    (Expr.postfixRest (fuel + 1) depth command e).Blind := by
  rw [Expr.postfixRest]
  refine .look (fun t b => ?_) fun t u b b' htu => ?_
  · dsimp only
    split
    · split
      · exact .pure e
      · exact .skip ((ih.commaList depth _ t).bind fun args => ih.postfixRest depth command _)
    · split
      · exact .pure e
      · refine .skip ((ih.expression depth).bind fun i => ?_)
        exact (Blind.expectClosing _ t).bind fun _ => ih.postfixRest depth command _
    · exact .skip ((Blind.expectIdent _).bind fun _ => ih.postfixRest depth command _)
    · exact .pure e
  · -- only a bracket asks what it touches
    rw [htu.kind]
    rcases htu.eq_or with hk | ⟨_, _, hk⟩ <;> rw [hk]

/-- Nor does it begin a primary. -/
theorem primary_succ (ih : BlindBy fuel) (depth : Nat) : (Expr.primary (fuel + 1) depth).Blind := by
  rw [Expr.primary]
  refine .peek (fun t => ?_) fun t u htu => ?_
  · split
    · exact .skip (.pure _)
    · split
      · refine .skip ((ih.expression depth).bind fun e => ?_)
        exact (Blind.expectClosing _ t).bind fun _ => .pure e
      · exact .skip ((ih.commaList depth _ t).bind fun items => .pure _)
      · exact .skip ((ih.pairList depth t).bind fun pairs => .pure _)
      · exact .fail _
  · rw [htu.kind, atom?_recast htu]
    rcases htu.eq_or with hk | ⟨_, _, hk⟩ <;> rw [hk]

theorem commaList_succ (ih : BlindBy fuel) (depth : Nat) (close : Symbol) (opened : Token) :
    (Expr.commaList (fuel + 1) depth close opened).Blind := by
  rw [Expr.commaList]
  refine (Blind.eatSymbol close).bind fun closed => ?_
  split
  · exact .pure []
  · refine (ih.expression depth).bind fun e => (Blind.eatSymbol .comma).bind fun more => ?_
    split
    · exact (ih.commaList depth close opened).bind fun rest => .pure _
    · exact (Blind.expectClosing close opened).bind fun _ => .pure [e]

theorem pairList_succ (ih : BlindBy fuel) (depth : Nat) (opened : Token) :
    (Expr.pairList (fuel + 1) depth opened).Blind := by
  rw [Expr.pairList]
  refine (Blind.eatSymbol .rightBrace).bind fun closed => ?_
  split
  · exact .pure []
  · refine (ih.expression depth).bind fun key => (Blind.expectSymbol .colon _).bind fun _ => ?_
    refine (ih.expression depth).bind fun value => (Blind.eatSymbol .comma).bind fun more => ?_
    split
    · exact (ih.pairList depth opened).bind fun rest => .pure _
    · exact (Blind.expectClosing .rightBrace opened).bind fun _ => .pure [(key, value)]

/-- By induction on the fuel. -/
theorem all (fuel : Nat) : BlindBy fuel := by
  induction fuel with
  | zero => exact zero
  | succ fuel ih =>
    exact ⟨ih.expression_succ, ih.chain_succ, ih.operand_succ, ih.chainRest_succ, ih.unaryOrPostfix_succ,
      ih.postfixRest_succ, ih.primary_succ, ih.commaList_succ, ih.pairList_succ⟩

end BlindBy

/-- **An expression is parsed without looking where a line break or a block stands.** -/
theorem parser_blind : parser.Blind := .withFuel fun fuel => (BlindBy.all fuel).expression 0

theorem commandArg_blind : commandArg.Blind := .withFuel fun fuel => (BlindBy.all fuel).unaryOrPostfix 0 true

theorem parenArgs_blind : parenArgs.Blind :=
  (Blind.expectSymbol .leftParen _).bind fun opened =>
    .withFuel fun fuel => (BlindBy.all fuel).commaList 0 .rightParen opened

end Expr

/-! ## Statements -/

namespace Stmt

open Parse (Blind)

theorem withComma_blind {item : Parse Expr} (hitem : item.Blind) : (withComma item).Blind :=
  hitem.bind fun e => (Blind.eatSymbol .comma).bind fun _ => .pure e

theorem printArgs_blind : printArgs.Blind := by
  -- whether a parenthesis comes next and touches the word
  refine Blind.look (f := fun t touches =>
    if t.kind.isSymbol .leftParen && touches then Expr.parenArgs
    else Parse.many Parse.atSeparator (withComma Expr.parser)) (fun t touches => ?_) fun t u _ _ htu => ?_
  · split
    · exact Expr.parenArgs_blind
    · exact .many .atSeparator (withComma_blind Expr.parser_blind)
  · rw [htu.kind]
    rcases htu.eq_or with hk | ⟨_, _, hk⟩ <;> rw [hk] <;> rfl

theorem commandArgs_blind : commandArgs.Blind := .many .atSeparator (withComma_blind Expr.commandArg_blind)

theorem callCommand_blind : callCommand.Blind := by
  refine (Blind.eatKeyword .print).bind fun printed => ?_
  refine Blind.ite_bind (.pure _) Expr.commandArg_blind fun callee => ?_
  refine Blind.bind .atSeparator fun ends => ?_
  split
  · exact .pure _
  · exact commandArgs_blind.bind fun args => .pure _

theorem callStatement_blind (pos : Position) : (callStatement pos).Blind := by
  refine Expr.commandArg_blind.bind fun e => Blind.bind .atSeparator fun ends => ?_
  split
  · split
    · exact .pure _
    · split
      · exact .pure _
      · exact .failAt _ _
  · refine (Blind.ofKind id).bind fun k => ?_
    split
    · exact commandArgs_blind.bind fun args => .pure _
    · exact .failAt _ _

theorem literalName_blind : literalName.Blind := by
  refine .peek (fun t => ?_) fun t u htu => ?_
  · split
    · exact .skip (.pure _)
    · exact .skip (.pure _)
    · exact .skip (.pure _)
    · exact .fail _
  · rw [htu.kind]
    rcases htu.eq_or with hk | ⟨_, _, hk⟩ <;> rw [hk]

theorem positionals_blind (v : Verb) (slots : List Slot) (index : Nat) : (positionals v index slots).Blind := by
  induction slots generalizing index with
  | nil => exact .pure []
  | cons slot slots ih =>
    refine (Blind.ofKind id).bind fun k => Blind.bind .atSeparator fun ends => ?_
    split
    · exact .fail _
    · have hrest (p : Positional) : Blind (do let rest ← positionals v (index + 1) slots; pure (p :: rest)) :=
        (ih (index + 1)).bind fun rest => .pure _
      cases slot with
      | name => exact (literalName_blind.map _).bind hrest
      | expr => exact (Expr.commandArg_blind.map _).bind hrest

theorem clauseValues_blind (kind : ClauseKind) (n : Nat) : (clauseValues kind n).Blind := by
  induction n with
  | zero => exact .pure []
  | succ n ih =>
    refine Blind.bind .atSeparator fun ends => ?_
    split
    · exact .fail _
    · exact Expr.commandArg_blind.bind fun e => ih.bind fun rest => .pure _

theorem clauseBody_blind (kind : ClauseKind) : (clauseBody kind).Blind := by
  unfold clauseBody
  split
  · exact (Blind.expectIdent _).bind fun _ => .pure _
  · refine (Blind.expectIdent _).bind fun _ => ?_
    refine Blind.bind (.many ?_ Expr.commandArg_blind) fun args => .pure _
    exact .ofKind fun k => Parse.endsStatement k || (clauseWord? k).isSome
  · exact (clauseValues_blind _ _).bind fun es => .pure _

theorem clause_blind (v : Verb) (before : List ClauseKind) : (clause v before).Blind := by
  refine .peek (fun t => ?_) fun t u htu => ?_
  · split
    · exact .fail _
    · split
      · exact .failAt _ _
      · split
        · exact .failAt _ _
        · exact .skip (clauseBody_blind _)
  · rw [htu.kind]
    rcases htu.eq_or with hk | ⟨_, _, hk⟩ <;> rw [hk] <;> rfl

theorem clauses_blind (v : Verb) (fuel : Nat) (before : List ClauseKind) : (clauses v fuel before).Blind := by
  induction fuel generalizing before with
  | zero => exact .exhausted
  | succ fuel ih =>
    refine Blind.bind .atSeparator fun ends => ?_
    split
    · exact .pure []
    · exact (clause_blind v before).bind fun c => (ih _).bind fun rest => .pure _

/-- **So is a command.** -/
theorem command_blind (surface : Surface) : (command_ surface).Blind := by
  refine .peek (fun t => ?_) fun t u htu => ?_
  · split
    · split
      · exact .failAt _ _
      · refine .skip ((positionals_blind _ _ 0).bind fun ps => ?_)
        refine (Blind.withFuel fun fuel => clauses_blind _ fuel []).bind fun cs => ?_
        split
        · exact .fail _
        · exact .pure _
    · exact .fail _
  · rw [htu.kind]
    rcases htu.eq_or with hk | ⟨_, _, hk⟩ <;> rw [hk]

theorem parameters_blind (function : String) (fuel : Nat) (before : List String) :
    (parameters function fuel before).Blind := by
  induction fuel generalizing before with
  | zero => exact .exhausted
  | succ fuel ih =>
    refine (Blind.eatSymbol .rightParen).bind fun closed => ?_
    split
    · exact .pure before
    · refine (Blind.expectIdent _).bind fun (param, pos) => ?_
      dsimp only
      split
      · exact .failAt _ _
      · refine (Blind.eatSymbol .comma).bind fun more => ?_
        split
        · exact ih _
        · exact (Blind.expectSymbol .rightParen _).bind fun _ => .pure _

theorem signature_blind : signature.Blind := by
  refine (Blind.expectIdent _).bind fun (name, _) => (Blind.eatSymbol .leftParen).bind fun opened => ?_
  have hafter (params : List String) : Blind (do
      let _ ← Parse.expectSymbol .colon "after the function signature"
      pure (name, params)) := (Blind.expectSymbol .colon _).bind fun _ => .pure _
  dsimp only
  split
  · exact (Blind.withFuel fun fuel => parameters_blind name fuel []).bind hafter
  · exact hafter []

theorem pathRest_blind (fuel : Nat) (path : String) : (pathRest fuel path).Blind := by
  induction fuel generalizing path with
  | zero => exact .exhausted
  | succ fuel ih =>
    refine (Blind.eatSymbol .dot).bind fun found => ?_
    split
    · exact (Blind.expectIdent _).bind fun _ => ih _
    · exact .pure path

theorem checkBlocks_blind (ctx : Context) (pos : Position) : (checkBlocks ctx pos).Blind := by
  unfold checkBlocks
  split
  · exact .failAt _ _
  · exact .pure ()

theorem requireEnd_blind (t : Token) (issue : String → ParseIssue) : (requireEnd t issue).Blind := by
  unfold requireEnd
  split
  · exact .pure ()
  · exact .failAt _ _

/-- The functions of the parser of statements are blind with some fuel. -/
structure BlindBy (fuel : Nat) : Prop where
  statement : ∀ ctx, (statement fuel ctx).Blind
  statementBody : ∀ ctx t, (statementBody fuel ctx t).Blind
  blockBody : ∀ ctx opened, (blockBody fuel ctx opened).Blind
  plainBlock : ∀ ctx opened, (plainBlock fuel ctx opened).Blind
  ifChain : ∀ ctx opened, (ifChain fuel ctx opened).Blind

namespace BlindBy

variable {fuel : Nat}

theorem zero : BlindBy 0 := by
  constructor <;> (intros; exact .exhausted)

/-- A statement that starts with a recast token is a fenced block or none. -/
theorem statementBody_recast (fuel : Nat) (ctx : Context) {t u : Token} (htu : t.Recast u) :
    Stmt.statementBody fuel ctx t = Stmt.statementBody fuel ctx u := by
  cases fuel with
  | zero => rfl
  | succ fuel =>
    unfold Stmt.statementBody
    rw [htu.kind]
    rcases htu.eq_or with hk | ⟨_, _, hk⟩ <;> rw [hk]

/-- The line of a statement is that of its first token, which recasting keeps. -/
theorem statement_succ (ih : BlindBy fuel) (ctx : Context) : (Stmt.statement (fuel + 1) ctx).Blind := by
  refine .peek (fun t => (ih.statementBody ctx t).bind fun s => .pure _) fun t u htu => ?_
  rw [statementBody_recast fuel ctx htu, htu.line]

theorem statementBody_succ (ih : BlindBy fuel) (ctx : Context) (t : Token) :
    (Stmt.statementBody (fuel + 1) ctx t).Blind := by
  unfold Stmt.statementBody
  split
  · -- `let`
    refine .skip ((Blind.expectIdent _).bind fun _ => (Blind.expectSymbol .assign _).bind fun _ => ?_)
    exact Expr.parser_blind.bind fun e => .pure _
  · -- `print`
    exact .skip (printArgs_blind.bind fun args => .pure _)
  · -- `if`
    exact .skip ((checkBlocks_blind ctx _).bind fun _ => ih.ifChain _ _)
  · -- `while`
    refine .skip (Expr.parser_blind.bind fun cond => (Blind.expectSymbol .colon _).bind fun _ => ?_)
    exact (ih.plainBlock ctx _).bind fun body => .pure _
  · -- `for`
    refine .skip ((Blind.expectIdent _).bind fun _ => (Blind.eatKeyword .in_).bind fun found => ?_)
    split
    · refine Expr.parser_blind.bind fun items => (Blind.expectSymbol .colon _).bind fun _ => ?_
      exact (ih.plainBlock ctx _).bind fun body => .pure _
    · exact .fail _
  · -- `solar_def`
    exact .skip (signature_blind.bind fun _ => (ih.plainBlock ctx _).bind fun body => .pure _)
  · -- `return`
    split
    · refine .skip (Blind.bind .atSeparator fun ends => ?_)
      split
      · exact .pure _
      · exact Expr.parser_blind.bind fun e => .pure _
    · exact .failAt _ _
  · -- `break`
    split
    · exact .skip (.pure _)
    · exact .failAt _ _
  · -- `continue`
    split
    · exact .skip (.pure _)
    · exact .failAt _ _
  · -- `contain`
    refine .skip ((Blind.expectIdent _).bind fun (first, _) => ?_)
    exact (Blind.withFuel fun fuel => pathRest_blind fuel first).bind fun path => .pure _
  · exact .skip (.pure _)
  · -- `call`
    exact .skip callCommand_blind
  · exact .skip ((command_blind .ui).map _)
  · exact .skip ((command_blind .game).map _)
  · -- a name
    refine (Blind.flag fun h => congrArg (·.isSymbol .assign) h.peekNext_kind).bind fun assigns => ?_
    split
    · exact .failAt _ _
    · exact callStatement_blind _
  · exact .fail _

/-- Statements up to the end of a block. -/
theorem blockBody_succ (ih : BlindBy fuel) (ctx : Context) (opened : OpenBlock) :
    (Stmt.blockBody (fuel + 1) ctx opened).Blind := by
  refine Blind.skipNewlines.bind fun _ c d h => .peekKind h ?_
  -- the three tokens that close a block are read
  have hclose {k : TokenKind} (hk : c.peek.kind = k) (hread : k.isUnread = false) :
      Parse.Agrees (do let t ← Parse.advance; pure (([] : Block), t)) c d :=
    (Parse.Agrees.advance h (h.peek_eq hk hread)).bind fun t => .pure _
  generalize hk : c.peek.kind = k
  split
  · exact hclose hk rfl
  · exact hclose hk rfl
  · exact hclose hk rfl
  · exact Blind.failAt _ _ h
  · refine Blind.bind (ih.statement ctx) (fun s => ?_) h
    exact Blind.expectSeparator.bind fun _ => (ih.blockBody ctx opened).bind fun (rest, t) => .pure _

theorem plainBlock_succ (ih : BlindBy fuel) (ctx : Context) (opened : OpenBlock) :
    (Stmt.plainBlock (fuel + 1) ctx opened).Blind := by
  refine (checkBlocks_blind ctx _).bind fun _ => (ih.blockBody _ opened).bind fun (body, t) => ?_
  exact (requireEnd_blind t _).bind fun _ => .pure body

theorem ifChain_succ (ih : BlindBy fuel) (ctx : Context) (opened : OpenBlock) :
    (Stmt.ifChain (fuel + 1) ctx opened).Blind := by
  refine Expr.parser_blind.bind fun cond => (Blind.expectSymbol .colon _).bind fun _ => ?_
  refine (ih.blockBody ctx opened).bind fun (yes, t) => ?_
  dsimp only
  split
  · exact (ih.ifChain ctx opened).bind fun s => .pure _
  · refine (Blind.expectSymbol .colon _).bind fun _ => (ih.blockBody ctx opened).bind fun (no, last) => ?_
    exact (requireEnd_blind last _).bind fun _ => .pure _
  · exact .pure _

theorem all (fuel : Nat) : BlindBy fuel := by
  induction fuel with
  | zero => exact zero
  | succ fuel ih =>
    exact ⟨ih.statement_succ, ih.statementBody_succ, ih.blockBody_succ, ih.plainBlock_succ, ih.ifChain_succ⟩

end BlindBy

/-- **The parser of programs is blind.** -/
theorem topLevel_blind (fuel : Nat) : (topLevel fuel).Blind := by
  induction fuel with
  | zero => exact .exhausted
  | succ fuel ih =>
    refine Blind.skipNewlines.bind fun _ => .peek (fun t => ?_) fun t u htu => ?_
    · split
      · exact .pure []
      · exact .failAt _ _
      · exact .failAt _ _
      · exact .failAt _ _
      · refine (Blind.withFuel fun fuel => (BlindBy.all fuel).statement .top).bind fun s => ?_
        exact Blind.expectSeparator.bind fun _ => ih.bind fun rest => .pure _
    · rw [htu.kind]
      rcases htu.eq_or with hk | ⟨_, _, hk⟩ <;> rw [hk]

end Stmt

end Helios
