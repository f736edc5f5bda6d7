import Helios.Expr.Parser

/-!
# Grammar — how expressions are written, and what the parser of each level does

`Expr.Rendering` is the grammar: which sequences of tokens write which trees. Forms have ranks, and a place in a
form asks for a rank: what stands there binds at least as tightly, or else stands in parentheses.

| rank | form |
|---|---|
| 0 | `or` |
| 1 | `and` |
| 2 | `==` `!=` `<` `<=` `>` `>=` |
| 3 | `+` `-` |
| 4 | `*` `/` `%` |
| 5 | `-x`, `not x` |
| 6 | `f(x)`, `x[i]`, `x.name` |
| 7 | literals, names, `(x)`, `[x]`, dicts |

The rest of the module opens the parser once. Each of its functions gets one lemma that says when it succeeds
and where (`chain_eq_ok` and those after it); nothing later unfolds them.
-/

namespace Helios

/-! ## Tokens -/

/-- The token of a literal. -/
def Literal.token : Literal → TokenKind
  | nil => .keyword .nil
  | bool true => .keyword .true_
  | bool false => .keyword .false_
  | int n => .int n
  | float x => .float x
  | str s => .str s

/-- No literal looks like a bracket or a sign. -/
theorem Literal.token_ne_symbol (l : Literal) (s : Symbol) : l.token ≠ .symbol s := by
  cases l with
  | bool b => cases b <;> nofun
  | _ => nofun

/-- The token of a unary operator. -/
def UnaryOp.token : UnaryOp → TokenKind
  | neg => .symbol .minus
  | not => .keyword .not

theorem UnaryOp.token_ne_eof (op : UnaryOp) : op.token ≠ .eof := by cases op <;> nofun

/-- The token of a binary operator. -/
def BinOp.token : BinOp → TokenKind
  | add => .symbol .plus
  | sub => .symbol .minus
  | mul => .symbol .star
  | div => .symbol .slash
  | rem => .symbol .percent
  | eq => .symbol .eqEq
  | ne => .symbol .ne
  | lt => .symbol .lt
  | le => .symbol .le
  | gt => .symbol .gt
  | ge => .symbol .ge
  | and => .keyword .and
  | or => .keyword .or

theorem BinOp.token_ne_eof (op : BinOp) : op.token ≠ .eof := by cases op <;> nofun

/-- How tightly a binary operator binds. -/
def BinOp.rank : BinOp → Nat
  | or => 0
  | and => 1
  | eq | ne | lt | le | gt | ge => 2
  | add | sub => 3
  | mul | div | rem => 4

/-- Operators between operands bind less tightly than signs. -/
theorem BinOp.rank_le (op : BinOp) : op.rank ≤ 4 := by cases op <;> decide

namespace Expr

/-! ## The grammar -/

/-- **Items separated by commas.** One more comma may follow the last item. -/
inductive Commas : List (List TokenKind) → List TokenKind → Prop
  | nil : Commas [] []
  | last (w : List TokenKind) : Commas [w] w
  | cons {w ts : List TokenKind} {ws : List (List TokenKind)} (h : Commas ws ts) :
    Commas (w :: ws) (w ++ .symbol .comma :: ts)

/-- The first item stands alone or before a comma. -/
theorem Commas.of_cons {w ts : List TokenKind} {ws : List (List TokenKind)} (h : Commas (w :: ws) ts) :
    (ws = [] ∧ ts = w) ∨ ∃ ts', Commas ws ts' ∧ ts = w ++ .symbol .comma :: ts' := by
  cases h with
  | last => exact .inl ⟨rfl, rfl⟩
  | cons h => exact .inr ⟨_, h, rfl⟩

/-- Tokens between two symbols. -/
def bracketed (left : Symbol) (ts : List TokenKind) (right : Symbol) : List TokenKind :=
  .symbol left :: (ts ++ [.symbol right])

/-- **The grammar of expressions.** `Rendering n p ts e`: the tokens `ts` write the tree `e` in a place that asks
    for rank `p`, and brackets and unary operators in them nest at most `n` deep. -/
inductive Rendering : Nat → Nat → List TokenKind → Expr → Prop
  | literal {n p : Nat} (l : Literal) : Rendering n p [l.token] (.literal l)
  | var {n p : Nat} (name : String) : Rendering n p [.ident name] (.var name)
  /-- In parentheses any form may stand anywhere, also where none are needed. -/
  | group {n m p : Nat} {ts : List TokenKind} {e : Expr} (hm : m < n) (h : Rendering m 0 ts e) :
    Rendering n p (bracketed .leftParen ts .rightParen) e
  | list {n m p : Nat} {items : List (List TokenKind × Expr)} {ts : List TokenKind}
    (hm : items ≠ [] → m < n) (h : ∀ i ∈ items, Rendering m 0 i.1 i.2)
    (hs : Commas (items.map Prod.fst) ts) :
    Rendering n p (bracketed .leftBracket ts .rightBracket) (.list (items.map Prod.snd))
  | dict {n m p : Nat} {entries : List ((List TokenKind × Expr) × (List TokenKind × Expr))}
    {ts : List TokenKind} (hm : entries ≠ [] → m < n) (hk : ∀ i ∈ entries, Rendering m 0 i.1.1 i.1.2)
    (hv : ∀ i ∈ entries, Rendering m 0 i.2.1 i.2.2)
    (hs : Commas (entries.map fun i => i.1.1 ++ .symbol .colon :: i.2.1) ts) :
    Rendering n p (bracketed .leftBrace ts .rightBrace) (.dict (entries.map fun i => (i.1.2, i.2.2)))
  | call {n m p : Nat} {ts as : List TokenKind} {e : Expr} {args : List (List TokenKind × Expr)}
    (hp : p ≤ 6) (h : Rendering n 6 ts e) (hm : args ≠ [] → m < n)
    (ha : ∀ i ∈ args, Rendering m 0 i.1 i.2) (hs : Commas (args.map Prod.fst) as) :
    Rendering n p (ts ++ bracketed .leftParen as .rightParen) (.call e (args.map Prod.snd))
  | index {n m p : Nat} {ts is : List TokenKind} {e i : Expr} (hp : p ≤ 6) (h : Rendering n 6 ts e)
    (hm : m < n) (hi : Rendering m 0 is i) :
    Rendering n p (ts ++ bracketed .leftBracket is .rightBracket) (.index e i)
  | member {n p : Nat} {ts : List TokenKind} {e : Expr} (hp : p ≤ 6) (h : Rendering n 6 ts e)
    (name : String) : Rendering n p (ts ++ [.symbol .dot, .ident name]) (.member e name)
  | unary {n m p : Nat} {ts : List TokenKind} {e : Expr} (op : UnaryOp) (hp : p ≤ 5) (hm : m < n)
    (h : Rendering m 5 ts e) : Rendering n p (op.token :: ts) (.unary op e)
  /-- Binary operators associate to the left: a right operand binds more tightly than the operator, and a left
      operand at least as tightly. -/
  | binary {n p : Nat} {ls rs : List TokenKind} {l r : Expr} (op : BinOp) (hp : p ≤ op.rank)
    (hl : Rendering n op.rank ls l) (hr : Rendering n (op.rank + 1) rs r) :
    Rendering n p (ls ++ op.token :: rs) (.binary op l r)

/-- What may stand in a place may stand in one that asks for less. -/
theorem Rendering.loosen {n p q : Nat} {ts : List TokenKind} {e : Expr} (h : Rendering n p ts e)
    (hq : q ≤ p) : Rendering n q ts e := by
  cases h with
  | literal l => exact .literal l
  | var name => exact .var name
  | group hm h => exact .group hm h
  | list hm h hs => exact .list hm h hs
  | dict hm hk hv hs => exact .dict hm hk hv hs
  | call hp h hm ha hs => exact .call (Nat.le_trans hq hp) h hm ha hs
  | index hp h hm hi => exact .index (Nat.le_trans hq hp) h hm hi
  | member hp h name => exact .member (Nat.le_trans hq hp) h name
  | unary op hp hm h => exact .unary op (Nat.le_trans hq hp) hm h
  | binary op hp hl hr => exact .binary op (Nat.le_trans hq hp) hl hr

/-- **A token that cannot go on** with an expression in a place of rank `q` or more: no operator that binds that
    tightly, nor what opens a call or an index or leads to a member. -/
structure Ends (q : Nat) (k : TokenKind) : Prop where
  operator : ∀ op : BinOp, k = op.token → op.rank < q
  suffix : q ≤ 6 → k ≠ .symbol .leftParen ∧ k ≠ .symbol .leftBracket ∧ k ≠ .symbol .dot

/-- What ends a form of one rank ends one that binds more tightly. -/
theorem Ends.mono {q q' : Nat} {k : TokenKind} (h : Ends q k) (hq : q ≤ q') : Ends q' k where
  operator op hop := Nat.lt_of_lt_of_le (h.operator op hop) hq
  suffix hq' := h.suffix (Nat.le_trans hq hq')

/-- The symbols that stand after expressions and never in front of one. -/
inductive Delimiter : Symbol → Prop
  | comma : Delimiter .comma
  | colon : Delimiter .colon
  | paren : Delimiter .rightParen
  | bracket : Delimiter .rightBracket
  | brace : Delimiter .rightBrace

/-- A comma or a closing bracket ends every form. -/
theorem Delimiter.ends {s : Symbol} (h : Delimiter s) (q : Nat) : Ends q (.symbol s) := by
  refine ⟨fun op hop => ?_, fun _ => ?_⟩
  · cases h <;> cases op <;> cases hop
  · cases h <;> simp

/-- An operator ends what binds more tightly. -/
theorem ends_operator {op : BinOp} {q : Nat} (h : op.rank < q) : Ends q op.token := by
  refine ⟨fun op' hop => ?_, fun _ => ?_⟩
  · have : op' = op := by cases op <;> cases op' <;> first | rfl | cases hop
    rwa [this]
  · cases op <;> simp [BinOp.token]

/-- Nothing goes on after what is complete by itself. -/
theorem ends_primary (k : TokenKind) {q : Nat} (h : 7 ≤ q) : Ends q k :=
  ⟨fun op _ => by have := op.rank_le; omega, fun hq => absurd h (by omega)⟩

theorem unaryOperator?_literal (l : Literal) : unaryOperator? l.token = none := by
  cases l with
  | bool b => cases b <;> rfl
  | _ => rfl

/-- **How a rendering starts**: never with a delimiter, and with a unary operator only where one may stand. -/
theorem Rendering.head {n p : Nat} {ts : List TokenKind} {e : Expr} (h : Rendering n p ts e) :
    ∃ k ks, ts = k :: ks ∧ (∀ s, Delimiter s → k ≠ .symbol s) ∧ (6 ≤ p → unaryOperator? k = none) := by
  induction h with
  | literal l => exact ⟨_, _, rfl, fun s _ => l.token_ne_symbol s, fun _ => unaryOperator?_literal l⟩
  | var name => exact ⟨_, _, rfl, fun _ _ => nofun, fun _ => rfl⟩
  | group | list | dict =>
    refine ⟨_, _, rfl, fun s hs heq => ?_, fun _ => rfl⟩
    cases heq
    cases hs
  | call _ _ _ _ _ ih | index _ _ _ _ ih | member _ _ _ ih =>
    obtain ⟨k, ks, rfl, hdelimiter, hunary⟩ := ih
    exact ⟨k, _, rfl, hdelimiter, fun _ => hunary (Nat.le_refl 6)⟩
  | unary op hp =>
    refine ⟨_, _, rfl, fun s hs heq => ?_, fun hp' => absurd hp (by omega)⟩
    cases op <;> cases heq
    cases hs
  | binary op hp _ _ ihl =>
    obtain ⟨k, ks, rfl, hdelimiter, -⟩ := ihl
    have := op.rank_le
    exact ⟨k, _, rfl, hdelimiter, fun hp' => absurd hp (by omega)⟩

/-! ## The tables of the parser -/

namespace Level

/-- The rank of the operators of a level. -/
def rank : Level → Nat
  | or => 0
  | and => 1
  | comparison => 2
  | additive => 3
  | multiplicative => 4

/-- The operators of a level are those of its rank. -/
theorem operator?_eq_some_iff {l : Level} {k : TokenKind} {op : BinOp} :
    l.operator? k = some op ↔ op.rank = l.rank ∧ k = op.token := by
  constructor
  · intro h
    unfold operator? at h
    split at h <;> cases h <;> exact ⟨rfl, rfl⟩
  · rintro ⟨hrank, rfl⟩
    cases op <;> cases l <;> cases hrank <;> rfl

theorem exists_rank_eq {p : Nat} (hp : p ≤ 4) : ∃ l : Level, l.rank = p := by
  match p, hp with
  | 0, _ => exact ⟨.or, rfl⟩
  | 1, _ => exact ⟨.and, rfl⟩
  | 2, _ => exact ⟨.comparison, rfl⟩
  | 3, _ => exact ⟨.additive, rfl⟩
  | 4, _ => exact ⟨.multiplicative, rfl⟩

end Level

/-- The two signs. -/
theorem unaryOperator?_eq_some_iff {k : TokenKind} {op : UnaryOp} :
    unaryOperator? k = some op ↔ k = op.token := by
  constructor
  · intro h
    unfold unaryOperator? at h
    split at h <;> cases h <;> rfl
  · rintro rfl
    cases op <;> rfl

/-- A token that is a whole expression is its own rendering. -/
theorem atom?_eq_some {k : TokenKind} {e : Expr} (h : atom? k = some e) (n p : Nat) :
    Rendering n p [k] e := by
  unfold atom? at h
  split at h
  · cases h; exact .literal (.int _)
  · cases h; exact .literal (.float _)
  · cases h; exact .literal (.str _)
  · cases h; exact .literal (.bool true)
  · cases h; exact .literal (.bool false)
  · cases h; exact .literal .nil
  · cases h; exact .var _
  · exact nomatch h

theorem atom?_token (l : Literal) : atom? l.token = some (.literal l) := by
  cases l with
  | bool b => cases b <;> rfl
  | _ => rfl

end Expr

/-! ## Parsers that succeed -/

namespace Parse

variable {α β : Type}

/-- **Two parsers that succeed, taken apart.** -/
theorem bind_eq_ok {x : Parse α} {f : α → Parse β} {c c' : Cursor} {b : β} :
    (x >>= f) c = (.ok b, c') ↔ ∃ a c₁, x c = (.ok a, c₁) ∧ f a c₁ = (.ok b, c') := by
  show ExceptT.bindCont f (x c).1 (x c).2 = _ ↔ _
  rcases x c with ⟨e | a, c₁⟩
  · constructor
    · exact fun h => nomatch congrArg Prod.fst h
    · rintro ⟨a, c₁, h, -⟩
      exact nomatch congrArg Prod.fst h
  · constructor
    · exact fun h => ⟨a, c₁, rfl, h⟩
    · rintro ⟨a', c₁', h, hf⟩
      cases h
      exact hf

theorem pure_eq_ok {a b : α} {c c' : Cursor} :
    (pure a : Parse α) c = (.ok b, c') ↔ b = a ∧ c' = c := by
  constructor
  · intro h
    cases h
    exact ⟨rfl, rfl⟩
  · rintro ⟨rfl, rfl⟩
    rfl

theorem fail_ne_ok {issue : TokenKind → ParseIssue} {c c' : Cursor} {a : α} :
    (fail issue : Parse α) c ≠ (.ok a, c') := fun h => nomatch congrArg Prod.fst h

theorem exhausted_ne_ok {c c' : Cursor} {a : α} : (exhausted : Parse α) c ≠ (.ok a, c') :=
  fun h => nomatch congrArg Prod.fst h

theorem fail_bind_ne_ok {issue : TokenKind → ParseIssue} {f : α → Parse β} {c c' : Cursor} {b : β} :
    ((fail issue : Parse α) >>= f) c ≠ (.ok b, c') := fun h => nomatch congrArg Prod.fst h

theorem peek_bind (f : Token → Parse β) (c : Cursor) : (peek >>= f) c = f c.peek c := rfl

theorem peekKind_bind (f : TokenKind → Parse β) (c : Cursor) : (peekKind >>= f) c = f c.peek.kind c := rfl

theorem touches_bind (f : Bool → Parse β) (c : Cursor) : (touches >>= f) c = f c.touches c := rfl

theorem advance_bind (f : Token → Parse β) (c : Cursor) : (advance >>= f) c = f c.peek c.next := rfl

end Parse

theorem TokenKind.isSymbol_iff {k : TokenKind} {s : Symbol} : k.isSymbol s = true ↔ k = .symbol s := by
  cases k <;> simp [isSymbol]

namespace Parse

variable {β : Type} {c c' : Cursor}

/-- The symbol is there and taken. -/
theorem eatSymbol_bind_of_eq {s : Symbol} (f : Bool → Parse β) (h : c.peek.kind = .symbol s) :
    (eatSymbol s >>= f) c = f true c.next := by
  show ExceptT.bindCont f (eatSymbol s c).1 (eatSymbol s c).2 = _
  unfold eatSymbol
  rw [if_pos (TokenKind.isSymbol_iff.mpr h)]
  rfl

/-- It is not, and nothing is taken. -/
theorem eatSymbol_bind_of_ne {s : Symbol} (f : Bool → Parse β) (h : c.peek.kind ≠ .symbol s) :
    (eatSymbol s >>= f) c = f false c := by
  show ExceptT.bindCont f (eatSymbol s c).1 (eatSymbol s c).2 = _
  unfold eatSymbol
  rw [if_neg (fun ht => h (TokenKind.isSymbol_iff.mp ht))]
  rfl

theorem expectClosing_eq_ok {close : Symbol} {opened : Token} {u : Unit} :
    expectClosing close opened c = (.ok u, c') ↔ c.peek.kind = .symbol close ∧ c' = c.next := by
  unfold expectClosing
  by_cases h : c.peek.kind = .symbol close
  · rw [eatSymbol_bind_of_eq _ h]
    exact pure_eq_ok.trans ⟨fun hc => ⟨h, hc.2⟩, fun hc => ⟨rfl, hc.2⟩⟩
  · rw [eatSymbol_bind_of_ne _ h]
    exact ⟨fun hf => absurd hf fail_ne_ok, fun hc => absurd hc.1 h⟩

theorem expectSymbol_bind_eq_ok {s : Symbol} {context : String} {f : Token → Parse β} {b : β} :
    (expectSymbol s context >>= f) c = (.ok b, c') ↔
      c.peek.kind = .symbol s ∧ f c.peek c.next = (.ok b, c') := by
  have hat : expectSymbol s context c =
      if c.peek.kind.isSymbol s then advance c
      else fail (.expected ("`" ++ s.text ++ "` " ++ context)) c := by
    show (if c.peek.kind.isSymbol s then _ else _ : Parse Token) c = _
    split <;> rfl
  rw [bind_eq_ok, hat]
  split
  · next h =>
    rw [TokenKind.isSymbol_iff] at h
    constructor
    · rintro ⟨t, c₁, hadv, hf⟩
      cases hadv
      exact ⟨h, hf⟩
    · exact fun hf => ⟨_, _, rfl, hf.2⟩
  · next h =>
    rw [TokenKind.isSymbol_iff] at h
    constructor
    · rintro ⟨t, c₁, hfail, -⟩
      exact absurd hfail fail_ne_ok
    · exact fun hf => absurd hf.1 h

theorem expectIdent_bind_eq_ok {what : String} {f : String × Position → Parse β} {b : β} :
    (expectIdent what >>= f) c = (.ok b, c') ↔
      ∃ name, c.peek.kind = .ident name ∧ f (name, c.peek.pos) c.next = (.ok b, c') := by
  unfold expectIdent
  rw [bind_assoc, peek_bind]
  cases hk : c.peek.kind with
  | ident name =>
    constructor
    · exact fun h => ⟨name, rfl, h⟩
    · rintro ⟨_, heq, h⟩
      cases heq
      exact h
  | _ =>
    refine ⟨fun h => (fail_bind_ne_ok h).elim, ?_⟩
    rintro ⟨_, heq, -⟩
    cases heq

end Parse

namespace Expr

open Parse

variable {n d : Nat} {c c' : Cursor} {e : Expr}

theorem checkDepth_bind_eq_ok {β : Type} {f : Unit → Parse β} {b : β} :
    (checkDepth d >>= f) c = (.ok b, c') ↔ d < maxNesting ∧ f () c = (.ok b, c') := by
  unfold checkDepth
  by_cases h : maxNesting ≤ d
  · rw [if_pos h]
    exact ⟨fun hf => (fail_bind_ne_ok hf).elim, fun hf => absurd h (Nat.not_le.mpr hf.1)⟩
  · rw [if_neg h]
    exact ⟨fun hf => ⟨Nat.not_le.mp h, hf⟩, fun hf => hf.2⟩

/-! ## When each level of the parser succeeds -/

/-- An expression is a chain of the loosest level, one level deeper. -/
theorem expression_eq_ok :
    expression (n + 1) d c = (.ok e, c') ↔ d < maxNesting ∧ chain n (d + 1) .or c = (.ok e, c') := by
  rw [expression]
  exact checkDepth_bind_eq_ok

/-- A chain is an operand and the rest of the chain. -/
theorem chain_eq_ok {l : Level} :
    chain (n + 1) d l c = (.ok e, c') ↔
      ∃ a c₁, operand n d l c = (.ok a, c₁) ∧ chainRest n d l a c₁ = (.ok e, c') := by
  rw [chain]
  exact bind_eq_ok

/-- The rest is an operator of the level, an operand and more, or nothing. -/
theorem chainRest_eq_ok {l : Level} {left : Expr} :
    chainRest (n + 1) d l left c = (.ok e, c') ↔
      (∃ op r c₁, l.operator? c.peek.kind = some op ∧ operand n d l c.next = (.ok r, c₁) ∧
        chainRest n d l (.binary op left r) c₁ = (.ok e, c')) ∨
      l.operator? c.peek.kind = none ∧ e = left ∧ c' = c := by
  rw [chainRest, peekKind_bind]
  cases hop : l.operator? c.peek.kind with
  | some op =>
    dsimp only
    rw [advance_bind, bind_eq_ok]
    constructor
    · rintro ⟨r, c₁, hr, h⟩
      exact .inl ⟨op, r, c₁, rfl, hr, h⟩
    · rintro (⟨_, r, c₁, heq, hr, h⟩ | ⟨hnone, -⟩)
      · cases heq
        exact ⟨r, c₁, hr, h⟩
      · cases hnone
  | none =>
    refine pure_eq_ok.trans ⟨fun h => .inr ⟨rfl, h⟩, ?_⟩
    rintro (⟨_, _, _, hsome, -⟩ | ⟨-, h⟩)
    · cases hsome
    · exact h

/-- A sign before such a form again, or a primary with what is applied to it. -/
theorem unaryOrPostfix_eq_ok {command : Bool} :
    unaryOrPostfix (n + 1) d command c = (.ok e, c') ↔
      (∃ op a, unaryOperator? c.peek.kind = some op ∧ d < maxNesting ∧
        unaryOrPostfix n (d + 1) command c.next = (.ok a, c') ∧ e = .unary op a) ∨
      unaryOperator? c.peek.kind = none ∧
        ∃ a c₁, primary n d c = (.ok a, c₁) ∧ postfixRest n d command a c₁ = (.ok e, c') := by
  rw [unaryOrPostfix, peekKind_bind]
  cases hop : unaryOperator? c.peek.kind with
  | some op =>
    dsimp only
    rw [advance_bind, checkDepth_bind_eq_ok, bind_eq_ok]
    constructor
    · rintro ⟨hd, a, c₁, ha, h⟩
      obtain ⟨rfl, rfl⟩ := pure_eq_ok.mp h
      exact .inl ⟨op, a, rfl, hd, ha, rfl⟩
    · rintro (⟨_, a, heq, hd, ha, rfl⟩ | ⟨hnone, -⟩)
      · cases heq
        exact ⟨hd, a, c', ha, rfl⟩
      · cases hnone
  | none =>
    refine bind_eq_ok.trans ⟨fun h => .inr ⟨rfl, h⟩, ?_⟩
    rintro (⟨_, _, hsome, -⟩ | ⟨-, h⟩)
    · cases hsome
    · exact h

/-- What goes on after an expression that is complete by itself: a call, an index, a member, or nothing. In a command
    argument a bracket goes on with it only when it touches it. -/
theorem postfixRest_eq_ok_of_command {command : Bool} {r : Expr} :
    postfixRest (n + 1) d command e c = (.ok r, c') ↔
      (c.peek.kind = .symbol .leftParen ∧ (command = true → c.touches = true) ∧ ∃ args c₁,
        commaList n d .rightParen c.peek c.next = (.ok args, c₁) ∧
        postfixRest n d command (.call e args) c₁ = (.ok r, c')) ∨
      (c.peek.kind = .symbol .leftBracket ∧ (command = true → c.touches = true) ∧ ∃ i c₁,
        expression n d c.next = (.ok i, c₁) ∧ c₁.peek.kind = .symbol .rightBracket ∧
        postfixRest n d command (.index e i) c₁.next = (.ok r, c')) ∨
      (c.peek.kind = .symbol .dot ∧ ∃ name, c.next.peek.kind = .ident name ∧
        postfixRest n d command (.member e name) c.next.next = (.ok r, c')) ∨
      ((c.peek.kind = .symbol .leftParen ∨ c.peek.kind = .symbol .leftBracket →
          command = true ∧ c.touches = false) ∧ c.peek.kind ≠ .symbol .dot) ∧ r = e ∧ c' = c := by
  rw [postfixRest, peek_bind, touches_bind]
  have hjoin : (command && !c.touches) = false ↔ (command = true → c.touches = true) := by
    cases command <;> simp
  have hapart : (command = true ∧ c.touches = false) ↔ (command && !c.touches) = true := by
    cases command <;> simp
  rw [← hjoin, hapart]
  generalize (command && !c.touches) = apart
  generalize c.peek.kind = k
  cases apart with
  | true =>
    split
    iterate 2 simp [pure_eq_ok]
    · simp [advance_bind, expectIdent_bind_eq_ok]
    · next hp hb hdot =>
      have hk : k ≠ .symbol .leftParen ∧ k ≠ .symbol .leftBracket ∧ k ≠ .symbol .dot := ⟨hp, hb, hdot⟩
      simp [hk, pure_eq_ok]
  | false =>
    split
    · simp [advance_bind, bind_eq_ok]
    · simp [advance_bind, bind_eq_ok, expectClosing_eq_ok, and_assoc]
    · simp [advance_bind, expectIdent_bind_eq_ok]
    · next hp hb hdot =>
      have hk : k ≠ .symbol .leftParen ∧ k ≠ .symbol .leftBracket ∧ k ≠ .symbol .dot := ⟨hp, hb, hdot⟩
      simp [hk, pure_eq_ok]

/-- In a whole expression it does not matter where a bracket stands. -/
theorem postfixRest_eq_ok {r : Expr} :
    postfixRest (n + 1) d false e c = (.ok r, c') ↔
      (c.peek.kind = .symbol .leftParen ∧ ∃ args c₁,
        commaList n d .rightParen c.peek c.next = (.ok args, c₁) ∧
        postfixRest n d false (.call e args) c₁ = (.ok r, c')) ∨
      (c.peek.kind = .symbol .leftBracket ∧ ∃ i c₁, expression n d c.next = (.ok i, c₁) ∧
        c₁.peek.kind = .symbol .rightBracket ∧ postfixRest n d false (.index e i) c₁.next = (.ok r, c')) ∨
      (c.peek.kind = .symbol .dot ∧ ∃ name, c.next.peek.kind = .ident name ∧
        postfixRest n d false (.member e name) c.next.next = (.ok r, c')) ∨
      (c.peek.kind ≠ .symbol .leftParen ∧ c.peek.kind ≠ .symbol .leftBracket ∧
        c.peek.kind ≠ .symbol .dot) ∧ r = e ∧ c' = c := by
  rw [postfixRest_eq_ok_of_command]
  simp only [Bool.false_eq_true, false_implies, true_and, false_and, imp_false, not_or, and_assoc]

/-- The forms that need nothing before them. -/
theorem primary_eq_ok :
    primary (n + 1) d c = (.ok e, c') ↔
      (atom? c.peek.kind = some e ∧ c' = c.next) ∨
      (c.peek.kind = .symbol .leftParen ∧ ∃ c₁, expression n d c.next = (.ok e, c₁) ∧
        c₁.peek.kind = .symbol .rightParen ∧ c' = c₁.next) ∨
      (c.peek.kind = .symbol .leftBracket ∧ ∃ items,
        commaList n d .rightBracket c.peek c.next = (.ok items, c') ∧ e = .list items) ∨
      (c.peek.kind = .symbol .leftBrace ∧ ∃ pairs,
        pairList n d c.peek c.next = (.ok pairs, c') ∧ e = .dict pairs) := by
  rw [primary, peek_bind]
  cases ha : atom? c.peek.kind with
  | some a =>
    have hsymbol : ∀ s, c.peek.kind ≠ .symbol s := by
      intro s hs
      rw [hs] at ha
      cases ha
    dsimp only
    rw [advance_bind, pure_eq_ok]
    simp [hsymbol, eq_comm]
  | none =>
    dsimp only
    generalize c.peek.kind = k
    split
    · simp only [advance_bind, bind_eq_ok, expectClosing_eq_ok, pure_eq_ok]
      constructor
      · rintro ⟨a, c₁, ha, _, _, ⟨hclose, rfl⟩, rfl, rfl⟩
        exact .inr (.inl ⟨trivial, c₁, ha, hclose, rfl⟩)
      · rintro (⟨heq, -⟩ | ⟨-, c₁, ha, hclose, rfl⟩ | ⟨heq, -⟩ | ⟨heq, -⟩)
        · cases heq
        · exact ⟨e, c₁, ha, (), _, ⟨hclose, rfl⟩, rfl, rfl⟩
        · cases heq
        · cases heq
    · simp [advance_bind, bind_eq_ok, pure_eq_ok, -bind_pure_comp]
    · simp [advance_bind, bind_eq_ok, pure_eq_ok, -bind_pure_comp]
    · next hp hb hbrace =>
      have hk : k ≠ .symbol .leftParen ∧ k ≠ .symbol .leftBracket ∧ k ≠ .symbol .leftBrace := ⟨hp, hb, hbrace⟩
      simp [hk, fail_ne_ok]

/-- The rest of a list after an item: a comma and more of the list, or the end of it. -/
theorem afterItem_eq_ok {α : Type} {close : Symbol} {opened : Token} {a : α} {more : Parse (List α)}
    {r : List α} :
    (do if ← eatSymbol .comma then
          let rest ← more
          pure (a :: rest)
        else
          expectClosing close opened
          pure [a] : Parse (List α)) c = (.ok r, c') ↔
      (c.peek.kind = .symbol .comma ∧ ∃ rest, more c.next = (.ok rest, c') ∧ r = a :: rest) ∨
      c.peek.kind ≠ .symbol .comma ∧ c.peek.kind = .symbol close ∧ r = [a] ∧ c' = c.next := by
  by_cases h : c.peek.kind = .symbol .comma
  · rw [eatSymbol_bind_of_eq _ h, if_pos rfl, bind_eq_ok]
    constructor
    · rintro ⟨rest, c₁, hrest, hp⟩
      obtain ⟨rfl, rfl⟩ := pure_eq_ok.mp hp
      exact .inl ⟨h, rest, hrest, rfl⟩
    · rintro (⟨-, rest, hrest, rfl⟩ | ⟨hne, -⟩)
      · exact ⟨rest, c', hrest, rfl⟩
      · exact absurd h hne
  · rw [eatSymbol_bind_of_ne _ h, if_neg (by simp), bind_eq_ok]
    constructor
    · rintro ⟨_, c₁, hclose, hp⟩
      obtain ⟨hk, rfl⟩ := expectClosing_eq_ok.mp hclose
      exact .inr ⟨h, hk, pure_eq_ok.mp hp⟩
    · rintro (⟨heq, -⟩ | ⟨-, hk, rfl, rfl⟩)
      · exact absurd heq h
      · exact ⟨(), _, expectClosing_eq_ok.mpr ⟨hk, rfl⟩, rfl⟩

/-- Items up to the closing bracket; a comma may stand before it. -/
theorem commaList_eq_ok {close : Symbol} {opened : Token} {es : List Expr} :
    commaList (n + 1) d close opened c = (.ok es, c') ↔
      (c.peek.kind = .symbol close ∧ es = [] ∧ c' = c.next) ∨
      c.peek.kind ≠ .symbol close ∧ ∃ e c₁, expression n d c = (.ok e, c₁) ∧
        ((c₁.peek.kind = .symbol .comma ∧ ∃ rest,
            commaList n d close opened c₁.next = (.ok rest, c') ∧ es = e :: rest) ∨
          c₁.peek.kind ≠ .symbol .comma ∧ c₁.peek.kind = .symbol close ∧ es = [e] ∧ c' = c₁.next) := by
  rw [commaList]
  by_cases h : c.peek.kind = .symbol close
  · rw [eatSymbol_bind_of_eq _ h, if_pos rfl, pure_eq_ok]
    simp [h]
  · rw [eatSymbol_bind_of_ne _ h, if_neg (by simp), bind_eq_ok]
    simp only [afterItem_eq_ok]
    simp [h]

/-- The same with a colon in each item. -/
theorem pairList_eq_ok {opened : Token} {ps : List (Expr × Expr)} :
    pairList (n + 1) d opened c = (.ok ps, c') ↔
      (c.peek.kind = .symbol .rightBrace ∧ ps = [] ∧ c' = c.next) ∨
      c.peek.kind ≠ .symbol .rightBrace ∧ ∃ k c₁, expression n d c = (.ok k, c₁) ∧
        c₁.peek.kind = .symbol .colon ∧ ∃ v c₂, expression n d c₁.next = (.ok v, c₂) ∧
        ((c₂.peek.kind = .symbol .comma ∧ ∃ rest,
            pairList n d opened c₂.next = (.ok rest, c') ∧ ps = (k, v) :: rest) ∨
          c₂.peek.kind ≠ .symbol .comma ∧ c₂.peek.kind = .symbol .rightBrace ∧ ps = [(k, v)] ∧
            c' = c₂.next) := by
  rw [pairList]
  by_cases h : c.peek.kind = .symbol .rightBrace
  · rw [eatSymbol_bind_of_eq _ h, if_pos rfl, pure_eq_ok]
    simp [h]
  · rw [eatSymbol_bind_of_ne _ h, if_neg (by simp), bind_eq_ok]
    constructor
    · rintro ⟨k, c₁, hk, hr⟩
      obtain ⟨hcolon, hr⟩ := expectSymbol_bind_eq_ok.mp hr
      obtain ⟨v, c₂, hv, hr⟩ := bind_eq_ok.mp hr
      exact .inr ⟨h, k, c₁, hk, hcolon, v, c₂, hv, afterItem_eq_ok.mp hr⟩
    · rintro (⟨heq, -⟩ | ⟨-, k, c₁, hk, hcolon, v, c₂, hv, hr⟩)
      · exact absurd heq h
      · refine ⟨k, c₁, hk, expectSymbol_bind_eq_ok.mpr ⟨hcolon, ?_⟩⟩
        exact bind_eq_ok.mpr ⟨v, c₂, hv, afterItem_eq_ok.mpr hr⟩

end Expr

end Helios
