import Helios.Proofs.Grammar
import Helios.Proofs.Positions
import Helios.Proofs.Provenance

/-!
# Locating — where syntactic failures and statements stand

`Parse.Places` is a logic for parsers that keeps two counts. It says where a failure stands: at the position of a
token, and so on a line of the text. And it counts the tokens that are left, so the bound that a parser counts
down is known never to be reached: a parser that calls another one either took a token before, or the other one
comes later in a fixed order of the functions of the grammar. With 16 calls for each token there is room for all
of that order, which `Expr.Placed` and `Stmt.Placed` spell out.

The results are statements on the lines of tokens (`Block.Sited`). So a text that does not parse fails on one of its
lines, and a text that does is a program all of whose statements stand on its lines.
-/

namespace Helios

/-! ## A logic for positions -/

/-- **A cursor with `n` tokens left** that stand at places with a property, and the end of input too. -/
structure Cursor.Sound (P : Position → Prop) (n : Nat) (c : Cursor) : Prop where
  length_eq : c.rest.length = n
  rest : ∀ t ∈ c.rest, t.kind ≠ .eof ∧ P t.pos
  stop : c.stop.kind = .eof ∧ P c.stop.pos

namespace Cursor.Sound

variable {P : Position → Prop} {n : Nat} {c : Cursor}

/-- The next token stands at such a place, be it the end. -/
theorem peek_pos (h : c.Sound P n) : P c.peek.pos := by
  unfold peek
  cases hrest : c.rest with
  | nil => exact h.stop.2
  | cons t rest => exact (h.rest t (by rw [hrest]; exact List.mem_cons_self)).2

/-- Before the end there is a token left. -/
theorem pos_of_peek_ne (h : c.Sound P n) (hk : c.peek.kind ≠ .eof) : 0 < n := by
  rw [← h.length_eq, List.length_pos_iff]
  intro hnil
  refine hk ?_
  unfold peek
  rw [hnil]
  exact h.stop.1

/-- Past a token one fewer is left. -/
theorem next (h : c.Sound P n) : c.next.Sound P (n - 1) := by
  have hlength := h.length_eq
  have hrest := h.rest
  unfold Cursor.next
  split
  · rename_i hnil
    rw [hnil] at hlength
    exact ⟨by rw [hnil, ← hlength]; rfl, h.rest, h.stop⟩
  · rename_i t rest hcons
    rw [hcons] at hlength hrest
    exact ⟨by rw [← hlength]; rfl, fun u hu => hrest u (List.mem_cons_of_mem t hu), h.stop⟩

end Cursor.Sound

/-- **A parser in its place.** From a cursor with `n` tokens left it fails at one of the places where tokens stand,
    or else it gives a result and leaves a cursor with no more tokens, of which `Q` tells the number. -/
def Parse.Places (P : Position → Prop) (n : Nat) {α : Type} (x : Parse α) (Q : α → Nat → Prop) : Prop :=
  ∀ c, c.Sound P n → match x c with
    | (.ok a, c') => ∃ n' ≤ n, c'.Sound P n' ∧ Q a n'
    | (.error e, _) => ∃ p issue, e = .parse p issue ∧ P p

/-- The parser takes a token at least. -/
abbrev Parse.Takes (P : Position → Prop) (n : Nat) {α : Type} (x : Parse α) : Prop :=
  x.Places P n fun _ n' => n' < n

namespace Parse.Places

variable {P : Position → Prop} {n : Nat} {α β : Type}

/-- A result takes nothing. -/
theorem pure {a : α} {Q : α → Nat → Prop} (h : Q a n) : Places P n (pure a) Q :=
  fun _ hc => ⟨n, Nat.le_refl n, hc, h⟩

/-- The second parser starts with what the first has left. -/
theorem bind {x : Parse α} {f : α → Parse β} {R : α → Nat → Prop} {Q : β → Nat → Prop} (hx : x.Places P n R)
    (hf : ∀ a n', n' ≤ n → R a n' → (f a).Places P n' Q) : (x >>= f).Places P n Q := by
  intro c hc
  have hbind : (x >>= f) c = ExceptT.bindCont f (x c).1 (x c).2 := rfl
  rw [hbind]
  have hfirst := hx c hc
  revert hfirst
  rcases x c with ⟨e | a, c₁⟩ <;> intro hfirst
  · exact hfirst
  · obtain ⟨n₁, hle, hc₁, hR⟩ := hfirst
    have hthen := hf a n₁ hle hR c₁ hc₁
    show match f a c₁ with
      | (.ok b, c') => ∃ n' ≤ n, c'.Sound P n' ∧ Q b n'
      | (.error e, _) => ∃ p issue, e = .parse p issue ∧ P p
    revert hthen
    rcases f a c₁ with ⟨e | b, c₂⟩ <;> intro hthen
    · exact hthen
    · obtain ⟨n₂, hle₂, hc₂, hQ⟩ := hthen
      exact ⟨n₂, Nat.le_trans hle₂ hle, hc₂, hQ⟩

/-- What is said of a result may be weakened. -/
theorem mono {x : Parse α} {R Q : α → Nat → Prop} (hx : x.Places P n R) (h : ∀ a n', n' ≤ n → R a n' → Q a n') :
    x.Places P n Q := by
  intro c hc
  have hplaces := hx c hc
  revert hplaces
  rcases x c with ⟨e | a, c'⟩ <;> intro hplaces
  · exact hplaces
  · obtain ⟨n', hle, hc', hR⟩ := hplaces
    exact ⟨n', hle, hc', h a n' hle hR⟩

theorem map {x : Parse α} {f : α → β} {R : α → Nat → Prop} {Q : β → Nat → Prop} (hx : x.Places P n R)
    (h : ∀ a n', n' ≤ n → R a n' → Q (f a) n') : (f <$> x).Places P n Q := by
  rw [map_eq_pure_bind]
  exact hx.bind fun a n' hle hR => pure (h a n' hle hR)

/-- A failure at the next token stands at its place. -/
theorem fail (issue : TokenKind → ParseIssue) {Q : α → Nat → Prop} : (Parse.fail issue : Parse α).Places P n Q :=
  fun _ hc => ⟨_, _, rfl, hc.peek_pos⟩

/-- A failure at a place that is known. -/
theorem failAt {p : Position} (hp : P p) (issue : ParseIssue) {Q : α → Nat → Prop} :
    (Parse.failAt p issue : Parse α).Places P n Q :=
  fun _ _ => ⟨p, issue, rfl, hp⟩

/-- A question about the cursor, which stays where it is. -/
theorem ask (f : Cursor → α) : Places P n (fun c => (.ok (f c), c)) fun _ n' => n' = n :=
  fun _ hc => ⟨n, Nat.le_refl n, hc, rfl⟩

/-- A parser that takes its bound from the cursor. -/
theorem withFuel {x : Nat → Parse α} {Q : α → Nat → Prop} (h : (x (16 * (n + 2))).Places P n Q) :
    Places P n (fun c => x c.fuel c) Q := by
  intro c hc
  obtain rfl := hc.length_eq
  exact h c hc

/-! ### One token -/

theorem peek : Parse.peek.Places P n fun t n' => P t.pos ∧ (t.kind ≠ .eof → 0 < n') :=
  fun _ hc => ⟨n, Nat.le_refl n, hc, hc.peek_pos, hc.pos_of_peek_ne⟩

theorem peekKind : Parse.peekKind.Places P n fun k n' => k ≠ .eof → 0 < n' :=
  fun _ hc => ⟨n, Nat.le_refl n, hc, hc.pos_of_peek_ne⟩

/-- One token is taken, if any is left. -/
theorem advance : Parse.advance.Places P n fun t n' => P t.pos ∧ n' = n - 1 :=
  fun _ hc => ⟨n - 1, Nat.sub_le n 1, hc.next, hc.peek_pos, rfl⟩

/-- Before the end the current token is taken. -/
theorem take {f : Token → Parse α} {Q : α → Nat → Prop} (hpos : 0 < n)
    (hf : ∀ t n', n' < n → (f t).Places P n' Q) : (Parse.advance >>= f).Places P n Q :=
  advance.bind fun t n' _ hn' => hf t n' (by omega)

theorem atSymbol (s : Symbol) : (Parse.atSymbol s).Places P n fun b n' => b = true → 0 < n' := by
  refine fun c hc => ⟨n, Nat.le_refl n, hc, fun hb => hc.pos_of_peek_ne ?_⟩
  rw [TokenKind.isSymbol_iff.mp hb]
  nofun

/-- A token that may be taken is one before the end. -/
theorem eat {p : TokenKind → Bool} (heof : p .eof = false) :
    Places P n (fun c => if p c.peek.kind then (.ok true, c.next) else (.ok false, c)) fun b n' =>
      b = true → n' < n := by
  intro c hc
  by_cases hk : p c.peek.kind = true
  · have hpos : 0 < n := by
      refine hc.pos_of_peek_ne fun hend => ?_
      rw [hend, heof] at hk
      nomatch hk
    simp only [if_pos hk]
    exact ⟨n - 1, Nat.sub_le n 1, hc.next, fun _ => by omega⟩
  · simp only [if_neg hk]
    exact ⟨n, Nat.le_refl n, hc, nofun⟩

/-- A symbol that is eaten is one token fewer. -/
theorem eatSymbol (s : Symbol) : (Parse.eatSymbol s).Places P n fun b n' => b = true → n' < n :=
  eat (p := fun k => k.isSymbol s) rfl

theorem eatKeyword (k : Keyword) : (Parse.eatKeyword k).Places P n fun b n' => b = true → n' < n :=
  eat (p := fun w => w.isKeyword k) rfl

theorem expectClosing (close : Symbol) (opened : Token) : (Parse.expectClosing close opened).Takes P n := by
  refine (eatSymbol close).bind fun b n₁ hle hn₁ => ?_
  split
  · rename_i hb
    exact .pure (hn₁ hb)
  · exact .fail _

/-- A symbol that is there, or a failure at the token in its place. -/
theorem expectSymbol (s : Symbol) (context : String) : (Parse.expectSymbol s context).Takes P n := by
  refine (atSymbol s).bind fun b n₁ hle hn₁ => ?_
  split
  · rename_i hb
    have hpos := hn₁ hb
    exact advance.mono fun _ n₂ _ hn₂ => by omega
  · exact .fail _

theorem expectIdent (what : String) : (Parse.expectIdent what).Places P n fun r n' => P r.2 ∧ n' < n := by
  refine peek.bind fun t n₁ hle ht => ?_
  split
  · rename_i name hk
    have hpos : 0 < n₁ := ht.2 (by rw [hk]; nofun)
    exact .take hpos fun _ n₂ hlt => .pure ⟨ht.1, by omega⟩
  · exact .fail _

/-! ### Separators and repetition -/

/-- Where a statement does not end there is a token left. -/
theorem atSeparator : Parse.atSeparator.Places P n fun b n' => b = false → 0 < n' := by
  refine fun c hc => ⟨n, Nat.le_refl n, hc, fun hb => hc.pos_of_peek_ne fun heof => ?_⟩
  rw [heof] at hb
  nomatch hb

/-- Line breaks are taken, as many as there are. -/
theorem skipNewlines : Parse.skipNewlines.Places P n fun _ _ => True := by
  intro c hc
  have hsuffix := List.dropWhile_suffix (l := c.rest) fun t => t.kind.isNewline
  unfold Parse.skipNewlines
  cases c.rest.takeWhile (fun t => t.kind.isNewline) with
  | nil => exact ⟨n, Nat.le_refl n, hc, trivial⟩
  | cons t ts =>
    refine ⟨_, hc.length_eq ▸ hsuffix.length_le, ⟨rfl, fun u hu => ?_, hc.stop⟩, trivial⟩
    exact hc.rest u (hsuffix.subset hu)

theorem expectSeparator : Parse.expectSeparator.Places P n fun _ _ => True := by
  refine atSeparator.bind fun atEnd n₁ _ _ => ?_
  split
  · refine peekKind.bind fun k n₂ _ _ => ?_
    split
    · exact advance.bind fun _ _ _ _ => .pure trivial
    · exact .pure trivial
  · exact .fail _

/-- **Items that take a token each** are fewer than the tokens. -/
theorem manyUntil {stop : Parse Bool} {item : Parse α}
    (hstop : ∀ n, stop.Places P n fun _ _ => True) (hitem : ∀ n, item.Takes P n) (fuel : Nat)
    (hfuel : n < fuel) : (Parse.manyUntil stop item fuel).Places P n fun _ _ => True := by
  induction fuel generalizing n with
  | zero => omega
  | succ fuel ih =>
    refine (hstop n).bind fun stopped n₁ hle₁ _ => ?_
    split
    · exact .pure trivial
    · -- the item took a token, so the bound that is left is still above the tokens that are left
      refine (hitem n₁).bind fun a n₂ _ hlt => ?_
      exact (ih (by omega)).bind fun rest _ _ _ => .pure trivial

/-- Item after item, each of which takes a token. -/
theorem many {stop : Parse Bool} {item : Parse α} (hstop : ∀ n, stop.Places P n fun _ _ => True)
    (hitem : ∀ n, item.Takes P n) : (Parse.many stop item).Places P n fun _ _ => True :=
  withFuel (x := Parse.manyUntil stop item) (manyUntil hstop hitem _ (by omega))

end Parse.Places

/-! ## Expressions -/

namespace Expr

open Parse (Places Takes)

/-- The calls that a chain of a level nests before the first token is taken, with some to spare. -/
def Level.steps : Level → Nat
  | or => 12
  | and => 10
  | comparison => 8
  | additive => 6
  | multiplicative => 4

theorem Level.four_le_steps (l : Level) : 4 ≤ l.steps := by cases l <;> decide

/-- The next level needs two steps fewer. -/
theorem Level.steps_tighter {l l' : Level} (h : l.tighter = some l') : l'.steps + 2 ≤ l.steps := by
  cases l <;> cases h <;> decide

/-- **Where the functions of the parser of expressions fail**, and that they take a token, when the bound allows 16
    calls for each token and some more. -/
structure Placed (P : Position → Prop) (fuel : Nat) : Prop where
  expression : ∀ n dep, 16 * n + 13 ≤ fuel → (expression fuel dep).Takes P n
  chain : ∀ n dep l, 16 * n + l.steps ≤ fuel → (chain fuel dep l).Takes P n
  operand : ∀ n dep l, 16 * n + l.steps ≤ fuel + 1 → (operand fuel dep l).Takes P n
  chainRest : ∀ n dep l left, 16 * n + 1 ≤ fuel → (chainRest fuel dep l left).Places P n fun _ _ => True
  unaryOrPostfix : ∀ n dep command, 16 * n + 2 ≤ fuel → (unaryOrPostfix fuel dep command).Takes P n
  postfixRest : ∀ n dep command e, 16 * n + 1 ≤ fuel →
    (postfixRest fuel dep command e).Places P n fun _ _ => True
  primary : ∀ n dep, 16 * n + 1 ≤ fuel → (primary fuel dep).Takes P n
  commaList : ∀ n dep close opened, 16 * n + 14 ≤ fuel → (commaList fuel dep close opened).Takes P n
  pairList : ∀ n dep opened, 16 * n + 14 ≤ fuel → (pairList fuel dep opened).Takes P n

variable {P : Position → Prop} {n fuel : Nat}

theorem checkDepth_places (dep : Nat) : (checkDepth dep).Places P n fun _ _ => True := by
  unfold checkDepth
  split
  · exact .fail _
  · exact .pure trivial

namespace Placed

theorem zero : Placed P 0 := by
  constructor
  case operand =>
    intro n dep l hfuel
    have := l.four_le_steps
    omega
  case chain =>
    intro n dep l hfuel
    have := l.four_le_steps
    omega
  all_goals intros; omega

/-- An expression needs more fuel than a chain of the loosest level. -/
theorem expression_succ (ih : Placed P fuel) (n dep : Nat) (hfuel : 16 * n + 13 ≤ fuel + 1) :
    (Expr.expression (fuel + 1) dep).Takes P n := by
  rw [Expr.expression]
  refine (checkDepth_places dep).bind fun _ n₁ hle _ => ?_
  have hsteps : Level.or.steps = 12 := rfl
  exact (ih.chain n₁ (dep + 1) .or (by omega)).mono fun _ n₂ _ hlt => by omega

/-- A level needs more fuel than the next tighter one. -/
theorem chain_succ (ih : Placed P fuel) (n dep : Nat) (l : Level) (hfuel : 16 * n + l.steps ≤ fuel + 1) :
    (Expr.chain (fuel + 1) dep l).Takes P n := by
  rw [Expr.chain]
  have hsteps := l.four_le_steps
  refine (ih.operand n dep l hfuel).bind fun left n₁ _ hlt => ?_
  exact (ih.chainRest n₁ dep l left (by omega)).mono fun _ n₂ _ _ => by omega

/-- The tightest level has signs and primaries for operands. -/
theorem operand_succ (ih : Placed P fuel) (n dep : Nat) (l : Level) (hfuel : 16 * n + l.steps ≤ fuel + 1 + 1) :
    (Expr.operand (fuel + 1) dep l).Takes P n := by
  rw [Expr.operand]
  have hsteps := l.four_le_steps
  split
  · rename_i l' htighter
    have hnext := l.steps_tighter htighter
    exact ih.chain n dep l' (by omega)
  · exact ih.unaryOrPostfix n dep false (by omega)

/-- An operator is a token, so there is room for its right operand. -/
theorem chainRest_succ (ih : Placed P fuel) (n dep : Nat) (l : Level) (left : Expr)
    (hfuel : 16 * n + 1 ≤ fuel + 1) : (Expr.chainRest (fuel + 1) dep l left).Places P n fun _ _ => True := by
  rw [Expr.chainRest]
  have hsteps : l.steps ≤ 12 := by cases l <;> decide
  refine Places.peekKind.bind fun k n₁ hle hk => ?_
  split
  · rename_i op hop
    obtain ⟨-, rfl⟩ := Level.operator?_eq_some_iff.mp hop
    have hpos := hk op.token_ne_eof
    refine .take hpos fun _ n₂ hlt₂ => ?_
    refine (ih.operand n₂ dep l (by omega)).bind fun right n₃ _ hlt => ?_
    exact ih.chainRest n₃ dep l _ (by omega)
  · exact .pure trivial

/-- After a sign a token is gone. -/
theorem unaryOrPostfix_succ (ih : Placed P fuel) (n dep : Nat) (command : Bool)
    (hfuel : 16 * n + 2 ≤ fuel + 1) : (Expr.unaryOrPostfix (fuel + 1) dep command).Takes P n := by
  rw [Expr.unaryOrPostfix]
  refine Places.peekKind.bind fun k n₁ hle hk => ?_
  split
  · rename_i op hop
    obtain rfl := unaryOperator?_eq_some_iff.mp hop
    have hpos := hk op.token_ne_eof
    refine .take hpos fun _ n₂ hlt => (checkDepth_places dep).bind fun _ n₃ _ _ => ?_
    exact (ih.unaryOrPostfix n₃ (dep + 1) command (by omega)).bind fun e n₄ _ _ => .pure (by omega)
  · refine (ih.primary n₁ dep (by omega)).bind fun e n₂ _ hlt => ?_
    exact (ih.postfixRest n₂ dep command e (by omega)).mono fun _ n₃ _ _ => by omega

/-- Each form behind a primary begins with a token. -/
theorem postfixRest_succ (ih : Placed P fuel) (n dep : Nat) (command : Bool) (e : Expr)
    (hfuel : 16 * n + 1 ≤ fuel + 1) :
    (Expr.postfixRest (fuel + 1) dep command e).Places P n fun _ _ => True := by
  rw [Expr.postfixRest]
  refine Places.peek.bind fun opened n₁ _ ht => (Places.ask Cursor.touches).bind fun touching n₂ _ hn₂ => ?_
  dsimp only
  split
  · -- a call
    rename_i hk
    have hpos := ht.2 (by rw [hk]; rintro ⟨⟩)
    split
    · exact .pure trivial
    · refine .take (by omega) fun _ n₃ hlt₃ => ?_
      refine (ih.commaList n₃ dep .rightParen opened (by omega)).bind fun args n₄ _ hlt => ?_
      exact ih.postfixRest n₄ dep command _ (by omega)
  · -- an index
    rename_i hk
    have hpos := ht.2 (by rw [hk]; rintro ⟨⟩)
    split
    · exact .pure trivial
    · refine .take (by omega) fun _ n₃ hlt₃ => ?_
      refine (ih.expression n₃ dep (by omega)).bind fun i n₄ _ hlt => ?_
      refine (Places.expectClosing _ opened).bind fun _ n₅ _ _ => ?_
      exact ih.postfixRest n₅ dep command _ (by omega)
  · -- a member
    refine Places.advance.bind fun _ n₃ _ _ => (Places.expectIdent _).bind fun r n₄ _ hr => ?_
    exact ih.postfixRest n₄ dep command _ (by omega)
  · exact .pure trivial

/-- Each primary begins with a token. -/
theorem primary_succ (ih : Placed P fuel) (n dep : Nat) (hfuel : 16 * n + 1 ≤ fuel + 1) :
    (Expr.primary (fuel + 1) dep).Takes P n := by
  rw [Expr.primary]
  refine Places.peek.bind fun t n₁ hle ht => ?_
  split
  · rename_i e hatom
    have hpos := ht.2 fun heof => by rw [heof] at hatom; cases hatom
    exact .take hpos fun _ n₂ hlt => .pure (by omega)
  · split
    · -- an expression in parentheses
      rename_i hk
      have hpos := ht.2 (by rw [hk]; rintro ⟨⟩)
      refine .take hpos fun _ n₂ hlt => (ih.expression n₂ dep (by omega)).bind fun e n₃ _ _ => ?_
      exact (Places.expectClosing _ t).bind fun _ n₄ _ _ => .pure (by omega)
    · -- a list
      rename_i hk
      have hpos := ht.2 (by rw [hk]; rintro ⟨⟩)
      refine .take hpos fun _ n₂ hlt => ?_
      exact (ih.commaList n₂ dep .rightBracket t (by omega)).bind fun _ n₃ _ _ => .pure (by omega)
    · -- a dict
      rename_i hk
      have hpos := ht.2 (by rw [hk]; rintro ⟨⟩)
      refine .take hpos fun _ n₂ hlt => ?_
      exact (ih.pairList n₂ dep t (by omega)).bind fun _ n₃ _ _ => .pure (by omega)
    · exact .fail _

/-- What follows an item of a list: a comma and more items, or the end of the list. -/
theorem afterItem {α : Type} {close : Symbol} {opened : Token} {a : α} {x : Parse (List α)}
    (hmore : ∀ n' < n, x.Places P n' fun _ _ => True) :
    Places P n
      (do if ← Parse.eatSymbol .comma then
            let rest ← x
            pure (a :: rest)
          else
            Parse.expectClosing close opened
            pure [a]) fun _ _ => True := by
  refine (Places.eatSymbol _).bind fun b n₁ _ hn₁ => ?_
  split
  · rename_i hb
    exact (hmore n₁ (hn₁ hb)).bind fun _ _ _ _ => .pure trivial
  · exact (Places.expectClosing close opened).bind fun _ _ _ _ => .pure trivial

/-- Each item takes a token. -/
theorem commaList_succ (ih : Placed P fuel) (n dep : Nat) (close : Symbol) (opened : Token)
    (hfuel : 16 * n + 14 ≤ fuel + 1) : (Expr.commaList (fuel + 1) dep close opened).Takes P n := by
  rw [Expr.commaList]
  refine (Places.eatSymbol close).bind fun b n₁ hle hn₁ => ?_
  split
  · rename_i hb
    exact .pure (hn₁ hb)
  · refine (ih.expression n₁ dep (by omega)).bind fun e n₂ _ hlt => ?_
    refine (afterItem fun n₃ hlt' => ?_).mono fun _ n₃ _ _ => by omega
    exact (ih.commaList n₃ dep close opened (by omega)).mono fun _ _ _ _ => trivial

theorem pairList_succ (ih : Placed P fuel) (n dep : Nat) (opened : Token) (hfuel : 16 * n + 14 ≤ fuel + 1) :
    (Expr.pairList (fuel + 1) dep opened).Takes P n := by
  rw [Expr.pairList]
  refine (Places.eatSymbol .rightBrace).bind fun b n₁ hle hn₁ => ?_
  split
  · rename_i hb
    exact .pure (hn₁ hb)
  · refine (ih.expression n₁ dep (by omega)).bind fun key n₂ _ hlt => ?_
    refine (Places.expectSymbol .colon _).bind fun _ n₃ _ hlt₃ => ?_
    refine (ih.expression n₃ dep (by omega)).bind fun value n₄ _ hlt₄ => ?_
    refine (afterItem fun n₅ hlt₅ => ?_).mono fun _ n₅ _ _ => by omega
    exact (ih.pairList n₅ dep opened (by omega)).mono fun _ _ _ _ => trivial

/-- **The bound is never reached** while there are 16 calls for each token that is left. -/
theorem all (P : Position → Prop) (fuel : Nat) : Placed P fuel := by
  induction fuel with
  | zero => exact zero
  | succ fuel ih =>
    exact ⟨ih.expression_succ, ih.chain_succ, ih.operand_succ, ih.chainRest_succ, ih.unaryOrPostfix_succ,
      ih.postfixRest_succ, ih.primary_succ, ih.commaList_succ, ih.pairList_succ⟩

end Placed

/-- **An expression fails at a token and takes one.** -/
theorem parser_places : parser.Takes P n :=
  .withFuel (x := fun fuel => expression fuel 0) ((Placed.all P _).expression n 0 (by omega))

theorem commandArg_places : commandArg.Takes P n :=
  .withFuel (x := fun fuel => unaryOrPostfix fuel 0 true) ((Placed.all P _).unaryOrPostfix n 0 true (by omega))

/-- Arguments in parentheses. -/
theorem parenArgs_places : parenArgs.Takes P n := by
  refine (Places.expectSymbol .leftParen _).bind fun opened n₁ _ hlt => ?_
  have hlist : Takes P n₁ fun c => commaList c.fuel 0 .rightParen opened c :=
    .withFuel (x := fun fuel => commaList fuel 0 .rightParen opened)
      ((Placed.all P _).commaList n₁ 0 .rightParen opened (by omega))
  exact hlist.mono fun _ n₂ _ _ => by omega

end Expr

/-! ## Simple statements and commands -/

/-- **A statement on the line of a place with a property.** -/
def Located.Sited (P : Position → Prop) (l : Located Stmt) : Prop := ∃ p, P p ∧ p.line = l.line

/-- The statements of a block stand on the lines of such places, those inside of others too. -/
abbrev Block.Sited (P : Position → Prop) (b : Block) : Prop := Block.Among (Located.Sited P) b

/-- So do the statements inside a statement. -/
abbrev Stmt.Sited (P : Position → Prop) (s : Stmt) : Prop := Stmt.Among (Located.Sited P) s

variable {P : Position → Prop}

namespace Stmt

open Parse (Places Takes)

variable {n : Nat}

theorem sited_of_blocks {s : Stmt} (h : s.blocks = []) : s.Sited P := by
  intro b hb
  rw [h] at hb
  nomatch hb

theorem withComma_places {item : Parse Expr} (hitem : item.Takes P n) : (withComma item).Takes P n := by
  refine hitem.bind fun e n₁ _ hlt => (Places.eatSymbol .comma).bind fun _ n₂ _ _ => ?_
  exact .pure (by omega)

theorem separated_places {item : Parse Expr} (hitem : ∀ n, item.Takes P n) :
    (Parse.many Parse.atSeparator (withComma item)).Places P n fun _ _ => True :=
  .many (fun _ => Places.atSeparator.mono fun _ _ _ _ => trivial) fun n => withComma_places (hitem n)

theorem printArgs_places : printArgs.Places P n fun _ _ => True := by
  refine (Places.atSymbol .leftParen).bind fun _ n₁ _ _ => (Places.ask Cursor.touches).bind fun _ n₂ _ _ => ?_
  split
  · exact Expr.parenArgs_places.mono fun _ _ _ _ => trivial
  · exact separated_places fun _ => Expr.parser_places

theorem commandArgs_places : commandArgs.Places P n fun _ _ => True :=
  separated_places fun _ => Expr.commandArg_places

/-- A call expression is a statement without blocks. -/
theorem ofCall?_sited {e : Expr} {s : Stmt} (h : ofCall? e = some s) : s.Sited P := by
  cases e with
  | call callee args => exact Option.some.inj h ▸ sited_of_blocks rfl
  | _ => nomatch h

theorem callCommand_places : callCommand.Places P n fun s _ => s.Sited P := by
  unfold callCommand
  refine (Places.eatKeyword .print).bind fun printed n₁ _ _ => ?_
  dsimp only
  split
  case' isTrue => refine Places.bind (R := fun _ _ => True) (.pure trivial) fun callee n₂ _ _ => ?_
  case' isFalse => refine Expr.commandArg_places.bind fun callee n₂ _ _ => ?_
  -- however the callee is read, it is a call with arguments, or arguments follow
  all_goals
    refine Places.atSeparator.bind fun atEnd n₃ _ _ => ?_
    split
    · rename_i hs _
      exact .pure (ofCall?_sited hs)
    · exact commandArgs_places.bind fun _ _ _ _ => .pure (sited_of_blocks rfl)

theorem callStatement_places {pos : Position} (hpos : P pos) :
    (callStatement pos).Places P n fun s n' => n' < n ∧ s.Sited P := by
  unfold callStatement
  refine Expr.commandArg_places.bind fun e n₁ _ hlt => Places.atSeparator.bind fun atEnd n₂ _ _ => ?_
  split
  · split
    · rename_i hs
      exact .pure ⟨by omega, ofCall?_sited hs⟩
    · split
      · exact .pure ⟨by omega, sited_of_blocks rfl⟩
      · exact .failAt hpos _
  · refine Places.peekKind.bind fun _ n₃ _ _ => ?_
    split
    · exact commandArgs_places.bind fun _ n₄ _ _ => .pure ⟨by omega, sited_of_blocks rfl⟩
    · exact .failAt hpos _

theorem literalName_places : literalName.Places P n fun _ _ => True := by
  unfold literalName
  refine Places.peek.bind fun t n₁ _ _ => ?_
  split
  · exact Places.advance.bind fun _ _ _ _ => .pure trivial
  · exact Places.advance.bind fun _ _ _ _ => .pure trivial
  · exact Places.advance.bind fun _ _ _ _ => .pure trivial
  · exact .fail _

theorem positionals_places (v : Verb) (slots : List Slot) (index : Nat) :
    (positionals v index slots).Places P n fun _ _ => True := by
  induction slots generalizing index n with
  | nil => exact .pure trivial
  | cons slot slots ih =>
    unfold positionals
    refine Places.peekKind.bind fun _ n₁ _ _ => Places.atSeparator.bind fun _ n₂ _ _ => ?_
    split
    · exact .fail _
    · have hrest (p : Positional) {n : Nat} : Places P n (do
          let rest ← positionals v (index + 1) slots
          pure (p :: rest)) fun _ _ => True :=
        (ih (index + 1)).bind fun _ _ _ _ => .pure trivial
      cases slot with
      | name =>
        have hname : Places P n₂ (Positional.name <$> literalName) fun _ _ => True :=
          literalName_places.map fun _ _ _ _ => trivial
        exact hname.bind fun p _ _ _ => hrest p
      | expr =>
        have hexpr : Places P n₂ (Positional.expr <$> Expr.commandArg) fun _ _ => True :=
          Expr.commandArg_places.map fun _ _ _ _ => trivial
        exact hexpr.bind fun p _ _ _ => hrest p

theorem clauseValues_places (kind : ClauseKind) (count : Nat) :
    (clauseValues kind count).Places P n fun _ _ => True := by
  induction count generalizing n with
  | zero => exact .pure trivial
  | succ count ih =>
    refine Places.atSeparator.bind fun _ n₁ _ _ => ?_
    split
    · exact .fail _
    · exact Expr.commandArg_places.bind fun _ _ _ _ => ih.bind fun _ _ _ _ => .pure trivial

theorem clauseBody_places (kind : ClauseKind) : (clauseBody kind).Places P n fun _ _ => True := by
  unfold clauseBody
  split
  · exact (Places.expectIdent _).bind fun _ _ _ _ => .pure trivial
  · refine (Places.expectIdent _).bind fun _ _ _ _ => ?_
    refine Places.bind (.many (fun _ => (Places.ask _).mono fun _ _ _ _ => trivial) fun _ =>
      Expr.commandArg_places) fun _ _ _ _ => ?_
    exact .pure trivial
  · exact (clauseValues_places _ _).bind fun _ _ _ _ => .pure trivial

theorem clause_places (v : Verb) (before : List ClauseKind) : (clause v before).Takes P n := by
  unfold clause
  refine Places.peek.bind fun t n₁ hle ht => ?_
  split
  · exact .fail _
  · rename_i kind hword
    have hpos := ht.2 fun heof => by rw [heof] at hword; nomatch hword
    split
    · exact .failAt ht.1 _
    · split
      · exact .failAt ht.1 _
      · exact .take hpos fun _ n₂ hlt => (clauseBody_places kind).mono fun _ n₃ _ _ => by omega

theorem clauses_places (v : Verb) (fuel : Nat) (before : List ClauseKind) (hfuel : n < fuel) :
    (clauses v fuel before).Places P n fun _ _ => True := by
  induction fuel generalizing n before with
  | zero => omega
  | succ fuel ih =>
    refine Places.atSeparator.bind fun _ n₁ _ _ => ?_
    split
    · exact .pure trivial
    · refine (clause_places v before).bind fun _ n₂ _ hlt => ?_
      exact (ih _ (by omega)).bind fun _ _ _ _ => .pure trivial

theorem command_places (surface : Surface) : (command_ surface).Places P n fun _ _ => True := by
  unfold command_
  refine Places.peek.bind fun t n₁ _ ht => ?_
  split
  · -- the word of the surface is taken already, so the verb need not count
    split
    · exact .failAt ht.1 _
    · rename_i v _
      refine Places.advance.bind fun _ n₂ _ _ => (positionals_places v v.slots 0).bind fun _ n₃ _ _ => ?_
      have hclauses : Places P n₃ (fun c => clauses v c.fuel [] c) fun _ _ => True :=
        .withFuel (x := fun fuel => clauses v fuel []) (clauses_places v _ [] (by omega))
      refine hclauses.bind fun cs n₄ _ _ => ?_
      split
      · exact .fail _
      · exact .pure trivial
  · exact .fail _

/-! ## Blocks -/

theorem parameters_places (function : String) (fuel : Nat) (before : List String) (hfuel : n < fuel) :
    (parameters function fuel before).Places P n fun _ _ => True := by
  induction fuel generalizing n before with
  | zero => omega
  | succ fuel ih =>
    refine (Places.eatSymbol _).bind fun _ n₁ _ _ => ?_
    split
    · exact .pure trivial
    · refine (Places.expectIdent _).bind fun r n₂ _ hr => ?_
      obtain ⟨param, pos⟩ := r
      dsimp only
      split
      · exact .failAt hr.1 _
      · refine (Places.eatSymbol _).bind fun _ n₃ _ _ => ?_
        split
        · exact ih _ (by omega)
        · exact (Places.expectSymbol _ _).bind fun _ _ _ _ => .pure trivial

theorem signature_places : signature.Places P n fun _ _ => True := by
  unfold signature
  refine (Places.expectIdent _).bind fun r n₁ _ _ => (Places.eatSymbol _).bind fun opened n₂ _ _ => ?_
  have hcolon (params : List String) {n : Nat} : Places P n (do
      let _ ← Parse.expectSymbol .colon "after the function signature"
      pure (r.1, params)) fun _ _ => True :=
    (Places.expectSymbol _ _).bind fun _ _ _ _ => .pure trivial
  split
  · have hparams : Places P n₂ (fun c => parameters r.1 c.fuel [] c) fun _ _ => True :=
      .withFuel (x := fun fuel => parameters r.1 fuel []) (parameters_places r.1 _ [] (by omega))
    exact hparams.bind fun params _ _ _ => hcolon params
  · exact hcolon []

theorem pathRest_places (fuel : Nat) (path : String) (hfuel : n < fuel) :
    (pathRest fuel path).Places P n fun _ _ => True := by
  induction fuel generalizing n path with
  | zero => omega
  | succ fuel ih =>
    refine (Places.eatSymbol _).bind fun dotted n₁ _ _ => ?_
    split
    · exact (Places.expectIdent _).bind fun r n₂ _ hr => ih _ (by omega)
    · exact .pure trivial

theorem checkBlocks_places (ctx : Context) {pos : Position} (hpos : P pos) :
    (checkBlocks ctx pos).Places P n fun _ _ => True := by
  unfold checkBlocks
  split
  · exact .failAt hpos _
  · exact .pure trivial

theorem requireEnd_places {t : Token} (ht : P t.pos) (issue : String → ParseIssue) :
    (requireEnd t issue).Places P n fun _ _ => True := by
  unfold requireEnd
  split
  · exact .pure trivial
  · exact .failAt ht _

/-- **Where the functions of the parser of statements fail, and on which lines they place statements.** The bound
    allows 16 calls for each token and some more. -/
structure Placed (P : Position → Prop) (fuel : Nat) : Prop where
  statement : ∀ n ctx, 16 * n + 2 ≤ fuel →
    (statement fuel ctx).Places P n fun l n' => n' < n ∧ ∀ b, Block.Sited P b → Block.Sited P (l :: b)
  statementBody : ∀ n ctx t, P t.pos → (t.kind ≠ .eof → 0 < n) → 16 * n + 1 ≤ fuel →
    (statementBody fuel ctx t).Places P n fun s n' => n' < n ∧ s.Sited P
  blockBody : ∀ n ctx opened, P opened.pos → 16 * n + 3 ≤ fuel →
    (blockBody fuel ctx opened).Places P n fun r _ => Block.Sited P r.1 ∧ P r.2.pos
  plainBlock : ∀ n ctx opened, P opened.pos → 16 * n + 4 ≤ fuel →
    (plainBlock fuel ctx opened).Places P n fun b _ => Block.Sited P b
  ifChain : ∀ n ctx opened, P opened.pos → 16 * n + 1 ≤ fuel →
    (ifChain fuel ctx opened).Places P n fun s _ => s.Sited P

namespace Placed

variable {fuel : Nat}

theorem zero : Placed P 0 := by
  constructor <;> (intros; omega)

theorem statement_succ (ih : Placed P fuel) (n : Nat) (ctx : Context) (hfuel : 16 * n + 2 ≤ fuel + 1) :
    (Stmt.statement (fuel + 1) ctx).Places P n fun l n' =>
      n' < n ∧ ∀ b, Block.Sited P b → Block.Sited P (l :: b) := by
  rw [Stmt.statement]
  refine Places.peek.bind fun t n₁ hle ht => ?_
  refine (ih.statementBody n₁ ctx t ht.1 ht.2 (by omega)).bind fun s n₂ _ hs => .pure ⟨by omega, fun b hb => ?_⟩
  exact Block.Among.cons_iff.mpr ⟨⟨⟨t.pos, ht.1, rfl⟩, hs.2⟩, hb⟩

theorem statementBody_succ (ih : Placed P fuel) (n : Nat) (ctx : Context) (t : Token) (ht : P t.pos)
    (hkind : t.kind ≠ .eof → 0 < n) (hfuel : 16 * n + 1 ≤ fuel + 1) :
    (Stmt.statementBody (fuel + 1) ctx t).Places P n fun s n' => n' < n ∧ s.Sited P := by
  rw [Stmt.statementBody]
  -- a loop or a function: the head is read, and what follows it is the only block
  have hblock (kind : BlockKind) {make : Block → Stmt} (hmake : ∀ b, (make b).blocks = [b]) {n' : Nat}
      (hlt : n' < n) : Places P n' (do
        let body ← Stmt.plainBlock fuel ctx ⟨kind, t.pos⟩
        pure (make body)) fun s n' => n' < n ∧ s.Sited P := by
    refine (ih.plainBlock n' ctx ⟨kind, t.pos⟩ ht (by omega)).bind fun body n₁ _ hbody => .pure ⟨by omega, ?_⟩
    intro b hb
    rw [hmake, List.mem_singleton] at hb
    exact hb ▸ hbody
  by_cases heof : t.kind = .eof
  · rw [heof]
    exact .fail _
  have hpos := hkind heof
  split
  · -- `let`
    refine .take hpos fun _ n₁ _ => (Places.expectIdent _).bind fun _ n₂ _ _ => ?_
    refine (Places.expectSymbol _ _).bind fun _ n₃ _ _ => Expr.parser_places.bind fun _ n₄ _ _ => ?_
    exact .pure ⟨by omega, sited_of_blocks rfl⟩
  · -- `print`
    exact .take hpos fun _ n₁ _ => printArgs_places.bind fun _ n₂ _ _ => .pure ⟨by omega, sited_of_blocks rfl⟩
  · -- `if`
    refine .take hpos fun _ n₁ hlt => (checkBlocks_places ctx ht).bind fun _ n₂ _ _ => ?_
    exact (ih.ifChain n₂ _ ⟨.if_, t.pos⟩ ht (by omega)).mono fun s n₃ _ hs => ⟨by omega, hs⟩
  · -- `while`
    refine .take hpos fun _ n₁ _ => Expr.parser_places.bind fun cond n₂ _ _ => ?_
    exact (Places.expectSymbol _ _).bind fun _ n₃ _ _ => hblock .while_ (fun _ => rfl) (by omega)
  · -- `for`
    refine .take hpos fun _ n₁ _ => (Places.expectIdent _).bind fun _ n₂ _ _ => ?_
    refine (Places.eatKeyword _).bind fun _ n₃ _ _ => ?_
    split
    · refine Expr.parser_places.bind fun _ n₄ _ _ => ?_
      exact (Places.expectSymbol _ _).bind fun _ n₅ _ _ => hblock .for_ (fun _ => rfl) (by omega)
    · exact .fail _
  · -- `solar_def`
    refine .take hpos fun _ n₁ _ => signature_places.bind fun _ n₂ _ _ => ?_
    exact hblock .def_ (fun _ => rfl) (by omega)
  · -- `return`
    split
    · refine .take hpos fun _ n₁ _ => Places.atSeparator.bind fun _ n₂ _ _ => ?_
      split
      · exact .pure ⟨by omega, sited_of_blocks rfl⟩
      · exact Expr.parser_places.bind fun _ n₃ _ _ => .pure ⟨by omega, sited_of_blocks rfl⟩
    · exact .failAt ht _
  · -- `break`
    split
    · exact .take hpos fun _ n₁ _ => .pure ⟨by omega, sited_of_blocks rfl⟩
    · exact .failAt ht _
  · -- `continue`
    split
    · exact .take hpos fun _ n₁ _ => .pure ⟨by omega, sited_of_blocks rfl⟩
    · exact .failAt ht _
  · -- `contain`
    refine .take hpos fun _ n₁ _ => (Places.expectIdent _).bind fun r n₂ _ _ => ?_
    have hpath : Places P n₂ (fun c => pathRest c.fuel r.1 c) fun _ _ => True :=
      .withFuel (x := fun fuel => pathRest fuel r.1) (pathRest_places _ _ (by omega))
    exact hpath.bind fun _ n₃ _ _ => .pure ⟨by omega, sited_of_blocks rfl⟩
  · -- a fenced block
    exact .take hpos fun _ n₁ _ => .pure ⟨by omega, sited_of_blocks rfl⟩
  · -- `call`
    exact .take hpos fun _ n₁ _ => callCommand_places.mono fun s n₂ _ hs => ⟨by omega, hs⟩
  · -- `ui`
    exact .take hpos fun _ n₁ _ => (command_places .ui).map fun c n₂ _ _ => ⟨by omega, sited_of_blocks rfl⟩
  · -- `game`
    exact .take hpos fun _ n₁ _ => (command_places .game).map fun c n₂ _ _ => ⟨by omega, sited_of_blocks rfl⟩
  · -- a name
    refine (Places.ask fun c => c.peekNext.kind.isSymbol .assign).bind fun _ n₁ _ _ => ?_
    split
    · exact .failAt ht _
    · exact (callStatement_places ht).mono fun s n₂ _ hs => ⟨by omega, hs.2⟩
  · exact .fail _

theorem blockBody_succ (ih : Placed P fuel) (n : Nat) (ctx : Context) (opened : OpenBlock) (hopen : P opened.pos)
    (hfuel : 16 * n + 3 ≤ fuel + 1) :
    (Stmt.blockBody (fuel + 1) ctx opened).Places P n fun r _ => Block.Sited P r.1 ∧ P r.2.pos := by
  rw [Stmt.blockBody]
  refine Places.skipNewlines.bind fun _ n₁ _ _ => Places.peekKind.bind fun k n₂ _ _ => ?_
  have hend : Places P n₂ (do
      let t ← Parse.advance
      pure (([] : Block), t)) fun r _ => Block.Sited P r.1 ∧ P r.2.pos :=
    Places.advance.bind fun t _ _ ht => .pure ⟨.nil, ht.1⟩
  split
  · exact hend
  · exact hend
  · exact hend
  · exact .failAt hopen _
  · refine (ih.statement n₂ ctx (by omega)).bind fun s n₃ _ hs => Places.expectSeparator.bind fun _ n₄ _ _ => ?_
    refine (ih.blockBody n₄ ctx opened hopen (by omega)).bind fun r _ _ hr => ?_
    exact .pure ⟨hs.2 _ hr.1, hr.2⟩

theorem plainBlock_succ (ih : Placed P fuel) (n : Nat) (ctx : Context) (opened : OpenBlock) (hopen : P opened.pos)
    (hfuel : 16 * n + 4 ≤ fuel + 1) :
    (Stmt.plainBlock (fuel + 1) ctx opened).Places P n fun b _ => Block.Sited P b := by
  rw [Stmt.plainBlock]
  refine (checkBlocks_places ctx hopen).bind fun _ n₁ _ _ => ?_
  refine (ih.blockBody n₁ _ opened hopen (by omega)).bind fun r n₂ _ hr => ?_
  exact (requireEnd_places hr.2 _).bind fun _ _ _ _ => .pure hr.1

theorem ifChain_succ (ih : Placed P fuel) (n : Nat) (ctx : Context) (opened : OpenBlock) (hopen : P opened.pos)
    (hfuel : 16 * n + 1 ≤ fuel + 1) : (Stmt.ifChain (fuel + 1) ctx opened).Places P n fun s _ => s.Sited P := by
  rw [Stmt.ifChain]
  have hbranch (cond : Expr) {yes no : Block} (hyes : Block.Sited P yes) (hno : Block.Sited P no) :
      (Stmt.branch cond yes no).Sited P := by
    intro b hb
    rcases List.mem_cons.mp hb with rfl | hb
    · exact hyes
    · exact List.mem_singleton.mp hb ▸ hno
  refine Expr.parser_places.bind fun cond n₁ _ hlt => (Places.expectSymbol _ _).bind fun _ n₂ _ _ => ?_
  refine (ih.blockBody n₂ ctx opened hopen (by omega)).bind fun r n₃ _ hr => ?_
  obtain ⟨yes, t⟩ := r
  dsimp only
  split
  · -- an `elif` stands on the line of its word
    refine (ih.ifChain n₃ ctx opened hopen (by omega)).bind fun s _ _ hs => ?_
    exact .pure (hbranch cond hr.1 (Block.Among.cons_iff.mpr ⟨⟨⟨t.pos, hr.2, rfl⟩, hs⟩, .nil⟩))
  · refine (Places.expectSymbol _ _).bind fun _ n₄ _ _ => ?_
    refine (ih.blockBody n₄ ctx opened hopen (by omega)).bind fun r' n₅ _ hr' => ?_
    exact (requireEnd_places hr'.2 _).bind fun _ _ _ _ => .pure (hbranch cond hr.1 hr'.1)
  · exact .pure (hbranch cond hr.1 .nil)

theorem all (P : Position → Prop) (fuel : Nat) : Placed P fuel := by
  induction fuel with
  | zero => exact zero
  | succ fuel ih =>
    exact ⟨ih.statement_succ, ih.statementBody_succ, ih.blockBody_succ, ih.plainBlock_succ, ih.ifChain_succ⟩

end Placed

/-! ## Programs -/

/-- Statement after statement, up to the end of the text. -/
theorem topLevel_places (fuel : Nat) (hfuel : n < fuel) : (topLevel fuel).Places P n fun b _ => Block.Sited P b := by
  induction fuel generalizing n with
  | zero => omega
  | succ fuel ih =>
    unfold topLevel
    refine Places.skipNewlines.bind fun _ n₁ _ _ => Places.peek.bind fun t n₂ _ ht => ?_
    split
    · exact .pure .nil
    · exact .failAt ht.1 _
    · exact .failAt ht.1 _
    · exact .failAt ht.1 _
    · have hstatement : Places P n₂ (fun c => statement c.fuel .top c) fun l n' =>
          n' < n₂ ∧ ∀ b, Block.Sited P b → Block.Sited P (l :: b) :=
        .withFuel (x := fun fuel => statement fuel .top) ((Placed.all P _).statement n₂ .top (by omega))
      refine hstatement.bind fun s n₃ _ hs => Places.expectSeparator.bind fun _ n₄ _ _ => ?_
      exact (ih (by omega)).bind fun rest _ _ hrest => .pure (hs.2 rest hrest)

/-- The cursor before the tokens of a text is sound. -/
theorem sound_start {source : String} {tokens : List Token} (h : Token.tokenize source = .ok tokens) :
    ∃ n, (Cursor.start tokens).Sound (Position.On (lineCount source)) n := by
  obtain ⟨ts, last, rfl, hts, hlast⟩ := Token.tokenize_ok h
  have heof : Cursor.isEof last = true := by
    unfold Cursor.isEof
    rw [hlast.1]
  refine ⟨ts.length, ?_⟩
  unfold Cursor.start
  rw [List.getLast?_concat]
  dsimp only
  rw [if_pos heof, List.dropLast_concat]
  exact ⟨rfl, hts, hlast⟩

/-- **A text that parses is a program on its lines**, and one that does not fails on one of them, unless the lexer
    breaks off. -/
theorem parseProgram_places (source : String) : match parseProgram source with
    | .ok program => Block.Sited (Position.On (lineCount source)) program
    | .error e =>
      (∃ p, p.On (lineCount source) ∧ ((∃ issue, e = .lex p issue) ∨ ∃ issue, e = .parse p issue)) ∨
        (e = ⟨.broken, .unknown⟩ ∧ Token.Breaks source) := by
  unfold parseProgram
  cases ht : Token.tokenize source with
  | error e =>
    rcases Token.tokenize_error ht with ⟨p, issue, rfl, hp⟩ | hbreaks
    · exact .inl ⟨p, hp, .inl ⟨issue, rfl⟩⟩
    · exact .inr hbreaks
  | ok tokens =>
    obtain ⟨n, hsound⟩ := sound_start ht
    have hfuel : n < (Cursor.start tokens).fuel := by
      rw [Cursor.fuel, hsound.length_eq]
      omega
    have hplaces := topLevel_places _ hfuel _ hsound
    dsimp only [bind, Except.bind]
    revert hplaces
    rcases topLevel (Cursor.start tokens).fuel (Cursor.start tokens) with ⟨e | program, c⟩ <;> intro hplaces
    · obtain ⟨p, issue, rfl, hp⟩ := hplaces
      exact .inl ⟨p, hp, .inr ⟨issue, rfl⟩⟩
    · obtain ⟨_, _, _, hsited⟩ := hplaces
      exact hsited

end Stmt

end Helios
