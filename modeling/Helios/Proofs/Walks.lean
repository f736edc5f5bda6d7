import Helios.Proofs.Brackets
import Helios.Proofs.Provenance
import Helios.Proofs.Relocation

/-!
# Walks — parsers and the brackets they go past

`Parse.Walks` is a logic for parsers that keeps the openers that are unmatched where the parser is. A parser that walks
from the token with index `i` and unmatched openers `A` ends, with a result, at a later token and the openers that are
unmatched there. The one failure that is said something about is that of a block without its `end`: then openers are
unmatched at the end of the text, and the innermost one is blamed (`Token.Unclosed`).

Most parsers go past no bracket at all (`Parse.Skims`): whatever stands in an expression, in a command or in the head of
a block is neither an opener nor an `end`.
-/

namespace Helios

/-- An error of the parser tells its place and what is wrong. -/
theorem Error.parse_inj {p p' : Position} {issue issue' : ParseIssue} (h : Error.parse p issue = Error.parse p' issue') :
    p = p' ∧ issue = issue' := by
  injection h with hcause hlocation
  exact ⟨Location.at.inj hlocation, Cause.parse.inj hcause⟩

/-- **A block without its `end`**: the innermost of the openers that are unmatched at the end is the given word at the
    given position. -/
def Token.Unclosed (tokens : List Token) (p : Position) (word : String) : Prop :=
  ∃ o outer t kind, Token.unmatched tokens = some (o :: outer) ∧ tokens[o]? = some t ∧ t.kind.opener? = some kind ∧
    t.pos = p ∧ kind.keyword.text = word

/-- **A cursor before the token with index `i`**, with the openers that are unmatched there. -/
structure Cursor.At (tokens : List Token) (i : Nat) (A : List Nat) (c : Cursor) : Prop where
  rest : tokens.drop i = c.rest ++ [c.stop]
  unmatched : Token.unmatchedBefore tokens i = some A
  inner : ∀ t ∈ c.rest, t.kind ≠ .eof
  stop : c.stop.kind = .eof

namespace Cursor.At

variable {tokens : List Token} {i : Nat} {A B : List Nat} {c : Cursor}

/-- The next token is the one with that index. -/
theorem peek (h : c.At tokens i A) : tokens[i]? = some c.peek := by
  have hhead : (tokens.drop i)[0]? = some c.peek := by
    rw [h.rest]
    unfold Cursor.peek
    cases c.rest <;> rfl
  rw [List.getElem?_drop] at hhead
  exact hhead

/-- Nothing follows the end of input. -/
theorem rest_of_eof (h : c.At tokens i A) (hk : c.peek.kind = .eof) : c.rest = [] := by
  unfold Cursor.peek at hk
  cases hrest : c.rest with
  | nil => rfl
  | cons t rest =>
    rw [hrest] at hk
    exact absurd hk (h.inner t (by rw [hrest]; exact List.mem_cons_self))

/-- At the end of input nothing is left. -/
theorem length_of_eof (h : c.At tokens i A) (hk : c.peek.kind = .eof) : tokens.length = i + 1 := by
  have hlength := congrArg List.length h.rest
  rw [h.rest_of_eof hk, List.length_drop] at hlength
  simp only [List.nil_append, List.length_singleton] at hlength
  omega

/-- At the end of input, the openers there are those of the whole text. -/
theorem unmatched_of_eof (h : c.At tokens i A) (hk : c.peek.kind = .eof) : Token.unmatched tokens = some A := by
  rw [Token.unmatched, h.length_of_eof hk, Token.unmatchedBefore_succ h.unmatched h.peek, hk]
  rfl

/-- Past a token that is not the end. -/
theorem next (h : c.At tokens i A) (hk : c.peek.kind ≠ .eof)
    (hB : Token.unmatchedAfter i A c.peek.kind = some B) : c.next.At tokens (i + 1) B := by
  have hafter : Token.unmatchedBefore tokens (i + 1) = some B := by
    rw [Token.unmatchedBefore_succ h.unmatched h.peek, hB]
  have hrest := h.rest
  have hinner := h.inner
  unfold Cursor.next
  cases hcons : c.rest with
  | nil =>
    refine absurd ?_ hk
    unfold Cursor.peek
    rw [hcons]
    exact h.stop
  | cons t rest =>
    rw [hcons] at hrest hinner
    refine ⟨?_, hafter, fun u hu => hinner u (List.mem_cons_of_mem t hu), h.stop⟩
    rw [← List.drop_drop, hrest]
    rfl

/-- Past a token that is no bracket; the end of input is never passed. -/
theorem next_neutral (h : c.At tokens i A) (hk : c.peek.kind.Neutral) :
    ∃ j, i ≤ j ∧ c.next.At tokens j A ∧ Token.openers tokens i j = [] := by
  by_cases heof : c.peek.kind = .eof
  · have hnext : c.next = c := by
      unfold Cursor.next
      rw [h.rest_of_eof heof]
    rw [hnext]
    exact ⟨i, Nat.le_refl i, h, Token.openers_self⟩
  · exact ⟨i + 1, Nat.le_succ i, h.next heof (Token.unmatchedAfter_neutral hk), Token.openers_of_none h.peek hk.opener⟩

end Cursor.At

/-! ## The logic -/

/-- **A parser on its walk** from the token with index `i`, where the openers `A` are unmatched: it gives a result and
    leaves a cursor at a later token, and `Q` tells of that and of the openers that are unmatched there, or else it
    fails, but for the want of an `end` only where one is wanted. -/
def Parse.Walks (tokens : List Token) (i : Nat) (A : List Nat) {α : Type} (x : Parse α)
    (Q : α → Nat → List Nat → Prop) : Prop :=
  ∀ c, c.At tokens i A → match x c with
    | (.ok a, c') => ∃ j B, i ≤ j ∧ c'.At tokens j B ∧ Q a j B
    | (.error e, _) => ∀ p word, e = .parse p (.missingEnd word) → Token.Unclosed tokens p word

namespace Parse.Walks

variable {tokens : List Token} {i : Nat} {A : List Nat} {α β : Type}

/-- A result without a walk. -/
theorem pure {a : α} {Q : α → Nat → List Nat → Prop} (h : Q a i A) : Walks tokens i A (pure a) Q :=
  fun _ hc => ⟨i, A, Nat.le_refl i, hc, h⟩

/-- One walk after another. -/
theorem bind {x : Parse α} {f : α → Parse β} {R : α → Nat → List Nat → Prop} {Q : β → Nat → List Nat → Prop}
    (hx : x.Walks tokens i A R) (hf : ∀ a j B, i ≤ j → R a j B → (f a).Walks tokens j B Q) :
    (x >>= f).Walks tokens i A Q := by
  intro c hc
  have hbind : (x >>= f) c = ExceptT.bindCont f (x c).1 (x c).2 := rfl
  rw [hbind]
  have hfirst := hx c hc
  revert hfirst
  rcases x c with ⟨e | a, c₁⟩ <;> intro hfirst
  · exact hfirst
  · obtain ⟨j, B, hij, hc₁, hR⟩ := hfirst
    have hthen := hf a j B hij hR c₁ hc₁
    show match f a c₁ with
      | (.ok b, c') => ∃ k C, i ≤ k ∧ c'.At tokens k C ∧ Q b k C
      | (.error e, _) => ∀ p word, e = .parse p (.missingEnd word) → Token.Unclosed tokens p word
    revert hthen
    rcases f a c₁ with ⟨e | b, c₂⟩ <;> intro hthen
    · exact hthen
    · obtain ⟨k, C, hjk, hc₂, hQ⟩ := hthen
      exact ⟨k, C, Nat.le_trans hij hjk, hc₂, hQ⟩

/-- What a walk ends with may be weakened. -/
theorem mono {x : Parse α} {R Q : α → Nat → List Nat → Prop} (hx : x.Walks tokens i A R)
    (h : ∀ a j B, i ≤ j → R a j B → Q a j B) : x.Walks tokens i A Q := by
  intro c hc
  have hwalk := hx c hc
  revert hwalk
  rcases x c with ⟨e | a, c'⟩ <;> intro hwalk
  · exact hwalk
  · obtain ⟨j, B, hij, hc', hR⟩ := hwalk
    exact ⟨j, B, hij, hc', h a j B hij hR⟩

/-- A failure at the next token that is not about a missing `end`. -/
theorem fail {issue : TokenKind → ParseIssue} (h : ∀ k word, issue k ≠ .missingEnd word)
    {Q : α → Nat → List Nat → Prop} : (Parse.fail issue : Parse α).Walks tokens i A Q :=
  fun _ _ _ word heq => absurd (Error.parse_inj heq).2 (h _ word)

/-- The same at a place told. -/
theorem failAt {p : Position} {issue : ParseIssue} (h : ∀ word, issue ≠ .missingEnd word)
    {Q : α → Nat → List Nat → Prop} : (Parse.failAt p issue : Parse α).Walks tokens i A Q :=
  fun _ _ _ word heq => absurd (Error.parse_inj heq).2 (h word)

/-- A parser without fuel says nothing. -/
theorem exhausted {Q : α → Nat → List Nat → Prop} : (Parse.exhausted : Parse α).Walks tokens i A Q :=
  fun _ _ _ _ heq => nomatch congrArg Error.cause heq

/-- A question about the cursor, which stays where it is. -/
theorem ask (f : Cursor → α) : Walks tokens i A (fun c => (.ok (f c), c)) fun _ j B => j = i ∧ B = A :=
  fun _ hc => ⟨i, A, Nat.le_refl i, hc, rfl, rfl⟩

/-- A parser that takes its bound from the cursor. -/
theorem withFuel {x : Nat → Parse α} {Q : α → Nat → List Nat → Prop} (h : ∀ fuel, (x fuel).Walks tokens i A Q) :
    Walks tokens i A (fun c => x c.fuel c) Q := fun c hc => h c.fuel c hc

/-- Looking at the next token. -/
theorem peek : Parse.peek.Walks tokens i A fun t j B => (j = i ∧ B = A) ∧ tokens[i]? = some t :=
  fun _ hc => ⟨i, A, Nat.le_refl i, hc, ⟨rfl, rfl⟩, hc.peek⟩

/-- Looking at its kind. -/
theorem peekKind : Parse.peekKind.Walks tokens i A fun k j B =>
    (j = i ∧ B = A) ∧ ∃ t, tokens[i]? = some t ∧ t.kind = k :=
  fun c hc => ⟨i, A, Nat.le_refl i, hc, ⟨rfl, rfl⟩, c.peek, hc.peek, rfl⟩

/-- A bracket is taken. -/
theorem advance {t : Token} {B : List Nat} (ht : tokens[i]? = some t) (hk : t.kind ≠ .eof)
    (hB : Token.unmatchedAfter i A t.kind = some B) :
    Parse.advance.Walks tokens i A fun t' j B' => t' = t ∧ j = i + 1 ∧ B' = B := by
  intro c hc
  obtain rfl := Option.some.inj (hc.peek.symm.trans ht)
  exact ⟨i + 1, B, Nat.le_succ i, hc.next hk hB, rfl, rfl, rfl⟩

end Parse.Walks

/-- **A parser that goes past no bracket**; `R` tells of its result and of the place where it ends. -/
def Parse.Skims (tokens : List Token) (i : Nat) {α : Type} (x : Parse α) (R : α → Nat → Prop) : Prop :=
  ∀ A, x.Walks tokens i A fun a j B => B = A ∧ Token.openers tokens i j = [] ∧ R a j

namespace Parse.Skims

variable {tokens : List Token} {i : Nat} {α β : Type} {R : α → Nat → Prop}

theorem pure {a : α} (h : R a i) : Skims tokens i (pure a) R :=
  fun _ => .pure ⟨rfl, Token.openers_self, h⟩

/-- One after another, and neither goes past a bracket. -/
theorem bind {x : Parse α} {f : α → Parse β} {Q : β → Nat → Prop} (hx : x.Skims tokens i R)
    (hf : ∀ a j, R a j → (f a).Skims tokens j Q) : (x >>= f).Skims tokens i Q := by
  intro A
  refine (hx A).bind fun a j B hij ⟨hB, hnone, hR⟩ => ?_
  subst hB
  refine (hf a j hR B).mono fun b k C hjk ⟨hC, hnone', hQ⟩ => ⟨hC, ?_, hQ⟩
  rw [← Token.openers_append hij hjk, hnone, hnone']
  rfl

theorem mono {x : Parse α} {Q : α → Nat → Prop} (hx : x.Skims tokens i R) (h : ∀ a j, R a j → Q a j) :
    x.Skims tokens i Q := fun A => (hx A).mono fun a j _ _ ⟨hB, hnone, hR⟩ => ⟨hB, hnone, h a j hR⟩

theorem map {x : Parse α} {f : α → β} {Q : β → Nat → Prop} (hx : x.Skims tokens i R) (h : ∀ a j, R a j → Q (f a) j) :
    (f <$> x).Skims tokens i Q := by
  rw [map_eq_pure_bind]
  exact hx.bind fun a j hR => pure (h a j hR)

theorem fail {issue : TokenKind → ParseIssue} (h : ∀ k word, issue k ≠ .missingEnd word) :
    (Parse.fail issue : Parse α).Skims tokens i R := fun _ => .fail h

theorem failAt {p : Position} {issue : ParseIssue} (h : ∀ word, issue ≠ .missingEnd word) :
    (Parse.failAt p issue : Parse α).Skims tokens i R := fun _ => .failAt h

theorem exhausted : (Parse.exhausted : Parse α).Skims tokens i R := fun _ => .exhausted

/-- First something without brackets, and then the rest, which starts at a place that is clear since `k` too. -/
theorem onwards {k : Nat} {A : List Nat} {x : Parse α} {f : α → Parse β} {Q : β → Nat → List Nat → Prop}
    (hclear : Token.Clear tokens k i) (hx : x.Skims tokens i R)
    (hf : ∀ a j, Token.Clear tokens k j → R a j → (f a).Walks tokens j A Q) : (x >>= f).Walks tokens i A Q := by
  refine (hx A).bind fun a j B hij ⟨hB, hnone, hR⟩ => ?_
  subst hB
  exact hf a j (hclear.trans ⟨hij, hnone⟩) hR

@[inherit_doc Walks.ask]
theorem ask (f : Cursor → α) : Skims tokens i (fun c => (.ok (f c), c)) fun _ j => j = i := by
  refine fun A => (Walks.ask f).mono fun _ j _ _ ⟨hj, hB⟩ => ⟨hB, ?_, hj⟩
  rw [hj]
  exact Token.openers_self

theorem withFuel {x : Nat → Parse α} (h : ∀ fuel, (x fuel).Skims tokens i R) :
    Skims tokens i (fun c => x c.fuel c) R := fun A => .withFuel fun fuel => h fuel A

theorem peek : Parse.peek.Skims tokens i fun t j => j = i ∧ tokens[i]? = some t := by
  refine fun A => Walks.peek.mono fun t j B _ ⟨⟨hj, hB⟩, ht⟩ => ⟨hB, ?_, hj, ht⟩
  rw [hj]
  exact Token.openers_self

theorem peekKind : Parse.peekKind.Skims tokens i fun k j => j = i ∧ ∃ t, tokens[i]? = some t ∧ t.kind = k := by
  refine fun A => Walks.peekKind.mono fun k j B _ ⟨⟨hj, hB⟩, ht⟩ => ⟨hB, ?_, hj, ht⟩
  rw [hj]
  exact Token.openers_self

/-- A token that is no bracket is taken. -/
theorem advance {t : Token} {k : TokenKind} (ht : tokens[i]? = some t) (hk : t.kind = k) (hneutral : k.Neutral) :
    Parse.advance.Skims tokens i fun _ _ => True := by
  intro A c hc
  obtain rfl := Option.some.inj (hc.peek.symm.trans ht)
  obtain ⟨j, hij, hnext, hnone⟩ := hc.next_neutral (hk ▸ hneutral)
  exact ⟨j, A, hij, hnext, rfl, hnone, trivial⟩

/-- A token that may be taken is no bracket. -/
theorem eat {p : TokenKind → Bool} (hp : ∀ k, p k = true → k.Neutral) :
    Skims tokens i (fun c => if p c.peek.kind then (.ok true, c.next) else (.ok false, c)) fun _ _ => True := by
  intro A c hc
  by_cases hk : p c.peek.kind = true
  · obtain ⟨j, hij, hnext, hnone⟩ := hc.next_neutral (hp _ hk)
    simp only [if_pos hk]
    exact ⟨j, A, hij, hnext, rfl, hnone, trivial⟩
  · simp only [if_neg hk]
    exact ⟨i, A, Nat.le_refl i, hc, rfl, Token.openers_self, trivial⟩

/-! ### One token -/

/-- A symbol is no bracket of blocks. -/
theorem eatSymbol (s : Symbol) : (Parse.eatSymbol s).Skims tokens i fun _ _ => True := by
  refine eat (p := fun k => k.isSymbol s) fun k hk => ?_
  rw [TokenKind.isSymbol_iff.mp hk]
  exact ⟨rfl, rfl⟩

/-- Nor is a keyword, unless it opens or ends a block. -/
theorem eatKeyword {k : Keyword} (hneutral : (TokenKind.keyword k).Neutral) :
    (Parse.eatKeyword k).Skims tokens i fun _ _ => True := by
  refine eat (p := fun w => w.isKeyword k) fun w hw => ?_
  cases w with
  | keyword w =>
    obtain rfl : w = k := beq_iff_eq.mp hw
    exact hneutral
  | _ => nomatch hw

/-- The parenthesis that is missing is no `end`. -/
theorem expectClosing (close : Symbol) (opened : Token) :
    (Parse.expectClosing close opened).Skims tokens i fun _ _ => True := by
  refine (eatSymbol close).bind fun eaten _ _ => ?_
  split
  · exact .pure trivial
  · exact .fail (by simp)

theorem atSymbol (s : Symbol) : (Parse.atSymbol s).Skims tokens i fun b j =>
    j = i ∧ (b = true → ∃ t, tokens[i]? = some t ∧ t.kind = .symbol s) :=
  fun A c hc => ⟨i, A, Nat.le_refl i, hc, rfl, Token.openers_self, rfl, fun hb =>
    ⟨c.peek, hc.peek, TokenKind.isSymbol_iff.mp hb⟩⟩

theorem expectSymbol (s : Symbol) (context : String) :
    (Parse.expectSymbol s context).Skims tokens i fun _ _ => True := by
  refine (atSymbol s).bind fun b j ⟨hj, hb⟩ => ?_
  subst hj
  split
  · rename_i htrue
    obtain ⟨t, ht, hk⟩ := hb htrue
    exact advance ht hk ⟨rfl, rfl⟩
  · exact .fail (by simp)

theorem expectIdent (what : String) : (Parse.expectIdent what).Skims tokens i fun _ _ => True := by
  refine peek.bind fun t j ⟨hj, ht⟩ => ?_
  subst hj
  split
  · rename_i name hk
    exact (advance ht hk ⟨rfl, rfl⟩).bind fun _ _ _ => .pure trivial
  · exact .fail (by simp)

/-! ### Separators and repetition -/

theorem atSeparator : Parse.atSeparator.Skims tokens i fun _ j => j = i := ask _

/-- Line ends are no brackets. -/
theorem skipNewlines : Parse.skipNewlines.Skims tokens i fun _ _ => True := by
  intro A c hc
  -- `skipNewlines` has no fuel: the induction is on the tokens that are left
  induction hlength : c.rest.length generalizing i c with
  | zero =>
    have hnil := List.eq_nil_of_length_eq_zero hlength
    have heof : c.peek.kind.isNewline = false := by
      unfold Cursor.peek
      rw [hnil, List.headD_nil, hc.stop]
      rfl
    rw [Parse.skipNewlines_of_ne heof]
    exact ⟨i, A, Nat.le_refl i, hc, rfl, Token.openers_self, trivial⟩
  | succ n ih =>
    cases hline : c.peek.kind.isNewline with
    | false =>
      rw [Parse.skipNewlines_of_ne hline]
      exact ⟨i, A, Nat.le_refl i, hc, rfl, Token.openers_self, trivial⟩
    | true =>
      have hne : c.rest ≠ [] := by
        intro hnil
        rw [hnil] at hlength
        nomatch hlength
      have hneutral : c.peek.kind.Neutral := by
        rw [TokenKind.isNewline_iff.mp hline]
        exact ⟨rfl, rfl⟩
      obtain ⟨j, hij, hnext, hnone⟩ := hc.next_neutral hneutral
      have hshorter : c.next.rest.length = n := by
        obtain ⟨t, rest, hrest⟩ := List.exists_cons_of_ne_nil hne
        rw [hrest] at hlength
        unfold Cursor.next
        rw [hrest]
        exact Nat.succ.inj hlength
      have hskip := ih c.next hnext hshorter
      rw [Parse.skipNewlines_next hne hline] at hskip
      revert hskip
      rcases Parse.skipNewlines c with ⟨e | u, c'⟩ <;> intro hskip
      · exact hskip
      · obtain ⟨k, B, hjk, hc', hB, hnone', -⟩ := hskip
        refine ⟨k, B, Nat.le_trans hij hjk, hc', hB, ?_, trivial⟩
        rw [← Token.openers_append hij hjk, hnone, hnone']
        rfl

theorem expectSeparator : Parse.expectSeparator.Skims tokens i fun _ _ => True := by
  refine atSeparator.bind fun atEnd j _ => ?_
  split
  · refine peekKind.bind fun k j' ⟨hj, t, ht, hk⟩ => ?_
    subst hj
    split
    · rename_i hline
      exact (advance ht (hk.trans (TokenKind.isNewline_iff.mp hline)) ⟨rfl, rfl⟩).bind fun _ _ _ => .pure trivial
    · exact .pure trivial
  · exact .fail (by simp)

/-- Item after item until something stops it. -/
theorem manyUntil {stop : Parse Bool} {item : Parse α} (hstop : ∀ i, stop.Skims tokens i fun _ _ => True)
    (hitem : ∀ i, item.Skims tokens i fun _ _ => True) (fuel : Nat) :
    (Parse.manyUntil stop item fuel).Skims tokens i fun _ _ => True := by
  induction fuel generalizing i with
  | zero => exact .exhausted
  | succ fuel ih =>
    refine (hstop i).bind fun stopped j _ => ?_
    split
    · exact .pure trivial
    · exact (hitem j).bind fun _ _ _ => ih.bind fun _ _ _ => .pure trivial

/-- Until something stops it, with fuel from the cursor. -/
theorem many {stop : Parse Bool} {item : Parse α} (hstop : ∀ i, stop.Skims tokens i fun _ _ => True)
    (hitem : ∀ i, item.Skims tokens i fun _ _ => True) : (Parse.many stop item).Skims tokens i fun _ _ => True :=
  withFuel (x := Parse.manyUntil stop item) (manyUntil hstop hitem)

end Parse.Skims

/-! ## Expressions -/

namespace Expr

open Parse (Skims)

variable {tokens : List Token} {i fuel : Nat}

/-- Operators are no brackets. -/
theorem neutral_token (op : BinOp) : op.token.Neutral := by cases op <;> exact ⟨rfl, rfl⟩

theorem neutral_unary (op : UnaryOp) : op.token.Neutral := by cases op <;> exact ⟨rfl, rfl⟩

/-- Nor are literals and names. -/
theorem neutral_atom {k : TokenKind} {e : Expr} (h : atom? k = some e) : k.Neutral := by
  unfold atom? at h
  split at h
  case h_8 => nomatch h
  all_goals exact ⟨rfl, rfl⟩

theorem checkDepth_skims (dep : Nat) : (checkDepth dep).Skims tokens i fun _ _ => True := by
  unfold checkDepth
  split
  · exact .fail (by simp)
  · exact .pure trivial

/-- **The functions of the parser of expressions go past no bracket.** -/
structure Skimmed (tokens : List Token) (fuel : Nat) : Prop where
  expression : ∀ i dep, (expression fuel dep).Skims tokens i fun _ _ => True
  chain : ∀ i dep l, (chain fuel dep l).Skims tokens i fun _ _ => True
  operand : ∀ i dep l, (operand fuel dep l).Skims tokens i fun _ _ => True
  chainRest : ∀ i dep l left, (chainRest fuel dep l left).Skims tokens i fun _ _ => True
  unaryOrPostfix : ∀ i dep command, (unaryOrPostfix fuel dep command).Skims tokens i fun _ _ => True
  postfixRest : ∀ i dep command e, (postfixRest fuel dep command e).Skims tokens i fun _ _ => True
  primary : ∀ i dep, (primary fuel dep).Skims tokens i fun _ _ => True
  commaList : ∀ i dep close opened, (commaList fuel dep close opened).Skims tokens i fun _ _ => True
  pairList : ∀ i dep opened, (pairList fuel dep opened).Skims tokens i fun _ _ => True

namespace Skimmed

/-- Without fuel nothing is gone past. -/
theorem zero : Skimmed tokens 0 := by
  constructor <;>
    simp only [Expr.expression, Expr.chain, Expr.operand, Expr.chainRest, Expr.unaryOrPostfix, Expr.postfixRest,
      Expr.primary, Expr.commaList, Expr.pairList, Skims.exhausted, implies_true]

/-- One level of fuel less: an expression. -/
theorem expression_succ (ih : Skimmed tokens fuel) (i dep : Nat) :
    (Expr.expression (fuel + 1) dep).Skims tokens i fun _ _ => True := by
  rw [Expr.expression]
  exact (checkDepth_skims dep).bind fun _ j _ => ih.chain j (dep + 1) .or

/-- The operands and operators of one level. -/
theorem chain_succ (ih : Skimmed tokens fuel) (i dep : Nat) (l : Level) :
    (Expr.chain (fuel + 1) dep l).Skims tokens i fun _ _ => True := by
  rw [Expr.chain]
  exact (ih.operand i dep l).bind fun left j _ => ih.chainRest j dep l left

theorem operand_succ (ih : Skimmed tokens fuel) (i dep : Nat) (l : Level) :
    (Expr.operand (fuel + 1) dep l).Skims tokens i fun _ _ => True := by
  rw [Expr.operand]
  split
  · exact ih.chain i dep _
  · exact ih.unaryOrPostfix i dep false

/-- The rest of a chain, after its first operand. -/
theorem chainRest_succ (ih : Skimmed tokens fuel) (i dep : Nat) (l : Level) (left : Expr) :
    (Expr.chainRest (fuel + 1) dep l left).Skims tokens i fun _ _ => True := by
  rw [Expr.chainRest]
  refine Skims.peekKind.bind ?_
  rintro k j ⟨rfl, t, ht, hk⟩
  split
  · rename_i op hop
    obtain ⟨-, rfl⟩ := Level.operator?_eq_some_iff.mp hop
    refine (Skims.advance ht hk (neutral_token op)).bind fun _ j₁ _ => (ih.operand j₁ dep l).bind fun right j₂ _ => ?_
    exact ih.chainRest j₂ dep l _
  · exact .pure trivial

/-- A sign, or a primary and what follows it. -/
theorem unaryOrPostfix_succ (ih : Skimmed tokens fuel) (i dep : Nat) (command : Bool) :
    (Expr.unaryOrPostfix (fuel + 1) dep command).Skims tokens i fun _ _ => True := by
  rw [Expr.unaryOrPostfix]
  refine Skims.peekKind.bind ?_
  rintro k j ⟨rfl, t, ht, hk⟩
  split
  · rename_i op hop
    obtain rfl := unaryOperator?_eq_some_iff.mp hop
    refine (Skims.advance ht hk (neutral_unary op)).bind fun _ j₁ _ => (checkDepth_skims dep).bind fun _ j₂ _ => ?_
    exact (ih.unaryOrPostfix j₂ (dep + 1) command).bind fun _ _ _ => .pure trivial
  · exact (ih.primary j dep).bind fun e j₁ _ => ih.postfixRest j₁ dep command e

/-- Calls, indices and members behind a primary. -/
theorem postfixRest_succ (ih : Skimmed tokens fuel) (i dep : Nat) (command : Bool) (e : Expr) :
    (Expr.postfixRest (fuel + 1) dep command e).Skims tokens i fun _ _ => True := by
  rw [Expr.postfixRest]
  refine Skims.peek.bind ?_
  rintro opened j ⟨rfl, ht⟩
  refine (Skims.ask Cursor.touches).bind ?_
  rintro touching j rfl
  dsimp only
  split
  · -- a call
    rename_i hk
    split
    · exact .pure trivial
    · refine (Skims.advance ht hk ⟨rfl, rfl⟩).bind fun _ j₁ _ => ?_
      exact (ih.commaList j₁ dep .rightParen opened).bind fun args j₂ _ => ih.postfixRest j₂ dep command _
  · -- an index
    rename_i hk
    split
    · exact .pure trivial
    · refine (Skims.advance ht hk ⟨rfl, rfl⟩).bind fun _ j₁ _ => ?_
      refine (ih.expression j₁ dep).bind fun _ j₂ _ => (Skims.expectClosing _ opened).bind fun _ j₃ _ => ?_
      exact ih.postfixRest j₃ dep command _
  · -- a member
    rename_i hk
    refine (Skims.advance ht hk ⟨rfl, rfl⟩).bind fun _ j₁ _ => ?_
    exact (Skims.expectIdent _).bind fun r j₂ _ => ih.postfixRest j₂ dep command _
  · exact .pure trivial

/-- A literal, a name, or something in parentheses or brackets. -/
theorem primary_succ (ih : Skimmed tokens fuel) (i dep : Nat) :
    (Expr.primary (fuel + 1) dep).Skims tokens i fun _ _ => True := by
  rw [Expr.primary]
  refine Skims.peek.bind ?_
  rintro t j ⟨rfl, ht⟩
  split
  · rename_i e hatom
    exact (Skims.advance ht rfl (neutral_atom hatom)).bind fun _ _ _ => .pure trivial
  · split
    · -- an expression in parentheses
      rename_i hk
      refine (Skims.advance ht hk ⟨rfl, rfl⟩).bind fun _ j₁ _ => ?_
      exact (ih.expression j₁ dep).bind fun _ _ _ => (Skims.expectClosing _ t).bind fun _ _ _ => .pure trivial
    · -- a list
      rename_i hk
      refine (Skims.advance ht hk ⟨rfl, rfl⟩).bind fun _ j₁ _ => ?_
      exact (ih.commaList j₁ dep .rightBracket t).bind fun _ _ _ => .pure trivial
    · -- a dict
      rename_i hk
      refine (Skims.advance ht hk ⟨rfl, rfl⟩).bind fun _ j₁ _ => ?_
      exact (ih.pairList j₁ dep t).bind fun _ _ _ => .pure trivial
    · exact .fail (by simp)

/-- What follows an item of a list: a comma and more items, or the end of the list. -/
theorem afterItem {α : Type} {close : Symbol} {opened : Token} {a : α} {x : Parse (List α)}
    (hmore : ∀ j, x.Skims tokens j fun _ _ => True) :
    Skims tokens i
      (do if ← Parse.eatSymbol .comma then
            let rest ← x
            pure (a :: rest)
          else
            Parse.expectClosing close opened
            pure [a]) fun _ _ => True := by
  refine (Skims.eatSymbol _).bind fun eaten j _ => ?_
  split
  · exact (hmore j).bind fun _ _ _ => .pure trivial
  · exact (Skims.expectClosing close opened).bind fun _ _ _ => .pure trivial

/-- Items with commas between, up to the closing symbol. -/
theorem commaList_succ (ih : Skimmed tokens fuel) (i dep : Nat) (close : Symbol) (opened : Token) :
    (Expr.commaList (fuel + 1) dep close opened).Skims tokens i fun _ _ => True := by
  rw [Expr.commaList]
  refine (Skims.eatSymbol close).bind fun eaten j _ => ?_
  split
  · exact .pure trivial
  · exact (ih.expression j dep).bind fun _ _ _ => afterItem fun j' => ih.commaList j' dep close opened

/-- Keys and values of a dict. -/
theorem pairList_succ (ih : Skimmed tokens fuel) (i dep : Nat) (opened : Token) :
    (Expr.pairList (fuel + 1) dep opened).Skims tokens i fun _ _ => True := by
  rw [Expr.pairList]
  refine (Skims.eatSymbol .rightBrace).bind fun eaten j _ => ?_
  split
  · exact .pure trivial
  · refine (ih.expression j dep).bind fun key j₁ _ => (Skims.expectSymbol .colon _).bind fun _ j₂ _ => ?_
    exact (ih.expression j₂ dep).bind fun value j₃ _ => afterItem fun j' => ih.pairList j' dep opened

/-- By induction on the fuel. -/
theorem all (tokens : List Token) (fuel : Nat) : Skimmed tokens fuel := by
  induction fuel with
  | zero => exact zero
  | succ fuel ih =>
    exact ⟨ih.expression_succ, ih.chain_succ, ih.operand_succ, ih.chainRest_succ, ih.unaryOrPostfix_succ,
      ih.postfixRest_succ, ih.primary_succ, ih.commaList_succ, ih.pairList_succ⟩

end Skimmed

/-- **An expression goes past no bracket.** -/
theorem parser_skims : parser.Skims tokens i fun _ _ => True :=
  .withFuel (x := fun fuel => expression fuel 0) fun fuel => (Skimmed.all tokens fuel).expression i 0

theorem commandArg_skims : commandArg.Skims tokens i fun _ _ => True :=
  .withFuel (x := fun fuel => unaryOrPostfix fuel 0 true) fun fuel => (Skimmed.all tokens fuel).unaryOrPostfix i 0 true

theorem parenArgs_skims : parenArgs.Skims tokens i fun _ _ => True := by
  refine (Skims.expectSymbol .leftParen _).bind fun opened j _ => ?_
  exact .withFuel (x := fun fuel => commaList fuel 0 .rightParen opened) fun fuel =>
    (Skimmed.all tokens fuel).commaList j 0 .rightParen opened

end Expr

/-! ## Simple statements and commands -/

namespace Stmt

open Parse (Skims)

variable {tokens : List Token} {i : Nat}

/-- An argument and the comma that may follow it. -/
theorem withComma_skims {item : Parse Expr} (hitem : item.Skims tokens i fun _ _ => True) :
    (withComma item).Skims tokens i fun _ _ => True :=
  hitem.bind fun _ _ _ => (Skims.eatSymbol .comma).bind fun _ _ _ => .pure trivial

theorem separated_skims {item : Parse Expr} (hitem : ∀ i, item.Skims tokens i fun _ _ => True) :
    (Parse.many Parse.atSeparator (withComma item)).Skims tokens i fun _ _ => True :=
  .many (fun _ => Skims.atSeparator.mono fun _ _ _ => trivial) fun i => withComma_skims (hitem i)

/-- What `print` prints. -/
theorem printArgs_skims : printArgs.Skims tokens i fun _ _ => True := by
  refine (Skims.atSymbol .leftParen).bind fun _ j _ => (Skims.ask Cursor.touches).bind fun _ j' _ => ?_
  split
  · exact Expr.parenArgs_skims
  · exact separated_skims fun _ => Expr.parser_skims

theorem commandArgs_skims : commandArgs.Skims tokens i fun _ _ => True :=
  separated_skims fun _ => Expr.commandArg_skims

/-- A call has no blocks. -/
theorem blocks_of_call {e : Expr} {s : Stmt} (h : ofCall? e = some s) : s.blocks = [] := by
  cases e with
  | call callee args => exact Option.some.inj h ▸ rfl
  | _ => nomatch h

/-- What follows the word `call`. -/
theorem callCommand_skims : callCommand.Skims tokens i fun s _ => s.blocks = [] := by
  unfold callCommand
  refine (Skims.eatKeyword ⟨rfl, rfl⟩).bind fun printed j _ => ?_
  dsimp only
  split
  case' isTrue => refine Skims.bind (R := fun _ _ => True) (.pure trivial) fun callee j₁ _ => ?_
  case' isFalse => refine Expr.commandArg_skims.bind fun callee j₁ _ => ?_
  -- however the callee is read, it is a call with arguments, or arguments follow
  all_goals
    refine Skims.atSeparator.bind fun atEnd j₂ _ => ?_
    split
    · rename_i hs
      exact .pure (blocks_of_call hs)
    · exact commandArgs_skims.bind fun _ _ _ => .pure rfl

/-- A statement that starts with a name. -/
theorem callStatement_skims (pos : Position) : (callStatement pos).Skims tokens i fun s _ => s.blocks = [] := by
  unfold callStatement
  refine Expr.commandArg_skims.bind fun e j _ => Skims.atSeparator.bind fun atEnd j₁ _ => ?_
  split
  · split
    · rename_i hs
      exact .pure (blocks_of_call hs)
    · split
      · exact .pure rfl
      · exact .failAt (by simp)
  · refine Skims.peekKind.bind fun _ j₂ _ => ?_
    split
    · exact commandArgs_skims.bind fun _ _ _ => .pure rfl
    · exact .failAt (by simp)

theorem literalName_skims : literalName.Skims tokens i fun _ _ => True := by
  unfold literalName
  refine Skims.peek.bind fun t j ⟨hj, ht⟩ => ?_
  subst hj
  split
  · rename_i hk
    exact (Skims.advance ht hk ⟨rfl, rfl⟩).bind fun _ _ _ => .pure trivial
  · rename_i hk
    exact (Skims.advance ht hk ⟨rfl, rfl⟩).bind fun _ _ _ => .pure trivial
  · rename_i hk
    exact (Skims.advance ht hk ⟨rfl, rfl⟩).bind fun _ _ _ => .pure trivial
  · exact .fail (by simp)

/-- The arguments of a command, slot by slot. -/
theorem positionals_skims (v : Verb) (slots : List Slot) (index : Nat) :
    (positionals v index slots).Skims tokens i fun _ _ => True := by
  induction slots generalizing index i with
  | nil => exact .pure trivial
  | cons slot slots ih =>
    unfold positionals
    refine Skims.peekKind.bind fun _ j _ => Skims.atSeparator.bind fun _ j₁ _ => ?_
    split
    · exact .fail (by simp)
    · have hrest (p : Positional) {j : Nat} : Skims tokens j (do
          let rest ← positionals v (index + 1) slots
          pure (p :: rest)) fun _ _ => True :=
        (ih (index + 1)).bind fun _ _ _ => .pure trivial
      cases slot with
      | name =>
        have hname : Skims tokens j₁ (Positional.name <$> literalName) fun _ _ => True :=
          literalName_skims.map fun _ _ _ => trivial
        exact hname.bind fun p _ _ => hrest p
      | expr =>
        have hexpr : Skims tokens j₁ (Positional.expr <$> Expr.commandArg) fun _ _ => True :=
          Expr.commandArg_skims.map fun _ _ _ => trivial
        exact hexpr.bind fun p _ _ => hrest p

theorem clauseValues_skims (kind : ClauseKind) (count : Nat) :
    (clauseValues kind count).Skims tokens i fun _ _ => True := by
  induction count generalizing i with
  | zero => exact .pure trivial
  | succ count ih =>
    refine Skims.atSeparator.bind fun _ j _ => ?_
    split
    · exact .fail (by simp)
    · exact Expr.commandArg_skims.bind fun _ _ _ => ih.bind fun _ _ _ => .pure trivial

/-- What stands after the word of a clause. -/
theorem clauseBody_skims (kind : ClauseKind) : (clauseBody kind).Skims tokens i fun _ _ => True := by
  unfold clauseBody
  split
  · exact (Skims.expectIdent _).bind fun _ _ _ => .pure trivial
  · refine (Skims.expectIdent _).bind fun _ _ _ => ?_
    refine Skims.bind (.many (fun _ => (Skims.ask _).mono fun _ _ _ => trivial) fun _ => Expr.commandArg_skims)
      fun _ _ _ => ?_
    exact .pure trivial
  · exact (clauseValues_skims _ _).bind fun _ _ _ => .pure trivial

theorem neutral_clauseWord {k : TokenKind} {kind : ClauseKind} (h : clauseWord? k = some kind) : k.Neutral := by
  cases k with
  | ident w => exact ⟨rfl, rfl⟩
  | _ => nomatch h

/-- A clause, which may not stand twice. -/
theorem clause_skims (v : Verb) (before : List ClauseKind) : (clause v before).Skims tokens i fun _ _ => True := by
  unfold clause
  refine Skims.peek.bind fun t j ⟨hj, ht⟩ => ?_
  subst hj
  split
  · exact .fail (by simp)
  · rename_i kind hword
    split
    · exact .failAt (by simp)
    · split
      · exact .failAt (by simp)
      · exact (Skims.advance ht rfl (neutral_clauseWord hword)).bind fun _ _ _ => clauseBody_skims kind

theorem clauses_skims (v : Verb) (fuel : Nat) (before : List ClauseKind) :
    (clauses v fuel before).Skims tokens i fun _ _ => True := by
  induction fuel generalizing i before with
  | zero => exact .exhausted
  | succ fuel ih =>
    refine Skims.atSeparator.bind fun _ j _ => ?_
    split
    · exact .pure trivial
    · exact (clause_skims v before).bind fun _ _ _ => (ih _).bind fun _ _ _ => .pure trivial

/-- **A command goes past no bracket.** -/
theorem command_skims (surface : Surface) : (command_ surface).Skims tokens i fun _ _ => True := by
  unfold command_
  refine Skims.peek.bind fun t j ⟨hj, ht⟩ => ?_
  subst hj
  split
  · rename_i hk
    split
    · exact .failAt (by simp)
    · rename_i v _
      refine (Skims.advance ht hk ⟨rfl, rfl⟩).bind fun _ j₁ _ => ?_
      refine (positionals_skims v v.slots 0).bind fun _ j₂ _ => ?_
      have hclauses : Skims tokens j₂ (fun c => clauses v c.fuel [] c) fun _ _ => True :=
        .withFuel (x := fun fuel => clauses v fuel []) fun fuel => clauses_skims v fuel []
      refine hclauses.bind fun cs j₃ _ => ?_
      split
      · exact .fail (by simp)
      · exact .pure trivial
  · exact .fail (by simp)

/-! ## Heads of blocks -/

/-- The parameters of a function. -/
theorem parameters_skims (function : String) (fuel : Nat) (before : List String) :
    (parameters function fuel before).Skims tokens i fun _ _ => True := by
  induction fuel generalizing i before with
  | zero => exact .exhausted
  | succ fuel ih =>
    refine (Skims.eatSymbol _).bind fun _ j _ => ?_
    split
    · exact .pure trivial
    · refine (Skims.expectIdent _).bind fun r j₁ _ => ?_
      obtain ⟨param, pos⟩ := r
      dsimp only
      split
      · exact .failAt (by simp)
      · refine (Skims.eatSymbol _).bind fun _ j₂ _ => ?_
        split
        · exact ih _
        · exact (Skims.expectSymbol _ _).bind fun _ _ _ => .pure trivial

/-- A name and parameters. -/
theorem signature_skims : signature.Skims tokens i fun _ _ => True := by
  unfold signature
  refine (Skims.expectIdent _).bind fun r j _ => (Skims.eatSymbol _).bind fun opened j₁ _ => ?_
  have hcolon (params : List String) {j : Nat} : Skims tokens j (do
      let _ ← Parse.expectSymbol .colon "after the function signature"
      pure (r.1, params)) fun _ _ => True :=
    (Skims.expectSymbol _ _).bind fun _ _ _ => .pure trivial
  split
  · have hparams : Skims tokens j₁ (fun c => parameters r.1 c.fuel [] c) fun _ _ => True :=
      .withFuel (x := fun fuel => parameters r.1 fuel []) fun fuel => parameters_skims r.1 fuel []
    exact hparams.bind fun params _ _ => hcolon params
  · exact hcolon []

/-- The parts of a path. -/
theorem pathRest_skims (fuel : Nat) (path : String) : (pathRest fuel path).Skims tokens i fun _ _ => True := by
  induction fuel generalizing i path with
  | zero => exact .exhausted
  | succ fuel ih =>
    refine (Skims.eatSymbol _).bind fun dotted j _ => ?_
    split
    · exact (Skims.expectIdent _).bind fun r j₁ _ => ih _
    · exact .pure trivial

/-- How deep blocks nest is asked of the context; nothing is read. -/
theorem checkBlocks_skims (ctx : Context) (pos : Position) : (checkBlocks ctx pos).Skims tokens i fun _ j => j = i := by
  unfold checkBlocks
  split
  · exact .failAt (by simp)
  · exact .pure rfl

end Stmt

end Helios
