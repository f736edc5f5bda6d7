import Helios.Proofs.Locating
import Helios.Proofs.Walks

/-!
# Blocks — the blocks of a program and the brackets of its text

A program that parses is compared with its tokens, statement by statement. `Listing` lists its statements in the order
of the text, each with the index of its first token, the openers of the blocks around it and, if it has blocks, its
opener and its `end` (`Site`). The `if`, the `elif`s and the `else` of one chain are one block: an `elif` is a statement
of its own in the syntax tree, inside the one before it, but it shares the opener and the `end` of the chain.

What each function of the parser adds to the list, and that the openers it goes past are those of the statements it
reads, is carried through the walk (`Nested`). At the end of the text no opener is left, so its brackets are balanced,
and the blocks of the tree are the brackets of the text (`blocks_match_terminators`).
-/

namespace Helios

/-! ## Statements in the text -/

/-- **A statement as it stands in the text**: its first token, the openers of the blocks around it, the innermost first,
    and its own opener and `end` if it has blocks. Tokens are known by their indices. -/
structure Site where
  stmt : Located Stmt
  first : Nat
  around : List Nat
  block : Option (Nat × Nat)

/-- The opener that a statement starts with. An `elif` starts with none, its chain did. -/
def Site.opener? (x : Site) : Option Nat := x.block.bind fun b => if b.1 = x.first then some b.1 else none

/-- The kind of block that a statement is. -/
def Stmt.blockKind? : Stmt → Option BlockKind
  | branch .. => some .if_
  | while_ .. => some .while_
  | for_ .. => some .for_
  | define .. => some .def_
  | _ => none

/-- The parser of statements reads the statement when it starts at the token with index `first`. -/
def Located.ReadAt (tokens : List Token) (first : Nat) (s : Located Stmt) : Prop :=
  ∃ c fuel ctx, tokens.drop first = c.rest ++ [c.stop] ∧ (Stmt.statement fuel ctx c).1 = .ok s

/-- The token with index `first` is an `elif`, and the parser reads the statement when it starts after it. -/
def Located.ReadAfterElif (tokens : List Token) (first : Nat) (s : Located Stmt) : Prop :=
  ∃ t c fuel ctx opened, tokens[first]? = some t ∧ t.kind = .keyword .elif ∧ t.pos.line = s.line ∧
    tokens.drop (first + 1) = c.rest ++ [c.stop] ∧ (Stmt.ifChain fuel ctx opened c).1 = .ok s.node

mutual

/-- **The statements of a block in the text**, those inside of others too, within blocks with the openers `around`. -/
inductive Listing (tokens : List Token) : List Nat → Block → List Site → Prop
  | nil {around : List Nat} : Listing tokens around [] []
  | cons {around : List Nat} {s : Located Stmt} {rest : Block} {first : Nat} {block : Option (Nat × Nat)}
    {inner later : List Site} (hread : s.ReadAt tokens first) (hinner : Inside tokens around first s.node block inner)
    (hlater : Listing tokens around rest later) :
    Listing tokens around (s :: rest) (⟨s, first, around, block⟩ :: inner ++ later)

/-- The statements inside a statement that starts at the token with index `first`. That token is the opener of its
    block. -/
inductive Inside (tokens : List Token) : List Nat → Nat → Stmt → Option (Nat × Nat) → List Site → Prop
  | simple {around : List Nat} {first : Nat} {s : Stmt} (h : s.blocks = []) : Inside tokens around first s none []
  | single {around : List Nat} {first e : Nat} {s : Stmt} {b : Block} {inner : List Site} (h : s.blocks = [b])
    (hinner : Listing tokens (first :: around) b inner) : Inside tokens around first s (some (first, e)) inner
  | chain {around : List Nat} {first e : Nat} {cond : Expr} {yes no : Block} {inner other : List Site}
    (hyes : Listing tokens (first :: around) yes inner)
    (hno : Otherwise tokens (first :: around) (first, e) no other) :
    Inside tokens around first (.branch cond yes no) (some (first, e)) (inner ++ other)

/-- The statements of what follows a branch of an `if` in the block `chain`: an `else`, nothing, or an `elif`, which is a
    statement in the same block. -/
inductive Otherwise (tokens : List Token) : List Nat → Nat × Nat → Block → List Site → Prop
  | block {around : List Nat} {chain : Nat × Nat} {no : Block} {inner : List Site}
    (h : Listing tokens around no inner) : Otherwise tokens around chain no inner
  | elif {around : List Nat} {chain : Nat × Nat} {line first : Nat} {cond : Expr} {yes no : Block}
    {inner other : List Site} (hread : Located.ReadAfterElif tokens first ⟨line, .branch cond yes no⟩)
    (hyes : Listing tokens around yes inner) (hno : Otherwise tokens around chain no other) :
    Otherwise tokens around chain [⟨line, .branch cond yes no⟩]
      (⟨⟨line, .branch cond yes no⟩, first, around, some chain⟩ :: (inner ++ other))

end

/-- **A statement fits the text**: it stands on the line of its first token; its block is an opener for such a statement
    and the one `end` that closes it; and the blocks around it are those that span its first token. -/
structure Site.Fits (tokens : List Token) (x : Site) : Prop where
  line : ∃ t, tokens[x.first]? = some t ∧ t.pos.line = x.stmt.line
  block : ∀ o e, x.block = some (o, e) → Token.Matches tokens o e ∧ (∀ e', Token.Matches tokens o e' → e' = e) ∧
    ∃ t, tokens[o]? = some t ∧ t.kind.opener? = x.stmt.node.blockKind?
  around : ∀ o e, Token.Matches tokens o e → (o < x.first ∧ x.first < e ↔ o ∈ x.around)

/-- **Statements cover the tokens** from index `i` up to `j`: they fit, and the openers there are those that they start
    with, in order. -/
structure Covers (tokens : List Token) (i j : Nat) (xs : List Site) : Prop where
  fits : ∀ x ∈ xs, x.Fits tokens
  openers : xs.filterMap Site.opener? = Token.openers tokens i j

variable {tokens : List Token}

/-- A statement before others. -/
theorem Listing.append {around : List Nat} {s : Located Stmt} {rest : Block} {xs ys : List Site}
    (hxs : Listing tokens around [s] xs) (hys : Listing tokens around rest ys) :
    Listing tokens around (s :: rest) (xs ++ ys) := by
  cases hxs with
  | cons hread hinner hlater =>
    cases hlater
    rw [List.append_nil]
    exact .cons hread hinner hys

namespace Covers

variable {i j k : Nat} {xs ys : List Site}

theorem nil (h : Token.openers tokens i j = []) : Covers tokens i j [] := ⟨nofun, h.symm⟩

theorem append (hij : i ≤ j) (hjk : j ≤ k) (hxs : Covers tokens i j xs) (hys : Covers tokens j k ys) :
    Covers tokens i k (xs ++ ys) where
  fits := List.forall_mem_append.mpr ⟨hxs.fits, hys.fits⟩
  openers := by rw [List.filterMap_append, hxs.openers, hys.openers, Token.openers_append hij hjk]

/-- Tokens that are no openers do not count before, -/
theorem after (hij : i ≤ j) (hjk : j ≤ k) (hnone : Token.openers tokens i j = []) (hxs : Covers tokens j k xs) :
    Covers tokens i k xs := append hij hjk (nil hnone) hxs

/-- nor after. -/
theorem before (hij : i ≤ j) (hjk : j ≤ k) (hxs : Covers tokens i j xs) (hnone : Token.openers tokens j k = []) :
    Covers tokens i k xs := by
  have hall := append hij hjk hxs (nil hnone)
  rwa [List.append_nil] at hall

/-- A statement and those inside it. -/
theorem cons {x : Site} (hij : i ≤ j) (hjk : j ≤ k) (hx : x.Fits tokens)
    (hopener : x.opener?.toList = Token.openers tokens i j) (hxs : Covers tokens j k xs) :
    Covers tokens i k (x :: xs) := by
  have hone : Covers tokens i j [x] := by
    refine ⟨fun y hy => List.mem_singleton.mp hy ▸ hx, ?_⟩
    rw [← hopener, List.filterMap_cons, List.filterMap_nil]
    cases x.opener? <;> rfl
  exact append hij hjk hone hxs

end Covers

/-- An opener stands where a block was opened. -/
def OpenBlock.StandsAt (tokens : List Token) (o : Nat) (opened : OpenBlock) : Prop :=
  ∃ t, tokens[o]? = some t ∧ t.kind.opener? = some opened.kind ∧ t.pos = opened.pos

namespace Parse.Walks

variable {i : Nat} {A : List Nat} {α : Type} {x : Parse α}

/-- What is unmatched at the start is known. -/
theorem knowing {Q : α → Nat → List Nat → Prop}
    (h : Token.unmatchedBefore tokens i = some A → x.Walks tokens i A Q) : x.Walks tokens i A Q :=
  fun c hc => h hc.unmatched c hc

/-- The result is what is read at the start. -/
theorem read {Q : α → Nat → List Nat → Prop} (hx : x.Walks tokens i A Q) :
    x.Walks tokens i A fun a j B => Q a j B ∧ ∃ c, tokens.drop i = c.rest ++ [c.stop] ∧ (x c).1 = .ok a := by
  intro c hc
  have hwalk := hx c hc
  revert hwalk
  cases hresult : x c with
  | mk r c' =>
    cases r with
    | error e => exact id
    | ok a =>
      rintro ⟨j, B, hij, hc', hQ⟩
      exact ⟨j, B, hij, hc', hQ, c, hc.rest, by rw [hresult]⟩

/-- **At the end of input the innermost opener is blamed.** -/
theorem missingEnd {o : Nat} {opened : OpenBlock} (hopened : opened.StandsAt tokens o)
    (heof : ∃ t, tokens[i]? = some t ∧ t.kind = .eof) {Q : α → Nat → List Nat → Prop} :
    (Parse.failAt opened.pos (.missingEnd opened.kind.keyword.text) : Parse α).Walks tokens i (o :: A) Q := by
  intro c hc p word heq
  obtain ⟨rfl, hissue⟩ := Error.parse_inj heq
  obtain rfl := ParseIssue.missingEnd.inj hissue
  obtain ⟨t, ht, hkind, hpos⟩ := hopened
  obtain ⟨u, hu, heof⟩ := heof
  obtain rfl := Option.some.inj (hc.peek.symm.trans hu)
  exact ⟨o, A, t, opened.kind, hc.unmatched_of_eof heof, ht, hkind, hpos, rfl⟩

end Parse.Walks

/-! ## The walk -/

namespace Stmt

open Parse (Walks Skims)

/-- A statement fits where it was read. -/
theorem fits_of_read {i : Nat} {A : List Nat} {t : Token} {s : Stmt} {block : Option (Nat × Nat)}
    (hunmatched : Token.unmatchedBefore tokens i = some A) (ht : tokens[i]? = some t) (hend : t.kind ≠ .end_)
    (hblock : ∀ o e, block = some (o, e) →
      Token.Matches tokens o e ∧ ∃ t', tokens[o]? = some t' ∧ t'.kind.opener? = s.blockKind?) :
    Site.Fits tokens ⟨⟨t.pos.line, s⟩, i, A, block⟩ where
  line := ⟨t, ht, rfl⟩
  block o e heq := by
    obtain ⟨hmatches, hopener⟩ := hblock o e heq
    exact ⟨hmatches, fun e' he' => he'.end_unique hmatches, hopener⟩
  around o e hmatches := by
    refine hmatches.around_iff hunmatched fun hkind => hend ?_
    rw [ht] at hkind
    exact Option.some.inj hkind

/-- A statement with a block that its first token opens, and the statements inside it. -/
theorem covers_of_opener {i j e : Nat} {A : List Nat} {t : Token} {kind : BlockKind} {s : Stmt} {inner : List Site}
    (hunmatched : Token.unmatchedBefore tokens i = some A) (ht : tokens[i]? = some t)
    (hopener : t.kind.opener? = some kind) (hkind : s.blockKind? = some kind) (hmatches : Token.Matches tokens i e)
    (hij : i + 1 ≤ j) (hinner : Covers tokens (i + 1) j inner) :
    Covers tokens i j (⟨⟨t.pos.line, s⟩, i, A, some (i, e)⟩ :: inner) := by
  have hend : t.kind ≠ .end_ := by
    intro heq
    rw [heq] at hopener
    nomatch hopener
  have hfits : Site.Fits tokens ⟨⟨t.pos.line, s⟩, i, A, some (i, e)⟩ := by
    refine fits_of_read hunmatched ht hend fun o e' heq => ?_
    obtain ⟨rfl, rfl⟩ := Prod.mk.inj (Option.some.inj heq)
    exact ⟨hmatches, t, ht, hopener.trans hkind.symm⟩
  refine .cons (Nat.le_succ i) hij hfits ?_ hinner
  rw [Token.openers_opener ht hopener]
  simp [Site.opener?]

theorem requireEnd_walks {i : Nat} {A : List Nat} (t : Token) {issue : String → ParseIssue}
    (h : ∀ text word, issue text ≠ .missingEnd word) :
    (requireEnd t issue).Walks tokens i A fun _ j B => (j = i ∧ B = A) ∧ t.kind = .end_ := by
  unfold requireEnd
  split
  · rename_i hk
    exact .pure ⟨⟨rfl, rfl⟩, hk⟩
  · exact .failAt (h _)

/-- **The word that ends a block** with the opener `o`, and the openers `B` that are unmatched after it: an `end` closes
    the block, an `elif` or `else` goes on with it. -/
structure EndedBy (tokens : List Token) (o : Nat) (A : List Nat) (t : Token) (k : Nat) (B : List Nat) : Prop where
  token : tokens[k]? = some t
  unmatched : Token.unmatchedBefore tokens k = some (o :: A)
  word : t.kind = .end_ ∧ B = A ∨ (t.kind = .keyword .elif ∨ t.kind = .keyword .else_) ∧ B = o :: A

namespace EndedBy

variable {o k : Nat} {A B : List Nat} {t : Token}

theorem closed (h : EndedBy tokens o A t k B) (hend : t.kind = .end_) : B = A ∧ Token.Matches tokens o k := by
  refine ⟨?_, ⟨A, h.unmatched⟩, by rw [h.token, Option.map_some, hend]⟩
  rcases h.word with ⟨-, hB⟩ | ⟨hword, -⟩
  · exact hB
  · rw [hend] at hword
    nomatch hword

theorem goesOn (h : EndedBy tokens o A t k B) (hend : t.kind ≠ .end_) : B = o :: A := by
  rcases h.word with ⟨hkind, -⟩ | ⟨-, hB⟩
  · exact absurd hkind hend
  · exact hB

end EndedBy

section

variable (tokens) (i : Nat) (A : List Nat)

/-- A statement is read up to `j`: it is listed, and the openers `A` are unmatched again. -/
abbrev StatementRead (s : Located Stmt) (j : Nat) (B : List Nat) : Prop :=
  B = A ∧ ∃ xs, Listing tokens A [s] xs ∧ Covers tokens i j xs

/-- The same of one that starts at `i`, with the statements inside it. -/
abbrev BodyRead (s : Located Stmt) (j : Nat) (B : List Nat) : Prop :=
  B = A ∧ ∃ block inner, Inside tokens A i s.node block inner ∧ Covers tokens i j (⟨s, i, A, block⟩ :: inner)

/-- The statements of a block with the opener `o` are read, and the word that ends them. -/
abbrev BlockRead (o : Nat) (r : Block × Token) (j : Nat) (B : List Nat) : Prop :=
  ∃ k xs, j = k + 1 ∧ EndedBy tokens o A r.2 k B ∧ Listing tokens (o :: A) r.1 xs ∧ Covers tokens i j xs

/-- A block with the opener `o` is read up to its `end`. -/
abbrev PlainRead (o : Nat) (b : Block) (j : Nat) (B : List Nat) : Prop :=
  B = A ∧ ∃ e xs, Token.Matches tokens o e ∧ Listing tokens (o :: A) b xs ∧ Covers tokens i j xs

/-- A chain with the opener `o` is read, from the condition of a branch up to its `end`. -/
abbrev ChainRead (o : Nat) (s : Stmt) (j : Nat) (B : List Nat) : Prop :=
  B = A ∧ ∃ cond yes no e inner other, s = .branch cond yes no ∧ Token.Matches tokens o e ∧
    Listing tokens (o :: A) yes inner ∧ Otherwise tokens (o :: A) (o, e) no other ∧ Covers tokens i j (inner ++ other)

end

/-- **What the functions of the parser of statements read**, and the brackets they go past. -/
structure Nested (tokens : List Token) (fuel : Nat) : Prop where
  statement : ∀ ctx i A, (statement fuel ctx).Walks tokens i A (StatementRead tokens i A)
  statementBody : ∀ ctx t i A, tokens[i]? = some t →
    (statementBody fuel ctx t).Walks tokens i A fun s => BodyRead tokens i A ⟨t.pos.line, s⟩
  blockBody : ∀ ctx opened o i A, OpenBlock.StandsAt tokens o opened →
    (blockBody fuel ctx opened).Walks tokens i (o :: A) (BlockRead tokens i A o)
  plainBlock : ∀ ctx opened o i A, OpenBlock.StandsAt tokens o opened →
    (plainBlock fuel ctx opened).Walks tokens i (o :: A) (PlainRead tokens i A o)
  ifChain : ∀ ctx opened o i A, OpenBlock.StandsAt tokens o opened → opened.kind = .if_ →
    (ifChain fuel ctx opened).Walks tokens i (o :: A) (ChainRead tokens i A o)

namespace Nested

variable {fuel : Nat}

theorem zero : Nested tokens 0 := by
  constructor <;>
    simp only [Stmt.statement, Stmt.statementBody, Stmt.blockBody, Stmt.plainBlock, Stmt.ifChain, Walks.exhausted,
      implies_true]

theorem statement_succ (ih : Nested tokens fuel) (ctx : Context) (i : Nat) (A : List Nat) :
    (Stmt.statement (fuel + 1) ctx).Walks tokens i A (StatementRead tokens i A) := by
  have hbody : (Stmt.statement (fuel + 1) ctx).Walks tokens i A (BodyRead tokens i A) := by
    rw [Stmt.statement]
    refine Walks.peek.bind ?_
    rintro t j B - ⟨⟨rfl, rfl⟩, ht⟩
    exact (ih.statementBody ctx t j B ht).bind fun s k C _ hs => .pure hs
  refine hbody.read.mono ?_
  rintro s j B - ⟨⟨hB, block, inner, hinner, hcovers⟩, c, hrest, hread⟩
  refine ⟨hB, _, ?_, hcovers⟩
  have hlisting : Listing tokens A [s] (⟨s, i, A, block⟩ :: inner ++ []) :=
    .cons ⟨c, fuel + 1, ctx, hrest, hread⟩ hinner .nil
  rwa [List.append_nil] at hlisting

/-- A statement without blocks is read: no bracket is passed. -/
theorem walks_simple {i : Nat} {A : List Nat} {t : Token} {x : Parse Stmt}
    (hunmatched : Token.unmatchedBefore tokens i = some A) (ht : tokens[i]? = some t) (hend : t.kind ≠ .end_)
    (hx : x.Skims tokens i fun s _ => s.blocks = []) :
    x.Walks tokens i A fun s => BodyRead tokens i A ⟨t.pos.line, s⟩ := by
  refine (hx A).mono ?_
  rintro s j B hij ⟨rfl, hnone, hblocks⟩
  refine ⟨rfl, none, [], .simple hblocks, ?_⟩
  exact .cons hij (Nat.le_refl j) (fits_of_read hunmatched ht hend (by simp)) hnone.symm (.nil Token.openers_self)

/-- A loop or a function is read: after its head comes its only block. -/
theorem walks_single (ih : Nested tokens fuel) (ctx : Context) (kind : BlockKind) {i : Nat} {A : List Nat} {t : Token}
    {make : Block → Stmt} (hmake : ∀ b, (make b).blocks = [b]) (hblockKind : ∀ b, (make b).blockKind? = some kind)
    (hunmatched : Token.unmatchedBefore tokens i = some A) (ht : tokens[i]? = some t)
    (hopener : t.kind.opener? = some kind) {j : Nat} (hhead : Token.Clear tokens (i + 1) j) :
    Walks tokens j (i :: A) (do
      let body ← Stmt.plainBlock fuel ctx ⟨kind, t.pos⟩
      pure (make body)) fun s => BodyRead tokens i A ⟨t.pos.line, s⟩ := by
  refine (ih.plainBlock ctx ⟨kind, t.pos⟩ i j A ⟨t, ht, hopener, rfl⟩).bind ?_
  rintro body k B hjk ⟨rfl, e, inner, hmatches, hlisting, hcovers⟩
  refine .pure ⟨rfl, some (i, e), inner, .single (hmake body) hlisting, ?_⟩
  have hinner : Covers tokens (i + 1) k inner := .after hhead.le hjk hhead.none hcovers
  exact covers_of_opener hunmatched ht hopener (hblockKind body) hmatches (Nat.le_trans hhead.le hjk) hinner

theorem statementBody_succ (ih : Nested tokens fuel) (ctx : Context) (t : Token) (i : Nat) (A : List Nat)
    (ht : tokens[i]? = some t) :
    (Stmt.statementBody (fuel + 1) ctx t).Walks tokens i A fun s => BodyRead tokens i A ⟨t.pos.line, s⟩ := by
  refine Walks.knowing fun hunmatched => ?_
  rw [Stmt.statementBody]
  by_cases hend : t.kind = .end_
  · rw [hend]
    exact .fail (by simp)
  by_cases heof : t.kind = .eof
  · rw [heof]
    exact .fail (by simp)
  have hsimple {x : Parse Stmt} (hx : x.Skims tokens i fun s _ => s.blocks = []) :
      x.Walks tokens i A fun s => BodyRead tokens i A ⟨t.pos.line, s⟩ := walks_simple hunmatched ht hend hx
  -- the opener is taken, and then the head of the block is read
  have hopen {kind : BlockKind} (hopener : t.kind.opener? = some kind) :
      Parse.advance.Walks tokens i A fun _ j B => j = i + 1 ∧ B = i :: A :=
    (Walks.advance ht heof (Token.unmatchedAfter_opener hopener)).mono fun _ _ _ _ h => h.2
  split
  · -- `let`
    rename_i hk
    refine hsimple ((Skims.advance ht hk ⟨rfl, rfl⟩).bind fun _ _ _ => (Skims.expectIdent _).bind fun _ _ _ => ?_)
    refine (Skims.expectSymbol _ _).bind fun _ _ _ => Expr.parser_skims.bind fun _ _ _ => ?_
    exact .pure rfl
  · -- `print`
    rename_i hk
    refine hsimple ((Skims.advance ht hk ⟨rfl, rfl⟩).bind fun _ _ _ => printArgs_skims.bind fun _ _ _ => ?_)
    exact .pure rfl
  · -- `if`
    rename_i hk
    have hopener : t.kind.opener? = some .if_ := by rw [hk]; rfl
    refine (hopen hopener).bind ?_
    rintro - j B - ⟨rfl, rfl⟩
    refine (checkBlocks_skims ctx t.pos _).bind ?_
    rintro - j B - ⟨rfl, -, rfl⟩
    refine (ih.ifChain _ ⟨.if_, t.pos⟩ i (i + 1) A ⟨t, ht, hopener, rfl⟩ rfl).mono ?_
    rintro s k B hjk ⟨rfl, cond, yes, no, e, inner, other, rfl, hmatches, hyes, hno, hcovers⟩
    refine ⟨rfl, some (i, e), inner ++ other, .chain hyes hno, ?_⟩
    exact covers_of_opener hunmatched ht hopener rfl hmatches hjk hcovers
  · -- `while`
    rename_i hk
    have hopener : t.kind.opener? = some .while_ := by rw [hk]; rfl
    refine (hopen hopener).bind ?_
    rintro - j B - ⟨rfl, rfl⟩
    refine Expr.parser_skims.onwards (.refl tokens _) fun cond j hj _ => ?_
    refine (Skims.expectSymbol _ _).onwards hj fun _ j hj _ => ?_
    exact ih.walks_single _ .while_ (fun _ => rfl) (fun _ => rfl) hunmatched ht hopener hj
  · -- `for`
    rename_i hk
    have hopener : t.kind.opener? = some .for_ := by rw [hk]; rfl
    refine (hopen hopener).bind ?_
    rintro - j B - ⟨rfl, rfl⟩
    refine (Skims.expectIdent _).onwards (.refl tokens _) fun r j hj _ => ?_
    refine (Skims.eatKeyword ⟨rfl, rfl⟩).onwards hj fun eaten j hj _ => ?_
    split
    · refine Expr.parser_skims.onwards hj fun items j hj _ => (Skims.expectSymbol _ _).onwards hj fun _ j hj _ => ?_
      exact ih.walks_single _ .for_ (fun _ => rfl) (fun _ => rfl) hunmatched ht hopener hj
    · exact .fail (by simp)
  · -- `solar_def`
    rename_i hk
    have hopener : t.kind.opener? = some .def_ := by rw [hk]; rfl
    refine (hopen hopener).bind ?_
    rintro - j B - ⟨rfl, rfl⟩
    refine signature_skims.onwards (.refl tokens _) fun r j hj _ => ?_
    exact ih.walks_single _ .def_ (fun _ => rfl) (fun _ => rfl) hunmatched ht hopener hj
  · -- `return`
    rename_i hk
    split
    · refine hsimple ((Skims.advance ht hk ⟨rfl, rfl⟩).bind fun _ _ _ => Skims.atSeparator.bind fun _ _ _ => ?_)
      split
      · exact .pure rfl
      · exact Expr.parser_skims.bind fun _ _ _ => .pure rfl
    · exact .failAt (by simp)
  · -- `break`
    rename_i hk
    split
    · exact hsimple ((Skims.advance ht hk ⟨rfl, rfl⟩).bind fun _ _ _ => .pure rfl)
    · exact .failAt (by simp)
  · -- `continue`
    rename_i hk
    split
    · exact hsimple ((Skims.advance ht hk ⟨rfl, rfl⟩).bind fun _ _ _ => .pure rfl)
    · exact .failAt (by simp)
  · -- `contain`
    rename_i hk
    refine hsimple ((Skims.advance ht hk ⟨rfl, rfl⟩).bind fun _ _ _ => (Skims.expectIdent _).bind fun r j _ => ?_)
    have hpath : Skims tokens j (fun c => pathRest c.fuel r.1 c) fun _ _ => True :=
      .withFuel (x := fun fuel => pathRest fuel r.1) fun fuel => pathRest_skims fuel r.1
    exact hpath.bind fun _ _ _ => .pure rfl
  · -- a fenced block
    rename_i hk
    exact hsimple ((Skims.advance ht hk ⟨rfl, rfl⟩).bind fun _ _ _ => .pure rfl)
  · -- `call`
    rename_i hk
    exact hsimple ((Skims.advance ht hk ⟨rfl, rfl⟩).bind fun _ _ _ => callCommand_skims)
  · -- `ui`
    rename_i hk
    exact hsimple ((Skims.advance ht hk ⟨rfl, rfl⟩).bind fun _ _ _ => (command_skims .ui).map fun _ _ _ => rfl)
  · -- `game`
    rename_i hk
    exact hsimple ((Skims.advance ht hk ⟨rfl, rfl⟩).bind fun _ _ _ => (command_skims .game).map fun _ _ _ => rfl)
  · -- a name
    refine hsimple ((Skims.ask fun c => c.peekNext.kind.isSymbol .assign).bind fun _ _ _ => ?_)
    split
    · exact .failAt (by simp)
    · exact callStatement_skims t.pos
  · exact .fail (by simp)

theorem blockBody_succ (ih : Nested tokens fuel) (ctx : Context) (opened : OpenBlock) (o i : Nat) (A : List Nat)
    (hopened : opened.StandsAt tokens o) :
    (Stmt.blockBody (fuel + 1) ctx opened).Walks tokens i (o :: A) (BlockRead tokens i A o) := by
  rw [Stmt.blockBody]
  refine Skims.skipNewlines.onwards (.refl tokens i) fun _ k hk _ => Walks.knowing fun hunmatched => ?_
  refine Walks.peekKind.bind ?_
  rintro kind k B - ⟨⟨rfl, rfl⟩, hkind⟩
  -- the word that ends the block is taken
  have hend {B : List Nat} (heof : kind ≠ .eof) (hopener : kind.opener? = none)
      (hB : Token.unmatchedAfter k (o :: A) kind = some B)
      (hword : kind = .end_ ∧ B = A ∨ (kind = .keyword .elif ∨ kind = .keyword .else_) ∧ B = o :: A) :
      Walks tokens k (o :: A) (do
        let t ← Parse.advance
        pure (([] : Block), t)) (BlockRead tokens i A o) := by
    obtain ⟨t, ht, rfl⟩ := hkind
    refine (Walks.advance ht heof hB).bind ?_
    rintro t j B' - ⟨rfl, rfl, rfl⟩
    have hclear : Token.Clear tokens i (k + 1) := hk.trans ⟨Nat.le_succ k, Token.openers_of_none ht hopener⟩
    exact .pure ⟨k, [], rfl, ⟨ht, hunmatched, hword⟩, .nil, .nil hclear.none⟩
  split
  · exact hend (by simp) rfl rfl (.inl ⟨rfl, rfl⟩)
  · exact hend (by simp) rfl rfl (.inr ⟨.inl rfl, rfl⟩)
  · exact hend (by simp) rfl rfl (.inr ⟨.inr rfl, rfl⟩)
  · exact .missingEnd hopened hkind
  · -- a statement, its separator, and the rest of the block
    refine (ih.statement ctx k (o :: A)).bind ?_
    rintro s j₁ B hj₁ ⟨rfl, xs, hlisting, hcovers⟩
    refine Skims.expectSeparator.onwards (.refl tokens j₁) fun _ j₂ hj₂ _ => ?_
    refine (ih.blockBody ctx opened o j₂ A hopened).bind ?_
    rintro r j₃ C hj₃ ⟨n, ys, hn, hended, hrest, hcovers'⟩
    refine .pure ⟨n, xs ++ ys, hn, hended, hlisting.append hrest, ?_⟩
    refine .after hk.le (Nat.le_trans hj₁ (Nat.le_trans hj₂.le hj₃)) hk.none ?_
    exact .append hj₁ (Nat.le_trans hj₂.le hj₃) hcovers (.after hj₂.le hj₃ hj₂.none hcovers')

theorem plainBlock_succ (ih : Nested tokens fuel) (ctx : Context) (opened : OpenBlock) (o i : Nat) (A : List Nat)
    (hopened : opened.StandsAt tokens o) :
    (Stmt.plainBlock (fuel + 1) ctx opened).Walks tokens i (o :: A) (PlainRead tokens i A o) := by
  rw [Stmt.plainBlock]
  refine (checkBlocks_skims ctx opened.pos).onwards (.refl tokens i) ?_
  rintro - j - rfl
  refine (ih.blockBody _ opened o j A hopened).bind ?_
  rintro r k B - ⟨e, xs, -, hended, hlisting, hcovers⟩
  refine (requireEnd_walks r.2 (by simp)).bind ?_
  rintro - k B - ⟨⟨rfl, rfl⟩, hend⟩
  obtain ⟨hB, hmatches⟩ := hended.closed hend
  exact .pure ⟨hB, e, xs, hmatches, hlisting, hcovers⟩

theorem ifChain_succ (ih : Nested tokens fuel) (ctx : Context) (opened : OpenBlock) (o i : Nat) (A : List Nat)
    (hopened : opened.StandsAt tokens o) (hif : opened.kind = .if_) :
    (Stmt.ifChain (fuel + 1) ctx opened).Walks tokens i (o :: A) (ChainRead tokens i A o) := by
  rw [Stmt.ifChain]
  refine Expr.parser_skims.onwards (.refl tokens i) fun cond i₁ h₁ _ => ?_
  refine (Skims.expectSymbol _ _).onwards h₁ fun _ i₂ h₂ _ => ?_
  refine (ih.blockBody ctx opened o i₂ A hopened).bind ?_
  rintro ⟨yes, t⟩ j B hj ⟨k, inner, hjk, hended, hyes, hcovers⟩
  dsimp only at hyes hended ⊢
  have hij : i ≤ j := Nat.le_trans h₂.le hj
  have hinner : Covers tokens i j inner := .after h₂.le hj h₂.none hcovers
  split
  · -- an `elif` goes on in the same block
    rename_i hkind
    have hend : t.kind ≠ .end_ := by simp [hkind]
    obtain rfl := hended.goesOn hend
    subst hjk
    refine (ih.ifChain ctx opened o (k + 1) A hopened hif).read.bind ?_
    rintro s n C hn
      ⟨⟨hC, cond', yes', no', e, inner', other', rfl, hmatches, hyes', hno', hcovers'⟩, c, hrest, hread⟩
    have hfits : Site.Fits tokens ⟨⟨t.pos.line, .branch cond' yes' no'⟩, k, o :: A, some (o, e)⟩ := by
      obtain ⟨u, hu, hopener, -⟩ := hopened
      refine fits_of_read hended.unmatched hended.token hend fun o' e' heq => ?_
      obtain ⟨rfl, rfl⟩ := Prod.mk.inj (Option.some.inj heq)
      exact ⟨hmatches, u, hu, by rw [hopener, hif]; rfl⟩
    -- the opener of the chain stands before the `elif`
    have hlt : o < k := (Token.sorted_unmatchedBefore hended.unmatched).2 o List.mem_cons_self
    have hopener : (Site.opener? ⟨⟨t.pos.line, .branch cond' yes' no'⟩, k, o :: A, some (o, e)⟩).toList =
        Token.openers tokens (k + 1) (k + 1) := by
      rw [Token.openers_self]
      simp [Site.opener?, Nat.ne_of_lt hlt]
    have hother := Covers.cons (Nat.le_refl (k + 1)) hn hfits hopener hcovers'
    exact .pure ⟨hC, cond, yes, _, e, inner, _, rfl, hmatches, hyes,
      .elif ⟨t, c, fuel, ctx, opened, hended.token, hkind, rfl, hrest, hread⟩ hyes' hno', .append hij hn hinner hother⟩
  · -- an `else` is the last part of the chain
    rename_i hkind
    have hend : t.kind ≠ .end_ := by simp [hkind]
    obtain rfl := hended.goesOn hend
    refine (Skims.expectSymbol _ _).onwards (.refl tokens j) fun _ j₁ hj₁ _ => ?_
    refine (ih.blockBody ctx opened o j₁ A hopened).bind ?_
    rintro r' j₂ C hj₂ ⟨e, other, -, hended', hno, hcovers'⟩
    refine (requireEnd_walks r'.2 (by simp)).bind ?_
    rintro - j₃ C - ⟨⟨rfl, rfl⟩, hend'⟩
    obtain ⟨hC, hmatches⟩ := hended'.closed hend'
    have hother : Covers tokens j j₃ other := .after hj₁.le hj₂ hj₁.none hcovers'
    exact .pure ⟨hC, cond, yes, r'.1, e, inner, other, rfl, hmatches, hyes, .block hno,
      .append hij (Nat.le_trans hj₁.le hj₂) hinner hother⟩
  · -- the chain ends with this branch
    rename_i hnelif hnelse
    have hend : t.kind = .end_ := by
      rcases hended.word with ⟨hend, -⟩ | ⟨hword | hword, -⟩
      · exact hend
      · exact absurd hword hnelif
      · exact absurd hword hnelse
    obtain ⟨hB, hmatches⟩ := hended.closed hend
    refine .pure ⟨hB, cond, yes, [], k, inner, [], rfl, hmatches, hyes, .block .nil, ?_⟩
    rwa [List.append_nil]

theorem all (tokens : List Token) (fuel : Nat) : Nested tokens fuel := by
  induction fuel with
  | zero => exact zero
  | succ fuel ih =>
    exact ⟨ih.statement_succ, ih.statementBody_succ, ih.blockBody_succ, ih.plainBlock_succ, ih.ifChain_succ⟩

end Nested

theorem topLevel_walks (fuel : Nat) {i : Nat} : (topLevel fuel).Walks tokens i [] fun b j B =>
    B = [] ∧ (∃ t, tokens[j]? = some t ∧ t.kind = .eof) ∧ ∃ xs, Listing tokens [] b xs ∧ Covers tokens i j xs := by
  induction fuel generalizing i with
  | zero => exact .exhausted
  | succ fuel ih =>
    unfold topLevel
    refine Skims.skipNewlines.onwards (.refl tokens i) fun _ k hk _ => ?_
    refine Walks.peek.bind ?_
    rintro t k B - ⟨⟨rfl, rfl⟩, ht⟩
    split
    · rename_i heof
      exact .pure ⟨rfl, ⟨t, ht, heof⟩, [], .nil, .nil hk.none⟩
    · exact .failAt (by simp)
    · exact .failAt (by simp)
    · exact .failAt (by simp)
    · have hstatement : Walks tokens k [] (fun c => statement c.fuel .top c) (StatementRead tokens k []) :=
        .withFuel (x := fun fuel => statement fuel .top) fun fuel => (Nested.all tokens fuel).statement .top k []
      refine hstatement.bind ?_
      rintro s j₁ B hj₁ ⟨rfl, xs, hlisting, hcovers⟩
      refine Skims.expectSeparator.onwards (.refl tokens j₁) fun _ j₂ hj₂ _ => ?_
      refine ih.bind ?_
      rintro rest j₃ C hj₃ ⟨hC, heof, ys, hrest, hcovers'⟩
      refine .pure ⟨hC, heof, xs ++ ys, hlisting.append hrest, ?_⟩
      refine .after hk.le (Nat.le_trans hj₁ (Nat.le_trans hj₂.le hj₃)) hk.none ?_
      exact .append hj₁ (Nat.le_trans hj₂.le hj₃) hcovers (.after hj₂.le hj₃ hj₂.none hcovers')

/-- The cursor before the tokens of a text. -/
theorem at_start {source : String} {tokens : List Token} (h : Token.tokenize source = .ok tokens) :
    (Cursor.start tokens).At tokens 0 [] := by
  obtain ⟨ts, last, rfl, hts, hlast⟩ := Token.tokenize_ok h
  have heof : Cursor.isEof last = true := by
    unfold Cursor.isEof
    rw [hlast.1]
  unfold Cursor.start
  rw [List.getLast?_concat]
  dsimp only
  rw [if_pos heof, List.dropLast_concat]
  exact ⟨rfl, rfl, fun t ht => (hts t ht).1, hlast.1⟩

/-- **Blocks match terminators.** The brackets of a text that is a program are balanced, and its blocks are the brackets:
    the statements of the program fit the text, and each opener is the first token of the one of them that is its block,
    in the order of the text. Around a statement are the blocks that span its first token, the parts of an `if` counting
    as one. In a text that is rejected because an `end` is missing, the innermost opener without one is blamed. -/
theorem blocks_match_terminators (source : String) :
    (∀ program, parseProgram source = .ok program →
      ∃ tokens xs, Token.tokenize source = .ok tokens ∧ Token.Balanced tokens ∧ Listing tokens [] program xs ∧
        (∀ x ∈ xs, x.Fits tokens) ∧ xs.filterMap Site.opener? = Token.openers tokens 0 tokens.length) ∧
    (∀ p word, parseProgram source = .error (.parse p (.missingEnd word)) →
      ∃ tokens, Token.tokenize source = .ok tokens ∧ Token.Unclosed tokens p word) := by
  unfold parseProgram
  cases ht : Token.tokenize source with
  | error e =>
    refine ⟨nofun, fun p word heq => ?_⟩
    obtain rfl := Except.error.inj heq
    rcases Token.tokenize_error ht with ⟨p', issue, heq, -⟩ | ⟨heq, -⟩
    · nomatch congrArg Error.cause heq
    · nomatch congrArg Error.cause heq
  | ok tokens =>
    have hwalk := topLevel_walks (Cursor.start tokens).fuel _ (at_start ht)
    dsimp only [bind, Except.bind]
    revert hwalk
    rcases topLevel (Cursor.start tokens).fuel (Cursor.start tokens) with ⟨e | program, c⟩ <;> intro hwalk
    · refine ⟨nofun, fun p word heq => ⟨tokens, rfl, hwalk p word ?_⟩⟩
      exact Except.error.inj heq
    · obtain ⟨j, B, hj, hc, hB, ⟨t, ht, hlast⟩, xs, hlisting, hcovers⟩ := hwalk
      subst hB
      refine ⟨fun program' heq => ?_, nofun⟩
      obtain rfl := Except.ok.inj heq
      -- where the parser ends is the end of input
      obtain rfl := Option.some.inj (hc.peek.symm.trans ht)
      have hend : Token.openers tokens j (j + 1) = [] := Token.openers_of_none hc.peek (by rw [hlast]; rfl)
      refine ⟨tokens, xs, rfl, hc.unmatched_of_eof hlast, hlisting, hcovers.fits, ?_⟩
      rw [hc.length_of_eof hlast]
      exact (hcovers.before hj (Nat.le_succ j) hend).openers

/-- A chain of two branches, which is one block, and a loop whose `end` is taken by the `if` inside it. -/
theorem blocks_match_terminators_chain :
    (∃ tokens xs, Token.tokenize "if a: f elif b: g end" = .ok tokens ∧ Token.Balanced tokens ∧
      Listing tokens [] [⟨1, .branch (.var "a") [⟨1, .call (.var "f") []⟩]
        [⟨1, .branch (.var "b") [⟨1, .call (.var "g") []⟩] []⟩]⟩] xs ∧
      xs.filterMap Site.opener? = Token.openers tokens 0 tokens.length) ∧
    ∃ tokens, Token.tokenize "while a: if b: f end" = .ok tokens ∧ Token.Unclosed tokens ⟨1, 1⟩ "while" := by
  have hchain : parseProgram "if a: f elif b: g end" = .ok [⟨1, .branch (.var "a") [⟨1, .call (.var "f") []⟩]
      [⟨1, .branch (.var "b") [⟨1, .call (.var "g") []⟩] []⟩]⟩] := by
    have hchars : "if a: f elif b: g end".toList = ['i', 'f', ' ', 'a', ':', ' ', 'f', ' ', 'e', 'l', 'i', 'f', ' ', 'b',
        ':', ' ', 'g', ' ', 'e', 'n', 'd'] := by simp
    unfold parseProgram Token.tokenize Token.scan
    rw [hchars]
    with_unfolding_all rfl
  have hloop : parseProgram "while a: if b: f end" = .error (.parse ⟨1, 1⟩ (.missingEnd "while")) := by
    have hchars : "while a: if b: f end".toList = ['w', 'h', 'i', 'l', 'e', ' ', 'a', ':', ' ', 'i', 'f', ' ', 'b', ':',
        ' ', 'f', ' ', 'e', 'n', 'd'] := by simp
    unfold parseProgram Token.tokenize Token.scan
    rw [hchars]
    with_unfolding_all rfl
  obtain ⟨tokens, xs, htokens, hbalanced, hlisting, -, hopeners⟩ :=
    (blocks_match_terminators "if a: f elif b: g end").1 _ hchain
  exact ⟨⟨tokens, xs, htokens, hbalanced, hlisting, hopeners⟩,
    (blocks_match_terminators "while a: if b: f end").2 _ _ hloop⟩

end Stmt

end Helios
