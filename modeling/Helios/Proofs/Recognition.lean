import Helios.Proofs.Grammar

/-!
# Recognition — the parser of expressions accepts its grammar and nothing else

* **Soundness** (`Expr.Sound`): what a level of the parser consumes is written as the grammar has it. Levels that
  go on after a left part are described by what the left part and their own tokens write together.
* **Completeness** (`Expr.Read`): a level of the parser reads every rendering that may stand there. A rendering
  may itself be the left part of a longer one, so the statement is about what comes after it: wherever the level
  gets by going on after the tree, it gets from the start of the rendering.
-/

namespace Helios

/-! ## Tokens passed -/

/-- **From one cursor to another** over tokens of the given kinds. -/
inductive Cursor.Reads : Cursor → List TokenKind → Cursor → Prop
  | nil {c : Cursor} : Reads c [] c
  | cons {c c' : Cursor} {k : TokenKind} {ks : List TokenKind} (hrest : c.rest ≠ []) (hk : c.peek.kind = k)
    (h : Reads c.next ks c') : Reads c (k :: ks) c'

namespace Cursor.Reads

variable {c c₁ c' : Cursor} {k : TokenKind} {ks ks' : List TokenKind}

theorem append (h : c.Reads ks c₁) (h' : c₁.Reads ks' c') : c.Reads (ks ++ ks') c' := by
  induction h with
  | nil => exact h'
  | cons hrest hk _ ih => exact .cons hrest hk (ih h')

theorem of_append (h : c.Reads (ks ++ ks') c') : ∃ c₁, c.Reads ks c₁ ∧ c₁.Reads ks' c' := by
  induction ks generalizing c with
  | nil => exact ⟨c, .nil, h⟩
  | cons k ks ih =>
    cases h with
    | cons hrest hk h =>
      obtain ⟨c₁, h₁, h₂⟩ := ih h
      exact ⟨c₁, .cons hrest hk h₁, h₂⟩

theorem of_cons (h : c.Reads (k :: ks) c') : c.peek.kind = k ∧ c.next.Reads ks c' := by
  cases h with
  | cons _ hk h => exact ⟨hk, h⟩

theorem of_bracketed {left right : Symbol} (h : c.Reads (Expr.bracketed left ks right) c') :
    c.peek.kind = .symbol left ∧
      ∃ c₁, c.next.Reads ks c₁ ∧ c₁.peek.kind = .symbol right ∧ c' = c₁.next := by
  obtain ⟨hleft, h⟩ := h.of_cons
  obtain ⟨c₁, hks, h⟩ := h.of_append
  obtain ⟨hright, h⟩ := h.of_cons
  cases h
  exact ⟨hleft, c₁, hks, hright, rfl⟩

theorem stop_eq (h : c.Reads ks c') : c'.stop = c.stop := by
  induction h with
  | nil => rfl
  | cons _ _ _ ih =>
    rw [ih]
    unfold Cursor.next
    split <;> rfl

theorem length_eq (h : c.Reads ks c') : c.rest.length = ks.length + c'.rest.length := by
  induction h with
  | nil => simp
  | @cons c _ _ _ hrest _ _ ih =>
    obtain ⟨t, rest, hcons⟩ := List.exists_cons_of_ne_nil hrest
    unfold Cursor.next at ih
    rw [hcons] at ih ⊢
    simp only [List.length_cons, ih]
    omega

/-- The kinds passed are those of the first tokens. -/
theorem kinds (h : c.Reads ks c') :
    c.rest.map Token.kind = ks ++ c'.rest.map Token.kind := by
  induction h with
  | nil => rfl
  | @cons c c' _ _ hrest hk _ ih =>
    obtain ⟨t, rest, hcons⟩ := List.exists_cons_of_ne_nil hrest
    unfold Cursor.peek at hk
    unfold Cursor.next at ih
    rw [hcons] at hk ih ⊢
    rw [List.map_cons, ih]
    exact congrArg (· :: _) hk

/-- Any token but the end of input is passed by going past it. -/
theorem one (hstop : c.stop.kind = .eof) (hk : c.peek.kind = k) (hne : k ≠ .eof) : c.Reads [k] c.next := by
  refine .cons (fun hnil => hne ?_) hk .nil
  rw [← hk, ← hstop]
  unfold Cursor.peek
  rw [hnil]
  rfl

end Cursor.Reads

namespace Cursor

/-- The tokens that are left can all be passed. -/
theorem reads_all (c : Cursor) : ∃ c', c.Reads (c.rest.map Token.kind) c' ∧ c'.rest = [] := by
  obtain ⟨prev, rest, stop⟩ := c
  induction rest generalizing prev with
  | nil => exact ⟨_, .nil, rfl⟩
  | cons t rest ih =>
    obtain ⟨c', hreads, hrest⟩ := ih (some t)
    exact ⟨c', .cons nofun rfl hreads, hrest⟩

/-- The cursor before the tokens of a text that the lexer reads up to `e`. -/
def before (ts : List Token) (e : Scanner) : Cursor := ⟨none, ts, ⟨.eof, "", e.pos⟩⟩

theorem start_eq_before (ts : List Token) (e : Scanner) : start (ts ++ [⟨.eof, "", e.pos⟩]) = before ts e := by
  unfold start before
  rw [List.getLast?_concat, List.dropLast_concat]
  rfl

end Cursor

namespace Expr

open Parse

/-! ## Soundness -/

/-- **A parser that goes on after `before`**: together with what it consumes, that writes its result. -/
def Renders (n p : Nat) (before : List TokenKind) (x : Parse Expr) : Prop :=
  ∀ ⦃c c' : Cursor⦄ ⦃e : Expr⦄, c.stop.kind = .eof → x c = (.ok e, c') →
    ∃ ts, c.Reads ts c' ∧ Rendering n p (before ++ ts) e

/-- Some trees were written up to a closing symbol, inside `d` open levels. -/
def RendersList (d : Nat) (close : Symbol) (c : Cursor) (es : List Expr) (c' : Cursor) : Prop :=
  ∃ (items : List (List TokenKind × Expr)) (ts : List TokenKind), es = items.map Prod.snd ∧
    c.Reads (ts ++ [.symbol close]) c' ∧ Commas (items.map Prod.fst) ts ∧ (items ≠ [] → d < maxNesting) ∧
    ∀ i ∈ items, Rendering (maxNesting - (d + 1)) 0 i.1 i.2

/-- Some entries were written up to the closing brace, inside `d` open levels. -/
def RendersPairs (d : Nat) (c : Cursor) (ps : List (Expr × Expr)) (c' : Cursor) : Prop :=
  ∃ (entries : List ((List TokenKind × Expr) × (List TokenKind × Expr))) (ts : List TokenKind),
    ps = entries.map (fun i => (i.1.2, i.2.2)) ∧ c.Reads (ts ++ [.symbol .rightBrace]) c' ∧
    Commas (entries.map fun i => i.1.1 ++ .symbol .colon :: i.2.1) ts ∧ (entries ≠ [] → d < maxNesting) ∧
    (∀ i ∈ entries, Rendering (maxNesting - (d + 1)) 0 i.1.1 i.1.2) ∧
    ∀ i ∈ entries, Rendering (maxNesting - (d + 1)) 0 i.2.1 i.2.2

/-- What each function of the parser consumes with some fuel. Inside `d` open levels, `maxNesting - d` more may
    be opened. -/
structure Sound (fuel : Nat) : Prop where
  expression : ∀ d, d < maxNesting → Renders (maxNesting - (d + 1)) 0 [] (expression fuel d)
  chain : ∀ d l, Renders (maxNesting - d) l.rank [] (chain fuel d l)
  operand : ∀ d l, Renders (maxNesting - d) (l.rank + 1) [] (operand fuel d l)
  chainRest : ∀ d l ls left, Rendering (maxNesting - d) l.rank ls left →
    Renders (maxNesting - d) l.rank ls (chainRest fuel d l left)
  unaryOrPostfix : ∀ d, Renders (maxNesting - d) 5 [] (unaryOrPostfix fuel d false)
  postfixRest : ∀ d ls left, Rendering (maxNesting - d) 6 ls left →
    Renders (maxNesting - d) 6 ls (postfixRest fuel d false left)
  primary : ∀ d, Renders (maxNesting - d) 7 [] (primary fuel d)
  commaList : ∀ d close opened c c' es, c.stop.kind = .eof →
    commaList fuel d close opened c = (.ok es, c') → RendersList d close c es c'
  pairList : ∀ d opened c c' ps, c.stop.kind = .eof → pairList fuel d opened c = (.ok ps, c') →
    RendersPairs d c ps c'

theorem expression_depth {fuel d : Nat} {c c' : Cursor} {e : Expr} (h : expression fuel d c = (.ok e, c')) :
    d < maxNesting := by
  cases fuel with
  | zero =>
    rw [expression] at h
    exact absurd h exhausted_ne_ok
  | succ fuel => exact (expression_eq_ok.mp h).1

namespace Sound

variable {fuel : Nat}

theorem zero : Sound 0 := by
  constructor <;>
    simp [Renders, Expr.expression, Expr.chain, Expr.operand, Expr.chainRest, Expr.unaryOrPostfix,
      Expr.postfixRest, Expr.primary, Expr.commaList, Expr.pairList, exhausted_ne_ok]

theorem chain_succ (ih : Sound fuel) (d : Nat) (l : Level) :
    Renders (maxNesting - d) l.rank [] (Expr.chain (fuel + 1) d l) := by
  intro c c' e hc h
  obtain ⟨a, c₁, ha, hrest⟩ := chain_eq_ok.mp h
  obtain ⟨ls, hls, hleft⟩ := ih.operand d l hc ha
  have hc₁ : c₁.stop.kind = .eof := hls.stop_eq ▸ hc
  obtain ⟨ts, hts, hr⟩ := ih.chainRest d l ls a (hleft.loosen (Nat.le_succ _)) hc₁ hrest
  exact ⟨ls ++ ts, hls.append hts, hr⟩

theorem operand_succ (ih : Sound fuel) (d : Nat) (l : Level) :
    Renders (maxNesting - d) (l.rank + 1) [] (Expr.operand (fuel + 1) d l) := by
  rw [Expr.operand]
  cases l with
  | or => exact ih.chain d .and
  | and => exact ih.chain d .comparison
  | comparison => exact ih.chain d .additive
  | additive => exact ih.chain d .multiplicative
  | multiplicative => exact ih.unaryOrPostfix d

theorem chainRest_succ (ih : Sound fuel) (d : Nat) (l : Level) (ls : List TokenKind) (left : Expr)
    (hleft : Rendering (maxNesting - d) l.rank ls left) :
    Renders (maxNesting - d) l.rank ls (Expr.chainRest (fuel + 1) d l left) := by
  intro c c' e hc h
  rcases chainRest_eq_ok.mp h with ⟨op, r, c₁, hop, hr, hrest⟩ | ⟨-, rfl, rfl⟩
  · obtain ⟨hrank, hk⟩ := Level.operator?_eq_some_iff.mp hop
    have htoken := Cursor.Reads.one hc hk op.token_ne_eof
    obtain ⟨rs, hrs, hright⟩ := ih.operand d l (htoken.stop_eq ▸ hc) hr
    have hread := htoken.append hrs
    have hbinary : Rendering (maxNesting - d) l.rank (ls ++ ([op.token] ++ rs)) (.binary op left r) := by
      rw [← hrank] at hleft hright ⊢
      exact .binary op (Nat.le_refl _) hleft hright
    obtain ⟨ts, hts, he⟩ := ih.chainRest d l _ _ hbinary (hread.stop_eq ▸ hc) hrest
    refine ⟨[op.token] ++ rs ++ ts, hread.append hts, ?_⟩
    rw [← List.append_assoc]
    exact he
  · exact ⟨[], .nil, by rwa [List.append_nil]⟩

theorem unaryOrPostfix_succ (ih : Sound fuel) (d : Nat) :
    Renders (maxNesting - d) 5 [] (Expr.unaryOrPostfix (fuel + 1) d false) := by
  intro c c' e hc h
  rcases unaryOrPostfix_eq_ok.mp h with ⟨op, a, hop, hd, ha, rfl⟩ | ⟨-, a, c₁, ha, hrest⟩
  · have htoken := Cursor.Reads.one hc (unaryOperator?_eq_some_iff.mp hop) op.token_ne_eof
    obtain ⟨ts, hts, hr⟩ := ih.unaryOrPostfix (d + 1) (htoken.stop_eq ▸ hc) ha
    exact ⟨[op.token] ++ ts, htoken.append hts, .unary op (Nat.le_refl _) (by omega) hr⟩
  · obtain ⟨ls, hls, hleft⟩ := ih.primary d hc ha
    obtain ⟨ts, hts, hr⟩ := ih.postfixRest d ls a (hleft.loosen (by omega)) (hls.stop_eq ▸ hc) hrest
    exact ⟨ls ++ ts, hls.append hts, hr.loosen (by omega)⟩

theorem postfixRest_succ (ih : Sound fuel) (d : Nat) (ls : List TokenKind) (left : Expr)
    (hleft : Rendering (maxNesting - d) 6 ls left) :
    Renders (maxNesting - d) 6 ls (Expr.postfixRest (fuel + 1) d false left) := by
  intro c c' e hc h
  -- whatever the next suffix is, the tree with it is a longer left part
  have extend {ks : List TokenKind} {left' : Expr} {c₁ : Cursor} (hks : c.Reads ks c₁)
      (hleft' : Rendering (maxNesting - d) 6 (ls ++ ks) left')
      (hrest : Expr.postfixRest fuel d false left' c₁ = (.ok e, c')) :
      ∃ ts, c.Reads ts c' ∧ Rendering (maxNesting - d) 6 (ls ++ ts) e := by
    obtain ⟨ts, hts, hr⟩ := ih.postfixRest d _ _ hleft' (hks.stop_eq ▸ hc) hrest
    refine ⟨ks ++ ts, hks.append hts, ?_⟩
    rw [← List.append_assoc]
    exact hr
  rcases postfixRest_eq_ok.mp h with ⟨hk, args, c₁, hargs, hrest⟩ | ⟨hk, i, c₁, hi, hclose, hrest⟩ |
    ⟨hk, name, hname, hrest⟩ | ⟨-, rfl, rfl⟩
  · have htoken := Cursor.Reads.one hc hk nofun
    obtain ⟨items, ts, rfl, hts, hs, hd, hitems⟩ := ih.commaList _ _ _ _ _ _ (htoken.stop_eq ▸ hc) hargs
    exact extend (htoken.append hts) (.call (Nat.le_refl _) hleft (fun hne => by have := hd hne; omega) hitems hs)
      hrest
  · have htoken := Cursor.Reads.one hc hk nofun
    have hd := expression_depth hi
    obtain ⟨is, his, hindex⟩ := ih.expression d hd (htoken.stop_eq ▸ hc) hi
    have hread := htoken.append his
    have hend := Cursor.Reads.one (hread.stop_eq ▸ hc) hclose nofun
    refine extend (hread.append hend) ?_ hrest
    exact .index (Nat.le_refl _) hleft (by omega) hindex
  · have hdot := Cursor.Reads.one hc hk nofun
    have hend := Cursor.Reads.one (hdot.stop_eq ▸ hc) hname nofun
    exact extend (hdot.append hend) (.member (Nat.le_refl _) hleft name) hrest
  · exact ⟨[], .nil, by rwa [List.append_nil]⟩

theorem primary_succ (ih : Sound fuel) (d : Nat) :
    Renders (maxNesting - d) 7 [] (Expr.primary (fuel + 1) d) := by
  intro c c' e hc h
  rcases primary_eq_ok.mp h with ⟨ha, rfl⟩ | ⟨hk, c₁, ha, hclose, rfl⟩ | ⟨hk, items, hitems, rfl⟩ |
    ⟨hk, pairs, hpairs, rfl⟩
  · have hne : c.peek.kind ≠ .eof := fun heq => nomatch (heq ▸ ha : atom? .eof = some e)
    exact ⟨[c.peek.kind], .one hc rfl hne, atom?_eq_some ha _ _⟩
  · have htoken := Cursor.Reads.one hc hk nofun
    have hd := expression_depth ha
    obtain ⟨ts, hts, hr⟩ := ih.expression d hd (htoken.stop_eq ▸ hc) ha
    have hread := htoken.append hts
    have hend := Cursor.Reads.one (hread.stop_eq ▸ hc) hclose nofun
    exact ⟨_, hread.append hend, .group (by omega) hr⟩
  · have htoken := Cursor.Reads.one hc hk nofun
    obtain ⟨items, ts, rfl, hts, hs, hd, hitems⟩ := ih.commaList _ _ _ _ _ _ (htoken.stop_eq ▸ hc) hitems
    exact ⟨_, htoken.append hts, .list (fun hne => by have := hd hne; omega) hitems hs⟩
  · have htoken := Cursor.Reads.one hc hk nofun
    obtain ⟨entries, ts, rfl, hts, hs, hd, hkeys, hvalues⟩ :=
      ih.pairList _ _ _ _ _ (htoken.stop_eq ▸ hc) hpairs
    exact ⟨_, htoken.append hts, .dict (fun hne => by have := hd hne; omega) hkeys hvalues hs⟩

theorem commaList_succ (ih : Sound fuel) (d : Nat) (close : Symbol) (opened : Token) (c c' : Cursor)
    (es : List Expr) (hc : c.stop.kind = .eof)
    (h : Expr.commaList (fuel + 1) d close opened c = (.ok es, c')) : RendersList d close c es c' := by
  rcases commaList_eq_ok.mp h with ⟨hk, rfl, rfl⟩ | ⟨-, e, c₁, he, hafter⟩
  · exact ⟨[], [], rfl, .one hc hk nofun, .nil, nofun, nofun⟩
  have hd := expression_depth he
  obtain ⟨w, hw, hr⟩ := ih.expression d hd hc he
  have hc₁ : c₁.stop.kind = .eof := hw.stop_eq ▸ hc
  rcases hafter with ⟨hcomma, rest, hrest, rfl⟩ | ⟨-, hclose, rfl, rfl⟩
  · have htoken := Cursor.Reads.one hc₁ hcomma nofun
    obtain ⟨items, ts, rfl, hts, hs, -, hitems⟩ := ih.commaList _ _ _ _ _ _ (htoken.stop_eq ▸ hc₁) hrest
    refine ⟨(w, e) :: items, w ++ .symbol .comma :: ts, rfl, ?_, .cons hs, fun _ => hd,
      List.forall_mem_cons.mpr ⟨hr, hitems⟩⟩
    rw [List.append_assoc]
    exact hw.append (htoken.append hts)
  · exact ⟨[(w, e)], w, rfl, hw.append (.one hc₁ hclose nofun), .last w, fun _ => hd,
      List.forall_mem_singleton.mpr hr⟩

theorem pairList_succ (ih : Sound fuel) (d : Nat) (opened : Token) (c c' : Cursor) (ps : List (Expr × Expr))
    (hc : c.stop.kind = .eof) (h : Expr.pairList (fuel + 1) d opened c = (.ok ps, c')) :
    RendersPairs d c ps c' := by
  rcases pairList_eq_ok.mp h with ⟨hk, rfl, rfl⟩ | ⟨-, k, c₁, hk, hcolon, v, c₂, hv, hafter⟩
  · exact ⟨[], [], rfl, .one hc hk nofun, .nil, nofun, nofun, nofun⟩
  have hd := expression_depth hk
  obtain ⟨kw, hkw, hkey⟩ := ih.expression d hd hc hk
  have hread := hkw.append (.one (hkw.stop_eq ▸ hc) hcolon nofun)
  obtain ⟨vw, hvw, hvalue⟩ := ih.expression d hd (hread.stop_eq ▸ hc) hv
  have hentry : c.Reads (kw ++ .symbol .colon :: vw) c₂ := by
    have := hread.append hvw
    rwa [List.append_assoc] at this
  have hc₂ : c₂.stop.kind = .eof := hentry.stop_eq ▸ hc
  rcases hafter with ⟨hcomma, rest, hrest, rfl⟩ | ⟨-, hclose, rfl, rfl⟩
  · have htoken := Cursor.Reads.one hc₂ hcomma nofun
    obtain ⟨entries, ts, rfl, hts, hs, -, hkeys, hvalues⟩ :=
      ih.pairList _ _ _ _ _ (htoken.stop_eq ▸ hc₂) hrest
    refine ⟨((kw, k), (vw, v)) :: entries, _, rfl, ?_, .cons hs, fun _ => hd,
      List.forall_mem_cons.mpr ⟨hkey, hkeys⟩, List.forall_mem_cons.mpr ⟨hvalue, hvalues⟩⟩
    rw [List.append_assoc]
    exact hentry.append (htoken.append hts)
  · exact ⟨[((kw, k), (vw, v))], _, rfl, hentry.append (.one hc₂ hclose nofun), .last _, fun _ => hd,
      List.forall_mem_singleton.mpr hkey, List.forall_mem_singleton.mpr hvalue⟩

theorem all (fuel : Nat) : Sound fuel := by
  induction fuel with
  | zero => exact zero
  | succ fuel ih =>
    refine ⟨fun d _ c c' e hc h => ?_, ih.chain_succ, ih.operand_succ, ih.chainRest_succ, ih.unaryOrPostfix_succ,
      ih.postfixRest_succ, ih.primary_succ, ih.commaList_succ, ih.pairList_succ⟩
    exact ih.chain (d + 1) .or hc (expression_eq_ok.mp h).2

end Sound

/-! ## Completeness -/

/-- The parser of what may stand in a place of a rank. -/
def climb (fuel d : Nat) : Nat → Parse Expr
  | 0 => chain fuel d .or
  | 1 => chain fuel d .and
  | 2 => chain fuel d .comparison
  | 3 => chain fuel d .additive
  | 4 => chain fuel d .multiplicative
  | 5 => unaryOrPostfix fuel d false
  | 6 => primary fuel d >>= postfixRest fuel d false
  | _ => primary fuel d

/-- How that parser goes on after a tree. -/
def climbRest (fuel d : Nat) (e : Expr) : Nat → Parse Expr
  | 0 => chainRest fuel d .or e
  | 1 => chainRest fuel d .and e
  | 2 => chainRest fuel d .comparison e
  | 3 => chainRest fuel d .additive e
  | 4 => chainRest fuel d .multiplicative e
  | 6 => postfixRest fuel d false e
  | _ => pure e

section

variable {d f p : Nat} {c c₁ c' : Cursor} {e : Expr} {ts : List TokenKind}

theorem climb_rank (l : Level) : climb f d l.rank = chain f d l := by cases l <;> rfl

theorem climbRest_rank (l : Level) : climbRest f d e l.rank = chainRest f d l e := by cases l <;> rfl

theorem operand_eq_climb (l : Level) : operand (f + 1) d l = climb f d (l.rank + 1) := by
  rw [operand]
  cases l <;> rfl

/-- A token that cannot go on with an expression ends the parser of its place. -/
theorem climbRest_of_ends (hf : 1 ≤ f) (h : Ends p c.peek.kind) : climbRest f d e p c = (.ok e, c) := by
  obtain ⟨f, rfl⟩ := Nat.exists_eq_add_of_le' hf
  have level (l : Level) (h : Ends l.rank c.peek.kind) : chainRest (f + 1) d l e c = (.ok e, c) := by
    refine chainRest_eq_ok.mpr (.inr ⟨?_, rfl, rfl⟩)
    rw [Option.eq_none_iff_forall_ne_some]
    intro op hop
    obtain ⟨hrank, hk⟩ := Level.operator?_eq_some_iff.mp hop
    exact absurd (h.operator op hk) (by omega)
  match p, h with
  | 0, h => exact level .or h
  | 1, h => exact level .and h
  | 2, h => exact level .comparison h
  | 3, h => exact level .additive h
  | 4, h => exact level .multiplicative h
  | 5, _ => rfl
  | 6, h => exact postfixRest_eq_ok.mpr (.inr (.inr (.inr ⟨h.suffix (Nat.le_refl 6), rfl, rfl⟩)))
  | _ + 7, _ => rfl

/-- **The parser of a place reads a rendering**: what it gets by going on after the tree, it gets from the start
    of the tokens. Each token costs at most 16 nested calls, and each rank two. -/
def Read (d p : Nat) (ts : List TokenKind) (e : Expr) : Prop :=
  ∀ ⦃g : Nat⦄ ⦃c c₁ c' : Cursor⦄ ⦃r : Expr⦄, 1 ≤ g → c.Reads ts c₁ → Ends (p + 1) c₁.peek.kind →
    (∀ f, g ≤ f → climbRest f d e p c₁ = (.ok r, c')) →
    ∀ f, g + 16 * ts.length ≤ f + 2 * p → climb f d p c = (.ok r, c')

namespace Read

/-- Before a token that ends it, the tree of the rendering is all there is. -/
theorem whole (h : Read d p ts e) (hr : c.Reads ts c₁) (hends : Ends p c₁.peek.kind)
    (hf : 1 + 16 * ts.length ≤ f + 2 * p) : climb f d p c = (.ok e, c₁) :=
  h (Nat.le_refl 1) hr (hends.mono (Nat.le_succ p)) (fun _ hg => climbRest_of_ends hg hends) f hf

theorem expression (h : Read (d + 1) 0 ts e) (hd : d < maxNesting) (hr : c.Reads ts c₁)
    (hends : Ends 0 c₁.peek.kind) (hf : 16 * ts.length + 2 ≤ f) : Expr.expression f d c = (.ok e, c₁) := by
  obtain ⟨f, rfl⟩ : ∃ f', f = f' + 1 := ⟨f - 1, by omega⟩
  exact expression_eq_ok.mpr ⟨hd, h.whole hr hends (by omega)⟩

/-- A tree that the parser of a rank reads is read by that of the next looser one. -/
theorem down (h : Read d (p + 1) ts e) (hp : p ≤ 6) (hts : 1 ≤ ts.length)
    (hhead : p = 5 → ∀ k ∈ ts.head?, unaryOperator? k = none) : Read d p ts e := by
  intro g c c₁ c' r hg hr hends hrest f hf
  have inner {f' : Nat} (hf' : g + 16 * ts.length ≤ f' + 2 * (p + 1)) :
      climb f' d (p + 1) c = (.ok e, c₁) := h.whole hr hends (by omega)
  by_cases hlevel : p ≤ 4
  · obtain ⟨l, rfl⟩ := Level.exists_rank_eq hlevel
    obtain ⟨f, rfl⟩ : ∃ f', f = f' + 2 := ⟨f - 2, by omega⟩
    rw [climb_rank]
    refine chain_eq_ok.mpr ⟨e, c₁, ?_, ?_⟩
    · rw [operand_eq_climb]
      exact inner (by omega)
    · rw [← climbRest_rank]
      exact hrest _ (by omega)
  obtain rfl | rfl : p = 5 ∨ p = 6 := by omega
  · obtain ⟨f, rfl⟩ : ∃ f', f = f' + 1 := ⟨f - 1, by omega⟩
    obtain ⟨rfl, rfl⟩ := pure_eq_ok.mp (hrest g (Nat.le_refl g))
    refine unaryOrPostfix_eq_ok.mpr (.inr ⟨?_, bind_eq_ok.mp (inner (by omega))⟩)
    cases ts with
    | nil => exact absurd hts (by simp)
    | cons k ts =>
      rw [hr.of_cons.1]
      exact hhead rfl k rfl
  · exact bind_eq_ok.mpr ⟨e, c₁, inner (by omega), hrest f (by omega)⟩

/-- What is complete by itself is read by `primary`. -/
theorem of_primary (hts : 1 ≤ ts.length)
    (h : ∀ c c₁ f, c.Reads ts c₁ → 16 * ts.length ≤ f + 14 → primary (f + 1) d c = (.ok e, c₁)) :
    Read d 7 ts e := by
  intro g c c₁ c' r hg hr _ hrest f hf
  obtain ⟨rfl, rfl⟩ := pure_eq_ok.mp (hrest g (Nat.le_refl g))
  obtain ⟨f, rfl⟩ : ∃ f', f = f' + 1 := ⟨f - 1, by omega⟩
  exact h c c' f hr (by omega)

/-- A suffix after what is read makes a longer left part. -/
theorem suffix {e' : Expr} {ks : List TokenKind} (h : Read d 6 ts e) (hks : 1 ≤ ks.length)
    (hstep : ∀ c c₁ c' r f, c.Reads ks c₁ → 16 * ks.length ≤ f →
      Expr.postfixRest f d false e' c₁ = (.ok r, c') → Expr.postfixRest (f + 1) d false e c = (.ok r, c')) :
    Read d 6 (ts ++ ks) e' := by
  intro g c c₁ c' r hg hr _ hrest f hf
  obtain ⟨c₂, hts, htail⟩ := hr.of_append
  rw [List.length_append] at hf
  refine @h (g + 16 * ks.length) c c₂ c' r (by omega) hts (ends_primary _ (Nat.le_refl 7)) (fun f' hf' => ?_) f
    (by omega)
  obtain ⟨f', rfl⟩ : ∃ f'', f' = f'' + 1 := ⟨f' - 1, by omega⟩
  exact hstep c₂ c₁ c' r f' htail (by omega) (hrest f' (by omega))

theorem binary {ls rs : List TokenKind} {l r : Expr} (op : BinOp) (hl : Read d op.rank ls l)
    (hr : Read d (op.rank + 1) rs r) : Read d op.rank (ls ++ op.token :: rs) (.binary op l r) := by
  obtain ⟨level, hlevel⟩ := Level.exists_rank_eq op.rank_le
  intro g c c₁ c' t hg hread hends hrest f hf
  obtain ⟨c₂, hls, htail⟩ := hread.of_append
  obtain ⟨hk, hrs⟩ := htail.of_cons
  rw [List.length_append, List.length_cons] at hf
  have hends₂ : Ends (op.rank + 1) c₂.peek.kind := hk ▸ ends_operator (Nat.lt_succ_self _)
  refine @hl (g + 16 * (rs.length + 1)) c c₂ c' t (by omega) hls hends₂ (fun f' hf' => ?_) f (by omega)
  obtain ⟨f', rfl⟩ : ∃ f'', f' = f'' + 2 := ⟨f' - 2, by omega⟩
  rw [← hlevel, climbRest_rank]
  refine chainRest_eq_ok.mpr (.inl ⟨op, r, c₁, ?_, ?_, ?_⟩)
  · exact Level.operator?_eq_some_iff.mpr ⟨hlevel.symm, hk⟩
  · rw [operand_eq_climb, hlevel]
    exact hr.whole hrs hends (by omega)
  · rw [← climbRest_rank, hlevel]
    exact hrest _ (by omega)

end Read

/-- A rendering that the parser of its own rank reads is read in every place that asks for less. -/
theorem Rendering.read_of_le {n q : Nat} (h : Rendering n q ts e) (hr : Read d q ts e) (hq : q ≤ 7) (hp : p ≤ q) :
    Read d p ts e := by
  obtain ⟨k, ks, rfl, -, hunary⟩ := h.head
  induction hp with
  | refl => exact hr
  | @step q hpq ih =>
    have hdown : Read d q (k :: ks) e := by
      refine hr.down (by omega) (by simp) fun hq5 k' hk' => ?_
      cases hk'
      exact hunary (by omega)
    exact ih (by omega) (h.loosen (Nat.le_succ q)) hdown fun hq6 => hunary (by omega)

/-- A cursor before a rendering is at no delimiter. -/
theorem Rendering.peek_ne {n : Nat} {s : Symbol} (h : Rendering n p ts e) (hr : c.Reads ts c₁) (hs : Delimiter s) :
    c.peek.kind ≠ .symbol s := by
  obtain ⟨k, ks, rfl, hdelimiter, -⟩ := h.head
  rw [hr.of_cons.1]
  exact hdelimiter s hs

theorem commaList_of_read {m : Nat} {close : Symbol} {opened : Token} (hclose : Delimiter close)
    (hcomma : close ≠ .comma) {items : List (List TokenKind × Expr)} (hm : items ≠ [] → m + d < maxNesting)
    (hitems : ∀ i ∈ items, Rendering m 0 i.1 i.2) (hreads : ∀ i ∈ items, Read (d + 1) 0 i.1 i.2)
    (hs : Commas (items.map Prod.fst) ts) (hr : c.Reads ts c₁) (hk : c₁.peek.kind = .symbol close)
    (hf : 16 * ts.length + 3 ≤ f) :
    commaList f d close opened c = (.ok (items.map Prod.snd), c₁.next) := by
  induction items generalizing ts c f with
  | nil =>
    cases hs
    cases hr
    obtain ⟨f, rfl⟩ : ∃ f', f = f' + 1 := ⟨f - 1, by omega⟩
    exact commaList_eq_ok.mpr (.inl ⟨hk, rfl, rfl⟩)
  | cons i items ih =>
    obtain ⟨hi, hitems⟩ := List.forall_mem_cons.mp hitems
    obtain ⟨hread, hreads⟩ := List.forall_mem_cons.mp hreads
    obtain ⟨f, rfl⟩ : ∃ f', f = f' + 1 := ⟨f - 1, by omega⟩
    replace hm : m + d < maxNesting := hm nofun
    have hd : d < maxNesting := by omega
    rcases hs.of_cons with ⟨hnil, rfl⟩ | ⟨ts', hs', rfl⟩
    · obtain rfl := List.map_eq_nil_iff.mp hnil
      have hexpr := hread.expression hd hr (hk ▸ hclose.ends 0) (f := f) (by omega)
      refine commaList_eq_ok.mpr (.inr ⟨hi.peek_ne hr hclose, i.2, c₁, hexpr, .inr ⟨?_, hk, rfl, rfl⟩⟩)
      rw [hk]
      exact fun heq => hcomma (TokenKind.symbol.inj heq)
    · obtain ⟨c₂, hr₁, hr₂⟩ := hr.of_append
      obtain ⟨hk₂, hr₂⟩ := hr₂.of_cons
      rw [List.length_append, List.length_cons] at hf
      have hexpr := hread.expression hd hr₁ (hk₂ ▸ Delimiter.comma.ends 0) (f := f) (by omega)
      have hrest := ih (fun _ => hm) hitems hreads hs' hr₂ (f := f) (by omega)
      exact commaList_eq_ok.mpr (.inr ⟨hi.peek_ne hr₁ hclose, i.2, c₂, hexpr, .inl ⟨hk₂, _, hrest, rfl⟩⟩)

theorem pairList_of_read {m : Nat} {opened : Token}
    {entries : List ((List TokenKind × Expr) × (List TokenKind × Expr))} (hm : entries ≠ [] → m + d < maxNesting)
    (hkeys : ∀ i ∈ entries, Rendering m 0 i.1.1 i.1.2) (hreadKeys : ∀ i ∈ entries, Read (d + 1) 0 i.1.1 i.1.2)
    (hreadValues : ∀ i ∈ entries, Read (d + 1) 0 i.2.1 i.2.2)
    (hs : Commas (entries.map fun i => i.1.1 ++ .symbol .colon :: i.2.1) ts) (hr : c.Reads ts c₁)
    (hk : c₁.peek.kind = .symbol .rightBrace) (hf : 16 * ts.length + 3 ≤ f) :
    pairList f d opened c = (.ok (entries.map fun i => (i.1.2, i.2.2)), c₁.next) := by
  induction entries generalizing ts c f with
  | nil =>
    cases hs
    cases hr
    obtain ⟨f, rfl⟩ : ∃ f', f = f' + 1 := ⟨f - 1, by omega⟩
    exact pairList_eq_ok.mpr (.inl ⟨hk, rfl, rfl⟩)
  | cons i entries ih =>
    obtain ⟨hkey, hkeys⟩ := List.forall_mem_cons.mp hkeys
    obtain ⟨hreadKey, hreadKeys⟩ := List.forall_mem_cons.mp hreadKeys
    obtain ⟨hreadValue, hreadValues⟩ := List.forall_mem_cons.mp hreadValues
    obtain ⟨f, rfl⟩ : ∃ f', f = f' + 1 := ⟨f - 1, by omega⟩
    replace hm : m + d < maxNesting := hm nofun
    have hd : d < maxNesting := by omega
    -- one entry, whatever delimiter is after it
    have entry {c₂ : Cursor} {s : Symbol} (hdelimiter : Delimiter s) (hk₂ : c₂.peek.kind = .symbol s)
        (hentry : c.Reads (i.1.1 ++ .symbol .colon :: i.2.1) c₂)
        (hf : 16 * (i.1.1 ++ TokenKind.symbol .colon :: i.2.1).length + 2 ≤ f) :
        c.peek.kind ≠ .symbol .rightBrace ∧ ∃ c₃, expression f d c = (.ok i.1.2, c₃) ∧
          c₃.peek.kind = .symbol .colon ∧ expression f d c₃.next = (.ok i.2.2, c₂) := by
      obtain ⟨c₃, hr₁, hr₂⟩ := hentry.of_append
      obtain ⟨hcolon, hr₂⟩ := hr₂.of_cons
      rw [List.length_append, List.length_cons] at hf
      refine ⟨hkey.peek_ne hr₁ .brace, c₃, ?_, hcolon, ?_⟩
      · exact hreadKey.expression hd hr₁ (hcolon ▸ Delimiter.colon.ends 0) (by omega)
      · exact hreadValue.expression hd hr₂ (hk₂ ▸ hdelimiter.ends 0) (by omega)
    rcases hs.of_cons with ⟨hnil, rfl⟩ | ⟨ts', hs', rfl⟩
    · obtain rfl := List.map_eq_nil_iff.mp hnil
      dsimp only at hf
      obtain ⟨hne, c₃, hkey, hcolon, hvalue⟩ := entry .brace hk hr (by omega)
      refine pairList_eq_ok.mpr (.inr ⟨hne, _, c₃, hkey, hcolon, _, c₁, hvalue, .inr ⟨?_, hk, rfl, rfl⟩⟩)
      rw [hk]
      nofun
    · obtain ⟨c₂, hr₁, hr₂⟩ := hr.of_append
      obtain ⟨hk₂, hr₂⟩ := hr₂.of_cons
      simp only [List.length_append, List.length_cons] at hf entry
      obtain ⟨hne, c₃, hkey, hcolon, hvalue⟩ := entry .comma hk₂ hr₁ (by omega)
      have hrest := ih (fun _ => hm) hkeys hreadKeys hreadValues hs' hr₂ (f := f) (by omega)
      exact pairList_eq_ok.mpr (.inr ⟨hne, _, c₃, hkey, hcolon, _, c₂, hvalue, .inl ⟨hk₂, _, hrest, rfl⟩⟩)

theorem length_bracketed (left right : Symbol) : (bracketed left ts right).length = ts.length + 2 := by
  simp [bracketed]

/-- A single token that is an expression by itself. -/
theorem Read.atom {k : TokenKind} (h : atom? k = some e) : Read d 7 [k] e := by
  refine of_primary (Nat.le_refl 1) fun c c₁ f hr _ => ?_
  obtain ⟨hk, hr⟩ := hr.of_cons
  cases hr
  exact primary_eq_ok.mpr (.inl ⟨hk ▸ h, rfl⟩)

/-- A bracketed form, as `primary` opens and closes it. -/
theorem Read.bracketed {left right : Symbol} (h : ∀ c c₁ f, c.peek.kind = .symbol left → c.next.Reads ts c₁ →
      c₁.peek.kind = .symbol right → 16 * ts.length + 3 ≤ f → primary (f + 1) d c = (.ok e, c₁.next)) :
    Read d 7 (bracketed left ts right) e := by
  refine of_primary (by simp [Expr.bracketed]) fun c c₁ f hr hf => ?_
  obtain ⟨hk, c₂, hin, hclose, rfl⟩ := hr.of_bracketed
  rw [length_bracketed] at hf
  exact h c c₂ f hk hin hclose (by omega)

/-- **Every rendering is read**, in a place of its rank, as long as its levels may still be opened. -/
theorem Rendering.read {n : Nat} (h : Rendering n p ts e) (hp : p ≤ 7) (hn : n + d ≤ maxNesting) :
    Read d p ts e := by
  induction h generalizing d with
  | @literal n p l =>
    exact (Rendering.literal (n := n) (p := 7) l).read_of_le (.atom (atom?_token l)) (Nat.le_refl 7) hp
  | @var n p name => exact (Rendering.var (n := n) (p := 7) name).read_of_le (.atom rfl) (Nat.le_refl 7) hp
  | @group n m p ts e hm h ih =>
    refine (Rendering.group (p := 7) hm h).read_of_le (.bracketed fun c c₁ f hk hr hclose hf => ?_) (Nat.le_refl 7)
      hp
    -- one level deeper, where the closing bracket ends the expression
    have hread : Read (d + 1) 0 ts e := ih (Nat.zero_le 7) (by omega)
    have hexpr := hread.expression (by omega) hr (hclose ▸ Delimiter.paren.ends 0) (f := f) (by omega)
    exact primary_eq_ok.mpr (.inr (.inl ⟨hk, c₁, hexpr, hclose, rfl⟩))
  | @list n m p items ts hm h hs ih =>
    refine (Rendering.list (p := 7) hm h hs).read_of_le (.bracketed fun c c₁ f hk hr hclose hf => ?_)
      (Nat.le_refl 7) hp
    have hlevel : items ≠ [] → m + d < maxNesting := fun hne => by have := hm hne; omega
    refine primary_eq_ok.mpr (.inr (.inr (.inl ⟨hk, _, ?_, rfl⟩)))
    refine commaList_of_read .bracket nofun hlevel h (fun i hi => ?_) hs hr hclose
      hf
    exact ih i hi (Nat.zero_le 7) (hlevel (List.ne_nil_of_mem hi))
  | @dict n m p entries ts hm hkeys hvalues hs ihk ihv =>
    refine (Rendering.dict (p := 7) hm hkeys hvalues hs).read_of_le
      (.bracketed fun c c₁ f hk hr hclose hf => ?_) (Nat.le_refl 7) hp
    have hlevel : entries ≠ [] → m + d < maxNesting := fun hne => by have := hm hne; omega
    refine primary_eq_ok.mpr (.inr (.inr (.inr ⟨hk, _, ?_, rfl⟩)))
    refine pairList_of_read hlevel hkeys (fun i hi => ?_) (fun i hi => ?_) hs hr
      hclose hf
    · exact ihk i hi (Nat.zero_le 7) (hlevel (List.ne_nil_of_mem hi))
    · exact ihv i hi (Nat.zero_le 7) (hlevel (List.ne_nil_of_mem hi))
  | @call n m p ts as e args hp6 h hm ha hs ih iha =>
    have hlevel : args ≠ [] → m + d < maxNesting := fun hne => by have := hm hne; omega
    -- what is called is read first, and the loop that has read it goes on with the bracket
    refine (Rendering.call (Nat.le_refl 6) h hm ha hs).read_of_le ?_ (by omega) hp6
    refine (ih (by omega) hn).suffix (by simp [bracketed]) fun c c₁ c' r f hr hf hrest => ?_
    obtain ⟨hk, c₂, hin, hclose, rfl⟩ := hr.of_bracketed
    rw [length_bracketed] at hf
    refine postfixRest_eq_ok.mpr (.inl ⟨hk, _, _, ?_, hrest⟩)
    refine commaList_of_read .paren nofun hlevel ha (fun i hi => ?_) hs hin hclose
      (by omega)
    exact iha i hi (Nat.zero_le 7) (hlevel (List.ne_nil_of_mem hi))
  | @index n m p ts is e i hp6 h hm hi ih ihi =>
    refine (Rendering.index (Nat.le_refl 6) h hm hi).read_of_le ?_ (by omega) hp6
    refine (ih (by omega) hn).suffix (by simp [bracketed]) fun c c₁ c' r f hr hf hrest => ?_
    obtain ⟨hk, c₂, hin, hclose, rfl⟩ := hr.of_bracketed
    rw [length_bracketed] at hf
    have hread : Read (d + 1) 0 is i := ihi (Nat.zero_le 7) (by omega)
    have hexpr := hread.expression (by omega) hin (hclose ▸ Delimiter.bracket.ends 0) (f := f) (by omega)
    exact postfixRest_eq_ok.mpr (.inr (.inl ⟨hk, i, c₂, hexpr, hclose, hrest⟩))
  | member hp6 h name ih =>
    refine (Rendering.member (Nat.le_refl 6) h name).read_of_le ?_ (by omega) hp6
    refine (ih (by omega) hn).suffix (by simp) fun c c₁ c' r f hr hf hrest => ?_
    obtain ⟨hdot, hr⟩ := hr.of_cons
    obtain ⟨hname, hr⟩ := hr.of_cons
    cases hr
    exact postfixRest_eq_ok.mpr (.inr (.inr (.inl ⟨hdot, name, hname, hrest⟩)))
  | @unary n m p ts e op hp5 hm h ih =>
    refine (Rendering.unary op (Nat.le_refl 5) hm h).read_of_le ?_ (by omega) hp5
    intro g c c₁ c' r hg hr hends hrest f hf
    -- nothing goes on with an operand of an operator
    obtain ⟨rfl, rfl⟩ := pure_eq_ok.mp (hrest g (Nat.le_refl g))
    obtain ⟨hk, hr⟩ := hr.of_cons
    rw [List.length_cons] at hf
    obtain ⟨f, rfl⟩ : ∃ f', f = f' + 1 := ⟨f - 1, by omega⟩
    have hread : Read (d + 1) 5 ts e := ih (by omega) (by omega)
    refine unaryOrPostfix_eq_ok.mpr (.inl ⟨op, e, unaryOperator?_eq_some_iff.mpr hk, by omega, ?_, rfl⟩)
    exact hread (Nat.le_refl 1) hr hends (fun _ _ => rfl) f (by omega)
  | binary op hp' hl hr ihl ihr =>
    have := op.rank_le
    refine (Rendering.binary op (Nat.le_refl _) hl hr).read_of_le ?_ (by omega) hp'
    exact (ihl (by omega) hn).binary op (ihr (by omega) hn)

end

theorem start_stop (tokens : List Token) : (Cursor.start tokens).stop.kind = .eof := by
  unfold Cursor.start
  split
  · rfl
  · split
    · next last _ heof =>
      unfold Cursor.isEof at heof
      split at heof
      · assumption
      · exact nomatch heof
    · rfl

/-- **The parser accepts its grammar and nothing else**, at every place in every list of tokens and inside any
    number `d` of open levels; that number is handed down and never back, so the caller goes on with its own.

    * What it consumes for a tree is a rendering of that tree, and it nests within the bound.
    * From every rendering that does, it gets that tree and stops right after it, unless the next token is a
      binary operator, a bracket that opens a call or an index, or a dot. -/
theorem parser_accepts_exactly_grammar {tokens : List Token} {before : List TokenKind} {c : Cursor}
    (hc : (Cursor.start tokens).Reads before c) (d : Nat) :
    (∀ (e : Expr) (c' : Cursor), expression c.fuel d c = (.ok e, c') →
      ∃ ts, c.Reads ts c' ∧ Rendering (maxNesting - (d + 1)) 0 ts e) ∧
    ∀ (n : Nat) (ts : List TokenKind) (e : Expr) (c' : Cursor), Rendering n 0 ts e → n + d < maxNesting →
      c.Reads ts c' → (∀ op : BinOp, c'.peek.kind ≠ op.token) → c'.peek.kind ≠ .symbol .leftParen →
      c'.peek.kind ≠ .symbol .leftBracket → c'.peek.kind ≠ .symbol .dot →
      expression c.fuel d c = (.ok e, c') := by
  constructor
  · intro e c' h
    have hstop : c.stop.kind = .eof := hc.stop_eq ▸ start_stop tokens
    exact (Sound.all c.fuel).expression d (expression_depth h) hstop h
  · intro n ts e c' hrendering hn hread hop hparen hbracket hdot
    have hends : Ends 0 c'.peek.kind := ⟨fun op heq => absurd heq (hop op), fun _ => ⟨hparen, hbracket, hdot⟩⟩
    have hfuel : 16 * ts.length + 2 ≤ c.fuel := by
      have := hread.length_eq
      unfold Cursor.fuel
      omega
    exact (hrendering.read (Nat.zero_le 7) (by omega)).expression (by omega) hread hends hfuel

/-- `not a - b * [1,]` before the end of a line, in the middle of other tokens. -/
theorem parser_accepts_exactly_grammar_mixed :
    let tree := Expr.binary .sub (.unary .not (.var "a")) (.binary .mul (.var "b") (.list [.literal (.int 1)]))
    let kinds : List TokenKind := [.keyword .not, .ident "a", .symbol .minus, .ident "b", .symbol .star,
      .symbol .leftBracket, .int 1, .symbol .comma, .symbol .rightBracket]
    let tokens := ([TokenKind.keyword .print] ++ kinds ++ [TokenKind.newline]).map fun k => Token.mk k "" ⟨1, 1⟩
    let c := (Cursor.start tokens).next
    (Cursor.start tokens).Reads [.keyword .print] c ∧ Rendering 1 0 kinds tree ∧
      ∃ c', c.Reads kinds c' ∧ c'.peek.kind = .newline ∧ expression c.fuel 0 c = (.ok tree, c') := by
  intro tree kinds tokens c
  have hc : (Cursor.start tokens).Reads [.keyword .print] c := .cons nofun rfl .nil
  have hlist : Rendering 1 5 [.symbol .leftBracket, .int 1, .symbol .comma, .symbol .rightBracket]
      (.list [.literal (.int 1)]) :=
    @Rendering.list 1 0 5 [([.int 1], .literal (.int 1))] _ (fun _ => Nat.zero_lt_one)
      (List.forall_mem_singleton.mpr (.literal (.int 1))) (.cons .nil)
  have hrendering : Rendering 1 0 kinds tree :=
    .binary .sub (by decide) (.unary .not (by decide) Nat.zero_lt_one (.var "a"))
      (.binary .mul (by decide) (.var "b") hlist)
  have hread : ∃ c', c.Reads kinds c' ∧ c'.peek.kind = .newline :=
    ⟨_, .cons nofun rfl (.cons nofun rfl (.cons nofun rfl (.cons nofun rfl (.cons nofun rfl (.cons nofun rfl
      (.cons nofun rfl (.cons nofun rfl (.cons nofun rfl .nil)))))))), rfl⟩
  obtain ⟨c', hread, hk⟩ := hread
  refine ⟨hc, hrendering, c', hread, hk, ?_⟩
  refine (parser_accepts_exactly_grammar hc 0).2 1 kinds tree c' hrendering (by decide) hread ?_ ?_ ?_ ?_
  · intro op
    rw [hk]
    cases op <;> nofun
  · rw [hk]; nofun
  · rw [hk]; nofun
  · rw [hk]; nofun

end Expr

end Helios
