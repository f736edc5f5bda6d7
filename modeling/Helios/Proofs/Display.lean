import Helios.Proofs.Spelling
import Helios.Proofs.Recognition

/-!
# Display — a written expression is read back as the same tree

The way from a tree to its text and back goes through tokens, and each half of it is shown for itself:

* the text of a tree is read as its tokens `Expr.printed` (`Expr.lexes_render`): what stands after a word or a
  number in it breaks that off, and no line of it opens a fence (`Expr.scans_render`);
* those tokens are a rendering of the tree, as operations stand in parentheses (`Expr.rendering_printed`), and the
  parser reads every rendering that nests within its bound.

Not every tree is the result of a parse: one may hold a negative number, or a name that is no word. The leaves of a
parsed tree are tokens of its text (`Expr.Rendering.leaves`), and the lexer yields none of these.
-/

namespace Helios

namespace Expr

/-- **Induction over expressions**, with a hypothesis for each item of a list and for both sides of each entry. -/
@[elab_as_elim]
theorem induct {P : Expr → Prop} (literal : ∀ l, P (.literal l)) (var : ∀ name, P (.var name))
    (unary : ∀ op e, P e → P (.unary op e)) (binary : ∀ op l r, P l → P r → P (.binary op l r))
    (call : ∀ f args, P f → (∀ a ∈ args, P a) → P (.call f args))
    (list : ∀ items, (∀ i ∈ items, P i) → P (.list items))
    (dict : ∀ pairs, (∀ p ∈ pairs, P p.1 ∧ P p.2) → P (.dict pairs))
    (index : ∀ e i, P e → P i → P (.index e i)) (member : ∀ e name, P e → P (.member e name)) (e : Expr) : P e :=
  @Expr.rec P (fun es => ∀ e ∈ es, P e) (fun ps => ∀ p ∈ ps, P p.1 ∧ P p.2) (fun p => P p.1 ∧ P p.2)
    literal var unary binary call list dict index member
    nofun (fun _ _ he hes => List.forall_mem_cons.mpr ⟨he, hes⟩)
    nofun (fun _ _ hp hps => List.forall_mem_cons.mpr ⟨hp, hps⟩)
    (fun _ _ hk hv => ⟨hk, hv⟩) e

/-! ## The tokens of a written expression -/

/-- Items with commas between them. -/
def separated (ws : List (List TokenKind)) : List TokenKind := List.intercalate [.symbol .comma] ws

mutual

/-- **The tokens of the written form.** -/
def printed : Expr → List TokenKind
  | literal l => [l.token]
  | var name => [.ident name]
  | unary op e => bracketed .leftParen (op.token :: e.printed) .rightParen
  | binary op left right => bracketed .leftParen (left.printed ++ op.token :: right.printed) .rightParen
  | call callee args => callee.printed ++ bracketed .leftParen (separated (printedAll args)) .rightParen
  | list items => bracketed .leftBracket (separated (printedAll items)) .rightBracket
  | dict pairs => bracketed .leftBrace (separated (printedPairs pairs)) .rightBrace
  | index e i => e.printed ++ bracketed .leftBracket i.printed .rightBracket
  | member e name => e.printed ++ [.symbol .dot, .ident name]

/-- The tokens of each of some expressions. -/
def printedAll : List Expr → List (List TokenKind)
  | [] => []
  | e :: rest => e.printed :: printedAll rest

/-- The tokens of each of some entries. -/
def printedPairs : List (Expr × Expr) → List (List TokenKind)
  | [] => []
  | (k, v) :: rest => (k.printed ++ .symbol .colon :: v.printed) :: printedPairs rest

end

mutual

/-- **The literals and names of an expression**, as tokens. -/
def leaves : Expr → List TokenKind
  | literal l => [l.token]
  | var name => [.ident name]
  | unary _ e => e.leaves
  | binary _ left right => left.leaves ++ right.leaves
  | call callee args => callee.leaves ++ leavesAll args
  | list items => leavesAll items
  | dict pairs => leavesPairs pairs
  | index e i => e.leaves ++ i.leaves
  | member e name => e.leaves ++ [.ident name]

/-- Those of some expressions. -/
def leavesAll : List Expr → List TokenKind
  | [] => []
  | e :: rest => e.leaves ++ leavesAll rest

/-- Those of some entries. -/
def leavesPairs : List (Expr × Expr) → List TokenKind
  | [] => []
  | (k, v) :: rest => k.leaves ++ v.leaves ++ leavesPairs rest

end

mutual

/-- How deep brackets and unary operators nest in the written form. Brackets with nothing between them do not
    count. -/
def nesting : Expr → Nat
  | literal _ | var _ => 0
  | unary _ e => e.nesting + 2
  | binary _ left right => max left.nesting right.nesting + 1
  | call callee args => max callee.nesting (nestingAll args)
  | list items => nestingAll items
  | dict pairs => nestingPairs pairs
  | index e i => max e.nesting (i.nesting + 1)
  | member e _ => e.nesting

/-- The same for some expressions between brackets. -/
def nestingAll : List Expr → Nat
  | [] => 0
  | e :: rest => max (e.nesting + 1) (nestingAll rest)

/-- The same for some entries between brackets. -/
def nestingPairs : List (Expr × Expr) → Nat
  | [] => 0
  | (k, v) :: rest => max (max k.nesting v.nesting + 1) (nestingPairs rest)

end

/-- **The levels of the written form**: the expression itself, and those that nest in it. -/
def levels (e : Expr) : Nat := e.nesting + 1

theorem renderAll_eq (es : List Expr) : renderAll es = es.map render := by
  induction es with
  | nil => rfl
  | cons e es ih => rw [renderAll, ih, List.map_cons]

theorem renderPairs_eq (ps : List (Expr × Expr)) :
    renderPairs ps = ps.map fun p => p.1.render ++ ": " ++ p.2.render := by
  induction ps with
  | nil => rfl
  | cons p ps ih => rw [renderPairs, ih, List.map_cons]

theorem printedAll_eq (es : List Expr) : printedAll es = es.map printed := by
  induction es with
  | nil => rfl
  | cons e es ih => rw [printedAll, ih, List.map_cons]

theorem printedPairs_eq (ps : List (Expr × Expr)) :
    printedPairs ps = ps.map fun p => p.1.printed ++ .symbol .colon :: p.2.printed := by
  induction ps with
  | nil => rfl
  | cons p ps ih => rw [printedPairs, ih, List.map_cons]

theorem leavesAll_eq (es : List Expr) : leavesAll es = es.flatMap leaves := by
  induction es with
  | nil => rfl
  | cons e es ih => rw [leavesAll, ih, List.flatMap_cons]

theorem leavesPairs_eq (ps : List (Expr × Expr)) : leavesPairs ps = ps.flatMap fun p => p.1.leaves ++ p.2.leaves := by
  induction ps with
  | nil => rfl
  | cons p ps ih => rw [leavesPairs, ih, List.flatMap_cons]

theorem nesting_lt_all {e : Expr} {es : List Expr} (h : e ∈ es) : e.nesting < nestingAll es := by
  induction es with
  | nil => nomatch h
  | cons e' es ih =>
    rw [nestingAll]
    rcases List.mem_cons.mp h with rfl | h
    · omega
    · have := ih h
      omega

theorem nesting_lt_pairs {p : Expr × Expr} {ps : List (Expr × Expr)} (h : p ∈ ps) :
    p.1.nesting < nestingPairs ps ∧ p.2.nesting < nestingPairs ps := by
  induction ps with
  | nil => nomatch h
  | cons p' ps ih =>
    rw [nestingPairs]
    rcases List.mem_cons.mp h with rfl | h
    · omega
    · have := ih h
      omega

/-! ## Those tokens write the tree -/

theorem commas_separated (ws : List (List TokenKind)) : Commas ws (separated ws) := by
  unfold separated
  induction ws with
  | nil => exact .nil
  | cons w ws ih =>
    cases ws with
    | nil =>
      rw [List.intercalate_singleton]
      exact .last w
    | cons w' ws =>
      rw [List.intercalate_cons_cons, List.append_assoc]
      exact .cons ih

/-- Expressions with their tokens. -/
def withTokens (es : List Expr) : List (List TokenKind × Expr) := es.map fun e => (e.printed, e)

/-- Entries with their tokens. -/
def pairsWithTokens (ps : List (Expr × Expr)) : List ((List TokenKind × Expr) × (List TokenKind × Expr)) :=
  ps.map fun p => ((p.1.printed, p.1), (p.2.printed, p.2))

theorem commas_all (es : List Expr) : Commas ((withTokens es).map Prod.fst) (separated (printedAll es)) := by
  have hfst : (withTokens es).map Prod.fst = printedAll es := by
    unfold withTokens
    rw [List.map_map, printedAll_eq]
    rfl
  rw [hfst]
  exact commas_separated _

theorem commas_pairs (ps : List (Expr × Expr)) :
    Commas ((pairsWithTokens ps).map fun i => i.1.1 ++ .symbol .colon :: i.2.1) (separated (printedPairs ps)) := by
  have hfst : ((pairsWithTokens ps).map fun i => i.1.1 ++ .symbol .colon :: i.2.1) = printedPairs ps := by
    unfold pairsWithTokens
    rw [List.map_map, printedPairs_eq]
    rfl
  rw [hfst]
  exact commas_separated _

theorem withTokens_snd (es : List Expr) : (withTokens es).map Prod.snd = es := by
  unfold withTokens
  rw [List.map_map]
  exact List.map_id es

theorem pairsWithTokens_snd (ps : List (Expr × Expr)) : (pairsWithTokens ps).map (fun i => (i.1.2, i.2.2)) = ps := by
  unfold pairsWithTokens
  rw [List.map_map]
  exact List.map_id ps

/-- The items between brackets are renderings one level further in. -/
theorem renderings_all {n : Nat} {es : List Expr} (ih : ∀ e ∈ es, ∀ n, e.nesting ≤ n → Rendering n 6 e.printed e)
    (h : nestingAll es ≤ n) :
    (withTokens es ≠ [] → n - 1 < n) ∧ ∀ i ∈ withTokens es, Rendering (n - 1) 0 i.1 i.2 := by
  refine ⟨fun hne => ?_, fun i hi => ?_⟩
  · obtain ⟨i, hi⟩ := List.exists_mem_of_ne_nil _ hne
    obtain ⟨e, he, -⟩ := List.mem_map.mp hi
    have := nesting_lt_all he
    omega
  · obtain ⟨e, he, rfl⟩ := List.mem_map.mp hi
    have := nesting_lt_all he
    exact (ih e he (n - 1) (by omega)).loosen (by omega)

/-- **The tokens of the written form are a rendering of the tree**, which may stand before any suffix. -/
theorem rendering_printed (e : Expr) : ∀ n, e.nesting ≤ n → Rendering n 6 e.printed e := by
  induction e using induct with
  | literal l => exact fun _ _ => .literal l
  | var name => exact fun _ _ => .var name
  | unary op e ih =>
    intro n hn
    rw [nesting] at hn
    rw [printed]
    -- the parentheses are one level, and the operator in them is another
    refine .group (m := n - 1) (by omega) (.unary (m := n - 2) op (by omega) (by omega) ?_)
    exact (ih (n - 2) (by omega)).loosen (by omega)
  | binary op l r ihl ihr =>
    intro n hn
    have := op.rank_le
    rw [nesting] at hn
    rw [printed]
    refine .group (m := n - 1) (by omega) (.binary op (by omega) ?_ ?_)
    · exact (ihl (n - 1) (by omega)).loosen (by omega)
    · exact (ihr (n - 1) (by omega)).loosen (by omega)
  | call f args ihf iha =>
    intro n hn
    rw [nesting] at hn
    obtain ⟨hm, hargs⟩ := renderings_all (n := n) iha (by omega)
    have hcall := Rendering.call (Nat.le_refl 6) (ihf n (by omega)) hm hargs (commas_all args)
    rwa [withTokens_snd] at hcall
  | list items ih =>
    intro n hn
    obtain ⟨hm, hitems⟩ := renderings_all (n := n) ih hn
    have hlist := Rendering.list (p := 6) hm hitems (commas_all items)
    rwa [withTokens_snd] at hlist
  | dict pairs ih =>
    intro n hn
    have hdict := Rendering.dict (n := n) (m := n - 1) (p := 6) (fun hne => ?_) (fun i hi => ?_) (fun i hi => ?_)
      (commas_pairs pairs)
    · rwa [pairsWithTokens_snd] at hdict
    · obtain ⟨i, hi⟩ := List.exists_mem_of_ne_nil _ hne
      obtain ⟨p, hp, -⟩ := List.mem_map.mp hi
      have : p.1.nesting < n := Nat.lt_of_lt_of_le (nesting_lt_pairs hp).1 hn
      omega
    · obtain ⟨p, hp, rfl⟩ := List.mem_map.mp hi
      have : p.1.nesting < n := Nat.lt_of_lt_of_le (nesting_lt_pairs hp).1 hn
      exact ((ih p hp).1 (n - 1) (by omega)).loosen (by omega)
    · obtain ⟨p, hp, rfl⟩ := List.mem_map.mp hi
      have : p.2.nesting < n := Nat.lt_of_lt_of_le (nesting_lt_pairs hp).2 hn
      exact ((ih p hp).2 (n - 1) (by omega)).loosen (by omega)
  | index e i ihe ihi =>
    intro n hn
    rw [nesting] at hn
    rw [printed]
    refine .index (m := n - 1) (by omega) (ihe n (by omega)) (by omega) ?_
    exact (ihi (n - 1) (by omega)).loosen (by omega)
  | member e name ih =>
    intro n hn
    rw [nesting] at hn
    rw [printed]
    exact .member (by omega) (ih n hn) name

/-! ## The text is read as those tokens -/

open Scanner

/-- **A leaf that is read back from its written form.** -/
def Readable : TokenKind → Prop
  | .ident name => IsWord name.toList ∧ wordKind name = .ident name
  | .int n => 0 ≤ n.toInt
  | .float x => Decimal.Unsigned x ∧ (Decimal.Binary.ofFloat? x).isSome ∧
      Decimal.readFloat (Decimal.Layout.value.write x).toList = some x
  | .str t => ∀ c ∈ t.toList, IsPlain c
  | _ => True

variable {rest : List Char}

theorem lexes_literal {l : Literal} (hl : Readable l.token) (h : Breaks rest) :
    Lexes l.render.toList rest [l.token] := by
  cases l with
  | nil => exact (reads_keyword .nil h.apart).lexes
  | bool b =>
    cases b with
    | true => exact (reads_keyword .true_ h.apart).lexes
    | false => exact (reads_keyword .false_ h.apart).lexes
  | int n =>
    have htext : (Literal.int n).render.toList = Decimal.digits n.toInt.toNat := Decimal.toString_toList hl
    rw [htext]
    exact (reads_int (Decimal.isDigits_digits _) h (Decimal.readInt64_digits hl)).lexes
  | float x =>
    obtain ⟨hx, hfinite, hread⟩ := hl
    obtain ⟨d, hd⟩ := Option.isSome_iff_exists.mp hfinite
    obtain ⟨ds, fs, hds, hfs, htext⟩ := Decimal.write_value_unsigned hx hd
    show Lexes (Decimal.Layout.value.write x).toList _ _
    rw [htext] at hread ⊢
    exact (reads_float hds hfs.2 h.apart (fun _ => h.pointFree) hread).lexes
  | str t =>
    have hquote := (reads_quote t rest).lexes
    rwa [reread_eq_iff.mpr hl] at hquote

theorem lexes_name {name : String} (hname : Readable (.ident name)) (h : Breaks rest) :
    Lexes name.toList rest [.ident name] := by
  have hword := (reads_word hname.1 h.apart).lexes
  rwa [String.ofList_toList, hname.2] at hword

/-- A text between brackets. -/
theorem lexes_bracketed {a b : Char} {left right : Symbol} {cs : List Char} {ks : List TokenKind}
    (ha : ∀ rest, Lexes [a] rest [.symbol left]) (hb : ∀ rest, Lexes [b] rest [.symbol right])
    (h : Lexes cs (b :: rest) ks) : Lexes (a :: (cs ++ [b])) rest (bracketed left ks right) :=
  (ha (cs ++ [b] ++ rest)).append (h.append (hb rest))

theorem lexes_parens {cs : List Char} {ks : List TokenKind} (h : Lexes cs (')' :: rest) ks) :
    Lexes ('(' :: (cs ++ [')'])) rest (bracketed .leftParen ks .rightParen) :=
  lexes_bracketed (lexes_mark .leftParen (by decide)) (lexes_mark .rightParen (by decide)) h

theorem lexes_brackets {cs : List Char} {ks : List TokenKind} (h : Lexes cs (']' :: rest) ks) :
    Lexes ('[' :: (cs ++ [']'])) rest (bracketed .leftBracket ks .rightBracket) :=
  lexes_bracketed (lexes_mark .leftBracket (by decide)) (lexes_mark .rightBracket (by decide)) h

theorem lexes_braces {cs : List Char} {ks : List TokenKind} (h : Lexes cs ('}' :: rest) ks) :
    Lexes ('{' :: (cs ++ ['}'])) rest (bracketed .leftBrace ks .rightBrace) :=
  lexes_bracketed (lexes_mark .leftBrace (by decide)) (lexes_mark .rightBrace (by decide)) h

theorem lexes_comma : Lexes [',', ' '] rest [.symbol .comma] :=
  Lexes.append (lexes_mark .comma (by decide) _) lexes_blank

/-- Texts with commas between them. -/
theorem lexes_commas {α : Type} {text : α → String} {kinds : α → List TokenKind} {items : List α}
    (hitems : ∀ i ∈ items, ∀ rest, Breaks rest → Lexes (text i).toList rest (kinds i)) (h : Breaks rest) :
    Lexes (Outline.commas (items.map text)).toList rest (separated (items.map kinds)) := by
  unfold Outline.commas separated
  induction items with
  | nil => exact .nil
  | cons i items ih =>
    obtain ⟨hi, hitems⟩ := List.forall_mem_cons.mp hitems
    cases items with
    | nil =>
      simp only [List.map_cons, List.map_nil, String.intercalate_singleton, List.intercalate_singleton]
      exact hi rest h
    | cons j items =>
      -- the first item is read before a comma, the others before `rest`
      have hcomma : Breaks (',' :: ' ' :: ((String.intercalate ", " ((j :: items).map text)).toList ++ rest)) :=
        .other (by decide) (by decide)
      simp only [List.map_cons, String.intercalate_cons_cons, List.intercalate_cons_cons, String.toList_append]
      rw [List.append_assoc, List.append_assoc]
      exact (hi _ hcomma).append (lexes_comma.append (ih hitems))

/-- The brackets, blanks, commas and colons of written expressions break off what is before them. -/
theorem breaks_mark {c : Char} (hc : c ∈ [' ', '(', ')', '[', ']', '}', ',', ':']) (rest : List Char) :
    Breaks (c :: rest) := by
  have hall : [' ', '(', ')', '[', ']', '}', ',', ':'].all (fun c => c != '.' && !isWordChar c) = true := by decide
  have hmark := List.all_eq_true.mp hall c hc
  simp only [Bool.and_eq_true, bne_iff_ne, Bool.not_eq_true'] at hmark
  exact .other hmark.1 hmark.2

theorem lexes_unary (op : UnaryOp) : Lexes op.text.toList rest [op.token] := by
  cases op with
  | neg => exact lexes_mark .minus (by decide) rest
  | not => exact Lexes.append (reads_keyword .not (breaks_mark (by decide) rest).apart).lexes lexes_blank

/-- **The text of an expression is read as its tokens**, wherever a word would be broken off. -/
theorem lexes_render (e : Expr) : (∀ k ∈ e.leaves, Readable k) → ∀ rest, Breaks rest →
    Lexes e.render.toList rest e.printed := by
  induction e using induct with
  | literal l => exact fun hk _ h => lexes_literal (hk _ List.mem_cons_self) h
  | var name => exact fun hk _ h => lexes_name (hk _ List.mem_cons_self) h
  | unary op e ih =>
    intro hk rest h
    have htext : (unary op e).render.toList = '(' :: (op.text.toList ++ e.render.toList ++ [')']) := by
      simp [render]
    rw [htext, printed]
    exact lexes_parens ((lexes_unary op).append (ih hk _ (breaks_mark (by decide) rest)))
  | binary op l r ihl ihr =>
    intro hk rest h
    have htext : (binary op l r).render.toList =
        '(' :: (l.render.toList ++ ([' '] ++ (op.text.toList ++ ([' '] ++ r.render.toList))) ++ [')']) := by
      simp [render]
    obtain ⟨hkl, hkr⟩ := List.forall_mem_append.mp hk
    have hright : Lexes ([' '] ++ r.render.toList) (')' :: rest) r.printed :=
      lexes_blank.append (ihr hkr _ (breaks_mark (by decide) rest))
    rw [htext, printed]
    refine lexes_parens ((ihl hkl _ (breaks_mark (by decide) _)).append ?_)
    exact lexes_blank.append ((reads_operator op).lexes.append hright)
  | call f args ihf iha =>
    intro hk rest h
    have htext : (call f args).render.toList =
        f.render.toList ++ '(' :: ((Outline.commas (renderAll args)).toList ++ [')']) := by
      simp [render]
    obtain ⟨hkf, hka⟩ := List.forall_mem_append.mp hk
    rw [leavesAll_eq] at hka
    rw [htext, printed, renderAll_eq, printedAll_eq]
    refine (ihf hkf _ (breaks_mark (by decide) _)).append (lexes_parens (lexes_commas ?_ (breaks_mark (by decide) _)))
    exact fun a ha => iha a ha fun k hk => hka k (List.mem_flatMap.mpr ⟨a, ha, hk⟩)
  | list items ih =>
    intro hk rest h
    have htext : (list items).render.toList = '[' :: ((Outline.commas (renderAll items)).toList ++ [']']) := by
      simp [render]
    rw [leaves, leavesAll_eq] at hk
    rw [htext, printed, renderAll_eq, printedAll_eq]
    refine lexes_brackets (lexes_commas ?_ (breaks_mark (by decide) _))
    exact fun i hi => ih i hi fun k hki => hk k (List.mem_flatMap.mpr ⟨i, hi, hki⟩)
  | dict pairs ih =>
    intro hk rest h
    have htext : (dict pairs).render.toList = '{' :: ((Outline.commas (renderPairs pairs)).toList ++ ['}']) := by
      simp [render]
    rw [leaves, leavesPairs_eq] at hk
    rw [htext, printed, renderPairs_eq, printedPairs_eq]
    refine lexes_braces (lexes_commas (fun p hp rest h => ?_) (breaks_mark (by decide) _))
    have hentry : (p.1.render ++ ": " ++ p.2.render).toList =
        p.1.render.toList ++ ([':'] ++ ([' '] ++ p.2.render.toList)) := by
      simp
    obtain ⟨hkey, hvalue⟩ := List.forall_mem_append.mp fun k hkp => hk k (List.mem_flatMap.mpr ⟨p, hp, hkp⟩)
    have hcolon : ∀ rest, Lexes [':'] rest [.symbol .colon] := lexes_mark .colon (by decide)
    have hright := (hcolon _).append (lexes_blank.append ((ih p hp).2 hvalue _ h))
    rw [hentry]
    exact ((ih p hp).1 hkey _ (breaks_mark (by decide) _)).append hright
  | index e i ihe ihi =>
    intro hk rest h
    have htext : (index e i).render.toList = e.render.toList ++ '[' :: (i.render.toList ++ [']']) := by
      simp [render]
    obtain ⟨hke, hki⟩ := List.forall_mem_append.mp hk
    rw [htext, printed]
    refine (ihe hke _ (breaks_mark (by decide) _)).append (lexes_brackets ?_)
    exact ihi hki _ (breaks_mark (by decide) _)
  | member e name ih =>
    intro hk rest h
    have htext : (member e name).render.toList = e.render.toList ++ (['.'] ++ name.toList) := by
      simp [render]
    obtain ⟨hke, hkname⟩ := List.forall_mem_append.mp hk
    have hname : Readable (.ident name) := hkname _ List.mem_cons_self
    -- a point after a number belongs to it unless a word follows
    have hpoint : Breaks ('.' :: (name.toList ++ rest)) := by
      obtain ⟨c, cs, heq, hc, -⟩ := hname.1
      rw [heq]
      exact .member hc
    have hdot : ∀ rest, Lexes ['.'] rest [.symbol .dot] := lexes_mark .dot (by decide)
    rw [htext, printed]
    exact (ih hke _ hpoint).append ((hdot _).append (lexes_name hname h))

/-! ## Both ends of the text -/

theorem solid_string {t : String} (h : Solid t.toList) (front : String) : Solid (front ++ t).toList := by
  rw [String.toList_append]
  exact h.append _

theorem solid_literal {l : Literal} (hl : Readable l.token) : Solid l.render.toList := by
  have hdigits {ds : List Char} (hds : Decimal.IsDigits ds) : Solid ds :=
    solid_word hds.1 fun d hd => isWordChar_of_digit (hds.2 d hd)
  cases l with
  | nil => exact ⟨['n', 'i'], 'l', rfl, by decide, by decide⟩
  | bool b =>
    cases b with
    | true => exact ⟨['t', 'r', 'u'], 'e', rfl, by decide, by decide⟩
    | false => exact ⟨['f', 'a', 'l', 's'], 'e', rfl, by decide, by decide⟩
  | int n =>
    have htext : (Literal.int n).render.toList = Decimal.digits n.toInt.toNat := Decimal.toString_toList hl
    rw [htext]
    exact hdigits (Decimal.isDigits_digits _)
  | float x =>
    obtain ⟨hx, hfinite, -⟩ := hl
    obtain ⟨d, hd⟩ := Option.isSome_iff_exists.mp hfinite
    obtain ⟨ds, fs, -, hfs, htext⟩ := Decimal.write_value_unsigned hx hd
    show Solid (Decimal.Layout.value.write x).toList
    rw [htext]
    exact ((hdigits hfs).append ['.']).append ds
  | str t => exact solid_string ⟨[], '"', rfl, by decide, by decide⟩ _

theorem solid_name {name : String} (hname : Readable (.ident name)) : Solid name.toList := by
  refine solid_word ?_ hname.1.forall_mem
  obtain ⟨c, cs, heq, -⟩ := hname.1
  rw [heq]
  nofun

/-- A written expression does not end like a fence. -/
theorem solid_render {e : Expr} (h : ∀ k ∈ e.leaves, Readable k) : Solid e.render.toList := by
  have hparen : Solid ")".toList := ⟨[], ')', rfl, by decide, by decide⟩
  have hbracket : Solid "]".toList := ⟨[], ']', rfl, by decide, by decide⟩
  cases e with
  | literal l => exact solid_literal (h _ List.mem_cons_self)
  | var name => exact solid_name (h _ List.mem_cons_self)
  | unary | binary | call => exact solid_string hparen _
  | list | index => exact solid_string hbracket _
  | dict => exact solid_string ⟨[], '}', rfl, by decide, by decide⟩ _
  | member e name => exact solid_string (solid_name (h _ (List.mem_append_right _ List.mem_cons_self))) _

/-- **The lexer reads the text of an expression as its tokens.** -/
theorem scans_render {e : Expr} (h : ∀ k ∈ e.leaves, Readable k) :
    ∃ ts s', (Scanner.start e.render.toList).Scans ts s' ∧ ts.map Token.kind = e.printed ∧ s'.rest = [] :=
  (lexes_render e h [] .nil).start (solid_render h)

/-! ## Leaves of parsed trees -/

theorem Commas.subset {ws : List (List TokenKind)} {ts w : List TokenKind} (h : Commas ws ts) (hw : w ∈ ws) :
    w ⊆ ts := by
  induction h with
  | nil => nomatch hw
  | last w' =>
    obtain rfl := List.mem_singleton.mp hw
    exact fun _ hk => hk
  | cons _ ih =>
    rcases List.mem_cons.mp hw with rfl | hw
    · exact fun _ hk => List.mem_append_left _ hk
    · exact fun _ hk => List.mem_append_right _ (List.mem_cons_of_mem _ (ih hw hk))

theorem subset_bracketed (left right : Symbol) (ts : List TokenKind) : ts ⊆ bracketed left ts right :=
  fun _ hk => List.mem_cons_of_mem _ (List.mem_append_left _ hk)

/-- The leaves of some expressions are those of what they are written with. -/
theorem leavesAll_subset {items : List (List TokenKind × Expr)} {ts : List TokenKind}
    (ih : ∀ i ∈ items, i.2.leaves ⊆ i.1) (hs : Commas (items.map Prod.fst) ts) :
    leavesAll (items.map Prod.snd) ⊆ ts := by
  intro k hk
  rw [leavesAll_eq, List.flatMap_map] at hk
  obtain ⟨i, hi, hk⟩ := List.mem_flatMap.mp hk
  exact hs.subset (List.mem_map_of_mem hi) (ih i hi hk)

/-- **A literal or a name of a tree is a token of every rendering.** -/
theorem Rendering.leaves_subset {n p : Nat} {ts : List TokenKind} {e : Expr} (h : Rendering n p ts e) :
    e.leaves ⊆ ts := by
  induction h with
  | literal l => exact fun _ hk => hk
  | var name => exact fun _ hk => hk
  | group _ _ ih => exact fun _ hk => subset_bracketed _ _ _ (ih hk)
  | list _ _ hs ih => exact fun _ hk => subset_bracketed _ _ _ (leavesAll_subset ih hs hk)
  | @dict n m p entries ts _ _ _ hs ihk ihv =>
    -- a leaf of an entry stands before its colon or after it
    intro k hk
    rw [leaves, leavesPairs_eq, List.flatMap_map] at hk
    obtain ⟨i, hi, hk⟩ := List.mem_flatMap.mp hk
    refine subset_bracketed _ _ _ (hs.subset (List.mem_map_of_mem hi) ?_)
    rcases List.mem_append.mp hk with hk | hk
    · exact List.mem_append_left _ (ihk i hi hk)
    · exact List.mem_append_right _ (List.mem_cons_of_mem _ (ihv i hi hk))
  | call _ _ _ _ hs ih iha =>
    intro k hk
    rcases List.mem_append.mp hk with hk | hk
    · exact List.mem_append_left _ (ih hk)
    · exact List.mem_append_right _ (subset_bracketed _ _ _ (leavesAll_subset iha hs hk))
  | index _ _ _ _ ih ihi =>
    intro k hk
    rcases List.mem_append.mp hk with hk | hk
    · exact List.mem_append_left _ (ih hk)
    · exact List.mem_append_right _ (subset_bracketed _ _ _ (ihi hk))
  | member _ _ name ih =>
    intro k hk
    rcases List.mem_append.mp hk with hk | hk
    · exact List.mem_append_left _ (ih hk)
    · exact List.mem_append_right _ (List.mem_cons_of_mem _ hk)
  | unary op _ _ _ ih => exact fun _ hk => List.mem_cons_of_mem _ (ih hk)
  | binary op _ _ _ ihl ihr =>
    intro k hk
    rcases List.mem_append.mp hk with hk | hk
    · exact List.mem_append_left _ (ihl hk)
    · exact List.mem_append_right _ (List.mem_cons_of_mem _ (ihr hk))

/-- What a parse makes of a tree and the cursor after it. -/
def accept (c : Cursor) (e : Expr) : Except Error Expr :=
  let rest := { c with rest := c.rest.dropWhile fun t => t.kind.isNewline }
  if Cursor.isEof rest.peek then pure e
  else throw (.parse rest.peek.pos (.trailingInput rest.peek.kind))

theorem parse_of_tokenize {source : String} {ts : List Token} {s' : Scanner}
    (h : Token.tokenize source = .ok (ts ++ [⟨.eof, "", s'.pos⟩])) :
    parse source = (parser (.before ts s')).1 >>= accept (parser (.before ts s')).2 := by
  unfold parse
  rw [h, ← Cursor.start_eq_before]
  rfl

/-- The lexer and the parser at work in a parse. -/
theorem parse_eq_ok {source : String} {e : Expr} (h : parse source = .ok e) :
    ∃ ts s', (Scanner.start source.toList).Scans ts s' ∧ (parser (.before ts s')).1 = .ok e := by
  cases htokens : Token.tokenize source with
  | error err =>
    unfold parse at h
    rw [htokens] at h
    nomatch h
  | ok tokens =>
    obtain ⟨ts, s', hs, -, rfl⟩ := Token.tokenize_eq_ok_iff.mp htokens
    rw [parse_of_tokenize htokens] at h
    refine ⟨ts, s', hs, ?_⟩
    cases hparse : (parser (.before ts s')).1 with
    | error err =>
      rw [hparse] at h
      nomatch h
    | ok e' =>
      rw [hparse] at h
      replace h : accept _ e' = .ok e := h
      unfold accept at h
      dsimp only at h
      split at h
      · exact h
      · nomatch h

/-- **The leaves of a parsed tree are tokens that the lexer yields.** -/
theorem leaves_lexical {source : String} {e : Expr} (h : parse source = .ok e) : ∀ k ∈ e.leaves, Lexical k := by
  obtain ⟨ts, s', hs, hparse⟩ := parse_eq_ok h
  obtain ⟨ks, hreads, hrendering⟩ := (Sound.all _).expression 0 (by decide) rfl (Prod.ext hparse rfl)
  intro k hk
  have hmem : k ∈ ts.map Token.kind := by
    have hkinds : (Cursor.before ts s').rest.map Token.kind = _ := hreads.kinds
    show k ∈ (Cursor.before ts s').rest.map Token.kind
    rw [hkinds]
    exact List.mem_append_left _ (hrendering.leaves_subset hk)
  obtain ⟨t, ht, rfl⟩ := List.mem_map.mp hmem
  exact hs.lexical t ht

/-! ## Reading back -/

/-- **Tokens that write a tree are parsed to it.** -/
theorem parse_of_scans {source : String} {e : Expr} {ts : List Token} {s' : Scanner} {n : Nat}
    (hs : (Scanner.start source.toList).Scans ts s') (hrest : s'.rest = [])
    (h : Rendering n 0 (ts.map Token.kind) e) (hn : n < maxNesting) : parse source = .ok e := by
  have htokens : Token.tokenize source = .ok (ts ++ [⟨.eof, "", s'.pos⟩]) :=
    Token.tokenize_eq_ok_iff.mpr ⟨ts, s', hs, hrest, rfl⟩
  obtain ⟨c', hreads, hend⟩ := (Cursor.before ts s').reads_all
  have hstop : c'.stop = ⟨.eof, "", s'.pos⟩ := hreads.stop_eq
  have hpeek : c'.peek = ⟨.eof, "", s'.pos⟩ := by
    unfold Cursor.peek
    rw [hend, hstop]
    rfl
  -- at the end of input nothing goes on with the expression
  have hends : Ends 0 c'.peek.kind := by
    rw [hpeek]
    exact ⟨fun op hop => absurd hop.symm op.token_ne_eof, fun _ => ⟨nofun, nofun, nofun⟩⟩
  have hparse : parser (.before ts s') = (.ok e, c') := by
    -- the whole expression is a level of its own
    refine (h.read (d := 1) (Nat.zero_le 7) hn).expression (Nat.zero_lt_of_lt hn) hreads hends ?_
    rw [List.length_map]
    show 16 * ts.length + 2 ≤ 16 * (ts.length + 2)
    omega
  rw [parse_of_tokenize htokens, hparse]
  show accept c' e = .ok e
  unfold accept Cursor.peek
  rw [hend, hstop]
  rfl

/-- **A written expression is read back as the same tree**, if a parse gave it, its floats are finite and read back
    from their digits, its strings need no escapes but the short ones, and its written form nests within the
    bound. -/
theorem parse_render {source : String} {e : Expr} (h : parse source = .ok e)
    (hfinite : ∀ x, .float x ∈ e.leaves → (Decimal.Binary.ofFloat? x).isSome)
    (hread : ∀ x, .float x ∈ e.leaves → Decimal.readFloat (Decimal.Layout.value.write x).toList = some x)
    (hplain : ∀ t, .str t ∈ e.leaves → ∀ c ∈ t.toList, IsPlain c) (hlevels : e.levels ≤ maxNesting) :
    parse e.render = .ok e := by
  have hreadable : ∀ k ∈ e.leaves, Readable k := by
    intro k hk
    have hlexical := leaves_lexical h k hk
    cases k with
    | ident name => exact hlexical
    | int n => exact hlexical
    | float x => exact ⟨hlexical, hfinite x hk, hread x hk⟩
    | str t => exact hplain t hk
    | _ => trivial
  obtain ⟨ts, s', hs, hkinds, hrest⟩ := scans_render hreadable
  have hrendering := (rendering_printed e e.nesting (Nat.le_refl _)).loosen (Nat.zero_le 6)
  rw [← hkinds] at hrendering
  exact parse_of_scans hs hrest hrendering hlevels

/-- A member of a number, an operator before a number, an entry with an escape in its key. -/
theorem parse_render_mixed :
    let e := Expr.call (.var "f") [.member (.literal (.float 1.5)) "m", .unary .neg (.literal (.int 2)),
      .dict [(.literal (.str "a\n"), .binary .mul (.var "x") (.literal .nil))]]
    parse "f(1.5.m, -2, \x7b'a\\n': x * nil\x7d)" = .ok e ∧ parse e.render = .ok e := by
  intro e
  have hparse : parse "f(1.5.m, -2, \x7b'a\\n': x * nil\x7d)" = .ok e := by
    have hchars : "f(1.5.m, -2, \x7b'a\\n': x * nil\x7d)".toList = ['f', '(', '1', '.', '5', '.', 'm', ',', ' ', '-',
      '2', ',', ' ', '{', '\'', 'a', '\\', 'n', '\'', ':', ' ', 'x', ' ', '*', ' ', 'n', 'i', 'l', '}', ')'] := by
      simp
    unfold parse Token.tokenize Token.scan
    rw [hchars]
    with_unfolding_all rfl
  have hleaves : e.leaves = [.ident "f", .float 1.5, .ident "m", .int 2, .str "a\n", .ident "x", .keyword .nil] := rfl
  have hfloat : ∀ x, .float x ∈ e.leaves → x = 1.5 := by
    intro x hx
    rw [hleaves] at hx
    simpa using hx
  refine ⟨hparse, parse_render hparse (fun x hx => ?_) (fun x hx => ?_) (fun t ht => ?_) (by decide)⟩
  · rw [hfloat x hx]
    with_unfolding_all rfl
  · rw [hfloat x hx]
    with_unfolding_all rfl
  · rw [hleaves] at ht
    obtain rfl : t = "a\n" := by simpa using ht
    have hchars : "a\n".toList = ['a', '\n'] := by simp
    rw [hchars]
    refine List.forall_mem_cons.mpr ⟨.inl ?_, List.forall_mem_singleton.mpr (.inr ?_)⟩
    · decide
    · decide

end Expr

end Helios
