import Helios.Proofs.Lexemes

/-!
# Arguments — command arguments split where they are written

`Expr.Argument` is the grammar of one command argument: operators of the unary level before an operand, which is a
literal, a name or a bracketed form with calls, indices and members after it. What opens a call or an index touches
what is called or indexed. Inside of brackets the grammar is that of whole expressions, and blanks do not matter.

The parser of an argument goes on as long as it can, so an argument is read as a whole before anything that does not
go on with it (`Cursor.Stops`): the next argument never does, as a blank stands before it. `Suffixed.read` is by
induction on the suffixes, with a statement about what comes after them; `Argument.read` adds the operators, and
`mapM_commandArg` reads one argument after the other.
-/

namespace Helios

/-- **A place where an argument ends**: there is no point, and no bracket that touches what is before it. -/
def Cursor.Stops (c : Cursor) : Prop :=
  (c.peek.kind = .symbol .leftParen ∨ c.peek.kind = .symbol .leftBracket → c.touches = false) ∧
    c.peek.kind ≠ .symbol .dot

namespace Expr

open Parse

/-! ## The grammar of arguments -/

/-- **An operand with its suffixes**: what opens a call or an index touches what is before it. Brackets nest at most
    `n` deep. -/
inductive Suffixed : Nat → List Lexeme → Expr → Prop
  | primary {n : Nat} {ls : List Lexeme} {e : Expr} (h : Rendering n 7 (ls.map Lexeme.kind) e) : Suffixed n ls e
  | call {n m : Nat} {ls inner : List Lexeme} {opener : Lexeme} {as : List TokenKind} {e : Expr}
    {args : List (List TokenKind × Expr)} (h : Suffixed n ls e) (htouches : opener.gap = [])
    (hkinds : (opener :: inner).map Lexeme.kind = bracketed .leftParen as .rightParen) (hm : args ≠ [] → m < n)
    (ha : ∀ i ∈ args, Rendering m 0 i.1 i.2) (hs : Commas (args.map Prod.fst) as) :
    Suffixed n (ls ++ opener :: inner) (.call e (args.map Prod.snd))
  | index {n m : Nat} {ls inner : List Lexeme} {opener : Lexeme} {is : List TokenKind} {e i : Expr}
    (h : Suffixed n ls e) (htouches : opener.gap = [])
    (hkinds : (opener :: inner).map Lexeme.kind = bracketed .leftBracket is .rightBracket) (hm : m < n)
    (hi : Rendering m 0 is i) : Suffixed n (ls ++ opener :: inner) (.index e i)
  | member {n : Nat} {ls suffix : List Lexeme} {e : Expr} {name : String} (h : Suffixed n ls e)
    (hkinds : suffix.map Lexeme.kind = [.symbol .dot, .ident name]) : Suffixed n (ls ++ suffix) (.member e name)

/-- **The grammar of command arguments**: unary operators before an operand. Binary operators stand inside of
    brackets only. -/
inductive Argument : Nat → List Lexeme → Expr → Prop
  | operand {n : Nat} {ls : List Lexeme} {e : Expr} (h : Suffixed n ls e) : Argument n ls e
  | unary {n m : Nat} {l : Lexeme} {ls : List Lexeme} {e : Expr} (op : UnaryOp) (hm : m < n) (hk : l.kind = op.token)
    (h : Argument m ls e) : Argument n (l :: ls) (.unary op e)

variable {n d f : Nat} {ls : List Lexeme} {e : Expr} {c c₁ c' : Cursor}

theorem Suffixed.rendering (h : Suffixed n ls e) : Rendering n 6 (ls.map Lexeme.kind) e := by
  induction h with
  | primary h => exact h.loosen (by decide)
  | call _ _ hkinds hm ha hs ih =>
    rw [List.map_append, hkinds]
    exact .call (Nat.le_refl 6) ih hm ha hs
  | index _ _ hkinds hm hi ih =>
    rw [List.map_append, hkinds]
    exact .index (Nat.le_refl 6) ih hm hi
  | member _ hkinds ih =>
    rw [List.map_append, hkinds]
    exact .member (Nat.le_refl 6) ih _

/-- **A command argument is an expression of unary level.** -/
theorem Argument.rendering (h : Argument n ls e) : Rendering n 5 (ls.map Lexeme.kind) e := by
  induction h with
  | operand h => exact h.rendering.loosen (by decide)
  | unary op hm hk _ ih =>
    rw [List.map_cons, hk]
    exact .unary op (Nat.le_refl 5) hm ih

/-- No expression starts with a point or ends with a colon. -/
theorem Rendering.both_ends {p : Nat} {ts : List TokenKind} (h : Rendering n p ts e) :
    (∃ k ks, ts = k :: ks ∧ k ≠ .symbol .dot) ∧ ∃ ks k, ts = ks ++ [k] ∧ k ≠ .symbol .colon := by
  have hbrackets (left right : Symbol) (ts : List TokenKind) (hleft : left ≠ .dot) (hright : right ≠ .colon) :
      (∃ k ks, bracketed left ts right = k :: ks ∧ k ≠ .symbol .dot) ∧
        ∃ ks k, bracketed left ts right = ks ++ [k] ∧ k ≠ .symbol .colon :=
    ⟨⟨_, _, rfl, fun heq => hleft (TokenKind.symbol.inj heq)⟩,
      ⟨.symbol left :: ts, _, rfl, fun heq => hright (TokenKind.symbol.inj heq)⟩⟩
  induction h with
  | literal l => exact ⟨⟨_, [], rfl, l.token_ne_symbol _⟩, ⟨[], _, rfl, l.token_ne_symbol _⟩⟩
  | var name => exact ⟨⟨_, [], rfl, nofun⟩, ⟨[], _, rfl, nofun⟩⟩
  | group => exact hbrackets _ _ _ nofun nofun
  | list => exact hbrackets _ _ _ nofun nofun
  | dict => exact hbrackets _ _ _ nofun nofun
  | @call _ _ _ ts as _ _ _ _ _ _ _ ih =>
    obtain ⟨⟨k, ks, rfl, hk⟩, -⟩ := ih
    obtain ⟨-, back, last, heq, hlast⟩ := hbrackets .leftParen .rightParen as nofun nofun
    exact ⟨⟨k, _, rfl, hk⟩, ⟨k :: ks ++ back, last, by rw [heq, List.append_assoc], hlast⟩⟩
  | @index _ _ _ ts is _ _ _ _ _ _ ih =>
    obtain ⟨⟨k, ks, rfl, hk⟩, -⟩ := ih
    obtain ⟨-, back, last, heq, hlast⟩ := hbrackets .leftBracket .rightBracket is nofun nofun
    exact ⟨⟨k, _, rfl, hk⟩, ⟨k :: ks ++ back, last, by rw [heq, List.append_assoc], hlast⟩⟩
  | member _ _ name ih =>
    obtain ⟨⟨k, ks, rfl, hk⟩, -⟩ := ih
    exact ⟨⟨k, _, rfl, hk⟩, ⟨k :: ks ++ [.symbol .dot], .ident name, by simp, nofun⟩⟩
  | unary op _ _ _ ih =>
    obtain ⟨-, ks, k, rfl, hk⟩ := ih
    exact ⟨⟨op.token, _, rfl, by cases op <;> nofun⟩, ⟨op.token :: ks, k, rfl, hk⟩⟩
  | binary op _ _ _ ihl ihr =>
    obtain ⟨⟨k, ks, rfl, hk⟩, -⟩ := ihl
    obtain ⟨-, ks', k', rfl, hk'⟩ := ihr
    exact ⟨⟨k, _, rfl, hk⟩, ⟨k :: ks ++ op.token :: ks', k', by simp, hk'⟩⟩

theorem Suffixed.ne_nil (h : Suffixed n ls e) : ls ≠ [] := by
  obtain ⟨⟨k, ks, heq, -⟩, -⟩ := h.rendering.both_ends
  rintro rfl
  nomatch heq

theorem Argument.head (h : Argument n ls e) : ∃ l rest, ls = l :: rest ∧ l.kind ≠ .symbol .dot := by
  obtain ⟨⟨k, ks, heq, hk⟩, -⟩ := h.rendering.both_ends
  obtain ⟨l, rest, rfl, rfl, -⟩ := List.map_eq_cons_iff.mp heq
  exact ⟨l, rest, rfl, hk⟩

theorem Argument.ne_nil (h : Argument n ls e) : ls ≠ [] := by
  obtain ⟨l, rest, rfl, -⟩ := h.head
  exact List.cons_ne_nil l rest

theorem Argument.last (h : Argument n ls e) : ∀ l ∈ ls.getLast?, l.kind ≠ .symbol .colon := by
  intro l hl
  obtain ⟨-, ks, k, heq, hk⟩ := h.rendering.both_ends
  have hlast := congrArg List.getLast? heq
  rw [List.getLast?_map, hl, List.getLast?_concat] at hlast
  exact Option.some.inj hlast ▸ hk

/-! ## Reading arguments -/

/-- **An operand is read with its suffixes**: what the parser of an argument gets by going on after them, it gets from
    the start of the operand. Each token costs at most 16 nested calls. -/
def OperandRead (d : Nat) (ls : List Lexeme) (e : Expr) : Prop :=
  ∀ ⦃g : Nat⦄ ⦃c c₁ c' : Cursor⦄ ⦃r : Expr⦄, 1 ≤ g → c.Follows ls c₁ →
    (∀ f, g ≤ f → postfixRest f d true e c₁ = (.ok r, c')) →
    ∀ f, g + 16 * ls.length ≤ f + 12 → ∃ a c₂, primary f d c = (.ok a, c₂) ∧ postfixRest f d true a c₂ = (.ok r, c')

namespace OperandRead

variable {ls ks : List Lexeme} {e e' : Expr} {d : Nat}

theorem of_read (hls : ls ≠ []) (h : Read d 7 (ls.map Lexeme.kind) e) : OperandRead d ls e := by
  intro g c c₁ c' r hg hr hrest f hf
  have hlength := List.length_pos_iff.mpr hls
  refine ⟨e, c₁, ?_, hrest f (by omega)⟩
  refine h.whole hr.reads (ends_primary _ (Nat.le_refl 7)) ?_
  rw [List.length_map]
  omega

/-- A suffix after what is read makes a longer operand. -/
theorem suffix (h : OperandRead d ls e) (hls : ls ≠ []) (hks : ks ≠ [])
    (hstep : ∀ c c₁ c' r f, c.prev ≠ none → c.Follows ks c₁ → 16 * ks.length ≤ f →
      postfixRest f d true e' c₁ = (.ok r, c') → postfixRest (f + 1) d true e c = (.ok r, c')) :
    OperandRead d (ls ++ ks) e' := by
  intro g c c₁ c' r hg hr hrest f hf
  obtain ⟨c₂, hr, htail⟩ := hr.of_append
  have hprev : c₂.prev ≠ none := hr.prev_ne_none (.inr hls)
  have hlength := List.length_pos_iff.mpr hks
  rw [List.length_append] at hf
  refine @h (g + 16 * ks.length) c c₂ c' r (by omega) hr (fun f' hf' => ?_) f (by omega)
  obtain ⟨f', rfl⟩ : ∃ f'', f' = f'' + 1 := ⟨f' - 1, by omega⟩
  exact hstep c₂ c₁ c' r f' hprev htail (by omega) (hrest f' (by omega))

/-- A suffix in brackets goes on where it touches what is before it. -/
theorem bracketed {opener : Lexeme} {inner : List Lexeme} {left right : Symbol} {ts : List TokenKind}
    (h : OperandRead d ls e) (hls : ls ≠ []) (htouches : opener.gap = [])
    (hkinds : (opener :: inner).map Lexeme.kind = bracketed left ts right)
    (hstep : ∀ c c₁ c' r f, c.peek.kind = .symbol left → c.touches = true → c.next.Reads ts c₁ →
      c₁.peek.kind = .symbol right → 16 * ts.length + 3 ≤ f →
      postfixRest f d true e' c₁.next = (.ok r, c') → postfixRest (f + 1) d true e c = (.ok r, c')) :
    OperandRead d (ls ++ opener :: inner) e' := by
  refine h.suffix hls (List.cons_ne_nil opener inner) fun c c₁ c' r f hprev hr hf hrest => ?_
  have hlength := congrArg List.length hkinds
  rw [List.length_map, length_bracketed] at hlength
  have hbrackets := hr.reads
  rw [hkinds] at hbrackets
  obtain ⟨hk, c₂, hin, hclose, rfl⟩ := hbrackets.of_bracketed
  exact hstep c c₂ c' r f hk ((hr.of_cons.2.1 hprev).mpr htouches) hin hclose (by omega) hrest

end OperandRead

theorem Suffixed.read (h : Suffixed n ls e) (hn : n + d ≤ maxNesting) : OperandRead d ls e := by
  induction h with
  | primary h => exact .of_read (Suffixed.primary h).ne_nil (h.read (Nat.le_refl 7) hn)
  | @call m ls inner opener as e args h htouches hkinds hm ha hs ih =>
    have hlevel : args ≠ [] → m + d < maxNesting := fun hne => by have := hm hne; omega
    refine ih.bracketed h.ne_nil htouches hkinds fun c c₁ c' r f hk htouch hin hclose hf hrest => ?_
    refine postfixRest_eq_ok_of_command.mpr (.inl ⟨hk, fun _ => htouch, _, _, ?_, hrest⟩)
    refine commaList_of_read .paren nofun hlevel ha (fun i hi => ?_) hs hin hclose hf
    have := hlevel (List.ne_nil_of_mem hi)
    exact (ha i hi).read (Nat.zero_le 7) (by omega)
  | @index m ls inner opener is e i h htouches hkinds hm hi ih =>
    refine ih.bracketed h.ne_nil htouches hkinds fun c c₁ c' r f hk htouch hin hclose hf hrest => ?_
    have hread : Read (d + 1) 0 is i := hi.read (Nat.zero_le 7) (by omega)
    have hexpr := hread.expression (by omega) hin (hclose ▸ Delimiter.bracket.ends 0) (f := f) (by omega)
    exact postfixRest_eq_ok_of_command.mpr (.inr (.inl ⟨hk, fun _ => htouch, i, c₁, hexpr, hclose, hrest⟩))
  | @member ls suffix e name h hkinds ih =>
    have hsuffix : suffix ≠ [] := by
      rintro rfl
      nomatch hkinds
    refine ih.suffix h.ne_nil hsuffix fun c c₁ c' r f _ hr _ hrest => ?_
    have hmember := hr.reads
    rw [hkinds] at hmember
    obtain ⟨hdot, hmember⟩ := hmember.of_cons
    obtain ⟨hname, hmember⟩ := hmember.of_cons
    cases hmember
    exact postfixRest_eq_ok_of_command.mpr (.inr (.inr (.inl ⟨hdot, name, hname, hrest⟩)))

/-- **An argument is read as a whole** before anything that does not go on with it. -/
theorem Argument.read (h : Argument n ls e) (hn : n + d ≤ maxNesting) (hr : c.Follows ls c₁) (hstops : c₁.Stops)
    (hf : 16 * ls.length ≤ f) : unaryOrPostfix f d true c = (.ok e, c₁) := by
  induction h generalizing c d f with
  | @operand n ls e h =>
    have hlength := List.length_pos_iff.mpr h.ne_nil
    obtain ⟨f, rfl⟩ : ∃ f', f = f' + 1 := ⟨f - 1, by omega⟩
    have hend : ∀ f', 1 ≤ f' → postfixRest f' d true e c₁ = (.ok e, c₁) := by
      intro f' hf'
      obtain ⟨f', rfl⟩ := Nat.exists_eq_add_of_le' hf'
      exact postfixRest_eq_ok_of_command.mpr (.inr (.inr (.inr ⟨⟨fun hk => ⟨rfl, hstops.1 hk⟩, hstops.2⟩, rfl, rfl⟩)))
    refine unaryOrPostfix_eq_ok.mpr (.inr ⟨?_, h.read hn (Nat.le_refl 1) hr hend f (by omega)⟩)
    obtain ⟨k, ks, heq, -, hunary⟩ := h.rendering.head
    have hreads := hr.reads
    rw [heq] at hreads
    rw [hreads.of_cons.1]
    exact hunary (Nat.le_refl 6)
  | @unary n m l ls e op hm hk h ih =>
    obtain ⟨hpeek, -, hr⟩ := hr.of_cons
    rw [List.length_cons] at hf
    obtain ⟨f, rfl⟩ : ∃ f', f = f' + 1 := ⟨f - 1, by omega⟩
    refine unaryOrPostfix_eq_ok.mpr (.inl ⟨op, e, ?_, by omega, ih (by omega) hr (by omega), rfl⟩)
    exact unaryOperator?_eq_some_iff.mpr (hpeek.trans hk)

/-! ## One argument after the other -/

/-- The next argument does not go on with the one before, as there is a blank between them. -/
theorem Argument.stops (h : Argument n ls e) (hr : c.Follows ls c₁) (hprev : c.prev ≠ none)
    (hgap : ∀ l ∈ ls.head?, l.gap ≠ []) : c.Stops := by
  obtain ⟨l, rest, rfl, hdot⟩ := h.head
  obtain ⟨hk, htouches, -⟩ := hr.of_cons
  refine ⟨fun _ => ?_, hk ▸ hdot⟩
  rw [Bool.eq_false_iff]
  exact fun htouch => hgap l rfl ((htouches hprev).mp htouch)

theorem commandArg_of_argument (h : Argument maxNesting ls e) (hr : c.Follows ls c₁) (hstops : c₁.Stops) :
    commandArg c = (.ok e, c₁) := by
  refine h.read (Nat.le_refl _) hr hstops ?_
  have hlength := hr.reads.length_eq
  rw [List.length_map] at hlength
  unfold Cursor.fuel
  omega

/-- **Arguments are read in order**, up to where the last one ends. -/
theorem mapM_commandArg {args : List (List Lexeme × Expr)} (hargs : ∀ a ∈ args, Argument maxNesting a.1 a.2)
    (hapart : ∀ a ∈ args.tail, ∀ l ∈ a.1.head?, l.gap ≠ []) (hr : c.Follows (args.flatMap Prod.fst) c')
    (hstops : c'.Stops) : (args.mapM fun _ => commandArg) c = (.ok (args.map Prod.snd), c') := by
  induction args generalizing c with
  | nil =>
    cases hr
    rfl
  | cons a args ih =>
    obtain ⟨ha, hargs⟩ := List.forall_mem_cons.mp hargs
    rw [List.flatMap_cons] at hr
    obtain ⟨c₁, hr, htail⟩ := hr.of_append
    have hprev : c₁.prev ≠ none := hr.prev_ne_none (.inr ha.ne_nil)
    have hstops₁ : c₁.Stops := by
      cases args with
      | nil =>
        cases htail
        exact hstops
      | cons b args =>
        rw [List.flatMap_cons] at htail
        obtain ⟨c₂, htail, -⟩ := htail.of_append
        exact (hargs b List.mem_cons_self).stops htail hprev (hapart b List.mem_cons_self)
    have hrest := ih hargs (fun b hb => hapart b (List.mem_of_mem_tail hb)) htail
    rw [List.mapM_cons]
    refine bind_eq_ok.mpr ⟨a.2, c₁, commandArg_of_argument ha hr hstops₁, ?_⟩
    exact bind_eq_ok.mpr ⟨_, c', hrest, rfl⟩

/-- The end of a text is the end of an argument. -/
theorem stops_of_rest_nil (hrest : c.rest = []) (hstop : c.stop.kind = .eof) : c.Stops ∧ c.peek.kind = .eof := by
  have hpeek : c.peek.kind = .eof := by
    unfold Cursor.peek
    rw [hrest]
    exact hstop
  unfold Cursor.Stops
  rw [hpeek]
  exact ⟨⟨nofun, nofun⟩, rfl⟩

/-- **Command arguments split where they are written.** On a line of arguments with blanks between them, the parser of
    an argument, called once for each, gives their trees in order, and stops at the end of the input. -/
theorem arguments_split_where_written {args : List (List Lexeme × Expr)} {trailing : List Char}
    (hline : Lexeme.Line (args.flatMap Prod.fst) trailing) (hargs : ∀ a ∈ args, Argument maxNesting a.1 a.2)
    (hapart : ∀ a ∈ args.tail, ∀ l ∈ a.1.head?, l.gap ≠ []) :
    ∃ tokens c, Token.tokenize (String.ofList (Lexeme.chars (args.flatMap Prod.fst) ++ trailing)) = .ok tokens ∧
      (args.mapM fun _ => commandArg) (Cursor.start tokens) = (.ok (args.map Prod.snd), c) ∧
      c.rest = [] ∧ c.peek.kind = .eof := by
  have hlast : ∀ l ∈ (args.flatMap Prod.fst).getLast?, l.kind ≠ .symbol .colon := by
    intro l hl
    rw [List.getLast?_flatMap] at hl
    obtain ⟨a, ha, hl⟩ := List.exists_of_findSome?_eq_some hl
    exact (hargs a (List.mem_reverse.mp ha)).last l hl
  obtain ⟨e, htokenize⟩ := hline.tokenize hlast
  obtain ⟨c, hfollows, hrest, hstop⟩ := @Lexeme.Line.follows _ _ hline .start none nofun ⟨.eof, "", e.pos⟩
  obtain ⟨hstops, hpeek⟩ := stops_of_rest_nil hrest (hstop ▸ rfl)
  refine ⟨_, c, htokenize, ?_, hrest, hpeek⟩
  rw [Cursor.start_eq_before]
  exact mapM_commandArg hargs hapart hfollows hstops

/-- The parenthesis starts an argument, as there is a blank before it, and the bracket after it is an index. -/
theorem arguments_split_where_written_brackets :
    let second : List Lexeme := [⟨[' '], ['('], .symbol .leftParen⟩, ⟨[], ['1'], .int 1⟩,
      ⟨[], [')'], .symbol .rightParen⟩, ⟨[], ['['], .symbol .leftBracket⟩, ⟨[], ['0'], .int 0⟩,
      ⟨[], [']'], .symbol .rightBracket⟩]
    let third : List Lexeme := [⟨['\t', ' '], ['-'], .symbol .minus⟩, ⟨[], ['x'], .ident "x"⟩]
    let args : List (List Lexeme × Expr) := [([⟨[], ['g'], .ident "g"⟩], .var "g"),
      (second, .index (.literal (.int 1)) (.literal (.int 0))), (third, .unary .neg (.var "x"))]
    Lexeme.Line (args.flatMap Prod.fst) [' '] ∧ (∀ a ∈ args, Argument maxNesting a.1 a.2) ∧
      (∀ a ∈ args.tail, ∀ l ∈ a.1.head?, l.gap ≠ []) ∧
      ∃ tokens c, Token.tokenize "g (1)[0]\t -x " = .ok tokens ∧
        (args.mapM fun _ => commandArg) (Cursor.start tokens) = (.ok (args.map Prod.snd), c) ∧
        c.rest = [] ∧ c.peek.kind = .eof := by
  intro second third args
  have mark (s : Symbol) (hs : s ∉ [Symbol.assign, .lt, .gt]) {rest : List Char} :
      Spelled (.symbol s) s.text.toList rest := .symbol s fun h => absurd h hs
  have hdigit (c : Char) (hc : Decimal.isDigit c = true) : Decimal.IsDigits [c] :=
    ⟨nofun, List.forall_mem_singleton.mpr hc⟩
  -- how the line is spelled, piece by piece
  have hline : Lexeme.Line (args.flatMap Prod.fst) [' '] := by
    refine .cons nofun (@Spelled.ident "g" _ ⟨'g', [], rfl, by decide, nofun⟩ (fun k => by cases k <;> decide)
      (by decide) (fun c hc => Option.some.inj hc ▸ rfl)) ?_
    refine .cons (by simp [Blanks]) (mark .leftParen (by decide)) ?_
    refine .cons nofun (.int (hdigit '1' rfl) rfl (.other (by decide) (by decide))) ?_
    refine .cons nofun (mark .rightParen (by decide)) ?_
    refine .cons nofun (mark .leftBracket (by decide)) ?_
    refine .cons nofun (.int (hdigit '0' rfl) rfl (.other (by decide) (by decide))) ?_
    refine .cons nofun (mark .rightBracket (by decide)) ?_
    refine .cons (by simp [Blanks]) (mark .minus (by decide)) ?_
    refine .cons nofun (@Spelled.ident "x" _ ⟨'x', [], rfl, by decide, nofun⟩ (fun k => by cases k <;> decide)
      (by decide) (fun c hc => Option.some.inj hc ▸ rfl)) ?_
    exact .nil (by simp [Blanks])
  -- what the second and the third argument write
  have hsecond : Argument maxNesting second (.index (.literal (.int 1)) (.literal (.int 0))) := by
    have hgroup : Suffixed maxNesting (second.take 3) (.literal (.int 1)) :=
      .primary (@Rendering.group maxNesting 0 7 [.int 1] _ (by decide) (.literal (.int 1)))
    exact .operand (@Suffixed.index maxNesting 0 _ (second.drop 4) _ [.int 0] _ _ hgroup rfl rfl (by decide)
      (.literal (.int 0)))
  have hthird : Argument maxNesting third (.unary .neg (.var "x")) :=
    @Argument.unary maxNesting 0 _ _ _ .neg (by decide) rfl (.operand (.primary (.var "x")))
  have hargs : ∀ a ∈ args, Argument maxNesting a.1 a.2 :=
    List.forall_mem_cons.mpr ⟨.operand (.primary (.var "g")),
      List.forall_mem_cons.mpr ⟨hsecond, List.forall_mem_singleton.mpr hthird⟩⟩
  have hapart : ∀ a ∈ args.tail, ∀ l ∈ a.1.head?, l.gap ≠ [] := by
    simp [args, second, third]
  have hsplit := arguments_split_where_written hline hargs hapart
  have htext : String.ofList (Lexeme.chars (args.flatMap Prod.fst) ++ [' ']) = "g (1)[0]\t -x " := by
    simp [args, second, third, Lexeme.chars]
  rw [htext] at hsplit
  exact ⟨hline, hargs, hapart, hsplit⟩

end Expr

end Helios
