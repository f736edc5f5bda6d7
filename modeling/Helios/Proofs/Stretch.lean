import Helios.Proofs.Scanning
import Helios.Proofs.Recognition
import Helios.Stmt.Parser

/-!
# Stretch — parsing a program that stands inside a longer one

A `Stretch` is the place of a program in a longer one: the lines above it and the tokens after it.
`Stretch.Embeds` relates a cursor over the program alone to one over the longer program, and
`Stretch.Follows` is a logic that relates what parsers do at the two: where the first succeeds, so does the
second, and it stops at the same place. Along the way it counts brackets (`Nests`), so that a parser that
succeeds is known to leave none open.

What the two cursors see may differ in one way only. Where the program ends, the longer one may go on, but then
with a separator: a line break stands for the end of input (`Token.Like`). The one exception is a program that
ends with a separator of its own (`Stretch.Embeds.seam`), which only the parsers of blocks pass.
-/

namespace Helios

/-! ## Tokens -/

theorem TokenKind.symbol_ne_eof (s : Symbol) : symbol s ≠ eof := nofun

theorem TokenKind.symbol_ne_newline (s : Symbol) : symbol s ≠ newline := nofun

theorem TokenKind.keyword_ne_eof (w : Keyword) : keyword w ≠ eof := nofun

theorem TokenKind.keyword_ne_newline (w : Keyword) : keyword w ≠ newline := nofun

theorem BinOp.token_ne_newline (op : BinOp) : op.token ≠ .newline := by cases op <;> simp [BinOp.token]

theorem UnaryOp.token_ne_newline (op : UnaryOp) : op.token ≠ .newline := by cases op <;> simp [UnaryOp.token]

/-- **Tokens that go from `i` open brackets to `o`**, whatever number of others is open around them. -/
def Nests (i o : Nat) (ks : List TokenKind) : Prop := ∀ n, ks.foldl TokenKind.depthAfter (n + i) = n + o

namespace Nests

variable {i j o : Nat} {ks ks' : List TokenKind}

theorem nil : Nests i i [] := fun _ => rfl

/-- One after the other. -/
theorem append (h : Nests i j ks) (h' : Nests j o ks') : Nests i o (ks ++ ks') := by
  intro n
  rw [List.foldl_append, h n, h' n]

/-- Balanced tokens are balanced inside of brackets too. -/
theorem lift (h : Nests 0 0 ks) (m : Nat) : Nests m m ks := fun n => h (n + m)

end Nests

/-- **A token that stands for another**, some lines further down. A line break may stand for the end of input. -/
structure Token.Like (k : Nat) (t u : Token) : Prop where
  pos : u.pos = t.pos.down k
  kind : u.kind = t.kind ∨ t.kind = .eof ∧ u.kind = .newline
  text : t.kind ≠ .eof → u.text = t.text

namespace Token.Like

variable {k : Nat} {t u : Token}

/-- A token some lines further down. -/
theorem of_down (k : Nat) (t : Token) : Like k t (t.down k) := ⟨rfl, .inl rfl, fun _ => rfl⟩

/-- Only the end of the text may differ. -/
theorem kind_eq (h : Like k t u) (ht : t.kind ≠ .eof) : u.kind = t.kind :=
  h.kind.resolve_right fun heq => ht heq.1

theorem symbol_eq (h : Like k t u) {sym : Symbol} (ht : t.kind = .symbol sym) : u.kind = .symbol sym := by
  rw [h.kind_eq (ht ▸ TokenKind.symbol_ne_eof sym), ht]

/-- What does not tell a line break from the end of input sees no difference. -/
theorem congr {α : Type} (h : Like k t u) {f : TokenKind → α} (hf : f .newline = f .eof) :
    f u.kind = f t.kind := by
  rcases h.kind with heq | ⟨ht, hu⟩
  · rw [heq]
  · rw [ht, hu, hf]

end Token.Like

/-! ## Cursors -/

/-- **The place of a program in a longer one**: the lines above it, the tokens after it and the end of input. -/
structure Stretch where
  lines : Nat
  tail : List Token
  stop : Token
  stop_eof : stop.kind = .eof

namespace Stretch

/-- **A cursor over a program and the same place in the longer one.** -/
structure Embeds (s : Stretch) (c d : Cursor) : Prop where
  eof : c.stop.kind = .eof
  tokens : ∀ t ∈ c.rest, t.kind ≠ .eof
  stop : d.stop = s.stop
  rest : d.rest = c.rest.map (Token.down s.lines) ++ s.tail
  prev : (∃ t, c.prev = some t ∧ d.prev = some (t.down s.lines)) ∨ c.prev = none ∧ d.touches = false
  seam : Token.Like s.lines c.stop (s.tail.headD s.stop) ∨ ∀ t ∈ c.rest.getLast?, t.kind = .newline

/-- **The two cursors see the same token**, up to the end of input. -/
structure Aligns (s : Stretch) (c d : Cursor) : Prop extends s.Embeds c d where
  peek : Token.Like s.lines c.peek d.peek

variable {s : Stretch} {c d : Cursor}

namespace Embeds

/-- The longer text gives more fuel. -/
theorem fuel_le (h : s.Embeds c d) : c.fuel ≤ d.fuel := by
  have := congrArg List.length h.rest
  rw [List.length_append, List.length_map] at this
  unfold Cursor.fuel
  omega

/-- Where the next token is not the end, something is left. -/
theorem rest_ne_nil (h : s.Embeds c d) (hk : c.peek.kind ≠ .eof) : c.rest ≠ [] := by
  intro hnil
  unfold Cursor.peek at hk
  rw [hnil] at hk
  exact hk h.eof

theorem rest_eq_nil (h : s.Embeds c d) (hk : c.peek.kind = .eof) : c.rest = [] := by
  unfold Cursor.peek at hk
  cases hrest : c.rest with
  | nil => rfl
  | cons t rest =>
    rw [hrest] at hk
    exact absurd hk (h.tokens t (by rw [hrest]; exact List.mem_cons_self))

/-- Inside of the program the cursors see the same token. -/
theorem aligns (h : s.Embeds c d) (hne : c.rest ≠ []) : s.Aligns c d := by
  obtain ⟨t, rest, hrest⟩ := List.exists_cons_of_ne_nil hne
  refine ⟨h, ?_⟩
  unfold Cursor.peek
  rw [h.rest, hrest]
  exact .of_down s.lines t

/-- Past a token the two stay together. -/
theorem next (h : s.Embeds c d) (hne : c.rest ≠ []) : s.Embeds c.next d.next := by
  obtain ⟨t, rest, hrest⟩ := List.exists_cons_of_ne_nil hne
  have hd : d.rest = t.down s.lines :: (rest.map (Token.down s.lines) ++ s.tail) := by
    rw [h.rest, hrest]
    rfl
  have hc : c.next = ⟨some t, rest, c.stop⟩ := by
    unfold Cursor.next
    rw [hrest]
  have hd' : d.next = ⟨some (t.down s.lines), rest.map (Token.down s.lines) ++ s.tail, d.stop⟩ := by
    unfold Cursor.next
    rw [hd]
  rw [hc, hd']
  -- the seam speaks of the last token, which is the same as long as tokens are left
  refine ⟨h.eof, ?_, h.stop, rfl, .inl ⟨t, rfl, rfl⟩, ?_⟩
  · intro u hu
    exact h.tokens u (hrest ▸ List.mem_cons_of_mem t hu)
  · refine h.seam.imp_right fun hlast u hu => hlast u ?_
    rw [hrest, List.getLast?_cons, Option.mem_def.mp hu]
    rfl

end Embeds

namespace Aligns

/-- Past a token that is no separator the cursors see the same token again. -/
theorem next (h : s.Aligns c d) (heof : c.peek.kind ≠ .eof) (hline : c.peek.kind ≠ .newline) :
    s.Aligns c.next d.next := by
  have hne := h.rest_ne_nil heof
  by_cases hmore : c.next.rest = []
  · -- the last token of the program was passed, and it was no separator
    obtain ⟨t, rest, hrest⟩ := List.exists_cons_of_ne_nil hne
    have hnext := h.toEmbeds.next hne
    have hc : c.next = ⟨some t, rest, c.stop⟩ := by
      unfold Cursor.next
      rw [hrest]
    obtain rfl : rest = [] := by rwa [hc] at hmore
    have hlike : Token.Like s.lines c.stop (s.tail.headD s.stop) := by
      refine h.seam.resolve_right fun hlast => hline ?_
      unfold Cursor.peek
      rw [hrest]
      exact hlast t (by rw [hrest]; rfl)
    refine ⟨hnext, ?_⟩
    have hpeek : d.next.peek = s.tail.headD s.stop := by
      unfold Cursor.peek
      rw [hnext.rest, hmore, hnext.stop]
      rfl
    rw [hpeek, hc]
    exact hlike
  · exact (h.toEmbeds.next hne).aligns hmore

/-- Blanks before a token are the same blanks. -/
theorem touches_eq (h : s.Aligns c d) : d.touches = c.touches := by
  rcases h.prev with ⟨t, hc, hd⟩ | ⟨hc, hd⟩
  · unfold Cursor.touches
    rw [hc, hd, h.peek.pos]
    have hline : (t.pos.line + s.lines == c.peek.pos.line + s.lines) = (t.pos.line == c.peek.pos.line) := by
      rw [Bool.eq_iff_iff, beq_iff_eq, beq_iff_eq, Nat.add_right_cancel_iff]
    exact congrArg (· && t.pos.column + t.text.length == c.peek.pos.column) hline
  · rw [hd]
    unfold Cursor.touches
    rw [hc]

end Aligns

/-! ## Parsers at two cursors -/

/-- **What `x` does at `c`, `y` does at `d`**: where the first succeeds, so does the second, with a result that `R`
    relates to the first. Both stop at the same place, and the tokens up to there go from `i` open brackets
    to `o`. -/
def Follows {α β : Type} (s : Stretch) (i o : Nat) (R : α → β → Prop) (x : Parse α) (c : Cursor) (y : Parse β)
    (d : Cursor) : Prop :=
  ∀ ⦃a : α⦄ ⦃c' : Cursor⦄, x c = (.ok a, c') →
    ∃ ks b d', c.Reads ks c' ∧ Nests i o ks ∧ y d = (.ok b, d') ∧ R a b ∧ s.Aligns c' d'

namespace Follows

variable {α β γ δ : Type} {i j o : Nat} {R : α → β → Prop} {S : γ → δ → Prop} {x : Parse α} {y : Parse β}
  {f : α → Parse γ} {g : β → Parse δ}

/-- The same result, at the same place. -/
theorem pure (h : s.Aligns c d) {a : α} {b : β} (hab : R a b) : s.Follows i i R (pure a) c (pure b) d := by
  intro a' c' heq
  obtain ⟨rfl, rfl⟩ := Parse.pure_eq_ok.mp heq
  exact ⟨[], b, d, .nil, .nil, rfl, hab, h⟩

/-- Where the first parser fails nothing is said. -/
theorem fail {issue : TokenKind → ParseIssue} : s.Follows i o R (Parse.fail issue) c y d :=
  fun _ _ h => absurd h Parse.fail_ne_ok

theorem failAt {p : Position} {issue : ParseIssue} : s.Follows i o R (Parse.failAt p issue) c y d :=
  fun _ _ h => nomatch congrArg Prod.fst h

theorem exhausted : s.Follows i o R Parse.exhausted c y d := fun _ _ h => absurd h Parse.exhausted_ne_ok

/-- **One parser after another, at both cursors.** -/
theorem bind (hx : s.Follows i j R x c y d)
    (hf : ∀ a b c' d', R a b → s.Aligns c' d' → s.Follows j o S (f a) c' (g b) d') :
    s.Follows i o S (x >>= f) c (y >>= g) d := by
  intro a' c' h
  obtain ⟨a, c₁, ha, h⟩ := Parse.bind_eq_ok.mp h
  obtain ⟨ks, b, d₁, hks, hnest, hb, hab, hthere⟩ := hx ha
  obtain ⟨ks', b', d', hks', hnest', hb', hab', hthere'⟩ := hf a b c₁ d₁ hab hthere h
  exact ⟨ks ++ ks', b', d', hks.append hks', hnest.append hnest', Parse.bind_eq_ok.mpr ⟨b, d₁, hb, hb'⟩, hab',
    hthere'⟩

/-- In a sequence whose first result is the same at both cursors. -/
theorem same {y : Parse α} {g : α → Parse δ} (hx : s.Follows i j Eq x c y d)
    (hf : ∀ a c' d', s.Aligns c' d' → s.Follows j o S (f a) c' (g a) d') :
    s.Follows i o S (x >>= f) c (y >>= g) d := by
  refine hx.bind fun a b c' d' hab h => ?_
  subst hab
  exact hf a c' d' h

/-- What is made of the results. -/
theorem map {f : α → γ} {g : β → δ} (hx : s.Follows i o R x c y d) (hfg : ∀ a b, R a b → S (f a) (g b)) :
    s.Follows i o S (f <$> x) c (g <$> y) d := by
  rw [map_eq_pure_bind, map_eq_pure_bind]
  exact hx.bind fun a b _ _ hab h => pure h (hfg a b hab)

/-- What keeps brackets balanced does so inside of brackets too. -/
theorem lift (hx : s.Follows 0 0 R x c y d) (m : Nat) : s.Follows m m R x c y d := by
  intro a c' h
  obtain ⟨ks, b, d', hks, hnest, hrest⟩ := hx h
  exact ⟨ks, b, d', hks, hnest.lift m, hrest⟩

/-- Parsers that take their fuel from the cursor: the second one has more. -/
theorem withFuel {x : Nat → Parse α} {y : Nat → Parse β} (h : s.Aligns c d)
    (hx : ∀ more, s.Follows i o R (x c.fuel) c (y (more + c.fuel)) d) :
    s.Follows i o R (fun c => x c.fuel c) c (fun c => y c.fuel c) d := by
  obtain ⟨more, hmore⟩ := Nat.exists_eq_add_of_le' h.fuel_le
  have hfollows := hx more
  rw [← hmore] at hfollows
  exact hfollows

section Tokens

variable {S : α → β → Prop}

/-- A token that is taken at both cursors. -/
theorem advance {f : Token → Parse α} {g : Token → Parse β} {k : TokenKind} (h : s.Aligns c d)
    (hk : c.peek.kind = k) (heof : k ≠ .eof) (hline : k ≠ .newline) (hnest : Nests i j [k])
    (hf : s.Aligns c.next d.next → s.Follows j o S (f c.peek) c.next (g d.peek) d.next) :
    s.Follows i o S (Parse.advance >>= f) c (Parse.advance >>= g) d := by
  subst hk
  intro a c' heq
  obtain ⟨ks, b, d', hks, hnest', hb, hab, hthere⟩ := hf (h.next heof hline) heq
  exact ⟨c.peek.kind :: ks, b, d', .cons (h.rest_ne_nil heof) rfl hks, hnest.append hnest', hb, hab, hthere⟩

theorem symbol {f : Token → Parse α} {g : Token → Parse β} {sym : Symbol} (h : s.Aligns c d)
    (hk : c.peek.kind = .symbol sym) (hnest : Nests i j [.symbol sym])
    (hf : s.Aligns c.next d.next → s.Follows j o S (f c.peek) c.next (g d.peek) d.next) :
    s.Follows i o S (Parse.advance >>= f) c (Parse.advance >>= g) d :=
  advance h hk (TokenKind.symbol_ne_eof sym) (TokenKind.symbol_ne_newline sym) hnest hf

theorem keyword {f : Token → Parse α} {g : Token → Parse β} {word : Keyword} (h : s.Aligns c d)
    (hk : c.peek.kind = .keyword word)
    (hf : s.Aligns c.next d.next → s.Follows i o S (f c.peek) c.next (g d.peek) d.next) :
    s.Follows i o S (Parse.advance >>= f) c (Parse.advance >>= g) d :=
  advance h hk (TokenKind.keyword_ne_eof word) (TokenKind.keyword_ne_newline word) (fun _ => rfl) hf

theorem peek {f : Token → Parse α} {g : Token → Parse β} (hf : s.Follows i o S (f c.peek) c (g d.peek) d) :
    s.Follows i o S (Parse.peek >>= f) c (Parse.peek >>= g) d := hf

theorem peekKind {f : TokenKind → Parse α} {g : TokenKind → Parse β}
    (hf : s.Follows i o S (f c.peek.kind) c (g d.peek.kind) d) :
    s.Follows i o S (Parse.peekKind >>= f) c (Parse.peekKind >>= g) d := hf

/-- A test that comes out the same at both cursors. -/
theorem flag {p : Cursor → Bool} (hp : p d = p c) {f : Bool → Parse α} {g : Bool → Parse β}
    (hf : s.Follows i o S (f (p c)) c (g (p c)) d) :
    s.Follows i o S ((fun c => (.ok (p c), c) : Parse Bool) >>= f) c
      ((fun c => (.ok (p c), c) : Parse Bool) >>= g) d := by
  rw [← hp] at hf
  intro a c' heq
  refine hf ?_
  rw [hp]
  exact heq

/-- A test of the current token that does not tell a line break from the end of input. -/
theorem test {p : TokenKind → Bool} (hp : p .newline = p .eof) {f : Bool → Parse α} {g : Bool → Parse β}
    (h : s.Aligns c d) (hf : s.Follows i o S (f (p c.peek.kind)) c (g (p c.peek.kind)) d) :
    s.Follows i o S ((fun c => (.ok (p c.peek.kind), c) : Parse Bool) >>= f) c
      ((fun c => (.ok (p c.peek.kind), c) : Parse Bool) >>= g) d :=
  flag (p := fun c => p c.peek.kind) (h.peek.congr hp) hf

theorem touches {f : Bool → Parse α} {g : Bool → Parse β} (h : s.Aligns c d)
    (hf : s.Follows i o S (f c.touches) c (g c.touches) d) :
    s.Follows i o S (Parse.touches >>= f) c (Parse.touches >>= g) d :=
  flag (p := Cursor.touches) h.touches_eq hf

/-- A symbol is there at both or at neither. -/
theorem eatSymbol {f : Bool → Parse α} {g : Bool → Parse β} {sym : Symbol} (h : s.Aligns c d)
    (hnest : Nests i j [.symbol sym])
    (hyes : s.Aligns c.next d.next → s.Follows j o S (f true) c.next (g true) d.next)
    (hno : s.Follows i o S (f false) c (g false) d) :
    s.Follows i o S (Parse.eatSymbol sym >>= f) c (Parse.eatSymbol sym >>= g) d := by
  intro a c' heq
  have hsame : d.peek.kind.isSymbol sym = c.peek.kind.isSymbol sym :=
    h.peek.congr (f := fun k => k.isSymbol sym) rfl
  by_cases hk : c.peek.kind = .symbol sym
  · have hk' : d.peek.kind = .symbol sym := by
      rwa [← TokenKind.isSymbol_iff, hsame, TokenKind.isSymbol_iff]
    rw [Parse.eatSymbol_bind_of_eq _ hk] at heq
    rw [Parse.eatSymbol_bind_of_eq _ hk']
    exact symbol (f := fun _ => f true) (g := fun _ => g true) h hk hnest hyes heq
  · have hk' : d.peek.kind ≠ .symbol sym := by
      rwa [ne_eq, ← TokenKind.isSymbol_iff, hsame, TokenKind.isSymbol_iff]
    rw [Parse.eatSymbol_bind_of_ne _ hk] at heq
    rw [Parse.eatSymbol_bind_of_ne _ hk']
    exact hno heq

theorem eatKeyword {f : Bool → Parse α} {g : Bool → Parse β} {word : Keyword} (h : s.Aligns c d)
    (hyes : s.Aligns c.next d.next → s.Follows i o S (f true) c.next (g true) d.next)
    (hno : s.Follows i o S (f false) c (g false) d) :
    s.Follows i o S (Parse.eatKeyword word >>= f) c (Parse.eatKeyword word >>= g) d := by
  have hbind {γ : Type} (f : Bool → Parse γ) (c : Cursor) : (Parse.eatKeyword word >>= f) c =
      if c.peek.kind.isKeyword word then f true c.next else f false c := by
    show ExceptT.bindCont f (Parse.eatKeyword word c).1 (Parse.eatKeyword word c).2 = _
    unfold Parse.eatKeyword
    split <;> rfl
  intro a c' heq
  rw [hbind] at heq
  rw [hbind, h.peek.congr (f := fun k => k.isKeyword word) rfl]
  split at heq
  · rename_i hk
    rw [if_pos hk]
    have hkind : c.peek.kind = .keyword word := by
      unfold TokenKind.isKeyword at hk
      split at hk
      · rename_i heq
        rw [heq, eq_of_beq hk]
      · nomatch hk
    exact keyword (f := fun _ => f true) (g := fun _ => g true) h hkind hyes heq
  · rename_i hk
    rw [if_neg hk]
    exact hno heq

theorem expectClosing {sym : Symbol} {opened opened' : Token} (h : s.Aligns c d)
    (hnest : Nests i o [.symbol sym]) :
    s.Follows i o Eq (Parse.expectClosing sym opened) c (Parse.expectClosing sym opened') d :=
  eatSymbol h hnest (fun h => pure h rfl) fail

theorem expectSymbol {f : Token → Parse α} {g : Token → Parse β} {sym : Symbol} {context : String}
    (h : s.Aligns c d) (hnest : Nests i j [.symbol sym])
    (hf : ∀ t t' c' d', s.Aligns c' d' → s.Follows j o S (f t) c' (g t') d') :
    s.Follows i o S (Parse.expectSymbol sym context >>= f) c (Parse.expectSymbol sym context >>= g) d := by
  intro a c' heq
  obtain ⟨hk, heq⟩ := Parse.expectSymbol_bind_eq_ok.mp heq
  have hk' : d.peek.kind = .symbol sym := h.peek.symbol_eq hk
  obtain ⟨ks, b, d', hks, hnest', hb, hrest⟩ :=
    symbol (f := f) (g := g) h hk hnest (fun h => hf _ _ _ _ h) heq
  exact ⟨ks, b, d', hks, hnest', Parse.expectSymbol_bind_eq_ok.mpr ⟨hk', hb⟩, hrest⟩

/-- A name is the same name. -/
theorem expectIdent {f g : String × Position → Parse α} {what : String} {S : α → α → Prop} (h : s.Aligns c d)
    (hf : ∀ name p p' c' d', s.Aligns c' d' → s.Follows i o S (f (name, p)) c' (g (name, p')) d') :
    s.Follows i o S (Parse.expectIdent what >>= f) c (Parse.expectIdent what >>= g) d := by
  intro a c' heq
  obtain ⟨name, hk, heq⟩ := Parse.expectIdent_bind_eq_ok.mp heq
  have hk' : d.peek.kind = .ident name := by rw [h.peek.kind_eq (by rw [hk]; nofun), hk]
  obtain ⟨ks, b, d', hks, hnest, hb, hrest⟩ :=
    advance (f := fun t => f (name, t.pos)) (g := fun t => g (name, t.pos)) h hk nofun nofun (fun _ => rfl)
      (fun h => hf _ _ _ _ _ h) heq
  exact ⟨ks, b, d', hks, hnest, Parse.expectIdent_bind_eq_ok.mpr ⟨name, hk', hb⟩, hrest⟩

end Tokens

end Follows

end Stretch

/-! ## Expressions -/

namespace Expr

open Stretch

/-- What each function of the parser of expressions does with some fuel, it does with more of it at the same place
    of a longer program. -/
structure Followed (s : Stretch) (more fuel : Nat) : Prop where
  expression : ∀ {c d} dep, s.Aligns c d →
    s.Follows 0 0 Eq (expression fuel dep) c (expression (more + fuel) dep) d
  chain : ∀ {c d} dep l, s.Aligns c d → s.Follows 0 0 Eq (chain fuel dep l) c (chain (more + fuel) dep l) d
  operand : ∀ {c d} dep l, s.Aligns c d → s.Follows 0 0 Eq (operand fuel dep l) c (operand (more + fuel) dep l) d
  chainRest : ∀ {c d} dep l left, s.Aligns c d →
    s.Follows 0 0 Eq (chainRest fuel dep l left) c (chainRest (more + fuel) dep l left) d
  unaryOrPostfix : ∀ {c d} dep command, s.Aligns c d →
    s.Follows 0 0 Eq (unaryOrPostfix fuel dep command) c (unaryOrPostfix (more + fuel) dep command) d
  postfixRest : ∀ {c d} dep command e, s.Aligns c d →
    s.Follows 0 0 Eq (postfixRest fuel dep command e) c (postfixRest (more + fuel) dep command e) d
  primary : ∀ {c d} dep, s.Aligns c d → s.Follows 0 0 Eq (primary fuel dep) c (primary (more + fuel) dep) d
  commaList : ∀ {c d close} dep opened opened', Nests 1 0 [.symbol close] → s.Aligns c d →
    s.Follows 1 0 Eq (commaList fuel dep close opened) c (commaList (more + fuel) dep close opened') d
  pairList : ∀ {c d} dep opened opened', s.Aligns c d →
    s.Follows 1 0 Eq (pairList fuel dep opened) c (pairList (more + fuel) dep opened') d

theorem checkDepth_follows {s : Stretch} {c d : Cursor} {i : Nat} (dep : Nat) (h : s.Aligns c d) :
    s.Follows i i Eq (checkDepth dep) c (checkDepth dep) d := by
  unfold checkDepth
  split
  · exact .fail
  · exact .pure h rfl

/-- A token that is an expression by itself is neither a separator nor a bracket. -/
theorem atom?_plain {k : TokenKind} {e : Expr} (h : atom? k = some e) :
    k ≠ .eof ∧ k ≠ .newline ∧ Nests 0 0 [k] := by
  unfold atom? at h
  split at h
  all_goals first | exact ⟨nofun, nofun, fun _ => rfl⟩ | exact nomatch h

namespace Followed

variable {s : Stretch} {more fuel : Nat} {c d : Cursor}

theorem zero : Followed s more 0 := by
  constructor <;>
    simp [Follows, Expr.expression, Expr.chain, Expr.operand, Expr.chainRest, Expr.unaryOrPostfix,
      Expr.postfixRest, Expr.primary, Expr.commaList, Expr.pairList, Parse.exhausted_ne_ok]

/-- One level of fuel less on both sides. -/
theorem expression_succ (ih : Followed s more fuel) (dep : Nat) (h : s.Aligns c d) :
    s.Follows 0 0 Eq (Expr.expression (fuel + 1) dep) c (Expr.expression (more + fuel + 1) dep) d := by
  rw [Expr.expression, Expr.expression]
  exact (checkDepth_follows dep h).same fun _ _ _ h => ih.chain (dep + 1) .or h

theorem chain_succ (ih : Followed s more fuel) (dep : Nat) (l : Level) (h : s.Aligns c d) :
    s.Follows 0 0 Eq (Expr.chain (fuel + 1) dep l) c (Expr.chain (more + fuel + 1) dep l) d := by
  rw [Expr.chain, Expr.chain]
  exact (ih.operand dep l h).same fun left _ _ h => ih.chainRest dep l left h

theorem operand_succ (ih : Followed s more fuel) (dep : Nat) (l : Level) (h : s.Aligns c d) :
    s.Follows 0 0 Eq (Expr.operand (fuel + 1) dep l) c (Expr.operand (more + fuel + 1) dep l) d := by
  rw [Expr.operand, Expr.operand]
  split
  · exact ih.chain dep _ h
  · exact ih.unaryOrPostfix dep false h

/-- The same operator stands behind both, or none. -/
theorem chainRest_succ (ih : Followed s more fuel) (dep : Nat) (l : Level) (left : Expr)
    (h : s.Aligns c d) :
    s.Follows 0 0 Eq (Expr.chainRest (fuel + 1) dep l left) c (Expr.chainRest (more + fuel + 1) dep l left) d := by
  rw [Expr.chainRest, Expr.chainRest]
  refine .peekKind ?_
  rw [h.peek.congr (f := l.operator?) (by cases l <;> rfl)]
  cases hop : l.operator? c.peek.kind with
  | some op =>
    obtain ⟨-, hk⟩ := Level.operator?_eq_some_iff.mp hop
    refine .advance h hk op.token_ne_eof op.token_ne_newline (by cases op <;> exact fun _ => rfl) fun h => ?_
    exact (ih.operand dep l h).same fun right _ _ h => ih.chainRest dep l _ h
  | none => exact .pure h rfl

theorem unaryOrPostfix_succ (ih : Followed s more fuel) (dep : Nat) (command : Bool)
    (h : s.Aligns c d) :
    s.Follows 0 0 Eq (Expr.unaryOrPostfix (fuel + 1) dep command) c
      (Expr.unaryOrPostfix (more + fuel + 1) dep command) d := by
  rw [Expr.unaryOrPostfix, Expr.unaryOrPostfix]
  refine .peekKind ?_
  rw [h.peek.congr (f := unaryOperator?) rfl]
  cases hop : unaryOperator? c.peek.kind with
  | some op =>
    have hk := unaryOperator?_eq_some_iff.mp hop
    refine .advance h hk op.token_ne_eof op.token_ne_newline (by cases op <;> exact fun _ => rfl) fun h => ?_
    refine (checkDepth_follows dep h).same fun _ _ _ h => ?_
    exact (ih.unaryOrPostfix (dep + 1) command h).same fun _ _ _ h => .pure h rfl
  | none =>
    exact (ih.primary dep h).same fun e _ _ h => ih.postfixRest dep command e h

theorem postfixRest_succ (ih : Followed s more fuel) (dep : Nat) (command : Bool) (e : Expr)
    (h : s.Aligns c d) :
    s.Follows 0 0 Eq (Expr.postfixRest (fuel + 1) dep command e) c
      (Expr.postfixRest (more + fuel + 1) dep command e) d := by
  rw [Expr.postfixRest, Expr.postfixRest]
  refine .peek (.touches h ?_)
  generalize hapart : (command && !c.touches) = apart
  -- where one cursor is at the end and the other at a line break, neither goes on
  rcases h.peek.kind with hsame | ⟨hk, hk'⟩
  · rw [hsame]
    generalize hk : c.peek.kind = k
    split
    · dsimp only
      split
      · exact .pure h rfl
      · refine .symbol h hk (j := 1) (fun _ => rfl) fun h => ?_
        refine (ih.commaList dep _ _ (fun _ => rfl) h).same fun args _ _ h => ?_
        exact ih.postfixRest dep command _ h
    · dsimp only
      split
      · exact .pure h rfl
      · refine .symbol h hk (j := 1) (fun _ => rfl) fun h => ?_
        refine ((ih.expression dep h).lift 1).same fun i _ _ h => ?_
        refine (Follows.expectClosing (o := 0) h (fun _ => rfl)).same fun _ _ _ h => ?_
        exact ih.postfixRest dep command _ h
    · refine .symbol h hk (fun _ => rfl) fun h => ?_
      exact .expectIdent h fun name _ _ _ _ h => ih.postfixRest dep command _ h
    · exact .pure h rfl
  · rw [hk, hk']
    exact .pure h rfl

/-- Brackets that are opened are closed again. -/
theorem primary_succ (ih : Followed s more fuel) (dep : Nat) (h : s.Aligns c d) :
    s.Follows 0 0 Eq (Expr.primary (fuel + 1) dep) c (Expr.primary (more + fuel + 1) dep) d := by
  rw [Expr.primary, Expr.primary]
  refine .peek ?_
  rw [h.peek.congr (f := atom?) rfl]
  cases ha : atom? c.peek.kind with
  | some e =>
    obtain ⟨heof, hline, hnest⟩ := atom?_plain ha
    exact .advance h rfl heof hline hnest fun h => .pure h rfl
  | none =>
    dsimp only
    split
    · rename_i hk
      rw [h.peek.symbol_eq hk]
      refine .symbol h hk (j := 1) (fun _ => rfl) fun h => ?_
      refine ((ih.expression dep h).lift 1).same fun e _ _ h => ?_
      exact (Follows.expectClosing h (fun _ => rfl)).same fun _ _ _ h => .pure h rfl
    · rename_i hk
      rw [h.peek.symbol_eq hk]
      refine .symbol h hk (j := 1) (fun _ => rfl) fun h => ?_
      exact (ih.commaList dep _ _ (fun _ => rfl) h).same fun items _ _ h => .pure h rfl
    · rename_i hk
      rw [h.peek.symbol_eq hk]
      refine .symbol h hk (j := 1) (fun _ => rfl) fun h => ?_
      exact (ih.pairList dep _ _ h).same fun pairs _ _ h => .pure h rfl
    · exact .fail

/-- What follows an item of a list. -/
theorem afterItem {α : Type} {close : Symbol} {opened opened' : Token} {a : α} {x y : Parse (List α)}
    (hclose : Nests 1 0 [.symbol close]) (h : s.Aligns c d)
    (hmore : s.Aligns c.next d.next → s.Follows 1 0 Eq x c.next y d.next) :
    s.Follows 1 0 Eq
      (do if ← Parse.eatSymbol .comma then
            let rest ← x
            pure (a :: rest)
          else
            Parse.expectClosing close opened
            pure [a]) c
      (do if ← Parse.eatSymbol .comma then
            let rest ← y
            pure (a :: rest)
          else
            Parse.expectClosing close opened'
            pure [a]) d := by
  refine .eatSymbol h (fun _ => rfl) (fun h => ?_) ?_
  · exact (hmore h).same fun rest _ _ h => .pure h rfl
  · exact (Follows.expectClosing h hclose).same fun _ _ _ h => .pure h rfl

/-- The opening bracket is taken already; the closing one is taken here. -/
theorem commaList_succ (ih : Followed s more fuel) {close : Symbol} (dep : Nat) (opened opened' : Token)
    (hclose : Nests 1 0 [.symbol close]) (h : s.Aligns c d) :
    s.Follows 1 0 Eq (Expr.commaList (fuel + 1) dep close opened) c
      (Expr.commaList (more + fuel + 1) dep close opened') d := by
  rw [Expr.commaList, Expr.commaList]
  refine .eatSymbol h hclose (fun h => .pure h rfl) ?_
  refine ((ih.expression dep h).lift 1).same fun e _ _ h => ?_
  exact afterItem hclose h fun h => ih.commaList dep opened opened' hclose h

theorem pairList_succ (ih : Followed s more fuel) (dep : Nat) (opened opened' : Token)
    (h : s.Aligns c d) :
    s.Follows 1 0 Eq (Expr.pairList (fuel + 1) dep opened) c (Expr.pairList (more + fuel + 1) dep opened') d := by
  rw [Expr.pairList, Expr.pairList]
  refine .eatSymbol h (fun _ => rfl) (fun h => .pure h rfl) ?_
  refine ((ih.expression dep h).lift 1).same fun key _ _ h => ?_
  refine .expectSymbol h (fun _ => rfl) fun _ _ _ _ h => ?_
  refine ((ih.expression dep h).lift 1).same fun value _ _ h => ?_
  exact afterItem (fun _ => rfl) h fun h => ih.pairList dep opened opened' h

/-- By induction on the fuel of the shorter parse. -/
theorem all (s : Stretch) (more fuel : Nat) : Followed s more fuel := by
  induction fuel with
  | zero => exact zero
  | succ fuel ih =>
    exact ⟨ih.expression_succ, ih.chain_succ, ih.operand_succ, ih.chainRest_succ, ih.unaryOrPostfix_succ,
      ih.postfixRest_succ, ih.primary_succ, ih.commaList_succ, ih.pairList_succ⟩

end Followed

variable {s : Stretch} {c d : Cursor}

/-- **An expression of the program is the same one in the longer text.** -/
theorem parser_follows (h : s.Aligns c d) : s.Follows 0 0 Eq parser c parser d :=
  .withFuel (x := fun fuel => expression fuel 0) (y := fun fuel => expression fuel 0) h
    fun more => (Followed.all s more c.fuel).expression 0 h

theorem commandArg_follows (h : s.Aligns c d) : s.Follows 0 0 Eq commandArg c commandArg d :=
  .withFuel (x := fun fuel => unaryOrPostfix fuel 0 true) (y := fun fuel => unaryOrPostfix fuel 0 true) h
    fun more => (Followed.all s more c.fuel).unaryOrPostfix 0 true h

theorem parenArgs_follows (h : s.Aligns c d) : s.Follows 0 0 Eq parenArgs c parenArgs d := by
  refine .expectSymbol (j := 1) h (fun _ => rfl) fun opened opened' c d h => ?_
  exact .withFuel (x := fun fuel => commaList fuel 0 .rightParen opened)
    (y := fun fuel => commaList fuel 0 .rightParen opened') h
    fun more => (Followed.all s more c.fuel).commaList 0 opened opened' (fun _ => rfl) h

end Expr

end Helios
