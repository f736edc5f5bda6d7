import Helios.Program

/-!
# Parsing — what statements the parser builds

`Parse.Gives` is a logic for parsers: what holds of every result, wherever the parser starts. With it the
parser of statements is gone through once. `Stmt.Parsed` describes its trees: `return` stands inside a
function, `break` and `continue` stand inside a loop of the same function, and commands are those that the
parser of commands builds.
-/

namespace Helios

/-! ## A logic for parsers -/

/-- **What a parser gives**: `P` holds of its result, from every cursor where it has one. -/
def Parse.Gives {α : Type} (x : Parse α) (P : α → Prop) : Prop := ∀ c a, (x c).1 = .ok a → P a

namespace Parse.Gives

variable {α β : Type} {P : α → Prop} {Q : β → Prop}

theorem any (x : Parse α) : x.Gives fun _ => True := fun _ _ _ => trivial

/-- What is known of every result: some cursor leads to it. -/
theorem self (x : Parse α) : x.Gives fun a => ∃ c c', x c = (.ok a, c') :=
  fun c _ h => ⟨c, (x c).2, Prod.ext h rfl⟩

theorem pure {a : α} (h : P a) : Gives (pure a) P := fun _ _ hb => Except.ok.inj hb ▸ h

/-- What the first parser gives may be used in the second. -/
theorem bind {x : Parse α} {f : α → Parse β} (hx : x.Gives P) (hf : ∀ a, P a → (f a).Gives Q) :
    (x >>= f).Gives Q := by
  intro c b
  show (ExceptT.bindCont f (x c).1 (x c).2).1 = _ → _
  have h := hx c
  revert h
  rcases x c with ⟨e | a, c'⟩
  · exact fun _ hb => nomatch hb
  · exact fun h hb => hf a (h a rfl) c' b hb

/-- In a sequence the first result may not matter. -/
theorem seq {x : Parse α} {f : α → Parse β} (hf : ∀ a, (f a).Gives Q) : (x >>= f).Gives Q :=
  (any x).bind fun a _ => hf a

/-- What is made of a result. -/
theorem map {x : Parse α} {f : α → β} (hx : x.Gives P) (hf : ∀ a, P a → Q (f a)) : (f <$> x).Gives Q := by
  rw [map_eq_pure_bind]
  exact hx.bind fun a ha => pure (hf a ha)

theorem exhausted : (Parse.exhausted : Parse α).Gives P := fun _ _ h => nomatch h

theorem fail (issue : TokenKind → ParseIssue) : (Parse.fail issue : Parse α).Gives P := fun _ _ h => nomatch h

theorem failAt (p : Position) (issue : ParseIssue) : (Parse.failAt p issue : Parse α).Gives P :=
  fun _ _ h => nomatch h

/-- A parser that reads the cursor first. -/
theorem here {f : Cursor → Parse α} (h : ∀ c, (f c).Gives P) : Gives (fun c => f c c) P :=
  fun c a ha => h c c a ha

end Parse.Gives

/-! ## The trees of statements -/

/-- The commands that the parser builds. -/
def CommandStmt.Parsed (c : CommandStmt) : Prop := ∃ surface, ∃ c₀ c₁, Stmt.command_ surface c₀ = (.ok c, c₁)

/-- **The statements that the parser builds** in a function or outside of all of them, and in a loop of that
    function or outside of all of them. -/
inductive Stmt.Parsed : Bool → Bool → Stmt → Prop
  | assign {fn loop name value} : Parsed fn loop (.assign name value)
  | print {fn loop args} : Parsed fn loop (.print args)
  | branch {fn loop cond yes no} (hyes : ∀ s ∈ yes, Parsed fn loop s.node)
    (hno : ∀ s ∈ no, Parsed fn loop s.node) : Parsed fn loop (.branch cond yes no)
  | while_ {fn loop cond body} (h : ∀ s ∈ body, Parsed fn true s.node) : Parsed fn loop (.while_ cond body)
  | for_ {fn loop var items body} (h : ∀ s ∈ body, Parsed fn true s.node) :
    Parsed fn loop (.for_ var items body)
  /-- A function starts without a loop around it. -/
  | define {fn loop name params body} (h : ∀ s ∈ body, Parsed true false s.node) :
    Parsed fn loop (.define name params body)
  | call {fn loop callee args} : Parsed fn loop (.call callee args)
  | return_ {loop value} : Parsed true loop (.return_ value)
  | break_ {fn} : Parsed fn true .break_
  | continue_ {fn} : Parsed fn true .continue_
  | contain {fn loop path} : Parsed fn loop (.contain path)
  | passthrough {fn loop language code} : Parsed fn loop (.passthrough language code)
  | command {fn loop c} (h : CommandStmt.Parsed c) : Parsed fn loop (.command c)

namespace Stmt

open Parse

/-- What the parser of statements gives with some fuel, for each of its functions. -/
structure ParsedBy (fuel : Nat) : Prop where
  statement : ∀ ctx, (statement fuel ctx).Gives fun l => l.node.Parsed ctx.inFunction ctx.inLoop
  statementBody : ∀ ctx t, (statementBody fuel ctx t).Gives fun s => s.Parsed ctx.inFunction ctx.inLoop
  blockBody : ∀ ctx opened, (blockBody fuel ctx opened).Gives fun r =>
    ∀ l ∈ r.1, l.node.Parsed ctx.inFunction ctx.inLoop
  plainBlock : ∀ ctx opened, (plainBlock fuel ctx opened).Gives fun b =>
    ∀ l ∈ b, l.node.Parsed (ctx.enter opened.kind).inFunction (ctx.enter opened.kind).inLoop
  ifChain : ∀ ctx opened, (ifChain fuel ctx opened).Gives fun s => s.Parsed ctx.inFunction ctx.inLoop

/-- A call expression is a call. -/
theorem ofCall?_parsed {fn loop : Bool} {e : Expr} {s : Stmt} (h : ofCall? e = some s) :
    s.Parsed fn loop := by
  cases e with
  | call callee args => exact Option.some.inj h ▸ .call
  | _ => exact nomatch h

/-- A call is a statement anywhere. -/
theorem callCommand_gives {fn loop : Bool} : callCommand.Gives fun s => s.Parsed fn loop := by
  unfold callCommand
  refine .seq fun printed => ?_
  dsimp only
  -- however the callee is read, it is a call with arguments, or arguments follow
  split
  all_goals
    refine .seq fun callee => .seq fun atEnd => ?_
    split
    · rename_i hcall
      exact .pure (ofCall?_parsed hcall)
    · exact .seq fun _ => .pure .call

theorem callStatement_gives {fn loop : Bool} (pos : Position) :
    (callStatement pos).Gives fun s => s.Parsed fn loop := by
  unfold callStatement
  refine .seq fun e => .seq fun atEnd => ?_
  split
  · split
    · rename_i hcall
      exact .pure (ofCall?_parsed hcall)
    · split
      · exact .pure .call
      · exact .failAt _ _
  · refine .seq fun kind => ?_
    split
    · exact .seq fun _ => .pure .call
    · exact .failAt _ _

namespace ParsedBy

variable {fuel : Nat}

theorem zero : ParsedBy 0 := by
  constructor <;> (intros; exact .exhausted)

/-- One level of fuel less: `break` needs a loop around it, `return` a function. -/
theorem statementBody_succ (ih : ParsedBy fuel) (ctx : Context) (t : Token) :
    (Stmt.statementBody (fuel + 1) ctx t).Gives fun s => s.Parsed ctx.inFunction ctx.inLoop := by
  unfold Stmt.statementBody
  split
  · -- `let`
    exact .seq fun _ => .seq fun _ => .seq fun _ => .seq fun _ => .pure .assign
  · -- `print`
    exact .seq fun _ => .seq fun _ => .pure .print
  · -- `if`
    exact .seq fun _ => .seq fun _ => ih.ifChain (ctx.enter .if_) _
  · -- `while`
    refine .seq fun _ => .seq fun _ => .seq fun _ => (ih.plainBlock ctx _).bind fun body hbody => ?_
    exact .pure (.while_ hbody)
  · -- `for`
    refine .seq fun _ => .seq fun _ => .seq fun found => ?_
    split
    · refine .seq fun _ => .seq fun _ => (ih.plainBlock ctx _).bind fun body hbody => ?_
      exact .pure (.for_ hbody)
    · exact .fail _
  · -- `solar_def`
    refine .seq fun _ => .seq fun _ => (ih.plainBlock ctx _).bind fun body hbody => ?_
    exact .pure (.define hbody)
  · -- `return`
    split
    · rename_i hfn
      rw [hfn]
      refine .seq fun _ => .seq fun atEnd => ?_
      split
      · exact .pure .return_
      · exact .seq fun _ => .pure .return_
    · exact .failAt _ _
  · -- `break`
    split
    · rename_i hloop
      rw [hloop]
      exact .seq fun _ => .pure .break_
    · exact .failAt _ _
  · -- `continue`
    split
    · rename_i hloop
      rw [hloop]
      exact .seq fun _ => .pure .continue_
    · exact .failAt _ _
  · -- `contain`
    exact .seq fun _ => .seq fun _ => .seq fun _ => .pure .contain
  · exact .seq fun _ => .pure .passthrough
  · -- `call`
    exact .seq fun _ => callCommand_gives
  · exact .seq fun _ => (Gives.self _).map fun c hc => .command ⟨.ui, hc⟩
  · exact .seq fun _ => (Gives.self _).map fun c hc => .command ⟨.game, hc⟩
  · refine .seq fun assigns => ?_
    split
    · exact .failAt _ _
    · exact callStatement_gives _
  · exact .fail _

/-- The statements of a block stand in the same function and loop. -/
theorem blockBody_succ (ih : ParsedBy fuel) (ctx : Context) (opened : OpenBlock) :
    (Stmt.blockBody (fuel + 1) ctx opened).Gives fun r =>
      ∀ l ∈ r.1, l.node.Parsed ctx.inFunction ctx.inLoop := by
  unfold Stmt.blockBody
  refine .seq fun _ => .seq fun kind => ?_
  split
  · exact .seq fun _ => .pure nofun
  · exact .seq fun _ => .pure nofun
  · exact .seq fun _ => .pure nofun
  · exact .failAt _ _
  · refine (ih.statement ctx).bind fun s hs => .seq fun _ => (ih.blockBody ctx opened).bind fun r hr => ?_
    exact .pure (List.forall_mem_cons.mpr ⟨hs, hr⟩)

/-- And those of a block that is opened, in what it opens. -/
theorem plainBlock_succ (ih : ParsedBy fuel) (ctx : Context) (opened : OpenBlock) :
    (Stmt.plainBlock (fuel + 1) ctx opened).Gives fun b =>
      ∀ l ∈ b, l.node.Parsed (ctx.enter opened.kind).inFunction (ctx.enter opened.kind).inLoop := by
  unfold Stmt.plainBlock
  refine .seq fun _ => (ih.blockBody _ opened).bind fun r hr => .seq fun _ => ?_
  exact .pure hr

theorem ifChain_succ (ih : ParsedBy fuel) (ctx : Context) (opened : OpenBlock) :
    (Stmt.ifChain (fuel + 1) ctx opened).Gives fun s => s.Parsed ctx.inFunction ctx.inLoop := by
  unfold Stmt.ifChain
  refine .seq fun _ => .seq fun _ => (ih.blockBody ctx opened).bind fun yes hyes => ?_
  dsimp only
  split
  · refine (ih.ifChain ctx opened).bind fun s hs => .pure (.branch hyes ?_)
    exact List.forall_mem_singleton.mpr hs
  · refine .seq fun _ => (ih.blockBody ctx opened).bind fun no hno => .seq fun _ => ?_
    exact .pure (.branch hyes hno)
  · exact .pure (.branch hyes nofun)

/-- By induction on the fuel. -/
theorem all (fuel : Nat) : ParsedBy fuel := by
  induction fuel with
  | zero => exact zero
  | succ fuel ih =>
    refine ⟨fun ctx => ?_, ih.statementBody_succ, ih.blockBody_succ, ih.plainBlock_succ, ih.ifChain_succ⟩
    unfold Stmt.statement
    exact .seq fun t => (ih.statementBody ctx t).bind fun s hs => .pure hs

end ParsedBy

/-- Outside of functions and loops there is no `return`, `break` or `continue`. -/
theorem topLevel_gives (fuel : Nat) :
    (topLevel fuel).Gives fun b => ∀ l ∈ b, l.node.Parsed false false := by
  induction fuel with
  | zero => exact .exhausted
  | succ fuel ih =>
    unfold topLevel
    refine .seq fun _ => .seq fun t => ?_
    split
    · exact .pure nofun
    · exact .failAt _ _
    · exact .failAt _ _
    · exact .failAt _ _
    · refine Gives.bind (.here fun c => (ParsedBy.all c.fuel).statement .top) fun s hs => .seq fun _ => ?_
      exact ih.bind fun rest hrest => .pure (List.forall_mem_cons.mpr ⟨hs, hrest⟩)

/-- **The statements of an accepted program.** -/
theorem parseProgram_parsed {source : String} {program : Block} (h : parseProgram source = .ok program) :
    ∀ l ∈ program, l.node.Parsed false false := by
  unfold parseProgram at h
  cases ht : Token.tokenize source with
  | error e => rw [ht] at h; exact nomatch h
  | ok tokens =>
    rw [ht] at h
    exact topLevel_gives _ _ _ h

end Stmt

end Helios
