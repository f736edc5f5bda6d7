import Helios.Program

/-!
# Plans — one step of the evaluator as data

The fifteen functions of the evaluator call each other, and each call takes one unit of fuel. A `Task` is
one such call. Its **plan** says what the call does with its fuel: what it asks of the machine (`Prim`),
which tasks it starts, and which parts it runs in a frame of their own. `Task.run_succ` is the only place
where the evaluator is opened; what holds of every run is derived from plans (`Helios.Proofs.Logic`).

Contents: `Prim`, `Task`, `Plan`, `Task.plan`, and `Task.run_succ`.
-/

namespace Helios

namespace Exec

variable {α β : Type}

/-- One computation after another, on the machine that the first leaves. -/
theorem bind_apply (x : Exec α) (f : α → Exec β) (m : Machine) :
    (x >>= f) m = match x m with
      | (.ok a, m') => f a m'
      | (.error e, m') => (.error e, m') := by
  show ExceptT.bindCont f (x m).1 (x m).2 = _
  rcases x m with ⟨_ | _, m'⟩ <;> rfl

/-- The first has succeeded. -/
theorem bind_ok {x : Exec α} {f : α → Exec β} {m m' : Machine} {a : α} (h : x m = (.ok a, m')) :
    (x >>= f) m = f a m' := by
  rw [bind_apply, h]

theorem bind_glance (f : Reading → Exec β) (m : Machine) :
    (glance >>= f) m = f m.reading { m with moment := m.moment + 1 } :=
  bind_ok rfl

/-- The first has failed, and the second is not run. -/
theorem bind_error {x : Exec α} {f : α → Exec β} {m m' : Machine} {e : Halt} (h : x m = (.error e, m')) :
    (x >>= f) m = (.error e, m') := by
  rw [bind_apply, h]

end Exec

/-! ## What is asked of the machine -/

/-- What a call of a name calls: the function that a variable holds, or else the function of that name. -/
def Machine.callTarget (m : Machine) (name : String) : Except Cause String :=
  match m.scopes.get? name with
  | some (.func target) => .ok target
  | some v => if m.registry.contains name then .ok name else .error (.type (.notAFunction name v.typeName))
  | none => .ok name

/-- **What the evaluator asks of the machine** in one piece. -/
inductive Prim : Type → Type
  | lookup (name : String) : Prim Value
  /-- What a call of a name calls. -/
  | target (name : String) : Prim String
  | entry (name : String) : Prim FunctionEntry
  | registered (name : String) : Prim Bool
  | assign (name : String) (v : Value) : Prim Unit
  /-- Bind in the current frame. -/
  | define (name : String) (v : Value) : Prim Unit
  | defineUser (name : String) (params : List String) (body : Block) : Prim Unit
  | writeLine (line : String) : Prim Unit
  | glance : Prim Reading
  | host (what : HostBuiltin) (args : List Value) : Prim Value
  | callMember (ref : HostRef) (member : String) (args : List Value) : Prim Value
  | contain (path : String) : Prim Unit
  | passthrough (language code : String) : Prim Unit
  | dispatch (c : FrontendCommand) : Prim FrontendReply

/-- Ask it. -/
def Prim.exec : {α : Type} → Prim α → Exec α
  | _, lookup name => Exec.lookup name
  | _, target name => fun m => Exec.ofExcept (m.callTarget name) m
  | _, entry name => fun m =>
    match m.registry.get? name with
    | some e => (.ok e, m)
    | none => Exec.fail (.name name) m
  | _, registered name => Exec.read (·.registry.contains name)
  | _, assign name v => Exec.updateScopes (·.assign name v)
  | _, define name v => Exec.updateScopes (·.define name v)
  | _, defineUser name params body =>
    Exec.update fun m => { m with registry := m.registry.defineUser name params body }
  | _, writeLine line => Exec.writeLine line
  | _, glance => Exec.glance
  | _, host what args => Exec.host what args
  | _, callMember ref member args => Exec.callMember ref member args
  | _, contain path => Exec.contain path
  | _, passthrough language code => Exec.passthrough language code
  | _, dispatch c => Exec.dispatch c

/-! ## Tasks -/

/-- **A call of one of the functions of the evaluator**, indexed by what it gives. -/
inductive Task : Type → Type
  | eval (e : Expr) : Task Value
  | evalAll (es : List Expr) : Task (List Value)
  | evalPairs (made : List (Value × Value)) (pairs : List (Expr × Expr)) : Task (List (Value × Value))
  | callExpr (callee : Expr) (args : List Value) : Task Value
  | callName (name : String) (args : List Value) : Task Value
  | callFunction (name : String) (args : List Value) : Task Value
  | execBlock (b : Block) : Task (Option Signal)
  | execLocated (s : Located Stmt) : Task (Option Signal)
  | exec (s : Stmt) : Task (Option Signal)
  | execWhile (cond : Expr) (body : Block) : Task (Option Signal)
  | execFor (var : String) (items : List Value) (body : Block) : Task (Option Signal)
  | execCommand (c : CommandStmt) : Task Unit
  | evalPositionals (ps : List Positional) : Task (List Value)
  | evalClauses (parts : Exec.CommandParts) (cs : List Clause) : Task Exec.CommandParts
  | runCallbacks (cbs : List Callback) : Task Unit

/-- Carry out a task with some fuel. -/
def Task.run (n : Nat) : {α : Type} → Task α → Exec α
  | _, eval e => Exec.eval n e
  | _, evalAll es => Exec.evalAll n es
  | _, evalPairs made pairs => Exec.evalPairs n made pairs
  | _, callExpr callee args => Exec.callExpr n callee args
  | _, callName name args => Exec.callName n name args
  | _, callFunction name args => Exec.callFunction n name args
  | _, execBlock b => Exec.execBlock n b
  | _, execLocated s => Exec.execLocated n s
  | _, exec s => Exec.exec n s
  | _, execWhile cond body => Exec.execWhile n cond body
  | _, execFor var items body => Exec.execFor n var items body
  | _, execCommand c => Exec.execCommand n c
  | _, evalPositionals ps => Exec.evalPositionals n ps
  | _, evalClauses parts cs => Exec.evalClauses n parts cs
  | _, runCallbacks cbs => Exec.runCallbacks n cbs

/-! ## Plans -/

/-- Run in the frame of a call unless the limit on nested calls is reached. -/
def Exec.limited {α : Type} (x : Exec α) : Exec α := fun m =>
  if m.maxDepth ≤ m.depth then fail (.recursion m.maxDepth) m else inCall x m

/-- **A plan**: tasks and questions to the machine in sequence, and parts that run in a frame of their own. -/
inductive Plan : Type → Type 1
  | give {α : Type} (r : Except Cause α) : Plan α
  | prim {α : Type} (p : Prim α) : Plan α
  | start {α : Type} (t : Task α) : Plan α
  | bind {α β : Type} (x : Plan α) (f : α → Plan β) : Plan β
  | atLine {α : Type} (line : Nat) (x : Plan α) : Plan α
  | inBlock {α : Type} (x : Plan α) : Plan α
  /-- In the frame of a call, within the limit on nested calls. -/
  | inCall {α : Type} (x : Plan α) : Plan α

namespace Plan

instance : Monad Plan where
  pure a := give (.ok a)
  bind := bind

/-- Give up. -/
def fail {α : Type} (c : Cause) : Plan α := give (.error c)

/-- Carry out a plan, its tasks by `f`. -/
def exec (f : (α : Type) → Task α → Exec α) : {α : Type} → Plan α → Exec α
  | _, give r => Exec.ofExcept r
  | _, prim p => p.exec
  | _, start t => f _ t
  | _, bind x g => x.exec f >>= fun a => (g a).exec f
  | _, atLine line x => Exec.atLine line (x.exec f)
  | _, inBlock x => Exec.inBlock (x.exec f)
  | _, inCall x => Exec.limited (x.exec f)

/-- Bind parameters to arguments in the current frame. -/
def bindParams : List String → List Value → Plan Unit
  | p :: ps, v :: vs => do
    prim (.define p v)
    bindParams ps vs
  | _, _ => pure ()

/-- Parameters are bound one by one. -/
theorem exec_bindParams (f : (α : Type) → Task α → Exec α) (ps : List String) (vs : List Value) :
    (bindParams ps vs).exec f = Exec.bindParams ps vs := by
  induction ps generalizing vs with
  | nil => rfl
  | cons p ps ih =>
    cases vs with
    | nil => rfl
    | cons v vs => exact bind_congr fun _ => ih vs

end Plan

/-- What a call gives when its body ended with a signal, or without one. -/
def Signal.result : Option Signal → Value
  | some (.return_ v) => v
  | _ => .nil

namespace Task

open Plan (prim start fail give)

/-- The plan of evaluating an expression. -/
def planEval : Expr → Plan Value
  | .literal l => pure (.ofLiteral l)
  | .var name => prim (.lookup name)
  | .unary .neg e => do
    let v ← start (.eval e)
    give v.neg
  | .unary .not e => do
    let v ← start (.eval e)
    pure (.bool !v.truthy)
  | .binary .and l r => do
    let v ← start (.eval l)
    if v.truthy then do
      let w ← start (.eval r)
      pure (.bool w.truthy)
    else pure (.bool false)
  | .binary .or l r => do
    let v ← start (.eval l)
    if v.truthy then pure (.bool true)
    else do
      let w ← start (.eval r)
      pure (.bool w.truthy)
  | .binary op l r => do
    let v ← start (.eval l)
    let w ← start (.eval r)
    give (Value.binary op v w)
  | .call callee args => do
    let vs ← start (.evalAll args)
    start (.callExpr callee vs)
  | .list items => do
    let vs ← start (.evalAll items)
    pure (.list vs)
  | .dict pairs => do
    let es ← start (.evalPairs [] pairs)
    pure (.dict es)
  | .index e i => do
    let v ← start (.eval e)
    let w ← start (.eval i)
    give (v.index w)
  | .member e name => do
    let v ← start (.eval e)
    match v with
    | .host ref =>
      match Hosts.member? ref name with
      | some w => pure w
      | none => fail (.name (ref.name ++ "." ++ name))
    | v => fail (.type (.noMember v.typeName name))

/-- The plan of a call of what an expression stands for. -/
def planCallExpr (args : List Value) : Expr → Plan Value
  | .var name => start (.callName name args)
  | .member e name => do
    let v ← start (.eval e)
    match v with
    | .host ref => prim (.callMember ref name args)
    | v => fail (.type (.noMember v.typeName name))
  | e => do
    let v ← start (.eval e)
    match v with
    | .func name => start (.callName name args)
    | v => fail (.type (.notCallable v.typeName))

/-- The plan of a call of a registered function. -/
def planCall (name : String) (args : List Value) : Plan Value := do
  let entry ← prim (.entry name)
  give (entry.arity.check name args.length)
  match entry with
  | .builtin _ (.pure body) => give (body args)
  | .builtin _ (.timed body) => do
    let r ← prim .glance
    give (body r.wall args)
  | .builtin _ (.host what) => prim (.host what args)
  | .user params body => do
    let signal ← Plan.inCall do
      Plan.bindParams params args
      start (.execBlock body)
    pure (Signal.result signal)

/-- The plan of a statement. -/
def planExec : Stmt → Plan (Option Signal)
  | .assign name e => do
    let v ← start (.eval e)
    prim (.assign name v)
    pure none
  | .print args => do
    let vs ← start (.evalAll args)
    prim (.writeLine (Value.displayLine vs))
    pure none
  | .branch cond yes no => do
    let v ← start (.eval cond)
    start (.execBlock (if v.truthy then yes else no))
  | .while_ cond body => start (.execWhile cond body)
  | .for_ var items body => do
    let v ← start (.eval items)
    let vs ← give v.iterate
    start (.execFor var vs body)
  | .define name params body => do
    prim (.defineUser name params body)
    pure none
  | .call callee args => do
    let _ ← start (.eval (.call callee args))
    pure none
  | .return_ none => pure (some (.return_ .nil))
  | .return_ (some e) => do
    let v ← start (.eval e)
    pure (some (.return_ v))
  | .break_ => pure (some .break_)
  | .continue_ => pure (some .continue_)
  | .contain path => do
    prim (.contain path)
    pure none
  | .passthrough language code => do
    prim (.passthrough language code)
    pure none
  | .command c => do
    start (.execCommand c)
    pure none

/-- What a loop does after a round that ended with `signal`; `again` is the rest of its rounds. -/
def planAfter (again : Plan (Option Signal)) : Option Signal → Plan (Option Signal)
  | some .break_ => pure none
  | some (.return_ v) => pure (some (.return_ v))
  | some .continue_ | none => again

/-- The plan of the clauses of a command, after those known before. -/
def planClauses (parts : Exec.CommandParts) : List Clause → Plan Exec.CommandParts
  | [] => pure parts
  | .values kind es :: rest => do
    let vs ← start (.evalAll es)
    start (.evalClauses { parts with clauses := parts.clauses ++ [(kind, vs)] } rest)
  | .into name :: rest => start (.evalClauses { parts with into := some name } rest)
  | .run function args :: rest => do
    let known ← prim (.registered function)
    if known then do
      let vs ← start (.evalAll args)
      start (.evalClauses { parts with callback := some ⟨function, vs⟩ } rest)
    else fail (.name function)

/-- **The plan of a task**: what it does with one unit of fuel, the rest handed to the tasks it starts. -/
def plan : {α : Type} → Task α → Plan α
  | _, eval e => planEval e
  | _, evalAll [] => pure []
  | _, evalAll (e :: rest) => do
    let v ← start (.eval e)
    let vs ← start (.evalAll rest)
    pure (v :: vs)
  | _, evalPairs made [] => pure made
  | _, evalPairs made ((k, e) :: rest) => do
    let key ← start (.eval k)
    let v ← start (.eval e)
    start (.evalPairs (Value.dictSet made key v) rest)
  | _, callExpr callee args => planCallExpr args callee
  | _, callName name args => do
    let target ← prim (.target name)
    start (.callFunction target args)
  | _, callFunction name args => planCall name args
  | _, execBlock [] => pure none
  | _, execBlock (s :: rest) => do
    match ← start (.execLocated s) with
    | some signal => pure (some signal)
    | none => start (.execBlock rest)
  | _, execLocated s => .atLine s.line (start (.exec s.node))
  | _, exec s => planExec s
  | _, execWhile cond body => do
    let v ← start (.eval cond)
    if v.truthy then do
      let signal ← Plan.inBlock (start (.execBlock body))
      planAfter (start (.execWhile cond body)) signal
    else pure none
  | _, execFor _ [] _ => pure none
  | _, execFor var (v :: rest) body => do
    let signal ← Plan.inBlock do
      prim (.define var v)
      start (.execBlock body)
    planAfter (start (.execFor var rest body)) signal
  | _, execCommand c => do
    let args ← start (.evalPositionals c.positionals)
    let parts ← start (.evalClauses {} c.clauses)
    let reply ← prim (.dispatch ⟨c.surface, c.verb, args, parts.clauses, parts.callback⟩)
    match parts.into with
    | some name => do
      prim (.assign name reply.value)
      start (.runCallbacks reply.callbacks)
    | none => start (.runCallbacks reply.callbacks)
  | _, evalPositionals [] => pure []
  | _, evalPositionals (.name s :: rest) => do
    let vs ← start (.evalPositionals rest)
    pure (.str s :: vs)
  | _, evalPositionals (.expr e :: rest) => do
    let v ← start (.eval e)
    let vs ← start (.evalPositionals rest)
    pure (v :: vs)
  | _, evalClauses parts cs => planClauses parts cs
  | _, runCallbacks [] => pure ()
  | _, runCallbacks (cb :: rest) => do
    let _ ← start (.callFunction cb.function cb.args)
    start (.runCallbacks rest)

/-- Without fuel a task ends at once. -/
theorem run_zero {α : Type} (t : Task α) : t.run 0 = Exec.exhausted := by
  cases t <;> rfl

/-- A call of a name, without a plan: it is looked up first. -/
theorem run_callName_succ (n : Nat) (name : String) (args : List Value) :
    Exec.callName (n + 1) name args =
      (Prim.target name).exec >>= fun target => Exec.callFunction n target args := by
  funext m
  show (match m.scopes.get? name with
    | some (.func target) => Exec.callFunction n target args
    | some v =>
      if m.registry.contains name then Exec.callFunction n name args
      else Exec.fail (.type (.notAFunction name v.typeName))
    | none => Exec.callFunction n name args : Exec Value) m
    = (Exec.ofExcept (m.callTarget name) >>= fun target => Exec.callFunction n target args) m
  unfold Machine.callTarget
  cases m.scopes.get? name with
  | none => rfl
  | some v =>
    cases v with
    | func target => rfl
    | _ =>
      dsimp only
      split <;> rfl

theorem run_callFunction_succ (n : Nat) (name : String) (args : List Value) :
    Exec.callFunction (n + 1) name args = (planCall name args).exec fun _ => run n := by
  funext m
  cases h : m.registry.get? name with
  | none =>
    have hentry : (Prim.entry name).exec m = Exec.fail (.name name) m := by simp only [Prim.exec, h]
    refine Eq.trans ?_ (Exec.bind_error hentry).symm
    simp only [Exec.callFunction, Exec.bind_apply, Exec.read, id, h]
    rfl
  | some entry =>
    have hentry : (Prim.entry name).exec m = (.ok entry, m) := by simp only [Prim.exec, h]
    refine Eq.trans ?_ (Exec.bind_ok hentry).symm
    simp only [Exec.callFunction, Exec.bind_apply, Exec.read, id, h]
    cases hc : entry.arity.check name args.length with
    | error c => rfl
    | ok u =>
      cases entry with
      | builtin arity body => cases body <;> rfl
      | user params body =>
        show (if m.maxDepth ≤ m.depth then Exec.fail (.recursion m.maxDepth) else _ : Exec Value) m =
          (Exec.limited ((Plan.bindParams params args).exec _ >>= fun _ => Exec.execBlock n body)
            >>= fun signal => pure (Signal.result signal)) m
        rw [Plan.exec_bindParams, Exec.bind_apply, Exec.limited]
        split
        · rfl
        · rw [Exec.bind_apply]
          rcases Exec.inCall _ m with ⟨_ | signal, m'⟩
          · rfl
          · rcases signal with _ | (_ | _ | _) <;> rfl

/-- **A task with fuel carries out its plan**, and the tasks it starts have one unit less. -/
theorem run_succ {α : Type} (n : Nat) (t : Task α) : t.run (n + 1) = t.plan.exec fun _ => run n := by
  -- both sides go by the same cases; where they branch on a value, the branches agree one by one
  cases t with
  | eval e =>
    cases e with
    | unary op e => cases op <;> rfl
    | binary op l r =>
      cases op with
      | and =>
        refine bind_congr fun v => ?_
        dsimp only
        split <;> rfl
      | or =>
        refine bind_congr fun v => ?_
        dsimp only
        split <;> rfl
      | _ => rfl
    | member e name =>
      refine bind_congr fun v => ?_
      cases v with
      | host ref =>
        dsimp only [Exec.member]
        cases Hosts.member? ref name <;> rfl
      | _ => rfl
    | _ => rfl
  | evalAll es => cases es <;> rfl
  | evalPairs made pairs => cases pairs <;> rfl
  | callExpr callee args =>
    cases callee with
    | var name => rfl
    | _ =>
      refine bind_congr fun v => ?_
      cases v <;> rfl
  | callName name args => exact run_callName_succ n name args
  | callFunction name args => exact run_callFunction_succ n name args
  | execBlock b =>
    cases b with
    | nil => rfl
    | cons s rest =>
      refine bind_congr fun signal => ?_
      cases signal <;> rfl
  | execLocated s => rfl
  | exec s =>
    cases s with
    | return_ value => cases value <;> rfl
    | _ => rfl
  | execWhile cond body =>
    refine bind_congr fun v => ?_
    dsimp only
    split
    · refine bind_congr fun signal => ?_
      rcases signal with _ | (_ | _ | _) <;> rfl
    · rfl
  | execFor var items body =>
    cases items with
    | nil => rfl
    | cons v rest =>
      refine bind_congr fun signal => ?_
      rcases signal with _ | (_ | _ | _) <;> rfl
  | execCommand c =>
    refine bind_congr fun args => bind_congr fun parts => bind_congr fun reply => ?_
    cases parts.into <;> rfl
  | evalPositionals ps =>
    cases ps with
    | nil => rfl
    | cons p rest => cases p <;> rfl
  | evalClauses parts cs =>
    cases cs with
    | nil => rfl
    | cons c rest =>
      cases c with
      | run function args =>
        refine bind_congr fun known => ?_
        dsimp only
        split <;> rfl
      | _ => rfl
  | runCallbacks cbs => cases cbs <;> rfl

end Task

end Helios
