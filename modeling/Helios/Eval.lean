import Helios.Machine
import Helios.Value.Arith

/-!
# Evaluation

Expressions are evaluated and statements are executed on the machine. Every function here takes fuel
and hands one unit less to the functions it calls, so all of them are total; `Halt.outOfFuel` says that
the fuel did not suffice.

Statements pass control on with a `Signal`; loops and calls take the signals that are meant for them.
-/

namespace Helios

/-- A statement that leaves the block it stands in. -/
inductive Signal
  | break_
  | continue_
  | return_ (v : Value)
  deriving Repr, Inhabited

namespace Exec

/-- What a name stands for. -/
def lookup (name : String) : Exec Value := do
  match ← read (·.resolveName? name) with
  | some v => pure v
  | none => fail (.name name)

/-- Bind parameters to arguments in the current frame. -/
def bindParams : List String → List Value → Exec Unit
  | p :: ps, v :: vs => do
    updateScopes (·.define p v)
    bindParams ps vs
  | _, _ => pure ()

/-- Read a member of a value; only objects have members. -/
def member (v : Value) (name : String) : Exec Value :=
  match v with
  | .host ref =>
    match Hosts.member? ref name with
    | some w => pure w
    | none => fail (.name (ref.name ++ "." ++ name))
  | v => fail (.type (.noMember v.typeName name))

/-- The values of the parts of a command, as far as they are known. -/
structure CommandParts where
  clauses : List (ClauseKind × List Value) := []
  /-- The variable that takes the answer. -/
  into : Option String := none
  callback : Option Callback := none
  deriving Inhabited

mutual

/-- Evaluate an expression. -/
def eval : Nat → Expr → Exec Value
  | 0, _ => exhausted
  | n + 1, e =>
    match e with
    | .literal l => pure (.ofLiteral l)
    | .var name => lookup name
    | .unary .neg e => do
      let v ← eval n e
      ofExcept v.neg
    | .unary .not e => do
      let v ← eval n e
      pure (.bool !v.truthy)
    | .binary .and l r => do
      let v ← eval n l
      if v.truthy then
        let w ← eval n r
        pure (.bool w.truthy)
      else pure (.bool false)
    | .binary .or l r => do
      let v ← eval n l
      if v.truthy then pure (.bool true)
      else
        let w ← eval n r
        pure (.bool w.truthy)
    | .binary op l r => do
      let v ← eval n l
      let w ← eval n r
      ofExcept (Value.binary op v w)
    | .call callee args => do
      let vs ← evalAll n args
      callExpr n callee vs
    | .list items => do
      let vs ← evalAll n items
      pure (.list vs)
    | .dict pairs => do
      let es ← evalPairs n [] pairs
      pure (.dict es)
    | .index e i => do
      let v ← eval n e
      let w ← eval n i
      ofExcept (v.index w)
    | .member e name => do
      let v ← eval n e
      member v name

/-- Evaluate expressions from left to right. -/
def evalAll : Nat → List Expr → Exec (List Value)
  | 0, _ => exhausted
  | _ + 1, [] => pure []
  | n + 1, e :: rest => do
    let v ← eval n e
    let vs ← evalAll n rest
    pure (v :: vs)

/-- Evaluate the entries of a dict into the ones made before. -/
def evalPairs : Nat → List (Value × Value) → List (Expr × Expr) → Exec (List (Value × Value))
  | 0, _, _ => exhausted
  | _ + 1, made, [] => pure made
  | n + 1, made, (k, e) :: rest => do
    let key ← eval n k
    let v ← eval n e
    evalPairs n (Value.dictSet made key v) rest

/-- Call what an expression stands for. A name is called as such, and a member of an object by the
    object. -/
def callExpr : Nat → Expr → List Value → Exec Value
  | 0, _, _ => exhausted
  | n + 1, callee, args =>
    match callee with
    | .var name => callName n name args
    | .member e name => do
      match ← eval n e with
      | .host ref => callMember ref name args
      | v => fail (.type (.noMember v.typeName name))
    | e => do
      match ← eval n e with
      | .func name => callName n name args
      | v => fail (.type (.notCallable v.typeName))

/-- Call what a name stands for: the function that a variable holds, or else the registered function
    of that name. -/
def callName : Nat → String → List Value → Exec Value
  | 0, _, _ => exhausted
  | n + 1, name, args => do
    let m ← read id
    match m.scopes.get? name with
    | some (.func target) => callFunction n target args
    | some v =>
      if m.registry.contains name then callFunction n name args
      else fail (.type (.notAFunction name v.typeName))
    | none => callFunction n name args

/-- **Call a registered function.** -/
def callFunction : Nat → String → List Value → Exec Value
  | 0, _, _ => exhausted
  | n + 1, name, args => do
    let m ← read id
    match m.registry.get? name with
    | none => fail (.name name)
    | some entry =>
      ofExcept (entry.arity.check name args.length)
      match entry with
      | .builtin _ (.pure run) => ofExcept (run args)
      | .builtin _ (.timed run) => do
        let r ← glance
        ofExcept (run r.wall args)
      | .builtin _ (.host what) => host what args
      | .user params body =>
        if m.maxDepth ≤ m.depth then fail (.recursion m.maxDepth)
        else
          let signal ← inCall do
            bindParams params args
            execBlock n body
          match signal with
          | some (.return_ v) => pure v
          | _ => pure .nil

/-- Execute statements until one of them leaves the block. -/
def execBlock : Nat → Block → Exec (Option Signal)
  | 0, _ => exhausted
  | _ + 1, [] => pure none
  | n + 1, s :: rest => do
    match ← execLocated n s with
    | some signal => pure (some signal)
    | none => execBlock n rest

/-- Execute a statement; failures get its line. -/
def execLocated : Nat → Located Stmt → Exec (Option Signal)
  | 0, _ => exhausted
  | n + 1, s => atLine s.line (exec n s.node)

/-- Execute a statement. -/
def exec : Nat → Stmt → Exec (Option Signal)
  | 0, _ => exhausted
  | n + 1, s =>
    match s with
    | .assign name e => do
      let v ← eval n e
      updateScopes (·.assign name v)
      pure none
    | .print args => do
      let vs ← evalAll n args
      writeLine (Value.displayLine vs)
      pure none
    | .branch cond yes no => do
      let v ← eval n cond
      execBlock n (if v.truthy then yes else no)
    | .while_ cond body => execWhile n cond body
    | .for_ var items body => do
      let v ← eval n items
      let vs ← ofExcept v.iterate
      execFor n var vs body
    | .define name params body => do
      update fun m => { m with registry := m.registry.defineUser name params body }
      pure none
    | .call callee args => do
      let _ ← eval n (.call callee args)
      pure none
    | .return_ none => pure (some (.return_ .nil))
    | .return_ (some e) => do
      let v ← eval n e
      pure (some (.return_ v))
    | .break_ => pure (some .break_)
    | .continue_ => pure (some .continue_)
    | .contain path => do
      contain path
      pure none
    | .passthrough language code => do
      passthrough language code
      pure none
    | .command c => do
      execCommand n c
      pure none

/-- Execute the body of a loop, each time in a frame of its own, while the condition holds. -/
def execWhile : Nat → Expr → Block → Exec (Option Signal)
  | 0, _, _ => exhausted
  | n + 1, cond, body => do
    let v ← eval n cond
    if v.truthy then
      match ← inBlock (execBlock n body) with
      | some .break_ => pure none
      | some (.return_ v) => pure (some (.return_ v))
      | some .continue_ | none => execWhile n cond body
    else pure none

/-- Execute the body of a loop for each item, each time in a frame of its own. -/
def execFor : Nat → String → List Value → Block → Exec (Option Signal)
  | 0, _, _, _ => exhausted
  | _ + 1, _, [], _ => pure none
  | n + 1, var, v :: rest, body => do
    let signal ← inBlock do
      updateScopes (·.define var v)
      execBlock n body
    match signal with
    | some .break_ => pure none
    | some (.return_ v) => pure (some (.return_ v))
    | some .continue_ | none => execFor n var rest body

/-- Execute a command: dispatch it, store the answer, and run the callbacks. -/
def execCommand : Nat → CommandStmt → Exec Unit
  | 0, _ => exhausted
  | n + 1, c => do
    let args ← evalPositionals n c.positionals
    let parts ← evalClauses n {} c.clauses
    let reply ← dispatch ⟨c.surface, c.verb, args, parts.clauses, parts.callback⟩
    match parts.into with
    | some name => updateScopes (·.assign name reply.value)
    | none => pure ()
    runCallbacks n reply.callbacks

/-- The values of the positions of a command. -/
def evalPositionals : Nat → List Positional → Exec (List Value)
  | 0, _ => exhausted
  | _ + 1, [] => pure []
  | n + 1, .name s :: rest => do
    let vs ← evalPositionals n rest
    pure (.str s :: vs)
  | n + 1, .expr e :: rest => do
    let v ← eval n e
    let vs ← evalPositionals n rest
    pure (v :: vs)

/-- The values of the clauses of a command, after those known before. A callback must name a registered
    function. -/
def evalClauses : Nat → CommandParts → List Clause → Exec CommandParts
  | 0, _, _ => exhausted
  | _ + 1, parts, [] => pure parts
  | n + 1, parts, .values kind es :: rest => do
    let vs ← evalAll n es
    evalClauses n { parts with clauses := parts.clauses ++ [(kind, vs)] } rest
  | n + 1, parts, .into name :: rest => evalClauses n { parts with into := some name } rest
  | n + 1, parts, .run function args :: rest => do
    if ← read (·.registry.contains function) then
      let vs ← evalAll n args
      evalClauses n { parts with callback := some ⟨function, vs⟩ } rest
    else fail (.name function)

/-- Call callbacks in order. -/
def runCallbacks : Nat → List Callback → Exec Unit
  | 0, _ => exhausted
  | _ + 1, [] => pure ()
  | n + 1, cb :: rest => do
    let _ ← callFunction n cb.function cb.args
    runCallbacks n rest

end

end Exec

end Helios
