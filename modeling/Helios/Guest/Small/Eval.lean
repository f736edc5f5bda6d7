import Helios.Guest.Engine
import Helios.Guest.Small.Arith
import Helios.Guest.Small.Parser

/-!
# An interpreter of the small guest language

Names that are not local are looked up in the table of the block, and then in the library. There are no
loops, so a run ends unless it nests too deep, which the fuel stands for. The interpreter remembers its
functions, which other blocks may call later on, and the local variables that these share.
-/

namespace Helios.Guest.Small

/-- The functions of the library. -/
inductive LibraryFunction
  | error | upper | mathType
  deriving DecidableEq, Repr, Inhabited

namespace LibraryFunction

/-- The name in messages. -/
def name : LibraryFunction → String
  | error => "error"
  | upper => "upper"
  | mathType => "type"

end LibraryFunction

/-- A local variable in view: its name, its cell, and how many functions are around its declaration. -/
structure LocalName where
  name : String
  cell : Nat
  level : Nat
  deriving Repr, Inhabited

/-- What a function of the guest's own does. -/
inductive Callable
  /-- `globals` is the table of the block that the function was written in. -/
  | closure (params : List String) (body : Block) (scope : List LocalName) (level globals : Nat)
  | library (which : LibraryFunction)

/-- **What the interpreter remembers**: its functions by their numbers, and the values of local variables. -/
structure Memory where
  functions : List (Nat × Callable)
  cells : Array Val

/-- The number of the table of library functions. -/
def library : Nat := 0

/-- The number of the table of string functions. -/
def stringLibrary : Nat := 1

/-- The number of the table of mathematical functions. -/
def mathLibrary : Nat := 2

/-- A heap that holds the library only. -/
def libraryHeap : Heap where
  tables := #[
    .ofEntries [(.ofString "error", .function 0), (.ofString "string", .table stringLibrary),
      (.ofString "math", .table mathLibrary)],
    .ofEntries [(.ofString "upper", .function 1)],
    .ofEntries [(.ofString "type", .function 2)]]
  functions := #[.own, .own, .own]

/-- A memory of the library only. -/
def libraryMemory : Memory := ⟨[(0, .library .error), (1, .library .upper), (2, .library .mathType)], #[]⟩

/-- A computation of the interpreter. -/
abbrev Code := ExceptT Failure (StateM (World × Memory))

/-- What a piece of code sees. -/
structure Context where
  /-- The table of the block. -/
  globals : Nat
  /-- The local variables, the innermost first. -/
  scope : List LocalName
  /-- How many functions are around. -/
  level : Nat
  /-- The line of the call that is being carried out. -/
  caller : Option Nat
  deriving Inhabited

namespace Context

/-- A local variable. -/
def find? (ctx : Context) (name : String) : Option LocalName :=
  ctx.scope.find? fun l => l.name == name

/-- How a message calls an expression: by the variable or the field that it is, if it is one. -/
def describe (ctx : Context) : Expr → String
  | .name s =>
    match ctx.find? s with
    | some l => (if l.level < ctx.level then " (upvalue '" else " (local '") ++ s ++ "')"
    | none => " (global '" ++ s ++ "')"
  | .index _ (.const (.str key)) _ => " (field '" ++ Text.decode ⟨key.toArray⟩ ++ "')"
  | .index _ (.const (.int n)) _ =>
    if 0 ≤ n.toInt ∧ n.toInt ≤ 255 then " (field 'integer index')" else " (field '?')"
  | .index .. => " (field '?')"
  | _ => ""

end Context

namespace Code

/-- What needs no memory. -/
def ofRun {α : Type} (x : Run α) : Code α := fun (w, memory) =>
  let (r, w) := x w
  (r, w, memory)

/-- Read the heap. -/
def heap : Code Heap := ofRun Run.heap

/-- Change the heap. -/
def update {α : Type} (f : Heap → α × Heap) : Code α := ofRun (Run.update f)

/-- Read the memory. -/
def memory : Code Memory := fun s => (.ok s.2, s)

/-- Change the memory. -/
def remember (f : Memory → Memory) : Code Unit := fun (w, memory) => (.ok (), w, f memory)

/-- Make a function. -/
def newFunction (c : Callable) : Code Nat := do
  let id ← update (·.newFunction .own)
  remember fun memory => { memory with functions := (id, c) :: memory.functions }
  pure id

/-- Make a local variable. -/
def newCell (v : Val) : Code Nat := do
  let cells := (← memory).cells
  remember fun memory => { memory with cells := memory.cells.push v }
  pure cells.size

/-- Fail at a line. -/
def failAt {α : Type} (line : Nat) (message : String) : Code α := throw (.error (atLine line message))

/-- Code nests too deep. -/
def overflow {α : Type} : Code α := throw (.error "stack overflow")

/-- The value of a name. -/
def lookup (ctx : Context) (name : String) : Code Val := do
  match ctx.find? name with
  | some l => return (← memory).cells.getD l.cell .nil
  | none =>
    let h ← heap
    match (h.table ctx.globals).get (.ofString name) with
    | .nil => pure ((h.table library).get (.ofString name))
    | v => pure v

/-- Set an entry of a table. -/
def setEntry (id : Nat) (key v : Val) (line : Nat) : Code Unit := do
  let h ← heap
  match (h.table id).set key v with
  | .ok t => update fun h => ((), h.setTable id t)
  | .error message => failAt line message

/-- Set a name. -/
def setName (ctx : Context) (name : String) (v : Val) (line : Nat) : Code Unit := do
  match ctx.find? name with
  | some l => remember fun memory => { memory with cells := memory.cells.setIfInBounds l.cell v }
  | none => setEntry ctx.globals (.ofString name) v line

/-- Make local variables; a name without a value is `nil`. -/
def declare (ctx : Context) : List String → List Val → Code Context
  | [], _ => pure ctx
  | name :: names, vs => do
    let cell ← newCell (vs.headD .nil)
    declare { ctx with scope := ⟨name, cell, ctx.level⟩ :: ctx.scope } names vs.tail

/-- Read an entry of a value; strings have the string functions. -/
def index (v key : Val) (what : String) (line : Nat) : Code Val := do
  let h ← heap
  match v with
  | .table id => pure ((h.table id).get key)
  | .str _ => pure ((h.table stringLibrary).get key)
  | v => failAt line ("attempt to index a " ++ v.typeName ++ " value" ++ what)

/-! ## Operators -/

/-- Arithmetic on values; `left` and `right` describe them. -/
def arith (op : BinOp) (a b : Val) (left right : String) (line : Nat) : Code Val :=
  let refuse := fun (v : Val) (what : String) =>
    failAt line ("attempt to perform arithmetic on a " ++ v.typeName ++ " value" ++ what)
  match a.number?, b.number? with
  | some x, some y =>
    match Val.arith op x y with
    | .ok v => pure v
    | .error issue => failAt line issue.message
  | none, _ => refuse a left
  | _, none => refuse b right

/-- Join two values. -/
def concat (a b : Val) (left right : String) (line : Nat) : Code Val :=
  let refuse := fun (v : Val) (what : String) =>
    failAt line ("attempt to concatenate a " ++ v.typeName ++ " value" ++ what)
  match a.bytes?, b.bytes? with
  | some x, some y => pure (.str (x ++ y))
  | none, _ => refuse a left
  | _, none => refuse b right

/-- Compare two values with a test. -/
def compare (test : Val → Val → Option Bool) (a b : Val) (line : Nat) : Code Val :=
  match test a b with
  | some r => pure (.bool r)
  | none => failAt line (Val.compareMessage a b)

/-- A binary operator on values. What is greater is compared from the other side. -/
def binary (op : BinOp) (a b : Val) (left right : String) (line : Nat) : Code Val :=
  match op with
  | .eq => pure (.bool (a.equal b))
  | .ne => pure (.bool !a.equal b)
  | .lt => compare Val.lt? a b line
  | .le => compare Val.le? a b line
  | .gt => compare Val.lt? b a line
  | .ge => compare Val.le? b a line
  | .concat => concat a b left right line
  | op => arith op a b left right line

/-- A unary operator on a value. -/
def unary (op : UnaryOp) (v : Val) (what : String) (line : Nat) : Code Val := do
  match op with
  | .not => pure (.bool !v.truthy)
  | .neg =>
    match v.number? with
    | some (.int n) => pure (.int (-n))
    | some x => pure (.float (-x.asFloat))
    | none => failAt line ("attempt to perform arithmetic on a " ++ v.typeName ++ " value" ++ what)
  | .len =>
    let h ← heap
    match v with
    | .str bytes => pure (.int (Int64.ofNat bytes.length))
    | .table id => pure (.int (Int64.ofNat (h.table id).length))
    | v => failAt line ("attempt to get length of a " ++ v.typeName ++ " value" ++ what)

/-! ## Functions that are not written in the guest language -/

/-- The upper case of an ASCII letter. -/
def upperByte (b : UInt8) : UInt8 := if 97 ≤ b && b ≤ 122 then b - 32 else b

/-- Call a function of the library from a line; `caller` is the line of the call around it. -/
def callLibrary (which : LibraryFunction) (args : List Val) (line : Nat) (caller : Option Nat) :
    Code (List Val) :=
  let badArgument := fun (what : String) =>
    failAt line ("bad argument #1 to '" ++ which.name ++ "' (" ++ what ++ ")")
  match which with
  | .error =>
    let v := args.headD .nil
    let level := match args.tail.headD .nil with
      | .int n => n.toInt
      | _ => 1
    match v, level, caller with
    | .str _, 1, _ => failAt line v.errorText
    | .str _, 2, some caller => failAt caller v.errorText
    | _, _, _ => throw (.error v.errorText)
  | .upper =>
    match args with
    | [] => badArgument "string expected, got no value"
    | v :: _ =>
      match v.bytes? with
      | some bytes => pure [.str (bytes.map upperByte)]
      | none => badArgument ("string expected, got " ++ v.typeName)
  | .mathType =>
    match args with
    | [] => badArgument "value expected"
    | .int _ :: _ => pure [.ofString "integer"]
    | .float _ :: _ => pure [.ofString "float"]
    | _ => pure [.nil]

/-! ## Tables -/

/-- How many values of fields without keys are stored at once. -/
def storedAtOnce : Nat := 50

/-- The layout of a table when its fields are about to be filled in: a row for those without keys, and
    room for the others. How many values a call at the end gives is not known by then. -/
def layoutOf (fields : List Field) : Layout :=
  let items := fields.countP Field.isItem
  let ending := match fields.getLast? with
    | some (.item (.call ..)) => 1
    | _ => 0
  ⟨items - ending, Layout.roomFor (fields.length - items)⟩

/-! ## Code -/

mutual

/-- Evaluate an expression to one value. -/
def eval : Nat → Context → Expr → Code Val
  | 0, _, _ => overflow
  | n + 1, ctx, e =>
    match e with
    | .const c => pure (.ofConst c)
    | .name s => lookup ctx s
    | .paren e => eval n ctx e
    | .index e key line => do
      let v ← eval n ctx e
      let k ← eval n ctx key
      index v k (ctx.describe e) line
    | .call f args line => do
      let vs ← evalCall n ctx f args line
      pure (vs.headD .nil)
    | .table fields => do
      let t ← evalFields n ctx 0 [] ⟨[], layoutOf fields⟩ fields
      let id ← update (·.newTable t)
      pure (.table id)
    | .unary op e line => do
      let v ← eval n ctx e
      unary op v (ctx.describe e) line
    | .binary op l r line => do
      let a ← eval n ctx l
      let b ← eval n ctx r
      binary op a b (ctx.describe l) (ctx.describe r) line
    | .and_ l r => do
      let a ← eval n ctx l
      if a.truthy then eval n ctx r else pure a
    | .or_ l r => do
      let a ← eval n ctx l
      if a.truthy then pure a else eval n ctx r
    | .function params body => do
      let id ← newFunction (.closure params body ctx.scope (ctx.level + 1) ctx.globals)
      pure (.function id)

/-- Evaluate expressions; a call at the end gives all its values. -/
def evalAll : Nat → Context → List Expr → Code (List Val)
  | 0, _, _ => overflow
  | _ + 1, _, [] => pure []
  | n + 1, ctx, [.call f args line] => evalCall n ctx f args line
  | n + 1, ctx, e :: rest => do
    let v ← eval n ctx e
    let vs ← evalAll n ctx rest
    pure (v :: vs)

/-- Fill a table from its fields. The values of fields without keys wait to be stored together, and
    `done` are stored already. -/
def evalFields : Nat → Context → Nat → List Val → Table → List Field → Code Table
  | 0, _, _, _, _, _ => overflow
  | _ + 1, _, done, waiting, t, [] => pure (t.fill done waiting)
  | n + 1, ctx, done, waiting, t, field :: rest =>
    if waiting.length = storedAtOnce then
      evalFields n ctx (done + waiting.length) [] (t.fill done waiting) (field :: rest)
    else
      match field, rest with
      | .item (.call f args line), [] => do
        let vs ← evalCall n ctx f args line
        pure (t.fill done (waiting ++ vs))
      | .item e, rest => do
        let v ← eval n ctx e
        evalFields n ctx done (waiting ++ [v]) t rest
      | .keyed key e line, rest => do
        let k ← eval n ctx key
        let v ← eval n ctx e
        match t.set k v with
        | .ok t => evalFields n ctx done waiting t rest
        | .error message => failAt line message

/-- Evaluate a call to all its values. -/
def evalCall : Nat → Context → Expr → List Expr → Nat → Code (List Val)
  | 0, _, _, _, _ => overflow
  | n + 1, ctx, f, args, line => do
    let callee ← eval n ctx f
    let vs ← evalAll n ctx args
    match callee with
    | .function id => call n id vs line ctx.caller
    | v => failAt line ("attempt to call a " ++ v.typeName ++ " value" ++ ctx.describe f)

/-- Call a function. -/
def call : Nat → Nat → List Val → Nat → Option Nat → Code (List Val)
  | 0, _, _, _, _ => overflow
  | n + 1, id, args, line, caller => do
    let h ← heap
    match h.functions.getD id .own, (← memory).functions.lookup id with
    | .lent name arity run, _ => return [← ofRun (Run.callLent name arity run args)]
    | .own, some (.closure params body scope level globals) =>
      let ctx ← declare ⟨globals, scope, level, some line⟩ params args
      let result ← execBlock n ctx body
      pure (result.getD [])
    | .own, some (.library which) => callLibrary which args line caller
    | .own, none => pure []

/-- Execute a block; the values that it returns, if it does. -/
def execBlock : Nat → Context → Block → Code (Option (List Val))
  | 0, _, _ => overflow
  | _ + 1, _, [] => pure none
  | n + 1, ctx, s :: rest => do
    match s with
    | .return_ values =>
      let vs ← evalAll n ctx values
      pure (some vs)
    | .branch cond yes no =>
      let v ← eval n ctx cond
      match ← execBlock n ctx (if v.truthy then yes else no) with
      | some vs => pure (some vs)
      | none => execBlock n ctx rest
    | .block body =>
      match ← execBlock n ctx body with
      | some vs => pure (some vs)
      | none => execBlock n ctx rest
    | .call e =>
      let _ ← eval n ctx e
      execBlock n ctx rest
    | .declare names values =>
      let vs ← evalAll n ctx values
      let ctx ← declare ctx names vs
      execBlock n ctx rest
    | .declareFunction name params body =>
      let ctx ← declare ctx [name] []
      let id ← newFunction (.closure params body ctx.scope (ctx.level + 1) ctx.globals)
      setName ctx name (.function id) 0
      execBlock n ctx rest
    | .assign targets values line =>
      assign n ctx targets values line
      execBlock n ctx rest

/-- Carry out an assignment: what the targets refer to is found before the values. -/
def assign : Nat → Context → List Expr → List Expr → Nat → Code Unit
  | 0, _, _, _, _ => overflow
  | n + 1, ctx, targets, values, line => do
    let places ← evalPlaces n ctx targets
    let vs ← evalAll n ctx values
    store n ctx places vs line

/-- What targets refer to: a name, or a value and a key with the description of the value. -/
def evalPlaces : Nat → Context → List Expr → Code (List (String ⊕ (Val × Val × String)))
  | 0, _, _ => overflow
  | _ + 1, _, [] => pure []
  | n + 1, ctx, .index e key _ :: rest => do
    let v ← eval n ctx e
    let k ← eval n ctx key
    let places ← evalPlaces n ctx rest
    pure (.inr (v, k, ctx.describe e) :: places)
  | n + 1, ctx, .name s :: rest => do
    let places ← evalPlaces n ctx rest
    pure (.inl s :: places)
  | n + 1, ctx, _ :: rest => evalPlaces n ctx rest

/-- Store values at places, the last place first; a place without a value gets `nil`. -/
def store : Nat → Context → List (String ⊕ (Val × Val × String)) → List Val → Nat → Code Unit
  | 0, _, _, _, _ => overflow
  | _ + 1, _, [], _, _ => pure ()
  | n + 1, ctx, place :: rest, vs, line => do
    store n ctx rest vs.tail line
    let v := vs.headD .nil
    match place with
    | .inl name => setName ctx name v line
    | .inr (.table id, key, _) => setEntry id key v line
    | .inr (other, _, what) =>
      failAt line ("attempt to index a " ++ other.typeName ++ " value" ++ what)

end

/-- How deep code may nest. -/
def maxDepth : Nat := 16000

/-- Run a block against its table. -/
def block (globals : Nat) (body : Block) : Code Unit := do
  let _ ← execBlock maxDepth ⟨globals, [], 0, none⟩ body
  pure ()

end Code

/-- The wording of a block that cannot be read. -/
def syntaxMessage (message : String) : String := "syntax error: " ++ message

/-- **The interpreter.** -/
def interpreter : Interpreter Memory where
  heap := libraryHeap
  memory := libraryMemory
  run globals code s :=
    match parse code with
    | .error message => (.error (.error (syntaxMessage message)), s)
    | .ok body =>
      match Code.block globals body s with
      | (.error (.error message), s) => (.error (.error (runtimeMessage message)), s)
      | r => r

end Helios.Guest.Small
