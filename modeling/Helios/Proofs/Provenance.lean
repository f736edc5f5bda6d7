import Helios.Proofs.Logic

/-!
# Provenance — where the code comes from that a run executes

Statements that are executed stand in the program or in the body of a registered function, and bodies are
registered by statements that are executed. So a property of statements that goes down to the blocks inside
them holds of everything a run executes (`Hereditary.valid`).

Each task starts tasks that are smaller than itself, apart from a `while` that goes round again. Calls jump to
bodies of any size; they start nothing at their own depth.

Contents: `Stmt.blocks`, `Stmt.Within`, `Block.Has`, `Hereditary`, `Task.Smaller`, `Hereditary.plan_meets`.
-/

namespace Helios

/-! ## Code within code -/

/-- The blocks of a statement. -/
def Stmt.blocks : Stmt → List Block
  | branch _ yes no => [yes, no]
  | while_ _ body => [body]
  | for_ _ _ body => [body]
  | define _ _ body => [body]
  | _ => []

/-- A property of every statement of a block, but not of those inside them. -/
def Block.All (C : Stmt → Prop) (b : Block) : Prop := ∀ s ∈ b, C s.node

/-- **A statement stands within another one**, at any depth; bodies of functions count. -/
inductive Stmt.Within (s : Stmt) : Stmt → Prop
  | refl : Within s s
  | step {t : Stmt} {b : Block} {l : Located Stmt} (hb : b ∈ t.blocks) (hl : l ∈ b) (h : Within s l.node) :
    Within s t

/-- **A statement stands in a block**, at any depth and on the line it has there; bodies of functions count. -/
inductive Block.Has (l : Located Stmt) : Block → Prop
  | here {b : Block} (h : l ∈ b) : Has l b
  | inside {b b' : Block} {s : Located Stmt} (hs : s ∈ b) (hb : b' ∈ s.node.blocks) (h : Has l b') : Has l b

/-- The statements of a block are among given ones, those inside of others too. -/
def Block.Among (K : Located Stmt → Prop) (b : Block) : Prop := ∀ l, Block.Has l b → K l

/-- The statements inside a statement are among given ones. -/
def Stmt.Among (K : Located Stmt → Prop) (s : Stmt) : Prop := ∀ b ∈ s.blocks, Block.Among K b

namespace Block.Among

variable {K : Located Stmt → Prop}

theorem nil : Among K [] := by
  rintro l (h | ⟨hs, -, -⟩)
  · nomatch h
  · nomatch hs

/-- A statement, those within it, and those after it. -/
theorem cons_iff {s : Located Stmt} {b : Block} : Among K (s :: b) ↔ (K s ∧ s.node.Among K) ∧ Among K b := by
  constructor
  · intro h
    refine ⟨⟨h s (.here List.mem_cons_self), fun b' hb' l hl => ?_⟩, fun l hl => ?_⟩
    · exact h l (.inside List.mem_cons_self hb' hl)
    · cases hl with
      | here hl => exact h l (.here (List.mem_cons_of_mem s hl))
      | inside hs hb' hl => exact h l (.inside (List.mem_cons_of_mem s hs) hb' hl)
  · rintro ⟨⟨hs, hnode⟩, hb⟩ l hl
    cases hl with
    | here hl =>
      rcases List.mem_cons.mp hl with rfl | hl
      · exact hs
      · exact hb l (.here hl)
    | inside hs' hb' hl =>
      rcases List.mem_cons.mp hs' with rfl | hs'
      · exact hnode _ hb' l hl
      · exact hb l (.inside hs' hb' hl)

end Block.Among

namespace Block.All

variable {C : Stmt → Prop}

@[simp] theorem nil : All C [] := fun _ h => nomatch h

@[simp] theorem cons_iff {s : Located Stmt} {b : Block} : All C (s :: b) ↔ C s.node ∧ All C b :=
  List.forall_mem_cons

end Block.All

/-- **A property that code hands down**: `C` to the blocks inside a statement, and `D`, which is about the
    bodies of functions, to what the body is made of. -/
structure Hereditary (C : Stmt → Prop) (D : Block → Prop) : Prop where
  branch : ∀ {cond yes no}, C (.branch cond yes no) → Block.All C yes ∧ Block.All C no
  while_ : ∀ {cond body}, C (.while_ cond body) → Block.All C body
  for_ : ∀ {var items body}, C (.for_ var items body) → Block.All C body
  define : ∀ {name params body}, C (.define name params body) → D body
  body : ∀ {body}, D body → Block.All C body

/-- What holds of every statement within. -/
theorem Hereditary.within (P : Stmt → Prop) :
    Hereditary (fun s => ∀ t, t.Within s → P t) (Block.All fun s => ∀ t, t.Within s → P t) where
  branch h := by
    refine ⟨fun l hl t ht => h t (.step ?_ hl ht), fun l hl t ht => h t (.step ?_ hl ht)⟩
    · exact List.mem_cons_self
    · exact List.mem_cons_of_mem _ List.mem_cons_self
  while_ h l hl t ht := h t (.step (List.mem_singleton_self _) hl ht)
  for_ h l hl t ht := h t (.step (List.mem_singleton_self _) hl ht)
  define h l hl t ht := h t (.step (List.mem_singleton_self _) hl ht)
  body h := h

/-! ## The size of tasks -/

namespace Task

/-- The size of the code a task has to go through. A call has none, whatever it calls. -/
noncomputable def size : {α : Type} → Task α → Nat
  | _, eval e => 2 * sizeOf e + 2
  | _, evalAll es => 2 * sizeOf es + 2
  | _, evalPairs _ pairs => 2 * sizeOf pairs + 2
  | _, callExpr callee _ => 2 * sizeOf callee + 3
  | _, callName .. => 1
  | _, callFunction .. => 0
  | _, execBlock b => 2 * sizeOf b + 2
  | _, execLocated s => 2 * sizeOf s + 2
  | _, exec s => 2 * sizeOf s + 3
  | _, execWhile cond body => 2 * sizeOf cond + 2 * sizeOf body + 3
  | _, execFor _ _ body => 2 * sizeOf body + 3
  | _, execCommand c => 2 * sizeOf c + 2
  | _, evalPositionals ps => 2 * sizeOf ps + 2
  | _, evalClauses _ cs => 2 * sizeOf cs + 2
  | _, runCallbacks _ => 1

/-- How often a task goes over its code. -/
def rounds : {α : Type} → Task α → Nat
  | _, execFor _ items _ => items.length
  | _, runCallbacks cbs => cbs.length
  | _, _ => 0

/-- Less code to go through, or the same fewer times. -/
def Smaller {α β : Type} (u : Task β) (t : Task α) : Prop :=
  u.size < t.size ∨ u.size = t.size ∧ u.rounds < t.rounds

/-- The task of a `while` from one of its rounds on. -/
def IsWhile : {α : Type} → Task α → Prop
  | _, execWhile .. => True
  | _, _ => False

/-- The statements that a task has to go through have a property. -/
def Running (C : Stmt → Prop) : {α : Type} → Task α → Prop
  | _, execBlock b => Block.All C b
  | _, execLocated s => C s.node
  | _, exec s => C s
  | _, execWhile cond body => C (.while_ cond body)
  | _, execFor _ _ body => Block.All C body
  | _, _ => True

end Task

/-! ## What runs inherit -/

/-- The registered functions of the program have bodies with a property. -/
def Registry.Bodies (D : Block → Prop) (r : Registry) : Prop :=
  ∀ name params body, r.get? name = some (.user params body) → D body

namespace Registry.Bodies

variable {D : Block → Prop}

/-- Built-in functions have no code. -/
theorem insert_builtin {r : Registry} (h : r.Bodies D) (name : String) (arity : Arity) (body : BuiltinBody) :
    Registry.Bodies D (r.insert name (.builtin arity body)) := by
  intro name' params body' hget
  rw [Bindings.get?_insert] at hget
  split at hget
  · exact nomatch hget
  · exact h name' params body' hget

theorem ofList {es : List (String × FunctionEntry)} (h : ∀ e ∈ es, ∃ arity body, e.2 = .builtin arity body) :
    Registry.Bodies D (Bindings.ofList es) := by
  have hfold : ∀ (es : List (String × FunctionEntry)) (r : Registry), r.Bodies D →
      (∀ e ∈ es, ∃ arity body, e.2 = .builtin arity body) →
      Registry.Bodies D (es.foldl (fun b e => b.insert e.1 e.2) r) := by
    intro es
    induction es with
    | nil => exact fun _ hr _ => hr
    | cons e es ih =>
      intro r hr h
      obtain ⟨arity, body, he⟩ := h e List.mem_cons_self
      rw [List.foldl_cons, he]
      exact ih _ (hr.insert_builtin e.1 arity body) fun e' he' => h e' (List.mem_cons_of_mem _ he')
  have hempty : Registry.Bodies D .empty := by
    intro name params body hget
    rw [Bindings.get?_empty] at hget
    exact nomatch hget
  exact hfold es .empty hempty h

/-- The built-in functions have no bodies. -/
theorem withBuiltins (regex : Regex) : (Registry.withBuiltins regex).Bodies D := by
  refine ofList fun e he => ?_
  obtain ⟨⟨name, arity, body⟩, -, rfl⟩ := List.mem_map.mp he
  exact ⟨arity, body, rfl⟩

end Registry.Bodies

/-- The specification that code has a property: what is registered, what is running, what is being defined. -/
def Spec.code (C : Stmt → Prop) (D : Block → Prop) : Spec where
  Inv m := m.registry.Bodies D
  Pre t := t.Running C
  Post _ _ := True
  PrimPre
    | .defineUser _ _ body => D body
    | _ => True
  PrimPost
    | .entry _, e => ∀ params body, e = .user params body → D body
    | _, _ => True

/-- What the plan of `t` may start at its own depth. -/
def Task.Starting (C : Stmt → Prop) {α : Type} (t : Task α) (β : Type) (u : Task β) : Prop :=
  u.Running C ∧ (t.IsWhile ∨ u.Smaller t)

/-- What is smaller may be started. -/
theorem Task.Starting.of_size {C : Stmt → Prop} {α β : Type} {t : Task α} {u : Task β} (hu : u.Running C)
    (h : u.size < t.size) : t.Starting C β u := ⟨hu, .inr (.inl h)⟩

namespace Hereditary

variable {C : Stmt → Prop} {D : Block → Prop}

theorem bindParams_meets {near : (α : Type) → Task α → Prop} (ps : List String) (vs : List Value)
    {Q : Unit → Prop} (hQ : Q ()) : (Plan.bindParams ps vs).Meets (.code C D) near Q := by
  induction ps generalizing vs with
  | nil => exact Plan.Meets.pure_iff.mpr hQ
  | cons p ps ih =>
    cases vs with
    | nil => exact Plan.Meets.pure_iff.mpr hQ
    | cons v vs => exact ⟨trivial, fun _ _ => ih vs⟩

/-- An expression starts with smaller ones. -/
theorem planEval (e : Expr) :
    (Task.planEval e).Meets (.code C D) (Task.Starting C (.eval e)) fun _ => True := by
  cases e with
  | literal l => exact fun _ _ => trivial
  | var name => exact ⟨trivial, fun _ _ => trivial⟩
  | unary op e =>
    have he : Task.Starting C (.eval (.unary op e)) _ (.eval e) := by
      refine .of_size trivial ?_
      simp only [Task.size, Expr.unary.sizeOf_spec]
      omega
    cases op <;> exact ⟨he, fun _ _ _ _ => trivial⟩
  | binary op l r =>
    have hl : Task.Starting C (.eval (.binary op l r)) _ (.eval l) := by
      refine .of_size trivial ?_
      simp only [Task.size, Expr.binary.sizeOf_spec]
      omega
    have hr : Task.Starting C (.eval (.binary op l r)) _ (.eval r) := by
      refine .of_size trivial ?_
      simp only [Task.size, Expr.binary.sizeOf_spec]
      omega
    cases op with
    | and =>
      -- the second operand is evaluated in one of the two cases
      refine ⟨hl, fun v _ => ?_⟩
      dsimp only
      split
      · exact ⟨hr, fun _ _ _ _ => trivial⟩
      · exact fun _ _ => trivial
    | or =>
      refine ⟨hl, fun v _ => ?_⟩
      dsimp only
      split
      · exact fun _ _ => trivial
      · exact ⟨hr, fun _ _ _ _ => trivial⟩
    | _ => exact ⟨hl, fun _ _ => ⟨hr, fun _ _ _ _ => trivial⟩⟩
  | call callee args =>
    refine ⟨.of_size trivial ?_, fun vs _ => ⟨.of_size trivial ?_, fun _ _ => trivial⟩⟩
    · simp only [Task.size, Expr.call.sizeOf_spec]; omega
    · simp only [Task.size, Expr.call.sizeOf_spec]; omega
  | list items =>
    refine ⟨.of_size trivial ?_, fun _ _ _ _ => trivial⟩
    simp only [Task.size, Expr.list.sizeOf_spec]
    omega
  | dict pairs =>
    refine ⟨.of_size trivial ?_, fun _ _ _ _ => trivial⟩
    simp only [Task.size, Expr.dict.sizeOf_spec]
    omega
  | index e i =>
    refine ⟨.of_size trivial ?_, fun v _ => ⟨.of_size trivial ?_, fun _ _ _ _ => trivial⟩⟩
    · simp only [Task.size, Expr.index.sizeOf_spec]; omega
    · simp only [Task.size, Expr.index.sizeOf_spec]; omega
  | member e name =>
    refine ⟨.of_size trivial ?_, fun v _ => ?_⟩
    · simp only [Task.size, Expr.member.sizeOf_spec]; omega
    · cases v with
      | host ref =>
        dsimp only
        cases Hosts.member? ref name <;> exact fun _ _ => trivial
      | _ => exact fun _ _ => trivial

theorem planCallExpr (callee : Expr) (args : List Value) :
    (Task.planCallExpr args callee).Meets (.code C D) (Task.Starting C (.callExpr callee args))
      fun _ => True := by
  have hname : ∀ name, Task.Starting C (.callExpr callee args) _ (.callName name args) := by
    refine fun name => .of_size trivial ?_
    simp only [Task.size]
    omega
  cases callee with
  | var name => exact ⟨hname name, fun _ _ => trivial⟩
  | member e name =>
    refine ⟨.of_size trivial ?_, fun v _ => ?_⟩
    · simp only [Task.size, Expr.member.sizeOf_spec]; omega
    · cases v with
      | host ref => exact ⟨trivial, fun _ _ => trivial⟩
      | _ => exact fun _ _ => trivial
  | _ =>
    refine ⟨.of_size trivial (Nat.lt_succ_self _), fun v _ => ?_⟩
    cases v with
    | func name => exact ⟨hname name, fun _ _ => trivial⟩
    | _ => exact fun _ _ => trivial

/-- A call starts nothing at its own depth, and what it starts inside is the body of a registered function. -/
theorem planCall (h : Hereditary C D) (near : (α : Type) → Task α → Prop) (name : String)
    (args : List Value) : (Task.planCall name args).Meets (.code C D) near fun _ => True := by
  refine ⟨trivial, fun e he _ _ => ?_⟩
  cases e with
  | builtin arity body =>
    cases body with
    | pure body => exact fun _ _ => trivial
    | timed body => exact ⟨trivial, fun _ _ _ _ => trivial⟩
    | host what => exact ⟨trivial, fun _ _ => trivial⟩
  | user params body =>
    refine bindParams_meets params args ⟨?_, fun _ _ _ _ => trivial⟩
    exact h.body (he params body rfl)

/-- **A statement starts with code within it**, or runs a loop once more. -/
theorem planExec (h : Hereditary C D) (s : Stmt) (hs : C s) :
    (Task.planExec s).Meets (.code C D) (Task.Starting C (.exec s)) fun _ => True := by
  -- what a statement starts are its parts, and these are smaller
  cases s with
  | assign name e =>
    refine ⟨.of_size trivial ?_, fun _ _ => ⟨trivial, fun _ _ _ _ => trivial⟩⟩
    simp only [Task.size, Stmt.assign.sizeOf_spec]
    omega
  | print args =>
    refine ⟨.of_size trivial ?_, fun _ _ => ⟨trivial, fun _ _ _ _ => trivial⟩⟩
    simp only [Task.size, Stmt.print.sizeOf_spec]
    omega
  | branch cond yes no =>
    obtain ⟨hyes, hno⟩ := h.branch hs
    refine ⟨.of_size trivial ?_, fun v _ => ⟨?_, fun _ _ => trivial⟩⟩
    · simp only [Task.size, Stmt.branch.sizeOf_spec]; omega
    · split
      · exact .of_size hyes (by simp only [Task.size, Stmt.branch.sizeOf_spec]; omega)
      · exact .of_size hno (by simp only [Task.size, Stmt.branch.sizeOf_spec]; omega)
  | while_ cond body =>
    refine ⟨.of_size hs ?_, fun _ _ => trivial⟩
    simp only [Task.size, Stmt.while_.sizeOf_spec]
    omega
  | for_ var items body =>
    refine ⟨.of_size trivial ?_, fun v _ vs _ => ⟨.of_size (h.for_ hs) ?_, fun _ _ => trivial⟩⟩
    · simp only [Task.size, Stmt.for_.sizeOf_spec]; omega
    · simp only [Task.size, Stmt.for_.sizeOf_spec]; omega
  | define name params body => exact ⟨h.define hs, fun _ _ _ _ => trivial⟩
  | call callee args =>
    refine ⟨.of_size trivial ?_, fun _ _ _ _ => trivial⟩
    simp only [Task.size, Stmt.call.sizeOf_spec, Expr.call.sizeOf_spec]
    omega
  | return_ value =>
    cases value with
    | none => exact fun _ _ => trivial
    | some e =>
      refine ⟨.of_size trivial ?_, fun _ _ _ _ => trivial⟩
      simp only [Task.size, Stmt.return_.sizeOf_spec, Option.some.sizeOf_spec]
      omega
  | break_ | continue_ => exact fun _ _ => trivial
  | contain path => exact ⟨trivial, fun _ _ _ _ => trivial⟩
  | passthrough language code => exact ⟨trivial, fun _ _ _ _ => trivial⟩
  | command c =>
    refine ⟨.of_size trivial ?_, fun _ _ _ _ => trivial⟩
    simp only [Task.size, Stmt.command.sizeOf_spec]
    omega

theorem planAfter {near : (α : Type) → Task α → Prop} {again : Plan (Option Signal)}
    (h : again.Meets (.code C D) near fun _ => True) (signal : Option Signal) :
    (Task.planAfter again signal).Meets (.code C D) near fun _ => True := by
  rcases signal with _ | (_ | _ | v)
  · exact h
  · exact fun _ _ => trivial
  · exact h
  · exact fun _ _ => trivial

theorem planClauses (parts : Exec.CommandParts) (cs : List Clause) :
    (Task.planClauses parts cs).Meets (.code C D) (Task.Starting C (.evalClauses parts cs))
      fun _ => True := by
  cases cs with
  | nil => exact fun _ _ => trivial
  | cons c rest =>
    have hrest : ∀ parts', Task.Starting C (.evalClauses parts (c :: rest)) _ (.evalClauses parts' rest) := by
      refine fun _ => .of_size trivial ?_
      simp only [Task.size, List.cons.sizeOf_spec]
      omega
    cases c with
    | values kind es =>
      refine ⟨.of_size trivial ?_, fun _ _ => ⟨hrest _, fun _ _ => trivial⟩⟩
      simp only [Task.size, List.cons.sizeOf_spec, Clause.values.sizeOf_spec]
      omega
    | into name => exact ⟨hrest _, fun _ _ => trivial⟩
    | run function args =>
      refine ⟨trivial, fun known _ => ?_⟩
      dsimp only
      split
      · refine ⟨.of_size trivial ?_, fun _ _ => ⟨hrest _, fun _ _ => trivial⟩⟩
        simp only [Task.size, List.cons.sizeOf_spec, Clause.run.sizeOf_spec]
        omega
      · exact fun _ h => nomatch h

/-- **What a plan starts** has the property again, and is smaller, or the next round of a `while`. -/
theorem plan_meets (h : Hereditary C D) {α : Type} (t : Task α) (ht : t.Running C) :
    t.plan.Meets (.code C D) (t.Starting C) fun _ => True := by
  cases t with
  | eval e => exact planEval e
  | evalAll es =>
    cases es with
    | nil => exact fun _ _ => trivial
    | cons e rest =>
      refine ⟨.of_size trivial ?_, fun _ _ => ⟨.of_size trivial ?_, fun _ _ _ _ => trivial⟩⟩
      · simp only [Task.size, List.cons.sizeOf_spec]; omega
      · simp only [Task.size, List.cons.sizeOf_spec]; omega
  | evalPairs made pairs =>
    cases pairs with
    | nil => exact fun _ _ => trivial
    | cons p rest =>
      obtain ⟨k, e⟩ := p
      refine ⟨.of_size trivial ?_, fun _ _ => ⟨.of_size trivial ?_, fun _ _ => ⟨.of_size trivial ?_, ?_⟩⟩⟩
      · simp only [Task.size, List.cons.sizeOf_spec, Prod.mk.sizeOf_spec]; omega
      · simp only [Task.size, List.cons.sizeOf_spec, Prod.mk.sizeOf_spec]; omega
      · simp only [Task.size, List.cons.sizeOf_spec]; omega
      · exact fun _ _ => trivial
  | callExpr callee args => exact planCallExpr callee args
  | callName name args =>
    exact ⟨trivial, fun _ _ => ⟨.of_size trivial Nat.zero_lt_one, fun _ _ => trivial⟩⟩
  | callFunction name args => exact h.planCall _ name args
  | execBlock b =>
    cases b with
    | nil => exact fun _ _ => trivial
    | cons s rest =>
      obtain ⟨hs, hrest⟩ := Block.All.cons_iff.mp ht
      refine ⟨.of_size hs ?_, fun signal _ => ?_⟩
      · simp only [Task.size, List.cons.sizeOf_spec]; omega
      · cases signal with
        | some signal => exact fun _ _ => trivial
        | none =>
          refine ⟨.of_size hrest ?_, fun _ _ => trivial⟩
          simp only [Task.size, List.cons.sizeOf_spec]
          omega
  | execLocated s =>
    obtain ⟨line, s⟩ := s
    refine ⟨.of_size ht ?_, fun _ _ => trivial⟩
    simp only [Task.size, Located.mk.sizeOf_spec]
    omega
  | exec s => exact h.planExec s ht
  | execWhile cond body =>
    refine ⟨.of_size trivial (by simp only [Task.size]; omega), fun v _ => ?_⟩
    dsimp only
    split
    · refine ⟨.of_size (h.while_ ht) (by simp only [Task.size]; omega), fun signal _ => ?_⟩
      -- the only task that may start itself again
      refine planAfter ?_ signal
      exact ⟨⟨ht, .inl trivial⟩, fun _ _ => trivial⟩
    · exact fun _ _ => trivial
  | execFor var items body =>
    cases items with
    | nil => exact fun _ _ => trivial
    | cons v rest =>
      refine ⟨trivial, fun _ _ => ⟨.of_size ht (Nat.lt_succ_self _), fun signal _ => ?_⟩⟩
      refine planAfter ?_ signal
      exact ⟨⟨ht, .inr (.inr ⟨rfl, Nat.lt_succ_self _⟩)⟩, fun _ _ => trivial⟩
  | execCommand c =>
    obtain ⟨surface, verb, positionals, clauses⟩ := c
    refine ⟨.of_size trivial ?_, fun args _ => ⟨.of_size trivial ?_, ?_⟩⟩
    · simp only [Task.size, CommandStmt.mk.sizeOf_spec]; omega
    · simp only [Task.size, CommandStmt.mk.sizeOf_spec]; omega
    · refine fun parts _ => ⟨trivial, fun reply _ => ?_⟩
      have hrun : Task.Starting C (.execCommand ⟨surface, verb, positionals, clauses⟩) _
          (.runCallbacks reply.callbacks) := .of_size trivial (by simp only [Task.size]; omega)
      cases parts.into with
      | some name => exact ⟨trivial, fun _ _ => ⟨hrun, fun _ _ => trivial⟩⟩
      | none => exact ⟨hrun, fun _ _ => trivial⟩
  | evalPositionals ps =>
    cases ps with
    | nil => exact fun _ _ => trivial
    | cons p rest =>
      cases p with
      | name s =>
        refine ⟨.of_size trivial ?_, fun _ _ _ _ => trivial⟩
        simp only [Task.size, List.cons.sizeOf_spec]
        omega
      | expr e =>
        refine ⟨.of_size trivial ?_, fun _ _ => ⟨.of_size trivial ?_, fun _ _ _ _ => trivial⟩⟩
        · simp only [Task.size, List.cons.sizeOf_spec, Positional.expr.sizeOf_spec]; omega
        · simp only [Task.size, List.cons.sizeOf_spec]; omega
  | evalClauses parts cs => exact planClauses parts cs
  | runCallbacks cbs =>
    cases cbs with
    | nil => exact fun _ _ => trivial
    | cons cb rest =>
      refine ⟨.of_size trivial Nat.zero_lt_one, fun _ _ => ⟨⟨trivial, .inr (.inr ⟨rfl, ?_⟩)⟩, ?_⟩⟩
      · exact Nat.lt_succ_self _
      · exact fun _ _ => trivial

/-- The body of a function that is defined is code within. -/
theorem bodies_registryAfter {r : Registry} (hr : r.Bodies D) {α : Type} (p : Prim α)
    (hp : (Spec.code C D).PrimPre p) : (p.registryAfter r).Bodies D := by
  cases p with
  | defineUser name params body =>
    intro name' params' body' hget
    rw [Prim.registryAfter, Registry.defineUser, Bindings.get?_insert] at hget
    split at hget
    · cases hget
      exact hp
    · exact hr name' params' body' hget
  | _ => exact hr

/-- **Everything a run executes has the property.** -/
theorem valid (h : Hereditary C D) : (Spec.code C D).Valid where
  inside _ hm := hm
  left _ _ hm := hm
  called _ hm := hm
  returned _ _ hm := hm
  prim {α} p hp m hm := by
    refine ⟨?_, fun a ha => ?_⟩
    · show (p.exec m).2.registry.Bodies D
      rw [(Prim.Footprint.exec p m).registry]
      exact bodies_registryAfter hm p hp
    · cases p with
      | entry name =>
        rintro params body rfl
        dsimp only [Prim.exec] at ha
        cases hget : m.registry.get? name with
        | none =>
          rw [hget] at ha
          exact nomatch ha
        | some e =>
          rw [hget] at ha
          cases ha
          exact hm name params body hget
      | _ => trivial
  plan t ht := (h.plan_meets t ht).mono (fun _ hu => hu.1) fun _ => id

end Hereditary

end Helios
