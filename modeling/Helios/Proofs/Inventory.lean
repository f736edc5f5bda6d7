import Helios.Proofs.Anatomy
import Helios.Proofs.View
import Helios.Proofs.Formed
import Helios.Proofs.Stored

/-!
# Inventory — all the values there are

Values are found in variables, in what the frontend keeps and in what tasks hand on to each other: arguments, items
still to go over, entries made so far, values of clauses. A property that values are built with (`Value.Formed`) and
that holds of all of them before a run holds of all of them during the run and after it, and of whatever any of its
tasks gives (`Inventory.valid`).

Blocks of other languages are left out, as they may hand over any value: no code that is considered has one
(`Stmt.Own`).
-/

namespace Helios

/-! ## Code without blocks of other languages -/

/-- **A statement all of whose code is of this language**: no block of another one stands within it. -/
def Stmt.Own (s : Stmt) : Prop := ∀ t : Stmt, t.Within s → ∀ language code, t ≠ .passthrough language code

/-- **A block all of whose code is of this language.** -/
abbrev Block.Own (b : Block) : Prop := Block.All Stmt.Own b

/-- The parts of code without foreign blocks have none. -/
theorem Stmt.own_hereditary : Hereditary Stmt.Own Block.Own := .within _

/-! ## Where values are -/

/-- Every variable of every frame satisfies `V`. -/
def Scopes.Holds (V : Value → Prop) (s : Scopes) : Prop :=
  ∀ id f, s.frame? id = some f → ∀ name v, f.vars.get? name = some v → V v

/-- The arguments of a callback satisfy `V`. -/
def Callback.Holds (V : Value → Prop) (cb : Callback) : Prop := ∀ v ∈ cb.args, V v

/-- The values of the clauses known so far, and the arguments of the callback, satisfy `V`. -/
structure Exec.CommandParts.Holds (V : Value → Prop) (parts : Exec.CommandParts) : Prop where
  clause : ∀ e ∈ parts.clauses, ∀ v ∈ e.2, V v
  callback : ∀ cb ∈ parts.callback, cb.Holds V

/-- The value that a signal carries satisfies `V`. -/
def Signal.Holds (V : Value → Prop) (signal : Option Signal) : Prop := ∀ v, signal = some (.return_ v) → V v

/-- The values that a task was handed satisfy `V`. -/
def Task.Holds (V : Value → Prop) : {α : Type} → Task α → Prop
  | _, evalPairs made _ => V (.dict made)
  | _, callExpr _ args | _, callName _ args | _, callFunction _ args => ∀ v ∈ args, V v
  | _, execFor _ items _ => ∀ v ∈ items, V v
  | _, evalClauses parts _ => parts.Holds V
  | _, runCallbacks cbs => ∀ cb ∈ cbs, cb.Holds V
  | _, _ => True

/-- What a task gives satisfies `V`. -/
def Task.Offers (V : Value → Prop) : {α : Type} → Task α → α → Prop
  | _, eval _, v | _, callExpr _ _, v | _, callName _ _, v | _, callFunction _ _, v => V v
  | _, evalAll _, vs | _, evalPositionals _, vs => ∀ v ∈ vs, V v
  | _, evalPairs _ _, es => V (.dict es)
  | _, execBlock _, signal | _, execLocated _, signal | _, exec _, signal | _, execWhile _ _, signal
  | _, execFor _ _ _, signal => Signal.Holds V signal
  | _, evalClauses _ _, parts => parts.Holds V
  | _, execCommand _, _ | _, runCallbacks _, _ => True

/-- **What a frontend keeps and answers satisfies `V`.** Of a frontend of another kind it is assumed that it answers so
    whenever it was sent such values and callbacks only. -/
inductive Screen.Holds (V : Value → Prop) : Screen → Prop
  | headless {f : Frontend} (h : f.Stores V (Callback.Holds V)) : Holds V (.headless f)
  | other {o : Oracle FrontendCommand FrontendOutcome} (hasked : ∀ c ∈ o.asked, c.Carries V (Callback.Holds V))
    (hanswer : ∀ asked c reply, (∀ c' ∈ asked, c'.Carries V (Callback.Holds V)) → c.Carries V (Callback.Holds V) →
      o.answer asked c = .ok reply → reply.Carries V (Callback.Holds V)) : Holds V (.other o)

/-- **Every value of a machine satisfies `V`**: in variables and at the frontend. -/
structure Machine.Holds (V : Value → Prop) (m : Machine) : Prop where
  scopes : m.scopes.Holds V
  frontend : m.frontend.Holds V

/-- A command that brings such values along leaves it so. -/
theorem Screen.Holds.dispatch {V : Value → Prop} (hV : Value.Basic V) {s : Screen} (hs : s.Holds V) {c : FrontendCommand}
    (hc : c.Carries V (Callback.Holds V)) :
    (s.dispatch c).2.Holds V ∧ ∀ reply, (s.dispatch c).1 = .ok reply → reply.Carries V (Callback.Holds V) := by
  cases hs with
  | headless h => exact ⟨.headless (h.dispatch hV hc).1, (h.dispatch hV hc).2⟩
  | other hasked hanswer =>
    refine ⟨.other (fun c' hc' => ?_) hanswer, fun reply hreply => hanswer _ _ reply hasked hc hreply⟩
    rcases List.mem_append.mp hc' with hc' | hc'
    · exact hasked c' hc'
    · obtain rfl := List.mem_singleton.mp hc'
      exact hc

/-- A registry of built-in functions and of functions all of whose code is of this language. -/
structure Registry.Own (r : Registry) : Prop where
  native : r.Native
  bodies : r.Bodies Block.Own

/-- Built-in functions have no code. -/
theorem Registry.Own.withBuiltins (regex : Regex) : (Registry.withBuiltins regex).Own :=
  ⟨.withBuiltins regex, .withBuiltins regex⟩

/-! ## Variables -/

namespace Scopes

variable {V : Value → Prop} {s : Scopes}

/-- Storing a frame brings in no variables but its own. -/
theorem holds_store (h : s.Holds V) {frames : Array (Option Frame)} (new : Option Frame)
    (hframes : ∀ id : Nat, frames[id]? = s.frames[id]? ∨ frames[id]? = some new)
    (hnew : ∀ f, new = some f → ∀ name v, f.vars.get? name = some v → V v) (free : List ScopeId) (current : ScopeId) :
    Holds V ⟨frames, free, current⟩ := by
  intro id f hf
  unfold frame? at hf
  rcases hframes id with heq | heq
  · rw [heq] at hf
    exact h id f hf
  · rw [heq] at hf
    exact hnew f hf

theorem getElem?_setIfInBounds_or {α : Type} (xs : Array α) (i id : Nat) (a : α) :
    (xs.setIfInBounds i a)[id]? = xs[id]? ∨ (xs.setIfInBounds i a)[id]? = some a := by
  rw [Array.getElem?_setIfInBounds]
  split
  · split
    · exact .inr rfl
    · rename_i heq hsize
      exact .inl (Array.getElem?_eq_none (by omega)).symm
  · exact .inl rfl

namespace Holds

/-- The global frame is empty. -/
theorem initial : Holds V .initial := by
  refine holds_store (s := ⟨#[], [], 0⟩) nofun (some ⟨.empty, none⟩) (fun id => ?_) ?_ [] global
  · cases id with
    | zero => exact .inr rfl
    | succ id => exact .inl rfl
  · rintro f hf name v hv
    obtain rfl := Option.some.inj hf
    nomatch hv

/-- A new frame holds nothing. -/
theorem enter (h : s.Holds V) (parent : ScopeId) : (s.enter parent).2.Holds V := by
  have hnew : ∀ f, some (Frame.mk .empty (some parent)) = some f → ∀ name v, f.vars.get? name = some v → V v := by
    rintro f hf name v hv
    obtain rfl := Option.some.inj hf
    nomatch hv
  unfold Scopes.enter
  cases s.free with
  | cons id free => exact holds_store h _ (fun id' => getElem?_setIfInBounds_or ..) hnew _ _
  | nil =>
    refine holds_store h _ (fun id' => ?_) hnew _ _
    rw [Array.getElem?_push]
    split
    · exact .inr rfl
    · exact .inl rfl

/-- Frames only go. -/
theorem leave (h : s.Holds V) (saved : ScopeId) : (s.leave saved).Holds V := by
  unfold Scopes.leave
  split
  · exact h
  · exact holds_store h none (fun id' => getElem?_setIfInBounds_or ..) (fun f hf => nomatch hf) _ _

/-- A value that is bound is one more. -/
theorem bindIn (h : s.Holds V) (i : ScopeId) (name : String) {v : Value} (hv : V v) : (s.bindIn i name v).Holds V := by
  intro id f hf name' w hw
  rw [frame?_bindIn] at hf
  split at hf
  · obtain ⟨f₀, hf₀, rfl⟩ := Option.map_eq_some_iff.mp hf
    rw [Bindings.get?_insert] at hw
    split at hw
    · obtain rfl := Option.some.inj hw
      exact hv
    · exact h i f₀ hf₀ name' w hw
  · exact h id f hf name' w hw

/-- What a name stands for is in some frame. -/
theorem get? (h : s.Holds V) {name : String} {v : Value} (hv : s.get? name = some v) : V v := by
  obtain ⟨p, hp, hget⟩ := List.exists_of_findSome?_eq_some hv
  exact h p.1 p.2 (frame?_of_mem_chainFrom p hp) name v hget

end Holds

end Scopes

/-! ## The specification -/

/-- **The specification that all values satisfy `V`**, for code of this language. -/
def Spec.inventory (V : Value → Prop) : Spec where
  Inv m := m.Holds V ∧ m.registry.Own
  Pre t := t.Running Stmt.Own ∧ t.Holds V
  Post t a := t.Offers V a
  PrimPre
    | .assign _ v | .define _ v => V v
    | .defineUser _ _ body => body.Own
    | .host _ args | .callMember _ _ args => ∀ v ∈ args, V v
    | .passthrough _ _ => False
    | .dispatch c => c.Carries V (Callback.Holds V)
    | _ => True
  PrimPost
    | .lookup _, v | .host _ _, v | .callMember _ _ _, v => V v
    | .entry _, entry => entry.Native ∧ ∀ params body, entry = .user params body → body.Own
    | .dispatch _, reply => reply.Carries V (Callback.Holds V)
    | _, _ => True

namespace Inventory

variable {V : Value → Prop} (hV : Value.Formed V)

/-! ### Questions -/

include hV in
/-- Scalars are beyond doubt. -/
theorem basic : Value.Basic V := ⟨hV.scalar rfl, fun _ => hV.scalar rfl, hV.scalar rfl⟩

theorem own_defineUser {r : Registry} (h : r.Own) (name : String) (params : List String) {body : Block}
    (hbody : body.Own) : Registry.Own (r.defineUser name params body) where
  native := (Registry.Known.of_native h.native).defineUser name params (fun _ _ => trivial) |>.native
  bodies := by
    intro name' params' body' hget
    rw [Registry.defineUser, Bindings.get?_insert] at hget
    split at hget
    · cases hget
      exact hbody
    · exact h.bodies name' params' body' hget

/-- Functions that are defined have bodies without foreign blocks. -/
theorem own_exec {α : Type} (p : Prim α) {m : Machine} (hp : (Spec.inventory V).PrimPre p) (h : m.registry.Own) :
    (p.exec m).2.registry.Own := by
  rw [(Prim.Footprint.exec p m).registry]
  cases p with
  | defineUser name params body => exact own_defineUser h name params hp
  | _ => exact h

include hV in
theorem frontend_exec {α : Type} (p : Prim α) {m : Machine} (hp : (Spec.inventory V).PrimPre p)
    (h : m.frontend.Holds V) : (p.exec m).2.frontend.Holds V := by
  rw [Prim.frontend_exec]
  cases p with
  | dispatch c => exact (h.dispatch (basic hV) hp).1
  | _ => exact h

/-- A computation that is apart from frames leaves them alone. -/
theorem scopes_of_apart {α : Type} {x : Exec α} (h : x.Apart) (m : Machine) : (x m).2.scopes = m.scopes := by
  rw [h.snd_eq m]
  rfl

include hV in
/-- **Each question leaves only such values in the variables.** -/
theorem scopes_exec {α : Type} (p : Prim α) {m : Machine} (hp : (Spec.inventory V).PrimPre p)
    (h : m.scopes.Holds V) : (p.exec m).2.scopes.Holds V := by
  cases p with
  | lookup name =>
    rw [Prim.exec_lookup]
    cases m.resolveName? name <;> exact h
  | target name =>
    show (Exec.ofExcept (m.callTarget name) m).2.scopes.Holds V
    cases m.callTarget name <;> exact h
  | entry name =>
    dsimp only [Prim.exec]
    cases m.registry.get? name <;> exact h
  | assign name v => exact h.bindIn _ name hp
  | define name v => exact h.bindIn _ name hp
  | host what args =>
    rw [Prim.exec, scopes_of_apart (.host what args)]
    exact h
  | callMember ref member args =>
    rw [Prim.exec, scopes_of_apart (.callMember ref member args)]
    exact h
  | contain path =>
    -- what is imported is an object, and so a scalar
    dsimp only [Prim.exec, Exec.contain]
    rcases Resolver.resolveFirst m.resolvers path m.hosts with ⟨_ | ref, _, _⟩
    · exact h
    · exact h.bindIn _ _ (hV.scalar rfl)
  | passthrough language code => exact hp.elim
  | dispatch c =>
    rw [Prim.exec, scopes_of_apart (.dispatch c)]
    exact h
  | registered _ | defineUser _ _ _ | writeLine _ | glance => exact h

include hV in
/-- **And its answer is one.** -/
theorem answer_exec {α : Type} (p : Prim α) {m : Machine} (hp : (Spec.inventory V).PrimPre p) (hm : m.Holds V)
    (hr : m.registry.Own) {a : α} (ha : (p.exec m).1 = .ok a) : (Spec.inventory V).PrimPost p a := by
  cases p with
  | lookup name =>
    rw [Prim.exec_lookup] at ha
    unfold Machine.resolveName? at ha
    cases hget : m.scopes.get? name with
    | some v =>
      rw [hget] at ha
      obtain rfl := Except.ok.inj ha
      exact hm.scopes.get? hget
    | none =>
      -- a name without a value may still be that of a function
      rw [hget] at ha
      dsimp only at ha
      split at ha
      · rename_i hname
        split at hname
        · obtain rfl := Option.some.inj hname
          obtain rfl := Except.ok.inj ha
          exact hV.scalar rfl
        · nomatch hname
      · nomatch ha
  | entry name =>
    dsimp only [Prim.exec] at ha
    cases hget : m.registry.get? name with
    | none =>
      rw [hget] at ha
      nomatch ha
    | some entry =>
      rw [hget] at ha
      obtain rfl := Except.ok.inj ha
      refine ⟨hr.native name entry hget, ?_⟩
      rintro params body rfl
      exact hr.bodies name params body hget
  | host what args => exact Exec.host_gives hV what hp m a ha
  | callMember ref member args =>
    dsimp only [Prim.exec, Exec.callMember] at ha
    have hcall := @Hosts.call_gives V hV m.reading m.hosts ref member args hp
    revert ha hcall
    rcases m.hosts.call m.reading ref member args with ⟨_ | v, _⟩ <;> intro ha hcall
    · nomatch ha
    · obtain rfl := Except.ok.inj ha
      exact hcall rfl
  | dispatch c => exact (hm.frontend.dispatch (basic hV) hp).2 a (Prim.dispatch_answer ha)
  | _ => trivial

/-! ### Plans -/

/-- What a plan gives satisfies `V`. -/
abbrev Meets (V : Value → Prop) {α : Type} (p : Plan α) (Q : α → Prop) : Prop :=
  p.Meets (.inventory V) (fun _ => (Spec.inventory V).Pre) Q

theorem bindParams (ps : List String) {vs : List Value} (hvs : ∀ v ∈ vs, V v) {Q : Unit → Prop} (hQ : Q ()) :
    Meets V (Plan.bindParams ps vs) Q := by
  induction ps generalizing vs with
  | nil => exact Plan.Meets.pure_iff.mpr hQ
  | cons p ps ih =>
    cases vs with
    | nil => exact Plan.Meets.pure_iff.mpr hQ
    | cons v vs =>
      obtain ⟨hv, hvs⟩ := List.forall_mem_cons.mp hvs
      exact ⟨hv, fun _ _ => ih hvs⟩

include hV in
theorem ofLiteral (l : Literal) : V (.ofLiteral l) := by
  cases l <;> exact hV.scalar rfl

include hV in
/-- Expressions, by their form. -/
theorem planEval (e : Expr) : Meets V (Task.planEval e) V := by
  have hbool : ∀ b, V (.bool b) := fun b => hV.scalar rfl
  cases e with
  | literal l => exact Plan.Meets.pure_iff.mpr (ofLiteral hV l)
  | var name => exact ⟨trivial, fun _ hv => hv⟩
  | unary op e =>
    cases op with
    | neg => exact ⟨⟨trivial, trivial⟩, fun v _ => (hV.neg v).of_ok⟩
    | not => exact ⟨⟨trivial, trivial⟩, fun v _ => Plan.Meets.pure_iff.mpr (hbool _)⟩
  | binary op l r =>
    have hstart : ∀ e, (Spec.inventory V).Pre (.eval e) := fun _ => ⟨trivial, trivial⟩
    cases op with
    | and =>
      -- the second operand may not be evaluated, and a truth value comes of it in any case
      refine ⟨hstart l, fun v _ => ?_⟩
      dsimp only
      split
      · exact ⟨hstart r, fun w _ => Plan.Meets.pure_iff.mpr (hbool _)⟩
      · exact Plan.Meets.pure_iff.mpr (hbool _)
    | or =>
      refine ⟨hstart l, fun v _ => ?_⟩
      dsimp only
      split
      · exact Plan.Meets.pure_iff.mpr (hbool _)
      · exact ⟨hstart r, fun w _ => Plan.Meets.pure_iff.mpr (hbool _)⟩
    | _ => exact ⟨hstart l, fun v hv => ⟨hstart r, fun w hw => (hV.binary _ hv hw).of_ok⟩⟩
  | call callee args => exact ⟨⟨trivial, trivial⟩, fun vs hvs => ⟨⟨trivial, hvs⟩, fun _ hv => hv⟩⟩
  | list items => exact ⟨⟨trivial, trivial⟩, fun vs hvs => Plan.Meets.pure_iff.mpr (hV.list hvs)⟩
  | dict pairs => exact ⟨⟨trivial, hV.empty⟩, fun es hes => Plan.Meets.pure_iff.mpr hes⟩
  | index e i =>
    exact ⟨⟨trivial, trivial⟩, fun v hv => ⟨⟨trivial, trivial⟩, fun w _ => (hV.index hv).of_ok⟩⟩
  | member e name =>
    refine ⟨⟨trivial, trivial⟩, fun v _ => ?_⟩
    cases v with
    | host ref =>
      dsimp only
      cases hmember : Hosts.member? ref name with
      | none => exact fun _ h => nomatch h
      | some w => exact Plan.Meets.pure_iff.mpr (Hosts.member?_gives hV hmember)
    | _ => exact fun _ h => nomatch h

theorem planCallExpr (callee : Expr) {args : List Value} (hargs : ∀ v ∈ args, V v) :
    Meets V (Task.planCallExpr args callee) V := by
  cases callee with
  | var name => exact ⟨⟨trivial, hargs⟩, fun _ hv => hv⟩
  | member e name =>
    refine ⟨⟨trivial, trivial⟩, fun v _ => ?_⟩
    cases v with
    | host ref => exact ⟨hargs, fun _ hw => hw⟩
    | _ => exact fun _ h => nomatch h
  | _ =>
    refine ⟨⟨trivial, trivial⟩, fun v _ => ?_⟩
    cases v with
    | func name => exact ⟨⟨trivial, hargs⟩, fun _ hw => hw⟩
    | _ => exact fun _ h => nomatch h

include hV in
/-- A function that does not return gives `nil`. -/
theorem result {signal : Option Signal} (h : Signal.Holds V signal) : V (Signal.result signal) := by
  rcases signal with _ | (_ | _ | v)
  · exact hV.scalar rfl
  · exact hV.scalar rfl
  · exact hV.scalar rfl
  · exact h v rfl

include hV in
/-- **A call gives what the function does**: a built-in one by its table, another one by its body. -/
theorem planCall (name : String) {args : List Value} (hargs : ∀ v ∈ args, V v) :
    Meets V (Task.planCall name args) V := by
  refine ⟨trivial, fun e he _ _ => ?_⟩
  obtain ⟨hnative, hbody⟩ := he
  cases e with
  | builtin arity body =>
    cases body with
    | pure run =>
      obtain ⟨regex, n, hmem⟩ := hnative
      exact (Builtin.table_gives hV regex _ hmem args hargs).of_ok
    | timed run =>
      obtain ⟨regex, n, hmem⟩ := hnative
      exact ⟨trivial, fun r _ => (Builtin.table_gives hV regex _ hmem r.wall args hargs).of_ok⟩
    | host what => exact ⟨hargs, fun _ hv => hv⟩
  | user params body =>
    refine bindParams params hargs ⟨⟨hbody params body rfl, trivial⟩, fun signal hsignal => ?_⟩
    exact Plan.Meets.pure_iff.mpr (result hV hsignal)

theorem holds_none : Signal.Holds V none := nofun

include hV in
/-- Statements, by their form. -/
theorem planExec (s : Stmt) (hs : s.Own) : Meets V (Task.planExec s) (Signal.Holds V) := by
  have hown := Stmt.own_hereditary
  have hdone : Meets V (pure none : Plan (Option Signal)) (Signal.Holds V) := Plan.Meets.pure_iff.mpr holds_none
  cases s with
  | assign name e => exact ⟨⟨trivial, trivial⟩, fun v hv => ⟨hv, fun _ _ => hdone⟩⟩
  | print args => exact ⟨⟨trivial, trivial⟩, fun vs _ => ⟨trivial, fun _ _ => hdone⟩⟩
  | branch cond yes no =>
    obtain ⟨hyes, hno⟩ := hown.branch hs
    refine ⟨⟨trivial, trivial⟩, fun v _ => ⟨⟨?_, trivial⟩, fun _ h => h⟩⟩
    show Block.All Stmt.Own (if v.truthy then yes else no)
    split
    · exact hyes
    · exact hno
  | while_ cond body => exact ⟨⟨hs, trivial⟩, fun _ h => h⟩
  | for_ var items body =>
    refine ⟨⟨trivial, trivial⟩, fun v hv vs hvs => ⟨⟨hown.for_ hs, ?_⟩, fun _ h => h⟩⟩
    exact (hV.iterate hv).of_ok vs hvs
  | define name params body => exact ⟨hown.define hs, fun _ _ => hdone⟩
  | call callee args => exact ⟨⟨trivial, trivial⟩, fun _ _ => hdone⟩
  | return_ value =>
    cases value with
    | none =>
      refine Plan.Meets.pure_iff.mpr fun v hv => ?_
      obtain rfl := Signal.return_.inj (Option.some.inj hv)
      exact hV.scalar rfl
    | some e =>
      refine ⟨⟨trivial, trivial⟩, fun w hw => Plan.Meets.pure_iff.mpr fun v hv => ?_⟩
      obtain rfl := Signal.return_.inj (Option.some.inj hv)
      exact hw
  | break_ | continue_ => exact Plan.Meets.pure_iff.mpr nofun
  | contain path => exact ⟨trivial, fun _ _ => hdone⟩
  | passthrough language code => exact absurd rfl (hs _ .refl language code)
  | command c => exact ⟨⟨trivial, trivial⟩, fun _ _ => hdone⟩

theorem planAfter {again : Plan (Option Signal)} (h : Meets V again (Signal.Holds V)) {signal : Option Signal}
    (hsignal : Signal.Holds V signal) : Meets V (Task.planAfter again signal) (Signal.Holds V) := by
  rcases signal with _ | (_ | _ | v)
  · exact h
  · exact Plan.Meets.pure_iff.mpr holds_none
  · exact h
  · exact Plan.Meets.pure_iff.mpr hsignal

theorem planClauses {parts : Exec.CommandParts} (hparts : parts.Holds V) (cs : List Clause) :
    Meets V (Task.planClauses parts cs) (Exec.CommandParts.Holds V) := by
  cases cs with
  | nil => exact Plan.Meets.pure_iff.mpr hparts
  | cons c rest =>
    cases c with
    | values kind es =>
      refine ⟨⟨trivial, trivial⟩, fun vs hvs => ⟨⟨trivial, ⟨fun e he => ?_, hparts.callback⟩⟩, fun _ h => h⟩⟩
      rcases List.mem_append.mp he with he | he
      · exact hparts.clause e he
      · obtain rfl := List.mem_singleton.mp he
        exact hvs
    | into name => exact ⟨⟨trivial, ⟨hparts.clause, hparts.callback⟩⟩, fun _ h => h⟩
    | run function args =>
      refine ⟨trivial, fun known _ => ?_⟩
      dsimp only
      split
      · refine ⟨⟨trivial, trivial⟩, fun vs hvs => ⟨⟨trivial, ⟨hparts.clause, fun cb hcb => ?_⟩⟩, fun _ h => h⟩⟩
        obtain rfl := Option.some.inj hcb
        exact hvs
      · exact fun _ h => nomatch h

/-- A command is dispatched with values it was given, and what it answers is kept or handed to callbacks. -/
theorem planCommand (c : CommandStmt) : Meets V (Task.execCommand c).plan fun _ => True := by
  refine ⟨⟨trivial, trivial⟩, fun args hargs => ⟨⟨trivial, ⟨nofun, nofun⟩⟩, fun parts hparts => ?_⟩⟩
  refine ⟨⟨hargs, hparts.clause, hparts.callback⟩, fun reply hreply => ?_⟩
  cases parts.into with
  | some name => exact ⟨hreply.value, fun _ _ => ⟨⟨trivial, hreply.callback⟩, fun _ _ => trivial⟩⟩
  | none => exact ⟨⟨trivial, hreply.callback⟩, fun _ _ => trivial⟩

theorem cons {v : Value} (hv : V v) {vs : List Value} (hvs : ∀ w ∈ vs, V w) : ∀ w ∈ v :: vs, V w :=
  List.forall_mem_cons.mpr ⟨hv, hvs⟩

include hV in
/-- Every task, by its plan. -/
theorem plan {α : Type} (t : Task α) (ht : (Spec.inventory V).Pre t) :
    Meets V t.plan ((Spec.inventory V).Post t) := by
  obtain ⟨hrunning, hholds⟩ := ht
  cases t with
  | eval e => exact planEval hV e
  | evalAll es =>
    cases es with
    | nil => exact Plan.Meets.pure_iff.mpr nofun
    | cons e rest =>
      refine ⟨⟨trivial, trivial⟩, fun v hv => ⟨⟨trivial, trivial⟩, fun vs hvs => ?_⟩⟩
      exact Plan.Meets.pure_iff.mpr (cons hv hvs)
  | evalPairs made pairs =>
    cases pairs with
    | nil => exact Plan.Meets.pure_iff.mpr hholds
    | cons p rest =>
      refine ⟨⟨trivial, trivial⟩, fun k hk => ⟨⟨trivial, trivial⟩, fun v hv => ⟨⟨trivial, ?_⟩, fun _ h => h⟩⟩⟩
      exact hV.set hholds hk hv
  | callExpr callee args => exact planCallExpr callee hholds
  | callName name args => exact ⟨trivial, fun _ _ => ⟨⟨trivial, hholds⟩, fun _ h => h⟩⟩
  | callFunction name args => exact planCall hV name hholds
  | execBlock b =>
    cases b with
    | nil => exact Plan.Meets.pure_iff.mpr holds_none
    | cons s rest =>
      obtain ⟨hs, hrest⟩ := Block.All.cons_iff.mp hrunning
      refine ⟨⟨hs, trivial⟩, fun signal hsignal => ?_⟩
      cases signal with
      | some signal => exact Plan.Meets.pure_iff.mpr hsignal
      | none => exact ⟨⟨hrest, trivial⟩, fun _ h => h⟩
  | execLocated s => exact ⟨⟨hrunning, trivial⟩, fun _ h => h⟩
  | exec s => exact planExec hV s hrunning
  | execWhile cond body =>
    refine ⟨⟨trivial, trivial⟩, fun v _ => ?_⟩
    dsimp only
    split
    · refine ⟨⟨Stmt.own_hereditary.while_ hrunning, trivial⟩, fun signal hsignal => planAfter ?_ hsignal⟩
      -- the next round is the same task
      exact ⟨⟨hrunning, trivial⟩, fun _ h => h⟩
    · exact Plan.Meets.pure_iff.mpr holds_none
  | execFor var items body =>
    cases items with
    | nil => exact Plan.Meets.pure_iff.mpr holds_none
    | cons v rest =>
      obtain ⟨hv, hrest⟩ := List.forall_mem_cons.mp hholds
      refine ⟨hv, fun _ _ => ⟨⟨hrunning, trivial⟩, fun signal hsignal => planAfter ?_ hsignal⟩⟩
      exact ⟨⟨hrunning, hrest⟩, fun _ h => h⟩
  | execCommand c => exact planCommand c
  | evalPositionals ps =>
    cases ps with
    | nil => exact Plan.Meets.pure_iff.mpr nofun
    | cons p rest =>
      cases p with
      | name s => exact ⟨⟨trivial, trivial⟩, fun vs hvs => Plan.Meets.pure_iff.mpr (cons (hV.scalar rfl) hvs)⟩
      | expr e =>
        refine ⟨⟨trivial, trivial⟩, fun v hv => ⟨⟨trivial, trivial⟩, fun vs hvs => ?_⟩⟩
        exact Plan.Meets.pure_iff.mpr (cons hv hvs)
  | evalClauses parts cs => exact planClauses hholds cs
  | runCallbacks cbs =>
    cases cbs with
    | nil => exact Plan.Meets.pure_iff.mpr trivial
    | cons cb rest =>
      obtain ⟨hcb, hrest⟩ := List.forall_mem_cons.mp hholds
      exact ⟨⟨trivial, hcb⟩, fun _ _ => ⟨⟨trivial, hrest⟩, fun _ _ => trivial⟩⟩

include hV in
/-- **Every value of a run satisfies what values are built with**, if those it starts with do. -/
theorem valid : (Spec.inventory V).Valid where
  inside _ hm := ⟨⟨hm.1.scopes.enter _, hm.1.frontend⟩, hm.2⟩
  left _ saved hm := ⟨⟨hm.1.scopes.leave saved, hm.1.frontend⟩, hm.2⟩
  called _ hm := ⟨⟨hm.1.scopes.enter _, hm.1.frontend⟩, hm.2⟩
  returned _ saved hm := ⟨⟨hm.1.scopes.leave saved, hm.1.frontend⟩, hm.2⟩
  prim p hp _ hm :=
    ⟨⟨⟨scopes_exec hV p hp hm.1.scopes, frontend_exec hV p hp hm.1.frontend⟩, own_exec p hp hm.2⟩,
      fun _ ha => answer_exec hV p hp hm.1 hm.2 ha⟩
  plan t ht := plan hV t ht

end Inventory

/-- A machine that has run nothing holds no value. -/
theorem Machine.Holds.initial {V : Value → Prop} (p : Platform) : (Machine.initial p).Holds V :=
  ⟨.initial, .headless .initial⟩

end Helios
