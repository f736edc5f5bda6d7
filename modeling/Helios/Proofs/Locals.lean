import Helios.Proofs.Isolation

/-!
# Locals — expressions and calls write no local variables

How far a task gets at the variables in view is known from its plan alone (`Task.impact`, `Plan.Within`). Statements
bind in the current frame. Loops bind in frames of their own, from where they rebind what is bound outside. All the
rest, expressions and calls above all, binds nothing: what it starts is of the same kind, or stands in the frame of a
call, from which only the global frame is in view. So whatever is evaluated, and however that ends, all frames but the
global one bind what they bound before (`expressions_keep_locals`).
-/

namespace Helios

/-! ## What tasks do to the variables in view -/

/-- **What is done to the variables in view**, the global ones apart. -/
inductive Impact
  /-- Nothing is bound. -/
  | none
  /-- Something is bound in frames inside the current one, so that variables outside are rebound at most. -/
  | inside
  /-- Something is bound in the current frame. -/
  | here
  deriving DecidableEq, Repr

namespace Impact

def rank : Impact → Nat
  | none => 0
  | inside => 1
  | here => 2

instance : LE Impact := ⟨fun i j => i.rank ≤ j.rank⟩

theorem le_refl (i : Impact) : i ≤ i := Nat.le_refl i.rank

theorem le_trans {i j k : Impact} (h : i ≤ j) (h' : j ≤ k) : i ≤ k := Nat.le_trans h h'

theorem none_le (i : Impact) : none ≤ i := Nat.zero_le i.rank

theorem le_here (i : Impact) : i ≤ here := by
  show i.rank ≤ 2
  cases i <;> decide

theorem eq_none_of_le {i : Impact} (h : i ≤ none) : i = none := by
  have hrank : i.rank ≤ 0 := h
  cases i with
  | none => rfl
  | inside => exact absurd hrank (by decide)
  | here => exact absurd hrank (by decide)

theorem not_inside_le_none : ¬ inside ≤ none := fun h => nomatch eq_none_of_le h

/-- What binds in the current frame is not confined to inner ones. -/
theorem not_here_le_inside : ¬ here ≤ inside := by
  intro h
  have hrank : here.rank ≤ inside.rank := h
  exact absurd hrank (by decide)

end Impact

/-- What a question to the machine does to the variables in view. -/
def Prim.impact : {α : Type} → Prim α → Impact
  | _, assign .. => .here
  | _, define .. => .here
  | _, contain _ => .here
  | _, passthrough .. => .here
  | _, _ => .none

/-- A question binds in the current frame, or not at all. -/
theorem Prim.impact_eq_none {α : Type} (p : Prim α) (h : p.impact ≤ .inside) : p.impact = .none := by
  cases p with
  | assign name v => exact absurd h Impact.not_here_le_inside
  | define name v => exact absurd h Impact.not_here_le_inside
  | contain path => exact absurd h Impact.not_here_le_inside
  | passthrough language code => exact absurd h Impact.not_here_le_inside
  | _ => rfl

/-- What a task does to the variables in view. -/
def Task.impact : {α : Type} → Task α → Impact
  | _, exec (.while_ ..) => .inside
  | _, exec (.for_ ..) => .inside
  | _, execWhile .. => .inside
  | _, execFor .. => .inside
  | _, execBlock _ => .here
  | _, execLocated _ => .here
  | _, exec _ => .here
  | _, execCommand _ => .here
  | _, _ => .none

/-- A question that brings in global variables. -/
def Prim.Imports : {α : Type} → Prim α → Prop
  | _, contain _ => True
  | _, passthrough .. => True
  | _, _ => False

/-- A statement that brings in global variables. -/
def Task.Imports : {α : Type} → Task α → Prop
  | _, exec (.contain _) => True
  | _, exec (.passthrough ..) => True
  | _, _ => False

/-- An import binds in the current frame. -/
theorem Task.Imports.impact_eq {α : Type} {t : Task α} (h : t.Imports) : t.impact = .here := by
  cases t with
  | exec s =>
    cases s with
    | contain path => rfl
    | passthrough language code => rfl
    | _ => exact h.elim
  | _ => exact h.elim

/-- What is confined to inner frames does not import. -/
theorem Task.not_imports_of_le {α : Type} {t : Task α} (ht : t.impact ≤ .inside) : ¬ t.Imports := by
  intro himports
  rw [himports.impact_eq] at ht
  exact Impact.not_here_le_inside ht

/-- **A plan within an impact**: what it asks and starts has this impact at most. What stands in a frame of its own may
    bind there; of a block that frame is inside the current one, of a call it is not. -/
def Plan.Within (i : Impact) : {α : Type} → Plan α → Prop
  | _, give _ => True
  | _, prim p => p.impact ≤ i ∧ ¬ p.Imports
  | _, start t => t.impact ≤ i
  | _, bind x k => x.Within i ∧ ∀ a, (k a).Within i
  | _, atLine _ x => x.Within i
  | _, inBlock x => .inside ≤ i ∧ x.Within .here
  | _, inCall x => x.Within .here

namespace Plan.Within

variable {α β : Type} {i : Impact}

theorem pure (a : α) : (pure a : Plan α).Within i := trivial

theorem fail (c : Cause) : (Plan.fail c : Plan α).Within i := trivial

theorem bind {x : Plan α} {k : α → Plan β} (hx : x.Within i) (hk : ∀ a, (k a).Within i) : (x >>= k).Within i :=
  ⟨hx, hk⟩

/-- A plan within one bound is within a greater one. -/
theorem mono {j : Impact} (hij : i ≤ j) {p : Plan α} (hp : p.Within i) : p.Within j := by
  induction p with
  | give r => trivial
  | prim p => exact ⟨Impact.le_trans hp.1 hij, hp.2⟩
  | start t => exact Impact.le_trans hp hij
  | bind x k ihx ihk => exact ⟨ihx hp.1, fun a => ihk a (hp.2 a)⟩
  | atLine line x ih => exact ih hp
  | inBlock x _ => exact ⟨Impact.le_trans hp.1 hij, hp.2⟩
  | inCall x _ => exact hp

/-- A task that binds nothing fits everywhere. -/
theorem start {t : Task α} (h : t.impact = .none) : (Plan.start t).Within i := by
  show t.impact ≤ i
  rw [h]
  exact i.none_le

/-- **No question changes the platform.** -/
theorem prim {p : Prim α} (h : p.impact = .none) (himports : ¬ p.Imports) : (Plan.prim p).Within i := by
  refine ⟨?_, himports⟩
  rw [h]
  exact i.none_le

theorem bindParams (ps : List String) (vs : List Value) : (Plan.bindParams ps vs).Within .here := by
  induction ps generalizing vs with
  | nil => exact pure ()
  | cons p ps ih =>
    cases vs with
    | nil => exact pure ()
    | cons v vs => exact bind ⟨Impact.le_refl _, id⟩ fun _ => ih vs

/-- An expression binds nothing in view. -/
theorem planEval (e : Expr) : (Task.planEval e).Within i := by
  cases e with
  | literal l => exact pure _
  | var name => exact prim rfl id
  | unary op e =>
    cases op with
    | neg => exact bind (start rfl) fun v => trivial
    | not => exact bind (start rfl) fun v => pure _
  | binary op l r =>
    cases op with
    | and =>
      refine bind (start rfl) fun v => ?_
      split
      · exact bind (start rfl) fun w => pure _
      · exact pure _
    | or =>
      refine bind (start rfl) fun v => ?_
      split
      · exact pure _
      · exact bind (start rfl) fun w => pure _
    | _ => exact bind (start rfl) fun v => bind (start rfl) fun w => trivial
  | call callee args => exact bind (start rfl) fun vs => start rfl
  | list items => exact bind (start rfl) fun vs => pure _
  | dict pairs => exact bind (start rfl) fun es => pure _
  | index e i => exact bind (start rfl) fun v => bind (start rfl) fun w => trivial
  | member e name =>
    refine bind (start rfl) fun v => ?_
    split
    · split
      · exact pure _
      · exact fail _
    · exact fail _

theorem planCallExpr (args : List Value) (e : Expr) : (Task.planCallExpr args e).Within i := by
  cases e with
  | var name => exact start rfl
  | member e name =>
    refine bind (start rfl) fun v => ?_
    split
    · exact prim rfl id
    · exact fail _
  | _ =>
    refine bind (start rfl) fun v => ?_
    split
    · exact start rfl
    · exact fail _

/-- The body of a function binds as it likes, but in the frame of the call. -/
theorem planCall (name : String) (args : List Value) : (Task.planCall name args).Within i := by
  refine bind (prim rfl id) fun entry => bind trivial fun _ => ?_
  cases entry with
  | builtin arity body =>
    cases body with
    | pure body => trivial
    | timed body => exact bind (prim rfl id) fun r => trivial
    | host what => exact prim rfl id
  | user params body =>
    have hbody : (Plan.start (Task.execBlock body)).Within .here := Impact.le_refl _
    exact bind (bind (bindParams params args) fun _ => hbody) fun signal => pure _

/-- A statement other than an import binds what its kind binds. -/
theorem planExec {s : Stmt} (hs : ¬ (Task.exec s).Imports) : (Task.planExec s).Within (Task.exec s).impact := by
  cases s with
  | assign name e => exact bind (start rfl) fun v => bind ⟨Impact.le_refl _, id⟩ fun _ => pure _
  | print args => exact bind (start rfl) fun vs => bind (prim rfl id) fun _ => pure _
  | branch cond yes no => exact bind (start rfl) fun v => Impact.le_refl _
  | while_ cond body => exact Impact.le_refl _
  | for_ var items body => exact bind (start rfl) fun v => bind trivial fun vs => Impact.le_refl _
  | define name params body => exact bind (prim rfl id) fun _ => pure _
  | call callee args => exact bind (start rfl) fun _ => pure _
  | return_ value =>
    cases value with
    | none => exact pure _
    | some e => exact bind (start rfl) fun v => pure _
  | break_ => exact pure _
  | continue_ => exact pure _
  | contain path => exact absurd trivial hs
  | passthrough language code => exact absurd trivial hs
  | command c => exact bind (Impact.le_refl _) fun _ => pure _

theorem planAfter {again : Plan (Option Signal)} (h : again.Within i) (signal : Option Signal) :
    (Task.planAfter again signal).Within i := by
  rcases signal with _ | (_ | _ | _)
  · exact h
  · exact pure _
  · exact h
  · exact pure _

theorem planClauses (parts : Exec.CommandParts) (cs : List Clause) : (Task.planClauses parts cs).Within i := by
  cases cs with
  | nil => exact pure _
  | cons c rest =>
    cases c with
    | values kind es => exact bind (start rfl) fun vs => start rfl
    | into name => exact start rfl
    | run function args =>
      refine bind (prim rfl id) fun known => ?_
      split
      · exact bind (start rfl) fun vs => start rfl
      · exact fail _

/-- **Every plan is within the impact of its task**, but for those of the statements that bring in global variables. -/
theorem plan {t : Task α} (ht : ¬ t.Imports) : t.plan.Within t.impact := by
  cases t with
  | eval e => exact planEval e
  | evalAll es =>
    cases es with
    | nil => exact pure _
    | cons e rest => exact bind (start rfl) fun v => bind (start rfl) fun vs => pure _
  | evalPairs made pairs =>
    cases pairs with
    | nil => exact pure _
    | cons pair rest => exact bind (start rfl) fun key => bind (start rfl) fun v => start rfl
  | callExpr callee args => exact planCallExpr args callee
  | callName name args => exact bind (prim rfl id) fun target => start rfl
  | callFunction name args => exact planCall name args
  | execBlock b =>
    cases b with
    | nil => exact pure _
    | cons s rest =>
      refine bind (Impact.le_refl _) fun signal => ?_
      split
      · exact pure _
      · exact Impact.le_refl _
  | execLocated s => exact Impact.le_here _
  | exec s => exact planExec ht
  | execWhile cond body =>
    refine bind (start rfl) fun v => ?_
    split
    · -- a round has a frame of its own, so what it binds is bound inside
      have hround : (Plan.inBlock (Plan.start (Task.execBlock body))).Within .inside :=
        ⟨Impact.le_refl _, Impact.le_refl _⟩
      exact bind hround fun signal => planAfter (Impact.le_refl _) signal
    · exact pure _
  | execFor var items body =>
    cases items with
    | nil => exact pure _
    | cons v rest =>
      -- and that is where the loop variable is
      have hround : (Plan.inBlock (Plan.prim (.define var v) >>= fun _ => Plan.start (Task.execBlock body))).Within
          .inside := ⟨Impact.le_refl _, bind ⟨Impact.le_refl _, id⟩ fun _ => Impact.le_refl _⟩
      exact bind hround fun signal => planAfter (Impact.le_refl _) signal
  | execCommand c =>
    refine bind (start rfl) fun args => bind (start rfl) fun parts => bind (prim rfl id) fun reply => ?_
    split
    · exact bind ⟨Impact.le_refl _, id⟩ fun _ => start rfl
    · exact start rfl
  | evalPositionals ps =>
    cases ps with
    | nil => exact pure _
    | cons p rest =>
      cases p with
      | name s => exact bind (start rfl) fun vs => pure _
      | expr e => exact bind (start rfl) fun v => bind (start rfl) fun vs => pure _
  | evalClauses parts cs => exact planClauses parts cs
  | runCallbacks cbs =>
    cases cbs with
    | nil => exact pure _
    | cons cb rest => exact bind (start rfl) fun _ => start rfl

end Plan.Within

/-! ## Local variables -/

/-- A question that binds nothing leaves the frames as they are. -/
theorem Prim.scopes_eq {α : Type} (p : Prim α) (hp : p.impact = .none) (m : Machine) :
    (p.exec m).2.scopes = m.scopes := by
  cases p with
  | lookup name =>
    rw [Prim.exec_lookup]
    cases m.resolveName? name <;> rfl
  | target name =>
    dsimp only [Prim.exec]
    cases m.callTarget name <;> rfl
  | entry name =>
    dsimp only [Prim.exec]
    cases m.registry.get? name <;> rfl
  | registered name => rfl
  | assign name v => nomatch hp
  | define name v => nomatch hp
  | defineUser name params body => rfl
  | writeLine line => rfl
  | glance => rfl
  | host what args => exact (Exec.Apart.host what args).scopes_eq m
  | callMember ref member args => exact (Exec.Apart.callMember ref member args).scopes_eq m
  | contain path => nomatch hp
  | passthrough language code => nomatch hp
  | dispatch c => exact (Exec.Apart.dispatch c).scopes_eq m

theorem Exec.Tidy.run (n : Nat) {α : Type} (t : Task α) : Exec.Tidy (t.run n) :=
  Exec.Tidy.compositional.run Exec.Tidy.exhausted n t

theorem Exec.Tidy.plan (n : Nat) {α : Type} (p : Plan α) : Exec.Tidy (p.exec fun _ => Task.run n) :=
  Exec.Tidy.compositional.plan (g := fun _ => Task.run n) (fun t => Exec.Tidy.run n t) p

/-- **A comparison of frames** before and after: it allows a frame to keep its variables, and can be put together. -/
structure Scopes.Comparison (R : ScopeId → Scopes → Scopes → Prop) : Prop where
  of_vars : ∀ {id : ScopeId} {s s' : Scopes}, s'.vars? id = s.vars? id → R id s s'
  trans : ∀ {id : ScopeId} {s s' s'' : Scopes}, R id s s' → R id s' s'' → R id s s''

/-- A computation after which every live frame but the global one compares to what it was. -/
def Exec.Relates {α : Type} (R : ScopeId → Scopes → Scopes → Prop) (x : Exec α) : Prop :=
  ∀ m id, m.scopes.Sound → m.scopes.Live id → id ≠ Scopes.global → R id m.scopes (x m).2.scopes

section Relates

variable {R : ScopeId → Scopes → Scopes → Prop} (hR : Scopes.Comparison R)
include hR

/-- Frames that are the same compare. -/
theorem Exec.Relates.of_scopes_eq {α : Type} {x : Exec α} (h : ∀ m : Machine, (x m).2.scopes = m.scopes) :
    x.Relates R := by
  intro m id _ _ _
  refine hR.of_vars ?_
  rw [h m]

/-- **One computation after another**, the first of which returns to the current frame. -/
theorem Exec.Relates.bind {α β : Type} {x : Exec α} {f : α → Exec β} (hbalanced : x.Balanced) (hx : x.Relates R)
    (hf : ∀ a, (f a).Relates R) : (x >>= f).Relates R := by
  intro m id hm hl hid
  have hframes := hbalanced m hm
  have hfirst := hx m id hm hl hid
  rw [Exec.bind_apply]
  revert hframes hfirst
  rcases x m with ⟨e | a, m₁⟩ <;> rintro ⟨hs, hsame⟩ hfirst
  · exact hfirst
  · exact hR.trans hfirst (hf a m₁ id hs (hsame.live hl) hid)

variable {i : Impact} (hi : i ≤ .inside)
  (hblock : .inside ≤ i → ∀ (n : Nat) {α : Type} (p : Plan α), (Exec.inBlock (p.exec fun _ => Task.run n)).Relates R)
include hi hblock

/-- **A plan that does not bind in the current frame** compares frames as its tasks and its blocks do. In the frame of
    a call anything may be bound: whatever it is, only that frame and the global one are in view of it. -/
theorem Plan.Within.relates {n : Nat} (ih : ∀ {α : Type} (t : Task α), t.impact ≤ i → (t.run n).Relates R)
    {α : Type} (p : Plan α) (hp : p.Within i) : (p.exec fun _ => Task.run n).Relates R := by
  induction p with
  | give r =>
    refine .of_scopes_eq hR fun m => ?_
    cases r <;> rfl
  | prim p => exact .of_scopes_eq hR (p.scopes_eq (p.impact_eq_none (Impact.le_trans hp.1 hi)))
  | start t => exact ih t hp
  | bind x k ihx ihk => exact .bind hR (Exec.Tidy.plan n x).balanced (ihx hp.1) fun a => ihk a (hp.2 a)
  | atLine line x ihx =>
    intro m id hm hl hid
    rw [Plan.exec, Exec.atLine_snd]
    exact ihx hp m id hm hl hid
  | inBlock x _ => exact hblock hp.1 n x
  | inCall x _ =>
    -- no induction hypothesis: the plan of a call is within `here`, and keeps what is out of its view
    intro m id hm hl hid
    exact hR.of_vars ((Exec.Tidy.plan n x).vars?_limited hm hl hid)

/-- By induction on the fuel. -/
theorem Task.relates (n : Nat) {α : Type} (t : Task α) (ht : t.impact ≤ i) : (t.run n).Relates R := by
  induction n generalizing α with
  | zero =>
    rw [Task.run_zero]
    exact .of_scopes_eq hR fun _ => rfl
  | succ n ih =>
    rw [Task.run_succ]
    have himports : ¬ t.Imports := Task.not_imports_of_le (Impact.le_trans ht hi)
    exact Plan.Within.relates hR hi hblock ih t.plan ((Plan.Within.plan himports).mono ht)

end Relates

/-- **A task that binds nothing keeps local variables**, however much its calls bind. -/
theorem Task.keepsLocals (n : Nat) {α : Type} (t : Task α) (ht : t.impact = .none) :
    (t.run n).Relates fun id s s' => s'.vars? id = s.vars? id := by
  have hsame : Scopes.Comparison fun id s s' => s'.vars? id = s.vars? id := ⟨id, fun h h' => h'.trans h⟩
  -- there is no block in the plan of a task that binds nothing
  refine Task.relates hsame (Impact.none_le _) (fun hinside => ?_) n t (ht ▸ Impact.le_refl _)
  exact absurd hinside Impact.not_inside_le_none

/-! ## The rest of the machine -/

/-- The platform is the same. -/
def Exec.KeepsPlatform {α : Type} (x : Exec α) : Prop := ∀ m, (x m).2.platform = m.platform

namespace Exec.KeepsPlatform

variable {α β : Type}

theorem give (r : Except Cause α) : KeepsPlatform (ofExcept r) := by
  intro m
  cases r <;> rfl

theorem bind {x : Exec α} {f : α → Exec β} (hx : KeepsPlatform x) (hf : ∀ a, KeepsPlatform (f a)) :
    KeepsPlatform (x >>= f) := by
  intro m
  rw [bind_apply]
  have h := hx m
  revert h
  rcases x m with ⟨e | a, m'⟩ <;> intro h
  · exact h
  · exact (hf a m').trans h

/-- A line is read from the input that has been typed, or from the machine's; the platform is not asked. -/
theorem readLine (prompt : String) : KeepsPlatform (readLine prompt) := by
  intro m
  unfold Exec.readLine
  split
  · rfl
  · split
    · rfl
    · -- a prompt is output only
      have hprompt : ∀ p : Bool,
          (if p then m else { m with output := m.output.push (.prompt prompt) }).platform = m.platform := by
        intro p
        cases p <;> rfl
      dsimp only
      split
      · exact hprompt _
      · split <;> exact hprompt _

theorem prim (p : Prim α) : KeepsPlatform p.exec := by
  cases p with
  | lookup name =>
    intro m
    rw [Prim.exec_lookup]
    cases m.resolveName? name <;> rfl
  | target name => exact fun m => give (m.callTarget name) m
  | entry name =>
    intro m
    dsimp only [Prim.exec]
    cases m.registry.get? name <;> rfl
  | host what args =>
    exact host_of_parts give bind (fun _ _ => rfl) (fun _ _ => rfl) readLine (fun _ => rfl) what args
  | callMember ref member args =>
    intro m
    show (Exec.callMember ref member args m).2.platform = _
    unfold Exec.callMember
    rcases m.hosts.call m.reading ref member args with ⟨_ | _, _⟩ <;> rfl
  | contain path =>
    intro m
    show (Exec.contain path m).2.platform = _
    unfold Exec.contain
    rcases Resolver.resolveFirst m.resolvers path m.hosts with ⟨_ | _, _, _⟩ <;> rfl
  | passthrough language code =>
    intro m
    show (Exec.passthrough language code m).2.platform = _
    rcases Exec.passthrough_cases language code m with ⟨c, hrun, -⟩ | ⟨run, engines, -, hrun⟩
    · rw [hrun]
    · rw [hrun]
      rfl
  | dispatch c =>
    intro m
    show (Exec.dispatch c m).2.platform = _
    unfold Exec.dispatch
    rcases m.frontend.dispatch c with ⟨_ | _ | _, _⟩ <;> rfl
  | _ => exact fun _ => rfl

/-- Nor does a computation made of such. -/
theorem compositional : Compositional fun x _ => KeepsPlatform x where
  give := give
  prim := prim
  bind := bind
  atLine line x _ h := fun m => by rw [atLine_snd]; exact h m
  inBlock h := fun m => by rw [inBlock_apply]; exact h m.inside
  inCall h := by
    intro m
    by_cases hd : m.maxDepth ≤ m.depth
    · rw [limited_of_le _ hd]
      rfl
    · rw [limited_of_not_le _ hd]
      exact h m.called

theorem run (n : Nat) (t : Task α) : KeepsPlatform (t.run n) := compositional.run (fun _ => rfl) n t

end Exec.KeepsPlatform

/-! ## Expressions and calls -/

/-- **What evaluation leaves as it was**: frames and depth are restored, every frame but the global one binds what it
    bound, and neither the limit on nested calls nor the platform has changed. What may have changed are the global
    variables, the functions, what can be imported and the objects there are, the engines and what they noted down,
    the frontend, output, input and random numbers, and how often the clocks were read. -/
structure Machine.LocalsKept (m m' : Machine) : Prop extends m.Restored m' where
  locals : ∀ id, id ≠ Scopes.global → m'.scopes.vars? id = m.scopes.vars? id
  maxDepth : m'.maxDepth = m.maxDepth
  platform : m'.platform = m.platform

/-- A number that is dead stands for no variables. -/
theorem Scopes.vars?_eq_none {s : Scopes} {id : ScopeId} (h : ¬ s.Live id) : s.vars? id = none := by
  have hdead : s.frame? id = none := by
    by_contra hframe
    exact h (live_iff.mpr hframe)
  unfold vars?
  rw [hdead]
  rfl

/-- The same frames are there again. -/
theorem Machine.Restored.live_iff {m m' : Machine} (h : m.Restored m') {id : ScopeId} :
    m'.scopes.Live id ↔ m.scopes.Live id := by
  unfold Scopes.Live
  rw [h.link?]

theorem Machine.Restored.vars?_of_not_live {m m' : Machine} (h : m.Restored m') {id : ScopeId}
    (hl : ¬ m.scopes.Live id) : m'.scopes.vars? id = m.scopes.vars? id := by
  have hl' : ¬ m'.scopes.Live id := fun hlive => hl (h.live_iff.mp hlive)
  rw [Scopes.vars?_eq_none hl, Scopes.vars?_eq_none hl']

/-- **A task without an impact keeps what is local.** -/
theorem Machine.LocalsKept.run {m : Machine} (h : m.scopes.WellFormed) (n : Nat) {α : Type} (t : Task α)
    (ht : t.impact = .none) : m.LocalsKept (t.run n m).2 where
  toRestored := .run h n t
  locals id hid := by
    by_cases hl : m.scopes.Live id
    · exact t.keepsLocals n ht m id h.toSound hl hid
    · exact (Machine.Restored.run h n t).vars?_of_not_live hl
  maxDepth := (Exec.KeepsDepth.run n t m).2
  platform := Exec.KeepsPlatform.run n t m

/-- **Expressions and calls write no local variables.** From a machine with a well-formed arena, and however the
    evaluation of an expression or the call of a function ends, every frame but the global one has the variables that
    it had, with their values. -/
theorem expressions_keep_locals (m : Machine) (h : m.scopes.WellFormed) (fuel : Nat) :
    (∀ e, m.LocalsKept (Exec.eval fuel e m).2) ∧
    ∀ name args, m.LocalsKept (Exec.callFunction fuel name args m).2 := by
  constructor
  · intro e
    exact .run h fuel (.eval e) rfl
  · intro name args
    exact .run h fuel (.callFunction name args) rfl

/-- A machine inside of a call that has bound `x`, with a function that binds `x` by itself and in a loop. -/
def Machine.overwriting : Machine :=
  { (Machine.initial .still).called with
    registry := Registry.defineUser .empty "f" [] [⟨1, .assign "x" (.literal (.int 2))⟩,
      ⟨2, .for_ "x" (.list [.literal (.int 3)]) [⟨3, .assign "x" (.literal (.int 4))⟩]⟩]
    scopes := (Machine.initial .still).called.scopes.define "x" (.int 1) }

/-- The `x` of the call is left alone. -/
theorem expressions_keep_locals_in_call :
    Machine.overwriting.scopes.WellFormed ∧
    (Exec.eval 20 (.call (.var "f") []) Machine.overwriting).1 = .ok .nil ∧
    (Exec.eval 20 (.call (.var "f") []) Machine.overwriting).2.scopes.vars? 1 =
      some (.insert .empty "x" (.int 1)) := by
  have hcall := Scopes.wellFormed_initial.enter Scopes.wellFormed_initial.live_global
  have h : Machine.overwriting.scopes.WellFormed :=
    hcall.congr (hcall.toSound.bindIn 1 "x" (.int 1)) fun id => Scopes.link?_bindIn ..
  refine ⟨h, rfl, ?_⟩
  exact ((expressions_keep_locals Machine.overwriting h 20).1 (.call (.var "f") [])).locals 1 (by decide)

end Helios
