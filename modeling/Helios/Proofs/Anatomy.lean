import Helios.Proofs.Causes
import Helios.Proofs.Provenance

/-!
# Anatomy — what plans are made of, and where failures come from

One walk over all plans (`Plan.Plain.plan`) says three things at once. A plan gives up in ordinary ways only. It
starts and registers no code but what its own task has to go through, and bodies of registered functions. And it
adds no line to a failure: only the execution of a located statement does that, whose plan is kept apart.

So a plan that fails either raised the failure itself, at a place that is not known yet, or passes on what a task that
it started failed with (`Plan.Plain.origin`).
-/

namespace Helios

/-! ## Functions -/

/-- A function of the program, or one of the built-in ones. -/
def FunctionEntry.Native : FunctionEntry → Prop
  | .builtin arity body => ∃ regex name, (name, arity, body) ∈ Builtin.table regex
  | .user .. => True

/-- **A registry as programs can make it**: its functions are built-in ones, or the program's own. -/
def Registry.Native (r : Registry) : Prop := ∀ name entry, r.get? name = some entry → entry.Native

/-- A new machine knows the built-in functions. -/
theorem Registry.Native.withBuiltins (regex : Regex) : (Registry.withBuiltins regex).Native := by
  intro name entry hget
  have hmem := Bindings.mem_ofList ((Bindings.get?_eq_some_iff _ name entry).1 hget)
  obtain ⟨⟨n, arity, body⟩, hrow, heq⟩ := List.mem_map.1 hmem
  obtain ⟨-, rfl⟩ := Prod.mk.inj heq
  exact ⟨regex, n, hrow⟩

/-- **The functions of the program are made of given statements.** -/
structure Registry.Known (K : Located Stmt → Prop) (r : Registry) : Prop where
  native : r.Native
  bodies : r.Bodies (Block.Among K)

variable {K : Located Stmt → Prop}

theorem Registry.Known.withBuiltins (regex : Regex) : (Registry.withBuiltins regex).Known K :=
  ⟨.withBuiltins regex, .withBuiltins regex⟩

theorem Registry.Known.of_native {r : Registry} (h : r.Native) : r.Known fun _ => True :=
  ⟨h, fun _ _ _ _ _ _ => trivial⟩

theorem Registry.Known.defineUser {r : Registry} (h : r.Known K) (name : String) (params : List String)
    {body : Block} (hbody : Block.Among K body) : (r.defineUser name params body).Known K := by
  constructor
  · intro name' entry hget
    rw [Registry.defineUser, Bindings.get?_insert] at hget
    split at hget
    · obtain rfl := Option.some.inj hget
      trivial
    · exact h.native name' entry hget
  · intro name' params' body' hget
    rw [Registry.defineUser, Bindings.get?_insert] at hget
    split at hget
    · cases hget
      exact hbody
    · exact h.bodies name' params' body' hget

/-! ## Plans -/

namespace Task

/-- The execution of a located statement, which alone adds a line to a failure. -/
def IsLocated : {α : Type} → Task α → Prop
  | _, execLocated _ => True
  | _, _ => False

/-- The statements that a task has to go through are among given ones. -/
def Among (K : Located Stmt → Prop) : {α : Type} → Task α → Prop
  | _, execBlock b => Block.Among K b
  | _, execLocated s => K s ∧ s.node.Among K
  | _, exec s => s.Among K
  | _, execWhile _ body => Block.Among K body
  | _, execFor _ _ body => Block.Among K body
  | _, _ => True

end Task

theorem Task.among_any {α : Type} (t : Task α) : t.Among fun _ => True := by
  cases t with
  | execBlock b => exact fun _ _ => trivial
  | execLocated s => exact ⟨trivial, fun _ _ _ _ => trivial⟩
  | exec s => exact fun _ _ _ _ => trivial
  | execWhile cond body => exact fun _ _ => trivial
  | execFor var items body => exact fun _ _ => trivial
  | _ => trivial

/-- Code that a question registers is among given statements. -/
def Prim.Among (K : Located Stmt → Prop) : {α : Type} → Prim α → Prop
  | _, defineUser _ _ body => Block.Among K body
  | _, _ => True

namespace Plan

/-- What a plan may find as the answer to a question. -/
def Offers (K : Located Stmt → Prop) : {α : Type} → Plan α → α → Prop
  | _, prim (.entry _), entry => entry.Native ∧ ∀ params body, entry = .user params body → Block.Among K body
  | _, _, _ => True

/-- **A plain plan** over given statements: it gives up in ordinary ways, what it starts and registers is among
    them, and it adds no line to failures. -/
def Plain (K : Located Stmt → Prop) : {α : Type} → Plan α → Prop
  | _, give r => Ordinary r
  | _, prim p => p.Among K
  | _, start t => t.Among K
  | _, bind x k => x.Plain K ∧ ∀ a, x.Offers K a → (k a).Plain K
  | _, atLine .. => False
  | _, inBlock x => x.Plain K
  | _, inCall x => x.Plain K

namespace Plain

variable {α β : Type}

theorem pure (a : α) : (pure a : Plan α).Plain K := Ordinary.ok a

theorem fail {c : Cause} (h : c.Ordinary) : (Plan.fail c : Plan α).Plain K := Ordinary.error h

theorem bind {x : Plan α} {k : α → Plan β} (hx : x.Plain K) (hk : ∀ a, (k a).Plain K) : (x >>= k).Plain K :=
  ⟨hx, fun a _ => hk a⟩

theorem bindParams (ps : List String) (vs : List Value) : (Plan.bindParams ps vs).Plain K := by
  induction ps generalizing vs with
  | nil => exact pure ()
  | cons p ps ih =>
    cases vs with
    | nil => exact pure ()
    | cons v vs => exact bind trivial fun _ => ih vs

theorem planEval (e : Expr) : (Task.planEval e).Plain K := by
  cases e with
  | literal l => exact pure _
  | var name => exact trivial
  | unary op e =>
    cases op with
    | neg => exact bind trivial fun v => (Value.neg_onValues v).ordinary
    | not => exact bind trivial fun v => pure _
  | binary op l r =>
    cases op with
    | and =>
      refine bind trivial fun v => ?_
      split
      · exact bind trivial fun w => pure _
      · exact pure _
    | or =>
      refine bind trivial fun v => ?_
      split
      · exact pure _
      · exact bind trivial fun w => pure _
    | _ => exact bind trivial fun v => bind trivial fun w => (Value.binary_onValues _ v w).ordinary
  | call callee args => exact bind trivial fun vs => trivial
  | list items => exact bind trivial fun vs => pure _
  | dict pairs => exact bind trivial fun es => pure _
  | index e i => exact bind trivial fun v => bind trivial fun w => (Value.index_onValues v w).ordinary
  | member e name =>
    refine bind trivial fun v => ?_
    split
    · split
      · exact pure _
      · exact fail (.name _)
    · exact fail (.type _)

theorem planCallExpr (args : List Value) (e : Expr) : (Task.planCallExpr args e).Plain K := by
  cases e with
  | var name => exact trivial
  | member e name =>
    refine bind trivial fun v => ?_
    split
    · exact trivial
    · exact fail (.type _)
  | _ =>
    refine bind trivial fun v => ?_
    split
    · exact trivial
    · exact fail (.type _)

/-- A call starts the body of a registered function, or a built-in one, whose failures are ordinary. -/
theorem planCall (name : String) (args : List Value) : (Task.planCall name args).Plain K := by
  refine ⟨trivial, fun entry ⟨hnative, hbody⟩ => bind (Arity.check_ordinary _ _ _) fun _ => ?_⟩
  cases entry with
  | builtin arity body =>
    cases body with
    | pure body =>
      obtain ⟨regex, n, hrow⟩ := hnative
      exact (Builtin.table_onValues regex _ hrow args).ordinary
    | timed body =>
      obtain ⟨regex, n, hrow⟩ := hnative
      exact bind trivial fun r => (Builtin.table_onValues regex _ hrow r.wall args).ordinary
    | host what => exact trivial
  | user params body => exact bind (bind (bindParams _ _) fun _ => hbody params body rfl) fun signal => pure _

theorem planExec {s : Stmt} (hs : s.Among K) : (Task.planExec s).Plain K := by
  cases s with
  | assign name e => exact bind trivial fun v => bind trivial fun _ => pure _
  | print args => exact bind trivial fun vs => bind trivial fun _ => pure _
  | branch cond yes no =>
    refine bind trivial fun v => ?_
    split
    · exact hs yes List.mem_cons_self
    · exact hs no (List.mem_cons_of_mem _ List.mem_cons_self)
  | while_ cond body => exact hs body List.mem_cons_self
  | for_ var items body =>
    refine bind trivial fun v => bind (Value.iterate_onValues v).ordinary fun vs => ?_
    exact hs body List.mem_cons_self
  | define name params body => exact bind (hs body List.mem_cons_self) fun _ => pure _
  | call callee args => exact bind trivial fun _ => pure _
  | return_ value =>
    cases value with
    | none => exact pure _
    | some e => exact bind trivial fun v => pure _
  | break_ => exact pure _
  | continue_ => exact pure _
  | contain path => exact bind trivial fun _ => pure _
  | passthrough language code => exact bind trivial fun _ => pure _
  | command c => exact bind trivial fun _ => pure _

theorem planAfter {again : Plan (Option Signal)} (h : again.Plain K) (signal : Option Signal) :
    (Task.planAfter again signal).Plain K := by
  rcases signal with _ | (_ | _ | _)
  · exact h
  · exact pure _
  · exact h
  · exact pure _

theorem planClauses (parts : Exec.CommandParts) (cs : List Clause) : (Task.planClauses parts cs).Plain K := by
  cases cs with
  | nil => exact pure _
  | cons c rest =>
    cases c with
    | values kind es => exact bind trivial fun vs => trivial
    | into name => exact trivial
    | run function args =>
      refine bind trivial fun known => ?_
      split
      · exact bind trivial fun vs => trivial
      · exact fail (.name _)

/-- **Every plan is plain**, but for that of a located statement. -/
theorem plan {t : Task α} (hplain : ¬ t.IsLocated) (ht : t.Among K) : t.plan.Plain K := by
  cases t with
  | eval e => exact planEval e
  | evalAll es =>
    cases es with
    | nil => exact pure _
    | cons e rest => exact bind trivial fun v => bind trivial fun vs => pure _
  | evalPairs made pairs =>
    cases pairs with
    | nil => exact pure _
    | cons pair rest => exact bind trivial fun key => bind trivial fun v => trivial
  | callExpr callee args => exact planCallExpr args callee
  | callName name args => exact bind trivial fun target => trivial
  | callFunction name args => exact planCall name args
  | execBlock b =>
    cases b with
    | nil => exact pure _
    | cons s rest =>
      obtain ⟨hs, hrest⟩ := Block.Among.cons_iff.mp ht
      refine bind hs fun signal => ?_
      split
      · exact pure _
      · exact hrest
  | execLocated s => exact absurd trivial hplain
  | exec s => exact planExec ht
  | execWhile cond body =>
    -- a loop goes on with the statements that it began with
    have hagain : (Plan.start (Task.execWhile cond body)).Plain K := ht
    refine bind trivial fun v => ?_
    split
    · exact bind ht fun signal => planAfter hagain signal
    · exact pure _
  | execFor var items body =>
    cases items with
    | nil => exact pure _
    | cons v rest =>
      have hagain : (Plan.start (Task.execFor var rest body)).Plain K := ht
      exact bind (bind trivial fun _ => ht) fun signal => planAfter hagain signal
  | execCommand c =>
    refine bind trivial fun args => bind trivial fun parts => bind trivial fun reply => ?_
    split
    · exact bind trivial fun _ => trivial
    · exact trivial
  | evalPositionals ps =>
    cases ps with
    | nil => exact pure _
    | cons p rest =>
      cases p with
      | name s => exact bind trivial fun vs => pure _
      | expr e => exact bind trivial fun v => bind trivial fun vs => pure _
  | evalClauses parts cs => exact planClauses parts cs
  | runCallbacks cbs =>
    cases cbs with
    | nil => exact pure _
    | cons cb rest => exact bind trivial fun _ => trivial

/-! ## What runs register -/

theorem prim_keeps (p : Prim α) (hp : p.Among K) {m : Machine} (hm : m.registry.Known K) :
    (p.exec m).2.registry.Known K ∧ ∀ a, (p.exec m).1 = .ok a → (Plan.prim p).Offers K a := by
  rw [(Prim.Footprint.exec p m).registry]
  cases p with
  | defineUser name params body => exact ⟨hm.defineUser name params hp, fun _ _ => trivial⟩
  | entry name =>
    refine ⟨hm, fun entry hentry => ?_⟩
    dsimp only [Prim.exec] at hentry
    cases hget : m.registry.get? name with
    | none =>
      rw [hget] at hentry
      nomatch hentry
    | some entry' =>
      rw [hget] at hentry
      obtain rfl := Except.ok.inj hentry
      exact ⟨hm.native name entry' hget, fun params body heq => hm.bodies name params body (heq ▸ hget)⟩
  | _ => exact ⟨hm, fun _ _ => trivial⟩

/-- A plain plan registers nothing else when its tasks do not, and finds nothing else registered. -/
theorem keeps {f : (α : Type) → Task α → Exec α}
    (hf : ∀ {α : Type} (t : Task α) (m : Machine), t.Among K → m.registry.Known K → (f α t m).2.registry.Known K)
    (p : Plan α) (hp : p.Plain K) {m : Machine} (hm : m.registry.Known K) :
    (p.exec f m).2.registry.Known K ∧ ∀ a, (p.exec f m).1 = .ok a → p.Offers K a := by
  induction p generalizing m with
  | give r => exact ⟨by cases r <;> exact hm, fun _ _ => trivial⟩
  | prim p => exact prim_keeps p hp hm
  | start t => exact ⟨hf t m hp hm, fun _ _ => trivial⟩
  | bind x k ihx ihk =>
    refine ⟨?_, fun _ _ => trivial⟩
    obtain ⟨hknown, hoffer⟩ := ihx hp.1 hm
    rw [Plan.exec, Exec.bind_apply]
    revert hknown hoffer
    rcases x.exec f m with ⟨e | a, m'⟩ <;> intro hknown hoffer
    · exact hknown
    · exact (ihk a (hp.2 a (hoffer a rfl)) hknown).1
  | atLine line x => exact hp.elim
  | inBlock x ih =>
    refine ⟨?_, fun _ _ => trivial⟩
    rw [Plan.exec, Exec.inBlock_apply]
    exact (@ih hp m.inside hm).1
  | inCall x ih =>
    refine ⟨?_, fun _ _ => trivial⟩
    rw [Plan.exec]
    by_cases hd : m.maxDepth ≤ m.depth
    · rw [Exec.limited_of_le _ hd]
      exact hm
    · rw [Exec.limited_of_not_le _ hd]
      exact (@ih hp m.called hm).1

end Plain

end Plan

/-- **A run registers no functions but of given statements** when its task goes through none else. -/
theorem Task.run_known (n : Nat) {α : Type} (t : Task α) (m : Machine) (ht : t.Among K)
    (hm : m.registry.Known K) : (t.run n m).2.registry.Known K := by
  induction n generalizing α m with
  | zero =>
    rw [Task.run_zero]
    exact hm
  | succ n ih =>
    rw [Task.run_succ]
    by_cases hlocated : t.IsLocated
    · -- the line is added to the failure only, so the machine is the one that the statement leaves
      cases t with
      | execLocated s =>
        show (Exec.atLine s.line ((Task.exec s.node).run n) m).2.registry.Known K
        rw [Exec.atLine_snd]
        exact ih (.exec s.node) m ht.2 hm
      | _ => exact hlocated.elim
    · exact (Plan.Plain.keeps ih t.plan (.plan hlocated ht) hm).1

/-- The tasks that a plain plan starts go through given statements. -/
theorem Plan.Starts.among {n : Nat} {α β : Type} {p : Plan α} {t : Task β} {m m' : Machine}
    (h : p.Starts (fun _ => Task.run n) t m m') (hp : p.Plain K) (hm : m.registry.Known K) :
    t.Among K ∧ m'.registry.Known K := by
  induction h with
  | start => exact ⟨hp, hm⟩
  | first _ ih => exact ih hp.1 hm
  | @next α γ x k m m₁ m' a hx _ ih =>
    obtain ⟨hknown, hoffer⟩ := Plan.Plain.keeps (f := fun _ => Task.run n) (Task.run_known n) x hp.1 hm
    rw [hx] at hknown hoffer
    exact ih (hp.2 a (hoffer a rfl)) hknown
  | atLine _ _ => exact hp.elim
  | inBlock _ ih => exact ih hp hm
  | inCall _ _ ih => exact ih hp hm

/-! ## Where failures come from -/

theorem Error.cause_atLine (e : Error) (n : Nat) : (e.atLine n).cause = e.cause := by
  unfold Error.atLine
  split <;> rfl

/-- A located statement fails when the statement does; the failure gets its line if it has no place yet. -/
theorem Task.execLocated_fails {n : Nat} {s : Located Stmt} {m : Machine} {e : Error}
    (h : ((Task.execLocated s).run (n + 1) m).1 = .error (.failed e)) :
    ∃ e₀, ((Task.exec s.node).run n m).1 = .error (.failed e₀) ∧ e = e₀.atLine s.line := by
  have hrun : ((Task.execLocated s).run (n + 1) m).1 = (Exec.atLine s.line ((Task.exec s.node).run n) m).1 := rfl
  rw [hrun, Exec.atLine_fst] at h
  revert h
  rcases ((Task.exec s.node).run n m).1 with (e₀ | _ | _) | signal <;> intro h
  · exact ⟨e₀, rfl, (Halt.failed.inj (Except.error.inj h)).symm⟩
  all_goals nomatch h

/-- A task that the plan starts fails with this very failure. -/
def Plan.Relays {α : Type} (p : Plan α) (n : Nat) (m : Machine) (e : Error) : Prop :=
  ∃ (β : Type) (u : Task β) (m' : Machine), p.Starts (fun _ => Task.run n) u m m' ∧
    (u.run n m').1 = .error (.failed e)

theorem Plan.Relays.lift {n : Nat} {α γ : Type} {p : Plan α} {q : Plan γ} {m m₀ : Machine} {e : Error}
    (h : p.Relays n m e) (hstarts : ∀ {β : Type} {u : Task β} {m' : Machine},
      p.Starts (fun _ => Task.run n) u m m' → q.Starts (fun _ => Task.run n) u m₀ m') : q.Relays n m₀ e := by
  obtain ⟨β, u, m', hu, hfails⟩ := h
  exact ⟨β, u, m', hstarts hu, hfails⟩

/-- **Where the failure of a plain plan comes from**: from a task that it started, or from the plan itself, at a place
    that is not known yet. -/
theorem Plan.Plain.origin {n : Nat} {α : Type} (p : Plan α) (hp : p.Plain K) {m : Machine}
    (hm : m.registry.Known K) {e : Error} (h : (p.exec (fun _ => Task.run n) m).1 = .error (.failed e)) :
    p.Relays n m e ∨ (e.location = .unknown ∧ (e.cause.Ordinary ∨ e.cause = .recursion m.maxDepth)) := by
  induction p generalizing m with
  | give r =>
    obtain ⟨hcause, hplace⟩ := Exec.Ordinary.ofExcept hp m e h
    exact .inr ⟨hplace, .inl hcause⟩
  | prim p =>
    obtain ⟨hcause, hplace⟩ := Exec.Ordinary.prim p m e h
    exact .inr ⟨hplace, .inl hcause⟩
  | start t => exact .inl ⟨_, t, m, .start, h⟩
  | bind x k ihx ihk =>
    obtain ⟨hknown, hoffer⟩ := Plan.Plain.keeps (f := fun _ => Task.run n) (Task.run_known n) x hp.1 hm
    have hlimit := (Exec.KeepsDepth.plan n x m).2
    rw [Plan.exec, Exec.bind_apply] at h
    rcases hx : x.exec (fun _ => Task.run n) m with ⟨e' | a, m₁⟩
    · -- the first part fails, and the rest is not come to
      rw [hx] at h
      have hfirst : (x.exec (fun _ => Task.run n) m).1 = .error (.failed e) := by
        rw [hx]
        exact congrArg Except.error (Except.error.inj h)
      exact (ihx hp.1 hm hfirst).imp_left fun hx => hx.lift .first
    · rw [hx] at h hknown hoffer hlimit
      have hrest := ihk a (hp.2 a (hoffer a rfl)) hknown h
      rw [show m₁.maxDepth = m.maxDepth from hlimit] at hrest
      exact hrest.imp_left fun hk => hk.lift (.next hx)
  | atLine line x => exact hp.elim
  | inBlock x ih =>
    rw [Plan.exec, Exec.inBlock_apply] at h
    exact (@ih hp m.inside hm h).imp_left fun hx => hx.lift .inBlock
  | inCall x ih =>
    rw [Plan.exec] at h
    by_cases hd : m.maxDepth ≤ m.depth
    · -- the limit itself is the failure, and nothing is started
      rw [Exec.limited_of_le _ hd] at h
      obtain rfl := Halt.failed.inj (Except.error.inj h)
      exact .inr ⟨rfl, .inr rfl⟩
    · rw [Exec.limited_of_not_le _ hd] at h
      exact (@ih hp m.called hm h).imp_left fun hx => hx.lift (.inCall hd)

theorem Plan.Starts.maxDepth_eq {n : Nat} {α β : Type} {p : Plan α} {t : Task β} {m m' : Machine}
    (h : p.Starts (fun _ => Task.run n) t m m') : m'.maxDepth = m.maxDepth := by
  induction h with
  | start => rfl
  | first _ ih => exact ih
  | @next α γ x k m m₁ m' a hx _ ih =>
    have hlimit := (Exec.KeepsDepth.plan n x m).2
    rw [hx] at hlimit
    exact ih.trans hlimit
  | atLine _ ih => exact ih
  | inBlock _ ih => exact ih
  | inCall _ _ ih => exact ih

/-- **Why a run fails**: in an ordinary way, or because calls nest too deep, and then the failure names the limit. -/
theorem Task.cause_of_fails {n : Nat} {α : Type} {t : Task α} {m : Machine} (hm : m.registry.Native) {e : Error}
    (he : (t.run n m).1 = .error (.failed e)) : e.cause.Ordinary ∨ e.cause = .recursion m.maxDepth := by
  induction n generalizing α m e with
  | zero =>
    rw [Task.run_zero] at he
    nomatch he
  | succ n ih =>
    by_cases hlocated : t.IsLocated
    · cases t with
      | execLocated s =>
        obtain ⟨e₀, he₀, rfl⟩ := Task.execLocated_fails he
        rw [e₀.cause_atLine]
        exact ih hm he₀
      | _ => exact hlocated.elim
    · have hplain := Plan.Plain.plan hlocated t.among_any
      rw [Task.run_succ] at he
      rcases Plan.Plain.origin t.plan hplain (.of_native hm) he with ⟨β, u, m', hstarts, hu⟩ | ⟨-, hraised⟩
      · -- a task that the plan started failed, under the same limit
        have hm' := (hstarts.among hplain (.of_native hm)).2.native
        rw [← hstarts.maxDepth_eq]
        exact ih hm' hu
      · exact hraised

end Helios
