import Helios.Proofs.Footprint

/-!
# Logic — what follows for every run from what holds of plans

Three ways to derive a fact about all runs from the plans of tasks:

* **relations** (`Compositional`): a relation between computations that respects every way of putting them
  together relates any two runs of a task with the same fuel;
* **specifications** (`Spec`): an invariant of the machine with pre- and postconditions of tasks holds along
  every run when each plan meets it, *between* the steps too (`Spec.Valid.reaches`);
* **descent** (`Plan.finishes`): a plan finishes when the tasks it starts do.

`Task.Reaches` is the trace of a run: which tasks it starts, with how much fuel and in which state.
-/

namespace Helios

/-! ## Frames -/

namespace Machine

/-- In a frame inside the current one. -/
def inside (m : Machine) : Machine := { m with scopes := m.scopes.enterBlock.2 }

/-- Back from such a frame. -/
def left (m : Machine) (saved : ScopeId) : Machine := { m with scopes := m.scopes.leave saved }

/-- In the frame of a call, one call deeper. -/
def called (m : Machine) : Machine := { m with scopes := m.scopes.enterCall.2, depth := m.depth + 1 }

/-- Back from such a frame. -/
def returned (m : Machine) (saved : ScopeId) : Machine :=
  { m with scopes := m.scopes.leave saved, depth := m.depth - 1 }

end Machine

theorem Scopes.enter_fst (s : Scopes) (parent : ScopeId) : (s.enter parent).1 = s.current := by
  unfold Scopes.enter
  cases s.free <;> rfl

namespace Exec

variable {α : Type}

theorem inBlock_apply (x : Exec α) (m : Machine) :
    inBlock x m = ((x m.inside).1, (x m.inside).2.left m.scopes.current) := by
  show ((x m.inside).1, (x m.inside).2.left m.scopes.enterBlock.1) = _
  rw [Scopes.enterBlock, Scopes.enter_fst]

theorem inCall_apply (x : Exec α) (m : Machine) :
    inCall x m = ((x m.called).1, (x m.called).2.returned m.scopes.current) := by
  show ((x m.called).1, (x m.called).2.returned m.scopes.enterCall.1) = _
  rw [Scopes.enterCall, Scopes.enter_fst]

theorem limited_of_le (x : Exec α) {m : Machine} (h : m.maxDepth ≤ m.depth) :
    limited x m = fail (.recursion m.maxDepth) m := if_pos h

theorem limited_of_not_le (x : Exec α) {m : Machine} (h : ¬ m.maxDepth ≤ m.depth) :
    limited x m = ((x m.called).1, (x m.called).2.returned m.scopes.current) := by
  rw [← inCall_apply]
  exact if_neg h

theorem atLine_snd (line : Nat) (x : Exec α) (m : Machine) : (atLine line x m).2 = (x m).2 := by
  unfold atLine
  split
  · rename_i h; rw [h]
  · rfl

/-- A line is added to failures only. -/
theorem atLine_fst (line : Nat) (x : Exec α) (m : Machine) :
    (atLine line x m).1 = match (x m).1 with
      | .error (.failed e) => .error (.failed (e.atLine line))
      | r => r := by
  unfold atLine
  rcases x m with ⟨(_ | _ | _) | _, _⟩ <;> rfl

theorem atLine_eq_ok {line : Nat} {x : Exec α} {m : Machine} {a : α} :
    (atLine line x m).1 = .ok a ↔ (x m).1 = .ok a := by
  rw [atLine_fst]
  rcases (x m).1 with (_ | _ | _) | _ <;> simp

theorem atLine_eq_outOfFuel {line : Nat} {x : Exec α} {m : Machine} :
    (atLine line x m).1 = .error .outOfFuel ↔ (x m).1 = .error .outOfFuel := by
  rw [atLine_fst]
  rcases (x m).1 with (_ | _ | _) | _ <;> simp

end Exec

/-! ## Relations that respect composition -/

/-- **A relation between computations that respects every way a plan puts them together.** -/
structure Compositional (R : {α : Type} → Exec α → Exec α → Prop) : Prop where
  give : ∀ {α : Type} (r : Except Cause α), R (Exec.ofExcept r) (Exec.ofExcept r)
  prim : ∀ {α : Type} (p : Prim α), R p.exec p.exec
  bind : ∀ {α β : Type} {x y : Exec α} {f g : α → Exec β}, R x y → (∀ a, R (f a) (g a)) →
    R (x >>= f) (y >>= g)
  atLine : ∀ {α : Type} (line : Nat) {x y : Exec α}, R x y → R (Exec.atLine line x) (Exec.atLine line y)
  inBlock : ∀ {α : Type} {x y : Exec α}, R x y → R (Exec.inBlock x) (Exec.inBlock y)
  inCall : ∀ {α : Type} {x y : Exec α}, R x y → R (Exec.limited x) (Exec.limited y)

namespace Compositional

variable {R : {α : Type} → Exec α → Exec α → Prop}

/-- Runs of a plan are related when those of its tasks are. -/
theorem plan (h : Compositional R) {f g : (α : Type) → Task α → Exec α}
    (hfg : ∀ {α : Type} (t : Task α), R (f α t) (g α t)) {α : Type} (p : Plan α) :
    R (p.exec f) (p.exec g) := by
  induction p with
  | give r => exact h.give r
  | prim p => exact h.prim p
  | start t => exact hfg t
  | bind x k ihx ihk => exact h.bind ihx ihk
  | atLine line x ih => exact h.atLine line ih
  | inBlock x ih => exact h.inBlock ih
  | inCall x ih => exact h.inCall ih

/-- One unit of fuel more on both sides keeps runs related. -/
theorem step (h : Compositional R) {n k : Nat}
    (ih : ∀ {α : Type} (t : Task α), R (t.run n) (t.run k)) {α : Type} (t : Task α) :
    R (t.run (n + 1)) (t.run (k + 1)) := by
  rw [Task.run_succ, Task.run_succ]
  exact h.plan ih t.plan

/-- **Runs of a task with the same fuel are related.** -/
theorem run (h : Compositional R) (hz : ∀ {α : Type}, R (Exec.exhausted : Exec α) Exec.exhausted)
    (n : Nat) {α : Type} (t : Task α) : R (t.run n) (t.run n) := by
  induction n generalizing α with
  | zero => rw [Task.run_zero]; exact hz
  | succ n ih => exact h.step ih t

end Compositional

/-! ## More fuel -/

/-- A run that does not run out of fuel, and one that ends in the same way. -/
def Exec.Extends {α : Type} (x y : Exec α) : Prop := ∀ m, (x m).1 ≠ .error .outOfFuel → y m = x m

namespace Exec.Extends

variable {α β : Type}

theorem refl (x : Exec α) : Extends x x := fun _ _ => rfl

theorem bind {x y : Exec α} {f g : α → Exec β} (hx : Extends x y) (hf : ∀ a, Extends (f a) (g a)) :
    Extends (x >>= f) (y >>= g) := by
  intro m hm
  rw [bind_apply, bind_apply]
  rw [bind_apply] at hm
  rcases h : x m with ⟨e | a, m'⟩
  · rw [h] at hm
    have he : e ≠ .outOfFuel := fun he => hm (by rw [he])
    have hy : y m = (.error e, m') := by
      rw [hx m (by rw [h]; exact fun hc => he (Except.error.inj hc)), h]
    rw [hy]
  · have hy : y m = (.ok a, m') := by
      rw [hx m (by rw [h]; simp), h]
    rw [h] at hm
    rw [hy]
    exact hf a m' hm

theorem compositional : Compositional @Extends where
  give r := refl _
  prim p := refl _
  bind := bind
  atLine line x y h := by
    intro m hm
    unfold atLine
    rw [h m (fun hx => hm (atLine_eq_outOfFuel.2 hx))]
  inBlock h := by
    intro m hm
    rw [inBlock_apply] at hm ⊢
    rw [inBlock_apply, h m.inside hm]
  inCall h := by
    intro m hm
    by_cases hd : m.maxDepth ≤ m.depth
    · rw [limited_of_le _ hd, limited_of_le _ hd]
    · rw [limited_of_not_le _ hd] at hm
      rw [limited_of_not_le _ hd, limited_of_not_le _ hd, h m.called hm]

end Exec.Extends

/-- **More fuel keeps a finished run.** -/
theorem Task.run_extends {n k : Nat} (hle : n ≤ k) {α : Type} (t : Task α) :
    Exec.Extends (t.run n) (t.run k) := by
  induction n generalizing k α with
  | zero =>
    intro m hm
    rw [Task.run_zero] at hm
    exact absurd rfl hm
  | succ n ih =>
    obtain ⟨k, rfl⟩ : ∃ j, k = j + 1 := ⟨k - 1, by omega⟩
    exact Exec.Extends.compositional.step (fun t => ih (Nat.le_of_succ_le_succ hle) t) t

/-- Runs that both finish are one run. -/
theorem Task.run_eq {n k : Nat} {α : Type} {t : Task α} {m : Machine} (hn : (t.run n m).1 ≠ .error .outOfFuel)
    (hk : (t.run k m).1 ≠ .error .outOfFuel) : t.run n m = t.run k m := by
  have h₁ := Task.run_extends (Nat.le_max_left n k) t m hn
  have h₂ := Task.run_extends (Nat.le_max_right n k) t m hk
  exact h₁.symm.trans h₂

theorem Plan.exec_extends {n k : Nat} (hle : n ≤ k) {α : Type} (p : Plan α) :
    Exec.Extends (p.exec fun _ => Task.run n) (p.exec fun _ => Task.run k) :=
  Exec.Extends.compositional.plan (fun t => Task.run_extends hle t) p

/-! ## Depth -/

/-- The depth of calls at the end is that at the start, and the limit on it never changes. -/
def Exec.KeepsDepth {α : Type} (x : Exec α) : Prop :=
  ∀ m, (x m).2.depth = m.depth ∧ (x m).2.maxDepth = m.maxDepth

namespace Exec.KeepsDepth

variable {α β : Type}

theorem bind {x : Exec α} {f : α → Exec β} (hx : KeepsDepth x) (hf : ∀ a, KeepsDepth (f a)) :
    KeepsDepth (x >>= f) := by
  intro m
  rw [bind_apply]
  have h := hx m
  revert h
  rcases x m with ⟨e | a, m'⟩ <;> intro h
  · exact h
  · exact ⟨(hf a m').1.trans h.1, (hf a m').2.trans h.2⟩

theorem compositional : Compositional fun x _ => KeepsDepth x where
  give r := by cases r <;> exact fun _ => ⟨rfl, rfl⟩
  prim p := fun m => ⟨(Prim.Footprint.exec p m).depth, (Prim.Footprint.exec p m).maxDepth⟩
  bind := bind
  atLine line x _ h := fun m => by rw [atLine_snd]; exact h m
  inBlock h := fun m => by rw [inBlock_apply]; exact h m.inside
  inCall h := by
    intro m
    by_cases hle : m.maxDepth ≤ m.depth
    · rw [limited_of_le _ hle]
      exact ⟨rfl, rfl⟩
    · rw [limited_of_not_le _ hle]
      obtain ⟨hd, hl⟩ := h m.called
      -- the call went one deeper, and back
      exact ⟨by show _ - 1 = _; rw [hd]; rfl, hl⟩

theorem run (n : Nat) (t : Task α) : KeepsDepth (t.run n) := compositional.run (fun _ => ⟨rfl, rfl⟩) n t

theorem plan (n : Nat) (p : Plan α) : KeepsDepth (p.exec fun _ => Task.run n) :=
  compositional.plan (g := fun _ => Task.run n) (fun t => run n t) p

end Exec.KeepsDepth

/-! ## Traces -/

/-- Carrying out a plan from `m`, its tasks by `f`, starts the task `t` at `m'`. -/
inductive Plan.Starts (f : (α : Type) → Task α → Exec α) {β : Type} (t : Task β) :
    {α : Type} → Plan α → Machine → Machine → Prop
  | start {m : Machine} : Starts f t (start t) m m
  | first {α γ : Type} {x : Plan α} {k : α → Plan γ} {m m' : Machine} (h : Starts f t x m m') :
    Starts f t (bind x k) m m'
  | next {α γ : Type} {x : Plan α} {k : α → Plan γ} {m m₁ m' : Machine} {a : α}
    (hx : x.exec f m = (.ok a, m₁)) (h : Starts f t (k a) m₁ m') : Starts f t (bind x k) m m'
  | atLine {α : Type} {line : Nat} {x : Plan α} {m m' : Machine} (h : Starts f t x m m') :
    Starts f t (atLine line x) m m'
  | inBlock {α : Type} {x : Plan α} {m m' : Machine} (h : Starts f t x m.inside m') :
    Starts f t (inBlock x) m m'
  | inCall {α : Type} {x : Plan α} {m m' : Machine} (hd : ¬ m.maxDepth ≤ m.depth)
    (h : Starts f t x m.called m') : Starts f t (inCall x) m m'

/-- **The trace of a run**: a run of `t` from `m` with fuel `n` comes to the task `t'` in the state `m'` with
    `k` units of fuel left. -/
inductive Task.Reaches {β : Type} (k : Nat) (t' : Task β) (m' : Machine) :
    {α : Type} → Nat → Task α → Machine → Prop
  | here : Reaches k t' m' k t' m'
  | step {α γ : Type} {n : Nat} {t : Task α} {u : Task γ} {m m₁ : Machine}
    (hs : t.plan.Starts (fun _ => Task.run n) u m m₁) (h : Reaches k t' m' n u m₁) :
    Reaches k t' m' (n + 1) t m

/-! ## Specifications -/

/-- **A specification**: an invariant of the machine, the tasks and questions that are considered, and what
    they may give. -/
structure Spec where
  Inv : Machine → Prop
  Pre : {α : Type} → Task α → Prop
  Post : {α : Type} → Task α → α → Prop
  PrimPre : {α : Type} → Prim α → Prop
  PrimPost : {α : Type} → Prim α → α → Prop

/-- A plan **meets** a specification with the result `Q`: it asks and starts what is considered, and `Q`
    holds of what it gives. Tasks it starts without a call between satisfy `near` instead. -/
def Plan.Meets (S : Spec) : ((α : Type) → Task α → Prop) → {α : Type} → Plan α → (α → Prop) → Prop
  | _, _, give r, Q => ∀ a, r = .ok a → Q a
  | _, _, prim p, Q => S.PrimPre p ∧ ∀ a, S.PrimPost p a → Q a
  | near, _, start t, Q => near _ t ∧ ∀ a, S.Post t a → Q a
  | near, _, bind x k, Q => x.Meets S near fun a => (k a).Meets S near Q
  | near, _, atLine _ x, Q => x.Meets S near Q
  | near, _, inBlock x, Q => x.Meets S near Q
  | _, _, inCall x, Q => x.Meets S (fun _ => S.Pre) Q

/-- A computation keeps the invariant, and `Q` holds of what it gives. -/
def Spec.Keeps (S : Spec) {α : Type} (x : Exec α) (Q : α → Prop) : Prop :=
  ∀ m, S.Inv m → S.Inv (x m).2 ∧ ∀ a, (x m).1 = .ok a → Q a

/-- **A valid specification**: frames do not matter to the invariant, questions keep it, and plans meet it. -/
structure Spec.Valid (S : Spec) : Prop where
  inside : ∀ m, S.Inv m → S.Inv m.inside
  left : ∀ m saved, S.Inv m → S.Inv (m.left saved)
  called : ∀ m, S.Inv m → S.Inv m.called
  returned : ∀ m saved, S.Inv m → S.Inv (m.returned saved)
  prim : ∀ {α : Type} (p : Prim α), S.PrimPre p → S.Keeps p.exec (S.PrimPost p)
  plan : ∀ {α : Type} (t : Task α), S.Pre t → t.plan.Meets S (fun _ => S.Pre) (S.Post t)

namespace Plan.Meets

variable {S : Spec} {near : (α : Type) → Task α → Prop} {α : Type}

theorem pure_iff {a : α} {Q : α → Prop} : (pure a : Plan α).Meets S near Q ↔ Q a :=
  ⟨fun h => h a rfl, fun h _ hb => Except.ok.inj hb ▸ h⟩

theorem bind_iff {β : Type} {x : Plan β} {k : β → Plan α} {Q : α → Prop} :
    (x >>= k).Meets S near Q ↔ x.Meets S near fun b => (k b).Meets S near Q := Iff.rfl

theorem mono {near' : (α : Type) → Task α → Prop} (hnear : ∀ {α : Type} (t : Task α), near α t → near' α t)
    {p : Plan α} {Q Q' : α → Prop} (hQ : ∀ a, Q a → Q' a) (h : p.Meets S near Q) : p.Meets S near' Q' := by
  induction p generalizing near near' with
  | give r => exact fun a ha => hQ a (h a ha)
  | prim p => exact ⟨h.1, fun a ha => hQ a (h.2 a ha)⟩
  | start t => exact ⟨hnear t h.1, fun a ha => hQ a (h.2 a ha)⟩
  | bind x k ihx ihk => exact ihx hnear (fun a ha => ihk a hnear hQ ha) h
  | atLine line x ih => exact ih hnear hQ h
  | inBlock x ih => exact ih hnear hQ h
  | inCall x ih => exact ih (fun _ => id) hQ h

end Plan.Meets

namespace Spec

variable {S : Spec} {α β : Type}

theorem Keeps.bind {x : Exec α} {f : α → Exec β} {P : α → Prop} {Q : β → Prop} (hx : S.Keeps x P)
    (hf : ∀ a, P a → S.Keeps (f a) Q) : S.Keeps (x >>= f) Q := by
  intro m hm
  rw [Exec.bind_apply]
  obtain ⟨hinv, hpost⟩ := hx m hm
  revert hinv hpost
  rcases x m with ⟨e | a, m'⟩ <;> intro hinv hpost
  · exact ⟨hinv, fun _ h => nomatch h⟩
  · exact hf a (hpost a rfl) m' hinv

theorem Keeps.ofExcept {r : Except Cause α} {Q : α → Prop} (h : ∀ a, r = .ok a → Q a) :
    S.Keeps (Exec.ofExcept r) Q := by
  intro m hm
  cases r with
  | error c => exact ⟨hm, fun _ h => nomatch h⟩
  | ok a => exact ⟨hm, fun b hb => Except.ok.inj hb ▸ h a rfl⟩

theorem Keeps.limited (hS : S.Valid) {x : Exec α} {Q : α → Prop} (hx : S.Keeps x Q) :
    S.Keeps (Exec.limited x) Q := by
  intro m hm
  by_cases hd : m.maxDepth ≤ m.depth
  · rw [Exec.limited_of_le _ hd]
    exact ⟨hm, fun _ h => nomatch h⟩
  · rw [Exec.limited_of_not_le _ hd]
    obtain ⟨hinv, hpost⟩ := hx m.called (hS.called m hm)
    exact ⟨hS.returned _ _ hinv, hpost⟩

namespace Valid

variable {near : (α : Type) → Task α → Prop}

/-- A plan that meets a valid specification keeps it, when the runs of its tasks do. -/
theorem plan_keeps (hS : S.Valid) {f : (α : Type) → Task α → Exec α}
    (hf : ∀ {α : Type} (t : Task α), S.Pre t → S.Keeps (f α t) (S.Post t))
    (hnear : ∀ {α : Type} (t : Task α), near α t → S.Pre t) (p : Plan α) {Q : α → Prop}
    (hp : p.Meets S near Q) : S.Keeps (p.exec f) Q := by
  induction p generalizing near with
  | give r => exact .ofExcept hp
  | prim p =>
    intro m hm
    obtain ⟨hinv, hpost⟩ := hS.prim p hp.1 m hm
    exact ⟨hinv, fun a ha => hp.2 a (hpost a ha)⟩
  | start t =>
    intro m hm
    obtain ⟨hinv, hpost⟩ := hf t (hnear t hp.1) m hm
    exact ⟨hinv, fun a ha => hp.2 a (hpost a ha)⟩
  | bind x k ihx ihk => exact (ihx hnear hp).bind fun a ha => ihk a hnear ha
  | atLine line x ih =>
    intro m hm
    obtain ⟨hinv, hpost⟩ := ih hnear hp m hm
    exact ⟨by rw [Plan.exec, Exec.atLine_snd]; exact hinv, fun a ha => hpost a (Exec.atLine_eq_ok.1 ha)⟩
  | inBlock x ih =>
    intro m hm
    rw [Plan.exec, Exec.inBlock_apply]
    obtain ⟨hinv, hpost⟩ := ih hnear hp m.inside (hS.inside m hm)
    exact ⟨hS.left _ _ hinv, hpost⟩
  | inCall x ih => exact Keeps.limited hS (ih (fun _ => id) hp)

/-- **Every run keeps a valid specification.** -/
theorem run (hS : S.Valid) (n : Nat) (t : Task α) (ht : S.Pre t) : S.Keeps (t.run n) (S.Post t) := by
  induction n generalizing α with
  | zero =>
    rw [Task.run_zero]
    exact fun m hm => ⟨hm, fun _ h => nomatch h⟩
  | succ n ih =>
    rw [Task.run_succ]
    exact hS.plan_keeps ih (fun _ => id) t.plan (hS.plan t ht)

/-- The tasks that a plan starts are considered, in states where the invariant holds. -/
theorem starts (hS : S.Valid) {n : Nat} (hnear : ∀ {α : Type} (t : Task α), near α t → S.Pre t)
    {p : Plan α} {Q : α → Prop} (hp : p.Meets S near Q) {t : Task β} {m m' : Machine} (hm : S.Inv m)
    (h : p.Starts (fun _ => Task.run n) t m m') : S.Pre t ∧ S.Inv m' := by
  induction h generalizing near with
  | start => exact ⟨hnear _ hp.1, hm⟩
  | first _ ih => exact ih hnear hp hm
  | @next α γ x k m m₁ m' a hx _ ih =>
    obtain ⟨hinv, hpost⟩ :=
      hS.plan_keeps (f := fun _ => Task.run n) (fun t ht => hS.run n t ht) hnear x hp m hm
    rw [hx] at hinv hpost
    exact ih hnear (hpost a rfl) hinv
  | atLine _ ih => exact ih hnear hp hm
  | inBlock _ ih => exact ih hnear hp (hS.inside _ hm)
  | inCall _ _ ih => exact ih (fun _ => id) hp (hS.called _ hm)

/-- **A valid specification holds all along a run.** -/
theorem reaches (hS : S.Valid) {n k : Nat} {t : Task α} {t' : Task β} {m m' : Machine} (ht : S.Pre t)
    (hm : S.Inv m) (h : Task.Reaches k t' m' n t m) : S.Pre t' ∧ S.Inv m' := by
  induction h with
  | here => exact ⟨ht, hm⟩
  | step hs _ ih =>
    obtain ⟨hu, hm₁⟩ := hS.starts (fun _ => id) (hS.plan _ ht) hm hs
    exact ih hu hm₁

end Valid

end Spec

/-! ## Descent -/

/-- Some fuel suffices. -/
def Task.Finishes {α : Type} (t : Task α) (m : Machine) : Prop := ∃ n, (t.run n m).1 ≠ .error .outOfFuel

/-- **A plan finishes when its tasks do**: those it starts at its own depth, and those it starts in a call,
    of which there are none once the limit is reached. -/
theorem Plan.finishes {S : Spec} (hS : S.Valid) {near : (α : Type) → Task α → Prop}
    (hnear : ∀ {α : Type} (t : Task α), near α t → S.Pre t) {α : Type} (p : Plan α) {Q : α → Prop}
    (hp : p.Meets S near Q) {m : Machine} (hm : S.Inv m)
    (hsame : ∀ {β : Type} (t : Task β) (m' : Machine), near β t → S.Inv m' → m'.depth = m.depth →
      m'.maxDepth = m.maxDepth → t.Finishes m')
    (hdeep : ∀ {β : Type} (t : Task β) (m' : Machine), S.Pre t → S.Inv m' → m.depth < m.maxDepth →
      m.depth < m'.depth → m'.maxDepth = m.maxDepth → t.Finishes m') :
    ∃ n, (p.exec (fun _ => Task.run n) m).1 ≠ .error .outOfFuel := by
  -- `near` are the tasks that are started at the depth of the plan itself, the others are started inside of a call
  induction p generalizing near m with
  | give r => exact ⟨0, (Exec.Direct.ofExcept r).fuel m⟩
  | prim p => exact ⟨0, (Exec.Direct.prim p).fuel m⟩
  | start t => exact hsame t m hp.1 hm rfl rfl
  | bind x k ihx ihk =>
    obtain ⟨n, hn⟩ := ihx hnear hp hm hsame hdeep
    have hkeeps := hS.plan_keeps (f := fun _ => Task.run n) (fun t ht => hS.run n t ht) hnear x hp m hm
    have hdepth := Exec.KeepsDepth.plan n x m
    revert hkeeps hdepth
    rcases hx : x.exec (fun _ => Task.run n) m with ⟨e | a, m₁⟩ <;> rintro ⟨hinv, hpost⟩ ⟨hd, hl⟩
    · refine ⟨n, ?_⟩
      rw [Plan.exec, Exec.bind_error hx]
      rw [hx] at hn
      exact fun h => hn (congrArg Except.error (Except.error.inj h))
    · -- the rest starts where the first part ended, at the same depth
      obtain ⟨k', hk'⟩ := ihk a hnear (hpost a rfl) hinv
        (fun t m' ht hi h₁ h₂ => hsame t m' ht hi (h₁.trans hd) (h₂.trans hl))
        (fun t m' ht hi h₁ h₂ h₃ => hdeep t m' ht hi (by rw [← hd, ← hl]; exact h₁) (hd ▸ h₂) (h₃.trans hl))
      refine ⟨max n k', ?_⟩
      have hx' := (Plan.exec_extends (Nat.le_max_left n k') x m hn).trans hx
      have hk := Plan.exec_extends (Nat.le_max_right n k') (k a) m₁ hk'
      rw [Plan.exec, Exec.bind_ok hx', hk]
      exact hk'
  | atLine line x ih =>
    obtain ⟨n, hn⟩ := ih hnear hp hm hsame hdeep
    exact ⟨n, fun h => hn (Exec.atLine_eq_outOfFuel.1 h)⟩
  | inBlock x ih =>
    obtain ⟨n, hn⟩ := ih hnear hp (hS.inside m hm) hsame hdeep
    exact ⟨n, by rw [Plan.exec, Exec.inBlock_apply]; exact hn⟩
  | inCall x ih =>
    -- at the limit nothing is started
    by_cases hd : m.maxDepth ≤ m.depth
    · refine ⟨0, ?_⟩
      rw [Plan.exec, Exec.limited_of_le _ hd]
      exact (Exec.Direct.ofExcept (.error _)).fuel m
    · have hlt : m.depth < m.maxDepth := Nat.lt_of_not_le hd
      obtain ⟨n, hn⟩ := @ih (fun _ => S.Pre) (fun _ => id) _ hp m.called (hS.called m hm)
        (fun t m' ht hi h₁ h₂ => hdeep t m' ht hi hlt (by rw [h₁]; exact Nat.lt_succ_self _) h₂)
        (fun t m' ht hi _ h₂ h₃ => hdeep t m' ht hi hlt (Nat.lt_of_succ_lt h₂) h₃)
      refine ⟨n, ?_⟩
      rw [Plan.exec, Exec.limited_of_not_le _ hd]
      exact hn

end Helios
