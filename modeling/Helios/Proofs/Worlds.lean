import Helios.Proofs.Logic

/-!
# Worlds — specifications that may speak of the registered functions

Functions are defined while a program runs and never go away: the registry of a machine only grows
(`Registry.Grows`). What a task needs or gives may therefore depend on which functions there are, as long as more of
them do no harm: a callback that names a function keeps naming one. `Registry.Spec` is a specification like `Spec`
whose conditions may read the registry; a plan meets it (`Plan.MeetsIn`) when it does so in every later registry that
its questions and tasks may leave behind.

As there, a valid specification holds of whole runs (`Registry.Spec.Valid.run`) and of every state between the steps
(`Registry.Spec.Valid.reaches`).
-/

namespace Helios

namespace Registry

/-- **More functions**: every name that is registered stays so. -/
def Grows (r r' : Registry) : Prop := ∀ name, r.contains name = true → r'.contains name = true

theorem Grows.refl (r : Registry) : r.Grows r := fun _ h => h

theorem Grows.trans {r r' r'' : Registry} (h : r.Grows r') (h' : r'.Grows r'') : r.Grows r'' :=
  fun name hname => h' name (h name hname)

theorem contains_defineUser (r : Registry) (name : String) (params : List String) (body : Block) (n : String) :
    (r.defineUser name params body).contains n = (decide (name = n) || r.contains n) := by
  unfold Bindings.contains Registry.defineUser
  rw [Bindings.get?_insert]
  split
  · simp [*]
  · simp [*]

theorem grows_defineUser (r : Registry) (name : String) (params : List String) (body : Block) :
    r.Grows (r.defineUser name params body) := by
  intro n hn
  rw [contains_defineUser, hn, Bool.or_true]

end Registry

/-- No question takes a function away. -/
theorem Prim.grows {α : Type} (p : Prim α) (m : Machine) : m.registry.Grows (p.exec m).2.registry := by
  rw [(Prim.Footprint.exec p m).registry]
  cases p with
  | defineUser name params body => exact m.registry.grows_defineUser name params body
  | _ => exact .refl _

/-! ## Specifications -/

/-- **A specification that reads the registry**: an invariant of the machine, and what tasks and questions need of the
    registry before them and give in the one after them. -/
structure Registry.Spec where
  Inv : Machine → Prop
  Pre : {α : Type} → Registry → Task α → Prop
  Post : {α : Type} → Registry → Task α → α → Prop
  PrimPre : {α : Type} → Registry → Prim α → Prop
  PrimPost : {α : Type} → Registry → Prim α → α → Prop

/-- A plan **meets** a specification in a registry, with the result `Q`: whatever its questions and tasks add to the
    registry, it asks and starts what is considered then, and `Q` holds at the end. -/
def Plan.MeetsIn (S : Registry.Spec) : Registry → {α : Type} → Plan α → (Registry → α → Prop) → Prop
  | r, _, give x, Q => ∀ a, x = .ok a → Q r a
  | r, _, prim p, Q => S.PrimPre r p ∧ ∀ r' a, r.Grows r' → S.PrimPost r' p a → Q r' a
  | r, _, start t, Q => S.Pre r t ∧ ∀ r' a, r.Grows r' → S.Post r' t a → Q r' a
  | r, _, bind x k, Q => x.MeetsIn S r fun r' a => (k a).MeetsIn S r' Q
  | r, _, atLine _ x, Q => x.MeetsIn S r Q
  | r, _, inBlock x, Q => x.MeetsIn S r Q
  | r, _, inCall x, Q => x.MeetsIn S r Q

namespace Registry.Spec

/-- A computation keeps the invariant and every function, and `Q` holds of what it gives. -/
def Keeps (S : Registry.Spec) (r : Registry) {α : Type} (x : Exec α) (Q : Registry → α → Prop) : Prop :=
  ∀ m, m.registry = r → S.Inv m →
    S.Inv (x m).2 ∧ r.Grows (x m).2.registry ∧ ∀ a, (x m).1 = .ok a → Q (x m).2.registry a

/-- **A valid specification**: frames do not matter to the invariant, questions keep it, and plans meet it. -/
structure Valid (S : Registry.Spec) : Prop where
  inside : ∀ m, S.Inv m → S.Inv m.inside
  left : ∀ m saved, S.Inv m → S.Inv (m.left saved)
  called : ∀ m, S.Inv m → S.Inv m.called
  returned : ∀ m saved, S.Inv m → S.Inv (m.returned saved)
  prim : ∀ {α : Type} (p : Prim α) (m : Machine), S.PrimPre m.registry p → S.Inv m →
    S.Inv (p.exec m).2 ∧ ∀ a, (p.exec m).1 = .ok a → S.PrimPost (p.exec m).2.registry p a
  plan : ∀ (r : Registry) {α : Type} (t : Task α), S.Pre r t → t.plan.MeetsIn S r fun r' => S.Post r' t

namespace Valid

variable {S : Registry.Spec} {α β : Type}

/-- A plan that meets a valid specification keeps it, when the runs of its tasks do. -/
theorem plan_keeps (hS : S.Valid) {f : (α : Type) → Task α → Exec α}
    (hf : ∀ {α : Type} (t : Task α) (r : Registry), S.Pre r t → S.Keeps r (f α t) fun r' => S.Post r' t)
    (p : Plan α) {r : Registry} {Q : Registry → α → Prop} (hp : p.MeetsIn S r Q) : S.Keeps r (p.exec f) Q := by
  induction p generalizing r with
  | give x =>
    rintro m rfl hm
    cases x with
    | error c => exact ⟨hm, .refl _, fun b hb => by cases hb⟩
    | ok a => exact ⟨hm, .refl _, fun b hb => Except.ok.inj hb ▸ hp a rfl⟩
  | prim p =>
    rintro m rfl hm
    obtain ⟨hinv, hpost⟩ := hS.prim p m hp.1 hm
    have hgrows := Prim.grows p m
    exact ⟨hinv, hgrows, fun a ha => hp.2 _ a hgrows (hpost a ha)⟩
  | start t =>
    rintro m rfl hm
    obtain ⟨hinv, hgrows, hpost⟩ := hf t _ hp.1 m rfl hm
    exact ⟨hinv, hgrows, fun a ha => hp.2 _ a hgrows (hpost a ha)⟩
  | bind x k ihx ihk =>
    rintro m rfl hm
    rw [Plan.exec, Exec.bind_apply]
    -- what follows starts with the registry that the first part leaves
    obtain ⟨hinv, hgrows, hpost⟩ := ihx hp m rfl hm
    revert hinv hgrows hpost
    rcases x.exec f m with ⟨e | a, m'⟩ <;> intro hinv hgrows hpost
    · exact ⟨hinv, hgrows, by simp⟩
    · obtain ⟨hinv', hgrows', hpost'⟩ := ihk a (hpost a rfl) m' rfl hinv
      exact ⟨hinv', hgrows.trans hgrows', hpost'⟩
  | atLine line x ih =>
    rintro m rfl hm
    obtain ⟨hinv, hgrows, hpost⟩ := ih hp m rfl hm
    rw [Plan.exec, Exec.atLine_snd]
    exact ⟨hinv, hgrows, fun a ha => hpost a (Exec.atLine_eq_ok.1 ha)⟩
  | inBlock x ih =>
    rintro m rfl hm
    rw [Plan.exec, Exec.inBlock_apply]
    obtain ⟨hinv, hgrows, hpost⟩ := ih hp m.inside rfl (hS.inside m hm)
    exact ⟨hS.left _ _ hinv, hgrows, hpost⟩
  | inCall x ih =>
    rintro m rfl hm
    by_cases hd : m.maxDepth ≤ m.depth
    · rw [Plan.exec, Exec.limited_of_le _ hd]
      exact ⟨hm, .refl _, fun b hb => by cases hb⟩
    · rw [Plan.exec, Exec.limited_of_not_le _ hd]
      obtain ⟨hinv, hgrows, hpost⟩ := ih hp m.called rfl (hS.called m hm)
      exact ⟨hS.returned _ _ hinv, hgrows, hpost⟩

/-- **Every run keeps a valid specification.** -/
theorem run (hS : S.Valid) (n : Nat) (t : Task α) (r : Registry) (ht : S.Pre r t) :
    S.Keeps r (t.run n) fun r' => S.Post r' t := by
  induction n generalizing α r with
  | zero =>
    rw [Task.run_zero]
    rintro m rfl hm
    exact ⟨hm, .refl _, nofun⟩
  | succ n ih =>
    rw [Task.run_succ]
    exact hS.plan_keeps (fun t r => ih t r) t.plan (hS.plan r t ht)

/-- The tasks that a plan starts are considered, in states where the invariant holds and nothing was taken away. -/
theorem starts (hS : S.Valid) {n : Nat} {p : Plan α} {t : Task β} {m m' : Machine} {Q : Registry → α → Prop}
    (hp : p.MeetsIn S m.registry Q) (hm : S.Inv m) (h : p.Starts (fun _ => Task.run n) t m m') :
    S.Pre m'.registry t ∧ S.Inv m' ∧ m.registry.Grows m'.registry := by
  induction h with
  | start => exact ⟨hp.1, hm, .refl _⟩
  | first _ ih => exact ih hp hm
  | @next α γ x k m m₁ m' a hx _ ih =>
    obtain ⟨hinv, hgrows, hpost⟩ :=
      hS.plan_keeps (f := fun _ => Task.run n) (fun t r => hS.run n t r) x hp m rfl hm
    rw [hx] at hinv hgrows hpost
    obtain ⟨hpre, hinv', hgrows'⟩ := ih (hpost a rfl) hinv
    exact ⟨hpre, hinv', hgrows.trans hgrows'⟩
  | atLine _ ih => exact ih hp hm
  | inBlock _ ih => exact ih hp (hS.inside _ hm)
  | inCall _ _ ih => exact ih hp (hS.called _ hm)

/-- **A valid specification holds all along a run.** -/
theorem reaches (hS : S.Valid) {n k : Nat} {t : Task α} {t' : Task β} {m m' : Machine} (ht : S.Pre m.registry t)
    (hm : S.Inv m) (h : Task.Reaches k t' m' n t m) :
    S.Pre m'.registry t' ∧ S.Inv m' ∧ m.registry.Grows m'.registry := by
  induction h with
  | here => exact ⟨ht, hm, .refl _⟩
  | step hs _ ih =>
    obtain ⟨hpre, hinv, hgrows⟩ := hS.starts (hS.plan _ _ ht) hm hs
    obtain ⟨hpre', hinv', hgrows'⟩ := ih hpre hinv
    exact ⟨hpre', hinv', hgrows.trans hgrows'⟩

end Valid

end Registry.Spec

end Helios
