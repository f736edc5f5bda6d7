import Helios.Proofs.Provenance

/-!
# Termination — programs without `while` finish

A task that is no `while` starts smaller tasks at its own depth, and calls go deeper until the limit on
nested calls is reached. So *how many calls may still be nested, how much code is left, how many rounds are
left* goes down lexicographically, whatever functions are called and however they are redefined on the way.
-/

namespace Helios

/-! ## Code without `while` -/

/-- No `while` stands within the statement. -/
def Stmt.WhileFree (s : Stmt) : Prop := ∀ t : Stmt, t.Within s → ∀ cond body, t ≠ .while_ cond body

/-- **No `while` stands in the block**, at any depth; bodies of functions count. -/
def Block.WhileFree (b : Block) : Prop := Block.All Stmt.WhileFree b

theorem Stmt.hereditary_whileFree : Hereditary Stmt.WhileFree Block.WhileFree := .within _

/-- A statement has no `while` within when it is none and its blocks have none. -/
theorem Stmt.whileFree_iff {s : Stmt} :
    s.WhileFree ↔ (∀ cond body, s ≠ .while_ cond body) ∧ ∀ b ∈ s.blocks, b.WhileFree := by
  constructor
  · intro h
    exact ⟨h s .refl, fun b hb l hl t ht => h t (.step hb hl ht)⟩
  · rintro ⟨hs, hb⟩ t ht
    cases ht with
    | refl => exact hs
    | step hmem hl ht => exact hb _ hmem _ hl t ht

/-! ## Every task finishes -/

/-- A task finishes when its plan does. -/
theorem Task.Finishes.of_plan {α : Type} {t : Task α} {m : Machine}
    (h : ∃ n, (t.plan.exec (fun _ => Task.run n) m).1 ≠ .error .outOfFuel) : t.Finishes m := by
  obtain ⟨n, hn⟩ := h
  exact ⟨n + 1, by rw [Task.run_succ]; exact hn⟩

/-- **Tasks without `while` finish**, when registered functions have none either. -/
theorem Task.finishes_of_whileFree {α : Type} (t : Task α) (m : Machine) (ht : t.Running Stmt.WhileFree)
    (hm : m.registry.Bodies Block.WhileFree) : t.Finishes m := by
  have hsmaller : ¬ t.IsWhile := by
    intro hw
    cases t with
    | execWhile cond body => exact ht _ .refl cond body rfl
    | _ => exact hw
  refine .of_plan (Plan.finishes Stmt.hereditary_whileFree.valid (fun _ hu => hu.1) t.plan
    (Stmt.hereditary_whileFree.plan_meets t ht) hm ?_ ?_)
  · intro β u m' hu hinv hdepth hmax
    have hlt := hu.2.resolve_left hsmaller
    exact Task.finishes_of_whileFree u m' hu.1 hinv
  · intro β u m' hu hinv hlimit hdepth hmax
    exact Task.finishes_of_whileFree u m' hu hinv
termination_by (m.maxDepth - m.depth, t.size, t.rounds)
decreasing_by
  · -- at its own depth a task has less code left, or the same for fewer rounds
    rw [hdepth, hmax]
    refine Prod.Lex.right _ ?_
    rcases hlt with hlt | ⟨heq, hlt⟩
    · exact Prod.Lex.left _ _ hlt
    · rw [heq]
      exact Prod.Lex.right _ hlt
  · -- in a call fewer calls may still be nested, whatever the size of the body
    rw [hmax]
    exact Prod.Lex.left _ _ (by omega)

/-! ## No run waits unless it has to -/

namespace Exec.NeverWaits

theorem atLine (line : Nat) {α : Type} {x : Exec α} (h : NeverWaits x) : NeverWaits (atLine line x) := by
  intro m hm
  obtain ⟨hs, hr⟩ := h m hm
  rw [atLine_snd, atLine_fst]
  refine ⟨hs, ?_⟩
  revert hr
  rcases (x m).1 with (_ | _ | _) | _ <;> simp

theorem limited {α : Type} {x : Exec α} (h : NeverWaits x) : NeverWaits (limited x) := by
  intro m hm
  by_cases hd : m.maxDepth ≤ m.depth
  · rw [limited_of_le x hd]
    exact (Direct.ofExcept (.error _)).waits m hm
  · rw [limited_of_not_le x hd]
    exact h m.called hm

theorem compositional : Compositional fun x _ => NeverWaits x where
  give r := (Direct.ofExcept r).waits
  prim p := (Direct.prim p).waits
  bind := bind
  atLine line _ _ := atLine line
  inBlock h := fun m hm => by rw [inBlock_apply]; exact h m.inside hm
  inCall := limited

theorem run {α : Type} (n : Nat) (t : Task α) : NeverWaits (t.run n) :=
  compositional.run (fun _ hm => ⟨hm, by simp [exhausted]⟩) n t

end Exec.NeverWaits

/-! ## Programs -/

/-- **Programs without `while` finish**: with enough fuel a run ends in one way, in success or an error,
    unless it asks for a line that nobody has typed yet. -/
theorem while_free_programs_finish (program : Block) (m : Machine) (hp : program.WhileFree)
    (hm : m.registry.Bodies Block.WhileFree) :
    ∃ fuel r, (∀ n, fuel ≤ n → Exec.runBlock n program m = r) ∧ r.1 ≠ .error .outOfFuel ∧
      (m.stdin.Answers → r.1 = .ok () ∨ ∃ e, r.1 = .error (.failed e)) := by
  obtain ⟨fuel, hf⟩ := Task.finishes_of_whileFree (.execBlock program) m hp hm
  have hwait := Exec.NeverWaits.run fuel (.execBlock program) m
  rcases hr : (Task.execBlock program).run fuel m with ⟨e | signal, m'⟩
  all_goals
    have hmore : ∀ n, fuel ≤ n → Exec.execBlock n program m = _ :=
      fun n hn => (Task.run_extends hn (.execBlock program) m hf).trans hr
    rw [hr] at hf hwait
  · refine ⟨fuel, (.error e, m'), fun n hn => Exec.bind_error (hmore n hn), ?_, fun hs => .inr ?_⟩
    · exact fun h => hf (congrArg Except.error (Except.error.inj h))
    · cases e with
      | failed e => exact ⟨e, rfl⟩
      | waiting => exact absurd rfl (hwait hs).2
      | outOfFuel => exact absurd rfl hf
  · refine ⟨fuel, (.ok (), m'), fun n hn => Exec.bind_ok (hmore n hn), ?_, fun _ => .inl rfl⟩
    exact nofun

/-- A function that calls itself without end, called from a loop, on a machine that has run nothing yet. -/
theorem while_free_programs_finish_recursion :
    ∃ fuel r, (∀ n, fuel ≤ n → Exec.runBlock n
        [⟨1, .define "f" [] [⟨1, .call (.var "f") []⟩]⟩,
          ⟨2, .for_ "i" (.list [.literal .nil]) [⟨2, .call (.var "f") []⟩]⟩] (Machine.initial .still) = r) ∧
      (r.1 = .ok () ∨ ∃ e, r.1 = .error (.failed e)) := by
  obtain ⟨fuel, r, hmore, -, hend⟩ := while_free_programs_finish
    [⟨1, .define "f" [] [⟨1, .call (.var "f") []⟩]⟩,
      ⟨2, .for_ "i" (.list [.literal .nil]) [⟨2, .call (.var "f") []⟩]⟩] (Machine.initial .still)
    (by simp [Block.WhileFree, Stmt.whileFree_iff, Stmt.blocks]) (.withBuiltins _)
  exact ⟨fuel, r, hmore, hend trivial⟩

end Helios
