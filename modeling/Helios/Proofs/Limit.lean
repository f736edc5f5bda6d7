import Helios.Proofs.Anatomy

/-!
# The limit on nested calls

Only one place of the evaluator looks at the limit: the call of a function of the program. So a run that
does not meet the limit goes the same way under any higher one (`Exec.Transparent`); no state along a run is
deeper than the limit, as a call goes one deeper only below it; and the failure that a call at the limit
raises comes out of the run as it was raised, since nothing else fails that way (`Task.cause_of_fails`).
-/

namespace Helios

/-- The same machine with another limit on nested calls. -/
def Machine.withLimit (m : Machine) (limit : Nat) : Machine := { m with maxDepth := limit }

/-- **The result is the failure that calls nest too deep.** -/
def TooDeep {α : Type} (r : Except Halt α) : Prop :=
  ∃ e limit, r = .error (.failed e) ∧ e.cause = .recursion limit

/-! ## A higher limit -/

/-- A run that is not too deep goes the same way under the higher limit `high`. -/
def Exec.Transparent (high : Nat) {α : Type} (x : Exec α) : Prop :=
  ∀ m, m.maxDepth ≤ high → ¬ TooDeep (x m).1 → x (m.withLimit high) = ((x m).1, (x m).2.withLimit high)

namespace Exec.Transparent

variable {high : Nat} {α β : Type}

/-- A computation that does not look at the limit. -/
theorem of_eq {x : Exec α} (h : ∀ m, x (m.withLimit high) = ((x m).1, (x m).2.withLimit high)) :
    Transparent high x :=
  fun m _ _ => h m

theorem of_apart {x : Exec α} (h : Apart x) : Transparent high x := by
  refine of_eq fun m => ?_
  have hlimit := h m m.scopes m.registry m.depth high
  have hsnd := congrArg (fun m' => m'.withLimit high) (h.snd_eq m)
  exact hlimit.trans (congrArg (Prod.mk (x m).1) hsnd.symm)

theorem ofExcept (r : Except Cause α) : Transparent high (ofExcept r) := of_apart (.ofExcept r)

theorem prim (p : Prim α) : Transparent high p.exec := by
  cases p with
  | lookup name =>
    refine of_eq fun m => ?_
    have hname : (m.withLimit high).resolveName? name = m.resolveName? name := rfl
    rw [Prim.exec_lookup, Prim.exec_lookup, hname]
    cases m.resolveName? name <;> rfl
  | target name =>
    refine of_eq fun m => ?_
    have htarget : (m.withLimit high).callTarget name = m.callTarget name := rfl
    dsimp only [Prim.exec]
    rw [htarget]
    cases m.callTarget name <;> rfl
  | entry name =>
    refine of_eq fun m => ?_
    dsimp only [Prim.exec, Machine.withLimit]
    cases m.registry.get? name <;> rfl
  | registered name => exact of_eq fun _ => rfl
  | assign name v => exact of_eq fun _ => rfl
  | define name v => exact of_eq fun _ => rfl
  | defineUser name params body => exact of_eq fun _ => rfl
  | writeLine line => exact of_apart (.writeLine line)
  | glance => exact of_apart .glance
  | host what args => exact of_apart (.host what args)
  | callMember ref member args => exact of_apart (.callMember ref member args)
  | contain path =>
    refine of_eq fun m => ?_
    dsimp only [Prim.exec, Exec.contain, Machine.withLimit]
    rcases Resolver.resolveFirst m.resolvers path m.hosts with ⟨_ | _, _, _⟩ <;> rfl
  | passthrough language code =>
    refine of_eq fun m => ?_
    -- the engine is asked the same with any limit
    have hrequest : (m.withLimit high).request code = m.request code := rfl
    show Exec.passthrough language code (m.withLimit high) =
      ((Exec.passthrough language code m).1, (Exec.passthrough language code m).2.withLimit high)
    have hengines : (m.withLimit high).engines = m.engines := rfl
    unfold Exec.passthrough
    rw [hrequest, hengines]
    generalize Engine.executeIn language (m.request code) m.engines = ending
    cases ending with
    | missing | broken => rfl
    | ran run engines =>
      dsimp only
      cases run.outcome.error <;> rfl
  | dispatch c => exact of_apart (.dispatch c)

theorem bind {x : Exec α} {f : α → Exec β} (hd : KeepsDepth x) (hx : Transparent high x)
    (hf : ∀ a, Transparent high (f a)) : Transparent high (x >>= f) := by
  intro m hm hdeep
  rw [bind_apply] at hdeep ⊢
  have hlimit := (hd m).2
  have hsame := hx m hm
  rw [bind_apply]
  revert hdeep hlimit hsame
  rcases x m with ⟨e | a, m'⟩ <;> intro hdeep hlimit hsame
  · have hshallow : ¬ TooDeep (.error e : Except Halt α) := by
      rintro ⟨e', limit, he, hc⟩
      exact hdeep ⟨e', limit, congrArg Except.error (Except.error.inj he), hc⟩
    rw [hsame hshallow]
  · have hshallow : ¬ TooDeep (.ok a : Except Halt α) := fun ⟨_, _, h, _⟩ => nomatch h
    rw [hsame hshallow]
    exact hf a m' (Nat.le_trans (Nat.le_of_eq hlimit) hm) hdeep

theorem atLine (line : Nat) {x : Exec α} (h : Transparent high x) : Transparent high (atLine line x) := by
  intro m hm hdeep
  have hshallow : ¬ TooDeep (x m).1 := by
    rintro ⟨e, limit, he, hc⟩
    refine hdeep ⟨e.atLine line, limit, ?_, ?_⟩
    · rw [atLine_fst, he]
    · rw [← hc, e.cause_atLine]
  have hsame := h m hm hshallow
  refine Prod.ext ?_ ?_
  · rw [atLine_fst, atLine_fst, hsame]
  · rw [atLine_snd, atLine_snd, hsame]

theorem inBlock {x : Exec α} (h : Transparent high x) : Transparent high (inBlock x) := by
  intro m hm hdeep
  rw [inBlock_apply] at hdeep ⊢
  have hsame : x (m.withLimit high).inside = _ := h m.inside hm hdeep
  rw [inBlock_apply, hsame]
  rfl

/-- **A call that is allowed under a limit is allowed under a higher one.** -/
theorem limited {x : Exec α} (h : Transparent high x) : Transparent high (limited x) := by
  intro m hm hdeep
  by_cases hle : m.maxDepth ≤ m.depth
  · rw [limited_of_le x hle] at hdeep
    exact absurd ⟨_, _, rfl, rfl⟩ hdeep
  · have hlt : ¬ (m.withLimit high).maxDepth ≤ (m.withLimit high).depth := by
      show ¬ high ≤ m.depth
      omega
    rw [limited_of_not_le x hle] at hdeep ⊢
    have hsame : x (m.withLimit high).called = _ := h m.called hm hdeep
    rw [limited_of_not_le x hlt, hsame]
    rfl

theorem compositional : Compositional fun x _ => KeepsDepth x ∧ Transparent high x where
  give r := ⟨KeepsDepth.compositional.give r, ofExcept r⟩
  prim p := ⟨KeepsDepth.compositional.prim p, prim p⟩
  bind hx hf := ⟨.bind hx.1 fun a => (hf a).1, .bind hx.1 hx.2 fun a => (hf a).2⟩
  atLine line _ y h := ⟨KeepsDepth.compositional.atLine line (y := y) h.1, h.2.atLine line⟩
  inBlock {_ _ y} h := ⟨KeepsDepth.compositional.inBlock (y := y) h.1, h.2.inBlock⟩
  inCall {_ _ y} h := ⟨KeepsDepth.compositional.inCall (y := y) h.1, h.2.limited⟩

/-- Every run of a task is transparent. -/
theorem run (n : Nat) (t : Task α) : Transparent high (t.run n) :=
  (compositional.run ⟨fun _ => ⟨rfl, rfl⟩, of_eq fun _ => rfl⟩ n t).2

end Exec.Transparent

/-! ## Depth along a run -/

/-- A plan that is started within the limit starts its tasks within the limit, which stays the same. -/
theorem Plan.Starts.depth_le {n : Nat} {α β : Type} {p : Plan α} {t : Task β} {m m' : Machine}
    (h : p.Starts (fun _ => Task.run n) t m m') (hm : m.depth ≤ m.maxDepth) :
    m'.depth ≤ m'.maxDepth ∧ m'.maxDepth = m.maxDepth := by
  induction h with
  | start => exact ⟨hm, rfl⟩
  | first _ ih => exact ih hm
  | @next α γ x k m m₁ m' a hx _ ih =>
    obtain ⟨hd, hl⟩ := Exec.KeepsDepth.plan n x m
    rw [hx] at hd hl
    obtain ⟨hle, heq⟩ := ih (by rw [hd, hl]; exact hm)
    exact ⟨hle, heq.trans hl⟩
  | atLine _ ih => exact ih hm
  | inBlock _ ih => exact ih hm
  | inCall hd _ ih => exact ih (Nat.lt_of_not_le hd)

/-- **No state along a run is deeper than the limit.** -/
theorem Task.Reaches.depth_le {n k : Nat} {α β : Type} {t : Task α} {t' : Task β} {m m' : Machine}
    (h : Task.Reaches k t' m' n t m) (hm : m.depth ≤ m.maxDepth) :
    m'.depth ≤ m'.maxDepth ∧ m'.maxDepth = m.maxDepth := by
  induction h with
  | here => exact ⟨hm, rfl⟩
  | step hs _ ih =>
    obtain ⟨hle, heq⟩ := hs.depth_le hm
    obtain ⟨hle', heq'⟩ := ih hle
    exact ⟨hle', heq'.trans heq⟩

/-! ## Who raises the failure -/

/-- A run keeps the registry native, and when it is too deep the failure names the limit. -/
def Exec.NamesLimit {α : Type} (x : Exec α) : Prop :=
  ∀ m, m.registry.Native → (x m).2.registry.Native ∧
    ∀ e limit, (x m).1 = .error (.failed e) → e.cause = .recursion limit → limit = m.maxDepth

/-- **Every run names the limit.** -/
theorem Exec.NamesLimit.run (n : Nat) {α : Type} (t : Task α) : NamesLimit (t.run n) := by
  refine fun m hm => ⟨(Task.run_known n t m t.among_any (.of_native hm)).native, fun e limit he hc => ?_⟩
  have hcause := Task.cause_of_fails hm he
  rw [hc] at hcause
  rcases hcause with hordinary | heq
  · nomatch hordinary
  · exact Cause.recursion.inj heq

/-! ## Programs -/

namespace Exec

/-- A program ends as its block does, and gives nothing. -/
theorem runBlock_apply (fuel : Nat) (program : Block) (m : Machine) :
    runBlock fuel program m =
      (((Task.execBlock program).run fuel m).1.map fun _ => (), ((Task.execBlock program).run fuel m).2) := by
  have hrun : (Task.execBlock program).run fuel = execBlock fuel program := rfl
  unfold runBlock
  rw [bind_apply, ← hrun]
  rcases (Task.execBlock program).run fuel m with ⟨e | signal, m'⟩ <;> rfl

theorem failed_of_runBlock {fuel : Nat} {program : Block} {m : Machine} {e : Error}
    (h : (runBlock fuel program m).1 = .error (.failed e)) :
    ((Task.execBlock program).run fuel m).1 = .error (.failed e) := by
  rw [runBlock_apply] at h
  revert h
  rcases ((Task.execBlock program).run fuel m).1 with e' | signal <;> intro h
  · exact congrArg Except.error (Except.error.inj h)
  · nomatch h

/-- A program that does not end because calls nest too deep runs alike under a higher limit. -/
theorem runBlock_withLimit {fuel low high : Nat} {program : Block} {m : Machine} (hle : low ≤ high)
    (h : ¬ TooDeep (runBlock fuel program (m.withLimit low)).1) :
    runBlock fuel program (m.withLimit high) =
      ((runBlock fuel program (m.withLimit low)).1,
        (runBlock fuel program (m.withLimit low)).2.withLimit high) := by
  have hblock : ¬ TooDeep ((Task.execBlock program).run fuel (m.withLimit low)).1 := by
    rintro ⟨e, limit, he, hc⟩
    refine h ⟨e, limit, ?_, hc⟩
    rw [runBlock_apply, he]
    rfl
  have hsame : (Task.execBlock program).run fuel (m.withLimit high) = _ :=
    Transparent.run fuel (.execBlock program) (m.withLimit low) hle hblock
  rw [runBlock_apply, runBlock_apply, hsame]

end Exec

/-- **The limit on nested calls is transparent.** A program that ends under a limit `low`, and not because
    calls nest too deep, ends in the same way under every higher limit, in the same state but for the limit.
    In a run from depth 0 no state is deeper than the limit, and a failure because calls nest too deep names
    the limit. -/
theorem recursion_limit_transparent (program : Block) (m : Machine) (fuel : Nat) :
    (∀ low high, low ≤ high → ¬ TooDeep (Exec.runBlock fuel program (m.withLimit low)).1 →
      Exec.runBlock fuel program (m.withLimit high) =
        ((Exec.runBlock fuel program (m.withLimit low)).1,
          (Exec.runBlock fuel program (m.withLimit low)).2.withLimit high)) ∧
    (m.depth = 0 → ∀ {β : Type} (k : Nat) (t : Task β) (m' : Machine),
      Task.Reaches k t m' fuel (.execBlock program) m → m'.maxDepth = m.maxDepth ∧ m'.depth ≤ m.maxDepth) ∧
    (m.depth = 0 → (Exec.runBlock fuel program m).2.depth ≤ m.maxDepth) ∧
    (m.depth = 0 → m.registry.Native → ∀ e limit, (Exec.runBlock fuel program m).1 = .error (.failed e) →
      e.cause = .recursion limit → limit = m.maxDepth) := by
  refine ⟨fun low high hle h => Exec.runBlock_withLimit hle h, ?_, ?_, ?_⟩
  · intro hd β k t m' hreach
    obtain ⟨hle, hlimit⟩ := hreach.depth_le (by omega)
    exact ⟨hlimit, hlimit ▸ hle⟩
  · intro hd
    have hdepth := (Exec.KeepsDepth.run fuel (.execBlock program) m).1
    rw [Exec.runBlock_apply]
    show ((Task.execBlock program).run fuel m).2.depth ≤ m.maxDepth
    omega
  · intro _ hnative e limit he hc
    exact (Exec.NamesLimit.run fuel (.execBlock program) m hnative).2 e limit (Exec.failed_of_runBlock he) hc

/-- A function that calls another on a new machine: the calls fit under the limit 2, and so under 9; under the
    limit 1 they nest too deep, and the failure names it. -/
theorem recursion_limit_transparent_nested :
    let program : Block := [⟨1, .define "f" [] []⟩, ⟨2, .define "g" [] [⟨2, .call (.var "f") []⟩]⟩,
      ⟨3, .call (.var "g") []⟩]
    let m := Machine.initial .still
    (Exec.runBlock 20 program (m.withLimit 9)).1 = .ok () ∧
      ∃ e limit, (Exec.runBlock 20 program (m.withLimit 1)).1 = .error (.failed e) ∧
        e.cause = .recursion limit ∧ limit = 1 := by
  intro program m
  -- the two runs are evaluated while the program is known
  have hfits : (Exec.runBlock 20 program (m.withLimit 2)).1 = .ok () := rfl
  have hdeep : (Exec.runBlock 20 program (m.withLimit 1)).1 = .error (.failed ⟨.recursion 1, .line 2⟩) := rfl
  clear_value program
  have hsame := (recursion_limit_transparent program m 20).1 2 9 (by decide)
    (by rw [hfits]; rintro ⟨_, _, h, _⟩; nomatch h)
  refine ⟨?_, _, _, hdeep, rfl, ?_⟩
  · rw [hsame]
    exact hfits
  · exact (recursion_limit_transparent program (m.withLimit 1) 20).2.2.2 rfl (.withBuiltins Platform.still.regex) _ _ hdeep rfl

end Helios
