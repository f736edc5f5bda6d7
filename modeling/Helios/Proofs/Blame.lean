import Helios.Proofs.Limit
import Helios.Proofs.Locating

/-!
# Blame — the line that a failure names

A failure is raised without a place, deep inside of the evaluation of a statement, and the innermost statement that
is being executed gives it its line. From there on it has a place, so every statement and every call around it passes
it on as it is (`Task.Reaches.passes`). Read backwards: a failure with a place comes from a statement that failed
without one, and in which no other statement failed (`Task.exists_blames`). With what is known of the lexer and the
parsers this makes every failure of a program one on a line of its text (`failures_name_their_line`).
-/

namespace Helios

/-- **What the lexer or a parser finds wrong** with a text. -/
inductive Cause.Textual : Cause → Prop
  | lex (issue : LexIssue) : Textual (.lex issue)
  | parse (issue : ParseIssue) : Textual (.parse issue)

namespace Error

theorem atLine_of_unknown {e : Error} (h : e.location = .unknown) (n : Nat) : e.atLine n = ⟨e.cause, .line n⟩ := by
  unfold atLine
  rw [h]

/-- A failure that has a place keeps it. -/
theorem atLine_of_known {e : Error} (h : e.location ≠ .unknown) (n : Nat) : e.atLine n = e := by
  unfold atLine
  split
  · rename_i hunknown
    exact absurd hunknown h
  · rfl

theorem atLine_known (e : Error) (n : Nat) : (e.atLine n).location ≠ .unknown := by
  by_cases h : e.location = .unknown
  · rw [atLine_of_unknown h]
    nofun
  · rwa [atLine_of_known h]

end Error

namespace Task

variable {α β : Type}

/-- A run of a task fails. -/
def Fails (t : Task α) (n : Nat) (m : Machine) (e : Error) : Prop := (t.run n m).1 = .error (.failed e)

/-- No statement that a run comes to fails. -/
def Untroubled (t : Task α) (n : Nat) (m : Machine) : Prop :=
  ∀ k s m' e, Task.Reaches k (.execLocated s) m' n t m → ¬ (Task.execLocated s).Fails k m' e

/-- **The innermost statement that was being executed** when a run failed: the run comes to it, it fails for the same
    cause, at a place that is not known yet, and no statement that is executed inside of it fails. -/
def Blames (t : Task α) (n : Nat) (m : Machine) (c : Cause) (s : Located Stmt) : Prop :=
  ∃ k m', Task.Reaches (k + 1) (.execLocated s) m' n t m ∧ (Task.exec s.node).Fails k m' ⟨c, .unknown⟩ ∧
    (Task.exec s.node).Untroubled k m'

end Task

/-! ## Failures are passed on -/

variable {α β : Type} {n k : Nat} {m m' : Machine} {e : Error}

/-- A plan passes on the failure of a task that it started, if the failure has a place. -/
theorem Plan.Starts.passes {p : Plan α} {t : Task β} (h : p.Starts (fun _ => Task.run n) t m m')
    (ht : t.Fails n m' e) (hplace : e.location ≠ .unknown) :
    (p.exec (fun _ => Task.run n) m).1 = .error (.failed e) := by
  induction h with
  | start => exact ht
  | @first α γ x k m m' _ ih =>
    have hx := ih ht
    rw [Plan.exec, Exec.bind_apply]
    revert hx
    rcases x.exec (fun _ => Task.run n) m with ⟨e' | a, m₁⟩ <;> intro hx
    · exact congrArg Except.error (Except.error.inj hx)
    · cases hx
  | next hx _ ih =>
    rw [Plan.exec, Exec.bind_ok hx]
    exact ih ht
  | @atLine α line x m m' _ ih =>
    -- a line is given only to a failure that has no place
    rw [Plan.exec, Exec.atLine_fst, ih ht]
    exact congrArg (fun e => Except.error (Halt.failed e)) (e.atLine_of_known hplace line)
  | inBlock _ ih =>
    rw [Plan.exec, Exec.inBlock_apply]
    exact ih ht
  | inCall hd _ ih =>
    rw [Plan.exec, Exec.limited_of_not_le _ hd]
    exact ih ht

/-- **A run passes on the failure of what it comes to**, if the failure has a place. -/
theorem Task.Reaches.passes {t : Task α} {t' : Task β} (h : Task.Reaches k t' m' n t m) (ht : t'.Fails k m' e)
    (hplace : e.location ≠ .unknown) : t.Fails n m e := by
  induction h with
  | here => exact ht
  | step hs _ ih =>
    unfold Task.Fails
    rw [Task.run_succ]
    exact hs.passes ih hplace

namespace Task

theorem execLocated_fails_known {s : Located Stmt} (h : (Task.execLocated s).Fails n m e) :
    e.location ≠ .unknown := by
  cases n with
  | zero =>
    unfold Fails at h
    rw [Task.run_zero] at h
    nomatch h
  | succ n =>
    obtain ⟨e₀, -, rfl⟩ := execLocated_fails h
    exact e₀.atLine_known s.line

/-- A failure without a place was not raised in a statement inside. -/
theorem untroubled_of_fails {t : Task α} (h : t.Fails n m e) (hplace : e.location = .unknown) :
    t.Untroubled n m := by
  intro k s m' e' hreach hfails
  -- it would have a place, and would be passed on with it
  have hknown := execLocated_fails_known hfails
  have hsame : (.error (.failed e) : Except Halt α) = .error (.failed e') :=
    h.symm.trans (hreach.passes hfails hknown)
  obtain rfl := Halt.failed.inj (Except.error.inj hsame)
  exact hknown hplace

/-! ## And come from one statement -/

variable {K : Located Stmt → Prop}

theorem Blames.step {t : Task α} {u : Task β} {c : Cause} {s : Located Stmt}
    (hs : t.plan.Starts (fun _ => Task.run n) u m m') (h : u.Blames n m' c s) : t.Blames (n + 1) m c s := by
  obtain ⟨k, m₁, hreach, hfails, huntroubled⟩ := h
  exact ⟨k, m₁, .step hs hreach, hfails, huntroubled⟩

/-- **A failure with a place has the line of the statement to blame**, one of those that the run goes through. -/
theorem exists_blames {t : Task α} (ht : t.Among K) (hm : m.registry.Known K) (h : t.Fails n m e)
    (hplace : e.location ≠ .unknown) : ∃ s, K s ∧ e.location = .line s.line ∧ t.Blames n m e.cause s := by
  induction n generalizing α m e with
  | zero =>
    unfold Fails at h
    rw [Task.run_zero] at h
    nomatch h
  | succ n ih =>
    by_cases hlocated : t.IsLocated
    · cases t with
      | execLocated s =>
        obtain ⟨e₀, he₀, rfl⟩ := execLocated_fails h
        have hstarts : (Task.execLocated s).plan.Starts (fun _ => Task.run n) (.exec s.node) m m := .atLine .start
        by_cases hunknown : e₀.location = .unknown
        · -- the statement itself is to blame
          have heq : e₀ = ⟨e₀.cause, .unknown⟩ := by rw [← hunknown]
          refine ⟨s, ht.1, ?_, n, m, .here, ?_, untroubled_of_fails he₀ hunknown⟩
          · rw [Error.atLine_of_unknown hunknown]
          · rw [e₀.cause_atLine, ← heq]
            exact he₀
        · -- the failure has its line from a statement inside
          rw [Error.atLine_of_known hunknown]
          obtain ⟨s', hs', hline, hblames⟩ := ih (t := .exec s.node) ht.2 hm he₀ hunknown
          exact ⟨s', hs', hline, hblames.step hstarts⟩
      | _ => exact hlocated.elim
    · have hplain := Plan.Plain.plan hlocated ht
      unfold Fails at h
      rw [Task.run_succ] at h
      rcases Plan.Plain.origin t.plan hplain hm h with ⟨γ, u, m', hstarts, hu⟩ | ⟨hunknown, -⟩
      · obtain ⟨hu', hm'⟩ := hstarts.among hplain hm
        obtain ⟨s, hs, hline, hblames⟩ := ih hu' hm' hu hplace
        exact ⟨s, hs, hline, hblames.step hstarts⟩
      · exact absurd hunknown hplace

/-- Blocks fail with a place: their statements give it. -/
theorem execBlock_fails_known {b : Block} (h : (Task.execBlock b).Fails n m e) : e.location ≠ .unknown := by
  induction n generalizing b m with
  | zero =>
    unfold Fails at h
    rw [Task.run_zero] at h
    cases h
  | succ n ih =>
    cases b with
    | nil => cases h
    | cons s rest =>
      have hrun : (Task.execBlock (s :: rest)).run (n + 1) = (Task.execLocated s).run n >>= fun signal =>
          signal.elim ((Task.execBlock rest).run n) fun signal => pure (some signal) := by
        refine congrArg (fun k => (Task.execLocated s).run n >>= k) (funext fun signal => ?_)
        cases signal <;> rfl
      unfold Fails at h
      rw [hrun, Exec.bind_apply] at h
      rcases hs : (Task.execLocated s).run n m with ⟨e' | signal, m₁⟩
      · rw [hs] at h
        obtain rfl := Except.error.inj h
        exact execLocated_fails_known (congrArg Prod.fst hs)
      · rw [hs] at h
        cases signal with
        | some signal => cases h
        | none =>
          have hrest : (Task.execBlock rest).Fails n m₁ e := h
          exact ih hrest

end Task

/-! ## Programs -/

theorem Cause.Ordinary.not_textual {c : Cause} (h : c.Ordinary) : ¬ c.Textual := by
  intro htext
  cases htext <;> nomatch h

/-- A program that fails was not parsed, or its block fails. -/
theorem Exec.failed_of_runSource {fuel : Nat} {source : String}
    (h : (Exec.runSource fuel source m).1 = .error (.failed e)) :
    Stmt.parseProgram source = .error e ∨
      ∃ program, Stmt.parseProgram source = .ok program ∧ (Task.execBlock program).Fails fuel m e := by
  unfold Exec.runSource at h
  cases hparse : Stmt.parseProgram source with
  | error e' =>
    rw [hparse] at h
    obtain rfl := Halt.failed.inj (Except.error.inj h)
    exact .inl rfl
  | ok program =>
    rw [hparse] at h
    exact .inr ⟨program, rfl, Exec.failed_of_runBlock h⟩

/-- **Every failure names its line.** When a text is run on a machine that knows the built-in functions only and the
    run fails, the failure is on a line of the text. What the lexer or a parser finds wrong has a line and a column.
    Any other failure has the line of a statement of the program, at any depth and in bodies of functions too: the
    innermost one that was being executed, as what is around it passes the failure on as it is.

    The only text for which this is not so is one where the lexer itself breaks off, which is no failure of the
    text. -/
theorem failures_name_their_line (source : String) (m : Machine) (regex : Regex)
    (hm : m.registry = .withBuiltins regex) (fuel : Nat) (e : Error)
    (he : (Exec.runSource fuel source m).1 = .error (.failed e)) :
    (e = ⟨.broken, .unknown⟩ ∧ Token.Breaks source) ∨
    (∃ n, e.line? = some n ∧ 1 ≤ n ∧ n ≤ lineCount source) ∧
    (e.cause.Textual → ∃ p, e.location = .at p ∧ p.On (lineCount source)) ∧
    (¬ e.cause.Textual → ∃ program s, Stmt.parseProgram source = .ok program ∧ Block.Has s program ∧
      e.location = .line s.line ∧ (Task.execBlock program).Blames fuel m e.cause s) := by
  have hplaces := Stmt.parseProgram_places source
  rcases Exec.failed_of_runSource he with hparse | ⟨program, hparse, hfails⟩
  · rw [hparse] at hplaces
    rcases hplaces with ⟨p, hp, hissue⟩ | hbreaks
    · -- the text does not parse
      have hfound : e.location = .at p ∧ e.cause.Textual := by
        rcases hissue with ⟨issue, rfl⟩ | ⟨issue, rfl⟩
        · exact ⟨rfl, .lex issue⟩
        · exact ⟨rfl, .parse issue⟩
      refine .inr ⟨⟨p.line, ?_, hp.line_pos, hp.line_le⟩, fun _ => ⟨p, hfound.1, hp⟩, absurd hfound.2⟩
      rw [Error.line?, hfound.1]
      rfl
    · exact .inl hbreaks
  · rw [hparse] at hplaces
    have hknown : m.registry.Known fun s => Block.Has s program := hm ▸ .withBuiltins regex
    have hamong : (Task.execBlock program).Among fun s => Block.Has s program := fun _ h => h
    obtain ⟨s, hs, hline, hblames⟩ :=
      Task.exists_blames hamong hknown hfails (Task.execBlock_fails_known hfails)
    -- the statement stands on the line of a token
    obtain ⟨p, hp, hpline⟩ := hplaces s hs
    have hsemantic : ¬ e.cause.Textual := by
      rcases Task.cause_of_fails hknown.native hfails with hordinary | hlimit
      · exact hordinary.not_textual
      · rw [hlimit]
        nofun
    refine .inr ⟨⟨s.line, ?_, ?_, ?_⟩, fun htext => absurd htext hsemantic, fun _ => ?_⟩
    · rw [Error.line?, hline]
      rfl
    · exact hpline ▸ hp.line_pos
    · exact hpline ▸ hp.line_le
    · exact ⟨program, s, hparse, hs, hline, hblames⟩

/-- A function is called on line 4 and fails on line 2, where it calls one that there is not. -/
theorem failures_name_their_line_in_call :
    let source := "solar_def f:\n  g\nend\nf"
    let program : Block := [⟨1, .define "f" [] [⟨2, .call (.var "g") []⟩]⟩, ⟨4, .call (.var "f") []⟩]
    let m := Machine.initial .still
    Stmt.parseProgram source = .ok program ∧
    (Exec.runSource 20 source m).1 = .error (.failed ⟨.name "g", .line 2⟩) ∧
    ∃ s, Block.Has s program ∧ s.line = 2 ∧ (Task.execBlock program).Blames 20 m (.name "g") s := by
  intro source program m
  have hparse : Stmt.parseProgram source = .ok program := by
    have hchars : source.toList = ['s', 'o', 'l', 'a', 'r', '_', 'd', 'e', 'f', ' ', 'f', ':', '\n', ' ', ' ', 'g',
        '\n', 'e', 'n', 'd', '\n', 'f'] := by simp [source]
    unfold Stmt.parseProgram Token.tokenize Token.scan
    rw [hchars]
    with_unfolding_all rfl
  have hrun : (Exec.runSource 20 source m).1 = .error (.failed ⟨.name "g", .line 2⟩) := by
    have hblock : (Exec.runBlock 20 program m).1 = .error (.failed ⟨.name "g", .line 2⟩) := rfl
    unfold Exec.runSource
    rw [hparse]
    exact hblock
  refine ⟨hparse, hrun, ?_⟩
  rcases failures_name_their_line source m Platform.still.regex rfl 20 _ hrun with ⟨hbroken, -⟩ | ⟨-, -, hblame⟩
  · nomatch hbroken
  · obtain ⟨program', s, hparse', hs, hline, hblames⟩ := hblame nofun
    obtain rfl := Except.ok.inj (hparse.symm.trans hparse')
    exact ⟨s, hs, (Location.line.inj hline).symm, hblames⟩

end Helios
