import Mathlib.Algebra.Group.Nat.Defs
import Helios.Proofs.Replays

/-!
# Frames — what the counter of frames counts

The frontend counts the frames of the game in 64 bits, and a run of the game may ask for almost half of what fits. Frames
in which nothing is called cost nothing, so nothing keeps a program from asking for so many again and again.

`granted` says how many frames a move of the frontend grants, as a number of any size. A single move adds them to the
counter, and nothing else does (`frames_play`), so after any moves the counter holds their sum (`frames_playAll`). Two
runs always fit. The third may not, and then the program breaks down over it (`third_run_breaks_down`).
-/

namespace Helios

/-- The frames a run of the game asks for: what its clause says, and one without it. -/
def FrontendCommand.framesAsked (c : FrontendCommand) : Nat :=
  match c.clause? .frames with
  | some [.int n] => n.toInt.toNat
  | _ => 1

/-- A command to run the game. -/
def FrontendCommand.IsGameRun (c : FrontendCommand) : Prop := c.surface = .game ∧ c.verb = "run"

instance (c : FrontendCommand) : Decidable c.IsGameRun := instDecidableAnd

namespace Frontend

/-! ## Moves -/

/-- **What happens to a frontend**: an event is queued, or a command is dispatched. -/
inductive Move
  | queue (e : ScriptedEvent)
  | dispatch (c : FrontendCommand)

/-- A move that is to run the game. -/
def Move.isGameRun : Move → Bool
  | queue _ => false
  | dispatch c => decide c.IsGameRun

/-- The frontend after a move; there is none when the program breaks down over it. -/
def play (f : Frontend) : Move → Option Frontend
  | .queue e => some (f.queue e)
  | .dispatch c =>
    match f.dispatch c with
    | (.broken, _) => none
    | (_, f') => some f'

/-- **The frames that a move grants**: those that a run of the game asks for, if it succeeds. -/
def granted (f : Frontend) : Move → Nat
  | .queue _ => 0
  | .dispatch c =>
    match (f.dispatch c).1 with
    | .ok _ => if c.IsGameRun then c.framesAsked else 0
    | _ => 0

/-- The frontend after moves, one after the other. -/
def playAll : Frontend → List Move → Option Frontend
  | f, [] => some f
  | f, m :: ms =>
    match f.play m with
    | some f' => f'.playAll ms
    | none => none

/-- The frames that moves grant, one after the other. -/
def grantedByAll : Frontend → List Move → Nat
  | _, [] => 0
  | f, m :: ms =>
    match f.play m with
    | some f' => f.granted m + f'.grantedByAll ms
    | none => 0

variable {f : Frontend} {c : FrontendCommand} {α : Type}

theorem play_dispatch (f : Frontend) (c : FrontendCommand) : f.play (.dispatch c) =
    match f.dispatch c with
    | (.broken, _) => none
    | (_, f') => some f' := rfl

theorem granted_dispatch (f : Frontend) (c : FrontendCommand) : f.granted (.dispatch c) =
    match (f.dispatch c).1 with
    | .ok _ => if c.IsGameRun then c.framesAsked else 0
    | _ => 0 := rfl

theorem playAll_cons (f : Frontend) (m : Move) (ms : List Move) : f.playAll (m :: ms) =
    match f.play m with
    | some f' => f'.playAll ms
    | none => none := rfl

theorem grantedByAll_cons (f : Frontend) (m : Move) (ms : List Move) : f.grantedByAll (m :: ms) =
    match f.play m with
    | some f' => f.granted m + f'.grantedByAll ms
    | none => 0 := rfl

/-! ## What a run asks for -/

theorem frameCount_eq_ok {n : Nat} (h : frameCount c = .ok n) : n = c.framesAsked := by
  unfold frameCount at h
  unfold FrontendCommand.framesAsked
  split at h
  · next v hclause =>
    rw [hclause]
    split at h
    · split at h
      · exact (Except.ok.inj h).symm
      · nomatch h
    · nomatch h
  · next hclause =>
    -- no single value, so no single number
    split
    · next n heq => exact absurd heq (hclause _)
    · exact (Except.ok.inj h).symm

/-- A number of frames is one of 64 bits with a sign. -/
theorem framesAsked_le (c : FrontendCommand) : c.framesAsked ≤ 2 ^ 63 - 1 := by
  unfold FrontendCommand.framesAsked
  split
  · next n _ =>
    have hn := n.toInt_lt
    omega
  · decide

/-! ## Commands that leave the counter -/

/-- An effect that leaves the counter of frames as it is. -/
def KeepsFrames (f : Frontend) (effect : Effect) : Prop := ∀ reply f', effect = .ok (reply, f') → f'.frames = f.frames

theorem KeepsFrames.ok {f' : Frontend} (reply : FrontendReply) (h : f'.frames = f.frames) :
    f.KeepsFrames (.ok (reply, f')) := by
  intro reply' f'' heq
  obtain ⟨-, rfl⟩ := Prod.mk.inj (Except.ok.inj heq)
  exact h

theorem KeepsFrames.error (e : FrontendError) : f.KeepsFrames (.error e) := nofun

theorem KeepsFrames.bind {x : Except FrontendError α} {k : α → Effect} (h : ∀ a, f.KeepsFrames (k a)) :
    f.KeepsFrames (x >>= k) := by
  cases x with
  | error e => exact .error e
  | ok a => exact h a

theorem updateWindow_keepsFrames (change : Window → Window) : f.KeepsFrames (f.updateWindow c change) :=
  .bind fun _ => .bind fun _ => .ok _ rfl

theorem updateWidget_keepsFrames (change : Widget → Widget) : f.KeepsFrames (f.updateWidget c change) :=
  .bind fun _ => .bind fun _ => .ok _ rfl

theorem addWidget_keepsFrames (text value : Value) : f.KeepsFrames (f.addWidget c text value) :=
  .bind fun _ => .bind fun _ => .bind fun _ => .ok _ rfl

theorem dispatchUi_keepsFrames (f : Frontend) (c : FrontendCommand) : f.KeepsFrames (f.dispatchUi c) := by
  unfold dispatchUi
  split
  · exact .bind fun _ => .ok _ rfl
  · exact .bind fun _ => updateWindow_keepsFrames _
  · exact .bind fun _ => .bind fun _ => updateWindow_keepsFrames _
  · exact .bind fun _ => updateWindow_keepsFrames _
  · exact .bind fun _ => updateWindow_keepsFrames _
  · exact .bind fun _ => addWidget_keepsFrames _ _
  · exact .bind fun _ => addWidget_keepsFrames _ _
  · exact addWidget_keepsFrames _ _
  · exact addWidget_keepsFrames _ _
  · exact .bind fun _ => addWidget_keepsFrames _ _
  · -- `bind`
    refine .bind fun _ => .bind fun _ => ?_
    split
    · exact .error _
    · exact .bind fun _ => .ok _ rfl
  · exact .bind fun _ => updateWidget_keepsFrames _
  · exact .bind fun _ => updateWidget_keepsFrames _
  · exact .bind fun _ => .bind fun _ => .ok _ rfl
  · exact .error _

theorem dispatchGame_keepsFrames (f : Frontend) (c : FrontendCommand) : f.KeepsFrames (f.dispatchGame c) := by
  unfold dispatchGame
  split
  · exact .bind fun _ => .bind fun _ => .bind fun _ => .ok _ rfl
  · exact .bind fun _ => .ok _ rfl
  · exact .bind fun _ => .ok _ rfl
  · exact .bind fun _ => .bind fun _ => .ok _ rfl
  · exact .bind fun _ => .bind fun _ => .ok _ rfl
  · exact .bind fun _ => .bind fun _ => .ok _ rfl
  · -- `text`
    refine .bind fun _ => ?_
    split
    · split
      · exact .ok _ rfl
      · exact .error _
    · exact .ok _ rfl
  · -- `key`
    split
    · exact .error _
    · exact .bind fun _ => .ok _ rfl
  · exact .ok _ rfl
  · exact .ok _ rfl
  · exact .error _

theorem frames_carryOut {effect : Effect} (h : f.KeepsFrames effect) : (f.carryOut effect).2.frames = f.frames := by
  cases effect with
  | error e => rfl
  | ok answer => exact h answer.1 answer.2 rfl

theorem frames_runWindow (f : Frontend) (window : String) : (f.runWindow window).2.frames = f.frames := by
  unfold runWindow
  dsimp only
  split <;> rfl

theorem carryOut_ne_broken (f : Frontend) (effect : Effect) : (f.carryOut effect).1 ≠ .broken := by
  cases effect <;> nofun

theorem runWindow_ne_broken (f : Frontend) (window : String) : (f.runWindow window).1 ≠ .broken := by
  unfold runWindow
  dsimp only
  split <;> nofun

/-- **Only runs of the game touch the counter**, and nothing else breaks down. -/
theorem dispatch_other (f : Frontend) (hrun : ¬ c.IsGameRun) :
    (f.dispatch c).2.frames = f.frames ∧ (f.dispatch c).1 ≠ .broken := by
  unfold dispatch
  dsimp only
  split
  · next hs =>
    have hv : c.verb ≠ "run" := fun hv => hrun ⟨hs, hv⟩
    rw [if_neg hv]
    exact ⟨frames_carryOut (dispatchGame_keepsFrames (f.recorded c) c), carryOut_ne_broken _ _⟩
  · split
    · split
      · exact ⟨frames_runWindow (f.recorded c) _, runWindow_ne_broken _ _⟩
      · exact ⟨rfl, nofun⟩
    · exact ⟨frames_carryOut (dispatchUi_keepsFrames (f.recorded c) c), carryOut_ne_broken _ _⟩

/-- A run of the game is let in, or it fails and changes nothing but the record. -/
theorem gameRun_cases (f : Frontend) (hrun : c.IsGameRun) :
    f.RunsGame c c.framesAsked ∨ ∃ e, f.dispatch c = (.error e, f.recorded c) := by
  obtain ⟨hs, hv⟩ := hrun
  cases hgate : (f.recorded c).gameRun c with
  | error e =>
    refine .inr ⟨e, ?_⟩
    unfold recorded at hgate
    unfold dispatch
    simp only [hs, hv, if_true, hgate]
    rfl
  | ok n =>
    unfold gameRun requireGame at hgate
    split at hgate
    · next hgame =>
      have hcount : frameCount c = .ok n := hgate
      obtain rfl := frameCount_eq_ok hcount
      exact .inl ⟨hs, hv, hgame, hcount⟩
    · nomatch hgate

/-! ## The counter -/

/-- **A move adds to the counter what it grants**, in numbers of any size. -/
theorem frames_play {m : Move} {f' : Frontend} (h : f.play m = some f') :
    f'.frames.toNat = f.frames.toNat + f.granted m := by
  cases m with
  | queue e =>
    obtain rfl := Option.some.inj h
    rfl
  | dispatch c =>
    rw [play_dispatch] at h
    rw [granted_dispatch]
    by_cases hrun : c.IsGameRun
    · rcases gameRun_cases f hrun with hruns | ⟨e, hfails⟩
      · rw [dispatch_runGame hruns] at h ⊢
        -- a run that is let in adds all that it asks for, or breaks down and then the move does not go through
        by_cases hfits : f.frames.toNat + c.framesAsked < UInt64.size
        · rw [runGame_fits (f := f.recorded c) hfits] at h ⊢
          obtain rfl := Option.some.inj h
          have hasked : c.framesAsked < UInt64.size := Nat.lt_of_le_of_lt (Nat.le_add_left _ _) hfits
          show (f.frames + UInt64.ofNat c.framesAsked).toNat = _
          simp only [if_pos hrun]
          rw [UInt64.toNat_add, UInt64.toNat_ofNat_of_lt' hasked, Nat.mod_eq_of_lt hfits]
        · rw [runGame_breaks (f := f.recorded c) (Nat.not_lt.mp hfits)] at h
          nomatch h
      · rw [hfails] at h ⊢
        obtain rfl := Option.some.inj h
        rfl
    · obtain ⟨hframes, hgoes⟩ := dispatch_other f hrun
      simp only [if_neg hrun]
      revert h hframes hgoes
      rcases f.dispatch c with ⟨e | reply | -, f''⟩ <;> intro h hframes hgoes
      · obtain rfl := Option.some.inj h
        exact congrArg UInt64.toNat hframes
      · obtain rfl := Option.some.inj h
        exact congrArg UInt64.toNat hframes
      · exact absurd rfl hgoes

/-- **A move breaks down** exactly when it is a run of the game that is let in and asks for more than the counter has
    room for. -/
theorem play_eq_none_iff {m : Move} : f.play m = none ↔
    ∃ c, m = .dispatch c ∧ f.RunsGame c c.framesAsked ∧ UInt64.size ≤ f.frames.toNat + c.framesAsked := by
  cases m with
  | queue e => exact iff_of_false nofun fun ⟨_, heq, _⟩ => nomatch heq
  | dispatch c =>
    have hnone : f.play (.dispatch c) = none ↔ (f.dispatch c).1 = .broken := by
      rw [play_dispatch]
      rcases f.dispatch c with ⟨e | reply | -, f''⟩
      · exact iff_of_false nofun nofun
      · exact iff_of_false nofun nofun
      · exact iff_of_true rfl rfl
    rw [hnone]
    constructor
    · intro hbroken
      by_cases hrun : c.IsGameRun
      · rcases gameRun_cases f hrun with hruns | ⟨e, hfails⟩
        · refine ⟨c, rfl, hruns, Nat.not_lt.mp fun hfits => ?_⟩
          rw [dispatch_runGame hruns, runGame_fits (f := f.recorded c) hfits] at hbroken
          nomatch hbroken
        · rw [hfails] at hbroken
          nomatch hbroken
      · exact absurd hbroken (dispatch_other f hrun).2
    · rintro ⟨c', heq, hruns, hfull⟩
      cases heq
      rw [dispatch_runGame hruns, runGame_breaks (f := f.recorded c) hfull]

/-- **After any moves the counter has their sum added.** -/
theorem frames_playAll {f' : Frontend} {ms : List Move} (h : f.playAll ms = some f') :
    f'.frames.toNat = f.frames.toNat + f.grantedByAll ms := by
  induction ms generalizing f with
  | nil =>
    obtain rfl := Option.some.inj h
    rfl
  | cons m ms ih =>
    rw [playAll_cons] at h
    rw [grantedByAll_cons]
    cases hplay : f.play m with
    | none =>
      rw [hplay] at h
      nomatch h
    | some f₁ =>
      rw [hplay] at h
      dsimp only
      rw [ih h, frames_play hplay, Nat.add_assoc]

/-- Where moves break down, there is a first one that does. -/
theorem playAll_eq_none_iff {ms : List Move} : f.playAll ms = none ↔
    ∃ before m after f', ms = before ++ m :: after ∧ f.playAll before = some f' ∧ f'.play m = none := by
  induction ms generalizing f with
  | nil =>
    refine iff_of_false nofun ?_
    rintro ⟨before, m, after, f', heq, -⟩
    exact absurd heq (by simp)
  | cons m ms ih =>
    rw [playAll_cons]
    cases hplay : f.play m with
    | none => exact iff_of_true rfl ⟨[], m, ms, f, rfl, rfl, hplay⟩
    | some f₁ =>
      dsimp only
      rw [ih]
      constructor
      · rintro ⟨before, m', after, f', rfl, hbefore, hm'⟩
        refine ⟨m :: before, m', after, f', rfl, ?_, hm'⟩
        rw [playAll_cons, hplay]
        exact hbefore
      · rintro ⟨before, m', after, f', heq, hbefore, hm'⟩
        cases before with
        | nil =>
          -- the first move is the one that breaks down, but it did not
          obtain ⟨rfl, -⟩ := List.cons.inj heq
          obtain rfl := Option.some.inj hbefore
          rw [hplay] at hm'
          nomatch hm'
        | cons m₀ before =>
          obtain ⟨rfl, rfl⟩ := List.cons.inj heq
          rw [playAll_cons, hplay] at hbefore
          exact ⟨before, m', after, f', rfl, hbefore, hm'⟩

theorem granted_le (f : Frontend) (m : Move) : f.granted m ≤ if m.isGameRun then 2 ^ 63 - 1 else 0 := by
  cases m with
  | queue e => exact Nat.le_refl _
  | dispatch c =>
    unfold granted Move.isGameRun
    dsimp only
    split
    · by_cases hrun : c.IsGameRun
      · simpa [hrun] using framesAsked_le c
      · simp [hrun]
    · exact Nat.zero_le _

/-- No run grants more than half of what the counter holds. -/
theorem grantedByAll_le (f : Frontend) (ms : List Move) :
    f.grantedByAll ms ≤ ms.countP Move.isGameRun * (2 ^ 63 - 1) := by
  induction ms generalizing f with
  | nil => exact Nat.zero_le _
  | cons m ms ih =>
    have hfirst := granted_le f m
    unfold grantedByAll
    split
    · next f' _ =>
      have hrest := ih f'
      rw [List.countP_cons]
      cases hrun : m.isGameRun with
      | true =>
        simp only [hrun, if_true] at hfirst ⊢
        omega
      | false =>
        simp only [hrun] at hfirst ⊢
        simp only [Bool.false_eq_true, if_false] at hfirst ⊢
        omega
    · exact Nat.zero_le _

/-- **What the counter of a new frontend holds** after any commands, with any events queued between them, is the sum of
    the frames of the runs of the game that succeeded. The commands break down exactly when one of them is a run that is
    let in and makes the sum too large for 64 bits; no two runs do. -/
theorem frames_count_exactly (ms : List Move) :
    (∀ f, initial.playAll ms = some f → f.frames.toNat = initial.grantedByAll ms) ∧
    (initial.playAll ms = none ↔ ∃ before c after f, ms = before ++ .dispatch c :: after ∧
      initial.playAll before = some f ∧ f.RunsGame c c.framesAsked ∧
      UInt64.size ≤ initial.grantedByAll before + c.framesAsked) ∧
    initial.grantedByAll ms ≤ ms.countP Move.isGameRun * (2 ^ 63 - 1) := by
  have hzero : initial.frames.toNat = 0 := rfl
  have hcount : ∀ ms f, initial.playAll ms = some f → f.frames.toNat = initial.grantedByAll ms := by
    intro ms f h
    rw [frames_playAll h, hzero, Nat.zero_add]
  refine ⟨hcount ms, ?_, grantedByAll_le initial ms⟩
  rw [playAll_eq_none_iff]
  constructor
  · rintro ⟨before, m, after, f, heq, hbefore, hnone⟩
    obtain ⟨c, rfl, hruns, hfull⟩ := play_eq_none_iff.mp hnone
    rw [hcount before f hbefore] at hfull
    exact ⟨before, c, after, f, heq, hbefore, hruns, hfull⟩
  · rintro ⟨before, c, after, f, heq, hbefore, hruns, hfull⟩
    refine ⟨before, .dispatch c, after, f, heq, hbefore, play_eq_none_iff.mpr ⟨c, rfl, hruns, ?_⟩⟩
    rwa [hcount before f hbefore]

/-- A game is opened, and run three times for as many frames as can be asked for. -/
def longGame : List Move :=
  let run : Move := .dispatch ⟨.game, "run", [], [(.frames, [.int 9223372036854775807])], none⟩
  [.dispatch ⟨.game, "window", [.int 1, .int 1], [], none⟩, run, run, run]

/-- The two runs that go through are counted in full, and the third is let in with too much to ask for. -/
theorem frames_count_exactly_long_game :
    (∃ f, initial.playAll (longGame.take 3) = some f ∧ f.frames.toNat = 18446744073709551614) ∧
    initial.playAll longGame = none := by
  have hgranted : initial.grantedByAll (longGame.take 3) = 18446744073709551614 := by decide
  refine ⟨⟨_, rfl, ((frames_count_exactly (longGame.take 3)).1 _ rfl).trans hgranted⟩, ?_⟩
  refine (frames_count_exactly longGame).2.1.mpr
    ⟨longGame.take 3, ⟨.game, "run", [], [(.frames, [.int 9223372036854775807])], none⟩, [], _, rfl, rfl,
      ⟨rfl, rfl, rfl, rfl⟩, ?_⟩
  rw [hgranted]
  decide

/-- **The third run does not fit**, and breaks down: the program never comes to the sum. -/
theorem third_run_breaks_down :
    (initial.playAll (longGame.take 3)).map (·.frames.toNat) = some 18446744073709551614 ∧
    (initial.playAll longGame).isNone := by
  decide

end Frontend

end Helios
