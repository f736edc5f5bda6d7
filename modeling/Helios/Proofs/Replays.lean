import Helios.Proofs.FailedCommand
import Mathlib.Logic.Function.Iterate

/-!
# Replays — where the events that wait go

Every event that waits is for one window or for the game. A run takes the events that are for it out of the queue,
answers each with what is bound to it, and leaves the others waiting in their order. So no event is lost, none is
answered twice, and runs of different windows do not get in each other's way.

A click sets a checkbox and so changes the widgets during the replay that looks them up. It changes only a value, and
neither who an event is for nor its answer depends on values (`SameButValues`): both can be read off the frontend as
it was before the run. `replay_left`, `replay_callbacks` and `replay_widgets` say what a replay yields in these terms.
-/

namespace Helios.Frontend

/-! ## Events -/

/-- Whether an event is for a window: a click on a widget of it, or a key that was pressed in it. -/
def isFor (widgets : Bindings Widget) (window : String) : ScriptedEvent → Bool
  | .click name => (widgets.get? name).map Widget.window = some window
  | .press target _ => target = window
  | .gameKey _ => false

/-- Whether an event is for the game. -/
def isForGame : ScriptedEvent → Bool
  | .gameKey _ => true
  | _ => false

/-- What is bound to an event: the callback of the widget, or that of the key in the window or in the game. -/
def answer (f : Frontend) : ScriptedEvent → Option Callback
  | .click name => (f.widgets.get? name).bind Widget.callback
  | .press window key => (f.bindings.get? window).bind fun keys => keys.get? key
  | .gameKey key => f.keys.get? key

/-- A widget with the opposite state. -/
def toggled (x : Widget) : Widget := { x with value := .int (if x.value.truthy then 0 else 1) }

theorem truthy_toggled (x : Widget) : (toggled x).value.truthy = !x.value.truthy := by
  unfold toggled
  cases x.value.truthy <;> rfl

/-- A widget after a window was run and a number of clicks on the widget were waiting. -/
def afterClicks (window : String) (clicks : Nat) (x : Widget) : Widget :=
  if x.window = window ∧ x.kind = "checkbox" then toggled^[clicks] x else x

/-! ## Widgets that differ in their values -/

/-- A widget without its value. -/
def blank (x : Widget) : Widget := { x with value := .nil }

/-- **The same widgets but for their values.** -/
def SameButValues (widgets widgets' : Bindings Widget) : Prop :=
  ∀ name, (widgets'.get? name).map blank = (widgets.get? name).map blank

variable {widgets widgets' : Bindings Widget}

theorem SameButValues.window (h : SameButValues widgets widgets') (name : String) :
    (widgets'.get? name).map Widget.window = (widgets.get? name).map Widget.window := by
  have hb := congrArg (Option.map Widget.window) (h name)
  rwa [Option.map_map, Option.map_map] at hb

theorem SameButValues.callback (h : SameButValues widgets widgets') (name : String) :
    (widgets'.get? name).bind Widget.callback = (widgets.get? name).bind Widget.callback := by
  have hb := congrArg (fun o => o.bind Widget.callback) (h name)
  rwa [Option.bind_map, Option.bind_map] at hb

/-- Values do not decide who an event is for. -/
theorem SameButValues.isFor (h : SameButValues widgets widgets') (window : String) :
    isFor widgets' window = isFor widgets window := by
  funext e
  cases e with
  | click name => simp only [Frontend.isFor, h.window name]
  | press target key => rfl
  | gameKey key => rfl

/-- Nor do they decide how it is answered. -/
theorem SameButValues.answer {f f' : Frontend} (h : SameButValues f.widgets f'.widgets)
    (hbindings : f'.bindings = f.bindings) (hkeys : f'.keys = f.keys) : f'.answer = f.answer := by
  funext e
  cases e with
  | click name => exact h.callback name
  | press window key => simp only [Frontend.answer, hbindings]
  | gameKey key => simp only [Frontend.answer, hkeys]

/-- Nor which clicks are known. -/
theorem SameButValues.known (h : SameButValues widgets widgets') {script : List ScriptedEvent}
    (hknown : ClicksKnown widgets script) : ClicksKnown widgets' script := by
  intro name hmem
  have hb := congrArg Option.isSome (h name)
  rw [Option.isSome_map, Option.isSome_map] at hb
  exact hb.trans (hknown name hmem)

theorem blank_clicked (x : Widget) : blank (clicked x) = blank x := by
  unfold clicked
  split <;> rfl

theorem blank_toggles (n : Nat) (x : Widget) : blank (toggled^[n] x) = blank x := by
  induction n generalizing x with
  | zero => rfl
  | succ n ih => rw [Function.iterate_succ_apply, ih]; rfl

theorem blank_afterClicks (window : String) (n : Nat) (x : Widget) : blank (afterClicks window n x) = blank x := by
  unfold afterClicks
  split
  · exact blank_toggles n x
  · rfl

theorem window_afterClicks (window : String) (n : Nat) (x : Widget) :
    (afterClicks window n x).window = x.window := by
  have h := congrArg Widget.window (blank_afterClicks window n x)
  exact h

/-- **One more click**, which comes before the others. -/
theorem afterClicks_succ {window : String} {x : Widget} (hx : x.window = window) (n : Nat) :
    afterClicks window (n + 1) x = afterClicks window n (clicked x) := by
  unfold afterClicks clicked
  by_cases hkind : x.kind = "checkbox"
  · rw [if_pos ⟨hx, hkind⟩, if_pos hkind, if_pos ⟨hx, hkind⟩]
    exact Function.iterate_succ_apply toggled n x
  · rw [if_neg fun h => hkind h.2, if_neg hkind, if_neg fun h => hkind h.2]

theorem afterClicks_zero (window : String) (x : Widget) : afterClicks window 0 x = x := ite_self x

theorem afterClicks_of_ne {window : String} {x : Widget} (hx : x.window ≠ window) (n : Nat) :
    afterClicks window n x = x := if_neg fun h => hx h.1

/-! ## One event -/

variable {script rest : List ScriptedEvent} {e : ScriptedEvent} {window : String}

/-- The widgets after an event of their window. -/
def after (widgets : Bindings Widget) : ScriptedEvent → Bindings Widget
  | .click name => (widgets.get? name).elim widgets fun x => widgets.insert name (clicked x)
  | _ => widgets

theorem get?_after (widgets : Bindings Widget) (e : ScriptedEvent) (name : String) :
    (after widgets e).get? name = (widgets.get? name).map (if e = .click name then clicked else id) := by
  cases e with
  | click n =>
    cases hx : widgets.get? n with
    | none =>
      simp only [after, hx, Option.elim_none]
      by_cases heq : n = name
      · rw [← heq, hx, Option.map_none]
      · rw [if_neg (by simpa using heq), Option.map_id_apply]
    | some x =>
      simp only [after, hx, Option.elim_some, Bindings.get?_insert]
      by_cases heq : n = name
      · rw [if_pos heq, ← heq, hx, if_pos rfl, Option.map_some]
      · rw [if_neg heq, if_neg (by simpa using heq), Option.map_id_apply]
  | press _ _ => exact (Option.map_id_apply).symm
  | gameKey _ => exact (Option.map_id_apply).symm

/-- An event changes no more than a value. -/
theorem sameButValues_after (widgets : Bindings Widget) (e : ScriptedEvent) :
    SameButValues widgets (after widgets e) := by
  intro name
  rw [get?_after, Option.map_map]
  refine congrArg (fun g => Option.map g (widgets.get? name)) (funext fun x => ?_)
  rw [Function.comp_apply]
  split
  · exact blank_clicked x
  · rfl

/-- The widget of a click that is for a window is there. -/
theorem exists_of_isFor {name : String} (h : isFor widgets window (.click name) = true) :
    ∃ x, widgets.get? name = some x ∧ x.window = window :=
  Option.map_eq_some_iff.mp (of_decide_eq_true h)

/-- **An event for the window is answered** and taken out of the queue. -/
theorem replay_for (f : Frontend) (he : isFor f.widgets window e = true) (rest : List ScriptedEvent) :
    replay window f.bindings f.widgets (e :: rest) =
      (replay window f.bindings (after f.widgets e) rest).run (f.answer e).toList := by
  cases e with
  | click name =>
    obtain ⟨x, hx, hwindow⟩ := exists_of_isFor he
    simp only [replay, after, answer, hx, hwindow, if_true, Option.elim_some, Option.bind_some]
  | press target key =>
    have htarget : target = window := of_decide_eq_true he
    simp only [replay, after, answer, htarget, if_true]
  | gameKey key => exact absurd he Bool.false_ne_true

/-- **An event for another waits on**, if the clicks are known. -/
theorem replay_other (bindings : Bindings (Bindings Callback)) (hknown : ClicksKnown widgets (e :: rest))
    (he : isFor widgets window e = false) : replay window bindings widgets (e :: rest) =
      { replay window bindings widgets rest with left := e :: (replay window bindings widgets rest).left } := by
  have hkeep : (replay window bindings widgets rest).keep e =
      { replay window bindings widgets rest with left := e :: (replay window bindings widgets rest).left } := by
    unfold Replay.keep
    rw [if_neg (by rw [replay_completes window bindings (clicksKnown_cons hknown)]; nofun)]
  rw [← hkeep]
  cases e with
  | click name =>
    obtain ⟨x, hx⟩ := Option.isSome_iff_exists.mp (hknown name List.mem_cons_self)
    have hwindow : x.window ≠ window := fun heq => by simp [isFor, hx, heq] at he
    simp only [replay, hx, hwindow, if_false]
  | press target key =>
    have htarget : target ≠ window := of_decide_eq_false he
    simp only [replay, htarget, if_false]
  | gameKey key => rfl

/-! ## All events -/

/-- **What a replay leaves**: the events for others, in their order. -/
theorem replay_left (f : Frontend) (window : String) (hknown : ClicksKnown f.widgets script) :
    (replay window f.bindings f.widgets script).left = script.filter fun e => !isFor f.widgets window e := by
  induction script generalizing f with
  | nil => rfl
  | cons e rest ih =>
    have hrest := clicksKnown_cons hknown
    cases he : isFor f.widgets window e with
    | true =>
      have hsame := sameButValues_after f.widgets e
      have hr := ih { f with widgets := after f.widgets e } (hsame.known hrest)
      rw [replay_for f he, List.filter_cons_of_neg (by simp [he]), ← hsame.isFor]
      exact hr
    | false => rw [replay_other f.bindings hknown he, List.filter_cons_of_pos (by simp [he]), ih f hrest]

/-- **What a replay calls**: what is bound to the events for the window, in their order. -/
theorem replay_callbacks (f : Frontend) (window : String) (hknown : ClicksKnown f.widgets script) :
    (replay window f.bindings f.widgets script).callbacks =
      (script.filter (isFor f.widgets window)).filterMap f.answer := by
  induction script generalizing f with
  | nil => rfl
  | cons e rest ih =>
    have hrest := clicksKnown_cons hknown
    cases he : isFor f.widgets window e with
    | true =>
      -- the frontend answers the rest as it did before
      have hsame := sameButValues_after f.widgets e
      have hr := ih { f with widgets := after f.widgets e } (hsame.known hrest)
      have hanswer : { f with widgets := after f.widgets e }.answer = f.answer := hsame.answer rfl rfl
      rw [hanswer, hsame.isFor] at hr
      rw [replay_for f he, List.filter_cons_of_pos he, List.filterMap_cons, ← hr]
      cases f.answer e <;> rfl
    | false => rw [replay_other f.bindings hknown he, List.filter_cons_of_neg (by simp [he]), ← ih f hrest]

/-- **What a replay makes of the widgets**: the checkboxes of the window are toggled, once for each click. -/
theorem replay_widgets (f : Frontend) (window : String) (hknown : ClicksKnown f.widgets script) (name : String) :
    (replay window f.bindings f.widgets script).widgets.get? name =
      (f.widgets.get? name).map (afterClicks window (script.count (.click name))) := by
  induction script generalizing f with
  | nil =>
    rw [List.count_nil, funext (afterClicks_zero window), Option.map_id_fun']
    rfl
  | cons e rest ih =>
    have hrest := clicksKnown_cons hknown
    rw [List.count_cons]
    cases he : isFor f.widgets window e with
    | true =>
      have hr := ih { f with widgets := after f.widgets e } ((sameButValues_after f.widgets e).known hrest)
      rw [replay_for f he]
      refine hr.trans ?_
      rw [get?_after, Option.map_map]
      by_cases hclick : e = .click name
      · subst hclick
        obtain ⟨x, hx, hwindow⟩ := exists_of_isFor he
        rw [if_pos rfl, if_pos (beq_self_eq_true _), hx, Option.map_some, Option.map_some, afterClicks_succ hwindow]
        rfl
      · rw [if_neg hclick, if_neg (by simpa using hclick)]
        rfl
    | false =>
      rw [replay_other f.bindings hknown he]
      refine (ih f hrest).trans ?_
      by_cases hclick : e = .click name
      · -- a click on a widget of another window
        subst hclick
        refine Option.map_congr fun x hx => ?_
        have hwindow : x.window ≠ window := fun heq => by simp [isFor, hx, heq] at he
        rw [afterClicks_of_ne hwindow, afterClicks_of_ne hwindow]
      · rw [if_neg (by simpa using hclick)]
        rfl

/-! ## Runs -/

/-- A command that runs a window, which is open. -/
def Runs (f : Frontend) (c : FrontendCommand) (window : String) : Prop :=
  c.surface = .ui ∧ c.verb = "run" ∧ c.nameAt 0 = .ok window ∧ f.windows.contains window

/-- A command that runs the game for a number of frames. -/
def RunsGame (f : Frontend) (c : FrontendCommand) (frames : Nat) : Prop :=
  c.surface = .game ∧ c.verb = "run" ∧ f.game.isSome ∧ frameCount c = .ok frames

/-- What a run of a window calls. -/
def called (f : Frontend) (window : String) : List Callback :=
  (f.script.filter (isFor f.widgets window)).filterMap f.answer

/-- **A frontend after a run of a window**: the events for others wait, the checkboxes of the window are toggled, the
    command is on record, and the rest is as it was. -/
structure AfterRun (f : Frontend) (c : FrontendCommand) (window : String) (f' : Frontend) : Prop where
  script : f'.script = f.script.filter fun e => !isFor f.widgets window e
  widgets : ∀ name, f'.widgets.get? name =
    (f.widgets.get? name).map (afterClicks window (f.script.count (.click name)))
  rest : f' = { f.recorded c with script := f'.script, widgets := f'.widgets }

variable {f f' f₁ f₂ : Frontend} {c c' : FrontendCommand} {window' : String}

/-- **A run of a window goes through** when the clicks are known. -/
theorem run_goes_through (hknown : ClicksKnown f.widgets f.script) (hc : f.Runs c window) :
    ∃ f', f.dispatch c = (.ok { callbacks := f.called window }, f') ∧ f.AfterRun c window f' := by
  obtain ⟨hs, hv, hname, hopen⟩ := hc
  have hdone := replay_completes window f.bindings hknown
  let r := replay window f.bindings f.widgets f.script
  refine ⟨{ f.recorded c with script := r.left, widgets := r.widgets }, ?_,
    replay_left f window hknown, replay_widgets f window hknown, rfl⟩
  simp only [dispatch_run f hs hv, hname, hopen, if_true, runWindow, recorded, hdone, called,
    replay_callbacks f window hknown, r]

theorem AfterRun.same (h : f.AfterRun c window f') : SameButValues f.widgets f'.widgets := by
  intro name
  rw [h.widgets, Option.map_map]
  exact congrArg (fun g => Option.map g _) (funext (blank_afterClicks window _))

/-- After a run the clicks that wait are still known. -/
theorem AfterRun.known (h : f.AfterRun c window f') (hknown : ClicksKnown f.widgets f.script) :
    ClicksKnown f'.widgets f'.script := by
  refine h.same.known fun name hmem => ?_
  rw [h.script] at hmem
  exact hknown name (List.mem_filter.mp hmem).1

theorem AfterRun.runs (h : f.AfterRun c window f') (hc : f.Runs c' window') : f'.Runs c' window' := by
  rw [h.rest]
  exact hc

/-- No event is for two windows. -/
theorem isFor_ne (hne : window ≠ window') {e : ScriptedEvent} (h : isFor f.widgets window' e = true) :
    isFor f.widgets window e = false := by
  cases e with
  | click name =>
    simp only [isFor, decide_eq_true_eq] at h
    simpa only [isFor, h, decide_eq_false_iff_not, Option.some.injEq] using hne.symm
  | press target key =>
    simp only [isFor, decide_eq_true_eq] at h
    simpa only [isFor, h, decide_eq_false_iff_not] using hne.symm
  | gameKey key => rfl

/-- **A run does not touch the events for another window**: it is answered as if the run had not been. -/
theorem AfterRun.called (h : f.AfterRun c window f') (hne : window ≠ window') :
    f'.called window' = f.called window' := by
  have hanswer : f'.answer = f.answer := h.same.answer (by rw [h.rest]; rfl) (by rw [h.rest]; rfl)
  unfold Frontend.called
  rw [hanswer, h.same.isFor, h.script, List.filter_filter]
  refine congrArg (List.filterMap f.answer) (List.filter_congr fun e _ => ?_)
  cases he : isFor f.widgets window' e with
  | false => rfl
  | true => rw [isFor_ne hne he]; rfl

/-- The events that wait after runs of two windows. -/
theorem AfterRun.script_both (h₁ : f.AfterRun c window f₁) (h₂ : f₁.AfterRun c' window' f₂) :
    f₂.script = f.script.filter fun e => !isFor f.widgets window e && !isFor f.widgets window' e := by
  rw [h₂.script, h₁.same.isFor, h₁.script, List.filter_filter]
  exact List.filter_congr fun e _ => Bool.and_comm _ _

/-- The widgets after runs of two windows: each is in one of them at most. -/
theorem AfterRun.widgets_both (hne : window ≠ window') (h₁ : f.AfterRun c window f₁) (h₂ : f₁.AfterRun c' window' f₂)
    (name : String) : f₂.widgets.get? name = (f.widgets.get? name).map fun x =>
      afterClicks (if x.window = window then window else window') (f.script.count (.click name)) x := by
  rw [h₂.widgets, h₁.widgets, Option.map_map]
  cases hx : f.widgets.get? name with
  | none => rfl
  | some x =>
    rw [Option.map_some, Option.map_some, Function.comp_apply]
    by_cases hwindow : x.window = window
    · rw [if_pos hwindow, afterClicks_of_ne (by rw [window_afterClicks, hwindow]; exact hne)]
    · rw [if_neg hwindow, afterClicks_of_ne hwindow]
      -- the click is not for the first window, so the first run left it
      have hkept : f₁.script.count (.click name) = f.script.count (.click name) := by
        rw [h₁.script]
        exact List.count_filter (by simp [isFor, hx, hwindow])
      rw [hkept]

/-- **Runs of two windows commute.** -/
theorem AfterRun.comm {g₁ g₂ : Frontend} (hne : window ≠ window') (h₁ : f.AfterRun c window f₁)
    (h₂ : f₁.AfterRun c' window' f₂) (k₁ : f.AfterRun c' window' g₁) (k₂ : g₁.AfterRun c window g₂) :
    f₂.script = g₂.script ∧ f₂.widgets = g₂.widgets := by
  refine ⟨?_, Bindings.ext_get? fun name => ?_⟩
  · rw [h₁.script_both h₂, k₁.script_both k₂]
    exact List.filter_congr fun e _ => Bool.and_comm _ _
  · rw [h₁.widgets_both hne h₂, k₁.widgets_both hne.symm k₂]
    refine congrArg (fun g => Option.map g _) (funext fun x => ?_)
    by_cases h : x.window = window
    · rw [if_pos h, if_neg (h ▸ hne)]
    · rw [if_neg h]
      split
      · rfl
      · next h' => rw [afterClicks_of_ne h', afterClicks_of_ne h]

/-! ## The game -/

theorem gameKeys_eq (f : Frontend) (script : List ScriptedEvent) :
    gameKeys f.keys script = (script.filter isForGame).filterMap f.answer := by
  unfold gameKeys
  induction script with
  | nil => rfl
  | cons e rest ih =>
    cases e with
    | gameKey key =>
      rw [List.filter_cons_of_pos rfl, List.filterMap_cons, List.filterMap_cons, ih]
      rfl
    | click name => exact ih
    | press target key => exact ih

theorem ticks_eq (f : Frontend) (n : Nat) : f.ticks n = f.tick.toList.flatMap (.replicate n) := by
  unfold ticks
  cases f.tick with
  | none => rfl
  | some cb => rw [Option.toList_some, List.flatMap_singleton]

/-- The script when the keys of the game are taken out of it. -/
theorem script_runGame (f : Frontend) (n : Nat) : (f.runGame n).2.script = f.script.filter fun e => !isForGame e := by
  have hleft : (f.script.filter fun e => match e with | .gameKey _ => false | _ => true) =
      f.script.filter fun e => !isForGame e :=
    List.filter_congr fun e _ => by cases e <;> rfl
  unfold runGame
  dsimp only
  split <;> exact hleft

/-- What a run of the game calls: what is bound to the keys, and then what is to be called for each frame. -/
def calledByGame (f : Frontend) (n : Nat) : List Callback :=
  (f.script.filter isForGame).filterMap f.answer ++ f.tick.toList.flatMap (.replicate n)

theorem runGame_fits {n : Nat} (hfits : f.frames.toNat + n < UInt64.size) : f.runGame n =
    (.ok { callbacks := f.calledByGame n },
      { f with script := f.script.filter fun e => !isForGame e, frames := f.frames + UInt64.ofNat n }) := by
  rw [← script_runGame f n]
  unfold runGame calledByGame
  dsimp only
  rw [if_pos hfits, gameKeys_eq, ticks_eq]

theorem runGame_breaks {n : Nat} (hfull : UInt64.size ≤ f.frames.toNat + n) : f.runGame n =
    (.broken, { f with script := f.script.filter fun e => !isForGame e }) := by
  rw [← script_runGame f n]
  unfold runGame
  dsimp only
  rw [if_neg (Nat.not_lt.mpr hfull)]

/-- A run of the game that is let in. -/
theorem dispatch_runGame {n : Nat} (hc : f.RunsGame c n) : f.dispatch c = (f.recorded c).runGame n := by
  obtain ⟨hs, hv, hgame, hframes⟩ := hc
  have hrun : ({ f with events := f.events.push c } : Frontend).gameRun c = .ok n := by
    simp only [gameRun, requireGame, hgame, if_true, hframes]
    rfl
  unfold dispatch
  simp only [hs, hv, if_true, hrun]
  rfl

/-- **Events that wait are neither lost nor answered twice nor reordered.** When the clicks that wait are known, a run
    of an open window goes through. It calls what is bound to the events for the window, in their order, leaves exactly
    the others waiting, in their order, and toggles the checkboxes of the window, once for each click. Two windows can
    be run in either order: each calls the same both times, and in the end the same events wait and the widgets are the
    same. A run of the game answers exactly the keys of the game, in their order, and then calls what is to be called
    for each frame, as long as the counter holds the frames. When it does not, the keys are taken and nothing is called:
    the program breaks down. -/
theorem events_answered_once (f : Frontend) :
    (ClicksKnown f.widgets f.script →
      (∀ c window, f.Runs c window →
        ∃ f', f.dispatch c = (.ok { callbacks := f.called window }, f') ∧ f.AfterRun c window f') ∧
      (∀ c c' window window', f.Runs c window → f.Runs c' window' → window ≠ window' →
        ∃ f₁ f₂ g₁ g₂,
          f.dispatch c = (.ok { callbacks := f.called window }, f₁) ∧
          f₁.dispatch c' = (.ok { callbacks := f.called window' }, f₂) ∧
          f.dispatch c' = (.ok { callbacks := f.called window' }, g₁) ∧
          g₁.dispatch c = (.ok { callbacks := f.called window }, g₂) ∧
          f₂.script = g₂.script ∧ f₂.widgets = g₂.widgets)) ∧
    (∀ c n, f.RunsGame c n →
      (f.frames.toNat + n < UInt64.size → f.dispatch c =
        (.ok { callbacks := f.calledByGame n },
          { f.recorded c with
            script := f.script.filter fun e => !isForGame e, frames := f.frames + UInt64.ofNat n })) ∧
      (UInt64.size ≤ f.frames.toNat + n → f.dispatch c =
        (.broken, { f.recorded c with script := f.script.filter fun e => !isForGame e }))) := by
  refine ⟨fun hknown => ⟨fun c window hc => run_goes_through hknown hc, ?_⟩, fun c n hc =>
    ⟨fun hfits => (dispatch_runGame hc).trans (runGame_fits hfits),
      fun hfull => (dispatch_runGame hc).trans (runGame_breaks hfull)⟩⟩
  intro c c' window window' hc hc' hne
  obtain ⟨f₁, hf₁, h₁⟩ := run_goes_through hknown hc
  obtain ⟨f₂, hf₂, h₂⟩ := run_goes_through (h₁.known hknown) (h₁.runs hc')
  obtain ⟨g₁, hg₁, k₁⟩ := run_goes_through hknown hc'
  obtain ⟨g₂, hg₂, k₂⟩ := run_goes_through (k₁.known hknown) (k₁.runs hc)
  rw [h₁.called hne] at hf₂
  rw [k₁.called hne.symm] at hg₂
  exact ⟨f₁, f₂, g₁, g₂, hf₁, hf₂, hg₁, hg₂, h₁.comm hne h₂ k₁ k₂⟩

/-- Two windows and a game. For the window "a" two clicks on its checkbox wait and a key that is not bound, for the
    window "b" a click on its button and a key that is bound, and for the game one key. -/
def busy : Frontend :=
  { initial with
    windows := .ofList [("a", ⟨"a", none, none, none⟩), ("b", ⟨"b", none, none, none⟩)]
    widgets := .ofList
      [("box", ⟨"a", "checkbox", .str "", .int 0, some ⟨"tick", []⟩⟩),
       ("go", ⟨"b", "button", .str "", .nil, some ⟨"push", []⟩⟩)]
    bindings := .ofList [("b", .ofList [("x", ⟨"cross", []⟩)])]
    keys := .ofList [("up", ⟨"jump", []⟩)]
    tick := some ⟨"frame", []⟩
    game := some ⟨.int 1, .int 1, "g"⟩
    script := [.click "box", .press "b" "x", .gameKey "up", .click "go", .press "a" "y", .click "box"] }

/-- A command to run a window. -/
def runCommand (window : String) : FrontendCommand := ⟨.ui, "run", [.str window], [], none⟩

/-- Both windows and the game are run here. -/
theorem events_answered_once_busy :
    ClicksKnown busy.widgets busy.script ∧ busy.Runs (runCommand "a") "a" ∧ busy.Runs (runCommand "b") "b" ∧
    (∃ f', busy.dispatch (runCommand "a") = (.ok { callbacks := [⟨"tick", []⟩, ⟨"tick", []⟩] }, f') ∧
      f'.script = [.press "b" "x", .gameKey "up", .click "go"]) ∧
    (∃ f₁ f₂ g₁ g₂,
      busy.dispatch (runCommand "a") = (.ok { callbacks := [⟨"tick", []⟩, ⟨"tick", []⟩] }, f₁) ∧
      f₁.dispatch (runCommand "b") = (.ok { callbacks := [⟨"cross", []⟩, ⟨"push", []⟩] }, f₂) ∧
      busy.dispatch (runCommand "b") = (.ok { callbacks := [⟨"cross", []⟩, ⟨"push", []⟩] }, g₁) ∧
      g₁.dispatch (runCommand "a") = (.ok { callbacks := [⟨"tick", []⟩, ⟨"tick", []⟩] }, g₂) ∧
      f₂.script = g₂.script ∧ f₂.widgets = g₂.widgets) ∧
    (busy.dispatch ⟨.game, "run", [], [(.frames, [.int 2])], none⟩).1 =
      .ok { callbacks := [⟨"jump", []⟩, ⟨"frame", []⟩, ⟨"frame", []⟩] } := by
  have hknown : ClicksKnown busy.widgets busy.script := by
    intro name hmem
    have hname : name = "box" ∨ name = "go" ∨ name = "box" := by simpa [busy] using hmem
    rcases hname with rfl | rfl | rfl <;> decide
  have ha : busy.Runs (runCommand "a") "a" := ⟨rfl, rfl, rfl, by decide⟩
  have hb : busy.Runs (runCommand "b") "b" := ⟨rfl, rfl, rfl, by decide⟩
  obtain ⟨hrun, htwo⟩ := (events_answered_once busy).1 hknown
  obtain ⟨f', hf', hafter⟩ := hrun _ _ ha
  have hgame := ((events_answered_once busy).2 ⟨.game, "run", [], [(.frames, [.int 2])], none⟩ 2
    ⟨rfl, rfl, rfl, rfl⟩).1 (by decide)
  refine ⟨hknown, ha, hb, ⟨f', hf', hafter.script⟩, htwo _ _ _ _ ha hb (by decide), ?_⟩
  rw [hgame]
  rfl

/-- The game is open with a key bound, was run twice for as many frames as can be asked for, and the key is pressed. -/
def almostFull : Frontend :=
  let longRun : FrontendCommand := ⟨.game, "run", [], [(.frames, [.int 9223372036854775807])], none⟩
  let commands : List FrontendCommand :=
    [⟨.game, "window", [.int 1, .int 1], [], none⟩, ⟨.game, "key", [.str "up"], [], some ⟨"jump", []⟩⟩, longRun, longRun]
  (commands.foldl (fun f c => (f.dispatch c).2) initial).queue (.gameKey "up")

/-- **A key that no run answers**: the counter has room for one frame, and running two breaks down over it. -/
theorem game_run_breaks_down :
    ClicksKnown almostFull.widgets almostFull.script ∧
    almostFull.RunsGame ⟨.game, "run", [], [(.frames, [.int 2])], none⟩ 2 ∧
    almostFull.script = [.gameKey "up"] ∧ almostFull.keys.get? "up" = some ⟨"jump", []⟩ ∧
    (almostFull.dispatch ⟨.game, "run", [], [(.frames, [.int 2])], none⟩).1 = .broken := by
  refine ⟨fun name hmem => ?_, ⟨rfl, rfl, rfl, rfl⟩, rfl, rfl, rfl⟩
  exact nomatch List.mem_singleton.mp hmem

end Helios.Frontend
