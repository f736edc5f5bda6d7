import Helios.Frontend

/-!
# Failed commands — what a frontend is after a command that it refused

A command is recorded first. All but one kind of command check what they need before they change anything, so a
failure leaves the rest of the frontend as it was. The exception is `ui run`: it replays the events that wait
one by one, and breaks off at a click on a widget that does not exist. By then the events up to that click are
taken out of the queue, and checkboxes among them have changed.

`replay_breaks` and `replay_completes` say what a replay does in the two cases; `failed_command_keeps_frontend`
says that the first one is the only way for a failure to leave a trace.
-/

namespace Helios.Frontend

/-- The frontend with one more command on record. -/
def recorded (f : Frontend) (c : FrontendCommand) : Frontend := { f with events := f.events.push c }

/-- The widgets after clicks on those of a window. -/
def clickAll (window : String) : Bindings Widget → List ScriptedEvent → Bindings Widget
  | widgets, [] => widgets
  | widgets, .click name :: rest =>
    match widgets.get? name with
    | some w => clickAll window (if w.window = window then widgets.insert name (clicked w) else widgets) rest
    | none => clickAll window widgets rest
  | widgets, .press _ _ :: rest => clickAll window widgets rest
  | widgets, .gameKey _ :: rest => clickAll window widgets rest

/-- Every click is on a widget that exists. -/
def ClicksKnown (widgets : Bindings Widget) (events : List ScriptedEvent) : Prop :=
  ∀ name, .click name ∈ events → widgets.contains name

/-- **A command that breaks off**: it runs a window that is open while a click on an unknown widget waits. -/
def BreaksOff (f : Frontend) (c : FrontendCommand) : Prop :=
  c.surface = .ui ∧ c.verb = "run" ∧ (∃ name, c.nameAt 0 = .ok name ∧ f.windows.contains name) ∧
    ¬ ClicksKnown f.widgets f.script

/-! ## Replays -/

theorem contains_insert_iff {widgets : Bindings Widget} {name : String} {w w' : Widget}
    (h : widgets.get? name = some w) (n : String) :
    (widgets.insert name w').contains n = widgets.contains n := by
  unfold Bindings.contains
  rw [Bindings.get?_insert]
  split
  · next heq => rw [← heq, h]; rfl
  · rfl

/-- Clicks change widgets and add none, so which clicks are known does not change on the way. -/
theorem clicksKnown_insert {widgets : Bindings Widget} {name : String} {w w' : Widget}
    (h : widgets.get? name = some w) (events : List ScriptedEvent) :
    ClicksKnown (widgets.insert name w') events ↔ ClicksKnown widgets events := by
  unfold ClicksKnown
  simp only [contains_insert_iff h]

theorem clicksKnown_cons {widgets : Bindings Widget} {e : ScriptedEvent} {rest : List ScriptedEvent}
    (h : ClicksKnown widgets (e :: rest)) : ClicksKnown widgets rest :=
  fun name hmem => h name (List.mem_cons_of_mem e hmem)

/-- Events that are kept or handled in front of others do not hide where a replay broke off. -/
theorem unknown_keep (r : Replay) (e : ScriptedEvent) : (r.keep e).unknown = r.unknown := by
  unfold Replay.keep
  split <;> rfl

theorem keep_of_unknown {r : Replay} {name : String} (h : r.unknown = some name) (e : ScriptedEvent) :
    r.keep e = r := by
  unfold Replay.keep
  rw [h]
  rfl

/-- **A replay in which every click is known** goes to the end. -/
theorem replay_completes (window : String) (bindings : Bindings (Bindings Callback))
    {widgets : Bindings Widget} {script : List ScriptedEvent} (h : ClicksKnown widgets script) :
    (replay window bindings widgets script).unknown = none := by
  induction script generalizing widgets with
  | nil => rfl
  | cons e rest ih =>
    have hrest := clicksKnown_cons h
    cases e with
    | click name =>
      have hname := h name List.mem_cons_self
      obtain ⟨w, hw⟩ := Option.isSome_iff_exists.mp hname
      simp only [replay, hw]
      split
      · exact ih ((clicksKnown_insert hw rest).mpr hrest)
      · rw [unknown_keep]
        exact ih hrest
    | press target key =>
      simp only [replay]
      split
      · exact ih hrest
      · rw [unknown_keep]
        exact ih hrest
    | gameKey key =>
      rw [replay, unknown_keep]
      exact ih hrest

/-- **A replay that meets an unknown click** breaks off there. The clicks before it have been carried out, and
    none of the events up to it waits any longer, not even those for other windows. -/
theorem replay_breaks (window : String) (bindings : Bindings (Bindings Callback))
    {widgets : Bindings Widget} {before : List ScriptedEvent} {name : String} (after : List ScriptedEvent)
    (h : ClicksKnown widgets before) (hname : widgets.get? name = none) :
    let r := replay window bindings widgets (before ++ .click name :: after)
    r.unknown = some name ∧ r.left = after ∧ r.widgets = clickAll window widgets before := by
  induction before generalizing widgets with
  | nil => simp [replay, hname, clickAll]
  | cons e rest ih =>
    have hrest := clicksKnown_cons h
    cases e with
    | click n =>
      obtain ⟨w, hw⟩ := Option.isSome_iff_exists.mp (h n List.mem_cons_self)
      have hne : n ≠ name := by
        rintro rfl
        rw [hname] at hw
        exact nomatch hw
      by_cases hwin : w.window = window
      · have hname' : (widgets.insert n (clicked w)).get? name = none := by
          rw [Bindings.get?_insert, if_neg hne, hname]
        have hr := ih ((clicksKnown_insert hw rest).mpr hrest) hname'
        simpa [replay, hw, hwin, clickAll, Replay.run] using hr
      · have hr := ih hrest hname
        simpa [replay, hw, hwin, clickAll, keep_of_unknown hr.1] using hr
    | press target key =>
      have hr := ih hrest hname
      by_cases ht : target = window
      · simpa [replay, ht, clickAll, Replay.run] using hr
      · simpa [replay, ht, clickAll, keep_of_unknown hr.1] using hr
    | gameKey key =>
      have hr := ih hrest hname
      simpa [replay, clickAll, keep_of_unknown hr.1] using hr

/-- Where there is an unknown click, there is a first one. -/
theorem exists_first_unknown {widgets : Bindings Widget} {script : List ScriptedEvent}
    (h : ¬ ClicksKnown widgets script) :
    ∃ before name after, script = before ++ .click name :: after ∧ ClicksKnown widgets before ∧
      widgets.get? name = none := by
  induction script with
  | nil => exact absurd nofun h
  | cons e rest ih =>
    by_cases hrest : ClicksKnown widgets [e]
    · have hnot : ¬ ClicksKnown widgets rest := by
        intro hr
        refine h fun name hmem => ?_
        rcases List.mem_cons.mp hmem with heq | hmem
        · exact hrest name (heq ▸ List.mem_singleton_self _)
        · exact hr name hmem
      obtain ⟨before, name, after, rfl, hbefore, hname⟩ := ih hnot
      refine ⟨e :: before, name, after, rfl, fun n hmem => ?_, hname⟩
      rcases List.mem_cons.mp hmem with heq | hmem
      · exact hrest n (heq ▸ List.mem_singleton_self _)
      · exact hbefore n hmem
    · -- the first event is a click, and its widget does not exist
      cases e with
      | click name =>
        refine ⟨[], name, rest, rfl, nofun, ?_⟩
        refine Classical.byContradiction fun hsome => hrest fun n hmem => ?_
        cases List.mem_singleton.mp hmem
        exact Option.isSome_iff_ne_none.mpr hsome
      | press _ _ => exact absurd (by simp [ClicksKnown]) hrest
      | gameKey _ => exact absurd (by simp [ClicksKnown]) hrest

/-! ## Commands -/

theorem carryOut_error {f f' : Frontend} {effect : Effect} {e : FrontendError}
    (h : f.carryOut effect = (.error e, f')) : f' = f := by
  unfold carryOut at h
  split at h
  · exact nomatch congrArg Prod.fst h
  · exact (congrArg Prod.snd h).symm

/-- What `ui run` does first: the window that it names must be open. -/
theorem dispatch_run (f : Frontend) {c : FrontendCommand} (hs : c.surface = .ui) (hv : c.verb = "run") :
    f.dispatch c =
      match c.nameAt 0 with
      | .error e => (.error e, f.recorded c)
      | .ok name =>
        if f.windows.contains name then (f.recorded c).runWindow name
        else (.error (.unknown "window" name), f.recorded c) := by
  unfold dispatch windowRun
  simp only [hs, hv, if_true]
  cases c.nameAt 0 with
  | error e => rfl
  | ok name =>
    unfold window Bindings.contains
    dsimp only [bind, Except.bind]
    cases f.windows.get? name <;> rfl

/-- A run of the game that was let in does not fail any more. -/
theorem runGame_ne_error (f : Frontend) (n : Nat) (e : FrontendError) : (f.runGame n).1 ≠ .error e := by
  unfold runGame
  dsimp only
  split <;> nofun

/-- Any other command that fails has changed nothing. -/
theorem eq_recorded_of_not_run {f f' : Frontend} {c : FrontendCommand} {e : FrontendError}
    (h : f.dispatch c = (.error e, f')) (hrun : ¬ (c.surface = .ui ∧ c.verb = "run")) :
    f' = f.recorded c := by
  unfold dispatch at h
  cases hs : c.surface with
  | game =>
    simp only [hs] at h
    split at h
    · split at h
      · exact absurd (congrArg Prod.fst h) (runGame_ne_error _ _ e)
      · exact (congrArg Prod.snd h).symm
    · exact carryOut_error h
  | ui =>
    have hv : c.verb ≠ "run" := fun hv => hrun ⟨hs, hv⟩
    rw [hs] at h
    simp only [hv, if_false] at h
    exact carryOut_error h

/-- **When a failed command keeps the frontend.** A command that fails without breaking off leaves everything
    but the record as it was. One that breaks off does fail, at the first click on an unknown widget, and then
    the frontend has changed: the events up to that click are gone, and the widgets are those after the clicks
    before it. So a failure keeps the frontend exactly when it did not break off. -/
theorem failed_command_keeps_frontend (f : Frontend) (c : FrontendCommand) :
    (∀ e f', f.dispatch c = (.error e, f') → (f' = f.recorded c ↔ ¬ f.BreaksOff c)) ∧
    (f.BreaksOff c → ∃ window before name after,
      c.nameAt 0 = .ok window ∧ f.script = before ++ .click name :: after ∧
      ClicksKnown f.widgets before ∧ f.widgets.get? name = none ∧
      f.dispatch c = (.error (.unknown "widget" name),
        { f.recorded c with widgets := clickAll window f.widgets before, script := after })) := by
  have hbreaks : f.BreaksOff c → ∃ window before name after,
      c.nameAt 0 = .ok window ∧ f.script = before ++ .click name :: after ∧
      ClicksKnown f.widgets before ∧ f.widgets.get? name = none ∧
      f.dispatch c = (.error (.unknown "widget" name),
        { f.recorded c with widgets := clickAll window f.widgets before, script := after }) := by
    rintro ⟨hs, hv, ⟨window, hname, hopen⟩, hunknown⟩
    obtain ⟨before, name, after, hscript, hbefore, hnone⟩ := exists_first_unknown hunknown
    refine ⟨window, before, name, after, hname, hscript, hbefore, hnone, ?_⟩
    obtain ⟨hu, hl, hw⟩ := replay_breaks window f.bindings after hbefore hnone
    rw [← hscript] at hu hl hw
    simp only [dispatch_run f hs hv, hname, hopen, if_true, runWindow]
    simp only [recorded, hu, hl, hw]
  refine ⟨fun e f' h => ⟨fun hkept hb => ?_, fun hb => ?_⟩, hbreaks⟩
  · -- the click that broke the replay off does not wait any longer
    obtain ⟨window, before, name, after, -, hscript, -, -, hd⟩ := hbreaks hb
    rw [hd] at h
    have heq : after = f.script := by
      rw [hkept] at h
      exact congrArg (fun r => r.2.script) h
    have hlen := congrArg List.length hscript
    rw [← heq] at hlen
    simp at hlen
    omega
  · by_cases hrun : c.surface = .ui ∧ c.verb = "run"
    · obtain ⟨hs, hv⟩ := hrun
      rw [dispatch_run f hs hv] at h
      split at h
      · exact (congrArg Prod.snd h).symm
      · next name hname =>
        split at h
        · next hopen =>
          -- the window is open, so every click is known and the replay succeeds
          have hknown : ClicksKnown f.widgets f.script :=
            Classical.byContradiction fun hunknown => hb ⟨hs, hv, ⟨name, hname, hopen⟩, hunknown⟩
          have hdone := replay_completes name f.bindings hknown
          simp only [runWindow, recorded, hdone] at h
          exact nomatch congrArg Prod.fst h
        · exact (congrArg Prod.snd h).symm
    · exact eq_recorded_of_not_run h hrun

/-- A window with a checkbox, a click on the checkbox and a click on a widget that was never made. -/
def ghostClick : Frontend :=
  { initial with
    windows := .insert .empty "w" ⟨"w", none, none, none⟩
    widgets := .insert .empty "box" ⟨"w", "checkbox", .str "", .int 0, none⟩
    script := [.click "box", .click "ghost"] }

/-- With these events waiting, a command for a window that is not there fails and keeps the frontend; running the
    window that is there fails and does not. -/
theorem failed_command_keeps_frontend_ghost :
    (let r := ghostClick.dispatch ⟨.ui, "run", [.str "v"], [], none⟩
     r.1 = .error (.unknown "window" "v") ∧ r.2 = ghostClick.recorded ⟨.ui, "run", [.str "v"], [], none⟩) ∧
    let r := ghostClick.dispatch ⟨.ui, "run", [.str "w"], [], none⟩
    r.1 = .error (.unknown "widget" "ghost") ∧ r.2 ≠ ghostClick.recorded ⟨.ui, "run", [.str "w"], [], none⟩ := by
  have hclosed : ¬ ghostClick.BreaksOff ⟨.ui, "run", [.str "v"], [], none⟩ := by
    rintro ⟨-, -, ⟨name, hname, hopen⟩, -⟩
    cases hname
    exact absurd hopen (by decide)
  have hopen : ghostClick.BreaksOff ⟨.ui, "run", [.str "w"], [], none⟩ := by
    refine ⟨rfl, rfl, ⟨"w", rfl, by decide⟩, fun hknown => ?_⟩
    exact absurd (hknown "ghost" (by simp [ghostClick])) (by decide)
  refine ⟨⟨rfl, ?_⟩, rfl, fun hkept => ?_⟩
  · exact ((failed_command_keeps_frontend ghostClick _).1 _ _ rfl).mpr hclosed
  · exact ((failed_command_keeps_frontend ghostClick _).1 _ _ rfl).mp hkept hopen

/-- **A failed command that changed the frontend**: `ui run` fails at the second click, but the checkbox is set
    and both clicks are gone. -/
theorem failed_run_changes_frontend :
    let r := ghostClick.dispatch ⟨.ui, "run", [.str "w"], [], none⟩
    r.1 = .error (.unknown "widget" "ghost") ∧
      (r.2.widgets.get? "box").map Widget.value = some (.int 1) ∧
      (ghostClick.widgets.get? "box").map Widget.value = some (.int 0) ∧
      r.2.script = [] ∧ ghostClick.script ≠ [] := by
  refine ⟨rfl, rfl, rfl, rfl, nofun⟩

end Helios.Frontend
