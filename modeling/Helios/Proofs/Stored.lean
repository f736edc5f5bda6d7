import Helios.Proofs.Footprint

/-!
# Stored — what a frontend keeps came with commands

A frontend keeps values and callbacks for later: in widgets and windows, under keys, for the ticks of the game, and in
its record of commands. All of them were sent to it, a few fixed values apart, and widgets and bindings are only made
for windows that exist, which are never closed. So whatever holds of the values and of the callbacks of every command
holds of everything that is kept (`Frontend.Stores`), and of every answer (`Frontend.Stores.dispatch`), also where the
command fails or a replay breaks off.
-/

namespace Helios

/-- What a command brings along satisfies `V` if it is a value, and `C` if it is a callback. -/
structure FrontendCommand.Carries (V : Value → Prop) (C : Callback → Prop) (c : FrontendCommand) : Prop where
  arg : ∀ v ∈ c.args, V v
  clause : ∀ e ∈ c.clauses, ∀ v ∈ e.2, V v
  callback : ∀ cb ∈ c.callback, C cb

/-- What a widget keeps satisfies `V` and `C`. -/
structure Widget.Stores (V : Value → Prop) (C : Callback → Prop) (w : Widget) : Prop where
  text : V w.text
  value : V w.value
  callback : ∀ cb ∈ w.callback, C cb

/-- What a window keeps satisfies `V`. -/
structure Window.Stores (V : Value → Prop) (w : Window) : Prop where
  size : ∀ e ∈ w.size, V e.1 ∧ V e.2
  bg : ∀ v ∈ w.bg, V v
  fg : ∀ v ∈ w.fg, V v

/-- **What a frontend keeps** satisfies `V` and `C`, and widgets and bindings belong to windows that exist. -/
structure Frontend.Stores (V : Value → Prop) (C : Callback → Prop) (f : Frontend) : Prop where
  event : ∀ c ∈ f.events.toList, c.Carries V C
  window : ∀ name w, f.windows.get? name = some w → w.Stores V
  widget : ∀ name w, f.widgets.get? name = some w → f.windows.contains w.window = true ∧ w.Stores V C
  binding : ∀ window keys, f.bindings.get? window = some keys →
    f.windows.contains window = true ∧ ∀ key cb, keys.get? key = some cb → C cb
  key : ∀ key cb, f.keys.get? key = some cb → C cb
  tick : ∀ cb ∈ f.tick, C cb
  game : ∀ g ∈ f.game, V g.width ∧ V g.height

/-- What is answered satisfies `V` and `C`. -/
structure FrontendReply.Carries (V : Value → Prop) (C : Callback → Prop) (reply : FrontendReply) : Prop where
  value : V reply.value
  callback : ∀ cb ∈ reply.callbacks, C cb

/-- The values that a frontend makes up itself: nothing, whole numbers and the empty text. -/
structure Value.Basic (V : Value → Prop) : Prop where
  nil : V .nil
  int : ∀ n, V (.int n)
  empty : V (.str "")

namespace Frontend

variable {V : Value → Prop} {C : Callback → Prop} {f : Frontend} {c : FrontendCommand}

theorem Stores.initial : Frontend.initial.Stores V C := ⟨nofun, nofun, nofun, nofun, nofun, nofun, nofun⟩

/-- What satisfies more satisfies less. -/
theorem Stores.mono {C' : Callback → Prop} (hC : ∀ cb, C cb → C' cb) (h : f.Stores V C) : f.Stores V C' where
  event c hc := ⟨(h.event c hc).arg, (h.event c hc).clause, fun cb hcb => hC cb ((h.event c hc).callback cb hcb)⟩
  window := h.window
  widget name w hw :=
    have ⟨hwindow, hw⟩ := h.widget name w hw
    ⟨hwindow, hw.text, hw.value, fun cb hcb => hC cb (hw.callback cb hcb)⟩
  binding window keys hkeys :=
    have ⟨hwindow, hkeys⟩ := h.binding window keys hkeys
    ⟨hwindow, fun key cb hcb => hC cb (hkeys key cb hcb)⟩
  key key cb hcb := hC cb (h.key key cb hcb)
  tick cb hcb := hC cb (h.tick cb hcb)
  game := h.game

theorem contains_insert {α : Type} {b : Bindings α} {name n : String} (v : α) (h : b.contains n = true) :
    (b.insert name v).contains n = true := by
  unfold Bindings.contains at h ⊢
  rw [Bindings.get?_insert]
  split
  · rfl
  · exact h

namespace Stores

/-! ## Changes -/

/-- Events that wait are no values and no callbacks. -/
theorem withScript (h : f.Stores V C) (script : List ScriptedEvent) : { f with script }.Stores V C :=
  ⟨h.event, h.window, h.widget, h.binding, h.key, h.tick, h.game⟩

/-- An event that is scripted stores no callback. -/
theorem queue (h : f.Stores V C) (e : ScriptedEvent) : (f.queue e).Stores V C := h.withScript _

/-- A command is recorded with its callback. -/
theorem record (h : f.Stores V C) (hc : c.Carries V C) : { f with events := f.events.push c }.Stores V C where
  event c' hc' := by
    rw [Array.toList_push, List.mem_append, List.mem_singleton] at hc'
    rcases hc' with hc' | rfl
    · exact h.event c' hc'
    · exact hc
  window := h.window
  widget := h.widget
  binding := h.binding
  key := h.key
  tick := h.tick
  game := h.game

/-- A window is made or changed; none is closed. -/
theorem insertWindow (h : f.Stores V C) (name : String) {w : Window} (hw : w.Stores V) :
    { f with windows := f.windows.insert name w }.Stores V C where
  event := h.event
  window name' w' hget := by
    rw [Bindings.get?_insert] at hget
    split at hget
    · obtain rfl := Option.some.inj hget
      exact hw
    · exact h.window name' w' hget
  widget name' w' hget := (h.widget name' w' hget).imp_left (contains_insert w)
  binding window keys hget := (h.binding window keys hget).imp_left (contains_insert w)
  key := h.key
  tick := h.tick
  game := h.game

/-- A widget is made in a window that exists, or changed. -/
theorem insertWidget (h : f.Stores V C) (name : String) {w : Widget} (hwindow : f.windows.contains w.window = true)
    (hw : w.Stores V C) : { f with widgets := f.widgets.insert name w }.Stores V C where
  event := h.event
  window := h.window
  widget name' w' hget := by
    rw [Bindings.get?_insert] at hget
    split at hget
    · obtain rfl := Option.some.inj hget
      exact ⟨hwindow, hw⟩
    · exact h.widget name' w' hget
  binding := h.binding
  key := h.key
  tick := h.tick
  game := h.game

/-- A key is bound in a window that exists. -/
theorem insertBinding (h : f.Stores V C) {window : String} (hwindow : f.windows.contains window = true)
    (key : String) {cb : Callback} (hcb : C cb) :
    { f with bindings := f.bindings.insert window (((f.bindings.get? window).getD .empty).insert key cb) }.Stores
      V C where
  event := h.event
  window := h.window
  widget := h.widget
  binding window' keys hget := by
    rw [Bindings.get?_insert] at hget
    split at hget
    · rename_i heq
      subst heq
      obtain rfl := Option.some.inj hget
      refine ⟨hwindow, fun key' cb' hget => ?_⟩
      rw [Bindings.get?_insert] at hget
      split at hget
      · obtain rfl := Option.some.inj hget
        exact hcb
      · cases hold : f.bindings.get? window with
        | none =>
          rw [hold] at hget
          nomatch hget
        | some keys =>
          rw [hold] at hget
          exact (h.binding window keys hold).2 key' cb' hget
    · exact h.binding window' keys hget
  key := h.key
  tick := h.tick
  game := h.game

/-- A callback for a key of the game. -/
theorem insertKey (h : f.Stores V C) (key : String) {cb : Callback} (hcb : C cb) :
    { f with keys := f.keys.insert key cb }.Stores V C where
  event := h.event
  window := h.window
  widget := h.widget
  binding := h.binding
  key key' cb' hget := by
    rw [Bindings.get?_insert] at hget
    split at hget
    · obtain rfl := Option.some.inj hget
      exact hcb
    · exact h.key key' cb' hget
  tick := h.tick
  game := h.game

end Stores

/-! ## Effects -/

/-- An effect, when there is one, leaves what is kept in order, and so is the answer. -/
def Leaves (V : Value → Prop) (C : Callback → Prop) (e : Effect) : Prop :=
  ∀ reply f, e = .ok (reply, f) → f.Stores V C ∧ reply.Carries V C

namespace Leaves

/-- What is looked up first may fail. -/
theorem bind {α : Type} {x : Except FrontendError α} {k : α → Effect} (h : ∀ a, x = .ok a → Leaves V C (k a)) :
    Leaves V C (x >>= k) := by
  cases x with
  | error e => nofun
  | ok a => exact h a rfl

theorem fail (c : FrontendCommand) (issue : FrontendIssue) : Leaves V C (c.fail issue) := nofun

/-- An answer that says nothing. -/
theorem silent (hV : Value.Basic V) (h : f.Stores V C) : Leaves V C (pure ({}, f)) := by
  intro reply f' heq
  obtain ⟨rfl, rfl⟩ := Prod.mk.inj (Except.ok.inj heq)
  exact ⟨h, hV.nil, nofun⟩

end Leaves

/-- A window that is found is stored. -/
theorem get?_of_window {name : String} {w : Window} (h : f.window name = .ok w) :
    f.windows.get? name = some w := by
  unfold window at h
  split at h
  · rename_i hget
    rw [hget, Except.ok.inj h]
  · nomatch h

theorem get?_of_widget {name : String} {w : Widget} (h : f.widget name = .ok w) : f.widgets.get? name = some w := by
  unfold widget at h
  split at h
  · rename_i hget
    rw [hget, Except.ok.inj h]
  · nomatch h

/-- An argument of a command is carried by it. -/
theorem arg_carried (hc : c.Carries V C) {i : Nat} {v : Value} (h : c.arg i = .ok v) : V v := by
  unfold FrontendCommand.arg at h
  split at h
  · rename_i hget
    obtain rfl := Except.ok.inj h
    exact hc.arg _ (List.mem_of_getElem? hget)
  · nomatch h

/-- So are the values of a clause. -/
theorem clause_carried (hc : c.Carries V C) {kind : ClauseKind} {vs : List Value} (h : c.clause? kind = some vs) :
    ∀ v ∈ vs, V v := by
  obtain ⟨e, he, rfl⟩ := Option.map_eq_some_iff.mp h
  exact hc.clause e (List.mem_of_find?_eq_some he)

section Commands

variable (hV : Value.Basic V) (hf : f.Stores V C)
include hV hf

theorem updateWindow_stores {change : Window → Window} (h : ∀ w, w.Stores V → (change w).Stores V) :
    Leaves V C (f.updateWindow c change) :=
  .bind fun name _ => .bind fun w hw => .silent hV (hf.insertWindow name (h w (hf.window name w (get?_of_window hw))))

theorem updateWidget_stores {change : Widget → Widget}
    (h : ∀ w, w.Stores V C → (change w).Stores V C ∧ (change w).window = w.window) :
    Leaves V C (f.updateWidget c change) := by
  refine .bind fun name _ => .bind fun w hw => .silent hV ?_
  obtain ⟨hwindow, hstores⟩ := hf.widget name w (get?_of_widget hw)
  obtain ⟨hchange, hsame⟩ := h w hstores
  exact hf.insertWidget name (hsame ▸ hwindow) hchange

variable (hc : c.Carries V C)
include hc

/-- A widget that is added stands in a window. -/
theorem addWidget_stores {text value : Value} (htext : V text) (hvalue : V value) :
    Leaves V C (f.addWidget c text value) := by
  refine .bind fun window _ => .bind fun w hw => .bind fun name _ => .silent hV ?_
  refine hf.insertWidget name ?_ ⟨htext, hvalue, hc.callback⟩
  show (f.windows.get? window).isSome = true
  rw [get?_of_window hw]
  rfl

/-- **Commands for windows, verb by verb.** -/
theorem dispatchUi_stores : Leaves V C (f.dispatchUi c) := by
  unfold dispatchUi
  split
  · -- `window`
    refine .bind fun name _ => .silent hV (hf.insertWindow name ⟨?_, nofun, nofun⟩)
    intro e he
    dsimp only at he
    split at he
    · rename_i w h hsize
      obtain rfl := Option.some.inj he
      have hall := clause_carried hc hsize
      exact ⟨hall w (by simp), hall h (by simp)⟩
    · nomatch he
  · -- `title`
    exact .bind fun title _ => updateWindow_stores hV hf fun w hw => ⟨hw.size, hw.bg, hw.fg⟩
  · -- `size`
    refine .bind fun width hwidth => .bind fun height hheight => updateWindow_stores hV hf fun w hw => ⟨?_, hw.bg, hw.fg⟩
    intro e he
    obtain rfl := Option.some.inj he
    exact ⟨arg_carried hc hwidth, arg_carried hc hheight⟩
  · -- `bg`
    refine .bind fun color hcolor => updateWindow_stores hV hf fun w hw => ⟨hw.size, ?_, hw.fg⟩
    intro v hv
    obtain rfl := Option.some.inj hv
    exact arg_carried hc hcolor
  · -- `fg`
    refine .bind fun color hcolor => updateWindow_stores hV hf fun w hw => ⟨hw.size, hw.bg, ?_⟩
    intro v hv
    obtain rfl := Option.some.inj hv
    exact arg_carried hc hcolor
  · -- `label`, `button` and `entry`
    exact .bind fun text htext => addWidget_stores hV hf hc (arg_carried hc htext) hV.nil
  · exact .bind fun text htext => addWidget_stores hV hf hc (arg_carried hc htext) hV.nil
  · exact addWidget_stores hV hf hc hV.nil hV.empty
  · -- `slider` starts where its range does
    refine addWidget_stores hV hf hc hV.nil ?_
    cases hfrom : c.clause? .from_ with
    | none => exact hV.int 0
    | some vs =>
      cases vs with
      | nil => exact hV.int 0
      | cons v vs => exact clause_carried hc hfrom v List.mem_cons_self
  · -- `checkbox`
    exact .bind fun text htext => addWidget_stores hV hf hc (arg_carried hc htext) (hV.int 0)
  · -- `bind`
    refine .bind fun window _ => .bind fun w hw => ?_
    split
    · exact .fail c _
    · rename_i cb hcb
      refine .bind fun key _ => .silent hV (hf.insertBinding ?_ key (hc.callback cb hcb))
      show (f.windows.get? window).isSome = true
      rw [get?_of_window hw]
      rfl
  · -- `text` and `set`
    exact .bind fun text htext => updateWidget_stores hV hf fun w hw =>
      ⟨⟨arg_carried hc htext, hw.value, hw.callback⟩, rfl⟩
  · exact .bind fun value hvalue => updateWidget_stores hV hf fun w hw =>
      ⟨⟨hw.text, arg_carried hc hvalue, hw.callback⟩, rfl⟩
  · -- `get` answers with what is stored
    refine .bind fun name _ => .bind fun w hw => ?_
    intro reply f' heq
    obtain ⟨rfl, rfl⟩ := Prod.mk.inj (Except.ok.inj heq)
    exact ⟨hf, (hf.widget name w (get?_of_widget hw)).2.value, nofun⟩
  · exact .fail c _

/-- **Commands for the game, verb by verb.** -/
theorem dispatchGame_stores : Leaves V C (f.dispatchGame c) := by
  unfold dispatchGame
  split
  · -- `window`
    refine .bind fun width hwidth => .bind fun height hheight => .bind fun _ _ => .silent hV ?_
    refine ⟨hf.event, hf.window, hf.widget, hf.binding, hf.key, hf.tick, fun g hg => ?_⟩
    obtain rfl := Option.some.inj hg
    exact ⟨arg_carried hc hwidth, arg_carried hc hheight⟩
  · -- drawing and sound store nothing
    exact .bind fun _ _ => .silent hV hf
  · exact .bind fun _ _ => .silent hV hf
  · exact .bind fun _ _ => .bind fun _ _ => .silent hV hf
  · exact .bind fun _ _ => .bind fun _ _ => .silent hV hf
  · exact .bind fun _ _ => .bind fun _ _ => .silent hV hf
  · refine .bind fun _ _ => ?_
    split
    · split
      · exact .silent hV hf
      · exact .fail c _
    · exact .silent hV hf
  · -- `key`
    split
    · exact .fail c _
    · rename_i cb hcb
      exact .bind fun key _ => .silent hV (hf.insertKey key (hc.callback cb hcb))
  · exact .silent hV ⟨hf.event, hf.window, hf.widget, hf.binding, hf.key, hc.callback, hf.game⟩
  · exact .silent hV ⟨hf.event, hf.window, hf.widget, hf.binding, hf.key, hf.tick, nofun⟩
  · exact .fail c _

end Commands

/-! ## Replays -/

/-- A click turns a checkbox over, and that is all that it changes. -/
theorem clicked_stores (hV : Value.Basic V) {w : Widget} (hw : w.Stores V C) : (clicked w).Stores V C := by
  unfold clicked
  split
  · exact ⟨hw.text, hV.int _, hw.callback⟩
  · exact hw

theorem clicked_window (w : Widget) : (clicked w).window = w.window := by
  unfold clicked
  split <;> rfl

theorem callbacks_keep (r : Replay) (e : ScriptedEvent) : (r.keep e).callbacks = r.callbacks := by
  unfold Replay.keep
  split <;> rfl

theorem widgets_keep (r : Replay) (e : ScriptedEvent) : (r.keep e).widgets = r.widgets := by
  unfold Replay.keep
  split <;> rfl

/-- **A replay changes values of widgets**, and answers with the callbacks of widgets and bindings. -/
theorem replay_stores (hV : Value.Basic V) (hf : f.Stores V C) (window : String) (script : List ScriptedEvent) :
    { f with widgets := (replay window f.bindings f.widgets script).widgets }.Stores V C ∧
      ∀ cb ∈ (replay window f.bindings f.widgets script).callbacks, C cb := by
  induction script generalizing f with
  | nil => exact ⟨hf, nofun⟩
  | cons e rest ih =>
    cases e with
    | click name =>
      cases hname : f.widgets.get? name with
      | none =>
        simp only [replay, hname]
        exact ⟨hf, nofun⟩
      | some w =>
        obtain ⟨hwindow, hw⟩ := hf.widget name w hname
        simp only [replay, hname]
        split
        -- the widget is toggled, and the rest of the script is replayed over that
        · obtain ⟨hkept, hcallbacks⟩ :=
            ih (hf.insertWidget name (clicked_window w ▸ hwindow) (clicked_stores hV hw))
          refine ⟨hkept, fun cb hcb => ?_⟩
          rcases List.mem_append.mp hcb with hcb | hcb
          · exact hw.callback cb (Option.mem_toList.mp hcb)
          · exact hcallbacks cb hcb
        · rw [widgets_keep, callbacks_keep]
          exact ih hf
    | press target key =>
      simp only [replay]
      split
      · refine ⟨(ih hf).1, fun cb hcb => ?_⟩
        rcases List.mem_append.mp hcb with hcb | hcb
        · obtain ⟨keys, hkeys, hkey⟩ := Option.bind_eq_some_iff.mp (Option.mem_toList.mp hcb)
          exact (hf.binding target keys hkeys).2 key cb hkey
        · exact (ih hf).2 cb hcb
      · rw [widgets_keep, callbacks_keep]
        exact ih hf
    | gameKey key =>
      rw [replay, widgets_keep, callbacks_keep]
      exact ih hf

/-- Events of a window call what widgets and bindings store. -/
theorem runWindow_stores (hV : Value.Basic V) (hf : f.Stores V C) (name : String) :
    (f.runWindow name).2.Stores V C ∧ ∀ reply, (f.runWindow name).1 = .ok reply → reply.Carries V C := by
  obtain ⟨hkept, hcallbacks⟩ := replay_stores hV hf name f.script
  unfold runWindow
  dsimp only
  split
  · exact ⟨hkept.withScript _, nofun⟩
  · exact ⟨hkept.withScript _, fun reply heq => FrontendOutcome.ok.inj heq ▸ ⟨hV.nil, hcallbacks⟩⟩

/-- **A run of the game** answers with what is stored under keys and for the ticks. -/
theorem runGame_stores (hV : Value.Basic V) (hf : f.Stores V C) (frames : Nat) :
    (f.runGame frames).2.Stores V C ∧ ∀ reply, (f.runGame frames).1 = .ok reply → reply.Carries V C := by
  unfold runGame
  dsimp only
  split
  · refine ⟨⟨hf.event, hf.window, hf.widget, hf.binding, hf.key, hf.tick, hf.game⟩, fun reply heq => ?_⟩
    obtain rfl := FrontendOutcome.ok.inj heq
    refine ⟨hV.nil, fun cb hcb => ?_⟩
    rcases List.mem_append.mp hcb with hcb | hcb
    · obtain ⟨e, -, he⟩ := List.mem_filterMap.mp hcb
      split at he
      · exact hf.key _ cb he
      · nomatch he
    · unfold ticks at hcb
      split at hcb
      · rename_i cb' htick
        obtain ⟨-, rfl⟩ := List.mem_replicate.mp hcb
        exact hf.tick cb htick
      · nomatch hcb
  · exact ⟨hf.withScript _, nofun⟩

/-! ## Dispatch -/

/-- A command that fails leaves the frontend as it was. -/
theorem carryOut_stores (hf : f.Stores V C) {effect : Effect} (h : Leaves V C effect) :
    (f.carryOut effect).2.Stores V C ∧ ∀ reply, (f.carryOut effect).1 = .ok reply → reply.Carries V C := by
  cases effect with
  | error e => exact ⟨hf, nofun⟩
  | ok answer =>
    obtain ⟨reply, f'⟩ := answer
    obtain ⟨hkept, hreply⟩ := h reply f' rfl
    exact ⟨hkept, fun reply' heq => FrontendOutcome.ok.inj heq ▸ hreply⟩

/-- **A command leaves in order what is kept, and so is the answer**, also when it fails. -/
theorem Stores.dispatch (hV : Value.Basic V) (hf : f.Stores V C) (hc : c.Carries V C) :
    (f.dispatch c).2.Stores V C ∧ ∀ reply, (f.dispatch c).1 = .ok reply → reply.Carries V C := by
  have hrecord := hf.record hc
  unfold Frontend.dispatch
  dsimp only
  split
  · split
    · split
      · exact runGame_stores hV hrecord _
      · exact ⟨hrecord, nofun⟩
    · exact carryOut_stores hrecord (dispatchGame_stores hV hrecord hc)
  · split
    · split
      · exact runWindow_stores hV hrecord _
      · exact ⟨hrecord, nofun⟩
    · exact carryOut_stores hrecord (dispatchUi_stores hV hrecord hc)

end Frontend

/-! ## Questions to the machine -/

/-- The frontend after a question. -/
def Prim.frontendAfter (s : Screen) : {α : Type} → Prim α → Screen
  | _, dispatch c => (s.dispatch c).2
  | _, _ => s

/-- **Only commands reach the frontend.** -/
theorem Prim.frontend_exec {α : Type} (p : Prim α) (m : Machine) :
    (p.exec m).2.frontend = p.frontendAfter m.frontend := by
  cases p with
  | lookup name =>
    rw [Prim.exec_lookup]
    cases m.resolveName? name <;> rfl
  | target name =>
    show (Exec.ofExcept (m.callTarget name) m).2.frontend = _
    cases m.callTarget name <;> rfl
  | entry name =>
    dsimp only [Prim.exec]
    cases m.registry.get? name <;> rfl
  | host what args =>
    -- what built-in functions ask of the machine is put together from parts that leave the frontend
    have hparts := Exec.host_of_parts (P := fun x => ∀ m, (x m).2.frontend = m.frontend)
      (fun r _ => by cases r <;> rfl) (fun {α β x f} hx hf m => ?_) (fun _ _ => rfl) (fun _ _ => rfl)
      (fun prompt m => ?_) (fun _ => rfl) what args
    · exact hparts m
    · rw [Exec.bind_apply]
      have h := hx m
      revert h
      rcases x m with ⟨e | a, m'⟩ <;> intro h
      · exact h
      · exact (hf a m').trans h
    · unfold Exec.readLine
      dsimp only
      repeat' split
      all_goals rfl
  | callMember ref member args =>
    dsimp only [Prim.exec, Exec.callMember]
    rcases m.hosts.call m.reading ref member args with ⟨_ | _, _⟩ <;> rfl
  | contain path =>
    dsimp only [Prim.exec, Exec.contain]
    rcases Resolver.resolveFirst m.resolvers path m.hosts with ⟨_ | _, _, _⟩ <;> rfl
  | passthrough language code =>
    show (Exec.passthrough language code m).2.frontend = _
    rcases Exec.passthrough_cases language code m with ⟨c, hrun, -⟩ | ⟨run, engines, -, hrun⟩ <;> rw [hrun] <;> rfl
  | dispatch c =>
    dsimp only [Prim.exec, Exec.dispatch, Prim.frontendAfter]
    rcases m.frontend.dispatch c with ⟨_ | _ | _, _⟩ <;> rfl
  | registered _ | assign _ _ | define _ _ | defineUser _ _ _ | writeLine _ | glance => rfl

/-- What a command answers. -/
theorem Prim.dispatch_answer {c : FrontendCommand} {m : Machine} {reply : FrontendReply}
    (h : ((Prim.dispatch c).exec m).1 = .ok reply) : (m.frontend.dispatch c).1 = .ok reply := by
  dsimp only [Prim.exec, Exec.dispatch] at h
  revert h
  rcases m.frontend.dispatch c with ⟨_ | _ | _, _⟩ <;> intro h
  · nomatch h
  · exact congrArg FrontendOutcome.ok (Except.ok.inj h)
  · nomatch h

end Helios
