import Helios.Program
import Helios.Proofs.Stored
import Helios.Proofs.Worlds

/-!
# Callbacks — whatever is called later is there to be called

A callback is stored long before it is run: in a widget, under a key, for the ticks of the game. It is checked when
the command that stores it is evaluated, and functions never go away, so it still names a function when it is run.

The specification (`Registry.Spec.callbacks`) says what the tasks of a command hand on: the clauses known so far hold a
registered callback or none, and so do the callbacks to run. Everything else about plans is trivial here. The
invariant of the frontend is that of `Frontend.Stores`, with windows included, and `Machine.after` is what a machine is
after any number of sources that were run, however they ended, and events that were queued between them.
-/

namespace Helios

/-- The function of a callback is registered. -/
def Callback.Registered (r : Registry) (cb : Callback) : Prop := r.contains cb.function = true

/-- Registered functions stay registered. -/
theorem Callback.Registered.grows {r r' : Registry} (h : r.Grows r') {cb : Callback} (hcb : cb.Registered r) :
    cb.Registered r' := h cb.function hcb

/-- **Everything stored is there**: the functions of all callbacks, and the windows of widgets and bindings. -/
structure Frontend.Grounded (r : Registry) (f : Frontend) : Prop where
  widget : ∀ name w, (name, w) ∈ f.widgets.entries →
    f.windows.contains w.window = true ∧ ∀ cb, w.callback = some cb → cb.Registered r
  binding : ∀ window keys, (window, keys) ∈ f.bindings.entries →
    f.windows.contains window = true ∧ ∀ key cb, (key, cb) ∈ keys.entries → cb.Registered r
  key : ∀ key cb, (key, cb) ∈ f.keys.entries → cb.Registered r
  tick : ∀ cb, f.tick = some cb → cb.Registered r

/-- A frontend that stores registered callbacks is grounded. -/
theorem Frontend.Stores.grounded {V : Value → Prop} {r : Registry} {f : Frontend}
    (h : f.Stores V (Callback.Registered r)) : f.Grounded r where
  widget name w hw :=
    (h.widget name w ((Bindings.get?_eq_some_iff ..).mpr hw)).imp_right fun hw => hw.callback
  binding window keys hkeys :=
    (h.binding window keys ((Bindings.get?_eq_some_iff ..).mpr hkeys)).imp_right fun hkeys key cb hcb =>
      hkeys key cb ((Bindings.get?_eq_some_iff ..).mpr hcb)
  key key cb hcb := h.key key cb ((Bindings.get?_eq_some_iff ..).mpr hcb)
  tick := h.tick

/-! ## The specification -/

/-- The frontend is the one that draws nothing, and what is stored there names functions of the registry. -/
def Machine.Grounded (m : Machine) : Prop :=
  ∃ f, m.frontend = .headless f ∧ f.Stores (fun _ => True) (Callback.Registered m.registry)

/-- **The specification that callbacks are registered**, where they are handed on. -/
def Registry.Spec.callbacks : Registry.Spec where
  Inv := Machine.Grounded
  Pre
    | r, .evalClauses parts _ => ∀ cb ∈ parts.callback, cb.Registered r
    | r, .runCallbacks cbs => ∀ cb ∈ cbs, cb.Registered r
    | _, _ => True
  Post
    | r, .evalClauses _ _, parts => ∀ cb ∈ parts.callback, cb.Registered r
    | _, _, _ => True
  PrimPre
    | r, .dispatch c => ∀ cb ∈ c.callback, cb.Registered r
    | _, _ => True
  PrimPost
    | r, .registered name, known => known = true → r.contains name = true
    | r, .dispatch _, reply => ∀ cb ∈ reply.callbacks, cb.Registered r
    | _, _, _ => True

namespace Callbacks

open Registry.Spec (callbacks)

variable {r : Registry}

theorem bindParams (ps : List String) (vs : List Value) {Q : Registry → Unit → Prop}
    (hQ : ∀ r', Q r' ()) : (Plan.bindParams ps vs).MeetsIn callbacks r Q := by
  induction ps generalizing vs r with
  | nil => exact fun _ _ => hQ r
  | cons p ps ih =>
    cases vs with
    | nil => exact fun _ _ => hQ r
    | cons v vs => exact ⟨trivial, fun _ _ _ _ => ih vs⟩

/-- Expressions send no commands. -/
theorem planEval (e : Expr) : (Task.planEval e).MeetsIn callbacks r fun _ _ => True := by
  cases e with
  | literal l => exact fun _ _ => trivial
  | var name => exact ⟨trivial, fun _ _ _ _ => trivial⟩
  | unary op e => cases op <;> exact ⟨trivial, fun _ _ _ _ _ _ => trivial⟩
  | binary op l r =>
    cases op with
    | and =>
      refine ⟨trivial, fun _ v _ _ => ?_⟩
      dsimp only
      split
      · exact ⟨trivial, fun _ _ _ _ _ _ => trivial⟩
      · exact fun _ _ => trivial
    | or =>
      refine ⟨trivial, fun _ v _ _ => ?_⟩
      dsimp only
      split
      · exact fun _ _ => trivial
      · exact ⟨trivial, fun _ _ _ _ _ _ => trivial⟩
    | _ => exact ⟨trivial, fun _ _ _ _ => ⟨trivial, fun _ _ _ _ _ _ => trivial⟩⟩
  | call callee args => exact ⟨trivial, fun _ _ _ _ => ⟨trivial, fun _ _ _ _ => trivial⟩⟩
  | list items => exact ⟨trivial, fun _ _ _ _ _ _ => trivial⟩
  | dict pairs => exact ⟨trivial, fun _ _ _ _ _ _ => trivial⟩
  | index e i => exact ⟨trivial, fun _ _ _ _ => ⟨trivial, fun _ _ _ _ _ _ => trivial⟩⟩
  | member e name =>
    refine ⟨trivial, fun _ v _ _ => ?_⟩
    cases v with
    | host ref =>
      dsimp only
      cases Hosts.member? ref name <;> exact fun _ _ => trivial
    | _ => exact fun _ _ => trivial

theorem planCallExpr (callee : Expr) (args : List Value) :
    (Task.planCallExpr args callee).MeetsIn callbacks r fun _ _ => True := by
  cases callee with
  | var name => exact ⟨trivial, fun _ _ _ _ => trivial⟩
  | member e name =>
    refine ⟨trivial, fun _ v _ _ => ?_⟩
    cases v with
    | host ref => exact ⟨trivial, fun _ _ _ _ => trivial⟩
    | _ => exact fun _ _ => trivial
  | _ =>
    refine ⟨trivial, fun _ v _ _ => ?_⟩
    cases v with
    | func name => exact ⟨trivial, fun _ _ _ _ => trivial⟩
    | _ => exact fun _ _ => trivial

theorem planCall (name : String) (args : List Value) :
    (Task.planCall name args).MeetsIn callbacks r fun _ _ => True := by
  refine ⟨trivial, fun _ e _ _ _ _ => ?_⟩
  cases e with
  | builtin arity body =>
    cases body with
    | pure body => exact fun _ _ => trivial
    | timed body => exact ⟨trivial, fun _ _ _ _ _ _ => trivial⟩
    | host what => exact ⟨trivial, fun _ _ _ _ => trivial⟩
  | user params body => exact bindParams params args fun _ => ⟨trivial, fun _ _ _ _ _ _ => trivial⟩

theorem planExec (s : Stmt) : (Task.planExec s).MeetsIn callbacks r fun _ _ => True := by
  cases s with
  | assign name e => exact ⟨trivial, fun _ _ _ _ => ⟨trivial, fun _ _ _ _ _ _ => trivial⟩⟩
  | print args => exact ⟨trivial, fun _ _ _ _ => ⟨trivial, fun _ _ _ _ _ _ => trivial⟩⟩
  | branch cond yes no => exact ⟨trivial, fun _ _ _ _ => ⟨trivial, fun _ _ _ _ => trivial⟩⟩
  | while_ cond body => exact ⟨trivial, fun _ _ _ _ => trivial⟩
  | for_ var items body => exact ⟨trivial, fun _ _ _ _ _ _ => ⟨trivial, fun _ _ _ _ => trivial⟩⟩
  | return_ value =>
    cases value with
    | none => exact fun _ _ => trivial
    | some e => exact ⟨trivial, fun _ _ _ _ _ _ => trivial⟩
  | break_ | continue_ => exact fun _ _ => trivial
  | define _ _ _ | call _ _ | contain _ | passthrough _ _ | command _ =>
    exact ⟨trivial, fun _ _ _ _ _ _ => trivial⟩

theorem planAfter {again : Plan (Option Signal)} (h : again.MeetsIn callbacks r fun _ _ => True)
    (signal : Option Signal) : (Task.planAfter again signal).MeetsIn callbacks r fun _ _ => True := by
  rcases signal with _ | (_ | _ | v)
  · exact h
  · exact fun _ _ => trivial
  · exact h
  · exact fun _ _ => trivial

/-- **A callback becomes known only after the check** that its function is registered. -/
theorem planClauses {parts : Exec.CommandParts} (hparts : ∀ cb ∈ parts.callback, cb.Registered r)
    (cs : List Clause) :
    (Task.planClauses parts cs).MeetsIn callbacks r fun r' parts' => ∀ cb ∈ parts'.callback, cb.Registered r' := by
  cases cs with
  | nil => exact fun _ heq => Except.ok.inj heq ▸ hparts
  | cons c rest =>
    cases c with
    | values kind es =>
      exact ⟨trivial, fun r' _ hr _ => ⟨fun cb hcb => (hparts cb hcb).grows hr, fun _ _ _ hpost => hpost⟩⟩
    | into name => exact ⟨hparts, fun _ _ _ hpost => hpost⟩
    | run function args =>
      refine ⟨trivial, fun r' known hr hknown => ?_⟩
      dsimp only
      split
      · rename_i heq
        refine ⟨trivial, fun r'' vs hr' _ => ⟨fun cb hcb => ?_, fun _ _ _ hpost => hpost⟩⟩
        obtain rfl := Option.some.inj hcb
        exact hr' function (hknown heq)
      · exact fun _ h => nomatch h

/-- A command is dispatched with the callback of its clauses, and those it answers with are run. -/
theorem planCommand (c : CommandStmt) : (Task.execCommand c).plan.MeetsIn callbacks r fun _ _ => True := by
  refine ⟨trivial, fun _ args _ _ => ⟨nofun, fun _ parts _ hparts => ⟨hparts, fun r' reply _ hreply => ?_⟩⟩⟩
  cases parts.into with
  | some name => exact ⟨trivial, fun _ _ hr _ => ⟨fun cb hcb => (hreply cb hcb).grows hr, fun _ _ _ _ => trivial⟩⟩
  | none => exact ⟨hreply, fun _ _ _ _ => trivial⟩

/-- Every task, by its plan. -/
theorem plan {α : Type} (t : Task α) (ht : callbacks.Pre r t) :
    t.plan.MeetsIn callbacks r fun r' => callbacks.Post r' t := by
  cases t with
  | eval e => exact planEval e
  | evalAll es =>
    cases es with
    | nil => exact fun _ _ => trivial
    | cons e rest => exact ⟨trivial, fun _ _ _ _ => ⟨trivial, fun _ _ _ _ _ _ => trivial⟩⟩
  | evalPairs made pairs =>
    cases pairs with
    | nil => exact fun _ _ => trivial
    | cons p rest =>
      exact ⟨trivial, fun _ _ _ _ => ⟨trivial, fun _ _ _ _ => ⟨trivial, fun _ _ _ _ => trivial⟩⟩⟩
  | callExpr callee args => exact planCallExpr callee args
  | callName name args => exact ⟨trivial, fun _ _ _ _ => ⟨trivial, fun _ _ _ _ => trivial⟩⟩
  | callFunction name args => exact planCall name args
  | execBlock b =>
    cases b with
    | nil => exact fun _ _ => trivial
    | cons s rest =>
      refine ⟨trivial, fun _ signal _ _ => ?_⟩
      cases signal with
      | some signal => exact fun _ _ => trivial
      | none => exact ⟨trivial, fun _ _ _ _ => trivial⟩
  | execLocated s => exact ⟨trivial, fun _ _ _ _ => trivial⟩
  | exec s => exact planExec s
  | execWhile cond body =>
    refine ⟨trivial, fun _ v _ _ => ?_⟩
    dsimp only
    split
    · refine ⟨trivial, fun _ signal _ _ => planAfter ?_ signal⟩
      exact ⟨trivial, fun _ _ _ _ => trivial⟩
    · exact fun _ _ => trivial
  | execFor var items body =>
    cases items with
    | nil => exact fun _ _ => trivial
    | cons v rest =>
      refine ⟨trivial, fun _ _ _ _ => ⟨trivial, fun _ signal _ _ => planAfter ?_ signal⟩⟩
      exact ⟨trivial, fun _ _ _ _ => trivial⟩
  | execCommand c => exact planCommand c
  | evalPositionals ps =>
    cases ps with
    | nil => exact fun _ _ => trivial
    | cons p rest =>
      cases p with
      | name s => exact ⟨trivial, fun _ _ _ _ _ _ => trivial⟩
      | expr e => exact ⟨trivial, fun _ _ _ _ => ⟨trivial, fun _ _ _ _ _ _ => trivial⟩⟩
  | evalClauses parts cs => exact planClauses ht cs
  | runCallbacks cbs =>
    cases cbs with
    | nil => exact fun _ _ => trivial
    | cons cb rest =>
      -- the first callback may define functions, but it takes none away
      refine ⟨trivial, fun _ _ hr _ => ⟨fun cb' hcb => ?_, fun _ _ _ _ => trivial⟩⟩
      exact (ht cb' (List.mem_cons_of_mem cb hcb)).grows hr

/-- **Callbacks are registered wherever they are handed on**, and what is stored stays grounded. -/
theorem valid : callbacks.Valid where
  inside _ hm := hm
  left _ _ hm := hm
  called _ hm := hm
  returned _ _ hm := hm
  prim {α} p m hp hm := by
    obtain ⟨f, hf, hstores⟩ := hm
    have hlater := hstores.mono fun cb hcb => Callback.Registered.grows (Prim.grows p m) hcb
    have hfrontend := Prim.frontend_exec p m
    rw [hf] at hfrontend
    cases p with
    | dispatch c =>
      have hcarries : c.Carries (fun _ => True) (Callback.Registered m.registry) := ⟨fun _ _ => trivial, fun _ _ _ _ => trivial, hp⟩
      obtain ⟨hkept, hreply⟩ := hstores.dispatch ⟨trivial, fun _ => trivial, trivial⟩ hcarries
      have hregistry := (Prim.Footprint.exec (.dispatch c) m).registry
      refine ⟨⟨_, hfrontend, ?_⟩, fun reply heq => ?_⟩
      · rw [hregistry]
        exact hkept
      · have hanswer := Prim.dispatch_answer heq
        rw [hf] at hanswer
        show ∀ cb ∈ reply.callbacks, cb.Registered ((Prim.dispatch c).exec m).2.registry
        rw [hregistry]
        exact (hreply reply hanswer).callback
    | registered name =>
      refine ⟨⟨f, hfrontend, hlater⟩, fun known heq hknown => ?_⟩
      exact (Except.ok.inj heq).trans hknown
    | _ => exact ⟨⟨f, hfrontend, hlater⟩, fun _ _ => trivial⟩
  plan _ _ t ht := plan t ht

end Callbacks

/-! ## Sessions -/

/-- What is done to a machine from outside: a source is run, or an event is queued. -/
inductive Act
  | run (source : String)
  | queue (e : ScriptedEvent)

namespace Machine

/-- The machine after it; a source that fails has been run too. -/
def act (m : Machine) : Act → Machine
  | .run source => (m.runSource source).2
  | .queue e => m.queueEvent e

/-- **The machine after one act after the other.** -/
def after (m : Machine) (acts : List Act) : Machine := acts.foldl act m

/-- One program, run to its end or to a failure. -/
theorem Grounded.runSource {m : Machine} (h : m.Grounded) (fuel : Nat) (source : String) :
    (Exec.runSource fuel source m).2.Grounded ∧ m.registry.Grows (Exec.runSource fuel source m).2.registry := by
  unfold Exec.runSource
  cases Stmt.parseProgram source with
  | error e => exact ⟨h, .refl _⟩
  | ok program =>
    obtain ⟨hgrounded, hgrows, -⟩ := Callbacks.valid.run fuel (.execBlock program) m.registry trivial m rfl h
    have hstate : (Exec.runBlock fuel program m).2 = ((Task.execBlock program).run fuel m).2 := by
      unfold Exec.runBlock
      rw [Exec.bind_apply]
      show _ = (Exec.execBlock fuel program m).2
      rcases Exec.execBlock fuel program m with ⟨_ | _, _⟩ <;> rfl
    show (Exec.runBlock fuel program m).2.Grounded ∧ m.registry.Grows (Exec.runBlock fuel program m).2.registry
    rw [hstate]
    exact ⟨hgrounded, hgrows⟩

/-- One act of a session. -/
theorem Grounded.act {m : Machine} (h : m.Grounded) (a : Act) :
    (m.act a).Grounded ∧ m.registry.Grows (m.act a).registry := by
  cases a with
  | queue e =>
    obtain ⟨f, hf, hstores⟩ := h
    refine ⟨⟨f.queue e, ?_, hstores.queue e⟩, .refl _⟩
    show m.frontend.queue e = _
    rw [hf]
    rfl
  | run source => exact h.runSource ampleFuel source

/-- **A session, by induction on its acts.** -/
theorem Grounded.after {m : Machine} (h : m.Grounded) (acts : List Act) :
    (m.after acts).Grounded ∧ m.registry.Grows (m.after acts).registry := by
  induction acts generalizing m with
  | nil => exact ⟨h, .refl _⟩
  | cons a acts ih =>
    obtain ⟨hone, hgrows⟩ := h.act a
    obtain ⟨hall, hgrows'⟩ := ih hone
    exact ⟨hall, hgrows.trans hgrows'⟩

end Machine

/-- **A callback that is stored can be called.** Whatever was run on a machine with the frontend that draws nothing,
    which kept nothing then, and whatever events were queued in between: every callback that is stored names a registered function, every widget and
    every binding belongs to a window that exists, and no function was taken away. The same holds at every step of
    whatever program is run next, and the callbacks that a command runs then are found in the registry. -/
theorem stored_callbacks_registered (m : Machine) (hm : m.frontend = .initial) (acts : List Act) :
    (∃ f, (m.after acts).frontend = .headless f ∧ f.Grounded (m.after acts).registry) ∧
      m.registry.Grows (m.after acts).registry ∧
      ∀ program : Block,
        (∀ {α : Type} k (t : Task α) m', t.Reaches k m' Machine.ampleFuel (.execBlock program) (m.after acts) →
          (∃ f, m'.frontend = .headless f ∧ f.Grounded m'.registry) ∧ (m.after acts).registry.Grows m'.registry) ∧
        ∀ k cbs m', (Task.runCallbacks cbs).Reaches k m' Machine.ampleFuel (.execBlock program) (m.after acts) →
          ∀ cb ∈ cbs, ∃ entry, (Prim.entry cb.function).exec m' = (.ok entry, m') := by
  have hstart : m.Grounded := ⟨.initial, hm, .initial⟩
  obtain ⟨hafter, hgrows⟩ := hstart.after acts
  have hgrounded {m : Machine} (h : m.Grounded) : ∃ f, m.frontend = .headless f ∧ f.Grounded m.registry :=
    have ⟨f, hf, hstores⟩ := h
    ⟨f, hf, hstores.grounded⟩
  refine ⟨hgrounded hafter, hgrows, fun program => ⟨fun k t m' hreaches => ?_, fun k cbs m' hreaches => ?_⟩⟩
  · obtain ⟨-, hthere, hgrows'⟩ := Callbacks.valid.reaches (t := .execBlock program) trivial hafter hreaches
    exact ⟨hgrounded hthere, hgrows'⟩
  · obtain ⟨hcbs, -, -⟩ := Callbacks.valid.reaches (t := .execBlock program) trivial hafter hreaches
    intro cb hcb
    obtain ⟨entry, hentry⟩ := Option.isSome_iff_exists.mp (hcbs cb hcb)
    exact ⟨entry, by simp only [Prim.exec, hentry]⟩

/-- A source that parses is run as a program. -/
theorem Machine.act_run {source : String} {program : Block} (h : Stmt.parseProgram source = .ok program) (m : Machine) :
    m.act (.run source) = (Exec.runBlock ampleFuel program m).2 := by
  show (Exec.runSource ampleFuel source m).2 = _
  unfold Exec.runSource
  rw [h]
  rfl

/-- A button whose function is defined anew before it is clicked. -/
def clickedButton : List Act :=
  [.run "solar_def f: end", .run "ui window w", .run "ui button w b 1 at 0 0 do f",
    .run "solar_def f: return end", .queue (.click "b")]

/-- The callback of the button is stored. When the window is run the click comes to it, and its function is there. -/
theorem stored_callbacks_registered_on_click :
    let m := (Machine.initial .still).after clickedButton
    let run : Block := [⟨1, .command ⟨.ui, "run", [.name "w"], []⟩⟩]
    ∃ f w, m.frontend = .headless f ∧ f.widgets.get? "b" = some w ∧ w.callback = some ⟨"f", []⟩ ∧
      Callback.Registered m.registry ⟨"f", []⟩ ∧
      ∃ k m' entry, (Task.runCallbacks [⟨"f", []⟩]).Reaches k m' Machine.ampleFuel (.execBlock run) m ∧
        (Prim.entry "f").exec m' = (.ok entry, m') := by
  -- the four programs, parsed
  have hdefine : Stmt.parseProgram "solar_def f: end" = .ok [⟨1, .define "f" [] []⟩] := by
    have hchars : "solar_def f: end".toList =
        ['s', 'o', 'l', 'a', 'r', '_', 'd', 'e', 'f', ' ', 'f', ':', ' ', 'e', 'n', 'd'] := by simp
    unfold Stmt.parseProgram Token.tokenize Token.scan
    rw [hchars]
    with_unfolding_all rfl
  have hwindow : Stmt.parseProgram "ui window w" = .ok [⟨1, .command ⟨.ui, "window", [.name "w"], []⟩⟩] := by
    have hchars : "ui window w".toList = ['u', 'i', ' ', 'w', 'i', 'n', 'd', 'o', 'w', ' ', 'w'] := by simp
    unfold Stmt.parseProgram Token.tokenize Token.scan
    rw [hchars]
    with_unfolding_all rfl
  have hbutton : Stmt.parseProgram "ui button w b 1 at 0 0 do f" =
      .ok [⟨1, .command ⟨.ui, "button", [.name "w", .name "b", .expr (.literal (.int 1))],
        [.values .at_ [.literal (.int 0), .literal (.int 0)], .run "f" []]⟩⟩] := by
    have hchars : "ui button w b 1 at 0 0 do f".toList = ['u', 'i', ' ', 'b', 'u', 't', 't', 'o', 'n', ' ', 'w', ' ',
        'b', ' ', '1', ' ', 'a', 't', ' ', '0', ' ', '0', ' ', 'd', 'o', ' ', 'f'] := by simp
    unfold Stmt.parseProgram Token.tokenize Token.scan
    rw [hchars]
    with_unfolding_all rfl
  have hanew : Stmt.parseProgram "solar_def f: return end" = .ok [⟨1, .define "f" [] [⟨1, .return_ none⟩]⟩] := by
    have hchars : "solar_def f: return end".toList = ['s', 'o', 'l', 'a', 'r', '_', 'd', 'e', 'f', ' ', 'f', ':', ' ',
        'r', 'e', 't', 'u', 'r', 'n', ' ', 'e', 'n', 'd'] := by simp
    unfold Stmt.parseProgram Token.tokenize Token.scan
    rw [hchars]
    with_unfolding_all rfl
  intro m run
  -- what is said of any acts, said of these
  obtain ⟨⟨f, hf, hgrounded⟩, -, hnext⟩ := stored_callbacks_registered (Machine.initial .still) rfl clickedButton
  have hm : m = ((Exec.runBlock Machine.ampleFuel [⟨1, .define "f" [] [⟨1, .return_ none⟩]⟩]
      (Exec.runBlock Machine.ampleFuel [⟨1, .command ⟨.ui, "button", [.name "w", .name "b", .expr (.literal (.int 1))],
          [.values .at_ [.literal (.int 0), .literal (.int 0)], .run "f" []]⟩⟩]
        (Exec.runBlock Machine.ampleFuel [⟨1, .command ⟨.ui, "window", [.name "w"], []⟩⟩]
          (Exec.runBlock Machine.ampleFuel [⟨1, .define "f" [] []⟩] (Machine.initial .still)).2).2).2).2.queueEvent
            (.click "b")) := by
    unfold m Machine.after clickedButton
    simp only [List.foldl_cons, List.foldl_nil, Machine.act_run hdefine, Machine.act_run hwindow,
      Machine.act_run hbutton, Machine.act_run hanew]
    rfl
  -- the callback is stored with the button
  have hwidget : ∃ f, m.frontend = .headless f ∧
      f.widgets.get? "b" = some ⟨"w", "button", .int 1, .nil, some ⟨"f", []⟩⟩ := by
    rw [hm]
    exact ⟨_, rfl, rfl⟩
  -- running the window comes to it: a block, its statement, the command, and then the callbacks
  have hreaches : ∃ k m', (Task.runCallbacks [⟨"f", []⟩]).Reaches k m' Machine.ampleFuel (.execBlock run) m := by
    rw [hm]
    exact ⟨_, _, .step (.first .start) (.step (.atLine .start) (.step (.first .start)
      (.step (.next rfl (.next rfl (.next rfl .start))) .here)))⟩
  obtain ⟨f', hf', hget⟩ := hwidget
  obtain rfl := Screen.headless.inj (hf.symm.trans hf')
  obtain ⟨k, m', hreaches⟩ := hreaches
  obtain ⟨entry, hentry⟩ := (hnext run).2 k _ m' hreaches _ List.mem_cons_self
  have hwidget := hgrounded.widget "b" _ ((Bindings.get?_eq_some_iff ..).mp hget)
  exact ⟨f, _, hf, hget, rfl, hwidget.2 _ rfl, k, m', entry, hreaches, hentry⟩

end Helios
