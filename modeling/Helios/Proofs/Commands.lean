import Mathlib.Data.List.Forall2
import Helios.Proofs.Confinement
import Helios.Proofs.FailedCommand

/-!
# Commands — the parser and the frontend agree on the table of verbs

`Verb.all` says what each verb takes. The parser reads a command by it, so every command in an accepted program
conforms to a verb of the table (`CommandStmt.Conforms`, `Stmt.command_gives`). The evaluator makes a command with
values of it: one for each position, and a callback when there is a `do` (`Exec.length_evalPositionals`,
`Exec.callback_evalClauses`). The frontend knows the verbs once more, one by one, and looks at positions and callbacks
as it needs them. That it never finds one missing is a matter of the table alone
(`FrontendOutcome.OnlyExpected.dispatch`): what is
left to go wrong is in the frontend's state or in the values (`FrontendError.Expected`).
-/

namespace Helios

/-! ## Commands that conform to the table -/

/-- A position holds what its slot asks for. -/
inductive Slot.Holds : Slot → Positional → Prop
  | name (s : String) : Holds .name (.name s)
  | expr (e : Expr) : Holds .expr (.expr e)

/-- **A clause is complete**: a clause of values has as many as its word asks for. -/
inductive Clause.Complete : Clause → Prop
  | values {kind : ClauseKind} {es : List Expr} (hinto : kind ≠ .into_) (hdo : kind ≠ .do_)
    (h : es.length = kind.valueCount) : Complete (.values kind es)
  | into (name : String) : Complete (.into name)
  | run (function : String) (args : List Expr) : Complete (.run function args)

/-- **A command conforms to a verb** of the table: its positions are filled with what the slots ask for, it has the
    clauses that are required, others only if the verb takes them, none twice, and all of them complete. -/
structure CommandStmt.Conforms (c : CommandStmt) (v : Verb) : Prop where
  listed : v ∈ Verb.all
  surface : v.surface = c.surface
  name : v.name = c.verb
  positionals : List.Forall₂ Slot.Holds v.slots c.positionals
  taken : ∀ cl ∈ c.clauses, v.takes cl.kind = true
  once : (c.clauses.map Clause.kind).Nodup
  required : ∀ k ∈ v.required, ∃ cl ∈ c.clauses, cl.kind = k
  complete : ∀ cl ∈ c.clauses, cl.Complete

namespace Verb

/-- A verb that is found is the one of that name. -/
theorem of_find? {surface : Surface} {name : String} {v : Verb} (h : find? surface name = some v) :
    v ∈ all ∧ v.surface = surface ∧ v.name = name := by
  have hmatches := List.find?_some h
  rw [Bool.and_eq_true, beq_iff_eq, beq_iff_eq] at hmatches
  exact ⟨List.mem_of_find?_eq_some h, hmatches⟩

/-- No surface has two verbs of one name. -/
theorem find?_of_mem : ∀ v ∈ all, find? v.surface v.name = some v := by decide +kernel

end Verb

theorem Parse.Gives.mono {α : Type} {x : Parse α} {P Q : α → Prop} (hx : x.Gives P) (h : ∀ a, P a → Q a) :
    x.Gives Q := fun c a ha => h a (hx c a ha)

namespace Stmt

open Parse

theorem positionals_gives (v : Verb) (index : Nat) (slots : List Slot) :
    (positionals v index slots).Gives fun ps => List.Forall₂ Slot.Holds slots ps := by
  induction slots generalizing index with
  | nil => exact .pure .nil
  | cons slot slots ih =>
    unfold positionals
    refine .seq fun kind => .seq fun atEnd => ?_
    dsimp only
    split
    · exact .fail _
    · cases slot with
      | name =>
        refine ((Gives.any literalName).map (Q := Slot.Holds .name) fun s _ => .name s).bind fun p hp => ?_
        exact (ih (index + 1)).bind fun rest hrest => .pure (.cons hp hrest)
      | expr =>
        refine ((Gives.any Expr.commandArg).map (Q := Slot.Holds .expr) fun e _ => .expr e).bind fun p hp => ?_
        exact (ih (index + 1)).bind fun rest hrest => .pure (.cons hp hrest)

theorem clauseValues_gives (kind : ClauseKind) (n : Nat) : (clauseValues kind n).Gives fun es => es.length = n := by
  induction n with
  | zero => exact .pure rfl
  | succ n ih =>
    unfold clauseValues
    refine .seq fun atEnd => ?_
    split
    · exact .fail _
    · refine .seq fun e => ih.bind fun rest hrest => .pure ?_
      rw [List.length_cons, hrest]

theorem clauseBody_gives (kind : ClauseKind) : (clauseBody kind).Gives fun cl => cl.kind = kind ∧ cl.Complete := by
  unfold clauseBody
  split
  · exact .seq fun name => .pure ⟨rfl, .into _⟩
  · exact .seq fun function => .seq fun args => .pure ⟨rfl, .run _ _⟩
  · rename_i hinto hdo
    exact (clauseValues_gives kind kind.valueCount).bind fun es hes => .pure ⟨rfl, .values hinto hdo hes⟩

theorem clause_gives (v : Verb) (before : List ClauseKind) :
    (clause v before).Gives fun cl => v.takes cl.kind = true ∧ cl.kind ∉ before ∧ cl.Complete := by
  unfold clause
  refine .seq fun t => ?_
  split
  · exact .fail _
  · rename_i kind _
    split
    · exact .failAt _ _
    · rename_i htaken
      split
      · exact .failAt _ _
      · rename_i hnew
        refine .seq fun _ => (clauseBody_gives kind).mono fun cl ⟨hkind, hcomplete⟩ => ?_
        rw [hkind]
        exact ⟨by simpa using htaken, by simpa using hnew, hcomplete⟩

/-- Each clause is compared with those before it. -/
theorem clauses_gives (v : Verb) (fuel : Nat) (before : List ClauseKind) :
    (clauses v fuel before).Gives fun cs => (cs.map Clause.kind).Nodup ∧
      ∀ cl ∈ cs, v.takes cl.kind = true ∧ cl.kind ∉ before ∧ cl.Complete := by
  induction fuel generalizing before with
  | zero => exact .exhausted
  | succ fuel ih =>
    unfold clauses
    refine .seq fun atEnd => ?_
    split
    · exact .pure ⟨List.nodup_nil, nofun⟩
    · refine (clause_gives v before).bind fun cl hcl => ?_
      -- the rest is parsed with this clause among those before it, and so has no other of its kind
      refine (ih (cl.kind :: before)).bind fun rest ⟨hnodup, hrest⟩ => .pure ⟨?_, ?_⟩
      · refine List.nodup_cons.mpr ⟨fun hmem => ?_, hnodup⟩
        obtain ⟨cl', hcl', hsame⟩ := List.mem_map.mp hmem
        refine (hrest cl' hcl').2.1 ?_
        rw [hsame]
        exact List.mem_cons_self
      · refine List.forall_mem_cons.mpr ⟨hcl, fun cl' hcl' => ?_⟩
        obtain ⟨htaken, hnew, hcomplete⟩ := hrest cl' hcl'
        exact ⟨htaken, fun hmem => hnew (List.mem_cons_of_mem _ hmem), hcomplete⟩

/-- **The parser of commands reads them by the table.** -/
theorem command_gives (surface : Surface) : (command_ surface).Gives fun c => ∃ v, c.Conforms v := by
  unfold command_
  refine .seq fun t => ?_
  split
  · split
    · exact .failAt _ _
    · rename_i v hfind
      obtain ⟨hlisted, hsurface, -⟩ := Verb.of_find? hfind
      refine .seq fun _ => (positionals_gives v 0 v.slots).bind fun ps hps => ?_
      refine Gives.bind (.here fun c => clauses_gives v c.fuel []) fun cs ⟨honce, hcs⟩ => ?_
      split
      · exact .fail _
      · rename_i hrequired
        refine .pure ⟨v, hlisted, hsurface, rfl, hps, fun cl hcl => (hcs cl hcl).1, honce, fun k hk => ?_,
          fun cl hcl => (hcs cl hcl).2.2⟩
        have hpresent := List.find?_eq_none.mp hrequired k hk
        simpa using hpresent
  · exact .fail _

end Stmt

theorem CommandStmt.Parsed.conforms {c : CommandStmt} (h : c.Parsed) : ∃ v, c.Conforms v := by
  obtain ⟨surface, c₀, c₁, hrun⟩ := h
  exact Stmt.command_gives surface c₀ c (congrArg Prod.fst hrun)

/-! ## Commands with their values -/

/-- **A command that a verb can work with**: there is a value for every position, and a callback if one is
    required. -/
structure FrontendCommand.Serves (c : FrontendCommand) (v : Verb) : Prop where
  found : Verb.find? c.surface c.verb = some v
  args : c.args.length = v.slots.length
  callback : .do_ ∈ v.required → c.callback.isSome = true

/-- **The command that a statement issues** when it is executed: its positions and clauses are evaluated one after the
    other, and then the machine is `m'`. -/
def CommandStmt.Issues (c : CommandStmt) (n : Nat) (m m' : Machine) (issued : FrontendCommand) : Prop :=
  ∃ args m₁ parts, Exec.evalPositionals n c.positionals m = (.ok args, m₁) ∧
    Exec.evalClauses n {} c.clauses m₁ = (.ok parts, m') ∧
    issued = ⟨c.surface, c.verb, args, parts.clauses, parts.callback⟩

namespace Exec

variable {α β : Type}

theorem bind_eq_ok {x : Exec α} {f : α → Exec β} {m m' : Machine} {b : β} :
    (x >>= f) m = (.ok b, m') ↔ ∃ a m₁, x m = (.ok a, m₁) ∧ f a m₁ = (.ok b, m') := by
  rw [bind_apply]
  constructor
  · rcases x m with ⟨e | a, m₁⟩ <;> intro h
    · nomatch h
    · exact ⟨a, m₁, rfl, h⟩
  · rintro ⟨a, m₁, hx, h⟩
    rw [hx]
    exact h

/-- Every position has its value. -/
theorem length_evalPositionals {n : Nat} {ps : List Positional} {m m' : Machine} {vs : List Value}
    (h : evalPositionals n ps m = (.ok vs, m')) : vs.length = ps.length := by
  induction ps generalizing n m m' vs with
  | nil =>
    cases n with
    | zero => nomatch h
    | succ n =>
      cases h
      rfl
  | cons p ps ih =>
    cases n with
    | zero => nomatch h
    | succ n =>
      cases p with
      | name s =>
        obtain ⟨rest, m₁, hrest, h⟩ := bind_eq_ok.mp h
        cases h
        rw [List.length_cons, List.length_cons, ih hrest]
      | expr e =>
        obtain ⟨v, m₁, -, h⟩ := bind_eq_ok.mp h
        obtain ⟨rest, m₂, hrest, h⟩ := bind_eq_ok.mp h
        cases h
        rw [List.length_cons, List.length_cons, ih hrest]

/-- A clause that names a function leaves a callback, and none takes it away. -/
theorem callback_evalClauses {n : Nat} {parts parts' : CommandParts} {cs : List Clause} {m m' : Machine}
    (h : evalClauses n parts cs m = (.ok parts', m'))
    (hcallback : parts.callback.isSome = true ∨ ∃ function args, .run function args ∈ cs) :
    parts'.callback.isSome = true := by
  induction cs generalizing n parts m with
  | nil =>
    cases n with
    | zero => nomatch h
    | succ n =>
      cases h
      exact hcallback.resolve_right nofun
  | cons c rest ih =>
    cases n with
    | zero => nomatch h
    | succ n =>
      cases c with
      | values kind es =>
        obtain ⟨vs, m₁, -, h⟩ := bind_eq_ok.mp h
        exact ih h (by simpa using hcallback)
      | into name => exact ih h (by simpa using hcallback)
      | run function args =>
        obtain ⟨known, m₁, -, h⟩ := bind_eq_ok.mp h
        split at h
        · obtain ⟨vs, m₂, -, h⟩ := bind_eq_ok.mp h
          exact ih h (.inl rfl)
        · nomatch h

end Exec

/-- **A command in an accepted program serves its verb** once it is evaluated. -/
theorem CommandStmt.Conforms.serves {c : CommandStmt} {v : Verb} (hc : c.Conforms v) {n : Nat} {m m' : Machine}
    {issued : FrontendCommand} (h : c.Issues n m m' issued) : issued.Serves v := by
  obtain ⟨args, m₁, parts, hargs, hparts, rfl⟩ := h
  refine ⟨?_, ?_, fun hdo => ?_⟩
  · rw [← hc.surface, ← hc.name]
    exact Verb.find?_of_mem v hc.listed
  · rw [hc.positionals.length_eq]
    exact Exec.length_evalPositionals hargs
  · obtain ⟨cl, hcl, hkind⟩ := hc.required .do_ hdo
    refine Exec.callback_evalClauses hparts (.inr ?_)
    cases hc.complete cl hcl with
    | values hinto hnot hlength => exact absurd hkind hnot
    | into name => nomatch hkind
    | run function args => exact ⟨function, args, hcl⟩

/-! ## What may still go wrong -/

/-- **What may go wrong with a command of an accepted program**: a window or widget is not there, no game window is
    open, or a value is not the number that it has to be. -/
inductive FrontendError.Expected : FrontendError → Prop
  | window (name : String) : Expected (.unknown "window" name)
  | widget (name : String) : Expected (.unknown "widget" name)
  | noGameWindow (command : String) : Expected (.failed command .noGameWindow)
  | notANumber (command got : String) : Expected (.failed command (.notANumber got))
  | placeNotNumbers (command : String) : Expected (.failed command .placeNotNumbers)
  | frameCount (command got : String) : Expected (.failed command (.frameCount got))

/-- Nothing else goes wrong. -/
structure OnlyExpected {α : Type} (r : Except FrontendError α) : Prop where
  expected : ∀ e, r = .error e → e.Expected

namespace OnlyExpected

variable {α β : Type} {f : Frontend} {c : FrontendCommand}

theorem ok (a : α) : OnlyExpected (.ok a) := ⟨nofun⟩

theorem error {e : FrontendError} (h : e.Expected) : OnlyExpected (.error e : Except FrontendError α) :=
  ⟨fun _ he => Except.error.inj he ▸ h⟩

theorem bind {x : Except FrontendError α} {k : α → Except FrontendError β} (hx : OnlyExpected x)
    (hk : ∀ a, OnlyExpected (k a)) : OnlyExpected (x >>= k) := by
  cases x with
  | error e => exact error (hx.expected e rfl)
  | ok a => exact hk a

/-- A position that is filled has a value. -/
theorem arg {i : Nat} (hi : i < c.args.length) : OnlyExpected (c.arg i) := by
  unfold FrontendCommand.arg
  rw [List.getElem?_eq_getElem hi]
  exact ok _

theorem nameAt {i : Nat} (hi : i < c.args.length) : OnlyExpected (c.nameAt i) := by
  unfold FrontendCommand.nameAt FrontendCommand.arg
  rw [List.getElem?_eq_getElem hi]
  exact ok _

theorem window (name : String) : OnlyExpected (f.window name) := by
  unfold Frontend.window
  cases f.windows.get? name with
  | none => exact error (.window name)
  | some w => exact ok w

theorem widget (name : String) : OnlyExpected (f.widget name) := by
  unfold Frontend.widget
  cases f.widgets.get? name with
  | none => exact error (.widget name)
  | some w => exact ok w

theorem updateWindow (hc : 0 < c.args.length) (change : Window → Window) :
    OnlyExpected (f.updateWindow c change) :=
  bind (nameAt hc) fun name => bind (window name) fun _ => ok _

theorem updateWidget (hc : 0 < c.args.length) (change : Widget → Widget) :
    OnlyExpected (f.updateWidget c change) :=
  bind (nameAt hc) fun name => bind (widget name) fun _ => ok _

theorem addWidget (hc : 1 < c.args.length) (text value : Value) : OnlyExpected (f.addWidget c text value) :=
  bind (nameAt (Nat.lt_of_succ_lt hc)) fun window => bind (OnlyExpected.window window) fun _ =>
    bind (nameAt hc) fun _ => ok _

theorem requireGame : OnlyExpected (f.requireGame c) := by
  unfold Frontend.requireGame
  split
  · exact ok ()
  · exact error (.noGameWindow _)

theorem checkNumbers (vs : List Value) : OnlyExpected (Frontend.checkNumbers c vs) := by
  induction vs with
  | nil => exact ok ()
  | cons v rest ih =>
    unfold Frontend.checkNumbers FrontendCommand.checkNumber
    refine bind ?_ fun _ => ih
    split
    · exact ok ()
    · exact error (.notANumber _ _)

theorem frameCount : OnlyExpected (Frontend.frameCount c) := by
  unfold Frontend.frameCount
  split
  · split
    · split
      · exact ok _
      · exact error (.frameCount _ _)
    · exact error (.frameCount _ _)
  · exact ok 1

end OnlyExpected

namespace FrontendCommand.Serves

variable {c : FrontendCommand} {v : Verb}

/-- A position that the verb of that name has is filled. -/
theorem filled (h : c.Serves v) {surface : Surface} {name : String} (hs : c.surface = surface) (hv : c.verb = name)
    {i : Nat} (hi : i < (Verb.find? surface name).elim 0 (·.slots.length)) : i < c.args.length := by
  have hfound := h.found
  rw [hs, hv] at hfound
  rw [hfound] at hi
  rw [h.args]
  exact hi

/-- A callback that the verb of that name requires is there. -/
theorem called (h : c.Serves v) {surface : Surface} {name : String} (hs : c.surface = surface) (hv : c.verb = name)
    (hdo : .do_ ∈ (Verb.find? surface name).elim [] Verb.required) : ∃ cb, c.callback = some cb := by
  have hfound := h.found
  rw [hs, hv] at hfound
  rw [hfound] at hdo
  exact Option.isSome_iff_exists.mp (h.callback hdo)

theorem mem_names (h : c.Serves v) {surface : Surface} (hs : c.surface = surface) :
    c.verb ∈ (Verb.all.filter (·.surface == surface)).map Verb.name := by
  obtain ⟨hlisted, hsurface, hname⟩ := Verb.of_find? h.found
  refine List.mem_map.mpr ⟨v, List.mem_filter.mpr ⟨hlisted, ?_⟩, hname⟩
  rw [hsurface, hs]
  exact beq_self_eq_true surface

end FrontendCommand.Serves

namespace OnlyExpected

variable {c : FrontendCommand} {v : Verb}

/-- **Commands to windows and widgets**: the verbs that are told apart are those of the table, and each asks for
    positions and callbacks that it has there. -/
theorem dispatchUi (f : Frontend) (h : c.Serves v) (hs : c.surface = .ui) (hrun : c.verb ≠ "run") :
    OnlyExpected (f.dispatchUi c) := by
  unfold Frontend.dispatchUi
  split
  case h_1 hv => exact bind (nameAt (h.filled hs hv (by decide))) fun name => ok _
  case h_2 hv => exact bind (arg (h.filled hs hv (by decide))) fun _ => updateWindow (h.filled hs hv (by decide)) _
  case h_3 hv =>
    exact bind (arg (h.filled hs hv (by decide))) fun _ => bind (arg (h.filled hs hv (by decide))) fun _ =>
      updateWindow (h.filled hs hv (by decide)) _
  case h_4 hv => exact bind (arg (h.filled hs hv (by decide))) fun _ => updateWindow (h.filled hs hv (by decide)) _
  case h_5 hv => exact bind (arg (h.filled hs hv (by decide))) fun _ => updateWindow (h.filled hs hv (by decide)) _
  case h_6 hv => exact bind (arg (h.filled hs hv (by decide))) fun _ => addWidget (h.filled hs hv (by decide)) _ _
  case h_7 hv => exact bind (arg (h.filled hs hv (by decide))) fun _ => addWidget (h.filled hs hv (by decide)) _ _
  case h_8 hv => exact addWidget (h.filled hs hv (by decide)) _ _
  case h_9 hv => exact addWidget (h.filled hs hv (by decide)) _ _
  case h_10 hv => exact bind (arg (h.filled hs hv (by decide))) fun _ => addWidget (h.filled hs hv (by decide)) _ _
  case h_11 hv =>
    obtain ⟨cb, hcb⟩ := h.called hs hv (by decide)
    rw [hcb]
    exact bind (nameAt (h.filled hs hv (by decide))) fun window => bind (OnlyExpected.window window) fun _ =>
      bind (nameAt (h.filled hs hv (by decide))) fun _ => ok _
  case h_12 hv => exact bind (arg (h.filled hs hv (by decide))) fun _ => updateWidget (h.filled hs hv (by decide)) _
  case h_13 hv => exact bind (arg (h.filled hs hv (by decide))) fun _ => updateWidget (h.filled hs hv (by decide)) _
  case h_14 hv => exact bind (nameAt (h.filled hs hv (by decide))) fun name => bind (widget name) fun _ => ok _
  case h_15 =>
    -- no verb of the table is left over
    have hname := h.mem_names hs
    have hnames : (Verb.all.filter (·.surface == .ui)).map Verb.name = ["window", "title", "size", "bg", "fg", "label",
        "button", "entry", "slider", "checkbox", "bind", "text", "set", "get", "run"] := by decide
    rw [hnames] at hname
    simp_all

/-- **Commands to the game.** -/
theorem dispatchGame (f : Frontend) (h : c.Serves v) (hs : c.surface = .game) (hrun : c.verb ≠ "run") :
    OnlyExpected (f.dispatchGame c) := by
  unfold Frontend.dispatchGame
  split
  case h_1 hv =>
    exact bind (arg (h.filled hs hv (by decide))) fun _ => bind (arg (h.filled hs hv (by decide))) fun _ =>
      bind (checkNumbers _) fun _ => ok _
  case h_2 => exact bind requireGame fun _ => ok _
  case h_3 => exact bind requireGame fun _ => ok _
  case h_4 => exact bind requireGame fun _ => bind (checkNumbers _) fun _ => ok _
  case h_5 => exact bind requireGame fun _ => bind (checkNumbers _) fun _ => ok _
  case h_6 => exact bind requireGame fun _ => bind (checkNumbers _) fun _ => ok _
  case h_7 =>
    refine bind requireGame fun _ => ?_
    split
    · split
      · exact ok _
      · exact error (.placeNotNumbers _)
    · exact ok _
  case h_8 hv =>
    obtain ⟨cb, hcb⟩ := h.called hs hv (by decide)
    rw [hcb]
    exact bind (nameAt (h.filled hs hv (by decide))) fun _ => ok _
  case h_9 => exact ok _
  case h_10 => exact ok _
  case h_11 =>
    have hname := h.mem_names hs
    have hnames : (Verb.all.filter (·.surface == .game)).map Verb.name = ["window", "clear", "rect", "circle", "line",
        "text", "sound", "key", "tick", "run", "quit"] := by decide
    rw [hnames] at hname
    simp_all

theorem gameRun (f : Frontend) : OnlyExpected (f.gameRun c) := bind requireGame fun _ => frameCount

theorem windowRun (f : Frontend) (h : c.Serves v) (hs : c.surface = .ui) (hrun : c.verb = "run") :
    OnlyExpected (f.windowRun c) :=
  bind (nameAt (h.filled hs hrun (by decide))) fun name => bind (OnlyExpected.window name) fun _ => ok _

end OnlyExpected

namespace FrontendOutcome

/-- What becomes of a command is an expected failure, if it is a failure at all. -/
def OnlyExpected (o : FrontendOutcome) : Prop := ∀ e, o = .error e → e.Expected

namespace OnlyExpected

variable {c : FrontendCommand} {v : Verb}

theorem error {e : FrontendError} (h : e.Expected) : (error e).OnlyExpected :=
  fun _ he => FrontendOutcome.error.inj he ▸ h

/-- Running a window may come to a click on a widget that is not there. -/
theorem runWindow (f : Frontend) (window : String) : (f.runWindow window).1.OnlyExpected := by
  unfold Frontend.runWindow
  dsimp only
  split
  · exact error (.widget _)
  · nofun

theorem carryOut (f : Frontend) {effect : Frontend.Effect} (h : Helios.OnlyExpected effect) :
    (f.carryOut effect).1.OnlyExpected := by
  cases effect with
  | error e => exact error (h.expected e rfl)
  | ok answer => nofun

/-- **A command that serves its verb fails in expected ways only**, whatever the state of the frontend. -/
theorem dispatch (f : Frontend) (h : c.Serves v) : (f.dispatch c).1.OnlyExpected := by
  unfold Frontend.dispatch
  dsimp only
  split
  · next hs =>
    split
    · have hrun := Helios.OnlyExpected.gameRun (c := c) (f.recorded c)
      split
      · exact fun e he => absurd he (Frontend.runGame_ne_error _ _ e)
      · next e he => exact error (hrun.expected e he)
    · next hrun => exact carryOut _ (.dispatchGame _ h hs hrun)
  · next hs =>
    split
    · next hrun =>
      have hrun := Helios.OnlyExpected.windowRun (f.recorded c) h hs hrun
      split
      · exact runWindow _ _
      · next e he => exact error (hrun.expected e he)
    · next hrun => exact carryOut _ (.dispatchUi _ h hs hrun)

end OnlyExpected

end FrontendOutcome

/-! ## The table -/

/-- When the frontend refuses the command that a statement issues, that is how the statement fails. -/
theorem CommandStmt.Issues.fails {c : CommandStmt} {n : Nat} {m m' : Machine} {issued : FrontendCommand}
    (h : c.Issues n m m' issued) {e : FrontendError} {f : Screen}
    (he : m'.frontend.dispatch issued = (.error e, f)) :
    Exec.execCommand (n + 1) c m = (.error (.failed ⟨e.toCause, .unknown⟩), { m' with frontend := f }) := by
  obtain ⟨args, m₁, parts, hargs, hparts, rfl⟩ := h
  have hdispatch : Exec.dispatch ⟨c.surface, c.verb, args, parts.clauses, parts.callback⟩ m' =
      (.error (.failed ⟨e.toCause, .unknown⟩), { m' with frontend := f }) := by
    unfold Exec.dispatch
    rw [he]
  unfold Exec.execCommand
  rw [Exec.bind_ok hargs, Exec.bind_ok hparts, Exec.bind_error hdispatch]

/-- **The parser and the frontend agree on the table of verbs.** Every command in an accepted program, at any depth,
    conforms to a verb of the table. So whenever such a statement is executed and issues a command, in whatever state
    machine and frontend are, the frontend misses no argument and no callback and knows the verb: what it may find
    wrong is a window or widget that is not there, a game window that is not open, or a value that is not the number it
    has to be, and that is how the statement fails. -/
theorem commands_agree_on_table (source : String) (program : Block) (hp : Stmt.parseProgram source = .ok program)
    (l : Located Stmt) (hl : l ∈ program) (c : CommandStmt) (hc : (Stmt.command c).Within l.node) :
    (∃ v ∈ Verb.all, c.Conforms v) ∧
    ∀ n m m' issued, c.Issues n m m' issued →
      (∀ (f : Frontend) e, (f.dispatch issued).1 = .error e → e.Expected) ∧
      ∀ e f, m'.frontend.dispatch issued = (.error e, f) →
        Exec.execCommand (n + 1) c m = (.error (.failed ⟨e.toCause, .unknown⟩), { m' with frontend := f }) := by
  obtain ⟨fn, loop, hparsed⟩ := Stmt.Parsed.within hc (Stmt.parseProgram_parsed hp l hl)
  have hcommand : c.Parsed := by
    cases hparsed with
    | command h => exact h
  obtain ⟨v, hv⟩ := hcommand.conforms
  refine ⟨⟨v, hv.listed, hv⟩, fun n m m' issued hissues => ⟨fun f e he => ?_, fun e f he => hissues.fails he⟩⟩
  exact FrontendOutcome.OnlyExpected.dispatch f (hv.serves hissues) e he

/-- In a program that gives a title to a window that it never opens, the frontend does not know the window. -/
theorem commands_agree_on_table_title :
    let c : CommandStmt := ⟨.ui, "title", [.name "w", .expr (.literal (.int 1))], []⟩
    let m := Machine.initial .still
    Stmt.parseProgram "ui title w 1" = .ok [⟨1, .command c⟩] ∧
    c.Issues 3 m m ⟨.ui, "title", [.str "w", .int 1], [], none⟩ ∧
    (∃ v ∈ Verb.all, c.Conforms v) ∧
    (Exec.execCommand 4 c m).1 = .error (.failed ⟨.name "w", .unknown⟩) := by
  intro c m
  have hparse : Stmt.parseProgram "ui title w 1" = .ok [⟨1, .command c⟩] := by
    have hchars : "ui title w 1".toList = ['u', 'i', ' ', 't', 'i', 't', 'l', 'e', ' ', 'w', ' ', '1'] := by simp
    unfold Stmt.parseProgram Token.tokenize Token.scan
    rw [hchars]
    with_unfolding_all rfl
  have hissues : c.Issues 3 m m ⟨.ui, "title", [.str "w", .int 1], [], none⟩ := ⟨_, _, _, rfl, rfl, rfl⟩
  obtain ⟨hconforms, hdispatch⟩ := commands_agree_on_table _ _ hparse _ List.mem_cons_self c .refl
  refine ⟨hparse, hissues, hconforms, ?_⟩
  rw [(hdispatch 3 m m _ hissues).2 (.unknown "window" "w") _ rfl]
  rfl

end Helios
