import Helios.Eval
import Helios.Module
import Helios.Proofs.Safety

/-!
# Paths — built-in functions on every path that calls them

A built-in function is called by the evaluator, through the registry; by a block of another language, through the table
of functions that such a block sees; and as a member of a module that passes it on. Each of the three has its own copy of
the argument counts and of the body, and all are copies of the one table of built-in functions (`Registry.mem_table`,
`FunctionTable.mem_table`, `Module.mem_table`).

Each path compares the number of arguments with the counts before the body runs. So the evaluator and a block of another
language get the same from a pure function that the program does not define anew, and the machine is as before.
-/

namespace Helios

/-! ## The table -/

theorem Bindings.lookup_of_mem {α : Type} {es : List (String × α)} (h : (es.map Prod.fst).Nodup) {name : String} {v : α}
    (he : (name, v) ∈ es) : lookup name es = some v := by
  induction es with
  | nil => cases he
  | cons e es ih =>
    obtain ⟨hnew, hes⟩ := List.nodup_cons.mp h
    unfold lookup
    rcases List.mem_cons.mp he with rfl | he
    · exact if_pos rfl
    · have hne : e.1 ≠ name := by
        intro heq
        apply hnew
        rw [heq]
        exact List.mem_map_of_mem he
      rw [if_neg hne]
      exact ih hes he

namespace Builtin

variable {regex : Regex} {name : String} {arity : Arity} {body : BuiltinBody} {wall : Float} {run : PureBody}

/-- No name stands twice in the table. The reader of expressions does not matter. -/
theorem names_nodup (regex : Regex) : ((table regex).map Prod.fst).Nodup := by
  show ((table Platform.still.regex).map Prod.fst).Nodup
  decide +kernel

theorem unique {e e' : Arity × BuiltinBody} (h : (name, e) ∈ table regex) (h' : (name, e') ∈ table regex) : e = e' := by
  have hlookup := Bindings.lookup_of_mem (names_nodup regex) h
  rw [Bindings.lookup_of_mem (names_nodup regex) h'] at hlookup
  exact (Option.some.inj hlookup).symm

/-- The names of the functions that do not need the running program. -/
def pureNames : List String :=
  (table Platform.still.regex).filterMap fun e => (e.2.2.pure? 0.0).map fun _ => e.1

theorem mem_pureNames (h : (name, arity, body) ∈ table regex) (hrun : body.pure? wall = some run) : name ∈ pureNames := by
  show name ∈ (table regex).filterMap fun e => (e.2.2.pure? 0.0).map fun _ => e.1
  refine List.mem_filterMap.mpr ⟨_, h, ?_⟩
  cases body with
  | pure run => rfl
  | timed run => rfl
  | host what => cases hrun

end Builtin

/-! ## The registry of a program -/

namespace Registry

open Builtin (table)

/-- **The registry of a program**: the built-in functions, and what the program defines over them one after the other, a
    name with parameters and a body. -/
def ofProgram (regex : Regex) (defs : List (String × List String × Block)) : Registry :=
  defs.foldl (fun r d => r.defineUser d.1 d.2.1 d.2.2) (withBuiltins regex)

variable {regex : Regex} {name : String} {defs : List (String × List String × Block)} {arity : Arity}
  {body : BuiltinBody}

theorem get?_withBuiltins (h : (name, arity, body) ∈ table regex) :
    (withBuiltins regex).get? name = some (.builtin arity body) := by
  have hnames : ((table regex).map fun e => (e.1, FunctionEntry.builtin e.2.1 e.2.2)).map Prod.fst =
      (table regex).map Prod.fst := by
    rw [List.map_map]
    rfl
  have hnodup := Builtin.names_nodup regex
  rw [← hnames] at hnodup
  show (Bindings.ofList ((table regex).map fun e => (e.1, FunctionEntry.builtin e.2.1 e.2.2))).get? name = _
  rw [Bindings.get?_ofList hnodup]
  exact Bindings.lookup_of_mem hnodup (List.mem_map_of_mem h)

/-- What is not defined anew is as it was. -/
theorem get?_defined_of_not_mem (r : Registry) (h : name ∉ defs.map Prod.fst) :
    (defs.foldl (fun r d => r.defineUser d.1 d.2.1 d.2.2) r).get? name = r.get? name := by
  induction defs generalizing r with
  | nil => rfl
  | cons d defs ih =>
    rw [List.map_cons, List.mem_cons, not_or] at h
    rw [List.foldl_cons, ih _ h.2]
    exact (Bindings.get?_insert ..).trans (if_neg fun heq => h.1 heq.symm)

/-- What is defined is a function of the program. -/
theorem get?_defined_of_mem (r : Registry) (h : name ∈ defs.map Prod.fst) : ∃ params body,
    (defs.foldl (fun r d => r.defineUser d.1 d.2.1 d.2.2) r).get? name = some (.user params body) := by
  induction defs generalizing r with
  | nil => cases h
  | cons d defs ih =>
    by_cases hlater : name ∈ defs.map Prod.fst
    · exact ih _ hlater
    · rw [List.map_cons, List.mem_cons, or_iff_left hlater] at h
      refine ⟨d.2.1, d.2.2, ?_⟩
      rw [List.foldl_cons, get?_defined_of_not_mem _ hlater]
      exact (Bindings.get?_insert ..).trans (if_pos h.symm)

theorem get?_ofProgram (h : (name, arity, body) ∈ table regex) (hnew : name ∉ defs.map Prod.fst) :
    (ofProgram regex defs).get? name = some (.builtin arity body) :=
  (get?_defined_of_not_mem _ hnew).trans (get?_withBuiltins h)

/-- **Built-in functions of the registry are those of the table.** -/
theorem mem_table (h : (ofProgram regex defs).get? name = some (.builtin arity body)) : (name, arity, body) ∈ table regex := by
  by_cases hnew : name ∈ defs.map Prod.fst
  · obtain ⟨params, block, huser⟩ := get?_defined_of_mem (withBuiltins regex) hnew
    rw [ofProgram, huser] at h
    cases h
  · rw [ofProgram, get?_defined_of_not_mem _ hnew, Bindings.get?_eq_some_iff] at h
    have hmem := Bindings.mem_ofList h
    obtain ⟨e, he, heq⟩ := List.mem_map.mp hmem
    cases heq
    exact he

end Registry

/-! ## What other languages see -/

namespace FunctionTable

open Builtin (table)

variable {regex : Regex} {wall : Float} {name : String} {defs : List (String × List String × Block)}

theorem find?_map (es : List (String × FunctionEntry)) (wall : Float) (name : String) :
    (es.map fun e => FunctionInfo.mk e.1 e.2.arity (e.2.pure? wall)).find? (fun f => f.name == name) =
      (Bindings.lookup name es).map fun entry => ⟨name, entry.arity, entry.pure? wall⟩ := by
  induction es with
  | nil => rfl
  | cons e es ih =>
    rw [List.map_cons, List.find?_cons]
    unfold Bindings.lookup
    by_cases h : e.1 = name
    · rw [if_pos h, ← h]
      simp
    · have hne : (e.1 == name) = false := beq_false_of_ne h
      rw [if_neg h, hne]
      exact ih

/-- A block of another language sees what is registered. -/
theorem find?_ofRegistry (r : Registry) (wall : Float) (name : String) :
    (ofRegistry r wall).find? (fun f => f.name == name) =
      (r.get? name).map fun entry => ⟨name, entry.arity, entry.pure? wall⟩ :=
  find?_map r.entries wall name

/-- **Functions that a block of another language may call are those of the table.** -/
theorem mem_table {f : FunctionInfo} {run : Builtin.PureBody} (hf : f ∈ ofRegistry (.ofProgram regex defs) wall)
    (hrun : f.pure = some run) : ∃ body, body.pure? wall = some run ∧ (f.name, f.arity, body) ∈ table regex := by
  obtain ⟨⟨name, entry⟩, he, rfl⟩ := List.mem_map.mp hf
  have hget := (Bindings.get?_eq_some_iff _ name entry).mpr he
  cases entry with
  | user params body => cases hrun
  | builtin arity body => exact ⟨body, hrun, Registry.mem_table hget⟩

end FunctionTable

/-! ## Members of modules -/

/-- What a member function does with the generator of its module. -/
def MemberBody.run : MemberBody → List Value → Random → Except Cause (Value × Random)
  | .pure run, args, g => (run args).map fun v => (v, g)
  | .drawing run, args, g => run args g

namespace Module

open Builtin (table pureNames mem_pureNames)

variable {r : Reading} {arity : Arity} {body : BuiltinBody} {run : Builtin.PureBody}

/-- The names of the member functions that are none of the built-in ones. -/
def nativeNames : List String :=
  ["sin", "cos", "tan", "exp", "atan2", "hypot", "log"] ++ ["random", "uniform", "randint", "choice", "seed"] ++
    ["monotonic", "capitalize"]

theorem not_mem_pureNames : ∀ name ∈ nativeNames, name ∉ pureNames := by
  decide +kernel

/-- A member function is a built-in one that is passed on, or has a name that no pure built-in function has. -/
theorem functions_cases (m : ModuleName) {f : MemberFunction} (hf : f ∈ functions r m) :
    (∃ body run, f.body = .pure run ∧ body.pure? r.wall = some run ∧ (f.name, f.arity, body) ∈ table r.regex) ∨
      f.name ∈ nativeNames := by
  have hreexport (names : List String) (hf : f ∈ names.filterMap (reexport r)) : ∃ body run,
      f.body = .pure run ∧ body.pure? r.wall = some run ∧ (f.name, f.arity, body) ∈ table r.regex := by
    obtain ⟨name, -, hf⟩ := List.mem_filterMap.mp hf
    obtain ⟨⟨arity, run⟩, hpure, rfl⟩ := Option.map_eq_some_iff.mp hf
    obtain ⟨body, hrun, hmem⟩ := Builtin.mem_of_pure? hpure
    exact ⟨body, run, rfl, hrun, hmem⟩
  cases m with
  | math =>
    rcases List.mem_append.mp hf with hf | hf
    · exact .inl (hreexport _ hf)
    · have hname : f.name ∈ ["sin", "cos", "tan", "exp", "atan2", "hypot", "log"] := List.mem_map_of_mem hf
      exact .inr (List.mem_append_left _ (List.mem_append_left _ hname))
  | random =>
    have hname : f.name ∈ ["random", "uniform", "randint", "choice", "seed"] := List.mem_map_of_mem hf
    exact .inr (List.mem_append_left _ (List.mem_append_right _ hname))
  | time =>
    rcases List.mem_append.mp hf with hf | hf
    · exact .inl (hreexport _ hf)
    · obtain rfl := List.mem_singleton.mp hf
      exact .inr (by simp [nativeNames])
  | string =>
    rcases List.mem_append.mp hf with hf | hf
    · exact .inl (hreexport _ hf)
    · obtain rfl := List.mem_singleton.mp hf
      exact .inr (by simp [nativeNames])

/-- **A member function with the name of a built-in function that does not need the running program is that
    function.** -/
theorem mem_table (m : ModuleName) {f : MemberFunction} (hf : f ∈ functions r m)
    (h : (f.name, arity, body) ∈ table r.regex) (hrun : body.pure? r.wall = some run) :
    f.arity = arity ∧ f.body = .pure run := by
  rcases functions_cases m hf with ⟨body', own, hbody, hown, hmem⟩ | hname
  · obtain ⟨harity, rfl⟩ := Prod.mk.inj (Builtin.unique hmem h)
    obtain rfl := Option.some.inj (hown.symm.trans hrun)
    exact ⟨harity, hbody⟩
  · exact absurd (mem_pureNames h hrun) (not_mem_pureNames f.name hname)

end Module

/-! ## What every path does -/

open Builtin (table)

/-- **The number of arguments comes first**, on each of the three paths, and it is compared with the counts of the
    function whose body then runs. -/
structure CountsFirst (r : Reading) : Prop where
  /-- The evaluator calls what is registered. -/
  function (fuel : Nat) (name : String) (arity : Arity) (body : BuiltinBody) (args : List Value) (m : Machine)
    (hget : m.registry.get? name = some (.builtin arity body)) : Exec.callFunction (fuel + 1) name args m =
      if arity.accepts args.length then body.exec args m
      else (.error (.failed ⟨.arity name arity args.length, .unknown⟩), m)
  /-- A block of another language calls what is in its table. -/
  foreign (t : FunctionTable) (name : String) (f : FunctionInfo) (run : Builtin.PureBody) (args : List Value)
    (hfind : t.find? (fun f => f.name == name) = some f) (hrun : f.pure = some run) : t.call name args =
      if f.arity.accepts args.length then run args else .error (.arity name f.arity args.length)
  /-- A module calls its members, whose names have that of the module before them. -/
  member (m : ModuleName) (name : String) (f : MemberFunction) (args : List Value) (g : Random)
    (hfind : (Module.functions r m).find? (fun f => f.name == name) = some f) :
    Module.call r m name args g =
      if f.arity.accepts args.length then f.body.run args g
      else .error (.arity (m.text ++ "." ++ f.name) f.arity args.length)

/-- **All copies of the table are like it**, whatever a program defines over the built-in functions. -/
structure CopiesTable (r : Reading) (defs : List (String × List String × Block)) : Prop where
  registry (name : String) (arity : Arity) (body : BuiltinBody)
    (hget : (Registry.ofProgram r.regex defs).get? name = some (.builtin arity body)) :
    (name, arity, body) ∈ table r.regex
  foreign (f : FunctionInfo) (run : Builtin.PureBody)
    (hf : f ∈ FunctionTable.ofRegistry (.ofProgram r.regex defs) r.wall) (hrun : f.pure = some run) :
    ∃ body, body.pure? r.wall = some run ∧ (f.name, f.arity, body) ∈ table r.regex
  member (m : ModuleName) (f : MemberFunction) (arity : Arity) (body : BuiltinBody) (run : Builtin.PureBody)
    (hf : f ∈ Module.functions r m) (hentry : (f.name, arity, body) ∈ table r.regex)
    (hrun : body.pure? r.wall = some run) : f.arity = arity ∧ f.body = .pure run

/-- **The evaluator and a block of another language get the same**, whatever a program defines over the built-in
    functions. -/
structure PathsAgree (regex : Regex) (defs : List (String × List String × Block)) : Prop where
  /-- From a pure function that is not defined anew, and the machine is as before. -/
  same (name : String) (arity : Arity) (run : Builtin.PureBody) (hentry : (name, arity, .pure run) ∈ table regex)
    (hnew : name ∉ defs.map Prod.fst) (fuel : Nat) (args : List Value) (m : Machine)
    (hm : m.registry = .ofProgram regex defs) (wall : Float) : Exec.callFunction (fuel + 1) name args m =
      (((FunctionTable.ofRegistry m.registry wall).call name args).mapError fun c => .failed ⟨c, .unknown⟩, m)
  /-- From one that looks at the clock on the wall, while it shows the same. -/
  timed (name : String) (arity : Arity) (run : Float → Builtin.PureBody) (hentry : (name, arity, .timed run) ∈ table regex)
    (hnew : name ∉ defs.map Prod.fst) (fuel : Nat) (args : List Value) (m : Machine)
    (hm : m.registry = .ofProgram regex defs) : (Exec.callFunction (fuel + 1) name args m).1 =
      ((FunctionTable.ofRegistry m.registry m.reading.wall).call name args).mapError fun c => .failed ⟨c, .unknown⟩
  /-- A block of another language gets nothing from the functions of the program and from those that need the machine. -/
  refused (name : String) (h : name ∈ defs.map Prod.fst ∨ ∃ arity what, (name, arity, .host what) ∈ table regex)
    (wall : Float) (args : List Value) :
    (FunctionTable.ofRegistry (.ofProgram regex defs) wall).call name args = .error (.type (.foreignCall name))

/-- What comes after a check of the number of arguments is what a right number gives. -/
theorem Arity.check_bind {α : Type} (a : Arity) (name : String) (got : Nat) (next : Except Cause α) :
    (a.check name got >>= fun _ => next) = if a.accepts got then next else .error (.arity name a got) := by
  unfold Arity.check
  by_cases h : a.accepts got = true
  · rw [if_pos h, if_pos h]
    rfl
  · rw [if_neg h, if_neg h]
    rfl

theorem callFunction_builtin (fuel : Nat) {name : String} {arity : Arity} {body : BuiltinBody} (args : List Value)
    {m : Machine} (hget : m.registry.get? name = some (.builtin arity body)) : Exec.callFunction (fuel + 1) name args m =
      if arity.accepts args.length then body.exec args m
      else (.error (.failed ⟨.arity name arity args.length, .unknown⟩), m) := by
  rw [Exec.callFunction]
  rw [Exec.bind_ok (show Exec.read id m = (.ok m, m) from rfl), hget]
  show (Exec.ofExcept (arity.check name args.length) >>= fun _ => _ : Exec Value) m = _
  unfold Arity.check
  by_cases h : arity.accepts args.length = true
  · rw [if_pos h, if_pos h]
    cases body <;> rfl
  · rw [if_neg h, if_neg h]
    rfl

theorem call_pure {t : FunctionTable} {name : String} {f : FunctionInfo} {run : Builtin.PureBody} (args : List Value)
    (hfind : t.find? (fun f => f.name == name) = some f) (hrun : f.pure = some run) : t.call name args =
      if f.arity.accepts args.length then run args else .error (.arity name f.arity args.length) := by
  unfold FunctionTable.call
  rw [hfind]
  dsimp only
  rw [hrun]
  exact f.arity.check_bind name args.length (run args)

theorem call_member {r : Reading} {m : ModuleName} {name : String} {f : MemberFunction} (args : List Value)
    (g : Random) (hfind : (Module.functions r m).find? (fun f => f.name == name) = some f) :
    Module.call r m name args g =
      if f.arity.accepts args.length then f.body.run args g
      else .error (.arity (m.text ++ "." ++ f.name) f.arity args.length) := by
  unfold Module.call
  rw [hfind]
  refine (f.arity.check_bind (m.text ++ "." ++ f.name) args.length _).trans ?_
  congr 1
  cases f.body with
  | pure run =>
    show (run args >>= fun v => pure (v, g)) = (run args).map fun v => (v, g)
    cases run args <;> rfl
  | drawing run => rfl

theorem countsFirst (r : Reading) : CountsFirst r where
  function fuel _ _ _ args _ hget := callFunction_builtin fuel args hget
  foreign _ _ _ _ args hfind hrun := call_pure args hfind hrun
  member _ _ _ args g hfind := call_member args g hfind

theorem copiesTable (r : Reading) (defs : List (String × List String × Block)) : CopiesTable r defs where
  registry _ _ _ hget := Registry.mem_table hget
  foreign _ _ hf hrun := FunctionTable.mem_table hf hrun
  member m _ _ _ _ hf hentry hrun := Module.mem_table m hf hentry hrun

/-- What cannot be called is refused before anything else. -/
theorem call_refused {r : Registry} {name : String} {entry : FunctionEntry} {wall : Float} (args : List Value)
    (hget : r.get? name = some entry) (hrun : entry.pure? wall = none) :
    (FunctionTable.ofRegistry r wall).call name args = .error (.type (.foreignCall name)) := by
  unfold FunctionTable.call
  rw [FunctionTable.find?_ofRegistry, hget]
  dsimp only [Option.map_some]
  rw [hrun]

/-- What a block of another language gets from a built-in function that does not need the running program. -/
theorem call_ofRegistry {r : Registry} {name : String} {arity : Arity} {body : BuiltinBody} {wall : Float}
    {run : Builtin.PureBody} (args : List Value) (hget : r.get? name = some (.builtin arity body))
    (hrun : body.pure? wall = some run) : (FunctionTable.ofRegistry r wall).call name args =
      if arity.accepts args.length then run args else .error (.arity name arity args.length) := by
  have hfind := FunctionTable.find?_ofRegistry r wall name
  rw [hget] at hfind
  exact call_pure args hfind hrun

theorem pathsAgree (regex : Regex) (defs : List (String × List String × Block)) : PathsAgree regex defs where
  same name arity run hentry hnew fuel args m hm wall := by
    have hget := Registry.get?_ofProgram hentry hnew
    rw [← hm] at hget
    rw [callFunction_builtin fuel args hget, call_ofRegistry args hget rfl]
    by_cases h : arity.accepts args.length = true
    · rw [if_pos h, if_pos h]
      show Exec.ofExcept (run args) m = _
      cases run args <;> rfl
    · rw [if_neg h, if_neg h]
      rfl
  timed name arity run hentry hnew fuel args m hm := by
    have hget := Registry.get?_ofProgram hentry hnew
    rw [← hm] at hget
    rw [callFunction_builtin fuel args hget, call_ofRegistry args hget rfl]
    by_cases h : arity.accepts args.length = true
    · rw [if_pos h, if_pos h]
      show ((Exec.glance >>= fun r => Exec.ofExcept (run r.wall args)) m).1 = _
      rw [Exec.bind_glance]
      cases run m.reading.wall args <;> rfl
    · rw [if_neg h, if_neg h]
      rfl
  refused name h wall args := by
    by_cases hnew : name ∈ defs.map Prod.fst
    · obtain ⟨params, body, hget⟩ := Registry.get?_defined_of_mem (.withBuiltins regex) hnew
      exact call_refused args hget rfl
    · obtain ⟨arity, what, hentry⟩ := h.resolve_left hnew
      exact call_refused args (Registry.get?_ofProgram hentry hnew) rfl

/-- **Built-in functions are safe, and the same on every path.** Given arguments in a number that it accepts, a built-in
    function breaks nothing and answers with a value or a failure of types or values. Each path to it compares the number
    first, with the counts of the one table. The evaluator and a block of another language get the same from a pure
    function, and the block gets nothing from one of the program or one that needs the machine. -/
theorem builtins_same_on_paths (r : Reading) :
    (∀ e ∈ table r.regex, SafeEntry e.1 e.2.1 e.2.2) ∧ CountsFirst r ∧
    ∀ defs, CopiesTable r defs ∧ PathsAgree r.regex defs :=
  ⟨Builtin.table_safe r.regex, countsFirst r, fun defs => ⟨copiesTable r defs, pathsAgree r.regex defs⟩⟩

/-- Characters of several bytes, a function that the program defines anew, and too few arguments. -/
theorem builtins_same_on_paths_slice :
    Checked.exec "slice" (.pure Builtin.slice) [.str "déjà", .int (-3)] (Machine.initial .still) =
      (.ok (.str "éjà"), Machine.initial .still) ∧
    Exec.callFunction 1 "slice" [.str "déjà"] (Machine.initial .still) =
      (.error (.failed ⟨.arity "slice" (.between 2 3) 1, .unknown⟩), Machine.initial .still) ∧
    (FunctionTable.ofRegistry (.ofProgram Platform.still.regex [("slice", [], [])]) 0.0).call "slice" [.str "déjà", .int (-3)] =
      .error (.type (.foreignCall "slice")) := by
  have hentry : ("slice", Arity.between 2 3, BuiltinBody.pure Builtin.slice) ∈ table Platform.still.regex :=
    List.mem_of_getElem? (i := 37) rfl
  have hfair : Fair "slice" [.str "déjà", .int (-3)] := by
    constructor
    · intro v hv
      simp only [List.mem_cons, List.not_mem_nil, or_false] at hv
      rcases hv with rfl | rfl
      · show Text.byteLength "déjà".toList < 2 ^ 63
        decide
      · trivial
    · intro hsort
      exact absurd hsort (by decide)
  obtain ⟨hsafe, hfirst, hprogram⟩ := builtins_same_on_paths (Platform.still.reading 0)
  refine ⟨?_, ?_, ?_⟩
  · rw [(hsafe _ hentry).checked _ _ rfl hfair]
    rfl
  · have hget : (Machine.initial .still).registry.get? "slice" = some (.builtin (.between 2 3) (.pure Builtin.slice)) :=
      Registry.get?_withBuiltins hentry
    have hcall := hfirst.function 0 "slice" _ _ [.str "déjà"] (Machine.initial .still) hget
    exact hcall
  · exact (hprogram _).2.refused "slice" (.inl (by decide)) 0.0 _

end Helios
