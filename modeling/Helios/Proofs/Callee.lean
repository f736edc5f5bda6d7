import Helios.Proofs.Logic

/-!
# Callees — how the function of a call is written

`Task.Ends` is evaluation without fuel: how a task ends, if it does. It has one rule for each way a plan puts
tasks together, and each of them is an equivalence, so two tasks whose rules lead to the same premises end alike.

A call of a function value goes by the name in it. A variable that holds the value is called directly, any other
callee is evaluated first and the name is looked up once more, among the variables too. So the two agree as long
as no variable hides the name (`calls_agree_on_callee`), and not otherwise (`hidden_function_called_twice`).
-/

namespace Helios

/-! ## Evaluation without fuel -/

/-- **How a task ends**: with some fuel it gives `r.1` and leaves the machine `r.2`. -/
def Task.Ends {α : Type} (t : Task α) (m : Machine) (r : Except Halt α × Machine) : Prop :=
  ∃ n, t.run n m = r ∧ r.1 ≠ .error .outOfFuel

/-- How a plan ends. -/
def Plan.Ends {α : Type} (p : Plan α) (m : Machine) (r : Except Halt α × Machine) : Prop :=
  ∃ n, p.exec (fun _ => Task.run n) m = r ∧ r.1 ≠ .error .outOfFuel

namespace Plan

variable {α β : Type} {m : Machine}

theorem ends_start {t : Task α} {r : Except Halt α × Machine} : (start t).Ends m r ↔ t.Ends m r := Iff.rfl

theorem ends_give {v : Except Cause α} {r : Except Halt α × Machine} :
    (give v).Ends m r ↔ Exec.ofExcept v m = r := by
  constructor
  · rintro ⟨n, h, -⟩
    exact h
  · rintro rfl
    exact ⟨0, rfl, (Exec.Direct.ofExcept v).fuel m⟩

theorem ends_prim {p : Prim α} {r : Except Halt α × Machine} : (prim p).Ends m r ↔ p.exec m = r := by
  constructor
  · rintro ⟨n, h, -⟩
    exact h
  · rintro rfl
    exact ⟨0, rfl, (Exec.Direct.prim p).fuel m⟩

/-- A sequence ends as its second part does after the first, or as the first when that gives nothing. -/
theorem ends_bind {x : Plan α} {f : α → Plan β} {r : Except Halt β × Machine} :
    (x >>= f).Ends m r ↔
      (∃ a m', x.Ends m (.ok a, m') ∧ (f a).Ends m' r) ∨ ∃ e, x.Ends m (.error e, r.2) ∧ r.1 = .error e := by
  constructor
  · rintro ⟨n, h, hr⟩
    replace h : (x.exec (fun _ => Task.run n) >>= fun a => (f a).exec fun _ => Task.run n) m = r := h
    rw [Exec.bind_apply] at h
    rcases hx : x.exec (fun _ => Task.run n) m with ⟨e | a, m'⟩
    · rw [hx] at h
      subst h
      exact .inr ⟨e, ⟨n, hx, fun he => hr (congrArg Except.error (Except.error.inj he))⟩, rfl⟩
    · rw [hx] at h
      exact .inl ⟨a, m', ⟨n, hx, nofun⟩, n, h, hr⟩
  · rintro (⟨a, m', ⟨n, hx, hok⟩, k, hf, hr⟩ | ⟨e, ⟨n, hx, he⟩, hr⟩)
    · -- both parts with the fuel of the one that needs more
      have hx' : x.exec (fun _ => Task.run (max n k)) m = (.ok a, m') :=
        (exec_extends (Nat.le_max_left n k) x m (by rw [hx]; exact hok)).trans hx
      have hf' : (f a).exec (fun _ => Task.run (max n k)) m' = r :=
        (exec_extends (Nat.le_max_right n k) (f a) m' (by rw [hf]; exact hr)).trans hf
      exact ⟨max n k, (Exec.bind_ok hx').trans hf', hr⟩
    · refine ⟨n, (Exec.bind_error hx).trans (Prod.ext hr.symm rfl), ?_⟩
      rw [hr]
      exact fun h => he (congrArg Except.error (Except.error.inj h))

end Plan

namespace Task

variable {α : Type} {m : Machine}

/-- **A task ends as its plan does.** -/
theorem ends_iff_plan {t : Task α} {r : Except Halt α × Machine} : t.Ends m r ↔ t.plan.Ends m r := by
  constructor
  · rintro ⟨n, h, hr⟩
    cases n with
    | zero =>
      rw [run_zero] at h
      subst h
      exact absurd rfl hr
    | succ n => exact ⟨n, by rw [← run_succ]; exact h, hr⟩
  · rintro ⟨n, h, hr⟩
    exact ⟨n + 1, by rw [run_succ]; exact h, hr⟩

/-- **A task ends in one way only.** -/
theorem Ends.unique {t : Task α} {r r' : Except Halt α × Machine} (h : t.Ends m r) (h' : t.Ends m r') :
    r = r' := by
  obtain ⟨n, rfl, hn⟩ := h
  obtain ⟨k, rfl, hk⟩ := h'
  exact run_eq hn hk

/-- A call evaluates its arguments first, then what is called. -/
theorem ends_call {callee : Expr} {args : List Expr} {r : Except Halt Value × Machine} :
    (eval (.call callee args)).Ends m r ↔
      (∃ vs m', (evalAll args).Ends m (.ok vs, m') ∧ (callExpr callee vs).Ends m' r) ∨
        ∃ e, (evalAll args).Ends m (.error e, r.2) ∧ r.1 = .error e :=
  ends_iff_plan.trans Plan.ends_bind

/-- A call of a name is a call of the function that the name stands for. -/
theorem ends_callName {name target : String} {vs : List Value} {r : Except Halt Value × Machine}
    (h : m.callTarget name = .ok target) : (callName name vs).Ends m r ↔ (callFunction target vs).Ends m r := by
  have hprim : (Prim.target name).exec m = (.ok target, m) := by
    show Exec.ofExcept (m.callTarget name) m = _
    rw [h]
    rfl
  refine ends_iff_plan.trans (Plan.ends_bind.trans ?_)
  simp only [Plan.ends_prim, hprim, Plan.ends_start]
  constructor
  · rintro (⟨a, m', heq, hf⟩ | ⟨e, heq, -⟩)
    · obtain ⟨ha, rfl⟩ := Prod.mk.inj heq
      obtain rfl := Except.ok.inj ha
      exact hf
    · nomatch congrArg Prod.fst heq
  · exact fun hf => .inl ⟨target, m, rfl, hf⟩

end Task

/-! ## Callees -/

/-- **An expression that yields a value** in a state, without a side effect. -/
def Expr.Yields (e : Expr) (m : Machine) (v : Value) : Prop := (Task.eval e).Ends m (.ok v, m)

/-- **No variable hides the function**: under its name there is no variable in view, or one that holds this very
    function, or one that holds no function while a function of the name is registered. -/
def Machine.Unhidden (m : Machine) (name : String) : Prop :=
  match m.get? name with
  | none => True
  | some (.func target) => target = name
  | some _ => m.registry.contains name = true

/-- Then a call of the name is a call of the function. -/
theorem Machine.Unhidden.callTarget {m : Machine} {name : String} (h : m.Unhidden name) :
    m.callTarget name = .ok name := by
  unfold Unhidden Machine.get? at h
  unfold Machine.callTarget
  cases hget : m.scopes.get? name with
  | none => rfl
  | some v =>
    rw [hget] at h
    cases v with
    | func target =>
      obtain rfl : target = name := h
      rfl
    | _ =>
      dsimp only at h ⊢
      rw [if_pos h]

namespace Expr.Yields

variable {m : Machine} {name : String}

/-- A name that yields a function stands for it in a call: it is a variable that holds the function, or the name
    of the function. -/
theorem callTarget {g : String} (h : (Expr.var g).Yields m (.func name)) : m.callTarget g = .ok name := by
  have hprim : (Prim.lookup g).exec m = (.ok (.func name), m) := Plan.ends_prim.mp (Task.ends_iff_plan.mp h)
  rw [Prim.exec_lookup] at hprim
  unfold Machine.resolveName? at hprim
  unfold Machine.callTarget
  cases hget : m.scopes.get? g with
  | some v =>
    rw [hget] at hprim
    obtain rfl := Except.ok.inj (congrArg Prod.fst hprim)
    rfl
  | none =>
    rw [hget] at hprim
    dsimp only at hprim ⊢
    split at hprim
    · rename_i v heq
      obtain rfl := Except.ok.inj (congrArg Prod.fst hprim)
      split at heq
      · obtain rfl := Value.func.inj (Option.some.inj heq)
        rfl
      · nomatch heq
    · nomatch congrArg Prod.fst hprim

/-- The members of objects are no functions. -/
theorem not_member {e : Expr} {member : String} : ¬ (Expr.member e member).Yields m (.func name) := by
  have hmember : ∀ ref, Hosts.member? ref member ≠ some (.func name) := by
    rintro (⟨module, id⟩ | _) h
    · obtain ⟨c, hfind, hc⟩ := Option.map_eq_some_iff.mp h
      have hmem := List.mem_of_find?_eq_some hfind
      cases module <;> simp [Module.constants] at hmem <;> grind
    · nomatch h
  intro h
  rcases Plan.ends_bind.mp (Task.ends_iff_plan.mp h) with ⟨v, m', -, hv⟩ | ⟨e, -, he⟩
  · have hfail : ∀ {c : Cause}, ¬ (Plan.fail c : Plan Value).Ends m' (.ok (.func name), m) :=
      fun hf => nomatch congrArg Prod.fst (Plan.ends_give.mp hf)
    cases v with
    | host ref =>
      dsimp only at hv
      cases hget : Hosts.member? ref member with
      | none =>
        rw [hget] at hv
        exact hfail hv
      | some w =>
        rw [hget] at hv
        obtain rfl := Except.ok.inj (congrArg Prod.fst (Plan.ends_give.mp hv))
        exact hmember ref hget
    | _ => exact hfail hv
  · nomatch he

/-- **A call of what yields a function is a call of the function**, when its name is called directly or is not
    hidden. -/
theorem ends_callExpr {callee : Expr} {vs : List Value} {r : Except Halt Value × Machine}
    (h : callee.Yields m (.func name)) (hname : (∃ g, callee = .var g) ∨ m.Unhidden name) :
    (Task.callExpr callee vs).Ends m r ↔ (Task.callFunction name vs).Ends m r := by
  rw [Task.ends_iff_plan]
  -- a callee that is evaluated first gives the value, and then the name in it is called
  have heval : ∀ {e : Expr} {k : Value → Plan Value}, k (.func name) = Plan.start (.callName name vs) →
      e.Yields m (.func name) → m.Unhidden name →
      ((Plan.start (.eval e) >>= k).Ends m r ↔ (Task.callFunction name vs).Ends m r) := by
    intro e k hk he hn
    rw [← Task.ends_callName hn.callTarget, ← Plan.ends_start, ← hk]
    refine Plan.ends_bind.trans ⟨?_, fun hcall => .inl ⟨_, m, he, hcall⟩⟩
    rintro (⟨v, m', hv, hcall⟩ | ⟨e', hv, -⟩)
    · obtain ⟨hval, rfl⟩ := Prod.mk.inj (Task.Ends.unique (Plan.ends_start.mp hv) he)
      obtain rfl := Except.ok.inj hval
      exact hcall
    · cases congrArg Prod.fst (Task.Ends.unique (Plan.ends_start.mp hv) he)
  cases callee with
  | var g => exact Plan.ends_start.trans (Task.ends_callName h.callTarget)
  | member e member => exact absurd h not_member
  | _ =>
    refine heval rfl h (hname.resolve_left ?_)
    rintro ⟨g, hg⟩
    cases hg

end Expr.Yields

/-- **A call does not depend on how its callee is written.** After the arguments, let the variable `f` hold the
    function `name`, and let another callee yield the same function without a side effect. If the callee is a
    name too, or no variable hides the function, then both calls end with the same result in the same state, or
    neither of them ends. -/
theorem calls_agree_on_callee (m : Machine) (f name : String) (callee : Expr) (args : List Expr)
    (h : ∀ vs m', (Task.evalAll args).Ends m (.ok vs, m') → m'.get? f = some (.func name) ∧
      callee.Yields m' (.func name) ∧ ((∃ g, callee = .var g) ∨ m'.Unhidden name))
    (r : Except Halt Value × Machine) :
    (Task.eval (.call (.var f) args)).Ends m r ↔ (Task.eval (.call callee args)).Ends m r := by
  rw [Task.ends_call, Task.ends_call]
  refine or_congr_left (exists_congr fun vs => exists_congr fun m' => and_congr_right fun hargs => ?_)
  obtain ⟨hf, hcallee, hname⟩ := h vs m' hargs
  have hvar : (Expr.var f).Yields m' (.func name) := by
    refine Task.ends_iff_plan.mpr (Plan.ends_prim.mpr ?_)
    rw [Prim.exec_lookup, Machine.resolveName?, show m'.scopes.get? f = some (.func name) from hf]
  rw [hvar.ends_callExpr (.inl ⟨f, rfl⟩), hcallee.ends_callExpr hname]

/-- A call through a variable and a call of the first item of a list: the function is built in, and no variable
    has its name. -/
theorem calls_agree_on_callee_in_list :
    (Task.eval (.call (.var "f") [.literal (.int 7)])).Ends ((Machine.initial .still).setGlobal "f" (.func "abs"))
      (.ok (.int 7), (Machine.initial .still).setGlobal "f" (.func "abs")) ∧
    (Task.eval (.call (.index (.list [.var "f"]) (.literal (.int 0))) [.literal (.int 7)])).Ends
      ((Machine.initial .still).setGlobal "f" (.func "abs"))
      (.ok (.int 7), (Machine.initial .still).setGlobal "f" (.func "abs")) := by
  have hcall : (Task.eval (.call (.var "f") [.literal (.int 7)])).Ends
      ((Machine.initial .still).setGlobal "f" (.func "abs"))
      (.ok (.int 7), (Machine.initial .still).setGlobal "f" (.func "abs")) := ⟨12, rfl, nofun⟩
  refine ⟨hcall, (calls_agree_on_callee _ "f" "abs" _ _ (fun vs m' hargs => ?_) _).mp hcall⟩
  have hargs' : (Task.evalAll [.literal (.int 7)]).Ends ((Machine.initial .still).setGlobal "f" (.func "abs"))
      (.ok [.int 7], (Machine.initial .still).setGlobal "f" (.func "abs")) := ⟨5, rfl, nofun⟩
  obtain rfl := congrArg Prod.snd (hargs.unique hargs')
  exact ⟨rfl, ⟨9, rfl, nofun⟩, .inr trivial⟩

/-- **A variable that hides the function is asked once more**: `f` holds the function `abs`, a variable `abs`
    holds the function `len`, and `f("x")` fails while `[f][0]("x")` gives the length. -/
theorem hidden_function_called_twice : ∃ m : Machine, m.get? "f" = some (.func "abs") ∧
    (Expr.index (.list [.var "f"]) (.literal (.int 0))).Yields m (.func "abs") ∧
    (Task.eval (.call (.index (.list [.var "f"]) (.literal (.int 0))) [.literal (.str "x")])).Ends m
      (.ok (.int 1), m) ∧
    ¬ (Task.eval (.call (.var "f") [.literal (.str "x")])).Ends m (.ok (.int 1), m) := by
  refine ⟨((Machine.initial .still).setGlobal "f" (.func "abs")).setGlobal "abs" (.func "len"), rfl, ⟨9, rfl, nofun⟩,
    ⟨12, rfl, nofun⟩, fun h => ?_⟩
  have h' : ∃ e, (Task.eval (.call (.var "f") [.literal (.str "x")])).Ends
    (((Machine.initial .still).setGlobal "f" (.func "abs")).setGlobal "abs" (.func "len")) (.error e, _) :=
    ⟨_, 12, rfl, nofun⟩
  obtain ⟨e, he⟩ := h'
  nomatch congrArg Prod.fst (h.unique he)

end Helios
