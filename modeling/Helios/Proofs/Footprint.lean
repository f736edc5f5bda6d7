import Helios.Proofs.Plan

/-!
# Footprints — what each question to the machine reads and changes

Most of what the evaluator asks of the machine leaves the frames, the registry and the depth of calls alone
and does not look at them either (`Exec.Apart`). The rest changes one thing: `define` of a function the
registry, and assignments, imports and blocks of other languages the *variables* of frames, never which
frames there are (`Scopes.Rebound`).
-/

namespace Helios

/-- What a name stands for, asked of the machine. -/
theorem Prim.exec_lookup (name : String) (m : Machine) :
    (Prim.lookup name).exec m =
      match m.resolveName? name with
      | some v => (.ok v, m)
      | none => Exec.fail (.name name) m := by
  show Exec.lookup name m = _
  unfold Exec.lookup
  rw [Exec.bind_apply]
  dsimp only [Exec.read]
  cases m.resolveName? name <;> rfl

/-! ## Blocks of other languages -/

/-- What an engine reports of a block, as the result of the statement. -/
def Engine.Run.report (run : Engine.Run) (language : String) : Except Halt Unit :=
  match run.outcome.error with
  | some message => .error (.failed ⟨.passthrough language message, .unknown⟩)
  | none => .ok ()

/-- **The machine after an engine ran a block**: what the block made and changed is merged. -/
def Machine.ran (m : Machine) (run : Engine.Run) (engines : List Engine) : Machine :=
  { m with
    engines
    hosts := run.hosts
    moment := m.moment + 1
    scopes := Exec.merge m.scopes (.between m.scopes.visible run.outcome.bindings)
    records := match run.record with
      | some r => m.records.push r
      | none => m.records }

/-- The engine for a language is asked, and what it answers is what becomes of the block. -/
theorem Engine.executeIn_of_find? {language : String} {engines : List Engine} {e : Engine}
    (h : engines.find? (fun e => e.language = language) = some e) (r : Engine.Request) :
    ∃ engines', executeIn language r engines =
      match (e.oracle.ask r).1 with
      | none => .broken
      | some run => .ran run engines' := by
  induction engines with
  | nil => exact nomatch h
  | cons e' rest ih =>
    unfold executeIn
    rw [List.find?_cons] at h
    by_cases hl : e'.language = language
    · rw [if_pos hl]
      rw [decide_eq_true hl] at h
      cases h
      rcases e.oracle.ask r with ⟨_ | run, oracle⟩
      · exact ⟨[], rfl⟩
      · exact ⟨_, rfl⟩
    · rw [if_neg hl]
      rw [decide_eq_false hl] at h
      obtain ⟨engines', hrun⟩ := ih h
      refine ⟨e' :: engines', ?_⟩
      rw [hrun]
      cases (e.oracle.ask r).1 <;> rfl

/-- The report of a run, on the machine that the run leaves. -/
theorem Exec.passthrough_of_ran {language code : String} {m : Machine} {run : Engine.Run} {engines : List Engine}
    (hrun : Engine.executeIn language (m.request code) m.engines = .ran run engines) :
    passthrough language code m = (run.report language, m.ran run engines) := by
  unfold passthrough Engine.Run.report
  rw [hrun]
  dsimp only
  cases run.outcome.error <;> rfl

/-- **What a block of another language comes to.** Nothing runs, or the engine breaks down, and the machine is as it
    was; or an engine runs the block, and its report is what the statement gives. -/
theorem Exec.passthrough_cases (language code : String) (m : Machine) :
    (∃ c, passthrough language code m = (.error (.failed ⟨c, .unknown⟩), m) ∧
      ((∃ message, c = .passthrough language message) ∨ c = .broken)) ∨
    ∃ run engines, Engine.executeIn language (m.request code) m.engines = .ran run engines ∧
      passthrough language code m = (run.report language, m.ran run engines) := by
  cases hrun : Engine.executeIn language (m.request code) m.engines with
  | missing =>
    refine .inl ⟨.passthrough language "no engine is available for this language", ?_, .inl ⟨_, rfl⟩⟩
    unfold passthrough
    rw [hrun]
  | broken =>
    refine .inl ⟨.broken, ?_, .inr rfl⟩
    unfold passthrough
    rw [hrun]
  | ran run engines => exact .inr ⟨run, engines, rfl, passthrough_of_ran hrun⟩

/-! ## Computations apart from frames and functions -/

namespace Machine

/-- Other frames, functions and depth in the place of those there are. -/
def withCore (m : Machine) (scopes : Scopes) (registry : Registry) (depth maxDepth : Nat) : Machine :=
  { m with scopes, registry, depth, maxDepth }

theorem withCore_self (m : Machine) : m.withCore m.scopes m.registry m.depth m.maxDepth = m := rfl

end Machine

namespace Exec

variable {α β : Type}

/-- What holds of the parts that built-in functions are made of, and of sequences, holds of all of them. -/
theorem host_of_parts {P : {α : Type} → Exec α → Prop}
    (hgive : ∀ {α : Type} (r : Except Cause α), P (ofExcept r))
    (hbind : ∀ {α β : Type} {x : Exec α} {f : α → Exec β}, P x → (∀ a, P (f a)) → P (x >>= f))
    (hwrite : ∀ line, P (writeLine line)) (hdraw : ∀ {α : Type} (f : Random → α × Random), P (draw f))
    (hread : ∀ prompt, P (readLine prompt)) (hglance : P glance)
    (what : HostBuiltin) (args : List Value) : P (host what args) := by
  cases what with
  | print => exact hbind (hwrite _) fun _ => hgive (.ok _)
  | input => exact hbind (hread _) fun _ => hgive (.ok _)
  | add | mul =>
    exact hbind (hgive _) fun _ => hbind (hgive _) fun _ => hbind (hgive _) fun _ =>
      hbind (hwrite _) fun _ => hgive (.ok _)
  | random => exact hbind (hdraw _) fun _ => hgive (.ok _)
  | randint =>
    refine hbind (hgive _) fun low => hbind (hgive _) fun high => ?_
    split
    · exact hgive (.error _)
    · exact hbind (hdraw _) fun _ => hgive (.ok _)
  | choice =>
    refine hbind (hgive _) fun items => ?_
    split
    · exact hgive (.error _)
    · exact hbind (hdraw _) fun _ => hgive _
  | clock => exact hbind hglance fun _ => hgive (.ok _)

/-- **Apart from frames, functions and depth**: the computation goes the same way whatever they are, and
    leaves them as they are. -/
def Apart (x : Exec α) : Prop :=
  ∀ m s r d l, x (m.withCore s r d l) = ((x m).1, (x m).2.withCore s r d l)

namespace Apart

theorem pure (a : α) : Apart (pure a : Exec α) := fun _ _ _ _ _ => rfl

theorem fail (c : Cause) : Apart (fail c : Exec α) := fun _ _ _ _ _ => rfl

/-- What is computed without the machine. -/
theorem ofExcept (r : Except Cause α) : Apart (ofExcept r) := by
  cases r with
  | error c => exact fail c
  | ok a => exact pure a

/-- One after another. -/
theorem bind {x : Exec α} {f : α → Exec β} (hx : Apart x) (hf : ∀ a, Apart (f a)) : Apart (x >>= f) := by
  intro m s r d l
  rw [bind_apply, bind_apply, hx]
  rcases x m with ⟨e | a, m'⟩
  · rfl
  · exact hf a m' s r d l

theorem writeLine (line : String) : Apart (writeLine line) := fun _ _ _ _ _ => rfl

theorem glance : Apart glance := fun _ _ _ _ _ => rfl

theorem draw (f : Random → α × Random) : Apart (draw f) := fun _ _ _ _ _ => rfl

/-- A line comes from the input, typed or not. -/
theorem readLine (prompt : String) : Apart (readLine prompt) := by
  rintro ⟨_, _, _, _, _, _, input, stdin, _, _, _, _, _, _, _⟩ s r d l
  cases input with
  | cons line rest => rfl
  | nil =>
    cases stdin with
    | off => rfl
    | text cs ended =>
      dsimp only [Exec.readLine, Machine.withCore]
      -- a prompt may be written, then there is a line to read, none yet, or none any more
      split
      · split <;> rfl
      · split <;> split <;> rfl

/-- A built-in function that needs the machine needs its input, output, generator and clocks only. -/
theorem host (what : HostBuiltin) (args : List Value) : Apart (host what args) :=
  host_of_parts ofExcept bind writeLine draw readLine glance what args

/-- A host object keeps a generator at most. -/
theorem callMember (ref : HostRef) (member : String) (args : List Value) :
    Apart (callMember ref member args) := by
  intro m s r d l
  dsimp only [Exec.callMember, Machine.withCore, Machine.reading]
  rcases m.hosts.call (m.platform.reading m.moment) ref member args with ⟨_ | _, _⟩ <;> rfl

/-- The frontend keeps its own state. -/
theorem dispatch (c : FrontendCommand) : Apart (dispatch c) := by
  intro m s r d l
  dsimp only [Exec.dispatch, Machine.withCore]
  rcases m.frontend.dispatch c with ⟨_ | _ | _, _⟩ <;> rfl

/-- What such a computation leaves behind. -/
theorem snd_eq {x : Exec α} (hx : Apart x) (m : Machine) :
    (x m).2 = (x m).2.withCore m.scopes m.registry m.depth m.maxDepth := by
  have h := hx m m.scopes m.registry m.depth m.maxDepth
  rw [m.withCore_self] at h
  exact congrArg Prod.snd h

end Apart

end Exec

/-! ## Computations that need no fuel and do not wait -/

/-- Whether a line that is wanted can be given at once, or it is known that there is none. -/
def Stdin.Answers : Stdin → Prop
  | .off => True
  | .text _ ended => ended = true

namespace Exec

variable {α β : Type}

/-- A computation that never waits for a line, as long as none has to be waited for. -/
def NeverWaits (x : Exec α) : Prop :=
  ∀ m, m.stdin.Answers → (x m).2.stdin.Answers ∧ (x m).1 ≠ .error .waiting

/-- Two that never wait, one after the other. -/
theorem NeverWaits.bind {x : Exec α} {f : α → Exec β} (hx : NeverWaits x) (hf : ∀ a, NeverWaits (f a)) :
    NeverWaits (x >>= f) := by
  intro m hm
  rw [bind_apply]
  have h := hx m hm
  revert h
  rcases x m with ⟨e | a, m'⟩ <;> rintro ⟨hs, he⟩
  · exact ⟨hs, fun h => he (congrArg Except.error (Except.error.inj h))⟩
  · exact hf a m' hs

/-- **A direct computation**: it does not take fuel, and does not wait. -/
structure Direct (x : Exec α) : Prop where
  fuel : ∀ m, (x m).1 ≠ .error .outOfFuel
  waits : NeverWaits x

namespace Direct

/-- A computation that gives a result or fails, and reads nothing. -/
theorem of_ok_or_failed {x : Exec α}
    (h : ∀ m, (x m).2.stdin = m.stdin ∧ ((∃ a, (x m).1 = .ok a) ∨ ∃ e, (x m).1 = .error (.failed e))) :
    Direct x where
  fuel m hf := by
    rcases (h m).2 with ⟨_, h⟩ | ⟨_, h⟩ <;> rw [h] at hf <;> nomatch hf
  waits m hm := by
    refine ⟨by rw [(h m).1]; exact hm, fun hf => ?_⟩
    rcases (h m).2 with ⟨_, h⟩ | ⟨_, h⟩ <;> rw [h] at hf <;> nomatch hf

theorem of_ok {x : Exec α} (h : ∀ m, (x m).2.stdin = m.stdin ∧ ∃ a, (x m).1 = .ok a) : Direct x :=
  of_ok_or_failed fun m => ⟨(h m).1, .inl (h m).2⟩

theorem ofExcept (r : Except Cause α) : Direct (ofExcept r) := by
  cases r with
  | error c => exact of_ok_or_failed fun _ => ⟨rfl, .inr ⟨_, rfl⟩⟩
  | ok a => exact of_ok fun _ => ⟨rfl, _, rfl⟩

theorem bind {x : Exec α} {f : α → Exec β} (hx : Direct x) (hf : ∀ a, Direct (f a)) : Direct (x >>= f) where
  fuel m := by
    rw [bind_apply]
    have h := hx.fuel m
    revert h
    rcases x m with ⟨e | a, m'⟩ <;> intro h
    · exact fun he => h (congrArg Except.error (Except.error.inj he))
    · exact (hf a).fuel m'
  waits := hx.waits.bind fun a => (hf a).waits

theorem writeLine (line : String) : Direct (writeLine line) := of_ok fun _ => ⟨rfl, _, rfl⟩

theorem draw (f : Random → α × Random) : Direct (draw f) := of_ok fun _ => ⟨rfl, _, rfl⟩

/-- A line is waited for only when more may be typed. -/
theorem readLine (prompt : String) : Direct (readLine prompt) := by
  have h : ∀ m, (Exec.readLine prompt m).1 ≠ .error .outOfFuel ∧
      (m.stdin.Answers →
        (Exec.readLine prompt m).2.stdin.Answers ∧ (Exec.readLine prompt m).1 ≠ .error .waiting) := by
    rintro ⟨_, _, _, _, _, _, input, stdin, _, _, _, _, _, _, _⟩
    cases input with
    | cons line rest => exact ⟨nofun, fun hm => ⟨hm, nofun⟩⟩
    | nil =>
      cases stdin with
      | off => exact ⟨nofun, fun hm => ⟨hm, nofun⟩⟩
      | text cs ended =>
        dsimp only [Exec.readLine]
        split
        · -- to wait is the answer only while more may be typed
          rename_i hw
          refine ⟨nofun, fun hm => ?_⟩
          rw [show ended = true from hm] at hw
          exact absurd hw (by simp)
        · split
          · split <;> exact ⟨nofun, fun hm => ⟨hm, nofun⟩⟩
          · exact ⟨nofun, fun hm => ⟨hm, nofun⟩⟩
  exact ⟨fun m => (h m).1, fun m => (h m).2⟩

theorem glance : Direct glance := of_ok fun _ => ⟨rfl, _, rfl⟩

/-- Only `input` reads, and the input answers. -/
theorem host (what : HostBuiltin) (args : List Value) : Direct (host what args) :=
  host_of_parts ofExcept bind writeLine draw readLine glance what args

theorem callMember (ref : HostRef) (member : String) (args : List Value) :
    Direct (callMember ref member args) := by
  refine of_ok_or_failed fun m => ?_
  unfold Exec.callMember
  rcases m.hosts.call m.reading ref member args with ⟨_ | _, _⟩
  · exact ⟨rfl, .inr ⟨_, rfl⟩⟩
  · exact ⟨rfl, .inl ⟨_, rfl⟩⟩

theorem dispatch (c : FrontendCommand) : Direct (dispatch c) := by
  refine of_ok_or_failed fun m => ?_
  unfold Exec.dispatch
  rcases m.frontend.dispatch c with ⟨_ | _ | _, _⟩
  · exact ⟨rfl, .inr ⟨_, rfl⟩⟩
  · exact ⟨rfl, .inl ⟨_, rfl⟩⟩
  · exact ⟨rfl, .inr ⟨_, rfl⟩⟩

theorem contain (path : String) : Direct (contain path) := by
  refine of_ok_or_failed fun m => ?_
  unfold Exec.contain
  rcases Resolver.resolveFirst m.resolvers path m.hosts with ⟨_ | _, _, _⟩
  · exact ⟨rfl, .inr ⟨_, rfl⟩⟩
  · exact ⟨rfl, .inl ⟨_, rfl⟩⟩

/-- An engine is asked once. -/
theorem passthrough (language code : String) : Direct (passthrough language code) := by
  refine of_ok_or_failed fun m => ?_
  rcases passthrough_cases language code m with ⟨c, hrun, -⟩ | ⟨run, engines, -, hrun⟩
  · rw [hrun]
    exact ⟨rfl, .inr ⟨_, rfl⟩⟩
  · rw [hrun]
    dsimp only [Engine.Run.report]
    cases run.outcome.error with
    | none => exact ⟨rfl, .inl ⟨_, rfl⟩⟩
    | some message => exact ⟨rfl, .inr ⟨_, rfl⟩⟩

/-- Questions to the machine are answered directly. -/
theorem prim (p : Prim α) : Direct p.exec := by
  cases p with
  | lookup name =>
    refine of_ok_or_failed fun m => ?_
    rw [Prim.exec_lookup]
    cases m.resolveName? name with
    | none => exact ⟨rfl, .inr ⟨_, rfl⟩⟩
    | some v => exact ⟨rfl, .inl ⟨_, rfl⟩⟩
  | target name =>
    refine of_ok_or_failed fun m => ?_
    dsimp only [Prim.exec]
    cases m.callTarget name with
    | error c => exact ⟨rfl, .inr ⟨_, rfl⟩⟩
    | ok target => exact ⟨rfl, .inl ⟨_, rfl⟩⟩
  | entry name =>
    refine of_ok_or_failed fun m => ?_
    dsimp only [Prim.exec]
    cases m.registry.get? name with
    | none => exact ⟨rfl, .inr ⟨_, rfl⟩⟩
    | some e => exact ⟨rfl, .inl ⟨_, rfl⟩⟩
  | registered name => exact of_ok fun _ => ⟨rfl, _, rfl⟩
  | assign name v => exact of_ok fun _ => ⟨rfl, _, rfl⟩
  | define name v => exact of_ok fun _ => ⟨rfl, _, rfl⟩
  | defineUser name params body => exact of_ok fun _ => ⟨rfl, _, rfl⟩
  | writeLine line => exact writeLine line
  | glance => exact glance
  | host what args => exact host what args
  | callMember ref member args => exact callMember ref member args
  | contain path => exact contain path
  | passthrough language code => exact passthrough language code
  | dispatch c => exact dispatch c

end Direct

end Exec

/-! ## Frames whose variables change -/

/-- **Other variables in the same frames**: some bindings were made, each where a name in view is bound, in
    the current frame or in the global one. -/
inductive Scopes.Rebound (s : Scopes) : Scopes → Prop
  | refl : Rebound s s
  | assign {s' : Scopes} (name : String) (v : Value) (h : Rebound s s') : Rebound s (s'.assign name v)
  | define {s' : Scopes} (name : String) (v : Value) (h : Rebound s s') : Rebound s (s'.define name v)
  | defineGlobal {s' : Scopes} (name : String) (v : Value) (h : Rebound s s') :
    Rebound s (s'.defineGlobal name v)

namespace Scopes.Rebound

/-- Rebinding goes on. -/
theorem trans {s s' s'' : Scopes} (h : Rebound s s') (h' : Rebound s' s'') : Rebound s s'' := by
  induction h' with
  | refl => exact h
  | assign name v _ ih => exact ih.assign name v
  | define name v _ ih => exact ih.define name v
  | defineGlobal name v _ ih => exact ih.defineGlobal name v

/-- Rebinding one name after another. -/
theorem foldl {α : Type} {f : Scopes → α → Scopes} (hf : ∀ s a, Rebound s (f s a)) (as : List α)
    (s : Scopes) : Rebound s (as.foldl f s) := by
  induction as generalizing s with
  | nil => exact refl
  | cons a as ih => exact (hf s a).trans (ih (f s a))

/-- What a block of another language made and changed is bound in frames that are there. -/
theorem merge (s : Scopes) (d : NamespaceDiff) : Rebound s (Exec.merge s d) := by
  unfold Exec.merge
  refine trans (foldl (fun s e => ?_) d.added s) (foldl (fun s e => ?_) d.changed _)
  · exact refl.defineGlobal e.1 e.2
  · exact refl.assign e.1 e.2

end Scopes.Rebound

/-! ## The footprint of a question -/

/-- The registry after a question. -/
def Prim.registryAfter (r : Registry) : {α : Type} → Prim α → Registry
  | _, defineUser name params body => r.defineUser name params body
  | _, _ => r

/-- **What a question to the machine changes** of frames, functions and depth. -/
structure Prim.Footprint {α : Type} (p : Prim α) (m m' : Machine) : Prop where
  scopes : m.scopes.Rebound m'.scopes
  registry : m'.registry = p.registryAfter m.registry
  depth : m'.depth = m.depth
  maxDepth : m'.maxDepth = m.maxDepth

namespace Prim.Footprint

/-- A question that does not touch frames leaves them. -/
theorem of_apart {α : Type} {p : Prim α} (h : p.exec.Apart) (hp : ∀ r, p.registryAfter r = r) (m : Machine) :
    p.Footprint m (p.exec m).2 := by
  rw [h.snd_eq m]
  exact ⟨.refl, (hp m.registry).symm, rfl, rfl⟩

/-- A block of another language rebinds names of the current frame. -/
theorem passthrough (language code : String) (m : Machine) :
    (Prim.passthrough language code).Footprint m (Exec.passthrough language code m).2 := by
  rcases Exec.passthrough_cases language code m with ⟨c, hrun, -⟩ | ⟨run, engines, -, hrun⟩
  · rw [hrun]
    exact ⟨.refl, rfl, rfl, rfl⟩
  · rw [hrun]
    exact ⟨.merge _ _, rfl, rfl, rfl⟩

/-- An import binds one name. -/
theorem contain (path : String) (m : Machine) :
    (Prim.contain path).Footprint m (Exec.contain path m).2 := by
  unfold Exec.contain
  rcases Resolver.resolveFirst m.resolvers path m.hosts with ⟨_ | ref, resolvers, hosts⟩
  · exact ⟨.refl, rfl, rfl, rfl⟩
  · exact ⟨.defineGlobal _ _ .refl, rfl, rfl, rfl⟩

/-- **Every question has its footprint.** -/
theorem exec {α : Type} (p : Prim α) (m : Machine) : p.Footprint m (p.exec m).2 := by
  cases p with
  | lookup name =>
    rw [Prim.exec_lookup]
    cases m.resolveName? name <;> exact ⟨.refl, rfl, rfl, rfl⟩
  | target name =>
    show (Prim.target name).Footprint m (Exec.ofExcept (m.callTarget name) m).2
    cases m.callTarget name <;> exact ⟨.refl, rfl, rfl, rfl⟩
  | entry name =>
    dsimp only [Prim.exec]
    cases m.registry.get? name <;> exact ⟨.refl, rfl, rfl, rfl⟩
  | registered name => exact ⟨.refl, rfl, rfl, rfl⟩
  | assign name v => exact ⟨.assign _ _ .refl, rfl, rfl, rfl⟩
  | define name v => exact ⟨.define _ _ .refl, rfl, rfl, rfl⟩
  | defineUser name params body => exact ⟨.refl, rfl, rfl, rfl⟩
  | writeLine line => exact of_apart (p := .writeLine line) (.writeLine line) (fun _ => rfl) m
  | glance => exact of_apart (p := .glance) .glance (fun _ => rfl) m
  | host what args => exact of_apart (p := .host what args) (.host what args) (fun _ => rfl) m
  | callMember ref member args =>
    exact of_apart (p := .callMember ref member args) (.callMember ref member args) (fun _ => rfl) m
  | contain path => exact contain path m
  | passthrough language code => exact passthrough language code m
  | dispatch c => exact of_apart (p := .dispatch c) (.dispatch c) (fun _ => rfl) m

end Prim.Footprint

end Helios
