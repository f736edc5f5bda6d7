import Helios.Proofs.Parsing
import Helios.Proofs.Provenance

/-!
# Confinement — control flow never leaves its construct

The parser allows `return` inside a function, and `break` and `continue` inside a loop of the same function.
A statement in such a place ends with a signal for it at most (`Signal.Allowed`): loops take the signals of
loops, and bodies of functions start without a loop around them.
-/

namespace Helios

/-! ## Signals and places -/

/-- **The signals of a place**: in a function or not, in a loop or not. -/
def Signal.Allowed (fn loop : Bool) : Option Signal → Prop
  | none => True
  | some (.return_ _) => fn = true
  | some .break_ | some .continue_ => loop = true

/-- What may leave a loop may leave the place it stands in. -/
theorem Signal.Allowed.of_loop {fn loop : Bool} {signal : Option Signal} (h : Allowed fn false signal) :
    Allowed fn loop signal := by
  rcases signal with _ | (_ | _ | v)
  · trivial
  · exact nomatch h
  · exact nomatch h
  · exact h

/-- The statements of a block are parsed in one place. -/
def Block.Parsed (fn loop : Bool) (b : Block) : Prop := Block.All (Stmt.Parsed fn loop) b

/-- What signals a task may end with, wherever its code is parsed. A loop ends without signals of loops. -/
def Task.Confined : {α : Type} → Task α → α → Prop
  | _, .execBlock b, signal => ∀ fn loop, b.Parsed fn loop → Signal.Allowed fn loop signal
  | _, .execLocated s, signal => ∀ fn loop, s.node.Parsed fn loop → Signal.Allowed fn loop signal
  | _, .exec s, signal => ∀ fn loop, s.Parsed fn loop → Signal.Allowed fn loop signal
  | _, .execWhile _ body, signal => ∀ fn, body.Parsed fn true → Signal.Allowed fn false signal
  | _, .execFor _ _ body, signal => ∀ fn, body.Parsed fn true → Signal.Allowed fn false signal
  | _, _, _ => True

/-- The specification of signals. It asks nothing of the machine. -/
def Spec.signals : Spec where
  Inv _ := True
  Pre _ := True
  Post := Task.Confined
  PrimPre _ := True
  PrimPost _ _ := True

namespace Spec.signals

/-- A plan whose result does not matter. -/
theorem meets_true {α : Type} (p : Plan α) : p.Meets signals (fun _ _ => True) fun _ => True := by
  induction p with
  | give r => exact fun _ _ => trivial
  | prim p => exact ⟨trivial, fun _ _ => trivial⟩
  | start t => exact ⟨trivial, fun _ _ => trivial⟩
  | bind x k ihx ihk => exact Plan.Meets.bind_iff.mpr (ihx.mono (fun _ => id) fun a _ => ihk a)
  | atLine line x ih => exact ih
  | inBlock x ih => exact ih
  | inCall x ih => exact ih

/-- A sequence whose first result does not matter. -/
theorem meets_seq {α β : Type} (x : Plan α) {f : α → Plan β} {Q : β → Prop}
    (h : ∀ a, (f a).Meets signals (fun _ _ => True) Q) : (x >>= f).Meets signals (fun _ _ => True) Q :=
  Plan.Meets.bind_iff.mpr ((meets_true x).mono (fun _ => id) fun a _ => h a)

theorem meets_none {s : Stmt} :
    (pure none : Plan (Option Signal)).Meets signals (fun _ _ => True) (Task.Confined (.exec s)) :=
  Plan.Meets.pure_iff.mpr fun _ _ _ => trivial

theorem planExec (s : Stmt) :
    (Task.planExec s).Meets signals (fun _ _ => True) (Task.Confined (.exec s)) := by
  cases s with
  | assign name e => exact meets_seq _ fun _ => meets_seq _ fun _ => meets_none
  | print args => exact meets_seq _ fun _ => meets_seq _ fun _ => meets_none
  | branch cond yes no =>
    -- the branches stand in the function and the loop that the statement stands in
    refine meets_seq _ fun v => ⟨trivial, fun signal hs fn loop hp => hs fn loop ?_⟩
    cases hp with
    | branch hyes hno =>
      split
      · exact hyes
      · exact hno
  | while_ cond body =>
    refine ⟨trivial, fun signal hs fn loop hp => ?_⟩
    cases hp with
    -- what leaves a body may leave the loop, `break` and `continue` aside
    | while_ h => exact (hs fn h).of_loop
  | for_ var items body =>
    refine meets_seq _ fun v => meets_seq _ fun vs => ⟨trivial, fun signal hs fn loop hp => ?_⟩
    cases hp with
    | for_ h => exact (hs fn h).of_loop
  | define name params body => exact meets_seq _ fun _ => meets_none
  | call callee args => exact meets_seq _ fun _ => meets_none
  | return_ value =>
    have hreturn : ∀ v : Value, Task.Confined (.exec (.return_ value)) (some (.return_ v)) := by
      intro v fn loop hp
      cases hp
      rfl
    cases value with
    | none => exact Plan.Meets.pure_iff.mpr (hreturn _)
    | some e => exact meets_seq _ fun v => Plan.Meets.pure_iff.mpr (hreturn v)
  | break_ =>
    refine Plan.Meets.pure_iff.mpr fun fn loop hp => ?_
    cases hp
    rfl
  | continue_ =>
    refine Plan.Meets.pure_iff.mpr fun fn loop hp => ?_
    cases hp
    rfl
  | contain path => exact meets_seq _ fun _ => meets_none
  | passthrough language code => exact meets_seq _ fun _ => meets_none
  | command c => exact meets_seq _ fun _ => meets_none

/-- A loop takes the signals of its body that are meant for it. -/
theorem planAfter {again : Plan (Option Signal)} {body : Block} {signal : Option Signal}
    (hs : ∀ fn loop, body.Parsed fn loop → Signal.Allowed fn loop signal)
    (h : again.Meets signals (fun _ _ => True) fun r =>
      ∀ fn, body.Parsed fn true → Signal.Allowed fn false r) :
    (Task.planAfter again signal).Meets signals (fun _ _ => True) fun r =>
      ∀ fn, body.Parsed fn true → Signal.Allowed fn false r := by
  rcases signal with _ | (_ | _ | v)
  · exact h
  · exact Plan.Meets.pure_iff.mpr fun _ _ => trivial
  · exact h
  · -- a `return` goes on to the function around the loop
    exact Plan.Meets.pure_iff.mpr fun fn hp => hs fn true hp

/-- **Signals are confined.** -/
theorem valid : signals.Valid where
  inside _ _ := trivial
  left _ _ _ := trivial
  called _ _ := trivial
  returned _ _ _ := trivial
  prim _ _ _ _ := ⟨trivial, fun _ _ => trivial⟩
  plan t _ := by
    cases t with
    | execBlock b =>
      cases b with
      | nil => exact Plan.Meets.pure_iff.mpr fun _ _ _ => trivial
      | cons s rest =>
        refine ⟨trivial, fun signal hs => ?_⟩
        cases signal with
        | some signal =>
          exact Plan.Meets.pure_iff.mpr fun fn loop hp => hs fn loop (Block.All.cons_iff.mp hp).1
        | none => exact ⟨trivial, fun r hr fn loop hp => hr fn loop (Block.All.cons_iff.mp hp).2⟩
    | execLocated s => exact ⟨trivial, fun _ hs => hs⟩
    | exec s => exact planExec s
    | execWhile cond body =>
      refine meets_seq _ fun v => ?_
      split
      · refine ⟨trivial, fun signal hs => ?_⟩
        exact planAfter hs ⟨trivial, fun _ hr => hr⟩
      · exact Plan.Meets.pure_iff.mpr fun _ _ => trivial
    | execFor var items body =>
      cases items with
      | nil => exact Plan.Meets.pure_iff.mpr fun _ _ => trivial
      | cons v rest =>
        refine ⟨trivial, fun _ _ => ⟨trivial, fun signal hs => ?_⟩⟩
        exact planAfter hs ⟨trivial, fun _ hr => hr⟩
    | _ => exact meets_true _

end Spec.signals

/-! ## Accepted code -/

namespace Stmt.Parsed

variable {fn loop : Bool} {s t : Stmt}

/-- The statements inside a parsed statement are parsed, each in its own place. -/
theorem inside (h : s.Parsed fn loop) {b : Block} (hb : b ∈ s.blocks) {l : Located Stmt} (hl : l ∈ b) :
    ∃ fn loop, l.node.Parsed fn loop := by
  cases h with
  | branch hyes hno =>
    rcases List.mem_cons.mp hb with rfl | hb
    · exact ⟨_, _, hyes l hl⟩
    · rw [List.mem_singleton.mp hb] at hl
      exact ⟨_, _, hno l hl⟩
  | while_ h | for_ h | define h =>
    rw [List.mem_singleton.mp hb] at hl
    exact ⟨_, _, h l hl⟩
  | _ => exact nomatch hb

theorem within (ht : t.Within s) (h : s.Parsed fn loop) : ∃ fn loop, t.Parsed fn loop := by
  induction ht generalizing fn loop with
  | refl => exact ⟨fn, loop, h⟩
  | step hb hl _ ih =>
    obtain ⟨fn', loop', h'⟩ := h.inside hb hl
    exact ih h'

/-- Where statements stand is known of everything inside them, and bodies of functions are parsed as such. -/
theorem hereditary : Hereditary (fun s => ∃ fn loop, s.Parsed fn loop) (Block.Parsed true false) where
  branch := by
    rintro cond yes no ⟨fn, loop, h⟩
    cases h with
    | branch hyes hno => exact ⟨fun l hl => ⟨fn, loop, hyes l hl⟩, fun l hl => ⟨fn, loop, hno l hl⟩⟩
  while_ := by
    rintro cond body ⟨fn, loop, h⟩
    cases h with
    | while_ h => exact fun l hl => ⟨fn, true, h l hl⟩
  for_ := by
    rintro var items body ⟨fn, loop, h⟩
    cases h with
    | for_ h => exact fun l hl => ⟨fn, true, h l hl⟩
  define := by
    rintro name params body ⟨fn, loop, h⟩
    cases h with
    | define h => exact h
  body h l hl := ⟨true, false, h l hl⟩

end Stmt.Parsed

/-- **The body of a function of an accepted program**: the parser accepts some source, and the function is
    defined in it, at any depth. -/
def Block.AcceptedBody (body : Block) : Prop :=
  ∃ source program, Stmt.parseProgram source = .ok program ∧
    ∃ l ∈ program, ∃ name params, (Stmt.define name params body).Within l.node

theorem Block.AcceptedBody.parsed {body : Block} (h : body.AcceptedBody) : body.Parsed true false := by
  obtain ⟨source, program, hp, l, hl, name, params, hw⟩ := h
  obtain ⟨fn, loop, h⟩ := Stmt.Parsed.within hw (Stmt.parseProgram_parsed hp l hl)
  exact Stmt.Parsed.hereditary.define ⟨fn, loop, h⟩

/-- **Control flow is confined**: the top level of an accepted program ends without a signal, and the bodies
    of the functions that it calls, directly or not, end without one or with `return`. So nothing is lost
    where a signal is dropped: at the end of a program, and at the end of a call. -/
theorem control_flow_confined (source : String) (program : Block)
    (hp : Stmt.parseProgram source = .ok program) (m : Machine) (hm : m.registry.Bodies Block.AcceptedBody)
    (fuel : Nat) :
    (∀ signal, (Exec.execBlock fuel program m).1 = .ok signal → signal = none) ∧
    ∀ rest name args m', Task.Reaches rest (.callFunction name args) m' fuel (.execBlock program) m →
      ∀ params body, m'.registry.get? name = some (.user params body) →
        ∀ n m'' signal, (Exec.execBlock n body m'').1 = .ok signal →
          signal = none ∨ ∃ v, signal = some (.return_ v) := by
  have hprogram : program.Parsed false false := Stmt.parseProgram_parsed hp
  constructor
  · intro signal hs
    have hallowed := (Spec.signals.valid.run fuel (.execBlock program) trivial m trivial).2 signal hs
    have hnone := hallowed false false hprogram
    rcases signal with _ | (_ | _ | v)
    · rfl
    all_goals exact nomatch hnone
  · intro rest name args m' hreach params body hget n m'' signal hs
    have hcode : Block.All (fun s => ∃ fn loop, s.Parsed fn loop) program :=
      fun l hl => ⟨false, false, hprogram l hl⟩
    have hregistry : m.registry.Bodies (Block.Parsed true false) :=
      fun name params body hget => (hm name params body hget).parsed
    -- whatever was registered on the way to the call was parsed as the body of a function
    have hvalid := Stmt.Parsed.hereditary.valid
    obtain ⟨-, hinv⟩ := hvalid.reaches (t := .execBlock program) hcode hregistry hreach
    have hbody : body.Parsed true false := hinv name params body hget
    have hallowed := (Spec.signals.valid.run n (.execBlock body) trivial m'' trivial).2 signal hs
    have hreturn := hallowed true false hbody
    rcases signal with _ | (_ | _ | v)
    · exact .inl rfl
    · exact nomatch hreturn
    · exact nomatch hreturn
    · exact .inr ⟨v, rfl⟩

/-- A program that defines a function and calls it, on a machine that has run nothing yet. -/
theorem control_flow_confined_in_call :
    Stmt.parseProgram "solar_def f: return end; f" = .ok
      [⟨1, .define "f" [] [⟨1, .return_ none⟩]⟩, ⟨1, .call (.var "f") []⟩] ∧
    ∃ m', Task.Reaches 3 (.callFunction "f" []) m' 10
      (.execBlock [⟨1, .define "f" [] [⟨1, .return_ none⟩]⟩, ⟨1, .call (.var "f") []⟩])
      (Machine.initial .still) ∧
      m'.registry.get? "f" = some (.user [] [⟨1, .return_ none⟩]) ∧
      ∀ n m'' signal, (Exec.execBlock n [⟨1, .return_ none⟩] m'').1 = .ok signal →
        signal = none ∨ ∃ v, signal = some (.return_ v) := by
  have hparse : Stmt.parseProgram "solar_def f: return end; f" = .ok
      [⟨1, .define "f" [] [⟨1, .return_ none⟩]⟩, ⟨1, .call (.var "f") []⟩] := by
    have hchars : "solar_def f: return end; f".toList = ['s', 'o', 'l', 'a', 'r', '_', 'd', 'e', 'f', ' ',
        'f', ':', ' ', 'r', 'e', 't', 'u', 'r', 'n', ' ', 'e', 'n', 'd', ';', ' ', 'f'] := by simp
    unfold Stmt.parseProgram Token.tokenize Token.scan
    rw [hchars]
    with_unfolding_all rfl
  have hget : (((Machine.initial .still).registry.defineUser "f" [] [⟨1, .return_ none⟩]).get? "f") =
      some (.user [] [⟨1, .return_ none⟩]) := by
    rw [Registry.defineUser, Bindings.get?_insert, if_pos rfl]
  have hreach : Task.Reaches 3 (.callFunction "f" [])
      { Machine.initial .still with
        registry := (Machine.initial .still).registry.defineUser "f" [] [⟨1, .return_ none⟩] } 10
      (.execBlock [⟨1, .define "f" [] [⟨1, .return_ none⟩]⟩, ⟨1, .call (.var "f") []⟩])
      (Machine.initial .still) := by
    -- past the definition, then down to the call
    refine .step (.next rfl .start) (.step (.first .start) (.step (.atLine .start) ?_))
    refine .step (.first .start) (.step (.next rfl .start) (.step .start ?_))
    exact .step (.next rfl .start) .here
  refine ⟨hparse, _, hreach, hget, ?_⟩
  exact (control_flow_confined _ _ hparse _ (.withBuiltins Platform.still.regex) 10).2 3 "f" [] _ hreach [] _ hget

end Helios
