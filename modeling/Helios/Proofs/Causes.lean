import Helios.Proofs.Footprint

/-!
# Causes — why built-in functions and modules fail

A built-in function fails only because of the values it is given (`Cause.OfValues`): they have the wrong
type, or there is no answer for them. It never fails with a cause that is the evaluator's to raise: an
unknown name, a wrong number of arguments, calls nested too deep.

The argument is one rule for each way a body is put together (`OnValues.bind` and its companions), one lemma
for each body, `Builtin.table_onValues` for the table of all of them and `Module.functions_onValues` for the
modules. Operators are covered by the same rules, since expressions use them. What is asked of the machine may
fail for other reasons too, but never with what a parser finds in a text, nor because calls nest too deep
(`Exec.Ordinary.prim`).
-/

namespace Helios

/-- **A failure that values are to blame for.** -/
inductive Cause.OfValues : Cause → Prop
  | type (issue : TypeIssue) : OfValues (.type issue)
  | value (issue : ValueIssue) : OfValues (.value issue)
  | broken : OfValues .broken

/-- The result is not a failure, or one that values are to blame for. -/
structure OnValues {α : Type} (r : Except Cause α) : Prop where
  ofValues : ∀ c, r = .error c → c.OfValues

namespace OnValues

variable {α β : Type}

@[simp] theorem ok (a : α) : OnValues (.ok a) := ⟨fun _ h => nomatch h⟩

@[simp] theorem pure (a : α) : OnValues (pure a) := ⟨fun _ h => nomatch h⟩

theorem error {c : Cause} (h : c.OfValues) : OnValues (.error c : Except Cause α) :=
  ⟨fun _ hc => Except.error.inj hc ▸ h⟩

/-- A wrong type is the fault of a value. -/
@[simp] theorem type (issue : TypeIssue) : OnValues (throw (.type issue) : Except Cause α) :=
  error (.type issue)

@[simp] theorem value (issue : ValueIssue) : OnValues (throw (.value issue) : Except Cause α) :=
  error (.value issue)

/-- An argument of the wrong type is. -/
@[simp] theorem wrongType (function wanted : String) (i : Nat) (got : Value) :
    OnValues (throw (Builtin.wrongType function wanted i got) : Except Cause α) :=
  error (.type _)

/-- What comes second may use what comes first, if anything did. -/
theorem bind {x : Except Cause α} {f : α → Except Cause β} (hx : OnValues x) (hf : ∀ a, OnValues (f a)) :
    OnValues (x >>= f) := by
  cases x with
  | error c => exact error (hx.ofValues c rfl)
  | ok a => exact hf a

theorem map {x : Except Cause α} (hx : OnValues x) (f : α → β) : OnValues (x.map f) := by
  cases x with
  | error c => exact error (hx.ofValues c rfl)
  | ok a => exact ok (f a)

theorem ite {p : Prop} [Decidable p] {x y : Except Cause α} (hx : OnValues x) (hy : OnValues y) :
    OnValues (if p then x else y) := by
  split
  · exact hx
  · exact hy

end OnValues

/-! ## Operators -/

namespace Value

/-- Arithmetic fails on what is no number, and on nothing else. -/
theorem numeric_onValues (symbol : String) (onInts : Int → Int → Int) (onFloats : Float → Float → Float)
    (a b : Value) : OnValues (numeric symbol onInts onFloats a b) := by
  unfold numeric
  split
  · exact .ok _
  · split
    · exact .ok _
    · exact .error (.type _)

/-- `+` on two texts or two lists does not fail. -/
theorem add_onValues (a b : Value) : OnValues (add a b) := by
  unfold add
  split
  · exact .ok _
  · exact .ok _
  · exact .error (.type _)
  · exact .error (.type _)
  · exact numeric_onValues ..

/-- Division fails by zero and on what is no number. -/
theorem div_onValues (a b : Value) : OnValues (div a b) := by
  unfold div
  split
  · exact .ite (.error (.value _)) (.ok _)
  · exact .error (.type _)

/-- So does the remainder, of ints and of floats. -/
theorem rem_onValues (a b : Value) : OnValues (rem a b) := by
  unfold rem
  split
  · refine .ite (.error (.value _)) ?_
    split
    · exact .ite (.ok _) (.ok _)
    · exact .ok _
  · exact .ite (.error (.value _)) (.ok _)
  · exact .error (.type _)

theorem neg_onValues (v : Value) : OnValues v.neg := by
  cases v with
  | int n => exact .ok _
  | float x => exact .ok _
  | _ => exact .error (.type _)

/-- Two values with no order between them: their types are to blame. -/
theorem compare_onValues (a b : Value) : OnValues (compare a b) := by
  unfold compare
  split
  · exact .ok _
  · split
    · exact .ok _
    · exact .error (.type _)

/-- A place that has been checked is there; `Cause.broken` stands for its being missing. -/
@[simp] theorem itemAt_onValues {α : Type} (items : List α) (j : Nat) : OnValues (itemAt items j) := by
  unfold itemAt
  split
  · exact .ok _
  · exact .error .broken

@[simp] theorem itemsBetween_onValues {α : Type} (items : List α) (i j : Nat) :
    OnValues (itemsBetween items i j) := by
  unfold itemsBetween
  exact .ite (.ok _) (.error .broken)

/-- An index out of range. -/
@[simp] theorem resolveIndex_onValues (i : Int64) (n : Nat) : OnValues (resolveIndex i n) := by
  unfold resolveIndex
  split
  · exact .ok _
  · exact .error (.value _)

/-- **Indexing fails on values only**: a bad index, a missing key, or what has no items. -/
theorem index_onValues (v i : Value) : OnValues (v.index i) := by
  unfold index
  split
  · exact .bind (by simp) fun _ => by simp
  · exact .bind (by simp) fun _ => .bind (by simp) fun _ => .pure _
  · split
    · exact .ok _
    · exact .error (.value _)
  · exact .error (.type _)
  · exact .error (.type _)
  · exact .error (.type _)

/-- A `for` fails on what cannot be gone through. -/
theorem iterate_onValues (v : Value) : OnValues v.iterate := by
  cases v with
  | list items => exact .ok _
  | str s => exact .ok _
  | dict pairs => exact .ok _
  | _ => exact .error (.type _)

/-- **Operators fail on values only.** -/
theorem binary_onValues (op : BinOp) (a b : Value) : OnValues (binary op a b) := by
  cases op with
  | add => exact add_onValues a b
  | sub | mul => exact numeric_onValues ..
  | div => exact div_onValues a b
  | rem => exact rem_onValues a b
  | lt | le | gt | ge => exact (compare_onValues a b).map _
  | eq | ne | and | or => exact .ok _

end Value

/-! ## Arguments -/

namespace Builtin

/-- An argument is there when its place is below the arity. -/
@[simp] theorem arg_onValues (args : List Value) (i : Nat) : OnValues (arg args i) :=
  Value.itemAt_onValues args i

@[simp] theorem strArg_onValues (function : String) (args : List Value) (i : Nat) :
    OnValues (strArg function args i) := by
  refine .bind (by simp) fun v => ?_
  split <;> simp

/-- A float is taken as an int when it is one. -/
@[simp] theorem intArg_onValues (function : String) (args : List Value) (i : Nat) :
    OnValues (intArg function args i) := by
  refine .bind (by simp) fun v => ?_
  split
  · exact .pure _
  · exact .ite (.pure _) (.wrongType ..)
  · exact .wrongType ..

@[simp] theorem numArg_onValues (function : String) (args : List Value) (i : Nat) :
    OnValues (numArg function args i) := by
  refine .bind (by simp) fun v => ?_
  split <;> simp

@[simp] theorem listArg_onValues (function : String) (args : List Value) (i : Nat) :
    OnValues (listArg function args i) := by
  refine .bind (by simp) fun v => ?_
  split <;> simp

@[simp] theorem dictArg_onValues (function : String) (args : List Value) (i : Nat) :
    OnValues (dictArg function args i) := by
  refine .bind (by simp) fun v => ?_
  split <;> simp

/-! ## Numbers -/

/-- Rounding fails on what is no number and on what no int holds. -/
@[simp] theorem toInt_onValues (function : String) (round : Decimal.Binary → Int) (x : Float) :
    OnValues (toInt function round x) := by
  unfold toInt
  split
  · exact .ok _
  · exact .error (.value _)

theorem abs_onValues (args : List Value) : OnValues (abs args) := by
  refine .bind (by simp) fun v => ?_
  split <;> simp

/-- The best so far is compared with one item after the other. -/
theorem extremeOf_onValues (wanted : Ordering) (best : Value) (vs : List Value) :
    OnValues (extremeOf wanted best vs) := by
  induction vs generalizing best with
  | nil => exact .pure best
  | cons v rest ih => exact .bind (Value.compare_onValues v best) fun _ => ih _

/-- `min` and `max` fail on nothing to choose from and on what has no order. -/
theorem extreme_onValues (function : String) (wanted : Ordering) (args : List Value) :
    OnValues (extreme function wanted args) := by
  unfold extreme
  dsimp only
  -- of the items of a single list, or of the arguments
  split
  · exact .error (.value _)
  · exact extremeOf_onValues ..

theorem toWhole_onValues (function : String) (round : Decimal.Binary → Int) (args : List Value) :
    OnValues (toWhole function round args) := by
  refine .bind (by simp) fun v => ?_
  split
  · exact .pure _
  · exact .bind (by simp) fun x => by simp

theorem round_onValues (args : List Value) : OnValues (round args) := by
  refine .bind (by simp) fun x => .ite ?_ (toWhole_onValues ..)
  exact .bind (by simp) fun digits => .pure _

theorem sqrt_onValues (args : List Value) : OnValues (sqrt args) :=
  .bind (by simp) fun _ => .ite (.value _) (.pure _)

/-- A power that overflows is a float, not a failure. -/
theorem pow_onValues (args : List Value) : OnValues (pow args) := by
  refine .bind (by simp) fun b => .bind (by simp) fun e => ?_
  split
  · exact .pure _
  · exact .bind (by simp) fun x => .bind (by simp) fun y => .pure _

/-- Nobody sleeps for a negative time. -/
theorem sleep_onValues (args : List Value) : OnValues (sleep args) :=
  .bind (by simp) fun _ => .ite (.value _) (.pure _)

/-! ## Texts -/

theorem len_onValues (args : List Value) : OnValues (len args) := by
  refine .bind (by simp) fun v => ?_
  split <;> simp

/-- `upper`, `lower` and `trim` fail on what is no text. -/
theorem onText_onValues (function : String) (f : List Char → List Char) (args : List Value) :
    OnValues (onText function f args) :=
  .bind (by simp) fun _ => .pure _

/-- With no separator, at blanks. -/
theorem split_onValues (args : List Value) : OnValues (split args) := by
  refine .bind (by simp) fun s => .ite (.pure _) ?_
  exact .bind (by simp) fun sep => .ite (.pure _) (.pure _)

theorem join_onValues (args : List Value) : OnValues (join args) :=
  .bind (by simp) fun _ => .bind (by simp) fun _ => .pure _

theorem replace_onValues (args : List Value) : OnValues (replace args) :=
  .bind (by simp) fun _ => .bind (by simp) fun _ => .bind (by simp) fun _ => .ite (.pure _) (.pure _)

/-- The bounds are put in order before anything is cut, so the cut does not fail. -/
theorem substr_onValues (args : List Value) : OnValues (substr args) := by
  have hpart : ∀ (cs : List Char) i j,
      OnValues (do let part ← Value.itemsBetween cs i j; pure (Value.ofChars part)) :=
    fun cs i j => .bind (by simp) fun _ => .pure _
  refine .bind (by simp) fun s => .bind (by simp) fun start => .ite ?_ ?_
  · exact .bind (.pure _) fun _ => hpart ..
  · exact .bind (by simp) fun _ => .bind (.pure _) fun _ => hpart ..

/-- Texts are searched for texts only, lists and dicts for anything. -/
theorem contains_onValues (args : List Value) : OnValues (contains args) := by
  refine .bind (by simp) fun v => ?_
  split
  · exact .bind (by simp) fun _ => .pure _
  · exact .bind (by simp) fun _ => .pure _
  · exact .bind (by simp) fun _ => .pure _
  · exact .wrongType ..

theorem startsWith_onValues (args : List Value) : OnValues (startsWith args) :=
  .bind (by simp) fun _ => .bind (by simp) fun _ => .pure _

theorem endsWith_onValues (args : List Value) : OnValues (endsWith args) :=
  .bind (by simp) fun _ => .bind (by simp) fun _ => .pure _

theorem find_onValues (args : List Value) : OnValues (find args) := by
  refine .bind (by simp) fun v => ?_
  split
  · exact .bind (by simp) fun _ => .pure _
  · exact .bind (by simp) fun _ => .pure _
  · exact .wrongType ..

/-- What would be too long is refused. -/
theorem repeat_onValues (args : List Value) : OnValues (repeat_ args) := by
  refine .bind (by simp) fun n => .bind (by simp) fun v => ?_
  split
  · exact .ite (.value _) (.pure _)
  · exact .ite (.value _) (.pure _)
  · exact .wrongType ..

/-- A pattern that is none is a wrong value. -/
theorem matches_onValues (regex : Regex) (args : List Value) : OnValues (matches_ regex args) := by
  refine .bind (by simp) fun text => .bind (by simp) fun pattern => ?_
  split
  · exact .pure _
  · exact .value _

/-! ## Lists and dicts -/

/-- A step of zero, or more items than a list may have. -/
theorem range_onValues (args : List Value) : OnValues (range args) := by
  unfold range
  dsimp only
  split
  · refine .bind (by simp) fun stop => .bind (.pure _) fun bounds => ?_
    exact .ite (.value _) (.ite (.value _) (.pure _))
  · refine .bind (by simp) fun start => .bind (by simp) fun stop => .bind (.pure _) fun bounds => ?_
    exact .ite (.value _) (.ite (.value _) (.pure _))
  · refine .bind (by simp) fun start => .bind (by simp) fun stop => .bind (by simp) fun step => ?_
    exact .bind (.pure _) fun bounds => .ite (.value _) (.ite (.value _) (.pure _))

theorem append_onValues (args : List Value) : OnValues (append args) :=
  .bind (by simp) fun _ => .bind (by simp) fun _ => .pure _

theorem insert_onValues (args : List Value) : OnValues (insert args) :=
  .bind (by simp) fun _ => .bind (by simp) fun _ => .bind (by simp) fun _ => .pure _

theorem remove_onValues (args : List Value) : OnValues (remove args) := by
  refine .bind (by simp) fun v => ?_
  split
  · exact .bind (by simp) fun _ => .pure _
  · exact .bind (by simp) fun _ => .pure _
  · exact .wrongType ..

/-- An empty list, or an index out of range. -/
theorem pop_onValues (args : List Value) : OnValues (pop args) := by
  refine .bind (by simp) fun items => .ite (.value _) (.ite ?_ ?_)
  · exact .bind (.pure _) fun _ => .pure _
  · exact .bind (by simp) fun _ => .bind (by simp) fun _ => .pure _

theorem first_onValues (args : List Value) : OnValues (first args) := by
  refine .bind (by simp) fun items => ?_
  split <;> simp

theorem last_onValues (args : List Value) : OnValues (last args) := by
  refine .bind (by simp) fun items => ?_
  split <;> simp

theorem reverse_onValues (args : List Value) : OnValues (reverse args) := by
  refine .bind (by simp) fun v => ?_
  split <;> simp

/-- Every item is compared with the first. -/
theorem comparableWith_onValues (v : Value) (vs : List Value) : OnValues (comparableWith v vs) := by
  induction vs with
  | nil => exact .pure ()
  | cons w rest ih => exact .bind (Value.compare_onValues v w) fun _ => ih

/-- Sorting fails before it begins. -/
theorem sort_onValues (args : List Value) : OnValues (sort args) := by
  refine .bind (by simp) fun items => ?_
  split
  · exact .bind (.pure ()) fun _ => .pure _
  · exact .bind (comparableWith_onValues _ _) fun _ => .pure _

/-- Bounds out of range are moved to the ends. -/
theorem sliceBounds_onValues (args : List Value) (n : Nat) : OnValues (sliceBounds args n) := by
  refine .bind (by simp) fun start => .ite ?_ ?_
  · exact .bind (.pure _) fun _ => .pure _
  · exact .bind (by simp) fun _ => .bind (.pure _) fun _ => .pure _

theorem slice_onValues (args : List Value) : OnValues (slice args) := by
  refine .bind (by simp) fun v => ?_
  split
  · exact .bind (sliceBounds_onValues ..) fun _ => .bind (by simp) fun _ => .pure _
  · exact .bind (sliceBounds_onValues ..) fun _ => .bind (by simp) fun _ => .pure _
  · exact .wrongType ..

theorem keys_onValues (args : List Value) : OnValues (keys args) := .bind (by simp) fun _ => .pure _

theorem values_onValues (args : List Value) : OnValues (values args) := .bind (by simp) fun _ => .pure _

theorem hasKey_onValues (args : List Value) : OnValues (hasKey args) :=
  .bind (by simp) fun _ => .bind (by simp) fun _ => .pure _

/-- A key is always set; an index may be out of range. -/
theorem set_onValues (args : List Value) : OnValues (set args) := by
  refine .bind (by simp) fun v => ?_
  split
  · exact .bind (by simp) fun _ => .bind (by simp) fun _ => .pure _
  · exact .bind (by simp) fun _ => .bind (by simp) fun _ => .bind (by simp) fun _ => .pure _
  · exact .wrongType ..

/-- What is not found is no failure. -/
theorem get_onValues (args : List Value) : OnValues (get args) := by
  refine .bind (by simp) fun v => ?_
  split
  · exact .bind (by simp) fun _ => .pure _
  · refine .bind (by simp) fun i => ?_
    split <;> simp
  · exact .wrongType ..

/-! ## Conversions -/

theorem toStr_onValues (args : List Value) : OnValues (toStr args) := .bind (by simp) fun _ => .pure _

/-- A text that is no number. -/
theorem int_onValues (args : List Value) : OnValues (int args) := by
  refine .bind (by simp) fun v => ?_
  split
  · exact .pure _
  · exact toInt_onValues ..
  · exact .pure _
  · dsimp only
    split
    · exact .pure _
    · split <;> simp
  · exact .wrongType ..

theorem float_onValues (args : List Value) : OnValues (float args) := by
  refine .bind (by simp) fun v => ?_
  split
  · exact .pure _
  · exact .pure _
  · exact .pure _
  · split <;> simp
  · exact .wrongType ..

theorem bool_onValues (args : List Value) : OnValues (bool args) := .bind (by simp) fun _ => .pure _

theorem typeOf_onValues (args : List Value) : OnValues (typeOf args) := .bind (by simp) fun _ => .pure _

/-! ## The table -/

end Builtin

/-- The body fails on values only. Bodies that need the machine are not considered here. -/
def BuiltinBody.OnValues : BuiltinBody → Prop
  | .pure run => ∀ args, Helios.OnValues (run args)
  | .timed run => ∀ wall args, Helios.OnValues (run wall args)
  | .host _ => True

namespace Builtin

/-- **Every pure built-in function fails on values only.** -/
theorem table_onValues (regex : Regex) : ∀ e ∈ table regex, e.2.2.OnValues := by
  simp only [table, List.forall_mem_cons, BuiltinBody.OnValues, true_and]
  exact ⟨sleep_onValues, abs_onValues, extreme_onValues _ _, extreme_onValues _ _, toWhole_onValues _ _,
    toWhole_onValues _ _, round_onValues, sqrt_onValues, pow_onValues, len_onValues, onText_onValues _ _,
    onText_onValues _ _, onText_onValues _ _, split_onValues, join_onValues, replace_onValues,
    substr_onValues, contains_onValues, startsWith_onValues, endsWith_onValues, find_onValues,
    repeat_onValues, matches_onValues _, range_onValues, append_onValues, insert_onValues, remove_onValues,
    pop_onValues, first_onValues, last_onValues, reverse_onValues, sort_onValues, slice_onValues,
    keys_onValues, values_onValues, hasKey_onValues, set_onValues, get_onValues, fun _ _ => .ok _,
    toStr_onValues, int_onValues, float_onValues, bool_onValues, typeOf_onValues, nofun⟩

/-- The bodies that modules export again, among them those that read the clock. -/
theorem onValues_of_pure? {r : Reading} {name : String} {arity : Arity} {run : PureBody}
    (h : pure? r name = some (arity, run)) (args : List Value) : OnValues (run args) := by
  obtain ⟨body, hrun, hmem⟩ := mem_of_pure? h
  have hbody := table_onValues r.regex _ hmem
  cases body with
  | pure run =>
    obtain rfl := Option.some.inj hrun
    exact hbody args
  | timed run =>
    obtain rfl := Option.some.inj hrun
    exact hbody r.wall args
  | host what => nomatch hrun

end Builtin

/-! ## Modules -/

/-- The member function fails on values only. -/
def MemberBody.OnValues : MemberBody → Prop
  | .pure run => ∀ args, Helios.OnValues (run args)
  | .drawing run => ∀ args g, Helios.OnValues (run args g)

namespace Module

/-- An argument of a module's function. -/
@[simp] theorem num_onValues (function : String) (args : List Value) (i : Nat) :
    OnValues (num function args i) := by
  refine .bind (by simp) fun v => ?_
  split <;> simp

@[simp] theorem int_onValues (function : String) (args : List Value) (i : Nat) :
    OnValues (int function args i) := by
  refine .bind (by simp) fun v => ?_
  split <;> simp

/-- Functions of floats have an answer for every float, be it NaN. -/
theorem float1_onValues (name : String) (f : Float → Float) : (float1 name f).body.OnValues :=
  fun _ => .bind (by simp) fun _ => .pure _

theorem float2_onValues (name : String) (f : Float → Float → Float) : (float2 name f).body.OnValues :=
  fun _ => .bind (by simp) fun _ => .bind (by simp) fun _ => .pure _

/-- No logarithm of zero or less. -/
theorem log_onValues (args : List Value) : OnValues (log args) := by
  refine .bind (by simp) fun x => .ite (.value _) (.ite ?_ (.pure _))
  exact .bind (by simp) fun base => .pure _

theorem uniform_onValues (args : List Value) (g : Random) : OnValues (uniform args g) :=
  .bind (by simp) fun _ => .bind (by simp) fun _ => .pure _

theorem randint_onValues (args : List Value) (g : Random) : OnValues (randint args g) :=
  .bind (by simp) fun _ => .bind (by simp) fun _ => .ite (.value _) (.pure _)

/-- Nothing is chosen from an empty list. -/
theorem choice_onValues (args : List Value) (g : Random) : OnValues (choice args g) := by
  refine .bind (by simp) fun v => ?_
  split
  · exact .value _
  · exact .bind (by simp) fun _ => .pure _
  · exact .type _

theorem seed_onValues (args : List Value) (g : Random) : OnValues (seed args g) :=
  .bind (by simp) fun _ => .pure _

theorem capitalize_onValues (args : List Value) : OnValues (capitalize args) := by
  refine .bind (by simp) fun v => ?_
  split <;> simp

/-- What a module exports again it took from the table. -/
theorem reexports_onValues (r : Reading) (names : List String) :
    ∀ f ∈ names.filterMap (reexport r), f.body.OnValues := by
  intro f hf
  obtain ⟨name, -, hf⟩ := List.mem_filterMap.1 hf
  obtain ⟨⟨arity, run⟩, hrun, rfl⟩ := Option.map_eq_some_iff.1 hf
  exact Builtin.onValues_of_pure? hrun

/-- **Every member function fails on values only.** -/
theorem functions_onValues (r : Reading) (m : ModuleName) :
    ∀ f ∈ functions r m, f.body.OnValues := by
  cases m with
  | math =>
    refine List.forall_mem_append.2 ⟨reexports_onValues r _, ?_⟩
    simp only [List.forall_mem_cons]
    exact ⟨float1_onValues _ _, float1_onValues _ _, float1_onValues _ _, float1_onValues _ _,
      float2_onValues _ _, float2_onValues _ _, log_onValues, nofun⟩
  | random =>
    simp only [functions, List.forall_mem_cons]
    exact ⟨fun _ _ => .ok _, uniform_onValues, randint_onValues, choice_onValues, seed_onValues, nofun⟩
  | time =>
    refine List.forall_mem_append.2 ⟨reexports_onValues r _, ?_⟩
    simp only [List.forall_mem_cons]
    exact ⟨fun _ => .ok _, nofun⟩
  | string =>
    refine List.forall_mem_append.2 ⟨reexports_onValues r _, ?_⟩
    simp only [List.forall_mem_cons]
    exact ⟨capitalize_onValues, nofun⟩

end Module

/-! ## Questions to the machine -/

/-- **A failure that running code may raise anywhere**: neither what the lexer or a parser finds in a text, nor that
    calls nest too deep. -/
inductive Cause.Ordinary : Cause → Prop
  | name (n : String) : Ordinary (.name n)
  | arity (function : String) (expected : Arity) (got : Nat) : Ordinary (.arity function expected got)
  | type (issue : TypeIssue) : Ordinary (.type issue)
  | value (issue : ValueIssue) : Ordinary (.value issue)
  | package (path reason : String) : Ordinary (.package path reason)
  | passthrough (language message : String) : Ordinary (.passthrough language message)
  | frontend (command : String) (issue : FrontendIssue) : Ordinary (.frontend command issue)
  | reported (message : String) : Ordinary (.reported message)
  | broken : Ordinary .broken

/-- What values are to blame for may be raised anywhere. -/
theorem Cause.OfValues.ordinary {c : Cause} (h : c.OfValues) : c.Ordinary := by
  cases h with
  | type issue => exact .type issue
  | value issue => exact .value issue
  | broken => exact .broken

/-- The result is not a failure, or an ordinary one. -/
def Ordinary {α : Type} (r : Except Cause α) : Prop := ∀ c, r = .error c → c.Ordinary

namespace Ordinary

variable {α β : Type}

theorem ok (a : α) : Ordinary (.ok a) := fun _ h => nomatch h

theorem error {c : Cause} (h : c.Ordinary) : Ordinary (.error c : Except Cause α) :=
  fun _ hc => Except.error.inj hc ▸ h

theorem bind {x : Except Cause α} {f : α → Except Cause β} (hx : Ordinary x) (hf : ∀ a, Ordinary (f a)) :
    Ordinary (x >>= f) := by
  cases x with
  | error c => exact error (hx c rfl)
  | ok a => exact hf a

end Ordinary

/-- Failing on values is failing in an ordinary way. -/
theorem OnValues.ordinary {α : Type} {r : Except Cause α} (h : OnValues r) : Ordinary r :=
  fun c hc => (h.ofValues c hc).ordinary

/-- The wrong number of arguments is not the fault of a value, but ordinary. -/
theorem Arity.check_ordinary (a : Arity) (function : String) (got : Nat) : Ordinary (a.check function got) := by
  unfold Arity.check
  split
  · exact .ok ()
  · exact .error (.arity ..)

/-- **A call of a module's function fails in ordinary ways only.** The name may not be there, the number of arguments
    may be wrong, and its body fails on values. -/
theorem Module.call_ordinary (r : Reading) (m : ModuleName) (name : String) (args : List Value)
    (g : Random) : Ordinary (Module.call r m name args g) := by
  unfold Module.call
  split
  · exact .error (.name _)
  · rename_i f hf
    have hbody := Module.functions_onValues r m f (List.mem_of_find?_eq_some hf)
    refine .bind (Arity.check_ordinary _ _ _) fun _ => ?_
    split
    · rename_i run hrun
      rw [hrun] at hbody
      exact ((hbody args).bind fun _ => .pure _).ordinary
    · rename_i run hrun
      rw [hrun] at hbody
      exact (hbody args g).ordinary

/-- What is wrong with a command is an ordinary failure. -/
theorem FrontendError.toCause_ordinary (e : FrontendError) : e.toCause.Ordinary := by
  cases e with
  | failed command issue => exact .frontend command issue
  | reported message => exact .reported message
  | unknown what name => exact .name name

namespace Exec

/-- **The computation fails in ordinary ways only**, and at a place that is not known yet. -/
def Ordinary {α : Type} (x : Exec α) : Prop :=
  ∀ m e, (x m).1 = .error (.failed e) → e.cause.Ordinary ∧ e.location = .unknown

namespace Ordinary

variable {α β : Type}

/-- What never fails. -/
theorem of_ok {x : Exec α} (h : ∀ m, ∃ a, (x m).1 = .ok a) : Ordinary x := by
  intro m e he
  obtain ⟨a, ha⟩ := h m
  rw [ha] at he
  nomatch he

/-- A failure lifted to the machine has no place yet. -/
theorem ofExcept {r : Except Cause α} (h : Helios.Ordinary r) : Ordinary (ofExcept r) := by
  intro m e he
  cases r with
  | ok a => nomatch he
  | error c =>
    obtain rfl := Halt.failed.inj (Except.error.inj he)
    exact ⟨h c rfl, rfl⟩

/-- Failing on values, on the machine. -/
theorem onValues {r : Except Cause α} (h : OnValues r) : Ordinary (Exec.ofExcept r) := ofExcept h.ordinary

/-- The second computation starts where the first has left the machine. -/
theorem bind {x : Exec α} {f : α → Exec β} (hx : Ordinary x) (hf : ∀ a, Ordinary (f a)) :
    Ordinary (x >>= f) := by
  intro m e
  rw [bind_apply]
  have h := hx m e
  revert h
  rcases x m with ⟨e' | a, m'⟩ <;> intro h he
  · exact h (congrArg Except.error (Except.error.inj he))
  · exact hf a m' e he

/-- A line that cannot be read is no failure. -/
theorem readLine (prompt : String) : Ordinary (readLine prompt) := by
  rintro ⟨_, _, _, _, _, _, input, stdin, _, _, _, _, _, _, _⟩ e
  cases input with
  | cons line rest => nofun
  | nil =>
    cases stdin with
    | off => nofun
    | text cs ended =>
      dsimp only [Exec.readLine]
      split
      · nofun
      · split
        · split <;> nofun
        · nofun

/-- **The built-in functions that need the machine fail in ordinary ways only.** -/
theorem host (what : HostBuiltin) (args : List Value) : Ordinary (host what args) := by
  have hwrite : ∀ line, Ordinary (Exec.writeLine line) := fun _ => of_ok fun _ => ⟨_, rfl⟩
  have hdraw : ∀ {α : Type} (f : Random → α × Random), Ordinary (Exec.draw f) :=
    fun _ => of_ok fun _ => ⟨_, rfl⟩
  have hpure : ∀ {α : Type} (a : α), Ordinary (pure a : Exec α) := fun _ => of_ok fun _ => ⟨_, rfl⟩
  cases what with
  | print => exact bind (hwrite _) fun _ => hpure _
  | input => exact bind (readLine _) fun _ => hpure _
  | add =>
    exact bind (onValues (by simp)) fun a => bind (onValues (by simp)) fun b =>
      bind (onValues (Value.add_onValues a b)) fun _ => bind (hwrite _) fun _ => hpure _
  | mul =>
    exact bind (onValues (by simp)) fun a => bind (onValues (by simp)) fun b =>
      bind (onValues (Value.numeric_onValues _ _ _ a b)) fun _ => bind (hwrite _) fun _ => hpure _
  | random => exact bind (hdraw _) fun _ => hpure _
  | randint =>
    refine bind (onValues (by simp)) fun low => bind (onValues (by simp)) fun high => ?_
    split
    · exact onValues (r := .error _) (.error (.value _))
    · exact bind (hdraw _) fun _ => hpure _
  | choice =>
    refine bind (onValues (by simp)) fun items => ?_
    split
    · exact onValues (r := .error _) (.error (.value _))
    · exact bind (hdraw _) fun _ => onValues (by simp)
  | clock => exact bind (of_ok fun _ => ⟨_, rfl⟩) fun _ => hpure _

/-- A host object may not have the member; else its function is called. -/
theorem callMember (ref : HostRef) (member : String) (args : List Value) :
    Ordinary (callMember ref member args) := by
  intro m e he
  cases ref with
  | guest id function =>
    obtain rfl := Halt.failed.inj (Except.error.inj he)
    exact ⟨.name _, rfl⟩
  | module name id =>
    have hcall := Module.call_ordinary m.reading name member args (m.hosts.generator id)
    dsimp only [Exec.callMember, Hosts.call] at he
    cases h : Module.call m.reading name member args (m.hosts.generator id) with
    | ok r => rw [h] at he; nomatch he
    | error c =>
      rw [h] at he hcall
      obtain rfl := Halt.failed.inj (Except.error.inj he)
      exact ⟨hcall c rfl, rfl⟩

/-- The frontend refuses, or breaks off. -/
theorem dispatch (c : FrontendCommand) : Ordinary (dispatch c) := by
  intro m e
  unfold Exec.dispatch
  rcases m.frontend.dispatch c with ⟨issue | reply | -, frontend⟩ <;> intro he
  · obtain rfl := Halt.failed.inj (Except.error.inj he)
    exact ⟨issue.toCause_ordinary, rfl⟩
  · nomatch he
  · obtain rfl := Halt.failed.inj (Except.error.inj he)
    exact ⟨.broken, rfl⟩

/-- No resolver knows the path. -/
theorem contain (path : String) : Ordinary (contain path) := by
  intro m e
  unfold Exec.contain
  rcases Resolver.resolveFirst m.resolvers path m.hosts with ⟨reason | ref, resolvers, hosts⟩ <;> intro he
  · obtain rfl := Halt.failed.inj (Except.error.inj he)
    exact ⟨.package .., rfl⟩
  · nomatch he

/-- No engine for the language, an engine that panics, or the failure that the engine reports. -/
theorem passthrough (language code : String) : Ordinary (passthrough language code) := by
  intro m e
  rcases Exec.passthrough_cases language code m with ⟨c, hrun, hc⟩ | ⟨run, engines, -, hrun⟩
  · rw [hrun]
    intro he
    obtain rfl := Halt.failed.inj (Except.error.inj he)
    rcases hc with ⟨message, rfl⟩ | rfl
    · exact ⟨.passthrough .., rfl⟩
    · exact ⟨.broken, rfl⟩
  · rw [hrun]
    dsimp only [Engine.Run.report]
    cases run.outcome.error with
    | none => nofun
    | some message =>
      intro he
      obtain rfl := Halt.failed.inj (Except.error.inj he)
      exact ⟨.passthrough .., rfl⟩

/-- **Every question to the machine fails in ordinary ways only.** -/
theorem prim (p : Prim α) : Ordinary p.exec := by
  cases p with
  | lookup name =>
    intro m e
    rw [Prim.exec_lookup]
    cases m.resolveName? name with
    | some v => nofun
    | none =>
      intro he
      obtain rfl := Halt.failed.inj (Except.error.inj he)
      exact ⟨.name name, rfl⟩
  | target name =>
    intro m
    refine ofExcept (r := m.callTarget name) ?_ m
    unfold Machine.callTarget
    split
    · exact .ok _
    · split
      · exact .ok _
      · exact .error (.type _)
    · exact .ok _
  | entry name =>
    intro m e
    dsimp only [Prim.exec]
    cases m.registry.get? name with
    | some entry => nofun
    | none =>
      intro he
      obtain rfl := Halt.failed.inj (Except.error.inj he)
      exact ⟨.name name, rfl⟩
  | registered name => exact of_ok fun _ => ⟨_, rfl⟩
  | assign name v => exact of_ok fun _ => ⟨_, rfl⟩
  | define name v => exact of_ok fun _ => ⟨_, rfl⟩
  | defineUser name params body => exact of_ok fun _ => ⟨_, rfl⟩
  | writeLine line => exact of_ok fun _ => ⟨_, rfl⟩
  | glance => exact of_ok fun _ => ⟨_, rfl⟩
  | host what args => exact host what args
  | callMember ref member args => exact callMember ref member args
  | contain path => exact contain path
  | passthrough language code => exact passthrough language code
  | dispatch c => exact dispatch c

end Ordinary

end Exec

end Helios
