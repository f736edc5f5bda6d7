import Helios.Machine
import Helios.Proofs.Counting
import Helios.Proofs.Words

/-!
# Safety — built-in functions break nothing

A built-in function that computes with words has a second body here (`Checked`), in which every step that may break off
is checked: places in lists and texts, the arithmetic of 32, 64 and 128 bits, and the order that the library's sort asks
for. The other bodies read their arguments and nothing else that may be missing.

Each checked body comes to what the plain one comes to, and nothing breaks, if the arguments are there that the table of
all built-in functions asks for. There is one lemma for each body; `Builtin.table_safe` says it of the whole table. With
`Builtin.table_onValues` a body then gives a value, or a failure of types or values (`Exec.Answer`).
-/

namespace Helios

/-! ## Bodies on words -/

/-- **Whether a comparison is an order on some values**, which a library may rely on when it sorts them: turning the
    values round turns the answer round, and one that is not after another is not after what that is not after. -/
def Orders (order : Value → Value → Ordering) (vs : List Value) : Prop :=
  (∀ v ∈ vs, ∀ w ∈ vs, order w v = (order v w).swap) ∧
  ∀ u ∈ vs, ∀ v ∈ vs, ∀ w ∈ vs, order u v ≠ .gt → order v w ≠ .gt → order u w ≠ .gt

instance (order : Value → Value → Ordering) (vs : List Value) : Decidable (Orders order vs) :=
  inferInstanceAs (Decidable (_ ∧ _))

namespace Checked

open Builtin
open Value (itemAt itemsBetween)
open Word

/-- What `min` and `max` compare. -/
def operands : List Value → List Value
  | [.list items] => items
  | args => args

/-- `min` and `max`: the others are cut out after the first. -/
def extreme (function : String) (wanted : Ordering) : PureBody := fun args =>
  match (operands args).head? with
  | none => .error (.value (.ofEmptyList function))
  | some first => do
    let others ← itemsBetween (operands args) 1 (operands args).length
    extremeOf wanted first others

/-- `round`: the number of digits becomes a word of 32 bits. -/
def round : PureBody := fun args => do
  let x ← numArg "round" args 0
  if args.length = 2 then
    let digits ← intArg "round" args 1
    let scale := Decimal.powInt 10.0 (toSigned 32 (max (-300) (min 300 digits.toInt)))
    pure (.float (Decimal.roundFloat (x * scale) / scale))
  else toWhole "round" Decimal.Binary.round args

/-- `len`: the length becomes a signed word. -/
def len : PureBody := fun args => do
  match ← arg args 0 with
  | .str s => pure (counted s.length)
  | .list items => pure (counted items.length)
  | .dict pairs => pure (counted pairs.length)
  | v => throw (wrongType "len" "a string, list or dict" 0 v)

/-- `substr`: where the sum of start and length does not fit it is the greatest word. -/
def substr : PureBody := fun args => do
  let cs := (← strArg "substr" args 0).toList
  let start ← Word.clampIndex (← intArg "substr" args 1) cs.length
  let stop ←
    if args.length < 3 then pure cs.length
    else
      let count ← intArg "substr" args 2
      pure (min (min (start + toUnsigned 64 (max count.toInt 0)) (2 ^ 64 - 1)) cs.length)
  let part ← itemsBetween cs start stop
  pure (Value.ofChars part)

/-- `find`: the search in a text finds a byte, and the characters before it are cut off and counted. -/
def find : PureBody := fun args => do
  match ← arg args 0 with
  | .str s =>
    let needle ← strArg "find" args 1
    match Text.find? needle.toList s.toList with
    | some p => do
      let before ← charsBefore s.toList (Text.byteLength (s.toList.take p))
      pure (counted before.length)
    | none => pure (.int (-1))
  | .list items =>
    let v ← arg args 1
    match items.findIdx? fun item => Value.eqv item v with
    | some p => pure (counted p)
    | none => pure (.int (-1))
  | v => throw (wrongType "find" "a string or list" 0 v)

/-- Whether `n` copies of something are not too large. A product that does not fit is. -/
def fewCopies (size n : Nat) : Bool := (product? 64 size n).any (· ≤ maxBuilt)

/-- `repeat`. -/
def repeat_ : PureBody := fun args => do
  let n := (← intArg "repeat" args 1).toInt.toNat
  match ← arg args 0 with
  | .str s =>
    if fewCopies s.utf8ByteSize n then pure (.str (Text.copies n s)) else throw (.value .repeatTooLarge)
  | .list items =>
    if fewCopies items.length n then pure (.list (copies n items)) else throw (.value .repeatTooLarge)
  | v => throw (wrongType "repeat" "a string or list" 0 v)

/-- How many steps lead from `start` to before `stop`, in words of 128 bits. -/
def stepCount (start stop step : Int) : Except Cause Int := do
  let span ← signed 128 (stop - start)
  if span.sign = step.sign then
    let beyond ← signed 128 (span + step)
    let beyond ← signed 128 (beyond - step.sign)
    quotient 128 beyond step
  else pure 0

/-- `start`, `start + step`, …: `count` integers, in words of 128 bits. -/
def progression (start step : Int) (count : Nat) : Except Cause (List Value) :=
  (List.range count).mapM fun k : Nat => do
    let offset ← signed 128 (step * k)
    let n ← signed 128 (start + offset)
    pure (.int (Int64.ofInt n))

/-- What `range` answers for a start, a stop and a step. -/
def steps (start stop step : Int) : Except Cause Value := do
  if step = 0 then throw (.value .zeroStep)
  else
    let count ← stepCount start stop step
    if (maxBuilt : Int) < count then throw (.value (.rangeTooLarge count))
    else
      let items ← progression start step count.toNat
      pure (.list items)

/-- `range`. -/
def range : PureBody := fun args => do
  let (start, stop, step) ←
    match args.length with
    | 1 => do
      let stop ← intArg "range" args 0
      pure ((0 : Int), stop.toInt, (1 : Int))
    | 2 => do
      let start ← intArg "range" args 0
      let stop ← intArg "range" args 1
      pure (start.toInt, stop.toInt, 1)
    | _ => do
      let start ← intArg "range" args 0
      let stop ← intArg "range" args 1
      let step ← intArg "range" args 2
      pure (start.toInt, stop.toInt, step.toInt)
  steps start stop step

/-- `insert`. -/
def insert : PureBody := fun args => do
  let items ← listArg "insert" args 0
  let i ← Word.clampIndex (← intArg "insert" args 1) items.length
  let v ← arg args 2
  let items ← insertAt items i v
  pure (.list items)

/-- `remove`: the place of the first equal item is looked for, and the item there taken out. -/
def remove : PureBody := fun args => do
  match ← arg args 0 with
  | .list items =>
    let v ← arg args 1
    match items.findIdx? fun item => Value.eqv item v with
    | some p => do
      let items ← removeAt items p
      pure (.list items)
    | none => pure (.list items)
  | .dict pairs =>
    let key ← arg args 1
    pure (.dict (pairs.filter fun e => !Value.eqv e.1 key))
  | v => throw (wrongType "remove" "a list or dict" 0 v)

/-- `pop`: the place of the last item is one less than their number. -/
def pop : PureBody := fun args => do
  let items ← listArg "pop" args 0
  if items.isEmpty then throw (.value (.fromEmptyList "pop"))
  else
    let i ←
      if args.length < 2 then unsigned 64 (items.length - 1)
      else Word.resolveIndex (← intArg "pop" args 1) items.length
    let items ← removeAt items i
    pure (.list items)

/-- Whether the library may sort some items, whose order is that of their comparison. -/
def sortable (items : List Value) : Prop :=
  Orders (fun v w => match Value.compare v w with
    | .ok o => o
    | .error _ => .eq) items

instance (items : List Value) : Decidable (sortable items) := inferInstanceAs (Decidable (Orders _ _))

/-- `sort`: the library sorts, and may break off where it is not given an order. -/
def sort : PureBody := fun args => do
  let items ← listArg "sort" args 0
  match items with
  | [] => pure ()
  | v :: _ => comparableWith v items
  if sortable items then pure (.list (sorted items)) else throw .broken

/-- The bounds of a slice. -/
def sliceBounds (args : List Value) (n : Nat) : Except Cause (Nat × Nat) := do
  let start ← Word.clampIndex (← intArg "slice" args 1) n
  let stop ← if args.length < 3 then pure n else Word.clampIndex (← intArg "slice" args 2) n
  pure (start, max stop start)

/-- `slice`. -/
def slice : PureBody := fun args => do
  match ← arg args 0 with
  | .list items =>
    let (i, j) ← sliceBounds args items.length
    let part ← itemsBetween items i j
    pure (.list part)
  | .str s =>
    let (i, j) ← sliceBounds args s.toList.length
    let part ← itemsBetween s.toList i j
    pure (Value.ofChars part)
  | v => throw (wrongType "slice" "a list or string" 0 v)

/-- `set`. -/
def set : PureBody := fun args => do
  match ← arg args 0 with
  | .dict pairs =>
    let key ← arg args 1
    let v ← arg args 2
    pure (.dict (Value.dictSet pairs key v))
  | .list items =>
    let i ← Word.resolveIndex (← intArg "set" args 1) items.length
    let v ← arg args 2
    let items ← replaceAt items i v
    pure (.list items)
  | v => throw (wrongType "set" "a list or dict" 0 v)

/-- `get`. -/
def get : PureBody := fun args => do
  let default := (args[2]?).getD .nil
  match ← arg args 0 with
  | .dict pairs =>
    let key ← arg args 1
    pure ((Value.dictGet? pairs key).getD default)
  | .list items =>
    let i ← intArg "get" args 1
    match ← Word.place? i items.length with
    | some j => itemAt items j
    | none => pure default
  | v => throw (wrongType "get" "a list or dict" 0 v)

/-- The checked bodies of the functions that compute with words. -/
def bodies : List (String × PureBody) :=
  [("min", extreme "min" .lt), ("max", extreme "max" .gt), ("round", round), ("len", len), ("substr", substr),
   ("find", find), ("repeat", repeat_), ("range", range), ("insert", insert), ("remove", remove), ("pop", pop),
   ("sort", sort), ("slice", slice), ("set", set), ("get", get)]

/-- **The checked body of a pure built-in function.** One that does not compute with words has no other than its own. -/
def body (name : String) (run : PureBody) : PureBody := (bodies.lookup name).getD run

/-! ## Bodies that draw -/

/-- An integer between two others, in words of 128 bits. -/
def nextInt (g : Random) (low high : Int) : Except Cause (Int × Random) := do
  let (w, g) := g.next
  let distance ← signed 128 (high - low)
  let span ← signed 128 (distance + 1)
  let offset ← remainder w.toNat (toUnsigned 128 span)
  let n ← signed 128 (low + toSigned 128 offset)
  pure (toSigned 64 n, g)

/-- Draw from the generator of the machine. -/
def draw {α : Type} (f : Random → Except Cause (α × Random)) : Exec α := fun m =>
  match f m.random with
  | .ok (a, random) => (.ok a, { m with random })
  | .error c => (.error (.failed ⟨c, .unknown⟩), m)

/-- **The checked body of a built-in function that needs the machine.** -/
def host (what : HostBuiltin) (args : List Value) : Exec Value :=
  match what with
  | .randint => do
    let low ← Exec.ofExcept (intArg "randint" args 0)
    let high ← Exec.ofExcept (intArg "randint" args 1)
    if high.toInt < low.toInt then Exec.fail (.value (.emptyRange low.toInt high.toInt))
    else
      let n ← draw fun g => nextInt g low.toInt high.toInt
      pure (.int (Int64.ofInt n))
  | .choice => do
    let items ← Exec.ofExcept (listArg "choice" args 0)
    if items.isEmpty then Exec.fail (.value (.fromEmptyList "choice"))
    else
      let last ← Exec.ofExcept (signed 64 (toSigned 64 items.length - 1))
      let n ← draw fun g => nextInt g 0 last
      Exec.ofExcept (itemAt items (toUnsigned 64 n))
  | what => Exec.host what args

end Checked

/-- A text is found at a place within. -/
theorem Text.find?_le {needle cs : List Char} {p : Nat} (h : find? needle cs = some p) : p ≤ cs.length := by
  induction cs generalizing p with
  | nil =>
    unfold find? findFrom at h
    split at h
    · exact (Option.some.inj h).ge
    · cases h
  | cons c cs ih =>
    rw [find?_cons] at h
    split at h
    · obtain rfl := Option.some.inj h
      exact Nat.zero_le _
    · obtain ⟨q, hq, rfl⟩ := Option.map_eq_some_iff.mp h
      exact Nat.succ_le_succ (ih hq)

/-! ## Pure bodies -/

namespace Builtin

open Value (Held)

variable {args : List Value}

section Plain

/-! These bodies do not compute with words. -/

/-- Rounding breaks nothing: what no word holds is an error of values. -/
@[simp] theorem toInt_safe (function : String) (round : Decimal.Binary → Int) (x : Float) :
    Safe (toInt function round x) (toInt function round x) := by
  apply Safe.refl
  unfold toInt
  split <;> nofun

/-- One argument is read. -/
theorem sleep_safe (h : 1 ≤ args.length) : Safe (sleep args) (sleep args) :=
  .bind (numArg_safe h) fun _ _ => .ite (fun _ => .value _) fun _ => .pure _

theorem abs_safe (h : 1 ≤ args.length) : Safe (abs args) (abs args) := by
  refine .bind (arg_safe h) fun v _ => ?_
  split <;> simp

/-- An int is whole already. -/
theorem toWhole_safe (function : String) (round : Decimal.Binary → Int) (h : 1 ≤ args.length) :
    Safe (toWhole function round args) (toWhole function round args) := by
  refine .bind (arg_safe h) fun v _ => ?_
  split
  · exact .pure _
  · exact .bind (numArg_safe h) fun x _ => toInt_safe ..

theorem sqrt_safe (h : 1 ≤ args.length) : Safe (sqrt args) (sqrt args) :=
  .bind (numArg_safe h) fun _ _ => .ite (fun _ => .value _) fun _ => .pure _

/-- A power that overflows is computed with floats. -/
theorem pow_safe (h : 2 ≤ args.length) : Safe (pow args) (pow args) := by
  have hfirst : 0 < args.length := by omega
  refine .bind (arg_safe hfirst) fun b _ => .bind (arg_safe h) fun e _ => ?_
  split
  · exact .pure _
  · exact .bind (numArg_safe hfirst) fun x _ => .bind (numArg_safe h) fun y _ => .pure _

/-- `upper`, `lower` and `trim`. -/
theorem onText_safe (function : String) (f : List Char → List Char) (h : 1 ≤ args.length) :
    Safe (onText function f args) (onText function f args) :=
  .bind (strArg_safe h) fun _ _ => .pure _

theorem split_safe (h : 1 ≤ args.length) : Safe (split args) (split args) := by
  refine .bind (strArg_safe h) fun s _ => .ite (fun _ => .pure _) fun hsep => ?_
  exact .bind (strArg_safe (by omega)) fun sep _ => .ite (fun _ => .pure _) fun _ => .pure _

theorem join_safe (h : 2 ≤ args.length) : Safe (join args) (join args) :=
  .bind (listArg_safe (by omega)) fun _ _ => .bind (strArg_safe h) fun _ _ => .pure _

/-- The place of what is replaced is found by searching, so it is there. -/
theorem replace_safe (h : 3 ≤ args.length) : Safe (replace args) (replace args) := by
  refine .bind (strArg_safe (by omega)) fun s _ => .bind (strArg_safe (by omega)) fun old _ => ?_
  exact .bind (strArg_safe h) fun new _ => .ite (fun _ => .pure _) fun _ => .pure _

theorem contains_safe (h : 2 ≤ args.length) : Safe (contains args) (contains args) := by
  refine .bind (arg_safe (by omega)) fun v _ => ?_
  split
  · exact .bind (strArg_safe h) fun _ _ => .pure _
  · exact .bind (arg_safe h) fun _ _ => .pure _
  · exact .bind (arg_safe h) fun _ _ => .pure _
  · exact .wrongType ..

theorem startsWith_safe (h : 2 ≤ args.length) : Safe (startsWith args) (startsWith args) :=
  .bind (strArg_safe (by omega)) fun _ _ => .bind (strArg_safe h) fun _ _ => .pure _

theorem endsWith_safe (h : 2 ≤ args.length) : Safe (endsWith args) (endsWith args) :=
  .bind (strArg_safe (by omega)) fun _ _ => .bind (strArg_safe h) fun _ _ => .pure _

/-- The library finds a pattern or refuses it. -/
theorem matches_safe (regex : Regex) (h : 2 ≤ args.length) : Safe (matches_ regex args) (matches_ regex args) := by
  refine .bind (strArg_safe (by omega)) fun text _ => .bind (strArg_safe h) fun pattern _ => ?_
  split
  · exact .pure _
  · exact .value _

theorem append_safe (h : 2 ≤ args.length) : Safe (append args) (append args) :=
  .bind (listArg_safe (by omega)) fun _ _ => .bind (arg_safe h) fun _ _ => .pure _

/-- Of an empty list there is no first item, and that is an error of values. -/
theorem first_safe (h : 1 ≤ args.length) : Safe (first args) (first args) := by
  refine .bind (listArg_safe h) fun items _ => ?_
  split <;> simp

theorem last_safe (h : 1 ≤ args.length) : Safe (last args) (last args) := by
  refine .bind (listArg_safe h) fun items _ => ?_
  split <;> simp

/-- Lists and texts are turned round item by item. -/
theorem reverse_safe (h : 1 ≤ args.length) : Safe (reverse args) (reverse args) := by
  refine .bind (arg_safe h) fun v _ => ?_
  split <;> simp

theorem keys_safe (h : 1 ≤ args.length) : Safe (keys args) (keys args) :=
  .bind (dictArg_safe h) fun _ _ => .pure _

theorem values_safe (h : 1 ≤ args.length) : Safe (values args) (values args) :=
  .bind (dictArg_safe h) fun _ _ => .pure _

theorem hasKey_safe (h : 2 ≤ args.length) : Safe (hasKey args) (hasKey args) :=
  .bind (dictArg_safe (by omega)) fun _ _ => .bind (arg_safe h) fun _ _ => .pure _

theorem toStr_safe (h : 1 ≤ args.length) : Safe (toStr args) (toStr args) := .bind (arg_safe h) fun _ _ => .pure _

/-- A text is read as a word, and if that fails as a float. -/
theorem int_safe (h : 1 ≤ args.length) : Safe (int args) (int args) := by
  refine .bind (arg_safe h) fun v _ => ?_
  split
  · exact .pure _
  · exact toInt_safe ..
  · exact .pure _
  · dsimp only
    split
    · exact .pure _
    · split <;> simp
  · exact .wrongType ..

theorem float_safe (h : 1 ≤ args.length) : Safe (float args) (float args) := by
  refine .bind (arg_safe h) fun v _ => ?_
  split
  · exact .pure _
  · exact .pure _
  · exact .pure _
  · split <;> simp
  · exact .wrongType ..

theorem bool_safe (h : 1 ≤ args.length) : Safe (bool args) (bool args) := .bind (arg_safe h) fun _ _ => .pure _

theorem typeOf_safe (h : 1 ≤ args.length) : Safe (typeOf args) (typeOf args) := .bind (arg_safe h) fun _ _ => .pure _

end Plain

section Words

/-! These bodies compute with words, and so the arguments must be such as the machine can hold. -/

/-- Comparing breaks nothing, so one may go on comparing. -/
theorem extremeOf_safe (wanted : Ordering) (best : Value) (vs : List Value) :
    Safe (extremeOf wanted best vs) (extremeOf wanted best vs) := by
  induction vs generalizing best with
  | nil => exact .pure best
  | cons v rest ih => exact .bind (Value.compare_safe v best) fun _ _ => ih _

/-- A single list stands for its items. -/
theorem extreme_eq_operands (function : String) (wanted : Ordering) (args : List Value) :
    extreme function wanted args = match Checked.operands args with
      | [] => .error (.value (.ofEmptyList function))
      | first :: rest => extremeOf wanted first rest := by
  rcases args with - | ⟨v, - | ⟨w, rest⟩⟩
  · rfl
  · cases v <;> rfl
  · cases v <;> rfl

/-- With a first item there, the others can be cut out. -/
theorem extreme_safe (function : String) (wanted : Ordering) (args : List Value) :
    Safe (Checked.extreme function wanted args) (extreme function wanted args) := by
  rw [extreme_eq_operands]
  unfold Checked.extreme
  cases Checked.operands args with
  | nil => exact .value _
  | cons first rest =>
    have hothers : Value.itemsBetween (first :: rest) 1 (first :: rest).length = .ok rest := by
      unfold Value.itemsBetween
      rw [if_pos ⟨by simp, Nat.le_refl _⟩]
      simp
    exact .step hothers (extremeOf_safe wanted first rest)

theorem round_safe (h : 1 ≤ args.length) : Safe (Checked.round args) (round args) := by
  refine .bind (numArg_safe h) fun x _ => .ite (fun hdigits => ?_) fun _ => toWhole_safe _ _ h
  refine .bind (intArg_safe (by omega)) fun digits _ => ?_
  -- so few digits fit a word of 32 bits
  rw [Word.toSigned_eq (by decide) ⟨by omega, by omega⟩]
  exact .pure _

/-- What the machine holds has a length that is a signed word. -/
theorem len_safe (hheld : ∀ v ∈ args, v.Held) (h : 1 ≤ args.length) : Safe (Checked.len args) (len args) := by
  refine .bind (arg_safe h) fun v hv => ?_
  have hv := hheld v (mem_of_arg hv)
  cases v with
  | str s =>
    have hlen := hv.length_lt
    rw [String.length_toList] at hlen
    exact .pure_congr (Word.counted_eq hlen)
  | list items => exact .pure_congr (Word.counted_eq hv)
  | dict pairs => exact .pure_congr (Word.counted_eq hv)
  | _ => exact .wrongType ..

/-- **The sum of start and length may overflow**; it is then beyond the end of the text, as it would be without a
    bound. -/
theorem substr_safe (hheld : ∀ v ∈ args, v.Held) (h : 2 ≤ args.length) : Safe (Checked.substr args) (substr args) := by
  refine .bind (strArg_safe (by omega)) fun s hs => .bind (intArg_safe h) fun i _ => ?_
  have hlen := length_lt_of_strArg hheld hs
  have hstart := Value.clampIndex_le i s.toList.length
  refine .step (Word.clampIndex_eq hlen) (.ite (fun _ => ?_) fun hcount => ?_)
  · refine .bind (.pure _) fun stop hstop => ?_
    obtain rfl := Except.ok.inj hstop
    exact .bind (Value.itemsBetween_safe hstart (Nat.le_refl _)) fun _ _ => .pure _
  · refine .bind (intArg_safe (by omega)) fun count _ => ?_
    have hword := count.toInt_lt
    rw [Word.toUnsigned_eq (by omega) (by omega)]
    refine .bind (.pure_congr (show _ = min (clampIndex i s.toList.length + count.toInt.toNat) s.toList.length by omega))
      fun stop hstop => ?_
    obtain rfl := Except.ok.inj hstop
    exact .bind (Value.itemsBetween_safe (by omega) (by omega)) fun _ _ => .pure _

/-- The byte that a search finds is where a character begins. -/
theorem find_safe (hheld : ∀ v ∈ args, v.Held) (h : 2 ≤ args.length) : Safe (Checked.find args) (find args) := by
  refine .bind (arg_safe (by omega)) fun v hv => ?_
  have hv := hheld v (mem_of_arg hv)
  cases v with
  | str s =>
    have hlen := hv.length_lt
    refine .bind (strArg_safe h) fun needle _ => ?_
    cases hfind : Text.find? needle.toList s.toList with
    | none => exact .pure _
    | some p =>
      have hp := Text.find?_le hfind
      refine .step (Word.charsBefore_take _ _) (.pure_congr ?_)
      rw [List.length_take, Nat.min_eq_left hp]
      exact Word.counted_eq (by omega)
  | list items =>
    refine .bind (arg_safe h) fun w _ => ?_
    cases hfind : items.findIdx? fun item => Value.eqv item w with
    | none => exact .pure _
    | some p =>
      obtain ⟨hp, -⟩ := List.findIdx?_eq_some_iff_getElem.mp hfind
      exact .pure_congr (Word.counted_eq (Nat.lt_trans hp hv))
  | _ => exact .wrongType ..

/-- A product that overflows is too large in any case. -/
theorem fewCopies_iff (size n : Nat) : Checked.fewCopies size n = true ↔ ¬ maxBuilt < size * n := by
  unfold Checked.fewCopies Word.product?
  by_cases hfits : size * n < 2 ^ 64
  · rw [if_pos hfits]
    simp
  · rw [if_neg hfits, maxBuilt_eq]
    refine iff_of_false nofun ?_
    omega

/-- What is refused is refused before it is built. -/
theorem repeat_safe (h : 2 ≤ args.length) : Safe (Checked.repeat_ args) (repeat_ args) := by
  refine .bind (intArg_safe h) fun n _ => .bind (arg_safe (by omega)) fun v _ => ?_
  have hcopies (size : Nat) (copies : Value) :
      Safe (if Checked.fewCopies size n.toInt.toNat then pure copies else throw (.value .repeatTooLarge))
        (if maxBuilt < size * n.toInt.toNat then throw (.value .repeatTooLarge) else pure copies) := by
    by_cases hfew : maxBuilt < size * n.toInt.toNat
    · rw [if_pos hfew, if_neg (by rwa [fewCopies_iff, not_not])]
      exact .value _
    · rw [if_neg hfew, if_pos (by rwa [fewCopies_iff])]
      exact .pure _
  cases v with
  | str s => exact hcopies s.utf8ByteSize _
  | list items => exact hcopies items.length _
  | _ => exact .wrongType ..

/-! The numbers of a progression have room in 128 bits: ends and steps have 64, and there are few items. -/

open Word (Fits)

variable {start stop step : Int}

/-- Ends and steps of 64 bits leave room for their difference and for one step more. -/
theorem stepCount_checked (hstart : Fits 64 start) (hstop : Fits 64 stop) (hstep : Fits 64 step) (hne : step ≠ 0) :
    Checked.stepCount start stop step = .ok (stepCount start stop step) := by
  obtain ⟨hstart₁, hstart₂⟩ := hstart
  obtain ⟨hstop₁, hstop₂⟩ := hstop
  obtain ⟨hstep₁, hstep₂⟩ := hstep
  have hsign : -1 ≤ step.sign ∧ step.sign ≤ 1 := by
    rcases Int.lt_trichotomy step 0 with h | h | h
    · simp [Int.sign_eq_neg_one_of_neg h]
    · exact absurd h hne
    · simp [Int.sign_eq_one_of_pos h]
  have hquotient : ((stop - start + step - step.sign).tdiv step).natAbs ≤ (stop - start + step - step.sign).natAbs := by
    rw [Int.natAbs_tdiv]
    exact Nat.div_le_self _ _
  unfold Checked.stepCount stepCount
  rw [Word.signed_eq ⟨by omega, by omega⟩]
  show (if (stop - start).sign = step.sign then _ else _) = _
  by_cases hdir : (stop - start).sign = step.sign
  · rw [if_pos hdir, Word.signed_eq ⟨by omega, by omega⟩]
    show (Word.signed 128 (stop - start + step - step.sign) >>= _) = _
    rw [Word.signed_eq ⟨by omega, by omega⟩]
    show Word.quotient 128 (stop - start + step - step.sign) step = _
    rw [Word.quotient_eq hne ⟨by omega, by omega⟩]
    exact congrArg Except.ok (if_pos hdir).symm
  · rw [if_neg hdir]
    exact congrArg Except.ok (if_neg hdir).symm

/-- If nothing fails the results are those of the plain map. -/
theorem mapM_ok {α β : Type} {f : α → Except Cause β} {g : α → β} {xs : List α} (h : ∀ x ∈ xs, f x = .ok (g x)) :
    xs.mapM f = .ok (xs.map g) := by
  induction xs with
  | nil => rfl
  | cons x xs ih =>
    rw [List.mapM_cons, h x List.mem_cons_self, ih fun y hy => h y (List.mem_cons_of_mem x hy)]
    rfl

/-- Few items lead not too far. -/
theorem progression_checked (hstart : Fits 64 start) (hstep : Fits 64 step) {n : Nat} (hn : n ≤ maxBuilt) :
    Checked.progression start step n = .ok (progression start step n []) := by
  obtain ⟨hstart₁, hstart₂⟩ := hstart
  obtain ⟨hstep₁, hstep₂⟩ := hstep
  rw [maxBuilt_eq] at hn
  rw [progression_eq, List.append_nil]
  apply mapM_ok
  intro k hk
  have hk := List.mem_range.mp hk
  have hsize : (step * k).natAbs ≤ 2 ^ 63 * 2 ^ 24 := by
    rw [Int.natAbs_mul, Int.natAbs_natCast]
    exact Nat.mul_le_mul (by omega) (by omega)
  rw [Word.signed_eq ⟨by omega, by omega⟩]
  show (Word.signed 128 (start + step * k) >>= _) = _
  rw [Word.signed_eq ⟨by omega, by omega⟩]
  rfl

/-- Counted first, and listed only if there are few. -/
theorem steps_safe (hstart : Fits 64 start) (hstop : Fits 64 stop) (hstep : Fits 64 step) :
    Safe (Checked.steps start stop step) (counted start stop step) := by
  refine .ite (fun _ => .value _) fun hne => .step (stepCount_checked hstart hstop hstep hne) ?_
  refine .ite (fun _ => .value _) fun hfew => ?_
  refine .step (progression_checked hstart hstep ?_) (.pure _)
  omega

/-- `range` with one, two or three arguments. -/
theorem range_safe (h : 1 ≤ args.length) : Safe (Checked.range args) (range args) := by
  unfold Checked.range range
  generalize hlen : args.length = n
  rcases n with - | - | - | n
  · omega
  · refine .bind (intArg_safe h) fun stop _ => .bind (.pure _) fun bounds hbounds => ?_
    obtain rfl := Except.ok.inj hbounds
    exact steps_safe (by decide) (Word.fits_toInt stop) (by decide)
  · have hsecond : 1 < args.length := by omega
    refine .bind (intArg_safe h) fun start _ => .bind (intArg_safe hsecond) fun stop _ => ?_
    refine .bind (.pure _) fun bounds hbounds => ?_
    obtain rfl := Except.ok.inj hbounds
    exact steps_safe (Word.fits_toInt start) (Word.fits_toInt stop) (by decide)
  · have hsecond : 1 < args.length := by omega
    have hthird : 2 < args.length := by omega
    refine .bind (intArg_safe h) fun start _ => .bind (intArg_safe hsecond) fun stop _ => ?_
    refine .bind (intArg_safe hthird) fun step _ => .bind (.pure _) fun bounds hbounds => ?_
    obtain rfl := Except.ok.inj hbounds
    exact steps_safe (Word.fits_toInt start) (Word.fits_toInt stop) (Word.fits_toInt step)

/-- The place is moved into the list before anything is inserted. -/
theorem insert_safe (hheld : ∀ v ∈ args, v.Held) (h : 3 ≤ args.length) : Safe (Checked.insert args) (insert args) := by
  refine .bind (listArg_safe (by omega)) fun items hitems => .bind (intArg_safe (by omega)) fun i _ => ?_
  have hlen := length_lt_of_listArg hheld hitems
  refine .step (Word.clampIndex_eq hlen) (.bind (arg_safe h) fun v _ => ?_)
  exact .step (Word.insertAt_eq (Value.clampIndex_le _ _) v) (.pure _)

/-- The place that is found is in the list. -/
theorem remove_safe (h : 2 ≤ args.length) : Safe (Checked.remove args) (remove args) := by
  refine .bind (arg_safe (by omega)) fun v _ => ?_
  cases v with
  | list items =>
    refine .bind (arg_safe h) fun w _ => ?_
    have hdrop : dropFirst (fun item => Value.eqv item w) items = _ := List.eraseP_eq_eraseIdx
    rw [hdrop]
    cases hfind : items.findIdx? fun item => Value.eqv item w with
    | none => exact .pure _
    | some p =>
      obtain ⟨hp, -⟩ := List.findIdx?_eq_some_iff_getElem.mp hfind
      exact .step (Word.removeAt_eq hp) (.pure _)
  | dict pairs => exact .bind (arg_safe h) fun key _ => .pure _
  | _ => exact .wrongType ..

/-- A list that is not empty has a last item. -/
theorem pop_safe (hheld : ∀ v ∈ args, v.Held) (h : 1 ≤ args.length) : Safe (Checked.pop args) (pop args) := by
  refine .bind (listArg_safe h) fun items hitems => .ite (fun _ => .value _) fun hne => ?_
  have hlen := length_lt_of_listArg hheld hitems
  have hpos : 0 < items.length := by
    rw [List.isEmpty_iff] at hne
    exact List.length_pos_of_ne_nil hne
  refine .ite (fun _ => ?_) fun hplace => ?_
  · refine .step (Word.unsigned_eq (by omega) (by omega)) ?_
    rw [show ((items.length : Int) - 1).toNat = items.length - 1 by omega]
    exact .step (Word.removeAt_eq (by omega)) (.pure _)
  · refine .bind (intArg_safe (by omega)) fun i _ => .bind (Word.resolveIndex_safe hlen) fun p hp => ?_
    exact .step (Word.removeAt_eq (Word.lt_of_resolveIndex hp)) (.pure _)

/-- Both bounds are moved into the sequence. -/
theorem sliceBounds_safe {n : Nat} (hn : n < 2 ^ 63) (h : 2 ≤ args.length) :
    Safe (Checked.sliceBounds args n) (sliceBounds args n) := by
  refine .bind (intArg_safe h) fun start _ => .step (Word.clampIndex_eq hn) (.ite (fun _ => .pure _) fun hstop => ?_)
  exact .bind (intArg_safe (by omega)) fun stop _ => .step (Word.clampIndex_eq hn) (.pure _)

/-- A slice ends after its start and within the sequence. -/
theorem sliceBounds_le {n i j : Nat} (h : sliceBounds args n = .ok (i, j)) : i ≤ j ∧ j ≤ n := by
  unfold sliceBounds at h
  cases hstart : intArg "slice" args 1 with
  | error c =>
    rw [hstart] at h
    cases h
  | ok start =>
    have hle := Value.clampIndex_le start n
    rw [hstart] at h
    by_cases hcount : args.length < 3
    · simp only [Bind.bind, Except.bind, hcount, if_true, Pure.pure, Except.pure] at h
      obtain ⟨rfl, rfl⟩ := Prod.mk.inj (Except.ok.inj h)
      omega
    · cases hstop : intArg "slice" args 2 with
      | error c =>
        simp only [Bind.bind, Except.bind, hcount, if_false, hstop] at h
        cases h
      | ok stop =>
        have hle' := Value.clampIndex_le stop n
        simp only [Bind.bind, Except.bind, hcount, if_false, hstop, Pure.pure, Except.pure] at h
        obtain ⟨rfl, rfl⟩ := Prod.mk.inj (Except.ok.inj h)
        omega

theorem slice_safe (hheld : ∀ v ∈ args, v.Held) (h : 2 ≤ args.length) : Safe (Checked.slice args) (slice args) := by
  refine .bind (arg_safe (by omega)) fun v hv => ?_
  have hv := hheld v (mem_of_arg hv)
  cases v with
  | list items =>
    refine .bind (sliceBounds_safe hv h) fun bounds hbounds => ?_
    obtain ⟨hij, hj⟩ := sliceBounds_le hbounds
    exact .bind (Value.itemsBetween_safe hij hj) fun _ _ => .pure _
  | str s =>
    refine .bind (sliceBounds_safe hv.length_lt h) fun bounds hbounds => ?_
    obtain ⟨hij, hj⟩ := sliceBounds_le hbounds
    exact .bind (Value.itemsBetween_safe hij hj) fun _ _ => .pure _
  | _ => exact .wrongType ..

/-- An index that was resolved is in the list. -/
theorem set_safe (hheld : ∀ v ∈ args, v.Held) (h : 3 ≤ args.length) : Safe (Checked.set args) (set args) := by
  refine .bind (arg_safe (by omega)) fun v hv => ?_
  have hv := hheld v (mem_of_arg hv)
  cases v with
  | dict pairs => exact .bind (arg_safe (by omega)) fun key _ => .bind (arg_safe h) fun w _ => .pure _
  | list items =>
    refine .bind (intArg_safe (by omega)) fun i _ => .bind (Word.resolveIndex_safe hv) fun p hp => ?_
    refine .bind (arg_safe h) fun w _ => ?_
    exact .step (Word.replaceAt_eq (Word.lt_of_resolveIndex hp) w) (.pure _)
  | _ => exact .wrongType ..

/-- So is a place that was found. -/
theorem get_safe (hheld : ∀ v ∈ args, v.Held) (h : 2 ≤ args.length) : Safe (Checked.get args) (get args) := by
  refine .bind (arg_safe (by omega)) fun v hv => ?_
  have hv := hheld v (mem_of_arg hv)
  cases v with
  | dict pairs => exact .bind (arg_safe h) fun key _ => .pure _
  | list items =>
    refine .bind (intArg_safe h) fun i _ => .step (Word.place?_eq hv) ?_
    cases hplace : Value.place? i.toInt items.length with
    | none => exact .pure _
    | some p => exact Value.itemAt_safe (Word.lt_of_place? hplace)
  | _ => exact .wrongType ..

/-! Items that are compared as their ranks are in order, and so are all that `sort` gets past its check without a NaN. -/

/-- A comparison that goes by ranks is an order. -/
theorem sortable_of_ranked {K : Type} [LinearOrder K] {rank : Value → K} {vs : List Value} (h : Value.Ranked rank vs) :
    Checked.sortable vs := by
  constructor
  · intro v hv w hw
    simp only [h v hv w hw, h w hw v hv]
    exact Std.OrientedCmp.eq_swap
  · intro u hu v hv w hw huv hvw
    simp only [h u hu v hv, h v hv w hw, h u hu w hw, ne_eq, compare_gt_iff_gt, not_lt] at huv hvw ⊢
    exact le_trans huv hvw

/-- What passes the check is all texts or all numbers, and without NaN both have ranks. -/
theorem sortable_of_comparable {v : Value} {vs : List Value} (hcomp : ∀ w ∈ vs, Value.Comparable v w)
    (hnan : ∀ x, Value.float x ∈ vs → x.isNaN = false) : Checked.sortable vs := by
  simp only [Value.comparable_iff] at hcomp
  by_cases htext : v.isText = true
  · refine sortable_of_ranked (Value.ranked_texts fun w hw => ?_)
    rcases hcomp w hw with h | h
    · exact h.2
    · rw [Value.isNumber_of_isText htext] at h
      cases h.1
  · refine sortable_of_ranked (Value.ranked_numbers fun w hw => ?_)
    rcases hcomp w hw with h | h
    · exact absurd h.1 htext
    · cases w with
      | int n => rfl
      | float x =>
        rw [Value.isOrdered, hnan x hw]
        rfl
      | _ => cases h.2

/-- **The library is given an order**, or `sort` has refused the list before. -/
theorem sort_safe (hnan : ∀ items, .list items ∈ args → ∀ x, Value.float x ∈ items → x.isNaN = false)
    (h : 1 ≤ args.length) : Safe (Checked.sort args) (sort args) := by
  refine .bind (listArg_safe h) fun items hitems => ?_
  have hnan := hnan items (mem_of_listArg hitems)
  cases items with
  | nil =>
    show Safe (if Checked.sortable [] then _ else _) _
    rw [if_pos (by decide)]
    exact .pure _
  | cons v rest =>
    rcases comparableWith_cases v (v :: rest) with ⟨hcomp, hcheck⟩ | ⟨-, issue, hcheck⟩
    · refine .bind (.refl ?_) fun _ _ => ?_
      · rw [hcheck]
        nofun
      · rw [if_pos (sortable_of_comparable hcomp hnan)]
        exact .pure _
    · simp only [hcheck]
      exact .type issue

end Words

end Builtin

/-! ## Bodies that need the machine -/

namespace Value

/-- Arithmetic fails on types only. -/
theorem numeric_unbroken (symbol : String) (onInts : Int → Int → Int) (onFloats : Float → Float → Float)
    (a b : Value) : numeric symbol onInts onFloats a b ≠ .error .broken := by
  unfold numeric
  split
  · nofun
  · split <;> nofun

theorem add_unbroken (a b : Value) : add a b ≠ .error .broken := by
  unfold add
  split
  · nofun
  · nofun
  · nofun
  · nofun
  · exact numeric_unbroken _ _ _ a b

end Value

namespace Exec

/-- **What may come of a function**: a value, or a failure that the types or values of its arguments are to blame for, at
    a place that is not known yet. Where it `waits` for a line, the line may not be there yet. -/
inductive Answer {α : Type} (waits : Prop) : Except Halt α → Prop
  | value (a : α) : Answer waits (.ok a)
  | typeError (issue : TypeIssue) : Answer waits (.error (.failed ⟨.type issue, .unknown⟩))
  | valueError (issue : ValueIssue) : Answer waits (.error (.failed ⟨.value issue, .unknown⟩))
  | waiting (h : waits) : Answer waits (.error .waiting)

/-- A failure of values that is none of the library's own. -/
theorem Answer.failed {α : Type} {waits : Prop} {c : Cause} (h : c.OfValues) (hunbroken : c ≠ .broken) :
    Answer waits (.error (.failed ⟨c, .unknown⟩) : Except Halt α) := by
  cases h with
  | type issue => exact .typeError issue
  | value issue => exact .valueError issue
  | broken => exact absurd rfl hunbroken

/-- The computation answers, whatever the machine. -/
def Answers {α : Type} (waits : Prop) (x : Exec α) : Prop := ∀ m, Answer waits (x m).1

namespace Answers

variable {α β : Type} {waits : Prop} {x : Exec α}

theorem ofExcept {r : Except Cause α} (h : OnValues r) (hunbroken : r ≠ .error .broken) : Answers waits (ofExcept r) := by
  intro m
  cases r with
  | ok a => exact .value a
  | error c => exact .failed (h.ofValues c rfl) fun hc => hunbroken (congrArg Except.error hc)

theorem bind {f : α → Exec β} (hx : Answers waits x) (hf : ∀ a, Answers waits (f a)) : Answers waits (x >>= f) := by
  intro m
  have h := hx m
  rw [bind_apply]
  rcases hm : x m with ⟨e | a, m'⟩
  · rw [hm] at h
    cases h with
    | typeError issue => exact .typeError issue
    | valueError issue => exact .valueError issue
    | waiting h => exact .waiting h
  · exact hf a m'

theorem pure (a : α) : Answers waits (Pure.pure a) := fun _ => .value a

theorem fail (issue : ValueIssue) : Answers waits (fail (.value issue) : Exec α) := fun _ => .valueError issue

theorem writeLine (line : String) : Answers waits (writeLine line) := fun _ => .value ()

theorem glance : Answers waits glance := fun m => .value m.reading

theorem draw (f : Random → α × Random) : Answers waits (draw f) := fun m => .value (f m.random).1

theorem readLine (h : waits) (prompt : String) : Answers waits (readLine prompt) := by
  intro m
  unfold Exec.readLine
  split
  · exact .value _
  · split
    · exact .value _
    · dsimp only
      split
      · exact .waiting h
      · split <;> exact .value _

end Answers

/-- A draw that breaks nothing is the plain draw. -/
theorem draw_checked {α : Type} {f : Random → Except Cause (α × Random)} {g : Random → α × Random}
    (h : ∀ r, f r = .ok (g r)) : Checked.draw f = draw g := by
  funext m
  unfold Checked.draw
  rw [h]
  rfl

end Exec

/-- **Nothing overflows between two words of 64 bits**, and what is drawn stays between them. -/
theorem Random.nextInt_checked (g : Random) {low high : Int} (hlow : Word.Fits 64 low) (hhigh : Word.Fits 64 high)
    (h : low ≤ high) : Checked.nextInt g low high = .ok (g.nextInt low high) ∧
      low ≤ (g.nextInt low high).1 ∧ (g.nextInt low high).1 ≤ high := by
  obtain ⟨hlow₁, hlow₂⟩ := hlow
  obtain ⟨hhigh₁, hhigh₂⟩ := hhigh
  have hoffset : g.next.1.toNat % (high - low + 1).toNat < (high - low + 1).toNat := Nat.mod_lt _ (by omega)
  refine ⟨?_, ?_, ?_⟩
  · unfold Checked.nextInt nextInt
    dsimp only
    rw [Word.signed_eq ⟨by omega, by omega⟩]
    show (Word.signed 128 (high - low + 1) >>= _) = _
    rw [Word.signed_eq ⟨by omega, by omega⟩]
    show (Word.remainder g.next.1.toNat (Word.toUnsigned 128 (high - low + 1)) >>= _) = _
    rw [Word.toUnsigned_eq (by omega) (by omega), Word.remainder_eq (by omega)]
    show (Word.signed 128 (low + Word.toSigned 128 (g.next.1.toNat % (high - low + 1).toNat : Nat)) >>= _) = _
    rw [Word.toSigned_eq (by decide) ⟨by omega, by omega⟩, Word.signed_eq ⟨by omega, by omega⟩]
    show Except.ok (Word.toSigned 64 _, _) = _
    rw [Word.toSigned_eq (by decide) ⟨by omega, by omega⟩]
  · show low ≤ low + (g.next.1.toNat % (high - low + 1).toNat : Nat)
    omega
  · show low + (g.next.1.toNat % (high - low + 1).toNat : Nat) ≤ high
    omega

namespace Exec

open Builtin (arg intArg listArg arg_safe intArg_safe listArg_safe)

variable {args : List Value} {waits : Prop}

theorem add_answers (h : 2 ≤ args.length) : Answers waits (host .add args) := by
  refine .bind (.ofExcept (by simp) (arg_safe (by omega)).unbroken) fun a => ?_
  refine .bind (.ofExcept (by simp) (arg_safe h).unbroken) fun b => ?_
  refine .bind (.ofExcept (Value.add_onValues a b) (Value.add_unbroken a b)) fun v => ?_
  exact .bind (.writeLine _) fun _ => .pure v

theorem mul_answers (h : 2 ≤ args.length) : Answers waits (host .mul args) := by
  refine .bind (.ofExcept (by simp) (arg_safe (by omega)).unbroken) fun a => ?_
  refine .bind (.ofExcept (by simp) (arg_safe h).unbroken) fun b => ?_
  refine .bind (.ofExcept (Value.numeric_onValues ..) (Value.numeric_unbroken _ _ _ a b)) fun v => ?_
  exact .bind (.writeLine _) fun _ => .pure v

theorem randint_answers (h : 2 ≤ args.length) : Answers waits (host .randint args) := by
  refine .bind (.ofExcept (by simp) (intArg_safe (by omega)).unbroken) fun low => ?_
  refine .bind (.ofExcept (by simp) (intArg_safe h).unbroken) fun high => ?_
  split
  · exact .fail _
  · exact .bind (.draw _) fun _ => .pure _

/-- The span between two words of 64 bits fits 128. -/
theorem randint_checked (args : List Value) : Checked.host .randint args = host .randint args := by
  apply bind_congr
  intro low
  apply bind_congr
  intro high
  by_cases hempty : high.toInt < low.toInt
  · rw [if_pos hempty, if_pos hempty]
  · rw [if_neg hempty, if_neg hempty, draw_checked]
    intro r
    exact (r.nextInt_checked (Word.fits_toInt low) (Word.fits_toInt high) (by omega)).1

/-- `choice`, unfolded once. -/
theorem choice_eq (args : List Value) : host .choice args = (do
    let items ← ofExcept (listArg "choice" args 0)
    if items.isEmpty then fail (.value (.fromEmptyList "choice"))
    else
      let n ← draw fun g => g.nextInt 0 (items.length - 1)
      ofExcept (Value.itemAt items n.toNat)) := rfl

/-- The checked `choice`, unfolded once. -/
theorem choice_eq_checked (args : List Value) : Checked.host .choice args = (do
    let items ← ofExcept (listArg "choice" args 0)
    if items.isEmpty then fail (.value (.fromEmptyList "choice"))
    else
      let last ← ofExcept (Word.signed 64 (Word.toSigned 64 items.length - 1))
      let n ← Checked.draw fun g => Checked.nextInt g 0 last
      ofExcept (Value.itemAt items (Word.toUnsigned 64 n))) := rfl

/-- **The place of an item is drawn from those that there are.** -/
theorem choice_checked (hheld : ∀ v ∈ args, v.Held) (h : 1 ≤ args.length) (m : Machine) :
    Checked.host .choice args m = host .choice args m ∧ Answer waits (host .choice args m).1 := by
  rw [choice_eq, choice_eq_checked]
  cases hitems : listArg "choice" args 0 with
  | error c =>
    have hfail : (ofExcept (.error c) : Exec (List Value)) m = (.error (.failed ⟨c, .unknown⟩), m) := rfl
    have hvalues := Builtin.listArg_onValues "choice" args 0
    have hsafe : Safe (listArg "choice" args 0) _ := listArg_safe h
    rw [hitems] at hvalues hsafe
    rw [bind_error hfail, bind_error hfail]
    exact ⟨rfl, .failed (hvalues.ofValues c rfl) fun hc => hsafe.unbroken (congrArg Except.error hc)⟩
  | ok items =>
    have hread : (ofExcept (.ok items) : Exec (List Value)) m = (.ok items, m) := rfl
    have hlen := Builtin.length_lt_of_listArg hheld hitems
    rw [bind_ok hread, bind_ok hread]
    by_cases hempty : items.isEmpty = true
    · rw [if_pos hempty, if_pos hempty]
      exact ⟨rfl, .valueError _⟩
    · rw [if_neg hempty, if_neg hempty]
      have hpos : 0 < items.length := by
        rw [List.isEmpty_iff] at hempty
        exact List.length_pos_of_ne_nil hempty
      have hlast : Word.Fits 64 (items.length - 1) := ⟨by omega, by omega⟩
      have hdraw (g : Random) := g.nextInt_checked (show Word.Fits 64 0 by decide) hlast (by omega)
      obtain ⟨-, hlow, hhigh⟩ := hdraw m.random
      rw [Word.toSigned_natCast hlen, Word.signed_eq hlast]
      show (Checked.draw (fun g => Checked.nextInt g 0 (items.length - 1)) >>= _) m = _ ∧ _
      rw [draw_checked fun g => (hdraw g).1]
      -- the same place is drawn, and it is a word without a sign already
      show ofExcept (Value.itemAt items (Word.toUnsigned 64 (m.random.nextInt 0 (items.length - 1)).1)) _ =
        ofExcept (Value.itemAt items (m.random.nextInt 0 (items.length - 1)).1.toNat) _ ∧
        Answer waits (ofExcept (Value.itemAt items (m.random.nextInt 0 (items.length - 1)).1.toNat) _).1
      rw [Word.toUnsigned_eq hlow (by omega)]
      exact ⟨rfl, Answers.ofExcept (by simp) (Value.itemAt_safe (by omega)).unbroken _⟩

end Exec

/-! ## The table -/

/-- What a built-in function does on the machine. -/
def BuiltinBody.exec : BuiltinBody → List Value → Exec Value
  | .pure run, args => Exec.ofExcept (run args)
  | .timed run, args => do
    let r ← Exec.glance
    Exec.ofExcept (run r.wall args)
  | .host what, args => Exec.host what args

/-- What the checked body of a built-in function does. -/
def Checked.exec (name : String) : BuiltinBody → List Value → Exec Value
  | .pure run, args => Exec.ofExcept (body name run args)
  | .timed run, args => do
    let r ← Exec.glance
    Exec.ofExcept (body name (run r.wall) args)
  | .host what, args => host what args

/-- **What a built-in function may be given**: values that the machine can hold and, to be sorted, no list with a NaN. -/
structure Fair (name : String) (args : List Value) : Prop where
  held : ∀ v ∈ args, v.Held
  ordered : name = "sort" → ∀ items, .list items ∈ args → ∀ x, Value.float x ∈ items → x.isNaN = false

/-- **A built-in function is safe**: given as many arguments as it accepts, its checked body does what its body does, and
    that is to answer. -/
structure SafeEntry (name : String) (arity : Arity) (body : BuiltinBody) : Prop where
  checked (args : List Value) (m : Machine) (hcount : arity.accepts args.length = true) (hfair : Fair name args) :
    Checked.exec name body args m = body.exec args m
  answers (args : List Value) (m : Machine) (hcount : arity.accepts args.length = true) (hfair : Fair name args) :
    Exec.Answer (body = .host .input) (body.exec args m).1

/-- What is accepted is no less than the least. -/
theorem Arity.min_le_of_accepts {a : Arity} {n : Nat} (h : a.accepts n = true) : a.min ≤ n := by
  unfold accepts at h
  rw [Bool.and_eq_true, decide_eq_true_iff] at h
  exact h.1

/-- A function that waits for a line to be typed. -/
def HostBuiltin.Waits (what : HostBuiltin) : Prop := what = .input

/-- The least number of arguments is enough for a body. -/
def BuiltinBody.Secure (name : String) (arity : Arity) : BuiltinBody → Prop
  | .pure run => ∀ args, Fair name args → arity.min ≤ args.length → Safe (Checked.body name run args) (run args)
  | .timed run => ∀ wall args, Fair name args → arity.min ≤ args.length →
    Safe (Checked.body name (run wall) args) (run wall args)
  | .host what => ∀ args, Fair name args → arity.min ≤ args.length → ∀ m,
    Checked.host what args m = Exec.host what args m ∧ Exec.Answer what.Waits (Exec.host what args m).1

namespace Builtin

open Exec (Answers)

variable {name : String} {arity : Arity}

/-- A body that is its own checked body. -/
theorem secure_host {what : HostBuiltin} (hchecked : ∀ args, Checked.host what args = Exec.host what args)
    (h : ∀ args, arity.min ≤ args.length → Answers what.Waits (Exec.host what args)) :
    (BuiltinBody.host what).Secure name arity := by
  intro args _ hmin m
  rw [hchecked]
  exact ⟨rfl, h args hmin m⟩

/-- **No body of the table breaks anything.** -/
theorem table_secure (regex : Regex) : ∀ e ∈ table regex, e.2.2.Secure e.1 e.2.1 := by
  simp only [table, List.forall_mem_cons, BuiltinBody.Secure, Checked.body, Checked.bodies, List.lookup,
    String.reduceBEq, Option.getD_none, Option.getD_some]
  exact ⟨secure_host (fun _ => rfl) fun _ _ => .bind (.writeLine _) fun _ => .pure _,
    secure_host (fun _ => rfl) fun _ _ => .bind (.writeLine _) fun _ => .pure _,
    secure_host (fun _ => rfl) fun _ _ => .bind (.readLine rfl _) fun _ => .pure _, fun _ _ => sleep_safe,
    secure_host (fun _ => rfl) fun _ => Exec.add_answers, secure_host (fun _ => rfl) fun _ => Exec.mul_answers,
    fun _ _ => abs_safe, fun _ _ _ => extreme_safe _ _ _, fun _ _ _ => extreme_safe _ _ _,
    fun _ _ => toWhole_safe _ _, fun _ _ => toWhole_safe _ _, fun _ _ => round_safe, fun _ _ => sqrt_safe,
    fun _ _ => pow_safe, fun _ hfair => len_safe hfair.held, fun _ _ => onText_safe _ _, fun _ _ => onText_safe _ _,
    fun _ _ => onText_safe _ _, fun _ _ => split_safe, fun _ _ => join_safe, fun _ _ => replace_safe,
    fun _ hfair => substr_safe hfair.held, fun _ _ => contains_safe, fun _ _ => startsWith_safe,
    fun _ _ => endsWith_safe, fun _ hfair => find_safe hfair.held, fun _ _ => repeat_safe, fun _ _ => matches_safe _,
    fun _ _ => range_safe, fun _ _ => append_safe, fun _ hfair => insert_safe hfair.held, fun _ _ => remove_safe,
    fun _ hfair => pop_safe hfair.held, fun _ _ => first_safe, fun _ _ => last_safe, fun _ _ => reverse_safe,
    fun _ hfair => sort_safe (hfair.ordered rfl), fun _ hfair => slice_safe hfair.held, fun _ _ => keys_safe,
    fun _ _ => values_safe, fun _ _ => hasKey_safe, fun _ hfair => set_safe hfair.held,
    fun _ hfair => get_safe hfair.held, secure_host (fun _ => rfl) fun _ _ => .bind (.draw _) fun _ => .pure _,
    secure_host Exec.randint_checked fun _ => Exec.randint_answers,
    fun _ hfair hmin => Exec.choice_checked hfair.held hmin, fun _ _ _ _ => .ok _,
    secure_host (fun _ => rfl) fun _ _ => .bind .glance fun _ => .pure _, fun _ _ => toStr_safe, fun _ _ => int_safe,
    fun _ _ => float_safe, fun _ _ => bool_safe, fun _ _ => typeOf_safe, List.forall_mem_nil _⟩

/-- **Every built-in function is safe.** -/
theorem table_safe (regex : Regex) : ∀ e ∈ table regex, SafeEntry e.1 e.2.1 e.2.2 := by
  rintro ⟨name, arity, body⟩ he
  have hsecure := table_secure regex _ he
  have hvalues := table_onValues regex _ he
  cases body with
  | pure run =>
    constructor
    · intro args m hcount hfair
      have hsafe := hsecure args hfair (Arity.min_le_of_accepts hcount)
      show Exec.ofExcept (Checked.body name run args) m = _
      rw [hsafe.eq]
      rfl
    · intro args m hcount hfair
      have hsafe := hsecure args hfair (Arity.min_le_of_accepts hcount)
      exact Answers.ofExcept (hvalues args) hsafe.unbroken m
  | timed run =>
    constructor
    · intro args m hcount hfair
      have hsafe := hsecure m.reading.wall args hfair (Arity.min_le_of_accepts hcount)
      show (Exec.glance >>= fun r => Exec.ofExcept (Checked.body name (run r.wall) args)) m =
        (Exec.glance >>= fun r => Exec.ofExcept (run r.wall args)) m
      rw [Exec.bind_glance, Exec.bind_glance, hsafe.eq]
    · intro args m hcount hfair
      have hsafe := hsecure m.reading.wall args hfair (Arity.min_le_of_accepts hcount)
      show Exec.Answer _ ((Exec.glance >>= fun r => Exec.ofExcept (run r.wall args)) m).1
      rw [Exec.bind_glance]
      exact Answers.ofExcept (hvalues m.reading.wall args) hsafe.unbroken _
  | host what =>
    constructor
    · intro args m hcount hfair
      exact (hsecure args hfair (Arity.min_le_of_accepts hcount) m).1
    · intro args m hcount hfair
      have hanswer := (hsecure args hfair (Arity.min_le_of_accepts hcount) m).2
      rwa [BuiltinBody.host.injEq]

end Builtin

end Helios
