import Helios.Proofs.Footprint

/-!
# Formed — properties that values are built with

Some properties of values are about what values are made of: scalars have them, a list has one when its items do, and
a dict keeps one when entries are set or taken out (`Value.Formed`). No built-in function can get around such a
property: what it gives is a scalar, one of its arguments or something in one, or a list or dict that was put together
in one of these ways.

One rule for each way a body is put together (`Produces.bind` and its companions), one lemma for each body that does not
just give a scalar, and `Builtin.table_gives` for the table of all of them.
-/

namespace Helios

/-- A value that is neither a list nor a dict. -/
def Value.isScalar : Value → Bool
  | .list _ | .dict _ => false
  | _ => true

/-- **A property that values are built with.** -/
structure Value.Formed (V : Value → Prop) : Prop where
  scalar {v : Value} (h : v.isScalar = true) : V v
  list {items : List Value} (h : ∀ v ∈ items, V v) : V (.list items)
  item {items : List Value} (h : V (.list items)) : ∀ v ∈ items, V v
  empty : V (.dict [])
  entry {pairs : List (Value × Value)} (h : V (.dict pairs)) : ∀ e ∈ pairs, V e.1 ∧ V e.2
  set {pairs : List (Value × Value)} (h : V (.dict pairs)) {k v : Value} (hk : V k) (hv : V v) :
    V (.dict (dictSet pairs k v))
  filter {pairs : List (Value × Value)} (h : V (.dict pairs)) (p : Value × Value → Bool) : V (.dict (pairs.filter p))

/-- What a computation gives, if anything, satisfies `P`. -/
structure Produces {α : Type} (P : α → Prop) (r : Except Cause α) : Prop where
  of_ok : ∀ a, r = .ok a → P a

namespace Produces

variable {α β : Type} {P : α → Prop} {Q : β → Prop}

theorem ok {a : α} (h : P a) : Produces P (.ok a) := ⟨fun _ heq => Except.ok.inj heq ▸ h⟩

theorem pure {a : α} (h : P a) : Produces P (pure a) := ok h

@[simp] theorem error (c : Cause) : Produces P (.error c) := ⟨nofun⟩

@[simp] theorem throw (c : Cause) : Produces P (throw c : Except Cause α) := ⟨nofun⟩

theorem bind {x : Except Cause α} {f : α → Except Cause β} (hx : Produces P x) (hf : ∀ a, P a → Produces Q (f a)) :
    Produces Q (x >>= f) := by
  cases x with
  | error c => exact error c
  | ok a => exact hf a (hx.of_ok a rfl)

/-- Of what comes first nothing need be known. -/
theorem after {x : Except Cause α} {f : α → Except Cause β} (hf : ∀ a, Produces Q (f a)) : Produces Q (x >>= f) :=
  bind (P := fun _ => True) ⟨fun _ _ => trivial⟩ fun a _ => hf a

/-- What produces more than is asked produces what is asked. -/
theorem mono {P' : α → Prop} {x : Except Cause α} (h : Produces P x) (hP : ∀ a, P a → P' a) : Produces P' x :=
  ⟨fun a ha => hP a (h.of_ok a ha)⟩

theorem ite {p : Prop} [Decidable p] {x y : Except Cause α} (hx : Produces P x) (hy : Produces P y) :
    Produces P (if p then x else y) := by
  split
  · exact hx
  · exact hy

end Produces

/-! ## Operators -/

namespace Value

/-- An exact result and the float that stands for an overflown one are both scalars. -/
theorem isScalar_exactOr (n : Int) (x : Float) : (exactOr n x).isScalar = true := by
  unfold exactOr
  split <;> rfl

namespace Formed

variable {V : Value → Prop} (hV : Formed V)
include hV

theorem ofChars (cs : List Char) : V (.ofChars cs) := hV.scalar rfl

/-- Arithmetic on two numbers gives a number. -/
theorem numeric (symbol : String) (onInts : Int → Int → Int) (onFloats : Float → Float → Float) (a b : Value) :
    Produces V (numeric symbol onInts onFloats a b) := by
  unfold Value.numeric
  split
  · exact .ok (hV.scalar (isScalar_exactOr ..))
  · split
    · exact .ok (hV.scalar rfl)
    · exact .error _

/-- `+` gives a number, a text, or the items of both lists. -/
theorem add {a b : Value} (ha : V a) (hb : V b) : Produces V (add a b) := by
  unfold Value.add
  split
  · exact .ok (hV.scalar rfl)
  · exact .ok (hV.list (List.forall_mem_append.mpr ⟨hV.item ha, hV.item hb⟩))
  · exact .error _
  · exact .error _
  · exact hV.numeric ..

theorem div (a b : Value) : Produces V (div a b) := by
  unfold Value.div
  split
  · exact .ite (.error _) (.ok (hV.scalar rfl))
  · exact .error _

theorem rem (a b : Value) : Produces V (rem a b) := by
  unfold Value.rem
  split
  · refine .ite (.error _) ?_
    split
    · exact .ite (.ok (hV.scalar rfl)) (.ok (hV.scalar rfl))
    · exact .ok (hV.scalar rfl)
  · exact .ite (.error _) (.ok (hV.scalar rfl))
  · exact .error _

theorem neg (v : Value) : Produces V v.neg := by
  cases v with
  | int n => exact .ok (hV.scalar (isScalar_exactOr ..))
  | float x => exact .ok (hV.scalar rfl)
  | _ => exact .error _

/-- A truth value is a scalar, whatever it was computed from. -/
theorem map_bool {α : Type} (x : Except Cause α) (f : α → Bool) : Produces V (x.map fun a => .bool (f a)) := by
  cases x with
  | error c => exact .error c
  | ok a => exact .ok (hV.scalar rfl)

/-- **What an operator gives is built from its operands.** -/
theorem binary (op : BinOp) {a b : Value} (ha : V a) (hb : V b) : Produces V (binary op a b) := by
  cases op with
  | add => exact hV.add ha hb
  | sub | mul => exact hV.numeric ..
  | div => exact hV.div a b
  | rem => exact hV.rem a b
  | lt | le | gt | ge => exact hV.map_bool _ _
  | eq | ne | and | or => exact .ok (hV.scalar rfl)

omit hV in
/-- What holds of all items holds of the one at a place. -/
theorem itemAt {α : Type} {P : α → Prop} {items : List α} (h : ∀ v ∈ items, P v) (j : Nat) :
    Produces P (itemAt items j) := by
  unfold Value.itemAt
  split
  · rename_i hget
    exact .ok (h _ (List.mem_of_getElem? hget))
  · exact .error _

omit hV in
/-- What holds of all items holds of those of a part. -/
theorem itemsBetween {α : Type} {P : α → Prop} {items : List α} (h : ∀ v ∈ items, P v) (i j : Nat) :
    Produces (fun part => ∀ v ∈ part, P v) (itemsBetween items i j) := by
  unfold Value.itemsBetween
  exact .ite (.ok fun v hv => h v (List.mem_of_mem_take (List.mem_of_mem_drop hv))) (.error _)

/-- The value found under a key is a value of the dict. -/
theorem dictGet? {pairs : List (Value × Value)} (h : V (.dict pairs)) {k v : Value}
    (hget : Value.dictGet? pairs k = some v) : V v := by
  obtain ⟨e, he, rfl⟩ := Option.map_eq_some_iff.mp hget
  exact (hV.entry h e (List.mem_of_find?_eq_some he)).2

/-- What `v[i]` gives is something in `v`, or a character of it. -/
theorem index {v i : Value} (hv : V v) : Produces V (v.index i) := by
  unfold Value.index
  split
  · exact .after fun j => Formed.itemAt (hV.item hv) j
  · exact .after fun j => .after fun c => .pure (hV.ofChars _)
  · split
    · rename_i hget
      exact .ok (hV.dictGet? hv hget)
    · exact .error _
  · exact .error _
  · exact .error _
  · exact .error _

/-- The keys of a dict, one by one. -/
theorem keys {pairs : List (Value × Value)} (h : V (.dict pairs)) : ∀ k ∈ pairs.map Prod.fst, V k := by
  intro k hk
  obtain ⟨e, he, rfl⟩ := List.mem_map.mp hk
  exact (hV.entry h e he).1

/-- The texts of one character each that a text is made of. -/
theorem chars (cs : List Char) : ∀ v ∈ cs.map fun c => Value.ofChars [c], V v := by
  intro v hv
  obtain ⟨c, -, rfl⟩ := List.mem_map.mp hv
  exact hV.ofChars _

/-- **What a `for` goes through is what a value holds.** -/
theorem iterate {v : Value} (hv : V v) : Produces (fun vs => ∀ w ∈ vs, V w) v.iterate := by
  cases v with
  | list items => exact .ok (hV.item hv)
  | str s => exact .ok (hV.chars _)
  | dict pairs => exact .ok (hV.keys hv)
  | _ => exact .error _

end Formed

end Value

/-! ## Built-in functions that give scalars -/

/-- What a computation gives, if anything, is a scalar. -/
abbrev ProducesScalar (r : Except Cause Value) : Prop := Produces (fun v => v.isScalar = true) r

namespace Builtin

theorem sleep_scalar (args : List Value) : ProducesScalar (sleep args) := .after fun _ => .ite (.throw _) (.pure rfl)

theorem abs_scalar (args : List Value) : ProducesScalar (abs args) := by
  refine .after fun v => ?_
  split
  · exact .pure (Value.isScalar_exactOr ..)
  · exact .pure rfl
  · exact .throw _

/-- Rounding gives an int, or an error for what is no number. -/
theorem toInt_scalar (function : String) (round : Decimal.Binary → Int) (x : Float) :
    ProducesScalar (toInt function round x) := by
  unfold toInt
  split
  · exact .ok rfl
  · exact .error _

theorem toWhole_scalar (function : String) (round : Decimal.Binary → Int) (args : List Value) :
    ProducesScalar (toWhole function round args) := by
  refine .after fun v => ?_
  split
  · exact .pure rfl
  · exact .after fun x => toInt_scalar ..

theorem round_scalar (args : List Value) : ProducesScalar (round args) :=
  .after fun _ => .ite (.after fun _ => .pure rfl) (toWhole_scalar ..)

theorem sqrt_scalar (args : List Value) : ProducesScalar (sqrt args) := .after fun _ => .ite (.throw _) (.pure rfl)

/-- The power of two ints, where it is one. -/
theorem powInts?_scalar {a b v : Value} (h : powInts? a b = some v) : v.isScalar = true := by
  unfold powInts? at h
  split at h
  · split at h
    · obtain ⟨n, -, rfl⟩ := Option.map_eq_some_iff.mp h
      rfl
    · nomatch h
  · nomatch h

theorem pow_scalar (args : List Value) : ProducesScalar (pow args) := by
  refine .after fun b => .after fun e => ?_
  split
  · rename_i hpow
    exact .pure (powInts?_scalar hpow)
  · exact .after fun _ => .after fun _ => .pure rfl

theorem len_scalar (args : List Value) : ProducesScalar (len args) := by
  refine .after fun v => ?_
  split
  · exact .pure rfl
  · exact .pure rfl
  · exact .pure rfl
  · exact .throw _

/-- `upper`, `lower` and `trim`: one text out of another. -/
theorem onText_scalar (function : String) (f : List Char → List Char) (args : List Value) :
    ProducesScalar (onText function f args) := .after fun _ => .pure rfl

theorem join_scalar (args : List Value) : ProducesScalar (join args) := .after fun _ => .after fun _ => .pure rfl

theorem replace_scalar (args : List Value) : ProducesScalar (replace args) :=
  .after fun _ => .after fun _ => .after fun _ => .ite (.pure rfl) (.pure rfl)

theorem substr_scalar (args : List Value) : ProducesScalar (substr args) :=
  .after fun _ => .after fun _ => .ite (.after fun _ => .after fun _ => .pure rfl)
    (.after fun _ => .after fun _ => .after fun _ => .pure rfl)

theorem contains_scalar (args : List Value) : ProducesScalar (contains args) := by
  refine .after fun v => ?_
  split
  · exact .after fun _ => .pure rfl
  · exact .after fun _ => .pure rfl
  · exact .after fun _ => .pure rfl
  · exact .throw _

theorem startsWith_scalar (args : List Value) : ProducesScalar (startsWith args) :=
  .after fun _ => .after fun _ => .pure rfl

theorem endsWith_scalar (args : List Value) : ProducesScalar (endsWith args) :=
  .after fun _ => .after fun _ => .pure rfl

/-- A place found is an int, and so is the -1 of none. -/
theorem placeOrNone_scalar (found : Option Nat) : (placeOrNone found).isScalar = true := by
  cases found <;> rfl

theorem find_scalar (args : List Value) : ProducesScalar (find args) := by
  refine .after fun v => ?_
  split
  · exact .after fun _ => .pure (placeOrNone_scalar _)
  · exact .after fun _ => .pure (placeOrNone_scalar _)
  · exact .throw _

theorem matches_scalar (regex : Regex) (args : List Value) : ProducesScalar (matches_ regex args) := by
  refine .after fun text => .after fun pattern => ?_
  split
  · exact .pure rfl
  · exact .throw _

theorem hasKey_scalar (args : List Value) : ProducesScalar (hasKey args) := .after fun _ => .after fun _ => .pure rfl

theorem toStr_scalar (args : List Value) : ProducesScalar (toStr args) := .after fun _ => .pure rfl

/-- `int` goes through floats where the text is no int. -/
theorem int_scalar (args : List Value) : ProducesScalar (int args) := by
  refine .after fun v => ?_
  split
  · exact .pure rfl
  · exact toInt_scalar ..
  · exact .pure rfl
  · dsimp only
    split
    · exact .pure rfl
    · split
      · exact toInt_scalar ..
      · exact .throw _
  · exact .throw _

theorem float_scalar (args : List Value) : ProducesScalar (float args) := by
  refine .after fun v => ?_
  split
  · exact .pure rfl
  · exact .pure rfl
  · exact .pure rfl
  · split
    · exact .pure rfl
    · exact .throw _
  · exact .throw _

theorem bool_scalar (args : List Value) : ProducesScalar (bool args) := .after fun _ => .pure rfl

theorem typeOf_scalar (args : List Value) : ProducesScalar (typeOf args) := .after fun _ => .pure rfl

/-! ## Built-in functions on lists and dicts -/

theorem arg_gives {V : Value → Prop} {args : List Value} (hargs : ∀ v ∈ args, V v) (i : Nat) :
    Produces V (arg args i) :=
  Value.Formed.itemAt hargs i

/-- An argument taken as a dict is that argument. -/
theorem dictArg_gives {V : Value → Prop} {args : List Value} (hargs : ∀ v ∈ args, V v) (function : String) (i : Nat) :
    Produces (fun pairs => V (.dict pairs)) (dictArg function args i) := by
  refine .bind (arg_gives hargs i) fun v hv => ?_
  split
  · exact .pure hv
  · exact .throw _

/-- `range` lists ints only. -/
theorem progression_ints {P : Value → Prop} (hP : ∀ n, P (.int n)) (start step : Int) (count : Nat)
    {tail : List Value} (h : ∀ v ∈ tail, P v) : ∀ v ∈ progression start step count tail, P v := by
  induction count generalizing tail with
  | zero => exact h
  | succ count ih => exact ih (List.forall_mem_cons.mpr ⟨hP _, h⟩)

/-- Copies hold nothing new. -/
theorem mem_copies {α : Type} {n : Nat} {items : List α} {a : α} (h : a ∈ copies n items) : a ∈ items := by
  unfold copies at h
  split at h
  · nomatch h
  · induction n with
    | zero => nomatch h
    | succ n ih =>
      rcases List.mem_append.mp h with h | h
      · exact h
      · exact ih h

/-- One step of sorting by insertion loses and invents nothing. -/
theorem mem_insertDescending {v w : Value} {items : List Value} (h : w ∈ insertDescending v items) :
    w = v ∨ w ∈ items := by
  induction items with
  | nil => exact .inl (List.mem_singleton.mp h)
  | cons x rest ih =>
    rw [insertDescending] at h
    split at h
    · rcases List.mem_cons.mp h with rfl | h
      · exact .inr List.mem_cons_self
      · exact (ih h).imp_right (List.mem_cons_of_mem x)
    · exact List.mem_cons.mp h

/-- Sorting, by insertion or by merging, gives items of the list. -/
theorem mem_sorted {v : Value} {items : List Value} (h : v ∈ sorted items) : v ∈ items := by
  unfold sorted at h
  split at h
  · have hfold : ∀ (items made : List Value), v ∈ items.foldl (fun made v => insertDescending v made) made →
        v ∈ items ∨ v ∈ made := by
      intro items
      induction items with
      | nil => exact fun _ h => .inr h
      | cons x rest ih =>
        intro made h
        rcases ih _ h with h | h
        · exact .inl (List.mem_cons_of_mem x h)
        · rcases mem_insertDescending h with rfl | h
          · exact .inl List.mem_cons_self
          · exact .inr h
    exact (hfold items [] (List.mem_reverse.mp h)).resolve_right List.not_mem_nil
  · exact (List.mem_mergeSort).mp h

section

variable {V : Value → Prop} (hV : Value.Formed V) {args : List Value} (hargs : ∀ v ∈ args, V v)
include hV hargs

/-- The items of an argument taken as a list. -/
theorem listArg_gives (function : String) (i : Nat) : Produces (fun vs => ∀ v ∈ vs, V v) (listArg function args i) := by
  refine .bind (arg_gives hargs i) fun v hv => ?_
  split
  · exact .pure (hV.item hv)
  · exact .throw _

omit hV in
/-- The best so far is the one to begin with or one of those compared with it. -/
theorem extremeOf_gives (wanted : Ordering) {best : Value} (hbest : V best) :
    Produces V (extremeOf wanted best args) := by
  induction args generalizing best with
  | nil => exact .pure hbest
  | cons v rest ih =>
    obtain ⟨hv, hrest⟩ := List.forall_mem_cons.mp hargs
    refine .after fun o => ih hrest ?_
    split
    · exact hv
    · exact hbest

/-- `min` and `max`, of the items of one list or of all arguments. -/
theorem extreme_gives (function : String) (wanted : Ordering) : Produces V (extreme function wanted args) := by
  unfold extreme
  dsimp only
  split
  · exact .error _
  · rename_i first rest heq
    -- of the items of a single list, or of the arguments
    have hitems : ∀ v ∈ first :: rest, V v := by
      rw [← heq]
      split
      · exact hV.item (hargs _ (List.mem_singleton_self _))
      · exact hargs
    obtain ⟨hfirst, hrest⟩ := List.forall_mem_cons.mp hitems
    exact extremeOf_gives hrest wanted hfirst

omit hargs in
/-- The parts are texts, with a separator and without. -/
theorem split_gives : Produces V (split args) := by
  have htexts (parts : List (List Char)) : V (.list (parts.map Value.ofChars)) := by
    refine hV.list fun v hv => ?_
    obtain ⟨cs, -, rfl⟩ := List.mem_map.mp hv
    exact hV.ofChars cs
  exact .after fun s => .ite (.pure (htexts _)) (.after fun sep => .ite (.pure (hV.list (hV.chars _)))
    (.pure (htexts _)))

/-- A repeated text is a text; a repeated list holds the same items. -/
theorem repeat_gives : Produces V (repeat_ args) := by
  refine .after fun n => .bind (arg_gives hargs 0) fun v hv => ?_
  split
  · exact .ite (.throw _) (.pure (hV.scalar rfl))
  · exact .ite (.throw _) (.pure (hV.list fun w hw => hV.item hv w (mem_copies hw)))
  · exact .throw _

omit hargs in
theorem range_gives : Produces V (range args) := by
  have hlast (start step : Int) (count : Nat) : V (.list (progression start step count [])) :=
    hV.list (progression_ints (fun _ => hV.scalar rfl) start step count nofun)
  unfold range
  dsimp only
  split
  · exact .after fun _ => .after fun _ => .ite (.throw _) (.ite (.throw _) (.pure (hlast ..)))
  · exact .after fun _ => .after fun _ => .after fun _ => .ite (.throw _) (.ite (.throw _) (.pure (hlast ..)))
  · exact .after fun _ => .after fun _ => .after fun _ => .after fun _ =>
      .ite (.throw _) (.ite (.throw _) (.pure (hlast ..)))

theorem append_gives : Produces V (append args) :=
  .bind (listArg_gives hV hargs _ 0) fun _ hitems => .bind (arg_gives hargs 1) fun _ hv =>
    .pure (hV.list (List.forall_mem_append.mpr ⟨hitems, List.forall_mem_singleton.mpr hv⟩))

/-- The new item stands between items of the old list. -/
theorem insert_gives : Produces V (insert args) := by
  refine .bind (listArg_gives hV hargs _ 0) fun items hitems => .after fun i => .bind (arg_gives hargs 2) fun v hv => ?_
  refine .pure (hV.list (List.forall_mem_append.mpr ⟨fun w hw => ?_, List.forall_mem_cons.mpr ⟨hv, fun w hw => ?_⟩⟩))
  · exact hitems w (List.mem_of_mem_take hw)
  · exact hitems w (List.mem_of_mem_drop hw)

/-- What remains of a list or a dict. -/
theorem remove_gives : Produces V (remove args) := by
  refine .bind (arg_gives hargs 0) fun v hv => ?_
  split
  · exact .after fun _ => .pure (hV.list fun w hw => hV.item hv w (List.mem_of_mem_eraseP hw))
  · exact .after fun _ => .pure (hV.filter hv _)
  · exact .throw _

theorem pop_gives : Produces V (pop args) := by
  refine .bind (listArg_gives hV hargs _ 0) fun items hitems => .ite (.throw _) (.ite ?_ ?_)
  · exact .after fun _ => .pure (hV.list fun w hw => hitems w (List.mem_of_mem_eraseIdx hw))
  · exact .after fun _ => .after fun _ => .pure (hV.list fun w hw => hitems w (List.mem_of_mem_eraseIdx hw))

theorem first_gives : Produces V (first args) := by
  refine .bind (listArg_gives hV hargs _ 0) fun items hitems => ?_
  split
  · rename_i hhead
    exact .pure (hitems _ (List.mem_of_head? hhead))
  · exact .throw _

theorem last_gives : Produces V (last args) := by
  refine .bind (listArg_gives hV hargs _ 0) fun items hitems => ?_
  split
  · rename_i hlast
    exact .pure (hitems _ (List.mem_of_getLast? hlast))
  · exact .throw _

theorem reverse_gives : Produces V (reverse args) := by
  refine .bind (arg_gives hargs 0) fun v hv => ?_
  split
  · exact .pure (hV.list fun w hw => hV.item hv w (List.mem_reverse.mp hw))
  · exact .pure (hV.ofChars _)
  · exact .throw _

/-- The order is checked first; what is given in the end is the same items. -/
theorem sort_gives : Produces V (sort args) := by
  refine .bind (listArg_gives hV hargs _ 0) fun items hitems => ?_
  have hsorted : V (.list (sorted items)) := hV.list fun w hw => hitems w (mem_sorted hw)
  split
  · exact .pure hsorted
  · exact .after fun _ => .pure hsorted

/-- A part of a list, or of a text. -/
theorem slice_gives : Produces V (slice args) := by
  refine .bind (arg_gives hargs 0) fun v hv => ?_
  split
  · exact .after fun _ => .bind (Value.Formed.itemsBetween (hV.item hv) _ _) fun part hpart => .pure (hV.list hpart)
  · exact .after fun _ => .after fun _ => .pure (hV.ofChars _)
  · exact .throw _

theorem keys_gives : Produces V (keys args) :=
  .bind (dictArg_gives hargs _ 0) fun _ hpairs => .pure (hV.list (hV.keys hpairs))

/-- The values of a dict, one by one. -/
theorem values_gives : Produces V (values args) := by
  refine .bind (dictArg_gives hargs _ 0) fun pairs hpairs => .pure (hV.list fun v hv => ?_)
  obtain ⟨e, he, rfl⟩ := List.mem_map.mp hv
  exact (hV.entry hpairs e he).2

/-- `set` on a dict sets an entry; on a list it puts an item in the place of another. -/
theorem set_gives : Produces V (set args) := by
  refine .bind (arg_gives hargs 0) fun v hv => ?_
  split
  · exact .bind (arg_gives hargs 1) fun k hk => .bind (arg_gives hargs 2) fun w hw => .pure (hV.set hv hk hw)
  · refine .after fun _ => .after fun i => .bind (arg_gives hargs 2) fun w hw => .pure (hV.list fun x hx => ?_)
    rcases List.mem_or_eq_of_mem_set hx with hx | rfl
    · exact hV.item hv x hx
    · exact hw
  · exact .throw _

/-- What is found, or the third argument, or `nil`. -/
theorem get_gives : Produces V (get args) := by
  have hdefault : V ((args[2]?).getD .nil) := by
    cases hget : args[2]? with
    | none => exact hV.scalar rfl
    | some v => exact hargs v (List.mem_of_getElem? hget)
  refine .bind (arg_gives hargs 0) fun v hv => ?_
  split
  · refine .after fun key => .pure ?_
    cases hget : Value.dictGet? _ key with
    | none => exact hdefault
    | some w => exact hV.dictGet? hv hget
  · refine .after fun i => ?_
    split
    · exact Value.Formed.itemAt (hV.item hv) _
    · exact .pure hdefault
  · exact .throw _

end

end Builtin

/-! ## The table -/

/-- A body that, called with arguments that satisfy `V`, gives what satisfies it. Bodies that need the machine are not
    considered here. -/
def BuiltinBody.Gives (V : Value → Prop) : BuiltinBody → Prop
  | .pure run => ∀ args, (∀ v ∈ args, V v) → Produces V (run args)
  | .timed run => ∀ wall args, (∀ v ∈ args, V v) → Produces V (run wall args)
  | .host _ => True

namespace Builtin

variable {V : Value → Prop} (hV : Value.Formed V)
include hV

/-- **Every pure built-in function keeps a property that values are built with.** -/
theorem table_gives (regex : Regex) : ∀ e ∈ table regex, e.2.2.Gives V := by
  have hscalar {r : Except Cause Value} (h : ProducesScalar r) : Produces V r := h.mono fun _ => hV.scalar
  simp only [table, List.forall_mem_cons, BuiltinBody.Gives, true_and]
  exact ⟨fun _ _ => hscalar (sleep_scalar _), fun _ _ => hscalar (abs_scalar _),
    fun _ h => extreme_gives hV h _ _, fun _ h => extreme_gives hV h _ _, fun _ _ => hscalar (toWhole_scalar ..),
    fun _ _ => hscalar (toWhole_scalar ..), fun _ _ => hscalar (round_scalar _), fun _ _ => hscalar (sqrt_scalar _),
    fun _ _ => hscalar (pow_scalar _), fun _ _ => hscalar (len_scalar _), fun _ _ => hscalar (onText_scalar ..),
    fun _ _ => hscalar (onText_scalar ..), fun _ _ => hscalar (onText_scalar ..), fun _ _ => split_gives hV,
    fun _ _ => hscalar (join_scalar _), fun _ _ => hscalar (replace_scalar _), fun _ _ => hscalar (substr_scalar _),
    fun _ _ => hscalar (contains_scalar _), fun _ _ => hscalar (startsWith_scalar _),
    fun _ _ => hscalar (endsWith_scalar _), fun _ _ => hscalar (find_scalar _), fun _ h => repeat_gives hV h,
    fun _ _ => hscalar (matches_scalar _ _), fun _ _ => range_gives hV, fun _ h => append_gives hV h,
    fun _ h => insert_gives hV h, fun _ h => remove_gives hV h, fun _ h => pop_gives hV h,
    fun _ h => first_gives hV h, fun _ h => last_gives hV h, fun _ h => reverse_gives hV h,
    fun _ h => sort_gives hV h, fun _ h => slice_gives hV h, fun _ h => keys_gives hV h,
    fun _ h => values_gives hV h, fun _ _ => hscalar (hasKey_scalar _), fun _ h => set_gives hV h,
    fun _ h => get_gives hV h, fun _ _ _ => .ok (hV.scalar rfl), fun _ _ => hscalar (toStr_scalar _),
    fun _ _ => hscalar (int_scalar _), fun _ _ => hscalar (float_scalar _), fun _ _ => hscalar (bool_scalar _),
    fun _ _ => hscalar (typeOf_scalar _), nofun⟩

/-- A re-exported body is one of the table's. -/
theorem gives_of_pure? {r : Reading} {name : String} {arity : Arity} {run : PureBody}
    (h : pure? r name = some (arity, run)) : BuiltinBody.Gives V (.pure run) := by
  obtain ⟨body, hrun, hmem⟩ := mem_of_pure? h
  have hbody := table_gives hV r.regex _ hmem
  cases body with
  | pure run =>
    obtain rfl := Option.some.inj hrun
    exact hbody
  | timed run =>
    obtain rfl := Option.some.inj hrun
    exact hbody r.wall
  | host what => nomatch hrun

end Builtin

/-! ## Modules -/

/-- A member function that, called with arguments that satisfy `V`, gives what satisfies it. -/
def MemberBody.Gives (V : Value → Prop) : MemberBody → Prop
  | .pure run => ∀ args, (∀ v ∈ args, V v) → Produces V (run args)
  | .drawing run => ∀ args g, (∀ v ∈ args, V v) → Produces (fun r => V r.1) (run args g)

namespace Module

variable {V : Value → Prop} (hV : Value.Formed V)
include hV

/-- A function of one float gives a float. -/
theorem float1_gives (name : String) (f : Float → Float) : (float1 name f).body.Gives V :=
  fun _ _ => .after fun _ => .pure (hV.scalar rfl)

theorem float2_gives (name : String) (f : Float → Float → Float) : (float2 name f).body.Gives V :=
  fun _ _ => .after fun _ => .after fun _ => .pure (hV.scalar rfl)

theorem log_gives : MemberBody.Gives V (.pure log) :=
  fun _ _ => .after fun _ => .ite (.throw _) (.ite (.after fun _ => .pure (hV.scalar rfl)) (.pure (hV.scalar rfl)))

theorem uniform_gives : MemberBody.Gives V (.drawing uniform) :=
  fun _ _ _ => .after fun _ => .after fun _ => .pure (hV.scalar rfl)

theorem randint_gives : MemberBody.Gives V (.drawing randint) :=
  fun _ _ _ => .after fun _ => .after fun _ => .ite (.throw _) (.pure (hV.scalar rfl))

/-- What is chosen is an item of the list. -/
theorem choice_gives : MemberBody.Gives V (.drawing choice) := by
  refine fun args g hargs => .bind (Builtin.arg_gives hargs 0) fun v hv => ?_
  split
  · exact .throw _
  · exact .bind (Value.Formed.itemAt (hV.item hv) _) fun w hw => .pure hw
  · exact .throw _

theorem seed_gives : MemberBody.Gives V (.drawing seed) := fun _ _ _ => .after fun _ => .pure (hV.scalar rfl)

theorem capitalize_gives : MemberBody.Gives V (.pure capitalize) := by
  refine fun args hargs => .after fun v => ?_
  split
  · exact .pure (hV.ofChars _)
  · exact .throw _

/-- What a module exports again it took from the table. -/
theorem reexports_gives (r : Reading) (names : List String) :
    ∀ f ∈ names.filterMap (reexport r), f.body.Gives V := by
  intro f hf
  obtain ⟨name, -, hf⟩ := List.mem_filterMap.1 hf
  obtain ⟨⟨arity, run⟩, hrun, rfl⟩ := Option.map_eq_some_iff.1 hf
  exact Builtin.gives_of_pure? hV hrun

/-- **Every member function keeps a property that values are built with.** -/
theorem functions_gives (r : Reading) (m : ModuleName) : ∀ f ∈ functions r m, f.body.Gives V := by
  cases m with
  | math =>
    refine List.forall_mem_append.2 ⟨reexports_gives hV r _, ?_⟩
    simp only [List.forall_mem_cons]
    exact ⟨float1_gives hV _ _, float1_gives hV _ _, float1_gives hV _ _, float1_gives hV _ _, float2_gives hV _ _,
      float2_gives hV _ _, log_gives hV, nofun⟩
  | random =>
    simp only [functions, List.forall_mem_cons]
    exact ⟨fun _ _ _ => .ok (hV.scalar rfl), uniform_gives hV, randint_gives hV, choice_gives hV, seed_gives hV, nofun⟩
  | time =>
    refine List.forall_mem_append.2 ⟨reexports_gives hV r _, ?_⟩
    simp only [List.forall_mem_cons]
    exact ⟨fun _ _ => .ok (hV.scalar rfl), nofun⟩
  | string =>
    refine List.forall_mem_append.2 ⟨reexports_gives hV r _, ?_⟩
    simp only [List.forall_mem_cons]
    exact ⟨capitalize_gives hV, nofun⟩

/-- **A call of a module's function keeps the property too**, whatever the generator. -/
theorem call_gives (r : Reading) (m : ModuleName) (name : String) {args : List Value}
    (hargs : ∀ v ∈ args, V v) (g : Random) : Produces (fun r => V r.1) (call r m name args g) := by
  unfold call
  split
  · exact .throw _
  · rename_i f hfind
    have hf := functions_gives hV r m f (List.mem_of_find?_eq_some hfind)
    refine .after fun _ => ?_
    split
    · rename_i run hbody
      rw [hbody] at hf
      exact .bind (hf args hargs) fun v hv => .pure hv
    · rename_i run hbody
      rw [hbody] at hf
      exact hf args g hargs

/-- The constants of modules are scalars. -/
theorem member?_gives {m : ModuleName} {name : String} {v : Value} (h : member? m name = some v) : V v := by
  have hconstants : ∀ c ∈ constants m, c.2.isScalar = true := by
    cases m <;> simp [constants, Value.isScalar]
  obtain ⟨c, hc, rfl⟩ := Option.map_eq_some_iff.mp h
  exact hV.scalar (hconstants c (List.mem_of_find?_eq_some hc))

end Module

namespace Hosts

variable {V : Value → Prop} (hV : Value.Formed V)
include hV

/-- The host object may be missing, which is an error; else its module answers. -/
theorem call_gives (r : Reading) (h : Hosts) (ref : HostRef) (name : String) {args : List Value}
    (hargs : ∀ v ∈ args, V v) {v : Value} (hcall : (h.call r ref name args).1 = .ok v) : V v := by
  unfold call at hcall
  split at hcall
  · split at hcall
    · rename_i hmodule
      obtain rfl := Except.ok.inj hcall
      exact (Module.call_gives hV r _ name hargs _).of_ok _ hmodule
    · nomatch hcall
  · nomatch hcall

/-- Only modules have members that are no functions. -/
theorem member?_gives {ref : HostRef} {name : String} {v : Value} (h : member? ref name = some v) : V v := by
  cases ref with
  | module m id => exact Module.member?_gives hV h
  | guest id function => nomatch h

end Hosts

/-! ## Built-in functions that need the machine -/

/-- What a computation on the machine gives, if anything, satisfies `P`. -/
def Exec.Gives {α : Type} (P : α → Prop) (x : Exec α) : Prop := ∀ m a, (x m).1 = .ok a → P a

namespace Exec.Gives

variable {α β : Type} {P : α → Prop} {Q : β → Prop}

theorem pure {a : α} (h : P a) : Gives P (pure a) := fun _ _ heq => Except.ok.inj heq ▸ h

theorem ofExcept {r : Except Cause α} (h : Produces P r) : Gives P (ofExcept r) := by
  intro m a heq
  cases r with
  | error c => nomatch heq
  | ok b => exact h.of_ok a (congrArg Except.ok (Except.ok.inj heq))

theorem bind {x : Exec α} {f : α → Exec β} (hx : Gives P x) (hf : ∀ a, P a → Gives Q (f a)) : Gives Q (x >>= f) := by
  intro m b heq
  rw [bind_apply] at heq
  have h := hx m
  revert h heq
  rcases x m with ⟨e | a, m'⟩ <;> intro heq h
  · nomatch heq
  · exact hf a (h a rfl) m' b heq

theorem after {x : Exec α} {f : α → Exec β} (hf : ∀ a, Gives Q (f a)) : Gives Q (x >>= f) :=
  bind (P := fun _ => True) (fun _ _ _ => trivial) fun a _ => hf a

end Exec.Gives

/-- **The built-in functions that need the machine keep the property as well**: they draw, or put two numbers
    together. -/
theorem Exec.host_gives {V : Value → Prop} (hV : Value.Formed V) (what : HostBuiltin) {args : List Value}
    (hargs : ∀ v ∈ args, V v) : Exec.Gives V (Exec.host what args) := by
  have harg (i : Nat) := Exec.Gives.ofExcept (Builtin.arg_gives hargs i)
  cases what with
  | print => exact .after fun _ => .pure (hV.scalar rfl)
  | input =>
    refine .after fun line => .pure ?_
    cases line <;> exact hV.scalar rfl
  | add => exact .bind (harg 0) fun a ha => .bind (harg 1) fun b hb => .bind (.ofExcept (hV.add ha hb)) fun v hv =>
      .after fun _ => .pure hv
  | mul => exact .after fun a => .after fun b => .bind (.ofExcept (hV.numeric ..)) fun v hv => .after fun _ => .pure hv
  | random => exact .after fun _ => .pure (hV.scalar rfl)
  | randint =>
    refine .after fun low => .after fun high => ?_
    split
    · exact nofun
    · exact .after fun _ => .pure (hV.scalar rfl)
  | choice =>
    refine .bind (.ofExcept (Builtin.listArg_gives hV hargs _ 0)) fun items hitems => ?_
    split
    · exact nofun
    · exact .after fun n => .ofExcept (Value.Formed.itemAt hitems _)
  | clock => exact .after fun _ => .pure (hV.scalar rfl)

end Helios
