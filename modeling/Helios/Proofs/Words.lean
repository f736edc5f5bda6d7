import Helios.Proofs.Causes
import Helios.Proofs.Indentation
import Helios.Proofs.Searching
import Helios.Proofs.Stability

/-!
# Words — arithmetic of a machine

Built-in functions count and aim with numbers that have no bounds. The machine that runs them has words of 64 and 128
bits, and breaks the program off where a result does not fit, where a divisor is zero, and where an item is read, put in
or taken out at a place that is not there. The steps that may break off stand here with what they ask for (`signed`,
`quotient`, `insertAt` and so on), and so do the two conventions for indices (`Word.resolveIndex`, `Word.clampIndex`).

`Safe` relates a computation with checked steps to a plain one: it comes to the same, and that is not that something
broke. It has one rule for each way a computation is put together. What the machine can hold (`Value.Held`) has a length
that fits a word, and this is all that the indices need.
-/

namespace Helios

/-! ## Words -/

namespace Word

/-- The numbers that a signed word holds. -/
def Fits (bits : Nat) (n : Int) : Prop := -2 ^ (bits - 1) ≤ n ∧ n < 2 ^ (bits - 1)

instance (bits : Nat) (n : Int) : Decidable (Fits bits n) := inferInstanceAs (Decidable (_ ∧ _))

/-- **The result of an operation on signed words.** It must fit. -/
def signed (bits : Nat) (n : Int) : Except Cause Int := if Fits bits n then .ok n else .error .broken

/-- **The result of an operation on words without a sign.** It must fit. -/
def unsigned (bits : Nat) (n : Int) : Except Cause Nat :=
  if 0 ≤ n ∧ n < 2 ^ bits then .ok n.toNat else .error .broken

/-- The quotient of signed words, cut toward zero. The divisor must not be zero. -/
def quotient (bits : Nat) (n d : Int) : Except Cause Int :=
  if d = 0 then .error .broken else signed bits (n.tdiv d)

/-- The remainder of words without a sign. The divisor must not be zero. -/
def remainder (n d : Nat) : Except Cause Nat := if d = 0 then .error .broken else .ok (n % d)

/-- The product of words without a sign, where it fits. -/
def product? (bits n m : Nat) : Option Nat := if n * m < 2 ^ bits then some (n * m) else none

/-- A number made a signed word: the bits of it that there is room for. -/
def toSigned (bits : Nat) (n : Int) : Int := n.bmod (2 ^ bits)

/-- A number made a word without a sign: the bits of it that there is room for. -/
def toUnsigned (bits : Nat) (n : Int) : Nat := (n % 2 ^ bits).toNat

variable {bits : Nat} {n d : Int}

/-- Where a result fits, checking changes nothing. -/
theorem signed_eq (h : Fits bits n) : signed bits n = .ok n := if_pos h

theorem unsigned_eq (h₀ : 0 ≤ n) (h : n < 2 ^ bits) : unsigned bits n = .ok n.toNat := if_pos ⟨h₀, h⟩

/-- Only the least word divided by -1 has a quotient that does not fit. -/
theorem quotient_eq (hd : d ≠ 0) (h : Fits bits (n.tdiv d)) : quotient bits n d = .ok (n.tdiv d) := by
  unfold quotient
  rw [if_neg hd, signed_eq h]

theorem remainder_eq {n d : Nat} (hd : d ≠ 0) : remainder n d = .ok (n % d) := if_neg hd

/-- What fits is not changed. -/
theorem toSigned_eq (hbits : 0 < bits) (h : Fits bits n) : toSigned bits n = n := by
  obtain ⟨k, rfl⟩ : ∃ k, bits = k + 1 := ⟨bits - 1, by omega⟩
  obtain ⟨hlow, hhigh⟩ := h
  rw [Nat.add_sub_cancel] at hlow hhigh
  apply Int.bmod_eq_of_le_mul_two
  · push_cast
    rw [pow_succ]
    omega
  · push_cast
    rw [pow_succ]
    omega

/-- So for words without a sign. -/
theorem toUnsigned_eq (h₀ : 0 ≤ n) (h : n < 2 ^ bits) : toUnsigned bits n = n.toNat := by
  unfold toUnsigned
  rw [Int.emod_eq_of_lt h₀ h]

/-- A word of 64 bits fits. -/
theorem fits_toInt (i : Int64) : Fits 64 i.toInt := ⟨i.le_toInt, i.toInt_lt⟩

/-- Lengths fit. -/
theorem fits_natCast {n : Nat} (h : n < 2 ^ 63) : Fits 64 n := by
  constructor
  · omega
  · omega

theorem toSigned_natCast {n : Nat} (h : n < 2 ^ 63) : toSigned 64 n = n := toSigned_eq (by decide) (fits_natCast h)

end Word

/-! ## Safe computations -/

/-- **A checked computation is safe**: it comes to what the plain one comes to, and nothing broke. -/
structure Safe {α : Type} (checked plain : Except Cause α) : Prop where
  eq : checked = plain
  unbroken : plain ≠ .error .broken

namespace Safe

variable {α β : Type} {x x' y : Except Cause α}

/-- A computation without checks of its own. -/
theorem refl (h : x ≠ .error .broken) : Safe x x := ⟨rfl, h⟩

@[simp] theorem ok (a : α) : Safe (.ok a) (.ok a) := refl nofun

@[simp] theorem pure (a : α) : Safe (pure a) (pure a) := refl nofun

/-- Two spellings of one result. -/
theorem pure_congr {a b : α} (h : a = b) : Safe (Pure.pure a) (Pure.pure b) := by
  rw [h]
  exact pure b

@[simp] theorem type (issue : TypeIssue) : Safe (throw (.type issue) : Except Cause α) (throw (.type issue)) :=
  refl nofun

@[simp] theorem value (issue : ValueIssue) : Safe (throw (.value issue) : Except Cause α) (throw (.value issue)) :=
  refl nofun

@[simp] theorem wrongType (function wanted : String) (i : Nat) (got : Value) :
    Safe (throw (Builtin.wrongType function wanted i got) : Except Cause α)
      (throw (Builtin.wrongType function wanted i got)) :=
  type _

/-- One computation after another. The second may rely on what the first came to. -/
theorem bind {f f' : α → Except Cause β} (hx : Safe x x') (hf : ∀ a, x' = .ok a → Safe (f a) (f' a)) :
    Safe (x >>= f) (x' >>= f') := by
  obtain ⟨rfl, hunbroken⟩ := hx
  cases x with
  | error c => exact refl fun h => hunbroken (congrArg Except.error (Except.error.inj h))
  | ok a => exact hf a rfl

/-- A step that only the checked computation takes. -/
theorem step {a : α} {f : α → Except Cause β} {z : Except Cause β} (hx : x = .ok a) (h : Safe (f a) z) :
    Safe (x >>= f) z := by
  rw [hx]
  exact h

/-- What a test has found may be relied on. -/
theorem ite {p : Prop} [Decidable p] {y' : Except Cause α} (h : p → Safe x x') (h' : ¬ p → Safe y y') :
    Safe (if p then x else y) (if p then x' else y') := by
  by_cases hp : p
  · rw [if_pos hp, if_pos hp]
    exact h hp
  · rw [if_neg hp, if_neg hp]
    exact h' hp

end Safe

/-! ## Places in lists and texts -/

namespace Word

variable {α : Type} {items : List α} {i : Int64} {n p : Nat}

/-- A list with an item put in at a place, which must be in the list or right after it. -/
def insertAt (items : List α) (p : Nat) (a : α) : Except Cause (List α) :=
  if p ≤ items.length then .ok (items.take p ++ a :: items.drop p) else .error .broken

/-- A list with the item taken out that must be at a place. -/
def removeAt (items : List α) (p : Nat) : Except Cause (List α) :=
  if p < items.length then .ok (items.eraseIdx p) else .error .broken

/-- A list with another item in the place of the one that must be there. -/
def replaceAt (items : List α) (p : Nat) (a : α) : Except Cause (List α) :=
  if p < items.length then .ok (items.set p a) else .error .broken

/-- The characters before a byte. It must not be inside of a character, nor past the end. -/
def charsBefore (cs : List Char) (byte : Nat) : Except Cause (List Char) :=
  match Text.dropBytes byte cs with
  | some rest => .ok (cs.take (cs.length - rest.length))
  | none => .error .broken

/-- A length or a place as a value. -/
def counted (n : Nat) : Value := .int (Int64.ofInt n)

/-- Where an index leads, in the arithmetic of words. -/
def aim (i : Int64) (n : Nat) : Except Cause Int :=
  if i.toInt < 0 then signed 64 (i.toInt + toSigned 64 n) else .ok i.toInt

/-- The place that an index names, if there is one. -/
def place? (i : Int64) (n : Nat) : Except Cause (Option Nat) := do
  let j ← aim i n
  pure (if j < 0 ∨ n ≤ toUnsigned 64 j then none else some (toUnsigned 64 j))

/-- The place that an index names, or the failure that it is out of range. -/
def resolveIndex (i : Int64) (n : Nat) : Except Cause Nat := do
  match ← place? i n with
  | some p => pure p
  | none => throw (.value (.indexOutOfRange i.toInt n))

/-- A bound of a slice, in the arithmetic of words. -/
def clampIndex (i : Int64) (n : Nat) : Except Cause Nat := do
  if i.toInt < 0 then
    let j ← signed 64 (toSigned 64 n + i.toInt)
    pure (toUnsigned 64 (max j 0))
  else pure (min (toUnsigned 64 i.toInt) n)

/-- Right after the last item is a place to put one in. -/
theorem insertAt_eq (h : p ≤ items.length) (a : α) : insertAt items p a = .ok (items.take p ++ a :: items.drop p) :=
  if_pos h

/-- Taking out the item at a place. -/
theorem removeAt_eq (h : p < items.length) : removeAt items p = .ok (items.eraseIdx p) := if_pos h

/-- Replacing the item at a place. -/
theorem replaceAt_eq (h : p < items.length) (a : α) : replaceAt items p a = .ok (items.set p a) := if_pos h

/-- The bytes of the characters before a place are a place to cut. -/
theorem charsBefore_take (cs : List Char) (p : Nat) : charsBefore cs (Text.byteLength (cs.take p)) = .ok (cs.take p) := by
  have hdrop : Text.dropBytes (Text.byteLength (cs.take p)) cs = some (cs.drop p) := by
    rw [Text.dropBytes_eq_some_iff]
    exact ⟨cs.take p, (List.take_append_drop p cs).symm, rfl⟩
  unfold charsBefore
  rw [hdrop]
  show Except.ok (cs.take (cs.length - (cs.drop p).length)) = _
  rw [List.length_drop, List.take_eq_take_iff.mpr]
  omega

/-- **A length that fits is the same as a value.** -/
theorem counted_eq (h : n < 2 ^ 63) : counted n = Value.ofNat n := by
  unfold counted Value.ofNat Decimal.clampInt Decimal.minInt Decimal.maxInt
  rw [if_neg (by omega), if_neg (by omega)]

/-- The sum of a negative index and a length fits. -/
theorem aim_eq (h : n < 2 ^ 63) : aim i n = .ok (Value.aim i n) := by
  have hlow := i.le_toInt
  unfold aim Value.aim
  by_cases hneg : i.toInt < 0
  · rw [if_pos hneg, if_pos hneg, toSigned_natCast h, signed_eq ⟨by omega, by omega⟩]
  · rw [if_neg hneg, if_neg hneg]

/-- A place, in words and without bounds. -/
theorem place?_eq (h : n < 2 ^ 63) : place? i n = .ok (Value.place? i.toInt n) := by
  have hfits : Value.aim i n < 2 ^ 64 := by
    have hhigh := i.toInt_lt
    unfold Value.aim
    split <;> omega
  unfold place?
  rw [aim_eq h]
  show Except.ok _ = Except.ok (if 0 ≤ Value.aim i n ∧ Value.aim i n < n then some (Value.aim i n).toNat else none)
  congr 1
  by_cases hnonneg : 0 ≤ Value.aim i n
  · rw [toUnsigned_eq hnonneg hfits]
    by_cases hlt : Value.aim i n < n
    · rw [if_neg (by omega), if_pos ⟨hnonneg, hlt⟩]
    · rw [if_pos (by omega), if_neg (by omega)]
  · rw [if_pos (by omega), if_neg (by omega)]

/-- **Where an item is wanted, words find the same place**, or the same error. -/
theorem resolveIndex_safe (h : n < 2 ^ 63) : Safe (resolveIndex i n) (Value.resolveIndex i n) := by
  unfold resolveIndex Value.resolveIndex
  apply Safe.step (place?_eq h)
  cases Value.place? i.toInt n with
  | none => exact .value _
  | some p => exact .pure p

/-- **Where a place between items is wanted, words find the same.** -/
theorem clampIndex_eq (h : n < 2 ^ 63) : clampIndex i n = .ok (Builtin.clampIndex i n) := by
  have hlow := i.le_toInt
  have hhigh := i.toInt_lt
  unfold clampIndex Builtin.clampIndex
  by_cases hneg : i.toInt < 0
  · rw [if_pos hneg, if_pos hneg, toSigned_natCast h, signed_eq ⟨by omega, by omega⟩]
    show Except.ok (toUnsigned 64 (max (n + i.toInt) 0)) = _
    rw [toUnsigned_eq (by omega) (by omega)]
    congr 1
    omega
  · rw [if_neg hneg, if_neg hneg, toUnsigned_eq (by omega) (by omega)]
    rfl

/-- What an index names is there. -/
theorem lt_of_place? {i : Int} (h : Value.place? i n = some p) : p < n := by
  unfold Value.place? at h
  dsimp only at h
  generalize (if i < 0 then i + (n : Int) else i) = j at h
  by_cases hj : 0 ≤ j ∧ j < n
  · rw [if_pos hj] at h
    obtain rfl := Option.some.inj h
    omega
  · rw [if_neg hj] at h
    cases h

/-- So is what an index resolves to. -/
theorem lt_of_resolveIndex (h : Value.resolveIndex i n = .ok p) : p < n := by
  unfold Value.resolveIndex at h
  cases hplace : Value.place? i.toInt n with
  | none =>
    rw [hplace] at h
    cases h
  | some q =>
    rw [hplace] at h
    obtain rfl := Except.ok.inj h
    exact lt_of_place? hplace

end Word

/-! ## Arguments -/

/-- **A value that the machine can hold**: a signed word of 64 bits can count the bytes of a text and the items of a list
    or dict. -/
def Value.Held : Value → Prop
  | .str s => Text.byteLength s.toList < 2 ^ 63
  | .list items => items.length < 2 ^ 63
  | .dict pairs => pairs.length < 2 ^ 63
  | _ => True

/-- A text has no more characters than bytes. -/
theorem Value.Held.length_lt {s : String} (h : (Value.str s).Held) : s.toList.length < 2 ^ 63 :=
  Nat.lt_of_le_of_lt (Text.length_le_byteLength _) h

namespace Value

/-- An item at a place that is there. -/
theorem itemAt_safe {α : Type} {items : List α} {j : Nat} (h : j < items.length) :
    Safe (itemAt items j) (itemAt items j) := by
  apply Safe.refl
  unfold itemAt
  rw [List.getElem?_eq_getElem h]
  nofun

/-- A part whose bounds are in order. -/
theorem itemsBetween_safe {α : Type} {items : List α} {i j : Nat} (hij : i ≤ j) (hj : j ≤ items.length) :
    Safe (itemsBetween items i j) (itemsBetween items i j) := by
  apply Safe.refl
  unfold itemsBetween
  rw [if_pos ⟨hij, hj⟩]
  nofun

/-- Comparing breaks nothing. -/
theorem compare_safe (v w : Value) : Safe (compare v w) (compare v w) := by
  apply Safe.refl
  by_cases h : Comparable v w
  · obtain ⟨o, ho⟩ := h
    rw [ho]
    nofun
  · obtain ⟨issue, hissue⟩ := compare_of_not_comparable h
    rw [hissue]
    nofun

end Value

namespace Builtin

variable {function : String} {args : List Value} {i : Nat}

/-- An argument is there if there are enough. -/
theorem arg_safe (h : i < args.length) : Safe (arg args i) (arg args i) := Value.itemAt_safe h

theorem strArg_safe (h : i < args.length) : Safe (strArg function args i) (strArg function args i) :=
  .bind (arg_safe h) fun v _ => by cases v <;> simp

/-- An argument that is wanted as an int. -/
theorem intArg_safe (h : i < args.length) : Safe (intArg function args i) (intArg function args i) := by
  refine .bind (arg_safe h) fun v _ => ?_
  cases v with
  | int n => exact .pure n
  | float x => exact .ite (fun _ => .pure _) fun _ => .wrongType ..
  | _ => exact .wrongType ..

theorem numArg_safe (h : i < args.length) : Safe (numArg function args i) (numArg function args i) := by
  refine .bind (arg_safe h) fun v _ => ?_
  split <;> simp

theorem listArg_safe (h : i < args.length) : Safe (listArg function args i) (listArg function args i) :=
  .bind (arg_safe h) fun v _ => by cases v <;> simp

theorem dictArg_safe (h : i < args.length) : Safe (dictArg function args i) (dictArg function args i) :=
  .bind (arg_safe h) fun v _ => by cases v <;> simp

/-- What is read as an argument is one. -/
theorem mem_of_arg {v : Value} (h : arg args i = .ok v) : v ∈ args := by
  unfold arg Value.itemAt at h
  split at h
  · next hget =>
    obtain rfl := Except.ok.inj h
    exact List.mem_of_getElem? hget
  · nomatch h

theorem mem_of_strArg {s : String} (h : strArg function args i = .ok s) : .str s ∈ args := by
  unfold strArg at h
  cases harg : arg args i with
  | error c =>
    rw [harg] at h
    nomatch h
  | ok v =>
    rw [harg] at h
    cases v with
    | str t =>
      obtain rfl := Except.ok.inj h
      exact mem_of_arg harg
    | _ => nomatch h

/-- A list that is read is an argument. -/
theorem mem_of_listArg {items : List Value} (h : listArg function args i = .ok items) : .list items ∈ args := by
  unfold listArg at h
  cases harg : arg args i with
  | error c =>
    rw [harg] at h
    nomatch h
  | ok v =>
    rw [harg] at h
    cases v with
    | list vs =>
      obtain rfl := Except.ok.inj h
      exact mem_of_arg harg
    | _ => nomatch h

/-- What the machine can hold has a length that fits: texts. -/
theorem length_lt_of_strArg {s : String} (hheld : ∀ v ∈ args, v.Held) (h : strArg function args i = .ok s) :
    s.toList.length < 2 ^ 63 :=
  (hheld _ (mem_of_strArg h)).length_lt

/-- And lists. -/
theorem length_lt_of_listArg {items : List Value} (hheld : ∀ v ∈ args, v.Held)
    (h : listArg function args i = .ok items) : items.length < 2 ^ 63 :=
  hheld _ (mem_of_listArg h)

end Builtin

end Helios
