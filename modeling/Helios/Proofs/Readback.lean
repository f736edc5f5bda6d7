import Helios.Proofs.Exactness
import Helios.Proofs.Spelling
import Helios.Builtin.Conversions

/-!
# Readback — numerals and written strings, and the values that are read from them

`Decimal.Numeral` relates the text of an integer to the number it denotes. `int` reads a numeral as an integer, and
one that does not fit as a double, which has 53 significant bits (`Decimal.nearest`) or is an infinity: the first
is cut to the range of the integers, and only the second fails. Which of them it is, is decided by the number alone
(`Decimal.roundLimit`), as the shortcut for many digits agrees with the rounding (`Decimal.floatOfDecimal_whole`).

The written form of a string is one token for the lexer. It denotes the string with every character that is written
with its number replaced by the characters of that escape (`Scanner.reread`).
-/

namespace Helios

namespace Decimal

open Float.Model (UnpackedFloat Format)
open Float.Model.UnpackedFloat (Sign)

/-! ## Doubles in parts -/

/-- The exact value of what a double is unpacked to. -/
def Binary.ofParts? : UnpackedFloat → Option Binary
  | .infinity _ | .notANumber => none
  | .zero s => some ⟨s == .negative, 0, minExponent⟩
  | .finite s m e _ => some ⟨s == .negative, m, e⟩

theorem unpackExponent_toNat (b : BitVec 64) :
    (@UnpackedFloat.unpackExponent .binary64 b).toNat = b.toNat / 2 ^ 52 % 2 ^ 11 := by
  unfold UnpackedFloat.unpackExponent
  rw [BitVec.toNat_cast, BitVec.extractLsb_toNat, Nat.shiftRight_eq_div_pow]
  rfl

theorem unpackMantissa_toNat (b : BitVec 64) :
    (@UnpackedFloat.unpackMantissa .binary64 b).toNat = b.toNat % 2 ^ 52 := by
  unfold UnpackedFloat.unpackMantissa
  rw [BitVec.toNat_cast, BitVec.extractLsb_toNat, Nat.shiftRight_eq_div_pow, Nat.pow_zero, Nat.div_one]
  rfl

theorem unpackSign_eq (b : BitVec 64) :
    (Sign.ofBitVec (@UnpackedFloat.unpackSign .binary64 b) == .negative) = (b.toNat / 2 ^ 63 == 1) := by
  have hsign : (@UnpackedFloat.unpackSign .binary64 b).toNat = b.toNat / 2 ^ 63 := by
    unfold UnpackedFloat.unpackSign
    rw [BitVec.toNat_cast, BitVec.extractLsb_toNat, Nat.shiftRight_eq_div_pow]
    have hlt := b.isLt
    show b.toNat / 2 ^ 63 % 2 = b.toNat / 2 ^ 63
    omega
  rw [← hsign]
  generalize @UnpackedFloat.unpackSign .binary64 b = v
  revert v
  decide

/-- **The exact value of a double is what the model unpacks.** -/
theorem ofFloat?_eq (x : Float) : Binary.ofFloat? x = Binary.ofParts? x.toModel.unpack := by
  show Binary.ofFloat? x = Binary.ofParts? (UnpackedFloat.unpack .binary64 x.toBits.toBitVec)
  have hexponent := unpackExponent_toNat x.toBits.toBitVec
  have hmantissa := unpackMantissa_toNat x.toBits.toBitVec
  have hsign := unpackSign_eq x.toBits.toBitVec
  have hmax : @UnpackedFloat.unpackExponent .binary64 x.toBits.toBitVec = -1#_ ↔
      x.toBits.toNat / twoTo 52 % twoTo 11 = 2047 := by
    rw [← BitVec.toNat_inj, hexponent]
    rfl
  have hmin : @UnpackedFloat.unpackExponent .binary64 x.toBits.toBitVec = 0#_ ↔
      x.toBits.toNat / twoTo 52 % twoTo 11 = 0 := by
    rw [← BitVec.toNat_inj, hexponent]
    rfl
  unfold Binary.ofFloat? UnpackedFloat.unpack
  dsimp only
  simp only [hmax, hmin]
  have hneg : (Sign.ofBitVec (@UnpackedFloat.unpackSign .binary64 x.toBits.toBitVec) == .negative) =
      (x.toBits.toNat / twoTo 63 == 1) := hsign
  rw [← hneg]
  split
  · -- infinities and what is no number
    split <;> rfl
  split
  · -- zero and the subnormals
    rename_i hsub
    split
    · rename_i hm
      have hzero : x.toBits.toNat % twoTo 52 = 0 := by
        rw [← BitVec.toNat_inj, hmantissa] at hm
        exact hm
      rw [hzero]
      rfl
    · have hq : x.toBits.toBitVec.toNat / 2 ^ 52 % 2 ^ 11 = 0 := hsub
      show _ = some (⟨_, (@UnpackedFloat.unpackMantissa .binary64 x.toBits.toBitVec).toNat,
        ((@UnpackedFloat.unpackExponent .binary64 x.toBits.toBitVec).toNat : Int) - (1023 + 52) + 1⟩ : Binary)
      rw [hmantissa, hexponent, hq]
      rfl
  · -- the normals have one more bit in front
    rename_i hsub
    have hq : 1 ≤ x.toBits.toBitVec.toNat / 2 ^ 52 % 2 ^ 11 := Nat.one_le_iff_ne_zero.mpr hsub
    have hm : (1#1 ++ @UnpackedFloat.unpackMantissa .binary64 x.toBits.toBitVec).toNat =
        x.toBits.toBitVec.toNat % 2 ^ 52 + 2 ^ 52 := by
      rw [BitVec.toNat_append, hmantissa]
      show 1 <<< 52 ||| x.toBits.toBitVec.toNat % 2 ^ 52 = _
      rw [Nat.shiftLeft_eq, Nat.mul_comm, ← Nat.two_pow_add_eq_or_of_lt (Nat.mod_lt _ (Nat.two_pow_pos 52))]
      omega
    show some (⟨_, x.toBits.toBitVec.toNat % 2 ^ 52 + 2 ^ 52,
        -1074 + (x.toBits.toBitVec.toNat / 2 ^ 52 % 2 ^ 11 - 1 : Nat)⟩ : Binary) =
      some ⟨_, (1#1 ++ @UnpackedFloat.unpackMantissa .binary64 x.toBits.toBitVec).toNat,
        ((@UnpackedFloat.unpackExponent .binary64 x.toBits.toBitVec).toNat : Int) - (1023 + 52)⟩
    rw [hm, hexponent]
    congr 2
    omega

/-! ## Whole numbers beyond the integers -/

variable {n : Nat}

/-- The significand of a short number and its exponent make up the number. -/
theorem shift_significand (hn : 52 ≤ n.log2) (hs : Short n) : Binary.shift (significand n) (n.log2 - 52) = n := by
  unfold Binary.shift
  rw [if_pos (by omega), significand_of_le hn]
  show n / 2 ^ excess n * 2 ^ ((n.log2 : Int) - 52).toNat = n
  rw [show ((n.log2 : Int) - 52).toNat = excess n by unfold excess; omega]
  exact Nat.div_mul_cancel hs

/-- A double of a large whole number has that number as its exact value. -/
theorem trunc_of_unpack {x : Float} {s : Sign} (hn : 52 ≤ n.log2) (hs : Short n)
    (hx : x.toModel.unpack = parts s n 0) :
    ∃ d, Binary.ofFloat? x = some d ∧ d.trunc = s.apply n := by
  have hne : n ≠ 0 := by
    rintro rfl
    simp at hn
  rw [parts_of_ne_zero hne, Int.add_zero] at hx
  refine ⟨⟨s == .negative, significand n, n.log2 - 52⟩, ?_, ?_⟩
  · rw [ofFloat?_eq, hx]
    rfl
  · show Binary.signed (s == .negative) (Binary.shift (significand n) (n.log2 - 52)) = _
    rw [shift_significand hn hs]
    cases s <;> rfl

/-- Half a unit below the power of two that comes after all doubles. -/
def roundLimit : Nat := 2 ^ 1024 - 2 ^ 970

theorem nearest_lt_iff : nearest n < 2 ^ 1024 ↔ n < roundLimit := by
  constructor
  · intro h
    by_contra hge
    have hlimit : 2 ^ 1024 ≤ nearest roundLimit := by decide +kernel
    exact absurd (hlimit.trans (nearest_mono (Nat.not_lt.mp hge))) (Nat.not_le.mpr h)
  · intro h
    have hlimit : nearest (roundLimit - 1) < 2 ^ 1024 := by decide +kernel
    exact (nearest_mono (Nat.le_sub_one_of_lt h)).trans_lt hlimit

theorem le_log2_of_le {k : Nat} (h : 2 ^ k ≤ n) : k ≤ n.log2 :=
  (Nat.le_log2 ((Nat.two_pow_pos k).trans_le h).ne').mpr h

theorem log2_lt_of_lt {k : Nat} (hn : n ≠ 0) (h : n < 2 ^ k) : n.log2 < k := (Nat.log2_lt hn).mpr h

theorem pow_le_of_length {k : Nat} (hk : 0 < k) (h : k < (Nat.toDigits 10 n).length) : 10 ^ k ≤ n :=
  Nat.not_lt.mp (mt (Nat.length_toDigits_le_iff (by decide) hk).mpr (Nat.not_le.mpr h))

/-- What is too large for a double is packed as an infinity. -/
theorem pack_parts_large (s : Sign) (hn : 2 ^ 1024 ≤ n) : Float.Model.pack (parts s n 0) = .pack (.infinity s) := by
  have hlog : 1024 ≤ n.log2 := le_log2_of_le hn
  have hne : n ≠ 0 := by
    rintro rfl
    simp at hlog
  have hpack : UnpackedFloat.pack .binary64 (parts s n 0) = UnpackedFloat.pack .binary64 (.infinity s) := by
    rw [parts_of_ne_zero hne]
    refine if_pos ?_
    show 2 ^ 11 ≤ ((n.log2 : Int) - 52 + 0 + 1023 + 52).toNat + 1
    omega
  unfold Float.Model.pack
  simp only [hpack]

/-- The double that digits without a point denote, when they are many. -/
theorem floatOfDecimal_whole (hn : 2 ^ 53 ≤ n) :
    floatOfDecimal n 0 = ⟨.pack (parts .positive (nearest n) 0)⟩ := by
  unfold floatOfDecimal
  rw [if_neg (by omega)]
  dsimp only
  by_cases hsize : 400 < (0 : Int) + (Nat.toDigits 10 n).length
  · have hlarge : 10 ^ 400 ≤ n := pow_le_of_length (by decide) (by omega)
    have hlimit : roundLimit ≤ 10 ^ 400 := by decide +kernel
    have hnearest : 2 ^ 1024 ≤ nearest n :=
      Nat.not_lt.mp (mt nearest_lt_iff.mp (Nat.not_lt.mpr (hlimit.trans hlarge)))
    rw [if_pos hsize, pack_parts_large .positive hnearest]
    rfl
  · rw [if_neg hsize, if_neg (by omega)]
    have hlog : 52 ≤ n.log2 := (Nat.le_log2 (by omega)).mpr (by omega)
    have hread : Float.ofScientific n (decide ((0 : Int) < 0)) (0 : Int).natAbs =
        ⟨.pack (UnpackedFloat.ofScientific .binary64 n 0)⟩ := dif_neg fun h => absurd h.1 (by omega)
    rw [hread, ofScientific_whole hlog]

/-! ## Numerals -/

/-- **A numeral and the integer it denotes**: an optional sign and digits. -/
inductive Numeral : List Char → Int → Prop
  | plain {ds : List Char} (h : IsDigits ds) : Numeral ds (natOfDigits ds)
  | plus {ds : List Char} (h : IsDigits ds) : Numeral ('+' :: ds) (natOfDigits ds)
  | minus {ds : List Char} (h : IsDigits ds) : Numeral ('-' :: ds) (-natOfDigits ds)

theorem Numeral.split {cs : List Char} {n : Int} (h : Numeral cs n) :
    ∃ neg ds, IsDigits ds ∧ splitSign cs = (neg, ds) ∧ n = Binary.signed neg (natOfDigits ds) := by
  cases h with
  | plain h =>
    have hsign := splitSign_digits h []
    rw [List.append_nil] at hsign
    exact ⟨false, cs, h, hsign, rfl⟩
  | plus h => exact ⟨false, _, h, rfl, rfl⟩
  | minus h => exact ⟨true, _, h, rfl, rfl⟩

theorem readInt64_numeral {cs : List Char} {n : Int} (h : Numeral cs n) :
    readInt64 cs = if fitsInt n then some (Int64.ofInt n) else none := by
  obtain ⟨neg, ds, hds, hsplit, rfl⟩ := h.split
  unfold readInt64 readInt readNat
  rw [hsplit]
  dsimp only
  rw [if_pos ⟨hds.1, List.all_eq_true.mpr hds.2⟩]
  rfl

theorem readMagnitude_digits {ds : List Char} (hds : IsDigits ds) :
    readMagnitude ds = some (floatOfDecimal (natOfDigits ds) 0) := by
  have htake : ds.takeWhile isDigit = ds := List.takeWhile_eq_self_iff.mpr hds.2
  have hdrop : ds.dropWhile isDigit = [] := List.dropWhile_eq_nil_iff.mpr hds.2
  unfold readMagnitude
  rw [htake, hdrop]
  dsimp only
  rw [if_neg fun h => hds.1 h.1, List.append_nil]
  rfl

theorem toLower_digit {c : Char} (h : isDigit c = true) : c.toLower = c := by
  unfold isDigit at h
  unfold Char.toLower
  simp only [Char.le_def, UInt32.le_iff_toNat_le, Bool.and_eq_true, decide_eq_true_eq, Char.reduceVal,
    UInt32.reduceToNat] at h
  rw [dif_neg]
  simp only [ge_iff_le, UInt32.le_iff_toNat_le, Char.reduceVal, UInt32.reduceToNat]
  omega

/-- What starts with digits is no word. -/
theorem digits_ne_word {ds w : List Char} {c : Char} (hds : IsDigits ds) (tail : List Char) (hc : isDigit c = false) :
    String.ofList ((ds ++ tail).map Char.toLower) ≠ String.ofList (c :: w) := by
  intro heq
  obtain ⟨d, ds', rfl⟩ := List.exists_cons_of_ne_nil hds.1
  have hd := hds.2 d List.mem_cons_self
  rw [String.ofList_inj, List.cons_append, List.map_cons, toLower_digit hd] at heq
  rw [(List.cons.inj heq).1, hc] at hd
  nomatch hd

theorem readFloat_of_digits {cs ds tail : List Char} {neg : Bool} (hds : IsDigits ds)
    (hsplit : splitSign cs = (neg, ds ++ tail)) :
    readFloat cs = (readMagnitude (ds ++ tail)).map fun x => if neg then -x else x := by
  unfold readFloat
  rw [hsplit]
  refine congrArg (Option.map _) ?_
  split
  · rename_i heq
    exact absurd heq (digits_ne_word (c := 'i') (w := ['n', 'f']) hds tail (by decide))
  · rename_i heq
    exact absurd heq (digits_ne_word (c := 'i') (w := ['n', 'f', 'i', 'n', 'i', 't', 'y']) hds tail (by decide))
  · rename_i heq
    exact absurd heq (digits_ne_word (c := 'n') (w := ['a', 'n']) hds tail (by decide))
  · rfl

theorem readFloat_digits {cs ds : List Char} {neg : Bool} (hds : IsDigits ds) (hsplit : splitSign cs = (neg, ds)) :
    readFloat cs =
      some (if neg then -floatOfDecimal (natOfDigits ds) 0 else floatOfDecimal (natOfDigits ds) 0) := by
  have hread := @readFloat_of_digits cs ds [] neg hds ((List.append_nil ds).symm ▸ hsplit)
  rw [hread, List.append_nil, readMagnitude_digits hds]
  rfl

/-! ## Large numerals as doubles -/

/-- The other sign of a double of a whole number. -/
theorem unpack_neg {x : Float} (hx : x.toModel.unpack = parts .positive n 0) (hn : n.log2 ≤ 1023) :
    (-x).toModel.unpack = parts .negative n 0 := by
  show UnpackedFloat.unpack .binary64 (UnpackedFloat.pack .binary64 x.toModel.unpack.neg) = _
  have hneg : (parts .positive n 0).neg = parts .negative n 0 := by
    unfold parts
    split <;> rfl
  rw [hx, hneg]
  exact unpack_pack_parts .negative (by decide) (by omega)

/-- Rounding stays beyond the integers. -/
theorem le_nearest (hn : 2 ^ 63 ≤ n) : 2 ^ 63 ≤ nearest n := by
  have hexact : nearest (2 ^ 63) = 2 ^ 63 := by decide
  exact hexact.symm.trans_le (nearest_mono hn)

/-- **Digits beyond the integers**, up to the largest double: a number of 53 bits, no smaller than what it is the
    nearest to. -/
theorem trunc_floatOfDecimal (hlow : 2 ^ 63 ≤ n) (hhigh : n < roundLimit) (neg : Bool) :
    ∃ d, Binary.ofFloat? (if neg then -floatOfDecimal n 0 else floatOfDecimal n 0) = some d ∧
      d.trunc = Binary.signed neg (nearest n) := by
  have hlog : 63 ≤ (nearest n).log2 := le_log2_of_le (le_nearest hlow)
  have hlog' : (nearest n).log2 < 1024 := log2_lt_of_lt (nearest_ne_zero (by omega)) (nearest_lt_iff.mpr hhigh)
  have hx : (floatOfDecimal n 0).toModel.unpack = parts .positive (nearest n) 0 := by
    rw [floatOfDecimal_whole (by omega)]
    exact unpack_pack_parts .positive (by decide) (by omega)
  cases neg with
  | false => exact trunc_of_unpack (by omega) (short_nearest n) hx
  | true => exact trunc_of_unpack (by omega) (short_nearest n) (unpack_neg hx (by omega))

/-- Digits beyond the largest double. -/
theorem floatOfDecimal_large (hn : roundLimit ≤ n) : floatOfDecimal n 0 = 1.0 / 0.0 := by
  have hbig : 2 ^ 53 ≤ roundLimit := by decide +kernel
  have hnearest : 2 ^ 1024 ≤ nearest n := Nat.not_lt.mp (mt nearest_lt_iff.mp (Nat.not_lt.mpr hn))
  rw [floatOfDecimal_whole (hbig.trans hn), pack_parts_large .positive hnearest]
  rfl

/-- Outside of the range only the sign counts. -/
theorem clampInt_signed {m : Nat} (hm : 2 ^ 63 ≤ m) (neg : Bool) :
    clampInt (Binary.signed neg m) = Int64.ofInt (if neg then minInt else maxInt) := by
  unfold clampInt
  congr 1
  cases neg with
  | false =>
    show (if (m : Int) < minInt then minInt else if maxInt < m then maxInt else m) = maxInt
    unfold minInt maxInt
    split <;> omega
  | true =>
    show (if -(m : Int) < minInt then minInt else if maxInt < -(m : Int) then maxInt else -(m : Int)) = minInt
    unfold minInt maxInt
    split <;> omega

theorem le_of_not_fits {m : Nat} {neg : Bool} (h : ¬ fitsInt (Binary.signed neg m) = true) : 2 ^ 63 ≤ m := by
  unfold fitsInt minInt maxInt Binary.signed at h
  rw [Bool.and_eq_true, decide_eq_true_eq, decide_eq_true_eq] at h
  split at h <;> omega

theorem signed_neg_iff {m : Nat} (hm : m ≠ 0) (neg : Bool) : Binary.signed neg m < 0 ↔ neg = true := by
  cases neg with
  | false => exact iff_of_false (Int.not_lt.mpr (Int.natCast_nonneg m)) Bool.false_ne_true
  | true => exact iff_of_true (by show -(m : Int) < 0; omega) rfl

theorem natAbs_signed (neg : Bool) (m : Nat) : (Binary.signed neg m).natAbs = m := by
  unfold Binary.signed
  split <;> omega

theorem natOfDigits_digits (n : Nat) : natOfDigits (digits n) = n := Nat.ofDigitChars_ten_toDigits

/-- The text of an integer is a numeral for it. -/
theorem numeral_toString (n : Int) : Numeral (toString n).toList n := by
  cases n with
  | ofNat m =>
    have hplain := Numeral.plain (isDigits_digits m)
    have htext : (toString (Int.ofNat m)).toList = digits m := toString_toList (Int.natCast_nonneg m)
    rw [natOfDigits_digits] at hplain
    rw [htext]
    exact hplain
  | negSucc m =>
    have hminus := Numeral.minus (isDigits_digits (m + 1))
    rw [natOfDigits_digits] at hminus
    have htext : (toString (Int.negSucc m)).toList = '-' :: digits (m + 1) := by
      show ("-" ++ toString (m + 1)).toList = _
      rw [String.toList_append, Nat.toString_eq_ofList_toDigits, String.toList_ofList, String.toList_ofList]
      rfl
    rw [htext]
    exact hminus

theorem Numeral.not_blank {cs : List Char} {n : Int} (h : Numeral cs n) : ∀ c ∈ cs, Text.isBlank c = false := by
  have hdigits {ds : List Char} (hds : IsDigits ds) : ∀ c ∈ ds, Text.isBlank c = false :=
    fun c hc => Scanner.isBlank_eq_false_of_word (Scanner.isWordChar_of_digit (hds.2 c hc))
  cases h with
  | plain hds => exact hdigits hds
  | plus hds | minus hds => exact List.forall_mem_cons.mpr ⟨by decide, hdigits hds⟩

end Decimal

/-- Nothing is trimmed where nothing is blank. -/
theorem Text.trim_of_not_blank {cs : List Char} (h : ∀ c ∈ cs, isBlank c = false) : trim cs = cs := by
  have hdrop {ds : List Char} (hds : ∀ c ∈ ds, isBlank c = false) : ds.dropWhile isBlank = ds := by
    cases ds with
    | nil => rfl
    | cons d ds => exact List.dropWhile_cons_of_neg (by simp [hds d List.mem_cons_self])
  unfold trim trimEnd trimStart
  rw [hdrop h, hdrop fun c hc => h c (List.mem_reverse.mp hc), List.reverse_reverse]

namespace Builtin

open Decimal

theorem toInt_infinite (neg : Bool) : toInt "int" Binary.trunc (if neg then -(1.0 / 0.0) else 1.0 / 0.0) =
    .error (.value (.notAnInt "int" (if neg then "-inf" else "inf"))) := by
  cases neg <;> rfl

variable {s : String} {n : Int}

theorem int_of_readInt64 {m : Int64} (h : readInt64 (Text.trim s.toList) = some m) : int [.str s] = .ok (.int m) := by
  unfold int arg Value.itemAt
  simp only [List.getElem?_cons_zero, bind, Except.bind, h]
  rfl

theorem int_of_readFloat {x : Float} (h : readInt64 (Text.trim s.toList) = none)
    (hx : readFloat (Text.trim s.toList) = some x) : int [.str s] = toInt "int" Binary.trunc x := by
  unfold int arg Value.itemAt
  simp only [List.getElem?_cons_zero, bind, Except.bind, h, hx]

/-- A numeral whose number fits is read exactly. -/
theorem int_of_fits (h : Numeral (Text.trim s.toList) n) (hfits : fitsInt n = true) :
    int [.str s] = .ok (.int (Int64.ofInt n)) := by
  have hread := readInt64_numeral h
  rw [if_pos hfits] at hread
  exact int_of_readInt64 hread

/-- Any other is read as a double. -/
theorem int_of_not_fits {ds : List Char} {neg : Bool} (hds : IsDigits ds)
    (hsplit : splitSign (Text.trim s.toList) = (neg, ds))
    (h : Numeral (Text.trim s.toList) (Binary.signed neg (natOfDigits ds)))
    (hfits : ¬ fitsInt (Binary.signed neg (natOfDigits ds)) = true) :
    int [.str s] = toInt "int" Binary.trunc
      (if neg then -floatOfDecimal (natOfDigits ds) 0 else floatOfDecimal (natOfDigits ds) 0) := by
  have hread := readInt64_numeral h
  rw [if_neg hfits] at hread
  exact int_of_readFloat hread (readFloat_digits hds hsplit)

/-- Outside of the range, a double gives the nearer end of it. -/
theorem int_of_lt_roundLimit (h : Numeral (Text.trim s.toList) n) (hfits : ¬ fitsInt n = true)
    (hlimit : n.natAbs < roundLimit) : int [.str s] = .ok (.int (clampInt n)) := by
  obtain ⟨neg, ds, hds, hsplit, rfl⟩ := h.split
  rw [natAbs_signed] at hlimit
  have hlow := le_of_not_fits hfits
  obtain ⟨d, hd, htrunc⟩ := trunc_floatOfDecimal hlow hlimit neg
  rw [int_of_not_fits hds hsplit h hfits, toInt, hd, clampInt_signed hlow, ← clampInt_signed (le_nearest hlow),
    ← htrunc]

/-- An infinity is no integer. -/
theorem int_of_roundLimit_le (h : Numeral (Text.trim s.toList) n) (hlimit : roundLimit ≤ n.natAbs) :
    int [.str s] = .error (.value (.notAnInt "int" (if n < 0 then "-inf" else "inf"))) := by
  obtain ⟨neg, ds, hds, hsplit, rfl⟩ := h.split
  rw [natAbs_signed] at hlimit
  have hlarge : 2 ^ 63 < roundLimit := by decide +kernel
  have hne : natOfDigits ds ≠ 0 := by omega
  have hfits : ¬ fitsInt (Binary.signed neg (natOfDigits ds)) = true := by
    unfold fitsInt minInt maxInt Binary.signed
    rw [Bool.and_eq_true, decide_eq_true_eq, decide_eq_true_eq]
    split <;> omega
  rw [int_of_not_fits hds hsplit h hfits, floatOfDecimal_large hlimit, toInt_infinite]
  simp only [signed_neg_iff hne]

/-- **`int` reads numerals exactly, as far as they fit.** Of the others, those that a double can hold become the
    nearer end of the integers, and only those that are too large for one fail. An integer is read back from its
    text. -/
theorem int_reads_numerals (h : Numeral (Text.trim s.toList) n) (k : Int64) :
    (int [.str s] =
      if fitsInt n then .ok (.int (Int64.ofInt n))
      else if n.natAbs < roundLimit then .ok (.int (clampInt n))
      else .error (.value (.notAnInt "int" (if n < 0 then "-inf" else "inf")))) ∧
    (toStr [.int k] >>= fun text => int [text]) = .ok (.int k) := by
  constructor
  · split
    · rename_i hfits
      exact int_of_fits h hfits
    split
    · rename_i hfits hlimit
      exact int_of_lt_roundLimit h hfits hlimit
    · rename_i hfits hlimit
      exact int_of_roundLimit_le h (Nat.not_lt.mp hlimit)
  · have hnumeral := numeral_toString k.toInt
    have htrim := Text.trim_of_not_blank hnumeral.not_blank
    rw [← htrim] at hnumeral
    show int [.str (toString k.toInt)] = _
    rw [int_of_fits hnumeral (fitsInt_iff.mpr ⟨k, rfl⟩), Int64.ofInt_toInt]

/-- A sign, zeros in front and blanks around; and the least integer. -/
theorem int_reads_numerals_signed :
    Numeral (Text.trim " -007\n".toList) (-7) ∧ int [.str " -007\n"] = .ok (.int (-7)) ∧
      (toStr [.int Int64.minValue] >>= fun text => int [text]) = .ok (.int Int64.minValue) := by
  have hchars : " -007\n".toList = [' ', '-', '0', '0', '7', '\n'] := by simp
  have hnumeral : Numeral (Text.trim " -007\n".toList) (-7) := by
    rw [hchars]
    exact @Numeral.minus ['0', '0', '7'] ⟨nofun, List.all_eq_true.mp (by decide)⟩
  exact ⟨hnumeral, int_reads_numerals hnumeral Int64.minValue⟩

/-- The number after the largest integer is read as the largest integer. -/
theorem int_after_largest :
    Numeral (Text.trim "9223372036854775808".toList) 9223372036854775808 ∧
      int [.str "9223372036854775808"] = .ok (.int 9223372036854775807) := by
  have hchars : "9223372036854775808".toList = ['9', '2', '2', '3', '3', '7', '2', '0', '3', '6', '8', '5', '4', '7',
    '7', '5', '8', '0', '8'] := by simp
  have hnumeral : Numeral (Text.trim "9223372036854775808".toList) 9223372036854775808 := by
    rw [hchars]
    exact @Numeral.plain ['9', '2', '2', '3', '3', '7', '2', '0', '3', '6', '8', '5', '4', '7', '7', '5', '8', '0',
      '8'] ⟨nofun, List.all_eq_true.mp (by decide)⟩
  exact ⟨hnumeral, int_of_lt_roundLimit hnumeral (by decide) (by decide +kernel)⟩

end Builtin

/-! ## Written strings -/

namespace Scanner

/-- A written string is read as one token. -/
theorem tokenize_quote (t : String) :
    (Token.tokenize (Text.quote t)).map (List.map Token.kind) = .ok [.str (reread t), .eof] := by
  have hsolid : Solid (Text.quote t).toList := by
    have hlast : Solid "\"".toList := ⟨[], '"', rfl, by decide, by decide⟩
    unfold Text.quote
    rw [String.toList_append]
    exact hlast.append _
  obtain ⟨ts, s', hs, hkinds, hrest⟩ := (reads_quote t []).lexes.start hsolid
  rw [Token.tokenize_eq_ok_iff.mpr ⟨ts, s', hs, hrest, rfl⟩]
  show Except.ok ((ts ++ [_]).map Token.kind) = _
  rw [List.map_append, hkinds]
  rfl

/-- **The tokens of a written string**: the string that its written form denotes, and the end of input. That is the
    same string exactly when none of its characters is written with its number. -/
theorem tokenize_repr (t : String) :
    (Token.tokenize (Value.str t).repr).map (List.map Token.kind) = .ok [.str (reread t), .eof] ∧
      (reread t = t ↔ ∀ c ∈ t.toList, IsPlain c) :=
  ⟨tokenize_quote t, reread_eq_iff⟩

/-- A control character comes back as the characters of its escape. -/
theorem control_character_not_read_back :
    (Token.tokenize (Value.str "\x01").repr).map (List.map Token.kind) = .ok [.str "u\x7b1\x7d", .eof] ∧
      "u\x7b1\x7d" ≠ "\x01" := by
  have hreread : reread "\x01" = "u\x7b1\x7d" := by
    unfold reread
    rw [show "\x01".toList = ['\x01'] by simp]
    rfl
  refine ⟨?_, by decide⟩
  rw [← hreread]
  exact tokenize_quote "\x01"

end Scanner

end Helios
