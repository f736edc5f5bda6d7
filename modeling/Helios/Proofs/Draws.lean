import Helios.Module
import Helios.Proofs.Safety

/-!
# Draws — what comes of a random generator

A step of the generator is three times an exclusive or of a word with itself shifted. Shifting goes over an exclusive or
bit by bit, and comes to zero when it is done often enough; so a word can be told from what such a step makes of it
(`Random.injective_xor`). Hence the step is a permutation of the words that leaves zero where it is, and a generator
that was seeded never comes to zero, whatever is drawn from it (`Random.state_after_ne_zero`).

An integer between two bounds is the remainder of a word, put on top of the lower bound. It stays within the bounds for
any two words of 64 bits (`Random.nextInt_checked`), and so an item that is drawn from a list is one of the list
(`Random.itemAt_nextInt`).
-/

namespace Helios

namespace Random

/-! ## One step -/

/-- **A word is known from its exclusive or with `shift` of it**, if `shift` goes over exclusive ors and some number of
    shifts comes to zero. -/
theorem injective_xor {shift : UInt64 → UInt64} (hxor : ∀ x y, shift (x ^^^ y) = shift x ^^^ shift y) {n : Nat}
    (hzero : ∀ x, shift^[n] x = 0) : Function.Injective fun x => x ^^^ shift x := by
  intro x y h
  -- the words differ in bits that the shift does not move
  have hfixed : shift (x ^^^ y) = x ^^^ y := by
    have hcancel : x ^^^ y ^^^ (shift x ^^^ shift y) = 0 := by
      calc x ^^^ y ^^^ (shift x ^^^ shift y) = (x ^^^ shift x) ^^^ (y ^^^ shift y) := by ac_rfl
        _ = 0 := UInt64.xor_eq_zero_iff.mpr h
    rw [hxor]
    exact (UInt64.xor_eq_zero_iff.mp hcancel).symm
  have hdiff : x ^^^ y = 0 := by
    rw [← Function.iterate_fixed hfixed n]
    exact hzero _
  exact UInt64.xor_eq_zero_iff.mp hdiff

theorem toBitVec_iterate_shiftLeft (k : UInt64) (n : Nat) (x : UInt64) :
    ((· <<< k)^[n] x).toBitVec = x.toBitVec <<< (n * (k.toNat % 64)) := by
  induction n with
  | zero => simp
  | succ n ih =>
    rw [Function.iterate_succ_apply', UInt64.toBitVec_shiftLeft, ih, Nat.succ_mul, BitVec.shiftLeft_add]
    rfl

theorem toBitVec_iterate_shiftRight (k : UInt64) (n : Nat) (x : UInt64) :
    ((· >>> k)^[n] x).toBitVec = x.toBitVec >>> (n * (k.toNat % 64)) := by
  induction n with
  | zero => simp
  | succ n ih =>
    rw [Function.iterate_succ_apply', UInt64.toBitVec_shiftRight, ih, Nat.succ_mul, BitVec.shiftRight_add]
    rfl

theorem injective_xor_shiftLeft {k : UInt64} (hk : 0 < k.toNat % 64) :
    Function.Injective fun x : UInt64 => x ^^^ (x <<< k) := by
  refine injective_xor (n := 64) (fun x y => UInt64.shiftLeft_xor) fun x => UInt64.toBitVec_inj.mp ?_
  rw [toBitVec_iterate_shiftLeft]
  exact BitVec.shiftLeft_eq_zero (Nat.le_mul_of_pos_right 64 hk)

theorem injective_xor_shiftRight {k : UInt64} (hk : 0 < k.toNat % 64) :
    Function.Injective fun x : UInt64 => x ^^^ (x >>> k) := by
  refine injective_xor (n := 64) (fun x y => UInt64.shiftRight_xor) fun x => UInt64.toBitVec_inj.mp ?_
  rw [toBitVec_iterate_shiftRight]
  exact BitVec.ushiftRight_eq_zero (Nat.le_mul_of_pos_right 64 hk)

/-- **A step is a permutation of the words.** -/
theorem mix_bijective : Function.Bijective mix := by
  have hleft := injective_xor_shiftLeft (k := 13) (by decide)
  have hright := injective_xor_shiftRight (k := 7) (by decide)
  have hlast := injective_xor_shiftLeft (k := 17) (by decide)
  exact Finite.injective_iff_bijective.mp (hlast.comp (hright.comp hleft))

/-- **Only zero comes to zero.** -/
theorem mix_eq_zero_iff {s : UInt64} : mix s = 0 ↔ s = 0 :=
  ⟨fun h => mix_bijective.injective (h.trans (by decide : (0 : UInt64) = mix 0)), fun h => by rw [h]; decide⟩

/-! ## Runs of draws -/

/-- What may be drawn from a generator: a word, a float, or an integer between two others. -/
inductive Draw
  | word
  | float
  | int (low high : Int64)

/-- The generator after a draw. -/
def afterDraw (g : Random) : Draw → Random
  | .word => g.next.2
  | .float => g.nextFloat.2
  | .int low high => (g.nextInt low.toInt high.toInt).2

/-- The generator after some draws. -/
def after (g : Random) (draws : List Draw) : Random := draws.foldl afterDraw g

/-- Whatever is drawn, the generator takes one step. -/
theorem afterDraw_state (g : Random) (d : Draw) : (g.afterDraw d).state = mix g.state := by
  cases d <;> rfl

theorem state_seeded_ne_zero (seed : UInt64) : (seeded seed).state ≠ 0 := by
  show (if seed = 0 then (0xdeadbeef : UInt64) else seed) ≠ 0
  by_cases h : seed = 0
  · rw [if_pos h]
    decide
  · rwa [if_neg h]

/-- **A generator that is not at zero never comes to zero.** -/
theorem state_after_ne_zero {g : Random} (h : g.state ≠ 0) (draws : List Draw) : (g.after draws).state ≠ 0 := by
  induction draws generalizing g with
  | nil => exact h
  | cons d draws ih =>
    apply ih
    rw [afterDraw_state]
    exact mt mix_eq_zero_iff.mp h

/-! ## What is drawn -/

/-- **An item whose place is drawn is there.** -/
theorem itemAt_nextInt (g : Random) {items : List Value} (h : items ≠ []) :
    ∃ v ∈ items, Value.itemAt items (g.nextInt 0 (items.length - 1)).1.toNat = .ok v := by
  have hpos := List.length_pos_of_ne_nil h
  have hplace : (g.nextInt 0 (items.length - 1)).1.toNat < items.length := by
    show (0 + ((g.next.1.toNat % ((items.length : Int) - 1 - 0 + 1).toNat : Nat) : Int)).toNat < items.length
    have hrem : g.next.1.toNat % ((items.length : Int) - 1 - 0 + 1).toNat < ((items.length : Int) - 1 - 0 + 1).toNat :=
      Nat.mod_lt _ (by omega)
    omega
  refine ⟨items[(g.nextInt 0 (items.length - 1)).1.toNat], List.getElem_mem hplace, ?_⟩
  unfold Value.itemAt
  rw [List.getElem?_eq_getElem hplace]

/-- **An integer that is drawn between two words is a word between them.** -/
theorem ofInt_nextInt_between (g : Random) {low high : Int64} (h : low ≤ high) :
    low ≤ Int64.ofInt (g.nextInt low.toInt high.toInt).1 ∧ Int64.ofInt (g.nextInt low.toInt high.toInt).1 ≤ high := by
  obtain ⟨hlow, -⟩ := Word.fits_toInt low
  obtain ⟨-, hhigh⟩ := Word.fits_toInt high
  obtain ⟨-, hge, hle⟩ :=
    g.nextInt_checked (Word.fits_toInt low) (Word.fits_toInt high) (Int64.le_iff_toInt_le.mp h)
  have hword : (Int64.ofInt (g.nextInt low.toInt high.toInt).1).toInt = (g.nextInt low.toInt high.toInt).1 :=
    Int64.toInt_ofInt_of_le (by omega) (by omega)
  constructor
  · rwa [Int64.le_iff_toInt_le, hword]
  · rwa [Int64.le_iff_toInt_le, hword]

end Random

/-! ## Functions that draw -/

open Builtin (arg intArg listArg)

variable {low high : Int64} {items : List Value} {args : List Value}

theorem Exec.randint_between (hlow : intArg "randint" args 0 = .ok low) (hhigh : intArg "randint" args 1 = .ok high)
    (h : low ≤ high) (m : Machine) :
    ∃ n, low ≤ n ∧ n ≤ high ∧ host .randint args m = (.ok (.int n), { m with random := m.random.next.2 }) := by
  obtain ⟨hge, hle⟩ := m.random.ofInt_nextInt_between h
  refine ⟨_, hge, hle, ?_⟩
  show (ofExcept (intArg "randint" args 0) >>= fun low => ofExcept (intArg "randint" args 1) >>= fun high => _ :
    Exec Value) m = _
  rw [hlow, hhigh]
  show (if high.toInt < low.toInt then _ else _ : Exec Value) m = _
  rw [if_neg (Int.not_lt.mpr (Int64.le_iff_toInt_le.mp h))]
  rfl

theorem Exec.choice_among (hitems : items ≠ []) (m : Machine) :
    ∃ v ∈ items, host .choice [.list items] m = (.ok v, { m with random := m.random.next.2 }) := by
  obtain ⟨v, hv, hitem⟩ := m.random.itemAt_nextInt hitems
  refine ⟨v, hv, ?_⟩
  rw [choice_eq]
  show (if items.isEmpty then _ else _ : Exec Value) m = _
  rw [if_neg (by rwa [List.isEmpty_iff])]
  show ofExcept (Value.itemAt items (m.random.nextInt 0 (items.length - 1)).1.toNat) _ = _
  rw [hitem]
  rfl

theorem Module.randint_between (h : low ≤ high) (g : Random) :
    ∃ n, low ≤ n ∧ n ≤ high ∧ randint [.int low, .int high] g = .ok (.int n, g.next.2) := by
  obtain ⟨hge, hle⟩ := g.ofInt_nextInt_between h
  refine ⟨_, hge, hle, ?_⟩
  show (if high.toInt < low.toInt then _ else _ : Except Cause (Value × Random)) = _
  rw [if_neg (Int.not_lt.mpr (Int64.le_iff_toInt_le.mp h))]
  rfl

theorem Module.choice_among (hitems : items ≠ []) (g : Random) :
    ∃ v ∈ items, choice [.list items] g = .ok (v, g.next.2) := by
  obtain ⟨v, hv, hitem⟩ := g.itemAt_nextInt hitems
  refine ⟨v, hv, ?_⟩
  obtain ⟨w, rest, rfl⟩ := List.exists_cons_of_ne_nil hitems
  show (Value.itemAt (w :: rest) (g.nextInt 0 ((w :: rest).length - 1)).1.toNat >>= fun v => _) = _
  rw [hitem]
  rfl

/-- **A generator never degenerates, and what is drawn stays within its bounds.** From any seed and after any draws the
    state is not zero; a step tells all states apart, reaches them all, and takes only zero to zero. An integer is drawn
    between any two words without an overflow, also where its bounds are the least and the greatest word. So `randint`
    stays between its bounds, and `choice` picks an item of its list, for the machine and for a module. -/
theorem Random.draws_within_bounds :
    (∀ seed draws, ((seeded seed).after draws).state ≠ 0) ∧
    (Function.Bijective fun g : Random => g.next.2) ∧
    (∀ g : Random, g.next.1 = g.next.2.state ∧ (g.next.2.state = 0 ↔ g.state = 0)) ∧
    (∀ (g : Random) (low high : Int64), low ≤ high →
      Checked.nextInt g low.toInt high.toInt = .ok (g.nextInt low.toInt high.toInt) ∧
      low.toInt ≤ (g.nextInt low.toInt high.toInt).1 ∧ (g.nextInt low.toInt high.toInt).1 ≤ high.toInt) ∧
    (∀ args low high, intArg "randint" args 0 = .ok low → intArg "randint" args 1 = .ok high → low ≤ high → ∀ m,
      ∃ n, low ≤ n ∧ n ≤ high ∧
        Exec.host .randint args m = (.ok (.int n), { m with random := m.random.next.2 })) ∧
    (∀ items, items ≠ [] → ∀ m, ∃ v ∈ items,
      Exec.host .choice [.list items] m = (.ok v, { m with random := m.random.next.2 })) ∧
    (∀ (g : Random) (low high : Int64), low ≤ high → ∃ n, low ≤ n ∧ n ≤ high ∧
      Module.randint [.int low, .int high] g = .ok (.int n, g.next.2)) ∧
    (∀ (g : Random) items, items ≠ [] → ∃ v ∈ items, Module.choice [.list items] g = .ok (v, g.next.2)) := by
  refine ⟨fun seed draws => state_after_ne_zero (state_seeded_ne_zero seed) draws, ?_,
    fun g => ⟨rfl, mix_eq_zero_iff⟩, fun g low high h => ?_,
    fun args low high hlow hhigh h m => Exec.randint_between hlow hhigh h m,
    fun items hitems m => Exec.choice_among hitems m, fun g low high h => Module.randint_between h g,
    fun g items hitems => Module.choice_among hitems g⟩
  · constructor
    · intro g g' h
      have hstate : mix g.state = mix g'.state := congrArg Random.state h
      exact congrArg Random.mk (mix_bijective.injective hstate)
    · intro g
      obtain ⟨s, hs⟩ := mix_bijective.surjective g.state
      exact ⟨⟨s⟩, congrArg Random.mk hs⟩
  · exact g.nextInt_checked (Word.fits_toInt low) (Word.fits_toInt high) (Int64.le_iff_toInt_le.mp h)

/-- All words are between the least and the greatest, and there are as many of them as of states. -/
theorem Random.draws_within_bounds_all_words :
    ((seeded 0).after [.float, .int Int64.minValue Int64.maxValue]).state ≠ 0 ∧ Int64.minValue ≤ Int64.maxValue ∧
    Checked.nextInt (seeded 0) Int64.minValue.toInt Int64.maxValue.toInt =
      .ok ((seeded 0).nextInt Int64.minValue.toInt Int64.maxValue.toInt) :=
  ⟨draws_within_bounds.1 0 _, by decide, (draws_within_bounds.2.2.2.1 _ Int64.minValue Int64.maxValue (by decide)).1⟩

end Helios
