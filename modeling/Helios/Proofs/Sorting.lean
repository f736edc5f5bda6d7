import Mathlib
import Helios.Builtin.Collections
import Helios.Builtin.Numbers
import Helios.Proofs.Rounding

/-!
# Sorting — order and extremes of comparable values

Some values are *ranked* when they compare as their ranks do. Then a sorted list ascends by rank
(`sorted_ascending`), whichever of the two algorithms sorts it, and `min` and `max` give a value of least and of
greatest rank (`extremeOf_ranked`). That a sorted list is a permutation needs no order (`sorted_perm`).

Two integers are compared as doubles, so the rank of an integer is what it is rounded to (`compare_int`). Integers
that no rounding makes equal are in the order of integers (`integers_in_order`); others compare equal while `==`
tells them apart (`rounded_integers_not_in_order`).
-/

namespace Helios

/-! ## Ranks -/

/-- **Values that compare as their ranks do.** -/
def Value.Ranked {K : Type} [LinearOrder K] (rank : Value → K) (vs : List Value) : Prop :=
  ∀ v ∈ vs, ∀ w ∈ vs, Value.compare v w = .ok (Ord.compare (rank v) (rank w))

namespace Builtin

open Value (Ranked)

variable {K : Type} [LinearOrder K] {rank : Value → K} {v : Value} {vs : List Value}

theorem sortsBefore_ranked (h : Ranked rank vs) {w : Value} (hv : v ∈ vs) (hw : w ∈ vs) :
    sortsBefore v w = decide (rank v ≤ rank w) := by
  unfold sortsBefore
  rw [h v hv w hw]
  cases hc : Ord.compare (rank v) (rank w) with
  | lt => exact (decide_eq_true (compare_lt_iff_lt.mp hc).le).symm
  | eq => exact (decide_eq_true (compare_eq_iff_eq.mp hc).le).symm
  | gt => exact (decide_eq_false (compare_gt_iff_gt.mp hc).not_ge).symm

theorem comesBefore_ranked (h : Ranked rank vs) {w : Value} (hv : v ∈ vs) (hw : w ∈ vs) :
    comesBefore v w = decide (rank v < rank w) := by
  unfold comesBefore
  rw [h v hv w hw]
  cases hc : Ord.compare (rank v) (rank w) with
  | lt => exact (decide_eq_true (compare_lt_iff_lt.mp hc)).symm
  | eq => exact (decide_eq_false (compare_eq_iff_eq.mp hc).not_lt).symm
  | gt => exact (decide_eq_false (compare_gt_iff_gt.mp hc).not_gt).symm

/-! ## Sorting by insertion -/

theorem insertDescending_perm (v : Value) (made : List Value) : (insertDescending v made).Perm (v :: made) := by
  induction made with
  | nil => exact .refl _
  | cons w rest ih =>
    unfold insertDescending
    split
    · exact (ih.cons w).trans (.swap v w rest)
    · exact .refl _

theorem insertDescending_descending {made : List Value} (h : Ranked rank (v :: made))
    (hmade : made.Pairwise fun a b => rank b ≤ rank a) :
    (insertDescending v made).Pairwise fun a b => rank b ≤ rank a := by
  induction made with
  | nil => exact List.pairwise_singleton _ _
  | cons w rest ih =>
    obtain ⟨hw, hrest⟩ := List.pairwise_cons.mp hmade
    have hsub : Ranked rank (v :: rest) :=
      fun a ha b hb => h a (by grind) b (by grind)
    unfold insertDescending
    rw [comesBefore_ranked h (w := w) (by simp) (by simp)]
    split
    · rename_i hlt
      refine List.pairwise_cons.mpr ⟨fun b hb => ?_, ih hsub hrest⟩
      rcases List.mem_cons.mp ((insertDescending_perm v rest).mem_iff.mp hb) with rfl | hb
      · exact (of_decide_eq_true hlt).le
      · exact hw b hb
    · rename_i hge
      have hle : rank w ≤ rank v := not_lt.mp fun hlt => hge (decide_eq_true hlt)
      refine List.pairwise_cons.mpr ⟨fun b hb => ?_, hmade⟩
      rcases List.mem_cons.mp hb with rfl | hb
      · exact hle
      · exact (hw b hb).trans hle

theorem foldl_insertDescending_perm (vs made : List Value) :
    (vs.foldl (fun made v => insertDescending v made) made).Perm (vs ++ made) := by
  induction vs generalizing made with
  | nil => exact .refl _
  | cons v rest ih =>
    exact (ih _).trans (((insertDescending_perm v made).append_left rest).trans List.perm_middle)

theorem foldl_insertDescending_descending {made : List Value} (h : Ranked rank (vs ++ made))
    (hmade : made.Pairwise fun a b => rank b ≤ rank a) :
    (vs.foldl (fun made v => insertDescending v made) made).Pairwise fun a b => rank b ≤ rank a := by
  induction vs generalizing made with
  | nil => exact hmade
  | cons v rest ih =>
    refine ih (fun a ha b hb => ?_) (insertDescending_descending (fun a ha b hb => h a ?_ b ?_) hmade)
    · have hmem := ((insertDescending_perm v made).append_left rest).mem_iff (a := a)
      have hmem' := ((insertDescending_perm v made).append_left rest).mem_iff (a := b)
      exact h a (by grind) b (by grind)
    · grind
    · grind

/-! ## Sorting -/

/-- **Sorting gives the same items in some order.** -/
theorem sorted_perm (vs : List Value) : (sorted vs).Perm vs := by
  unfold sorted
  split
  · exact (List.reverse_perm _).trans ((foldl_insertDescending_perm vs []).trans (by rw [List.append_nil]))
  · exact List.mergeSort_perm _ _

/-- Among ranked items the comparison is that of the ranks, which is an order on all values. -/
theorem mergeSort_ranked (h : Ranked rank vs) :
    vs.mergeSort sortsBefore = vs.mergeSort fun a b => decide (rank a ≤ rank b) := by
  have hmap := List.map_mergeSort (f := id) (l := vs) (r := sortsBefore)
    (s := fun a b => decide (rank a ≤ rank b)) fun a ha b hb => sortsBefore_ranked h ha hb
  simpa only [List.map_id] using hmap

theorem rank_le_trans (a b c : Value) (hab : decide (rank a ≤ rank b) = true)
    (hbc : decide (rank b ≤ rank c) = true) : decide (rank a ≤ rank c) = true :=
  decide_eq_true ((of_decide_eq_true hab).trans (of_decide_eq_true hbc))

theorem rank_le_total (a b : Value) : (decide (rank a ≤ rank b) || decide (rank b ≤ rank a)) = true := by
  simpa using le_total (rank a) (rank b)

/-- **The sorted items ascend by rank.** -/
theorem sorted_ascending (h : Ranked rank vs) : (sorted vs).Pairwise fun a b => rank a ≤ rank b := by
  unfold sorted
  split
  · exact List.pairwise_reverse.mpr (foldl_insertDescending_descending (by rwa [List.append_nil]) .nil)
  · rw [mergeSort_ranked h]
    exact (List.pairwise_mergeSort rank_le_trans rank_le_total vs).imp fun hle => of_decide_eq_true hle

theorem comparableWith_ranked {ws : List Value} (h : Ranked rank vs) (hv : v ∈ vs) (hws : ∀ w ∈ ws, w ∈ vs) :
    comparableWith v ws = .ok () := by
  induction ws with
  | nil => rfl
  | cons w rest ih =>
    unfold comparableWith
    rw [h v hv w (hws w (by simp))]
    exact ih fun w hw => hws w (by simp [hw])

/-- `sort` succeeds on ranked items. -/
theorem sort_ranked (h : Ranked rank vs) : sort [.list vs] = .ok (.list (sorted vs)) := by
  cases vs with
  | nil => rfl
  | cons v rest =>
    have hcheck : comparableWith v (v :: rest) = .ok () := comparableWith_ranked h (by simp) fun w hw => hw
    show (comparableWith v (v :: rest) >>= fun _ => pure (Value.list (sorted (v :: rest)))) = _
    rw [hcheck]
    rfl

/-! ## Extremes -/

theorem compare_trans {wanted : Ordering} (hwanted : wanted ≠ .eq) {a b c : K}
    (hab : Ord.compare a b = wanted) (hbc : Ord.compare b c = wanted) : Ord.compare a c = wanted := by
  cases wanted with
  | lt => exact compare_lt_iff_lt.mpr ((compare_lt_iff_lt.mp hab).trans (compare_lt_iff_lt.mp hbc))
  | eq => exact absurd rfl hwanted
  | gt => exact compare_gt_iff_gt.mpr ((compare_gt_iff_gt.mp hbc).trans (compare_gt_iff_gt.mp hab))

theorem compare_of_not {wanted : Ordering} (hwanted : wanted ≠ .eq) {a b c : K}
    (hac : Ord.compare a c = wanted) (hbc : Ord.compare b c ≠ wanted) : Ord.compare a b = wanted := by
  cases wanted with
  | lt =>
    have hle : c ≤ b := not_lt.mp (mt compare_lt_iff_lt.mpr hbc)
    exact compare_lt_iff_lt.mpr ((compare_lt_iff_lt.mp hac).trans_le hle)
  | eq => exact absurd rfl hwanted
  | gt =>
    have hle : b ≤ c := not_lt.mp (mt compare_gt_iff_gt.mpr hbc)
    exact compare_gt_iff_gt.mpr (hle.trans_lt (compare_gt_iff_gt.mp hac))

/-- **The extreme of ranked items** is one of them, and none of them is on the wanted side of it. -/
theorem extremeOf_ranked {wanted : Ordering} (hwanted : wanted ≠ .eq) {best : Value}
    (h : Ranked rank (best :: vs)) : ∃ y ∈ best :: vs, extremeOf wanted best vs = .ok y ∧
      ∀ v ∈ best :: vs, Ord.compare (rank v) (rank y) ≠ wanted := by
  induction vs generalizing best with
  | nil =>
    refine ⟨best, by simp, rfl, fun v hv => ?_⟩
    rw [List.mem_singleton.mp hv, compare_eq_iff_eq.mpr rfl]
    exact hwanted.symm
  | cons w rest ih =>
    have hstep : extremeOf wanted best (w :: rest) =
        extremeOf wanted (if Ord.compare (rank w) (rank best) == wanted then w else best) rest := by
      conv_lhs => unfold extremeOf
      rw [h w (by simp) best (by simp)]
      rfl
    rw [hstep]
    by_cases hc : Ord.compare (rank w) (rank best) = wanted
    · rw [if_pos (beq_iff_eq.mpr hc)]
      have hrest : Ranked rank (w :: rest) := fun a ha b hb => h a (by grind) b (by grind)
      obtain ⟨y, hy, heq, hall⟩ := ih hrest
      refine ⟨y, by grind, heq, fun v hv => ?_⟩
      -- `best` does not beat `y` either: `w` beats `best`, so `w` would
      rcases List.mem_cons.mp hv with rfl | hv
      · exact fun hv => hall w (by simp) (compare_trans hwanted hc hv)
      · exact hall v hv
    · rw [if_neg (mt beq_iff_eq.mp hc)]
      have hrest : Ranked rank (best :: rest) := fun a ha b hb => h a (by grind) b (by grind)
      obtain ⟨y, hy, heq, hall⟩ := ih hrest
      refine ⟨y, by grind, heq, fun v hv => ?_⟩
      rcases List.mem_cons.mp hv with rfl | hv
      · exact hall v (by simp)
      -- if `w` beat `y` it would beat `best`, which does not beat `y`
      rcases List.mem_cons.mp hv with rfl | hv
      · exact fun hv => hc (compare_of_not hwanted hv (hall best (by simp)))
      · exact hall v (by simp [hv])

/-- `min` and `max` give the extreme of the items of a list, or of their arguments. -/
theorem extreme_ranked {wanted : Ordering} (hwanted : wanted ≠ .eq) (name : String) (h : Ranked rank vs)
    (hne : vs ≠ []) : ∃ y ∈ vs, extreme name wanted [.list vs] = .ok y ∧
      ∀ v ∈ vs, Ord.compare (rank v) (rank y) ≠ wanted := by
  cases vs with
  | nil => exact absurd rfl hne
  | cons best rest => exact extremeOf_ranked hwanted h

end Builtin

/-! ## Integers -/

open Decimal (rounded floatOfInt)

/-- **Two integers are compared as what they are rounded to.** -/
theorem Value.compare_int (a b : Int64) :
    Value.compare (.int a) (.int b) = .ok (Ord.compare (rounded a.toInt) (rounded b.toInt)) :=
  congrArg Except.ok (Decimal.compareFloats_floatOfInt a b)

/-- **Integers that rounding keeps apart**: no two different ones become the same double. -/
def Distinguished (xs : List Int64) : Prop :=
  ∀ a ∈ xs, ∀ b ∈ xs, (floatOfInt a == floatOfInt b) = true → a = b

theorem distinguished_of_nodup {xs : List Int64} (h : (xs.map fun a => rounded a.toInt).Nodup) : Distinguished xs :=
  fun a ha b hb heq => List.inj_on_of_nodup_map h ha hb ((Decimal.floatOfInt_beq a b).mp heq)

/-- Rounding keeps all integers up to `2 ^ 53` apart. -/
theorem distinguished_of_le {xs : List Int64} (h : ∀ a ∈ xs, a.toInt.natAbs ≤ 2 ^ 53) : Distinguished xs := by
  intro a ha b hb heq
  have hrounded := (Decimal.floatOfInt_beq a b).mp heq
  rw [Decimal.rounded_of_le (h a ha), Decimal.rounded_of_le (h b hb)] at hrounded
  exact Int64.toInt_inj.mp hrounded

/-- The order of such integers is the order of what they are rounded to. -/
theorem Distinguished.rounded_compare {xs : List Int64} (h : Distinguished xs) {a b : Int64} (ha : a ∈ xs)
    (hb : b ∈ xs) : Ord.compare (rounded a.toInt) (rounded b.toInt) = Ord.compare a.toInt b.toInt := by
  have hne : ∀ {a b : Int64}, a ∈ xs → b ∈ xs → a.toInt < b.toInt → rounded a.toInt < rounded b.toInt := by
    intro a b ha hb hlt
    refine lt_of_le_of_ne (Decimal.rounded_mono hlt.le) fun heq => ?_
    have := h a ha b hb ((Decimal.floatOfInt_beq a b).mpr heq)
    subst this
    exact lt_irrefl _ hlt
  rcases Int.lt_trichotomy a.toInt b.toInt with hlt | heq | hgt
  · rw [compare_lt_iff_lt.mpr hlt, compare_lt_iff_lt.mpr (hne ha hb hlt)]
  · rw [heq, compare_eq_iff_eq.mpr rfl, compare_eq_iff_eq.mpr rfl]
  · rw [compare_gt_iff_gt.mpr hgt, compare_gt_iff_gt.mpr (hne hb ha hgt)]

/-- The integer that a value is, and zero for a value of another type. -/
def Value.asInt : Value → Int64
  | .int n => n
  | _ => 0

theorem Distinguished.ranked {xs : List Int64} (h : Distinguished xs) :
    Value.Ranked (fun v => v.asInt.toInt) (xs.map .int) := by
  intro v hv w hw
  obtain ⟨a, ha, rfl⟩ := List.mem_map.mp hv
  obtain ⟨b, hb, rfl⟩ := List.mem_map.mp hw
  rw [Value.compare_int, h.rounded_compare ha hb]
  rfl

/-- Some integers in another order are integers. -/
theorem exists_of_perm_map_int {vs : List Value} {xs : List Int64} (h : vs.Perm (xs.map .int)) :
    ∃ ys : List Int64, vs = ys.map .int ∧ ys.Perm xs := by
  refine ⟨vs.map Value.asInt, ?_, ?_⟩
  · rw [List.map_map]
    refine (List.map_id vs).symm.trans (List.map_congr_left fun v hv => ?_)
    obtain ⟨n, -, rfl⟩ := List.mem_map.mp (h.mem_iff.mp hv)
    rfl
  · have hperm := h.map Value.asInt
    rwa [List.map_map, show Value.asInt ∘ Value.int = id from rfl, List.map_id] at hperm

/-- **Integers are compared in their order** as far as rounding keeps them apart: exactly one of `<`, `==` and `>`
    holds between two of them, `sort` gives the ascending permutation, `min` the least and `max` the greatest. -/
theorem integers_in_order (xs : List Int64) (h : Distinguished xs) :
    (∀ a ∈ xs, ∀ b ∈ xs, Value.compare (.int a) (.int b) = .ok (Ord.compare a.toInt b.toInt) ∧
      Value.binary .lt (.int a) (.int b) = .ok (.bool (decide (a < b))) ∧
      Value.binary .eq (.int a) (.int b) = .ok (.bool (decide (a = b))) ∧
      Value.binary .gt (.int a) (.int b) = .ok (.bool (decide (b < a)))) ∧
    (∃ ys : List Int64, Builtin.sort [.list (xs.map .int)] = .ok (.list (ys.map .int)) ∧ ys.Perm xs ∧
      ys.Pairwise (· ≤ ·)) ∧
    (xs ≠ [] →
      (∃ y ∈ xs, Builtin.extreme "min" .lt [.list (xs.map .int)] = .ok (.int y) ∧ ∀ x ∈ xs, y ≤ x) ∧
      ∃ y ∈ xs, Builtin.extreme "max" .gt [.list (xs.map .int)] = .ok (.int y) ∧ ∀ x ∈ xs, x ≤ y) := by
  refine ⟨fun a ha b hb => ?_, ?_, fun hne => ?_⟩
  · -- two integers compare as they are, since rounding keeps distinguished ones apart
    have hcompare : Value.compare (.int a) (.int b) = .ok (Ord.compare a.toInt b.toInt) := by
      rw [Value.compare_int, h.rounded_compare ha hb]
    have hbool : ∀ {o : Ordering} {p : Prop} [Decidable p], (Ord.compare a.toInt b.toInt = o ↔ p) →
        (Value.compare (.int a) (.int b)).map (fun c => Value.bool (c == o)) = .ok (.bool (decide p)) := by
      intro o p _ hp
      rw [hcompare]
      refine congrArg (fun b => Except.ok (Value.bool b)) (Bool.eq_iff_iff.mpr ?_)
      rw [beq_iff_eq, decide_eq_true_iff, hp]
    refine ⟨hcompare, hbool ?_, ?_, hbool ?_⟩
    · rw [compare_lt_iff_lt, Int64.lt_iff_toInt_lt]
    · show Except.ok (Value.bool (Value.eqv (.int a) (.int b))) = _
      rw [Value.eqv]
      rfl
    · rw [compare_gt_iff_gt, Int64.lt_iff_toInt_lt]
  · -- so their ranks ascend in the sorted list
    obtain ⟨ys, hys, hperm⟩ := exists_of_perm_map_int (Builtin.sorted_perm (xs.map .int))
    have hascending := Builtin.sorted_ascending h.ranked
    rw [hys] at hascending
    refine ⟨ys, by rw [Builtin.sort_ranked h.ranked, hys], hperm, ?_⟩
    exact (List.pairwise_map.mp hascending).imp fun hle => Int64.le_iff_toInt_le.mpr hle
  · -- and no item is before the least or after the greatest
    have hne' : xs.map Value.int ≠ [] := by simpa using hne
    have hlt : Ordering.lt ≠ .eq := by decide
    have hgt : Ordering.gt ≠ .eq := by decide
    obtain ⟨y, hy, hmin, hle⟩ := Builtin.extreme_ranked hlt "min" h.ranked hne'
    obtain ⟨z, hz, hmax, hge⟩ := Builtin.extreme_ranked hgt "max" h.ranked hne'
    obtain ⟨a, ha, rfl⟩ := List.mem_map.mp hy
    obtain ⟨b, hb, rfl⟩ := List.mem_map.mp hz
    refine ⟨⟨a, ha, hmin, fun x hx => Int64.le_iff_toInt_le.mpr ?_⟩, b, hb, hmax, fun x hx =>
      Int64.le_iff_toInt_le.mpr ?_⟩
    · exact not_lt.mp fun hlt => hle _ (List.mem_map_of_mem hx) (compare_lt_iff_lt.mpr hlt)
    · exact not_lt.mp fun hlt => hge _ (List.mem_map_of_mem hx) (compare_gt_iff_gt.mpr hlt)

/-- Integers up to `2 ^ 53`, and beyond it one of every two. -/
theorem integers_in_order_large : Distinguished [9007199254740994, -3, 9007199254740992, 7] ∧
    (∃ ys : List Int64, Builtin.sort [.list ([9007199254740994, -3, 9007199254740992, 7].map .int)] =
      .ok (.list (ys.map .int)) ∧ ys.Perm [9007199254740994, -3, 9007199254740992, 7] ∧ ys.Pairwise (· ≤ ·)) := by
  have hrounded : ([9007199254740994, -3, 9007199254740992, 7] : List Int64).map (fun a => rounded a.toInt) =
      [9007199254740994, -3, 9007199254740992, 7] := by decide
  have h : Distinguished [9007199254740994, -3, 9007199254740992, 7] :=
    distinguished_of_nodup (by rw [hrounded]; decide)
  exact ⟨h, (integers_in_order _ h).2.1⟩

/-- **Neighbours beyond `2 ^ 53` are not in order**: they compare equal, none of `<`, `==` and `>` holds between them,
    `sort` leaves them as they are, and `min` gives the greater one. -/
theorem rounded_integers_not_in_order :
    Value.compare (.int 9007199254740992) (.int 9007199254740993) = .ok .eq ∧
    (∀ op ∈ [BinOp.lt, .eq, .gt],
      Value.binary op (.int 9007199254740992) (.int 9007199254740993) = .ok (.bool false)) ∧
    Builtin.sort [.list [.int 9007199254740993, .int 9007199254740992]] =
      .ok (.list [.int 9007199254740993, .int 9007199254740992]) ∧
    Builtin.extreme "min" .lt [.list [.int 9007199254740993, .int 9007199254740992]] =
      .ok (.int 9007199254740993) := by
  refine ⟨rfl, ?_, rfl, rfl⟩
  have heq : Value.binary .eq (.int 9007199254740992) (.int 9007199254740993) = .ok (.bool false) := by
    show Except.ok (Value.bool (Value.eqv _ _)) = _
    rw [Value.eqv]
    rfl
  simp only [List.forall_mem_cons, List.not_mem_nil, false_implies, implies_true, and_true]
  exact ⟨rfl, heq, rfl⟩

end Helios
