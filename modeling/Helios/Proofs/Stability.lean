import Helios.Proofs.Sorting

/-!
# Stability — sorting, extremes and comparison agree

Two values can be compared when both are texts or both are numbers, and so it is enough to compare each item of a list
with the first (`comparableWith_cases`). Texts, and numbers without NaN, are compared as their ranks in a linear order:
a text is its own rank (`ranked_texts`), and a number ranks by the float it is or becomes (`ranked_numbers`). Floats have
ranks because their parts do: the class comes first, then the exponent, then the significand (`compareFloats_rank`).

Sorting keeps the items of one rank in the order they had (`sorted_filter_rank`). So the first item of the sorted
list is the first of least rank in the list itself, which is what a scan for the least arrives at
(`extremeOf_first`); the scan for the greatest arrives at the first of greatest rank, and the sorted list ends with the
last.
-/

namespace Helios

/-! ## The order of floats -/

namespace Decimal

open Float.Model (UnpackedFloat)

/-- **Where the parts of a float stand in the order of floats.** The class decides first; two finite floats of one
    sign are told apart by exponent and significand, which count backwards below zero. -/
def rankOfParts : UnpackedFloat → Int ×ₗ Int ×ₗ Int
  | .infinity .negative => toLex (-2, toLex (0, 0))
  | .finite .negative m e _ => toLex (-1, toLex (-e, -m))
  | .zero _ | .notANumber => toLex (0, toLex (0, 0))
  | .finite .positive m e _ => toLex (1, toLex (e, m))
  | .infinity .positive => toLex (2, toLex (0, 0))

/-- The rank of a float. -/
def rank (x : Float) : Int ×ₗ Int ×ₗ Int := rankOfParts x.toModel.unpack

theorem compare_toLex {α β : Type} [LinearOrder α] [LinearOrder β] (a c : α) (b d : β) :
    compare (toLex (a, b)) (toLex (c, d)) = (compare a c).then (compare b d) := by
  rw [Prod.Lex.compare_def]
  rfl

theorem compare_rankOfParts {f g : UnpackedFloat} (hf : f.isNaN = false) (hg : g.isNaN = false) :
    f.compare g = some (compare (rankOfParts f) (rankOfParts g)) := by
  have hfinite : ∀ (m n : Nat) (d e : Int), (compare (-d) (-e)).then (compare (-(m : Int)) (-n)) =
      ((compare d e).then (compare m n)).swap := by
    intro m n d e
    rw [compare_neg, compare_neg, compare_natCast, Ordering.swap_then]
  cases f with
  | notANumber => nomatch hf
  | infinity s =>
    cases g with
    | notANumber => nomatch hg
    | infinity t => cases s <;> cases t <;> rfl
    | zero t => cases s <;> rfl
    | finite t n e hn => cases s <;> cases t <;> rfl
  | zero s =>
    cases g with
    | notANumber => nomatch hg
    | infinity t => cases t <;> rfl
    | zero t => rfl
    | finite t n e hn => cases t <;> rfl
  | finite s m d hm =>
    cases g with
    | notANumber => nomatch hg
    | infinity t => cases s <;> cases t <;> rfl
    | zero t => cases s <;> rfl
    | finite t n e hn =>
      cases s <;> cases t
      · simp [rankOfParts, compare_toLex, UnpackedFloat.compare, hfinite]
      · rfl
      · rfl
      · simp [rankOfParts, compare_toLex, UnpackedFloat.compare, compare_natCast]

/-- **Floats other than NaN are compared as their ranks.** -/
theorem compareFloats_rank {x y : Float} (hx : x.isNaN = false) (hy : y.isNaN = false) :
    Value.compareFloats x y = compare (rank x) (rank y) := by
  have hlt : ∀ {x y : Float}, x.isNaN = false → y.isNaN = false → (x < y ↔ rank x < rank y) := by
    intro x y hx hy
    rw [float_lt_iff, compare_rankOfParts hx hy, Option.some_inj]
    exact compare_lt_iff_lt
  unfold Value.compareFloats
  rcases lt_trichotomy (rank x) (rank y) with h | h | h
  · rw [if_pos ((hlt hx hy).mpr h), compare_lt_iff_lt.mpr h]
  · rw [if_neg (mt (hlt hx hy).mp h.not_lt), if_neg (mt (hlt hy hx).mp h.not_gt), compare_eq_iff_eq.mpr h]
  · rw [if_neg (mt (hlt hx hy).mp h.not_gt), if_pos ((hlt hy hx).mpr h), compare_gt_iff_gt.mpr h]

/-- An integer never becomes a NaN. -/
theorem isNaN_floatOfInt (n : Int64) : (floatOfInt n).isNaN = false := by
  obtain ⟨s, v, hparts, -, -⟩ := unpack_floatOfInt n
  show (floatOfInt n).toModel.unpack.isNaN = false
  rw [hparts]
  unfold parts
  split <;> rfl

end Decimal

/-! ## What can be compared -/

namespace Value

/-- A text. -/
def isText : Value → Bool
  | str _ => true
  | _ => false

theorem isText_iff {v : Value} : v.isText = true ↔ ∃ s, v = str s := by
  cases v <;> simp [isText]

/-- A number that is not a NaN. -/
def isOrdered : Value → Bool
  | int _ => true
  | float x => !x.isNaN
  | _ => false

/-- **Values that can be compared.** -/
def Comparable (v w : Value) : Prop := ∃ o, compare v w = .ok o

/-- **Values that compare equal.** -/
def ties (v w : Value) : Bool :=
  match compare v w with
  | .ok .eq => true
  | _ => false

/-- The characters of a text, none for a value of another type. -/
def asText : Value → String
  | str s => s
  | _ => ""

/-- Two texts are compared as texts, and anything else as floats. -/
theorem compare_eq (v w : Value) : compare v w =
    if v.isText = true ∧ w.isText = true then .ok (Ord.compare v.asText w.asText)
    else match v.asFloat?, w.asFloat? with
      | some x, some y => .ok (compareFloats x y)
      | _, _ => .error (.type (.compare v.typeName w.typeName)) := by
  cases v <;> cases w <;> rfl

theorem isNumber_eq (v : Value) : v.isNumber = v.asFloat?.isSome := by
  cases v <;> rfl

/-- **Two texts can be compared, and two numbers**, but nothing else. -/
theorem comparable_iff (v w : Value) :
    Comparable v w ↔ v.isText = true ∧ w.isText = true ∨ v.isNumber = true ∧ w.isNumber = true := by
  unfold Comparable
  rw [compare_eq, isNumber_eq, isNumber_eq]
  by_cases htexts : v.isText = true ∧ w.isText = true
  · rw [if_pos htexts]
    exact iff_of_true ⟨_, rfl⟩ (.inl htexts)
  · rw [if_neg htexts, or_iff_right htexts]
    cases v.asFloat? <;> cases w.asFloat? <;> simp

theorem Comparable.symm {v w : Value} (h : Comparable v w) : Comparable w v := by
  rw [comparable_iff] at h ⊢
  exact h.imp And.symm And.symm

theorem isNumber_of_isText {v : Value} (h : v.isText = true) : v.isNumber = false := by
  obtain ⟨s, rfl⟩ := isText_iff.mp h
  rfl

theorem Comparable.trans {u v w : Value} (h : Comparable u v) (h' : Comparable v w) : Comparable u w := by
  rw [comparable_iff] at *
  rcases h with ⟨hu, hv⟩ | ⟨hu, hv⟩ <;> rcases h' with ⟨hv', hw⟩ | ⟨hv', hw⟩
  · exact .inl ⟨hu, hw⟩
  · nomatch (isNumber_of_isText hv).symm.trans hv'
  · nomatch (isNumber_of_isText hv').symm.trans hv
  · exact .inr ⟨hu, hw⟩

/-- The only failure of a comparison is that the types do not match. -/
theorem compare_of_not_comparable {v w : Value} (h : ¬ Comparable v w) :
    ∃ issue, compare v w = .error (.type issue) := by
  unfold Comparable at h
  rw [compare_eq] at h ⊢
  split at h
  · exact absurd ⟨_, rfl⟩ h
  · rename_i htexts
    rw [if_neg htexts]
    split at h
    · exact absurd ⟨_, rfl⟩ h
    · exact ⟨_, rfl⟩

/-! ## Ranks of values -/

/-- The float that a number is or becomes, zero for a value of another type. -/
def asNumber (v : Value) : Float := v.asFloat?.getD 0.0

theorem ranked_texts {vs : List Value} (h : ∀ v ∈ vs, v.isText = true) : Ranked asText vs := by
  intro v hv w hw
  obtain ⟨s, rfl⟩ := isText_iff.mp (h v hv)
  obtain ⟨t, rfl⟩ := isText_iff.mp (h w hw)
  rfl

theorem asFloat?_of_isOrdered {v : Value} (h : v.isOrdered = true) :
    v.asFloat? = some v.asNumber ∧ v.asNumber.isNaN = false := by
  cases v with
  | int n => exact ⟨rfl, Decimal.isNaN_floatOfInt n⟩
  | float x => exact ⟨rfl, by rwa [isOrdered, Bool.not_eq_true'] at h⟩
  | _ => nomatch h

theorem ranked_numbers {vs : List Value} (h : ∀ v ∈ vs, v.isOrdered = true) :
    Ranked (fun v => Decimal.rank v.asNumber) vs := by
  intro v hv w hw
  obtain ⟨hx, hxn⟩ := asFloat?_of_isOrdered (h v hv)
  obtain ⟨hy, hyn⟩ := asFloat?_of_isOrdered (h w hw)
  rw [← Decimal.compareFloats_rank hxn hyn]
  have hv := h v hv
  cases v with
  | int n => simp only [compare, hx, hy]
  | float x => simp only [compare, hx, hy]
  | _ => nomatch hv

variable {K : Type} [LinearOrder K] {rank : Value → K} {v w : Value} {vs : List Value}

theorem Ranked.subset {ws : List Value} (h : Ranked rank vs) (hsub : ws ⊆ vs) : Ranked rank ws :=
  fun v hv w hw => h v (hsub hv) w (hsub hw)

/-- Ranked values compare equal when their ranks are equal. -/
theorem Ranked.ties_eq (h : Ranked rank vs) (hv : v ∈ vs) (hw : w ∈ vs) : ties v w = decide (rank w = rank v) := by
  unfold ties
  rw [h v hv w hw]
  cases hc : Ord.compare (rank v) (rank w) with
  | lt => exact (decide_eq_false (compare_lt_iff_lt.mp hc).ne').symm
  | eq => exact (decide_eq_true (compare_eq_iff_eq.mp hc).symm).symm
  | gt => exact (decide_eq_false (compare_gt_iff_gt.mp hc).ne).symm

end Value

namespace Builtin

open Value (Comparable Ranked ties)

variable {K : Type} [LinearOrder K] {rank : Value → K} {v : Value} {vs : List Value}

/-! ## When sorting fails -/

/-- The check compares one value with all others, up to the first that it cannot be compared with. -/
theorem comparableWith_cases (v : Value) (ws : List Value) :
    (∀ w ∈ ws, Comparable v w) ∧ comparableWith v ws = .ok () ∨
      (∃ w ∈ ws, ¬ Comparable v w) ∧ ∃ issue, comparableWith v ws = .error (.type issue) := by
  induction ws with
  | nil => exact .inl ⟨by simp, rfl⟩
  | cons w rest ih =>
    unfold comparableWith
    by_cases hw : Comparable v w
    · obtain ⟨o, ho⟩ := hw
      rw [ho]
      rcases ih with ⟨hall, heq⟩ | ⟨⟨w', hw', hne⟩, heq⟩
      · exact .inl ⟨List.forall_mem_cons.mpr ⟨⟨o, ho⟩, hall⟩, heq⟩
      · exact .inr ⟨⟨w', List.mem_cons_of_mem w hw', hne⟩, heq⟩
    · obtain ⟨issue, hissue⟩ := Value.compare_of_not_comparable hw
      rw [hissue]
      exact .inr ⟨⟨w, List.mem_cons_self, hw⟩, issue, rfl⟩

/-- **Sorting fails exactly when some two items cannot be compared**, though only comparisons with the first item are
    tried: what can be compared with one value can be compared with each other. -/
theorem sort_cases (vs : List Value) :
    (∀ v ∈ vs, ∀ w ∈ vs, Comparable v w) ∧ sort [.list vs] = .ok (.list (sorted vs)) ∨
      (∃ v ∈ vs, ∃ w ∈ vs, ¬ Comparable v w) ∧ ∃ issue, sort [.list vs] = .error (.type issue) := by
  cases vs with
  | nil => exact .inl ⟨by simp, rfl⟩
  | cons first rest =>
    have hsort : sort [.list (first :: rest)] =
        (comparableWith first (first :: rest) >>= fun _ => pure (Value.list (sorted (first :: rest)))) := rfl
    rw [hsort]
    rcases comparableWith_cases first (first :: rest) with ⟨hall, heq⟩ | ⟨⟨w, hw, hne⟩, issue, heq⟩
    · refine .inl ⟨fun v hv w hw => ?_, by rw [heq]; rfl⟩
      exact (hall v hv).symm.trans (hall w hw)
    · refine .inr ⟨⟨first, List.mem_cons_self, w, hw, hne⟩, issue, by rw [heq]; rfl⟩

/-! ## Items of one rank -/

/-- An item goes past greater ones only, and so before all of its own rank. -/
theorem insertDescending_filter {made : List Value} (h : Ranked rank (v :: made)) (k : K) :
    (insertDescending v made).filter (fun w => decide (rank w = k)) =
      (v :: made).filter (fun w => decide (rank w = k)) := by
  induction made with
  | nil => rfl
  | cons w rest ih =>
    unfold insertDescending
    rw [comesBefore_ranked h (w := w) (by simp) (by simp)]
    split
    · rename_i hlt
      have hlt := of_decide_eq_true hlt
      have ih := ih (h.subset (by grind))
      rw [List.filter_cons, ih]
      simp only [List.filter_cons]
      grind
    · rfl

theorem foldl_insertDescending_filter {made : List Value} (h : Ranked rank (vs ++ made)) (k : K) :
    (vs.foldl (fun made v => insertDescending v made) made).filter (fun w => decide (rank w = k)) =
      (vs.reverse ++ made).filter (fun w => decide (rank w = k)) := by
  induction vs generalizing made with
  | nil => rfl
  | cons v rest ih =>
    have hperm := insertDescending_perm v made
    rw [List.foldl_cons, ih (h.subset fun w hw => ?_), List.filter_append,
      insertDescending_filter (h.subset (by grind)), ← List.filter_append, List.reverse_cons, List.append_assoc]
    · rfl
    · have := hperm.mem_iff (a := w)
      grind

/-- **Sorting keeps the items of one rank in their order.** -/
theorem sorted_filter_rank (h : Ranked rank vs) (k : K) :
    (sorted vs).filter (fun v => decide (rank v = k)) = vs.filter (fun v => decide (rank v = k)) := by
  unfold sorted
  split
  · rw [List.filter_reverse, foldl_insertDescending_filter (by rwa [List.append_nil]), List.append_nil,
      ← List.filter_reverse, List.reverse_reverse]
  · -- the items of one rank are in order already, and so they are left as they are
    rw [mergeSort_ranked h]
    have hclass : (vs.filter fun v => decide (rank v = k)).Pairwise fun a b => decide (rank a ≤ rank b) = true := by
      refine List.pairwise_of_forall_mem_list fun a ha b hb => ?_
      have ha := of_decide_eq_true (List.mem_filter.mp ha).2
      have hb := of_decide_eq_true (List.mem_filter.mp hb).2
      exact decide_eq_true (ha.trans hb.symm).le
    have hsub := (List.sublist_mergeSort rank_le_trans rank_le_total hclass List.filter_sublist).filter
      fun v => decide (rank v = k)
    rw [List.filter_filter] at hsub
    simp only [Bool.and_self] at hsub
    have hlength := ((List.mergeSort_perm vs fun a b => decide (rank a ≤ rank b)).filter
      fun v => decide (rank v = k)).length_eq
    exact (hsub.eq_of_length hlength.symm).symm

/-! ## Extremes -/

theorem eq_of_compare_ne {wanted : Ordering} (hwanted : wanted ≠ .eq) {a b : K}
    (hab : Ord.compare a b ≠ wanted) (hba : Ord.compare b a ≠ wanted) : a = b := by
  cases wanted with
  | lt => exact le_antisymm (not_lt.mp (mt compare_lt_iff_lt.mpr hba)) (not_lt.mp (mt compare_lt_iff_lt.mpr hab))
  | eq => exact absurd rfl hwanted
  | gt => exact le_antisymm (not_lt.mp (mt compare_gt_iff_gt.mpr hab)) (not_lt.mp (mt compare_gt_iff_gt.mpr hba))

/-- **The scan for an extreme arrives at the first item of the extreme's rank.** -/
theorem extremeOf_first {wanted : Ordering} (hwanted : wanted ≠ .eq) {best y : Value} (h : Ranked rank (best :: vs))
    (hy : extremeOf wanted best vs = .ok y) : (best :: vs).find? (fun v => decide (rank v = rank y)) = some y := by
  induction vs generalizing best with
  | nil =>
    cases hy
    simp
  | cons w rest ih =>
    obtain ⟨z, -, hz, hall⟩ := extremeOf_ranked hwanted h
    obtain rfl : z = y := Except.ok.inj (hz.symm.trans hy)
    have hbest := hall best (by simp)
    unfold extremeOf at hy
    rw [h w (by simp) best (by simp)] at hy
    change extremeOf wanted (if Ord.compare (rank w) (rank best) == wanted then w else best) rest = _ at hy
    by_cases hc : Ord.compare (rank w) (rank best) = wanted
    · -- the item that was best so far is of another rank than what replaces it
      rw [if_pos (beq_iff_eq.mpr hc)] at hy
      have hne : ¬ rank best = rank z := fun heq => hall w (by simp) (heq ▸ hc)
      rw [List.find?_cons_of_neg (by simpa using hne)]
      exact ih (h.subset (by grind)) hy
    · rw [if_neg (mt beq_iff_eq.mp hc)] at hy
      have hfind := ih (h.subset (by grind)) hy
      by_cases heq : rank best = rank z
      · rw [List.find?_cons_of_pos (by simpa using heq)] at hfind ⊢
        exact hfind
      · have hne : ¬ rank w = rank z := fun hw => heq (eq_of_compare_ne hwanted hbest (hw ▸ hc))
        rw [List.find?_cons_of_neg (by simpa using heq)] at hfind ⊢
        rw [List.find?_cons_of_neg (by simpa using hne)]
        exact hfind

theorem extreme_first {wanted : Ordering} (hwanted : wanted ≠ .eq) (name : String) (h : Ranked rank vs) {y : Value}
    (hy : extreme name wanted [.list vs] = .ok y) : vs.find? (fun v => decide (rank v = rank y)) = some y := by
  cases vs with
  | nil => nomatch hy
  | cons best rest => exact extremeOf_first hwanted h hy

/-! ## Sorting and extremes together -/

/-- **A list is sorted to another**: the same items, ascending, those that compare equal in the order they had; and the
    extremes are found where sorting puts them. -/
structure SortedTo (xs ys : List Value) : Prop where
  sort : sort [.list xs] = .ok (.list ys)
  perm : ys.Perm xs
  ascending : ys.Pairwise fun v w => ∃ o, Value.compare v w = .ok o ∧ o ≠ .gt
  stable (v : Value) (hv : v ∈ xs) : ys.filter (ties v) = xs.filter (ties v)
  /-- `min` is the first of the sorted items. -/
  min (hne : xs ≠ []) : ∃ y, ys.head? = some y ∧ extreme "min" .lt [.list xs] = .ok y
  /-- `max` is the first item that compares equal to the last of the sorted items. -/
  max (hne : xs ≠ []) : ∃ z y, ys.getLast? = some z ∧ xs.find? (ties z) = some y ∧
    extreme "max" .gt [.list xs] = .ok y

theorem sorted_compare (h : Ranked rank vs) :
    (sorted vs).Pairwise fun v w => ∃ o, Value.compare v w = .ok o ∧ o ≠ .gt := by
  have hperm := sorted_perm vs
  refine (sorted_ascending h).imp_of_mem fun {v w} hv hw hle => ?_
  refine ⟨_, h v (hperm.mem_iff.mp hv) w (hperm.mem_iff.mp hw), fun hgt => ?_⟩
  exact (compare_gt_iff_gt.mp hgt).not_ge hle

theorem sorted_filter_ties (h : Ranked rank vs) (hv : v ∈ vs) : (sorted vs).filter (ties v) = vs.filter (ties v) := by
  have hties : ∀ w ∈ vs, ties v w = decide (rank w = rank v) := fun w hw => h.ties_eq hv hw
  rw [List.filter_congr hties, List.filter_congr fun w hw => hties w ((sorted_perm vs).mem_iff.mp hw)]
  exact sorted_filter_rank h _

/-- **`min` gives the first of the sorted items.** -/
theorem min_eq_head (h : Ranked rank vs) (hne : vs ≠ []) :
    ∃ y, (sorted vs).head? = some y ∧ extreme "min" .lt [.list vs] = .ok y := by
  obtain ⟨y, hy, hmin, hleast⟩ := extreme_ranked (by decide : Ordering.lt ≠ .eq) "min" h hne
  refine ⟨y, ?_, hmin⟩
  have hfirst := extreme_first (by decide) "min" h hmin
  rw [← List.head?_filter, ← sorted_filter_rank h, List.head?_filter] at hfirst
  have hys : y ∈ sorted vs := (sorted_perm vs).mem_iff.mpr hy
  have hascending := sorted_ascending h
  have hnone : ∀ v ∈ sorted vs, ¬ rank v < rank y := fun v hv hlt =>
    hleast v ((sorted_perm vs).mem_iff.mp hv) (compare_lt_iff_lt.mpr hlt)
  generalize sorted vs = ys at hfirst hys hascending hnone
  cases ys with
  | nil => nomatch hys
  | cons z rest =>
    -- the first item is of the least rank, and so the first of that rank
    have hle : rank z ≤ rank y := by
      rcases List.mem_cons.mp hys with rfl | hys
      · exact le_rfl
      · exact (List.pairwise_cons.mp hascending).1 y hys
    have heq : rank z = rank y := le_antisymm hle (not_lt.mp (hnone z List.mem_cons_self))
    rwa [List.find?_cons_of_pos (by simpa using heq)] at hfirst

/-- **`max` gives the first item that compares equal to the last of the sorted items.** -/
theorem max_eq_find (h : Ranked rank vs) (hne : vs ≠ []) :
    ∃ z y, (sorted vs).getLast? = some z ∧ vs.find? (ties z) = some y ∧ extreme "max" .gt [.list vs] = .ok y := by
  obtain ⟨y, hy, hmax, hgreatest⟩ := extreme_ranked (by decide : Ordering.gt ≠ .eq) "max" h hne
  have hfirst := extreme_first (by decide) "max" h hmax
  have hperm := sorted_perm vs
  have hne' : sorted vs ≠ [] := fun hnil => by
    rw [hnil] at hperm
    exact hne hperm.nil_eq.symm
  have hlast : (sorted vs).getLast hne' ∈ vs := hperm.mem_iff.mp (List.getLast_mem hne')
  have hle : rank ((sorted vs).getLast hne') ≤ rank y := not_lt.mp fun hlt =>
    hgreatest _ hlast (compare_gt_iff_gt.mpr hlt)
  have hge : rank y ≤ rank ((sorted vs).getLast hne') :=
    (sorted_ascending h).rel_getLast_of_rel_getLast_getLast (hperm.mem_iff.mpr hy) le_rfl
  refine ⟨_, y, List.getLast?_eq_some_getLast hne', ?_, hmax⟩
  rw [List.find?_congr fun v hv => h.ties_eq hlast hv, le_antisymm hle hge]
  exact hfirst

theorem sortedTo_of_ranked (h : Ranked rank vs) : SortedTo vs (sorted vs) where
  sort := sort_ranked h
  perm := sorted_perm vs
  ascending := sorted_compare h
  stable _ hv := sorted_filter_ties h hv
  min := min_eq_head h
  max := max_eq_find h

/-- **Sorting and the extremes agree with comparison.** A list cannot be sorted exactly when some two of its items, an
    item with itself included, cannot be compared. Texts are sorted, and so are numbers that are not NaN. -/
theorem sort_agrees_with_compare (xs : List Value) :
    ((∃ issue, sort [.list xs] = .error (.type issue)) ↔ ∃ v ∈ xs, ∃ w ∈ xs, ¬ Comparable v w) ∧
    ((∀ v ∈ xs, v.isText = true) ∨ (∀ v ∈ xs, v.isOrdered = true) → ∃ ys, SortedTo xs ys) := by
  constructor
  · rcases sort_cases xs with ⟨hall, hsort⟩ | ⟨hpair, hsort⟩
    · rw [hsort]
      exact iff_of_false (fun ⟨_, h⟩ => nomatch h) fun ⟨v, hv, w, hw, h⟩ => h (hall v hv w hw)
    · exact iff_of_true hsort hpair
  · rintro (htexts | hnumbers)
    · exact ⟨_, sortedTo_of_ranked (Value.ranked_texts htexts)⟩
    · exact ⟨_, sortedTo_of_ranked (Value.ranked_numbers hnumbers)⟩

/-- Integers and floats that compare equal, and both zeros. -/
theorem sort_agrees_with_compare_mixed :
    (∀ v ∈ [Value.float 1.0, .int 1, .float (-0.0), .int 0], v.isOrdered = true) ∧
      ∃ ys, SortedTo [.float 1.0, .int 1, .float (-0.0), .int 0] ys := by
  have h : ∀ v ∈ [Value.float 1.0, .int 1, .float (-0.0), .int 0], v.isOrdered = true := by
    simp only [List.forall_mem_cons, List.not_mem_nil, false_implies, implies_true, and_true]
    decide
  exact ⟨h, (sort_agrees_with_compare _).2 (.inr h)⟩

end Builtin

end Helios
