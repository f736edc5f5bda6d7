import Mathlib
import Helios.Builtin.Collections

/-!
# Indexing — what an index names

An index counts from the start, or from the end when it is negative (`Value.aim`). Two conventions follow. Where an item
is wanted, an index that leads outside is refused (`resolveIndex`); where a place between items is wanted, it is drawn
to the nearer end (`clampIndex`). All functions with one convention share one resolution, so they agree on the place:
each law below says how a sequence falls apart there, and every function is described by the parts.

Both kinds of sequences obey the same laws: lists count items and texts count characters. The arithmetic is that
of unbounded integers, which agrees with that of 64 bits as long as a length fits.
-/

namespace Helios

namespace Value

/-! ## Two conventions -/

/-- **Where an index leads** in a sequence of `n` items; a negative one counts from the end. -/
def aim (i : Int64) (n : Nat) : Int := if i.toInt < 0 then i.toInt + n else i.toInt

/-- An index that leads to an item. -/
def InRange (i : Int64) (n : Nat) : Prop := -(n : Int) ≤ i.toInt ∧ i.toInt < n

/-- Where an index leads when what leads outside is drawn to the nearer end. -/
def clamped (i : Int64) (n : Nat) : Int := max 0 (min n (aim i n))

variable {i j k : Int64} {n p : Nat}

/-- In range is where the index leads into the sequence. -/
theorem inRange_iff_aim : InRange i n ↔ 0 ≤ aim i n ∧ aim i n < n := by
  unfold InRange aim
  split <;> omega

/-- Where an item is wanted, the place is where the index leads. -/
theorem place?_of_aim (h : aim i n = p) (hp : p < n) : place? i.toInt n = some p := by
  unfold place?
  unfold aim at h
  dsimp only
  rw [h, if_pos ⟨Int.natCast_nonneg p, Int.ofNat_lt.mpr hp⟩, Int.toNat_natCast]

/-- And there is none where it leads outside. -/
theorem place?_of_not_inRange (h : ¬ InRange i n) : place? i.toInt n = none := by
  rw [inRange_iff_aim] at h
  exact if_neg h

theorem resolveIndex_of_aim (h : aim i n = p) (hp : p < n) : resolveIndex i n = .ok p := by
  unfold resolveIndex
  rw [place?_of_aim h hp]

theorem resolveIndex_of_not_inRange (h : ¬ InRange i n) :
    resolveIndex i n = .error (.value (.indexOutOfRange i.toInt n)) := by
  unfold resolveIndex
  rw [place?_of_not_inRange h]

/-- Where a place between items is wanted, it is drawn to the nearer end. -/
theorem clampIndex_eq (i : Int64) (n : Nat) : (Builtin.clampIndex i n : Int) = clamped i n := by
  unfold Builtin.clampIndex clamped aim
  split <;> omega

theorem clampIndex_le (i : Int64) (n : Nat) : Builtin.clampIndex i n ≤ n := by
  unfold Builtin.clampIndex
  split <;> omega

/-- A sequence falls apart at the item that an index names. -/
theorem exists_of_inRange {α : Type} {items : List α} (h : InRange i items.length) :
    ∃ front a back, items = front ++ a :: back ∧ (front.length : Int) = aim i items.length := by
  obtain ⟨hlow, hhigh⟩ := inRange_iff_aim.mp h
  have hp : (aim i items.length).toNat < items.length := by omega
  refine ⟨items.take (aim i items.length).toNat, items[(aim i items.length).toNat],
    items.drop ((aim i items.length).toNat + 1), ?_, ?_⟩
  · rw [List.cons_getElem_drop_succ, List.take_append_drop]
  · rw [List.length_take]
    omega

/-- The item that stands after `front` items. -/
theorem itemAt_append {α : Type} (front : List α) (a : α) (back : List α) :
    itemAt (front ++ a :: back) front.length = .ok a := by
  unfold itemAt
  rw [List.getElem?_append_right le_rfl, Nat.sub_self]
  rfl

/-! ## Items of a list -/

/-- **An index that names one item of a list**, `v` between `front` and `back`, for all that take an index: it is read,
    changed and taken out there, and what is changed can be read back. -/
structure Names (i : Int64) (front : List Value) (v : Value) (back : List Value) : Prop where
  index : index (list (front ++ v :: back)) (int i) = .ok v
  get (default : Option Value) : Builtin.get ([list (front ++ v :: back), int i] ++ default.toList) = .ok v
  set (w : Value) : Builtin.set [list (front ++ v :: back), int i, w] = .ok (list (front ++ w :: back))
  index_set (w : Value) : Value.index (list (front ++ w :: back)) (int i) = .ok w
  pop : Builtin.pop [list (front ++ v :: back), int i] = .ok (list (front ++ back))

/-- **An index that names no item of a list**, for all that take an index. -/
structure NamesNone (i : Int64) (items : List Value) : Prop where
  index : ∃ issue, index (list items) (int i) = .error (.value issue)
  get (default : Option Value) : Builtin.get ([list items, int i] ++ default.toList) = .ok (default.getD nil)
  set (w : Value) : ∃ issue, Builtin.set [list items, int i, w] = .error (.value issue)
  pop : ∃ issue, Builtin.pop [list items, int i] = .error (.value issue)

theorem index_list (items : List Value) (i : Int64) :
    Value.index (list items) (int i) = (resolveIndex i items.length >>= fun p => itemAt items p) := rfl

theorem get_list (items : List Value) (i : Int64) (default : Option Value) :
    Builtin.get ([list items, int i] ++ default.toList) =
      match place? i.toInt items.length with
      | some p => itemAt items p
      | none => pure (default.getD nil) := by
  cases default <;> rfl

theorem set_list (items : List Value) (i : Int64) (w : Value) : Builtin.set [list items, int i, w] =
    (resolveIndex i items.length >>= fun p => pure (list (items.set p w))) := by
  rfl

theorem pop_list (items : List Value) (i : Int64) : Builtin.pop [list items, int i] =
    if items.isEmpty then .error (.value (.fromEmptyList "pop"))
    else resolveIndex i items.length >>= fun p => pure (list (items.eraseIdx p)) := by
  rfl

/-- **An index that leads to `v` names `v` for every function.** -/
theorem names_of_aim {front back : List Value} (v : Value)
    (h : aim i (front.length + 1 + back.length) = front.length) : Names i front v back := by
  have hlength : ∀ w : Value, (front ++ w :: back).length = front.length + 1 + back.length := by
    intro w
    rw [List.length_append, List.length_cons]
    omega
  have hresolve : ∀ w : Value, resolveIndex i (front ++ w :: back).length = .ok front.length := by
    intro w
    rw [hlength]
    exact resolveIndex_of_aim h (by omega)
  have hread : ∀ w : Value, Value.index (list (front ++ w :: back)) (int i) = .ok w := by
    intro w
    rw [index_list, hresolve]
    exact itemAt_append front w back
  refine ⟨hread v, fun default => ?_, fun w => ?_, hread, ?_⟩
  · rw [get_list, hlength, place?_of_aim h (by omega)]
    exact itemAt_append front v back
  · rw [set_list, hresolve]
    show Except.ok (list ((front ++ v :: back).set front.length w)) = _
    rw [List.set_append_right _ _ le_rfl, Nat.sub_self]
    rfl
  · rw [pop_list, if_neg (by simp), hresolve]
    show Except.ok (list ((front ++ v :: back).eraseIdx front.length)) = _
    rw [List.eraseIdx_append_of_length_le le_rfl, Nat.sub_self]
    rfl

/-- **An index that leads outside names nothing for any function.** -/
theorem namesNone_of_not_inRange {items : List Value} (h : ¬ InRange i items.length) : NamesNone i items := by
  have hresolve := resolveIndex_of_not_inRange h
  refine ⟨⟨_, by rw [index_list, hresolve]; rfl⟩, fun default => ?_, fun w => ⟨_, by rw [set_list, hresolve]; rfl⟩, ?_⟩
  · rw [get_list, place?_of_not_inRange h]
    rfl
  · rw [pop_list]
    split
    · exact ⟨_, rfl⟩
    · exact ⟨_, by rw [hresolve]; rfl⟩

/-! ## Slices -/

theorem itemsBetween_take {α : Type} {items : List α} (hp : p ≤ items.length) :
    itemsBetween items 0 p = .ok (items.take p) := if_pos ⟨p.zero_le, hp⟩

theorem itemsBetween_drop {α : Type} {items : List α} (hp : p ≤ items.length) :
    itemsBetween items p items.length = .ok (items.drop p) := by
  unfold itemsBetween
  rw [if_pos ⟨hp, le_rfl⟩, List.take_length]

theorem clampIndex_zero (n : Nat) : Builtin.clampIndex 0 n = 0 := by
  have h := clampIndex_eq 0 n
  unfold clamped aim at h
  rw [Int64.toInt_zero, if_neg (Int.lt_irrefl 0)] at h
  omega

/-- Without a stop, to the end. -/
theorem sliceBounds_from (v : Value) (k : Int64) (n : Nat) :
    Builtin.sliceBounds [v, int k] n = .ok (Builtin.clampIndex k n, n) := by
  show Except.ok (Builtin.clampIndex k n, max n (Builtin.clampIndex k n)) = _
  rw [Nat.max_eq_left (clampIndex_le k n)]

/-- From the first on, up to a stop. -/
theorem sliceBounds_to (v : Value) (k : Int64) (n : Nat) :
    Builtin.sliceBounds [v, int 0, int k] n = .ok (0, Builtin.clampIndex k n) := by
  show Except.ok (Builtin.clampIndex 0 n, max (Builtin.clampIndex k n) (Builtin.clampIndex 0 n)) = _
  rw [clampIndex_zero, Nat.max_zero]

theorem slice_list (items rest : List Value) : Builtin.slice (list items :: rest) =
    (Builtin.sliceBounds (list items :: rest) items.length >>= fun bounds =>
      itemsBetween items bounds.1 bounds.2 >>= fun part => pure (list part)) := rfl

theorem slice_str (s : String) (rest : List Value) : Builtin.slice (str s :: rest) =
    (Builtin.sliceBounds (str s :: rest) s.toList.length >>= fun bounds =>
      itemsBetween s.toList bounds.1 bounds.2 >>= fun part => pure (ofChars part)) := rfl

/-- The second of the two parts of a list. -/
theorem slice_list_from (items : List Value) (k : Int64) :
    Builtin.slice [list items, int k] = .ok (list (items.drop (Builtin.clampIndex k items.length))) := by
  rw [slice_list, sliceBounds_from]
  show (itemsBetween items (Builtin.clampIndex k items.length) items.length >>= _) = _
  rw [itemsBetween_drop (clampIndex_le _ _)]
  rfl

/-- The first of the two parts of a list. -/
theorem slice_list_to (items : List Value) (k : Int64) :
    Builtin.slice [list items, int 0, int k] = .ok (list (items.take (Builtin.clampIndex k items.length))) := by
  rw [slice_list, sliceBounds_to]
  show (itemsBetween items 0 (Builtin.clampIndex k items.length) >>= _) = _
  rw [itemsBetween_take (clampIndex_le _ _)]
  rfl

/-- The second of the two parts of a text. -/
theorem slice_str_from (s : String) (k : Int64) :
    Builtin.slice [str s, int k] = .ok (ofChars (s.toList.drop (Builtin.clampIndex k s.toList.length))) := by
  rw [slice_str, sliceBounds_from]
  show (itemsBetween s.toList (Builtin.clampIndex k s.toList.length) s.toList.length >>= _) = _
  rw [itemsBetween_drop (clampIndex_le _ _)]
  rfl

/-- The first of the two parts of a text. -/
theorem slice_str_to (s : String) (k : Int64) :
    Builtin.slice [str s, int 0, int k] = .ok (ofChars (s.toList.take (Builtin.clampIndex k s.toList.length))) := by
  rw [slice_str, sliceBounds_to]
  show (itemsBetween s.toList 0 (Builtin.clampIndex k s.toList.length) >>= _) = _
  rw [itemsBetween_take (clampIndex_le _ _)]
  rfl

/-- `substr` without a count is `slice` without a stop. -/
theorem substr_from (s : String) (k : Int64) :
    Builtin.substr [str s, int k] = .ok (ofChars (s.toList.drop (Builtin.clampIndex k s.toList.length))) := by
  show (itemsBetween s.toList (Builtin.clampIndex k s.toList.length) s.toList.length >>= _) = _
  rw [itemsBetween_drop (clampIndex_le _ _)]
  rfl

/-- As many characters as there are, up to a count that is not negative. -/
theorem substr_count (s : String) (k m : Int64) : Builtin.substr [str s, int k, int m] =
    .ok (ofChars ((s.toList.drop (Builtin.clampIndex k s.toList.length)).take m.toInt.toNat)) := by
  have hle := clampIndex_le k s.toList.length
  show (itemsBetween s.toList (Builtin.clampIndex k s.toList.length)
    (min (Builtin.clampIndex k s.toList.length + m.toInt.toNat) s.toList.length) >>= _) = _
  unfold itemsBetween
  rw [if_pos (by omega), List.drop_take, List.take_eq_take_iff.mpr]
  · rfl
  · rw [List.length_drop]
    omega

/-- What is inserted stands between the two parts. -/
theorem insert_list (items : List Value) (i : Int64) (v : Value) : Builtin.insert [list items, int i, v] =
    .ok (list (items.take (Builtin.clampIndex i items.length) ++ v ::
      items.drop (Builtin.clampIndex i items.length))) := rfl

/-! ## Characters of a text -/

theorem index_str (s : String) (i : Int64) : Value.index (str s) (int i) =
    (resolveIndex i s.toList.length >>= fun p => itemAt s.toList p >>= fun c => pure (ofChars [c])) := rfl

/-- A loop over a text goes through its characters. -/
theorem iterate_str (s : String) : iterate (str s) = .ok (s.toList.map fun c => ofChars [c]) := rfl

/-! ## The laws -/

/-- **The laws of indices for lists.** -/
structure IndexedList (xs : List Value) : Prop where
  /-- An index cuts a list in two where it leads. -/
  slices (k : Int64) : ∃ front back, xs = front ++ back ∧ (front.length : Int) = clamped k xs.length ∧
    Builtin.slice [list xs, int 0, int k] = .ok (list front) ∧ Builtin.slice [list xs, int k] = .ok (list back)
  /-- What is inserted stands where the index leads, and taking it out there undoes it. -/
  inserted (i : Int64) (v : Value) : ∃ front back, xs = front ++ back ∧
    (front.length : Int) = clamped i xs.length ∧
    Builtin.insert [list xs, int i, v] = .ok (list (front ++ v :: back)) ∧
    ∀ j : Int64, aim j (xs.length + 1) = front.length →
      Value.index (list (front ++ v :: back)) (int j) = .ok v ∧
      Builtin.pop [list (front ++ v :: back), int j] = .ok (list xs)
  /-- An index in range names one item for all functions. -/
  names (i : Int64) (h : InRange i xs.length) : ∃ front v back, xs = front ++ v :: back ∧
    (front.length : Int) = aim i xs.length ∧ Names i front v back
  /-- An index out of range names none for all functions. -/
  namesNone (i : Int64) (h : ¬ InRange i xs.length) : NamesNone i xs

/-- **The laws of indices for texts**, which count characters. -/
structure IndexedText (s : String) : Prop where
  /-- An index cuts a text in two where it leads; `substr` gives the second part, or the front of it. -/
  slices (k : Int64) : ∃ front back : String, s = front ++ back ∧ (front.length : Int) = clamped k s.length ∧
    Builtin.slice [str s, int 0, int k] = .ok (str front) ∧ Builtin.slice [str s, int k] = .ok (str back) ∧
    Builtin.substr [str s, int k] = .ok (str back) ∧
    ∀ m : Int64, Builtin.substr [str s, int k, int m] = .ok (ofChars (back.toList.take (max m.toInt 0).toNat))
  /-- An index in range names one character. -/
  names (i : Int64) (h : InRange i s.length) : ∃ front c back, s.toList = front ++ c :: back ∧
    (front.length : Int) = aim i s.length ∧ Value.index (str s) (int i) = .ok (ofChars [c])
  /-- An index out of range names none. -/
  namesNone (i : Int64) (h : ¬ InRange i s.length) : ∃ issue, Value.index (str s) (int i) = .error (.value issue)
  /-- A loop over a text goes through what the indices from zero on name. -/
  iterates : ∃ items, iterate (str s) = .ok items ∧ Builtin.len [str s] = .ok (ofNat items.length) ∧
    items.length = s.length ∧
    ∀ (p : Nat) (v : Value), items[p]? = some v → ∀ i : Int64, i.toInt = p → Value.index (str s) (int i) = .ok v

/-- Lists, from the two conventions. -/
theorem indexedList (xs : List Value) : IndexedList xs where
  slices k := by
    refine ⟨_, _, (List.take_append_drop (Builtin.clampIndex k xs.length) xs).symm, ?_, slice_list_to xs k,
      slice_list_from xs k⟩
    rw [List.length_take_of_le (clampIndex_le _ _), clampIndex_eq]
  inserted i v := by
    have hlength := List.length_take_of_le (clampIndex_le i xs.length)
    refine ⟨_, _, (List.take_append_drop (Builtin.clampIndex i xs.length) xs).symm, ?_, insert_list xs i v,
      fun j hj => ?_⟩
    · rw [hlength, clampIndex_eq]
    · have hnames : Names j (xs.take (Builtin.clampIndex i xs.length)) v (xs.drop (Builtin.clampIndex i xs.length)) := by
        refine names_of_aim v ?_
        have hle := clampIndex_le i xs.length
        rw [← hj, hlength, List.length_drop]
        congr 1
        omega
      refine ⟨hnames.index, ?_⟩
      have hpop := hnames.pop
      rwa [List.take_append_drop] at hpop
  names i h := by
    obtain ⟨front, v, back, rfl, hplace⟩ := exists_of_inRange h
    refine ⟨front, v, back, rfl, hplace, names_of_aim v ?_⟩
    rw [hplace, List.length_append, List.length_cons, Nat.add_right_comm, Nat.add_assoc]
  namesNone i h := namesNone_of_not_inRange h

/-- Texts, from the same two conventions for their characters. -/
theorem indexedText (s : String) : IndexedText s where
  slices k := by
    have hlength := List.length_take_of_le (clampIndex_le k s.toList.length)
    refine ⟨String.ofList (s.toList.take (Builtin.clampIndex k s.toList.length)),
      String.ofList (s.toList.drop (Builtin.clampIndex k s.toList.length)), ?_, ?_, slice_str_to s k, slice_str_from s k,
      substr_from s k, fun m => ?_⟩
    · rw [← String.ofList_append, List.take_append_drop, String.ofList_toList]
    · rw [String.length_ofList, hlength, clampIndex_eq, String.length_toList]
    · rw [substr_count, String.toList_ofList, show m.toInt.toNat = (max m.toInt 0).toNat by omega]
  names i h := by
    rw [← String.length_toList] at h ⊢
    obtain ⟨front, c, back, heq, hplace⟩ := exists_of_inRange h
    refine ⟨front, c, back, heq, hplace, ?_⟩
    have hlt : front.length < s.toList.length := by
      rw [heq, List.length_append, List.length_cons]
      omega
    rw [index_str, resolveIndex_of_aim hplace.symm hlt, heq]
    show (itemAt (front ++ c :: back) front.length >>= _) = _
    rw [itemAt_append]
    rfl
  namesNone i h := by
    rw [← String.length_toList] at h
    exact ⟨_, by rw [index_str, resolveIndex_of_not_inRange h]; rfl⟩
  iterates := by
    refine ⟨_, iterate_str s, ?_, ?_, fun p v hp i hi => ?_⟩
    · rw [List.length_map, String.length_toList]
      rfl
    · rw [List.length_map, String.length_toList]
    · rw [List.getElem?_map, Option.map_eq_some_iff] at hp
      obtain ⟨c, hc, rfl⟩ := hp
      have hlt : p < s.toList.length := (List.getElem?_eq_some_iff.mp hc).1
      have haim : aim i s.toList.length = p := by
        unfold aim
        rw [if_neg (by omega), hi]
      rw [index_str, resolveIndex_of_aim haim hlt]
      show (itemAt s.toList p >>= _) = _
      unfold itemAt
      rw [hc]
      rfl

/-- **Lists and texts obey the laws of indices**, for every index. -/
theorem indices_agree (xs : List Value) (s : String) : IndexedList xs ∧ IndexedText s :=
  ⟨indexedList xs, indexedText s⟩

/-- The least and the greatest index, and characters of several bytes. -/
example : Builtin.slice [list [int 1, int 2], int Int64.minValue, int Int64.maxValue] = .ok (list [int 1, int 2]) ∧
    Builtin.substr [str "déjà", int (-3), int Int64.maxValue] = .ok (str "éjà") := ⟨rfl, rfl⟩

end Value

end Helios
