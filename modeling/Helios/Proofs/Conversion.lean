import Mathlib.Data.List.Perm.Basic
import Helios.Proofs.Growth

/-!
# Conversion — the values that come back from the guest as they were

`Value.Portable` describes the values that a table of the guest can hold unchanged. `Stands` relates such a value
to what stands for it in a heap; heaps that grow keep it. Handing a portable value in gives what stands for it
(`toGuest_portable`), and taking that back gives the same value (`ofGuest_of_stands`), in which only the entries of
dicts may be in another order (`ofGuest_reordered`). Tables are made after what they hold, so the numbers in a table
are smaller than its own, and the fuel of the way back is enough. Plain data, whose dicts have names for keys, are
portable (`plain_data_comes_back`). `Value.isConvertible` tells the values that can be handed in at all
(`succeeds_toGuest_iff`).
-/

namespace Helios

/-! ## Values that a table can hold -/

/-- Whether two values are one key of a table. -/
def Value.clash : Value → Value → Bool
  | .bool a, .bool b => a == b
  | .int a, .int b => a == b
  | .float a, .float b => a == b
  | .str a, .str b => a == b
  | _, _ => false

/-- Whether a value stays the key that it is: a NaN is no key, and a float without fraction becomes an integer. -/
def Value.isStableKey : Value → Bool
  | .float x => !x.isNaN && (Guest.Val.wholeFloat? x).isNone
  | _ => true

theorem Value.isStableKey_float {x : Float} (h : (Value.float x).isStableKey = true) :
    x.isNaN = false ∧ Guest.Val.wholeFloat? x = none := by
  obtain ⟨hnan, hwhole⟩ := Bool.and_eq_true_iff.mp h
  exact ⟨Bool.not_eq_true' _ |>.mp hnan, Option.isNone_iff_eq_none.mp hwhole⟩

/-- **Values that come back as they were.** There is no `nil` and no function or object in them, keys stay what
    they are and apart, and the keys of a dict are not the places from 1 on, which would make it a list. -/
inductive Value.Portable : Value → Prop
  | bool (b : Bool) : Portable (.bool b)
  | int (n : Int64) : Portable (.int n)
  | float (x : Float) : Portable (.float x)
  | str (s : String) : Portable (.str s)
  | list {items : List Value} (h : ∀ v ∈ items, Portable v) : Portable (.list items)
  | dict {pairs : List (Value × Value)} (hkeys : ∀ e ∈ pairs, Portable e.1) (hvalues : ∀ e ∈ pairs, Portable e.2)
    (hstable : ∀ e ∈ pairs, e.1.isStableKey = true) (hclash : pairs.Pairwise fun a b => a.1.clash b.1 = false)
    (hplaces : ¬ ∀ e ∈ pairs, ∃ n : Nat, 0 < n ∧ n ≤ pairs.length ∧ e.1 = .int (Int64.ofNat n)) :
    Portable (.dict pairs)

theorem Value.sameItems_iff {as bs : List Value} :
    sameItems as bs = true ↔ List.Forall₂ (fun a b => same a b = true) as bs := by
  induction as generalizing bs with
  | nil => cases bs <;> simp [sameItems]
  | cons a as ih =>
    cases bs with
    | nil => simp [sameItems]
    | cons b bs =>
      rw [sameItems, List.forall₂_cons, ← ih]
      cases same a b <;> simp

theorem Value.sameEntriesIn_iff {as bs : List (Value × Value)} :
    sameEntriesIn as bs = true ↔ ∀ e ∈ as, ∃ e' ∈ bs, e.1.same e'.1 = true ∧ e.2.same e'.2 = true := by
  induction as with
  | nil => simp [sameEntriesIn]
  | cons e as ih =>
    obtain ⟨k, v⟩ := e
    rw [sameEntriesIn, List.forall_mem_cons, ← ih]
    simp

/-! ## Values in which only the order of entries differs -/

/-- **The same value but for the order of entries.** Numbers are the same to the bit, lists go item by item, and the
    entries of a dict, each as it was, may stand in another order. -/
inductive Value.Reordered : Value → Value → Prop
  | bool (b : Bool) : Reordered (.bool b) (.bool b)
  | int (n : Int64) : Reordered (.int n) (.int n)
  | float (x : Float) : Reordered (.float x) (.float x)
  | str (s : String) : Reordered (.str s) (.str s)
  | list {as bs : List Value} (length : as.length = bs.length) (items : ∀ p ∈ as.zip bs, Reordered p.1 p.2) :
    Reordered (.list as) (.list bs)
  | dict {as bs cs : List (Value × Value)} (length : as.length = cs.length)
    (keys : ∀ p ∈ as.zip cs, Reordered p.1.1 p.2.1) (values : ∀ p ∈ as.zip cs, Reordered p.1.2 p.2.2)
    (order : cs.Perm bs) : Reordered (.dict as) (.dict bs)

namespace Value.Reordered

theorem list_of_forall₂ {as bs : List Value} (h : List.Forall₂ Reordered as bs) : Reordered (.list as) (.list bs) :=
  have ⟨length, items⟩ := List.forall₂_iff_zip.mp h
  .list length fun _ hp => items hp

theorem dict_of_forall₂ {as bs cs : List (Value × Value)}
    (h : List.Forall₂ (fun e e' => Reordered e.1 e'.1 ∧ Reordered e.2 e'.2) as cs) (order : cs.Perm bs) :
    Reordered (.dict as) (.dict bs) :=
  have ⟨length, entries⟩ := List.forall₂_iff_zip.mp h
  .dict length (fun _ hp => (entries hp).1) (fun _ hp => (entries hp).2) order

/-- The order of entries plays no part in sameness. -/
theorem same {v v' : Value} (h : Reordered v v') : v.same v' = true := by
  induction h with
  | bool b => exact beq_self_eq_true b
  | int n => exact beq_self_eq_true n
  | float x =>
    show (x == x || x.toBits == x.toBits) = true
    rw [beq_self_eq_true x.toBits, Bool.or_true]
  | str s => exact beq_self_eq_true s
  | list length _ ih => exact sameItems_iff.mpr (List.forall₂_iff_zip.mpr ⟨length, fun hp => ih _ hp⟩)
  | @dict as bs cs length _ _ order ihk ihv =>
    refine Bool.and_eq_true_iff.mpr ⟨beq_iff_eq.mpr (length.trans order.length_eq), ?_⟩
    refine sameEntriesIn_iff.mpr fun e he => ?_
    obtain ⟨i, hi, rfl⟩ := List.mem_iff_getElem.mp he
    have hp : (as[i], cs[i]) ∈ as.zip cs := List.mem_iff_getElem.mpr ⟨i, by simp; omega, by simp⟩
    exact ⟨cs[i], order.mem_iff.mp (List.getElem_mem _), ihk _ hp, ihv _ hp⟩

end Value.Reordered

namespace Guest

theorem Val.ofString_inj {s t : String} (h : Val.ofString s = .ofString t) : s = t := by
  injection h with h
  rw [← Text.decode_toUTF8 s, h, Text.decode_toUTF8]

/-! ## What stands for a value -/

/-- **A value of the guest stands for a value** in a heap; tables in it have numbers below `b`. -/
inductive Stands (h : Heap) : Nat → Val → Value → Prop
  | bool {b : Nat} (x : Bool) : Stands h b (.bool x) (.bool x)
  | int {b : Nat} (n : Int64) : Stands h b (.int n) (.int n)
  | float {b : Nat} (x : Float) : Stands h b (.float x) (.float x)
  | str {b : Nat} (s : String) : Stands h b (.ofString s) (.str s)
  | list {b id : Nat} {items : List (Val × Value)} (hb : id < b) (hid : id < h.tables.size)
    (ht : (h.table id).entries = Table.placed 1 (items.map Prod.fst)) (hitems : ∀ i ∈ items, Stands h id i.1 i.2) :
    Stands h b (.table id) (.list (items.map Prod.snd))
  | dict {b id : Nat} {entries : List ((Val × Value) × (Val × Value))} (hb : id < b) (hid : id < h.tables.size)
    (ht : (h.table id).entries = entries.map fun i => (i.1.1, i.2.1))
    (hkeys : ∀ i ∈ entries, Stands h id i.1.1 i.1.2) (hvalues : ∀ i ∈ entries, Stands h id i.2.1 i.2.2)
    (hstable : ∀ i ∈ entries, i.1.2.isStableKey = true)
    (hplaces : ¬ ∀ i ∈ entries, ∃ n : Nat, 0 < n ∧ n ≤ entries.length ∧ i.1.2 = .int (Int64.ofNat n)) :
    Stands h b (.table id) (.dict (entries.map fun i => (i.1.2, i.2.2)))

namespace Stands

variable {h h' : Heap} {b b' : Nat} {g : Val} {v : Value}

theorem mono (hs : Stands h b g v) (hb : b ≤ b') : Stands h b' g v := by
  cases hs with
  | bool x => exact .bool x
  | int n => exact .int n
  | float x => exact .float x
  | str s => exact .str s
  | list hid hsize ht hitems => exact .list (Nat.lt_of_lt_of_le hid hb) hsize ht hitems
  | dict hid hsize ht hkeys hvalues hstable hplaces =>
    exact .dict (Nat.lt_of_lt_of_le hid hb) hsize ht hkeys hvalues hstable hplaces

/-- A heap that grows keeps what stands for a value. -/
theorem grows (hs : Stands h b g v) (hg : h.Grows h') : Stands h' b g v := by
  induction hs with
  | bool x => exact .bool x
  | int n => exact .int n
  | float x => exact .float x
  | str s => exact .str s
  | @list b id items hb hid ht _ ih =>
    have hid' : id < h'.tables.size := Nat.lt_of_lt_of_le hid hg.size_le
    rw [← hg.table_eq id hid] at ht
    exact .list hb hid' ht ih
  | @dict b id entries hb hid ht _ _ hstable hplaces ihk ihv =>
    have hid' : id < h'.tables.size := Nat.lt_of_lt_of_le hid hg.size_le
    rw [← hg.table_eq id hid] at ht
    exact .dict hb hid' ht ihk ihv hstable hplaces

theorem ne_nil (hs : Stands h b g v) : g ≠ .nil := by
  cases hs <;> nofun

/-- What stands for a key is a key as it is. -/
theorem toKey_eq (hs : Stands h b g v) (hstable : v.isStableKey = true) : g.toKey = g := by
  cases hs with
  | float x =>
    simp [Val.toKey, (Value.isStableKey_float hstable).2]
  | _ => rfl

theorem badKey?_eq (hs : Stands h b g v) (hstable : v.isStableKey = true) : Table.badKey? g = none := by
  cases hs with
  | float x =>
    show (if x.isNaN = true then _ else none) = none
    rw [(Value.isStableKey_float hstable).1]
    rfl
  | _ => rfl

/-- Only an integer stays a key that is equal to an integer. -/
theorem eq_int (hs : Stands h b g v) (hstable : v.isStableKey = true) {n : Int64} (hn : g.equal (.int n) = true) :
    v = .int n := by
  cases hs with
  | int m => exact congrArg Value.int (eq_of_beq hn)
  | float x =>
    rw [Val.equal, (Value.isStableKey_float hstable).2] at hn
    exact nomatch hn
  | _ => exact nomatch hn

/-- What stands for different keys is different; tables are, when one was made before the other. -/
theorem equal_eq_false {N : Nat} {g' : Val} {v' : Value} (hs : Stands h N g v) (hs' : Stands h' b' g' v')
    (hstable : v.isStableKey = true) (hstable' : v'.isStableKey = true) (hclash : v.clash v' = false)
    (hfresh : ∀ id, g' = .table id → N ≤ id) : g.equal g' = false := by
  cases hs with
  | bool x => cases hs' <;> exact hclash
  | int n =>
    cases hs' with
    | int n' => exact hclash
    | float x => simp [Val.equal, (Value.isStableKey_float hstable').2]
    | _ => rfl
  | float x =>
    cases hs' with
    | int n => simp [Val.equal, (Value.isStableKey_float hstable).2]
    | float x' => exact hclash
    | _ => rfl
  | str s =>
    cases hs' with
    | str s' =>
      have hne : s ≠ s' := by simpa [Value.clash] using hclash
      exact beq_eq_false_iff_ne.mpr fun hbytes => hne (Val.ofString_inj (congrArg Val.str hbytes))
    | _ => rfl
  | list hb =>
    cases hs' with
    | list | dict =>
      -- `g` stands for a list that was handed in before, so its table is one of the first `N`
      have := hfresh _ rfl
      exact beq_eq_false_iff_ne.mpr (by omega)
    | _ => rfl
  | dict hb =>
    cases hs' with
    | list | dict =>
      have := hfresh _ rfl
      exact beq_eq_false_iff_ne.mpr (by omega)
    | _ => rfl

end Stands

/-! ## Tables -/

/-- The keys in a row are its places. -/
theorem Layout.eq_of_inRow {l : Layout} {key : Val} (h : l.inRow key = true) :
    ∃ n : Nat, 0 < n ∧ n ≤ l.row ∧ key = .int (Int64.ofNat n) := by
  unfold inRow place? at h
  split at h
  · next m =>
    split at h
    · next hm =>
      have hpos : 0 < m.toInt := Int64.lt_iff_toInt_lt.mp hm
      refine ⟨m.toInt.toNat, by omega, of_decide_eq_true h, ?_⟩
      congr
      rw [← Int64.ofInt_eq_ofNat, Int.toNat_of_nonneg (by omega), Int64.ofInt_toInt]
    · exact nomatch h
  · exact nomatch h

namespace Table

theorem setEntry_append {key v : Val} {es : List (Val × Val)} (hv : v ≠ .nil)
    (hkey : ∀ e ∈ es, e.1.equal key = false) : setEntry key v es = es ++ [(key, v)] := by
  induction es with
  | nil => cases v <;> first | rfl | exact absurd rfl hv
  | cons e es ih =>
    obtain ⟨he, hes⟩ := List.forall_mem_cons.mp hkey
    unfold setEntry
    rw [he, ih hes]
    rfl

theorem valuesFrom?_placed {vs : List Val} (hvs : ∀ v ∈ vs, v ≠ .nil) (n : Nat) :
    valuesFrom? n (placed n vs) = some vs := by
  induction vs generalizing n with
  | nil => rfl
  | cons v vs ih =>
    obtain ⟨hv, hvs⟩ := List.forall_mem_cons.mp hvs
    have hplaced : placed n (v :: vs) = (placeKey n, v) :: placed (n + 1) vs := by
      cases v <;> first | rfl | exact absurd rfl hv
    have hequal : (placeKey n).equal (placeKey n) = true := beq_self_eq_true _
    rw [hplaced, valuesFrom?, hequal, if_pos rfl, ih hvs]
    rfl

/-- Entries whose keys are places one after the other. -/
theorem equal_of_valuesFrom? {n : Nat} {es : List (Val × Val)} {vs : List Val} (h : valuesFrom? n es = some vs) :
    ∀ e ∈ es, ∃ k, n ≤ k ∧ k < n + es.length ∧ e.1.equal (placeKey k) = true := by
  induction es generalizing n vs with
  | nil => nofun
  | cons e es ih =>
    unfold valuesFrom? at h
    split at h
    · next hequal =>
      obtain ⟨vs', hvs', -⟩ := Option.map_eq_some_iff.mp h
      refine List.forall_mem_cons.mpr ⟨⟨n, Nat.le_refl n, by simp, hequal⟩, fun e' he' => ?_⟩
      obtain ⟨k, hk, hlt, hk'⟩ := ih hvs' e' he'
      exact ⟨k, by omega, by simp only [List.length_cons]; omega, hk'⟩
    · exact nomatch h

theorem items?_of_placed {t : Table} {vs : List Val} (ht : t.entries = placed 1 vs) (hvs : ∀ v ∈ vs, v ≠ .nil) :
    t.items? = some vs := by
  unfold items?
  rw [ht, valuesFrom?_placed hvs]

theorem inOrder_perm (t : Table) : t.inOrder.Perm t.entries := by
  unfold inOrder
  refine ((List.mergeSort_perm _ _).append_right _).trans ?_
  exact List.filter_append_perm _ _

end Table

/-- A table that stands for a dict does not look like a list. -/
theorem items?_of_dict {h : Heap} {t : Table} {b : Nat} {entries : List ((Val × Value) × (Val × Value))}
    (ht : t.entries = entries.map fun i => (i.1.1, i.2.1)) (hkeys : ∀ i ∈ entries, Stands h b i.1.1 i.1.2)
    (hstable : ∀ i ∈ entries, i.1.2.isStableKey = true)
    (hplaces : ¬ ∀ i ∈ entries, ∃ n : Nat, 0 < n ∧ n ≤ entries.length ∧ i.1.2 = .int (Int64.ofNat n)) :
    t.items? = none := by
  have hkey {i : (Val × Value) × (Val × Value)} (hi : i ∈ entries) : (i.1.1, i.2.1) ∈ t.entries :=
    ht ▸ List.mem_map_of_mem hi
  have hlength : t.entries.length = entries.length := by rw [ht, List.length_map]
  unfold Table.items?
  split
  · next vs hvs =>
    refine absurd (fun i hi => ?_) hplaces
    obtain ⟨k, hk, hlt, hequal⟩ := Table.equal_of_valuesFrom? hvs _ (hkey hi)
    exact ⟨k, hk, by omega, (hkeys i hi).eq_int (hstable i hi) hequal⟩
  · dsimp only
    split
    · next hall =>
      refine absurd (fun i hi => ?_) hplaces
      have hrow := List.all_eq_true.mp hall i.1.1 (List.mem_map_of_mem (hkey hi))
      obtain ⟨n, hn, hle, heq⟩ := Layout.eq_of_inRow hrow
      refine ⟨n, hn, hlength ▸ hle, (hkeys i hi).eq_int (hstable i hi) ?_⟩
      rw [heq]
      exact beq_self_eq_true _
    · rfl

/-! ## To the guest -/

/-- **A value was handed in**: the heap has grown, and in it something stands for the value that uses no table
    from before. -/
structure Handed (w w' : World) (g : Val) (v : Value) : Prop where
  grows : w.heap.Grows w'.heap
  stands : Stands w'.heap w'.heap.tables.size g v
  fresh : ∀ id, g = .table id → w.heap.tables.size ≤ id

/-- The table `t` stands for some entries. -/
structure Filled (h : Heap) (t : Table) (entries : List ((Val × Value) × (Val × Value))) : Prop where
  entries_eq : t.entries = entries.map fun i => (i.1.1, i.2.1)
  keys : ∀ i ∈ entries, Stands h h.tables.size i.1.1 i.1.2
  values : ∀ i ∈ entries, Stands h h.tables.size i.2.1 i.2.2
  stable : ∀ i ∈ entries, i.1.2.isStableKey = true

theorem Filled.empty (h : Heap) : Filled h .empty [] where
  entries_eq := rfl
  keys := List.forall_mem_nil _
  values := List.forall_mem_nil _
  stable := List.forall_mem_nil _

theorem Filled.grows {h h' : Heap} {t : Table} {entries : List ((Val × Value) × (Val × Value))}
    (hf : Filled h t entries) (hg : h.Grows h') : Filled h' t entries where
  entries_eq := hf.entries_eq
  keys i hi := ((hf.keys i hi).grows hg).mono hg.size_le
  values i hi := ((hf.values i hi).grows hg).mono hg.size_le
  stable := hf.stable

namespace Run

theorem toGuestItems_handed {items : List Value}
    (hitems : ∀ v ∈ items, ∀ w, ∃ g w', toGuest v w = (.ok g, w') ∧ Handed w w' g v) (w : World) :
    ∃ (is : List (Val × Value)) (w' : World), toGuestItems items w = (.ok (is.map Prod.fst), w') ∧
      items = is.map Prod.snd ∧ w.heap.Grows w'.heap ∧ ∀ i ∈ is, Stands w'.heap w'.heap.tables.size i.1 i.2 := by
  induction items generalizing w with
  | nil => exact ⟨[], w, rfl, rfl, .refl _, nofun⟩
  | cons v rest ih =>
    obtain ⟨hv, hrest⟩ := List.forall_mem_cons.mp hitems
    obtain ⟨g, w₁, hg, hhanded⟩ := hv w
    obtain ⟨is, w₂, his, rfl, hgrows, hstands⟩ := ih hrest w₁
    refine ⟨(g, v) :: is, w₂, ?_, rfl, hhanded.grows.trans hgrows, List.forall_mem_cons.mpr ⟨?_, hstands⟩⟩
    · exact bind_eq_ok.mpr ⟨g, w₁, hg, bind_eq_ok.mpr ⟨_, w₂, his, rfl⟩⟩
    · exact (hhanded.stands.grows hgrows).mono hgrows.size_le

/-- One more entry in a table, after the others. -/
theorem set_filled {w w₁ w₂ : World} {t : Table} {done : List ((Val × Value) × (Val × Value))} {key g : Val}
    {k v : Value} (ht : Filled w.heap t done) (hkey : Handed w w₁ key k) (hvalue : Handed w₁ w₂ g v)
    (hstable : k.isStableKey = true) (hclash : ∀ i ∈ done, i.1.2.clash k = false) :
    ∃ t', t.set key g = .ok t' ∧ Filled w₂.heap t' (done ++ [((key, k), (g, v))]) := by
  have happend : Table.setEntry key g t.entries = t.entries ++ [(key, g)] := by
    refine Table.setEntry_append hvalue.stands.ne_nil fun e he => ?_
    rw [ht.entries_eq] at he
    obtain ⟨i, hi, rfl⟩ := List.mem_map.mp he
    exact (ht.keys i hi).equal_eq_false hkey.stands (ht.stable i hi) hstable (hclash i hi) hkey.fresh
  have hset : t.set key g = .ok ⟨t.entries ++ [(key, g)], t.layoutWith key g⟩ := by
    unfold Table.set
    rw [hkey.stands.badKey?_eq hstable, hkey.stands.toKey_eq hstable, happend]
  have hdone := ht.grows (hkey.grows.trans hvalue.grows)
  refine ⟨_, hset, ?_, ?_, ?_, ?_⟩
  · simp [ht.entries_eq]
  · refine List.forall_mem_append.mpr ⟨hdone.keys, List.forall_mem_singleton.mpr ?_⟩
    exact (hkey.stands.grows hvalue.grows).mono hvalue.grows.size_le
  · exact List.forall_mem_append.mpr ⟨hdone.values, List.forall_mem_singleton.mpr hvalue.stands⟩
  · exact List.forall_mem_append.mpr ⟨hdone.stable, List.forall_mem_singleton.mpr hstable⟩

theorem toGuestPairs_filled {pairs : List (Value × Value)}
    (hkeys : ∀ e ∈ pairs, ∀ w, ∃ g w', toGuest e.1 w = (.ok g, w') ∧ Handed w w' g e.1)
    (hvalues : ∀ e ∈ pairs, ∀ w, ∃ g w', toGuest e.2 w = (.ok g, w') ∧ Handed w w' g e.2)
    (hstable : ∀ e ∈ pairs, e.1.isStableKey = true) (hclash : pairs.Pairwise fun a b => a.1.clash b.1 = false)
    {w : World} {t : Table} {done : List ((Val × Value) × (Val × Value))} (ht : Filled w.heap t done)
    (hdone : ∀ i ∈ done, ∀ e ∈ pairs, i.1.2.clash e.1 = false) :
    ∃ (t' : Table) (w' : World) (added : List ((Val × Value) × (Val × Value))),
      toGuestPairs t pairs w = (.ok t', w') ∧ w.heap.Grows w'.heap ∧
      pairs = added.map (fun i => (i.1.2, i.2.2)) ∧ Filled w'.heap t' (done ++ added) := by
  induction pairs generalizing w t done with
  | nil => exact ⟨t, w, [], rfl, .refl _, rfl, by rwa [List.append_nil]⟩
  | cons e rest ih =>
    obtain ⟨k, v⟩ := e
    obtain ⟨hk, hkeys⟩ := List.forall_mem_cons.mp hkeys
    obtain ⟨hv, hvalues⟩ := List.forall_mem_cons.mp hvalues
    obtain ⟨hkstable, hstable⟩ := List.forall_mem_cons.mp hstable
    obtain ⟨hkclash, hclash⟩ := List.pairwise_cons.mp hclash
    obtain ⟨key, w₁, hkey, hhandedKey⟩ := hk w
    obtain ⟨g, w₂, hg, hhandedValue⟩ := hv w₁
    obtain ⟨t₁, hset, hfilled⟩ := set_filled ht hhandedKey hhandedValue hkstable
      fun i hi => hdone i hi (k, v) List.mem_cons_self
    have hdone' : ∀ i ∈ done ++ [((key, k), (g, v))], ∀ e ∈ rest, i.1.2.clash e.1 = false := by
      refine List.forall_mem_append.mpr ⟨fun i hi e he => ?_, List.forall_mem_singleton.mpr hkclash⟩
      exact hdone i hi e (List.mem_cons_of_mem _ he)
    obtain ⟨t', w', added, hrun, hgrows, rfl, hfilled'⟩ := ih hkeys hvalues hstable hclash hfilled hdone'
    refine ⟨t', w', ((key, k), (g, v)) :: added, ?_, ?_, rfl, by simpa using hfilled'⟩
    · refine bind_eq_ok.mpr ⟨key, w₁, hkey, bind_eq_ok.mpr ⟨g, w₂, hg, ?_⟩⟩
      rw [hset]
      exact hrun
    · exact (hhandedKey.grows.trans hhandedValue.grows).trans hgrows

/-- What is no table needs nothing of the heap. -/
theorem handed_self {w : World} {g : Val} {v : Value} (hs : Stands w.heap w.heap.tables.size g v)
    (hg : ∀ id, g ≠ .table id) : Handed w w g v where
  grows := .refl _
  stands := hs
  fresh id hid := absurd hid (hg id)

/-- A table that was made last stands for what its contents stand for. -/
theorem handed_newTable {w w' : World} {t : Table} {v : Value} (hgrows : w.heap.Grows w'.heap)
    (hstands : Stands (w'.heap.newTable t).2 (w'.heap.tables.size + 1) (.table w'.heap.tables.size) v) :
    Handed w { w' with heap := (w'.heap.newTable t).2 } (.table w'.heap.tables.size) v where
  grows := hgrows.trans (w'.heap.grows_newTable t)
  stands := by
    have hsize : (w'.heap.newTable t).2.tables.size = w'.heap.tables.size + 1 := Array.size_push _
    rw [hsize]
    exact hstands
  fresh id hid := by
    cases hid
    exact hgrows.size_le

/-- **A portable value can be handed in**, and what is handed in stands for it. -/
theorem toGuest_portable {v : Value} (hv : v.Portable) (w : World) :
    ∃ g w', toGuest v w = (.ok g, w') ∧ Handed w w' g v := by
  induction hv generalizing w with
  | bool b => exact ⟨.bool b, w, rfl, handed_self (.bool b) (by simp)⟩
  | int n => exact ⟨.int n, w, rfl, handed_self (.int n) (by simp)⟩
  | float x => exact ⟨.float x, w, rfl, handed_self (.float x) (by simp)⟩
  | str s => exact ⟨.ofString s, w, rfl, handed_self (.str s) (by simp [Val.ofString])⟩
  | @list items _ ih =>
    obtain ⟨is, w', hrun, rfl, hgrows, hstands⟩ := toGuestItems_handed ih w
    refine ⟨.table w'.heap.tables.size, { w' with heap := (w'.heap.newTable (.ofItems (is.map Prod.fst))).2 }, ?_,
      handed_newTable hgrows (.list (Nat.lt_succ_self _) (by simp [Heap.newTable]) ?_ fun i hi => ?_)⟩
    · exact bind_eq_ok.mpr ⟨_, w', hrun, rfl⟩
    · exact congrArg Table.entries (w'.heap.table_newTable _)
    · exact (hstands i hi).grows (w'.heap.grows_newTable _)
  | @dict pairs _ _ hstable hclash hplaces ihk ihv =>
    obtain ⟨t, w', entries, hrun, hgrows, rfl, hfilled⟩ :=
      toGuestPairs_filled ihk ihv hstable hclash (.empty w.heap) (List.forall_mem_nil _)
    rw [List.nil_append] at hfilled
    refine ⟨.table w'.heap.tables.size, { w' with heap := (w'.heap.newTable t).2 }, ?_,
      handed_newTable hgrows (.dict (Nat.lt_succ_self _) (by simp [Heap.newTable]) ?_ (fun i hi => ?_)
        (fun i hi => ?_) hfilled.stable ?_)⟩
    · exact bind_eq_ok.mpr ⟨_, w', hrun, rfl⟩
    · exact (congrArg Table.entries (w'.heap.table_newTable t)).trans hfilled.entries_eq
    · exact (hfilled.keys i hi).grows (w'.heap.grows_newTable t)
    · exact (hfilled.values i hi).grows (w'.heap.grows_newTable t)
    · refine fun hall => hplaces fun e he => ?_
      obtain ⟨i, hi, rfl⟩ := List.mem_map.mp he
      rw [List.length_map]
      exact hall i hi

/-! ## Back from the guest -/

/-- **Taking back comes to an end** with a result of some kind, whatever objects were made before. -/
def Returns {α : Type} (x : StateT Hosts Option α) (P : α → Prop) : Prop :=
  ∀ hosts, ∃ a hosts', x hosts = some (a, hosts') ∧ P a

namespace Returns

variable {α β : Type} {x : StateT Hosts Option α} {P P' : α → Prop} {Q : β → Prop}

theorem pure {a : α} (h : P a) : Returns (Pure.pure a) P := fun hosts => ⟨a, hosts, rfl, h⟩

theorem bind {f : α → StateT Hosts Option β} (hx : Returns x P) (hf : ∀ a, P a → Returns (f a) Q) :
    Returns (x >>= f) Q := by
  intro hosts
  obtain ⟨a, hosts₁, ha, hP⟩ := hx hosts
  obtain ⟨b, hosts₂, hb, hQ⟩ := hf a hP hosts₁
  refine ⟨b, hosts₂, ?_, hQ⟩
  show (x hosts).bind (fun r => f r.1 r.2) = _
  rw [ha]
  exact hb

theorem mono (h : Returns x P) (hP : ∀ a, P a → P' a) : Returns x P' := by
  intro hosts
  obtain ⟨a, hosts', ha, h⟩ := h hosts
  exact ⟨a, hosts', ha, hP a h⟩

end Returns

/-- Items come back one by one. -/
theorem ofGuestItems_returns {α : Type} {h : Heap} {n : Nat} (g : α → Val) {P : α → Value → Prop} {as : List α}
    (has : ∀ a ∈ as, Returns (ofGuest h n (g a)) (P a)) :
    Returns (ofGuestItems h n (as.map g)) (List.Forall₂ P as) := by
  induction as with
  | nil =>
    unfold ofGuestItems
    exact .pure .nil
  | cons a as ih =>
    obtain ⟨ha, has⟩ := List.forall_mem_cons.mp has
    rw [List.map_cons, ofGuestItems]
    exact .bind ha fun x hx => .bind (ih has) fun xs hxs => .pure (.cons hx hxs)

/-- Entries come back one by one. -/
theorem ofGuestPairs_returns {α : Type} {h : Heap} {n : Nat} (g : α → Val × Val) {P Q : α → Value → Prop} {as : List α}
    (hkeys : ∀ a ∈ as, Returns (ofGuest h n (g a).1) (P a)) (hvalues : ∀ a ∈ as, Returns (ofGuest h n (g a).2) (Q a)) :
    Returns (ofGuestPairs h n (as.map g)) (List.Forall₂ (fun a e => P a e.1 ∧ Q a e.2) as) := by
  induction as with
  | nil =>
    unfold ofGuestPairs
    exact .pure .nil
  | cons a as ih =>
    obtain ⟨hk, hkeys⟩ := List.forall_mem_cons.mp hkeys
    obtain ⟨hv, hvalues⟩ := List.forall_mem_cons.mp hvalues
    rw [List.map_cons, ofGuestPairs]
    exact .bind hk fun k hk => .bind hv fun x hx => .bind (ih hkeys hvalues) fun xs hxs => .pure (.cons ⟨hk, hx⟩ hxs)

/-- A table that looks like a list comes back as one. -/
theorem ofGuest_list {h : Heap} {id n : Nat} {vs : List Val} {P : Value → Prop} (hvs : (h.table id).items? = some vs)
    (hitems : Returns (ofGuestItems h n vs) fun xs => P (.list xs)) : Returns (ofGuest h (n + 1) (.table id)) P := by
  rw [ofGuest, hvs]
  exact .bind hitems fun xs hxs => .pure hxs

/-- Any other table comes back as a dict. -/
theorem ofGuest_dict {h : Heap} {id n : Nat} {P : Value → Prop} (hvs : (h.table id).items? = none)
    (hpairs : Returns (ofGuestPairs h n (h.table id).inOrder) fun es => P (.dict es)) :
    Returns (ofGuest h (n + 1) (.table id)) P := by
  rw [ofGuest, hvs]
  exact .bind hpairs fun es hes => .pure hes

theorem ofGuest_ofString (h : Heap) (n : Nat) (s : String) : ofGuest h n (.ofString s) = pure (.str s) := by
  unfold ofGuest Val.ofString
  dsimp only
  rw [Text.decode_toUTF8]

/-- **What stands for a value comes back as that value**, but for the order of entries. -/
theorem ofGuest_reordered {h : Heap} {b : Nat} {g : Val} {v : Value} (hs : Stands h b g v) {n : Nat} (hn : b ≤ n) :
    Returns (ofGuest h n g) v.Reordered := by
  induction hs generalizing n with
  | bool x =>
    unfold ofGuest
    exact .pure (.bool x)
  | int m =>
    unfold ofGuest
    exact .pure (.int m)
  | float x =>
    unfold ofGuest
    exact .pure (.float x)
  | str s =>
    rw [ofGuest_ofString]
    exact .pure (.str s)
  | @list b id items hb hid ht hitems ih =>
    obtain ⟨n, rfl⟩ : ∃ n', n = n' + 1 := ⟨n - 1, by omega⟩
    have hnil : ∀ g ∈ items.map Prod.fst, g ≠ .nil := by
      intro g hg
      obtain ⟨i, hi, rfl⟩ := List.mem_map.mp hg
      exact (hitems i hi).ne_nil
    refine ofGuest_list (Table.items?_of_placed ht hnil) ?_
    refine (ofGuestItems_returns Prod.fst fun i hi => ih i hi (by omega)).mono fun xs hxs => ?_
    exact .list_of_forall₂ (List.forall₂_map_left_iff.mpr hxs)
  | @dict b id entries hb hid ht hkeys hvalues hstable hplaces ihk ihv =>
    obtain ⟨n, rfl⟩ : ∃ n', n = n' + 1 := ⟨n - 1, by omega⟩
    -- the entries in the order in which they are visited
    have hperm := (h.table id).inOrder_perm
    rw [ht] at hperm
    obtain ⟨visited, hvisited, horder⟩ := (congrFun₂ (List.eq_map_comp_perm _) _ _).mpr hperm
    refine ofGuest_dict (items?_of_dict ht hkeys hstable hplaces) ?_
    rw [hvisited]
    refine (ofGuestPairs_returns _ (fun i hi => ihk i (horder.mem_iff.mp hi) (by omega))
      fun i hi => ihv i (horder.mem_iff.mp hi) (by omega)).mono fun es hes => ?_
    -- and as they come back, put in the order that they had
    obtain ⟨cs, hback, horder'⟩ := List.perm_comp_forall₂ horder.symm hes
    exact .dict_of_forall₂ (List.forall₂_map_left_iff.mpr hback) horder'

/-- What comes back from the guest, when taking it back comes to an end. -/
theorem back_of_returns {w : World} {g : Val} {P : Value → Prop}
    (h : Returns (ofGuest w.heap (w.heap.tables.size + 1) g) P) :
    ∃ x hosts, back g w = (.ok x, { w with hosts }) ∧ P x := by
  obtain ⟨x, hosts, hrun, hx⟩ := h w.hosts
  refine ⟨x, hosts, ?_, hx⟩
  unfold back
  rw [hrun]

end Run

end Guest

/-! ## Plain data -/

/-- **Plain data**: truth values, numbers, strings, lists of plain data, and dicts of plain data under names, which
    are different strings, at least one. -/
inductive Value.Data : Value → Prop
  | bool (b : Bool) : Data (.bool b)
  | int (n : Int64) : Data (.int n)
  | float (x : Float) : Data (.float x)
  | str (s : String) : Data (.str s)
  | list {items : List Value} (h : ∀ v ∈ items, Data v) : Data (.list items)
  | dict {fields : List (String × Value)} (hne : fields ≠ []) (hnames : (fields.map Prod.fst).Nodup)
    (hvalues : ∀ f ∈ fields, Data f.2) : Data (.dict (fields.map fun f => (.str f.1, f.2)))

/-- A name is no place, and different names are different keys. -/
theorem Value.Data.portable {v : Value} (h : v.Data) : v.Portable := by
  induction h with
  | bool b => exact .bool b
  | int n => exact .int n
  | float x => exact .float x
  | str s => exact .str s
  | list _ ih => exact .list ih
  | @dict fields hne hnames _ ih =>
    refine .dict (List.forall_mem_map.mpr fun f _ => .str f.1) (List.forall_mem_map.mpr ih)
      (List.forall_mem_map.mpr fun _ _ => rfl) ?_ ?_
    · refine List.pairwise_map.mpr ((List.pairwise_map.mp hnames).imp fun h => ?_)
      exact beq_eq_false_iff_ne.mpr h
    · intro hall
      obtain ⟨f, rest, rfl⟩ := List.exists_cons_of_ne_nil hne
      obtain ⟨n, -, -, hn⟩ := hall _ List.mem_cons_self
      exact nomatch hn

namespace Guest.Run

/-- **Plain data comes back as it was.** It can be handed in, and what was handed in comes back as the same value:
    lists as lists of the same length and in the same order, dicts as dicts with the same entries. -/
theorem plain_data_comes_back {v : Value} (hv : v.Data) (w : World) :
    ∃ v' w', (toGuest v >>= back) w = (.ok v', w') ∧ v.same v' = true ∧ v.Reordered v' := by
  obtain ⟨g, w', hrun, hhanded⟩ := toGuest_portable hv.portable w
  obtain ⟨v', hosts, hback, hreordered⟩ := back_of_returns (ofGuest_reordered hhanded.stands (Nat.le_succ _))
  exact ⟨v', _, bind_eq_ok.mpr ⟨g, w', hrun, hback⟩, hreordered.same, hreordered⟩

/-- A dict that holds lists, an empty one among them, a dict in a list, and a NaN. -/
theorem plain_data_comes_back_nested :
    let nan : Float := .ofBits 0x7ff8000000000000
    let v : Value := .dict [(.str "1", .list [.int 3, .list [], .dict [(.str "x", .float nan)]]), (.str "", .bool true)]
    v.Data ∧ ∃ v' w', (toGuest v >>= back) ⟨.initial, .initial⟩ = (.ok v', w') ∧ v.same v' = true ∧ v.Reordered v' := by
  intro nan v
  have hinner : (Value.dict [(.str "x", .float nan)]).Data :=
    @Value.Data.dict [("x", .float nan)] (List.cons_ne_nil _ _) (by decide) (by simpa using .float nan)
  have hlist : (Value.list [.int 3, .list [], .dict [(.str "x", .float nan)]]).Data :=
    .list (by simpa using ⟨.int 3, .list nofun, hinner⟩)
  have hv : v.Data :=
    @Value.Data.dict [("1", .list [.int 3, .list [], .dict [(.str "x", .float nan)]]), ("", .bool true)]
      (List.cons_ne_nil _ _) (by decide) (by simpa using ⟨hlist, .bool true⟩)
  exact ⟨hv, plain_data_comes_back hv _⟩

end Guest.Run

/-! ## Values that can be handed in at all -/

/-- Whether a value can be a key of a table, by itself: neither `nil` nor NaN. -/
def Value.isKey : Value → Bool
  | .nil => false
  | .float x => !x.isNaN
  | _ => true

mutual

/-- **Whether a value can be handed to a block.** There is no module in it, and neither `nil` nor NaN is a key. -/
def Value.isConvertible : Value → Bool
  | .list items => Value.allConvertible items
  | .dict pairs => Value.entriesConvertible pairs
  | .host (.module ..) => false
  | _ => true

/-- `Value.isConvertible` for every item of a list. -/
def Value.allConvertible : List Value → Bool
  | [] => true
  | v :: rest => v.isConvertible && Value.allConvertible rest

/-- `Value.isConvertible` for every entry of a dict. -/
def Value.entriesConvertible : List (Value × Value) → Bool
  | [] => true
  | (k, v) :: rest => k.isConvertible && (v.isConvertible && (k.isKey && Value.entriesConvertible rest))

end

namespace Guest.Run

section

variable {α β : Type}

/-- A run ends without a failure. -/
def Succeeds (x : Run α) (w : World) : Prop := ∃ a w', x w = (.ok a, w')

theorem succeeds_pure (a : α) (w : World) : Succeeds (pure a) w := ⟨a, w, rfl⟩

theorem succeeds_update (f : Heap → α × Heap) (w : World) : Succeeds (update f) w := ⟨_, _, rfl⟩

theorem not_succeeds_throw (e : Failure) (w : World) : ¬ Succeeds (throw e : Run α) w := by
  rintro ⟨_, _, h⟩
  cases h

/-- One run after the other succeeds when both do. -/
theorem succeeds_bind_iff {x : Run α} {f : α → Run β} {w : World} {A B : Prop} (hx : Succeeds x w ↔ A)
    (hf : ∀ a w₁, x w = (.ok a, w₁) → (Succeeds (f a) w₁ ↔ B)) : Succeeds (x >>= f) w ↔ A ∧ B := by
  constructor
  · rintro ⟨b, w', hrun⟩
    obtain ⟨a, w₁, ha, hb⟩ := bind_eq_ok.mp hrun
    exact ⟨hx.mp ⟨a, w₁, ha⟩, (hf a w₁ ha).mp ⟨b, w', hb⟩⟩
  · rintro ⟨hA, hB⟩
    obtain ⟨a, w₁, ha⟩ := hx.mpr hA
    obtain ⟨b, w', hb⟩ := (hf a w₁ ha).mpr hB
    exact ⟨b, w', bind_eq_ok.mpr ⟨a, w₁, ha, hb⟩⟩

/-- What follows plays no part when it always succeeds. -/
theorem succeeds_bind_left {x : Run α} {f : α → Run β} {w : World} {A : Prop} (hx : Succeeds x w ↔ A)
    (hf : ∀ a w₁, Succeeds (f a) w₁) : Succeeds (x >>= f) w ↔ A := by
  rw [succeeds_bind_iff hx fun a w₁ _ => iff_true_intro (hf a w₁), and_true]

theorem succeeds_bind {x : Run α} {f : α → Run β} {w : World} (hx : Succeeds x w) (hf : ∀ a w₁, Succeeds (f a) w₁) :
    Succeeds (x >>= f) w := (succeeds_bind_left (iff_true_intro hx) hf).mpr trivial

end

theorem badKey?_toGuest {k : Value} {g : Val} {w w' : World} (hrun : toGuest k w = (.ok g, w')) :
    Table.badKey? g = none ↔ k.isKey = true := by
  cases k with
  | nil =>
    cases hrun
    decide
  | float x =>
    cases hrun
    cases hx : x.isNaN <;> simp only [Table.badKey?, Value.isKey, hx] <;> decide
  | list items =>
    obtain ⟨_, _, -, hrun⟩ := bind_eq_ok.mp hrun
    cases hrun
    exact iff_of_true rfl rfl
  | dict pairs =>
    obtain ⟨_, _, -, hrun⟩ := bind_eq_ok.mp hrun
    cases hrun
    exact iff_of_true rfl rfl
  | host ref =>
    cases ref with
    | module name id => cases hrun
    | guest id function =>
      cases hrun
      exact iff_of_true rfl rfl
  | bool | int | str | func =>
    cases hrun
    exact iff_of_true rfl rfl

mutual

/-- **A value can be handed in exactly when it is convertible.** -/
theorem succeeds_toGuest_iff (v : Value) (w : World) : Succeeds (toGuest v) w ↔ v.isConvertible = true := by
  match v with
  | .nil | .bool _ | .int _ | .float _ | .str _ | .func _ | .host (.guest ..) =>
    exact iff_of_true (succeeds_pure _ w) rfl
  | .host (.module ..) => exact iff_of_false (not_succeeds_throw _ w) Bool.false_ne_true
  | .list items =>
    refine succeeds_bind_left (succeeds_toGuestItems_iff items w) fun vs w₁ => ?_
    exact succeeds_bind (succeeds_update _ w₁) fun id w₂ => succeeds_pure _ w₂
  | .dict pairs =>
    refine succeeds_bind_left (succeeds_toGuestPairs_iff .empty pairs w) fun t w₁ => ?_
    exact succeeds_bind (succeeds_update _ w₁) fun id w₂ => succeeds_pure _ w₂

theorem succeeds_toGuestItems_iff (vs : List Value) (w : World) :
    Succeeds (toGuestItems vs) w ↔ Value.allConvertible vs = true := by
  match vs with
  | [] => exact iff_of_true (succeeds_pure _ w) rfl
  | v :: rest =>
    rw [Value.allConvertible, Bool.and_eq_true]
    refine succeeds_bind_iff (succeeds_toGuest_iff v w) fun g w₁ _ => ?_
    exact succeeds_bind_left (succeeds_toGuestItems_iff rest w₁) fun gs w₂ => succeeds_pure _ w₂

theorem succeeds_toGuestPairs_iff (t : Table) (pairs : List (Value × Value)) (w : World) :
    Succeeds (toGuestPairs t pairs) w ↔ Value.entriesConvertible pairs = true := by
  match pairs with
  | [] => exact iff_of_true (succeeds_pure _ w) rfl
  | (k, v) :: rest =>
    rw [Value.entriesConvertible, Bool.and_eq_true, Bool.and_eq_true, Bool.and_eq_true]
    refine succeeds_bind_iff (succeeds_toGuest_iff k w) fun key w₁ hkey => ?_
    refine succeeds_bind_iff (succeeds_toGuest_iff v w₁) fun g w₂ _ => ?_
    have hbad := badKey?_toGuest hkey
    unfold Table.set
    cases hk : Table.badKey? key with
    | none =>
      rw [and_iff_right (hbad.mp hk)]
      exact succeeds_toGuestPairs_iff _ rest w₂
    | some message =>
      refine iff_of_false (not_succeeds_throw (.error message) w₂) fun h => ?_
      rw [hbad.mpr h.1] at hk
      cases hk

end

end Guest.Run

end Helios
