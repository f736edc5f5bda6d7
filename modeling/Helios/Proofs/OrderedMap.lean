import Helios.Proofs.Keys
import Helios.Builtin.Texts

/-!
# Ordered maps — what dicts are on keys without floats

On keys without floats equality is an equivalence (`equivalenceOn_floatFree`), also where the keys are lists and dicts
themselves. There a dict is a finite map in the order in which its keys came: a key that is set is found with its
value, others are found as before, a new key comes last and an old one keeps its place, and what is removed is gone.

All that look a key up ask the same question, the first entry with an equal key, and give the same answer:
`Value.Present` and `Value.Absent` say which. Only a key that is not the one that was set needs the equivalence: if
both were equal to the key of one entry, they would be equal to each other.
-/

namespace Helios

namespace Value

/-! ## Keys -/

/-- **A key without floats**, in which the dicts at any depth have pairwise unequal keys. -/
structure FloatFree (k : Value) : Prop where
  number (x : Float) : ¬ (float x).Inside k
  distinct : k.KeysDistinct

theorem FloatFree.inside {u k : Value} (h : k.FloatFree) (hin : u.Inside k) : u.FloatFree :=
  ⟨fun x hx => h.number x (hx.trans hin), h.distinct.inside hin⟩

theorem tame_floatFree : Tame FloatFree where
  item h _ hv := h.inside (.item hv .self)
  entry h _ he := ⟨h.inside (.key he .self), h.inside (.value he .self)⟩
  number h := absurd .self (h.number _)
  distinct h := h.distinct _ .self

/-- **Equality is an equivalence on keys without floats.** -/
theorem equivalenceOn_floatFree : EquivalenceOn FloatFree :=
  tame_floatFree.equivalenceOn fun _ _ _ hx => absurd .self (hx.number _)

/-! ## Entries -/

variable {pairs : List (Value × Value)} {j k v w : Value}

theorem dictGet?_cons (e : Value × Value) (rest : List (Value × Value)) (key : Value) :
    dictGet? (e :: rest) key = if eqv e.1 key then some e.2 else dictGet? rest key := by
  unfold dictGet?
  rw [List.find?_cons]
  cases eqv e.1 key <;> rfl

theorem dictGet?_eq_none : dictGet? pairs k = none ↔ ∀ e ∈ pairs, eqv e.1 k = false := by
  unfold dictGet?
  rw [Option.map_eq_none_iff, List.find?_eq_none]
  simp only [Bool.not_eq_true]

/-- **A key that was set is found.** -/
theorem dictGet?_dictSet_self (hk : eqv k k = true) (pairs : List (Value × Value)) (v : Value) :
    dictGet? (dictSet pairs k v) k = some v := by
  induction pairs with
  | nil => rw [dictSet, dictGet?_cons, if_pos hk]
  | cons e rest ih =>
    obtain ⟨key, w⟩ := e
    rw [dictSet]
    split
    · next heq => rw [dictGet?_cons, if_pos heq]
    · next hne => rw [dictGet?_cons, if_neg hne, ih]

/-- **Setting keeps the keys in their order**, and a new one comes last. -/
theorem keys_dictSet (pairs : List (Value × Value)) (k v : Value) : (dictSet pairs k v).map Prod.fst =
    if (dictGet? pairs k).isSome then pairs.map Prod.fst else pairs.map Prod.fst ++ [k] := by
  induction pairs with
  | nil => rfl
  | cons e rest ih =>
    obtain ⟨key, w⟩ := e
    rw [dictSet, dictGet?_cons]
    split
    · rfl
    · rw [List.map_cons, List.map_cons, ih]
      split <;> rfl

theorem dictGet?_filter_self (pairs : List (Value × Value)) (k : Value) :
    dictGet? (pairs.filter fun e => !eqv e.1 k) k = none := by
  refine dictGet?_eq_none.mpr fun e he => ?_
  simpa using (List.mem_filter.mp he).2

namespace EquivalenceOn

variable {D : Value → Prop} (hD : EquivalenceOn D) (hkeys : ∀ e ∈ pairs, D e.1) (hj : D j) (hk : D k)
  (hne : eqv j k = false)
include hD hkeys hj hk hne

/-- No entry has a key that is equal to two unequal ones. -/
theorem ne_of_entry {e : Value × Value} (he : e ∈ pairs) (heq : eqv e.1 k = true) : eqv e.1 j = false := by
  refine Bool.eq_false_iff.mpr fun heq' => ?_
  have hjk := hD.trans hj (hkeys e he) hk (hD.symm (hkeys e he) hj heq') heq
  rw [hjk] at hne
  nomatch hne

/-- **Setting a key changes no other.** -/
theorem dictGet?_dictSet_of_ne (v : Value) : dictGet? (dictSet pairs k v) j = dictGet? pairs j := by
  induction pairs with
  | nil =>
    have hkj : eqv k j = false := by
      refine Bool.eq_false_iff.mpr fun heq => ?_
      rw [hD.symm hk hj heq] at hne
      nomatch hne
    rw [dictSet, dictGet?_cons, hkj]
    rfl
  | cons e rest ih =>
    have hrest := ih fun e he => hkeys e (List.mem_cons_of_mem _ he)
    rw [dictSet]
    split
    · next heq =>
      -- the entry that gets the new value is passed over by the look-up, before and after
      have hfirst := hD.ne_of_entry hkeys hj hk hne List.mem_cons_self heq
      rw [dictGet?_cons, dictGet?_cons, hfirst]
      rfl
    · rw [dictGet?_cons, dictGet?_cons, hrest]

/-- **Removing a key changes no other.** -/
theorem dictGet?_filter_of_ne : dictGet? (pairs.filter fun e => !eqv e.1 k) j = dictGet? pairs j := by
  unfold dictGet?
  rw [List.find?_filter]
  refine congrArg _ (List.find?_congr fun e he => ?_)
  cases heq : eqv e.1 k with
  | true => simp [hD.ne_of_entry hkeys hj hk hne he heq]
  | false => simp

end EquivalenceOn

/-! ## What the built-in functions answer -/

/-- **A key that a dict has**, with its value, for all that look it up. -/
structure Present (pairs : List (Value × Value)) (key w : Value) : Prop where
  entry : ∃ e ∈ pairs, eqv e.1 key = true ∧ e.2 = w
  index : Value.index (dict pairs) key = .ok w
  get (default : Option Value) : Builtin.get ([dict pairs, key] ++ default.toList) = .ok w
  hasKey : Builtin.hasKey [dict pairs, key] = .ok (bool true)
  contains : Builtin.contains [dict pairs, key] = .ok (bool true)

/-- **A key that a dict does not have**, for all that look it up. -/
structure Absent (pairs : List (Value × Value)) (key : Value) : Prop where
  entry : ∀ e ∈ pairs, eqv e.1 key = false
  index : Value.index (dict pairs) key = .error (.value (.keyNotFound key.repr))
  get (default : Option Value) : Builtin.get ([dict pairs, key] ++ default.toList) = .ok (default.getD nil)
  hasKey : Builtin.hasKey [dict pairs, key] = .ok (bool false)
  contains : Builtin.contains [dict pairs, key] = .ok (bool false)

theorem get_dict (pairs : List (Value × Value)) (key : Value) (default : Option Value) :
    Builtin.get ([dict pairs, key] ++ default.toList) = .ok ((dictGet? pairs key).getD (default.getD nil)) := by
  cases default <;> rfl

theorem index_dict (pairs : List (Value × Value)) (key : Value) : index (dict pairs) key =
    match dictGet? pairs key with
    | some w => .ok w
    | none => .error (.value (.keyNotFound key.repr)) := by
  cases key <;> rfl

theorem hasKey_dict (pairs : List (Value × Value)) (key : Value) :
    Builtin.hasKey [dict pairs, key] = .ok (bool (dictGet? pairs key).isSome) := rfl

theorem contains_dict (pairs : List (Value × Value)) (key : Value) :
    Builtin.contains [dict pairs, key] = .ok (bool (dictGet? pairs key).isSome) := rfl

theorem present_iff : Present pairs k w ↔ dictGet? pairs k = some w := by
  constructor
  · intro h
    have hindex := h.index
    rw [index_dict] at hindex
    split at hindex
    · next heq => rw [heq, Except.ok.inj hindex]
    · nomatch hindex
  · intro h
    obtain ⟨e, hfind, hw⟩ := Option.map_eq_some_iff.mp h
    have hkey := List.find?_some hfind
    exact {
      entry := ⟨e, List.mem_of_find?_eq_some hfind, hkey, hw⟩
      index := by rw [index_dict, h]
      get := fun default => by rw [get_dict, h]; rfl
      hasKey := by rw [hasKey_dict, h]; rfl
      contains := by rw [contains_dict, h]; rfl }

theorem absent_iff : Absent pairs k ↔ dictGet? pairs k = none := by
  refine ⟨fun h => dictGet?_eq_none.mpr h.entry, fun h => ?_⟩
  exact {
    entry := dictGet?_eq_none.mp h
    index := by rw [index_dict, h]
    get := fun default => by rw [get_dict, h]; rfl
    hasKey := by rw [hasKey_dict, h]; rfl
    contains := by rw [contains_dict, h]; rfl }

/-- **All that look a key up agree.** -/
theorem present_or_absent (pairs : List (Value × Value)) (key : Value) :
    (∃ w, Present pairs key w) ∨ Absent pairs key := by
  cases h : dictGet? pairs key with
  | some w => exact .inl ⟨w, present_iff.mpr h⟩
  | none => exact .inr (absent_iff.mpr h)

end Value

open Value (DistinctKeys FloatFree EquivalenceOn Present Absent)

/-- **Dicts are finite maps in the order of their keys**, on keys without floats. Equality is an equivalence on such
    keys. Every key is present for all look-ups or for none. `set` binds the key, keeps what other keys are bound to,
    and keeps the keys in their order, a new one last; `remove` takes the entries with an equal key away and keeps all
    others in their order. -/
theorem dicts_are_ordered_maps {d : List (Value × Value)} {k : Value} (v : Value) (hdistinct : DistinctKeys d)
    (hkeys : ∀ e ∈ d, e.1.FloatFree) (hk : k.FloatFree) :
    EquivalenceOn FloatFree ∧
    (∀ j, (∃ w, Present d j w) ∨ Absent d j) ∧
    (∃ d', Builtin.set [.dict d, k, v] = .ok (.dict d') ∧ DistinctKeys d' ∧ Present d' k v ∧
      (∀ j, j.FloatFree → j.eqv k = false →
        (∀ default : Option Value, Builtin.get ([.dict d', j] ++ default.toList) =
          Builtin.get ([.dict d, j] ++ default.toList)) ∧
        Builtin.hasKey [.dict d', j] = Builtin.hasKey [.dict d, j]) ∧
      ((∃ w, Present d k w) → Builtin.keys [.dict d'] = Builtin.keys [.dict d]) ∧
      (Absent d k → ∃ ks, Builtin.keys [.dict d] = .ok (.list ks) ∧
        Builtin.keys [.dict d'] = .ok (.list (ks ++ [k])))) ∧
    ∃ r, Builtin.remove [.dict d, k] = .ok (.dict r) ∧ Absent r k ∧ r.Sublist d ∧
      (∀ e, e ∈ r ↔ e ∈ d ∧ e.1.eqv k = false) ∧
      ∀ j w, j.FloatFree → j.eqv k = false → (Present r j w ↔ Present d j w) := by
  have hD := Value.equivalenceOn_floatFree
  -- with the old key or without it, by the answer of the look-up
  have hkeysAfter : Builtin.keys [.dict (Value.dictSet d k v)] = .ok (.list
      (if (Value.dictGet? d k).isSome then d.map Prod.fst else d.map Prod.fst ++ [k])) :=
    congrArg (fun ks => Except.ok (Value.list ks)) (Value.keys_dictSet d k v)
  refine ⟨hD, Value.present_or_absent d, ⟨Value.dictSet d k v, rfl, Value.distinctKeys_dictSet hdistinct k v,
    Value.present_iff.mpr (Value.dictGet?_dictSet_self (hD.refl hk) d v), fun j hj hne => ?_, ?_, ?_⟩,
    d.filter fun e => !e.1.eqv k, rfl, Value.absent_iff.mpr (Value.dictGet?_filter_self d k), List.filter_sublist,
    fun e => ?_, fun j w hj hne => ?_⟩
  · have hget := hD.dictGet?_dictSet_of_ne hkeys hj hk hne v
    exact ⟨fun default => by rw [Value.get_dict, Value.get_dict, hget],
      by rw [Value.hasKey_dict, Value.hasKey_dict, hget]⟩
  · rintro ⟨w, hw⟩
    rw [hkeysAfter, Value.present_iff.mp hw]
    rfl
  · intro habsent
    refine ⟨d.map Prod.fst, rfl, ?_⟩
    rw [hkeysAfter, Value.absent_iff.mp habsent]
    rfl
  · rw [List.mem_filter, Bool.not_eq_true']
  · rw [Value.present_iff, Value.present_iff, hD.dictGet?_filter_of_ne hkeys hj hk hne]

/-- A key that is a dict itself is set again, with its entries in another order: the old key keeps its place. -/
theorem dicts_are_ordered_maps_nested :
    let old := Value.dict [(.int 1, .int 2), (.int 3, .int 4)]
    let new := Value.dict [(.int 3, .int 4), (.int 1, .int 2)]
    ∃ d', Builtin.set [.dict [(old, .str "a"), (.int 5, .str "b")], new, .float 0.5] = .ok (.dict d') ∧
      Present d' new (.float 0.5) ∧ Builtin.keys [.dict d'] = .ok (.list [old, .int 5]) ∧
      Builtin.hasKey [.dict d', .int 5] = .ok (.bool true) := by
  intro old new
  have hold : old.FloatFree := by
    refine ⟨fun x h => by simp [old] at h, fun pairs h => ?_⟩
    obtain rfl : pairs = [(.int 1, .int 2), (.int 3, .int 4)] := by simpa [old] using h
    simp [DistinctKeys, Value.eqv]
  have hnew : new.FloatFree := by
    refine ⟨fun x h => by simp [new] at h, fun pairs h => ?_⟩
    obtain rfl : pairs = [(.int 3, .int 4), (.int 1, .int 2)] := by simpa [new] using h
    simp [DistinctKeys, Value.eqv]
  have hfive : (Value.int 5).FloatFree := ⟨fun x h => by simp at h, fun pairs h => by cases h⟩
  have hdistinct : DistinctKeys [(old, .str "a"), (.int 5, .str "b")] := by simp [DistinctKeys, old, Value.eqv]
  have hequal : old.eqv new = true := by with_unfolding_all rfl
  have hget : Value.dictGet? [(old, .str "a"), (.int 5, .str "b")] new = some (.str "a") := by
    rw [Value.dictGet?_cons, if_pos hequal]
  obtain ⟨-, -, ⟨d', hset, -, hpresent, hothers, hkept, -⟩, -⟩ := dicts_are_ordered_maps (.float 0.5) hdistinct
    (by simp [hold, hfive]) hnew
  refine ⟨d', hset, hpresent, hkept ⟨_, Value.present_iff.mpr hget⟩, ?_⟩
  rw [(hothers (.int 5) hfive (by simp [new, Value.eqv])).2]
  with_unfolding_all rfl

end Helios
