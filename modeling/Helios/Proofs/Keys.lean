import Helios.Proofs.Equality
import Helios.Proofs.Inventory

/-!
# Keys — dicts whose keys are unequal

A dict is a list of entries, and a literal, `set` and the lists that built-in functions shuffle make new ones all the
time. An entry is added only when no key there is equal to the new key (`distinctKeys_dictSet`), so of two keys the
earlier one is never equal to the later one, NaN or not.

The comparison is made in one order only. The other order follows where equality is symmetric: equal values have no
NaN in them (`noNaN_of_eqv`), and on such values equality is an equivalence if no float is equal to two different
integers. Otherwise it does not follow (`mixed_keys_equal_backwards`).
-/

namespace Helios

namespace Value

/-! ## Keys in the order of the dict -/

variable {pairs : List (Value × Value)} {k v : Value}

/-- What an entry of a dict is made of after a key was given a value. -/
theorem mem_dictSet {e : Value × Value} (h : e ∈ dictSet pairs k v) :
    (e.1 = k ∨ ∃ e' ∈ pairs, e'.1 = e.1) ∧ (e.2 = v ∨ e ∈ pairs) := by
  induction pairs with
  | nil =>
    obtain rfl := List.mem_singleton.mp h
    exact ⟨.inl rfl, .inl rfl⟩
  | cons e' rest ih =>
    rw [dictSet] at h
    split at h
    · rcases List.mem_cons.mp h with rfl | h
      · exact ⟨.inr ⟨e', List.mem_cons_self, rfl⟩, .inl rfl⟩
      · exact ⟨.inr ⟨e, List.mem_cons_of_mem e' h, rfl⟩, .inr (List.mem_cons_of_mem e' h)⟩
    · rcases List.mem_cons.mp h with rfl | h
      · exact ⟨.inr ⟨e', List.mem_cons_self, rfl⟩, .inr List.mem_cons_self⟩
      · obtain ⟨hkey, hvalue⟩ := ih h
        refine ⟨hkey.imp_right ?_, hvalue.imp_right (List.mem_cons_of_mem e')⟩
        rintro ⟨e'', hmem, heq⟩
        exact ⟨e'', List.mem_cons_of_mem e' hmem, heq⟩

/-- **A new key comes last, and only if no key is equal to it.** -/
theorem distinctKeys_dictSet (h : DistinctKeys pairs) (k v : Value) : DistinctKeys (dictSet pairs k v) := by
  induction pairs with
  | nil => exact List.pairwise_singleton _ _
  | cons e rest ih =>
    obtain ⟨hfirst, hrest⟩ := List.pairwise_cons.mp h
    rw [dictSet]
    split
    · exact List.pairwise_cons.mpr ⟨hfirst, hrest⟩
    · rename_i hne
      refine List.pairwise_cons.mpr ⟨fun e' he' => ?_, ih hrest⟩
      rcases (mem_dictSet he').1 with heq | ⟨e'', hmem, heq⟩
      · rw [heq]
        exact Bool.eq_false_iff.mpr hne
      · rw [← heq]
        exact hfirst e'' hmem

/-- At any depth, no key of a dict is equal to a later one. -/
def KeysDistinct (v : Value) : Prop := ∀ pairs, (dict pairs).Inside v → DistinctKeys pairs

theorem KeysDistinct.inside {u v : Value} (h : v.KeysDistinct) (hin : u.Inside v) : u.KeysDistinct :=
  fun pairs hpairs => h pairs (hpairs.trans hin)

theorem keysDistinct_dict_iff : (dict pairs).KeysDistinct ↔
    DistinctKeys pairs ∧ ∀ e ∈ pairs, e.1.KeysDistinct ∧ e.2.KeysDistinct := by
  constructor
  · intro h
    exact ⟨h pairs .self, fun e he => ⟨h.inside (.key he .self), h.inside (.value he .self)⟩⟩
  · rintro ⟨hdistinct, hentries⟩ pairs' hin
    cases hin with
    | self => exact hdistinct
    | key he hin => exact (hentries _ he).1 pairs' hin
    | value he hin => exact (hentries _ he).2 pairs' hin

/-- **Values are built with unequal keys.** -/
theorem formed_keysDistinct : Formed KeysDistinct where
  scalar {v} hscalar pairs hin := by
    cases hin <;> cases hscalar
  list h pairs hin := by
    cases hin with
    | item hv hin => exact h _ hv pairs hin
  item h v hv := h.inside (.item hv .self)
  empty := keysDistinct_dict_iff.mpr ⟨.nil, by simp⟩
  entry h := (keysDistinct_dict_iff.mp h).2
  set {pairs} h {k v} hk hv := by
    obtain ⟨hdistinct, hentries⟩ := keysDistinct_dict_iff.mp h
    refine keysDistinct_dict_iff.mpr ⟨distinctKeys_dictSet hdistinct k v, fun e he => ?_⟩
    obtain ⟨hkey, hvalue⟩ := mem_dictSet he
    constructor
    · rcases hkey with heq | ⟨e', hmem, heq⟩
      · exact heq ▸ hk
      · exact heq ▸ (hentries e' hmem).1
    · rcases hvalue with heq | hmem
      · exact heq ▸ hv
      · exact (hentries e hmem).2
  filter h p := by
    obtain ⟨hdistinct, hentries⟩ := keysDistinct_dict_iff.mp h
    exact keysDistinct_dict_iff.mpr ⟨hdistinct.filter p, fun e he => hentries e (List.mem_of_mem_filter he)⟩

/-! ## Keys in the other order -/

/-- A value without NaN, at any depth. -/
def NoNaN (v : Value) : Prop := ∀ x, (float x).Inside v → x.isNaN = false

section

variable {vs : List Value} (hvs : ∀ v ∈ vs, v.KeysDistinct)
include hvs

/-- The parts without NaN of some values. -/
theorem tame_noNaN : Tame fun v => Within vs v ∧ v.NoNaN where
  item := fun ⟨⟨w, hw, hin⟩, hnan⟩ _ hv =>
    ⟨⟨w, hw, (Inside.item hv .self).trans hin⟩, fun x hx => hnan x (hx.trans (.item hv .self))⟩
  entry := fun ⟨⟨w, hw, hin⟩, hnan⟩ _ he =>
    ⟨⟨⟨w, hw, (Inside.key he .self).trans hin⟩, fun x hx => hnan x (hx.trans (.key he .self))⟩,
      ⟨w, hw, (Inside.value he .self).trans hin⟩, fun x hx => hnan x (hx.trans (.value he .self))⟩
  number := fun ⟨_, hnan⟩ => hnan _ .self
  distinct := fun ⟨⟨w, hw, hin⟩, _⟩ => hvs w hw _ hin

/-- Equality is an equivalence on the parts without NaN. -/
theorem equivalenceOn_noNaN (hmixed : Unmixed (Within vs)) : EquivalenceOn fun v => Within vs v ∧ v.NoNaN :=
  (tame_noNaN hvs).equivalenceOn fun _ _ _ hx hm hn => hmixed hx.1 hm.1 hn.1

end

theorem items_noNaN {as bs : List Value} (h : List.Forall₂ (fun a b => eqv a b = true) as bs)
    (hparts : ∀ a ∈ as, ∀ b ∈ bs, eqv a b = true → a.NoNaN ∧ b.NoNaN) :
    (∀ a ∈ as, a.NoNaN) ∧ ∀ b ∈ bs, b.NoNaN := by
  induction h with
  | nil => exact ⟨nofun, nofun⟩
  | cons hab _ ih =>
    obtain ⟨ha, hb⟩ := hparts _ List.mem_cons_self _ List.mem_cons_self hab
    obtain ⟨has, hbs⟩ := ih fun a ha b hb => hparts a (List.mem_cons_of_mem _ ha) b (List.mem_cons_of_mem _ hb)
    exact ⟨List.forall_mem_cons.mpr ⟨ha, has⟩, List.forall_mem_cons.mpr ⟨hb, hbs⟩⟩

theorem noNaN_list {items : List Value} (h : ∀ v ∈ items, v.NoNaN) : (list items).NoNaN := by
  intro x hin
  cases hin with
  | item hv hin => exact h _ hv x hin

theorem noNaN_dict (h : ∀ e ∈ pairs, e.1.NoNaN ∧ e.2.NoNaN) : (dict pairs).NoNaN := by
  intro x hin
  cases hin with
  | key he hin => exact (h _ he).1 x hin
  | value he hin => exact (h _ he).2 x hin

theorem noNaN_float {x : Float} (hx : x.isNaN = false) : (float x).NoNaN := by
  intro y hin
  obtain rfl := float.inj (Inside.float_iff.mp hin)
  exact hx

/-- **Equal values have no NaN in them.** In two dicts it is what the look-ups find that is equal. Keys that are found
    for different entries are different, and there are as many entries here as there, so nothing is left where a NaN
    could be. -/
theorem noNaN_of_eqv {vs : List Value} (hvs : ∀ v ∈ vs, v.KeysDistinct) (hmixed : Unmixed (Within vs)) {a b : Value}
    (ha : Within vs a) (hb : Within vs b) (h : eqv a b = true) : a.NoNaN ∧ b.NoNaN := by
  induction hn : sizeOf a + sizeOf b using Nat.strong_induction_on generalizing a b with
  | _ n ih =>
    have inside : ∀ {u v : Value}, u.Inside v → Within vs v → Within vs u := fun hin ⟨w, hw, hin'⟩ =>
      ⟨w, hw, hin.trans hin'⟩
    cases eqv_iff_alike.mp h with
    | float hxy =>
      exact ⟨noNaN_float ((float_beq_iff _ _).mp hxy).1, noNaN_float ((float_beq_iff _ _).mp (float_beq_symm hxy)).1⟩
    | intFloat hnx => exact ⟨nofun, noNaN_float ((float_beq_iff _ _).mp (float_beq_symm hnx)).1⟩
    | floatInt hnx => exact ⟨noNaN_float ((float_beq_iff _ _).mp (float_beq_symm hnx)).1, nofun⟩
    | @list as bs hitems =>
      obtain ⟨has, hbs⟩ := items_noNaN hitems fun v hv w hw heq => by
        have := sizeOf_item hv
        have := sizeOf_item hw
        exact ih _ (by omega) (inside (.item hv .self) ha) (inside (.item hw .self) hb) heq rfl
      exact ⟨noNaN_list has, noNaN_list hbs⟩
    | @dict as bs hlength hentries =>
      have hD := equivalenceOn_noNaN hvs hmixed
      have das : DistinctKeys as := by
        obtain ⟨v, hv, hin⟩ := ha
        exact hvs v hv as hin
      -- what is found for an entry, and that there is no NaN in either
      have hfound : ∀ e ∈ as, ∃ e' ∈ bs, eqv e'.1 e.1 = true ∧ (e.1.NoNaN ∧ e.2.NoNaN) ∧ e'.1.NoNaN ∧ e'.2.NoNaN := by
        intro e he
        obtain ⟨w, hget, hw⟩ := hentries e he
        obtain ⟨e', hfind, rfl⟩ := Option.map_eq_some_iff.mp hget
        have he' := List.mem_of_find?_eq_some hfind
        have hkey := List.find?_some hfind
        have hsize := sizeOf_entry he
        have hsize' := sizeOf_entry he'
        obtain ⟨hk', hk⟩ := ih _ (by omega) (inside (.key he' .self) hb) (inside (.key he .self) ha) hkey rfl
        obtain ⟨hv', hv⟩ := ih _ (by omega) (inside (.value he' .self) hb) (inside (.value he .self) ha) hw rfl
        exact ⟨e', he', hkey, ⟨hk, hv⟩, hk', hv'⟩
      choose! f hf hkey hleft hright using hfound
      have hka : ∀ e ∈ as, Within vs e.1 ∧ e.1.NoNaN := fun e he => ⟨inside (.key he .self) ha, (hleft e he).1⟩
      have hkf : ∀ e ∈ as, Within vs (f e).1 ∧ (f e).1.NoNaN := fun e he =>
        ⟨inside (.key (hf e he) .self) hb, (hright e he).1⟩
      have hinj : ∀ e₁ ∈ as, ∀ e₂ ∈ as, f e₁ = f e₂ → e₁ = e₂ := by
        intro e₁ h₁ e₂ h₂ heq
        have hk₂ := hkey e₂ h₂
        rw [← heq] at hk₂
        refine hD.entry_eq hka das h₁ h₂ ?_
        exact hD.trans (hka e₁ h₁) (hkf e₁ h₁) (hka e₂ h₂) (hD.symm (hkf e₁ h₁) (hka e₁ h₁) (hkey e₁ h₁)) hk₂
      have hcover := surjOn_of_injOn (hD.nodup hka das) hinj hf hlength
      refine ⟨noNaN_dict hleft, noNaN_dict fun e' he' => ?_⟩
      obtain ⟨e, he, rfl⟩ := hcover e' he'
      exact hright e he
    | nil | bool _ | int _ | str _ | func _ | host _ => exact ⟨nofun, nofun⟩

/-- **Two keys of one dict are unequal**: the first to the second, and the second to the first where no float in them is
    equal to two different integers in them. -/
structure Unequal (k k' : Value) : Prop where
  forth : eqv k k' = false
  back (hmixed : Unmixed (Within [k, k'])) : eqv k' k = false

/-- **All dicts of a value have pairwise unequal keys**, at any depth. -/
def UniqueKeys (v : Value) : Prop :=
  ∀ pairs, (dict pairs).Inside v → pairs.Pairwise fun e e' => Unequal e.1 e'.1

theorem unequal_of_forth {k k' : Value} (hk : k.KeysDistinct) (hk' : k'.KeysDistinct) (h : eqv k k' = false) :
    Unequal k k' where
  forth := h
  back hmixed := by
    refine Bool.eq_false_iff.mpr fun heq => ?_
    have hvs : ∀ v ∈ [k, k'], v.KeysDistinct := by simp [hk, hk']
    have hin : Within [k, k'] k := ⟨k, by simp, .self⟩
    have hin' : Within [k, k'] k' := ⟨k', by simp, .self⟩
    obtain ⟨hnan', hnan⟩ := noNaN_of_eqv hvs hmixed hin' hin heq
    have hback := (equivalenceOn_noNaN hvs hmixed).symm ⟨hin', hnan'⟩ ⟨hin, hnan⟩ heq
    rw [hback] at h
    nomatch h

/-- It is enough to compare in the order of the dicts. -/
theorem uniqueKeys_iff {v : Value} : v.UniqueKeys ↔ v.KeysDistinct := by
  constructor
  · exact fun h pairs hin => (h pairs hin).imp Unequal.forth
  · intro h pairs hin
    have hkey : ∀ e ∈ pairs, e.1.KeysDistinct := fun e he => (h.inside hin).inside (.key he .self)
    exact (h pairs hin).imp_of_mem fun {e e'} he he' hne => unequal_of_forth (hkey e he) (hkey e' he') hne

theorem formed_uniqueKeys : Formed UniqueKeys := by
  have hsame : UniqueKeys = KeysDistinct := funext fun v => propext uniqueKeys_iff
  rw [hsame]
  exact formed_keysDistinct

end Value

/-! ## Runs -/

open Value (UniqueKeys)

/-- **Keys stay unequal.** Code of this language, run with any fuel on a machine all of whose dicts have pairwise unequal
    keys, in variables and at the frontend, leaves such a machine, whether it fails or not. The same holds of every task
    it comes to: of the machine then, of the values the task is handed and of what it gives. -/
theorem keys_stay_unequal (m : Machine) (hm : m.Holds UniqueKeys) (hown : m.registry.Own) (program : Block)
    (hprogram : program.Own) (fuel : Nat) :
    (Exec.execBlock fuel program m).2.Holds UniqueKeys ∧
      (∀ signal, (Exec.execBlock fuel program m).1 = .ok signal → Signal.Holds UniqueKeys signal) ∧
      ∀ {α : Type} k (t : Task α) m', t.Reaches k m' fuel (.execBlock program) m →
        m'.Holds UniqueKeys ∧ t.Holds UniqueKeys ∧ (t.run k m').2.Holds UniqueKeys ∧
          ∀ a, (t.run k m').1 = .ok a → t.Offers UniqueKeys a := by
  have hvalid := Inventory.valid Value.formed_uniqueKeys
  have hpre : (Spec.inventory UniqueKeys).Pre (.execBlock program) := ⟨hprogram, trivial⟩
  obtain ⟨⟨hafter, -⟩, hsignal⟩ := hvalid.run fuel (.execBlock program) hpre m ⟨hm, hown⟩
  refine ⟨hafter, hsignal, fun k t m' hreaches => ?_⟩
  obtain ⟨ht, hm'⟩ := hvalid.reaches hpre ⟨hm, hown⟩ hreaches
  obtain ⟨⟨hthen, -⟩, hgives⟩ := hvalid.run k t ht m' hm'
  exact ⟨hm'.1, ht.2, hthen, hgives⟩

/-- A dict with an integer and a float for keys, of which the second replaces the value of the first. -/
theorem keys_stay_unequal_literal :
    (Machine.initial .still).Holds UniqueKeys ∧ (Machine.initial .still).registry.Own ∧
      (Exec.execBlock 9 [⟨1, .assign "d" (.dict [(.literal (.int 1), .literal (.int 2)),
        (.literal (.float 1.0), .literal (.int 3))])⟩] (Machine.initial .still)).2.Holds UniqueKeys := by
  have hholds : (Machine.initial .still).Holds UniqueKeys := .initial .still
  have hown : (Machine.initial .still).registry.Own := .withBuiltins Platform.still.regex
  refine ⟨hholds, hown, (keys_stay_unequal _ hholds hown _ ?_ 9).1⟩
  intro s hs t ht
  obtain rfl := List.mem_singleton.mp hs
  cases ht with
  | refl => nofun
  | step hb => nomatch hb

/-- **Where a float is equal to two integers, a later key can be equal to an earlier one.** A program that starts without
    any value makes two dicts the keys of a third. The keys of each are unequal in either order, and of the two the first
    is not equal to the second, but the second is equal to the first. -/
theorem mixed_keys_equal_backwards :
    ((Machine.initial .still).Holds fun _ => False) ∧
    (Exec.execBlock 12 [⟨1, .assign "x" (.dict
      [(.dict [(.literal (.float 9007199254740992.0), .literal (.int 1)), (.literal (.int 5), .literal (.int 1))],
        .literal (.int 1)),
      (.dict [(.literal (.int 9007199254740992), .literal (.int 1)),
          (.literal (.int 9007199254740993), .literal (.int 1))], .literal (.int 2))])⟩]
      (Machine.initial .still)).2.scopes.get? "x" =
      some (.dict [(.dict [(.float 9007199254740992.0, .int 1), (.int 5, .int 1)], .int 1),
        (.dict [(.int 9007199254740992, .int 1), (.int 9007199254740993, .int 1)], .int 2)]) ∧
    (Value.dict [(.float 9007199254740992.0, .int 1), (.int 5, .int 1)]).eqv
      (.dict [(.int 9007199254740992, .int 1), (.int 9007199254740993, .int 1)]) = false ∧
    (Value.dict [(.int 9007199254740992, .int 1), (.int 9007199254740993, .int 1)]).eqv
      (.dict [(.float 9007199254740992.0, .int 1), (.int 5, .int 1)]) = true := by
  refine ⟨.initial .still, ?_, ?_, ?_⟩
  · with_unfolding_all rfl
  · with_unfolding_all rfl
  · with_unfolding_all rfl

end Helios
