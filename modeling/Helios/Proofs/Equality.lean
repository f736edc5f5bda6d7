import Mathlib
import Helios.Proofs.Rounding

/-!
# Equality — when `==` is an equivalence relation

`Value.Alike` says what equality says, one rule a type. For dicts it is a look-up of every entry of the one in the
other, so symmetry has to find the entries that no look-up asked for: with pairwise unequal keys, entries with
different keys have different likes, and there are as many of both (`EquivalenceOn.dict_symm`). The laws for dicts
need both laws for their keys, so all of them are proved together, by the size of the values
(`Tame.equivalenceOn`).

A value without NaN is always equal to itself. For symmetry and transitivity no float may be equal to two different
integers (`Value.Unmixed`), which large integers do not satisfy, since they are rounded for the comparison with a
float and not for that with an integer (`mixed_numbers_break_equality`).
-/

namespace Helios

namespace Value

/-! ## What equality says -/

variable {items : List Value} {pairs : List (Value × Value)}

theorem sizeOf_item {v : Value} (h : v ∈ items) : sizeOf v < sizeOf (list items) := by
  have := List.sizeOf_lt_of_mem h
  simp only [list.sizeOf_spec]
  omega

theorem sizeOf_entry {e : Value × Value} (h : e ∈ pairs) :
    sizeOf e.1 < sizeOf (dict pairs) ∧ sizeOf e.2 < sizeOf (dict pairs) := by
  have := List.sizeOf_lt_of_mem h
  obtain ⟨k, v⟩ := e
  simp only [Prod.mk.sizeOf_spec, dict.sizeOf_spec] at this ⊢
  omega

theorem hasEntry_eq (pairs : List (Value × Value)) (k v : Value) :
    hasEntry pairs k v = match pairs.find? fun e => eqv e.1 k with
      | some e => eqv e.2 v
      | none => false := by
  induction pairs with
  | nil => rw [hasEntry, List.find?_nil]
  | cons e rest ih =>
    rw [hasEntry, List.find?_cons]
    cases eqv e.1 k
    · exact ih
    · rfl

theorem entriesIn_eq (as bs : List (Value × Value)) :
    entriesIn as bs = as.all fun e => match bs.find? fun e' => eqvRev e.1 e'.1 with
      | some e' => eqvRev e.2 e'.2
      | none => false := by
  induction as with
  | nil => rw [entriesIn, List.all_nil]
  | cons e rest ih =>
    obtain ⟨k, v⟩ := e
    rw [entriesIn, List.all_cons, ← ih]
    dsimp only
    cases bs.find? fun e' => eqvRev k e'.1 with
    | none => rfl
    | some e' =>
      dsimp only
      cases eqvRev v e'.2 <;> rfl

theorem eqvRevItems_eq {as bs : List Value} (h : ∀ a ∈ as, ∀ b ∈ bs, eqvRev a b = eqv b a) :
    eqvRevItems as bs = eqvItems bs as := by
  induction as generalizing bs with
  | nil => cases bs <;> simp only [eqvRevItems, eqvItems]
  | cons a as ih =>
    cases bs with
    | nil => simp only [eqvRevItems, eqvItems]
    | cons b bs =>
      rw [eqvRevItems, eqvItems, h a (by simp) b (by simp),
        ih fun a ha b hb => h a (List.mem_cons_of_mem _ ha) b (List.mem_cons_of_mem _ hb)]

/-- `eqvRev` is equality with the sides exchanged. -/
theorem eqvRev_eq (a b : Value) : eqvRev a b = eqv b a := by
  -- both sides get smaller, and change places in the search for a key
  induction hn : sizeOf a + sizeOf b using Nat.strong_induction_on generalizing a b with
  | _ n ih =>
    have smaller : ∀ a' b' : Value, sizeOf a' + sizeOf b' < n → eqvRev a' b' = eqv b' a' :=
      fun a' b' h => ih _ h a' b' rfl
    cases a with
    | list as =>
      cases b with
      | list bs =>
        rw [eqvRev, eqv]
        refine eqvRevItems_eq fun a ha b hb => smaller a b ?_
        have := sizeOf_item ha
        have := sizeOf_item hb
        omega
      | _ => simp only [eqvRev, eqv]
    | dict as =>
      cases b with
      | dict bs =>
        rw [eqvRev, eqv, entriesIn_eq]
        refine congrArg _ (Bool.eq_iff_iff.mpr ?_)
        rw [List.all_eq_true, List.all_eq_true]
        refine forall₂_congr fun e he => ?_
        have hkey : ∀ e' ∈ as, eqvRev e.1 e'.1 = eqv e'.1 e.1 := by
          intro e' he'
          have := sizeOf_entry he
          have := sizeOf_entry he'
          exact smaller _ _ (by omega)
        have hvalue : ∀ e' ∈ as, eqvRev e.2 e'.2 = eqv e'.2 e.2 := by
          intro e' he'
          have := sizeOf_entry he
          have := sizeOf_entry he'
          exact smaller _ _ (by omega)
        rw [hasEntry_eq, List.find?_congr hkey]
        cases hfind : as.find? fun e' => eqv e'.1 e.1 with
        | none => rfl
        | some e' =>
          dsimp only
          rw [hvalue e' (List.mem_of_find?_eq_some hfind)]
      | _ => simp only [eqvRev, eqv]
    | nil | bool _ | int _ | float _ | str _ | func _ | host _ => cases b <;> simp only [eqvRev, eqv]

theorem eqvItems_iff {as bs : List Value} :
    eqvItems as bs = true ↔ List.Forall₂ (fun a b => eqv a b = true) as bs := by
  induction as generalizing bs with
  | nil => cases bs <;> simp [eqvItems]
  | cons a as ih =>
    cases bs with
    | nil => simp [eqvItems]
    | cons b bs =>
      rw [eqvItems, List.forall₂_cons, ← ih]
      cases eqv a b <;> simp

/-- **What equality says**: numbers are compared by value, lists item by item, and for dicts every entry of the one is
    looked up in the other. -/
inductive Alike : Value → Value → Prop
  | nil : Alike nil nil
  | bool (b : Bool) : Alike (bool b) (bool b)
  | int (n : Int64) : Alike (int n) (int n)
  | float {x y : Float} (h : (x == y) = true) : Alike (float x) (float y)
  | intFloat {n : Int64} {x : Float} (h : (Decimal.floatOfInt n == x) = true) : Alike (int n) (float x)
  | floatInt {x : Float} {n : Int64} (h : (Decimal.floatOfInt n == x) = true) : Alike (float x) (int n)
  | str (s : String) : Alike (str s) (str s)
  | list {as bs : List Value} (h : List.Forall₂ (fun a b => eqv a b = true) as bs) : Alike (list as) (list bs)
  | dict {as bs : List (Value × Value)} (length : as.length = bs.length)
      (entries : ∀ e ∈ as, ∃ w, dictGet? bs e.1 = some w ∧ eqv w e.2 = true) : Alike (dict as) (dict bs)
  | func (name : String) : Alike (func name) (func name)
  | host (h : HostRef) : Alike (host h) (host h)

theorem eqv_dict_iff {as bs : List (Value × Value)} : eqv (dict as) (dict bs) = true ↔
    as.length = bs.length ∧ ∀ e ∈ as, ∃ w, dictGet? bs e.1 = some w ∧ eqv w e.2 = true := by
  rw [eqv, Bool.and_eq_true, beq_iff_eq, entriesIn_eq, List.all_eq_true]
  refine and_congr_right fun _ => forall₂_congr fun e he => ?_
  unfold dictGet?
  rw [List.find?_congr fun e' _ => eqvRev_eq e.1 e'.1]
  cases bs.find? fun e' => eqv e'.1 e.1 with
  | none => simp
  | some e' => simp [eqvRev_eq]

theorem eqv_iff_alike {a b : Value} : eqv a b = true ↔ Alike a b := by
  constructor
  · intro h
    cases a <;> cases b <;> simp only [eqv, Bool.false_eq_true] at h
    case nil.nil => exact .nil
    case bool.bool => exact beq_iff_eq.mp h ▸ .bool _
    case int.int => exact beq_iff_eq.mp h ▸ .int _
    case int.float => exact .intFloat h
    case float.int => exact .floatInt h
    case float.float => exact .float h
    case str.str => exact beq_iff_eq.mp h ▸ .str _
    case list.list => exact .list (eqvItems_iff.mp h)
    case dict.dict as bs =>
      obtain ⟨hlength, hentries⟩ := eqv_dict_iff.mp (by rw [eqv]; exact h)
      exact .dict hlength hentries
    case func.func => exact beq_iff_eq.mp h ▸ .func _
    case host.host => exact beq_iff_eq.mp h ▸ .host _
  · rintro (_ | b | n | h | h | h | s | h | ⟨hlength, hentries⟩ | name | r)
    case dict => exact eqv_dict_iff.mpr ⟨hlength, hentries⟩
    case list =>
      rw [eqv]
      exact eqvItems_iff.mpr h
    all_goals simp [eqv, *]

/-! ## Floats -/

open Float.Model (UnpackedFloat)

/-- The parts of a float, with one zero only. -/
def unsignedZero : UnpackedFloat → UnpackedFloat
  | .zero _ => .zero .positive
  | f => f

/-- Floats are equal when they are numbers and the same, but for the sign of zero. -/
theorem float_beq_iff (x y : Float) : (x == y) = true ↔
    x.isNaN = false ∧ unsignedZero x.toModel.unpack = unsignedZero y.toModel.unpack := by
  show x.toModel.unpack.beq y.toModel.unpack = true ↔ x.toModel.unpack.isNaN = false ∧ _
  rw [UnpackedFloat.beq_iff_ne_notANumber_and_eq]
  generalize x.toModel.unpack = f
  generalize y.toModel.unpack = g
  cases f <;> cases g <;> simp [unsignedZero, UnpackedFloat.isNaN]
  case zero.zero s t => cases s <;> cases t <;> simp

theorem float_beq_refl {x : Float} (hx : x.isNaN = false) : (x == x) = true := (float_beq_iff x x).mpr ⟨hx, rfl⟩

theorem float_beq_symm {x y : Float} (h : (x == y) = true) : (y == x) = true := by
  obtain ⟨hx, heq⟩ := (float_beq_iff x y).mp h
  refine (float_beq_iff y x).mpr ⟨?_, heq.symm⟩
  show y.toModel.unpack.isNaN = false
  change x.toModel.unpack.isNaN = false at hx
  generalize x.toModel.unpack = f at hx heq
  generalize y.toModel.unpack = g at heq
  cases g with
  | notANumber => cases f <;> simp_all [unsignedZero, UnpackedFloat.isNaN]
  | _ => rfl

theorem float_beq_trans {x y z : Float} (h : (x == y) = true) (h' : (y == z) = true) : (x == z) = true := by
  obtain ⟨hx, heq⟩ := (float_beq_iff x y).mp h
  exact (float_beq_iff x z).mpr ⟨hx, heq.trans ((float_beq_iff y z).mp h').2⟩

/-! ## Dicts -/

/-- As many things on the one side as on the other, each with a partner there and no two with one partner: none on the
    other side is left over. -/
theorem surjOn_of_injOn {α β : Type} {f : α → β} {as : List α} {bs : List β} (hnodup : as.Nodup)
    (hinj : ∀ a ∈ as, ∀ a' ∈ as, f a = f a' → a = a') (hf : ∀ a ∈ as, f a ∈ bs) (hlength : as.length = bs.length) :
    ∀ b ∈ bs, ∃ a ∈ as, f a = b := by
  have hnodup' : (as.map f).Nodup := hnodup.map_on hinj
  have hsub : as.map f ⊆ bs := fun b hb => by
    obtain ⟨a, ha, rfl⟩ := List.mem_map.mp hb
    exact hf a ha
  have hperm : (as.map f).Perm bs := (hnodup'.subperm hsub).perm_of_length_le (by rw [List.length_map, hlength])
  exact fun b hb => List.mem_map.mp (hperm.mem_iff.mpr hb)

/-- **A dict with pairwise unequal keys.** -/
def DistinctKeys (pairs : List (Value × Value)) : Prop := pairs.Pairwise fun e e' => eqv e.1 e'.1 = false

/-- **An equivalence on some values.** -/
structure EquivalenceOn (D : Value → Prop) : Prop where
  refl {a : Value} (ha : D a) : eqv a a = true
  symm {a b : Value} (ha : D a) (hb : D b) (h : eqv a b = true) : eqv b a = true
  trans {a b c : Value} (ha : D a) (hb : D b) (hc : D c) (h : eqv a b = true) (h' : eqv b c = true) : eqv a c = true

namespace EquivalenceOn

variable {D : Value → Prop} {as bs cs : List (Value × Value)}

theorem items_symm (hD : EquivalenceOn D) {as bs : List Value} (has : ∀ a ∈ as, D a) (hbs : ∀ b ∈ bs, D b)
    (h : List.Forall₂ (fun a b => eqv a b = true) as bs) : List.Forall₂ (fun a b => eqv a b = true) bs as := by
  induction h with
  | nil => exact .nil
  | cons hab _ ih =>
    rw [List.forall_mem_cons] at has hbs
    exact .cons (hD.symm has.1 hbs.1 hab) (ih has.2 hbs.2)

theorem items_trans (hD : EquivalenceOn D) {as bs cs : List Value} (has : ∀ a ∈ as, D a) (hbs : ∀ b ∈ bs, D b)
    (hcs : ∀ c ∈ cs, D c) (h : List.Forall₂ (fun a b => eqv a b = true) as bs)
    (h' : List.Forall₂ (fun a b => eqv a b = true) bs cs) : List.Forall₂ (fun a b => eqv a b = true) as cs := by
  induction h generalizing cs with
  | nil => exact h'
  | cons hab _ ih =>
    obtain ⟨c, cs, hbc, hrest, rfl⟩ := List.forall₂_cons_left_iff.mp h'
    rw [List.forall_mem_cons] at has hbs hcs
    exact .cons (hD.trans has.1 hbs.1 hcs.1 hab hbc) (ih has.2 hbs.2 hcs.2 hrest)

/-- Two entries of a dict with equal keys are one entry. -/
theorem entry_eq (hD : EquivalenceOn D) (hkeys : ∀ e ∈ pairs, D e.1) (hdistinct : DistinctKeys pairs)
    {e e' : Value × Value} (he : e ∈ pairs) (he' : e' ∈ pairs) (h : eqv e.1 e'.1 = true) : e = e' := by
  -- unequal in this order, hence in both
  have hboth : pairs.Pairwise fun e e' => eqv e.1 e'.1 = false ∧ eqv e'.1 e.1 = false := by
    refine hdistinct.imp_of_mem fun {a b} ha hb hne => ⟨hne, ?_⟩
    refine Bool.eq_false_iff.mpr fun heq => ?_
    rw [hD.symm (hkeys b hb) (hkeys a ha) heq] at hne
    nomatch hne
  have hsymm : Std.Symm fun e e' : Value × Value => eqv e.1 e'.1 = false ∧ eqv e'.1 e.1 = false :=
    ⟨fun _ _ hab => hab.symm⟩
  by_contra hne
  rw [(hboth.forall he he' hne).1] at h
  nomatch h

/-- What a look-up finds is the entry with the key. -/
theorem dictGet?_eq_some (hD : EquivalenceOn D) (hkeys : ∀ e ∈ pairs, D e.1) (hdistinct : DistinctKeys pairs)
    {key w : Value} (hkey : D key) :
    dictGet? pairs key = some w ↔ ∃ e ∈ pairs, eqv e.1 key = true ∧ e.2 = w := by
  unfold dictGet?
  rw [Option.map_eq_some_iff]
  constructor
  · rintro ⟨e, hfind, rfl⟩
    have heq := List.find?_some hfind
    exact ⟨e, List.mem_of_find?_eq_some hfind, heq, rfl⟩
  · rintro ⟨e, he, heq, rfl⟩
    obtain ⟨e', hfind⟩ : ∃ e', (pairs.find? fun e => eqv e.1 key) = some e' :=
      Option.isSome_iff_exists.mp (List.find?_isSome.mpr ⟨e, he, heq⟩)
    have he' := List.mem_of_find?_eq_some hfind
    have heq' := List.find?_some hfind
    have hsame : e' = e := hD.entry_eq hkeys hdistinct he' he
      (hD.trans (hkeys e' he') hkey (hkeys e he) heq' (hD.symm (hkeys e he) hkey heq))
    exact ⟨e', hfind, by rw [hsame]⟩

/-- **Equality of dicts**: as many entries, and each entry of the one has its like in the other. -/
theorem eqv_dict (hD : EquivalenceOn D) (has : ∀ e ∈ as, D e.1) (hbs : ∀ e ∈ bs, D e.1)
    (hdistinct : DistinctKeys bs) : eqv (dict as) (dict bs) = true ↔
      as.length = bs.length ∧ ∀ e ∈ as, ∃ e' ∈ bs, eqv e'.1 e.1 = true ∧ eqv e'.2 e.2 = true := by
  rw [eqv_dict_iff]
  refine and_congr_right fun _ => forall₂_congr fun e he => ?_
  constructor
  · rintro ⟨w, hget, hw⟩
    obtain ⟨e', he', hkey, rfl⟩ := (hD.dictGet?_eq_some hbs hdistinct (has e he)).mp hget
    exact ⟨e', he', hkey, hw⟩
  · rintro ⟨e', he', hkey, hvalue⟩
    exact ⟨e'.2, (hD.dictGet?_eq_some hbs hdistinct (has e he)).mpr ⟨e', he', hkey, rfl⟩, hvalue⟩

theorem nodup (hD : EquivalenceOn D) (hkeys : ∀ e ∈ pairs, D e.1) (hdistinct : DistinctKeys pairs) : pairs.Nodup := by
  refine hdistinct.imp_of_mem fun {a b} ha _ hne heq => ?_
  rw [← heq, hD.refl (hkeys a ha)] at hne
  nomatch hne

theorem dict_symm (hD : EquivalenceOn D) (has : ∀ e ∈ as, D e.1 ∧ D e.2) (hbs : ∀ e ∈ bs, D e.1 ∧ D e.2)
    (das : DistinctKeys as) (dbs : DistinctKeys bs) (h : eqv (dict as) (dict bs) = true) :
    eqv (dict bs) (dict as) = true := by
  have hka := fun e he => (has e he).1
  have hkb := fun e he => (hbs e he).1
  obtain ⟨hlength, hlike⟩ := (hD.eqv_dict hka hkb dbs).mp h
  choose! f hf hkey hvalue using hlike
  -- entries with different keys have different likes, so there is none without one
  have hinj : ∀ a₁ ∈ as, ∀ a₂ ∈ as, f a₁ = f a₂ → a₁ = a₂ := by
    intro a₁ h₁ a₂ h₂ heq
    have hk₁ := hD.symm (hkb _ (hf a₁ h₁)) (hka a₁ h₁) (hkey a₁ h₁)
    have hk₂ := hkey a₂ h₂
    rw [← heq] at hk₂
    exact hD.entry_eq hka das h₁ h₂ (hD.trans (hka a₁ h₁) (hkb _ (hf a₁ h₁)) (hka a₂ h₂) hk₁ hk₂)
  refine (hD.eqv_dict hkb hka das).mpr ⟨hlength.symm, fun b hb => ?_⟩
  obtain ⟨a, ha, rfl⟩ := surjOn_of_injOn (hD.nodup hka das) hinj hf hlength b hb
  exact ⟨a, ha, hD.symm (hkb _ hb) (hka a ha) (hkey a ha), hD.symm (hbs _ hb).2 (has a ha).2 (hvalue a ha)⟩

theorem dict_trans (hD : EquivalenceOn D) (has : ∀ e ∈ as, D e.1 ∧ D e.2) (hbs : ∀ e ∈ bs, D e.1 ∧ D e.2)
    (hcs : ∀ e ∈ cs, D e.1 ∧ D e.2) (dbs : DistinctKeys bs) (dcs : DistinctKeys cs)
    (h : eqv (dict as) (dict bs) = true) (h' : eqv (dict bs) (dict cs) = true) :
    eqv (dict as) (dict cs) = true := by
  have hka := fun e he => (has e he).1
  have hkb := fun e he => (hbs e he).1
  have hkc := fun e he => (hcs e he).1
  obtain ⟨hlength, hlike⟩ := (hD.eqv_dict hka hkb dbs).mp h
  obtain ⟨hlength', hlike'⟩ := (hD.eqv_dict hkb hkc dcs).mp h'
  refine (hD.eqv_dict hka hkc dcs).mpr ⟨hlength.trans hlength', fun a ha => ?_⟩
  obtain ⟨b, hb, hkey, hvalue⟩ := hlike a ha
  obtain ⟨c, hc, hkey', hvalue'⟩ := hlike' b hb
  exact ⟨c, hc, hD.trans (hkc c hc) (hkb b hb) (hka a ha) hkey' hkey,
    hD.trans (hcs c hc).2 (hbs b hb).2 (has a ha).2 hvalue' hvalue⟩

end EquivalenceOn

/-! ## Values -/

/-- **A set of values with all that they consist of**, without a NaN, and with pairwise unequal keys in its dicts. -/
structure Tame (D : Value → Prop) : Prop where
  item {items : List Value} (h : D (list items)) {v : Value} (hv : v ∈ items) : D v
  entry {pairs : List (Value × Value)} (h : D (dict pairs)) {e : Value × Value} (he : e ∈ pairs) : D e.1 ∧ D e.2
  number {x : Float} (h : D (float x)) : x.isNaN = false
  distinct {pairs : List (Value × Value)} (h : D (dict pairs)) : DistinctKeys pairs

/-- **No float of the set is equal to two integers of it.** -/
def Unmixed (D : Value → Prop) : Prop :=
  ∀ ⦃x : Float⦄ ⦃m n : Int64⦄, D (float x) → D (int m) → D (int n) → (Decimal.floatOfInt m == x) = true →
    (Decimal.floatOfInt n == x) = true → m = n

/-- Integers up to `2 ^ 53` are not mixed up by floats. -/
theorem unmixed_of_le {D : Value → Prop} (h : ∀ n, D (int n) → n.toInt.natAbs ≤ 2 ^ 53) : Unmixed D := by
  intro x m n _ hm hn hmx hnx
  have hrounded := (Decimal.floatOfInt_beq m n).mp (float_beq_trans hmx (float_beq_symm hnx))
  rw [Decimal.rounded_of_le (h m hm), Decimal.rounded_of_le (h n hn)] at hrounded
  exact Int64.toInt_inj.mp hrounded

namespace Tame

variable {D : Value → Prop}

/-- **A value is equal to itself.** -/
theorem refl (hD : Tame D) (v : Value) (hv : D v) : eqv v v = true := by
  induction hn : sizeOf v using Nat.strong_induction_on generalizing v with
  | _ n ih =>
    rw [eqv_iff_alike]
    cases v with
    | nil => exact .nil
    | bool b => exact .bool b
    | int n => exact .int n
    | float x => exact .float (float_beq_refl (hD.number hv))
    | str s => exact .str s
    | list items =>
      refine .list (List.forall₂_same.mpr fun v hmem => ih _ ?_ v (hD.item hv hmem) rfl)
      have := sizeOf_item hmem
      omega
    | dict pairs =>
      refine .dict rfl fun e he => ?_
      obtain ⟨hkey, hvalue⟩ := hD.entry hv he
      obtain ⟨hk, hw⟩ := sizeOf_entry he
      refine ⟨e.2, ?_, ih _ (by omega) e.2 hvalue rfl⟩
      -- no earlier key is equal to this one, and it is equal to itself
      obtain ⟨before, after, rfl⟩ := List.append_of_mem he
      have hbefore := (List.pairwise_append.mp (hD.distinct hv)).2.2
      have hnone : before.find? (fun e' => eqv e'.1 e.1) = none :=
        List.find?_eq_none.mpr fun e' he' => by simp [hbefore e' he' e (by simp)]
      unfold dictGet?
      rw [List.find?_append, hnone, List.find?_cons, ih _ (by omega) e.1 hkey rfl]
      rfl
    | func name => exact .func name
    | host h => exact .host h

/-- What is inside a small value, is a smaller one. -/
theorem items_below (hD : Tame D) {n : Nat} {items : List Value} (h : D (list items) ∧ sizeOf (list items) < n + 1) :
    ∀ v ∈ items, D v ∧ sizeOf v < n := by
  intro v hv
  have := sizeOf_item hv
  exact ⟨hD.item h.1 hv, by omega⟩

@[inherit_doc items_below]
theorem entries_below (hD : Tame D) {n : Nat} {pairs : List (Value × Value)}
    (h : D (dict pairs) ∧ sizeOf (dict pairs) < n + 1) :
    ∀ e ∈ pairs, (D e.1 ∧ sizeOf e.1 < n) ∧ D e.2 ∧ sizeOf e.2 < n := by
  intro e he
  have := sizeOf_entry he
  obtain ⟨hk, hv⟩ := hD.entry h.1 he
  exact ⟨⟨hk, by omega⟩, hv, by omega⟩

theorem symm_step (hD : Tame D) {n : Nat} (ih : EquivalenceOn fun v => D v ∧ sizeOf v < n) {a b : Value}
    (ha : D a ∧ sizeOf a < n + 1) (hb : D b ∧ sizeOf b < n + 1) (h : eqv a b = true) : eqv b a = true := by
  rw [eqv_iff_alike] at h ⊢
  cases h with
  | float hxy => exact .float (float_beq_symm hxy)
  | intFloat hnx => exact .floatInt hnx
  | floatInt hnx => exact .intFloat hnx
  | list has => exact .list (ih.items_symm (hD.items_below ha) (hD.items_below hb) has)
  | dict hlength hentries =>
    exact eqv_iff_alike.mp (ih.dict_symm (hD.entries_below ha) (hD.entries_below hb) (hD.distinct ha.1)
      (hD.distinct hb.1) (eqv_dict_iff.mpr ⟨hlength, hentries⟩))
  | nil => exact .nil
  | bool b => exact .bool b
  | int n => exact .int n
  | str s => exact .str s
  | func name => exact .func name
  | host r => exact .host r

/-- The one case that needs unmixed numbers is that of two integers with a float between them. -/
theorem trans_step (hD : Tame D) (hmixed : Unmixed D) {n : Nat} (ih : EquivalenceOn fun v => D v ∧ sizeOf v < n)
    {a b c : Value} (ha : D a ∧ sizeOf a < n + 1) (hb : D b ∧ sizeOf b < n + 1) (hc : D c ∧ sizeOf c < n + 1)
    (h : eqv a b = true) (h' : eqv b c = true) : eqv a c = true := by
  rw [eqv_iff_alike] at h h' ⊢
  cases h with
  | float hxy =>
    cases h' with
    | float hyz => exact .float (float_beq_trans hxy hyz)
    | floatInt hny => exact .floatInt (float_beq_trans hny (float_beq_symm hxy))
  | intFloat hnx =>
    cases h' with
    | float hxy => exact .intFloat (float_beq_trans hnx hxy)
    | floatInt hmx =>
      obtain rfl := hmixed hb.1 ha.1 hc.1 hnx hmx
      exact .int _
  | floatInt hnx =>
    cases h' with
    | int n => exact .floatInt hnx
    | intFloat hny => exact .float (float_beq_trans (float_beq_symm hnx) hny)
  | list has =>
    cases h' with
    | list hbs =>
      exact .list (ih.items_trans (hD.items_below ha) (hD.items_below hb) (hD.items_below hc) has hbs)
  | dict hlength hentries =>
    cases h' with
    | dict hlength' hentries' =>
      exact eqv_iff_alike.mp (ih.dict_trans (hD.entries_below ha) (hD.entries_below hb) (hD.entries_below hc)
        (hD.distinct hb.1) (hD.distinct hc.1) (eqv_dict_iff.mpr ⟨hlength, hentries⟩)
        (eqv_dict_iff.mpr ⟨hlength', hentries'⟩))
  | nil | bool _ | int _ | str _ | func _ | host _ => exact h'

/-- **Equality is an equivalence** on values without NaN, with pairwise unequal keys and without mixed numbers. -/
theorem equivalenceOn (hD : Tame D) (hmixed : Unmixed D) : EquivalenceOn D := by
  -- for all values up to a size: equality of dicts needs both laws for their keys
  have bounded : ∀ n, EquivalenceOn fun v => D v ∧ sizeOf v < n := by
    intro n
    induction n with
    | zero =>
      have hnone : ∀ {v : Value} {p : Prop}, D v ∧ sizeOf v < 0 → p := fun h => absurd h.2 (Nat.not_lt_zero _)
      exact ⟨hnone, fun ha _ _ => hnone ha, fun ha _ _ _ _ => hnone ha⟩
    | succ n ih => exact ⟨fun ha => hD.refl _ ha.1, hD.symm_step ih, hD.trans_step hmixed ih⟩
  refine ⟨fun ha => hD.refl _ ha, fun {a b} ha hb h => ?_, fun {a b c} ha hb hc h h' => ?_⟩
  · exact (bounded (sizeOf a + sizeOf b + 1)).symm ⟨ha, by omega⟩ ⟨hb, by omega⟩ h
  · exact (bounded (sizeOf a + sizeOf b + sizeOf c + 1)).trans ⟨ha, by omega⟩ ⟨hb, by omega⟩ ⟨hc, by omega⟩ h h'

end Tame

/-! ## What a value consists of -/

/-- **A value inside another**, at any depth: an item of a list, or a key or value of a dict. -/
inductive Inside (u : Value) : Value → Prop
  | self : Inside u u
  | item {items : List Value} {v : Value} (hv : v ∈ items) (h : Inside u v) : Inside u (list items)
  | key {pairs : List (Value × Value)} {e : Value × Value} (he : e ∈ pairs) (h : Inside u e.1) : Inside u (dict pairs)
  | value {pairs : List (Value × Value)} {e : Value × Value} (he : e ∈ pairs) (h : Inside u e.2) :
    Inside u (dict pairs)

namespace Inside

variable {u v w : Value}

theorem trans (h : u.Inside v) (h' : v.Inside w) : u.Inside w := by
  induction h' with
  | self => exact h
  | item hv _ ih => exact .item hv ih
  | key he _ ih => exact .key he ih
  | value he _ ih => exact .value he ih

@[simp] theorem list_iff {items : List Value} : u.Inside (list items) ↔ u = list items ∨ ∃ v ∈ items, u.Inside v := by
  constructor
  · rintro (_ | ⟨hv, h⟩)
    · exact .inl rfl
    · exact .inr ⟨_, hv, h⟩
  · rintro (rfl | ⟨v, hv, h⟩)
    · exact .self
    · exact .item hv h

@[simp] theorem dict_iff {pairs : List (Value × Value)} :
    u.Inside (dict pairs) ↔ u = dict pairs ∨ ∃ e ∈ pairs, u.Inside e.1 ∨ u.Inside e.2 := by
  constructor
  · rintro (_ | _ | ⟨he, h⟩ | ⟨he, h⟩)
    · exact .inl rfl
    · exact .inr ⟨_, he, .inl h⟩
    · exact .inr ⟨_, he, .inr h⟩
  · rintro (rfl | ⟨e, he, h | h⟩)
    · exact .self
    · exact .key he h
    · exact .value he h

@[simp] theorem int_iff {n : Int64} : u.Inside (int n) ↔ u = int n :=
  ⟨fun h => by cases h; rfl, fun h => h ▸ .self⟩

@[simp] theorem float_iff {x : Float} : u.Inside (float x) ↔ u = float x :=
  ⟨fun h => by cases h; rfl, fun h => h ▸ .self⟩

end Inside

/-- **A value without NaN whose dicts have pairwise unequal keys**, at any depth. -/
structure Regular (v : Value) : Prop where
  number (x : Float) (h : (float x).Inside v) : x.isNaN = false
  distinct (pairs : List (Value × Value)) (h : (dict pairs).Inside v) : DistinctKeys pairs

/-- What some values consist of. -/
def Within (vs : List Value) (u : Value) : Prop := ∃ v ∈ vs, u.Inside v

theorem tame_within {vs : List Value} (h : ∀ v ∈ vs, v.Regular) : Tame (Within vs) where
  item := fun ⟨v, hv, hin⟩ _ hu => ⟨v, hv, (Inside.item hu .self).trans hin⟩
  entry := fun ⟨v, hv, hin⟩ _ he => ⟨⟨v, hv, (Inside.key he .self).trans hin⟩, v, hv, (Inside.value he .self).trans hin⟩
  number := fun ⟨v, hv, hin⟩ => (h v hv).number _ hin
  distinct := fun ⟨v, hv, hin⟩ => (h v hv).distinct _ hin

end Value

open Value (Within Unmixed)

/-- **Equality of values without NaN**, whose dicts have pairwise unequal keys: every value is equal to itself, and
    equality is symmetric and transitive where no float among what the values consist of is equal to two different
    integers among it. -/
theorem equality_is_equivalence (a b c : Value) (ha : a.Regular) (hb : b.Regular) (hc : c.Regular) :
    a.eqv a = true ∧
    (Unmixed (Within [a, b]) → a.eqv b = true → b.eqv a = true) ∧
    (Unmixed (Within [a, b, c]) → a.eqv b = true → b.eqv c = true → a.eqv c = true) := by
  have hself : ∀ {vs : List Value} {v : Value}, v ∈ vs → Within vs v := fun hv => ⟨_, hv, .self⟩
  have htwo : Value.Tame (Within [a, b]) := Value.tame_within (by simp [ha, hb])
  have hthree : Value.Tame (Within [a, b, c]) := Value.tame_within (by simp [ha, hb, hc])
  refine ⟨htwo.refl a (hself (by simp)), fun hmixed h => ?_, fun hmixed h h' => ?_⟩
  · exact (htwo.equivalenceOn hmixed).symm (hself (by simp)) (hself (by simp)) h
  · exact (hthree.equivalenceOn hmixed).trans (hself (by simp)) (hself (by simp)) (hself (by simp)) h h'

/-- Two dicts with their entries in different orders, and with an integer here and a float there. -/
theorem equality_is_equivalence_dicts :
    (Value.dict [(.int 1, .list [.int 3]), (.int 2, .int 7)]).eqv
      (.dict [(.float 2.0, .int 7), (.int 1, .list [.float 3.0])]) = true ∧
    (Value.dict [(.float 2.0, .int 7), (.int 1, .list [.float 3.0])]).eqv
      (.dict [(.int 1, .list [.int 3]), (.int 2, .int 7)]) = true := by
  have hleft : (Value.dict [(.int 1, .list [.int 3]), (.int 2, .int 7)]).Regular := by
    constructor
    · intro x h
      simp at h
    · intro pairs h
      obtain rfl : pairs = [(.int 1, .list [.int 3]), (.int 2, .int 7)] := by simpa using h
      simp [Value.DistinctKeys, Value.eqv]
  have hright : (Value.dict [(.float 2.0, .int 7), (.int 1, .list [.float 3.0])]).Regular := by
    constructor
    · intro x h
      have hx : x = 2.0 ∨ x = 3.0 := by simpa using h
      rcases hx with rfl | rfl <;> rfl
    · intro pairs h
      obtain rfl : pairs = [(.float 2.0, .int 7), (.int 1, .list [.float 3.0])] := by simpa using h
      have hkeys : (Value.float 2.0).eqv (.int 1) = false := by with_unfolding_all rfl
      simpa [Value.DistinctKeys] using hkeys
  have hmixed : Unmixed (Within [.dict [(.int 1, .list [.int 3]), (.int 2, .int 7)],
      .dict [(.float 2.0, .int 7), (.int 1, .list [.float 3.0])]]) := by
    refine Value.unmixed_of_le fun n h => ?_
    have hn : ((n = 1 ∨ n = 3) ∨ n = 2 ∨ n = 7) ∨ n = 7 ∨ n = 1 := by simpa [Within] using h
    rcases hn with ((rfl | rfl) | rfl | rfl) | rfl | rfl <;> decide
  have heq : (Value.dict [(.int 1, .list [.int 3]), (.int 2, .int 7)]).eqv
      (.dict [(.float 2.0, .int 7), (.int 1, .list [.float 3.0])]) = true := by with_unfolding_all rfl
  exact ⟨heq, (equality_is_equivalence _ _ _ hleft hright hleft).2.1 hmixed heq⟩

/-- **A float that is equal to two integers breaks both laws**: they are not equal to each other, and of two dicts with
    pairwise unequal keys one is equal to the other but not the other to it. -/
theorem mixed_numbers_break_equality :
    ((Value.int 9007199254740992).eqv (.float 9007199254740992.0) = true ∧
      (Value.float 9007199254740992.0).eqv (.int 9007199254740993) = true ∧
      (Value.int 9007199254740992).eqv (.int 9007199254740993) = false) ∧
    (Value.DistinctKeys [(.int 9007199254740992, .int 1), (.int 9007199254740993, .int 1)] ∧
      Value.DistinctKeys [(.float 9007199254740992.0, .int 1), (.int 5, .int 1)] ∧
      (Value.dict [(.int 9007199254740992, .int 1), (.int 9007199254740993, .int 1)]).eqv
        (.dict [(.float 9007199254740992.0, .int 1), (.int 5, .int 1)]) = true ∧
      (Value.dict [(.float 9007199254740992.0, .int 1), (.int 5, .int 1)]).eqv
        (.dict [(.int 9007199254740992, .int 1), (.int 9007199254740993, .int 1)]) = false) := by
  have hints : (Value.int 9007199254740992).eqv (.int 9007199254740993) = false := by with_unfolding_all rfl
  have hmixed : (Value.float 9007199254740992.0).eqv (.int 5) = false := by with_unfolding_all rfl
  refine ⟨⟨?_, ?_, hints⟩, ?_, ?_, ?_, ?_⟩
  · with_unfolding_all rfl
  · with_unfolding_all rfl
  · simpa [Value.DistinctKeys] using hints
  · simpa [Value.DistinctKeys] using hmixed
  · with_unfolding_all rfl
  · with_unfolding_all rfl

end Helios
