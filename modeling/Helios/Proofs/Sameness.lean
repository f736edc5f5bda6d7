import Mathlib
import Helios.Proofs.Equality
import Helios.Proofs.Merge

/-!
# Sameness — the changes that a block of another language can hide

What a block gives back is compared with what it got by `Value.same`. `Value.Matches` says what that is, one rule a
type; it is reflexive and transitive on all values, NaN included.

For symmetry the entries of a dict have to be told apart. The comparison asks for each entry on the left whether
there is the same on the right, and for the number of entries. With no entry twice on the left, two entries never
share their like, so there are as many likes as entries, and none on the right is left over (`Irredundant.symm`). An
entry that stands twice leaves one over: the keys of a dict are pairwise unequal, but a NaN is not equal to itself and
still the same. Then a change of that entry is not noticed (`repeated_entry_hides_change`).
-/

namespace Helios

namespace Value

/-! ## What sameness says -/

/-- **Two entries of dicts are the same**: their keys are, and their values. -/
def SameEntry (e e' : Value × Value) : Prop := e.1.same e'.1 = true ∧ e.2.same e'.2 = true

theorem same_dict_iff {as bs : List (Value × Value)} :
    same (dict as) (dict bs) = true ↔ as.length = bs.length ∧ ∀ e ∈ as, ∃ e' ∈ bs, SameEntry e e' := by
  rw [same, Bool.and_eq_true, beq_iff_eq, sameEntriesIn_iff]
  rfl

/-- **What sameness says**: types are told apart, lists go item by item, and each entry of the one dict is the same as
    some entry of the other, which has as many. -/
inductive Matches : Value → Value → Prop
  | nil : Matches nil nil
  | bool (b : Bool) : Matches (bool b) (bool b)
  | int (n : Int64) : Matches (int n) (int n)
  | float {x y : Float} (h : (x == y) = true ∨ x.toBits = y.toBits) : Matches (float x) (float y)
  | str (s : String) : Matches (str s) (str s)
  | list {as bs : List Value} (h : List.Forall₂ (fun a b => same a b = true) as bs) : Matches (list as) (list bs)
  | dict {as bs : List (Value × Value)} (length : as.length = bs.length)
      (entries : ∀ e ∈ as, ∃ e' ∈ bs, SameEntry e e') : Matches (dict as) (dict bs)
  | func (name : String) : Matches (func name) (func name)
  | host (h : HostRef) : Matches (host h) (host h)

theorem same_iff_matches {a b : Value} : same a b = true ↔ Matches a b := by
  constructor
  · intro h
    cases a <;> cases b <;> simp only [same, Bool.false_eq_true] at h
    case nil.nil => exact .nil
    case bool.bool => exact beq_iff_eq.mp h ▸ .bool _
    case int.int => exact beq_iff_eq.mp h ▸ .int _
    case float.float => exact .float (by simpa using h)
    case str.str => exact beq_iff_eq.mp h ▸ .str _
    case list.list => exact .list (sameItems_iff.mp h)
    case dict.dict =>
      obtain ⟨hlength, hentries⟩ := same_dict_iff.mp (by rw [same]; exact h)
      exact .dict hlength hentries
    case func.func => exact beq_iff_eq.mp h ▸ .func _
    case host.host => exact beq_iff_eq.mp h ▸ .host _
  · intro h
    cases h with
    | dict hlength hentries => exact same_dict_iff.mpr ⟨hlength, hentries⟩
    | list hitems =>
      rw [same]
      exact sameItems_iff.mpr hitems
    | float h => simpa [same] using h
    | _ => simp [same]

/-! ## Floats -/

/-- The bits of a float are all there is to it. -/
theorem float_eq_of_toBits {x y : Float} (h : x.toBits = y.toBits) : x = y := by
  obtain ⟨⟨b, hb⟩⟩ := x
  obtain ⟨⟨c, hc⟩⟩ := y
  have hbits : b = c := h
  subst hbits
  rfl

theorem float_same_symm {x y : Float} (h : (x == y) = true ∨ x.toBits = y.toBits) :
    (y == x) = true ∨ y.toBits = x.toBits := by
  rcases h with h | h
  · exact .inl (float_beq_symm h)
  · exact .inr h.symm

theorem float_same_trans {x y z : Float} (h : (x == y) = true ∨ x.toBits = y.toBits)
    (h' : (y == z) = true ∨ y.toBits = z.toBits) : (x == z) = true ∨ x.toBits = z.toBits := by
  rcases h with h | h
  · rcases h' with h' | h'
    · exact .inl (float_beq_trans h h')
    · rw [← float_eq_of_toBits h']
      exact .inl h
  · rw [float_eq_of_toBits h]
    exact h'

/-! ## Transitivity -/

section Items

variable {as bs cs : List Value}

theorem items_trans (htrans : ∀ a ∈ as, ∀ b c, same a b = true → same b c = true → same a c = true)
    (h : List.Forall₂ (fun a b => same a b = true) as bs) (h' : List.Forall₂ (fun a b => same a b = true) bs cs) :
    List.Forall₂ (fun a b => same a b = true) as cs := by
  induction h generalizing cs with
  | nil => exact h'
  | @cons a b as bs hab _ ih =>
    obtain ⟨c, cs, hbc, hrest, rfl⟩ := List.forall₂_cons_left_iff.mp h'
    rw [List.forall_mem_cons] at htrans
    exact .cons (htrans.1 b c hab hbc) (ih htrans.2 hrest)

theorem items_symm (hsymm : ∀ a ∈ as, ∀ b, same a b = true → same b a = true)
    (h : List.Forall₂ (fun a b => same a b = true) as bs) : List.Forall₂ (fun a b => same a b = true) bs as := by
  induction h with
  | nil => exact .nil
  | @cons a b as bs hab _ ih =>
    rw [List.forall_mem_cons] at hsymm
    exact .cons (hsymm.1 b hab) (ih hsymm.2)

end Items

/-- **What is the same as the same, is the same.** -/
theorem same_trans {a b c : Value} (h : same a b = true) (h' : same b c = true) : same a c = true := by
  induction hn : sizeOf a using Nat.strong_induction_on generalizing a b c with
  | _ n ih =>
    rw [same_iff_matches] at h h' ⊢
    cases h with
    | float hxy =>
      cases h' with
      | float hyz => exact .float (float_same_trans hxy hyz)
    | list has =>
      cases h' with
      | list hbs =>
        refine .list (items_trans (fun a ha b c hab hbc => ih _ ?_ hab hbc rfl) has hbs)
        rw [← hn]
        exact sizeOf_item ha
    | dict hlength hentries =>
      cases h' with
      | dict hlength' hentries' =>
        refine .dict (hlength.trans hlength') fun e he => ?_
        obtain ⟨e', he', hkey, hvalue⟩ := hentries e he
        obtain ⟨e'', he'', hkey', hvalue'⟩ := hentries' e' he'
        have hsize := sizeOf_entry he
        refine ⟨e'', he'', ih _ ?_ hkey hkey' rfl, ih _ ?_ hvalue hvalue' rfl⟩
        · omega
        · omega
    | nil | bool _ | int _ | str _ | func _ | host _ => exact h'

/-! ## Symmetry -/

/-- **A value without repeated entries**: no dict in it, at any depth, holds the same entry twice. -/
def Irredundant (v : Value) : Prop :=
  ∀ pairs, (dict pairs).Inside v → pairs.Pairwise fun e e' => ¬ SameEntry e e'

namespace Irredundant

variable {items : List Value} {pairs : List (Value × Value)}

theorem item (h : (list items).Irredundant) {v : Value} (hv : v ∈ items) : v.Irredundant :=
  fun _ hin => h _ (.item hv hin)

theorem key (h : (dict pairs).Irredundant) {e : Value × Value} (he : e ∈ pairs) : e.1.Irredundant :=
  fun _ hin => h _ (.key he hin)

theorem value (h : (dict pairs).Irredundant) {e : Value × Value} (he : e ∈ pairs) : e.2.Irredundant :=
  fun _ hin => h _ (.value he hin)

/-- Two entries are told apart by their values, whatever their keys are. -/
theorem pair (x y : Float) {n k : Int64} (h : n ≠ k) : (dict [(float x, int n), (float y, int k)]).Irredundant := by
  intro pairs hin
  obtain rfl : pairs = [(float x, int n), (float y, int k)] := by simpa using hin
  refine List.pairwise_pair.mpr fun hsame => h ?_
  simpa [same] using hsame.2

end Irredundant

section Entries

variable {as bs : List (Value × Value)} (hsymm : ∀ e ∈ as, ∀ e', SameEntry e e' → SameEntry e' e)
  (hdistinct : as.Pairwise fun e e' => ¬ SameEntry e e')
include hsymm hdistinct

/-- Entries that are the same are one entry. -/
theorem eq_of_sameEntry {e e' : Value × Value} (he : e ∈ as) (he' : e' ∈ as) (h : SameEntry e e') : e = e' := by
  by_contra hne
  have hboth : as.Pairwise fun e e' => ¬ SameEntry e e' ∧ ¬ SameEntry e' e := by
    refine hdistinct.imp_of_mem fun {e e'} _ he' hno => ⟨hno, fun hyes => hno ?_⟩
    exact hsymm e' he' e hyes
  have hswap : Std.Symm fun e e' : Value × Value => ¬ SameEntry e e' ∧ ¬ SameEntry e' e := ⟨fun _ _ h => h.symm⟩
  exact (hboth.forall he he' hne).1 h

/-- **Where every entry of the one dict has its like in the other, and no two are the same, none of the other is left
    over**: entries that share their like are the same, and there are as many here as there. -/
theorem likes_cover (hlength : as.length = bs.length) (hlike : ∀ e ∈ as, ∃ e' ∈ bs, SameEntry e e') :
    ∀ e' ∈ bs, ∃ e ∈ as, SameEntry e' e := by
  -- the like of each entry; two entries with one like are the same, and so they are one entry
  choose! f hf hsame using hlike
  have hinj : ∀ e₁ ∈ as, ∀ e₂ ∈ as, f e₁ = f e₂ → e₁ = e₂ := by
    intro e₁ h₁ e₂ h₂ heq
    have hback : SameEntry (f e₁) e₂ := by
      rw [heq]
      exact hsymm e₂ h₂ _ (hsame e₂ h₂)
    have hthere := hsame e₁ h₁
    exact eq_of_sameEntry hsymm hdistinct h₁ h₂ ⟨same_trans hthere.1 hback.1, same_trans hthere.2 hback.2⟩
  have hnodup : as.Nodup := by
    refine hdistinct.imp fun hne heq => hne ?_
    rw [heq]
    exact ⟨same_refl _, same_refl _⟩
  intro e' he'
  obtain ⟨e, he, rfl⟩ := surjOn_of_injOn hnodup hinj hf hlength e' he'
  exact ⟨e, he, hsymm e he _ (hsame e he)⟩

end Entries

/-- **Sameness can be turned around** when the value on the left has no repeated entries. -/
theorem Irredundant.symm {a b : Value} (ha : a.Irredundant) (h : same a b = true) : same b a = true := by
  -- on the size: the entries of a dict are not compared in their order, but with all of the other
  induction hn : sizeOf a using Nat.strong_induction_on generalizing a b with
  | _ n ih =>
    rw [same_iff_matches] at h ⊢
    cases h with
    | float hxy => exact .float (float_same_symm hxy)
    | list has =>
      refine .list (items_symm (fun a hmem b hab => ih _ ?_ (ha.item hmem) hab rfl) has)
      rw [← hn]
      exact sizeOf_item hmem
    | @dict as bs hlength hentries =>
      have hsymm : ∀ e ∈ as, ∀ e', SameEntry e e' → SameEntry e' e := by
        intro e he e' hsame
        have hsize := sizeOf_entry he
        constructor
        · exact ih _ (by omega) (ha.key he) hsame.1 rfl
        · exact ih _ (by omega) (ha.value he) hsame.2 rfl
      exact .dict hlength.symm (likes_cover hsymm (ha as .self) hlength hentries)
    | nil => exact .nil
    | bool b => exact .bool b
    | int n => exact .int n
    | str s => exact .str s
    | func name => exact .func name
    | host r => exact .host r

end Value

/-! ## What a comparison reports -/

namespace NamespaceDiff

variable {before after : Namespace}

/-- **A name is reported as changed.** -/
def Reports (d : NamespaceDiff) (name : String) : Prop := name ∈ d.changed.map Prod.fst

/-- A name that is bound in both namespaces is reported when its values are not the same. -/
theorem reports_iff {name : String} {v w : Value} (hv : before.get? name = some v) (hw : after.get? name = some w) :
    (between before after).Reports name ↔ v.same w = false := by
  unfold Reports
  rw [List.mem_map]
  constructor
  · rintro ⟨⟨n, x⟩, hx, rfl⟩
    obtain ⟨hget, old, hold, hdiffers⟩ := mem_changed_iff.mp hx
    rw [hw] at hget
    rw [hv] at hold
    cases hget
    cases hold
    exact hdiffers
  · intro h
    exact ⟨(name, w), mem_changed_iff.mpr ⟨hw, v, hv, h⟩, rfl⟩

end NamespaceDiff

/-- **Sameness, and the changes that it reports.** Every value is the same as itself, and what is the same as the same
    is the same, so a namespace that comes back as it was shows no change. Sameness can be turned around on a value in
    which no dict holds an entry twice; a name that is bound to such values before and after is reported as changed
    from the one to the other exactly when it is reported the other way. -/
theorem changes_reported_both_ways (a b c : Value) (before after : Namespace) (name : String) :
    a.same a = true ∧
    (a.same b = true → b.same c = true → a.same c = true) ∧
    (a.Irredundant → a.same b = true → b.same a = true) ∧
    NamespaceDiff.between before before = ⟨[], []⟩ ∧
    (before.get? name = some a → after.get? name = some b → a.Irredundant → b.Irredundant →
      ((NamespaceDiff.between before after).Reports name ↔ (NamespaceDiff.between after before).Reports name)) := by
  refine ⟨a.same_refl, Value.same_trans, Value.Irredundant.symm, NamespaceDiff.between_self before, ?_⟩
  intro hbefore hafter ha hb
  rw [NamespaceDiff.reports_iff hbefore hafter, NamespaceDiff.reports_iff hafter hbefore]
  have hiff : a.same b = true ↔ b.same a = true := ⟨ha.symm, hb.symm⟩
  rw [Bool.eq_false_iff, Bool.eq_false_iff, not_iff_not]
  exact hiff

/-- A dict with two entries for NaN, of which a block changes the second, or only the order. -/
theorem changes_reported_both_ways_nan :
    let v := Value.dict [(.float (0.0 / 0.0), .int 1), (.float (0.0 / 0.0), .int 2)]
    let u := Value.dict [(.float (0.0 / 0.0), .int 2), (.float (0.0 / 0.0), .int 1)]
    let w := Value.dict [(.float (0.0 / 0.0), .int 1), (.float (0.0 / 0.0), .int 3)]
    v.Irredundant ∧ w.Irredundant ∧ v.same u = true ∧ u.same v = true ∧
      ((NamespaceDiff.between (.insert .empty "d" v) (.insert .empty "d" w)).Reports "d" ↔
        (NamespaceDiff.between (.insert .empty "d" w) (.insert .empty "d" v)).Reports "d") := by
  intro v u w
  have hv : v.Irredundant := .pair _ _ (by decide)
  have hw : w.Irredundant := .pair _ _ (by decide)
  have hvu : v.same u = true := by with_unfolding_all rfl
  obtain ⟨-, -, hsymm, -, -⟩ := changes_reported_both_ways v u w .empty .empty "d"
  obtain ⟨-, -, -, -, hreports⟩ :=
    changes_reported_both_ways v w w (.insert .empty "d" v) (.insert .empty "d" w) "d"
  exact ⟨hv, hw, hvu, hsymm hv hvu, hreports rfl rfl hv hw⟩

/-- **A change that is not noticed.** Both dicts are made by giving NaN a value twice, which leaves two entries. In the
    first they are the same, so each is the same as the one entry of the second that did not change; the other entry of
    the second is like none of the first. The change is reported in one direction only. -/
theorem repeated_entry_hides_change :
    let nan := Value.float (0.0 / 0.0)
    let v := Value.dict (Value.dictSet (Value.dictSet [] nan (.int 1)) nan (.int 1))
    let w := Value.dict (Value.dictSet (Value.dictSet [] nan (.int 1)) nan (.int 2))
    v = .dict [(nan, .int 1), (nan, .int 1)] ∧ w = .dict [(nan, .int 1), (nan, .int 2)] ∧
      v.same w = true ∧ w.same v = false ∧
      ¬ (NamespaceDiff.between (.insert .empty "d" v) (.insert .empty "d" w)).Reports "d" ∧
      (NamespaceDiff.between (.insert .empty "d" w) (.insert .empty "d" v)).Reports "d" := by
  intro nan v w
  have hv : v = .dict [(nan, .int 1), (nan, .int 1)] := by with_unfolding_all rfl
  have hw : w = .dict [(nan, .int 1), (nan, .int 2)] := by with_unfolding_all rfl
  have hvw : v.same w = true := by with_unfolding_all rfl
  have hwv : w.same v = false := by with_unfolding_all rfl
  refine ⟨hv, hw, hvw, hwv, ?_, ?_⟩
  · intro hreported
    rw [(NamespaceDiff.reports_iff rfl rfl).mp hreported] at hvw
    nomatch hvw
  · exact (NamespaceDiff.reports_iff rfl rfl).mpr hwv

end Helios
