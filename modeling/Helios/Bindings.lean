/-!
# Bindings

A finite map from names to values, kept as entries in ascending order of the names. There is one such
list for each map, so two maps that answer every look-up alike are equal (`Bindings.ext_get?`).
-/

namespace Helios

/-- **A finite map from names**, in ascending order of the names. -/
structure Bindings (α : Type) where
  entries : List (String × α)
  sorted : entries.Pairwise fun a b => a.1 < b.1
  deriving Repr

namespace Bindings

variable {α : Type}

/-- No names at all. -/
def empty : Bindings α := ⟨[], .nil⟩

instance : Inhabited (Bindings α) := ⟨empty⟩

instance : EmptyCollection (Bindings α) := ⟨empty⟩

/-! ## Look-up -/

/-- The first entry for a name. -/
def lookup (name : String) : List (String × α) → Option α
  | [] => none
  | (k, v) :: rest => if k = name then some v else lookup name rest

/-- The value of a name. -/
def get? (b : Bindings α) (name : String) : Option α := lookup name b.entries

/-- Whether a name is bound. -/
def contains (b : Bindings α) (name : String) : Bool := (b.get? name).isSome

/-- The bound names in ascending order. -/
def names (b : Bindings α) : List String := b.entries.map Prod.fst

/-- The number of bound names. -/
def size (b : Bindings α) : Nat := b.entries.length

/-! ## Changes -/

/-- Bind a name in an ascending list of entries, in the place of an earlier binding. -/
def insertEntry (name : String) (v : α) : List (String × α) → List (String × α)
  | [] => [(name, v)]
  | (k, w) :: rest =>
    if name < k then (name, v) :: (k, w) :: rest
    else if name = k then (name, v) :: rest
    else (k, w) :: insertEntry name v rest

theorem mem_insertEntry {name : String} {v : α} {es : List (String × α)} {e : String × α}
    (h : e ∈ insertEntry name v es) : e = (name, v) ∨ e ∈ es := by
  induction es with
  | nil => simpa [insertEntry] using h
  | cons e' es ih =>
    simp only [insertEntry] at h
    split at h
    · simpa using h
    · split at h
      · rcases List.mem_cons.1 h with h | h
        · exact .inl h
        · exact .inr (List.mem_cons_of_mem _ h)
      · rcases List.mem_cons.1 h with h | h
        · exact .inr (h ▸ List.mem_cons_self)
        · exact (ih h).imp_right (List.mem_cons_of_mem _)

theorem pairwise_insertEntry (name : String) (v : α) {es : List (String × α)}
    (h : es.Pairwise fun a b => a.1 < b.1) :
    (insertEntry name v es).Pairwise fun a b => a.1 < b.1 := by
  induction es with
  | nil => simp [insertEntry]
  | cons e es ih =>
    obtain ⟨h₁, h₂⟩ := List.pairwise_cons.1 h
    simp only [insertEntry]
    split
    · next hlt =>
      refine List.pairwise_cons.2 ⟨fun e' he' => ?_, h⟩
      rcases List.mem_cons.1 he' with he' | he'
      · subst he'; exact hlt
      · exact String.lt_trans hlt (h₁ e' he')
    · split
      · next heq => exact List.pairwise_cons.2 ⟨fun e' he' => heq ▸ h₁ e' he', h₂⟩
      · next hlt hne =>
        refine List.pairwise_cons.2 ⟨fun e' he' => ?_, ih h₂⟩
        rcases mem_insertEntry he' with he' | he'
        · subst he'
          exact Std.lt_of_le_of_ne (String.not_lt.1 hlt) (Ne.symm hne)
        · exact h₁ e' he'

/-- Bind a name, in the place of an earlier binding. -/
def insert (b : Bindings α) (name : String) (v : α) : Bindings α :=
  ⟨insertEntry name v b.entries, pairwise_insertEntry name v b.sorted⟩

/-- Unbind a name. -/
def erase (b : Bindings α) (name : String) : Bindings α :=
  ⟨b.entries.filter fun e => e.1 ≠ name, b.sorted.filter _⟩

/-- Bind names in order; later entries win. -/
def ofList (es : List (String × α)) : Bindings α := es.foldl (fun b e => b.insert e.1 e.2) empty

/-- Bind everything in `top` over `b`. -/
def override (b top : Bindings α) : Bindings α := top.entries.foldl (fun b e => b.insert e.1 e.2) b

/-! ## Laws -/

@[simp] theorem get?_empty (name : String) : (empty : Bindings α).get? name = none := rfl

theorem lookup_insertEntry (name : String) (v : α) (es : List (String × α)) (n : String) :
    lookup n (insertEntry name v es) = if name = n then some v else lookup n es := by
  induction es with
  | nil => simp [insertEntry, lookup]
  | cons e es ih => grind [insertEntry, lookup]

/-- **Binding a name changes the answer for that name only.** -/
@[simp] theorem get?_insert (b : Bindings α) (name : String) (v : α) (n : String) :
    (b.insert name v).get? n = if name = n then some v else b.get? n :=
  lookup_insertEntry name v b.entries n

theorem lookup_eq_none_iff {name : String} {es : List (String × α)} :
    lookup name es = none ↔ name ∉ es.map Prod.fst := by
  induction es with
  | nil => simp [lookup]
  | cons e es ih => grind [lookup]

/-- Binding the entries of a list in which no name stands twice. -/
theorem get?_foldl_insert {es : List (String × α)} (h : (es.map Prod.fst).Nodup) (b : Bindings α)
    (n : String) :
    (es.foldl (fun b e => b.insert e.1 e.2) b).get? n = (lookup n es).or (b.get? n) := by
  induction es generalizing b with
  | nil => rfl
  | cons e es ih =>
    obtain ⟨hnew, hes⟩ := List.nodup_cons.mp h
    rw [List.foldl_cons, ih hes, get?_insert, lookup]
    split
    · next heq =>
      rw [lookup_eq_none_iff.mpr (heq ▸ hnew)]
      rfl
    · rfl

theorem nodup_names (b : Bindings α) : (b.entries.map Prod.fst).Nodup := by
  refine List.pairwise_map.mpr (b.sorted.imp fun h heq => ?_)
  exact String.lt_irrefl _ (heq ▸ h)

/-- **What is bound over other bindings hides them.** -/
@[simp] theorem get?_override (b top : Bindings α) (n : String) :
    (b.override top).get? n = (top.get? n).or (b.get? n) := get?_foldl_insert top.nodup_names b n

/-- A list in which no name stands twice, as a map. -/
theorem get?_ofList {es : List (String × α)} (h : (es.map Prod.fst).Nodup) (n : String) :
    (ofList es).get? n = lookup n es := by
  unfold ofList
  rw [get?_foldl_insert h, get?_empty, Option.or_none]

theorem mem_foldl_insert {es : List (String × α)} {b : Bindings α} {e : String × α}
    (he : e ∈ (es.foldl (fun b e => b.insert e.1 e.2) b).entries) : e ∈ es ∨ e ∈ b.entries := by
  induction es generalizing b with
  | nil => exact .inr he
  | cons e' es ih =>
    rcases ih he with he | he
    · exact .inl (List.mem_cons_of_mem _ he)
    · rcases mem_insertEntry he with rfl | he
      · exact .inl List.mem_cons_self
      · exact .inr he

theorem mem_ofList {es : List (String × α)} {e : String × α} (he : e ∈ (ofList es).entries) :
    e ∈ es := (mem_foldl_insert he).resolve_right List.not_mem_nil

theorem lookup_filter (name : String) (es : List (String × α)) (n : String) :
    lookup n (es.filter fun e => e.1 ≠ name) = if name = n then none else lookup n es := by
  induction es with
  | nil => simp [lookup]
  | cons e es ih => grind [lookup]

@[simp] theorem get?_erase (b : Bindings α) (name n : String) :
    (b.erase name).get? n = if name = n then none else b.get? n :=
  lookup_filter name b.entries n

theorem lookup_eq_some_iff {es : List (String × α)} (h : es.Pairwise fun a b => a.1 < b.1)
    (name : String) (v : α) : lookup name es = some v ↔ (name, v) ∈ es := by
  induction es with
  | nil => simp [lookup]
  | cons e es ih =>
    obtain ⟨h₁, h₂⟩ := List.pairwise_cons.1 h
    obtain ⟨k, w⟩ := e
    simp only [lookup, List.mem_cons, Prod.mk.injEq]
    split
    · next heq =>
      subst heq
      constructor
      · intro hv; cases hv; exact .inl ⟨rfl, rfl⟩
      · rintro (⟨_, hv⟩ | hmem)
        · rw [hv]
        · exact absurd (h₁ _ hmem) (String.lt_irrefl _)
    · next hne =>
      rw [ih h₂]
      constructor
      · exact .inr
      · rintro (⟨hk, _⟩ | hmem)
        · exact absurd hk.symm hne
        · exact hmem

/-- A name has a value exactly when there is an entry for it. -/
theorem get?_eq_some_iff (b : Bindings α) (name : String) (v : α) :
    b.get? name = some v ↔ (name, v) ∈ b.entries := lookup_eq_some_iff b.sorted name v

theorem eq_of_mem_iff {xs ys : List (String × α)} (hx : xs.Pairwise fun a b => a.1 < b.1)
    (hy : ys.Pairwise fun a b => a.1 < b.1) (h : ∀ e, e ∈ xs ↔ e ∈ ys) : xs = ys := by
  induction xs generalizing ys with
  | nil =>
    cases ys with
    | nil => rfl
    | cons y ys => exact absurd ((h y).2 List.mem_cons_self) List.not_mem_nil
  | cons x xs ih =>
    obtain ⟨hx₁, hx₂⟩ := List.pairwise_cons.1 hx
    cases ys with
    | nil => exact absurd ((h x).1 List.mem_cons_self) List.not_mem_nil
    | cons y ys =>
      obtain ⟨hy₁, hy₂⟩ := List.pairwise_cons.1 hy
      have hxy : x = y := by
        rcases List.mem_cons.1 ((h x).1 List.mem_cons_self) with hxy | hxy
        · exact hxy
        · rcases List.mem_cons.1 ((h y).2 List.mem_cons_self) with hyx | hyx
          · exact hyx.symm
          · exact absurd (hx₁ y hyx) (String.lt_asymm (hy₁ x hxy))
      subst hxy
      refine congrArg (x :: ·) (ih hx₂ hy₂ fun e => ⟨fun he => ?_, fun he => ?_⟩)
      · rcases List.mem_cons.1 ((h e).1 (List.mem_cons_of_mem _ he)) with hex | hex
        · exact absurd (hx₁ e he) (hex ▸ String.lt_irrefl _)
        · exact hex
      · rcases List.mem_cons.1 ((h e).2 (List.mem_cons_of_mem _ he)) with hex | hex
        · exact absurd (hy₁ e he) (hex ▸ String.lt_irrefl _)
        · exact hex

/-- **Maps that answer every look-up alike are equal.** -/
theorem ext_get? {a b : Bindings α} (h : ∀ name, a.get? name = b.get? name) : a = b := by
  obtain ⟨xs, hx⟩ := a
  obtain ⟨ys, hy⟩ := b
  have : xs = ys := eq_of_mem_iff hx hy fun e => by
    rw [← lookup_eq_some_iff hx e.1 e.2, ← lookup_eq_some_iff hy e.1 e.2]
    exact iff_of_eq (congrArg (· = some e.2) (h e.1))
  subst this
  rfl

end Bindings

end Helios
