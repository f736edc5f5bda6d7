import Helios.Guest.Engine

/-!
# Growth — what handing values to the guest does to its tables

`Heap.Grows`: tables may be made, and those that were there are as they were. Handing values in, taking them
back and setting up a block only ever make tables (`environment_grows`), so whatever was said of a table stays
true.

A table is made after what it holds. So the tables that are made while values are handed in hold tables with
smaller numbers only, and none from before (`toGuest_layered`): nothing that was handed in holds itself, unlike
what code may build.
-/

namespace Helios.Guest

/-- A value is no table, or one whose number is at least `b` and below `k`. -/
def Val.Between (b k : Nat) (g : Val) : Prop := ∀ id, g = .table id → b ≤ id ∧ id < k

namespace Val.Between

variable {b k k' : Nat} {g : Val}

theorem of_ne (h : ∀ id, g ≠ .table id) : g.Between b k := fun id hid => absurd hid (h id)

/-- What is below some number is below a greater one. -/
theorem mono (h : g.Between b k) (hk : k ≤ k') : g.Between b k' :=
  fun id hid => ⟨(h id hid).1, Nat.lt_of_lt_of_le (h id hid).2 hk⟩

/-- A table is the same as a key. -/
theorem toKey (h : g.Between b k) : g.toKey.Between b k := by
  cases g with
  | float x =>
    refine of_ne fun id => ?_
    unfold Val.toKey
    dsimp only
    split <;> nofun
  | _ => exact h

end Val.Between

namespace Heap

variable {h h' h'' : Heap}

/-- **Growth**: tables may be made, and those that were there are as they were. -/
structure Grows (h h' : Heap) : Prop where
  size_le : h.tables.size ≤ h'.tables.size
  table_eq : ∀ id, id < h.tables.size → h'.table id = h.table id

theorem Grows.refl (h : Heap) : h.Grows h := ⟨Nat.le_refl _, fun _ _ => rfl⟩

/-- Growing and growing again. -/
theorem Grows.trans (h₁ : h.Grows h') (h₂ : h'.Grows h'') : h.Grows h'' where
  size_le := Nat.le_trans h₁.size_le h₂.size_le
  table_eq id hid := by
    rw [h₂.table_eq id (Nat.lt_of_lt_of_le hid h₁.size_le)]
    exact h₁.table_eq id hid

/-- A new table is found under its number. -/
theorem table_newTable (h : Heap) (t : Table) : (h.newTable t).2.table (h.newTable t).1 = t := by
  simp [newTable, table]

/-- The number of the next table is one more. -/
theorem size_newTable (h : Heap) (t : Table) : (h.newTable t).2.tables.size = h.tables.size + 1 := Array.size_push _

/-- **Making a table leaves the others.** -/
theorem grows_newTable (h : Heap) (t : Table) : h.Grows (h.newTable t).2 := by
  refine ⟨?_, fun id hid => ?_⟩
  · rw [size_newTable]
    exact Nat.le_succ _
  · simp only [newTable, table, Array.getD_eq_getD_getElem?]
    rw [Array.getElem?_push_lt hid, Array.getElem?_eq_getElem hid]

/-- **Layers**: each table with a number from `b` on and below `k` holds, of tables, only ones from `b` on that
    were made before it. -/
def Layered (h : Heap) (b k : Nat) : Prop :=
  ∀ id, b ≤ id → id < k → ∀ e ∈ (h.table id).entries, e.1.Between b id ∧ e.2.Between b id

/-- Of fewer tables less is said. -/
theorem Layered.mono {b k k' : Nat} (hl : h.Layered b k) (hk : k' ≤ k) : h.Layered b k' :=
  fun id hb hid => hl id hb (Nat.lt_of_lt_of_le hid hk)

/-- Tables that are made later change no layers. -/
theorem Layered.grows {b k : Nat} (hl : h.Layered b k) (hk : k ≤ h.tables.size) (hg : h.Grows h') :
    h'.Layered b k := by
  intro id hb hid
  rw [hg.table_eq id (Nat.lt_of_lt_of_le hid hk)]
  exact hl id hb hid

/-- A table on top of the others. -/
theorem Layered.newTable {b : Nat} (hl : h.Layered b h.tables.size) {t : Table}
    (ht : ∀ e ∈ t.entries, e.1.Between b h.tables.size ∧ e.2.Between b h.tables.size) :
    (h.newTable t).2.Layered b (h.newTable t).2.tables.size := by
  intro id hb hid
  rw [size_newTable] at hid
  rcases Nat.lt_succ_iff_lt_or_eq.mp hid with hid | rfl
  · exact (hl.grows (Nat.le_refl _) (h.grows_newTable t)) id hb hid
  · rw [show (h.newTable t).2.table h.tables.size = t from h.table_newTable t]
    exact ht

end Heap

/-! ## Runs -/

namespace Run

variable {α β : Type}

/-- A run is followed by another if it has not failed. -/
theorem bind_apply (x : Run α) (f : α → Run β) (w : World) :
    (x >>= f) w = match x w with
      | (.ok a, w') => f a w'
      | (.error e, w') => (.error e, w') := by
  show ExceptT.bindCont f (x w).1 (x w).2 = _
  rcases x w with ⟨_ | _, _⟩ <;> rfl

/-- **Two runs that go well, taken apart.** -/
theorem bind_eq_ok {x : Run α} {f : α → Run β} {w w' : World} {b : β} :
    (x >>= f) w = (.ok b, w') ↔ ∃ a w₁, x w = (.ok a, w₁) ∧ f a w₁ = (.ok b, w') := by
  rw [bind_apply]
  rcases x w with ⟨e | a, w₁⟩
  · constructor
    · nofun
    · rintro ⟨_, _, hx, -⟩
      cases hx
  · constructor
    · exact fun h => ⟨a, w₁, rfl, h⟩
    · rintro ⟨_, _, hx, hf⟩
      cases hx
      exact hf

/-- **A run makes tables only**, however it ends. -/
def Grows (x : Run α) : Prop := ∀ w : World, w.heap.Grows (x w).2.heap

namespace Grows

/-- What a run that goes well leaves has grown. -/
theorem of_ok {x : Run α} (h : Grows x) {w w' : World} {a : α} (hrun : x w = (.ok a, w')) : w.heap.Grows w'.heap := by
  have hgrows := h w
  rwa [hrun] at hgrows

theorem pure (a : α) : Grows (pure a : Run α) := fun w => .refl w.heap

/-- A failure makes nothing. -/
theorem throw (e : Failure) : Grows (throw e : Run α) := fun w => .refl w.heap

/-- One run after another. -/
theorem bind {x : Run α} {f : α → Run β} (hx : Grows x) (hf : ∀ a, Grows (f a)) : Grows (x >>= f) := by
  intro w
  rw [bind_apply]
  have h := hx w
  revert h
  rcases x w with ⟨e | a, w'⟩
  · exact fun h => h
  · exact fun h => h.trans (hf a w')

/-- A table is made. -/
theorem makeTable (t : Table) : Grows (update (·.newTable t)) := fun w => w.heap.grows_newTable t

end Grows

/-! ## Conversions make tables only -/

mutual

/-- **Handing in a value makes tables only.** -/
theorem toGuest_grows (v : Value) : Grows (toGuest v) := by
  match v with
  | .nil | .bool _ | .int _ | .float _ | .str _ | .func _ | .host (.guest ..) => exact .pure _
  | .host (.module ..) => exact .throw _
  | .list items => exact .bind (toGuestItems_grows items) fun vs => .bind (.makeTable _) fun _ => .pure _
  | .dict pairs => exact .bind (toGuestPairs_grows .empty pairs) fun t => .bind (.makeTable _) fun _ => .pure _

theorem toGuestItems_grows (vs : List Value) : Grows (toGuestItems vs) := by
  match vs with
  | [] => exact .pure _
  | v :: rest => exact .bind (toGuest_grows v) fun g => .bind (toGuestItems_grows rest) fun gs => .pure _

theorem toGuestPairs_grows (t : Table) (pairs : List (Value × Value)) : Grows (toGuestPairs t pairs) := by
  match pairs with
  | [] => exact .pure _
  | (k, v) :: rest =>
    refine .bind (toGuest_grows k) fun key => .bind (toGuest_grows v) fun g => ?_
    split
    · exact toGuestPairs_grows _ rest
    · exact .throw _

end

end Run

/-! ## What is handed in is layered -/

namespace Table

/-- What holds of all entries, and of a key and a value, holds of all entries once the key is set to the value. -/
theorem forall_setEntry {P Q : Val → Prop} {key v : Val} (hkey : P key) (hv : Q v) {es : List (Val × Val)}
    (hes : ∀ e ∈ es, P e.1 ∧ Q e.2) : ∀ e ∈ setEntry key v es, P e.1 ∧ Q e.2 := by
  induction es with
  | nil =>
    unfold setEntry
    split
    · nofun
    · exact List.forall_mem_singleton.mpr ⟨hkey, hv⟩
  | cons e es ih =>
    obtain ⟨he, hes⟩ := List.forall_mem_cons.mp hes
    unfold setEntry
    split
    · split
      · exact hes
      · exact List.forall_mem_cons.mpr ⟨⟨he.1, hv⟩, hes⟩
    · exact List.forall_mem_cons.mpr ⟨he, ih hes⟩

/-- The keys of a list's items are numbers. -/
theorem mem_placed {n : Nat} {vs : List Val} : ∀ e ∈ placed n vs, (∀ id, e.1 ≠ .table id) ∧ e.2 ∈ vs := by
  induction vs generalizing n with
  | nil => nofun
  | cons v vs ih =>
    have hrest : ∀ e ∈ placed (n + 1) vs, (∀ id, e.1 ≠ .table id) ∧ e.2 ∈ v :: vs :=
      fun e he => ⟨(ih e he).1, List.mem_cons_of_mem _ (ih e he).2⟩
    have hfirst : ∀ id, placeKey n ≠ .table id := nofun
    cases v with
    | nil => exact hrest
    | _ => exact List.forall_mem_cons.mpr ⟨⟨hfirst, List.mem_cons_self⟩, hrest⟩

end Table

namespace Run

variable {b : Nat}

/-- Making a table on top of the others. -/
theorem makeTable_layered {w w' : World} {t : Table} {g : Val} (hb : b ≤ w.heap.tables.size)
    (hl : w.heap.Layered b w.heap.tables.size)
    (ht : ∀ e ∈ t.entries, e.1.Between b w.heap.tables.size ∧ e.2.Between b w.heap.tables.size)
    (hrun : (update (·.newTable t) >>= fun id => pure (.table id)) w = (.ok g, w')) :
    w'.heap.Layered b w'.heap.tables.size ∧ g.Between b w'.heap.tables.size := by
  cases hrun
  refine ⟨hl.newTable ht, fun id hid => ?_⟩
  cases hid
  exact ⟨hb, (w.heap.size_newTable t).symm ▸ Nat.lt_succ_self _⟩

mutual

/-- **What is handed in holds tables in layers**, over those that were there. -/
theorem toGuest_layered (v : Value) {w w' : World} {g : Val} (hb : b ≤ w.heap.tables.size)
    (hl : w.heap.Layered b w.heap.tables.size) (hrun : toGuest v w = (.ok g, w')) :
    w'.heap.Layered b w'.heap.tables.size ∧ g.Between b w'.heap.tables.size := by
  match v with
  | .nil | .bool _ | .int _ | .float _ | .str _ | .func _ | .host (.guest ..) =>
    cases hrun
    exact ⟨hl, .of_ne nofun⟩
  | .host (.module ..) => exact nomatch hrun
  | .list items =>
    obtain ⟨gs, w₁, hitems, hmake⟩ := bind_eq_ok.mp hrun
    obtain ⟨hl₁, hgs⟩ := toGuestItems_layered items hb hl hitems
    have hb₁ := Nat.le_trans hb ((toGuestItems_grows items).of_ok hitems).size_le
    refine makeTable_layered hb₁ hl₁ (fun e he => ?_) hmake
    exact ⟨.of_ne (Table.mem_placed e he).1, hgs e.2 (Table.mem_placed e he).2⟩
  | .dict pairs =>
    obtain ⟨t, w₁, hpairs, hmake⟩ := bind_eq_ok.mp hrun
    obtain ⟨hl₁, ht⟩ := toGuestPairs_layered .empty pairs hb hl nofun hpairs
    have hb₁ := Nat.le_trans hb ((toGuestPairs_grows .empty pairs).of_ok hpairs).size_le
    exact makeTable_layered hb₁ hl₁ ht hmake

/-- The items one after the other; tables of earlier ones stay in their layers. -/
theorem toGuestItems_layered (vs : List Value) {w w' : World} {gs : List Val} (hb : b ≤ w.heap.tables.size)
    (hl : w.heap.Layered b w.heap.tables.size) (hrun : toGuestItems vs w = (.ok gs, w')) :
    w'.heap.Layered b w'.heap.tables.size ∧ ∀ g ∈ gs, g.Between b w'.heap.tables.size := by
  match vs with
  | [] =>
    cases hrun
    exact ⟨hl, nofun⟩
  | v :: rest =>
    obtain ⟨g, w₁, hg, hrun⟩ := bind_eq_ok.mp hrun
    obtain ⟨gs, w₂, hgs, hrun⟩ := bind_eq_ok.mp hrun
    cases hrun
    obtain ⟨hl₁, hbetween⟩ := toGuest_layered v hb hl hg
    have hb₁ := Nat.le_trans hb ((toGuest_grows v).of_ok hg).size_le
    obtain ⟨hl₂, hrest⟩ := toGuestItems_layered rest hb₁ hl₁ hgs
    exact ⟨hl₂, List.forall_mem_cons.mpr ⟨hbetween.mono ((toGuestItems_grows rest).of_ok hgs).size_le, hrest⟩⟩

/-- The entries one after the other, into a table that is not in the heap yet. -/
theorem toGuestPairs_layered (t : Table) (pairs : List (Value × Value)) {w w' : World} {t' : Table}
    (hb : b ≤ w.heap.tables.size)
    (hl : w.heap.Layered b w.heap.tables.size)
    (ht : ∀ e ∈ t.entries, e.1.Between b w.heap.tables.size ∧ e.2.Between b w.heap.tables.size)
    (hrun : toGuestPairs t pairs w = (.ok t', w')) :
    w'.heap.Layered b w'.heap.tables.size ∧
      ∀ e ∈ t'.entries, e.1.Between b w'.heap.tables.size ∧ e.2.Between b w'.heap.tables.size := by
  match pairs with
  | [] =>
    cases hrun
    exact ⟨hl, ht⟩
  | (k, v) :: rest =>
    obtain ⟨key, w₁, hkey, hrun⟩ := bind_eq_ok.mp hrun
    obtain ⟨g, w₂, hg, hrun⟩ := bind_eq_ok.mp hrun
    have hle₁ := ((toGuest_grows k).of_ok hkey).size_le
    have hle₂ := ((toGuest_grows v).of_ok hg).size_le
    obtain ⟨hl₁, hkeyBetween⟩ := toGuest_layered k hb hl hkey
    obtain ⟨hl₂, hgBetween⟩ := toGuest_layered v (Nat.le_trans hb hle₁) hl₁ hg
    unfold Table.set at hrun
    cases hbad : Table.badKey? key with
    | some message =>
      rw [hbad] at hrun
      exact nomatch hrun
    | none =>
      rw [hbad] at hrun
      refine toGuestPairs_layered _ rest (Nat.le_trans hb (Nat.le_trans hle₁ hle₂)) hl₂ ?_ hrun
      refine Table.forall_setEntry (hkeyBetween.mono hle₂).toKey hgBetween fun e he => ?_
      have hle := Nat.le_trans hle₁ hle₂
      exact ⟨(ht e he).1.mono hle, (ht e he).2.mono hle⟩

end

end Run

end Helios.Guest
