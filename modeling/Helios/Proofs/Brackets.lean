import Helios.Stmt.Parser

/-!
# Brackets — the words that open blocks and the `end`s that close them

The words `if`, `while`, `for` and `solar_def` are opening brackets, and `end` is the closing bracket for all of them.
Read from the left, an `end` closes the opener that was read last among those still open. `unmatchedBefore` keeps the
list of these, innermost first, and everything else is said in terms of it: a word is balanced when nothing is left
at its end (`Balanced`), an opener and an `end` match when the opener is the first of the list before the `end`
(`Matches`), and a place lies between an opener and its `end` exactly when the opener is on the list there
(`Matches.around_iff`).
-/

namespace Helios

namespace TokenKind

/-- The kind of the block that a token opens. -/
def opener? : TokenKind → Option BlockKind
  | keyword .if_ => some .if_
  | keyword .while_ => some .while_
  | keyword .for_ => some .for_
  | keyword .def_ => some .def_
  | _ => none

/-- Whether a token closes a block. -/
def closes : TokenKind → Bool
  | end_ => true
  | _ => false

/-- **A token that neither opens nor closes a block.** -/
structure Neutral (k : TokenKind) : Prop where
  opener : k.opener? = none
  closes : k.closes = false

end TokenKind

namespace Token

/-- The openers that are unmatched after the token with index `i`, when those of `unmatched` are before it. -/
def unmatchedAfter (i : Nat) (unmatched : List Nat) (k : TokenKind) : Option (List Nat) :=
  if k.opener?.isSome then some (i :: unmatched)
  else if k.closes then unmatched.tail?
  else some unmatched

/-- **The openers that are unmatched** before the token with index `n`, by their indices and the innermost first, unless
    there is an `end` that closes none. -/
def unmatchedBefore (tokens : List Token) : Nat → Option (List Nat)
  | 0 => some []
  | n + 1 => do
    let unmatched ← unmatchedBefore tokens n
    match tokens[n]? with
    | some t => unmatchedAfter n unmatched t.kind
    | none => some unmatched

/-- The openers that are unmatched at the end. -/
def unmatched (tokens : List Token) : Option (List Nat) := unmatchedBefore tokens tokens.length

/-- **A balanced bracket word**: every `end` closes an opener, and no opener is left. -/
def Balanced (tokens : List Token) : Prop := unmatched tokens = some []

/-- **An opener and the `end` that closes it**: before the `end` it is the innermost of those that are unmatched. -/
def Matches (tokens : List Token) (o e : Nat) : Prop :=
  (∃ outer, unmatchedBefore tokens e = some (o :: outer)) ∧ (tokens[e]?).map Token.kind = some .end_

/-- The indices from `i` up to `j` at which there are openers. -/
def openers (tokens : List Token) (i j : Nat) : List Nat :=
  (List.range' i (j - i)).filter fun n => (tokens[n]?).any fun t => t.kind.opener?.isSome

variable {tokens : List Token} {i j n o e : Nat} {A B : List Nat} {t : Token}

/-! ## One token -/

theorem unmatchedBefore_succ (h : unmatchedBefore tokens n = some A) (ht : tokens[n]? = some t) :
    unmatchedBefore tokens (n + 1) = unmatchedAfter n A t.kind := by
  rw [unmatchedBefore, h, ht]
  rfl

theorem unmatchedAfter_neutral {k : TokenKind} (hk : k.Neutral) : unmatchedAfter i A k = some A := by
  unfold unmatchedAfter
  rw [hk.opener, hk.closes]
  rfl

theorem unmatchedAfter_opener {k : TokenKind} {kind : BlockKind} (hk : k.opener? = some kind) :
    unmatchedAfter i A k = some (i :: A) := by
  unfold unmatchedAfter
  rw [hk]
  rfl

theorem unmatchedAfter_eq_some {k : TokenKind} (h : unmatchedAfter i A k = some B) :
    B = i :: A ∨ (∃ o, A = o :: B) ∨ B = A := by
  unfold unmatchedAfter at h
  split at h
  · exact .inl (Option.some.inj h).symm
  · split at h
    · cases A with
      | nil => nomatch h
      | cons o A => exact .inr (.inl ⟨o, congrArg (o :: ·) (Option.some.inj h)⟩)
    · exact .inr (.inr (Option.some.inj h).symm)

/-- Across one token an opener is added, or the innermost one is closed, or nothing changes. -/
theorem unmatchedBefore_cases (h : unmatchedBefore tokens (n + 1) = some B) :
    ∃ A, unmatchedBefore tokens n = some A ∧ (B = n :: A ∨ (∃ o, A = o :: B) ∨ B = A) := by
  obtain ⟨A, hA, hstep⟩ := Option.bind_eq_some_iff.mp h
  refine ⟨A, hA, ?_⟩
  cases ht : tokens[n]? with
  | none =>
    rw [ht] at hstep
    exact .inr (.inr (Option.some.inj hstep).symm)
  | some t =>
    rw [ht] at hstep
    exact unmatchedAfter_eq_some hstep

/-! ## From one place to a later one -/

/-- What is unmatched later was so before, or was opened since. -/
theorem mem_of_unmatchedBefore (hij : i ≤ j) (hA : unmatchedBefore tokens i = some A)
    (hB : unmatchedBefore tokens j = some B) : ∀ o ∈ B, o ∈ A ∨ i ≤ o := by
  induction hij generalizing B with
  | refl =>
    obtain rfl := Option.some.inj (hA.symm.trans hB)
    exact fun o ho => .inl ho
  | @step n hin ih =>
    intro o ho
    obtain ⟨C, hC, rfl | ⟨o', rfl⟩ | rfl⟩ := unmatchedBefore_cases hB
    · rcases List.mem_cons.mp ho with rfl | ho
      · exact .inr hin
      · exact ih hC o ho
    · exact ih hC o (List.mem_cons_of_mem o' ho)
    · exact ih hC o ho

/-- Openers are listed from the last one back to the first. -/
theorem sorted_unmatchedBefore (h : unmatchedBefore tokens n = some A) : A.Pairwise (· > ·) ∧ ∀ o ∈ A, o < n := by
  induction n generalizing A with
  | zero =>
    obtain rfl := Option.some.inj h
    exact ⟨.nil, nofun⟩
  | succ n ih =>
    obtain ⟨C, hC, hcases⟩ := unmatchedBefore_cases h
    obtain ⟨hsorted, hbelow⟩ := ih hC
    rcases hcases with rfl | ⟨o', rfl⟩ | rfl
    · refine ⟨List.pairwise_cons.mpr ⟨hbelow, hsorted⟩, fun o ho => ?_⟩
      rcases List.mem_cons.mp ho with rfl | ho
      · exact Nat.lt_succ_self _
      · exact Nat.lt_succ_of_lt (hbelow o ho)
    · exact ⟨(List.pairwise_cons.mp hsorted).2, fun o ho =>
        Nat.lt_succ_of_lt (hbelow o (List.mem_cons_of_mem o' ho))⟩
    · exact ⟨hsorted, fun o ho => Nat.lt_succ_of_lt (hbelow o ho)⟩

/-! ## Matching -/

namespace Matches

theorem lt (h : Matches tokens o e) : o < e := by
  obtain ⟨⟨outer, houter⟩, -⟩ := h
  exact (sorted_unmatchedBefore houter).2 o List.mem_cons_self

/-- After its `end` an opener is unmatched no more. -/
theorem not_mem_of_lt (h : Matches tokens o e) (hlt : e < n) (hA : unmatchedBefore tokens n = some A) : o ∉ A := by
  obtain ⟨⟨outer, houter⟩, hend⟩ := h
  obtain ⟨t, ht, hkind⟩ := Option.map_eq_some_iff.mp hend
  have hafter : unmatchedBefore tokens (e + 1) = some outer := by
    rw [unmatchedBefore_succ houter ht, hkind]
    rfl
  obtain ⟨hsorted, hbelow⟩ := sorted_unmatchedBefore houter
  intro ho
  -- it would be one of the openers outside of it, or be opened again after the `end`
  rcases mem_of_unmatchedBefore hlt hafter hA o ho with hmem | hle
  · exact absurd ((List.pairwise_cons.mp hsorted).1 o hmem) (Nat.lt_irrefl o)
  · have := hbelow o List.mem_cons_self
    omega

/-- **An opener is closed by one `end` only.** -/
theorem end_unique {e' : Nat} (h : Matches tokens o e) (h' : Matches tokens o e') : e = e' := by
  obtain ⟨outer, houter⟩ := h.1
  obtain ⟨outer', houter'⟩ := h'.1
  have hle : ¬ e < e' := fun hlt => h.not_mem_of_lt hlt houter' List.mem_cons_self
  have hge : ¬ e' < e := fun hlt => h'.not_mem_of_lt hlt houter List.mem_cons_self
  omega

/-- **A place lies between an opener and its `end` exactly when the opener is unmatched there.** -/
theorem around_iff (h : Matches tokens o e) (hA : unmatchedBefore tokens n = some A)
    (hne : (tokens[n]?).map Token.kind ≠ some .end_) : o < n ∧ n < e ↔ o ∈ A := by
  constructor
  · rintro ⟨hon, hlt⟩
    obtain ⟨⟨outer, houter⟩, -⟩ := h
    -- it is unmatched at the `end` and stands before the place, so it was not opened since
    rcases mem_of_unmatchedBefore (Nat.le_of_lt hlt) hA houter o List.mem_cons_self with hmem | hle
    · exact hmem
    · omega
  · intro ho
    refine ⟨(sorted_unmatchedBefore hA).2 o ho, Nat.lt_of_not_le fun hle => ?_⟩
    rcases Nat.lt_or_eq_of_le hle with hlt | rfl
    · exact h.not_mem_of_lt hlt hA ho
    · exact hne h.2

end Matches

/-! ## Counting openers -/

theorem openers_append (hij : i ≤ j) (hjn : j ≤ n) : openers tokens i j ++ openers tokens j n = openers tokens i n := by
  obtain ⟨a, rfl⟩ := Nat.exists_eq_add_of_le hij
  obtain ⟨b, rfl⟩ := Nat.exists_eq_add_of_le hjn
  have hrange : List.range' i a ++ List.range' (i + a) b = List.range' i (a + b) := by
    have := @List.range'_append i a b 1
    rwa [Nat.one_mul] at this
  unfold openers
  rw [← List.filter_append, Nat.add_sub_cancel_left, Nat.add_sub_cancel_left, hrange, Nat.add_assoc,
    Nat.add_sub_cancel_left]

theorem openers_self : openers tokens i i = [] := by
  unfold openers
  rw [Nat.sub_self]
  rfl

theorem openers_of_none (ht : tokens[i]? = some t) (hk : t.kind.opener? = none) : openers tokens i (i + 1) = [] := by
  unfold openers
  rw [Nat.add_sub_cancel_left]
  simp [ht, hk]

theorem openers_opener (ht : tokens[i]? = some t) {kind : BlockKind} (hk : t.kind.opener? = some kind) :
    openers tokens i (i + 1) = [i] := by
  unfold openers
  rw [Nat.add_sub_cancel_left]
  simp [ht, hk]

/-- **No opener stands between two places**, the second of which is not before the first. -/
structure Clear (tokens : List Token) (i j : Nat) : Prop where
  le : i ≤ j
  none : openers tokens i j = []

namespace Clear

theorem refl (tokens : List Token) (i : Nat) : Clear tokens i i := ⟨Nat.le_refl i, openers_self⟩

theorem trans (h : Clear tokens i j) (h' : Clear tokens j n) : Clear tokens i n := by
  refine ⟨Nat.le_trans h.le h'.le, ?_⟩
  rw [← openers_append h.le h'.le, h.none, h'.none]
  rfl

end Clear

end Token

end Helios
