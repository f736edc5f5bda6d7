/-!
# Texts as bytes

A text in UTF-8, and the way back. Bytes that are no text are read with a replacement character for
every piece that cannot be part of one.
-/

namespace Helios.Text

/-- What stands for bytes that are no text. -/
def replacement : Char := '\ufffd'

/-- What a leading byte asks for: bounds of the second byte, and how many bytes follow that one. -/
def following? (b : Nat) : Option (Nat × Nat × Nat) :=
  if 0xC2 ≤ b ∧ b ≤ 0xDF then some (0x80, 0xBF, 0)
  else if b = 0xE0 then some (0xA0, 0xBF, 1)
  else if b = 0xED then some (0x80, 0x9F, 1)
  else if 0xE1 ≤ b ∧ b ≤ 0xEF then some (0x80, 0xBF, 1)
  else if b = 0xF0 then some (0x90, 0xBF, 2)
  else if b = 0xF4 then some (0x80, 0x8F, 2)
  else if 0xF1 ≤ b ∧ b ≤ 0xF3 then some (0x80, 0xBF, 2)
  else none

/-- Collect bytes of a character: `code` so far, `left` bytes to come after the next. The character,
    or `none`, and what is left to read. -/
def collect (code low high : Nat) : Nat → List UInt8 → Option Nat × List UInt8
  | _, [] => (none, [])
  | left, b :: rest =>
    if b.toNat < low ∨ high < b.toNat then (none, b :: rest)
    else
      let code := code * 64 + b.toNat % 64
      match left with
      | 0 => (some code, rest)
      | left + 1 => collect code 0x80 0xBF left rest

theorem collect_length_le (code low high left : Nat) (bs : List UInt8) :
    (collect code low high left bs).2.length ≤ bs.length := by
  fun_induction collect code low high left bs with
  | case1 => exact Nat.le_refl _
  | case2 => exact Nat.le_refl _
  | case3 => exact Nat.le_succ _
  | case4 _ _ _ _ _ _ _ _ ih => exact Nat.le_succ_of_le ih

/-- The leading bits of a character in its first byte, when `more` bytes follow the second. -/
def leadBits (b more : Nat) : Nat := if more = 0 then b % 32 else if more = 1 then b % 16 else b % 8

/-- Read bytes piece by piece. -/
def decodeBytes : List UInt8 → List Char
  | [] => []
  | b :: rest =>
    if b.toNat < 0x80 then Char.ofNat b.toNat :: decodeBytes rest
    else match following? b.toNat with
      | none => replacement :: decodeBytes rest
      | some (low, high, more) =>
        ((collect (leadBits b.toNat more) low high more rest).1.elim replacement Char.ofNat)
          :: decodeBytes (collect (leadBits b.toNat more) low high more rest).2
  termination_by bs => bs.length
  decreasing_by
    all_goals simp_wf
    have := collect_length_le (leadBits b.toNat more) low high more rest
    omega

/-- **The text of some bytes.** Bytes that are a text give that text. -/
def decode (bytes : ByteArray) : String :=
  match String.fromUTF8? bytes with
  | some s => s
  | none => String.ofList (decodeBytes bytes.toList)

/-! ## There and back -/

theorem toList_loop_eq (bs : ByteArray) (i : Nat) (r : List UInt8) :
    ByteArray.toList.loop bs i r = r.reverse ++ bs.data.toList.drop i := by
  fun_induction ByteArray.toList.loop bs i r with
  | case1 i r h ih =>
    have hi : i < bs.data.toList.length := h
    have hget : bs.get! i = bs.data.toList[i] := getElem!_pos bs.data i h
    rw [ih, List.drop_eq_getElem_cons hi, hget]
    simp
  | case2 i r h =>
    have hi : bs.data.toList.length ≤ i := Nat.le_of_not_lt h
    rw [List.drop_eq_nil_of_le hi, List.append_nil]

theorem ofList_toList (bs : ByteArray) : (⟨bs.toList.toArray⟩ : ByteArray) = bs := by
  unfold ByteArray.toList
  rw [toList_loop_eq]
  rfl

/-- **The bytes of a text give that text.** -/
@[simp] theorem decode_toUTF8 (s : String) : decode ⟨s.toUTF8.toList.toArray⟩ = s := by
  rw [ofList_toList]
  unfold decode String.fromUTF8?
  have h : s.toUTF8.IsValidUTF8 := s.isValidUTF8
  rw [dif_pos h]
  rfl

end Helios.Text
