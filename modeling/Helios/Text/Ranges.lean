/-!
# Sets of code points

A property of characters is a set of code points, kept as disjoint closed ranges in ascending order.
The tables of this library are written as text, hexadecimal bounds separated by blanks
(`41-5A 61-7A AA`), which `Ranges.ofText` reads; membership is a binary search. Complements leave out the
surrogates, which are no characters.
-/

namespace Helios.Text

/-- **A set of code points**: disjoint closed ranges in ascending order. -/
structure Ranges where
  spans : Array (Nat × Nat)
  deriving Inhabited, Repr

namespace Ranges

/-- The value of a hexadecimal digit; other characters count as zero. -/
def hexDigit (c : Char) : Nat :=
  if '0' ≤ c ∧ c ≤ '9' then c.toNat - '0'.toNat
  else if 'A' ≤ c ∧ c ≤ 'F' then c.toNat - 'A'.toNat + 10
  else if 'a' ≤ c ∧ c ≤ 'f' then c.toNat - 'a'.toNat + 10
  else 0

/-- The number a run of hexadecimal digits denotes. -/
def hexNumber (cs : List Char) : Nat :=
  cs.foldl (fun n c => 16 * n + hexDigit c) 0

/-- One entry of a table: `AA` is the range of one point, `41-5A` names both ends. -/
def spanOfText (cs : List Char) : Nat × Nat :=
  let lo := cs.takeWhile (· ≠ '-')
  match cs.dropWhile (· ≠ '-') with
  | [] => (hexNumber lo, hexNumber lo)
  | _ :: hi => (hexNumber lo, hexNumber hi)

/-- What separates the entries of a table. -/
def isSeparator (c : Char) : Bool := c == ' ' || c == '\n'

/-- The entries of a table, which are separated by blanks and ends of lines. -/
def entries (text : String) : List (List Char) :=
  (text.toList.splitBy fun a b => isSeparator a == isSeparator b).filter fun e => !e.any isSeparator

/-- Read a table whose entries are in ascending order. -/
def ofText (text : String) : Ranges := ⟨((entries text).map spanOfText).toArray⟩

/-- Binary search for `n` in `spans[lo..hi)`; `fuel` bounds the number of halvings. -/
def search (spans : Array (Nat × Nat)) (n : Nat) : Nat → Nat → Nat → Bool
  | 0, _, _ => false
  | fuel + 1, lo, hi =>
    if hi ≤ lo then false
    else
      let mid := (lo + hi) / 2
      match spans[mid]? with
      | none => false
      | some (a, b) =>
        if n < a then search spans n fuel lo mid
        else if b < n then search spans n fuel (mid + 1) hi
        else true

/-- Membership of a code point. The search halves its range, so `size + 1` steps are plenty. -/
def contains (r : Ranges) (n : Nat) : Bool :=
  search r.spans n (r.spans.size + 1) 0 r.spans.size

/-- Membership of a character. -/
def mem (r : Ranges) (c : Char) : Bool := r.contains c.toNat

/-- The one character of a set, if it has no other. -/
def single? (r : Ranges) : Option Char :=
  match r.spans.toList with
  | [(a, b)] => if a = b then some (Char.ofNat a) else none
  | _ => none

/-- Whether all characters of a set are ASCII. -/
def isAscii (r : Ranges) : Bool := r.spans.all fun span => span.2 < 0x80

/-! ## Operations -/

/-- Ascending spans as disjoint ones: a span is joined with those after it that it touches. -/
def joinSpans : Nat × Nat → List (Nat × Nat) → List (Nat × Nat)
  | span, [] => [span]
  | (a, b), (c, d) :: rest =>
    if c ≤ b + 1 then joinSpans (a, max b d) rest else (a, b) :: joinSpans (c, d) rest

/-- The set of what is in some spans, which ascend by their lower ends. -/
def ofSpans : List (Nat × Nat) → Ranges
  | [] => ⟨#[]⟩
  | span :: rest => ⟨(joinSpans span rest).toArray⟩

/-- The set of some code points. -/
def ofPoints (points : List Nat) : Ranges :=
  ofSpans ((points.map fun n => (n, n)).mergeSort fun a b => a.1 ≤ b.1)

/-- What is in one set or the other. -/
def union (r s : Ranges) : Ranges := ofSpans (r.spans.toList.merge s.spans.toList fun a b => a.1 ≤ b.1)

/-- What is in one of some sets. -/
def unions (sets : List Ranges) : Ranges := sets.foldl union ⟨#[]⟩

/-- What lies between ascending disjoint spans, from a code point on. -/
def gaps : Nat → List (Nat × Nat) → List (Nat × Nat)
  | start, [] => if start ≤ 0x10FFFF then [(start, 0x10FFFF)] else []
  | start, (a, b) :: rest => if start < a then (start, a - 1) :: gaps (b + 1) rest else gaps (b + 1) rest

/-- The characters that are not in a set. -/
def compl (r : Ranges) : Ranges := ⟨(gaps 0 (r.union ⟨#[(0xD800, 0xDFFF)]⟩).spans.toList).toArray⟩

/-- The characters that are in both sets. -/
def inter (r s : Ranges) : Ranges := (r.compl.union s.compl).compl

/-- The characters that are in the first set and not in the second. -/
def diff (r s : Ranges) : Ranges := (r.compl.union s).compl

end Ranges

end Helios.Text
