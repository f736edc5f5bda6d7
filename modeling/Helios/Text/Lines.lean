/-!
# Blanks, lines and indentation

Trimming and splitting into words use the Unicode property `White_Space`, which is larger than the
blanks the lexer skips between tokens. Texts are cut at line breaks, and a block of lines loses the
indentation that all of its lines share. Everything here works on lists of characters.
-/

namespace Helios.Text

/-! ## Blank characters -/

/-- The Unicode property `White_Space`. -/
def isBlank (c : Char) : Bool :=
  let n := c.toNat
  (0x9 ≤ n && n ≤ 0xD) || n == 0x20 || n == 0x85 || n == 0xA0 || n == 0x1680
    || (0x2000 ≤ n && n ≤ 0x200A) || n == 0x2028 || n == 0x2029 || n == 0x202F || n == 0x205F
    || n == 0x3000

/-- Drop leading blanks. -/
def trimStart (cs : List Char) : List Char := cs.dropWhile isBlank

/-- Drop trailing blanks. -/
def trimEnd (cs : List Char) : List Char := (cs.reverse.dropWhile isBlank).reverse

/-- Drop blanks at both ends. -/
def trim (cs : List Char) : List Char := trimEnd (trimStart cs)

/-- The maximal runs of characters that are not blank, in order. -/
def words (cs : List Char) : List (List Char) :=
  (cs.splitBy fun a b => isBlank a == isBlank b).filter fun run => !run.any isBlank

/-! ## Lines -/

/-- The lines of a text, without their line breaks. A text without any is one line. -/
def splitLines : List Char → List (List Char)
  | [] => [[]]
  | c :: cs =>
    if c = '\n' then [] :: splitLines cs
    else match splitLines cs with
      | [] => [[c]]
      | line :: rest => (c :: line) :: rest

/-- Put lines together again, a line break between any two. -/
def joinLines : List (List Char) → List Char
  | [] => []
  | [line] => line
  | line :: rest => line ++ '\n' :: joinLines rest

theorem splitLines_ne_nil (cs : List Char) : splitLines cs ≠ [] := by
  cases cs with
  | nil => simp [splitLines]
  | cons c cs => simp only [splitLines]; split <;> (try split) <;> simp

theorem joinLines_cons_cons (line next : List Char) (rest : List (List Char)) :
    joinLines (line :: next :: rest) = line ++ '\n' :: joinLines (next :: rest) := rfl

/-- **Cutting into lines loses nothing.** -/
@[simp] theorem joinLines_splitLines (cs : List Char) : joinLines (splitLines cs) = cs := by
  induction cs with
  | nil => rfl
  | cons c cs ih =>
    simp only [splitLines]
    obtain ⟨line, rest, h⟩ := List.exists_cons_of_ne_nil (splitLines_ne_nil cs)
    split
    · next hc => rw [h] at ih ⊢; rw [joinLines_cons_cons, ih, hc]; rfl
    · rw [h] at ih ⊢
      cases rest with
      | nil => simpa [joinLines] using ih
      | cons next rest => simpa [joinLines_cons_cons] using ih

/-- The number of bytes of a text in UTF-8. -/
def byteLength (cs : List Char) : Nat := cs.foldr (fun c n => c.utf8Size + n) 0

/-- Cut `n` bytes off the front; `none` when the cut falls inside a character or past the end. -/
def dropBytes : Nat → List Char → Option (List Char)
  | 0, cs => some cs
  | _ + 1, [] => none
  | n + 1, c :: cs => if c.utf8Size ≤ n + 1 then dropBytes (n + 1 - c.utf8Size) cs else none

/-- A space or a tab: what indentation is made of. -/
def isIndent (c : Char) : Bool := c == ' ' || c == '\t'

/-- The indentation of a line. -/
def indentOf (line : List Char) : Nat := (line.takeWhile isIndent).length

/-- A line without its trailing carriage return, if it ends in one. -/
def dropReturn (line : List Char) : List Char :=
  if line.getLast? = some '\r' then line.dropLast else line

/-- The indentation that all lines share, lines of blanks only not counted. -/
def commonIndent (lines : List (List Char)) : Nat :=
  ((lines.filter fun l => trim l ≠ []).map indentOf).min?.getD 0

/-- One line of a block without `indent` bytes of indentation. A shorter line is blank and loses its
    leading blanks. -/
def dedentLine (indent : Nat) (line : List Char) : Option (List Char) :=
  let line := dropReturn line
  if indent ≤ byteLength line then dropBytes indent line else some (trimStart line)

/-- A block of lines without its common indentation, every line ended by a line break. `none` when a
    cut would split a character of a blank line. -/
def dedent (lines : List (List Char)) : Option (List Char) :=
  (lines.mapM (dedentLine (commonIndent lines))).map fun ls => ls.flatMap (· ++ ['\n'])

end Helios.Text
