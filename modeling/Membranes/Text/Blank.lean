/-!
# White space, trimming and pieces

A character is blank when it has the Unicode property White_Space. `trim` drops the blanks at both
ends of a text, and `pieces` cuts a text at its separators and keeps the non-empty parts, so that
`words` are the maximal blank-free stretches.

All three work on lists of characters.  A text is cut from its end (`List.foldr`), which keeps long
lines off the call stack.
-/

namespace Membranes.Text

/-- The code points with the property White_Space, as closed ranges in ascending order. -/
def blankRanges : List (Nat × Nat) :=
  [(0x09, 0x0D), (0x20, 0x20), (0x85, 0x85), (0xA0, 0xA0), (0x1680, 0x1680), (0x2000, 0x200A),
   (0x2028, 0x2029), (0x202F, 0x202F), (0x205F, 0x205F), (0x3000, 0x3000)]

/-- Whether a character is white space. -/
def isBlank (c : Char) : Bool :=
  blankRanges.any fun range => range.1 ≤ c.toNat && c.toNat ≤ range.2

/-- A text without the characters at its end that satisfy `drop`. -/
def dropEndWhile (drop : Char → Bool) (s : List Char) : List Char :=
  (s.reverse.dropWhile drop).reverse

/-- A text without its blanks at either end. -/
def trim (s : List Char) : List Char :=
  dropEndWhile isBlank (s.dropWhile isBlank)

/-- Adds one character in front of a text that is already cut: a separator opens a new part, any
other character extends the first part. -/
def cutStep (separates : Char → Bool) (c : Char) : List (List Char) → List (List Char)
  | [] => if separates c then [[], []] else [[c]]
  | part :: parts => if separates c then [] :: part :: parts else (c :: part) :: parts

/-- A text cut at every separator; `n` separators give `n + 1` parts, some of them empty. -/
def cut (separates : Char → Bool) (s : List Char) : List (List Char) :=
  s.foldr (cutStep separates) [[]]

/-- The maximal stretches of a text without a separator. -/
def pieces (separates : Char → Bool) (s : List Char) : List (List Char) :=
  (cut separates s).filter fun part => !part.isEmpty

/-- The maximal blank-free stretches of a text. -/
def words (s : List Char) : List (List Char) :=
  pieces isBlank s

/-- Whether a text has nothing but blanks. -/
def isBlankText (s : List Char) : Bool :=
  s.all isBlank

end Membranes.Text
