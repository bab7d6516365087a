/-!
# Blanks and trimming

Two classes of blank characters occur. `isBlank` is the white space of the Unicode character
database (property `White_Space`); it decides what trimming removes. `isSpacing` is the smaller
class of space, tab, carriage return and line feed, the only blanks that may separate the tokens
of a filter line or of a JSON text.

Texts are handled as lists of characters, so that every function here is a recursion on the text.
-/

namespace FilterQuery.Text

/-- White space by the Unicode property `White_Space`. -/
def isBlank (c : Char) : Bool :=
  let n := c.toNat
  (0x09 ≤ n && n ≤ 0x0D) || n == 0x20 || n == 0x85 || n == 0xA0 || n == 0x1680 ||
    (0x2000 ≤ n && n ≤ 0x200A) || n == 0x2028 || n == 0x2029 || n == 0x202F || n == 0x205F ||
    n == 0x3000

/-- The blanks allowed between tokens: space, tab, carriage return and line feed. -/
def isSpacing (c : Char) : Bool :=
  c == ' ' || c == '\t' || c == '\r' || c == '\n'

theorem isBlank_of_isSpacing {c : Char} (h : isSpacing c) : isBlank c := by
  simp only [isSpacing, Bool.or_eq_true, beq_iff_eq] at h
  rcases h with ((rfl | rfl) | rfl) | rfl <;> rfl

/-- Drops the spacing at the start of a text. -/
def skipSpacing (s : List Char) : List Char := s.dropWhile isSpacing

/-! ## Trimming -/

def trimStart (s : List Char) : List Char := s.dropWhile isBlank

def trimEnd (s : List Char) : List Char := (s.reverse.dropWhile isBlank).reverse

/-- Drops the blanks at both ends of a text. -/
def trim (s : List Char) : List Char := trimEnd (trimStart s)

@[simp] theorem trim_nil : trim [] = [] := rfl

end FilterQuery.Text
