/-!
# Blank characters

Two classes of characters that stand for empty space, and the trimming of a text by such a class.

* `isWhiteSpace` is the Unicode property `White_Space`.
* `isBlank` is what header values are stripped of: the white space characters and the four
  information separators `U+001C` to `U+001F`.

A trimmed text neither begins nor ends with a character of the class; nothing inside it is lost.
-/

namespace TransferFees.Text

/-- The Unicode property `White_Space`. -/
def isWhiteSpace (c : Char) : Bool :=
  let n := c.toNat
  (0x09 ≤ n && n ≤ 0x0D) || n == 0x20 || n == 0x85 || n == 0xA0 || n == 0x1680 ||
    (0x2000 ≤ n && n ≤ 0x200A) || n == 0x2028 || n == 0x2029 || n == 0x202F ||
    n == 0x205F || n == 0x3000

/-- White space, or one of the information separators. -/
def isBlank (c : Char) : Bool :=
  isWhiteSpace c || (0x1C ≤ c.toNat && c.toNat ≤ 0x1F)

/-- What remains of `cs` without the characters of the class at its two ends. -/
def trimBy (p : Char → Bool) (cs : List Char) : List Char :=
  ((cs.dropWhile p).reverse.dropWhile p).reverse

/-- A text without the blanks at its two ends. -/
def strip (s : String) : String := String.ofList (trimBy isBlank s.toList)

/-- A text no end of which is in the class is left as it is. -/
theorem trimBy_eq_self {p : Char → Bool} {cs : List Char}
    (hhead : ∀ c ∈ cs.head?, p c = false) (hlast : ∀ c ∈ cs.getLast?, p c = false) :
    trimBy p cs = cs := by
  have hdrop : ∀ l : List Char, (∀ c ∈ l.head?, p c = false) → l.dropWhile p = l := by
    intro l hl
    cases l with
    | nil => rfl
    | cons c r => simp [hl c (by simp)]
  rw [trimBy, hdrop cs hhead, hdrop cs.reverse (by simpa using hlast), List.reverse_reverse]

end TransferFees.Text
