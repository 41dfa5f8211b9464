/-!
# White space

The characters with the Unicode property White_Space, and trimming by them.
-/

namespace RepairLedger.Text

/-- The characters with the Unicode property White_Space. -/
def isBlank (c : Char) : Bool :=
  let n := c.toNat
  (9 ≤ n && n ≤ 13) || n == 0x20 || n == 0x85 || n == 0xA0 || n == 0x1680 ||
    (0x2000 ≤ n && n ≤ 0x200A) || n == 0x2028 || n == 0x2029 || n == 0x202F || n == 0x205F ||
    n == 0x3000

/-- A text without the blanks it starts with. -/
def trimLeft (cs : List Char) : List Char :=
  cs.dropWhile isBlank

/-- A text without the blanks at both of its ends. -/
def trim (cs : List Char) : List Char :=
  (trimLeft (trimLeft cs).reverse).reverse

/-- Is there nothing but blanks? -/
def isBlankText (s : String) : Bool :=
  s.toList.all isBlank

/-- A text without the letters `c` it ends with. -/
def trimRightOf (c : Char) (cs : List Char) : List Char :=
  (cs.reverse.dropWhile (· == c)).reverse

example : trim [' ', '\t', 'a', ' ', 'b', Char.ofNat 0x3000] = ['a', ' ', 'b'] := by decide

end RepairLedger.Text
