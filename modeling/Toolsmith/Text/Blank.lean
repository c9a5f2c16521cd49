/-!
Blank characters, and trimming them from both ends of a text.

`isWhitespace` is the Unicode property White_Space. `isBlank` adds the four information separators
U+001C to U+001F, which separate text without being white space.
-/

set_option autoImplicit false

namespace Toolsmith.Text

def isWhitespace (c : Char) : Bool :=
  let n := c.toNat
  (0x09 ≤ n && n ≤ 0x0D) || (0x2000 ≤ n && n ≤ 0x200A) ||
    [0x20, 0x85, 0xA0, 0x1680, 0x2028, 0x2029, 0x202F, 0x205F, 0x3000].contains n

def isBlank (c : Char) : Bool :=
  isWhitespace c || (0x1C ≤ c.toNat && c.toNat ≤ 0x1F)

/-- Drops the characters of a class from both ends. -/
def trimBy (drop : Char → Bool) (text : List Char) : List Char :=
  ((text.dropWhile drop).reverse.dropWhile drop).reverse

def trim (text : List Char) : List Char :=
  trimBy isBlank text

@[simp] theorem trimBy_nil (drop : Char → Bool) : trimBy drop [] = [] := rfl

@[simp] theorem trim_nil : trim [] = [] := rfl

end Toolsmith.Text
