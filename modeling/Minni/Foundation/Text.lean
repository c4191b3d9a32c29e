import Mathlib.Data.List.Lex
import Mathlib.Data.List.Sort

/-!
# Strings of the host language

White space, trimming, code units and the default order of strings, as the
host language has them.  A string is a sequence of Unicode scalar values.
-/

namespace Minni
namespace Foundation
namespace Text

def isWhitespace (c : Char) : Bool :=
  (9 ≤ c.toNat && c.toNat ≤ 13) || c.toNat = 0x20 || c.toNat = 0xa0 ||
    c.toNat = 0x1680 || (0x2000 ≤ c.toNat && c.toNat ≤ 0x200a) ||
    c.toNat = 0x2028 || c.toNat = 0x2029 || c.toNat = 0x202f ||
    c.toNat = 0x205f || c.toNat = 0x3000 || c.toNat = 0xfeff

def trimStart (cs : List Char) : List Char :=
  cs.dropWhile isWhitespace

def trimEnd (cs : List Char) : List Char :=
  (cs.reverse.dropWhile isWhitespace).reverse

def trimChars (cs : List Char) : List Char :=
  trimEnd (trimStart cs)

def trim (s : String) : String :=
  String.ofList (trimChars s.toList)

def isBlank (s : String) : Bool :=
  trim s = ""

/-- The text of a field that the host tests for truth: an empty string counts
as absent. -/
def truthy (s : Option String) : Option String :=
  s.filter fun text => text ≠ ""

def utf16Units (s : String) : List Nat :=
  s.toList.flatMap fun c =>
    if c.toNat < 0x10000 then [c.toNat]
    else
      [0xd800 + (c.toNat - 0x10000) / 0x400,
        0xdc00 + (c.toNat - 0x10000) % 0x400]

def length (s : String) : Nat :=
  (utf16Units s).length

def sortStrings (xs : List String) : List String :=
  xs.insertionSort fun a b => utf16Units a ≤ utf16Units b

def join (separator : String) (xs : List String) : String :=
  String.intercalate separator xs

/-!
## Trimming
-/

theorem trimStart_of_head
    {c : Char} {cs : List Char} (h : isWhitespace c = false) :
    trimStart (c :: cs) = c :: cs := by
  simp [trimStart, h]

theorem trimEnd_append_of_last
    {cs : List Char} {c : Char} (h : isWhitespace c = false) :
    trimEnd (cs ++ [c]) = cs ++ [c] := by
  simp [trimEnd, h]

end Text
end Foundation
end Minni
