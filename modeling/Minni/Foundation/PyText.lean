import Minni.Foundation.Json

/-!
# Strings of the daemon's language

What `str.strip` takes for white space differs from the other host language in
a few characters.  A value counts as true or false, and has a text.
-/

namespace Minni
namespace Foundation
namespace PyText

def isSpace (c : Char) : Bool :=
  (9 ≤ c.toNat && c.toNat ≤ 13) || (0x1c ≤ c.toNat && c.toNat ≤ 0x20) ||
    c.toNat = 0x85 || c.toNat = 0xa0 || c.toNat = 0x1680 ||
    (0x2000 ≤ c.toNat && c.toNat ≤ 0x200a) || c.toNat = 0x2028 ||
    c.toNat = 0x2029 || c.toNat = 0x202f || c.toNat = 0x205f ||
    c.toNat = 0x3000

def stripChars (cs : List Char) : List Char :=
  ((cs.dropWhile isSpace).reverse.dropWhile isSpace).reverse

def strip (s : String) : String :=
  String.ofList (stripChars s.toList)

end PyText

/-- The text of a value; what counts as false has none. -/
def truthyText : Json -> Option String
  | Json.null => none
  | Json.bool b => if b then some "True" else none
  | Json.num n => if n = JsonNumber.int 0 then none
      else some (String.ofList (Json.numberText n))
  | Json.str text => if text = "" then none else some text
  | Json.arr items => if items.isEmpty then none
      else some (String.ofList (Json.stringify (Json.arr items)))
  | Json.obj fields => if fields.isEmpty then none
      else some (String.ofList (Json.stringify (Json.obj fields)))

/-- `str` of a value. -/
def strOf : Json -> String
  | Json.null => "None"
  | Json.bool b => if b then "True" else "False"
  | Json.num n => String.ofList (Json.numberText n)
  | Json.str text => text
  | Json.arr items => String.ofList (Json.stringify (Json.arr items))
  | Json.obj fields => String.ofList (Json.stringify (Json.obj fields))

/-- The first of the fields that counts as true, as a chain of `or` finds
it. -/
def firstTruthy (record : Json) (keys : List String) : Option Json :=
  keys.findSome? fun key =>
    (record.field? key).filter fun value => (truthyText value).isSome

def firstText (record : Json) (keys : List String) : Option String :=
  (firstTruthy record keys).bind truthyText

end Foundation
end Minni
