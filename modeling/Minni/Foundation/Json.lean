import Mathlib.Data.List.Sort

/-!
# JSON values

The values that notes and journals carry, and their compact text.  An integer
is kept as an integer; any other number is kept as the text that a printer of
shortest decimals gives for it.
-/

namespace Minni
namespace Foundation

inductive JsonNumber where
  | int (n : Int)
  | other (text : String)
deriving DecidableEq, Repr

inductive Json where
  | null
  | bool (b : Bool)
  | num (n : JsonNumber)
  | str (s : String)
  | arr (items : List Json)
  | obj (fields : List (String × Json))
deriving Repr

namespace Json

def int (n : Int) : Json :=
  Json.num (JsonNumber.int n)

/-!
## Access
-/

def maxSafeInteger : Int := 9007199254740991

def isSafeInteger (n : Int) : Bool :=
  decide (-maxSafeInteger ≤ n) && decide (n ≤ maxSafeInteger)

def field? (value : Json) (name : String) : Option Json :=
  match value with
  | Json.obj fields => fields.lookup name
  | _ => none

def safeInteger? : Json -> Option Int
  | Json.num (JsonNumber.int n) => if isSafeInteger n then some n else none
  | _ => none

def str? : Json -> Option String
  | Json.str s => some s
  | _ => none

/-!
## Text
-/

def hexDigit (n : Nat) : Char :=
  if n < 10 then Char.ofNat (48 + n) else Char.ofNat (87 + n)

def escapeChar (c : Char) : List Char :=
  if c = '"' then ['\\', '"']
  else if c = '\\' then ['\\', '\\']
  else if c = '\n' then ['\\', 'n']
  else if c = '\r' then ['\\', 'r']
  else if c = '\t' then ['\\', 't']
  else if c.toNat = 8 then ['\\', 'b']
  else if c.toNat = 12 then ['\\', 'f']
  else if c.toNat < 32 then
    ['\\', 'u', '0', '0', hexDigit (c.toNat / 16), hexDigit (c.toNat % 16)]
  else [c]

def quote (s : String) : List Char :=
  '"' :: (s.toList.flatMap escapeChar ++ ['"'])

def numberText : JsonNumber -> List Char
  | JsonNumber.int n => (toString n).toList
  | JsonNumber.other text => text.toList

mutual

def stringify : Json -> List Char
  | Json.null => "null".toList
  | Json.bool true => "true".toList
  | Json.bool false => "false".toList
  | Json.num n => numberText n
  | Json.str s => quote s
  | Json.arr items => '[' :: (stringifyItems items ++ [']'])
  | Json.obj fields => '\x7b' :: (stringifyFields fields ++ ['\x7d'])

def stringifyItems : List Json -> List Char
  | [] => []
  | [item] => stringify item
  | item :: rest => stringify item ++ ',' :: stringifyItems rest

def stringifyFields : List (String × Json) -> List Char
  | [] => []
  | [(key, value)] => quote key ++ ':' :: stringify value
  | (key, value) :: rest =>
      quote key ++ ':' :: (stringify value ++ ',' :: stringifyFields rest)

end

mutual

/-- The value with the keys of every object in order, as the stable printer
visits them. -/
def sortKeys : Json -> Json
  | Json.arr items => Json.arr (sortItems items)
  | Json.obj fields =>
      Json.obj ((sortFields fields).insertionSort fun a b => a.1 ≤ b.1)
  | Json.null => Json.null
  | Json.bool b => Json.bool b
  | Json.num n => Json.num n
  | Json.str s => Json.str s

def sortItems : List Json -> List Json
  | [] => []
  | item :: rest => sortKeys item :: sortItems rest

def sortFields : List (String × Json) -> List (String × Json)
  | [] => []
  | (key, value) :: rest => (key, sortKeys value) :: sortFields rest

end

def stableStringify (value : Json) : List Char :=
  stringify (sortKeys value)

example :
    stableStringify (Json.obj [("b", Json.int 2), ("a", Json.str "x\n")]) =
      "\x7b\"a\":\"x\\n\",\"b\":2\x7d".toList := by
  decide

end Json

end Foundation
end Minni
