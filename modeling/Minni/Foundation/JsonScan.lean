import Minni.Foundation.Json

/-!
# Reading JSON

`JSON.parse` as a scanner that takes one character after another.  The state
holds the containers that are still open, so what a text that ends too early
leaves behind is a state that is not final.
-/

namespace Minni
namespace Foundation
namespace Json

/-!
## Strings
-/

inductive Escape where
  | none
  | pending
  /-- The value and the number of the hexadecimal digits read. -/
  | hex (value count : Nat)
deriving DecidableEq

/-- A string under way: its characters, the last one first, and the high
surrogate that still waits for its low one. -/
structure Letters where
  text : List Char
  high : Option Nat
  escape : Escape
deriving DecidableEq

inductive LettersStep where
  | more (letters : Letters)
  | closed (text : String)
  | bad

namespace Letters

def empty : Letters where
  text := []
  high := none
  escape := Escape.none

def replacement : Char := Char.ofNat 0xfffd

/-- A surrogate that stays alone is no scalar value. -/
def flush (l : Letters) : List Char :=
  match l.high with
  | none => l.text
  | some _ => replacement :: l.text

def push (l : Letters) (c : Char) : Letters where
  text := c :: l.flush
  high := none
  escape := Escape.none

def isHigh (unit : Nat) : Bool :=
  decide (0xd800 ≤ unit) && decide (unit < 0xdc00)

def isLow (unit : Nat) : Bool :=
  decide (0xdc00 ≤ unit) && decide (unit < 0xe000)

def pushUnit (l : Letters) (unit : Nat) : Letters :=
  match l.high with
  | some high =>
      if isLow unit then
        { text :=
            Char.ofNat (0x10000 + (high - 0xd800) * 0x400 + (unit - 0xdc00)) ::
              l.text
          high := none
          escape := Escape.none }
      else if isHigh unit then
        { text := l.flush, high := some unit, escape := Escape.none }
      else
        l.push (Char.ofNat unit)
  | none =>
      if isHigh unit then
        { text := l.text, high := some unit, escape := Escape.none }
      else if isLow unit then
        l.push replacement
      else
        l.push (Char.ofNat unit)

def hexValue (c : Char) : Option Nat :=
  if '0' ≤ c ∧ c ≤ '9' then some (c.toNat - 48)
  else if 'a' ≤ c ∧ c ≤ 'f' then some (c.toNat - 87)
  else if 'A' ≤ c ∧ c ≤ 'F' then some (c.toNat - 55)
  else none

def escaped (c : Char) : Option Char :=
  if c = '"' then some '"'
  else if c = '\\' then some '\\'
  else if c = '/' then some '/'
  else if c = 'b' then some (Char.ofNat 8)
  else if c = 'f' then some (Char.ofNat 12)
  else if c = 'n' then some '\n'
  else if c = 'r' then some '\r'
  else if c = 't' then some '\t'
  else none

def step (l : Letters) (c : Char) : LettersStep :=
  match l.escape with
  | Escape.none =>
      if c = '"' then
        LettersStep.closed (String.ofList l.flush.reverse)
      else if c = '\\' then
        LettersStep.more { l with escape := Escape.pending }
      else if c.toNat < 32 then
        LettersStep.bad
      else
        LettersStep.more (l.push c)
  | Escape.pending =>
      if c = 'u' then
        LettersStep.more { l with escape := Escape.hex 0 0 }
      else
        match escaped c with
        | some d => LettersStep.more (l.push d)
        | none => LettersStep.bad
  | Escape.hex value count =>
      match hexValue c with
      | none => LettersStep.bad
      | some digit =>
          if count = 3 then
            LettersStep.more (l.pushUnit (value * 16 + digit))
          else
            LettersStep.more
              { l with escape := Escape.hex (value * 16 + digit) (count + 1) }

end Letters

/-!
## Numbers and literals
-/

def isExponent : List Char -> Bool
  | [] => true
  | c :: rest =>
      (c = 'e' || c = 'E') &&
        match rest with
        | [] => false
        | d :: digits =>
            if d = '+' ∨ d = '-' then
              !digits.isEmpty && digits.all Char.isDigit
            else
              (d :: digits).all Char.isDigit

/-- What may follow the integer part of a number. -/
def isFraction : List Char -> Bool
  | '.' :: rest =>
      !(rest.takeWhile Char.isDigit).isEmpty &&
        isExponent (rest.dropWhile Char.isDigit)
  | rest => isExponent rest

/-- The number of this text, with or without its sign.  A number with a
fraction or an exponent keeps its text. -/
def unsignedOf (negative : Bool) (whole cs : List Char) : Option JsonNumber :=
  let digits := cs.takeWhile Char.isDigit
  let rest := cs.dropWhile Char.isDigit
  if digits.isEmpty || (digits.length > 1 && digits.head? = some '0') then none
  else if rest.isEmpty then
    let value : Int := Nat.ofDigitChars 10 digits 0
    some (JsonNumber.int (if negative then -value else value))
  else if isFraction rest then
    some (JsonNumber.other (String.ofList whole))
  else
    none

def numberOf (cs : List Char) : Option JsonNumber :=
  match cs with
  | '-' :: rest => unsignedOf true cs rest
  | _ => unsignedOf false cs cs

/-- The value of a token that stands without quotes. -/
def bareValue (cs : List Char) : Option Json :=
  if cs = "null".toList then some Json.null
  else if cs = "true".toList then some (Json.bool true)
  else if cs = "false".toList then some (Json.bool false)
  else (numberOf cs).map Json.num

/-!
## Values
-/

/-- A container that is still open, with what it holds so far, the last one
first. -/
inductive Frame where
  | arr (done : List Json)
  | obj (done : List (String × Json)) (key : String)

inductive Scan where
  | failed
  | value (stack : List Frame)
  | firstItem (stack : List Frame)
  | firstKey (stack : List Frame)
  | nextKey (done : List (String × Json)) (stack : List Frame)
  | key (done : List (String × Json)) (stack : List Frame) (letters : Letters)
  | colon (done : List (String × Json)) (key : String) (stack : List Frame)
  | string (stack : List Frame) (letters : Letters)
  | bare (stack : List Frame) (text : List Char)
  | after (stack : List Frame) (v : Json)

namespace Scan

def isBlank (c : Char) : Bool :=
  c = ' ' || c = '\t' || c = '\n' || c = '\r'

def endsBare (c : Char) : Bool :=
  isBlank c || c = ',' || c = ']' || c = '\x7d'

/-- A key that comes again gives the old one its value. -/
def addField (done : List (String × Json)) (name : String) (v : Json) :
    List (String × Json) :=
  if done.any (fun f => f.1 = name) then
    done.map fun f => if f.1 = name then (name, v) else f
  else
    (name, v) :: done

def startValue (stack : List Frame) (c : Char) : Scan :=
  if c = '"' then string stack Letters.empty
  else if c = '[' then firstItem stack
  else if c = '\x7b' then firstKey stack
  else if endsBare c then failed
  else bare stack [c]

def stepAfter (stack : List Frame) (v : Json) (c : Char) : Scan :=
  if isBlank c then after stack v
  else
    match stack with
    | [] => failed
    | Frame.arr done :: outer =>
        if c = ',' then value (Frame.arr (v :: done) :: outer)
        else if c = ']' then after outer (Json.arr (v :: done).reverse)
        else failed
    | Frame.obj done name :: outer =>
        if c = ',' then nextKey (addField done name v) outer
        else if c = '\x7d' then
          after outer (Json.obj (addField done name v).reverse)
        else failed

def stepBare (stack : List Frame) (text : List Char) (c : Char) : Scan :=
  if endsBare c then
    match bareValue text.reverse with
    | some v => stepAfter stack v c
    | none => failed
  else
    bare stack (c :: text)

def step (s : Scan) (c : Char) : Scan :=
  match s with
  | failed => failed
  | value stack => if isBlank c then s else startValue stack c
  | firstItem stack =>
      if isBlank c then s
      else if c = ']' then after stack (Json.arr [])
      else startValue (Frame.arr [] :: stack) c
  | firstKey stack =>
      if isBlank c then s
      else if c = '\x7d' then after stack (Json.obj [])
      else if c = '"' then key [] stack Letters.empty
      else failed
  | nextKey done stack =>
      if isBlank c then s
      else if c = '"' then key done stack Letters.empty
      else failed
  | key done stack letters =>
      match letters.step c with
      | LettersStep.more next => key done stack next
      | LettersStep.closed text => colon done text stack
      | LettersStep.bad => failed
  | colon done name stack =>
      if isBlank c then s
      else if c = ':' then value (Frame.obj done name :: stack)
      else failed
  | string stack letters =>
      match letters.step c with
      | LettersStep.more next => string stack next
      | LettersStep.closed text => after stack (Json.str text)
      | LettersStep.bad => failed
  | bare stack text => stepBare stack text c
  | after stack v => stepAfter stack v c

def run (s : Scan) (cs : List Char) : Scan :=
  cs.foldl step s

def finish : Scan -> Option Json
  | after [] v => some v
  | bare [] text => bareValue text.reverse
  | _ => none

theorem run_append (s : Scan) (cs ds : List Char) :
    s.run (cs ++ ds) = (s.run cs).run ds :=
  List.foldl_append

theorem run_cons (s : Scan) (c : Char) (cs : List Char) :
    s.run (c :: cs) = (s.step c).run cs :=
  rfl

end Scan

def parse (cs : List Char) : Option Json :=
  (Scan.run (Scan.value []) cs).finish

example :
    (parse "\x7b\"a\": [1, -20, true, \"x\\u00e9\"]\x7d".toList).map
        stringify =
      some "\x7b\"a\":[1,-20,true,\"xé\"]\x7d".toList := by
  decide +kernel

end Json
end Foundation
end Minni
