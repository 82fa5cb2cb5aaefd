import MailServer.Decimal
import MailServer.Json.Value

/-!
# Writing JSON

Values are written without blanks. In a string the quote, the backslash and the characters below
U+0020 are escaped, by a letter where JSON has one, and nothing else is.

* `MailServer.Json.numberLayout` is where a double changes to an exponent.
* `MailServer.Json.Value.chars` writes a value.
-/

namespace MailServer.Json

/-- Doubles are written positionally from `0.00001` up to `1000000000000000.0`. -/
def numberLayout : Decimal.Layout := ⟨-5, 15⟩

/-- A finite double with its sign, the sign of zero included. -/
def doubleChars (x : Float) : List Char :=
  let magnitude := Decimal.chars numberLayout (Decimal.ofFloat x)
  if x.toBits.toNat < Nat.pow 2 63 then magnitude else '-' :: magnitude

/-- A number in decimal. -/
def Number.chars : Number → List Char
  | .natural n => Nat.toDigits 10 n.toNat
  | .negative n => '-' :: Nat.toDigits 10 (n.val + 1)
  | .double x => doubleChars x

/-- The digit of a number below sixteen, in lower case. -/
def hexDigit (n : Nat) : Char := Nat.digitChar n

/-- One character inside a string literal. -/
def escapedChar (c : Char) : List Char :=
  if c = '"' then ['\\', '"']
  else if c = '\\' then ['\\', '\\']
  else if c = '\x08' then ['\\', 'b']
  else if c = '\t' then ['\\', 't']
  else if c = '\n' then ['\\', 'n']
  else if c = '\x0c' then ['\\', 'f']
  else if c = '\r' then ['\\', 'r']
  else if c.toNat < 0x20 then
    ['\\', 'u', '0', '0', hexDigit (c.toNat / 16), hexDigit (c.toNat % 16)]
  else [c]

/-- A string literal. -/
def stringChars (s : String) : List Char := '"' :: s.toList.flatMap escapedChar ++ ['"']

namespace Value

mutual

/-- A value. -/
def chars : Value → List Char
  | null => ['n', 'u', 'l', 'l']
  | bool true => ['t', 'r', 'u', 'e']
  | bool false => ['f', 'a', 'l', 's', 'e']
  | number n => n.chars
  | string s => stringChars s
  | array items => '[' :: itemsChars items
  | object members => '\x7b' :: membersChars members

/-- The items of a list and its closing bracket. -/
def itemsChars : List Value → List Char
  | [] => [']']
  | v :: rest => chars v ++ moreItemsChars rest

/-- The items after the first, each behind a comma, and the closing bracket. -/
def moreItemsChars : List Value → List Char
  | [] => [']']
  | v :: rest => ',' :: chars v ++ moreItemsChars rest

/-- The members of an object and its closing brace. -/
def membersChars : List (String × Value) → List Char
  | [] => ['\x7d']
  | (k, v) :: rest => stringChars k ++ ':' :: chars v ++ moreMembersChars rest

/-- The members after the first, each behind a comma, and the closing brace. -/
def moreMembersChars : List (String × Value) → List Char
  | [] => ['\x7d']
  | (k, v) :: rest => ',' :: stringChars k ++ ':' :: chars v ++ moreMembersChars rest

end

/-- The text of a value. -/
def render (v : Value) : String := String.ofList v.chars

end Value

end MailServer.Json
