import MailServer.Keyed

/-!
# JSON values

A value of JSON as the server reads and writes it. An integer that fits 64 bits, with or without
a sign, stays an integer; every other number is a binary floating-point number. An object is
written in the order of its members; one that was read has them in the order of their names.

* `MailServer.Json.Number` tells the three kinds of number apart.
* `MailServer.Json.Value` is the type of values.
* `MailServer.Json.Value.ofMembers` builds an object from members in any order.
-/

namespace MailServer.Json

/-- A number: a natural number below `2 ^ 64`, a negative integer from `-2 ^ 63`, or a double. -/
inductive Number where
  | natural (n : UInt64)
  /-- The integer `-1 - n`. -/
  | negative (n : Fin (Nat.pow 2 63))
  | double (x : Float)
deriving DecidableEq

/-- A JSON value. -/
inductive Value where
  | null
  | bool (b : Bool)
  | number (n : Number)
  | string (s : String)
  | array (items : List Value)
  | object (members : List (String × Value))
deriving Inhabited

namespace Value

/-- The value is an object. -/
def isObject : Value → Bool
  | object _ => true
  | _ => false

/-- An object of the given members, a later one winning over an earlier one of the same name. -/
def ofMembers (members : List (String × Value)) : Value := object (Keyed.ofList members)

/-- A natural number that fits 64 bits. -/
def ofNat (n : UInt64) : Value := number (.natural n)

/-- A text, or `null` where there is none. -/
def ofText? : Option String → Value
  | some s => string s
  | none => null

mutual

/-- Equality of values. -/
def beq : Value → Value → Bool
  | null, null => true
  | bool a, bool b => a == b
  | number a, number b => a == b
  | string a, string b => a == b
  | array a, array b => beqItems a b
  | object a, object b => beqMembers a b
  | _, _ => false

/-- Equality of lists of values. -/
def beqItems : List Value → List Value → Bool
  | [], [] => true
  | a :: as, b :: bs => beq a b && beqItems as bs
  | _, _ => false

/-- Equality of lists of members. -/
def beqMembers : List (String × Value) → List (String × Value) → Bool
  | [], [] => true
  | (k, a) :: as, (l, b) :: bs => k == l && beq a b && beqMembers as bs
  | _, _ => false

end

instance : BEq Value := ⟨beq⟩

end Value

end MailServer.Json
