import MailServer.Text.Basic

/-!
# Values by their looks

A variable of the environment holds plain text, and its value is given a type by its looks: a
list, a table, a truth value, a number or a text. Lists and tables nest. Text that does not read
as a whole is a text as it stands.

* `MailServer.Config.Plain` is a value as far as a configuration can tell values apart.
* `MailServer.Config.Plain.ofWord` is a word by its looks.
* `MailServer.Config.Plain.read` reads a value, and `MailServer.Config.Plain.parse` a whole text.

A number with a point stands for the nearest double. One that is beyond every double has no
value, and a table whose only entry has none is known by the name of that entry.
-/

namespace MailServer.Config

/-- A value by its looks. -/
inductive Plain where
  | text (s : String)
  | natural (n : UInt64)
  /-- No value: a number beyond every double. -/
  | nothing
  /-- A table with a single entry, which has no value. -/
  | label (name : String)
  /-- A list, any other table, a truth value, a negative number or a number with a point. -/
  | other
deriving DecidableEq, Repr

namespace Plain

/-! ## Numbers and words -/

/-- A number with a point: its digits, and the power of ten that the last of them counts. -/
structure Pointed where
  digits : Nat
  power : Int
deriving DecidableEq, Repr

/-- The characters without a sign before them. -/
def dropSign : List Char → List Char
  | '+' :: cs | '-' :: cs => cs
  | cs => cs

/-- The size of an exponent behind `n`. From 65536 on, further digits no longer count. -/
def magnitude (n : Nat) : List Char → Option Nat
  | [] => some n
  | c :: cs =>
    if c.isDigit then
      magnitude (if n < 65536 then n * 10 + (c.toNat - '0'.toNat) else n) cs
    else none

/-- The exponent that the characters are; zero if there are none. -/
def exponent? : List Char → Option Int
  | [] => some 0
  | 'e' :: cs | 'E' :: cs =>
    let digits := dropSign cs
    if digits.isEmpty then none
    else (magnitude 0 digits).map fun n => if cs.head? = some '-' then -(n : Int) else n
  | _ => none

/-- The number with a point that the characters are: digits on at least one side of the point, and
perhaps a sign and an exponent. -/
def pointed? (cs : List Char) : Option Pointed := do
  let (whole, rest) ← Text.cutFirst '.' (dropSign cs)
  let fraction := rest.takeWhile Char.isDigit
  if whole.isEmpty && fraction.isEmpty then none
  else
    let digits ← Text.digitsFrom 0 (whole ++ fraction)
    let exponent ← exponent? (rest.dropWhile Char.isDigit)
    pure ⟨digits, exponent - fraction.length⟩

/-- The number rounds to no double: it is not below the midpoint between the greatest double and
the power of two behind it. -/
def Pointed.isInfinite (p : Pointed) : Bool :=
  let midpoint := (Nat.pow 2 54 - 1) * Nat.pow 2 970
  match p.power with
  | .ofNat n => midpoint ≤ p.digits * Nat.pow 10 n
  | .negSucc n => midpoint * Nat.pow 10 (n + 1) ≤ p.digits

/-- The magnitude of an integer of 64 bits with a minus sign. -/
def negated? : List Char → Option Nat
  | '-' :: digits => if digits.isEmpty then none else (Text.digitsFrom 0 digits).filter (· ≤ Nat.pow 2 63)
  | _ => none

/-- The characters are a truth value in any letter case. -/
def isTruth (cs : List Char) : Bool :=
  cs.map Char.toLower == ['t', 'r', 'u', 'e'] || cs.map Char.toLower == ['f', 'a', 'l', 's', 'e']

/-- A word by its looks. -/
def ofWord (cs : List Char) : Plain :=
  if isTruth cs then other
  else match pointed? cs with
    | some p => if p.isInfinite then nothing else other
    | none =>
      match Text.natural? cs, negated? cs with
      | some n, _ => natural n
      | none, some 0 => natural 0
      | none, some _ => other
      | none, none => text (String.ofList cs)

/-! ## Quoted texts -/

/-- The value of a hexadecimal digit of either case. -/
def hexDigit? (c : Char) : Option Nat :=
  if c.isDigit then some (c.toNat - '0'.toNat)
  else if 'a' ≤ c.toLower ∧ c.toLower ≤ 'f' then some (c.toLower.toNat - 'a'.toNat + 10)
  else none

/-- The character whose number the hexadecimal digits are. -/
def hexChar? (digits : List Char) : Option Char := do
  let n ← digits.foldlM (fun n c => (hexDigit? c).map (n * 16 + ·)) 0
  if n.isValidChar then some (Char.ofNat n) else none

/-- The character that an escape of one letter stands for. -/
def escaped? : Char → Option Char
  | 'b' => some '\x08'
  | 't' => some '\t'
  | 'n' => some '\n'
  | 'f' => some '\x0c'
  | 'r' => some '\r'
  | '"' => some '"'
  | '\\' => some '\\'
  | _ => none

/-- The character may stand in a quoted text as it is: a tab or no control character of ASCII. -/
def isQuotable (c : Char) : Bool := c == '\t' || (' ' ≤ c && c != '\x7f')

/-- The characters up to the closing quote, escapes replaced, and the characters after it. -/
def readEscaped : List Char → Option (List Char × List Char)
  | [] => none
  | '"' :: rest => some ([], rest)
  | '\\' :: 'u' :: a :: b :: c :: d :: rest => do
    let x ← hexChar? [a, b, c, d]
    let (cs, rest) ← readEscaped rest
    some (x :: cs, rest)
  | '\\' :: 'U' :: a :: b :: c :: d :: e :: f :: g :: h :: rest => do
    let x ← hexChar? [a, b, c, d, e, f, g, h]
    let (cs, rest) ← readEscaped rest
    some (x :: cs, rest)
  | '\\' :: c :: rest => do
    let c ← escaped? c
    let (cs, rest) ← readEscaped rest
    some (c :: cs, rest)
  | c :: rest => do
    let (cs, rest) ← readEscaped rest
    if isQuotable c then some (c :: cs, rest) else none

/-- The longest beginning whose characters have at most the given number of bytes together. -/
def takeBytes : (count : Nat) → List Char → List Char
  | _, [] => []
  | count, c :: cs => if c.utf8Size ≤ count then c :: takeBytes (count - c.utf8Size) cs else []

/-- The contents of a quoted text behind its opening quote, and the characters after the closing
one. Of what stands before the first escape, as many bytes are kept as it has characters: all of
it where it is ASCII. Without an escape the contents are kept as they are. -/
def readQuoted (cs : List Char) : Option (List Char × List Char) := do
  let isPlain (c : Char) : Bool := isQuotable c && c != '"' && c != '\\'
  let head := cs.takeWhile isPlain
  match cs.dropWhile isPlain with
  | '"' :: rest => some (head, rest)
  | rest =>
    let (tail, rest) ← readEscaped rest
    some (takeBytes head.length head ++ tail, rest)

/-! ## Lists and tables -/

/-- A blank between the parts of a value. -/
def isSpace (c : Char) : Bool := [' ', '\t', '\n', '\x0c', '\r'].contains c

/-- The characters from the first that is no blank between parts. -/
def dropSpaces (cs : List Char) : List Char := cs.dropWhile isSpace

/-- The character ends a word. -/
def isSeparator (c : Char) : Bool := [',', '\x7b', '\x7d', '[', ']'].contains c

/-- The characters behind a truth value in small letters, if they begin with one. -/
def dropTruth : List Char → Option (List Char)
  | 't' :: 'r' :: 'u' :: 'e' :: rest => some rest
  | 'f' :: 'a' :: 'l' :: 's' :: 'e' :: rest => some rest
  | _ => none

/-- The character may stand in a name without quotes. -/
def isNameChar (c : Char) : Bool := c.isAlphanum || c == '_' || c == '-'

/-- Reads the name of an entry of a table and the equals sign after it. -/
def readName (cs : List Char) : Option (String × List Char) := do
  let cs := dropSpaces cs
  let (name, rest) ← match cs with
    | '"' :: rest => readQuoted rest
    | _ => some (cs.takeWhile isNameChar, cs.dropWhile isNameChar)
  if name.isEmpty && cs.head? ≠ some '"' then none
  else match dropSpaces rest with
    | '=' :: rest => some (String.ofList name, rest)
    | _ => none

/-- The table with the given entries, the last of each name. -/
def ofEntries (entries : List (String × Plain)) : Plain :=
  match entries.reverse with
  | (name, nothing) :: earlier => if earlier.all (·.1 == name) then label name else other
  | _ => other

mutual

/-- Reads a value and the blanks around it: its type by its looks, and the characters after it.
A pair of brackets takes two of `count` and a comma one, so that a number above that of the
characters is enough. -/
def read : (count : Nat) → List Char → Option (Plain × List Char)
  | 0, _ => none
  | count + 1, cs => do
    let cs := dropSpaces cs
    let (v, rest) ← match dropTruth cs, cs with
      | some rest, _ => some (other, rest)
      | none, '\x7b' :: rest => do
        let (entries, rest) ← readEntries count rest
        pure (ofEntries entries, rest)
      | none, '[' :: rest => do pure (other, ← readItems count rest)
      | none, '"' :: rest => do
        let (cs, rest) ← readQuoted rest
        pure (text (String.ofList cs), rest)
      | none, '\x27' :: rest =>
        match rest with
        | c :: '\x27' :: rest => some (text (String.singleton c), rest)
        | _ => none
      | none, cs =>
        some (ofWord (Text.trimChars (cs.takeWhile (!isSeparator ·))), cs.dropWhile (!isSeparator ·))
    some (v, dropSpaces rest)

/-- Passes over the items of a list through the closing bracket. A comma may stand before it. -/
def readItems : (count : Nat) → List Char → Option (List Char)
  | 0, _ => none
  | _ + 1, ']' :: rest => some rest
  | count + 1, cs => do
    let (_, rest) ← read count cs
    match rest with
    | ',' :: rest => readItems count rest
    | ']' :: rest => some rest
    | _ => none

/-- Reads the entries of a table through the closing brace. A comma may stand before it. -/
def readEntries : (count : Nat) → List Char → Option (List (String × Plain) × List Char)
  | 0, _ => none
  | _ + 1, '\x7d' :: rest => some ([], rest)
  | count + 1, cs => do
    let (name, rest) ← readName cs
    let (v, rest) ← read count rest
    match rest with
    | ',' :: rest =>
      let (entries, rest) ← readEntries count rest
      pure ((name, v) :: entries, rest)
    | '\x7d' :: rest => some ([(name, v)], rest)
    | _ => none

end

/-! ## Whole texts -/

/-- The characters are a list without brackets: there is a comma, and they do not begin with a
bracket or a quote. -/
def isBareList (cs : List Char) : Bool :=
  cs.contains ',' && !(cs.head?.map ['[', '\x7b', '"', '\x27'].contains).getD false

/-- A text by its looks. Blanks around it do not count. -/
def parse (raw : String) : Plain :=
  let cs := Text.trimChars raw.toList
  if isBareList cs then other
  else match read (cs.length + 1) cs with
    | some (v, []) => v
    | _ => text (String.ofList cs)

example : parse " a[b " = text "a[b" := by decide +kernel
example : parse "TRUE" = other := by decide +kernel
example : parse "[truex]" = text "[truex]" := by decide +kernel
example : parse "\x7bcompact = 1.0e999\x7d" = label "compact" := by decide +kernel
example : parse "\"\\u0041\" " = text "A" := by decide +kernel
example : parse "\"aéé\\n\"" = text "aé\n" := by decide +kernel

/-- The value that holds `v` at the end of a path of names: a table unless the path is empty. -/
def under : List String → Plain → Plain
  | [], v => v
  | [name], nothing => label name
  | _, _ => other

end Plain

end MailServer.Config
