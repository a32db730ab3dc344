import JavaOutline.Json.Basic

/-!
# JavaOutline.Json.Reader

Reading a document from its text. Keys keep their order; a key that is written
twice keeps the first place and the last value. Integers that fit sixty-four
bits stay integers, all other numbers are read as doubles.
-/

namespace JavaOutline.Json

/-! ## Blanks and digits -/

/-- The blanks between the tokens of a document. -/
def isBlank (c : Char) : Bool := c = ' ' || c = '\t' || c = '\n' || c = '\r'

/-- The text without leading blanks. -/
def skipBlanks (cs : List Char) : List Char := cs.dropWhile isBlank

/-- The value of a hexadecimal digit. -/
def hexValue? (c : Char) : Option Nat :=
  if '0' ≤ c ∧ c ≤ '9' then some (c.toNat - 48)
  else if 'a' ≤ c ∧ c ≤ 'f' then some (c.toNat - 87)
  else if 'A' ≤ c ∧ c ≤ 'F' then some (c.toNat - 55)
  else none

/-! ## Numbers -/

/-- A significand that grows digit by digit as long as it fits sixty-four
bits. -/
structure Digits where
  significand : Nat
  exponent : Int

/-- The largest significand. -/
def maxSignificand : Nat := UInt64.size - 1

/-- Adds the digits before the point; a digit that no longer fits and all
digits after it count as powers of ten. -/
def Digits.addWhole (d : Digits) : List Char → Digits
  | [] => d
  | c :: cs =>
    let next := d.significand * 10 + (c.toNat - 48)
    if next ≤ maxSignificand then Digits.addWhole ⟨next, d.exponent⟩ cs
    else ⟨d.significand, d.exponent + (cs.length + 1 : Nat)⟩

/-- Adds the digits after the point; a digit that no longer fits ends the
number. -/
def Digits.addFraction (d : Digits) : List Char → Digits
  | [] => d
  | c :: cs =>
    let next := d.significand * 10 + (c.toNat - 48)
    if next ≤ maxSignificand then Digits.addFraction ⟨next, d.exponent - 1⟩ cs
    else d

/-- The number with the given sign and whole digits that is written without
fraction and exponent. -/
def wholeNumber? (negative : Bool) (whole : List Char) : Option Number :=
  let d := Digits.addWhole ⟨0, 0⟩ whole
  if d.exponent = 0 ∧ !negative then some (.integer d.significand)
  else if d.exponent = 0 ∧ 0 < d.significand ∧ d.significand ≤ UInt64.size / 2 then
    some (.integer (-(d.significand : Int)))
  else (Double.ofDecimal negative d.significand d.exponent).map .double

/-- The decimal digits at the start of a text, and what follows them. -/
def spanDigits (cs : List Char) : List Char × List Char :=
  (cs.takeWhile Char.isDigit, cs.dropWhile Char.isDigit)

/-- The exponent at the start of a text, if there is one. -/
def readExponent (cs : List Char) : Option (Option Int × List Char) :=
  match cs with
  | 'e' :: rest | 'E' :: rest =>
    let (negative, rest) := match rest with
      | '-' :: r => (true, r)
      | '+' :: r => (false, r)
      | r => (false, r)
    match spanDigits rest with
    | ([], _) => none
    | (digits, rest) =>
      let n : Nat := digits.foldl (fun n c => n * 10 + (c.toNat - 48)) 0
      some (some (if negative then -(n : Int) else n), rest)
  | _ => some (none, cs)

/-- The number at the start of a text. -/
def readNumber (cs : List Char) : Option (Number × List Char) := do
  let (negative, cs) := match cs with
    | '-' :: r => (true, r)
    | r => (false, r)
  let (whole, cs) := spanDigits cs
  if whole.isEmpty || (whole.length > 1 && whole.head? == some '0') then none
  let (fraction, cs) ← match cs with
    | '.' :: r =>
      let (digits, r) := spanDigits r
      if digits.isEmpty then none else some (some digits, r)
    | r => some (none, r)
  let (power, cs) ← readExponent cs
  if fraction.isNone && power.isNone then
    return (← wholeNumber? negative whole, cs)
  let d := (Digits.addWhole ⟨0, 0⟩ whole).addFraction (fraction.getD [])
  let x ← Double.ofDecimal negative d.significand (d.exponent + power.getD 0)
  return (.double x, cs)

/-! ## Strings -/

/-- Four hexadecimal digits at the start of a text. -/
def readHex4 : List Char → Option (Nat × List Char)
  | a :: b :: c :: d :: rest => do
    let n := ((← hexValue? a) * 16 + (← hexValue? b)) * 256
      + (← hexValue? c) * 16 + (← hexValue? d)
    return (n, rest)
  | _ => none

/-- The character after a backslash. Characters beyond U+FFFF are written as
two escapes. -/
def readEscape : List Char → Option (Char × List Char)
  | 'u' :: rest => do
    let (high, rest) ← readHex4 rest
    if 0xD800 ≤ high ∧ high < 0xDC00 then
      match rest with
      | '\\' :: 'u' :: rest =>
        let (low, rest) ← readHex4 rest
        if 0xDC00 ≤ low ∧ low < 0xE000 then
          return (Char.ofNat (0x10000 + (high - 0xD800) * 1024 + (low - 0xDC00)), rest)
        else none
      | _ => none
    else if 0xDC00 ≤ high ∧ high < 0xE000 then none
    else return (Char.ofNat high, rest)
  | 'b' :: rest => some ('\x08', rest)
  | 'f' :: rest => some ('\x0c', rest)
  | 'n' :: rest => some ('\n', rest)
  | 'r' :: rest => some ('\r', rest)
  | 't' :: rest => some ('\t', rest)
  | c :: rest => if c = '"' ∨ c = '\\' ∨ c = '/' then some (c, rest) else none
  | [] => none

/-- The rest of a string up to its closing quote; `fuel` bounds the number of
characters. -/
def readString : (fuel : Nat) → List Char → Option (List Char × List Char)
  | 0, _ => none
  | _ + 1, [] => none
  | _ + 1, '"' :: rest => some ([], rest)
  | fuel + 1, '\\' :: rest => do
    let (c, rest) ← readEscape rest
    let (cs, rest) ← readString fuel rest
    return (c :: cs, rest)
  | fuel + 1, c :: rest =>
    if c.toNat < 32 then none
    else do
      let (cs, rest) ← readString fuel rest
      return (c :: cs, rest)

/-! ## Documents -/

/-- Sets the value of a key: in place if the key is there already, at the end
otherwise. -/
def setEntry (key : String) (value : Json) : List (String × Json) → List (String × Json)
  | [] => [(key, value)]
  | (k, v) :: entries =>
    if k = key then (k, value) :: entries else (k, v) :: setEntry key value entries

mutual
/-- The document at the start of a text; `fuel` bounds the nesting and the
length of collections. -/
def readValue : (fuel : Nat) → List Char → Option (Json × List Char)
  | 0, _ => none
  | fuel + 1, cs =>
    match skipBlanks cs with
    | 'n' :: 'u' :: 'l' :: 'l' :: rest => some (.null, rest)
    | 't' :: 'r' :: 'u' :: 'e' :: rest => some (.bool true, rest)
    | 'f' :: 'a' :: 'l' :: 's' :: 'e' :: rest => some (.bool false, rest)
    | '"' :: rest => do
      let (s, rest) ← readString rest.length rest
      return (.string (String.ofList s), rest)
    | '[' :: rest =>
      match skipBlanks rest with
      | ']' :: rest => some (.array [], rest)
      | rest => do
        let (items, rest) ← readItems fuel rest
        return (.array items, rest)
    | '\x7b' :: rest =>
      match skipBlanks rest with
      | '\x7d' :: rest => some (.object [], rest)
      | rest => do
        let (entries, rest) ← readEntries fuel [] rest
        return (.object entries, rest)
    | rest => do
      let (n, rest) ← readNumber rest
      return (.number n, rest)

/-- The items of an array that is not empty, up to its closing bracket. -/
def readItems : (fuel : Nat) → List Char → Option (List Json × List Char)
  | 0, _ => none
  | fuel + 1, cs => do
    let (j, rest) ← readValue fuel cs
    match skipBlanks rest with
    | ',' :: rest =>
      let (js, rest) ← readItems fuel rest
      return (j :: js, rest)
    | ']' :: rest => return ([j], rest)
    | _ => none

/-- The entries of an object that is not empty, up to its closing brace, added
to those read before. -/
def readEntries : (fuel : Nat) → List (String × Json) → List Char →
    Option (List (String × Json) × List Char)
  | 0, _, _ => none
  | fuel + 1, seen, cs => do
    match skipBlanks cs with
    | '"' :: rest =>
      let (key, rest) ← readString rest.length rest
      match skipBlanks rest with
      | ':' :: rest =>
        let (j, rest) ← readValue fuel rest
        let entries := setEntry (String.ofList key) j seen
        match skipBlanks rest with
        | ',' :: rest => readEntries fuel entries rest
        | '\x7d' :: rest => return (entries, rest)
        | _ => none
      | _ => none
    | _ => none
end

/-- The document written in `text`, or `none` if it holds none or anything
else besides. -/
def read? (text : String) : Option Json :=
  let cs := text.toList
  match readValue (cs.length + 1) cs with
  | some (j, rest) => if (skipBlanks rest).isEmpty then some j else none
  | none => none

end JavaOutline.Json
