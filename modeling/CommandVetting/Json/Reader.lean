import CommandVetting.Json.Basic

/-!
# Reading JSON

The reader takes any JSON text: blanks between the tokens, escapes of every kind, numbers kept as
they are written. A text that goes on after its value is refused.

* `Json.readString?`: a string literal from behind its opening mark;
* `Json.readNumber?`: a number;
* **`Json.parse?`: the value that a text stands for**.
-/

namespace CommandVetting.Json

/-- A blank between tokens. -/
def isGap (c : Char) : Bool := c == ' ' || c == '\n' || c == '\r' || c == '\t'

/-- The text from its first token on. -/
def skipGap (t : Text) : Text := t.dropWhile isGap

/-! ## Strings -/

/-- The value of a hexadecimal digit. -/
def hexValue? (c : Char) : Option Nat :=
  if '0' ≤ c && c ≤ '9' then some (c.toNat - '0'.toNat)
  else if 'a' ≤ c && c ≤ 'f' then some (c.toNat - 'a'.toNat + 10)
  else if 'A' ≤ c && c ≤ 'F' then some (c.toNat - 'A'.toNat + 10)
  else none

/-- The value of four hexadecimal digits. -/
def hexValues? (a b c d : Char) : Option Nat := do
  return ((← hexValue? a) * 0x10 + (← hexValue? b)) * 0x100 + (← hexValue? c) * 0x10 +
    (← hexValue? d)

/-- The unit is the first half of a character past the first plane. -/
def isHigh (n : Nat) : Bool := 0xD800 ≤ n && n ≤ 0xDBFF

/-- The unit is the second half of a character past the first plane. -/
def isLow (n : Nat) : Bool := 0xDC00 ≤ n && n ≤ 0xDFFF

def ofHalves (high low : Nat) : Char :=
  Char.ofNat (0x10000 + (high - 0xD800) * 0x400 + (low - 0xDC00))

/-- What a character behind a backslash stands for. -/
def unescape? : Char → Option Char
  | '"' => some '"'
  | '\\' => some '\\'
  | '/' => some '/'
  | 'b' => some '\x08'
  | 'f' => some '\x0C'
  | 'n' => some '\n'
  | 'r' => some '\r'
  | 't' => some '\t'
  | _ => none

/-- The text of a string literal from behind its opening mark, and what follows the literal. -/
def readString? : Text → Option (Text × Text)
  | [] => none
  | '"' :: r => some ([], r)
  | '\\' :: 'u' :: a :: b :: c :: d :: r => do
    let n ← hexValues? a b c d
    if isHigh n then
      match r with
      | '\\' :: 'u' :: e :: f :: g :: h :: r =>
        let m ← hexValues? e f g h
        if isLow m then (readString? r).map fun p => (ofHalves n m :: p.1, p.2) else none
      | _ => none
    else if isLow n then none
    else (readString? r).map fun p => (Char.ofNat n :: p.1, p.2)
  | '\\' :: c :: r => do
    let ch ← unescape? c
    (readString? r).map fun p => (ch :: p.1, p.2)
  | c :: r => if c.toNat < 0x20 then none else (readString? r).map fun p => (c :: p.1, p.2)

/-! ## Numbers -/

/-- At least one digit, and what follows the digits. -/
def readDigits? (t : Text) : Option (Text × Text) :=
  if (t.takeWhile Char.isDigit).isEmpty then none
  else some (t.takeWhile Char.isDigit, t.dropWhile Char.isDigit)

/-- The digits before the point: a zero stands alone. -/
def readWhole? : Text → Option (Text × Text)
  | '0' :: r => some (['0'], r)
  | t => readDigits? t

/-- The point and the digits behind it, if there is a point. -/
def readFraction? : Text → Option (Text × Text)
  | '.' :: r => (readDigits? r).map fun p => ('.' :: p.1, p.2)
  | t => some ([], t)

/-- The sign and the digits of an exponent. -/
def readSigned? : Text → Option (Text × Text)
  | '+' :: r => (readDigits? r).map fun p => ('+' :: p.1, p.2)
  | '-' :: r => (readDigits? r).map fun p => ('-' :: p.1, p.2)
  | t => readDigits? t

def readExponent? : Text → Option (Text × Text)
  | 'e' :: r => (readSigned? r).map fun p => ('e' :: p.1, p.2)
  | 'E' :: r => (readSigned? r).map fun p => ('E' :: p.1, p.2)
  | t => some ([], t)

/-- A number without a sign. -/
def readUnsigned? (t : Text) : Option (Text × Text) := do
  let (whole, r) ← readWhole? t
  let (fraction, r) ← readFraction? r
  let (exponent, r) ← readExponent? r
  return (whole ++ fraction ++ exponent, r)

/-- A number as it is written, and what follows it. -/
def readNumber? : Text → Option (Text × Text)
  | '-' :: r => (readUnsigned? r).map fun p => ('-' :: p.1, p.2)
  | t => readUnsigned? t

/-! ## Values -/

mutual

/-- A value, and what follows it. The depth bounds the number of brackets and commas passed. -/
def readValue? (depth : Nat) (t : Text) : Option (Json × Text) :=
  match depth with
  | 0 => none
  | depth + 1 => match skipGap t with
    | 'n' :: 'u' :: 'l' :: 'l' :: r => some (null, r)
    | 't' :: 'r' :: 'u' :: 'e' :: r => some (bool true, r)
    | 'f' :: 'a' :: 'l' :: 's' :: 'e' :: r => some (bool false, r)
    | '"' :: r => (readString? r).map fun p => (str p.1, p.2)
    | '[' :: r => match skipGap r with
      | ']' :: r => some (arr [], r)
      | r => (readItems? depth r).map fun p => (arr p.1, p.2)
    | '\x7b' :: r => match skipGap r with
      | '\x7d' :: r => some (obj [], r)
      | r => (readMembers? depth r).map fun p => (obj p.1, p.2)
    | r => (readNumber? r).map fun p => (num p.1, p.2)

/-- The items of an array up to its closing bracket, and what follows it. -/
def readItems? (depth : Nat) (t : Text) : Option (List Json × Text) :=
  match depth with
  | 0 => none
  | depth + 1 => do
    let (j, r) ← readValue? depth t
    match skipGap r with
    | ',' :: r => (readItems? depth r).map fun p => (j :: p.1, p.2)
    | ']' :: r => some ([j], r)
    | _ => none

/-- The members of an object up to its closing bracket, and what follows it. -/
def readMembers? (depth : Nat) (t : Text) : Option (List (Text × Json) × Text) :=
  match depth with
  | 0 => none
  | depth + 1 => match skipGap t with
    | '"' :: r => do
      let (k, r) ← readString? r
      match skipGap r with
      | ':' :: r => do
        let (j, r) ← readValue? depth r
        match skipGap r with
        | ',' :: r => (readMembers? depth r).map fun p => ((k, j) :: p.1, p.2)
        | '\x7d' :: r => some ([(k, j)], r)
        | _ => none
      | _ => none
    | _ => none

end

/-- The value that a text stands for. -/
def parse? (t : Text) : Option Json :=
  match readValue? (t.length + 1) t with
  | some (j, r) => if (skipGap r).isEmpty then some j else none
  | none => none

end CommandVetting.Json
