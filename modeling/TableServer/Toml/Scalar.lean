import TableServer.Config.Setting
import TableServer.Number.Decimal

/-! The values of TOML that are one word: booleans, whole numbers, floating point numbers, dates and
times. -/

namespace TableServer.Toml

/-- Digits with single underscores between them, without the underscores. -/
def plainDigits (isOne : Char → Bool) : List Char → Option (List Char)
  | [] => none
  | c :: rest =>
    if isOne c then
      match rest with
      | [] => some [c]
      | '_' :: more => (plainDigits isOne more).map (c :: ·)
      | more => (plainDigits isOne more).map (c :: ·)
    else none

def splitSign : List Char → Bool × List Char
  | '-' :: rest => (true, rest)
  | '+' :: rest => (false, rest)
  | text => (false, text)

def decimalDigits? (text : List Char) : Option (List Char) :=
  match plainDigits isDigit text with
  | some ('0' :: _ :: _) => none
  | digits => digits

def isOctal (c : Char) : Bool := decide ('0' ≤ c) && decide (c ≤ '7')

def isBinary (c : Char) : Bool := c == '0' || c == '1'

def inRange? (value : Int) : Option Int :=
  if -9223372036854775808 ≤ value ∧ value ≤ 9223372036854775807 then some value else none

/-- A whole number of 64 bits with a sign; only decimal digits may have one written. -/
def integer? (text : List Char) : Option Int :=
  let based (isOne : Char → Bool) (base : Nat) (digits : List Char) : Option Int :=
    (plainDigits isOne digits).bind fun plain => inRange? (valueInBase base plain)
  match text with
  | '0' :: 'x' :: digits => based isHexDigit 16 digits
  | '0' :: 'o' :: digits => based isOctal 8 digits
  | '0' :: 'b' :: digits => based isBinary 2 digits
  | _ =>
    let (negative, digits) := splitSign text
    (decimalDigits? digits).bind fun plain =>
      let magnitude : Int := digitsValue plain
      inRange? (if negative then -magnitude else magnitude)

def exponent? (text : List Char) : Option Int :=
  let (negative, digits) := splitSign text
  (plainDigits isDigit digits).map fun plain =>
    let magnitude : Int := digitsValue plain
    if negative then -magnitude else magnitude

def isExponentMark (c : Char) : Bool := c == 'e' || c == 'E'

/-- The fraction and the exponent of a number, one of which must be there. -/
def fractionAndExponent? : List Char → Option (List Char × Int)
  | [] => none
  | '.' :: rest => do
    let fraction ← plainDigits isDigit (rest.takeWhile (!isExponentMark ·))
    match rest.dropWhile (!isExponentMark ·) with
    | [] => pure (fraction, 0)
    | _ :: digits => pure (fraction, ← exponent? digits)
  | _ :: digits => (exponent? digits).map fun exponent => ([], exponent)

/-- A number with a fraction or an exponent; one too great for a double is no number, though one
too small is. -/
def isFloat (text : List Char) : Bool :=
  let (negative, unsigned) := splitSign text
  let endsWhole (c : Char) : Bool := c == '.' || isExponentMark c
  match decimalDigits? (unsigned.takeWhile (!endsWhole ·)),
      fractionAndExponent? (unsigned.dropWhile (!endsWhole ·)) with
  | some whole, some (fraction, exponent) =>
    (Decimal.ofDigits negative whole fraction exponent).toDouble ≠ .infinite false
  | _, _ => false

def isSpecialFloat (text : List Char) : Bool :=
  let (_, name) := splitSign text
  name == "inf".toList || name == "nan".toList

def isTwoDigits (low high : Nat) (tens ones : Char) : Bool :=
  let value := digitsValue [tens, ones]
  isDigit tens && isDigit ones && low ≤ value && value ≤ high

def isLeapYear (year : Nat) : Bool :=
  year % 4 == 0 && (year % 100 != 0 || year % 400 == 0)

def daysInMonth (year month : Nat) : Nat :=
  if month = 2 then if isLeapYear year then 29 else 28
  else if month ∈ [4, 6, 9, 11] then 30
  else 31

def isDate : List Char → Bool
  | [a, b, c, d, '-', e, f, '-', g, h] =>
    [a, b, c, d].all isDigit && isTwoDigits 1 12 e f &&
      isTwoDigits 1 (daysInMonth (digitsValue [a, b, c, d]) (digitsValue [e, f])) g h
  | _ => false

/-- Hours, minutes and seconds, which may have a fraction; a minute may have a leap second. -/
def isTime : List Char → Bool
  | a :: b :: ':' :: c :: d :: ':' :: e :: f :: rest =>
    isTwoDigits 0 23 a b && isTwoDigits 0 59 c d && isTwoDigits 0 60 e f &&
      match rest with
      | [] => true
      | '.' :: digits => !digits.isEmpty && digits.all isDigit
      | _ => false
  | _ => false

def isOffset : List Char → Bool
  | [] => true
  | ['Z'] => true
  | ['z'] => true
  | [sign, a, b, ':', c, d] =>
    (sign == '+' || sign == '-') && isTwoDigits 0 23 a b && isTwoDigits 0 59 c d
  | _ => false

def beginsOffset (c : Char) : Bool := c == 'Z' || c == 'z' || c == '+' || c == '-'

def isTimeWithOffset (text : List Char) : Bool :=
  isTime (text.takeWhile (!beginsOffset ·)) && isOffset (text.dropWhile (!beginsOffset ·))

def isMoment (text : List Char) : Bool :=
  isDate text || isTime text ||
    isDate (text.take 10) && match text.drop 10 with
      | mark :: time => (mark == 'T' || mark == 't' || mark == ' ') && isTimeWithOffset time
      | [] => false

def scalar? (word : List Char) : Option Setting :=
  if word = "true".toList then some (.flag true)
  else if word = "false".toList then some (.flag false)
  else if isMoment word then some .moment
  else if isFloat word || isSpecialFloat word then some .other
  else (integer? word).map .whole

def isWordChar (c : Char) : Bool :=
  isLetter c || isDigit c || c == '+' || c == '-' || c == '_' || c == '.' || c == ':'

/-- A word from the beginning of a text. A date takes a time after one space with it. -/
def takeWord (text : List Char) : List Char × List Char :=
  let word := text.takeWhile isWordChar
  let rest := text.dropWhile isWordChar
  match rest with
  | ' ' :: c :: more =>
    if isDate word ∧ isDigit c then
      (word ++ ' ' :: (c :: more).takeWhile isWordChar, (c :: more).dropWhile isWordChar)
    else (word, rest)
  | _ => (word, rest)

end TableServer.Toml
