import RegisterLiveness.Format.Toml.Token
import RegisterLiveness.Text.Numeral

/-!
# TOML scalars

The lexer cuts numbers and date-times by their characters only; this module decides which of
those texts denote values.

* An integer is an optional sign and decimal digits, or a base prefix `0x`, `0o`, `0b` and digits
  of that base; it must fit in 64 bits.
* A float is a decimal numeral with a fraction or an exponent, or `inf` or `nan` with an optional
  sign; a point must be followed by a digit, and the value must not round beyond the largest
  binary64 number.
* In both, an underscore must follow a hexadecimal digit and the text must end with one, and no
  number may start with a zero followed by more digits.
* A date-time is an offset date-time, a local date-time, a local date or a local time, the
  seconds optional where a time has no offset; the month is from 1 to 12, the day exists in its
  month, the hour has two digits and is below 24, minutes and seconds are below 60, and an offset
  is `Z` or a sign, hours up to 24, `:` and minutes up to 60.
-/

namespace RegisterLiveness

namespace Toml

/-- Whether every underscore of a number follows a hexadecimal digit and the number ends with
one; the words `inf` and `nan`, signed or not, pass. -/
def underscoresFlanked (s : List Char) : Bool :=
  if [['n', 'a', 'n'], ['+', 'n', 'a', 'n'], ['-', 'n', 'a', 'n'], ['i', 'n', 'f'],
      ['+', 'i', 'n', 'f'], ['-', 'i', 'n', 'f']].contains s then true
  else
    let (ok, after) := s.foldl (fun (ok, after) c => (ok && (c ≠ '_' || after), isHex c))
      (true, false)
    ok && after

/-- Whether a number starts with a zero followed by more digits, after an optional sign; a base
prefix is no such zero. -/
def hasLeadingZero : List Char → Bool
  | '0' :: c :: _ => !(c = 'b' || c = 'o' || c = 'x')
  | '+' :: '0' :: _ :: _ | '-' :: '0' :: _ :: _ => true
  | _ => false

/-- The value of an integer numeral as the lexer cuts it: an optional sign, then a base prefix
or none, then digits of the base, underscores skipped. -/
def integerValue (s : List Char) : Int :=
  let (neg, body) := match s with
    | '+' :: r => (false, r)
    | '-' :: r => (true, r)
    | r => (false, r)
  let (base, digits) := match body with
    | '0' :: 'x' :: r => (16, r)
    | '0' :: 'o' :: r => (8, r)
    | '0' :: 'b' :: r => (2, r)
    | r => (10, r)
  let mag := digits.foldl (fun n c => ((Numeral.digitValue c).map (n * base + ·)).getD n) 0
  if neg then -(mag : Int) else mag

/-- Whether an integer fits in 64 bits with a sign. -/
def fitsInt64 (i : Int) : Bool := -Int.pow 2 63 ≤ i && i < Int.pow 2 63

/-- The fields of a text between the characters satisfying `p`, empty fields dropped. -/
def fieldsBy (p : Char → Bool) (cs : List Char) : List (List Char) :=
  let (cur, acc) := cs.foldr (fun c (cur, acc) =>
    if p c then ([], if cur.isEmpty then acc else cur :: acc) else (c :: cur, acc)) ([], [])
  if cur.isEmpty then acc else cur :: acc

/-- The parts of a float between its points and exponent marks. -/
def floatParts (s : List Char) : List (List Char) :=
  fieldsBy (fun c => c = '.' || c = 'e' || c = 'E') s

/-- Whether every point of a number is followed by a digit. -/
def pointsFollowed : List Char → Bool
  | [] => true
  | ['.'] => false
  | '.' :: c :: r => isDigit c && pointsFollowed (c :: r)
  | _ :: r => pointsFollowed r

/-- How a float text reads. -/
inductive FloatReading where
  | value
  | malformed
  | outOfRange
  deriving Repr, DecidableEq

/-- How a float text reads once its underscores are gone: `inf` and `nan` with an optional sign,
or a decimal numeral whose nearest binary64 value is finite. -/
def readFloat (s : List Char) : FloatReading :=
  let body := match s with
    | '+' :: r | '-' :: r => r
    | r => r
  if body = ['i', 'n', 'f'] || body = ['n', 'a', 'n'] then .value
  else match Numeral.readDecimal (String.ofList s) with
    | none => .malformed
    | some d => if d.overflows then .outOfRange else .value

/-! ## Date-times -/

/-- A piece of a date-time pattern. -/
inductive DatePiece where
  | year
  | month
  | day
  | hour
  | minute
  | second
  /-- A point and digits, or nothing. -/
  | fraction
  /-- `Z`, or a sign and hours and minutes. -/
  | offset
  | literal (c : Char)
  deriving Repr, DecidableEq

/-- The fields a date-time pattern has read. -/
structure DateFields where
  year : Nat := 0
  month : Nat := 1
  day : Nat := 1
  /-- Whether the hour was written with one digit. -/
  shortHour : Bool := false
  deriving Repr

/-- The number written by decimal digits. -/
def digitsNat (ds : List Char) : Nat := ds.foldl (fun n c => n * 10 + (c.toNat - 48)) 0

/-- Read two digits. -/
def twoDigits : List Char → Option (Nat × List Char)
  | a :: b :: r => if isDigit a && isDigit b then some (digitsNat [a, b], r) else none
  | _ => none

/-- Read one piece of a pattern from a text, updating the fields read. -/
def DatePiece.read (f : DateFields) : DatePiece → List Char → Option (DateFields × List Char)
  | .year, a :: b :: c :: d :: r =>
    if [a, b, c, d].all isDigit then some ({ f with year := digitsNat [a, b, c, d] }, r) else none
  | .year, _ => none
  | .month, cs => (twoDigits cs).bind fun (m, r) =>
    if 1 ≤ m && m ≤ 12 then some ({ f with month := m }, r) else none
  | .day, cs => (twoDigits cs).map fun (d, r) => ({ f with day := d }, r)
  | .hour, a :: r =>
    if !isDigit a then none
    else match r with
      | b :: r' =>
        if isDigit b then
          let h := digitsNat [a, b]
          if h < 24 then some (f, r') else none
        else some ({ f with shortHour := true }, r)
      | [] => some ({ f with shortHour := true }, r)
  | .hour, [] => none
  | .minute, cs | .second, cs => (twoDigits cs).bind fun (m, r) =>
    if m < 60 then some (f, r) else none
  | .fraction, '.' :: d :: r =>
    if isDigit d then some (f, r.dropWhile isDigit) else some (f, '.' :: d :: r)
  | .fraction, cs => some (f, cs)
  | .offset, 'Z' :: r => some (f, r)
  | .offset, s :: cs => match twoDigits cs with
    | some (h, ':' :: r) => (twoDigits r).bind fun (m, r) =>
      if (s = '+' || s = '-') && h ≤ 24 && m ≤ 60 then some (f, r) else none
    | _ => none
  | .offset, [] => none
  | .literal c, d :: r => if c = d then some (f, r) else none
  | .literal _, [] => none

/-- Read a whole text by a pattern. -/
def readPattern (f : DateFields) : List DatePiece → List Char → Option DateFields
  | [], [] => some f
  | [], _ :: _ => none
  | p :: ps, cs => (p.read f cs).bind fun (f, r) => readPattern f ps r

/-- Whether a year is a leap year. -/
def isLeapYear (y : Nat) : Bool := y % 4 = 0 && (y % 100 ≠ 0 || y % 400 = 0)

/-- The number of days of a month. -/
def daysInMonth (y m : Nat) : Nat :=
  if m = 2 then (if isLeapYear y then 29 else 28)
  else if m = 4 || m = 6 || m = 9 || m = 11 then 30
  else 31

/-- The patterns of date-times, in the order they are tried. -/
def datePatterns : List (List DatePiece) :=
  let date := [.year, .literal '-', .month, .literal '-', .day]
  let clock := [DatePiece.hour, .literal ':', .minute]
  let seconds := [DatePiece.literal ':', .second, .fraction]
  [date ++ [.literal 'T'] ++ clock ++ seconds ++ [.offset],
   date ++ [.literal 'T'] ++ clock ++ seconds,
   date,
   clock ++ seconds,
   date ++ [.literal 'T'] ++ clock ++ [.offset],
   date ++ [.literal 'T'] ++ clock,
   clock]

/-- The text of a date-time as it is checked: `z`, `t` and blanks read as `Z`, `T` and `T`. -/
def normalDatetime (s : List Char) : List Char :=
  s.map fun c => if c = 'z' then 'Z' else if c = 't' ∨ c = ' ' then 'T' else c

/-- Whether a normalised date-time text denotes a date-time: the first pattern that reads it
reads a day that exists and an hour of two digits. -/
def isDatetime (s : List Char) : Bool :=
  match datePatterns.findSome? fun p => readPattern {} p s with
  | some f => 1 ≤ f.day && f.day ≤ daysInMonth f.year f.month && !f.shortHour
  | none => false

end Toml

end RegisterLiveness
