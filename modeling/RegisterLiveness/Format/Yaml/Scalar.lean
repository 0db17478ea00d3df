import RegisterLiveness.Text.Numeral
import RegisterLiveness.Text.Bytes

/-!
# YAML scalars

What the text of a scalar denotes, under the tag it bears. An untagged plain scalar is resolved by
its first character and its text: the words of null, the booleans and the special floats; for
text starting with a digit or a sign, a timestamp, an integer in any base with its underscores
dropped, or a float; for text starting with a point, a float; a string otherwise. An explicit
tag of the core schema must be the tag the text resolves to (an integer of 64 bits may be tagged
`!!float`); `!!str` takes any text, `!!binary` takes base-64 text, and a tag outside the schema
takes any text as a string.
-/

namespace RegisterLiveness

namespace Yaml

/-- What a scalar denotes. -/
inductive Value where
  | null
  | bool (b : Bool)
  | int (i : Int)
  | float (d : Numeral.Decimal)
  | infinity (negative : Bool)
  | nan
  | timestamp
  | str
  /-- Text written in base 64, decoded. -/
  | binary (text : String)
  deriving Repr, DecidableEq, Inhabited

/-- The tag naming the kind of a value. -/
def Value.tag : Value → String
  | .null => "!!null"
  | .bool _ => "!!bool"
  | .int _ => "!!int"
  | .float _ | .infinity _ | .nan => "!!float"
  | .timestamp => "!!timestamp"
  | .str => "!!str"
  | .binary _ => "!!binary"

/-- The number of days of a month of a year. -/
def daysIn (year month : Nat) : Nat :=
  if month = 2 then (if year % 4 = 0 ∧ (year % 100 ≠ 0 ∨ year % 400 = 0) then 29 else 28)
  else if month = 4 ∨ month = 6 ∨ month = 9 ∨ month = 11 then 30
  else 31

/-- The value of a decimal digit. -/
def digitOf (c : Char) : Nat := c.toNat - 48

/-- A field of a date or a time: one digit, or two when two follow; with what comes after. -/
def timeField : List Char → Option (Nat × List Char)
  | [] => none
  | [a] => if a.isDigit then some (digitOf a, []) else none
  | a :: b :: rest =>
    if !a.isDigit then none
    else if b.isDigit then some (digitOf a * 10 + digitOf b, rest)
    else some (digitOf a, b :: rest)

/-- What follows the fraction of a second, if one is written: a point or a comma and digits. -/
def dropFraction : List Char → List Char
  | c :: d :: rest =>
    if (c = '.' ∨ c = ',') ∧ d.isDigit then rest.dropWhile Char.isDigit else c :: d :: rest
  | cs => cs

/-- Whether a text is a time zone: `Z`, or a sign, two digits of hours up to 24, a colon and two
digits of minutes up to 60. -/
def isZone : List Char → Bool
  | ['Z'] => true
  | [s, h1, h2, ':', m1, m2] =>
    (s = '+' ∨ s = '-') ∧ h1.isDigit ∧ h2.isDigit ∧ m1.isDigit ∧ m2.isDigit ∧
      digitOf h1 * 10 + digitOf h2 ≤ 24 ∧ digitOf m1 * 10 + digitOf m2 ≤ 60
  | _ => false

/-- Whether a text is a time of day `H:M:S`, each field of one or two digits, with an optional
fraction of a second, followed by a time zone when `zoned` and by nothing otherwise. -/
def isTimeOfDay (zoned : Bool) (cs : List Char) : Bool :=
  match timeField cs with
  | some (h, ':' :: r) =>
    if h ≥ 24 then false else
    match timeField r with
    | some (m, ':' :: r) =>
      if m ≥ 60 then false else
      match timeField r with
      | some (sec, r) =>
        let r := dropFraction r
        sec < 60 ∧ (if zoned then isZone r else r.isEmpty)
      | none => false
    | _ => false
  | _ => false

/-- Whether a scalar is a timestamp: a date `YYYY-M-D`, month and day of one or two digits and
the day within its month, alone, or followed by `T` or `t` and a time of day with its zone, or
by spaces and a time of day without one. -/
def isTimestamp (s : String) : Bool :=
  match s.toList with
  | y1 :: y2 :: y3 :: y4 :: '-' :: rest =>
    if !(y1.isDigit ∧ y2.isDigit ∧ y3.isDigit ∧ y4.isDigit) then false else
    let year := Numeral.decimalValue [y1, y2, y3, y4]
    match timeField rest with
    | some (month, '-' :: rest) =>
      if month < 1 ∨ month > 12 then false else
      match timeField rest with
      | some (day, rest) =>
        let time := match rest with
          | [] => true
          | 'T' :: r | 't' :: r => isTimeOfDay true r
          | ' ' :: r => isTimeOfDay false (r.dropWhile (· = ' '))
          | _ => false
        decide (1 ≤ day ∧ day ≤ daysIn year month) && time
      | none => false
    | _ => false
  | _ => false

/-- Resolve a scalar by its text: the words of null, the booleans and the special floats first,
then, for text starting with a digit or a sign, a timestamp (when `dates`), an integer in any
base (underscores ignored), or a float; for text starting with a point, a float; a string
otherwise. -/
def Value.resolve (dates : Bool) (s : String) : Value :=
  if s ∈ ["", "~", "null", "Null", "NULL"] then .null
  else if s ∈ ["true", "True", "TRUE"] then .bool true
  else if s ∈ ["false", "False", "FALSE"] then .bool false
  else if s ∈ [".nan", ".NaN", ".NAN"] then .nan
  else if s ∈ [".inf", ".Inf", ".INF", "+.inf", "+.Inf", "+.INF"] then .infinity false
  else if s ∈ ["-.inf", "-.Inf", "-.INF"] then .infinity true
  else match s.toList with
    | c :: _ =>
      if c.isDigit ∨ c = '+' ∨ c = '-' then
        if dates ∧ isTimestamp s then .timestamp
        else
          let plain := String.ofList (s.toList.filter (· ≠ '_'))
          match Numeral.readSigned plain 64 with
          | some i => .int i
          | none => match Numeral.readUnsigned plain (Nat.pow 2 64) with
            | some u => .int u
            | none => match Numeral.readDecimal plain with
              | some d => if d.overflows then .str else .float d
              | none => .str
      else if c = '.' then
        -- underscores may stand between digits here, and are dropped
        let digits := String.ofList (s.toList.filter (· ≠ '_'))
        let separated := !s.contains '_' || Numeral.underscoresSeparate s.toList
        match Numeral.readDecimal digits with
        | some d => if !separated then .str else if d.overflows then .str else .float d
        | none => .str
      else .str
    | [] => .null

/-- Resolve a plain scalar under the core schema. -/
def Value.ofPlain (s : String) : Value := Value.resolve true s

/-- The value of a base-64 digit: `A-Z` are 0 to 25, `a-z` 26 to 51, `0-9` 52 to 61, `+` is 62
and `/` is 63. -/
def base64Digit (c : Char) : Option Nat :=
  if 'A' ≤ c ∧ c ≤ 'Z' then some (c.toNat - 65)
  else if 'a' ≤ c ∧ c ≤ 'z' then some (c.toNat - 97 + 26)
  else if '0' ≤ c ∧ c ≤ '9' then some (c.toNat - 48 + 52)
  else if c = '+' then some 62
  else if c = '/' then some 63
  else none

/-- The bytes base-64 digits stand for, four digits for three bytes, the last group padded with
`=`; `none` if they are malformed. -/
def decodeBase64 : List Char → Option (List Nat)
  | [] => some []
  | [a, b, '=', '='] => do
    let x ← base64Digit a
    let y ← base64Digit b
    some [(x * 4 + y / 16) % 256]
  | [a, b, c, '='] => do
    let x ← base64Digit a
    let y ← base64Digit b
    let z ← base64Digit c
    some [(x * 4 + y / 16) % 256, (y * 16 + z / 4) % 256]
  | a :: b :: c :: d :: rest => do
    let x ← base64Digit a
    let y ← base64Digit b
    let z ← base64Digit c
    let w ← base64Digit d
    let more ← decodeBase64 rest
    some ((x * 4 + y / 16) % 256 :: (y * 16 + z / 4) % 256 :: (z * 64 + w) % 256 :: more)
  | _ => none

/-- Resolve a scalar of text `s` with the explicit tag `tag`: `!!str` is a string, `!!binary`
is decoded from base 64 (line breaks ignored), and the tags of the core schema must be the tag the
text resolves to, but for an integer of 64 bits tagged `!!float`. Any other tag gives a string.
A mismatch is an error. -/
def Value.ofTagged (tag s : String) : Except String Value :=
  if tag = "!!str" then .ok .str
  else if tag = "!!binary" then
    match decodeBase64 (s.toList.filter fun c => c ≠ '\n' ∧ c ≠ '\r') with
    | some bytes => .ok (.binary (Text.ofBytes bytes))
    | none => .error "!!binary value contains invalid base64 data"
  else if tag ∈ ["!!bool", "!!int", "!!float", "!!null", "!!timestamp"] then
    let v := Value.resolve (tag = "!!timestamp") s
    let mismatch : Except String Value :=
      .error ("cannot decode " ++ v.tag ++ " `" ++ s ++ "` as a " ++ tag)
    if v.tag = tag then .ok v
    else match v with
      | .int i =>
        if tag = "!!float" ∧ -Int.pow 2 63 ≤ i ∧ i < Int.pow 2 63 then
          .ok (.float ⟨i < 0, i.natAbs, 0⟩)
        else mismatch
      | _ => mismatch
  else .ok .str

/-- The tags by which a scalar's text is resolved; any other tag takes the text as it is. -/
def resolvableTags : List String :=
  ["", "!!str", "!!bool", "!!int", "!!float", "!!null", "!!timestamp"]

/-- The tag a plain scalar bears when none is written: the tag of what its text denotes. -/
def plainTag (s : String) : String := (Value.ofPlain s).tag

end Yaml

end RegisterLiveness
