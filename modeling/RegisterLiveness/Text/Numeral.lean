/-!
# Numerals

Integer numerals as configuration values write them: an optional sign, then a base prefix (`0x`,
`0o`, `0b`, or a bare leading `0` for octal; decimal otherwise), then digits, with single
underscores allowed between digits and after a prefix. A numeral reads only if it fits the
range asked for.

Decimal numerals with a point or an exponent denote the binary64 value nearest to them (ties to
even); `Decimal.truncate` gives the integer part of that value, which is what converting such a
value to an integer keeps.
-/

namespace RegisterLiveness

namespace Numeral

/-- The value of a digit in bases up to 36, letters in either case. -/
def digitValue (c : Char) : Option Nat :=
  if '0' ≤ c ∧ c ≤ '9' then some (c.toNat - 48)
  else if 'a' ≤ c ∧ c ≤ 'z' then some (c.toNat - 87)
  else if 'A' ≤ c ∧ c ≤ 'Z' then some (c.toNat - 55)
  else none

/-- What the last character seen was, when checking underscores. -/
inductive Seen where
  | start | digit | underscore | other
  deriving DecidableEq

/-- Whether every underscore of a numeral stands between two digits, a base prefix counting as a
digit. -/
def underscoresSeparate (s : List Char) : Bool :=
  let s := match s with
    | '+' :: r | '-' :: r => r
    | r => r
  let (seen, hex, rest) := match s with
    | '0' :: p :: r =>
      if p.toLower = 'b' ∨ p.toLower = 'o' ∨ p.toLower = 'x' then (Seen.digit, p.toLower == 'x', r)
      else (Seen.start, false, s)
    | _ => (Seen.start, false, s)
  let step (seen : Option Seen) (c : Char) : Option Seen :=
    seen.bind fun seen =>
      if ('0' ≤ c ∧ c ≤ '9') ∨ (hex ∧ 'a' ≤ c.toLower ∧ c.toLower ≤ 'f') then some .digit
      else if c = '_' then (if seen = .digit then some .underscore else none)
      else if seen = .underscore then none
      else some .other
  match rest.foldl step (some seen) with
  | some .underscore | none => false
  | _ => true

/-- The digits of an unsigned numeral with their base, after the prefix that names the base. -/
def baseOf : List Char → Nat × List Char
  | '0' :: p :: d :: r =>
    if p.toLower = 'b' then (2, d :: r)
    else if p.toLower = 'o' then (8, d :: r)
    else if p.toLower = 'x' then (16, d :: r)
    else (8, p :: d :: r)
  | '0' :: r => (8, r)
  | r => (10, r)

/-- Accumulate digits in `base`; none on a character that is no digit of the base or when the
value reaches `bound`. Underscores are skipped. -/
def digitsValue (base bound : Nat) : List Char → Nat → Option Nat
  | [], n => some n
  | c :: cs, n =>
    if c = '_' then digitsValue base bound cs n
    else match digitValue c with
      | some d => if d < base ∧ n * base + d < bound then digitsValue base bound cs (n * base + d) else none
      | none => none

/-- An unsigned numeral below `bound`, its base given by its prefix. -/
def readUnsigned (s : String) (bound : Nat) : Option Nat :=
  let cs := s.toList
  if cs.isEmpty then none
  else
    let (base, digits) := baseOf cs
    match digitsValue base bound digits 0 with
    | none => none
    | some n => if cs.contains '_' && !underscoresSeparate cs then none else some n

/-- A signed numeral in `[-2^(bits-1), 2^(bits-1))`, its base given by its prefix. -/
def readSigned (s : String) (bits : Nat) : Option Int :=
  let (neg, body) := match s.toList with
    | '+' :: r => (false, r)
    | '-' :: r => (true, r)
    | r => (false, r)
  match readUnsigned (String.ofList body) (Nat.pow 2 bits) with
  | none => none
  | some u =>
    if neg then (if u ≤ Nat.pow 2 (bits - 1) then some (-(u : Int)) else none)
    else if u < Nat.pow 2 (bits - 1) then some u else none

/-- The number of binary digits of `n`. -/
def bitLength (n : Nat) : Nat := n.log2 + 1

/-- Round `q * 2^x + r` (with `r < 2^x`) to a multiple of `2^x`, ties to even, `sticky` telling
whether something below `r` was already dropped; the multiple's quotient. -/
def roundHalfEven (q r x : Nat) (sticky : Bool) : Nat :=
  if x = 0 then q
  else
    let half := Nat.pow 2 (x - 1)
    if r > half ∨ (r = half ∧ (sticky ∨ q % 2 = 1)) then q + 1 else q

/-- A decimal value `m × 10^e` as the nearest binary64 magnitude `q × 2^s` with at most 53
significant bits, ties to even. Values too small to matter for an integer part are rounded as if
the format had no lower exponent limit. -/
def nearestBinary (m : Nat) (e : Int) : Nat × Int :=
  if m = 0 then (0, 0)
  else if 0 ≤ e then
    let n := m * Nat.pow 10 e.toNat
    let len := bitLength n
    if len ≤ 53 then (n, 0)
    else
      let x := len - 53
      (roundHalfEven (n / Nat.pow 2 x) (n % Nat.pow 2 x) x false, x)
  else
    let d := Nat.pow 10 e.natAbs
    let p := 60 + bitLength d
    let q0 := m * Nat.pow 2 p / d
    let sticky := m * Nat.pow 2 p % d ≠ 0
    let len := bitLength q0
    let x := len - 53
    (roundHalfEven (q0 / Nat.pow 2 x) (q0 % Nat.pow 2 x) x sticky, (x : Int) - p)

/-- A decimal numeral: sign, digits and a power of ten. -/
structure Decimal where
  negative : Bool
  mantissa : Nat
  exponent : Int
  deriving Repr, DecidableEq

namespace Decimal

/-- Whether the nearest binary64 value is beyond the largest finite one. -/
def overflows (d : Decimal) : Bool :=
  -- past `10^400` every nonzero value overflows, and below one none does
  if d.mantissa = 0 then false
  else if d.exponent > 400 then true
  else if d.exponent < -(bitLength d.mantissa : Int) then false
  else
    let (q, s) := nearestBinary d.mantissa d.exponent
    q ≠ 0 ∧ (bitLength q : Int) + s > 1024

/-- The integer part of the nearest binary64 value. -/
def truncate (d : Decimal) : Int :=
  let (q, s) := nearestBinary d.mantissa d.exponent
  let mag : Nat := if 0 ≤ s then q * Nat.pow 2 s.toNat else q / Nat.pow 2 s.natAbs
  if d.negative then -(mag : Int) else mag

/-- Whether the nearest binary64 value is at most `2^k` in magnitude. -/
def magnitudeAtMost (d : Decimal) (k : Nat) : Bool :=
  let (q, s) := nearestBinary d.mantissa d.exponent
  if 0 ≤ s then q * Nat.pow 2 s.toNat ≤ Nat.pow 2 k else q ≤ Nat.pow 2 k * Nat.pow 2 s.natAbs

end Decimal

/-- Digits `0`–`9`, at least one, and what follows them. -/
def spanDigits (cs : List Char) : List Char × List Char :=
  (cs.takeWhile Char.isDigit, cs.dropWhile Char.isDigit)

/-- The value of decimal digits. -/
def decimalValue (ds : List Char) : Nat := ds.foldl (fun n c => n * 10 + (c.toNat - 48)) 0

/-- A decimal numeral of the form `[sign](digits[.digits] | .digits)[e[sign]digits]`. -/
def readDecimal (s : String) : Option Decimal :=
  let (neg, cs) := match s.toList with
    | '+' :: r => (false, r)
    | '-' :: r => (true, r)
    | r => (false, r)
  let (whole, rest) := spanDigits cs
  let (frac, rest, hasPoint) := match rest with
    | '.' :: r => let (f, r) := spanDigits r; (f, r, true)
    | r => ([], r, false)
  if whole.isEmpty ∧ (frac.isEmpty ∨ !hasPoint) then none
  else
    let expo : Option Int := match rest with
      | [] => some 0
      | e :: r =>
        if e = 'e' ∨ e = 'E' then
          let (eneg, r) := match r with
            | '+' :: r => (false, r)
            | '-' :: r => (true, r)
            | r => (false, r)
          if r.isEmpty ∨ !r.all Char.isDigit then none
          else some (if eneg then -(decimalValue r : Int) else decimalValue r)
        else none
    expo.map fun x => ⟨neg, decimalValue (whole ++ frac), x - frac.length⟩

end Numeral

end RegisterLiveness
