import RegisterLiveness.Text.Unicode
import RegisterLiveness.Text.Bytes

/-!
# Quoted strings

`quote s` writes `s` between double quotes so that it can be read back unambiguously: a quote
and a backslash are preceded by a backslash, the usual control characters take their one-letter
escapes, other control characters and DEL are written as `\x` and two hexadecimal digits, the
characters beyond ASCII that are not graphic (`isGraphic`) as `\u` and four digits (`\U` and
eight beyond the basic plane), a stray byte as `\x` and two digits, and every other character
stands for itself. `quoteRune c` writes
one character the same way between apostrophes, where the apostrophe is escaped instead of the
double quote.
-/

namespace RegisterLiveness

namespace Text

/-- The hexadecimal digit of a value below sixteen, lowercase. -/
def hexDigit (d : Nat) : Char := if d < 10 then Char.ofNat (48 + d) else Char.ofNat (87 + d)

/-- The lowercase hexadecimal digits of `n`, `width` of them. -/
def hexDigits (n : Nat) : (width : Nat) → List Char
  | 0 => []
  | w + 1 => hexDigits (n / 16) w ++ [hexDigit (n % 16)]

/-- How one character is written inside quotes of kind `q`. -/
def escapeWithin (q : Char) (c : Char) : List Char :=
  if let some b := strayByte? c then ['\\', 'x', hexDigit (b / 16), hexDigit (b % 16)]
  else if c = q then ['\\', q]
  else if c = '\\' then ['\\', '\\']
  else if c = '\n' then ['\\', 'n']
  else if c = '\t' then ['\\', 't']
  else if c = '\r' then ['\\', 'r']
  else if c.toNat = 7 then ['\\', 'a']
  else if c.toNat = 8 then ['\\', 'b']
  else if c.toNat = 12 then ['\\', 'f']
  else if c.toNat = 11 then ['\\', 'v']
  else if c.toNat < 0x80 ∧ !isGraphic c then
    ['\\', 'x', hexDigit (c.toNat / 16), hexDigit (c.toNat % 16)]
  else if !isGraphic c then
    if c.toNat < 0x10000 then '\\' :: 'u' :: hexDigits c.toNat 4 else '\\' :: 'U' :: hexDigits c.toNat 8
  else [c]

/-- How one character is written inside double quotes. -/
def quoteChar (c : Char) : List Char := escapeWithin '"' c

/-- The string between double quotes, escaped. -/
def quote (s : String) : String := String.ofList ('"' :: s.toList.flatMap quoteChar ++ ['"'])

/-- The character between apostrophes, escaped. -/
def quoteRune (c : Char) : String := String.ofList ('\'' :: escapeWithin '\'' c ++ ['\''])

end Text

end RegisterLiveness
