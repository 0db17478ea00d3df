import RegisterLiveness.Text.Quoted

/-!
# JSON text

`JsonValue.render` writes a value the way a report is printed for people and programs alike:
members of an object in the order given, two spaces of indentation per level, one member or
element per line, and empty arrays and objects as `[]` and `{}`. Strings are escaped so that they
can be embedded in HTML: besides quotes, backslashes and control characters, `<`, `>`, `&` and the
line and paragraph separators are written as `\u` escapes, and a stray byte as the escape of
the replacement character.
-/

namespace RegisterLiveness

namespace Text

/-- A JSON value; objects keep the order of their members. -/
inductive JsonValue where
  | null
  | bool (b : Bool)
  | num (n : Int)
  | str (s : String)
  | arr (items : List JsonValue)
  | obj (fields : List (String × JsonValue))
  deriving Repr, Inhabited

/-- A `\u` escape of a character below `0x10000`, in four lowercase hexadecimal digits. -/
def unicodeEscape (n : Nat) : List Char :=
  ['\\', 'u', hexDigit (n / 4096 % 16), hexDigit (n / 256 % 16), hexDigit (n / 16 % 16), hexDigit (n % 16)]

/-- How one character is written inside a JSON string. -/
def jsonChar (c : Char) : List Char :=
  if (strayByte? c).isSome then unicodeEscape 0xFFFD
  else if c = '"' then ['\\', '"']
  else if c = '\\' then ['\\', '\\']
  else if c = '\n' then ['\\', 'n']
  else if c = '\r' then ['\\', 'r']
  else if c = '\t' then ['\\', 't']
  else if c.toNat = 8 then ['\\', 'b']
  else if c.toNat = 12 then ['\\', 'f']
  else if c.toNat < 32 ∨ c = '<' ∨ c = '>' ∨ c = '&' ∨ c.toNat = 0x2028 ∨ c.toNat = 0x2029 then
    unicodeEscape c.toNat
  else [c]

/-- A string as a JSON string literal. -/
def jsonString (s : String) : String := String.ofList ('"' :: s.toList.flatMap jsonChar ++ ['"'])

/-- Two spaces per level of nesting. -/
def indentOf (depth : Nat) : String := String.ofList (List.replicate (2 * depth) ' ')

mutual

/-- The text of a value nested `depth` levels deep; its first line is not indented. -/
def JsonValue.renderAt (depth : Nat) : JsonValue → String
  | .null => "null"
  | .bool b => toString b
  | .num n => toString n
  | .str s => jsonString s
  | .arr items =>
    if items.isEmpty then "[]"
    else "[\n" ++ JsonValue.renderItems (depth + 1) items ++ "\n" ++ indentOf depth ++ "]"
  | .obj fields =>
    if fields.isEmpty then "\x7b\x7d"
    else "\x7b\n" ++ JsonValue.renderFields (depth + 1) fields ++ "\n" ++ indentOf depth ++ "\x7d"

/-- Array items, one per line, each indented `depth` levels. -/
def JsonValue.renderItems (depth : Nat) : List JsonValue → String
  | [] => ""
  | [v] => indentOf depth ++ v.renderAt depth
  | v :: vs => indentOf depth ++ v.renderAt depth ++ ",\n" ++ JsonValue.renderItems depth vs

/-- Object fields, one per line, each indented `depth` levels. -/
def JsonValue.renderFields (depth : Nat) : List (String × JsonValue) → String
  | [] => ""
  | [f] => JsonValue.renderField depth f
  | f :: fs => JsonValue.renderField depth f ++ ",\n" ++ JsonValue.renderFields depth fs

/-- One object field, indented `depth` levels. -/
def JsonValue.renderField (depth : Nat) : String × JsonValue → String
  | (k, v) => indentOf depth ++ jsonString k ++ ": " ++ v.renderAt depth

end

/-- The text of a value, followed by a newline. -/
def JsonValue.render (v : JsonValue) : String := v.renderAt 0 ++ "\n"

end Text

end RegisterLiveness
