/-!
# Text from arbitrary bytes

Decoded data, such as base-64 text, is a sequence of bytes that need not be UTF-8. Such bytes
are read as text character by character: a well-formed UTF-8 sequence (RFC 3629 §4) is the
character it encodes, and every other byte is kept as a *stray byte*, the character
`U+DB000 + b` of plane 13, where no character is assigned; a text that holds those characters
itself is taken to hold the bytes they keep. Each way of
writing text then shows a stray byte as its rule for a byte outside UTF-8: quoting writes it as
`\x` and two hexadecimal digits, JSON as the escape of `U+FFFD`, and the streams of a run, read
as UTF-8, as the replacement character `U+FFFD` itself.
-/

namespace RegisterLiveness

namespace Text

/-- The first character of the plane where stray bytes are kept. -/
def strayBase : Nat := 0xDB000

/-- A stray byte `b`, at least `0x80`, as a character. -/
def strayByte (b : Nat) : Char := Char.ofNat (strayBase + b)

/-- The byte a stray-byte character keeps. -/
def strayByte? (c : Char) : Option Nat :=
  if strayBase + 0x80 ≤ c.toNat ∧ c.toNat < strayBase + 0x100 then some (c.toNat - strayBase)
  else none

/-- Whether a byte continues a UTF-8 sequence: `%x80-BF`. -/
def isTail (b : Nat) : Bool := 0x80 ≤ b ∧ b ≤ 0xBF

/-- The character a well-formed UTF-8 sequence at the start of `bs` encodes, and its length:
one byte below `0x80`; a lead `C2-DF` and a tail; `E0-EF` and two tails, the first within
`A0-BF` after `E0` and within `80-9F` after `ED`; `F0-F4` and three tails, the first within
`90-BF` after `F0` and within `80-8F` after `F4`. -/
def leadingChar? : List Nat → Option (Char × Nat)
  | [] => none
  | a :: rest =>
    if a < 0x80 then some (Char.ofNat a, 1)
    else if 0xC2 ≤ a ∧ a ≤ 0xDF then
      match rest with
      | b :: _ => if isTail b then some (Char.ofNat ((a - 0xC0) * 64 + (b - 0x80)), 2) else none
      | [] => none
    else if 0xE0 ≤ a ∧ a ≤ 0xEF then
      match rest with
      | b :: c :: _ =>
        let lo := if a = 0xE0 then 0xA0 else 0x80
        let hi := if a = 0xED then 0x9F else 0xBF
        if lo ≤ b ∧ b ≤ hi ∧ isTail c then
          some (Char.ofNat (((a - 0xE0) * 64 + (b - 0x80)) * 64 + (c - 0x80)), 3)
        else none
      | _ => none
    else if 0xF0 ≤ a ∧ a ≤ 0xF4 then
      match rest with
      | b :: c :: d :: _ =>
        let lo := if a = 0xF0 then 0x90 else 0x80
        let hi := if a = 0xF4 then 0x8F else 0xBF
        if lo ≤ b ∧ b ≤ hi ∧ isTail c ∧ isTail d then
          some (Char.ofNat ((((a - 0xF0) * 64 + (b - 0x80)) * 64 + (c - 0x80)) * 64 + (d - 0x80)), 4)
        else none
      | _ => none
    else none

/-- The characters of a sequence of bytes, each byte outside a well-formed UTF-8 sequence kept as
a stray byte. `fuel` bounds the number of characters. -/
def decodeBytes : (fuel : Nat) → List Nat → List Char
  | 0, _ => []
  | _, [] => []
  | fuel + 1, b :: rest =>
    match leadingChar? (b :: rest) with
    | some (c, n) => c :: decodeBytes fuel ((b :: rest).drop n)
    | none => strayByte b :: decodeBytes fuel rest

/-- The text of a sequence of bytes. -/
def ofBytes (bytes : List Nat) : String := String.ofList (decodeBytes bytes.length bytes)

/-- The number of bytes a character stands for: one for a stray byte, else the length of its
UTF-8 encoding. -/
def byteSize (c : Char) : Nat := if (strayByte? c).isSome then 1 else c.utf8Size

/-- The bytes a character stands for. -/
def bytesOf (c : Char) : List Nat :=
  match strayByte? c with
  | some b => [b]
  | none => (String.singleton c).toUTF8.toList.map (·.toNat)

/-- The number of bytes a text stands for. -/
def byteLength (s : String) : Nat := s.toList.foldl (fun n c => n + byteSize c) 0

/-- The longest prefix of a text standing for at most `n` bytes, followed by the leading bytes of
the character the limit cuts, as stray bytes, up to `n` bytes in all. -/
def takeBytes (n : Nat) (s : String) : String :=
  String.ofList (go n s.toList)
where
  go (room : Nat) : List Char → List Char
    | [] => []
    | c :: cs =>
      if byteSize c ≤ room then c :: go (room - byteSize c) cs
      else ((bytesOf c).take room).map strayByte

/-- The last byte of a text, as a text: the last character when it is a single byte, else its
last byte as a stray byte. -/
def lastByte (s : String) : String :=
  match s.toList.getLast? with
  | none => ""
  | some c =>
    match (bytesOf c).getLast? with
    | some b => if b < 0x80 then String.singleton c else String.singleton (strayByte b)
    | none => ""

/-- A text as a reader of UTF-8 sees it: every stray byte replaced by `U+FFFD`. -/
def readable (s : String) : String :=
  s.map fun c => if (strayByte? c).isSome then '\uFFFD' else c

end Text

end RegisterLiveness
