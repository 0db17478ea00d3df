import RegisterLiveness.Text.Bytes

/-!
# YAML tokens

The first stage of reading YAML: a scanner that cuts the characters of a stream into tokens.
Indentation becomes explicit here: a block collection opens with a `blockSequenceStart` or
`blockMappingStart` token where its first entry stands and closes with a `blockEnd` token where a
line is indented less. A mapping key written without `?` (a *simple key*) is recognised only
when the `:` after it is met: the scanner remembers where each possible simple key started and
inserts the `key` token, and the mapping start if needed, before it then. A simple key must stay
on one line and within 1024 characters; one that is required, because it starts a line at the
indentation of its block mapping, is an error if no `:` follows.

The scanner is lazy: the reader of tokens asks for them one at a time, and the scanner reads on
until at least three tokens wait, more while the first waiting one may still become a key. A
fault is met when the scanning reaches it, so a fault further on in the stream does not show if
the reader stops before.

The characters are checked as they are first needed, in pieces of 512 bytes of the stream:
control characters, surrogates and the two non-characters at the top of the basic plane are
refused. A byte order mark at the start of the stream, and one at the start of a line, is
skipped. Line breaks are the line feed, the carriage return (with a line feed after it, the two
count as one break), the next-line character and the line and paragraph separators.
-/

namespace RegisterLiveness

namespace Yaml

/-- A position in a stream: the character index, the line and the column, all from 0. -/
structure Mark where
  index : Nat := 0
  line : Nat := 0
  column : Nat := 0
  deriving Repr, Inhabited, DecidableEq

/-- A malformed stream. -/
inductive Fault where
  /-- The stream holds no document. -/
  | noDocument
  /-- Tokens that do not form a node: `context` is the line (from 0) where the construct being
  read starts, 0 when there is none, and `here` the line of the offending token. -/
  | parse (context here : Nat) (problem : String)
  /-- Characters that do not form a token, with the same two lines. -/
  | scan (context here : Nat) (problem : String)
  /-- A stream that reads but cannot be built or decoded. -/
  | other (text : String)
  deriving Repr, Inhabited

/-- The message of a fault: the line named is the construct's line if it is not the first,
else the problem's line if it is not the first, else none; lines of scanning faults are counted
from 1 and those of parsing faults from 0. -/
def Fault.message : Fault → String
  | .noDocument => "EOF"
  | .parse c h p =>
    let n := if c ≠ 0 then c else h
    if n = 0 then "yaml: " ++ p else s!"yaml: line {n}: " ++ p
  | .scan c h p =>
    let n := if c ≠ 0 then c + 1 else if h ≠ 0 then h + 1 else 0
    if n = 0 then "yaml: " ++ p else s!"yaml: line {n}: " ++ p
  | .other t => "yaml: " ++ t

/-- How a scalar is written. -/
inductive ScalarStyle where
  | plain
  | singleQuoted
  | doubleQuoted
  | literal
  | folded
  deriving Repr, DecidableEq, Inhabited

/-- The kinds of tokens, with what they carry. -/
inductive TokenKind where
  | streamStart
  | streamEnd
  | versionDirective (major minor : Nat)
  | tagDirective (handle pfx : String)
  | documentStart
  | documentEnd
  | blockSequenceStart
  | blockMappingStart
  | blockEnd
  | flowSequenceStart
  | flowSequenceEnd
  | flowMappingStart
  | flowMappingEnd
  | blockEntry
  | flowEntry
  | key
  | value
  | alias (name : String)
  | anchor (name : String)
  /-- A tag: its handle (empty for a verbatim tag) and its suffix. -/
  | tag (handle suffix : String)
  | scalar (text : String) (style : ScalarStyle)
  deriving Repr, DecidableEq, Inhabited

/-- A token with the positions where it starts and ends. -/
structure Token where
  kind : TokenKind
  start : Mark
  stop : Mark
  deriving Repr, Inhabited

/-! ## Characters -/

/-- Whether the reader accepts a character: tab, line feed, carriage return, printable ASCII,
the next-line character, and the rest of Unicode but surrogates, `U+FFFE` and `U+FFFF`. -/
def isAccepted (c : Char) : Bool :=
  let v := c.toNat
  v = 0x09 || v = 0x0A || v = 0x0D || (0x20 ≤ v && v ≤ 0x7E) || v = 0x85 ||
    (0xA0 ≤ v && v ≤ 0xD7FF) || (0xE000 ≤ v && v ≤ 0xFFFD) || 0x10000 ≤ v

/-- The character that stands for the end of the stream. -/
def endChar : Char := Char.ofNat 0

/-- Whether a character is a space or a tab. -/
def isBlank (c : Char) : Bool := c = ' ' || c = '\t'

/-- Whether a character breaks a line. -/
def isBreak (c : Char) : Bool :=
  c = '\r' || c = '\n' || c = '\x85' || c = '\u2028' || c = '\u2029'

/-- Whether a character breaks a line or ends the stream. -/
def isBreakOrEnd (c : Char) : Bool := isBreak c || c = endChar

/-- Whether a character is blank, breaks a line or ends the stream. -/
def isBlankOrEnd (c : Char) : Bool := isBlank c || isBreakOrEnd c

/-- Whether a character may stand in an anchor name, a tag handle or a directive name: an ASCII
letter or digit, `_` or `-`. -/
def isWordChar (c : Char) : Bool :=
  ('0' ≤ c && c ≤ '9') || ('A' ≤ c && c ≤ 'Z') || ('a' ≤ c && c ≤ 'z') || c = '_' || c = '-'

/-- Whether a character is a decimal digit. -/
def isDigitChar (c : Char) : Bool := '0' ≤ c && c ≤ '9'

/-- The value of a hexadecimal digit. -/
def hexDigitValue (c : Char) : Option Nat :=
  if '0' ≤ c ∧ c ≤ '9' then some (c.toNat - 48)
  else if 'a' ≤ c ∧ c ≤ 'f' then some (c.toNat - 87)
  else if 'A' ≤ c ∧ c ≤ 'F' then some (c.toNat - 55)
  else none

/-- Whether a character may stand in a tag. -/
def isTagChar (c : Char) : Bool :=
  isWordChar c || c = ';' || c = '/' || c = '?' || c = ':' || c = '@' || c = '&' || c = '=' ||
    c = '+' || c = '$' || c = '.' || c = '!' || c = '~' || c = '*' || c = '\'' || c = '(' ||
    c = ')' || c = '%'

/-- Whether a character may stand in a verbatim tag or a tag prefix: a tag character or a flow
indicator but the braces. -/
def isUriChar (c : Char) : Bool := isTagChar c || c = ',' || c = '[' || c = ']'

/-- Whether a character is one of the indicators that end a plain scalar inside a flow
collection. -/
def isFlowIndicator (c : Char) : Bool := c = ',' || c = '[' || c = ']' || c = '{' || c = '}'

/-! ## The scanner -/

/-- A place where a simple key may start. -/
structure SimpleKey where
  possible : Bool := false
  /-- Whether the key must be followed by `:`. -/
  required : Bool := false
  /-- The number of the token that would be the key, counting every token of the stream. -/
  tokenNumber : Nat := 0
  mark : Mark := {}
  deriving Repr, Inhabited

/-- A scanner in the middle of a stream. -/
structure Scanner where
  input : Array Char
  /-- For each character, the piece of 512 bytes of the stream in which it ends. -/
  pieceOf : Array Nat
  /-- The index of the first character the reader refuses. -/
  firstRefused : Option Nat
  /-- How many characters have been checked. -/
  checked : Nat := 0
  mark : Mark := {}
  /-- A bound on the characters and tokens of the stream, for loops. -/
  fuel : Nat
  streamStarted : Bool := false
  /-- Whether the reader of tokens took the end of the stream. -/
  streamEnded : Bool := false
  flowLevel : Nat := 0
  /-- The tokens scanned and not yet taken. -/
  queue : List Token := []
  /-- How many tokens were taken. -/
  taken : Nat := 0
  /-- Whether a token waits, ready to be taken. -/
  ready : Bool := false
  /-- The column of the innermost block collection, -1 outside any. -/
  indent : Int := -1
  /-- The columns of the enclosing block collections, innermost first. -/
  indents : List Int := []
  simpleKeyAllowed : Bool := false
  /-- One possible simple key per flow level, the outermost first. -/
  simpleKeys : Array SimpleKey := #[]
  /-- Which possible simple key each token number stands for. -/
  keysByToken : List (Nat × Nat) := []
  /-- Line breaks since the last character other than a blank. -/
  newlines : Nat := 0
  deriving Inhabited

/-- A scanner at the start of a stream. A byte order mark at its start is dropped. -/
def Scanner.init (text : String) : Scanner :=
  let (chars, offset) := match text.toList with
    | '\uFEFF' :: r => (r, 3)
    | cs => (cs, 0)
  let ends := (chars.foldl (fun (acc : List Nat × Nat) c =>
    let e := acc.2 + c.utf8Size
    (((e - 1) / 512) :: acc.1, e)) ([], offset)).1.reverse
  { input := chars.toArray
    pieceOf := ends.toArray
    firstRefused := chars.findIdx? (!isAccepted ·)
    fuel := 4 * chars.length + 64 }

/-- The character `k` places ahead; `endChar` past the end. -/
def Scanner.at (s : Scanner) (k : Nat) : Char := s.input.getD (s.mark.index + k) endChar

/-- Scanning that may meet a fault. -/
abbrev ScanM := StateT Scanner (Except Fault)

/-- Make sure the next `n` characters have been checked, checking the pieces of the stream that
hold them. -/
def cache (n : Nat) : ScanM Unit := do
  let s ← get
  let want := min (s.mark.index + n) s.input.size
  if want ≤ s.checked then return
  let piece := s.pieceOf.getD (want - 1) 0
  let upto := (s.pieceOf.toList.takeWhile (· ≤ piece)).length
  if s.firstRefused.any (· < upto) then throw (.other "control characters are not allowed")
  set { s with checked := upto }

/-- The character `k` places ahead. -/
def ahead (k : Nat) : ScanM Char := return (← get).at k

/-- Move past the next character, which breaks no line, and return it. -/
def advance : ScanM Char := do
  let s ← get
  let c := s.at 0
  set { s with
    newlines := if isBlank c then s.newlines else 0
    mark := { s.mark with index := s.mark.index + 1, column := s.mark.column + 1 } }
  return c

/-- Move past the next character, which breaks no line. -/
def skip : ScanM Unit := do let _ ← advance

/-- Move past a line break, a carriage return and line feed counting as one. -/
def skipLine : ScanM Unit := modify fun s =>
  let m := s.mark
  if s.at 0 = '\r' ∧ s.at 1 = '\n' then
    { s with mark := ⟨m.index + 2, m.line + 1, 0⟩, newlines := s.newlines + 1 }
  else if isBreak (s.at 0) then
    { s with mark := ⟨m.index + 1, m.line + 1, 0⟩, newlines := s.newlines + 1 }
  else s

/-- Move past a line break and return what it reads as: a line feed, or the line or paragraph
separator itself; nothing if no line break is next. -/
def readLine : ScanM (List Char) := do
  let s ← get
  let c := s.at 0
  if !isBreak c then return []
  skipLine
  return if c = '\u2028' ∨ c = '\u2029' then [c] else ['\n']

/-- A scanning fault: the construct began at `context`, and the problem stands here. -/
def scanFault {α : Type} (context : Mark) (problem : String) : ScanM α := do
  throw (.scan context.line (← get).mark.line problem)

/-- Add a token at the end of the queue. -/
def appendToken (t : Token) : ScanM Unit := modify fun s => { s with queue := s.queue ++ [t] }

/-- Insert a token `pos` places after the first waiting one. -/
def insertToken (pos : Nat) (t : Token) : ScanM Unit := modify fun s =>
  { s with queue := s.queue.take pos ++ t :: s.queue.drop pos }

/-- Replace the possible simple key at flow level `i`. -/
def setSimpleKey (i : Nat) (k : SimpleKey) : ScanM Unit := modify fun s =>
  { s with simpleKeys := s.simpleKeys.set! i k }

/-- Forget which key a token number stands for. -/
def forgetKeyToken (n : Nat) : ScanM Unit := modify fun s =>
  { s with keysByToken := s.keysByToken.filter (·.1 ≠ n) }

/-- Whether the possible simple key at flow level `i` can still be a key: it is on the current
line and at most 1024 characters back. A required key that cannot is a fault; another one is
dropped. -/
def simpleKeyValid (i : Nat) : ScanM Bool := do
  let s ← get
  let k := s.simpleKeys.getD i {}
  if !k.possible then return false
  if k.mark.line < s.mark.line ∨ k.mark.index + 1024 < s.mark.index then
    if k.required then scanFault k.mark "could not find expected ':'"
    setSimpleKey i { k with possible := false }
    return false
  return true

/-- Drop the possible simple key of the current flow level; a required one is a fault. -/
def removeSimpleKey : ScanM Unit := do
  let s ← get
  let i := s.simpleKeys.size - 1
  let k := s.simpleKeys.getD i {}
  if k.possible then
    if k.required then scanFault k.mark "could not find expected ':'"
    setSimpleKey i { k with possible := false }
    forgetKeyToken k.tokenNumber

/-- Remember that the next token may be a simple key, if one may start here. It is required
when it starts a line of a block mapping at the mapping's column. -/
def saveSimpleKey : ScanM Unit := do
  let s ← get
  let required := s.flowLevel = 0 ∧ s.indent = (s.mark.column : Int)
  if s.simpleKeyAllowed then
    let k : SimpleKey := ⟨true, required, s.taken + s.queue.length, s.mark⟩
    removeSimpleKey
    let i := (← get).simpleKeys.size - 1
    setSimpleKey i k
    modify fun s => { s with keysByToken := (k.tokenNumber, i) :: s.keysByToken.filter (·.1 ≠ k.tokenNumber) }

/-- Enter a flow collection. -/
def increaseFlowLevel : ScanM Unit := do
  let s ← get
  set { s with simpleKeys := s.simpleKeys.push { mark := s.mark }, flowLevel := s.flowLevel + 1 }
  if s.flowLevel + 1 > 10000 then scanFault s.mark "exceeded max depth of 10000"

/-- Leave a flow collection. -/
def decreaseFlowLevel : ScanM Unit := do
  let s ← get
  if s.flowLevel > 0 then
    let k := s.simpleKeys.back?.getD {}
    set { s with flowLevel := s.flowLevel - 1, simpleKeys := s.simpleKeys.pop }
    forgetKeyToken k.tokenNumber

/-- In block context, open a block collection at `column` if it is right of the current one:
the token of kind `kind` goes at the end of the queue, or before the token numbered `number`. -/
def rollIndent (column : Nat) (number : Option Nat) (kind : TokenKind) (mark : Mark) :
    ScanM Unit := do
  let s ← get
  if s.flowLevel > 0 then return
  if s.indent < (column : Int) then
    set { s with indents := s.indent :: s.indents, indent := column }
    if s.indents.length + 1 > 10000 then
      scanFault ((s.simpleKeys.back?.getD {}).mark) "exceeded max depth of 10000"
    let t : Token := ⟨kind, mark, mark⟩
    match number with
    | some n => insertToken (n - s.taken) t
    | none => appendToken t

/-- In block context, close every block collection right of `column`, with `blockEnd` tokens
placed where the scanning of this token began. -/
def unrollIndent (column : Int) (scanMark : Mark) : ScanM Unit := do
  if (← get).flowLevel > 0 then return
  let m : Mark := { scanMark with index := scanMark.index - 1 }
  for _ in [0:(← get).indents.length + 1] do
    let s ← get
    if s.indent ≤ column then break
    appendToken ⟨.blockEnd, m, m⟩
    modify fun s => { s with indent := s.indents.headD (-1), indents := s.indents.tail }

/-! ## Between tokens -/

/-- Move past a comment, from its `#`, and past the comment lines right after it with the blank
lines and indentation before them, tabs included: the scanner stops at the end of the last
comment line, or before the line break of the first if what follows is no comment within 512
characters. -/
def skipComments : ScanM Unit := do
  for _ in [0:(← get).fuel] do
    for _ in [0:(← get).fuel] do
      cache 1
      if isBreakOrEnd (← ahead 0) then break
      skip
    let s ← get
    let next := (List.range 511).map (· + 1) |>.find? fun k => !isBlank (s.at k) && !isBreak (s.at k)
    let some k := next | break
    if s.at k ≠ '#' then break
    let target := s.mark.index + k
    for _ in [0:(← get).fuel] do
      let s ← get
      if s.mark.index ≥ target then break
      cache 2
      if isBreak (s.at 0) then skipLine else skip

/-- Move to the start of the next token, past blanks, comments and line breaks. Tabs are skipped
inside flow collections and where no simple key may start; a line break in block context allows
one. -/
def scanToNextToken : ScanM Unit := do
  for _ in [0:(← get).fuel] do
    cache 1
    if (← get).mark.column = 0 ∧ (← ahead 0) = '\uFEFF' then skip
    cache 1
    for _ in [0:(← get).fuel] do
      let s ← get
      if !(s.at 0 = ' ' ∨ ((s.flowLevel > 0 ∨ !s.simpleKeyAllowed) ∧ s.at 0 = '\t')) then break
      skip
      cache 1
    if (← ahead 0) = '#' then skipComments
    if isBreak (← ahead 0) then
      cache 2
      skipLine
      if (← get).flowLevel = 0 then modify fun s => { s with simpleKeyAllowed := true }
    else break

/-- After a token, move past blanks and a comment that end its line. -/
def scanLineComment : ScanM Unit := do
  if (← get).newlines > 0 then return
  let s ← get
  let blanks := ((List.range 512).takeWhile fun k => isBlank (s.at k)).length
  if blanks < 512 ∧ s.at blanks = '#' then
    for _ in [0:s.fuel] do
      cache 1
      if isBreakOrEnd (← ahead 0) then break
      skip

/-! ## Directives -/

/-- Skip blanks. -/
def skipBlanks : ScanM Unit := do
  for _ in [0:(← get).fuel] do
    cache 1
    if !isBlank (← ahead 0) then break
    skip

/-- The characters satisfying `p` ahead, consumed. -/
def spanWhile (p : Char → Bool) : ScanM (List Char) := do
  let mut acc : List Char := []
  for _ in [0:(← get).fuel] do
    cache 1
    let c ← ahead 0
    if !p c then break
    acc := c :: acc
    skip
  return acc.reverse

/-- The number of a `%YAML` directive: one or two digits. -/
def scanVersionNumber (start : Mark) : ScanM Nat := do
  let mut value := 0
  let mut length := 0
  for _ in [0:3] do
    cache 1
    let c ← ahead 0
    if !isDigitChar c then break
    length := length + 1
    if length > 2 then scanFault start "found extremely long version number"
    value := value * 10 + (c.toNat - 48)
    skip
  if length = 0 then scanFault start "did not find expected version number"
  return value

/-- A tag handle: `!`, `!!` or `!word!`; in a directive, a handle that does not end with `!` is
a fault unless it is `!` alone. -/
def scanTagHandle (directive : Bool) (start : Mark) : ScanM String := do
  cache 1
  if (← ahead 0) ≠ '!' then scanFault start "did not find expected '!'"
  skip
  let word ← spanWhile isWordChar
  if (← ahead 0) = '!' then
    skip
    return "!" ++ String.ofList word ++ "!"
  if directive ∧ !word.isEmpty then scanFault start "did not find expected '!'"
  return "!" ++ String.ofList word

/-- The bytes of percent escapes `%HH` ahead, for one UTF-8 character. -/
def scanUriEscapes (start : Mark) : ScanM (List Nat) := do
  let mut bytes : List Nat := []
  let mut width := 0
  for _ in [0:4] do
    cache 3
    let s ← get
    let octet := match hexDigitValue (s.at 1), hexDigitValue (s.at 2) with
      | some h, some l => if s.at 0 = '%' then some (h * 16 + l) else none
      | _, _ => none
    let some o := octet | scanFault start "did not find URI escaped octet"
    if bytes.isEmpty then
      width := if o < 0x80 then 1 else if o / 32 = 6 then 2 else if o / 16 = 14 then 3
        else if o / 8 = 30 then 4 else 0
      if width = 0 then scanFault start "found an incorrect leading UTF-8 octet"
    else if o / 64 ≠ 2 then scanFault start "found an incorrect trailing UTF-8 octet"
    bytes := bytes ++ [o]
    skip; skip; skip
    if bytes.length = width then break
  return bytes

/-- The characters of a tag URI, after `head` (a handle read that was no handle), with percent
escapes decoded; `uri` allows the flow indicators of a URI. Empty is a fault. -/
def scanTagUri (uri : Bool) (head : String) (start : Mark) : ScanM String := do
  let mut acc : List Char := (head.toList.drop 1).reverse
  let mut any := !head.isEmpty
  for _ in [0:(← get).fuel] do
    cache 1
    let c ← ahead 0
    if !(if uri then isUriChar c else isTagChar c) then break
    if c = '%' then
      let bytes ← scanUriEscapes start
      acc := (Text.ofBytes bytes).toList.reverse ++ acc
    else
      acc := c :: acc
      skip
    any := true
  if !any then scanFault start "did not find expected tag URI"
  return String.ofList acc.reverse

/-- The rest of a directive line: blanks, a comment, and the line break. -/
def finishDirectiveLine (start : Mark) : ScanM Unit := do
  skipBlanks
  if (← ahead 0) = '#' then
    for _ in [0:(← get).fuel] do
      if isBreakOrEnd (← ahead 0) then break
      skip
      cache 1
  if !isBreakOrEnd (← ahead 0) then scanFault start "did not find expected comment or line break"
  if isBreak (← ahead 0) then
    cache 2
    skipLine

/-- A directive, from its `%`: `%YAML major.minor` or `%TAG handle prefix`. -/
def scanDirective : ScanM Token := do
  let start := (← get).mark
  skip
  let name ← spanWhile isWordChar
  if name.isEmpty then scanFault start "could not find expected directive name"
  if !isBlankOrEnd (← ahead 0) then scanFault start "found unexpected non-alphabetical character"
  let kind ← if name = ['Y', 'A', 'M', 'L'] then do
      skipBlanks
      let major ← scanVersionNumber start
      if (← ahead 0) ≠ '.' then scanFault start "did not find expected digit or '.' character"
      skip
      let minor ← scanVersionNumber start
      pure (TokenKind.versionDirective major minor)
    else if name = ['T', 'A', 'G'] then do
      skipBlanks
      let handle ← scanTagHandle true start
      cache 1
      if !isBlank (← ahead 0) then scanFault start "did not find expected whitespace"
      skipBlanks
      let pfx ← scanTagUri true "" start
      cache 1
      if !isBlankOrEnd (← ahead 0) then
        scanFault start "did not find expected whitespace or line break"
      pure (TokenKind.tagDirective handle pfx)
    else scanFault start "found unknown directive name"
  let stop := (← get).mark
  finishDirectiveLine start
  return ⟨kind, start, stop⟩

/-! ## Anchors, aliases and tags -/

/-- An anchor `&name` or an alias `*name`, from its indicator. The name must be followed by a
blank, a line end or one of `?:,]}%@` and the backquote. -/
def scanAnchor (isAlias : Bool) : ScanM Token := do
  let start := (← get).mark
  skip
  let name ← spanWhile isWordChar
  let stop := (← get).mark
  let c ← ahead 0
  let closes := isBlankOrEnd c || c = '?' || c = ':' || c = ',' || c = ']' || c = '}' ||
    c = '%' || c = '@' || c = Char.ofNat 96
  if name.isEmpty ∨ !closes then
    scanFault start "did not find expected alphabetic or numeric character"
  let n := String.ofList name
  return ⟨if isAlias then .alias n else .anchor n, start, stop⟩

/-- A tag, from its `!`: verbatim `!<uri>`, `!handle!suffix`, or `!suffix`, the non-specific
tag `!` being handle `""` and suffix `!`. A blank or a line end must follow it, or a comma
inside a flow collection. -/
def scanTag : ScanM Token := do
  let start := (← get).mark
  cache 2
  let (handle, suffix) ← if (← ahead 1) = '<' then do
      skip; skip
      let suffix ← scanTagUri true "" start
      if (← ahead 0) ≠ '>' then scanFault start "did not find the expected '>'"
      skip
      pure ("", suffix)
    else do
      let handle ← scanTagHandle false start
      if handle.length > 1 ∧ handle.endsWith "!" then
        pure (handle, ← scanTagUri false "" start)
      else
        let suffix ← scanTagUri false handle start
        if suffix.isEmpty then pure ("", "!") else pure ("!", suffix)
  cache 1
  let c ← ahead 0
  if !isBlankOrEnd c ∧ ((← get).flowLevel = 0 ∨ c ≠ ',') then
    scanFault start "did not find expected whitespace or line break"
  return ⟨.tag handle suffix, start, (← get).mark⟩

/-! ## Scalars -/

/-- Join what stood between two pieces of a flow or plain scalar: the blanks when no line broke,
else the line breaks folded (one break is a space, more are all but the first). -/
def joinGap (leadingBlanks : Bool) (whitespaces leadingBreak trailingBreaks : List Char) :
    List Char :=
  if leadingBlanks then
    if leadingBreak.head? = some '\n' then
      if trailingBreaks.isEmpty then [' '] else trailingBreaks
    else leadingBreak ++ trailingBreaks
  else whitespaces

/-- The character a one-letter escape of a double-quoted scalar stands for, or the number of
hexadecimal digits a code escape takes. -/
def escapeOf (c : Char) : Option (Sum Char Nat) :=
  match c with
  | '0' => some (.inl (Char.ofNat 0)) | 'a' => some (.inl (Char.ofNat 7))
  | 'b' => some (.inl (Char.ofNat 8)) | 't' => some (.inl '\t') | '\t' => some (.inl '\t')
  | 'n' => some (.inl '\n') | 'v' => some (.inl (Char.ofNat 11))
  | 'f' => some (.inl (Char.ofNat 12)) | 'r' => some (.inl '\r')
  | 'e' => some (.inl (Char.ofNat 27)) | ' ' => some (.inl ' ') | '"' => some (.inl '"')
  | '\'' => some (.inl '\'') | '/' => some (.inl '/') | '\\' => some (.inl '\\')
  | 'N' => some (.inl '\x85') | '_' => some (.inl '\xA0')
  | 'L' => some (.inl '\u2028') | 'P' => some (.inl '\u2029')
  | 'x' => some (.inr 2) | 'u' => some (.inr 4) | 'U' => some (.inr 8)
  | _ => none

/-- Whether the three characters ahead are a document marker `---` or `...` at a line start,
followed by a blank, a line break or the end. -/
def atDocumentMarker (s : Scanner) : Bool :=
  s.mark.column = 0 ∧
    ((s.at 0 = '-' ∧ s.at 1 = '-' ∧ s.at 2 = '-') ∨ (s.at 0 = '.' ∧ s.at 1 = '.' ∧ s.at 2 = '.')) ∧
    isBlankOrEnd (s.at 3)

/-- A single- or double-quoted scalar, from its opening quote. -/
def scanQuotedScalar (single : Bool) : ScanM Token := do
  let start := (← get).mark
  skip
  let mut text : List Char := []
  for _ in [0:(← get).fuel] do
    cache 4
    if atDocumentMarker (← get) then scanFault start "found unexpected document indicator"
    if (← ahead 0) = endChar then scanFault start "found unexpected end of stream"
    let mut leadingBlanks := false
    for _ in [0:(← get).fuel] do
      let s ← get
      let c := s.at 0
      if isBlankOrEnd c then break
      if single ∧ c = '\'' ∧ s.at 1 = '\'' then
        text := '\'' :: text
        skip; skip
      else if single ∧ c = '\'' then break
      else if !single ∧ c = '"' then break
      else if !single ∧ c = '\\' ∧ isBreak (s.at 1) then
        cache 3
        skip
        skipLine
        leadingBlanks := true
        break
      else if !single ∧ c = '\\' then
        match escapeOf (s.at 1) with
        | none => scanFault start "found unknown escape character"
        | some (.inl e) =>
          text := e :: text
          skip; skip
        | some (.inr width) =>
          skip; skip
          cache width
          let s ← get
          let digits := (List.range width).map fun k => hexDigitValue (s.at k)
          if digits.any (·.isNone) then scanFault start "did not find expected hexdecimal number"
          let v : Nat := digits.foldl (fun n d => n * 16 + d.getD 0) 0
          if (0xD800 ≤ v ∧ v ≤ 0xDFFF) ∨ v > 0x10FFFF then
            scanFault start "found invalid Unicode character escape code"
          text := Char.ofNat v :: text
          for _ in [0:width] do skip
      else
        text := c :: text
        skip
      cache 2
    cache 1
    let c ← ahead 0
    if (single ∧ c = '\'') ∨ (!single ∧ c = '"') then break
    let mut whitespaces : List Char := []
    let mut leadingBreak : List Char := []
    let mut trailingBreaks : List Char := []
    for _ in [0:(← get).fuel] do
      let c ← ahead 0
      if !(isBlank c ∨ isBreak c) then break
      if isBlank c then
        if !leadingBlanks then whitespaces := whitespaces ++ [c]
        skip
      else
        cache 2
        if !leadingBlanks then
          whitespaces := []
          leadingBreak ← readLine
          leadingBlanks := true
        else trailingBreaks := trailingBreaks ++ (← readLine)
      cache 1
    text := (joinGap leadingBlanks whitespaces leadingBreak trailingBreaks).reverse ++ text
  skip
  let stop := (← get).mark
  return ⟨.scalar (String.ofList text.reverse) (if single then .singleQuoted else .doubleQuoted),
    start, stop⟩

/-- Whether a plain scalar ends before the next character, which is no blank: before `:` and a
blank, and inside a flow collection before a flow indicator or `:` followed by one or by `?`. -/
def plainEndsHere (s : Scanner) : Bool :=
  let c := s.at 0
  let d := s.at 1
  (c = ':' ∧ (isBlankOrEnd d ∨ (s.flowLevel > 0 ∧ (isFlowIndicator d ∨ d = '?')))) ∨
    (s.flowLevel > 0 ∧ isFlowIndicator c)

/-- A plain scalar. In block context it goes on over lines indented more than the current
block; it ends before a comment, a document marker, or a `:` or flow indicator that ends it. -/
def scanPlainScalar : ScanM Token := do
  let s0 ← get
  let indent : Int := s0.indent + 1
  let start := s0.mark
  let mut stop := start
  let mut text : List Char := []
  let mut whitespaces : List Char := []
  let mut leadingBreak : List Char := []
  let mut trailingBreaks : List Char := []
  let mut leadingBlanks := false
  for _ in [0:s0.fuel] do
    cache 4
    if atDocumentMarker (← get) then break
    if (← ahead 0) = '#' then break
    for _ in [0:s0.fuel] do
      let s ← get
      if isBlankOrEnd (s.at 0) ∨ plainEndsHere s then break
      if leadingBlanks ∨ !whitespaces.isEmpty then
        text := (joinGap leadingBlanks whitespaces leadingBreak trailingBreaks).reverse ++ text
        whitespaces := []
        leadingBreak := []
        trailingBreaks := []
        leadingBlanks := false
      text := (← advance) :: text
      stop := (← get).mark
      cache 2
    let c ← ahead 0
    if !(isBlank c ∨ isBreak c) then break
    cache 1
    for _ in [0:s0.fuel] do
      let s ← get
      let c := s.at 0
      if !(isBlank c ∨ isBreak c) then break
      if isBlank c then
        if leadingBlanks ∧ (s.mark.column : Int) < indent ∧ c = '\t' then
          scanFault start "found a tab character that violates indentation"
        if !leadingBlanks then whitespaces := whitespaces ++ [c]
        skip
      else
        cache 2
        if !leadingBlanks then
          whitespaces := []
          leadingBreak ← readLine
          leadingBlanks := true
        else trailingBreaks := trailingBreaks ++ (← readLine)
      cache 1
    let s ← get
    if s.flowLevel = 0 ∧ (s.mark.column : Int) < indent then break
  if leadingBlanks then modify fun s => { s with simpleKeyAllowed := true }
  return ⟨.scalar (String.ofList text.reverse) .plain, start, stop⟩

/-- Skip the indentation and the empty lines before a line of a block scalar whose content
stands at column `indent` (0 while unknown): the line feeds of the empty lines, the largest
column reached, and where the last empty line ended. A tab in the indentation is a fault. -/
def blockScalarBreaks (indent : Nat) (start : Mark) : ScanM (List Char × Nat × Mark) := do
  let mut breaks : List Char := []
  let mut most := 0
  let mut stop := (← get).mark
  for _ in [0:(← get).fuel] do
    cache 1
    for _ in [0:(← get).fuel] do
      let s ← get
      if !((indent = 0 ∨ s.mark.column < indent) ∧ s.at 0 = ' ') then break
      skip
      cache 1
    let s ← get
    most := max most s.mark.column
    if (indent = 0 ∨ s.mark.column < indent) ∧ s.at 0 = '\t' then
      scanFault start "found a tab character where an indentation space is expected"
    if !isBreak (s.at 0) then break
    cache 2
    breaks := breaks ++ (← readLine)
    stop := (← get).mark
  return (breaks, most, stop)

/-- A literal (`|`) or folded (`>`) block scalar, from its indicator. The header may give the
chomping (`-` strips the final line break, `+` keeps the trailing empty lines) and the
indentation, in either order. The content stands at the column the header gives, or else at
that of the first non-empty line, at least one right of the enclosing block. -/
def scanBlockScalar (literal : Bool) : ScanM Token := do
  let start := (← get).mark
  skip
  cache 1
  let chompOf (c : Char) : Option Int := if c = '+' then some 1 else if c = '-' then some (-1) else none
  let mut chomping : Int := 0
  let mut increment := 0
  match chompOf (← ahead 0) with
  | some k =>
    chomping := k
    skip
    cache 1
    let d ← ahead 0
    if isDigitChar d then
      if d = '0' then scanFault start "found an indentation indicator equal to 0"
      increment := d.toNat - 48
      skip
  | none =>
    let d ← ahead 0
    if isDigitChar d then
      if d = '0' then scanFault start "found an indentation indicator equal to 0"
      increment := d.toNat - 48
      skip
      cache 1
      if let some k := chompOf (← ahead 0) then
        chomping := k
        skip
  skipBlanks
  if (← ahead 0) = '#' then
    for _ in [0:(← get).fuel] do
      if isBreakOrEnd (← ahead 0) then break
      skip
      cache 1
  if !isBreakOrEnd (← ahead 0) then scanFault start "did not find expected comment or line break"
  if isBreak (← ahead 0) then
    cache 2
    skipLine
  let parent := (← get).indent
  let given : Nat := if increment > 0 then (if parent ≥ 0 then parent.toNat + increment else increment) else 0
  let (breaks0, most, stop0) ← blockScalarBreaks given start
  let indent := if given ≠ 0 then given else max (max most (parent + 1).toNat) 1
  let mut stop := stop0
  let mut text : List Char := []
  let mut leadingBreak : List Char := []
  let mut trailingBreaks := breaks0
  let mut leadingBlank := false
  cache 1
  for _ in [0:(← get).fuel] do
    let s ← get
    if !(s.mark.column = indent ∧ s.at 0 ≠ endChar) then break
    let trailingBlank := isBlank (s.at 0)
    if !literal ∧ !leadingBlank ∧ !trailingBlank ∧ leadingBreak.head? = some '\n' then
      if trailingBreaks.isEmpty then text := ' ' :: text
    else text := leadingBreak.reverse ++ text
    leadingBreak := []
    text := trailingBreaks.reverse ++ text
    trailingBreaks := []
    leadingBlank := isBlank (s.at 0)
    for _ in [0:s.fuel] do
      if isBreakOrEnd (← ahead 0) then break
      text := (← advance) :: text
      cache 1
    cache 2
    leadingBreak ← readLine
    let (breaks, _, stop') ← blockScalarBreaks indent start
    trailingBreaks := breaks
    stop := stop'
  if chomping ≠ -1 then text := leadingBreak.reverse ++ text
  if chomping = 1 then text := trailingBreaks.reverse ++ text
  return ⟨.scalar (String.ofList text.reverse) (if literal then .literal else .folded), start, stop⟩

/-! ## Fetching tokens -/

/-- A token of one character. -/
def singleToken (kind : TokenKind) : ScanM Unit := do
  let start := (← get).mark
  skip
  appendToken ⟨kind, start, (← get).mark⟩

/-- The start of the stream. -/
def fetchStreamStart : ScanM Unit := do
  modify fun s => { s with
    indent := -1, simpleKeys := #[{}], keysByToken := [], simpleKeyAllowed := true,
    streamStarted := true }
  let m := (← get).mark
  appendToken ⟨.streamStart, m, m⟩

/-- The end of the stream, which closes every block collection. -/
def fetchStreamEnd : ScanM Unit := do
  let s ← get
  if s.mark.column ≠ 0 then
    set { s with mark := { s.mark with column := 0, line := s.mark.line + 1 } }
  unrollIndent (-1) (← get).mark
  removeSimpleKey
  modify fun s => { s with simpleKeyAllowed := false }
  let m := (← get).mark
  appendToken ⟨.streamEnd, m, m⟩

/-- A directive, a document marker: every block collection closes first. -/
def fetchLineStarter (scan : ScanM Token) : ScanM Unit := do
  unrollIndent (-1) (← get).mark
  removeSimpleKey
  modify fun s => { s with simpleKeyAllowed := false }
  appendToken (← scan)

/-- A document marker, `---` or `...`. -/
def scanDocumentMarker (kind : TokenKind) : ScanM Token := do
  let start := (← get).mark
  skip; skip; skip
  return ⟨kind, start, (← get).mark⟩

/-- The opening bracket or brace of a flow collection. -/
def fetchFlowCollectionStart (kind : TokenKind) : ScanM Unit := do
  saveSimpleKey
  increaseFlowLevel
  modify fun s => { s with simpleKeyAllowed := true }
  singleToken kind

/-- The closing bracket or brace of a flow collection. -/
def fetchFlowCollectionEnd (kind : TokenKind) : ScanM Unit := do
  removeSimpleKey
  decreaseFlowLevel
  modify fun s => { s with simpleKeyAllowed := false }
  singleToken kind

/-- A comma between flow entries. -/
def fetchFlowEntry : ScanM Unit := do
  removeSimpleKey
  modify fun s => { s with simpleKeyAllowed := true }
  singleToken .flowEntry

/-- A `-` of a block sequence entry, which may open the sequence. -/
def fetchBlockEntry : ScanM Unit := do
  let s ← get
  if s.flowLevel = 0 then
    if !s.simpleKeyAllowed then
      scanFault s.mark "block sequence entries are not allowed in this context"
    rollIndent s.mark.column none .blockSequenceStart s.mark
  removeSimpleKey
  modify fun s => { s with simpleKeyAllowed := true }
  singleToken .blockEntry

/-- A `?` of a complex key, which may open a block mapping. -/
def fetchKey : ScanM Unit := do
  let s ← get
  if s.flowLevel = 0 then
    if !s.simpleKeyAllowed then scanFault s.mark "mapping keys are not allowed in this context"
    rollIndent s.mark.column none .blockMappingStart s.mark
  removeSimpleKey
  modify fun s => { s with simpleKeyAllowed := s.flowLevel = 0 }
  singleToken .key

/-- A `:`. If a simple key waits, it becomes a key: its `key` token, and in block context a
mapping start where it stands, go before it. -/
def fetchValue : ScanM Unit := do
  let i := (← get).simpleKeys.size - 1
  if ← simpleKeyValid i then
    let s ← get
    let k := s.simpleKeys.getD i {}
    insertToken (k.tokenNumber - s.taken) ⟨.key, k.mark, k.mark⟩
    rollIndent k.mark.column (some k.tokenNumber) .blockMappingStart k.mark
    setSimpleKey i { k with possible := false }
    forgetKeyToken k.tokenNumber
    modify fun s => { s with simpleKeyAllowed := false }
  else
    let s ← get
    if s.flowLevel = 0 then
      if !s.simpleKeyAllowed then scanFault s.mark "mapping values are not allowed in this context"
      rollIndent s.mark.column none .blockMappingStart s.mark
    modify fun s => { s with simpleKeyAllowed := s.flowLevel = 0 }
  singleToken .value

/-- A token that may be a simple key, scanned by `scan`. -/
def fetchKeyCandidate (scan : ScanM Token) : ScanM Unit := do
  saveSimpleKey
  modify fun s => { s with simpleKeyAllowed := false }
  appendToken (← scan)

/-- A block scalar, after which a simple key may start. -/
def fetchBlockScalar (literal : Bool) : ScanM Unit := do
  removeSimpleKey
  modify fun s => { s with simpleKeyAllowed := true }
  appendToken (← scanBlockScalar literal)

/-- Whether a plain scalar may start here: any character but a blank and the indicators, or
`-` before a character that is no blank, or, in block context, `?` or `:` before one that is
neither blank nor a line end. -/
def startsPlain (s : Scanner) : Bool :=
  let c := s.at 0
  let d := s.at 1
  let indicator := isBlankOrEnd c || c = '-' || c = '?' || c = ':' || c = ',' || c = '[' ||
    c = ']' || c = '{' || c = '}' || c = '#' || c = '&' || c = '*' || c = '!' || c = '|' ||
    c = '>' || c = '\'' || c = '"' || c = '%' || c = '@' || c = Char.ofNat 96
  !indicator || (c = '-' && !isBlank d) || (s.flowLevel = 0 && (c = '?' || c = ':') && !isBlankOrEnd d)

/-- Scan the next token. -/
def fetchNextToken : ScanM Unit := do
  cache 1
  if !(← get).streamStarted then
    fetchStreamStart
    return
  let scanMark := (← get).mark
  scanToNextToken
  unrollIndent (← get).mark.column scanMark
  cache 4
  let s ← get
  let c := s.at 0
  let lineStart := s.mark.column = 0
  if c = endChar then fetchStreamEnd
  else if lineStart ∧ c = '%' then fetchLineStarter scanDirective
  else if lineStart ∧ c = '-' ∧ s.at 1 = '-' ∧ s.at 2 = '-' ∧ isBlankOrEnd (s.at 3) then
    fetchLineStarter (scanDocumentMarker .documentStart)
  else if lineStart ∧ c = '.' ∧ s.at 1 = '.' ∧ s.at 2 = '.' ∧ isBlankOrEnd (s.at 3) then
    fetchLineStarter (scanDocumentMarker .documentEnd)
  else
    if c = '[' then fetchFlowCollectionStart .flowSequenceStart
    else if c = '{' then fetchFlowCollectionStart .flowMappingStart
    else if c = ']' then fetchFlowCollectionEnd .flowSequenceEnd
    else if c = '}' then fetchFlowCollectionEnd .flowMappingEnd
    else if c = ',' then fetchFlowEntry
    else if c = '-' ∧ isBlankOrEnd (s.at 1) then fetchBlockEntry
    else if c = '?' ∧ (s.flowLevel > 0 ∨ isBlankOrEnd (s.at 1)) then fetchKey
    else if c = ':' ∧ (s.flowLevel > 0 ∨ isBlankOrEnd (s.at 1)) then fetchValue
    else if c = '*' then fetchKeyCandidate (scanAnchor true)
    else if c = '&' then fetchKeyCandidate (scanAnchor false)
    else if c = '!' then fetchKeyCandidate scanTag
    else if c = '|' ∧ s.flowLevel = 0 then fetchBlockScalar true
    else if c = '>' ∧ s.flowLevel = 0 then fetchBlockScalar false
    else if c = '\'' then fetchKeyCandidate (scanQuotedScalar true)
    else if c = '"' then fetchKeyCandidate (scanQuotedScalar false)
    else if startsPlain s then fetchKeyCandidate scanPlainScalar
    else scanFault s.mark "found character that cannot start any token"
    let last : Option TokenKind := (← get).queue.getLast?.map (·.kind)
    if last ≠ some .blockEntry then scanLineComment

/-- Scan until a token can be taken: at least three wait, and the first one is no longer a
possible simple key. -/
def fetchMoreTokens : ScanM Unit := do
  for _ in [0:(← get).fuel] do
    let s ← get
    if s.queue.length > 2 then
      match s.keysByToken.lookup s.taken with
      | none => break
      | some i => if !(← simpleKeyValid i) then break
    fetchNextToken
  modify fun s => { s with ready := true }

/-- The next token, not taken. -/
def peekToken : ScanM Token := do
  if !(← get).ready then fetchMoreTokens
  let s ← get
  return s.queue.headD ⟨.streamEnd, s.mark, s.mark⟩

/-- Take the next token. -/
def skipToken : ScanM Unit := modify fun s =>
  { s with
    ready := false
    taken := s.taken + 1
    streamEnded := s.queue.head?.map (·.kind) = some .streamEnd
    queue := s.queue.tail }

end Yaml

end RegisterLiveness
