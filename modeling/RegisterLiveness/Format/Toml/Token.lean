import RegisterLiveness.Text.Quoted
import RegisterLiveness.Text.Unicode

/-!
# TOML tokens

The first stage of reading TOML: a lexer, a finite control over the characters of a document
that cuts them into tokens. Keys come as a `keyStart` token, one token per part, and a `keyEnd`;
table headers as a start token, the parts and an end token; values as one token each, arrays and
inline tables as a start token, their contents and an end token. A string token holds the text
between its quotes, escapes untouched; `stringEsc` marks a basic string that holds escapes.

The lexer works as a machine whose states (`LexState`) each read a little input and name the
next state; a stack of states remembers where to go back after a key part, a value or a comment.
It stops at the end of the input, or at the first malformed character, which is a `LexError`
with its line and message; the tokens before it stay valid.

Control characters other than the tab, the line feed and a carriage return before a line feed
are malformed anywhere. Inline tables may span lines and end with a comma, strings may use the
escapes `\e` and `\xHH`, and bare keys are made of ASCII letters, digits, `_` and `-`.
-/

namespace RegisterLiveness

namespace Toml

/-- The kinds of tokens. -/
inductive TokenKind where
  | eof
  | text
  | string
  | stringEsc
  | rawString
  | multilineString
  | rawMultilineString
  | bool
  | integer
  | float
  | datetime
  | array
  | arrayEnd
  | tableStart
  | tableEnd
  | arrayTableStart
  | arrayTableEnd
  | keyStart
  | keyEnd
  | commentStart
  | inlineTableStart
  | inlineTableEnd
  deriving Repr, DecidableEq, Inhabited

/-- A token: its kind, its text, and the line (from 1) where the lexer stood when it ended. -/
structure Token where
  kind : TokenKind
  text : String
  line : Nat
  deriving Repr, Inhabited

/-- A malformed character: the line where it was met, and what was wrong. -/
structure LexError where
  line : Nat
  message : String
  deriving Repr, Inhabited

/-- The states of the lexer. -/
inductive LexState where
  | top
  | topEnd
  | tableStart
  | tableEnd
  | arrayTableEnd
  | tableNameStart
  | tableNameEnd
  | bareName
  | quotedName
  | keyStart
  | keyNameStart
  | keyEnd
  | value
  | arrayValue
  | arrayValueEnd
  | arrayEnd
  | inlineTableValue
  | inlineTableValueEnd
  | inlineTableEnd
  | string
  | multilineString
  | rawString
  | multilineRawString
  | multilineStringEscape
  | stringEscape
  | hexEscape
  | shortUnicodeEscape
  | longUnicodeEscape
  | numberOrDateStart
  | numberOrDate
  | datetime
  | hexInteger
  | octalInteger
  | binaryInteger
  | decimalNumber
  | decimalNumberStart
  | baseNumberOrDate
  | float
  | bool
  | commentStart
  | comment
  | done
  deriving Repr, DecidableEq, Inhabited

/-- A lexer in the middle of a document. -/
structure Lexer where
  input : Array Char
  /-- Where the text of the next token starts. -/
  start : Nat := 0
  pos : Nat := 0
  /-- The line of `pos`, from 1. -/
  line : Nat := 1
  /-- Whether the last character asked for was past the end. -/
  atEnd : Bool := false
  /-- Whether the basic string being read holds an escape. -/
  esc : Bool := false
  stack : List LexState := []
  tokens : Array Token := #[]
  deriving Inhabited

/-- Lexing that may stop at a malformed character, keeping the tokens read so far. -/
abbrev LexM := ExceptT LexError (StateM Lexer)

/-- Whether a character is a blank. -/
def isWhitespace (c : Char) : Bool := c = ' ' || c = '\t'

/-- Whether a character ends a line. -/
def isNL (c : Char) : Bool := c = '\n' || c = '\r'

/-- Whether a character is a control character that may not appear. -/
def isControl (c : Char) : Bool :=
  c ≠ '\t' && c ≠ '\r' && c ≠ '\n' && (c.toNat ≤ 0x1f || c.toNat = 0x7f)

/-- Whether a character may appear in a bare key. -/
def isBareKeyChar (c : Char) : Bool :=
  ('A' ≤ c && c ≤ 'Z') || ('a' ≤ c && c ≤ 'z') || ('0' ≤ c && c ≤ '9') || c = '_' || c = '-'

/-- Whether a character is a decimal digit. -/
def isDigit (c : Char) : Bool := '0' ≤ c && c ≤ '9'

/-- Whether a character is a hexadecimal digit. -/
def isHex (c : Char) : Bool := isDigit c || ('a' ≤ c && c ≤ 'f') || ('A' ≤ c && c ≤ 'F')

/-- Whether a character is an octal digit. -/
def isOctal (c : Char) : Bool := '0' ≤ c && c ≤ '7'

/-- Whether a character is a binary digit. -/
def isBinary (c : Char) : Bool := c = '0' || c = '1'

/-- A character as a problem quotes it, the end of input standing as the NUL character. -/
def quoteChar? (r : Option Char) : String := Text.quoteRune (r.getD (Char.ofNat 0))

/-- A character as a problem shows it bare between apostrophes, or `end of file`. -/
def runeOrEOF : Option Char → String
  | some c => "'" ++ String.singleton c ++ "'"
  | none => "end of file"

namespace Lexer

/-- The text of the token being read. -/
def current (lx : Lexer) : String := String.ofList (lx.input.extract lx.start lx.pos).toList

end Lexer

/-- Stop at a problem on the current line; at the end of input, on the line of the last
character. -/
def errorf {α : Type} (message : String) : LexM α := do
  let lx ← get
  let line := if lx.atEnd ∧ lx.pos ≥ 1 ∧ lx.input[lx.pos - 1]? = some '\n' then lx.line - 1
    else lx.line
  throw ⟨line, message⟩

/-- Stop at a problem, counted on the line before the current one: a line break that should not
be there is reported on the line it ends. -/
def errorPrevLine {α : Type} (message : String) : LexM α := do
  throw ⟨(← get).line - 1, message⟩

/-- Stop at a problem, on the line before the current one at the end of input. -/
def errorAt {α : Type} (message : String) : LexM α := do
  if (← get).atEnd then errorPrevLine message else errorf message

/-- The next character, consumed; `none` past the end. A control character, or a carriage
return not followed by a line feed, stops the lexer. -/
def next : LexM (Option Char) := do
  let lx ← get
  match lx.input[lx.pos]? with
  | none =>
    set { lx with atEnd := true }
    return none
  | some c =>
    if isControl c ∨ (c = '\r' ∧ lx.input[lx.pos + 1]? ≠ some '\n') then
      throw ⟨lx.line, "TOML files cannot contain control characters: '0x" ++
        String.ofList (Text.hexDigits c.toNat 2) ++ "'"⟩
    set { lx with pos := lx.pos + 1, line := if c = '\n' then lx.line + 1 else lx.line }
    return some c

/-- Step back one character, or back from past the end. -/
def backup : LexM Unit := modify fun lx =>
  if lx.atEnd then { lx with atEnd := false }
  else
    let pos := lx.pos - 1
    { lx with pos := pos, line := if lx.input[pos]? = some '\n' then lx.line - 1 else lx.line }

/-- The next character, not consumed. -/
def peek : LexM (Option Char) := do
  let r ← next
  backup
  return r

/-- Consume the next character if it is `c`. -/
def accept (c : Char) : LexM Bool := do
  if (← next) = some c then return true
  backup
  return false

/-- Drop the text read so far from the next token. -/
def ignore : LexM Unit := modify fun lx => { lx with start := lx.pos }

/-- Skip the characters satisfying `p`; `fuel` bounds their number. -/
def skipWhile (p : Char → Bool) : (fuel : Nat) → LexM Unit
  | 0 => ignore
  | fuel + 1 => do
    match ← next with
    | some c => if p c then skipWhile p fuel else do backup; ignore
    | none => do backup; ignore

/-- End a token of kind `kind` with the text read so far. -/
def emit (kind : TokenKind) : LexM Unit := modify fun lx =>
  { lx with tokens := lx.tokens.push ⟨kind, lx.current, lx.line⟩, start := lx.pos }

/-- End a token of kind `kind` with the text read so far, blanks around it dropped. -/
def emitTrim (kind : TokenKind) : LexM Unit := modify fun lx =>
  { lx with tokens := lx.tokens.push ⟨kind, lx.current.trimAscii.copy, lx.line⟩, start := lx.pos }

/-- Remember a state to go back to. -/
def push (s : LexState) : LexM Unit := modify fun lx => { lx with stack := s :: lx.stack }

/-- Go back to the last state remembered. -/
def pop : LexM LexState := do
  let lx ← get
  match lx.stack with
  | s :: rest =>
    set { lx with stack := rest }
    return s
  | [] => errorf "BUG in lexer: no states to pop"

/-- Consume `a` and then `b`, stopping after `a` if it is not there. -/
def acceptBoth (a b : Char) : LexM Bool := do
  if ← accept a then accept b else pure false

/-- Consume `nf` or, failing that, `an`: the rest of `inf` or `nan`. -/
def acceptEither : LexM Bool := do
  if ← acceptBoth 'n' 'f' then pure true else acceptBoth 'a' 'n'

/-- Read the letters ahead, in reverse; `fuel` bounds their number. -/
def letters : (fuel : Nat) → List Char → LexM (List Char)
  | 0, acc => pure acc
  | fuel + 1, acc => do
    match ← next with
    | some c => if Text.isLetter c then letters fuel (c :: acc) else do backup; pure acc
    | none => do backup; pure acc

/-- Read `k` digits satisfying `p` of an escape named `what` after `\` and `e`. -/
def escapeDigits (p : Char → Bool) (e what : String) : (k : Nat) → LexM LexState
  | 0 => pop
  | k + 1 => do
    match ← next with
    | some c => if p c then escapeDigits p e what k else badDigits
    | none => badDigits
where
  badDigits : LexM LexState := do
    errorf ("expected " ++ what ++ " hexadecimal digits after '\\" ++ e ++ "', but got " ++
      Text.quote (← get).current ++ " instead")

/-- Read the three closing quotes `q` of a multi-line string, having met the first one: `none`
when they are fewer, `some true` when they end the string, `some false` when more quotes follow
and the first one belongs to the text. Six quotes in a row are an error. -/
def closingQuotes (q : Char) (six : String) (ok : String → Bool) : LexM (Option Bool) := do
  if ← accept q then
    if ← accept q then
      if (← peek) = some q then
        if ok (← get).current then errorf six
        backup; backup
        return some false
      return some true
    backup
  return none

/-- Run one state: read what it reads, emit what it emits, and name the next state. -/
def step (fuel : Nat) : LexState → LexM LexState
  | .done => pure .done
  | .top => do
    match ← next with
    | some c =>
      if isWhitespace c ∨ isNL c then do ignore; pure .top
      else if c = '#' then do push .top; pure .commentStart
      else if c = '[' then pure .tableStart
      else do backup; push .topEnd; pure .keyStart
    | none =>
      let lx ← get
      if lx.pos > lx.start then errorf "unexpected EOF"
      emit .eof
      pure .done
  | .topEnd => do
    match ← next with
    | some '#' => do push .top; pure .commentStart
    | some c =>
      if isWhitespace c then pure .topEnd
      else if isNL c then do ignore; pure .top
      else errorf ("expected a top-level item to end with a newline, comment, or EOF, but got " ++
        Text.quoteRune c ++ " instead")
    | none => do emit .eof; pure .done
  | .tableStart => do
    if (← peek) = some '[' then do
      let _ ← next
      emit .arrayTableStart
      push .arrayTableEnd
    else do
      emit .tableStart
      push .tableEnd
    pure .tableNameStart
  | .tableEnd => do emit .tableEnd; pure .topEnd
  | .arrayTableEnd => do
    match ← next with
    | some ']' => do emit .arrayTableEnd; pure .topEnd
    | some c => errorf ("expected end of table array name delimiter ']', but got " ++
        Text.quoteRune c ++ " instead")
    | none => errorf "unexpected EOF; expected end of table array name delimiter ']'"
  | .tableNameStart => do
    skipWhile isWhitespace fuel
    match ← peek with
    | some ']' | none => errorf "unexpected end of table name (table names cannot be empty)"
    | some '.' => errorf "unexpected table separator (table names cannot be empty)"
    | some '"' | some '\'' => do ignore; push .tableNameEnd; pure .quotedName
    | some _ => do push .tableNameEnd; pure .bareName
  | .tableNameEnd => do
    skipWhile isWhitespace fuel
    match ← next with
    | some '.' => do ignore; pure .tableNameStart
    | some ']' => pop
    | some c =>
      if isWhitespace c then pure .tableNameEnd
      else errorf ("expected '.' or ']' to end table name, but got " ++ Text.quoteRune c ++ " instead")
    | none => errorf "unexpected EOF; expected ']' to end table name"
  | .bareName => do
    match ← next with
    | some c => if isBareKeyChar c then pure .bareName else do backup; emit .text; pop
    | none => do backup; emit .text; pop
  | .quotedName => do
    match ← next with
    | some '"' => do ignore; pure .string
    | some '\'' => do ignore; pure .rawString
    | some c =>
      if isWhitespace c then do ignore; pure .value
      else errorf ("expected value but found " ++ Text.quoteRune c ++ " instead")
    | none => errorf "unexpected EOF; expected value"
  | .keyStart => do
    skipWhile isWhitespace fuel
    match ← peek with
    | some '=' | none => errorf "unexpected '=': key name appears blank"
    | some '.' => errorf "unexpected '.': keys cannot start with a '.'"
    | some c => do
      if c = '"' ∨ c = '\'' then ignore
      emit .keyStart
      pure .keyNameStart
  | .keyNameStart => do
    skipWhile isWhitespace fuel
    match ← peek with
    | some '=' | none => errorf "unexpected '='"
    | some '.' => errorf "unexpected '.'"
    | some '"' | some '\'' => do ignore; push .keyEnd; pure .quotedName
    | some _ => do push .keyEnd; pure .bareName
  | .keyEnd => do
    skipWhile isWhitespace fuel
    match ← next with
    | some '.' => do ignore; pure .keyNameStart
    | some '=' => do emit .keyEnd; ignore; pure .value
    | some '\n' => errorPrevLine "expected '.' or '=', but got '\\n' instead"
    | some c =>
      if isWhitespace c then do ignore; pure .keyEnd
      else errorf ("expected '.' or '=', but got " ++ Text.quoteRune c ++ " instead")
    | none => errorf "unexpected EOF; expected key separator '='"
  | .value => do
    match ← next with
    | none => errorf "unexpected EOF; expected value"
    | some c =>
      if isWhitespace c then do ignore; pure .value
      else if isDigit c then do backup; pure .numberOrDateStart
      else if c = '[' then do ignore; emit .array; pure .arrayValue
      else if c = '{' then do ignore; emit .inlineTableStart; pure .inlineTableValue
      else if c = '"' then do
        if ← accept '"' then
          if ← accept '"' then do ignore; return .multilineString
          backup
        ignore
        pure .string
      else if c = '\'' then do
        if ← accept '\'' then
          if ← accept '\'' then do ignore; return .multilineRawString
          backup
        ignore
        pure .rawString
      else if c = '.' then errorf "floats must start with a digit, not '.'"
      else if c = '-' ∨ c = '+' then pure .decimalNumberStart
      else do
        let special ← if c = 'i' ∨ c = 'n' then acceptEither else pure false
        if special then do emit .float; pop
        else if Text.isLetter c then do backup; pure .bool
        else if c = '\n' then errorPrevLine "expected value but found '\\n' instead"
        else errorf ("expected value but found " ++ Text.quoteRune c ++ " instead")
  | .arrayValue => do
    match ← next with
    | some '#' => do push .arrayValue; pure .commentStart
    | some ',' => errorf "unexpected comma"
    | some ']' => pure .arrayEnd
    | some c =>
      if isWhitespace c ∨ isNL c then do ignore; pure .arrayValue
      else do backup; push .arrayValueEnd; pure .value
    | none => do backup; push .arrayValueEnd; pure .value
  | .arrayValueEnd => do
    match ← next with
    | some '#' => do push .arrayValueEnd; pure .commentStart
    | some ',' => do ignore; pure .arrayValue
    | some ']' => pure .arrayEnd
    | some c =>
      if isWhitespace c ∨ isNL c then do ignore; pure .arrayValueEnd
      else errorf ("expected a comma (',') or array terminator (']'), but got " ++ runeOrEOF (some c))
    | none => errorf ("expected a comma (',') or array terminator (']'), but got " ++ runeOrEOF none)
  | .arrayEnd => do ignore; emit .arrayEnd; pop
  | .inlineTableValue => do
    match ← next with
    | some '#' => do push .inlineTableValue; pure .commentStart
    | some ',' => errorf "unexpected comma"
    | some '}' => pure .inlineTableEnd
    | some c =>
      if isWhitespace c ∨ isNL c then do ignore; pure .inlineTableValue
      else do backup; push .inlineTableValueEnd; pure .keyStart
    | none => do backup; push .inlineTableValueEnd; pure .keyStart
  | .inlineTableValueEnd => do
    match ← next with
    | some '#' => do push .inlineTableValueEnd; pure .commentStart
    | some ',' => do
      ignore
      skipWhile isWhitespace fuel
      if (← peek) = some '}' then pure .inlineTableValueEnd else pure .inlineTableValue
    | some '}' => pure .inlineTableEnd
    | some c =>
      if isWhitespace c ∨ isNL c then do ignore; pure .inlineTableValueEnd
      else errorf ("expected a comma or an inline table terminator '\x7d', but got " ++
        runeOrEOF (some c) ++ " instead")
    | none => errorf ("expected a comma or an inline table terminator '\x7d', but got " ++
        runeOrEOF none ++ " instead")
  | .inlineTableEnd => do ignore; emit .inlineTableEnd; pop
  | .string => do
    match ← next with
    | none => errorf "unexpected EOF; expected '\"'"
    | some '\\' => do push .string; pure .stringEscape
    | some '"' => do
      backup
      if (← get).esc then do
        modify fun lx => { lx with esc := false }
        emit .stringEsc
      else emit .string
      let _ ← next
      ignore
      pop
    | some c => if isNL c then errorPrevLine "strings cannot contain newlines" else pure .string
  | .multilineString => do
    match ← next with
    | none => errorf "unexpected EOF; expected '\"\"\"'"
    | some '\\' => pure .multilineStringEscape
    | some '"' => do
      let ok (s : String) := s.endsWith "\"\"\"\"\"" && !s.endsWith "\\\"\"\"\"\""
      match ← closingQuotes '"' "unexpected '\"\"\"\"\"\"'" ok with
      | some true => do
        backup; backup; backup
        modify fun lx => { lx with esc := false }
        emit .multilineString
        let _ ← next; let _ ← next; let _ ← next
        ignore
        pop
      | _ => pure .multilineString
    | some _ => pure .multilineString
  | .rawString => do
    match ← next with
    | none => errorf "unexpected EOF; expected \"'\""
    | some '\'' => do
      backup
      emit .rawString
      let _ ← next
      ignore
      pop
    | some c => if isNL c then errorPrevLine "strings cannot contain newlines" else pure .rawString
  | .multilineRawString => do
    match ← next with
    | none => errorf "unexpected EOF; expected \"'''\""
    | some '\'' => do
      match ← closingQuotes '\'' "unexpected \"''''''\"" (·.endsWith "'''''") with
      | some true => do
        backup; backup; backup
        emit .rawMultilineString
        let _ ← next; let _ ← next; let _ ← next
        ignore
        pop
      | _ => pure .multilineRawString
    | some _ => pure .multilineRawString
  | .multilineStringEscape => do
    match ← next with
    | some c => if isNL c then pure .multilineString else do backup; push .multilineString; pure .stringEscape
    | none => do backup; push .multilineString; pure .stringEscape
  | .stringEscape => do
    modify fun lx => { lx with esc := true }
    match ← next with
    | some c =>
      if c = 'e' ∨ c = 'b' ∨ c = 't' ∨ c = 'n' ∨ c = 'f' ∨ c = 'r' ∨ c = '"' ∨ c = ' ' ∨
          c = '\t' ∨ c = '\\' then pop
      else if c = 'x' then pure .hexEscape
      else if c = 'u' then pure .shortUnicodeEscape
      else if c = 'U' then pure .longUnicodeEscape
      else errorAt ("invalid escape in string '\\" ++ String.singleton c ++ "'")
    | none => errorAt ("invalid escape in string '\\" ++ String.singleton (Char.ofNat 0) ++ "'")
  | .hexEscape => escapeDigits isHex "x" "two" 2
  | .shortUnicodeEscape => escapeDigits isHex "u" "four" 4
  | .longUnicodeEscape => escapeDigits isHex "U" "eight" 8
  | .numberOrDateStart => do
    match ← next with
    | some '0' => pure .baseNumberOrDate
    | some c => if isDigit c then pure .numberOrDate else errorf ("expected a digit but got " ++ Text.quoteRune c)
    | none => errorf ("expected a digit but got " ++ quoteChar? none)
  | .numberOrDate => do
    match ← next with
    | some c =>
      if isDigit c then pure .numberOrDate
      else if c = '-' ∨ c = ':' then pure .datetime
      else if c = '_' then pure .decimalNumber
      else if c = '.' ∨ c = 'e' ∨ c = 'E' then pure .float
      else do backup; emit .integer; pop
    | none => do backup; emit .integer; pop
  | .datetime => do
    match ← next with
    | some c =>
      if isDigit c ∨ c = '-' ∨ c = ':' ∨ c = 'T' ∨ c = 't' ∨ c = ' ' ∨ c = '.' ∨ c = 'Z' ∨ c = 'z' ∨
          c = '+' then pure .datetime
      else do backup; emitTrim .datetime; pop
    | none => do backup; emitTrim .datetime; pop
  | .hexInteger => digitsOf isHex .hexInteger
  | .octalInteger => digitsOf isOctal .octalInteger
  | .binaryInteger => digitsOf isBinary .binaryInteger
  | .decimalNumber => do
    match ← next with
    | some c =>
      if isDigit c ∨ c = '_' then pure .decimalNumber
      else if c = '.' ∨ c = 'e' ∨ c = 'E' then pure .float
      else do backup; emit .integer; pop
    | none => do backup; emit .integer; pop
  | .decimalNumberStart => do
    let r ← next
    match r with
    | some 'i' => do
      if !(← acceptBoth 'n' 'f') then errorf ("invalid float: '" ++ (← get).current ++ "'")
      emit .float
      pop
    | some 'n' => do
      if !(← acceptBoth 'a' 'n') then errorf ("invalid float: '" ++ (← get).current ++ "'")
      emit .float
      pop
    | some '.' => errorf "floats must start with a digit, not '.'"
    | _ => do
      if r = some '0' then
        match ← peek with
        | some p =>
          if p = 'b' ∨ p = 'o' ∨ p = 'x' then
            errorf ("cannot use sign with non-decimal numbers: '" ++ (← get).current ++ String.singleton p ++ "'")
        | none => pure ()
      match r with
      | some c => if isDigit c then pure .decimalNumber else errorf ("expected a digit but got " ++ Text.quoteRune c)
      | none => errorf ("expected a digit but got " ++ quoteChar? none)
  | .baseNumberOrDate => do
    match ← next with
    | some c =>
      if isDigit c then pure .numberOrDate
      else if c = '_' then pure .decimalNumber
      else if c = '.' ∨ c = 'e' ∨ c = 'E' then pure .float
      else if c = 'b' then prefixed isBinary "not a binary number" .binaryInteger
      else if c = 'o' then prefixed isOctal "not an octal number" .octalInteger
      else if c = 'x' then prefixed isHex "not a hexadecimal number" .hexInteger
      else do backup; emit .integer; pop
    | none => do backup; emit .integer; pop
  | .float => do
    match ← next with
    | some c =>
      if isDigit c ∨ c = '_' ∨ c = '.' ∨ c = '-' ∨ c = '+' ∨ c = 'e' ∨ c = 'E' then pure .float
      else do backup; emit .float; pop
    | none => do backup; emit .float; pop
  | .bool => do
    let s := String.ofList (← letters fuel []).reverse
    if s = "true" ∨ s = "false" then do emit .bool; pop
    else errorf ("expected value but found " ++ Text.quote s ++ " instead")
  | .commentStart => do ignore; emit .commentStart; pure .comment
  | .comment => do
    match ← next with
    | some c => if isNL c then do backup; emit .text; pop else pure .comment
    | none => do backup; emit .text; pop
where
  /-- The digits of an integer in a base, then the integer token. -/
  digitsOf (p : Char → Bool) (again : LexState) : LexM LexState := do
    match ← next with
    | some c => if p c ∨ c = '_' then pure again else do backup; emit .integer; pop
    | none => do backup; emit .integer; pop
  /-- After a base prefix, the first digit must be of the base. -/
  prefixed (p : Char → Bool) (what : String) (digits : LexState) : LexM LexState := do
    let r ← peek
    if !(r.any p) then
      errorf (what ++ ": '" ++ (← get).current ++ String.singleton (r.getD (Char.ofNat 0)) ++ "'")
    pure digits

/-- Run the lexer from state `s` for at most `fuel` steps. -/
def runLexer (fuel : Nat) : (steps : Nat) → LexState → LexM Unit
  | 0, _ => pure ()
  | _ + 1, .done => pure ()
  | steps + 1, s => do runLexer fuel steps (← step fuel s)

/-- The tokens of a document, up to its end or up to its first malformed character. -/
def tokenize (input : Array Char) : Array Token × Option LexError :=
  let fuel := input.size + 1
  let (r, lx) := (runLexer fuel (16 * fuel + 16) .top).run.run { input := input }
  match r with
  | .ok () => (lx.tokens, none)
  | .error e => (lx.tokens, some e)

end Toml

end RegisterLiveness
