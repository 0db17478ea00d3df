import RegisterLiveness.Format.Toml.Token
import RegisterLiveness.Format.Toml.Scalar

/-!
# TOML documents

Reading a TOML document: the tokens of `Format/Toml/Token` are read in order and build a tree of
tables. A document is a `Table` of its top-level keys in the order first given. Reading also
records every key in document order, table headers included (`Document.keys`), and, for every
dotted key written back, the line of the value last given to it (`Document.lines`), so that a
consumer can name keys it did not use and locate values it could not.

A table header `[a.b]` makes `a.b` the table that later pairs go into, creating `a` on the way
if needed; `[[a.b]]` appends a new table to the array of tables `a.b`. A pair `x.y = v` gives
`v` to `y` inside `x` inside the current table. Tables created on the way by a longer key are
*implicit*: a header may define them once later, while any other key given twice is an error.
An inline array may be given again only to be replaced.

A malformed document is a `Problem`: the line of the token where the problem was met, the key
being read then, and what was wrong. The lexer's problems surface when the reader asks for the
token after the last one the lexer produced, so that a problem the reader meets earlier wins.

Every function that loops takes an explicit `fuel`, which the number of tokens bounds.
-/

namespace RegisterLiveness

namespace Toml

/-- A TOML value. -/
inductive Value where
  | str (s : String)
  | int (i : Int)
  | float
  | bool (b : Bool)
  | datetime
  /-- An array written inline. -/
  | array (items : List Value)
  /-- An array of tables, built by `[[…]]` headers or by inline tables inside an array. -/
  | tables (items : List (List (String × Value)))
  | table (entries : List (String × Value))
  deriving Repr, Inhabited

/-- A table: its keys and values, in the order the keys were first given. -/
abbrev Table := List (String × Value)

/-- The name of the kind of a value, as the decoder of records names dynamic types. -/
def Value.kindName : Value → String
  | .str _ => "string"
  | .int _ => "int64"
  | .float => "float64"
  | .bool _ => "bool"
  | .datetime => "time.Time"
  | .array _ => "[]any"
  | .tables _ => "[]map[string]any"
  | .table _ => "map[string]any"

/-- The table a value opens for the keys below it: a table, or the last table of an array of
tables. -/
def Value.openTable? : Value → Option Table
  | .table es => some es
  | .tables ts => ts.getLast?
  | _ => none

namespace Table

/-- The value at a key. -/
def get? (t : Table) (k : String) : Option Value := t.lookup k

/-- Give a key a value: in place if the key is present, at the end otherwise. -/
def insert (t : Table) (k : String) (v : Value) : Table :=
  if t.any (·.1 == k) then t.map fun (k', w) => if k' == k then (k', v) else (k', w)
  else t ++ [(k, v)]

/-- The table reached along a path, each key opening the table below it; `.error i` when the
key at index `i` (counted from `depth`) is missing or opens no table. -/
def reach (t : Table) : List String → (depth : Nat) → Except Nat Table
  | [], _ => .ok t
  | k :: ks, depth =>
    match (t.get? k).bind Value.openTable? with
    | some t' => reach t' ks (depth + 1)
    | none => .error depth

/-- Replace the table reached along a path by `f` of it; unchanged where the path reaches no
table. -/
def modifyAt (f : Table → Table) : List String → Table → Table
  | [], t => f t
  | k :: ks, t =>
    match t.get? k with
    | some (.table es) => t.insert k (.table (modifyAt f ks es))
    | some (.tables ts) =>
      match ts.getLast? with
      | some last => t.insert k (.tables (ts.dropLast ++ [modifyAt f ks last]))
      | none => t
    | _ => t

/-- Give `k` the value `v` in the table below `path`, creating the tables on the way; `none` if a
key on the way holds something other than a table. -/
def insertPath : List String → Table → String → Value → Option Table
  | [], t, k, v => some (t.insert k v)
  | c :: cs, t, k, v =>
    match t.get? c with
    | none => (insertPath cs [] k v).map fun inner => t.insert c (.table inner)
    | some (.table es) => (insertPath cs es k v).map fun inner => t.insert c (.table inner)
    | some _ => none

end Table

/-- How a character is escaped in a quoted key. -/
def keyEscape (c : Char) : List Char :=
  if c = '"' then ['\\', '"'] else if c = '\\' then ['\\', '\\']
  else if c = '\n' then ['\\', 'n'] else if c = '\t' then ['\\', 't']
  else if c = '\r' then ['\\', 'r'] else if c.toNat = 8 then ['\\', 'b']
  else if c.toNat = 12 then ['\\', 'f']
  else if c.toNat < 32 ∨ c.toNat = 127 then
    ['\\', 'u', '0', '0', Text.hexDigit (c.toNat / 16), Text.hexDigit (c.toNat % 16)]
  else [c]

/-- One part of a dotted key as written back: bare if it can be, quoted otherwise. -/
def keyPartText (k : String) : String :=
  if k.isEmpty then "\"\""
  else if k.all isBareKeyChar then k
  else String.ofList ('"' :: k.toList.flatMap keyEscape ++ ['"'])

/-- A dotted key as written back. -/
def keyText (ks : List String) : String := ".".intercalate (ks.map keyPartText)

/-- A malformed document, or one that does not fit where it is decoded: the line (0 for none),
the key being read (empty for none), and what was wrong. -/
structure Problem where
  line : Nat
  lastKey : String
  text : String
  deriving Repr, Inhabited

/-- The message of a problem. -/
def Problem.message (p : Problem) : String :=
  let lineText := if p.line = 0 then "" else s!"line {p.line}"
  let keyPart := if p.lastKey.isEmpty then "" else "(last key " ++ Text.quote p.lastKey ++ ")"
  let place :=
    if lineText.isEmpty then keyPart
    else if keyPart.isEmpty then lineText
    else lineText ++ " " ++ keyPart
  if place.isEmpty then "toml: " ++ p.text else "toml: " ++ place ++ ": " ++ p.text

/-! ## Strings -/

/-- Drop a line break right after the opening quotes of a multi-line string. -/
def stripFirstNewline : List Char → List Char
  | '\n' :: r => r
  | '\r' :: '\n' :: r => r
  | cs => cs

/-- Whether a character is a blank or a line break. -/
def isGap (c : Char) : Bool := c = ' ' || c = '\t' || c = '\r' || c = '\n'

/-- Remove line-ending backslashes of a multi-line basic string, with the blanks and line breaks
after them: a backslash followed by blanks up to a line break. A doubled backslash is kept for
the escapes. `acc` holds what is kept, in reverse. -/
def joinContinuedLines : List Char → List Char → List Char
  | [], acc => acc.reverse
  | '\\' :: '\\' :: r, acc => joinContinuedLines r ('\\' :: '\\' :: acc)
  | '\\' :: r, acc =>
    if (r.takeWhile isGap).contains '\n' then joinContinuedLines (r.dropWhile isGap) acc
    else joinContinuedLines r ('\\' :: acc)
  | c :: r, acc => joinContinuedLines r (c :: acc)
termination_by cs => cs.length
decreasing_by
  all_goals simp_wf
  all_goals first
    | omega
    | have := (List.dropWhile_suffix isGap (l := r)).length_le; omega

/-- The value of hexadecimal digits. -/
def hexValue (ds : List Char) : Nat :=
  ds.foldl (fun n c => n * 16 + ((Numeral.digitValue c).getD 0)) 0

/-- A problem met while replacing the escapes of a string. -/
inductive EscapeProblem where
  /-- A backslash before a blank. -/
  | blank (c : Char)
  /-- A code point that is no Unicode scalar value; the digits as written. -/
  | invalid (digits : List Char)

/-- The message of an escape problem. -/
def EscapeProblem.message : EscapeProblem → String
  | .blank c => "invalid escape: '\\" ++ String.singleton c ++ "'"
  | .invalid ds => "Escaped character '\\u" ++ String.ofList ds ++ "' is not valid UTF-8."

/-- Replace the escapes of a basic string, whose shape the lexer has checked; `acc` holds the
characters so far, in reverse. -/
def unescape : List Char → List Char → Except EscapeProblem (List Char)
  | [], acc => .ok acc.reverse
  | '\\' :: e :: r, acc =>
    let simple : Option Char :=
      if e = 'b' then some (Char.ofNat 8) else if e = 't' then some '\t'
      else if e = 'n' then some '\n' else if e = 'f' then some (Char.ofNat 12)
      else if e = 'r' then some '\r' else if e = 'e' then some (Char.ofNat 0x1b)
      else if e = '"' then some '"' else if e = '\\' then some '\\' else none
    match simple with
    | some c => unescape r (c :: acc)
    | none =>
      if e = ' ' ∨ e = '\t' then .error (.blank e)
      else
        let width := if e = 'x' then 2 else if e = 'u' then 4 else if e = 'U' then 8 else 0
        let ds := r.take width
        let n := hexValue ds
        if width = 0 then unescape r acc
        else if n < 0xd800 ∨ (0xdfff < n ∧ n < 0x110000) then unescape (r.drop width) (Char.ofNat n :: acc)
        else .error (.invalid ds)
  | c :: r, acc => unescape r (c :: acc)
termination_by cs => cs.length
decreasing_by all_goals simp_wf; all_goals omega

/-! ## Reading tokens -/

/-- What is known of a key that was given a value: the line of its token, and whether the value
is an inline array. -/
structure KeyInfo where
  line : Nat
  inlineArray : Bool
  deriving Repr, Inhabited

/-- A document being read. -/
structure Reader where
  tokens : Array Token
  /-- The lexer's problem after the last token, if any. -/
  failure : Option LexError
  index : Nat := 0
  root : Table := []
  /-- The table that pairs go into. -/
  context : List String := []
  /-- The last part of the key of the pair being read, empty between pairs. -/
  currentKey : String := ""
  /-- The line of the token that began the current key or header. -/
  line : Nat := 0
  /-- Every key in document order, tables included. -/
  ordered : Array (List String) := #[]
  /-- For each key written back, what its last value was. -/
  keyInfo : List (String × KeyInfo) := []
  /-- Keys, written back, of the tables created on the way by longer keys. -/
  implicits : List String := []

/-- Reading that may meet a problem. -/
abbrev ReadM := StateT Reader (Except Problem)

namespace Reader

/-- The key being read, as a problem names it: the table's key written back, then the last
part as it is. -/
def current (r : Reader) : String :=
  if r.currentKey.isEmpty then keyText r.context
  else if r.context.isEmpty then r.currentKey
  else keyText r.context ++ "." ++ r.currentKey

end Reader

/-- A problem on a given line. -/
def failAt {α : Type} (line : Nat) (text : String) : ReadM α := do
  throw ⟨line, (← get).current, text⟩

/-- A problem on the line of the current key or header. -/
def failHere {α : Type} (text : String) : ReadM α := do
  failAt (← get).line text

/-- The next token; past the last one, the lexer's problem. -/
def nextToken : ReadM Token := do
  let r ← get
  match r.tokens[r.index]? with
  | some t =>
    set { r with index := r.index + 1 }
    return t
  | none =>
    match r.failure with
    | some e => failAt e.line e.message
    | none => return ⟨.eof, "", r.line⟩

/-- The next token, which begins a key or header. -/
def startToken : ReadM Token := do
  let t ← nextToken
  modify fun r => { r with line := t.line }
  return t

/-- Note a table as created on the way. -/
def addImplicit (key : List String) : ReadM Unit :=
  modify fun r => { r with implicits := keyText key :: r.implicits }

/-- Note a table as defined. -/
def removeImplicit (key : List String) : ReadM Unit :=
  modify fun r => { r with implicits := r.implicits.filter (· != keyText key) }

/-- Whether a table was created on the way and not defined since. -/
def isImplicit (key : List String) : ReadM Bool :=
  return (← get).implicits.contains (keyText key)

/-- Whether the last value given to a key is an inline array. -/
def isArray (key : List String) : ReadM Bool :=
  return ((← get).keyInfo.lookup (keyText key)).any (·.inlineArray)

/-- Put a value into the table reached along `path`. -/
def putAt (path : List String) (k : String) (v : Value) : ReadM Unit :=
  modify fun r => { r with root := Table.modifyAt (·.insert k v) path r.root }

/-- Give `key` the value `v` in the current table. A key given before is an error, unless it holds
an inline array, which is replaced, or a table created on the way, which is now defined. -/
def setValue (key : String) (v : Value) : ReadM Unit := do
  let r ← get
  match r.root.reach r.context 0 with
  | .error i => failHere ("Key '" ++ keyText (r.context.take (i + 1)) ++ "' has already been defined.")
  | .ok t =>
    let full := r.context ++ [key]
    if (t.get? key).isSome then
      if ← isArray full then
        removeImplicit full
        putAt r.context key v
      else if ← isImplicit full then removeImplicit full
      else failHere ("Key '" ++ keyText full ++ "' has already been defined.")
    else putAt r.context key v

/-- Record the line of the value of `key` in the current table, or of the current table itself
when `key` is empty. -/
def setType (key : String) (inlineArray : Bool) (line : Nat) : ReadM Unit := modify fun r =>
  let k := if key.isEmpty then r.context else r.context ++ [key]
  let name := keyText (if k.isEmpty then [""] else k)
  let info : KeyInfo := ⟨line, inlineArray⟩
  { r with keyInfo := if r.keyInfo.any (·.1 == name) then
      r.keyInfo.map fun (n, i) => if n == name then (n, info) else (n, i)
    else r.keyInfo ++ [(name, info)] }

/-- Make `key` the current table: the tables on the way are created where missing, and the last
part is defined as a table, or, for an array of tables, given a new table. -/
def addContext (key : List String) (array : Bool) : ReadM Unit := do
  let parents := key.dropLast
  for i in List.range parents.length do
    let keyContext := parents.take (i + 1)
    let k := parents[i]?.getD ""
    let r ← get
    if let .ok t := r.root.reach (parents.take i) 0 then
      if (t.get? k).isNone then
        addImplicit keyContext
        putAt (parents.take i) k (.table [])
    if let .error _ := (← get).root.reach keyContext 0 then
      failHere ("Key '" ++ keyText keyContext ++ "' was already created as a hash.")
  modify fun r => { r with context := parents }
  let last := key.getLast?.getD ""
  if array then
    let r ← get
    match r.root.reach parents 0 with
    | .ok t =>
      match t.get? last with
      | none => putAt parents last (.tables [[]])
      | some (.tables ts) => putAt parents last (.tables (ts ++ [[]]))
      | some _ => failHere ("Key '" ++ keyText key ++ "' was already created and cannot be used as an array.")
    | .error _ => pure ()
  else setValue last (.table [])
  modify fun r => { r with context := parents ++ [last] }

/-- Note a table as created on the way and make it the current table. -/
def addImplicitContext (key : List String) : ReadM Unit := do
  addImplicit key
  addContext key false

/-- A string token's value: escapes replaced, and a multi-line string's first line break and
line-ending backslashes dropped; `none` for a token of another kind. -/
def stringValue (t : Token) : ReadM (Option String) := do
  let escaped (cs : List Char) : ReadM String :=
    match unescape cs [] with
    | .ok s => pure (String.ofList s)
    | .error e => failAt t.line e.message
  match t.kind with
  | .string | .rawString => return some t.text
  | .stringEsc => return some (← escaped t.text.toList)
  | .multilineString => return some (← escaped (joinContinuedLines (stripFirstNewline t.text.toList) []))
  | .rawMultilineString => return some (String.ofList (stripFirstNewline t.text.toList))
  | _ => return none

/-- The parts of a key, from its first token up to the token of kind `stop`. -/
def keyParts (stop : TokenKind) : (fuel : Nat) → Token → List String → ReadM (List String)
  | 0, _, acc => pure acc.reverse
  | fuel + 1, t, acc => do
    if t.kind = stop ∨ t.kind = .eof then return acc.reverse
    let part ← match ← stringValue t with
      | some s => pure s
      | none => pure t.text
    keyParts stop fuel (← nextToken) (part :: acc)

/-- Read the parts of a key and open the tables on its way inside the current table; the last
part becomes the current key. -/
def openKey (fuel : Nat) : ReadM (List String) := do
  let key ← keyParts .keyEnd fuel (← startToken) []
  modify fun r => { r with currentKey := key.getLast?.getD "" }
  for part in key.dropLast do
    addImplicitContext ((← get).context ++ [part])
  let r ← get
  set { r with ordered := r.ordered.push (r.context ++ [r.currentKey]) }
  return key

/-- An integer value. -/
def valueInteger (t : Token) : ReadM Value := do
  let s := t.text.toList
  if !underscoresFlanked s then
    failAt t.line ("Invalid integer " ++ Text.quote t.text ++ ": underscores must be surrounded by digits")
  if hasLeadingZero s then
    failAt t.line ("Invalid integer " ++ Text.quote t.text ++ ": cannot have leading zeroes")
  let i := integerValue s
  if !fitsInt64 i then failAt t.line (t.text ++ " is out of range for int64")
  return .int i

/-- A float value. -/
def valueFloat (t : Token) : ReadM Value := do
  let s := t.text.toList
  let invalid (why : String) : ReadM Unit :=
    failAt t.line ("Invalid float " ++ Text.quote t.text ++ ": " ++ why)
  if (floatParts s).any (!underscoresFlanked ·) then invalid "underscores must be surrounded by digits"
  if ((floatParts s).head?.map hasLeadingZero).getD false then invalid "cannot have leading zeroes"
  if !pointsFollowed s then invalid "'.' must be followed by one or more digits"
  match readFloat (s.filter (· ≠ '_')) with
  | .value => return .float
  | .malformed => failAt t.line ("Invalid float value: " ++ Text.quote t.text)
  | .outOfRange => failAt t.line (t.text ++ " is out of range for float64")

/-- A date-time value. -/
def valueDatetime (t : Token) : ReadM Value := do
  let s := normalDatetime t.text.toList
  if isDatetime s then return .datetime
  failAt t.line ("invalid datetime: " ++ Text.quote (String.ofList s))

mutual

/-- The value that starts with token `t`, and whether it is an inline array; `inArray` tells
whether it is an item of an array. -/
def value (fuel : Nat) (t : Token) (inArray : Bool) : ReadM (Value × Bool) := do
  match fuel with
  | 0 => return (.table [], false)
  | fuel + 1 =>
    if let some s ← stringValue t then return (.str s, false)
    match t.kind with
    | .integer => return (← valueInteger t, false)
    | .float => return (← valueFloat t, false)
    | .bool => return (.bool (t.text == "true"), false)
    | .datetime => return (← valueDatetime t, false)
    | .array => valueArray fuel t
    | .inlineTableStart => valueInlineTable fuel inArray
    | _ => return (.table [], false)

/-- An inline array, after its opening token `t`. -/
def valueArray (fuel : Nat) (t : Token) : ReadM (Value × Bool) := do
  setType (← get).currentKey true t.line
  return (.array (← arrayItems fuel []), true)

/-- The items of an inline array, up to its closing token; `acc` holds them in reverse. -/
def arrayItems (fuel : Nat) (acc : List Value) : ReadM (List Value) := do
  match fuel with
  | 0 => return acc.reverse
  | fuel + 1 =>
    let t ← nextToken
    if t.kind = .arrayEnd ∨ t.kind = .eof then return acc.reverse
    if t.kind = .commentStart then
      let _ ← nextToken
      arrayItems fuel acc
    else
      let (v, _) ← value fuel t true
      arrayItems fuel (v :: acc)

/-- An inline table, after its opening token. Its pairs go into the tree as pairs of a table named
by the current key; an inline table inside an array is a new table of that array. -/
def valueInlineTable (fuel : Nat) (inArray : Bool) : ReadM (Value × Bool) := do
  let r ← get
  let ctx := r.context ++ [r.currentKey]
  set { r with context := ctx, currentKey := "" }
  addImplicit ctx
  addContext ctx inArray
  let pairs ← inlinePairs fuel ctx []
  modify fun s => { s with context := r.context, currentKey := r.currentKey }
  return (.table pairs, false)

/-- The pairs of an inline table whose key is `ctx`, up to its closing token; `acc` holds the
table they build. -/
def inlinePairs (fuel : Nat) (ctx : List String) (acc : Table) : ReadM Table := do
  match fuel with
  | 0 => return acc
  | fuel + 1 =>
    let t ← nextToken
    if t.kind = .inlineTableEnd ∨ t.kind = .eof then return acc
    if t.kind = .commentStart then
      let _ ← nextToken
      inlinePairs fuel ctx acc
    else
      let key ← openKey fuel
      let (v, isArr) ← value fuel (← nextToken) false
      let r ← get
      setValue r.currentKey v
      setType r.currentKey isArr t.line
      let r ← get
      match Table.insertPath key.dropLast acc r.currentKey v with
      | some acc =>
        modify fun s => { s with context := ctx }
        inlinePairs fuel ctx acc
      | none => failHere (Text.quote (keyText r.context) ++ " is not a table")

end

/-- Read one top-level item, which starts with token `t`. -/
def topLevel (fuel : Nat) (t : Token) : ReadM Unit := do
  match t.kind with
  | .commentStart => let _ ← nextToken
  | .tableStart | .arrayTableStart =>
    let array := t.kind = .arrayTableStart
    let stop := if array then TokenKind.arrayTableEnd else .tableEnd
    let key ← keyParts stop fuel (← startToken) []
    addContext key array
    setType "" false t.line
    modify fun r => { r with ordered := r.ordered.push key }
  | .keyStart =>
    let outer := (← get).context
    let _ ← openKey fuel
    let v ← nextToken
    let (val, isArr) ← value fuel v false
    let key := (← get).currentKey
    setValue key val
    setType key isArr v.line
    modify fun r => { r with context := outer, currentKey := "" }
  | _ => pure ()

/-- Read the top-level items up to the end of the document. -/
def topLevels (fuel : Nat) : (steps : Nat) → ReadM Unit
  | 0 => pure ()
  | steps + 1 => do
    let t ← nextToken
    if t.kind = .eof then return
    topLevel fuel t
    topLevels fuel steps

/-! ## Documents -/

/-- A document read. -/
structure Document where
  root : Table
  /-- Every key in document order, tables included. -/
  keys : List (List String)
  /-- For each key written back, the line of its last value. -/
  lines : List (String × Nat)
  deriving Inhabited

/-- Read a TOML document. A byte order mark at the start is skipped; a NUL among the first six
characters is refused, as the sign of a document in UTF-16. -/
def readDocument (text : String) : Except Problem Document := do
  let chars := match text.toList with
    | '\uFEFF' :: r => r
    | cs => cs
  if (chars.take 6).contains (Char.ofNat 0) then
    throw ⟨1, "", "files cannot contain NULL bytes; probably using UTF-16; TOML files must be UTF-8"⟩
  let (tokens, failure) := tokenize chars.toArray
  let fuel := tokens.size + 2
  let ((), r) ← (topLevels fuel fuel).run { tokens := tokens, failure := failure }
  return { root := r.root, keys := r.ordered.toList, lines := r.keyInfo.map fun (k, i) => (k, i.line) }

end Toml

end RegisterLiveness
