import RegisterLiveness.Format.Yaml.Token

/-!
# YAML events

The second stage of reading YAML: the tokens of a stream grouped into events, the start and end
of documents and collections, scalars and aliases, each with the position where it starts. The
grouping is a state machine whose states say what may come next; a stack of states keeps what
comes after each enclosing collection, and a stack of positions keeps where each collection
started, for the faults that name it.

A node may carry an anchor and a tag, in either order, before its content; a tag's handle is
replaced by its prefix, from a `%TAG` directive of the document or by default (`!` for `!` and
`tag:yaml.org,2002:` for `!!`). Where a node is due and none is written, as after a key with no
value, the event is an empty plain scalar; one with properties and no content is such a scalar
too. Inside a block mapping a sequence may sit at the indentation of its key.
-/

namespace RegisterLiveness

namespace Yaml

/-- What an event says. A tag is the full tag, empty when none is written. -/
inductive EventKind where
  | streamStart
  | streamEnd
  | documentStart
  | documentEnd
  | alias (name : String)
  | scalar (anchor : Option String) (tag : String) (value : String) (style : ScalarStyle)
  | sequenceStart (anchor : Option String) (tag : String)
  | sequenceEnd
  | mappingStart (anchor : Option String) (tag : String)
  | mappingEnd
  deriving Repr, Inhabited

/-- An event with the position where it starts. -/
structure Event where
  kind : EventKind
  mark : Mark
  deriving Repr, Inhabited

/-- What the grouping of tokens expects next. -/
inductive ParseState where
  | streamStart
  | implicitDocumentStart
  | documentStart
  | documentContent
  | documentEnd
  | blockNode
  | blockSequenceFirstEntry
  | blockSequenceEntry
  | indentlessSequenceEntry
  | blockMappingFirstKey
  | blockMappingKey
  | blockMappingValue
  | flowSequenceFirstEntry
  | flowSequenceEntry
  | flowSequenceEntryMappingKey
  | flowSequenceEntryMappingValue
  | flowSequenceEntryMappingEnd
  | flowMappingFirstKey
  | flowMappingKey
  | flowMappingValue
  | flowMappingEmptyValue
  | finished
  deriving Repr, DecidableEq, Inhabited

/-- A stream being grouped into events. -/
structure Parser where
  scanner : Scanner
  state : ParseState := .streamStart
  /-- The states to return to, innermost first. -/
  states : List ParseState := []
  /-- Where the enclosing collections started, innermost first. -/
  marks : List Mark := []
  /-- The tag handles of the current document with their prefixes. -/
  tagDirectives : List (String × String) := []
  deriving Inhabited

/-- A parser at the start of a stream. -/
def Parser.init (text : String) : Parser := { scanner := Scanner.init text }

/-- Grouping that may meet a fault. -/
abbrev ParseM := StateT Parser (Except Fault)

/-- Run a step of the scanner. -/
def scanning {α : Type} (m : ScanM α) : ParseM α := fun p => do
  let (a, s) ← m.run p.scanner
  return (a, { p with scanner := s })

/-- The next token, not taken. -/
def nextToken : ParseM Token := scanning peekToken

/-- Take the next token. -/
def takeToken : ParseM Unit := scanning skipToken

/-- A fault of grouping: the construct began at `context` (the start of the stream when there
is none), and the offending token stands at `here`. -/
def parseFault {α : Type} (context here : Mark) (problem : String) : ParseM α :=
  throw (.parse context.line here.line problem)

/-- Go on in state `s`. -/
def goTo (s : ParseState) : ParseM Unit := modify fun p => { p with state := s }

/-- Remember the state to return to. -/
def pushState (s : ParseState) : ParseM Unit := modify fun p => { p with states := s :: p.states }

/-- Return to the state remembered last. -/
def popState : ParseM Unit := modify fun p =>
  { p with state := p.states.headD .finished, states := p.states.tail }

/-- Remember where a collection starts. -/
def pushMark (m : Mark) : ParseM Unit := modify fun p => { p with marks := m :: p.marks }

/-- Forget where the innermost collection starts, and return it. -/
def popMark : ParseM Mark := do
  let p ← get
  set { p with marks := p.marks.tail }
  return p.marks.headD {}

/-- An empty plain scalar at `m`. -/
def emptyScalar (m : Mark) : Event := ⟨.scalar none "" "" .plain, m⟩

/-- Whether a token is a directive. -/
def TokenKind.isDirective : TokenKind → Bool
  | .versionDirective _ _ | .tagDirective _ _ => true
  | _ => false

/-- The fuel of loops over tokens. -/
def tokenFuel : ParseM Nat := return (← get).scanner.fuel

/-! ## Nodes -/

/-- The tag a tag token names: a verbatim tag as it is, else the prefix of its handle followed
by its suffix; an undeclared handle is a fault. -/
def resolveTagToken (start : Mark) (handle suffix : String) (at_ : Mark) : ParseM String := do
  if handle.isEmpty then return suffix
  match (← get).tagDirectives.lookup handle with
  | some pfx => return pfx ++ suffix
  | none => parseFault start at_ "found undefined tag handle"

/-- A node: an alias, or an anchor and a tag in either order followed by a scalar, the start of
a collection, or nothing. In a block context a block collection may start here, and with
`indentless` also a sequence of entries at the current indentation. -/
def parseNode (block indentless : Bool) : ParseM Event := do
  let first ← nextToken
  if let .alias name := first.kind then
    popState
    takeToken
    return ⟨.alias name, first.start⟩
  let start := first.start
  let mut t := first
  let mut anchor : Option String := none
  let mut tagToken : Option (String × String × Mark) := none
  match first.kind with
  | .anchor a =>
    anchor := some a
    takeToken
    t ← nextToken
    if let .tag h s := t.kind then
      tagToken := some (h, s, t.start)
      takeToken
      t ← nextToken
  | .tag h s =>
    tagToken := some (h, s, t.start)
    takeToken
    t ← nextToken
    if let .anchor a := t.kind then
      anchor := some a
      takeToken
      t ← nextToken
  | _ => pure ()
  let tag ← match tagToken with
    | none => pure ""
    | some (h, s, m) => resolveTagToken start h s m
  if indentless ∧ t.kind = .blockEntry then
    goTo .indentlessSequenceEntry
    return ⟨.sequenceStart anchor tag, start⟩
  match t.kind with
  | .scalar v style =>
    popState
    takeToken
    return ⟨.scalar anchor tag v style, start⟩
  | .flowSequenceStart =>
    goTo .flowSequenceFirstEntry
    return ⟨.sequenceStart anchor tag, start⟩
  | .flowMappingStart =>
    goTo .flowMappingFirstKey
    return ⟨.mappingStart anchor tag, start⟩
  | .blockSequenceStart =>
    if block then
      goTo .blockSequenceFirstEntry
      return ⟨.sequenceStart anchor tag, start⟩
  | .blockMappingStart =>
    if block then
      goTo .blockMappingFirstKey
      return ⟨.mappingStart anchor tag, start⟩
  | _ => pure ()
  if anchor.isSome ∨ !tag.isEmpty then
    popState
    return ⟨.scalar anchor tag "" .plain, start⟩
  parseFault start t.start "did not find expected node content"

/-! ## Documents -/

/-- The directives before a document: at most one `%YAML 1.1`, and `%TAG` directives of distinct
handles; then the default handles not declared. -/
def processDirectives : ParseM Unit := do
  let mut seenVersion := false
  for _ in [0:(← tokenFuel)] do
    let t ← nextToken
    if !t.kind.isDirective then break
    match t.kind with
    | .versionDirective major minor =>
      if seenVersion then parseFault {} t.start "found duplicate %YAML directive"
      if major ≠ 1 ∨ minor ≠ 1 then parseFault {} t.start "found incompatible YAML document"
      seenVersion := true
    | .tagDirective h pfx =>
      if (← get).tagDirectives.any (·.1 = h) then
        parseFault {} t.start "found duplicate %TAG directive"
      modify fun p => { p with tagDirectives := p.tagDirectives ++ [(h, pfx)] }
    | _ => pure ()
    takeToken
  for (h, pfx) in [("!", "!"), ("!!", "tag:yaml.org,2002:")] do
    if !(← get).tagDirectives.any (·.1 = h) then
      modify fun p => { p with tagDirectives := p.tagDirectives ++ [(h, pfx)] }

/-- The start of the stream. -/
def parseStreamStart : ParseM Event := do
  let t ← nextToken
  if t.kind ≠ .streamStart then parseFault {} t.start "did not find expected <stream-start>"
  goTo .implicitDocumentStart
  takeToken
  return ⟨.streamStart, t.start⟩

/-- The start of a document, or the end of the stream. The first document may start without
`---`; a later one needs it, after its directives, and stray `...` before it are skipped. -/
def parseDocumentStart (implicit : Bool) : ParseM Event := do
  let mut t ← nextToken
  if !implicit then
    for _ in [0:(← tokenFuel)] do
      if t.kind ≠ .documentEnd then break
      takeToken
      t ← nextToken
  if implicit ∧ !t.kind.isDirective ∧ t.kind ≠ .documentStart ∧ t.kind ≠ .streamEnd then
    processDirectives
    pushState .documentEnd
    goTo .blockNode
    return ⟨.documentStart, t.start⟩
  else if t.kind ≠ .streamEnd then
    let start := t.start
    processDirectives
    let marker ← nextToken
    if marker.kind ≠ .documentStart then
      parseFault {} marker.start "did not find expected <document start>"
    pushState .documentEnd
    goTo .documentContent
    takeToken
    return ⟨.documentStart, start⟩
  else
    goTo .finished
    takeToken
    return ⟨.streamEnd, t.start⟩

/-- The content of an explicit document, empty if a directive, a document marker or the end of
the stream follows at once. -/
def parseDocumentContent : ParseM Event := do
  let t ← nextToken
  if t.kind.isDirective ∨ t.kind = .documentStart ∨ t.kind = .documentEnd ∨ t.kind = .streamEnd then
    popState
    return emptyScalar t.start
  parseNode true false

/-- The end of a document, with or without `...`; the document's tag handles are forgotten. -/
def parseDocumentEnd : ParseM Event := do
  let t ← nextToken
  if t.kind = .documentEnd then takeToken
  modify fun p => { p with tagDirectives := [] }
  goTo .documentStart
  return ⟨.documentEnd, t.start⟩

/-! ## Block collections -/

/-- An entry of a block sequence, or its end. -/
def parseBlockSequenceEntry (first : Bool) : ParseM Event := do
  if first then
    pushMark (← nextToken).start
    takeToken
  let t ← nextToken
  match t.kind with
  | .blockEntry =>
    takeToken
    let n ← nextToken
    if n.kind ≠ .blockEntry ∧ n.kind ≠ .blockEnd then
      pushState .blockSequenceEntry
      parseNode true false
    else
      goTo .blockSequenceEntry
      return emptyScalar t.stop
  | .blockEnd =>
    popState
    let _ ← popMark
    takeToken
    return ⟨.sequenceEnd, t.start⟩
  | _ => parseFault (← popMark) t.start "did not find expected '-' indicator"

/-- An entry of a sequence at the indentation of the key owning it, or its end. -/
def parseIndentlessSequenceEntry : ParseM Event := do
  let t ← nextToken
  if t.kind = .blockEntry then
    takeToken
    let n ← nextToken
    if n.kind ≠ .blockEntry ∧ n.kind ≠ .key ∧ n.kind ≠ .value ∧ n.kind ≠ .blockEnd then
      pushState .indentlessSequenceEntry
      parseNode true false
    else
      goTo .indentlessSequenceEntry
      return emptyScalar t.stop
  else
    popState
    return ⟨.sequenceEnd, t.start⟩

/-- A key of a block mapping, or its end. -/
def parseBlockMappingKey (first : Bool) : ParseM Event := do
  if first then
    pushMark (← nextToken).start
    takeToken
  let t ← nextToken
  match t.kind with
  | .key =>
    takeToken
    let n ← nextToken
    if n.kind ≠ .key ∧ n.kind ≠ .value ∧ n.kind ≠ .blockEnd then
      pushState .blockMappingValue
      parseNode true true
    else
      goTo .blockMappingValue
      return emptyScalar t.stop
  | .blockEnd =>
    popState
    let _ ← popMark
    takeToken
    return ⟨.mappingEnd, t.start⟩
  | _ => parseFault (← popMark) t.start "did not find expected key"

/-- A value of a block mapping, empty when no `:` follows the key. -/
def parseBlockMappingValue : ParseM Event := do
  let t ← nextToken
  if t.kind = .value then
    takeToken
    let n ← nextToken
    if n.kind ≠ .key ∧ n.kind ≠ .value ∧ n.kind ≠ .blockEnd then
      pushState .blockMappingKey
      parseNode true true
    else
      goTo .blockMappingKey
      return emptyScalar t.stop
  else
    goTo .blockMappingKey
    return emptyScalar t.start

/-! ## Flow collections -/

/-- An entry of a flow sequence, or its end. An entry with a key is a mapping of one pair. -/
def parseFlowSequenceEntry (first : Bool) : ParseM Event := do
  if first then
    pushMark (← nextToken).start
    takeToken
  let mut t ← nextToken
  if t.kind ≠ .flowSequenceEnd then
    if !first then
      if t.kind = .flowEntry then
        takeToken
        t ← nextToken
      else parseFault (← popMark) t.start "did not find expected ',' or ']'"
    if t.kind = .key then
      goTo .flowSequenceEntryMappingKey
      takeToken
      return ⟨.mappingStart none "", t.start⟩
    else if t.kind ≠ .flowSequenceEnd then
      pushState .flowSequenceEntry
      return ← parseNode false false
  popState
  let _ ← popMark
  takeToken
  return ⟨.sequenceEnd, t.start⟩

/-- The key of a pair inside a flow sequence; when it is empty, the token after it is passed
over. -/
def parseFlowSequenceEntryMappingKey : ParseM Event := do
  let t ← nextToken
  if t.kind ≠ .value ∧ t.kind ≠ .flowEntry ∧ t.kind ≠ .flowSequenceEnd then
    pushState .flowSequenceEntryMappingValue
    parseNode false false
  else
    takeToken
    goTo .flowSequenceEntryMappingValue
    return emptyScalar t.stop

/-- The value of a pair inside a flow sequence. -/
def parseFlowSequenceEntryMappingValue : ParseM Event := do
  let t ← nextToken
  if t.kind = .value then
    takeToken
    let n ← nextToken
    if n.kind ≠ .flowEntry ∧ n.kind ≠ .flowSequenceEnd then
      pushState .flowSequenceEntryMappingEnd
      return ← parseNode false false
  goTo .flowSequenceEntryMappingEnd
  return emptyScalar t.start

/-- The end of a pair inside a flow sequence. -/
def parseFlowSequenceEntryMappingEnd : ParseM Event := do
  let t ← nextToken
  goTo .flowSequenceEntry
  return ⟨.mappingEnd, t.start⟩

/-- A key of a flow mapping, or its end. -/
def parseFlowMappingKey (first : Bool) : ParseM Event := do
  if first then
    pushMark (← nextToken).start
    takeToken
  let mut t ← nextToken
  if t.kind ≠ .flowMappingEnd then
    if !first then
      if t.kind = .flowEntry then
        takeToken
        t ← nextToken
      else parseFault (← popMark) t.start "did not find expected ',' or '\x7d'"
    if t.kind = .key then
      takeToken
      let n ← nextToken
      if n.kind ≠ .value ∧ n.kind ≠ .flowEntry ∧ n.kind ≠ .flowMappingEnd then
        pushState .flowMappingValue
        return ← parseNode false false
      else
        goTo .flowMappingValue
        return emptyScalar n.start
    else if t.kind ≠ .flowMappingEnd then
      pushState .flowMappingEmptyValue
      return ← parseNode false false
  popState
  let _ ← popMark
  takeToken
  return ⟨.mappingEnd, t.start⟩

/-- A value of a flow mapping; `empty` when the key stood alone. -/
def parseFlowMappingValue (empty : Bool) : ParseM Event := do
  let t ← nextToken
  if empty then
    goTo .flowMappingKey
    return emptyScalar t.start
  if t.kind = .value then
    takeToken
    let n ← nextToken
    if n.kind ≠ .flowEntry ∧ n.kind ≠ .flowMappingEnd then
      pushState .flowMappingKey
      return ← parseNode false false
    goTo .flowMappingKey
    return emptyScalar n.start
  goTo .flowMappingKey
  return emptyScalar t.start

/-- The next event of the stream. -/
def nextEvent : ParseM Event := do
  match (← get).state with
  | .streamStart => parseStreamStart
  | .implicitDocumentStart => parseDocumentStart true
  | .documentStart => parseDocumentStart false
  | .documentContent => parseDocumentContent
  | .documentEnd => parseDocumentEnd
  | .blockNode => parseNode true false
  | .blockSequenceFirstEntry => parseBlockSequenceEntry true
  | .blockSequenceEntry => parseBlockSequenceEntry false
  | .indentlessSequenceEntry => parseIndentlessSequenceEntry
  | .blockMappingFirstKey => parseBlockMappingKey true
  | .blockMappingKey => parseBlockMappingKey false
  | .blockMappingValue => parseBlockMappingValue
  | .flowSequenceFirstEntry => parseFlowSequenceEntry true
  | .flowSequenceEntry => parseFlowSequenceEntry false
  | .flowSequenceEntryMappingKey => parseFlowSequenceEntryMappingKey
  | .flowSequenceEntryMappingValue => parseFlowSequenceEntryMappingValue
  | .flowSequenceEntryMappingEnd => parseFlowSequenceEntryMappingEnd
  | .flowMappingFirstKey => parseFlowMappingKey true
  | .flowMappingKey => parseFlowMappingKey false
  | .flowMappingValue => parseFlowMappingValue false
  | .flowMappingEmptyValue => parseFlowMappingValue true
  | .finished => return ⟨.streamEnd, (← get).scanner.mark⟩

end Yaml

end RegisterLiveness
