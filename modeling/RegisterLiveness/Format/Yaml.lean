import RegisterLiveness.Format.Yaml.Event
import RegisterLiveness.Format.Yaml.Scalar

/-!
# YAML documents

The last stage of reading YAML: the events of the first document of a stream built into a graph of
nodes. Nodes are numbered in the order they start, and a collection names its children by their
numbers; an alias names the node anchored under its name most recently before it, which may be a
collection that contains the alias itself. Only the first document is read: the stream is read
up to the end of that document, and whatever follows is left unread.

Every node bears a tag in short form (`!!int` for `tag:yaml.org,2002:int`). A node with an
explicit tag bears it; the non-specific tag `!` and a missing tag give a quoted or block scalar
`!!str`, a plain scalar the tag its text resolves to (and the merge key `<<` the tag `!!merge`), a
sequence `!!seq` and a mapping `!!map`. Every node records the line, counted from 1, where it
starts; a node with properties starts where its first property does.
-/

namespace RegisterLiveness

namespace Yaml

/-- What a node holds. Children are named by their numbers in the document. -/
inductive Shape where
  | scalar (value : String)
  | sequence (items : List Nat)
  | mapping (entries : List (Nat × Nat))
  /-- An alias under its name, with the number of the node it names. -/
  | alias (name : String) (target : Nat)
  deriving Repr, Inhabited

/-- A node of a document: what it holds, its tag (empty for an alias) and its line. -/
structure Node where
  shape : Shape
  tag : String
  line : Nat
  deriving Repr, Inhabited

/-- A document: its nodes by number, and the number of its root. -/
structure Document where
  nodes : Array Node
  root : Nat
  deriving Repr, Inhabited

/-- The node numbered `i`. -/
def Document.node (d : Document) (i : Nat) : Node := d.nodes.getD i default

/-- The prefix of the tags of the core schema. -/
def corePrefix : String := "tag:yaml.org,2002:"

/-- A tag in short form: the core prefix written `!!`. -/
def shortTag (tag : String) : String :=
  if tag.startsWith corePrefix then "!!" ++ String.ofList (tag.toList.drop corePrefix.length)
  else tag

/-- The tag of a node: the written one unless it is missing or non-specific, else the default of
its kind, else, for a plain scalar, the tag its text resolves to. -/
def nodeTag (written default : String) (plainText : Option String) : String :=
  if written ≠ "" ∧ written ≠ "!" then shortTag written
  else if default ≠ "" then default
  else match plainText with
    | some v => plainTag v
    | none => ""

/-- A document being built from the events of a stream. -/
structure Composer where
  parser : Parser
  /-- The next event, once read. -/
  pending : Option Event := none
  nodes : Array Node := #[]
  /-- The anchors met so far, the latest first. -/
  anchors : List (String × Nat) := []

/-- Building that may meet a fault. -/
abbrev ComposeM := StateT Composer (Except Fault)

/-- The next event, not taken. -/
def peekEvent : ComposeM Event := do
  let c ← get
  match c.pending with
  | some e => return e
  | none =>
    let (e, p) ← StateT.lift (nextEvent.run c.parser)
    set { c with parser := p, pending := some e }
    return e

/-- Take the next event. -/
def takeEvent : ComposeM Unit := modify fun c => { c with pending := none }

/-- Add a node and return its number, anchoring it under `anchor` if there is one. -/
def addNode (n : Node) (anchor : Option String) : ComposeM Nat := do
  let c ← get
  let i := c.nodes.size
  set { c with
    nodes := c.nodes.push n
    anchors := match anchor with
      | some a => (a, i) :: c.anchors
      | none => c.anchors }
  return i

/-- Set what node `i` holds. -/
def setShape (i : Nat) (s : Shape) : ComposeM Unit := modify fun c =>
  { c with nodes := c.nodes.modify i fun n => { n with shape := s } }

/-- Whether an event ends a collection. -/
def EventKind.endsCollection : EventKind → Bool
  | .sequenceEnd | .mappingEnd => true
  | _ => false

/-- Build the node whose events come next, and return its number. A collection is numbered and
anchored before its children, so that an alias inside it may name it. `fuel` bounds the depth. -/
def composeNode : Nat → ComposeM Nat
  | 0 => throw (.other "document nests too deeply")
  | fuel + 1 => do
    let e ← peekEvent
    let line := e.mark.line + 1
    match e.kind with
    | .alias name =>
      match (← get).anchors.lookup name with
      | none => throw (.other s!"unknown anchor '{name}' referenced")
      | some target =>
        let i ← addNode ⟨.alias name target, "", line⟩ none
        takeEvent
        return i
    | .scalar anchor tag value style =>
      let default := if style ≠ .plain then "!!str" else if value = "<<" then "!!merge" else ""
      let i ← addNode ⟨.scalar value, nodeTag tag default (some value), line⟩ anchor
      takeEvent
      return i
    | .sequenceStart anchor tag =>
      let i ← addNode ⟨.sequence [], nodeTag tag "!!seq" none, line⟩ anchor
      takeEvent
      let mut items : Array Nat := #[]
      for _ in [0:fuel] do
        if (← peekEvent).kind.endsCollection then break
        items := items.push (← composeNode fuel)
      takeEvent
      setShape i (.sequence items.toList)
      return i
    | .mappingStart anchor tag =>
      let i ← addNode ⟨.mapping [], nodeTag tag "!!map" none, line⟩ anchor
      takeEvent
      let mut entries : Array (Nat × Nat) := #[]
      for _ in [0:fuel] do
        if (← peekEvent).kind.endsCollection then break
        let k ← composeNode fuel
        let v ← composeNode fuel
        entries := entries.push (k, v)
      takeEvent
      setShape i (.mapping entries.toList)
      return i
    | _ => throw (.other "did not find expected node content")

/-- The first document of a stream; a stream without one is `Fault.noDocument`. -/
def readDocument (text : String) : Except Fault Document := do
  let fuel := 8 * text.length + 64
  let go : ComposeM Document := do
    let _ ← peekEvent
    takeEvent
    match (← peekEvent).kind with
    | .documentStart =>
      takeEvent
      let root ← composeNode fuel
      let _ ← peekEvent
      takeEvent
      return ⟨(← get).nodes, root⟩
    | _ => throw .noDocument
  let (d, _) ← go.run { parser := Parser.init text }
  return d

end Yaml

end RegisterLiveness
