import RegisterLiveness.ProgramFile.Basic
import RegisterLiveness.Format.Yaml

/-!
# Program files in YAML

Decoding a YAML document into a program file. Keys must name fields of the file or of a code line
exactly, and a field may be set once per mapping; a mapping whose keys repeat (equal in kind and
text) is refused whole. A null leaves its field as it was, but clears a list, and drops an item
of a list; integer fields take integers that fit them, and floats by their integer part; string
fields take the text of any scalar, decoded if it is tagged `!!binary`. A scalar, sequence or
mapping where another kind is needed is a type error.

A merge key `<<` takes a mapping, an alias of one, or a sequence of them, and decodes each into
the same record after the mapping's own keys: a field is taken only from the first place that
names it, the mapping's own keys first, then the merged mappings in order.

Decoding does not stop at a type error: every error is collected, in document order, and the file
is refused with all of them at once. It stops at a scalar whose explicit tag does not fit its
text, at a merge of anything but mappings, at an alias met again inside what it names, and when
nearly all of a large document's decoding goes through aliases; the file is then refused with
that error alone.
-/

namespace RegisterLiveness

namespace ProgramFile

/-- What decoding keeps track of: the type errors so far, the aliases being followed, the
number of decoding steps and of those through aliases, and, while merging, the keys already
taken. -/
structure Decoding where
  errors : Array String := #[]
  following : List Nat := []
  aliasDepth : Nat := 0
  steps : Nat := 0
  aliasSteps : Nat := 0
  taken : Option (List String) := none
  deriving Inhabited

/-- Decoding a document, which stops at the first error that is not a type error. -/
abbrev DecodeM := ReaderT Yaml.Document (StateT Decoding (Except String))

/-- Record a type error. -/
def report (e : String) : DecodeM Unit := modify fun s => { s with errors := s.errors.push e }

/-- The node numbered `i`. -/
def nodeAt (i : Nat) : DecodeM Yaml.Node := return (← read).node i

/-- Count a decoding step. More than 1000 steps of which more than 100, and more than 99 in a
hundred, go through aliases stop decoding. -/
def countStep : DecodeM Unit := do
  modify fun s => { s with
    steps := s.steps + 1
    aliasSteps := if s.aliasDepth > 0 then s.aliasSteps + 1 else s.aliasSteps }
  let s ← get
  if s.aliasSteps > 100 ∧ s.steps > 1000 ∧ 100 * s.aliasSteps > 99 * s.steps then
    throw "document contains excessive aliasing"

/-- Decode node `i` with `body`, an alias by the node it names; an alias met again while it is
followed is an error. -/
def withNode {β : Type} (i : Nat) (body : Yaml.Node → DecodeM β) : DecodeM β := do
  countStep
  let n ← nodeAt i
  match n.shape with
  | .alias name target =>
    if (← get).following.contains i then throw s!"anchor '{name}' value contains itself"
    modify fun s => { s with following := i :: s.following, aliasDepth := s.aliasDepth + 1 }
    countStep
    let r ← body (← nodeAt target)
    modify fun s => { s with following := s.following.erase i, aliasDepth := s.aliasDepth - 1 }
    return r
  | _ => body n

/-- A scalar's text as a type error shows it: up to ten bytes whole, longer ones cut to seven and
an ellipsis. -/
def shownValue (v : String) : String :=
  if Text.byteLength v > 10 then " `" ++ Text.takeBytes 7 v ++ "...`" else " `" ++ v ++ "`"

/-- Record that node `n` cannot be decoded into a value of type `target`. Its text is shown
quoted unless its tag is that of a collection, which shows it bare. -/
def typeError (n : Yaml.Node) (target : String) : DecodeM Unit :=
  let text := match n.shape with
    | .scalar v => v
    | _ => ""
  let shown := if n.tag = "!!seq" ∨ n.tag = "!!map" then text else shownValue text
  let line := n.line
  let tag := n.tag
  report s!"line {line}: cannot unmarshal {tag}{shown} into {target}"

/-- What a scalar node of text `v` denotes under its tag; decoding stops at a tag the text does
not fit. -/
def scalarValue (n : Yaml.Node) (v : String) : DecodeM Yaml.Value :=
  match Yaml.Value.ofTagged n.tag v with
  | .ok x => pure x
  | .error e => throw e

/-- What identifies a key when looking for repeated ones: its kind and its text. -/
def keyIdentity (n : Yaml.Node) : Nat × String :=
  match n.shape with
  | .scalar v => (0, v)
  | .sequence _ => (1, "")
  | .mapping _ => (2, "")
  | .alias name _ => (3, name)

/-- Record every pair of equal keys of a mapping, the later one first; whether there was one. -/
def reportRepeatedKeys (entries : List (Nat × Nat)) : DecodeM Bool := do
  let doc ← read
  let keys := entries.map fun (k, _) => doc.node k
  let pairs := keys.zipIdx.flatMap fun (ki, i) =>
    (keys.drop (i + 1)).filterMap fun kj =>
      if keyIdentity ki = keyIdentity kj then some (ki, kj) else none
  for (ki, kj) in pairs do
    let v := (keyIdentity kj).2
    let lj := kj.line
    let li := ki.line
    report (s!"line {lj}: mapping key " ++ Text.quote v ++ s!" already defined at line {li}")
  return !pairs.isEmpty

/-- Record that node `n` cannot be decoded into a value of type `target`, unless it is a mapping
with repeated keys, which are recorded instead. -/
def mismatch (n : Yaml.Node) (target : String) : DecodeM Unit := do
  match n.shape with
  | .mapping entries => if ← reportRepeatedKeys entries then return
  | _ => pure ()
  typeError n target

/-! ## Scalars and lists -/

/-- The integer places of a program file. -/
inductive NumberSlot where
  /-- A signed word of 64 bits. -/
  | int
  /-- A signed word of 64 bits, named by its width. -/
  | int64
  /-- An unsigned word of 16 bits, which registers are. -/
  | register
  deriving DecidableEq

/-- The name of a slot's type. -/
def NumberSlot.name : NumberSlot → String
  | .int => "int"
  | .int64 => "int64"
  | .register => "uint16"

/-- The integer a slot takes from a value, if it fits. A float counts by its integer part; a
signed slot takes one below its range, or at most `2^63` beyond it, as its least value, and a
register takes `2^64` as 0, as the conversion of record does. -/
def NumberSlot.take? (slot : NumberSlot) (v : Yaml.Value) : Option Int :=
  let least : Int := -Int.pow 2 63
  let fitsWord (i : Int) : Bool := least ≤ i ∧ i < Int.pow 2 63
  match slot, v with
  | .register, .int i => if 0 ≤ i ∧ i ≤ 65535 then some i else none
  | .register, .float d =>
    let t := d.truncate
    if t = Int.pow 2 64 then some 0 else if 0 ≤ t ∧ t ≤ 65535 then some t else none
  | .register, _ => none
  | _, .int i => if fitsWord i then some i else none
  | _, .float d =>
    if !d.negative ∧ !(d.magnitudeAtMost 63) then none
    else
      let t := d.truncate
      some (if fitsWord t then t else least)
  | _, .infinity true => some least
  | _, _ => none

/-- Decode node `i` into an integer slot holding `cur`: whether it was set, and the new value. -/
def decodeNumber (slot : NumberSlot) (i : Nat) (cur : Int) : DecodeM (Bool × Int) :=
  withNode i fun n => do
    match n.shape with
    | .scalar v =>
      let x ← scalarValue n v
      if x = .null then return (false, cur)
      match slot.take? x with
      | some k => return (true, k)
      | none =>
        typeError n slot.name
        return (false, cur)
    | _ =>
      mismatch n slot.name
      return (false, cur)

/-- Decode node `i` into a string slot holding `cur`: the text of a scalar, decoded if it is
binary; whether it was set, and the new value. -/
def decodeText (i : Nat) (cur : String) : DecodeM (Bool × String) :=
  withNode i fun n => do
    match n.shape with
    | .scalar v =>
      match ← scalarValue n v with
      | .null => return (false, cur)
      | .binary t => return (true, t)
      | _ => return (true, v)
    | _ =>
      mismatch n "string"
      return (false, cur)

/-- Decode node `i` into a list slot of type `target` holding `cur`, each item decoded by `item`
from `zero`. A sequence replaces the list by its items that decode; a null clears it. -/
def decodeList {α : Type} (item : Nat → α → DecodeM (Bool × α)) (zero : α) (target : String)
    (i : Nat) (cur : Option (List α)) : DecodeM (Bool × Option (List α)) :=
  withNode i fun n => do
    match n.shape with
    | .scalar v =>
      if (← scalarValue n v) = .null then return (true, none)
      typeError n target
      return (false, cur)
    | .sequence items =>
      let mut out : Array α := #[]
      for it in items do
        let (good, x) ← item it zero
        if good then out := out.push x
      return (true, some out.toList)
    | _ =>
      mismatch n target
      return (false, cur)

/-! ## Records -/

/-- A record a mapping decodes into: its type's name, its fields' names, and how a field is
decoded from a node. -/
structure RecordShape (α : Type) where
  name : String
  fields : List String
  field : String → Nat → α → DecodeM α

/-- Whether a key is the merge key. -/
def isMergeKey (n : Yaml.Node) : Bool :=
  match n.shape with
  | .scalar v => v = "<<" ∧ n.tag = "!!merge"
  | _ => false

/-- Decode the entries of a mapping into a record holding `cur`, all but a merge key, whose value
is returned. While merging, a key already taken is passed over, and every other one is taken. -/
def decodeFields {α : Type} (shape : RecordShape α) (entries : List (Nat × Nat)) (cur : α) :
    DecodeM (α × Option Nat) := do
  let mut taken := (← get).taken
  modify fun s => { s with taken := none }
  let mut done : List String := []
  let mut merge : Option Nat := none
  let mut r := cur
  for (k, v) in entries do
    let kn ← nodeAt k
    if isMergeKey kn then
      merge := some v
      continue
    let (ok, name) ← decodeText k ""
    if !ok then continue
    if let some t := taken then
      if t.contains name then continue
      taken := some (t ++ [name])
    let line := kn.line
    let target := shape.name
    if shape.fields.contains name then
      if done.contains name then
        report s!"line {line}: field {name} already set in type {target}"
        continue
      done := name :: done
      r ← shape.field name v r
    else report s!"line {line}: field {name} not found in type {target}"
  modify fun s => { s with taken := taken }
  return (r, merge)

/-- The keys of a mapping that are strings, for a merge to pass over. -/
def stringKeys (entries : List (Nat × Nat)) : DecodeM (List String) := do
  let mut keys : Array String := #[]
  for (k, _) in entries do
    let key ← withNode k fun n => do
      match n.shape with
      | .scalar v =>
        match ← scalarValue n v with
        | .str | .timestamp => return some v
        | .binary t => return some t
        | _ => return none
      | _ => return none
    if let some s := key then keys := keys.push s
  return keys.toList

/-- The error of a merge of anything but mappings. -/
def mergeNeedsMaps : String := "map merge requires map or sequence of maps as the value"

/-- Whether node `i` is a mapping, an alias by the node it names. -/
def isMapping (i : Nat) : DecodeM Bool := do
  let n ← nodeAt i
  let n ← match n.shape with
    | .alias _ t => nodeAt t
    | _ => pure n
  return match n.shape with
    | .mapping _ => true
    | _ => false

/-- Decode node `i` into a record holding `cur`: whether it was a mapping without repeated keys,
and the new record. The value of a merge key is decoded into the record after the mapping's own
keys. `fuel` bounds the depth of merges. -/
def decodeRecord {α : Type} (shape : RecordShape α) : Nat → Nat → α → DecodeM (Bool × α)
  | 0, _, cur => return (false, cur)
  | fuel + 1, i, cur => withNode i fun n => do
    match n.shape with
    | .mapping entries =>
      if ← reportRepeatedKeys entries then return (false, cur)
      let (r, merge) ← decodeFields shape entries cur
      match merge with
      | none => return (true, r)
      | some m =>
        let saved := (← get).taken
        if saved.isNone then
          let keys ← stringKeys entries
          modify fun s => { s with taken := some keys }
        let mn ← nodeAt m
        let sources ← match mn.shape with
          | .mapping _ | .alias _ _ => pure [m]
          | .sequence items => pure items
          | .scalar _ => throw mergeNeedsMaps
        let mut r := r
        for src in sources do
          if !(← isMapping src) then throw mergeNeedsMaps
          r := (← decodeRecord shape fuel src r).2
        modify fun s => { s with taken := saved }
        return (true, r)
    | .scalar v =>
      if (← scalarValue n v) = .null then return (false, cur)
      typeError n shape.name
      return (false, cur)
    | _ =>
      typeError n shape.name
      return (false, cur)

/-! ## Program files -/

/-- Decode one field of a code line. -/
def codeLineField (name : String) (v : Nat) (l : CodeLine) : DecodeM CodeLine := do
  let registers (rs : List Nat) : DecodeM (List Nat) := do
    let (_, out) ← decodeList (decodeNumber .register) 0 "[]uint16" v (some (rs.map Int.ofNat))
    return ((out.getD []).map Int.toNat)
  match name with
  | "label" => return { l with label := (← decodeText v l.label).2 }
  | "op" => return { l with op := (← decodeText v l.op).2 }
  | "rx" => return { l with rx := (← decodeNumber .register v l.rx).2.toNat }
  | "ry" => return { l with ry := (← decodeNumber .register v l.ry).2.toNat }
  | "rz" => return { l with rz := (← decodeNumber .register v l.rz).2.toNat }
  | "iv" => return { l with iv := (← decodeNumber .int64 v l.iv).2 }
  | "to" => return { l with «to» := (← decodeText v l.«to»).2 }
  | "table" =>
    let (_, t) ← decodeList decodeText "" "[]string" v (some l.table)
    return { l with table := t.getD [] }
  | "args" => return { l with args := ← registers l.args }
  | "rets" => return { l with rets := ← registers l.rets }
  | "fn" => return { l with fn := (← decodeText v l.fn).2 }
  | _ => return l

/-- The record of a code line. -/
def codeLineShape : RecordShape CodeLine := ⟨"main.codeLine", CodeLine.fieldNames, codeLineField⟩

/-- Decode one field of a program file; `fuel` bounds the depth of merges in code lines. -/
def fileField (fuel : Nat) (name : String) (v : Nat) (f : ProgramFile) : DecodeM ProgramFile := do
  match name with
  | "operands" => return { f with operands := (← decodeNumber .int v f.operands).2 }
  | "always_live" =>
    let (_, rs) ← decodeList (decodeNumber .int) 0 "[]int" v f.alwaysLive
    return { f with alwaysLive := rs }
  | "code" =>
    let (_, ls) ← decodeList (decodeRecord codeLineShape fuel) {} "[]main.codeLine" v (some f.code)
    return { f with code := ls.getD [] }
  | _ => return f

/-- The record of a program file. -/
def fileShape (fuel : Nat) : RecordShape ProgramFile :=
  ⟨"main.programFile", fieldNames, fileField fuel⟩

/-- Decode a program file from a document: the file, and the type errors met. -/
def decodeDocument (doc : Yaml.Document) : Except String (ProgramFile × Array String) := do
  let fuel := (doc.nodes.size + 1) * (doc.nodes.size + 1)
  let go : DecodeM ProgramFile := do
    countStep
    return (← decodeRecord (fileShape fuel) fuel doc.root {}).2
  let (f, s) ← (go.run doc).run {}
  return (f, s.errors)

/-- Decode a program file from YAML text. -/
def ofYaml (text : String) : Except LoadError ProgramFile :=
  match Yaml.readDocument text with
  | .error f => .error (.malformed f.message)
  | .ok doc =>
    match decodeDocument doc with
    | .error e => .error (.malformed ("yaml: " ++ e))
    | .ok (f, errs) =>
      if errs.isEmpty then .ok f
      else .error (.malformed ("yaml: unmarshal errors:\n  " ++ "\n  ".intercalate errs.toList))

end ProgramFile

end RegisterLiveness
