import RegisterLiveness.ProgramFile.Basic
import RegisterLiveness.Format.Toml

/-!
# Program files in TOML

Decoding a TOML document into a program file. A key names a field if it equals the field's name,
or failing that equals it up to case. Every key that names a field is used; a key of the document
that no field uses makes the file refused, the first such key in document order being named.
Integer fields take integers that fit them, string fields take strings, list fields take arrays;
any other value is a type error, and the first one stops the decoding.
-/

namespace RegisterLiveness

namespace ProgramFile

/-- Decoding a TOML document: the keys used so far, written back, and the first problem. -/
abbrev Unify := StateT (List String) (Except Toml.Problem)

/-- The problem of a value at `key` that does not fit, with the line of that key's value. -/
def misfit {α : Type} (doc : Toml.Document) (key : List String) (text : String) : Unify α :=
  let k := Toml.keyText key
  throw ⟨(doc.lines.lookup k).getD 0, k, text⟩

/-- The problem of a value at `key` of another kind than the destination `dst`. -/
def badType {α : Type} (doc : Toml.Document) (key : List String) (v : Toml.Value) (dst : String) :
    Unify α :=
  misfit doc key ("incompatible types: TOML value has type " ++ v.kindName ++
    "; destination has type " ++ dst)

/-- An integer at `key`, a 16-bit register when `register`. -/
def unifyInt (doc : Toml.Document) (register : Bool) (key : List String) : Toml.Value → Unify Int
  | .int i =>
    if register ∧ (i < 0 ∨ i > 65535) then misfit doc key s!"{i} is out of range for uint16"
    else pure i
  | v => badType doc key v "integer"

/-- A string at `key`. -/
def unifyString (doc : Toml.Document) (key : List String) : Toml.Value → Unify String
  | .str s => pure s
  | v => badType doc key v "string"

/-- The items of an array at `key`, each decoded by `item`. -/
def unifyList {α : Type} (doc : Toml.Document) (key : List String)
    (item : Toml.Value → Unify α) : Toml.Value → Unify (List α)
  | .array xs => xs.mapM item
  | .tables ts => ts.mapM (item ∘ .table)
  | v => badType doc key v "slice"

/-- The field a key names among `fields`: exactly, or else up to case. -/
def fieldNamed (fields : List String) (k : String) : Option String :=
  match fields.find? (· == k) with
  | some f => some f
  | none => fields.find? fun f => f.toLower == k.toLower

/-- Decode a table at `key` into a record whose fields are named `fields`, field by field with
`field`, starting from `init`; every key naming a field is marked used. -/
def unifyRecord {α : Type} (doc : Toml.Document) (key : List String) (target : String)
    (fields : List String) (field : α → String → List String → Toml.Value → Unify α) (init : α) :
    Toml.Value → Unify α
  | .table es => es.foldlM (fun acc (k, v) => do
      match fieldNamed fields k with
      | some f => do
        modify (· ++ [Toml.keyText (key ++ [k])])
        field acc f (key ++ [k]) v
      | none => pure acc) init
  | v =>
    let kind := v.kindName
    misfit doc key s!"type mismatch for {target}: expected table but found {kind}"

/-- Decode one field of a code line. -/
def unifyCodeLineField (doc : Toml.Document) (l : CodeLine) (name : String) (key : List String)
    (v : Toml.Value) : Unify CodeLine := do
  let reg := unifyInt doc true key v
  match name with
  | "label" => return { l with label := ← unifyString doc key v }
  | "op" => return { l with op := ← unifyString doc key v }
  | "rx" => return { l with rx := (← reg).toNat }
  | "ry" => return { l with ry := (← reg).toNat }
  | "rz" => return { l with rz := (← reg).toNat }
  | "iv" => return { l with iv := ← unifyInt doc false key v }
  | "to" => return { l with «to» := ← unifyString doc key v }
  | "table" => return { l with table := ← unifyList doc key (unifyString doc key) v }
  | "args" => return { l with args := (← unifyList doc key (unifyInt doc true key) v).map Int.toNat }
  | "rets" => return { l with rets := (← unifyList doc key (unifyInt doc true key) v).map Int.toNat }
  | "fn" => return { l with fn := ← unifyString doc key v }
  | _ => return l

/-- Decode one field of a program file. -/
def unifyFileField (doc : Toml.Document) (f : ProgramFile) (name : String) (key : List String)
    (v : Toml.Value) : Unify ProgramFile := do
  match name with
  | "operands" => return { f with operands := ← unifyInt doc false key v }
  | "always_live" => return { f with alwaysLive := some (← unifyList doc key (unifyInt doc false key) v) }
  | "code" =>
    let line := unifyRecord doc key "main.codeLine" CodeLine.fieldNames (unifyCodeLineField doc) {}
    return { f with code := ← unifyList doc key line v }
  | _ => return f

/-- Decode a program file from TOML text. -/
def ofToml (text : String) : Except LoadError ProgramFile :=
  match Toml.readDocument text with
  | .error p => .error (.malformed p.message)
  | .ok doc =>
    let decode := unifyRecord doc [] "main.programFile" fieldNames
      (unifyFileField doc) {} (.table doc.root)
    match decode.run [] with
    | .error p => .error (.malformed p.message)
    | .ok (f, used) =>
      match doc.keys.find? fun k => !used.contains (Toml.keyText k) with
      | some k => .error (.unknownField (Toml.keyText k))
      | none => .ok f

end ProgramFile

end RegisterLiveness
