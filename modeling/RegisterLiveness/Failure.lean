/-!
# Errors and aborts

Two ways an operation of this library can fail. An `Error` is returned to the caller: a
malformed control-flow graph, an index outside its range, or a plain message, possibly under
notes of context added on the way out (`liveness: …`). An `Abort` stops the computation
outright, the way a violated precondition does: it carries either a message or an error value.

Every text the library shows for a failure is computed here, by `Error.message` and
`Abort.text`; the kind of an error is read off the innermost error under its notes.
-/

namespace RegisterLiveness

/-- Why an operation refused its input. -/
inductive Error where
  /-- A malformed control-flow graph; `block` and `target` are negative when they do not apply. -/
  | invalidGraph (block target : Int) (reason : String)
  /-- An index outside the range `[0, limit)` of what it names. -/
  | outOfRange (what : String) (index limit : Int)
  /-- A failure that is neither of the two above. -/
  | plain (text : String)
  /-- An error seen through a note of context, written before it as `note: …`. -/
  | context (note : String) (inner : Error)
  deriving Repr, DecidableEq, Inhabited

namespace Error

/-- The text of an error, notes of context first. -/
def message : Error → String
  | .invalidGraph block target reason =>
    if 0 ≤ target then s!"InvalidGraph(bb_{block} -> bb_{target}): {reason}"
    else if 0 ≤ block then s!"InvalidGraph(bb_{block}): {reason}"
    else s!"InvalidGraph: {reason}"
  | .outOfRange what index limit => s!"OutOfRange({what}): {index} is not within [0, {limit})"
  | .plain text => text
  | .context note inner => note ++ ": " ++ inner.message

/-- The error under all its notes of context. -/
def root : Error → Error
  | .context _ inner => inner.root
  | e => e

/-- Whether the error is, under its notes, a malformed graph. -/
def isInvalidGraph (e : Error) : Bool :=
  match e.root with
  | .invalidGraph .. => true
  | _ => false

/-- Whether the error is, under its notes, an index out of range. -/
def isOutOfRange (e : Error) : Bool :=
  match e.root with
  | .outOfRange .. => true
  | _ => false

@[simp] theorem root_context (note : String) (inner : Error) :
    (Error.context note inner).root = inner.root := rfl

@[simp] theorem message_context (note : String) (inner : Error) :
    (Error.context note inner).message = note ++ ": " ++ inner.message := rfl

/-- An error about the graph as a whole. -/
def graph (reason : String) : Error := .invalidGraph (-1) (-1) reason

/-- An error about one block of the graph. -/
def block (bb : Int) (reason : String) : Error := .invalidGraph bb (-1) reason

/-- An error about the edge from block `bb` to block `to`. -/
def edge (bb dst : Int) (reason : String) : Error := .invalidGraph bb dst reason

end Error

/-- Why a computation stopped outright. -/
inductive Abort where
  /-- Stopped with a message. -/
  | message (text : String)
  /-- Stopped with an error value, whose message is the abort's message. -/
  | raised (e : Error)
  deriving Repr, DecidableEq, Inhabited

namespace Abort

/-- The text of an abort. -/
def text : Abort → String
  | .message t => t
  | .raised e => e.message

/-- The error an abort carries, if it carries one. -/
def cause? : Abort → Option Error
  | .message _ => none
  | .raised e => some e

/-- An index `i` read from a sequence of length `len` that does not have it; a negative index
is reported without the length. -/
def indexOutOfRange (i len : Int) : Abort :=
  if i < 0 then .raised (.plain s!"runtime error: index out of range [{i}]")
  else .raised (.plain s!"runtime error: index out of range [{i}] with length {len}")

end Abort

/-- A failure of an operation that may both return an error and abort. -/
inductive Failure where
  | error (e : Error)
  | abort (a : Abort)
  deriving Repr, DecidableEq, Inhabited

namespace Failure

/-- Lift a computation that can only return an error. -/
def ofError {α : Type} : Except Error α → Except Failure α
  | .ok a => .ok a
  | .error e => .error (.error e)

/-- Lift a computation that can only abort. -/
def ofAbort {α : Type} : Except Abort α → Except Failure α
  | .ok a => .ok a
  | .error a => .error (.abort a)

end Failure

end RegisterLiveness
