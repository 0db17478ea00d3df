import RegisterLiveness.CappedSet

/-!
# Scripts over capped sets

A script is a list of commands run against a growing shelf of `CappedSet`s over one bitset,
numbered from 0 in order of creation. Every command answers with a `Reply` or an abort, and the
shelf after it is recorded whether it succeeded or not. Commands that create a set put it on the
shelf and answer its number; an aborted creation puts nothing there.

Two enumerations stop early at a `limit`, in two different ways: `forEach` hands each member to a
callback that asks for more while fewer than `limit` members are collected, so it collects at
least one member even for a limit of zero; `upTo` stops before collecting once `limit` members
are there.
-/

namespace RegisterLiveness

namespace CappedSet

variable {B : Type} [Bitset B]

/-- One command of a script; `a` and `b` number sets on the shelf. -/
inductive Command where
  | new (n : Int)
  | ofIndices (n : Int) (is : List Int)
  | clone (a : Int)
  | set (a i : Int)
  | clear (a i : Int)
  | test (a i : Int)
  | union (a b : Int)
  | subtract (a b : Int)
  | intersects (a b : Int)
  | equal (a b : Int)
  | subset (a b : Int)
  | any (a : Int)
  | copy (a b : Int)
  | reset (a : Int)
  | count (a : Int)
  | capacity (a : Int)
  | indices (a : Int)
  | render (a : Int)
  | forEach (a limit : Int)
  | upTo (a limit : Int)
  deriving Repr, Inhabited

/-- What a command answers. -/
inductive Reply where
  | unit
  | bool (b : Bool)
  | number (n : Nat)
  | members (is : List Nat)
  | text (s : String)
  deriving Repr, DecidableEq, Inhabited

/-- The sets a script has created so far. -/
abbrev Shelf (B : Type) := Array (CappedSet B)

/-- The set numbered `a`; a number the shelf does not have aborts as an index out of range. -/
def Shelf.get (sh : Shelf B) (a : Int) : Except Abort (CappedSet B) :=
  if h : 0 ≤ a ∧ a.toNat < sh.size then .ok sh[a.toNat]
  else .error (Abort.indexOutOfRange a sh.size)

/-- Replace the set numbered `a`, which the shelf has. -/
def Shelf.put (sh : Shelf B) (a : Int) (s : CappedSet B) : Shelf B := sh.setIfInBounds a.toNat s

/-- The members `forEach` hands to a callback that collects each one and then asks for more
while fewer than `limit` are collected. -/
def collectWhile (limit : Int) (s : CappedSet B) : List Nat :=
  (Id.run ((s.forEach (m := StateM (List Nat)) fun i => modifyGet fun acc =>
    (decide (((acc ++ [i]).length : Int) < limit), acc ++ [i])).run [])).2

/-- The members a range over `all` collects when it stops before collecting once `limit` are
collected. -/
def collectUpTo (limit : Int) (s : CappedSet B) : List Nat :=
  (Id.run ((s.all (m := StateM (List Nat)) fun i => modifyGet fun acc =>
    if limit ≤ (acc.length : Int) then (false, acc) else (true, acc ++ [i])).run [])).2

/-- Run one command: its reply, or its abort, and the shelf after it. -/
def Command.run (sh : Shelf B) : Command → Except Abort Reply × Shelf B
  | .new n =>
    match CappedSet.new n with
    | .ok s => (.ok (.number sh.size), sh.push s)
    | .error e => (.error e, sh)
  | .ofIndices n is =>
    match CappedSet.ofIndices n is with
    | .ok s => (.ok (.number sh.size), sh.push s)
    | .error e => (.error e, sh)
  | .clone a =>
    match sh.get a with
    | .ok s => (.ok (.number sh.size), sh.push s.clone)
    | .error e => (.error e, sh)
  | .set a i => update a fun s => s.set i
  | .clear a i => update a fun s => s.clear i
  | .test a i => (do let s ← sh.get a; return .bool (← s.test i), sh)
  | .union a b => change a b CappedSet.unionWith
  | .subtract a b => change a b CappedSet.subtract
  | .intersects a b => (do let s ← sh.get a; let t ← sh.get b; return .bool (← s.intersects t), sh)
  | .equal a b => (do let s ← sh.get a; let t ← sh.get b; return .bool (s.equal t), sh)
  | .subset a b => (do let s ← sh.get a; let t ← sh.get b; return .bool (← s.isSubsetOf t), sh)
  | .any a => (do let s ← sh.get a; return .bool s.any, sh)
  | .copy a b =>
    match (do let s ← sh.get a; let t ← sh.get b; s.copyFrom t) with
    | .ok s => (.ok .unit, sh.put a s)
    | .error e => (.error e, sh)
  | .reset a => update a fun s => .ok s.reset
  | .count a => (do let s ← sh.get a; return .number s.count, sh)
  | .capacity a => (do let s ← sh.get a; return .number s.capacity, sh)
  | .indices a => (do let s ← sh.get a; return .members s.indices, sh)
  | .render a => (do let s ← sh.get a; return .text s.render, sh)
  | .forEach a limit => (do let s ← sh.get a; return .members (collectWhile limit s), sh)
  | .upTo a limit => (do let s ← sh.get a; return .members (collectUpTo limit s), sh)
where
  /-- Replace set `a` by what `f` makes of it. -/
  update (a : Int) (f : CappedSet B → Except Abort (CappedSet B)) : Except Abort Reply × Shelf B :=
    match (do let s ← sh.get a; f s) with
    | .ok s => (.ok .unit, sh.put a s)
    | .error e => (.error e, sh)
  /-- Replace set `a` by what `f` makes of it with set `b`, answering whether it changed. -/
  change (a b : Int) (f : CappedSet B → CappedSet B → Except Abort (Bool × CappedSet B)) :
      Except Abort Reply × Shelf B :=
    match (do let s ← sh.get a; let t ← sh.get b; f s t) with
    | .ok (c, s) => (.ok (.bool c), sh.put a s)
    | .error e => (.error e, sh)

/-- Run a script from an empty shelf: per command, its reply or abort and the shelf after it. -/
def Command.runAll (cmds : List Command) : List (Except Abort Reply × Shelf B) :=
  (cmds.foldl (fun (acc : List (Except Abort Reply × Shelf B) × Shelf B) c =>
    let (r, sh) := c.run acc.2
    (acc.1 ++ [(r, sh)], sh)) ([], #[])).1

end CappedSet

end RegisterLiveness
