import IvrFlow.Path.Basic

/-!
Editing value paths in place. A call changes the path piece by piece and may be refused on the way;
what it has changed until then stays changed. A session is one call after another, and goes on after
calls that are refused.
-/

namespace IvrFlow.Path

/-- A change of a path in place, which may be refused. -/
abbrev Change := ExceptT PathError (StateM Path)

/-- Puts a hop, committed, behind the others. A fresh hop is pending next, unless the hop was the
terminal one. -/
def commitInPlace (hop : Hop) : Change Unit := do
  let committed ← hop.commit
  modify fun path => { path with hops := path.hops ++ [committed] }
  modify fun path =>
    { path with pending := if committed.kind.isTerminal then none else some .template }

/-- Commits the pending hop. -/
def addInPlace : Change Unit := do
  match (← get).pending with
  | none => throw .closed
  | some hop => commitInPlace hop

/-- Commits the pending hop if it is the terminal one. -/
def finishInPlace : Change Unit := do
  match (← get).pending with
  | none => throw .closed
  | some hop => if hop.kind.isTerminal then addInPlace else throw .unterminated

/-- A call to a path that is edited. -/
inductive Call where
  | add
  | finish
  | pop
  | edit (change : Hop → Hop)

namespace Call

/-- What a call changes. -/
def change : Call → Change Unit
  | .add => addInPlace
  | .finish => finishInPlace
  | .pop => modify Path.pop
  | .edit change => modify (Path.edit change)

/-- The answer to a call, and the path as it is then. -/
def run (call : Call) (path : Path) : Except PathError Unit × Path := call.change.run.run path

end Call

/-- The path after a session of calls. -/
def after (calls : List Call) (path : Path) : Path :=
  calls.foldl (fun path call => (call.run path).2) path

end IvrFlow.Path
