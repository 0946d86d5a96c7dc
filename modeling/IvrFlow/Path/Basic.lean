import IvrFlow.Path.Hop

/-!
Value paths under construction. The committed hops form the path; one more hop may be pending, which
is the one that is edited. Committing the terminal hop closes the path: nothing is pending until a
hop is taken back.
-/

namespace IvrFlow

/-- A value path and the hop that is edited. -/
structure Path where
  hops : List Hop
  pending : Option Hop
deriving DecidableEq

namespace Path

/-- The empty path, with a fresh hop to edit. -/
def empty : Path := ⟨[], some .template⟩

/-- A path is closed when no hop is pending. -/
def isClosed (path : Path) : Bool := path.pending.isNone

/-- A path is well formed when it ends in the terminal hop. -/
def isWellFormed (path : Path) : Bool := path.hops.getLast?.any (·.kind.isTerminal)

/-- Commits the pending hop. A fresh hop is pending next, unless the hop was the terminal one. -/
def add (path : Path) : Except PathError Path :=
  match path.pending with
  | none => .error .closed
  | some hop => do
    let hop ← hop.commit
    return ⟨path.hops ++ [hop], if hop.kind.isTerminal then none else some .template⟩

/-- Commits the pending hop if it is the terminal one. -/
def finish (path : Path) : Except PathError Path :=
  match path.pending with
  | none => .error .closed
  | some hop => if hop.kind.isTerminal then path.add else .error .unterminated

/-- Takes the last hop back for editing, in the place of the pending one. An empty path stays. -/
def pop (path : Path) : Path :=
  match path.hops.getLast? with
  | none => path
  | some hop => ⟨path.hops.dropLast, some hop.reopen⟩

/-- Changes the pending hop; a closed path has none to change. -/
def edit (change : Hop → Hop) (path : Path) : Path :=
  { path with pending := path.pending.map change }

/-- The committed hops in their notation, such as `.items[2] value`. -/
def expression (path : Path) : String := String.join (path.hops.map Hop.shown)

/-! ### Stored form -/

/-- Commits a stored hop. Nothing may follow the terminal hop, whatever it holds. -/
def replay (path : Path) (hop : Hop) : Except PathError Path :=
  if path.isClosed then .error .closed else { path with pending := some hop }.add

/-- The path that a list of stored hops builds. -/
def ofHops (hops : List Hop) : Except PathError Path := hops.foldlM replay empty

/-- The stored form of a path: its committed hops. -/
def form : Record (List Hop) where
  title := "StoredExtractor"
  blank := []
  fields :=
    [.of "operations" ["accessOperations"] (.list Hop.form.codec) id (fun _ hops => hops)]

/-- The stored path. What is pending is not stored. -/
def toJson (path : Path) : Json := form.codec.write path.hops

end Path

end IvrFlow
