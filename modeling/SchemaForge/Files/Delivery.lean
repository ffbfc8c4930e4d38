import SchemaForge.Files.Route
import SchemaForge.Module.Exports
import SchemaForge.Text.Quoted

/-!
# `SchemaForge.Files.Delivery` — writing files, after checking all of them

Several outputs are delivered together. First all of them are checked, in order: unless files may be
overwritten nothing may stand where an output goes, and a module's content is checked for its
exports. Then they are written, in order, each in one piece and with the directories it needs. The
checks see the tree as it was; a failure to write an output leaves those before it in place.

An output is written to a temporary file in the directory where it belongs and moved from there to
its place, so that no reader finds a part of it. When it cannot be moved the temporary file goes.

## Contents
- **Outputs.** `Output`, `Policy`.
- **Failures.** `WriteError`, `WriteError.message?`, and `Attempt`, a tree with what went wrong.
- **Checking.** `checkOutput`, `check`.
- **Directories.** `makeDirectory`, `makeDirectories`.
- **Writing.** `totalLength`, `temporaryName`, `putThrough`, `replace`, `write`, `writeAll`, `deliver`.
-/

namespace SchemaForge

/-! ## Outputs -/

/-- A file to be written. -/
structure Output where
  /-- Where it goes. -/
  route : Route
  /-- What it holds. -/
  text : String
  /-- Whether its exports are checked; if it does not say, the policy does. -/
  validate? : Option Bool := none

/-- What holds for all outputs. -/
structure Policy where
  /-- Whether files that are there may be overwritten. -/
  overwrite : Bool := false
  /-- Whether exports are checked. -/
  validate : Bool := true

/-! ## Failures -/

/-- Why an output is not written. -/
inductive WriteError where
  /-- Something stands where it goes. -/
  | exists (route : Route)
  /-- It is no proper module. -/
  | invalid (defect : Module.Defect)
  /-- A directory cannot be made. -/
  | blocked (obstacle : Obstacle) (directory : Route)
  /-- A directory stands where it goes. -/
  | isDirectory (route : Route)

/-- The message about a failure that a user can do something about. Routes start from a directory
that is shown as the given text. -/
def WriteError.message? (directory : String) : WriteError → Option String
  | .exists route =>
    some ("Output file already exists: " ++ route.shown directory ++ ". Use --force to overwrite.")
  | .invalid defect => some defect.message
  | .blocked .occupied made =>
    some ("[Errno 17] File exists: " ++ Text.quoted (made.shown directory))
  | .blocked .missing _ | .blocked .throughFile _ | .isDirectory _ => none

/-- What comes of changing a tree: how far it got, and what stopped it. -/
structure Attempt where
  /-- The tree as it is left behind. -/
  tree : FileTree
  /-- The failure, if there was one. -/
  failure? : Option WriteError := none

/-- A further change, unless there was a failure. -/
def Attempt.andThen (attempt : Attempt) (change : FileTree → Attempt) : Attempt :=
  match attempt.failure? with
  | some _ => attempt
  | none => change attempt.tree

namespace FileTree

/-! ## Checking -/

/-- What speaks against an output. -/
def checkOutput (tree : FileTree) (policy : Policy) (output : Output) : Option WriteError :=
  if !policy.overwrite && tree.leadsSomewhere output.route then some (.exists output.route)
  else if output.validate?.getD policy.validate then (Module.defect? output.text).map .invalid
  else none

/-- What speaks against the first output that something speaks against. -/
def check (tree : FileTree) (policy : Policy) (outputs : List Output) : Option WriteError :=
  outputs.findSome? (tree.checkOutput policy)

/-! ## Directories -/

/-- Makes the directory at the end of a route whose other steps can be followed. A directory that is
there is left as it is. -/
def makeDirectory (tree : FileTree) (route : Route) : Except Obstacle FileTree :=
  match route.getLast? with
  | none => .ok tree
  | some step =>
    match tree.follow [] route.dropLast with
    | .error obstacle => .error obstacle
    | .ok here =>
      if tree.isDirectory here then
        match tree.find? (Route.next here step) with
        | some (.directory _) => .ok tree
        | some (.file _) => .error .occupied
        | none => .ok (tree.put (Route.next here step) (.directory []))
      else .error .throughFile

/-- Makes a directory, or says what is in the way. -/
def attemptDirectory (tree : FileTree) (route : Route) : Attempt :=
  match tree.makeDirectory route with
  | .ok made => { tree := made }
  | .error obstacle => { tree, failure? := some (.blocked obstacle route) }

/-- Makes the directory at the end of a route, and if a step leads to nothing the directories on the
way before it. -/
def makeDirectories (tree : FileTree) (route : Route) : Attempt :=
  match tree.makeDirectory route with
  | .error .missing =>
    if route = [] then tree.attemptDirectory route
    else (makeDirectories tree route.dropLast).andThen (·.attemptDirectory route)
  | _ => tree.attemptDirectory route
termination_by route.length
decreasing_by
  next notEmpty =>
    have : route.length ≠ 0 := fun h => notEmpty (List.eq_nil_of_length_eq_zero h)
    simp only [List.length_dropLast]
    omega

/-! ## Writing -/

/-- How long names are together. -/
def totalLength : List String → Nat
  | [] => 0
  | name :: rest => name.length + totalLength rest

/-- A name for a temporary file beside a file of the given name. It is longer than each of the names
that are taken. -/
def temporaryName (name : String) (taken : List String) : String :=
  let marks := String.ofList (List.replicate (totalLength taken) '_')
  "." ++ name ++ "." ++ marks ++ ".tmp"

/-- Puts a file at the target, where the route leads, by way of a temporary one. A directory that
stands there is left as it is. -/
def putThrough (tree : FileTree) (temporary target : Location) (route : Route) (text : String) :
    Attempt :=
  let written := tree.put temporary (.file text)
  if written.isDirectory target then
    { tree := written.remove temporary, failure? := some (.isDirectory route) }
  else { tree := written.move temporary target }

/-- Puts a file at the end of a route whose directory is there. -/
def replace (tree : FileTree) (route : Route) (text : String) : Attempt :=
  match tree.follow [] route.dropLast, route.getLast? with
  | .ok here, some step =>
    let temporary := here ++ [temporaryName step (tree.namesIn here)]
    tree.putThrough temporary (Route.next here step) route text
  | .error obstacle, _ => { tree, failure? := some (.blocked obstacle route) }
  | .ok _, none => { tree, failure? := some (.isDirectory route) }

/-- Writes an output. -/
def write (tree : FileTree) (output : Output) : Attempt :=
  (tree.makeDirectories output.route.dropLast).andThen (·.replace output.route output.text)

/-- Writes outputs one after another. -/
def writeAll (tree : FileTree) : List Output → Attempt
  | [] => { tree }
  | output :: rest => (tree.write output).andThen (·.writeAll rest)

/-- Delivers outputs: they are written if nothing speaks against any of them. -/
def deliver (tree : FileTree) (policy : Policy) (outputs : List Output) : Attempt :=
  match tree.check policy outputs with
  | some failure => { tree, failure? := some failure }
  | none => tree.writeAll outputs

end FileTree

end SchemaForge
