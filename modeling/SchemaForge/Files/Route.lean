import SchemaForge.Files.Tree
import SchemaForge.Text.Segments

/-!
# `SchemaForge.Files.Route` — the way to a file, as it is written

A route is a sequence of steps: into the directory of a name, or up by `..`. Followed in a tree,
each step starts at a directory that is there. Resolved on its own, `..` takes back the name before
it, whether or not that names a directory.

## Contents
- **Routes.** `Route`, `ofText`, `shown`.
- **Resolving.** `resolve`.
- **Following.** `Obstacle`, `follow`, `leadsSomewhere`.
-/

namespace SchemaForge

/-- The steps of a way to a file. -/
abbrev Route := List String

namespace Route

/-- The step out of a directory. -/
def up : String := ".."

/-- The route that a text writes. Slashes stand between the steps, and a single dot is no step. -/
def ofText (text : String) : Route :=
  ((Text.segments '/' text.toList).map String.ofList).filter fun step => step ≠ "" && step ≠ "."

/-- A route from a directory that is shown as the given text. -/
def shown (directory : String) (route : Route) : String :=
  route.foldl (fun text step => text ++ "/" ++ step) directory

/-! ## Resolving -/

/-- Where one step leads. -/
def next (here : Location) (step : String) : Location :=
  if step = up then here.dropLast else here ++ [step]

/-- The location that a route leads to from a directory. -/
def resolve (here : Location) (route : Route) : Location := route.foldl next here

end Route

/-! ## Following -/

/-- Why a route cannot be followed, or no directory be made at its end. -/
inductive Obstacle where
  /-- A step leads to nothing. -/
  | missing
  /-- A step starts at a regular file. -/
  | throughFile
  /-- A regular file stands where the directory should be. -/
  | occupied
deriving DecidableEq, Repr

namespace FileTree

/-- The location that a route leads to in a tree, from a location on. -/
def follow (tree : FileTree) : Location → Route → Except Obstacle Location
  | here, [] => .ok here
  | here, step :: rest =>
    if tree.isDirectory here then
      if (tree.find? (Route.next here step)).isSome then follow tree (Route.next here step) rest
      else .error .missing
    else .error .throughFile

/-- Whether a route leads to something in a tree. -/
def leadsSomewhere (tree : FileTree) (route : Route) : Bool :=
  match tree.follow [] route with
  | .ok _ => true
  | .error _ => false

end FileTree

end SchemaForge
