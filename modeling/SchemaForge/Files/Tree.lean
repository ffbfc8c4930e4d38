import SchemaForge.Fields

/-!
# `SchemaForge.Files.Tree` — a tree of files as a value

A file tree is a directory whose members are files and further directories. Since only a directory
has members, nothing stands below a file, and everything stands in a directory.

## Contents
- **Trees.** `Entry`, `FileTree`, and `Location`, the names on the way from the root.
- **Looking.** `find?`, `isDirectory`, `textAt?`.
- **Putting.** `put` places an entry in a directory that is there.
- **Taking.** `remove` takes an entry out of its directory, `move` puts it somewhere else.
- **Listing.** `files` has every regular file with its text, `changes` those that are new; `ofFiles`
  is a tree with given files.
-/

namespace SchemaForge

/-- The names on the way from the root of a tree. -/
abbrev Location := List String

/-- Something in a directory. -/
inductive Entry where
  /-- A regular file. -/
  | file (text : String)
  /-- A directory. -/
  | directory (members : List (String × Entry))

instance : Inhabited Entry := ⟨.directory []⟩

namespace Entry

/-! ## Looking -/

/-- What stands at a location below an entry. -/
def find? : Location → Entry → Option Entry
  | [], entry => some entry
  | _ :: _, .file _ => none
  | name :: rest, .directory members =>
    match Fields.get? name members with
    | some entry => find? rest entry
    | none => none

/-! ## Putting -/

/-- The entry with another one put at a location below it. It takes the place of what is there; if
the directory it should stand in is missing, nothing changes. -/
def put (new : Entry) : Location → Entry → Entry
  | [], _ => new
  | _ :: _, .file text => .file text
  | [name], .directory members => .directory (Fields.set name new members)
  | name :: rest, .directory members =>
    match Fields.get? name members with
    | some entry => .directory (Fields.set name (put new rest entry) members)
    | none => .directory members

/-! ## Taking -/

/-- The entry without what stands at a location below it. -/
def remove : Location → Entry → Entry
  | [], entry => entry
  | _ :: _, .file text => .file text
  | [name], .directory members => .directory (Fields.erase name members)
  | name :: rest, .directory members =>
    match Fields.get? name members with
    | some entry => .directory (Fields.set name (remove rest entry) members)
    | none => .directory members

/-! ## Listing -/

mutual

/-- The regular files at and below an entry that stands at the given location. -/
def filesFrom : Location → Entry → List (Location × String)
  | here, .file text => [(here, text)]
  | here, .directory members => filesIn here members

/-- The regular files below the members of a directory that stands at the given location. -/
def filesIn : Location → List (String × Entry) → List (Location × String)
  | _, [] => []
  | here, (name, entry) :: rest => filesFrom (here ++ [name]) entry ++ filesIn here rest

end

end Entry

/-- A tree of files. -/
structure FileTree where
  /-- What its root directory holds. -/
  members : List (String × Entry)

namespace FileTree

/-- The tree without files. -/
def empty : FileTree := { members := [] }

/-- What stands at a location. The root is a directory. -/
def find? (tree : FileTree) (location : Location) : Option Entry :=
  Entry.find? location (.directory tree.members)

/-- Whether a directory stands at a location. -/
def isDirectory (tree : FileTree) (location : Location) : Bool :=
  match tree.find? location with
  | some (.directory _) => true
  | _ => false

/-- The text of the regular file at a location. -/
def textAt? (tree : FileTree) (location : Location) : Option String :=
  match tree.find? location with
  | some (.file text) => some text
  | _ => none

/-- The tree with an entry put at a location. The root stays a directory. -/
def put (tree : FileTree) (location : Location) (new : Entry) : FileTree :=
  match Entry.put new location (.directory tree.members) with
  | .directory members => { members }
  | .file _ => tree

/-- The tree without what stands at a location. The root stays a directory. -/
def remove (tree : FileTree) (location : Location) : FileTree :=
  match Entry.remove location (.directory tree.members) with
  | .directory members => { members }
  | .file _ => tree

/-- The tree with an entry moved from one location to another. -/
def move (tree : FileTree) (source target : Location) : FileTree :=
  match tree.find? source with
  | some entry => (tree.remove source).put target entry
  | none => tree

/-- The names in the directory at a location. -/
def namesIn (tree : FileTree) (location : Location) : List String :=
  match tree.find? location with
  | some (.directory members) => Fields.names members
  | _ => []

/-- The regular files with their texts. -/
def files (tree : FileTree) : List (Location × String) := Entry.filesIn [] tree.members

/-- The regular files of a tree that another tree does not have, or has with another text. -/
def changes (before after : FileTree) : List (Location × String) :=
  after.files.filter fun file => before.textAt? file.1 ≠ some file.2

/-- The tree with the directories on the way to a location, from the directory `here` on. -/
def withDirectories (tree : FileTree) (here : Location) : Location → FileTree
  | [] => tree
  | name :: rest =>
    let next := here ++ [name]
    withDirectories (if (tree.find? next).isSome then tree else tree.put next (.directory []))
      next rest

/-- The tree with a regular file, and the directories it stands in. -/
def withFile (tree : FileTree) (location : Location) (text : String) : FileTree :=
  (tree.withDirectories [] location.dropLast).put location (.file text)

/-- The tree with the given files. -/
def ofFiles (files : List (Location × String)) : FileTree :=
  files.foldl (fun tree file => tree.withFile file.1 file.2) empty

end FileTree

end SchemaForge
