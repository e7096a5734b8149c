import TinyMips.Text.Line
import TinyMips.Text.Quoted
import TinyMips.Text.Utf8

/-!
# Files

Paths, what can go wrong when a file is read, and file trees that are given as a list of files.
-/

namespace TinyMips

/-! ## Paths -/

namespace FilePath

/-- The names between the slashes of a path. -/
def names (path : String) : List String :=
  (Text.cut (· = '/') path.toList).map String.ofList

/-- The slashes that a path starts with, as far as they matter: none, one, or exactly two. -/
def rootOf (path : String) : String :=
  match path.toList with
  | '/' :: '/' :: '/' :: _ => "/"
  | '/' :: '/' :: _ => "//"
  | '/' :: _ => "/"
  | _ => ""

/-- The path without empty names and without names that stay where they are. -/
def tidy (path : String) : String :=
  let kept := (names path).filter fun name => name ≠ "" ∧ name ≠ "."
  let tidied := rootOf path ++ "/".intercalate kept
  if tidied = "" then "." else tidied

example : tidy "./a//b/../c/" = "a/b/../c" := by decide +kernel

example : tidy "" = "." := by decide +kernel

/-- The most bytes of a path. -/
def greatestSize : Nat := 4095

/-- The most bytes of a name in a path. -/
def greatestNameSize : Nat := 255

end FilePath

/-! ## Faults -/

/-- Why a file is not read. -/
inductive FileFault where
  /-- there is nothing of this name -/
  | missing
  /-- it is a directory -/
  | isDirectory
  /-- the path leads through something that is no directory -/
  | notDirectory
  /-- the path is too long, or a name in it -/
  | tooLong
  /-- the path has a null character, which ends a path wherever it stands -/
  | nullInPath
  deriving DecidableEq, Repr

/-- The words for a fault, with the path. -/
def FileFault.message (path : String) : FileFault → String
  | .missing => "[Errno 2] No such file or directory: " ++ Text.quoted path
  | .isDirectory => "[Errno 21] Is a directory: " ++ Text.quoted path
  | .notDirectory => "[Errno 20] Not a directory: " ++ Text.quoted path
  | .tooLong => "[Errno 36] File name too long: " ++ Text.quoted path
  | .nullInPath => "embedded null byte"

/-- The words for malformed bytes. -/
def Text.Utf8Error.message (e : Text.Utf8Error) : String :=
  let cause := ": " ++ e.fault.message
  if e.width = 1 then
    "'utf-8' codec can't decode byte 0x" ++ String.ofList (Text.hexDigits 2 e.byte.toNat) ++
      " in position " ++ toString e.position ++ cause
  else
    "'utf-8' codec can't decode bytes in position " ++ toString e.position ++ "-" ++
      toString (e.position + e.width - 1) ++ cause

/-- Where the bytes of files come from. -/
abbrev Disk := String → Except FileFault (List UInt8)

/-! ## File trees -/

/-- What stands under a name. -/
inductive FileTree.Entry where
  /-- a file with its bytes -/
  | file (bytes : List UInt8)
  /-- a directory -/
  | directory
  deriving DecidableEq, Repr

/-- Files and directories by their places under a common directory. -/
structure FileTree where
  /-- the names on the way, and what stands there; the last entry of a place counts -/
  entries : List (List String × FileTree.Entry)

namespace FileTree

/-- What stands at a place, given by the names on the way to it. -/
def entry? (tree : FileTree) (place : List String) : Option Entry :=
  (tree.entries.findRev? (·.1 == place)).map (·.2)

/-- The place to which a name leads from another. -/
def follow (place : List String) (name : String) : List String :=
  if name = "" ∨ name = "." then place
  else if name = ".." then place.dropLast
  else place ++ [name]

/-- The places to which the names of a path lead, one after the other. -/
def placesFrom (place : List String) : List String → List (List String)
  | [] => [place]
  | name :: rest => place :: placesFrom (follow place name) rest

/-- The tree with one more entry. The directories on the way to it are made. -/
def add (tree : FileTree) (path : String) (entry : Entry) : FileTree :=
  let places := placesFrom [] (FilePath.names path)
  let directories := places.dropLast.map (·, Entry.directory)
  { entries := tree.entries ++ directories ++ [(places.getLastD [], entry)] }

/-- The tree of files and directories, each with its path. -/
def ofList (files : List (String × Entry)) : FileTree :=
  files.foldl (fun tree (path, entry) => tree.add path entry) { entries := [] }

/-- The directories that are outside of any tree, under the root. -/
def systemDirectories : List String :=
  ["bin", "boot", "dev", "etc", "home", "lib", "media", "mnt", "opt", "proc", "root", "run", "sbin",
    "srv", "sys", "tmp", "usr", "var"]

/-- What is known of the files outside of any tree: the usual directories and the null device, which
is an empty file. -/
def system : FileTree :=
  ofList (systemDirectories.map (·, .directory) ++ [("dev/null", .file [])])

/-- Where a place is counted from. -/
inductive Origin where
  /-- the common directory -/
  | tree
  /-- a directory above it -/
  | above
  /-- the root -/
  | root
  deriving DecidableEq, Repr

/-- A place in a tree or outside of it. -/
structure Place where
  /-- where it is counted from -/
  origin : Origin
  /-- the names on the way from there -/
  names : List String
  deriving DecidableEq, Repr

/-- The directory in which a place is. The root is in itself. -/
def Place.parent (place : Place) : Place :=
  if place.names.isEmpty then
    { place with origin := if place.origin = .tree then .above else place.origin }
  else { place with names := place.names.dropLast }

/-- What stands at a place. Of the directories above the tree nothing is known. -/
def at? (tree : FileTree) (place : Place) : Option Entry :=
  if place.names.isEmpty then some .directory
  else
    match place.origin with
    | .tree => tree.entry? place.names
    | .above => none
    | .root => system.entry? place.names

/-- A step to a name from a place. -/
def step (tree : FileTree) (place : Place) (name : String) : Except FileFault Place :=
  match tree.at? place with
  | none => .error .missing
  | some (.file _) => .error .notDirectory
  | some .directory =>
    if name = "" ∨ name = "." then .ok place
    else if name = ".." then .ok place.parent
    else if FilePath.greatestNameSize < name.utf8ByteSize then .error .tooLong
    else .ok { place with names := place.names ++ [name] }

/-- The bytes of the file that a path leads to. -/
def read (tree : FileTree) (path : String) : Except FileFault (List UInt8) := do
  if path.toList.any (·.toNat = 0) then throw .nullInPath
  if path = "" then throw .missing
  if FilePath.greatestSize < path.utf8ByteSize then throw .tooLong
  let origin := if FilePath.rootOf path = "" then Origin.tree else .root
  let place ← (FilePath.names path).foldlM tree.step { origin, names := [] }
  match tree.at? place with
  | none => throw .missing
  | some .directory => throw .isDirectory
  | some (.file bytes) => return bytes

end FileTree

end TinyMips
