import TinyMips.Toml.Scalar

/-!
# TOML documents

Keys, arrays, inline tables, and the statements of a document: key/value pairs, table headers,
and headers of tables in an array. `Toml.read` reads a document as a table. It keeps book of the
tables that may not be written to or opened again, since a document may define each only once.
-/

namespace TinyMips.Toml

/-- The names that lead from a table to a value within it. -/
abbrev Path := List String

/-! ## Tables -/

namespace Table

/-- The value with a given name. -/
def get? (table : Table) (name : String) : Option Value :=
  (table.find? (·.1 == name)).map (·.2)

/-- The table with another value for a name that it has. -/
def replace (table : Table) (name : String) (v : Value) : Table :=
  table.map fun entry => if entry.1 == name then (name, v) else entry

/-- The table with a value for a name that it does not have. -/
def add (table : Table) (name : String) (v : Value) : Table :=
  table ++ [(name, v)]

/-- Changes the table that a path leads to. Tables that are missing on the way are made. Where the
way leads to an array, it goes on in the last of its tables if `entersArrays` is set. -/
def modify (entersArrays : Bool) (change : Table → Except Error Table) :
    Path → Table → Except Error Table
  | [], table => change table
  | name :: path, table =>
    match table.get? name with
    | none => do
      let inner ← modify entersArrays change path []
      return table.add name (.table inner)
    | some (.table inner) => do
      let inner ← modify entersArrays change path inner
      return table.replace name (.table inner)
    | some (.array items) =>
      match entersArrays, items.getLast? with
      | true, some (.table inner) => do
        let inner ← modify entersArrays change path inner
        return table.replace name (.array (items.dropLast ++ [.table inner]))
      | _, _ => .error .malformed
    | some _ => .error .malformed

/-- Adds a value with a new name. -/
def addNew (name : String) (v : Value) (table : Table) : Except Error Table :=
  if (table.get? name).isSome then .error .malformed else .ok (table.add name v)

/-- Adds an empty table to the array with a given name, which is made if it is missing. -/
def addToArray (name : String) (table : Table) : Except Error Table :=
  match table.get? name with
  | none => .ok (table.add name (.array [.table []]))
  | some (.array items) => .ok (table.replace name (.array (items ++ [.table []])))
  | some _ => .error .malformed

end Table

/-! ## Keys -/

/-- The characters of a key without marks. -/
def isBareKeyChar (c : Char) : Bool :=
  Text.isAsciiAlphanumeric c || c = '-' || c = '_'

/-- Whether a key can start with a character. -/
def startsKey (c : Char) : Bool :=
  isBareKeyChar c || c = '\x22' || c = '\x27'

/-- Reads one name of a key. -/
def readKeyPart : Reader String := fun s =>
  match s with
  | [] => .error .malformed
  | c :: rest =>
    if isBareKeyChar c then
      .ok (String.ofList (s.takeWhile isBareKeyChar), s.dropWhile isBareKeyChar)
    else if c = '\x27' then readLiteral rest
    else if c = '\x22' then readBasic rest
    else .error .malformed

/-- Reads the names of a key and the points between them, and the space after it. No key has more
names than its text has characters, so `fuel` is taken from there. -/
def readKeyParts : Nat → Reader Path
  | 0, _ => .error .malformed
  | fuel + 1, s => do
    let (name, s) ← readKeyPart s
    match skipSpace s with
    | '.' :: rest =>
      let (names, rest) ← readKeyParts fuel (skipSpace rest)
      return (name :: names, rest)
    | rest => return ([name], rest)

/-- Reads a key. -/
def readKey : Reader Path := fun s =>
  readKeyParts (s.length + 1) s

/-- Reads a key and the equals sign after it. -/
def readKeyEquals : Reader Path := fun s => do
  let (key, s) ← readKey s
  match s with
  | '=' :: rest => return (key, skipSpace rest)
  | _ => .error .malformed

/-- Splits a key into the path to a table and the name in it. -/
def splitKey (key : Path) : Path × String :=
  (key.dropLast, key.getLastD "")

/-! ## Values -/

/-- Drops a comment at the front. -/
def skipComment (s : List Char) : Except Error (List Char) :=
  match s with
  | '#' :: rest =>
    if (rest.takeWhile (· ≠ '\n')).any isForbidden then .error .malformed
    else .ok (rest.dropWhile (· ≠ '\n'))
  | _ => .ok s

/-- Drops space, line feeds and comments at the front. There are no more comments than
characters, so `fuel` is taken from there. -/
def skipBetweenItems : Nat → List Char → Except Error (List Char)
  | 0, s => .ok s
  | fuel + 1, s =>
    match s.dropWhile isSpaceOrNewline with
    | '#' :: rest => do skipBetweenItems fuel (← skipComment ('#' :: rest))
    | rest => .ok rest

/-- Drops what may stand between the items of an array. -/
def skipItemSpace (s : List Char) : Except Error (List Char) :=
  skipBetweenItems (s.length + 1) s

/-- Whether a value holds others. -/
def isCollection : Value → Bool
  | .array _ | .table _ => true
  | _ => false

/-- Whether one of some paths leads to a place above or at the end of a path. -/
def covers (paths : List Path) (path : Path) : Bool :=
  paths.any (·.isPrefixOf path)

/-- An inline table as far as it has been read. -/
structure InlineTable where
  /-- its entries -/
  table : Table
  /-- the paths to the values that may not be written to -/
  closed : List Path

/-- Adds a value to an inline table. -/
def InlineTable.add (t : InlineTable) (key : Path) (v : Value) : Except Error InlineTable :=
  if covers t.closed key then .error .malformed
  else do
    let (path, name) := splitKey key
    let table ← Table.modify false (Table.addNew name v) path t.table
    return { table, closed := if isCollection v then key :: t.closed else t.closed }

/-- The room for the values around another. Each takes what `roomOfArray` or `roomOfTable` says. It
is what is left of 1000 calls that may be under way, of which fourteen are taken to be under way
where a document is read by itself. In the middle of a longer program there are more of them. -/
def nestingRoom : Nat := 986

/-- The room that an array takes. -/
def roomOfArray : Nat := 2

/-- The room that an inline table takes. -/
def roomOfTable : Nat := 3

/-- The room that is left where some is taken. -/
def takeRoom (room size : Nat) : Except Error Nat :=
  if size ≤ room then .ok (room - size) else .error .tooDeep

mutual

/-- Reads a value. No value has more parts than its text has characters, so `fuel` is taken from
there; how far values may be nested in it is another matter, and depends on `room`. -/
def readValue : Nat → Nat → Reader Value
  | 0, _, _ => .error .malformed
  | fuel + 1, room, s =>
    match s with
    | '[' :: rest => do
      let room ← takeRoom room roomOfArray
      match ← skipItemSpace rest with
      | ']' :: rest => return (.array [], rest)
      | rest =>
        let (items, rest) ← readItems fuel room rest
        return (.array items, rest)
    | '\x7b' :: rest => do
      let room ← takeRoom room roomOfTable
      match skipSpace rest with
      | '\x7d' :: rest => return (.table [], rest)
      | rest =>
        let (table, rest) ← readEntries fuel room { table := [], closed := [] } rest
        return (.table table, rest)
    | s => readScalar s

/-- Reads the items of an array from the first on, and the bracket after them. -/
def readItems : Nat → Nat → Reader (List Value)
  | 0, _, _ => .error .malformed
  | fuel + 1, room, s => do
    let (v, s) ← readValue fuel room s
    match ← skipItemSpace s with
    | ']' :: rest => return ([v], rest)
    | ',' :: rest =>
      match ← skipItemSpace rest with
      | ']' :: rest => return ([v], rest)
      | rest =>
        let (items, rest) ← readItems fuel room rest
        return (v :: items, rest)
    | _ => .error .malformed

/-- Reads the entries of an inline table from the first on, and the brace after them. -/
def readEntries : Nat → Nat → InlineTable → Reader Table
  | 0, _, _, _ => .error .malformed
  | fuel + 1, room, t, s => do
    let (key, s) ← readKeyEquals s
    let (v, s) ← readValue fuel room s
    let t ← t.add key v
    match skipSpace s with
    | '\x7d' :: rest => return (t.table, rest)
    | ',' :: rest => readEntries fuel room t (skipSpace rest)
    | _ => .error .malformed

end

/-! ## Statements -/

/-- A document as far as it has been read. -/
structure Document where
  /-- its entries -/
  root : Table
  /-- the path to the table that key/value pairs belong to -/
  header : Path
  /-- the paths to the values that may not be written to -/
  closed : List Path
  /-- the paths to the tables that no further header may open -/
  opened : List Path
  /-- the paths of this kind that count from the next header on -/
  pending : List Path

namespace Document

/-- A document without entries. -/
def empty : Document where
  root := []
  header := []
  closed := []
  opened := []
  pending := []

/-- The document at its next header. -/
def beforeHeader (d : Document) : Document :=
  { d with opened := d.opened ++ d.pending, pending := [] }

/-- Opens the table with a given path. -/
def openTable (d : Document) (path : Path) : Except Error Document :=
  if path ∈ d.opened ∨ covers d.closed path then .error .malformed
  else do
    let root ← Table.modify true .ok path d.root
    return { d with root, header := path, opened := path :: d.opened }

/-- Opens a new table in the array with a given path. All that was noted about tables below the
one before it is forgotten. -/
def openArrayTable (d : Document) (path : Path) : Except Error Document :=
  if covers d.closed path then .error .malformed
  else do
    let forget (paths : List Path) := paths.filter fun p => !path.isPrefixOf p
    let (above, name) := splitKey path
    let root ← Table.modify true (Table.addToArray name) above d.root
    return { d with
      root, header := path, closed := forget d.closed, opened := path :: forget d.opened }

/-- Adds a value under the open table. The tables that its key passes through may not have been
opened by a header, and no later header may open them. -/
def addValue (d : Document) (key : Path) (v : Value) : Except Error Document :=
  let (above, name) := splitKey key
  let passed := (List.range above.length).map fun n => d.header ++ above.take (n + 1)
  let path := d.header ++ above
  if passed.any (d.opened.contains ·) ∨ covers d.closed path then .error .malformed
  else do
    let root ← Table.modify true (Table.addNew name v) path d.root
    return { d with
      root
      closed := if isCollection v then (path ++ [name]) :: d.closed else d.closed
      pending := d.pending ++ passed }

/-- Reads a header, from behind its first bracket. -/
def readHeader (d : Document) (s : List Char) : Except Error (Document × List Char) :=
  let d := d.beforeHeader
  match s with
  | '[' :: rest => do
    let (path, rest) ← readKey (skipSpace rest)
    let d ← d.openArrayTable path
    match rest with
    | ']' :: ']' :: rest => return (d, rest)
    | _ => .error .malformed
  | _ => do
    let (path, rest) ← readKey (skipSpace s)
    let d ← d.openTable path
    match rest with
    | ']' :: rest => return (d, rest)
    | _ => .error .malformed

/-- Reads a key/value pair. -/
def readPair (d : Document) (s : List Char) : Except Error (Document × List Char) := do
  let (key, s) ← readKeyEquals s
  let (v, s) ← readValue (s.length + 1) nestingRoom s
  return (← d.addValue key v, s)

/-- Reads a statement, if there is one on the line. -/
def readStatement (d : Document) (s : List Char) : Except Error (Document × List Char) :=
  match s with
  | [] => .ok (d, [])
  | c :: rest =>
    if startsKey c then d.readPair s
    else if c = '[' then d.readHeader rest
    else .ok (d, s)

/-- Reads line after line: a statement or none, then a comment or none. There are no more lines
than characters, so `fuel` is taken from there. -/
def readLines : Nat → Document → List Char → Except Error Document
  | 0, _, _ => .error .malformed
  | fuel + 1, d, s => do
    let (d, s) ← d.readStatement (skipSpace s)
    match ← skipComment (skipSpace s) with
    | [] => return d
    | '\n' :: rest => readLines fuel d rest
    | _ => .error .malformed

end Document

/-- Reads a document. -/
def read (s : List Char) : Except Error Table := do
  return (← Document.empty.readLines (s.length + 1) s).root

end TinyMips.Toml
