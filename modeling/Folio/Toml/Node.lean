import Folio.Binary.Basic
import Folio.Toml.Text

/-!
The tables of a settings file, and how they grow.

A table remembers how it came about (`Origin`), because that decides what may still be added to
it: no key is set twice, and no table is defined twice. `insertPair` and `insertSection` answer
`none` where these rules are broken.
-/

namespace Folio

namespace Toml

/-- How a table came about. -/
inductive Origin where
  /-- By a header of its own, or as the table of the whole file. -/
  | header
  /-- By the header of a table inside it. -/
  | implied
  /-- By a key with dots. -/
  | dotted
  /-- By braces. -/
  | braces
  deriving DecidableEq, Repr

/-- A value of a settings file. -/
inductive Node where
  | text (chars : String)
  | integer (n : Int)
  | float (x : Binary64)
  | boolean (b : Bool)
  | dateTime
  | array (items : List Node)
  | table (origin : Origin) (entries : List (String × Node))
  /-- Tables under one header, the last one first, each by its entries. -/
  | tables (items : List (List (String × Node)))

/-- The values of a table under their keys. -/
abbrev Entries := List (String × Node)

namespace Entries

/-- The entries with another value under a key that is there. -/
def replace (entries : Entries) (key : String) (node : Node) : Entries :=
  entries.map fun entry => if entry.1 = key then (key, node) else entry

/-- The entries with a new value, unless the key is there already. -/
def insert? (entries : Entries) (key : String) (node : Node) : Option Entries :=
  match entries.lookup key with
  | some _ => none
  | none => some (entries ++ [(key, node)])

end Entries

/-- A change to the table at the end of a path. -/
abbrev Change := Origin → Entries → Option Entries

/-- Changes the table that a path leads to. Tables that are missing on the way come about with the
origin `missing`; `mayEnter` says which tables may be passed, and of several tables under one
header it is the last one. -/
def descend (missing : Origin) (mayEnter : Origin → Bool) (change : Change) : Path → Change
  | [], origin, entries => change origin entries
  | key :: path, _, entries =>
    match entries.lookup key with
    | none => do
      let inner ← descend missing mayEnter change path missing []
      return entries ++ [(key, .table missing inner)]
    | some (.table origin inner) =>
      if mayEnter origin then do
        let inner ← descend missing mayEnter change path origin inner
        return entries.replace key (.table origin inner)
      else none
    | some (.tables (last :: earlier)) => do
      let last ← descend missing mayEnter change path .header last
      return entries.replace key (.tables (last :: earlier))
    | some _ => none

/-- A key, by the path to its table and its last part, with its value. -/
structure Pair where
  path : Path
  key : String
  node : Node

/-- Adds a pair to a table. A key with dots only leads through tables that keys with dots made,
and a key without dots only belongs to a table that they did not make. -/
def insertPair (pair : Pair) (origin : Origin) (entries : Entries) : Option Entries :=
  let mayEnter (origin : Origin) := origin == .dotted || origin == .implied
  let change : Change := fun origin entries =>
    if (origin == .dotted) == pair.path.isEmpty then none
    else entries.insert? pair.key pair.node
  descend .dotted mayEnter change pair.path origin entries

/-- Adds pairs to a table, one after the other. -/
def insertPairs (pairs : List Pair) (origin : Origin) (entries : Entries) : Option Entries :=
  pairs.foldlM (fun entries pair => insertPair pair origin entries) entries

/-- The pairs under a header. A repeated header stands for one more table of its name. -/
structure Section where
  path : Path
  key : String
  repeated : Bool
  pairs : List Pair

/-- Adds a section to the table of the file. A header may give entries to a table that was only
implied before, and to no other one. -/
def insertSection (s : Section) (entries : Entries) : Option Entries :=
  let change : Change := fun _ entries =>
    match entries.lookup s.key with
    | none => do
      let inner ← insertPairs s.pairs .header []
      return entries ++ [(s.key, if s.repeated then .tables [inner] else .table .header inner)]
    | some (.table .implied inner) =>
      if s.repeated then none
      else do
        let inner ← insertPairs s.pairs .header inner
        return entries.replace s.key (.table .header inner)
    | some (.tables items) =>
      if s.repeated then do
        let inner ← insertPairs s.pairs .header []
        return entries.replace s.key (.tables (inner :: items))
      else none
    | some _ => none
  descend .implied (· != .braces) change s.path .header entries

end Toml

end Folio
