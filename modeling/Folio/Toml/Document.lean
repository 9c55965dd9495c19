import Folio.Toml.Node
import Folio.Toml.Number

/-!
Settings files in TOML: values, statements, and the table of a whole file.

`Toml.parse?` is the entries of the outermost table, or none if the file is malformed.
-/

namespace Folio

namespace Toml

open Reader

/-! ### Values -/

/-- Splits a key into the path to its table and its last part. -/
def splitKey (path : Path) : Path × String := (path.dropLast, path.getLastD "")

/-- A key with its value. -/
def pair (value : Reader Node) : Reader Pair := do
  let (path, name) := splitKey (← key)
  word ['=']
  blanks
  return ⟨path, name, ← value⟩

/-- Values in brackets. Lines may end between them, and a comma may follow the last one. -/
def array (value : Reader Node) : Reader Node := do
  word ['[']
  let items ← optional do
    let items ← separated (do gaps; let item ← value; gaps; return item)
    discard (optional (word [',']))
    return items
  gaps
  word [']']
  return .array (items.getD [])

/-- Pairs in braces, all on one line. -/
def inlineTable (value : Reader Node) : Reader Node := do
  word ['\x7b']
  let pairs ← optional (separated (do let p ← pair value; blanks; return p))
  blanks
  word ['\x7d']
  let entries ← StateT.lift (insertPairs (pairs.getD []) .braces [])
  return .table .braces entries

/-- A number, a date or a time. -/
def numeral : Reader Node :=
  (do dateTime; return .dateTime) <|> (.float <$> float) <|> (.integer <$> integer)

/-- A value. What stands in brackets or braces is read by `inner`; without it neither may come. -/
def nodeWith (inner : Option (Reader Node)) : Reader Node := do
  match ← peek, inner with
  | some '"', _ | some '\'', _ => return .text (String.ofList (← text))
  | some '[', some inner => array inner
  | some '\x7b', some inner => inlineTable inner
  | some '[', none | some '\x7b', none => failure
  | some 't', _ => do word "true".toList; return .boolean true
  | some 'f', _ => do word "false".toList; return .boolean false
  | _, _ => numeral

/-- A value whose brackets and braces are nested up to a depth. -/
def node : Nat → Reader Node
  | 0 => nodeWith none
  | depth + 1 => nodeWith (some (node depth))

/-! ### Statements -/

/-- A line of a file that says something. -/
inductive Statement where
  | pair (pair : Pair)
  | header (path : Path) (key : String) (repeated : Bool)

/-- A pair on lines of its own. -/
def pairStatement : Reader Statement := do
  let p ← pair (node (maxDepth - 1))
  lineRest
  return .pair p

/-- A header in single or double brackets. -/
def headerStatement : Reader Statement := do
  let repeated := (← optional (word ['[', '['])).isSome
  unless repeated do word ['[']
  let (path, name) := splitKey (← key)
  word (if repeated then [']', ']'] else [']'])
  lineRest
  return .header path name repeated

/-- One line of a file: it may be blank or hold only a comment. -/
def statement : Reader (Option Statement) := do
  blanks
  match ← peek with
  | some '#' => do comment; lineEnd; return none
  | some '\n' | some '\r' => do newline; return none
  | some '[' => some <$> headerStatement
  | some _ => some <$> pairStatement
  | none => failure

/-- All statements of a file. -/
def statements : Reader (List Statement) := do
  let found ← many statement
  blanks
  atEnd
  return found.filterMap id

/-! ### Files -/

/-- The pairs before the first header, and the sections in order. -/
def sections : List Statement → List Pair × List Section
  | [] => ([], [])
  | .pair p :: rest =>
    let (pairs, later) := sections rest
    (p :: pairs, later)
  | .header path key repeated :: rest =>
    let (pairs, later) := sections rest
    ([], ⟨path, key, repeated, pairs⟩ :: later)

/-- The table of a whole file. A byte order mark at its start does not count. -/
def parse? (source : String) : Option Entries := do
  let text := source.toList
  let text := if text.head? = some '\ufeff' then text.drop 1 else text
  let (found, _) ← statements text
  let (pairs, later) := sections found
  let root ← insertPairs pairs .header []
  later.foldlM (fun entries s => insertSection s entries) root

end Toml

end Folio
