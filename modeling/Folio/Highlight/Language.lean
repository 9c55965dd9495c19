/-!
The languages whose keywords are known, and how a file tells its language.

* `Language.keywords` is the table of reserved words of a language.
* `Language.ofPath` reads the language off the name of a file.
-/

namespace Folio

/-- A language of source text. -/
inductive Language where
  | java
  | python
  | javaScript
  | plainText
  deriving DecidableEq, Repr

namespace Language

instance : Inhabited Language := ⟨plainText⟩

/-! ### Reserved words -/

/-- The reserved words of Java. -/
def javaKeywords : List String :=
  ["abstract", "assert", "boolean", "break", "byte", "case", "catch", "char", "class", "const",
   "continue", "default", "do", "double", "else", "enum", "extends", "final", "finally", "float",
   "for", "goto", "if", "implements", "import", "instanceof", "int", "interface", "long", "native",
   "new", "package", "private", "protected", "public", "return", "short", "static", "strictfp",
   "super", "switch", "synchronized", "this", "throw", "throws", "transient", "try", "void",
   "volatile", "while", "true", "false", "null"]

/-- The reserved words of Python. -/
def pythonKeywords : List String :=
  ["False", "None", "True", "and", "as", "assert", "break", "class", "continue", "def", "del",
   "elif", "else", "except", "finally", "for", "from", "global", "if", "import", "in", "is",
   "lambda", "nonlocal", "not", "or", "pass", "raise", "return", "try", "while", "with", "yield",
   "async", "await"]

/-- The reserved words of JavaScript. -/
def javaScriptKeywords : List String :=
  ["abstract", "arguments", "await", "boolean", "break", "byte", "case", "catch", "char", "class",
   "const", "continue", "debugger", "default", "delete", "do", "double", "else", "enum", "eval",
   "export", "extends", "false", "final", "finally", "float", "for", "function", "goto", "if",
   "implements", "import", "in", "instanceof", "int", "interface", "let", "long", "native", "new",
   "null", "package", "private", "protected", "public", "return", "short", "static", "super",
   "switch", "synchronized", "this", "throw", "throws", "transient", "true", "try", "typeof",
   "var", "void", "volatile", "while", "with", "yield"]

/-- The reserved words of a language. Plain text has none. -/
def keywords : Language → List String
  | java => javaKeywords
  | python => pythonKeywords
  | javaScript => javaScriptKeywords
  | plainText => []

/-! ### Names of files -/

/-- The language of a file extension, without its dot. Case does not matter, and an unknown
extension is plain text. -/
def ofExtension (extension : String) : Language :=
  match String.ofList (extension.toList.map Char.toLower) with
  | "java" => java
  | "py" => python
  | "js" => javaScript
  | _ => plainText

/-- The name of the file that a path leads to: its last part, where empty parts and single dots do
not count. A path that leads to a parent has none. -/
def fileName? (path : List Char) : Option (List Char) := do
  let parts := (path.splitOn '/').filter fun part => part != [] && part != ['.']
  let name ← parts.getLast?
  if name = ['.', '.'] then none else some name

/-- What follows the last dot of a file name, unless nothing comes before that dot. -/
def extension? (name : List Char) : Option (List Char) :=
  let afterDot := (name.reverse.takeWhile (· != '.')).reverse
  if afterDot.length + 1 < name.length then some afterDot else none

/-- The language of the file that a path leads to. -/
def ofPath (path : String) : Language :=
  match fileName? path.toList >>= extension? with
  | some extension => ofExtension (String.ofList extension)
  | none => plainText

end Language

end Folio
