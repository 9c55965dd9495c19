import Folio.Layout.PageSetup
import Folio.Toml.Document

/-!
Settings of an editor, and the page setup they describe.

* `Settings.ofToml` reads settings from the text of a file. Every key may be missing, and then
  has its default value; unknown keys do not matter.
* `PageSettings.paper` is the sheet that is asked for, and `Settings.setup` the checked setup.
-/

namespace Folio

/-- The font of the editor. Its name does not affect pages, which have a font of their own. -/
structure FontSettings where
  name : String := "Consolas"
  size : Points := 12
  deriving DecidableEq, BEq, Repr

/-- The pages of the editor. -/
structure PageSettings where
  /-- The name of a sheet of paper. -/
  size : String := "A4"
  /-- With `height`, used instead of the named sheet. -/
  width : Option Points := none
  height : Option Points := none
  landscape : Bool := false
  margin : Points := 50
  deriving DecidableEq, BEq, Repr

/-- The settings of an editor. -/
structure Settings where
  font : FontSettings := {}
  page : PageSettings := {}
  deriving DecidableEq, BEq, Repr

/-! ### Reading -/

namespace Toml

/-- The text of a node. -/
def Node.text? : Node → Option String
  | .text chars => some chars
  | _ => none

/-- The truth value of a node. -/
def Node.boolean? : Node → Option Bool
  | .boolean b => some b
  | _ => none

/-- The length of a node: any number, rounded to single precision. -/
def Node.points? : Node → Option Points
  | .integer n => some ⟨.ofInt n⟩
  | .float x => some ⟨x.convert .single⟩
  | _ => none

/-- The values of a group of fields, each by its name. An array gives the values by their
position, in the order of the names. A date gives none of them. -/
def Node.fields? (names : List String) : Node → Option (String → Option Node)
  | .table _ entries => some fun name => entries.lookup name
  | .array items => some fun name => (names.zip items).lookup name
  | .tables items =>
    let nodes := items.reverse.map (Node.table .header)
    some fun name => (names.zip nodes).lookup name
  | .dateTime => some fun _ => none
  | _ => none

/-- The value of a field: its default if it is missing, none if it has the wrong type. -/
def field? {α : Type} (fields : String → Option Node) (name : String) (default : α)
    (read : Node → Option α) : Option α :=
  match fields name with
  | none => some default
  | some node => read node

end Toml

open Toml in
/-- The font settings of a node. -/
def FontSettings.ofNode? (node : Node) : Option FontSettings := do
  let base : FontSettings := {}
  let fields ← node.fields? ["name", "size"]
  return {
    name := ← field? fields "name" base.name Node.text?
    size := ← field? fields "size" base.size Node.points? }

open Toml in
/-- The page settings of a node. -/
def PageSettings.ofNode? (node : Node) : Option PageSettings := do
  let base : PageSettings := {}
  let fields ← node.fields? ["size", "width", "height", "landscape", "margin"]
  return {
    size := ← field? fields "size" base.size Node.text?
    width := ← field? fields "width" base.width fun node => some <$> node.points?
    height := ← field? fields "height" base.height fun node => some <$> node.points?
    landscape := ← field? fields "landscape" base.landscape Node.boolean?
    margin := ← field? fields "margin" base.margin Node.points? }

namespace Settings

open Toml in
/-- The settings in the text of a file. -/
def ofToml (source : String) : Except Error Settings :=
  let found := do
    let entries ← parse? source
    let fields (name : String) := entries.lookup name
    return {
      font := ← field? fields "font" {} FontSettings.ofNode?
      page := ← field? fields "page" {} PageSettings.ofNode? }
  match found with
  | some settings => .ok settings
  | none => .error .malformedSettings

/-- The settings in a file, by its bytes; there are none if the file does not exist. -/
def load (file : Option ByteArray) : Except Error Settings :=
  match file with
  | none => .error (.file .notFound)
  | some bytes =>
    match String.fromUTF8? bytes with
    | none => .error (.file .invalidText)
    | some source => ofToml source

end Settings

/-! ### Pages -/

/-- The sheet of the settings: width and height if both are given, else the named one, and on its
side if that is asked for. -/
def PageSettings.paper (page : PageSettings) : Except Error PaperSize := do
  let paper ←
    match page.width, page.height with
    | some width, some height => pure ⟨width, height⟩
    | _, _ =>
      match PaperSize.named? page.size with
      | some paper => pure paper
      | none => throw (.invalidSetup (.unknownPaper page.size))
  return if page.landscape then paper.landscape else paper

/-- The page setup of the settings, if it can be used. -/
def Settings.setup (settings : Settings) : Except Error PageSetup := do
  let paper ← settings.page.paper
  let setup := PageSetup.ofFontSize paper settings.page.margin settings.font.size
  setup.check.mapError .invalidSetup
  return setup

end Folio
