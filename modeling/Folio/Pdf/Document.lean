import Folio.Pdf.Object
import Folio.Pdf.ObjectIds

/-!
PDF documents of laid out pages.

* `Pdf.Document` is the objects of a file under their numbers, in the order of the file, and the
  two that its trailer names.
* `Pdf.assemble` builds the document of some pages.
* `Pdf.Document.bytes` writes a document, with the table of the places of its objects.
* `Pdf.render` and `Pdf.write` do both.
-/

namespace Folio

namespace Pdf

/-- The objects of a file. -/
structure Document where
  objects : List (Nat × Object)
  root : Nat
  info : Option Nat
  deriving DecidableEq, Repr

/-! ### Assembling -/

open ObjectIds

/-- The two objects of a page: the page itself and its content stream. -/
def pageObjects (fontSize : Points) (page : Page) (index : Nat) :
    StateM ObjectIds (List (Nat × Object)) := do
  let id ← obtain (.page index)
  let pageTree ← obtain .pageTree
  let font ← obtain .font
  let contents ← generate (.content index)
  return [(id, .page page.mediaBox page.contentBox pageTree contents font),
    (contents, .content (Content.ofLines page.lines fontSize))]

/-- The document of some pages. The numbers of the pages are taken before those of their
contents, because the page tree comes first. -/
def assemble (pages : List Page) (fontSize : Points) (info : Option Info) :
    StateM ObjectIds Document := do
  let catalog ← generate .catalog
  let pageTree ← generate .pageTree
  let font ← generate .font
  let infoObject ← info.mapM fun info => return (← generate .info, Object.info info)
  let kids ← (List.range pages.length).mapM fun index => generate (.page index)
  let contents ← pages.zipIdx.mapM fun (page, index) => pageObjects fontSize page index
  return {
    objects := infoObject.toList ++ [(pageTree, .pageTree kids.length kids), (font, .font)] ++
      contents.flatten ++ [(catalog, .catalog pageTree)]
    root := catalog
    info := infoObject.map (·.1) }

/-- The document of some pages, its objects numbered from one. -/
def document (pages : List Page) (fontSize : Points) (info : Option Info) : Document :=
  ((assemble pages fontSize info).run .start).1

/-! ### Writing -/

/-- The first two lines of a file. The bytes of the second one show that it is not plain text. -/
def header : ByteArray :=
  "%PDF-1.7\n%".toUTF8 ++ ⟨#[0x80, 0x80, 0x80, 0x80]⟩ ++ "\n\n".toUTF8

/-- An object with its number. -/
def numbered (id : Nat) (object : Object) : String := s!"{id} 0 obj\n{object.text}\nendobj\n\n"

/-- The text of some objects, the first of which starts at the byte `offset`, and the place of
each. -/
def placed (offset : Nat) : List (Nat × Object) → List String × List (Nat × Nat)
  | [] => ([], [])
  | (id, object) :: rest =>
    let text := numbered id object
    let (texts, places) := placed (offset + text.utf8ByteSize) rest
    (text :: texts, (id, offset) :: places)

/-- A number with zeros before its digits, up to the given width. -/
def padded (width n : Nat) : String :=
  let digits := Nat.toDigits 10 n
  String.ofList (List.replicate (width - digits.length) '0' ++ digits)

/-- One line of the table of places: ten digits, a generation and a mark. -/
def tableLine (offset generation : Nat) (mark : String) : String :=
  s!"{padded 10 offset} {padded 5 generation} {mark}\r\n"

/-- What comes before the lines of the table: how many there are. -/
def tableHead (size : Nat) : String := s!"xref\n0 {size}\n"

/-- The end of a file, which tells the place of the table. -/
def ending (table : Nat) : String := s!"startxref\n{table}\n%%EOF"

/-- The trailer of a file. -/
def trailer (document : Document) : String :=
  let size := document.objects.length + 1
  let entries := dictionary 0 ([("Size", toString size), ("Root", reference document.root)] ++
    (document.info.map fun id => ("Info", reference id)).toList)
  s!"trailer\n{entries}\n"

/-- The table of the places of all objects, the trailer, and the place of the table. -/
def closing (document : Document) (places : List (Nat × Nat)) (table : Nat) : String :=
  let line (id : Nat) := tableLine ((places.lookup id).getD 0) 0 "n"
  tableHead (document.objects.length + 1) ++ tableLine 0 65535 "f" ++
    String.join ((List.range' 1 document.objects.length).map line) ++ trailer document ++
    ending table

/-- The bytes of a file. -/
def Document.bytes (document : Document) : ByteArray :=
  let (texts, places) := placed header.size document.objects
  let body := String.join texts
  header ++ body.toUTF8 ++ (closing document places (header.size + body.utf8ByteSize)).toUTF8

/-- The file of some pages, if the setup can be used. -/
def render (pages : List Page) (setup : PageSetup) (info : Option Info) :
    Except Error ByteArray := do
  setup.check.mapError .invalidSetup
  return (document pages setup.fontSize info).bytes

/-- Writes the file of some pages where there is room for `capacity` bytes, and tells how many
are left. -/
def write (pages : List Page) (setup : PageSetup) (info : Option Info) (capacity : Nat) :
    Except Error Nat := do
  let bytes ← render pages setup info
  if bytes.size ≤ capacity then return capacity - bytes.size else throw (.file .outOfSpace)

end Pdf

end Folio
