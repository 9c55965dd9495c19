import Mathlib.Tactic
import Folio.Proofs.Pdf.Graph

/-!
The content streams of a document, found from its root. `Pdf.Document.streams?` follows the
references from there to the contents of one page after the other, and finds the streams of the
pages that the document represents (`Pdf.Document.Represents.streams?_eq`).
-/

namespace Folio

namespace Pdf

/-- The object under a number. -/
def Document.object? (document : Document) (id : Nat) : Option Object :=
  document.objects.lookup id

/-- The content stream of the page under a number. -/
def Document.pageStream? (document : Document) (id : Nat) : Option String := do
  let .page _ _ _ contents _ ← document.object? id | none
  let .content operators ← document.object? contents | none
  return operators

/-- The content streams of a document, in the order of its page tree. -/
def Document.streams? (document : Document) : Option (List String) := do
  let .catalog pageTree ← document.object? document.root | none
  let .pageTree _ kids ← document.object? pageTree | none
  kids.mapM document.pageStream?

variable {document : Document} {pages : List Page} {fontSize : Points} {info : Option Info}

lemma Document.object?_eq_some (hnodup : (document.objects.map (·.1)).Nodup) {id : Nat}
    {object : Object} (h : (id, object) ∈ document.objects) :
    document.object? id = some object := by
  obtain ⟨before, after, hobjects⟩ := List.append_of_mem h
  rw [object?, List.lookup_eq_some_iff]
  refine ⟨before, after, hobjects, fun entry hentry => bne_iff_ne.2 fun heq => ?_⟩
  rw [hobjects, List.map_append, List.map_cons, List.nodup_append] at hnodup
  exact hnodup.2.2 entry.1 (List.mem_map_of_mem hentry) id List.mem_cons_self heq.symm

lemma Document.pageStream?_eq_some (hnodup : (document.objects.map (·.1)).Nodup)
    {kid contents pageTree font : Nat} {page : Page}
    (hkid : (kid, .page page.mediaBox page.contentBox pageTree contents font) ∈ document.objects)
    (hcontents : (contents, .content (Content.ofLines page.lines fontSize)) ∈ document.objects) :
    document.pageStream? kid = some (Content.ofLines page.lines fontSize) := by
  rw [pageStream?, object?_eq_some hnodup hkid]
  change (document.object? contents).bind _ = _
  rw [object?_eq_some hnodup hcontents]
  rfl

/-- **The streams of a document** are those of the pages it represents. -/
theorem Document.Represents.streams?_eq (h : document.Represents pages fontSize info)
    (hnodup : (document.objects.map (·.1)).Nodup) :
    document.streams? = some (pages.map fun page => Content.ofLines page.lines fontSize) := by
  obtain ⟨pageTree, font, kids, hroot, htree, -, hpages, -⟩ := h
  have hkids : kids.mapM document.pageStream?
      = some (pages.map fun page => Content.ofLines page.lines fontSize) := by
    clear htree
    induction hpages with
    | nil => rfl
    | cons hpage _ ih =>
        obtain ⟨contents, hkid, hcontents⟩ := hpage
        rw [List.mapM_cons, pageStream?_eq_some hnodup hkid hcontents, ih]
        rfl
  rw [streams?, object?_eq_some hnodup hroot]
  change (document.object? pageTree).bind _ = _
  rw [object?_eq_some hnodup htree]
  exact hkids

/-- The streams of the document of some pages. -/
theorem streams?_document (pages : List Page) (fontSize : Points) (info : Option Info) :
    (Pdf.document pages fontSize info).streams?
      = some (pages.map fun page => Content.ofLines page.lines fontSize) := by
  have hnodup : ((numberedDocument pages fontSize info).objects.map (·.1)).Nodup :=
    (numbers_perm pages fontSize info).nodup_iff.2 List.nodup_range'
  rw [document_eq]
  exact (represents_numberedDocument pages fontSize info).streams?_eq hnodup

end Pdf

end Folio
