import Mathlib.Tactic
import Folio.Pdf.Document
import Folio.Proofs.Pdf.Numbering

/-!
The objects of a document, and how they refer to each other.

* `Pdf.run_pageObjects`: a page looks its numbers up and takes one, that of its contents.
  `Pdf.run_assemble`: the document and the table, number by number.
* `Pdf.represents_numberedDocument`, `Pdf.references_numberedDocument`: the objects say what the
  pages are, and every reference finds an object of its kind.
-/

namespace Folio

namespace Pdf

open ObjectIds

/-! ### Assembling in three parts -/

/-- The numbers that are taken before the pages are written, and the object about the document. -/
structure Head where
  catalog : Nat
  pageTree : Nat
  font : Nat
  info : Option (Nat × Object)
  kids : List Nat

/-- Takes the numbers that come before those of the contents of pages. -/
def head (pageCount : Nat) (info : Option Info) : StateM ObjectIds Head := do
  let catalog ← generate .catalog
  let pageTree ← generate .pageTree
  let font ← generate .font
  let infoObject ← info.mapM fun info => return (← generate .info, Object.info info)
  let kids ← (List.range pageCount).mapM fun index => generate (.page index)
  return ⟨catalog, pageTree, font, infoObject, kids⟩

/-- The objects of some pages, page after page. -/
def pagesObjects (fontSize : Points) (pages : List (Page × Nat)) :
    StateM ObjectIds (List (List (Nat × Object))) :=
  pages.mapM fun (page, index) => pageObjects fontSize page index

/-- The document with the given objects of its pages. -/
def Head.document (h : Head) (contents : List (List (Nat × Object))) : Document where
  objects := h.info.toList ++ [(h.pageTree, .pageTree h.kids.length h.kids), (h.font, .font)] ++
    contents.flatten ++ [(h.catalog, .catalog h.pageTree)]
  root := h.catalog
  info := h.info.map (·.1)

lemma assemble_eq (pages : List Page) (fontSize : Points) (info : Option Info) :
    assemble pages fontSize info = (do
      let h ← head pages.length info
      return h.document (← pagesObjects fontSize pages.zipIdx)) := by
  simp only [assemble, head, pagesObjects, Head.document, bind_assoc, pure_bind]

/-! ### The numbers -/

/-- The objects that come first, without the pages. -/
def headKeys (info : Option Info) : List ObjectKey :=
  [.catalog, .pageTree, .font] ++ info.toList.map fun _ => .info

/-- The objects of a document in the order of their numbers. -/
def objectKeys (pageCount : Nat) (info : Option Info) : List ObjectKey :=
  headKeys info ++ (List.range pageCount).map .page ++ (List.range pageCount).map .content

/-- The number of the first page. -/
def firstPage (info : Option Info) : Nat := 4 + info.toList.length

/-- The table after the contents of the first `written` pages have their numbers. -/
def tableAt (pageCount : Nat) (info : Option Info) (written : Nat) : ObjectIds :=
  ObjectIds.start.handOut
    (headKeys info ++ (List.range pageCount).map .page ++ (List.range written).map .content)

variable {pages : List Page} {fontSize : Points} {info : Option Info} {pageCount index : Nat}

lemma length_headKeys (info : Option Info) : 1 + (headKeys info).length = firstPage info := by
  simp [headKeys, firstPage]
  omega

lemma next_tableAt (written : Nat) :
    (tableAt pageCount info written).next = firstPage info + pageCount + written := by
  simp [tableAt, ← length_headKeys, ObjectIds.start]
  omega

lemma handOut_tableAt (written : Nat) :
    (tableAt pageCount info written).handOut [.content written]
      = tableAt pageCount info (written + 1) := by
  rw [tableAt, ← handOut_append, List.append_assoc, tableAt, List.range_succ, List.map_append]
  rfl

/-- The catalog, the page tree and the font keep their numbers. -/
lemma find?_tableAt_head (before : List ObjectKey) {key : ObjectKey} {after : List ObjectKey}
    (h : [.catalog, .pageTree, .font] = before ++ key :: after) (written : Nat) :
    (tableAt pageCount info written).find? key = some (1 + before.length) := by
  have hafter : key ∉ after := by
    have hnodup : (before ++ key :: after).Nodup := h ▸ by decide
    exact (List.nodup_cons.1 hnodup.of_append_right).1
  have hmem : key ∈ [ObjectKey.catalog, .pageTree, .font] := h ▸ by simp
  have hlast : key ∉ after ++ info.toList.map (fun _ => ObjectKey.info) ++
      (List.range pageCount).map ObjectKey.page ++ (List.range written).map ObjectKey.content := by
    simp only [List.mem_cons, List.not_mem_nil, or_false] at hmem
    rcases hmem with rfl | rfl | rfl <;> simpa using hafter
  have hfind := find?_handOut .start before key hlast
  simpa [tableAt, headKeys, h, ObjectIds.start] using hfind

lemma find?_tableAt_page (h : index < pageCount) (written : Nat) :
    (tableAt pageCount info written).find? (.page index) = some (firstPage info + index) := by
  obtain ⟨rest, rfl⟩ := Nat.exists_eq_add_of_lt h
  have hrange : List.range (index + rest + 1)
      = List.range index ++ index :: List.range' (index + 1) rest := by
    rw [Nat.add_assoc, List.range_add, ← List.range'_eq_map_range, List.range'_succ]
  have hlast : ObjectKey.page index ∉ (List.range' (index + 1) rest).map ObjectKey.page ++
      (List.range written).map ObjectKey.content := by simp
  have hfind := find?_handOut .start (headKeys info ++ (List.range index).map .page)
    (.page index) hlast
  have hnumber : ObjectIds.start.next +
      (headKeys info ++ (List.range index).map ObjectKey.page).length = firstPage info + index := by
    rw [List.length_append, List.length_map, List.length_range, ← length_headKeys]
    exact (Nat.add_assoc ..).symm
  rw [tableAt, hrange, ← hnumber, ← hfind]
  simp

/-! ### The run -/

/-- The two objects of a page, under their numbers. -/
def pageEntry (pageCount : Nat) (fontSize : Points) (info : Option Info) (entry : Page × Nat) :
    List (Nat × Object) :=
  [(firstPage info + entry.2,
      .page entry.1.mediaBox entry.1.contentBox 2 (firstPage info + pageCount + entry.2) 3),
    (firstPage info + pageCount + entry.2, .content (Content.ofLines entry.1.lines fontSize))]

/-- **One page** takes one number, that of its contents. -/
lemma run_pageObjects (fontSize : Points) (info : Option Info) (page : Page)
    (h : index < pageCount) :
    (pageObjects fontSize page index).run (tableAt pageCount info index)
      = (pageEntry pageCount fontSize info (page, index), tableAt pageCount info (index + 1)) := by
  simp only [pageObjects, run_bind, run_obtain (find?_tableAt_page h index),
    run_obtain (find?_tableAt_head [.catalog] rfl index),
    run_obtain (find?_tableAt_head [.catalog, .pageTree] rfl index),
    run_generate, next_tableAt, handOut_tableAt, run_pure, pageEntry, List.length_cons,
    List.length_nil]

/-- **The pages** take one number each. -/
lemma run_pagesObjects (fontSize : Points) (info : Option Info) :
    ∀ (rest : List Page) (index : Nat), index + rest.length ≤ pageCount →
      (pagesObjects fontSize (rest.zipIdx index)).run (tableAt pageCount info index)
        = ((rest.zipIdx index).map (pageEntry pageCount fontSize info),
          tableAt pageCount info (index + rest.length))
  | [], _, _ => rfl
  | page :: rest, index, h => by
      rw [List.length_cons] at h
      have ih := run_pagesObjects fontSize info rest (index + 1) (by omega)
      have hpage := run_pageObjects fontSize info page (by omega : index < pageCount)
      have htotal : index + 1 + rest.length = index + (page :: rest).length := by
        rw [List.length_cons]
        omega
      rw [pagesObjects, htotal] at ih
      simp only [pagesObjects, List.zipIdx_cons, List.mapM_cons, run_bind, hpage, ih, run_pure,
        List.map_cons]

/-- **Before the pages** the numbers up to that of the last page are taken. -/
lemma run_head (pageCount : Nat) (info : Option Info) :
    (head pageCount info).run .start
      = (⟨1, 2, 3, info.map fun about => (4, .info about),
          List.range' (firstPage info) pageCount⟩, tableAt pageCount info 0) := by
  have hkids (ids : ObjectIds) :
      ((List.range pageCount).mapM fun index => generate (.page index)).run ids
        = (List.range' ids.next pageCount, ids.handOut ((List.range pageCount).map .page)) := by
    have hrun := run_mapM_generate ((List.range pageCount).map ObjectKey.page) ids
    rwa [List.mapM_map, List.length_map, List.length_range] at hrun
  have htable : tableAt pageCount info 0
      = (ObjectIds.start.handOut (headKeys info)).handOut ((List.range pageCount).map .page) := by
    rw [tableAt, List.range_zero, List.map_nil, List.append_nil, handOut_append]
  cases info with
  | none =>
      simp only [head, run_bind, run_generate, Option.mapM_none, run_pure, hkids, htable]
      rfl
  | some about =>
      simp only [head, run_bind, run_generate, Option.mapM_some, run_pure, hkids, htable]
      rfl

/-- The document of some pages, number by number. -/
def numberedDocument (pages : List Page) (fontSize : Points) (info : Option Info) : Document where
  objects := (info.map fun about => (4, Object.info about)).toList ++
    [(2, .pageTree pages.length (List.range' (firstPage info) pages.length)), (3, .font)] ++
    pages.zipIdx.flatMap (pageEntry pages.length fontSize info) ++ [(1, .catalog 2)]
  root := 1
  info := info.map fun _ => 4

/-- **The document and the table** that assembling ends with. -/
theorem run_assemble (pages : List Page) (fontSize : Points) (info : Option Info) :
    (assemble pages fontSize info).run .start
      = (numberedDocument pages fontSize info, tableAt pages.length info pages.length) := by
  have hpages := run_pagesObjects fontSize info pages 0 (by omega : _ ≤ pages.length)
  rw [Nat.zero_add] at hpages
  simp only [assemble_eq, run_bind, run_head, hpages, run_pure]
  rw [Head.document, numberedDocument]
  simp only [List.length_range', List.flatMap_def, Option.map_map, Function.comp_def]

lemma document_eq (pages : List Page) (fontSize : Points) (info : Option Info) :
    document pages fontSize info = numberedDocument pages fontSize info := by
  rw [document, run_assemble]

/-! ### The objects and their references -/

/-- What an object of a file is. -/
inductive Kind where
  | catalog
  | info
  | pageTree
  | font
  | page
  | content
  deriving DecidableEq, Repr

/-- What the object is that a number is taken for. -/
def kindOf : ObjectKey → Kind
  | .catalog => .catalog
  | .info => .info
  | .pageTree => .pageTree
  | .font => .font
  | .page _ => .page
  | .content _ => .content

/-- What an object is. -/
def Object.kind : Object → Kind
  | .catalog _ => .catalog
  | .info _ => .info
  | .pageTree _ _ => .pageTree
  | .font => .font
  | .page .. => .page
  | .content _ => .content

/-- The objects of a document say what some pages are: from the root on, the page tree lists as
many objects as there are pages, and each of them has the boxes and the lines of its page. -/
def Document.Represents (document : Document) (pages : List Page) (fontSize : Points)
    (info : Option Info) : Prop :=
  ∃ pageTree font kids,
    (document.root, .catalog pageTree) ∈ document.objects ∧
    (pageTree, .pageTree pages.length kids) ∈ document.objects ∧
    (font, .font) ∈ document.objects ∧
    List.Forall₂ (fun kid page => ∃ contents,
      (kid, .page page.mediaBox page.contentBox pageTree contents font) ∈ document.objects ∧
      (contents, .content (Content.ofLines page.lines fontSize)) ∈ document.objects) kids pages ∧
    Option.Rel (fun id about => (id, .info about) ∈ document.objects) document.info info

/-- The kind of each object of the document, with its number. -/
def Document.kinds (document : Document) : List (Kind × Nat) :=
  document.objects.map fun entry => (entry.2.kind, entry.1)

/-- Numbers counted from two places on are the numbers of two runs. -/
lemma flatMap_pair_perm {α β : Type} (l : List α) (a b : Nat) (x y : β) :
    (l.zipIdx.flatMap fun e => [(x, a + e.2), (y, b + e.2)]).Perm
      ((List.replicate l.length x).zipIdx a ++ (List.replicate l.length y).zipIdx b) := by
  have hrun (a : Nat) (x : β) :
      (l.zipIdx.flatMap fun e => [(x, a + e.2)]) = (List.replicate l.length x).zipIdx a := by
    rw [← List.map_eq_flatMap]
    exact List.ext_getElem (by simp) fun i _ _ => by simp
  rw [← hrun a x, ← hrun b y]
  exact (List.flatMap_append_perm l.zipIdx (fun e => [(x, a + e.2)])
    fun e => [(y, b + e.2)]).symm

/-- **One object under each number**, of the kind the number was taken for. -/
theorem kinds_perm (pages : List Page) (fontSize : Points) (info : Option Info) :
    (numberedDocument pages fontSize info).kinds.Perm
      (((objectKeys pages.length info).map kindOf).zipIdx 1) := by
  have hpages := flatMap_pair_perm pages (firstPage info) (firstPage info + pages.length)
    Kind.page Kind.content
  have hkeys : ((objectKeys pages.length info).map kindOf).zipIdx 1
      = (.catalog, 1) :: ([(.pageTree, 2), (.font, 3)] ++
        (info.map fun _ => (Kind.info, 4)).toList ++
        ((List.replicate pages.length .page).zipIdx (firstPage info) ++
          (List.replicate pages.length .content).zipIdx (firstPage info + pages.length))) := by
    cases info <;>
      simp [objectKeys, headKeys, kindOf, List.zipIdx_append, firstPage, Function.comp_def,
        List.map_const']
  have hkinds : (numberedDocument pages fontSize info).kinds
      = (info.map fun _ => (Kind.info, 4)).toList ++ [(.pageTree, 2), (.font, 3)] ++
        (pages.zipIdx.flatMap fun e => [(Kind.page, firstPage info + e.2),
          (Kind.content, firstPage info + pages.length + e.2)]) ++ [(.catalog, 1)] := by
    cases info <;> simp [Document.kinds, numberedDocument, pageEntry, Object.kind, List.map_flatMap]
  rw [hkeys, hkinds]
  refine (List.perm_append_singleton ..).trans (.cons _ ?_)
  exact List.perm_append_comm.append hpages

/-- **The objects** of the document, one case for each of its parts. -/
lemma mem_objects_iff {entry : Nat × Object} :
    entry ∈ (numberedDocument pages fontSize info).objects ↔
      (∃ about, info = some about ∧ entry = (4, .info about)) ∨
      entry = (2, .pageTree pages.length (List.range' (firstPage info) pages.length)) ∨
      entry = (3, .font) ∨
      (∃ (index : Nat) (h : index < pages.length),
        entry ∈ pageEntry pages.length fontSize info (pages[index], index)) ∨
      entry = (1, .catalog 2) := by
  have hinfo : entry ∈ (info.map fun about => (4, Object.info about)).toList ↔
      ∃ about, info = some about ∧ entry = (4, .info about) := by
    simp [eq_comm]
  have hpages : entry ∈ pages.zipIdx.flatMap (pageEntry pages.length fontSize info) ↔
      ∃ (index : Nat) (h : index < pages.length),
        entry ∈ pageEntry pages.length fontSize info (pages[index], index) := by
    rw [List.mem_flatMap]
    constructor
    · rintro ⟨⟨page, index⟩, hmem, hentry⟩
      obtain ⟨h, rfl⟩ := List.getElem?_eq_some_iff.1 (List.mk_mem_zipIdx_iff_getElem?.1 hmem)
      exact ⟨index, h, hentry⟩
    · rintro ⟨index, h, hentry⟩
      exact ⟨_, List.mk_mem_zipIdx_iff_getElem?.2 (List.getElem?_eq_getElem h), hentry⟩
  simp only [numberedDocument, List.mem_append, hinfo, hpages, List.mem_cons, List.not_mem_nil,
    or_false, or_assoc]

lemma catalog_mem : (1, .catalog 2) ∈ (numberedDocument pages fontSize info).objects :=
  mem_objects_iff.2 (.inr (.inr (.inr (.inr rfl))))

lemma about_mem (about : Info) :
    (4, .info about) ∈ (numberedDocument pages fontSize (some about)).objects :=
  mem_objects_iff.2 (.inl ⟨about, rfl, rfl⟩)

lemma pageTree_mem :
    (2, .pageTree pages.length (List.range' (firstPage info) pages.length))
      ∈ (numberedDocument pages fontSize info).objects :=
  mem_objects_iff.2 (.inr (.inl rfl))

lemma font_mem : (3, .font) ∈ (numberedDocument pages fontSize info).objects :=
  mem_objects_iff.2 (.inr (.inr (.inl rfl)))

lemma page_mem (h : index < pages.length) :
    (firstPage info + index, .page pages[index].mediaBox pages[index].contentBox 2
      (firstPage info + pages.length + index) 3)
      ∈ (numberedDocument pages fontSize info).objects :=
  mem_objects_iff.2 (.inr (.inr (.inr (.inl ⟨index, h, .head _⟩))))

lemma content_mem (h : index < pages.length) :
    (firstPage info + pages.length + index, .content (Content.ofLines pages[index].lines fontSize))
      ∈ (numberedDocument pages fontSize info).objects :=
  mem_objects_iff.2 (.inr (.inr (.inr (.inl ⟨index, h, .tail _ (.head _)⟩))))

/-- **What the document says** is what its pages are. -/
theorem represents_numberedDocument (pages : List Page) (fontSize : Points) (info : Option Info) :
    (numberedDocument pages fontSize info).Represents pages fontSize info := by
  refine ⟨2, 3, List.range' (firstPage info) pages.length, catalog_mem, pageTree_mem, font_mem,
    ?_, ?_⟩
  · rw [List.forall₂_iff_get]
    refine ⟨List.length_range', fun index hkid hpage => ?_⟩
    have hkid : (List.range' (firstPage info) pages.length).get ⟨index, hkid⟩
        = firstPage info + index := by simp
    rw [hkid]
    exact ⟨firstPage info + pages.length + index, page_mem hpage, content_mem hpage⟩
  · cases info with
    | none => exact .none
    | some about => exact .some (about_mem about)

/-- A file is rendered if its setup can be used. -/
lemma render_eq_ok_iff {setup : PageSetup} {file : ByteArray} :
    render pages setup info = .ok file ↔
      setup.check = .ok () ∧ (document pages setup.fontSize info).bytes = file := by
  rw [render]
  cases setup.check <;> simp [Except.mapError, bind, Except.bind, pure, Except.pure]

/-- The number of objects of a document. -/
def objectCount (pageCount : Nat) (info : Option Info) : Nat :=
  3 + (if info.isSome then 1 else 0) + 2 * pageCount

lemma length_objectKeys (pageCount : Nat) (info : Option Info) :
    (objectKeys pageCount info).length = objectCount pageCount info := by
  cases info <;> simp [objectKeys, headKeys, objectCount] <;> omega

/-- The numbers of the document are those from one to the number of its objects. -/
lemma numbers_perm (pages : List Page) (fontSize : Points) (info : Option Info) :
    ((numberedDocument pages fontSize info).objects.map (·.1)).Perm
      (List.range' 1 (objectCount pages.length info)) := by
  have hkinds := (kinds_perm pages fontSize info).map (·.2)
  rwa [Document.kinds, List.map_map, List.zipIdx_map_snd, List.length_map, length_objectKeys]
    at hkinds

end Pdf

end Folio
