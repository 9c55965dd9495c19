import Mathlib.Tactic
import Folio.Pdf.Document
import Folio.Proofs.Layout.Containment
import Folio.Proofs.Pdf.Operators
import Folio.Proofs.Pdf.Streams
import Folio.Proofs.Pdf.WinAnsi
import Folio.Settings

/-!
From a text to a file and back: every text can be paginated with the widths of the font of the file
(`exists_paginate_courier`), and the strings that the streams of the pages show, cut at the byte of
the space, are the words of the text (`shown_words`).
-/

namespace Folio

/-! ### Words as bytes -/

/-- Splitting a list whose elements are replaced, if no other element than the separator becomes the
new separator. -/
lemma splitOn_map {α β : Type} [DecidableEq α] [DecidableEq β] {f : α → β} {a : α} {b : β}
    (h : ∀ x, f x = b ↔ x = a) (l : List α) :
    (l.map f).splitOn b = (l.splitOn a).map (List.map f) := by
  induction l with
  | nil => rfl
  | cons x l ih =>
      rw [List.map_cons, List.splitOn_cons_eq_if_modifyHead, List.splitOn_cons_eq_if_modifyHead, ih]
      by_cases hx : x = a
      · rw [if_pos (beq_iff_eq.2 ((h x).2 hx)), if_pos (beq_iff_eq.2 hx)]
        rfl
      · rw [if_neg (by simpa [h x] using hx), if_neg (by simpa using hx)]
        cases l.splitOn a with
        | nil => rfl
        | cons part parts => rfl

namespace WinAnsi

/-- The parts of an encoded text between the bytes of the space are the encoded parts of the text
between its spaces. -/
lemma splitOn_encode (text : String) :
    (encode text).splitOn 0x20 = (splitWords text).map encode := by
  rw [encode, splitOn_map encodeChar_eq_space_iff, splitWords, List.map_map]
  refine List.map_congr_left fun part _ => ?_
  rw [Function.comp_apply, encode, String.toList_ofList]

end WinAnsi

/-! ### Pages of a file -/

lemma exists_courier_width (fontSize : Points) (text : String) :
    ∃ w, (Measurer.courier fontSize).width text = .ok w := ⟨_, rfl⟩

/-- **Every text can be paginated** for the file. -/
lemma exists_paginate_courier (text : String) {setup : PageSetup} (hcheck : setup.check = .ok ()) :
    ∃ pages, paginate text setup (.courier setup.fontSize) = .ok pages := by
  have hwrap : ∀ line ∈ logicalLines (normalise text), ∃ fragments,
      wrap (Measurer.courier setup.fontSize).width setup.contentBox.width line = .ok fragments :=
    fun line _ => exists_wrap_eq_ok (exists_courier_width setup.fontSize) line
  obtain ⟨wrapped, hwrapped⟩ := exists_map_eq_ok hwrap
  exact ⟨_, paginate_eq_ok_iff.2 ⟨hcheck, wrapped, hwrapped, rfl⟩⟩

/-- The strings that a page shows. -/
def Page.strings (page : Page) : List (List UInt8) :=
  page.lines.map fun line => WinAnsi.encode line.text

/-- The streams of the pages of a pagination show the texts of their lines. -/
lemma mapM_shownTexts?_streams {text : String} {setup : PageSetup} {measure : Measurer}
    {pages : List Page} (h : paginate text setup measure = .ok pages) :
    (pages.map fun page => Content.ofLines page.lines setup.fontSize).mapM Content.shownTexts?
      = some (pages.map Page.strings) := by
  obtain ⟨hs, hpages⟩ := contained_of_paginate h
  have hshown : ∀ page ∈ pages,
      Content.shownTexts? (Content.ofLines page.lines setup.fontSize) = some page.strings :=
    fun page hpage => Content.shownTexts?_ofLines hs.fontSize.1 fun line hline =>
      (hpages page hpage).isFinite hs hline
  clear h hpages
  induction pages with
  | nil => rfl
  | cons page pages ih =>
      obtain ⟨hpage, hpages⟩ := List.forall_mem_cons.1 hshown
      rw [List.map_cons, List.mapM_cons, hpage, ih hpages]
      rfl

/-- **The words of a text** are what its pages show, in their order. -/
theorem shown_words {text : String} {setup : PageSetup} {measure : Measurer} {pages : List Page}
    (h : paginate text setup measure = .ok pages) :
    (pages.flatMap Page.strings).flatMap (·.splitOn 0x20)
      = ((logicalLines (normalise text)).flatMap words).map WinAnsi.encode := by
  obtain ⟨-, wrapped, hwrapped, rfl⟩ := paginate_eq_ok_iff.1 h
  have hstrings : (stackAll setup wrapped).flatMap Page.strings
      = wrapped.flatten.map WinAnsi.encode := by
    rw [← map_text_readingOrder_stackAll setup wrapped, readingOrder, List.map_map,
      List.map_flatMap]
    rfl
  rw [hstrings, List.flatMap_map, ← flatMap_splitWords_flatten hwrapped, List.map_flatMap]
  exact List.flatMap_congr fun fragment _ => WinAnsi.splitOn_encode fragment

lemma check_of_setup {settings : Settings} {setup : PageSetup}
    (h : settings.setup = .ok setup) : setup.check = .ok () := by
  rw [Settings.setup] at h
  cases hpaper : settings.page.paper with
  | error e => simp [hpaper, bind, Except.bind] at h
  | ok paper =>
      simp only [hpaper, bind, Except.bind] at h
      cases hcheck : (PageSetup.ofFontSize paper settings.page.margin settings.font.size).check with
      | error fault => simp [hcheck, Except.mapError] at h
      | ok _ =>
          simp only [hcheck, Except.mapError] at h
          rw [← Except.ok.inj h, hcheck]

/-- **The words of a text are in its file.** Whatever settings describe the pages, every text can
be paginated and rendered, and the strings that the streams of the file show, page after page and
line after line, fall at their spaces into the words of the text, in order and each in the encoding
of the font. -/
theorem print_keeps_words {settings : Settings} {setup : PageSetup}
    (h : settings.setup = .ok setup) (text : String) (info : Option Pdf.Info) :
    ∃ pages streams strings,
      paginate text setup (.courier setup.fontSize) = .ok pages ∧
      Pdf.render pages setup info = .ok (Pdf.document pages setup.fontSize info).bytes ∧
      (Pdf.document pages setup.fontSize info).streams? = some streams ∧
      streams.mapM Content.shownTexts? = some strings ∧
      strings.flatten.flatMap (·.splitOn 0x20)
        = ((logicalLines (normalise text)).flatMap words).map WinAnsi.encode := by
  have hcheck := check_of_setup h
  obtain ⟨pages, hpages⟩ := exists_paginate_courier text hcheck
  refine ⟨pages, _, _, hpages, Pdf.render_eq_ok_iff.2 ⟨hcheck, rfl⟩,
    Pdf.streams?_document pages setup.fontSize info, mapM_shownTexts?_streams hpages, ?_⟩
  rw [← List.flatMap_def]
  exact shown_words hpages

/-- The usual settings, for a text with a tab, an empty line and characters outside of ASCII. -/
theorem print_keeps_words_of_default_settings :
    let setup := PageSetup.ofFontSize PaperSize.a4 50 12
    Settings.setup {} = .ok setup ∧
    ∃ pages streams strings,
      paginate "Señor\t¿qué?\r\n\r\n漢 end" setup (.courier setup.fontSize) = .ok pages ∧
      Pdf.render pages setup none = .ok (Pdf.document pages setup.fontSize none).bytes ∧
      (Pdf.document pages setup.fontSize none).streams? = some streams ∧
      streams.mapM Content.shownTexts? = some strings ∧
      strings.flatten.flatMap (·.splitOn 0x20)
        = ["Señor", "¿qué?", "漢", "end"].map WinAnsi.encode := by
  intro setup
  have hsetup : Settings.setup {} = .ok setup := by decide +kernel
  have hwords : (logicalLines (normalise "Señor\t¿qué?\r\n\r\n漢 end")).flatMap words
      = ["Señor", "¿qué?", "漢", "end"] := by decide +kernel
  refine ⟨hsetup, ?_⟩
  rw [← hwords]
  exact print_keeps_words hsetup _ none

end Folio
