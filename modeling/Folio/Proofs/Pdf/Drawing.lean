import Mathlib.Tactic
import Folio.Proofs.Binary.ReadBack
import Folio.Proofs.Pdf.Operators

/-!
What a content stream draws, read off the stream.

* `Content.drawn?` reads lines with their places and bytes off the instructions of a block, and
  `Content.drawing?` a drawing off a stream. `Content.drawing?_ofLines`: whatever the texts are, the
  stream of some lines is read as what they draw.
* `Content.existsUnique_ofLines_eq`: a stream is written from one list of instructions only.
-/

namespace Folio

namespace Content

/-! ### Drawings -/

/-- A line as it is drawn: where its baseline starts, and its bytes. -/
structure Drawn where
  x : Points
  y : Points
  string : List UInt8
  deriving DecidableEq, Repr

/-- Lines that are drawn in one font size. -/
structure Drawing where
  fontSize : Points
  lines : List Drawn
  deriving DecidableEq, Repr

/-- How a line is drawn. -/
def Drawn.ofLine (line : Line) : Drawn := ⟨line.x, line.y, WinAnsi.encode line.text⟩

/-- What some lines draw. Without lines there is no drawing. -/
def Drawing.ofLines? (lines : List Line) (fontSize : Points) : Option Drawing :=
  if lines.isEmpty then none else some ⟨fontSize, lines.map Drawn.ofLine⟩

/-- The lines that some instructions draw, up to the end of their block. Each has an instruction
for its place and one for its string. -/
def drawn? : List Instruction → Option (List Drawn)
  | ⟨[], "ET"⟩ :: rest => if rest = [⟨[], "Q"⟩] then some [] else none
  | ⟨[.number "1", .number "0", .number "0", .number "1", .number x, .number y], "Tm"⟩ ::
      ⟨[.bytes string], "Tj"⟩ :: rest =>
    (⟨⟨.ofText x⟩, ⟨.ofText y⟩, string⟩ :: ·) <$> drawn? rest
  | _ => none

/-- The drawing of some instructions, if they are one block of lines. -/
def drawingOf? : List Instruction → Option (Option Drawing)
  | [] => some none
  | ⟨[], "q"⟩ :: ⟨[.number "0"], "g"⟩ :: ⟨[], "BT"⟩ :: ⟨[.name "F1", .number size], "Tf"⟩ :: rest =>
    (fun lines => some ⟨⟨.ofText size⟩, lines⟩) <$> drawn? rest
  | _ => none

/-- The drawing of a stream. -/
def drawing? (stream : String) : Option (Option Drawing) := read? stream >>= drawingOf?

/-! ### Reading what was drawn -/

section

variable {lines : List Line} {fontSize : Points}

/-- **A line is read off its instructions**, whatever its text is. -/
lemma drawn?_lineInstructions {line : Line} (hx : line.x.value.isFinite = true)
    (hy : line.y.value.isFinite = true) (rest : List Instruction) :
    drawn? (lineInstructions line ++ rest) = (Drawn.ofLine line :: ·) <$> drawn? rest := by
  have hleft : (⟨.ofText line.x.value.text⟩ : Points) = line.x := by rw [Binary.ofText_text hx]
  have hbase : (⟨.ofText line.y.value.text⟩ : Points) = line.y := by rw [Binary.ofText_text hy]
  rw [Drawn.ofLine, ← hleft, ← hbase]
  rfl

lemma drawn?_flatMap_lineInstructions
    (hlines : ∀ line ∈ lines, line.x.value.isFinite = true ∧ line.y.value.isFinite = true) :
    drawn? (lines.flatMap lineInstructions ++ ending) = some (lines.map Drawn.ofLine) := by
  induction lines with
  | nil => rfl
  | cons line lines ih =>
      obtain ⟨⟨hx, hy⟩, hlines⟩ := List.forall_mem_cons.1 hlines
      rw [List.flatMap_cons, List.append_assoc, drawn?_lineInstructions hx hy, ih hlines]
      rfl

/-- The font size is read off the instructions before the first line. -/
lemma drawingOf?_opening (hfont : fontSize.value.isFinite = true) (rest : List Instruction) :
    drawingOf? (opening fontSize ++ rest) = (some ⟨fontSize, ·⟩) <$> drawn? rest := by
  have hsize : (⟨.ofText fontSize.value.text⟩ : Points) = fontSize := by
    rw [Binary.ofText_text hfont]
  conv_rhs => rw [← hsize]
  rfl

/-- **The stream of some lines is read as what they draw.** -/
theorem drawing?_ofLines (hfont : fontSize.value.isFinite = true)
    (hlines : ∀ line ∈ lines, line.x.value.isFinite = true ∧ line.y.value.isFinite = true) :
    drawing? (ofLines lines fontSize) = some (Drawing.ofLines? lines fontSize) := by
  rw [drawing?, read?_ofLines hfont hlines, instructionsOf, Drawing.ofLines?]
  cases lines.isEmpty with
  | true => rfl
  | false =>
      change drawingOf? (opening fontSize ++ lines.flatMap lineInstructions ++ ending) = _
      rw [List.append_assoc, drawingOf?_opening hfont, drawn?_flatMap_lineInstructions hlines]
      rfl

/-- Drawings that are the same draw the same lines. -/
lemma Drawing.map_ofLine_eq_of_ofLines?_eq {others : List Line}
    (h : Drawing.ofLines? others fontSize = Drawing.ofLines? lines fontSize) :
    others.map Drawn.ofLine = lines.map Drawn.ofLine := by
  rw [Drawing.ofLines?, Drawing.ofLines?] at h
  split_ifs at h with hothers hlines hlines
  · rw [List.isEmpty_iff.1 hothers, List.isEmpty_iff.1 hlines]
  · exact congrArg Drawing.lines (Option.some.inj h)

/-- **There is one way to write the stream of some lines**: only their instructions are written
so. -/
theorem existsUnique_ofLines_eq (hfont : fontSize.value.isFinite = true)
    (hlines : ∀ line ∈ lines, line.x.value.isFinite = true ∧ line.y.value.isFinite = true) :
    ∃! instructions : List Instruction, (∀ i ∈ instructions, i.Plain) ∧
      ofLines lines fontSize = String.ofList (instructions.flatMap Instruction.chars) := by
  refine ⟨instructionsOf lines fontSize, ⟨plain_instructionsOf hfont hlines, ofLines_eq _ _⟩, ?_⟩
  rintro instructions ⟨hplain, hwritten⟩
  have hread := read?_printed hplain
  rw [← hwritten, read?_ofLines hfont hlines] at hread
  exact (Option.some.inj hread).symm

end

/-! ### Streams -/

/-- **A content stream can be read back**, whatever the texts of its lines are. Without lines it is
empty. Otherwise it is one block that chooses a colour and a font, and then for each line sets one
place and shows one string. It can be written from no other instructions. The font size, the
coordinates and the bytes of the lines are read off it, so that two lists of lines that are written
alike agree in their coordinates and in their encoded texts. -/
theorem ofLines_reads_back {lines : List Line} {fontSize : Points}
    (hfont : fontSize.value.isFinite = true)
    (hlines : ∀ line ∈ lines, line.x.value.isFinite = true ∧ line.y.value.isFinite = true) :
    (lines = [] → ofLines lines fontSize = "") ∧
    (lines ≠ [] → read? (ofLines lines fontSize) = some (
      [⟨[], "q"⟩, ⟨[.number "0"], "g"⟩, ⟨[], "BT"⟩,
        ⟨[.name "F1", .number fontSize.value.text], "Tf"⟩] ++
      lines.flatMap (fun line =>
        [⟨[.number "1", .number "0", .number "0", .number "1", .number line.x.value.text,
            .number line.y.value.text], "Tm"⟩,
          ⟨[.bytes (WinAnsi.encode line.text)], "Tj"⟩]) ++
      [⟨[], "ET"⟩, ⟨[], "Q"⟩])) ∧
    (∃! instructions : List Instruction, (∀ i ∈ instructions, i.Plain) ∧
      ofLines lines fontSize = String.ofList (instructions.flatMap Instruction.chars)) ∧
    drawing? (ofLines lines fontSize) = some (Drawing.ofLines? lines fontSize) ∧
    ∀ others : List Line,
      (∀ line ∈ others, line.x.value.isFinite = true ∧ line.y.value.isFinite = true) →
      (ofLines others fontSize).toUTF8 = (ofLines lines fontSize).toUTF8 →
      others.map Drawn.ofLine = lines.map Drawn.ofLine := by
  refine ⟨?_, fun hne => ?_, existsUnique_ofLines_eq hfont hlines, drawing?_ofLines hfont hlines,
    fun others hothers hbytes => ?_⟩
  · rintro rfl
    rfl
  · have hnonempty : ¬ lines.isEmpty = true := fun h => hne (List.isEmpty_iff.1 h)
    rw [read?_ofLines hfont hlines, instructionsOf, if_neg hnonempty]
    rfl
  · have hstream : ofLines others fontSize = ofLines lines fontSize :=
      String.toByteArray_inj.1 hbytes
    have hdrawing := drawing?_ofLines hfont hothers
    rw [hstream, drawing?_ofLines hfont hlines] at hdrawing
    exact Drawing.map_ofLine_eq_of_ofLines?_eq (Option.some.inj hdrawing).symm

/-- A text that looks like the end of its string and of the block, and one that cannot be encoded,
at coordinates with a point and at negative zero. -/
theorem ofLines_reads_back_of_hostile_texts :
    let lines : List Line := [⟨"> Tj ET Q", 50, ⟨700.5⟩⟩, ⟨"漢\n", ⟨.zero true⟩, ⟨0.1⟩⟩]
    let fontSize : Points := 12
    fontSize.value.isFinite = true ∧
    (∀ line ∈ lines, line.x.value.isFinite = true ∧ line.y.value.isFinite = true) ∧
    read? (ofLines lines fontSize) = some
      [⟨[], "q"⟩, ⟨[.number "0"], "g"⟩, ⟨[], "BT"⟩, ⟨[.name "F1", .number "12"], "Tf"⟩,
        ⟨[.number "1", .number "0", .number "0", .number "1", .number "50", .number "700.5"], "Tm"⟩,
        ⟨[.bytes [0x3e, 0x20, 0x54, 0x6a, 0x20, 0x45, 0x54, 0x20, 0x51]], "Tj"⟩,
        ⟨[.number "1", .number "0", .number "0", .number "1", .number "-0", .number "0.1"], "Tm"⟩,
        ⟨[.bytes [0x3f, 0x3f]], "Tj"⟩, ⟨[], "ET"⟩, ⟨[], "Q"⟩] ∧
    drawing? (ofLines lines fontSize) = some (some ⟨12, lines.map Drawn.ofLine⟩) ∧
    ∀ others : List Line,
      (∀ line ∈ others, line.x.value.isFinite = true ∧ line.y.value.isFinite = true) →
      (ofLines others fontSize).toUTF8 = (ofLines lines fontSize).toUTF8 →
      others.map Drawn.ofLine = lines.map Drawn.ofLine := by
  intro lines fontSize
  have hfont : fontSize.value.isFinite = true := by decide +kernel
  have hlines : ∀ line ∈ lines, line.x.value.isFinite = true ∧ line.y.value.isFinite = true := by
    decide +kernel
  obtain ⟨-, hread, -, hdrawing, hothers⟩ := ofLines_reads_back hfont hlines
  refine ⟨hfont, hlines, ?_, hdrawing, hothers⟩
  rw [hread (List.cons_ne_nil _ _)]
  decide +kernel

end Content

end Folio
