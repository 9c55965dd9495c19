import Mathlib.Tactic
import Folio.Pdf.Content
import Folio.Proofs.Binary.Numeral

/-!
Reading content streams.

* `Content.lex` reads the tokens of a stream and `Content.group` groups them into instructions, the
  operands before each operator; `Content.read?` does both.
* `Content.read?_ofLines`: the instructions that draw some lines are read off their stream, whatever
  the texts of the lines are.
-/

namespace Folio

namespace Content

/-! ### Tokens -/

/-- A token of a content stream. -/
inductive Token where
  | number (text : String)
  | name (text : String)
  | operator (text : String)
  | bytes (string : List UInt8)
  deriving DecidableEq, Repr

/-- Characters that separate tokens. -/
def isBlank (c : Char) : Bool := [0, 9, 10, 12, 13, 32].contains c.toNat

/-- Characters that end a token and mean something themselves. -/
def isDelimiter (c : Char) : Bool :=
  ['(', ')', '<', '>', '[', ']', '{', '}', '/', '%'].contains c

/-- Characters of words: numbers, names and operators. -/
def isRegular (c : Char) : Bool := !isBlank c && !isDelimiter c

/-- The value of a hexadecimal digit. -/
def hexDigit? (c : Char) : Option Nat :=
  if c.isDigit then some (c.toNat - 48)
  else if 'a' ≤ c ∧ c ≤ 'f' then some (c.toNat - 87)
  else if 'A' ≤ c ∧ c ≤ 'F' then some (c.toNat - 55)
  else none

/-- The bytes of pairs of hexadecimal digits. A last digit alone has a zero behind it. -/
def bytesOf : List Nat → List UInt8
  | high :: low :: rest => (16 * high + low).toUInt8 :: bytesOf rest
  | [high] => [(16 * high).toUInt8]
  | [] => []

/-- The token of a word. There is none if the word has no characters. -/
def ofWord : List Char → List Token
  | [] => []
  | c :: chars =>
    if c = '/' then [.name (String.ofList chars)]
    else if (c :: chars).all isNumeralChar then [.number (String.ofList (c :: chars))]
    else [.operator (String.ofList (c :: chars))]

/-- What is read at the moment. -/
inductive Mode where
  /-- A word with its characters so far, or none yet. -/
  | word (chars : List Char)
  /-- A hexadecimal string with its digits so far. -/
  | hex (digits : List Nat)

/-- The tokens of a stream. There are none if a string is not closed, or for the delimiters of
things that these streams do not have. -/
def lex : Mode → List Char → Option (List Token)
  | .word word, [] => some (ofWord word)
  | .word word, c :: rest =>
    if isBlank c then (ofWord word ++ ·) <$> lex (.word []) rest
    else if c = '<' then (ofWord word ++ ·) <$> lex (.hex []) rest
    else if c = '/' then (ofWord word ++ ·) <$> lex (.word [c]) rest
    else if isDelimiter c then none
    else lex (.word (word ++ [c])) rest
  | .hex _, [] => none
  | .hex digits, c :: rest =>
    if c = '>' then (.bytes (bytesOf digits) :: ·) <$> lex (.word []) rest
    else if isBlank c then lex (.hex digits) rest
    else match hexDigit? c with
      | some digit => lex (.hex (digits ++ [digit])) rest
      | none => none

/-- How a token is written. -/
def Token.chars : Token → List Char
  | .number text | .operator text => text.toList
  | .name text => '/' :: text.toList
  | .bytes string => '<' :: string.flatMap hexByte ++ ['>']

/-- Tokens that are read as what they are. -/
def Token.Plain : Token → Prop
  | .number text => IsNumeral text.toList
  | .name text => ∀ c ∈ text.toList, isRegular c = true
  | .operator text =>
    text ≠ "" ∧ (∀ c ∈ text.toList, isRegular c = true) ∧ text.toList.all isNumeralChar = false
  | .bytes _ => True

variable {rest : List Char} {blank : Char}

lemma isRegular_of_isNumeralChar {c : Char} (h : isNumeralChar c = true) : isRegular c = true := by
  have hdigits : ∀ n : Fin 10, isRegular (Char.ofNat (48 + n)) = true := by decide
  rw [isNumeralChar, Bool.or_eq_true, Bool.or_eq_true, beq_iff_eq, beq_iff_eq] at h
  obtain (hdigit | rfl) | rfl := h
  · have hbounds : 48 ≤ c.toNat ∧ c.toNat ≤ 57 := Char.isDigit_iff_toNat.1 hdigit
    have hc := hdigits ⟨c.toNat - 48, by omega⟩
    rwa [Nat.add_sub_cancel' hbounds.1, Char.ofNat_toNat] at hc
  · rfl
  · rfl

/-! ### Reading what was written -/

/-- A character of a word is not blank and ends nothing. -/
lemma isRegular_iff {c : Char} :
    isRegular c = true ↔ isBlank c = false ∧ isDelimiter c = false := by
  simp [isRegular]

/-- A word goes on to the next blank. -/
lemma lex_word {word : List Char} (hword : ∀ c ∈ word, isRegular c = true)
    (hblank : isBlank blank = true) (before : List Char) :
    lex (.word before) (word ++ blank :: rest)
      = (ofWord (before ++ word) ++ ·) <$> lex (.word []) rest := by
  induction word generalizing before with
  | nil => rw [List.nil_append, lex, if_pos hblank, List.append_nil]
  | cons c word ih =>
      obtain ⟨hc, hword⟩ := List.forall_mem_cons.1 hword
      obtain ⟨hnotBlank, hplain⟩ := isRegular_iff.1 hc
      have hopen : c ≠ '<' := by
        rintro rfl
        cases hplain
      have hslash : c ≠ '/' := by
        rintro rfl
        cases hplain
      rw [List.cons_append, lex, hnotBlank, hplain, if_neg Bool.false_ne_true, if_neg hopen,
        if_neg hslash, if_neg Bool.false_ne_true, ih hword, List.append_assoc]
      rfl

/-- The two digits of a byte. -/
def nibbles (byte : UInt8) : List Nat := [byte.toNat / 16, byte.toNat % 16]

lemma bytesOf_nibbles (string : List UInt8) : bytesOf (string.flatMap nibbles) = string := by
  induction string with
  | nil => rfl
  | cons byte string ih =>
      have hbyte : (16 * (byte.toNat / 16) + byte.toNat % 16).toUInt8 = byte := by
        rw [Nat.div_add_mod]
        exact UInt8.ofNat_toNat
      rw [List.flatMap_cons, nibbles, List.cons_append, List.cons_append, List.nil_append, bytesOf,
        ih, hbyte]

lemma lex_hexDigit {digit : Nat} (h : digit < 16) (digits : List Nat) :
    lex (.hex digits) (Nat.digitChar digit :: rest) = lex (.hex (digits ++ [digit])) rest := by
  have hread : ∀ d < 16, Nat.digitChar d ≠ '>' ∧ isBlank (Nat.digitChar d) = false ∧
      hexDigit? (Nat.digitChar d) = some d := by decide
  obtain ⟨hclose, hblank, hdigit⟩ := hread digit h
  rw [lex, if_neg hclose, hblank, if_neg Bool.false_ne_true, hdigit]

lemma lex_hex (string before : List UInt8) (rest : List Char) :
    lex (.hex (before.flatMap nibbles)) (string.flatMap hexByte ++ '>' :: rest)
      = (.bytes (before ++ string) :: ·) <$> lex (.word []) rest := by
  induction string generalizing before with
  | nil =>
      rw [List.flatMap_nil, List.nil_append, lex, if_pos rfl, bytesOf_nibbles, List.append_nil]
  | cons byte string ih =>
      have hbyte : byte.toNat < 256 := byte.toNat_lt
      have hdigits : lex (.hex (before.flatMap nibbles))
          (hexByte byte ++ (string.flatMap hexByte ++ '>' :: rest))
          = lex (.hex ((before ++ [byte]).flatMap nibbles))
            (string.flatMap hexByte ++ '>' :: rest) := by
        rw [hexByte, List.cons_append, List.cons_append, List.nil_append,
          lex_hexDigit (by omega), lex_hexDigit (by omega), List.flatMap_append,
          List.flatMap_singleton, nibbles, List.append_assoc]
        rfl
      rw [List.flatMap_cons, List.append_assoc, hdigits, ih, List.append_assoc]
      rfl

lemma ofWord_of_regular {word : List Char} (hne : word ≠ [])
    (hregular : ∀ c ∈ word, isRegular c = true) :
    ofWord word = if word.all isNumeralChar then [.number (String.ofList word)]
      else [.operator (String.ofList word)] := by
  cases word with
  | nil => exact absurd rfl hne
  | cons c word =>
      have hslash : c ≠ '/' := by
        rintro rfl
        cases hregular '/' List.mem_cons_self
      rw [ofWord, if_neg hslash]

/-- **A token is read as what it is**, if it is plain and has a blank behind it. -/
lemma lex_token {token : Token} (h : token.Plain) (hblank : isBlank blank = true) :
    lex (.word []) (token.chars ++ blank :: rest) = (token :: ·) <$> lex (.word []) rest := by
  cases token with
  | number text =>
      have hregular : ∀ c ∈ text.toList, isRegular c = true := fun c hc =>
        isRegular_of_isNumeralChar (h.all c hc)
      have hnumber : text.toList.all isNumeralChar = true := List.all_eq_true.2 h.all
      rw [Token.chars, lex_word hregular hblank, List.nil_append,
        ofWord_of_regular h.ne_nil hregular, if_pos hnumber, String.ofList_toList]
      rfl
  | name text =>
      have hopen : lex (.word []) ('/' :: (text.toList ++ blank :: rest))
          = ([] ++ ·) <$> lex (.word ['/']) (text.toList ++ blank :: rest) := rfl
      have hname : ofWord ('/' :: text.toList) = [.name text] := by
        rw [ofWord, if_pos rfl, String.ofList_toList]
      rw [Token.chars, List.cons_append, hopen, lex_word h hblank, List.cons_append,
        List.nil_append, hname, Functor.map_map]
      rfl
  | operator text =>
      obtain ⟨hne, hregular, hoperator⟩ := h
      have hchars : text.toList ≠ [] := fun hnil => hne (String.toList_eq_nil_iff.1 hnil)
      rw [Token.chars, lex_word hregular hblank, List.nil_append,
        ofWord_of_regular hchars hregular, hoperator, if_neg Bool.false_ne_true,
        String.ofList_toList]
      rfl
  | bytes string =>
      have hopen : lex (.word []) ('<' :: (string.flatMap hexByte ++ '>' :: blank :: rest))
          = ([] ++ ·) <$> lex (.hex []) (string.flatMap hexByte ++ '>' :: blank :: rest) := rfl
      have hhex := lex_hex string [] (blank :: rest)
      have hclose : lex (.word []) (blank :: rest) = ([] ++ ·) <$> lex (.word []) rest := by
        rw [lex, if_pos hblank, ofWord]
      rw [List.flatMap_nil] at hhex
      rw [Token.chars, List.cons_append, List.cons_append, List.append_assoc,
        List.singleton_append, hopen, hhex, hclose, Functor.map_map, Functor.map_map]
      rfl

/-! ### Instructions -/

/-- An operator behind its operands. -/
structure Instruction where
  operands : List Token
  operator : String
  deriving DecidableEq, Repr

/-- The instructions of some tokens, the first of which has `operands` already. There are none if
the last operands have no operator. -/
def group (operands : List Token) : List Token → Option (List Instruction)
  | [] => if operands.isEmpty then some [] else none
  | .operator text :: rest => (⟨operands, text⟩ :: ·) <$> group [] rest
  | token :: rest => group (operands ++ [token]) rest

/-- The instructions of a stream. -/
def read? (stream : String) : Option (List Instruction) := do
  group [] (← lex (.word []) stream.toList)

/-- How an instruction is written: a space behind every operand, and a line feed at the end. -/
def Instruction.chars (instruction : Instruction) : List Char :=
  (instruction.operands.flatMap fun token => token.chars ++ [' ']) ++
    instruction.operator.toList ++ ['\n']

/-- Is the token no operator? -/
def Token.isOperand : Token → Bool
  | .operator _ => false
  | _ => true

/-- Instructions that are read as what they are. -/
structure Instruction.Plain (instruction : Instruction) : Prop where
  operands : ∀ token ∈ instruction.operands, token.Plain ∧ token.isOperand = true
  operator : (Token.operator instruction.operator).Plain

/-- The tokens of an instruction. -/
def Instruction.tokens (instruction : Instruction) : List Token :=
  instruction.operands ++ [.operator instruction.operator]

/-- Reading the operands of an instruction and then its operator. -/
lemma lex_instruction {instruction : Instruction} (h : instruction.Plain) :
    lex (.word []) (instruction.chars ++ rest)
      = (instruction.tokens ++ ·) <$> lex (.word []) rest := by
  obtain ⟨operands, operator⟩ := instruction
  induction operands with
  | nil =>
      have hchars : Instruction.chars ⟨[], operator⟩ ++ rest
          = (Token.operator operator).chars ++ '\n' :: rest := by
        simp [Instruction.chars, Token.chars]
      rw [hchars, lex_token h.operator rfl]
      rfl
  | cons token operands ih =>
      obtain ⟨htoken, hoperands⟩ := List.forall_mem_cons.1 h.operands
      have ih := ih ⟨hoperands, h.operator⟩
      have hchars : Instruction.chars ⟨token :: operands, operator⟩ ++ rest
          = token.chars ++ ' ' :: (Instruction.chars ⟨operands, operator⟩ ++ rest) := by
        simp [Instruction.chars]
      rw [hchars, lex_token htoken.1 rfl, ih, Functor.map_map]
      rfl

lemma group_instruction {operands : List Token} (operator : String) (before rest : List Token)
    (h : ∀ token ∈ operands, token.isOperand = true) :
    group before (operands ++ .operator operator :: rest)
      = (⟨before ++ operands, operator⟩ :: ·) <$> group [] rest := by
  induction operands generalizing before with
  | nil => rw [List.nil_append, List.append_nil, group]
  | cons token operands ih =>
      obtain ⟨htoken, hoperands⟩ := List.forall_mem_cons.1 h
      have hstep (tokens : List Token) :
          group before (token :: tokens) = group (before ++ [token]) tokens := by
        cases token with
        | operator _ => cases htoken
        | _ => rfl
      rw [List.cons_append, hstep, ih _ hoperands, List.append_assoc]
      rfl

/-- **Instructions are read as what they are**, if they are plain. -/
theorem read?_printed {instructions : List Instruction} (h : ∀ i ∈ instructions, i.Plain) :
    read? (String.ofList (instructions.flatMap Instruction.chars)) = some instructions := by
  have hlex : lex (.word []) (instructions.flatMap Instruction.chars)
      = some (instructions.flatMap Instruction.tokens) := by
    induction instructions with
    | nil => rfl
    | cons instruction instructions ih =>
        obtain ⟨hinstruction, hrest⟩ := List.forall_mem_cons.1 h
        rw [List.flatMap_cons, lex_instruction hinstruction, ih hrest]
        rfl
  have hgroup : group [] (instructions.flatMap Instruction.tokens) = some instructions := by
    clear hlex
    induction instructions with
    | nil => rfl
    | cons instruction instructions ih =>
        obtain ⟨hinstruction, hrest⟩ := List.forall_mem_cons.1 h
        rw [List.flatMap_cons, Instruction.tokens, List.append_assoc, List.singleton_append,
          group_instruction _ _ _ fun token ht => (hinstruction.operands token ht).2, ih hrest]
        rfl
  rw [read?, String.toList_ofList, hlex]
  exact hgroup

/-! ### The streams of pages -/

/-- The instructions that draw a line. -/
def lineInstructions (line : Line) : List Instruction :=
  [⟨[.number "1", .number "0", .number "0", .number "1", .number line.x.value.text,
      .number line.y.value.text], "Tm"⟩,
    ⟨[.bytes (WinAnsi.encode line.text)], "Tj"⟩]

/-- The instructions before the first line, which choose the colour and the font. -/
def opening (fontSize : Points) : List Instruction :=
  [⟨[], "q"⟩, ⟨[.number "0"], "g"⟩, ⟨[], "BT"⟩,
    ⟨[.name fontName, .number fontSize.value.text], "Tf"⟩]

/-- The instructions after the last line, which put everything back. -/
def ending : List Instruction := [⟨[], "ET"⟩, ⟨[], "Q"⟩]

/-- The instructions that draw some lines, line after line. -/
def instructionsOf (lines : List Line) (fontSize : Points) : List Instruction :=
  if lines.isEmpty then [] else opening fontSize ++ lines.flatMap lineInstructions ++ ending

/-- Text is black, which is the level zero of grey. -/
lemma fillOperator_textColour : textColour.fillOperator = "0 g\n" := by
  have hzero : (0 : Binary32).text = "0" := by decide +kernel
  rw [textColour, Colour.black, Colour.fillOperator, hzero]
  rfl

lemma toString_text (text : String) : toString text = text := rfl

lemma toList_showLine (line : Line) :
    (showLine line).toList = (lineInstructions line).flatMap Instruction.chars := by
  simp [showLine, lineInstructions, Instruction.chars, Token.chars, hexText, toString_text]

lemma ofLines_eq (lines : List Line) (fontSize : Points) :
    ofLines lines fontSize
      = String.ofList ((instructionsOf lines fontSize).flatMap Instruction.chars) := by
  rw [← String.toList_inj, String.toList_ofList, ofLines, instructionsOf]
  cases lines.isEmpty with
  | true => rfl
  | false =>
      simp [opening, ending, fillOperator_textColour, Instruction.chars, Token.chars, fontName,
        toString_text, List.flatMap_map, List.flatMap_assoc, toList_showLine]

lemma plain_operator : ∀ text ∈ ["q", "g", "BT", "Tf", "Tm", "Tj", "ET", "Q"],
    (Token.operator text).Plain := by
  have hplain : ∀ text ∈ ["q", "g", "BT", "Tf", "Tm", "Tj", "ET", "Q"],
      text ≠ "" ∧ text.toList.all isRegular = true ∧
        text.toList.all isNumeralChar = false := by decide
  intro text h
  obtain ⟨hne, hregular, hoperator⟩ := hplain text h
  exact ⟨hne, List.all_eq_true.1 hregular, hoperator⟩

lemma plain_digit : ∀ text ∈ ["0", "1"], (Token.number text).Plain := by
  have hplain : ∀ text ∈ ["0", "1"],
      text.toList ≠ [] ∧ text.toList.all isNumeralChar = true := by decide
  intro text h
  exact ⟨(hplain text h).1, List.all_eq_true.1 (hplain text h).2⟩

/-- The instructions that draw a line are plain, if its coordinates are finite. -/
lemma plain_lineInstructions {line : Line} (hx : line.x.value.isFinite = true)
    (hy : line.y.value.isFinite = true) : ∀ i ∈ lineInstructions line, i.Plain := by
  have hone : (Token.number "1").Plain := plain_digit "1" (by simp)
  have hzero : (Token.number "0").Plain := plain_digit "0" (by simp)
  have hxText : (Token.number line.x.value.text).Plain := Binary.isNumeral_text hx
  have hyText : (Token.number line.y.value.text).Plain := Binary.isNumeral_text hy
  refine List.forall_mem_cons.2 ⟨⟨?_, plain_operator _ (by simp)⟩,
    List.forall_mem_singleton.2 ⟨?_, plain_operator _ (by simp)⟩⟩
  · simp [Token.isOperand, hone, hzero, hxText, hyText]
  · simp [Token.isOperand, Token.Plain]

lemma plain_opening {fontSize : Points} (h : fontSize.value.isFinite = true) :
    ∀ i ∈ opening fontSize, i.Plain := by
  have hzero : (Token.number "0").Plain := plain_digit "0" (by simp)
  have hsize : (Token.number fontSize.value.text).Plain := Binary.isNumeral_text h
  have hname : (Token.name fontName).Plain := by
    have hregular : fontName.toList.all isRegular = true := by decide
    exact List.all_eq_true.1 hregular
  intro i hi
  fin_cases hi
  · exact ⟨by simp, plain_operator _ (by simp)⟩
  · exact ⟨by simp [Token.isOperand, hzero], plain_operator _ (by simp)⟩
  · exact ⟨by simp, plain_operator _ (by simp)⟩
  · exact ⟨by simp [Token.isOperand, hname, hsize], plain_operator _ (by simp)⟩

lemma plain_ending : ∀ i ∈ ending, i.Plain := by
  intro i hi
  fin_cases hi <;> exact ⟨by simp, plain_operator _ (by simp)⟩

/-- The instructions that draw some lines are plain, if the font size and the coordinates are
finite. -/
lemma plain_instructionsOf {lines : List Line} {fontSize : Points}
    (hfont : fontSize.value.isFinite = true)
    (hlines : ∀ line ∈ lines, line.x.value.isFinite = true ∧ line.y.value.isFinite = true) :
    ∀ i ∈ instructionsOf lines fontSize, i.Plain := by
  intro instruction h
  rw [instructionsOf] at h
  split at h
  · cases h
  · rw [List.mem_append, List.mem_append, List.mem_flatMap] at h
    obtain (hopening | ⟨line, hline, hdraws⟩) | hending := h
    · exact plain_opening hfont instruction hopening
    · exact plain_lineInstructions (hlines line hline).1 (hlines line hline).2 instruction hdraws
    · exact plain_ending instruction hending

/-- **The stream of some lines is read as the instructions that draw them**, whatever their texts
are, if the font size and the coordinates are finite. -/
theorem read?_ofLines {lines : List Line} {fontSize : Points}
    (hfont : fontSize.value.isFinite = true)
    (hlines : ∀ line ∈ lines, line.x.value.isFinite = true ∧ line.y.value.isFinite = true) :
    read? (ofLines lines fontSize) = some (instructionsOf lines fontSize) := by
  rw [ofLines_eq]
  exact read?_printed (plain_instructionsOf hfont hlines)

/-! ### Shown strings -/

/-- The string that an instruction shows. -/
def Instruction.shown? : Instruction → Option (List UInt8)
  | ⟨[.bytes string], "Tj"⟩ => some string
  | _ => none

/-- The strings that a stream shows. -/
def shownTexts? (stream : String) : Option (List (List UInt8)) :=
  (read? stream).map fun instructions => instructions.filterMap Instruction.shown?

lemma shown_lineInstructions (line : Line) :
    (lineInstructions line).filterMap Instruction.shown? = [WinAnsi.encode line.text] := rfl

/-- **The strings that a stream shows** are the encoded texts of its lines, in their order. -/
theorem shownTexts?_ofLines {lines : List Line} {fontSize : Points}
    (hfont : fontSize.value.isFinite = true)
    (hlines : ∀ line ∈ lines, line.x.value.isFinite = true ∧ line.y.value.isFinite = true) :
    shownTexts? (ofLines lines fontSize)
      = some (lines.map fun line => WinAnsi.encode line.text) := by
  have hshown : (lines.flatMap lineInstructions).filterMap Instruction.shown?
      = lines.map fun line => WinAnsi.encode line.text := by
    rw [List.filterMap_flatMap, List.map_eq_flatMap]
    exact List.flatMap_congr fun line _ => shown_lineInstructions line
  rw [shownTexts?, read?_ofLines hfont hlines, Option.map_some, instructionsOf]
  cases hempty : lines.isEmpty with
  | true => rw [List.isEmpty_iff.1 hempty]; rfl
  | false =>
      rw [if_neg Bool.false_ne_true, List.filterMap_append, List.filterMap_append, hshown]
      exact congrArg some (List.append_nil _)

end Content

end Folio
