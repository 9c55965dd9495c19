import Folio.Highlight.Language
import Folio.Highlight.Span

/-!
Highlighting of source text.

`highlight` sweeps a text once for every pattern of `Highlight.passes`, in order, and paints the
bytes of each match with the category of the pass. A later pass paints over an earlier one, so
that the last pass with a match on a byte decides its category. Every pattern is swept over the
whole text on its own: a comment mark counts inside a string, and a quote inside a comment.
-/

namespace Folio

namespace Highlight

open Pattern

/-- A reserved word that stands alone. -/
def keywords (words : List String) : Pattern :=
  inOrder [boundary, anyOf (words.map fun word => literal word.toList), boundary]

/-- A string in quotes of one kind. One that is not closed runs to the end of its line. -/
def quotedString (quote : Char) : Pattern :=
  inOrder [char (· == quote), greedy (fun c => c != quote && c != '\n'),
    alt (char (· == quote)) lineEnd]

/-- A comment that runs to the end of its line. -/
def lineComment : Pattern :=
  inOrder [literal ['/', '/'], greedy (· != '\n')]

/-- A comment between marks. One that is not closed runs to the end of the text. -/
def blockComment : Pattern :=
  inOrder [literal ['/', '*'], reluctant (fun _ => true), alt (literal ['*', '/']) textEnd]

/-- Digits with an optional point in or behind them, between the edges of a word. -/
def number : Pattern :=
  inOrder [boundary, char Char.isDigit, greedy Char.isDigit, optional (char (· == '.')),
    greedy Char.isDigit, boundary]

/-- The patterns of a language with their categories, in the order of the sweeps. -/
def passes (language : Language) : List (Category × Pattern) :=
  [(.keyword, keywords language.keywords),
   (.string, quotedString '"'),
   (.string, quotedString '\''),
   (.comment, lineComment),
   (.comment, blockComment),
   (.number, number)]

/-- Paints every match of a pattern. -/
def sweep (text : List Char) (paint : Paint) (pass : Category × Pattern) : Paint :=
  (pass.2.occurrences text).foldl (Paint.cover pass.1) paint

end Highlight

/-- The keywords, strings, comments and numbers of a text, in order. -/
def highlight (text : String) (language : Language) : List StyleSpan :=
  let blank : Paint := Array.replicate text.utf8ByteSize none
  ((Highlight.passes language).foldl (Highlight.sweep text.toList) blank).spans

end Folio
