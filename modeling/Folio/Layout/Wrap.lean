import Folio.Layout.Measurer
import Folio.Layout.Words
import Std.Data.HashMap

/-!
Greedy wrapping of a line into fragments.

A word joins the fragment before it as long as the two together stay narrower than the limit;
otherwise it starts a fragment of its own. The width comes from a function in any monad, so that
`memoized` can remember what was measured.
-/

namespace Folio

variable {m : Type → Type} [Monad m]

/-- Fills fragments with words, the first of them holding `fragment` already. -/
def fill (width : String → m Points) (limit : Points) (fragment : String) :
    List String → m (List String)
  | [] => pure [fragment]
  | word :: rest => do
    let joined := fragment ++ " " ++ word
    if (← width joined) < limit then fill width limit joined rest
    else return fragment :: (← fill width limit word rest)

/-- The fragments of a line. The first word is measured, but stays whatever its width is; a line
without words has no fragments. -/
def wrap (width : String → m Points) (limit : Points) (line : String) : m (List String) :=
  match words line with
  | [] => pure []
  | word :: rest => do
    let _ ← width word
    fill width limit word rest

/-! ### Memory -/

/-- The texts that were measured, with their widths. -/
abbrev Widths := Std.HashMap String Points

/-- Measures a text unless its width is known. A failure is not remembered. -/
def memoized (width : String → m Points) (text : String) : StateT Widths m Points := do
  match (← get)[text]? with
  | some known => return known
  | none =>
    let measured ← width text
    modify (·.insert text measured)
    return measured

end Folio
