import Folio.Font.Basic
import Folio.Highlight.Theme
import Folio.Printout
import Folio.Proofs.Highlight.MergedText
import Folio.Proofs.Layout.Continuation
import Folio.Proofs.Layout.FewestLines
import Folio.Proofs.Layout.MissingGlyphs
import Folio.Proofs.Layout.PageStructure
import Folio.Proofs.Layout.Placement
import Folio.Proofs.Layout.Recording
import Folio.Proofs.Layout.Respacing
import Folio.Proofs.Printing
import Folio.Proofs.Highlight.NumberSpans
import Folio.Proofs.Highlight.StringBytes
import Folio.Proofs.Highlight.CommentBytes
import Folio.Proofs.Layout.Roomier
import Folio.Proofs.Pdf.Drawing
import Folio.Proofs.Layout.Margins
import Folio.Proofs.Layout.Separation
import Folio.Proofs.Layout.SingleScan
import Folio.Proofs.Pdf.Allocation
import Folio.Proofs.Pdf.Places
import Folio.Proofs.Highlight.RunLengths
