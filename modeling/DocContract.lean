import DocContract.Comment.Canonical
import DocContract.Comment.Json
import DocContract.Main
import DocContract.Proofs.Comment.RoundTrip
import DocContract.Proofs.Comment.ReadHeader
import DocContract.Proofs.Comment.Accepted
import DocContract.Proofs.Comment.Stability
import DocContract.Proofs.Schema.Contract
import DocContract.Proofs.Json.Literal
import DocContract.Proofs.Json.Written
import DocContract.Proofs.Json.Signature
import DocContract.Proofs.Cache.Key
import DocContract.Proofs.Schema.Languages
import DocContract.Proofs.Engine.Check
import DocContract.Proofs.FileTree
import DocContract.Proofs.Cache.Sound
import DocContract.Proofs.Engine.History
import DocContract.Proofs.Engine.Sound
import DocContract.Proofs.Engine.Transparent
import DocContract.Proofs.Comment.Boundary
import DocContract.Proofs.DocBlock.Scan
import DocContract.Proofs.DocBlock.Association
import DocContract.Proofs.DocBlock.Rendered
import DocContract.Proofs.Engine.Independent
import DocContract.Proofs.Report.Canonical
import DocContract.Proofs.Schema.Forest
import DocContract.Proofs.Schema.Silent
import DocContract.Proofs.Schema.Removal
import DocContract.Proofs.DocBlock.Location
import DocContract.Proofs.Comment.Unwarned
import DocContract.Proofs.Schema.Documentation
import DocContract.Proofs.Schema.Documentable
import DocContract.Proofs.Comment.Fields
import DocContract.Proofs.Comment.Nesting
import DocContract.Proofs.Comment.Entry
import DocContract.Proofs.Comment.OneTree
import DocContract.Proofs.Comment.Indented
import DocContract.Proofs.Json.Read
import DocContract.Proofs.Instant
import DocContract.Proofs.Cache.Entry
import DocContract.Proofs.Cache.Event
import DocContract.Proofs.Cache.Files
import DocContract.Proofs.Cache.Refinement
import DocContract.Proofs.Settings.Fingerprint
import DocContract.Proofs.TestFile.Setup
import DocContract.Proofs.TestFile.Fragments
import DocContract.Proofs.TestFile.Quoted
import DocContract.Proofs.TestFile.OneCase
import DocContract.Proofs.Schema.Ignored
import DocContract.Proofs.TestFile.Alike
import DocContract.Proofs.Settings.Covered
import DocContract.Proofs.DocBlock.Delimiter
import DocContract.Proofs.DocBlock.Exact
import DocContract.Proofs.DocBlock.LineEndings
import DocContract.Proofs.DocBlock.OwnLine
import DocContract.Proofs.DocBlock.Resumed
import DocContract.Proofs.Schema.Verdict
import DocContract.Proofs.ReadBack
import DocContract.Proofs.Comment.Depth
import DocContract.Proofs.Comment.Unreadable
import DocContract.Proofs.Comment.Fenced
import DocContract.Proofs.Comment.InOrder
import DocContract.Proofs.Comment.WellFormed
import DocContract.Proofs.Engine.Violation
import DocContract.Proofs.Engine.Site
import DocContract.Proofs.Engine.Unmasked
import DocContract.Proofs.Schema.Verbatim
import DocContract.Proofs.Schema.Flattened
import DocContract.Proofs.Comment.Rewrapped
import DocContract.Proofs.Report.Assembled
import DocContract.Proofs.Text.Pieces
import DocContract.Proofs.TestFile.Masked
import DocContract.Proofs.TestFile.Coverage
import DocContract.Proofs.TestFile.Located
import DocContract.Proofs.TestFile.Splitting
import DocContract.Proofs.TestFile.Appended
import DocContract.Proofs.TestFile.SuiteNames
import DocContract.Proofs.TestFile.SuiteTitle
import DocContract.Proofs.TestFile.CaseCalls
import DocContract.Proofs.TestFile.CasesInCode
import DocContract.Proofs.DocBlock.Comments
import DocContract.Proofs.DocBlock.Openings
import DocContract.Proofs.DocBlock.CommentLines
import DocContract.Proofs.DocBlock.Hidden
import DocContract.Proofs.TestFile.LayoutOrder
import DocContract.Proofs.Settings.Nearest
import DocContract.Proofs.Comment.NamedHeader
import DocContract.Proofs.Comment.Json
import DocContract.Proofs.Comment.BracedLine
import DocContract.Proofs.Schema.Ancestry
