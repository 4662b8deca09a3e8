import PageTemplate.Reader.Template
import PageTemplate.Slicer.Operation
import PageTemplate.Settings.File
import PageTemplate.Proofs.Token.Spelling
import PageTemplate.Proofs.Reader.Lossless
import PageTemplate.Proofs.Reader.Shape
import PageTemplate.Proofs.Reader.Segmentation
import PageTemplate.Proofs.Reader.Conflict
import PageTemplate.Proofs.Reader.DesignTime
import PageTemplate.Proofs.Reader.Pattern
import PageTemplate.Proofs.Reader.Names
import PageTemplate.Proofs.Reader.CrLf
import PageTemplate.Proofs.Reader.Append
import PageTemplate.Proofs.Slicer.Conservation
import PageTemplate.Proofs.Slicer.Completion
import PageTemplate.Proofs.Slicer.SpaceCut
import PageTemplate.Proofs.Reader.Calls
import PageTemplate.Proofs.Token.LongestMatch
import PageTemplate.Proofs.Token.LineBound
import PageTemplate.Proofs.TypeName.Recursion
import PageTemplate.Proofs.TypeName.Nesting
import PageTemplate.Proofs.TypeName.Grammar
import PageTemplate.Proofs.TypeName.Written
import PageTemplate.Proofs.Token.Recut
import PageTemplate.Proofs.Reader.Alone
import PageTemplate.Proofs.Reader.Argument
import PageTemplate.Proofs.Reader.Missing
import PageTemplate.Proofs.Reader.WrittenLine
import PageTemplate.Proofs.Reader.QuotedPattern
import PageTemplate.Proofs.KeywordTable.Registrations
import PageTemplate.Proofs.Settings.Loading
