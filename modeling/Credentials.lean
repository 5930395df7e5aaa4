import Credentials.Text.Blank
import Credentials.Text.Lines
import Credentials.Text.Units
import Credentials.Text.Utf8
import Credentials.Text.Pattern
import Credentials.Text.Quote
import Credentials.Error
import Credentials.Settings
import Credentials.EnvFile.Assignment
import Credentials.EnvFile.Entry
import Credentials.EnvFile.Value
import Credentials.EnvFile
import Credentials.Service
import Credentials.Bundle
import Credentials.Reading
import Credentials.Query
import Credentials.Path
import Credentials.File
import Credentials.FileTree
import Credentials.Client
import Credentials.Session
import Credentials.Printing
import Credentials.Table
import Credentials.Report
import Credentials.Main
import Credentials.Proofs.Text.Words
import Credentials.Proofs.Text.Lines
import Credentials.Proofs.Text.Patterns
import Credentials.Proofs.EnvFile.Assignment
import Credentials.Proofs.EnvFile.LastAssignment
import Credentials.Proofs.EnvFile.Concatenation
import Credentials.Proofs.EnvFile.ClosingQuote
import Credentials.Proofs.EnvFile.Escapes
import Credentials.Proofs.EnvFile.QuotedValue
import Credentials.Proofs.EnvFile.EntryValues
import Credentials.Proofs.EnvFile.RoundTrip
import Credentials.Proofs.Reading
import Credentials.Proofs.Query
import Credentials.Proofs.Service
import Credentials.Proofs.Catalog
import Credentials.Proofs.EnvFile.EmptyValue
import Credentials.Proofs.EnvFile.TrailingComment
import Credentials.Proofs.FileTree
import Credentials.Proofs.Printing
import Credentials.Proofs.Report
import Credentials.Proofs.Dependence
import Credentials.Proofs.RecordForm
import Credentials.Proofs.Table
import Credentials.Proofs.Client
import Credentials.Proofs.Command
import Credentials.Proofs.Path
import Credentials.Proofs.StoredFile
import Credentials.Proofs.Session
import Credentials.Proofs.EnvFile.UnquotedValue
import Credentials.Proofs.EnvFile.BareValue
import Credentials.Proofs.EnvFile.Provenance
import Credentials.Proofs.Lookup
import Credentials.Proofs.Configured
import Credentials.Proofs.EnvFile.LineOrder
import Credentials.Proofs.EnvFile.Spacing
import Credentials.Proofs.MoreSettings
import Credentials.Proofs.OctetFile
import Credentials.Proofs.Resolution
import Credentials.Proofs.Alignment
