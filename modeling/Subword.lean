import Subword.Batch.Basic
import Subword.Batch.Reader
import Subword.Breakdown
import Subword.Decimal.Binary64
import Subword.Decimal.Notation
import Subword.Decimal.Rounding
import Subword.Decimal.Shortest
import Subword.Encoding.Basic
import Subword.Encoding.Error
import Subword.FileStore
import Subword.Json.Basic
import Subword.Json.Lexeme
import Subword.Json.Reader
import Subword.Main
import Subword.Program.Arguments
import Subword.Program.Command
import Subword.Program.Mode
import Subword.Program.Run
import Subword.Provider.Basic
import Subword.Provider.CharLevel
import Subword.Provider.Listed
import Subword.Session.Basic
import Subword.Session.Script
import Subword.Session.Transcript
import Subword.Settings
import Subword.Sink
import Subword.Text.Basic
import Subword.Text.Blank
import Subword.Text.Combining
import Subword.Text.Escape
import Subword.Text.Lines
import Subword.Text.Numeral
import Subword.Text.Unprintable
import Subword.Text.Utf8
import Subword.Tokenization
import Subword.Toml.Basic
import Subword.Toml.Lexeme
import Subword.Toml.Reader
import Subword.Vocabulary.Basic
import Subword.Vocabulary.Listing
import Subword.Vocabulary.Merge
import Subword.Proofs.Except
import Subword.Proofs.Utf8.Decoding
import Subword.Proofs.Utf8.Ascii
import Subword.Proofs.Utf8.Replacement
import Subword.Proofs.Vocabulary.RoundTrip
import Subword.Proofs.Vocabulary.TokenStrings
import Subword.Proofs.Session.Transcript
import Subword.Proofs.Json.Lexeme
import Subword.Proofs.Json.Reader
import Subword.Proofs.Json.Layout
import Subword.Proofs.Json.Unambiguous
import Subword.Proofs.Batch.RoundTrip
import Subword.Proofs.Tokenization.Document
import Subword.Proofs.Session.Memoryless
import Subword.Proofs.Session.Truncation
import Subword.Proofs.Program.Truncation
import Subword.Proofs.Program.Agreement
import Subword.Proofs.Text.Blank
import Subword.Proofs.Batch.Composition
import Subword.Proofs.Batch.Rejection
import Subword.Proofs.FileStore
import Subword.Proofs.Program.Precompute
import Subword.Proofs.Text.Escape
import Subword.Proofs.Breakdown
import Subword.Proofs.Text.OneLine
import Subword.Proofs.Tokenization.Report
import Subword.Proofs.Text.Search
import Subword.Proofs.Encoding.Rejection
import Subword.Proofs.Vocabulary.SingleToken
import Subword.Proofs.Session.LineEnds
import Subword.Proofs.Tokenization.Alignment
import Subword.Proofs.Batch.NormalForm
import Subword.Proofs.Program.Arguments
import Subword.Proofs.Program.PastText
import Subword.Proofs.Batch.Total
import Subword.Proofs.Text.Quoted
import Subword.Proofs.Json.Grammar
import Subword.Proofs.Json.Skip
import Subword.Proofs.Json.Object
import Subword.Proofs.Batch.KnownMembers
import Subword.Proofs.Toml.Lexeme
import Subword.Proofs.Toml.Document
import Subword.Proofs.Settings
