import Bookshelf.Text.Blank
import Bookshelf.Text.Lower
import Bookshelf.Genre
import Bookshelf.Vocabulary
import Bookshelf.Count
import Bookshelf.Decimal.Reader
import Bookshelf.Decimal.Binary
import Bookshelf.Expression.Parser
import Bookshelf.Json.Reader
import Bookshelf.Json.Document
import Bookshelf.Main
import Bookshelf.Proofs.DepthScan
import Bookshelf.Proofs.BooleanLaws
import Bookshelf.Proofs.Pages
import Bookshelf.Proofs.SessionHistory
import Bookshelf.Proofs.PageWalk
import Bookshelf.Proofs.JsonReader
import Bookshelf.Proofs.Lines
import Bookshelf.Proofs.Documents
import Bookshelf.Proofs.Loaders
import Bookshelf.Proofs.DecimalText
import Bookshelf.Proofs.BookText
import Bookshelf.Proofs.Lookalikes
import Bookshelf.Proofs.Datasets
import Bookshelf.Proofs.Listing
import Bookshelf.Proofs.Recording
import Bookshelf.Proofs.Trimming
import Bookshelf.Proofs.Rendering
import Bookshelf.Proofs.Invocations
import Bookshelf.Proofs.PrintedPage
import Bookshelf.Proofs.TextCuts
import Bookshelf.Proofs.EntryTexts
import Bookshelf.Proofs.LoweredTokens
import Bookshelf.Proofs.Caseless
import Bookshelf.Proofs.PageRanges
import Bookshelf.Proofs.PageBar
import Bookshelf.Proofs.PageWords
import Bookshelf.Proofs.BookFields
import Bookshelf.Proofs.BookValues
import Bookshelf.Proofs.LineEnds
import Bookshelf.Proofs.Counts
import Bookshelf.Proofs.Thresholds
import Bookshelf.Proofs.IndexedVocabulary
