import GrammarText.Main
import GrammarText.Scanner.Action
import GrammarText.Proofs.Lexis.Continuation
import GrammarText.Proofs.Lexis.Written
import GrammarText.Proofs.Lexis.CommentBody
import GrammarText.Proofs.Lexis.Location
import GrammarText.Proofs.Lexis.Stretches
import GrammarText.Proofs.Lexis.Outline
import GrammarText.Proofs.Faults
import GrammarText.Proofs.Heads
import GrammarText.Proofs.Iso.Entries
import GrammarText.Proofs.Iso.Steps
import GrammarText.Proofs.Iso.Printable
import GrammarText.Proofs.Iso.RoundTrip
import GrammarText.Proofs.Iso.Account
import GrammarText.Proofs.Iso.Tokens
import GrammarText.Proofs.Iso.WellFormed
import GrammarText.Proofs.Iso.Tokenization
import GrammarText.Proofs.Iso.Erasure
import GrammarText.Proofs.Iso.Stretches
import GrammarText.Proofs.Iso.Comments
import GrammarText.Proofs.Iso.Outline
import GrammarText.Proofs.Iso.Blanks
import GrammarText.Proofs.Iso.Concatenation
import GrammarText.Proofs.W3c.Tokens
import GrammarText.Proofs.W3c.NormalForm
import GrammarText.Proofs.W3c.Printed
import GrammarText.Proofs.W3c.Reading
import GrammarText.Proofs.W3c.RoundTrip
import GrammarText.Proofs.W3c.Language
import GrammarText.Proofs.W3c.Regrouping
import GrammarText.Proofs.W3c.Meaning
import GrammarText.Proofs.W3c.Mentions
import GrammarText.Proofs.W3c.Scan
import GrammarText.Proofs.W3c.Outline
import GrammarText.Proofs.W3c.Gaps
import GrammarText.Proofs.Json.Record
import GrammarText.Proofs.W3c.Decoding
import GrammarText.Proofs.Iso.Decoding
import GrammarText.Proofs.Iso.Invariants
import GrammarText.Proofs.Context
import GrammarText.Proofs.Iso.Brackets
import GrammarText.Proofs.W3c.Concatenation
import GrammarText.Proofs.Scanner
import GrammarText.Proofs.Lexis.CommentPieces
import GrammarText.Proofs.Iso.Counts
import GrammarText.Proofs.Progress
import GrammarText.Proofs.W3c.SingleItem
import GrammarText.Proofs.Equality
