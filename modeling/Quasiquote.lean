import Quasiquote.Main
import Quasiquote.Proofs.Store.Confinement
import Quasiquote.Proofs.Evaluation.Arithmetic
import Quasiquote.Proofs.Evaluation.Leaving
import Quasiquote.Proofs.Evaluation.Tail
import Quasiquote.Proofs.Reading.Completeness
import Quasiquote.Proofs.Reading.Precedence
import Quasiquote.Proofs.Reading.Refusal
import Quasiquote.Proofs.Reading.Bounds
import Quasiquote.Proofs.Text.RoundTrip
import Quasiquote.Proofs.Session.Signals
import Quasiquote.Proofs.Session.Rejection
import Quasiquote.Proofs.Session.Sequence
import Quasiquote.Proofs.Session.Repetition
import Quasiquote.Proofs.Session.Quotations
import Quasiquote.Proofs.Session.Layout
import Quasiquote.Proofs.Session.Equality
import Quasiquote.Proofs.Likeness.Renaming
import Quasiquote.Proofs.Likeness.Unmentioned
import Quasiquote.Proofs.Likeness.Placement
import Quasiquote.Proofs.Expansion.Completeness
import Quasiquote.Proofs.Expansion.Statements
import Quasiquote.Proofs.Expansion.Template
import Quasiquote.Proofs.Expansion.Termination
import Quasiquote.Proofs.Quotation.Unquoting
import Quasiquote.Proofs.Quotation.Splicing
import Quasiquote.Proofs.Quotation.Stopping
import Quasiquote.Proofs.Source.InPlace
import Quasiquote.Proofs.Source.Munch
import Quasiquote.Proofs.CommandLine.Agreement
import Quasiquote.Proofs.CommandLine.Isolation
import Quasiquote.Proofs.Session.Identity
import Quasiquote.Proofs.Json.Decoding
import Quasiquote.Proofs.Rewriting.Visiting
