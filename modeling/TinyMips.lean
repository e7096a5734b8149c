import TinyMips.Main
import TinyMips.Proofs.Bounds
import TinyMips.Proofs.Check
import TinyMips.Proofs.Nesting
import TinyMips.Proofs.Documents
import TinyMips.Proofs.Perform
import TinyMips.Proofs.Reachable
import TinyMips.Proofs.Atomicity
import TinyMips.Proofs.RegisterInvariant
import TinyMips.Proofs.Replay
import TinyMips.Proofs.WordMachine
import TinyMips.Proofs.Refinement
import TinyMips.Proofs.LineFeed
import TinyMips.Proofs.Records
import TinyMips.Proofs.SessionRun
import TinyMips.Proofs.Tokens
import TinyMips.Proofs.Limits
import TinyMips.Proofs.Halting
import TinyMips.Proofs.Stages
import TinyMips.Proofs.Isolation
import TinyMips.Proofs.Concatenation
import TinyMips.Proofs.Noninterference
import TinyMips.Proofs.Reading
import TinyMips.Proofs.GridTable
import TinyMips.Proofs.TableText
import TinyMips.Proofs.Messages
import TinyMips.Proofs.ReadBack
import TinyMips.Proofs.DataIndependence
import TinyMips.Proofs.Entered
import TinyMips.Proofs.ExitCode
import TinyMips.Proofs.FinalListing
import TinyMips.Proofs.Batches
import TinyMips.Proofs.Interruption
import TinyMips.Proofs.Grammar
import TinyMips.Proofs.ShortRuns
import TinyMips.Proofs.Complaints
import TinyMips.Proofs.UnknownRegisters
import TinyMips.Proofs.Division
import TinyMips.Proofs.OperandTexts
import TinyMips.Proofs.LineGrammar
import TinyMips.Proofs.NormalForm
import TinyMips.Proofs.ImmediateForms
import TinyMips.Proofs.BatchOrder
import TinyMips.Proofs.InitialRegisters
import TinyMips.Proofs.Lookup
import TinyMips.Proofs.Multiplication
import TinyMips.Proofs.WordArithmetic
import TinyMips.Proofs.BlankLines
import TinyMips.Proofs.Spellings
import TinyMips.Proofs.Respelling
import TinyMips.Proofs.Interchange
