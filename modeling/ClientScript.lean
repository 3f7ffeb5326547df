import ClientScript.Block.Validate
import ClientScript.Bytes.Reader
import ClientScript.CommandLine.Rehearsal
import ClientScript.Encoder
import ClientScript.Main
import ClientScript.Proofs.Sequences
import ClientScript.Proofs.CodePage
import ClientScript.Proofs.Reading
import ClientScript.Proofs.StoredForm
import ClientScript.Proofs.Decoding
import ClientScript.Proofs.RoundTrip
import ClientScript.Proofs.Container
import ClientScript.Proofs.Resolving
import ClientScript.Proofs.EdgeDepth
import ClientScript.Proofs.Tiling
import ClientScript.Proofs.ShortReads
import ClientScript.Proofs.ForwardPass
import ClientScript.Proofs.Truncation
import ClientScript.Proofs.Strictness
import ClientScript.Proofs.Callees
import ClientScript.Proofs.StackTrace
import ClientScript.Proofs.Restart
import ClientScript.Proofs.Classification
import ClientScript.Proofs.WidgetFamilies
import ClientScript.Proofs.ControlFlow
import ClientScript.Proofs.Relocation
import ClientScript.Proofs.Partition
import ClientScript.Proofs.Building
import ClientScript.Proofs.AddressingModes
import ClientScript.Proofs.SwitchForms
import ClientScript.Proofs.Validity
import ClientScript.Proofs.Analysis
import ClientScript.Proofs.Reachability
import ClientScript.Proofs.BlockEdges
import ClientScript.Proofs.SwitchMeaning
import ClientScript.Proofs.DepthArithmetic
import ClientScript.Proofs.Caching
import ClientScript.Proofs.HandlerSetters
import ClientScript.Proofs.HigherStacks
import ClientScript.Proofs.ConstantArithmetic
import ClientScript.Proofs.Recency
import ClientScript.Proofs.ScriptNumbers
import ClientScript.Proofs.WriteFailures
import ClientScript.Proofs.SwitchTables
import ClientScript.Proofs.BlockSearch
import ClientScript.Proofs.ChangedGraphs
import ClientScript.Proofs.InstructionLimit
import ClientScript.Proofs.SwitchAcceptance
import ClientScript.Proofs.JumpLandings
import ClientScript.Proofs.Legibility
import ClientScript.Proofs.OpcodeNames
import ClientScript.Proofs.InstructionText
import ClientScript.Proofs.AlignedColumns
import ClientScript.Proofs.PrintableText
import ClientScript.Proofs.DeclaredReturns
import ClientScript.Proofs.ListingLines
import ClientScript.Proofs.WriterRuns
import ClientScript.Proofs.LimitedRoom
import ClientScript.Proofs.ReaderRuns
import ClientScript.Proofs.TypedStreams
import ClientScript.Proofs.UnencodableText
import ClientScript.Proofs.CacheLaws
