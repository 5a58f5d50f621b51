import CompileFail.Compiler.Sample
import CompileFail.FileTree.Populate
import CompileFail.Main
import CompileFail.Proofs.Activation
import CompileFail.Proofs.CopiesInProject
import CompileFail.Proofs.ExitCode
import CompileFail.Proofs.Independence
import CompileFail.Proofs.NamedTrees
import CompileFail.Proofs.OccupiedCopy
import CompileFail.Proofs.RunOutcome
import CompileFail.Proofs.Settlement
import CompileFail.Proofs.SynthesisProtocol
import CompileFail.Proofs.DiagnosticGrammar
import CompileFail.Proofs.QuotedArguments
import CompileFail.Proofs.LineVerdict
import CompileFail.Proofs.CarriageReturns
import CompileFail.Proofs.LineEndings
import CompileFail.Proofs.FirstDiagnostic
import CompileFail.Proofs.PrintedCall
import CompileFail.Proofs.MentionedSource
import CompileFail.Proofs.EnclosingSolution
import CompileFail.Proofs.SmallestSource
import CompileFail.Proofs.SourceListing
import CompileFail.Proofs.SourceToTouch
import CompileFail.Proofs.SplittingRules
import CompileFail.Proofs.ElapsedTime
import CompileFail.Proofs.Reactivation
import CompileFail.Proofs.WorkerCount
import CompileFail.Proofs.LeftCopy
import CompileFail.Proofs.LineNumbers
import CompileFail.Proofs.CapturedEnvironment
import CompileFail.Proofs.FileDifferences
import CompileFail.Proofs.HostRuns
import CompileFail.Proofs.LineEdits
import CompileFail.Proofs.RecordFields
import CompileFail.Proofs.RegexSearch
import CompileFail.Proofs.SelectedLines
import CompileFail.Proofs.ShellFields
import CompileFail.Proofs.ShellFrames
import CompileFail.Proofs.ShellPatterns
import CompileFail.Proofs.Streams
