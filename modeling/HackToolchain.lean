import HackToolchain.Assembler
import HackToolchain.Build
import HackToolchain.CommandLine.Session
import HackToolchain.Machine.Cpu
import HackToolchain.Main
import HackToolchain.Proofs.Acceptance
import HackToolchain.Proofs.Agreement
import HackToolchain.Proofs.Comparison
import HackToolchain.Proofs.Halting
import HackToolchain.Proofs.MachineCode
import HackToolchain.Proofs.SessionWrites
import HackToolchain.Proofs.StagedBuild
import HackToolchain.Proofs.SymbolTableCalls
import HackToolchain.Translator
import HackToolchain.Proofs.IntegerMachine
import HackToolchain.Proofs.RefusedCommands
import HackToolchain.Proofs.RejectedCommands
import HackToolchain.Proofs.RefusedPaths
import HackToolchain.Proofs.SettledRequest
import HackToolchain.Proofs.GoalCourse
import HackToolchain.Proofs.SessionCourse
import HackToolchain.Proofs.SessionLeaks
import HackToolchain.Proofs.AssemblerCalls
import HackToolchain.Proofs.Renaming
import HackToolchain.Proofs.Verdict
import HackToolchain.Proofs.NameIndependence
import HackToolchain.Proofs.EndLoop
import HackToolchain.Proofs.FailureRows
import HackToolchain.Proofs.FilteredSource
import HackToolchain.Proofs.InstructionGrammar
import HackToolchain.Proofs.SymbolRenaming
import HackToolchain.Proofs.CommandGrammar
import HackToolchain.Proofs.StrictMode
import HackToolchain.Proofs.BoundedRuns
import HackToolchain.Proofs.FileRows
import HackToolchain.Proofs.IntegerAlu
import HackToolchain.Proofs.UnitSymbols
