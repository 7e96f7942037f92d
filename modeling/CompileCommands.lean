import CompileCommands.Command.Argument
import CompileCommands.Command.Compile
import CompileCommands.Command.Invocation
import CompileCommands.Command.Precompile
import CompileCommands.Command.Quote
import CompileCommands.Command.Tokens
import CompileCommands.CommandLine
import CompileCommands.CommandLine.Arguments
import CompileCommands.CommandLine.Help
import CompileCommands.CommandLine.Suggestion
import CompileCommands.Conversion
import CompileCommands.Document
import CompileCommands.Entry
import CompileCommands.Exclusion
import CompileCommands.Failure
import CompileCommands.FileSystem
import CompileCommands.HeaderTable
import CompileCommands.Json.Parser
import CompileCommands.Json.Quoted
import CompileCommands.Json.Value
import CompileCommands.Log
import CompileCommands.Main
import CompileCommands.Path
import CompileCommands.Pattern.Identifier
import CompileCommands.Pattern.Matcher
import CompileCommands.Pattern.Parser
import CompileCommands.Pattern.Tree
import CompileCommands.Proofs.Command.Compile
import CompileCommands.Proofs.Command.Field
import CompileCommands.Proofs.Command.FieldWords
import CompileCommands.Proofs.Command.Invocation
import CompileCommands.Proofs.Command.Lines
import CompileCommands.Proofs.Command.Operands
import CompileCommands.Proofs.Command.Pieces
import CompileCommands.Proofs.Command.Transcription
import CompileCommands.Proofs.Conversion
import CompileCommands.Proofs.Conversion.Artifacts
import CompileCommands.Proofs.Document
import CompileCommands.Proofs.Document.Session
import CompileCommands.Proofs.Failure
import CompileCommands.Proofs.FileSystem
import CompileCommands.Proofs.HeaderTable
import CompileCommands.Proofs.Json.Grammar
import CompileCommands.Proofs.Json.Quoted
import CompileCommands.Proofs.Json.Tokens
import CompileCommands.Proofs.Run
import CompileCommands.Proofs.Scan.BuildLog
import CompileCommands.Proofs.Scan.HeaderHistory
import CompileCommands.Proofs.Scan.Sections
import CompileCommands.Proofs.Scan.Segments
import CompileCommands.Proofs.Scan.Steps
import CompileCommands.Proofs.Shell.Escape
import CompileCommands.Proofs.Shell.Grammar
import CompileCommands.Proofs.Text.Lines
import CompileCommands.Proofs.Text.Space
import CompileCommands.Run
import CompileCommands.Scan
import CompileCommands.Scan.Event
import CompileCommands.Settings
import CompileCommands.Shell.Escape
import CompileCommands.Shell.Words
import CompileCommands.Text.Line
import CompileCommands.Text.Space
import CompileCommands.Text.Unit16
import CompileCommands.Text.Utf8
import CompileCommands.Transducer
import CompileCommands.Proofs.Scan.Failures
import CompileCommands.Proofs.Scan.FileExclusion
import CompileCommands.Proofs.Scan.DirectoryExclusion
import CompileCommands.Proofs.Scan.KnownHeaders
import CompileCommands.Proofs.Scan.Joined
import CompileCommands.Proofs.Scan.Noise
import CompileCommands.Proofs.Scan.Demand
import CompileCommands.Proofs.Log
import CompileCommands.Proofs.Command.Recompile
import CompileCommands.Proofs.Command.Sources
import CompileCommands.Proofs.Log.Breaks
import CompileCommands.Proofs.Log.Records
import CompileCommands.Proofs.Scan.Messages
import CompileCommands.Proofs.Path
