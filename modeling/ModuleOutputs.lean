import ModuleOutputs.Chat.Message
import ModuleOutputs.Chat.Model
import ModuleOutputs.Chat.Reply
import ModuleOutputs.Chat.Service
import ModuleOutputs.Clone
import ModuleOutputs.CommandLine.Basic
import ModuleOutputs.CommandLine.Help
import ModuleOutputs.CommandLine.Parse
import ModuleOutputs.Config.Basic
import ModuleOutputs.Config.Expansion
import ModuleOutputs.Config.Text
import ModuleOutputs.Decimal.Shortest
import ModuleOutputs.Event
import ModuleOutputs.Failure
import ModuleOutputs.FileTree.Basic
import ModuleOutputs.FileTree.Fault
import ModuleOutputs.FileTree.Path
import ModuleOutputs.FileTree.Resolve
import ModuleOutputs.Git
import ModuleOutputs.Glob
import ModuleOutputs.Http.Exchange
import ModuleOutputs.Http.Status
import ModuleOutputs.Http.Url
import ModuleOutputs.Inference
import ModuleOutputs.Json.Fault
import ModuleOutputs.Json.Lexeme
import ModuleOutputs.Json.Read
import ModuleOutputs.Json.Skip
import ModuleOutputs.Json.Tree
import ModuleOutputs.Logging
import ModuleOutputs.Main
import ModuleOutputs.Module
import ModuleOutputs.Output
import ModuleOutputs.Program
import ModuleOutputs.Proofs.Atomicity
import ModuleOutputs.Proofs.Chat.Choices
import ModuleOutputs.Proofs.Chat.Refusal
import ModuleOutputs.Proofs.Chat.Reply
import ModuleOutputs.Proofs.Chat.Request
import ModuleOutputs.Proofs.Chat.ServiceError
import ModuleOutputs.Proofs.Chat.TooLarge
import ModuleOutputs.Proofs.Clones
import ModuleOutputs.Proofs.CommandLine.Arrangement
import ModuleOutputs.Proofs.CommandLine.Pieces
import ModuleOutputs.Proofs.Config.Braces
import ModuleOutputs.Proofs.Config.Expansion
import ModuleOutputs.Proofs.Config.Settings
import ModuleOutputs.Proofs.Containment
import ModuleOutputs.Proofs.Contents
import ModuleOutputs.Proofs.Fallback
import ModuleOutputs.Proofs.FileTree.Entries
import ModuleOutputs.Proofs.FileTree.Following
import ModuleOutputs.Proofs.FileTree.Joining
import ModuleOutputs.Proofs.FileTree.Names
import ModuleOutputs.Proofs.FileTree.NewDirectory
import ModuleOutputs.Proofs.FileTree.Staying
import ModuleOutputs.Proofs.FileTree.Trail
import ModuleOutputs.Proofs.FileTree.Walking
import ModuleOutputs.Proofs.FileTree.Writing
import ModuleOutputs.Proofs.Http.Address
import ModuleOutputs.Proofs.Json.Decoding
import ModuleOutputs.Proofs.Json.Failing
import ModuleOutputs.Proofs.Json.Grammar
import ModuleOutputs.Proofs.Json.Numbers
import ModuleOutputs.Proofs.Json.Printing
import ModuleOutputs.Proofs.Json.Reading
import ModuleOutputs.Proofs.Json.Records
import ModuleOutputs.Proofs.Json.Skipping
import ModuleOutputs.Proofs.Json.SmallRecords
import ModuleOutputs.Proofs.Json.Spacing
import ModuleOutputs.Proofs.Json.Strings
import ModuleOutputs.Proofs.Json.Unambiguous
import ModuleOutputs.Proofs.Narrowing
import ModuleOutputs.Proofs.Requests
import ModuleOutputs.Proofs.Run.Alike
import ModuleOutputs.Proofs.Run.Asking
import ModuleOutputs.Proofs.Run.Basic
import ModuleOutputs.Proofs.Run.Ending
import ModuleOutputs.Proofs.Run.Frame
import ModuleOutputs.Proofs.Run.Logging
import ModuleOutputs.Proofs.Run.Posting
import ModuleOutputs.Proofs.Run.Resolving
import ModuleOutputs.Proofs.Run.Watching
import ModuleOutputs.Proofs.Schema.Mapper
import ModuleOutputs.Proofs.Schema.Placing
import ModuleOutputs.Proofs.Schema.Rendering
import ModuleOutputs.Proofs.Schema.RoundTrip
import ModuleOutputs.Proofs.Schema.Skipping
import ModuleOutputs.Proofs.Text.Folding
import ModuleOutputs.Proofs.Text.Lossy
import ModuleOutputs.Proofs.Text.Runs
import ModuleOutputs.Proofs.Verdicts
import ModuleOutputs.Proofs.Walk.Basic
import ModuleOutputs.Proofs.Walk.Entering
import ModuleOutputs.Proofs.Walk.Exclusion
import ModuleOutputs.Proofs.Walk.Listing
import ModuleOutputs.Proofs.Walk.Settings
import ModuleOutputs.Proofs.Walk.Termination
import ModuleOutputs.Proofs.Yaml.Content
import ModuleOutputs.Proofs.Yaml.Records
import ModuleOutputs.Registry
import ModuleOutputs.Schema.Document
import ModuleOutputs.Schema.Fragment
import ModuleOutputs.Schema.Mapper
import ModuleOutputs.Sources
import ModuleOutputs.Text.Blank
import ModuleOutputs.Text.Lowercase
import ModuleOutputs.Text.Quoted
import ModuleOutputs.Text.Shown
import ModuleOutputs.Text.Utf16
import ModuleOutputs.Text.Utf8
import ModuleOutputs.Walk
import ModuleOutputs.World
import ModuleOutputs.Yaml.CoreScalar
import ModuleOutputs.Yaml.Cursor
import ModuleOutputs.Yaml.Node
import ModuleOutputs.Yaml.Property
import ModuleOutputs.Yaml.Reading
import ModuleOutputs.Yaml.Scalar
import ModuleOutputs.Yaml.Shape
import ModuleOutputs.Yaml.Token
import ModuleOutputs.Yaml.TokenStream
