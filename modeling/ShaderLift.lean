import ShaderLift.Chat.Call
import ShaderLift.Chat.Message
import ShaderLift.Chat.Model
import ShaderLift.Chat.Prompt
import ShaderLift.Chat.Reply
import ShaderLift.Chat.Session
import ShaderLift.Chat.Transcript
import ShaderLift.Chat.Turn
import ShaderLift.CommandLine.Arguments
import ShaderLift.CommandLine.Command
import ShaderLift.CommandLine.Observer
import ShaderLift.CommandLine.Report
import ShaderLift.CommandLine.Run
import ShaderLift.CommandLine.Shader
import ShaderLift.CommandLine.Watch
import ShaderLift.Conversion.Convert
import ShaderLift.Conversion.Result
import ShaderLift.Dialect.Basic
import ShaderLift.Dialect.Document
import ShaderLift.Dialect.File
import ShaderLift.Dialect.Header
import ShaderLift.Document.Calendar
import ShaderLift.Document.Display
import ShaderLift.Document.Value
import ShaderLift.Examples.Bundle
import ShaderLift.Examples.NaturalKey
import ShaderLift.Files.Path
import ShaderLift.Files.Store
import ShaderLift.Log
import ShaderLift.Main
import ShaderLift.Number.Double
import ShaderLift.Number.Shortest
import ShaderLift.Proofs.AliasTable
import ShaderLift.Proofs.Aliases
import ShaderLift.Proofs.Attempt
import ShaderLift.Proofs.BlankLines
import ShaderLift.Proofs.BraceBreaks
import ShaderLift.Proofs.BraceLayout
import ShaderLift.Proofs.Breaking
import ShaderLift.Proofs.Bytes
import ShaderLift.Proofs.ChatCommand
import ShaderLift.Proofs.ChatSession
import ShaderLift.Proofs.CommentBraces
import ShaderLift.Proofs.CommentLayout
import ShaderLift.Proofs.Comments
import ShaderLift.Proofs.Conversation
import ShaderLift.Proofs.ConvertCommand
import ShaderLift.Proofs.Delivery
import ShaderLift.Proofs.DialectErrors
import ShaderLift.Proofs.DialectFields
import ShaderLift.Proofs.DialectOverrides
import ShaderLift.Proofs.DigitRuns
import ShaderLift.Proofs.DirectiveLines
import ShaderLift.Proofs.DirectiveValue
import ShaderLift.Proofs.DirectoryFiles
import ShaderLift.Proofs.ExactRenaming
import ShaderLift.Proofs.ExampleBundle
import ShaderLift.Proofs.FencedBlock
import ShaderLift.Proofs.FilePaths
import ShaderLift.Proofs.FormattedCode
import ShaderLift.Proofs.Glyph
import ShaderLift.Proofs.Layout
import ShaderLift.Proofs.LeftmostSignature
import ShaderLift.Proofs.LiveEntryPoint
import ShaderLift.Proofs.Margin
import ShaderLift.Proofs.MarginDefine
import ShaderLift.Proofs.MarginLayout
import ShaderLift.Proofs.MarginRenaming
import ShaderLift.Proofs.NameLayout
import ShaderLift.Proofs.NaturalOrder
import ShaderLift.Proofs.Outcome
import ShaderLift.Proofs.Parameters
import ShaderLift.Proofs.Place
import ShaderLift.Proofs.PlaceLayout
import ShaderLift.Proofs.Renaming
import ShaderLift.Proofs.Replacement
import ShaderLift.Proofs.SavedTranscript
import ShaderLift.Proofs.Signature
import ShaderLift.Proofs.Simultaneous
import ShaderLift.Proofs.Sites
import ShaderLift.Proofs.Spacing
import ShaderLift.Proofs.Standalone
import ShaderLift.Proofs.Swizzle
import ShaderLift.Proofs.Tokens
import ShaderLift.Proofs.TranscriptDocument
import ShaderLift.Proofs.VendorReply
import ShaderLift.Proofs.WatchCommand
import ShaderLift.Proofs.Watching
import ShaderLift.Proofs.Yaml.DoubleQuotes
import ShaderLift.Proofs.Yaml.OpenAnchors
import ShaderLift.Proofs.Yaml.PlainScalar
import ShaderLift.Proofs.Yaml.QuotedReader
import ShaderLift.Proofs.Yaml.RecordNodes
import ShaderLift.Proofs.Yaml.RecordTokens
import ShaderLift.Proofs.Yaml.ScannerStep
import ShaderLift.Proofs.Yaml.SingleQuotes
import ShaderLift.Shader.Alias
import ShaderLift.Shader.Comment
import ShaderLift.Shader.Define
import ShaderLift.Shader.EntryPoint
import ShaderLift.Shader.Layout
import ShaderLift.Shader.Name
import ShaderLift.Shader.Rename
import ShaderLift.Shader.Template
import ShaderLift.Text.Affix
import ShaderLift.Text.Base64
import ShaderLift.Text.Blank
import ShaderLift.Text.Character
import ShaderLift.Text.DigitTable
import ShaderLift.Text.IdentifierTable
import ShaderLift.Text.Integer
import ShaderLift.Text.Lines
import ShaderLift.Text.Quoted
import ShaderLift.Text.Replace
import ShaderLift.Text.UnprintableTable
import ShaderLift.Text.Utf8
import ShaderLift.Text.WordTable
import ShaderLift.Trace
import ShaderLift.Yaml.Character
import ShaderLift.Yaml.Fault
import ShaderLift.Yaml.Node
import ShaderLift.Yaml.Read
import ShaderLift.Yaml.Reader
import ShaderLift.Yaml.Resolve
import ShaderLift.Yaml.Scalar
import ShaderLift.Yaml.Token
import ShaderLift.Yaml.Write
