import ComponentLoader.Cache.Entry
import ComponentLoader.Cache.Identity
import ComponentLoader.Command.Arguments
import ComponentLoader.Command.Load
import ComponentLoader.Command.Run
import ComponentLoader.Diagnostic.Basic
import ComponentLoader.Diagnostic.Json
import ComponentLoader.Diagnostic.Render
import ComponentLoader.Digest.Fingerprint
import ComponentLoader.FilePath.Basic
import ComponentLoader.FileTree.Basic
import ComponentLoader.Helper.Exports
import ComponentLoader.Helper.Index
import ComponentLoader.Main
import ComponentLoader.Markup.Attribute
import ComponentLoader.Markup.Element
import ComponentLoader.Markup.Resource
import ComponentLoader.Module.Id
import ComponentLoader.Module.Request
import ComponentLoader.Number.Binary64
import ComponentLoader.OrderedMap
import ComponentLoader.Proofs.Cache.Entry
import ComponentLoader.Proofs.Cache.Identity
import ComponentLoader.Proofs.Cache.Pass
import ComponentLoader.Proofs.Cache.Watch
import ComponentLoader.Proofs.Command.Build
import ComponentLoader.Proofs.Diagnostic.Quote
import ComponentLoader.Proofs.Digest.Fingerprint
import ComponentLoader.Proofs.Digest.Fingerprinter
import ComponentLoader.Proofs.FilePath.Native
import ComponentLoader.Proofs.FilePath.Normal
import ComponentLoader.Proofs.FilePath.Order
import ComponentLoader.Proofs.FilePath.Step
import ComponentLoader.Proofs.FileTree.Bound
import ComponentLoader.Proofs.FileTree.Change
import ComponentLoader.Proofs.FileTree.Spelling
import ComponentLoader.Proofs.Helper.Definition
import ComponentLoader.Proofs.Helper.ExportList
import ComponentLoader.Proofs.Helper.Exports
import ComponentLoader.Proofs.Helper.Line
import ComponentLoader.Proofs.Helper.Phrase
import ComponentLoader.Proofs.Helper.Statement
import ComponentLoader.Proofs.Helper.Word
import ComponentLoader.Proofs.Markup.Cut
import ComponentLoader.Proofs.Markup.Name
import ComponentLoader.Proofs.Markup.Outline
import ComponentLoader.Proofs.Markup.Render
import ComponentLoader.Proofs.Markup.Scan
import ComponentLoader.Proofs.Module.Header
import ComponentLoader.Proofs.Module.Id
import ComponentLoader.Proofs.Module.KeyValue
import ComponentLoader.Proofs.Module.Query
import ComponentLoader.Proofs.Module.RoundTrip
import ComponentLoader.Proofs.OrderedMap
import ComponentLoader.Proofs.Session.Answers
import ComponentLoader.Proofs.Session.Change
import ComponentLoader.Proofs.Session.Counts
import ComponentLoader.Proofs.Session.Failure
import ComponentLoader.Proofs.Session.Foreign
import ComponentLoader.Proofs.Session.Header
import ComponentLoader.Proofs.Session.Helpers
import ComponentLoader.Proofs.Session.History
import ComponentLoader.Proofs.Session.Inline
import ComponentLoader.Proofs.Session.Load
import ComponentLoader.Proofs.Session.Outcome
import ComponentLoader.Proofs.Session.Pass
import ComponentLoader.Proofs.Session.Reached
import ComponentLoader.Proofs.Session.Reply
import ComponentLoader.Proofs.Session.Request
import ComponentLoader.Proofs.Session.Resource
import ComponentLoader.Proofs.Session.Retain
import ComponentLoader.Proofs.Session.Scene
import ComponentLoader.Proofs.Session.Stability
import ComponentLoader.Proofs.Session.Stylesheet
import ComponentLoader.Proofs.Session.Template
import ComponentLoader.Proofs.Session.Triple
import ComponentLoader.Proofs.Settings.Extension
import ComponentLoader.Proofs.Style.Brace
import ComponentLoader.Proofs.Style.Comment
import ComponentLoader.Proofs.Style.CommentedLine
import ComponentLoader.Proofs.Style.Composition
import ComponentLoader.Proofs.Style.Dependence
import ComponentLoader.Proofs.Style.ImportCycle
import ComponentLoader.Proofs.Style.ImportLine
import ComponentLoader.Proofs.Style.Inlining
import ComponentLoader.Proofs.Style.Lexeme
import ComponentLoader.Proofs.Style.Place
import ComponentLoader.Proofs.Style.Quoted
import ComponentLoader.Proofs.Style.Rule
import ComponentLoader.Proofs.Style.Selector
import ComponentLoader.Proofs.Style.Sheet
import ComponentLoader.Proofs.Template.Diagnostic
import ComponentLoader.Proofs.Template.Header
import ComponentLoader.Proofs.Template.Outline
import ComponentLoader.Proofs.Template.Parsed
import ComponentLoader.Proofs.Template.Reference
import ComponentLoader.Proofs.Template.Seed
import ComponentLoader.Proofs.Template.Whitespace
import ComponentLoader.Proofs.Text.Basic
import ComponentLoader.Proofs.Text.Keyword
import ComponentLoader.Proofs.Text.Line
import ComponentLoader.Proofs.Text.Literal
import ComponentLoader.Proofs.Text.Offset
import ComponentLoader.Proofs.Text.Piece
import ComponentLoader.Proofs.Text.Position
import ComponentLoader.Proofs.Text.Row
import ComponentLoader.Proofs.Text.Seek
import ComponentLoader.Proofs.Text.Space
import ComponentLoader.Proofs.Text.Words
import ComponentLoader.Session.Basic
import ComponentLoader.Session.Load
import ComponentLoader.Settings.Basic
import ComponentLoader.Settings.File
import ComponentLoader.Style.Fault
import ComponentLoader.Style.Import
import ComponentLoader.Style.Lexeme
import ComponentLoader.Style.Pipeline
import ComponentLoader.Style.Scope
import ComponentLoader.Template.Compile
import ComponentLoader.Template.Fault
import ComponentLoader.Template.Generate
import ComponentLoader.Template.Parsed
import ComponentLoader.Template.Statement
import ComponentLoader.Text.Alphanumeric
import ComponentLoader.Text.Basic
import ComponentLoader.Text.Identifier
import ComponentLoader.Text.Line
import ComponentLoader.Text.Literal
import ComponentLoader.Text.Space
import ComponentLoader.Toml.Document
import ComponentLoader.Toml.Scalar
import ComponentLoader.Toml.Value
import ComponentLoader.Toml.Wrapped
