import CodeAtlas.Ascending
import CodeAtlas.CommandLine.Options
import CodeAtlas.CommandLine.Run
import CodeAtlas.Convert
import CodeAtlas.Digest.Chunker
import CodeAtlas.Digest.Line
import CodeAtlas.Export.Csv
import CodeAtlas.Export.Cypher
import CodeAtlas.Export.Document
import CodeAtlas.Export.Plan
import CodeAtlas.Export.Tables
import CodeAtlas.Extensions
import CodeAtlas.Failure
import CodeAtlas.Graph.Basic
import CodeAtlas.Graph.Codec
import CodeAtlas.Graph.Record
import CodeAtlas.Graph.Resolved
import CodeAtlas.Json.Printer
import CodeAtlas.Json.Reader
import CodeAtlas.Json.Value
import CodeAtlas.Log
import CodeAtlas.Main
import CodeAtlas.Proofs.Text.Lines
import CodeAtlas.Python.Automaton
import CodeAtlas.Python.Blame
import CodeAtlas.Python.Cursor
import CodeAtlas.Python.Extract
import CodeAtlas.Python.Front
import CodeAtlas.Python.Grammar
import CodeAtlas.Python.Grammar.Definitions
import CodeAtlas.Python.Grammar.Expressions
import CodeAtlas.Python.Grammar.Patterns
import CodeAtlas.Python.Grammar.Statements
import CodeAtlas.Python.Item
import CodeAtlas.Python.Layout
import CodeAtlas.Python.Lexer
import CodeAtlas.Python.Outline
import CodeAtlas.Python.Parse
import CodeAtlas.Python.Phrase
import CodeAtlas.Python.Reading
import CodeAtlas.Python.Token
import CodeAtlas.Python.TokenSet
import CodeAtlas.Python.Tree
import CodeAtlas.Scope
import CodeAtlas.Storage.Basic
import CodeAtlas.Storage.Path
import CodeAtlas.Text.Bytes
import CodeAtlas.Text.Identifier
import CodeAtlas.Text.IdentifierTable
import CodeAtlas.Text.Space
import CodeAtlas.Proofs.Digest.Blocks
import CodeAtlas.Proofs.Graph.Entries
import CodeAtlas.Proofs.Python.Places
import CodeAtlas.Proofs.Anchored
import CodeAtlas.Proofs.Export.Csv
import CodeAtlas.Proofs.Export.Tables
import CodeAtlas.Proofs.Firsts
import CodeAtlas.Proofs.Graph.History
import CodeAtlas.Proofs.Text.Pieces
import CodeAtlas.Proofs.Digest.Joined
import CodeAtlas.Proofs.Digest.RoundTrip
import CodeAtlas.Proofs.Merging
import CodeAtlas.Proofs.FileNodes
import CodeAtlas.Proofs.Digest.Separators
import CodeAtlas.Proofs.Reordering
import CodeAtlas.Proofs.Json.Tokens
import CodeAtlas.Proofs.Json.Layout
import CodeAtlas.Proofs.Graph.Codec
import CodeAtlas.Proofs.Export.Document
import CodeAtlas.Proofs.Export.Plan
import CodeAtlas.Proofs.Export.Stored
import CodeAtlas.Proofs.Graph.Kinds
import CodeAtlas.Proofs.Counts
import CodeAtlas.Proofs.Traced
import CodeAtlas.Proofs.Ignored
import CodeAtlas.Proofs.Extensions
import CodeAtlas.Proofs.Lifetime
import CodeAtlas.Proofs.Python.Faults
import CodeAtlas.Proofs.Extraction
import CodeAtlas.Proofs.Graph.Records
import CodeAtlas.Proofs.CommandLine
import CodeAtlas.Proofs.Python.Declarations
import CodeAtlas.Proofs.Graph.Resolved
import CodeAtlas.Proofs.Python.Chains
import CodeAtlas.Proofs.Detection
import CodeAtlas.Proofs.Storage
import CodeAtlas.Proofs.Storage.Stations
import CodeAtlas.Proofs.Export.Frame
