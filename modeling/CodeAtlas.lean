import CodeAtlas.Address.Basic
import CodeAtlas.Address.Host
import CodeAtlas.Cache
import CodeAtlas.Catalog
import CodeAtlas.Circuit
import CodeAtlas.Config.Basic
import CodeAtlas.Config.DotEnv
import CodeAtlas.Config.File
import CodeAtlas.Config.Settings
import CodeAtlas.Context.Basic
import CodeAtlas.Context.Budget
import CodeAtlas.Context.Focus
import CodeAtlas.Context.Format
import CodeAtlas.Context.Memory
import CodeAtlas.Context.Record
import CodeAtlas.Deadline
import CodeAtlas.Digest
import CodeAtlas.Embedding.Basic
import CodeAtlas.Embedding.Client
import CodeAtlas.Embedding.Embedder
import CodeAtlas.Embedding.Feature
import CodeAtlas.Embedding.Placing
import CodeAtlas.Embedding.Reply
import CodeAtlas.Embedding.Similarity
import CodeAtlas.Engine.Basic
import CodeAtlas.Engine.Conditions
import CodeAtlas.Engine.Entry
import CodeAtlas.Engine.Question
import CodeAtlas.Engine.Retrieval
import CodeAtlas.Engine.Run
import CodeAtlas.Failure
import CodeAtlas.FilePath
import CodeAtlas.Index.Query
import CodeAtlas.Index.Record
import CodeAtlas.Index.Table
import CodeAtlas.Index.Transaction
import CodeAtlas.Index.Write
import CodeAtlas.Language
import CodeAtlas.Links.Basic
import CodeAtlas.Links.Resolve
import CodeAtlas.Log.Line
import CodeAtlas.Log.Redaction
import CodeAtlas.Naming
import CodeAtlas.Number.Dyadic
import CodeAtlas.Number.Reading
import CodeAtlas.Number.Scalar
import CodeAtlas.Number.Shortest
import CodeAtlas.Outline.Analysis
import CodeAtlas.Outline.Basic
import CodeAtlas.Outline.Chunk
import CodeAtlas.Outline.Comments
import CodeAtlas.Outline.Complexity
import CodeAtlas.Outline.Extent
import CodeAtlas.Outline.Grammar
import CodeAtlas.Outline.Names
import CodeAtlas.Outline.Record
import CodeAtlas.Outline.Signals
import CodeAtlas.Pattern.Basic
import CodeAtlas.Pattern.Search
import CodeAtlas.Proofs.Index.Table
import CodeAtlas.Proofs.Index.Transaction
import CodeAtlas.Slice
import CodeAtlas.Sorting
import CodeAtlas.Text.Base64
import CodeAtlas.Text.Basic
import CodeAtlas.Text.Casing
import CodeAtlas.Text.CharClass
import CodeAtlas.Text.Digits
import CodeAtlas.Text.Quoted
import CodeAtlas.Text.Table.Case
import CodeAtlas.Text.Table.Printable
import CodeAtlas.Text.Table.Word
import CodeAtlas.Text.Utf8
import CodeAtlas.Tokens
import CodeAtlas.Tree.Basic
import CodeAtlas.Tree.Glob
import CodeAtlas.Tree.Ignore
import CodeAtlas.Tree.Project
import CodeAtlas.Tree.Walk
import CodeAtlas.Value.Basic
import CodeAtlas.Value.Checked
import CodeAtlas.Value.Fault
import CodeAtlas.Value.Json
import CodeAtlas.Value.Moment
import CodeAtlas.Value.Numeral
import CodeAtlas.Value.Parts
import CodeAtlas.Value.Shown
import CodeAtlas.Value.Timestamp
import CodeAtlas.Value.View
import CodeAtlas.Yaml.Content
import CodeAtlas.Yaml.Literal
import CodeAtlas.Yaml.Place
import CodeAtlas.Yaml.Property
import CodeAtlas.Yaml.Reader
import CodeAtlas.Yaml.Scalar
import CodeAtlas.Yaml.Tag
import CodeAtlas.Yaml.Text
import CodeAtlas.Yaml.Writer
import CodeAtlas.Proofs.Index.Write
import CodeAtlas.Proofs.Index.History
import CodeAtlas.Proofs.Index.Representation
import CodeAtlas.Proofs.Index.Atomicity
import CodeAtlas.Proofs.Cache
import CodeAtlas.Proofs.Index.Owner
import CodeAtlas.Proofs.Context.Memory
import CodeAtlas.Proofs.Embedding.Embedder
import CodeAtlas.Proofs.Engine.Entry
import CodeAtlas.Proofs.Engine.Run
import CodeAtlas.Proofs.Engine.History
import CodeAtlas.Proofs.Engine.Coherence
import CodeAtlas.Proofs.Config.Standard
import CodeAtlas.Proofs.Engine.Derivation
import CodeAtlas.Proofs.Engine.Clean
import CodeAtlas.Proofs.Tree.Distinct
import CodeAtlas.Proofs.Index.Difference
import CodeAtlas.Proofs.Engine.Report
import CodeAtlas.Proofs.Engine.Cancellation
import CodeAtlas.Proofs.Number.Order
import CodeAtlas.Proofs.Context.Budget
import CodeAtlas.Proofs.Context.Focus
import CodeAtlas.Proofs.Index.Similar
import CodeAtlas.Proofs.Index.Discount
import CodeAtlas.Proofs.Engine.Contract
import CodeAtlas.Proofs.Engine.Sweep
import CodeAtlas.Proofs.Engine.Repetition
import CodeAtlas.Proofs.Engine.Footprint
import CodeAtlas.Proofs.Context.Project
import CodeAtlas.Proofs.Engine.Project
import CodeAtlas.Proofs.Engine.Isolation
import CodeAtlas.Proofs.Index.Frame
import CodeAtlas.Proofs.Tree.Place
import CodeAtlas.Proofs.Tree.Tour
import CodeAtlas.Proofs.Links.Symmetry
import CodeAtlas.Proofs.Embedding.Normal
import CodeAtlas.Proofs.Embedding.Call
import CodeAtlas.Proofs.Embedding.Exchange
import CodeAtlas.Proofs.Embedding.Step
import CodeAtlas.Proofs.Embedding.Account
import CodeAtlas.Proofs.Embedding.Agreement
import CodeAtlas.Proofs.Embedding.Retry
import CodeAtlas.Proofs.Circuit.History
import CodeAtlas.Proofs.Cache.History
import CodeAtlas.Proofs.Number.Range
import CodeAtlas.Proofs.Embedding.Reply
import CodeAtlas.Proofs.Embedding.Cooldown
import CodeAtlas.Proofs.Circuit.Overlap
import CodeAtlas.Proofs.Pattern.Yield
import CodeAtlas.Proofs.Text.Line
import CodeAtlas.Proofs.Outline.Distinct
import CodeAtlas.Proofs.Outline.Declared
import CodeAtlas.Proofs.Outline.Clauses
import CodeAtlas.Proofs.Outline.CommentLines
import CodeAtlas.Proofs.Outline.Body
import CodeAtlas.Proofs.Outline.Attempt
import CodeAtlas.Proofs.Outline.Lines
import CodeAtlas.Proofs.Pattern.Greedy
import CodeAtlas.Proofs.Outline.Python
import CodeAtlas.Proofs.Links.Shared
import CodeAtlas.Proofs.Number.Digits
import CodeAtlas.Proofs.Number.Rounding
import CodeAtlas.Proofs.Number.Share
import CodeAtlas.Proofs.Number.Shortest
import CodeAtlas.Proofs.Value.Numeral
import CodeAtlas.Proofs.Value.Timestamp
import CodeAtlas.Proofs.Value.Json
import CodeAtlas.Proofs.Outline.Record
import CodeAtlas.Proofs.Index.Column
import CodeAtlas.Proofs.Log.Scan
import CodeAtlas.Proofs.Log.Rules
import CodeAtlas.Proofs.Log.Seams
import CodeAtlas.Proofs.Log.Event
import CodeAtlas.Proofs.Log.Bearer
import CodeAtlas.Proofs.Log.Credential
import CodeAtlas.Proofs.Outline.Name
import CodeAtlas.Proofs.Outline.Chunk
import CodeAtlas.Proofs.Sorting
import CodeAtlas.Proofs.Embedding.Placing
import CodeAtlas.Proofs.Links.Candidates
import CodeAtlas.Proofs.Tree.Glob
import CodeAtlas.Proofs.Tree.Ignore
import CodeAtlas.Proofs.Tree.DoubleStar
import CodeAtlas.Proofs.Pattern.Spelling
import CodeAtlas.Proofs.Pattern.Places
import CodeAtlas.Proofs.Pattern.Word
import CodeAtlas.Proofs.Outline.Binding
import CodeAtlas.Proofs.Outline.Signals
import CodeAtlas.Proofs.Text.Utf8
import CodeAtlas.Proofs.Config.File
import CodeAtlas.Proofs.Config.Spelling
import CodeAtlas.Proofs.Index.Statistics
import CodeAtlas.Proofs.Outline.Brackets
import CodeAtlas.Proofs.Outline.Indentation
import CodeAtlas.Proofs.Embedding.Canonical
import CodeAtlas.Proofs.Text.Offset
import CodeAtlas.Proofs.Index.Recency
