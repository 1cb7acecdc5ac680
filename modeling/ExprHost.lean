import ExprHost.Crate.Basic
import ExprHost.Crate.Id
import ExprHost.Diagnostic.Basic
import ExprHost.Diagnostic.Stream
import ExprHost.Error
import ExprHost.Evaluator
import ExprHost.Hash.Xxh64
import ExprHost.Host.FileTree
import ExprHost.Host.Numbered
import ExprHost.Host.State
import ExprHost.Host.Status
import ExprHost.Host.TempEntry
import ExprHost.Image
import ExprHost.Json.Token
import ExprHost.Json.Value
import ExprHost.Order
import ExprHost.Path.Basic
import ExprHost.Path.Parts
import ExprHost.Reference.Cache
import ExprHost.Reference.Foundation
import ExprHost.Reference.Linked
import ExprHost.Reference.Resolve
import ExprHost.Reference.Set
import ExprHost.Request
import ExprHost.Scope.Library
import ExprHost.Scope.Load
import ExprHost.Scope.Shelf
import ExprHost.Source.Container
import ExprHost.Source.Preamble
import ExprHost.Source.Unit
import ExprHost.Text.Blank
import ExprHost.Text.Hex
import ExprHost.Text.Hidden
import ExprHost.Text.Lines
import ExprHost.Text.Quoted
import ExprHost.Text.Utf8
import ExprHost.Toolchain.Compilation
import ExprHost.Toolchain.Run
import ExprHost.Toolchain.Settings
import ExprHost.Types.Desc
import ExprHost.Types.HostType
import ExprHost.Types.Name
import ExprHost.Types.Render
import ExprHost.Proofs.Reference.Leaders
import ExprHost.Proofs.StableSort
import ExprHost.Proofs.Reference.Canonical
import ExprHost.Proofs.Reference.Complete
import ExprHost.Proofs.Host.Places
import ExprHost.Proofs.Host.TempNames
import ExprHost.Proofs.Host.Running
import ExprHost.Proofs.Types.Spelling
import ExprHost.Proofs.Toolchain.UnitNames
import ExprHost.Proofs.Host.Scratch
import ExprHost.Proofs.Toolchain.Start
import ExprHost.Proofs.Evaluation.Pipeline
import ExprHost.Proofs.Evaluation.Stock
import ExprHost.Proofs.Evaluation.Classified
import ExprHost.Proofs.Json.Grammar
import ExprHost.Proofs.Json.Number
import ExprHost.Proofs.Json.Scanning
import ExprHost.Proofs.Json.Nesting
import ExprHost.Proofs.Diagnostic.Lines
import ExprHost.Proofs.Json.Meaning
import ExprHost.Proofs.Diagnostic.Reports
import ExprHost.Proofs.Json.Writing
import ExprHost.Proofs.Evaluation.Dynamic
import ExprHost.Proofs.Reference.Spellings
import ExprHost.Proofs.Source.Reading
import ExprHost.Proofs.Reference.HostTypes
import ExprHost.Proofs.Toolchain.Numbering
import ExprHost.Proofs.Host.Directories
import ExprHost.Proofs.Toolchain.Anonymous
import ExprHost.Proofs.Evaluation.TwoHosts
import ExprHost.Proofs.Evaluation.Independent
import ExprHost.Proofs.Types.Levels
import ExprHost.Proofs.Reference.FirstStored
import ExprHost.Proofs.Reference.Unlocated
import ExprHost.Proofs.Scope.LiveScopes
import ExprHost.Proofs.Reference.Identities
import ExprHost.Proofs.Path.Bare
import ExprHost.Proofs.Reference.LibraryDirs
import ExprHost.Proofs.Toolchain.CommandLine
import ExprHost.Proofs.Evaluation.EmptyDirs
import ExprHost.Proofs.Text.Colons
import ExprHost.Proofs.Types.NormalNames
import ExprHost.Proofs.Path.Entries
import ExprHost.Proofs.Text.Encoding
import ExprHost.Proofs.Reference.LibraryFiles
import ExprHost.Proofs.Reference.Growing
import ExprHost.Proofs.Reference.LaterListings
import ExprHost.Proofs.Source.Globs
import ExprHost.Proofs.Toolchain.NamedDir
import ExprHost.Proofs.Host.OnTheWay
import ExprHost.Proofs.Evaluation.Staging
import ExprHost.Proofs.Evaluation.Configured
import ExprHost.Proofs.Reference.TotalOrders
import ExprHost.Proofs.Types.Marks
import ExprHost.Proofs.Types.Room
