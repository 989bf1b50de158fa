import ImportPlan.Binary64.Basic
import ImportPlan.Binary64.Shortest
import ImportPlan.Block
import ImportPlan.Config
import ImportPlan.Document.Basic
import ImportPlan.Document.Builder
import ImportPlan.Document.Decode
import ImportPlan.Document.Encode
import ImportPlan.Error
import ImportPlan.Feature
import ImportPlan.Json.Basic
import ImportPlan.Json.Decoder
import ImportPlan.Json.Leaf
import ImportPlan.Json.Number
import ImportPlan.Json.Outline
import ImportPlan.Json.Problem
import ImportPlan.Json.Text
import ImportPlan.Json.Token
import ImportPlan.Log
import ImportPlan.Package
import ImportPlan.Path
import ImportPlan.Plan
import ImportPlan.Pool
import ImportPlan.Proofs.Block.Contents
import ImportPlan.Proofs.Block.Rendering
import ImportPlan.Proofs.Config.Accepted
import ImportPlan.Proofs.Config.FrontEnds
import ImportPlan.Proofs.Config.LastWord
import ImportPlan.Proofs.Config.Options
import ImportPlan.Proofs.Config.SingleOption
import ImportPlan.Proofs.Config.Spacing
import ImportPlan.Proofs.Document.Edits
import ImportPlan.Proofs.Document.RoundTrip
import ImportPlan.Proofs.FirstAndLast
import ImportPlan.Proofs.Json.Changes
import ImportPlan.Proofs.Json.Grammar
import ImportPlan.Proofs.Json.Members
import ImportPlan.Proofs.Json.Number
import ImportPlan.Proofs.Json.Values
import ImportPlan.Proofs.Log.Account
import ImportPlan.Proofs.Log.Lines
import ImportPlan.Proofs.Path.LocalName
import ImportPlan.Proofs.Path.Segments
import ImportPlan.Proofs.Path.Verbatim
import ImportPlan.Proofs.Plan.Run
import ImportPlan.Proofs.Plan.Schedule
import ImportPlan.Proofs.Plan.WellFormed
import ImportPlan.Proofs.Redirection.Built
import ImportPlan.Proofs.Redirection.Entries
import ImportPlan.Proofs.Redirection.Requests
import ImportPlan.Proofs.Rules.FirstOfEach
import ImportPlan.Proofs.Rules.RuleTable
import ImportPlan.Proofs.Scope.FreeName
import ImportPlan.Proofs.Scope.Indexed
import ImportPlan.Proofs.Scope.Reservation
import ImportPlan.Proofs.Scope.Search
import ImportPlan.Proofs.Scope.Unique
import ImportPlan.Proofs.Session.Effects
import ImportPlan.Proofs.Session.Failure
import ImportPlan.Proofs.Session.Growth
import ImportPlan.Proofs.Session.History
import ImportPlan.Proofs.Session.Independent
import ImportPlan.Proofs.Session.Literals
import ImportPlan.Proofs.Session.LocalNames
import ImportPlan.Proofs.Session.Redirected
import ImportPlan.Proofs.Session.Registration
import ImportPlan.Proofs.Session.Suppression
import ImportPlan.Proofs.Session.Timing
import ImportPlan.Proofs.Text.SourceLiteral
import ImportPlan.Redirection
import ImportPlan.Rules
import ImportPlan.Scope.Basic
import ImportPlan.Scope.Command
import ImportPlan.Scope.Debug
import ImportPlan.Session.Basic
import ImportPlan.Session.Step
import ImportPlan.Table
import ImportPlan.Text.Blank
import ImportPlan.Text.Printable
import ImportPlan.Text.Quoted
import ImportPlan.Text.Ranges
import ImportPlan.Version
