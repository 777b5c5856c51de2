import ApiScript.Cel.Arithmetic
import ApiScript.Cel.Basic
import ApiScript.Cel.Duration
import ApiScript.Cel.Engine
import ApiScript.Cel.Evaluation
import ApiScript.Cel.Function
import ApiScript.Cel.Parser
import ApiScript.Cel.Timestamp
import ApiScript.Cel.Token
import ApiScript.Cel.Value
import ApiScript.CommandLine.Arguments
import ApiScript.CommandLine.Help
import ApiScript.CommandLine.Run
import ApiScript.Environment
import ApiScript.Expansion
import ApiScript.Fault
import ApiScript.Http
import ApiScript.Json.Basic
import ApiScript.Json.Difference
import ApiScript.Json.Numeral
import ApiScript.Json.Parser
import ApiScript.Json.Path
import ApiScript.Json.Printer
import ApiScript.Json.Token
import ApiScript.Ledger
import ApiScript.Main
import ApiScript.Notifier
import ApiScript.Number.Binary64
import ApiScript.Number.Reading
import ApiScript.Number.Shortest
import ApiScript.Pattern.Basic
import ApiScript.Pattern.Brackets
import ApiScript.Pattern.CharClass
import ApiScript.Pattern.Escape
import ApiScript.Pattern.Parser
import ApiScript.Plugin.Basic
import ApiScript.Plugin.Standard
import ApiScript.Reference
import ApiScript.Registry
import ApiScript.Report
import ApiScript.Script.Basic
import ApiScript.Script.Reading
import ApiScript.Session.Basic
import ApiScript.Session.Execution
import ApiScript.Session.Resolution
import ApiScript.Settings.Basic
import ApiScript.Settings.Reading
import ApiScript.Source.Files
import ApiScript.Source.Reading
import ApiScript.Table
import ApiScript.Text.Basic
import ApiScript.Text.Character
import ApiScript.Text.Encoding
import ApiScript.Url.Basic
import ApiScript.Url.Host
import ApiScript.Url.Punycode
import ApiScript.Variables
import ApiScript.Yaml.Cursor
import ApiScript.Yaml.Lexer
import ApiScript.Yaml.Node
import ApiScript.Yaml.Printer
import ApiScript.Yaml.Reading
import ApiScript.Yaml.ScalarText
import ApiScript.Proofs.Cel.Alias
import ApiScript.Proofs.Cel.Quoted
import ApiScript.Proofs.Cel.Variable
import ApiScript.Proofs.CommandLine.Status
import ApiScript.Proofs.Environment.History
import ApiScript.Proofs.Expansion.Basic
import ApiScript.Proofs.Expansion.Boundary
import ApiScript.Proofs.Expansion.Literal
import ApiScript.Proofs.Expansion.Node
import ApiScript.Proofs.Expansion.Offset
import ApiScript.Proofs.Expansion.Segments
import ApiScript.Proofs.Fields
import ApiScript.Proofs.Inheritance.Lineage
import ApiScript.Proofs.Inheritance.Ordering
import ApiScript.Proofs.Inheritance.Reachability
import ApiScript.Proofs.Inheritance.Request
import ApiScript.Proofs.Json.Difference
import ApiScript.Proofs.Json.Equality
import ApiScript.Proofs.Json.FirstDifference
import ApiScript.Proofs.Json.Ordered
import ApiScript.Proofs.Json.Path
import ApiScript.Proofs.Notifier
import ApiScript.Proofs.Notifier.Delivery
import ApiScript.Proofs.Plugin.Attempts
import ApiScript.Proofs.Plugin.Confinement
import ApiScript.Proofs.Reference.CodePoint
import ApiScript.Proofs.Reference.Grammar
import ApiScript.Proofs.Script.Request
import ApiScript.Proofs.Session.Assigning
import ApiScript.Proofs.Session.Bisimulation
import ApiScript.Proofs.Session.Building
import ApiScript.Proofs.Session.Counting
import ApiScript.Proofs.Session.Course
import ApiScript.Proofs.Session.Deeds
import ApiScript.Proofs.Session.Ends
import ApiScript.Proofs.Session.Entrances
import ApiScript.Proofs.Session.Extracting
import ApiScript.Proofs.Session.Flattening
import ApiScript.Proofs.Session.Gates
import ApiScript.Proofs.Session.Journal
import ApiScript.Proofs.Session.Judging
import ApiScript.Proofs.Session.Moments
import ApiScript.Proofs.Session.Outcome
import ApiScript.Proofs.Session.Phases
import ApiScript.Proofs.Session.Reaching
import ApiScript.Proofs.Session.Renewal
import ApiScript.Proofs.Session.Reordering
import ApiScript.Proofs.Session.Rerunning
import ApiScript.Proofs.Session.Reserved
import ApiScript.Proofs.Session.Running
import ApiScript.Proofs.Session.Shown
import ApiScript.Proofs.Session.Stopping
import ApiScript.Proofs.Session.Surfacing
import ApiScript.Proofs.Session.Task
import ApiScript.Proofs.Session.Traffic
import ApiScript.Proofs.Session.Unfolding
import ApiScript.Proofs.Session.Verdicts
import ApiScript.Proofs.Source.Reading
