import EntityQuery.Command.Folder
import EntityQuery.Main
import EntityQuery.Proofs.Grammar.Text
import EntityQuery.Proofs.Substitution
import EntityQuery.Proofs.Truth
import EntityQuery.Proofs.Grammar.Precedence
import EntityQuery.Proofs.Resolution
import EntityQuery.Proofs.Execution
import EntityQuery.Proofs.Selection
import EntityQuery.Proofs.Atomicity
import EntityQuery.Proofs.Pages
import EntityQuery.Proofs.Membership
import EntityQuery.Proofs.Arguments
import EntityQuery.Proofs.Invariants
import EntityQuery.Proofs.Bucket
import EntityQuery.Proofs.Parameters
import EntityQuery.Proofs.Sessions
import EntityQuery.Proofs.Paths
import EntityQuery.Proofs.Insertion
import EntityQuery.Proofs.Layout
import EntityQuery.Proofs.ValidPrefix
import EntityQuery.Proofs.Lexing.Places
import EntityQuery.Proofs.Naming.Ambiguity
import EntityQuery.Proofs.ReadingBack
import EntityQuery.Proofs.Globs
import EntityQuery.Proofs.Grammar.Trees
import EntityQuery.Proofs.NumericOrder
import EntityQuery.Proofs.Grammar.Nesting
import EntityQuery.Proofs.Updates
import EntityQuery.Proofs.Patterns
import EntityQuery.Proofs.Bindings
import EntityQuery.Proofs.Projection
import EntityQuery.Proofs.Naming.CamelParts
import EntityQuery.Proofs.Dates
import EntityQuery.Proofs.ComparisonOrder
import EntityQuery.Proofs.TextConversions
import EntityQuery.Proofs.Lexing.Numerals
import EntityQuery.Proofs.NamedValues
import EntityQuery.Proofs.SingleResults
import EntityQuery.Proofs.JsonLiterals
