import NestedRules.Dump.File
import NestedRules.Rule.Run
import NestedRules.Session.Basic
import NestedRules.Session.SettingsText
import NestedRules.Proofs.Node.Rows
import NestedRules.Proofs.Node.Around
import NestedRules.Proofs.Rule.Lookup
import NestedRules.Proofs.Rule.Swap
import NestedRules.Proofs.Rule.Table
import NestedRules.Proofs.Rule.Invariant
import NestedRules.Proofs.Rule.Placement
import NestedRules.Proofs.Drag.Landing
import NestedRules.Proofs.Node.Route
import NestedRules.Proofs.Node.Relabel
import NestedRules.Proofs.Node.Gap
import NestedRules.Proofs.Rule.Enclosure
import NestedRules.Proofs.Session.Intents
import NestedRules.Proofs.Session.DragLocks
import NestedRules.Proofs.Rule.Effect
import NestedRules.Proofs.Session.ShutGroups
import NestedRules.Proofs.Session.Soundness
import NestedRules.Proofs.Expression.Condition
import NestedRules.Proofs.Expression.Readability
import NestedRules.Proofs.Json.Reading
import NestedRules.Proofs.Json.Turn
import NestedRules.Proofs.Json.WrittenValue
import NestedRules.Proofs.Json.Nesting
import NestedRules.Proofs.Dump.RoundTrip
import NestedRules.Proofs.Rule.Acceptance
import NestedRules.Proofs.Rule.IdChecks
import NestedRules.Proofs.Rule.MoveAnswers
import NestedRules.Proofs.Rule.Standing
import NestedRules.Proofs.Rule.Reversal
import NestedRules.Proofs.Expression.Surroundings
import NestedRules.Proofs.Session.Display
import NestedRules.Proofs.Session.Refusals
import NestedRules.Proofs.Session.Drops
import NestedRules.Proofs.Session.Release
import NestedRules.Proofs.Dump.Restyled
import NestedRules.Proofs.Dump.Delimited
import NestedRules.Proofs.Dump.Nesting
import NestedRules.Proofs.Rule.Fusion
import NestedRules.Proofs.Rule.Retouch
import NestedRules.Proofs.Rule.Unheard
import NestedRules.Proofs.Rule.Validation
import NestedRules.Proofs.Node.Occurrence
import NestedRules.Proofs.Node.Searches
import NestedRules.Proofs.Expression.Parentheses
import NestedRules.Proofs.Json.Spelling
import NestedRules.Proofs.Json.Draft
import NestedRules.Proofs.Json.Skipping
import NestedRules.Proofs.Json.Checking
import NestedRules.Proofs.Session.Overlay
