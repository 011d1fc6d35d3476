import StreamWatch.Api.Codec
import StreamWatch.Api.Outage
import StreamWatch.Log.Panic
import StreamWatch.Main
import StreamWatch.Proofs.Binary64.Exact
import StreamWatch.Proofs.Binary64.Whole
import StreamWatch.Proofs.Binary64.Truncate
import StreamWatch.Proofs.Binary64.Order
import StreamWatch.Proofs.Binary64.Rounding
import StreamWatch.Proofs.Binary64.Shortest
import StreamWatch.Proofs.Text.Hex
import StreamWatch.Proofs.Text.Uuid
import StreamWatch.Proofs.Json.Lenient.Number
import StreamWatch.Proofs.Json.Lenient.Skip
import StreamWatch.Proofs.Json.Lenient.Codec
import StreamWatch.Proofs.Json.RoundTrip.Number
import StreamWatch.Proofs.Json.RoundTrip.Text
import StreamWatch.Proofs.Json.RoundTrip.Bracket
import StreamWatch.Proofs.Json.RoundTrip.Codec
import StreamWatch.Proofs.Json.Truncation.Scaled
import StreamWatch.Proofs.Json.Truncation.Reader
import StreamWatch.Proofs.Json.Truncation.Number
import StreamWatch.Proofs.Json.Truncation.Codec
import StreamWatch.Proofs.Json.Presentation.Grammar
import StreamWatch.Proofs.Json.Presentation.Single
import StreamWatch.Proofs.Json.Presentation.Bracket
import StreamWatch.Proofs.Json.Presentation.Skip
import StreamWatch.Proofs.Json.Presentation.Codec
import StreamWatch.Proofs.Json.Presentation.Record
import StreamWatch.Proofs.Json.Presentation.Rewriting
import StreamWatch.Proofs.Json.Sound.Single
import StreamWatch.Proofs.Json.Sound.Skip
import StreamWatch.Proofs.Json.Sound.Codec
import StreamWatch.Proofs.Event.Trailing
import StreamWatch.Proofs.Event.RoundTrip
import StreamWatch.Proofs.Event.Truncation
import StreamWatch.Proofs.Event.Presentation
import StreamWatch.Proofs.Roster.Step
import StreamWatch.Proofs.Roster.Watched
import StreamWatch.Proofs.Roster.Sound
import StreamWatch.Proofs.Roster.Honest
import StreamWatch.Proofs.Roster.Outcome
import StreamWatch.Proofs.Roster.Revival
import StreamWatch.Proofs.Roster.Lifetime
import StreamWatch.Proofs.Roster.Agreement
import StreamWatch.Proofs.Roster.Unnamed
import StreamWatch.Proofs.Roster.Limited
import StreamWatch.Proofs.Roster.Failures
import StreamWatch.Proofs.Roster.Isolation
import StreamWatch.Proofs.Roster.Redelivery
import StreamWatch.Proofs.Roster.Requests
import StreamWatch.Proofs.Roster.RunWide
import StreamWatch.Proofs.Roster.Settlement
import StreamWatch.Proofs.Roster.Ended
import StreamWatch.Proofs.Roster.Arrival
import StreamWatch.Proofs.Archive.Calls
import StreamWatch.Proofs.Json.Tree.Printable
import StreamWatch.Proofs.Json.Tree.Reading
import StreamWatch.Proofs.Json.Tree.RoundTrip
import StreamWatch.Proofs.Log.Tag
import StreamWatch.Proofs.Log.Sink
import StreamWatch.Proofs.Replay.Events
import StreamWatch.Proofs.Replay.Completion
import StreamWatch.Proofs.Replay.Malformed
import StreamWatch.Proofs.Replay.RoundTrip
import StreamWatch.Proofs.Replay.Account
import StreamWatch.Proofs.Replay.History
import StreamWatch.Proofs.Replay.Latest
import StreamWatch.Proofs.Replay.Selection
import StreamWatch.Proofs.Roster.Sides
import StreamWatch.Proofs.Roster.Losses
import StreamWatch.Proofs.Settings.Overlay
import StreamWatch.Proofs.Settings.Reading
import StreamWatch.Proofs.Settings.Unrelated
import StreamWatch.Proofs.Settings.Layered
import StreamWatch.Proofs.Settings.Variable
