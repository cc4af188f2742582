import Almanac.Cache.Outage
import Almanac.Cache.Rounds
import Almanac.Main
import Almanac.Proofs.Cache.SingleFlight
import Almanac.Proofs.Cache.Transparency
import Almanac.Proofs.Pipeline.Transparency
import Almanac.Proofs.Cache.Epochs
import Almanac.Proofs.Cache.OrderedTier
import Almanac.Proofs.Cache.Outcomes
import Almanac.Proofs.Cache.Registration
import Almanac.Proofs.Cache.Rounds
import Almanac.Proofs.Ranking.Truncation
import Almanac.Proofs.Ranking.Independence
import Almanac.Proofs.Ranking.Location
import Almanac.Proofs.Ranking.Order
import Almanac.Proofs.Decimal.Shortest
import Almanac.Proofs.Json.Numerals
import Almanac.Proofs.Json.Records
import Almanac.Proofs.Document.View
import Almanac.Proofs.Pipeline.Promptness
import Almanac.Proofs.Pipeline.Snapshot
import Almanac.Proofs.CommandLine.Answers
import Almanac.Proofs.Settings.Layers
import Almanac.Proofs.Settings.Saving
import Almanac.Proofs.Pipeline.Shutdown
import Almanac.Proofs.Fetch.Liveness
import Almanac.Proofs.Ranking.Nearness
import Almanac.Proofs.Ranking.Importance
import Almanac.Proofs.Cache.Record
import Almanac.Proofs.Cache.Counters
import Almanac.Proofs.Cache.FreshEntries
import Almanac.Proofs.Cache.Likeness
import Almanac.Proofs.Cache.FailedRequest
import Almanac.Proofs.Ranking.Steadiness
import Almanac.Proofs.Ranking.Begun
import Almanac.Proofs.Ranking.Published
import Almanac.Proofs.Cache.Separation
import Almanac.Proofs.Profile.Canonical
import Almanac.Proofs.Ranking.Respelling
import Almanac.Proofs.Document.TornChart
import Almanac.Proofs.Document.Rearranged
import Almanac.Proofs.Cache.Sweeps
import Almanac.Proofs.Calendar.DateReading
