import Chronicle.Matcher.Invariants
import Chronicle.Polled.DistinctInstants
import Chronicle.Pipeline.MaximumExclusion
import Chronicle.Pipeline.ConcurrentUsage
import Chronicle.Pipeline.CollapseCoverage
import Chronicle.Pipeline.MidnightSplit
import Chronicle.Source.StudySplit
import Chronicle.Screens.TieOrder
import Chronicle.Persistence.DecodeCaches
import Chronicle.Pipeline.ScreenStops
import Chronicle.Source.TimeColumns
import Chronicle.Credit.AliveWindows
import Chronicle.Credit.ScreenCoverage
import Chronicle.Matcher.Gesis
import Chronicle.Matcher.OpenersContract
import Chronicle.Pipeline.DayCoverage
import Chronicle.Pipeline.ElapsedTimes
import Chronicle.MaximumDuration.Conservation
import Chronicle.Persistence.PersistedStrings
import Chronicle.Pipeline.EyesEpisodes
import Chronicle.Jcs.Serializer
import Chronicle.Eyes.GapAccounting
import Chronicle.Screens.CapabilityEvidence
import Chronicle.Output.FormulaNeutralizer
import Chronicle.Payloads.Bytes
import Chronicle.Checkpoint.Reorder
import Chronicle.Persistence.ReconstructionRows
import Chronicle.Checkpoint.RowMemos
import Chronicle.Eyes.PickupHoles
import Chronicle.Adapters.IntervalUnion
import Chronicle.Adapters.ShortOffBridge
import Chronicle.Adapters.NotificationSeenTime
import Chronicle.Adapters.EmaScreenSessions
import Chronicle.Checkpoint.Fingerprints
import Chronicle.Payloads.StoreFailures
import Chronicle.Adapters.NetDuration
import Chronicle.Screens.BoundaryAccounts
import Chronicle.Screens.ReturnedReceipts
import Chronicle.Pipeline.ParticipantMatching
import Chronicle.Output.AppTables
import Chronicle.Pipeline.CoUsage
import Chronicle.Workflow.EvidenceJournal
