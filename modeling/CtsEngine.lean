import CtsEngine.Block.LegResults
import CtsEngine.Block.PauseReader
import CtsEngine.Block.RecoveryLevel
import CtsEngine.Block.RemainingAdds
import CtsEngine.Concurrency.Limiter
import CtsEngine.Concurrency.WorkerRuns
import CtsEngine.ControlCapacity.Admission
import CtsEngine.Dca.NewestSave
import CtsEngine.Dca.SafeLadder
import CtsEngine.DirectOrder.Counting
import CtsEngine.DirectTrade.BlockLadders
import CtsEngine.DirectTrade.History
import CtsEngine.DiskSave.SaveOrder
import CtsEngine.EntryAdmission.SlotLocality
import CtsEngine.EntryHalt.HaltRuns
import CtsEngine.EntryProtection.FailClosed
import CtsEngine.ExposureCeiling.Stacking
import CtsEngine.FourHour.Recovery
import CtsEngine.HistoricCandles.Interleaving
import CtsEngine.HistoricCandles.ParsedCache
import CtsEngine.HistoricCandles.Windows
import CtsEngine.HistoricGate.Gate
import CtsEngine.History.Batch
import CtsEngine.History.RecentCloses
import CtsEngine.IdempotentList.Aggregates
import CtsEngine.IdempotentList.Append
import CtsEngine.InlineRedis.IndexRanges
import CtsEngine.InlineRedis.SortedSets
import CtsEngine.InlineRedis.Steps
import CtsEngine.KeyEviction.KeepsNewest
import CtsEngine.KeyScan.PageRuns
import CtsEngine.LifetimeSummary.Recordings
import CtsEngine.ListMembership.Calls
import CtsEngine.LiveOrder.AggregateFill
import CtsEngine.LiveOrder.Exposure
import CtsEngine.LiveOrder.LedgerRuns
import CtsEngine.LiveOrder.SetAllocation
import CtsEngine.LiveOrder.SlotLookup
import CtsEngine.LiveOrder.SlotRuns
import CtsEngine.LivePosition.QuantityLedger
import CtsEngine.LivePosition.Restart
import CtsEngine.LivePosition.SaveRuns
import CtsEngine.LivePosition.StageRotation
import CtsEngine.LivePosition.VenueClose
import CtsEngine.LiveVolume.Ceiling
import CtsEngine.LiveWal.Checkpointing
import CtsEngine.LiveWal.Compaction
import CtsEngine.MarginCall.Latch
import CtsEngine.PositionIndex.CallRuns
import CtsEngine.ProgressionLock.Lock
import CtsEngine.Protection.SlotAudit
import CtsEngine.Protection.StaleControls
import CtsEngine.RateLimiter.Runs
import CtsEngine.Refresh.IndexRuns
import CtsEngine.Refresh.SlotRuns
import CtsEngine.Refresh.SwitchVersions
import CtsEngine.ResponseCache.Invalidation
import CtsEngine.Results.Books
import CtsEngine.Results.LedgerPasses
import CtsEngine.SecondCandles.Paging
import CtsEngine.Selection.Balanced
import CtsEngine.Selection.Compaction
import CtsEngine.Selection.Materialization
import CtsEngine.SetOutcomes.Booked
import CtsEngine.Settings.StoredArrays
import CtsEngine.ShortRange.MakerExits
import CtsEngine.ShortRange.ReplayExits
import CtsEngine.Signal.AdmissionRuns
import CtsEngine.Snapshot.Truncation
import CtsEngine.TrackedExposure.Attribution
import CtsEngine.TradeHistory.Agreement
import CtsEngine.TradeHistory.Keeping
import CtsEngine.VenueReply.FillPoll
