import QSAHiSparse.Foundation.Effects
import QSAHiSparse.Foundation.Dict
import QSAHiSparse.Foundation.Python
import QSAHiSparse.Foundation.Calls
import QSAHiSparse.Foundation.Lockstep
import QSAHiSparse.Foundation.Transitions
import QSAHiSparse.Foundation.SharedStorage
import QSAHiSparse.Foundation.Tally
import QSAHiSparse.Foundation.Memory
import QSAHiSparse.Foundation.Fallible
import QSAHiSparse.Ledger.Slots
import QSAHiSparse.Ledger.Outcomes
import QSAHiSparse.Ledger.Holders
import QSAHiSparse.Ledger.Invariant
import QSAHiSparse.Ledger.Stale
import QSAHiSparse.HostPrefix.Snapshot
import QSAHiSparse.HostPrefix.Cache
import QSAHiSparse.HostPrefix.Budget
import QSAHiSparse.HostPrefix.Readers
import QSAHiSparse.HostPrefix.Eviction
import QSAHiSparse.HostPrefix.Handles
import QSAHiSparse.HostPrefix.Lookup
import QSAHiSparse.HostPrefix.Ranks
import QSAHiSparse.Decode.Layout
import QSAHiSparse.Decode.Eager
import QSAHiSparse.Decode.EagerEffects
import QSAHiSparse.Decode.Kernels
import QSAHiSparse.Decode.KernelEffects
import QSAHiSparse.Decode.Agreement
import QSAHiSparse.Decode.Handoff
import QSAHiSparse.Decode.HandoffEffects
import QSAHiSparse.Decode.Forward
import QSAHiSparse.Decode.Selected
import QSAHiSparse.Decode.Transparency
import QSAHiSparse.Decode.ShortPrefixRuns
import QSAHiSparse.Runtime.Machine
import QSAHiSparse.Runtime.State
import QSAHiSparse.Runtime.Batches
import QSAHiSparse.Runtime.Handoff
import QSAHiSparse.Runtime.Replay
import QSAHiSparse.Runtime.Release
import QSAHiSparse.Runtime.Steady
import QSAHiSparse.Runtime.CopyQueue
import QSAHiSparse.Runtime.Awaited
import QSAHiSparse.Runtime.SecuredBatches
import QSAHiSparse.Runtime.SecuredHandoff
import QSAHiSparse.Runtime.SecuredReplay
import QSAHiSparse.Runtime.NoReuse
import QSAHiSparse.Runtime.Tenancy
import QSAHiSparse.Runtime.DecodeBatch
import QSAHiSparse.Runtime.Changes
import QSAHiSparse.Runtime.CallChanges
import QSAHiSparse.Runtime.BatchSafety
import QSAHiSparse.Runtime.Containment
import QSAHiSparse.Runtime.Reliable
import QSAHiSparse.Runtime.PendingReleases
import QSAHiSparse.Runtime.Deferred
import QSAHiSparse.Runtime.ReleaseCalls
import QSAHiSparse.Runtime.Retry
import QSAHiSparse.Foundation.Exchange
import QSAHiSparse.Foundation.Ownership
import QSAHiSparse.Foundation.History
import QSAHiSparse.Coordinator.Staging
import QSAHiSparse.Coordinator.Rounds
import QSAHiSparse.Coordinator.Handed
import QSAHiSparse.Coordinator.Admission
import QSAHiSparse.PrefixCache.State
import QSAHiSparse.PrefixCache.Copies
import QSAHiSparse.PrefixCache.Restore
import QSAHiSparse.PrefixCache.Capture
import QSAHiSparse.PrefixCache.Rollback
import QSAHiSparse.PrefixCache.Owned
import QSAHiSparse.PrefixCache.Drained
import QSAHiSparse.PrefixCache.Dated
import QSAHiSparse.PrefixCache.Kept
import QSAHiSparse.PrefixCache.RestoreKept
import QSAHiSparse.PrefixCache.CaptureKept
import QSAHiSparse.PrefixCache.RollbackKept
import QSAHiSparse.PrefixCache.Runs
import QSAHiSparse.PrefixCache.Balance
import QSAHiSparse.Foundation.Shares
import QSAHiSparse.Foundation.HashChain
import QSAHiSparse.Foundation.Segments
import QSAHiSparse.Foundation.BinarySearch
import QSAHiSparse.Foundation.StableSort
import QSAHiSparse.Kernels.Stripes
import QSAHiSparse.Kernels.WholeSlices
import QSAHiSparse.Kernels.Tensors
import QSAHiSparse.Kernels.StableAlign
import QSAHiSparse.Kernels.Buckets
import QSAHiSparse.Kernels.Alignment
import QSAHiSparse.Kernels.StableTopk
import QSAHiSparse.Kernels.TopkOracle
import QSAHiSparse.PrefixCache.ImageKeys
import QSAHiSparse.PrefixCache.PrefillPasses
import QSAHiSparse.Weights.PleLossless
import QSAHiSparse.Weights.PleReconstruct
import QSAHiSparse.Foundation.RadixSelect
import QSAHiSparse.Kernels.FastTopkExact
import QSAHiSparse.Kernels.CompactGather
import QSAHiSparse.Kernels.Descale
import QSAHiSparse.Patching.Seen
import QSAHiSparse.Backend.Stored
import QSAHiSparse.Backend.Offloaded
import QSAHiSparse.Backend.DescaledOnce
import QSAHiSparse.Kernels.SparseAttention
import QSAHiSparse.Foundation.GridBuffers
import QSAHiSparse.Kernels.HcMixStable
import QSAHiSparse.Kernels.HcMixExact
import QSAHiSparse.Writeback.Runs
import QSAHiSparse.Foundation.Allocation
import QSAHiSparse.HostPrefix.Lasting
import QSAHiSparse.PrefixCache.Carried
import QSAHiSparse.HostPrefix.Fitting
import QSAHiSparse.PrefixCache.CaptureCopies
import QSAHiSparse.PrefixCache.Provision
import QSAHiSparse.PrefixCache.CaptureReserves
import QSAHiSparse.PrefixCache.CaptureFits
import QSAHiSparse.PrefixCache.HandsOnce
import QSAHiSparse.Decode.Offloads
import QSAHiSparse.Decode.SelectedReads
