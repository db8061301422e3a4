import QSAHiSparse.Foundation.Python
import QSAHiSparse.Ledger.Slots

namespace QSAHiSparse
namespace Runtime

open Foundation
open Ledger

/-!
# What the runtime asks of the device

The runtime submits work to two streams, records events on them, makes one
stream wait for an event of the other, and waits for an event or for a whole
stream itself.  It also calls code that is not modelled here: the event log, the
allocator's counters, the strict checks.  Every such call may raise.

The machine is a parameter of the runtime, so that one text of the runtime is
run on a queue that loses nothing but a device call, and on two streams that
advance at will.
-/

/-- The stream of the forwards, and the stream of the host copies. -/
inductive Stream where
  | compute
  | copy
deriving DecidableEq, Repr

/-- A recorded event: what was submitted to the stream before the record is its
first `position` items. -/
structure Mark where
  stream : Stream
  position : Nat
deriving DecidableEq, Repr

/-- The device work of a lease. -/
inductive Work where
  /-- The constructor zeroes the compact rows, the table row and the ring. -/
  | clearSlot (lease : QSAHiSparseLease)
  /-- The cache write of the token at `position`. -/
  | storeRow (lease : QSAHiSparseLease) (li : Nat) (position : Int)
  /-- The copies of the four ring rows to the hot rows of a block. -/
  | closeBlock (lease : QSAHiSparseLease) (li : Nat) (block : Int)
  /-- The resolver and the kernels after it. -/
  | resolve (lease : QSAHiSparseLease) (li : Nat) (seqLen : Int)
  /-- `pack_c4` of a chunk of the staging lane. -/
  | packChunk (lease : QSAHiSparseLease) (li : Nat) (start stop : Nat)
  /-- The open tail of the prompt goes to the ring. -/
  | stageTail (lease : QSAHiSparseLease) (li : Nat) (promptLen : Int)
  /-- `make_state`, the short prefix and the newest row. -/
  | stageHot (lease : QSAHiSparseLease) (li : Nat) (blocks : Int)
  /-- A packed chunk goes to its host records. -/
  | copyChunk (lease : QSAHiSparseLease) (li : Nat) (start stop : Nat)
  /-- The newest hot row goes to the host record of a block. -/
  | writeBack (lease : QSAHiSparseLease) (li : Nat) (block : Int)
deriving DecidableEq, Repr

/-- The lease whose rows the work reads and writes. -/
def Work.lease : Work -> QSAHiSparseLease
  | clearSlot lease => lease
  | storeRow lease _ _ => lease
  | closeBlock lease _ _ => lease
  | resolve lease _ _ => lease
  | packChunk lease _ _ _ => lease
  | stageTail lease _ _ => lease
  | stageHot lease _ _ => lease
  | copyChunk lease _ _ _ => lease
  | writeBack lease _ _ => lease

/-- The places of the source that call the device or other code. -/
inductive Site where
  | constructCache
  | deviceRows
  | routing
  | eventLog
  | storeRow
  | closeWait
  | closeBlock
  | closeProducer
  | writebackWait
  | copyBegin
  | writeback
  | writebackDone
  | selectWait
  | resolve
  | availableSize
  | packChunk
  | chunkProducer
  | chunkWait
  | chunkCopy
  | chunkDone
  | chunkSynchronize
  | chunkBytes
  | stageTail
  | stageHot
  | handoffDone
  | handoffSynchronize
  | handoffQuery
  | leaseSnapshot
  | indexOwnership
  | handoffDrain
  | graphWait
  | graphLengths
  | nativeKey
  | graphProducer
  | graphProducerSynchronize
  | graphCloseBytes
  | graphCopyWait
  | graphCopy
  | graphCopyDone
  | graphCopySynchronize
  | graphSelectedBytes
  | drainProducer
  | drainCopy
  | terminal
  | terminalSynchronize
  | copySynchronize
  | flushCheck
  | commit
  | stagingProducer
  | stagingWait
  | captureProducer
  | captureCopy
  | restoreCopy
  | restoreBytes
  | restoreState
deriving DecidableEq, Repr

/-- The calls that leave the runtime, over the state of a machine. -/
structure Machine (δ : Type) where
  submit : Site -> Stream -> Work -> Method δ PUnit
  record : Site -> Stream -> Method δ Mark
  waitEvent : Site -> Stream -> Mark -> Method δ PUnit
  synchronize : Site -> Mark -> Method δ PUnit
  drain : Site -> Stream -> Method δ PUnit
  /-- Code that is not modelled and answers nothing. -/
  outside : Site -> Method δ PUnit
  /-- Code that is not modelled and answers a condition. -/
  ask : Site -> Method δ Bool

end Runtime
end QSAHiSparse
