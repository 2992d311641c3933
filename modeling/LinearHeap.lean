import LinearHeap.Proofs.AllOrNothing
import LinearHeap.Proofs.BitmapViews
import LinearHeap.Proofs.BoundarySimulation
import LinearHeap.Proofs.BufferIntegrity
import LinearHeap.Proofs.BulkCopies
import LinearHeap.Proofs.Checked.Requests
import LinearHeap.Proofs.ElementAccess
import LinearHeap.Proofs.FreedSpace
import LinearHeap.Proofs.GranuleAccounting
import LinearHeap.Proofs.JournalReplay
import LinearHeap.Proofs.LeastRoom
import LinearHeap.Proofs.MemoryEffect
import LinearHeap.Proofs.MonotoneAllocation
import LinearHeap.Proofs.Occupancy
import LinearHeap.Proofs.ReleaseOrder
import LinearHeap.Proofs.ReleaseOutcome
import LinearHeap.Proofs.RepeatedAllocation
import LinearHeap.Proofs.Shrinking
