import HandleAlloc.Proofs.Heap.History
import HandleAlloc.Settings.Document
import HandleAlloc.Suite
import HandleAlloc.Proofs.Arena.Pages
import HandleAlloc.Proofs.Arena.Transition
import HandleAlloc.Proofs.Arena.Execution
import HandleAlloc.Proofs.Arena.Calls
import HandleAlloc.Proofs.Arena.Ledger
import HandleAlloc.Proofs.Arena.Discipline
import HandleAlloc.Proofs.Arena.Reclaim
import HandleAlloc.Proofs.Arena.Failure
import HandleAlloc.Proofs.Arena.Isolation
import HandleAlloc.Proofs.Arena.Reuse
import HandleAlloc.Proofs.Arena.Replay
import HandleAlloc.Proofs.Words
import HandleAlloc.Proofs.Heap.Quiet
import HandleAlloc.Proofs.Heap.Shadow
import HandleAlloc.Proofs.Heap.Validation
import HandleAlloc.Proofs.Arena.Session
import HandleAlloc.Proofs.Arena.Survival
import HandleAlloc.Proofs.Heap.Revalidation
import HandleAlloc.Proofs.Arena.Revalidation
import HandleAlloc.Proofs.Agreement
import HandleAlloc.Proofs.Logging
import HandleAlloc.Proofs.Heap.Resizing
import HandleAlloc.Proofs.Heap.Journal
import HandleAlloc.Proofs.FreeList.BestFit
import HandleAlloc.Proofs.Heap.Placement
import HandleAlloc.Proofs.Heap.Relocation
import HandleAlloc.Proofs.Arena.Placement
import HandleAlloc.Proofs.Arena.Resizing
import HandleAlloc.Proofs.Arena.Spare
import HandleAlloc.Proofs.Arena.Unwinding
import HandleAlloc.Proofs.Heap.Availability
import HandleAlloc.Proofs.Heap.Reversal
import HandleAlloc.Proofs.FreeList.Neighbours
import HandleAlloc.Proofs.HeaderCodec
import HandleAlloc.Proofs.Retention
