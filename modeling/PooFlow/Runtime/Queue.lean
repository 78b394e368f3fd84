import PooFlow.Foundation.BinarySearch
import PooFlow.Foundation.Guard
import PooFlow.Runtime.Types

namespace PooFlow

open Foundation

def sliceInBounds (offset length capacity : ℕ) : Prop :=
  offset ≤ capacity ∧ length ≤ capacity - offset

instance (offset length capacity : ℕ) : Decidable (sliceInBounds offset length capacity) :=
  inferInstanceAs (Decidable (_ ∧ _))

/-- A caller's buffer of `count` headers; the pointer may be null. -/
def viewHeaders (headers : Option (ℕ → EventHeader)) (count : ℕ) : List EventHeader :=
  (List.range count).map (headers.getD (fun _ => {}))

def sequencesOf (events : List PendingEvent) : List ℕ := events.map PendingEvent.sequence

def pendingLowerBound (q : EventQueue) (sequence : ℕ) : ℕ :=
  BinarySearch.lowerBound (sequencesOf q.pending) sequence

namespace EventQueue

def lastSequence? (q : EventQueue) : Option ℕ :=
  q.pending.getLast?.map PendingEvent.sequence

end EventQueue

/-- The validation loop of `publish_batch`. The order check is skipped for the
first header of an empty queue, where there is no `previous`. -/
def checkPublish (arenaCapacity : ℕ) : Option ℕ → List EventHeader → Except Status Unit
  | _, [] => .ok ()
  | previous, header :: rest => do
    guardElse (header.layoutVersion = layoutVersion ∧ header.reserved0 = 0) .malformedDescriptor
    guardElse (sliceInBounds header.payloadOffset header.payloadLength arenaCapacity)
      .payloadBounds
    guardElse (∀ p, previous = some p → p < header.sequence) .invalidState
    checkPublish arenaCapacity (some header.sequence) rest

def PendingEvent.published (arenaId arenaGeneration : ℕ) (header : EventHeader) : PendingEvent where
  header := header
  arenaId := arenaId
  arenaGeneration := arenaGeneration

namespace EventQueue

def publish (q : EventQueue) (arenaId arenaGeneration : ℕ) (headers : List EventHeader) :
    EventQueue :=
  { q with pending := q.pending ++ headers.map (PendingEvent.published arenaId arenaGeneration) }

def window (q : EventQueue) (arenaId arenaGeneration : ℕ) : List PendingEvent :=
  (q.pending.drop q.pollCursor).takeWhile (fun e =>
    !e.polled && e.arenaId == arenaId && e.arenaGeneration == arenaGeneration)

def poll (q : EventQueue) (arenaId arenaGeneration : ℕ) : EventQueue :=
  let produced := (q.window arenaId arenaGeneration).length
  { q with
    pending := q.pending.take q.pollCursor ++
      (q.window arenaId arenaGeneration).map (fun e => { e with polled := true }) ++
      q.pending.drop (q.pollCursor + produced)
    pollCursor := q.pollCursor + produced }

end EventQueue

/-- The largest payload end among the events, as `poll_batch` accumulates it. -/
def requiredPayload (events : List PendingEvent) : ℕ :=
  events.foldl (fun required e =>
    max required (e.header.payloadOffset + e.header.payloadLength)) 0

/-- Move the merge index past the events below `sequence`. -/
def advance (pending : List PendingEvent) (sequence index : ℕ) : ℕ :=
  index + ((pending.drop index).takeWhile (fun e => e.sequence < sequence)).length

/-- The item status that `submit_batch` gives to a header whose sequence was
found at `pending`, or nowhere. -/
def itemStatus (arenaId arenaGeneration : ℕ) (header : EventHeader) : Option PendingEvent → Status
  | none => .invalidArgument
  | some e =>
    if e.polled = false ∨ e.arenaId ≠ arenaId ∨ e.arenaGeneration ≠ arenaGeneration ∨
        e.header.correlationIdentity ≠ header.correlationIdentity then .invalidArgument
    else if e.accepted then .duplicateAccepted
    else .ok

structure SubmitProgress where
  pending : List PendingEvent
  index : ℕ
  statuses : List Status := []
  bitmap : List UInt8
  acceptedCount : ℕ := 0
  rejectedCount : ℕ := 0

namespace SubmitProgress

variable (arenaId arenaGeneration : ℕ)

/-- The event that the merge index meets for `header`. -/
def met (p : SubmitProgress) (header : EventHeader) : Option PendingEvent :=
  (p.pending[advance p.pending header.sequence p.index]?).filter
    (fun e => e.sequence = header.sequence)

def item (p : SubmitProgress) (header : EventHeader) : SubmitProgress :=
  let index := advance p.pending header.sequence p.index
  let status := itemStatus arenaId arenaGeneration header (p.met header)
  let i := p.statuses.length
  { pending :=
      if status = .ok then p.pending.modify index (fun e => { e with accepted := true })
      else p.pending
    index := if (p.met header).isSome then index + 1 else index
    statuses := p.statuses ++ [status]
    bitmap :=
      if status = .ok then p.bitmap.modify (i / 8) (· ||| (1 <<< UInt8.ofNat (i % 8)))
      else p.bitmap
    acceptedCount := if status = .ok then p.acceptedCount + 1 else p.acceptedCount
    rejectedCount := if status = .ok then p.rejectedCount else p.rejectedCount + 1 }

def items (p : SubmitProgress) (headers : List EventHeader) : SubmitProgress :=
  headers.foldl (item arenaId arenaGeneration) p

end SubmitProgress

/-- Bytes that a bitmap of `count` items needs. -/
def bitmapRequired (count : ℕ) : ℕ := count / 8 + if count % 8 ≠ 0 then 1 else 0

def EventQueue.submitStart (q : EventQueue) (headers : List EventHeader) : SubmitProgress where
  pending := q.pending
  index :=
    match headers with
    | [] => q.pending.length
    | header :: _ => pendingLowerBound q header.sequence
  bitmap := List.replicate (bitmapRequired headers.length) 0

def EventQueue.submit (q : EventQueue) (arenaId arenaGeneration : ℕ)
    (headers : List EventHeader) : SubmitProgress :=
  (q.submitStart headers).items arenaId arenaGeneration headers

def watermark (pending : List PendingEvent) (sequence : ℕ) : ℕ :=
  (pending.takeWhile (fun e => e.accepted)).foldl (fun mark e => max mark e.sequence) sequence

def acceptedOf (headers : List EventHeader) (statuses : List Status) : List ℕ :=
  ((headers.zip statuses).filter (fun item => item.2 = .ok)).map (fun item => item.1.sequence)

/-- What `batch_ack` marks for a lease of `arenaId` over `first … last`. -/
def PendingEvent.acknowledge (arenaId first last : ℕ) (e : PendingEvent) : PendingEvent :=
  if e.accepted = true ∧ e.acknowledged = false ∧ e.arenaId = arenaId ∧
      first ≤ e.sequence ∧ e.sequence ≤ last then { e with acknowledged := true }
  else e

def EventQueue.acknowledge (q : EventQueue) (arenaId first last : ℕ) : EventQueue :=
  let marked := q.pending.map (PendingEvent.acknowledge arenaId first last)
  let consumed := (marked.takeWhile (fun e => e.acknowledged)).length
  { q with pending := marked.drop consumed, pollCursor := q.pollCursor - consumed }

end PooFlow
