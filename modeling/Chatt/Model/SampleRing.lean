import Chatt.Lib.Run

/-!
# The sample ring

`sample_ring.rs`, one atomic load or store, or one copied sample, at a time.  The positions count
samples from the start; there are fewer than 2^64 of them, so the words that hold them do not wrap.
-/

namespace Chatt.SampleRing

/-- Where the producer stands in `write_samples`. -/
inductive Producer (α : Type)
  | idle
  | loaded (src : List α) (write : ℕ)
  | copying (src : List α) (write count copied : ℕ)

/-- Where the consumer stands in `readable_span` and `advance_read`. -/
inductive Consumer (α : Type)
  | idle
  | loaded (write : ℕ)
  | holding (read depth : ℕ)
  | advancing (read : ℕ) (taken : List α)

/-- The ring and its two sides, with the samples reported as written and those read. -/
structure Ring (α : Type) where
  buf : List α
  read : ℕ
  write : ℕ
  producer : Producer α
  consumer : Consumer α
  accepted : List α
  consumed : List α

/-- The slot of sample `k` in a region of `count` samples, which wraps at most once. -/
def slotOf (capacity index count k : ℕ) : ℕ :=
  let start := index % capacity
  let first := min count (capacity - start)
  if k < first then start + k else k - first

inductive Action (α : Type)
  | writeSamples (src : List α)
  | loadRead
  | copySample
  | storeWrite
  | readableSpan
  | loadOwnRead
  | advanceRead (count : ℕ)
  | storeRead

namespace Ring

variable {α : Type} (r : Ring α)

def withCapacity (capacity : ℕ) (zero : α) : Ring α :=
  ⟨.replicate capacity zero, 0, 0, .idle, .idle, [], []⟩

/-- `ReadSpan::get`. -/
def get (read depth k : ℕ) : Option α :=
  if k < depth then r.buf[slotOf r.buf.length read depth k]? else none

def copy (src : List α) (write count copied : ℕ) (sample : α) : Ring α :=
  { r with
    buf := r.buf.set (slotOf r.buf.length write count copied) sample
    producer := .copying src write count (copied + 1) }

def publish (src : List α) (write count : ℕ) : Ring α :=
  { r with write := write + count, accepted := r.accepted ++ src.take count, producer := .idle }

def release (read : ℕ) (taken : List α) : Ring α :=
  { r with read := read + taken.length, consumed := r.consumed ++ taken, consumer := .idle }

/-- The step of the action, if its side is at it.  A consumer drops its span before it advances, by
no more than the span. -/
def next : Action α → Option (Ring α)
  | .writeSamples src =>
    match r.producer with
    | .idle => some { r with producer := .loaded src r.write }
    | _ => none
  | .loadRead =>
    match r.producer with
    | .loaded src write =>
      let free := r.buf.length - (write - r.read)
      let count := min src.length free
      some { r with producer := if count = 0 then .idle else .copying src write count 0 }
    | _ => none
  | .copySample =>
    match r.producer with
    | .copying src write count copied =>
      if copied < count then src[copied]?.map (r.copy src write count copied) else none
    | _ => none
  | .storeWrite =>
    match r.producer with
    | .copying src write count copied =>
      if copied = count then some (r.publish src write count) else none
    | _ => none
  | .readableSpan =>
    match r.consumer with
    | .idle => some { r with consumer := .loaded r.write }
    | _ => none
  | .loadOwnRead =>
    match r.consumer with
    | .loaded write => some { r with consumer := .holding r.read (write - r.read) }
    | _ => none
  | .advanceRead count =>
    match r.consumer with
    | .holding read depth =>
      if count ≤ depth then
        some { r with
          consumer := .advancing r.read ((List.range count).filterMap (r.get read depth)) }
      else none
    | _ => none
  | .storeRead =>
    match r.consumer with
    | .advancing read taken => some (r.release read taken)
    | _ => none

end Ring

end Chatt.SampleRing
