import Mathlib

/-!
# The replay window

`AntiReplay` (crates/rpc/src/crypto.rs:1184-1251) on a target with 64-bit words: a ring of 32
words, one bit for each of the last 2048 counters, and the highest counter accepted.
-/

namespace Chatt

/-- `REPLAY_BITLEN - REPLAY_WORD_BITS` -/
def replayWindowSize : UInt64 := 1984

structure AntiReplay where
  bitmap : Vector UInt64 32
  last : UInt64
  deriving DecidableEq

namespace AntiReplay

def new : AntiReplay := { bitmap := Vector.replicate 32 0, last := 0 }

/-- The ring slot of a word, `index & REPLAY_INDEX_MASK`. -/
def slot (index : UInt64) : Fin 32 :=
  ⟨(index &&& 31).toNat, by
    rw [UInt64.toNat_and]
    exact lt_of_le_of_lt Nat.and_le_right (by decide)⟩

/-- The bit of a counter in its word. -/
def bit (sequence : UInt64) : UInt64 := 1 <<< (sequence &&& 63)

def check (r : AntiReplay) (sequence : UInt64) : Bool :=
  if sequence > r.last then true
  else if r.last - sequence > replayWindowSize then false
  else r.bitmap[slot (sequence / 64)] &&& bit sequence == 0

/-- The words that come into the window are cleared. -/
def slide (r : AntiReplay) (sequence : UInt64) : AntiReplay :=
  let index := sequence / 64
  let currentIndex := r.last / 64
  let diff := index - currentIndex
  let bitmap :=
    if diff ≥ 32 then Vector.replicate 32 0
    else (List.range diff.toNat).foldl
      (fun bitmap i => bitmap.set (slot (currentIndex + UInt64.ofNat i + 1)) 0) r.bitmap
  { bitmap, last := sequence }

def update (r : AntiReplay) (sequence : UInt64) : AntiReplay × Bool :=
  if r.check sequence = false then (r, false)
  else
    let r := if sequence > r.last then r.slide sequence else r
    let index := slot (sequence / 64)
    ({ r with bitmap := r.bitmap.set index (r.bitmap[index] ||| bit sequence) }, true)

end AntiReplay

end Chatt
