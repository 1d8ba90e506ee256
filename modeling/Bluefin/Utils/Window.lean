import Bluefin.Core.Header

/-!
# The window of acknowledged packet numbers (utils/window.rs)

The deque of packet numbers is a list. `binary_search` is used on a sorted
deque only; there it finds the number, or the index of the first larger one.
-/

namespace Bluefin
open Base

abbrev maxSlidingWindowSize : ℕ := 40000

structure SlidingWindow where
  smallestExpectedPacketNumber : UInt64
  orderedPacketNumbers : List UInt64
  deriving DecidableEq, Repr

structure SlidingWindowConsumeResult where
  largestPacketNumber : UInt64
  numAcksConsumed : UInt64
  deriving DecidableEq, Repr

namespace SlidingWindow

def new (smallestExpectedPacketNumber : UInt64) : SlidingWindow where
  smallestExpectedPacketNumber := smallestExpectedPacketNumber
  orderedPacketNumbers := []

/-- The number goes before the first larger one. -/
def insertSorted (packetNumber : UInt64) (numbers : List UInt64) : List UInt64 :=
  numbers.takeWhile (· < packetNumber) ++ packetNumber :: numbers.dropWhile (· < packetNumber)

/-- window.rs:30-67. -/
def insertPacketNumber (w : SlidingWindow) (packetNumber : UInt64) :
    BluefinResult Unit × SlidingWindow :=
  if packetNumber < w.smallestExpectedPacketNumber then (.err .unexpectedPacketNumberError, w)
  else if (packetNumber - w.smallestExpectedPacketNumber).toNat ≥ maxSlidingWindowSize then
    (.err (.bufferFullError "Sliding window buffer is full"), w)
  else match w.orderedPacketNumbers.getLast? with
    | none => (.ok (), { w with orderedPacketNumbers := [packetNumber] })
    | some last =>
      if packetNumber > last then
        (.ok (), { w with orderedPacketNumbers := w.orderedPacketNumbers ++ [packetNumber] })
      else if packetNumber = last then (.err .unexpectedPacketNumberError, w)
      else if packetNumber ∈ w.orderedPacketNumbers then (.err .unexpectedPacketNumberError, w)
      else (.ok (), { w with
        orderedPacketNumbers := insertSorted packetNumber w.orderedPacketNumbers })

/-- The range `base..=last`, empty if `last` has wrapped around below `base`. -/
def rangeInclusive (base last : UInt64) : List UInt64 :=
  (List.range (last.toNat + 1 - base.toNat)).map fun i => base + UInt64.ofNat i

/-- The slow path of `insert_range`: one number after the other, up to the first error. -/
def insertEach (w : SlidingWindow) : List UInt64 → BluefinResult Unit × SlidingWindow
  | [] => (.ok (), w)
  | n :: ns =>
    let (res, w) := w.insertPacketNumber n
    res.orReturn w fun _ => insertEach w ns

/-- The range is after the back of the deque. -/
def extendsCleanly (w : SlidingWindow) (base : UInt64) : Bool :=
  match w.orderedPacketNumbers.getLast? with
  | none => true
  | some back => decide (base > back)

/-- window.rs:92-132. -/
def insertRange (w : SlidingWindow) (base : UInt64) (count : UInt16) :
    BluefinResult Unit × SlidingWindow :=
  if count = 0 then (.ok (), w)
  else if base < w.smallestExpectedPacketNumber then (.err .unexpectedPacketNumberError, w)
  else
    let last := base + count.toUInt64 - 1
    if (last - w.smallestExpectedPacketNumber).toNat ≥ maxSlidingWindowSize then
      (.err (.bufferFullError "Sliding window buffer is full"), w)
    else if w.extendsCleanly base then
      (.ok (), { w with
        orderedPacketNumbers := w.orderedPacketNumbers ++ rangeInclusive base last })
    else w.insertEach (rangeInclusive base last)

/-- The loop of `consume`: the last number of the run that goes on from `lastPacketNumber`, and what
stays in the deque. -/
def consumeLoop (lastPacketNumber : UInt64) : List UInt64 → UInt64 × List UInt64
  | [] => (lastPacketNumber, [])
  | pNumber :: numbers =>
    if pNumber = lastPacketNumber + 1 then consumeLoop pNumber numbers
    else (lastPacketNumber, pNumber :: numbers)

/-- window.rs:138-173. -/
def consume (w : SlidingWindow) : Option SlidingWindowConsumeResult × SlidingWindow :=
  match w.orderedPacketNumbers with
  | [] => (none, w)
  | first :: rest =>
    if first > w.smallestExpectedPacketNumber then (none, w)
    else
      let (lastPacketNumber, numbers) := consumeLoop first rest
      (some ⟨lastPacketNumber, lastPacketNumber - w.smallestExpectedPacketNumber + 1⟩,
        ⟨lastPacketNumber + 1, numbers⟩)

end SlidingWindow

end Bluefin
