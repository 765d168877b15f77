import WeatherStation.Rain.Counts
import WeatherStation.Rain.Window
import WeatherStation.Text.Decimal

/-!
# Resampling

The rain of a report, spread over buckets of another width that are aligned to 1970. A slot is at
most as wide as a bucket, so it meets at most two of them and is split in proportion to time.

* `ensureSupported`: which widths can be resampled to which.
* `shares`: the buckets that one slot meets, with their parts of its rain.
* `resample`: the rain of all slots, bucket by bucket.
* `affectedHours`: the hours that hold a bucket.
-/

namespace WeatherStation

/-- Why a report cannot be resampled. -/
inductive ResampleError where
  /-- The buckets would be finer than the slots. -/
  | unsupportedDownsampling (source target : UInt32)
  /-- A slot or a bucket has no width. -/
  | invalidInterval
  /-- A slot lies outside the range of instants. -/
  | timestampOutOfRange
  deriving DecidableEq

/-- The wording of a refusal to resample. -/
def ResampleError.message : ResampleError → String
  | .unsupportedDownsampling source target =>
    "Cannot resample a " ++ Text.natText source.toNat ++ "s histogram to "
      ++ Text.natText target.toNat ++ "s buckets: downsampling to a finer grain is not supported"
  | .invalidInterval => "Histogram intervals must be positive"
  | .timestampOutOfRange => "Histogram slot timestamp is out of range"

/-- Checks that slots of `source` seconds can be resampled to buckets of `target` seconds. -/
def ensureSupported (source target : UInt32) : Except ResampleError Unit :=
  if source = 0 ∨ target = 0 then .error .invalidInterval
  else if source > target then .error (.unsupportedDownsampling source target)
  else .ok ()

variable {α : Type} [Quantity α]

/-- The starts of the buckets that the slot `[start, start + source)` meets, each with its part of
    the slot's rain. -/
def shares (source target start : Int) (rain : α) : List (Int × α) :=
  let first := start / target * target
  let last := (start + source - 1) / target * target
  if first = last then [(first, rain)]
  else
    let part := Quantity.ofInt (last - start) / Quantity.ofInt source
    [(first, rain * part), (last, rain * (1 - part))]

/-- Adds rain to the bucket that starts at a second, if the calendar reaches so far. -/
def addRain (buckets : Buckets α) (share : Int × α) : Except ResampleError (Buckets α) :=
  match Instant.ofSeconds? share.1 with
  | some t => .ok (buckets.insert t ((buckets.find? t).getD 0 + share.2))
  | none => .error .timestampOutOfRange

/-- Spreads the rain of one slot over buckets. -/
def spreadSlot (c : RainCounts α) (unitValue : α) (target : UInt32) (buckets : Buckets α)
    (slot : UInt32 × UInt32) : Except ResampleError (Buckets α) :=
  let start := c.start.seconds + slot.1.toNat * c.interval.toNat
  let rain := Quantity.ofNat slot.2.toNat * unitValue
  (shares c.interval.toNat target.toNat start rain).foldlM addRain buckets

/-- The rain of a report in buckets of `target` seconds. Slots without tips and slots beyond the
    declared number have no part in it. -/
def resample (c : RainCounts α) (unitValue : α) (target : UInt32) :
    Except (Failure ResampleError) (Buckets α) := do
  (ensureSupported c.interval target).mapError .refused
  let slots ← c.slotCount.mapError .overflow
  let wet := c.units.entries.filter fun s => s.1 < slots ∧ s.2 ≠ 0
  (wet.foldlM (spreadSlot c unitValue target) SortedMap.empty).mapError .refused

/-- The starts of the hours that hold the start of a bucket, as far as it can be truncated. -/
def affectedHours (buckets : Buckets α) : SortedSet Instant :=
  SortedSet.ofList (buckets.keys.filterMap (·.truncate? 3600))

end WeatherStation
