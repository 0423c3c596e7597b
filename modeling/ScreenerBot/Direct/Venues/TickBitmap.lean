import ScreenerBot.Library.ByteFields
import ScreenerBot.Library.Search
import ScreenerBot.Library.MachineInt

/-!
The bitmap of a Raydium CLMM pool's tick arrays, and the arrays a swap may touch.

The arithmetic is on `i32` values without overflow checks, as the crate is built.
-/
namespace ScreenerBot.Direct.Venues
open ScreenerBot.Library

def tickArraySize : ℤ := 60

def poolBitmapBits : ℤ := 1024

def extensionBlocks : ℕ := 14

def extensionBlockBits : ℤ := 512

def tickArraysPerSwap : ℕ := 3

abbrev Block := Vector ℕ 8

/-- The pool's own 1024 bits and the extension blocks on either side of them. -/
structure TickArrayBitmap where
  pool : Vector ℕ 16
  positive : List Block
  negative : List Block
  deriving DecidableEq

namespace TickArrayBitmap

/-- `from_pool_state`. -/
def fromPoolState (data : List ℕ) : Option TickArrayBitmap :=
  ((Vector.range 16).mapM fun index => u64At data (904 + index * 8)).map
    fun pool => { pool, positive := [], negative := [] }

/-- `pubkey_at`. -/
def pubkeyAt (data : List ℕ) (offset : ℕ) : Option (List ℕ) :=
  if offset + 32 ≤ data.length then some ((data.drop offset).take 32) else none

def blockAt (data : List ℕ) (offset : ℕ) : Option Block :=
  (Vector.range 8).mapM fun index => u64At data (offset + index * 8)

/-- The blocks read one after another, up to the first that the account does not hold. -/
def blocksFrom (data : List ℕ) (base : ℕ) : List Block :=
  (((List.range extensionBlocks).map fun i => blockAt data (base + i * 64)).takeWhile
    Option.isSome).filterMap id

/-- `with_extension`: another pool's account is ignored, a truncated one is read as far as it
goes. -/
def withExtension (bitmap : TickArrayBitmap) (poolId data : List ℕ) : TickArrayBitmap :=
  if pubkeyAt data 8 ≠ some poolId then bitmap else
    let positive := blocksFrom data 40
    if positive.length < extensionBlocks then
      { bitmap with positive := bitmap.positive ++ positive }
    else
      { bitmap with
        positive := bitmap.positive ++ positive
        negative := bitmap.negative ++ blocksFrom data (40 + extensionBlocks * 64) }

/-- A bitmap as the venue reads it: the pool's own words, with or without the extension. -/
inductive Decoded : TickArrayBitmap → Prop
  | pool {data bitmap} (h : fromPoolState data = some bitmap) : Decoded bitmap
  | extended {data bitmap} (h : fromPoolState data = some bitmap) (poolId extension : List ℕ) :
      Decoded (bitmap.withExtension poolId extension)

theorem blocksFrom_length (data : List ℕ) (base : ℕ) :
    (blocksFrom data base).length ≤ extensionBlocks := by
  unfold blocksFrom
  calc _ ≤ _ := List.length_filterMap_le _ _
    _ ≤ _ := (List.takeWhile_sublist _).length_le
    _ = extensionBlocks := by simp

theorem fromPoolState_blocks {data : List ℕ} {bitmap : TickArrayBitmap}
    (h : fromPoolState data = some bitmap) : bitmap.positive = [] ∧ bitmap.negative = [] := by
  obtain ⟨pool, -, rfl⟩ := Option.map_eq_some_iff.mp h
  simp

/-- No more blocks than the account has on each side. -/
theorem Decoded.blocks {bitmap : TickArrayBitmap} (h : Decoded bitmap) :
    bitmap.positive.length ≤ extensionBlocks ∧ bitmap.negative.length ≤ extensionBlocks := by
  cases h with
  | pool h =>
    obtain ⟨hpositive, hnegative⟩ := fromPoolState_blocks h
    simp [hpositive, hnegative]
  | extended h poolId extension =>
    obtain ⟨hpositive, hnegative⟩ := fromPoolState_blocks h
    have hread := blocksFrom_length extension
    unfold withExtension
    split_ifs with hid
    · simp [hpositive, hnegative]
    · simp only [hpositive, hnegative, List.nil_append]
      split_ifs
      · simp [hread]
      · simp [hread]

end TickArrayBitmap

/-- `ticks_per_array`. -/
def ticksPerArray (tickSpacing : ℕ) : ℤ := i32 (tickArraySize * tickSpacing)

/-- `pool_bitmap_reach`. -/
def poolBitmapReach (tickSpacing : ℕ) : ℤ :=
  i32 (ticksPerArray tickSpacing * (poolBitmapBits / 2))

/-- `tick_array_start_index`. -/
def tickArrayStartIndex (tick : ℤ) (tickSpacing : ℕ) : ℤ :=
  let span := ticksPerArray tickSpacing
  let index := tick.tdiv span
  let index := if tick < 0 ∧ tick.tmod span ≠ 0 then i32 (index - 1) else index
  i32 (index * span)

namespace TickArrayBitmap

/-- `is_initialised`. -/
def isInitialised (bitmap : TickArrayBitmap) (startIndex : ℤ) (tickSpacing : ℕ) : Bool :=
  let span := ticksPerArray tickSpacing
  if span = 0 then false else
    let arrayIndex := startIndex.tdiv span
    if -(poolBitmapBits / 2) ≤ arrayIndex ∧ arrayIndex < poolBitmapBits / 2 then
      wordBit (fun i => bitmap.pool.getD i 0) (arrayIndex + poolBitmapBits / 2).toNat
    else
      let (blocks, distance) :=
        if 0 ≤ arrayIndex then (bitmap.positive, arrayIndex - poolBitmapBits / 2)
        else (bitmap.negative, -arrayIndex - poolBitmapBits / 2 - 1)
      match blocks[(distance.tdiv extensionBlockBits).toNat]? with
      | none => false
      | some block =>
        wordBit (fun i => block.getD i 0) (distance.tmod extensionBlockBits).toNat

/-- How far from zero the scan goes. -/
def scanReach (tickSpacing : ℕ) : ℤ :=
  i32 (poolBitmapReach tickSpacing +
    i32 (i32 (ticksPerArray tickSpacing * extensionBlockBits) * extensionBlocks))

/-- The loop of `arrays_for_swap` from `start`, with `found` already pushed. -/
def scan (bitmap : TickArrayBitmap) (tickSpacing : ℕ) (step : ℤ) (hstep : step ≠ 0)
    (found : List ℤ) (start : ℤ) : List ℤ :=
  if found.length < tickArraysPerSwap ∧ i32 |start| ≤ scanReach tickSpacing then
    let found := if bitmap.isInitialised start tickSpacing then found ++ [start] else found
    match _h : checkedI32 (start + step) with
    | none => found
    | some next => scan bitmap tickSpacing step hstep found next
  else found
termination_by if step < 0 then (start + 2 ^ 31).toNat else (2 ^ 31 - start).toNat
decreasing_by
  obtain ⟨rfl, hlow, hhigh⟩ := checkedI32_eq_some.mp _h
  split_ifs <;> omega

def scanStep (tickSpacing : ℕ) (zeroForOne : Bool) : ℤ :=
  if zeroForOne then i32 (-ticksPerArray tickSpacing) else ticksPerArray tickSpacing

theorem scanStep_ne_zero {tickSpacing : ℕ} {zeroForOne : Bool}
    (h : ticksPerArray tickSpacing ≠ 0) : scanStep tickSpacing zeroForOne ≠ 0 := by
  unfold scanStep
  cases zeroForOne with
  | false => simpa using h
  | true =>
    intro hzero
    simp only [↓reduceIte] at hzero
    have hmod : (2 : ℤ) ^ 32 ∣ -ticksPerArray tickSpacing := Int.dvd_of_bmod_eq_zero hzero
    have hb := i32_bounds (tickArraySize * tickSpacing)
    obtain ⟨k, hk⟩ := hmod
    unfold ticksPerArray at h hk
    omega

/-- `arrays_for_swap`. -/
def arraysForSwap (bitmap : TickArrayBitmap) (tickCurrent : ℤ) (tickSpacing : ℕ)
    (zeroForOne : Bool) : List ℤ :=
  if h : ticksPerArray tickSpacing = 0 then [] else
    bitmap.scan tickSpacing (scanStep tickSpacing zeroForOne) (scanStep_ne_zero h) []
      (tickArrayStartIndex tickCurrent tickSpacing)

end TickArrayBitmap
end ScreenerBot.Direct.Venues
