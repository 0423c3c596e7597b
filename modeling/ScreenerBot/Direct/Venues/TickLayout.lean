import ScreenerBot.Direct.Venues.TickBitmap

/-! The bitmap of tick arrays against Raydium's layout of it. -/
namespace ScreenerBot.Direct.Venues
open ScreenerBot.Library

namespace TickArrayBitmap

def bitOf (words : ℕ → ℕ) (bit : ℕ) : Bool := (words (bit / 64)).testBit (bit % 64)

def blockBit (blocks : List Block) (block bit : ℕ) : Bool :=
  match blocks[block]? with
  | none => false
  | some words => bitOf (fun i => words.getD i 0) bit

/-- The bit of the array of index `i`. -/
def storedBit (bitmap : TickArrayBitmap) (i : ℤ) : Bool :=
  if -512 ≤ i ∧ i < 512 then bitOf (fun j => bitmap.pool.getD j 0) (i + 512).toNat
  else if 512 ≤ i then blockBit bitmap.positive (i / 512 - 1).toNat (i % 512).toNat
  else blockBit bitmap.negative (-(i / 512) - 2).toNat (i % 512).toNat

/-- Whether an array exists; a pool without a tick spacing has none. -/
def marked (bitmap : TickArrayBitmap) (tickSpacing : ℕ) (i : ℤ) : Bool :=
  tickSpacing ≠ 0 && bitmap.storedBit i

/-- The index of the array that holds a tick. -/
def arrayIndex (tick : ℤ) (tickSpacing : ℕ) : ℤ := tick / (60 * tickSpacing)

/-- The array `k` places on in the direction of the swap. -/
def ahead (tick : ℤ) (tickSpacing : ℕ) (zeroForOne : Bool) (k : ℕ) : ℤ :=
  arrayIndex tick tickSpacing + (if zeroForOne then -1 else 1) * k

/-- The `i32` values of a scan are the exact ones. -/
structure Unwrapped (tick : ℤ) (tickSpacing : ℕ) : Prop where
  span : ticksPerArray tickSpacing = 60 * tickSpacing
  reach : scanReach tickSpacing = 60 * tickSpacing * 512 + 60 * tickSpacing * 512 * 14
  start : tickArrayStartIndex tick tickSpacing = arrayIndex tick tickSpacing * (60 * tickSpacing)
  magnitude : ∀ i : ℤ, i32 (i * (60 * tickSpacing)) = i * (60 * tickSpacing) →
    i32 |i * (60 * tickSpacing)| = |i * (60 * tickSpacing)|

/-- The bitmap is read as Raydium writes it. -/
structure AgreesWithLayout (bitmap : TickArrayBitmap) (tick : ℤ) (tickSpacing : ℕ)
    (zeroForOne : Bool) : Prop where
  reads : ∀ i : ℤ, i32 (i * (60 * tickSpacing)) = i * (60 * tickSpacing) →
    bitmap.isInitialised (i * (60 * tickSpacing)) tickSpacing = bitmap.marked tickSpacing i
  unwrapped : Unwrapped tick tickSpacing
  firstArrays : ∃ ks, FirstHits (fun k =>
      bitmap.marked tickSpacing (ahead tick tickSpacing zeroForOne k)) tickArraysPerSwap ks ∧
    bitmap.arraysForSwap tick tickSpacing zeroForOne =
      ks.map fun k => ahead tick tickSpacing zeroForOne k * (60 * tickSpacing)

/-- Every negative block reads the same from either end. -/
def Mirrored (bitmap : TickArrayBitmap) : Prop :=
  ∀ block bit, bit < 512 →
    blockBit bitmap.negative block bit = blockBit bitmap.negative block (511 - bit)

/-- What a bitmap, a spacing and a tick must be for the reading to agree. -/
structure Readable (bitmap : TickArrayBitmap) (tick : ℤ) (tickSpacing : ℕ)
    (zeroForOne : Bool) : Prop where
  spacing : tickSpacing ≤ 4660
  start : -2 ^ 31 ≤ arrayIndex tick tickSpacing * (60 * tickSpacing)
  mirrored : bitmap.Mirrored
  within : |arrayIndex tick tickSpacing| ≤ 7680 ∨ (zeroForOne = true ↔ tick < 0) ∨
    ∀ i, bitmap.storedBit i = false

theorem ticksPerArray_eq {s : ℕ} (hs : s < 2 ^ 16) : ticksPerArray s = 60 * s := by
  unfold ticksPerArray tickArraySize
  rw [i32_eq_self_iff]
  omega

theorem poolBitmapReach_eq {s : ℕ} (hs : s < 2 ^ 16) : poolBitmapReach s = 60 * s * 512 := by
  unfold poolBitmapReach
  rw [ticksPerArray_eq hs]
  norm_num only [poolBitmapBits]
  rw [i32_eq_self_iff]
  omega

theorem scanReach_eq_iff {s : ℕ} (hs : s < 2 ^ 16) :
    scanReach s = 60 * s * 512 + 60 * s * 512 * 14 ↔ s ≤ 4660 := by
  have hreach : scanReach s =
      i32 (60 * s * 512 + i32 (i32 (60 * s * 512) * (14 : ℕ))) := by
    unfold scanReach
    rw [ticksPerArray_eq hs, poolBitmapReach_eq hs]
    rfl
  constructor
  · intro h
    have hb := i32_bounds (60 * s * 512 + i32 (i32 (60 * s * 512) * (14 : ℕ)))
    rw [← hreach, h] at hb
    omega
  · intro h
    have h1 : i32 (60 * (s : ℤ) * 512) = 60 * s * 512 := by rw [i32_eq_self_iff]; omega
    have h2 : i32 (60 * (s : ℤ) * 512 * (14 : ℕ)) = 60 * s * 512 * 14 := by
      push_cast
      rw [i32_eq_self_iff]
      omega
    rw [hreach, h1, h2, i32_eq_self_iff]
    omega

/-- The adjusted quotient is the floor. -/
theorem floor_of_tdiv {t d : ℤ} (hd : 0 < d) :
    (if t < 0 ∧ t.tmod d ≠ 0 then t.tdiv d - 1 else t.tdiv d) = t / d := by
  have hdvd : d ∣ t ↔ t.tmod d = 0 := Int.dvd_iff_tmod_eq_zero
  rw [Int.tdiv_eq_ediv, Int.sign_eq_one_of_pos hd]
  by_cases h : t < 0 ∧ t.tmod d ≠ 0
  · have hexact : ¬ (0 ≤ t ∨ d ∣ t) := by
      rw [hdvd]
      omega
    rw [if_pos h, if_neg hexact]
    omega
  · have hexact : 0 ≤ t ∨ d ∣ t := by
      rw [hdvd]
      omega
    rw [if_neg h, if_pos hexact]
    omega

theorem tickArrayStartIndex_eq {s : ℕ} {tick : ℤ} (hs : s < 2 ^ 16) (h0 : s ≠ 0)
    (htick : i32 tick = tick) :
    tickArrayStartIndex tick s = i32 (arrayIndex tick s * (60 * s)) := by
  have hspan : (0 : ℤ) < 60 * s := by omega
  obtain ⟨hlow, hhigh⟩ := i32_eq_self_iff.mp htick
  have hfloor := floor_of_tdiv (t := tick) hspan
  have hfits : -2 ^ 31 ≤ tick / (60 * s) := by
    apply Int.le_ediv_of_mul_le hspan
    nlinarith
  simp only [tickArrayStartIndex, arrayIndex, ticksPerArray_eq hs]
  congr 2
  rw [← hfloor]
  split_ifs with h
  · rw [if_pos h] at hfloor
    rw [i32_eq_self_iff, hfloor]
    have : tick / (60 * s) < 0 := Int.ediv_neg_of_neg_of_pos h.1 hspan
    omega
  · rfl

theorem start_exact {s : ℕ} {tick : ℤ} (htick : i32 tick = tick)
    (hstart : -2 ^ 31 ≤ arrayIndex tick s * (60 * s)) :
    i32 (arrayIndex tick s * (60 * s)) = arrayIndex tick s * (60 * s) := by
  obtain ⟨_, hhigh⟩ := i32_eq_self_iff.mp htick
  rw [i32_eq_self_iff]
  by_cases h0 : (60 * s : ℤ) = 0
  · rw [h0]
    simp
  · have hle : arrayIndex tick s * (60 * s) ≤ tick := Int.ediv_mul_le tick h0
    omega

theorem arrayIndex_neg {s : ℕ} {tick : ℤ} (h0 : s ≠ 0) : arrayIndex tick s < 0 ↔ tick < 0 := by
  have hspan : (0 : ℤ) < 60 * s := by omega
  constructor
  · intro h
    by_contra hnonneg
    have : 0 ≤ arrayIndex tick s := Int.ediv_nonneg (by omega) hspan.le
    omega
  · intro h
    exact Int.ediv_neg_of_neg_of_pos h hspan

theorem isInitialised_eq {s : ℕ} (hs : s < 2 ^ 16) (h0 : s ≠ 0) (bitmap : TickArrayBitmap)
    (i : ℤ) : bitmap.isInitialised (i * (60 * s)) s =
      if -512 ≤ i ∧ i < 512 then bitOf (fun j => bitmap.pool.getD j 0) (i + 512).toNat
      else if 512 ≤ i then blockBit bitmap.positive (i / 512 - 1).toNat (i % 512).toNat
      else blockBit bitmap.negative (-(i / 512) - 2).toNat (511 - i % 512).toNat := by
  have hspan : (60 * s : ℤ) ≠ 0 := by omega
  have hindex : (i * (60 * s)).tdiv (60 * s) = i := Int.mul_tdiv_cancel i hspan
  simp only [isInitialised, ticksPerArray_eq hs, if_neg hspan, hindex, poolBitmapBits,
    extensionBlockBits, wordBit_eq_testBit]
  norm_num only
  by_cases hpool : -512 ≤ i ∧ i < 512
  · simp only [hpool, and_self, ↓reduceIte, bitOf]
  · by_cases hpositive : 512 ≤ i
    · have hblock : (i - 512).tdiv 512 = i / 512 - 1 := by
        rw [Int.tdiv_eq_ediv_of_nonneg (by omega)]
        omega
      have hbit : (i - 512).tmod 512 = i % 512 := by
        rw [Int.tmod_eq_emod_of_nonneg (by omega)]
        omega
      have hnonneg : 0 ≤ i := by omega
      simp only [hpool, ↓reduceIte, hpositive, hnonneg, hblock, hbit]
      unfold blockBit bitOf
      cases bitmap.positive[(i / 512 - 1).toNat]? with
      | none => rfl
      | some block => rfl
    · have hblock : (-i - 512 - 1).tdiv 512 = -(i / 512) - 2 := by
        rw [Int.tdiv_eq_ediv_of_nonneg (by omega)]
        omega
      have hbit : (-i - 512 - 1).tmod 512 = 511 - i % 512 := by
        rw [Int.tmod_eq_emod_of_nonneg (by omega)]
        omega
      have hneg : ¬ 0 ≤ i := by omega
      simp only [hpool, ↓reduceIte, hpositive, hneg, hblock, hbit]
      unfold blockBit bitOf
      cases bitmap.negative[(-(i / 512) - 2).toNat]? with
      | none => rfl
      | some block => rfl

/-- The reading agrees with the layout when the negative blocks are the same from either end. -/
theorem isInitialised_of_mirrored {s : ℕ} (hs : s < 2 ^ 16) {bitmap : TickArrayBitmap}
    (h : bitmap.Mirrored) (i : ℤ) :
    bitmap.isInitialised (i * (60 * s)) s = bitmap.marked s i := by
  by_cases h0 : s = 0
  · subst h0
    simp [isInitialised, marked, ticksPerArray_eq]
  · have hbit : (511 - i % 512).toNat = 511 - (i % 512).toNat := by omega
    rw [isInitialised_eq hs h0, hbit, ← h _ _ (by omega)]
    simp [marked, storedBit, h0]

/-- A block read right at every array is the same from either end. -/
theorem mirrored_of_reads {s : ℕ} (hs : s ≤ 4660) (h0 : s ≠ 0) {bitmap : TickArrayBitmap}
    (hblocks : bitmap.negative.length ≤ extensionBlocks)
    (h : ∀ i : ℤ, i32 (i * (60 * s)) = i * (60 * s) →
      bitmap.isInitialised (i * (60 * s)) s = bitmap.marked s i) : bitmap.Mirrored := by
  intro block bit hbit
  by_cases hblock : block < extensionBlocks
  · -- The array at this bit of this block.
    have hi := h (-512 * (block + 2) + bit) (by
      rw [i32_eq_self_iff]
      unfold extensionBlocks at hblock
      constructor <;> nlinarith)
    rw [isInitialised_eq (by omega) h0] at hi
    have hfloor : (-512 * ((block : ℤ) + 2) + bit) / 512 = -(block + 2) := by omega
    have hmod : (-512 * ((block : ℤ) + 2) + bit) % 512 = bit := by omega
    have hout : ¬ (-512 ≤ -512 * ((block : ℤ) + 2) + bit ∧ -512 * ((block : ℤ) + 2) +
        bit < 512) := by
      omega
    have hneg : ¬ 512 ≤ -512 * ((block : ℤ) + 2) + bit := by omega
    have hnat : (-(-((block : ℤ) + 2)) - 2).toNat = block := by omega
    have hbits : (511 - (bit : ℤ)).toNat = 511 - bit := by omega
    simp only [marked, storedBit, hfloor, hmod, hout, hneg, ↓reduceIte, hnat, hbits, h0, ne_eq,
      not_false_eq_true, decide_true, Bool.true_and, Int.toNat_natCast] at hi
    exact hi.symm
  · have hnone : bitmap.negative[block]? = none := List.getElem?_eq_none (by omega)
    simp [blockBit, hnone]

/-- Nothing is stored beyond the extension. -/
theorem storedBit_bounds {bitmap : TickArrayBitmap}
    (hpositive : bitmap.positive.length ≤ extensionBlocks)
    (hnegative : bitmap.negative.length ≤ extensionBlocks) {i : ℤ}
    (h : bitmap.storedBit i = true) : -7680 ≤ i ∧ i < 7680 := by
  unfold extensionBlocks at hpositive hnegative
  by_contra hout
  have hpool : ¬ (-512 ≤ i ∧ i < 512) := by omega
  by_cases hside : 512 ≤ i
  · have hnone : bitmap.positive[(i / 512 - 1).toNat]? = none :=
      List.getElem?_eq_none (by omega)
    simp only [storedBit, hpool, hside, ↓reduceIte, blockBit, hnone] at h
    exact Bool.false_ne_true h
  · have hnone : bitmap.negative[(-(i / 512) - 2).toNat]? = none :=
      List.getElem?_eq_none (by omega)
    simp only [storedBit, hpool, hside, ↓reduceIte, blockBit, hnone] at h
    exact Bool.false_ne_true h

theorem scanStep_eq {s : ℕ} (hs : s < 2 ^ 16) (zeroForOne : Bool) :
    scanStep s zeroForOne = (if zeroForOne then -1 else 1) * (60 * s) := by
  have hneg : i32 (-(60 * (s : ℤ))) = -(60 * s) := by
    rw [i32_eq_self_iff]
    omega
  unfold scanStep
  rw [ticksPerArray_eq hs, hneg]
  cases zeroForOne with
  | true => simp
  | false => simp

section Scan
variable {bitmap : TickArrayBitmap} {s : ℕ} {zeroForOne : Bool}

/-- The magnitude of an array's start never wraps: no multiple of 60 is `i32::MIN`. -/
theorem magnitude_exact {i : ℤ} (h : i32 (i * (60 * s)) = i * (60 * s)) :
    i32 |i * (60 * s)| = |i * (60 * s)| := by
  have hmul : (15 : ℤ) ∣ i * (60 * s) := ⟨i * (4 * s), by ring⟩
  obtain ⟨hlow, hhigh⟩ := i32_eq_self_iff.mp h
  have hnonneg := abs_nonneg (i * (60 * (s : ℤ)))
  rw [i32_eq_self_iff]
  constructor
  · omega
  · rw [abs_lt]
    omega

theorem within_reach (h0 : s ≠ 0) {i : ℤ} : |i * (60 * s)| ≤ 7680 * (60 * s) ↔ |i| ≤ 7680 := by
  have hspan : (0 : ℤ) < 60 * s := by omega
  rw [abs_mul, abs_of_pos hspan]
  exact mul_le_mul_iff_left₀ hspan

theorem start_fits (hs : s ≤ 4660) {i : ℤ} (hi : |i| ≤ 7680) :
    -2 ^ 31 ≤ i * (60 * s) ∧ i * (60 * s) < 2 ^ 31 := by
  obtain ⟨hlow, hhigh⟩ := abs_le.mp hi
  constructor <;> nlinarith

/-- One turn of the loop. -/
theorem scan_eq (hstep : scanStep s zeroForOne ≠ 0) (found : List ℤ) (start : ℤ) :
    bitmap.scan s (scanStep s zeroForOne) hstep found start =
      if found.length < tickArraysPerSwap ∧ i32 |start| ≤ scanReach s then
        let found' := if bitmap.isInitialised start s then found ++ [start] else found
        match checkedI32 (start + scanStep s zeroForOne) with
        | none => found'
        | some next => bitmap.scan s (scanStep s zeroForOne) hstep found' next
      else found := by
  rw [scan]
  split_ifs with hturn hmark
  · split
    · simp [*]
    · simp [*]
  · split
    · simp [*]
    · simp [*]
  · rfl

/-- From an array the scan finds the first marked ones of the direction, as many as are still
asked for. -/
theorem scan_spec (hs : s ≤ 4660) (h0 : s ≠ 0)
    (hread : ∀ i : ℤ, bitmap.isInitialised (i * (60 * s)) s = bitmap.marked s i)
    (hbound : ∀ i : ℤ, bitmap.marked s i = true → -7680 ≤ i ∧ i < 7680)
    (hstep : scanStep s zeroForOne ≠ 0) (dir : ℤ) (hdir : dir = if zeroForOne then -1 else 1) :
    ∀ (n : ℕ) (i : ℤ) (found : List ℤ), 7681 - dir * i ≤ n → -7680 ≤ dir * i →
      i32 (i * (60 * s)) = i * (60 * s) → found.length ≤ tickArraysPerSwap →
      ∃ ks, FirstHits (fun k : ℕ => bitmap.marked s (i + dir * k) = true)
          (tickArraysPerSwap - found.length) ks ∧
        bitmap.scan s (scanStep s zeroForOne) hstep found (i * (60 * s)) =
          found ++ ks.map fun k : ℕ => (i + dir * k) * (60 * s) := by
  have hcases : dir = 1 ∨ dir = -1 := by
    cases zeroForOne with
    | true => simp [hdir]
    | false => simp [hdir]
  have hreach : scanReach s = 7680 * (60 * s) := by
    rw [(scanReach_eq_iff (by omega)).mpr hs]
    ring
  -- Beyond the reach nothing is marked and the loop ends.
  have hbeyond : ∀ i : ℤ, 7680 < dir * i → ∀ k : ℕ, ¬ bitmap.marked s (i + dir * k) = true := by
    intro i hi k hk
    have := hbound _ hk
    rcases hcases with rfl | rfl <;> omega
  intro n
  induction n with
  | zero =>
    intro i found hi _ hfits _
    refine ⟨[], FirstHits.nowhere (hbeyond i (by omega)), ?_⟩
    have hout : ¬ |i| ≤ 7680 := by
      rw [abs_le]
      rcases hcases with rfl | rfl <;> omega
    rw [scan, if_neg]
    · simp
    · rw [magnitude_exact hfits, hreach, within_reach h0]
      exact fun h => hout h.2
  | succ n ih =>
    intro i found hi hlow hfits hfound
    by_cases hfull : found.length = tickArraysPerSwap
    · refine ⟨[], ?_, ?_⟩
      · rw [hfull, Nat.sub_self]
        exact FirstHits.none_asked _
      · rw [scan, if_neg (by omega)]
        simp
    by_cases hin : dir * i ≤ 7680
    · have habs : |i| ≤ 7680 := by
        rcases hcases with rfl | rfl <;> rw [abs_le] <;> omega
      have hshift : ∀ k : ℕ, i + dir + dir * k = i + dir * ((k + 1 : ℕ) : ℤ) := by
        intro k
        push_cast
        ring
      -- What the loop does after this array, whatever it has found.
      have htail : ∀ found' : List ℤ, found'.length ≤ tickArraysPerSwap →
          ∃ ks, FirstHits (fun k : ℕ => bitmap.marked s (i + dir * ((k + 1 : ℕ) : ℤ)) = true)
              (tickArraysPerSwap - found'.length) ks ∧
            (match checkedI32 (i * (60 * s) + scanStep s zeroForOne) with
              | none => found'
              | some next => bitmap.scan s (scanStep s zeroForOne) hstep found' next) =
            found' ++ ks.map fun k : ℕ => (i + dir * ((k + 1 : ℕ) : ℤ)) * (60 * s) := by
        intro found' hfound'
        have hnext : i * (60 * s) + scanStep s zeroForOne = (i + dir) * (60 * s) := by
          rw [scanStep_eq (by omega), ← hdir]
          ring
        rw [hnext]
        cases hc : checkedI32 ((i + dir) * (60 * s)) with
        | none =>
          refine ⟨[], FirstHits.nowhere ?_, by simp⟩
          intro k
          rw [← hshift]
          apply hbeyond
          by_contra hnear
          have hfit := start_fits hs (i := i + dir) (by
            rcases hcases with rfl | rfl <;> rw [abs_le] <;> omega)
          rw [checkedI32, if_pos hfit] at hc
          simp at hc
        | some next =>
          obtain ⟨rfl, hfit⟩ := checkedI32_eq_some.mp hc
          obtain ⟨ks, hhits, hscan⟩ := ih (i + dir) found'
            (by rcases hcases with rfl | rfl <;> push_cast at hi ⊢ <;> omega)
            (by rcases hcases with rfl | rfl <;> omega) (i32_eq_self_iff.mpr hfit) hfound'
          simp only [hshift] at hhits hscan
          exact ⟨ks, hhits, hscan⟩
      have hturn : found.length < tickArraysPerSwap ∧ i32 |i * (60 * s)| ≤ scanReach s := by
        rw [magnitude_exact hfits, hreach, within_reach h0]
        exact ⟨by omega, habs⟩
      rw [scan_eq, if_pos hturn, hread]
      cases hmark : bitmap.marked s i with
      | true =>
        obtain ⟨ks, hhits, hscan⟩ := htail (found ++ [i * (60 * s)]) (by simp; omega)
        have hleft : tickArraysPerSwap - found.length =
            tickArraysPerSwap - (found ++ [i * (60 * (s : ℤ))]).length + 1 := by
          simp
          omega
        refine ⟨0 :: ks.map (· + 1), ?_, ?_⟩
        · rw [hleft]
          apply FirstHits.hit_here hhits
          simpa using hmark
        · simp only [↓reduceIte, hscan, List.map_cons, List.map_map, List.append_assoc]
          simp [Function.comp_def]
      | false =>
        obtain ⟨ks, hhits, hscan⟩ := htail found hfound
        refine ⟨ks.map (· + 1), ?_, ?_⟩
        · apply FirstHits.miss_here hhits
          simp [hmark]
        · simp only [Bool.false_eq_true, ↓reduceIte, hscan, List.map_map]
          simp [Function.comp_def]
    · refine ⟨[], FirstHits.nowhere (hbeyond i (by omega)), ?_⟩
      rw [scan, if_neg]
      · simp
      · rw [magnitude_exact hfits, hreach, within_reach h0]
        rintro ⟨_, habs⟩
        have := abs_le.mp habs
        rcases hcases with rfl | rfl <;> omega

/-- A swap that starts beyond the reach names no arrays. -/
theorem arraysForSwap_far {tick : ℤ} (hs : s ≤ 4660) (h0 : s ≠ 0) (htick : i32 tick = tick)
    (hstart : -2 ^ 31 ≤ arrayIndex tick s * (60 * s))
    (hfar : ¬ |arrayIndex tick s| ≤ 7680) : bitmap.arraysForSwap tick s zeroForOne = [] := by
  have hspan : ticksPerArray s ≠ 0 := by
    rw [ticksPerArray_eq (by omega)]
    omega
  have hfits := start_exact htick hstart
  have hreach : scanReach s = 7680 * (60 * s) := by
    rw [(scanReach_eq_iff (by omega)).mpr hs]
    ring
  unfold arraysForSwap
  rw [dif_neg hspan, tickArrayStartIndex_eq (by omega) h0 htick, hfits, scan, if_neg]
  rw [magnitude_exact hfits, hreach, within_reach h0]
  exact fun h => hfar h.2

/-- A swap that starts within the reach names the first marked arrays of its direction. -/
theorem arraysForSwap_near {tick : ℤ} (hs : s ≤ 4660) (h0 : s ≠ 0) (htick : i32 tick = tick)
    (hstart : -2 ^ 31 ≤ arrayIndex tick s * (60 * s))
    (hread : ∀ i : ℤ, bitmap.isInitialised (i * (60 * s)) s = bitmap.marked s i)
    (hbound : ∀ i : ℤ, bitmap.marked s i = true → -7680 ≤ i ∧ i < 7680)
    (hnear : |arrayIndex tick s| ≤ 7680) :
    ∃ ks, FirstHits (fun k => bitmap.marked s (ahead tick s zeroForOne k) = true)
        tickArraysPerSwap ks ∧
      bitmap.arraysForSwap tick s zeroForOne =
        ks.map fun k => ahead tick s zeroForOne k * (60 * s) := by
  have hspan : ticksPerArray s ≠ 0 := by
    rw [ticksPerArray_eq (by omega)]
    omega
  have hfits := start_exact htick hstart
  obtain ⟨hlow, hhigh⟩ := abs_le.mp hnear
  have hdir : -7680 ≤ (if zeroForOne then -1 else 1) * arrayIndex tick s := by
    cases zeroForOne with
    | true => simp; omega
    | false => simp; omega
  obtain ⟨ks, hhits, hscan⟩ := scan_spec hs h0 hread hbound (scanStep_ne_zero hspan)
    (if zeroForOne then -1 else 1) rfl
    (7681 - (if zeroForOne then -1 else 1) * arrayIndex tick s).toNat (arrayIndex tick s) []
    (by omega) hdir hfits (by simp)
  refine ⟨ks, hhits, ?_⟩
  unfold arraysForSwap
  rw [dif_neg hspan, tickArrayStartIndex_eq (by omega) h0 htick, hfits, hscan]
  simp [ahead]

end Scan

theorem marked_bounds {bitmap : TickArrayBitmap} (h : Decoded bitmap) {s : ℕ} {i : ℤ}
    (hmark : bitmap.marked s i = true) : -7680 ≤ i ∧ i < 7680 := by
  simp only [marked, Bool.and_eq_true] at hmark
  exact storedBit_bounds h.blocks.1 h.blocks.2 hmark.2

theorem unwrapped_of_readable {tick : ℤ} {s : ℕ} (hs : s ≤ 4660) (h0 : s ≠ 0)
    (htick : i32 tick = tick) (hstart : -2 ^ 31 ≤ arrayIndex tick s * (60 * s)) :
    Unwrapped tick s where
  span := ticksPerArray_eq (by omega)
  reach := (scanReach_eq_iff (by omega)).mpr hs
  start := by rw [tickArrayStartIndex_eq (by omega) h0 htick, start_exact htick hstart]
  magnitude := fun _ => magnitude_exact

/-- Without a spacing there is no array, and none is read or named. -/
theorem agrees_without_spacing (bitmap : TickArrayBitmap) (tick : ℤ) (zeroForOne : Bool) :
    bitmap.AgreesWithLayout tick 0 zeroForOne where
  reads := by
    intro i _
    simp [isInitialised, marked, ticksPerArray_eq]
  unwrapped :=
    { span := by simp [ticksPerArray_eq]
      reach := by
        have := (scanReach_eq_iff (s := 0) (by norm_num)).mpr (by norm_num)
        exact this
      start := by simp [tickArrayStartIndex, ticksPerArray_eq, i32_eq_self_iff]
      magnitude := fun _ => magnitude_exact }
  firstArrays := by
    refine ⟨[], FirstHits.nowhere (by simp [marked]), ?_⟩
    simp [arraysForSwap, ticksPerArray_eq]

/-- The reading agrees with the layout exactly for the readable bitmaps, spacings and ticks. -/
theorem agreesWithLayout_iff {bitmap : TickArrayBitmap} (hdecoded : Decoded bitmap) {tick : ℤ}
    (htick : i32 tick = tick) {s : ℕ} (hs : s < 2 ^ 16) (zeroForOne : Bool) :
    bitmap.AgreesWithLayout tick s zeroForOne ↔
      s = 0 ∨ bitmap.Readable tick s zeroForOne := by
  constructor
  · intro h
    by_cases h0 : s = 0
    · exact Or.inl h0
    right
    have hsmall := (scanReach_eq_iff hs).mp h.unwrapped.reach
    have hstart : -2 ^ 31 ≤ arrayIndex tick s * (60 * s) := by
      rw [← h.unwrapped.start]
      exact (i32_bounds _).1
    have hmirrored := mirrored_of_reads hsmall h0 hdecoded.blocks.2 h.reads
    refine ⟨hsmall, hstart, hmirrored, ?_⟩
    by_contra! hout
    obtain ⟨hfar, hinward, i, hi⟩ := hout
    obtain ⟨ks, hhits, hnamed⟩ := h.firstArrays
    rw [arraysForSwap_far hsmall h0 htick hstart (by omega)] at hnamed
    obtain rfl : ks = [] := by simpa using hnamed.symm
    have hmark : bitmap.marked s i = true := by
      simpa [marked, h0] using hi
    have hbounds := marked_bounds hdecoded hmark
    have hneg : arrayIndex tick s < 0 ↔ tick < 0 := arrayIndex_neg h0
    -- The marked array lies ahead, and the empty answer passes over it.
    have hahead : ∃ k : ℕ, ahead tick s zeroForOne k = i := by
      rw [lt_abs] at hfar
      cases zeroForOne with
      | true =>
        refine ⟨(arrayIndex tick s - i).toNat, ?_⟩
        simp at hinward
        simp only [ahead, ↓reduceIte]
        omega
      | false =>
        refine ⟨(i - arrayIndex tick s).toNat, ?_⟩
        simp at hinward
        simp only [ahead, Bool.false_eq_true, ↓reduceIte]
        omega
    obtain ⟨k, rfl⟩ := hahead
    rcases hhits.rest k hmark with hmem | ⟨hlen, _⟩
    · simp at hmem
    · simp [tickArraysPerSwap] at hlen
  · rintro (rfl | h)
    · exact agrees_without_spacing bitmap tick zeroForOne
    by_cases h0 : s = 0
    · subst h0
      exact agrees_without_spacing bitmap tick zeroForOne
    refine ⟨fun i _ => isInitialised_of_mirrored hs h.mirrored i,
      unwrapped_of_readable h.spacing h0 htick h.start, ?_⟩
    by_cases hnear : |arrayIndex tick s| ≤ 7680
    · exact arraysForSwap_near h.spacing h0 htick h.start
        (isInitialised_of_mirrored hs h.mirrored) (fun _ => marked_bounds hdecoded) hnear
    · refine ⟨[], FirstHits.nowhere ?_, ?_⟩
      · intro k hmark
        have hbounds := marked_bounds hdecoded hmark
        have hneg : arrayIndex tick s < 0 ↔ tick < 0 := arrayIndex_neg h0
        rcases h.within with hin | hout | hnone
        · exact hnear hin
        · rw [abs_le] at hnear
          cases zeroForOne with
          | true =>
            simp only [ahead, ↓reduceIte, true_iff] at hbounds hout
            omega
          | false =>
            simp only [ahead, Bool.false_eq_true, ↓reduceIte, false_iff] at hbounds hout
            omega
        · simp [marked, hnone] at hmark
      · simpa using arraysForSwap_far h.spacing h0 htick h.start hnear

/-- A pool state with no bit set. -/
def blankPool : List ℕ := List.replicate 1544 0

def blankBitmap : TickArrayBitmap :=
  { pool := Vector.replicate 16 0, positive := [], negative := [] }

/-- A pool state with the arrays of index 0, -1 and -3 marked. -/
def markedPool : List ℕ :=
  List.replicate (904 + 7 * 8 + 7) 0 ++ [160, 1] ++ List.replicate (1544 - 904 - 8 * 8 - 1) 0

def markedBitmap : TickArrayBitmap where
  pool := #v[0, 0, 0, 0, 0, 0, 0, 5 * 2 ^ 61, 1, 0, 0, 0, 0, 0, 0, 0]
  positive := []
  negative := []

theorem markedBitmap_decoded : Decoded markedBitmap :=
  @Decoded.pool markedPool _ (by decide +kernel)

/-- The arrays on the way of a swap down from tick 10 are read as they are written. -/
theorem agreesWithLayout_marked : markedBitmap.AgreesWithLayout 10 1 true ∧
    ∀ k ∈ [0, 1, 3], markedBitmap.marked 1 (ahead 10 1 true k) = true := by
  refine ⟨(agreesWithLayout_iff markedBitmap_decoded (by decide) (by norm_num) true).mpr (.inr ?_),
    by decide +kernel⟩
  constructor
  · norm_num
  · norm_num [arrayIndex]
  · intro block bit _
    simp [blockBit, markedBitmap]
  · left
    norm_num [arrayIndex]

/-- An extension that holds the array of index -513 and no other: the last bit of the first
negative block. -/
def lowExtension : List ℕ :=
  List.replicate (40 + 14 * 64 + 63) 0 ++ 128 :: List.replicate (13 * 64) 0

/-- The array just below the pool's own bits is not read where Raydium stores it. -/
theorem nearest_low_array_missed : ¬ ∀ bitmap : TickArrayBitmap, Decoded bitmap →
    ∀ tick : ℤ, i32 tick = tick → ∀ s < 2 ^ 16, ∀ zeroForOne,
      bitmap.AgreesWithLayout tick s zeroForOne := by
  intro h
  have hlow : Decoded (blankBitmap.withExtension (List.replicate 32 0) lowExtension) :=
    @Decoded.extended blankPool _ (by decide +kernel) _ _
  have hread := (h _ hlow (-513 * 60) (by decide) 1 (by norm_num) true).reads (-513) (by decide)
  have hmarked : (blankBitmap.withExtension (List.replicate 32 0) lowExtension).marked 1 (-513) =
      true := by decide +kernel
  have hmissed : (blankBitmap.withExtension (List.replicate 32 0) lowExtension).isInitialised
      (-513 * (60 * (1 : ℕ))) 1 = false := by decide +kernel
  rw [hmarked, hmissed] at hread
  exact Bool.false_ne_true hread

end TickArrayBitmap
end ScreenerBot.Direct.Venues
