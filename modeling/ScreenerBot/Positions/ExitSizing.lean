import ScreenerBot.Chain.Amount
import ScreenerBot.Library.Binary64

/-! How many raw tokens a full or a partial exit of a position sells. -/
namespace ScreenerBot.Positions
open ScreenerBot ScreenerBot.Library

/-- What the other open positions of a mint hold. -/
inductive OtherOpenHeld where
  | booked (held : ℕ)
  | unattributable (positionId : ℤ)
  deriving DecidableEq, Repr

/-- What one exit is sized from, as read from the wallet and the positions store. -/
inductive ExitReadings where
  | all (total primary ownRemaining : ℕ) (others : OtherOpenHeld) (quoteAsset : Bool)
  | part (holding ownRemaining : ℕ) (percentage : F64)

structure ExitSizing where
  amount : ℕ
  note : Option String
  deriving DecidableEq, Repr

structure ExitSale where
  amount : ℕ
  note : Option String
  walletHolding : ℕ
  deriving DecidableEq, Repr

/-- `u64::try_from(..).unwrap_or(u64::MAX)`. -/
def capU64 (raw : ℕ) : ℕ := if raw ≤ u64Max then raw else u64Max

/-- What a close sells of the wallet, before the position's own share of it is looked at. -/
def sweep (total primary : ℕ) : ExitSizing :=
  if primary = 0 ∧ 0 < total then ⟨total, some "primary_ata_empty_using_total"⟩
  else if primary < total ∧ 0 < primary then
    ⟨primary, some (s!"multi_account_total={total} primary={primary} " ++
      s!"shortfall={total - primary}, limiting_to_primary")⟩
  else ⟨total, none⟩

/-- What of the wallet is the position's own. `none` sweeps the wallet. -/
def ownCap (total ownRemaining : ℕ) : OtherOpenHeld → Option ℕ
  | .booked held =>
    if held = 0 then none else some (if held ≤ u64Max then total - held else 0)
  | .unattributable _ => some (capU64 ownRemaining)

/-- `full_exit_amount`. -/
def fullExitAmount (total primary ownRemaining : ℕ) (others : OtherOpenHeld) (quoteAsset : Bool) :
    ExitSizing :=
  let swept := sweep total primary
  let own := capU64 ownRemaining
  if quoteAsset then
    if swept.amount ≤ own then swept
    else ⟨own, some (s!"wallet_total={total} swept={swept.amount} " ++
      s!"quote_asset_limiting_to_booked={own}")⟩
  else
    match ownCap total ownRemaining others with
    | none => swept
    | some cap =>
      if swept.amount ≤ cap then swept
      else ⟨cap, some s!"wallet_total={total} swept={swept.amount} limiting_to_own_holding={cap}"⟩

/-- `RawAmount::from_integral_f64`; `u128::MAX as f64` is `2 ^ 128`. -/
def fromIntegralF64 : F64 → Option ℕ
  | .finite x => if 0 ≤ x ∧ x = ⌊x⌋ ∧ x < 2 ^ 128 then some ⌊x⌋.toNat else none
  | _ => none

/-- The share of a total, before it is cut to the total. -/
def share (totalAmount : ℕ) (percentage : F64) : F64 :=
  (((F64.ofRat totalAmount).mul percentage).div (.finite 100)).trunc

/-- `calculate_partial_amount`. -/
def calculatePartialAmount (totalAmount : ℕ) (percentage : F64) : ℕ :=
  if totalAmount = 0 ∨ percentage.isNan ∨ percentage.le (.finite 0) then 0
  else if (F64.finite 100).le percentage then totalAmount
  else
    match fromIntegralF64 (share totalAmount percentage) with
    | none => totalAmount
    | some part => min part totalAmount

/-- `partial_exit_amount`. -/
def partialExitAmount (remaining onChain : ℕ) (percentage : F64) : ℕ :=
  calculatePartialAmount (min onChain remaining) percentage

/-- `size_exit`. -/
def sizeExit : ExitReadings → ExitSale
  | .all total primary ownRemaining others quoteAsset =>
    let sizing := fullExitAmount total primary ownRemaining others quoteAsset
    ⟨sizing.amount, sizing.note, total⟩
  | .part holding ownRemaining percentage =>
    ⟨partialExitAmount ownRemaining holding percentage, none, holding⟩

/-- What of the wallet a full exit may sell, by the rule it follows. -/
def sellable (total ownRemaining : ℕ) (others : OtherOpenHeld) (quoteAsset : Bool) : ℕ :=
  if quoteAsset then ownRemaining
  else
    match others with
    | .booked held => total - held
    | .unattributable _ => ownRemaining

section Full
variable {total primary ownRemaining : ℕ} {others : OtherOpenHeld} {quoteAsset : Bool}

theorem sweep_amount (total primary : ℕ) :
    (sweep total primary).amount = if 0 < primary ∧ primary < total then primary else total := by
  unfold sweep
  split_ifs <;> first | rfl | omega

theorem capU64_min (total raw : ℕ) (h : total ≤ u64Max) :
    min total (capU64 raw) = min total raw := by
  unfold capU64
  split_ifs <;> omega

/-- The sale is the lower of the sweep and the position's part. -/
theorem fullExitAmount_amount (htotal : total ≤ u64Max) :
    (fullExitAmount total primary ownRemaining others quoteAsset).amount =
      min (sweep total primary).amount (sellable total ownRemaining others quoteAsset) := by
  have hsweep : (sweep total primary).amount ≤ total := by
    rw [sweep_amount]
    split_ifs <;> omega
  have hcap := capU64_min (sweep total primary).amount ownRemaining (hsweep.trans htotal)
  have hcapped : ∀ {s : ExitSizing} {cap : ℕ} {note : Option String},
      (if s.amount ≤ cap then s else ⟨cap, note⟩ : ExitSizing).amount = min s.amount cap := by
    intro s cap note
    split_ifs with h
    · exact (min_eq_left h).symm
    · exact (min_eq_right (Nat.le_of_not_le h)).symm
  unfold fullExitAmount sellable
  cases quoteAsset with
  | true => rw [if_pos rfl, if_pos rfl, hcapped, hcap]
  | false =>
    cases others with
    | unattributable positionId => simp [ownCap, hcapped, hcap]
    | booked held =>
      by_cases hheld : held = 0
      · simp [ownCap, hheld, hsweep]
      · by_cases hword : held ≤ u64Max
        · simp [ownCap, hheld, hword, hcapped]
        · have hnone : total - held = 0 := by omega
          simp only [ownCap, hheld, hword, hnone, ↓reduceIte, Bool.false_eq_true, hcapped]

theorem sweep_eq_zero : (sweep total primary).amount = 0 ↔ total = 0 := by
  rw [sweep_amount]
  split_ifs <;> omega

end Full

section Partial
variable {totalAmount : ℕ} {percentage : F64}

theorem calculatePartialAmount_le (totalAmount : ℕ) (percentage : F64) :
    calculatePartialAmount totalAmount percentage ≤ totalAmount := by
  unfold calculatePartialAmount
  split_ifs
  · exact Nat.zero_le _
  · exact le_rfl
  · split
    · exact le_rfl
    · exact min_le_right _ _

theorem calculatePartialAmount_eq_zero :
    calculatePartialAmount totalAmount percentage = 0 ↔
      totalAmount = 0 ∨ percentage.isNan ∨ percentage.le (.finite 0) ∨
        ¬ (F64.finite 100).le percentage ∧
          fromIntegralF64 (share totalAmount percentage) = some 0 := by
  unfold calculatePartialAmount
  by_cases hnothing : totalAmount = 0 ∨ percentage.isNan ∨ percentage.le (.finite 0)
  · rw [if_pos hnothing]
    tauto
  · rw [if_neg hnothing]
    by_cases hwhole : (F64.finite 100).le percentage
    · rw [if_pos hwhole]
      tauto
    · rw [if_neg hwhole]
      cases hshare : fromIntegralF64 (share totalAmount percentage) with
      | none => simp_all
      | some part =>
        have htotal : totalAmount ≠ 0 := fun h => hnothing (Or.inl h)
        simp only [Option.some.injEq]
        constructor
        · intro hmin
          have hpart : part = 0 := by omega
          exact Or.inr (Or.inr (Or.inr ⟨hwhole, hpart⟩))
        · rintro (hzero | hnan | hle | ⟨_, rfl⟩)
          · omega
          · exact absurd (Or.inr (Or.inl hnan)) hnothing
          · exact absurd (Or.inr (Or.inr hle)) hnothing
          · exact Nat.zero_min _

theorem representable_pow {n : ℕ} : Representable (2 ^ n) :=
  ⟨1, n, by simp, by norm_num, by omega⟩

/-- A number between one and a power of two below the range stays between them. -/
theorem ofRat_between {low : ℕ} {x : ℚ} {n : ℕ} (hlow : low ≤ 2 ^ 53) (hpos : 0 < low)
    (hlx : (low : ℚ) ≤ x) (hx : x ≤ 2 ^ n) (hn : n < 1024) :
    ∃ v : ℚ, F64.ofRat x = .finite v ∧ (low : ℚ) ≤ v ∧ v ≤ 2 ^ n := by
  have hx0 : 0 < x := lt_of_lt_of_le (by exact_mod_cast hpos) hlx
  have hbelow := le_roundBinary64 (representable_natCast hlow) hx0 hlx
  have habove : roundBinary64 x ≤ 2 ^ n := roundBinary64_le representable_pow hx0 hx
  have hfinite : |roundBinary64 x| < 2 ^ 1024 := by
    rw [abs_of_nonneg ((Nat.cast_nonneg low).trans hbelow)]
    exact lt_of_le_of_lt habove (pow_lt_pow_right₀ (by norm_num) hn)
  use roundBinary64 x
  constructor
  · unfold F64.ofRat
    rw [if_pos hfinite]
  · exact ⟨hbelow, habove⟩

/-- A share of at least one unit of a total that `f64` holds exactly is not lost. -/
theorem share_pos {x : ℚ} (htotal : totalAmount ≤ 2 ^ 53) (hx : x < 100)
    (hshare : 100 ≤ totalAmount * x) :
    ∃ part, fromIntegralF64 (share totalAmount (.finite x)) = some part ∧ 0 < part := by
  have hpos : 0 < totalAmount := by
    by_contra hzero
    obtain rfl : totalAmount = 0 := by omega
    norm_num at hshare
  have hq : (0 : ℚ) < totalAmount := by exact_mod_cast hpos
  have hle : (totalAmount : ℚ) ≤ 2 ^ 53 := by exact_mod_cast htotal
  have hexact : F64.ofRat totalAmount = .finite totalAmount := by
    have hround := roundBinary64_eq (representable_natCast htotal) hq
    have hfinite : |(totalAmount : ℚ)| < 2 ^ 1024 := by
      rw [abs_of_pos hq]
      exact lt_of_le_of_lt hle (pow_lt_pow_right₀ (by norm_num) (by norm_num))
    unfold F64.ofRat
    rw [hround, if_pos hfinite]
  have hproduct : (totalAmount : ℚ) * x ≤ 2 ^ 60 := by
    calc (totalAmount : ℚ) * x ≤ 2 ^ 53 * 100 := by
          apply mul_le_mul hle hx.le _ (by norm_num)
          by_contra! hneg
          nlinarith
      _ ≤ 2 ^ 60 := by norm_num
  obtain ⟨v, hv, hv100, hvtop⟩ :=
    ofRat_between (x := totalAmount * x) (n := 60) (show 100 ≤ 2 ^ 53 by norm_num) (by norm_num)
      (by exact_mod_cast hshare) hproduct (by norm_num)
  have hv1 : ((1 : ℕ) : ℚ) ≤ v / 100 := by
    push_cast at hv100 ⊢
    linarith
  obtain ⟨w, hw, hw1, hwtop⟩ :=
    ofRat_between (x := v / 100) (n := 60) (show 1 ≤ 2 ^ 53 by norm_num) (by norm_num) hv1
      (by linarith) (by norm_num)
  have hfloor : 1 ≤ ⌊w⌋ := by
    rw [Int.le_floor]
    exact_mod_cast hw1
  have hword : ((⌊w⌋ : ℤ) : ℚ) < 2 ^ 128 :=
    calc ((⌊w⌋ : ℤ) : ℚ) ≤ w := Int.floor_le w
      _ ≤ 2 ^ 60 := hwtop
      _ < 2 ^ 128 := by norm_num
  have hw0 : 0 ≤ w := (by norm_num : (0 : ℚ) ≤ 1).trans (by exact_mod_cast hw1)
  have htrunc : share totalAmount (.finite x) = .finite (⌊w⌋ : ℤ) := by
    unfold share
    rw [hexact, F64.mul, hv, F64.div, if_pos (by norm_num), hw, F64.trunc, if_pos hw0]
  use ⌊w⌋.toNat
  constructor
  · have hfloor0 : (0 : ℚ) ≤ (⌊w⌋ : ℤ) := by exact_mod_cast (by omega : (0 : ℤ) ≤ ⌊w⌋)
    rw [htrunc]
    simp only [fromIntegralF64, Int.floor_intCast]
    rw [if_pos ⟨hfloor0, trivial, hword⟩]
  · omega

end Partial

example : fullExitAmount 2000 2000 1000 (.booked 600) false =
    ⟨1400, some "wallet_total=2000 swept=2000 limiting_to_own_holding=1400"⟩ := by decide +kernel

example : calculatePartialAmount 1000 (.finite 99) = 990 := by decide +kernel

/-- What an exit sells, over every reading: a full exit sells nothing only where the wallet or the
position's part of it is empty, a partial one only where its share truncates to nothing. -/
theorem sizeExit_bounds :
    (∀ total primary ownRemaining others quoteAsset, total ≤ u64Max →
      (sizeExit (.all total primary ownRemaining others quoteAsset)).amount ≤
        min total (sellable total ownRemaining others quoteAsset) ∧
      ((sizeExit (.all total primary ownRemaining others quoteAsset)).amount = 0 ↔
        total = 0 ∨ sellable total ownRemaining others quoteAsset = 0)) ∧
    (∀ holding ownRemaining percentage,
      (sizeExit (.part holding ownRemaining percentage)).amount ≤ min holding ownRemaining ∧
      ((sizeExit (.part holding ownRemaining percentage)).amount = 0 ↔
        min holding ownRemaining = 0 ∨ percentage.isNan ∨ percentage.le (.finite 0) ∨
          ¬ (F64.finite 100).le percentage ∧
            fromIntegralF64 (share (min holding ownRemaining) percentage) = some 0) ∧
      ∀ x : ℚ, percentage = .finite x → min holding ownRemaining ≤ 2 ^ 53 →
        100 ≤ (min holding ownRemaining : ℕ) * x →
        0 < (sizeExit (.part holding ownRemaining percentage)).amount) := by
  constructor
  · intro total primary ownRemaining others quoteAsset htotal
    have hsweep : (sweep total primary).amount ≤ total := by
      rw [sweep_amount]
      split_ifs <;> omega
    have hzero := @sweep_eq_zero total primary
    simp only [sizeExit, fullExitAmount_amount htotal]
    constructor
    · exact min_le_min_right _ hsweep
    · omega
  · intro holding ownRemaining percentage
    simp only [sizeExit, partialExitAmount]
    constructor
    · exact calculatePartialAmount_le _ _
    constructor
    · exact calculatePartialAmount_eq_zero
    · rintro x rfl hbase hshare
      rw [Nat.pos_iff_ne_zero]
      intro hzero
      have hq : (0 : ℚ) ≤ (min holding ownRemaining : ℕ) := Nat.cast_nonneg _
      rcases calculatePartialAmount_eq_zero.mp hzero with hempty | hnan | hle | ⟨hpart, hnone⟩
      · rw [hempty] at hshare
        norm_num at hshare
      · cases hnan
      · have hx : x ≤ 0 := by simpa [F64.le] using hle
        nlinarith
      · have hx : x < 100 := by simpa [F64.le] using hpart
        obtain ⟨part, hpart, hpos⟩ := share_pos hbase hx hshare
        rw [hnone] at hpart
        obtain rfl := Option.some.inj hpart
        omega

theorem sizeExit_bounds_quote : (1000 : ℕ) ≤ u64Max ∧
    (sizeExit (.all 1000 1000 423 (.booked 0) true)).amount ≤ min 1000 423 ∧
    0 < (sizeExit (.part 1000 600 (.finite 50))).amount := by
  obtain ⟨hfull, hpart⟩ := sizeExit_bounds
  have hword : (1000 : ℕ) ≤ u64Max := by decide
  constructor
  · exact hword
  constructor
  · exact (hfull 1000 1000 423 (.booked 0) true hword).1
  · exact (hpart 1000 600 (.finite 50)).2.2 50 rfl (by norm_num) (by norm_num)

/-- Beside 600 units of another open position a partial exit, and the close of a quote asset, sell
more of 1,000 than is left; and a partial exit can round to nothing. -/
theorem others_not_read :
    ((sizeExit (.part 1000 1000 (.finite 99))).amount = 990 ∧ ¬ 990 ≤ 1000 - 600) ∧
    ((sizeExit (.all 1000 1000 800 (.booked 600) true)).amount = 800 ∧ ¬ 800 ≤ 1000 - 600) ∧
    (sizeExit (.part 1000 1000 (.finite (1 / 16)))).amount = 0 := by
  decide +kernel

end ScreenerBot.Positions
