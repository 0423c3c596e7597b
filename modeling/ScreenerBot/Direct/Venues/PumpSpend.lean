import Mathlib.Algebra.Order.Floor.Div
import ScreenerBot.Chain.Amount
import ScreenerBot.Library.Search
import ScreenerBot.Library.MachineInt
import ScreenerBot.Library.Rounding

/-!
The fees of pump's AMM and bonding curve, and what of a spend reaches the curve once they are paid.

Each fee is rounded up on its own and charged on top of the swapped amount, so the swapped amount
is searched for. The search runs in 64-bit words that are not checked for overflow.
-/
namespace ScreenerBot.Direct.Venues.Pump
open ScreenerBot.Library

def bpsDenominator : ℕ := 10000

/-- `Pubkey::default()`. -/
def defaultPubkey : String := "11111111111111111111111111111111"

structure PumpFees where
  lpBps : UInt64
  protocolBps : UInt64
  creatorBps : UInt64
deriving DecidableEq

/-- A decoded table has a tier: `decode` refuses an empty one. -/
structure FeeTierTable where
  tiers : List (ℕ × PumpFees)
  nonempty : tiers ≠ []

namespace FeeTierTable

def mostExpensive (table : FeeTierTable) : PumpFees := (table.tiers.head table.nonempty).2

/-- The loop of `fees_for`, which stops at the first threshold not reached. -/
def feesFrom (marketCapLamports : ℕ) (chosen : PumpFees) : List (ℕ × PumpFees) → PumpFees
  | [] => chosen
  | (threshold, fees) :: tiers =>
    if threshold ≤ marketCapLamports then feesFrom marketCapLamports fees tiers else chosen

def feesFor (table : FeeTierTable) (marketCapLamports : ℕ) : PumpFees :=
  feesFrom marketCapLamports table.mostExpensive table.tiers

end FeeTierTable

namespace PumpFees

/-- One fee component. -/
def charge (bps : UInt64) (amount : ℕ) : ℕ :=
  if 0 < bps then amount * bps.toNat ⌈/⌉ bpsDenominator else 0

/-- Every component on `amount`, each rounded up on its own. -/
def owedOn (fees : PumpFees) (chargeCreator : Bool) (amount : ℕ) : ℕ :=
  charge fees.lpBps amount + charge fees.protocolBps amount +
    if chargeCreator then charge fees.creatorBps amount else 0

/-- What `quote_fee_on` and `fee_on` charge: never more than the amount itself. -/
def feeOn (fees : PumpFees) (chargeCreator : Bool) (amount : ℕ) : ℕ :=
  min (fees.owedOn chargeCreator amount) amount

end PumpFees

/-- The supply of the token times the reserve over the other reserve. -/
def capOf (supply reserve other : UInt64) : ℕ := supply.toNat * reserve.toNat / other.toNat

structure PumpAmmMarket where
  coinCreator : String
  tiers : Option FeeTierTable
  flatFees : PumpFees
  baseSupply : UInt64
  baseReserve : UInt64
  quoteReserve : UInt64

structure PumpLegacyMarket where
  creator : String
  tiers : Option FeeTierTable
  tokenTotalSupply : UInt64
  virtualSolReserves : UInt64
  virtualTokenReserves : UInt64

/-- `low + (high - low + 1) / 2` in 64-bit words. -/
def midpoint (low high : ℕ) : ℕ :=
  wrapUnsigned 64 (low + wrapUnsigned 64 (high - low + 1) / 2)

/-- The search for what a spend swaps, one raw unit below the largest amount it can pay for. -/
def searchSpend (cost : ℕ → ℕ) (spendable : UInt64) (turns : ℕ) : Option ℕ :=
  (searchLargest (cost · ≤ spendable.toNat) midpoint turns 0 spendable.toNat).map (· - 1)

namespace PumpAmmMarket
variable (m : PumpAmmMarket)

def marketCap : Option ℕ :=
  if m.baseReserve = 0 ∨ m.baseSupply = 0 then none
  else some (capOf m.baseSupply m.quoteReserve m.baseReserve)

def chargesCreatorFee : Bool := m.coinCreator ≠ defaultPubkey

def fees : PumpFees :=
  if m.chargesCreatorFee then
    match m.tiers, m.marketCap with
    | some table, some cap => table.feesFor cap
    | some table, none => table.mostExpensive
    | none, _ => m.flatFees
  else m.flatFees

/-- Every fee the pool charges on `amount`. -/
def owedOn (amount : ℕ) : ℕ := m.fees.owedOn m.chargesCreatorFee amount

def quoteFeeOn (quoteAmount : ℕ) : ℕ := m.fees.feeOn m.chargesCreatorFee quoteAmount

def spendFor (quoteAmount : ℕ) : ℕ := quoteAmount + m.quoteFeeOn quoteAmount

def swappableFromSpend (spendable : UInt64) (turns : ℕ) : Option ℕ :=
  searchSpend m.spendFor spendable turns

end PumpAmmMarket

namespace PumpLegacyMarket
variable (m : PumpLegacyMarket)

def creatorSet : Bool := m.creator ≠ defaultPubkey

def marketCap : Option ℕ :=
  if m.virtualTokenReserves = 0 then none
  else some (capOf m.tokenTotalSupply m.virtualSolReserves m.virtualTokenReserves)

def fees : PumpFees :=
  match m.tiers, m.marketCap with
  | some table, some cap => table.feesFor cap
  | some table, none => table.mostExpensive
  | none, _ => ⟨0, 0, 0⟩

/-- Every fee the curve charges on `amount`. -/
def owedOn (amount : ℕ) : ℕ := m.fees.owedOn m.creatorSet amount

def feeOn (net : ℕ) : ℕ := m.fees.feeOn m.creatorSet net

def netForSpend (spendable : UInt64) (turns : ℕ) : Option ℕ :=
  searchSpend (fun mid => mid + m.feeOn mid) spendable turns

end PumpLegacyMarket

/-- The search ends, at an amount the spend pays for with every fee on it, and at most one below
the largest such amount. -/
def Settles (search : UInt64 → ℕ → Option ℕ) (owed : ℕ → ℕ) (spendable : UInt64) : Prop :=
  ∃ turns q, search spendable turns = some q ∧ q + owed q ≤ spendable.toNat ∧
    ∀ larger, larger + owed larger ≤ spendable.toNat → larger ≤ q + 1

/-- The window of the search fits the words, and the spend pays for half of it less one. -/
def Affordable (owed : ℕ → ℕ) (spendable : UInt64) : Prop :=
  spendable.toNat < u64Max ∧
    spendable.toNat / 2 - 1 + owed (spendable.toNat / 2 - 1) ≤ spendable.toNat

theorem charge_mono (bps : UInt64) : Monotone (PumpFees.charge bps) := by
  intro a b hab
  unfold PumpFees.charge
  split
  · exact (gc_mul_ceilDiv (by decide)).monotone_l (Nat.mul_le_mul_right _ hab)
  · exact le_rfl

theorem owedOn_mono (fees : PumpFees) (chargeCreator : Bool) :
    Monotone (fees.owedOn chargeCreator) := by
  intro a b hab
  have hlp := charge_mono fees.lpBps hab
  have hprotocol := charge_mono fees.protocolBps hab
  have hcreator := charge_mono fees.creatorBps hab
  unfold PumpFees.owedOn
  split <;> omega

/-- Rounding up adds less than one unit. -/
theorem charge_le (bps : UInt64) (amount : ℕ) :
    bpsDenominator * PumpFees.charge bps amount < amount * bps.toNat + bpsDenominator := by
  unfold PumpFees.charge
  split
  · exact mul_ceilDiv_lt _ (by decide)
  · unfold bpsDenominator
    omega

/-- Rates of at most the whole amount together leave every half payable. -/
theorem affordable_of_rates {fees : PumpFees} {chargeCreator : Bool} {spendable : UInt64}
    (hmax : spendable.toNat < u64Max)
    (hrates : fees.lpBps.toNat + fees.protocolBps.toNat + fees.creatorBps.toNat ≤ bpsDenominator) :
    Affordable (fees.owedOn chargeCreator) spendable := by
  constructor
  · exact hmax
  · generalize hhalf : spendable.toNat / 2 - 1 = half
    have hlp := charge_le fees.lpBps half
    have hprotocol := charge_le fees.protocolBps half
    have hcreator := charge_le fees.creatorBps half
    have hshares := Nat.mul_le_mul_left half hrates
    unfold bpsDenominator at *
    rw [mul_add, mul_add] at hshares
    have howed : fees.owedOn chargeCreator half ≤ half + 2 := by
      unfold PumpFees.owedOn
      split <;> omega
    have hnone : half = 0 → fees.owedOn chargeCreator half = 0 := by
      rintro rfl
      simp [PumpFees.owedOn, PumpFees.charge]
    by_cases hzero : half = 0
    · rw [hnone hzero]
      omega
    · omega

section Spend
variable {owed : ℕ → ℕ} {spendable : UInt64}

/-- Below the largest word, the midpoint lies inside the window and above its lower end. -/
theorem midpoint_inside {low high : ℕ} (hlt : low < high) (hhigh : high < u64Max) :
    low < midpoint low high ∧ midpoint low high ≤ high := by
  have hmax : u64Max = 2 ^ 64 - 1 := rfl
  have hwidth : (high - low + 1) % 2 ^ 64 = high - low + 1 := Nat.mod_eq_of_lt (by omega)
  have hmid : (low + (high - low + 1) / 2) % 2 ^ 64 = low + (high - low + 1) / 2 :=
    Nat.mod_eq_of_lt (by omega)
  unfold midpoint wrapUnsigned
  rw [hwidth, hmid]
  constructor <;> omega

/-- What the search tests: the fees are capped at the amount. -/
theorem capped_mono (howed : Monotone owed) : Monotone fun q => q + min (owed q) q := by
  intro a b hab
  have := howed hab
  dsimp only
  omega

theorem searchSpend_ends (howed : Monotone owed) (hmax : spendable.toNat < u64Max) :
    ∃ turns q, searchSpend (fun q => q + min (owed q) q) spendable turns = some (q - 1) ∧
      IsGreatest {q | q + min (owed q) q ≤ spendable.toNat} q := by
  have hwithin : ∀ q, q + min (owed q) q ≤ spendable.toNat → q ≤ spendable.toNat := by
    intro q hq
    omega
  obtain ⟨turns, q, hq, hgreatest⟩ := searchLargest_greatest
    (fun a b hab hb => (capped_mono howed hab).trans hb)
    (fun a b hab hb => midpoint_inside hab (hb.trans_lt hmax)) (Nat.zero_le spendable.toNat)
    (by simp) hwithin
  exact ⟨turns, q, by simp [searchSpend, hq], hgreatest⟩

/-- The first width of the window of the largest spend wraps to zero, and the window never moves. -/
theorem searchSpend_stuck (hmax : u64Max ≤ spendable.toNat) (turns : ℕ) :
    searchSpend (fun q => q + min (owed q) q) spendable turns = none := by
  have hlt := spendable.toNat_lt
  have heq : spendable.toNat = u64Max := by
    have : u64Max = 2 ^ 64 - 1 := rfl
    omega
  rw [searchSpend, heq, searchLargest_stuck (by decide) (by decide) (by simp), Option.map_none]

/-- One below the largest amount the capped cost allows is paid for in full exactly when half the
spend less one is: a capped cost is twice the amount. -/
theorem paid_iff (howed : Monotone owed) {s q : ℕ}
    (hq : IsGreatest {q | q + min (owed q) q ≤ s} q) :
    q - 1 + owed (q - 1) ≤ s ↔ s / 2 - 1 + owed (s / 2 - 1) ≤ s := by
  obtain ⟨hpass, hlargest⟩ := hq
  simp only [Set.mem_ofPred_eq] at hpass
  have hhalf : s / 2 ≤ q := hlargest (by simp only [Set.mem_ofPred_eq]; omega)
  constructor
  · intro hpaid
    have := howed (show s / 2 - 1 ≤ q - 1 by omega)
    omega
  · intro hpaid
    by_cases hcapped : owed q ≤ q
    · have := howed (Nat.sub_le q 1)
      omega
    · have : q = s / 2 := by omega
      rwa [this]

theorem settles_iff (howed : Monotone owed) :
    Settles (searchSpend fun q => q + min (owed q) q) owed spendable ↔
      Affordable owed spendable := by
  constructor
  · rintro ⟨turns, r, hr, hpaid, -⟩
    by_cases hmax : spendable.toNat < u64Max
    · obtain ⟨turns', q, hq, hgreatest⟩ := searchSpend_ends howed hmax
      have hsame : r = q - 1 := by
        obtain ⟨a, ha, rfl⟩ := Option.map_eq_some_iff.mp hr
        obtain ⟨b, hb, hbq⟩ := Option.map_eq_some_iff.mp hq
        rw [searchLargest_unique ha hb, hbq]
      exact ⟨hmax, (paid_iff howed hgreatest).mp (hsame ▸ hpaid)⟩
    · rw [searchSpend_stuck (not_lt.mp hmax)] at hr
      cases hr
  · rintro ⟨hmax, hpaid⟩
    obtain ⟨turns, q, hq, hgreatest⟩ := searchSpend_ends howed hmax
    refine ⟨turns, q - 1, hq, (paid_iff howed hgreatest).mpr hpaid, ?_⟩
    intro larger hlarger
    have : larger ≤ q := hgreatest.2 (by simp only [Set.mem_ofPred_eq]; omega)
    omega

end Spend

/-- The searches settle exactly the spends whose half the fees leave payable, short of the largest
word. -/
theorem spend_settled_iff (amm : PumpAmmMarket) (legacy : PumpLegacyMarket) (spendable : UInt64) :
    (Settles amm.swappableFromSpend amm.owedOn spendable ↔ Affordable amm.owedOn spendable) ∧
      (Settles legacy.netForSpend legacy.owedOn spendable ↔ Affordable legacy.owedOn spendable) :=
  ⟨settles_iff (owedOn_mono _ _), settles_iff (owedOn_mono _ _)⟩

def samplePool (lpBps : UInt64) : PumpAmmMarket :=
  { coinCreator := defaultPubkey, tiers := none, flatFees := ⟨lpBps, 5, 0⟩, baseSupply := 1000,
    baseReserve := 500, quoteReserve := 500 }

/-- The search for the largest spend never ends, and rates above the whole overspend. -/
theorem largest_spend_never_settles :
    (¬ ∃ turns q, (samplePool 20).swappableFromSpend 18446744073709551615 turns = some q) ∧
      (samplePool 20000).swappableFromSpend 100 8 = some 49 ∧
        100 < 49 + (samplePool 20000).owedOn 49 := by
  refine ⟨?_, by decide +kernel, by decide +kernel⟩
  rintro ⟨turns, q, hq⟩
  have hstuck := @searchSpend_stuck (samplePool 20).owedOn 18446744073709551615 le_rfl turns
  exact absurd (hstuck.symm.trans hq) (by simp)

end ScreenerBot.Direct.Venues.Pump
