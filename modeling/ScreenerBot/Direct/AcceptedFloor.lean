import ScreenerBot.Direct.Quote

/-!
What the caller accepted, held against a quote of the same intent taken when it is executed.

The fresh quote is of the pool as it is then. Its own floor would apply the tolerance a second
time, so the accepted floor is carried over, and a fee on the output is sized anew.
-/
namespace ScreenerBot.Direct
open Library Swaps

structure DirectExecutionData where
  pool : String
  amountIn : ℕ
  slippageBps : ℕ
  acceptedMinNetOut : ℕ
  acceptedMinOut : ℕ

/-- What a quote carries forward to its execution. -/
def executionData (intent : DirectSwapIntent) (quote : DirectQuote) : DirectExecutionData :=
  ⟨intent.pool, intent.amountIn, intent.slippageBps, quote.minNetOut, quote.minOut⟩

def FEE_ROUNDING_TOLERANCE : ℕ := 1

def marketMoved (freshQuote : DirectQuote) (data : DirectExecutionData)
    (freshExpectedNetOut : ℕ) : DirectSwapError :=
  .marketMoved freshQuote.pool data.acceptedMinNetOut freshExpectedNetOut

/-- The fresh quote under an enforced floor, a fee on its output resolved anew. -/
def DirectQuote.underFloor (quote : DirectQuote) (enforcedMinOut : ℕ) :
    Except DirectSwapError DirectQuote :=
  if quote.fee.side = .output then
    (PlatformFee.resolve .output quote.inputMint quote.outputMint quote.expectedOut).map fun fee =>
      let fee := { fee with amount := min fee.amount enforcedMinOut }
      { quote with
        minOut := enforcedMinOut, fee, expectedNetOut := quote.expectedOut - fee.amount,
        minNetOut := enforcedMinOut - fee.amount }
  else .ok { quote with minOut := enforcedMinOut, minNetOut := enforcedMinOut }

def holdAcceptedFloor (freshQuote : DirectQuote) (data : DirectExecutionData) :
    Except DirectSwapError DirectQuote := do
  if freshQuote.expectedOut < data.acceptedMinOut ∨
      freshQuote.expectedNetOut < data.acceptedMinNetOut then
    throw (marketMoved freshQuote data freshQuote.expectedNetOut)
  let held ← freshQuote.underFloor (max freshQuote.minOut data.acceptedMinOut)
  if saturatingAddU64 held.minNetOut FEE_ROUNDING_TOLERANCE < data.acceptedMinNetOut then
    throw (marketMoved held data held.minNetOut)
  return held

/-- The figures of a quote agree: both nets are what the fee leaves of their gross, and the floor
is within the expectation. -/
structure DirectQuote.Consistent (quote : DirectQuote) : Prop where
  expectedNet : quote.expectedNetOut = quote.fee.net quote.expectedOut
  minNet : quote.minNetOut = quote.fee.net quote.minOut
  within : quote.minOut ≤ quote.expectedOut
  covered : quote.fee.side = .output → quote.fee.amount ≤ quote.minOut

/-- A quote assembled for an intent. -/
structure DirectQuote.Assembled (intent : DirectSwapIntent) (quote : DirectQuote) : Prop
    extends quote.Consistent where
  inputMint : quote.inputMint = intent.inputMint
  outputMint : quote.outputMint = intent.outputMint
  side : quote.fee.side = FeeSide.forPair intent.inputMint intent.outputMint
  tolerance : intent.slippageBps ≤ MAX_SLIPPAGE_BPS
  floor : quote.minOut = minOutAfterSlippage quote.expectedOut intent.slippageBps
  resolved : quote.fee.side = .output → ∃ fee,
    PlatformFee.resolve .output intent.inputMint intent.outputMint quote.expectedOut = .ok fee ∧
      quote.fee.amount = min (platformFeeAmount quote.expectedOut) quote.minOut

/-- Only the amount of a resolved fee depends on what it is charged on. -/
theorem resolve_output {inputMint outputMint : String} {base : ℕ} {fee : PlatformFee}
    (h : PlatformFee.resolve .output inputMint outputMint base = .ok fee) :
    fee.side = .output ∧ fee.amount = platformFeeAmount base ∧ ∀ other,
      PlatformFee.resolve .output inputMint outputMint other =
        .ok { fee with amount := platformFeeAmount other } := by
  unfold PlatformFee.resolve at h ⊢
  dsimp only at h ⊢
  split_ifs at h ⊢ with hsol husdc
  · obtain rfl := Except.ok.inj h
    exact ⟨rfl, rfl, fun _ => rfl⟩
  · obtain rfl := Except.ok.inj h
    exact ⟨rfl, rfl, fun _ => rfl⟩

theorem validate_tolerance {intent : DirectSwapIntent} (h : intent.validate = .ok ()) :
    intent.slippageBps ≤ MAX_SLIPPAGE_BPS := by
  unfold DirectSwapIntent.validate at h
  obtain ⟨-, h⟩ := refuse_eq_ok.mp h
  obtain ⟨-, h⟩ := refuse_eq_ok.mp h
  by_contra hover
  rw [if_pos (by omega)] at h
  cases h

theorem net_of_output {fee : PlatformFee} (h : fee.side = .output) (out : ℕ) :
    fee.net out = out - fee.amount := by
  simp [PlatformFee.net, h]

theorem net_of_other {fee : PlatformFee} (h : fee.side ≠ .output) (out : ℕ) :
    fee.net out = out := by
  unfold PlatformFee.net
  split
  · contradiction
  · rfl

/-- Every figure of a quote the engine makes. -/
theorem quoteWithMarket_assembled {intent : DirectSwapIntent} {market : PoolMarket}
    {quote : DirectQuote} (h : quoteWithMarket intent market = .ok quote) :
    quote.Assembled intent := by
  unfold quoteWithMarket at h
  obtain ⟨_, hvalid, h⟩ := bind_eq_ok.mp h
  obtain ⟨-, h⟩ := refuse_eq_ok.mp h
  obtain ⟨inputFee, hresolve, h⟩ := bind_eq_ok.mp h
  obtain ⟨-, h⟩ := refuse_eq_ok.mp h
  obtain ⟨venueQuote, -, h⟩ := bind_eq_ok.mp h
  obtain ⟨hside, -, hpaid⟩ := PlatformFee.resolve_cases hresolve
  unfold DirectQuote.assemble at h
  obtain ⟨-, h⟩ := refuse_eq_ok.mp h
  obtain ⟨-, h⟩ := refuse_eq_ok.mp h
  obtain ⟨fee, hcharged, h⟩ := bind_eq_ok.mp h
  obtain ⟨-, h⟩ := refuse_eq_ok.mp h
  obtain rfl := Except.ok.inj h
  obtain ⟨hfeeSide, -, hcovered, -⟩ := charged_cases hcharged hpaid
  refine ⟨⟨rfl, rfl, minOutAfterSlippage_le _ _, hcovered⟩, rfl, rfl, hfeeSide.trans hside,
    validate_tolerance hvalid, rfl, ?_⟩
  intro hout
  simp only at hout ⊢
  rw [PlatformFee.charged, ← hfeeSide, hout] at hcharged
  cases hresolved : PlatformFee.resolve .output intent.inputMint intent.outputMint
      venueQuote.expectedOut with
  | error e => simp [hresolved, Except.map] at hcharged
  | ok resolved =>
    simp only [hresolved, Except.map, Except.ok.injEq] at hcharged
    refine ⟨resolved, rfl, ?_⟩
    rw [← hcharged, (resolve_output hresolved).2.1]

/-- Half a percent is less than any tolerance leaves, so the floor of a larger expectation keeps
as much after the fee, up to the rounding of the fee. -/
theorem kept_le {small large kept : ℕ} (hle : small ≤ large) (hkept : 50 ≤ kept) :
    small * kept / 10000 - small * 50 / 10000 ≤ large * kept / 10000 - large * 50 / 10000 + 1 := by
  obtain ⟨more, rfl⟩ := Nat.exists_eq_add_of_le hle
  have hmore : more * 50 ≤ more * kept := Nat.mul_le_mul_left more hkept
  rw [add_mul, add_mul]
  generalize small * kept = x
  generalize more * kept = y at *
  omega

/-- The fee an assembled quote takes off its output. -/
def DirectQuote.outputFee (quote : DirectQuote) (minOut : ℕ) : ℕ :=
  if quote.fee.side = .output then min (platformFeeAmount quote.expectedOut) minOut else 0

theorem DirectQuote.Assembled.nets {intent : DirectSwapIntent} {quote : DirectQuote}
    (h : quote.Assembled intent) :
    quote.minNetOut = quote.minOut - quote.outputFee quote.minOut ∧
      quote.expectedNetOut = quote.expectedOut - quote.outputFee quote.minOut := by
  unfold DirectQuote.outputFee
  rw [h.minNet, h.expectedNet]
  by_cases hside : quote.fee.side = .output
  · obtain ⟨fee, -, hamount⟩ := h.resolved hside
    rw [if_pos hside, net_of_output hside, net_of_output hside, hamount]
    exact ⟨rfl, rfl⟩
  · rw [if_neg hside, net_of_other hside, net_of_other hside]
    exact ⟨rfl, rfl⟩

/-- A quote put under an enforced floor within its expectation is consistent, and nothing is
refused of one that was assembled. -/
theorem underFloor_ok {intent : DirectSwapIntent} {quote : DirectQuote} {enforced : ℕ}
    (h : quote.Assembled intent) (hle : enforced ≤ quote.expectedOut) :
    ∃ held, quote.underFloor enforced = .ok held ∧ held.Consistent ∧ held.minOut = enforced ∧
      held.minNetOut = enforced - quote.outputFee enforced := by
  unfold DirectQuote.underFloor DirectQuote.outputFee
  by_cases hside : quote.fee.side = .output
  · obtain ⟨fee, hfee, -⟩ := h.resolved hside
    obtain ⟨hout, hamount, -⟩ := resolve_output hfee
    rw [if_pos hside, if_pos hside, h.inputMint, h.outputMint, hfee]
    have hcapped : ({ fee with amount := min fee.amount enforced } : PlatformFee).side = .output :=
      hout
    refine ⟨_, rfl, ⟨?_, ?_, hle, fun _ => Nat.min_le_right _ _⟩, rfl, ?_⟩
    · exact (net_of_output hcapped _).symm
    · exact (net_of_output hcapped _).symm
    · rw [← hamount]
  · rw [if_neg hside, if_neg hside]
    refine ⟨_, rfl, ⟨?_, ?_, hle, fun hout => absurd hout hside⟩, rfl, rfl⟩
    · exact h.expectedNet
    · exact (net_of_other hside _).symm

/-- A quote the engine accepts stays balanced under a higher floor: its fee left something of its
own. -/
theorem underFloor_balanced {intent : DirectSwapIntent} {quote held : DirectQuote} {enforced : ℕ}
    (h : quote.Assembled intent) (hbalanced : quote.Balanced intent)
    (hle : quote.minOut ≤ enforced) (hheld : quote.underFloor enforced = .ok held) :
    held.Balanced intent := by
  have hkept := hbalanced.kept
  have houtput := hbalanced.output
  unfold DirectQuote.underFloor at hheld
  by_cases hside : quote.fee.side = .output
  · obtain ⟨fee, hfee, hamount⟩ := h.resolved hside
    obtain ⟨hout, hrate, -⟩ := resolve_output hfee
    obtain ⟨-, -, hon⟩ := PlatformFee.resolve_cases hfee
    have hinput := hbalanced.input
    rw [if_pos hside, h.inputMint, h.outputMint, hfee] at hheld
    obtain rfl := Except.ok.inj hheld
    rw [if_pos hside, hamount, ← hrate] at houtput
    rw [hside] at hinput
    refine ⟨hbalanced.distinct, ?_, hbalanced.swapped, ?_, ?_, ?_⟩
    · obtain ⟨hnone, -⟩ | hon := hon
      · rw [hout] at hnone
        cases hnone
      · exact .inr hon
    · simpa [hout] using hinput
    · simp only [hout, if_true]
      omega
    · dsimp only
      omega
  · rw [if_neg hside] at hheld
    obtain rfl := Except.ok.inj hheld
    rw [if_neg hside] at houtput
    refine ⟨hbalanced.distinct, hbalanced.paid, hbalanced.swapped, hbalanced.input, ?_, ?_⟩
    · simp [hside]
    · dsimp only
      omega

/-- What a plan is built from: a quote the engine accepts, or an accepted floor held against one. -/
inductive DirectQuote.Executed (intent : DirectSwapIntent) (market : PoolMarket) :
    DirectQuote → Prop
  | accepted {quote : DirectQuote} (h : quoteWithMarket intent market = .ok quote) :
      Executed intent market quote
  | held {freshQuote held : DirectQuote} {data : DirectExecutionData}
      (h : quoteWithMarket intent market = .ok freshQuote)
      (hheld : holdAcceptedFloor freshQuote data = .ok held) : Executed intent market held

theorem DirectQuote.Executed.balanced {intent : DirectSwapIntent} {market : PoolMarket}
    {quote : DirectQuote} (h : quote.Executed intent market) : quote.Balanced intent := by
  cases h with
  | accepted h => exact quoteWithMarket_balanced h
  | held h hheld =>
    unfold holdAcceptedFloor at hheld
    obtain ⟨-, hheld⟩ := refuse_eq_ok.mp hheld
    obtain ⟨under, hunder, hheld⟩ := bind_eq_ok.mp hheld
    obtain ⟨-, hheld⟩ := refuse_eq_ok.mp hheld
    obtain rfl := Except.ok.inj hheld
    exact underFloor_balanced (quoteWithMarket_assembled h) (quoteWithMarket_balanced h)
      (le_max_left _ _) hunder

section SameIntent
variable {intent : DirectSwapIntent} {accepted fresh : DirectQuote}

theorem floor_le (ha : accepted.Assembled intent) (hf : fresh.Assembled intent)
    (hle : accepted.expectedOut ≤ fresh.expectedOut) : accepted.minOut ≤ fresh.minOut := by
  rw [ha.floor, hf.floor]
  exact Nat.div_le_div_right (Nat.mul_le_mul_right _ hle)

/-- A fresh quote that expects at least as much nets the accepted floor, and its own floor nets the
accepted one up to a unit. -/
theorem netted (ha : accepted.Assembled intent) (hf : fresh.Assembled intent)
    (hle : accepted.expectedOut ≤ fresh.expectedOut) :
    accepted.minNetOut ≤ fresh.expectedNetOut ∧
      accepted.minNetOut ≤ fresh.minOut - fresh.outputFee fresh.minOut + 1 := by
  obtain ⟨hminNet, -⟩ := ha.nets
  obtain ⟨-, hexpectedNet⟩ := hf.nets
  have hfloor := floor_le ha hf hle
  have hwithin := hf.within
  rw [hminNet, hexpectedNet]
  unfold DirectQuote.outputFee
  rw [ha.side, hf.side]
  split
  · have htolerance := ha.tolerance
    have hkept : 50 ≤ BPS_DENOMINATOR - min intent.slippageBps BPS_DENOMINATOR := by
      unfold MAX_SLIPPAGE_BPS at htolerance
      unfold BPS_DENOMINATOR
      omega
    have hnet := kept_le hle hkept
    have hfee : platformFeeAmount accepted.expectedOut ≤ accepted.minOut := by
      rw [ha.floor]
      exact Nat.div_le_div_right (Nat.mul_le_mul_left _ hkept)
    have hfreshFee : platformFeeAmount fresh.expectedOut ≤ fresh.minOut := by
      rw [hf.floor]
      exact Nat.div_le_div_right (Nat.mul_le_mul_left _ hkept)
    change minOutAfterSlippage accepted.expectedOut intent.slippageBps -
      platformFeeAmount accepted.expectedOut ≤
        minOutAfterSlippage fresh.expectedOut intent.slippageBps -
          platformFeeAmount fresh.expectedOut + 1 at hnet
    rw [← ha.floor, ← hf.floor] at hnet
    have hgross : accepted.expectedOut - platformFeeAmount accepted.expectedOut ≤
        fresh.expectedOut - platformFeeAmount fresh.expectedOut := by
      unfold platformFeeAmount PLATFORM_FEE_BPS BPS_DENOMINATOR
      omega
    have := ha.within
    omega
  · omega

end SameIntent

/-- An accepted quote and a fresh one of the same intent: a held quote is consistent and guarantees
what was accepted, up to a raw unit of rounding in the net, and a fresh quote that expects at least
as much is never refused. -/
theorem accepted_floor_held {intent : DirectSwapIntent} {market fresh : PoolMarket}
    {accepted freshQuote : DirectQuote} (haccepted : quoteWithMarket intent market = .ok accepted)
    (hfresh : quoteWithMarket intent fresh = .ok freshQuote)
    (hword : accepted.minNetOut ≤ u64Max) :
    (∀ held, holdAcceptedFloor freshQuote (executionData intent accepted) = .ok held →
      accepted.minOut ≤ held.minOut ∧ accepted.minNetOut ≤ held.minNetOut + 1 ∧ held.Consistent) ∧
    (accepted.expectedOut ≤ freshQuote.expectedOut →
      ∃ held, holdAcceptedFloor freshQuote (executionData intent accepted) = .ok held) := by
  have ha := quoteWithMarket_assembled haccepted
  have hf := quoteWithMarket_assembled hfresh
  constructor
  · intro held hheld
    unfold holdAcceptedFloor at hheld
    obtain ⟨hmoved, hheld⟩ := refuse_eq_ok.mp hheld
    obtain ⟨under, hunder, hheld⟩ := bind_eq_ok.mp hheld
    obtain ⟨hnet, hheld⟩ := refuse_eq_ok.mp hheld
    obtain rfl := Except.ok.inj hheld
    simp only [executionData, saturatingAddU64, FEE_ROUNDING_TOLERANCE] at hmoved hunder hnet
    have hwithin := hf.within
    obtain ⟨held, hok, hconsistent, hfloor, -⟩ :=
      underFloor_ok hf (show max freshQuote.minOut accepted.minOut ≤ freshQuote.expectedOut by
        omega)
    obtain rfl := Except.ok.inj (hok.symm.trans hunder)
    exact ⟨by omega, by omega, hconsistent⟩
  · intro hmore
    have hmoved : ¬(freshQuote.expectedOut < accepted.minOut ∨
        freshQuote.expectedNetOut < accepted.minNetOut) := by
      have hkept := netted ha hf hmore
      have hwithin := ha.within
      omega
    have hfloor := floor_le ha hf hmore
    obtain ⟨held, hok, -, -, hnet⟩ :=
      underFloor_ok hf (show max freshQuote.minOut accepted.minOut ≤ freshQuote.expectedOut by
        have := hf.within
        omega)
    have hkept := (netted ha hf hmore).2
    rw [max_eq_left hfloor] at hnet hok
    have htolerated : ¬ saturatingAddU64 held.minNetOut FEE_ROUNDING_TOLERANCE <
        accepted.minNetOut := by
      rw [hnet]
      unfold saturatingAddU64 FEE_ROUNDING_TOLERANCE
      omega
    refine ⟨held, refuse_eq_ok.mpr ⟨hmoved, bind_eq_ok.mpr ⟨held, ?_, ?_⟩⟩⟩
    · simp only [executionData, max_eq_left hfloor]
      exact hok
    · exact refuse_eq_ok.mpr ⟨htolerated, rfl⟩

/-- A pool of SOL and one other mint that pays `expectedOut` for anything. -/
def payingPool (expectedOut : ℕ) : PoolMarket where
  program := .raydiumCpmm
  pool := "pool"
  mints := (solMint, "mint")
  tokenProgram _ := none
  quote _ amountIn := .ok ⟨amountIn, expectedOut, 0, 0⟩
  swapRefusal _ _ _ := none
  computeUnits := 0
  settlesNativeSol := false

def saleIntent : DirectSwapIntent := ⟨"pool", "owner", "mint", solMint, 1000000, 100⟩

def purchaseIntent : DirectSwapIntent := ⟨"pool", "owner", solMint, "mint", 1000000000, 100⟩

def quotedAs (intent : DirectSwapIntent) (expectedOut minOut expectedNetOut minNetOut : ℕ)
    (swapAmountIn : ℕ) (side : FeeSide) (amount : ℕ) : DirectQuote :=
  ⟨"pool", .raydiumCpmm, intent.inputMint, intent.outputMint, intent.amountIn, swapAmountIn,
    expectedOut, minOut, expectedNetOut, minNetOut,
    ⟨side, amount, some solMint, some FEE_WALLET, 9⟩, 0, 0, intent.slippageBps⟩

/-- A fresh sale that expects a little more is held, its fee one unit dearer. -/
theorem accepted_floor_held_sale :
    ∃ held, holdAcceptedFloor
      (quotedAs saleIntent 1000200 990198 995199 985197 1000000 .output 5001)
      (executionData saleIntent
        (quotedAs saleIntent 1000000 990000 995000 985000 1000000 .output 5000))
        = .ok held :=
  (@accepted_floor_held saleIntent (payingPool 1000000) (payingPool 1000200) _ _
    (by decide +kernel) (by decide +kernel) (by decide)).2 (by decide)

/-- The fee of a purchase is on its input, in lamports, and says nothing about the floor. -/
theorem purchase_fee_above_floor :
    ¬ ∀ (intent : DirectSwapIntent) (market fresh : PoolMarket)
      (accepted freshQuote held : DirectQuote), quoteWithMarket intent market = .ok accepted →
      quoteWithMarket intent fresh = .ok freshQuote →
      holdAcceptedFloor freshQuote (executionData intent accepted) = .ok held →
      held.fee.amount ≤ held.minOut := by
  intro h
  have hquote : quoteWithMarket purchaseIntent (payingPool 100) =
      .ok (quotedAs purchaseIntent 100 99 100 99 995000000 .input 5000000) := by decide +kernel
  have hle := h purchaseIntent _ _ _ _ _ hquote hquote rfl
  revert hle
  decide

end ScreenerBot.Direct
