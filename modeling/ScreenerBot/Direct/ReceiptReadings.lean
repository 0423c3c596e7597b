import ScreenerBot.Direct.Receipt

/-!
What the reading of a receipt is of the wallet's own change.

A token output is read off one account, a native one off one transfer into the account the swap
closes, and else off the owner's lamports. Each reading is the change it stands for where what it
leaves out is nothing.
-/
namespace ScreenerBot.Direct
open Library Swaps

def amountOf (balance : TokenBalance) : ℕ := (parseBelow (2 ^ 128) balance.amount).getD 0

/-- The units of the balances that are kept. -/
def heldBy (balances : Option (List TokenBalance)) (keep : TokenBalance → Bool) : ℕ :=
  (((balances.getD []).filter keep).map amountOf).sum

/-- Every amount kept can be read, and their sum is a `u128`. -/
def ReadableBy (balances : Option (List TokenBalance)) (keep : TokenBalance → Bool) : Prop :=
  (∀ balance ∈ (balances.getD []).filter keep,
    (parseBelow (2 ^ 128) balance.amount).isSome) ∧ heldBy balances keep ≤ u128Max

def changeOf (statusMeta : TransactionMeta) (keep : TokenBalance → Bool) : ℤ :=
  heldBy statusMeta.postTokenBalances keep - heldBy statusMeta.preTokenBalances keep

section Balances
variable {balances : Option (List TokenBalance)} {keep wider : TokenBalance → Bool}

theorem ReadableBy.mono (hkeep : ∀ balance, keep balance = true → wider balance = true)
    (h : ReadableBy balances wider) : ReadableBy balances keep := by
  have hsub : ((balances.getD []).filter keep).Sublist ((balances.getD []).filter wider) :=
    List.monotone_filter_right _ hkeep
  constructor
  · intro balance hmem
    exact h.1 balance (hsub.subset hmem)
  · exact (List.Sublist.sum_le_sum (hsub.map amountOf) (fun _ _ => Nat.zero_le _)).trans h.2

theorem sumKept_eq (kept : List TokenBalance) (total : ℕ)
    (hread : ∀ balance ∈ kept, (parseBelow (2 ^ 128) balance.amount).isSome)
    (hfits : total + (kept.map amountOf).sum ≤ u128Max) :
    kept.foldlM (fun total balance =>
      (parseBelow (2 ^ 128) balance.amount).map fun amount => min (total + amount) u128Max) total =
      some (total + (kept.map amountOf).sum) := by
  induction kept generalizing total with
  | nil => rfl
  | cons balance kept ih =>
    obtain ⟨amount, hamount⟩ := Option.isSome_iff_exists.mp (hread balance List.mem_cons_self)
    have hof : amountOf balance = amount := by
      rw [amountOf, hamount]
      rfl
    rw [List.map_cons, List.sum_cons, hof] at hfits ⊢
    rw [List.foldlM_cons, hamount]
    simp only [Option.map_some, Option.bind_eq_bind, Option.bind_some]
    have hmin : min (total + amount) u128Max = total + amount := min_eq_left (by omega)
    rw [hmin, ih _ (fun b hb => hread b (List.mem_cons_of_mem _ hb)) (by omega), add_assoc]

/-- A sum that is read is that of the units held. -/
theorem sumBalances_eq (h : ReadableBy balances keep) :
    (sumBalances balances keep).getD 0 = heldBy balances keep := by
  obtain ⟨hread, hfits⟩ := h
  unfold sumBalances heldBy at *
  cases balances with
  | none => rfl
  | some list =>
    simp only [Option.bind_some, Option.getD_some] at hread hfits ⊢
    split
    · next hempty => simp [List.isEmpty_iff.mp hempty]
    · rw [sumKept_eq _ 0 hread (by omega), zero_add]
      rfl

end Balances

/-- The balance the token reading is taken from: the output account's, or else what the owner
holds of the mint. -/
def readBy (statusMeta : TransactionMeta) (details : TransactionDetails) (owner : String)
    (plan : SwapPlan) (balance : TokenBalance) : Bool :=
  let ownedMint := balance.mint == plan.quote.outputMint && balance.owner == some owner
  match accountIndexOf details plan.outputAccount with
  | some index =>
    if (sumBalances statusMeta.postTokenBalances fun other => other.accountIndex == index).isSome
    then balance.accountIndex == index else ownedMint
  | none => ownedMint

/-- The balances of the wallet in the output asset. -/
def ofWallet (details : TransactionDetails) (owner : String) (plan : SwapPlan)
    (balance : TokenBalance) : Bool :=
  accountIndexOf details plan.outputAccount == some balance.accountIndex ||
    balance.mint == plan.quote.outputMint && balance.owner == some owner

theorem tokenDelta_eq (statusMeta : TransactionMeta) (details : TransactionDetails)
    (owner : String) (plan : SwapPlan) :
    tokenDelta statusMeta details owner plan =
      (sumBalances statusMeta.postTokenBalances (readBy statusMeta details owner plan)).map
        fun post => (post - (sumBalances statusMeta.preTokenBalances
          (readBy statusMeta details owner plan)).getD 0) % 2 ^ 64 := by
  unfold tokenDelta readBy
  cases accountIndexOf details plan.outputAccount with
  | none => rfl
  | some index =>
    cases hpost : sumBalances statusMeta.postTokenBalances
        fun other => other.accountIndex == index with
    | none => simp [hpost]
    | some post => simp [hpost]

theorem ofWallet_of_readBy {statusMeta : TransactionMeta} {details : TransactionDetails}
    {owner : String} {plan : SwapPlan} (balance : TokenBalance)
    (h : readBy statusMeta details owner plan balance = true) :
    ofWallet details owner plan balance = true := by
  unfold readBy at h
  unfold ofWallet
  cases hindex : accountIndexOf details plan.outputAccount with
  | none =>
    rw [hindex] at h
    simpa using h
  | some index =>
    simp only [hindex] at h
    split at h
    · simp_all
    · simp_all

/-- The balances of the wallet that the reading leaves out. -/
def unread (statusMeta : TransactionMeta) (details : TransactionDetails) (owner : String)
    (plan : SwapPlan) (balance : TokenBalance) : Bool :=
  ofWallet details owner plan balance && !readBy statusMeta details owner plan balance

theorem heldBy_split (statusMeta : TransactionMeta) (details : TransactionDetails)
    (owner : String) (plan : SwapPlan) (balances : Option (List TokenBalance)) :
    heldBy balances (ofWallet details owner plan) =
      heldBy balances (readBy statusMeta details owner plan) +
        heldBy balances (unread statusMeta details owner plan) := by
  unfold heldBy
  induction balances.getD [] with
  | nil => rfl
  | cons balance list ih =>
    by_cases hread : readBy statusMeta details owner plan balance = true
    · have hwallet := ofWallet_of_readBy balance hread
      simp only [List.filter_cons, hwallet, hread, unread, Bool.not_true, Bool.and_false, if_true,
        Bool.false_eq_true, if_false, List.map_cons, List.sum_cons] at ih ⊢
      omega
    · by_cases hwallet : ofWallet details owner plan balance = true
      · simp only [List.filter_cons, hwallet, hread, unread, Bool.not_false, Bool.and_true, if_true,
          Bool.false_eq_true, if_false, List.map_cons, List.sum_cons] at ih ⊢
        omega
      · simp only [List.filter_cons, hwallet, hread, unread, Bool.and_true, Bool.not_false,
          Bool.false_eq_true, if_false] at ih ⊢
        omega

/-- What a 64-bit unsigned reading leaves out of a change: a loss, and every multiple of
`2 ^ 64`. -/
def leftOut (change : ℤ) : ℤ := change - max change 0 % 2 ^ 64

/-- A token reading is the wallet's change where what is left out of it cancels. -/
theorem tokenDelta_iff {statusMeta : TransactionMeta} {details : TransactionDetails}
    {owner : String} {plan : SwapPlan} {received : ℕ}
    (hpre : ReadableBy statusMeta.preTokenBalances (ofWallet details owner plan))
    (hpost : ReadableBy statusMeta.postTokenBalances (ofWallet details owner plan))
    (h : tokenDelta statusMeta details owner plan = some received) :
    (received : ℤ) = changeOf statusMeta (ofWallet details owner plan) ↔
      changeOf statusMeta (unread statusMeta details owner plan) +
        leftOut (changeOf statusMeta (readBy statusMeta details owner plan)) = 0 := by
  rw [tokenDelta_eq] at h
  obtain ⟨post, hsum, rfl⟩ := Option.map_eq_some_iff.mp h
  have hpostHeld := sumBalances_eq (hpost.mono (@ofWallet_of_readBy statusMeta _ _ _))
  have hpreHeld := sumBalances_eq (hpre.mono (@ofWallet_of_readBy statusMeta _ _ _))
  rw [hsum, Option.getD_some] at hpostHeld
  rw [hpreHeld, hpostHeld]
  unfold changeOf leftOut
  rw [heldBy_split statusMeta, heldBy_split statusMeta]
  push_cast
  have hgain : ∀ a b : ℕ, ((a - b : ℕ) : ℤ) = max ((a : ℤ) - b) 0 := by omega
  rw [hgain]
  omega

/-- The readable inner transfers into the output account, in order. -/
def transfersInto (statusMeta : TransactionMeta) (outputAccount : String) : List ℕ :=
  (statusMeta.innerInstructions.getD []).flatMap fun group =>
    (((group.get "instructions").bind Json.asArray).getD []).filterMap
      (transferredInto outputAccount)

theorem swapOutputTransferAmount_eq (statusMeta : TransactionMeta) (outputAccount : String) :
    swapOutputTransferAmount statusMeta outputAccount =
      (transfersInto statusMeta outputAccount).head? := by
  unfold swapOutputTransferAmount transfersInto
  cases statusMeta.innerInstructions with
  | none => rfl
  | some groups => simp [List.head?_flatMap, List.head?_filterMap]

/-- What the owner gained with the network fee, or nothing where that is a loss. -/
def lamportGain (statusMeta : TransactionMeta) (index : ℕ) : ℕ :=
  ((((statusMeta.postBalances[index]?).getD 0 : ℕ) : ℤ) + statusMeta.fee -
    ((statusMeta.preBalances[index]?).getD 0 : ℕ)).toNat

/-- The owner did not lose, and its gain with the fee is a `u64`; or there was no fee. -/
def LamportsGrew (statusMeta : TransactionMeta) (index : ℕ) : Prop :=
  let pre := (statusMeta.preBalances[index]?).getD 0
  let post := (statusMeta.postBalances[index]?).getD 0
  if pre ≤ post then post - pre + statusMeta.fee ≤ u64Max else statusMeta.fee = 0

theorem lamport_reading_iff {statusMeta : TransactionMeta} (hfee : statusMeta.fee ≤ u64Max)
    (index : ℕ) :
    saturatingAddU64 ((statusMeta.postBalances[index]?).getD 0 -
        (statusMeta.preBalances[index]?).getD 0) statusMeta.fee = lamportGain statusMeta index ↔
      LamportsGrew statusMeta index := by
  unfold saturatingAddU64 lamportGain LamportsGrew
  generalize (statusMeta.postBalances[index]?).getD 0 = post
  generalize (statusMeta.preBalances[index]?).getD 0 = pre
  dsimp only
  split
  · omega
  · omega

/-- The exact reading of a token output is the wallet's change. -/
def TokenReadingExact (statusMeta : TransactionMeta) (details : TransactionDetails)
    (owner : String) (plan : SwapPlan) (received : ℕ) : Prop :=
  ReadableBy statusMeta.preTokenBalances (ofWallet details owner plan) ∧
  ReadableBy statusMeta.postTokenBalances (ofWallet details owner plan) ∧
  (received : ℤ) = changeOf statusMeta (ofWallet details owner plan)

/-- Every balance of the wallet in the output asset can be read, the ones beside the account that
is read changed by nothing, and that account gained what 64 bits hold. -/
def TokenReadingWhole (statusMeta : TransactionMeta) (details : TransactionDetails)
    (owner : String) (plan : SwapPlan) : Prop :=
  ReadableBy statusMeta.preTokenBalances (ofWallet details owner plan) ∧
  ReadableBy statusMeta.postTokenBalances (ofWallet details owner plan) ∧
  changeOf statusMeta (unread statusMeta details owner plan) +
    leftOut (changeOf statusMeta (readBy statusMeta details owner plan)) = 0

/-- The transfers into the output account after the first make up what it is short of the fee. -/
def FirstTransferWhole (statusMeta : TransactionMeta) (plan : SwapPlan) : Prop :=
  (transfersInto statusMeta plan.outputAccount).tail.sum =
    plan.quote.fee.amount - (transfersInto statusMeta plan.outputAccount).headD 0

/-- A native receipt is the first transfer less the fee, where that reaches the floor. -/
theorem nativeReceipt_exact {owner : String} {plan : SwapPlan} {details : TransactionDetails}
    {statusMeta : TransactionMeta}
    (hexact : (nativeReceipt owner plan details statusMeta).isExact = true) :
    ∃ gross, swapOutputTransferAmount statusMeta plan.outputAccount = some gross ∧
      (nativeReceipt owner plan details statusMeta).received = gross - plan.quote.fee.amount ∧
      plan.quote.minNetOut ≤ gross - plan.quote.fee.amount := by
  unfold nativeReceipt at hexact ⊢
  cases hgross : swapOutputTransferAmount statusMeta plan.outputAccount with
  | none =>
    cases hindex : accountIndexOf details owner <;> simp [hgross, hindex] at hexact
  | some gross =>
    by_cases hfloor : plan.quote.minNetOut ≤ gross - plan.quote.fee.amount
    · exact ⟨gross, rfl, by simp [hfloor], hfloor⟩
    · cases hindex : accountIndexOf details owner <;> simp [hgross, hindex, hfloor] at hexact

theorem nativeReceipt_lamports {owner : String} {plan : SwapPlan} {details : TransactionDetails}
    {statusMeta : TransactionMeta} {index : ℕ}
    (hexact : (nativeReceipt owner plan details statusMeta).isExact = false)
    (hindex : accountIndexOf details owner = some index) :
    (nativeReceipt owner plan details statusMeta).received =
      saturatingAddU64 ((statusMeta.postBalances[index]?).getD 0 -
        (statusMeta.preBalances[index]?).getD 0) statusMeta.fee := by
  unfold nativeReceipt at hexact ⊢
  cases hgross : swapOutputTransferAmount statusMeta plan.outputAccount with
  | none => simp [hindex]
  | some gross =>
    by_cases hfloor : plan.quote.minNetOut ≤ gross - plan.quote.fee.amount
    · simp [hgross, hfloor] at hexact
    · simp [hindex, hfloor]

/-- The first transfer less the fee is all the transfers less the fee where the rest is its
shortfall. -/
theorem firstTransfer_iff {statusMeta : TransactionMeta} {plan : SwapPlan} {gross : ℕ}
    (h : swapOutputTransferAmount statusMeta plan.outputAccount = some gross) :
    ((gross - plan.quote.fee.amount : ℕ) : ℤ) =
        (transfersInto statusMeta plan.outputAccount).sum - plan.quote.fee.amount ↔
      FirstTransferWhole statusMeta plan := by
  rw [swapOutputTransferAmount_eq] at h
  unfold FirstTransferWhole
  cases htransfers : transfersInto statusMeta plan.outputAccount with
  | nil => simp [htransfers] at h
  | cons first rest =>
    obtain rfl : first = gross := by simpa [htransfers] using h
    simp only [List.sum_cons, List.tail_cons, List.headD_cons]
    omega

/-- An exact receipt is never below the floor. Its reading is the wallet's change, and a reading of
lamports the gain of the owner, exactly where nothing is left out of it. -/
theorem receipt_readings (signature owner : String) (plan : SwapPlan)
    (details : TransactionDetails) (receipt : Receipt)
    (h : receiptFromTransaction signature owner plan details = .ok receipt) :
    (details.statusMeta = none → receipt.isExact = false) ∧
    ∀ statusMeta, details.statusMeta = some statusMeta → statusMeta.fee ≤ u64Max →
      (receipt.isExact = true → plan.quote.minNetOut ≤ receipt.received) ∧
      (receipt.isExact = true → plan.outputIsNative = false →
        (TokenReadingExact statusMeta details owner plan receipt.received ↔
          TokenReadingWhole statusMeta details owner plan)) ∧
      (receipt.isExact = true → plan.outputIsNative = true →
        ((receipt.received : ℤ) = (transfersInto statusMeta plan.outputAccount).sum -
            plan.quote.fee.amount ↔ FirstTransferWhole statusMeta plan)) ∧
      ∀ index, receipt.isExact = false → plan.outputIsNative = true →
        accountIndexOf details owner = some index →
        (receipt.received = lamportGain statusMeta index ↔ LamportsGrew statusMeta index) := by
  constructor
  · intro hnone
    rw [receiptFromTransaction, hnone] at h
    obtain rfl := Except.ok.inj h
    rfl
  intro statusMeta hmeta hfee
  unfold receiptFromTransaction at h
  rw [hmeta] at h
  dsimp only at h
  split at h
  · cases h
  · cases hnative : plan.outputIsNative with
    | true =>
      rw [hnative, if_pos rfl] at h
      obtain rfl := Except.ok.inj h
      refine ⟨?_, fun _ hfalse => absurd hfalse (by simp), ?_, ?_⟩
      · intro hexact
        obtain ⟨gross, -, hreceived, hfloor⟩ := nativeReceipt_exact hexact
        rw [hreceived]
        exact hfloor
      · intro hexact _
        obtain ⟨gross, hgross, hreceived, -⟩ := nativeReceipt_exact hexact
        rw [hreceived]
        exact firstTransfer_iff hgross
      · intro index hexact _ hindex
        rw [nativeReceipt_lamports hexact hindex]
        exact lamport_reading_iff hfee index
    | false =>
      rw [hnative, if_neg Bool.false_ne_true] at h
      split at h
      · obtain rfl := Except.ok.inj h
        simp
      · next received hdelta =>
        split at h
        · cases h
        · next hfloor =>
          obtain rfl := Except.ok.inj h
          refine ⟨fun _ => not_lt.mp hfloor, ?_, fun _ hfalse => absurd hfalse (by simp),
            fun _ hfalse => absurd hfalse (by simp)⟩
          intro _ _
          constructor
          · rintro ⟨hpre, hpost, hchange⟩
            exact ⟨hpre, hpost, (tokenDelta_iff hpre hpost hdelta).mp hchange⟩
          · rintro ⟨hpre, hpost, hcancel⟩
            exact ⟨hpre, hpost, (tokenDelta_iff hpre hpost hdelta).mpr hcancel⟩

/-- A sale for SOL whose inner transfers are not in the reply. -/
def unwrappedPlan : SwapPlan :=
  { instructions := []
    venueComputeUnits := 0
    inputAccount := "TokenAccount"
    outputAccount := "WrappedAccount"
    outputIsNative := true
    quote :=
      { pool := "Pool", program := .pumpFunLegacy, inputMint := "Mint", outputMint := solMint
        amountIn := 1000000, swapAmountIn := 1000000, expectedOut := 2000, minOut := 1990
        expectedNetOut := 2000, minNetOut := 1990, fee := PlatformFee.none, lpFee := 0
        priceImpactPct := 0, slippageBps := 50 } }

/-- Its owner, who ends with less: the network fee and rent outweigh what the sale paid. -/
def outweighedMeta : TransactionMeta :=
  { err := none, preBalances := [1000000000, 50000], postBalances := [999990000, 48000]
    preTokenBalances := none, postTokenBalances := none, fee := 5000
    innerInstructions := none }

def outweighedSale : TransactionDetails :=
  { slot := 42
    message := .obj [("accountKeys", .arr [.str "Owner", .str "Pool"])]
    statusMeta := some outweighedMeta }

/-- The owner lost with the fee added back too, and the receipt reads the fee as received. -/
theorem lost_lamports_read_as_gain :
    receiptFromTransaction "signature" "Owner" unwrappedPlan outweighedSale =
      .ok ⟨5000, false, 5000, 42⟩ ∧ lamportGain outweighedMeta 0 = 0 := by
  decide +kernel

/-- The condition tells so beforehand. -/
theorem lost_lamports_not_grown :
    5000 = lamportGain outweighedMeta 0 ↔ LamportsGrew outweighedMeta 0 :=
  ((receipt_readings "signature" "Owner" unwrappedPlan outweighedSale ⟨5000, false, 5000, 42⟩
    (by decide +kernel)).2 outweighedMeta rfl (by decide)).2.2.2 0 rfl rfl (by decide +kernel)

end ScreenerBot.Direct
