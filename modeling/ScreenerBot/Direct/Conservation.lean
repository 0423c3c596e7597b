import ScreenerBot.Direct.AcceptedFloor
import ScreenerBot.Direct.Floors

/-! A plan run against a funded wallet: every instruction is covered where it stands, the input is
drawn exactly, and the wallet keeps what the quote promised. -/
namespace ScreenerBot.Direct

open Library Swaps

/-- The transfer of a fee: none for nothing, lamports for SOL, a checked transfer for USDC. -/
theorem transferInstruction_cases {fee : PlatformFee} {inputMint outputMint : String}
    (h : fee.PaidOn inputMint outputMint) (source authority : String) :
    fee.amount = 0 ∧ fee.transferInstruction source authority = none ∨
      fee.side.leg inputMint outputMint = some solMint ∧ fee.isNative = true ∧
        fee.transferInstruction source authority =
          some (.transferLamports authority FEE_WALLET fee.amount) ∨
      fee.side.leg inputMint outputMint = some usdcMint ∧ fee.isNative = false ∧
        fee.transferInstruction source authority =
          some (.transferChecked source usdcMint FEE_TOKEN_ACCOUNT_USDC authority fee.amount
            fee.decimals) := by
  by_cases hzero : fee.amount = 0
  · exact .inl ⟨hzero, by simp [PlatformFee.transferInstruction, PlatformFee.isCollectible, hzero]⟩
  · obtain ⟨-, hnone⟩ | ⟨mint, hleg, hmint, ⟨rfl, hdestination⟩ | ⟨rfl, hdestination⟩⟩ := h
    · rw [hnone] at hzero
      exact absurd rfl hzero
    · refine .inr (.inl ⟨hleg, by simp [PlatformFee.isNative, hmint], ?_⟩)
      simp [PlatformFee.transferInstruction, PlatformFee.isCollectible, PlatformFee.isNative,
        hmint, hdestination, Nat.pos_of_ne_zero hzero]
    · have husdc : usdcMint ≠ solMint := by decide
      refine .inr (.inr ⟨hleg, by simp [PlatformFee.isNative, hmint, husdc], ?_⟩)
      simp [PlatformFee.transferInstruction, PlatformFee.isCollectible, PlatformFee.isNative,
        hmint, hdestination, husdc, Nat.pos_of_ne_zero hzero]

section Segments

variable {rent : String → ℕ} {fill reserve : ℕ} {intent : DirectSwapIntent} {market : PoolMarket}
  {legs : WalletLegs} {quote : DirectQuote} {floor : Floor}

/-- The chain a plan runs on: the rents, the pool it was built for, and the pool's yield. -/
def conditionsFor (rent : String → ℕ) (market : PoolMarket) (fill : ℕ) : Conditions :=
  ⟨rent, market.settlesNativeSol, fill⟩

/-- The holding the pool takes the input from. -/
def spendsSlot (intent : DirectSwapIntent) (market : PoolMarket) : Slot :=
  if market.settlesNativeSol ∧ intent.inputMint = solMint then .lamports else .input

/-- The holding the pool pays the output to. -/
def receivesSlot (intent : DirectSwapIntent) (market : PoolMarket) : Slot :=
  if market.settlesNativeSol ∧ intent.outputMint = solMint then .lamports else .output

theorem spends_holding : (conditionsFor rent market fill).spends (swapAccounts intent legs) =
    (spendsSlot intent market).holding (swapAccounts intent legs) := by
  by_cases h : market.settlesNativeSol = true ∧ intent.inputMint = solMint
  · simp [Conditions.spends, spendsSlot, conditionsFor, swapAccounts, Slot.holding, h]
  · simp [Conditions.spends, spendsSlot, conditionsFor, swapAccounts, Slot.holding, h]

theorem receives_holding : (conditionsFor rent market fill).receives (swapAccounts intent legs) =
    (receivesSlot intent market).holding (swapAccounts intent legs) := by
  by_cases h : market.settlesNativeSol = true ∧ intent.outputMint = solMint
  · simp [Conditions.receives, receivesSlot, conditionsFor, swapAccounts, Slot.holding, h]
  · simp [Conditions.receives, receivesSlot, conditionsFor, swapAccounts, Slot.holding, h]

/-- Wherever the pool pays, its yield is among the lamports and the output together. -/
theorem receives_add (floor : Floor) (intent : DirectSwapIntent) (market : PoolMarket) (n : ℕ) :
    (floor + Pi.single (receivesSlot intent market) n : Floor) .lamports +
        (floor + Pi.single (receivesSlot intent market) n : Floor) .output =
      floor .lamports + floor .output + n := by
  by_cases h : market.settlesNativeSol ∧ intent.outputMint = solMint
  · have hslot : receivesSlot intent market = .lamports := if_pos h
    simp only [hslot, Pi.add_apply, Pi.single_eq_same,
      Pi.single_eq_of_ne (show Slot.output ≠ .lamports by decide)]
    omega
  · have hslot : receivesSlot intent market = .output := if_neg h
    simp only [hslot, Pi.add_apply, Pi.single_eq_same,
      Pi.single_eq_of_ne (show Slot.lamports ≠ .output by decide)]
    omega

theorem achieves_wrap (hmints : intent.inputMint ≠ intent.outputMint)
    (hswapped : 0 < quote.swapAmountIn) :
    Achieves (Instruction.execute (conditionsFor rent market fill))
      (Covers (swapAccounts intent legs) reserve
        (floor + Pi.single (fundingSlot (swapAccounts intent legs)) quote.swapAmountIn))
      (wrapInstructions intent market legs quote)
      (Covers (swapAccounts intent legs) reserve
        (floor + Pi.single (spendsSlot intent market) quote.swapAmountIn)) := by
  by_cases hsol : intent.inputMint = solMint
  · have hfunding : fundingSlot (swapAccounts intent legs) = .lamports := if_pos hsol
    by_cases hnative : market.settlesNativeSol = true
    · have hslot : spendsSlot intent market = .lamports := if_pos ⟨hnative, hsol⟩
      rw [hfunding, hslot, wrapInstructions]
      simp only [hnative, if_true, lt_irrefl, and_false, if_false]
      exact .nil fun _ h => h
    · have hslot : spendsSlot intent market = .input := if_neg fun h => hnative h.1
      rw [hfunding, hslot, wrapInstructions]
      simp only [hnative, if_false, hswapped, and_true, DirectSwapIntent.wrapsNative, isWsol, hsol,
        beq_self_eq_true, if_true, Bool.false_eq_true]
      intro ledger h
      obtain ⟨paid, after, hpaid, hafter, hcovers⟩ := h.wrap hmints hsol
      refine ⟨after, ?_, hcovers⟩
      simp only [List.foldlM_cons, List.foldlM_nil, Instruction.execute]
      have htransfer : ledger.transferLamports intent.owner legs.inputAccount quote.swapAmountIn =
        some paid := hpaid
      have hsync : paid.syncNative legs.inputAccount = some after := hafter
      simp [htransfer, hsync]
  · have hfunding : fundingSlot (swapAccounts intent legs) = .input := if_neg hsol
    have hslot : spendsSlot intent market = .input := if_neg fun h => hsol h.2
    rw [hfunding, hslot, wrapInstructions]
    simp only [DirectSwapIntent.wrapsNative, isWsol, beq_iff_eq, hsol, false_and, if_false]
    exact .nil fun _ h => h

theorem hasMint_input {ledger : Ledger}
    (h : Covers (swapAccounts intent legs) reserve floor ledger) :
    ledger.hasMint legs.inputAccount intent.inputMint := by
  obtain ⟨token, htoken, hmint⟩ := h.input
  have hheld : ledger.tokens legs.inputAccount = some token := htoken
  have hleg : token.mint = intent.inputMint := hmint
  simp [Ledger.hasMint, hheld, hleg]

theorem hasMint_output {ledger : Ledger}
    (h : Covers (swapAccounts intent legs) reserve floor ledger) :
    ledger.hasMint legs.outputAccount intent.outputMint := by
  obtain ⟨token, htoken, hmint, -⟩ := h.output
  have hheld : ledger.tokens legs.outputAccount = some token := htoken
  have hleg : token.mint = intent.outputMint := hmint
  simp [Ledger.hasMint, hheld, hleg]

/-- The fee on the input is paid from what funds the swap. -/
theorem achieves_inputFee (hmints : intent.inputMint ≠ intent.outputMint)
    (hpaid : quote.fee.PaidOn intent.inputMint intent.outputMint) :
    Achieves (Instruction.execute (conditionsFor rent market fill))
      (Covers (swapAccounts intent legs) reserve
        (floor + Pi.single (fundingSlot (swapAccounts intent legs))
          (if quote.fee.side = .input then quote.fee.amount else 0)))
      (inputFeeInstructions intent legs quote)
      (Covers (swapAccounts intent legs) reserve floor) := by
  unfold inputFeeInstructions
  by_cases hside : quote.fee.side = .input
  · simp only [hside, if_true]
    obtain ⟨hzero, hnone⟩ | ⟨hleg, -, htransfer⟩ | ⟨hleg, -, htransfer⟩ :=
      transferInstruction_cases hpaid legs.inputAccount intent.owner
    · rw [hnone, hzero, Pi.single_zero, add_zero]
      exact .nil fun _ h => h
    · rw [hside] at hleg
      have hsol : intent.inputMint = solMint := Option.some.inj hleg
      have hfunding : fundingSlot (swapAccounts intent legs) = .lamports := if_pos hsol
      rw [htransfer, hfunding]
      exact .single fun ledger h => h.transferLamports hmints FEE_WALLET
    · rw [hside] at hleg
      have husdc : intent.inputMint = usdcMint := Option.some.inj hleg
      have hfunding : fundingSlot (swapAccounts intent legs) = .input :=
        if_neg fun hsol => absurd (husdc.symm.trans hsol) (by decide)
      rw [htransfer, hfunding]
      exact .single fun ledger h => h.transferFee hmints rfl (husdc ▸ hasMint_input h)
  · simp only [hside, if_false, Pi.single_zero, add_zero]
    exact .nil fun _ h => h

theorem achieves_swap (hmints : intent.inputMint ≠ intent.outputMint)
    (hfill : quote.minOut ≤ fill) :
    Achieves (Instruction.execute (conditionsFor rent market fill))
      (Covers (swapAccounts intent legs) reserve
        (floor + Pi.single (spendsSlot intent market) quote.swapAmountIn))
      [.swap (swapAccounts intent legs) quote.swapAmountIn quote.minOut]
      (Covers (swapAccounts intent legs) reserve
        (floor + Pi.single (receivesSlot intent market) fill)) := by
  refine .single fun ledger h => ?_
  obtain ⟨paid, htake, hpaid⟩ := h.take hmints
  obtain ⟨after, hgive, hafter⟩ := hpaid.give (receivesSlot intent market) fill
  refine ⟨after, ?_, hafter⟩
  rw [Instruction.execute, Ledger.swap,
    if_neg (show ¬(conditionsFor rent market fill).fill < quote.minOut from Nat.not_lt.mpr hfill),
    spends_holding, receives_holding, htake]
  exact hgive

/-- A USDC fee on the output comes out of what the pool paid. -/
theorem achieves_tokenFee (hmints : intent.inputMint ≠ intent.outputMint)
    (hpaid : quote.fee.PaidOn intent.inputMint intent.outputMint)
    (hcovered : quote.fee.side = .output → quote.fee.amount ≤ fill) :
    Achieves (Instruction.execute (conditionsFor rent market fill))
      (Covers (swapAccounts intent legs) reserve
        (floor + Pi.single (receivesSlot intent market) fill))
      (if quote.fee.isNative then [] else outputFeeInstructions intent legs quote)
      (Covers (swapAccounts intent legs) reserve
        (floor + Pi.single (receivesSlot intent market)
          (fill - if quote.fee.side = .output ∧ quote.fee.isNative = false then quote.fee.amount
            else 0))) := by
  unfold outputFeeInstructions
  by_cases hcharged : quote.fee.side = .output ∧ quote.fee.isNative = false
  · obtain ⟨hside, hnative⟩ := hcharged
    simp only [hside, hnative, if_true, true_and, Bool.false_eq_true, if_false]
    obtain ⟨hzero, hnone⟩ | ⟨-, hsol, -⟩ | ⟨hleg, -, htransfer⟩ :=
      transferInstruction_cases hpaid legs.outputAccount intent.owner
    · rw [hnone, hzero, Nat.sub_zero]
      exact .nil fun _ h => h
    · rw [hnative] at hsol
      cases hsol
    · rw [hside] at hleg
      have husdc : intent.outputMint = usdcMint := Option.some.inj hleg
      have hslot : receivesSlot intent market = .output :=
        if_neg fun hsol => absurd (husdc.symm.trans hsol.2) (by decide)
      rw [htransfer, hslot]
      refine .single fun ledger h => ?_
      have hfill := hcovered hside
      rw [← Nat.sub_add_cancel hfill, Pi.single_add, ← add_assoc] at h
      exact h.transferFee hmints rfl (husdc ▸ hasMint_output h)
  · rw [if_neg hcharged, Nat.sub_zero]
    by_cases hnative : quote.fee.isNative = true
    · rw [if_pos hnative]
      exact .nil fun _ h => h
    · have hside : quote.fee.side ≠ .output := fun hside => hcharged ⟨hside, by simpa using hnative⟩
      rw [if_neg hnative, if_neg hside]
      exact .nil fun _ h => h

/-- The holding the proceeds end in. -/
def proceedsSlot (accounts : SwapAccounts) : Slot :=
  if accounts.outputMint = solMint then .lamports else .output

/-- What the last steps leave: the funding above its floor, and the proceeds above theirs by what
the quote promises, the rent of a closed output account among them. -/
def Delivered (intent : DirectSwapIntent) (legs : WalletLegs) (quote : DirectQuote) (reserve : ℕ)
    (floor : Floor) (final : Ledger) : Prop :=
  let accounts := swapAccounts intent legs
  floor (fundingSlot accounts) ≤ final.holds ((fundingSlot accounts).holding accounts) ∧
    floor (proceedsSlot accounts) + (if intent.outputMint = solMint then reserve else 0) +
      quote.minNetOut ≤ final.holds ((proceedsSlot accounts).holding accounts)

/-- A fee on an output that is not SOL is not paid in lamports. -/
theorem nativeFee_nil (hpaid : quote.fee.PaidOn intent.inputMint intent.outputMint)
    (hsol : intent.outputMint ≠ solMint) :
    (if quote.fee.isNative then outputFeeInstructions intent legs quote else []) = [] := by
  unfold outputFeeInstructions
  by_cases hside : quote.fee.side = .output
  · obtain ⟨-, hnone⟩ | ⟨hleg, -, -⟩ | ⟨-, hnative, -⟩ :=
      transferInstruction_cases hpaid legs.outputAccount intent.owner
    · simp [hnone]
    · rw [hside] at hleg
      exact absurd (Option.some.inj hleg) hsol
    · simp [hnative]
  · simp [hside]

/-- The wallet's lamports once its wrapped proceeds are closed into them. -/
def Unwrapped (intent : DirectSwapIntent) (legs : WalletLegs) (reserve kept : ℕ) (floor : Floor)
    (ledger : Ledger) : Prop :=
  ledger.tokens intent.owner = none ∧
    floor .lamports + reserve + kept ≤ ledger.holds (.lamports intent.owner) ∧
    floor .input ≤ ledger.holds (.token legs.inputAccount)

theorem delivered_of_unwrapped (kept : ℕ) {ledger : Ledger}
    (hmints : intent.inputMint ≠ intent.outputMint) (hout : intent.outputMint = solMint)
    (h : Unwrapped intent legs reserve kept floor ledger) (hkept : quote.minNetOut ≤ kept) :
    Delivered intent legs quote reserve floor ledger := by
  have hin : intent.inputMint ≠ solMint := fun hsol => hmints (hsol.trans hout.symm)
  have hfunding : fundingSlot (swapAccounts intent legs) = .input := if_neg hin
  have hproceeds : proceedsSlot (swapAccounts intent legs) = .lamports := if_pos hout
  obtain ⟨-, hlamports, hinput⟩ := h
  refine ⟨?_, ?_⟩
  · rw [hfunding]
    exact hinput
  · rw [hproceeds, if_pos hout]
    refine le_trans ?_ hlamports
    omega

/-- A SOL fee on the output is paid from the lamports the proceeds are unwrapped into. -/
theorem achieves_nativeFee (hbalanced : quote.Balanced intent)
    (hout : intent.outputMint = solMint) (hfill : quote.minOut ≤ fill) :
    Achieves (Instruction.execute (conditionsFor rent market fill))
      (Unwrapped intent legs reserve
        (fill - if quote.fee.side = .output ∧ quote.fee.isNative = false then quote.fee.amount
          else 0) floor)
      (if quote.fee.isNative then outputFeeInstructions intent legs quote else [])
      (Delivered intent legs quote reserve floor) := by
  have hmints := hbalanced.distinct
  have hnet := hbalanced.output
  unfold outputFeeInstructions
  by_cases hside : quote.fee.side = .output
  · simp only [hside, if_true, true_and] at hnet ⊢
    obtain ⟨hzero, hnone⟩ | ⟨-, hnative, htransfer⟩ | ⟨hleg, -, -⟩ :=
      transferInstruction_cases hbalanced.paid legs.outputAccount intent.owner
    · simp only [hnone, hzero, ite_self, Nat.sub_zero, Option.toList_none]
      exact .nil fun ledger h => delivered_of_unwrapped _ hmints hout h (by omega)
    · simp only [hnative, htransfer, if_true, Bool.true_eq_false, if_false, Nat.sub_zero,
        Option.toList_some]
      refine .single fun ledger h => ?_
      obtain ⟨hwallet, hlamports, hinput⟩ := h
      obtain ⟨paid, hpaid, htokens, hmoved⟩ := Ledger.transferLamports_spec hwallet
        (n := quote.fee.amount) (by simp only [Ledger.holds] at hlamports; omega) FEE_WALLET
      refine ⟨paid, hpaid, delivered_of_unwrapped (fill - quote.fee.amount) hmints hout
        ⟨by rw [htokens, hwallet], ?_, ?_⟩ (by omega)⟩
      · have howner := hmoved intent.owner
        rw [if_pos rfl] at howner
        simp only [Ledger.holds] at hlamports ⊢
        omega
      · simpa only [Ledger.holds, htokens] using hinput
    · rw [hside] at hleg
      exact absurd ((Option.some.inj hleg).symm.trans hout) (by decide)
  · simp only [hside, if_false, ite_self, false_and, Nat.sub_zero] at hnet ⊢
    exact .nil fun ledger h => delivered_of_unwrapped _ hmints hout h (by omega)

theorem achieves_close (hbalanced : quote.Balanced intent) (hfill : quote.minOut ≤ fill) :
    Achieves (Instruction.execute (conditionsFor rent market fill))
      (Covers (swapAccounts intent legs) reserve
        (floor + Pi.single (receivesSlot intent market)
          (fill - if quote.fee.side = .output ∧ quote.fee.isNative = false then quote.fee.amount
            else 0)))
      (closeInstructions intent legs ++
        (if quote.fee.isNative then outputFeeInstructions intent legs quote else []))
      (Delivered intent legs quote reserve floor) := by
  have hmints := hbalanced.distinct
  have hnet := hbalanced.output
  unfold closeInstructions wsolAccount
  by_cases hout : intent.outputMint = solMint
  · have hin : intent.inputMint ≠ solMint := fun h => hmints (h.trans hout.symm)
    have hfunding : fundingSlot (swapAccounts intent legs) = .input := if_neg hin
    have hproceeds : proceedsSlot (swapAccounts intent legs) = .lamports := if_pos hout
    simp only [isWsol, beq_iff_eq, hin, hout, if_true, if_false, Option.map_some,
      Option.toList_some]
    refine (Achieves.single fun ledger h => h.closeOutput hmints hout).append ?_
    refine Achieves.weaken (fun ledger h => ?_)
      (achieves_nativeFee hbalanced hout hfill)
    obtain ⟨hwallet, hlamports, hinput⟩ := h
    refine ⟨hwallet, le_trans ?_ hlamports, ?_⟩
    · have hpaid := receives_add floor intent market
        (fill - if quote.fee.side = .output ∧ quote.fee.isNative = false then quote.fee.amount
          else 0)
      omega
    · exact (Nat.le_add_right _ _).trans hinput
  · rw [nativeFee_nil hbalanced.paid hout, List.append_nil]
    have hreceives : receivesSlot intent market = .output := if_neg fun h => hout h.2
    have hproceeds : proceedsSlot (swapAccounts intent legs) = .output := if_neg hout
    have hkept : quote.minNetOut ≤ fill - if quote.fee.side = .output ∧ quote.fee.isNative = false
        then quote.fee.amount else 0 := by
      by_cases hside : quote.fee.side = .output
      · rw [if_pos hside] at hnet
        split_ifs <;> omega
      · rw [if_neg hside] at hnet
        rw [if_neg fun h => hside h.1]
        omega
    rw [hreceives]
    by_cases hin : intent.inputMint = solMint
    · have hfunding : fundingSlot (swapAccounts intent legs) = .lamports := if_pos hin
      simp only [isWsol, hin, beq_self_eq_true, if_true, Option.map_some, Option.toList_some]
      refine .single fun ledger h => ?_
      obtain ⟨after, hclose, hlamports, houtput⟩ := h.closeInput hmints hin
      refine ⟨after, hclose, ?_, ?_⟩
      · rw [hfunding, Slot.holding]
        simpa using hlamports
      · rw [hproceeds, if_neg hout]
        simp only [Pi.add_apply, Pi.single_eq_same] at houtput
        simp only [Slot.holding]
        omega
    · have hfunding : fundingSlot (swapAccounts intent legs) = .input := if_neg hin
      simp only [isWsol, beq_iff_eq, hin, hout, if_false, Option.map_none, Option.toList_none]
      refine .nil fun ledger h => ⟨?_, ?_⟩
      · rw [hfunding]
        simpa using h.floor .input
      · have houtput := h.floor .output
        rw [hproceeds, if_neg hout]
        simp only [Pi.add_apply, Pi.single_eq_same] at houtput
        omega

/-- What the plan leaves of each holding of a funded wallet, its proceeds aside. -/
def leftAfter (rent : String → ℕ) (accounts : SwapAccounts) (amountIn : ℕ) (ledger : Ledger) :
    Floor :=
  afterRents rent accounts ledger - Pi.single (fundingSlot accounts) amountIn

theorem leftAfter_add {accounts : SwapAccounts} {amountIn : ℕ} {ledger : Ledger}
    (h : Funded rent accounts amountIn ledger) :
    leftAfter rent accounts amountIn ledger + Pi.single (fundingSlot accounts) amountIn =
      afterRents rent accounts ledger := by
  have hcovered : amountIn ≤ afterRents rent accounts ledger (fundingSlot accounts) := by
    have hlamports := h.lamports
    unfold fundingSlot
    split_ifs at hlamports ⊢ with hsol
    · simp only [afterRents]
      omega
    · exact h.input hsol
  funext slot
  by_cases hslot : slot = fundingSlot accounts
  · subst hslot
    simp only [leftAfter, Pi.add_apply, Pi.sub_apply, Pi.single_eq_same]
    omega
  · simp [leftAfter, Pi.single_eq_of_ne hslot]

theorem achieves_ensure {accounts : SwapAccounts} {amountIn : ℕ} {ledger : Ledger}
    (market : PoolMarket) (fill : ℕ)
    (haccounts : accounts = swapAccounts intent legs) (h : Funded rent accounts amountIn ledger)
    (hin : legs.inputAccount ≠ intent.owner) (hout : legs.outputAccount ≠ intent.owner)
    (hne : legs.inputAccount ≠ legs.outputAccount) (priorityFee : ℕ) :
    Achieves (Instruction.execute (conditionsFor rent market fill)) (· = ledger)
      (computeBudgetInstructions priorityFee market.computeUnits ++
        legs.ensureInstructions intent.owner intent.owner intent.inputMint intent.outputMint)
      (Covers accounts
        (ledger.shortfall accounts.outputTokenAccount (rent accounts.outputMint))
        (afterRents rent accounts ledger)) := by
  subst haccounts
  rintro _ rfl
  obtain ⟨opened, ready, hopened, hready, hcovers⟩ := h.ensure hin hout hne
  refine ⟨ready, ?_, hcovers⟩
  simp only [swapAccounts] at hopened hready
  simp [computeBudgetInstructions, WalletLegs.ensureInstructions, Instruction.execute,
    conditionsFor, hopened, hready]

/-- The whole plan succeeds on a funded wallet and delivers. -/
theorem achieves_plan {ledger : Ledger} (market : PoolMarket) (hbalanced : quote.Balanced intent)
    (hfill : quote.minOut ≤ fill)
    (h : Funded rent (swapAccounts intent legs) intent.amountIn ledger)
    (hin : legs.inputAccount ≠ intent.owner) (hout : legs.outputAccount ≠ intent.owner)
    (hne : legs.inputAccount ≠ legs.outputAccount) (priorityFee : ℕ) :
    Achieves (Instruction.execute (conditionsFor rent market fill)) (· = ledger)
      (planInstructions priorityFee intent market legs quote)
      (Delivered intent legs quote
        (ledger.shortfall legs.outputAccount (rent intent.outputMint))
        (leftAfter rent (swapAccounts intent legs) intent.amountIn ledger)) := by
  have hmints := hbalanced.distinct
  have hsplit : afterRents rent (swapAccounts intent legs) ledger =
      leftAfter rent (swapAccounts intent legs) intent.amountIn ledger +
        Pi.single (fundingSlot (swapAccounts intent legs))
          (if quote.fee.side = .input then quote.fee.amount else 0) +
        Pi.single (fundingSlot (swapAccounts intent legs)) quote.swapAmountIn := by
    rw [add_assoc, ← Pi.single_add, Nat.add_comm _ quote.swapAmountIn, hbalanced.input]
    exact (leftAfter_add h).symm
  have hensured := achieves_ensure market fill rfl h hin hout hne priorityFee
  rw [hsplit] at hensured
  have hwrapped := hensured.append (achieves_wrap hmints hbalanced.swapped)
  rw [add_right_comm] at hwrapped
  have hcovered : quote.fee.side = .output → quote.fee.amount ≤ fill := by
    intro hside
    have hnet := hbalanced.output
    rw [if_pos hside] at hnet
    omega
  have hswapped := (hwrapped.append (achieves_inputFee hmints hbalanced.paid)).append
    (achieves_swap hmints hfill)
  have hclosed := (hswapped.append (achieves_tokenFee hmints hbalanced.paid hcovered)).append
    (achieves_close hbalanced hfill)
  rw [← List.append_assoc] at hclosed
  exact hclosed

theorem drawnOn_append (conditions : Conditions) (holding : Holding) (as bs : List Instruction) :
    drawnOn conditions holding (as ++ bs) =
      drawnOn conditions holding as + drawnOn conditions holding bs := by
  simp [drawnOn]

/-- What funds the swap is drawn on by the wrap or by the pool, never by both. -/
theorem drawnOn_swapped (rent : String → ℕ) (fill : ℕ) (intent : DirectSwapIntent)
    (market : PoolMarket) (legs : WalletLegs) (hswapped : 0 < quote.swapAmountIn) :
    drawnOn (conditionsFor rent market fill)
        ((fundingSlot (swapAccounts intent legs)).holding (swapAccounts intent legs))
        (wrapInstructions intent market legs quote) +
      drawnOn (conditionsFor rent market fill)
        ((fundingSlot (swapAccounts intent legs)).holding (swapAccounts intent legs))
        [.swap (swapAccounts intent legs) quote.swapAmountIn quote.minOut] =
      quote.swapAmountIn := by
  by_cases hsol : intent.inputMint = solMint
  · by_cases hnative : market.settlesNativeSol = true
    · simp [drawnOn, wrapInstructions, Instruction.draws, Conditions.spends, conditionsFor,
        fundingSlot, swapAccounts, Slot.holding, hsol, hnative]
    · simp [drawnOn, wrapInstructions, Instruction.draws, Conditions.spends, conditionsFor,
        fundingSlot, swapAccounts, Slot.holding, DirectSwapIntent.wrapsNative, isWsol, hsol,
        hnative, hswapped]
  · simp [drawnOn, wrapInstructions, Instruction.draws, Conditions.spends, conditionsFor,
      fundingSlot, swapAccounts, Slot.holding, DirectSwapIntent.wrapsNative, isWsol, hsol]

/-- The fee on the input is all the input fee's instructions draw. -/
theorem drawnOn_inputFee (rent : String → ℕ) (fill : ℕ) (market : PoolMarket) (legs : WalletLegs)
    (hpaid : quote.fee.PaidOn intent.inputMint intent.outputMint) :
    drawnOn (conditionsFor rent market fill)
        ((fundingSlot (swapAccounts intent legs)).holding (swapAccounts intent legs))
        (inputFeeInstructions intent legs quote) =
      if quote.fee.side = .input then quote.fee.amount else 0 := by
  unfold inputFeeInstructions
  by_cases hside : quote.fee.side = .input
  · simp only [hside, if_true]
    obtain ⟨hzero, hnone⟩ | ⟨hleg, -, htransfer⟩ | ⟨hleg, -, htransfer⟩ :=
      transferInstruction_cases hpaid legs.inputAccount intent.owner
    · rw [hnone, hzero]
      rfl
    · rw [hside] at hleg
      have hsol : intent.inputMint = solMint := Option.some.inj hleg
      simp [htransfer, drawnOn, Instruction.draws, fundingSlot, swapAccounts, hsol, Slot.holding]
    · rw [hside] at hleg
      have husdc : intent.inputMint = usdcMint := Option.some.inj hleg
      have hsol : intent.inputMint ≠ solMint := by rw [husdc]; decide
      simp [htransfer, drawnOn, Instruction.draws, fundingSlot, swapAccounts, hsol, Slot.holding]
  · simp only [hside, if_false]
    rfl

/-- The fee on the output draws nothing of the input. -/
theorem drawnOn_outputFee (rent : String → ℕ) (fill : ℕ) (market : PoolMarket)
    (hmints : intent.inputMint ≠ intent.outputMint) (hne : legs.inputAccount ≠ legs.outputAccount)
    (hpaid : quote.fee.PaidOn intent.inputMint intent.outputMint) :
    drawnOn (conditionsFor rent market fill)
        ((fundingSlot (swapAccounts intent legs)).holding (swapAccounts intent legs))
        (outputFeeInstructions intent legs quote) = 0 := by
  unfold outputFeeInstructions
  by_cases hside : quote.fee.side = .output
  · simp only [hside, if_true]
    obtain ⟨-, hnone⟩ | ⟨hleg, -, htransfer⟩ | ⟨hleg, -, htransfer⟩ :=
      transferInstruction_cases hpaid legs.outputAccount intent.owner
    · rw [hnone]
      rfl
    · rw [hside] at hleg
      have hsol : intent.inputMint ≠ solMint :=
        fun hin => hmints (hin.trans (Option.some.inj hleg).symm)
      simp [htransfer, drawnOn, Instruction.draws, fundingSlot, swapAccounts, hsol, Slot.holding]
    · by_cases hsol : intent.inputMint = solMint
      · simp [htransfer, drawnOn, Instruction.draws, fundingSlot, swapAccounts, hsol, Slot.holding]
      · simp [htransfer, drawnOn, Instruction.draws, fundingSlot, swapAccounts, hsol,
          Slot.holding, hne.symm]
  · simp only [hside, if_false]
    rfl

theorem drawnOn_plan (hbalanced : quote.Balanced intent)
    (hne : legs.inputAccount ≠ legs.outputAccount) (priorityFee : ℕ) :
    drawnOn (conditionsFor rent market fill)
        ((fundingSlot (swapAccounts intent legs)).holding (swapAccounts intent legs))
        (planInstructions priorityFee intent market legs quote) = intent.amountIn := by
  have hswapped := drawnOn_swapped rent fill intent market legs hbalanced.swapped
  have hinput := drawnOn_inputFee rent fill market legs hbalanced.paid
  have houtput := drawnOn_outputFee rent fill market
    hbalanced.distinct hne hbalanced.paid
  have hsum := hbalanced.input
  have hopen : drawnOn (conditionsFor rent market fill)
      ((fundingSlot (swapAccounts intent legs)).holding (swapAccounts intent legs))
      (computeBudgetInstructions priorityFee market.computeUnits ++
        legs.ensureInstructions intent.owner intent.owner intent.inputMint intent.outputMint) =
      0 := rfl
  have hclose : drawnOn (conditionsFor rent market fill)
      ((fundingSlot (swapAccounts intent legs)).holding (swapAccounts intent legs))
      (closeInstructions intent legs) = 0 := by
    unfold closeInstructions
    cases wsolAccount intent legs <;> rfl
  have hfees : drawnOn (conditionsFor rent market fill)
        ((fundingSlot (swapAccounts intent legs)).holding (swapAccounts intent legs))
        (if quote.fee.isNative then [] else outputFeeInstructions intent legs quote) +
      drawnOn (conditionsFor rent market fill)
        ((fundingSlot (swapAccounts intent legs)).holding (swapAccounts intent legs))
        (if quote.fee.isNative then outputFeeInstructions intent legs quote else []) = 0 := by
    split_ifs
    · rw [houtput]
      rfl
    · rw [houtput]
      rfl
  unfold planInstructions
  iterate 6 rw [drawnOn_append]
  omega

end Segments

/-- The accounts a plan moves between. -/
def planAccounts (intent : DirectSwapIntent) (plan : SwapPlan) : SwapAccounts :=
  ⟨intent.owner, intent.inputMint, intent.outputMint, plan.inputAccount, plan.outputAccount⟩

/-- The rents a plan may have to pay. -/
def openingRents (rent : String → ℕ) (accounts : SwapAccounts) (ledger : Ledger) : ℕ :=
  ledger.shortfall accounts.inputTokenAccount (rent accounts.inputMint) +
    ledger.shortfall accounts.outputTokenAccount (rent accounts.outputMint)

/-- What a plan means for the wallet it runs on. -/
structure Conserves (conditions : Conditions) (intent : DirectSwapIntent) (quote : DirectQuote)
    (plan : SwapPlan) (ledger : Ledger) : Prop where
  /-- Wrap, swap and fee together draw exactly the input on what funds the swap. -/
  taken : drawnOn conditions
    ((fundingSlot (planAccounts intent plan)).holding (planAccounts intent plan))
    plan.instructions = intent.amountIn
  /-- Whatever an instruction draws is there when its turn comes. -/
  covered : ∀ before instruction after, plan.instructions = before ++ instruction :: after →
    ∃ mid, runInstructions conditions ledger before = some mid ∧
      ∀ source n, instruction.draws conditions = some (source, n) → n ≤ mid.holds source
  /-- The fee transfer is one of the instructions. -/
  feePaid : ∀ transfer, quote.fee.transferInstruction
      (if quote.fee.side = .input then plan.inputAccount else plan.outputAccount) intent.owner =
        some transfer → transfer ∈ plan.instructions
  feeCapped : quote.fee.side = .output → quote.fee.amount ≤ quote.minOut
  /-- The whole list runs, and what the wallet gives up and gets is what the quote said. -/
  delivered : ∃ final, runInstructions conditions ledger plan.instructions = some final ∧
    ledger.holds ((fundingSlot (planAccounts intent plan)).holding (planAccounts intent plan)) ≤
      final.holds ((fundingSlot (planAccounts intent plan)).holding (planAccounts intent plan)) +
        intent.amountIn + openingRents conditions.rent (planAccounts intent plan) ledger ∧
    ledger.holds ((proceedsSlot (planAccounts intent plan)).holding (planAccounts intent plan)) +
        quote.minNetOut ≤
      final.holds ((proceedsSlot (planAccounts intent plan)).holding (planAccounts intent plan))

/-- Associated token accounts are off the curve a wallet's key lies on, one for each mint. -/
structure DerivesAccounts (ata : String → String → String → String) (owner : String) : Prop where
  offCurve : ∀ mint program, ata owner mint program ≠ owner
  injective : ∀ mint mint' program program',
    ata owner mint program = ata owner mint' program' → mint = mint'

theorem delivered_holds {rent : String → ℕ} {intent : DirectSwapIntent} {legs : WalletLegs}
    {quote : DirectQuote} {ledger final : Ledger} (hbalanced : quote.Balanced intent)
    (hfunded : Funded rent (swapAccounts intent legs) intent.amountIn ledger)
    (h : Delivered intent legs quote
      (ledger.shortfall legs.outputAccount (rent intent.outputMint))
      (leftAfter rent (swapAccounts intent legs) intent.amountIn ledger) final) :
    ledger.holds ((fundingSlot (swapAccounts intent legs)).holding (swapAccounts intent legs)) ≤
      final.holds
          ((fundingSlot (swapAccounts intent legs)).holding (swapAccounts intent legs)) +
        intent.amountIn + openingRents rent (swapAccounts intent legs) ledger ∧
    ledger.holds ((proceedsSlot (swapAccounts intent legs)).holding (swapAccounts intent legs)) +
        quote.minNetOut ≤
      final.holds
        ((proceedsSlot (swapAccounts intent legs)).holding (swapAccounts intent legs)) := by
  obtain ⟨hfunding, hproceeds⟩ := h
  have hrents := hfunded.lamports
  constructor
  · by_cases hin : intent.inputMint = solMint
    · have hslot : fundingSlot (swapAccounts intent legs) = .lamports := if_pos hin
      rw [hslot] at hfunding ⊢
      simp only [leftAfter, afterRents, Pi.sub_apply, Pi.single_eq_same, hslot] at hfunding
      simp only [Slot.holding, Ledger.holds, openingRents] at hfunding ⊢
      omega
    · have hslot : fundingSlot (swapAccounts intent legs) = .input := if_neg hin
      rw [hslot] at hfunding ⊢
      simp only [leftAfter, afterRents, Pi.sub_apply, Pi.single_eq_same, hslot] at hfunding
      simp only [Slot.holding] at hfunding ⊢
      omega
  · by_cases hout : intent.outputMint = solMint
    · have hin : intent.inputMint ≠ solMint := fun hin => hbalanced.distinct (hin.trans hout.symm)
      have hslot : proceedsSlot (swapAccounts intent legs) = .lamports := if_pos hout
      have hfundingSlot : fundingSlot (swapAccounts intent legs) = .input := if_neg hin
      -- the input account holds the input, so it is open and costs no rent
      have hopen : ledger.shortfall legs.inputAccount (rent intent.inputMint) = 0 := by
        refine if_neg fun hnone => ?_
        have hheld := hfunded.input hin
        have hswapped := hbalanced.swapped
        have hsum := hbalanced.input
        simp only [swapAccounts, Ledger.holds, hnone, Option.map_none, Option.getD_none] at hheld
        omega
      rw [hslot] at hproceeds ⊢
      simp only [leftAfter, afterRents, Pi.sub_apply, hfundingSlot, hout, if_true,
        Pi.single_eq_of_ne (show Slot.lamports ≠ .input by decide)] at hproceeds
      simp only [swapAccounts, hout, hin, hopen, if_false] at hrents
      simp only [Slot.holding, Ledger.holds, swapAccounts, hopen, hout] at hproceeds ⊢
      omega
    · have hslot : proceedsSlot (swapAccounts intent legs) = .output := if_neg hout
      have hother : fundingSlot (swapAccounts intent legs) ≠ .output := by
        unfold fundingSlot
        split_ifs <;> decide
      rw [hslot] at hproceeds ⊢
      simp only [leftAfter, afterRents, Pi.sub_apply, Pi.single_eq_of_ne hother.symm, hout,
        if_false, Nat.sub_zero, Nat.add_zero] at hproceeds
      exact hproceeds

theorem feeTransfer_mem {intent : DirectSwapIntent} {market : PoolMarket} {legs : WalletLegs}
    {quote : DirectQuote} {transfer : Instruction}
    (hpaid : quote.fee.PaidOn intent.inputMint intent.outputMint)
    (h : quote.fee.transferInstruction
      (if quote.fee.side = .input then legs.inputAccount else legs.outputAccount) intent.owner =
        some transfer) (priorityFee : ℕ) :
    transfer ∈ planInstructions priorityFee intent market legs quote := by
  cases hside : quote.fee.side with
  | input =>
    rw [hside, if_pos rfl] at h
    have hmem : transfer ∈ inputFeeInstructions intent legs quote := by
      simp [inputFeeInstructions, hside, h]
    simp [planInstructions, hmem]
  | output =>
    rw [hside, if_neg (by decide)] at h
    have hmem : transfer ∈ outputFeeInstructions intent legs quote := by
      simp [outputFeeInstructions, hside, h]
    cases hnative : quote.fee.isNative with
    | true => simp [planInstructions, hnative, hmem]
    | false => simp [planInstructions, hnative, hmem]
  | none =>
    obtain ⟨-, hnone⟩ | ⟨_, hleg, -⟩ := hpaid
    · rw [hnone] at h
      cases h
    · rw [hside] at hleg
      cases hleg

theorem plan_conserves {ata : String → String → String → String} {rent : String → ℕ}
    {priorityFee fill : ℕ} {intent : DirectSwapIntent} {market : PoolMarket}
    {quote : DirectQuote} {plan : SwapPlan} {ledger : Ledger}
    (hquote : quote.Executed intent market)
    (hplan : buildPlan ata priorityFee intent market quote = .ok plan)
    (hata : DerivesAccounts ata intent.owner)
    (hfunded : Funded rent (planAccounts intent plan) intent.amountIn ledger)
    (hfill : quote.minOut ≤ fill) :
    Conserves (conditionsFor rent market fill) intent quote plan ledger := by
  have hbalanced := hquote.balanced
  obtain ⟨legs, hlegs, hinstructions, hinput, houtput, -⟩ := buildPlan_ok hplan
  obtain ⟨hinAta, houtAta⟩ := resolve_ok hlegs
  have haccounts : planAccounts intent plan = swapAccounts intent legs := by
    rw [planAccounts, hinput, houtput, swapAccounts]
  have hin : legs.inputAccount ≠ intent.owner := hinAta ▸ hata.offCurve _ _
  have hout : legs.outputAccount ≠ intent.owner := houtAta ▸ hata.offCurve _ _
  have hne : legs.inputAccount ≠ legs.outputAccount := by
    rw [hinAta, houtAta]
    exact fun heq => hbalanced.distinct (hata.injective _ _ _ _ heq)
  rw [haccounts] at hfunded
  obtain ⟨final, hrun, hdelivered⟩ := achieves_plan market hbalanced hfill hfunded
    hin hout hne priorityFee ledger rfl
  rw [← hinstructions] at hrun
  constructor
  · rw [haccounts, hinstructions]
    exact drawnOn_plan hbalanced hne priorityFee
  · intro before instruction after hsplit
    rw [hsplit] at hrun
    obtain ⟨mid, next, hmid, hnext⟩ := foldlM_split hrun
    exact ⟨mid, hmid, fun source n hdraws => draws_covered hnext hdraws⟩
  · intro transfer htransfer
    rw [hinput, houtput] at htransfer
    rw [hinstructions]
    exact feeTransfer_mem hbalanced.paid htransfer priorityFee
  · intro hside
    have hnet := hbalanced.output
    rw [if_pos hside] at hnet
    omega
  · rw [haccounts]
    exact ⟨final, hrun, delivered_holds hbalanced hfunded hdelivered⟩

/-- A buy of 0.005 SOL in a pool that returns a million units. -/
def buyIntent : DirectSwapIntent := ⟨"pool", "wallet", solMint, "token", 5000000, 100⟩

def buyMarket : PoolMarket where
  program := .raydiumCpmm
  pool := "pool"
  mints := (solMint, "token")
  tokenProgram _ := some "TokenkegQfeZyiNwAJbNbGKPFXCWuBvf9Ss623VQ5DA"
  quote _ amountIn := .ok ⟨amountIn, 1000000, 12500, 0⟩
  swapRefusal _ _ _ := none
  computeUnits := 200000
  settlesNativeSol := false

def buyLedger : Ledger where
  lamports address := if address = "wallet" then 10000000 else 0
  tokens account :=
    if account = FEE_TOKEN_ACCOUNT_USDC then some ⟨usdcMint, 0, 2039280⟩ else none
  backed account token h hsol := by
    split_ifs at h
    obtain rfl := Option.some.inj h
    exact absurd hsol (by decide)

def buyAta (_owner mint _program : String) : String := "ata:" ++ mint

/-- What the engine quotes for it. -/
def buyQuote : DirectQuote :=
  ⟨"pool", .raydiumCpmm, solMint, "token", 5000000, 4975000, 1000000, 990000, 1000000, 990000,
    ⟨.input, 25000, some solMint, some FEE_WALLET, 9⟩, 12500, 0, 100⟩

/-- Run as it was accepted, or with its floor held against a fresh quote of the same pool. -/
theorem buy_conserves : ∃ plan, quoteWithMarket buyIntent buyMarket = .ok buyQuote ∧
    holdAcceptedFloor buyQuote (executionData buyIntent buyQuote) = .ok buyQuote ∧
    buildPlan buyAta 0 buyIntent buyMarket buyQuote = .ok plan ∧
    Conserves (conditionsFor (fun _ => 2039280) buyMarket 990000) buyIntent buyQuote plan
      buyLedger := by
  have hquote : quoteWithMarket buyIntent buyMarket = .ok buyQuote := by decide +kernel
  have hheld : holdAcceptedFloor buyQuote (executionData buyIntent buyQuote) = .ok buyQuote := by
    decide +kernel
  have hata : DerivesAccounts buyAta "wallet" := by
    constructor
    · intro mint program heq
      simpa [buyAta] using congrArg (fun address : String => address.toList.head?) heq
    · intro mint mint' program program' heq
      simpa [buyAta] using heq
  refine ⟨_, hquote, hheld, rfl,
    plan_conserves (.held hquote hheld) rfl hata ⟨rfl, ?_, ?_, ⟨_, rfl, rfl⟩, ?_, ?_⟩ ?_⟩
  · intro token h
    cases h
  · intro token h
    cases h
  · decide +kernel
  · intro h
    exact absurd rfl h
  · decide +kernel

end ScreenerBot.Direct
