import ScreenerBot.Direct.Ledger
import Mathlib.Algebra.Group.Pi.Basic

/-! What the wallet's holdings are known to hold at least, and how each instruction of a plan moves
those floors. -/
namespace ScreenerBot.Direct

open Library Swaps

/-- The holdings of the wallet a plan moves between. -/
inductive Slot where
  | lamports
  | input
  | output
  deriving DecidableEq, Repr

def Slot.holding (accounts : SwapAccounts) : Slot → Holding
  | .lamports => .lamports accounts.owner
  | .input => .token accounts.inputTokenAccount
  | .output => .token accounts.outputTokenAccount

/-- What each holding is known to hold at least. -/
abbrev Floor := Slot → ℕ

/-- Both legs' accounts are open under their mints, and each holding is above its floor. -/
structure Covers (accounts : SwapAccounts) (reserve : ℕ) (floor : Floor) (ledger : Ledger) :
    Prop where
  wallet : ledger.tokens accounts.owner = none
  input : ∃ token, ledger.tokens accounts.inputTokenAccount = some token ∧
    token.mint = accounts.inputMint
  output : ∃ token, ledger.tokens accounts.outputTokenAccount = some token ∧
    token.mint = accounts.outputMint ∧ reserve ≤ token.reserve
  fees : ∃ token, ledger.tokens FEE_TOKEN_ACCOUNT_USDC = some token ∧ token.mint = usdcMint
  floor : ∀ slot, floor slot ≤ ledger.holds (slot.holding accounts)

namespace Covers

variable {accounts : SwapAccounts} {reserve : ℕ} {floor floor' : Floor} {ledger after : Ledger}

theorem accounts_ne (hmints : accounts.inputMint ≠ accounts.outputMint)
    (h : Covers accounts reserve floor ledger) :
    accounts.inputTokenAccount ≠ accounts.outputTokenAccount := by
  intro heq
  obtain ⟨inToken, hin, hinMint⟩ := h.input
  obtain ⟨outToken, hout, houtMint, -⟩ := h.output
  rw [heq, hout] at hin
  obtain rfl := Option.some.inj hin
  exact hmints (hinMint.symm.trans houtMint)

theorem ne_wallet (h : Covers accounts reserve floor ledger) {account : String}
    {token : TokenAccount} (htoken : ledger.tokens account = some token) :
    account ≠ accounts.owner := by
  rintro rfl
  rw [h.wallet] at htoken
  cases htoken

theorem holding_injective (hmints : accounts.inputMint ≠ accounts.outputMint)
    (h : Covers accounts reserve floor ledger) : Function.Injective (Slot.holding accounts) := by
  have hne := h.accounts_ne hmints
  intro a b hab
  cases a <;> cases b <;> simp_all [Slot.holding, hne.symm]

/-- The tokens are as they were, and every holding at least its new floor. -/
theorem of_tokens (h : Covers accounts reserve floor ledger)
    (htokens : after.tokens = ledger.tokens)
    (hfloor : ∀ slot, floor' slot ≤ after.holds (slot.holding accounts)) :
    Covers accounts reserve floor' after := by
  refine ⟨?_, ?_, ?_, ?_, hfloor⟩
  · rw [htokens]
    exact h.wallet
  · rw [htokens]
    exact h.input
  · rw [htokens]
    exact h.output
  · rw [htokens]
    exact h.fees

theorem of_rewrites {account : String} {old new : TokenAccount}
    (h : Covers accounts reserve floor ledger)
    (hwrite : Ledger.Rewrites ledger account old new after)
    (hfloor : ∀ slot, floor' slot ≤ after.holds (slot.holding accounts)) :
    Covers accounts reserve floor' after := by
  refine ⟨(hwrite.wallet h.wallet).2, ?_, ?_, ?_, hfloor⟩
  · obtain ⟨token, htoken, hmint⟩ := h.input
    obtain ⟨held, hheld, hsame, -⟩ := hwrite.kept htoken
    exact ⟨held, hheld, hsame.trans hmint⟩
  · obtain ⟨token, htoken, hmint, hreserve⟩ := h.output
    obtain ⟨held, hheld, hsame, hkept⟩ := hwrite.kept htoken
    exact ⟨held, hheld, hsame.trans hmint, hkept ▸ hreserve⟩
  · obtain ⟨token, htoken, hmint⟩ := h.fees
    obtain ⟨held, hheld, hsame, -⟩ := hwrite.kept htoken
    exact ⟨held, hheld, hsame.trans hmint⟩

/-- The token account a slot stands for is open. -/
theorem token_of_slot (h : Covers accounts reserve floor ledger) {slot : Slot} {account : String}
    (hslot : slot.holding accounts = .token account) :
    ∃ token, ledger.tokens account = some token := by
  cases slot with
  | lamports => cases hslot
  | input =>
    obtain rfl := Holding.token.inj hslot
    obtain ⟨token, htoken, -⟩ := h.input
    exact ⟨token, htoken⟩
  | output =>
    obtain rfl := Holding.token.inj hslot
    obtain ⟨token, htoken, -⟩ := h.output
    exact ⟨token, htoken⟩

/-- A rewritten token account changes no lamports of the wallet and no other holding. -/
theorem holds_of_rewrites {account : String} {old new : TokenAccount}
    (h : Covers accounts reserve floor ledger)
    (hwrite : Ledger.Rewrites ledger account old new after) (slot : Slot) :
    after.holds (slot.holding accounts) =
      if slot.holding accounts = .token account then new.amount
      else ledger.holds (slot.holding accounts) := by
  cases slot with
  | lamports =>
    simp only [Slot.holding, reduceCtorEq, if_false, Ledger.holds]
    exact hwrite.lamports _ (hwrite.wallet h.wallet).1
  | input => simp only [Slot.holding, hwrite.holds_token, Holding.token.injEq]
  | output => simp only [Slot.holding, hwrite.holds_token, Holding.token.injEq]

/-- Taking from a holding what its floor covers succeeds and lowers that floor alone. -/
theorem take (hmints : accounts.inputMint ≠ accounts.outputMint) {slot : Slot} {n : ℕ}
    (h : Covers accounts reserve (floor + Pi.single slot n) ledger) :
    ∃ paid, ledger.take n (slot.holding accounts) = some paid ∧
      Covers accounts reserve floor paid := by
  have hn := h.floor slot
  simp only [Pi.add_apply, Pi.single_eq_same] at hn
  cases hslot : slot.holding accounts with
  | lamports address =>
    obtain ⟨rfl, rfl⟩ : slot = .lamports ∧ accounts.owner = address := by
      cases slot <;> simp_all [Slot.holding]
    obtain ⟨paid, hpaid, htokens, hpayer, -⟩ :=
      Ledger.withdraw_spec h.wallet (n := n)
        (by simp only [Slot.holding, Ledger.holds] at hn; omega)
    refine ⟨paid, hpaid, h.of_tokens htokens fun other => ?_⟩
    have hother := h.floor other
    cases other with
    | lamports =>
      simp only [Slot.holding, Ledger.holds, hpayer] at hn ⊢
      omega
    | input => simpa [Slot.holding, Ledger.holds, htokens] using hother
    | output => simpa [Slot.holding, Ledger.holds, htokens] using hother
  | token account =>
    obtain ⟨token, htoken⟩ := h.token_of_slot hslot
    rw [hslot, Ledger.holds_token htoken] at hn
    obtain ⟨paid, hpaid, hwrite⟩ := Ledger.debit_spec htoken (n := n) (by omega)
    refine ⟨paid, hpaid, h.of_rewrites hwrite fun other => ?_⟩
    rw [h.holds_of_rewrites hwrite]
    by_cases heq : other = slot
    · rw [heq, if_pos hslot]
      dsimp only
      omega
    · have hother := h.floor other
      rw [Pi.add_apply, Pi.single_eq_of_ne heq, Nat.add_zero] at hother
      rw [if_neg fun hsame => heq (h.holding_injective hmints (hsame.trans hslot.symm))]
      exact hother

/-- Giving to a holding succeeds and raises its floor. -/
theorem give (h : Covers accounts reserve floor ledger) (slot : Slot) (n : ℕ) :
    ∃ paid, ledger.give n (slot.holding accounts) = some paid ∧
      Covers accounts reserve (floor + Pi.single slot n) paid := by
  cases hslot : slot.holding accounts with
  | lamports address =>
    obtain ⟨rfl, rfl⟩ : slot = .lamports ∧ accounts.owner = address := by
      cases slot <;> simp_all [Slot.holding]
    refine ⟨_, rfl, h.of_tokens rfl fun other => ?_⟩
    have hother := h.floor other
    cases other with
    | lamports => simpa [Slot.holding, Ledger.holds, Ledger.deposit_lamports] using hother
    | input => simpa [Slot.holding, Ledger.holds] using hother
    | output => simpa [Slot.holding, Ledger.holds] using hother
  | token account =>
    obtain ⟨token, htoken⟩ := h.token_of_slot hslot
    obtain ⟨paid, hpaid, hwrite⟩ := Ledger.credit_spec htoken n
    refine ⟨paid, hpaid, h.of_rewrites hwrite fun other => ?_⟩
    have hother := h.floor other
    rw [h.holds_of_rewrites hwrite]
    by_cases heq : other = slot
    · subst heq
      rw [hslot, Ledger.holds_token htoken] at hother
      rw [if_pos hslot, Pi.add_apply, Pi.single_eq_same]
      dsimp only
      omega
    · rw [Pi.add_apply, Pi.single_eq_of_ne heq, Nat.add_zero]
      split_ifs with hsame
      · rw [hsame, Ledger.holds_token htoken] at hother
        dsimp only
        omega
      · exact hother

/-- Lamports deposited anywhere leave every floor. -/
theorem deposit (h : Covers accounts reserve floor ledger) (address : String) (n : ℕ) :
    Covers accounts reserve floor (ledger.deposit address n) := by
  refine h.of_tokens rfl fun slot => (h.floor slot).trans ?_
  cases slot with
  | lamports =>
    simp only [Slot.holding, Ledger.holds, Ledger.deposit_lamports]
    exact Nat.le_add_right _ _
  | input => exact le_rfl
  | output => exact le_rfl

/-- A transfer of lamports the wallet's floor covers, to any address. -/
theorem transferLamports (hmints : accounts.inputMint ≠ accounts.outputMint) {n : ℕ}
    (h : Covers accounts reserve (floor + Pi.single .lamports n) ledger) (destination : String) :
    ∃ paid, ledger.transferLamports accounts.owner destination n = some paid ∧
      Covers accounts reserve floor paid := by
  obtain ⟨paid, hpaid, hcovers⟩ := h.take hmints
  refine ⟨paid.deposit destination n, ?_, hcovers.deposit destination n⟩
  have hwithdraw : ledger.withdraw accounts.owner n = some paid := hpaid
  rw [Ledger.transferLamports, hwithdraw, Option.map_some]

/-- A transfer of USDC out of a leg's account into the fee account. -/
theorem transferFee (hmints : accounts.inputMint ≠ accounts.outputMint) {slot : Slot} {n : ℕ}
    {account : String} (hslot : slot.holding accounts = .token account)
    (husdc : ledger.hasMint account usdcMint)
    (h : Covers accounts reserve (floor + Pi.single slot n) ledger) :
    ∃ paid, ledger.transferChecked account usdcMint FEE_TOKEN_ACCOUNT_USDC n = some paid ∧
      Covers accounts reserve floor paid := by
  obtain ⟨feeToken, hfeeToken, hfeeMint⟩ := h.fees
  have hfees : ledger.hasMint FEE_TOKEN_ACCOUNT_USDC usdcMint := by
    simp [Ledger.hasMint, hfeeToken, hfeeMint]
  obtain ⟨paid, hpaid, hcovers⟩ := h.take hmints
  rw [hslot] at hpaid
  obtain ⟨token, htoken, -⟩ := hcovers.fees
  obtain ⟨after, hafter, hwrite⟩ := Ledger.credit_spec htoken n
  have hdebit : ledger.debit account n = some paid := hpaid
  refine ⟨after, ?_, hcovers.of_rewrites hwrite fun other => ?_⟩
  · rw [Ledger.transferChecked, if_pos ⟨husdc, hfees⟩, hdebit, Option.bind_some, hafter]
  · have hother := hcovers.floor other
    rw [hcovers.holds_of_rewrites hwrite]
    split_ifs with hsame
    · rw [hsame, Ledger.holds_token htoken] at hother
      dsimp only
      omega
    · exact hother

/-- Lamports sent to the wrapped SOL account of the input and synced are its amount. -/
theorem wrap (hmints : accounts.inputMint ≠ accounts.outputMint)
    (hsol : accounts.inputMint = solMint) {n : ℕ}
    (h : Covers accounts reserve (floor + Pi.single .lamports n) ledger) :
    ∃ paid after,
      ledger.transferLamports accounts.owner accounts.inputTokenAccount n = some paid ∧
      paid.syncNative accounts.inputTokenAccount = some after ∧
      Covers accounts reserve (floor + Pi.single .input n) after := by
  have hn := h.floor .lamports
  simp only [Pi.add_apply, Pi.single_eq_same, Slot.holding, Ledger.holds] at hn
  obtain ⟨token, htoken, hmint⟩ := h.input
  have hne := h.ne_wallet htoken
  obtain ⟨paid, hpaid, htokens, hlamports⟩ :=
    Ledger.transferLamports_spec h.wallet (n := n) (by omega) accounts.inputTokenAccount
  have hheld := hlamports accounts.inputTokenAccount
  rw [if_neg hne, if_pos rfl] at hheld
  have hbacked := ledger.backed _ _ htoken (hmint.trans hsol)
  have hcovers : Covers accounts reserve floor paid := by
    obtain ⟨paid', hpaid', hcovers⟩ := h.transferLamports hmints accounts.inputTokenAccount
    obtain rfl := Option.some.inj (hpaid.symm.trans hpaid')
    exact hcovers
  obtain ⟨after, hafter, hwrite⟩ :=
    Ledger.syncNative_spec (by rw [htokens, htoken]) (hmint.trans hsol)
  have hslot : Slot.input.holding accounts = .token accounts.inputTokenAccount := rfl
  refine ⟨paid, after, hpaid, hafter, hcovers.of_rewrites hwrite fun other => ?_⟩
  rw [hcovers.holds_of_rewrites hwrite]
  by_cases heq : other = .input
  · have hinput := h.floor .input
    rw [Slot.holding, Ledger.holds_token htoken] at hinput
    simp only [Pi.add_apply, Pi.single_eq_of_ne (show Slot.input ≠ .lamports by decide)] at hinput
    subst heq
    rw [if_pos hslot, Pi.add_apply, Pi.single_eq_same]
    dsimp only
    omega
  · rw [Pi.add_apply, Pi.single_eq_of_ne heq, Nat.add_zero,
      if_neg fun hsame => heq (hcovers.holding_injective hmints (hsame.trans hslot.symm))]
    exact hcovers.floor other

/-- Closing the input's wrapped SOL account costs the wallet nothing. -/
theorem closeInput (hmints : accounts.inputMint ≠ accounts.outputMint)
    (hsol : accounts.inputMint = solMint) (h : Covers accounts reserve floor ledger) :
    ∃ after, ledger.close accounts.inputTokenAccount accounts.owner = some after ∧
      floor .lamports ≤ after.holds (.lamports accounts.owner) ∧
      floor .output ≤ after.holds (.token accounts.outputTokenAccount) := by
  obtain ⟨token, htoken, hmint⟩ := h.input
  have hne := h.ne_wallet htoken
  obtain ⟨after, hafter, htokens, hlamports⟩ :=
    Ledger.close_spec htoken (hmint.trans hsol) hne
  refine ⟨after, hafter, ?_, ?_⟩
  · have hfloor := h.floor .lamports
    simp only [Slot.holding, Ledger.holds, hlamports] at hfloor ⊢
    omega
  · have hfloor := h.floor .output
    simp only [Slot.holding, Ledger.holds, htokens] at hfloor ⊢
    rwa [Function.update_of_ne (h.accounts_ne hmints).symm]

/-- Closing the output's wrapped SOL account gives the wallet its amount and its rent. -/
theorem closeOutput (hmints : accounts.inputMint ≠ accounts.outputMint)
    (hsol : accounts.outputMint = solMint) (h : Covers accounts reserve floor ledger) :
    ∃ after, ledger.close accounts.outputTokenAccount accounts.owner = some after ∧
      after.tokens accounts.owner = none ∧
      floor .lamports + reserve + floor .output ≤ after.holds (.lamports accounts.owner) ∧
      floor .input ≤ after.holds (.token accounts.inputTokenAccount) := by
  obtain ⟨token, htoken, hmint, hreserve⟩ := h.output
  have hne := h.ne_wallet htoken
  have hbacked := ledger.backed _ _ htoken (hmint.trans hsol)
  obtain ⟨after, hafter, htokens, hlamports⟩ :=
    Ledger.close_spec htoken (hmint.trans hsol) hne
  refine ⟨after, hafter, ?_, ?_, ?_⟩
  · rw [htokens, Function.update_of_ne hne.symm, h.wallet]
  · have hfloor := h.floor .lamports
    have hout := h.floor .output
    rw [Slot.holding, Ledger.holds_token htoken] at hout
    simp only [Slot.holding, Ledger.holds, hlamports] at hfloor ⊢
    omega
  · have hfloor := h.floor .input
    simp only [Slot.holding, Ledger.holds, htokens] at hfloor ⊢
    rwa [Function.update_of_ne (h.accounts_ne hmints)]

end Covers

/-- A wallet that can start the plan: its rents and the input are there, the accounts that exist
stand under their mints, and the fee wallet's USDC account is open. -/
structure Funded (rent : String → ℕ) (accounts : SwapAccounts) (amountIn : ℕ) (ledger : Ledger) :
    Prop where
  wallet : ledger.tokens accounts.owner = none
  inputMint : ∀ token, ledger.tokens accounts.inputTokenAccount = some token →
    token.mint = accounts.inputMint
  outputMint : ∀ token, ledger.tokens accounts.outputTokenAccount = some token →
    token.mint = accounts.outputMint
  fees : ∃ token, ledger.tokens FEE_TOKEN_ACCOUNT_USDC = some token ∧ token.mint = usdcMint
  lamports : ledger.shortfall accounts.inputTokenAccount (rent accounts.inputMint) +
      ledger.shortfall accounts.outputTokenAccount (rent accounts.outputMint) +
      (if accounts.inputMint = solMint then amountIn else 0) ≤ ledger.lamports accounts.owner
  input : accounts.inputMint ≠ solMint →
    amountIn ≤ ledger.holds (.token accounts.inputTokenAccount)

/-- The holding the input is drawn on first. -/
def fundingSlot (accounts : SwapAccounts) : Slot :=
  if accounts.inputMint = solMint then .lamports else .input

/-- What the rents leave of each holding. -/
def afterRents (rent : String → ℕ) (accounts : SwapAccounts) (ledger : Ledger) : Floor
  | .lamports => ledger.lamports accounts.owner -
      ledger.shortfall accounts.inputTokenAccount (rent accounts.inputMint) -
      ledger.shortfall accounts.outputTokenAccount (rent accounts.outputMint)
  | .input => ledger.holds (.token accounts.inputTokenAccount)
  | .output => ledger.holds (.token accounts.outputTokenAccount)

/-- Opening an account under the mint it may stand under already changes no account's mint. -/
theorem keeps_mint {tokens : String → Option TokenAccount} {account opened mint : String}
    {new : TokenAccount} (h : ∃ token, tokens account = some token ∧ token.mint = mint)
    (hmint : ∀ token, tokens opened = some token → token.mint = new.mint) :
    ∃ token, Function.update tokens opened (some new) account = some token ∧
      token.mint = mint := by
  obtain ⟨token, htoken, hheld⟩ := h
  by_cases heq : account = opened
  · subst heq
    exact ⟨new, Function.update_self .., (hmint token htoken).symm.trans hheld⟩
  · exact ⟨token, by rw [Function.update_of_ne heq, htoken], hheld⟩

theorem Funded.ensure {rent : String → ℕ} {accounts : SwapAccounts} {amountIn : ℕ}
    {ledger : Ledger} (h : Funded rent accounts amountIn ledger)
    (hin : accounts.inputTokenAccount ≠ accounts.owner)
    (hout : accounts.outputTokenAccount ≠ accounts.owner)
    (hne : accounts.inputTokenAccount ≠ accounts.outputTokenAccount) :
    ∃ opened ready,
      ledger.create accounts.owner accounts.inputTokenAccount accounts.inputMint
        (rent accounts.inputMint) = some opened ∧
      opened.create accounts.owner accounts.outputTokenAccount accounts.outputMint
        (rent accounts.outputMint) = some ready ∧
      Covers accounts
        (ledger.shortfall accounts.outputTokenAccount (rent accounts.outputMint))
        (afterRents rent accounts ledger) ready := by
  have hfunds := h.lamports
  obtain ⟨opened, inToken, hopened, hopenedTokens, hinMint, hinAmount, -, hpaid, hrest⟩ :=
    Ledger.create_spec (rent accounts.inputMint) h.wallet hin h.inputMint (by omega)
  have howner : opened.tokens accounts.owner = none := by
    rw [hopenedTokens, Function.update_of_ne hin.symm, h.wallet]
  have hsameOut : opened.tokens accounts.outputTokenAccount =
      ledger.tokens accounts.outputTokenAccount := by
    rw [hopenedTokens, Function.update_of_ne hne.symm]
  have hshort : opened.shortfall accounts.outputTokenAccount (rent accounts.outputMint) =
      ledger.shortfall accounts.outputTokenAccount (rent accounts.outputMint) := by
    simp only [Ledger.shortfall, hsameOut, hrest _ hout hne.symm]
  obtain ⟨ready, outToken, hready, hreadyTokens, houtMint, houtAmount, hreserve, hlamports, -⟩ :=
    Ledger.create_spec (rent accounts.outputMint) howner hout
      (by rw [hsameOut]; exact h.outputMint) (by rw [hshort]; omega)
  have hreadyIn : ready.tokens accounts.inputTokenAccount = some inToken := by
    rw [hreadyTokens, Function.update_of_ne hne, hopenedTokens, Function.update_self]
  have hreadyOut : ready.tokens accounts.outputTokenAccount = some outToken := by
    rw [hreadyTokens, Function.update_self]
  refine ⟨opened, ready, hopened, hready, ?_, ⟨inToken, hreadyIn, hinMint⟩,
    ⟨outToken, hreadyOut, houtMint, hshort ▸ hreserve⟩, ?_, ?_⟩
  · rw [hreadyTokens, Function.update_of_ne hout.symm, howner]
  · rw [hreadyTokens]
    apply keeps_mint
    · rw [hopenedTokens]
      exact keeps_mint h.fees fun token ht => (h.inputMint token ht).trans hinMint.symm
    · intro token ht
      rw [hsameOut] at ht
      exact (h.outputMint token ht).trans houtMint.symm
  · intro slot
    cases slot with
    | lamports =>
      simp only [afterRents, Slot.holding, Ledger.holds, hlamports, hpaid, hshort]
      exact le_rfl
    | input =>
      rw [Slot.holding, Ledger.holds_token hreadyIn]
      exact hinAmount
    | output =>
      rw [Slot.holding, Ledger.holds_token hreadyOut]
      simpa [afterRents, Ledger.holds, hsameOut] using houtAmount

end ScreenerBot.Direct
