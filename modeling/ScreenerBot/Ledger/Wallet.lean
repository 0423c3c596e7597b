import ScreenerBot.Ledger.Types
import ScreenerBot.Library.Sorting
import Mathlib.Data.String.Basic

/-! The reduced rounds against the wallet's current on-chain balances: where they disagree
the on-chain number wins, and the round is incomplete. -/
namespace ScreenerBot.Ledger
open Library

/-- The holding a mint reads as; a later row of the same mint replaces an earlier one. -/
def onChain (holdings : List WalletHolding) (mint : String) : Option WalletHolding :=
  holdings.reverse.find? (·.mint == mint)

/-- The raw balance the wallet reads for a mint. -/
def actualRaw (holdings : List WalletHolding) (mint : String) : ℕ :=
  ((onChain holdings mint).map (·.amountRaw)).getD 0

/-- A round with an event after the read is newer than the read. -/
def LedgerRound.newerThanRead (r : LedgerRound) (readSlot : Option ℕ) : Bool :=
  readSlot.any fun read => r.lastSlot.any fun last => decide (read < last)

/-- One round of the reconciliation. -/
def reconcileRound (holdings : List WalletHolding) (readSlot : Option ℕ) (r : LedgerRound) :
    LedgerRound :=
  if r.isOpen = false then r
  else if r.newerThanRead readSlot then r
  else
    let actual := actualRaw holdings r.mint
    if actual = r.balanceRaw then r
    else
      let r := { r with
        balanceRaw := actual
        historyComplete := false
        basisComplete := false
        realizedPnlNative := none
        averageEntryPriceNative := none }
      -- gone from the wallet with no disposal in the history: closed, with no timestamp
      if actual = 0 then { r with isOpen := false, remainingBasisNative := 0 } else r

/-- The key of a held mint with no round: one no reduced round has taken. -/
def holdingKey (taken : List String) (h : WalletHolding) : String :=
  let bare := "genesis:" ++ h.mint
  if taken.contains bare then "genesis:holding:" ++ h.mint else bare

/-- The round of a held mint with no round at all. -/
def holdingRound (taken : List String) (h : WalletHolding) : LedgerRound where
  mint := h.mint
  decimals := h.decimals
  roundKey := holdingKey taken h
  openedAt := none
  closedAt := none
  isOpen := true
  balanceRaw := h.amountRaw
  totalAcquiredRaw := h.amountRaw
  totalDisposedRaw := 0
  entryCount := 0
  exitCount := 0
  investedNative := 0
  remainingBasisNative := 0
  realizedProceedsNative := 0
  realizedCostNative := 0
  averageEntryPriceNative := none
  averageExitPriceNative := none
  realizedPnlNative := none
  basisComplete := false
  historyComplete := false
  entrySignature := none
  exitSignature := none
  events := []

def openMints (rounds : List LedgerRound) : List String :=
  (rounds.filter (·.isOpen)).map (·.mint)

/-- The holdings that have no open round. Cash is never a round. -/
def missingHoldings (rounds : List LedgerRound) (holdings : List WalletHolding) :
    List WalletHolding :=
  holdings.filter fun h => decide (0 < h.amountRaw) && !(openMints rounds).contains h.mint &&
    !isReferenceAsset h.mint

/-- Reconcile reduced rounds against the wallet's current on-chain balances. -/
def reconcileWithWallet (rounds : List LedgerRound) (holdings : List WalletHolding)
    (readSlot : Option ℕ) : List LedgerRound :=
  let rounds := rounds.map (reconcileRound holdings readSlot)
  rounds ++ (missingHoldings rounds holdings).map (holdingRound (rounds.map (·.roundKey)))

section
variable {holdings : List WalletHolding} {readSlot : Option ℕ} {r : LedgerRound}

/-- The three things one round's reconciliation can do. -/
theorem reconcileRound_cases (holdings : List WalletHolding) (readSlot : Option ℕ)
    (r : LedgerRound) :
    (reconcileRound holdings readSlot r = r ∧ (r.isOpen = false ∨ r.newerThanRead readSlot = true ∨
        actualRaw holdings r.mint = r.balanceRaw)) ∨
      (r.isOpen = true ∧ r.newerThanRead readSlot = false ∧
        actualRaw holdings r.mint ≠ r.balanceRaw ∧
        (reconcileRound holdings readSlot r).isOpen = decide (actualRaw holdings r.mint ≠ 0) ∧
        (reconcileRound holdings readSlot r).balanceRaw = actualRaw holdings r.mint) := by
  unfold reconcileRound
  split
  next h => exact .inl ⟨rfl, .inl h⟩
  next h =>
    split
    next hn => exact .inl ⟨rfl, .inr (.inl hn)⟩
    next hn =>
      dsimp only
      split
      next ha => exact .inl ⟨rfl, .inr (.inr ha)⟩
      next ha =>
        refine .inr ⟨by simpa using h, by simpa using hn, ha, ?_⟩
        split
        next h0 => simp [h0]
        next h0 => simpa [h0] using h

@[simp] theorem reconcileRound_mint : (reconcileRound holdings readSlot r).mint = r.mint := by
  unfold reconcileRound
  split
  · rfl
  · split
    · rfl
    · dsimp only
      split
      · rfl
      · split <;> rfl

@[simp] theorem reconcileRound_roundKey :
    (reconcileRound holdings readSlot r).roundKey = r.roundKey := by
  unfold reconcileRound
  split
  · rfl
  · split
    · rfl
    · dsimp only
      split
      · rfl
      · split <;> rfl

@[simp] theorem reconcileRound_newer (slot : Option ℕ) :
    (reconcileRound holdings readSlot r).newerThanRead slot = r.newerThanRead slot := by
  unfold reconcileRound
  split
  · rfl
  · split
    · rfl
    · dsimp only
      split
      · rfl
      · split <;> rfl

theorem reconcileRound_open (h : (reconcileRound holdings readSlot r).isOpen = true) :
    r.isOpen = true := by
  rcases reconcileRound_cases holdings readSlot r with ⟨he, -⟩ | ⟨ho, -⟩
  · exact he ▸ h
  · exact ho

/-- An open round the read can see carries the wallet's balance. -/
theorem reconcileRound_balance (ho : (reconcileRound holdings readSlot r).isOpen = true)
    (hn : r.newerThanRead readSlot = false) :
    (reconcileRound holdings readSlot r).balanceRaw = actualRaw holdings r.mint := by
  rcases reconcileRound_cases holdings readSlot r with ⟨he, h | h | h⟩ | ⟨-, -, -, -, h⟩
  · rw [he, h] at ho
    cases ho
  · rw [hn] at h
    cases h
  · rw [he, h]
  · exact h

/-- A round with tokens that the wallet no longer holds is closed. -/
theorem reconcileRound_gone (hpos : 0 < r.balanceRaw) (hgone : actualRaw holdings r.mint = 0)
    (hn : r.newerThanRead readSlot = false) :
    (reconcileRound holdings readSlot r).isOpen = false := by
  rcases reconcileRound_cases holdings readSlot r with ⟨he, h | h | h⟩ | ⟨-, -, -, h, -⟩
  · rw [he, h]
  · rw [hn] at h
    cases h
  · omega
  · rw [h, hgone]
    rfl

end

section
variable {rounds : List LedgerRound} {holdings : List WalletHolding} {readSlot : Option ℕ}

theorem actualRaw_of_mem {h : WalletHolding} (hmints : (holdings.map (·.mint)).Nodup)
    (hmem : h ∈ holdings) : actualRaw holdings h.mint = h.amountRaw := by
  have hfind : onChain holdings h.mint = some h := by
    cases hf : onChain holdings h.mint with
    | none =>
      have := List.find?_eq_none.mp hf h (List.mem_reverse.mpr hmem)
      simp at this
    | some h' =>
      have hmem' := List.mem_reverse.mp (List.mem_of_find?_eq_some hf)
      have hmint : h'.mint = h.mint := by simpa using List.find?_some hf
      rw [List.inj_on_of_nodup_map hmints hmem' hmem hmint]
  rw [actualRaw, hfind]
  rfl

theorem actualRaw_of_empty {mint : String}
    (h : ∀ holding ∈ holdings, holding.mint = mint → holding.amountRaw = 0) :
    actualRaw holdings mint = 0 := by
  unfold actualRaw
  cases hf : onChain holdings mint with
  | none => rfl
  | some holding =>
    have hmem := List.mem_reverse.mp (List.mem_of_find?_eq_some hf)
    exact h holding hmem (by simpa using List.find?_some hf)

/-- Reconciling the rounds opens none of them. -/
theorem openMints_reconciled :
    (openMints (rounds.map (reconcileRound holdings readSlot))).Sublist (openMints rounds) := by
  unfold openMints
  rw [List.filter_map, List.map_map]
  have hmint : LedgerRound.mint ∘ reconcileRound holdings readSlot = LedgerRound.mint :=
    funext fun r => reconcileRound_mint
  rw [hmint]
  exact (List.monotone_filter_right rounds fun r h => reconcileRound_open h).map _

theorem openMints_append (front back : List LedgerRound) :
    openMints (front ++ back) = openMints front ++ openMints back := by
  simp [openMints]

theorem openMints_holdingRounds (taken : List String) (hs : List WalletHolding) :
    openMints (hs.map (holdingRound taken)) = hs.map (·.mint) := by
  induction hs with
  | nil => rfl
  | cons h hs ih =>
    simp only [openMints, List.map_cons] at ih ⊢
    rw [List.filter_cons_of_pos (by rfl), List.map_cons, ih]
    rfl

theorem mem_missingHoldings {h : WalletHolding} : h ∈ missingHoldings rounds holdings ↔
    h ∈ holdings ∧ 0 < h.amountRaw ∧ h.mint ∉ openMints rounds ∧
      isReferenceAsset h.mint = false := by
  simp [missingHoldings, and_assoc]

/-- After reconciling, each mint still has at most one open round. -/
theorem openMints_nodup (hopen : (openMints rounds).Nodup)
    (hmints : (holdings.map (·.mint)).Nodup) :
    (openMints (reconcileWithWallet rounds holdings readSlot)).Nodup := by
  rw [reconcileWithWallet, openMints_append, openMints_holdingRounds]
  refine List.nodup_append.mpr ⟨hopen.sublist openMints_reconciled,
    hmints.sublist (List.filter_sublist.map _), ?_⟩
  rintro mint hopen mint' hmissing rfl
  obtain ⟨h, hh, rfl⟩ := List.mem_map.mp hmissing
  exact (mem_missingHoldings.mp hh).2.2.1 hopen

theorem mem_reconcileWithWallet {r : LedgerRound} :
    r ∈ reconcileWithWallet rounds holdings readSlot ↔
      (∃ r' ∈ rounds, r = reconcileRound holdings readSlot r') ∨
        ∃ h ∈ missingHoldings (rounds.map (reconcileRound holdings readSlot)) holdings,
          r = holdingRound ((rounds.map (reconcileRound holdings readSlot)).map
            (·.roundKey)) h := by
  simp [reconcileWithWallet, eq_comm]

/-- Every mint the wallet holds has an open round. -/
theorem held_mint_open {h : WalletHolding} (hmem : h ∈ holdings) (hpos : 0 < h.amountRaw)
    (href : isReferenceAsset h.mint = false) :
    h.mint ∈ openMints (reconcileWithWallet rounds holdings readSlot) := by
  rw [reconcileWithWallet, openMints_append, openMints_holdingRounds, List.mem_append]
  by_cases hknown : h.mint ∈ openMints (rounds.map (reconcileRound holdings readSlot))
  · exact .inl hknown
  · exact .inr (List.mem_map_of_mem (mem_missingHoldings.mpr ⟨hmem, hpos, hknown, href⟩))

/-- With at most one open round per mint, a mint's open rounds are a single one. -/
theorem open_of_mint {mint : String} (hnodup : (openMints rounds).Nodup)
    (hmint : mint ∈ openMints rounds) :
    ∃ r ∈ rounds, r.mint = mint ∧ r.isOpen = true ∧
      rounds.filter (fun r => r.isOpen && r.mint == mint) = [r] := by
  obtain ⟨r, hr, rfl⟩ := List.mem_map.mp hmint
  obtain ⟨hr, ho⟩ := List.mem_filter.mp hr
  refine ⟨r, hr, rfl, ho, ?_⟩
  have hone := filter_key_of_mem LedgerRound.mint hnodup (List.mem_filter.mpr ⟨hr, ho⟩)
  rw [List.filter_filter] at hone
  refine (List.filter_congr fun r' _ => ?_).trans hone
  rw [Bool.and_comm]
  rfl

/-- What an open round of the reconciled list carries. -/
theorem reconciled_balance {r : LedgerRound} (hmints : (holdings.map (·.mint)).Nodup)
    (hr : r ∈ reconcileWithWallet rounds holdings readSlot) (ho : r.isOpen = true) :
    r.newerThanRead readSlot = true ∨ r.balanceRaw = actualRaw holdings r.mint := by
  rcases mem_reconcileWithWallet.mp hr with ⟨r', -, rfl⟩ | ⟨h, hh, rfl⟩
  · rw [reconcileRound_newer, reconcileRound_mint]
    cases hn : r'.newerThanRead readSlot with
    | true => exact .inl rfl
    | false => exact .inr (reconcileRound_balance ho hn)
  · exact .inr (actualRaw_of_mem hmints (mem_missingHoldings.mp hh).1).symm

/-- Reconciling a second time changes nothing. -/
theorem reconcileWithWallet_idem (hmints : (holdings.map (·.mint)).Nodup) :
    reconcileWithWallet (reconcileWithWallet rounds holdings readSlot) holdings readSlot =
      reconcileWithWallet rounds holdings readSlot := by
  have hfixed : (reconcileWithWallet rounds holdings readSlot).map
      (reconcileRound holdings readSlot) = reconcileWithWallet rounds holdings readSlot := by
    refine (List.map_congr_left fun r hr => ?_).trans (List.map_id _)
    rcases reconcileRound_cases holdings readSlot r with ⟨he, -⟩ | ⟨ho, hn, hne, -⟩
    · exact he
    · rcases reconciled_balance hmints hr ho with h | h
      · rw [hn] at h
        cases h
      · exact absurd h.symm hne
  have hmissing : missingHoldings (reconcileWithWallet rounds holdings readSlot) holdings = [] := by
    refine List.eq_nil_iff_forall_not_mem.mpr fun h hh => ?_
    obtain ⟨hmem, hpos, hunknown, href⟩ := mem_missingHoldings.mp hh
    exact hunknown (held_mint_open hmem hpos href)
  conv_lhs => rw [reconcileWithWallet, hfixed]
  simp only [hmissing, List.map_nil, List.append_nil]

end

/-- After reconciling, each mint the wallet holds has exactly one open round, at the wallet's
balance unless the round is newer than the read; a mint the wallet shows empty keeps an open
round only when it is newer than the read; and reconciling again changes nothing. -/
theorem reconcileWithWallet_agrees {rounds : List LedgerRound} {holdings : List WalletHolding}
    (readSlot : Option ℕ) (hopen : (openMints rounds).Nodup)
    (hpos : ∀ r ∈ rounds, r.isOpen = true → 0 < r.balanceRaw)
    (hmints : (holdings.map (·.mint)).Nodup) :
    (∀ h ∈ holdings, 0 < h.amountRaw → isReferenceAsset h.mint = false →
        ∃ r, (reconcileWithWallet rounds holdings readSlot).filter
            (fun r => r.isOpen && r.mint == h.mint) = [r] ∧
          (r.newerThanRead readSlot = true ∨ r.balanceRaw = h.amountRaw)) ∧
      (∀ r ∈ reconcileWithWallet rounds holdings readSlot, r.isOpen = true →
        (∀ h ∈ holdings, h.mint = r.mint → h.amountRaw = 0) → r.newerThanRead readSlot = true) ∧
      reconcileWithWallet (reconcileWithWallet rounds holdings readSlot) holdings readSlot =
        reconcileWithWallet rounds holdings readSlot := by
  refine ⟨fun h hmem hheld href => ?_, fun r hr ho hempty => ?_, reconcileWithWallet_idem hmints⟩
  · have hmint : h.mint ∈ openMints (reconcileWithWallet rounds holdings readSlot) :=
      held_mint_open hmem hheld href
    obtain ⟨r, hr, hmint, ho, hone⟩ := open_of_mint (openMints_nodup hopen hmints) hmint
    refine ⟨r, hone, ?_⟩
    rw [← actualRaw_of_mem hmints hmem, ← hmint]
    exact reconciled_balance hmints hr ho
  · rcases mem_reconcileWithWallet.mp hr with ⟨r', hr', rfl⟩ | ⟨h, hh, rfl⟩
    · rw [reconcileRound_newer]
      rw [reconcileRound_mint] at hempty
      by_contra hn
      have hclosed := reconcileRound_gone (hpos r' hr' (reconcileRound_open ho))
        (actualRaw_of_empty hempty) (Bool.eq_false_of_not_eq_true hn)
      rw [hclosed] at ho
      cases ho
    · obtain ⟨hmem, hheld, -⟩ := mem_missingHoldings.mp hh
      have := hempty h hmem rfl
      omega

/-- One round short of the wallet, one the wallet no longer holds. -/
def walletRounds : List LedgerRound :=
  [holdingRound [] ⟨"mintA", 5, 0⟩, holdingRound [] ⟨"mintB", 2, 0⟩]

def walletHoldings : List WalletHolding := [⟨"mintA", 7, 0⟩, ⟨"mintC", 3, 0⟩, ⟨solMint, 9, 9⟩]

theorem reconcileWithWallet_agrees_three_mints :
    (∀ h ∈ walletHoldings, 0 < h.amountRaw → isReferenceAsset h.mint = false →
        ∃ r, (reconcileWithWallet walletRounds walletHoldings (some 9)).filter
            (fun r => r.isOpen && r.mint == h.mint) = [r] ∧
          (r.newerThanRead (some 9) = true ∨ r.balanceRaw = h.amountRaw)) ∧
      (∀ r ∈ reconcileWithWallet walletRounds walletHoldings (some 9), r.isOpen = true →
        (∀ h ∈ walletHoldings, h.mint = r.mint → h.amountRaw = 0) →
          r.newerThanRead (some 9) = true) ∧
      reconcileWithWallet (reconcileWithWallet walletRounds walletHoldings (some 9))
        walletHoldings (some 9) = reconcileWithWallet walletRounds walletHoldings (some 9) :=
  reconcileWithWallet_agrees (some 9) (by decide) (by decide) (by decide)

/-- An open round of nothing agrees with an empty wallet, and stays open. -/
theorem empty_open_round_stays :
    ¬ ∀ (rounds : List LedgerRound) (holdings : List WalletHolding) (readSlot : Option ℕ),
      (openMints rounds).Nodup → (holdings.map (·.mint)).Nodup →
        ∀ r ∈ reconcileWithWallet rounds holdings readSlot, r.isOpen = true →
          (∀ h ∈ holdings, h.mint = r.mint → h.amountRaw = 0) →
            r.newerThanRead readSlot = true := by
  intro h
  have hbad := h [holdingRound [] ⟨"mintA", 0, 0⟩] [] (some 9) (by decide) (by decide)
    (holdingRound [] ⟨"mintA", 0, 0⟩) (by decide) rfl (by simp)
  revert hbad
  decide

end ScreenerBot.Ledger
