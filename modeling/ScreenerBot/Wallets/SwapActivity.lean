import ScreenerBot.Library.Fallible
import ScreenerBot.Wallets.Classify

/-!
What a swap activity says of the subject's own balances.

The token leg is the exact change of the subject's raw balance. The native leg is the movement of
the wallet and the token accounts it holds before or after, corrected by the wallet's own top-level
transfers. It is the movement of the whole balance sheet, opened accounts included, where the
lamports it misses cancel.
-/
namespace ScreenerBot.Wallets
open Library Ledger
open Copy (SwapSide)

/-- The subject's raw balance of a mint, on one side of the transaction. -/
def rawBalance (subjectAddress : String) (balances : Option (List TokenBalance)) (mint : String) :
    ℤ :=
  (((ownedBalances subjectAddress balances).filter fun balance => balance.mint = mint).map
    fun balance => parseRawAmount balance.uiTokenAmount.amount).sum

def rawChange (subjectAddress : String) (txMeta : TransactionMeta) (mint : String) : ℤ :=
  rawBalance subjectAddress txMeta.postTokenBalances mint -
    rawBalance subjectAddress txMeta.preTokenBalances mint

theorem wrapSigned_of_i128 {x : ℤ} (h : i128Min ≤ x ∧ x ≤ i128Max) : wrapSigned 128 x = x :=
  (wrapSigned_eq_self_iff 127).mpr ⟨h.1, Int.lt_of_le_sub_one h.2⟩

section Validated
variable {txMeta : TransactionMeta} {subjectAddress mint : String} {accountCount : ℕ}
  {isPre : Bool} {state state' : ValidatedBalances} {balance : TokenBalance}

/-- The totals recorded of a mint, before and after. -/
def ValidatedBalances.totals (state : ValidatedBalances) (mint : String) : ℤ × ℤ :=
  (state.rawTotals.lookup mint).getD (0, 0)

def totalsGain (subjectAddress mint : String) (isPre : Bool) (balance : TokenBalance) : ℤ × ℤ :=
  if balance.owner = some subjectAddress ∧ balance.mint = mint then
    if isPre then (parseRawAmount balance.uiTokenAmount.amount, 0)
    else (0, parseRawAmount balance.uiTokenAmount.amount)
  else 0

/-- A foreign balance is passed over. An owned one is added to its side of its mint's totals, which
stays within `i128`. -/
theorem validateBalance_cases
    (h : validateBalance txMeta subjectAddress accountCount isPre state balance = some state') :
    balance.owner ≠ some subjectAddress ∧ state' = state ∨
    balance.owner = some subjectAddress ∧ ∃ amount,
      parseI128 balance.uiTokenAmount.amount = some amount ∧
      state'.rawTotals = state.rawTotals.insert balance.mint
        (state.totals balance.mint + if isPre then (amount, 0) else (0, amount)) ∧
      state'.decimals = state.decimals.insert balance.mint balance.uiTokenAmount.decimals ∧
      (∀ recorded, state.decimals.lookup balance.mint = some recorded →
        recorded = balance.uiTokenAmount.decimals) ∧
      (checkedI128 ((if isPre then (state.totals balance.mint).1
        else (state.totals balance.mint).2) + amount)).isSome := by
  unfold validateBalance at h
  obtain ⟨owner, howner, h⟩ := Option.bind_eq_some_iff.mp h
  split at h
  · next hother =>
    left
    refine ⟨?_, (Option.some.inj h).symm⟩
    rw [howner]
    exact fun heq => hother (Option.some.inj heq)
  · next hown =>
    right
    refine ⟨by rw [howner, not_not.mp hown], ?_⟩
    obtain ⟨-, h⟩ := Option.ite_none_left_eq_some.mp h
    obtain ⟨amount, hamount, h⟩ := Option.bind_eq_some_iff.mp h
    obtain ⟨-, h⟩ := Option.ite_none_left_eq_some.mp h
    obtain ⟨-, h⟩ := Option.ite_none_left_eq_some.mp h
    obtain ⟨-, h⟩ := Option.ite_none_left_eq_some.mp h
    obtain ⟨hdecimals, h⟩ := Option.ite_none_left_eq_some.mp h
    obtain ⟨total, htotal, h⟩ := Option.bind_eq_some_iff.mp h
    obtain rfl := Option.some.inj h
    refine ⟨amount, hamount, ?_, rfl, ?_, ?_⟩
    · obtain ⟨rfl, -⟩ := checkedI128_eq_some.mp htotal
      cases isPre <;> simp [ValidatedBalances.totals, Prod.add_def]
    · intro recorded hrecorded
      simpa [hrecorded] using hdecimals
    · unfold ValidatedBalances.totals
      rw [htotal]
      rfl

theorem validateBalance_adds (mint : String)
    (h : validateBalance txMeta subjectAddress accountCount isPre state balance = some state') :
    state'.totals mint = state.totals mint + totalsGain subjectAddress mint isPre balance := by
  rcases validateBalance_cases h with ⟨hother, rfl⟩ | ⟨hown, amount, hamount, hinsert, -, -, -⟩
  · simp [totalsGain, hother]
  · have hread : parseRawAmount balance.uiTokenAmount.amount = amount := by
      simp [parseRawAmount, hamount]
    unfold totalsGain ValidatedBalances.totals
    rw [hinsert, hread]
    by_cases hmint : balance.mint = mint
    · subst hmint
      simp [hown, ValidatedBalances.totals]
    · rw [AList.lookup_insert_ne (Ne.symm hmint)]
      simp [hmint]

/-- Both totals of a mint are `i128` values. -/
def TotalsFit (totals : ℤ × ℤ) : Prop :=
  (i128Min ≤ totals.1 ∧ totals.1 ≤ i128Max) ∧ i128Min ≤ totals.2 ∧ totals.2 ≤ i128Max

theorem validateBalance_fits
    (h : validateBalance txMeta subjectAddress accountCount isPre state balance = some state')
    (hfits : ∀ mint, TotalsFit (state.totals mint)) (mint : String) :
    TotalsFit (state'.totals mint) := by
  rcases validateBalance_cases h with ⟨-, rfl⟩ | ⟨-, amount, -, hinsert, -, -, hchecked⟩
  · exact hfits mint
  · by_cases hmint : mint = balance.mint
    · subst hmint
      have hstored := hfits balance.mint
      obtain ⟨total, htotal⟩ := Option.isSome_iff_exists.mp hchecked
      obtain ⟨-, hrange⟩ := checkedI128_eq_some.mp htotal
      unfold ValidatedBalances.totals at hstored hrange ⊢
      rw [hinsert, AList.lookup_insert, Option.getD_some]
      cases isPre with
      | true => exact ⟨hrange, by simpa [ValidatedBalances.totals] using hstored.2⟩
      | false => exact ⟨by simpa [ValidatedBalances.totals] using hstored.1, hrange⟩
    · have hkept := hfits mint
      unfold ValidatedBalances.totals at hkept ⊢
      rw [hinsert, AList.lookup_insert_ne hmint]
      exact hkept

/-- The decimals recorded of a mint stay, and those of an owned balance are recorded. -/
theorem validateBalance_decimals
    (h : validateBalance txMeta subjectAddress accountCount isPre state balance = some state') :
    (∀ mint recorded, state.decimals.lookup mint = some recorded →
      state'.decimals.lookup mint = some recorded) ∧
    (balance.owner = some subjectAddress →
      state'.decimals.lookup balance.mint = some balance.uiTokenAmount.decimals) := by
  rcases validateBalance_cases h with ⟨hother, rfl⟩ | ⟨-, -, -, -, hinsert, hsame, -⟩
  · exact ⟨fun _ _ h => h, fun hown => absurd hown hother⟩
  · rw [hinsert]
    constructor
    · intro mint recorded hrecorded
      by_cases hmint : mint = balance.mint
      · subst hmint
        rw [AList.lookup_insert, hsame recorded hrecorded]
      · rw [AList.lookup_insert_ne hmint, hrecorded]
    · intro _
      exact AList.lookup_insert _

theorem validated_run_decimals {balances : List TokenBalance}
    (h : balances.foldlM (validateBalance txMeta subjectAddress accountCount isPre) state =
      some state') :
    (∀ mint recorded, state.decimals.lookup mint = some recorded →
      state'.decimals.lookup mint = some recorded) ∧
    ∀ balance ∈ ownedBalances subjectAddress (some balances),
      state'.decimals.lookup balance.mint = some balance.uiTokenAmount.decimals := by
  induction balances generalizing state with
  | nil =>
    obtain rfl : state = state' := Option.some.inj h
    exact ⟨fun _ _ h => h, fun _ hmem => absurd hmem List.not_mem_nil⟩
  | cons balance balances ih =>
    rw [List.foldlM_cons] at h
    obtain ⟨next, hnext, h⟩ := Option.bind_eq_some_iff.mp h
    obtain ⟨hkept, hrecorded⟩ := validateBalance_decimals hnext
    obtain ⟨hrest, howned⟩ := ih h
    constructor
    · intro mint recorded hmint
      exact hrest mint recorded (hkept mint recorded hmint)
    · intro other hmem
      obtain ⟨hmem, hother⟩ := List.mem_filter.mp hmem
      rcases List.mem_cons.mp hmem with rfl | hmem
      · exact hrest _ _ (hrecorded (by simpa using hother))
      · exact howned other (List.mem_filter.mpr ⟨hmem, hother⟩)

/-- Every owned balance of a mint shows the decimals its amounts are sized with. -/
theorem validated_decimals {decimals : AList fun _ : String => ℕ}
    (h : validatedSubjectTokenDecimals txMeta subjectAddress accountCount = some decimals) :
    ∀ balance ∈ ownedBalances subjectAddress txMeta.preTokenBalances ++
        ownedBalances subjectAddress txMeta.postTokenBalances,
      (decimals.lookup balance.mint).getD 0 = balance.uiTokenAmount.decimals := by
  simp only [validatedSubjectTokenDecimals, Option.bind_eq_bind, Option.bind_eq_some_iff,
    Option.ite_none_left_eq_some, Option.some.injEq] at h
  obtain ⟨pre, hpre, post, hpost, middle, hmiddle, final, hfinal, -, rfl⟩ := h
  obtain ⟨-, hmiddle⟩ := validated_run_decimals hmiddle
  obtain ⟨hkept, hfinal⟩ := validated_run_decimals hfinal
  intro balance hmem
  rw [hpre, hpost] at hmem
  rcases List.mem_append.mp hmem with hmem | hmem
  · rw [hkept _ _ (hmiddle balance hmem)]
    rfl
  · rw [hfinal balance hmem]
    rfl

theorem totalsGain_sum (isPre : Bool) (balances : List TokenBalance) :
    (balances.map (totalsGain subjectAddress mint isPre)).sum =
      if isPre then (rawBalance subjectAddress (some balances) mint, 0)
      else (0, rawBalance subjectAddress (some balances) mint) := by
  have hcons : ∀ balance balances,
      rawBalance subjectAddress (some (balance :: balances)) mint =
        (if balance.owner = some subjectAddress ∧ balance.mint = mint then
          parseRawAmount balance.uiTokenAmount.amount else 0) +
        rawBalance subjectAddress (some balances) mint := by
    intro balance balances
    simp only [rawBalance, ownedBalances, Option.getD_some, List.filter_filter]
    by_cases howned : balance.owner = some subjectAddress ∧ balance.mint = mint
    · simp [howned]
    · rw [List.filter_cons_of_neg (by simpa [and_comm] using howned), if_neg howned, zero_add]
  induction balances with
  | nil => cases isPre <;> rfl
  | cons balance balances ih =>
    rw [List.map_cons, List.sum_cons, ih, hcons]
    unfold totalsGain
    by_cases howned : balance.owner = some subjectAddress ∧ balance.mint = mint
    · cases isPre <;> simp [howned]
    · cases isPre <;> simp [howned]

/-- Where the balances are valid the movement read of a mint is its exact change. -/
theorem validated_change {decimals : AList fun _ : String => ℕ}
    (h : validatedSubjectTokenDecimals txMeta subjectAddress accountCount = some decimals)
    (mint : String) :
    wrapSigned 128 (rawByMint (ownedBalances subjectAddress txMeta.postTokenBalances) mint -
      rawByMint (ownedBalances subjectAddress txMeta.preTokenBalances) mint) =
      rawChange subjectAddress txMeta mint := by
  simp only [validatedSubjectTokenDecimals, Option.bind_eq_bind, Option.bind_eq_some_iff,
    Option.ite_none_left_eq_some, Option.some.injEq] at h
  obtain ⟨pre, hpre, post, hpost, middle, hmiddle, final, hfinal, hfits, -⟩ := h
  have htotals : final.totals mint = (rawBalance subjectAddress (some pre) mint,
      rawBalance subjectAddress (some post) mint) := by
    rw [foldlM_sum (fun _ _ _ h => validateBalance_adds mint h) hfinal,
      foldlM_sum (fun _ _ _ h => validateBalance_adds mint h) hmiddle,
      totalsGain_sum, totalsGain_sum]
    simp [ValidatedBalances.totals]
  have hstart : ∀ mint, TotalsFit (({} : ValidatedBalances).totals mint) := by
    intro mint
    refine ⟨⟨?_, ?_⟩, ?_, ?_⟩ <;> simp [ValidatedBalances.totals, i128Min, i128Max]
  have hfit : TotalsFit (final.totals mint) :=
    foldlM_keeps (P := fun state => ∀ mint, TotalsFit (state.totals mint))
      (fun _ _ _ _ h hfits => validateBalance_fits h hfits) hfinal
      (foldlM_keeps (P := fun state => ∀ mint, TotalsFit (state.totals mint))
        (fun _ _ _ _ h hfits => validateBalance_fits h hfits) hmiddle hstart) mint
  have hchange : i128Min ≤ (final.totals mint).2 - (final.totals mint).1 ∧
      (final.totals mint).2 - (final.totals mint).1 ≤ i128Max := by
    cases hlookup : final.rawTotals.lookup mint with
    | none => simp [ValidatedBalances.totals, hlookup, i128Min, i128Max]
    | some totals =>
      have hmem := AList.mem_lookup_iff.mp hlookup
      have hsome := List.any_eq_false.mp (Bool.eq_false_of_not_eq_true hfits) _ hmem
      obtain ⟨change, hsome⟩ := Option.ne_none_iff_exists'.mp (by simpa using hsome)
      rw [ValidatedBalances.totals, hlookup]
      exact (checkedI128_eq_some.mp hsome).2
  rw [htotals] at hfit hchange
  rw [rawByMint_eq, rawByMint_eq, hpre, hpost]
  change wrapSigned 128 (wrapSigned 128 (rawBalance subjectAddress (some post) mint) -
    wrapSigned 128 (rawBalance subjectAddress (some pre) mint)) = _
  rw [wrapSigned_of_i128 hfit.1, wrapSigned_of_i128 hfit.2, wrapSigned_of_i128 hchange, rawChange,
    hpre, hpost]

end Validated

/-- The rows that may be traded: neither the native coin nor a stable one. -/
def tradedRows (rows : List (String × ℤ)) : List (String × ℤ) :=
  rows.filter fun delta => delta.1 ≠ solMint && !isStableAsset delta.1

def stableRows (rows : List (String × ℤ)) : List (String × ℤ) :=
  rows.filter fun delta => isStableAsset delta.1

/-- A leg of the token, and one the other way that paid for it or was paid. -/
def Opposed (side : SwapSide) (rise quote : ℤ) : Prop :=
  side = .buy ∧ 0 < rise ∧ quote < 0 ∨ side = .sell ∧ rise < 0 ∧ 0 < quote

theorem opposing_pair {rise leg : ℤ} (h : hasOpposingLegs [rise] leg = true) :
    0 < rise ∧ leg < 0 ∨ rise < 0 ∧ 0 < leg := by
  unfold hasOpposingLegs at h
  dsimp only at h
  split at h
  · simp at h
    omega
  · simp at h
    omega

theorem ne_zero_of_amount {raw : ℤ} {mint : String} {decimals : AList fun _ : String => ℕ}
    (h : ¬ decimalAmount raw mint decimals ≤ 0) : raw ≠ 0 := by
  rintro rfl
  exact h (by simp [decimalAmount, toWholeUnits])

section Shape
variable {nativeLeg : Option ℤ} {rows : List (String × ℤ)}
  {decimals : AList fun _ : String => ℕ} {venue venue' : Option String} {mint : String}
  {side : SwapSide} {tokenAmount : ℚ} {reason : Option String}

theorem classifySwap_swap {nativeAmount : ℚ} {priceNative : Option ℚ}
    (h : classifySwap nativeLeg rows decimals venue =
      (.swap mint side nativeAmount tokenAmount venue' priceNative, reason)) :
    ∃ leg rise, nativeLeg = some leg ∧ tradedRows rows = [(mint, rise)] ∧ stableRows rows = [] ∧
      Opposed side rise leg ∧ nativeAmount = rawToNative leg.natAbs ∧
      tokenAmount = decimalAmount rise mint decimals ∧ venue' = venue := by
  unfold classifySwap at h
  dsimp only at h
  split at h
  · simp at h
  · next traded rise others hrows =>
    split at h
    · simp at h
    · next leg =>
      split at h
      · simp at h
      · next hlegs =>
        split at h
        · simp at h
        · next hsole =>
          split at h
          · split at h
            · simp at h
            · split at h <;> simp at h
          · next hstable =>
            split at h
            · simp at h
            · next hamounts =>
              have hothers : others = [] := by
                by_contra hne
                simp [hne] at hsole
              subst hothers
              simp only [Prod.mk.injEq, ActivityKind.swap.injEq] at h
              obtain ⟨⟨rfl, rfl, rfl, rfl, rfl, -⟩, -⟩ := h
              refine ⟨leg, rise, rfl, hrows, hstable, ?_, rfl, rfl, rfl⟩
              rw [hrows, hstable, List.append_nil] at hlegs
              rcases opposing_pair (by simpa using hlegs) with ⟨hrise, hleg⟩ | ⟨hrise, hleg⟩
              · exact Or.inl ⟨if_pos hrise, hrise, hleg⟩
              · exact Or.inr ⟨if_neg (by omega), hrise, hleg⟩

theorem classifySwap_stable {stableMint : String} {stableAmount : ℚ}
    (h : classifySwap nativeLeg rows decimals venue =
      (.stableSwap mint side stableMint stableAmount tokenAmount venue', reason)) :
    ∃ paid rise, tradedRows rows = [(mint, rise)] ∧ stableRows rows = [(stableMint, paid)] ∧
      Opposed side rise paid ∧ stableAmount = decimalAmount paid stableMint decimals ∧
      tokenAmount = decimalAmount rise mint decimals ∧ venue' = venue := by
  unfold classifySwap at h
  dsimp only at h
  split at h
  · simp at h
  · next traded rise others hrows =>
    split at h
    · simp at h
    · next leg =>
      split at h
      · simp at h
      · next hlegs =>
        split at h
        · simp at h
        · next hsole =>
          split at h
          · next stable paid rest hstable =>
            split at h
            · simp at h
            · split at h
              · simp at h
              · next hamounts =>
                have hothers : others = [] := by
                  by_contra hne
                  simp [hne] at hsole
                have hrest : rest = [] := by
                  cases rest with
                  | nil => rfl
                  | cons other rest => simp [hstable] at hsole
                subst hothers hrest
                simp only [Prod.mk.injEq, ActivityKind.stableSwap.injEq] at h
                obtain ⟨⟨rfl, rfl, rfl, rfl, rfl, rfl⟩, -⟩ := h
                refine ⟨paid, rise, hrows, hstable, ?_, rfl, rfl, rfl⟩
                obtain ⟨hsigns, hstableAmount, htokenAmount⟩ := by
                  simpa only [not_or] using hamounts
                have hpaid := ne_zero_of_amount hstableAmount
                have hrise := ne_zero_of_amount htokenAmount
                by_cases hup : 0 < rise
                · have hdown : ¬ 0 < paid := fun hup' => hsigns (by simp [hup, hup'])
                  exact Or.inl ⟨if_pos hup, hup, by omega⟩
                · have hpaidUp : 0 < paid := by
                    by_contra hdown
                    exact hsigns (by simp [hup, hdown])
                  exact Or.inr ⟨if_neg hup, by omega, hpaidUp⟩
          · split at h <;> simp at h

end Shape

theorem classifyTransfer_kinds (solDelta : ℤ) (rows : List (String × ℤ))
    (decimals : AList fun _ : String => ℕ) :
    (classifyTransfer solDelta rows decimals).1 = .other ∨ ∃ mint amount direction,
      (classifyTransfer solDelta rows decimals).1 = .transfer mint amount direction := by
  unfold classifyTransfer
  dsimp only
  split
  · exact Or.inr ⟨_, _, _, rfl⟩
  · split
    · exact Or.inr ⟨_, _, _, rfl⟩
    · exact Or.inl rfl
  · exact Or.inl rfl

/-- What the row of a traded mint says of the raw balances. -/
theorem mem_activityRows {txMeta : TransactionMeta} {subjectAddress : String} {accountCount : ℕ}
    {decimals : AList fun _ : String => ℕ}
    (h : validatedSubjectTokenDecimals txMeta subjectAddress accountCount = some decimals)
    {mint : String} {delta : ℤ} :
    (mint, delta) ∈ activityRows subjectAddress txMeta ↔
      mint ≠ nativeSolSentinel ∧ delta = rawChange subjectAddress txMeta mint ∧ delta ≠ 0 := by
  have hchange := validated_change h mint
  simp only [activityRows, List.mem_filter, tokenDeltas, List.mem_filterMap, List.mem_dedup,
    decide_eq_true_eq]
  constructor
  · rintro ⟨⟨moved, -, hmoved⟩, hname⟩
    split at hmoved
    · next hne =>
      obtain ⟨rfl, rfl⟩ := Prod.mk.inj (Option.some.inj hmoved)
      exact ⟨hname, hchange, hne⟩
    · cases hmoved
  · rintro ⟨hname, rfl, hne⟩
    refine ⟨⟨mint, ?_, by rw [hchange, if_pos hne]⟩, hname⟩
    by_contra habsent
    -- A mint of no owned balance has nothing to sum on either side.
    have hnone : ∀ owned : List TokenBalance, (∀ balance ∈ owned, balance.mint ≠ mint) →
        rawByMint owned mint = 0 := by
      intro owned howned
      have hempty : (owned.filter fun balance => balance.mint = mint) = [] := by
        simpa [List.filter_eq_nil_iff] using howned
      rw [rawByMint, hempty]
      rfl
    simp only [List.mem_map, List.mem_append, not_exists, not_and] at habsent
    rw [hnone _ fun balance hmem => habsent balance (Or.inr hmem),
      hnone _ fun balance hmem => habsent balance (Or.inl hmem)] at hchange
    exact hne (hchange.symm.trans rfl)

/-- The places of the accounts the transaction opens for the subject. -/
def openedIndices (raw : Json) (accountKeys : List String) (subjectAddress : String) : Finset ℕ :=
  (Finset.range accountKeys.length).filter fun index =>
    (accountKeys[index]?).getD "" ∈ openedAccounts raw subjectAddress

/-- The wallet with the token accounts it held before or after. -/
def heldIndices (txMeta : TransactionMeta) (subjectAddress : String) (subjectIndex : ℕ) :
    Finset ℕ :=
  insert subjectIndex (ownedIndices subjectAddress txMeta).toFinset

/-- The fee, where the subject paid it. -/
def feePaid (txMeta : TransactionMeta) (subjectIndex : ℕ) : ℤ :=
  if subjectIndex = 0 then txMeta.fee else 0

/-- What a transfer moves out of a set of accounts. -/
def transferAcross (inside : String → Prop) [DecidablePred inside] (instruction : Json) : ℤ :=
  match nativeTransfer instruction with
  | .moves source destination lamports =>
    if inside source ∧ ¬ inside destination then lamports
    else if inside destination ∧ ¬ inside source then -lamports
    else 0
  | _ => 0

/-- The movement of the whole balance sheet, with the fee and the transfers to and from outsiders
added back. -/
def sheetLeg (raw : Json) (accountKeys : List String) (subjectAddress : String)
    (txMeta : TransactionMeta) (subjectIndex : ℕ) : ℤ :=
  let ownAccounts := subjectAccounts raw accountKeys subjectAddress
    (ownedIndices subjectAddress txMeta)
  feePaid txMeta subjectIndex +
    ∑ index ∈ heldIndices txMeta subjectAddress subjectIndex ∪
      openedIndices raw accountKeys subjectAddress, movement txMeta index +
    ((topLevelInstructions raw).map
      (transferAcross fun account => account = subjectAddress ∨ account ∈ ownAccounts)).sum

/-- What the native leg leaves out of a transfer: one of the wallet to itself is taken for a
payment, and one between a token account and an outsider for none. -/
def strayTransfer (subjectAddress : String) (ownAccounts : List String) (instruction : Json) : ℤ :=
  match nativeTransfer instruction with
  | .moves source destination lamports =>
    if source = subjectAddress ∧ destination = subjectAddress then
      if subjectAddress ∈ ownAccounts then 0 else -lamports
    else if source ∈ ownAccounts ∧ source ≠ subjectAddress ∧
        ¬ (destination = subjectAddress ∨ destination ∈ ownAccounts) then lamports
    else if destination ∈ ownAccounts ∧ destination ≠ subjectAddress ∧
        ¬ (source = subjectAddress ∨ source ∈ ownAccounts) then -lamports
    else 0
  | _ => 0

/-- The lamports the native leg misses: the movement of accounts opened within the transaction and
held neither before nor after, and the stray transfers. -/
def missedLamports (raw : Json) (accountKeys : List String) (subjectAddress : String)
    (txMeta : TransactionMeta) (subjectIndex : ℕ) : ℤ :=
  ∑ index ∈ openedIndices raw accountKeys subjectAddress \
    heldIndices txMeta subjectAddress subjectIndex, movement txMeta index +
  ((topLevelInstructions raw).map (strayTransfer subjectAddress
    (subjectAccounts raw accountKeys subjectAddress (ownedIndices subjectAddress txMeta)))).sum

/-- What the transfers of the wallet itself move to outsiders. -/
def walletTransfer (subjectAddress : String) (ownAccounts : List String) (instruction : Json) : ℤ :=
  match nativeTransfer instruction with
  | .moves source destination lamports =>
    if source = subjectAddress ∧ destination ∉ ownAccounts then lamports
    else if destination = subjectAddress ∧ source ∉ ownAccounts then -lamports
    else 0
  | _ => 0

/-- Each readable transfer is counted once. -/
theorem externalNativeTransfers_eq {raw : Json} {subjectAddress : String}
    {ownAccounts : List String} {external : ℤ}
    (h : externalNativeTransfers raw subjectAddress ownAccounts = some external) :
    external = ((topLevelInstructions raw).map
      (walletTransfer subjectAddress ownAccounts)).sum := by
  have hsum : id external = id (0 : ℤ) +
      ((topLevelInstructions raw).map (walletTransfer subjectAddress ownAccounts)).sum := by
    unfold externalNativeTransfers at h
    refine foldlM_sum ?_ h
    intro total instruction total' hstep
    unfold walletTransfer
    cases htransfer : nativeTransfer instruction with
    | none =>
      simp only [htransfer, Option.some.injEq] at hstep ⊢
      simp [hstep]
    | unreadable =>
      simp [htransfer] at hstep
    | moves source destination lamports =>
      simp only [htransfer] at hstep ⊢
      split at hstep
      · next hout =>
        rw [if_pos hout, ← Option.some.inj hstep]
        rfl
      · next hout =>
        rw [if_neg hout]
        split at hstep
        · next hin =>
          rw [if_pos hin, ← Option.some.inj hstep]
          rfl
        · next hin =>
          rw [if_neg hin, ← Option.some.inj hstep]
          exact (add_zero _).symm
  simpa using hsum

theorem transferAcross_eq (subjectAddress : String) (ownAccounts : List String)
    (instruction : Json) :
    transferAcross (fun account => account = subjectAddress ∨ account ∈ ownAccounts) instruction =
      walletTransfer subjectAddress ownAccounts instruction +
        strayTransfer subjectAddress ownAccounts instruction := by
  unfold transferAcross walletTransfer strayTransfer
  cases nativeTransfer instruction with
  | none => rfl
  | unreadable => rfl
  | moves source destination lamports =>
    dsimp only
    by_cases hsource : source = subjectAddress
    · subst hsource
      by_cases hdestination : destination = source
      · subst hdestination
        by_cases hown : destination ∈ ownAccounts <;> simp [hown]
      · by_cases hown : source ∈ ownAccounts <;> by_cases hinside : destination ∈ ownAccounts <;>
          simp [hown, hinside, hdestination]
    · by_cases hdestination : destination = subjectAddress
      · subst hdestination
        by_cases hown : source ∈ ownAccounts <;> simp [hown, hsource]
      · by_cases hown : source ∈ ownAccounts <;> by_cases hinside : destination ∈ ownAccounts <;>
          simp [hown, hinside, hdestination, hsource]

/-- The native leg and the lamports it misses make up the movement of the whole sheet. -/
theorem sheetLeg_eq {raw : Json} {accountKeys : List String} {subjectAddress : String}
    {txMeta : TransactionMeta} {subjectIndex : ℕ} {solDelta external : ℤ}
    (hdelta : subjectNativeDelta txMeta subjectIndex (ownedIndices subjectAddress txMeta) =
      some solDelta)
    (hexternal : externalNativeTransfers raw subjectAddress (subjectAccounts raw accountKeys
      subjectAddress (ownedIndices subjectAddress txMeta)) = some external) :
    sheetLeg raw accountKeys subjectAddress txMeta subjectIndex = solDelta + external +
      missedLamports raw accountKeys subjectAddress txMeta subjectIndex := by
  have hunion := Finset.sum_union (f := movement txMeta)
    (Finset.disjoint_sdiff (s := heldIndices txMeta subjectAddress subjectIndex)
      (t := openedIndices raw accountKeys subjectAddress))
  rw [Finset.union_sdiff_self_eq_union] at hunion
  unfold sheetLeg missedLamports
  dsimp only
  rw [hunion, externalNativeTransfers_eq hexternal, subjectNativeDelta_eq hdelta]
  rw [funext (transferAcross_eq subjectAddress _), List.sum_map_add]
  unfold heldIndices feePaid
  ring

/-- One mint that is neither the native coin nor a stable one moved by `rise`, and no other. -/
structure SoleRise (subjectAddress : String) (txMeta : TransactionMeta) (mint : String)
    (rise : ℤ) : Prop where
  traded : mint ≠ solMint ∧ isStableAsset mint = false
  change : rawChange subjectAddress txMeta mint = rise
  sole : ∀ other, other ≠ mint → other ≠ solMint → isStableAsset other = false →
    other ≠ nativeSolSentinel → rawChange subjectAddress txMeta other = 0

/-- An amount of raw units of a mint, in the decimals every balance of it shows. -/
def SizedAs (subjectAddress : String) (txMeta : TransactionMeta) (mint : String) (raw : ℤ)
    (amount : ℚ) : Prop :=
  ∃ decimals, amount = toWholeUnits raw.natAbs decimals ∧
    ∀ balance ∈ ownedBalances subjectAddress txMeta.preTokenBalances ++
        ownedBalances subjectAddress txMeta.postTokenBalances,
      balance.mint = mint → balance.uiTokenAmount.decimals = decimals

theorem sizedAs_of_validated {txMeta : TransactionMeta} {subjectAddress : String}
    {accountCount : ℕ} {decimals : AList fun _ : String => ℕ}
    (h : validatedSubjectTokenDecimals txMeta subjectAddress accountCount = some decimals)
    (mint : String) (raw : ℤ) :
    SizedAs subjectAddress txMeta mint raw (decimalAmount raw mint decimals) := by
  refine ⟨(decimals.lookup mint).getD 0, rfl, ?_⟩
  rintro balance hmem rfl
  exact (validated_decimals h balance hmem).symm

theorem soleRise_of_rows {txMeta : TransactionMeta} {subjectAddress : String} {accountCount : ℕ}
    {decimals : AList fun _ : String => ℕ}
    (h : validatedSubjectTokenDecimals txMeta subjectAddress accountCount = some decimals)
    {mint : String} {rise : ℤ}
    (hrows : tradedRows (activityRows subjectAddress txMeta) = [(mint, rise)]) :
    SoleRise subjectAddress txMeta mint rise := by
  have hmem : (mint, rise) ∈ tradedRows (activityRows subjectAddress txMeta) := by simp [hrows]
  obtain ⟨hrow, htraded⟩ := List.mem_filter.mp hmem
  refine ⟨by simpa using htraded, ((mem_activityRows h).mp hrow).2.1.symm, ?_⟩
  intro other hother hsol hstable hname
  by_contra hne
  have hmoved : (other, rawChange subjectAddress txMeta other) ∈
      tradedRows (activityRows subjectAddress txMeta) :=
    List.mem_filter.mpr ⟨(mem_activityRows h).mpr ⟨hname, rfl, hne⟩, by simp [hsol, hstable]⟩
  rw [hrows, List.mem_singleton] at hmoved
  exact hother (Prod.mk.inj hmoved).1

/-- Where a transaction was read and a known program named. -/
structure ReadAs (subjectAddress : String) (transaction : Transaction) (raw : RawTransaction)
    (txData : TransactionDetails) (txMeta : TransactionMeta) (subjectIndex : ℕ) : Prop where
  stored : transaction.rawTransactionData = some raw
  parsed : raw.details = some txData
  metadata : txData.txMeta = some txMeta
  among : (accountKeysFromMessage txData.message).findIdx? (· = subjectAddress) =
    some subjectIndex
  router : ∃ known ∈ KNOWN_PROGRAMS, known.id ∈ extractProgramIds txData

theorem known_of_router {programIds : List String} (h : (detectRouter programIds).isSome) :
    ∃ known ∈ KNOWN_PROGRAMS, known.id ∈ programIds := by
  obtain ⟨known, hknown⟩ := Option.isSome_iff_exists.mp (by simpa [detectRouter] using h)
  rcases Option.or_eq_some_iff.mp hknown with hfirst | ⟨-, hany⟩
  · exact ⟨known, (List.mem_filter.mp (List.mem_of_find?_eq_some hfirst)).1,
      by simpa using List.find?_some hfirst⟩
  · exact ⟨known, List.mem_of_find?_eq_some hany, by simpa using List.find?_some hany⟩

/-- A native amount is that of a leg that opposes the token's. -/
def ReportsLeg (side : SwapSide) (rise : ℤ) (nativeAmount : ℚ) (leg : ℤ) : Prop :=
  Opposed side rise leg ∧ nativeAmount = rawToNative leg.natAbs

theorem reportsLeg_iff {side : SwapSide} {rise : ℤ} {nativeAmount : ℚ} {leg leg' : ℤ}
    (h : ReportsLeg side rise nativeAmount leg) :
    ReportsLeg side rise nativeAmount leg' ↔ leg' = leg := by
  constructor
  · rintro ⟨hopposed', hamount'⟩
    obtain ⟨hopposed, hamount⟩ := h
    have hsize : leg'.natAbs = leg.natAbs := by
      have hequal := hamount'.symm.trans hamount
      unfold rawToNative at hequal
      have hpos : (lamportsPerSol : ℚ) ≠ 0 := by norm_num [lamportsPerSol]
      exact_mod_cast (div_left_inj' hpos).mp hequal
    rcases hopposed with ⟨rfl, _, _⟩ | ⟨rfl, _, _⟩ <;>
      rcases hopposed' with ⟨hside, _, _⟩ | ⟨hside, _, _⟩
    · omega
    · cases hside
    · cases hside
    · omega
  · rintro rfl
    exact h

/-- A swap is of one mint, whose raw balance moved by the amount reported, against a native leg the
other way, which is the movement of the whole balance sheet exactly where no lamports are missed.
Against a stable coin both legs are the subject's own changes. -/
theorem swap_activity (subjectAddress : String) (transaction : Transaction)
    (mint : String) (side : SwapSide) (tokenAmount : ℚ) (venue reason : Option String) :
    (∀ nativeAmount priceNative, classifyTransactionActivity subjectAddress transaction =
        some (.swap mint side nativeAmount tokenAmount venue priceNative, reason) →
      ∃ raw txData txMeta subjectIndex rise,
        ReadAs subjectAddress transaction raw txData txMeta subjectIndex ∧
        SoleRise subjectAddress txMeta mint rise ∧
        SizedAs subjectAddress txMeta mint rise tokenAmount ∧
        (ReportsLeg side rise nativeAmount (sheetLeg raw.json
            (accountKeysFromMessage txData.message) subjectAddress txMeta subjectIndex) ↔
          missedLamports raw.json (accountKeysFromMessage txData.message) subjectAddress txMeta
            subjectIndex = 0)) ∧
    ∀ stableMint stableAmount, classifyTransactionActivity subjectAddress transaction =
        some (.stableSwap mint side stableMint stableAmount tokenAmount venue, reason) →
      ∃ raw txData txMeta subjectIndex rise paid,
        ReadAs subjectAddress transaction raw txData txMeta subjectIndex ∧
        SoleRise subjectAddress txMeta mint rise ∧ Opposed side rise paid ∧
        SizedAs subjectAddress txMeta mint rise tokenAmount ∧ isStableAsset stableMint = true ∧
        rawChange subjectAddress txMeta stableMint = paid ∧
        SizedAs subjectAddress txMeta stableMint paid stableAmount := by
  constructor
  · intro nativeAmount priceNative h
    rcases classifyTransactionActivity_cases h with hother | ⟨raw, txData, txMeta, subjectIndex,
      decimals, solDelta, hraw, hdetails, hmeta, hsubject, hdecimals, hdelta, hkind⟩
    · cases hother
    · split at hkind
      · next hrouter =>
        obtain ⟨leg, rise, hleg, hrows, -, hopposed, hnative, htoken, -⟩ :=
          classifySwap_swap hkind.symm
        obtain ⟨external, hexternal, rfl⟩ := Option.map_eq_some_iff.mp hleg
        refine ⟨raw, txData, txMeta, subjectIndex, rise,
          ⟨hraw, hdetails, hmeta, hsubject, known_of_router hrouter⟩,
          soleRise_of_rows hdecimals hrows,
          htoken ▸ sizedAs_of_validated hdecimals mint rise, ?_⟩
        rw [reportsLeg_iff ⟨hopposed, hnative⟩, sheetLeg_eq hdelta hexternal]
        omega
      · rcases classifyTransfer_kinds solDelta (activityRows subjectAddress txMeta) decimals with
          hnone | ⟨moved, amount, direction, hmoved⟩
        · rw [← hkind] at hnone
          cases hnone
        · rw [← hkind] at hmoved
          cases hmoved
  · intro stableMint stableAmount h
    rcases classifyTransactionActivity_cases h with hother | ⟨raw, txData, txMeta, subjectIndex,
      decimals, solDelta, hraw, hdetails, hmeta, hsubject, hdecimals, hdelta, hkind⟩
    · cases hother
    · split at hkind
      · next hrouter =>
        obtain ⟨paid, rise, hrows, hstable, hopposed, hamount, htoken, -⟩ :=
          classifySwap_stable hkind.symm
        have hmem : (stableMint, paid) ∈ stableRows (activityRows subjectAddress txMeta) := by
          simp [hstable]
        obtain ⟨hrow, hcoin⟩ := List.mem_filter.mp hmem
        exact ⟨raw, txData, txMeta, subjectIndex, rise, paid,
          ⟨hraw, hdetails, hmeta, hsubject, known_of_router hrouter⟩,
          soleRise_of_rows hdecimals hrows, hopposed,
          htoken ▸ sizedAs_of_validated hdecimals mint rise, by simpa using hcoin,
          ((mem_activityRows hdecimals).mp hrow).2.1.symm,
          hamount ▸ sizedAs_of_validated hdecimals stableMint paid⟩
      · rcases classifyTransfer_kinds solDelta (activityRows subjectAddress txMeta) decimals with
          hnone | ⟨moved, amount, direction, hmoved⟩
        · rw [← hkind] at hnone
          cases hnone
        · rw [← hkind] at hmoved
          cases hmoved

/-- A wallet sells a token on a bonding curve, and is paid in a stablecoin. -/
def stableSaleMessage : Json :=
  .obj
    [("accountKeys", .arr
        [.str "Wallet", .str "TokenAccount", .str "StableAccount", .str systemProgramId]),
      ("instructions", .arr
        [.obj [("programId", .str "6EF8rrecthR5Dkzon8Nwu78hRvfCKubJ14M5uBEwF6P")]])]

def stableSaleMeta : TransactionMeta :=
  { preBalances := [5000000000, 2039280, 2039280, 1]
    postBalances := [4999995000, 2039280, 2039280, 1]
    preTokenBalances := some
      [⟨1, "Mint", some "Wallet", ⟨"3000000", 6⟩⟩, ⟨2, usdcMint, some "Wallet", ⟨"0", 6⟩⟩]
    postTokenBalances := some
      [⟨1, "Mint", some "Wallet", ⟨"1000000", 6⟩⟩, ⟨2, usdcMint, some "Wallet", ⟨"7500000", 6⟩⟩]
    fee := 5000
    innerInstructions := some [] }

def stableSaleTransaction : Transaction :=
  { signature := "signature", slot := some 1, blockTime := some 1, success := true
    rawTransactionData := some
      ⟨.obj [("slot", .int 1), ("transaction", .obj [("message", stableSaleMessage)])],
        some ⟨1, stableSaleMessage, some stableSaleMeta, some 1⟩⟩ }

/-- Two tokens left and seven and a half dollars came in, as the swap reports. -/
theorem swap_activity_stable_sale :
    classifyTransactionActivity "Wallet" stableSaleTransaction =
        some (.stableSwap "Mint" .sell usdcMint (15 / 2) 2 (some "pumpfun"), none) ∧
      ∃ txMeta rise paid, SoleRise "Wallet" txMeta "Mint" rise ∧ Opposed .sell rise paid ∧
        SizedAs "Wallet" txMeta "Mint" rise 2 ∧ rawChange "Wallet" txMeta usdcMint = paid ∧
        SizedAs "Wallet" txMeta usdcMint paid (15 / 2) := by
  have hreported : classifyTransactionActivity "Wallet" stableSaleTransaction =
      some (.stableSwap "Mint" .sell usdcMint (15 / 2) 2 (some "pumpfun"), none) := by
    decide +kernel
  obtain ⟨-, -, txMeta, -, rise, paid, -, hsole, hopposed, htoken, -, hchange, hstable⟩ :=
    (swap_activity "Wallet" stableSaleTransaction "Mint" .sell 2 (some "pumpfun") none).2
      usdcMint (15 / 2) hreported
  exact ⟨hreported, txMeta, rise, paid, hsole, hopposed, htoken, hchange, hstable⟩

/-- A wallet buys a token on a bonding curve for one coin, and sends itself four tenths of one. -/
def selfTransferMessage : Json :=
  .obj
    [("accountKeys", .arr
        [.str "Wallet", .str "Curve", .str "TokenAccount", .str systemProgramId]),
      ("instructions", .arr
        [.obj
          [("program", .str "system"), ("programId", .str systemProgramId),
            ("parsed", .obj
              [("type", .str "transfer"),
                ("info", .obj
                  [("source", .str "Wallet"), ("destination", .str "Wallet"),
                    ("lamports", .int 400000000)])])],
          .obj [("programId", .str "6EF8rrecthR5Dkzon8Nwu78hRvfCKubJ14M5uBEwF6P")]])]

def selfTransferMeta : TransactionMeta :=
  { preBalances := [5000000000, 7000000000, 2039280, 1]
    postBalances := [3999995000, 8000000000, 2039280, 1]
    preTokenBalances := some [⟨2, "Mint", some "Wallet", ⟨"0", 6⟩⟩]
    postTokenBalances := some [⟨2, "Mint", some "Wallet", ⟨"1000000", 6⟩⟩]
    fee := 5000
    innerInstructions := some [] }

def selfTransferTransaction : Transaction :=
  { signature := "signature", slot := some 1, blockTime := some 1, success := true
    rawTransactionData := some
      ⟨.obj [("slot", .int 1), ("transaction", .obj [("message", selfTransferMessage)])],
        some ⟨1, selfTransferMessage, some selfTransferMeta, some 1⟩⟩ }

/-- The sheet lost one coin for the token, and the swap reported is of six tenths. -/
theorem self_transfer_shrinks_swap :
    classifyTransactionActivity "Wallet" selfTransferTransaction =
        some (.swap "Mint" .buy (3 / 5) 1 (some "pumpfun") (some (3 / 5)), none) ∧
      sheetLeg (.obj [("slot", .int 1), ("transaction", .obj [("message", selfTransferMessage)])])
        (accountKeysFromMessage selfTransferMessage) "Wallet" selfTransferMeta 0 = -1000000000 := by
  decide +kernel

end ScreenerBot.Wallets
