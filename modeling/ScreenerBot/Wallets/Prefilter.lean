import ScreenerBot.Library.Fallible
import ScreenerBot.Library.Keyed
import ScreenerBot.Wallets.Classify

/-!
What the cheap filter rejects.

Where it finds no effect the sums of the raw amounts agree mint by mint, and the native movement
over every owned account is nothing. The ledger's extractor leaves wrapped accounts out of its
movement, so that lamports a wrapped account holds unsynced are all it can still report.
-/
namespace ScreenerBot.Wallets
open Library Ledger

/-- The amount the extractor reads of a recorded one. -/
def readOf (recorded : Option ℕ) : ℤ :=
  recorded.elim 0 fun value => if value < 2 ^ 127 then (value : ℤ) else 0

def sideOf (isPre : Bool) (entry : Option ℕ × Option ℕ) : Option ℕ :=
  if isPre then entry.1 else entry.2

/-- The sum of what the extractor reads of a mint's amounts on one side of the table. -/
def recordedSum (isPre : Bool) (mint : String) (balances : SubjectBalances) : ℤ :=
  entrySum (fun key entry => if key.2 = mint then readOf (sideOf isPre entry) else 0) balances

/-- What one balance adds to that sum. -/
def recordedGain (subjectAddress mint : String) (balance : TokenBalance) : ℤ :=
  if balance.owner = some subjectAddress ∧ balance.mint = mint then
    parseRawAmount balance.uiTokenAmount.amount
  else 0

theorem readOf_getD (recorded : Option ℕ) : readOf recorded = readOf (some (recorded.getD 0)) := by
  cases recorded with
  | none => simp only [readOf, Option.getD_none, Option.elim_some, Option.elim_none, Nat.cast_zero,
      ite_self]
  | some value => rfl

section Record
variable {subjectAddress mint : String} {accountCount : ℕ} {isPre : Bool}
  {balances balances' : SubjectBalances} {balance : TokenBalance}

theorem readOf_eq_parse {amount : String} {value : ℕ}
    (h : parseBelow (2 ^ 128) amount = some value) :
    readOf (some value) = parseRawAmount amount :=
  (parseRawAmount_of_unsigned h).symm

theorem recordedSum_insert (side : Bool) (key : ℕ × String) (entry : Option ℕ × Option ℕ) :
    recordedSum side mint (balances.insert key entry) = recordedSum side mint balances +
      if key.2 = mint then
        readOf (sideOf side entry) -
          readOf (sideOf side ((balances.lookup key).getD (none, none)))
      else 0 := by
  unfold recordedSum
  rw [entrySum_insert, entrySum_lookup _ balances key]
  by_cases hkey : key.2 = mint
  · simp only [if_pos hkey]
    cases balances.lookup key with
    | none =>
      have hempty : readOf (sideOf side (none, none)) = 0 := by cases side <;> rfl
      simp only [Option.elim_none, Option.getD_none, hempty]
      ring
    | some stored =>
      simp only [Option.elim_some, Option.getD_some]
      ring
  · simp only [if_neg hkey]
    cases balances.lookup key with
    | none => simp
    | some stored => simp

/-- A foreign balance is passed over. An owned one fills an empty slot of its entry. -/
theorem record_cases
    (h : recordSubjectTokenBalance subjectAddress accountCount isPre balances balance =
      some balances') :
    balance.owner ≠ some subjectAddress ∧ balances' = balances ∨
    balance.owner = some subjectAddress ∧ ∃ value entry stored,
      parseBelow (2 ^ 128) balance.uiTokenAmount.amount = some value ∧
      stored = (balances.lookup (balance.accountIndex, balance.mint)).getD (none, none) ∧
      balances' = balances.insert (balance.accountIndex, balance.mint) entry ∧
      sideOf isPre stored = none ∧ sideOf isPre entry = some value ∧
      sideOf (!isPre) entry = sideOf (!isPre) stored := by
  unfold recordSubjectTokenBalance at h
  split at h
  · cases h
  · split at h
    · next hother => exact Or.inl ⟨hother, (Option.some.inj h).symm⟩
    · next hown =>
      right
      refine ⟨not_not.mp hown, ?_⟩
      simp only [Option.bind_eq_bind, Option.bind_eq_some_iff] at h
      obtain ⟨value, hvalue, h⟩ := h
      cases isPre with
      | true =>
        simp only [if_true, Option.ite_none_left_eq_some, Option.not_isSome_iff_eq_none,
          Option.some.injEq] at h
        exact ⟨value, _, _, hvalue, rfl, h.2.symm, h.1, rfl, rfl⟩
      | false =>
        simp only [Bool.false_eq_true, if_false, Option.ite_none_left_eq_some,
          Option.not_isSome_iff_eq_none, Option.some.injEq] at h
        exact ⟨value, _, _, hvalue, rfl, h.2.symm, h.1, rfl, rfl⟩

/-- A balance is added to the side it is recorded on, and to no other. -/
theorem record_adds (mint : String) (side : Bool)
    (h : recordSubjectTokenBalance subjectAddress accountCount isPre balances balance =
      some balances') :
    recordedSum side mint balances' = recordedSum side mint balances +
      if side = isPre then recordedGain subjectAddress mint balance else 0 := by
  rcases record_cases h with ⟨hother, rfl⟩ | ⟨hown, value, entry, stored, hvalue, hstored, rfl,
    hempty, hfilled, hkept⟩
  · simp [recordedGain, hother]
  · rw [recordedSum_insert, ← hstored]
    by_cases hside : side = isPre
    · subst hside
      rw [hempty, hfilled, readOf_eq_parse hvalue]
      simp [recordedGain, hown, readOf]
    · obtain rfl : side = !isPre := by
        cases side <;> cases isPre <;> simp_all
      rw [hkept, sub_self]
      simp

end Record

theorem sum_map_guarded {α : Type*} (p : α → Prop) [DecidablePred p] (f : α → ℤ) (l : List α) :
    (l.map fun a => if p a then f a else 0).sum = ((l.filter p).map f).sum := by
  induction l with
  | nil => rfl
  | cons a l ih =>
    by_cases ha : p a
    · simp [ha, ih]
    · simp [ha, ih]

theorem recordedGain_sum (subjectAddress mint : String) (balances : List TokenBalance) :
    (balances.map (recordedGain subjectAddress mint)).sum =
      (((ownedBalances subjectAddress (some balances)).filter fun balance =>
        balance.mint = mint).map fun balance =>
          parseRawAmount balance.uiTokenAmount.amount).sum := by
  unfold recordedGain ownedBalances
  rw [sum_map_guarded, Option.getD_some, List.filter_filter]
  congr 3
  funext balance
  simp [and_comm]

/-- Where no account changed its raw balance the sums of every mint agree. -/
theorem rawByMint_unchanged {txMeta : TransactionMeta} {subjectAddress : String}
    {accountCount : ℕ}
    (h : subjectTokenBalancesChanged txMeta subjectAddress accountCount = some false)
    (mint : String) :
    rawByMint (ownedBalances subjectAddress txMeta.postTokenBalances) mint =
      rawByMint (ownedBalances subjectAddress txMeta.preTokenBalances) mint := by
  simp only [subjectTokenBalancesChanged, Option.bind_eq_bind, Option.bind_eq_some_iff,
    Option.some.injEq] at h
  obtain ⟨pre, hpre, post, hpost, middle, hmiddle, final, hfinal, hsame⟩ := h
  have hrun : ∀ side, recordedSum side mint final =
      if side then (pre.map (recordedGain subjectAddress mint)).sum
      else (post.map (recordedGain subjectAddress mint)).sum := by
    intro side
    have hfirst := foldlM_sum (fun _ _ _ h => record_adds mint side h) hmiddle
    have hsecond := foldlM_sum (fun _ _ _ h => record_adds mint side h) hfinal
    have hempty : recordedSum side mint ∅ = 0 := rfl
    rw [hsecond, hfirst, hempty]
    cases side <;> simp
  have hsides : recordedSum true mint final = recordedSum false mint final := by
    unfold recordedSum entrySum
    congr 1
    apply List.map_congr_left
    intro entry hentry
    have hequal := List.any_eq_false.mp hsame entry hentry
    have hequal : entry.2.1.getD 0 = entry.2.2.getD 0 := by simpa using hequal
    have hread : readOf entry.2.1 = readOf entry.2.2 := by
      rw [readOf_getD, hequal, ← readOf_getD]
    simp only [sideOf, if_true, Bool.false_eq_true, if_false, hread]
  rw [hrun, hrun] at hsides
  rw [rawByMint_eq, rawByMint_eq, hpre, hpost, ← recordedGain_sum, ← recordedGain_sum]
  simpa using congrArg (wrapSigned 128) hsides.symm

/-- Then there is no token row. -/
theorem tokenDeltas_unchanged {pre post : List TokenBalance}
    (h : ∀ mint, rawByMint post mint = rawByMint pre mint) : tokenDeltas pre post = [] := by
  unfold tokenDeltas
  rw [List.filterMap_eq_nil_iff]
  intro mint _
  have hzero : wrapSigned 128 0 = 0 := rfl
  simp [h mint, hzero]

/-- The subject's wrapped accounts, by the last mint recorded for each. -/
def wrappedAccounts (subjectAddress : String) (txMeta : TransactionMeta) (subjectIndex : ℕ) :
    Finset ℕ :=
  let owned := ownedBalances subjectAddress txMeta.preTokenBalances ++
    ownedBalances subjectAddress txMeta.postTokenBalances
  ((owned.map TokenBalance.accountIndex).filter fun index =>
    (lastRecorded owned fun balance => balance.accountIndex = index).map TokenBalance.mint =
      some solMint).toFinset.erase subjectIndex

/-- The native movement the ledger reads is the whole one less that of the wrapped accounts. -/
theorem ledgerNativeDelta_eq {txMeta : TransactionMeta} {subjectAddress : String}
    {subjectIndex : ℕ} {whole delta : ℤ}
    (hwhole : subjectNativeDelta txMeta subjectIndex (ownedIndices subjectAddress txMeta) =
      some whole)
    (h : ledgerNativeDelta txMeta subjectIndex
      (ownedBalances subjectAddress txMeta.preTokenBalances ++
        ownedBalances subjectAddress txMeta.postTokenBalances) = some delta) :
    delta = whole -
      ∑ index ∈ wrappedAccounts subjectAddress txMeta subjectIndex, movement txMeta index := by
  rw [subjectNativeDelta_eq hwhole, subjectNativeDelta_eq h]
  unfold wrappedAccounts ownedIndices
  generalize ownedBalances subjectAddress txMeta.preTokenBalances ++
    ownedBalances subjectAddress txMeta.postTokenBalances = owned
  dsimp only
  set isWrapped : ℕ → Prop := fun index =>
    (lastRecorded owned fun balance => balance.accountIndex = index).map TokenBalance.mint =
      some solMint with hwrapped
  set indices := owned.map TokenBalance.accountIndex
  have hdisjoint : Disjoint (insert subjectIndex (indices.filter (¬ isWrapped ·)).toFinset)
      ((indices.filter (isWrapped ·)).toFinset.erase subjectIndex) := by
    rw [Finset.disjoint_left]
    intro index hindex
    simp only [Finset.mem_insert, List.mem_toFinset, List.mem_filter, decide_eq_true_eq,
      Finset.mem_erase] at hindex ⊢
    tauto
  have hunion : insert subjectIndex indices.toFinset =
      insert subjectIndex (indices.filter (¬ isWrapped ·)).toFinset ∪
        (indices.filter (isWrapped ·)).toFinset.erase subjectIndex := by
    ext index
    simp only [Finset.mem_insert, Finset.mem_union, List.mem_toFinset, List.mem_filter,
      decide_eq_true_eq, Finset.mem_erase]
    tauto
  rw [hunion, Finset.sum_union hdisjoint]
  ring

/-- The only place an element stands at is the first one. -/
theorem findIdx?_of_findIdxs {α : Type*} {p : α → Bool} {l : List α} {index : ℕ}
    (h : l.findIdxs p = [index]) : l.findIdx? p = some index := by
  have hmem : index ∈ l.findIdxs p := by simp [h]
  obtain ⟨hlt, hp⟩ := List.mem_findIdxs_iff_exists_getElem_pos.mp hmem
  refine List.findIdx?_eq_some_iff_getElem.mpr ⟨hlt, hp, ?_⟩
  intro j hj hpj
  have : j ∈ l.findIdxs p := List.mem_findIdxs_iff_exists_getElem_pos.mpr ⟨hj.trans hlt, hpj⟩
  simp only [h, List.mem_singleton] at this
  omega

/-- What the filter has established where it finds no effect. -/
theorem filtered_cases {subjectAddress : String} {txData : TransactionDetails}
    (h : subjectHasMeaningfulEffect subjectAddress txData = false) :
    ∃ txMeta subjectIndex, txData.txMeta = some txMeta ∧
      (accountKeysFromMessage txData.message).findIdx? (· = subjectAddress) = some subjectIndex ∧
      subjectNativeDelta txMeta subjectIndex (ownedIndices subjectAddress txMeta) = some 0 ∧
      tokenDeltas (ownedBalances subjectAddress txMeta.preTokenBalances)
        (ownedBalances subjectAddress txMeta.postTokenBalances) = [] := by
  unfold subjectHasMeaningfulEffect at h
  split at h
  · cases h
  · next txMeta hmeta =>
    dsimp only at h
    split at h
    · next subjectIndex hsubject =>
      split at h
      · cases h
      · next solDelta hdelta =>
        split at h
        · cases h
        · next hzero =>
          obtain rfl : solDelta = 0 := not_not.mp hzero
          have hsame : subjectTokenBalancesChanged txMeta subjectAddress
              (accountKeysFromMessage txData.message).length = some false := by
            revert h
            cases subjectTokenBalancesChanged txMeta subjectAddress
              (accountKeysFromMessage txData.message).length with
            | none => simp
            | some changed => simp
          exact ⟨txMeta, subjectIndex, hmeta, findIdx?_of_findIdxs hsubject, hdelta,
            tokenDeltas_unchanged (rawByMint_unchanged hsame)⟩
    · cases h

/-- A transaction the filter rejects is of no activity, and its ledger deltas are at most one row,
of the lamports that wrapped accounts took or gave unsynced. -/
theorem filtered_without_effect {subjectAddress : String} {transaction : Transaction}
    {raw : RawTransaction} {txData : TransactionDetails}
    (hraw : transaction.rawTransactionData = some raw) (hdetails : raw.details = some txData)
    (hfiltered : subjectHasMeaningfulEffect subjectAddress txData = false) :
    ∃ txMeta subjectIndex, txData.txMeta = some txMeta ∧
      (accountKeysFromMessage txData.message).findIdx? (· = subjectAddress) = some subjectIndex ∧
      (extractSubjectDeltas subjectAddress transaction).length ≤ 1 ∧
      (∀ delta ∈ extractSubjectDeltas subjectAddress transaction,
        delta.mint = nativeSolSentinel ∧ NATIVE_NOISE_LAMPORTS < delta.deltaRaw.natAbs ∧
        delta.deltaRaw = -∑ index ∈ wrappedAccounts subjectAddress txMeta subjectIndex,
          movement txMeta index) ∧
      ∀ kind reason, classifyTransactionActivity subjectAddress transaction = some (kind, reason) →
        kind = .other := by
  obtain ⟨txMeta, subjectIndex, hmeta, hsubject, hdelta, htokens⟩ := filtered_cases hfiltered
  refine ⟨txMeta, subjectIndex, hmeta, hsubject, ?_, ?_, ?_⟩
  · by_cases hsuccess : transaction.success = true
    · have hlength := congrArg List.length
        (extractSubjectDeltas_rows hsuccess hraw hdetails hmeta hsubject)
      rw [htokens, List.nil_append, List.length_map, List.length_map] at hlength
      rw [hlength]
      exact Option.length_toList_le
    · simp [extractSubjectDeltas, hsuccess]
  · intro delta hmem
    have hsuccess : transaction.success = true := by
      by_contra hfailed
      simp [extractSubjectDeltas, hfailed] at hmem
    have hrow := List.mem_map_of_mem (f := fun delta => (delta.mint, delta.deltaRaw)) hmem
    rw [extractSubjectDeltas_rows hsuccess hraw hdetails hmeta hsubject, htokens, List.nil_append,
      List.mem_map] at hrow
    obtain ⟨amount, hamount, heq⟩ := hrow
    obtain ⟨hmint, hraw⟩ := Prod.mk.inj heq
    rw [Option.mem_toList, Option.filter_eq_some_iff] at hamount
    obtain ⟨hnative, hnoise⟩ := hamount
    rw [← hmint, ← hraw]
    refine ⟨rfl, by simpa using hnoise, ?_⟩
    rw [ledgerNativeDelta_eq hdelta hnative]
    ring
  · intro kind reason h
    rcases classifyTransactionActivity_cases h with hother | ⟨raw', txData', txMeta', subjectIndex',
      decimals, solDelta, hraw', hdetails', hmeta', hsubject', -, hdelta', hkind⟩
    · exact hother
    · obtain rfl := Option.some.inj (hraw.symm.trans hraw')
      obtain rfl := Option.some.inj (hdetails.symm.trans hdetails')
      obtain rfl := Option.some.inj (hmeta.symm.trans hmeta')
      obtain rfl := Option.some.inj (hsubject.symm.trans hsubject')
      obtain rfl := Option.some.inj (hdelta.symm.trans hdelta')
      have hrows : activityRows subjectAddress txMeta = [] := by
        rw [activityRows, htokens]
        rfl
      rw [hrows] at hkind
      split at hkind
      · exact (Prod.mk.inj hkind).1
      · exact (Prod.mk.inj hkind).1

def depositMessage : Json :=
  .obj
    [("accountKeys", .arr [.str "Wallet", .str "Wrapped", .str systemProgramId]),
      ("instructions", .arr
        [.obj
          [("program", .str "system"), ("programId", .str systemProgramId),
            ("parsed", .obj
              [("type", .str "transfer"),
                ("info", .obj
                  [("source", .str "Wallet"), ("destination", .str "Wrapped"),
                    ("lamports", .int 1000000000)])])]])]

/-- A wallet of three coins sends one to its wrapped account, which is not told of it. -/
def unsyncedDeposit : TransactionDetails :=
  let wrapped : TokenBalance := ⟨1, solMint, some "Wallet", ⟨"0", 9⟩⟩
  { slot := 1
    message := depositMessage
    txMeta := some
      { preBalances := [3000000000, 2039280, 1]
        postBalances := [1999995000, 1002039280, 1]
        preTokenBalances := some [wrapped]
        postTokenBalances := some [wrapped]
        fee := 5000
        innerInstructions := some [] }
    blockTime := some 1 }

def unsyncedTransaction : Transaction :=
  { signature := "signature", slot := some 1, blockTime := some 1, success := true
    rawTransactionData := some
      ⟨.obj [("slot", .int 1), ("transaction", .obj [("message", depositMessage)])],
        some unsyncedDeposit⟩ }

/-- The filter sees no effect of it, and the ledger a coin that left. -/
theorem unsynced_deposit_is_a_delta :
    subjectHasMeaningfulEffect "Wallet" unsyncedDeposit = false ∧
      (extractSubjectDeltas "Wallet" unsyncedTransaction).map SubjectAssetDelta.deltaRaw =
        [-1000000000] := by
  decide +kernel

/-- What it leaves is the one delta, of the coin the wrapped account took. -/
theorem unsynced_deposit_filtered :
    ∃ txMeta subjectIndex, unsyncedDeposit.txMeta = some txMeta ∧
      (accountKeysFromMessage unsyncedDeposit.message).findIdx? (· = "Wallet") =
        some subjectIndex ∧
      (extractSubjectDeltas "Wallet" unsyncedTransaction).length ≤ 1 ∧
      (∀ delta ∈ extractSubjectDeltas "Wallet" unsyncedTransaction,
        delta.mint = nativeSolSentinel ∧ NATIVE_NOISE_LAMPORTS < delta.deltaRaw.natAbs ∧
        delta.deltaRaw = -∑ index ∈ wrappedAccounts "Wallet" txMeta subjectIndex,
          movement txMeta index) ∧
      ∀ kind reason, classifyTransactionActivity "Wallet" unsyncedTransaction =
        some (kind, reason) → kind = .other :=
  filtered_without_effect rfl rfl (by decide +kernel)

end ScreenerBot.Wallets
