import ScreenerBot.Chain.Amount
import ScreenerBot.Ledger.Types
import ScreenerBot.Library.Json
import ScreenerBot.Library.MachineInt

/-!
A decoded transaction, and the balance deltas of one subject in it.

The maps of the source that key amounts by mint are the folds they hold, read per mint. A set's
order, free in the source, is the order of first appearance.
-/
namespace ScreenerBot.Wallets
open Library Ledger

structure UiTokenAmount where
  amount : String
  decimals : ℕ
  deriving DecidableEq

structure TokenBalance where
  accountIndex : ℕ
  mint : String
  owner : Option String
  uiTokenAmount : UiTokenAmount
  deriving DecidableEq

/-- Lamports by account, before and after. -/
structure TransactionMeta where
  preBalances : List ℕ
  postBalances : List ℕ
  preTokenBalances : Option (List TokenBalance)
  postTokenBalances : Option (List TokenBalance)
  fee : ℕ
  innerInstructions : Option (List Json)

structure TransactionDetails where
  slot : ℕ
  message : Json
  txMeta : Option TransactionMeta
  blockTime : Option ℤ

/-- A raw transaction, and what it deserializes into. -/
structure RawTransaction where
  json : Json
  details : Option TransactionDetails

structure Transaction where
  signature : String
  slot : Option ℕ
  blockTime : Option ℤ
  success : Bool
  rawTransactionData : Option RawTransaction

/-- The strings of an array field, where there is one. -/
def stringsOf (value : Json) (field : String) : List String :=
  (((value.get field).bind Json.asArray).getD []).filterMap Json.asStr

def accountKeysFromMessage (message : Json) : List String :=
  match message.get "accountKeys" with
  | some (.arr items) =>
    let keys := items.filterMap Json.asStr
    if keys.isEmpty then items.filterMap fun item => (item.get "pubkey").bind Json.asStr else keys
  | some (.obj fields) =>
    let loaded := match (Json.obj fields).get "loadedAddresses" with
      | some (.obj addresses) =>
        stringsOf (.obj addresses) "writable" ++ stringsOf (.obj addresses) "readonly"
      | _ => []
    stringsOf (.obj fields) "staticAccountKeys" ++ loaded
  | _ => []

/-- The program of an instruction, named or by its index. -/
def programIdOf (accountKeys : List String) (instruction : Json) : Option String :=
  match (instruction.get "programId").bind Json.asStr with
  | some programId => some programId
  | none => ((instruction.get "programIdIndex").bind Json.asU64).bind fun index =>
      accountKeys[index]?

def instructionsOf (value : Json) : List Json :=
  ((value.get "instructions").bind Json.asArray).getD []

def extractProgramIds (txData : TransactionDetails) : List String :=
  let accountKeys := accountKeysFromMessage txData.message
  let outer := (instructionsOf txData.message).filterMap (programIdOf accountKeys)
  let inner := match txData.txMeta with
    | some txMeta => ((txMeta.innerInstructions.getD []).flatMap instructionsOf).filterMap
        (programIdOf accountKeys)
    | none => []
  ((outer ++ inner).insertionSort (· ≤ ·)).dedup

structure KnownProgram where
  id : String
  router : String
  aggregator : Bool

def aggregator (id router : String) : KnownProgram := ⟨id, router, true⟩

def venue (id router : String) : KnownProgram := ⟨id, router, false⟩

def KNOWN_PROGRAMS : List KnownProgram :=
  [aggregator "RaptorD5ojtsqDDtJeRsunPLg6GvLYNnwKJWxYE4m87" "raptor",
    aggregator "JUP6LkbZbjS1jKKwapdHNy74zcZ3tLUZoi5QNyVTaV4" "jupiter",
    aggregator "JUP4Fb2cqiRUcaTHdrPC8h2gNsA2ETXiPDD33WcGuJB" "jupiter",
    aggregator "JUP3c2Uh3WA4Ng34tw6kPd2G4C5BB21Xo36Je1s32Ph" "jupiter",
    aggregator "GMGNjvGr7ddxt2u1XSf8Zo6LLnDjDm9mJahGfhq7j6gk" "gmgn",
    venue "CPMMoo8L3F4NbTegBCKVNunggL7H1ZpdTHKxQB5qKP1C" "raydium",
    venue "675kPX9MHTjS2zt1qfr1NYHuzeLXfQM9H24wFSUt1Mp8" "raydium",
    venue "CAMMCzo5YL8w4VFF8KVHrK22GGUsp5VTaW7grrKgrWqK" "raydiumclmm",
    venue "LanMV9sAd7wArD4vJFi2qDdfnVhFxYSUg6eADduJ3uj" "raydium",
    venue "whirLbMiicVdio4qvUfM5KAg6Ct8VwpYzGff3uctyCc" "orcawhirlpool",
    venue "9W959DqEETiGZocYWCQPaJ6sBmUzgfxXfqGeTEdp3aQP" "orca",
    venue "cpamdpZCGKUy5JxQXB4dcpGPiikHawvSWAd6mEn1sGG" "meteora",
    venue "LBUZKhRxPF3XUpBCjp4YzTKgLccjZhTSDM9YuVaPwxo" "meteora",
    venue "dbcij3LWUppWqq96dh6gJWwBifmcGfLSB5D4DuSMaqN" "meteora",
    venue "Dooar9JkhdZ7J3LHN3A7YCuoGRUggXhQaG4kijfLGU2j" "meteora",
    venue "pAMMBay6oceH9fJKBRHGP5D4bD4sWpmSwMn52FMfXEA" "pumpfun",
    venue "6EF8rrecthR5Dkzon8Nwu78hRvfCKubJ14M5uBEwF6P" "pumpfun",
    venue "MoonCVVNZFSYkqNXP6bxHLPL6QQJiMagDL3qcqUQTrG" "moonshot",
    venue "FLUXubRmkEi2q6K3Y9kBPg9248ggaZVsoSFhtJHSrm1X" "fluxbeam",
    venue "EewxydAPCCVuNEyrVN68PuSYdQ7wKn27V9Gjeoi8dy3S" "lifinity",
    venue "AMM55ShdkoGRB5jVYPjWziwk8m5MpwyDgsMWHaMSQWH6" "aldrin",
    venue "9xQeWvG816bUx9EPjHmaT23yvVM2ZWbrrpZb9PusVFin" "serum",
    venue "srmqPiDkJokFGBWxH3qzowH4NhGFaKjR5Ek8TRnq6PZ" "serum",
    venue "opnb2LAfJYbRMAHHvqjCwQxanZn7ReEHp1k81EohpZb" "openbook",
    venue "PhoeNiX7BPQtuPBGYWf5KhxZVsXBMNzC9mHvgSe3kfE" "phoenix",
    venue "61DFfeTKM7trxYcPQCM78bJ794ddZprZpAwAnLiwTpYH" "unknown",
    venue "boop8hVGQGqehUK2iVEMEnMrL5RbjywRzHKBmBE7ry4" "unknown",
    venue "6Vo3245eszAb5wuqEMw8mGdbfRUdKbHhDHP5LcaGuTAB" "unknown"]

def detectKnownProgram (programIds : List String) : Option KnownProgram :=
  ((KNOWN_PROGRAMS.filter KnownProgram.aggregator).find? fun known => known.id ∈ programIds).or
    (KNOWN_PROGRAMS.find? fun known => known.id ∈ programIds)

def detectRouter (programIds : List String) : Option String :=
  (detectKnownProgram programIds).map KnownProgram.router

/-- Adds the movement of every account not seen before. -/
def addOwnedMovement (txMeta : TransactionMeta) : List ℕ → List ℕ → ℤ → Option ℤ
  | [], _, delta => some delta
  | index :: indices, seen, delta =>
    if index ∈ seen then addOwnedMovement txMeta indices seen delta
    else do
      let pre ← txMeta.preBalances[index]?
      let post ← txMeta.postBalances[index]?
      let movement ← checkedI128 (post - pre)
      let delta ← checkedI128 (delta + movement)
      addOwnedMovement txMeta indices (index :: seen) delta

/-- The native movement across the subject and the token accounts it owns. -/
def subjectNativeDelta (txMeta : TransactionMeta) (subjectIndex : ℕ) (ownedTokenIndices : List ℕ) :
    Option ℤ := do
  let subjectPre ← txMeta.preBalances[subjectIndex]?
  let subjectPost ← txMeta.postBalances[subjectIndex]?
  let delta ← checkedI128 (subjectPost - subjectPre)
  let delta ← if subjectIndex = 0 then checkedI128 (delta + txMeta.fee) else some delta
  addOwnedMovement txMeta ownedTokenIndices [subjectIndex] delta

/-- The change of an account's lamports. -/
def movement (txMeta : TransactionMeta) (index : ℕ) : ℤ :=
  ((txMeta.postBalances[index]?).getD 0 : ℕ) - ((txMeta.preBalances[index]?).getD 0 : ℕ)

theorem addOwnedMovement_eq {txMeta : TransactionMeta} {indices seen : List ℕ} {delta total : ℤ}
    (h : addOwnedMovement txMeta indices seen delta = some total) :
    total = delta + ∑ index ∈ indices.toFinset \ seen.toFinset, movement txMeta index := by
  induction indices generalizing seen delta with
  | nil =>
    obtain rfl : delta = total := Option.some.inj h
    simp
  | cons index indices ih =>
    rw [addOwnedMovement] at h
    split at h
    · next hseen =>
      rw [ih h, List.toFinset_cons, Finset.insert_sdiff_of_mem _ (List.mem_toFinset.mpr hseen)]
    · next hseen =>
      simp only [Option.bind_eq_bind, Option.bind_eq_some_iff, checkedI128_eq_some] at h
      obtain ⟨pre, hpre, post, hpost, _, ⟨rfl, -⟩, _, ⟨rfl, -⟩, h⟩ := h
      have hnew : index ∉ seen.toFinset := fun hmem => hseen (List.mem_toFinset.mp hmem)
      have hmove : movement txMeta index = post - pre := by simp [movement, hpre, hpost]
      rw [ih h, List.toFinset_cons, List.toFinset_cons, Finset.insert_sdiff_of_notMem _ hnew,
        ← Finset.insert_erase (Finset.mem_insert_self index (indices.toFinset \ seen.toFinset)),
        Finset.sum_insert (Finset.notMem_erase _ _), Finset.erase_insert_eq_erase,
        Finset.sdiff_insert, hmove]
      ring

/-- The native movement is that of the accounts, each counted once, with the fee the subject
paid. -/
theorem subjectNativeDelta_eq {txMeta : TransactionMeta} {subjectIndex : ℕ} {owned : List ℕ}
    {delta : ℤ} (h : subjectNativeDelta txMeta subjectIndex owned = some delta) :
    delta = (if subjectIndex = 0 then (txMeta.fee : ℤ) else 0) +
      ∑ index ∈ insert subjectIndex owned.toFinset, movement txMeta index := by
  simp only [subjectNativeDelta, Option.bind_eq_bind, Option.bind_eq_some_iff,
    checkedI128_eq_some] at h
  obtain ⟨pre, hpre, post, hpost, _, ⟨rfl, -⟩, h⟩ := h
  have hmove : movement txMeta subjectIndex = post - pre := by simp [movement, hpre, hpost]
  have hsheet : ∀ paid, addOwnedMovement txMeta owned [subjectIndex] paid = some delta →
      delta = paid - movement txMeta subjectIndex +
        ∑ index ∈ insert subjectIndex owned.toFinset, movement txMeta index := by
    intro paid h
    have hinsert := Finset.add_sum_erase _ (movement txMeta)
      (Finset.mem_insert_self subjectIndex owned.toFinset)
    rw [Finset.erase_insert_eq_erase] at hinsert
    have howned : owned.toFinset \ [subjectIndex].toFinset = owned.toFinset.erase subjectIndex := by
      simp [Finset.sdiff_singleton_eq_erase]
    rw [addOwnedMovement_eq h, howned, ← hinsert]
    ring
  split at h
  · simp only [Option.bind_eq_some_iff, checkedI128_eq_some] at h
    obtain ⟨_, ⟨rfl, -⟩, h⟩ := h
    rw [hsheet _ h, hmove, if_pos ‹_›]
    ring
  · simp only [Option.bind_some] at h
    rw [hsheet _ h, hmove, if_neg ‹_›]
    ring

/-- `i128` text: digits after an optional sign. -/
def parseI128 (text : String) : Option ℤ :=
  match text.toList with
  | '-' :: '+' :: _ => none
  | '-' :: digits => (parseBelow (2 ^ 127 + 1) (String.ofList digits)).map fun value :
      ℕ => -(value : ℤ)
  | _ => (parseBelow (2 ^ 127) text).map fun value : ℕ => (value : ℤ)

def parseRawAmount (amount : String) : ℤ := (parseI128 amount).getD 0

/-- An unsigned amount is read as it is, or as nothing where `i128` is too narrow. -/
theorem parseRawAmount_of_unsigned {amount : String} {n : ℕ}
    (h : parseBelow (2 ^ 128) amount = some n) :
    parseRawAmount amount = if n < 2 ^ 127 then (n : ℤ) else 0 := by
  unfold parseRawAmount parseI128
  split
  · next hminus =>
    rw [parseBelow_minus hminus] at h
    exact absurd h (by simp)
  · next hminus =>
    rw [parseBelow_minus hminus] at h
    exact absurd h (by simp)
  · rw [parseBelow_of_some h]
    split
    · rfl
    · rfl

/-- The balances the subject owns, before or after. -/
def ownedBalances (subjectAddress : String) (balances : Option (List TokenBalance)) :
    List TokenBalance :=
  (balances.getD []).filter fun balance => balance.owner = some subjectAddress

/-- The sum of a mint's raw amounts in owned balances, as unchecked additions leave it. -/
def rawByMint (owned : List TokenBalance) (mint : String) : ℤ :=
  (owned.filter fun balance => balance.mint = mint).foldl
    (fun total balance => wrapSigned 128 (total + parseRawAmount balance.uiTokenAmount.amount)) 0

theorem rawByMint_eq (owned : List TokenBalance) (mint : String) :
    rawByMint owned mint = wrapSigned 128 ((owned.filter fun balance => balance.mint = mint).map
      fun balance => parseRawAmount balance.uiTokenAmount.amount).sum := by
  have hfold : ∀ (balances : List TokenBalance) (total : ℤ),
      balances.foldl (fun total balance =>
        wrapSigned 128 (total + parseRawAmount balance.uiTokenAmount.amount))
          (wrapSigned 128 total) =
      wrapSigned 128 (total +
        (balances.map fun balance => parseRawAmount balance.uiTokenAmount.amount).sum) := by
    intro balances
    induction balances with
    | nil => intro total; simp
    | cons balance balances ih =>
      intro total
      rw [List.foldl_cons, wrapSigned_wrapSigned_add, ih, List.map_cons, List.sum_cons, add_assoc]
  have h := hfold (owned.filter fun balance => balance.mint = mint) 0
  rw [zero_add] at h
  exact h

/-- The last value recorded for a key. -/
def lastRecorded (owned : List TokenBalance) (p : TokenBalance → Bool) : Option TokenBalance :=
  owned.reverse.find? p

def NATIVE_NOISE_LAMPORTS : ℕ := 50000

def SYSTEM_LEVEL_PROGRAM_IDS : List String :=
  ["11111111111111111111111111111111", "ComputeBudget111111111111111111111111111111",
    "TokenkegQfeZyiNwAJbNbGKPFXCWuBvf9Ss623VQ5DA", "TokenzQdBNbLqP5VEhdkAS6EPFLC1PHnBqCXEpPxuEb",
    "ATokenGPvbdGVxr1b2hvZbsiqW5xWH25efTNsLJA8knL", "Sysvar1nstructions1111111111111111111111111"]

/-- An `i128` as an unsigned amount, where it is one. -/
def u128OfI128 (value : ℤ) : Option ℕ := if 0 ≤ value then some value.toNat else none

/-- The native movement the ledger reads: wrapped accounts are rows of their own. -/
def ledgerNativeDelta (txMeta : TransactionMeta) (subjectIndex : ℕ) (owned : List TokenBalance) :
    Option ℤ :=
  subjectNativeDelta txMeta subjectIndex
    ((owned.map TokenBalance.accountIndex).filter fun index =>
      (lastRecorded owned fun balance => balance.accountIndex = index).map TokenBalance.mint ≠
        some solMint)

/-- The movement of every mint whose owned raw amounts changed. -/
def tokenDeltas (pre post : List TokenBalance) : List (String × ℤ) :=
  ((pre ++ post).map TokenBalance.mint).dedup.filterMap fun mint =>
    let delta := wrapSigned 128 (rawByMint post mint - rawByMint pre mint)
    if delta ≠ 0 then some (mint, delta) else none

def extractSubjectDeltas (subjectAddress : String) (transaction : Transaction) :
    List SubjectAssetDelta :=
  if !transaction.success then []
  else match transaction.rawTransactionData with
  | none => []
  | some raw => match raw.details with
    | none => []
    | some txData => match txData.txMeta with
      | none => []
      | some txMeta =>
        match (accountKeysFromMessage txData.message).findIdx? (· = subjectAddress) with
        | none => []
        | some subjectIndex =>
          let slot := (if 0 < txData.slot then some txData.slot else none).or transaction.slot
          let blockTime := txData.blockTime.or transaction.blockTime
          let txIndex := (((raw.json.get "transactionIndex").bind Json.asU64).getD 0) % 2 ^ 32
          let programIds := extractProgramIds txData
          let venue := detectRouter programIds
          let pre := ownedBalances subjectAddress txMeta.preTokenBalances
          let post := ownedBalances subjectAddress txMeta.postTokenBalances
          let tokens := tokenDeltas pre post
          let nativeDelta := ledgerNativeDelta txMeta subjectIndex (pre ++ post)
          let nativeAboveNoise := nativeDelta.any fun delta => NATIVE_NOISE_LAMPORTS < delta.natAbs
          let kind :=
            if venue.isSome then DeltaKind.trade
            else if !tokens.isEmpty || nativeAboveNoise then .transfer
            else if programIds.any (· ∉ SYSTEM_LEVEL_PROGRAM_IDS) then .deFi
            else .other
          let delta (mint : String) (deltaRaw before after : ℤ) (decimals : ℕ) :
              SubjectAssetDelta :=
            { signature := transaction.signature, mint, slot, blockTime, txIndex, deltaRaw
              beforeRaw := u128OfI128 before, afterRaw := u128OfI128 after
              decimals, kind, venue, success := transaction.success }
          let tokenRows := tokens.map fun (mint, deltaRaw) =>
            delta mint deltaRaw (rawByMint pre mint) (rawByMint post mint)
              (((lastRecorded (pre ++ post) fun balance => balance.mint = mint).map
                fun balance => balance.uiTokenAmount.decimals).getD 0)
          let nativeRows := match nativeDelta with
            | some deltaRaw =>
              if nativeAboveNoise then
                [delta nativeSolSentinel deltaRaw ((txMeta.preBalances[subjectIndex]?).getD 0)
                  ((txMeta.postBalances[subjectIndex]?).getD 0) 9]
              else []
            | none => []
          tokenRows ++ nativeRows

/-- The rows extracted are those of the moved mints, and the native one above the noise. -/
theorem extractSubjectDeltas_rows {subjectAddress : String} {transaction : Transaction}
    {raw : RawTransaction} {txData : TransactionDetails} {txMeta : TransactionMeta}
    {subjectIndex : ℕ} (hsuccess : transaction.success = true)
    (hraw : transaction.rawTransactionData = some raw) (hdetails : raw.details = some txData)
    (hmeta : txData.txMeta = some txMeta)
    (hsubject : (accountKeysFromMessage txData.message).findIdx? (· = subjectAddress) =
      some subjectIndex) :
    (extractSubjectDeltas subjectAddress transaction).map
        (fun delta => (delta.mint, delta.deltaRaw)) =
      tokenDeltas (ownedBalances subjectAddress txMeta.preTokenBalances)
        (ownedBalances subjectAddress txMeta.postTokenBalances) ++
      ((ledgerNativeDelta txMeta subjectIndex
        (ownedBalances subjectAddress txMeta.preTokenBalances ++
          ownedBalances subjectAddress txMeta.postTokenBalances)).filter fun delta =>
            NATIVE_NOISE_LAMPORTS < delta.natAbs).toList.map fun delta =>
              (nativeSolSentinel, delta) := by
  simp only [extractSubjectDeltas, hsuccess, hraw, hdetails, hmeta, hsubject, Bool.not_true,
    Bool.false_eq_true, if_false, List.map_append, List.map_map]
  congr 1
  · exact List.map_id _
  · cases ledgerNativeDelta txMeta subjectIndex
      (ownedBalances subjectAddress txMeta.preTokenBalances ++
        ownedBalances subjectAddress txMeta.postTokenBalances) with
    | none => rfl
    | some delta =>
      by_cases hnoise : NATIVE_NOISE_LAMPORTS < delta.natAbs
      · simp [Option.filter, hnoise]
      · simp [Option.filter, hnoise]

theorem tokenDeltas_ne_zero {pre post : List TokenBalance} {delta : String × ℤ}
    (h : delta ∈ tokenDeltas pre post) : delta.2 ≠ 0 := by
  obtain ⟨mint, -, hmint⟩ := List.mem_filterMap.mp h
  dsimp only at hmint
  split at hmint
  · next hne =>
    obtain rfl := Option.some.inj hmint
    exact hne
  · cases hmint

end ScreenerBot.Wallets
