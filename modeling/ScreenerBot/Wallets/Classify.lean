import Mathlib.Data.List.AList
import ScreenerBot.Copy.Types
import ScreenerBot.Wallets.Deltas

/-!
The activity of a subject in one decoded transaction, and the cheap filter that spares the decode
of transactions without effect on the subject.
-/
namespace ScreenerBot.Wallets
open Library Ledger
open Copy (SwapSide UnresolvedSwapReason)

def FEE_NOISE_LAMPORTS : ℕ := 50000

def STABLE_NATIVE_RESIDUE_LAMPORTS : ℕ := 10000000

inductive TransferDirection where
  | incoming
  | outgoing
  deriving DecidableEq

inductive ActivityKind where
  | swap (mint : String) (side : SwapSide) (nativeAmount tokenAmount : ℚ) (venue : Option String)
      (priceNative : Option ℚ)
  | stableSwap (mint : String) (side : SwapSide) (stableMint : String)
      (stableAmount tokenAmount : ℚ) (venue : Option String)
  | unresolvedSwap (mint : Option String) (reason : UnresolvedSwapReason) (venue : Option String)
  | transfer (mint : String) (amount : ℚ) (direction : TransferDirection)
  | other
  deriving DecidableEq

/-- The raw amount of an account's mint, before and after. -/
abbrev SubjectBalances := AList fun _ : ℕ × String => Option ℕ × Option ℕ

def recordSubjectTokenBalance (subjectAddress : String) (accountCount : ℕ) (isPre : Bool)
    (balances : SubjectBalances) (balance : TokenBalance) : Option SubjectBalances :=
  if accountCount ≤ balance.accountIndex || balance.owner.isNone then none
  else if balance.owner ≠ some subjectAddress then some balances
  else do
    let rawAmount ← parseBelow (2 ^ 128) balance.uiTokenAmount.amount
    let key := (balance.accountIndex, balance.mint)
    let entry := (balances.lookup key).getD (none, none)
    if isPre then
      if entry.1.isSome then none else some (balances.insert key (some rawAmount, entry.2))
    else
      if entry.2.isSome then none else some (balances.insert key (entry.1, some rawAmount))

/-- Whether an owned token account changed its raw balance, where the metadata tells. -/
def subjectTokenBalancesChanged (txMeta : TransactionMeta) (subjectAddress : String)
    (accountCount : ℕ) : Option Bool := do
  let pre ← txMeta.preTokenBalances
  let post ← txMeta.postTokenBalances
  let balances ← pre.foldlM (recordSubjectTokenBalance subjectAddress accountCount true) ∅
  let balances ← post.foldlM (recordSubjectTokenBalance subjectAddress accountCount false) balances
  some (balances.entries.any fun entry => entry.2.1.getD 0 ≠ entry.2.2.getD 0)

/-- The accounts of the balances the subject owns before or after. -/
def ownedIndices (subjectAddress : String) (txMeta : TransactionMeta) : List ℕ :=
  (ownedBalances subjectAddress txMeta.preTokenBalances ++
    ownedBalances subjectAddress txMeta.postTokenBalances).map TokenBalance.accountIndex

def subjectHasMeaningfulEffect (subjectAddress : String) (txData : TransactionDetails) : Bool :=
  match txData.txMeta with
  | none => true
  | some txMeta =>
    let accountKeys := accountKeysFromMessage txData.message
    match accountKeys.findIdxs (· = subjectAddress) with
    | [subjectIndex] =>
      match subjectNativeDelta txMeta subjectIndex (ownedIndices subjectAddress txMeta) with
      | none => true
      | some solDelta =>
        if solDelta ≠ 0 then true
        else (subjectTokenBalancesChanged txMeta subjectAddress accountKeys.length).getD true
    | _ => true

structure ValidatedBalances where
  decimals : AList fun _ : String => ℕ := ∅
  seenPre : List ℕ := []
  seenPost : List ℕ := []
  accountMints : AList fun _ : ℕ => String := ∅
  rawTotals : AList fun _ : String => ℤ × ℤ := ∅

def validateBalance (txMeta : TransactionMeta) (subjectAddress : String) (accountCount : ℕ)
    (isPre : Bool) (state : ValidatedBalances) (balance : TokenBalance) :
    Option ValidatedBalances := do
  let owner ← balance.owner
  if owner ≠ subjectAddress then some state
  else
    let index := balance.accountIndex
    let rawAmount := balance.uiTokenAmount.amount
    if rawAmount.isEmpty || rawAmount.toList.any (!·.isDigit) then none
    else
      let amount ← parseI128 rawAmount
      if amount < 0 then none
      else
        let seen := if isPre then state.seenPre else state.seenPost
        if accountCount ≤ index || txMeta.preBalances[index]?.isNone ||
            txMeta.postBalances[index]?.isNone || index ∈ seen then none
        else if (state.accountMints.lookup index).any (· ≠ balance.mint) then none
        else if (state.decimals.lookup balance.mint).any (· ≠ balance.uiTokenAmount.decimals) then
          none
        else
          let total := (state.rawTotals.lookup balance.mint).getD (0, 0)
          let amountTotal ← checkedI128 ((if isPre then total.1 else total.2) + amount)
          some
            { decimals := state.decimals.insert balance.mint balance.uiTokenAmount.decimals
              seenPre := if isPre then index :: seen else state.seenPre
              seenPost := if isPre then state.seenPost else index :: seen
              accountMints := state.accountMints.insert index balance.mint
              rawTotals := state.rawTotals.insert balance.mint
                (if isPre then (amountTotal, total.2) else (total.1, amountTotal)) }

/-- The decimals of the subject's mints, where its balances can be sized. -/
def validatedSubjectTokenDecimals (txMeta : TransactionMeta) (subjectAddress : String)
    (accountCount : ℕ) : Option (AList fun _ : String => ℕ) := do
  let pre ← txMeta.preTokenBalances
  let post ← txMeta.postTokenBalances
  let state ← pre.foldlM (validateBalance txMeta subjectAddress accountCount true) {}
  let state ← post.foldlM (validateBalance txMeta subjectAddress accountCount false) state
  if state.rawTotals.entries.any fun entry => (checkedI128 (entry.2.2 - entry.2.1)).isNone then none
  else some state.decimals

/-- The value at a path of object fields. -/
def pointer (value : Json) : List String → Option Json
  | [] => some value
  | field :: path => (value.get field).bind fun inner => pointer inner path

def arrayAt (value : Json) (path : List String) : List Json :=
  ((pointer value path).bind Json.asArray).getD []

def topLevelInstructions (raw : Json) : List Json :=
  arrayAt raw ["transaction", "message", "instructions"]

/-- Every parsed instruction, top level first. -/
def parsedInstructions (raw : Json) : List Json :=
  topLevelInstructions raw ++
    (arrayAt raw ["meta", "innerInstructions"]).flatMap fun group => arrayAt group ["instructions"]

def infoStr (instruction : Json) (field : String) : Option String :=
  (pointer instruction ["parsed", "info", field]).bind Json.asStr

def parsedType (instruction : Json) : Option String :=
  (pointer instruction ["parsed", "type"]).bind Json.asStr

def openedForSubject (subjectAddress : String) (instruction : Json) : Bool :=
  let program := (instruction.get "program").bind Json.asStr
  let kind := (parsedType instruction).getD ""
  if (program = some "spl-token" ∨ program = some "spl-token-2022") ∧
      "initializeAccount".isPrefixOf kind then
    infoStr instruction "owner" = some subjectAddress
  else if program = some "spl-associated-token-account" ∧
      (kind = "create" ∨ kind = "createIdempotent") then
    infoStr instruction "wallet" = some subjectAddress
  else false

/-- The accounts the transaction opens for the subject. -/
def openedAccounts (raw : Json) (subjectAddress : String) : List String :=
  ((parsedInstructions raw).filter (openedForSubject subjectAddress)).filterMap
    fun instruction => infoStr instruction "account"

def subjectAccounts (raw : Json) (accountKeys : List String) (subjectAddress : String)
    (ownedIndices : List ℕ) : List String :=
  ownedIndices.filterMap (fun index => accountKeys[index]?) ++ openedAccounts raw subjectAddress

/-- A system transfer, one that cannot be read, or an instruction of another kind. -/
inductive NativeTransfer where
  | none
  | unreadable
  | moves (source destination : String) (lamports : ℕ)

def nativeTransfer (instruction : Json) : NativeTransfer :=
  if (instruction.get "program").bind Json.asStr ≠ some "system" ∧
      (instruction.get "programId").bind Json.asStr ≠ some systemProgramId then .none
  else match parsedType instruction with
  | Option.none => .none
  | some kind =>
    if kind ≠ "transfer" ∧ kind ≠ "transferWithSeed" then .none
    else match infoStr instruction "source", infoStr instruction "destination",
        (pointer instruction ["parsed", "info", "lamports"]).bind Json.asU64 with
    | some source, some destination, some lamports => .moves source destination lamports
    | _, _, _ => .unreadable

/-- Net lamports the subject moved to accounts outside its own. -/
def externalNativeTransfers (raw : Json) (subjectAddress : String) (ownAccounts : List String) :
    Option ℤ :=
  (topLevelInstructions raw).foldlM (fun external instruction =>
    match nativeTransfer instruction with
    | .none => some external
    | .unreadable => Option.none
    | .moves source destination lamports =>
      if source = subjectAddress ∧ destination ∉ ownAccounts then some (external + lamports)
      else if destination = subjectAddress ∧ source ∉ ownAccounts then some (external - lamports)
      else some external) (0 : ℤ)

def decimalAmount (raw : ℤ) (mint : String) (decimals : AList fun _ : String => ℕ) : ℚ :=
  toWholeUnits raw.natAbs ((decimals.lookup mint).getD 0)

/-- Whether the legs that count move in both directions. -/
def hasOpposingLegs (tokenLegs : List ℤ) (nativeLeg : ℤ) : Bool :=
  let nativeCounts := FEE_NOISE_LAMPORTS < nativeLeg.natAbs
  let legs := tokenLegs ++ if nativeCounts then [nativeLeg] else []
  legs.any (0 < ·) && legs.any (· < 0)

def classifySwap (nativeLegLamports : Option ℤ) (tokenDeltas : List (String × ℤ))
    (decimals : AList fun _ : String => ℕ) (venue : Option String) :
    ActivityKind × Option String :=
  let candidates := tokenDeltas.filter fun delta => delta.1 ≠ solMint && !isStableAsset delta.1
  let stables := tokenDeltas.filter fun delta => isStableAsset delta.1
  match candidates with
  | [] => (.other, some "no nonquote token leg")
  | (mint, tokenDelta) :: others =>
    let soleMint := if others.isEmpty then some mint else none
    let unresolved (reason : UnresolvedSwapReason) (why : String) :
        ActivityKind × Option String := (.unresolvedSwap soleMint reason venue, some why)
    match nativeLegLamports with
    | none => unresolved .unreadable "unreadable top-level native transfer"
    | some nativeLeg =>
      if !hasOpposingLegs ((candidates ++ stables).map Prod.snd) nativeLeg then
        (.other, some "no opposing leg for the token")
      else if !others.isEmpty || 1 < stables.length then
        unresolved .multipleTokens "more than one nonquote token leg"
      else
        let side := if 0 < tokenDelta then SwapSide.buy else .sell
        let tokenAmount := decimalAmount tokenDelta mint decimals
        match stables with
        | (stableMint, stableDelta) :: _ =>
          if STABLE_NATIVE_RESIDUE_LAMPORTS < nativeLeg.natAbs then
            unresolved .mixedQuote "native and stable quote legs together"
          else
            let stableAmount := decimalAmount stableDelta stableMint decimals
            if decide (0 < stableDelta) = decide (0 < tokenDelta) ∨ stableAmount ≤ 0 ∨
                tokenAmount ≤ 0 then
              unresolved .unreadable "invalid stable swap amount"
            else (.stableSwap mint side stableMint stableAmount tokenAmount venue, none)
        | [] =>
          let solAmount := rawToNative nativeLeg.natAbs
          let priceSol := solAmount / tokenAmount
          if solAmount ≤ 0 ∨ tokenAmount ≤ 0 ∨ priceSol ≤ 0 then
            unresolved .unreadable "invalid swap amount"
          else (.swap mint side solAmount tokenAmount venue (some priceSol), none)

def classifyTransfer (solDeltaLamports : ℤ) (tokenDeltas : List (String × ℤ))
    (decimals : AList fun _ : String => ℕ) : ActivityKind × Option String :=
  let direction (delta : ℤ) : TransferDirection := if 0 < delta then .incoming else .outgoing
  match tokenDeltas with
  | [(mint, delta)] => (.transfer mint (decimalAmount delta mint decimals) (direction delta), none)
  | [] =>
    if FEE_NOISE_LAMPORTS < solDeltaLamports.natAbs then
      (.transfer solMint (rawToNative solDeltaLamports.natAbs) (direction solDeltaLamports), none)
    else (.other, some "no DEX program and no single clear transfer leg")
  | _ => (.other, some "no DEX program and no single clear transfer leg")

def classifyTransactionActivity (subjectAddress : String) (transaction : Transaction) :
    Option (ActivityKind × Option String) :=
  if !transaction.success then none
  else match transaction.rawTransactionData with
  | none => some (.other, some "no raw transaction data")
  | some raw => match raw.details with
    | none => some (.other, some "raw transaction data did not parse")
    | some txData => match txData.txMeta with
      | none => some (.other, some "missing transaction meta")
      | some txMeta =>
        let accountKeys := accountKeysFromMessage txData.message
        match accountKeys.findIdx? (· = subjectAddress) with
        | none => some (.other, some "subject not among account keys")
        | some subjectIndex =>
          match validatedSubjectTokenDecimals txMeta subjectAddress accountKeys.length with
          | none => some (.other, some "invalid subject token balance metadata")
          | some tokenDecimals =>
            let ownedIndices := ownedIndices subjectAddress txMeta
            match subjectNativeDelta txMeta subjectIndex ownedIndices with
            | none => some (.other, some "missing native balance metadata")
            | some solDeltaLamports =>
              let tokenDeltas := (((extractSubjectDeltas subjectAddress transaction).filter
                fun delta => delta.mint ≠ nativeSolSentinel).map
                  fun delta => (delta.mint, delta.deltaRaw)).filter fun delta => delta.2 ≠ 0
              let venue := detectRouter (extractProgramIds txData)
              if venue.isSome then
                let ownAccounts := subjectAccounts raw.json accountKeys subjectAddress ownedIndices
                let nativeLegLamports := (externalNativeTransfers raw.json subjectAddress
                  ownAccounts).map fun external : ℤ => solDeltaLamports + external
                some (classifySwap nativeLegLamports tokenDeltas tokenDecimals venue)
              else some (classifyTransfer solDeltaLamports tokenDeltas tokenDecimals)

/-- The moved mints, short of one spelled like the native row. -/
def activityRows (subjectAddress : String) (txMeta : TransactionMeta) : List (String × ℤ) :=
  (tokenDeltas (ownedBalances subjectAddress txMeta.preTokenBalances)
    (ownedBalances subjectAddress txMeta.postTokenBalances)).filter
      fun delta => delta.1 ≠ nativeSolSentinel

theorem activityRows_eq {subjectAddress : String} {transaction : Transaction}
    {raw : RawTransaction} {txData : TransactionDetails} {txMeta : TransactionMeta}
    {subjectIndex : ℕ} (hsuccess : transaction.success = true)
    (hraw : transaction.rawTransactionData = some raw) (hdetails : raw.details = some txData)
    (hmeta : txData.txMeta = some txMeta)
    (hsubject : (accountKeysFromMessage txData.message).findIdx? (· = subjectAddress) =
      some subjectIndex) :
    (((extractSubjectDeltas subjectAddress transaction).filter
      fun delta => delta.mint ≠ nativeSolSentinel).map
        fun delta => (delta.mint, delta.deltaRaw)).filter (fun delta => delta.2 ≠ 0) =
      activityRows subjectAddress txMeta := by
  have hrows := extractSubjectDeltas_rows hsuccess hraw hdetails hmeta hsubject
  have hmap : ((extractSubjectDeltas subjectAddress transaction).filter
      fun delta => delta.mint ≠ nativeSolSentinel).map (fun delta => (delta.mint, delta.deltaRaw)) =
      ((extractSubjectDeltas subjectAddress transaction).map
        fun delta => (delta.mint, delta.deltaRaw)).filter fun row => row.1 ≠ nativeSolSentinel := by
    rw [List.filter_map]
    rfl
  rw [hmap, hrows, List.filter_append]
  have hnative : ∀ deltas : List ℤ, (deltas.map fun delta => (nativeSolSentinel, delta)).filter
      (fun row => row.1 ≠ nativeSolSentinel) = [] := by
    intro deltas
    simp [List.filter_eq_nil_iff]
  rw [hnative, List.append_nil]
  apply List.filter_eq_self.mpr
  intro delta hdelta
  exact decide_eq_true (tokenDeltas_ne_zero (List.mem_filter.mp hdelta).1)

/-- What a classification other than `other` was made of. -/
theorem classifyTransactionActivity_cases {subjectAddress : String} {transaction : Transaction}
    {kind : ActivityKind} {reason : Option String}
    (h : classifyTransactionActivity subjectAddress transaction = some (kind, reason)) :
    kind = .other ∨ ∃ raw txData txMeta subjectIndex decimals solDelta,
      transaction.rawTransactionData = some raw ∧ raw.details = some txData ∧
      txData.txMeta = some txMeta ∧
      (accountKeysFromMessage txData.message).findIdx? (· = subjectAddress) = some subjectIndex ∧
      validatedSubjectTokenDecimals txMeta subjectAddress
        (accountKeysFromMessage txData.message).length = some decimals ∧
      subjectNativeDelta txMeta subjectIndex (ownedIndices subjectAddress txMeta) =
        some solDelta ∧
      (kind, reason) =
        if (detectRouter (extractProgramIds txData)).isSome then
          classifySwap ((externalNativeTransfers raw.json subjectAddress
            (subjectAccounts raw.json (accountKeysFromMessage txData.message) subjectAddress
              (ownedIndices subjectAddress txMeta))).map fun external : ℤ => solDelta + external)
            (activityRows subjectAddress txMeta) decimals (detectRouter (extractProgramIds txData))
        else classifyTransfer solDelta (activityRows subjectAddress txMeta) decimals := by
  have hother : ∀ {why : Option String}, some (ActivityKind.other, why) = some (kind, reason) →
      kind = .other := fun heq => (Prod.mk.inj (Option.some.inj heq)).1.symm
  unfold classifyTransactionActivity at h
  split at h
  · cases h
  · next hsuccess =>
    split at h
    · exact Or.inl (hother h)
    · next raw hraw =>
      split at h
      · exact Or.inl (hother h)
      · next txData hdetails =>
        split at h
        · exact Or.inl (hother h)
        · next txMeta hmeta =>
          dsimp only at h
          split at h
          · exact Or.inl (hother h)
          · next subjectIndex hsubject =>
            split at h
            · exact Or.inl (hother h)
            · next decimals hdecimals =>
              split at h
              · exact Or.inl (hother h)
              · next solDelta hdelta =>
                right
                refine ⟨raw, txData, txMeta, subjectIndex, decimals, solDelta, hraw, hdetails,
                  hmeta, hsubject, hdecimals, hdelta, ?_⟩
                rw [activityRows_eq (by simpa using hsuccess) hraw hdetails hmeta hsubject] at h
                split at h
                · next hvenue => rw [if_pos hvenue, Option.some.inj h]
                · next hvenue => rw [if_neg hvenue, Option.some.inj h]

end ScreenerBot.Wallets
