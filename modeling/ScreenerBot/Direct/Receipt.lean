import ScreenerBot.Direct.Plan
import ScreenerBot.Swaps.Presend
import ScreenerBot.Library.ByteFields

/-! What a confirmed swap delivered, read out of its transaction. -/
namespace ScreenerBot.Direct

open Library Swaps

structure Receipt where
  received : ℕ
  /-- Whether `received` is a measurement on chain. -/
  isExact : Bool
  networkFeeLamports : ℕ
  slot : ℕ
  deriving DecidableEq, Repr

/-- The keys of a message, bare texts or objects that name one. -/
def accountKeysFromMessage (message : Json) : List String :=
  (((message.get "accountKeys").bind Json.asArray).getD []).filterMap fun entry =>
    entry.asStr.orElse fun _ => (entry.get "pubkey").bind Json.asStr

def accountIndexOf (details : TransactionDetails) (account : String) : Option ℕ :=
  (accountKeysFromMessage details.message).findIdx? (· == account)

/-- The sum of the balances that are kept; none where none is, or where one cannot be read. -/
def sumBalances (balances : Option (List TokenBalance)) (keep : TokenBalance → Bool) :
    Option ℕ :=
  balances.bind fun list =>
    let kept := list.filter keep
    if kept.isEmpty then none
    else kept.foldlM (fun total balance =>
      (parseBelow (2 ^ 128) balance.amount).map fun amount => min (total + amount) u128Max) 0

/-- What the output account gained, by its index or else by mint and owner. -/
def tokenDelta (statusMeta : TransactionMeta) (details : TransactionDetails) (owner : String)
    (plan : SwapPlan) : Option ℕ :=
  let delta (keep : TokenBalance → Bool) : Option ℕ :=
    (sumBalances statusMeta.postTokenBalances keep).map fun post =>
      (post - (sumBalances statusMeta.preTokenBalances keep).getD 0) % 2 ^ 64
  let byIndex := (accountIndexOf details plan.outputAccount).bind fun index =>
    delta fun balance => balance.accountIndex == index
  byIndex.orElse fun _ =>
    delta fun balance => balance.mint == plan.quote.outputMint && balance.owner == some owner

/-- The amount of an inner transfer into `outputAccount`. -/
def transferredInto (outputAccount : String) (instruction : Json) : Option ℕ := do
  let parsed ← instruction.get "parsed"
  let kind := ((parsed.get "type").bind Json.asStr).getD ""
  if kind ≠ "transfer" ∧ kind ≠ "transferChecked" then none
  let info ← parsed.get "info"
  if (info.get "destination").bind Json.asStr ≠ some outputAccount then none
  let amount :=
    if kind = "transferChecked" then
      ((info.get "tokenAmount").bind (Json.get "amount")).bind Json.asStr
    else (info.get "amount").bind Json.asStr
  amount.bind (parseBelow (2 ^ 64))

def swapOutputTransferAmount (statusMeta : TransactionMeta) (outputAccount : String) : Option ℕ :=
  statusMeta.innerInstructions.bind fun groups => groups.findSome? fun group =>
    (((group.get "instructions").bind Json.asArray).getD []).findSome?
      (transferredInto outputAccount)

/-- A native output, by its inner transfer or else by the owner's lamports; never a failure. -/
def nativeReceipt (owner : String) (plan : SwapPlan) (details : TransactionDetails)
    (statusMeta : TransactionMeta) : Receipt :=
  let byLamports : Receipt :=
    match accountIndexOf details owner with
    | none => ⟨plan.quote.minNetOut, false, statusMeta.fee, details.slot⟩
    | some index =>
      let pre := statusMeta.preBalances[index]?.getD 0
      let post := statusMeta.postBalances[index]?.getD 0
      ⟨saturatingAddU64 (post - pre) statusMeta.fee, false, statusMeta.fee, details.slot⟩
  match swapOutputTransferAmount statusMeta plan.outputAccount with
  | none => byLamports
  | some gross =>
    let received := gross - plan.quote.fee.amount
    if plan.quote.minNetOut ≤ received then ⟨received, true, statusMeta.fee, details.slot⟩
    else byLamports

/-- The receipt of a confirmed transaction; a gap in the measurement is the guaranteed floor. -/
def receiptFromTransaction (signature owner : String) (plan : SwapPlan)
    (details : TransactionDetails) : Except DirectSwapError Receipt :=
  match details.statusMeta with
  | none => .ok ⟨plan.quote.minNetOut, false, 0, details.slot⟩
  | some statusMeta =>
    match statusMeta.err with
    | some detail => .error (.transactionFailed signature detail)
    | none =>
      if plan.outputIsNative then .ok (nativeReceipt owner plan details statusMeta)
      else
        match tokenDelta statusMeta details owner plan with
        | none => .ok ⟨plan.quote.minNetOut, false, statusMeta.fee, details.slot⟩
        | some received =>
          if received < plan.quote.minNetOut then
            .error (.outputNotReceived signature plan.quote.minNetOut received)
          else .ok ⟨received, true, statusMeta.fee, details.slot⟩

/-- The two errors a receipt can be: the chain says the transaction failed, or less than the floor
was measured. -/
theorem receiptFromTransaction_error {signature owner : String} {plan : SwapPlan}
    {details : TransactionDetails} {error : DirectSwapError}
    (h : receiptFromTransaction signature owner plan details = .error error) :
    (∃ statusMeta detail, details.statusMeta = some statusMeta ∧ statusMeta.err = some detail ∧
      error = .transactionFailed signature detail) ∨
    ∃ minimum received, error = .outputNotReceived signature minimum received := by
  unfold receiptFromTransaction at h
  split at h
  · cases h
  next statusMeta hmeta =>
    split at h
    next detail herr => exact .inl ⟨statusMeta, detail, hmeta, herr, (Except.error.inj h).symm⟩
    next =>
      split at h
      · cases h
      · split at h
        · cases h
        · split at h
          · exact .inr ⟨_, _, (Except.error.inj h).symm⟩
          · cases h

end ScreenerBot.Direct
