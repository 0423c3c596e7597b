import ScreenerBot.Direct.Plan

/-! Lamports and token accounts, and what each instruction of a plan does to them. An instruction
that is not covered fails, and with it the whole transaction. -/
namespace ScreenerBot.Direct

structure TokenAccount where
  mint : String
  amount : ℕ
  /-- The lamports it keeps back for rent. -/
  reserve : ℕ
  deriving DecidableEq, Repr

/-- Every address has lamports; a wrapped SOL account holds its amount in them. -/
structure Ledger where
  lamports : String → ℕ
  tokens : String → Option TokenAccount
  backed : ∀ account token, tokens account = some token → token.mint = solMint →
    token.reserve + token.amount ≤ lamports account

/-- What an amount is drawn on: the lamports of an address or the balance of a token account. -/
inductive Holding where
  | lamports (address : String)
  | token (account : String)
  deriving DecidableEq, Repr

namespace Ledger

def holds (ledger : Ledger) : Holding → ℕ
  | .lamports address => ledger.lamports address
  | .token account => ((ledger.tokens account).map TokenAccount.amount).getD 0

def deposit (ledger : Ledger) (address : String) (n : ℕ) : Ledger where
  lamports := Function.update ledger.lamports address (ledger.lamports address + n)
  tokens := ledger.tokens
  backed account token ht hsol := by
    have := ledger.backed account token ht hsol
    rw [Function.update_apply]
    split_ifs with heq
    · subst heq
      omega
    · exact this

/-- Only an address that is no token account pays lamports by itself. -/
def withdraw (ledger : Ledger) (address : String) (n : ℕ) : Option Ledger :=
  if h : ledger.tokens address = none ∧ n ≤ ledger.lamports address then
    some {
      lamports := Function.update ledger.lamports address (ledger.lamports address - n)
      tokens := ledger.tokens
      backed := fun account token ht hsol => by
        have hne : account ≠ address := by
          rintro rfl
          simp [h.1] at ht
        rw [Function.update_of_ne hne]
        exact ledger.backed account token ht hsol }
  else none

def transferLamports (ledger : Ledger) (source destination : String) (n : ℕ) : Option Ledger :=
  (ledger.withdraw source n).map fun paid => paid.deposit destination n

/-- The ledger with one token account written anew. -/
def put (ledger : Ledger) (account : String) (token : TokenAccount) (lamports : ℕ)
    (h : token.mint = solMint → token.reserve + token.amount ≤ lamports) : Ledger where
  lamports := Function.update ledger.lamports account lamports
  tokens := Function.update ledger.tokens account (some token)
  backed other held ht hsol := by
    rw [Function.update_apply] at ht ⊢
    split_ifs at ht ⊢ with heq
    · obtain rfl := Option.some.inj ht
      exact h hsol
    · exact ledger.backed other held ht hsol

/-- A new token account; a wrapped SOL one starts with what it holds past its rent. -/
def openAccount (ledger : Ledger) (account mint : String) (rent : ℕ) : Option Ledger :=
  if h : rent ≤ ledger.lamports account then
    some (ledger.put account
      ⟨mint, if mint = solMint then ledger.lamports account - rent else 0, rent⟩
      (ledger.lamports account) fun hsol => by
        dsimp only at hsol ⊢
        rw [if_pos hsol]
        omega)
  else none

/-- The payer makes up what the account lacks of its rent. -/
def create (ledger : Ledger) (payer account mint : String) (rent : ℕ) : Option Ledger :=
  match ledger.tokens account with
  | some token => if token.mint = mint then some ledger else none
  | none => (ledger.transferLamports payer account (rent - ledger.lamports account)).bind
      fun paid => paid.openAccount account mint rent

def syncNative (ledger : Ledger) (account : String) : Option Ledger :=
  match h : ledger.tokens account with
  | some token =>
    if hsol : token.mint = solMint then
      some (ledger.put account { token with amount := ledger.lamports account - token.reserve }
        (ledger.lamports account) fun _ => by
          have := ledger.backed account token h hsol
          dsimp only
          omega)
    else none
  | none => none

/-- Wrapped SOL leaves with its lamports. -/
def debit (ledger : Ledger) (account : String) (n : ℕ) : Option Ledger :=
  match h : ledger.tokens account with
  | some token =>
    if hn : n ≤ token.amount then
      some (ledger.put account { token with amount := token.amount - n }
        (if token.mint = solMint then ledger.lamports account - n else ledger.lamports account)
        fun hsol => by
          have := ledger.backed account token h hsol
          dsimp only at hsol ⊢
          rw [if_pos hsol]
          omega)
    else none
  | none => none

def credit (ledger : Ledger) (account : String) (n : ℕ) : Option Ledger :=
  match h : ledger.tokens account with
  | some token =>
    some (ledger.put account { token with amount := token.amount + n }
      (if token.mint = solMint then ledger.lamports account + n else ledger.lamports account)
      fun hsol => by
        have := ledger.backed account token h hsol
        dsimp only at hsol ⊢
        rw [if_pos hsol]
        omega)
  | none => none

def hasMint (ledger : Ledger) (account mint : String) : Bool :=
  (ledger.tokens account).any fun token => token.mint == mint

def transferChecked (ledger : Ledger) (source mint destination : String) (n : ℕ) :
    Option Ledger :=
  if ledger.hasMint source mint ∧ ledger.hasMint destination mint then
    (ledger.debit source n).bind fun paid => paid.credit destination n
  else none

/-- A closed account hands over all its lamports; one that holds another token must be empty. -/
def close (ledger : Ledger) (account destination : String) : Option Ledger :=
  match ledger.tokens account with
  | some token =>
    if account ≠ destination ∧ (token.mint = solMint ∨ token.amount = 0) then
      let emptied : Ledger := {
        lamports := Function.update ledger.lamports account 0
        tokens := Function.update ledger.tokens account none
        backed := fun other held ht hsol => by
          rw [Function.update_apply] at ht ⊢
          split_ifs at ht ⊢
          exact ledger.backed other held ht hsol }
      some (emptied.deposit destination (ledger.lamports account))
    else none
  | none => none

end Ledger

/-- What the chain brings to a run: the rent of a token account by its mint, and how the pool
settles its swap and what it yields. -/
structure Conditions where
  rent : String → ℕ
  settlesNativeSol : Bool
  fill : ℕ

namespace Conditions

/-- Where the pool takes the input from. -/
def spends (conditions : Conditions) (accounts : SwapAccounts) : Holding :=
  if conditions.settlesNativeSol ∧ accounts.inputMint = solMint then .lamports accounts.owner
  else .token accounts.inputTokenAccount

/-- Where the pool pays the output to. -/
def receives (conditions : Conditions) (accounts : SwapAccounts) : Holding :=
  if conditions.settlesNativeSol ∧ accounts.outputMint = solMint then .lamports accounts.owner
  else .token accounts.outputTokenAccount

end Conditions

def Ledger.take (ledger : Ledger) (n : ℕ) : Holding → Option Ledger
  | .lamports address => ledger.withdraw address n
  | .token account => ledger.debit account n

def Ledger.give (ledger : Ledger) (n : ℕ) : Holding → Option Ledger
  | .lamports address => some (ledger.deposit address n)
  | .token account => ledger.credit account n

/-- The pool takes exactly the input and pays its yield, or refuses a yield below the floor. -/
def Ledger.swap (conditions : Conditions) (ledger : Ledger) (accounts : SwapAccounts)
    (amountIn minOut : ℕ) : Option Ledger :=
  if conditions.fill < minOut then none
  else (ledger.take amountIn (conditions.spends accounts)).bind fun paid =>
    paid.give conditions.fill (conditions.receives accounts)

def Instruction.execute (conditions : Conditions) (ledger : Ledger) : Instruction → Option Ledger
  | .setComputeUnitLimit _ | .setComputeUnitPrice _ => some ledger
  | .createAssociatedTokenAccount payer _ mint _ account =>
    ledger.create payer account mint (conditions.rent mint)
  | .transferLamports source destination n => ledger.transferLamports source destination n
  | .syncNative account => ledger.syncNative account
  | .swap accounts amountIn minOut => ledger.swap conditions accounts amountIn minOut
  | .transferChecked source mint destination _ n _ =>
    ledger.transferChecked source mint destination n
  | .closeAccount account destination _ => ledger.close account destination

def runInstructions (conditions : Conditions) (ledger : Ledger)
    (instructions : List Instruction) : Option Ledger :=
  instructions.foldlM (Instruction.execute conditions) ledger

/-- What an instruction draws, and on which holding; rent is none of it. -/
def Instruction.draws (conditions : Conditions) : Instruction → Option (Holding × ℕ)
  | .transferLamports source _ n => some (.lamports source, n)
  | .transferChecked source _ _ _ n _ => some (.token source, n)
  | .swap accounts amountIn _ => some (conditions.spends accounts, amountIn)
  | _ => none

/-- What a list draws on one holding. -/
def drawnOn (conditions : Conditions) (holding : Holding) (instructions : List Instruction) : ℕ :=
  (instructions.map fun instruction =>
    match instruction.draws conditions with
    | some (source, n) => if source = holding then n else 0
    | none => 0).sum

namespace Ledger

theorem withdraw_spec {ledger : Ledger} {address : String} {n : ℕ}
    (hwallet : ledger.tokens address = none) (hn : n ≤ ledger.lamports address) :
    ∃ paid, ledger.withdraw address n = some paid ∧ paid.tokens = ledger.tokens ∧
      paid.lamports address = ledger.lamports address - n ∧
      ∀ other, other ≠ address → paid.lamports other = ledger.lamports other := by
  unfold withdraw
  rw [dif_pos ⟨hwallet, hn⟩]
  exact ⟨_, rfl, rfl, by simp, fun other hne => Function.update_of_ne hne _ _⟩

theorem deposit_lamports (ledger : Ledger) (address other : String) (n : ℕ) :
    (ledger.deposit address n).lamports other =
      ledger.lamports other + if other = address then n else 0 := by
  simp only [deposit, Function.update_apply]
  split_ifs with heq
  · rw [heq]
  · rfl

@[simp] theorem deposit_tokens (ledger : Ledger) (address : String) (n : ℕ) :
    (ledger.deposit address n).tokens = ledger.tokens := rfl

theorem transferLamports_spec {ledger : Ledger} {source : String} {n : ℕ}
    (hwallet : ledger.tokens source = none) (hn : n ≤ ledger.lamports source)
    (destination : String) :
    ∃ paid, ledger.transferLamports source destination n = some paid ∧
      paid.tokens = ledger.tokens ∧
      ∀ other, paid.lamports other =
        (if other = source then ledger.lamports source - n else ledger.lamports other) +
          if other = destination then n else 0 := by
  obtain ⟨paid, hpaid, htokens, hsource, hother⟩ := withdraw_spec hwallet hn
  refine ⟨paid.deposit destination n, by simp [transferLamports, hpaid], htokens, ?_⟩
  intro other
  rw [deposit_lamports]
  by_cases heq : other = source
  · rw [heq, if_pos rfl, hsource]
  · rw [if_neg heq, hother other heq]

/-- The rent an account still lacks. -/
def shortfall (ledger : Ledger) (account : String) (rent : ℕ) : ℕ :=
  if ledger.tokens account = none then rent - ledger.lamports account else 0

theorem holds_token {ledger : Ledger} {account : String} {token : TokenAccount}
    (h : ledger.tokens account = some token) : ledger.holds (.token account) = token.amount := by
  simp [holds, h]

theorem openAccount_spec {ledger : Ledger} {account : String} (mint : String) {rent : ℕ}
    (h : rent ≤ ledger.lamports account) :
    ∃ after token, ledger.openAccount account mint rent = some after ∧
      after.tokens = Function.update ledger.tokens account (some token) ∧
      after.lamports = ledger.lamports ∧ token.mint = mint ∧ token.reserve = rent := by
  unfold openAccount
  rw [dif_pos h]
  exact ⟨_, _, rfl, rfl, Function.update_eq_self _ _, rfl, rfl⟩

theorem create_spec {ledger : Ledger} {payer account mint : String} (rent : ℕ)
    (hwallet : ledger.tokens payer = none) (hne : account ≠ payer)
    (hmint : ∀ token, ledger.tokens account = some token → token.mint = mint)
    (hrent : ledger.shortfall account rent ≤ ledger.lamports payer) :
    ∃ after token, ledger.create payer account mint rent = some after ∧
      after.tokens = Function.update ledger.tokens account (some token) ∧ token.mint = mint ∧
      ledger.holds (.token account) ≤ token.amount ∧
      ledger.shortfall account rent ≤ token.reserve ∧
      after.lamports payer = ledger.lamports payer - ledger.shortfall account rent ∧
      ∀ other, other ≠ payer → other ≠ account → after.lamports other = ledger.lamports other := by
  unfold create
  cases htoken : ledger.tokens account with
  | some token =>
    have hsame := hmint token htoken
    simp only [hsame, if_true, shortfall, htoken, reduceCtorEq, if_false]
    refine ⟨ledger, token, rfl, ?_, hsame, (holds_token htoken).le, Nat.zero_le _, rfl,
      fun _ _ _ => rfl⟩
    rw [← htoken, Function.update_eq_self]
  | none =>
    simp only [shortfall, htoken, if_true] at hrent ⊢
    obtain ⟨paid, hpaid, htokens, hlamports⟩ := transferLamports_spec hwallet hrent account
    have hfull : rent ≤ paid.lamports account := by
      rw [hlamports account, if_neg hne, if_pos rfl]
      omega
    obtain ⟨after, token, hafter, hput, hkept, htokenMint, hreserve⟩ :=
      openAccount_spec mint hfull
    refine ⟨after, token, by rw [hpaid, Option.bind_some, hafter], by rw [hput, htokens],
      htokenMint, by simp [holds, htoken], by omega, ?_, ?_⟩
    · rw [hkept, hlamports payer, if_pos rfl, if_neg hne.symm, Nat.add_zero]
    · intro other hpayer haccount
      rw [hkept, hlamports other, if_neg hpayer, if_neg haccount, Nat.add_zero]

/-- Writing one token account anew leaves the others, and the lamports of every other address. -/
structure Rewrites (ledger : Ledger) (account : String) (old new : TokenAccount)
    (after : Ledger) : Prop where
  held : ledger.tokens account = some old
  tokens : after.tokens = Function.update ledger.tokens account (some new)
  lamports : ∀ other, other ≠ account → after.lamports other = ledger.lamports other
  mint : new.mint = old.mint
  reserve : new.reserve = old.reserve

theorem debit_spec {ledger : Ledger} {account : String} {token : TokenAccount} {n : ℕ}
    (htoken : ledger.tokens account = some token) (hn : n ≤ token.amount) :
    ∃ after, ledger.debit account n = some after ∧
      Rewrites ledger account token { token with amount := token.amount - n } after := by
  unfold debit
  split
  next held h =>
    obtain rfl : token = held := Option.some.inj (htoken.symm.trans h)
    rw [dif_pos hn]
    exact ⟨_, rfl, htoken, rfl, fun other hne => Function.update_of_ne hne _ _, rfl, rfl⟩
  next h => simp [h] at htoken

theorem credit_spec {ledger : Ledger} {account : String} {token : TokenAccount}
    (htoken : ledger.tokens account = some token) (n : ℕ) :
    ∃ after, ledger.credit account n = some after ∧
      Rewrites ledger account token { token with amount := token.amount + n } after := by
  unfold credit
  split
  next held h =>
    obtain rfl : token = held := Option.some.inj (htoken.symm.trans h)
    exact ⟨_, rfl, htoken, rfl, fun other hne => Function.update_of_ne hne _ _, rfl, rfl⟩
  next h => simp [h] at htoken

theorem syncNative_spec {ledger : Ledger} {account : String} {token : TokenAccount}
    (htoken : ledger.tokens account = some token) (hsol : token.mint = solMint) :
    ∃ after, ledger.syncNative account = some after ∧
      Rewrites ledger account token
        { token with amount := ledger.lamports account - token.reserve } after := by
  unfold syncNative
  split
  next held h =>
    obtain rfl : token = held := Option.some.inj (htoken.symm.trans h)
    rw [dif_pos hsol]
    exact ⟨_, rfl, htoken, rfl, fun other hne => Function.update_of_ne hne _ _, rfl, rfl⟩
  next h => simp [h] at htoken

theorem close_spec {ledger : Ledger} {account destination : String} {token : TokenAccount}
    (htoken : ledger.tokens account = some token) (hsol : token.mint = solMint)
    (hne : account ≠ destination) :
    ∃ after, ledger.close account destination = some after ∧
      after.tokens = Function.update ledger.tokens account none ∧
      after.lamports destination =
        ledger.lamports destination + ledger.lamports account := by
  unfold close
  rw [htoken]
  simp only
  rw [if_pos ⟨hne, .inl hsol⟩]
  refine ⟨_, rfl, rfl, ?_⟩
  rw [deposit_lamports, if_pos rfl]
  simp only
  rw [Function.update_of_ne hne.symm]

theorem Rewrites.holds_token {ledger after : Ledger} {account : String} {old new : TokenAccount}
    (h : Rewrites ledger account old new after) (other : String) :
    after.holds (.token other) =
      if other = account then new.amount else ledger.holds (.token other) := by
  simp only [holds, h.tokens, Function.update_apply]
  split_ifs <;> rfl

/-- Every account keeps its existence and its mint. -/
theorem Rewrites.kept {ledger after : Ledger} {account : String} {old new : TokenAccount}
    (h : Rewrites ledger account old new after) {other : String} {token : TokenAccount}
    (htoken : ledger.tokens other = some token) :
    ∃ held, after.tokens other = some held ∧ held.mint = token.mint ∧
      held.reserve = token.reserve := by
  rw [h.tokens]
  by_cases heq : other = account
  · subst heq
    obtain rfl : token = old := Option.some.inj (htoken.symm.trans h.held)
    exact ⟨new, Function.update_self .., h.mint, h.reserve⟩
  · exact ⟨token, by rw [Function.update_of_ne heq, htoken], rfl, rfl⟩

theorem Rewrites.wallet {ledger after : Ledger} {account address : String}
    {old new : TokenAccount} (h : Rewrites ledger account old new after)
    (hwallet : ledger.tokens address = none) : address ≠ account ∧ after.tokens address = none := by
  have hne : address ≠ account := by
    rintro rfl
    simp [h.held] at hwallet
  exact ⟨hne, by rw [h.tokens, Function.update_of_ne hne, hwallet]⟩

end Ledger

theorem withdraw_covered {ledger paid : Ledger} {address : String} {n : ℕ}
    (h : ledger.withdraw address n = some paid) : n ≤ ledger.lamports address := by
  unfold Ledger.withdraw at h
  split at h
  next hcovered => exact hcovered.2
  next => cases h

theorem debit_covered {ledger paid : Ledger} {account : String} {n : ℕ}
    (h : ledger.debit account n = some paid) : n ≤ ledger.holds (.token account) := by
  unfold Ledger.debit at h
  split at h
  next token htoken =>
    split at h
    next hcovered => rwa [Ledger.holds_token htoken]
    next => cases h
  next => cases h

/-- An instruction that succeeds was covered by the holding it draws on. -/
theorem draws_covered {conditions : Conditions} {ledger after : Ledger} {instruction : Instruction}
    {holding : Holding} {n : ℕ} (h : instruction.execute conditions ledger = some after)
    (hdraws : instruction.draws conditions = some (holding, n)) : n ≤ ledger.holds holding := by
  cases instruction with
  | transferLamports source destination amount =>
    obtain ⟨rfl, rfl⟩ := Prod.mk.inj (Option.some.inj hdraws)
    obtain ⟨paid, hpaid, -⟩ := Option.map_eq_some_iff.mp h
    exact withdraw_covered hpaid
  | transferChecked source mint destination authority amount decimals =>
    obtain ⟨rfl, rfl⟩ := Prod.mk.inj (Option.some.inj hdraws)
    simp only [Instruction.execute, Ledger.transferChecked] at h
    split at h
    · obtain ⟨paid, hpaid, -⟩ := Option.bind_eq_some_iff.mp h
      exact debit_covered hpaid
    · cases h
  | swap accounts amountIn minOut =>
    obtain ⟨hspends, rfl⟩ := Prod.mk.inj (Option.some.inj hdraws)
    simp only [Instruction.execute, Ledger.swap, hspends] at h
    split at h
    · cases h
    · obtain ⟨paid, hpaid, -⟩ := Option.bind_eq_some_iff.mp h
      cases holding with
      | lamports address => exact withdraw_covered hpaid
      | token account => exact debit_covered hpaid
  | _ => cases hdraws

end ScreenerBot.Direct
