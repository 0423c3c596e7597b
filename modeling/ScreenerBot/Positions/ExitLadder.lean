import Mathlib.Data.Rat.Defs
import ScreenerBot.Swaps.Outcome

/-! The exit slippage ladder: quote and sell at each rung in turn, and send again only when the last
attempt provably sold nothing. -/
namespace ScreenerBot.Positions

open ScreenerBot.Swaps

/-- The venue a graduated token's closed bonding curve is excluded as. -/
def closedCurveVenue : String := "Pump.fun Amm"

/-- The program's error for a trade against a bonding curve that has completed and migrated. -/
def bondingCurveComplete : ℕ := 0x1787

def closedBondingCurve (error : Error) : Bool := programError error == some bondingCurveComplete

/-- How an exit ladder ended. -/
inductive ExitSwap (R : Type*) where
  | executed (result : R)
  | submitted (signature : String)
  | failed (detail : String) (notSubmitted : Option NotSubmittedReason)
  | unresolved (detail : String)

/-- How one rung ended: the ladder with it, or with what the next rung replaces. -/
inductive RungEnd (R : Type*) where
  | ended (outcome : ExitSwap R)
  | next (detail : String) (notSubmitted : Option NotSubmittedReason)

/-- The calls a ladder makes of the world `σ`, and how an error and a slippage are written. -/
structure ExitCalls (σ Q R : Type*) where
  quote : ℚ → Option (List String) → σ → Except Error Q × σ
  executeQuote : Q → σ → Except Error R × σ
  shown : Error → String
  percent : ℚ → String

/-- What a run of the ladder did: how it ended, what each send reported in turn, and the world. -/
structure LadderRun (σ R : Type*) (End : Type*) where
  outcome : End
  sends : List (Except Error R)
  world : σ

variable {σ Q R : Type*} (calls : ExitCalls σ Q R) (exit : String)

/-- The second send of a rung whose first met a closed bonding curve, routed around that venue. -/
def retryWithoutVenue (rung : String) (slippage : ℚ) (s : σ) : LadderRun σ R (RungEnd R) :=
  match calls.quote slippage (some [closedCurveVenue]) s with
  | (.error e, s) =>
    ⟨.next s!"Retry without {closedCurveVenue} also failed (quote) at {rung}: {calls.shown e}" none,
      [], s⟩
  | (.ok routedAround, s) =>
    match calls.executeQuote routedAround s with
    | (.ok result, s) => ⟨.ended (.executed result), [.ok result], s⟩
    | (.error retryError, s) =>
      let detail := s!"Retry without {closedCurveVenue} failed at {rung}: {calls.shown retryError}"
      match failedSwap retryError with
      | .reconcile signature => ⟨.ended (.submitted signature), [.error retryError], s⟩
      | .unresolved => ⟨.ended (.unresolved detail), [.error retryError], s⟩
      | .resendable => ⟨.next detail (notSubmittedReason retryError), [.error retryError], s⟩

/-- One pass of the ladder's loop. -/
def runRung (index : ℕ) (slippage : ℚ) (s : σ) : LadderRun σ R (RungEnd R) :=
  let rung := s!"step {index + 1} ({calls.percent slippage}%)"
  match calls.quote slippage none s with
  | (.error e, s) => ⟨.next s!"Quote failed at {rung}: {calls.shown e}" none, [], s⟩
  | (.ok rungQuote, s) =>
    match calls.executeQuote rungQuote s with
    | (.ok result, s) => ⟨.ended (.executed result), [.ok result], s⟩
    | (.error error, s) =>
      let detail := s!"{exit} swap failed at {rung}: {calls.shown error}"
      match failedSwap error with
      | .reconcile signature => ⟨.ended (.submitted signature), [.error error], s⟩
      | .unresolved => ⟨.ended (.unresolved detail), [.error error], s⟩
      | .resendable =>
        if closedBondingCurve error then
          let retry := retryWithoutVenue calls rung slippage s
          ⟨retry.outcome, .error error :: retry.sends, retry.world⟩
        else ⟨.next detail (notSubmittedReason error), [.error error], s⟩

/-- The ladder from rung `index` on, with what the rung before it left. -/
def climb : ℕ → List ℚ → String → Option NotSubmittedReason → σ → LadderRun σ R (ExitSwap R)
  | _, [], detail, notSubmitted, s => ⟨.failed detail notSubmitted, [], s⟩
  | index, slippage :: steps, _, _, s =>
    let rung := runRung calls exit index slippage s
    match rung.outcome with
    | .ended outcome => ⟨outcome, rung.sends, rung.world⟩
    | .next detail notSubmitted =>
      let above := climb (index + 1) steps detail notSubmitted rung.world
      ⟨above.outcome, rung.sends ++ above.sends, above.world⟩

/-- Run the exit ladder over `steps` (slippage percentages). -/
def runExitLadder (steps : List ℚ) (s : σ) : LadderRun σ R (ExitSwap R) :=
  climb calls exit 0 steps s!"{exit} swap failed" none s

/-- A send that reported a proof that it sold nothing. -/
def Unsold : Except Error R → Prop
  | .ok _ => False
  | .error error => error.ProvesUnsold

/-- What a ladder may say of the sends it made, in their order. -/
def ExitSwap.Accounts (sends : List (Except Error R)) : ExitSwap R → Prop
  | .executed result => ∃ before, sends = before ++ [.ok result] ∧ ∀ send ∈ before, Unsold send
  | .submitted signature => ∃ before error, sends = before ++ [.error error] ∧
      unconfirmedSwapSignature error = some signature ∧ ∀ send ∈ before, Unsold send
  | .failed _ _ => ∀ send ∈ sends, Unsold send
  | .unresolved _ => ∃ before error, sends = before ++ [.error error] ∧
      failedSwap error = .unresolved ∧ ∀ send ∈ before, Unsold send

/-- The same of one rung: the ladder goes on only with every send of it unsold. -/
def RungEnd.Accounts (sends : List (Except Error R)) : RungEnd R → Prop
  | .ended outcome => outcome.Accounts sends
  | .next _ _ => ∀ send ∈ sends, Unsold send

/-- Sends known to have sold nothing may stand before those an outcome accounts for. -/
theorem ExitSwap.Accounts.after {sends earlier : List (Except Error R)} {outcome : ExitSwap R}
    (h : outcome.Accounts sends) (hearlier : ∀ send ∈ earlier, Unsold send) :
    outcome.Accounts (earlier ++ sends) := by
  have happend : ∀ before, (∀ send ∈ before, Unsold send) →
      ∀ send ∈ earlier ++ before, Unsold send := by
    intro before hbefore send hmem
    rcases List.mem_append.mp hmem with hmem | hmem
    · exact hearlier send hmem
    · exact hbefore send hmem
  cases outcome with
  | executed result =>
    obtain ⟨before, rfl, hbefore⟩ := h
    exact ⟨earlier ++ before, (List.append_assoc ..).symm, happend before hbefore⟩
  | submitted signature =>
    obtain ⟨before, error, rfl, herror, hbefore⟩ := h
    exact ⟨earlier ++ before, error, (List.append_assoc ..).symm, herror, happend before hbefore⟩
  | failed detail notSubmitted => exact happend sends h
  | unresolved detail =>
    obtain ⟨before, error, rfl, herror, hbefore⟩ := h
    exact ⟨earlier ++ before, error, (List.append_assoc ..).symm, herror, happend before hbefore⟩

theorem RungEnd.Accounts.after {sends earlier : List (Except Error R)} {outcome : RungEnd R}
    (h : outcome.Accounts sends) (hearlier : ∀ send ∈ earlier, Unsold send) :
    outcome.Accounts (earlier ++ sends) := by
  cases outcome with
  | ended outcome => exact ExitSwap.Accounts.after h hearlier
  | next detail notSubmitted =>
    intro send hmem
    rcases List.mem_append.mp hmem with hmem | hmem
    · exact hearlier send hmem
    · exact h send hmem

theorem executed_accounts (result : R) :
    (RungEnd.ended (.executed result)).Accounts [Except.ok result] :=
  ⟨[], rfl, by simp⟩

theorem submitted_accounts {error : Error} {signature : String}
    (h : failedSwap error = .reconcile signature) :
    (RungEnd.ended (.submitted signature)).Accounts [(.error error : Except Error R)] :=
  ⟨[], error, rfl, signature_of_reconcile h, by simp⟩

theorem unresolved_accounts {error : Error} {detail : String} (h : failedSwap error = .unresolved) :
    (RungEnd.ended (.unresolved detail)).Accounts [(.error error : Except Error R)] :=
  ⟨[], error, rfl, h, by simp⟩

/-- Only a resendable error lets its rung go on. -/
theorem resendable_unsold {error : Error} (h : failedSwap error = .resendable) :
    ∀ send ∈ [(.error error : Except Error R)], Unsold send := by
  intro send hmem
  rw [List.mem_singleton.mp hmem]
  exact provesUnsold_of_resendable h

theorem retryWithoutVenue_accounts (rung : String) (slippage : ℚ) (s : σ) :
    (retryWithoutVenue calls rung slippage s).outcome.Accounts
      (retryWithoutVenue calls rung slippage s).sends := by
  unfold retryWithoutVenue
  rcases calls.quote slippage (some [closedCurveVenue]) s with ⟨e | routedAround, s⟩
  · intro send hmem
    cases hmem
  · dsimp only
    rcases calls.executeQuote routedAround s with ⟨retryError | result, s⟩
    · dsimp only
      cases herror : failedSwap retryError with
      | reconcile signature => exact submitted_accounts herror
      | unresolved => exact unresolved_accounts herror
      | resendable => exact resendable_unsold herror
    · exact executed_accounts result

theorem runRung_accounts (index : ℕ) (slippage : ℚ) (s : σ) :
    (runRung calls exit index slippage s).outcome.Accounts
      (runRung calls exit index slippage s).sends := by
  unfold runRung
  rcases calls.quote slippage none s with ⟨e | rungQuote, s⟩
  · intro send hmem
    cases hmem
  · dsimp only
    rcases calls.executeQuote rungQuote s with ⟨error | result, s⟩
    · dsimp only
      cases herror : failedSwap error with
      | reconcile signature => exact submitted_accounts herror
      | unresolved => exact unresolved_accounts herror
      | resendable =>
        dsimp only
        split
        · exact (retryWithoutVenue_accounts calls _ slippage s).after (resendable_unsold herror)
        · exact resendable_unsold herror
    · exact executed_accounts result

theorem retryWithoutVenue_sends_le (rung : String) (slippage : ℚ) (s : σ) :
    (retryWithoutVenue calls rung slippage s).sends.length ≤ 1 := by
  unfold retryWithoutVenue
  split
  · exact Nat.zero_le 1
  · split
    · exact le_rfl
    · dsimp only
      split <;> exact le_rfl

/-- A rung sends at most twice: once as quoted, once around a closed bonding curve. -/
theorem runRung_sends_le (index : ℕ) (slippage : ℚ) (s : σ) :
    (runRung calls exit index slippage s).sends.length ≤ 2 := by
  unfold runRung
  dsimp only
  split
  · simp
  · split
    · simp
    · split
      · simp
      · simp
      · split
        · exact Nat.succ_le_succ (retryWithoutVenue_sends_le calls _ slippage _)
        · simp

theorem climb_accounts (steps : List ℚ) : ∀ (index : ℕ) (detail : String)
    (notSubmitted : Option NotSubmittedReason) (s : σ),
    (climb calls exit index steps detail notSubmitted s).outcome.Accounts
      (climb calls exit index steps detail notSubmitted s).sends := by
  induction steps with
  | nil =>
    intro index detail notSubmitted s send hmem
    cases hmem
  | cons slippage steps ih =>
    intro index detail notSubmitted s
    have hrung := runRung_accounts calls exit index slippage s
    unfold climb
    dsimp only
    cases houtcome : (runRung calls exit index slippage s).outcome with
    | ended outcome =>
      rw [houtcome] at hrung
      exact hrung
    | next detail notSubmitted =>
      rw [houtcome] at hrung
      exact (ih (index + 1) detail notSubmitted _).after hrung

theorem climb_sends_le (steps : List ℚ) : ∀ (index : ℕ) (detail : String)
    (notSubmitted : Option NotSubmittedReason) (s : σ),
    (climb calls exit index steps detail notSubmitted s).sends.length ≤ 2 * steps.length := by
  induction steps with
  | nil =>
    intro index detail notSubmitted s
    exact Nat.zero_le _
  | cons slippage steps ih =>
    intro index detail notSubmitted s
    have hrung := runRung_sends_le calls exit index slippage s
    unfold climb
    dsimp only
    cases (runRung calls exit index slippage s).outcome with
    | ended outcome =>
      simp only [List.length_cons]
      omega
    | next detail notSubmitted =>
      have habove := ih (index + 1) detail notSubmitted (runRung calls exit index slippage s).world
      simp only [List.length_append, List.length_cons]
      omega

/-- Every send but the last of a ladder sold nothing. -/
theorem ExitSwap.Accounts.unsold_but_last {sends : List (Except Error R)} {outcome : ExitSwap R}
    (h : outcome.Accounts sends) : ∀ send ∈ sends.dropLast, Unsold send := by
  cases outcome with
  | executed result =>
    obtain ⟨before, rfl, hbefore⟩ := h
    rwa [List.dropLast_concat]
  | submitted signature =>
    obtain ⟨before, error, rfl, -, hbefore⟩ := h
    rwa [List.dropLast_concat]
  | failed detail notSubmitted =>
    intro send hmem
    exact h send (List.dropLast_subset sends hmem)
  | unresolved detail =>
    obtain ⟨before, error, rfl, -, hbefore⟩ := h
    rwa [List.dropLast_concat]

/-- Over every quote, every outcome its sends can report and every list of slippages, the ladder
sends again only once each earlier send proved it sold nothing, sends at most twice a rung, and
ends as its sends say: a plain failure only when all of them proved it. -/
theorem exit_ladder_never_resells (steps : List ℚ) (s : σ) :
    (∀ send ∈ (runExitLadder calls exit steps s).sends.dropLast, Unsold send) ∧
    (runExitLadder calls exit steps s).sends.length ≤ 2 * steps.length ∧
    (runExitLadder calls exit steps s).outcome.Accounts
    (runExitLadder calls exit steps s).sends := by
  have haccounts := climb_accounts calls exit steps 0 s!"{exit} swap failed" none s
  constructor
  · exact haccounts.unsold_but_last
  · constructor
    · exact climb_sends_le calls exit steps 0 s!"{exit} swap failed" none s
    · exact haccounts

end ScreenerBot.Positions
