import ScreenerBot.Library.Transcript
import ScreenerBot.Library.Text
import ScreenerBot.Swaps.Routers

/-! The execution chain of an accepted quote: its own router, a re-quote without the venue that cost
too much, then the other enabled routers. -/
namespace ScreenerBot.Swaps

open Library

inductive SwapCall : Type → Type where
  | inPaperScope : SwapCall Bool
  /-- Which routers the configuration enables just now. -/
  | isEnabled : SwapCall (Router → Bool)
  | checkNativeFunds (quote : Quote) : SwapCall (Except Error Unit)
  | retryExcludingVenue : SwapCall Bool
  | venueLabelForProgram (address : String) : SwapCall (Option String)
  | getQuote (router : Router) (request : QuoteRequest) : SwapCall (Except QuoteError Quote)
  | executeSwap (router : Router) (quote : Quote) : SwapCall (Except Error SwapResult)

abbrev Outcome := Except Error (Quote × SwapResult)

/-- The quote that executed, with its result, where the result lies in the caller's range. -/
def finish (quote : Quote) (result : SwapResult) (limit : SwapAmountLimit) : Outcome :=
  (limit.checkResult result).map fun result => (quote, result)

/-- The request that re-prices a quote on another router or without a venue. -/
def requoteRequest (quote : Quote) (excludeDexes : Option (List String)) : QuoteRequest where
  chain := quote.chain
  inputMint := quote.inputMint
  outputMint := quote.outputMint
  inputAmount := quote.inputAmount
  walletAddress := quote.walletAddress
  slippagePct := quote.slippageBps / 100
  swapMode := quote.swapMode
  excludeDexes := excludeDexes

/-- Whether a fresh quote still pays at least the floor the caller accepted. -/
def holdsAcceptedFloor (accepted fresh : Quote) : Bool :=
  accepted.minimumOutputAmount ≤ fresh.outputAmount

/-- A router's answer to a request, checked against it. -/
def validAnswer (router : Router) (request : QuoteRequest) (answer : Except QuoteError Quote) :
    Except QuoteError Quote := answer >>= validateQuote router request

/-- Re-quote and re-execute with the venue that refused the trade excluded. `none` leaves the
fallback chain to run. -/
def retryExcludingVenue (quote : Quote) (error : Error) (router : Router)
    (limit : SwapAmountLimit) : Program SwapCall (Option Outcome) :=
  match error with
  | .swaps (.notSubmitted _ (.costExceeded _ _ venueAddress)) => do
    if !(← Program.perform .retryExcludingVenue) then return none
    match ← Program.perform (.venueLabelForProgram venueAddress) with
    | none => return none
    | some label =>
      let excludeDexes := quote.excludeDexes.getD []
      if excludeDexes.any fun excluded => eqIgnoreAsciiCase (trim excluded) label then return none
      let request := requoteRequest quote (some (excludeDexes ++ [label]))
      match validAnswer router request (← Program.perform (.getQuote router request)) with
      | .error _ => return none
      | .ok retryQuote =>
        if !holdsAcceptedFloor quote retryQuote then return none
        match limit.checkQuote retryQuote with
        | .error _ => return none
        | .ok () =>
          match ← Program.perform (.executeSwap router retryQuote) with
          | .ok result => return some (finish retryQuote result limit)
          | .error e => if failedSwap e = .resendable then return none else return some (.error e)
  | _ => return none

/-- The fallback routers in turn. Their quotes are not held to the accepted floor. -/
def tryFallbacks (quote : Quote) (limit : SwapAmountLimit) (primaryError : Error) :
    List Router → Program SwapCall Outcome
  | [] => return .error primaryError
  | router :: rest => do
    let request := requoteRequest quote quote.excludeDexes
    match validAnswer router request (← Program.perform (.getQuote router request)) with
    | .error _ => tryFallbacks quote limit primaryError rest
    | .ok fallbackQuote =>
      match limit.checkQuote fallbackQuote with
      | .error _ => tryFallbacks quote limit primaryError rest
      | .ok () =>
        match ← Program.perform (.executeSwap router fallbackQuote) with
        | .ok result => return finish fallbackQuote result limit
        | .error e =>
          match failedSwap e with
          | .reconcile _ => return .error e
          | .unresolved => return .error e
          | .resendable => tryFallbacks quote limit primaryError rest

/-- What follows the failure of the quote's own router. -/
def afterPrimary (registry : RouterRegistry) (quote : Quote) (limit : SwapAmountLimit)
    (primary : Router) (primaryError : Error) : Program SwapCall Outcome := do
  let primaryFailure := failedSwap primaryError
  match primaryFailure with
  | .reconcile _ => return .error primaryError
  | _ =>
    match ← retryExcludingVenue quote primaryError primary limit with
    | some outcome => return outcome
    | none =>
      if primaryFailure = .unresolved then return .error primaryError
      let enabled ← Program.perform .isEnabled
      tryFallbacks quote limit primaryError
        (registry.fallbackChainFor enabled quote.chain quote.routerId)

def executeWithFallbackOn (registry : RouterRegistry) (quote : Quote) (limit : SwapAmountLimit) :
    Program SwapCall Outcome := do
  let refused (reason : NotSubmittedReason) : Outcome :=
    .error (.swaps (.notSubmitted quote.routerName reason))
  if ← Program.perform .inPaperScope then return refused .paperScope
  match registry.getRouter quote.routerId with
  | none =>
    return refused (.routerUnavailable s!"router {quote.routerId} is not registered")
  | some primary =>
    let enabled ← Program.perform .isEnabled
    if !enabled primary then
      return refused (.routerUnavailable
        s!"router {quote.routerName} was disabled before its quote could be executed")
    match limit.checkQuote quote with
    | .error error => return refused (.quoteUnusable error.display)
    | .ok () =>
      match ← Program.perform (.checkNativeFunds quote) with
      | .error error => return .error error
      | .ok () =>
        match ← Program.perform (.executeSwap primary quote) with
        | .ok result => return finish quote result limit
        | .error primaryError => afterPrimary registry quote limit primary primaryError

/-- An execution the chain started: what was handed to which router, and how it ended. -/
structure Execution where
  router : Router
  quote : Quote
  answer : Except Error SwapResult

def execution : Exchange SwapCall → Option Execution
  | ⟨.executeSwap router quote, answer⟩ => some ⟨router, quote, answer⟩
  | _ => none

/-- The executions of a run, in their order. -/
def executions (t : List (Exchange SwapCall)) : List Execution := t.filterMap execution

theorem executions_append {t t' : List (Exchange SwapCall)} :
    executions (t ++ t') = executions t ++ executions t' := List.filterMap_append

@[simp] theorem executions_nil : executions [] = [] := rfl

@[simp] theorem executions_send {router : Router} {quote : Quote} {answer : Except Error SwapResult}
    {t : List (Exchange SwapCall)} :
    executions (⟨.executeSwap router quote, answer⟩ :: t) =
      ⟨router, quote, answer⟩ :: executions t := rfl

@[simp] theorem executions_quoted {router : Router} {request : QuoteRequest}
    {answer : Except QuoteError Quote} {t : List (Exchange SwapCall)} :
    executions (⟨.getQuote router request, answer⟩ :: t) = executions t := rfl

/-- What the usable quote of a fallback router is: one of another router than the accepted quote's,
which passes the checks of the chain. -/
def fallbackQuote (accepted : Quote) (limit : SwapAmountLimit) : Exchange SwapCall → Option Quote
  | ⟨.getQuote router request, answer⟩ =>
    if router.id = accepted.routerId then none
    else match validAnswer router request answer with
      | .error _ => none
      | .ok fresh =>
        match limit.checkQuote fresh with
        | .error _ => none
        | .ok () => some fresh
  | _ => none

/-- The usable quotes the fallback routers answered a run with. -/
def fallbackQuotes (accepted : Quote) (limit : SwapAmountLimit) (t : List (Exchange SwapCall)) :
    List Quote := t.filterMap (fallbackQuote accepted limit)

@[simp] theorem fallbackQuotes_nil {accepted : Quote} {limit : SwapAmountLimit} :
    fallbackQuotes accepted limit [] = [] := rfl

@[simp] theorem fallbackQuotes_send {accepted quote : Quote} {limit : SwapAmountLimit}
    {router : Router} {answer : Except Error SwapResult} {t : List (Exchange SwapCall)} :
    fallbackQuotes accepted limit (⟨.executeSwap router quote, answer⟩ :: t) =
      fallbackQuotes accepted limit t := rfl

namespace Execution

/-- It proved that nothing was sent and nothing can still land. -/
def Resendable (x : Execution) : Prop := ∃ e, x.answer = .error e ∧ failedSwap e = .resendable

/-- What ends the chain after an execution that is no licence for another. -/
def verdict (limit : SwapAmountLimit) (x : Execution) : Option Outcome :=
  match x.answer with
  | .ok result => some (finish x.quote result limit)
  | .error e => if failedSwap e = .resendable then none else some (.error e)

variable {limit : SwapAmountLimit} {x : Execution}

theorem verdict_eq_none_iff : x.verdict limit = none ↔ x.Resendable := by
  unfold verdict Resendable
  cases x.answer with
  | ok result => simp
  | error e => simp

theorem verdict_of_error {e : Error} (he : x.answer = .error e) (h : failedSwap e ≠ .resendable) :
    x.verdict limit = some (.error e) := by
  simp [verdict, he, h]

end Execution

/-- Executions one after the other, each after the ones before it proved harmless, and what the last
of them ends the chain with. -/
structure Serial (limit : SwapAmountLimit) (xs : List Execution) (ended : Option Outcome) :
    Prop where
  harmless : xs.Pairwise fun x _ => x.Resendable
  ended : ended = xs.findSome? (Execution.verdict limit)

namespace Serial

variable {limit : SwapAmountLimit} {xs ys : List Execution} {ended : Option Outcome}

theorem nil : Serial limit [] none := ⟨.nil, rfl⟩

theorem single (x : Execution) : Serial limit [x] (x.verdict limit) :=
  ⟨List.pairwise_singleton _ _, by cases h : x.verdict limit <;> simp [h]⟩

/-- Where nothing has ended the chain, every execution proved harmless. -/
theorem resendable (h : Serial limit xs none) : ∀ x ∈ xs, x.Resendable := by
  intro x hx
  rw [← @Execution.verdict_eq_none_iff limit]
  exact List.findSome?_eq_none_iff.mp h.ended.symm x hx

theorem append (h : Serial limit xs none) (h' : Serial limit ys ended) :
    Serial limit (xs ++ ys) ended := by
  refine ⟨List.pairwise_append.mpr ⟨h.harmless, h'.harmless, fun x hx _ _ => h.resendable x hx⟩, ?_⟩
  rw [List.findSome?_append, ← h.ended, Option.none_or, h'.ended]

/-- An execution that proved nothing is the last one, and what it ended with is what is returned. -/
theorem ended_of_risky {x : Execution} {e : Error} (h : Serial limit xs ended) (hx : x ∈ xs)
    (he : x.answer = .error e) (hrisky : failedSwap e ≠ .resendable) : ended = some (.error e) := by
  obtain ⟨before, after, rfl⟩ := List.append_of_mem hx
  have hbefore : ∀ y ∈ before, y.verdict limit = none := by
    intro y hy
    rw [Execution.verdict_eq_none_iff]
    exact (List.pairwise_append.mp h.harmless).2.2 y hy x List.mem_cons_self
  rw [h.ended, List.findSome?_append, List.findSome?_eq_none_iff.mpr hbefore, Option.none_or,
    List.findSome?_cons, Execution.verdict_of_error he hrisky]

end Serial

/-- A quote for the trade that was accepted, in the caller's range. -/
structure Quote.SameTrade (accepted : Quote) (limit : SwapAmountLimit) (fresh : Quote) : Prop where
  inputMint : fresh.inputMint = accepted.inputMint
  outputMint : fresh.outputMint = accepted.outputMint
  inputAmount : fresh.inputAmount = accepted.inputAmount
  walletAddress : fresh.walletAddress = accepted.walletAddress
  swapMode : fresh.swapMode = accepted.swapMode
  inRange : limit.checkQuote fresh = .ok ()

theorem sameTrade_of_valid {accepted fresh : Quote} {limit : SwapAmountLimit} {router : Router}
    {excludeDexes : Option (List String)} {answer : Except QuoteError Quote}
    (hvalid : validAnswer router (requoteRequest accepted excludeDexes) answer = .ok fresh)
    (hrange : limit.checkQuote fresh = .ok ()) : accepted.SameTrade limit fresh := by
  obtain ⟨quote, -, hquote⟩ := bind_eq_ok.mp hvalid
  obtain ⟨rfl, -, hprices⟩ := validateQuote_eq_ok hquote
  exact ⟨hprices.inputMint, hprices.outputMint, hprices.inputAmount, hprices.walletAddress,
    hprices.swapMode, hrange⟩

section Runs

variable {registry : RouterRegistry} {quote : Quote} {limit : SwapAmountLimit} {router : Router}
  {t : List (Exchange SwapCall)}

/-- The quote's own router is no fallback router. -/
theorem fallbackQuotes_own (hrouter : router.id = quote.routerId) {request : QuoteRequest}
    {answer : Except QuoteError Quote} :
    fallbackQuotes quote limit (⟨.getQuote router request, answer⟩ :: t) =
      fallbackQuotes quote limit t := by
  apply List.filterMap_cons_none
  simp [fallbackQuote, hrouter]

/-- The venue retry sends at most once, through the same router, for the accepted trade at its
floor, and asks no other router. -/
theorem retryExcludingVenue_run {error : Error} {ended : Option Outcome}
    (hrouter : router.id = quote.routerId)
    (h : (retryExcludingVenue quote error router limit).Answered t ended) :
    fallbackQuotes quote limit t = [] ∧
      (executions t = [] ∧ ended = none ∨
        ∃ fresh answer, executions t = [⟨router, fresh, answer⟩] ∧
          ended = Execution.verdict limit ⟨router, fresh, answer⟩ ∧
          quote.SameTrade limit fresh ∧ quote.minimumOutputAmount ≤ fresh.outputAmount) := by
  unfold retryExcludingVenue at h
  split at h
  case h_2 =>
    obtain ⟨rfl, rfl⟩ := Program.answered_pure.mp h
    exact ⟨rfl, .inl ⟨rfl, rfl⟩⟩
  rw [Program.answered_perform_bind] at h
  obtain ⟨wanted, t, rfl, h⟩ := h
  split at h
  · obtain ⟨rfl, rfl⟩ := Program.answered_pure.mp h
    exact ⟨rfl, .inl ⟨rfl, rfl⟩⟩
  rw [Program.answered_perform_bind] at h
  obtain ⟨label, t, rfl, h⟩ := h
  split at h
  · obtain ⟨rfl, rfl⟩ := Program.answered_pure.mp h
    exact ⟨rfl, .inl ⟨rfl, rfl⟩⟩
  simp only at h
  split at h
  · obtain ⟨rfl, rfl⟩ := Program.answered_pure.mp h
    exact ⟨rfl, .inl ⟨rfl, rfl⟩⟩
  rw [Program.answered_perform_bind] at h
  obtain ⟨answer, t, rfl, h⟩ := h
  split at h
  · obtain ⟨rfl, rfl⟩ := Program.answered_pure.mp h
    exact ⟨fallbackQuotes_own hrouter, .inl ⟨rfl, rfl⟩⟩
  next fresh hvalid =>
  split at h
  · obtain ⟨rfl, rfl⟩ := Program.answered_pure.mp h
    exact ⟨fallbackQuotes_own hrouter, .inl ⟨rfl, rfl⟩⟩
  next hfloor =>
  split at h
  · obtain ⟨rfl, rfl⟩ := Program.answered_pure.mp h
    exact ⟨fallbackQuotes_own hrouter, .inl ⟨rfl, rfl⟩⟩
  next hrange =>
  rw [Program.answered_perform_bind] at h
  obtain ⟨result, t, rfl, h⟩ := h
  have hkeeps : quote.minimumOutputAmount ≤ fresh.outputAmount := by
    simpa [holdsAcceptedFloor] using hfloor
  have hended : t = [] ∧ ended = Execution.verdict limit ⟨router, fresh, result⟩ := by
    cases result with
    | ok result => exact Program.answered_pure.mp h
    | error e =>
      simp only at h
      split at h
      next hsafe =>
        obtain ⟨rfl, rfl⟩ := Program.answered_pure.mp h
        simp [Execution.verdict, hsafe]
      next hsafe =>
        obtain ⟨rfl, rfl⟩ := Program.answered_pure.mp h
        simp [Execution.verdict, hsafe]
  obtain ⟨rfl, rfl⟩ := hended
  exact ⟨fallbackQuotes_own hrouter,
    .inr ⟨fresh, result, rfl, rfl, sameTrade_of_valid hvalid hrange, hkeeps⟩⟩

/-- A run of the loop over `routers`: serial sends, each router at most once, for the accepted
trade, and every usable quote answered executed. -/
structure FallsBack (quote : Quote) (limit : SwapAmountLimit) (primaryError : Error)
    (routers : List Router) (t : List (Exchange SwapCall)) (outcome : Outcome) : Prop where
  serial : ∃ ended, Serial limit (executions t) ended ∧ outcome = ended.getD (.error primaryError)
  routers : ((executions t).map Execution.router).Sublist routers
  quotes : (executions t).map Execution.quote = fallbackQuotes quote limit t
  trades : ∀ x ∈ executions t, quote.SameTrade limit x.quote

theorem tryFallbacks_run {primaryError : Error} {outcome : Outcome} (routers : List Router) :
    ∀ t, (∀ r ∈ routers, r.id ≠ quote.routerId) →
      (tryFallbacks quote limit primaryError routers).Answered t outcome →
      FallsBack quote limit primaryError routers t outcome := by
  induction routers with
  | nil =>
    intro t _ h
    obtain ⟨rfl, rfl⟩ := Program.answered_pure.mp h
    exact ⟨⟨none, .nil, rfl⟩, .slnil, rfl, by simp⟩
  | cons router rest ih =>
    intro t hother h
    have hrest := fun r hr => hother r (List.mem_cons_of_mem _ hr)
    have hrouter : router.id ≠ quote.routerId := hother router List.mem_cons_self
    unfold tryFallbacks at h
    rw [Program.answered_perform_bind] at h
    obtain ⟨answer, t, rfl, h⟩ := h
    -- an answer that is no usable quote leaves the trade to the routers behind
    have hskip (hnone : fallbackQuote quote limit
          ⟨.getQuote router (requoteRequest quote quote.excludeDexes), answer⟩ = none)
        (h : (tryFallbacks quote limit primaryError rest).Answered t outcome) :
        FallsBack quote limit primaryError (router :: rest)
          (⟨.getQuote router (requoteRequest quote quote.excludeDexes), answer⟩ :: t) outcome := by
      obtain ⟨hserial, hrouters, hquotes, htrades⟩ := ih t hrest h
      have hsame : fallbackQuotes quote limit
          (⟨.getQuote router (requoteRequest quote quote.excludeDexes), answer⟩ :: t) =
            fallbackQuotes quote limit t := List.filterMap_cons_none hnone
      exact ⟨hserial, hrouters.cons router, hquotes.trans hsame.symm, htrades⟩
    split at h
    next hvalid => exact hskip (by simp [fallbackQuote, hrouter, hvalid]) h
    next fresh hvalid =>
    split at h
    next hrange => exact hskip (by simp [fallbackQuote, hrouter, hvalid, hrange]) h
    next hrange =>
    rw [Program.answered_perform_bind] at h
    obtain ⟨result, t, rfl, h⟩ := h
    have htrade : quote.SameTrade limit fresh := sameTrade_of_valid hvalid hrange
    have hfresh : fallbackQuotes quote limit
        (⟨.getQuote router (requoteRequest quote quote.excludeDexes), answer⟩ ::
          ⟨.executeSwap router fresh, result⟩ :: t) = fresh :: fallbackQuotes quote limit t := by
      have hsome : fallbackQuote quote limit
          ⟨.getQuote router (requoteRequest quote quote.excludeDexes), answer⟩ = some fresh := by
        simp [fallbackQuote, hrouter, hvalid, hrange]
      exact List.filterMap_cons_some hsome
    cases hverdict : Execution.verdict limit ⟨router, fresh, result⟩ with
    | some last =>
      have hlast : t = [] ∧ outcome = last := by
        cases result with
        | ok result =>
          obtain ⟨rfl, rfl⟩ := Program.answered_pure.mp h
          simpa [Execution.verdict] using hverdict
        | error e =>
          simp only [Execution.verdict] at hverdict
          split at hverdict
          next => cases hverdict
          next hrisky =>
          simp only at h
          split at h
          next =>
            obtain ⟨rfl, rfl⟩ := Program.answered_pure.mp h
            simpa using hverdict
          next =>
            obtain ⟨rfl, rfl⟩ := Program.answered_pure.mp h
            simpa using hverdict
          next hsafe => exact absurd hsafe hrisky
      obtain ⟨rfl, rfl⟩ := hlast
      refine ⟨⟨some outcome, hverdict ▸ .single _, rfl⟩, ?_, ?_, ?_⟩
      · simp
      · rw [hfresh]
        simp
      · simpa using htrade
    | none =>
      obtain ⟨e, rfl, hsafe⟩ := Execution.verdict_eq_none_iff.mp hverdict
      simp only [hsafe] at h
      obtain ⟨⟨ended, hserial, houtcome⟩, hrouters, hquotes, htrades⟩ := ih t hrest h
      refine ⟨⟨ended, (hverdict ▸ Serial.single _).append hserial, houtcome⟩,
        hrouters.cons_cons router, ?_, ?_⟩
      · rw [hfresh, ← hquotes]
        rfl
      · exact List.forall_mem_cons.mpr ⟨htrade, htrades⟩

/-- A failure that is no licence to send again names no venue to retry without. -/
theorem retryExcludingVenue_of_risky {error : Error} (h : failedSwap error ≠ .resendable) :
    retryExcludingVenue quote error router limit = pure none := by
  unfold retryExcludingVenue
  split
  next => exact absurd rfl h
  next => rfl

/-- A run after the failure of the quote's own router: nothing is sent unless that failure proved
harmless, and then the retry and the loop send serially. -/
structure Continues (registry : RouterRegistry) (quote : Quote) (limit : SwapAmountLimit)
    (primary : Router) (primaryError : Error) (t : List (Exchange SwapCall)) (outcome : Outcome) :
    Prop where
  stopped : failedSwap primaryError ≠ .resendable → executions t = [] ∧
    outcome = .error primaryError
  serial : ∃ ended, Serial limit (executions t) ended ∧ outcome = ended.getD (.error primaryError)
  routers : ((executions t).map Execution.router).Sublist [primary] ∨
    ∃ enabled, ⟨.isEnabled, enabled⟩ ∈ t ∧ ((executions t).map Execution.router).Sublist
      (primary :: registry.fallbackChainFor enabled quote.chain quote.routerId)
  trades : ∀ x ∈ executions t, quote.SameTrade limit x.quote
  floor : (∀ x ∈ executions t, quote.minimumOutputAmount ≤ x.quote.outputAmount) ↔
    ∀ fresh ∈ fallbackQuotes quote limit t, quote.minimumOutputAmount ≤ fresh.outputAmount

theorem fallbackChainFor_id {enabled : Router → Bool} {chain : ChainId} {id : String} :
    ∀ r ∈ registry.fallbackChainFor enabled chain id, r.id ≠ id ∧ enabled r = true := by
  intro r hr
  rw [RouterRegistry.fallbackChainFor, mem_sortBy, List.mem_filter] at hr
  simp only [Bool.and_eq_true, bne_iff_ne] at hr
  exact ⟨hr.2.2, hr.2.1.1⟩

theorem fallbackQuotes_append {t' : List (Exchange SwapCall)} :
    fallbackQuotes quote limit (t ++ t') = fallbackQuotes quote limit t ++
      fallbackQuotes quote limit t' := List.filterMap_append

/-- The loop of a run after a retry that left the trade to it. -/
theorem continues_of_fallBack {primary : Router} {primaryError : Error} {outcome : Outcome}
    {t₁ t₂ : List (Exchange SwapCall)} {enabled : Router → Bool}
    (hsafe : failedSwap primaryError = .resendable) (hserial : Serial limit (executions t₁) none)
    (hrouters : ((executions t₁).map Execution.router).Sublist [primary])
    (htrades : ∀ x ∈ executions t₁,
      quote.SameTrade limit x.quote ∧ quote.minimumOutputAmount ≤ x.quote.outputAmount)
    (hquotes : fallbackQuotes quote limit t₁ = [])
    (h : FallsBack quote limit primaryError
      (registry.fallbackChainFor enabled quote.chain quote.routerId) t₂ outcome) :
    Continues registry quote limit primary primaryError (t₁ ++ ⟨.isEnabled, enabled⟩ :: t₂)
      outcome := by
  have hread : executions (t₁ ++ ⟨.isEnabled, enabled⟩ :: t₂) = executions t₁ ++ executions t₂ :=
    executions_append
  have hanswered : fallbackQuotes quote limit (t₁ ++ ⟨.isEnabled, enabled⟩ :: t₂) =
      fallbackQuotes quote limit t₂ := by
    rw [fallbackQuotes_append, hquotes]
    rfl
  obtain ⟨⟨ended, hloop, houtcome⟩, hchain, hexecuted, htrade⟩ := h
  refine ⟨fun hrisky => absurd hsafe hrisky, ⟨ended, ?_, houtcome⟩, .inr ⟨enabled, ?_, ?_⟩, ?_, ?_⟩
  · rw [hread]
    exact hserial.append hloop
  · simp
  · rw [hread, List.map_append]
    exact hrouters.append hchain
  · rw [hread, List.forall_mem_append]
    exact ⟨fun x hx => (htrades x hx).1, htrade⟩
  · rw [hread, List.forall_mem_append, hanswered, ← hexecuted]
    simp only [List.forall_mem_map]
    exact ⟨And.right, fun hfloor => ⟨fun x hx => (htrades x hx).2, hfloor⟩⟩

theorem afterPrimary_run {primary : Router} {primaryError : Error} {outcome : Outcome}
    (hprimary : primary.id = quote.routerId)
    (h : (afterPrimary registry quote limit primary primaryError).Answered t outcome) :
    Continues registry quote limit primary primaryError t outcome := by
  by_cases hsafe : failedSwap primaryError = .resendable
  · unfold afterPrimary at h
    simp only [hsafe] at h
    rw [Program.answered_bind] at h
    obtain ⟨t₁, ended, t₂, rfl, hretry, h⟩ := h
    obtain ⟨hquotes, hretried⟩ := retryExcludingVenue_run hprimary hretry
    cases ended with
    | none =>
      rw [if_neg (by simp)] at h
      obtain ⟨enabled, t₂, rfl, hloop⟩ := Program.answered_perform_bind.mp h
      have hfallsBack := tryFallbacks_run _ t₂ (fun r hr => (fallbackChainFor_id r hr).1) hloop
      obtain ⟨hnone, -⟩ | ⟨fresh, answer, hsent, hended, htrade, hfloor⟩ := hretried
      · apply continues_of_fallBack hsafe _ _ _ hquotes hfallsBack
        · exact hnone ▸ .nil
        · simp [hnone]
        · simp [hnone]
      · apply continues_of_fallBack hsafe _ _ _ hquotes hfallsBack
        · rw [hsent, hended]
          exact .single _
        · simp [hsent]
        · simpa [hsent] using ⟨htrade, hfloor⟩
    | some ended =>
      obtain ⟨rfl, rfl⟩ := Program.answered_pure.mp h
      obtain ⟨-, hnone⟩ | ⟨fresh, answer, hsent, hended, htrade, hfloor⟩ := hretried
      · cases hnone
      rw [List.append_nil]
      refine ⟨fun hrisky => absurd hsafe hrisky, ⟨some outcome, ?_, rfl⟩, .inl ?_, ?_, ?_⟩
      · rw [hsent, hended]
        exact .single _
      · simp [hsent]
      · simpa [hsent] using htrade
      · simpa [hsent, hquotes] using hfloor
  · have hidle : (pure (.error primaryError) : Program SwapCall Outcome).Answered t outcome := by
      unfold afterPrimary at h
      simp only [retryExcludingVenue_of_risky hsafe] at h
      cases hfailed : failedSwap primaryError with
      | reconcile signature => simpa [hfailed] using h
      | resendable => exact absurd hfailed hsafe
      | unresolved =>
        rw [hfailed] at h
        exact h
    obtain ⟨rfl, rfl⟩ := Program.answered_pure.mp hidle
    exact ⟨fun _ => ⟨rfl, rfl⟩, ⟨none, .nil, rfl⟩, .inl (by simp), by simp, by simp⟩

/-- A run of the whole chain: nothing sent, or the accepted quote through its own router, and
whatever follows its failure. -/
theorem executeWithFallbackOn_run {outcome : Outcome}
    (h : (executeWithFallbackOn registry quote limit).Answered t outcome) :
    executions t = [] ∧ fallbackQuotes quote limit t = [] ∨
      ∃ primary enabled answer t' rest, registry.getRouter quote.routerId = some primary ∧
        enabled primary = true ∧ ⟨.isEnabled, enabled⟩ ∈ t ∧
        t = t' ++ rest ∧ executions t' = [⟨primary, quote, answer⟩] ∧
        fallbackQuotes quote limit t' = [] ∧
        match (answer : Except Error SwapResult) with
        | .ok result => rest = [] ∧ outcome = finish quote result limit
        | .error error => Continues registry quote limit primary error rest outcome := by
  unfold executeWithFallbackOn at h
  rw [Program.answered_perform_bind] at h
  obtain ⟨paper, t, rfl, h⟩ := h
  split at h
  · obtain ⟨rfl, rfl⟩ := Program.answered_pure.mp h
    exact .inl ⟨rfl, rfl⟩
  split at h
  · obtain ⟨rfl, rfl⟩ := Program.answered_pure.mp h
    exact .inl ⟨rfl, rfl⟩
  next primary hprimary =>
  rw [Program.answered_perform_bind] at h
  obtain ⟨enabled, t, rfl, h⟩ := h
  split at h
  · obtain ⟨rfl, rfl⟩ := Program.answered_pure.mp h
    exact .inl ⟨rfl, rfl⟩
  next henabled =>
  split at h
  · obtain ⟨rfl, rfl⟩ := Program.answered_pure.mp h
    exact .inl ⟨rfl, rfl⟩
  rw [Program.answered_perform_bind] at h
  obtain ⟨funds, t, rfl, h⟩ := h
  split at h
  · obtain ⟨rfl, rfl⟩ := Program.answered_pure.mp h
    exact .inl ⟨rfl, rfl⟩
  rw [Program.answered_perform_bind] at h
  obtain ⟨answer, t, rfl, h⟩ := h
  have hid : primary.id = quote.routerId := by
    simpa using List.find?_some hprimary
  refine .inr ⟨primary, enabled, answer, [_, _, _, _], t, hprimary, by simpa using henabled,
    by simp, rfl, rfl, rfl, ?_⟩
  cases answer with
  | ok result => exact Program.answered_pure.mp h
  | error error => exact afterPrimary_run hid h

theorem executeWithFallbackOn_serial {outcome : Outcome}
    (h : (executeWithFallbackOn registry quote limit).Answered t outcome) :
    ∃ ended, Serial limit (executions t) ended ∧ ∀ last, ended = some last → outcome = last := by
  obtain ⟨hnone, -⟩ | ⟨primary, enabled, answer, t', rest, -, -, -, rfl, hfirst, -, h⟩ :=
    executeWithFallbackOn_run h
  · exact ⟨none, hnone ▸ .nil, nofun⟩
  rw [executions_append, hfirst]
  have hsingle := @Serial.single limit ⟨primary, quote, answer⟩
  cases answer with
  | ok result =>
    obtain ⟨rfl, rfl⟩ := h
    exact ⟨_, hsingle, fun last hlast => Option.some.inj hlast⟩
  | error error =>
    by_cases hsafe : failedSwap error = .resendable
    · rw [Execution.verdict_eq_none_iff.mpr ⟨error, rfl, hsafe⟩] at hsingle
      obtain ⟨ended, hserial, houtcome⟩ := h.serial
      refine ⟨ended, hsingle.append hserial, fun last hlast => ?_⟩
      rw [houtcome, hlast, Option.getD_some]
    · obtain ⟨hstopped, houtcome⟩ := h.stopped hsafe
      rw [Execution.verdict_of_error rfl hsafe] at hsingle
      rw [hstopped, List.append_nil]
      exact ⟨_, hsingle, fun last hlast => houtcome.trans (Option.some.inj hlast)⟩

theorem executeWithFallbackOn_routers {outcome : Outcome}
    (h : (executeWithFallbackOn registry quote limit).Answered t outcome) :
    (∃ enabled, ((executions t).map Execution.router).Sublist
      ((registry.getRouter quote.routerId).toList ++ (registry.getRouter quote.routerId).toList ++
        registry.fallbackChainFor enabled quote.chain quote.routerId)) ∧
    ∀ x ∈ executions t, ∃ enabled, ⟨.isEnabled, enabled⟩ ∈ t ∧ enabled x.router = true := by
  obtain ⟨hnone, -⟩ | ⟨primary, enabled, answer, t', rest, hprimary, henabled, hread, rfl, hfirst,
    -, h⟩ := executeWithFallbackOn_run h
  · simp [hnone]
  rw [executions_append, hfirst, hprimary]
  have hroutes : ((executions rest).map Execution.router).Sublist [primary] ∨
      ∃ enabled, ⟨.isEnabled, enabled⟩ ∈ rest ∧ ((executions rest).map Execution.router).Sublist
        (primary :: registry.fallbackChainFor enabled quote.chain quote.routerId) := by
    cases answer with
    | ok result =>
      obtain ⟨rfl, -⟩ := h
      simp
    | error error => exact h.routers
  obtain hretried | ⟨later, hlater, hchain⟩ := hroutes
  · refine ⟨⟨enabled, ?_⟩, ?_⟩
    · simpa using hretried.append (List.nil_sublist _)
    · simp only [List.singleton_append, List.forall_mem_cons]
      refine ⟨⟨enabled, hread, henabled⟩, fun x hx => ⟨enabled, hread, ?_⟩⟩
      have hmem := hretried.subset (List.mem_map_of_mem hx)
      rw [List.mem_singleton] at hmem
      rw [hmem]
      exact henabled
  · refine ⟨⟨later, by simpa using hchain⟩, ?_⟩
    simp only [List.singleton_append, List.forall_mem_cons]
    refine ⟨⟨enabled, hread, henabled⟩, fun x hx => ?_⟩
    rcases List.mem_cons.mp (hchain.subset (List.mem_map_of_mem hx)) with hmem | hmem
    · exact ⟨enabled, hread, by rw [hmem]; exact henabled⟩
    · exact ⟨later, List.mem_append_right _ hlater, (fallbackChainFor_id _ hmem).2⟩

end Runs

/-- The fates an execution leaves open to its transaction, where its error tells the truth. -/
def Execution.LeavesOpen (x : Execution) (fate : Fate) : Prop :=
  ∀ e, x.answer = .error e → e.leavesOpen fate = true

/-- Executions that each followed harmless ones sell at most once. -/
theorem sold_at_most_once {xs : List Execution} {fates : List Fate}
    (hfates : List.Forall₂ Execution.LeavesOpen xs fates) :
    (xs.Pairwise fun x _ => x.Resendable) → (fates.countP fun fate => !fate.soldNothing) ≤ 1 := by
  induction hfates with
  | nil => simp
  | @cons x fate xs fates hfate hrest ih =>
    intro hserial
    obtain ⟨hfirst, hserial⟩ := List.pairwise_cons.mp hserial
    cases hrest with
    | nil =>
      rw [List.countP_singleton]
      split <;> omega
    | cons hnext hrest =>
      obtain ⟨e, he, hsafe⟩ := hfirst _ List.mem_cons_self
      have hnothing : fate.soldNothing = true := provesUnsold_of_resendable hsafe fate (hfate e he)
      rw [List.countP_cons_of_neg (by simp [hnothing])]
      exact ih hserial

/-- A native buy of 500 raw units, priced by `router`. -/
def sampleQuote (router : Router) (expected minimum : ℕ) : Quote where
  chain := .solana
  routerId := router.id
  routerName := router.name
  inputMint := solMint
  outputMint := "mint"
  inputAmount := 500
  outputAmount := expected
  minimumOutputAmount := minimum
  priceImpactPct := ⟨some 0, "0"⟩
  estimatedNetworkFeeLamports := none
  slippageBps := 1000
  swapMode := .exactIn
  walletAddress := "wallet"
  excludeDexes := none

def jupiter : Router := ⟨"jupiter", "Jupiter", 0, .solana⟩

def raydium : Router := ⟨"raydium", "Raydium", 2, .solana⟩

def acceptedQuote : Quote := sampleQuote jupiter 1000 900

def failedSimulation : Error := .swaps (.notSubmitted "Jupiter" (.simulationFailed "stale route"))

/-- The accepted quote fails its simulation, and the other router executes a fresh one. -/
def fellBack (fresh : Quote) : List (Exchange SwapCall) :=
  [⟨.inPaperScope, false⟩, ⟨.isEnabled, fun _ => true⟩, ⟨.checkNativeFunds acceptedQuote, .ok ()⟩,
    ⟨.executeSwap jupiter acceptedQuote, .error failedSimulation⟩, ⟨.isEnabled, fun _ => true⟩,
    ⟨.getQuote raydium (requoteRequest acceptedQuote none), .ok fresh⟩,
    ⟨.executeSwap raydium fresh, .ok ⟨"signature", 500, fresh.outputAmount⟩⟩]

theorem fellBack_answered {fresh : Quote}
    (hvalid : validAnswer raydium (requoteRequest acceptedQuote none) (.ok fresh) = .ok fresh) :
    (executeWithFallbackOn ⟨[jupiter, raydium]⟩ acceptedQuote .unrestricted).Answered
      (fellBack fresh) (.ok (fresh, ⟨"signature", 500, fresh.outputAmount⟩)) := by
  have hprimary : (RouterRegistry.mk [jupiter, raydium]).getRouter acceptedQuote.routerId =
      some jupiter := by decide +kernel
  have hchain : (RouterRegistry.mk [jupiter, raydium]).fallbackChainFor (fun _ => true)
      acceptedQuote.chain acceptedQuote.routerId = [raydium] := by decide +kernel
  have hretry : retryExcludingVenue acceptedQuote failedSimulation jupiter .unrestricted =
      pure none := rfl
  unfold executeWithFallbackOn
  refine Program.answered_perform_bind.mpr ⟨_, _, rfl, ?_⟩
  simp only [hprimary]
  refine Program.answered_perform_bind.mpr ⟨_, _, rfl, ?_⟩
  refine Program.answered_perform_bind.mpr ⟨_, _, rfl, ?_⟩
  refine Program.answered_perform_bind.mpr ⟨_, _, rfl, ?_⟩
  simp only [afterPrimary, hretry]
  refine Program.answered_bind.mpr ⟨[], none, _, rfl, .done _, ?_⟩
  refine Program.answered_perform_bind.mpr ⟨_, _, rfl, ?_⟩
  rw [hchain, tryFallbacks]
  refine Program.answered_perform_bind.mpr ⟨_, _, rfl, ?_⟩
  change Program.Answered (match validAnswer raydium (requoteRequest acceptedQuote none) (.ok fresh)
    with | .error _ => _ | .ok fresh => _) _ _
  rw [hvalid]
  refine Program.answered_perform_bind.mpr ⟨_, _, rfl, ?_⟩
  exact .done _

/-- The chain sends again only after what it sent before proved harmless, returns the first error
that proves nothing, executes through each enabled router at most once besides one venue retry, and
so sells at most once. -/
theorem trade_sent_once {registry : RouterRegistry} {quote : Quote} {limit : SwapAmountLimit}
    {t : List (Exchange SwapCall)} {outcome : Outcome}
    (h : (executeWithFallbackOn registry quote limit).Answered t outcome) :
    ((executions t).Pairwise fun x _ => x.Resendable) ∧
    (∀ x ∈ executions t, ∀ e, x.answer = .error e → failedSwap e ≠ .resendable →
      outcome = .error e) ∧
    (∃ enabled, ((executions t).map Execution.router).Sublist
      ((registry.getRouter quote.routerId).toList ++ (registry.getRouter quote.routerId).toList ++
        registry.fallbackChainFor enabled quote.chain quote.routerId)) ∧
    (∀ x ∈ executions t, ∃ enabled, ⟨.isEnabled, enabled⟩ ∈ t ∧ enabled x.router = true) ∧
    ∀ fates, List.Forall₂ Execution.LeavesOpen (executions t) fates →
      (fates.countP fun fate => !fate.soldNothing) ≤ 1 := by
  obtain ⟨ended, hserial, houtcome⟩ := executeWithFallbackOn_serial h
  obtain ⟨hrouters, henabled⟩ := executeWithFallbackOn_routers h
  refine ⟨hserial.harmless, fun x hx e he hrisky => ?_, hrouters, henabled, fun fates hfates => ?_⟩
  · exact houtcome _ (hserial.ended_of_risky hx he hrisky)
  · exact sold_at_most_once hfates hserial.harmless

/-- A trade that fell back after a failed simulation is sold once. -/
theorem sold_by_fallback :
    ((executions (fellBack (sampleQuote raydium 950 855))).Pairwise fun x _ => x.Resendable) ∧
      ([Fate.notSent, .landed].countP fun fate => !fate.soldNothing) ≤ 1 := by
  have h := trade_sent_once
    (fellBack_answered (show _ = Except.ok (sampleQuote raydium 950 855) by decide +kernel))
  refine ⟨h.1, h.2.2.2.2 _ (.cons ?_ (.cons ?_ .nil))⟩
  · intro e he
    obtain rfl := Except.error.inj he
    rfl
  · intro e he
    cases he

/-- Every quote executed after the accepted one is for the same trade at the accepted floor exactly
where every usable quote of a fallback router expects that floor. -/
theorem floor_held_iff {registry : RouterRegistry} {quote : Quote} {limit : SwapAmountLimit}
    {t : List (Exchange SwapCall)} {outcome : Outcome}
    (h : (executeWithFallbackOn registry quote limit).Answered t outcome) :
    (∀ x ∈ (executions t).tail, quote.SameTrade limit x.quote ∧
      quote.minimumOutputAmount ≤ x.quote.outputAmount) ↔
      ∀ fresh ∈ fallbackQuotes quote limit t, quote.minimumOutputAmount ≤ fresh.outputAmount := by
  obtain ⟨hnone, hquotes⟩ | ⟨primary, enabled, answer, t', rest, -, -, -, rfl, hfirst,
      hquotes, h⟩ :=
    executeWithFallbackOn_run h
  · simp [hnone, hquotes]
  · rw [executions_append, hfirst, fallbackQuotes_append, hquotes]
    cases answer with
    | ok result =>
      obtain ⟨rfl, -⟩ := h
      simp
    | error error =>
      simp only [List.singleton_append, List.tail_cons, List.nil_append, ← h.floor]
      exact ⟨fun hkept x hx => (hkept x hx).2, fun hkept x hx => ⟨h.trades x hx, hkept x hx⟩⟩

/-- A fallback quote five per cent down still pays the floor. -/
theorem floor_held_by_fallback :
    ∃ x ∈ (executions (fellBack (sampleQuote raydium 950 855))).tail,
      acceptedQuote.SameTrade .unrestricted x.quote ∧
        acceptedQuote.minimumOutputAmount ≤ x.quote.outputAmount :=
  ⟨_, .head _, (floor_held_iff
    (fellBack_answered (show _ = Except.ok (sampleQuote raydium 950 855) by decide +kernel))).mpr
      (by decide +kernel) _ (.head _)⟩

/-- A fallback quote that expects less than was guaranteed is executed, at a lower guarantee
still. -/
theorem fallback_below_floor :
    ¬∀ (registry : RouterRegistry) (quote : Quote) (limit : SwapAmountLimit)
      (t : List (Exchange SwapCall)) (outcome : Outcome),
      (executeWithFallbackOn registry quote limit).Answered t outcome →
        ∀ x ∈ (executions t).tail, quote.SameTrade limit x.quote ∧
          quote.minimumOutputAmount ≤ x.quote.outputAmount := by
  intro h
  have hanswered :=
    fellBack_answered (show _ = Except.ok (sampleQuote raydium 850 765) by decide +kernel)
  have hfloor := (h _ _ _ _ _ hanswered _ (.head _)).2
  revert hfloor
  decide +kernel

end ScreenerBot.Swaps
