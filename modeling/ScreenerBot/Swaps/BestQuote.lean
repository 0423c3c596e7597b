import Mathlib.Data.List.MinMax
import Mathlib.Data.String.Basic
import ScreenerBot.Swaps.Routers

/-!
The comparison of every enabled router's quote, with the deadline the first valid quote arms, and
the one failure that several are reduced to.

Moments are those at which the loop takes an answer.
-/
namespace ScreenerBot.Swaps
open Library

namespace QuoteError

/-- The error is one a router gives: the registry is resolved before any router is asked. -/
def FromRouter : QuoteError → Prop
  | .registryUnavailable _ => False
  | .noRoutersEnabled _ => False
  | _ => True

/-- An abstention. -/
def isNotOffered : QuoteError → Bool
  | .notOffered _ _ => true
  | _ => false

def isNotTradable : QuoteError → Bool
  | .notTradable _ _ => true
  | _ => false

def isNoRoute : QuoteError → Bool
  | .noRoute _ _ => true
  | _ => false

def specificity : QuoteError → ℕ
  | .routerRejected _ _ => 0
  | .rateLimited _ _ => 1
  | .timeout _ => 2
  | .unavailable _ _ => 3
  | .noRoute _ _ => 4
  | .notTradable _ _ => 5
  | .noRoutersEnabled _ => 6
  | .registryUnavailable _ => 7
  | .notOffered _ _ => 8

end QuoteError

open QuoteError

/-- What a router gives to a request, before any check. -/
structure RouterAnswer where
  given : Except QuoteError Quote
  fromRouter : ∀ error, given = .error error → error.FromRouter

/-- A quote that passed, with its fee-net output. -/
abbrev Checked := Except QuoteError (Quote × ℕ)

/-- One router's quote, validated and paired with its fee-net output. -/
def quoteFrom (router : Router) (request : QuoteRequest) (answer : RouterAnswer) : Checked :=
  match answer.given with
  | .ok quote => validateQuoteWithNet router request quote
  | .error e => .error e

/-- The answer of the router at `index`, taken at a moment. -/
structure Arrival (count : ℕ) where
  index : Fin count
  moment : ℕ
  answer : RouterAnswer

section Collect
variable (routers : List Router) (request : QuoteRequest) (deadline : ℕ)

/-- An arrival as the comparison reads it. -/
def Arrival.checked (arrival : Arrival routers.length) : Checked :=
  quoteFrom (routers.get arrival.index) request arrival.answer

/-- The loop over the arrivals; the first valid quote arms the cut-off. -/
def collectLoop (cutoff : Option ℕ) (answers : Fin routers.length → Option Checked) :
    List (Arrival routers.length) → Fin routers.length → Option Checked
  | [] => answers
  | arrival :: rest =>
    if cutoff.any (· < arrival.moment) then answers
    else
      let answer := arrival.checked routers request
      collectLoop
        (if cutoff.isNone && answer.isOk then some (arrival.moment + deadline) else cutoff)
        (Function.update answers arrival.index (some answer)) rest

/-- Each router's answer, in router order; one still pending at the cut-off timed out. -/
def collectQuotes (arrivals : List (Arrival routers.length)) : List Checked :=
  let answers := collectLoop routers request deadline none (fun _ => none) arrivals
  List.ofFn fun index =>
    (answers index).getD (.error (.timeout (routers.get index).name))

end Collect

/-- The failures that remain when the abstentions are set aside. -/
def answeredErrors (errors : List QuoteError) : List QuoteError := errors.filter (!·.isNotOffered)

/-- A verdict on the token only where all that answered support it, else the most specific of the
operational failures. -/
def answeredFailure (first : QuoteError) (rest : List QuoteError) : QuoteError :=
  let errors := first :: rest
  if errors.all isNotTradable then first
  else if errors.all fun error => error.isNotTradable || error.isNoRoute then
    (errors.find? isNoRoute).getD first
  else (errors.argmin specificity).getD first

/-- One failure for several. -/
def selectQuoteFailure (errors : List QuoteError) : QuoteError :=
  match answeredErrors errors with
  | [] => (errors.find? isNotOffered).getD
      (.unavailable "all" "no router returned a quote or an error")
  | first :: rest => answeredFailure first rest

/-- What the comparison orders quotes by: the net output, then the lower priority number. -/
def quoteKey (compared : ℕ × Quote × ℕ) : ℕ ×ₗ ℕᵒᵈ :=
  toLex (compared.2.2, OrderDual.toDual compared.1)

def RouterRegistry.enabledRoutersFor (registry : RouterRegistry) (isEnabled : Router → Bool)
    (chain : ChainId) : List Router :=
  registry.routers.filter fun router => isEnabled router && router.chain == chain

/-- A quote with its router's priority. -/
def withPriority (routers : List Router) (compared : Quote × ℕ) : ℕ × Quote × ℕ :=
  (((routers.find? (·.id == compared.1.routerId)).map (·.priority)).getD 255, compared)

/-- The last of the best quotes wins, as `max_by` has it. -/
def bestOf (routers : List Router) (results : List Checked) : Except QuoteError Quote :=
  let quotes := results.filterMap fun result => result.toOption.map (withPriority routers)
  let errors := results.filterMap fun result =>
    match result with
    | .ok _ => none
    | .error e => some e
  match quotes.reverse.argmax quoteKey with
  | none => .error (selectQuoteFailure errors)
  | some (_, quote, _) => .ok quote

def bestQuoteOn (registry : RouterRegistry) (isEnabled : Router → Bool) (request : QuoteRequest)
    (deadline : ℕ)
    (arrivals : List (Arrival (registry.enabledRoutersFor isEnabled request.chain).length)) :
    Except QuoteError Quote :=
  let enabled := registry.enabledRoutersFor isEnabled request.chain
  if enabled.isEmpty then .error (.noRoutersEnabled request.chain)
  else bestOf enabled (collectQuotes enabled request deadline arrivals)

section Failure
variable {errors : List QuoteError}

theorem specificity_of_operational {error : QuoteError} (hrouter : error.FromRouter)
    (hanswered : error.isNotOffered = false)
    (h : (error.isNotTradable || error.isNoRoute) = false) : error.specificity ≤ 3 := by
  cases error <;> simp_all [FromRouter, isNotOffered, isNotTradable, isNoRoute, specificity]

theorem operational_of_specificity {error : QuoteError} (h : error.specificity ≤ 3) :
    error.isNotTradable = false ∧ error.isNoRoute = false := by
  cases error <;> simp_all [isNotTradable, isNoRoute, specificity]

theorem isNoRoute_of_isNotTradable {error : QuoteError} (h : error.isNotTradable = true) :
    error.isNoRoute = false := by
  cases error <;> simp_all [isNotTradable, isNoRoute]

/-- What the failure says of the token, in terms of those that answered. -/
structure Reduces (answered : List QuoteError) (failure : QuoteError) : Prop where
  notTradable : failure.isNotTradable = true ↔
    answered ≠ [] ∧ ∀ error ∈ answered, error.isNotTradable = true
  noRoute : failure.isNoRoute = true ↔
    (∃ error ∈ answered, error.isNoRoute = true) ∧
      ∀ error ∈ answered, error.isNotTradable = true ∨ error.isNoRoute = true

theorem answeredFailure_reduces {first : QuoteError} {rest : List QuoteError}
    (hanswered : ∀ error ∈ first :: rest, error.FromRouter ∧ error.isNotOffered = false) :
    Reduces (first :: rest) (answeredFailure first rest) := by
  unfold answeredFailure
  dsimp only
  split_ifs with hdead hverdicts
  · have hfirst := List.all_eq_true.mp hdead
    have hnoRoute (error : QuoteError) (herror : error ∈ first :: rest) : error.isNoRoute = false :=
      isNoRoute_of_isNotTradable (hfirst error herror)
    constructor
    · constructor
      · intro _
        exact ⟨List.cons_ne_nil first rest, hfirst⟩
      · exact fun _ => hfirst first List.mem_cons_self
    · constructor
      · intro h
        simp [hnoRoute first List.mem_cons_self] at h
      · rintro ⟨⟨error, herror, h⟩, -⟩
        simp [hnoRoute error herror] at h
  · have hverdicts := List.all_eq_true.mp hverdicts
    obtain ⟨error, herror, hlive⟩ : ∃ error ∈ first :: rest, error.isNotTradable = false := by
      simpa using List.all_eq_false.mp (Bool.eq_false_of_not_eq_true hdead)
    have hroute : error.isNoRoute = true := by simpa [hlive] using hverdicts error herror
    obtain ⟨found, hfound⟩ : ∃ found, (first :: rest).find? isNoRoute = some found :=
      Option.isSome_iff_exists.mp (List.find?_isSome.mpr ⟨error, herror, hroute⟩)
    have hfoundRoute : found.isNoRoute = true := List.find?_some hfound
    rw [hfound, Option.getD_some]
    constructor
    · constructor
      · intro h
        simp [isNoRoute_of_isNotTradable h] at hfoundRoute
      · rintro ⟨-, h⟩
        simp [h error herror] at hlive
    · constructor
      · intro _
        exact ⟨⟨error, herror, hroute⟩, fun e he => by simpa using hverdicts e he⟩
      · exact fun _ => hfoundRoute
  -- One operational failure is more specific than any verdict.
  · obtain ⟨error, herror, hoperational⟩ :
        ∃ error ∈ first :: rest, (error.isNotTradable || error.isNoRoute) = false := by
      simpa using List.all_eq_false.mp (Bool.eq_false_of_not_eq_true hverdicts)
    obtain ⟨least, hleast⟩ : ∃ least, (first :: rest).argmin specificity = some least :=
      Option.ne_none_iff_exists'.mp (by simp [List.argmin_eq_none])
    have hle := List.le_of_mem_argmin herror hleast
    obtain ⟨hrouter, hoffered⟩ := hanswered error herror
    obtain ⟨hlive, hroute⟩ := operational_of_specificity
      (hle.trans (specificity_of_operational hrouter hoffered hoperational))
    rw [hleast, Option.getD_some]
    simp only [Bool.or_eq_false_iff] at hoperational
    constructor
    · constructor
      · intro h
        simp [hlive] at h
      · rintro ⟨-, h⟩
        simp [h error herror] at hoperational
    · constructor
      · intro h
        simp [hroute] at h
      · rintro ⟨-, h⟩
        rcases h error herror with hverdict | hverdict
        · simp [hverdict] at hoperational
        · simp [hverdict] at hoperational

theorem selectQuoteFailure_reduces (hrouter : ∀ error ∈ errors, error.FromRouter) :
    Reduces (answeredErrors errors) (selectQuoteFailure errors) := by
  have hanswered : ∀ error ∈ answeredErrors errors,
      error.FromRouter ∧ error.isNotOffered = false := by
    intro error herror
    obtain ⟨hmem, hoffered⟩ := List.mem_filter.mp herror
    exact ⟨hrouter error hmem, by simpa using hoffered⟩
  unfold selectQuoteFailure
  split
  next hnone =>
    rw [hnone]
    have hsilent : ((errors.find? isNotOffered).getD
        (.unavailable "all" "no router returned a quote or an error")).isNotTradable = false ∧
        ((errors.find? isNotOffered).getD
        (.unavailable "all" "no router returned a quote or an error")).isNoRoute = false := by
      cases hfound : errors.find? isNotOffered with
      | none => exact ⟨rfl, rfl⟩
      | some abstention =>
        have habstains := List.find?_some hfound
        cases abstention <;> simp_all [isNotOffered, isNotTradable, isNoRoute]
    constructor
    · simp [hsilent.1]
    · simp [hsilent.2]
  next first rest hsome =>
    rw [hsome] at hanswered ⊢
    exact answeredFailure_reduces hanswered

end Failure

theorem outputAfterNetworkFee_fromRouter {quote : Quote} {router : Router} {error : QuoteError}
    (h : outputAfterNetworkFee quote router = .error error) : error.FromRouter := by
  unfold outputAfterNetworkFee at h
  dsimp only at h
  split at h
  · cases h
  · split_ifs at h
    · obtain rfl := Except.error.inj h
      trivial
    · obtain rfl := Except.error.inj h
      trivial
    · split at h
      · obtain rfl := Except.error.inj h
        trivial
      · split_ifs at h
        obtain rfl := Except.error.inj h
        trivial

theorem validateQuoteWithNet_fromRouter {quote : Quote} {router : Router} {request : QuoteRequest}
    {error : QuoteError} (h : validateQuoteWithNet router request quote = .error error) :
    error.FromRouter := by
  unfold validateQuoteWithNet at h
  iterate 11
    obtain ⟨-, rfl⟩ | ⟨-, h⟩ := refuse_eq_error.mp h
    · trivial
  cases hnet : outputAfterNetworkFee quote router with
  | error e =>
    rw [hnet] at h
    obtain rfl := Except.error.inj h
    exact outputAfterNetworkFee_fromRouter hnet
  | ok net =>
    rw [hnet] at h
    cases h

section Collect
variable (routers : List Router) (request : QuoteRequest) (deadline : ℕ)

/-- Every router answers once, and the answers are taken as they come. -/
structure Arrives (count : ℕ) (arrivals : List (Arrival count)) : Prop where
  each : (arrivals.map (·.index)).Perm (List.finRange count)
  ordered : arrivals.Pairwise fun a b => a.moment ≤ b.moment

/-- The arrival comes before every cut-off a valid quote of the list arms. -/
def InTime (arrivals : List (Arrival routers.length)) (arrival : Arrival routers.length) : Prop :=
  ∀ valid ∈ arrivals, (valid.checked routers request).isOk = true →
    arrival.moment ≤ valid.moment + deadline

/-- The arrival comes before the cut-off, where one is armed. -/
def Before (cutoff : Option ℕ) (arrivals : List (Arrival routers.length))
    (arrival : Arrival routers.length) : Prop :=
  match cutoff with
  | some moment => arrival.moment ≤ moment
  | none => InTime routers request deadline arrivals arrival

variable {routers request deadline}

section Cutoff
variable {arrival : Arrival routers.length} {rest : List (Arrival routers.length)}
  {cutoff : Option ℕ}

/-- The first valid quote arms the cut-off its list is held to. -/
theorem before_cons (hfirst : ∀ later ∈ rest, arrival.moment ≤ later.moment)
    (later : Arrival routers.length) :
    Before routers request deadline
      (if cutoff.isNone && (arrival.checked routers request).isOk then
        some (arrival.moment + deadline) else cutoff) rest later ↔
      Before routers request deadline cutoff (arrival :: rest) later := by
  cases cutoff with
  | some moment => simp [Before]
  | none =>
    cases hvalid : (arrival.checked routers request).isOk with
    | false => simp [Before, InTime, hvalid]
    | true =>
      simp only [Before, InTime, Option.isNone_none, Bool.and_self, if_true, List.forall_mem_cons,
        hvalid, forall_const]
      constructor
      · intro h
        refine ⟨h, ?_⟩
        intro valid hmem _
        have := hfirst valid hmem
        omega
      · exact And.left

theorem before_head (hfirst : ∀ later ∈ rest, arrival.moment ≤ later.moment)
    (hcut : ¬ cutoff.any (· < arrival.moment) = true) :
    Before routers request deadline cutoff (arrival :: rest) arrival := by
  cases cutoff with
  | some moment => simpa [Before] using hcut
  | none =>
    intro valid hmem _
    rcases List.mem_cons.mp hmem with rfl | hmem
    · omega
    · have := hfirst valid hmem
      omega

end Cutoff

theorem collectLoop_eq_some {arrivals : List (Arrival routers.length)} {cutoff : Option ℕ}
    {answers : Fin routers.length → Option Checked} {index : Fin routers.length} {checked : Checked}
    (hnodup : (arrivals.map (·.index)).Nodup)
    (hordered : arrivals.Pairwise fun a b => a.moment ≤ b.moment)
    (hfresh : ∀ arrival ∈ arrivals, answers arrival.index = none) :
    collectLoop routers request deadline cutoff answers arrivals index = some checked ↔
      answers index = some checked ∨ ∃ arrival ∈ arrivals, arrival.index = index ∧
        Before routers request deadline cutoff arrivals arrival ∧
        arrival.checked routers request = checked := by
  induction arrivals generalizing cutoff answers with
  | nil => simp [collectLoop]
  | cons arrival rest ih =>
    rw [List.map_cons, List.nodup_cons] at hnodup
    obtain ⟨hnew, hnodup⟩ := hnodup
    obtain ⟨hfirst, hordered⟩ := List.pairwise_cons.mp hordered
    have hother : ∀ later ∈ rest, later.index ≠ arrival.index := by
      intro later hlater heq
      exact hnew (List.mem_map.mpr ⟨later, hlater, heq⟩)
    have hfresh' : ∀ later ∈ rest,
        Function.update answers arrival.index (some (arrival.checked routers request)) later.index =
          none := by
      intro later hlater
      rw [Function.update_of_ne (hother later hlater)]
      exact hfresh later (List.mem_cons_of_mem arrival hlater)
    unfold collectLoop
    split_ifs with hcut
    · obtain ⟨moment, rfl, hlate⟩ : ∃ moment, cutoff = some moment ∧ moment < arrival.moment := by
        cases cutoff with
        | none => simp at hcut
        | some moment => exact ⟨moment, rfl, by simpa using hcut⟩
      constructor
      · exact .inl
      · rintro (h | ⟨late, hmem, -, hbefore, -⟩)
        · exact h
        · exfalso
          simp only [Before] at hbefore
          rcases List.mem_cons.mp hmem with rfl | hmem
          · omega
          · have := hfirst late hmem
            omega
    · dsimp only
      rw [ih hnodup hordered hfresh']
      have hcutoff : ∀ later ∈ rest, Before routers request deadline
          (if cutoff.isNone && (arrival.checked routers request).isOk then
            some (arrival.moment + deadline) else cutoff) rest later ↔
          Before routers request deadline cutoff (arrival :: rest) later :=
        fun later _ => before_cons hfirst later
      have hinTime : Before routers request deadline cutoff (arrival :: rest) arrival :=
        before_head hfirst hcut
      by_cases hindex : arrival.index = index
      · have hnone : answers index = none := hindex ▸ hfresh arrival List.mem_cons_self
        rw [← hindex, Function.update_self, hindex, hnone]
        constructor
        · rintro (h | ⟨later, hlater, heq, -⟩)
          · exact .inr ⟨arrival, List.mem_cons_self, hindex, hinTime, Option.some_inj.mp h⟩
          · exact absurd (heq.trans hindex.symm) (hother later hlater)
        · rintro (h | ⟨found, hfound, heq, -, hchecked⟩)
          · cases h
          · rcases List.mem_cons.mp hfound with rfl | hfound
            · exact .inl (congrArg some hchecked)
            · exact absurd (heq.trans hindex.symm) (hother found hfound)
      · rw [Function.update_of_ne (Ne.symm hindex)]
        apply or_congr_right
        constructor
        · rintro ⟨later, hlater, heq, hbefore, hchecked⟩
          exact ⟨later, List.mem_cons_of_mem arrival hlater, heq, (hcutoff later hlater).mp hbefore,
            hchecked⟩
        · rintro ⟨found, hfound, heq, hbefore, hchecked⟩
          rcases List.mem_cons.mp hfound with rfl | hfound
          · exact absurd heq hindex
          · exact ⟨found, hfound, heq, (hcutoff found hfound).mpr hbefore, hchecked⟩

/-- A valid arrival is the router's own quote, which passed its checks. -/
theorem checked_eq_ok {arrival : Arrival routers.length} {quote : Quote} {net : ℕ}
    (h : arrival.checked routers request = .ok (quote, net)) :
    arrival.answer.given = .ok quote ∧
      validateQuoteWithNet (routers.get arrival.index) request quote = .ok (quote, net) ∧
      quote.routerId = (routers.get arrival.index).id := by
  unfold Arrival.checked quoteFrom at h
  cases hgiven : arrival.answer.given with
  | error e =>
    rw [hgiven] at h
    cases h
  | ok given =>
    rw [hgiven] at h
    simp only at h
    have hvalid : validateQuote (routers.get arrival.index) request given = .ok quote := by
      unfold validateQuote
      rw [h]
      rfl
    obtain ⟨rfl, hrouter, -⟩ := validateQuote_eq_ok hvalid
    exact ⟨rfl, h, hrouter⟩

theorem checked_fromRouter {arrival : Arrival routers.length} {error : QuoteError}
    (h : arrival.checked routers request = .error error) : error.FromRouter := by
  unfold Arrival.checked quoteFrom at h
  cases hgiven : arrival.answer.given with
  | error e =>
    rw [hgiven] at h
    obtain rfl := Except.error.inj h
    exact arrival.answer.fromRouter e hgiven
  | ok given =>
    rw [hgiven] at h
    exact validateQuoteWithNet_fromRouter h

theorem mem_collectQuotes {arrivals : List (Arrival routers.length)}
    (harrives : Arrives routers.length arrivals) {checked : Checked} :
    checked ∈ collectQuotes routers request deadline arrivals ↔
      ∃ arrival ∈ arrivals,
        InTime routers request deadline arrivals arrival ∧
            arrival.checked routers request = checked ∨
          ¬ InTime routers request deadline arrivals arrival ∧
            checked = .error (.timeout (routers.get arrival.index).name) := by
  have hnodup := harrives.each.nodup_iff.mpr (List.nodup_finRange routers.length)
  have hunique : ∀ a ∈ arrivals, ∀ b ∈ arrivals, a.index = b.index → a = b :=
    fun a ha b hb h => List.inj_on_of_nodup_map hnodup ha hb h
  have hanswer (index : Fin routers.length) (checked : Checked) :=
    @collectLoop_eq_some routers request deadline arrivals none (fun _ => none) index checked hnodup
      harrives.ordered fun _ _ => rfl
  have hheard {arrival : Arrival routers.length} (harrival : arrival ∈ arrivals)
      (htime : InTime routers request deadline arrivals arrival) :
      collectLoop routers request deadline none (fun _ => none) arrivals arrival.index =
        some (arrival.checked routers request) :=
    (hanswer arrival.index _).mpr (.inr ⟨arrival, harrival, rfl, htime, rfl⟩)
  have hcut {arrival : Arrival routers.length} (harrival : arrival ∈ arrivals)
      (htime : ¬ InTime routers request deadline arrivals arrival) :
      collectLoop routers request deadline none (fun _ => none) arrivals arrival.index = none := by
    rw [Option.eq_none_iff_forall_ne_some]
    intro checked hsome
    rcases (hanswer arrival.index checked).mp hsome with h | ⟨found, hfound, heq, hbefore, -⟩
    · cases h
    · obtain rfl := hunique found hfound arrival harrival heq
      exact htime hbefore
  unfold collectQuotes
  rw [List.mem_ofFn]
  constructor
  · rintro ⟨index, rfl⟩
    obtain ⟨arrival, harrival, rfl⟩ : ∃ arrival ∈ arrivals, arrival.index = index :=
      List.mem_map.mp (harrives.each.mem_iff.mpr (List.mem_finRange index))
    refine ⟨arrival, harrival, ?_⟩
    by_cases htime : InTime routers request deadline arrivals arrival
    · rw [hheard harrival htime]
      exact .inl ⟨htime, rfl⟩
    · rw [hcut harrival htime]
      exact .inr ⟨htime, rfl⟩
  · rintro ⟨arrival, harrival, ⟨htime, rfl⟩ | ⟨htime, rfl⟩⟩
    · exact ⟨arrival.index, by rw [hheard harrival htime, Option.getD_some]⟩
    · exact ⟨arrival.index, by rw [hcut harrival htime, Option.getD_none]⟩

end Collect

section Best
variable {routers : List Router} {results : List Checked}

theorem bestOf_eq_ok {quote : Quote} (h : bestOf routers results = .ok quote) :
    ∃ net, .ok (quote, net) ∈ results ∧ ∀ quote' net', .ok (quote', net') ∈ results →
      quoteKey (withPriority routers (quote', net')) ≤
        quoteKey (withPriority routers (quote, net)) := by
  unfold bestOf at h
  dsimp only at h
  have hmem (compared : Quote × ℕ) : withPriority routers compared ∈
      (results.filterMap fun result => result.toOption.map (withPriority routers)).reverse ↔
        .ok compared ∈ results := by
    rw [List.mem_reverse, List.mem_filterMap]
    constructor
    · rintro ⟨result, hresult, hvalue⟩
      cases result with
      | error e => cases hvalue
      | ok other =>
        have heq := congrArg Prod.snd (Option.some_inj.mp hvalue)
        exact (show other = compared from heq) ▸ hresult
    · intro hok
      exact ⟨.ok compared, hok, rfl⟩
  split at h
  next => cases h
  next priority best net hbest =>
    obtain rfl := Except.ok.inj h
    obtain ⟨result, hresult, hvalue⟩ :=
      List.mem_filterMap.mp (List.mem_reverse.mp (List.argmax_mem hbest))
    cases result with
    | error e => cases hvalue
    | ok compared =>
      have hvalue : withPriority routers compared = (priority, best, net) :=
        Option.some_inj.mp hvalue
      obtain rfl : compared = (best, net) := congrArg Prod.snd hvalue
      refine ⟨net, hresult, ?_⟩
      intro quote' net' hok
      rw [hvalue]
      exact List.le_of_mem_argmax ((hmem _).mpr hok) hbest

theorem bestOf_eq_error {failure : QuoteError} (h : bestOf routers results = .error failure) :
    ∃ errors, (∀ error, error ∈ errors ↔ .error error ∈ results) ∧
      failure = selectQuoteFailure errors ∧ ∀ compared, .ok compared ∉ results := by
  unfold bestOf at h
  dsimp only at h
  split at h
  next hnone =>
    refine ⟨_, ?_, (Except.error.inj h).symm, ?_⟩
    · intro error
      rw [List.mem_filterMap]
      constructor
      · rintro ⟨result, hresult, hvalue⟩
        cases result with
        | ok compared => cases hvalue
        | error e => exact Option.some_inj.mp hvalue ▸ hresult
      · intro herror
        exact ⟨.error error, herror, rfl⟩
    · intro compared hok
      rw [List.argmax_eq_none, List.reverse_eq_nil_iff] at hnone
      have hin : withPriority routers compared ∈
          results.filterMap fun result => result.toOption.map (withPriority routers) :=
        List.mem_filterMap.mpr ⟨.ok compared, hok, rfl⟩
      rw [hnone] at hin
      cases hin
  next => cases h

/-- Among routers of distinct ids the quote's own router is found. -/
theorem withPriority_eq (hids : (routers.map (·.id)).Nodup) {router : Router}
    (hrouter : router ∈ routers) {quote : Quote} {net : ℕ} (h : quote.routerId = router.id) :
    withPriority routers (quote, net) = (router.priority, quote, net) := by
  have hfound : routers.find? (·.id == quote.routerId) = some router := by
    have hown := filter_key_of_mem Router.id hids hrouter
    rw [h, ← List.head?_filter]
    simp only [beq_eq_decide, hown, List.head?_cons]
  simp [withPriority, hfound]
end Best

section Verdict
variable {routers : List Router} {request : QuoteRequest} {deadline : ℕ}
  {arrivals : List (Arrival routers.length)}

theorem ok_mem_collectQuotes (harrives : Arrives routers.length arrivals) {compared : Quote × ℕ} :
    .ok compared ∈ collectQuotes routers request deadline arrivals ↔
      ∃ arrival ∈ arrivals, InTime routers request deadline arrivals arrival ∧
        arrival.checked routers request = .ok compared := by
  rw [mem_collectQuotes harrives]
  constructor
  · rintro ⟨arrival, harrival, h | ⟨-, h⟩⟩
    · exact ⟨arrival, harrival, h⟩
    · cases h
  · rintro ⟨arrival, harrival, h⟩
    exact ⟨arrival, harrival, .inl h⟩

/-- The first valid quote is in time. -/
theorem exists_ok_collectQuotes (harrives : Arrives routers.length arrivals)
    (h : ∃ arrival ∈ arrivals, (arrival.checked routers request).isOk = true) :
    ∃ compared, .ok compared ∈ collectQuotes routers request deadline arrivals := by
  obtain ⟨arrival, harrival, hvalid⟩ := h
  let valid := arrivals.filter fun arrival => (arrival.checked routers request).isOk
  obtain ⟨first, hfirst⟩ : ∃ first, valid.argmin (·.moment) = some first := by
    refine Option.ne_none_iff_exists'.mp ?_
    rw [ne_eq, List.argmin_eq_none]
    exact List.ne_nil_of_mem (List.mem_filter.mpr ⟨harrival, hvalid⟩)
  obtain ⟨hmem, hok⟩ := List.mem_filter.mp (List.argmin_mem hfirst)
  have htime : InTime routers request deadline arrivals first := by
    intro other hother hotherOk
    have := List.le_of_mem_argmin (List.mem_filter.mpr ⟨hother, hotherOk⟩) hfirst
    omega
  cases hchecked : first.checked routers request with
  | error e => simp [hchecked, Except.isOk, Except.toBool] at hok
  | ok compared =>
    exact ⟨compared, (ok_mem_collectQuotes harrives).mpr ⟨first, hmem, htime, hchecked⟩⟩

theorem bestOf_settled (hids : (routers.map (·.id)).Nodup)
    (harrives : Arrives routers.length arrivals) {quote : Quote}
    (h : bestOf routers (collectQuotes routers request deadline arrivals) = .ok quote) :
    ∃ arrival ∈ arrivals, ∃ net,
      InTime routers request deadline arrivals arrival ∧ arrival.answer.given = .ok quote ∧
      validateQuoteWithNet (routers.get arrival.index) request quote = .ok (quote, net) ∧
      ∀ other ∈ arrivals, InTime routers request deadline arrivals other →
        ∀ quote' net', other.checked routers request = .ok (quote', net') →
          net' < net ∨ net' = net ∧
            (routers.get arrival.index).priority ≤ (routers.get other.index).priority := by
  obtain ⟨net, hok, hbest⟩ := bestOf_eq_ok h
  obtain ⟨arrival, harrival, htime, hchecked⟩ := (ok_mem_collectQuotes harrives).mp hok
  obtain ⟨hgiven, hvalid, hrouter⟩ := checked_eq_ok hchecked
  refine ⟨arrival, harrival, net, htime, hgiven, hvalid, ?_⟩
  intro other hother hotherTime quote' net' hotherChecked
  have hle := hbest quote' net'
    ((ok_mem_collectQuotes harrives).mpr ⟨other, hother, hotherTime, hotherChecked⟩)
  obtain ⟨-, -, hotherRouter⟩ := checked_eq_ok hotherChecked
  rw [withPriority_eq hids (List.get_mem routers arrival.index) hrouter,
    withPriority_eq hids (List.get_mem routers other.index) hotherRouter, quoteKey, quoteKey,
    Prod.Lex.toLex_le_toLex] at hle
  exact hle

theorem failure_settled (harrives : Arrives routers.length arrivals) {failure : QuoteError}
    (h : bestOf routers (collectQuotes routers request deadline arrivals) = .error failure) :
    (∀ arrival ∈ arrivals, InTime routers request deadline arrivals arrival) ∧
    ∃ answered : List QuoteError,
      (∀ error, error ∈ answered ↔ error.isNotOffered = false ∧
        ∃ arrival ∈ arrivals, arrival.checked routers request = .error error) ∧
      Reduces answered failure := by
  obtain ⟨errors, hmem, rfl, hnone⟩ := bestOf_eq_error h
  have hfailed : ∀ arrival ∈ arrivals, ¬ (arrival.checked routers request).isOk = true := by
    intro arrival harrival hvalid
    obtain ⟨compared, hok⟩ := exists_ok_collectQuotes harrives ⟨arrival, harrival, hvalid⟩
    exact hnone compared hok
  have htime : ∀ arrival ∈ arrivals, InTime routers request deadline arrivals arrival :=
    fun arrival _ other hother hvalid => absurd hvalid (hfailed other hother)
  have hcollected (error : QuoteError) :
      error ∈ errors ↔ ∃ arrival ∈ arrivals, arrival.checked routers request = .error error := by
    rw [hmem, mem_collectQuotes harrives]
    constructor
    · rintro ⟨arrival, harrival, ⟨-, hchecked⟩ | ⟨hlate, -⟩⟩
      · exact ⟨arrival, harrival, hchecked⟩
      · exact absurd (htime arrival harrival) hlate
    · rintro ⟨arrival, harrival, hchecked⟩
      exact ⟨arrival, harrival, .inl ⟨htime arrival harrival, hchecked⟩⟩
  refine ⟨htime, answeredErrors errors, ?_, ?_⟩
  · intro error
    rw [answeredErrors, List.mem_filter, hcollected]
    simp [and_comm]
  · apply selectQuoteFailure_reduces
    intro error herror
    obtain ⟨arrival, -, hchecked⟩ := (hcollected error).mp herror
    exact checked_fromRouter hchecked

end Verdict

/-- The comparison returns the valid quote in time that keeps the most output, then the lowest
priority number; it returns one whenever a router gives one. Otherwise no router is cut off, and
what the failure says of the token is what all that did not abstain say. -/
theorem best_quote_settled (registry : RouterRegistry) (isEnabled : Router → Bool)
    (request : QuoteRequest) (deadline : ℕ)
    (arrivals : List (Arrival (registry.enabledRoutersFor isEnabled request.chain).length))
    (hids : ((registry.enabledRoutersFor isEnabled request.chain).map (·.id)).Nodup)
    (harrives : Arrives (registry.enabledRoutersFor isEnabled request.chain).length arrivals) :
    let routers := registry.enabledRoutersFor isEnabled request.chain
    let best := bestQuoteOn registry isEnabled request deadline arrivals
    (∀ quote, best = .ok quote → ∃ arrival ∈ arrivals, ∃ net,
      InTime routers request deadline arrivals arrival ∧ arrival.answer.given = .ok quote ∧
      validateQuoteWithNet (routers.get arrival.index) request quote = .ok (quote, net) ∧
      ∀ other ∈ arrivals, InTime routers request deadline arrivals other →
        ∀ quote' net', other.checked routers request = .ok (quote', net') →
          net' < net ∨ net' = net ∧
            (routers.get arrival.index).priority ≤ (routers.get other.index).priority) ∧
    ((∃ arrival ∈ arrivals, (arrival.checked routers request).isOk = true) →
      ∃ quote, best = .ok quote) ∧
    ∀ failure, best = .error failure →
      (∀ arrival ∈ arrivals, InTime routers request deadline arrivals arrival) ∧
      ∃ answered : List QuoteError,
        (∀ error, error ∈ answered ↔ error.isNotOffered = false ∧
          ∃ arrival ∈ arrivals, arrival.checked routers request = .error error) ∧
        Reduces answered failure := by
  intro routers best
  by_cases hempty : routers.isEmpty = true
  · have hbest : best = .error (.noRoutersEnabled request.chain) := if_pos hempty
    have hnone : routers.length = 0 := List.length_eq_zero_iff.mpr (List.isEmpty_iff.mp hempty)
    have harrived : arrivals = [] := by
      have hlength := harrives.each.length_eq
      rw [List.length_map, List.length_finRange] at hlength
      exact List.length_eq_zero_iff.mp (hlength.trans hnone)
    subst harrived
    refine ⟨?_, by simp, ?_⟩
    · intro quote hquote
      rw [hbest] at hquote
      cases hquote
    · intro failure hfailure
      obtain rfl := Except.error.inj (hbest.symm.trans hfailure)
      refine ⟨by simp, [], by simp, ?_, ?_⟩
      · simp [isNotTradable]
      · simp [isNoRoute]
  · have hbest : best = bestOf routers (collectQuotes routers request deadline arrivals) :=
      if_neg hempty
    rw [hbest]
    refine ⟨fun quote => bestOf_settled hids harrives, ?_, fun failure => failure_settled harrives⟩
    intro hvalid
    obtain ⟨compared, hok⟩ := exists_ok_collectQuotes harrives hvalid
    cases hresult : bestOf routers (collectQuotes routers request deadline arrivals) with
    | ok quote => exact ⟨quote, rfl⟩
    | error failure =>
      obtain ⟨-, -, -, hnone⟩ := bestOf_eq_error hresult
      exact absurd hok (hnone compared)

def twoRouters : RouterRegistry where
  routers := [⟨"direct", "Direct", 2, .solana⟩, ⟨"jupiter", "Jupiter", 1, .solana⟩]

def wrapRequest : QuoteRequest := ⟨.solana, "mint", "other", 5, "wallet", 1, .exactIn, none⟩

/-- A router that abstains beside one that finds no route. -/
def abstainedAndNoRoute :
    List (Arrival (twoRouters.enabledRoutersFor (fun _ => true) wrapRequest.chain).length) :=
  [⟨⟨1, by decide⟩, 3, ⟨.error (.noRoute "Jupiter" "no pool"), by rintro _ ⟨⟩; trivial⟩⟩,
    ⟨⟨0, by decide⟩, 4, ⟨.error (.notOffered "Direct" "exact out"), by rintro _ ⟨⟩; trivial⟩⟩]

def tenOutFrom (id name : String) : Quote :=
  ⟨.solana, id, name, "mint", "other", 5, 10, 9, ⟨some 0, "0"⟩, none, 100, .exactIn, "wallet", none⟩

/-- Two valid quotes of one output, the lower priority number first. -/
def tiedQuotes :
    List (Arrival (twoRouters.enabledRoutersFor (fun _ => true) wrapRequest.chain).length) :=
  [⟨⟨1, by decide⟩, 3, ⟨.ok (tenOutFrom "jupiter" "Jupiter"), by rintro _ ⟨⟩⟩⟩,
    ⟨⟨0, by decide⟩, 4, ⟨.ok (tenOutFrom "direct" "Direct"), by rintro _ ⟨⟩⟩⟩]

theorem best_quote_tied_or_none :
    let routers := twoRouters.enabledRoutersFor (fun _ => true) wrapRequest.chain
    bestQuoteOn twoRouters (fun _ => true) wrapRequest 1500 tiedQuotes =
        .ok (tenOutFrom "jupiter" "Jupiter") ∧
      (∃ quote, bestQuoteOn twoRouters (fun _ => true) wrapRequest 1500 tiedQuotes = .ok quote) ∧
      (∀ other ∈ tiedQuotes, InTime routers wrapRequest 1500 tiedQuotes other →
        ∀ quote' net', other.checked routers wrapRequest = .ok (quote', net') →
          net' < 10 ∨ net' = 10 ∧ 1 ≤ (routers.get other.index).priority) ∧
      bestQuoteOn twoRouters (fun _ => true) wrapRequest 1500 abstainedAndNoRoute =
        .error (.noRoute "Jupiter" "no pool") ∧
      ∃ answered, Reduces answered (.noRoute "Jupiter" "no pool") := by
  intro routers
  have htied : bestQuoteOn twoRouters (fun _ => true) wrapRequest 1500 tiedQuotes =
      .ok (tenOutFrom "jupiter" "Jupiter") := by rfl
  have hnone : bestQuoteOn twoRouters (fun _ => true) wrapRequest 1500 abstainedAndNoRoute =
      .error (.noRoute "Jupiter" "no pool") := by rfl
  obtain ⟨hbest, hsome, -⟩ := best_quote_settled twoRouters (fun _ => true) wrapRequest 1500
    tiedQuotes (by decide) ⟨by decide, by decide⟩
  obtain ⟨-, -, hfailure⟩ := best_quote_settled twoRouters (fun _ => true) wrapRequest 1500
    abstainedAndNoRoute (by decide) ⟨by decide, by decide⟩
  obtain ⟨-, answered, -, hreduces⟩ := hfailure _ hnone
  refine ⟨htied, hsome ⟨tiedQuotes.head (by decide), by simp, rfl⟩, ?_, hnone, answered, hreduces⟩
  obtain ⟨arrival, harrival, net, -, hgiven, hvalid, hkeeps⟩ := hbest _ htied
  simp only [tiedQuotes, List.mem_cons, List.not_mem_nil, or_false] at harrival
  obtain rfl | rfl := harrival
  · obtain rfl : 10 = net := congrArg Prod.snd (Except.ok.inj hvalid)
    exact hkeeps
  · exact absurd (Except.ok.inj hgiven) (by decide)

end ScreenerBot.Swaps
