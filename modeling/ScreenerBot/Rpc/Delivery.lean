import ScreenerBot.Rpc.Service
import ScreenerBot.Swaps.Outcome

/-! What the refusal of a send proves about the attempts of its call. -/
namespace ScreenerBot.Swaps

open Rpc (CallError)

/-- Why a send request returned no signature. -/
inductive SendFailure where
  /-- Provably never sent: refused before or by the request itself. -/
  | notSent (reason : NotSubmittedReason)
  /-- Failed in a way that cannot prove the transaction never reached a node. -/
  | unproven (error : CallError)
  deriving DecidableEq, Repr

/-- Classify a failed send request. -/
def sendFailure (error : CallError) : SendFailure :=
  match error with
  | .rpc rejection =>
      if rejection.isRequestRejection then .notSent (.requestRejected rejection.display)
      else if rejection.isPreflightRefusal then .notSent (.simulationFailed rejection.display)
      else .unproven error
  | .chains refusal =>
      if refusal.isAccessRefusal then .notSent (.servicePaused refusal.display)
      else .unproven error
  | .other _ => .unproven error

end ScreenerBot.Swaps

namespace ScreenerBot.Rpc

open Library Swaps

/-- The method of a transaction send. -/
abbrev SEND : String := "sendTransaction"

/-- A failed send is read as never sent. -/
def CallError.NotSent (error : CallError) : Prop := ∃ reason, sendFailure error = .notSent reason

theorem notSent_rpc {error : RpcError} :
    (CallError.rpc error).NotSent ↔ error.isSendRefusal = true := by
  simp only [CallError.NotSent, sendFailure, RpcError.isSendRefusal, Bool.or_eq_true]
  cases error.isRequestRejection <;> cases error.isPreflightRefusal <;> simp

theorem notSent_chains {error : ChainsError} :
    (CallError.chains error).NotSent ↔ error.isAccessRefusal = true := by
  simp only [CallError.NotSent, sendFailure]
  cases error.isAccessRefusal <;> simp

/-- The JSON-RPC refusal of a send, which its node did not forward. -/
def ProviderAnswer.refuses : ProviderAnswer → Bool
  | .error code message data =>
      (RpcError.fromJsonrpcError (code.getD (-1)) (message.getD "Unknown error") data).isSendRefusal
  | _ => false

/-- A provider attempt may have delivered the transaction, unless it never left the machine or its
node refused the send. -/
def ProviderAnswer.mayHaveDelivered : ProviderAnswer → Bool
  | .failed isTimeout isConnect _ => isTimeout || !isConnect
  | answer => !answer.refuses

/-- What an HTTP answer of the relay leaves open: a client error and an unavailable service are
refused before any dispatch; a node's error and a lost node are of an attempt that delivered
nothing only where the answer says so and the node's error is the refusal of a send. -/
def RelayAnswer.mayHaveDelivered (answer : RelayAnswer) : Bool :=
  if (400 ≤ answer.status ∧ answer.status < 500) ∨ answer.status = 503 then false
  else if answer.status = 502 ∧ answer.body.afterDelivery = some false then
    if answer.body.code = some "rpc_error" then !answer.body.nodeError.isSendRefusal
    else !(answer.body.code == some "relay_unavailable")
  else true

def RelayExchange.mayHaveDelivered : RelayExchange → Bool
  | .answered answer => answer.mayHaveDelivered
  | .failed isConnect => !isConnect

/-- Whether a call was an attempt that may have delivered the transaction. -/
def delivers : Exchange RpcCall → Bool
  | ⟨.relay _, exchange⟩ => exchange.mayHaveDelivered
  | ⟨.post _ _, answer⟩ => answer.mayHaveDelivered
  | _ => false

/-- A send read as never sent was delivered by none of its attempts. -/
def RefusalSound (t : List (Exchange RpcCall)) (result : Except CallError RpcValue) : Prop :=
  ∀ error, result = .error error → error.NotSent → ∀ exchange ∈ t, delivers exchange = false

/-- The answers of the providers the call was posted to, in order. -/
def posted (t : List (Exchange RpcCall)) : List ProviderAnswer :=
  t.filterMap fun
    | ⟨.post _ _, answer⟩ => some answer
    | _ => none

/-- What asking the relay came to, where it was asked. -/
def relayed (t : List (Exchange RpcCall)) : List RelayExchange :=
  t.filterMap fun
    | ⟨.relay _, exchange⟩ => some exchange
    | _ => none

section

variable {tried : List String} {kind chosen : Option String} {provider method : String}
  {wait : Option Duration} {answer : ProviderAnswer} {exchange : RelayExchange}
  {t : List (Exchange RpcCall)}

@[simp] theorem posted_nil : posted [] = [] := rfl

@[simp] theorem relayed_nil : relayed [] = [] := rfl

@[simp] theorem posted_select : posted (⟨.selectProvider tried kind, chosen⟩ :: t) = posted t := rfl

@[simp] theorem posted_canExecute : posted (⟨.canExecute provider, wait⟩ :: t) = posted t := rfl

@[simp] theorem posted_post :
    posted (⟨.post provider method, answer⟩ :: t) = answer :: posted t := rfl

@[simp] theorem relayed_select : relayed (⟨.selectProvider tried kind, chosen⟩ :: t) = relayed t :=
  rfl

@[simp] theorem relayed_canExecute : relayed (⟨.canExecute provider, wait⟩ :: t) = relayed t := rfl

@[simp] theorem relayed_post : relayed (⟨.post provider method, answer⟩ :: t) = relayed t := rfl

@[simp] theorem posted_inPaperScope {scope : Bool} :
    posted (⟨.inPaperScope, scope⟩ :: t) = posted t := rfl

@[simp] theorem relayed_inPaperScope {scope : Bool} :
    relayed (⟨.inPaperScope, scope⟩ :: t) = relayed t := rfl

@[simp] theorem posted_relayChoice {choice : RelayChoice} :
    posted (⟨.relayChoice, choice⟩ :: t) = posted t := rfl

@[simp] theorem relayed_relayChoice {choice : RelayChoice} :
    relayed (⟨.relayChoice, choice⟩ :: t) = relayed t := rfl

@[simp] theorem posted_append {t' : List (Exchange RpcCall)} :
    posted (t ++ t') = posted t ++ posted t' := List.filterMap_append

@[simp] theorem relayed_append {t' : List (Exchange RpcCall)} :
    relayed (t ++ t') = relayed t ++ relayed t' := List.filterMap_append

/-- Only the relay and the providers are attempts. -/
theorem delivers_eq_false_iff :
    (∀ exchange ∈ t, delivers exchange = false) ↔
      (∀ answer ∈ posted t, answer.mayHaveDelivered = false) ∧
        ∀ exchange ∈ relayed t, exchange.mayHaveDelivered = false := by
  induction t with
  | nil => simp [posted, relayed]
  | cons exchange t ih =>
    rw [List.forall_mem_cons, ih]
    obtain ⟨effect, answer⟩ := exchange
    cases effect with
    | relay method =>
      change _ ↔ _ ∧ ∀ exchange ∈ answer :: relayed t, _
      rw [List.forall_mem_cons]
      exact and_left_comm
    | post provider method =>
      rw [posted_post, relayed_post, List.forall_mem_cons]
      exact and_assoc.symm
    | _ => exact and_iff_right rfl

end

/-- A bad gateway of the relay that is taken for a proof of no delivery and is none. -/
def RelayExchange.unproven : RelayExchange → Bool
  | .failed _ => false
  | .answered answer =>
      answer.status == 502 &&
        ((answer.body.code == some "rpc_error" && answer.body.afterDelivery != some true &&
            (answer.body.afterDelivery == none || !answer.body.nodeError.isSendRefusal)) ||
          (answer.body.code == some "relay_unavailable" && answer.body.afterDelivery == none))

/-- A bad gateway that does not say whether an attempt delivered, and that the service route reads
as the refusal of the send. -/
def RelayExchange.silent : RelayExchange → Bool
  | .failed _ => false
  | .answered answer =>
      answer.status == 502 && answer.body.afterDelivery == none &&
        ((answer.body.code == some "rpc_error" && answer.body.nodeError.isSendRefusal) ||
          answer.body.code == some "relay_unavailable")

theorem refuses_of_read_error {providerId : String} {answer : ProviderAnswer} {error : RpcError}
    (h : answer.read providerId = .error error) : error.isSendRefusal = answer.refuses := by
  cases answer with
  | failed isTimeout isConnect message =>
    cases isTimeout <;> cases isConnect <;> cases h <;> rfl
  | status httpStatus retryAfter summary =>
    cases h
    exact RpcError.isSendRefusal_fromHttpResponse
  | notJson | noResult =>
    cases h
    rfl
  | error code message data =>
    cases h
    rfl
  | result value => cases h

theorem refuses_of_read_ok {providerId : String} {answer : ProviderAnswer} {value : RpcValue}
    (h : answer.read providerId = .ok value) : answer.refuses = false := by
  cases answer with
  | error => cases h
  | _ => rfl

theorem not_mayHaveDelivered_of_refuses {answer : ProviderAnswer} (h : answer.refuses = true) :
    answer.mayHaveDelivered = false := by
  cases answer with
  | error code message data => simp [ProviderAnswer.mayHaveDelivered, h]
  | _ => cases h

/-- A refusal of a send answers for its call exactly when nothing was dispatched before it, and then
it is the answer of the first provider posted to. -/
theorem attempt_refused {kind : Option String} {attempts : ℕ} {tried : List String}
    {dispatched : ℕ} {lastError : Option RpcError}
    (hlast : ∀ e, lastError = some e → e.isSendRefusal = false)
    {t : List (Exchange RpcCall)} {r : Except RpcError RpcValue}
    (h : (attempt SEND kind attempts tried dispatched lastError).Answered t r) :
    relayed t = [] ∧
      ((∃ e, r = .error e ∧ e.isSendRefusal = true) ↔
        dispatched = 0 ∧ (posted t).head?.any ProviderAnswer.refuses = true) ∧
      ((∃ e, r = .error e ∧ e.isSendRefusal = true) → (posted t).length = 1) := by
  induction attempts generalizing tried dispatched lastError t with
  | zero =>
    obtain ⟨rfl, rfl⟩ := Program.answered_pure.mp h
    have hlast' : (lastError.getD (.noProvidersAvailable none)).isSendRefusal = false := by
      cases lastError with
      | none => rfl
      | some e => exact hlast e rfl
    simp [relayed, posted, hlast']
  | succ attempts ih =>
    obtain ⟨provider, t, rfl, hselected⟩ := Program.answered_perform_bind.mp h
    cases provider with
    | none =>
      obtain ⟨rfl, rfl⟩ := Program.answered_pure.mp hselected
      simp [relayed, posted, RpcError.isSendRefusal, RpcError.isRequestRejection,
        RpcError.isPreflightRefusal]
    | some provider =>
      obtain ⟨waitTime, t, rfl, hbreaker⟩ := Program.answered_perform_bind.mp hselected
      cases waitTime with
      | some waitTime =>
        have hopen : ∀ e, some (RpcError.circuitOpen provider waitTime) = some e →
            e.isSendRefusal = false := by
          rintro e ⟨⟩
          rfl
        simpa using ih hopen hbreaker
      | none =>
        obtain ⟨t₁, result, t₂, rfl, hpost, hresult⟩ := Program.answered_bind.mp hbreaker
        obtain ⟨answer, t₁, rfl, hread⟩ := Program.answered_perform_bind.mp hpost
        obtain ⟨rfl, rfl⟩ := Program.answered_pure.mp hread
        cases hanswer : answer.read provider with
        | ok value =>
          rw [hanswer] at hresult
          obtain ⟨rfl, rfl⟩ := Program.answered_pure.mp hresult
          have hserved : answer.refuses = false := refuses_of_read_ok hanswer
          simp [relayed, posted, hserved]
        | error e =>
          rw [hanswer] at hresult
          have hrefuses : e.isSendRefusal = answer.refuses := refuses_of_read_error hanswer
          simp only at hresult
          split at hresult
          next hretry =>
            -- a retried error is no refusal, and the attempts after it start from a later count
            have he := RpcError.not_isSendRefusal_of_isRetryable hretry
            have hrec := ih (fun e' he' => by cases he'; exact he) hresult
            obtain ⟨hrelayed, hiff, hlength⟩ := hrec
            have hnone : ¬∃ e, r = .error e ∧ e.isSendRefusal = true := by
              rw [hiff]
              omega
            rw [hrefuses] at he
            simp [hrelayed, hnone, he]
          next hfinal =>
            split at hresult
            next hanswers =>
              obtain ⟨rfl, rfl⟩ := Program.answered_pure.mp hresult
              simp only [refusalAnswersForCall, isSend, BEq.rfl, Bool.not_true, Bool.false_or,
                Bool.or_eq_true, beq_iff_eq, Bool.not_eq_true', hrefuses] at hanswers
              simp only [relayed, posted]
              rcases hanswers with rfl | hanswers
              · simp [hrefuses]
              · simp [hrefuses, hanswers]
            next hanswers =>
              obtain ⟨rfl, rfl⟩ := Program.answered_pure.mp hresult
              simp only [refusalAnswersForCall, isSend, BEq.rfl, Bool.not_true, Bool.false_or,
                Bool.or_eq_true, beq_iff_eq, Bool.not_eq_true', hrefuses, not_or] at hanswers
              simp [relayed, posted, hanswers]

/-- A relay outcome lets a send fall through only with nothing counted as dispatched, and then it
may have delivered exactly where its bad gateway is no proof; an outcome it returns is no
refusal. -/
theorem relayFallthrough_classify (exchange : RelayExchange) :
    match relayFallthrough SEND (exchange.classify SEND) with
    | .continue_ delivered => delivered = 0 ∧ exchange.mayHaveDelivered = exchange.unproven
    | .return_ result => (∀ e, result = .error e → e.isSendRefusal = false) ∧
        exchange.unproven = false := by
  cases exchange with
  | failed isConnect => cases isConnect <;>
      simp [RelayExchange.classify, classifyTransportFailure, relayFallthrough, isSend,
        RelayExchange.mayHaveDelivered, RelayExchange.unproven]
  | answered answer =>
    obtain ⟨status, body, header, midnight⟩ := answer
    simp only [RelayExchange.classify, classifyResponse, RelayExchange.mayHaveDelivered,
      RelayAnswer.mayHaveDelivered, RelayExchange.unproven]
    by_cases hok : 200 ≤ status ∧ status < 300
    · have h502 : status ≠ 502 := by omega
      cases body.result <;>
        simp [hok, h502, relayFallthrough, isSend]
    by_cases h502 : status = 502
    · subst h502
      cases hcode : body.code with
      | none => simp [relayFallthrough, isSend]
      | some code =>
        by_cases hrpc : code = "rpc_error"
        · rcases hafter : body.afterDelivery with _ | _ | _ <;>
            simp [relayFallthrough, isSend, hrpc]
        by_cases hlost : code = "relay_unavailable"
        · rcases hafter : body.afterDelivery with _ | _ | _ <;>
            simp [relayFallthrough, isSend, hlost]
        · simp [relayFallthrough, isSend, hrpc, hlost]
    by_cases hclient : (400 ≤ status ∧ status < 500) ∨ status = 503
    · simp only [hok, h502, hclient, if_false, if_true]
      have hunsent : ∀ relayed, (∃ error, relayed = Relayed.refused error false) ∨
          relayed = .unanswered false ∨ (∃ refusal, relayed = .notAsked refusal) →
          relayFallthrough SEND relayed = .continue_ 0 := by
        rintro relayed (⟨error, rfl⟩ | rfl | ⟨refusal, rfl⟩) <;> rfl
      rw [hunsent]
      · simp [h502]
      split
      next => exact .inl ⟨_, rfl⟩
      split
      next => exact .inr (.inl rfl)
      next => exact .inr (.inr ⟨_, rfl⟩)
    · have hparam : status ≠ 400 := by omega
      simp [hok, h502, hclient, hparam, relayFallthrough, isSend]

/-- The runs of the relay: its exchange, where the machine is online and signed in. -/
theorem relay_answered {method : String} {t : List (Exchange RpcCall)} {outcome : Relayed}
    (h : (relay method).Answered t outcome) :
    posted t = [] ∧ ((relayed t = [] ∧ ∃ refusal, outcome = .notAsked refusal) ∨
      ∃ exchange, relayed t = [exchange] ∧ outcome = exchange.classify method) := by
  obtain ⟨offline, t, rfl, honline⟩ := Program.answered_perform_bind.mp h
  cases offline with
  | true =>
    obtain ⟨rfl, rfl⟩ := Program.answered_pure.mp honline
    exact ⟨rfl, .inl ⟨rfl, _, rfl⟩⟩
  | false =>
    obtain ⟨token, t, rfl, hsigned⟩ := Program.answered_perform_bind.mp honline
    cases token with
    | none =>
      obtain ⟨rfl, rfl⟩ := Program.answered_pure.mp hsigned
      exact ⟨rfl, .inl ⟨rfl, _, rfl⟩⟩
    | some token =>
      obtain ⟨exchange, t, rfl, hasked⟩ := Program.answered_perform_bind.mp hsigned
      obtain ⟨rfl, rfl⟩ := Program.answered_pure.mp hasked
      exact ⟨rfl, .inr ⟨exchange, rfl, rfl⟩⟩

/-- Inside a paper scope a send stops before any attempt. -/
theorem refuseSendInPaperScope_answered {t : List (Exchange RpcCall)} {r : Except RpcError Unit}
    (h : Attempt.Answered (refuseSendInPaperScope SEND) t r) :
    posted t = [] ∧ relayed t = [] ∧ (r = .ok () ∨ r = .error .paperScopeRefused) := by
  obtain ⟨scope, t, rfl, hscope⟩ := Attempt.answered_ask_bind.mp h
  cases scope with
  | true =>
    obtain ⟨rfl, rfl⟩ := Attempt.answered_throw.mp hscope
    exact ⟨rfl, rfl, .inr rfl⟩
  | false =>
    obtain ⟨rfl, rfl⟩ := Attempt.answered_pure.mp hscope
    exact ⟨rfl, rfl, .inl rfl⟩

/-- The runs of a send over the own RPC: refused in a paper scope, settled by the relay with an
outcome that is no refusal, or carried on by the providers with nothing counted as dispatched. -/
theorem executeRaw_answered {maxRetries : ℕ} {t : List (Exchange RpcCall)}
    {r : Except RpcError RpcValue} (h : Attempt.Answered (executeRaw maxRetries SEND) t r) :
    (posted t = [] ∧ relayed t = []) ∨
    (posted t = [] ∧ ∀ e, r = .error e → e.isSendRefusal = false) ∨
    ∃ t', (executeRawRestricted maxRetries SEND none 0).Answered t' r ∧ posted t = posted t' ∧
      ∀ exchange ∈ relayed t, exchange.mayHaveDelivered = exchange.unproven := by
  rcases Attempt.answered_bind.mp h with ⟨e, rfl, hpaper⟩ | ⟨t₁, scope, t₂, rfl, hpaper, hchoice⟩
  · obtain ⟨hposted, hrelayed, -⟩ := refuseSendInPaperScope_answered hpaper
    exact .inl ⟨hposted, hrelayed⟩
  obtain ⟨hposted, hrelayed, -⟩ := refuseSendInPaperScope_answered hpaper
  obtain ⟨choice, t₂, rfl, hrun⟩ := Attempt.answered_ask_bind.mp hchoice
  split at hrun
  next hrelay =>
    obtain ⟨t₃, outcome, t₄, rfl, hasked, hrest⟩ := Attempt.answered_lift_bind.mp hrun
    obtain ⟨hnone, hexchange⟩ := relay_answered hasked
    rcases hexchange with ⟨hunasked, refusal, rfl⟩ | ⟨exchange, hone, rfl⟩
    · -- not asked: nothing was dispatched
      have hrestricted : relayed t₄ = [] := (attempt_refused (by simp) hrest).1
      refine .inr (.inr ⟨t₄, hrest, ?_, ?_⟩)
      · simp [hposted, hnone]
      · simp [hrelayed, hunasked, hrestricted]
    · have hclass := relayFallthrough_classify exchange
      cases hfall : relayFallthrough SEND (exchange.classify SEND) with
      | return_ result =>
        rw [hfall] at hclass hrest
        obtain ⟨rfl, rfl⟩ := Program.answered_pure.mp hrest
        exact .inr (.inl ⟨by simp [hposted, hnone], hclass.1⟩)
      | continue_ delivered =>
        rw [hfall] at hclass hrest
        obtain ⟨rfl, hmay⟩ := hclass
        have hrestricted : relayed t₄ = [] := (attempt_refused (by simp) hrest).1
        refine .inr (.inr ⟨t₄, hrest, ?_, ?_⟩)
        · simp [hposted, hnone]
        · simp [hrelayed, hone, hrestricted, hmay]
  next hown =>
    have hrestricted : relayed t₂ = [] := (attempt_refused (by simp) hrun).1
    refine .inr (.inr ⟨t₂, hrun, ?_, ?_⟩)
    · simp [hposted]
    · simp [hrelayed, hrestricted]

theorem refusalSound_rpc {t : List (Exchange RpcCall)} {r : Except RpcError RpcValue} :
    RefusalSound t (r.mapError .rpc) ↔
      ((∃ e, r = .error e ∧ e.isSendRefusal = true) → ∀ exchange ∈ t,
        delivers exchange = false) := by
  cases r with
  | ok value => simp [RefusalSound, Except.mapError]
  | error e => simp [RefusalSound, Except.mapError, notSent_rpc]

/-- A refused send over the own RPC proves that nothing was delivered, unless its relay answered
with a bad gateway that proves nothing and the first provider then refused. -/
theorem executeRaw_refusalSound {maxRetries : ℕ} {t : List (Exchange RpcCall)}
    {r : Except RpcError RpcValue} (h : Attempt.Answered (executeRaw maxRetries SEND) t r) :
    RefusalSound t (r.mapError .rpc) ↔
      ¬((posted t).head?.any ProviderAnswer.refuses = true ∧
        ∃ exchange ∈ relayed t, exchange.unproven = true) := by
  rcases executeRaw_answered h with ⟨hposted, hrelayed⟩ | ⟨hposted, hanswered⟩ |
    ⟨t', hrun, hposted, hrelayed⟩
  · have hnone : ∀ exchange ∈ t, delivers exchange = false :=
      delivers_eq_false_iff.mpr ⟨by simp [hposted], by simp [hrelayed]⟩
    rw [refusalSound_rpc]
    exact ⟨fun _ => by simp [hposted], fun _ _ => hnone⟩
  · rw [refusalSound_rpc]
    have hno : ¬∃ e, r = .error e ∧ e.isSendRefusal = true := by
      rintro ⟨e, he, href⟩
      rw [hanswered e he] at href
      cases href
    simp [hposted, hno]
  · obtain ⟨-, hiff, hlength⟩ := attempt_refused (by simp) hrun
    rw [refusalSound_rpc, hposted]
    simp only [true_and] at hiff
    constructor
    · rintro hsound ⟨hrefuses, exchange, hexchange, hunproven⟩
      have hnone := (delivers_eq_false_iff.mp (hsound (hiff.mpr hrefuses))).2 exchange hexchange
      rw [hrelayed exchange hexchange, hunproven] at hnone
      cases hnone
    · intro hproven hrefused
      have hfirst := hiff.mp hrefused
      -- the refusing provider is the only one that was posted to
      obtain ⟨answer, hanswer⟩ := List.length_eq_one_iff.mp (hlength hrefused)
      rw [hanswer] at hfirst
      refine delivers_eq_false_iff.mpr ⟨?_, ?_⟩
      · rw [hposted, hanswer]
        simpa using not_mayHaveDelivered_of_refuses (by simpa using hfirst)
      · intro exchange hexchange
        rw [hrelayed exchange hexchange]
        by_contra hunproven
        exact hproven ⟨hiff.mp hrefused, exchange, hexchange, by simpa using hunproven⟩

/-- The service route reads an answer of the relay that may have delivered the send as its refusal
exactly where the bad gateway is silent about delivery. -/
theorem serviceOutcome_classify (exchange : RelayExchange) :
    ((∃ e, serviceOutcome SEND (exchange.classify SEND) = .error e ∧ e.NotSent) ∧
      exchange.mayHaveDelivered = true) ↔ exchange.silent = true := by
  cases exchange with
  | failed isConnect => cases isConnect <;>
      simp [RelayExchange.classify, classifyTransportFailure, serviceOutcome, notSent_rpc,
        RelayExchange.mayHaveDelivered, RelayExchange.silent]
  | answered answer =>
    obtain ⟨status, body, header, midnight⟩ := answer
    simp only [RelayExchange.classify, classifyResponse, RelayExchange.mayHaveDelivered,
      RelayAnswer.mayHaveDelivered, RelayExchange.silent]
    by_cases hok : 200 ≤ status ∧ status < 300
    · have h502 : status ≠ 502 := by omega
      cases body.result <;> simp [hok, h502, serviceOutcome, notSent_rpc]
    by_cases h502 : status = 502
    · subst h502
      cases hcode : body.code with
      | none => simp [serviceOutcome, notSent_rpc]
      | some code =>
        by_cases hrpc : code = "rpc_error"
        · rcases hafter : body.afterDelivery with _ | _ | _ <;>
            simp [serviceOutcome, isSend, hrpc, notSent_rpc]
        by_cases hlost : code = "relay_unavailable"
        · rcases hafter : body.afterDelivery with _ | _ | _ <;>
            simp [serviceOutcome, hlost, notSent_rpc, notSent_chains, ChainsError.isAccessRefusal]
        · simp [serviceOutcome, hrpc, hlost, notSent_rpc]
    by_cases hclient : (400 ≤ status ∧ status < 500) ∨ status = 503
    · simp [hclient, h502]
    · have hparam : status ≠ 400 := by omega
      simp [hok, h502, hclient, hparam, serviceOutcome, notSent_rpc]

/-- A refused send over the service proves that nothing was delivered, unless the relay's bad
gateway is silent about delivery. -/
theorem serviceRelay_refusalSound {t : List (Exchange RpcCall)} {r : Except CallError RpcValue}
    (h : Attempt.Answered (serviceRelay SEND) t r) :
    RefusalSound t r ↔ ∀ exchange ∈ relayed t, exchange.silent = false := by
  rcases Attempt.answered_bind.mp h with ⟨e, rfl, hpaper⟩ | ⟨t₁, scope, t₂, rfl, hpaper, hrun⟩
  · obtain ⟨outcome, hscope, houtcome⟩ := Program.answered_map.mp hpaper
    obtain ⟨hposted, hrelayed, -⟩ := refuseSendInPaperScope_answered hscope
    have hnone : ∀ exchange ∈ t, delivers exchange = false :=
      delivers_eq_false_iff.mpr ⟨by simp [hposted], by simp [hrelayed]⟩
    exact ⟨fun _ => by simp [hrelayed], fun _ _ _ _ => hnone⟩
  obtain ⟨outcome, hscope, houtcome⟩ := Program.answered_map.mp hpaper
  obtain ⟨hposted, hrelayed, -⟩ := refuseSendInPaperScope_answered hscope
  obtain ⟨t₃, outcome, t₄, rfl, hasked, hrest⟩ := Attempt.answered_lift_bind.mp hrun
  obtain ⟨rfl, rfl⟩ := Program.answered_pure.mp hrest
  rw [List.append_nil]
  obtain ⟨hnone, ⟨hunasked, refusal, rfl⟩ | ⟨exchange, hone, rfl⟩⟩ := relay_answered hasked
  · have hnone : ∀ exchange ∈ t₁ ++ t₃, delivers exchange = false :=
      delivers_eq_false_iff.mpr ⟨by simp [hposted, hnone], by simp [hrelayed, hunasked]⟩
    exact ⟨fun _ => by simp [hrelayed, hunasked], fun _ _ _ _ => hnone⟩
  · have hdelivers : (∀ sent ∈ t₁ ++ t₃, delivers sent = false) ↔
        exchange.mayHaveDelivered = false := by
      rw [delivers_eq_false_iff]
      simp [hposted, hnone, hrelayed, hone]
    have hsilent := serviceOutcome_classify exchange
    simp only [RefusalSound, hdelivers, relayed_append, hrelayed, hone,
      List.nil_append, List.mem_singleton, forall_eq]
    constructor
    · intro hsound
      by_contra hloud
      obtain ⟨⟨e, he, hnotsent⟩, hmay⟩ := hsilent.mpr (by simpa using hloud)
      rw [hsound e he hnotsent] at hmay
      cases hmay
    · intro hloud e he hnotsent
      by_contra hmay
      have := hsilent.mp ⟨⟨e, he, hnotsent⟩, by simpa using hmay⟩
      rw [hloud] at this
      cases this

/-- A send read as never sent was delivered by none of its attempts: over the own RPC unless a bad
gateway of the relay that proves nothing is followed by the refusal of the first provider, over the
service unless the bad gateway is silent about delivery. -/
theorem send_refusal_sound (maxRetries : ℕ) (t : List (Exchange RpcCall)) :
    (∀ r : Except RpcError RpcValue,
      Attempt.Answered (executeRaw maxRetries SEND) t r →
        (RefusalSound t (r.mapError .rpc) ↔
          ¬((posted t).head?.any ProviderAnswer.refuses = true ∧
            ∃ exchange ∈ relayed t, exchange.unproven = true))) ∧
    (∀ r : Except CallError RpcValue,
      Attempt.Answered (serviceRelay SEND) t r →
        (RefusalSound t r ↔ ∀ exchange ∈ relayed t, exchange.silent = false)) :=
  ⟨fun _ => executeRaw_refusalSound, fun _ => serviceRelay_refusalSound⟩

/-- The calls of a send over the own RPC whose relay node answers with `code`, and whose first
provider refuses the parameters. -/
def relayedRun (code : ℤ) : List (Exchange RpcCall) :=
  [⟨.inPaperScope, false⟩, ⟨.relayChoice, ⟨false, true, true, true⟩⟩, ⟨.isNetworkOffline, false⟩,
    ⟨.accessToken, some "token"⟩,
    ⟨.relay SEND, .answered { status := 502, body := {
      code := some "rpc_error", afterDelivery := some false, rpcCode := some code } }⟩,
    ⟨.selectProvider [] none, some "primary"⟩, ⟨.canExecute "primary", none⟩,
    ⟨.post "primary" SEND, .error (some (-32602)) (some "invalid transaction") none⟩]

theorem relayedRun_answered (code : ℤ) :
    Attempt.Answered (executeRaw 3 SEND) (relayedRun code)
      (.error (.providerError (-32602) "invalid transaction" none)) := by
  have hread : (ProviderAnswer.error (some (-32602)) (some "invalid transaction") none).read
      "primary" = .error (.providerError (-32602) "invalid transaction" none) := by decide +kernel
  refine .call _ (.call _ (.call _ (.call _ (.call _ (.call _ (.call _ (.call _ ?_)))))))
  refine Program.answered_bind.mpr ⟨[], _, [], rfl, .done _, ?_⟩
  rw [hread]
  exact .done _

/-- The relay's node refused the send itself; over the service, an offline machine sends nothing. -/
theorem refused_through_relay :
    RefusalSound (relayedRun (-32002)) (.error (.rpc
      (.providerError (-32602) "invalid transaction" none))) ∧
    RefusalSound [⟨.inPaperScope, false⟩, ⟨.isNetworkOffline, true⟩]
      (.error (.chains .serviceNotContacted)) :=
  ⟨((send_refusal_sound 3 (relayedRun (-32002))).1 _ (relayedRun_answered _)).mpr
      (by decide +kernel),
    ((send_refusal_sound 3 [⟨.inPaperScope, false⟩, ⟨.isNetworkOffline, true⟩]).2 _
      (.call false (.call true (.done _)))).mpr (by simp [relayed])⟩

/-- An internal error of the relay's node proves nothing, and the refusal of the provider asked next
is read as a send that never went out. -/
theorem internal_error_through_relay :
    ¬∀ (maxRetries : ℕ) (t : List (Exchange RpcCall)) (r : Except RpcError RpcValue),
      Attempt.Answered (executeRaw maxRetries SEND) t r → RefusalSound t (r.mapError .rpc) := by
  intro h
  have hsound := h 3 (relayedRun (-32603)) _ (relayedRun_answered _)
  have hdelivers := hsound _ rfl (notSent_rpc.mpr (by decide)) _
    (.tail _ (.tail _ (.tail _ (.tail _ (.head _)))))
  revert hdelivers
  decide +kernel

end ScreenerBot.Rpc
