import ScreenerBot.Rpc.Manager

/-! Chain access over the service: the errors of the chain layer, and the relay as the only way to
send. -/
namespace ScreenerBot.Rpc

open Library

/-- The errors of the chain layer a send can meet; the others are told apart by nothing. -/
inductive ChainsError where
  | capabilityUnavailable (capability : String)
  | serviceSignInRequired
  | serviceScopeMissing (scope : String)
  | serviceBusy (retryAfter : Duration)
  | serviceDailyLimit (retryAfter : Duration)
  | serviceVersionUnsupported (minimum : String)
  | serviceRequestRefused (code : String)
  | serviceUnreachable (detail : String)
  | serviceNotContacted
  | notTradingWallet (address : String)
  | other (message : String)
  deriving DecidableEq, Repr

namespace ChainsError

/-- A refusal by the chain access layer itself: the request was never handed to a node. -/
def isAccessRefusal : ChainsError → Bool
  | capabilityUnavailable .. | serviceSignInRequired | serviceScopeMissing .. | serviceBusy ..
  | serviceDailyLimit .. | serviceVersionUnsupported .. | serviceRequestRefused ..
  | serviceNotContacted | notTradingWallet .. => true
  | serviceUnreachable .. | other .. => false

def display : ChainsError → String
  | capabilityUnavailable capability =>
      s!"solana access in this mode does not provide {capability}"
  | serviceSignInRequired => "solana service access needs a signed-in account"
  | serviceScopeMissing scope => s!"solana service access needs the '{scope}' scope on this device"
  | serviceBusy retryAfter => s!"the solana service is busy; retry after {retryAfter.asSecs}s"
  | serviceDailyLimit retryAfter =>
      s!"the solana service daily limit is reached; retry after {retryAfter.asSecs}s"
  | serviceVersionUnsupported minimum =>
      s!"the solana service requires app version {minimum} or newer"
  | serviceRequestRefused code => s!"the solana service refused the request: {code}"
  | serviceUnreachable detail => s!"the solana service did not answer: {detail}"
  | serviceNotContacted => "the solana service was not contacted: the network is offline"
  | notTradingWallet address =>
      s!"solana service reads cover the trading wallet only, not '{address}'"
  | other message => message

end ChainsError

/-- The error of a node call; an error of neither kind is told apart by nothing. -/
inductive CallError where
  | rpc (error : RpcError)
  | chains (error : ChainsError)
  | other (detail : String)
  deriving DecidableEq, Repr

def CallError.display : CallError → String
  | .rpc error => error.display
  | .chains error => error.display
  | .other detail => detail

inductive ServiceState where
  | checking
  | ready
  | signInRequired
  | reauthorizationRequired
  | busy (retryAfterSecs : ℕ)
  | dailyLimit (retryAfterSecs : ℕ)
  | unreachable
  | versionUnsupported (minimum : String)
  deriving DecidableEq, Repr

def CHAIN_READ_SCOPE : String := "chain:read"

/-- The error a request refused in this state reports. -/
def ServiceState.refusal : ServiceState → Option ChainsError
  | checking | ready => none
  | signInRequired => some .serviceSignInRequired
  | reauthorizationRequired => some (.serviceScopeMissing CHAIN_READ_SCOPE)
  | busy retryAfterSecs => some (.serviceBusy (.fromSecs retryAfterSecs))
  | dailyLimit retryAfterSecs => some (.serviceDailyLimit (.fromSecs retryAfterSecs))
  | unreachable => some (.serviceUnreachable "no answer")
  | versionUnsupported minimum => some (.serviceVersionUnsupported minimum)

/-- The service state a refusal reveals; `none` for a refusal about one request. -/
def stateFor : ServiceRefusal → Option ServiceState
  | .signedOut => some .signInRequired
  | .reauthorizationRequired | .chainScopeMissing => some .reauthorizationRequired
  | .versionUnsupported minimum => some (.versionUnsupported minimum)
  | .busy retryAfter => some (.busy retryAfter.asSecs)
  | .dailyLimit retryAfter => some (.dailyLimit retryAfter.asSecs)
  | .disabled | .offline | .unreachable => some .unreachable
  | .walletChangeLimited _ | .walletNotBound | .notFound | .invalid _ | .unreadable => none

def mapServiceRefusal (refusal : ServiceRefusal) : ChainsError :=
  match refusal with
  | .disabled | .offline => .serviceNotContacted
  | refusal =>
    match (stateFor refusal).bind ServiceState.refusal, refusal with
    | some error, _ => error
    | none, .walletChangeLimited _ => .serviceRequestRefused "wallet_change_limited"
    | none, .walletNotBound => .serviceRequestRefused "wallet_not_bound"
    | none, .notFound => .serviceRequestRefused "not_found"
    | none, .invalid code => .serviceRequestRefused code
    | none, _ => .serviceUnreachable "the service answer could not be read"

/-- What the service backend makes of a relay outcome. -/
def serviceOutcome (method : String) : Relayed → Except CallError RpcValue
  | .answered result => .ok result
  | .notAsked refusal => .error (.chains (mapServiceRefusal refusal))
  | .refused error afterDelivery =>
      if afterDelivery && isSend method then .error (.rpc (.refusedAfterDelivery 1 error))
      else .error (.rpc error)
  | .unanswered true =>
      .error (.rpc (.network s!"the submission relay did not answer {method}" true))
  | .unanswered false => .error (.chains (.serviceRequestRefused "relay_unavailable"))

/-- Sends through the relay and maps the outcome. -/
def serviceRelay (method : String) : Attempt RpcCall CallError RpcValue := do
  ExceptT.mk ((Except.mapError CallError.rpc) <$> (refuseSendInPaperScope method).run)
  let relayed ← ExceptT.lift (relay method)
  ExceptT.mk (pure (serviceOutcome method relayed))

end ScreenerBot.Rpc
