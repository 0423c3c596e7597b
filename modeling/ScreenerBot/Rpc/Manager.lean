import ScreenerBot.Rpc.Gateway
import ScreenerBot.Library.Transcript

/-! One JSON-RPC call over the relay and the configured providers, with its retries. -/
namespace ScreenerBot.Rpc

open Library

def isSend (method : String) : Bool := method == "sendTransaction"

/-- Whether a node's refusal answers for the whole call. -/
def refusalAnswersForCall (method : String) (dispatched : ℕ) (error : RpcError) : Bool :=
  !isSend method || dispatched == 0 || !error.isSendRefusal

/-- What the own-RPC path does after a relay attempt. -/
inductive RelayFallthrough where
  | return_ (result : Except RpcError RpcValue)
  | continue_ (delivered : ℕ)

/-- Decides whether a relay outcome lets the call fall through to the own RPC. -/
def relayFallthrough (method : String) : Relayed → RelayFallthrough
  | .answered result => .return_ (.ok result)
  | .notAsked _ | .unanswered false | .refused _ false => .continue_ 0
  | .refused error true =>
      if isSend method then .return_ (.error (.refusedAfterDelivery 1 error)) else .continue_ 1
  | .unanswered true =>
      if isSend method then
        .return_ (.error (.network
          "the submission relay did not answer after it may have forwarded the send" true))
      else .continue_ 1

/-- What a provider's HTTP answer amounts to. -/
def ProviderAnswer.read (providerId : String) : ProviderAnswer → Except RpcError RpcValue
  | .failed true _ message => .error (.network message true)
  | .failed false true message => .error (.network s!"Connection failed: {message}" false)
  | .failed false false message => .error (.network message false)
  | .status httpStatus retryAfter summary =>
      .error (.fromHttpResponse httpStatus retryAfter summary providerId)
  | .notJson detail => .error (.invalidResponse s!"Invalid JSON: {detail}")
  | .error code message data =>
      .error (.fromJsonrpcError (code.getD (-1)) (message.getD "Unknown error") data)
  | .result value => .ok value
  | .noResult => .error (.invalidResponse "Missing result field")

def executeSingle (provider method : String) : Program RpcCall (Except RpcError RpcValue) := do
  let answer ← Program.perform (.post provider method)
  return answer.read provider

/-- The attempts a call still has: `attempts` of them, after `dispatched` that already left the
machine without an answer. -/
def attempt (method : String) (requiredKind : Option String) :
    ℕ → List String → ℕ → Option RpcError → Program RpcCall (Except RpcError RpcValue)
  | 0, _, _, lastError => return .error (lastError.getD (.noProvidersAvailable none))
  | attempts + 1, triedProviders, dispatched, lastError => do
    match ← Program.perform (.selectProvider triedProviders requiredKind) with
    | none => return .error (.noProvidersAvailable (lastError.map RpcError.display))
    | some provider =>
      let triedProviders := triedProviders ++ [provider]
      match ← Program.perform (.canExecute provider) with
      | some waitTime =>
        attempt method requiredKind attempts triedProviders dispatched
          (some (.circuitOpen provider waitTime))
      | none =>
        match ← executeSingle provider method with
        | .ok result => return .ok result
        | .error e =>
          if e.isRetryable then
            attempt method requiredKind attempts triedProviders (dispatched + 1) (some e)
          else if refusalAnswersForCall method dispatched e then return .error e
          else return .error (.refusedAfterDelivery dispatched e)

def executeRawRestricted (maxRetries : ℕ) (method : String) (requiredKind : Option String)
    (dispatched : ℕ) : Program RpcCall (Except RpcError RpcValue) :=
  attempt method requiredKind (maxRetries + 1) [] dispatched none

/-- Paper trading never sends: a send inside a paper scope is refused before any call. -/
def refuseSendInPaperScope (method : String) : Attempt RpcCall RpcError Unit := do
  if (← Attempt.ask .inPaperScope) && isSend method then throw .paperScopeRefused

/-- Execute a raw JSON-RPC request with automatic retries and failover. -/
def executeRaw (maxRetries : ℕ) (method : String) : Attempt RpcCall RpcError RpcValue := do
  refuseSendInPaperScope method
  let choice ← Attempt.ask .relayChoice
  if shouldRelay choice method then
    match relayFallthrough method (← ExceptT.lift (relay method)) with
    | .return_ result => ExceptT.mk (pure result)
    | .continue_ delivered => ExceptT.mk (executeRawRestricted maxRetries method none delivered)
  else ExceptT.mk (executeRawRestricted maxRetries method none 0)

end ScreenerBot.Rpc
