import ScreenerBot.Library.Process
import ScreenerBot.Rpc.Errors

/-! The submission relay: what it is asked, and what its answer says of the request. -/
namespace ScreenerBot.Rpc

open Library

/-- The value of a JSON-RPC result, kept as its text. -/
abbrev RpcValue := String

/-- Why the service did not serve a request. -/
inductive ServiceRefusal where
  | disabled
  | offline
  | signedOut
  | reauthorizationRequired
  | chainScopeMissing
  | versionUnsupported (minimum : String)
  | busy (retryAfter : Duration)
  | dailyLimit (retryAfter : Duration)
  | walletChangeLimited (retryAfter : Duration)
  | walletNotBound
  | notFound
  | invalid (code : String)
  | unreachable
  | unreadable
  deriving DecidableEq, Repr

/-- What a relay attempt came to. -/
inductive Relayed where
  | answered (result : RpcValue)
  | refused (error : RpcError) (afterDelivery : Bool)
  | unanswered (maybeDelivered : Bool)
  | notAsked (refusal : ServiceRefusal)
  deriving DecidableEq, Repr

/-- The fields of a relay body, absent where the body has none of the right type. -/
structure RelayBody where
  result : Option RpcValue := none
  afterDelivery : Option Bool := none
  code : Option String := none
  rpcCode : Option ℤ := none
  rpcMessage : Option String := none
  rpcData : Option String := none
  error : Option String := none
  retryAfter : Option ℕ := none
  deriving DecidableEq, Repr

/-- An HTTP answer of the relay. A body that is no JSON has no field. -/
structure RelayAnswer where
  status : ℕ
  body : RelayBody := {}
  retryAfterHeader : Option ℕ := none
  untilUtcMidnight : Duration := 0
  deriving DecidableEq, Repr

/-- What sending the relay request came to: an answer, or a transport failure. -/
inductive RelayExchange where
  | answered (answer : RelayAnswer)
  | failed (isConnect : Bool)
  deriving DecidableEq, Repr

def INVALID_PARAMS : ℤ := -32602

def RELAYED_METHODS : List String :=
  ["sendTransaction", "getLatestBlockhash", "getSignatureStatuses", "simulateTransaction",
    "getFeeForMessage"]

def isRelayable (method : String) : Bool := RELAYED_METHODS.contains method

/-- What decides that a call goes through the relay first. -/
structure RelayChoice where
  serviceMode : Bool
  useGatewayRpc : Bool
  signedIn : Bool
  submitScope : Bool

def shouldRelay (choice : RelayChoice) (method : String) : Bool :=
  isRelayable method && (choice.serviceMode || choice.useGatewayRpc) &&
    (choice.signedIn && choice.submitScope)

/-- A request that never got an HTTP answer. -/
def classifyTransportFailure (isConnect : Bool) : Relayed := .unanswered !isConnect

/-- The release a refusal asks for: the first word of its sentence that starts with a digit. -/
def minimumRelease (message : String) : Option String :=
  ((message.toList.splitOnP isWhitespace).find? (·.head?.any Char.isDigit)).map fun word =>
    String.ofList (word.rdropWhile fun c => c == '.' || c == ',')

inductive DataAccess where
  | ready
  | signedOut
  | reauthorizationRequired
  | versionUnsupported (minimum : String)
  | unreachable
  deriving DecidableEq, Repr

def accessForRefusal (status : ℕ) (code : String) (minimum : Option String) : DataAccess :=
  if code ∈ ["signin_required", "token_invalid", "token_expired", "token_wrong_audience"] then
    .signedOut
  else if code ∈ ["reauthorization_required", "scope_missing"] then .reauthorizationRequired
  else if code = "version_unsupported" then
    .versionUnsupported (minimum.getD "a newer release")
  else match status with
    | 401 => .signedOut
    | 403 => .reauthorizationRequired
    | 426 => .versionUnsupported (minimum.getD "a newer release")
    | 400 => .ready
    | _ => .unreachable

def RelayAnswer.retryAfter (answer : RelayAnswer) (fallback : Duration) : Duration :=
  ((answer.body.retryAfter <|> answer.retryAfterHeader).map Duration.fromSecs).getD fallback

def DEFAULT_RETRY_AFTER : Duration := .fromSecs 30

/-- Classifies a non-success answer of the service. -/
def classifyRefusal (answer : RelayAnswer) : ServiceRefusal :=
  let code := answer.body.code.getD ""
  if code = "chain_scope_missing" then .chainScopeMissing
  else if code ∈ ["service_busy", "chain_unavailable", "quota_exceeded"] then
    .busy (answer.retryAfter DEFAULT_RETRY_AFTER)
  else if code = "daily_limit" then .dailyLimit (answer.retryAfter answer.untilUtcMidnight)
  else if code = "wallet_change_limited" then
    .walletChangeLimited (answer.retryAfter answer.untilUtcMidnight)
  else if code = "wallet_not_bound" then .walletNotBound
  else match accessForRefusal answer.status code (answer.body.error.bind minimumRelease) with
    | .signedOut => .signedOut
    | .reauthorizationRequired => .reauthorizationRequired
    | .versionUnsupported minimum => .versionUnsupported minimum
    | .ready => .invalid code
    | .unreachable => if answer.status = 404 then .notFound else .unreachable

/-- The JSON-RPC error a node answered the relay with. -/
def RelayBody.nodeError (body : RelayBody) : RpcError :=
  .providerError (body.rpcCode.getD 0) (body.rpcMessage.getD "") body.rpcData

/-- Classifies an HTTP answer of the relay. -/
def classifyResponse (method : String) (answer : RelayAnswer) : Relayed :=
  let body := answer.body
  if 200 ≤ answer.status ∧ answer.status < 300 then
    match body.result with
    | some result => .answered result
    -- answered and unreadable: the relay may have forwarded it
    | none => .unanswered true
  else
    let code := body.code.getD ""
    if answer.status = 502 then
      if code = "rpc_error" then .refused body.nodeError (body.afterDelivery.getD false)
      else if code = "relay_unavailable" then .unanswered (body.afterDelivery.getD false)
      else .unanswered (method == "sendTransaction")
    else if answer.status = 400 ∧ code = "param_refused" then
      .refused (.providerError INVALID_PARAMS
        (body.error.getD "parameter refused by the relay") none) false
    -- refused before any dispatch
    else if (400 ≤ answer.status ∧ answer.status < 500) ∨ answer.status = 503 then
      match classifyRefusal answer with
      | .unreachable => .unanswered false
      | refusal => .notAsked refusal
    else .unanswered (method == "sendTransaction")

def RelayExchange.classify (method : String) : RelayExchange → Relayed
  | .answered answer => classifyResponse method answer
  | .failed isConnect => classifyTransportFailure isConnect

example : classifyResponse "sendTransaction" { status := 426, body := {
    code := some "version_unsupported", error := some "Update to 0.2.22 or newer." } } =
    .notAsked (.versionUnsupported "0.2.22") := by decide +kernel

/-- What a provider's HTTP endpoint came to. -/
inductive ProviderAnswer where
  /-- No response was read: the request failed, or its body did. -/
  | failed (isTimeout isConnect : Bool) (message : String)
  /-- An HTTP status that is no success, with the wait its body asks for and its summary. -/
  | status (status : ℕ) (retryAfter : Option Duration) (summary : String)
  | notJson (detail : String)
  | error (code : Option ℤ) (message data : Option String)
  | result (value : RpcValue)
  | noResult
  deriving DecidableEq, Repr

/-- The calls of one JSON-RPC request: its readings, the relay and the providers. -/
inductive RpcCall : Type → Type where
  | inPaperScope : RpcCall Bool
  | relayChoice : RpcCall RelayChoice
  | isNetworkOffline : RpcCall Bool
  | accessToken : RpcCall (Option String)
  | relay (method : String) : RpcCall RelayExchange
  | selectProvider (excluded : List String) (requiredKind : Option String) :
      RpcCall (Option String)
  /-- How long an open breaker still refuses the provider. -/
  | canExecute (provider : String) : RpcCall (Option Duration)
  | post (provider method : String) : RpcCall ProviderAnswer

/-- Try the gateway and classify the outcome. -/
def relay (method : String) : Program RpcCall Relayed := do
  if ← Program.perform .isNetworkOffline then
    return .notAsked .offline
  match ← Program.perform .accessToken with
  | none => return .notAsked .signedOut
  | some _ =>
    let exchange ← Program.perform (.relay method)
    return exchange.classify method

end ScreenerBot.Rpc
