import Mathlib.Data.Int.Notation
import ScreenerBot.Library.Text

/-! The errors of a JSON-RPC call, and what they prove about the request. -/
namespace ScreenerBot.Rpc

open Library

/-- A span of time, in nanoseconds. -/
abbrev Duration := ℕ

def Duration.fromSecs (secs : ℕ) : Duration := secs * 10 ^ 9

def Duration.asSecs (duration : Duration) : ℕ := duration / 10 ^ 9

/-- A duration as it is written for a developer, in the largest unit it reaches. -/
def Duration.debug (duration : Duration) : String :=
  if 10 ^ 9 ≤ duration then decimal duration 9 ++ "s"
  else if 10 ^ 6 ≤ duration then decimal duration 6 ++ "ms"
  else if 10 ^ 3 ≤ duration then decimal duration 3 ++ "µs"
  else decimal duration 0 ++ "ns"

example : Duration.debug 1500000000 = "1.5s" := by decide +kernel

inductive RpcError where
  | rateLimited (providerId : String) (retryAfter : Option Duration)
  | network (message : String) (isTimeout : Bool)
  | providerError (code : ℤ) (message : String) (data : Option String)
  | timeout (providerId : String) (after : Duration)
  | circuitOpen (providerId : String) (retryAfter : Duration)
  | noProvidersAvailable (lastError : Option String)
  | accountNotFound (pubkey : String)
  | invalidResponse (message : String)
  | configuration (message : String)
  | other (message : String)
  | refusedAfterDelivery (earlierAttempts : ℕ) (refusal : RpcError)
  | paperScopeRefused
  deriving DecidableEq, Repr

namespace RpcError

def isRetryable : RpcError → Bool
  | rateLimited .. | network .. | timeout .. => true
  -- the server-error range also holds failures of the transaction itself
  | providerError code .. => (-32099 ≤ code && code ≤ -32000) && !(code == -32002 || code == -32015)
  | _ => false

def isRateLimited : RpcError → Bool
  | rateLimited .. => true
  | _ => false

/-- Whether this failure is evidence that the selected provider is unhealthy. -/
def isProviderHealthFailure : RpcError → Bool
  | rateLimited .. | network .. | timeout .. | invalidResponse .. => true
  | error@(providerError ..) => error.isRetryable
  | _ => false

/-- Whether a node decoded this request and refused the request itself. -/
def isRequestRejection : RpcError → Bool
  | providerError code .. => code == -32700 || code == -32600 || code == -32602
  | paperScopeRefused => true
  | _ => false

/-- The text of a preflight that saw the same bytes on chain. -/
def landed (text : String) : Bool :=
  contains text "AlreadyProcessed" || contains text.toLower "already been processed"

/-- Whether a node ran a send's preflight, saw it fail and therefore never forwarded it. -/
def isPreflightRefusal : RpcError → Bool
  | providerError code message data => code == -32002 && !landed message && !data.any landed
  | _ => false

/-- Whether the node a send reached refused it without forwarding it. -/
def isSendRefusal (error : RpcError) : Bool := error.isRequestRejection || error.isPreflightRefusal

def fromHttpResponse (status : ℕ) (retryAfter : Option Duration) (summary providerId : String) :
    RpcError :=
  if status = 429 then rateLimited providerId retryAfter
  else if status = 408 ∨ status = 504 then timeout providerId (.fromSecs 30)
  else if status = 502 ∨ status = 503 then
    network s!"Service unavailable ({status}): {summary}" false
  else other s!"HTTP {status}: {summary}"

def fromJsonrpcError (code : ℤ) (message : String) (data : Option String) : RpcError :=
  if contains message.toLower "rate limit" || contains message.toLower "too many requests" then
    rateLimited "" none
  else providerError code message data

def display : RpcError → String
  | rateLimited providerId retryAfter => s!"Rate limited by {providerId}" ++
      (retryAfter.elim "" fun after => s!" (retry after {after.debug})")
  | network message true => s!"Network timeout: {message}"
  | network message false => s!"Network error: {message}"
  | providerError code message _ => s!"Provider error {code}: {message}"
  | timeout providerId after => s!"Timeout after {after.debug} from {providerId}"
  | circuitOpen providerId retryAfter =>
      s!"Circuit open for {providerId} (retry after {retryAfter.debug})"
  | noProvidersAvailable lastError => "No providers available" ++ (lastError.elim "" (": " ++ ·))
  | accountNotFound pubkey => s!"Account not found: {pubkey}"
  | invalidResponse message => s!"Invalid response: {message}"
  | configuration message => s!"Configuration error: {message}"
  | other message => message
  | refusedAfterDelivery earlierAttempts refusal =>
      s!"{refusal.display}, after {earlierAttempts} " ++
      "earlier attempt(s) that may have delivered the transaction"
  | paperScopeRefused => "Transaction send is refused while paper trading"

@[simp] theorem isSendRefusal_network {message : String} {isTimeout : Bool} :
    (network message isTimeout).isSendRefusal = false := rfl

@[simp] theorem isSendRefusal_noProvidersAvailable {lastError : Option String} :
    (noProvidersAvailable lastError).isSendRefusal = false := rfl

@[simp] theorem isSendRefusal_refusedAfterDelivery {earlierAttempts : ℕ} {refusal : RpcError} :
    (refusedAfterDelivery earlierAttempts refusal).isSendRefusal = false := rfl

/-- An error that is retried is no answer about the request. -/
theorem not_isSendRefusal_of_isRetryable {error : RpcError} (h : error.isRetryable = true) :
    error.isSendRefusal = false := by
  cases error with
  | providerError code message data =>
    simp only [isRetryable, Bool.and_eq_true, decide_eq_true_eq, Bool.not_eq_true',
      Bool.or_eq_false_iff, beq_eq_false_iff_ne] at h
    simp only [isSendRefusal, isRequestRejection, isPreflightRefusal, Bool.or_eq_false_iff,
      beq_eq_false_iff_ne, Bool.and_eq_false_iff]
    omega
  | rateLimited | network | timeout => rfl
  | _ => cases h

@[simp] theorem isSendRefusal_fromHttpResponse {status : ℕ} {retryAfter : Option Duration}
    {summary providerId : String} :
    (fromHttpResponse status retryAfter summary providerId).isSendRefusal = false := by
  unfold fromHttpResponse
  split
  · rfl
  split
  · rfl
  split <;> rfl

end RpcError

end ScreenerBot.Rpc
