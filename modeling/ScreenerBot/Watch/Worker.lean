import ScreenerBot.Library.Surroundings
import ScreenerBot.Watch.Poller
import ScreenerBot.Watch.Service

/-! The worker of one watched wallet over its stores and the node that lists the wallet's
signatures. -/
namespace ScreenerBot.Watch
open Library

variable {κ : Type}

/-- The stores of one wallet and what the worker has published. `baselined` are the signatures that
lie before the first baseline, once there is one. -/
structure WatchStore (κ : Type) where
  cursor : Option (Option String)
  known : List String
  cached : List String
  published : List (WalletActivity κ)
  baselined : Option (List String)

namespace WatchStore

def start : WatchStore κ where
  cursor := none
  known := []
  cached := []
  published := []
  baselined := none

/-- A first window tells what lies before the baseline: for the own wallet what is older than it,
and for an external target, which stores its baseline as a cursor, everything it was read from. -/
def opened (s : WatchStore κ) (own : Bool) (view : List SignaturePageItem) (size : ℕ)
    (before durableUntil : Option String) : WatchStore κ :=
  if before = none ∧ durableUntil = none ∧ s.cursor = none ∧ (own = true → s.baselined = none) then
    let older := if own then view.take (view.length - size) else view
    { s with baselined := some (older.map (·.signature)) }
  else s

/-- A write that fails may have been carried out. -/
def Writes {ε α : Type} (s after : WatchStore κ) (result : Except ε α) (s' : WatchStore κ) : Prop :=
  s' = after ∨ (∃ error, result = .error error) ∧ s' = s

variable (history : List SignaturePageItem) (own : Bool)

/-- A node answers from the part of the history that it has seen, when it knows the boundary. -/
def answers (s : WatchStore κ) : {β : Type} → WatchCall κ β → β → WatchStore κ → Prop
  | _, .resolveSubject _, _, s' => s' = s
  | _, .supportsHighActivityMode, _, s' => s' = s
  | _, .getCursor, result, s' => s' = s ∧ ∀ cursor, result = .ok cursor → cursor = s.cursor.join
  | _, .hasCursorRow, result, s' => s' = s ∧ ∀ row, result = .ok row → row = s.cursor.isSome
  | _, .setCursor signature, result, s' =>
    s.Writes { s with cursor := some (some signature) } result s'
  | _, .markCursorInitialized, result, s' =>
    s.Writes { s with cursor := s.cursor.or (some none) } result s'
  | _, .fetchSignaturesPage size before durableUntil, result, s' =>
    ((∃ error, result = .error error) ∧ s' = s) ∨
      ∃ seen, (∀ signature, before = some signature →
          signature ∈ (history.take seen).map (·.signature)) ∧
        result = .ok (signaturesPage (history.take seen) size before durableUntil) ∧
        s' = s.opened own (history.take seen) size before durableUntil
  | _, .fetchSuccessfulTransactionsAfter limit after, result, s' =>
    ((∃ error, result = .error error) ∧ s' = s) ∨
      ∃ seen page count, (∀ signature, after = some signature →
          signature ∈ (history.take seen).map (·.signature)) ∧
        result = .ok page ∧ count ≤ limit ∧
        page.items.map (·.signature) =
          (((newerThan (history.take seen) after).filter (!·.failed)).take count).map
          (·.signature) ∧
        s' = s
  | _, .hasSeen signature, result, s' =>
    s' = s ∧ ∀ seen, result = .ok seen →
      (seen = true ↔ signature ∈ s.cached ∨ signature ∈ s.known)
  | _, .decodeTransaction _ _, _, s' => s' = s
  | _, .record _, _, s' => s' = s
  | _, .commit signature, result, s' =>
    ((∃ done, result = .ok done) ∧
      s' = { s with known := signature :: s.known, cached := signature :: s.cached }) ∨
      (∃ error, result = .error error) ∧ (s' = s ∨ s' = { s with known := signature :: s.known })
  | _, .publish activity, _, s' => s' = { s with published := s.published ++ [activity] }
  | _, .pauseForReason _ _, _, s' => s' = s
  | _, .pauseForBudget _ _ _, _, s' => s' = s

/-- What happens beside the worker: a signature is made known elsewhere, one leaves the cache. -/
inductive Moves : WatchStore κ → WatchStore κ → Prop
  | known (s : WatchStore κ) (signature : String) :
      Moves s { s with known := signature :: s.known, cached := signature :: s.cached }
  | evicted (s : WatchStore κ) (signature : String) :
      Moves s { s with cached := s.cached.erase signature }

/-- The exchange keeps the cursor honest: the funnel resolves the wallet's address, a target that
has a cursor row is not read as one without, no listed transaction has no effect, and a window
reaches back to what the stored row covers or, while the own wallet has none, to what is known or
before its first baseline. -/
def KeepsUp (s : WatchStore κ) : {β : Type} → WatchCall κ β → β → Prop
  | _, .resolveSubject true, resolves => resolves = true
  | _, .hasCursorRow, .error _ => s.cursor = none
  | _, .fetchSignaturesPage _ none none, .ok page =>
    ∀ newest ∈ page.head?, ∀ x ∈ upTo history newest.signature, x ∈ page ∨
      match s.cursor with
      | some row => ∃ signature, row = some signature ∧ x ∈ upTo history signature
      | none => (own = true → s.baselined = none) ∨ x.signature ∈ s.known ∨
          x.signature ∈ s.baselined.getD []
  | _, .fetchSuccessfulTransactionsAfter _ _, .ok page =>
    ∀ item ∈ page.items, (item.transaction matches .ok none) = false
  | _, _, _ => True

end WatchStore

/-- What the worker does next: a gap-fill, a notification, a tick, a changed target. -/
inductive Turns : TargetRuntime → Program (WatchCall κ) TargetRuntime → Prop
  | gapFill (r : TargetRuntime) : Turns r (pollTarget r true)
  | event (r : TargetRuntime) (signature : String) (failed : Bool) :
      Turns r (processEvent r signature failed)
  | tick (r : TargetRuntime) (due : WsRetry → Bool) (poll : Bool) : Turns r (tick r due poll)
  | update (r : TargetRuntime) (target : WatchTarget) (hown : target.isOwn = r.target.isOwn) :
      Turns r (return { r with target := target })

/-- The worker of a wallet: `history` is what ever happens to the wallet on chain, oldest first. -/
def worker (history : List SignaturePageItem) (own : Bool) :
    Machine (WatchCall κ) (WatchStore κ) TargetRuntime where
  answers := WatchStore.answers history own
  moves := WatchStore.Moves
  starts s := s = .start
  boots program := ∃ target : WatchTarget, target.isOwn = own ∧
    program = pollTarget (.register target) true
  turns := Turns
  restarts s s' := ∃ cached ⊆ s.cached, s' = { s with cached := cached }

end ScreenerBot.Watch
