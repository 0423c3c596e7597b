import Mathlib.Data.List.Basic
import Mathlib.Data.List.TakeWhile
import ScreenerBot.Library.Transcript

/-! Signature paging of one watched wallet: what a range has collected and when it is complete. A
node answers a page from the history of the wallet: signatures older than one and newer than
another. -/
namespace ScreenerBot.Watch
open Library

/-- One signature of a page, newest first in its page. -/
structure SignaturePageItem where
  signature : String
  failed : Bool
  deriving DecidableEq, Repr

inductive WatchSource where
  | ownWallet
  | copy (taskId : ℤ)
  | alert (ruleId : ℤ)
  deriving DecidableEq, Repr

inductive WatchDisableReason where
  | user
  | unknown
  | signatureBudget (pageBudget signaturesChecked : ℕ)
  | heliusUnavailable
  | processingFailed
  deriving DecidableEq, Repr

structure WatchTarget where
  id : Option ℤ
  sources : List WatchSource
  enabled : Bool
  pageBudget : ℕ
  highActivityApproved : Bool
  disableReason : Option WatchDisableReason
  deriving DecidableEq, Repr

def WatchTarget.isOwn (target : WatchTarget) : Bool := target.sources.contains .ownWallet

/-- A decoded transaction, as far as the funnel looks at it: `activity` is what classification makes
of it. -/
structure Transaction (κ : Type) where
  success : Bool
  activity : Option κ
  deriving DecidableEq, Repr

inductive DecodeError where
  | indexingDelay
  | notFound
  | other (retryable : Bool)
  deriving DecidableEq, Repr

/-- The signature may be decodable later. -/
def DecodeError.isDeferred : DecodeError → Bool
  | .indexingDelay | .notFound => true
  | .other retryable => retryable

structure WalletActivity (κ : Type) where
  signature : String
  kind : κ
  sources : List WatchSource
  backfill : Bool
  deriving DecidableEq, Repr

/-- An item of the successful-transaction listing; no transaction proves that it had no effect on
the wallet. -/
structure SuccessfulTransactionPageItem (κ : Type) where
  signature : String
  transaction : Except DecodeError (Option (Transaction κ))

/-- An ascending page. -/
structure SuccessfulTransactionsPage (κ : Type) where
  items : List (SuccessfulTransactionPageItem κ)
  hasMore : Bool

/-- The atomic calls of one wallet's worker. -/
inductive WatchCall (κ : Type) : Type → Type
  /-- `inFunnel` tells the funnel's own check from the one a poll begins with. -/
  | resolveSubject (inFunnel : Bool) : WatchCall κ Bool
  | supportsHighActivityMode : WatchCall κ Bool
  | getCursor : WatchCall κ (Except Unit (Option String))
  | hasCursorRow : WatchCall κ (Except Unit Bool)
  | setCursor (lastSignature : String) : WatchCall κ (Except Unit Unit)
  | markCursorInitialized : WatchCall κ (Except Unit Unit)
  | fetchSignaturesPage (pageSize : ℕ) (before durableUntil : Option String) :
      WatchCall κ (Except Unit (List SignaturePageItem))
  | fetchSuccessfulTransactionsAfter (limit : ℕ) (after : Option String) :
      WatchCall κ (Except Unit (SuccessfulTransactionsPage κ))
  | hasSeen (signature : String) : WatchCall κ (Except Unit Bool)
  | decodeTransaction (signature : String) (isOwn : Bool) :
      WatchCall κ (Except DecodeError (Transaction κ))
  | record (signature : String) : WatchCall κ (Except Unit Unit)
  | commit (signature : String) : WatchCall κ (Except Unit Unit)
  | publish (activity : WalletActivity κ) : WatchCall κ Unit
  | pauseForReason (id : ℤ) (reason : WatchDisableReason) : WatchCall κ (Except Unit Unit)
  | pauseForBudget (id : ℤ) (pageBudget signaturesChecked : ℕ) : WatchCall κ (Except Unit Unit)

/-- Signatures per page. -/
def pageSize : ℕ := 100

def maxPageBudget : ℕ := 50

/-- Every signature after the old cursor, oldest first. -/
structure CompletedCatchUp where
  signatures : List SignaturePageItem
  newestSignature : Option String
  deriving DecidableEq, Repr

/-- In-memory progress through one range that ends at a durable cursor. -/
structure CatchUpState where
  durableUntil : Option String
  initialWindow : Bool
  before : Option String
  newestSignature : Option String
  newestFirst : List SignaturePageItem
  complete : Bool
  deriving DecidableEq, Repr

namespace CatchUpState

def new (durableUntil : Option String) : CatchUpState where
  durableUntil := durableUntil
  initialWindow := durableUntil.isNone
  before := none
  newestSignature := none
  newestFirst := []
  complete := false

/-- Absorbs a page. One that is short proves the range complete; without a cursor one page is
all. -/
def ingestPage (state : CatchUpState) (page : List SignaturePageItem) (pageSize : ℕ) :
    CatchUpState :=
  if state.complete then state
  else if page.isEmpty then { state with complete := true }
  else
    { state with
      newestSignature := state.newestSignature.or (page.head?.map (·.signature))
      before := page.getLast?.map (·.signature)
      newestFirst := state.newestFirst ++ page
      complete := state.initialWindow || decide (page.length < pageSize) }

def completed (state : CatchUpState) : Option CompletedCatchUp :=
  if state.complete then some ⟨state.newestFirst.reverse, state.newestSignature⟩ else none

end CatchUpState

variable {κ : Type}

/-- Fetches at most so many pages. -/
def fetchPages : ℕ → CatchUpState → Program (WatchCall κ) (CatchUpState × Except Unit Unit)
  | 0, state => return (state, .ok ())
  | pages + 1, state => do
    match ← Program.perform (.fetchSignaturesPage pageSize state.before state.durableUntil) with
    | .error _ => return (state, .error ())
    | .ok page =>
      if (state.ingestPage page pageSize).complete then return (state.ingestPage page pageSize,
        .ok ())
      else fetchPages pages (state.ingestPage page pageSize)

/-- Advances one range within its budget; what it has collected stays when a page fails. -/
def advanceCatchUp (state : CatchUpState) (pageBudget : ℕ) :
    Program (WatchCall κ) (CatchUpState × Except Unit (Option CompletedCatchUp)) :=
  if state.complete then return (state, .ok state.completed)
  else do
    let (state, result) ← fetchPages (min (max pageBudget 1) maxPageBudget) state
    return (state, result.map fun _ => state.completed)

/-- The signatures up to and with `signature`. -/
def upTo (history : List SignaturePageItem) (signature : String) : List SignaturePageItem :=
  history.takeWhile (·.signature != signature) ++
    (history.dropWhile (·.signature != signature)).take 1

/-- The signatures older than `before`. -/
def olderThan (history : List SignaturePageItem) : Option String → List SignaturePageItem
  | none => history
  | some before => history.takeWhile (·.signature != before)

/-- The signatures after `after`. -/
def newerThan (history : List SignaturePageItem) : Option String → List SignaturePageItem
  | none => history
  | some after => (history.dropWhile (·.signature != after)).drop 1

/-- The newest `size` signatures older than `before`, down to `durableUntil`, newest first. -/
def signaturesPage (history : List SignaturePageItem) (size : ℕ)
    (before durableUntil : Option String) :
    List SignaturePageItem :=
  ((olderThan history before).reverse.takeWhile fun item =>
    durableUntil != some item.signature).take size

variable {history : List SignaturePageItem}

/-- What is before a signature in a history without repeats has other signatures. -/
theorem ne_of_before {older newer : List SignaturePageItem} {item : SignaturePageItem}
    (hnodup : ((older ++ item :: newer).map (·.signature)).Nodup) :
    ∀ x ∈ older, (x.signature != item.signature) = true := by
  intro x hx
  rw [List.map_append, List.map_cons, List.nodup_append] at hnodup
  rw [bne_iff_ne]
  exact hnodup.2.2 _ (List.mem_map_of_mem hx) _ List.mem_cons_self

theorem olderThan_split {older newer : List SignaturePageItem} {item : SignaturePageItem}
    (hnodup : ((older ++ item :: newer).map (·.signature)).Nodup) :
    olderThan (older ++ item :: newer) (some item.signature) = older := by
  rw [olderThan, List.takeWhile_append_of_pos (ne_of_before hnodup), List.takeWhile_cons]
  simp

theorem upTo_split {older newer : List SignaturePageItem} {item : SignaturePageItem}
    (hnodup : ((older ++ item :: newer).map (·.signature)).Nodup) :
    upTo (older ++ item :: newer) item.signature = older ++ [item] := by
  have hne := ne_of_before hnodup
  rw [upTo, List.takeWhile_append_of_pos hne, List.dropWhile_append_of_pos hne, List.takeWhile_cons,
    List.dropWhile_cons]
  simp

theorem newerThan_split {older newer : List SignaturePageItem} {item : SignaturePageItem}
    (hnodup : ((older ++ item :: newer).map (·.signature)).Nodup) :
    newerThan (older ++ item :: newer) (some item.signature) = newer := by
  rw [newerThan, List.dropWhile_append_of_pos (ne_of_before hnodup), List.dropWhile_cons]
  simp

/-- What is older than a signature of a prefix is the same in the whole history. -/
theorem olderThan_prefix {view : List SignaturePageItem} {before : String} (h : view <+: history)
    (hmem : before ∈ view.map (·.signature)) :
    olderThan view (some before) = olderThan history (some before) := by
  obtain ⟨later, rfl⟩ := h
  obtain ⟨item, hitem, rfl⟩ := List.mem_map.mp hmem
  rw [olderThan, olderThan, List.takeWhile_append]
  split
  next hall =>
    have hlength : view.takeWhile (·.signature != item.signature) = view :=
      List.IsPrefix.eq_of_length (List.takeWhile_prefix _) hall
    have hself := List.mem_takeWhile_imp (hlength.symm ▸ hitem)
    simp at hself
  next => rfl

theorem olderThan_isPrefix (before : Option String) : olderThan history before <+: history := by
  cases before with
  | none => exact List.prefix_refl _
  | some before => exact List.takeWhile_prefix _

/-- A page is the newest part of what is older than its start; a short one reaches down to its
end. -/
theorem signaturesPage_split (history : List SignaturePageItem) (size : ℕ)
    (before durableUntil : Option String) : ∃ rest,
    (olderThan history before).reverse = signaturesPage history size before durableUntil ++ rest ∧
      ((signaturesPage history size before durableUntil).length < size →
        ∀ item ∈ rest.head?, durableUntil = some item.signature) := by
  let newest := (olderThan history before).reverse
  let isWanted (item : SignaturePageItem) : Bool := durableUntil != some item.signature
  have hpage : signaturesPage history size before durableUntil =
    (newest.takeWhile isWanted).take size := rfl
  refine ⟨(newest.takeWhile isWanted).drop size ++ newest.dropWhile isWanted, ?_, ?_⟩
  · rw [hpage, ← List.append_assoc, List.take_append_drop, List.takeWhile_append_dropWhile]
  · intro hshort item hitem
    rw [hpage, List.length_take] at hshort
    have hlength : (newest.takeWhile isWanted).length ≤ size := by omega
    rw [List.drop_eq_nil_of_le hlength, List.nil_append] at hitem
    have hnot := List.head?_dropWhile_not isWanted newest
    rw [Option.mem_def.mp hitem] at hnot
    simpa [isWanted] using hnot

/-- The page of a window is the newest part of the history. -/
theorem signaturesPage_window (history : List SignaturePageItem) (size : ℕ) :
    signaturesPage history size none none = history.reverse.take size := by
  have hall : ∀ item ∈ history.reverse, ((none : Option String) != some item.signature) = true :=
    fun _ _ => rfl
  rw [signaturesPage, olderThan, List.takeWhile_eq_self_iff.mpr hall]

end ScreenerBot.Watch
