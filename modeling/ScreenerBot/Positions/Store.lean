import ScreenerBot.Positions.RoundState
import ScreenerBot.Library.Keyed
import ScreenerBot.Library.Sorting
import Mathlib.Data.Prod.Lex

/-! The positions store of one wallet on one chain, and the transaction a booking runs in. -/
namespace ScreenerBot.Positions
open Library

structure EntryRecord where
  positionId : ℤ
  timestamp : ℤ
  amount : ℕ
  price : ℚ
  nativeSpent : ℚ
  transactionSignature : String
  isDca : Bool
  feesRaw : Option ℕ
  deriving DecidableEq, Repr

structure ExitRecord where
  positionId : ℤ
  timestamp : ℤ
  amount : ℕ
  price : ℚ
  nativeReceived : ℚ
  transactionSignature : String
  isPartial : Bool
  percentage : ℚ
  feesRaw : Option ℕ
  deriving DecidableEq, Repr

/-- The history record written in the same transaction as the row. -/
inductive BookingRecord where
  | exit (record : ExitRecord)
  | entry (record : EntryRecord)
  deriving DecidableEq, Repr

structure Store where
  rows : AList fun _ : ℤ => Position
  entries : List EntryRecord
  exits : List ExitRecord
  deriving DecidableEq

namespace Store

/-- True when the position already has an entry record for `signature`. -/
def entryRecordExists (st : Store) (positionId : ℤ) (signature : String) : Bool :=
  st.entries.any fun r => r.positionId == positionId && r.transactionSignature == signature

/-- True when any position of `mint` already has an entry record for `signature`. -/
def entryRecordedForMint (st : Store) (mint signature : String) : Bool :=
  st.entries.any fun r => r.transactionSignature == signature &&
    (st.rows.lookup r.positionId).any (·.mint == mint)

/-- True when the position already has an exit record for `signature`. -/
def exitRecordExists (st : Store) (positionId : ℤ) (signature : String) : Bool :=
  st.exits.any fun r => r.positionId == positionId && r.transactionSignature == signature

/-- The open rows of `mint` other than `excluded`, archived or not. -/
def openRowsBeside (st : Store) (mint : String) (excluded : ℤ) : List (ℤ × Position) :=
  (st.rows.entries.map fun e => (e.1, e.2)).filter fun e =>
    e.2.mint == mint && e.1 != excluded && e.2.exitTime.isNone

/-- The active open rows of `mint` other than `positionId`. -/
def activeOpenRoundsBeside (st : Store) (mint : String) (positionId : ℤ) : List ℤ :=
  ((st.openRowsBeside mint positionId).filter (!·.2.archived)).map Prod.fst

/-- What the other open positions of `mint` hold, refused while an entry is unverified. -/
def otherOpenHeld (st : Store) (mint : String) (excluded : ℤ) : Except BookingError ℕ :=
  let others := st.openRowsBeside mint excluded
  if others.any (!·.2.transactionEntryVerified) then .error (.holdingUnattributable mint)
  else .ok (others.foldl (fun held e => min (held + e.2.heldAmount.getD 0) u128Max) 0)

/-- The open position of `mint` other than `excluded`: an active row before an archived one,
then the earliest by entry time and id. -/
def openRoundBeside (st : Store) (mint : String) (excluded : ℤ) : Option ℤ :=
  ((sortBy (fun e : ℤ × Position => toLex (e.2.archived, toLex (e.2.entryTime, e.1)))
    (st.openRowsBeside mint excluded)).head?).map Prod.fst

/-- Whether a buy booked on an archived open position may bring it back: not while another
open position of its mint is active. -/
def mayUnarchive (st : Store) (mint : String) (positionId : ℤ) : Bool :=
  (st.activeOpenRoundsBeside mint positionId).isEmpty

/-- A booked row as the store keeps it: bookings only ever clear the archive flag, and the
peak restart is a mark for memory. -/
def stored (old new : Position) : Position :=
  { new with
    archived := old.archived && new.archived
    archivedAt := if old.archived && !new.archived then none else old.archivedAt
    basisPeakRestarted := false }

def writeRow (st : Store) (positionId : ℤ) (old new : Position) : Store :=
  { st with rows := st.rows.insert positionId (stored old new) }

/-- One on-chain swap is one entry record of a position. -/
def insertEntryRecord (st : Store) (record : EntryRecord) : Store :=
  if st.entryRecordExists record.positionId record.transactionSignature then st
  else { st with entries := st.entries ++ [record] }

/-- One on-chain swap is one exit record of a position. -/
def insertExitRecord (st : Store) (record : ExitRecord) : Store :=
  if st.exitRecordExists record.positionId record.transactionSignature then st
  else { st with exits := st.exits ++ [record] }

def insertRecord (st : Store) : BookingRecord → Store
  | .exit record => st.insertExitRecord record
  | .entry record => st.insertEntryRecord record

/-- Books onto the open position `openRoundId` inside the transaction; `none` when it already
has an entry record for `signature`. -/
def bookOpenRound (st : Store) (openRoundId : ℤ) (signature : String)
    (book : Position → Except BookingError (Position × EntryRecord)) :
    Except BookingError (Option (Position × Store)) :=
  if st.entryRecordExists openRoundId signature then .ok none
  else match st.rows.lookup openRoundId with
    | none => .error (.notFoundById openRoundId)
    | some old => do
      let (row, record) ← book old
      return some (row, (st.writeRow openRoundId old row).insertEntryRecord record)

end Store

/-- What a booking decided for the row it was handed; a written one may already have booked
onto another row of the store. -/
inductive Booking (τ : Type) where
  | write (row : Position) (store : Store) (record : Option BookingRecord) (outcome : τ)
  | skip

/-- Outcome of a booking transaction. -/
inductive Committed (τ : Type) where
  | written (row : Position) (store : Store) (outcome : τ)
  | skipped
  deriving DecidableEq

/-- Books onto the stored row in one transaction; a refusal leaves the store as it was. -/
def commitBooking {τ : Type} (st : Store) (positionId : ℤ)
    (book : Position → Except BookingError (Booking τ)) : Except BookingError (Committed τ) :=
  match st.rows.lookup positionId with
  | none => .error (.notFoundById positionId)
  | some old => do
    match ← book old with
    | .skip => return .skipped
    | .write row store record outcome =>
      let store := store.writeRow positionId old row
      return .written row (record.elim store store.insertRecord) outcome

end ScreenerBot.Positions
