import ScreenerBot.Sync.Reconcile
import ScreenerBot.Positions.Store
import ScreenerBot.Library.Run
import Mathlib.Order.WithBot

/-! Which position rows a wallet-history sync creates, rewrites or reconciles, and the writes
that carry its plan out. -/
namespace ScreenerBot.Positions
open Ledger Library

/-- A closed row whose round key moves to the open row of its mint. -/
structure RoundKeyRelease where
  positionId : ℤ
  roundKey : String
  deriving DecidableEq, Repr

structure PlannedUpdate where
  position : Position
  round : LedgerRound
  earlier : List LedgerRound
  meta' : RoundMetadata
  deriving DecidableEq

structure SyncPlan where
  inserts : List Position
  updates : List PlannedUpdate
  roundKeyReleases : List RoundKeyRelease
  deriving DecidableEq

def SyncPlan.empty : SyncPlan := ⟨[], [], []⟩

def SyncPlan.isEmpty (plan : SyncPlan) : Bool :=
  plan.inserts.isEmpty && plan.updates.isEmpty && plan.roundKeyReleases.isEmpty

structure SyncInput where
  rounds : List LedgerRound
  existing : List Position
  metadata : String → Option RoundMetadata
  traderLegs : ℤ → Option TraderLegs
  busyMints : List String
  now : ℤ

/-- The round's acquisition signatures, its entry first, each once. -/
def acquisitionSignatures (round : LedgerRound) : List String :=
  (round.entrySignature.toList ++
    (round.events.filter (·.kind.isAcquisition)).map (·.signature)).eraseDups

def planned (plan : SyncPlan) (row : Position) : Position :=
  ((plan.updates.reverse.find? fun update =>
    row.id.isSome && update.position.id == row.id).map (·.position)).getD row

structure Planning where
  claimed : List ℤ
  plan : SyncPlan

/-- What a round does: rewrite a row, import one, or nothing. -/
inductive Target where
  | rewrite (current : Position) (release : Option RoundKeyRelease)
  | insert
  | leave
  deriving DecidableEq

def claim (claimed : List ℤ) (row : Option Position) : List ℤ :=
  (row.bind (·.id)).toList ++ claimed

/-- An unsaved row ranks before every saved one. -/
def Position.idRank (row : Position) : WithBot ℤ := row.id

namespace SyncInput

variable (inp : SyncInput)

def byRoundKey (roundKey : String) : Option Position :=
  inp.existing.reverse.find? fun row => row.roundKey == some roundKey

def byMint (mint : String) : List Position := inp.existing.filter (·.mint == mint)

/-- The own legs of a bot row: its booked entries and exits and its entry signature. -/
def ownSignatures (row : Position) : Finset String :=
  row.entryTransactionSignature.toFinset ∪
    (row.id.bind inp.traderLegs).elim ∅ fun legs => legs.entrySignatures ∪ legs.exitSignatures

def holdsLegOf (round : LedgerRound) (row : Position) : Bool :=
  !row.isWalletDerived && row.id.isSome && row.mint == round.mint &&
    round.events.any fun event => decide (event.signature ∈ inp.ownSignatures row)

def span (row : Position) : List (LedgerRound × ℕ) :=
  inp.rounds.zipIdx.filter fun indexed => inp.holdsLegOf indexed.1 row

/-- What chooses a home among the rounds of a span: the open one, else the one seen last, else
the later one. -/
def homeRank (indexed : LedgerRound × ℕ) : Bool ×ₗ (WithBot ℤ ×ₗ ℕ) :=
  toLex (indexed.1.isOpen, toLex ((indexed.1.lastSeenAt : WithBot ℤ), indexed.2))

/-- The home round of an open bot row whose legs lie in a round. -/
def home (row : Position) : Option ℕ :=
  if row.isWalletDerived || row.exitTime.isSome then none
  else ((sortBy homeRank (inp.span row)).getLast?).map Prod.snd

/-- True when `row` is an open bot row whose home is a round other than `index`. -/
def elsewhere (row : Position) (index : ℕ) : Bool := (inp.home row).any (· != index)

/-- The open row homed at round `index` that no round claimed yet. -/
def homeRow (index : ℕ) (claimed : List ℤ) : Option Position :=
  let homed := inp.existing.filter fun row => inp.home row == some index &&
    row.id.any fun id => !claimed.contains id
  (sortBy (fun row : Position => toLex (row.archived, toLex (row.entryTime, row.idRank)))
    homed).head?

def holdsBotLeg (round : LedgerRound) : Bool := inp.existing.any (inp.holdsLegOf round)

/-- The rounds before `index` holding the own legs of `row`, an open bot row with a home. -/
def earlier (row : Position) (index : ℕ) : List LedgerRound :=
  if (inp.home row).isNone then []
  else ((inp.span row).filter fun indexed => decide (indexed.2 < index)).map Prod.fst

def plannedAttribution (row : Position) : RoundAttribution :=
  let mintPositions := inp.byMint row.mint
  let others := mintPositions.filter fun other => other.id != row.id && other.exitTime.isNone
  RoundAttribution.new row mintPositions inp.traderLegs
    ((others.filterMap (·.heldAmount)).foldl saturatingRaw 0)

/-- The rows a round may adopt by `signature`: rows of its mint without a key entered by it. -/
def adoptable (mint signature : String) : List Position :=
  sortBy (fun row : Position => toLex (row.entryTime, row.idRank)) <|
    inp.existing.filter fun row => row.roundKey.isNone && row.id.isSome &&
      row.mint == mint && row.entryTransactionSignature == some signature

/-- Claim the unkeyed row a round was executed through, if there is one. -/
def adoptRow (round : LedgerRound) (claimed : List ℤ) (index : ℕ) : Option Position :=
  (acquisitionSignatures round).findSome? fun signature =>
    (inp.adoptable round.mint signature).find? fun row =>
      row.id.any (fun id => !claimed.contains id) && !inp.elsewhere row index

def openRowOf (plan : SyncPlan) (mint : String) : Option Position :=
  ((inp.byMint mint).map (planned plan) ++ plan.inserts.filter (·.mint == mint)).find?
    (·.exitTime.isNone)

/-- The row a round matches: the one that carries its key, unless that is at home elsewhere, or
one it adopts. -/
def matchedRow (round : LedgerRound) (index : ℕ) (claimed : List ℤ) : Option Position :=
  ((inp.byRoundKey round.roundKey).filter fun row => !inp.elsewhere row index).or
    (inp.adoptRow round claimed index)

/-- What a round does with the row it matched and the open row at home there. A mint has one
open row: an open round beside it neither reopens a closed row nor imports one. -/
def target (plan : SyncPlan) (round : LedgerRound) (matched homeRow : Option Position) : Target :=
  match matched, homeRow with
  | some row, homeRow =>
    if row.exitTime.isNone then .rewrite row none
    else match homeRow with
      | some home =>
        let release := if row.roundKey == some round.roundKey then
          row.id.map fun id => ⟨id, round.roundKey⟩ else none
        .rewrite home release
      | none =>
        if round.isOpen && (inp.openRowOf plan row.mint).isSome then .leave else .rewrite row none
  | none, some home => .rewrite home none
  | none, none =>
    -- the legs of a closed round with bot legs are booked on their row, and a bot swap in
    -- flight may be the round's own buy: an imported row would be its twin
    if !round.isOpen && inp.holdsBotLeg round then .leave
    else if inp.busyMints.contains round.mint then .leave
    else if round.isOpen && (inp.openRowOf plan round.mint).isSome then .leave
    else .insert

def rewriteCurrent (current : Position) (round : LedgerRound) (index : ℕ) : Option Position :=
  rewriteRow current round (inp.earlier current index)
    ((inp.metadata round.mint).getD .empty)
    (if current.isWalletDerived then none else some (inp.plannedAttribution current))
    inp.busyMints inp.now

def planRound (st : Planning) (indexed : LedgerRound × ℕ) : Planning :=
  let round := indexed.1
  let index := indexed.2
  let matched := inp.matchedRow round index st.claimed
  let claimed := claim st.claimed matched
  match inp.target st.plan round matched (inp.homeRow index claimed) with
  | .leave => ⟨claimed, st.plan⟩
  | .insert => ⟨claimed, { st.plan with
      inserts := st.plan.inserts ++
        [buildPosition round ((inp.metadata round.mint).getD .empty) none inp.now] }⟩
  | .rewrite current release =>
    let claimed := claim claimed (some current)
    match inp.rewriteCurrent current round index with
    | none => ⟨claimed, st.plan⟩
    | some position => ⟨claimed, { st.plan with
        updates := st.plan.updates ++ [⟨position, round, inp.earlier current index,
          (inp.metadata round.mint).getD .empty⟩]
        roundKeyReleases := st.plan.roundKeyReleases ++ release.toList }⟩

def startPlanning : Planning := ⟨[], .empty⟩

def planPositionWrites : SyncPlan :=
  (inp.rounds.zipIdx.foldl inp.planRound startPlanning).plan

end SyncInput

inductive PlanWrite where
  | release (release : RoundKeyRelease)
  | update (update : PlannedUpdate)
  | insert (position : Position)
  deriving DecidableEq

/-- The writes of a plan in the order they are carried out: key releases, then updates, then
inserts. -/
def SyncPlan.writes (plan : SyncPlan) : List PlanWrite :=
  plan.roundKeyReleases.map .release ++ plan.updates.map .update ++ plan.inserts.map .insert

def freshId (rows : List Position) : ℤ := (rows.filterMap (·.id)).foldl max 0 + 1

/-- What the other open rows hold; refused while the entry of one of them is unverified. -/
def heldByOthers (others : List Position) : Option ℕ :=
  if others.any (!·.transactionEntryVerified) then none
  else some (others.foldl (fun held other => saturatingRaw held (other.heldAmount.getD 0)) 0)

namespace SyncInput

variable (inp : SyncInput)

/-- The attribution the write of an update reads beside its row, which is charged against the
other open rows of the mint only when it is charged a part. -/
def writtenAttribution (rows : List Position) (row : Position) (update : PlannedUpdate) :
    Option RoundAttribution :=
  let mintRows := rows.filter (·.mint == row.mint)
  let attribution := RoundAttribution.new row mintRows inp.traderLegs 0
  if attribution.chargesPart update.round update.earlier then
    (heldByOthers (mintRows.filter fun other => other.id != row.id && other.exitTime.isNone)).map
      fun held => { attribution with heldElsewhere := held }
  else some attribution

/-- The rewrite of an update, decided again on the row as it is stored. -/
def rewrittenRow (rows : List Position) (row : Position) (update : PlannedUpdate) :
    Option Position :=
  let rewrite (attribution : Option RoundAttribution) :=
    rewriteRow row update.round update.earlier update.meta' attribution inp.busyMints inp.now
  if row.isWalletDerived then rewrite none
  else (inp.writtenAttribution rows row update).bind fun attribution => rewrite (some attribution)

/-- A release leaves a row that is open or has taken another key alone. -/
def releaseRow (release : RoundKeyRelease) (row : Position) : Position :=
  if row.id == some release.positionId && row.exitTime.isSome &&
      row.roundKey == some release.roundKey then { row with roundKey := none } else row

def updateRow (rows : List Position) (update : PlannedUpdate) (row : Position) : Position :=
  if row.id.isSome && update.position.id == row.id then
    ((inp.rewrittenRow rows row update).map (Store.stored row)).getD row
  else row

/-- Carries out one write on the stored rows, with nothing booked since the plan was made. -/
def writePlanned (rows : List Position) : PlanWrite → List Position
  | .release release => rows.map (releaseRow release)
  | .update update => rows.map (inp.updateRow rows update)
  | .insert position =>
    if inp.busyMints.contains position.mint then rows
    else rows ++ [{ position with id := some (freshId rows) }]

end SyncInput

end ScreenerBot.Positions
