import ScreenerBot.Positions.Conservation
import ScreenerBot.Positions.Frame
import ScreenerBot.Library.Run

/-! Sales of more tokens than their position had left: the tokens beyond what it had come without a
cost, and its cost basis is marked incomplete. -/
namespace ScreenerBot.Positions
open Library

namespace Position

/-- True when the position may be shown a P&L. -/
def hasTrustworthyPnl (p : Position) : Bool := p.basisComplete && p.historyComplete

/-- Whether a sale of `sold` tokens exceeds what the row has left by more than dust of what it
acquired. -/
def oversold (p : Position) (sold : ℕ) : Bool :=
  p.acquiredAmount.any fun acquired => !isDust (sold - p.remainingTokenAmount.getD 0) acquired

theorem bookClose_basis {p q : Position} {fill : CloseFill} (h : p.bookClose fill = .ok q) :
    q.basisComplete = p.basisComplete := by
  obtain ⟨exited, hexited, hq⟩ := bind_eq_ok.mp h
  cases hq
  unfold bookRemainingAsExited at hexited
  split at hexited
  · cases hexited
    rfl
  · split at hexited <;> cases hexited
    rfl

end Position

/-- What a full sale absorbs marks the basis exactly when it exceeds what the row has left. -/
theorem absorbUnbookedSale_basis {p q : Position} {sold : ℕ}
    (h : absorbUnbookedSale p sold = .ok q) :
    q.basisComplete = (p.basisComplete && !p.oversold sold) := by
  have hdust (acquired : ℕ) : isDust 0 acquired = true := by simp [isDust]
  unfold absorbUnbookedSale at h
  unfold Position.oversold
  dsimp only at h
  split at h
  next hnone =>
    cases h
    rw [hnone]
    cases p.acquiredAmount <;> simp [hdust]
  · split at h
    · cases h
    next acquired hacquired =>
      rw [hacquired]
      split at h
      next hresidue =>
        cases h
        simp [hresidue]
      next hexcess =>
        obtain ⟨bought, -, hret⟩ := bind_eq_ok.mp h
        cases hret
        simp [hexcess]

/-- A full exit of an open row absorbs what the sale sold beyond the row, then closes the row. -/
theorem bookExitVerified_open {st booked : Store} {positionId : ℤ} {fill : CloseFill}
    {exitSignature : String} {exitAmount : ℕ} {heldAfter : Option ℕ} {readings : Readings}
    {row row' : Position} {record : Option BookingRecord} {outcome : Option LateFill}
    (hopen : row.isClosed = false)
    (h : bookExitVerified st positionId fill exitSignature exitAmount heldAfter readings row =
      .ok (.write row' booked record outcome)) :
    row'.basisComplete =
      (row.basisComplete && (readings.ownAddPending || !row.oversold exitAmount)) := by
  unfold bookExitVerified at h
  dsimp only at h
  split at h
  · cases h
  rw [if_neg (by simp [hopen])] at h
  split at h
  · cases h
  split at h
  next hpending =>
    obtain ⟨kept, hkept, h⟩ := bind_eq_ok.mp h
    cases hkept
    obtain ⟨closed, hclosed, hret⟩ := bind_eq_ok.mp h
    cases hret
    rw [Position.bookClose_basis hclosed, hpending]
    simp
  next hpending =>
    obtain ⟨absorbed, habsorbed, h⟩ := bind_eq_ok.mp h
    obtain ⟨closed, hclosed, hret⟩ := bind_eq_ok.mp h
    cases hret
    rw [Position.bookClose_basis hclosed, absorbUnbookedSale_basis habsorbed,
      Bool.eq_false_iff.mpr hpending, Bool.false_or]
    rfl

/-- No delivery takes the mark of an incomplete basis from a row. -/
theorem mark_persists {st : Store} {positionId : ℤ} {row : Position} (ds : List Delivery)
    (hrow : st.rows.lookup positionId = some row) (hmark : row.basisComplete = false) :
    ∃ later, (ds.foldl deliver st).rows.lookup positionId = some later ∧
      later.basisComplete = false := by
  refine run_invariant deliver (fun s => ∃ later, s.rows.lookup positionId = some later ∧
    later.basisComplete = false) ds st ⟨row, hrow, hmark⟩ fun p _ ⟨before, hbefore, hmarked⟩ => ?_
  obtain ⟨after, hafter, hkeeps⟩ := (deliver_grows p.1 p.2).rows positionId before hbefore
  exact ⟨after, hafter, hkeeps.marked hmarked⟩

/-- A verified full exit of an open position, with no add of the position confirming, marks the
basis when it sold more than the position had left beyond dust, and no later delivery takes the mark
away: its P&L is not trusted from then on. While an add is confirming the excess is left to it and
the mark stays as it was. -/
theorem full_exit_marks_oversale {st st' : Store} {readings : Readings} {positionId : ℤ}
    {fill : CloseFill} {exitSignature : String} {exitAmount : ℕ} {heldAfter : Option ℕ}
    {row row' : Position} {outcome : Option LateFill}
    (hrow : st.rows.lookup positionId = some row) (hopen : row.isClosed = false)
    (h : applyTransition st readings
      (.exitVerified positionId fill exitSignature exitAmount heldAfter) =
      .ok (.written row' st' outcome)) :
    row'.basisComplete =
        (row.basisComplete && (readings.ownAddPending || !row.oversold exitAmount)) ∧
      (readings.ownAddPending = false → row.oversold exitAmount = true → ∀ ds : List Delivery,
        ∃ later, (ds.foldl deliver st').rows.lookup positionId = some later ∧
          later.hasTrustworthyPnl = false) := by
  obtain ⟨old, booked, record, hold, hbook, hst'⟩ := commitBooking_ok h
  cases hrow.symm.trans hold
  have hbasis := bookExitVerified_open hopen hbook
  refine ⟨hbasis, fun hpending hover ds => ?_⟩
  have hwritten : st'.rows.lookup positionId = some (Store.stored row row') := by
    rw [committed_rows hst']
    exact AList.lookup_insert _
  have hmark : (Store.stored row row').basisComplete = false := by
    rw [show (Store.stored row row').basisComplete = row'.basisComplete from rfl, hbasis, hpending,
      hover]
    simp
  obtain ⟨later, hlater, hmarked⟩ := mark_persists ds hwritten hmark
  exact ⟨later, hlater, by rw [Position.hasTrustworthyPnl, hmarked, Bool.false_and]⟩

/-- An open position of 200 tokens alone in the store. -/
def openAlone : Store where
  rows := AList.insert (1 : ℤ) { openRow "mint" with id := some 1 } ∅
  entries := []
  exits := []

/-- A full exit of `sold` tokens of that position. -/
def fullExitOf (sold : ℕ) : Transition :=
  .exitVerified 1 ⟨Binary64.div 1 100, 10, 5, 90⟩ "sale" sold none

theorem full_exit_marks_oversale_alone : ∃ later,
    ([⟨fullExitOf 1000, quietReadings⟩].foldl deliver
      (deliver openAlone ⟨fullExitOf 1000, quietReadings⟩)).rows.lookup 1 = some later ∧
      later.hasTrustworthyPnl = false := by
  have hbooks : books openAlone ⟨fullExitOf 1000, quietReadings⟩ = true := by decide +kernel
  obtain ⟨row', late, h⟩ := books_ok hbooks
  have hrow : openAlone.rows.lookup 1 = some { openRow "mint" with id := some 1 } := by
    decide +kernel
  exact (full_exit_marks_oversale hrow (by decide +kernel) h).2 rfl (by decide +kernel) _

/-- The tokens a transition reports as sold. -/
def Transition.sold : Transition → ℕ
  | exitVerified _ _ _ exitAmount _ => exitAmount
  | partialExitVerified _ exitAmount .. => exitAmount
  | _ => 0

/-- A booked sale of more than its row had left leaves the row marked. -/
def MarksOversale (st : Store) (readings : Readings) (t : Transition) : Prop :=
  ∀ row row' st' outcome, st.rows.lookup t.positionId = some row → row.oversold t.sold = true →
    applyTransition st readings t = .ok (.written row' st' outcome) → row'.basisComplete = false

/-- Whether a transition books its row with a complete basis. -/
def booksComplete (st : Store) (readings : Readings) (t : Transition) : Bool :=
  match applyTransition st readings t with
  | .ok (.written row' _ _) => row'.basisComplete
  | _ => false

theorem not_marks {st : Store} {readings : Readings} {t : Transition} {row : Position}
    (hrow : st.rows.lookup t.positionId = some row) (hover : row.oversold t.sold = true)
    (hcomplete : booksComplete st readings t = true) : ¬ MarksOversale st readings t := by
  intro h
  unfold booksComplete at hcomplete
  split at hcomplete
  next row' st' outcome happly =>
    rw [h row row' st' outcome hrow hover happly] at hcomplete
    cases hcomplete
  next => cases hcomplete

/-- The basis stays complete, whatever was sold, while an add of the position is confirming, and
when the sale is booked as a partial exit. -/
theorem oversale_unmarked :
    ¬ MarksOversale openAlone { quietReadings with ownAddPending := true } (fullExitOf 1000) ∧
      ¬ MarksOversale openAlone quietReadings
        (.partialExitVerified 1 1000 10 (Binary64.div 1 100) 5 90 "sale" 100 none) := by
  have hrow : openAlone.rows.lookup 1 = some { openRow "mint" with id := some 1 } := by
    decide +kernel
  constructor
  · exact not_marks hrow (by decide +kernel) (by decide +kernel)
  · exact not_marks hrow (by decide +kernel) (by decide +kernel)

end ScreenerBot.Positions
