import ScreenerBot.Positions.Handover

/-! What a verified transition leaves behind once its booking transaction has committed. -/
namespace ScreenerBot.Positions
open Library

@[simp] theorem Store.insertRecord_rows (st : Store) (record : BookingRecord) :
    (st.insertRecord record).rows = st.rows := by
  cases record with
  | exit record =>
    change (st.insertExitRecord record).rows = st.rows
    unfold insertExitRecord
    split <;> rfl
  | entry record =>
    change (st.insertEntryRecord record).rows = st.rows
    unfold insertEntryRecord
    split <;> rfl

/-- A written transaction writes its own row over what the booking did to the store. -/
theorem commitBooking_ok {τ : Type} {st st' : Store} {positionId : ℤ}
    {book : Position → Except BookingError (Booking τ)} {row' : Position} {outcome : τ}
    (h : commitBooking st positionId book = .ok (.written row' st' outcome)) :
    ∃ old booked record, st.rows.lookup positionId = some old ∧
      book old = .ok (.write row' booked record outcome) ∧
      st' = record.elim (booked.writeRow positionId old row')
        (booked.writeRow positionId old row').insertRecord := by
  unfold commitBooking at h
  split at h
  · cases h
  next old hold =>
    obtain ⟨booking, hbooking, h⟩ := bind_eq_ok.mp h
    cases booking with
    | skip => cases h
    | write row booked record outcome' =>
      cases h
      exact ⟨old, booked, record, hold, hbooking, rfl⟩

theorem committed_rows {st st' : Store} {positionId : ℤ} {old row : Position}
    {record : Option BookingRecord}
    (h : st' = record.elim (st.writeRow positionId old row)
      (st.writeRow positionId old row).insertRecord) :
    st'.rows = st.rows.insert positionId (Store.stored old row) := by
  cases record with
  | none => rw [h]; rfl
  | some record => rw [h, Option.elim_some, Store.insertRecord_rows]; rfl

theorem bringBackReopened_still {st : Store} {row : Position} {late : LateFill} :
    Still row (bringBackReopened st row late).1 := by
  unfold bringBackReopened
  split
  · exact .of_eq rfl rfl rfl rfl
  · split <;> exact .of_eq rfl rfl rfl rfl

theorem blendBooked_still {row : Position} {kept : KeptLeg} {decimals : Option ℕ} :
    Still row (blendBooked row kept decimals) := by
  cases decimals with
  | none => exact .of_eq rfl rfl rfl rfl
  | some decimals => exact Position.blendAverageEntryPrice_still

/-- The record a row keeps of the part of an add it booked. -/
def addEntry (positionId : ℤ) (fill : DcaFill) (price : ℚ) (signature : String) (kept : KeptLeg) :
    EntryRecord where
  positionId := positionId
  timestamp := fill.dcaTime
  amount := kept.leg.tokens
  price := price
  nativeSpent := kept.leg.costNative
  transactionSignature := signature
  isDca := true
  feesRaw := some kept.feeRaw

/-- The record of the part of an add its row booked; a part without tokens has none. -/
def addRecord (positionId : ℤ) (fill : DcaFill) (price : ℚ) (signature : String) (kept : KeptLeg) :
    Option BookingRecord :=
  if 0 < kept.leg.tokens then some
    (.entry (addEntry positionId fill price signature kept)) else none

/-- An add booked whole by its row. -/
def DcaFill.whole (fill : DcaFill) : KeptLeg := ⟨⟨fill.tokensBought, fill.nativeSpent⟩, fill.feeRaw⟩

/-- The record a row keeps of its entry. -/
def boughtEntry (positionId : ℤ) (row : Position) (fill : EntryFill) (signature : String) :
    EntryRecord where
  positionId := positionId
  timestamp := row.entryTime
  amount := fill.tokenAmount
  price := fill.effectiveEntryPrice
  nativeSpent := fill.nativeSize
  transactionSignature := signature
  isDca := false
  feesRaw := some fill.feeRaw

section Book

variable {st booked : Store} {positionId : ℤ} {heldAfter : Option ℕ} {readings : Readings}
  {row row' : Position} {record : Option BookingRecord} {outcome : Option LateFill}

/-- A booked entry was not booked before. It fills its row, and a closed row then follows its
round. -/
theorem bookEntryVerified_ok {fill : EntryFill}
    (h : bookEntryVerified st positionId fill heldAfter readings row =
      .ok (.write row' booked record outcome)) :
    (row.transactionEntryVerified = false ∧
      row.entryTransactionSignature.any (st.entryRecordExists positionId) = false) ∧
    record = row.entryTransactionSignature.map
      (fun signature => .entry (boughtEntry positionId row fill signature)) ∧
    ((row.isClosed = false ∧ row' = row.applyEntryFill fill ∧ booked = st ∧ outcome = none) ∨
      (row.isClosed = true ∧ ∃ filled late,
        lateFill st positionId (row.applyEntryFill fill) ⟨heldAfter, readings.otherSwapInFlight,
          row.entryTransactionSignature, row.entryTime, readings.decimals⟩ row.syntheticExit
          (closingSaleRecorded st positionId (row.applyEntryFill fill)) =
          .ok (filled, booked, late) ∧
        row' = (bringBackReopened booked filled late).1 ∧
        outcome = some (bringBackReopened booked filled late).2)) := by
  unfold bookEntryVerified at h
  dsimp only at h
  split at h
  · cases h
  next hnew =>
    rw [Bool.or_eq_true, not_or, Bool.not_eq_true, Bool.not_eq_true] at hnew
    split at h
    next hclosed =>
      obtain ⟨⟨filled, moved, late⟩, hlate, hret⟩ := bind_eq_ok.mp h
      cases hret
      exact ⟨hnew, rfl, .inr ⟨hclosed, filled, late, hlate, rfl, rfl⟩⟩
    next hopen =>
      cases h
      exact ⟨hnew, rfl, .inl ⟨Bool.eq_false_of_not_eq_true hopen, rfl, rfl, rfl⟩⟩

/-- A booked add was recorded on no row of the mint. An open row books it whole, a closed one
as `lateDca` decides. -/
theorem bookDcaVerified_ok {fill : DcaFill} {price : ℚ} {signature : String}
    (h : bookDcaVerified st positionId fill price signature heldAfter readings row =
      .ok (.write row' booked record outcome)) :
    st.entryRecordedForMint row.mint signature = false ∧
    ((row.isClosed = false ∧ booked = st ∧ outcome = none ∧
        record = addRecord positionId fill price signature fill.whole ∧
        ∃ bought, row.bookDca fill = .ok bought ∧
          row' = blendBooked (bringBack (st.mayUnarchive bought.mint positionId) bought) fill.whole
            readings.decimals) ∨
      (row.isClosed = true ∧ ∃ filled late kept,
        lateDca st positionId row ⟨heldAfter, readings.otherSwapInFlight, some signature,
          fill.dcaTime, readings.decimals⟩ row.syntheticExit fill price =
          .ok (filled, booked, late, kept) ∧
        record = addRecord positionId fill price signature kept ∧
        outcome = some (bringBackReopened booked filled late).2 ∧
        row' = if (bringBackReopened booked filled late).2.follow = .reopened then
          blendBooked (bringBackReopened booked filled late).1 kept readings.decimals
          else (bringBackReopened booked filled late).1)) := by
  unfold bookDcaVerified at h
  dsimp only at h
  split at h
  · cases h
  next hnew =>
    refine ⟨Bool.eq_false_of_not_eq_true hnew, ?_⟩
    split at h
    next hclosed =>
      obtain ⟨⟨filled, moved, late, kept⟩, hlate, hret⟩ := bind_eq_ok.mp h
      cases hret
      exact .inr ⟨hclosed, filled, late, kept, hlate, rfl, rfl, rfl⟩
    next hopen =>
      obtain ⟨bought, hbought, hret⟩ := bind_eq_ok.mp h
      cases hret
      exact .inl ⟨Bool.eq_false_of_not_eq_true hopen, rfl, rfl, rfl, bought, hbought, rfl⟩

/-- What an add books on a closed row moves no more than `lateDca` does. -/
theorem bookDcaVerified_closed {fill : DcaFill} {price : ℚ} {signature : String}
    (hclosed : row.isClosed = true)
    (h : bookDcaVerified st positionId fill price signature heldAfter readings row =
      .ok (.write row' booked record outcome)) :
    ∃ filled late kept, lateDca st positionId row ⟨heldAfter, readings.otherSwapInFlight,
        some signature, fill.dcaTime, readings.decimals⟩ row.syntheticExit fill price =
        .ok (filled, booked, late, kept) ∧
      Still filled row' ∧ record = addRecord positionId fill price signature kept := by
  obtain ⟨-, ⟨hopen, -⟩ | ⟨-, filled, late, kept, hlate, hrecord, -, rfl⟩⟩ := bookDcaVerified_ok h
  · rw [hclosed] at hopen
    cases hopen
  · refine ⟨filled, late, kept, hlate, ?_, hrecord⟩
    split
    · exact bringBackReopened_still.trans blendBooked_still
    · exact bringBackReopened_still

/-- What an entry books on a closed row: the whole fill, and then what it hands over. -/
theorem bookEntryVerified_closed {fill : EntryFill} (hclosed : row.isClosed = true)
    (h : bookEntryVerified st positionId fill heldAfter readings row =
      .ok (.write row' booked record outcome)) :
    ∃ filled late, lateFill st positionId (row.applyEntryFill fill) ⟨heldAfter,
        readings.otherSwapInFlight, row.entryTransactionSignature, row.entryTime,
        readings.decimals⟩ row.syntheticExit
        (closingSaleRecorded st positionId (row.applyEntryFill fill)) =
        .ok (filled, booked, late) ∧
      Still filled row' := by
  obtain ⟨-, -, ⟨hopen, -⟩ | ⟨-, filled, late, hlate, rfl, -⟩⟩ := bookEntryVerified_ok h
  · rw [hclosed] at hopen
    cases hopen
  · exact ⟨filled, late, hlate, bringBackReopened_still⟩

end Book

/-- Whether a delivery writes anything: not when it is refused or skipped. -/
def books (st : Store) (d : Delivery) : Bool :=
  match applyTransition st d.readings d.transition with
  | .ok (.written ..) => true
  | _ => false

theorem books_ok {st : Store} {d : Delivery} (h : books st d = true) :
    ∃ row late, applyTransition st d.readings d.transition =
      .ok (.written row (deliver st d) late) := by
  unfold books at h
  unfold deliver
  split at h
  next row st' late hwritten => exact ⟨row, late, by rw [hwritten]⟩
  · cases h

/-- A delivery that books nothing leaves the store as it was. -/
theorem deliver_eq_self {st : Store} {d : Delivery} (h : books st d = false) :
    deliver st d = st := by
  unfold books at h
  unfold deliver
  cases happlied : applyTransition st d.readings d.transition with
  | error => rfl
  | ok committed =>
    cases committed with
    | skipped => rfl
    | written row st' late =>
      rw [happlied] at h
      cases h

/-- The open row a delivery hands a holding to. -/
def handedTo (st : Store) (d : Delivery) : Option ℤ :=
  match applyTransition st d.readings d.transition with
  | .ok (.written _ _ late) => late.bind (·.handedTo)
  | _ => none

theorem bringBackReopened_handedTo (st : Store) (row : Position) (late : LateFill) :
    (bringBackReopened st row late).2.handedTo = late.handedTo := by
  unfold bringBackReopened
  split
  · rfl
  · split <;> rfl

end ScreenerBot.Positions
