import ScreenerBot.Positions.Conservation
import ScreenerBot.Positions.Statements

/-! A booking is all or nothing: what its statements do when none fails is what its transition
books, and whatever fails, nothing of it is left. -/
namespace ScreenerBot.Positions
open Library

/-- A booking's refusal, as the store reports it. -/
def refusing {α : Type} (x : Except BookingError α) : Except StoreError α := x.mapError .refused

section Refusing

variable {α β : Type}

@[simp]
theorem refusing_ok (a : α) : refusing (.ok a) = .ok a := rfl

@[simp]
theorem refusing_pure (a : α) : refusing (pure a) = pure a := rfl

@[simp]
theorem refusing_bind (x : Except BookingError α) (f : α → Except BookingError β) :
    refusing (x >>= f) = refusing x >>= fun a => refusing (f a) := by
  cases x <;> rfl

end Refusing

namespace Tx

section Eval

variable {α : Type} (st : Store)

@[simp]
theorem eval_read (query : Store → α) : (read query).eval st = pure (query st, st) := rfl

@[simp]
theorem eval_write (update : Store → Store) : (write update).eval st = pure ((), update st) := rfl

@[simp]
theorem eval_lift (x : Except BookingError α) :
    (lift x).eval st = refusing x >>= fun a => pure (a, st) := by
  cases x <;> rfl

@[simp]
theorem eval_closingSaleRecorded (positionId : ℤ) (row : Position) :
    (closingSaleRecorded positionId row).eval st =
      pure (Positions.closingSaleRecorded st positionId row, st) := by
  unfold closingSaleRecorded Positions.closingSaleRecorded
  cases row.syntheticExit with
  | true => rfl
  | false => cases row.exitTransactionSignature <;> rfl

@[simp]
theorem eval_mayUnarchive (mint : String) (positionId : ℤ) :
    (mayUnarchive mint positionId).eval st = pure (st.mayUnarchive mint positionId, st) := rfl

@[simp]
theorem eval_lateFillHolding (positionId : ℤ) (row : Position) (reading : LateFillReading)
    (unbooked : ℕ) : (lateFillHolding positionId row reading unbooked).eval st =
      refusing (Positions.lateFillHolding st positionId row reading unbooked) >>=
        fun held => pure (held, st) := by
  unfold lateFillHolding Positions.lateFillHolding
  split
  · rfl
  · cases reading.heldAfter with
    | none => rfl
    | some heldAfter =>
      dsimp only
      cases row.acquiredAmount.bind fun acquired => checkedRaw (acquired + unbooked) with
      | none => rfl
      | some acquired =>
        simp only [Statements.eval_bind, eval_read, eval_lift, Statements.eval_pure, pure_bind,
          bind_assoc, refusing_bind, refusing_pure]

/-- The update of a row and of its archive flag store the row a booking left. -/
@[simp]
theorem eval_storeRow {positionId : ℤ} {old current : Position} (row : Position)
    (hcurrent : st.rows.lookup positionId = some current)
    (harchived : current.archived = old.archived)
    (harchivedAt : current.archivedAt = old.archivedAt) :
    (storeRow positionId old row).eval st = pure ((), st.writeRow positionId old row) := by
  simp only [storeRow, writePositionRow, writeUnarchived, Statements.eval_bind, eval_write,
    pure_bind, hcurrent, Store.writeRow, Store.stored]
  cases hold : old.archived <;> cases hnew : row.archived <;>
    simp [hold, harchived, harchivedAt, AList.lookup_insert, AList.insert_insert]

@[simp]
theorem eval_writeRecord (record : Option BookingRecord) :
    (writeRecord record).eval st = pure ((), record.elim st st.insertRecord) := by
  cases record <;> rfl

@[simp]
theorem eval_readRow (positionId : ℤ) :
    (readRow positionId).eval st = match st.rows.lookup positionId with
      | none => .error (.refused (.notFoundById positionId))
      | some row => pure (row, st) := by
  simp only [readRow, Statements.eval_bind, eval_read, pure_bind]
  cases st.rows.lookup positionId <;> rfl

@[simp]
theorem eval_bookOpenRound (openRoundId : ℤ) (signature : String)
    (book : Position → Except BookingError (Position × EntryRecord)) :
    (bookOpenRound openRoundId signature book).eval st =
      refusing (st.bookOpenRound openRoundId signature book) >>= fun booked =>
        pure (booked.map Prod.fst, (booked.map Prod.snd).getD st) := by
  simp only [bookOpenRound, Store.bookOpenRound, Statements.eval_bind, eval_read, pure_bind]
  split
  · rfl
  · simp only [Statements.eval_bind, eval_readRow]
    cases hold : st.rows.lookup openRoundId with
    | none => rfl
    | some old =>
      simp only [eval_lift, eval_storeRow st _ hold rfl rfl, eval_write, Statements.eval_pure,
        pure_bind, bind_assoc, refusing_bind, refusing_pure]
      rfl

@[simp]
theorem eval_handOver (row : Position) (reading : LateFillReading) (openRoundId : ℤ)
    (record : HandoverRecord) :
    (handOver row reading openRoundId record).eval st =
      refusing (Positions.handOver st row reading openRoundId record) >>= fun st' =>
        pure ((), st') := by
  unfold handOver Positions.handOver
  cases reading.signature with
  | none => rfl
  | some signature =>
    simp only [Statements.eval_bind, eval_mayUnarchive, eval_bookOpenRound, pure_bind, bind_assoc,
      refusing_bind]
    refine bind_congr fun booked => ?_
    cases booked <;> rfl

@[simp]
theorem eval_lateFill (positionId : ℤ) (row : Position) (reading : LateFillReading)
    (afterWriteOff recorded : Bool) :
    (lateFill positionId row reading afterWriteOff recorded).eval st =
      refusing (Positions.lateFill st positionId row reading afterWriteOff recorded) >>= fun r =>
        pure ((r.1, r.2.2), r.2.1) := by
  simp only [lateFill, Positions.lateFill, Statements.eval_bind, eval_lateFillHolding, eval_read,
    pure_bind, bind_assoc, refusing_bind]
  refine bind_congr fun held => ?_
  cases st.openRoundBeside row.mint positionId with
  | none =>
    simp only [Statements.eval_bind, eval_lift, Statements.eval_pure, pure_bind, bind_assoc,
      refusing_bind, refusing_pure]
  | some openRoundId =>
    simp only [Statements.eval_bind, eval_lift, pure_bind, bind_assoc, refusing_bind]
    refine bind_congr fun moved => ?_
    rcases moved with ⟨row, follow, _ | handover⟩
    · rfl
    · simp only [Statements.eval_bind, eval_handOver, Statements.eval_pure, pure_bind, bind_assoc,
        refusing_bind, refusing_pure]

@[simp]
theorem eval_lateDca (positionId : ℤ) (row : Position) (reading : LateFillReading)
    (afterWriteOff : Bool) (fill : DcaFill) (price : ℚ) :
    (lateDca positionId row reading afterWriteOff fill price).eval st =
      refusing (Positions.lateDca st positionId row reading afterWriteOff fill price) >>= fun r =>
        pure ((r.1, r.2.2), r.2.1) := by
  simp only [lateDca, Positions.lateDca, Statements.eval_bind, eval_closingSaleRecorded,
    eval_lateFillHolding, eval_read, pure_bind, bind_assoc, refusing_bind]
  refine bind_congr fun held => ?_
  cases st.openRoundBeside row.mint positionId with
  | none =>
    simp only [Statements.eval_bind, eval_lift, Statements.eval_pure, pure_bind, bind_assoc,
      refusing_bind, refusing_pure]
  | some openRoundId =>
    simp only [Statements.eval_bind, eval_lift, pure_bind, bind_assoc, refusing_bind]
    refine bind_congr fun moved => ?_
    obtain ⟨row, follow, split⟩ := moved
    dsimp only
    split
    · rfl
    · cases split.handed with
      | none => rfl
      | some handover =>
        simp only [Statements.eval_bind, eval_handOver, Statements.eval_pure, pure_bind, bind_assoc,
          refusing_bind, refusing_pure]

@[simp]
theorem eval_bringBackReopened (row : Position) (late : LateFill) :
    (bringBackReopened row late).eval st = pure (Positions.bringBackReopened st row late, st) := by
  unfold bringBackReopened Positions.bringBackReopened
  cases row.id with
  | none => rfl
  | some positionId =>
    dsimp only
    by_cases hback : late.follow = .reopened ∧ row.archived = true
    · rw [if_pos hback]
      simp only [Statements.eval_bind, eval_mayUnarchive, pure_bind, hback, true_and]
      split <;> rfl
    · rw [if_neg hback, if_neg fun h => hback ⟨h.1, h.2.1⟩]
      rfl

/-- What a booking decided, with the store its statements left. -/
def ofBooking : Positions.Booking (Option LateFill) → Booking (Option LateFill) × Store
  | .write row booked record outcome => (.write row record outcome, booked)
  | .skip => (.skip none, st)

theorem eval_bookEntryVerified (positionId : ℤ) (fill : EntryFill) (heldAfter : Option ℕ)
    (readings : Readings) (row : Position) :
    (bookEntryVerified positionId fill heldAfter readings row).eval st =
      refusing (Positions.bookEntryVerified st positionId fill heldAfter readings row) >>= fun b =>
        pure (ofBooking st b) := by
  have hbooked : (entryBooked positionId row).eval st = pure (row.transactionEntryVerified ||
      row.entryTransactionSignature.any (st.entryRecordExists positionId), st) := by
    unfold entryBooked
    cases row.transactionEntryVerified with
    | true => rfl
    | false => cases row.entryTransactionSignature <;> rfl
  simp only [bookEntryVerified, Positions.bookEntryVerified, Statements.eval_bind,
    hbooked, pure_bind]
  split
  · rfl
  · split
    · simp only [Statements.eval_bind, eval_closingSaleRecorded, eval_lateFill,
        eval_bringBackReopened, Statements.eval_pure, pure_bind, bind_assoc, refusing_bind,
        refusing_pure, ofBooking]
    · rfl

theorem eval_bookExitVerified (positionId : ℤ) (fill : CloseFill) (exitSignature : String)
    (exitAmount : ℕ) (heldAfter : Option ℕ) (readings : Readings) (row : Position) :
    (bookExitVerified positionId fill exitSignature exitAmount heldAfter readings row).eval st =
      refusing (Positions.bookExitVerified st positionId fill exitSignature exitAmount heldAfter
        readings row) >>= fun b => pure (ofBooking st b) := by
  simp only [bookExitVerified, Positions.bookExitVerified, Statements.eval_bind,
    eval_read, pure_bind]
  split
  · rfl
  · split
    · split
      · rfl
      · simp only [Statements.eval_bind, eval_closingSaleRecorded, eval_lateFill,
          Statements.eval_pure, pure_bind, bind_assoc, refusing_bind, refusing_pure, ofBooking]
    · split
      · rfl
      · cases readings.ownAddPending <;>
          simp only [Statements.eval_bind, eval_lift, Statements.eval_pure, pure_bind, bind_assoc,
            refusing_bind, refusing_pure, ofBooking, if_true, Bool.false_eq_true, if_false,
            refusing_ok]

theorem eval_bookPartialExitVerified (positionId : ℤ) (exitAmount : ℕ)
    (nativeReceived effectiveExitPrice : ℚ) (feeRaw : ℕ) (exitTime : ℤ) (exitSignature : String)
    (exitPercentage : ℚ) (heldAfter : Option ℕ) (readings : Readings) (row : Position) :
    (bookPartialExitVerified positionId exitAmount nativeReceived effectiveExitPrice feeRaw
      exitTime exitSignature exitPercentage heldAfter readings row).eval st =
      refusing (Positions.bookPartialExitVerified st positionId exitAmount nativeReceived
        effectiveExitPrice feeRaw exitTime exitSignature exitPercentage heldAfter readings row) >>=
        fun b => pure (ofBooking st b) := by
  simp only [bookPartialExitVerified, Positions.bookPartialExitVerified, Statements.eval_bind,
    eval_read, pure_bind]
  split
  · rfl
  · split
    · split
      · rfl
      · simp only [Statements.eval_bind, eval_closingSaleRecorded, eval_lateFill,
          Statements.eval_pure, pure_bind, bind_assoc, refusing_bind, refusing_pure, ofBooking]
    · simp only [Statements.eval_bind, eval_lift, Statements.eval_pure, pure_bind, bind_assoc,
        refusing_bind, refusing_pure, ofBooking]

theorem eval_bookDcaVerified (positionId : ℤ) (fill : DcaFill) (effectivePrice : ℚ)
    (dcaSignature : String) (heldAfter : Option ℕ) (readings : Readings) (row : Position) :
    (bookDcaVerified positionId fill effectivePrice dcaSignature heldAfter readings row).eval st =
      refusing (Positions.bookDcaVerified st positionId fill effectivePrice dcaSignature heldAfter
        readings row) >>= fun b => pure (ofBooking st b) := by
  simp only [bookDcaVerified, Positions.bookDcaVerified, Statements.eval_bind, eval_read, pure_bind]
  split
  · rfl
  · split
    · simp only [Statements.eval_bind, eval_lateDca, eval_bringBackReopened, Statements.eval_pure,
        pure_bind, bind_assoc, refusing_bind, refusing_pure, ofBooking]
    · simp only [Statements.eval_bind, eval_lift, bind_assoc, refusing_bind, pure_bind]
      refine bind_congr fun booked => ?_
      cases harchived : booked.archived with
      | true => simp [bringBack, harchived, ofBooking]
      | false => simp [bringBack, harchived, ofBooking]

theorem eval_bookStatements (t : Transition) (readings : Readings) (row : Position) :
    (t.bookStatements readings row).eval st =
      refusing (t.book st readings row) >>= fun b => pure (ofBooking st b) := by
  cases t with
  | entryVerified => apply eval_bookEntryVerified
  | exitVerified => apply eval_bookExitVerified
  | partialExitVerified => apply eval_bookPartialExitVerified
  | dcaVerified => apply eval_bookDcaVerified

end Eval

end Tx

section Frame

variable {st st' : Store} {positionId : ℤ} {row row' : Position} {reading : LateFillReading}
  {late : LateFill}

/-- What a closed row hands over is written on another row. -/
theorem handOver_frame {openRoundId : ℤ} {record : HandoverRecord}
    (hopen : st.openRoundBeside row.mint positionId = some openRoundId)
    (h : handOver st row' reading openRoundId record = .ok st') :
    st'.rows.lookup positionId = st.rows.lookup positionId := by
  have hne := (openRoundBeside_ok hopen).1
  exact (handOver_rows h).2 positionId (by simpa using hne.symm)

theorem lateFill_frame {afterWriteOff recorded : Bool}
    (h : lateFill st positionId row reading afterWriteOff recorded = .ok (row', st', late)) :
    st'.rows.lookup positionId = st.rows.lookup positionId := by
  obtain ⟨held, -, h⟩ := bind_eq_ok.mp h
  split at h
  · obtain ⟨followed, -, hret⟩ := bind_eq_ok.mp h
    cases hret
    rfl
  next openRoundId hopen =>
    obtain ⟨⟨q, follow, handover⟩, -, h⟩ := bind_eq_ok.mp h
    cases handover with
    | none =>
      cases h
      rfl
    | some handover =>
      obtain ⟨moved, hmoved, hret⟩ := bind_eq_ok.mp h
      cases hret
      exact handOver_frame hopen hmoved

theorem lateDca_frame {afterWriteOff : Bool} {fill : DcaFill} {price : ℚ} {kept : KeptLeg}
    (h : lateDca st positionId row reading afterWriteOff fill price =
      .ok (row', st', late, kept)) :
    st'.rows.lookup positionId = st.rows.lookup positionId := by
  obtain ⟨held, -, h⟩ := bind_eq_ok.mp h
  split at h
  · obtain ⟨booked, -, h⟩ := bind_eq_ok.mp h
    obtain ⟨followed, -, hret⟩ := bind_eq_ok.mp h
    cases hret
    rfl
  next openRoundId hopen =>
    obtain ⟨⟨q, follow, split⟩, -, h⟩ := bind_eq_ok.mp h
    dsimp only at h
    split at h
    · cases h
      rfl
    · split at h
      · cases h
      · obtain ⟨moved, hmoved, hret⟩ := bind_eq_ok.mp h
        cases hret
        exact handOver_frame hopen hmoved

/-- A booking leaves its own row to the transaction that writes it. -/
theorem book_frame {t : Transition} {readings : Readings} {record : Option BookingRecord}
    {outcome : Option LateFill}
    (h : t.book st readings row = .ok (.write row' st' record outcome)) :
    st'.rows.lookup t.positionId = st.rows.lookup t.positionId := by
  cases t with
  | entryVerified positionId fill heldAfter =>
    change bookEntryVerified _ _ _ _ _ _ = _ at h
    unfold bookEntryVerified at h
    split at h
    · cases h
    · dsimp only at h
      split at h
      · obtain ⟨⟨q, booked, late⟩, hlate, hret⟩ := bind_eq_ok.mp h
        cases hret
        exact lateFill_frame hlate
      · cases h
        rfl
  | exitVerified positionId fill exitSignature exitAmount heldAfter =>
    change bookExitVerified _ _ _ _ _ _ _ _ = _ at h
    unfold bookExitVerified at h
    dsimp only at h
    split at h
    · cases h
    · split at h
      · split at h
        · cases h
        · obtain ⟨⟨q, booked, late⟩, hlate, hret⟩ := bind_eq_ok.mp h
          cases hret
          exact lateFill_frame hlate
      · split at h
        · cases h
        · split at h <;>
          · obtain ⟨absorbed, -, h⟩ := bind_eq_ok.mp h
            obtain ⟨closed, -, hret⟩ := bind_eq_ok.mp h
            cases hret
            rfl
  | partialExitVerified =>
    change bookPartialExitVerified _ _ _ _ _ _ _ _ _ _ _ _ = _ at h
    unfold bookPartialExitVerified at h
    dsimp only at h
    split at h
    · cases h
    · split at h
      · split at h
        · cases h
        · obtain ⟨⟨q, booked, late⟩, hlate, hret⟩ := bind_eq_ok.mp h
          cases hret
          exact lateFill_frame hlate
      · obtain ⟨sold, -, hret⟩ := bind_eq_ok.mp h
        cases hret
        rfl
  | dcaVerified =>
    change bookDcaVerified _ _ _ _ _ _ _ _ = _ at h
    unfold bookDcaVerified at h
    dsimp only at h
    split at h
    · cases h
    · split at h
      · obtain ⟨⟨q, booked, late, kept⟩, hlate, hret⟩ := bind_eq_ok.mp h
        cases hret
        exact lateDca_frame hlate
      · obtain ⟨bought, -, hret⟩ := bind_eq_ok.mp h
        cases hret
        rfl

end Frame

namespace Tx

/-- What a transaction ended with, as its statements end it. -/
def ofCommitted (st : Store) :
    Positions.Committed (Option LateFill) → Ending (Committed (Option LateFill)) × Store
  | .written row committed outcome => (.commit (.written row outcome), committed)
  | .skipped => (.drop (.skipped none), st)

/-- The statements of a booking do together what its transition books. -/
theorem eval_runBooking (st : Store) (t : Transition) (readings : Readings) :
    (runBooking t.positionId (t.bookStatements readings)).eval st =
      refusing (applyTransition st readings t) >>= fun committed =>
        pure (ofCommitted st committed) := by
  simp only [runBooking, applyTransition, commitBooking, Statements.eval_bind, eval_readRow]
  cases hold : st.rows.lookup t.positionId with
  | none => rfl
  | some old =>
    simp only [eval_bookStatements, pure_bind, bind_assoc, refusing_bind]
    cases hbook : t.book st readings old with
    | error error => rfl
    | ok decided =>
      cases decided with
      | skip => rfl
      | write row booked record outcome =>
        have hrow := (book_frame hbook).trans hold
        have hwrites : Statements.eval (do
            storeRow t.positionId old row
            writeRecord record
            return Ending.commit (Committed.written row outcome)) booked =
            pure (.commit (.written row outcome), record.elim (booked.writeRow t.positionId old row)
              (booked.writeRow t.positionId old row).insertRecord) := by
          simp only [Statements.eval_bind, eval_storeRow booked row hrow rfl rfl, eval_writeRecord,
            Statements.eval_pure, pure_bind]
        exact hwrites

end Tx

/-- When no statement fails, a transition that books is committed and its row published. -/
theorem unfailing_books {st : Store} {t : Transition} {readings : Readings} {row : Position}
    {committed : Store} {outcome : Option LateFill} (memory : Memory)
    (h : applyTransition st readings t = .ok (.written row committed outcome)) :
    bookPosition Scripted.connection t.positionId
      (t.bookStatements readings) ⟨st, none, []⟩ memory =
      (.ok (.written row outcome), ⟨committed, none, []⟩, memory.publishCommitted row) := by
  have hended := Scripted.transact_unfailing
    (Tx.runBooking t.positionId (t.bookStatements readings)) st (.written row outcome) committed
    (by rw [Tx.eval_runBooking, h]; rfl)
  rw [bookPosition, hended]
  rfl

/-- A booking that ends with an error leaves the store and the positions in memory as they were,
whatever it had written and whichever of its steps failed. -/
theorem bookPosition_refused {κ τ : Type} (c : Connection κ Store StoreError) (positionId : ℤ)
    (book : Position → Tx (Tx.Booking τ)) (k : κ) (memory : Memory) {error : StoreError}
    (h : (bookPosition c positionId book k memory).1 = .error error) :
    c.committed (bookPosition c positionId book k memory).2.1 = c.committed k ∧
      (bookPosition c positionId book k memory).2.2 = memory := by
  have hrefused := (c.transact_spec (Tx.runBooking positionId book) k).1
  unfold bookPosition at h ⊢
  cases hrun : c.transact (Tx.runBooking positionId book) k with
  | mk result k' =>
    rw [hrun] at h hrefused
    cases result with
    | error error => exact ⟨hrefused error rfl, rfl⟩
    | ok committed => cases h

/-- A transition that ended without an error left the store that it books, and published its row. -/
theorem bookPosition_booked {κ : Type} (c : Connection κ Store StoreError) (t : Transition)
    (readings : Readings) (k : κ) (memory : Memory) {committed : Tx.Committed (Option LateFill)}
    (h : (bookPosition c t.positionId (t.bookStatements readings) k memory).1 = .ok committed) :
    (applyTransition (c.committed k) readings t = .ok .skipped ∧
      c.committed (bookPosition c t.positionId (t.bookStatements readings) k memory).2.1 =
        c.committed k ∧
      (bookPosition c t.positionId (t.bookStatements readings) k memory).2.2 = memory) ∨
    ∃ row outcome, applyTransition (c.committed k) readings t = .ok (.written row
        (c.committed (bookPosition c t.positionId (t.bookStatements readings) k memory).2.1)
        outcome) ∧
      (bookPosition c t.positionId (t.bookStatements readings) k memory).2.2 =
        memory.publishCommitted row := by
  have hended := (c.transact_spec (Tx.runBooking t.positionId (t.bookStatements readings)) k).2
  have heval := Tx.eval_runBooking (c.committed k) t readings
  unfold bookPosition at h ⊢
  cases hrun : c.transact (Tx.runBooking t.positionId (t.bookStatements readings)) k with
  | mk result k' =>
    rw [hrun] at h hended
    cases result with
    | error error => cases h
    | ok ending =>
      have hended := hended ending rfl
      rw [heval] at hended
      cases happly : applyTransition (c.committed k) readings t with
      | error error =>
        rw [happly] at hended
        rcases hended with ⟨hdropped, -⟩ | hcommitted
        · cases hdropped
        · cases hcommitted
      | ok applied =>
        rw [happly] at hended
        cases applied with
        | skipped =>
          rcases hended with ⟨hdropped, hkept⟩ | hcommitted
          · cases hdropped
            exact .inl ⟨rfl, hkept, rfl⟩
          · cases hcommitted
        | written row store outcome =>
          rcases hended with ⟨hdropped, -⟩ | hcommitted
          · cases hdropped
          · dsimp only
            cases hcommitted
            exact .inr ⟨row, outcome, rfl, rfl⟩

/-- A close with a residual that ends with an error left everything as it was, or as the booking of
its sale left it. -/
theorem bookExitResidual_refused {κ : Type} (c : Connection κ Store StoreError) (r : ExitResidual)
    (readings : Readings) (k : κ) (memory : Memory) {error : StoreError}
    (h : (bookExitResidual c r readings k memory).1 = .error error) :
    (c.committed (bookExitResidual c r readings k memory).2.1 = c.committed k ∧
      (bookExitResidual c r readings k memory).2.2 = memory) ∨
    ∃ sold, (bookPosition c r.positionId (r.sale.bookStatements readings) k memory).1 = .ok sold ∧
      c.committed (bookExitResidual c r readings k memory).2.1 = c.committed
        (bookPosition c r.positionId (r.sale.bookStatements readings) k memory).2.1 ∧
      (bookExitResidual c r readings k memory).2.2 =
        (bookPosition c r.positionId (r.sale.bookStatements readings) k memory).2.2 := by
  have hsale : (bookPosition c r.positionId (r.sale.bookStatements readings) k memory).1 =
      .error error → _ :=
    bookPosition_refused c r.positionId (r.sale.bookStatements readings) k memory
  unfold bookExitResidual at h ⊢
  rcases hsold : bookPosition c r.positionId (r.sale.bookStatements readings) k memory with
    ⟨result, k', memory'⟩
  rw [hsold] at h hsale
  cases result with
  | error refused =>
    obtain rfl : refused = error := Except.error.inj h
    exact .inl (hsale rfl)
  | ok sold =>
    right
    refine ⟨sold, rfl, ?_⟩
    dsimp only at h ⊢
    split at h
    next hlive =>
      have hclear : (bookPosition c r.positionId (Tx.clearExitForRetry r.exitSignature) k'
          memory').1 = .error error → _ :=
        bookPosition_refused c r.positionId (Tx.clearExitForRetry r.exitSignature) k' memory'
      rcases hcleared : bookPosition c r.positionId (Tx.clearExitForRetry r.exitSignature) k'
        memory' with ⟨result, k'', memory''⟩
      rw [hcleared] at h hclear
      rw [if_pos hlive]
      cases result with
      | error refused =>
        obtain rfl : refused = error := Except.error.inj h
        exact hclear rfl
      | ok cleared => cases h
    · cases h

/-- Booking is all or nothing, whatever statement fails. A booking closure that ends with an error
leaves every row, every record and the positions in memory as they were; a verified transition that
ends without one left the store that it books, and published its row. A close with a residual is two
bookings: an error leaves everything as it was, or as the booking of its sale left it. -/
theorem booking_atomic {κ : Type} (c : Connection κ Store StoreError) (k : κ) (memory : Memory) :
    (∀ {τ : Type} (positionId : ℤ) (book : Position → Tx (Tx.Booking τ)) (error : StoreError),
      (bookPosition c positionId book k memory).1 = .error error →
        c.committed (bookPosition c positionId book k memory).2.1 = c.committed k ∧
          (bookPosition c positionId book k memory).2.2 = memory) ∧
    (∀ (t : Transition) (readings : Readings) (committed : Tx.Committed (Option LateFill)),
      (bookPosition c t.positionId (t.bookStatements readings) k memory).1 = .ok committed →
        (applyTransition (c.committed k) readings t = .ok .skipped ∧
          c.committed (bookPosition c t.positionId (t.bookStatements readings) k memory).2.1 =
            c.committed k ∧
          (bookPosition c t.positionId (t.bookStatements readings) k memory).2.2 = memory) ∨
        ∃ row outcome, applyTransition (c.committed k) readings t = .ok (.written row
            (c.committed (bookPosition c t.positionId (t.bookStatements readings) k memory).2.1)
            outcome) ∧
          (bookPosition c t.positionId (t.bookStatements readings) k memory).2.2 =
            memory.publishCommitted row) ∧
    ∀ (r : ExitResidual) (readings : Readings) (error : StoreError),
      (bookExitResidual c r readings k memory).1 = .error error →
        (c.committed (bookExitResidual c r readings k memory).2.1 = c.committed k ∧
          (bookExitResidual c r readings k memory).2.2 = memory) ∨
        ∃ sold,
          (bookPosition c r.positionId (r.sale.bookStatements readings) k memory).1 = .ok sold ∧
          c.committed (bookExitResidual c r readings k memory).2.1 = c.committed
            (bookPosition c r.positionId (r.sale.bookStatements readings) k memory).2.1 ∧
          (bookExitResidual c r readings k memory).2.2 =
            (bookPosition c r.positionId (r.sale.bookStatements readings) k memory).2.2 := by
  refine ⟨?_, ?_, ?_⟩
  · intro τ positionId book error h
    exact bookPosition_refused c positionId book k memory h
  · intro t readings committed h
    exact bookPosition_booked c t readings k memory h
  · intro r readings error h
    exact bookExitResidual_refused c r readings k memory h

/-- A connection on which the twelfth statement of a transaction fails. -/
def twelfthFails : Scripted Store StoreError :=
  ⟨besideOpen, none, List.replicate 11 none ++ [some .database]⟩

/-- The write of the closed row fails when its late add is already booked on the open row: neither
row, no record and nothing in memory is changed. -/
theorem booking_atomic_after_handover :
    (bookPosition Scripted.connection 1
      (lateAddDelivery.transition.bookStatements lateAddDelivery.readings) twelfthFails
      [closedRow "mint"]).2.1.committed = besideOpen ∧
    (bookPosition Scripted.connection 1
      (lateAddDelivery.transition.bookStatements lateAddDelivery.readings) twelfthFails
      [closedRow "mint"]).2.2 = [closedRow "mint"] :=
  (booking_atomic Scripted.connection twelfthFails [closedRow "mint"]).1 1
    (lateAddDelivery.transition.bookStatements lateAddDelivery.readings) .database
    (by rfl)

/-- A close of the open row that sold half of it. -/
def halfSold : ExitResidual := ⟨2, 100, 2, Binary64.div 1 50, 5, 90, "close", 100, some 100⟩

/-- A connection on which a statement after the first transaction fails. -/
def clearFails : Scripted Store StoreError :=
  ⟨besideOpen, none, List.replicate 6 none ++ [some .database]⟩

/-- The clear of a close with a residual fails: its sale stays booked. -/
theorem residual_sale_stays_booked :
    let after := bookExitResidual Scripted.connection halfSold quietReadings clearFails
      [{ openRow "mint" with id := some 2 }]
    after.1.toOption = none ∧ after.2.1.committed.exits.length = 1 ∧
      after.2.1.committed.rows.lookup 2 ≠ besideOpen.rows.lookup 2 ∧
      after.2.2 ≠ [{ openRow "mint" with id := some 2 }] := by
  decide +kernel

end ScreenerBot.Positions
