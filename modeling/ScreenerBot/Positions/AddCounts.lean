import ScreenerBot.Positions.Frame

/-! What a booking does to the adds a row counts, and to which rows of a mint are open. -/
namespace ScreenerBot.Positions
open Library

/-- A row of the same mint that counts `adds` more adds and is closed or open as before. -/
structure Counts (p q : Position) (adds : ℕ) : Prop where
  mint : q.mint = p.mint
  adds : q.dcaCount = p.dcaCount + adds
  exitTime : q.exitTime = p.exitTime

/-- A row of the same mint that counts `adds` more adds, and opens only when it is `alone`. -/
structure Moves (alone : Prop) (p q : Position) (adds : ℕ) : Prop where
  mint : q.mint = p.mint
  adds : q.dcaCount = p.dcaCount + adds
  opens : q.exitTime = none → p.exitTime = none ∨ alone

namespace Counts

variable {p q r : Position} {m n : ℕ} {alone : Prop}

theorem of_eq (hmint : q.mint = p.mint) (hadds : q.dcaCount = p.dcaCount)
    (hexit : q.exitTime = p.exitTime) : Counts p q 0 := ⟨hmint, hadds, hexit⟩

theorem refl : Counts p p 0 := .of_eq rfl rfl rfl

theorem trans (hpq : Counts p q m) (hqr : Counts q r n) : Counts p r (m + n) where
  mint := hqr.mint.trans hpq.mint
  adds := by
    have h := hqr.adds
    have h' := hpq.adds
    omega
  exitTime := hqr.exitTime.trans hpq.exitTime

theorem then_none (hpq : Counts p q m) (hqr : Counts q r 0) : Counts p r m := hpq.trans hqr

theorem moves (h : Counts p q n) : Moves alone p q n :=
  ⟨h.mint, h.adds, fun hopen => .inl (h.exitTime ▸ hopen)⟩

theorem then_moves (hpq : Counts p q m) (hqr : Moves alone q r 0) : Moves alone p r m where
  mint := hqr.mint.trans hpq.mint
  adds := hqr.adds.trans hpq.adds
  opens h := by
    rw [← hpq.exitTime]
    exact hqr.opens h

end Counts

theorem Moves.then_counts {p q r : Position} {n : ℕ} {alone : Prop} (hpq : Moves alone p q n)
    (hqr : Counts q r 0) : Moves alone p r n where
  mint := hqr.mint.trans hpq.mint
  adds := hqr.adds.trans hpq.adds
  opens h := hpq.opens (hqr.exitTime ▸ h)

theorem Moves.imp {p q : Position} {n : ℕ} {alone alone' : Prop} (h : Moves alone p q n)
    (himp : alone → alone') : Moves alone' p q n :=
      ⟨h.mint, h.adds, fun ho => (h.opens ho).imp_right himp⟩

namespace Position

variable {p q : Position}

theorem bookAcquisition_counts {bought : ℕ} (h : p.bookAcquisition bought = .ok q) :
    Counts p q 0 := by
  rw [bookAcquisition_ok h]
  exact .of_eq rfl rfl rfl

theorem bookDca_counts {fill : DcaFill} (h : p.bookDca fill = .ok q) : Counts p q 1 := by
  obtain ⟨acquired, hacquired, hq⟩ := bind_eq_ok.mp h
  cases hq
  have hcounts := bookAcquisition_counts hacquired
  exact ⟨hcounts.mint, congrArg (· + 1) hcounts.adds, hcounts.exitTime⟩

theorem blendAverageEntryPrice_counts {bought decimals : ℕ} {spent : ℚ} :
    Counts p (p.blendAverageEntryPrice bought spent decimals) 0 := by
  unfold blendAverageEntryPrice
  dsimp only
  split
  · exact .refl
  split
  · unfold moveAverageEntryPrice
    split <;> exact .of_eq rfl rfl rfl
  · exact .refl

/-- A row that holds only dust after a late fill stays closed. -/
theorem followRound_dust {held acquired : ℕ} {recorded : Bool} {follow : FollowOutcome}
    (hacquired : p.acquiredAmount = some acquired) (hdust : isDust held acquired = true)
    (h : p.followRound held recorded = .ok (q, follow)) : Counts p q 0 := by
  unfold followRound at h
  split at h
  · cases h
    exact .refl
  rw [hacquired] at h
  dsimp only at h
  rw [if_pos hdust] at h
  cases h
  exact .of_eq rfl rfl rfl

theorem followRound_moves {held : ℕ} {recorded : Bool} {follow : FollowOutcome}
    (h : p.followRound held recorded = .ok (q, follow)) : Moves True p q 0 := by
  unfold followRound at h
  split at h
  · cases h
    exact Counts.refl.moves
  split at h
  · cases h
  split at h
  · cases h
    exact ⟨rfl, rfl, fun _ => .inr trivial⟩
  · cases h
    split <;> exact ⟨rfl, rfl, fun _ => .inr trivial⟩

theorem handOverRound_counts {held : ℕ} {recorded : Bool} {follow : FollowOutcome}
    {handover : Option Handover} (h : p.handOverRound held recorded = .ok (q, follow, handover)) :
    Counts p q 0 := by
  unfold handOverRound at h
  split at h
  · cases h
    exact .refl
  split at h
  · cases h
  next acquired hacquired =>
    split at h
    next hdust =>
      obtain ⟨⟨followed, follow'⟩, hfollowed, hret⟩ := bind_eq_ok.mp h
      cases hret
      exact followRound_dust hacquired hdust hfollowed
    · cases h
      exact .of_eq rfl rfl rfl

theorem keepLeg_counts {split : LegSplit} {dcaTime : ℤ} {exited : ℕ} :
    Counts p (p.keepLeg split dcaTime exited) (if 0 < split.kept.tokens then 1 else 0) := by
  unfold keepLeg
  dsimp only
  split <;> exact ⟨rfl, rfl, rfl⟩

/-- A late buy beside an open row never opens its own: the row counts it when it keeps tokens of
it. -/
theorem handOverLeg_counts {fill : DcaFill} {held : ℕ} {recorded : Bool} {follow : FollowOutcome}
    {split : LegSplit} (h : p.handOverLeg fill held recorded = .ok (q, follow, split)) :
    Counts p q 1 ∨
      (follow = .handedOver ∧ Counts p q (if 0 < split.kept.tokens then 1 else 0)) := by
  unfold handOverLeg at h
  split at h
  · obtain ⟨booked, hbooked, hret⟩ := bind_eq_ok.mp h
    cases hret
    exact .inl (bookDca_counts hbooked)
  dsimp only at h
  split at h
  · cases h
  next before hbefore =>
    split at h
    · cases h
    next acquired hacquired =>
      split at h
      next hdust =>
        obtain ⟨booked, hbooked, h⟩ := bind_eq_ok.mp h
        obtain ⟨⟨followed, follow'⟩, hfollowed, hret⟩ := bind_eq_ok.mp h
        cases hret
        have hsame : booked.acquiredAmount = some acquired := by
          obtain ⟨bought, hbought, hret⟩ := bind_eq_ok.mp hbooked
          cases hret
          rw [bookAcquisition_ok hbought, ← hacquired]
          simp only [acquiredAmount, Option.getD_some] at hbefore ⊢
          rw [← (checkedRaw_eq_some.mp hbefore).1]
          congr 1
          omega
        exact .inl ((bookDca_counts hbooked).then_none (followRound_dust hsame hdust hfollowed))
      · split at h
        · cases h
        · cases h
          exact .inr ⟨rfl, keepLeg_counts⟩

theorem bookRemainingAsExited_counts (h : p.bookRemainingAsExited = .ok q) : Counts p q 0 := by
  unfold bookRemainingAsExited at h
  split at h
  · cases h
    exact .refl
  · split at h <;> cases h
    exact .of_eq rfl rfl rfl

theorem bookClose_moves {fill : CloseFill} {alone : Prop} (h : p.bookClose fill = .ok q) :
    Moves alone p q 0 := by
  obtain ⟨exited, hexited, hq⟩ := bind_eq_ok.mp h
  cases hq
  have hcounts := bookRemainingAsExited_counts hexited
  exact ⟨hcounts.mint, hcounts.adds, nofun⟩

theorem bookPartialExit_counts {fill : PartialExitFill} (h : p.bookPartialExit fill = .ok q) :
    Counts p q 0 := by
  obtain ⟨exited, hexited, hq⟩ := bind_eq_ok.mp h
  cases hq
  unfold bookExit at hexited
  split at hexited <;> cases hexited
  exact .of_eq rfl rfl rfl

end Position

theorem absorbUnbookedSale_counts {p q : Position} {sold : ℕ}
    (h : absorbUnbookedSale p sold = .ok q) : Counts p q 0 := by
  unfold absorbUnbookedSale at h
  dsimp only at h
  split at h
  · cases h
    exact .refl
  split at h
  · cases h
  split at h
  · cases h
    exact .refl
  · obtain ⟨acquired, hacquired, hret⟩ := bind_eq_ok.mp h
    cases hret
    exact (Position.bookAcquisition_counts hacquired).then_none (.of_eq rfl rfl rfl)

theorem bringBack_counts {may : Bool} {p : Position} : Counts p (bringBack may p) 0 := by
  unfold bringBack
  split <;> exact .of_eq rfl rfl rfl

theorem bringBackReopened_counts {st : Store} {row : Position} {late : LateFill} :
    Counts row (bringBackReopened st row late).1 0 := by
  unfold bringBackReopened
  split
  · exact .refl
  · split <;> exact .of_eq rfl rfl rfl

theorem blendBooked_counts {row : Position} {kept : KeptLeg} {decimals : Option ℕ} :
    Counts row (blendBooked row kept decimals) 0 := by
  cases decimals with
  | none => exact .refl
  | some decimals => exact Position.blendAverageEntryPrice_counts

theorem stored_counts {old new : Position} : Counts new (Store.stored old new) 0 :=
  .of_eq rfl rfl rfl

theorem bookHandover_counts {reading : LateFillReading} {record : HandoverRecord} {may : Bool}
    {opened opened' : Position} (h : bookHandover reading record may opened = .ok opened') :
    Counts opened opened' 1 := by
  obtain ⟨booked, hbooked, hret⟩ := bind_eq_ok.mp h
  cases hret
  refine ((Position.bookDca_counts hbooked).then_none ?_).then_none bringBack_counts
  split
  · exact Position.blendAverageEntryPrice_counts
  · exact .refl

/-- The open row `id` of `mint`, not `positionId`, took an add, recorded under `signature`. -/
def HandsOver (st st' : Store) (positionId : ℤ) (mint : String)
    (signature : Option String) (id : ℤ) :
    Prop :=
  ∃ opened opened' entry, id ≠ positionId ∧ st.rows.lookup id = some opened ∧
    opened.mint = mint ∧ opened.exitTime = none ∧ Counts opened opened' 1 ∧
    entry.positionId = id ∧ some entry.transactionSignature = signature ∧
    st' = { st.writeRow id opened opened' with entries := st.entries ++ [entry] }

theorem handOver_hands {st st' : Store} {positionId openRoundId : ℤ} {row row' : Position}
    {reading : LateFillReading} {record : HandoverRecord}
    (hbeside : st.openRoundBeside row.mint positionId = some openRoundId)
    (h : handOver st row' reading openRoundId record = .ok st') :
    HandsOver st st' positionId row.mint reading.signature openRoundId := by
  obtain ⟨signature, opened, opened', hsignature, -, hopened, hbook, rfl⟩ := handOver_ok h
  obtain ⟨hne, open', hopen', hmint, hexit⟩ := openRoundBeside_ok hbeside
  cases hopened.symm.trans hopen'
  exact ⟨opened, opened', _, hne, hopened, hmint, hexit, bookHandover_counts hbook,
    rfl, hsignature.symm, rfl⟩

/-- No row of the mint is open beside it, and no other swap of the mint is in flight. -/
def Alone (st : Store) (positionId : ℤ) (mint : String) (otherSwapInFlight : Bool) : Prop :=
  st.openRoundBeside mint positionId = none ∧ otherSwapInFlight = false

theorem lateFillHolding_ok {st : Store} {positionId : ℤ} {row : Position}
    {reading : LateFillReading}
    {unbooked held : ℕ} (h : lateFillHolding st positionId row reading unbooked = .ok held) :
    reading.otherSwapInFlight = false := by
  unfold lateFillHolding at h
  split at h
  · cases h
  next hnone => exact Bool.eq_false_of_not_eq_true hnone

/-- A late sale or entry opens its row only when it is alone, and hands over otherwise. -/
theorem lateFill_counts {st st' : Store} {positionId : ℤ} {row row' : Position}
    {reading : LateFillReading} {afterWriteOff recorded : Bool} {late : LateFill}
    (h : lateFill st positionId row reading afterWriteOff recorded = .ok (row', st', late)) :
    Moves (Alone st positionId row.mint reading.otherSwapInFlight) row row' 0 ∧
      (st' = st ∨ ∃ id, late.handedTo = some id ∧
        HandsOver st st' positionId row.mint reading.signature id) := by
  obtain ⟨held, hheld, h⟩ := bind_eq_ok.mp h
  have hquiet := lateFillHolding_ok hheld
  split at h
  next hbeside =>
    obtain ⟨⟨followed, follow⟩, hfollowed, hret⟩ := bind_eq_ok.mp h
    cases hret
    exact ⟨(Position.followRound_moves hfollowed).imp fun _ => ⟨hbeside, hquiet⟩, .inl rfl⟩
  next openRoundId hbeside =>
    obtain ⟨⟨followed, follow, handover⟩, hfollowed, h⟩ := bind_eq_ok.mp h
    have hcounts := Position.handOverRound_counts hfollowed
    cases handover with
    | none =>
      cases h
      exact ⟨hcounts.moves, .inl rfl⟩
    | some handover =>
      obtain ⟨moved, hmoved, hret⟩ := bind_eq_ok.mp h
      cases hret
      exact ⟨hcounts.moves, .inr ⟨openRoundId, rfl, handOver_hands hbeside hmoved⟩⟩

/-- A late add is counted by its row when the row keeps tokens of it. -/
theorem lateDca_counts {st st' : Store} {positionId : ℤ} {row row' : Position}
    {reading : LateFillReading} {afterWriteOff : Bool} {fill : DcaFill} {price : ℚ}
    {late : LateFill} {kept : KeptLeg}
    (h : lateDca st positionId row reading afterWriteOff fill price =
      .ok (row', st', late, kept)) :
    (∃ adds, Moves (Alone st positionId row.mint reading.otherSwapInFlight) row row' adds ∧
        (0 < kept.leg.tokens → 0 < adds)) ∧
      (st' = st ∨ ∃ id, late.handedTo = some id ∧
        HandsOver st st' positionId row.mint reading.signature id) := by
  obtain ⟨held, hheld, h⟩ := bind_eq_ok.mp h
  have hquiet := lateFillHolding_ok hheld
  split at h
  next hbeside =>
    obtain ⟨booked, hbooked, h⟩ := bind_eq_ok.mp h
    obtain ⟨⟨followed, follow⟩, hfollowed, hret⟩ := bind_eq_ok.mp h
    cases hret
    have hmoves := (Position.followRound_moves hfollowed).imp fun _ => And.intro hbeside hquiet
    exact ⟨⟨1, (Position.bookDca_counts hbooked).then_moves hmoves, fun _ => Nat.one_pos⟩, .inl rfl⟩
  next openRoundId hbeside =>
    obtain ⟨⟨split, follow, legs⟩, hsplit, h⟩ := bind_eq_ok.mp h
    have hcounts := Position.handOverLeg_counts hsplit
    dsimp only at h
    split at h
    next hkept =>
      cases h
      obtain hwhole | ⟨hhanded, -⟩ := hcounts
      · exact ⟨⟨1, hwhole.moves, fun _ => Nat.one_pos⟩, .inl rfl⟩
      · exact absurd hhanded hkept
    split at h
    · cases h
    · obtain ⟨moved, hmoved, hret⟩ := bind_eq_ok.mp h
      cases hret
      refine ⟨?_, .inr ⟨openRoundId, rfl, handOver_hands hbeside hmoved⟩⟩
      obtain hwhole | ⟨-, hpart⟩ := hcounts
      · exact ⟨1, hwhole.moves, fun _ => Nat.one_pos⟩
      · exact ⟨_, hpart.moves, fun hkept => by rw [if_pos hkept]; exact Nat.one_pos⟩

/-- What a booking does to its own row and to the open row beside it. -/
structure Counted (st : Store) (positionId : ℤ) (otherSwapInFlight : Bool) (row row' : Position)
    (booked : Store) (outcome : Option LateFill) (signature : Option String) (recorded : Prop) :
    Prop where
  moves : ∃ adds, Moves
    (row.isClosed = true ∧ Alone st positionId row.mint otherSwapInFlight) row row'
    adds ∧ (recorded → 0 < adds)
  hands : booked = st ∨ ∃ id, outcome.bind (·.handedTo) = some id ∧
    HandsOver st booked positionId row.mint signature id

section Book

variable {st booked : Store} {positionId : ℤ} {heldAfter : Option ℕ} {readings : Readings}
  {row row' : Position} {record : Option BookingRecord} {outcome : Option LateFill}

/-- A fill on an open row opens nothing and hands nothing over. -/
theorem counted_of_open {signature : Option String}
    (h : Moves (row.isClosed = true ∧ Alone st positionId row.mint readings.otherSwapInFlight)
      row row' 0) :
    Counted st positionId readings.otherSwapInFlight row row' st outcome signature False :=
      ⟨⟨0, h, nofun⟩, .inl rfl⟩

/-- A late fill on a row that its own leg is already booked on. -/
theorem counted_of_late {reading : LateFillReading} {afterWriteOff recorded : Bool}
    {late : LateFill}
    {legged filled : Position} (hclosed : row.isClosed = true) (hleg : Moves False row legged 0)
    (hlate : lateFill st positionId legged reading afterWriteOff recorded =
      .ok (filled, booked, late))
    (hrest : Counts filled row' 0) (houtcome : outcome.bind (·.handedTo) = late.handedTo) :
    Counted st positionId reading.otherSwapInFlight row row' booked outcome
      reading.signature False := by
  obtain ⟨hmoves, hhands⟩ := lateFill_counts hlate
  rw [hleg.mint] at hmoves hhands
  rw [← houtcome] at hhands
  refine ⟨⟨0, Moves.then_counts ⟨hmoves.mint.trans hleg.mint,
    hmoves.adds.trans hleg.adds, ?_⟩ hrest,
    nofun⟩, hhands⟩
  intro hopen
  obtain hopen | hbeside := hmoves.opens hopen
  · exact .inl ((hleg.opens hopen).resolve_right id)
  · exact .inr ⟨hclosed, hbeside⟩

theorem bookEntryVerified_counted {fill : EntryFill}
    (h : bookEntryVerified st positionId fill heldAfter readings row =
      .ok (.write row' booked record outcome)) :
    Counted st positionId readings.otherSwapInFlight row row' booked outcome
      row.entryTransactionSignature False := by
  have hfill : Counts row (row.applyEntryFill fill) 0 := .of_eq rfl rfl rfl
  obtain ⟨-, -, ⟨-, rfl, rfl, -⟩ | ⟨hclosed, filled, late, hlate, rfl, rfl⟩⟩ :=
    bookEntryVerified_ok h
  · exact counted_of_open hfill.moves
  · exact counted_of_late hclosed hfill.moves hlate bringBackReopened_counts
      (bringBackReopened_handedTo _ _ _)

theorem bookLateClose_moves {fill : CloseFill} : Moves False row (row.bookLateClose fill) 0 := by
  refine ⟨rfl, rfl, fun hopen => ?_⟩
  change (if row.syntheticExit = true then some fill.exitTime else row.exitTime) = none at hopen
  split at hopen
  · cases hopen
  · exact .inl hopen

theorem bookExitVerified_counted {fill : CloseFill} {exitSignature : String} {exitAmount : ℕ}
    (h : bookExitVerified st positionId fill exitSignature exitAmount heldAfter readings row =
      .ok (.write row' booked record outcome)) :
    Counted st positionId readings.otherSwapInFlight row row' booked outcome (some exitSignature)
      False := by
  unfold bookExitVerified at h
  dsimp only at h
  split at h
  · cases h
  split at h
  next hclosed =>
    split at h
    · cases h
    obtain ⟨⟨filled, moved, late⟩, hlate, hret⟩ := bind_eq_ok.mp h
    cases hret
    have hlegged : Moves False row (if row.syntheticExit = true then
        { row.bookLateClose fill with exitTransactionSignature := some exitSignature }
        else row.bookLateClose fill) 0 := by
      split
      · exact bookLateClose_moves.then_counts (.of_eq rfl rfl rfl)
      · exact bookLateClose_moves
    refine counted_of_late hclosed hlegged hlate ?_ rfl
    split <;> exact .of_eq rfl rfl rfl
  split at h
  · cases h
  have hsigned : Counts row { row with
      exitTransactionSignature := row.exitTransactionSignature.or (some exitSignature) } 0 :=
    .of_eq rfl rfl rfl
  split at h
  · obtain ⟨unabsorbed, hunabsorbed, h⟩ := bind_eq_ok.mp h
    cases hunabsorbed
    obtain ⟨closed, hclosed, hret⟩ := bind_eq_ok.mp h
    cases hret
    exact counted_of_open (hsigned.then_moves (Position.bookClose_moves hclosed))
  · obtain ⟨absorbed, habsorbed, h⟩ := bind_eq_ok.mp h
    obtain ⟨closed, hclosed, hret⟩ := bind_eq_ok.mp h
    cases hret
    have habsorbed := absorbUnbookedSale_counts habsorbed
    exact counted_of_open
      ((hsigned.then_none habsorbed).then_moves (Position.bookClose_moves hclosed))

theorem bookPartialExitVerified_counted {exitAmount feeRaw : ℕ}
    {nativeReceived effectiveExitPrice exitPercentage : ℚ} {exitTime : ℤ} {exitSignature : String}
    (h : bookPartialExitVerified st positionId exitAmount nativeReceived effectiveExitPrice feeRaw
      exitTime exitSignature exitPercentage heldAfter readings row =
      .ok (.write row' booked record outcome)) :
    Counted st positionId readings.otherSwapInFlight row row' booked outcome (some exitSignature)
      False := by
  unfold bookPartialExitVerified at h
  dsimp only at h
  split at h
  · cases h
  split at h
  next hclosed =>
    split at h
    · cases h
    obtain ⟨⟨filled, moved, late⟩, hlate, hret⟩ := bind_eq_ok.mp h
    cases hret
    have hleg : Counts row (row.bookLatePartialExit nativeReceived feeRaw) 0 := .of_eq rfl rfl rfl
    exact counted_of_late hclosed hleg.moves hlate .refl rfl
  · obtain ⟨sold, hsold, hret⟩ := bind_eq_ok.mp h
    cases hret
    exact counted_of_open (Position.bookPartialExit_counts hsold).moves

/-- An add is counted by each row that a record of it is written for. -/
theorem bookDcaVerified_counted {fill : DcaFill} {price : ℚ} {signature : String}
    (h : bookDcaVerified st positionId fill price signature heldAfter readings row =
      .ok (.write row' booked record outcome)) :
    Counted st positionId readings.otherSwapInFlight row row' booked outcome (some signature)
      (record ≠ none) := by
  obtain ⟨-, ⟨-, rfl, -, rfl, bought, hbought, rfl⟩ |
    ⟨hclosed, filled, late, kept, hlate, rfl, rfl, rfl⟩⟩ := bookDcaVerified_ok h
  · exact ⟨⟨1, ((Position.bookDca_counts hbought).then_none
      (bringBack_counts.then_none blendBooked_counts)).moves, fun _ => Nat.one_pos⟩, .inl rfl⟩
  · obtain ⟨⟨adds, hmoves, hadds⟩, hhands⟩ := lateDca_counts hlate
    rw [← bringBackReopened_handedTo booked filled late] at hhands
    refine ⟨⟨adds, (hmoves.imp fun halone => ⟨hclosed, halone⟩).then_counts ?_, fun hrecord => ?_⟩,
      hhands⟩
    · split
      · exact bringBackReopened_counts.then_none blendBooked_counts
      · exact bringBackReopened_counts
    · unfold addRecord at hrecord
      split at hrecord
      next hkept => exact hadds hkept
      · exact absurd rfl hrecord

end Book

/-- The transition books an add. -/
def Transition.isDca : Transition → Bool
  | dcaVerified .. => true
  | _ => false

theorem book_counted {st booked : Store} {t : Transition} {readings : Readings}
    {row row' : Position}
    {record : Option BookingRecord} {outcome : Option LateFill}
    (hrow : st.rows.lookup t.positionId = some row)
    (h : t.book st readings row = .ok (.write row' booked record outcome)) :
    Counted st t.positionId readings.otherSwapInFlight row row' booked outcome (t.signature st)
      (t.isDca = true ∧ record ≠ none) := by
  have hother (hdca : t.isDca = false) {signature : Option String}
      (hcounted : Counted st t.positionId readings.otherSwapInFlight row row' booked
        outcome signature
        False) :
      Counted st t.positionId readings.otherSwapInFlight row row' booked outcome signature
        (t.isDca = true ∧ record ≠ none) := by
    obtain ⟨⟨adds, hmoves, -⟩, hhands⟩ := hcounted
    exact ⟨⟨adds, hmoves, fun hrecorded => absurd hrecorded.1 (hdca ▸ Bool.false_ne_true)⟩, hhands⟩
  cases t with
  | entryVerified positionId fill heldAfter =>
    rw [Transition.signature, show st.rows.lookup positionId = some row from hrow, Option.bind_some]
    exact hother rfl (bookEntryVerified_counted h)
  | exitVerified => exact hother rfl (bookExitVerified_counted h)
  | partialExitVerified => exact hother rfl (bookPartialExitVerified_counted h)
  | dcaVerified =>
    obtain ⟨⟨adds, hmoves, hadds⟩, hhands⟩ := bookDcaVerified_counted h
    exact ⟨⟨adds, hmoves, fun hrecorded => hadds hrecorded.2⟩, hhands⟩

/-- The rows and entry records a booking of the swap `signature` on `positionId` leaves. -/
structure AddFrame (st st' : Store) (positionId : ℤ) (signature : Option String) (dca : Bool)
    (otherSwapInFlight : Bool) (handedTo : Option ℤ) : Prop where
  rows : ∀ id row', st'.rows.lookup id = some row' → ∃ row, st.rows.lookup id = some row ∧
    row'.mint = row.mint ∧ row.dcaCount ≤ row'.dcaCount ∧
    (id ≠ positionId → row'.exitTime = row.exitTime) ∧
    (row'.exitTime = none → row.exitTime = none ∨
      (id = positionId ∧ row.isClosed = true ∧ Alone st positionId row.mint otherSwapInFlight))
  recorded : ∀ id s, st'.entryRecordExists id s = true → st.entryRecordExists id s = false →
    some s = signature ∧ ∃ row row', st.rows.lookup id = some row ∧ st'.rows.lookup id = some row' ∧
      (id ≠ positionId → handedTo = some id ∧ row.exitTime = none ∧
        ∀ own, st.rows.lookup positionId = some own → row.mint = own.mint) ∧
      (dca = true → row.dcaCount < row'.dcaCount)

/-- The entry record of a booking is one of its own row. -/
theorem book_entry_own {st booked : Store} {t : Transition} {readings : Readings}
    {row row' : Position} {entry : EntryRecord} {outcome : Option LateFill}
    (h : t.book st readings row = .ok (.write row' booked (some (.entry entry)) outcome)) :
    entry.positionId = t.positionId := by
  cases t with
  | entryVerified positionId fill heldAfter =>
    obtain ⟨-, hrecord, -⟩ := bookEntryVerified_ok h
    obtain ⟨signature, -, hentry⟩ := Option.map_eq_some_iff.mp hrecord.symm
    cases hentry
    rfl
  | exitVerified =>
    obtain ⟨sale, hsale, -⟩ := (bookExitVerified_wrote h).2
    cases hsale
  | partialExitVerified =>
    obtain ⟨sale, hsale, -⟩ := (bookPartialExitVerified_wrote h).2
    cases hsale
  | dcaVerified positionId fill price signature heldAfter =>
    have hown (kept : KeptLeg)
        (hrecord : some (.entry entry) = addRecord positionId fill price signature kept) :
        entry.positionId = positionId := by
      unfold addRecord at hrecord
      split at hrecord
      · cases hrecord
        rfl
      · cases hrecord
    obtain ⟨-, ⟨-, -, -, hrecord, -⟩ | ⟨-, -, -, kept, -, hrecord, -⟩⟩ := bookDcaVerified_ok h
    · exact hown _ hrecord
    · exact hown kept hrecord

/-- A record inserted into a store is the only new one. -/
theorem entryRecordExists_elim {st st' : Store} {record : Option BookingRecord} {id : ℤ}
    {s : String}
    (h : st' = record.elim st st.insertRecord) (hexists : st'.entryRecordExists id s = true) :
    st.entryRecordExists id s = true ∨
      ∃ entry, record = some (.entry entry) ∧ entry.positionId = id ∧
        entry.transactionSignature = s := by
  cases record with
  | none =>
    subst h
    exact .inl hexists
  | some record =>
    cases record with
    | exit exit =>
      refine .inl ?_
      rw [h] at hexists
      change (st.insertExitRecord exit).entryRecordExists id s = true at hexists
      unfold Store.insertExitRecord at hexists
      split at hexists <;> exact hexists
    | entry entry =>
      rw [h] at hexists
      change (st.insertEntryRecord entry).entryRecordExists id s = true at hexists
      unfold Store.insertEntryRecord at hexists
      split at hexists
      · exact .inl hexists
      · simp only [Store.entryRecordExists, List.any_append, List.any_cons, List.any_nil,
          Bool.or_false, Bool.or_eq_true, Bool.and_eq_true, beq_iff_eq] at hexists ⊢
        exact hexists.imp_right fun hentry => ⟨entry, rfl, hentry.1, hentry.2⟩

theorem AddFrame.refl {st : Store} {positionId : ℤ} {signature : Option String}
    {dca otherSwapInFlight : Bool} {handedTo : Option ℤ} :
    AddFrame st st positionId signature dca otherSwapInFlight handedTo where
  rows _ row h := ⟨row, h, rfl, le_refl _, fun _ => rfl, .inl⟩
  recorded _ _ h h' := absurd h (h' ▸ Bool.false_ne_true)

theorem AddFrame.of_handsOver {st st' : Store} {positionId id : ℤ} {own : Position}
    {signature : Option String} {dca otherSwapInFlight : Bool}
    (hown : st.rows.lookup positionId = some own)
    (h : HandsOver st st' positionId own.mint signature id) :
    AddFrame st st' positionId signature dca otherSwapInFlight (some id) ∧
      ∀ s, st'.entryRecordExists positionId s = st.entryRecordExists positionId s := by
  obtain ⟨opened, opened', entry, hne, hopened, hmint, hexit, hcounts, rfl, hsignature, rfl⟩ := h
  have hcounts := hcounts.then_none (@stored_counts opened opened')
  refine ⟨⟨fun id' row' hrow' => ?_, fun id' s hexists hnew => ?_⟩, fun s => ?_⟩
  · obtain ⟨rfl, rfl⟩ | ⟨-, hrow⟩ := lookup_insert_cases hrow'
    · exact ⟨opened, hopened, hcounts.mint, hcounts.adds ▸ Nat.le_succ _, fun _ => hcounts.exitTime,
        fun _ => .inl hexit⟩
    · exact ⟨row', hrow, rfl, le_refl _, fun _ => rfl, .inl⟩
  · simp only [Store.entryRecordExists, List.any_append, List.any_cons, List.any_nil,
      Bool.or_false, Bool.or_eq_true, Bool.and_eq_true, beq_iff_eq] at hexists
    obtain hold | ⟨rfl, rfl⟩ := hexists
    · rw [Store.entryRecordExists, hold] at hnew
      cases hnew
    · exact ⟨hsignature, opened, _, hopened, AList.lookup_insert _,
        fun _ => ⟨rfl, hexit, fun own' hown' => by cases hown.symm.trans hown'; exact hmint⟩,
        fun _ => hcounts.adds ▸ Nat.lt_succ_self _⟩
  · have hne : (entry.positionId == positionId) = false := beq_eq_false_iff_ne.mpr hne
    simp [Store.entryRecordExists, hne]

theorem deliver_addFrame (st : Store) (d : Delivery) :
    AddFrame st (deliver st d) d.transition.positionId (d.transition.signature st)
      d.transition.isDca d.readings.otherSwapInFlight (handedTo st d) := by
  cases hbooks : books st d with
  | false =>
    rw [deliver_eq_self hbooks]
    exact .refl
  | true =>
    obtain ⟨row', late, h⟩ := books_ok hbooks
    obtain ⟨old, booked, record, hold, hbook, hst'⟩ := commitBooking_ok h
    obtain ⟨⟨adds, hmoves, hadds⟩, hhands⟩ := book_counted hold hbook
    have hwrote := book_wrote hold hbook
    have hmoves := hmoves.then_counts (@stored_counts old row')
    have hhanded : handedTo st d = late.bind (·.handedTo) := by rw [handedTo, h]
    rw [hhanded]
    have hbooked : AddFrame st booked d.transition.positionId (d.transition.signature st)
        d.transition.isDca d.readings.otherSwapInFlight (late.bind (·.handedTo)) ∧
        ∀ s, booked.entryRecordExists d.transition.positionId s =
          st.entryRecordExists d.transition.positionId s := by
      obtain rfl | ⟨id, hid, hhands⟩ := hhands
      · exact ⟨.refl, fun _ => rfl⟩
      · rw [hid]
        exact AddFrame.of_handsOver hold hhands
    obtain ⟨hframe, hsame⟩ := hbooked
    have hrows := committed_rows hst'
    have hown : (deliver st d).rows.lookup d.transition.positionId =
        some (Store.stored old row') := by
      rw [hrows]
      exact AList.lookup_insert _
    have hother {id : ℤ} (hne : id ≠ d.transition.positionId) :
        (deliver st d).rows.lookup id = booked.rows.lookup id := by
      rw [hrows]
      exact AList.lookup_insert_ne hne
    constructor
    · intro id after hafter
      by_cases he : id = d.transition.positionId
      · subst he
        cases hown.symm.trans hafter
        exact ⟨old, hold, hmoves.mint, hmoves.adds ▸ Nat.le_add_right _ _, fun hne =>
          absurd rfl hne,
          fun hopen => (hmoves.opens hopen).imp_right fun hlate => ⟨rfl, hlate⟩⟩
      · rw [hother he] at hafter
        exact hframe.rows id after hafter
    · intro id s hexists hnew
      obtain hexists | ⟨entry, rfl, rfl, rfl⟩ := entryRecordExists_elim hst' hexists
      · have hexists : booked.entryRecordExists id s = true := hexists
        obtain ⟨hsignature, before, after, hbefore, hafter, hopen, hcount⟩ :=
          hframe.recorded id s hexists hnew
        by_cases he : id = d.transition.positionId
        · subst he
          rw [hsame, hnew] at hexists
          cases hexists
        · rw [← hother he] at hafter
          exact ⟨hsignature, before, after, hbefore, hafter, hopen, hcount⟩
      · rw [book_entry_own hbook] at hnew ⊢
        refine ⟨hwrote.recorded _ rfl, old, _, hold, hown, fun hne =>
          absurd rfl hne, fun hdca => ?_⟩
        have hpos := hadds ⟨hdca, nofun⟩
        have hcount := hmoves.adds
        omega

end ScreenerBot.Positions
