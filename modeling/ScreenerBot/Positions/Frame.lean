import ScreenerBot.Positions.Booked

/-! What no booking changes: the mint and the entry swap of a row, an entry once verified, the mark
of an incomplete basis, and the records already written. -/
namespace ScreenerBot.Positions
open Library

/-- A booked row is still of its mint and its entry swap, its verified entry stays so, and a basis
once incomplete stays marked. -/
structure Keeps (p q : Position) : Prop where
  mint : q.mint = p.mint
  entrySwap : q.entryTransactionSignature = p.entryTransactionSignature
  verified : p.transactionEntryVerified = true → q.transactionEntryVerified = true
  marked : p.basisComplete = false → q.basisComplete = false

namespace Keeps

variable {p q r : Position}

theorem of_eq (hm : q.mint = p.mint)
    (hs : q.entryTransactionSignature = p.entryTransactionSignature)
    (hv : q.transactionEntryVerified = p.transactionEntryVerified)
    (hb : q.basisComplete = p.basisComplete) : Keeps p q :=
  ⟨hm, hs, fun h => hv.trans h, fun h => hb.trans h⟩

theorem refl : Keeps p p := .of_eq rfl rfl rfl rfl

theorem trans (hpq : Keeps p q) (hqr : Keeps q r) : Keeps p r :=
  ⟨hqr.mint.trans hpq.mint, hqr.entrySwap.trans hpq.entrySwap, hqr.verified ∘ hpq.verified,
    hqr.marked ∘ hpq.marked⟩

end Keeps

namespace Position

variable {p q : Position}

theorem bookAcquisition_keeps {bought : ℕ} (h : p.bookAcquisition bought = .ok q) : Keeps p q := by
  rw [bookAcquisition_ok h]
  exact .of_eq rfl rfl rfl rfl

theorem bookExit_keeps {sold : ℕ} (h : p.bookExit sold = .ok q) : Keeps p q := by
  unfold bookExit at h
  split at h <;> cases h
  exact .of_eq rfl rfl rfl rfl

theorem bookRemainingAsExited_keeps (h : p.bookRemainingAsExited = .ok q) : Keeps p q := by
  unfold bookRemainingAsExited at h
  split at h
  · cases h
    exact .refl
  · split at h <;> cases h
    exact .of_eq rfl rfl rfl rfl

theorem bookClose_keeps {fill : CloseFill} (h : p.bookClose fill = .ok q) : Keeps p q := by
  obtain ⟨exited, hexited, hq⟩ := bind_eq_ok.mp h
  cases hq
  exact (bookRemainingAsExited_keeps hexited).trans (.of_eq rfl rfl rfl rfl)

theorem bookPartialExit_keeps {fill : PartialExitFill} (h : p.bookPartialExit fill = .ok q) :
    Keeps p q := by
  obtain ⟨exited, hexited, hq⟩ := bind_eq_ok.mp h
  cases hq
  exact (bookExit_keeps hexited).trans (.of_eq rfl rfl rfl rfl)

theorem bookDca_keeps {fill : DcaFill} (h : p.bookDca fill = .ok q) : Keeps p q := by
  obtain ⟨acquired, hacquired, hq⟩ := bind_eq_ok.mp h
  cases hq
  exact (bookAcquisition_keeps hacquired).trans (.of_eq rfl rfl rfl rfl)

theorem blendAverageEntryPrice_keeps {bought decimals : ℕ} {spent : ℚ} :
    Keeps p (p.blendAverageEntryPrice bought spent decimals) := by
  unfold blendAverageEntryPrice
  dsimp only
  split
  · exact .refl
  split
  · unfold moveAverageEntryPrice
    split <;> exact .of_eq rfl rfl rfl rfl
  · exact .refl

theorem followRound_keeps {held : ℕ} {recorded : Bool} {follow : FollowOutcome}
    (h : p.followRound held recorded = .ok (q, follow)) : Keeps p q := by
  unfold followRound at h
  split at h
  · cases h
    exact .refl
  split at h
  · cases h
  split at h
  · cases h
    exact .of_eq rfl rfl rfl rfl
  · cases h
    split <;> exact .of_eq rfl rfl rfl rfl

theorem handOverRound_keeps {held : ℕ} {recorded : Bool} {follow : FollowOutcome}
    {handover : Option Handover} (h : p.handOverRound held recorded = .ok (q, follow, handover)) :
    Keeps p q := by
  unfold handOverRound at h
  split at h
  · cases h
    exact .refl
  split at h
  · cases h
  split at h
  · obtain ⟨⟨followed, follow'⟩, hfollowed, hret⟩ := bind_eq_ok.mp h
    cases hret
    exact followRound_keeps hfollowed
  · cases h
    exact .of_eq rfl rfl rfl rfl

theorem keepLeg_keeps {split : LegSplit} {dcaTime : ℤ} {exited : ℕ} :
    Keeps p (p.keepLeg split dcaTime exited) := by
  unfold keepLeg
  dsimp only
  split <;> exact .of_eq rfl rfl rfl rfl

theorem handOverLeg_keeps {fill : DcaFill} {held : ℕ} {recorded : Bool} {follow : FollowOutcome}
    {split : LegSplit} (h : p.handOverLeg fill held recorded = .ok (q, follow, split)) :
    Keeps p q := by
  unfold handOverLeg at h
  split at h
  · obtain ⟨booked, hbooked, hret⟩ := bind_eq_ok.mp h
    cases hret
    exact bookDca_keeps hbooked
  dsimp only at h
  split at h
  · cases h
  split at h
  · cases h
  split at h
  · obtain ⟨booked, hbooked, h⟩ := bind_eq_ok.mp h
    obtain ⟨⟨followed, follow'⟩, hfollowed, hret⟩ := bind_eq_ok.mp h
    cases hret
    exact (bookDca_keeps hbooked).trans (followRound_keeps hfollowed)
  · split at h
    · cases h
    · cases h
      exact keepLeg_keeps

end Position

theorem absorbUnbookedSale_keeps {p q : Position} {sold : ℕ}
    (h : absorbUnbookedSale p sold = .ok q) : Keeps p q := by
  unfold absorbUnbookedSale at h
  dsimp only at h
  split at h
  · cases h
    exact .refl
  split at h
  · cases h
  split at h
  · cases h
    exact .refl
  · obtain ⟨acquired, hacquired, hret⟩ := bind_eq_ok.mp h
    cases hret
    exact (Position.bookAcquisition_keeps hacquired).trans ⟨rfl, rfl, id, fun _ => rfl⟩

theorem bringBack_keeps {may : Bool} {p : Position} : Keeps p (bringBack may p) := by
  unfold bringBack
  split <;> exact .of_eq rfl rfl rfl rfl

theorem bringBackReopened_keeps {st : Store} {row : Position} {late : LateFill} :
    Keeps row (bringBackReopened st row late).1 := by
  unfold bringBackReopened
  split
  · exact .refl
  · split <;> exact .of_eq rfl rfl rfl rfl

theorem blendBooked_keeps {row : Position} {kept : KeptLeg} {decimals : Option ℕ} :
    Keeps row (blendBooked row kept decimals) := by
  cases decimals with
  | none => exact .refl
  | some decimals => exact Position.blendAverageEntryPrice_keeps

theorem bookHandover_keeps {reading : LateFillReading} {record : HandoverRecord} {may : Bool}
    {opened opened' : Position} (h : bookHandover reading record may opened = .ok opened') :
    Keeps opened opened' := by
  obtain ⟨booked, hbooked, hret⟩ := bind_eq_ok.mp h
  cases hret
  refine (Position.bookDca_keeps hbooked).trans (Keeps.trans ?_ bringBack_keeps)
  split
  · exact Position.blendAverageEntryPrice_keeps
  · exact .refl

theorem stored_keeps {old new : Position} : Keeps new (Store.stored old new) :=
  .of_eq rfl rfl rfl rfl

def BookingRecord.signature : BookingRecord → String
  | exit record => record.transactionSignature
  | entry record => record.transactionSignature

/-- A store grown by a swap: its rows keep what `Keeps` says and new records carry the swap's
signature. -/
structure Grows (st st' : Store) (signature : Option String) : Prop where
  rows : ∀ id row, st.rows.lookup id = some row →
    ∃ row', st'.rows.lookup id = some row' ∧ Keeps row row'
  entries : ∃ new, st'.entries = st.entries ++ new ∧
    ∀ r ∈ new, some r.transactionSignature = signature
  exits : ∃ new, st'.exits = st.exits ++ new ∧
    ∀ r ∈ new, some r.transactionSignature = signature

namespace Grows

variable {st st' st'' : Store} {signature : Option String}

theorem refl : Grows st st signature where
  rows _ row h := ⟨row, h, .refl⟩
  entries := ⟨[], (List.append_nil _).symm, nofun⟩
  exits := ⟨[], (List.append_nil _).symm, nofun⟩

theorem trans (h : Grows st st' signature) (h' : Grows st' st'' signature) :
    Grows st st'' signature where
  rows id row hrow := by
    obtain ⟨row', hrow', hkeeps⟩ := h.rows id row hrow
    obtain ⟨row'', hrow'', hkeeps'⟩ := h'.rows id row' hrow'
    exact ⟨row'', hrow'', hkeeps.trans hkeeps'⟩
  entries := by
    obtain ⟨new, hnew, hsig⟩ := h.entries
    obtain ⟨new', hnew', hsig'⟩ := h'.entries
    refine ⟨new ++ new', by rw [hnew', hnew, List.append_assoc], fun r hr => ?_⟩
    exact (List.mem_append.mp hr).elim (hsig r) (hsig' r)
  exits := by
    obtain ⟨new, hnew, hsig⟩ := h.exits
    obtain ⟨new', hnew', hsig'⟩ := h'.exits
    refine ⟨new ++ new', by rw [hnew', hnew, List.append_assoc], fun r hr => ?_⟩
    exact (List.mem_append.mp hr).elim (hsig r) (hsig' r)

theorem insertRecord {record : BookingRecord} (hrecord : some record.signature = signature) :
    Grows st (st.insertRecord record) signature := by
  cases record with
  | entry r =>
    change Grows st (st.insertEntryRecord r) signature
    unfold Store.insertEntryRecord
    split
    · exact .refl
    · refine ⟨fun _ row h => ⟨row, h, .refl⟩, ⟨[r], rfl, fun q hq => ?_⟩, [], ?_, nofun⟩
      · rw [List.mem_singleton.mp hq]
        exact hrecord
      · exact (List.append_nil _).symm
  | exit r =>
    change Grows st (st.insertExitRecord r) signature
    unfold Store.insertExitRecord
    split
    · exact .refl
    · refine ⟨fun _ row h => ⟨row, h, .refl⟩, ⟨[], ?_, nofun⟩, [r], rfl, fun q hq => ?_⟩
      · exact (List.append_nil _).symm
      · rw [List.mem_singleton.mp hq]
        exact hrecord

/-- A row written over the stored one, and a record of the swap. -/
theorem commit (h : Grows st st' signature) {positionId : ℤ} {old row : Position}
    {record : Option BookingRecord} (hold : st.rows.lookup positionId = some old)
    (hkeeps : Keeps old row) (hrecord : ∀ r ∈ record, some r.signature = signature)
    (hst'' : st'' = record.elim (st'.writeRow positionId old row)
      (st'.writeRow positionId old row).insertRecord) : Grows st st'' signature := by
  have hwritten : Grows st (st'.writeRow positionId old row) signature := by
    refine ⟨?_, h.entries, h.exits⟩
    intro id before hbefore
    by_cases he : id = positionId
    · subst he
      cases hold.symm.trans hbefore
      exact ⟨Store.stored old row, AList.lookup_insert _, hkeeps.trans stored_keeps⟩
    · obtain ⟨after, hafter, hk⟩ := h.rows id before hbefore
      exact ⟨after, (AList.lookup_insert_ne he).trans hafter, hk⟩
  cases record with
  | none => rwa [hst'']
  | some record =>
    rw [hst'']
    exact hwritten.trans (insertRecord (hrecord record rfl))

end Grows

theorem handOver_grows {st st' : Store} {row : Position} {reading : LateFillReading}
    {openRoundId : ℤ} {record : HandoverRecord}
    (h : handOver st row reading openRoundId record = .ok st') :
    Grows st st' reading.signature := by
  obtain ⟨signature, opened, opened', hsignature, -, hopened, hbook, rfl⟩ := handOver_ok h
  refine ⟨?_, ⟨_, rfl, fun r hr => ?_⟩, [], (List.append_nil _).symm, nofun⟩
  · intro id before hbefore
    by_cases he : id = openRoundId
    · subst he
      cases hopened.symm.trans hbefore
      exact ⟨_, AList.lookup_insert _, (bookHandover_keeps hbook).trans stored_keeps⟩
    · exact ⟨before, (AList.lookup_insert_ne he).trans hbefore, .refl⟩
  · rw [List.mem_singleton.mp hr, hsignature]
    rfl

theorem lateFill_grows {st st' : Store} {positionId : ℤ} {row row' : Position}
    {reading : LateFillReading} {afterWriteOff recorded : Bool} {late : LateFill}
    (h : lateFill st positionId row reading afterWriteOff recorded = .ok (row', st', late)) :
    Keeps row row' ∧ Grows st st' reading.signature := by
  obtain ⟨held, -, h⟩ := bind_eq_ok.mp h
  split at h
  · obtain ⟨⟨followed, follow⟩, hfollowed, hret⟩ := bind_eq_ok.mp h
    cases hret
    exact ⟨Position.followRound_keeps hfollowed, .refl⟩
  · obtain ⟨⟨followed, follow, handover⟩, hfollowed, h⟩ := bind_eq_ok.mp h
    have hkeeps := Position.handOverRound_keeps hfollowed
    cases handover with
    | none =>
      cases h
      exact ⟨hkeeps, .refl⟩
    | some handover =>
      obtain ⟨moved, hmoved, hret⟩ := bind_eq_ok.mp h
      cases hret
      exact ⟨hkeeps, handOver_grows hmoved⟩

theorem lateDca_grows {st st' : Store} {positionId : ℤ} {row row' : Position}
    {reading : LateFillReading} {afterWriteOff : Bool} {fill : DcaFill} {price : ℚ}
    {late : LateFill} {kept : KeptLeg}
    (h : lateDca st positionId row reading afterWriteOff fill price =
      .ok (row', st', late, kept)) :
    Keeps row row' ∧ Grows st st' reading.signature := by
  obtain ⟨held, -, h⟩ := bind_eq_ok.mp h
  split at h
  · obtain ⟨booked, hbooked, h⟩ := bind_eq_ok.mp h
    obtain ⟨⟨followed, follow⟩, hfollowed, hret⟩ := bind_eq_ok.mp h
    cases hret
    exact ⟨(Position.bookDca_keeps hbooked).trans (Position.followRound_keeps hfollowed), .refl⟩
  · obtain ⟨⟨split, follow, legs⟩, hsplit, h⟩ := bind_eq_ok.mp h
    have hkeeps := Position.handOverLeg_keeps hsplit
    dsimp only at h
    split at h
    · cases h
      exact ⟨hkeeps, .refl⟩
    split at h
    · cases h
    · obtain ⟨moved, hmoved, hret⟩ := bind_eq_ok.mp h
      cases hret
      exact ⟨hkeeps, handOver_grows hmoved⟩

/-- A booking keeps its row, grows the store and records under one signature. -/
structure Wrote (st : Store) (row : Position) (signature : Option String) (row' : Position)
    (booked : Store) (record : Option BookingRecord) : Prop where
  keeps : Keeps row row'
  grows : Grows st booked signature
  recorded : ∀ r ∈ record, some r.signature = signature

section Book

variable {st booked : Store} {positionId : ℤ} {heldAfter : Option ℕ} {readings : Readings}
  {row row' : Position} {record : Option BookingRecord} {outcome : Option LateFill}

theorem bookEntryVerified_wrote {fill : EntryFill}
    (h : bookEntryVerified st positionId fill heldAfter readings row =
      .ok (.write row' booked record outcome)) :
    Wrote st row row.entryTransactionSignature row' booked record ∧
      row'.transactionEntryVerified = true := by
  obtain ⟨-, rfl, hbook⟩ := bookEntryVerified_ok h
  have hfill : Keeps row (row.applyEntryFill fill) := ⟨rfl, rfl, fun _ => rfl, id⟩
  have hrecorded (r : BookingRecord) (hr : r ∈ row.entryTransactionSignature.map
      fun signature => .entry (boughtEntry positionId row fill signature)) :
      some r.signature = row.entryTransactionSignature := by
    obtain ⟨signature, hsignature, rfl⟩ := Option.map_eq_some_iff.mp hr
    exact hsignature.symm
  rcases hbook with ⟨-, rfl, rfl, -⟩ | ⟨-, filled, late, hlate, rfl, -⟩
  · exact ⟨⟨hfill, .refl, hrecorded⟩, rfl⟩
  · obtain ⟨hkeeps, hgrows⟩ := lateFill_grows hlate
    have hkeeps := hkeeps.trans (@bringBackReopened_keeps booked filled late)
    exact ⟨⟨hfill.trans hkeeps, hgrows, hrecorded⟩, hkeeps.verified rfl⟩

/-- A sale is recorded on its row under its signature. -/
def Records (record : Option BookingRecord) (positionId : ℤ) (signature : String) : Prop :=
  ∃ r : ExitRecord, record = some (.exit r) ∧ r.positionId = positionId ∧
    r.transactionSignature = signature

theorem sale_wrote {signature : String} (hkeeps : Keeps row row')
    (hgrows : Grows st booked (some signature)) (hrecords : Records record positionId signature) :
    Wrote st row (some signature) row' booked record ∧ Records record positionId signature := by
  refine ⟨⟨hkeeps, hgrows, fun r hr => ?_⟩, hrecords⟩
  obtain ⟨sale, rfl, -, rfl⟩ := hrecords
  cases hr
  rfl

theorem bookExitVerified_wrote {fill : CloseFill} {exitSignature : String} {exitAmount : ℕ}
    (h : bookExitVerified st positionId fill exitSignature exitAmount heldAfter readings row =
      .ok (.write row' booked record outcome)) :
    Wrote st row (some exitSignature) row' booked record ∧
      Records record positionId exitSignature := by
  unfold bookExitVerified at h
  dsimp only at h
  split at h
  · cases h
  split at h
  · split at h
    · cases h
    obtain ⟨⟨filled, moved, late⟩, hlate, hret⟩ := bind_eq_ok.mp h
    cases hret
    obtain ⟨hkeeps, hgrows⟩ := lateFill_grows hlate
    have hclose : Keeps row (row.bookLateClose fill) := .of_eq rfl rfl rfl rfl
    have hsupplied : Keeps row (if row.syntheticExit = true then
        { row.bookLateClose fill with exitTransactionSignature := some exitSignature }
        else row.bookLateClose fill) := by
      split
      · exact hclose.trans (.of_eq rfl rfl rfl rfl)
      · exact hclose
    refine sale_wrote ((hsupplied.trans hkeeps).trans ?_) hgrows ⟨_, rfl, rfl, rfl⟩
    split <;> exact .of_eq rfl rfl rfl rfl
  split at h
  · cases h
  have hsigned : Keeps row { row with
      exitTransactionSignature := row.exitTransactionSignature.or (some exitSignature) } :=
    .of_eq rfl rfl rfl rfl
  split at h
  · obtain ⟨unabsorbed, hunabsorbed, h⟩ := bind_eq_ok.mp h
    cases hunabsorbed
    obtain ⟨closed, hclosed, hret⟩ := bind_eq_ok.mp h
    cases hret
    exact sale_wrote (hsigned.trans (Position.bookClose_keeps hclosed)) .refl ⟨_, rfl, rfl, rfl⟩
  · obtain ⟨absorbed, habsorbed, h⟩ := bind_eq_ok.mp h
    obtain ⟨closed, hclosed, hret⟩ := bind_eq_ok.mp h
    cases hret
    have habsorbed := absorbUnbookedSale_keeps habsorbed
    exact sale_wrote ((hsigned.trans habsorbed).trans (Position.bookClose_keeps hclosed)) .refl
      ⟨_, rfl, rfl, rfl⟩

theorem bookPartialExitVerified_wrote {exitAmount feeRaw : ℕ}
    {nativeReceived effectiveExitPrice exitPercentage : ℚ} {exitTime : ℤ} {exitSignature : String}
    (h : bookPartialExitVerified st positionId exitAmount nativeReceived effectiveExitPrice feeRaw
      exitTime exitSignature exitPercentage heldAfter readings row =
      .ok (.write row' booked record outcome)) :
    Wrote st row (some exitSignature) row' booked record ∧
      Records record positionId exitSignature := by
  unfold bookPartialExitVerified at h
  dsimp only at h
  split at h
  · cases h
  split at h
  · split at h
    · cases h
    obtain ⟨⟨filled, moved, late⟩, hlate, hret⟩ := bind_eq_ok.mp h
    cases hret
    obtain ⟨hkeeps, hgrows⟩ := lateFill_grows hlate
    have hleg : Keeps row (row.bookLatePartialExit nativeReceived feeRaw) := .of_eq rfl rfl rfl rfl
    exact sale_wrote (hleg.trans hkeeps) hgrows ⟨_, rfl, rfl, rfl⟩
  · obtain ⟨sold, hsold, hret⟩ := bind_eq_ok.mp h
    cases hret
    exact sale_wrote (Position.bookPartialExit_keeps hsold) .refl ⟨_, rfl, rfl, rfl⟩

theorem bookDcaVerified_wrote {fill : DcaFill} {price : ℚ} {signature : String}
    (h : bookDcaVerified st positionId fill price signature heldAfter readings row =
      .ok (.write row' booked record outcome)) :
    Wrote st row (some signature) row' booked record := by
  have hrecorded (kept : KeptLeg) (r : BookingRecord)
      (hr : r ∈ addRecord positionId fill price signature kept) :
      some r.signature = some signature := by
    unfold addRecord at hr
    split at hr <;> cases hr
    rfl
  obtain ⟨-, ⟨-, rfl, -, rfl, bought, hbought, rfl⟩ |
    ⟨-, filled, late, kept, hlate, rfl, -, rfl⟩⟩ := bookDcaVerified_ok h
  · exact ⟨((Position.bookDca_keeps hbought).trans bringBack_keeps).trans blendBooked_keeps, .refl,
      hrecorded fill.whole⟩
  · obtain ⟨hkeeps, hgrows⟩ := lateDca_grows hlate
    refine ⟨hkeeps.trans ?_, hgrows, hrecorded kept⟩
    split
    · exact bringBackReopened_keeps.trans blendBooked_keeps
    · exact bringBackReopened_keeps

end Book

/-- The signature of the swap a transition carries: an entry's is the one of its row. -/
def Transition.signature (st : Store) : Transition → Option String
  | entryVerified positionId .. =>
    (st.rows.lookup positionId).bind (·.entryTransactionSignature)
  | exitVerified _ _ exitSignature .. => some exitSignature
  | partialExitVerified _ _ _ _ _ _ exitSignature .. => some exitSignature
  | dcaVerified _ _ _ dcaSignature _ => some dcaSignature

theorem book_wrote {st booked : Store} {t : Transition} {readings : Readings} {row row' : Position}
    {record : Option BookingRecord} {outcome : Option LateFill}
    (hrow : st.rows.lookup t.positionId = some row)
    (h : t.book st readings row = .ok (.write row' booked record outcome)) :
    Wrote st row (t.signature st) row' booked record := by
  cases t with
  | entryVerified positionId fill heldAfter =>
    have hwrote := (bookEntryVerified_wrote h).1
    rwa [Transition.signature, show st.rows.lookup positionId = some row from hrow,
      Option.bind_some]
  | exitVerified => exact (bookExitVerified_wrote h).1
  | partialExitVerified => exact (bookPartialExitVerified_wrote h).1
  | dcaVerified => exact bookDcaVerified_wrote h

/-- A delivery only grows the store, under the signature of its swap. -/
theorem deliver_grows (st : Store) (d : Delivery) :
    Grows st (deliver st d) (d.transition.signature st) := by
  cases hbooks : books st d with
  | false =>
    rw [deliver_eq_self hbooks]
    exact .refl
  | true =>
    obtain ⟨row', late, h⟩ := books_ok hbooks
    obtain ⟨old, booked, record, hold, hbook, hst'⟩ := commitBooking_ok h
    have hwrote := book_wrote hold hbook
    exact hwrote.grows.commit hold hwrote.keeps hwrote.recorded hst'

end ScreenerBot.Positions
