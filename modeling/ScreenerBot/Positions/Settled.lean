import ScreenerBot.Positions.Frame

/-! How the store knows a swap as booked, and that it never forgets it. -/
namespace ScreenerBot.Positions
open Library

/-- The swap of a position that a transition carries. A full and a partial exit of one
signature are one sale. -/
inductive Swap where
  | entry (positionId : ℤ)
  | sale (positionId : ℤ) (signature : String)
  | add (positionId : ℤ) (signature : String)
  deriving DecidableEq, Repr

def Transition.swap : Transition → Swap
  | entryVerified positionId .. => .entry positionId
  | exitVerified positionId _ exitSignature .. => .sale positionId exitSignature
  | partialExitVerified positionId _ _ _ _ _ exitSignature .. => .sale positionId exitSignature
  | dcaVerified positionId _ _ dcaSignature _ => .add positionId dcaSignature

/-- What the verifier has checked of an add before it is delivered: the amounts are positive
and, as on-chain `u64` amounts, in range. -/
def Transition.Verified : Transition → Prop
  | dcaVerified _ fill _ _ _ => 0 < fill.tokensBought ∧ fill.tokensBought ≤ u64Max ∧
    0 < fill.nativeSpent ∧ fill.feeRaw ≤ u64Max
  | _ => True

/-- Whether the entry of `row` is verified or recorded. -/
def entrySettled (st : Store) (positionId : ℤ) (row : Position) : Bool :=
  row.transactionEntryVerified || row.entryTransactionSignature.any
    (st.entryRecordExists positionId)

/-- The store holds the swap as booked. -/
def Settled (st : Store) : Swap → Prop
  | .entry positionId => ∃ row, st.rows.lookup positionId = some row ∧
    entrySettled st positionId row = true
  | .sale positionId signature => st.exitRecordExists positionId signature = true
  | .add positionId signature => ∃ row, st.rows.lookup positionId = some row ∧
    st.entryRecordedForMint row.mint signature = true

section Grows

variable {st st' : Store} {signer : Option String}

theorem entryRecordExists_grows (h : Grows st st' signer) {positionId : ℤ} {signature : String}
    (he : st.entryRecordExists positionId signature = true) :
    st'.entryRecordExists positionId signature = true := by
  obtain ⟨new, hnew, -⟩ := h.entries
  unfold Store.entryRecordExists at he ⊢
  rw [hnew, List.any_append, he, Bool.true_or]

theorem exitRecordExists_grows (h : Grows st st' signer) {positionId : ℤ} {signature : String}
    (he : st.exitRecordExists positionId signature = true) :
    st'.exitRecordExists positionId signature = true := by
  obtain ⟨new, hnew, -⟩ := h.exits
  unfold Store.exitRecordExists at he ⊢
  rw [hnew, List.any_append, he, Bool.true_or]

theorem entryRecordedForMint_iff {mint signature : String} :
    st.entryRecordedForMint mint signature = true ↔ ∃ r ∈ st.entries,
      r.transactionSignature = signature ∧
        ∃ row, st.rows.lookup r.positionId = some row ∧ row.mint = mint := by
  simp only [Store.entryRecordedForMint, List.any_eq_true, Bool.and_eq_true, beq_iff_eq,
    Option.any_eq_true]

theorem entryRecordedForMint_grows (h : Grows st st' signer) {mint signature : String}
    (he : st.entryRecordedForMint mint signature = true) :
    st'.entryRecordedForMint mint signature = true := by
  obtain ⟨r, hr, hsignature, row, hrow, hmint⟩ := entryRecordedForMint_iff.mp he
  obtain ⟨new, hnew, -⟩ := h.entries
  obtain ⟨row', hrow', hkeeps⟩ := h.rows r.positionId row hrow
  exact entryRecordedForMint_iff.mpr ⟨r, hnew ▸ List.mem_append_left new hr, hsignature, row',
    hrow', hkeeps.mint.trans hmint⟩

/-- A settled swap stays settled. -/
theorem settled_grows (h : Grows st st' signer) {swap : Swap} (hs : Settled st swap) :
    Settled st' swap := by
  cases swap with
  | entry positionId =>
    obtain ⟨row, hrow, hsettled⟩ := hs
    obtain ⟨row', hrow', hkeeps⟩ := h.rows positionId row hrow
    refine ⟨row', hrow', ?_⟩
    unfold entrySettled at hsettled ⊢
    rw [hkeeps.entrySwap]
    rcases Bool.or_eq_true_iff.mp hsettled with hverified | hrecorded
    · rw [hkeeps.verified hverified, Bool.true_or]
    · rw [Option.any_eq_true] at hrecorded
      obtain ⟨signature, hsignature, hexists⟩ := hrecorded
      rw [hsignature, Option.any_some, entryRecordExists_grows h hexists, Bool.or_true]
  | sale positionId signature => exact exitRecordExists_grows h hs
  | add positionId signature =>
    obtain ⟨row, hrow, hrecorded⟩ := hs
    obtain ⟨row', hrow', hkeeps⟩ := h.rows positionId row hrow
    exact ⟨row', hrow', hkeeps.mint ▸ entryRecordedForMint_grows h hrecorded⟩

end Grows

/-- A delivery whose booking skips every stored row books nothing. -/
theorem books_eq_false {st : Store} {d : Delivery}
    (h : ∀ row, st.rows.lookup d.transition.positionId = some row →
      d.transition.book st d.readings row = .ok .skip) : books st d = false := by
  unfold books applyTransition commitBooking
  cases hrow : st.rows.lookup d.transition.positionId with
  | none => rfl
  | some row =>
    dsimp only
    rw [h row hrow]
    rfl

/-- A settled swap is not booked again. -/
theorem books_settled {st : Store} {d : Delivery} (h : Settled st d.transition.swap) :
    books st d = false := by
  obtain ⟨t, readings⟩ := d
  refine books_eq_false fun row hrow => ?_
  cases t with
  | entryVerified positionId fill heldAfter =>
    obtain ⟨row', hrow', hsettled⟩ := h
    cases hrow.symm.trans hrow'
    exact if_pos hsettled
  | exitVerified positionId fill exitSignature exitAmount heldAfter => exact if_pos h
  | partialExitVerified => exact if_pos h
  | dcaVerified positionId fill effectivePrice dcaSignature heldAfter =>
    obtain ⟨row', hrow', hrecorded⟩ := h
    cases hrow.symm.trans hrow'
    exact if_pos hrecorded

theorem entryRecordExists_iff {st : Store} {positionId : ℤ} {signature : String} :
    st.entryRecordExists positionId signature = true ↔
      ∃ r ∈ st.entries, r.positionId = positionId ∧ r.transactionSignature = signature := by
  simp only [Store.entryRecordExists, List.any_eq_true, Bool.and_eq_true, beq_iff_eq]

/-- An inserted record is there, whether it was new or not. -/
theorem insertEntryRecord_exists (st : Store) (r : EntryRecord) :
    (st.insertEntryRecord r).entryRecordExists r.positionId r.transactionSignature = true := by
  unfold Store.insertEntryRecord
  split
  · assumption
  · exact entryRecordExists_iff.mpr
      ⟨r, List.mem_append_right _ (List.mem_singleton_self r), rfl, rfl⟩

theorem insertExitRecord_exists (st : Store) (r : ExitRecord) :
    (st.insertExitRecord r).exitRecordExists r.positionId r.transactionSignature = true := by
  unfold Store.insertExitRecord
  split
  · assumption
  · simp [Store.exitRecordExists]

theorem insertRecord_entries (st : Store) (record : BookingRecord) :
    ∃ new, (st.insertRecord record).entries = st.entries ++ new := by
  cases record with
  | exit r =>
    change ∃ new, (st.insertExitRecord r).entries = st.entries ++ new
    unfold Store.insertExitRecord
    split <;> exact ⟨[], (List.append_nil _).symm⟩
  | entry r =>
    change ∃ new, (st.insertEntryRecord r).entries = st.entries ++ new
    unfold Store.insertEntryRecord
    split
    · exact ⟨[], (List.append_nil _).symm⟩
    · exact ⟨[r], rfl⟩

theorem committed_entries {booked st' : Store} {positionId : ℤ} {old row : Position}
    {record : Option BookingRecord}
    (hst' : st' = record.elim (booked.writeRow positionId old row)
      (booked.writeRow positionId old row).insertRecord) :
    ∃ new, st'.entries = booked.entries ++ new := by
  cases record with
  | none => exact ⟨[], by rw [hst', List.append_nil]; rfl⟩
  | some record => rw [hst']; exact insertRecord_entries _ record

/-- A booked sale is recorded. -/
theorem sale_recorded {booked st' : Store} {positionId : ℤ} {old row : Position}
    {record : Option BookingRecord} {signature : String}
    (hrecords : Records record positionId signature)
    (hst' : st' = record.elim (booked.writeRow positionId old row)
      (booked.writeRow positionId old row).insertRecord) :
    st'.exitRecordExists positionId signature = true := by
  obtain ⟨r, rfl, rfl, rfl⟩ := hrecords
  rw [hst']
  exact insertExitRecord_exists _ r

/-- A booked add is recorded on its own row or on the open row it went to, both of the mint. -/
theorem add_recorded {st : Store} {readings : Readings} {positionId : ℤ} {fill : DcaFill}
    {price : ℚ} {signature : String} {heldAfter : Option ℕ}
    (hbought : 0 < fill.tokensBought)
    (h : books st ⟨.dcaVerified positionId fill price signature heldAfter, readings⟩ = true) :
    Settled (deliver st ⟨.dcaVerified positionId fill price signature heldAfter, readings⟩)
      (.add positionId signature) := by
  have hgrows := deliver_grows st ⟨.dcaVerified positionId fill price signature heldAfter, readings⟩
  obtain ⟨row', late, h⟩ := books_ok h
  generalize deliver st ⟨.dcaVerified positionId fill price signature heldAfter, readings⟩ = st'
    at h hgrows ⊢
  obtain ⟨old, booked, record, hold, hbook, hst'⟩ := commitBooking_ok h
  obtain ⟨after, hafter, hkeeps⟩ := hgrows.rows positionId old hold
  refine ⟨after, hafter, ?_⟩
  rw [hkeeps.mint]
  -- a record of the add on its own row
  have hown (kept : KeptLeg) (hkept : 0 < kept.leg.tokens)
      (hrecord : record = addRecord positionId fill price signature kept) :
      st'.entryRecordedForMint old.mint signature = true := by
    rw [addRecord, if_pos hkept] at hrecord
    rw [hrecord] at hst'
    have hexists : st'.entryRecordExists positionId signature = true := by
      rw [hst']
      exact insertEntryRecord_exists _ (addEntry positionId fill price signature kept)
    obtain ⟨r, hr, hid, hsignature⟩ := entryRecordExists_iff.mp hexists
    exact entryRecordedForMint_iff.mpr ⟨r, hr, hsignature, after, hid ▸ hafter, hkeeps.mint⟩
  obtain ⟨-, ⟨-, -, -, hrecord, -⟩ | ⟨hclosed, filled, late', kept, hlate, hrecord, -, -⟩⟩ :=
    bookDcaVerified_ok hbook
  · exact hown fill.whole hbought hrecord
  rcases lateDca_ok hclosed hlate with ⟨-, -, rfl, -⟩ |
    ⟨openRoundId, handed, split, -, hopen, -, -, -, -, -, -, -, hmoved⟩
  · exact hown _ hbought hrecord
  · obtain ⟨-, opened, hopened, hmint, -⟩ := openRoundBeside_ok hopen
    obtain ⟨signature', _, _, hsignature, -, -, -, hbooked⟩ := handOver_ok hmoved
    cases hsignature
    obtain ⟨opened', hopened', hk⟩ := hgrows.rows openRoundId opened hopened
    obtain ⟨new, hnew⟩ := committed_entries hst'
    have hr : handoverEntry filled ⟨heldAfter, readings.otherSwapInFlight, some signature,
        fill.dcaTime, readings.decimals⟩ openRoundId handed signature ∈ st'.entries := by
      rw [hnew, hbooked]
      exact List.mem_append_left _ (List.mem_append_right _ (List.mem_singleton_self _))
    exact entryRecordedForMint_iff.mpr
      ⟨_, hr, rfl, opened', hopened', hk.mint.trans hmint⟩

/-- A booked swap is settled. -/
theorem settled_of_books {st : Store} {d : Delivery} (hverified : d.transition.Verified)
    (h : books st d = true) : Settled (deliver st d) d.transition.swap := by
  obtain ⟨t, readings⟩ := d
  cases t with
  | dcaVerified => exact add_recorded hverified.1 h
  | entryVerified =>
    obtain ⟨row', late, h⟩ := books_ok h
    obtain ⟨old, booked, record, hold, hbook, hst'⟩ := commitBooking_ok h
    have hverified := (bookEntryVerified_wrote hbook).2
    refine ⟨Store.stored old row', by rw [committed_rows hst']; exact AList.lookup_insert _, ?_⟩
    unfold entrySettled
    rw [show (Store.stored old row').transactionEntryVerified = true from hverified, Bool.true_or]
  | exitVerified =>
    obtain ⟨row', late, h⟩ := books_ok h
    obtain ⟨old, booked, record, hold, hbook, hst'⟩ := commitBooking_ok h
    exact sale_recorded (bookExitVerified_wrote hbook).2 hst'
  | partialExitVerified =>
    obtain ⟨row', late, h⟩ := books_ok h
    obtain ⟨old, booked, record, hold, hbook, hst'⟩ := commitBooking_ok h
    exact sale_recorded (bookPartialExitVerified_wrote hbook).2 hst'

end ScreenerBot.Positions
