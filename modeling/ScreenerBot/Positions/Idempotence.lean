import ScreenerBot.Positions.Settled
import ScreenerBot.Positions.Conservation
import ScreenerBot.Library.Run

/-! Deliveries of one swap, repeated in any order: what is booked of them. -/
namespace ScreenerBot.Positions
open Library

/-- Whether a delivery is not refused: a refused one is retried. -/
def accepts (st : Store) (d : Delivery) : Bool :=
  match applyTransition st d.readings d.transition with
  | .ok _ => true
  | .error _ => false

theorem deliver_refused (st : Store) (d : Delivery) (h : accepts st d = false) :
    deliver st d = st := by
  unfold accepts at h
  unfold deliver
  split at h
  · cases h
  next e he => rw [he]

/-- Whether a sale is turned away by its row: the sale closed the row, the row's close already
counts it, or a full exit of the row is verified. -/
def turnsAway (row : Position) : Transition → Bool
  | .exitVerified _ fill exitSignature _ _ =>
    if row.isClosed then closeHoldsSale row exitSignature fill.exitTime
    else row.transactionExitVerified
  | .partialExitVerified _ _ _ _ _ exitTime _ _ _ => row.isClosed && ledgerCloseCounts row exitTime
  | _ => false

/-- Whether the row of a sale holds its exit record, which is looked for first. -/
def saleRecorded (st : Store) : Transition → Bool
  | .exitVerified positionId _ exitSignature _ _ => st.exitRecordExists positionId exitSignature
  | .partialExitVerified positionId _ _ _ _ _ exitSignature _ _ =>
    st.exitRecordExists positionId exitSignature
  | _ => false

/-- Whether a delivery has no record and meets a row that turns it away. -/
def turnedAway (st : Store) (d : Delivery) : Bool :=
  !saleRecorded st d.transition &&
    (st.rows.lookup d.transition.positionId).any (turnsAway · d.transition)

theorem books_saleRecorded {st : Store} {d : Delivery} (h : saleRecorded st d.transition = true) :
    books st d = false := by
  obtain ⟨t, readings⟩ := d
  refine books_eq_false fun row _ => ?_
  cases t with
  | entryVerified => cases h
  | dcaVerified => cases h
  | exitVerified => exact if_pos h
  | partialExitVerified => exact if_pos h

/-- What a row turns away is not booked. -/
theorem books_turnedAway {st : Store} {d : Delivery} (h : turnedAway st d = true) :
    books st d = false := by
  obtain ⟨t, readings⟩ := d
  refine books_eq_false fun row hrow => ?_
  obtain ⟨hrecorded, h⟩ := Bool.and_eq_true_iff.mp h
  rw [Bool.not_eq_true', ← Bool.not_eq_true] at hrecorded
  rw [hrow, Option.any_some] at h
  cases t with
  | entryVerified => cases h
  | dcaVerified => cases h
  | exitVerified positionId fill exitSignature exitAmount heldAfter =>
    change (if row.isClosed = true then closeHoldsSale row exitSignature fill.exitTime
      else row.transactionExitVerified) = true at h
    refine (if_neg hrecorded).trans ?_
    split at h
    next hclosed => exact (if_pos hclosed).trans (if_pos h)
    next hopen => exact (if_neg hopen).trans (if_pos h)
  | partialExitVerified =>
    obtain ⟨hclosed, hcounts⟩ := (Bool.and_eq_true_iff (x := row.isClosed)).mp h
    exact (if_neg hrecorded).trans ((if_pos hclosed).trans (if_pos hcounts))

/-- An add or an entry is skipped only when it is settled, a sale also when it is turned away. -/
theorem book_skip {st : Store} {t : Transition} {readings : Readings} {row : Position}
    (hrow : st.rows.lookup t.positionId = some row) (h : t.book st readings row = .ok .skip) :
    Settled st t.swap ∨ saleRecorded st t = false ∧ turnsAway row t = true := by
  cases t with
  | entryVerified positionId fill heldAfter =>
    change bookEntryVerified _ _ _ _ _ _ = _ at h
    unfold bookEntryVerified at h
    dsimp only at h
    split at h
    next hsettled => exact .inl ⟨row, hrow, hsettled⟩
    split at h
    · obtain ⟨_, -, h⟩ := bind_eq_ok.mp h
      cases h
    · cases h
  | dcaVerified positionId fill effectivePrice dcaSignature heldAfter =>
    change bookDcaVerified _ _ _ _ _ _ _ _ = _ at h
    unfold bookDcaVerified at h
    dsimp only at h
    split at h
    next hrecorded => exact .inl ⟨row, hrow, hrecorded⟩
    split at h <;>
    · obtain ⟨_, -, h⟩ := bind_eq_ok.mp h
      cases h
  | exitVerified positionId fill exitSignature exitAmount heldAfter =>
    change bookExitVerified _ _ _ _ _ _ _ _ = _ at h
    unfold bookExitVerified at h
    dsimp only at h
    split at h
    next hrecorded => exact .inl hrecorded
    next hnew =>
    have hnew := Bool.eq_false_of_not_eq_true hnew
    split at h
    next hclosed =>
      split at h
      next hholds => exact .inr ⟨hnew, (if_pos hclosed).trans hholds⟩
      obtain ⟨_, -, h⟩ := bind_eq_ok.mp h
      cases h
    next hopen =>
      split at h
      next hverified => exact .inr ⟨hnew, (if_neg hopen).trans hverified⟩
      split at h <;>
      · obtain ⟨_, -, h⟩ := bind_eq_ok.mp h
        obtain ⟨_, -, h⟩ := bind_eq_ok.mp h
        cases h
  | partialExitVerified positionId exitAmount nativeReceived effectiveExitPrice feeRaw exitTime
      exitSignature =>
    change bookPartialExitVerified _ _ _ _ _ _ _ _ _ _ _ _ = _ at h
    unfold bookPartialExitVerified at h
    dsimp only at h
    split at h
    next hrecorded => exact .inl hrecorded
    next hnew =>
    have hnew := Bool.eq_false_of_not_eq_true hnew
    split at h
    next hclosed =>
      split at h
      next hcounts =>
        exact .inr ⟨hnew, (Bool.and_eq_true_iff (x := row.isClosed)).mpr ⟨hclosed, hcounts⟩⟩
      obtain ⟨_, -, h⟩ := bind_eq_ok.mp h
      cases h
    · obtain ⟨_, -, h⟩ := bind_eq_ok.mp h
      cases h

/-- After an accepted delivery its swap is settled, or it was turned away. -/
theorem settled_or_turnedAway {st : Store} {d : Delivery} (hverified : d.transition.Verified)
    (h : accepts st d = true) :
      Settled (deliver st d) d.transition.swap ∨ turnedAway st d = true := by
  cases hbooks : books st d with
  | true => exact .inl (settled_of_books hverified hbooks)
  | false =>
    rw [deliver_eq_self hbooks]
    unfold accepts applyTransition commitBooking at h
    unfold books applyTransition commitBooking at hbooks
    cases hrow : st.rows.lookup d.transition.positionId with
    | none =>
      rw [hrow] at h
      cases h
    | some row =>
      rw [hrow] at h hbooks
      dsimp only at h hbooks
      cases hbook : d.transition.book st d.readings row with
      | error e =>
        rw [hbook] at h
        cases h
      | ok booking =>
        cases booking with
        | write =>
          rw [hbook] at hbooks
          cases hbooks
        | skip =>
          rcases book_skip hrow hbook with hsettled | ⟨hnew, haway⟩
          · exact .inl hsettled
          · refine .inr ?_
            rw [turnedAway, hrow, Option.any_some, hnew, haway]
            rfl

/-- A settled swap is settled for the rest of the run. -/
theorem settled_foldl {swap : Swap} (ds : List Delivery) {st : Store} (h : Settled st swap) :
    Settled (ds.foldl deliver st) swap :=
  run_invariant deliver (Settled · swap) ds st h fun p _ hp =>
    settled_grows (deliver_grows p.1 p.2) hp

/-- In every later delivery of a sale that its row turned away without a record, the row still does,
or holds a record by then. -/
def StaysTurnedAway (st : Store) (ds : List Delivery) : Prop :=
  (visited deliver st ds).Pairwise fun p q => p.2.transition.swap = q.2.transition.swap →
    turnedAway p.1 p.2 = true →
      (turnedAway q.1 q.2 || saleRecorded q.1 q.2.transition) = true

/-- No delivery of a swap delivered before books anything. -/
def BooksOnce (st : Store) (ds : List Delivery) : Prop :=
  (visited deliver st ds).Pairwise fun p q => p.2.transition.swap = q.2.transition.swap →
    books q.1 q.2 = false

/-- The deliveries of a run that are not refused. -/
def accepted (st : Store) (ds : List Delivery) : List Delivery := taken deliver accepts st ds

theorem booksOnce_of_stays {st : Store} {ds : List Delivery}
    (hverified : ∀ d ∈ ds, d.transition.Verified)
    (haccepts : ∀ p ∈ visited deliver st ds, accepts p.1 p.2 = true)
    (hstays : StaysTurnedAway st ds) : BooksOnce st ds := by
  refine ((hstays.and (visited_followed deliver ds st)).imp_of_mem ?_)
  intro p q hp _ ⟨hstay, between, hq⟩ hswap
  obtain ⟨before, after, hds, -⟩ := visited_split deliver ds st p hp
  have hd : p.2.transition.Verified := hverified p.2 (by rw [hds]; simp)
  rcases settled_or_turnedAway hd (haccepts p hp) with hsettled | haway
  · rw [hswap] at hsettled
    exact books_settled (hq ▸ settled_foldl between hsettled)
  · rcases Bool.or_eq_true_iff.mp (hstay hswap haway) with haway' | hrecorded
    · exact books_turnedAway haway'
    · exact books_saleRecorded hrecorded

/-- Each swap is booked at most once, and a run ends as it does without the repetitions, as long
as a sale that was turned away is not taken when it is delivered again. -/
theorem bookings_idempotent {st : Store} {ds : List Delivery}
    (hverified : ∀ d ∈ ds, d.transition.Verified) (hstays : StaysTurnedAway st (accepted st ds)) :
    BooksOnce st (accepted st ds) ∧
      ds.foldl deliver st =
        (keepFirst (·.transition.swap) [] (accepted st ds)).foldl deliver st := by
  have honce : BooksOnce st (accepted st ds) :=
    booksOnce_of_stays (fun d hd => hverified d (mem_of_taken ds st d hd))
      (takes_of_visited deliver_refused ds st) hstays
  refine ⟨honce, ?_⟩
  rw [← foldl_taken deliver_refused ds st]
  refine foldl_keepFirst deliver (·.transition.swap) (accepted st ds) [] st ?_ fun _ _ hnil => ?_
  · exact honce.imp fun h hswap => deliver_eq_self (h hswap)
  · cases hnil

/-- A full sale of the 200 tokens of the open row. -/
def sale : Delivery :=
  ⟨.exitVerified 2 ⟨Binary64.div 1 50, 4, 10, 120⟩ "sale" 200 (some 0), quietReadings⟩

/-- A late add of the sold row, whose 50 tokens the wallet still holds. -/
def addAfterSale : Delivery :=
  ⟨.dcaVerified 2 lateAdd (Binary64.div 1 100) "add-after-sale" (some 50), quietReadings⟩

/-- The add reopens the sold row, and the sale delivered again finds its record. -/
def resold : List Delivery := [lateAddDelivery, sale, sale, addAfterSale, lateAddDelivery, sale]

theorem bookings_idempotent_redelivered :
    BooksOnce besideOpen (accepted besideOpen resold) ∧
      resold.foldl deliver besideOpen =
        (keepFirst (·.transition.swap) [] (accepted besideOpen resold)).foldl deliver besideOpen :=
  bookings_idempotent (by
      intro d hd
      fin_cases hd
      · exact ⟨by decide, by decide, by decide +kernel, by decide⟩
      · trivial
      · trivial
      · exact ⟨by decide, by decide, by decide +kernel, by decide⟩
      · exact ⟨by decide, by decide, by decide +kernel, by decide⟩
      · trivial)
    (by unfold StaysTurnedAway; decide +kernel)

/-- A row the wallet history closed at 50, with the proceeds of every sale until then. -/
def closedByHistory : Store where
  rows := AList.insert (1 : ℤ)
    { closedRow "mint" with
      closedReason := some closedExternally
      exitTransactionSignature := none } ∅
  entries := []
  exits := []

/-- The sale of 100 tokens that the close counts. -/
def countedSale : Delivery :=
  ⟨.exitVerified 1 ⟨Binary64.div 1 50, 2, 10, 40⟩ "counted-sale" 100 (some 0), quietReadings⟩

/-- A late add whose tokens the wallet still holds. -/
def reopeningAdd : Delivery :=
  ⟨.dcaVerified 1 lateAdd (Binary64.div 1 100) "late-buy" (some 50), quietReadings⟩

/-- What the row 1 has received. -/
def received (st : Store) : Option (Option ℚ) := (st.rows.lookup 1).map (·.nativeReceived)

/-- A sale the wallet history's close already counts is turned away. A late add reopens the row,
which forgets its close, and the sale delivered again is booked on top. -/
theorem reopened_row_books_counted_sale :
    received ([countedSale, reopeningAdd].foldl deliver closedByHistory) = some (some 2) ∧
    received ([countedSale, reopeningAdd, countedSale].foldl deliver closedByHistory) =
      some (some 4) ∧
    ¬ ([countedSale, reopeningAdd, countedSale].foldl deliver closedByHistory =
      (keepFirst (·.transition.swap) []
        (accepted closedByHistory [countedSale, reopeningAdd, countedSale])).foldl deliver
          closedByHistory) := by
  refine ⟨by decide +kernel, by decide +kernel, fun h => ?_⟩
  have hreceived := congrArg received h
  revert hreceived
  decide +kernel

end ScreenerBot.Positions
