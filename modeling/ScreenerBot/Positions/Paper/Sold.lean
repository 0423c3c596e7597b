import ScreenerBot.Library.Movements
import ScreenerBot.Positions.Paper.Capacity

/-! The tokens of a paper round: what its records bought and sold, and the fill each sale was booked
from. A sale is priced on a snapshot of its round and booked on whatever the round then is. -/
namespace ScreenerBot.Positions.Paper
open Library Trader

namespace PaperStore

/-- The tokens booked as bought of a round. -/
def bought (db : PaperStore) (positionId : ℤ) : ℕ :=
  totalAt (·.positionId) (·.amount) db.entries positionId

/-- The tokens booked as sold of a round. -/
def sold (db : PaperStore) (positionId : ℤ) : ℕ :=
  totalAt (·.positionId) (·.amount) db.exits positionId

/-- What a round has left and what it sold were bought; every record is of a stored round. -/
structure Traded (db : PaperStore) : Prop where
  within : ∀ positionId round, db.rounds.lookup positionId = some round →
    round.row.remainingTokenAmount.getD 0 + db.sold positionId ≤ db.bought positionId
  entered : ∀ r ∈ db.entries, (db.rounds.lookup r.positionId).isSome
  exited : ∀ r ∈ db.exits, (db.rounds.lookup r.positionId).isSome

theorem Traded.same {db db' : PaperStore} (h : db.Traded) (hsame : db.Same db') : db'.Traded where
  within positionId round hround := by
    rw [bought, sold, hsame.entries, hsame.exits]
    exact h.within positionId round (hsame.rounds ▸ hround)
  entered r hr := hsame.rounds ▸ h.entered r (hsame.entries ▸ hr)
  exited r hr := hsame.rounds ▸ h.exited r (hsame.exits ▸ hr)

/-- A round never sold more than it bought. -/
theorem Traded.sold_le {db : PaperStore} (h : db.Traded) (positionId : ℤ) :
    db.sold positionId ≤ db.bought positionId := by
  cases hround : db.rounds.lookup positionId with
  | some round => exact (Nat.le_add_left _ _).trans (h.within positionId round hround)
  | none =>
    have hnone : db.sold positionId = 0 := totalAt_eq_zero fun r hr he => by
      have hstored := h.exited r hr
      rw [he, hround] at hstored
      cases hstored
    omega

end PaperStore

namespace Books

variable {book book' : PaperBook} {positionId : ℤ} {leg : PaperLeg} {booking : RowBooking}
  {old round : PaperRound} {booked : PaperBooked}

/-- An add writes an entry record of what it bought, and sells nothing. -/
theorem entry_written (h : Books book positionId leg booking old round booked book')
    {r : EntryRecord}
    (hr : booking.record positionId leg old = .entry r) :
    book'.db.entries = book.db.entries ++ [r] ∧ book'.db.exits = book.db.exits ∧
      r.positionId = positionId ∧ r.amount = booking.bought ∧ booking.sold old = 0 := by
  cases booking with
  | dca fill fillPrice decimals =>
    cases hr
    have hnew := h.unrecorded
    simp only [RowBooking.recorded] at hnew
    rw [h.db_eq]
    simp only [PaperStore.booked, PaperStore.insertRecord, RowBooking.record]
    rw [if_neg (by simpa [PaperStore.entryRecordExists] using hnew)]
    simp [RowBooking.bought, RowBooking.sold]
  | partialExit => cases hr
  | close => cases hr

/-- A sale writes an exit record of what it sold, and buys nothing. -/
theorem exit_written (h : Books book positionId leg booking old round booked book') {r : ExitRecord}
    (hr : booking.record positionId leg old = .exit r) :
    book'.db.exits = book.db.exits ++ [r] ∧ book'.db.entries = book.db.entries ∧
      r.positionId = positionId ∧ r.amount = booking.sold old ∧ booking.bought = 0 ∧
      r.transactionSignature = leg.legRef := by
  have hwritten : booking.recorded book.db positionId leg.legRef = false := h.unrecorded
  rw [h.db_eq]
  cases booking with
  | dca => cases hr
  | partialExit fill percentage takeProfitLevel =>
    cases hr
    simp only [RowBooking.recorded] at hwritten
    simp only [PaperStore.booked, PaperStore.insertRecord, RowBooking.record]
    rw [if_neg (by simpa [PaperStore.exitRecordExists] using hwritten)]
    simp [RowBooking.bought, RowBooking.sold]
  | close fill exitPrice reason =>
    cases hr
    simp only [RowBooking.recorded] at hwritten
    simp only [PaperStore.booked, PaperStore.insertRecord, RowBooking.record]
    rw [if_neg (by simpa [PaperStore.exitRecordExists] using hwritten)]
    simp [RowBooking.bought, RowBooking.sold]

theorem bought_eq (h : Books book positionId leg booking old round booked book') (other : ℤ) :
    book'.db.bought other =
      book.db.bought other + if positionId = other then booking.bought else 0 := by
  unfold PaperStore.bought
  cases hr : booking.record positionId leg old with
  | entry r =>
    obtain ⟨hentries, -, hid, hamount, -⟩ := h.entry_written hr
    rw [hentries, totalAt_concat, hid, hamount]
  | exit r =>
    obtain ⟨-, hentries, -, -, hbought, -⟩ := h.exit_written hr
    rw [hentries, hbought, ite_self, add_zero]

theorem sold_eq (h : Books book positionId leg booking old round booked book') (other : ℤ) :
    book'.db.sold other = book.db.sold other + if positionId =
      other then booking.sold old else 0 := by
  unfold PaperStore.sold
  cases hr : booking.record positionId leg old with
  | entry r =>
    obtain ⟨-, hexits, -, -, hsold⟩ := h.entry_written hr
    rw [hexits, hsold, ite_self, add_zero]
  | exit r =>
    obtain ⟨hexits, -, hid, hamount, -⟩ := h.exit_written hr
    rw [hexits, totalAt_concat, hid, hamount]

/-- A booking that sells no more than the round has left keeps every round within what it bought. -/
theorem traded (h : Books book positionId leg booking old round booked book') (hdb : book.db.Traded)
    (hfits : booking.sold old ≤ old.row.remainingTokenAmount.getD 0) : book'.db.Traded := by
  have hleft := (RowBooking.round_moves h.makes).left
  have hstays := h.follows.stored
  constructor
  · intro other stored hstored
    rw [h.bought_eq, h.sold_eq]
    rw [h.rounds_eq] at hstored
    rcases lookup_insert_cases hstored with ⟨rfl, rfl⟩ | ⟨hne, hstored⟩
    · have hwithin := hdb.within _ _ h.lookup
      have hkept : (Store.stored old.row round.row).remainingTokenAmount.getD 0 =
          round.row.remainingTokenAmount.getD 0 := rfl
      rw [if_pos rfl, if_pos rfl, hkept, hleft]
      omega
    · rw [if_neg (Ne.symm hne), if_neg (Ne.symm hne)]
      exact hdb.within _ _ hstored
  · intro r hr
    cases hrecord : booking.record positionId leg old with
    | entry written =>
      obtain ⟨hentries, -, hid, -⟩ := h.entry_written hrecord
      rw [hentries] at hr
      rcases List.mem_append.mp hr with hr | hr
      · exact hstays _ (hdb.entered r hr)
      · rw [List.mem_singleton.mp hr, hid]
        exact hstays _ (by rw [h.lookup]; rfl)
    | exit written =>
      rw [(h.exit_written hrecord).2.1] at hr
      exact hstays _ (hdb.entered r hr)
  · intro r hr
    cases hrecord : booking.record positionId leg old with
    | entry written =>
      rw [(h.entry_written hrecord).2.1] at hr
      exact hstays _ (hdb.exited r hr)
    | exit written =>
      obtain ⟨hexits, -, hid, -⟩ := h.exit_written hrecord
      rw [hexits] at hr
      rcases List.mem_append.mp hr with hr | hr
      · exact hstays _ (hdb.exited r hr)
      · rw [List.mem_singleton.mp hr, hid]
        exact hstays _ (by rw [h.lookup]; rfl)

end Books

theorem newRound_exits {book : PaperBook} {opening : Opening} {fill : EntryFill} {leg : PaperLeg}
    {now : ℤ} : (book.withNewRound opening fill leg now).db.exits = book.db.exits := by
  simp only [PaperBook.withNewRound, PaperStore.openedRound, PaperStore.insertRecord]
  split <;> rfl

/-- A new round is bought and has sold nothing. -/
theorem newRound_traded {book : PaperBook} {opening : Opening} {fill : EntryFill} {leg : PaperLeg}
    {now : ℤ} (hsound : book.Sound) (hdb : book.db.Traded) :
    (book.withNewRound opening fill leg now).db.Traded := by
  have hnew : book.db.rounds.lookup book.db.nextId = none := by
    cases hround : book.db.rounds.lookup book.db.nextId with
    | none => rfl
    | some round => exact absurd (hsound.keyed _ _ hround).2 (lt_irrefl _)
  have hunused : ∀ r ∈ book.db.entries, r.positionId ≠ book.db.nextId := by
    intro r hr he
    have hstored := hdb.entered r hr
    rw [he, hnew] at hstored
    cases hstored
  have hentries : (book.withNewRound opening fill leg now).db.entries =
      book.db.entries ++ [openingEntry book.db.nextId fill leg] := by
    have hnone : book.db.entries.any (fun r => r.positionId == book.db.nextId &&
        r.transactionSignature == leg.legRef) = false := by
      rw [List.any_eq_false]
      intro r hr
      simp [hunused r hr]
    simp only [PaperBook.withNewRound, PaperStore.openedRound, PaperStore.insertRecord]
    rw [if_neg (by simpa [PaperStore.entryRecordExists, openingEntry] using hnone)]
  have hexits := @newRound_exits book opening fill leg now
  have hstays := (@newRound_follows book opening fill leg now hsound).stored
  constructor
  · intro other stored hstored
    rw [PaperStore.bought, PaperStore.sold, hentries, hexits, totalAt_concat]
    rw [newRound_rounds] at hstored
    rcases lookup_insert_cases hstored with ⟨rfl, rfl⟩ | ⟨hne, hstored⟩
    · have hnone : totalAt (·.positionId) (·.amount) book.db.exits book.db.nextId = 0 := by
        refine totalAt_eq_zero fun r hr he => ?_
        have hknown := hdb.exited r hr
        rw [he, hnew] at hknown
        cases hknown
      rw [hnone]
      simp [PaperBook.newRound, openingRow, Position.applyEntryFill, openingEntry]
    · rw [if_neg (show (openingEntry book.db.nextId fill leg).positionId ≠ other from Ne.symm hne)]
      exact hdb.within _ _ hstored
  · intro r hr
    rw [hentries] at hr
    rcases List.mem_append.mp hr with hr | hr
    · exact hstays _ (hdb.entered r hr)
    · rw [List.mem_singleton.mp hr, newRound_rounds]
      simp [openingEntry]
  · intro r hr
    rw [hexits] at hr
    exact hstays _ (hdb.exited r hr)

/-- Whether `booking` under `leg` is written onto the round `old`: it is open, has no such record,
is at the step before the booking's, and the exited total fits; and no leg has the reference. -/
def PaperStore.writes (db : PaperStore) (positionId : ℤ) (leg : PaperLeg) (booking : RowBooking)
    (old : PaperRound) : Bool :=
  old.isOpen && !booking.recorded db positionId leg.legRef && booking.takesNextStep old &&
    (db.paperLeg leg.legRef).isNone &&
    decide (booking.sold old = 0 ∨ old.row.totalExitedAmount + booking.sold old ≤ u128Max)

/-- Whether a sale priced for `quoted` tokens fits the stored round it is written onto: it sells
what it was priced for, and no more than the round has left. A close sells whatever is left. -/
def PaperStore.saleFits (db : PaperStore) (positionId : ℤ) (leg : PaperLeg) (booking : RowBooking)
    (quoted : ℕ) : Bool :=
  (db.rounds.lookup positionId).all fun old => !db.writes positionId leg booking old ||
    (quoted == booking.sold old && decide (quoted ≤ old.row.remainingTokenAmount.getD 0))

/-- Whether the sale a step books fits the round as it stands: of a priced sale the quoted amount,
of a close at a mark what the round was read to hold. -/
def PaperDesk.fits (desk : PaperDesk) : DeskAction → Bool
  | .sell i =>
    match desk.orders[i]? with
    | some (.sale positionId mint fill sale leg _) =>
      match quotedAmount mint fill.quote true with
      | .ok (quoted, _) =>
        desk.book.db.saleFits positionId leg (sale.booking fill leg quoted) quoted
      | .error _ => true
    | _ => true
  | .settleNext currentPrice decimalsOf key =>
    match desk.capacity with
    | .settling (round :: _) reason now _ =>
      match round.row.id, decimalsOf round.row.mint with
      | some positionId, some decimals =>
        let mark := round.lastMark currentPrice
        let held := round.row.heldAmount.getD 0
        let fill := markFill held decimals mark
        !decide (0 < mark) || desk.book.db.saleFits positionId (.sell fill none now key)
          (.close ⟨mark, fill.netProceedsSol, 0, now⟩ mark reason) held
      | _, _ => true
    | _ => true
  | _ => true

/-- A sale that fits its round sells what it was priced for, and no more than is left. -/
theorem Books.fits {book book' : PaperBook} {positionId : ℤ} {leg : PaperLeg} {booking : RowBooking}
    {old round : PaperRound} {booked : PaperBooked} {quoted : ℕ}
    (h : Books book positionId leg booking old round booked book')
    (hfits : book.db.saleFits positionId leg booking quoted = true) :
    quoted = booking.sold old ∧ booking.sold old ≤ old.row.remainingTokenAmount.getD 0 := by
  have hwrites : book.db.writes positionId leg booking old = true := by
    simp [PaperStore.writes, h.isOpen, h.unrecorded, h.nextStep, h.newLeg,
      RowBooking.round_fits h.makes]
  rw [PaperStore.saleFits, h.lookup] at hfits
  simp only [Option.all_some, hwrites, Bool.not_true, Bool.false_or, Bool.and_eq_true, beq_iff_eq,
    decide_eq_true_eq] at hfits
  obtain ⟨rfl, hle⟩ := hfits
  exact ⟨rfl, hle⟩

theorem quotedAmount_sold {mint : String} {quote : Option PaperQuoteMetadata} {sold decimals : ℕ}
    (h : quotedAmount mint quote true = .ok (sold, decimals)) :
    ∃ metadata, quote = some metadata ∧ metadata.inputAmount = some sold := by
  unfold quotedAmount at h
  split at h
  · cases h
  next metadata =>
    split at h
    · cases h
    · split at h
      · cases h
      next amount hamount =>
        split at h
        · cases h
        · cases h
          exact ⟨metadata, rfl, by simpa using hamount⟩

/-- The exit record `r` of a step has the proceeds of exactly the amount it booked as sold: those
the order's fill was quoted for that amount, or that amount at the round's mark. -/
def PaperDesk.PricedFor (desk : PaperDesk) (r : ExitRecord) : DeskAction → Prop
  | .sell i => ∃ positionId mint fill sale leg epoch quote,
    desk.orders[i]? = some (.sale positionId mint fill sale leg epoch) ∧ fill.quote = some quote ∧
      quote.inputAmount = some r.amount ∧ r.nativeReceived = fill.netProceedsSol
  | .settleNext currentPrice decimalsOf _ => ∃ round pending reason now reset decimals,
    desk.capacity = .settling (round :: pending) reason now reset ∧
      decimalsOf round.row.mint = some decimals ∧
        r.nativeReceived = Binary64.mul (Rounded.toWholeUnits r.amount decimals)
          (round.lastMark currentPrice)
  | _ => False

/-- A written sale is recorded with the proceeds and the amount its fill was quoted for. -/
theorem saleBooking_priced {positionId : ℤ} {mint : String} {fill : PaperSellFill}
    {sale : PaperSale}
    {leg : PaperLeg} {old : PaperRound} {quoted decimals : ℕ} {r : ExitRecord}
    (hquoted : quotedAmount mint fill.quote true = .ok (quoted, decimals))
    (hsold : quoted = (sale.booking fill leg quoted).sold old)
    (hr : (sale.booking fill leg quoted).record positionId leg old = .exit r) :
    ∃ quote, fill.quote = some quote ∧ quote.inputAmount = some r.amount ∧
      r.nativeReceived = fill.netProceedsSol := by
  obtain ⟨quote, hquote, hamount⟩ := quotedAmount_sold hquoted
  refine ⟨quote, hquote, ?_⟩
  cases sale with
  | partialExit percentage takeProfitLevel =>
    cases hr
    exact ⟨hamount, rfl⟩
  | full exitPrice reason =>
    cases hr
    refine ⟨?_, rfl⟩
    rw [hamount, hsold]
    rfl

/-- The sales a booking wrote. -/
theorem Books.mem_exits {book book' : PaperBook} {positionId : ℤ} {leg : PaperLeg}
    {booking : RowBooking} {old round : PaperRound} {booked : PaperBooked}
    (h : Books book positionId leg booking old round booked book') {r : ExitRecord}
    (hr : r ∈ book'.db.exits) :
    r ∈ book.db.exits ∨ booking.record positionId leg old = .exit r := by
  cases hrecord : booking.record positionId leg old with
  | entry written =>
    rw [(h.entry_written hrecord).2.1] at hr
    exact .inl hr
  | exit written =>
    rw [(h.exit_written hrecord).1] at hr
    rcases List.mem_append.mp hr with hr | hr
    · exact .inl hr
    · rw [List.mem_singleton.mp hr]
      exact .inr rfl

/-- What writing an order keeps: every round within what it bought, and of a sale its amount and its
proceeds those it was quoted for. -/
theorem write_traded {book book' : PaperBook} {order : PaperOrder} {now : ℤ} (hsound : book.Sound)
    (hdb : book.db.Traded)
    (hfits : ∀ positionId mint fill sale leg epoch quoted decimals,
      order = .sale positionId mint fill sale leg epoch →
        quotedAmount mint fill.quote true = .ok (quoted, decimals) →
          book.db.saleFits positionId leg (sale.booking fill leg quoted) quoted = true)
    (h : order.write book now = .ok book') :
    book'.db.Traded ∧ ∀ r ∈ book'.db.exits, r ∈ book.db.exits ∨
      ∃ positionId mint fill sale leg epoch quote,
        order = .sale positionId mint fill sale leg epoch ∧ fill.quote = some quote ∧
          quote.inputAmount = some r.amount ∧ r.nativeReceived = fill.netProceedsSol := by
  cases order with
  | buy opening fill leg terms =>
    obtain ⟨entry, -, h⟩ := bind_eq_ok.mp h
    obtain ⟨⟨opened, after⟩, hwrite, hret⟩ := bind_eq_ok.mp h
    cases hret
    rcases writeOpen_cases hwrite with rfl | ⟨-, rfl⟩
    · exact ⟨hdb, fun r hr => .inl hr⟩
    · exact ⟨newRound_traded hsound hdb, fun r hr => .inl (newRound_exits ▸ hr)⟩
  | add positionId mint fill leg epoch =>
    obtain ⟨⟨dca, decimals⟩, -, h⟩ := bind_eq_ok.mp h
    obtain ⟨⟨booked, after⟩, hwrite, hret⟩ := bind_eq_ok.mp h
    cases hret
    rcases writeDca_cases hwrite with hskips | ⟨old, round, hbooks⟩
    · rw [hskips.db_eq]
      exact ⟨hdb, fun r hr => .inl hr⟩
    · refine ⟨hbooks.traded hdb (Nat.zero_le _), fun r hr => ?_⟩
      rcases hbooks.mem_exits hr with hr | hr
      · exact .inl hr
      · cases hr
  | sale positionId mint fill sale leg epoch =>
    obtain ⟨⟨booked, after⟩, hwrite, hret⟩ := bind_eq_ok.mp h
    cases hret
    obtain ⟨quoted, decimals, hquoted, hskips | ⟨old, round, hbooks⟩⟩ := bookSale_cases hwrite
    · rw [hskips.db_eq]
      exact ⟨hdb, fun r hr => .inl hr⟩
    · obtain ⟨hsold, hle⟩ := hbooks.fits (hfits _ _ _ _ _ _ _ _ rfl hquoted)
      refine ⟨hbooks.traded hdb hle, fun r hr => ?_⟩
      rcases hbooks.mem_exits hr with hr | hr
      · exact .inl hr
      · obtain ⟨quote, hpriced⟩ := saleBooking_priced hquoted hsold hr
        exact .inr ⟨positionId, mint, fill, sale, leg, epoch, quote, rfl, hpriced⟩

namespace PaperDesk

variable {desk : PaperDesk}

/-- A sale is booked by its own step, without the capacity lock. -/
theorem booking_sale {action : DeskAction} {positionId : ℤ} {mint : String} {fill : PaperSellFill}
    {sale : PaperSale} {leg : PaperLeg} {epoch : ℤ} (h : desk.Invariant)
    (hbooking : desk.booking action = some (.sale positionId mint fill sale leg epoch)) :
    ∃ i, action = .sell i ∧ desk.orders[i]? = some (.sale positionId mint fill sale leg epoch) := by
  unfold booking at hbooking
  split at hbooking
  · split at hbooking
    next held now account hcapacity =>
      cases hbooking
      have hholder := h.holder
      rw [hcapacity] at hholder
      cases hholder.2.buys
    · cases hbooking
  next i => exact ⟨i, rfl, (Option.filter_eq_some_iff.mp hbooking).1⟩
  · cases hbooking

theorem step_traded {action : DeskAction} (h : desk.Invariant) (hdb : desk.book.db.Traded)
    (hfits : desk.fits action = true) :
    (desk.step action).book.db.Traded ∧ ∀ r ∈ (desk.step action).book.db.exits,
      r ∈ desk.book.db.exits ∨ desk.PricedFor r action := by
  have hstep := desk.desk_step action
  generalize (desk.step action).book = after at hstep ⊢
  cases hstep with
  | kept hsame => exact ⟨hdb.same hsame, fun r hr => .inl (hsame.exits ▸ hr)⟩
  | wrote order now hbooking =>
    unfold booked
    split
    next book hwrite =>
      obtain ⟨htraded, hpriced⟩ := write_traded h.sound hdb (fun positionId mint fill sale leg epoch
        quoted decimals hsale hquoted => by
          subst hsale
          obtain ⟨i, rfl, horder⟩ := booking_sale h hbooking
          simpa only [fits, horder, hquoted] using hfits) hwrite
      refine ⟨htraded, fun r hr => ?_⟩
      rcases hpriced r hr with hr | ⟨positionId, mint, fill, sale, leg, epoch, quote, rfl, hquoted⟩
      · exact .inl hr
      · obtain ⟨i, rfl, horder⟩ := booking_sale h hbooking
        exact .inr ⟨positionId, mint, fill, sale, leg, epoch, quote, horder, hquoted⟩
    · exact ⟨hdb, fun r hr => .inl hr⟩
  | @closedAtMark currentPrice decimalsOf key reason round pending now reset booked _ hcapacity hnew
      hsettle =>
    obtain ⟨positionId, decimals, hid, hdecimals, hmark, hskips | ⟨old, closed, hbooks⟩⟩ :=
      settleRound_cases hsettle
    · rw [hskips.db_eq]
      exact ⟨hdb, fun r hr => .inl hr⟩
    · simp only [fits, hcapacity, hid, hdecimals, decide_eq_true hmark, Bool.not_true,
        Bool.false_or] at hfits
      obtain ⟨hsold, hle⟩ := hbooks.fits hfits
      refine ⟨hbooks.traded hdb hle, fun r hr => ?_⟩
      rcases hbooks.mem_exits hr with hr | hr
      · exact .inl hr
      · cases hr
        refine .inr ⟨round, pending, reason, now, reset, decimals, hcapacity, hdecimals, ?_⟩
        have hheld : round.row.heldAmount.getD 0 = old.row.remainingTokenAmount.getD 0 := hsold
        rw [← hheld]
        rfl

end PaperDesk

/-- When every sale a run books fits its round as it then stands, no state of the run has sold more
of a round than was bought of it, and every sale was booked with the proceeds of exactly the amount
it booked as sold. -/
theorem paper_sales_within_purchases {actions : List DeskAction}
    (hfits : ∀ p ∈ visited PaperDesk.step .new actions, p.1.fits p.2 = true) :
    (∀ before, before <+: actions → ∀ positionId,
      (before.foldl PaperDesk.step .new).book.db.sold positionId ≤
        (before.foldl PaperDesk.step .new).book.db.bought positionId) ∧
    ∀ p ∈ visited PaperDesk.step .new actions, ∀ r ∈ (p.1.step p.2).book.db.exits,
      r ∈ p.1.book.db.exits ∨ p.1.PricedFor r p.2 := by
  have hnew : PaperDesk.new.book.db.Traded := by
    refine ⟨fun positionId round hround => ?_, List.forall_mem_nil _, List.forall_mem_nil _⟩
    rw [PaperDesk.new_lookup] at hround
    cases hround
  have hkeeps : ∀ p ∈ visited PaperDesk.step .new actions,
      p.1.Invariant ∧ p.1.book.db.Traded →
        (p.1.step p.2).Invariant ∧ (p.1.step p.2).book.db.Traded :=
    fun p hp ⟨hinv, hdb⟩ =>
      ⟨PaperDesk.step_invariant p.2 hinv, (PaperDesk.step_traded hinv hdb (hfits p hp)).1⟩
  constructor
  · intro before hbefore
    exact (reached_invariant PaperDesk.step (fun desk => desk.Invariant ∧ desk.book.db.Traded)
      ⟨PaperDesk.new_invariant, hnew⟩ hkeeps before hbefore).2.sold_le
  · intro p hp
    obtain ⟨hinv, hdb⟩ := visited_invariant PaperDesk.step
      (fun desk => desk.Invariant ∧ desk.book.db.Traded) actions .new
      ⟨PaperDesk.new_invariant, hnew⟩ hkeeps p hp
    exact (PaperDesk.step_traded hinv hdb (hfits p hp)).2

/-- A quote that sells `amount` raw tokens at one SOL for a whole one, without a fee. -/
def tokenSaleQuote (amount : ℕ) : Quote :=
  { oneTokenQuote with
    inputMint := "token"
    outputMint := solMint
    inputAmount := amount
    outputAmount := amount * 1000
    minimumOutputAmount := amount * 1000 }

def tokenSaleReads (amount : ℕ) (key : String) : ExecutionReads :=
  ⟨"wallet", 6, tokenSaleQuote amount, tokenSaleQuote amount, ⟨0, 0, 0, 0⟩, none, key, 2⟩

/-- A token is bought, and two sales are priced on the round it opened: of 60% of it, and of
`exitSize`, which is `amount` then. -/
def twoSalesPriced (exitSize : ExitSize) (amount : ℕ) : List DeskAction :=
  [.account 10 0,
    .priceBuy ⟨"token", "TKN", "Token", 1, none, 1, .manual, .userOnly, 1, 0⟩
      ⟨"wallet", 6, oneTokenQuote, oneTokenQuote, ⟨0, 0, 0, 0⟩, none, "buy", 1⟩,
    .lock 0 1, .write, .target 1,
    .priceSell 0 ⟨.partialExit 60, none, none, "exit"⟩ (tokenSaleReads 600000 "first"),
    .priceSell 0 ⟨exitSize, none, none, "exit"⟩ (tokenSaleReads amount "second")]

theorem paper_sales_within_purchases_one_sale :
    let actions := twoSalesPriced .full 1000000 ++ [.sell 1]
    (∀ before, before <+: actions → ∀ positionId,
      (before.foldl PaperDesk.step .new).book.db.sold positionId ≤
        (before.foldl PaperDesk.step .new).book.db.bought positionId) ∧
    ∀ p ∈ visited PaperDesk.step .new actions, ∀ r ∈ (p.1.step p.2).book.db.exits,
      r ∈ p.1.book.db.exits ∨ p.1.PricedFor r p.2 :=
  paper_sales_within_purchases (List.all_eq_true.mp (by decide +kernel))

/-- The store after both sales are booked. -/
def twoSalesBooked (exitSize : ExitSize) (amount : ℕ) : PaperStore :=
  ((twoSalesPriced exitSize amount ++ [DeskAction.sell 1, .sell 2]).foldl PaperDesk.step
    .new).book.db

/-- Two sales of 60% priced on one snapshot sell more than was bought; a close priced on it books
the proceeds of the whole token for the 40% that is left. -/
theorem stale_sales_misbooked :
    (twoSalesBooked (.partialExit 60) 600000).bought 1 <
        (twoSalesBooked (.partialExit 60) 600000).sold 1 ∧
      (twoSalesBooked .full 1000000).exits.map (fun r => (r.amount, r.nativeReceived)) =
        [(600000, Binary64.div 3 5), (400000, 1)] := by
  constructor
  · decide +kernel
  · decide +kernel

end ScreenerBot.Positions.Paper
