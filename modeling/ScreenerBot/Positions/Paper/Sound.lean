import ScreenerBot.Positions.Paper.Desk

/-! What every booking keeps of the paper book: its rounds stand under their ids, memory holds the
open ones, and no leg is stored twice. -/
namespace ScreenerBot.Positions.Paper
open Library Trader

namespace PaperStore

/-- The round `positionId` is stored open. -/
def OpenAt (db : PaperStore) (positionId : ℤ) : Prop :=
  ∃ round, db.rounds.lookup positionId = some round ∧ round.isOpen = true

/-- A later store of the same run: a stored round stays stored, and once closed stays closed. -/
structure Follows (db db' : PaperStore) : Prop where
  stored : ∀ positionId, (db.rounds.lookup positionId).isSome →
    (db'.rounds.lookup positionId).isSome
  opened : ∀ positionId, (db.rounds.lookup positionId).isSome → db'.OpenAt positionId →
    db.OpenAt positionId
  epochs : db'.epochs = db.epochs

theorem Follows.refl (db : PaperStore) : db.Follows db := ⟨fun _ h => h, fun _ _ h => h, rfl⟩

/-- The ids of the rounds open in the store. -/
def openIds (db : PaperStore) : List ℤ := (retain (·.isOpen) db.rounds).keys

theorem mem_openIds {db : PaperStore} {positionId : ℤ} :
    positionId ∈ db.openIds ↔ db.OpenAt positionId := by
  rw [openIds, ← AList.mem_keys, ← AList.lookup_isSome, Option.isSome_iff_exists]
  exact exists_congr fun round => lookup_retain_eq_some

theorem openRounds_length (db : PaperStore) : db.openRounds.length = db.openIds.length := by
  rw [openRounds, ← values_retain]
  simp [values, openIds, AList.keys, List.keys]

/-- Rounds open only under ids of a list are no more than the list has. -/
theorem openRounds_le {db : PaperStore} {ids : List ℤ} (h : ∀ positionId, db.OpenAt positionId →
    positionId ∈ ids) : db.openRounds.length ≤ ids.length := by
  rw [openRounds_length]
  refine List.Subperm.length_le (List.Nodup.subperm (AList.keys_nodup _) ?_)
  intro positionId hmem
  exact h positionId (mem_openIds.mp hmem)

end PaperStore

/-- What holds of the book between its bookings. -/
structure PaperBook.Sound (book : PaperBook) : Prop where
  keyed : ∀ positionId round, book.db.rounds.lookup positionId = some round →
    round.row.id = some positionId ∧ positionId < book.db.nextId
  live : ∀ round ∈ book.opened, ∃ positionId, round.row.id = some positionId ∧
    (book.db.rounds.lookup positionId).isSome
  held : ∀ positionId, book.db.OpenAt positionId → ∃ round ∈ book.opened,
    round.row.id = some positionId
  legs : (book.db.legs.map (·.leg.legRef)).Nodup
  recorded : ∀ record ∈ book.db.exits, ∃ leg ∈ book.db.legs,
    leg.leg.legRef = record.transactionSignature

/-- The rounds open in the store are never more than those in memory. -/
theorem PaperBook.Sound.openRounds_le {book : PaperBook} (h : book.Sound) :
    book.db.openRounds.length ≤ book.opened.length := by
  let ids := book.opened.map fun round => round.row.id.getD 0
  have hids : ∀ positionId, book.db.OpenAt positionId → positionId ∈ ids := by
    intro positionId hopen
    obtain ⟨live, hlive, hid⟩ := h.held positionId hopen
    exact List.mem_map.mpr ⟨live, hlive, by rw [hid]; rfl⟩
  simpa [ids] using PaperStore.openRounds_le hids

/-- A skipped booking leaves a sound book sound. -/
theorem Skips.sound {book book' : PaperBook} {positionId : ℤ} {leg : PaperLeg}
    {booking : RowBooking}
    {booked : PaperBooked} (h : Skips book positionId leg booking booked book')
    (hsound : book.Sound) : book'.Sound := by
  cases h with
  | alreadyBooked => exact hsound
  | stepTaken => exact hsound
  | closed round hround hclosed =>
    refine { hsound with live := ?_, held := ?_ }
    · intro live hlive
      exact hsound.live live (List.mem_of_mem_filter hlive)
    · intro other hother
      obtain ⟨live, hlive, hid⟩ := hsound.held other hother
      refine ⟨live, List.mem_filter.mpr ⟨hlive, ?_⟩, hid⟩
      obtain ⟨stored, hstored, hopen⟩ := hother
      have hne : other ≠ positionId := by
        rintro rfl
        rw [hround] at hstored
        cases hstored
        rw [hclosed] at hopen
        cases hopen
      simpa [hid] using hne

/-- What memory holds after a written booking: the rounds it held, with the booked one in its place
while that is open. -/
structure Adopts (opened opened' : List PaperRound) (round : PaperRound) : Prop where
  from_opened : ∀ live ∈ opened', live ∈ opened ∨ live.row.id = round.row.id
  others : ∀ live ∈ opened, live.row.id ≠ round.row.id → live ∈ opened'
  itself : round.isOpen = true → ∃ live ∈ opened', live.row.id = round.row.id

theorem adopts_written (book : PaperBook) (positionId : ℤ) (round : PaperRound) :
    Adopts book.opened (book.adopt positionId (.written round)).2.opened round := by
  unfold PaperBook.adopt
  dsimp only
  split
  next hclosed =>
    refine ⟨fun live h => .inl (List.mem_of_mem_eraseP h), fun live h hne => ?_, fun hopen => ?_⟩
    · exact (List.mem_eraseP_of_neg (by simpa using hne)).mpr h
    · simp only [PaperRound.isOpen, Bool.not_eq_true'] at hclosed hopen
      rw [hclosed] at hopen
      cases hopen
  · split
    next hlive =>
      obtain ⟨held, hheld, hid⟩ := List.any_eq_true.mp hlive
      let adopted : PaperRound :=
        { round with row := { round.row with basisPeakRestarted := false } }
      obtain ⟨replaced, made, front, back, -, hreplaced, hopened, hopened'⟩ :=
        @List.exists_of_replaceF _ (fun live : PaperRound =>
          if live.row.id == round.row.id then some adopted else none) _ _ _ hheld (if_pos hid)
      split at hreplaced
      next hreplacedId =>
        cases hreplaced
        rw [hopened', hopened]
        refine ⟨fun live h => ?_, fun live h hne => ?_, fun _ => ?_⟩
        · rcases List.mem_append.mp h with h | h
          · exact .inl (List.mem_append_left _ h)
          · rcases List.mem_cons.mp h with rfl | h
            · exact .inr rfl
            · exact .inl (List.mem_append_right _ (List.mem_cons_of_mem _ h))
        · rcases List.mem_append.mp h with h | h
          · exact List.mem_append_left _ h
          · rcases List.mem_cons.mp h with rfl | h
            · exact absurd (by simpa using hreplacedId) hne
            · exact List.mem_append_right _ (List.mem_cons_of_mem _ h)
        · exact ⟨_, List.mem_append_right _ List.mem_cons_self, rfl⟩
      · cases hreplaced
    next =>
      refine ⟨fun live h => ?_, fun live h _ => List.mem_append_left _ h, fun _ => ?_⟩
      · rcases List.mem_append.mp h with h | h
        · exact .inl h
        · exact .inr (by rw [List.mem_singleton.mp h])
      · exact ⟨_, List.mem_append_right _ List.mem_cons_self, rfl⟩

theorem paperLeg_none {db : PaperStore} {legRef : String} :
    db.paperLeg legRef = none ↔ legRef ∉ db.legs.map (·.leg.legRef) := by
  simp [PaperStore.paperLeg, List.find?_eq_none]

/-- A new leg's reference is stored once. -/
theorem legs_nodup {db : PaperStore} {record : PaperLegRecord}
    (h : (db.legs.map (·.leg.legRef)).Nodup) (hleg : db.paperLeg record.leg.legRef = none) :
    ((db.legs ++ [record]).map (·.leg.legRef)).Nodup := by
  rw [List.map_append, List.map_singleton, ← List.concat_eq_append]
  exact List.Nodup.concat (paperLeg_none.mp hleg) h

theorem mem_insertRecord_exits {db : PaperStore} {record : BookingRecord} {r : ExitRecord}
    (h : r ∈ (db.insertRecord record).exits) : r ∈ db.exits ∨ record = .exit r := by
  cases record with
  | entry entry =>
    simp only [PaperStore.insertRecord] at h
    split at h <;> exact .inl h
  | exit exit =>
    simp only [PaperStore.insertRecord] at h
    split at h
    · exact .inl h
    · rcases List.mem_append.mp h with h | h
      · exact .inl h
      · exact .inr (by rw [List.mem_singleton.mp h])

namespace Books

variable {book book' : PaperBook} {positionId : ℤ} {leg : PaperLeg} {booking : RowBooking}
  {old round : PaperRound} {booked : PaperBooked}

theorem db_eq (h : Books book positionId leg booking old round booked book') :
    book'.db = book.db.booked positionId old round (booking.record positionId leg old) booking.kind
      leg := by
  rw [show book' = _ from congrArg Prod.snd h.adopted]
  unfold PaperBook.adopt
  rfl

theorem opened_eq (h : Books book positionId leg booking old round booked book') :
    Adopts book.opened book'.opened round := by
  rw [show book' = _ from congrArg Prod.snd h.adopted]
  exact adopts_written _ positionId round

theorem rounds_eq (h : Books book positionId leg booking old round booked book') :
    book'.db.rounds =
      book.db.rounds.insert positionId { round with row := Store.stored old.row round.row } := by
  rw [h.db_eq]
  simp [PaperStore.booked]

theorem legs_eq (h : Books book positionId leg booking old round booked book') :
    book'.db.legs = book.db.legs ++ [⟨positionId, booking.kind, leg⟩] := by
  rw [h.db_eq]
  simp [PaperStore.booked]

/-- A booking onto a round opens no round. -/
theorem openAt (h : Books book positionId leg booking old round booked book') {other : ℤ}
    (hother : book'.db.OpenAt other) : book.db.OpenAt other := by
  obtain ⟨stored, hstored, hopen⟩ := hother
  rw [h.rounds_eq] at hstored
  rcases lookup_insert_cases hstored with ⟨rfl, -⟩ | ⟨-, hstored⟩
  · exact ⟨old, h.lookup, h.isOpen⟩
  · exact ⟨stored, hstored, hopen⟩

theorem follows (h : Books book positionId leg booking old round booked book') :
    book.db.Follows book'.db where
  stored other hother := by
    rw [h.rounds_eq, AList.lookup_isSome, AList.mem_insert]
    exact .inr (AList.lookup_isSome.mp hother)
  opened _ _ := h.openAt
  epochs := by
    rw [h.db_eq]
    simp [PaperStore.booked]

theorem record_signature (h : Books book positionId leg booking old round booked book')
    {r : ExitRecord} (hr : booking.record positionId leg old = .exit r) :
    r.transactionSignature = leg.legRef := by
  cases booking <;> cases hr <;> rfl

/-- A booking onto a round leaves a sound book sound. -/
theorem sound (h : Books book positionId leg booking old round booked book') (hsound : book.Sound) :
    book'.Sound := by
  have hmoves := RowBooking.round_moves h.makes
  have hid : round.row.id = some positionId := hmoves.id.trans (hsound.keyed _ _ h.lookup).1
  constructor
  · intro other stored hstored
    have hnext : book'.db.nextId = book.db.nextId := by
      rw [h.db_eq]
      simp [PaperStore.booked]
    rw [h.rounds_eq] at hstored
    rw [hnext]
    rcases lookup_insert_cases hstored with ⟨rfl, rfl⟩ | ⟨-, hstored⟩
    · exact ⟨hid, (hsound.keyed _ _ h.lookup).2⟩
    · exact hsound.keyed _ _ hstored
  · intro live hlive
    rcases h.opened_eq.from_opened live hlive with hlive | hlive
    · obtain ⟨other, hother, hstored⟩ := hsound.live live hlive
      exact ⟨other, hother, h.follows.stored other hstored⟩
    · refine ⟨positionId, hlive.trans hid, h.follows.stored positionId ?_⟩
      rw [h.lookup]
      rfl
  · intro other hother
    by_cases hne : other = positionId
    · subst hne
      obtain ⟨stored, hstored, hopen⟩ := hother
      rw [h.rounds_eq, AList.lookup_insert] at hstored
      cases hstored
      obtain ⟨live, hlive, hliveId⟩ := h.opened_eq.itself hopen
      exact ⟨live, hlive, hliveId.trans hid⟩
    · obtain ⟨live, hlive, hliveId⟩ := hsound.held other (h.openAt hother)
      refine ⟨live, h.opened_eq.others live hlive ?_, hliveId⟩
      rw [hliveId, hid]
      simpa using hne
  · rw [h.legs_eq]
    exact legs_nodup hsound.legs h.newLeg
  · intro r hr
    rw [h.legs_eq]
    rw [h.db_eq] at hr
    rcases mem_insertRecord_exits hr with hr | hr
    · obtain ⟨stored, hstored, hsignature⟩ := hsound.recorded r hr
      exact ⟨stored, List.mem_append_left _ hstored, hsignature⟩
    · exact ⟨_, List.mem_append_right _ List.mem_cons_self, (h.record_signature hr).symm⟩

end Books

section NewRound

variable {book : PaperBook} {opening : Opening} {fill : EntryFill} {leg : PaperLeg}

theorem newRound_rounds {now : ℤ} : (book.withNewRound opening fill leg now).db.rounds =
    book.db.rounds.insert book.db.nextId (book.newRound opening fill) := by
  simp [PaperBook.withNewRound, PaperStore.openedRound]

theorem newRound_legs {now : ℤ} : (book.withNewRound opening fill leg now).db.legs =
    book.db.legs ++ [⟨book.db.nextId, .entry, leg⟩] := by
  simp [PaperBook.withNewRound, PaperStore.openedRound]

theorem newRound_openAt {now : ℤ} {other : ℤ}
    (h : (book.withNewRound opening fill leg now).db.OpenAt other) :
    other = book.db.nextId ∨ book.db.OpenAt other := by
  obtain ⟨stored, hstored, hopen⟩ := h
  rw [newRound_rounds] at hstored
  rcases lookup_insert_cases hstored with ⟨rfl, -⟩ | ⟨-, hstored⟩
  · exact .inl rfl
  · exact .inr ⟨stored, hstored, hopen⟩

theorem newRound_follows {now : ℤ} (hsound : book.Sound) :
    book.db.Follows (book.withNewRound opening fill leg now).db where
  stored other hother := by
    rw [newRound_rounds, AList.lookup_isSome, AList.mem_insert]
    exact .inr (AList.lookup_isSome.mp hother)
  opened other hother hopen := by
    rcases newRound_openAt hopen with rfl | hopen
    · obtain ⟨round, hround⟩ := Option.isSome_iff_exists.mp hother
      exact absurd (hsound.keyed _ _ hround).2 (lt_irrefl _)
    · exact hopen
  epochs := by simp [PaperBook.withNewRound, PaperStore.openedRound]

/-- A new round leaves a sound book sound. -/
theorem newRound_sound {now : ℤ} (hsound : book.Sound) (hleg : book.db.paperLeg leg.legRef = none) :
    (book.withNewRound opening fill leg now).Sound := by
  constructor
  · intro other stored hstored
    have hnext : (book.withNewRound opening fill leg now).db.nextId = book.db.nextId + 1 := by
      simp [PaperBook.withNewRound, PaperStore.openedRound]
    rw [newRound_rounds] at hstored
    rw [hnext]
    rcases lookup_insert_cases hstored with ⟨rfl, rfl⟩ | ⟨-, hstored⟩
    · exact ⟨rfl, by omega⟩
    · obtain ⟨hid, hlt⟩ := hsound.keyed _ _ hstored
      exact ⟨hid, by omega⟩
  · intro live hlive
    rcases List.mem_append.mp hlive with hlive | hlive
    · obtain ⟨other, hother, hstored⟩ := hsound.live live hlive
      exact ⟨other, hother, (newRound_follows hsound).stored other hstored⟩
    · rw [List.mem_singleton.mp hlive]
      refine ⟨book.db.nextId, rfl, ?_⟩
      rw [newRound_rounds, AList.lookup_insert]
      rfl
  · intro other hother
    rcases newRound_openAt hother with rfl | hother
    · exact ⟨_, List.mem_append_right _ List.mem_cons_self, rfl⟩
    · obtain ⟨live, hlive, hid⟩ := hsound.held other hother
      exact ⟨live, List.mem_append_left _ hlive, hid⟩
  · rw [newRound_legs]
    exact legs_nodup hsound.legs hleg
  · intro r hr
    rw [newRound_legs]
    rcases mem_insertRecord_exits hr with hr | hr
    · obtain ⟨stored, hstored, hsignature⟩ := hsound.recorded r hr
      exact ⟨stored, List.mem_append_left _ hstored, hsignature⟩
    · cases hr

end NewRound

namespace OrderStep

variable {book book' : PaperBook} {order : PaperOrder}

/-- Writing an order leaves a sound book sound. -/
theorem sound (h : OrderStep book order book') (hsound : book.Sound) :
    book'.Sound ∧ book.db.Follows book'.db := by
  cases h with
  | unchanged => exact ⟨hsound, .refl _⟩
  | skipped htarget h =>
    exact ⟨h.sound hsound, h.db_eq ▸ .refl _⟩
  | opened htarget newLeg => exact ⟨newRound_sound hsound newLeg, newRound_follows hsound⟩
  | booked htarget h => exact ⟨h.sound hsound, h.follows⟩

/-- Only a buy opens a round. -/
theorem openAt (h : OrderStep book order book') (htarget : order.target ≠ none) {positionId : ℤ}
    (hopen : book'.db.OpenAt positionId) : book.db.OpenAt positionId := by
  cases h with
  | unchanged => exact hopen
  | skipped _ h => exact h.db_eq ▸ hopen
  | opened hnone => exact absurd hnone htarget
  | booked _ h => exact h.openAt hopen

/-- A buy opens one round at most. -/
theorem openRounds_le (h : OrderStep book order book') :
    book'.db.openRounds.length ≤ book.db.openRounds.length + 1 := by
  have hle : book'.db.openRounds.length ≤ (book.db.nextId :: book.db.openIds).length := by
    refine PaperStore.openRounds_le fun positionId hopen => ?_
    by_cases htarget : order.target = none
    · cases h with
      | unchanged => exact List.mem_cons_of_mem _ (PaperStore.mem_openIds.mpr hopen)
      | skipped hsome => rw [htarget] at hsome; cases hsome
      | opened =>
        rcases newRound_openAt hopen with rfl | hopen
        · exact List.mem_cons_self
        · exact List.mem_cons_of_mem _ (PaperStore.mem_openIds.mpr hopen)
      | booked hsome => rw [htarget] at hsome; cases hsome
    · exact List.mem_cons_of_mem _ (PaperStore.mem_openIds.mpr (h.openAt htarget hopen))
  rwa [List.length_cons, ← PaperStore.openRounds_length] at hle

/-- A written order stores its leg, which was not stored before. -/
theorem legs_eq (h : OrderStep book order book') :
    book'.db.legs = book.db.legs ∨ book.db.paperLeg order.leg.legRef = none ∧
      ∃ positionId kind, book'.db.legs = book.db.legs ++ [⟨positionId, kind, order.leg⟩] := by
  cases h with
  | unchanged => exact .inl rfl
  | skipped _ h => rw [h.db_eq]; exact .inl rfl
  | opened _ newLeg => exact .inr ⟨newLeg, _, _, newRound_legs⟩
  | booked _ h => exact .inr ⟨h.newLeg, _, _, h.legs_eq⟩

/-- A write that stores no leg leaves the store. -/
theorem db_eq (h : OrderStep book order book') (hlegs : book'.db.legs = book.db.legs) :
    book'.db = book.db := by
  cases h with
  | unchanged => rfl
  | skipped _ h => exact h.db_eq
  | opened =>
    rw [newRound_legs] at hlegs
    simp at hlegs
  | booked _ h =>
    rw [h.legs_eq] at hlegs
    simp at hlegs

/-- A fill is written onto an open round only. -/
theorem openAt_target (h : OrderStep book order book') (hlegs : book'.db.legs ≠ book.db.legs)
    {positionId : ℤ} (htarget : order.target = some positionId) : book.db.OpenAt positionId := by
  cases h with
  | unchanged => exact absurd rfl hlegs
  | skipped _ h => exact absurd (by rw [h.db_eq]) hlegs
  | opened hnone => rw [htarget] at hnone; cases hnone
  | booked hsome h =>
    rw [htarget] at hsome
    cases hsome
    exact ⟨_, h.lookup, h.isOpen⟩

end OrderStep

/-- Rounds that are open only where they were open before are no more. -/
theorem openRounds_mono {db db' : PaperStore} (h : ∀ positionId, db'.OpenAt positionId →
    db.OpenAt positionId) : db'.openRounds.length ≤ db.openRounds.length := by
  rw [db.openRounds_length]
  exact PaperStore.openRounds_le fun positionId hopen =>
    PaperStore.mem_openIds.mpr (h positionId hopen)

/-- Settling a round under a new leg leaves a sound book sound and the round closed. -/
theorem settleRound_step {book book' : PaperBook} {snapshot : PaperRound} {currentPrice : Option ℚ}
    {decimalsOf : String → Option ℕ} {reason key : String} {now : ℤ} {booked : PaperBooked}
    (hsound : book.Sound) (hnew : book.db.paperLeg (PaperLeg.reference key) = none)
    (h : book.settleRound snapshot currentPrice decimalsOf reason key now = .ok (booked, book')) :
    book'.Sound ∧ book.db.Follows book'.db ∧
      (∀ positionId, book'.db.OpenAt positionId → book.db.OpenAt positionId) ∧
      ∀ positionId, snapshot.row.id = some positionId → ¬ book'.db.OpenAt positionId := by
  obtain ⟨target, decimals, hid, -, -, hskips | ⟨old, round, hbooks⟩⟩ := settleRound_cases h
  · refine ⟨hskips.sound hsound, hskips.db_eq ▸ .refl _, fun positionId hopen =>
      hskips.db_eq ▸ hopen,
      fun positionId hsnapshot => ?_⟩
    rw [hid] at hsnapshot
    cases hsnapshot
    cases hskips with
    | alreadyBooked hrecorded =>
      exfalso
      obtain ⟨record, hrecord, hsame⟩ := List.any_eq_true.mp hrecorded
      obtain ⟨leg, hleg, hsignature⟩ := hsound.recorded record hrecord
      simp only [Bool.and_eq_true, beq_iff_eq] at hsame
      refine paperLeg_none.mp hnew (List.mem_map.mpr ⟨leg, hleg, ?_⟩)
      exact hsignature.trans hsame.2
    | stepTaken old hstep => cases hstep
    | closed old hround hclosed =>
      rintro ⟨stored, hstored, hopen⟩
      rw [show _ = some stored from hstored] at hround
      cases hround
      rw [hclosed] at hopen
      cases hopen
  · refine ⟨hbooks.sound hsound, hbooks.follows, fun positionId => hbooks.openAt,
      fun positionId hsnapshot => ?_⟩
    rw [hid] at hsnapshot
    cases hsnapshot
    rintro ⟨stored, hstored, hopen⟩
    rw [hbooks.rounds_eq, AList.lookup_insert] at hstored
    cases hstored
    have hclosed : round.isOpen = false := RowBooking.close_closed hbooks.makes
    have hstill : round.isOpen = true := hopen
    rw [hclosed] at hstill
    cases hstill

end ScreenerBot.Positions.Paper
