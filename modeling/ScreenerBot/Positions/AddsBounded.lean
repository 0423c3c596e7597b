import ScreenerBot.Positions.AddsTracked
import ScreenerBot.Library.Lists

/-! No position takes more automatic adds than the ladder has steps, in a run that keeps track of
every add. -/
namespace ScreenerBot.Positions
open Library

/-- A row that stands alone is beside no open row of the mint. -/
theorem openRoundBeside_none {st : Store} {mint : String} {excluded id : ℤ} {row : Position}
    (h : st.openRoundBeside mint excluded = none) (hrow : st.rows.lookup id = some row)
    (hmint : row.mint = mint) (hne : id ≠ excluded) : row.exitTime ≠ none := by
  intro hopen
  have hempty := List.head?_eq_none_iff.mp (Option.map_eq_none_iff.mp h)
  have hmem : (id, row) ∈ st.openRowsBeside mint excluded := by
    refine List.mem_filter.mpr ⟨List.mem_map.mpr ⟨⟨id, row⟩, AList.mem_lookup_iff.mp hrow, rfl⟩, ?_⟩
    simp only [hmint, hopen, hne, bne_iff_ne, ne_eq, not_false_eq_true, beq_self_eq_true,
      Option.isNone_none, Bool.and_true, Bool.true_and]
  have hmem := (mem_sortBy (fun e : ℤ × Position =>
    toLex (e.2.archived, toLex (e.2.entryTime, e.1)))
    _ _).mpr hmem
  rw [hempty] at hmem
  cases hmem

/-- At most one row of a mint is open. -/
def Store.OneOpenRound (st : Store) : Prop :=
  ∀ p q row row', st.rows.lookup p = some row → st.rows.lookup q = some row' →
    row.mint = row'.mint →
    row.exitTime = none → row'.exitTime = none → p = q

/-- A booking opens no second row of a mint. -/
theorem oneOpenRound_deliver {st : Store} (h : st.OneOpenRound) (d : Delivery) :
    (deliver st d).OneOpenRound := by
  have hframe := deliver_addFrame st d
  -- an open row was open, or is the delivery's own and was alone
  have hone (p q : ℤ) (row row' : Position) (hp : (deliver st d).rows.lookup p = some row)
      (hq : (deliver st d).rows.lookup q = some row') (hmint : row.mint = row'.mint)
      (hrow : row.exitTime = none) (hrow' : row'.exitTime = none)
      (hne : q ≠ d.transition.positionId) :
      p = q := by
    obtain ⟨before, hbefore, hsame, -, -, hopens⟩ := hframe.rows p row hp
    obtain ⟨before', hbefore', hsame', -, hexit, -⟩ := hframe.rows q row' hq
    have hopen' : before'.exitTime = none := (hexit hne).symm.trans hrow'
    have hmints : before.mint = before'.mint := hsame.symm.trans (hmint.trans hsame')
    obtain hopen | ⟨rfl, -, halone, -⟩ := hopens hrow
    · exact h p q before before' hbefore hbefore' hmints hopen hopen'
    · exact absurd hopen' (openRoundBeside_none halone hbefore' hmints.symm hne)
  intro p q row row' hp hq hmint hrow hrow'
  by_cases hq' : q = d.transition.positionId
  · by_cases hp' : p = d.transition.positionId
    · exact hp'.trans hq'.symm
    · exact (hone q p row' row hq hp hmint.symm hrow' hrow hp').symm
  · exact hone p q row row' hp hq hmint hrow hrow' hq'

namespace AddDesk

variable {settings : DcaSettings} {s : AddDesk}

/-- The automatic adds that the position has records of. -/
def autoRecords (s : AddDesk) (id : ℤ) : ℕ :=
  s.sent.countP fun a => a.origin == .auto && s.store.entryRecordExists id a.signature

/-- A booked hand-over to the position is not published yet. -/
def unpublished (s : AddDesk) (id : ℤ) (signature : String) : Bool :=
  s.settling.lookup signature == some (.booked (some id))

/-- The automatic adds that the position has records of, and that memory knows. -/
def autoSeen (s : AddDesk) (id : ℤ) : ℕ :=
  s.sent.countP fun a => a.origin == .auto && s.store.entryRecordExists id a.signature &&
    !s.unpublished id a.signature

/-- An automatic add that is not settled. -/
def unsettledAuto (s : AddDesk) (a : SentAdd) : Bool := a.origin == .auto && !s.settledAdd a

/-- No open row of the mint but the one an automatic add is on its way to has automatic adds, and
that one has room for it. -/
structure Laddered (settings : DcaSettings) (s : AddDesk) : Prop where
  oneOpen : s.store.OneOpenRound
  distinct : (s.sent.map (·.signature)).Nodup
  recorded : ∀ a ∈ s.sent, ∀ id, s.store.entryRecordExists id a.signature = true →
    ∃ row, s.store.rows.lookup id = some row ∧ row.mint = s.mint
  marker : ∀ signature handedTo, s.settling.lookup signature = some (.booked handedTo) →
    (s.adds.map.lookup signature).isSome = true
  counted : ∀ id row, s.store.rows.lookup id = some row → s.autoRecords id ≤ row.dcaCount
  seen : ∀ id row, s.memory.lookup id = some row → s.autoSeen id ≤ row.dcaCount
  bounded : ∀ id, s.autoRecords id ≤ settings.levels
  single : ∀ a ∈ s.sent, ∀ b ∈ s.sent, s.unsettledAuto a = true → s.unsettledAuto b = true → a = b
  room : ∀ target ∈ s.underWay, s.autoRecords target < settings.levels ∧
    ∀ id row, id ≠ target → s.store.rows.lookup id = some row → row.mint = s.mint →
      row.exitTime = none → s.autoRecords id = 0

theorem mem_underWay {target : ℤ} : target ∈ s.underWay ↔
    s.task = some ⟨.auto, .admitted target⟩ ∨
      ∃ a ∈ s.sent, s.unsettledAuto a = true ∧ a.positionId = target := by
  have hsent : target ∈ (s.sent.filter fun a => a.origin == .auto && !s.settledAdd a).map
    (·.positionId) ↔
      ∃ a ∈ s.sent, s.unsettledAuto a = true ∧ a.positionId = target := by
    simp only [List.mem_map, List.mem_filter, unsettledAuto, and_assoc]
  rw [underWay, List.mem_append, hsent]
  refine or_congr_left ?_
  split
  next positionId htask =>
    rw [List.mem_singleton, htask]
    constructor
    · rintro rfl
      rfl
    · rintro ⟨⟩
      rfl
  next hnone => exact ⟨nofun, fun htask => absurd htask (hnone target)⟩

/-- What is unsettled was unsettled. -/
theorem change_unsettled {e : AddEvent} {s' : AddDesk} {a : SentAdd}
    (hchange : Change settings s e s')
    (h : s'.unsettledAuto a = true) : s.unsettledAuto a = true := by
  rw [unsettledAuto, Bool.and_eq_true, Bool.not_eq_true'] at h ⊢
  refine ⟨h.1, ?_⟩
  cases hsettled : s.settledAdd a with
  | false => rfl
  | true => rw [change_settled hchange hsettled] at h; cases h.2

theorem autoSeen_le (s : AddDesk) (id : ℤ) : s.autoSeen id ≤ s.autoRecords id := by
  refine List.countP_mono_left fun a _ h => ?_
  rw [Bool.and_eq_true] at h
  exact h.1

/-- While no add is pending, memory knows every recorded one. -/
theorem autoSeen_eq (hmarked : s.Marked) (h : s.Laddered settings)
    (hpending : s.isDcaPending = false)
    (id : ℤ) : s.autoSeen id = s.autoRecords id := by
  refine List.countP_congr fun a _ => ?_
  have hpublished : s.unpublished id a.signature = false := by
    rw [unpublished, beq_eq_false_iff_ne]
    intro hstage
    rw [isDcaPending_of_lookup hmarked (h.marker a.signature (some id) hstage)] at hpending
    cases hpending
  rw [hpublished, Bool.not_false, Bool.and_true]

namespace Laddered

/-- A change of neither storage, memory nor the sent adds, that starts no automatic add and leaves
what is unpublished so. -/
theorem congr (h : s.Laddered settings) {e : AddEvent} {s' : AddDesk}
    (hchange : Change settings s e s')
    (hmint : s'.mint = s.mint) (hstore : s'.store = s.store) (hmemory : s'.memory = s.memory)
    (hsent : s'.sent = s.sent)
    (htask : ∀ target, s'.task = some ⟨.auto, .admitted target⟩ → target ∈ s.underWay)
    (hstage : ∀ signature handedTo, s'.settling.lookup signature = some (.booked handedTo) ↔
      s.settling.lookup signature = some (.booked handedTo))
    (hmarker : ∀ signature handedTo, s'.settling.lookup signature = some (.booked handedTo) →
      (s'.adds.map.lookup signature).isSome = true) : s'.Laddered settings := by
  have hrecords (id : ℤ) : s'.autoRecords id = s.autoRecords id := by
    rw [autoRecords, autoRecords, hsent, hstore]
  have hseen (id : ℤ) : s'.autoSeen id = s.autoSeen id := by
    rw [autoSeen, autoSeen, hsent, hstore]
    refine List.countP_congr fun a _ => ?_
    rw [show s'.unpublished id a.signature = s.unpublished id a.signature from
      Bool.eq_iff_iff.mpr (by simp only [unpublished, beq_iff_eq, hstage])]
  refine ⟨hstore ▸ h.oneOpen, hsent ▸ h.distinct, ?_, hmarker, ?_, ?_, ?_, ?_, ?_⟩
  · rw [hsent, hstore, hmint]
    exact h.recorded
  · intro id row hrow
    rw [hrecords]
    exact h.counted id row (hstore ▸ hrow)
  · intro id row hrow
    rw [hseen]
    exact h.seen id row (hmemory ▸ hrow)
  · intro id
    rw [hrecords]
    exact h.bounded id
  · rw [hsent]
    exact fun a ha b hb hua hub =>
      h.single a ha b hb (change_unsettled hchange hua) (change_unsettled hchange hub)
  · intro target htarget
    have hbefore : target ∈ s.underWay := by
      obtain hadmitted | ⟨a, ha, hua, hposition⟩ := mem_underWay.mp htarget
      · exact htask target hadmitted
      · exact mem_underWay.mpr (.inr ⟨a, hsent ▸ ha, change_unsettled hchange hua, hposition⟩)
    obtain ⟨hroom, hothers⟩ := h.room target hbefore
    refine ⟨by rwa [hrecords], fun id row hne hrow hrowMint hopen => ?_⟩
    rw [hrecords]
    exact hothers id row hne (hstore ▸ hrow) (hrowMint.trans hmint) hopen

/-- A booking of `d` that counts each new record of an automatic add on its row. -/
theorem deliver (h : s.Laddered settings) (htargeted : s.Targeted) {e : AddEvent} {s' : AddDesk}
    (hchange : Change settings s e s') {d : Delivery}
    (hstore : s'.store = Positions.deliver s.store d) (hmint : s'.mint = s.mint)
    (hsent : s'.sent = s.sent)
    (hmemory : Adopts s'.store.rows s.memory s'.memory (some d.transition.positionId))
    (hapart : s.mayReopenBeside d = false)
    (hrecorded : ∀ a ∈ s.sent, ∀ id, s'.store.entryRecordExists id a.signature = true →
      ∃ row, s'.store.rows.lookup id = some row ∧ row.mint = s.mint)
    (hcount : ∀ id row row', s.store.rows.lookup id = some row →
      s'.store.rows.lookup id = some row' →
      s'.autoRecords id + row.dcaCount ≤ s.autoRecords id + row'.dcaCount)
    (hbounded : ∀ id, s'.autoRecords id ≤ settings.levels)
    (hseen : ∀ id, id ≠ d.transition.positionId → s'.autoSeen id ≤ s.autoSeen id)
    (hmarker : ∀ signature handedTo, s'.settling.lookup signature = some (.booked handedTo) →
      (s'.adds.map.lookup signature).isSome = true)
    (hroom : ∀ target ∈ s'.underWay,
      target ∈ s.underWay ∧ ∀ id, s'.autoRecords id ≤ s.autoRecords id) : s'.Laddered settings := by
  have hframe := deliver_addFrame s.store d
  have hgrows := deliver_grows s.store d
  rw [← hstore] at hframe hgrows
  have hcounted : ∀ id row, s'.store.rows.lookup id = some row →
      s'.autoRecords id ≤ row.dcaCount := by
    intro id row hrow
    obtain ⟨before, hbefore, -⟩ := hframe.rows id row hrow
    have hold := h.counted id before hbefore
    have hnew := hcount id before row hbefore hrow
    omega
  refine ⟨hstore ▸ oneOpenRound_deliver h.oneOpen d, hsent ▸ h.distinct, ?_, hmarker, hcounted, ?_,
    hbounded, ?_, ?_⟩
  · rw [hsent, hmint]
    exact hrecorded
  · intro id row hrow
    obtain ⟨-, hadopted⟩ | ⟨hstale, hold⟩ := hmemory id row hrow
    · exact (autoSeen_le s' id).trans (hcounted id row hadopted)
    · obtain ⟨before, hbefore, -⟩ := htargeted.memory id row hold
      obtain ⟨after, hafter, -⟩ := hgrows.rows id before hbefore
      have hne : id ≠ d.transition.positionId := by
        rintro rfl
        cases hafter.symm.trans (hstale rfl)
      exact (hseen id hne).trans (h.seen id row hold)
  · rw [hsent]
    exact fun a ha b hb hua hub =>
      h.single a ha b hb (change_unsettled hchange hua) (change_unsettled hchange hub)
  · intro target htarget
    obtain ⟨hbefore, hle⟩ := hroom target htarget
    obtain ⟨hlt, hothers⟩ := h.room target hbefore
    refine ⟨(hle target).trans_lt hlt, fun id row hne hrow hrowMint hopen => ?_⟩
    obtain ⟨before, hbeforeRow, hsame, -, -, hopens⟩ := hframe.rows id row hrow
    obtain hwas | ⟨rfl, hclosed, halone, hquiet⟩ := hopens hopen
    · have hzero := hothers id before hne hbeforeRow (hsame.symm.trans (hrowMint.trans hmint)) hwas
      exact Nat.le_zero.mp (hzero ▸ hle id)
    · -- a row that reopens is the one the automatic add is on its way to
      rw [mayReopenBeside, hbeforeRow] at hapart
      simp only [hclosed, hquiet, halone, Bool.not_false, Bool.true_and, Option.isNone_none,
        List.any_eq_false, bne_iff_ne, ne_eq, not_not] at hapart
      exact absurd (hapart target hbefore).symm hne

end Laddered

theorem fresh_ok {signature : String} (h : s.fresh signature = true) :
    (∀ a ∈ s.sent, a.signature ≠ signature) ∧ ∀ id,
      s.store.entryRecordExists id signature = false := by
  simp only [fresh, Bool.and_eq_true, Bool.not_eq_true', List.any_eq_false, beq_iff_eq] at h
  refine ⟨h.1.1.1, fun id => ?_⟩
  rw [Store.entryRecordExists, List.any_eq_false]
  intro r hr hboth
  rw [Bool.and_eq_true, beq_iff_eq, beq_iff_eq] at hboth
  exact h.2 r hr hboth.2

/-- A recorded add of the run is booked. -/
theorem bookedAdd_of_record (h : s.Laddered settings) {a : SentAdd} (ha : a ∈ s.sent) {id : ℤ}
    (hexists : s.store.entryRecordExists id a.signature = true) : s.bookedAdd a = true := by
  obtain ⟨row, hrow, hmint⟩ := h.recorded a ha id hexists
  obtain ⟨r, hr, rfl, hsignature⟩ := entryRecordExists_iff.mp hexists
  exact entryRecordedForMint_iff.mpr ⟨r, hr, hsignature, row, hrow, hmint⟩

theorem record_of_deliver {d : Delivery} {id : ℤ} {signature : String}
    (hne : some signature ≠ d.transition.signature s.store) :
    (Positions.deliver s.store d).entryRecordExists id signature =
      s.store.entryRecordExists id signature := by
  cases hold : s.store.entryRecordExists id signature with
  | true => exact entryRecordExists_grows (deliver_grows s.store d) hold
  | false =>
    rw [← Bool.not_eq_true]
    intro hnew
    exact hne ((deliver_addFrame s.store d).recorded id signature hnew hold).1

/-- Another verified swap records no automatic add. -/
theorem delivered_laddered (htracked : s.Tracked) (h : s.Laddered settings) {d : Delivery}
    {memory : AList fun _ : ℤ => Position}
    (hchange : Change settings s (.deliver d)
      { s with store := Positions.deliver s.store d, memory := memory })
    (hother : ∀ a ∈ s.sent, some a.signature ≠ d.transition.signature s.store)
    (hmemory : Adopts (Positions.deliver s.store d).rows s.memory memory
      (some d.transition.positionId))
    (hapart : s.mayReopenBeside d = false) :
    Laddered settings { s with store := Positions.deliver s.store d, memory := memory } := by
  have hframe := deliver_addFrame s.store d
  have hgrows := deliver_grows s.store d
  have hrecords (id : ℤ) : autoRecords { s with
      store := Positions.deliver s.store d, memory := memory } id = s.autoRecords id :=
    List.countP_congr fun a ha => by rw [record_of_deliver (hother a ha)]
  have hseen (id : ℤ) : autoSeen { s with
      store := Positions.deliver s.store d, memory := memory } id = s.autoSeen id :=
    List.countP_congr fun a ha => by
      rw [record_of_deliver (hother a ha)]
      rfl
  refine h.deliver htracked.targeted hchange rfl rfl rfl hmemory hapart ?_ ?_ ?_ ?_ h.marker ?_
  · intro a ha id hexists
    rw [record_of_deliver (hother a ha)] at hexists
    obtain ⟨row, hrow, hmint⟩ := h.recorded a ha id hexists
    obtain ⟨row', hrow', hkeeps⟩ := hgrows.rows id row hrow
    exact ⟨row', hrow', hkeeps.mint.trans hmint⟩
  · intro id row row' hrow hrow'
    obtain ⟨before, hbefore, -, hle, -⟩ := hframe.rows id row' hrow'
    cases hrow.symm.trans hbefore
    rw [hrecords]
    exact Nat.add_le_add_left hle _
  · intro id
    rw [hrecords]
    exact h.bounded id
  · intro id _
    rw [hseen]
  · intro target htarget
    refine ⟨?_, fun id => (hrecords id).le⟩
    obtain hadmitted | ⟨a, ha, hua, hposition⟩ := mem_underWay.mp htarget
    · exact mem_underWay.mpr (.inl hadmitted)
    · exact mem_underWay.mpr (.inr ⟨a, ha, change_unsettled hchange hua, hposition⟩)

/-- The booking of the unsettled add `own`: a row that records it counts it. -/
structure Books (s s' : AddDesk) (own : SentAdd) (handed : Option ℤ) : Prop where
  store : ∃ d, d.transition.positionId = own.positionId ∧ s'.store = Positions.deliver s.store d
  sent : s'.sent = s.sent
  mem : own ∈ s.sent
  unsettled : s.settledAdd own = false
  mint : ∀ row, s.store.rows.lookup own.positionId = some row → row.mint = s.mint
  new : ∀ id, s.store.entryRecordExists id own.signature = false
  same : ∀ a ∈ s.sent, a.signature ≠ own.signature → ∀ id,
    s'.store.entryRecordExists id a.signature = s.store.entryRecordExists id a.signature
  record : ∀ id, s'.store.entryRecordExists id own.signature = true → ∃ before after,
    s.store.rows.lookup id = some before ∧ s'.store.rows.lookup id = some after ∧
      before.mint = s.mint ∧ before.dcaCount < after.dcaCount ∧
      (id ≠ own.positionId → handed = some id ∧ before.exitTime = none)

theorem booking_books (htracked : s.Tracked) (h : s.Laddered settings) {d : Delivery}
    {signature : String} {entry : PendingDcaSwap} {s' : AddDesk}
    (hstore : s'.store = Positions.deliver s.store d) (hsent : s'.sent = s.sent)
    (hbooks : books s.store d = true)
    (hsignature : d.transition.signature s.store = some signature)
    (hmarker : s.adds.map.lookup signature = some entry) (hverifies : s.verifies d entry = true) :
    ∃ own, own.signature = signature ∧ own.positionId = d.transition.positionId ∧
      Books s s' own (handedTo s.store d) := by
  obtain ⟨fill, price, heldAfter, htransition, hlanded, hstage, -⟩ :=
    verifies_ok hsignature hverifies
  have hposition : d.transition.positionId = entry.positionId := by rw [htransition]; rfl
  have hdca : d.transition.isDca = true := by rw [htransition]; rfl
  obtain ⟨-, own, hown, hownSignature, hownPosition⟩ := htracked.marked.map signature entry hmarker
  rw [htracked.marked.keyed signature entry hmarker] at hownSignature
  rw [← hposition] at hownPosition
  subst hownSignature
  obtain ⟨row, late, happlied⟩ := books_ok hbooks
  obtain ⟨old, -, -, hold, -, -⟩ := commitBooking_ok happlied
  have holdMint : old.mint = s.mint := htracked.targeted.sent own hown old (hownPosition ▸ hold)
  have hnotBooked : s.bookedAdd own = false := by
    rw [← Bool.not_eq_true]
    intro hbooked
    have hsettled : Settled s.store d.transition.swap := by
      rw [htransition]
      refine ⟨old, hposition ▸ hold, ?_⟩
      rw [holdMint]
      exact hbooked
    rw [books_settled hsettled] at hbooks
    cases hbooks
  have hnew (id : ℤ) : s.store.entryRecordExists id own.signature = false := by
    rw [← Bool.not_eq_true]
    intro hexists
    rw [bookedAdd_of_record h hown hexists] at hnotBooked
    cases hnotBooked
  refine ⟨own, rfl, hownPosition, ⟨d, hownPosition.symm, hstore⟩, hsent, hown, ?_,
    htracked.targeted.sent own hown, hnew, fun a _ hne id => ?_, fun id hexists => ?_⟩
  · rw [settledAdd, hnotBooked, Bool.false_or]
    exact htracked.apart own.signature hlanded
  · rw [hstore]
    refine record_of_deliver ?_
    rw [hsignature]
    exact fun he => hne (Option.some.inj he)
  · rw [hstore] at hexists ⊢
    obtain ⟨-, before, after, hbefore, hafter, hbeside, hcount⟩ :=
      (deliver_addFrame s.store d).recorded id _ hexists (hnew id)
    refine ⟨before, after, hbefore, hafter, ?_, hcount hdca, fun hne => ?_⟩
    · by_cases he : id = d.transition.positionId
      · subst he
        cases hold.symm.trans hbefore
        exact holdMint
      · exact ((hbeside he).2.2 old hold).trans holdMint
    · obtain ⟨hhands, hopen, -⟩ := hbeside (hownPosition ▸ hne)
      exact ⟨hhands, hopen⟩

namespace Books

variable {s' : AddDesk} {own : SentAdd} {handed : Option ℤ}

theorem only (hbooks : Books s s' own handed) (h : s.Laddered settings) {a : SentAdd}
    (ha : a ∈ s.sent)
    (he : a.signature = own.signature) : a = own :=
  List.inj_on_of_nodup_map h.distinct ha hbooks.mem he

/-- A row that takes no record of an automatic add has no more of them. -/
theorem records_le (hbooks : Books s s' own handed) (h : s.Laddered settings) {id : ℤ}
    (hnone : own.origin = .auto → s'.store.entryRecordExists id own.signature = false) :
    s'.autoRecords id ≤ s.autoRecords id := by
  rw [autoRecords, autoRecords, hbooks.sent]
  refine List.countP_mono_left fun a ha hrecorded => ?_
  rw [Bool.and_eq_true] at hrecorded ⊢
  refine ⟨hrecorded.1, ?_⟩
  by_cases he : a.signature = own.signature
  · obtain rfl := hbooks.only h ha he
    rw [hnone (beq_iff_eq.mp hrecorded.1)] at hrecorded
    cases hrecorded.2
  · rw [← hbooks.same a ha he]
    exact hrecorded.2

theorem records_succ (hbooks : Books s s' own handed) (h : s.Laddered settings) (id : ℤ) :
    s'.autoRecords id ≤ s.autoRecords id + 1 := by
  rw [autoRecords, autoRecords, hbooks.sent]
  refine countP_le_succ h.distinct (fun a ha hrecorded => ?_) (k := own.signature)
  rw [Bool.and_eq_true] at hrecorded ⊢
  by_cases he : a.signature = own.signature
  · exact .inr he
  · exact .inl ⟨hrecorded.1, hbooks.same a ha he id ▸ hrecorded.2⟩

/-- An automatic add is booked where there is room for it. -/
theorem records_bounded (hbooks : Books s s' own handed) (h : s.Laddered settings) (id : ℤ) :
    s'.autoRecords id ≤ settings.levels := by
  by_cases hnone : own.origin = .auto → s'.store.entryRecordExists id own.signature = false
  · exact (hbooks.records_le h hnone).trans (h.bounded id)
  rw [Classical.not_imp, Bool.not_eq_false] at hnone
  obtain ⟨hauto, hexists⟩ := hnone
  have hunderWay : own.positionId ∈ s.underWay := by
    refine mem_underWay.mpr (.inr ⟨own, hbooks.mem, ?_, rfl⟩)
    rw [unsettledAuto, hauto, hbooks.unsettled]
    rfl
  obtain ⟨hroom, hothers⟩ := h.room own.positionId hunderWay
  obtain ⟨before, after, hbefore, -, hmint, -, hbeside⟩ := hbooks.record id hexists
  have hsucc := hbooks.records_succ h id
  by_cases he : id = own.positionId
  · subst he
    omega
  · have hzero := hothers id before he hbefore hmint (hbeside he).2
    omega

/-- Each new record is counted on its row. -/
theorem records_counted (hbooks : Books s s' own handed) (h : s.Laddered settings) {id : ℤ}
    {row row' : Position} (hrow : s.store.rows.lookup id = some row)
    (hrow' : s'.store.rows.lookup id = some row') :
    s'.autoRecords id + row.dcaCount ≤ s.autoRecords id + row'.dcaCount := by
  cases hexists : s'.store.entryRecordExists id own.signature with
  | true =>
    obtain ⟨before, after, hbefore, hafter, -, hcount, -⟩ := hbooks.record id hexists
    cases hrow.symm.trans hbefore
    cases hrow'.symm.trans hafter
    have hsucc := hbooks.records_succ h id
    omega
  | false =>
    obtain ⟨d, -, hstore⟩ := hbooks.store
    rw [hstore] at hrow'
    obtain ⟨before, hbefore, -, hcount, -⟩ := (deliver_addFrame s.store d).rows id row' hrow'
    cases hrow.symm.trans hbefore
    have hle := hbooks.records_le h fun _ => hexists
    omega

end Books

/-- A booked add is counted where it is recorded; an automatic one had room there. -/
theorem booked_laddered (htracked : s.Tracked) (h : s.Laddered settings) {d : Delivery}
    {signature : String} {entry : PendingDcaSwap} {memory : AList fun _ : ℤ => Position}
    {s' : AddDesk} (hs' : s' = { s with
      store := Positions.deliver s.store d
      memory := memory
      settling := s.settling.insert signature (.booked (handedTo s.store d)) })
    (hchange : Change settings s (.book d) s') (htracked' : s'.Tracked)
    (hdeliver : books s.store d = true)
    (hsignature : d.transition.signature s.store = some signature)
    (hmarker : s.adds.map.lookup signature = some entry) (hverifies : s.verifies d entry = true)
    (hmemory : Adopts (Positions.deliver s.store d).rows s.memory memory
      (some d.transition.positionId))
    (hapart : s.mayReopenBeside d = false) : s'.Laddered settings := by
  have hstore : s'.store = Positions.deliver s.store d := by rw [hs']
  have hstages : s'.settling = s.settling.insert signature (.booked (handedTo s.store d)) := by
    rw [hs']
  have hsent : s'.sent = s.sent := by rw [hs']
  have hgrows := deliver_grows s.store d
  have hframe := deliver_addFrame s.store d
  rw [← hstore] at hgrows hframe
  obtain ⟨own, rfl, hposition, hbooks⟩ :=
    booking_books htracked h hstore hsent hdeliver hsignature hmarker hverifies
  refine h.deliver htracked.targeted hchange hstore (by rw [hs']) hsent ?_ hapart ?_
    (fun id row row' => hbooks.records_counted h) (hbooks.records_bounded h) ?_ ?_ ?_
  · rw [hstore, hs']
    exact hmemory
  · intro a ha id hexists
    by_cases he : a.signature = own.signature
    · rw [he] at hexists
      obtain ⟨before, after, hbefore, hafter, hmint, -⟩ := hbooks.record id hexists
      obtain ⟨before', hbefore', hsame, -⟩ := hframe.rows id after hafter
      cases hbefore.symm.trans hbefore'
      exact ⟨after, hafter, hsame.trans hmint⟩
    · rw [hbooks.same a ha he] at hexists
      obtain ⟨row, hrow, hmint⟩ := h.recorded a ha id hexists
      obtain ⟨row', hrow', hkeeps⟩ := hgrows.rows id row hrow
      exact ⟨row', hrow', hkeeps.mint.trans hmint⟩
  · intro id hne
    rw [autoSeen, autoSeen, hsent]
    refine List.countP_mono_left fun a ha hseen => ?_
    simp only [Bool.and_eq_true, Bool.not_eq_true'] at hseen ⊢
    obtain ⟨⟨hauto, hexists⟩, hpublished⟩ := hseen
    by_cases he : a.signature = own.signature
    · -- a record beside its own row is of the row it was handed to
      rw [he] at hexists hpublished
      obtain ⟨before, after, -, -, -, -, hbeside⟩ := hbooks.record id hexists
      rw [unpublished, hstages, AList.lookup_insert, (hbeside (hposition ▸ hne)).1] at hpublished
      simp at hpublished
    · rw [unpublished, hstages, AList.lookup_insert_ne he] at hpublished
      rw [hbooks.same a ha he] at hexists
      exact ⟨⟨hauto, hexists⟩, hpublished⟩
  · intro key handedTo hlookup
    rw [hstages] at hlookup
    rw [show s'.adds = s.adds by rw [hs']]
    obtain ⟨rfl, -⟩ | ⟨-, hlookup⟩ := lookup_insert_cases hlookup
    · rw [hmarker]
      rfl
    · exact h.marker key handedTo hlookup
  · intro target htarget
    have hsettled : s'.settledAdd own = true := by
      refine htracked'.done own ?_
      rw [hstages, AList.lookup_insert]
      rfl
    have htask : s'.task = s.task := by rw [hs']
    have hbefore : target ∈ s.underWay := by
      obtain hadmitted | ⟨a, ha, hua, hat⟩ := mem_underWay.mp htarget
      · exact mem_underWay.mpr (.inl (htask ▸ hadmitted))
      · exact mem_underWay.mpr (.inr ⟨a, hsent ▸ ha, change_unsettled hchange hua, hat⟩)
    refine ⟨hbefore, fun id => hbooks.records_le h fun hauto => ?_⟩
    -- no automatic add is on its way once the one that was is booked
    exfalso
    obtain hadmitted | ⟨a, ha, hua, -⟩ := mem_underWay.mp htarget
    · have hall := (htracked.quiet _ (htask ▸ hadmitted) rfl rfl).1 own hbooks.mem
      rw [hbooks.unsettled] at hall
      cases hall
    · have hown : s.unsettledAuto own = true := by
        rw [unsettledAuto, hauto, hbooks.unsettled]
        rfl
      have hsame := h.single a (hsent ▸ ha) own hbooks.mem (change_unsettled hchange hua) hown
      rw [hsame, unsettledAuto, hsettled, Bool.not_true, Bool.and_false] at hua
      cases hua

theorem sent_laddered (htracked : s.Tracked) (h : s.Laddered settings) {e : AddEvent}
    {origin : TradeOrigin} {positionId : ℤ} {entry : PendingDcaSwap} {s' : AddDesk}
    (hs' : s' = { s with
      task := some ⟨origin, .sent entry⟩
      sent := s.sent ++ [⟨entry.signature, positionId, origin⟩] })
    (hchange : Change settings s e s') (htask : s.task = some ⟨origin, .admitted positionId⟩)
    (hfresh : s.fresh entry.signature = true) : s'.Laddered settings := by
  obtain ⟨hnew, hrecords⟩ := fresh_ok hfresh
  have hsent : s'.sent = s.sent ++ [⟨entry.signature, positionId, origin⟩] := by rw [hs']
  have hstore : s'.store = s.store := by rw [hs']
  have hautoRecords (id : ℤ) : s'.autoRecords id = s.autoRecords id := by
    rw [autoRecords, autoRecords, hsent, hstore, List.countP_append]
    simp [hrecords id]
  have hautoSeen (id : ℤ) : s'.autoSeen id = s.autoSeen id := by
    rw [autoSeen, autoSeen, hsent, hstore, List.countP_append]
    have hunpublished (signature : String) :
        s'.unpublished id signature = s.unpublished id signature := by
      rw [hs']
      rfl
    simp [hrecords id, hunpublished]
  have hmem {a : SentAdd} (ha : a ∈ s'.sent) :
      a ∈ s.sent ∨ a = ⟨entry.signature, positionId, origin⟩ := by
    rw [hsent, List.mem_append, List.mem_singleton] at ha
    exact ha
  -- an automatic add is sent from a desk without unsettled adds, a manual one is none
  have hunsettled {a : SentAdd} (ha : a ∈ s'.sent) (hua : s'.unsettledAuto a = true) :
      (origin = .auto ∧ a = ⟨entry.signature, positionId, origin⟩) ∨
        (origin ≠ .auto ∧ a ∈ s.sent ∧ s.unsettledAuto a = true) := by
    by_cases horigin : origin = .auto
    · obtain ha | rfl := hmem ha
      · have hbefore := change_unsettled hchange hua
        rw [unsettledAuto, (htracked.quiet _ htask horigin rfl).1 a ha, Bool.not_true,
          Bool.and_false] at hbefore
        cases hbefore
      · exact .inl ⟨horigin, rfl⟩
    · obtain ha | rfl := hmem ha
      · exact .inr ⟨horigin, ha, change_unsettled hchange hua⟩
      · rw [unsettledAuto, Bool.and_eq_true, beq_iff_eq] at hua
        exact absurd hua.1 horigin
  refine ⟨hstore ▸ h.oneOpen, ?_, ?_, ?_, ?_, ?_, ?_, ?_, ?_⟩
  · rw [hsent, List.map_append]
    refine List.nodup_append.mpr ⟨h.distinct, List.nodup_singleton _, fun key hkey key' hkey' => ?_⟩
    obtain ⟨a, ha, rfl⟩ := List.mem_map.mp hkey
    rw [List.map_singleton, List.mem_singleton] at hkey'
    subst hkey'
    exact hnew a ha
  · intro a ha id hexists
    rw [hstore] at hexists ⊢
    obtain ha | rfl := hmem ha
    · rw [show s'.mint = s.mint by rw [hs']]
      exact h.recorded a ha id hexists
    · rw [hrecords id] at hexists
      cases hexists
  · rw [hs']
    exact h.marker
  · intro id row hrow
    rw [hautoRecords]
    exact h.counted id row (hstore ▸ hrow)
  · intro id row hrow
    rw [hautoSeen]
    rw [hs'] at hrow
    exact h.seen id row hrow
  · intro id
    rw [hautoRecords]
    exact h.bounded id
  · intro a ha b hb hua hub
    obtain ⟨horigin, rfl⟩ | ⟨horigin, ha, hua⟩ := hunsettled ha hua
    · obtain ⟨-, rfl⟩ | ⟨hother, -⟩ := hunsettled hb hub
      · rfl
      · exact absurd horigin hother
    · obtain ⟨hother, -⟩ | ⟨-, hb, hub⟩ := hunsettled hb hub
      · exact absurd hother horigin
      · exact h.single a ha b hb hua hub
  · intro target htarget
    have hbefore : target ∈ s.underWay := by
      obtain hadmitted | ⟨a, ha, hua, rfl⟩ := mem_underWay.mp htarget
      · rw [hs'] at hadmitted
        cases hadmitted
      · obtain ha | rfl := hmem ha
        · exact mem_underWay.mpr (.inr ⟨a, ha, change_unsettled hchange hua, rfl⟩)
        · rw [unsettledAuto, Bool.and_eq_true, beq_iff_eq] at hua
          exact mem_underWay.mpr (.inl (hua.1 ▸ htask))
    obtain ⟨hroom, hothers⟩ := h.room target hbefore
    refine ⟨by rwa [hautoRecords], fun id row hne hrow hmint hopen => ?_⟩
    rw [hautoRecords]
    exact hothers id row hne (hstore ▸ hrow) (hmint.trans (by rw [hs'])) hopen

/-- An automatic add that passes its check has a step of the ladder left. -/
theorem checkAutoAdd_room {now : ℤ} {p : Position} {mint : String}
    (h : checkAutoAdd settings now p mint = .ok ()) : p.dcaCount < settings.levels := by
  unfold checkAutoAdd at h
  split at h
  · cases h
  split at h
  · cases h
  next hroom => exact not_le.mp hroom

/-- An automatic add is admitted from a desk without unsettled adds, on the one open row of the
mint. -/
theorem admitted_laddered (htracked : s.Tracked) (h : s.Laddered settings) {e : AddEvent}
    {origin : TradeOrigin} {positionId now : ℤ} {s' : AddDesk}
    (hs' : s' = { s with task := some ⟨origin, .admitted positionId⟩ })
    (hchange : Change settings s e s') (htask : s.task = some ⟨origin, .checked⟩)
    (hadmits : s.admitAdd settings origin now = .ok positionId) : s'.Laddered settings := by
  obtain ⟨p, hp, hmint, hopen, hauto⟩ := admitAdd_ok hadmits
  obtain ⟨row, hrow, hsame, hexit⟩ := htracked.targeted.memory positionId p hp
  have hsent : s'.sent = s.sent := by rw [hs']
  refine ⟨by rw [hs']; exact h.oneOpen, hsent ▸ h.distinct, by rw [hs']; exact h.recorded,
    by rw [hs']; exact h.marker, by rw [hs']; exact h.counted, by rw [hs']; exact h.seen,
    by rw [hs']; exact h.bounded, ?_, ?_⟩
  · rw [hsent]
    exact fun a ha b hb hua hub =>
      h.single a ha b hb (change_unsettled hchange hua) (change_unsettled hchange hub)
  · intro target htarget
    obtain hadmitted | ⟨a, ha, hua, hposition⟩ := mem_underWay.mp htarget
    · rw [hs'] at hadmitted ⊢
      cases hadmitted
      obtain ⟨hall, hpending⟩ := htracked.quiet _ htask rfl rfl
      constructor
      · have hseen := h.seen positionId p hp
        rw [autoSeen_eq htracked.marked h hpending] at hseen
        exact hseen.trans_lt (checkAutoAdd_room (hauto rfl))
      · intro id row' hne hrow' hmint' hopen'
        have heq : id = positionId := by
          apply h.oneOpen id positionId row' row hrow' hrow _ hopen' (hexit.trans hopen)
          rw [hsame, hmint]
          exact hmint'
        exact absurd heq hne
    · have hbefore : target ∈ s.underWay :=
        mem_underWay.mpr (.inr ⟨a, hsent ▸ ha, change_unsettled hchange hua, hposition⟩)
      rw [hs']
      exact h.room target hbefore

/-- Memory adopts committed rows, and a booking may be published with them. -/
theorem adopted_laddered (htracked : s.Tracked) (h : s.Laddered settings) {e : AddEvent}
    {memory : AList fun _ : ℤ => Position} {ids : Option ℤ} {s' : AddDesk}
    (hchange : Change settings s e s') (hmint : s'.mint = s.mint) (hstore : s'.store = s.store)
    (hsent : s'.sent = s.sent) (htask : s'.task = s.task) (hadds : s'.adds = s.adds)
    (hmemoryEq : s'.memory = memory) (hmemory : Adopts s.store.rows s.memory memory ids)
    (hstage : ∀ signature handedTo, s'.settling.lookup signature = some (.booked handedTo) →
      s.settling.lookup signature = some (.booked handedTo))
    (hpublished : ∀ signature id, some id ≠ ids → s.unpublished id signature = true →
      s'.unpublished id signature = true) : s'.Laddered settings := by
  have hrecords (id : ℤ) : s'.autoRecords id = s.autoRecords id := by
    rw [autoRecords, autoRecords, hsent, hstore]
  refine ⟨hstore ▸ h.oneOpen, hsent ▸ h.distinct, ?_, ?_, ?_, ?_, ?_, ?_, ?_⟩
  · rw [hsent, hstore, hmint]
    exact h.recorded
  · intro signature handedTo hlookup
    rw [hadds]
    exact h.marker signature handedTo (hstage signature handedTo hlookup)
  · intro id row hrow
    rw [hrecords]
    exact h.counted id row (hstore ▸ hrow)
  · intro id row hrow
    rw [hmemoryEq] at hrow
    obtain ⟨-, hadopted⟩ | ⟨hstale, hold⟩ := hmemory id row hrow
    · apply (autoSeen_le s' id).trans
      rw [hrecords]
      exact h.counted id row hadopted
    · -- a row that is left as it was is not the adopted one
      obtain ⟨before, hbefore, -⟩ := htracked.targeted.memory id row hold
      have hne : some id ≠ ids := by
        intro he
        cases hbefore.symm.trans (hstale he.symm)
      refine le_trans ?_ (h.seen id row hold)
      rw [autoSeen, autoSeen, hsent, hstore]
      refine List.countP_mono_left fun a _ hseen => ?_
      rw [Bool.and_eq_true, Bool.not_eq_true'] at hseen ⊢
      refine ⟨hseen.1, ?_⟩
      rw [← Bool.not_eq_true]
      intro hunpublished
      rw [hpublished a.signature id hne hunpublished] at hseen
      cases hseen.2
  · intro id
    rw [hrecords]
    exact h.bounded id
  · rw [hsent]
    exact fun a ha b hb hua hub =>
      h.single a ha b hb (change_unsettled hchange hua) (change_unsettled hchange hub)
  · intro target htarget
    have hbefore : target ∈ s.underWay := by
      obtain hadmitted | ⟨a, ha, hua, hposition⟩ := mem_underWay.mp htarget
      · exact mem_underWay.mpr (.inl (htask ▸ hadmitted))
      · exact mem_underWay.mpr (.inr ⟨a, hsent ▸ ha, change_unsettled hchange hua, hposition⟩)
    obtain ⟨hroom, hothers⟩ := h.room target hbefore
    refine ⟨by rwa [hrecords], fun id row hne hrow hrowMint hopen => ?_⟩
    rw [hrecords]
    exact hothers id row hne (hstore ▸ hrow) (hrowMint.trans hmint) hopen

/-- No record of an automatic add is of a position without entries. -/
theorem autoRecords_zero {id : ℤ} (h : ∀ r ∈ s.store.entries, r.positionId ≠ id) :
    s.autoRecords id = 0 := by
  rw [autoRecords, List.countP_eq_zero]
  intro a _
  rw [Bool.and_eq_true, not_and_or]
  right
  intro hexists
  obtain ⟨r, hr, hposition, -⟩ := entryRecordExists_iff.mp hexists
  exact h r hr hposition

/-- A position is inserted or removed while none of its entries is recorded. -/
theorem rows_laddered (h : s.Laddered settings) {e : AddEvent} {s' : AddDesk} {positionId : ℤ}
    (hchange : Change settings s e s') (hmint : s'.mint = s.mint)
    (hentries : s'.store.entries = s.store.entries) (hsent : s'.sent = s.sent)
    (htask : s'.task = none) (hadds : s'.adds = s.adds) (hsettling : s'.settling = s.settling)
    (hnone : ∀ r ∈ s.store.entries, r.positionId ≠ positionId)
    (hrows : ∀ id, id ≠ positionId → s'.store.rows.lookup id = s.store.rows.lookup id)
    (hmemory : ∀ id, id ≠ positionId → s'.memory.lookup id = s.memory.lookup id)
    (hopen : ∀ row, s'.store.rows.lookup positionId = some row → row.mint = s.mint ∧
      ∀ id row', id ≠ positionId → s.store.rows.lookup id = some row' → row'.mint = s.mint →
        row'.exitTime ≠ none) : s'.Laddered settings := by
  have hexists (id : ℤ) (signature : String) :
      s'.store.entryRecordExists id signature = s.store.entryRecordExists id signature := by
    rw [Store.entryRecordExists, Store.entryRecordExists, hentries]
  have hrecords (id : ℤ) : s'.autoRecords id = s.autoRecords id := by
    simp only [autoRecords, hsent, hexists]
  have hseen (id : ℤ) : s'.autoSeen id = s.autoSeen id := by
    simp only [autoSeen, unpublished, hsent, hexists, hsettling]
  have hzero : s.autoRecords positionId = 0 := autoRecords_zero hnone
  refine ⟨?_, hsent ▸ h.distinct, ?_, ?_, ?_, ?_, ?_, ?_, ?_⟩
  · intro p q row row' hp hq hsame hrow hrow'
    by_cases hp' : p = positionId
    · by_cases hq' : q = positionId
      · exact hp'.trans hq'.symm
      · subst hp'
        obtain ⟨hpmint, hothers⟩ := hopen row hp
        rw [hrows q hq'] at hq
        exact absurd hrow' (hothers q row' hq' hq (hsame.symm.trans hpmint))
    · rw [hrows p hp'] at hp
      by_cases hq' : q = positionId
      · subst hq'
        obtain ⟨hqmint, hothers⟩ := hopen row' hq
        exact absurd hrow (hothers p row hp' hp (hsame.trans hqmint))
      · rw [hrows q hq'] at hq
        exact h.oneOpen p q row row' hp hq hsame hrow hrow'
  · intro a ha id hrecorded
    rw [hexists] at hrecorded
    obtain ⟨row, hrow, hrowMint⟩ := h.recorded a (hsent ▸ ha) id hrecorded
    have hne : id ≠ positionId := by
      obtain ⟨r, hr, hposition, -⟩ := entryRecordExists_iff.mp hrecorded
      exact hposition ▸ hnone r hr
    exact ⟨row, (hrows id hne).trans hrow, hrowMint.trans hmint.symm⟩
  · rw [hsettling, hadds]
    exact h.marker
  · intro id row hrow
    rw [hrecords]
    by_cases he : id = positionId
    · subst he
      rw [hzero]
      exact Nat.zero_le _
    · exact h.counted id row ((hrows id he).symm.trans hrow)
  · intro id row hrow
    rw [hseen]
    by_cases he : id = positionId
    · subst he
      exact ((autoSeen_le s id).trans hzero.le).trans (Nat.zero_le _)
    · exact h.seen id row ((hmemory id he).symm.trans hrow)
  · intro id
    rw [hrecords]
    exact h.bounded id
  · rw [hsent]
    exact fun a ha b hb hua hub =>
      h.single a ha b hb (change_unsettled hchange hua) (change_unsettled hchange hub)
  · intro target htarget
    obtain hadmitted | ⟨a, ha, hua, hposition⟩ := mem_underWay.mp htarget
    · cases htask.symm.trans hadmitted
    have hbefore : target ∈ s.underWay :=
      mem_underWay.mpr (.inr ⟨a, hsent ▸ ha, change_unsettled hchange hua, hposition⟩)
    obtain ⟨hroom, hothers⟩ := h.room target hbefore
    refine ⟨by rwa [hrecords], fun id row hne hrow hrowMint hrowOpen => ?_⟩
    rw [hrecords]
    by_cases he : id = positionId
    · rw [he]
      exact hzero
    · exact hothers id row hne ((hrows id he).symm.trans hrow) (hrowMint.trans hmint) hrowOpen

/-- A restart reads memory from storage. -/
theorem restarted_laddered (h : s.Laddered settings) {e : AddEvent} {s' : AddDesk}
    (hs' : s' = { s with
      memory := s.store.rows
      adds := ⟨s.rehydrated, values s.rehydrated⟩
      task := none
      settling := ∅ })
    (hchange : Change settings s e s') : s'.Laddered settings := by
  have hsent : s'.sent = s.sent := by rw [hs']
  refine ⟨by rw [hs']; exact h.oneOpen, hsent ▸ h.distinct, by rw [hs']; exact h.recorded, ?_,
    by rw [hs']; exact h.counted, ?_, by rw [hs']; exact h.bounded, ?_, ?_⟩
  · intro signature handedTo hlookup
    rw [hs'] at hlookup
    cases hlookup
  · intro id row hrow
    apply (autoSeen_le s' id).trans
    rw [hs'] at hrow ⊢
    exact h.counted id row hrow
  · rw [hsent]
    exact fun a ha b hb hua hub =>
      h.single a ha b hb (change_unsettled hchange hua) (change_unsettled hchange hub)
  · intro target htarget
    obtain hadmitted | ⟨a, ha, hua, hposition⟩ := mem_underWay.mp htarget
    · rw [hs'] at hadmitted
      cases hadmitted
    have hbefore : target ∈ s.underWay :=
      mem_underWay.mpr (.inr ⟨a, hsent ▸ ha, change_unsettled hchange hua, hposition⟩)
    rw [hs']
    exact h.room target hbefore

theorem change_laddered {e : AddEvent} {s' : AddDesk} (htracked : s.Tracked)
    (h : s.Laddered settings) (hchange : Change settings s e s') (htracked' : s'.Tracked)
    (hkeeps : s.keepsTrack e = true) : s'.Laddered settings := by
  have hsame := hchange
  have htask (target : ℤ) (htask : s.task = some ⟨.auto, .admitted target⟩) : target ∈ s.underWay :=
    mem_underWay.mpr (.inl htask)
  -- a further stage of a settlement that is not a booking
  have hstage (key : String) (stage : SettleStage) (hnew : ∀ handedTo, stage ≠ .booked handedTo)
      (hold : ∀ handedTo, s.settling.lookup key ≠ some (.booked handedTo)) (signature : String)
      (handedTo : Option ℤ) :
      (s.settling.insert key stage).lookup signature = some (.booked handedTo) ↔
        s.settling.lookup signature = some (.booked handedTo) := by
    by_cases he : signature = key
    · subst he
      rw [AList.lookup_insert]
      exact ⟨fun hsome => absurd (Option.some.inj hsome) (hnew handedTo),
        fun hsome => absurd hsome (hold handedTo)⟩
    · rw [AList.lookup_insert_ne he]
  have herase (key : String) (hold : ∀ handedTo, s.settling.lookup key ≠ some (.booked handedTo))
      (signature : String) (handedTo : Option ℤ) :
      (s.settling.erase key).lookup signature = some (.booked handedTo) ↔
        s.settling.lookup signature = some (.booked handedTo) := by
    by_cases he : signature = key
    · subst he
      rw [AList.lookup_erase]
      exact ⟨by rintro ⟨⟩, fun hsome => absurd hsome (hold handedTo)⟩
    · rw [AList.lookup_erase_ne he]
  cases hchange with
  | same => exact h
  | called | ended | snapshot | wrote =>
    exact h.congr hsame rfl rfl rfl rfl (by rintro _ ⟨⟩) (fun _ _ => .rfl) h.marker
  | landed | died => exact h.congr hsame rfl rfl rfl rfl htask (fun _ _ => .rfl) h.marker
  | admitted origin positionId now htask hadmits =>
    exact admitted_laddered htracked h rfl hsame htask hadmits
  | sent _ origin positionId entry htask hfresh hmint hposition =>
    exact sent_laddered htracked h rfl hsame htask hfresh
  | unresolved result onChain signature expiryHeight size sent hsending =>
    rw [keepsTrack, hsending] at hkeeps
    cases hkeeps
  | registered origin entry htask =>
    refine h.congr hsame rfl rfl rfl rfl (by rintro _ ⟨⟩)
      (fun _ _ => .rfl) fun signature handedTo hlookup => ?_
    have hbefore := h.marker signature handedTo hlookup
    change ((s.adds.map.insert entry.signature entry).lookup signature).isSome = true
    by_cases he : signature = entry.signature
    · rw [he, AList.lookup_insert]
      rfl
    · rwa [AList.lookup_insert_ne he]
  | booked d signature entry row store late hsignature hmarker hverifies memory happlied hmemory =>
    obtain rfl := deliver_of_written happlied
    have hhanded : handedTo s.store d = late.bind (·.handedTo) := by rw [handedTo, happlied]
    rw [← hhanded] at hsame htracked' ⊢
    rw [keepsTrack, Bool.not_eq_true'] at hkeeps
    exact booked_laddered htracked h rfl hsame htracked'
      (by rw [books, happlied]) hsignature hmarker
      hverifies hmemory hkeeps
  | skipped d signature entry hsignature hmarker hverifies happlied =>
    obtain ⟨-, -, -, -, -, hnone, -⟩ := verifies_ok hsignature hverifies
    have hiff := hstage signature .published (by rintro _ ⟨⟩) (by rw [hnone]; rintro _ ⟨⟩)
    exact h.congr hsame rfl rfl rfl rfl htask hiff
      fun key handedTo hlookup => h.marker key handedTo ((hiff key handedTo).mp hlookup)
  | published signature handedTo memory hbooked hmemory =>
    refine adopted_laddered htracked h hsame rfl rfl rfl rfl rfl rfl hmemory ?_ ?_
    · intro key handedTo' hlookup
      obtain ⟨-, hcase⟩ | ⟨-, hlookup⟩ := lookup_insert_cases hlookup
      · cases hcase
      · exact hlookup
    · intro key id hne hunpublished
      simp only [unpublished, beq_iff_eq] at hunpublished ⊢
      rw [AList.lookup_insert_ne]
      · exact hunpublished
      · rintro rfl
        cases hbooked.symm.trans hunpublished
        exact hne rfl
  | failed _ signature hdead hnone =>
    have hiff := hstage signature .published (by rintro _ ⟨⟩) (by rw [hnone]; rintro _ ⟨⟩)
    exact h.congr hsame rfl rfl rfl rfl htask hiff
      fun key handedTo hlookup => h.marker key handedTo ((hiff key handedTo).mp hlookup)
  | cleared signature hpublished =>
    have hiff := hstage signature .cleared (by rintro _ ⟨⟩) (by rw [hpublished]; rintro _ ⟨⟩)
    refine h.congr hsame rfl rfl rfl rfl htask hiff fun key handedTo hlookup => ?_
    have hbooked := (hiff key handedTo).mp hlookup
    have hne : key ≠ signature := by
      rintro rfl
      cases hpublished.symm.trans hbooked
    change ((s.adds.map.erase signature).lookup key).isSome = true
    rw [AList.lookup_erase_ne hne]
    exact h.marker key handedTo hbooked
  | forgotten signature hcleared =>
    have hiff := herase signature (by rw [hcleared]; rintro _ ⟨⟩)
    exact h.congr hsame rfl rfl rfl rfl htask hiff
      fun key handedTo hlookup => h.marker key handedTo ((hiff key handedTo).mp hlookup)
  | clearSnapshot signature hcleared =>
    have hiff := hstage signature (.saving (values s.adds.map)) (by rintro _ ⟨⟩)
      (by rw [hcleared]; rintro _ ⟨⟩)
    exact h.congr hsame rfl rfl rfl rfl htask hiff
      fun key handedTo hlookup => h.marker key handedTo ((hiff key handedTo).mp hlookup)
  | clearWrote signature pending hcleared =>
    have hiff := herase signature (by rw [hcleared]; rintro _ ⟨⟩)
    exact h.congr hsame rfl rfl rfl rfl htask hiff
      fun key handedTo hlookup => h.marker key handedTo ((hiff key handedTo).mp hlookup)
  | delivered d memory hdca hother hmemory =>
    rw [keepsTrack, Bool.not_eq_true'] at hkeeps
    exact delivered_laddered htracked h hsame hother hmemory hkeeps
  | adopted _ positionId memory hmemory =>
    exact adopted_laddered htracked h hsame rfl rfl rfl rfl rfl rfl hmemory
      (fun _ _ hlookup => hlookup)
      fun _ _ _ hunpublished => hunpublished
  | opened positionId row hopens =>
    simp only [opens, Bool.and_eq_true, Option.isNone_iff_eq_none, beq_iff_eq, Bool.not_eq_true',
      List.any_eq_false] at hopens
    obtain ⟨⟨⟨⟨⟨⟨hwaiting, -⟩, hmint⟩, -⟩, hnone⟩, -⟩, halone⟩ := hopens
    refine rows_laddered h hsame rfl rfl rfl hwaiting rfl rfl hnone
      (fun id hne => AList.lookup_insert_ne hne) (fun id hne => AList.lookup_insert_ne hne) ?_
    intro row' hrow'
    cases hrow'.symm.trans (AList.lookup_insert _)
    refine ⟨hmint, fun id other _ hother hsameMint hopen => ?_⟩
    exact halone other (mem_values.mpr ⟨id, hother⟩) ⟨hsameMint, hopen⟩
  | removed positionId row hrow hwaiting hunlanded =>
    refine rows_laddered h hsame rfl rfl rfl hwaiting rfl rfl (unlanded_entries hunlanded).2
      (fun id hne => AList.lookup_erase_ne hne) (fun id hne => AList.lookup_erase_ne hne) ?_
    intro row' hrow'
    cases hrow'.symm.trans (AList.lookup_erase _ _)
  | restarted => exact restarted_laddered h rfl hsame

/-- A landed automatic add is recorded, or the one under way: there is room for it either way. -/
theorem autoLanded_le (htracked : s.Tracked) (h : s.Laddered settings) (id : ℤ) :
    s.autoLanded id ≤ settings.levels := by
  have hlanded (a : SentAdd) (ha : a ∈ s.sent)
    (hauto : (a.origin == .auto && s.landedOn id a) = true) :
      (a.origin == .auto && s.store.entryRecordExists id a.signature) = true ∨
        (s.unsettledAuto a = true ∧ a.positionId = id) := by
    rw [Bool.and_eq_true, landedOn, Bool.and_eq_true] at hauto
    obtain ⟨horigin, hland, hwhere⟩ := hauto
    split at hwhere
    · left
      rw [horigin, hwhere]
      rfl
    next hunbooked =>
      right
      rw [Bool.not_eq_true] at hunbooked
      refine ⟨?_, beq_iff_eq.mp hwhere⟩
      rw [unsettledAuto, settledAdd, horigin, hunbooked, htracked.apart a.signature hland]
      rfl
  by_cases hunsettled : ∃ a ∈ s.sent, s.unsettledAuto a = true ∧ a.positionId = id
  · obtain ⟨own, hown, huo, hposition⟩ := hunsettled
    have hroom := (h.room id (mem_underWay.mpr (.inr ⟨own, hown, huo, hposition⟩))).1
    have hsucc : s.autoLanded id ≤ s.autoRecords id + 1 := by
      apply countP_le_succ h.distinct
      intro a ha hauto
      obtain hrecorded | ⟨hua, -⟩ := hlanded a ha hauto
      · exact .inl hrecorded
      · exact .inr (congrArg SentAdd.signature (h.single a ha own hown hua huo))
    omega
  · apply le_trans _ (h.bounded id)
    apply List.countP_mono_left
    intro a ha hauto
    obtain hrecorded | hua := hlanded a ha hauto
    · exact hrecorded
    · exact absurd ⟨a, ha, hua⟩ hunsettled

theorem start_laddered {mint : String} {store : Store} (h : store.OneOpenRound) :
    (start mint store).Laddered settings where
  oneOpen := h
  distinct := List.nodup_nil
  recorded := nofun
  marker := nofun
  counted _ _ _ := Nat.zero_le _
  seen _ _ _ := Nat.zero_le _
  bounded _ := Nat.zero_le _
  single := nofun
  room target htarget := by
    obtain hadmitted | ⟨a, ha, -⟩ := mem_underWay.mp htarget
    · cases hadmitted
    · cases ha

/-- Storage with one open position of the mint, that bought once. -/
def oneRound : Store where
  rows := AList.insert (1 : ℤ) { openRow "mint" with id := some 1 } ∅
  entries := []
  exits := []

theorem oneRound_oneOpenRound : oneRound.OneOpenRound := by
  have hkey {id : ℤ} {row : Position} (h : oneRound.rows.lookup id = some row) : id = 1 := by
    obtain ⟨rfl, -⟩ | ⟨-, hnone⟩ := lookup_insert_cases h
    · rfl
    · cases hnone
  intro p q row row' hp hq _ _ _
  exact (hkey hp).trans (hkey hq).symm

/-- The verification of an add of that position. -/
def verifiedAdd (signature : String) : Delivery :=
  ⟨.dcaVerified 1 ⟨50, 1 / 2, 10, 40⟩ (Binary64.div 1 100) signature none, quietReadings⟩

/-- One automatic add booked over a restart, and a second one sent. -/
def trackedRun : List AddEvent :=
  [.call .auto, .read 0, .swap (.ok "first") "first" none 1, .register, .snapshot, .write,
    .lands "first", .restart, .book (verifiedAdd "first"), .publish "first", .clear "first",
    .clearSnapshot "first", .clearWrite "first", .call .auto, .read 4000,
    .swap (.ok "second") "second" none 1, .lands "second"]

example : (trackedRun.foldl (step ⟨true, 2, 30⟩) (start "mint" oneRound)).autoLanded 1 = 2 := by
  decide +kernel

/-- An automatic add whose swap ends unresolved, and a second one sent while the first may land. -/
def unresolvedRun : List AddEvent :=
  [.call .auto, .read 0, .swap (.error (.other "the outcome is unknown")) "first" none 1,
    .call .auto, .read 0, .swap (.ok "second") "second" none 1, .lands "first", .lands "second"]

end AddDesk

end ScreenerBot.Positions
