import ScreenerBot.Positions.Apply
import ScreenerBot.Library.Fallible

/-! What a late buy moves between the closed row it was bought for and the open row of the
mint it may be handed to. -/
namespace ScreenerBot.Positions
open Library

namespace Position

/-- Everything the row ever acquired: what it holds and what has left it. -/
def acquired (p : Position) : ℕ := p.remainingTokenAmount.getD 0 + p.totalExitedAmount

/-- The fees booked for the buys of the row, in base units. -/
def buyFees (p : Position) : ℕ := p.entryFeeRaw.getD 0

end Position

/-- A booking changes the acquired amount, the size and the buy fees by the given parts. The size
is a rounded sum and the fee total a saturating `u64`. -/
structure Gains (before after : Position) (tokens : ℤ) (cost : ℚ) (feeRaw : ℕ) : Prop where
  acquired : (after.acquired : ℤ) = before.acquired + tokens
  size : after.totalSizeNative = Binary64.add before.totalSizeNative cost
  fees : before.buyFees + feeRaw ≤ u64Max → after.buyFees = before.buyFees + feeRaw

/-- Rows that agree on these totals. -/
structure Still (before after : Position) : Prop where
  acquired : after.acquired = before.acquired
  size : after.totalSizeNative = before.totalSizeNative
  fees : after.buyFees = before.buyFees

section Totals
variable {p q r : Position}

theorem Still.of_eq (hr : q.remainingTokenAmount = p.remainingTokenAmount)
    (he : q.totalExitedAmount = p.totalExitedAmount) (hs : q.totalSizeNative = p.totalSizeNative)
    (hf : q.entryFeeRaw = p.entryFeeRaw) : Still p q where
  acquired := by simp [Position.acquired, hr, he]
  size := hs
  fees := by simp [Position.buyFees, hf]

theorem Still.trans (hpq : Still p q) (hqr : Still q r) : Still p r where
  acquired := hqr.acquired.trans hpq.acquired
  size := hqr.size.trans hpq.size
  fees := hqr.fees.trans hpq.fees

theorem Gains.then_still {a : ℤ} {x : ℚ} {f : ℕ} (hpq : Gains p q a x f) (hqr : Still q r) :
    Gains p r a x f where
  acquired := by rw [hqr.acquired, hpq.acquired]
  size := hqr.size.trans hpq.size
  fees h := hqr.fees.trans (hpq.fees h)

end Totals

theorem addFee_getD {slot : Option ℕ} {fee : ℕ} (h : slot.getD 0 + fee ≤ u64Max) :
    (addFee slot fee).getD 0 = slot.getD 0 + fee := by
  simp [addFee, saturatingAddU64, h]

theorem proratedFee_le (feeRaw part whole : ℕ) : proratedFee feeRaw part whole ≤ feeRaw := by
  unfold proratedFee
  split
  · exact le_rfl
  · exact min_le_right _ _

/-- The share of a whole is all of the fee, as long as the product does not saturate. -/
theorem proratedFee_whole {feeRaw whole : ℕ} (hwhole : 0 < whole)
    (hfits : feeRaw * whole ≤ u128Max) : proratedFee feeRaw whole whole = feeRaw := by
  unfold proratedFee
  dsimp only
  rw [if_neg hwhole.ne', min_eq_left hfits, Nat.mul_div_cancel _ hwhole]
  split <;> exact min_self _

theorem fraction_eq (part whole : ℕ) :
    fraction part whole = Binary64.div (Binary64.ofNat part) (Binary64.ofNat whole) := by
  unfold fraction
  split
  next h => simp [h, Binary64.div, Binary64.ofNat]
  next => rfl

theorem fraction_nonneg (part whole : ℕ) : 0 ≤ fraction part whole := by
  rw [fraction_eq]
  exact roundBinary64_nonneg (div_nonneg (Binary64.ofNat_nonneg _) (Binary64.ofNat_nonneg _))

theorem fraction_le_one {part whole : ℕ} (h : part ≤ whole) : fraction part whole ≤ 1 := by
  have hle : Binary64.ofNat part / Binary64.ofNat whole ≤ 1 :=
    div_le_one_of_le₀ (Binary64.ofNat_mono h) (Binary64.ofNat_nonneg _)
  rw [fraction_eq]
  exact Binary64.round_le_one (div_nonneg (Binary64.ofNat_nonneg _) (Binary64.ofNat_nonneg _)) hle

theorem fraction_whole {whole : ℕ} (hwhole : 0 < whole) : fraction whole whole = 1 := by
  have hpos : 0 < Binary64.ofNat whole := zero_lt_one.trans_le (Binary64.one_le_ofNat hwhole)
  rw [fraction_eq, Binary64.div, div_self hpos.ne']
  exact roundBinary64_eq Binary64.representable_one one_pos

/-- A part of what a row ever acquired, at its share of the row's size. -/
structure Position.Carries (p : Position) (tokens : ℕ) (cost : ℚ) : Prop where
  within : tokens ≤ p.acquired
  share : cost = Binary64.mul p.totalSizeNative (fraction tokens p.acquired)

namespace Position

variable {p p' : Position}

theorem acquired_of_acquiredAmount {acquired : ℕ} (h : p.acquiredAmount = some acquired) :
    p.acquired = acquired := (checkedRaw_eq_some.mp h).1

theorem restatePnl_still : Still p p.restatePnl := .of_eq rfl rfl rfl rfl

/-- An acquisition raises the remaining amount by what was bought. -/
theorem bookAcquisition_ok {bought : ℕ} (h : p.bookAcquisition bought = .ok p') :
    p' = { p with remainingTokenAmount := some (p.remainingTokenAmount.getD 0 + bought) } := by
  unfold bookAcquisition at h
  cases hr : p.remainingTokenAmount with
  | none =>
    rw [hr] at h
    rw [← Except.ok.inj h, Option.getD_none, Nat.zero_add]
  | some remaining =>
    rw [hr] at h
    dsimp only at h
    split at h
    · cases h
    next held hheld =>
      rw [← Except.ok.inj h, ← (checkedRaw_eq_some.mp hheld).1, Option.getD_some]

/-- A buy adds its tokens, its cost and its fee. -/
theorem bookDca_gains {fill : DcaFill} (h : p.bookDca fill = .ok p') :
    Gains p p' fill.tokensBought fill.nativeSpent fill.feeRaw := by
  obtain ⟨q, hq, hp'⟩ := bind_eq_ok.mp h
  have hp' := Except.ok.inj hp'
  have hq := bookAcquisition_ok hq
  subst hp' hq
  refine ⟨?_, rfl, fun h => addFee_getD h⟩
  simp only [acquired, Option.getD_some]
  omega

theorem holdNothing_still : Still p (p.holdNothing p.acquired) where
  acquired := by simp [acquired, holdNothing]
  size := rfl
  fees := rfl

theorem clearClose_still {held acquired : ℕ} (ha : p.acquired = acquired) (h : held ≤ acquired) :
    Still p (p.clearClose held acquired) where
  acquired := by
    simp only [Position.acquired, clearClose, Option.getD_some] at ha ⊢
    omega
  size := rfl
  fees := rfl

/-- Following its round leaves a row's totals as they are, and hands nothing over. -/
theorem followRound_still {held : ℕ} {recorded : Bool} {follow : FollowOutcome}
    (h : p.followRound held recorded = .ok (p', follow)) :
    Still p p' ∧ follow ≠ .handedOver := by
  unfold followRound at h
  split at h
  · cases h
    exact ⟨.of_eq rfl rfl rfl rfl, nofun⟩
  split at h
  · cases h
  next acquired ha =>
    have ha := acquired_of_acquiredAmount ha
    subst ha
    split at h
    · cases h
      exact ⟨holdNothing_still.trans restatePnl_still, nofun⟩
    · cases h
      refine ⟨?_, nofun⟩
      split
      · have hcount : Still p { p with partialExitCount := p.partialExitCount + 1 } :=
          .of_eq rfl rfl rfl rfl
        exact hcount.trans (clearClose_still (show _ = p.acquired from rfl) (min_le_right _ _))
      · exact clearClose_still rfl (min_le_right _ _)

theorem moveAverageEntryPrice_still {average fillPrice : ℚ} :
    Still p (p.moveAverageEntryPrice average fillPrice) := by
  unfold moveAverageEntryPrice
  split <;> exact .of_eq rfl rfl rfl rfl

/-- Blending the average moves no tokens, cost or fee. -/
theorem blendAverageEntryPrice_still {bought decimals : ℕ} {spent : ℚ} :
    Still p (p.blendAverageEntryPrice bought spent decimals) := by
  unfold blendAverageEntryPrice
  dsimp only
  split
  · exact .of_eq rfl rfl rfl rfl
  split
  · exact moveAverageEntryPrice_still
  · exact .of_eq rfl rfl rfl rfl

/-- What a hand-over takes off the closed row, when anything is handed over. -/
theorem handOverRound_gains {held : ℕ} {recorded : Bool} {follow : FollowOutcome}
    {handover : Option Handover} (hclosed : p.isClosed = true)
    (h : p.handOverRound held recorded = .ok (p', follow, handover)) :
    (handover = none ∧ follow ≠ .handedOver ∧ Still p p') ∨
      ∃ handed, handover = some handed ∧ follow = .handedOver ∧
        p.Carries handed.tokens handed.costNative ∧
        Gains p p' (-handed.tokens) (-handed.costNative) 0 := by
  unfold handOverRound at h
  rw [hclosed, Bool.not_true, if_neg Bool.false_ne_true] at h
  split at h
  · cases h
  next acquired ha =>
    have ha := acquired_of_acquiredAmount ha
    subst ha
    split at h
    · obtain ⟨⟨q, follow'⟩, hq, hret⟩ := bind_eq_ok.mp h
      cases hret
      obtain ⟨hstill, hfollow⟩ := followRound_still hq
      exact .inl ⟨rfl, hfollow, hstill⟩
    · cases h
      have hle : min held p.acquired ≤ p.acquired := min_le_right _ _
      refine .inr ⟨_, rfl, rfl, ⟨hle, by rw [fraction_eq]⟩, ?_, ?_, fun _ => rfl⟩
      · simp only [acquired, holdNothing, restatePnl, Option.getD_some] at hle ⊢
        omega
      · exact (Binary64.add_neg _ _).symm

end Position

/-- The kept and the handed part of a split are the buy, and neither is negative. The handed cost
is the share of the handed tokens and the kept cost the rest, so that both miss the buy's cost by
half of its last bit at most. -/
structure LegSplit.Divides (split : LegSplit) (fill : DcaFill) : Prop where
  tokens : split.kept.tokens + split.handedLeg.tokens = fill.tokensBought
  fees : split.keptFeeRaw + split.handedFeeRaw = fill.feeRaw
  share : split.handedLeg.costNative =
    Binary64.mul fill.nativeSpent (fraction split.handedLeg.tokens fill.tokensBought)
  rest : split.kept.costNative = Binary64.sub fill.nativeSpent split.handedLeg.costNative
  cost : |split.kept.costNative + split.handedLeg.costNative - fill.nativeSpent| ≤
    2 ^ lastBit fill.nativeSpent / 2
  keptCost : 0 ≤ split.kept.costNative
  handedCost : 0 ≤ split.handedLeg.costNative
  /-- A part without tokens costs nothing, unless the fee share saturated. -/
  nothingKept : 0 < fill.tokensBought → fill.feeRaw * fill.tokensBought ≤ u128Max →
    split.kept.tokens = 0 → split.kept.costNative = 0 ∧ split.keptFeeRaw = 0

/-- A split divides its buy, whose cost is an `f64` that is not negative. -/
def LegSplit.OfValue (split : LegSplit) (fill : DcaFill) : Prop :=
  0 ≤ fill.nativeSpent → Representable fill.nativeSpent → split.Divides fill

namespace Position

variable {p p' : Position}

/-- The share of a cost is within it. -/
theorem mul_fraction_le {spent : ℚ} {part whole : ℕ} (hspent : 0 ≤ spent)
    (hvalue : Representable spent) (h : part ≤ whole) :
    Binary64.mul spent (fraction part whole) ≤ spent := by
  have hle : spent * fraction part whole ≤ spent :=
    mul_le_of_le_one_right hspent (fraction_le_one h)
  rcases (mul_nonneg hspent (fraction_nonneg part whole)).eq_or_lt with hzero | hpos
  · rw [Binary64.mul, ← hzero, roundBinary64_zero]
    exact hspent
  · exact roundBinary64_le hvalue hpos hle

theorem splitLeg_divides {fill : DcaFill} (held before : ℕ) (hspent : 0 ≤ fill.nativeSpent)
    (hvalue : Representable fill.nativeSpent) : (p.splitLeg fill held before).Divides fill where
  tokens := Nat.sub_add_cancel (min_le_right _ _)
  fees := Nat.sub_add_cancel (proratedFee_le _ _ _)
  share := rfl
  rest := rfl
  cost := by
    have hle : (p.splitLeg fill held before).handedLeg.costNative ≤ fill.nativeSpent :=
      mul_fraction_le hspent hvalue (min_le_right _ _)
    have hhanded : 0 ≤ (p.splitLeg fill held before).handedLeg.costNative :=
      roundBinary64_nonneg (mul_nonneg hspent (fraction_nonneg _ _))
    exact Binary64.sub_add_near hhanded hle
  keptCost := roundBinary64_nonneg
    (sub_nonneg.mpr (mul_fraction_le hspent hvalue (min_le_right _ _)))
  handedCost := roundBinary64_nonneg (mul_nonneg hspent (fraction_nonneg _ _))
  nothingKept hbought hfits hkept := by
    have hall : min held fill.tokensBought = fill.tokensBought :=
      le_antisymm (min_le_right _ _) (Nat.sub_eq_zero_iff_le.mp hkept)
    have hround : roundBinary64 fill.nativeSpent = fill.nativeSpent := by
      rcases hspent.eq_or_lt with hzero | hpos
      · rw [← hzero, roundBinary64_zero]
      · exact roundBinary64_eq hvalue hpos
    simp only [splitLeg, hall, proratedFee_whole hbought hfits, fraction_whole hbought,
      Binary64.mul, mul_one, hround, Binary64.sub, sub_self, roundBinary64_zero, true_and]
    exact Nat.sub_self _

/-- The earlier tokens that go along are tokens of the row. -/
theorem splitLeg_carries {fill : DcaFill} {held : ℕ}
    (hheld : held ≤ p.acquired + fill.tokensBought) :
    p.Carries (p.splitLeg fill held p.acquired).handedEarlier.tokens
      (p.splitLeg fill held p.acquired).handedEarlier.costNative where
  within := show held - min held fill.tokensBought ≤ p.acquired by omega
  share := rfl

/-- The closed row gains the kept part and loses the earlier tokens that went along. -/
theorem keepLeg_gains {split : LegSplit} {dcaTime : ℤ} {exited : ℕ}
    (he : split.handedEarlier.tokens ≤ p.acquired)
    (hexited : p.acquired - split.handedEarlier.tokens + split.kept.tokens = exited) :
    Gains p (p.keepLeg split dcaTime exited) (split.kept.tokens - split.handedEarlier.tokens)
      (Binary64.sub split.kept.costNative split.handedEarlier.costNative) split.keptFeeRaw := by
  have hbooked : Gains p (p.keepLeg split dcaTime exited) (exited - p.acquired)
      (Binary64.sub split.kept.costNative split.handedEarlier.costNative) split.keptFeeRaw := by
    unfold keepLeg
    dsimp only
    split <;>
    · refine ⟨?_, rfl, fun h => addFee_getD h⟩
      simp [acquired, holdNothing, restatePnl]
  have htokens : (exited : ℤ) - p.acquired = split.kept.tokens - split.handedEarlier.tokens := by
    omega
  rwa [htokens] at hbooked

/-- A late buy stays on the row it was bought for, or is split with the open row. -/
theorem handOverLeg_gains {fill : DcaFill} {held : ℕ} {recorded : Bool} {follow : FollowOutcome}
    {split : LegSplit} (hclosed : p.isClosed = true)
    (h : p.handOverLeg fill held recorded = .ok (p', follow, split)) :
    (follow ≠ .handedOver ∧ Gains p p' fill.tokensBought fill.nativeSpent fill.feeRaw) ∨
      (follow = .handedOver ∧ split.OfValue fill ∧
        p.Carries split.handedEarlier.tokens split.handedEarlier.costNative ∧
        Gains p p' (split.kept.tokens - split.handedEarlier.tokens)
          (Binary64.sub split.kept.costNative split.handedEarlier.costNative)
            split.keptFeeRaw) := by
  unfold handOverLeg at h
  rw [hclosed, Bool.not_true, if_neg Bool.false_ne_true] at h
  dsimp only at h
  split at h
  · cases h
  next before hbefore =>
    have hbefore := acquired_of_acquiredAmount hbefore
    subst hbefore
    split at h
    · cases h
    next acquired hacquired =>
      have hacquired := (checkedRaw_eq_some.mp hacquired).1
      split at h
      · obtain ⟨q, hq, h⟩ := bind_eq_ok.mp h
        obtain ⟨⟨q', follow'⟩, hq', hret⟩ := bind_eq_ok.mp h
        cases hret
        obtain ⟨hfollowed, hne⟩ := followRound_still hq'
        exact .inl ⟨hne, (bookDca_gains hq).then_still hfollowed⟩
      · split at h
        · cases h
        next exited hexited =>
          cases h
          have hcarries := p.splitLeg_carries (show min held acquired ≤
            p.acquired + fill.tokensBought by omega)
          refine .inr ⟨rfl, fun hspent hvalue => splitLeg_divides _ _ hspent hvalue, hcarries, ?_⟩
          exact keepLeg_gains hcarries.within (checkedRaw_eq_some.mp hexited).1

end Position

theorem bringBack_still {may : Bool} {p : Position} : Still p (bringBack may p) := by
  unfold bringBack
  split <;> exact .of_eq rfl rfl rfl rfl

theorem stored_still {old new : Position} : Still new (Store.stored old new) :=
  .of_eq rfl rfl rfl rfl

/-- The open row gains all that is handed to it. -/
theorem bookHandover_gains {reading : LateFillReading} {record : HandoverRecord} {may : Bool}
    {opened opened' : Position} (h : bookHandover reading record may opened = .ok opened') :
    Gains opened opened' record.handover.tokens record.handover.costNative
      (record.feesRaw.getD 0) := by
  obtain ⟨booked, hbooked, hret⟩ := bind_eq_ok.mp h
  have hret := Except.ok.inj hret
  subst hret
  refine (Position.bookDca_gains hbooked).then_still (Still.trans ?_ bringBack_still)
  split
  · exact Position.blendAverageEntryPrice_still
  · exact .of_eq rfl rfl rfl rfl

/-- The record a hand-over leaves on the open row. -/
def handoverEntry (row : Position) (reading : LateFillReading) (openRoundId : ℤ)
    (record : HandoverRecord) (signature : String) : EntryRecord where
  positionId := openRoundId
  timestamp := reading.time
  amount := record.handover.tokens
  price := handoverPrice row reading.decimals record
  nativeSpent := record.handover.costNative
  transactionSignature := signature
  isDca := true
  feesRaw := record.feesRaw

/-- A hand-over writes the open row and one record of it, under a signature new to the row. -/
theorem handOver_ok {st st' : Store} {row : Position} {reading : LateFillReading}
    {openRoundId : ℤ} {record : HandoverRecord}
    (h : handOver st row reading openRoundId record = .ok st') :
    ∃ signature opened opened', reading.signature = some signature ∧
      st.entryRecordExists openRoundId signature = false ∧
      st.rows.lookup openRoundId = some opened ∧
      bookHandover reading record (st.mayUnarchive row.mint openRoundId) opened = .ok opened' ∧
      st' = { st.writeRow openRoundId opened opened' with
        entries := st.entries ++ [handoverEntry row reading openRoundId record signature] } := by
  unfold handOver at h
  split at h
  · cases h
  next signature hsignature =>
    obtain ⟨booked, hbooked, h⟩ := bind_eq_ok.mp h
    unfold Store.bookOpenRound at hbooked
    split at hbooked
    · cases hbooked
      cases h
    next hnew =>
      rw [Bool.not_eq_true] at hnew
      split at hbooked
      · cases hbooked
      next opened hopened =>
        obtain ⟨⟨opened', entry⟩, hbook, hret⟩ := bind_eq_ok.mp hbooked
        obtain ⟨_, hopened', hpair⟩ := bind_eq_ok.mp hbook
        cases hpair
        cases hret
        cases h
        refine ⟨signature, opened, opened', hsignature, hnew, hopened, hopened', ?_⟩
        have hnew' : (st.writeRow openRoundId opened opened').entryRecordExists openRoundId
          signature = false := hnew
        rw [Store.insertEntryRecord, hnew', if_neg Bool.false_ne_true]
        rfl

/-- The open row beside a closed one is another row of its mint. -/
theorem openRoundBeside_ok {st : Store} {mint : String} {excluded openRoundId : ℤ}
    (h : st.openRoundBeside mint excluded = some openRoundId) :
    openRoundId ≠ excluded ∧ ∃ opened, st.rows.lookup openRoundId = some opened ∧
      opened.mint = mint ∧ opened.exitTime = none := by
  obtain ⟨⟨id, opened⟩, hhead, rfl⟩ := Option.map_eq_some_iff.mp h
  have hmem := (mem_sortBy _ _ _).mp (List.mem_of_mem_head? (Option.mem_def.mpr hhead))
  obtain ⟨hrow, hkeep⟩ := List.mem_filter.mp hmem
  obtain ⟨e, he, hpair⟩ := List.mem_map.mp hrow
  cases hpair
  simp only [Bool.and_eq_true, beq_iff_eq, bne_iff_ne, Option.isNone_iff_eq_none] at hkeep
  exact ⟨hkeep.1.2, e.2, AList.mem_lookup_iff.mpr he, hkeep.1.1, hkeep.2⟩

/-- A late sale or entry moves at most what its closed row holds, to the open row of the
mint. -/
theorem lateFill_ok {st st' : Store} {positionId : ℤ} {row row' : Position}
    {reading : LateFillReading} {afterWriteOff recorded : Bool} {late : LateFill}
    (hclosed : row.isClosed = true)
    (h : lateFill st positionId row reading afterWriteOff recorded = .ok (row', st', late)) :
    (late.handedTo = none ∧ st' = st ∧ Still row row') ∨
      ∃ openRoundId record, late.handedTo = some openRoundId ∧
        st.openRoundBeside row.mint positionId = some openRoundId ∧ record.feesRaw = none ∧
        row.Carries record.handover.tokens record.handover.costNative ∧
        Gains row row' (-record.handover.tokens) (-record.handover.costNative) 0 ∧
        handOver st row' reading openRoundId record = .ok st' := by
  obtain ⟨held, -, h⟩ := bind_eq_ok.mp h
  split at h
  · obtain ⟨⟨q, follow⟩, hq, hret⟩ := bind_eq_ok.mp h
    cases hret
    exact .inl ⟨rfl, rfl, (Position.followRound_still hq).1⟩
  next openRoundId hopen =>
    obtain ⟨⟨q, follow, handover⟩, hq, h⟩ := bind_eq_ok.mp h
    rcases Position.handOverRound_gains hclosed hq with
      ⟨rfl, -, hgains⟩ | ⟨handed, rfl, -, hcarries, hgains⟩
    · cases h
      exact .inl ⟨rfl, rfl, hgains⟩
    · obtain ⟨moved, hmoved, hret⟩ := bind_eq_ok.mp h
      cases hret
      exact .inr ⟨openRoundId, ⟨handed, none, none⟩, rfl, hopen, rfl, hcarries, hgains, hmoved⟩

/-- A late add stays whole on its closed row, or is split with the open row of the mint. -/
theorem lateDca_ok {st st' : Store} {positionId : ℤ} {row row' : Position}
    {reading : LateFillReading} {afterWriteOff : Bool} {fill : DcaFill} {price : ℚ}
    {late : LateFill} {kept : KeptLeg} (hclosed : row.isClosed = true)
    (h : lateDca st positionId row reading afterWriteOff fill price =
      .ok (row', st', late, kept)) :
    (late.handedTo = none ∧ st' = st ∧ kept = ⟨⟨fill.tokensBought, fill.nativeSpent⟩, fill.feeRaw⟩ ∧
      Gains row row' fill.tokensBought fill.nativeSpent fill.feeRaw) ∨
      ∃ openRoundId record, ∃ split : LegSplit, late.handedTo = some openRoundId ∧
        st.openRoundBeside row.mint positionId = some openRoundId ∧
        split.OfValue fill ∧
        row.Carries split.handedEarlier.tokens split.handedEarlier.costNative ∧
        kept = ⟨split.kept, split.keptFeeRaw⟩ ∧ record.feesRaw = some split.handedFeeRaw ∧
        record.handover.tokens = split.handedLeg.tokens + split.handedEarlier.tokens ∧
        record.handover.costNative =
          Binary64.add split.handedLeg.costNative split.handedEarlier.costNative ∧
        Gains row row' (split.kept.tokens - split.handedEarlier.tokens)
          (Binary64.sub split.kept.costNative split.handedEarlier.costNative) split.keptFeeRaw ∧
        handOver st row' reading openRoundId record = .ok st' := by
  obtain ⟨held, -, h⟩ := bind_eq_ok.mp h
  split at h
  · obtain ⟨booked, hbooked, h⟩ := bind_eq_ok.mp h
    obtain ⟨⟨q, follow⟩, hq, hret⟩ := bind_eq_ok.mp h
    cases hret
    have hgains := (Position.bookDca_gains hbooked).then_still (Position.followRound_still hq).1
    exact .inl ⟨rfl, rfl, rfl, hgains⟩
  next openRoundId hopen =>
    obtain ⟨⟨q, follow, split⟩, hq, h⟩ := bind_eq_ok.mp h
    rcases Position.handOverLeg_gains hclosed hq with
      ⟨hfollow, hgains⟩ | ⟨rfl, hdivides, hcarries, hgains⟩
    · dsimp only at h
      rw [if_pos hfollow] at h
      cases h
      exact .inl ⟨rfl, rfl, rfl, hgains⟩
    · dsimp only at h
      rw [if_neg (not_not.mpr rfl)] at h
      split at h
      · cases h
      next handover hhanded =>
        obtain ⟨moved, hmoved, hret⟩ := bind_eq_ok.mp h
        cases hret
        obtain ⟨tokens, htokens, rfl⟩ := Option.map_eq_some_iff.mp hhanded
        have htokens := (checkedRaw_eq_some.mp htokens).1
        exact .inr ⟨openRoundId, _, split, rfl, hopen, hdivides, hcarries, rfl, rfl,
          htokens.symm, rfl, hgains, hmoved⟩

end ScreenerBot.Positions
