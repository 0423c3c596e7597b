import ScreenerBot.Positions.Idempotence

/-! The entry records of a buy, over a run of deliveries. -/
namespace ScreenerBot.Positions
open Library

/-- The entry records under a signature, of whatever position. -/
def recordsOf (st : Store) (signature : String) : List EntryRecord :=
  st.entries.filter (·.transactionSignature == signature)

/-- Records sum to the tokens, the cost and the fee. -/
structure SumTo (records : List EntryRecord) (tokens : ℕ) (cost : ℚ) (feeRaw : ℕ) : Prop where
  tokens : (records.map (·.amount)).sum = tokens
  cost : (records.map (·.nativeSpent)).sum = cost
  fees : (records.map (·.feesRaw.getD 0)).sum = feeRaw

theorem SumTo.one (r : EntryRecord) : SumTo [r] r.amount r.nativeSpent (r.feesRaw.getD 0) := by
  constructor <;> simp

theorem SumTo.two (r q : EntryRecord) : SumTo [r, q] (r.amount + q.amount)
    (r.nativeSpent + q.nativeSpent) (r.feesRaw.getD 0 + q.feesRaw.getD 0) := by
  constructor <;> simp

theorem recordsOf_append {st st' : Store} {new : List EntryRecord} (signature : String)
    (h : st'.entries = st.entries ++ new) : recordsOf st' signature =
      recordsOf st signature ++ new.filter (·.transactionSignature == signature) := by
  rw [recordsOf, h, List.filter_append]
  rfl

/-- A delivery of another swap leaves the records of a signature alone. -/
theorem recordsOf_grows {st st' : Store} {signer : Option String} {signature : String}
    (h : Grows st st' signer) (hne : signer ≠ some signature) :
    recordsOf st' signature = recordsOf st signature := by
  obtain ⟨new, hnew, hsigned⟩ := h.entries
  have hnone : new.filter (·.transactionSignature == signature) = [] := by
    refine List.filter_eq_nil_iff.mpr fun r hr hsame => hne ?_
    rw [← hsigned r hr, beq_iff_eq.mp hsame]
  rw [recordsOf_append signature hnew, hnone, List.append_nil]

/-- Without records of the signature, no position has one. -/
theorem entryRecordExists_of_none {st : Store} {signature : String}
    (h : recordsOf st signature = []) (positionId : ℤ) :
    st.entryRecordExists positionId signature = false := by
  rw [Bool.eq_false_iff]
  intro hexists
  obtain ⟨r, hr, -, hsignature⟩ := entryRecordExists_iff.mp hexists
  exact (List.filter_eq_nil_iff.mp h) r hr (beq_iff_eq.mpr hsignature)

/-- A committed record new to its position joins the records of its signature. -/
theorem recordsOf_commit {booked st' : Store} {positionId : ℤ} {old row : Position}
    {r : EntryRecord}
    (hnew : booked.entryRecordExists r.positionId r.transactionSignature = false)
    (hst' : st' = (some (BookingRecord.entry r)).elim (booked.writeRow positionId old row)
      (booked.writeRow positionId old row).insertRecord) :
    recordsOf st' r.transactionSignature = recordsOf booked r.transactionSignature ++ [r] := by
  have hentries : st'.entries = booked.entries ++ [r] := by
    rw [hst']
    change (Store.insertEntryRecord _ r).entries = _
    unfold Store.insertEntryRecord
    rw [show (booked.writeRow positionId old row).entryRecordExists r.positionId
      r.transactionSignature = false from hnew, if_neg Bool.false_ne_true]
    rfl
  rw [recordsOf_append _ hentries, List.filter_singleton, beq_self_eq_true]
  rfl

/-- The records of a whole add, or of a split one with the earlier tokens that went along. -/
def AddRecorded (st st' : Store) (positionId : ℤ) (row : Position) (fill : DcaFill)
    (records : List EntryRecord) : Prop :=
  (SumTo records fill.tokensBought fill.nativeSpent fill.feeRaw ∧
    RowGains st st' positionId fill.tokensBought fill.nativeSpent fill.feeRaw) ∨
  ∃ (split : LegSplit) (openRoundId : ℤ), split.Divides fill ∧
    row.Carries split.handedEarlier.tokens split.handedEarlier.costNative ∧
    st.openRoundBeside row.mint positionId = some openRoundId ∧
    RowGains st st' positionId (split.kept.tokens - split.handedEarlier.tokens)
      (Binary64.sub split.kept.costNative split.handedEarlier.costNative) split.keptFeeRaw ∧
    SumTo records (fill.tokensBought + split.handedEarlier.tokens)
      (split.kept.costNative +
        Binary64.add split.handedLeg.costNative split.handedEarlier.costNative) fill.feeRaw

theorem feeRaw_mul_fits {fill : DcaFill} (htokens : fill.tokensBought ≤ u64Max)
    (hfee : fill.feeRaw ≤ u64Max) : fill.feeRaw * fill.tokensBought ≤ u128Max := by
  calc fill.feeRaw * fill.tokensBought ≤ u64Max * u64Max := Nat.mul_le_mul hfee htokens
    _ ≤ u128Max := by decide

/-- The records a split add leaves: the kept part on its row, the rest on the open row. -/
theorem split_recorded {booked st' : Store} {positionId : ℤ} {old row : Position} {fill : DcaFill}
    {price : ℚ} {signature : String} {split : LegSplit} {handed : EntryRecord}
    (hbought : 0 < fill.tokensBought) (hfits : fill.feeRaw * fill.tokensBought ≤ u128Max)
    (hdivides : split.Divides fill)
    (htokens : handed.amount = split.handedLeg.tokens + split.handedEarlier.tokens)
    (hcost : handed.nativeSpent =
      Binary64.add split.handedLeg.costNative split.handedEarlier.costNative)
    (hfees : handed.feesRaw = some split.handedFeeRaw)
    (hbooked : recordsOf booked signature = [handed])
    (hnew : booked.entryRecordExists positionId signature = false)
    (hst' : st' = (addRecord positionId fill price signature ⟨split.kept, split.keptFeeRaw⟩).elim
      (booked.writeRow positionId old row) (booked.writeRow positionId old row).insertRecord) :
    SumTo (recordsOf st' signature) (fill.tokensBought + split.handedEarlier.tokens)
      (split.kept.costNative +
        Binary64.add split.handedLeg.costNative split.handedEarlier.costNative) fill.feeRaw := by
  have hsplit := hdivides.tokens
  have hfee := hdivides.fees
  by_cases hkept : 0 < split.kept.tokens
  · rw [addRecord, if_pos hkept] at hst'
    have hrecords := recordsOf_commit (r := addEntry positionId fill price signature
      ⟨split.kept, split.keptFeeRaw⟩) hnew hst'
    change recordsOf st' signature = recordsOf booked signature ++ _ at hrecords
    rw [hrecords, hbooked]
    have hsum := SumTo.two handed (addEntry positionId fill price signature
      ⟨split.kept, split.keptFeeRaw⟩)
    refine ⟨hsum.tokens.trans ?_, hsum.cost.trans ?_, hsum.fees.trans ?_⟩
    · change handed.amount + split.kept.tokens = _
      omega
    · change handed.nativeSpent + split.kept.costNative = _
      rw [hcost, add_comm]
    · rw [hfees]
      change split.handedFeeRaw + split.keptFeeRaw = _
      omega
  · rw [addRecord, if_neg hkept] at hst'
    obtain ⟨hnothing, hnofee⟩ := hdivides.nothingKept hbought hfits (by omega)
    have hrecords : recordsOf st' signature = [handed] := by rw [← hbooked, hst']; rfl
    rw [hrecords]
    have hsum := SumTo.one handed
    refine ⟨hsum.tokens.trans ?_, hsum.cost.trans ?_, hsum.fees.trans ?_⟩
    · rw [htokens]
      omega
    · rw [hcost, hnothing, zero_add]
    · rw [hfees, Option.getD_some]
      omega

/-- The records of a booked add sum to it and to the earlier tokens that went along. -/
theorem dcaVerified_recorded {st : Store} {readings : Readings} {positionId : ℤ} {fill : DcaFill}
    {price : ℚ} {signature : String} {heldAfter : Option ℕ}
    (hverified : (Transition.dcaVerified positionId fill price signature heldAfter).Verified)
    (hvalue : Representable fill.nativeSpent) (hnone : recordsOf st signature = [])
    (h : books st ⟨.dcaVerified positionId fill price signature heldAfter, readings⟩ = true) :
    ∃ row, st.rows.lookup positionId = some row ∧ AddRecorded st
      (deliver st ⟨.dcaVerified positionId fill price signature heldAfter, readings⟩) positionId row
      fill (recordsOf (deliver st
        ⟨.dcaVerified positionId fill price signature heldAfter, readings⟩)
        signature) := by
  obtain ⟨hbought, htokens, hspent, hfee⟩ := hverified
  have hfits := feeRaw_mul_fits htokens hfee
  obtain ⟨row', late, h⟩ := books_ok h
  generalize deliver st ⟨.dcaVerified positionId fill price signature heldAfter, readings⟩ = st'
    at h ⊢
  obtain ⟨old, booked, record, hold, hbook, hst'⟩ := commitBooking_ok h
  have hrows := committed_rows hst'
  refine ⟨old, hold, ?_⟩
  -- a whole add is one record on its own row
  have hwhole (kept : KeptLeg) (hkept : kept = fill.whole) (hstore : booked = st)
      (hrecord : record = addRecord positionId fill price signature kept) :
      SumTo (recordsOf st' signature) fill.tokensBought fill.nativeSpent fill.feeRaw := by
    subst hkept hstore
    rw [hrecord, addRecord, if_pos (show 0 < fill.whole.leg.tokens from hbought)] at hst'
    have hrecords := recordsOf_commit (r := addEntry positionId fill price signature fill.whole)
      (entryRecordExists_of_none hnone positionId) hst'
    change recordsOf st' signature = recordsOf booked signature ++ _ at hrecords
    rw [hrecords, hnone, List.nil_append]
    exact SumTo.one _
  obtain ⟨-, ⟨-, hstore, -, hrecord, bought, hbought', rfl⟩ | ⟨hclosed, -⟩⟩ :=
    bookDcaVerified_ok hbook
  · refine .inl ⟨hwhole _ rfl hstore hrecord, ?_⟩
    have hgains := Position.bookDca_gains hbought'
    exact committed_gains hrows hold
      ((hgains.then_still bringBack_still).then_still blendBooked_still)
  obtain ⟨filled, late', kept, hlate, hfilled, hrecord⟩ := bookDcaVerified_closed hclosed hbook
  rcases lateDca_ok hclosed hlate with ⟨-, hstore, hkept, hgains⟩ |
    ⟨openRoundId, handed, split, -, hopen, hof, hcarries, hkept, hfees, hamount, hcost, hgains,
      hmoved⟩
  · exact .inl ⟨hwhole kept hkept hstore hrecord,
      committed_gains hrows hold (hgains.then_still hfilled)⟩
  · have hdivides := hof hspent.le hvalue
    obtain ⟨signature', _, _, hsignature, -, -, -, hbooked⟩ := handOver_ok hmoved
    cases hsignature
    have hrecords : recordsOf booked signature = [handoverEntry filled ⟨heldAfter,
        readings.otherSwapInFlight, some signature, fill.dcaTime, readings.decimals⟩ openRoundId
        handed signature] := by
      rw [recordsOf_append signature (by rw [hbooked]), hnone, List.filter_singleton]
      simp [handoverEntry]
    have hnew : booked.entryRecordExists positionId signature = false := by
      have hst := entryRecordExists_of_none hnone positionId
      unfold Store.entryRecordExists at hst ⊢
      rw [hbooked, List.any_append, hst, Bool.false_or]
      simp [handoverEntry, (openRoundBeside_ok hopen).1]
    refine .inr ⟨split, openRoundId, hdivides, hcarries, hopen,
      committed_gains hrows hold (hgains.then_still hfilled), ?_⟩
    subst hkept
    exact split_recorded hbought hfits hdivides hamount hcost hfees hrecords hnew (hrecord ▸ hst')

/-- An entry that hands nothing over leaves one record, of the whole fill. -/
theorem entryVerified_recorded {st : Store} {readings : Readings} {positionId : ℤ}
    {fill : EntryFill} {signature : String} {heldAfter : Option ℕ}
    (hsignature : (Transition.entryVerified positionId fill heldAfter).signature st =
      some signature)
    (hnone : recordsOf st signature = [])
    (hkept : handedTo st ⟨.entryVerified positionId fill heldAfter, readings⟩ = none)
    (h : books st ⟨.entryVerified positionId fill heldAfter, readings⟩ = true) :
    SumTo (recordsOf (deliver st ⟨.entryVerified positionId fill heldAfter, readings⟩) signature)
      fill.tokenAmount fill.nativeSize fill.feeRaw := by
  obtain ⟨row', late, h⟩ := books_ok h
  unfold handedTo at hkept
  rw [h] at hkept
  generalize deliver st ⟨.entryVerified positionId fill heldAfter, readings⟩ = st' at h ⊢
  obtain ⟨old, booked, record, hold, hbook, hst'⟩ := commitBooking_ok h
  have hsigned : old.entryTransactionSignature = some signature := by
    rwa [Transition.signature, show st.rows.lookup positionId = some old from hold,
      Option.bind_some] at hsignature
  obtain ⟨-, hrecord, hrow⟩ := bookEntryVerified_ok hbook
  have hstore : booked = st := by
    rcases hrow with ⟨-, -, hstore, -⟩ | ⟨hclosed, filled, late', hlate, -, rfl⟩
    · exact hstore
    rcases lateFill_ok (show (old.applyEntryFill fill).isClosed = true from hclosed) hlate with
      ⟨-, hstore, -⟩ | ⟨openRoundId, _, hto, -⟩
    · exact hstore
    · change (bringBackReopened booked filled late').2.handedTo = none at hkept
      rw [bringBackReopened_handedTo, hto] at hkept
      cases hkept
  subst hstore
  rw [hrecord, hsigned, Option.map_some] at hst'
  have hrecords := recordsOf_commit (r := boughtEntry positionId old fill signature)
    (entryRecordExists_of_none hnone positionId) hst'
  change recordsOf st' signature = recordsOf booked signature ++ _ at hrecords
  rw [hrecords, hnone, List.nil_append]
  exact SumTo.one _

/-- The records of a booked buy are what it filled, together with the earlier tokens that went
along when it was handed over. Nothing is said here of an entry that was handed over. -/
def BuyRecorded (st : Store) (d : Delivery) (records : List EntryRecord) : Prop :=
  match d.transition with
  | .dcaVerified positionId fill _ _ _ => ∃ row, st.rows.lookup positionId = some row ∧
    AddRecorded st (deliver st d) positionId row fill records
  | .entryVerified _ fill _ =>
    handedTo st d = none → SumTo records fill.tokenAmount fill.nativeSize fill.feeRaw
  | _ => True

/-- The cost an add was verified at is an `f64`. -/
def Transition.Valued : Transition → Prop
  | dcaVerified _ fill _ _ _ => Representable fill.nativeSpent
  | _ => True

theorem buyRecorded_deliver {st : Store} {d : Delivery} {signature : String}
    (hverified : d.transition.Verified) (hvalue : d.transition.Valued)
    (hsignature : d.transition.signature st = some signature)
    (hnone : recordsOf st signature = []) (h : books st d = true) :
    BuyRecorded st d (recordsOf (deliver st d) signature) := by
  obtain ⟨t, readings⟩ := d
  cases t with
  | dcaVerified positionId fill price dcaSignature heldAfter =>
    cases hsignature
    exact dcaVerified_recorded hverified hvalue hnone h
  | entryVerified => exact fun hkept => entryVerified_recorded hsignature hnone hkept h
  | exitVerified => trivial
  | partialExitVerified => trivial

/-- Until a swap is booked there is no record of the signature that names it alone. -/
theorem unrecorded_or_settled {st : Store} {ds : List Delivery} {signature : String} {swap : Swap}
    (hverified : ∀ p ∈ visited deliver st ds, p.2.transition.Verified)
    (hnames : ∀ p ∈ visited deliver st ds, p.2.transition.signature p.1 = some signature →
      p.2.transition.swap = swap) (hfresh : recordsOf st signature = []) :
    recordsOf (ds.foldl deliver st) signature = [] ∨ Settled (ds.foldl deliver st) swap := by
  refine run_invariant deliver (fun s => recordsOf s signature = [] ∨ Settled s swap) ds st
    (.inl hfresh) fun p hp h => ?_
  have hgrows := deliver_grows p.1 p.2
  rcases h with hnone | hsettled
  · by_cases hsigned : p.2.transition.signature p.1 = some signature
    · cases hbooks : books p.1 p.2 with
      | true => exact .inr (hnames p hp hsigned ▸ settled_of_books (hverified p hp) hbooks)
      | false =>
        rw [deliver_eq_self hbooks]
        exact .inl hnone
    · exact .inl ((recordsOf_grows hgrows hsigned).trans hnone)
  · exact .inr (settled_grows hgrows hsettled)

/-- Once a swap is settled the records of the signature that names it alone stay as they are. -/
theorem records_settled {st : Store} {ds : List Delivery} {signature : String} {swap : Swap}
    (hnames : ∀ p ∈ visited deliver st ds, p.2.transition.signature p.1 = some signature →
      p.2.transition.swap = swap) (hsettled : Settled st swap) :
    recordsOf (ds.foldl deliver st) signature = recordsOf st signature := by
  refine (run_invariant deliver
    (fun s => Settled s swap ∧ recordsOf s signature = recordsOf st signature) ds st
    ⟨hsettled, rfl⟩ fun p hp ⟨hs, hsame⟩ => ?_).2
  have hgrows := deliver_grows p.1 p.2
  refine ⟨settled_grows hgrows hs, ?_⟩
  by_cases hsigned : p.2.transition.signature p.1 = some signature
  · have hbooks : books p.1 p.2 = false := books_settled ((hnames p hp hsigned).symm ▸ hs)
    rw [deliver_eq_self hbooks, hsame]
  · rw [recordsOf_grows hgrows hsigned, hsame]

/-- At the end of a run the records under a buy's signature are those of its one booking. -/
theorem buy_recorded {st : Store} {ds : List Delivery} {p : Store × Delivery} {signature : String}
    (hverified : ∀ d ∈ ds, d.transition.Verified) (hp : p ∈ visited deliver st ds)
    (hvalue : p.2.transition.Valued) (hbooks : books p.1 p.2 = true)
    (hsignature : p.2.transition.signature p.1 = some signature)
    (hfresh : recordsOf st signature = [])
    (hnames : ∀ q ∈ visited deliver st ds, q.2.transition.signature q.1 = some signature →
      q.2.transition.swap = p.2.transition.swap) :
    BuyRecorded p.1 p.2 (recordsOf (ds.foldl deliver st) signature) := by
  have hvisited (q) (hq : q ∈ visited deliver st ds) : q.2.transition.Verified := by
    obtain ⟨before, after, hds, -⟩ := visited_split deliver ds st q hq
    exact hverified q.2 (by rw [hds]; simp)
  obtain ⟨before, after, hds, hstate⟩ := visited_split deliver ds st p hp
  have hsteps : visited deliver st ds =
      visited deliver st before ++ p :: visited deliver (deliver p.1 p.2) after := by
    rw [hds, visited_append, ← hstate]
    rfl
  rw [hsteps] at hvisited hnames
  have hnone : recordsOf p.1 signature = [] := by
    rw [hstate]
    refine (unrecorded_or_settled (fun q hq => hvisited q (List.mem_append_left _ hq))
      (fun q hq => hnames q (List.mem_append_left _ hq)) hfresh).resolve_right fun hsettled => ?_
    rw [← hstate] at hsettled
    rw [books_settled hsettled] at hbooks
    cases hbooks
  have hrecorded := buyRecorded_deliver (hverified p.2 (by rw [hds]; simp)) hvalue hsignature hnone
    hbooks
  have hsettled := settled_of_books (hverified p.2 (by rw [hds]; simp)) hbooks
  have hafter := records_settled
    (fun q hq => hnames q (List.mem_append_right _ (List.mem_cons_of_mem p hq))) hsettled
  rwa [hds, List.foldl_append, List.foldl_cons, ← hstate, hafter]

theorem buy_recorded_redelivered : BuyRecorded besideOpen lateAddDelivery
    (recordsOf ([lateAddDelivery, sale, lateAddDelivery].foldl deliver besideOpen) "late-buy") :=
  buy_recorded (p := (besideOpen, lateAddDelivery))
    (by
      intro d hd
      fin_cases hd
      · exact ⟨by decide, by decide, by decide +kernel, by decide⟩
      · trivial
      · exact ⟨by decide, by decide, by decide +kernel, by decide⟩)
    List.mem_cons_self ⟨1, -1, by norm_num [lateAdd], by norm_num, by norm_num⟩
    (by decide +kernel) rfl rfl (by decide +kernel)

/-- The open row's record of a handed-over buy also carries the earlier tokens. -/
theorem handed_record_carries_earlier : books besideOpen lateAddDelivery = true ∧
    ¬ SumTo (recordsOf (deliver besideOpen lateAddDelivery) "late-buy") lateAdd.tokensBought
      lateAdd.nativeSpent lateAdd.feeRaw := by
  refine ⟨by decide +kernel, fun h => ?_⟩
  have htokens := h.tokens
  revert htokens
  decide +kernel

end ScreenerBot.Positions
