import ScreenerBot.Ledger.Lifecycle
import ScreenerBot.Library.Movements

/-! What `history_complete` promises: the exact account of the deltas a round folded. -/
namespace ScreenerBot.Ledger
open Library

/-- The raw side of a round. -/
structure Books where
  balance : ℤ
  acquired : ℤ
  disposed : ℤ
  complete : Bool
  movements : List (LedgerEventKind × ℕ)

namespace Round

def books (r : Round) : Books :=
  ⟨r.balance, r.totalAcquired, r.totalDisposed, r.historyComplete,
    r.events.map fun e => (e.kind, e.amountRaw)⟩

@[simp] theorem learnDecimals_books (r : Round) (d : SubjectAssetDelta) :
    (r.learnDecimals d).books = r.books := by unfold learnDecimals; split <;> rfl

@[simp] theorem countEntry_books (r : Round) (traded : Bool) :
    (r.countEntry traded).books = r.books := by unfold countEntry; split <;> rfl

@[simp] theorem countExit_books (r : Round) (traded : Bool) :
    (r.countExit traded).books = r.books := by unfold countExit; split <;> rfl

@[simp] theorem stampEntry_books (r : Round) (d : SubjectAssetDelta) (kind : LedgerEventKind)
    (before : ℤ) : (r.stampEntry d kind before).books = r.books := rfl

@[simp] theorem stampExit_books (r : Round) (d : SubjectAssetDelta) (closing traded : Bool) :
    (r.stampExit d closing traded).books = r.books := rfl

@[simp] theorem clearWhen_books (r : Round) (closing : Bool) :
    (r.clearWhen closing).books = r.books := rfl

@[simp] theorem acceptQuote_books (r : Round) (leg : QuoteLeg) :
    (r.acceptQuote leg).1.books = r.books := by
  have hsol (r' : Round) : (r'.acceptSol leg).1.books = r'.books := by
    unfold acceptSol; split <;> rfl
  unfold acceptQuote
  split
  · split
    · rfl
    · exact hsol r
  · exact hsol _

@[simp] theorem priceAcquisition_books (r : Round) (quote : Option QuoteLeg) (traded : Bool)
    (amount : ℚ) (after : ℤ) :
    (r.priceAcquisition quote traded amount after).1.books = r.books := by
  unfold priceAcquisition
  split
  next leg =>
    dsimp only
    split <;> exact acceptQuote_books r leg
  next => split <;> rfl

@[simp] theorem priceDisposal_books (r : Round) (quote : Option QuoteLeg) (traded : Bool)
    (amount allocatedBasis : ℚ) :
    (r.priceDisposal quote traded amount allocatedBasis).1.books = r.books := by
  unfold priceDisposal
  split
  · split
    · split <;> rfl
    · rfl
  · rfl

/-- A round still complete after meeting the chain's balance already stood at it. -/
theorem reconcileBefore_complete {r : Round} {d : SubjectAssetDelta} :
    (r.reconcileBefore d).historyComplete = true ↔
      r.historyComplete = true ∧ d.before = some r.balance := by
  unfold reconcileBefore
  cases hb : d.before with
  | none => simp [markHole]
  | some before =>
    by_cases h : before = r.balance <;> simp [markHole, h]

theorem reconcileBefore_of_before {r : Round} {d : SubjectAssetDelta}
    (h : d.before = some r.balance) : r.reconcileBefore d = r := by
  simp [reconcileBefore, h]

/-- The counts one movement makes, when `i128` holds them all. -/
def representable (r : Round) (d : SubjectAssetDelta) : Prop :=
  (checkedI128 (r.balance + d.deltaRaw)).isSome ∧ (checkedI128 (-d.deltaRaw)).isSome ∧
    if 0 < d.deltaRaw then (checkedI128 (r.totalAcquired + d.deltaRaw)).isSome = true
    else 0 < r.balance ∧ (checkedI128 (r.totalDisposed + disposedRaw d r.balance)).isSome = true

theorem addAcquired_complete {r : Round} {amountRaw : ℤ} :
    (r.addAcquired amountRaw).historyComplete = true ↔
      r.historyComplete = true ∧ (checkedI128 (r.totalAcquired + amountRaw)).isSome := by
  unfold addAcquired
  cases checkedI128 (r.totalAcquired + amountRaw) <;> simp [markHole]

theorem addDisposed_complete {r : Round} {amountRaw : ℤ} :
    (r.addDisposed amountRaw).historyComplete = true ↔
      r.historyComplete = true ∧ (checkedI128 (r.totalDisposed + amountRaw)).isSome := by
  unfold addDisposed
  cases checkedI128 (r.totalDisposed + amountRaw) <;> simp [markHole]

theorem addAcquired_books {r : Round} {amountRaw : ℤ}
    (h : (checkedI128 (r.totalAcquired + amountRaw)).isSome) :
    (r.addAcquired amountRaw).books =
      { r.books with acquired := r.totalAcquired + amountRaw } := by
  obtain ⟨total, ht⟩ := Option.isSome_iff_exists.mp h
  rw [addAcquired, ht, (checkedI128_eq_some.mp ht).1]
  rfl

theorem addDisposed_books {r : Round} {amountRaw : ℤ}
    (h : (checkedI128 (r.totalDisposed + amountRaw)).isSome) :
    (r.addDisposed amountRaw).books =
      { r.books with disposed := r.totalDisposed + amountRaw } := by
  obtain ⟨total, ht⟩ := Option.isSome_iff_exists.mp h
  rw [addDisposed, ht, (checkedI128_eq_some.mp ht).1]
  rfl

theorem historyComplete_of_books {r r' : Round} (h : r.books = r'.books) :
    r.historyComplete = r'.historyComplete := congrArg Books.complete h

theorem confirmAfter_complete {r : Round} {d : SubjectAssetDelta} {computedAfter : ℤ} :
    (r.confirmAfter d computedAfter).historyComplete = true ↔
      r.historyComplete = true ∧ d.after = some computedAfter := by
  unfold confirmAfter
  by_cases h : d.after = some computedAfter <;> simp [h, markHole]

theorem confirmAfter_of_after {r : Round} {d : SubjectAssetDelta} {computedAfter : ℤ}
    (h : d.after = some computedAfter) : r.confirmAfter d computedAfter = r := by
  simp [confirmAfter, h]

theorem releaseBasis_complete {r : Round} {amountRaw before : ℤ} :
    (r.releaseBasis amountRaw before).1.historyComplete = true ↔
      r.historyComplete = true ∧ 0 < before := by
  unfold releaseBasis
  by_cases h : 0 < before <;> simp [h, markHole]

theorem releaseBasis_books {r : Round} {amountRaw before : ℤ} (h : 0 < before) :
    (r.releaseBasis amountRaw before).1.books = r.books := by
  simp [releaseBasis, h, books]

@[simp] theorem record_books (r : Round) (d : SubjectAssetDelta) (kind : LedgerEventKind)
    (amountRaw after : ℤ) (quote : Option QuoteLeg) (priceNative : Option ℚ) :
    (r.record d kind amountRaw after quote priceNative).books =
      { r.books with movements := r.books.movements ++ [(kind, amountRaw.natAbs)] } := by
  simp [record, books]

theorem applyAcquisition_stages (r : Round) (group : List SubjectAssetDelta)
    (d : SubjectAssetDelta) (before after : ℤ) :
    (r.applyAcquisition group d before after).books =
      let added := ((r.countEntry (d.kind == .trade)).addAcquired d.deltaRaw).books
      { added with
        movements := added.movements ++ [(acquisitionKind d before, d.deltaRaw.natAbs)] } := by
  simp only [applyAcquisition, record_books, priceAcquisition_books, stampEntry_books]

theorem applyAcquisition_complete {r : Round} {group : List SubjectAssetDelta}
    {d : SubjectAssetDelta} {before after : ℤ} :
    (r.applyAcquisition group d before after).historyComplete = true ↔
      r.historyComplete = true ∧ (checkedI128 (r.totalAcquired + d.deltaRaw)).isSome := by
  have hcount := countEntry_books r (d.kind == .trade)
  have hstages := congrArg Books.complete (applyAcquisition_stages r group d before after)
  calc (r.applyAcquisition group d before after).historyComplete = true
    _ ↔ ((r.countEntry (d.kind == .trade)).addAcquired d.deltaRaw).historyComplete = true :=
      iff_of_eq (congrArg (· = true) hstages)
    _ ↔ _ := addAcquired_complete
    _ ↔ _ := by
      rw [historyComplete_of_books hcount, show (r.countEntry (d.kind == .trade)).totalAcquired =
        r.totalAcquired from congrArg Books.acquired hcount]

theorem applyAcquisition_books {r : Round} {group : List SubjectAssetDelta}
    {d : SubjectAssetDelta} {before after : ℤ}
    (h : (checkedI128 (r.totalAcquired + d.deltaRaw)).isSome) :
    (r.applyAcquisition group d before after).books =
      { r.books with
        acquired := r.totalAcquired + d.deltaRaw
        movements := r.books.movements ++ [(acquisitionKind d before, d.deltaRaw.natAbs)] } := by
  have hcount := countEntry_books r (d.kind == .trade)
  have hacq : (r.countEntry (d.kind == .trade)).totalAcquired = r.totalAcquired :=
    congrArg Books.acquired hcount
  rw [applyAcquisition_stages, addAcquired_books (by rwa [hacq]), hcount, hacq]

theorem applyDisposal_stages (r : Round) (group : List SubjectAssetDelta)
    (d : SubjectAssetDelta) (before after : ℤ) :
    (r.applyDisposal group d before after).books =
      let released := ((((r.countExit (d.kind == .trade)).addDisposed
        (disposedRaw d before)).stampExit
        d (decide (after ≤ 0)) (d.kind == .trade)).releaseBasis
          (disposedRaw d before) before).1.books
      { released with
        movements := released.movements ++
          [(disposalKind d after, (disposedRaw d before).natAbs)] } := by
  simp only [applyDisposal, clearWhen_books, record_books, priceDisposal_books]

theorem applyDisposal_complete {r : Round} {group : List SubjectAssetDelta}
    {d : SubjectAssetDelta} {before after : ℤ} :
    (r.applyDisposal group d before after).historyComplete = true ↔
      r.historyComplete = true ∧ 0 < before ∧
        (checkedI128 (r.totalDisposed + disposedRaw d before)).isSome := by
  have hcount := countExit_books r (d.kind == .trade)
  have hdis : (r.countExit (d.kind == .trade)).totalDisposed = r.totalDisposed :=
    congrArg Books.disposed hcount
  have hstages := congrArg Books.complete (applyDisposal_stages r group d before after)
  calc (r.applyDisposal group d before after).historyComplete = true
    _ ↔ ((((r.countExit (d.kind == .trade)).addDisposed (disposedRaw d before)).stampExit
        d (decide (after ≤ 0)) (d.kind == .trade)).releaseBasis
          (disposedRaw d before) before).1.historyComplete = true :=
      iff_of_eq (congrArg (· = true) hstages)
    _ ↔ ((r.countExit (d.kind == .trade)).addDisposed (disposedRaw d before)).historyComplete =
      true ∧
        0 < before := releaseBasis_complete
    _ ↔ _ := by
      rw [addDisposed_complete, historyComplete_of_books hcount, hdis]
      tauto

theorem applyDisposal_books {r : Round} {group : List SubjectAssetDelta}
    {d : SubjectAssetDelta} {before after : ℤ} (hbefore : 0 < before)
    (h : (checkedI128 (r.totalDisposed + disposedRaw d before)).isSome) :
    (r.applyDisposal group d before after).books =
      { r.books with
        disposed := r.totalDisposed + disposedRaw d before
        movements := r.books.movements ++
          [(disposalKind d after, (disposedRaw d before).natAbs)] } := by
  have hcount := countExit_books r (d.kind == .trade)
  have hdis : (r.countExit (d.kind == .trade)).totalDisposed = r.totalDisposed :=
    congrArg Books.disposed hcount
  rw [applyDisposal_stages, releaseBasis_books hbefore, stampExit_books,
    addDisposed_books (by rwa [hdis]), hcount, hdis]

theorem acquisitionKind_isAcquisition (d : SubjectAssetDelta) (before : ℤ) :
    (acquisitionKind d before).isAcquisition = true := by
  unfold acquisitionKind
  split
  · split <;> rfl
  · rfl

theorem disposalKind_isAcquisition (d : SubjectAssetDelta) (after : ℤ) :
    (disposalKind d after).isAcquisition = false := by
  unfold disposalKind
  split
  · split <;> rfl
  · rfl

/-- What one movement does to the books of a round that stays complete. -/
def movedBooks (r : Round) (d : SubjectAssetDelta) : Books :=
  let after := max (r.balance + d.deltaRaw) 0
  if 0 < d.deltaRaw then
    { r.books with
      balance := after
      acquired := r.totalAcquired + d.deltaRaw
      movements := r.books.movements ++ [(acquisitionKind d r.balance, d.deltaRaw.natAbs)] }
  else
    { r.books with
      balance := after
      disposed := r.totalDisposed + disposedRaw d r.balance
      movements := r.books.movements ++
        [(disposalKind d after, (disposedRaw d r.balance).natAbs)] }

theorem before_nonneg {d : SubjectAssetDelta} {x : ℤ} (h : d.before = some x) : 0 ≤ x := by
  obtain ⟨raw, -, hx⟩ := Option.bind_eq_some_iff.mp h
  have := (i128OfRaw_eq_some.mp hx).1
  omega

theorem move_complete {r : Round} {group : List SubjectAssetDelta} {d : SubjectAssetDelta}
    {before after : ℤ} :
    (r.move group d before after).historyComplete = true ↔ r.historyComplete = true ∧
      if 0 < d.deltaRaw then (checkedI128 (r.totalAcquired + d.deltaRaw)).isSome = true
      else 0 < before ∧ (checkedI128 (r.totalDisposed + disposedRaw d before)).isSome = true := by
  unfold move
  split
  · exact applyAcquisition_complete
  · exact applyDisposal_complete

/-- The history a delta leaves complete was complete where the chain says it started. -/
theorem apply_complete_before {r : Round} {group : List SubjectAssetDelta} {d : SubjectAssetDelta}
    (h : (r.apply group d).historyComplete = true) :
    r.historyComplete = true ∧ d.before = some r.balance := by
  have hlearn := learnDecimals_books r d
  have hr : ((r.learnDecimals d).reconcileBefore d).historyComplete = true := by
    unfold apply at h
    dsimp only at h
    split at h
    next => exact (confirmAfter_complete.mp (move_complete.mp h).1).1
    next => cases h
  obtain ⟨hc, hb⟩ := reconcileBefore_complete.mp hr
  exact ⟨(historyComplete_of_books hlearn).symm.trans hc,
    hb.trans (congrArg some (congrArg Books.balance hlearn))⟩

/-- A delta that starts where the round stands needs no reconciling. -/
theorem apply_of_before {r : Round} {group : List SubjectAssetDelta} {d : SubjectAssetDelta}
    (hb : d.before = some r.balance) :
    r.apply group d =
      match checkedI128 (r.balance + d.deltaRaw), checkedI128 (-d.deltaRaw) with
      | some moved, some _ =>
        (((r.learnDecimals d).confirmAfter d (max moved 0)).move group d r.balance
          (d.after.getD (max moved 0))).settle d (d.after.getD (max moved 0))
      | _, _ => (r.learnDecimals d).markHole := by
  have hbal : (r.learnDecimals d).balance = r.balance :=
    congrArg Books.balance (learnDecimals_books r d)
  have hrec : (r.learnDecimals d).reconcileBefore d = r.learnDecimals d :=
    reconcileBefore_of_before (hb.trans (congrArg some hbal.symm))
  have hmax : max r.balance 0 = r.balance := max_eq_left (before_nonneg hb)
  cases hmoved : checkedI128 (r.balance + d.deltaRaw) with
  | none => simp only [apply, hrec, hbal, hmax, hmoved]
  | some moved =>
    cases hsent : checkedI128 (-d.deltaRaw) with
    | none => simp only [apply, hrec, hbal, hmax, hmoved, hsent]
    | some sent => simp only [apply, hrec, hbal, hmax, hmoved, hsent]

/-- A round stays complete under a delta exactly when the delta starts from its balance, ends
where the arithmetic does, and every count it makes can be held. -/
theorem apply_complete {r : Round} {group : List SubjectAssetDelta} {d : SubjectAssetDelta} :
    (r.apply group d).historyComplete = true ↔
      r.historyComplete = true ∧ d.before = some r.balance ∧ r.representable d ∧
        d.after = some (max (r.balance + d.deltaRaw) 0) := by
  by_cases hb : d.before = some r.balance
  · have hlearn := learnDecimals_books r d
    have hc := historyComplete_of_books hlearn
    have hacq : (r.learnDecimals d).totalAcquired = r.totalAcquired :=
      congrArg Books.acquired hlearn
    have hdis : (r.learnDecimals d).totalDisposed = r.totalDisposed :=
      congrArg Books.disposed hlearn
    rw [apply_of_before hb]
    unfold representable
    cases hm : checkedI128 (r.balance + d.deltaRaw) with
    | none => simp [markHole]
    | some moved =>
      cases hn : checkedI128 (-d.deltaRaw) with
      | none => simp [markHole]
      | some negated =>
        have hmoved := (checkedI128_eq_some.mp hm).1
        simp only [Option.isSome_some, true_and, hb]
        by_cases ha : d.after = some (max moved 0)
        · rw [confirmAfter_of_after ha, hmoved]
          refine (move_complete (r := r.learnDecimals d)).trans ?_
          rw [hc, hacq, hdis]
          simp only [ha, and_true]
        · have hhole : ((r.learnDecimals d).confirmAfter d (max moved 0)).historyComplete ≠ true :=
            fun h => ha (confirmAfter_complete.mp h).2
          rw [hmoved]
          refine iff_of_false (fun h => hhole (move_complete.mp h).1) (fun h => ha h.2.2)
  · exact iff_of_false (fun h => hb (apply_complete_before h).2) fun h => hb h.2.1

/-- The books of a round that stays complete under a delta. -/
theorem apply_books {r : Round} {group : List SubjectAssetDelta} {d : SubjectAssetDelta}
    (h : (r.apply group d).historyComplete = true) :
    (r.apply group d).books = r.movedBooks d := by
  obtain ⟨hc, hb, ⟨hm, hn, hcounts⟩, ha⟩ := apply_complete.mp h
  have hlearn := learnDecimals_books r d
  have hacq : (r.learnDecimals d).totalAcquired = r.totalAcquired := congrArg Books.acquired hlearn
  have hdis : (r.learnDecimals d).totalDisposed = r.totalDisposed := congrArg Books.disposed hlearn
  obtain ⟨moved, hm⟩ := Option.isSome_iff_exists.mp hm
  obtain ⟨negated, hn⟩ := Option.isSome_iff_exists.mp hn
  have hmoved := (checkedI128_eq_some.mp hm).1
  have hsettle (r' : Round) (after : ℤ) :
      (r'.settle d after).books = { r'.books with balance := after } := rfl
  rw [apply_of_before hb, hm, hn]
  dsimp only
  rw [← hmoved, confirmAfter_of_after ha, ha, Option.getD_some, hsettle]
  unfold move movedBooks
  split
  next hpos =>
    rw [if_pos hpos] at hcounts
    rw [applyAcquisition_books (by rwa [hacq]), hlearn, hacq]
  next hneg =>
    rw [if_neg hneg] at hcounts
    rw [applyDisposal_books hcounts.1 (by rw [hdis]; exact hcounts.2), hlearn, hdis]

end Round

/-- The chain's own balances around a delta differ by what it moved. -/
def SubjectAssetDelta.Reconciles (d : SubjectAssetDelta) : Prop :=
  ∃ before ∈ d.beforeRaw, ∃ after ∈ d.afterRaw, (before : ℤ) + d.deltaRaw = after

instance (d : SubjectAssetDelta) : Decidable d.Reconciles :=
  inferInstanceAs (Decidable (∃ before ∈ d.beforeRaw, ∃ after ∈ d.afterRaw, _))

/-- The raw amounts of the acquisitions, or of the disposals, among some movements. -/
def amountOf (acquisition : Bool) (movements : List (LedgerEventKind × ℕ)) : ℕ :=
  ((movements.filter (·.1.isAcquisition == acquisition)).map Prod.snd).sum

theorem amountOf_concat (acquisition : Bool) (movements : List (LedgerEventKind × ℕ))
    (m : LedgerEventKind × ℕ) :
    amountOf acquisition (movements ++ [m]) =
      amountOf acquisition movements + if m.1.isAcquisition = acquisition then m.2 else 0 := by
  by_cases h : m.1.isAcquisition = acquisition <;> simp [amountOf, h]

/-- The raw amounts of a reported round's events of one direction. -/
def LedgerRound.eventTotal (r : LedgerRound) (acquisition : Bool) : ℕ :=
  ((r.events.filter (·.kind.isAcquisition == acquisition)).map LedgerEvent.amountRaw).sum

theorem finish_eventTotal (r : Round) (stillOpen acquisition : Bool) :
    (r.finish stillOpen).eventTotal acquisition = amountOf acquisition r.books.movements := by
  simp [LedgerRound.eventTotal, amountOf, Round.finish, Round.books, List.filter_map,
    Function.comp_def]

/-- A round whose counts reconcile with each other and with every delta folded into it. -/
structure LedgerRound.Reconciled (r : LedgerRound) (folded : List SubjectAssetDelta) : Prop where
  balance : (r.balanceRaw : ℤ) = r.totalAcquiredRaw - r.totalDisposedRaw
  acquired : r.eventTotal true = r.totalAcquiredRaw
  disposed : r.eventTotal false = r.totalDisposedRaw
  bounded : r.totalDisposedRaw ≤ r.totalAcquiredRaw
  deltas : ∀ d ∈ folded, d.Reconciles

/-- Books that are the exact account of the signed movements `ms`. -/
structure Books.Accounts (b : Books) (ms : List ℤ) : Prop where
  acquired : b.acquired = gained ms
  disposed : b.disposed = lost ms
  balance : b.balance = ms.sum
  acquisitions : (amountOf true b.movements : ℤ) = b.acquired
  disposals : (amountOf false b.movements : ℤ) = b.disposed

theorem Books.Accounts.acquire {b : Books} {ms : List ℤ} (h : b.Accounts ms) {m : ℤ} (hm : 0 < m)
    {kind : LedgerEventKind} (hkind : kind.isAcquisition = true) :
    Accounts { b with
      balance := b.balance + m
      acquired := b.acquired + m
      movements := b.movements ++ [(kind, m.natAbs)] } (ms ++ [m]) where
  acquired := by rw [gained_concat, max_eq_left hm.le, h.acquired]
  disposed := by rw [lost_concat, max_eq_right (by omega), add_zero, h.disposed]
  balance := by rw [List.sum_append, List.sum_singleton, h.balance]
  acquisitions := by
    rw [amountOf_concat, if_pos hkind, Nat.cast_add, h.acquisitions, Int.natCast_natAbs,
      abs_of_pos hm]
  disposals := by
    rw [amountOf_concat, if_neg (by simp [hkind]), add_zero]
    exact h.disposals

theorem Books.Accounts.dispose {b : Books} {ms : List ℤ} (h : b.Accounts ms) {m : ℤ} (hm : m ≤ 0)
    {kind : LedgerEventKind} (hkind : kind.isAcquisition = false) :
    Accounts { b with
      balance := b.balance + m
      disposed := b.disposed + -m
      movements := b.movements ++ [(kind, (-m).natAbs)] } (ms ++ [m]) where
  acquired := by rw [gained_concat, max_eq_right hm, add_zero, h.acquired]
  disposed := by rw [lost_concat, max_eq_left (by omega), h.disposed]
  balance := by rw [List.sum_append, List.sum_singleton, h.balance]
  acquisitions := by
    rw [amountOf_concat, if_neg (by simp [hkind]), add_zero]
    exact h.acquisitions
  disposals := by
    rw [amountOf_concat, if_pos hkind, Nat.cast_add, h.disposals, Int.natCast_natAbs,
      abs_of_nonneg (by omega)]

/-- What a round standing at its balance makes of a delta that does not overdraw it. -/
theorem Round.movedBooks_accounts {r : Round} {d : SubjectAssetDelta} {ms : List ℤ}
    (h : r.books.Accounts ms) (hsum : 0 ≤ r.balance + d.deltaRaw) :
    (r.movedBooks d).Accounts (ms ++ [d.deltaRaw]) := by
  have hafter : max (r.balance + d.deltaRaw) 0 = r.balance + d.deltaRaw := max_eq_left hsum
  unfold movedBooks
  rw [hafter]
  split
  next hpos => exact h.acquire hpos (acquisitionKind_isAcquisition d r.balance)
  next hneg =>
    have hdisposed : disposedRaw d r.balance = -d.deltaRaw := by
      unfold disposedRaw
      split <;> omega
    rw [hdisposed]
    exact h.dispose (not_lt.mp hneg) (disposalKind_isAcquisition d _)

def Lifecycle.movements (l : Lifecycle) : List ℤ := l.folded.map (·.deltaRaw)

/-- A lifecycle that is the exact account of the deltas folded into it. -/
structure Lifecycle.Exact (l : Lifecycle) : Prop where
  accounts : l.round.books.Accounts l.movements
  deltas : ∀ d ∈ l.folded, d.Reconciles
  nonneg : 0 ≤ l.round.balance
  fits : l.round.totalAcquired ≤ i128Max

/-- A complete round at the balance the chain reports, emptied by more than it holds. -/
def Round.OverdrawnBy (r : Round) (d : SubjectAssetDelta) : Prop :=
  r.historyComplete = true ∧ d.before = some r.balance ∧ d.after = some 0 ∧
    r.balance + d.deltaRaw < 0 ∧ -i128Max ≤ d.deltaRaw

theorem exact_grounded (d : SubjectAssetDelta) (roundKey : String) :
    Lifecycle.Exact ⟨Round.grounded d roundKey, []⟩ where
  accounts := ⟨rfl, rfl, rfl, rfl, rfl⟩
  deltas := by simp
  nonneg := le_refl _
  fits := by simp [Round.grounded, i128Max]

theorem SubjectAssetDelta.reconciles_of_report {d : SubjectAssetDelta} {before after : ℤ}
    (hb : d.before = some before) (ha : d.after = some after) (h : before + d.deltaRaw = after) :
    d.Reconciles := by
  obtain ⟨rawBefore, hrb, hb⟩ := Option.bind_eq_some_iff.mp hb
  obtain ⟨rawAfter, hra, ha⟩ := Option.bind_eq_some_iff.mp ha
  exact ⟨rawBefore, hrb, rawAfter, hra, by
    rw [(i128OfRaw_eq_some.mp hb).1, (i128OfRaw_eq_some.mp ha).1, h]⟩

/-- A delta that does not overdraw keeps an exact account exact. -/
theorem Lifecycle.Exact.fold {l : Lifecycle} (hl : l.Exact) {s : ReductionStep}
    (hc : (l.fold s).round.historyComplete = true) (hover : ¬ l.round.OverdrawnBy s.delta) :
    (l.fold s).Exact := by
  obtain ⟨hcomplete, hb, ⟨-, hn, hcounts⟩, ha⟩ := Round.apply_complete.mp hc
  have hbooks : (l.fold s).round.books = l.round.movedBooks s.delta := Round.apply_books hc
  have hsum : 0 ≤ l.round.balance + s.delta.deltaRaw := by
    by_contra hneg
    obtain ⟨negated, hn⟩ := Option.isSome_iff_exists.mp hn
    have hlow := (checkedI128_eq_some.mp hn).2.2
    exact hover ⟨hcomplete, hb, by rw [ha, max_eq_right (by omega)], by omega, by omega⟩
  have hafter : max (l.round.balance + s.delta.deltaRaw) 0 = l.round.balance + s.delta.deltaRaw :=
    max_eq_left hsum
  have hmovements : (l.fold s).movements = l.movements ++ [s.delta.deltaRaw] := by
    simp [movements, Lifecycle.fold]
  have haccounts : (l.fold s).round.books.Accounts (l.fold s).movements := by
    rw [hbooks, hmovements]
    exact Round.movedBooks_accounts hl.accounts hsum
  refine ⟨haccounts, ?_, ?_, ?_⟩
  · simp only [Lifecycle.fold, List.mem_append, List.mem_singleton]
    rintro d (hd | rfl)
    · exact hl.deltas d hd
    · exact SubjectAssetDelta.reconciles_of_report hb ha hafter.symm
  · have hbal : (l.fold s).round.balance = (l.fold s).movements.sum := haccounts.balance
    rw [hbal, hmovements, List.sum_append, List.sum_singleton]
    have : l.round.balance = l.movements.sum := hl.accounts.balance
    omega
  · have hacq : (l.fold s).round.totalAcquired = (l.round.movedBooks s.delta).acquired :=
      congrArg Books.acquired hbooks
    rw [hacq]
    unfold Round.movedBooks
    split
    next hpos =>
      rw [if_pos hpos] at hcounts
      obtain ⟨total, ht⟩ := Option.isSome_iff_exists.mp hcounts
      exact (checkedI128_eq_some.mp ht).2.2
    next => exact hl.fits

/-- Reporting an exact account keeps what it says. -/
theorem Lifecycle.Exact.reconciled {l : Lifecycle} (hl : l.Exact) (stillOpen : Bool) :
    (l.round.finish stillOpen).Reconciled l.folded := by
  have hlost : 0 ≤ lost l.movements := lost_nonneg _
  have hnet := gained_sub_lost l.movements
  have hbal : l.round.balance = l.movements.sum := hl.accounts.balance
  have hle : lost l.movements ≤ gained l.movements := by have := hl.nonneg; omega
  have hacq : ((l.round.finish stillOpen).totalAcquiredRaw : ℤ) = gained l.movements := by
    have : l.round.totalAcquired = gained l.movements := hl.accounts.acquired
    simp only [Round.finish]
    omega
  have hdis : ((l.round.finish stillOpen).totalDisposedRaw : ℤ) = lost l.movements := by
    have : l.round.totalDisposed = lost l.movements := hl.accounts.disposed
    simp only [Round.finish]
    omega
  refine ⟨?_, ?_, ?_, ?_, hl.deltas⟩
  · rw [Round.finish_balanceRaw hl.nonneg, hbal, hacq, hdis, hnet]
  · have := hl.accounts.acquisitions
    have := hl.accounts.acquired
    rw [finish_eventTotal]
    omega
  · have := hl.accounts.disposals
    have := hl.accounts.disposed
    rw [finish_eventTotal]
    omega
  · omega

/-- A lifecycle that is still complete, and either holds something or folded nothing yet, is
exact. An overdraw leaves nothing to fold into. -/
def Lifecycle.ExactWhileHeld (l : Lifecycle) : Prop :=
  l.round.historyComplete = true → (l.folded = [] ∨ 0 < l.round.balance) → l.Exact

theorem lifecycles_exact (deltas : List SubjectAssetDelta) :
    (∀ p ∈ trackSteps deltas, (p.1.lifeFor p.2.delta).ExactWhileHeld) ∧
      (∀ p ∈ trackSteps deltas, ∀ mint life,
        p.1.openLives.lookup mint = some life → life.ExactWhileHeld) ∧
      ∀ e ∈ lifecycles deltas, e.life.ExactWhileHeld := by
  refine lifecycles_invariant Lifecycle.ExactWhileHeld ?fresh ?fold
  case fresh =>
    rintro p - h hc -
    unfold Tracking.lifeFor at hc ⊢
    split
    next => exact exact_grounded _ _
    next hz =>
      -- a genesis round is never complete
      rw [if_neg hz, h.resolve_left hz] at hc
      rw [Round.genesis_historyComplete] at hc
      cases hc
  case fold =>
    intro p hp hQ hc hheld
    have hbooks := Round.apply_books hc
    have hpos : 0 < ((p.1.lifeFor p.2.delta).fold p.2).round.balance :=
      hheld.resolve_left (by simp [Lifecycle.fold])
    have hlife := hQ (Round.apply_complete.mp hc).1
      (Tracking.lifeFor_fresh_or_held (trackSteps_openRounds p hp) p.2.delta)
    refine hlife.fold hc fun hover => ?_
    have hbal : ((p.1.lifeFor p.2.delta).fold p.2).round.balance =
        max ((p.1.lifeFor p.2.delta).round.balance + p.2.delta.deltaRaw) 0 := by
      refine (congrArg Books.balance hbooks).trans ?_
      unfold Round.movedBooks
      split <;> rfl
    have := hover.2.2.2.1
    omega

/-- A delta that overdraws a complete open round ends it, complete and not reconciled. -/
theorem overdrawn_ends {t : Tracking} {s : ReductionStep} {life : Lifecycle}
    (hlookup : t.openLives.lookup s.delta.mint = some life) (hexact : life.Exact)
    (hheld : 0 < life.round.balance) (hover : life.round.OverdrawnBy s.delta) :
    t.Ends s ⟨life.fold s, .emptied⟩ ∧ (life.fold s).round.historyComplete = true ∧
      ¬ s.delta.Reconciles := by
  obtain ⟨hc, hb, ha, hneg, hlow⟩ := hover
  have hbal : life.round.balance = life.movements.sum := hexact.accounts.balance
  have hnet := gained_sub_lost life.movements
  have hacq : life.round.totalAcquired = gained life.movements := hexact.accounts.acquired
  have hdis : life.round.totalDisposed = lost life.movements := hexact.accounts.disposed
  have hlost := lost_nonneg life.movements
  have hfits := hexact.fits
  have hpos : ¬ 0 < s.delta.deltaRaw := by omega
  have hmax : i128Min = -i128Max - 1 := rfl
  have hcomplete : (life.round.apply s.group s.delta).historyComplete = true := by
    refine Round.apply_complete.mpr ⟨hc, hb, ⟨?_, ?_, ?_⟩, ?_⟩
    · rw [checkedI128_of_mem (by omega) (by omega)]; rfl
    · rw [checkedI128_of_mem (by omega) (by omega)]; rfl
    · rw [if_neg hpos]
      have hraw : Round.disposedRaw s.delta life.round.balance = life.round.balance := by
        rw [Round.disposedRaw, if_pos hheld]
        omega
      rw [hraw, checkedI128_of_mem (by omega) (by omega)]
      exact ⟨hheld, rfl⟩
    · rw [ha, max_eq_right (by omega)]
  have hzero : startsFromZero s.delta = false := by simp [startsFromZero, hpos]
  have hlife : t.lifeFor s.delta = life := by simp [Tracking.lifeFor, hzero, hlookup]
  have hempty : (life.fold s).round.balance ≤ 0 := by
    have hmoved : (life.fold s).round.balance = (life.round.movedBooks s.delta).balance :=
      congrArg Books.balance (Round.apply_books hcomplete)
    rw [hmoved, Round.movedBooks, if_neg hpos]
    exact (max_eq_right (by omega)).le
  refine ⟨.inr ⟨by rw [hlife], hempty⟩, hcomplete, ?_⟩
  rintro ⟨before, hrb, after, hra, hsum⟩
  rw [Option.mem_def] at hrb hra
  simp only [SubjectAssetDelta.before, hrb, Option.bind_some, i128OfRaw_eq_some] at hb
  simp only [SubjectAssetDelta.after, hra, Option.bind_some, i128OfRaw_eq_some] at ha
  omega

/-- A round a delta overdraws was open before it. -/
theorem overdrawn_open {t : Tracking} {d : SubjectAssetDelta} (hexact : (t.lifeFor d).Exact)
    (hover : (t.lifeFor d).round.OverdrawnBy d) :
    ∃ round, t.view.openRounds.lookup d.mint = some round ∧ (t.lifeFor d).round = round := by
  have hpos : ¬ 0 < d.deltaRaw := by
    have := hexact.nonneg
    have := hover.2.2.2.1
    omega
  have hzero : startsFromZero d = false := by simp [startsFromZero, hpos]
  cases hl : t.openLives.lookup d.mint with
  | some life =>
    refine ⟨life.round, ?_, by simp [Tracking.lifeFor, hzero, hl]⟩
    simp [Tracking.view, lookup_mapVal, hl]
  | none =>
    have hc := hover.1
    simp only [Tracking.lifeFor, hzero, hl, Bool.false_eq_true, if_false,
      Round.genesis_historyComplete] at hc

/-- The reported rounds that still say `history_complete` all reconcile, with their totals,
their events and every delta folded into them, exactly when no delta sells more than its
complete open round holds while the chain reports that round's balance before it and nothing
after it. -/
theorem history_complete_reconciled_iff (deltas : List SubjectAssetDelta) :
    (lifecycles deltas).map Ended.ledgerRound = reduceRounds deltas ∧
      ((∀ p ∈ visited applyStep .empty (reductionSteps deltas), ∀ round,
          p.1.openRounds.lookup p.2.delta.mint = some round → ¬ round.OverdrawnBy p.2.delta) ↔
        ∀ e ∈ lifecycles deltas, e.ledgerRound.historyComplete = true →
          e.ledgerRound.Reconciled e.life.folded) := by
  refine ⟨(reduceRounds_eq_lifecycles deltas).symm, ?_⟩
  obtain ⟨hfolded, hopen, hended⟩ := lifecycles_exact deltas
  constructor
  · intro hno e he hc
    obtain ⟨life, ending⟩ := e
    cases ending with
    | stillOpen =>
      have hb := ((lifecycles_balance he).resolve_left (by simp)).2
      exact (hended _ he hc (.inr hb)).reconciled true
    | stale =>
      have hb : 0 < life.round.balance := ((lifecycles_balance he).resolve_left (by simp)).2
      simp [Ended.ledgerRound, Round.closeStale, hb] at hc
    | emptied =>
      obtain ⟨p, hp, ⟨hs, -⟩ | ⟨heq, -⟩⟩ :=
        mem_track_ended.mp ((mem_lifecycles.mp he).resolve_right (by simp))
      · cases hs
      obtain ⟨rfl, -⟩ := Ended.mk.inj heq
      have hfresh := Tracking.lifeFor_fresh_or_held (trackSteps_openRounds p hp) p.2.delta
      have hbefore := (Round.apply_complete.mp hc).1
      have hlife : (p.1.lifeFor p.2.delta).Exact := hfolded p hp hbefore hfresh
      refine (hlife.fold hc fun hover => ?_).reconciled false
      obtain ⟨round, hlookup, heq⟩ := overdrawn_open hlife hover
      refine hno (p.1.view, p.2) ?_ round hlookup (heq ▸ hover)
      rw [trackSteps_view]
      exact List.mem_map_of_mem hp
  · intro hall p hp round hlookup hover
    rw [trackSteps_view, List.mem_map] at hp
    obtain ⟨⟨t, s⟩, hp, rfl⟩ := hp
    simp only [Tracking.view, lookup_mapVal, Option.map_eq_some_iff] at hlookup
    obtain ⟨life, hl, rfl⟩ := hlookup
    have hheld := (trackSteps_openRounds _ hp _ _ hl).2
    have hexact : life.Exact := hopen _ hp _ _ hl hover.1 (.inr hheld)
    obtain ⟨hends, hc, hbad⟩ := overdrawn_ends hl hexact hheld hover
    have he : (⟨life.fold s, .emptied⟩ : Ended) ∈ lifecycles deltas :=
      mem_lifecycles.mpr (.inl (mem_track_ended.mpr ⟨_, hp, hends⟩))
    exact hbad ((hall _ he hc).deltas s.delta (by simp [Lifecycle.fold]))

/-- A buy of five and a sale of seven out of them that leaves the wallet at zero. -/
def overdrawnHistory : List SubjectAssetDelta :=
  let buy : SubjectAssetDelta :=
    { signature := "s1", mint := "mintA", slot := some 7, blockTime := some 70, txIndex := 0
      deltaRaw := 5, beforeRaw := some 0, afterRaw := some 5, decimals := 0, kind := .trade
      venue := none, success := true }
  [buy, { buy with
    signature := "s2", slot := some 8, deltaRaw := -7, beforeRaw := some 5, afterRaw := some 0 }]

theorem overdrawn_history_still_complete :
    ¬ ∀ e ∈ lifecycles overdrawnHistory, e.ledgerRound.historyComplete = true →
      e.ledgerRound.Reconciled e.life.folded := by
  intro h
  have hbad : ∃ e ∈ lifecycles overdrawnHistory, e.ledgerRound.historyComplete = true ∧
      ∃ d ∈ e.life.folded, ¬ d.Reconciles := by decide
  obtain ⟨e, he, hc, d, hd, hbad⟩ := hbad
  exact hbad ((h e he hc).deltas d hd)

end ScreenerBot.Ledger
