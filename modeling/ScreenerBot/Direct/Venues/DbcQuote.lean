import ScreenerBot.Direct.Venues.DbcWalk

/-!
The segment a walk starts in, the swaps it refuses, and what a quote promises.
-/
namespace ScreenerBot.Direct.Venues.Dbc
open ScreenerBot.Chain ScreenerBot.Library ScreenerBot.Swaps

namespace PoolConfigState
variable {c : PoolConfigState} {price : ℕ}

/-- The index of a price. -/
abbrev indexAt (c : PoolConfigState) (price : ℕ) : ℕ := currentSegmentIndex c.boundaries price

/-- The segment chosen for a price: the first that ends no lower, or the last when all end
lower. -/
theorem indexAt_spec (hcurve : c.curve ≠ []) (price : ℕ) :
    ∃ segment, c.curve[c.indexAt price]? = some segment ∧
      (∀ j < c.indexAt price, ∀ s ∈ c.curve[j]?, s.sqrtPrice < price) ∧
      (price ≤ segment.sqrtPrice ∨
        c.indexAt price + 1 = c.curve.length ∧ segment.sqrtPrice < price) := by
  have hlength : 0 < c.curve.length := List.length_pos_of_ne_nil hcurve
  have hsegments : c.boundaries.length - 1 = c.curve.length := by simp [boundaries]
  have hread : ∀ {i s}, c.curve[i]? = some s → c.boundaries.getD (i + 1) 0 = s.sqrtPrice := by
    intro i s h
    simp [boundaries, h]
  have hmissed : ∀ {i n}, (∀ j < i, (!decide (price ≤ c.boundaries.getD (j + 1) 0)) = true) →
      n ≤ i → ∀ j < n, ∀ s ∈ c.curve[j]?, s.sqrtPrice < price := by
    intro i n h hn j hj s hs
    have := h j (by omega)
    rw [hread hs] at this
    simpa using this
  unfold indexAt currentSegmentIndex
  simp only [hsegments, if_neg hlength.ne']
  cases hfind : (List.range c.curve.length).find? fun i =>
      decide (price ≤ c.boundaries.getD (i + 1) 0) with
  | some i =>
    obtain ⟨hle, hmem, hfirst⟩ := List.find?_range_eq_some.mp hfind
    have hi : i < c.curve.length := List.mem_range.mp hmem
    have hsegment : c.curve[i]? = some c.curve[i] := List.getElem?_eq_getElem hi
    use c.curve[i], hsegment, hmissed hfirst le_rfl
    left
    rw [hread hsegment] at hle
    simpa using hle
  | none =>
    have hnone := List.find?_range_eq_none.mp hfind
    have hlast : c.curve[c.curve.length - 1]? = some c.curve[c.curve.length - 1] :=
      List.getElem?_eq_getElem (by omega)
    use c.curve[c.curve.length - 1], hlast
    constructor
    · exact hmissed hnone (Nat.sub_le _ _)
    · right
      constructor
      · show c.curve.length - 1 + 1 = c.curve.length
        omega
      · exact hmissed hnone le_rfl _ (by omega) _ hlast

theorem indexAt_below_start (hv : c.Valid) (h : price < c.sqrtStartPrice) :
    c.indexAt price = 0 := by
  by_cases hcurve : c.curve = []
  · simp [indexAt, currentSegmentIndex, boundaries, hcurve]
  · obtain ⟨segment, _, hbefore, _⟩ := indexAt_spec hcurve price
    by_contra hne
    have hlength : 0 < c.curve.length := List.length_pos_of_ne_nil hcurve
    have hfirst : c.curve[0]? = some c.curve[0] := List.getElem?_eq_getElem hlength
    have hpassed := hbefore 0 (by omega) _ hfirst
    have hstart := hv.start_le hfirst
    omega

theorem indexAt_above_end (h : ∀ s ∈ c.curve, s.sqrtPrice < price) :
    c.indexAt price = c.curve.length - 1 := by
  by_cases hcurve : c.curve = []
  · simp [indexAt, currentSegmentIndex, boundaries, hcurve]
  · obtain ⟨segment, hsegment, _, hle | ⟨hlast, _⟩⟩ := indexAt_spec hcurve price
    · have := h segment (List.mem_of_getElem? hsegment)
      omega
    · omega

theorem indexAt_inside (hv : c.Valid) (hend : ∃ s ∈ c.curve, price ≤ s.sqrtPrice) :
    ∃ segment, c.curve[c.indexAt price]? = some segment ∧ price ≤ segment.sqrtPrice := by
  obtain ⟨last, hlast, hle⟩ := hend
  obtain ⟨segment, hsegment, _, hin⟩ := indexAt_spec (List.ne_nil_of_mem hlast) price
  use segment, hsegment
  rcases hin with hin | ⟨hidx, hlt⟩
  · exact hin
  · obtain ⟨j, hj⟩ := List.getElem?_of_mem hlast
    have hjlt := (List.getElem?_eq_some_iff.mp hj).1
    have := hv.ends_le (show j ≤ c.indexAt price by omega) hj hsegment
    omega

/-- A price on the curve gets the segment it lies in. -/
theorem indexAt_covers (hv : c.Valid) (hstart : c.sqrtStartPrice ≤ price)
    (hend : ∃ s ∈ c.curve, price ≤ s.sqrtPrice) :
    c.indexAt price < c.curve.length ∧ c.boundaries.getD (c.indexAt price) 0 ≤ price ∧
      price ≤ c.boundaries.getD (c.indexAt price + 1) 0 := by
  obtain ⟨segment, hsegment, hin⟩ := indexAt_inside hv hend
  obtain ⟨last, hlast, _⟩ := hend
  obtain ⟨_, _, hbefore, _⟩ := indexAt_spec (List.ne_nil_of_mem hlast) price
  have hidx := (List.getElem?_eq_some_iff.mp hsegment).1
  constructor
  · exact hidx
  constructor
  · cases hi : c.indexAt price with
    | zero => simpa [boundaries] using hstart
    | succ k =>
      have hprev : c.curve[k]? = some c.curve[k] := List.getElem?_eq_getElem (by omega)
      have hlower := hbefore k (by omega) _ hprev
      simpa [boundaries, hprev] using hlower.le
  · simpa [boundaries, hsegment] using hin

end PoolConfigState

namespace DbcMarket
variable {m : DbcMarket} {zeroForOne : Bool} {amountIn : ℕ} {s s' e : WalkState}

theorem start_placed (hcurve : m.config.curve ≠ []) (hprice : m.sqrtPrice ≤ u128Max) :
    (m.start amountIn).Placed m.config := by
  obtain ⟨segment, hsegment, hbefore, hin⟩ := PoolConfigState.indexAt_spec hcurve m.sqrtPrice
  constructor
  · exact hprice
  · intro j hj s hs
    exact (hbefore j hj s hs).le
  · intro other hother
    obtain rfl := Option.some.inj (hsegment.symm.trans hother)
    rcases hin with hle | ⟨hlast, _⟩
    · exact Or.inl hle
    · exact Or.inr hlast

theorem walk_refuses {error : DirectSwapError}
    (h : (m.loop zeroForOne amountIn).run (m.start amountIn) = .error error) :
    m.walk zeroForOne amountIn = .error error := by
  unfold walk
  rw [h]
  rfl

theorem walk_ok {out reached : ℕ} (h : m.walk zeroForOne amountIn = .ok (out, reached)) :
    ∃ e, (m.loop zeroForOne amountIn).run (m.start amountIn) = .ok e ∧
      out = min e.totalOut u64Max ∧ reached = e.sqrtPrice := by
  obtain ⟨e, he, hout⟩ := bind_eq_ok.mp h
  simp only [Except.ok.injEq, Prod.mk.injEq] at hout
  exact ⟨e, he, hout.1.symm, hout.2.symm⟩

/-- Without segments only nothing is walked. -/
theorem loop_empty (hcurve : m.config.curve = [])
    (h : (m.loop zeroForOne amountIn).run s = .ok e) : e = s := by
  rcases FallibleLoop.run_ok h with ⟨_, hend⟩ | ⟨_, s', hturn, _⟩
  · exact hend
  · obtain ⟨segment, hsegment, _⟩ := turn_ok hturn
    simp [hcurve] at hsegment

/-- No sell starts below the start of the curve. -/
theorem sell_below_start_refused (hv : m.config.Valid) (hprice : m.sqrtPrice ≤ u128Max)
    (hamount : 0 < amountIn) (hbelow : m.sqrtPrice < m.config.sqrtStartPrice) :
    ∃ error, m.walk true amountIn = .error error := by
  have hidx : (m.start amountIn).idx = 0 := PoolConfigState.indexAt_below_start hv hbelow
  have hboundary : m.boundary true (m.start amountIn).idx = m.config.sqrtStartPrice := by
    rw [hidx]
    rfl
  have hno : ∀ s', m.turn true amountIn (m.start amountIn) ≠ .ok s' := by
    intro s' hturn
    obtain ⟨segment, hsegment, _, hturned⟩ := turn_ok hturn
    have hl := hv.liquidity_le hsegment
    have hfree : ∀ {needed}, inputForMove true segment.liquidity m.sqrtPrice
        (m.boundary true (m.start amountIn).idx) = .ok needed → needed = 0 := by
      intro needed hneeded
      rw [hboundary] at hneeded
      rcases sell_needed hl hprice hneeded with ⟨_, hzero⟩ | ⟨hlt, _⟩
      · exact hzero
      · omega
    cases hturned with
    | inside hneeded hshort =>
      have := hfree hneeded
      omega
    | left hneeded hpaid hout hfloor =>
      have hspent : amountIn = _ := hfloor rfl hidx
      have := hfree hneeded
      omega
  obtain ⟨error, herror⟩ := FallibleLoop.run_refuses (loop_goes hamount) hno
  exact ⟨error, walk_refuses herror⟩

/-- No buy starts above the end of the curve. -/
theorem buy_above_end_refused (hv : m.config.Valid) (hamount : 0 < amountIn)
    (habove : ∀ s ∈ m.config.curve, s.sqrtPrice < m.sqrtPrice) :
    ∃ error, m.walk false amountIn = .error error := by
  have hidx : (m.start amountIn).idx = m.config.curve.length - 1 :=
    PoolConfigState.indexAt_above_end habove
  have hrefused : ∃ error, (m.loop false amountIn).run (m.start amountIn) = .error error := by
    cases hturn : m.turn false amountIn (m.start amountIn) with
    | error error => exact ⟨error, FallibleLoop.run_of_error (loop_goes hamount) hturn⟩
    | ok s' =>
      obtain ⟨segment, hsegment, _, hturned⟩ := turn_ok hturn
      have hl := hv.liquidity_le hsegment
      have hend := hv.end_le hsegment
      have hover : segment.sqrtPrice < m.sqrtPrice := habove _ (List.mem_of_getElem? hsegment)
      -- Moving back to the end of the last segment is free, and leaves the curve.
      have hfree : ∀ {needed}, inputForMove false segment.liquidity m.sqrtPrice
          (m.boundary false (m.start amountIn).idx) = .ok needed → needed = 0 := by
        intro needed hneeded
        rw [boundary_buy hsegment] at hneeded
        rw [buy_needed hl hend hneeded, Nat.sub_eq_zero_of_le hover.le]
        simp
      have hlen := (List.getElem?_eq_some_iff.mp hsegment).1
      rw [FallibleLoop.run_of_turn (loop_goes hamount) hturn]
      cases hturned with
      | inside hneeded hshort =>
        have := hfree hneeded
        omega
      | @left needed out hneeded hpaid hout hfloor =>
        obtain rfl := hfree hneeded
        apply FallibleLoop.run_refuses
        · exact loop_goes hamount
        · intro next hnext
          obtain ⟨past, hpast, _⟩ := turn_ok hnext
          have hbeyond := (List.getElem?_eq_some_iff.mp hpast).1
          simp only [nextIdx, Bool.false_eq_true, ↓reduceIte] at hbeyond
          omega
  obtain ⟨error, herror⟩ := hrefused
  exact ⟨error, walk_refuses herror⟩

theorem buy_walk {out reached : ℕ} (hv : m.config.Valid) (hprice : m.sqrtPrice ≤ u128Max)
    (h : m.walk false amountIn = .ok (out, reached)) :
    m.sqrtPrice ≤ reached ∧ reached ≤ u128Max ∧
      m.config.quoteMass m.sqrtPrice reached ≤ amountIn ∧
      (0 < m.sqrtPrice → (out : ℚ) ≤ m.config.baseMass m.sqrtPrice reached) := by
  obtain ⟨e, he, rfl, rfl⟩ := walk_ok h
  by_cases hmoves : 0 < amountIn ∧ ∃ s ∈ m.config.curve, m.sqrtPrice ≤ s.sqrtPrice
  · obtain ⟨hamount, hin⟩ := hmoves
    obtain ⟨segment, hsegment, hle⟩ := PoolConfigState.indexAt_inside hv hin
    have hplaced : (m.start amountIn).Placed m.config := by
      apply start_placed _ hprice
      intro hcurve
      simp [hcurve] at hsegment
    have hcovered : (m.start amountIn).Covered m.config := by
      intro other hother
      obtain rfl := Option.some.inj (hsegment.symm.trans hother)
      exact hle
    obtain ⟨hbought, hdone⟩ := buy_run hv hplaced hcovered he
    constructor
    · exact hbought.ahead
    constructor
    · exact hbought.placed.word
    constructor
    · have hpaid := hbought.paid
      rw [hdone, Nat.cast_zero, add_zero] at hpaid
      exact hpaid
    · intro hpos
      have hgained := hbought.gained hpos
      have hcut : ((min e.totalOut u64Max : ℕ) : ℚ) ≤ e.totalOut := by
        exact_mod_cast min_le_left _ _
      have hstart : ((m.start amountIn).totalOut : ℚ) = 0 := Nat.cast_zero
      rw [hstart, zero_add] at hgained
      exact hcut.trans hgained
  · have hstays : e = m.start amountIn := by
      by_cases hamount : amountIn = 0
      · rw [FallibleLoop.run_of_done (decide_eq_true hamount)] at he
        exact (Except.ok.inj he).symm
      · have habove : ∀ s ∈ m.config.curve, s.sqrtPrice < m.sqrtPrice := by
          intro s hs
          by_contra! hle
          exact hmoves ⟨by omega, s, hs, hle⟩
        obtain ⟨error, herror⟩ := buy_above_end_refused hv (Nat.pos_of_ne_zero hamount) habove
        rw [h] at herror
        cases herror
    subst hstays
    constructor
    · exact le_rfl
    constructor
    · exact hprice
    constructor
    · simp [start, PoolConfigState.quoteMass]
    · intro _
      simp [start, PoolConfigState.baseMass]

theorem sell_walk {out reached : ℕ} (hv : m.config.Valid) (hprice : m.sqrtPrice ≤ u128Max)
    (h : m.walk true amountIn = .ok (out, reached)) :
    reached ≤ m.sqrtPrice ∧ (out : ℚ) ≤ m.config.quoteMass reached m.sqrtPrice := by
  obtain ⟨e, he, rfl, rfl⟩ := walk_ok h
  by_cases hcurve : m.config.curve = []
  · obtain rfl := loop_empty hcurve he
    constructor
    · exact le_rfl
    · simp [start, PoolConfigState.quoteMass]
  · have hsold := sell_run hv (start_placed hcurve hprice) he
    constructor
    · exact hsold.down
    · have hgained := hsold.gained
      have hcut : ((min e.totalOut u64Max : ℕ) : ℚ) ≤ e.totalOut := by
        exact_mod_cast min_le_left _ _
      have hstart : ((m.start amountIn).totalOut : ℚ) = 0 := Nat.cast_zero
      rw [hstart, zero_add] at hgained
      exact hcut.trans hgained

/-- Selling no more base than lies above a price ends no lower. -/
theorem sell_walk_kept {out reached floor : ℕ} (hv : m.config.Valid)
    (hprice : m.sqrtPrice ≤ u128Max) (hfloor : 0 < floor) (habove : floor ≤ m.sqrtPrice)
    (hamount : (amountIn : ℚ) ≤ m.config.baseMass floor m.sqrtPrice)
    (h : m.walk true amountIn = .ok (out, reached)) : floor ≤ reached := by
  obtain ⟨e, he, rfl, rfl⟩ := walk_ok h
  by_cases hcurve : m.config.curve = []
  · obtain rfl := loop_empty hcurve he
    exact habove
  · have hstart : Kept m.config floor (m.start amountIn) :=
      ⟨start_placed hcurve hprice, habove, hamount⟩
    have hkeeps : ∀ s s', Kept m.config floor s → (m.loop true amountIn).done s = false →
        m.turn true amountIn s = .ok s' → Kept m.config floor s' := by
      intro s s' hs hgoes hturn
      exact sell_turn_kept hv hfloor hs (Nat.pos_of_ne_zero (of_decide_eq_false hgoes)) hturn
    exact (FallibleLoop.run_keeps hkeeps he hstart).1.above

/-- Selling what a buy gave, from the price it reached, returns no more than was paid. -/
theorem round_trip {out reached back last : ℕ} (hv : m.config.Valid)
    (hprice : m.sqrtPrice ≤ u128Max) (hbuy : m.walk false amountIn = .ok (out, reached))
    (hsell : { m with sqrtPrice := reached }.walk true out = .ok (back, last)) :
    back ≤ amountIn := by
  obtain ⟨hahead, hword, hpaid, hgained⟩ := buy_walk hv hprice hbuy
  let m' : DbcMarket := { m with sqrtPrice := reached }
  have hv' : m'.config.Valid := hv
  obtain ⟨_, hback⟩ := sell_walk (m := m') hv' hword hsell
  have hlast : m.sqrtPrice ≤ last := by
    rcases Nat.eq_zero_or_pos m.sqrtPrice with hzero | hpos
    · omega
    · exact sell_walk_kept (m := m') hv' hword hpos hahead (hgained hpos) hsell
  have hquote : (back : ℚ) ≤ amountIn :=
    calc (back : ℚ) ≤ m.config.quoteMass last reached := hback
      _ ≤ m.config.quoteMass m.sqrtPrice reached := PoolConfigState.quoteMass_anti hlast
      _ ≤ amountIn := hpaid
  exact_mod_cast hquote

/-- What a quote promises: on the curve it never overstates, a buy cannot be sold back at a gain,
and a price off the curve is refused on the side where nothing lies and given the nearest segment
on the other. -/
theorem walk_keeps_to_curve (m : DbcMarket) (hv : m.config.Valid) (hprice : m.sqrtPrice ≤ u128Max)
    (amountIn : ℕ) :
    (∀ out reached, m.walk false amountIn = .ok (out, reached) →
      m.sqrtPrice ≤ reached ∧ m.config.quoteMass m.sqrtPrice reached ≤ amountIn ∧
      (0 < m.sqrtPrice → (out : ℚ) ≤ m.config.baseMass m.sqrtPrice reached) ∧
      ∀ back last, { m with sqrtPrice := reached }.walk true out = .ok (back, last) →
        back ≤ amountIn) ∧
    (∀ out reached, m.walk true amountIn = .ok (out, reached) →
      reached ≤ m.sqrtPrice ∧ (out : ℚ) ≤ m.config.quoteMass reached m.sqrtPrice) ∧
    (0 < amountIn → m.sqrtPrice < m.config.sqrtStartPrice →
      ∃ error, m.walk true amountIn = .error error) ∧
    (0 < amountIn → (∀ s ∈ m.config.curve, s.sqrtPrice < m.sqrtPrice) →
      ∃ error, m.walk false amountIn = .error error) ∧
    (m.config.sqrtStartPrice ≤ m.sqrtPrice → (∃ s ∈ m.config.curve, m.sqrtPrice ≤ s.sqrtPrice) →
      m.config.indexAt m.sqrtPrice < m.config.curve.length ∧
      m.config.boundaries.getD (m.config.indexAt m.sqrtPrice) 0 ≤ m.sqrtPrice ∧
      m.sqrtPrice ≤ m.config.boundaries.getD (m.config.indexAt m.sqrtPrice + 1) 0) ∧
    (m.sqrtPrice < m.config.sqrtStartPrice → m.config.indexAt m.sqrtPrice = 0) ∧
    ((∀ s ∈ m.config.curve, s.sqrtPrice < m.sqrtPrice) →
      m.config.indexAt m.sqrtPrice = m.config.curve.length - 1) := by
  constructor
  · intro out reached hbuy
    obtain ⟨hahead, _, hpaid, hgained⟩ := buy_walk hv hprice hbuy
    exact ⟨hahead, hpaid, hgained, fun back last hsell => round_trip hv hprice hbuy hsell⟩
  constructor
  · intro out reached hsell
    exact sell_walk hv hprice hsell
  constructor
  · exact sell_below_start_refused hv hprice
  constructor
  · exact buy_above_end_refused hv
  constructor
  · exact PoolConfigState.indexAt_covers hv
  constructor
  · exact PoolConfigState.indexAt_below_start hv
  · exact PoolConfigState.indexAt_above_end

end DbcMarket

def lastStretch : DbcMarket :=
  { pool := "pool", sqrtPrice := 2 ^ 66
    config := { sqrtStartPrice := 2 ^ 64, curve := [⟨2 ^ 65, 2 ^ 100⟩] } }

def backwards : DbcMarket :=
  { pool := "pool", sqrtPrice := 10
    config := { sqrtStartPrice := 10, curve := [⟨30, 1200⟩, ⟨20, 1200⟩, ⟨40, 1200⟩] } }

def twoStretches : DbcMarket :=
  { pool := "pool", sqrtPrice := 2 ^ 64
    config := { sqrtStartPrice := 2 ^ 64, curve := [⟨2 ^ 65, 2 ^ 80⟩, ⟨2 ^ 66, 2 ^ 81⟩] } }

/-- A buy into the second stretch, its sale back over both, and a buy above the curve. -/
theorem walk_keeps_to_curve_bothWays :
    twoStretches.walk false 100000 = .ok (40382, 41743864946097127424) ∧
    (40382 : ℚ) ≤ twoStretches.config.baseMass (2 ^ 64) 41743864946097127424 ∧
    { twoStretches with sqrtPrice := 41743864946097127424 }.walk true 40382 =
      .ok (99998, 18447025552981295106) ∧
    99998 ≤ 100000 ∧ ∃ error, lastStretch.walk false 1 = .error error := by
  have hboth : twoStretches.config.Valid := by
    constructor <;> decide
  have hlast : lastStretch.config.Valid := by
    constructor <;> decide
  have hbuy : twoStretches.walk false 100000 = .ok (40382, 41743864946097127424) := by
    decide +kernel
  have hsell : { twoStretches with sqrtPrice := 41743864946097127424 }.walk true 40382 =
      .ok (99998, 18447025552981295106) := by
    decide +kernel
  obtain ⟨hbought, -⟩ :=
    DbcMarket.walk_keeps_to_curve twoStretches hboth (by decide) 100000
  obtain ⟨-, -, hmass, hback⟩ := hbought _ _ hbuy
  obtain ⟨-, -, -, hrefused, -⟩ := DbcMarket.walk_keeps_to_curve lastStretch hlast (by decide) 1
  exact ⟨hbuy, hmass (by decide), hsell, hback _ _ hsell, hrefused (by decide) (by decide)⟩

/-- A sell from above the last boundary lies in no segment and is quoted all the same; and where
the boundaries do not ascend a stretch of the price is sold twice. -/
theorem sell_above_end_quoted :
    (lastStretch.walk true 1000 = .ok (15999, 73786971999871160464) ∧
      ∀ i < lastStretch.config.curve.length,
        ¬ (lastStretch.config.boundaries.getD i 0 ≤ lastStretch.sqrtPrice ∧
          lastStretch.sqrtPrice ≤ lastStretch.config.boundaries.getD (i + 1) 0)) ∧
    (backwards.walk false 2 = .ok (110, 40) ∧
      (∀ s ∈ backwards.config.curve, s.liquidity = 1200) ∧
      (1200 * (1 / 10 - 1 / 40) : ℚ) < 110) := by
  constructor
  · constructor
    · decide +kernel
    · decide
  · constructor
    · decide +kernel
    · constructor
      · decide
      · norm_num

end ScreenerBot.Direct.Venues.Dbc
