import ScreenerBot.Direct.Venues.DbcSteps

/-!
The walk over the segments of a DBC curve against the exact curve.

A turn is related to the mass between its two prices; the invariants of a run then follow from
the mass of a way being the sum of its parts.
-/
namespace ScreenerBot.Direct.Venues.Dbc
open ScreenerBot.Chain ScreenerBot.Library ScreenerBot.Swaps

namespace PoolConfigState
variable {c : PoolConfigState} {i j p : ℕ} {a b : CurvePoint}

theorem Valid.start_le (hv : c.Valid) (ha : c.curve[i]? = some a) :
    c.sqrtStartPrice ≤ a.sqrtPrice := by
  apply (List.pairwise_cons.mp hv.ascending).1
  exact List.mem_map_of_mem (List.mem_of_getElem? ha)

theorem Valid.ends_le (hv : c.Valid) (hij : i ≤ j) (ha : c.curve[i]? = some a)
    (hb : c.curve[j]? = some b) : a.sqrtPrice ≤ b.sqrtPrice := by
  rcases hij.lt_or_eq with hlt | rfl
  · have hsorted := (List.pairwise_cons.mp hv.ascending).2
    rw [List.pairwise_map, List.pairwise_iff_getElem] at hsorted
    obtain ⟨hi, rfl⟩ := List.getElem?_eq_some_iff.mp ha
    obtain ⟨hj, rfl⟩ := List.getElem?_eq_some_iff.mp hb
    exact hsorted i j hi hj hlt
  · rw [ha] at hb
    obtain rfl := Option.some.inj hb
    exact le_rfl

theorem Valid.end_le (hv : c.Valid) (ha : c.curve[i]? = some a) : a.sqrtPrice ≤ u128Max := by
  apply hv.boundaries
  exact List.mem_cons_of_mem _ (List.mem_map_of_mem (List.mem_of_getElem? ha))

theorem Valid.liquidity_le (hv : c.Valid) (ha : c.curve[i]? = some a) : a.liquidity ≤ u128Max :=
  hv.liquidities a (List.mem_of_getElem? ha)

theorem Below.fewer (h : c.Below i p) (hji : j ≤ i) : c.Below j p := by
  intro k hk s hs
  exact h k (by omega) s hs

theorem Valid.below_end (hv : c.Valid) (ha : c.curve[i]? = some a) :
    c.Below (i + 1) a.sqrtPrice := by
  intro j hj s hs
  exact hv.ends_le (by omega) hs ha

end PoolConfigState

/-- Where a walk stands: above the segments before its own, and not above its own unless that is
the last. -/
structure WalkState.Placed (c : PoolConfigState) (s : WalkState) : Prop where
  word : s.sqrtPrice ≤ u128Max
  below : c.Below s.idx s.sqrtPrice
  inside : ∀ segment ∈ c.curve[s.idx]?,
    s.sqrtPrice ≤ segment.sqrtPrice ∨ s.idx + 1 = c.curve.length

/-- The price is not above the segment of the walk. -/
def WalkState.Covered (c : PoolConfigState) (s : WalkState) : Prop :=
  ∀ segment ∈ c.curve[s.idx]?, s.sqrtPrice ≤ segment.sqrtPrice

namespace DbcMarket
variable {m : DbcMarket} {zeroForOne : Bool} {amountIn i : ℕ} {s s' e : WalkState}
  {segment : CurvePoint}

theorem boundary_buy (hsegment : m.config.curve[i]? = some segment) :
    m.boundary false i = segment.sqrtPrice := by
  simp [boundary, PoolConfigState.boundaries, hsegment]

theorem boundary_sell_succ (hsegment : m.config.curve[i]? = some segment) :
    m.boundary true (i + 1) = segment.sqrtPrice := by
  simp [boundary, PoolConfigState.boundaries, hsegment]

/-- The end of a sell's segment lies above every segment before it. -/
theorem below_boundary_sell (hv : m.config.Valid) (hi : i ≤ m.config.curve.length) :
    m.config.Below i (m.boundary true i) := by
  cases i with
  | zero =>
    intro j hj
    omega
  | succ k =>
    intro j hj a ha
    have hsegment : m.config.curve[k]? = some m.config.curve[k] := List.getElem?_eq_getElem hi
    rw [boundary_sell_succ hsegment]
    exact hv.ends_le (by omega) ha hsegment

/-- It is no higher than the segment the sell walks next. -/
theorem boundary_sell_le (hv : m.config.Valid) (hsegment : m.config.curve[i - 1]? = some segment) :
    m.boundary true i ≤ segment.sqrtPrice := by
  cases i with
  | zero => exact hv.start_le hsegment
  | succ k =>
    rw [Nat.add_sub_cancel] at hsegment
    rw [boundary_sell_succ hsegment]

/-- What a turn of a buy does, beside the exact curve. -/
structure Bought (c : PoolConfigState) (s s' : WalkState) : Prop where
  placed : s'.Placed c
  covered : s'.Covered c
  ahead : s.sqrtPrice ≤ s'.sqrtPrice
  paid : c.quoteMass s.sqrtPrice s'.sqrtPrice + s'.remaining ≤ s.remaining
  gained : 0 < s.sqrtPrice →
    (s'.totalOut : ℚ) ≤ s.totalOut + c.baseMass s.sqrtPrice s'.sqrtPrice

theorem buy_turn (hv : m.config.Valid) (hs : s.Placed m.config) (hcovered : s.Covered m.config)
    (h : m.turn false amountIn s = .ok s') : Bought m.config s s' := by
  obtain ⟨segment, hsegment, hpos, hturned⟩ := turn_ok h
  have hl := hv.liquidity_le hsegment
  have hend := hv.end_le hsegment
  have hle : s.sqrtPrice ≤ segment.sqrtPrice := hcovered segment hsegment
  cases hturned with
  | @inside needed nextPrice out hneeded hshort hnext hout =>
    rw [boundary_buy hsegment] at hneeded
    obtain rfl := buy_needed hl hend hneeded
    obtain ⟨hprice, hword⟩ := buy_next hl hnext
    have hahead : s.sqrtPrice ≤ nextPrice := hprice ▸ Nat.le_add_right _ _
    have hstays : nextPrice ≤ segment.sqrtPrice := hprice ▸ buy_stays hle hshort
    constructor
    · constructor
      · exact hword
      · exact hs.below.mono hahead
      · intro other hother
        obtain rfl := Option.some.inj (hsegment.symm.trans hother)
        exact Or.inl hstays
    · intro other hother
      obtain rfl := Option.some.inj (hsegment.symm.trans hother)
      exact hstays
    · exact hahead
    · have hspent := quote_le_spent (p := s.sqrtPrice) (s := s.remaining) hpos
      rw [← hprice] at hspent
      show m.config.quoteMass s.sqrtPrice nextPrice + ((0 : ℕ) : ℚ) ≤ s.remaining
      rw [PoolConfigState.quoteMass,
        PoolConfigState.pieceMass_segment hsegment hs.below hahead (Or.inl hstays)]
      simpa using hspent
    · intro hprice0
      have hgain := buy_out_le hl hword hprice0 hahead hout
      show ((s.totalOut + out : ℕ) : ℚ) ≤ s.totalOut + m.config.baseMass s.sqrtPrice nextPrice
      rw [PoolConfigState.baseMass,
        PoolConfigState.pieceMass_segment hsegment hs.below hahead (Or.inl hstays)]
      push_cast
      linarith
  | @left needed out hneeded hpaid hout hfloor =>
    rw [boundary_buy hsegment] at hneeded hout ⊢
    obtain rfl := buy_needed hl hend hneeded
    have hbelow := hv.below_end hsegment
    have hcover : ∀ next ∈ m.config.curve[s.idx + 1]?, segment.sqrtPrice ≤ next.sqrtPrice := by
      intro next hnext
      exact hv.ends_le (by omega) hsegment hnext
    constructor
    · constructor
      · exact hend
      · exact hbelow
      · intro next hnext
        exact Or.inl (hcover next hnext)
    · exact hcover
    · exact hle
    · have hcost := @quote_le_needed segment.liquidity _ _ hle
      show m.config.quoteMass s.sqrtPrice segment.sqrtPrice + ((s.remaining -
        segment.liquidity * (segment.sqrtPrice - s.sqrtPrice) ⌈/⌉ q128 : ℕ) : ℚ) ≤ s.remaining
      rw [PoolConfigState.quoteMass,
        PoolConfigState.pieceMass_segment hsegment hs.below hle (Or.inl le_rfl), Nat.cast_sub hpaid]
      linarith
    · intro hprice0
      have hgain := buy_out_le hl hend hprice0 hle hout
      show ((s.totalOut + out : ℕ) : ℚ) ≤
        s.totalOut + m.config.baseMass s.sqrtPrice segment.sqrtPrice
      rw [PoolConfigState.baseMass,
        PoolConfigState.pieceMass_segment hsegment hs.below hle (Or.inl le_rfl)]
      push_cast
      linarith

/-- A turn of a sell, as the stretch of its segment that it walks down. -/
structure Descended (m : DbcMarket) (segment : CurvePoint) (s s' : WalkState) : Prop where
  placed : s'.Placed m.config
  down : s'.sqrtPrice ≤ s.sqrtPrice
  stays : m.boundary true s.idx ≤ s'.sqrtPrice
  gained : (s'.totalOut : ℚ) ≤
    s.totalOut + segment.liquidity * (quoteAt s.sqrtPrice - quoteAt s'.sqrtPrice)

theorem sell_turn (hv : m.config.Valid) (hs : s.Placed m.config) (hrem : 0 < s.remaining)
    (hsegment : m.config.curve[s.idx]? = some segment)
    (hturned : m.Turned true s segment.liquidity s') : m.Descended segment s s' := by
  have hl := hv.liquidity_le hsegment
  have hidx : s.idx < m.config.curve.length := (List.getElem?_eq_some_iff.mp hsegment).1
  have hbelow := below_boundary_sell hv hidx.le
  cases hturned with
  | @inside needed nextPrice out hneeded hshort hnext hout =>
    obtain ⟨hprice, hword⟩ := sell_next hl hs.word hnext
    have hdown : nextPrice ≤ s.sqrtPrice := hprice ▸ falling_moves _ _ _
    have hstays : m.boundary true s.idx ≤ nextPrice := by
      rcases sell_needed hl hs.word hneeded with ⟨_, rfl⟩ | ⟨hlt, rfl⟩
      · omega
      · exact hprice ▸ sell_stays hlt hshort
    constructor
    · constructor
      · exact hword
      · exact hbelow.mono hstays
      · intro other hother
        rcases hs.inside other hother with hle | hlast
        · exact Or.inl (hdown.trans hle)
        · exact Or.inr hlast
    · exact hdown
    · exact hstays
    · have hgain := sell_out_le hl hs.word hdown hout
      push_cast
      linarith
  | @left needed out hneeded hpaid hout hfloor =>
    have hdown : m.boundary true s.idx ≤ s.sqrtPrice := by
      by_contra! hlt
      rcases sell_needed hl hs.word hneeded with ⟨_, rfl⟩ | ⟨hgt, _⟩
      · cases hidx : s.idx with
        | zero =>
          have := hfloor rfl hidx
          omega
        | succ k =>
          have hk : k < m.config.curve.length := by
            have := (List.getElem?_eq_some_iff.mp hsegment).1
            omega
          have hprev : m.config.curve[k]? = some m.config.curve[k] := List.getElem?_eq_getElem hk
          have hunder := hs.below k (by omega) _ hprev
          rw [hidx, boundary_sell_succ hprev] at hlt
          omega
      · omega
    constructor
    · constructor
      · exact hdown.trans hs.word
      · exact hbelow.fewer (Nat.sub_le _ _)
      · intro next hnext
        exact Or.inl (boundary_sell_le hv hnext)
    · exact hdown
    · exact le_rfl
    · have hgain := sell_out_le hl hs.word hdown hout
      push_cast
      linarith

/-- The mass of what a sell's segment still holds above a price. -/
theorem mass_above {φ : ℕ → ℚ} {x : ℕ} (hv : m.config.Valid) (hs : s.Placed m.config)
    (hsegment : m.config.curve[s.idx]? = some segment) (hx : m.boundary true s.idx ≤ x)
    (hxs : x ≤ s.sqrtPrice) :
    pieceMass φ m.config.pieces x s.sqrtPrice = segment.liquidity * (φ s.sqrtPrice - φ x) := by
  have hidx : s.idx < m.config.curve.length := (List.getElem?_eq_some_iff.mp hsegment).1
  exact PoolConfigState.pieceMass_segment hsegment ((below_boundary_sell hv hidx.le).mono hx) hxs
    (hs.inside segment hsegment)

/-- A sell of no more base than lies above a price does not go below it. -/
structure Kept (c : PoolConfigState) (floor : ℕ) (s : WalkState) : Prop where
  placed : s.Placed c
  above : floor ≤ s.sqrtPrice
  remaining : (s.remaining : ℚ) ≤ c.baseMass floor s.sqrtPrice

theorem sell_turn_kept {floor : ℕ} (hv : m.config.Valid) (hfloor : 0 < floor)
    (hs : Kept m.config floor s) (hrem : 0 < s.remaining)
    (h : m.turn true amountIn s = .ok s') : Kept m.config floor s' := by
  obtain ⟨segment, hsegment, hpos, hturned⟩ := turn_ok h
  have hl := hv.liquidity_le hsegment
  have hdescended := sell_turn hv hs.placed hrem hsegment hturned
  have hprice : 0 < s.sqrtPrice := lt_of_lt_of_le hfloor hs.above
  -- While the floor lies in the walk's own segment, its liquidity bounds what remains.
  have hown : m.boundary true s.idx ≤ floor →
      (s.remaining : ℚ) ≤ segment.liquidity * (baseAt s.sqrtPrice - baseAt floor) := by
    intro hin
    rw [← mass_above hv hs.placed hsegment hin hs.above]
    exact hs.remaining
  have habove : floor ≤ s'.sqrtPrice := by
    by_cases hin : m.boundary true s.idx ≤ floor
    · cases hturned with
      | inside hneeded hshort hnext hout =>
        obtain ⟨hreached, _⟩ := sell_next hl hs.placed.word hnext
        exact hreached ▸ sell_above_floor hpos hfloor hprice (hown hin)
      | @left needed out hneeded hpaid hout hend =>
        by_contra! hlt
        have hremaining := hown hin
        have hcast : (needed : ℚ) ≤ s.remaining := by exact_mod_cast hpaid
        rcases sell_needed hl hs.placed.word hneeded with ⟨hle, _⟩ | ⟨_, rfl⟩
        · have habove := hs.above
          have hbelow : m.boundary true s.idx < floor := hlt
          omega
        · have hcost := base_lt_needed hpos hlt hs.above
          linarith
    · exact (Nat.le_of_not_le hin).trans hdescended.stays
  constructor
  · exact hdescended.placed
  · exact habove
  · cases hturned with
    | inside => simpa using PoolConfigState.baseMass_nonneg hfloor habove
    | @left needed out hneeded hpaid hout hend =>
      have hcost : (segment.liquidity : ℚ) *
          (baseAt s.sqrtPrice - baseAt (m.boundary true s.idx)) ≤ needed := by
        rcases sell_needed hl hs.placed.word hneeded with ⟨hle, rfl⟩ | ⟨hlt, rfl⟩
        · have hsame : s.sqrtPrice = m.boundary true s.idx := le_antisymm hle hdescended.down
          simp [← hsame]
        · exact base_le_needed (lt_of_lt_of_le hfloor habove) hlt
      have hadd := pieceMass.add baseAt m.config.pieces floor (m.boundary true s.idx) s.sqrtPrice
      rw [mass_above hv hs.placed hsegment le_rfl hdescended.down] at hadd
      have hremaining := hs.remaining
      unfold PoolConfigState.baseMass at hremaining ⊢
      rw [Nat.cast_sub hpaid]
      linarith

theorem Bought.trans {c : PoolConfigState} {r s t : WalkState} (h : Bought c r s)
    (h' : Bought c s t) : Bought c r t where
  placed := h'.placed
  covered := h'.covered
  ahead := h.ahead.trans h'.ahead
  paid := by
    have hadd := pieceMass.add quoteAt c.pieces r.sqrtPrice s.sqrtPrice t.sqrtPrice
    have hfirst := h.paid
    have hsecond := h'.paid
    unfold PoolConfigState.quoteMass at *
    linarith
  gained hr := by
    have hadd := pieceMass.add baseAt c.pieces r.sqrtPrice s.sqrtPrice t.sqrtPrice
    have hfirst := h.gained hr
    have hsecond := h'.gained (lt_of_lt_of_le hr h.ahead)
    unfold PoolConfigState.baseMass at *
    linarith

theorem buy_run (hv : m.config.Valid) (hs : s.Placed m.config) (hcovered : s.Covered m.config)
    (h : (m.loop false amountIn).run s = .ok e) : Bought m.config s e ∧ e.remaining = 0 := by
  have hstart : Bought m.config s s := by
    constructor
    · exact hs
    · exact hcovered
    · exact le_rfl
    · simp [PoolConfigState.quoteMass]
    · simp [PoolConfigState.baseMass]
  obtain ⟨hbought, hdone⟩ := FallibleLoop.run_keeps
    (fun r r' hr _ hturn => hr.trans (buy_turn hv hr.placed hr.covered hturn)) h hstart
  exact ⟨hbought, of_decide_eq_true hdone⟩

/-- What a run of a sell does, beside the exact curve. -/
structure Sold (c : PoolConfigState) (s s' : WalkState) : Prop where
  placed : s'.Placed c
  down : s'.sqrtPrice ≤ s.sqrtPrice
  gained : (s'.totalOut : ℚ) ≤ s.totalOut + c.quoteMass s'.sqrtPrice s.sqrtPrice

theorem sell_run (hv : m.config.Valid) (hs : s.Placed m.config)
    (h : (m.loop true amountIn).run s = .ok e) : Sold m.config s e := by
  have hstart : Sold m.config s s := by
    constructor
    · exact hs
    · exact le_rfl
    · simp [PoolConfigState.quoteMass]
  have hkeeps : ∀ r r', Sold m.config s r → (m.loop true amountIn).done r = false →
      m.turn true amountIn r = .ok r' → Sold m.config s r' := by
    intro r r' hr hgoes hturn
    obtain ⟨segment, hsegment, _, hturned⟩ := turn_ok hturn
    have hrem : 0 < r.remaining := Nat.pos_of_ne_zero (of_decide_eq_false hgoes)
    have hdescended := sell_turn hv hr.placed hrem hsegment hturned
    have hmass := mass_above (φ := quoteAt) hv hr.placed hsegment hdescended.stays hdescended.down
    have hadd := pieceMass.add quoteAt m.config.pieces r'.sqrtPrice r.sqrtPrice s.sqrtPrice
    constructor
    · exact hdescended.placed
    · exact hdescended.down.trans hr.down
    · have hgained := hr.gained
      have hturned := hdescended.gained
      unfold PoolConfigState.quoteMass at *
      linarith
  exact (FallibleLoop.run_keeps hkeeps h hstart).1

theorem loop_goes (hrem : 0 < s.remaining) : (m.loop zeroForOne amountIn).done s = false :=
  decide_eq_false (by omega)

end DbcMarket
end ScreenerBot.Direct.Venues.Dbc
