import ScreenerBot.Direct.Venues.TickMonotone

/-! The walk against the exact curve: what it may overstate, and the bits it may drop. -/
namespace ScreenerBot.Direct.Venues
open ScreenerBot.Chain ScreenerBot.Library ScreenerBot.Swaps

namespace WalkRequest
variable {q : WalkRequest} {candidates rest : List InitializedTick} {liquidity p : ℕ}

/-- The change of liquidity at a crossing, in exact integers. -/
def exactDelta (zeroForOne : Bool) (tick : InitializedTick) : ℤ :=
  if zeroForOne then -tick.liquidityNet else tick.liquidityNet

/-- The piecewise curve of a price, a liquidity and the ticks ahead, without any rounding. -/
def exactCurve (zeroForOne : Bool) (liquidity : ℕ) (candidates : List InitializedTick) :
    List (Price zeroForOne × ExactStretch (Price zeroForOne)) :=
  exact (curveOf zeroForOne (· * q64) (exactDelta zeroForOne) liquidity candidates)

/-- The share of an input that the fee leaves. -/
def share (q : WalkRequest) : ℚ := ((q.denom : ℚ) - q.rate) / q.denom

/-- The state a turn ends in. -/
def Turn.state : Turn → WalkState
  | .crossed s => s
  | .ended s => s

/-- The turns of the walk. -/
def walkTurns (q : WalkRequest) (candidates : List InitializedTick) (liquidity p : ℕ) :
    List (InitializedTick × WalkState) :=
  turns q candidates (q.start liquidity p)

/-- The walk never overstates. -/
structure NeverOverstates (q : WalkRequest) (candidates : List InitializedTick)
    (liquidity p : ℕ) : Prop where
  /-- It yields no more than the exact curve does for the input after fees. -/
  output : ∀ out lpFee price, q.walkTicks candidates liquidity p = .ok (out, lpFee, price) →
    (out : ℚ) ≤ exactOut (exactCurve q.zeroForOne liquidity candidates) ⟨p⟩ (q.share * q.amountIn)
  /-- The input consumed up to a crossing pays for the exact way to it. -/
  paid : ∀ k e s', (walkTurns q candidates liquidity p)[k]? = some e →
    q.turn e.1 e.2 = .ok (.crossed s') →
    exactCost (exactCurve q.zeroForOne liquidity candidates) ⟨p⟩ (k + 1) ≤
      q.share * ((q.amountIn : ℚ) - s'.remaining)
  /-- No shift loses a bit of the liquidity. -/
  shifts : ∀ e ∈ walkTurns q candidates liquidity p, Shifts q e.1 e.2 →
    scaled e.2.liquidity = e.2.liquidity * 2 ^ 64
  /-- No negation wraps. -/
  negates : ∀ e ∈ walkTurns q candidates liquidity p, Negates q e.1 e.2 →
    crossingDelta q.zeroForOne e.1 = -e.1.liquidityNet
  /-- No sum leaves its word. -/
  sums : ∀ e ∈ walkTurns q candidates liquidity p, ∀ t, q.turn e.1 e.2 = .ok t →
    (Turn.state t).totalOut ≤ u128Max ∧ (Turn.state t).totalFee ≤ u128Max

/-- What the state before a turn must be: a liquidity that is shifted is below `2 ^ 64`, and a
net liquidity that is negated is not the least `i128`. -/
def Shiftable (q : WalkRequest) (tick : InitializedTick) (s : WalkState) : Prop :=
  (Shifts q tick s → s.liquidity < 2 ^ 64) ∧ (Negates q tick s → tick.liquidityNet ≠ -2 ^ 127)

/-- What one turn adds to the totals. -/
theorem turn_adds {tick : InitializedTick} {s : WalkState} {t : Turn}
    (hremaining : s.remaining ≤ u64Max) (h : q.turn tick s = .ok t) :
    (Turn.state t).totalOut ≤ s.totalOut + u64Max ∧
      (Turn.state t).totalFee ≤ s.totalFee + u64Max ∧ (Turn.state t).remaining ≤ s.remaining := by
  obtain ⟨m, hmove, h⟩ := bind_eq_ok.mp h
  have hout : ∀ {target out}, outputForMove q.zeroForOne s.liquidity s.sqrtPrice target = .ok out →
      out ≤ u64Max := by
    intro target out hout
    obtain ⟨wide, _, hout⟩ := bind_eq_ok.mp hout
    obtain rfl := Except.ok.inj hout
    exact min_le_right _ _
  cases m with
  | whole target amount gross =>
    obtain ⟨out, hmoved, h⟩ := bind_eq_ok.mp h
    obtain ⟨liquidity', _, h⟩ := bind_eq_ok.mp h
    obtain rfl := Except.ok.inj h
    have := hout hmoved
    simp only [Turn.state]
    omega
  | part swappable next =>
    obtain ⟨out, hmoved, h⟩ := bind_eq_ok.mp h
    obtain rfl := Except.ok.inj h
    have := hout hmoved
    simp only [Turn.state]
    omega
  | nothing =>
    obtain rfl := Except.ok.inj h
    simp only [Turn.state]
    omega

/-- The totals after any turn of a loop. -/
theorem turns_total : ∀ {candidates : List InitializedTick} {s : WalkState},
    s.remaining ≤ u64Max → ∀ e ∈ turns q candidates s, ∀ t, q.turn e.1 e.2 = .ok t →
      (Turn.state t).totalOut ≤ s.totalOut + candidates.length * u64Max ∧
        (Turn.state t).totalFee ≤ s.totalFee + candidates.length * u64Max := by
  intro candidates
  induction candidates with
  | nil => simp [turns]
  | cons tick rest ih =>
    intro s hremaining e he t ht
    simp only [turns] at he
    split_ifs at he with hstop
    · simp at he
    rw [List.length_cons, Nat.add_mul, Nat.one_mul]
    rcases List.mem_cons.mp he with rfl | he
    · have := turn_adds hremaining ht
      omega
    · cases hturn : q.turn tick s with
      | error err => simp [hturn] at he
      | ok first =>
        cases first with
        | ended s' => simp [hturn] at he
        | crossed s' =>
          have hfirst := turn_adds hremaining hturn
          rw [hturn] at he
          simp only [Turn.state] at hfirst
          have := ih (by omega) e he t ht
          omega

/-- A net liquidity of its own width. -/
def FitsI128 (tick : InitializedTick) : Prop :=
  -2 ^ 127 ≤ tick.liquidityNet ∧ tick.liquidityNet < 2 ^ 127

theorem crossingDelta_falling_iff {tick : InitializedTick} (htick : FitsI128 tick) :
    crossingDelta true tick = -tick.liquidityNet ↔ tick.liquidityNet ≠ -2 ^ 127 := by
  obtain ⟨hlow, hhigh⟩ := htick
  simp only [crossingDelta, ↓reduceIte]
  rw [wrapSigned_eq_self_iff 127]
  omega

theorem exactDelta_eq {tick : InitializedTick} {s : WalkState} (htick : FitsI128 tick)
    (h : Shiftable q tick s) (hneg : Negates q tick s ∨ q.zeroForOne = false) :
    exactDelta q.zeroForOne tick = crossingDelta q.zeroForOne tick := by
  rcases hneg with hneg | hrising
  · rw [hneg.1, (crossingDelta_falling_iff htick).mpr (h.2 hneg)]
    rfl
  · rw [hrising]
    rfl

/-- A turn that crosses has been paid the exact cost of its stretch. -/
theorem crossed_spec (hq : q.Valid) {tick : InitializedTick} {s s' : WalkState} (hs : s.Fits)
    (hp : 0 < s.sqrtPrice) (htick : FitsI128 tick) (hsound : Shiftable q tick s)
    (hmet : MetFrom q.zeroForOne s.sqrtPrice (tick :: rest))
    (h : q.turn tick s = .ok (.crossed s')) :
    getSqrtPriceAtTick tick.tick = some s'.sqrtPrice ∧
      crossWith (exactDelta q.zeroForOne) s.liquidity tick = some s'.liquidity ∧
      (exactStretch q.zeroForOne s.liquidity).cost ⟨s.sqrtPrice⟩ ⟨s'.sqrtPrice⟩ ≤
        q.share * ((s.remaining : ℚ) - s'.remaining) ∧ s'.Fits := by
  obtain ⟨m, hmove, h⟩ := bind_eq_ok.mp h
  cases move_spec hq hs hp hmove with
  | @whole target amount gross htarget hamount hgross hpaid =>
    obtain ⟨out, hout, h⟩ := bind_eq_ok.mp h
    obtain ⟨liquidity', hcross, h⟩ := bind_eq_ok.mp h
    obtain rfl := Turn.crossed.inj (Except.ok.inj h)
    obtain ⟨htarget0, htargetLe⟩ := getSqrtPriceAtTick_bounds htarget
    have hneg : Negates q tick s ∨ q.zeroForOne = false := by
      cases hz : q.zeroForOne with
      | true => exact Or.inl ⟨hz, target, amount, gross, out, hmove, hout⟩
      | false => exact Or.inr rfl
    obtain ⟨hcrossed, hliquidity'⟩ := crossTick_ok (exactDelta_eq htick hsound hneg) hcross
    refine ⟨htarget, hcrossed, ?_, ⟨hliquidity', htargetLe, (Nat.sub_le _ _).trans hs.remaining⟩⟩
    have hcost : (stretch q.zeroForOne (s.liquidity * q64) s.liquidity).cost ⟨s.sqrtPrice⟩
        ⟨target⟩ = amount := by
      rw [hamount]
      apply cost_congr
      intro hz hlt
      apply ((scaled_eq_iff _).mpr (hsound.1 _)).symm
      rw [Shifts, if_pos hz]
      exact ⟨target, htarget, hlt⟩
    have hexact := (stretch_rounds q.zeroForOne s.liquidity).cost_le (p := ⟨s.sqrtPrice⟩)
      (t := ⟨target⟩) hp htarget0 (hmet.ahead tick (by simp) target htarget)
    rw [hcost] at hexact
    have hunit : (amount : ℚ) ≤ q.share * gross := by
      rw [hgross]
      calc (amount : ℚ) ≤ (fee hq).net ((fee hq).gross amount) := by
            exact_mod_cast (fee hq).least.le_u_l amount
        _ ≤ q.share * (fee hq).gross amount := stepFee_net_le hq.rate _
    have hremaining : ((s.remaining - gross : ℕ) : ℚ) = (s.remaining : ℚ) - gross := by
      push_cast [hpaid]
      rfl
    simp only [hremaining]
    calc _ ≤ (amount : ℚ) := hexact
      _ ≤ q.share * gross := hunit
      _ = q.share * ((s.remaining : ℚ) - ((s.remaining : ℚ) - gross)) := by ring
  | part htarget hshort hsome hnext hfits =>
    obtain ⟨out, hout, h⟩ := bind_eq_ok.mp h
    simp at h
  | nothing htarget hshort hnone => simp at h

/-- The input consumed up to a crossing pays for the exact way to it. -/
theorem turns_paid (hq : q.Valid) : ∀ {candidates : List InitializedTick} {s : WalkState},
    s.Fits → MetFrom q.zeroForOne s.sqrtPrice candidates → (∀ tick ∈ candidates, FitsI128 tick) →
    (∀ e ∈ turns q candidates s, Shiftable q e.1 e.2) →
    ∀ (k : ℕ) (e : InitializedTick × WalkState) (s' : WalkState),
      (turns q candidates s)[k]? = some e →
      q.turn e.1 e.2 = .ok (.crossed s') →
      exactCost (exactCurve q.zeroForOne s.liquidity candidates) ⟨s.sqrtPrice⟩ (k + 1) ≤
        q.share * ((s.remaining : ℚ) - s'.remaining) := by
  intro candidates
  induction candidates with
  | nil => simp [turns]
  | cons tick rest ih =>
    intro s hs hmet hticks hsound k e s' hk hcross
    simp only [turns] at hk hsound
    split_ifs at hk hsound with hstop
    · simp at hk
    have hp : 0 < s.sqrtPrice := by omega
    rw [List.forall_mem_cons] at hsound hticks
    cases k with
    | zero =>
      obtain rfl : (tick, s) = e := by simpa using hk
      obtain ⟨htarget, _, hcost, _⟩ := crossed_spec hq hs hp hticks.1 hsound.1 hmet hcross
      simp only [exactCurve, curveOf, htarget, exact, List.map_cons, exactCost, exactCost_zero]
      linarith
    | succ k =>
      rw [List.getElem?_cons_succ] at hk
      cases hturn : q.turn tick s with
      | error err => simp [hturn] at hk
      | ok first =>
        cases first with
        | ended s1 => simp [hturn] at hk
        | crossed s1 =>
          rw [hturn] at hk hsound
          obtain ⟨htarget, hcrossed, hcost, hfits⟩ :=
            crossed_spec hq hs hp hticks.1 hsound.1 hmet hturn
          have hrest := ih hfits (hmet.tail htarget) hticks.2 hsound.2 k e s' hk hcross
          simp only [exactCurve, curveOf, htarget, hcrossed, exact, List.map_cons, exactCost]
          unfold exactCurve exact at hrest
          linarith

theorem mem_of_turns : ∀ {candidates : List InitializedTick} {s : WalkState},
    ∀ e ∈ turns q candidates s, e.1 ∈ candidates := by
  intro candidates
  induction candidates with
  | nil => simp [turns]
  | cons tick rest ih =>
    intro s e he
    simp only [turns] at he
    split_ifs at he with hstop
    · simp at he
    · rcases List.mem_cons.mp he with rfl | he
      · simp
      · cases hturn : q.turn tick s with
        | error err => simp [hturn] at he
        | ok first =>
          cases first with
          | ended s' => simp [hturn] at he
          | crossed s' =>
            rw [hturn] at he
            exact List.mem_cons_of_mem _ (ih e he)

/-- At a price of zero the exact curve still pays nothing negative for nothing. -/
theorem exactOut_at_zero {zeroForOne : Bool} (hmet : MetFrom zeroForOne 0 candidates) :
    0 ≤ exactOut (exactCurve zeroForOne liquidity candidates) ⟨0⟩ 0 := by
  cases candidates with
  | nil => exact le_refl 0
  | cons tick rest =>
    cases htarget : getSqrtPriceAtTick tick.tick with
    | none => simp [exactCurve, curveOf, htarget, exactOut]
    | some target =>
      have hpos := (getSqrtPriceAtTick_bounds htarget).1
      have hle := hmet.ahead tick (by simp) target htarget
      cases zeroForOne with
      | true =>
        rw [falling_le_iff] at hle
        omega
      | false =>
        have hrounds := @curveOf_rounds _ (exactDelta false) _ liquidity _ hmet
        have hvalid : Positive (⟨target⟩ : Price false) := hpos
        simp only [curveOf, htarget] at hrounds
        simp only [exactCurve, curveOf, htarget, exact, List.map_cons, exactOut, rising_exact_cost,
          rising_exact_gives, Nat.cast_zero, mul_zero, div_zero, zero_add]
        split_ifs with hpart
        · exact le_refl 0
        · exact exactOut_nonneg hvalid hrounds.2.2.2 (by linarith)

/-- The walk never overstates exactly when every turn it takes can shift and negate what it has. -/
theorem neverOverstates_iff (hq : q.Valid) (hl : liquidity ≤ u128Max) (hp : p ≤ u128Max)
    (hlength : candidates.length < 2 ^ 63) (hmet : MetFrom q.zeroForOne p candidates)
    (hticks : ∀ tick ∈ candidates, FitsI128 tick) :
    q.NeverOverstates candidates liquidity p ↔
      ∀ e ∈ walkTurns q candidates liquidity p, Shiftable q e.1 e.2 := by
  have hstart : (q.start liquidity p).Fits := ⟨hl, hp, hq.amountIn⟩
  constructor
  · intro h e he
    constructor
    · intro hshift
      exact (scaled_eq_iff _).mp (h.shifts e he hshift)
    · intro hneg
      have hdelta := h.negates e he hneg
      rw [hneg.1] at hdelta
      exact (crossingDelta_falling_iff (hticks _ (mem_of_turns e he))).mp hdelta
  · intro h
    constructor
    · intro out lpFee price hout
      obtain ⟨s, rest, hreached, rfl, rfl⟩ := walkTicks_ok hout
      by_cases hp0 : 0 < p
      · unfold reached at hreached
        rw [if_neg (by have := hq.rate; omega)] at hreached
        obtain ⟨g, hwalk, htotal, _⟩ := loop_walks hq (· * q64) (exactDelta q.zeroForOne) hreached
          hstart (fun e he hshift => ((scaled_eq_iff _).mpr ((h e he).1 hshift)).symm)
          (fun e he hneg => exactDelta_eq (hticks _ (mem_of_turns e he)) (h e he) hneg)
        have hexact := hwalk.le_exactOut (stepFee_net_le hq.rate) hp0
          (curveOf_rounds (exactDelta q.zeroForOne) hmet) (le_refl _)
        have hcut : ((min s.totalOut u64Max : ℕ) : ℚ) ≤ g := by
          rw [htotal]
          simp only [start, Nat.zero_add]
          exact_mod_cast min_le_left _ _
        exact hcut.trans hexact
      · obtain rfl : p = 0 := by omega
        have hnone := amountIn_zero hreached
        rw [(reached_zero hnone hreached).1, hnone]
        simpa [start] using exactOut_at_zero hmet
    · exact turns_paid hq hstart hmet hticks h
    · intro e he hshift
      exact (scaled_eq_iff _).mpr ((h e he).1 hshift)
    · intro e he hneg
      have hdelta := (crossingDelta_falling_iff (hticks _ (mem_of_turns e he))).mpr
        ((h e he).2 hneg)
      rwa [hneg.1]
    · intro e he t ht
      have htotal := turns_total hq.amountIn e he t ht
      have hbound : candidates.length * u64Max ≤ u128Max := by
        calc candidates.length * u64Max ≤ 2 ^ 63 * u64Max := Nat.mul_le_mul_right _ hlength.le
          _ ≤ u128Max := by decide
      simp only [start] at htotal
      omega

/-- A thousand units over the tick at -100. -/
theorem neverOverstates_thousand :
    (quarterPercent.withAmount 1000).NeverOverstates [⟨-100, 0⟩] (2 ^ 60) (2 ^ 64) := by
  have hmet : MetFrom true (2 ^ 64) [⟨-100, 0⟩] := by
    refine ⟨by simp, ?_⟩
    intro tick htick target htarget
    obtain rfl : tick = ⟨-100, 0⟩ := by simpa using htick
    have hprice : getSqrtPriceAtTick (-100) = some 18354745142194513203 := by decide +kernel
    rw [hprice] at htarget
    obtain rfl := Option.some.inj htarget
    exact falling_le_iff.mpr (by norm_num)
  apply (neverOverstates_iff ⟨by decide, by decide, by decide⟩ (by decide) (by decide) (by decide)
    hmet (by simp [FitsI128])).mpr
  have hturns : walkTurns (quarterPercent.withAmount 1000) [⟨-100, 0⟩] (2 ^ 60) (2 ^ 64) =
      [(⟨-100, 0⟩, (quarterPercent.withAmount 1000).start (2 ^ 60) (2 ^ 64))] := by
    decide +kernel
  rw [hturns]
  intro e he
  obtain rfl := List.mem_singleton.mp he
  exact ⟨fun _ => by norm_num [start], fun _ => by norm_num⟩

/-- A swap of one unit without a fee. -/
def oneUnit : WalkRequest :=
  { pool := "pool", rate := 0, denom := 1000000, zeroForOne := true, amountIn := 1 }

/-- A liquidity of `2 ^ 64` shifts to nothing: its stretch is crossed for free, and one unit is
quoted more than ninety quadrillions. -/
theorem stretch_crossed_for_free :
    ¬ oneUnit.NeverOverstates [⟨-100, 2 ^ 64 - 2 ^ 40⟩, ⟨-200, 0⟩] (2 ^ 64) (2 ^ 64) := by
  intro h
  have hout := h.output 91998931515038413 0 18354745142177902915 (by decide +kernel)
  have hexact : exactOut (exactCurve oneUnit.zeroForOne (2 ^ 64)
      [⟨-100, 2 ^ 64 - 2 ^ 40⟩, ⟨-200, 0⟩]) ⟨2 ^ 64⟩
        (oneUnit.share * (oneUnit.amountIn : ℕ)) ≤ 1 := by
    decide +kernel
  have := hout.trans hexact
  norm_num at this

end WalkRequest
end ScreenerBot.Direct.Venues
