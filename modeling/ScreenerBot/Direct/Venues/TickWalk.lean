import ScreenerBot.Direct.Venues.TickPrice
import ScreenerBot.Direct.Venues.TickSteps
import ScreenerBot.Library.Fallible

/-!
The loop over the ticks as a walk along stretches of a curve.

The formulas are first put into the closed form of a stretch; a loop that succeeds is then a walk
along the stretches between its ticks.
-/
namespace ScreenerBot.Direct.Venues
open ScreenerBot.Chain ScreenerBot.Library ScreenerBot.Swaps

theorem shift_one : 1 <<< 64 = q64 := by decide

theorem q64_le : q64 ≤ u128Max := by decide

theorem scaled_le (liquidity : ℕ) : scaled liquidity ≤ u128Max := by
  have : scaled liquidity < 2 ^ 128 := Nat.mod_lt _ (by norm_num)
  unfold u128Max
  omega

theorem scaled_eq_iff (liquidity : ℕ) :
    scaled liquidity = liquidity * q64 ↔ liquidity < 2 ^ 64 := by
  unfold scaled wrapUnsigned q64
  rw [Nat.shiftLeft_eq]
  constructor
  · intro h
    have := Nat.mod_lt (liquidity * 2 ^ 64) (show 0 < 2 ^ 128 by norm_num)
    omega
  · intro h
    apply Nat.mod_eq_of_lt
    omega

/-- The stretch of a liquidity, as the source computes on it. -/
abbrev ownStretch (zeroForOne : Bool) (liquidity : ℕ) : Stretch (Price zeroForOne) :=
  stretch zeroForOne (scaled liquidity) liquidity

section Formulas
variable {zeroForOne : Bool} {liquidity p t s a : ℕ}

theorem inputForMove_eq (hl : liquidity ≤ u128Max) (hp : p ≤ u128Max) (ht : t ≤ u128Max)
    (hp0 : 0 < p) (ht0 : 0 < t) (h : inputForMove zeroForOne liquidity p t = .ok a) :
    a = (ownStretch zeroForOne liquidity).cost ⟨p⟩ ⟨t⟩ := by
  cases zeroForOne with
  | true =>
    simp only [inputForMove, ↓reduceIte] at h
    split_ifs at h with hle
    · obtain rfl := Except.ok.inj h
      simp [ownStretch, Nat.sub_eq_zero_of_le hle]
    · obtain ⟨step1, hstep, ha⟩ := bind_eq_ok.mp h
      rw [okOr_eq_ok, mulDivCeil_eq_some (scaled_le _) (by omega) hp] at hstep
      obtain ⟨_, rfl, _⟩ := hstep
      obtain rfl := Except.ok.inj ha
      rw [ceilDiv, if_neg (by omega), max_eq_left ht0, ceilDiv_ceilDiv _ hp0 ht0]
      rfl
  | false =>
    simp only [inputForMove, Bool.false_eq_true, ↓reduceIte] at h
    split_ifs at h with hle
    · obtain rfl := Except.ok.inj h
      simp [ownStretch, Nat.sub_eq_zero_of_le hle]
    · rw [okOr_eq_ok, shift_one, mulDivCeil_eq_some hl (by omega) q64_le] at h
      exact h.2.1

theorem nextSqrtPrice_eq (hl : liquidity ≤ u128Max) (hp : p ≤ u128Max) (hs : s ≤ u128Max)
    (h : nextSqrtPriceFromInput zeroForOne liquidity p s = .ok a) :
    (⟨a⟩ : Price zeroForOne) = (ownStretch zeroForOne liquidity).reach ⟨p⟩ s ∧ a ≤ u128Max := by
  cases zeroForOne with
  | true =>
    simp only [nextSqrtPriceFromInput, ↓reduceIte] at h
    obtain ⟨product, hproduct, h⟩ := bind_eq_ok.mp h
    obtain ⟨denominator, hdenominator, h⟩ := bind_eq_ok.mp h
    rw [okOr_eq_ok, checkedRaw_eq_some] at hproduct hdenominator
    obtain ⟨rfl, _⟩ := hproduct
    obtain ⟨rfl, hfits⟩ := hdenominator
    rw [okOr_eq_ok, mulDivCeil_eq_some (scaled_le _) hp hfits] at h
    obtain ⟨_, rfl, hle⟩ := h
    exact ⟨rfl, hle⟩
  | false =>
    simp only [nextSqrtPriceFromInput, Bool.false_eq_true, ↓reduceIte] at h
    obtain ⟨delta, hdelta, h⟩ := bind_eq_ok.mp h
    rw [okOr_eq_ok, shift_one, mulDivFloor_eq_some hs q64_le hl] at hdelta
    obtain ⟨_, rfl, _⟩ := hdelta
    rw [okOr_eq_ok, checkedRaw_eq_some] at h
    obtain ⟨rfl, hle⟩ := h
    exact ⟨rfl, hle⟩

theorem outputForMove_eq (hl : liquidity ≤ u128Max) (hp : p ≤ u128Max) (ht : t ≤ u128Max)
    (hp0 : 0 < p) (h : outputForMove zeroForOne liquidity p t = .ok a) :
    a = min ((ownStretch zeroForOne liquidity).pay ⟨p⟩ ⟨t⟩) u64Max := by
  unfold outputForMove at h
  obtain ⟨out, hout, ha⟩ := bind_eq_ok.mp h
  obtain rfl := Except.ok.inj ha
  cases zeroForOne with
  | true =>
    simp only [wideOutputForMove, ↓reduceIte] at hout
    rw [okOr_eq_ok, shift_one, mulDivFloor_eq_some hl (by omega) q64_le] at hout
    obtain ⟨_, rfl, _⟩ := hout
    rfl
  | false =>
    simp only [wideOutputForMove, Bool.false_eq_true, ↓reduceIte] at hout
    obtain ⟨intermediate, hint, hout⟩ := bind_eq_ok.mp hout
    rw [okOr_eq_ok, mulDivFloor_eq_some (scaled_le _) (by omega) ht] at hint
    obtain ⟨_, rfl, _⟩ := hint
    obtain rfl := Except.ok.inj hout
    rw [max_eq_left hp0, Nat.div_div_eq_div_mul]
    rfl

end Formulas

/-- A fee of `rate` per `denom`, charged on each step. -/
def stepFee (rate denom : ℕ) (h : rate < denom) : Fee where
  gross a := a * denom ⌈/⌉ (denom - rate)
  net r := r * (denom - rate) / denom
  least a r := by
    rw [ceilDiv_le_iff_le_mul (by omega), Nat.le_div_iff_mul_le (by omega), Nat.mul_comm r]
  net_add a b := by
    rw [Nat.add_mul]
    exact Nat.div_add_div_le_add_div

theorem stepFee_net_le {rate denom : ℕ} (h : rate < denom) (r : ℕ) :
    ((stepFee rate denom h).net r : ℚ) ≤ ((denom : ℚ) - rate) / denom * r := by
  calc (((stepFee rate denom h).net r : ℕ) : ℚ) ≤ (r * (denom - rate) : ℕ) / (denom : ℕ) :=
        Nat.cast_div_le
    _ = ((denom : ℚ) - rate) / denom * r := by
      push_cast [h.le]
      ring

/-- The values of a walk fit the words that hold them. -/
structure WalkState.Fits (s : WalkState) : Prop where
  liquidity : s.liquidity ≤ u128Max
  sqrtPrice : s.sqrtPrice ≤ u128Max
  remaining : s.remaining ≤ u64Max

/-- A fee rate below its denominator, and amounts of their own widths. -/
structure WalkRequest.Valid (q : WalkRequest) : Prop where
  rate : q.rate < q.denom
  denom : q.denom ≤ u64Max
  amountIn : q.amountIn ≤ u64Max

namespace WalkRequest
variable {q : WalkRequest} {tick : InitializedTick} {s s' : WalkState}

abbrev fee (hq : q.Valid) : Fee := stepFee q.rate q.denom hq.rate

theorem grossUp_eq (hq : q.Valid) {a g : ℕ} (ha : a ≤ u128Max) (h : q.grossUp a = .ok g) :
    g = (fee hq).gross a := by
  have hdenom : q.denom ≤ u128Max := hq.denom.trans (by decide)
  unfold grossUp at h
  split_ifs at h with hzero
  · obtain rfl := Except.ok.inj h
    simp [fee, stepFee, hzero]
  · rw [okOr_eq_ok, mulDivCeil_eq_some ha hdenom (by omega)] at h
    exact h.2.1

/-- What a turn knows once it has decided how far to move. -/
inductive MoveSpec (hq : q.Valid) (tick : InitializedTick) (s : WalkState) : Move → Prop
  | whole {target amount gross} (htarget : getSqrtPriceAtTick tick.tick = some target)
      (hamount : amount = (ownStretch q.zeroForOne s.liquidity).cost ⟨s.sqrtPrice⟩ ⟨target⟩)
      (hgross : gross = (fee hq).gross amount) (hpaid : gross ≤ s.remaining) :
      MoveSpec hq tick s (.whole target amount gross)
  | part {target next} (htarget : getSqrtPriceAtTick tick.tick = some target)
      (hshort : s.remaining < (fee hq).gross
        ((ownStretch q.zeroForOne s.liquidity).cost ⟨s.sqrtPrice⟩ ⟨target⟩))
      (hsome : 0 < (fee hq).net s.remaining)
      (hnext : (⟨next⟩ : Price q.zeroForOne) =
        (ownStretch q.zeroForOne s.liquidity).reach ⟨s.sqrtPrice⟩ ((fee hq).net s.remaining))
      (hfits : next ≤ u128Max) : MoveSpec hq tick s (.part ((fee hq).net s.remaining) next)
  | nothing {target} (htarget : getSqrtPriceAtTick tick.tick = some target)
      (hshort : s.remaining < (fee hq).gross
        ((ownStretch q.zeroForOne s.liquidity).cost ⟨s.sqrtPrice⟩ ⟨target⟩))
      (hnone : (fee hq).net s.remaining = 0) : MoveSpec hq tick s .nothing

theorem inputForMove_le {zeroForOne : Bool} {liquidity p t a : ℕ}
    (hl : liquidity ≤ u128Max) (hp : p ≤ u128Max) (ht : t ≤ u128Max)
    (h : inputForMove zeroForOne liquidity p t = .ok a) : a ≤ u128Max := by
  cases zeroForOne with
  | true =>
    simp only [inputForMove, ↓reduceIte] at h
    split_ifs at h with hle
    · obtain rfl := Except.ok.inj h
      exact Nat.zero_le _
    · obtain ⟨step1, hstep, ha⟩ := bind_eq_ok.mp h
      rw [okOr_eq_ok, mulDivCeil_eq_some (scaled_le _) (by omega) hp] at hstep
      obtain rfl := Except.ok.inj ha
      rw [ceilDiv, if_neg (by omega), ceilDiv_le_iff_le_mul (by omega)]
      calc step1 ≤ u128Max := hstep.2.2
        _ ≤ max t 1 * u128Max := Nat.le_mul_of_pos_left _ (by omega)
  | false =>
    simp only [inputForMove, Bool.false_eq_true, ↓reduceIte] at h
    split_ifs at h with hle
    · obtain rfl := Except.ok.inj h
      exact Nat.zero_le _
    · rw [okOr_eq_ok, shift_one, mulDivCeil_eq_some hl (by omega) q64_le] at h
      exact h.2.2

theorem move_spec (hq : q.Valid) (hs : s.Fits) (hp : 0 < s.sqrtPrice) {m : Move}
    (h : q.move tick s = .ok m) : MoveSpec hq tick s m := by
  obtain ⟨target, htarget, h⟩ := bind_eq_ok.mp h
  obtain ⟨amount, hamount, h⟩ := bind_eq_ok.mp h
  obtain ⟨gross, hgross, h⟩ := bind_eq_ok.mp h
  rw [okOr_eq_ok] at htarget
  obtain ⟨htarget0, htargetLe⟩ := getSqrtPriceAtTick_bounds htarget
  have hcost := inputForMove_eq hs.liquidity hs.sqrtPrice htargetLe hp htarget0 hamount
  have hdenom : q.denom ≤ u128Max := hq.denom.trans (by decide)
  have hremaining : s.remaining ≤ u128Max := hs.remaining.trans (by decide)
  have hgross := grossUp_eq hq (inputForMove_le hs.liquidity hs.sqrtPrice htargetLe hamount) hgross
  split_ifs at h with hpaid
  · obtain rfl := Except.ok.inj h
    exact .whole htarget hcost hgross hpaid
  · obtain ⟨swappable, hswap, h⟩ := bind_eq_ok.mp h
    rw [okOr_eq_ok, mulDivFloor_eq_some hremaining (by omega) hdenom] at hswap
    obtain ⟨_, hswap, hswapLe⟩ := hswap
    have hnet : swappable = (fee hq).net s.remaining := hswap
    have hshort : s.remaining < (fee hq).gross
        ((ownStretch q.zeroForOne s.liquidity).cost ⟨s.sqrtPrice⟩ ⟨target⟩) := by
      rw [← hcost, ← hgross]
      omega
    split_ifs at h with hzero
    · obtain rfl := Except.ok.inj h
      exact .nothing htarget hshort (hnet ▸ hzero)
    · obtain ⟨next, hnext, h⟩ := bind_eq_ok.mp h
      obtain rfl := Except.ok.inj h
      obtain ⟨hreach, hfits⟩ := nextSqrtPrice_eq hs.liquidity hs.sqrtPrice hswapLe hnext
      subst hnet
      exact .part htarget hshort (by omega) hreach hfits

/-- The turns a loop takes, each with the state before it. -/
def turns (q : WalkRequest) : List InitializedTick → WalkState → List (InitializedTick × WalkState)
  | [], _ => []
  | tick :: rest, s =>
    if s.remaining = 0 ∨ s.liquidity = 0 ∨ s.sqrtPrice = 0 then []
    else (tick, s) ::
      match q.turn tick s with
      | .ok (.crossed s') => turns q rest s'
      | _ => []

/-- A turn shifts its liquidity: on the way down to price the way to the tick, on the way up to
price the move it makes. -/
def Shifts (q : WalkRequest) (tick : InitializedTick) (s : WalkState) : Prop :=
  if q.zeroForOne then ∃ target, getSqrtPriceAtTick tick.tick = some target ∧ target < s.sqrtPrice
  else ∃ m, q.move tick s = .ok m ∧ m ≠ .nothing

/-- A turn on the way down that gets to its crossing negates the tick's net liquidity. -/
def Negates (q : WalkRequest) (tick : InitializedTick) (s : WalkState) : Prop :=
  q.zeroForOne = true ∧ ∃ target amount gross out,
    q.move tick s = .ok (.whole target amount gross) ∧
    outputForMove q.zeroForOne s.liquidity s.sqrtPrice target = .ok out

/-- The liquidity beyond a tick, when a `u128` holds it. -/
def crossWith (delta : InitializedTick → ℤ) (liquidity : ℕ) (tick : InitializedTick) : Option ℕ :=
  if 0 ≤ (liquidity : ℤ) + delta tick ∧ (liquidity : ℤ) + delta tick ≤ u128Max then
    some ((liquidity : ℤ) + delta tick).toNat
  else none

/-- The stretches between ticks, for a way of shifting a liquidity and of crossing a tick. -/
def curveOf (zeroForOne : Bool) (num : ℕ → ℕ) (delta : InitializedTick → ℤ) :
    ℕ → List InitializedTick →
      List (Price zeroForOne × Stretch (Price zeroForOne) × ExactStretch (Price zeroForOne))
  | _, [] => []
  | liquidity, tick :: rest =>
    match getSqrtPriceAtTick tick.tick with
    | none => []
    | some target =>
      (⟨target⟩, stretch zeroForOne (num liquidity) liquidity, exactStretch zeroForOne liquidity) ::
        match crossWith delta liquidity tick with
        | none => []
        | some crossed => curveOf zeroForOne num delta crossed rest

theorem cost_congr {zeroForOne : Bool} {n m liquidity p t : ℕ}
    (h : zeroForOne = true → t < p → n = m) :
    (stretch zeroForOne n liquidity).cost ⟨p⟩ ⟨t⟩ =
    (stretch zeroForOne m liquidity).cost ⟨p⟩ ⟨t⟩ := by
  cases zeroForOne with
  | true =>
    by_cases hlt : t < p
    · rw [h rfl hlt]
    · simp [Nat.sub_eq_zero_of_le (not_lt.mp hlt)]
  | false => rfl

theorem pay_congr {zeroForOne : Bool} {n m liquidity p t : ℕ}
    (h : zeroForOne = false → n = m) :
    (stretch zeroForOne n liquidity).pay ⟨p⟩ ⟨t⟩ =
    (stretch zeroForOne m liquidity).pay ⟨p⟩ ⟨t⟩ := by
  cases zeroForOne with
  | true => rfl
  | false => rw [h rfl]

/-- On the way down only a tick below the price costs anything. -/
theorem below_of_short (hq : q.Valid) {n liquidity p t r : ℕ} (hz : q.zeroForOne = true)
    (h : r < (fee hq).gross ((stretch q.zeroForOne n liquidity).cost ⟨p⟩ ⟨t⟩)) : t < p := by
  by_contra! hle
  have hzero : (stretch q.zeroForOne n liquidity).cost ⟨p⟩ ⟨t⟩ = 0 := by
    rw [hz]
    simp [Nat.sub_eq_zero_of_le hle]
  rw [hzero] at h
  simp [fee, stepFee] at h

theorem crossTick_ok {pool : String} {liquidity liquidity' : ℕ} {zeroForOne : Bool}
    {delta : InitializedTick → ℤ} (hdelta : delta tick = crossingDelta zeroForOne tick)
    (h : crossTick pool liquidity tick zeroForOne = .ok liquidity') :
    crossWith delta liquidity tick = some liquidity' ∧ liquidity' ≤ u128Max := by
  simp only [crossTick] at h
  split_ifs at h with hfits
  obtain rfl := Except.ok.inj h
  unfold crossWith
  rw [hdelta, if_pos hfits]
  exact ⟨rfl, by omega⟩

/-- A loop that succeeds is a walk along the stretches, as long as no turn shifts or negates
otherwise than they do. -/
theorem loop_walks (hq : q.Valid) (num : ℕ → ℕ) (delta : InitializedTick → ℤ) :
    ∀ {candidates : List InitializedTick} {s s' : WalkState} {rest : List InitializedTick},
      q.loop candidates s = .ok (s', rest) → s.Fits →
      (∀ e ∈ turns q candidates s, Shifts q e.1 e.2 → num e.2.liquidity = scaled e.2.liquidity) →
      (∀ e ∈ turns q candidates s, Negates q e.1 e.2 ∨ q.zeroForOne = false →
        delta e.1 = crossingDelta q.zeroForOne e.1) →
      ∃ g, Walks (fee hq) u64Max (rounded (curveOf q.zeroForOne num delta s.liquidity candidates))
          ⟨s.sqrtPrice⟩ s.remaining g ⟨s'.sqrtPrice⟩
          (rounded (curveOf q.zeroForOne num delta s'.liquidity rest)) ∧
        s'.totalOut = s.totalOut + g ∧ s'.Fits := by
  intro candidates
  induction candidates with
  | nil =>
    intro s s' rest h hs _ _
    simp only [loop] at h
    split_ifs at h with hdone hdry
    obtain ⟨rfl, rfl⟩ := Prod.mk.inj (Except.ok.inj h)
    exact ⟨0, .spent hdone, by simp, hs⟩
  | cons tick ticks ih =>
    intro s s' rest h hs hshift hdelta
    simp only [loop] at h
    split_ifs at h with hdone hdry
    · obtain ⟨rfl, rfl⟩ := Prod.mk.inj (Except.ok.inj h)
      exact ⟨0, .spent hdone, by simp, hs⟩
    obtain ⟨t, hturn, h⟩ := bind_eq_ok.mp h
    have hp : 0 < s.sqrtPrice := by omega
    have hgo : ¬ (s.remaining = 0 ∨ s.liquidity = 0 ∨ s.sqrtPrice = 0) := by tauto
    simp only [turns, if_neg hgo, hturn, List.mem_cons, forall_eq_or_imp] at hshift hdelta
    obtain ⟨m, hmove, hturn⟩ := bind_eq_ok.mp hturn
    cases move_spec hq hs hp hmove with
    | @whole target amount gross htarget hamount hgross hpaid =>
      obtain ⟨out, hout, hturn⟩ := bind_eq_ok.mp hturn
      obtain ⟨liquidity', hcross, hturn⟩ := bind_eq_ok.mp hturn
      obtain rfl := Except.ok.inj hturn
      obtain ⟨htarget0, htargetLe⟩ := getSqrtPriceAtTick_bounds htarget
      have hpay := outputForMove_eq hs.liquidity hs.sqrtPrice htargetLe hp hout
      have hneg : Negates q tick s ∨ q.zeroForOne = false := by
        cases hz : q.zeroForOne with
        | true => exact Or.inl ⟨hz, target, amount, gross, out, hmove, hout⟩
        | false => exact Or.inr rfl
      obtain ⟨hcrossed, hliquidity'⟩ := crossTick_ok (hdelta.1 hneg) hcross
      obtain ⟨g, hwalk, htotal, hfits⟩ := ih h
        ⟨hliquidity', htargetLe, (Nat.sub_le _ _).trans hs.remaining⟩ hshift.2 hdelta.2
      -- The stretch of the curve costs and pays what the turn computed.
      have hcost : (stretch q.zeroForOne (num s.liquidity) s.liquidity).cost
        ⟨s.sqrtPrice⟩ ⟨target⟩ =
          amount := by
        rw [hamount]
        apply cost_congr
        intro hz hlt
        apply hshift.1
        rw [Shifts, if_pos hz]
        exact ⟨target, htarget, hlt⟩
      have hpaid' : (stretch q.zeroForOne (num s.liquidity) s.liquidity).pay
        ⟨s.sqrtPrice⟩ ⟨target⟩ =
          (ownStretch q.zeroForOne s.liquidity).pay ⟨s.sqrtPrice⟩ ⟨target⟩ := by
        apply pay_congr
        intro hz
        apply hshift.1
        rw [Shifts, if_neg (by simp [hz])]
        exact ⟨_, hmove, by simp⟩
      refine ⟨min ((ownStretch q.zeroForOne s.liquidity).pay ⟨s.sqrtPrice⟩ ⟨target⟩) u64Max + g,
        ?_, ?_, hfits⟩
      · simp only [rounded, curveOf, htarget, hcrossed, List.map_cons]
        rw [← hpaid']
        apply Walks.crossed (by omega)
        · rw [hcost, ← hgross]
          exact hpaid
        · rw [hcost, ← hgross]
          exact hwalk
      · rw [htotal, hpay]
        simp only []
        omega
    | @part target next htarget hshort hsome hnext hfits =>
      obtain ⟨out, hout, hturn⟩ := bind_eq_ok.mp hturn
      obtain rfl := Except.ok.inj hturn
      obtain ⟨rfl, rfl⟩ := Prod.mk.inj (Except.ok.inj h)
      have hpay := outputForMove_eq hs.liquidity hs.sqrtPrice hfits hp hout
      have hown : num s.liquidity = scaled s.liquidity := by
        apply hshift.1
        unfold Shifts
        split_ifs with hz
        · exact ⟨target, htarget, below_of_short hq hz hshort⟩
        · exact ⟨_, hmove, by simp⟩
      refine ⟨out, ?_, rfl, ⟨hs.liquidity, hfits, Nat.zero_le _⟩⟩
      simp only [rounded, curveOf, htarget, List.map_cons]
      rw [hnext, hpay, hnext, hown]
      exact .moved hshort hsome
    | @nothing target htarget hshort hnone =>
      obtain rfl := Except.ok.inj hturn
      obtain ⟨rfl, rfl⟩ := Prod.mk.inj (Except.ok.inj h)
      refine ⟨0, ?_, rfl, ⟨hs.liquidity, hs.sqrtPrice, hs.remaining⟩⟩
      simp only [rounded, curveOf, htarget, List.map_cons]
      apply Walks.dust _ hnone
      rw [cost_congr]
      · exact hshort
      · intro hz hlt
        apply hshift.1
        rw [Shifts, if_pos hz]
        exact ⟨target, htarget, hlt⟩

/-- Ticks in the order a walk meets them, none of them behind its price. -/
structure MetFrom (zeroForOne : Bool) (sqrtPrice : ℕ) (candidates : List InitializedTick) :
    Prop where
  ordered : candidates.Pairwise fun a b => if zeroForOne then b.tick ≤ a.tick else a.tick ≤ b.tick
  ahead : ∀ tick ∈ candidates, ∀ target, getSqrtPriceAtTick tick.tick = some target →
    (⟨sqrtPrice⟩ : Price zeroForOne) ≤ ⟨target⟩

/-- Ticks in order have their prices in order. -/
theorem price_le {zeroForOne : Bool} {a b : InitializedTick} {p t : ℕ}
    (hab : if zeroForOne then b.tick ≤ a.tick else a.tick ≤ b.tick)
    (hp : getSqrtPriceAtTick a.tick = some p) (ht : getSqrtPriceAtTick b.tick = some t) :
    (⟨p⟩ : Price zeroForOne) ≤ ⟨t⟩ := by
  cases zeroForOne with
  | true => exact getSqrtPriceAtTick_mono ht hp hab
  | false => exact getSqrtPriceAtTick_mono hp ht hab

theorem MetFrom.tail {zeroForOne : Bool} {p t : ℕ} {rest : List InitializedTick}
    (h : MetFrom zeroForOne p (tick :: rest)) (ht : getSqrtPriceAtTick tick.tick = some t) :
    MetFrom zeroForOne t rest := by
  obtain ⟨hhead, htail⟩ := List.pairwise_cons.mp h.ordered
  exact ⟨htail, fun next hnext target htarget => price_le (hhead next hnext) ht htarget⟩

theorem curveOf_ahead {zeroForOne : Bool} (num : ℕ → ℕ) (delta : InitializedTick → ℤ)
    {candidates : List InitializedTick} {liquidity p : ℕ} (h : MetFrom zeroForOne p candidates) :
    Ahead Positive ⟨p⟩ (rounded (curveOf zeroForOne num delta liquidity candidates)) := by
  induction candidates generalizing liquidity p with
  | nil => exact trivial
  | cons tick rest ih =>
    cases htarget : getSqrtPriceAtTick tick.tick with
    | none => simp [curveOf, htarget, Ahead]
    | some target =>
      have hle := h.ahead tick (by simp) target htarget
      have hpos := (getSqrtPriceAtTick_bounds htarget).1
      simp only [rounded, curveOf, htarget, List.map_cons]
      refine ⟨hle, hpos, stretch_lawful _ _ _, ?_⟩
      cases crossWith delta liquidity tick with
      | none => exact trivial
      | some crossed => exact ih (h.tail htarget)

theorem curveOf_rounds {zeroForOne : Bool} (delta : InitializedTick → ℤ)
    {candidates : List InitializedTick} {liquidity p : ℕ} (h : MetFrom zeroForOne p candidates) :
    RoundsAll Positive ⟨p⟩ (curveOf zeroForOne (· * q64) delta liquidity candidates) := by
  induction candidates generalizing liquidity p with
  | nil => exact trivial
  | cons tick rest ih =>
    cases htarget : getSqrtPriceAtTick tick.tick with
    | none => simp [curveOf, htarget, RoundsAll]
    | some target =>
      have hle := h.ahead tick (by simp) target htarget
      have hpos := (getSqrtPriceAtTick_bounds htarget).1
      simp only [curveOf, htarget]
      refine ⟨hle, hpos, stretch_rounds _ _, ?_⟩
      cases crossWith delta liquidity tick with
      | none => exact trivial
      | some crossed => exact ih (h.tail htarget)

/-- The ends of the stretches are prices of the ticks. -/
theorem curveOf_ends {zeroForOne : Bool} (num : ℕ → ℕ) (delta : InitializedTick → ℤ)
    {candidates : List InitializedTick} {liquidity : ℕ} :
    ∀ e ∈ rounded (curveOf zeroForOne num delta liquidity candidates),
      ∃ tick ∈ candidates, getSqrtPriceAtTick tick.tick = some e.1.value := by
  induction candidates generalizing liquidity with
  | nil => simp [curveOf]
  | cons tick rest ih =>
    intro e he
    cases htarget : getSqrtPriceAtTick tick.tick with
    | none => simp [curveOf, htarget] at he
    | some target =>
      simp only [rounded, curveOf, htarget, List.map_cons, List.mem_cons] at he
      rcases he with rfl | he
      · exact ⟨tick, by simp, htarget⟩
      · cases hcross : crossWith delta liquidity tick with
        | none => simp [hcross] at he
        | some crossed =>
          rw [hcross] at he
          obtain ⟨next, hnext, hprice⟩ := ih e he
          exact ⟨next, by simp [hnext], hprice⟩

/-- The walk a successful request is, along the stretches as the source computes them. -/
theorem reached_walks (hq : q.Valid) {candidates rest : List InitializedTick} {liquidity p : ℕ}
    (hl : liquidity ≤ u128Max) (hp : p ≤ u128Max)
    (h : q.reached candidates liquidity p = .ok (s', rest)) :
    Walks (fee hq) u64Max
        (rounded (curveOf q.zeroForOne scaled (crossingDelta q.zeroForOne) liquidity candidates))
        ⟨p⟩ q.amountIn s'.totalOut ⟨s'.sqrtPrice⟩
        (rounded (curveOf q.zeroForOne scaled (crossingDelta q.zeroForOne) s'.liquidity rest)) ∧
      s'.Fits := by
  unfold reached at h
  rw [if_neg (by have := hq.rate; omega)] at h
  obtain ⟨g, hwalk, htotal, hfits⟩ := loop_walks hq scaled (crossingDelta q.zeroForOne) h
    ⟨hl, hp, hq.amountIn⟩ (fun _ _ _ => rfl) (fun _ _ _ => rfl)
  simp only [start, Nat.zero_add] at hwalk htotal
  rw [htotal]
  exact ⟨hwalk, hfits⟩

end WalkRequest
end ScreenerBot.Direct.Venues
