import ScreenerBot.Direct.Venues.DlmmWalk

/-!
Runs of the DLMM walk: what the bins took and gave, a larger input against a smaller one, and when
the rate of a bin is the documented one.
-/
namespace ScreenerBot.Direct.Venues.Dlmm
open ScreenerBot.Chain ScreenerBot.Library ScreenerBot.Swaps

namespace DlmmMarket
variable {m : DlmmMarket} {swapForY : Bool} {amountIn : ℕ} {s s' mid e : WalkState}
  {bin : DecodedBin}

theorem mmCap_le (swapForY : Bool) (bin : DecodedBin) : mmCap swapForY bin ≤ u64Max := by
  have hx := bin.amountX.toNat_lt
  have hy := bin.amountY.toNat_lt
  unfold mmCap u64Max
  split_ifs <;> omega

/-- A fill of a bin of the market, as the bin quotes it. -/
structure Fill.Held (m : DlmmMarket) (swapForY : Bool) (f : Fill) : Prop where
  bin : f.bin ∈ m.bins
  rate : f.rate = m.rateAt f.bin.id
  quoted : ∃ price given, getPriceFromId f.bin.id m.state.binStep = some price ∧
    quoteBin (mmCap swapForY f.bin) price given swapForY (m.feeOnInput swapForY) f.rate =
      .ok (f.consumed, f.out, f.fee)
  out : (if m.feeOnInput swapForY then f.out else f.out + f.fee) ≤ mmCap swapForY f.bin

/-- A fill of a bin that holds something is one fill, of some of what is left. -/
theorem fill_spec (hbin : m.binAt s.activeId = some bin) (hleft : 0 < s.amountLeft)
    (hword : s.amountLeft ≤ u64Max) (h : m.fill swapForY bin s = .ok mid) :
    mid = s ∨ ∃ f : Fill, f.bin = bin ∧ Fill.Held m swapForY f ∧ f.consumed ≤ s.amountLeft ∧
      mid = { s with
        amountLeft := s.amountLeft - f.consumed
        totalOut := saturatingAddU64 s.totalOut f.out
        totalFee := saturatingAddU64 s.totalFee f.fee
        fills := s.fills ++ [f] } := by
  rcases fill_ok h with ⟨_, hsame⟩ | ⟨hcap, price, consumed, out, fee, hprice, hquote, hmid⟩
  · exact Or.inl hsame
  · right
    obtain ⟨hmem, hid⟩ := binAt_some hbin
    obtain ⟨hpos, hle⟩ := getPriceFromId_bounds hprice
    have hrate : m.rateAt s.activeId ≤ maxFeeRate := totalFeeRate_le _ _
    have hcap0 : 0 < mmCap swapForY bin := Nat.pos_of_ne_zero hcap
    obtain ⟨hsome, htakes⟩ :=
      quoteBin_consumed hcap0 (mmCap_le _ _) hpos hle hrate hword hleft hquote
    use ⟨bin, m.rateAt s.activeId, consumed, out, fee⟩
    constructor
    · rfl
    constructor
    · constructor
      · exact hmem
      · rw [hid]
      · exact ⟨price, s.amountLeft, hid ▸ hprice, hquote⟩
      · exact quoteBin_out_le hcap0 (mmCap_le _ _) hpos hle hrate hword hquote
    constructor
    · exact htakes
    · rw [hmid, if_pos hsome]

/-- What holds of a walk between its turns. -/
structure Walked (m : DlmmMarket) (swapForY : Bool) (amountIn : ℕ) (s : WalkState) : Prop where
  spent : s.amountLeft + (s.fills.map Fill.consumed).sum = amountIn
  paid : s.totalOut = min (s.fills.map Fill.out).sum u64Max
  held : ∀ f ∈ s.fills, Fill.Held m swapForY f
  once : s.fills.Pairwise fun f g => f.bin.id ≠ g.bin.id
  passed : 0 < s.amountLeft → ∀ f ∈ s.fills, ahead swapForY s.activeId f.bin = false

theorem start_walked : Walked m swapForY amountIn (start m amountIn) := by
  constructor
  · simp [start]
  · simp [start]
  · simp [start]
  · simp [start]
  · simp [start]

theorem ahead_nextBin {activeId : ℤ} (h : ahead swapForY activeId bin = false ∨ bin.id = activeId) :
    ahead swapForY (nextBin swapForY activeId) bin = false := by
  unfold ahead nextBin at *
  split_ifs at * <;> simp only [decide_eq_false_iff_not] at * <;> omega

theorem turn_walked (hword : amountIn ≤ u64Max) (hs : Walked m swapForY amountIn s)
    (hleft : 0 < s.amountLeft) (h : m.turn swapForY amountIn s = .ok s') :
    Walked m swapForY amountIn s' := by
  obtain ⟨bin, mid, hbin, hfill, hadvance⟩ := turn_ok h
  have hid := (binAt_some hbin).2
  have hamount : s.amountLeft ≤ u64Max := by
    have := hs.spent
    omega
  have hmid := fill_activeId hfill
  -- After the fill every filled bin is the active one or behind it.
  have hfilled : (∀ f ∈ mid.fills, ahead swapForY s.activeId f.bin = false ∨
      f.bin.id = s.activeId) ∧ mid.amountLeft + (mid.fills.map Fill.consumed).sum = amountIn ∧
      mid.totalOut = min (mid.fills.map Fill.out).sum u64Max ∧
      (∀ f ∈ mid.fills, Fill.Held m swapForY f) ∧
      mid.fills.Pairwise fun f g => f.bin.id ≠ g.bin.id := by
    rcases fill_spec hbin hleft hamount hfill with rfl | ⟨f, hf, hheld, htakes, rfl⟩
    · exact ⟨fun f hf => Or.inl (hs.passed hleft f hf), hs.spent, hs.paid, hs.held, hs.once⟩
    · constructor
      · intro g hg
        rcases List.mem_append.mp hg with hold | hnew
        · exact Or.inl (hs.passed hleft g hold)
        · obtain rfl := List.mem_singleton.mp hnew
          exact Or.inr (hf ▸ hid)
      constructor
      · have hspent := hs.spent
        simp only [List.map_append, List.map_cons, List.map_nil, List.sum_append, List.sum_cons,
          List.sum_nil, Nat.add_zero]
        omega
      constructor
      · have hpaid := hs.paid
        simp only [List.map_append, List.map_cons, List.map_nil, List.sum_append, List.sum_cons,
          List.sum_nil, Nat.add_zero, saturatingAddU64]
        omega
      constructor
      · intro g hg
        rcases List.mem_append.mp hg with hold | hnew
        · exact hs.held g hold
        · obtain rfl := List.mem_singleton.mp hnew
          exact hheld
      · rw [List.pairwise_append]
        constructor
        · exact hs.once
        constructor
        · exact List.pairwise_singleton _ _
        · intro g hg x hx
          obtain rfl := List.mem_singleton.mp hx
          have hbehind := hs.passed hleft g hg
          intro hsame
          rw [hf, hid] at hsame
          unfold ahead at hbehind
          split_ifs at hbehind <;> simp [hsame] at hbehind
  obtain ⟨hpassed, hspent, hpaid, hheld, honce⟩ := hfilled
  rcases advance_ok hadvance with ⟨hdone, rfl⟩ | ⟨hgoes, rfl⟩
  · constructor
    · exact hspent
    · exact hpaid
    · exact hheld
    · exact honce
    · intro hpos
      omega
  · constructor
    · exact hspent
    · exact hpaid
    · exact hheld
    · exact honce
    · intro _ f hf
      show ahead swapForY (nextBin swapForY mid.activeId) f.bin = false
      rw [hmid]
      exact ahead_nextBin (hpassed f hf)

theorem reached_walked (hword : amountIn ≤ u64Max) (h : m.reached swapForY amountIn = .ok e) :
    Walked m swapForY amountIn e ∧ e.amountLeft = 0 := by
  have hkeeps : ∀ s s', Walked m swapForY amountIn s → (m.loop swapForY amountIn).done s = false →
      m.turn swapForY amountIn s = .ok s' → Walked m swapForY amountIn s' := by
    intro s s' hs hgoes hturn
    exact turn_walked hword hs (Nat.pos_of_ne_zero (of_decide_eq_false hgoes)) hturn
  obtain ⟨hwalked, hdone⟩ := FallibleLoop.run_keeps hkeeps h start_walked
  exact ⟨hwalked, of_decide_eq_true hdone⟩

/-- A turn never takes output back. -/
theorem turn_totalOut (hs : s.totalOut ≤ u64Max) (h : m.turn swapForY amountIn s = .ok s') :
    s.totalOut ≤ s'.totalOut ∧ s'.totalOut ≤ u64Max := by
  obtain ⟨bin, mid, _, hfill, hadvance⟩ := turn_ok h
  have hmid : s.totalOut ≤ mid.totalOut ∧ mid.totalOut ≤ u64Max := by
    rcases fill_ok hfill with ⟨_, rfl⟩ | ⟨_, price, consumed, out, fee, _, _, rfl⟩
    · exact ⟨le_rfl, hs⟩
    · split_ifs
      · unfold saturatingAddU64
        simp only
        omega
      · exact ⟨le_rfl, hs⟩
  rcases advance_ok hadvance with ⟨_, rfl⟩ | ⟨_, rfl⟩
  · exact hmid
  · exact hmid

/-- Two walks of one market at the same bin, the second with no less to spend and no less gained;
or the first is over. -/
structure Trails (s t : WalkState) : Prop where
  gained : s.totalOut ≤ t.totalOut
  word : t.totalOut ≤ u64Max
  given : t.amountLeft ≤ u64Max
  same : s.amountLeft = 0 ∨ s.activeId = t.activeId ∧ s.amountLeft ≤ t.amountLeft

theorem fill_trails {s t a b : WalkState} (hst : Trails s t) (hleft : 0 < s.amountLeft)
    (hid : s.activeId = t.activeId) (hle : s.amountLeft ≤ t.amountLeft)
    (ha : m.fill swapForY bin s = .ok a) (hb : m.fill swapForY bin t = .ok b) :
    a.totalOut ≤ b.totalOut ∧ b.totalOut ≤ u64Max ∧ a.amountLeft ≤ b.amountLeft ∧
      b.amountLeft ≤ u64Max := by
  rcases fill_ok ha with ⟨hempty, rfl⟩ | ⟨hcap, price, ca, oa, fa, hprice, hquoteA, rfl⟩
  · rcases fill_ok hb with ⟨_, rfl⟩ | ⟨hcap, _⟩
    · exact ⟨hst.gained, hst.word, hle, hst.given⟩
    · exact absurd hempty hcap
  · rcases fill_ok hb with ⟨hempty, _⟩ | ⟨_, price', cb, ob, fb, hprice', hquoteB, rfl⟩
    · exact absurd hempty hcap
    · rw [← hid] at hprice' hquoteB
      obtain rfl := Option.some.inj (hprice.symm.trans hprice')
      obtain ⟨hpos, hword⟩ := getPriceFromId_bounds hprice
      have hcap0 : 0 < mmCap swapForY bin := Nat.pos_of_ne_zero hcap
      have hrate : m.rateAt s.activeId ≤ maxFeeRate := totalFeeRate_le _ _
      have hfits := mmCap_le swapForY bin
      have hgiven := hle.trans hst.given
      obtain ⟨hca, _⟩ := quoteBin_consumed hcap0 hfits hpos hword hrate hgiven hleft hquoteA
      obtain ⟨hcb, _⟩ := quoteBin_consumed hcap0 hfits hpos hword hrate hst.given
        (lt_of_lt_of_le hleft hle) hquoteB
      obtain ⟨hout, hrest⟩ := quoteBin_mono hcap0 hfits hpos hword hrate hst.given hle
        hquoteA hquoteB
      have hgained := hst.gained
      have hgivenB := hst.given
      rw [if_pos hca, if_pos hcb]
      unfold saturatingAddU64
      simp only
      omega

theorem turn_trails {s t s' t' : WalkState} (hst : Trails s t) (hleft : 0 < s.amountLeft)
    (hs : m.turn swapForY amountIn s = .ok s') {bmount : ℕ}
    (ht : m.turn swapForY bmount t = .ok t') : Trails s' t' := by
  obtain ⟨hid, hle⟩ := hst.same.resolve_left (by omega)
  obtain ⟨bin, mid, hbin, hfill, hadvance⟩ := turn_ok hs
  obtain ⟨bin', mid', hbin', hfill', hadvance'⟩ := turn_ok ht
  rw [← hid] at hbin'
  obtain rfl := Option.some.inj (hbin.symm.trans hbin')
  obtain ⟨hgained, hword, hrest, hgiven⟩ := fill_trails hst hleft hid hle hfill hfill'
  have hmid := fill_activeId hfill
  have hmid' := fill_activeId hfill'
  rcases advance_ok hadvance with ⟨hdone, rfl⟩ | ⟨hgoes, rfl⟩
  · rcases advance_ok hadvance' with ⟨_, rfl⟩ | ⟨_, rfl⟩
    · exact ⟨hgained, hword, hgiven, Or.inl hdone⟩
    · exact ⟨hgained, hword, hgiven, Or.inl hdone⟩
  · rcases advance_ok hadvance' with ⟨hdone', _⟩ | ⟨_, rfl⟩
    · omega
    · constructor
      · exact hgained
      · exact hword
      · exact hgiven
      · right
        constructor
        · show nextBin swapForY mid.activeId = nextBin swapForY mid'.activeId
          rw [hmid, hmid', hid]
        · exact hrest

theorem reached_mono {a b : ℕ} {e f : WalkState} (hb : b ≤ u64Max) (hab : a ≤ b)
    (he : m.reached swapForY a = .ok e) (hf : m.reached swapForY b = .ok f) :
    e.totalOut ≤ f.totalOut := by
  have hgrows : ∀ {t f : WalkState}, t.totalOut ≤ u64Max → (m.loop swapForY b).run t = .ok f →
      t.totalOut ≤ f.totalOut := by
    intro t f ht hrun
    have hkeeps : ∀ x x', (t.totalOut ≤ x.totalOut ∧ x.totalOut ≤ u64Max) →
        (m.loop swapForY b).done x = false → m.turn swapForY b x = .ok x' →
        t.totalOut ≤ x'.totalOut ∧ x'.totalOut ≤ u64Max := by
      intro x x' hx _ hturn
      obtain ⟨hle, hword⟩ := turn_totalOut hx.2 hturn
      exact ⟨hx.1.trans hle, hword⟩
    exact (FallibleLoop.run_keeps hkeeps hrun ⟨le_rfl, ht⟩).1.1
  apply FallibleLoop.run_relates (R := Trails) _ _ he hf
  · constructor
    · exact le_rfl
    · exact Nat.zero_le _
    · exact hb
    · exact Or.inr ⟨rfl, hab⟩
  · intro s t f hst _ hrun
    exact hst.gained.trans (hgrows hst.word hrun)
  · intro s t s' hst hgoes hturn
    have hleft : 0 < s.amountLeft := Nat.pos_of_ne_zero (of_decide_eq_false hgoes)
    constructor
    · have hsame := hst.same
      exact decide_eq_false (by omega)
    · intro t' hturn'
      exact turn_trails hst hleft hturn hturn'

variable (m)

/-- The documented sum of the two fees of a bin. -/
def exactFee (activeId : ℤ) : ℕ :=
  let p := m.state.parameters
  p.baseFactor.toNat * m.state.binStep.toNat * 10 * 10 ^ p.baseFeePowerFactor.toNat +
    p.variableFeeControl.toNat * (m.volatilityAt activeId * m.state.binStep.toNat) ^ 2 ⌈/⌉ 10 ^ 11

/-- The rate of a bin, as it is documented. -/
def exactRate (activeId : ℤ) : ℕ := min (m.exactFee activeId) maxFeeRate

variable {m}

theorem wrap_of_le {x : ℕ} (h : x ≤ u128Max) : wrapUnsigned 128 x = x :=
  Nat.mod_eq_of_lt (lt_pow_of_le_u128Max h)

/-- Only the power of ten and the product with it can exceed the width. -/
theorem wrapped_product {product : ℕ} (h : product ≤ (2 ^ 16 - 1) * (2 ^ 16 - 1)) (power : ℕ) :
    wrapUnsigned 128 (wrapUnsigned 128 (wrapUnsigned 128 product * 10) * wrapUnsigned 128 power) =
      product * 10 * power % 2 ^ 128 := by
  have htop : (2 ^ 16 - 1) * (2 ^ 16 - 1) * 10 ≤ u128Max := by decide
  rw [wrap_of_le (show product ≤ u128Max by
    omega), wrap_of_le (show product * 10 ≤ u128Max by omega)]
  unfold wrapUnsigned
  rw [Nat.mul_mod_mod]

theorem baseFee_eq : m.baseFee =
    (m.state.parameters.baseFactor.toNat * m.state.binStep.toNat * 10 *
      10 ^ m.state.parameters.baseFeePowerFactor.toNat) % 2 ^ 128 := by
  have hfactor := m.state.parameters.baseFactor.toNat_lt
  have hstep := m.state.binStep.toNat_lt
  exact wrapped_product (Nat.mul_le_mul (by omega) (by omega)) _

theorem volatilityAt_lt (activeId : ℤ) : m.volatilityAt activeId < 2 ^ 32 := by
  have hword := m.state.parameters.maxVolatilityAccumulator.toNat_lt
  exact lt_of_le_of_lt (min_le_right _ _) hword

/-- The variable fee is small enough for every width it is computed in. -/
theorem saturated_variable {control v step : ℕ} (hcontrol : control < 2 ^ 32) (hv : v < 2 ^ 32)
    (hstep : step < 2 ^ 16) (hpos : 0 < control) :
    wrapUnsigned 128 (min (control *
      min (wrapUnsigned 128 (v * step) * wrapUnsigned 128 (v * step)) u128Max) u128Max +
        99999999999) = control * (v * step) ^ 2 + 99999999999 := by
  have htop : (2 ^ 32 - 1) * ((2 ^ 32 - 1) * (2 ^ 16 - 1)) ^ 2 + 99999999999 ≤ u128Max := by
    decide
  have hwide : (2 ^ 32 - 1) * (2 ^ 16 - 1) ≤ u128Max := by decide
  have hroot : v * step ≤ (2 ^ 32 - 1) * (2 ^ 16 - 1) := Nat.mul_le_mul (by omega) (by omega)
  have hproduct : control * (v * step) ^ 2 ≤
      (2 ^ 32 - 1) * ((2 ^ 32 - 1) * (2 ^ 16 - 1)) ^ 2 :=
    Nat.mul_le_mul (by omega) (Nat.pow_le_pow_left hroot 2)
  have hfee : control * (v * step) ^ 2 + 99999999999 ≤ u128Max :=
    (Nat.add_le_add_right hproduct _).trans htop
  have hsquare : (v * step) ^ 2 ≤ control * (v * step) ^ 2 := Nat.le_mul_of_pos_left _ hpos
  rw [wrap_of_le (hroot.trans hwide), ← pow_two,
    min_eq_left (show (v * step) ^ 2 ≤ u128Max by omega),
    min_eq_left (show control * (v * step) ^ 2 ≤ u128Max by omega), wrap_of_le hfee]

theorem variableFee_eq {v : ℕ} (hv : v < 2 ^ 32) : m.variableFee v =
    m.state.parameters.variableFeeControl.toNat * (v * m.state.binStep.toNat) ^ 2 ⌈/⌉ 10 ^ 11 := by
  have hstep := m.state.binStep.toNat_lt
  have hcontrol := m.state.parameters.variableFeeControl.toNat_lt
  unfold variableFee
  dsimp only
  by_cases hpos : 0 < m.state.parameters.variableFeeControl.toNat
  · have hten : (10 : ℕ) ^ 11 = 100000000000 := by norm_num
    rw [if_pos hpos, saturated_variable hcontrol hv hstep hpos, hten, Nat.ceilDiv_eq_add_pred_div,
      Nat.add_sub_assoc (by norm_num)]
  · rw [if_neg hpos, Nat.eq_zero_of_not_pos hpos]
    simp

/-- The rate is the documented one exactly where the sum fits its width, or what is left of it
there is still above the cap. -/
theorem rateAt_eq_iff (activeId : ℤ) : m.rateAt activeId = m.exactRate activeId ↔
    m.exactFee activeId < 2 ^ 128 ∨ maxFeeRate ≤ m.exactFee activeId % 2 ^ 128 := by
  have hrate : m.rateAt activeId = min (m.exactFee activeId % 2 ^ 128) maxFeeRate := by
    unfold rateAt totalFeeRate exactFee wrapUnsigned
    rw [baseFee_eq, variableFee_eq (volatilityAt_lt activeId), Nat.mod_add_mod]
  have hcap : maxFeeRate < 2 ^ 128 := by decide
  rw [hrate, exactRate]
  by_cases hfits : m.exactFee activeId < 2 ^ 128
  · rw [Nat.mod_eq_of_lt hfits]
    exact ⟨fun _ => Or.inl hfits, fun _ => rfl⟩
  · have hlt := Nat.mod_lt (m.exactFee activeId) (show 0 < 2 ^ 128 by norm_num)
    rw [min_eq_right (show maxFeeRate ≤ m.exactFee activeId by omega)]
    constructor
    · intro h
      right
      omega
    · rintro (h | h)
      · exact absurd h hfits
      · exact min_eq_right h

/-- What a walk that succeeds conserves: every bin is filled once and gives at most what it holds,
at its own rate; the bins take the whole input, fees included, and give the output. -/
def Conserves (m : DlmmMarket) (swapForY : Bool) (amountIn : ℕ) : Prop :=
  ∀ e, m.reached swapForY amountIn = .ok e →
    (∀ f ∈ e.fills, Fill.Held m swapForY f) ∧
    (e.fills.Pairwise fun f g => f.bin.id ≠ g.bin.id) ∧
    (e.fills.map Fill.consumed).sum = amountIn ∧
    e.totalOut = min (e.fills.map Fill.out).sum u64Max

theorem conserves (hword : amountIn ≤ u64Max) : Conserves m swapForY amountIn := by
  intro e he
  obtain ⟨hwalked, hdone⟩ := reached_walked hword he
  have hspent := hwalked.spent
  rw [hdone, Nat.zero_add] at hspent
  exact ⟨hwalked.held, hwalked.once, hspent, hwalked.paid⟩

theorem walk_ok {out fee : ℕ} {side : Bool} (h : m.walk swapForY amountIn = .ok (out, fee, side)) :
    ∃ e, m.reached swapForY amountIn = .ok e ∧ out = e.totalOut := by
  obtain ⟨e, he, h⟩ := bind_eq_ok.mp h
  simp only [Except.ok.injEq, Prod.mk.injEq] at h
  exact ⟨e, he, h.1.symm⟩

/-- A walk conserves and grows with its input on every market; it charges each bin the documented
rate exactly where the sum of the two fees survives its width. -/
theorem walk_sound_iff (m : DlmmMarket) :
    ((∀ (swapForY : Bool) (amountIn : UInt64), Conserves m swapForY amountIn.toNat) ∧
      (∀ (swapForY : Bool) (a b : UInt64) (out fee out' fee' : ℕ) (side side' : Bool),
        a.toNat ≤ b.toNat → m.walk swapForY a.toNat = .ok (out, fee, side) →
        m.walk swapForY b.toNat = .ok (out', fee', side') → out ≤ out') ∧
      ∀ bin ∈ m.bins, m.rateAt bin.id = m.exactRate bin.id) ↔
    ∀ bin ∈ m.bins,
      m.exactFee bin.id < 2 ^ 128 ∨ maxFeeRate ≤ m.exactFee bin.id % 2 ^ 128 := by
  have hword : ∀ a : UInt64, a.toNat ≤ u64Max := by
    intro a
    have := a.toNat_lt
    unfold u64Max
    omega
  constructor
  · rintro ⟨_, _, hrates⟩ bin hbin
    exact (rateAt_eq_iff bin.id).mp (hrates bin hbin)
  · intro hfits
    constructor
    · intro swapForY amountIn
      exact conserves (hword amountIn)
    constructor
    · intro swapForY a b out fee out' fee' side side' hab ha hb
      obtain ⟨e, he, rfl⟩ := walk_ok ha
      obtain ⟨f, hf, rfl⟩ := walk_ok hb
      exact reached_mono (hword b) hab he hf
    · intro bin hbin
      exact (rateAt_eq_iff bin.id).mpr (hfits bin hbin)

end DlmmMarket

/-- A pair whose base fee is raised to the power 128. -/
def raised : DlmmMarket :=
  { state :=
      { pool := "pool", activeId := 0, binStep := 4
        parameters :=
          { baseFactor := 10000, variableFeeControl := 0, maxVolatilityAccumulator := 0
            baseFeePowerFactor := 128, collectFeeMode := 0 } }
    vParams := { volatilityReference := 0, indexReference := 0 }
    bins := [{ id := 0, amountX := 1000, amountY := 1000 }] }

/-- Ten to the power 128 is a multiple of the width: the fee is gone, where the cap should apply. -/
theorem raised_power_charges_nothing :
    raised.walk true 100 = .ok (100, 0, true) ∧ raised.rateAt 0 = 0 ∧
      raised.exactRate 0 = maxFeeRate := by
  decide +kernel

end ScreenerBot.Direct.Venues.Dlmm
