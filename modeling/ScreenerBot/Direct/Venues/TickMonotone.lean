import ScreenerBot.Direct.Venues.TickWalk

/-! Two amounts walked over the same ticks. -/
namespace ScreenerBot.Direct.Venues
open ScreenerBot.Chain ScreenerBot.Library ScreenerBot.Swaps

namespace WalkRequest
variable {q : WalkRequest} {candidates rest : List InitializedTick} {liquidity p : ℕ}

/-- The request of another amount. -/
abbrev withAmount (q : WalkRequest) (amountIn : ℕ) : WalkRequest := { q with amountIn }

theorem walkTicks_ok {out lpFee price : ℕ}
    (h : q.walkTicks candidates liquidity p = .ok (out, lpFee, price)) :
    ∃ s rest, q.reached candidates liquidity p = .ok (s, rest) ∧ out = min s.totalOut u64Max ∧
      price = s.sqrtPrice := by
  obtain ⟨⟨s, rest⟩, hreached, h⟩ := bind_eq_ok.mp h
  simp only [Except.ok.injEq, Prod.mk.injEq] at h
  obtain ⟨rfl, -, rfl⟩ := h
  exact ⟨s, rest, hreached, rfl, rfl⟩

/-- Nothing is walked from a price of zero. -/
theorem amountIn_zero {s : WalkState} (h : q.reached candidates liquidity 0 = .ok (s, rest)) :
    q.amountIn = 0 := by
  unfold reached at h
  split_ifs at h
  by_contra hsome
  cases candidates with
  | nil => simp [loop, start, hsome] at h
  | cons tick ticks => simp [loop, start, hsome] at h

/-- Nothing in, nothing out. -/
theorem reached_zero {s : WalkState} (hzero : q.amountIn = 0)
    (h : q.reached candidates liquidity p = .ok (s, rest)) :
    s = q.start liquidity p ∧ rest = candidates := by
  unfold reached at h
  split_ifs at h
  cases candidates with
  | nil =>
    simp only [loop, start, hzero, ↓reduceIte] at h
    obtain ⟨rfl, rfl⟩ := Prod.mk.inj (Except.ok.inj h)
    simp [start, hzero]
  | cons tick ticks =>
    simp only [loop, start, hzero, ↓reduceIte] at h
    obtain ⟨rfl, rfl⟩ := Prod.mk.inj (Except.ok.inj h)
    simp [start, hzero]

/-- What the walks of two amounts, and of one after the other, have to do with each other. -/
structure Consistent (q : WalkRequest) (candidates : List InitializedTick) (liquidity p a b : ℕ) :
    Prop where
  /-- The greater amount yields no less. -/
  monotone : ∀ outA feeA priceA outB feeB priceB,
    (q.withAmount a).walkTicks candidates liquidity p = .ok (outA, feeA, priceA) →
    (q.withAmount b).walkTicks candidates liquidity p = .ok (outB, feeB, priceB) → outA ≤ outB
  /-- The price moves in the direction of the swap only. -/
  moves : ∀ outA feeA priceA,
    (q.withAmount a).walkTicks candidates liquidity p = .ok (outA, feeA, priceA) →
    (⟨p⟩ : Price q.zeroForOne) ≤ ⟨priceA⟩
  /-- The price stops at the last tick at the latest. -/
  bounded : ∀ outA feeA priceA,
    (q.withAmount a).walkTicks candidates liquidity p = .ok (outA, feeA, priceA) →
    ∀ last ∈ candidates.getLast?, ∀ target, getSqrtPriceAtTick last.tick = some target →
      (⟨priceA⟩ : Price q.zeroForOne) ≤ ⟨target⟩
  /-- In two parts the amount yields no more than at once, which the cut to `u64` alone limits. -/
  split : ∀ outA feeA priceA s rest outC feeC priceC outB feeB priceB,
    (q.withAmount a).walkTicks candidates liquidity p = .ok (outA, feeA, priceA) →
    (q.withAmount a).reached candidates liquidity p = .ok (s, rest) →
    (q.withAmount (b - a)).walkTicks rest s.liquidity s.sqrtPrice = .ok (outC, feeC, priceC) →
    (q.withAmount b).walkTicks candidates liquidity p = .ok (outB, feeB, priceB) →
    min (outA + outC) u64Max ≤ outB

/-- Every tick's price is behind the last tick's. -/
theorem MetFrom.le_last (h : MetFrom q.zeroForOne p candidates) :
    ∀ last ∈ candidates.getLast?, ∀ target, getSqrtPriceAtTick last.tick = some target →
      ∀ tick ∈ candidates, ∀ price, getSqrtPriceAtTick tick.tick = some price →
        (⟨price⟩ : Price q.zeroForOne) ≤ ⟨target⟩ := by
  intro last hlast target htarget tick htick price hprice
  obtain ⟨front, rfl⟩ := List.getLast?_eq_some_iff.mp hlast
  rcases List.mem_append.mp htick with hfront | hend
  · obtain ⟨_, _, hcross⟩ := List.pairwise_append.mp h.ordered
    exact price_le (hcross tick hfront last (by simp)) hprice htarget
  · obtain rfl : tick = last := by simpa using hend
    rw [hprice] at htarget
    obtain rfl := Option.some.inj htarget
    exact le_refl _

/-- Over ticks met from the price, the walks of two amounts are consistent. -/
theorem walkTicks_consistent (hrate : q.rate < q.denom) (hdenom : q.denom ≤ u64Max) {a b : ℕ}
    (hab : a ≤ b) (hb : b ≤ u64Max) (hl : liquidity ≤ u128Max) (hp : p ≤ u128Max)
    (hmet : MetFrom q.zeroForOne p candidates) : q.Consistent candidates liquidity p a b := by
  have hvalid : ∀ amount ≤ b, (q.withAmount amount).Valid :=
    fun amount hle => ⟨hrate, hdenom, hle.trans hb⟩
  have hahead := @curveOf_ahead _ scaled (crossingDelta q.zeroForOne) _ liquidity _ hmet
  constructor
  · intro outA feeA priceA outB feeB priceB hA hB
    obtain ⟨sA, restA, hreachA, rfl, rfl⟩ := walkTicks_ok hA
    obtain ⟨sB, restB, hreachB, rfl, rfl⟩ := walkTicks_ok hB
    by_cases hp0 : 0 < p
    · have hwalkA := (reached_walks (hvalid a hab) hl hp hreachA).1
      have hwalkB := (reached_walks (hvalid b le_rfl) hl hp hreachB).1
      have := Walks.mono hwalkA hwalkB hab hp0 hahead
      omega
    · obtain rfl : p = 0 := by omega
      have hnone := amountIn_zero hreachA
      simp [(reached_zero hnone hreachA).1, start]
  · intro outA feeA priceA hA
    obtain ⟨sA, restA, hreachA, rfl, rfl⟩ := walkTicks_ok hA
    by_cases hp0 : 0 < p
    · exact (reached_walks (hvalid a hab) hl hp hreachA).1.moves hp0 hahead
    · obtain rfl : p = 0 := by omega
      rw [(reached_zero (amountIn_zero hreachA) hreachA).1]
      exact le_refl _
  · intro outA feeA priceA hA last hlast target htarget
    obtain ⟨sA, restA, hreachA, rfl, rfl⟩ := walkTicks_ok hA
    have hstart := hmet.ahead last (List.mem_of_getLast? hlast) target htarget
    by_cases hp0 : 0 < p
    · apply (reached_walks (hvalid a hab) hl hp hreachA).1.bounded hp0 hahead hstart
      intro e he
      obtain ⟨tick, htick, hprice⟩ := curveOf_ends _ _ e he
      exact hmet.le_last last hlast target htarget tick htick _ hprice
    · obtain rfl : p = 0 := by omega
      rw [(reached_zero (amountIn_zero hreachA) hreachA).1]
      exact hstart
  · intro outA feeA priceA s rest outC feeC priceC outB feeB priceB hA hreach hC hB
    obtain ⟨sA, restA, hreachA, rfl, rfl⟩ := walkTicks_ok hA
    obtain ⟨sB, restB, hreachB, rfl, rfl⟩ := walkTicks_ok hB
    obtain ⟨sC, restC, hreachC, rfl, rfl⟩ := walkTicks_ok hC
    rw [hreachA] at hreach
    obtain ⟨rfl, rfl⟩ := Prod.mk.inj (Except.ok.inj hreach)
    by_cases hp0 : 0 < p
    · obtain ⟨hwalkA, hfits⟩ := reached_walks (hvalid a hab) hl hp hreachA
      have hwalkC := (reached_walks (hvalid (b - a) (Nat.sub_le b a)) hfits.liquidity
        hfits.sqrtPrice hreachC).1
      have hwalkB := (reached_walks (hvalid b le_rfl) hl hp hreachB).1
      have hsum : (q.withAmount b).amountIn = a + (b - a) := by
        show b = a + (b - a)
        omega
      rw [hsum] at hwalkB
      have := Walks.split hwalkA hwalkC hwalkB hp0 hahead
      omega
    · obtain rfl : p = 0 := by omega
      have hnone : b = 0 := amountIn_zero hreachB
      have hrest : (q.withAmount (b - a)).amountIn = 0 := by
        show b - a = 0
        omega
      simp [(reached_zero (amountIn_zero hreachA) hreachA).1, (reached_zero hrest hreachC).1, start]

/-- A fee of a quarter of a percent on a falling swap over one tick. -/
def quarterPercent : WalkRequest :=
  { pool := "pool", rate := 2500, denom := 1000000, zeroForOne := true, amountIn := 0 }

/-- A thousand and two thousand units over the tick at -100. -/
theorem walkTicks_consistent_thousand :
    quarterPercent.Consistent [⟨-100, 0⟩] (2 ^ 60) (2 ^ 64) 1000 2000 := by
  apply walkTicks_consistent (by decide) (by decide) (by decide) (by decide) (by decide) (by decide)
  refine ⟨by simp, ?_⟩
  intro tick htick target htarget
  obtain rfl : tick = ⟨-100, 0⟩ := by simpa using htick
  have hprice : getSqrtPriceAtTick (-100) = some 18354745142194513203 := by decide +kernel
  obtain rfl : target = 18354745142194513203 := by
    rw [hprice] at htarget
    exact (Option.some.inj htarget).symm
  exact falling_le_iff.mpr (by norm_num)

/-- At a price where every output is cut to `u64`, two halves are quoted twice what the whole is. -/
theorem halves_quoted_above_whole : ¬ ∀ (q : WalkRequest) (candidates : List InitializedTick)
    (liquidity p a b : ℕ), q.rate < q.denom → q.denom ≤ u64Max → a ≤ b → b ≤ u64Max →
    liquidity < 2 ^ 64 → p ≤ u128Max → MetFrom q.zeroForOne p candidates →
    ∀ outA feeA priceA s rest outC feeC priceC outB feeB priceB,
      (q.withAmount a).walkTicks candidates liquidity p = .ok (outA, feeA, priceA) →
      (q.withAmount a).reached candidates liquidity p = .ok (s, rest) →
      (q.withAmount (b - a)).walkTicks rest s.liquidity s.sqrtPrice = .ok (outC, feeC, priceC) →
      (q.withAmount b).walkTicks candidates liquidity p = .ok (outB, feeB, priceB) →
      outA + outC ≤ outB := by
  intro h
  have hmet : MetFrom true (2 ^ 95) [⟨0, 0⟩] := by
    refine ⟨by simp, ?_⟩
    intro tick htick target htarget
    obtain rfl : tick = ⟨0, 0⟩ := by simpa using htick
    have hprice : getSqrtPriceAtTick 0 = some (2 ^ 64) := by decide +kernel
    rw [hprice] at htarget
    obtain rfl := Option.some.inj htarget
    exact falling_le_iff.mpr (by norm_num)
  have hle := h { pool := "pool", rate := 0, denom := 1000000, zeroForOne := true, amountIn := 0 }
    [⟨0, 0⟩] (2 ^ 60) (2 ^ 95) (2 ^ 25) (2 ^ 26) (by decide) (by decide) (by decide) (by decide)
    (by decide) (by decide) hmet u64Max 0 37283841183183217691079506041
    { liquidity := 2 ^ 60, sqrtPrice := 37283841183183217691079506041, remaining := 0
      totalOut := u64Max, totalFee := 0 } [⟨0, 0⟩]
    u64Max 0 35212516673006372263797311261 u64Max 0 35212516673006372263797311261
    (by decide +kernel) (by decide +kernel) (by decide +kernel) (by decide +kernel)
  exact absurd hle (by decide)

end WalkRequest
end ScreenerBot.Direct.Venues
