import ScreenerBot.Chain.WideMath
import ScreenerBot.Direct.Venues.ClmmTicks
import ScreenerBot.Library.Fallible

/-!
The bonding curve of a DBC pool: the step formulas of a segment and the walk over the segments.

A liquidity carries the same `2 ^ 64` scale as a square-root price, so the scale of a step is
`2 ^ 128`. Buying base is `zeroForOne = false` and walks up, selling base walks down.
-/
namespace ScreenerBot.Direct.Venues.Dbc
open ScreenerBot.Chain ScreenerBot.Library ScreenerBot.Swaps

structure CurvePoint where
  sqrtPrice : ℕ
  liquidity : ℕ
  deriving DecidableEq, Repr

structure PoolConfigState where
  sqrtStartPrice : ℕ
  curve : List CurvePoint
  deriving DecidableEq, Repr

/-- `boundaries`: the start price and the upper end of every segment. -/
def PoolConfigState.boundaries (c : PoolConfigState) : List ℕ :=
  c.sqrtStartPrice :: c.curve.map CurvePoint.sqrtPrice

def stepOverflow : DirectSwapError := .quoteMath "the DBC curve step overflowed 256 bits"

/-- The output of a move before it is cut to `u64`. -/
def wideOutputForMove (zeroForOne : Bool) (liquidity sqrtFrom sqrtTo : ℕ) :
    Except DirectSwapError ℕ :=
  if zeroForOne then .ok (mulShr128Floor liquidity (sqrtFrom - sqrtTo))
  else do
    let step1 ← okOr stepOverflow (mulDivFloor liquidity (sqrtTo - sqrtFrom) sqrtTo)
    .ok (step1 / max sqrtFrom 1)

/-- `output_for_move`. -/
def outputForMove (zeroForOne : Bool) (liquidity sqrtFrom sqrtTo : ℕ) :
    Except DirectSwapError ℕ := do
  let out ← wideOutputForMove zeroForOne liquidity sqrtFrom sqrtTo
  .ok (min out u64Max)

/-- `input_for_move`. -/
def inputForMove (zeroForOne : Bool) (liquidity sqrtFrom sqrtTo : ℕ) :
    Except DirectSwapError ℕ :=
  if zeroForOne then
    if sqrtFrom ≤ sqrtTo then .ok 0 else do
      let step1 ← okOr stepOverflow (mulDivCeil liquidity (sqrtFrom - sqrtTo) sqrtFrom)
      .ok (ceilDiv step1 (max sqrtTo 1))
  else
    if sqrtTo ≤ sqrtFrom then .ok 0 else .ok (mulShr128Ceil liquidity (sqrtTo - sqrtFrom))

/-- `next_sqrt_price_from_input`. -/
def nextSqrtPriceFromInput (zeroForOne : Bool) (liquidity sqrtPrice amountIn : ℕ) :
    Except DirectSwapError ℕ :=
  if zeroForOne then do
    let product ← okOr stepOverflow (checkedRaw (amountIn * sqrtPrice))
    let denominator ← okOr stepOverflow (checkedRaw (liquidity + product))
    okOr stepOverflow (mulDivCeil liquidity sqrtPrice denominator)
  else do
    let delta ← okOr stepOverflow (shl128DivFloor amountIn liquidity)
    okOr stepOverflow (checkedRaw (sqrtPrice + delta))

/-- `current_segment_index`: the first segment whose upper end is not below the price, or the
last segment. -/
def currentSegmentIndex (boundaries : List ℕ) (price : ℕ) : ℕ :=
  let segments := boundaries.length - 1
  if segments = 0 then 0
  else ((List.range segments).find? fun i => price ≤ boundaries.getD (i + 1) 0).getD (segments - 1)

/-- The pool of a walk, as far as the walk reads it. -/
structure DbcMarket where
  pool : String
  sqrtPrice : ℕ
  config : PoolConfigState

structure WalkState where
  idx : ℕ
  sqrtPrice : ℕ
  remaining : ℕ
  totalOut : ℕ
  deriving DecidableEq, Repr

/-- The input runs out inside the segment. -/
def stopInside (zeroForOne : Bool) (liquidity : ℕ) (s : WalkState) :
    Except DirectSwapError WalkState := do
  let nextPrice ← nextSqrtPriceFromInput zeroForOne liquidity s.sqrtPrice s.remaining
  let out ← outputForMove zeroForOne liquidity s.sqrtPrice nextPrice
  .ok { s with sqrtPrice := nextPrice, remaining := 0, totalOut := s.totalOut + out }

namespace DbcMarket
variable (m : DbcMarket) (zeroForOne : Bool) (amountIn : ℕ)

def refuse {α : Type} (detail : String) : Except DirectSwapError α :=
  .error (.insufficientLiquidity m.pool amountIn detail)

/-- The segment is walked to its end and the next one is chosen. -/
def leaveSegment (liquidity boundary inputNeeded : ℕ) (s : WalkState) :
    Except DirectSwapError WalkState := do
  let out ← outputForMove zeroForOne liquidity s.sqrtPrice boundary
  let left : WalkState :=
    { s with
      sqrtPrice := boundary, remaining := s.remaining - inputNeeded
      totalOut := s.totalOut + out }
  if zeroForOne then
    match s.idx with
    | next + 1 => .ok { left with idx := next }
    | 0 =>
      if 0 < left.remaining then
        m.refuse amountIn "the sell would push the curve below its own starting price"
      else .ok left
  else .ok { left with idx := s.idx + 1 }

/-- The end of the segment a turn walks towards. Below the number of segments both exist. -/
def boundary (idx : ℕ) : ℕ := m.config.boundaries.getD (if zeroForOne then idx else idx + 1) 0

/-- One turn of the loop. -/
def turn (s : WalkState) : Except DirectSwapError WalkState :=
  match m.config.curve[s.idx]? with
  | none => m.refuse amountIn "the swap would travel past the curve segments this venue loaded"
  | some segment =>
    if segment.liquidity = 0 then
      m.refuse amountIn "a loaded curve segment carries zero liquidity"
    else do
      let boundary := m.boundary zeroForOne s.idx
      let inputNeeded ← inputForMove zeroForOne segment.liquidity s.sqrtPrice boundary
      if s.remaining < inputNeeded then stopInside zeroForOne segment.liquidity s
      else m.leaveSegment zeroForOne amountIn segment.liquidity boundary inputNeeded s

/-- The segment after the one a turn has walked to its end. -/
def nextIdx (idx : ℕ) : ℕ := if zeroForOne then idx - 1 else idx + 1

/-- A turn that succeeds stops inside its segment or leaves it at its end. -/
inductive Turned (s : WalkState) (liquidity : ℕ) : WalkState → Prop
  | inside {needed nextPrice out : ℕ}
      (hneeded : inputForMove zeroForOne liquidity s.sqrtPrice (m.boundary zeroForOne s.idx) =
        .ok needed)
      (hshort : s.remaining < needed)
      (hnext : nextSqrtPriceFromInput zeroForOne liquidity s.sqrtPrice s.remaining = .ok nextPrice)
      (hout : outputForMove zeroForOne liquidity s.sqrtPrice nextPrice = .ok out) :
      Turned s liquidity
        { s with sqrtPrice := nextPrice, remaining := 0, totalOut := s.totalOut + out }
  | left {needed out : ℕ}
      (hneeded : inputForMove zeroForOne liquidity s.sqrtPrice (m.boundary zeroForOne s.idx) =
        .ok needed)
      (hpaid : needed ≤ s.remaining)
      (hout : outputForMove zeroForOne liquidity s.sqrtPrice (m.boundary zeroForOne s.idx) =
        .ok out)
      (hfloor : zeroForOne → s.idx = 0 → s.remaining = needed) :
      Turned s liquidity
        { idx := nextIdx zeroForOne s.idx, sqrtPrice := m.boundary zeroForOne s.idx
          remaining := s.remaining - needed, totalOut := s.totalOut + out }

variable {m zeroForOne amountIn} {s s' : WalkState}

theorem leaveSegment_ok {liquidity boundary needed : ℕ}
    (h : m.leaveSegment zeroForOne amountIn liquidity boundary needed s = .ok s')
    (hpaid : needed ≤ s.remaining) :
    ∃ out, outputForMove zeroForOne liquidity s.sqrtPrice boundary = .ok out ∧
      (zeroForOne → s.idx = 0 → s.remaining = needed) ∧
      s' = { idx := nextIdx zeroForOne s.idx, sqrtPrice := boundary
             remaining := s.remaining - needed, totalOut := s.totalOut + out } := by
  obtain ⟨out, hout, h⟩ := bind_eq_ok.mp h
  obtain ⟨idx, price, remaining, total⟩ := s
  use out, hout
  cases zeroForOne with
  | true =>
    cases idx with
    | zero =>
      simp only [↓reduceIte, refuse] at h
      split_ifs at h with hleft
      obtain rfl := Except.ok.inj h
      simp only at hleft hpaid
      constructor
      · intro _ _
        show remaining = needed
        omega
      · rfl
    | succ next =>
      obtain rfl := Except.ok.inj h
      simp [nextIdx]
  | false =>
    obtain rfl := Except.ok.inj h
    simp [nextIdx]

theorem turn_ok (h : m.turn zeroForOne amountIn s = .ok s') :
    ∃ segment, m.config.curve[s.idx]? = some segment ∧ 0 < segment.liquidity ∧
      m.Turned zeroForOne s segment.liquidity s' := by
  unfold turn at h
  cases hsegment : m.config.curve[s.idx]? with
  | none => simp [hsegment, refuse] at h
  | some segment =>
    simp only [hsegment] at h
    split_ifs at h with hzero
    · simp [refuse] at h
    · obtain ⟨needed, hneeded, h⟩ := bind_eq_ok.mp h
      use segment, rfl, Nat.pos_of_ne_zero hzero
      split_ifs at h with hshort
      · obtain ⟨nextPrice, hnext, h⟩ := bind_eq_ok.mp h
        obtain ⟨out, hout, h⟩ := bind_eq_ok.mp h
        obtain rfl := Except.ok.inj h
        exact .inside hneeded hshort hnext hout
      · have hpaid : needed ≤ s.remaining := by omega
        obtain ⟨out, hout, hfloor, rfl⟩ := leaveSegment_ok h hpaid
        exact .left hneeded hpaid hout hfloor

variable (m zeroForOne)

/-- How many turns may still follow. -/
def turnsLeft (s : WalkState) : ℕ :=
  if s.remaining = 0 then 0
  else if zeroForOne then s.idx + 1 else m.config.curve.length - s.idx

variable {m zeroForOne}

theorem turnsLeft_turn (h : m.turn zeroForOne amountIn s = .ok s') (hrem : 0 < s.remaining) :
    m.turnsLeft zeroForOne s' < m.turnsLeft zeroForOne s := by
  obtain ⟨segment, hsegment, _, hturned⟩ := turn_ok h
  have hidx : s.idx < m.config.curve.length := (List.getElem?_eq_some_iff.mp hsegment).1
  cases hturned with
  | inside => cases zeroForOne <;> simp [turnsLeft, hrem.ne', hidx]
  | left hneeded hpaid hout hfloor =>
    cases zeroForOne with
    | true =>
      simp only [turnsLeft, nextIdx, ↓reduceIte, hrem.ne', forall_const] at hfloor ⊢
      split_ifs <;> omega
    | false =>
      simp only [turnsLeft, nextIdx, Bool.false_eq_true, ↓reduceIte, hrem.ne']
      split_ifs <;> omega

variable (m zeroForOne amountIn)

/-- The loop, over as long as something remains. -/
def loop : FallibleLoop DirectSwapError WalkState where
  done s := s.remaining = 0
  turn := m.turn zeroForOne amountIn
  size := m.turnsLeft zeroForOne
  shrinks hgoes h := turnsLeft_turn h (Nat.pos_of_ne_zero (of_decide_eq_false hgoes))

def start : WalkState :=
  { idx := currentSegmentIndex m.config.boundaries m.sqrtPrice, sqrtPrice := m.sqrtPrice
    remaining := amountIn, totalOut := 0 }

/-- `walk`: the output and the price reached. -/
def walk : Except DirectSwapError (ℕ × ℕ) := do
  let s ← (m.loop zeroForOne amountIn).run (m.start amountIn)
  .ok (min s.totalOut u64Max, s.sqrtPrice)

end DbcMarket
end ScreenerBot.Direct.Venues.Dbc
