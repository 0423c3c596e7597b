import ScreenerBot.Chain.WideMath
import ScreenerBot.Library.MachineInt
import ScreenerBot.Swaps.Outcome

/-!
The tick walk of a concentrated-liquidity swap: the price of a tick, the four step formulas, and
the loop over the ticks ahead.

`u128` values are naturals below `2 ^ 128`; where the source computes without a check, the value
is cut to its width here too.
-/
namespace ScreenerBot.Direct.Venues
open ScreenerBot.Chain ScreenerBot.Library ScreenerBot.Swaps

structure InitializedTick where
  tick : ℤ
  liquidityNet : ℤ
  deriving DecidableEq, Repr

def minTick : ℤ := -443636

def maxTick : ℤ := 443636

/-- The masks of a tick's bits and the factor of each. -/
def magic : List (ℕ × ℕ) :=
  [(0x1, 0xfffcb933bd6fb800), (0x2, 0xfff97272373d4000), (0x4, 0xfff2e50f5f657000),
    (0x8, 0xffe5caca7e10f000), (0x10, 0xffcb9843d60f7000), (0x20, 0xff973b41fa98e800),
    (0x40, 0xff2ea16466c9b000), (0x80, 0xfe5dee046a9a3800), (0x100, 0xfcbe86c7900bb000),
    (0x200, 0xf987a7253ac65800), (0x400, 0xf3392b0822bb6000), (0x800, 0xe7159475a2caf000),
    (0x1000, 0xd097f3bdfd2f2000), (0x2000, 0xa9f746462d9f8000), (0x4000, 0x70d869a156f31c00),
    (0x8000, 0x31be135f97ed3200), (0x10000, 0x9aa508b5b85a500), (0x20000, 0x5d6af8dedc582c),
    (0x40000, 0x2216e584f5fa)]

/-- One factor of the chain, where the tick has its bit. -/
def applyMagic (absTick : ℕ) (ratio : ℕ) (factor : ℕ × ℕ) : Option ℕ :=
  if absTick &&& factor.1 ≠ 0 then (checkedRaw (ratio * factor.2)).map (· >>> 64) else some ratio

/-- `get_sqrt_price_at_tick`. -/
def getSqrtPriceAtTick (tick : ℤ) : Option ℕ :=
  if tick < minTick ∨ maxTick < tick then none else do
    let absTick := tick.natAbs
    let ratio ← magic.tail.foldlM (applyMagic absTick)
      (if absTick &&& 0x1 ≠ 0 then 0xfffcb933bd6fb800 else 1 <<< 64)
    if 0 < tick then (if ratio = 0 then none else some (u128Max / ratio)) else some ratio

/-- `ticks_ahead`. -/
def ticksAhead (ticks : List InitializedTick) (tickCurrent : ℤ) (zeroForOne : Bool) :
    List InitializedTick :=
  if zeroForOne then ticks.reverse.filter fun t => t.tick ≤ tickCurrent
  else ticks.filter fun t => tickCurrent < t.tick

/-- `liquidity.checked_shl(64)`: the shift is checked, the bits it pushes out are not. -/
def scaled (liquidity : ℕ) : ℕ := wrapUnsigned 128 (liquidity <<< 64)

/-- `ok_or` and `ok_or_else`. -/
def okOr {α : Type} (e : DirectSwapError) : Option α → Except DirectSwapError α
  | none => .error e
  | some a => .ok a

@[simp] theorem okOr_eq_ok {α : Type} {e : DirectSwapError} {o : Option α} {a : α} :
    okOr e o = .ok a ↔ o = some a := by
  cases o with
  | none => simp [okOr]
  | some b => simp [okOr]

def overflow (what : String) : DirectSwapError :=
  .quoteMath s!"the concentrated-liquidity {what} overflowed 256 bits"

/-- The output of a move before it is cut to `u64`. -/
def wideOutputForMove (zeroForOne : Bool) (liquidity sqrtFrom sqrtTo : ℕ) :
    Except DirectSwapError ℕ :=
  if zeroForOne then
    okOr (overflow "output") (mulDivFloor liquidity (sqrtFrom - sqrtTo) (1 <<< 64))
  else do
    let numerator := scaled liquidity
    let intermediate ←
      okOr (overflow "output") (mulDivFloor numerator (sqrtTo - sqrtFrom) sqrtTo)
    .ok (intermediate / max sqrtFrom 1)

/-- `output_for_move`. -/
def outputForMove (zeroForOne : Bool) (liquidity sqrtFrom sqrtTo : ℕ) :
    Except DirectSwapError ℕ := do
  let out ← wideOutputForMove zeroForOne liquidity sqrtFrom sqrtTo
  .ok (min out u64Max)

/-- `next_sqrt_price_from_input`. -/
def nextSqrtPriceFromInput (zeroForOne : Bool) (liquidity sqrtPrice amountIn : ℕ) :
    Except DirectSwapError ℕ :=
  if zeroForOne then do
    let numerator := scaled liquidity
    let product ← okOr (overflow "step") (checkedRaw (amountIn * sqrtPrice))
    let denominator ← okOr (overflow "step") (checkedRaw (numerator + product))
    okOr (overflow "step") (mulDivCeil numerator sqrtPrice denominator)
  else do
    let delta ← okOr (overflow "step") (mulDivFloor amountIn (1 <<< 64) liquidity)
    okOr (overflow "step") (checkedRaw (sqrtPrice + delta))

/-- `input_for_move`. -/
def inputForMove (zeroForOne : Bool) (liquidity sqrtFrom sqrtTo : ℕ) :
    Except DirectSwapError ℕ :=
  if zeroForOne then
    if sqrtFrom ≤ sqrtTo then .ok 0 else do
      let numerator := scaled liquidity
      let step1 ← okOr (overflow "input") (mulDivCeil numerator (sqrtFrom - sqrtTo) sqrtFrom)
      .ok (ceilDiv step1 (max sqrtTo 1))
  else
    if sqrtTo ≤ sqrtFrom then .ok 0 else
      okOr (overflow "input") (mulDivCeil liquidity (sqrtTo - sqrtFrom) (1 <<< 64))

/-- The change of liquidity at a crossing: the net amount is meant upwards, and is negated in
`i128` on the way down. -/
def crossingDelta (zeroForOne : Bool) (tick : InitializedTick) : ℤ :=
  if zeroForOne then wrapSigned 128 (-tick.liquidityNet) else tick.liquidityNet

/-- `cross_tick`. -/
def crossTick (pool : String) (liquidity : ℕ) (tick : InitializedTick) (zeroForOne : Bool) :
    Except DirectSwapError ℕ :=
  let crossed := (liquidity : ℤ) + crossingDelta zeroForOne tick
  if 0 ≤ crossed ∧ crossed ≤ u128Max then .ok crossed.toNat
  else .error (.insufficientLiquidity pool 0
    (s!"crossing tick {tick.tick} would take pool liquidity negative -- the loaded tick data is " ++
      "inconsistent with the pool's own reported liquidity"))

/-- The inputs of a walk that no step changes. -/
structure WalkRequest where
  pool : String
  /-- `fee_rate` and its denominator. -/
  rate : ℕ
  denom : ℕ
  zeroForOne : Bool
  amountIn : ℕ

structure WalkState where
  liquidity : ℕ
  sqrtPrice : ℕ
  remaining : ℕ
  totalOut : ℕ
  totalFee : ℕ
  deriving DecidableEq, Repr

/-- How far a turn moves the price: to its tick, a part of the way, or not at all when the fee
takes what is left. -/
inductive Move where
  | whole (target amountToTarget grossNeeded : ℕ)
  | part (swappable sqrtNext : ℕ)
  | nothing
  deriving DecidableEq, Repr

/-- A turn of the loop crosses its tick, or ends the walk short of it. -/
inductive Turn where
  | crossed (s : WalkState)
  | ended (s : WalkState)
  deriving DecidableEq, Repr

namespace WalkRequest
variable (q : WalkRequest)

/-- The least input that leaves an amount after the fee. -/
def grossUp (amountToTarget : ℕ) : Except DirectSwapError ℕ :=
  if amountToTarget = 0 then .ok 0
  else okOr (.quoteMath "the per-step fee grossing-up overflowed 256 bits")
    (mulDivCeil amountToTarget q.denom (q.denom - q.rate))

/-- The part of a turn that decides how far the price moves. -/
def move (tick : InitializedTick) (s : WalkState) : Except DirectSwapError Move := do
  let target ← okOr (.quoteMath s!"tick {tick.tick} lies outside the programme's own range")
    (getSqrtPriceAtTick tick.tick)
  let amountToTarget ← inputForMove q.zeroForOne s.liquidity s.sqrtPrice target
  let grossNeeded ← q.grossUp amountToTarget
  if grossNeeded ≤ s.remaining then .ok (.whole target amountToTarget grossNeeded)
  else do
    let swappable ← okOr (.quoteMath "the per-step net-of-fee amount overflowed 256 bits")
      (mulDivFloor s.remaining (q.denom - q.rate) q.denom)
    if swappable = 0 then .ok .nothing
    else do
      let sqrtNext ← nextSqrtPriceFromInput q.zeroForOne s.liquidity s.sqrtPrice swappable
      .ok (.part swappable sqrtNext)

/-- One turn of the loop at the next tick. -/
def turn (tick : InitializedTick) (s : WalkState) : Except DirectSwapError Turn := do
  match ← q.move tick s with
  | .whole target amountToTarget grossNeeded => do
    let out ← outputForMove q.zeroForOne s.liquidity s.sqrtPrice target
    let liquidity ← crossTick q.pool s.liquidity tick q.zeroForOne
    .ok (.crossed
      { liquidity, sqrtPrice := target, remaining := s.remaining - grossNeeded
        totalOut := s.totalOut + out
        totalFee := s.totalFee + min (grossNeeded - amountToTarget) u64Max })
  | .part swappable sqrtNext => do
    let out ← outputForMove q.zeroForOne s.liquidity s.sqrtPrice sqrtNext
    .ok (.ended
      { s with
        sqrtPrice := sqrtNext, remaining := 0
        totalOut := s.totalOut + out
        totalFee := s.totalFee + (s.remaining - swappable) })
  | .nothing => .ok (.ended { s with totalFee := s.totalFee + s.remaining })

/-- The loop: its last state, and the ticks it has not crossed. -/
def loop : List InitializedTick → WalkState →
    Except DirectSwapError (WalkState × List InitializedTick)
  | [], s =>
    if s.remaining = 0 then .ok (s, [])
    else if s.liquidity = 0 ∨ s.sqrtPrice = 0 then
      .error (.insufficientLiquidity q.pool q.amountIn "liquidity was exhausted mid-walk")
    else .error (.insufficientLiquidity q.pool q.amountIn
      "the size travels further than the loaded tick arrays cover")
  | tick :: rest, s =>
    if s.remaining = 0 then .ok (s, tick :: rest)
    else if s.liquidity = 0 ∨ s.sqrtPrice = 0 then
      .error (.insufficientLiquidity q.pool q.amountIn "liquidity was exhausted mid-walk")
    else do
      match ← q.turn tick s with
      | .crossed s' => loop rest s'
      | .ended s' => .ok (s', tick :: rest)

def start (liquidity sqrtPrice : ℕ) : WalkState :=
  { liquidity, sqrtPrice, remaining := q.amountIn, totalOut := 0, totalFee := 0 }

/-- The walk with the state it reaches. -/
def reached (candidates : List InitializedTick) (liquidity sqrtPrice : ℕ) :
    Except DirectSwapError (WalkState × List InitializedTick) :=
  if q.denom ≤ q.rate then
    .error (.quoteMath "the trade fee rate is not below its own denominator")
  else q.loop candidates (q.start liquidity sqrtPrice)

/-- `walk_ticks`: the output, the fee and the price reached. -/
def walkTicks (candidates : List InitializedTick) (liquidity sqrtPrice : ℕ) :
    Except DirectSwapError (ℕ × ℕ × ℕ) := do
  let (s, _) ← q.reached candidates liquidity sqrtPrice
  .ok (min s.totalOut u64Max, min s.totalFee u64Max, s.sqrtPrice)

end WalkRequest
end ScreenerBot.Direct.Venues
