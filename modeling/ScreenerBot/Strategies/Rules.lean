import Mathlib
import ScreenerBot.Library.Kleene

/-! The context a strategy is evaluated on, its rule tree, and the verdict of the tree. Conditions
read their parameters by name; the one on a position's profit is given whole. -/
namespace ScreenerBot.Strategies
open Library

/-- Nanoseconds since the Unix epoch. -/
abbrev Instant := ℤ

namespace Instant

/-- `DateTime::timestamp`: whole seconds. -/
def timestamp (at_ : Instant) : ℤ := at_ / 10 ^ 9

end Instant

structure Candle where
  timestamp : ℤ
  openPrice : ℚ
  high : ℚ
  low : ℚ
  close : ℚ
  volume : ℚ

structure TimeframeBundle where
  mint : String
  poolAddress : String
  timestamp : Instant
  m1 : List Candle
  m5 : List Candle
  m15 : List Candle
  h1 : List Candle
  h4 : List Candle
  h12 : List Candle
  d1 : List Candle
  cacheAgeSeconds : ℕ
  cacheHit : Bool

structure PositionData where
  entryPrice : ℚ
  entryTime : Instant
  currentSizeSol : ℚ
  unrealizedProfitPct : Option ℚ
  positionAgeHours : ℚ
  peakPrice : Option ℚ
  dcaCount : ℕ
  partialExitCount : ℕ
  remainingValueNative : Option ℚ
  entryLiquidityNative : Option ℚ
  entryLiquidityPool : Option String

structure LiquidityPool where
  address : String
  virtualReserves : Option Bool

structure WindowCounts where
  buys : ℕ
  sells : ℕ

structure TransactionCounts where
  m5 : Option WindowCounts
  h1 : Option WindowCounts
  h6 : Option WindowCounts
  h24 : Option WindowCounts

structure MarketData where
  liquiditySol : Option ℚ
  liquidityPool : Option LiquidityPool
  transactions : Option TransactionCounts
  snapshotAt : Option Instant
  tokenCreatedAt : Option Instant
  referenceSizeNative : Option ℚ

structure EvaluationContext where
  tokenMint : String
  currentPrice : Option ℚ
  positionData : Option PositionData
  marketData : Option MarketData
  timeframeBundle : Option TimeframeBundle
  strategyTimeframe : String
  evaluatedAt : Instant

/-- The same context under another reading of the clock. -/
def EvaluationContext.readAt (context : EvaluationContext) (at_ : Instant) : EvaluationContext :=
  { context with evaluatedAt := at_ }

inductive ErrorValue where
  | text (value : String)
  | number (value : ℚ)
  deriving DecidableEq

inductive Error where
  | missingConditionParameter (field : String)
  | conditionParameterType (field expected : String)
  | invalidConditionValue (field : String) (value : ErrorValue)
  | missingContextData (data : String)
  | noCandleData (timeframe : String)
  | insufficientHistory (indicator : String) (availableSeconds requiredSeconds : ℤ)
  | insufficientCandles (indicator : String) (available required : ℕ)
  | staleCandleData (timeframe : String) (ageSeconds maxAgeSeconds : ℤ)
  | staleMarketData (window : String) (ageSeconds maxAgeSeconds : ℤ)
  | unusableData (field : String) (value : ErrorValue)
  | invalidRuleTree (reason : String)
  | evaluationTimeout (timeoutMs : ℕ)
  deriving DecidableEq

/-- Whether the data to answer a condition is missing, rather than the strategy wrong. -/
def Error.isDataUnavailable : Error → Bool
  | missingContextData _ | noCandleData _ | insufficientHistory .. | insufficientCandles ..
  | staleCandleData .. | staleMarketData .. | unusableData .. => true
  | missingConditionParameter _ | conditionParameterType .. | invalidConditionValue ..
  | invalidRuleTree _ | evaluationTimeout _ => false

inductive ParameterValue where
  | number (value : ℚ)
  | text (value : String)
  | bool (value : Bool)
  | other

structure Condition where
  conditionType : String
  parameters : List (String × ParameterValue)

structure ConditionEvaluator where
  evaluate : Condition → EvaluationContext → Except Error Bool
  validate : Condition → Except Error Unit

/-- The evaluator registered for a condition type. -/
abbrev ConditionRegistry := String → Option ConditionEvaluator

inductive LogicalOperator where
  | and
  | or
  | not
  deriving DecidableEq

inductive RuleTree where
  | node (operator : Option LogicalOperator) (conditions : Option (List RuleTree))
      (condition : Option Condition) (disabled : Bool)

namespace RuleTree

def disabled : RuleTree → Bool
  | node _ _ _ disabled => disabled

def leaf (condition : Condition) : RuleTree := node none none (some condition) false

def branch (operator : LogicalOperator) (conditions : List RuleTree) : RuleTree :=
  node (some operator) (some conditions) none false

mutual

/-- The conditions of the switched-on leaves. -/
def conditionsOn : RuleTree → List Condition
  | node _ _ (some condition) _ => [condition]
  | node _ (some children) none _ => conditionsOnAll children
  | node _ none none _ => []

def conditionsOnAll : List RuleTree → List Condition
  | [] => []
  | child :: rest =>
    if child.disabled then conditionsOnAll rest else conditionsOn child ++ conditionsOnAll rest

end

end RuleTree

namespace ConditionRegistry

variable (registry : ConditionRegistry)

/-- A lack of data is unknown, any other error a fault. -/
def evaluateLeaf (condition : Condition) (context : EvaluationContext) :
    Except Error (Truth Error) := do
  let evaluator ← match registry condition.conditionType with
    | some evaluator => .ok evaluator
    | none => .error (.invalidConditionValue "condition type" (.text condition.conditionType))
  evaluator.validate condition
  match evaluator.evaluate condition context with
  | .ok value => .ok (.ofBool value)
  | .error e => if e.isDataUnavailable then .ok (.unknown e) else .error e

mutual

/-- A group stops at its first decisive child and never at an unknown one. -/
def evaluateRuleTree (context : EvaluationContext) : RuleTree → Except Error (Truth Error)
  | .node _ _ (some condition) _ => evaluateLeaf registry condition context
  | .node none _ none _ => .error (.invalidRuleTree "invalid rule tree structure")
  | .node (some _) none none _ => .error (.invalidRuleTree "branch node missing conditions")
  | .node (some .not) (some children) none _ =>
    match children with
    | [child] =>
      if child.disabled then
        .error (.invalidRuleTree "NOT operator cannot have a switched-off child")
      else (evaluateRuleTree context child).map Truth.negate
    | _ => .error (.invalidRuleTree "NOT operator must have exactly one child")
  | .node (some operator) (some children) none _ =>
    if children.all (·.disabled) then
      .error (.invalidRuleTree "a group needs at least one condition switched on")
    else evaluateChildren context { decisive := decide (operator = .or) } children

def evaluateChildren (context : EvaluationContext) (fold : GroupFold Error) :
    List RuleTree → Except Error (Truth Error)
  | [] => .ok fold.finish
  | child :: rest =>
    if child.disabled then evaluateChildren context fold rest
    else
      match evaluateRuleTree context child with
      | .error e => .error e
      | .ok truth =>
        if (fold.push truth).decided then .ok (fold.push truth).finish
        else evaluateChildren context (fold.push truth) rest

end

variable {registry}

/-- A group that met an unknown child is decided by a decisive child only. -/
theorem evaluateChildren_of_firstUnknown {context : EvaluationContext} :
    ∀ {children : List RuleTree} {fold : GroupFold Error} {t : Truth Error},
      fold.firstUnknown.isSome → evaluateChildren registry context fold children = .ok t →
      t.Refines (.ofBool fold.decisive) := by
  intro children
  induction children with
  | nil =>
    intro fold t hunknown h
    simp only [evaluateChildren, Except.ok.injEq] at h
    subst h
    exact GroupFold.finish_of_firstUnknown hunknown
  | cons child rest ih =>
    intro fold t hunknown h
    rw [evaluateChildren] at h
    split at h
    · exact ih hunknown h
    · split at h
      · cases h
      · rename_i truth _
        have hpush := GroupFold.push_firstUnknown_isSome hunknown truth
        rw [← GroupFold.push_decisive fold truth]
        split at h
        · cases h
          exact GroupFold.finish_of_firstUnknown hpush
        · exact ih hpush h

/-- A condition that has a verdict on the first context has it on the second, and is at fault there
only if it was at fault. -/
def Keeps (registry : ConditionRegistry) (first second : EvaluationContext)
    (condition : Condition) :
    Prop :=
  ∀ t, evaluateLeaf registry condition first = .ok t →
    ∃ u, evaluateLeaf registry condition second = .ok u ∧ t.Refines u

variable {first second : EvaluationContext}

mutual

theorem evaluateRuleTree_refines : ∀ (tree : RuleTree),
    (∀ condition ∈ tree.conditionsOn, Keeps registry first second condition) →
    ∀ t, evaluateRuleTree registry first tree = .ok t →
      ∃ u, evaluateRuleTree registry second tree = .ok u ∧ t.Refines u
  | .node operator children (some condition) off, hkeeps, t, h => by
    simp only [RuleTree.conditionsOn, List.mem_singleton, forall_eq] at hkeeps
    simp only [evaluateRuleTree] at h ⊢
    exact hkeeps t h
  | .node none children none off, _, t, h => by simp [evaluateRuleTree] at h
  | .node (some operator) none none off, _, t, h => by simp [evaluateRuleTree] at h
  | .node (some .not) (some []) none off, _, t, h => by simp [evaluateRuleTree] at h
  | .node (some .not) (some (_ :: _ :: _)) none off, _, t, h => by simp [evaluateRuleTree] at h
  | .node (some .not) (some [child]) none off, hkeeps, t, h => by
    simp only [evaluateRuleTree] at h ⊢
    split at h
    · cases h
    · rename_i hon
      simp only [RuleTree.conditionsOn, RuleTree.conditionsOnAll, hon, Bool.false_eq_true, if_false,
        List.append_nil] at hkeeps
      cases hchild : evaluateRuleTree registry first child with
      | error e => rw [hchild] at h; cases h
      | ok truth =>
        rw [hchild] at h
        cases h
        obtain ⟨u, hu, hrefines⟩ := evaluateRuleTree_refines child hkeeps truth hchild
        refine ⟨u.negate, ?_, hrefines.negate⟩
        simp [hon, hu, Except.map]
  | .node (some .and) (some children) none off, hkeeps, t, h => by
    simp only [evaluateRuleTree] at h ⊢
    split at h
    · cases h
    · rename_i hsome
      rw [if_neg hsome]
      exact evaluateChildren_refines children (.start _) hkeeps t h
  | .node (some .or) (some children) none off, hkeeps, t, h => by
    simp only [evaluateRuleTree] at h ⊢
    split at h
    · cases h
    · rename_i hsome
      rw [if_neg hsome]
      exact evaluateChildren_refines children (.start _) hkeeps t h

theorem evaluateChildren_refines : ∀ (children : List RuleTree) {f g : GroupFold Error},
    f.Refines g →
    (∀ condition ∈ RuleTree.conditionsOnAll children, Keeps registry first second condition) →
    ∀ t, evaluateChildren registry first f children = .ok t →
      ∃ u, evaluateChildren registry second g children = .ok u ∧ t.Refines u
  | [], f, g, hfold, _, t, h => by
    simp only [evaluateChildren, Except.ok.injEq] at h ⊢
    subst h
    exact ⟨_, rfl, hfold.finish⟩
  | child :: rest, f, g, hfold, hkeeps, t, h => by
    rw [evaluateChildren] at h ⊢
    rw [RuleTree.conditionsOnAll] at hkeeps
    split at h
    · rename_i hoff
      rw [if_pos hoff] at hkeeps ⊢
      exact evaluateChildren_refines rest hfold hkeeps t h
    · rename_i hon
      rw [if_neg hon] at hkeeps ⊢
      have hchildren := fun condition hmem => hkeeps condition (List.mem_append_left _ hmem)
      have hrest := fun condition hmem => hkeeps condition (List.mem_append_right _ hmem)
      split at h
      · cases h
      · rename_i truth htruth
        obtain ⟨u, hu, hrefines⟩ := evaluateRuleTree_refines child hchildren truth htruth
        have hpush := hfold.push hrefines
        simp only [hu]
        split at h
        · rename_i hdecided
          cases h
          rw [if_pos (hpush.decided hdecided)]
          exact ⟨_, rfl, hpush.finish⟩
        · rename_i hundecided
          have hundecided := Bool.eq_false_iff.mpr hundecided
          by_cases hg : (g.push u).decided
          · -- an unknown child of the first turned decisive: only so can the first end decided
            have hunknown : (f.push truth).firstUnknown.isSome := by
              by_contra hnone
              have hopen := hpush.open_ hundecided (Option.not_isSome_iff_eq_none.mp hnone)
              rw [hopen.1] at hg
              cases hg
            rw [if_pos hg]
            refine ⟨_, rfl, ?_⟩
            rw [GroupFold.finish_of_decided hg, hpush.decisive]
            exact evaluateChildren_of_firstUnknown hunknown h
          · rw [if_neg hg]
            exact evaluateChildren_refines rest hpush hrest t h

end

/-- No condition of `S` has a verdict on the context. -/
def Undecided (registry : ConditionRegistry) (context : EvaluationContext) (condition : Condition) :
    Prop :=
  ∀ b, evaluateLeaf registry condition context ≠ .ok (.ofBool b)

variable {context : EvaluationContext}

mutual

theorem evaluateRuleTree_undecided : ∀ (tree : RuleTree),
    (∀ condition ∈ tree.conditionsOn, Undecided registry context condition) →
    ∀ b, evaluateRuleTree registry context tree ≠ .ok (.ofBool b)
  | .node operator children (some condition) off, hleaves, b => by
    simp only [RuleTree.conditionsOn, List.mem_singleton, forall_eq] at hleaves
    simp only [evaluateRuleTree]
    exact hleaves b
  | .node none children none off, _, b => by simp [evaluateRuleTree]
  | .node (some operator) none none off, _, b => by simp [evaluateRuleTree]
  | .node (some .not) (some []) none off, _, b => by simp [evaluateRuleTree]
  | .node (some .not) (some (_ :: _ :: _)) none off, _, b => by simp [evaluateRuleTree]
  | .node (some .not) (some [child]) none off, hleaves, b => by
    intro h
    simp only [evaluateRuleTree] at h
    split at h
    · cases h
    · rename_i hon
      simp only [RuleTree.conditionsOn, RuleTree.conditionsOnAll, hon, Bool.false_eq_true, if_false,
        List.append_nil] at hleaves
      cases hchild : evaluateRuleTree registry context child with
      | error e => rw [hchild] at h; cases h
      | ok truth =>
        rw [hchild] at h
        rcases Truth.ofBool_or_unknown truth with ⟨value, rfl⟩ | ⟨e, rfl⟩
        · exact evaluateRuleTree_undecided child hleaves value hchild
        · cases b <;> cases h
  | .node (some .and) (some children) none off, hleaves, b => by
    simp only [evaluateRuleTree]
    split
    · intro h; cases h
    · rename_i hsome
      exact evaluateChildren_undecided children rfl (.inr hsome) hleaves b
  | .node (some .or) (some children) none off, hleaves, b => by
    simp only [evaluateRuleTree]
    split
    · intro h; cases h
    · rename_i hsome
      exact evaluateChildren_undecided children rfl (.inr hsome) hleaves b

theorem evaluateChildren_undecided : ∀ (children : List RuleTree) {fold : GroupFold Error},
    fold.decided = false → fold.firstUnknown.isSome ∨ ¬ children.all (·.disabled) →
    (∀ condition ∈ RuleTree.conditionsOnAll children, Undecided registry context condition) →
    ∀ b, evaluateChildren registry context fold children ≠ .ok (.ofBool b)
  | [], fold, hopen, hunknown, _, b => by
    obtain ⟨e, he⟩ := Option.isSome_iff_exists.mp (hunknown.resolve_right (by simp))
    intro h
    simp only [evaluateChildren, GroupFold.finish, hopen, he, Bool.false_eq_true, if_false] at h
    cases b <;> cases h
  | child :: rest, fold, hopen, hunknown, hleaves, b => by
    intro h
    rw [evaluateChildren] at h
    rw [RuleTree.conditionsOnAll] at hleaves
    split at h
    · rename_i hoff
      rw [if_pos hoff] at hleaves
      refine evaluateChildren_undecided rest hopen ?_ hleaves b h
      simpa [hoff] using hunknown
    · rename_i hon
      rw [if_neg hon] at hleaves
      have hchildren := fun condition hmem => hleaves condition (List.mem_append_left _ hmem)
      have hrest := fun condition hmem => hleaves condition (List.mem_append_right _ hmem)
      split at h
      · cases h
      · rename_i truth htruth
        rcases Truth.ofBool_or_unknown truth with ⟨value, rfl⟩ | ⟨e, rfl⟩
        · exact evaluateRuleTree_undecided child hchildren value htruth
        · have hpush : (fold.push (.unknown e)).decided = false := hopen
          have hsome : (fold.push (.unknown e)).firstUnknown.isSome := by simp [GroupFold.push]
          simp only [hpush, Bool.false_eq_true, if_false] at h
          exact evaluateChildren_undecided rest hpush (.inl hsome) hrest b h

end

end ConditionRegistry

def getParamF64 (condition : Condition) (paramName : String) : Except Error ℚ :=
  match condition.parameters.lookup paramName with
  | none => .error (.missingConditionParameter paramName)
  | some (.number value) => .ok value
  | some _ => .error (.conditionParameterType paramName "a number")

def getParamF64InRange (condition : Condition) (paramName field : String) (min max : ℚ) :
    Except Error ℚ := do
  let value ← getParamF64 condition paramName
  if min ≤ value ∧ value ≤
    max then .ok value else .error (.invalidConditionValue field (.number value))

def getParamString (condition : Condition) (paramName : String) : Except Error String :=
  match condition.parameters.lookup paramName with
  | none => .error (.missingConditionParameter paramName)
  | some (.text value) => .ok value
  | some _ => .error (.conditionParameterType paramName "a string")

def getParamChoice (condition : Condition) (paramName field : String) (allowed : List String) :
    Except Error String := do
  let value ← getParamString condition paramName
  if value ∈ allowed then .ok value else .error (.invalidConditionValue field (.text value))

def ConditionRegistry.register (registry : ConditionRegistry) (conditionType : String)
    (evaluator : ConditionEvaluator) : ConditionRegistry :=
  fun name => if name = conditionType then some evaluator else registry name

namespace PositionProfit

structure Params where
  above : Bool
  thresholdPct : ℚ

def Params.read (condition : Condition) : Except Error Params := do
  let comparison ← getParamChoice condition "comparison" "comparison" ["ABOVE", "BELOW"]
  let thresholdPct ← getParamF64InRange condition "threshold_pct" "threshold" (-99) 10000
  .ok { above := decide (comparison = "ABOVE"), thresholdPct }

def evaluate (condition : Condition) (context : EvaluationContext) : Except Error Bool := do
  let params ← Params.read condition
  let profitPct ← match context.positionData.bind (·.unrealizedProfitPct) with
    | some pct => .ok pct
    | none => .error (.missingContextData "position data")
  .ok (if params.above then decide (params.thresholdPct ≤ profitPct)
    else decide (profitPct ≤ params.thresholdPct))

def evaluator : ConditionEvaluator where
  evaluate := evaluate
  validate condition := (Params.read condition).map fun _ => ()

/-- A condition that passed its validation lacks data, if it fails. -/
theorem evaluate_of_validate {condition : Condition} {context : EvaluationContext} {e : Error}
    (hvalid : evaluator.validate condition = .ok ()) (h : evaluate condition context = .error e) :
    e.isDataUnavailable := by
  cases hread : Params.read condition with
  | error e' =>
    simp only [evaluator, hread] at hvalid
    cases hvalid
  | ok params =>
    simp only [evaluate, hread] at h
    cases hprofit : context.positionData.bind (·.unrealizedProfitPct) with
    | none =>
      simp only [hprofit] at h
      cases h
      rfl
    | some pct =>
      simp only [hprofit] at h
      cases h

end PositionProfit

end ScreenerBot.Strategies
