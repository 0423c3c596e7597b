import ScreenerBot.Library.Fallible
import ScreenerBot.Strategies.Engine
import ScreenerBot.Strategies.TreeValue

/-!
The explanation of a rule tree and the validation of a strategy, against the evaluation of the tree.

An evaluation stops at a group's first decisive child; an explanation visits every child that is
switched on.
-/
namespace ScreenerBot.Strategies
open Library

inductive StrategyType where
  | entry
  | exit
  deriving DecidableEq

inductive RuleVerdict where
  | pass
  | fail
  | unknown
  | off
  deriving DecidableEq

/-- The evaluation of one node and of every node under it; `reason` is the error whose text is
shown. -/
inductive RuleOutcome where
  | mk (verdict : RuleVerdict) (operator : Option LogicalOperator) (conditionType : Option String)
      (reason : Option Error) (children : List RuleOutcome)

def RuleOutcome.verdict : RuleOutcome → RuleVerdict
  | mk verdict _ _ _ _ => verdict

/-- The verdict a value is shown as. -/
def ruleVerdict : Option Bool → RuleVerdict
  | some true => .pass
  | some false => .fail
  | none => .unknown

/-- The outcome of a node that reached this value. -/
def truthOutcome (truth : Truth Error) (operator : Option LogicalOperator)
    (conditionType : Option String) (children : List RuleOutcome) : RuleOutcome :=
  match truth with
  | .true => .mk .pass operator conditionType none children
  | .false => .mk .fail operator conditionType none children
  | .unknown e => .mk .unknown operator conditionType (some e) children

mutual

/-- A switched-off node and every node under it: off, not evaluated. -/
def switchedOff : RuleTree → RuleOutcome
  | .node operator none condition _ =>
    .mk .off operator (condition.map Condition.conditionType) none []
  | .node operator (some children) condition _ =>
    .mk .off operator (condition.map Condition.conditionType) none (switchedOffAll children)

def switchedOffAll : List RuleTree → List RuleOutcome
  | [] => []
  | child :: rest => switchedOff child :: switchedOffAll rest

end

namespace ConditionRegistry

variable (registry : ConditionRegistry) (context : EvaluationContext)

mutual

/-- Every node that is switched on, with its outcome. -/
def explainRuleTree : RuleTree → Except Error (RuleOutcome × Truth Error)
  | .node _ _ (some condition) _ =>
    (evaluateLeaf registry condition context).map fun truth =>
      (truthOutcome truth none (some condition.conditionType) [], truth)
  | .node none _ none _ => .error (.invalidRuleTree "invalid rule tree structure")
  | .node (some _) none none _ => .error (.invalidRuleTree "branch node missing conditions")
  | .node (some .not) (some children) none _ =>
    match children with
    | [child] =>
      if child.disabled then
        .error (.invalidRuleTree "NOT operator cannot have a switched-off child")
      else (explainRuleTree child).map fun explained =>
        (truthOutcome explained.2.negate (some .not) none [explained.1], explained.2.negate)
    | _ => .error (.invalidRuleTree "NOT operator must have exactly one child")
  | .node (some operator) (some children) none _ =>
    if children.all (·.disabled) then
      .error (.invalidRuleTree "a group needs at least one condition switched on")
    else (explainChildren { decisive := decide (operator = .or) } children).map fun explained =>
      (truthOutcome explained.2.finish (some operator) none explained.1, explained.2.finish)

/-- The children's outcomes in order, and the fold of their values. -/
def explainChildren (fold : GroupFold Error) :
    List RuleTree → Except Error (List RuleOutcome × GroupFold Error)
  | [] => .ok ([], fold)
  | child :: rest =>
    if child.disabled then
      (explainChildren fold rest).map fun explained =>
      (switchedOff child :: explained.1, explained.2)
    else
      match explainRuleTree child with
      | .error e => .error e
      | .ok (outcome, truth) =>
        (explainChildren (fold.push truth) rest).map fun explained =>
          (outcome :: explained.1, explained.2)

end

inductive StrategyRefusal where
  | engine (error : Error)
  | conditionNotApplicable (conditionType : String) (strategyType : StrategyType)

def maxRuleDepth : ℕ := 4

variable (appliesTo : String → List StrategyType) (strategyType : StrategyType)

/-- A condition that is switched on or off must be registered, apply to the strategy and be
valid. -/
def validateLeaf (condition : Condition) : Except StrategyRefusal Unit :=
  match registry condition.conditionType with
  | none => .error (.engine
      (.invalidConditionValue "condition type" (.text condition.conditionType)))
  | some evaluator =>
    if strategyType ∈ appliesTo condition.conditionType then
      (evaluator.validate condition).mapError .engine
    else .error (.conditionNotApplicable condition.conditionType strategyType)

/-- What a group's own children must be, before each is looked at. -/
def validateGroup (operator : LogicalOperator) (children : List RuleTree) :
    Except StrategyRefusal Unit :=
  let malformed (reason : String) : Except StrategyRefusal Unit :=
    .error (.engine (.invalidRuleTree reason))
  if children.isEmpty then malformed "branch node must have at least one child"
  else if operator = .not ∧ children.length ≠ 1 then
    malformed "NOT operator must have exactly one child"
  else if operator = .not ∧ (children.head?.any (·.disabled)) then
    malformed "NOT operator cannot have a switched-off child"
  else if children.all (·.disabled) then
    malformed "a group needs at least one condition switched on"
  else .ok ()

mutual

/-- The root is at depth 1. -/
def validateRuleTree (depth : ℕ) : RuleTree → Except StrategyRefusal Unit
  | .node operator conditions condition disabled =>
    if maxRuleDepth < depth then
      .error (.engine (.invalidRuleTree "rules nest deeper than four levels"))
    else if depth = 1 ∧ disabled then
      .error (.engine (.invalidRuleTree "the root group cannot be switched off"))
    else
      match condition, operator, conditions with
      | some condition, _, _ => validateLeaf registry appliesTo strategyType condition
      | none, some operator, some children =>
        match validateGroup operator children with
        | .error e => .error e
        | .ok () => validateChildren (depth + 1) children
      | none, some _, none => .error (.engine (.invalidRuleTree "branch node missing conditions"))
      | none, none, _ => .error (.engine (.invalidRuleTree "invalid rule tree structure"))

/-- Switched-off children included: they must be well formed for when they are switched on. -/
def validateChildren (depth : ℕ) : List RuleTree → Except StrategyRefusal Unit
  | [] => .ok ()
  | child :: rest =>
    match validateRuleTree depth child with
    | .error e => .error e
    | .ok () => validateChildren depth rest

end

end ConditionRegistry

namespace ConditionRegistry
variable {registry : ConditionRegistry} {context : EvaluationContext}

mutual

/-- Every node that is switched on is well formed, and no condition of it is at fault. -/
def FaultFree (registry : ConditionRegistry) (context : EvaluationContext) : RuleTree → Prop
  | .node _ _ (some condition) _ => ∃ truth, evaluateLeaf registry condition context = .ok truth
  | .node none _ none _ => False
  | .node (some _) none none _ => False
  | .node (some .not) (some children) none _ =>
    match children with
    | [child] => child.disabled = false ∧ FaultFree registry context child
    | _ => False
  | .node (some _) (some children) none _ =>
    children.all (·.disabled) = false ∧ FaultFreeAll registry context children

def FaultFreeAll (registry : ConditionRegistry) (context : EvaluationContext) :
    List RuleTree → Prop
  | [] => True
  | child :: rest =>
    (child.disabled = false → FaultFree registry context child) ∧ FaultFreeAll registry context rest

end

theorem truthOutcome_verdict (truth : Truth Error) (operator : Option LogicalOperator)
    (conditionType : Option String) (children : List RuleOutcome) :
    (truthOutcome truth operator conditionType children).verdict = ruleVerdict truth.value := by
  cases truth <;> rfl

mutual

/-- A value explained is the Kleene value, and the root shows it. -/
theorem explainRuleTree_value : ∀ (tree : RuleTree) {explained : RuleOutcome × Truth Error},
    explainRuleTree registry context tree = .ok explained →
      explained.2.value = treeValue registry context tree ∧
        explained.1.verdict = ruleVerdict explained.2.value
  | .node operator children (some condition) off, explained, h => by
    simp only [explainRuleTree] at h
    obtain ⟨truth, htruth, rfl⟩ := map_eq_ok.mp h
    exact ⟨(treeValue_leaf htruth).symm, truthOutcome_verdict _ _ _ _⟩
  | .node none children none off, _, h => by simp [explainRuleTree] at h
  | .node (some operator) none none off, _, h => by simp [explainRuleTree] at h
  | .node (some .not) (some []) none off, _, h => by simp [explainRuleTree] at h
  | .node (some .not) (some (_ :: _ :: _)) none off, _, h => by simp [explainRuleTree] at h
  | .node (some .not) (some [child]) none off, explained, h => by
    simp only [explainRuleTree] at h
    split at h
    · cases h
    · rename_i hon
      obtain ⟨inner, hinner, rfl⟩ := map_eq_ok.mp h
      refine ⟨?_, truthOutcome_verdict _ _ _ _⟩
      rw [Truth.value_negate, (explainRuleTree_value child hinner).1,
        treeValue_not (by simpa using hon)]
  | .node (some .and) (some children) none off, explained, h => by
    simp only [explainRuleTree] at h
    split at h
    · cases h
    · obtain ⟨inner, hinner, rfl⟩ := map_eq_ok.mp h
      refine ⟨?_, truthOutcome_verdict _ _ _ _⟩
      rw [treeValue_group, operatorValue_fold (by decide)]
      exact explainChildren_value children (GroupFold.saw_start _) hinner
  | .node (some .or) (some children) none off, explained, h => by
    simp only [explainRuleTree] at h
    split at h
    · cases h
    · obtain ⟨inner, hinner, rfl⟩ := map_eq_ok.mp h
      refine ⟨?_, truthOutcome_verdict _ _ _ _⟩
      rw [treeValue_group, operatorValue_fold (by decide)]
      exact explainChildren_value children (GroupFold.saw_start _) hinner

theorem explainChildren_value : ∀ (children : List RuleTree) {fold : GroupFold Error}
    {seen : List (Option Bool)} {explained : List RuleOutcome × GroupFold Error}, fold.Saw seen →
    explainChildren registry context fold children = .ok explained →
      explained.2.finish.value =
        groupValue fold.decisive (seen ++ childValues registry context children)
  | [], fold, seen, explained, hsaw, h => by
    simp only [explainChildren, Except.ok.injEq] at h
    rw [← h, hsaw.finish]
    simp [childValues, RuleTree.switchedOnAll]
  | child :: rest, fold, seen, explained, hsaw, h => by
    rw [explainChildren] at h
    rw [childValues_cons]
    split at h
    · rename_i hoff
      rw [if_pos hoff]
      obtain ⟨inner, hinner, rfl⟩ := map_eq_ok.mp h
      have hrest := explainChildren_value rest hsaw hinner
      exact hrest
    · rename_i hon
      rw [if_neg hon]
      split at h
      · cases h
      · rename_i outcome truth hchild
        obtain ⟨inner, hinner, rfl⟩ := map_eq_ok.mp h
        have hrest := explainChildren_value rest (hsaw.push truth) hinner
        rw [GroupFold.push_decisive] at hrest
        rw [← (explainRuleTree_value child hchild).1, List.append_cons]
        exact hrest

end

/-- A group that has a child switched on reaches a value where its children do. -/
theorem explain_group_isOk {off : Bool} {e : Error} {β : Type}
    {children : Except Error (List RuleOutcome × GroupFold Error)}
    {f : List RuleOutcome × GroupFold Error → β} :
    (∃ explained, (if off = true then .error e else children.map f) = .ok explained) ↔
      off = false ∧ ∃ inner, children = .ok inner := by
  cases off with
  | true => simp
  | false =>
    simp only [Bool.false_eq_true, if_false, true_and]
    exact exists_map_eq_ok

mutual

/-- The explanation reaches a value exactly where nothing switched on is at fault. -/
theorem explainRuleTree_isOk : ∀ (tree : RuleTree),
    (∃ explained, explainRuleTree registry context tree = .ok explained) ↔
      FaultFree registry context tree
  | .node operator children (some condition) off => by
    simp only [explainRuleTree, FaultFree]
    exact exists_map_eq_ok
  | .node none children none off => by simp [explainRuleTree, FaultFree]
  | .node (some operator) none none off => by simp [explainRuleTree, FaultFree]
  | .node (some .not) (some []) none off => by simp [explainRuleTree, FaultFree]
  | .node (some .not) (some (_ :: _ :: _)) none off => by simp [explainRuleTree, FaultFree]
  | .node (some .not) (some [child]) none off => by
    simp only [explainRuleTree, FaultFree]
    rw [← explainRuleTree_isOk child]
    cases child.disabled with
    | true => simp
    | false =>
      simp only [Bool.false_eq_true, if_false, true_and]
      exact exists_map_eq_ok
  | .node (some .and) (some children) none off => by
    simp only [explainRuleTree, FaultFree]
    rw [← explainChildren_isOk children { decisive := decide (LogicalOperator.and = .or) }]
    exact explain_group_isOk
  | .node (some .or) (some children) none off => by
    simp only [explainRuleTree, FaultFree]
    rw [← explainChildren_isOk children { decisive := decide (LogicalOperator.or = .or) }]
    exact explain_group_isOk

theorem explainChildren_isOk : ∀ (children : List RuleTree) (fold : GroupFold Error),
    (∃ explained, explainChildren registry context fold children = .ok explained) ↔
      FaultFreeAll registry context children
  | [], fold => by simp [explainChildren, FaultFreeAll]
  | child :: rest, fold => by
    rw [explainChildren, FaultFreeAll]
    cases hoff : child.disabled with
    | true =>
      rw [← explainChildren_isOk rest fold, if_pos rfl, exists_map_eq_ok]
      simp
    | false =>
      rw [← explainRuleTree_isOk child]
      cases hchild : explainRuleTree registry context child with
      | error e => simp
      | ok explained =>
        obtain ⟨outcome, truth⟩ := explained
        rw [← explainChildren_isOk rest (fold.push truth), if_neg (by simp)]
        simp only [exists_map_eq_ok]
        simp

end

mutual

/-- The shape both evaluations ask of a node, at every node. -/
def WellFormed : RuleTree → Prop
  | .node _ _ (some _) _ => True
  | .node none _ none _ => False
  | .node (some _) none none _ => False
  | .node (some .not) (some children) none _ =>
    match children with
    | [child] => child.disabled = false ∧ WellFormed child
    | _ => False
  | .node (some _) (some children) none _ =>
    children.all (·.disabled) = false ∧ WellFormedAll children

def WellFormedAll : List RuleTree → Prop
  | [] => True
  | child :: rest => WellFormed child ∧ WellFormedAll rest

end

section Validate
variable {appliesTo : String → List StrategyType} {strategyType : StrategyType}

theorem validateGroup_eq_ok {operator : LogicalOperator} {children : List RuleTree}
    (h : validateGroup operator children = .ok ()) :
    children.all (·.disabled) = false ∧
      (operator = .not → ∃ child, children = [child] ∧ child.disabled = false) := by
  unfold validateGroup at h
  dsimp only at h
  split_ifs at h with hempty hcount hoff hall
  refine ⟨by simpa using hall, ?_⟩
  rintro rfl
  simp only [true_and, not_not] at hcount hoff
  obtain ⟨child, rfl⟩ := List.length_eq_one_iff.mp hcount
  exact ⟨child, rfl, by simpa using hoff⟩

mutual

/-- An accepted tree is well formed at every node. -/
theorem wellFormed_of_validateRuleTree : ∀ (tree : RuleTree) {depth : ℕ},
    validateRuleTree registry appliesTo strategyType depth tree = .ok () → WellFormed tree
  | .node operator children (some condition) off, depth, h => by simp [WellFormed]
  | .node none children none off, depth, h => by
    rw [validateRuleTree] at h
    split_ifs at h
  | .node (some operator) none none off, depth, h => by
    rw [validateRuleTree] at h
    split_ifs at h
  | .node (some operator) (some children) none off, depth, h => by
    rw [validateRuleTree] at h
    split_ifs at h
    split at h
    · cases h
    · rename_i hgroup
      obtain ⟨hsome, hnot⟩ := validateGroup_eq_ok hgroup
      have hall := wellFormedAll_of_validateChildren children h
      cases operator with
      | not =>
        obtain ⟨child, rfl, hon⟩ := hnot rfl
        rw [WellFormedAll] at hall
        simp only [WellFormed]
        exact ⟨hon, hall.1⟩
      | and =>
        simp only [WellFormed]
        exact ⟨hsome, hall⟩
      | or =>
        simp only [WellFormed]
        exact ⟨hsome, hall⟩

theorem wellFormedAll_of_validateChildren : ∀ (children : List RuleTree) {depth : ℕ},
    validateChildren registry appliesTo strategyType depth children = .ok () →
      WellFormedAll children
  | [], depth, h => by simp [WellFormedAll]
  | child :: rest, depth, h => by
    rw [validateChildren] at h
    split at h
    · cases h
    · rename_i hchild
      rw [WellFormedAll]
      exact ⟨wellFormed_of_validateRuleTree child hchild, wellFormedAll_of_validateChildren rest h⟩

end

end Validate

/-- The error is that of a condition that is switched on. -/
def LeafError (registry : ConditionRegistry) (context : EvaluationContext)
    (conditions : List Condition) (e : Error) : Prop :=
  ∃ condition ∈ conditions, evaluateLeaf registry condition context = .error e

theorem LeafError.mono {conditions conditions' : List Condition} {e : Error}
    (h : LeafError registry context conditions e) (hsub : conditions ⊆ conditions') :
    LeafError registry context conditions' e := by
  obtain ⟨condition, hmem, herror⟩ := h
  exact ⟨condition, hsub hmem, herror⟩

mutual

/-- A well-formed tree is refused for a condition only. -/
theorem evaluateRuleTree_leafError : ∀ (tree : RuleTree) {e : Error}, WellFormed tree →
    evaluateRuleTree registry context tree = .error e →
      LeafError registry context tree.conditionsOn e
  | .node operator children (some condition) off, e, _, h => by
    simp only [evaluateRuleTree] at h
    exact ⟨condition, by simp [RuleTree.conditionsOn], h⟩
  | .node none children none off, e, hwf, _ => by simp [WellFormed] at hwf
  | .node (some operator) none none off, e, hwf, _ => by simp [WellFormed] at hwf
  | .node (some .not) (some []) none off, e, hwf, _ => by simp [WellFormed] at hwf
  | .node (some .not) (some (_ :: _ :: _)) none off, e, hwf, _ => by simp [WellFormed] at hwf
  | .node (some .not) (some [child]) none off, e, hwf, h => by
    simp only [WellFormed] at hwf
    simp only [evaluateRuleTree, hwf.1, Bool.false_eq_true, if_false] at h
    have hchild : evaluateRuleTree registry context child = .error e := map_eq_error.mp h
    refine (evaluateRuleTree_leafError child hwf.2 hchild).mono ?_
    simp [RuleTree.conditionsOn, RuleTree.conditionsOnAll, hwf.1]
  | .node (some .and) (some children) none off, e, hwf, h => by
    simp only [WellFormed] at hwf
    simp only [evaluateRuleTree, hwf.1, Bool.false_eq_true, if_false] at h
    exact evaluateChildren_leafError children hwf.2 h
  | .node (some .or) (some children) none off, e, hwf, h => by
    simp only [WellFormed] at hwf
    simp only [evaluateRuleTree, hwf.1, Bool.false_eq_true, if_false] at h
    exact evaluateChildren_leafError children hwf.2 h

theorem evaluateChildren_leafError : ∀ (children : List RuleTree) {fold : GroupFold Error}
    {e : Error}, WellFormedAll children →
    evaluateChildren registry context fold children = .error e →
      LeafError registry context (RuleTree.conditionsOnAll children) e
  | [], fold, e, _, h => by simp [evaluateChildren] at h
  | child :: rest, fold, e, hwf, h => by
    rw [WellFormedAll] at hwf
    rw [evaluateChildren] at h
    rw [RuleTree.conditionsOnAll]
    split at h
    · rename_i hoff
      rw [if_pos hoff]
      exact evaluateChildren_leafError rest hwf.2 h
    · rename_i hon
      rw [if_neg hon]
      split at h
      · rename_i e' hchild
        obtain rfl := Except.error.inj h
        exact (evaluateRuleTree_leafError child hwf.1 hchild).mono (List.subset_append_left _ _)
      · split at h
        · cases h
        · exact (evaluateChildren_leafError rest hwf.2 h).mono (List.subset_append_right _ _)

end

mutual

theorem explainRuleTree_leafError : ∀ (tree : RuleTree) {e : Error}, WellFormed tree →
    explainRuleTree registry context tree = .error e →
      LeafError registry context tree.conditionsOn e
  | .node operator children (some condition) off, e, _, h => by
    simp only [explainRuleTree] at h
    exact ⟨condition, by simp [RuleTree.conditionsOn], map_eq_error.mp h⟩
  | .node none children none off, e, hwf, _ => by simp [WellFormed] at hwf
  | .node (some operator) none none off, e, hwf, _ => by simp [WellFormed] at hwf
  | .node (some .not) (some []) none off, e, hwf, _ => by simp [WellFormed] at hwf
  | .node (some .not) (some (_ :: _ :: _)) none off, e, hwf, _ => by simp [WellFormed] at hwf
  | .node (some .not) (some [child]) none off, e, hwf, h => by
    simp only [WellFormed] at hwf
    simp only [explainRuleTree, hwf.1, Bool.false_eq_true, if_false] at h
    refine (explainRuleTree_leafError child hwf.2 (map_eq_error.mp h)).mono ?_
    simp [RuleTree.conditionsOn, RuleTree.conditionsOnAll, hwf.1]
  | .node (some .and) (some children) none off, e, hwf, h => by
    simp only [WellFormed] at hwf
    simp only [explainRuleTree, hwf.1, Bool.false_eq_true, if_false] at h
    exact explainChildren_leafError children hwf.2 (map_eq_error.mp h)
  | .node (some .or) (some children) none off, e, hwf, h => by
    simp only [WellFormed] at hwf
    simp only [explainRuleTree, hwf.1, Bool.false_eq_true, if_false] at h
    exact explainChildren_leafError children hwf.2 (map_eq_error.mp h)

theorem explainChildren_leafError : ∀ (children : List RuleTree) {fold : GroupFold Error}
    {e : Error}, WellFormedAll children →
    explainChildren registry context fold children = .error e →
      LeafError registry context (RuleTree.conditionsOnAll children) e
  | [], fold, e, _, h => by simp [explainChildren] at h
  | child :: rest, fold, e, hwf, h => by
    rw [WellFormedAll] at hwf
    rw [explainChildren] at h
    rw [RuleTree.conditionsOnAll]
    split at h
    · rename_i hoff
      rw [if_pos hoff]
      exact explainChildren_leafError rest hwf.2 (map_eq_error.mp h)
    · rename_i hon
      rw [if_neg hon]
      split at h
      · rename_i e' hchild
        obtain rfl := Except.error.inj h
        exact (explainRuleTree_leafError child hwf.1 hchild).mono (List.subset_append_left _ _)
      · exact (explainChildren_leafError rest hwf.2 (map_eq_error.mp h)).mono
          (List.subset_append_right _ _)

end

/-- Where the evaluation reaches a value it is the Kleene value of what is switched on, whatever the
order of the groups; the explanation shows that value exactly where nothing switched on is at fault;
and an accepted tree is refused for its conditions only. -/
theorem explanation_settled (registry : ConditionRegistry) (context : EvaluationContext)
    (tree : RuleTree) :
    (∀ truth, evaluateRuleTree registry context tree = .ok truth →
      truth.value = treeValue registry context tree ∧
      ((∃ explained, explainRuleTree registry context tree = .ok explained ∧
          explained.1.verdict = ruleVerdict truth.value ∧
          explained.2.value = treeValue registry context tree) ↔
        FaultFree registry context tree)) ∧
    (∀ tree', tree.Reordered tree' →
      treeValue registry context tree' = treeValue registry context tree) ∧
    ∀ appliesTo strategyType, validateRuleTree registry appliesTo strategyType 1 tree = .ok () →
      ∀ e, evaluateRuleTree registry context tree = .error e ∨
          explainRuleTree registry context tree = .error e →
        LeafError registry context tree.conditionsOn e := by
  refine ⟨?_, ?_, ?_⟩
  · intro truth htruth
    have hvalue := evaluateRuleTree_value tree htruth
    refine ⟨hvalue, ?_⟩
    rw [← explainRuleTree_isOk]
    constructor
    · rintro ⟨explained, hexplained, -⟩
      exact ⟨explained, hexplained⟩
    · rintro ⟨explained, hexplained⟩
      obtain ⟨hexplainedValue, hverdict⟩ := explainRuleTree_value tree hexplained
      rw [hexplainedValue, ← hvalue] at hverdict
      exact ⟨explained, hexplained, hverdict, hexplainedValue⟩
  · exact fun tree' hreordered => hreordered.kleeneValue_eq _
  · rintro appliesTo strategyType hvalid e (herror | herror)
    · exact evaluateRuleTree_leafError tree (wellFormed_of_validateRuleTree tree hvalid) herror
    · exact explainRuleTree_leafError tree (wellFormed_of_validateRuleTree tree hvalid) herror

end ConditionRegistry

/-- A group that its first condition decides, before one whose threshold is out of range. -/
def decidedBeforeFault : RuleTree :=
  .branch .and
    [.leaf ⟨"PositionProfit", [("comparison", .text "ABOVE"), ("threshold_pct", .number 20)]⟩,
      .leaf ⟨"PositionProfit", [("comparison", .text "ABOVE"), ("threshold_pct", .number 20000)]⟩]

/-- The evaluation reaches a value and the explanation none. -/
theorem decided_value_not_explained :
    ShortOfTarget.engine.conditionRegistry.evaluateRuleTree (ShortOfTarget.context 5)
        decidedBeforeFault = .ok (.ofBool false) ∧
      (ShortOfTarget.engine.conditionRegistry.explainRuleTree (ShortOfTarget.context 5)
        decidedBeforeFault).isOk = false := by
  constructor
  · decide +kernel
  · decide +kernel

end ScreenerBot.Strategies
