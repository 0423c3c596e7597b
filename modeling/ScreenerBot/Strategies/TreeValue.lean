import ScreenerBot.Strategies.Rules

/-!
The Kleene value of a rule tree without its switched-off nodes: what an evaluation reaches, where it
reaches a value, and what no order of a group's children changes.
-/
namespace ScreenerBot.Strategies
open Library

namespace RuleTree

mutual

/-- The tree with its switched-off nodes removed. -/
def switchedOn : RuleTree → RuleTree
  | node operator none condition disabled => node operator none condition disabled
  | node operator (some children) condition disabled =>
    node operator (some (switchedOnAll children)) condition disabled

def switchedOnAll : List RuleTree → List RuleTree
  | [] => []
  | child :: rest => if child.disabled then switchedOnAll rest else switchedOn child ::
      switchedOnAll rest

end

/-- The value of a group of these values. -/
def operatorValue : LogicalOperator → List (Option Bool) → Option Bool
  | .and, values => groupValue false values
  | .or, values => groupValue true values
  | .not, [value] => value.map (!·)
  | .not, _ => none

mutual

/-- The Kleene value of a tree whose conditions have these; a malformed node is unknown. -/
def kleeneValue (leaf : Condition → Option Bool) : RuleTree → Option Bool
  | node _ _ (some condition) _ => leaf condition
  | node (some operator) (some children) none _ =>
      operatorValue operator (kleeneValues leaf children)
  | node (some _) none none _ => none
  | node none _ none _ => none

def kleeneValues (leaf : Condition → Option Bool) : List RuleTree → List (Option Bool)
  | [] => []
  | child :: rest => kleeneValue leaf child :: kleeneValues leaf rest

end

/-- The groups of the second tree hold the children of the first in another order. -/
inductive Reordered : RuleTree → RuleTree → Prop
  | refl (tree : RuleTree) : Reordered tree tree
  | trans {first second third : RuleTree} (h : Reordered first second)
      (h' : Reordered second third) : Reordered first third
  | children {operator : Option LogicalOperator} {children children' : List RuleTree}
      {condition : Option Condition} {disabled : Bool} (h : children.Perm children') :
      Reordered (node operator (some children) condition disabled)
        (node operator (some children') condition disabled)
  | child {operator : Option LogicalOperator} {before after : List RuleTree} {tree tree' : RuleTree}
      {condition : Option Condition} {disabled : Bool} (hoff : tree'.disabled = tree.disabled)
      (h : Reordered tree tree') :
      Reordered (node operator (some (before ++ tree :: after)) condition disabled)
        (node operator (some (before ++ tree' :: after)) condition disabled)

theorem switchedOnAll_eq (children : List RuleTree) :
    switchedOnAll children = (children.filter (!·.disabled)).map switchedOn := by
  induction children with
  | nil => simp [switchedOnAll]
  | cons child rest ih =>
    rw [switchedOnAll]
    cases hoff : child.disabled with
    | true => simp [hoff, ih]
    | false => simp [hoff, ih]

theorem kleeneValues_eq (leaf : Condition → Option Bool) (children : List RuleTree) :
    kleeneValues leaf children = children.map (kleeneValue leaf) := by
  induction children with
  | nil => simp [kleeneValues]
  | cons child rest ih => simp [kleeneValues, ih]

theorem operatorValue_perm {operator : LogicalOperator} {l l' : List (Option Bool)}
    (h : l.Perm l') : operatorValue operator l = operatorValue operator l' := by
  cases operator with
  | and => exact groupValue_congr fun _ => h.mem_iff
  | or => exact groupValue_congr fun _ => h.mem_iff
  | not =>
    by_cases hone : ∃ value, l = [value]
    · obtain ⟨value, rfl⟩ := hone
      rw [List.singleton_perm.mp h]
    · have hother (values : List (Option Bool)) (hvalues : ¬ ∃ value, values = [value]) :
          operatorValue .not values = none := by
        match values, hvalues with
        | [], _ => rfl
        | [value], hvalues => exact absurd ⟨value, rfl⟩ hvalues
        | _ :: _ :: _, _ => rfl
      have hone' : ¬ ∃ value, l' = [value] := by
        rintro ⟨value, rfl⟩
        exact hone ⟨value, List.perm_singleton.mp h⟩
      rw [hother l hone, hother l' hone']

/-- The order of a group's children does not matter. -/
theorem Reordered.kleeneValue_eq (leaf : Condition → Option Bool) {tree tree' : RuleTree}
    (h : Reordered tree tree') :
    kleeneValue leaf tree'.switchedOn = kleeneValue leaf tree.switchedOn := by
  induction h with
  | refl tree => rfl
  | trans _ _ ih ih' => exact ih'.trans ih
  | @children operator children children' condition disabled h =>
    cases condition with
    | some condition => simp [switchedOn, kleeneValue]
    | none =>
      cases operator with
      | none => simp [switchedOn, kleeneValue]
      | some operator =>
        simp only [switchedOn, kleeneValue, switchedOnAll_eq, kleeneValues_eq]
        exact (operatorValue_perm (((h.filter _).map _).map _)).symm
  | @child operator before after tree tree' condition disabled hoff h ih =>
    cases condition with
    | some condition => simp [switchedOn, kleeneValue]
    | none =>
      cases operator with
      | none => simp [switchedOn, kleeneValue]
      | some operator =>
        simp only [switchedOn, kleeneValue, switchedOnAll_eq, kleeneValues_eq, List.filter_append,
          List.filter_cons, List.map_append, hoff]
        cases tree.disabled with
        | true => rfl
        | false => simp [ih]

end RuleTree

namespace ConditionRegistry
variable {registry : ConditionRegistry} {context : EvaluationContext}

/-- The value of a condition; a fault has none. -/
def leafValue (registry : ConditionRegistry) (context : EvaluationContext) (condition : Condition) :
    Option Bool :=
  match evaluateLeaf registry condition context with
  | .ok truth => truth.value
  | .error _ => none

/-- The Kleene value of a tree without its switched-off nodes. -/
def treeValue (registry : ConditionRegistry) (context : EvaluationContext) (tree : RuleTree) :
    Option Bool := tree.switchedOn.kleeneValue (leafValue registry context)

/-- The values of the children that are switched on. -/
def childValues (registry : ConditionRegistry) (context : EvaluationContext)
    (children : List RuleTree) : List (Option Bool) :=
  (RuleTree.switchedOnAll children).map (RuleTree.kleeneValue (leafValue registry context))

theorem childValues_cons (child : RuleTree) (rest : List RuleTree) :
    childValues registry context (child :: rest) =
      if child.disabled then childValues registry context rest
      else treeValue registry context child :: childValues registry context rest := by
  unfold childValues treeValue
  rw [RuleTree.switchedOnAll]
  split_ifs <;> rfl

theorem treeValue_leaf {operator : Option LogicalOperator} {children : Option (List RuleTree)}
    {condition : Condition} {disabled : Bool} {truth : Truth Error}
    (h : evaluateLeaf registry condition context = .ok truth) :
    treeValue registry context (.node operator children (some condition) disabled) =
      truth.value := by
  unfold treeValue
  cases children <;> simp [RuleTree.switchedOn, RuleTree.kleeneValue, leafValue, h]

theorem treeValue_group {operator : LogicalOperator} {children : List RuleTree} {disabled : Bool} :
    treeValue registry context (.node (some operator) (some children) none disabled) =
      RuleTree.operatorValue operator (childValues registry context children) := by
  unfold treeValue childValues
  rw [RuleTree.switchedOn, RuleTree.kleeneValue, RuleTree.kleeneValues_eq]

theorem treeValue_not {child : RuleTree} {disabled : Bool} (hon : child.disabled = false) :
    treeValue registry context (.node (some .not) (some [child]) none disabled) =
      (treeValue registry context child).map (!·) := by
  rw [treeValue_group, childValues_cons, hon]
  rfl

/-- An and or an or is decided by its decisive value. -/
theorem operatorValue_fold {operator : LogicalOperator} (h : operator ≠ .not)
    (values : List (Option Bool)) :
    RuleTree.operatorValue operator values = groupValue (decide (operator = .or)) values := by
  cases operator with
  | and => rfl
  | or => rfl
  | not => exact absurd rfl h

mutual

/-- Where the evaluation reaches a value, it is the Kleene value. -/
theorem evaluateRuleTree_value : ∀ (tree : RuleTree) {truth : Truth Error},
    evaluateRuleTree registry context tree = .ok truth →
      truth.value = treeValue registry context tree
  | .node operator children (some condition) off, truth, h => by
    simp only [evaluateRuleTree] at h
    exact (treeValue_leaf h).symm
  | .node none children none off, _, h => by simp [evaluateRuleTree] at h
  | .node (some operator) none none off, _, h => by simp [evaluateRuleTree] at h
  | .node (some .not) (some []) none off, _, h => by simp [evaluateRuleTree] at h
  | .node (some .not) (some (_ :: _ :: _)) none off, _, h => by simp [evaluateRuleTree] at h
  | .node (some .not) (some [child]) none off, truth, h => by
    simp only [evaluateRuleTree] at h
    split at h
    · cases h
    · rename_i hon
      cases hchild : evaluateRuleTree registry context child with
      | error e =>
        rw [hchild] at h
        cases h
      | ok inner =>
        rw [hchild] at h
        obtain rfl := Except.ok.inj h
        rw [Truth.value_negate, evaluateRuleTree_value child hchild,
          treeValue_not (by simpa using hon)]
  | .node (some .and) (some children) none off, truth, h => by
    simp only [evaluateRuleTree] at h
    split at h
    · cases h
    · rw [treeValue_group, operatorValue_fold (by decide)]
      exact evaluateChildren_value children (GroupFold.saw_start _) h
  | .node (some .or) (some children) none off, truth, h => by
    simp only [evaluateRuleTree] at h
    split at h
    · cases h
    · rw [treeValue_group, operatorValue_fold (by decide)]
      exact evaluateChildren_value children (GroupFold.saw_start _) h

theorem evaluateChildren_value : ∀ (children : List RuleTree) {fold : GroupFold Error}
    {seen : List (Option Bool)} {truth : Truth Error}, fold.Saw seen →
    evaluateChildren registry context fold children = .ok truth →
      truth.value = groupValue fold.decisive (seen ++ childValues registry context children)
  | [], fold, seen, truth, hsaw, h => by
    simp only [evaluateChildren, Except.ok.injEq] at h
    rw [← h, hsaw.finish]
    simp [childValues, RuleTree.switchedOnAll]
  | child :: rest, fold, seen, truth, hsaw, h => by
    rw [evaluateChildren] at h
    rw [childValues_cons]
    split at h
    · rename_i hoff
      rw [if_pos hoff]
      exact evaluateChildren_value rest hsaw h
    · rename_i hon
      rw [if_neg hon]
      split at h
      · cases h
      · rename_i value hvalue
        have hpush := hsaw.push value
        rw [← evaluateRuleTree_value child hvalue, List.append_cons]
        split at h
        -- A decided group is decided whatever follows.
        · rename_i hdecided
          rw [Except.ok.injEq] at h
          have hin := hpush.decided.mp hdecided
          rw [GroupFold.push_decisive] at hin
          rw [← h, GroupFold.finish_of_decided hdecided, GroupFold.push_decisive,
            Truth.value_ofBool,
            groupValue, if_pos (List.mem_append_left _ hin)]
        · have := evaluateChildren_value rest hpush h
          rwa [GroupFold.push_decisive] at this

end

end ConditionRegistry

end ScreenerBot.Strategies
