import Mathlib.Data.List.AList
import ScreenerBot.Library.Keyed
import ScreenerBot.Library.Lists
import ScreenerBot.Library.Text
import ScreenerBot.Strategies.Rules

/-! The cache of the strategy engine: keyed by a fingerprint of the context, and when it is
transparent. -/
namespace ScreenerBot.Strategies
open Library

/-- One write to the hasher. -/
inductive HashWord where
  | text (value : String)
  | number (value : ℤ)
  | flag (value : Bool)
  | present (isSome : Bool)
  deriving DecidableEq

def hashNumber (value : Option ℚ) (decimals : ℕ) : List HashWord :=
  match value with
  | some value => [.text (fixed value decimals)]
  | none => [.text "absent"]

def hashWindow (window : Option WindowCounts) : List HashWord :=
  match window with
  | some counts => [.number counts.buys, .number counts.sells]
  | none => [.text "no_window"]

def hashOption {α : Type} (word : α → HashWord) : Option α → List HashWord
  | some value => [.present true, word value]
  | none => [.present false]

def PositionData.hash (position : PositionData) : List HashWord :=
  [.number position.entryTime.timestamp] ++ hashNumber (some position.entryPrice) 12 ++
    hashNumber (some position.positionAgeHours) 6 ++ hashNumber (some position.currentSizeSol) 6 ++
    hashNumber position.unrealizedProfitPct 6 ++ hashNumber position.peakPrice 12 ++
    [.number position.dcaCount, .number position.partialExitCount] ++
    hashNumber position.remainingValueNative 9 ++ hashNumber position.entryLiquidityNative 6 ++
    hashOption .text position.entryLiquidityPool

def MarketData.hash (market : MarketData) : List HashWord :=
  hashNumber market.liquiditySol 6 ++
    (match market.liquidityPool with
      | some pool => .text pool.address :: hashOption .flag pool.virtualReserves
      | none => [.text "no_pool"]) ++
    (match market.transactions with
      | some counts => [counts.m5, counts.h1, counts.h6, counts.h24].flatMap hashWindow
      | none => [.text "no_txns"]) ++
    hashOption .number (market.snapshotAt.map Instant.timestamp) ++
    hashOption .number (market.tokenCreatedAt.map Instant.timestamp) ++
    hashNumber market.referenceSizeNative 9

/-- The minute a context is read in. -/
def EvaluationContext.minute (context : EvaluationContext) : ℤ := context.evaluatedAt.timestamp / 60

/-- What is written to the hasher, which is taken to be free of collisions. -/
def contextFingerprint (ctx : EvaluationContext) : List HashWord :=
  [.text ctx.tokenMint] ++ hashNumber ctx.currentPrice 12 ++
    [.text ctx.strategyTimeframe, .number ctx.minute] ++
    (match ctx.positionData with
      | some position => position.hash
      | none => [.text "no_position"]) ++
    (match ctx.marketData with
      | some market => market.hash
      | none => [.text "no_market"]) ++
    (match ctx.timeframeBundle with
      | some bundle => [.number bundle.timestamp.timestamp, .number bundle.cacheAgeSeconds]
      | none => [.text "no_ohlcv"])

structure Strategy where
  id : String
  rules : RuleTree
  rulesChangedAt : Instant

structure EngineConfig where
  evaluationTimeoutMs : ℕ
  cacheTtlSeconds : ℕ

structure StrategyEngine where
  conditionRegistry : ConditionRegistry
  config : EngineConfig

/-- The parts of `{id}:{rules_changed_at}:{token_mint}:{fingerprint}`. -/
structure CacheKey where
  strategyId : String
  rulesChangedAt : Instant
  tokenMint : String
  fingerprint : List HashWord
  deriving DecidableEq

def cacheKey (strategy : Strategy) (context : EvaluationContext) : CacheKey where
  strategyId := strategy.id
  rulesChangedAt := strategy.rulesChangedAt
  tokenMint := context.tokenMint
  fingerprint := contextFingerprint context

/-- A result and the nanosecond of the monotonic clock it was cached at. -/
structure CachedEvaluation where
  result : Bool
  timestamp : ℕ

abbrev Cache := AList fun _ : CacheKey => CachedEvaluation

def strategyCacheMaxEntries : ℕ := 1000

namespace StrategyEngine

variable (engine : StrategyEngine)

def valid (now : ℕ) (cached : CachedEvaluation) : Bool :=
  decide ((now - cached.timestamp) / 10 ^ 9 < engine.config.cacheTtlSeconds)

def getCachedEvaluation (cache : Cache) (key : CacheKey) (now : ℕ) : Option Bool :=
  ((cache.lookup key).filter (engine.valid now)).map (·.result)

def cacheEvaluation (cache : Cache) (key : CacheKey) (result : Bool) (now : ℕ) : Cache :=
  let cache := cache.insert key ⟨result, now⟩
  if strategyCacheMaxEntries < cache.keys.length then retain (engine.valid now) cache else cache

/-- What `evaluate_strategy` does before it evaluates the rules. -/
inductive Opening where
  | refused (e : Error)
  | served (result : Bool)
  | evaluate

def openEvaluation (cache : Cache) (strategy : Strategy) (context : EvaluationContext) (now : ℕ) :
    Opening :=
  if strategy.rules.disabled then
    .refused (.invalidRuleTree "the root group cannot be switched off")
  else if 0 < engine.config.cacheTtlSeconds then
    match engine.getCachedEvaluation cache (cacheKey strategy context) now with
    | some cached => .served cached
    | none => .evaluate
  else .evaluate

/-- The result of the rules; an undecided root is no signal. -/
def evaluateRules (strategy : Strategy) (context : EvaluationContext) (timedOut : Bool) :
    Except Error Bool :=
  if timedOut then .error (.evaluationTimeout engine.config.evaluationTimeoutMs)
  else
    match engine.conditionRegistry.evaluateRuleTree context strategy.rules with
    | .ok .true => .ok true
    | .ok .false => .ok false
    | .ok (.unknown e) => .error e
    | .error e => .error e

/-- What `evaluate_strategy` does with the result of the rules. -/
def closeEvaluation (cache : Cache) (strategy : Strategy) (context : EvaluationContext)
    (timedOut : Bool) (now : ℕ) : Except Error Bool × Cache :=
  match engine.evaluateRules strategy context timedOut with
  | .error e => (.error e, cache)
  | .ok result =>
    (.ok result, if 0 < engine.config.cacheTtlSeconds then
      engine.cacheEvaluation cache (cacheKey strategy context) result now else cache)

variable {engine}

theorem evaluateRules_eq_ok {strategy : Strategy} {context : EvaluationContext}
    {timedOut result : Bool} :
    engine.evaluateRules strategy context timedOut = .ok result ↔ timedOut = false ∧
      engine.conditionRegistry.evaluateRuleTree context strategy.rules = .ok (.ofBool result) := by
  cases timedOut with
  | true => simp [evaluateRules]
  | false =>
    simp only [evaluateRules, Bool.false_eq_true, if_false, true_and]
    rcases engine.conditionRegistry.evaluateRuleTree context strategy.rules with e | truth
    · simp
    · cases truth <;> cases result <;> simp [Truth.ofBool]

theorem lookup_cacheEvaluation {cache : Cache} {key key' : CacheKey} {result : Bool} {now : ℕ}
    {cached : CachedEvaluation}
    (h : (engine.cacheEvaluation cache key result now).lookup key' = some cached) :
    (key' = key ∧ cached.result = result) ∨ cache.lookup key' = some cached := by
  have hinsert : (cache.insert key ⟨result, now⟩).lookup key' = some cached := by
    simp only [cacheEvaluation] at h
    split at h
    · exact (lookup_retain_eq_some.mp h).1
    · exact h
  rcases lookup_insert_cases hinsert with ⟨hkey, rfl⟩ | ⟨-, hbefore⟩
  · exact .inl ⟨hkey, rfl⟩
  · exact .inr hbefore

theorem lookup_of_getCachedEvaluation {cache : Cache} {key : CacheKey} {now : ℕ} {result : Bool}
    (h : engine.getCachedEvaluation cache key now = some result) :
    ∃ cached, cache.lookup key = some cached ∧ cached.result = result := by
  simp only [getCachedEvaluation, Option.map_eq_some_iff, Option.filter_eq_some_iff] at h
  obtain ⟨cached, ⟨hcached, -⟩, hresult⟩ := h
  exact ⟨cached, hcached, hresult⟩

end StrategyEngine

/-- What happens to an engine: evaluations open and close in any order, each at a reading of the
monotonic clock, and the cache is cleared. -/
inductive EngineEvent where
  | opens (strategy : Strategy) (context : EvaluationContext) (now : ℕ)
  | closes (index : ℕ) (timedOut : Bool) (now : ℕ)
  | clearCache

/-- A result returned to a caller, from the cache or from the rules. -/
structure Answer where
  strategy : Strategy
  context : EvaluationContext
  result : Bool
  fromCache : Bool

structure EngineState where
  cache : Cache := ∅
  evaluating : List (Strategy × EvaluationContext) := []
  answers : List Answer := []

namespace StrategyEngine

variable (engine : StrategyEngine)

def step (s : EngineState) : EngineEvent → EngineState
  | .opens strategy context now =>
    match engine.openEvaluation s.cache strategy context now with
    | .refused _ => s
    | .served result => { s with answers := s.answers ++ [⟨strategy, context, result, true⟩] }
    | .evaluate => { s with evaluating := s.evaluating ++ [(strategy, context)] }
  | .closes index timedOut now =>
    match s.evaluating[index]? with
    | none => s
    | some (strategy, context) =>
      let closed := engine.closeEvaluation s.cache strategy context timedOut now
      { s with
        cache := closed.2
        evaluating := s.evaluating.eraseIdx index
        answers := match closed.1 with
          | .ok result => s.answers ++ [⟨strategy, context, result, false⟩]
          | .error _ => s.answers }
  | .clearCache => { s with cache := ∅ }

def run (events : List EngineEvent) : EngineState := events.foldl engine.step {}

/-- A result served from the cache is the one the rules give on the context itself, under a clock
read by an evaluation before it in the same minute. -/
def Transparent (answers : List Answer) : Prop :=
  EachAfter (fun before answer => answer.fromCache = true →
    ∃ earlier ∈ before, earlier.fromCache = false ∧
      cacheKey earlier.strategy earlier.context = cacheKey answer.strategy answer.context ∧
      engine.conditionRegistry.evaluateRuleTree (answer.context.readAt earlier.context.evaluatedAt)
        answer.strategy.rules = .ok (.ofBool answer.result)) answers

end StrategyEngine

/-- Over the conditions of `S`, the second context gives what the first does not: a condition
decided on the first is not decided so on the second, or one without data on the first is at fault
on the second while another is decided. -/
def ConditionRegistry.ToldApart (registry : ConditionRegistry) (S : Set Condition)
    (first second : EvaluationContext) : Prop :=
  ∃ condition ∈ S,
    (∃ b, registry.evaluateLeaf condition first = .ok (.ofBool b) ∧
      registry.evaluateLeaf condition second ≠ .ok (.ofBool b)) ∨
    ((∃ e, registry.evaluateLeaf condition first = .ok (.unknown e)) ∧
      (∃ e, registry.evaluateLeaf condition second = .error e) ∧
      ∃ decided ∈ S, ∃ b, registry.evaluateLeaf decided first = .ok (.ofBool b))

/-- Evaluations of rules over the conditions of `S` on contexts of `C`, where the rules of a
strategy are those of its last rules change. -/
structure Within (S : Set Condition) (C : Set EvaluationContext) (events : List EngineEvent) :
    Prop where
  conditions : ∀ {strategy context now}, .opens strategy context now ∈ events →
    ∀ condition ∈ strategy.rules.conditionsOn, condition ∈ S
  contexts : ∀ {strategy context now}, .opens strategy context now ∈ events → context ∈ C
  rules : ∀ {strategy context now strategy' context' now'},
    .opens strategy context now ∈ events → .opens strategy' context' now' ∈ events →
    strategy.id = strategy'.id → strategy.rulesChangedAt = strategy'.rulesChangedAt →
    strategy.rules = strategy'.rules

variable {registry : ConditionRegistry} {S : Set Condition} {first second : EvaluationContext}

namespace ConditionRegistry

theorem ToldApart.or_undecided (h : ¬registry.ToldApart S first second) :
    (∀ condition ∈ S, registry.Keeps first second condition) ∨
      ∀ condition ∈ S, registry.Undecided first condition := by
  by_cases hdecided : ∃ decided ∈ S, ∃ b, registry.evaluateLeaf decided first = .ok (.ofBool b)
  · left
    intro condition hmem t ht
    rcases Truth.ofBool_or_unknown t with ⟨b, rfl⟩ | ⟨e, rfl⟩
    · refine ⟨.ofBool b, ?_, Truth.Refines.refl _⟩
      by_contra hne
      exact h ⟨condition, hmem, .inl ⟨b, ht, hne⟩⟩
    · cases hsecond : registry.evaluateLeaf condition second with
      | ok u => exact ⟨u, rfl, Truth.Refines.of_unknown e u⟩
      | error e' => exact absurd ⟨condition, hmem, .inr ⟨⟨e, ht⟩, ⟨e', hsecond⟩, hdecided⟩⟩ h
  · right
    intro condition hmem b hb
    exact hdecided ⟨condition, hmem, b, hb⟩

/-- A tree over conditions that do not tell two contexts apart has its verdict on the first on
both. -/
theorem evaluateRuleTree_of_not_toldApart (h : ¬registry.ToldApart S first second) {tree : RuleTree}
    (htree : ∀ condition ∈ tree.conditionsOn, condition ∈ S) {b : Bool}
    (hfirst : registry.evaluateRuleTree first tree = .ok (.ofBool b)) :
    registry.evaluateRuleTree second tree = .ok (.ofBool b) := by
  rcases ToldApart.or_undecided h with hkeeps | hundecided
  · obtain ⟨u, hu, hrefines⟩ :=
      evaluateRuleTree_refines tree (fun c hc => hkeeps c (htree c hc)) _ hfirst
    rw [hu, hrefines b rfl]
  · exact absurd hfirst (evaluateRuleTree_undecided tree (fun c hc => hundecided c (htree c hc)) b)

/-- Conditions that tell two contexts apart make a tree that is decided on the first and not so on
the second. -/
theorem ToldApart.exists_tree (h : registry.ToldApart S first second) :
    ∃ tree b, tree.disabled = false ∧ (∀ condition ∈ tree.conditionsOn, condition ∈ S) ∧
      registry.evaluateRuleTree first tree = .ok (.ofBool b) ∧
      registry.evaluateRuleTree second tree ≠ .ok (.ofBool b) := by
  obtain ⟨condition, hmem,
    ⟨b, hfirst, hsecond⟩ | ⟨⟨e, hfirst⟩, ⟨e', hsecond⟩, decided, hdecided, b, hb⟩⟩ := h
  · refine ⟨.leaf condition, b, rfl, ?_, ?_, ?_⟩
    · simpa [RuleTree.leaf, RuleTree.conditionsOn] using hmem
    · simpa [RuleTree.leaf, evaluateRuleTree] using hfirst
    · simpa [RuleTree.leaf, evaluateRuleTree] using hsecond
  · -- the undecided condition comes first, so its fault stops the second evaluation
    refine ⟨.branch (if b then .or else .and) [.leaf condition, .leaf decided], b, rfl, ?_, ?_, ?_⟩
    · simp [RuleTree.branch, RuleTree.leaf, RuleTree.conditionsOn, RuleTree.conditionsOnAll,
        RuleTree.disabled, hmem, hdecided]
    · cases b <;>
        simp [RuleTree.branch, RuleTree.leaf, evaluateRuleTree, evaluateChildren, RuleTree.disabled,
          hfirst, hb, GroupFold.push, GroupFold.finish, Truth.ofBool]
    · cases b <;>
        simp [RuleTree.branch, RuleTree.leaf, evaluateRuleTree, evaluateChildren, RuleTree.disabled,
          hsecond]

end ConditionRegistry

namespace StrategyEngine

variable {engine : StrategyEngine} {C : Set EvaluationContext} {events : List EngineEvent}

/-- Everything cached was computed, and everything computed is the verdict of its own rules. -/
structure Traced (engine : StrategyEngine) (events : List EngineEvent) (s : EngineState) :
    Prop where
  evaluating : ∀ p ∈ s.evaluating, ∃ now, .opens p.1 p.2 now ∈ events
  cached : ∀ key cached, s.cache.lookup key = some cached → ∃ answer ∈ s.answers,
    answer.fromCache = false ∧ cacheKey answer.strategy answer.context = key ∧
      answer.result = cached.result
  computed : ∀ answer ∈ s.answers, answer.fromCache = false →
    (∃ now, .opens answer.strategy answer.context now ∈ events) ∧
      engine.conditionRegistry.evaluateRuleTree answer.context answer.strategy.rules =
        .ok (.ofBool answer.result)

/-- What a step does: it leaves the answers and drops cached results, it starts an evaluation, it
serves a cached result, or it computes and may cache one. -/
theorem step_cases (s : EngineState) (event : EngineEvent) :
    let s' := engine.step s event
    (s'.answers = s.answers ∧ (s'.cache = s.cache ∨ s'.cache = ∅) ∧
      s'.evaluating.Sublist s.evaluating) ∨
    (∃ strategy context now, event = .opens strategy context now ∧ s'.answers = s.answers ∧
      s'.cache = s.cache ∧ s'.evaluating = s.evaluating ++ [(strategy, context)]) ∨
    (∃ strategy context now cached, event = .opens strategy context now ∧
      s.cache.lookup (cacheKey strategy context) = some cached ∧ s'.cache = s.cache ∧
      s'.evaluating = s.evaluating ∧
      s'.answers = s.answers ++ [⟨strategy, context, cached.result, true⟩]) ∨
    ∃ strategy context now result, (strategy, context) ∈ s.evaluating ∧
      engine.conditionRegistry.evaluateRuleTree context strategy.rules = .ok (.ofBool result) ∧
      (s'.cache = s.cache ∨
        s'.cache = engine.cacheEvaluation s.cache (cacheKey strategy context) result now) ∧
      s'.evaluating.Sublist s.evaluating ∧
      s'.answers = s.answers ++ [⟨strategy, context, result, false⟩] := by
  cases event with
  | clearCache => exact .inl ⟨rfl, .inr rfl, List.Sublist.refl _⟩
  | opens strategy context now =>
    simp only [step]
    cases hopening : engine.openEvaluation s.cache strategy context now with
    | refused e => exact .inl ⟨rfl, .inl rfl, List.Sublist.refl _⟩
    | evaluate => exact .inr (.inl ⟨strategy, context, now, rfl, rfl, rfl, rfl⟩)
    | served result =>
      have hget : engine.getCachedEvaluation s.cache (cacheKey strategy context) now =
          some result := by
        simp only [openEvaluation] at hopening
        split at hopening
        · cases hopening
        · split at hopening
          · split at hopening
            · cases hopening
              assumption
            · cases hopening
          · cases hopening
      obtain ⟨cached, hcached, rfl⟩ := lookup_of_getCachedEvaluation hget
      exact .inr (.inr (.inl ⟨strategy, context, now, cached, rfl, hcached, rfl, rfl, rfl⟩))
  | closes index timedOut now =>
    simp only [step]
    cases hindex : s.evaluating[index]? with
    | none => exact .inl ⟨rfl, .inl rfl, List.Sublist.refl _⟩
    | some p =>
      obtain ⟨strategy, context⟩ := p
      have hsub : (s.evaluating.eraseIdx index).Sublist s.evaluating := List.eraseIdx_sublist ..
      simp only [closeEvaluation]
      cases hrules : engine.evaluateRules strategy context timedOut with
      | error e => exact .inl ⟨rfl, .inl rfl, hsub⟩
      | ok result =>
        obtain ⟨-, hresult⟩ := evaluateRules_eq_ok.mp hrules
        refine .inr (.inr (.inr ⟨strategy, context, now, result,
          List.mem_of_getElem? hindex, hresult,
          ?_, hsub, rfl⟩))
        simp only
        split
        · exact .inr rfl
        · exact .inl rfl

theorem step_traced {s : EngineState} {event : EngineEvent} (hevent : event ∈ events)
    (h : Traced engine events s) : Traced engine events (engine.step s event) := by
  obtain ⟨hanswers, hcache, hsub⟩ | ⟨strategy, context, now, rfl, hanswers, hcache, heval⟩ |
    ⟨strategy, context, now, cached, rfl, -, hcache, heval, hanswers⟩ |
    ⟨strategy, context, now, result, hmem, hresult, hcache, hsub, hanswers⟩ :=
      @step_cases engine s event
  · constructor
    · exact fun p hp => h.evaluating p (hsub.subset hp)
    · rw [hanswers]
      rcases hcache with hcache | hcache <;> rw [hcache]
      · exact h.cached
      · intro key cached hlookup
        cases hlookup
    · rw [hanswers]
      exact h.computed
  · constructor
    · rw [heval]
      intro p hp
      rcases List.mem_append.mp hp with hp | hp
      · exact h.evaluating p hp
      · rw [List.mem_singleton.mp hp]
        exact ⟨now, hevent⟩
    · rw [hanswers, hcache]
      exact h.cached
    · rw [hanswers]
      exact h.computed
  · constructor
    · rw [heval]
      exact h.evaluating
    · rw [hanswers, hcache]
      intro key cached hlookup
      obtain ⟨answer, hanswer, hrest⟩ := h.cached key cached hlookup
      exact ⟨answer, List.mem_append_left _ hanswer, hrest⟩
    · rw [hanswers]
      intro answer hanswer hcomputed
      rcases List.mem_append.mp hanswer with hanswer | hanswer
      · exact h.computed answer hanswer hcomputed
      · rw [List.mem_singleton.mp hanswer] at hcomputed
        cases hcomputed
  · constructor
    · exact fun p hp => h.evaluating p (hsub.subset hp)
    · rw [hanswers]
      intro key cached hlookup
      have hkey : (key = cacheKey strategy context ∧ cached.result = result) ∨
          s.cache.lookup key = some cached := by
        rcases hcache with hcache | hcache <;> rw [hcache] at hlookup
        · exact .inr hlookup
        · exact lookup_cacheEvaluation hlookup
      rcases hkey with ⟨rfl, rfl⟩ | hbefore
      · exact ⟨_, List.mem_append_right _ List.mem_cons_self, rfl, rfl, rfl⟩
      · obtain ⟨answer, hanswer, hrest⟩ := h.cached key cached hbefore
        exact ⟨answer, List.mem_append_left _ hanswer, hrest⟩
    · rw [hanswers]
      intro answer hanswer hcomputed
      rcases List.mem_append.mp hanswer with hanswer | hanswer
      · exact h.computed answer hanswer hcomputed
      · rw [List.mem_singleton.mp hanswer]
        exact ⟨h.evaluating _ hmem, hresult⟩

/-- The cache holds nothing while it is off. -/
theorem step_off {s : EngineState} {event : EngineEvent} (hoff : engine.config.cacheTtlSeconds = 0)
    (h : ∀ answer ∈ s.answers, answer.fromCache = false) :
    ∀ answer ∈ (engine.step s event).answers, answer.fromCache = false := by
  cases event with
  | clearCache => exact h
  | opens strategy context now =>
    simp only [step, openEvaluation, hoff, lt_irrefl, if_false]
    split
    · exact h
    · rename_i hserved
      split at hserved <;> cases hserved
    · exact h
  | closes index timedOut now =>
    simp only [step]
    split
    · exact h
    · simp only
      split
      · intro answer hanswer
        rcases List.mem_append.mp hanswer with hanswer | hanswer
        · exact h answer hanswer
        · rw [List.mem_singleton.mp hanswer]
      · exact h

theorem cacheKey_eq {strategy strategy' : Strategy} {context context' : EvaluationContext} :
    cacheKey strategy context = cacheKey strategy' context' ↔ strategy.id = strategy'.id ∧
      strategy.rulesChangedAt = strategy'.rulesChangedAt ∧
      contextFingerprint context = contextFingerprint context' := by
  simp only [cacheKey, CacheKey.mk.injEq]
  constructor
  · exact fun ⟨hid, hrules, _, hfingerprint⟩ => ⟨hid, hrules, hfingerprint⟩
  · intro ⟨hid, hrules, hfingerprint⟩
    have hmint : context.tokenMint = context'.tokenMint := by
      simp only [contextFingerprint, List.cons_append, List.nil_append, List.cons.injEq,
        HashWord.text.injEq] at hfingerprint
      exact hfingerprint.1
    exact ⟨hid, hrules, hmint, hfingerprint⟩

theorem step_transparent {s : EngineState} {event : EngineEvent} (hwithin : Within S C events)
    (hapart : ∀ first ∈ C, ∀ second ∈ C, contextFingerprint first = contextFingerprint second →
      ¬engine.conditionRegistry.ToldApart S first (second.readAt first.evaluatedAt))
    (hevent : event ∈ events) (htraced : Traced engine events s)
    (h : engine.Transparent s.answers) : engine.Transparent (engine.step s event).answers := by
  obtain ⟨hanswers, -⟩ | ⟨strategy, context, now, -, hanswers, -⟩ |
    ⟨strategy, context, now, cached, rfl, hlookup, -, -, hanswers⟩ |
    ⟨strategy, context, now, result, -, -, -, -, hanswers⟩ := @step_cases engine s event
  · rw [hanswers]
    exact h
  · rw [hanswers]
    exact h
  · rw [hanswers]
    refine h.concat fun _ => ?_
    obtain ⟨earlier, hmem, hcomputed, hkey, hresult⟩ := htraced.cached _ _ hlookup
    obtain ⟨⟨then_, hopened⟩, hverdict⟩ := htraced.computed earlier hmem hcomputed
    obtain ⟨hid, hchanged, hfingerprint⟩ := cacheKey_eq.mp hkey
    have hrules := hwithin.rules hopened hevent hid hchanged
    refine ⟨earlier, hmem, hcomputed, hkey, ?_⟩
    rw [hrules, hresult] at hverdict
    exact ConditionRegistry.evaluateRuleTree_of_not_toldApart
      (hapart _ (hwithin.contexts hopened) _ (hwithin.contexts hevent) hfingerprint)
      (hwithin.conditions hevent) hverdict
  · rw [hanswers]
    exact h.concat fun hcached => nomatch hcached

theorem run_transparent (hwithin : Within S C events)
    (hapart : ∀ first ∈ C, ∀ second ∈ C, contextFingerprint first = contextFingerprint second →
      ¬engine.conditionRegistry.ToldApart S first (second.readAt first.evaluatedAt)) :
    engine.Transparent (engine.run events).answers := by
  have hinv : Traced engine events (engine.run events) ∧
      engine.Transparent (engine.run events).answers := by
    refine List.foldlRecOn
      (motive := fun s => Traced engine events s ∧ engine.Transparent s.answers)
      events engine.step ⟨?_, ?_⟩ fun s hs event hevent => ?_
    · constructor
      · intro p hp
        cases hp
      · intro key cached hlookup
        cases hlookup
      · intro answer hanswer
        cases hanswer
    · exact EachAfter.nil
    · exact ⟨step_traced hevent hs.1, step_transparent hwithin hapart hevent hs.1 hs.2⟩
  exact hinv.2

/-- The second of two evaluations under one key, served the result of the first. -/
theorem run_twice {strategy : Strategy} {first second : EvaluationContext} {b : Bool}
    (httl : 0 < engine.config.cacheTtlSeconds) (hon : strategy.rules.disabled = false)
    (hfingerprint : contextFingerprint first = contextFingerprint second)
    (hfirst : engine.conditionRegistry.evaluateRuleTree first strategy.rules = .ok (.ofBool b)) :
    (engine.run [.opens strategy first 0, .closes 0 false 0, .opens strategy second 0]).answers =
      [⟨strategy, first, b, false⟩, ⟨strategy, second, b, true⟩] := by
  have hkey : cacheKey strategy second = cacheKey strategy first :=
    cacheKey_eq.mpr ⟨rfl, rfl, hfingerprint.symm⟩
  have hrules : engine.evaluateRules strategy first false = .ok b :=
    evaluateRules_eq_ok.mpr ⟨rfl, hfirst⟩
  have hmiss : engine.getCachedEvaluation ∅ (cacheKey strategy first) 0 = none := rfl
  have hsize : ¬strategyCacheMaxEntries <
      ((∅ : Cache).insert (cacheKey strategy first) ⟨b, 0⟩).keys.length := by
    simp [strategyCacheMaxEntries, AList.keys, AList.singleton]
  have hhit : engine.getCachedEvaluation ((∅ : Cache).insert (cacheKey strategy first) ⟨b, 0⟩)
      (cacheKey strategy first) 0 = some b := by
    rw [getCachedEvaluation, AList.lookup_insert]
    simp [valid, httl]
  simp only [run, List.foldl_cons, List.foldl_nil, step, openEvaluation, hon, httl, if_true, hmiss,
    List.nil_append, List.getElem?_cons_zero, closeEvaluation, hrules, cacheEvaluation,
      if_neg hsize, hkey,
    hhit, Bool.false_eq_true, if_false, List.cons_append]

/-- In every run the cache is transparent, exactly when it is off or no two contexts of one
fingerprint are told apart by a condition. -/
theorem transparent_iff (engine : StrategyEngine) (S : Set Condition) (C : Set EvaluationContext) :
    (∀ events, Within S C events → engine.Transparent (engine.run events).answers) ↔
      engine.config.cacheTtlSeconds = 0 ∨
        ∀ first ∈ C, ∀ second ∈ C, contextFingerprint first = contextFingerprint second →
          ¬engine.conditionRegistry.ToldApart S first (second.readAt first.evaluatedAt) := by
  constructor
  · intro h
    by_contra! hnot
    obtain ⟨httl, first, hfirst, second, hsecond, hfingerprint, hapart⟩ := hnot
    obtain ⟨tree, b, hon, htree, hverdict, hown⟩ := hapart.exists_tree
    let strategy : Strategy := ⟨"", tree, 0⟩
    have hwithin : Within S C
        [.opens strategy first 0, .closes 0 false 0, .opens strategy second 0] := by
      constructor
      · intro strategy' context now hmem
        simp only [List.mem_cons, EngineEvent.opens.injEq, reduceCtorEq, List.not_mem_nil, or_false,
          false_or] at hmem
        rcases hmem with ⟨rfl, -⟩ | ⟨rfl, -⟩ <;> exact htree
      · intro strategy' context now hmem
        simp only [List.mem_cons, EngineEvent.opens.injEq, reduceCtorEq, List.not_mem_nil, or_false,
          false_or] at hmem
        rcases hmem with ⟨-, rfl, -⟩ | ⟨-, rfl, -⟩
        · exact hfirst
        · exact hsecond
      · intro strategy₁ context₁ now₁ strategy₂ context₂ now₂ hmem₁ hmem₂ _ _
        simp only [List.mem_cons, EngineEvent.opens.injEq, reduceCtorEq, List.not_mem_nil, or_false,
          false_or] at hmem₁ hmem₂
        rcases hmem₁ with ⟨rfl, -⟩ | ⟨rfl, -⟩ <;> rcases hmem₂ with ⟨rfl, -⟩ | ⟨rfl, -⟩ <;> rfl
    have htransparent := h _ hwithin
    rw [@run_twice engine strategy _ _ _ (Nat.pos_of_ne_zero httl) hon hfingerprint hverdict]
      at htransparent
    obtain ⟨earlier, hmem, -, -, hresult⟩ := htransparent [_] _ [] rfl rfl
    rw [List.mem_singleton.mp hmem] at hresult
    exact hown hresult
  · rintro (hoff | hapart) events hwithin
    · have hcomputed : ∀ answer ∈ (engine.run events).answers, answer.fromCache = false :=
        List.foldlRecOn (motive := fun s => ∀ answer ∈ s.answers, answer.fromCache = false)
          events engine.step (fun _ hmem => by cases hmem) fun _ hs _ _ => step_off hoff hs
      intro before answer after hsplit hcached
      rw [hcomputed answer (by simp [hsplit])] at hcached
      cases hcached
    · exact run_transparent hwithin hapart

end StrategyEngine

namespace ShortOfTarget

def engine : StrategyEngine where
  conditionRegistry :=
    ConditionRegistry.register (fun _ => none) "PositionProfit" PositionProfit.evaluator
  config := { evaluationTimeoutMs := 50, cacheTtlSeconds := 5 }

def rules : RuleTree :=
  .leaf ⟨"PositionProfit", [("comparison", .text "ABOVE"), ("threshold_pct", .number 20)]⟩

def strategy : Strategy := { id := "take-profit", rules, rulesChangedAt := 0 }

def position (profitPct : ℚ) : PositionData where
  entryPrice := 1
  entryTime := 0
  currentSizeSol := 1 / 2
  unrealizedProfitPct := some profitPct
  positionAgeHours := 2
  peakPrice := none
  dcaCount := 0
  partialExitCount := 0
  remainingValueNative := none
  entryLiquidityNative := none
  entryLiquidityPool := none

def context (profitPct : ℚ) : EvaluationContext where
  tokenMint := "mint"
  currentPrice := none
  positionData := some (position profitPct)
  marketData := none
  timeframeBundle := none
  strategyTimeframe := "5m"
  evaluatedAt := 0

def short : ℚ := 20 - 4 / 10 ^ 7

theorem same_fingerprint :
    contextFingerprint (context 20) = contextFingerprint (context short) := by
  decide +kernel

theorem reached : engine.conditionRegistry.evaluateRuleTree (context 20) rules =
    .ok (.ofBool true) := by
  decide +kernel

theorem not_reached :
    engine.conditionRegistry.evaluateRuleTree (context short) rules = .ok (.ofBool false) := by
  decide +kernel

/-- The exit signal of the one context is returned for the other, on which the rules give none. -/
theorem exit_served_short_of_target :
    ¬engine.Transparent (engine.run [.opens strategy (context 20) 0, .closes 0 false 0,
      .opens strategy (context short) 0]).answers := by
  rw [StrategyEngine.run_twice (by decide) rfl same_fingerprint reached]
  intro h
  obtain ⟨earlier, hmem, -, -, hresult⟩ := h [_] _ [] rfl rfl
  rw [List.mem_singleton.mp hmem] at hresult
  have hverdict : (Except.ok (.ofBool false) : Except Error (Truth Error)) = .ok (.ofBool true) :=
    not_reached.symm.trans hresult
  cases hverdict

end ShortOfTarget

end ScreenerBot.Strategies
