import ScreenerBot.Ledger.Reducer

/-! The reduction seen as lifecycles: each round with the deltas folded into it and how it ended.
The reducer keeps only what a finished round says; the lifecycles it comes from are what its
invariants are about. The reduction does not see the order its deltas arrive in, nor the order its
map of open rounds is walked in. -/
namespace ScreenerBot.Ledger
open Library

/-- A round with the deltas folded into it, oldest first. -/
structure Lifecycle where
  round : Round
  folded : List SubjectAssetDelta
  deriving DecidableEq

def Lifecycle.fold (l : Lifecycle) (s : ReductionStep) : Lifecycle :=
  ⟨l.round.apply s.group s.delta, l.folded ++ [s.delta]⟩

/-- How a lifecycle left the reduction: its balance reached zero, its mint started again
from zero, or the history ended. -/
inductive Ending where
  | emptied | stale | stillOpen
  deriving DecidableEq, Repr

structure Ended where
  life : Lifecycle
  ending : Ending
  deriving DecidableEq

/-- The round an ended lifecycle is reported as. -/
def Ended.ledgerRound (e : Ended) : LedgerRound :=
  match e.ending with
  | .emptied => e.life.round.finish false
  | .stale => e.life.round.closeStale
  | .stillOpen => e.life.round.finish true

structure Tracking where
  openLives : AList fun _ : String => Lifecycle
  ended : List Ended
  genesisUsed : List String

namespace Tracking

def empty : Tracking := ⟨∅, [], []⟩

/-- The reducer's state behind the lifecycles. -/
def view (t : Tracking) : Reduction :=
  ⟨mapVal Lifecycle.round t.openLives, t.ended.map Ended.ledgerRound, t.genesisUsed⟩

/-- The key of the genesis round a delta reveals. -/
def genesisKey (t : Tracking) (d : SubjectAssetDelta) : String :=
  if d.mint ∈ t.genesisUsed then gapGenesisKey d else bareGenesisKey d.mint

/-- The lifecycle a delta is folded into. -/
def lifeFor (t : Tracking) (d : SubjectAssetDelta) : Lifecycle :=
  if startsFromZero d then ⟨Round.grounded d (groundedKey d), []⟩
  else match t.openLives.lookup d.mint with
    | some life => life
    | none => ⟨Round.genesis d (t.genesisKey d), []⟩

/-- The lifecycle a delta starting its mint from zero leaves behind. -/
def staleFor (t : Tracking) (d : SubjectAssetDelta) : List Ended :=
  if startsFromZero d then ((t.openLives.lookup d.mint).map (Ended.mk · .stale)).toList else []

def spendGenesis (t : Tracking) (d : SubjectAssetDelta) : List String :=
  if startsFromZero d = false ∧ t.openLives.lookup d.mint = none ∧ d.mint ∉ t.genesisUsed then
    d.mint :: t.genesisUsed
  else t.genesisUsed

/-- One step over lifecycles: the delta's lifecycle takes it, and ends when emptied. -/
def step (t : Tracking) (s : ReductionStep) : Tracking :=
  let life := (t.lifeFor s.delta).fold s
  if life.round.balance ≤ 0 then
    { openLives := t.openLives.erase s.delta.mint
      ended := t.ended ++ t.staleFor s.delta ++ [⟨life, .emptied⟩]
      genesisUsed := t.spendGenesis s.delta }
  else
    { openLives := t.openLives.insert s.delta.mint life
      ended := t.ended ++ t.staleFor s.delta
      genesisUsed := t.spendGenesis s.delta }

theorem view_open (t : Tracking) (d : SubjectAssetDelta) :
    openRound t.view d =
      { openRounds := if startsFromZero d = true ∨ t.openLives.lookup d.mint = none then
          t.view.openRounds.insert d.mint (t.lifeFor d).round else t.view.openRounds
        finished := (t.ended ++ t.staleFor d).map Ended.ledgerRound
        genesisUsed := t.spendGenesis d } := by
  cases hz : startsFromZero d <;> cases hl : t.openLives.lookup d.mint <;>
    simp only [openRound, view, lookup_mapVal, lifeFor, staleFor, spendGenesis, genesisKey, hz, hl,
      Option.map_none, Option.map_some, Option.toList_none, Option.toList_some, List.append_nil,
      List.map_append, List.map_cons, List.map_nil, Ended.ledgerRound, reduceCtorEq, or_false,
      or_true, if_true, if_false, true_and, and_false, false_and,
      Bool.false_eq_true, Bool.true_eq_false]
  by_cases hu : d.mint ∈ t.genesisUsed <;> simp [hu]

/-- The reducer takes the step the lifecycles take. -/
theorem view_step (t : Tracking) (s : ReductionStep) : (t.step s).view = applyStep t.view s := by
  have hlife : (openRound t.view s.delta).openRounds.lookup s.delta.mint =
      some (t.lifeFor s.delta).round := by
    rw [view_open]
    by_cases h : startsFromZero s.delta = true ∨ t.openLives.lookup s.delta.mint = none
    · simp only [h, if_true, AList.lookup_insert]
    · simp only [h, if_false]
      obtain ⟨hz, hl⟩ := not_or.mp h
      obtain ⟨life, hl⟩ := Option.ne_none_iff_exists'.mp hl
      simp [view, lookup_mapVal, lifeFor, hz, hl]
  have hopen (round : Round) : (openRound t.view s.delta).openRounds.insert s.delta.mint round =
      t.view.openRounds.insert s.delta.mint round := by
    rw [view_open]
    dsimp only
    split
    · exact AList.insert_insert _
    · rfl
  have herase : (openRound t.view s.delta).openRounds.erase s.delta.mint =
      t.view.openRounds.erase s.delta.mint := by
    rw [view_open]
    dsimp only
    split
    · exact erase_insert _ _ _
    · rfl
  simp only [applyStep, applyDelta, hlife, hopen, herase, step, Lifecycle.fold]
  rw [view_open]
  by_cases hb : ((t.lifeFor s.delta).round.apply s.group s.delta).balance ≤ 0
  · simp [hb, view, mapVal_erase, Ended.ledgerRound]
  · simp [hb, view, mapVal_insert]

end Tracking

def track (deltas : List SubjectAssetDelta) : Tracking :=
  (reductionSteps deltas).foldl Tracking.step .empty

theorem view_track (deltas : List SubjectAssetDelta) : (track deltas).view = reduce deltas := by
  rw [reduce_eq_steps, track, foldl_view Tracking.step applyStep Tracking.view Tracking.view_step]
  rfl

/-- Every lifecycle of the reduction, in the order its rounds are reported. -/
def lifecycles (deltas : List SubjectAssetDelta) : List Ended :=
  sortBy (roundOrder ∘ Ended.ledgerRound)
    ((track deltas).ended ++ (values (track deltas).openLives).map (Ended.mk · .stillOpen))

/-- The reduced rounds are what the lifecycles are reported as, one by one. -/
theorem reduceRounds_eq_lifecycles (deltas : List SubjectAssetDelta) :
    reduceRounds deltas = (lifecycles deltas).map Ended.ledgerRound := by
  rw [lifecycles, map_sortBy, reduceRounds, collect, ← view_track]
  simp [Tracking.view, values_mapVal, Function.comp_def, Ended.ledgerRound]

theorem mem_lifecycles {deltas : List SubjectAssetDelta} {e : Ended} :
    e ∈ lifecycles deltas ↔ e ∈ (track deltas).ended ∨
      e.ending = .stillOpen ∧ ∃ mint, (track deltas).openLives.lookup mint = some e.life := by
  obtain ⟨life, ending⟩ := e
  simp only [lifecycles, mem_sortBy, List.mem_append, List.mem_map, mem_values, Ended.mk.injEq]
  constructor
  · rintro (h | ⟨l, hl, rfl, rfl⟩)
    · exact .inl h
    · exact .inr ⟨rfl, hl⟩
  · rintro (h | ⟨rfl, hl⟩)
    · exact .inl h
    · exact .inr ⟨life, hl, rfl, rfl⟩

/-- What a step leaves open: a lifecycle of another mint, or the one it folded into, with a
positive balance. -/
theorem Tracking.step_open {t : Tracking} {s : ReductionStep} {mint : String} {life : Lifecycle}
    (h : (t.step s).openLives.lookup mint = some life) :
    (mint ≠ s.delta.mint ∧ t.openLives.lookup mint = some life) ∨
      (mint = s.delta.mint ∧ life = (t.lifeFor s.delta).fold s ∧ 0 < life.round.balance) := by
  unfold step at h
  dsimp only at h
  split at h
  next => exact .inl (lookup_erase_cases h)
  next hb =>
    rcases lookup_insert_cases h with ⟨rfl, rfl⟩ | ⟨hm, hl⟩
    · exact .inr ⟨rfl, rfl, not_le.mp hb⟩
    · exact .inl ⟨hm, hl⟩

/-- A step ends a lifecycle its mint left behind, or the one it emptied. -/
def Tracking.Ends (t : Tracking) (s : ReductionStep) (e : Ended) : Prop :=
  (e.ending = .stale ∧ startsFromZero s.delta = true ∧
      t.openLives.lookup s.delta.mint = some e.life) ∨
    (e = ⟨(t.lifeFor s.delta).fold s, .emptied⟩ ∧ e.life.round.balance ≤ 0)

theorem Tracking.step_ended (t : Tracking) (s : ReductionStep) (e : Ended) :
    e ∈ (t.step s).ended ↔ e ∈ t.ended ∨ t.Ends s e := by
  have hstale : e ∈ t.staleFor s.delta ↔ e.ending = .stale ∧ startsFromZero s.delta = true ∧
      t.openLives.lookup s.delta.mint = some e.life := by
    obtain ⟨life, ending⟩ := e
    unfold staleFor
    cases startsFromZero s.delta with
    | false => simp
    | true =>
      simp only [if_true, Option.mem_toList, Option.map_eq_some_iff, Ended.mk.injEq, true_and]
      constructor
      · rintro ⟨l, hl, rfl, rfl⟩
        exact ⟨rfl, hl⟩
      · rintro ⟨rfl, hl⟩
        exact ⟨life, hl, rfl, rfl⟩
  unfold step Ends
  dsimp only
  split
  next hb =>
    simp only [List.mem_append, List.mem_singleton, hstale, or_assoc]
    have : e = ⟨(t.lifeFor s.delta).fold s, .emptied⟩ ↔
        e = ⟨(t.lifeFor s.delta).fold s, .emptied⟩ ∧ e.life.round.balance ≤ 0 :=
      ⟨fun h => ⟨h, by rw [h]; exact hb⟩, And.left⟩
    rw [← this]
  next hb =>
    simp only [List.mem_append, hstale]
    have : ¬(e = ⟨(t.lifeFor s.delta).fold s, .emptied⟩ ∧ e.life.round.balance ≤ 0) := by
      rintro ⟨rfl, h⟩
      exact hb h
    simp only [this, or_false]

/-- Every step of the reduction with the lifecycles it starts from. -/
def trackSteps (deltas : List SubjectAssetDelta) : List (Tracking × ReductionStep) :=
  visited Tracking.step .empty (reductionSteps deltas)

theorem mem_track_ended {deltas : List SubjectAssetDelta} {e : Ended} :
    e ∈ (track deltas).ended ↔ ∃ p ∈ trackSteps deltas, p.1.Ends p.2 e := by
  have h := run_accumulates Tracking.step (fun t e => e ∈ t.ended) Tracking.Ends
    Tracking.step_ended (reductionSteps deltas) .empty e
  simpa [track, trackSteps, Tracking.empty] using h

theorem trackSteps_deltaRaw {deltas : List SubjectAssetDelta} {p : Tracking × ReductionStep}
    (hp : p ∈ trackSteps deltas) : p.2.delta.deltaRaw ≠ 0 := by
  obtain ⟨before, after, hsteps, -⟩ := visited_split _ _ _ _ hp
  have hmem : p.2 ∈ reductionSteps deltas := by
    rw [hsteps]
    exact List.mem_append_right _ List.mem_cons_self
  exact (reductionSteps_mem hmem).2.2

/-- The lifecycles a step starts from are those of the state the reducer is in. -/
theorem trackSteps_view (deltas : List SubjectAssetDelta) :
    visited applyStep .empty (reductionSteps deltas) =
      (trackSteps deltas).map fun p => (p.1.view, p.2) :=
  visited_view Tracking.step applyStep Tracking.view Tracking.view_step _ .empty

/-- The induction over a reduction: what holds of a fresh round and what every fold keeps
holds of each lifecycle a delta is folded into, of each one open at some step, and of each one
reported. -/
theorem lifecycles_invariant {deltas : List SubjectAssetDelta} (Q : Lifecycle → Prop)
    (fresh : ∀ p ∈ trackSteps deltas,
      (startsFromZero p.2.delta = true ∨ p.1.openLives.lookup p.2.delta.mint = none) →
        Q (p.1.lifeFor p.2.delta))
    (fold : ∀ p ∈ trackSteps deltas, Q (p.1.lifeFor p.2.delta) →
      Q ((p.1.lifeFor p.2.delta).fold p.2)) :
    (∀ p ∈ trackSteps deltas, Q (p.1.lifeFor p.2.delta)) ∧
      (∀ p ∈ trackSteps deltas, ∀ mint life, p.1.openLives.lookup mint = some life → Q life) ∧
      ∀ e ∈ lifecycles deltas, Q e.life := by
  let Inv : Tracking → Prop := fun t => ∀ mint life, t.openLives.lookup mint = some life → Q life
  have hfor (p) (hp : p ∈ trackSteps deltas) (hinv : Inv p.1) : Q (p.1.lifeFor p.2.delta) := by
    by_cases h : startsFromZero p.2.delta = true ∨ p.1.openLives.lookup p.2.delta.mint = none
    · exact fresh p hp h
    · obtain ⟨hz, hl⟩ := not_or.mp h
      obtain ⟨life, hl⟩ := Option.ne_none_iff_exists'.mp hl
      have he : p.1.lifeFor p.2.delta = life := by simp [Tracking.lifeFor, hz, hl]
      exact he ▸ hinv _ _ hl
  have hempty : Inv .empty := fun mint life h => by simp [Tracking.empty] at h
  have hstep (p) (hp : p ∈ trackSteps deltas) (hinv : Inv p.1) : Inv (p.1.step p.2) := by
    intro mint life h
    rcases Tracking.step_open h with ⟨-, h⟩ | ⟨-, rfl, -⟩
    · exact hinv mint life h
    · exact fold p hp (hfor p hp hinv)
  have hvisited : ∀ p ∈ trackSteps deltas, Inv p.1 :=
    visited_invariant Tracking.step Inv (reductionSteps deltas) .empty hempty hstep
  have hend : Inv (track deltas) :=
    run_invariant Tracking.step Inv (reductionSteps deltas) .empty hempty hstep
  refine ⟨fun p hp => hfor p hp (hvisited p hp), hvisited, fun e he => ?_⟩
  rcases mem_lifecycles.mp he with he | ⟨-, mint, hl⟩
  · obtain ⟨p, hp, ⟨-, -, hl⟩ | ⟨rfl, -⟩⟩ := mem_track_ended.mp he
    · exact hvisited p hp _ _ hl
    · exact fold p hp (hfor p hp (hvisited p hp))
  · exact hend mint e.life hl

/-- Some lifecycle of the state, ended or open, is one of `Q`. -/
def Tracking.Has (t : Tracking) (Q : Lifecycle → Prop) : Prop :=
  (∃ e ∈ t.ended, Q e.life) ∨ ∃ mint life, t.openLives.lookup mint = some life ∧ Q life

/-- The lifecycle a step folds its delta into stays in the state it leads to. -/
theorem Tracking.step_has {t : Tracking} {s : ReductionStep} {Q : Lifecycle → Prop}
    (h : Q ((t.lifeFor s.delta).fold s)) : (t.step s).Has Q := by
  by_cases hb : ((t.lifeFor s.delta).fold s).round.balance ≤ 0
  · exact .inl ⟨_, (t.step_ended s _).mpr (.inr (.inr ⟨rfl, hb⟩)), h⟩
  · refine .inr ⟨s.delta.mint, _, ?_, h⟩
    unfold step
    rw [if_neg hb]
    exact AList.lookup_insert _

/-- A lifecycle of `Q` is not lost by a step whose fold keeps `Q`. -/
theorem Tracking.Has.step {t : Tracking} {s : ReductionStep} {Q : Lifecycle → Prop} (h : t.Has Q)
    (keep : ∀ life, Q life → Q (life.fold s)) : (t.step s).Has Q := by
  rcases h with ⟨e, he, hq⟩ | ⟨mint, life, hl, hq⟩
  · exact .inl ⟨e, (t.step_ended s e).mpr (.inl he), hq⟩
  by_cases hm : mint = s.delta.mint
  · subst hm
    cases hz : startsFromZero s.delta with
    | true => exact .inl ⟨⟨life, .stale⟩, (t.step_ended s _).mpr (.inr (.inl ⟨rfl, hz, hl⟩)), hq⟩
    | false =>
      have hfor : t.lifeFor s.delta = life := by simp [lifeFor, hz, hl]
      exact step_has (hfor ▸ keep life hq)
  · refine .inr ⟨mint, life, ?_, hq⟩
    unfold Tracking.step
    dsimp only
    split
    · rw [AList.lookup_erase_ne hm, hl]
    · rw [AList.lookup_insert_ne hm, hl]

/-- What a step folds into is reported, with whatever the folds after it keep. -/
theorem lifecycles_reached {deltas : List SubjectAssetDelta} (Q : Lifecycle → Prop)
    (keep : ∀ p ∈ trackSteps deltas, ∀ life, Q life → Q (life.fold p.2))
    {p : Tracking × ReductionStep} (hp : p ∈ trackSteps deltas)
    (h : Q ((p.1.lifeFor p.2.delta).fold p.2)) : ∃ e ∈ lifecycles deltas, Q e.life := by
  obtain ⟨before, after, hsteps, hstate⟩ := visited_split _ _ _ _ hp
  have hvisited : trackSteps deltas = visited Tracking.step .empty (before ++ [p.2]) ++
      visited Tracking.step (p.1.step p.2) after := by
    rw [trackSteps, hsteps, List.append_cons, visited_append, List.foldl_append, ← hstate]
    rfl
  have hend : (track deltas).Has Q := by
    have hrun : track deltas = after.foldl Tracking.step (p.1.step p.2) := by
      rw [track, hsteps, List.foldl_append, List.foldl_cons, ← hstate]
    rw [hrun]
    refine run_invariant Tracking.step (·.Has Q) after _ (Tracking.step_has h) fun q hq hhas => ?_
    exact hhas.step (keep q (hvisited ▸ List.mem_append_right _ hq))
  rcases hend with ⟨e, he, hq⟩ | ⟨mint, life, hl, hq⟩
  · exact ⟨e, mem_lifecycles.mpr (.inl he), hq⟩
  · exact ⟨⟨life, .stillOpen⟩, mem_lifecycles.mpr (.inr ⟨rfl, mint, hl⟩), hq⟩

/-- An open lifecycle stands under its own mint with a positive balance. -/
def Tracking.OpenRounds (t : Tracking) : Prop :=
  ∀ mint life, t.openLives.lookup mint = some life → life.round.mint = mint ∧ 0 < life.round.balance

theorem Tracking.lifeFor_mint {t : Tracking} (h : t.OpenRounds) (d : SubjectAssetDelta) :
    (t.lifeFor d).round.mint = d.mint := by
  unfold lifeFor
  split
  · rfl
  · split
    next life hl => exact (h _ _ hl).1
    next => exact congrArg Prod.fst (Round.genesis_identity d (t.genesisKey d))

/-- A delta is folded into a fresh round or into one that still holds something. -/
theorem Tracking.lifeFor_fresh_or_held {t : Tracking} (h : t.OpenRounds) (d : SubjectAssetDelta) :
    (t.lifeFor d).folded = [] ∨ 0 < (t.lifeFor d).round.balance := by
  unfold lifeFor
  split
  · exact .inl rfl
  · split
    next life hl => exact .inr (h _ _ hl).2
    next => exact .inl rfl

theorem Tracking.step_openRounds {t : Tracking} (h : t.OpenRounds) (s : ReductionStep) :
    (t.step s).OpenRounds := by
  intro mint life hl
  rcases step_open hl with ⟨-, hl⟩ | ⟨rfl, rfl, hb⟩
  · exact h mint life hl
  · exact ⟨(Round.apply_mint _ _ _).trans (lifeFor_mint h s.delta), hb⟩

theorem trackSteps_openRounds {deltas : List SubjectAssetDelta} :
    ∀ p ∈ trackSteps deltas, p.1.OpenRounds :=
  visited_invariant Tracking.step Tracking.OpenRounds _ .empty (fun _ _ h => by cases h)
    fun p _ h => Tracking.step_openRounds h p.2

theorem track_openRounds (deltas : List SubjectAssetDelta) : (track deltas).OpenRounds :=
  run_invariant Tracking.step Tracking.OpenRounds _ .empty (fun _ _ h => by cases h)
    fun p _ h => Tracking.step_openRounds h p.2

/-- How a lifecycle ended says whether anything was left. -/
theorem lifecycles_balance {deltas : List SubjectAssetDelta} {e : Ended}
    (he : e ∈ lifecycles deltas) :
    (e.ending = .emptied ∧ e.life.round.balance ≤ 0) ∨
      (e.ending ≠ .emptied ∧ 0 < e.life.round.balance) := by
  rcases mem_lifecycles.mp he with he | ⟨hs, mint, hl⟩
  · obtain ⟨p, hp, ⟨hs, -, hl⟩ | ⟨rfl, hb⟩⟩ := mem_track_ended.mp he
    · exact .inr ⟨by simp [hs], (trackSteps_openRounds p hp _ _ hl).2⟩
    · exact .inl ⟨rfl, hb⟩
  · exact .inr ⟨by simp [hs], (track_openRounds deltas _ _ hl).2⟩

/-- The open round of each mint, distinct by mint. -/
theorem openRounds_mints (deltas : List SubjectAssetDelta) :
    ((values (reduce deltas).openRounds).map Round.mint).Nodup := by
  have hkeys : (values (reduce deltas).openRounds).map Round.mint =
      (reduce deltas).openRounds.keys := by
    refine values_map_of_keyed Round.mint fun mint round h => ?_
    rw [← view_track, Tracking.view, lookup_mapVal, Option.map_eq_some_iff] at h
    obtain ⟨life, hl, rfl⟩ := h
    exact (track_openRounds deltas mint life hl).1
  rw [hkeys]
  exact AList.keys_nodup _

/-- The reduction order tells any two movements of a wallet apart. -/
theorem deltaOrder_nodup {deltas : List SubjectAssetDelta}
    (h : (deltas.map fun d => (d.signature, d.mint)).Nodup) : (deltas.map deltaOrder).Nodup := by
  refine List.Nodup.of_map
    (fun k => ((ofLex (ofLex (ofLex (ofLex k).2).2).2).1,
      (ofLex (ofLex (ofLex (ofLex k).2).2).2).2)) ?_
  rw [List.map_map]
  exact h

/-- Rounds still open when the history ends are told apart by their mint alone. -/
theorem roundOrder_open_nodup (deltas : List SubjectAssetDelta) :
    (((values (reduce deltas).openRounds).map (·.finish true)).map roundOrder).Nodup := by
  refine List.Nodup.of_map (fun k => (ofLex (ofLex k).2).1) ?_
  rw [List.map_map, List.map_map]
  exact openRounds_mints deltas

/-- Reordering the observed deltas leaves the reduction state as it was. -/
theorem reduce_perm {deltas deltas' : List SubjectAssetDelta} (hperm : deltas.Perm deltas')
    (hkeys : (deltas.map fun d => (d.signature, d.mint)).Nodup) :
      reduce deltas = reduce deltas' := by
  have hfilter : ((deltas.filter (·.success)).map fun d => (d.signature, d.mint)).Nodup :=
    hkeys.sublist (List.filter_sublist.map _)
  have hordered : orderedDeltas deltas = orderedDeltas deltas' :=
    sortBy_eq_of_perm deltaOrder (hperm.filter _) (deltaOrder_nodup hfilter)
  rw [reduce, reduce, hordered]

/-- The reduced rounds are the same for every order of the deltas, whatever order the map of
open rounds yields them in at the end. -/
theorem reduceRounds_perm {deltas deltas' : List SubjectAssetDelta} {stillOpen : List Round}
    (hperm : deltas.Perm deltas') (hkeys : (deltas.map fun d => (d.signature, d.mint)).Nodup)
    (hopen : stillOpen.Perm (values (reduce deltas').openRounds)) :
    collect (reduce deltas') stillOpen = reduceRounds deltas := by
  have hfinished : ((values (reduce deltas').openRounds).map (·.finish true)).Perm
      (stillOpen.map (·.finish true)) := (hopen.map _).symm
  calc collect (reduce deltas') stillOpen
    _ = reduceRounds deltas' :=
        (sortBy_append_eq_of_perm roundOrder _ hfinished (roundOrder_open_nodup deltas')).symm
    _ = reduceRounds deltas := by rw [reduceRounds, reduceRounds, reduce_perm hperm hkeys]

/-- Two buys in one slot and the sale of one of them, delivered in either order. -/
def twoMintHistory : List SubjectAssetDelta :=
  let buy (signature mint : String) : SubjectAssetDelta :=
    { signature, mint, slot := some 7, blockTime := some 70, txIndex := 0, deltaRaw := 5
      beforeRaw := some 0, afterRaw := some 5, decimals := 0, kind := .trade, venue := none
      success := true }
  [buy "s1" "mintA", buy "s2" "mintB",
    { buy "s3" "mintA" with
      slot := some 8, deltaRaw := -5, beforeRaw := some 5, afterRaw := some 0 }]

theorem reduceRounds_perm_two_mints :
    collect (reduce twoMintHistory.reverse) (values (reduce twoMintHistory.reverse).openRounds) =
      reduceRounds twoMintHistory :=
  reduceRounds_perm (List.reverse_perm twoMintHistory).symm (by decide) (List.Perm.refl _)

end ScreenerBot.Ledger
