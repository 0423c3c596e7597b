import ScreenerBot.Ledger.Round
import ScreenerBot.Library.Sorting
import ScreenerBot.Library.Keyed
import ScreenerBot.Library.Run
import Mathlib.Data.Prod.Lex
import Mathlib.Order.WithBot
import Mathlib.Data.String.Basic
import Mathlib.Data.List.SplitBy

/-! The reduction: observed deltas in, rounds out, oldest first. -/
namespace ScreenerBot.Ledger
open Library

/-- The reducer's state: the open round of each mint, the rounds already finished, and the
mints that spent their bare genesis key. -/
structure Reduction where
  openRounds : AList fun _ : String => Round
  finished : List LedgerRound
  genesisUsed : List String
  deriving DecidableEq

def Reduction.empty : Reduction := ⟨∅, [], []⟩

/-- The chain says this mint started the transaction at zero. -/
def startsFromZero (d : SubjectAssetDelta) : Bool :=
  decide (0 < d.deltaRaw) && d.beforeRaw == some 0

def groundedKey (d : SubjectAssetDelta) : String := d.signature ++ ":" ++ d.mint

def bareGenesisKey (mint : String) : String := "genesis:" ++ mint

def gapGenesisKey (d : SubjectAssetDelta) : String :=
  "genesis:" ++ d.signature ++ ":" ++ d.mint

/-- How a round still open is finished when its mint starts again from zero. -/
def Round.closeStale (stale : Round) : LedgerRound :=
  if 0 < stale.balance then
    { stale.finish false with historyComplete := false, basisComplete := false }
  else stale.finish false

/-- Opens the round a delta belongs to, when none is open for it. -/
def openRound (st : Reduction) (d : SubjectAssetDelta) : Reduction :=
  if startsFromZero d then
    { st with
      openRounds := st.openRounds.insert d.mint (Round.grounded d (groundedKey d))
      finished := match st.openRounds.lookup d.mint with
        | some stale => st.finished ++ [stale.closeStale]
        | none => st.finished }
  else match st.openRounds.lookup d.mint with
    | some _ => st
    | none =>
      if d.mint ∈ st.genesisUsed then
        { st with openRounds := st.openRounds.insert d.mint (Round.genesis d (gapGenesisKey d)) }
      else
        { st with
          openRounds := st.openRounds.insert d.mint (Round.genesis d (bareGenesisKey d.mint))
          genesisUsed := d.mint :: st.genesisUsed }

/-- Route one delta into its round, creating and closing rounds as the balance crosses
zero. -/
def applyDelta (st : Reduction) (group : List SubjectAssetDelta) (d : SubjectAssetDelta) :
    Reduction :=
  let st := openRound st d
  match st.openRounds.lookup d.mint with
  | none => st
  | some round =>
    let round := round.apply group d
    if round.balance ≤ 0 then
      { st with
        openRounds := st.openRounds.erase d.mint
        finished := st.finished ++ [round.finish false] }
    else { st with openRounds := st.openRounds.insert d.mint round }

/-- The order deltas are reduced in: slot (unknown last), index, signature, mint. -/
def deltaOrder (d : SubjectAssetDelta) : Bool ×ₗ WithBot ℕ ×ₗ ℕ ×ₗ String ×ₗ String :=
  toLex (d.slot.isNone,
    toLex ((d.slot : WithBot ℕ), toLex (d.txIndex, toLex (d.signature, d.mint))))

def orderedDeltas (deltas : List SubjectAssetDelta) : List SubjectAssetDelta :=
  sortBy deltaOrder (deltas.filter (·.success))

/-- One transaction is one contiguous run of equal signatures. -/
def transactionsOf (ordered : List SubjectAssetDelta) : List (List SubjectAssetDelta) :=
  ordered.splitBy fun a b => a.signature == b.signature

def isReduced (d : SubjectAssetDelta) : Bool := !(isReferenceAsset d.mint || d.deltaRaw == 0)

def reduceTransaction (st : Reduction) (group : List SubjectAssetDelta) : Reduction :=
  group.foldl (fun st d => if isReduced d then applyDelta st group d else st) st

def reduce (deltas : List SubjectAssetDelta) : Reduction :=
  (transactionsOf (orderedDeltas deltas)).foldl reduceTransaction .empty

def roundOrder (r : LedgerRound) : WithBot ℤ ×ₗ String ×ₗ String :=
  toLex ((r.openedAt : WithBot ℤ), toLex (r.mint, r.roundKey))

/-- The finished rounds, with the rounds still open joining them in whatever order the
map yields them. -/
def collect (st : Reduction) (stillOpen : List Round) : List LedgerRound :=
  sortBy roundOrder (st.finished ++ stillOpen.map (·.finish true))

/-- Reduce every observed delta into rounds, oldest first. -/
def reduceRounds (deltas : List SubjectAssetDelta) : List LedgerRound :=
  collect (reduce deltas) (values (reduce deltas).openRounds)

/-- One step of the reduction: a delta folded with its whole transaction. -/
structure ReductionStep where
  group : List SubjectAssetDelta
  delta : SubjectAssetDelta
  deriving DecidableEq

def stepsOfGroup (group : List SubjectAssetDelta) : List ReductionStep :=
  (group.filter isReduced).map (ReductionStep.mk group)

/-- Every step the reduction takes, in order. -/
def reductionSteps (deltas : List SubjectAssetDelta) : List ReductionStep :=
  (transactionsOf (orderedDeltas deltas)).flatMap stepsOfGroup

def applyStep (st : Reduction) (s : ReductionStep) : Reduction := applyDelta st s.group s.delta

theorem reduceTransaction_eq_steps (st : Reduction) (group : List SubjectAssetDelta) :
    reduceTransaction st group = (stepsOfGroup group).foldl applyStep st := by
  simp only [reduceTransaction, stepsOfGroup, List.foldl_map, List.foldl_filter, applyStep]

theorem reduce_eq_steps (deltas : List SubjectAssetDelta) :
    reduce deltas = (reductionSteps deltas).foldl applyStep .empty := by
  have hgroup : reduceTransaction = fun st group => (stepsOfGroup group).foldl applyStep st :=
    funext fun st => funext fun group => reduceTransaction_eq_steps st group
  rw [reduce, reductionSteps, List.foldl_flatMap, hgroup]

theorem transactionsOf_flatten (ordered : List SubjectAssetDelta) :
    (transactionsOf ordered).flatten = ordered := List.flatten_splitBy _ _

theorem reductionSteps_deltas (deltas : List SubjectAssetDelta) :
    (reductionSteps deltas).map ReductionStep.delta = (orderedDeltas deltas).filter isReduced := by
  have hmap (group : List SubjectAssetDelta) :
      (stepsOfGroup group).map ReductionStep.delta = group.filter isReduced := by
    simp [stepsOfGroup, Function.comp_def]
  conv_rhs => rw [← transactionsOf_flatten (orderedDeltas deltas)]
  rw [List.filter_flatten, reductionSteps, List.map_flatMap, List.flatMap_def]
  simp only [hmap]

theorem mem_orderedDeltas {deltas : List SubjectAssetDelta} {d : SubjectAssetDelta} :
    d ∈ orderedDeltas deltas ↔ d ∈ deltas ∧ d.success = true := by
  simp [orderedDeltas]

theorem reductionSteps_mem {deltas : List SubjectAssetDelta} {s : ReductionStep}
    (h : s ∈ reductionSteps deltas) :
    s.delta ∈ deltas ∧ isReferenceAsset s.delta.mint = false ∧ s.delta.deltaRaw ≠ 0 := by
  have hm : s.delta ∈ (reductionSteps deltas).map ReductionStep.delta := List.mem_map_of_mem h
  rw [reductionSteps_deltas, List.mem_filter, mem_orderedDeltas] at hm
  obtain ⟨⟨hd, -⟩, hr⟩ := hm
  simp only [isReduced, Bool.not_eq_true', Bool.or_eq_false_iff, beq_eq_false_iff_ne] at hr
  exact ⟨hd, hr.1, hr.2⟩

end ScreenerBot.Ledger
