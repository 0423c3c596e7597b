import ScreenerBot.Swaps.Presend

/-! A finalized chain, and the nodes that answer from their own prefixes of it. -/
namespace ScreenerBot.Swaps

open Library Rpc

/-- A finalized block: the signatures it executed, each with whether it failed. -/
structure Block where
  slot : ℕ
  height : ℕ
  executed : List (String × Bool)

/-- Whether a block's execution of a signature failed; `none` where it did not execute it. -/
def Block.outcome (block : Block) (signature : String) : Option Bool :=
  block.executed.lookup signature

/-- The finalized blocks of a chain, in order. -/
structure FinalizedChain where
  blocks : List Block
  ascending : blocks.Pairwise fun earlier later =>
    earlier.slot < later.slot ∧ earlier.height < later.height

namespace FinalizedChain

variable (chain : FinalizedChain) (signature : String)

/-- The block that executed a signature. -/
def landedIn : Option Block := chain.blocks.find? fun block => (block.outcome signature).isSome

/-- Whether a signature's execution failed; `none` where the chain holds no transaction for it. -/
def outcome : Option Bool := (chain.landedIn signature).bind (·.outcome signature)

/-- The chain a node that has reached `slot` holds. -/
def upTo (slot : ℕ) : FinalizedChain where
  blocks := chain.blocks.filter (·.slot ≤ slot)
  ascending := chain.ascending.filter _

/-- The signature's transaction can land only at heights up to `bound`. -/
def LandsBy (bound : ℕ) : Prop :=
  ∀ block, chain.landedIn signature = some block → block.height ≤ bound

variable {chain signature}

theorem outcome_eq_none_iff : chain.outcome signature = none ↔ chain.landedIn signature = none := by
  unfold outcome
  constructor
  · intro h
    cases hblock : chain.landedIn signature with
    | none => rfl
    | some block =>
      have hsome := List.find?_some hblock
      rw [hblock, Option.bind_some] at h
      simp [h] at hsome
  · intro h
    rw [h, Option.bind_none]

/-- A block further along the chain is later in slot and in height alike. -/
theorem slot_lt_of_height_lt {a b : Block} (ha : a ∈ chain.blocks) (hb : b ∈ chain.blocks)
    (h : a.height < b.height) : a.slot < b.slot := by
  refine List.Pairwise.forall_of_forall_of_flip
    (R := fun x y : Block => x.height < y.height → x.slot < y.slot) ?_ ?_ ?_ ha hb h
  · intro x _ hx
    exact absurd hx (lt_irrefl _)
  · exact chain.ascending.imp fun hxy _ => hxy.1
  · exact chain.ascending.imp fun hxy hyx => absurd hyx (by omega)

/-- A prefix executed a signature in the block the whole chain did, where it has reached it. -/
theorem landedIn_upTo {slot : ℕ} {block : Block} :
    (chain.upTo slot).landedIn signature = some block ↔
      chain.landedIn signature = some block ∧ block.slot ≤ slot := by
  have hreach : ∀ block, chain.landedIn signature = some block → block.slot ≤ slot →
      (chain.upTo slot).landedIn signature = some block := by
    intro block hblock hslot
    obtain ⟨hheld, before, after, hblocks, hbefore⟩ := List.find?_eq_some_iff_append.mp hblock
    refine List.find?_eq_some_iff_append.mpr ⟨hheld, before.filter (·.slot ≤ slot),
      after.filter (·.slot ≤ slot), ?_, fun a ha => hbefore a (List.mem_of_mem_filter ha)⟩
    simp [upTo, hblocks, hslot]
  constructor
  · intro hblock
    have hmem : block ∈ (chain.upTo slot).blocks := List.mem_of_find?_eq_some hblock
    obtain ⟨hmem, hslot⟩ := List.mem_filter.mp hmem
    have hheld := List.find?_some hblock
    cases hfirst : chain.landedIn signature with
    | none => exact absurd hheld (by simpa using List.find?_eq_none.mp hfirst block hmem)
    | some first =>
      obtain ⟨-, before, after, hblocks, hbefore⟩ := List.find?_eq_some_iff_append.mp hfirst
      have hle : first.slot ≤ block.slot := by
        rw [hblocks, List.mem_append, List.mem_cons] at hmem
        rcases hmem with hmem | rfl | hmem
        · have := hbefore block hmem
          simp [hheld] at this
        · exact le_rfl
        · have hascending := chain.ascending
          rw [hblocks, List.pairwise_append] at hascending
          exact ((List.pairwise_cons.mp hascending.2.1).1 block hmem).1.le
      have hsame := hreach first hfirst (hle.trans (by simpa using hslot))
      rw [hblock, Option.some.injEq] at hsame
      exact ⟨by rw [hsame], by simpa using hslot⟩
  · rintro ⟨hblock, hslot⟩
    exact hreach block hblock hslot

/-- What a prefix holds, the chain holds. -/
theorem outcome_of_upTo {slot : ℕ} {found : Bool}
    (h : (chain.upTo slot).outcome signature = some found) :
    chain.outcome signature = some found := by
  obtain ⟨block, hblock, houtcome⟩ := Option.bind_eq_some_iff.mp h
  rw [outcome, (landedIn_upTo.mp hblock).1, Option.bind_some]
  exact houtcome

/-- A prefix holds a transaction of the chain exactly when it has reached its block. -/
theorem upTo_outcome_eq_none_iff {slot : ℕ} :
    (chain.upTo slot).outcome signature = none ↔
      ∀ block, chain.landedIn signature = some block → slot < block.slot := by
  rw [outcome_eq_none_iff]
  constructor
  · intro h block hblock
    by_contra hslot
    have := landedIn_upTo.mpr ⟨hblock, not_lt.mp hslot⟩
    rw [h] at this
    cases this
  · intro h
    rw [Option.eq_none_iff_forall_ne_some]
    intro block hblock
    obtain ⟨hlanded, hslot⟩ := landedIn_upTo.mp hblock
    exact absurd hslot (not_le.mpr (h block hlanded))

end FinalizedChain

/-- A node as one read finds it: how far it has got, and whose statuses it no longer keeps. -/
structure NodeView where
  slot : ℕ
  forgets : String → Bool

namespace NodeView

variable (chain : FinalizedChain) (node : NodeView)

/-- What a node's own prefix of the chain says of a signature. -/
def outcome (signature : String) : Option Bool := (chain.upTo node.slot).outcome signature

/-- The statuses a node can answer with: none where it holds or remembers none, any that is only
processed, and else what its prefix says. -/
def AnswersStatus (signature : String) : Option TransactionStatus → Prop
  | none => node.outcome chain signature = none ∨ node.forgets signature = true
  | some status => status.level = .processed ∨
      node.outcome chain signature = some status.err.isSome

/-- The answers a node can give from its prefix; an error is always one. -/
def Answers : Exchange NodeCall → Prop
  | ⟨.signatureStatuses signatures, .ok (slot, statuses)⟩ =>
      slot = node.slot ∧ List.Forall₂ (node.AnswersStatus chain) signatures statuses
  | ⟨.finalizedTip, .ok tip⟩ =>
      ∃ block ∈ (chain.upTo node.slot).blocks, tip = ⟨block.slot, block.height⟩
  | ⟨.transaction signature, .ok none⟩ => node.outcome chain signature = none
  | ⟨.transaction signature, .ok (some found)⟩ =>
      ∃ failed, node.outcome chain signature = some failed ∧
        ∀ err, found.statusMeta = some err → failed = err.isSome
  | ⟨.transactionDetails signature, .ok details⟩ =>
      ∃ failed, node.outcome chain signature = some failed ∧
        ∀ meta_, details.statusMeta = some meta_ → failed = meta_.err.isSome
  | _ => True

/-- A node has reached the block that holds a signature, where the chain has one. -/
def Reached (signature : String) : Prop :=
  ∀ block, chain.landedIn signature = some block → block.slot ≤ node.slot

variable {chain node} {signature : String}

theorem outcome_of_reached (h : node.Reached chain signature) :
    node.outcome chain signature = chain.outcome signature := by
  cases hblock : chain.landedIn signature with
  | none =>
    rw [FinalizedChain.outcome_eq_none_iff.mpr hblock]
    exact FinalizedChain.upTo_outcome_eq_none_iff.mpr fun block hb => by rw [hblock] at hb; cases hb
  | some block =>
    rw [outcome, FinalizedChain.outcome, FinalizedChain.outcome, hblock,
      FinalizedChain.landedIn_upTo.mpr ⟨hblock, h block hblock⟩]

theorem reached_of_outcome {failed : Bool} (h : node.outcome chain signature = some failed) :
    node.Reached chain signature := by
  intro block hblock
  by_contra hslot
  have hnone : node.outcome chain signature = none := by
    refine FinalizedChain.upTo_outcome_eq_none_iff.mpr fun other hother => ?_
    rw [hblock, Option.some.injEq] at hother
    rw [← hother]
    exact not_le.mp hslot
  rw [hnone] at h
  cases h

/-- Past the expiry bound, a node at the tip's slot has reached every block that can hold the
transaction. -/
theorem reached_of_tip {tip : FinalizedTip} {bound : ℕ} {reader : NodeView}
    (htip : reader.Answers chain ⟨.finalizedTip, .ok tip⟩) (hbound : chain.LandsBy signature bound)
    (hexpired : bound < tip.blockHeight) (hslot : tip.slot ≤ node.slot) :
    node.Reached chain signature := by
  obtain ⟨last, hlast, rfl⟩ := htip
  simp only at hexpired hslot
  intro block hblock
  have hheight := hbound block hblock
  have hearlier : block.slot < last.slot := FinalizedChain.slot_lt_of_height_lt
    (List.mem_of_find?_eq_some hblock) (List.mem_of_mem_filter hlast) (by omega)
  omega

end NodeView

end ScreenerBot.Swaps
