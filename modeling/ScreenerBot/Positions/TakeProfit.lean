import ScreenerBot.Library.Run
import ScreenerBot.Positions.ExitLadder
import ScreenerBot.Positions.Settle

/-! The take-profit ladder of a position: its steps are reserved before they are sold, and given
back when their sale did not land. -/
namespace ScreenerBot.Positions

open ScreenerBot.Library

/-- A partial exit whose last send failed with no proof either way. -/
structure SwapHold where
  mint : String
  positionId : ℤ
  /-- The wallet's holding of the mint read just before the swap. -/
  holdingBefore : ℕ
  expiryHeight : Option ℕ
  createdAt : ℤ
  exitAmount : ℕ
  requestedExitPercentage : ℚ
  takeProfitLevel : Option ℕ
  deriving DecidableEq, Repr

/-- How long a hold waits for a settled reading, in seconds. -/
def unprovenHoldLimit : ℤ := 10 * 60

/-- What the chain proves about a held swap. -/
inductive HoldOutcome where
  | wait
  | notLanded
  | landed
  | unknown
  deriving DecidableEq, Repr

/-- The outcome of `hold` given the settled holding, read once nothing sent before its bound can
still land. -/
def holdOutcome (hold : SwapHold) (settled : Option ℕ) (now : ℤ) : HoldOutcome :=
  match settled with
  | none => if unprovenHoldLimit ≤ now - hold.createdAt then .unknown else .wait
  | some after =>
    if after = hold.holdingBefore then .notLanded
    else if after ≤ hold.holdingBefore ∧ hold.holdingBefore - after = hold.exitAmount then .landed
    else .unknown

/-- Where the sale of a reserved step stands: it is being sent, waits for its verification or its
hold, sold, proved unsold (with whether the step was given back), or left without proof. -/
inductive SaleState where
  | sending
  | sent
  | held
  | sold
  | unsold (givenBack : Bool)
  | unproven
  deriving DecidableEq, Repr

structure StepSale where
  level : ℕ
  state : SaleState
  deriving DecidableEq, Repr

/-- A position's count of steps taken, and the sales of the steps it reserved, in order. -/
structure TakeProfitLadder where
  level : ℕ
  sales : List StepSale
  deriving DecidableEq, Repr

/-- What happens to the steps of a position: a reservation with what its check of pending partial
exits read, the end of sale `i`'s exit ladder, its verification, its settlement by a verdict and its
hold's settlement. `written` tells whether the release of a step could be booked. -/
inductive LadderAction (σ : Type*) where
  | reserve (pending : Bool) (level : ℕ)
  | ended (i : ℕ) (steps : List ℚ) (world : σ) (written : Bool)
  | verified (i : ℕ)
  | settled (i : ℕ) (item : VerificationItem) (verdict : SignatureVerdict) (written : Bool)
  | holdSettled (i : ℕ) (hold : SwapHold) (settled : Option ℕ) (now : ℤ) (isOpen written : Bool)

namespace TakeProfitLadder

def new : TakeProfitLadder := ⟨0, []⟩

/-- Whether `TakeProfitLevelReserved` takes `level`: only the step after the last one taken. -/
def reserves (s : TakeProfitLadder) (level : ℕ) : Bool := 1 ≤ level && level - 1 == s.level

/-- `TakeProfitLevelReleased` with a booking that may fail: only the last step taken is given
back. -/
def releases (s : TakeProfitLadder) (level : ℕ) (written : Bool) : Bool :=
  written && level != 0 && s.level == level

/-- Sale `i` stands at `state`. -/
def setSale (s : TakeProfitLadder) (i : ℕ) (sale : StepSale) (state : SaleState) :
    TakeProfitLadder :=
  { s with sales := s.sales.set i { sale with state := state } }

/-- Sale `i` is proved unsold, and its step released. -/
def release (s : TakeProfitLadder) (i : ℕ) (sale : StepSale) (written : Bool) : TakeProfitLadder :=
  if s.releases sale.level written then
    { s.setSale i sale (.unsold true) with level := sale.level - 1 }
  else s.setSale i sale (.unsold false)

/-- The settlement of a sent partial exit of `level`. -/
def ofStep (item : VerificationItem) (level : ℕ) : Bool :=
  item.kind == .exit && item.isPartialExit && item.takeProfitLevel == some level

variable {σ Q R : Type*} (calls : ExitCalls σ Q R) (exit : String)

def step (s : TakeProfitLadder) : LadderAction σ → TakeProfitLadder
  | .reserve pending level =>
    if !pending && s.reserves level then ⟨level, s.sales ++ [⟨level, .sending⟩]⟩ else s
  | .ended i steps world written =>
    match s.sales[i]? with
    | some ⟨level, .sending⟩ =>
      match (runExitLadder calls exit steps world).outcome with
      | .executed _ | .submitted _ => s.setSale i ⟨level, .sending⟩ .sent
      | .failed _ _ => s.release i ⟨level, .sending⟩ written
      | .unresolved _ => s.setSale i ⟨level, .sending⟩ .held
    | _ => s
  | .verified i =>
    match s.sales[i]? with
    | some ⟨level, .sent⟩ => s.setSale i ⟨level, .sent⟩ .sold
    | _ => s
  | .settled i item verdict written =>
    match s.sales[i]? with
    | some ⟨level, .sent⟩ =>
      if ofStep item level then
        match disposition item verdict none with
        | .apply transition =>
          s.release i ⟨level, .sent⟩ (written && (settlementRelease item transition).isSome)
        | _ => s
      else s
    | _ => s
  | .holdSettled i hold settled now isOpen written =>
    match s.sales[i]? with
    | some ⟨level, .held⟩ =>
      if hold.takeProfitLevel = some level then
        match holdOutcome hold settled now with
        | .wait => s
        | .notLanded => s.release i ⟨level, .held⟩ (isOpen && written)
        | .landed => s.setSale i ⟨level, .held⟩ .sold
        | .unknown => s.setSale i ⟨level, .held⟩ .unproven
      else s
    | _ => s

/-- The proof that a sale did not land, in what an action read. -/
def ProvesUnsold : LadderAction σ → Prop
  | .ended _ steps world _ => ∀ send ∈ (runExitLadder calls exit steps world).sends, Unsold send
  | .settled _ item verdict _ => ∃ evidence, Shows item verdict evidence
  | .holdSettled _ hold settled _ _ _ => settled = some hold.holdingBefore
  | _ => False

/-- A step is sold again only after its earlier sales were proved unsold and given back. -/
def SoldOnce (s : TakeProfitLadder) : Prop :=
  ∀ (i j : ℕ) (earlier later : StepSale), i < j → s.sales[i]? = some earlier →
    s.sales[j]? = some later →
    earlier.level = later.level → earlier.state = .unsold true

/-- Every step up to the last one taken is held by a sale that was not given back. -/
def Taken (s : TakeProfitLadder) : Prop :=
  ∀ level, 1 ≤ level → level ≤ s.level →
    ∃ sale ∈ s.sales, sale.level = level ∧ sale.state ≠ .unsold true

/-- Steps are sold in order: below a sold step every step was sold. -/
def SoldInOrder (s : TakeProfitLadder) : Prop :=
  ∀ sale ∈ s.sales, sale.state = .sold → ∀ level, 1 ≤ level → level < sale.level →
    ∃ below ∈ s.sales, below.level = level ∧ below.state = .sold

/-- A world in which a refused send is told from one that sells. -/
def refusingCalls : ExitCalls Bool Unit Unit where
  quote := fun _ _ refuses => (.ok (), refuses)
  executeQuote := fun _ refuses =>
    (if refuses then .error (.solana (.notSent .halted)) else .ok (), refuses)
  shown := fun _ => ""
  percent := fun _ => ""

/-- The first step's sale is refused and the release of the step cannot be written: the step stays
taken, and the second one is sold without it. -/
theorem unwritten_release_skips : ¬ SoldInOrder
    ([.reserve false 1, .ended 0 [3] true false, .reserve false 2, .ended 1 [3] false true,
      .verified 1].foldl (step refusingCalls "Partial exit") new) := by
  intro h
  have hsold := h ⟨2, .sold⟩ (by decide) rfl 1 (by decide) (by decide)
  exact absurd hsold (by decide)

/-- What a ladder keeps: the sales that were not given back stand on distinct steps, and these are
the steps taken. -/
structure Kept (s : TakeProfitLadder) : Prop where
  once : s.SoldOnce
  range : ∀ (i : ℕ) (sale : StepSale), s.sales[i]? = some sale → sale.state ≠ .unsold true →
    1 ≤ sale.level ∧ sale.level ≤ s.level
  taken : s.Taken

theorem new_kept : new.Kept where
  once := by intro i j earlier later _ hearlier; cases hearlier
  range := by intro i sale hsale; cases hsale
  taken := by
    intro level hpos hle
    exact absurd hpos (by simp only [new] at hle; omega)

section Sale

variable {s : TakeProfitLadder} {i : ℕ} {sale : StepSale}

theorem setSale_get (state : SaleState) {j : ℕ} {found : StepSale}
    (h : (s.setSale i sale state).sales[j]? = some found) :
    j = i ∧ found = { sale with state := state } ∨ j ≠ i ∧ s.sales[j]? = some found := by
  simp only [setSale, List.getElem?_set] at h
  split at h
  next hij =>
    split at h
    · exact .inl ⟨hij.symm, (Option.some.inj h).symm⟩
    · cases h
  next hij => exact .inr ⟨Ne.symm hij, h⟩

theorem setSale_other (state : SaleState) {j : ℕ} (hij : j ≠ i) :
    (s.setSale i sale state).sales[j]? = s.sales[j]? :=
  List.getElem?_set_ne (Ne.symm hij)

theorem setSale_self (hsale : s.sales[i]? = some sale) (state : SaleState) :
    (s.setSale i sale state).sales[i]? = some { sale with state := state } := by
  obtain ⟨hlt, -⟩ := List.getElem?_eq_some_iff.mp hsale
  simp [setSale, hlt]

/-- No other sale of the step of a sale that was not given back is without being given back. -/
theorem Kept.alone (h : s.Kept) (hsale : s.sales[i]? = some sale)
    (hstate : sale.state ≠ .unsold true)
    {j : ℕ} {found : StepSale} (hij : j ≠ i) (hfound : s.sales[j]? = some found)
    (hkept : found.state ≠ .unsold true) : found.level ≠ sale.level := by
  intro hlevel
  rcases Nat.lt_or_gt_of_ne hij with hlt | hgt
  · exact hkept (h.once j i found sale hlt hfound hsale hlevel)
  · exact hstate (h.once i j sale found hgt hsale hfound hlevel.symm)

/-- A sale that moves on, or ends otherwise than given back, keeps its step. -/
theorem Kept.setSale (h : s.Kept) (hsale : s.sales[i]? = some sale)
    (hstate : sale.state ≠ .unsold true) {state : SaleState} (hnew : state ≠ .unsold true) :
    (s.setSale i sale state).Kept := by
  refine ⟨?_, ?_, ?_⟩
  · intro j k earlier later hjk hearlier hlater hlevel
    rcases setSale_get state hearlier with ⟨rfl, rfl⟩ | ⟨-, hbefore⟩
    · rcases setSale_get state hlater with ⟨rfl, -⟩ | ⟨-, hlater⟩
      · exact absurd hjk (lt_irrefl _)
      · exact absurd (h.once j k sale later hjk hsale hlater hlevel) hstate
    · rcases setSale_get state hlater with ⟨rfl, rfl⟩ | ⟨-, hlater⟩
      · exact h.once j k earlier sale hjk hbefore hsale hlevel
      · exact h.once j k earlier later hjk hbefore hlater hlevel
  · intro j found hfound hkept
    rcases setSale_get state hfound with ⟨rfl, rfl⟩ | ⟨-, hfound⟩
    · exact h.range j sale hsale hstate
    · exact h.range j found hfound hkept
  · intro level hpos hle
    obtain ⟨holder, hholder, hlevel, hkept⟩ := h.taken level hpos hle
    obtain ⟨j, hj⟩ := List.mem_iff_getElem?.mp hholder
    by_cases hji : j = i
    · subst hji
      obtain rfl : sale = holder := Option.some.inj (hsale.symm.trans hj)
      exact ⟨_, List.mem_iff_getElem?.mpr ⟨j, setSale_self hsale state⟩, hlevel, hnew⟩
    · refine ⟨holder, List.mem_iff_getElem?.mpr ⟨j, ?_⟩, hlevel, hkept⟩
      rw [setSale_other state hji]
      exact hj

/-- A released step leaves the steps below it taken, each by its own sale. -/
theorem Kept.release (h : s.Kept) (hsale : s.sales[i]? = some sale)
    (hstate : sale.state ≠ .unsold true) (written : Bool) : (s.release i sale written).Kept := by
  unfold TakeProfitLadder.release
  split
  next hreleases =>
    simp only [releases, Bool.and_eq_true, beq_iff_eq] at hreleases
    obtain ⟨-, hlevel⟩ := hreleases
    refine ⟨?_, ?_, ?_⟩
    · intro j k earlier later hjk hearlier hlater hsame
      rcases setSale_get (.unsold true) hearlier with ⟨rfl, rfl⟩ | ⟨-, hbefore⟩
      · rfl
      · rcases setSale_get (.unsold true) hlater with ⟨rfl, rfl⟩ | ⟨-, hlater⟩
        · exact h.once j k earlier sale hjk hbefore hsale hsame
        · exact h.once j k earlier later hjk hbefore hlater hsame
    · intro j found hfound hkept
      rcases setSale_get (.unsold true) hfound with ⟨rfl, rfl⟩ | ⟨hji, hfound⟩
      · exact absurd rfl hkept
      · have hrange := h.range j found hfound hkept
        have hother := h.alone hsale hstate hji hfound hkept
        exact ⟨hrange.1, by dsimp only; omega⟩
    · intro level hpos hle
      dsimp only at hle
      obtain ⟨holder, hholder, hheld, hkept⟩ := h.taken level hpos (by omega)
      obtain ⟨j, hj⟩ := List.mem_iff_getElem?.mp hholder
      have hji : j ≠ i := by
        rintro rfl
        obtain rfl : sale = holder := Option.some.inj (hsale.symm.trans hj)
        omega
      refine ⟨holder, List.mem_iff_getElem?.mpr ⟨j, ?_⟩, hheld, hkept⟩
      exact (setSale_other (.unsold true) hji).trans hj
  next => exact h.setSale hsale hstate (by decide)

/-- The step after the last one taken is reserved, above steps that are all taken. -/
theorem Kept.reserve (h : s.Kept) {level : ℕ} (hreserves : s.reserves level = true) :
    Kept ⟨level, s.sales ++ [⟨level, .sending⟩]⟩ := by
  simp only [reserves, Bool.and_eq_true, decide_eq_true_eq, beq_iff_eq] at hreserves
  obtain ⟨hpos, hnext⟩ := hreserves
  have hget : ∀ (j : ℕ) (found : StepSale),
      (s.sales ++ [⟨level, .sending⟩])[j]? = some found →
        s.sales[j]? = some found ∧ j < s.sales.length ∨
          j = s.sales.length ∧ found = ⟨level, .sending⟩ := by
    intro j found hfound
    rcases Nat.lt_or_ge j s.sales.length with hlt | hge
    · rw [List.getElem?_append_left hlt] at hfound
      exact .inl ⟨hfound, hlt⟩
    · rw [List.getElem?_append_right hge] at hfound
      obtain ⟨hlt, heq⟩ := List.getElem?_eq_some_iff.mp hfound
      simp only [List.length_singleton] at hlt
      simp only [List.getElem_singleton] at heq
      exact .inr ⟨by omega, heq.symm⟩
  refine ⟨?_, ?_, ?_⟩
  · intro j k earlier later hjk hearlier hlater hsame
    rcases hget j earlier hearlier with ⟨hearlier, hlt⟩ | ⟨rfl, -⟩
    · rcases hget k later hlater with ⟨hlater, -⟩ | ⟨-, rfl⟩
      · exact h.once j k earlier later hjk hearlier hlater hsame
      · by_contra hkept
        have hrange := h.range j earlier hearlier hkept
        simp only at hsame
        omega
    · rcases hget k later hlater with ⟨-, hlt⟩ | ⟨rfl, -⟩
      · omega
      · exact absurd hjk (lt_irrefl _)
  · intro j found hfound hkept
    rcases hget j found hfound with ⟨hfound, -⟩ | ⟨-, rfl⟩
    · have hrange := h.range j found hfound hkept
      exact ⟨hrange.1, by dsimp only; omega⟩
    · exact ⟨hpos, le_rfl⟩
  · intro below hbelow hle
    dsimp only at hle
    rcases Nat.lt_or_ge s.level below with hlt | hge
    · exact ⟨⟨level, .sending⟩, List.mem_append_right _ List.mem_cons_self, by simp only; omega,
        by simp⟩
    · obtain ⟨holder, hholder, hheld, hkept⟩ := h.taken below hbelow hge
      exact ⟨holder, List.mem_append_left _ hholder, hheld, hkept⟩

end Sale

theorem holdOutcome_notLanded {hold : SwapHold} {settled : Option ℕ} {now : ℤ}
    (h : holdOutcome hold settled now = .notLanded) : settled = some hold.holdingBefore := by
  unfold holdOutcome at h
  cases settled with
  | none =>
    dsimp only at h
    split at h <;> cases h
  | some after =>
    dsimp only at h
    split at h
    next he => rw [he]
    next =>
      split at h <;> cases h

/-- What one action does: nothing, a reservation, a sale that moves on, or the release of a sale
that the action proves unsold. -/
inductive Moves (s : TakeProfitLadder) (action : LadderAction σ) : TakeProfitLadder → Prop where
  | same : Moves s action s
  | reserved (level : ℕ) (hreserves : s.reserves level = true) :
      Moves s action ⟨level, s.sales ++ [⟨level, .sending⟩]⟩
  | moved (i : ℕ) (sale : StepSale) (state : SaleState) (hsale : s.sales[i]? = some sale)
      (hstate : sale.state ≠ .unsold true) (hnew : state ≠ .unsold true) :
      Moves s action (s.setSale i sale state)
  | released (i : ℕ) (sale : StepSale) (written : Bool) (hsale : s.sales[i]? = some sale)
      (hstate : sale.state ≠ .unsold true) (hproof : ProvesUnsold calls exit action) :
      Moves s action (s.release i sale written)

theorem step_moves (s : TakeProfitLadder) (action : LadderAction σ) :
    Moves calls exit s action (s.step calls exit action) := by
  unfold TakeProfitLadder.step
  cases action with
  | reserve pending level =>
    dsimp only
    split
    next hreserves => exact .reserved level (Bool.and_eq_true .. ▸ hreserves).2
    next => exact .same
  | ended i steps world written =>
    dsimp only
    split
    next level hsale =>
      have haccounts := (exit_ladder_never_resells calls exit steps world).2.2
      cases houtcome : (runExitLadder calls exit steps world).outcome with
      | executed | submitted => exact .moved i _ .sent hsale (by simp) (by simp)
      | failed detail notSubmitted =>
        rw [houtcome] at haccounts
        exact .released i _ written hsale (by simp) haccounts
      | unresolved detail => exact .moved i _ .held hsale (by simp) (by simp)
    next => exact .same
  | verified i =>
    dsimp only
    split
    next level hsale => exact .moved i _ .sold hsale (by simp) (by simp)
    next => exact .same
  | settled i item verdict written =>
    dsimp only
    split
    next level hsale =>
      split
      · cases hdisposition : disposition item verdict none with
        | apply transition =>
          obtain ⟨-, positionId, evidence, hshows, -⟩ := disposition_apply hdisposition
          exact .released i _ _ hsale (by simp) ⟨evidence, hshows⟩
        | requeue | defer => exact .same
      · exact .same
    next => exact .same
  | holdSettled i hold settled now isOpen written =>
    dsimp only
    split
    next level hsale =>
      split
      · cases houtcome : holdOutcome hold settled now with
        | wait => exact .same
        | notLanded => exact .released i _ _ hsale (by simp) (holdOutcome_notLanded houtcome)
        | landed => exact .moved i _ .sold hsale (by simp) (by simp)
        | unknown => exact .moved i _ .unproven hsale (by simp) (by simp)
      · exact .same
    next => exact .same

theorem Kept.step {s : TakeProfitLadder} (h : s.Kept) (action : LadderAction σ) :
    (s.step calls exit action).Kept := by
  have hmoves := step_moves calls exit s action
  generalize s.step calls exit action = next at hmoves ⊢
  cases hmoves with
  | same => exact h
  | reserved level hreserves => exact h.reserve hreserves
  | moved i sale state hsale hstate hnew => exact h.setSale hsale hstate hnew
  | released i sale written hsale hstate hproof => exact h.release hsale hstate written

theorem release_level_le (s : TakeProfitLadder) (i : ℕ) (sale : StepSale) (written : Bool) :
    (s.release i sale written).level ≤ s.level := by
  unfold release
  split
  next hreleases =>
    simp only [releases, Bool.and_eq_true, beq_iff_eq] at hreleases
    dsimp only
    omega
  next => exact le_rfl

theorem reserves_next {s : TakeProfitLadder} {level : ℕ} (h : s.reserves level = true) :
    level = s.level + 1 := by
  simp only [reserves, Bool.and_eq_true, decide_eq_true_eq, beq_iff_eq] at h
  omega

/-- A step is given back only by an action that read a proof that its sale did not land. -/
theorem proves_of_givenBack {s : TakeProfitLadder} {action : LadderAction σ}
    (h : (s.step calls exit action).level < s.level) : ProvesUnsold calls exit action := by
  have hmoves := step_moves calls exit s action
  generalize s.step calls exit action = next at hmoves h
  cases hmoves with
  | same => exact absurd h (lt_irrefl _)
  | reserved level hreserves =>
    have hnext := reserves_next hreserves
    simp only at h
    omega
  | moved i sale state hsale hstate hnew => exact absurd h (lt_irrefl _)
  | released i sale written hsale hstate hproof => exact hproof

/-- The count of steps taken grows by one, when the next step is reserved. -/
theorem reserved_next {s : TakeProfitLadder} {action : LadderAction σ}
    (h : s.level < (s.step calls exit action).level) :
    (s.step calls exit action).level = s.level + 1 := by
  have hmoves := step_moves calls exit s action
  generalize s.step calls exit action = next at hmoves h ⊢
  cases hmoves with
  | same => exact absurd h (lt_irrefl _)
  | reserved level hreserves => exact reserves_next hreserves
  | moved i sale state hsale hstate hnew => exact absurd h (lt_irrefl _)
  | released i sale written hsale hstate hproof =>
    have hle := s.release_level_le i sale written
    omega

/-- Over every interleaving of reservations, sends, verifications, failures and holds: a step is
sold again only after its earlier sales were proved unsold and given back, every step up to the last
one taken is held by a sale of its own, only the step after it is reserved, and a step is given back
only on a proof that its sale did not land. -/
theorem ladder_steps_sold_once (actions : List (LadderAction σ)) :
    (∀ taken, taken <+: actions → SoldOnce (taken.foldl (step calls exit) new) ∧
      Taken (taken.foldl (step calls exit) new)) ∧
    ∀ p ∈ visited (step calls exit) new actions,
      (p.1.level < (p.1.step calls exit p.2).level →
        (p.1.step calls exit p.2).level = p.1.level + 1) ∧
      ((p.1.step calls exit p.2).level < p.1.level → ProvesUnsold calls exit p.2) := by
  constructor
  · intro taken htaken
    have hkept := reached_invariant (step calls exit) Kept new_kept
      (fun p _ hinv => hinv.step calls exit p.2) taken htaken
    exact ⟨hkept.once, hkept.taken⟩
  · intro p _
    exact ⟨reserved_next calls exit, proves_of_givenBack calls exit⟩

end TakeProfitLadder

end ScreenerBot.Positions
