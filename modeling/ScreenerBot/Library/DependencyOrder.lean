import Mathlib
import ScreenerBot.Library.Lists

/-!
What is reached from a list of places, and an order that places everything after what it depends on,
the least key first among what can be placed.
-/
namespace ScreenerBot.Library
open Relation

theorem EachAfter.init {α : Type*} {P : List α → α → Prop} {l : List α} {a : α}
    (h : EachAfter P (l ++ [a])) :
    EachAfter P l ∧ P l a := by
  constructor
  · intro before b after he
    exact h before b (after ++ [a]) (by rw [he, List.append_assoc, List.cons_append])
  · exact h l a [] rfl

/-- What an element of a filtered list stands after is what it stood after, filtered. -/
theorem EachAfter.filter {α : Type*} {P Q : List α → α → Prop} {l : List α} (keep : α → Bool)
    (h : EachAfter P l) (hpq : ∀ before a, keep a = true → P before a → Q (before.filter keep) a) :
    EachAfter Q (l.filter keep) := by
  intro before a after he
  obtain ⟨front, rest, rfl, rfl, hrest⟩ := List.filter_eq_append_iff.mp he
  obtain ⟨skipped, back, rfl, hskipped, ha, _⟩ := List.filter_eq_cons_iff.mp hrest
  have hall := hpq (front ++ skipped) a ha (h (front ++ skipped) a back (by simp))
  rwa [List.filter_append, List.filter_eq_nil_iff.mpr hskipped, List.append_nil] at hall

/-- In a list without repetition whose elements stand after all that `R` relates them to, none is
related to itself or to a later one. -/
theorem EachAfter.pairwise_not {α : Type*} {P : List α → α → Prop} {R : α → α → Prop} {l : List α}
    (h : EachAfter P l) (hnodup : l.Nodup) (hpr : ∀ before a b, P before a → R a b → b ∈ before) :
    l.Pairwise (fun a b => ¬R a b) ∧ ∀ a ∈ l, ¬R a a := by
  induction l using List.reverseRecOn with
  | nil => exact ⟨List.Pairwise.nil, fun a ha => absurd ha List.not_mem_nil⟩
  | append_singleton l a ih =>
    obtain ⟨hinit, hlast⟩ := h.init
    obtain ⟨hnodup, _, hdisjoint⟩ := List.nodup_append.mp hnodup
    obtain ⟨hpairwise, hself⟩ := ih hinit hnodup
    have hfresh : a ∉ l := fun ha => hdisjoint a ha a List.mem_cons_self rfl
    constructor
    · refine List.pairwise_append.mpr ⟨hpairwise, List.pairwise_singleton _ _, ?_⟩
      intro x hx b hb hxb
      obtain rfl := List.mem_singleton.mp hb
      obtain ⟨before, after, rfl⟩ := List.append_of_mem hx
      exact hfresh (List.mem_append_left _ (hpr before x b (hinit before x after rfl) hxb))
    · intro b hb hbb
      obtain hb | hb := List.mem_append.mp hb
      · exact hself b hb hbb
      · obtain rfl := List.mem_singleton.mp hb
        exact hfresh (hpr l b b hlast hbb)

section Reach

variable {α : Type*} [DecidableEq α]

/-- Everything found from the places of a stack, with what was found before; only what `bound` holds
is followed. -/
def reachFrom (bound : Finset α) (next : α → List α) (found : List α) : List α → List α
  | [] => found
  | a :: pending =>
    if _skip : a ∈ found ∨ a ∉ bound then reachFrom bound next found pending
    else reachFrom bound next (a :: found) (next a ++ pending)
termination_by pending => ((bound \ found.toFinset).card, pending.length)
decreasing_by
  · exact Prod.Lex.right _ (Nat.lt_succ_self _)
  · obtain ⟨hnew, hbound⟩ := not_or.mp _skip
    apply Prod.Lex.left
    rw [List.toFinset_cons, Finset.sdiff_insert]
    apply Finset.card_lt_card
    apply Finset.erase_ssubset
    rw [Finset.mem_sdiff, List.mem_toFinset]
    exact ⟨not_not.mp hbound, hnew⟩

variable {bound : Finset α} {next : α → List α}

theorem reachFrom_nodup {found pending : List α} (h : found.Nodup) :
    (reachFrom bound next found pending).Nodup := by
  induction found, pending using reachFrom.induct bound next with
  | case1 found => rwa [reachFrom]
  | case2 found a pending hskip ih =>
    rw [reachFrom, dif_pos hskip]
    exact ih h
  | case3 found a pending hskip ih =>
    rw [reachFrom, dif_neg hskip]
    exact ih (List.nodup_cons.mpr ⟨(not_or.mp hskip).1, h⟩)

/-- What is found can be reached. -/
theorem of_mem_reachFrom {P : α → Prop} (hnext : ∀ a, P a → ∀ b ∈ next a, P b)
    {found pending : List α}
    (hfound : ∀ a ∈ found, P a) (hpending : ∀ a ∈ pending, P a) :
    ∀ a ∈ reachFrom bound next found pending, P a := by
  induction found, pending using reachFrom.induct bound next with
  | case1 found =>
    rw [reachFrom]
    exact hfound
  | case2 found a pending hskip ih =>
    rw [reachFrom, dif_pos hskip]
    exact ih hfound fun b hb => hpending b (List.mem_cons_of_mem a hb)
  | case3 found a pending hskip ih =>
    rw [reachFrom, dif_neg hskip]
    have ha := hpending a List.mem_cons_self
    apply ih
    · intro b hb
      obtain rfl | hb := List.mem_cons.mp hb
      · exact ha
      · exact hfound b hb
    · intro b hb
      obtain hb | hb := List.mem_append.mp hb
      · exact hnext a ha b hb
      · exact hpending b (List.mem_cons_of_mem a hb)

/-- The stack and what was found before are found, and so is what they lead to. -/
theorem reachFrom_closed (hbound : ∀ a, ∀ b ∈ next a, b ∈ bound) {found pending : List α}
    (hpending : ∀ a ∈ pending, a ∈ bound)
    (h : ∀ a ∈ found, ∀ b ∈ next a, b ∈ found ∨ b ∈ pending) :
    (∀ a, a ∈ found ∨ a ∈ pending → a ∈ reachFrom bound next found pending) ∧
      ∀ a ∈ reachFrom bound next found pending, ∀ b ∈ next a,
        b ∈ reachFrom bound next found pending := by
  induction found, pending using reachFrom.induct bound next with
  | case1 found =>
    rw [reachFrom]
    simpa using h
  | case2 found a pending hskip ih =>
    rw [reachFrom, dif_pos hskip]
    have hfound : a ∈ found := hskip.resolve_right fun hout => hout (hpending a List.mem_cons_self)
    have hstill : ∀ x, x ∈ found ∨ x ∈ a :: pending → x ∈ found ∨ x ∈ pending := by
      rintro x (hx | hx)
      · exact .inl hx
      · obtain rfl | hx := List.mem_cons.mp hx
        · exact .inl hfound
        · exact .inr hx
    obtain ⟨hin, hclosed⟩ := ih (fun b hb => hpending b (List.mem_cons_of_mem a hb))
      fun x hx b hb => hstill b (h x hx b hb)
    exact ⟨fun x hx => hin x (hstill x hx), hclosed⟩
  | case3 found a pending hskip ih =>
    rw [reachFrom, dif_neg hskip]
    have hstill : ∀ x, x ∈ found ∨ x ∈ a :: pending → x ∈ a :: found ∨ x ∈ next a ++ pending := by
      rintro x (hx | hx)
      · exact .inl (List.mem_cons_of_mem a hx)
      · obtain rfl | hx := List.mem_cons.mp hx
        · exact .inl List.mem_cons_self
        · exact .inr (List.mem_append_right _ hx)
    have hfound : ∀ x ∈ a :: found, ∀ b ∈ next x, b ∈ a :: found ∨ b ∈ next a ++ pending := by
      intro x hx b hb
      obtain rfl | hx := List.mem_cons.mp hx
      · exact .inr (List.mem_append_left _ hb)
      · exact hstill b (h x hx b hb)
    have hall : ∀ x ∈ next a ++ pending, x ∈ bound := by
      intro x hx
      obtain hx | hx := List.mem_append.mp hx
      · exact hbound a x hx
      · exact hpending x (List.mem_cons_of_mem a hx)
    obtain ⟨hin, hclosed⟩ := ih hall hfound
    exact ⟨fun x hx => hin x (hstill x hx), hclosed⟩

/-- What is found from a stack is what its places lead to. -/
theorem mem_reachFrom (hbound : ∀ a, ∀ b ∈ next a, b ∈ bound) {pending : List α}
    (hpending : ∀ a ∈ pending, a ∈ bound) {b : α} :
    b ∈ reachFrom bound next [] pending ↔
      ∃ a ∈ pending, ReflTransGen (fun x y => y ∈ next x) a b := by
  constructor
  · apply of_mem_reachFrom (P := fun b => ∃ a ∈ pending, ReflTransGen (fun x y => y ∈ next x) a b)
    · rintro x ⟨a, ha, hax⟩ y hy
      exact ⟨a, ha, hax.tail hy⟩
    · exact fun a ha => absurd ha List.not_mem_nil
    · exact fun a ha => ⟨a, ha, .refl⟩
  · rintro ⟨a, ha, hab⟩
    have hempty : ∀ x ∈ ([] : List α), ∀ y ∈ next x, y ∈ ([] : List α) ∨ y ∈ pending :=
      fun x hx => absurd hx List.not_mem_nil
    obtain ⟨hin, hclosed⟩ := reachFrom_closed hbound hpending hempty
    induction hab with
    | refl => exact hin a (.inr ha)
    | tail _ hstep ih => exact hclosed _ ih _ hstep

end Reach

/-- What is to be placed, what each of it depends on, and the key that chooses among what can be
placed. -/
structure Precedence (α κ : Type*) where
  nodes : List α
  before : α → List α
  key : α → κ
  nodes_nodup : nodes.Nodup
  before_nodup : ∀ a, (before a).Nodup
  closed : ∀ a ∈ nodes, ∀ b ∈ before a, b ∈ nodes
  key_injective : Function.Injective key

/-- What can be placed now, how many dependencies of each node are not placed, and what is
placed. -/
structure Placing (α : Type*) where
  ready : List α
  unmet : α → ℕ
  placed : List α

namespace Placing
variable {α : Type*} [DecidableEq α]

/-- One dependency of `b` was placed. -/
def meet (s : Placing α) (b : α) : Placing α where
  ready := if s.unmet b - 1 = 0 ∧ b ∉ s.ready then b :: s.ready else s.ready
  unmet := Function.update s.unmet b (s.unmet b - 1)
  placed := s.placed

variable {l : List α} {s : Placing α} {a : α}

@[simp] theorem foldl_meet_placed : (l.foldl meet s).placed = s.placed := by
  induction l generalizing s with
  | nil => rfl
  | cons b l ih => exact ih

theorem foldl_meet_unmet (hnodup : l.Nodup) :
    (l.foldl meet s).unmet a = if a ∈ l then s.unmet a - 1 else s.unmet a := by
  induction l generalizing s with
  | nil => rfl
  | cons b l ih =>
    obtain ⟨hb, hnodup⟩ := List.nodup_cons.mp hnodup
    rw [List.foldl_cons, ih hnodup, meet]
    by_cases hab : a = b
    · subst hab
      simp [hb]
    · simp [hab]

theorem mem_foldl_meet_ready (hnodup : l.Nodup) :
    a ∈ (l.foldl meet s).ready ↔ a ∈ s.ready ∨ a ∈ l ∧ s.unmet a - 1 = 0 := by
  induction l generalizing s with
  | nil => simp
  | cons b l ih =>
    obtain ⟨hb, hnodup⟩ := List.nodup_cons.mp hnodup
    have hmeet : a ∈ (s.meet b).ready ↔ a ∈ s.ready ∨ a = b ∧ s.unmet b - 1 = 0 := by
      unfold meet
      split_ifs with h
      · rw [List.mem_cons, or_comm]
        exact or_congr_right ⟨fun hab => ⟨hab, h.1⟩, And.left⟩
      · refine ⟨.inl, ?_⟩
        rintro (ha | ⟨rfl, hzero⟩)
        · exact ha
        · by_contra hready
          exact h ⟨hzero, hready⟩
    rw [List.foldl_cons, ih hnodup, hmeet, List.mem_cons]
    by_cases hab : a = b
    · subst hab
      simp [hb]
    · simp [meet, hab]

theorem foldl_meet_ready_nodup (h : s.ready.Nodup) : (l.foldl meet s).ready.Nodup := by
  induction l generalizing s with
  | nil => exact h
  | cons b l ih =>
    apply ih
    unfold meet
    split_ifs with hb
    · exact List.nodup_cons.mpr ⟨hb.2, h⟩
    · exact h

end Placing

namespace Precedence
variable {α κ : Type*} [LinearOrder κ]

/-- What can be placed first or after `done`. -/
def Placeable (p : Precedence α κ) (done : List α) (a : α) : Prop :=
  a ∈ p.nodes ∧ a ∉ done ∧ ∀ b ∈ p.before a, b ∈ done

/-- Each place is the one of least key among what can be placed after those before it. -/
def Greedy (p : Precedence α κ) : List α → Prop :=
  EachAfter fun done a => p.Placeable done a ∧ ∀ c, p.Placeable done c → p.key a ≤ p.key c

/-- `a` cannot be placed before `b`. -/
def Depends (p : Precedence α κ) (a b : α) : Prop :=
  a ∈ p.nodes ∧ b ∈ p.before a

variable {p : Precedence α κ} {l l' : List α}

namespace Greedy

theorem mem_nodes (h : p.Greedy l) {a : α} (ha : a ∈ l) : a ∈ p.nodes := by
  obtain ⟨before, after, rfl⟩ := List.append_of_mem ha
  exact (h before a after rfl).1.1

theorem nodup (h : p.Greedy l) : l.Nodup := by
  induction l using List.reverseRecOn with
  | nil => exact List.nodup_nil
  | append_singleton l a ih =>
    obtain ⟨hinit, ⟨_, hnew, _⟩, _⟩ := EachAfter.init h
    exact List.nodup_append.mpr ⟨ih hinit, List.nodup_singleton a, by
      rintro b hb c hc rfl
      rw [List.mem_singleton] at hc
      exact hnew (hc ▸ hb)⟩

theorem of_append (l' : List α) (h : p.Greedy (l ++ l')) : p.Greedy l :=
  fun before a after he => h before a (after ++ l') (by simp [he])

/-- Two such orders of one length are the same. -/
theorem unique (h : p.Greedy l) (h' : p.Greedy l') (hlength : l.length = l'.length) : l = l' := by
  induction l using List.reverseRecOn generalizing l' with
  | nil => exact (List.length_eq_zero_iff.mp hlength.symm).symm
  | append_singleton l a ih =>
    obtain rfl | ⟨l', a', rfl⟩ := List.eq_nil_or_concat' l'
    · simp at hlength
    · obtain ⟨hinit, hplace, hleast⟩ := EachAfter.init h
      obtain ⟨hinit', hplace', hleast'⟩ := EachAfter.init h'
      have hl : l = l' := ih hinit hinit' (by simpa using hlength)
      subst hl
      have hkey : p.key a = p.key a' := le_antisymm (hleast a' hplace') (hleast' a hplace)
      rw [p.key_injective hkey]

theorem mem_before (h : p.Greedy l) {a b : α} (ha : a ∈ l) (hb : b ∈ p.before a) : b ∈ l := by
  obtain ⟨done, after, rfl⟩ := List.append_of_mem ha
  exact List.mem_append_left _ ((h done a after rfl).1.2.2 b hb)

/-- An order after which nothing can be placed goes on from any other. -/
theorem prefix_of_finished (h : p.Greedy l) (h' : p.Greedy l') (hdone : ∀ a, ¬p.Placeable l a) :
    l' <+: l := by
  obtain hle | hlt := le_or_gt l'.length l.length
  · have htake : l' = l.take l'.length := by
      apply h'.unique
      · apply of_append (l.drop l'.length)
        rwa [List.take_append_drop]
      · rw [List.length_take, Nat.min_eq_left hle]
    rw [htake]
    exact List.take_prefix _ _
  · have hsame : l = l'.take l.length := by
      apply h.unique
      · apply of_append (l'.drop l.length)
        rwa [List.take_append_drop]
      · rw [List.length_take, Nat.min_eq_left hlt.le]
    -- the next of the longer order could have been placed
    have hsplit : l' = l ++ l'[l.length] :: l'.drop (l.length + 1) := by
      rw [← List.drop_eq_getElem_cons hlt]
      conv_lhs => rw [← List.take_append_drop l.length l', ← hsame]
    exact absurd (h' _ _ _ hsplit).1 (hdone _)

/-- What a place depends on stands before it. -/
theorem idxOf_lt [DecidableEq α] (h : p.Greedy l) {a b : α} (ha : a ∈ l) (hb : b ∈ p.before a) :
    l.idxOf b < l.idxOf a := by
  obtain ⟨done, after, rfl⟩ := List.append_of_mem ha
  obtain ⟨⟨_, hnew, hbefore⟩, _⟩ := h done a after rfl
  have hdone := hbefore b hb
  rw [List.idxOf_append_of_mem hdone, List.idxOf_append_of_notMem hnew]
  exact Nat.lt_add_right _ (List.idxOf_lt_length_of_mem hdone)

end Greedy

variable [DecidableEq α]

def start (p : Precedence α κ) : Placing α where
  ready := p.nodes.filter fun a => (p.before a).isEmpty
  unmet a := (p.before a).length
  placed := []

/-- Places `a` and counts it at everything that depends on it. -/
def place (p : Precedence α κ) (s : Placing α) (a : α) : Placing α :=
  (p.nodes.filter fun b => a ∈ p.before b).foldl Placing.meet
    { s with ready := s.ready.erase a, placed := s.placed ++ [a] }

def run (p : Precedence α κ) : ℕ → Placing α → Placing α
  | 0, s => s
  | fuel + 1, s =>
    match s.ready.argmin p.key with
    | none => s
    | some a => p.run fuel (p.place s a)

/-- The order of everything, or what could not be placed. -/
def order (p : Precedence α κ) : Except (List α) (List α) :=
  let s := p.run p.nodes.length p.start
  if s.placed.length < p.nodes.length then .error (p.nodes.filter fun a => 0 < s.unmet a)
  else .ok s.placed

/-- What holds of what is placed and of the counts beside it. -/
structure Sound (p : Precedence α κ) (s : Placing α) : Prop where
  ready_iff : ∀ a, a ∈ s.ready ↔ p.Placeable s.placed a
  ready_nodup : s.ready.Nodup
  unmet_eq : ∀ a ∈ p.nodes, s.unmet a = (p.before a).countP (· ∉ s.placed)
  greedy : p.Greedy s.placed

theorem start_sound : p.Sound p.start where
  ready_iff a := by
    simp only [start, Placeable, List.mem_filter, List.isEmpty_iff, List.not_mem_nil,
      not_false_eq_true, true_and]
    exact and_congr_right fun _ => List.eq_nil_iff_forall_not_mem
  ready_nodup := p.nodes_nodup.filter _
  unmet_eq a _ := by simp [start, List.countP_eq_length_filter]
  greedy := EachAfter.nil

omit [LinearOrder κ] in

/-- One more placed is one dependency less for what depends on it. -/
theorem countP_placed {before placed : List α} (hnodup : before.Nodup) {a : α} (ha : a ∉ placed) :
    before.countP (· ∉ placed) = before.countP (· ∉ placed ++ [a]) + if a ∈
      before then 1 else 0 := by
  induction before with
  | nil => rfl
  | cons b before ih =>
    obtain ⟨hb, hnodup⟩ := List.nodup_cons.mp hnodup
    rw [List.countP_cons, List.countP_cons, ih hnodup]
    by_cases hab : b = a
    · subst hab
      simp [hb, ha]
    · have hne : ¬a = b := fun h => hab h.symm
      simp [hab, hne, Nat.add_right_comm]

theorem place_sound {s : Placing α} (h : p.Sound s) {a : α} (hready : a ∈ s.ready)
    (hleast : ∀ c ∈ s.ready, p.key a ≤ p.key c) : p.Sound (p.place s a) := by
  have hplaceable := (h.ready_iff a).mp hready
  obtain ⟨hnode, hnew, hbefore⟩ := hplaceable
  have hdependents : (p.nodes.filter fun b => a ∈ p.before b).Nodup := p.nodes_nodup.filter _
  have hplaced : (p.place s a).placed = s.placed ++ [a] := Placing.foldl_meet_placed
  have hzero : ∀ b, (p.before b).countP (· ∉ s.placed ++ [a]) = 0 ↔
      ∀ c ∈ p.before b, c ∈ s.placed ++ [a] := by
    intro b
    rw [List.countP_eq_zero]
    exact forall₂_congr fun c _ => by rw [decide_eq_true_iff, not_not]
  constructor
  · intro b
    rw [hplaced, place, Placing.mem_foldl_meet_ready hdependents, h.ready_nodup.mem_erase_iff,
      h.ready_iff b, List.mem_filter]
    constructor
    · rintro (⟨hba, hb, hbnew, hbbefore⟩ | ⟨⟨hb, hab⟩, hunmet⟩)
      · exact ⟨hb, by simp [hbnew, hba], fun c hc => List.mem_append_left _ (hbbefore c hc)⟩
      · rw [decide_eq_true_iff] at hab
        rw [h.unmet_eq b hb, countP_placed (p.before_nodup b) hnew, if_pos hab, Nat.add_sub_cancel,
          hzero] at hunmet
        -- `b` waits for `a`, so neither is it placed nor is it `a`
        have hbnew : b ∉ s.placed := fun hmem => hnew (h.greedy.mem_before hmem hab)
        have hba : b ≠ a := by
          rintro rfl
          exact hnew (hbefore b hab)
        exact ⟨hb, by simp [hbnew, hba], hunmet⟩
    · rintro ⟨hb, hbnew, hbbefore⟩
      simp only [List.mem_append, List.mem_singleton, not_or] at hbnew
      by_cases hab : a ∈ p.before b
      · right
        rw [h.unmet_eq b hb, countP_placed (p.before_nodup b) hnew, if_pos hab, Nat.add_sub_cancel,
          hzero]
        exact ⟨⟨hb, decide_eq_true hab⟩, hbbefore⟩
      · refine .inl ⟨hbnew.2, hb, hbnew.1, fun c hc => ?_⟩
        have hca : c ≠ a := fun he => hab (he ▸ hc)
        simpa [hca] using hbbefore c hc
  · exact Placing.foldl_meet_ready_nodup (h.ready_nodup.erase a)
  · intro b hb
    have hcount := countP_placed (p.before_nodup b) hnew
    rw [hplaced, place, Placing.foldl_meet_unmet hdependents, h.unmet_eq b hb, hcount]
    by_cases hab : a ∈ p.before b <;> simp [hb, hab]
  · rw [hplaced]
    exact h.greedy.concat
      ⟨⟨hnode, hnew, hbefore⟩, fun c hc => hleast c ((h.ready_iff c).mpr hc)⟩

/-- A run places as many as it is given steps, or all that can be placed. -/
theorem run_sound (fuel : ℕ) {s : Placing α} (h : p.Sound s) :
    p.Sound (p.run fuel s) ∧
      ((p.run fuel s).ready = [] ∨ (p.run fuel s).placed.length = s.placed.length + fuel) := by
  induction fuel generalizing s with
  | zero => exact ⟨h, .inr rfl⟩
  | succ fuel ih =>
    rw [run]
    split
    next hnone => exact ⟨h, .inl (List.argmin_eq_none.mp hnone)⟩
    next a hsome =>
      obtain ⟨hready, hleast⟩ := List.argmin_eq_some_iff.mp hsome |>.imp id And.left
      obtain ⟨hsound, hdone⟩ := ih (place_sound h hready hleast)
      have hplaced : (p.place s a).placed = s.placed ++ [a] := Placing.foldl_meet_placed
      rw [hplaced, List.length_append, List.length_singleton, Nat.add_right_comm,
        Nat.add_assoc] at hdone
      exact ⟨hsound, hdone⟩

/-- Once every place had its step, nothing is left that can be placed. -/
theorem run_finished : p.Sound (p.run p.nodes.length p.start) ∧
    ∀ a, ¬p.Placeable (p.run p.nodes.length p.start).placed a := by
  obtain ⟨hsound, hdone⟩ := run_sound p.nodes.length (start_sound (p := p))
  refine ⟨hsound, fun a ha => ?_⟩
  rcases hdone with hready | hlength
  · have hmem := (hsound.ready_iff a).mpr ha
    rw [hready] at hmem
    cases hmem
  · obtain ⟨hnode, hnew, _⟩ := ha
    have hmore := (List.nodup_cons.mpr ⟨hnew, hsound.greedy.nodup⟩).subperm fun b hb =>
      (List.mem_cons.mp hb).elim (fun he => he ▸ hnode) (hsound.greedy.mem_nodes ·)
    have hle := hmore.length_le
    rw [List.length_cons, hlength] at hle
    simp [start] at hle

/-- An order places everything, each after what it depends on and the least key first. -/
theorem order_ok (h : p.order = .ok l) : p.Greedy l ∧ l.Perm p.nodes := by
  obtain ⟨hsound, _⟩ := run_finished (p := p)
  rw [order] at h
  split at h
  · cases h
  next hlength =>
    obtain rfl := Except.ok.inj h
    have hsub := hsound.greedy.nodup.subperm fun _ ha => hsound.greedy.mem_nodes ha
    exact ⟨hsound.greedy, hsub.perm_of_length_le (Nat.le_of_not_lt hlength)⟩

/-- What could not be placed is there, and each of it depends on more of it. -/
theorem order_error (h : p.order = .error l) :
    l ≠ [] ∧ ∀ a ∈ l, a ∈ p.nodes ∧ ∃ b ∈ p.before a, b ∈ l := by
  obtain ⟨hsound, hnone⟩ := run_finished (p := p)
  rw [order] at h
  split at h
  next hlength =>
    obtain rfl := Except.error.inj h
    set s := p.run p.nodes.length p.start
    -- whatever is not placed waits for something
    have hwaits : ∀ a ∈ p.nodes, a ∉ s.placed → ∃ b ∈ p.before a, b ∉ s.placed := by
      intro a ha hnew
      by_contra hall
      exact hnone a ⟨ha, hnew, fun b hb => by_contra fun hbnew => hall ⟨b, hb, hbnew⟩⟩
    have hmem : ∀ a, a ∈ p.nodes.filter (fun a => decide (0 < s.unmet a)) ↔
        a ∈ p.nodes ∧ a ∉ s.placed := by
      intro a
      rw [List.mem_filter, decide_eq_true_iff]
      refine and_congr_right fun ha => ?_
      rw [hsound.unmet_eq a ha, List.countP_pos_iff]
      constructor
      · rintro ⟨b, hb, hbnew⟩ hplaced
        exact of_decide_eq_true hbnew (hsound.greedy.mem_before hplaced hb)
      · intro hnew
        obtain ⟨b, hb, hbnew⟩ := hwaits a ha hnew
        exact ⟨b, hb, decide_eq_true hbnew⟩
    constructor
    · intro hnil
      have hall : ∀ a ∈ p.nodes, a ∈ s.placed := by
        intro a ha
        by_contra hnew
        have hin := (hmem a).mpr ⟨ha, hnew⟩
        rw [hnil] at hin
        cases hin
      exact absurd (p.nodes_nodup.subperm hall).length_le (Nat.not_le_of_lt hlength)
    · intro a ha
      obtain ⟨hnode, hnew⟩ := (hmem a).mp ha
      obtain ⟨b, hb, hbnew⟩ := hwaits a hnode hnew
      exact ⟨hnode, b, hb, (hmem b).mpr ⟨p.closed a hnode b hb, hbnew⟩⟩
  next => cases h

theorem order_error_nodup (h : p.order = .error l) : l.Nodup := by
  rw [order] at h
  split at h
  next =>
    obtain rfl := Except.error.inj h
    exact p.nodes_nodup.filter _
  next => cases h

/-- There is an order exactly when nothing depends on itself, however indirectly. -/
theorem exists_order_iff :
    (∃ l, p.order = .ok l) ↔ ∀ a, ¬TransGen p.Depends a a := by
  constructor
  · rintro ⟨l, h⟩ a hcycle
    obtain ⟨hgreedy, hperm⟩ := order_ok h
    have hstep : ∀ x y, p.Depends x y → l.idxOf y < l.idxOf x :=
      fun x y hxy => hgreedy.idxOf_lt (hperm.mem_iff.mpr hxy.1) hxy.2
    have hdescends : ∀ x y, TransGen p.Depends x y → l.idxOf y < l.idxOf x := by
      intro x y hxy
      induction hxy with
      | single hxy => exact hstep _ _ hxy
      | tail _ hyz ih => exact (hstep _ _ hyz).trans ih
    exact lt_irrefl _ (hdescends a a hcycle)
  · intro hacyclic
    rcases horder : p.order with l | l
    · obtain ⟨hne, hwaits⟩ := order_error horder
      obtain ⟨a, ha⟩ := List.exists_mem_of_ne_nil l hne
      let waits (x y : {a // a ∈ l}) : Prop := TransGen p.Depends y.1 x.1
      have htrans : IsTrans {a // a ∈ l} waits := ⟨fun _ _ _ h h' => h'.trans h⟩
      have hirrefl : Std.Irrefl waits := ⟨fun x => hacyclic x.1⟩
      have hwf := Finite.wellFounded_of_trans_of_irrefl waits
      -- the last of what waits has nothing left to wait for
      obtain ⟨m, _, hlast⟩ := hwf.has_min Set.univ ⟨⟨a, ha⟩, trivial⟩
      obtain ⟨hnode, b, hb, hbl⟩ := hwaits m.1 m.2
      exact absurd (TransGen.single ⟨hnode, hb⟩) (hlast ⟨b, hbl⟩ trivial)
    · exact ⟨l, rfl⟩

/-- What is placed does not depend on how the places, or what each depends on, are listed. -/
theorem run_placed_unique {q : Precedence α κ} (hnodes : p.nodes.Perm q.nodes)
    (hbefore : ∀ a, (p.before a).Perm (q.before a)) (hkey : p.key = q.key) :
    (p.run p.nodes.length p.start).placed = (q.run q.nodes.length q.start).placed := by
  obtain ⟨hsound, hdone⟩ := run_finished (p := p)
  obtain ⟨hsound', hdone'⟩ := run_finished (p := q)
  have hsame : ∀ done a, q.Placeable done a ↔ p.Placeable done a := by
    intro done a
    rw [Placeable, Placeable, hnodes.mem_iff]
    simp only [(hbefore a).mem_iff]
  have hmoved : p.Greedy (q.run q.nodes.length q.start).placed := by
    refine EachAfter.imp (fun done a h => ?_) hsound'.greedy
    rw [hkey]
    exact ⟨(hsame done a).mp h.1, fun c hc => h.2 c ((hsame done c).mpr hc)⟩
  have hfirst := hsound.greedy.prefix_of_finished hmoved hdone
  have hsecond := hmoved.prefix_of_finished hsound.greedy
    fun a ha => hdone' a ((hsame _ a).mpr ha)
  exact (hsecond.eq_of_length_le hfirst.length_le)

/-- So neither do the order and what is left over. -/
theorem order_unique {q : Precedence α κ} (hnodes : p.nodes.Perm q.nodes)
    (hbefore : ∀ a, (p.before a).Perm (q.before a)) (hkey : p.key = q.key) :
    (∀ l, p.order = .ok l ↔ q.order = .ok l) ∧
      ∀ l, p.order = .error l → ∃ l', q.order = .error l' ∧ l.Perm l' := by
  have hplaced := run_placed_unique hnodes hbefore hkey
  have hunmet : ∀ a ∈ p.nodes, (p.run p.nodes.length p.start).unmet a
      = (q.run q.nodes.length q.start).unmet a := by
    intro a ha
    rw [run_finished.1.unmet_eq a ha, run_finished.1.unmet_eq a (hnodes.mem_iff.mp ha), hplaced]
    exact (hbefore a).countP_eq _
  constructor
  · intro l
    rw [order, order, hplaced, hnodes.length_eq]
    split <;> simp
  · intro l h
    rw [order, hplaced, hnodes.length_eq] at h
    split at h
    next hlength =>
      obtain rfl := Except.error.inj h
      refine ⟨_, by rw [order, if_pos hlength], ?_⟩
      have hcongr := List.filter_congr fun a ha => congrArg (fun n => decide (0 < n)) (hunmet a ha)
      rw [← hnodes.length_eq, hcongr, hnodes.length_eq]
      exact hnodes.filter _
    next => cases h

end Precedence
end ScreenerBot.Library
