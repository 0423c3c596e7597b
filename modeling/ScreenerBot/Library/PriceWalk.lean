import Mathlib.Order.GaloisConnection.Basic
import Mathlib.Tactic

/-!
Spending an input along a curve that is cut into stretches.

Prices are ordered the way the walk moves. On a stretch an input either pays for the whole way
to the end of it, or moves the price a part of the way. A fee comes off every input. The rules
here relate walks of different inputs, whatever the stretches are made of.
-/
namespace ScreenerBot.Library

variable {α : Type*}

/-- What a move along a stretch costs, how far an input goes, and what a move pays out. -/
structure Stretch (α : Type*) where
  cost : α → α → ℕ
  reach : α → ℕ → α
  pay : α → α → ℕ

/-- A fee on inputs: `gross a` is the least input of which `a` is left after the fee. -/
structure Fee where
  gross : ℕ → ℕ
  net : ℕ → ℕ
  least : GaloisConnection gross net
  net_add : ∀ a b, net a + net b ≤ net (a + b)

namespace Fee
variable (fee : Fee)

@[simp] theorem net_zero : fee.net 0 = 0 := by
  have h := fee.net_add 0 0
  rw [Nat.add_zero] at h
  omega

theorem net_mono {a b : ℕ} (h : a ≤ b) : fee.net a ≤ fee.net b := fee.least.monotone_u h

/-- An input below the gross amount leaves less than the amount. -/
theorem net_lt {a r : ℕ} (h : r < fee.gross a) : fee.net r < a := by
  by_contra! hle
  have := (fee.least a r).mpr hle
  omega

/-- Spending in two parts needs no less than spending at once. -/
theorem gross_le_add {a b r : ℕ} (h : a ≤ fee.net r + b) : fee.gross a ≤ r + fee.gross b := by
  apply (fee.least _ _).mpr
  calc a ≤ fee.net r + b := h
    _ ≤ fee.net r + fee.net (fee.gross b) := Nat.add_le_add_left (fee.least.le_u_l b) _
    _ ≤ fee.net (r + fee.gross b) := fee.net_add _ _

end Fee

section Order
variable [Preorder α]

/-- How the roundings of a stretch must agree with each other, between valid prices. -/
structure Stretch.Lawful (valid : α → Prop) (c : Stretch α) : Prop where
  moves : ∀ {p} s, valid p → p ≤ c.reach p s
  stays : ∀ {p t s}, valid p → valid t → p ≤ t → s < c.cost p t → c.reach p s ≤ t
  reach_mono : ∀ {p s s'}, valid p → s ≤ s' → c.reach p s ≤ c.reach p s'
  reach_again : ∀ {p} s s', valid p → c.reach (c.reach p s) s' ≤ c.reach p (s + s')
  cost_rest : ∀ {p t s}, valid p → valid t → p ≤ t → s < c.cost p t →
    c.cost p t ≤ s + c.cost (c.reach p s) t
  pay_mono : ∀ {p q r}, valid p → valid r → p ≤ q → q ≤ r → c.pay p q ≤ c.pay p r
  pay_add : ∀ {p q r}, valid p → valid r → p ≤ q → q ≤ r → c.pay p q + c.pay q r ≤ c.pay p r
  between : ∀ {p q r}, valid p → valid r → p ≤ q → q ≤ r → valid q

/-- The stretches lie one after another, ahead of a price. -/
def Ahead (valid : α → Prop) : α → List (α × Stretch α) → Prop
  | _, [] => True
  | p, (t, c) :: rest => p ≤ t ∧ valid t ∧ c.Lawful valid ∧ Ahead valid t rest

end Order

/-- `Walks fee cap cs p r g q left`: spending `r` from the price `p` along the stretches `cs`
pays out `g`, each stretch no more than `cap`, ends at the price `q` and leaves the stretches
`left` uncrossed. -/
inductive Walks (fee : Fee) (cap : ℕ) :
    List (α × Stretch α) → α → ℕ → ℕ → α → List (α × Stretch α) → Prop
  | spent {cs p r} (hnone : r = 0) : Walks fee cap cs p r 0 p cs
  | crossed {t c rest p r g q left} (hsome : 0 < r) (hpaid : fee.gross (c.cost p t) ≤ r)
      (h : Walks fee cap rest t (r - fee.gross (c.cost p t)) g q left) :
      Walks fee cap ((t, c) :: rest) p r (min (c.pay p t) cap + g) q left
  | moved {t c rest p r} (hshort : r < fee.gross (c.cost p t)) (hsome : 0 < fee.net r) :
      Walks fee cap ((t, c) :: rest) p r (min (c.pay p (c.reach p (fee.net r))) cap)
        (c.reach p (fee.net r)) ((t, c) :: rest)
  | dust {t c rest p r} (hshort : r < fee.gross (c.cost p t)) (hnone : fee.net r = 0) :
      Walks fee cap ((t, c) :: rest) p r 0 p ((t, c) :: rest)

namespace Walks
variable [Preorder α] {valid : α → Prop} {fee : Fee} {cap : ℕ} {cs : List (α × Stretch α)} {p : α}

/-- The price only moves ahead. -/
theorem moves {r g : ℕ} {q : α} {left : List (α × Stretch α)}
    (h : Walks fee cap cs p r g q left) (hp : valid p) (hcs : Ahead valid p cs) : p ≤ q := by
  induction h with
  | spent hnone => exact le_refl _
  | crossed hsome hpaid h ih =>
    obtain ⟨hle, ht, _, hrest⟩ := hcs
    exact hle.trans (ih ht hrest)
  | moved hshort hsome => exact hcs.2.2.1.moves _ hp
  | dust hshort hnone => exact le_refl _

/-- The price ends no further than the stretches do. -/
theorem bounded {r g : ℕ} {q x : α} {left : List (α × Stretch α)}
    (h : Walks fee cap cs p r g q left) (hp : valid p) (hcs : Ahead valid p cs) (hpx : p ≤ x)
    (hx : ∀ s ∈ cs, s.1 ≤ x) : q ≤ x := by
  induction h with
  | spent hnone => exact hpx
  | crossed hsome hpaid h ih =>
    obtain ⟨hle, ht, _, hrest⟩ := hcs
    rw [List.forall_mem_cons] at hx
    exact ih ht hrest hx.1 hx.2
  | moved hshort hsome =>
    obtain ⟨hle, ht, hc, hrest⟩ := hcs
    rw [List.forall_mem_cons] at hx
    exact (hc.stays hp ht hle (fee.net_lt hshort)).trans hx.1
  | dust hshort hnone => exact hpx

/-- More input pays out no less. -/
theorem mono {ra rb ga gb : ℕ} {qa qb : α} {la lb : List (α × Stretch α)}
    (ha : Walks fee cap cs p ra ga qa la) (hb : Walks fee cap cs p rb gb qb lb) (hr : ra ≤ rb)
    (hp : valid p) (hcs : Ahead valid p cs) : ga ≤ gb := by
  induction ha generalizing rb gb qb lb with
  | spent hnone => exact Nat.zero_le _
  | @crossed t c rest p ra g q left hsome hpaid h ih =>
    obtain ⟨hle, ht, hc, hrest⟩ := hcs
    cases hb with
    | spent => omega
    | crossed hsome' hpaid' h' =>
      have := ih h' (by omega) ht hrest
      omega
    | moved hshort hsome' => omega
    | dust hshort hnone => omega
  | @moved t c rest p ra hshort hsome =>
    obtain ⟨hle, ht, hc, hrest⟩ := hcs
    cases hb with
    | spent hnone =>
      obtain rfl : ra = 0 := by omega
      simp at hsome
    | crossed hsome' hpaid' h' =>
      have := hc.pay_mono hp ht (hc.moves _ hp) (hc.stays hp ht hle (fee.net_lt hshort))
      omega
    | moved hshort' hsome' =>
      have := hc.pay_mono hp
        (hc.between hp ht (hc.moves _ hp) (hc.stays hp ht hle (fee.net_lt hshort')))
        (hc.moves _ hp) (hc.reach_mono hp (fee.net_mono hr))
      omega
    | dust hshort' hnone =>
      have := fee.net_mono hr
      omega
  | dust hshort hnone => exact Nat.zero_le _

/-- Spending an input in two parts pays out no more than spending it at once, up to the cap. -/
theorem split {ra rc ga gb gc : ℕ} {qa qb qc : α} {la lb lc : List (α × Stretch α)}
    (ha : Walks fee cap cs p ra ga qa la) (hc : Walks fee cap la qa rc gc qc lc)
    (hb : Walks fee cap cs p (ra + rc) gb qb lb) (hp : valid p) (hcs : Ahead valid p cs) :
    min (ga + gc) cap ≤ gb := by
  induction ha generalizing gb qb lb with
  | spent hnone =>
    have := hc.mono hb (by omega) hp hcs
    omega
  | @crossed t c rest p ra g q left hsome hpaid h ih =>
    obtain ⟨hle, ht, _, hrest⟩ := hcs
    cases hb with
    | spent => omega
    | crossed hsome' hpaid' h' =>
      have hremaining : ra + rc - fee.gross (c.cost p t) = ra - fee.gross (c.cost p t) + rc := by
        omega
      rw [hremaining] at h'
      have := ih hc h' ht hrest
      omega
    | moved hshort hsome' => omega
    | dust hshort hnone => omega
  | @moved t c rest p ra hshort hsome =>
    have hmono := (Walks.moved hshort hsome : Walks fee cap _ p ra _ _ _).mono hb (by omega) hp hcs
    obtain ⟨hle, ht, hlaw, hrest⟩ := hcs
    have hstays := hlaw.stays hp ht hle (fee.net_lt hshort)
    have hmoves := hlaw.moves (fee.net ra) hp
    have hmid := hlaw.between hp ht hmoves hstays
    generalize hq : c.reach p (fee.net ra) = q at *
    cases hc with
    | spent => omega
    | @crossed _ _ _ _ _ gc' _ _ hsome' hpaid' h' =>
      -- What the first part has moved, the second no longer has to pay for.
      have hrest' := hlaw.cost_rest hp ht hle (fee.net_lt hshort)
      rw [hq] at hrest'
      have hgross := fee.gross_le_add hrest'
      have hpay := hlaw.pay_add hp ht hmoves hstays
      cases hb with
      | spent => omega
      | crossed hsome'' hpaid'' h'' =>
        have := h'.mono h'' (by omega) ht hrest
        omega
      | moved hshort'' hsome'' => omega
      | dust hshort'' hnone'' => omega
    | moved hshort' hsome' =>
      have hstays' := hlaw.stays hmid ht hstays (fee.net_lt hshort')
      have hmoves' := hlaw.moves (fee.net rc) hmid
      have hmid' := hlaw.between hmid ht hmoves' hstays'
      have hpay := hlaw.pay_add hp hmid' hmoves hmoves'
      cases hb with
      | spent hzero =>
        have := fee.net_mono (show ra ≤ 0 by omega)
        rw [fee.net_zero] at this
        omega
      | crossed hsome'' hpaid'' h'' =>
        have := hlaw.pay_mono hp ht (hmoves.trans hmoves') hstays'
        omega
      | moved hshort'' hsome'' =>
        have hfurther : c.reach q (fee.net rc) ≤ c.reach p (fee.net (ra + rc)) := by
          rw [← hq]
          exact (hlaw.reach_again _ _ hp).trans (hlaw.reach_mono hp (fee.net_add ra rc))
        have hstays'' := hlaw.stays hp ht hle (fee.net_lt hshort'')
        have hvalid := hlaw.between hp ht (hlaw.moves _ hp) hstays''
        have := hlaw.pay_mono hp hvalid (hmoves.trans hmoves') hfurther
        omega
      | dust hshort'' hnone'' =>
        have := fee.net_mono (show ra ≤ ra + rc by omega)
        omega
    | dust hshort' hnone' => omega
  | dust hshort hnone =>
    have := hc.mono hb (by omega) hp hcs
    omega

end Walks

/-- A stretch without rounding: the cost of a move, and what an input pays out. -/
structure ExactStretch (α : Type*) where
  cost : α → α → ℚ
  gives : α → ℚ → ℚ

/-- What an input pays out along exact stretches; past the last of them, nothing. -/
def exactOut : List (α × ExactStretch α) → α → ℚ → ℚ
  | [], _, _ => 0
  | (t, e) :: rest, p, x =>
    if x < e.cost p t then e.gives p x
    else e.gives p (e.cost p t) + exactOut rest t (x - e.cost p t)

/-- What reaching the end of the first `k` stretches costs exactly. -/
def exactCost : List (α × ExactStretch α) → α → ℕ → ℚ
  | [], _, _ => 0
  | _ :: _, _, 0 => 0
  | (t, e) :: rest, p, k + 1 => e.cost p t + exactCost rest t k

@[simp] theorem exactCost_zero (cs : List (α × ExactStretch α)) (p : α) : exactCost cs p 0 = 0 := by
  cases cs with
  | nil => rfl
  | cons s rest => rfl

section Exact
variable [Preorder α]

/-- A stretch rounds an exact one the pool's way: costs up, payments down. -/
structure Stretch.Rounds (valid : α → Prop) (c : Stretch α) (e : ExactStretch α) : Prop where
  cost_le : ∀ {p t}, valid p → valid t → p ≤ t → e.cost p t ≤ c.cost p t
  cost_tight : ∀ {p t s}, valid p → valid t → p ≤ t → s < c.cost p t → (s : ℚ) ≤ e.cost p t
  pay_cross : ∀ {p t}, valid p → valid t → p ≤ t → (c.pay p t : ℚ) ≤ e.gives p (e.cost p t)
  pay_reach : ∀ {p t s}, valid p → valid t → p ≤ t → s < c.cost p t →
    (c.pay p (c.reach p s) : ℚ) ≤ e.gives p s
  cost_nonneg : ∀ {p t}, valid p → valid t → p ≤ t → 0 ≤ e.cost p t
  gives_nonneg : ∀ {p x}, valid p → 0 ≤ x → 0 ≤ e.gives p x
  gives_mono : ∀ {p x y}, valid p → 0 ≤ x → x ≤ y → e.gives p x ≤ e.gives p y

/-- Stretches lie ahead of a price beside the exact ones they round. -/
def RoundsAll (valid : α → Prop) : α → List (α × Stretch α × ExactStretch α) → Prop
  | _, [] => True
  | p, (t, c, e) :: rest => p ≤ t ∧ valid t ∧ c.Rounds valid e ∧ RoundsAll valid t rest

/-- The rounded stretches of a paired list. -/
abbrev rounded (cs : List (α × Stretch α × ExactStretch α)) : List (α × Stretch α) :=
  cs.map fun s => (s.1, s.2.1)

/-- The exact stretches of a paired list. -/
abbrev exact (cs : List (α × Stretch α × ExactStretch α)) : List (α × ExactStretch α) :=
  cs.map fun s => (s.1, s.2.2)

variable {valid : α → Prop}

theorem exactOut_nonneg : ∀ {cs : List (α × Stretch α × ExactStretch α)} {p : α} {x : ℚ},
    valid p → RoundsAll valid p cs → 0 ≤ x → 0 ≤ exactOut (exact cs) p x := by
  intro cs
  induction cs with
  | nil => intro p x _ _ _; exact le_refl 0
  | cons s rest ih =>
    intro p x hp hcs hx
    obtain ⟨hle, ht, hround, hrest⟩ := hcs
    have hcost := hround.cost_nonneg hp ht hle
    simp only [exact, List.map_cons, exactOut]
    split_ifs with hpart
    · exact hround.gives_nonneg hp hx
    · have := hround.gives_nonneg hp hcost
      have := ih ht hrest (show 0 ≤ x - s.2.2.cost p s.1 by linarith)
      positivity

/-- The rounded walk pays out no more than the exact curve does, for any exact input that the
fee leaves at least. -/
theorem Walks.le_exactOut {fee : Fee} {cap : ℕ} {φ : ℚ} (hnet : ∀ r, (fee.net r : ℚ) ≤ φ * r) :
    ∀ {cs : List (α × Stretch α × ExactStretch α)} {p : α} {r g : ℕ} {q : α}
      {left : List (α × Stretch α)} {x : ℚ},
      Walks fee cap (rounded cs) p r g q left → valid p → RoundsAll valid p cs →
      φ * r ≤ x → (g : ℚ) ≤ exactOut (exact cs) p x := by
  have hφ : 0 ≤ φ := by
    have := hnet 1
    have : (0 : ℚ) ≤ fee.net 1 := Nat.cast_nonneg _
    norm_num at *
    linarith
  intro cs
  induction cs with
  | nil =>
    intro p r g q left x h _ _ _
    cases h with
    | spent hnone => simp [exactOut]
  | cons s rest ih =>
    intro p r g q left x h hp hcs hx
    have hr : (0 : ℚ) ≤ φ * r := by positivity
    have hnonneg := exactOut_nonneg hp hcs (hr.trans hx)
    obtain ⟨t, c, e⟩ := s
    obtain ⟨hle, ht, hround, hrest⟩ := hcs
    have hcost := hround.cost_le hp ht hle
    cases h with
    | spent hnone => simpa using hnonneg
    | @crossed _ _ _ _ _ g' _ _ hsome hpaid h =>
      have hunit : (c.cost p t : ℚ) ≤ φ * fee.gross (c.cost p t) :=
        le_trans (by exact_mod_cast fee.least.le_u_l _) (hnet _)
      have hgross : φ * (fee.gross (c.cost p t) : ℚ) ≤ φ * r :=
        mul_le_mul_of_nonneg_left (by exact_mod_cast hpaid) hφ
      have hcross : ¬ x < e.cost p t := by linarith
      have hpay := hround.pay_cross hp ht hle
      have hrec := ih h ht hrest (x := x - e.cost p t) (by push_cast [hpaid]; linarith)
      have hcap : ((min (c.pay p t) cap : ℕ) : ℚ) ≤ c.pay p t := by
        exact_mod_cast min_le_left _ _
      simp only [exact, List.map_cons, exactOut, if_neg hcross]
      push_cast at hcap ⊢
      linarith
    | moved hshort hsome =>
      have hlt := fee.net_lt hshort
      have hpay := hround.pay_reach hp ht hle hlt
      have hspent : (fee.net r : ℚ) ≤ x := (hnet r).trans hx
      have hcap : ((min (c.pay p (c.reach p (fee.net r))) cap : ℕ) : ℚ) ≤
          c.pay p (c.reach p (fee.net r)) := by
        exact_mod_cast min_le_left _ _
      have hzero : (0 : ℚ) ≤ fee.net r := Nat.cast_nonneg _
      simp only [exact, List.map_cons, exactOut]
      split_ifs with hpart
      · have := hround.gives_mono hp hzero hspent
        linarith
      · have := hround.gives_mono hp hzero (hround.cost_tight hp ht hle hlt)
        have := exactOut_nonneg ht hrest (show 0 ≤ x - e.cost p t by linarith)
        linarith
    | dust hshort hnone => simpa using hnonneg

end Exact

end ScreenerBot.Library
