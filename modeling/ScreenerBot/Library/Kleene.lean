import Mathlib.Tactic.Cases

/-! Three-valued logic: truth values that may be unknown for a reason, and groups folded over
them. -/
namespace ScreenerBot.Library

variable {ε : Type*}

inductive Truth (ε : Type*) where
  | true
  | false
  | unknown (e : ε)
  deriving DecidableEq, Repr

namespace Truth

def ofBool (value : Bool) : Truth ε := if value then true else false

def negate : Truth ε → Truth ε
  | true => false
  | false => true
  | unknown e => unknown e

/-- What the one value decides, the other decides alike. -/
def Refines (t u : Truth ε) : Prop := ∀ b, t = ofBool b → u = ofBool b

theorem Refines.refl (t : Truth ε) : t.Refines t := fun _ h => h

theorem Refines.of_unknown (e : ε) (u : Truth ε) : (unknown e).Refines u := by
  intro b h
  cases b <;> cases h

theorem ofBool_or_unknown (t : Truth ε) : (∃ b, t = ofBool b) ∨ ∃ e, t = unknown e := by
  cases t with
  | true => exact .inl ⟨Bool.true, rfl⟩
  | false => exact .inl ⟨Bool.false, rfl⟩
  | unknown e => exact .inr ⟨e, rfl⟩

theorem Refines.negate {t u : Truth ε} (h : t.Refines u) : t.negate.Refines u.negate := by
  cases t with
  | true => rw [h Bool.true rfl]; exact Refines.refl _
  | false => rw [h Bool.false rfl]; exact Refines.refl _
  | unknown e => exact Refines.of_unknown e _

end Truth

/-- The value of a group, folded one child at a time; `decisive` decides it on its own. -/
structure GroupFold (ε : Type*) where
  decisive : Bool
  decided : Bool := false
  firstUnknown : Option ε := none

namespace GroupFold

def push (fold : GroupFold ε) (child : Truth ε) : GroupFold ε :=
  match child with
  | .true => if fold.decisive then { fold with decided := true } else fold
  | .false => if fold.decisive then fold else { fold with decided := true }
  | .unknown e => { fold with firstUnknown := fold.firstUnknown.or (some e) }

def finish (fold : GroupFold ε) : Truth ε :=
  if fold.decided then Truth.ofBool fold.decisive
  else match fold.firstUnknown with
    | some e => .unknown e
    | none => Truth.ofBool !fold.decisive

@[simp] theorem push_decisive (fold : GroupFold ε) (t : Truth ε) :
    (fold.push t).decisive = fold.decisive := by
  cases t <;> simp only [push] <;> split <;> rfl

theorem push_firstUnknown_isSome {fold : GroupFold ε} (h : fold.firstUnknown.isSome) (t : Truth ε) :
    (fold.push t).firstUnknown.isSome := by
  cases t with
  | unknown e => simp [push]
  | true | false => simp only [push]; split <;> exact h

theorem finish_of_decided {fold : GroupFold ε} (h : fold.decided) :
    fold.finish = Truth.ofBool fold.decisive := by
  simp [finish, h]

/-- A group with an unknown child is decided by a decisive one only. -/
theorem finish_of_firstUnknown {fold : GroupFold ε} (h : fold.firstUnknown.isSome) :
    fold.finish.Refines (Truth.ofBool fold.decisive) := by
  obtain ⟨e, he⟩ := Option.isSome_iff_exists.mp h
  simp only [finish, he]
  split
  · exact Truth.Refines.refl _
  · exact Truth.Refines.of_unknown e _

/-- The second fold saw children that refine those of the first. -/
structure Refines (f g : GroupFold ε) : Prop where
  decisive : g.decisive = f.decisive
  decided : f.decided → g.decided
  open_ : f.decided = false → f.firstUnknown = none → g.decided = false ∧ g.firstUnknown = none

theorem Refines.start (decisive : Bool) :
    Refines ({ decisive } : GroupFold ε) { decisive } :=
  ⟨rfl, fun h => h, fun h h' => ⟨h, h'⟩⟩

theorem Refines.push {f g : GroupFold ε} (h : f.Refines g) {t u : Truth ε} (htu : t.Refines u) :
    (f.push t).Refines (g.push u) := by
  obtain ⟨hdecisive, hdecided, hopen⟩ := h
  rcases Truth.ofBool_or_unknown t with ⟨b, rfl⟩ | ⟨e, rfl⟩
  · obtain rfl := htu b rfl
    cases b <;> cases hf : f.decisive <;>
      simp only [GroupFold.push, Truth.ofBool, Bool.false_eq_true, if_true, if_false, hf,
        hdecisive] <;>
      constructor <;> simp_all
  · constructor
    · simp [hdecisive]
    · intro hf
      have hg := hdecided hf
      cases u with
      | unknown e => exact hg
      | true | false => simp only [GroupFold.push]; split <;> simp_all
    · intro _ hnone
      simp [GroupFold.push] at hnone

theorem Refines.finish {f g : GroupFold ε} (h : f.Refines g) : f.finish.Refines g.finish := by
  cases hf : f.decided with
  | true =>
    rw [finish_of_decided hf, finish_of_decided (h.decided hf), h.decisive]
    exact Truth.Refines.refl _
  | false =>
    cases hu : f.firstUnknown with
    | some e =>
      simp only [GroupFold.finish, hf, hu, Bool.false_eq_true, if_false]
      exact Truth.Refines.of_unknown e _
    | none =>
      obtain ⟨hg, hgu⟩ := h.open_ hf hu
      simp only [GroupFold.finish, hf, hu, hg, hgu, Bool.false_eq_true, if_false, h.decisive]
      exact Truth.Refines.refl _

end GroupFold

/-- The value without the reason it is unknown for. -/
def Truth.value : Truth ε → Option Bool
  | true => some Bool.true
  | false => some Bool.false
  | unknown _ => none

@[simp] theorem Truth.value_ofBool (b : Bool) : (ofBool b : Truth ε).value = some b := by
  cases b <;> rfl

@[simp] theorem Truth.value_negate (t : Truth ε) : t.negate.value = t.value.map (!·) := by
  cases t <;> rfl

/-- The Kleene value of a group: one `decisive` child decides it, else an unknown one leaves it
open. -/
def groupValue (decisive : Bool) (children : List (Option Bool)) : Option Bool :=
  if some decisive ∈ children then some decisive
  else if none ∈ children then none
  else some !decisive

theorem groupValue_congr {decisive : Bool} {l l' : List (Option Bool)} (h : ∀ v, v ∈ l ↔ v ∈ l') :
    groupValue decisive l = groupValue decisive l' := by
  unfold groupValue
  simp only [h]

namespace GroupFold

/-- The fold has seen children of these values. -/
structure Saw (fold : GroupFold ε) (seen : List (Option Bool)) : Prop where
  decided : fold.decided = true ↔ some fold.decisive ∈ seen
  unknown : fold.firstUnknown.isSome ↔ none ∈ seen

theorem saw_start (decisive : Bool) : ({ decisive } : GroupFold ε).Saw [] := by
  constructor
  · simp
  · simp

theorem Saw.push {fold : GroupFold ε} {seen : List (Option Bool)} (h : fold.Saw seen)
    (t : Truth ε) :
    (fold.push t).Saw (seen ++ [t.value]) := by
  obtain ⟨hdecided, hunknown⟩ := h
  cases t with
  | true | false =>
    constructor
    · cases hdecisive : fold.decisive <;>
        simp_all [GroupFold.push, Truth.value]
    · cases hdecisive : fold.decisive <;>
        simp_all [GroupFold.push, Truth.value]
  | unknown e =>
    constructor
    · simpa [GroupFold.push, Truth.value] using hdecided
    · simp [GroupFold.push, Truth.value]

theorem Saw.finish {fold : GroupFold ε} {seen : List (Option Bool)} (h : fold.Saw seen) :
    fold.finish.value = groupValue fold.decisive seen := by
  obtain ⟨hdecided, hunknown⟩ := h
  unfold GroupFold.finish groupValue
  by_cases hd : fold.decided = true
  · simp [hd, hdecided.mp hd]
  · have hnot := mt hdecided.mpr hd
    cases hu : fold.firstUnknown with
    | some e =>
      have hin := hunknown.mp (by simp [hu])
      simp [hd, hnot, hin, Truth.value]
    | none =>
      have hout : none ∉ seen := fun hin => by simpa [hu] using hunknown.mpr hin
      simp [hd, hnot, hout]

end GroupFold

end ScreenerBot.Library
