import ScreenerBot.Sync.PlanInvariant

/-! When the rows that carry the keys a plan writes have given them up before. -/
namespace ScreenerBot.Positions
open Ledger Library

namespace SyncInput

variable {inp : SyncInput}

/-- True when `row` is moved to its home round before round `index` is planned. -/
def movesBefore (inp : SyncInput) (row : Position) (index : ℕ) : Bool :=
  !isBusy row inp.busyMints && (inp.home row).any fun home => decide (home < index)

/-- A closed round whose key is carried by a row at home elsewhere rewrites an adopted row only
after that row has moved, and imports a row only if that row moves at all. -/
def leavesKey (inp : SyncInput) (st : Planning) (indexed : LedgerRound × ℕ) : Bool :=
  indexed.1.isOpen || (inp.byRoundKey indexed.1.roundKey).all fun holder =>
    !inp.elsewhere holder indexed.2 ||
      match inp.adoptRow indexed.1 st.claimed indexed.2 with
      | some row => (inp.rewriteCurrent row indexed.1 indexed.2).isNone ||
          inp.movesBefore holder indexed.2
      | none => inp.holdsBotLeg indexed.1 || inp.busyMints.contains indexed.1.mint ||
          !isBusy holder inp.busyMints

theorem leavesKey_adopted {st : Planning} {indexed : LedgerRound × ℕ}
    {holder row position : Position}
    (h : inp.leavesKey st indexed = true) (hclosed : indexed.1.isOpen = false)
    (hholder : inp.byRoundKey indexed.1.roundKey = some holder)
    (helsewhere : inp.elsewhere holder indexed.2 = true)
    (hadopt : inp.adoptRow indexed.1 st.claimed indexed.2 = some row)
    (hposition : inp.rewriteCurrent row indexed.1 indexed.2 = some position) :
    inp.movesBefore holder indexed.2 = true := by
  unfold leavesKey at h
  rw [hclosed, hholder, Option.all_some, helsewhere, hadopt] at h
  simpa [hposition] using h

theorem leavesKey_imported {st : Planning} {indexed : LedgerRound × ℕ} {holder : Position}
    (h : inp.leavesKey st indexed = true) (hclosed : indexed.1.isOpen = false)
    (hholder : inp.byRoundKey indexed.1.roundKey = some holder)
    (helsewhere : inp.elsewhere holder indexed.2 = true)
    (hadopt : inp.adoptRow indexed.1 st.claimed indexed.2 = none)
    (hlegs : inp.holdsBotLeg indexed.1 = false)
    (hbusy : inp.busyMints.contains indexed.1.mint = false) :
    isBusy holder inp.busyMints = false := by
  unfold leavesKey at h
  rw [hclosed, hholder, Option.all_some, helsewhere, hadopt] at h
  dsimp only at h
  rw [hlegs, hbusy] at h
  simpa using h

/-- An open bot row at home at a round whose key it does not carry. -/
def Astray (inp : SyncInput) (row : Position) : Prop :=
  ∃ p ∈ inp.rounds.zipIdx, inp.home row = some p.2 ∧ row.roundKey ≠ some p.1.roundKey

theorem astray_of_elsewhere (hvalid : inp.Sound) {indexed : LedgerRound × ℕ}
    (hindexed : indexed ∈ inp.rounds.zipIdx) {row : Position}
    (hkey : row.roundKey = some indexed.1.roundKey)
    (helsewhere : inp.elsewhere row indexed.2 = true) : inp.Astray row := by
  obtain ⟨home, hhome, hne⟩ := elsewhere_iff.mp helsewhere
  obtain ⟨-, -, round, hround, -⟩ := home_ok hhome
  refine ⟨(round, home), hround, hhome, fun hsame => hne ?_⟩
  rw [hkey] at hsame
  exact congrArg Prod.snd (hvalid.eq_of_key hround hindexed (Option.some.inj hsame).symm)

/-- Another row that carries the key an update writes gives it up before: a release takes it, or
an update before moves the row to its home. -/
def KeyFreed (inp : SyncInput) (releases : List RoundKeyRelease) (before : List PlannedUpdate)
    (update : PlannedUpdate) : Prop :=
  ∀ row ∈ inp.existing, row.roundKey = some update.round.roundKey → row.id ≠ update.position.id →
    (row.exitTime.isSome = true ∧
      ∃ id, row.id = some id ∧ ⟨id, update.round.roundKey⟩ ∈ releases) ∨
    (inp.Astray row ∧ ∃ earlier ∈ before, earlier.position.id = row.id)

/-- The rows that carry the keys of the writes planned so far give them up in time. -/
structure KeysFreed (inp : SyncInput) (plan : SyncPlan) : Prop where
  updates : EachAfter (inp.KeyFreed plan.roundKeyReleases) plan.updates
  inserts : ∀ imported ∈ plan.inserts, ∀ row ∈ inp.existing, row.roundKey = imported.roundKey →
    inp.Astray row ∧ ((∃ update ∈ plan.updates, update.position.id = row.id) ∨
      isBusy row inp.busyMints = false)

section Step

variable {done rest : List (LedgerRound × ℕ)} {indexed : LedgerRound × ℕ} {st : Planning}

/-- A row keyed by an open round but at home elsewhere is moved before that round is written. -/
theorem Planned.moved_of_open (h : inp.Planned done st) (hvalid : inp.Sound)
    (hsplit : inp.rounds.zipIdx = done ++ indexed :: rest) {row : Position}
    (hrow : row ∈ inp.existing) (hkey : row.roundKey = some indexed.1.roundKey)
    (helsewhere : inp.elsewhere row indexed.2 = true) (hopen : indexed.1.isOpen = true)
    (hshut : inp.openRowOf st.plan indexed.1.mint = none) :
    ∃ update ∈ st.plan.updates, update.position.id = row.id := by
  obtain ⟨home, hhome, -⟩ := elsewhere_iff.mp helsewhere
  have hnext : indexed ∈ inp.rounds.zipIdx := by
    rw [hsplit]
    exact List.mem_append_right _ List.mem_cons_self
  obtain ⟨update, hupdate, hid, -⟩ := h.closedFirst hvalid hsplit hopen hshut row hrow
    (home_ok hhome).2.1 (hvalid.keyMints row hrow indexed.1 (mem_rounds hnext) hkey)
  exact ⟨update, hupdate, hid⟩

/-- A row that moves before a round is moved by the updates planned before it. -/
theorem Planned.moved_of_before (h : inp.Planned done st) (hvalid : inp.Sound)
    (hsplit : inp.rounds.zipIdx = done ++ indexed :: rest) {row : Position}
    (hrow : row ∈ inp.existing) (hkey : row.roundKey = some indexed.1.roundKey)
    (hbefore : inp.movesBefore row indexed.2 = true) :
    ∃ update ∈ st.plan.updates, update.position.id = row.id := by
  unfold movesBefore at hbefore
  rw [Bool.and_eq_true, Bool.not_eq_true', Option.any_eq_true] at hbefore
  obtain ⟨hfree, home, hhome, hlt⟩ := hbefore
  have hlt := of_decide_eq_true hlt
  obtain ⟨-, -, round, hround, -⟩ := home_ok hhome
  have hdone : (round, home) ∈ done := mem_done hsplit hround hlt
  refine h.homed row hrow (round, home) hdone hhome (fun hsame => ?_) hfree
  rw [hkey] at hsame
  exact not_done hvalid hsplit hdone (Option.some.inj hsame).symm

theorem KeysFreed.step (h : inp.KeysFreed st.plan) (hplanned : inp.Planned done st)
    (hvalid : inp.Sound) (hsplit : inp.rounds.zipIdx = done ++ indexed :: rest)
    (hleaves : inp.leavesKey st indexed = true) :
      inp.KeysFreed (inp.planRound st indexed).plan := by
  have hnext : indexed ∈ inp.rounds.zipIdx := by
    rw [hsplit]
    exact List.mem_append_right _ List.mem_cons_self
  have hstep := planRound_step hvalid hsplit hplanned.claims
  generalize inp.planRound st indexed = after at hstep
  cases hstep with
  | leave claimed hclaims hhome => exact h
  | insert claimed hclaims hhome hheld hadopt hlegs hbusy hshut =>
    refine ⟨h.updates, fun imported himported row hrow hkey => ?_⟩
    rcases List.mem_append.mp himported with himported | himported
    · exact h.inserts imported himported row hrow hkey
    obtain rfl := List.mem_singleton.mp himported
    have helsewhere := hheld row hrow hkey
    refine ⟨astray_of_elsewhere hvalid hnext hkey helsewhere, ?_⟩
    cases hopen : indexed.1.isOpen with
    | true => exact .inl (hplanned.moved_of_open hvalid hsplit hrow hkey helsewhere hopen
        (hshut hopen))
    | false =>
      rw [hopen] at hlegs
      exact .inr (leavesKey_imported hleaves hopen (hvalid.byRoundKey_eq hrow hkey) helsewhere
        hadopt (hlegs.resolve_left Bool.false_ne_true) hbusy)
  | rewrite claimed current position release hclaims htakes hfree hposition hhome hshut hheld =>
    refine ⟨?updates, fun imported himported row hrow hkey => ?inserts⟩
    case inserts =>
      obtain ⟨hastray, hmoves⟩ := h.inserts imported himported row hrow hkey
      refine ⟨hastray, hmoves.imp_left ?_⟩
      rintro ⟨update, hupdate, hid⟩
      exact ⟨update, List.mem_append_left _ hupdate, hid⟩
    case updates =>
      refine EachAfter.concat (h.updates.imp fun before update hfreed => ?_) ?_
      · intro row hrow hkey hne
        refine (hfreed row hrow hkey hne).imp_left ?_
        rintro ⟨hclosed, id, hid, hrelease⟩
        exact ⟨hclosed, id, hid, List.mem_append_left _ hrelease⟩
      · intro row hrow hkey hne
        have hne : row ≠ current := fun hsame => hne (by
          rw [hsame]
          exact (rewriteRow_rewritten hposition).id.symm)
        rcases hheld row hrow hkey hne with ⟨hclosed, rfl⟩ | ⟨helsewhere, hclosed, hadopt⟩
        · obtain ⟨id, hid⟩ := Option.isSome_iff_exists.mp (hvalid.saved row hrow)
          refine .inl ⟨hclosed, id, hid, List.mem_append_right _ ?_⟩
          rw [hid]
          exact List.mem_singleton.mpr rfl
        · refine .inr ⟨astray_of_elsewhere hvalid hnext hkey helsewhere, ?_⟩
          cases hopen : indexed.1.isOpen with
          | true =>
            exact hplanned.moved_of_open hvalid hsplit hrow hkey helsewhere hopen
              (hshut hclosed hopen)
          | false =>
            exact hplanned.moved_of_before hvalid hsplit hrow hkey (leavesKey_adopted hleaves hopen
              (hvalid.byRoundKey_eq hrow hkey) helsewhere hadopt hposition)

end Step

theorem keysFreed_run (hvalid : inp.Sound) {done rest : List (LedgerRound × ℕ)}
    (hsplit : inp.rounds.zipIdx = done ++ rest)
    (hleaves : ∀ step ∈ visited inp.planRound startPlanning done,
      inp.leavesKey step.1 step.2 = true) :
    inp.KeysFreed (done.foldl inp.planRound startPlanning).plan := by
  induction done using List.reverseRecOn generalizing rest with
  | nil => exact ⟨.nil, fun _ himported => absurd himported List.not_mem_nil⟩
  | append_singleton done indexed ih =>
    rw [visited_append] at hleaves
    rw [List.append_assoc, List.singleton_append] at hsplit
    rw [List.foldl_append, List.foldl_cons, List.foldl_nil]
    refine (ih hsplit fun step hstep => hleaves step (List.mem_append_left _ hstep)).step
      (planned_run hvalid hsplit) hvalid hsplit ?_
    exact hleaves (done.foldl inp.planRound startPlanning, indexed)
      (List.mem_append_right _ List.mem_cons_self)

end SyncInput

end ScreenerBot.Positions
