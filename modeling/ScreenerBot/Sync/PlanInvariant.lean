import ScreenerBot.Sync.RoundStep
import ScreenerBot.Library.Lists

/-! What the rounds planned so far have written, whatever the rounds and rows of the wallet. -/
namespace ScreenerBot.Positions
open Ledger Library

/-- `update` rewrites `row` for a round that may take it. -/
structure SyncInput.Rewrites (inp : SyncInput) (update : PlannedUpdate) (row : Position)
    (indexed : LedgerRound × ℕ) : Prop where
  takes : inp.Takes row indexed
  position : inp.rewriteCurrent row indexed.1 indexed.2 = some update.position
  round : update.round = indexed.1
  earlier : update.earlier = inp.earlier row indexed.2
  metadata : update.meta' = (inp.metadata indexed.1.mint).getD .empty

namespace SyncInput

variable {inp : SyncInput}

theorem Rewrites.rewritten {update : PlannedUpdate} {row : Position}
    {indexed : LedgerRound × ℕ} (h : inp.Rewrites update row indexed) :
    Rewritten indexed.1 row update.position :=
  rewriteRow_rewritten h.position

theorem Rewrites.mint {update : PlannedUpdate} {row : Position} {indexed : LedgerRound × ℕ}
    (h : inp.Rewrites update row indexed) : update.position.mint = row.mint :=
  (h.rewritten.mint h.takes.mint).trans h.takes.mint.symm

theorem Rewrites.free {update : PlannedUpdate} {row : Position} {indexed : LedgerRound × ℕ}
    (h : inp.Rewrites update row indexed) (hbot : row.isWalletDerived = false) :
    isBusy row inp.busyMints = false := by
  by_contra hbusy
  rw [Bool.not_eq_false] at hbusy
  have hkept := h.position
  unfold rewriteCurrent at hkept
  rw [rewriteRow_of_busy hbot hbusy] at hkept
  cases hkept

theorem planned_cases {plan : SyncPlan} {row : Position} :
    (planned plan row = row ∧ ∀ update ∈ plan.updates, row.id.isSome = true →
      update.position.id ≠ row.id) ∨
    ∃ update ∈ plan.updates, update.position.id = row.id ∧ planned plan row = update.position := by
  unfold planned
  cases hfound : plan.updates.reverse.find? fun update =>
      row.id.isSome && update.position.id == row.id with
  | none =>
    refine .inl ⟨rfl, fun update hupdate hid => ?_⟩
    have := List.find?_eq_none.mp hfound update (List.mem_reverse.mpr hupdate)
    simpa [hid] using this
  | some update =>
    have hmatch := List.find?_some hfound
    rw [Bool.and_eq_true, beq_iff_eq] at hmatch
    exact .inr ⟨update, List.mem_reverse.mp (List.mem_of_find?_eq_some hfound), hmatch.2, rfl⟩

/-- No row of a mint without an open row is open once the plan applies. -/
theorem openRowOf_none {plan : SyncPlan} {mint : String} (h : inp.openRowOf plan mint = none) :
    (∀ row ∈ inp.existing, row.mint = mint → (planned plan row).exitTime ≠ none) ∧
      ∀ row ∈ plan.inserts, row.mint = mint → row.exitTime ≠ none := by
  have hnone := List.find?_eq_none.mp h
  constructor
  · intro row hrow hmint hopen
    refine hnone (planned plan row) (List.mem_append_left _ (List.mem_map_of_mem ?_)) ?_
    · exact List.mem_filter.mpr ⟨hrow, beq_iff_eq.mpr hmint⟩
    · rw [hopen]
      rfl
  · intro row hrow hmint hopen
    refine hnone row (List.mem_append_right _ (List.mem_filter.mpr ⟨hrow, ?_⟩)) ?_
    · exact beq_iff_eq.mpr hmint
    · rw [hopen]
      rfl

/-- The open rows of `mint` are closed by updates for closed rounds among `updates`. -/
def ClosedFirst (inp : SyncInput) (updates : List PlannedUpdate) (mint : String) : Prop :=
  ∀ row ∈ inp.existing, row.exitTime = none → row.mint = mint →
    ∃ update ∈ updates, update.position.id = row.id ∧ update.round.isOpen = false

/-- An update that may open a closed row comes after the open row of its mint is closed. -/
def OpensAfter (inp : SyncInput) (before : List PlannedUpdate) (update : PlannedUpdate) : Prop :=
  ∀ row ∈ inp.existing, row.id = update.position.id → row.exitTime.isSome = true →
    update.round.isOpen = true → inp.ClosedFirst before row.mint

/-- What planning the rounds `done` has written. -/
structure Planned (inp : SyncInput) (done : List (LedgerRound × ℕ)) (st : Planning) : Prop where
  claims : inp.ClaimedBy done st.claimed
  updates : ∀ update ∈ st.plan.updates, ∃ row, ∃ p ∈ done, inp.Rewrites update row p ∧
    ∃ id ∈ st.claimed, row.id = some id
  inserts : ∀ row ∈ st.plan.inserts, ∃ p ∈ done, row = inp.importedRow p.1
  /-- A row is rewritten once. -/
  once : (st.plan.updates.map (·.position.id)).Nodup
  /-- A round writes one row. -/
  keys : (st.plan.updates.map (fun update => some update.round.roundKey) ++
    st.plan.inserts.map (·.roundKey)).Nodup
  opensAfter : EachAfter inp.OpensAfter st.plan.updates
  importsAfter : ∀ row ∈ st.plan.inserts, row.exitTime = none →
    inp.ClosedFirst st.plan.updates row.mint
  /-- A row moves to the round it is at home at, unless the trader has work in flight on it. -/
  homed : ∀ row ∈ inp.existing, ∀ p ∈ done, inp.home row = some p.2 →
    row.roundKey ≠ some p.1.roundKey → isBusy row inp.busyMints = false →
      ∃ update ∈ st.plan.updates, update.position.id = row.id

theorem ClosedFirst.mono {before after : List PlannedUpdate} {mint : String}
    (h : inp.ClosedFirst before mint) (hsub : before ⊆ after) : inp.ClosedFirst after mint := by
  intro row hrow hopen hmint
  obtain ⟨update, hupdate, hclosed⟩ := h row hrow hopen hmint
  exact ⟨update, hsub hupdate, hclosed⟩

theorem planned_start : inp.Planned [] startPlanning where
  claims := fun _ hid => absurd hid List.not_mem_nil
  updates := fun _ hupdate => absurd hupdate List.not_mem_nil
  inserts := fun _ hrow => absurd hrow List.not_mem_nil
  once := List.nodup_nil
  keys := List.nodup_nil
  opensAfter := .nil
  importsAfter := fun _ hrow => absurd hrow List.not_mem_nil
  homed := fun _ _ _ hp => absurd hp List.not_mem_nil

section Step

variable {done rest : List (LedgerRound × ℕ)} {indexed : LedgerRound × ℕ} {st : Planning}

theorem not_done (hvalid : inp.Sound) (hsplit : inp.rounds.zipIdx = done ++ indexed :: rest)
    {p : LedgerRound × ℕ} (hp : p ∈ done) : p.1.roundKey ≠ indexed.1.roundKey := by
  intro hkey
  have hlt := (zipIdx_split hsplit).1 p hp
  have hsame : p = indexed := by
    refine hvalid.eq_of_key ?_ ?_ hkey <;> rw [hsplit]
    · exact List.mem_append_left _ hp
    · exact List.mem_append_right _ List.mem_cons_self
  rw [hsame] at hlt
  exact lt_irrefl _ hlt

theorem done_mem (hsplit : inp.rounds.zipIdx = done ++ rest) {p : LedgerRound × ℕ}
    (hp : p ∈ done) : p ∈ inp.rounds.zipIdx := by
  rw [hsplit]
  exact List.mem_append_left _ hp

/-- The writes planned so far carry the keys of rounds before the next one. -/
theorem Planned.key_fresh (h : inp.Planned done st) (hvalid : inp.Sound)
    (hsplit : inp.rounds.zipIdx = done ++ indexed :: rest) :
    some indexed.1.roundKey ∉ st.plan.updates.map (fun update => some update.round.roundKey) ++
      st.plan.inserts.map (·.roundKey) := by
  intro hmem
  rcases List.mem_append.mp hmem with hmem | hmem
  · obtain ⟨update, hupdate, hkey⟩ := List.mem_map.mp hmem
    obtain ⟨row, p, hp, hrewrites, -⟩ := h.updates update hupdate
    rw [hrewrites.round] at hkey
    exact not_done hvalid hsplit hp (Option.some.inj hkey)
  · obtain ⟨row, hrow, hkey⟩ := List.mem_map.mp hmem
    obtain ⟨p, hp, rfl⟩ := h.inserts row hrow
    exact not_done hvalid hsplit hp (Option.some.inj hkey)

/-- A row no round has claimed is not rewritten yet. -/
theorem Planned.unwritten (h : inp.Planned done st) {id : ℤ} (hfree : id ∉ st.claimed) :
    ∀ update ∈ st.plan.updates, update.position.id ≠ some id := by
  intro update hupdate hid
  obtain ⟨row, p, -, hrewrites, other, hclaimed, hother⟩ := h.updates update hupdate
  rw [hrewrites.rewritten.id, hother] at hid
  cases hid
  exact hfree hclaimed

/-- Where an open round finds no open row of its mint, closed rounds have closed the rows that
were open. -/
theorem Planned.closedFirst (h : inp.Planned done st) (hvalid : inp.Sound)
    (hsplit : inp.rounds.zipIdx = done ++ indexed :: rest) (hopen : indexed.1.isOpen = true)
    (hshut : inp.openRowOf st.plan indexed.1.mint = none) :
    inp.ClosedFirst st.plan.updates indexed.1.mint := by
  intro row hrow hrowOpen hmint
  have hplanned := (openRowOf_none hshut).1 row hrow hmint
  rcases @planned_cases st.plan row with ⟨hsame, -⟩ | ⟨update, hupdate, hid, -⟩
  · rw [hsame] at hplanned
    exact absurd hrowOpen hplanned
  refine ⟨update, hupdate, hid, ?_⟩
  obtain ⟨other, p, hp, hrewrites, -⟩ := h.updates update hupdate
  have hother := hvalid.idUnique hrewrites.takes.stored hrow
    (hrewrites.rewritten.id.symm.trans hid)
  -- another open round of the mint would be this one
  rw [← Bool.not_eq_true, hrewrites.round]
  intro hroundOpen
  have hnext : indexed ∈ inp.rounds.zipIdx := by
    rw [hsplit]
    exact List.mem_append_right _ List.mem_cons_self
  have hsame := hvalid.openRounds p.1 (mem_rounds (done_mem hsplit hp)) indexed.1
    (mem_rounds hnext) hroundOpen hopen (by rw [← hrewrites.takes.mint, hother, hmint])
  exact not_done hvalid hsplit hp (by rw [hsame])

theorem Planned.updates_grow (h : inp.Planned done st) {claimed : List ℤ}
    (hclaimed : st.claimed ⊆ claimed) :
    ∀ update ∈ st.plan.updates, ∃ row, ∃ p ∈ done ++ [indexed], inp.Rewrites update row p ∧
      ∃ id ∈ claimed, row.id = some id := by
  intro update hupdate
  obtain ⟨row, p, hp, hrewrites, id, hid, hrow⟩ := h.updates update hupdate
  exact ⟨row, p, List.mem_append_left _ hp, hrewrites, id, hclaimed hid, hrow⟩

theorem Planned.inserts_grow (h : inp.Planned done st) :
    ∀ row ∈ st.plan.inserts, ∃ p ∈ done ++ [indexed], row = inp.importedRow p.1 := by
  intro row hrow
  obtain ⟨p, hp, he⟩ := h.inserts row hrow
  exact ⟨p, List.mem_append_left _ hp, he⟩

theorem Planned.leave (h : inp.Planned done st) {claimed : List ℤ}
    (hclaims : inp.Claims indexed st.claimed claimed)
    (hhome : ∀ row ∈ inp.existing, inp.home row = some indexed.2 →
      row.roundKey ≠ some indexed.1.roundKey → isBusy row inp.busyMints = true) :
    inp.Planned (done ++ [indexed]) ⟨claimed, st.plan⟩ where
  claims := h.claims.step hclaims
  updates := h.updates_grow hclaims.1
  inserts := h.inserts_grow
  once := h.once
  keys := h.keys
  opensAfter := h.opensAfter
  importsAfter := h.importsAfter
  homed := by
    intro row hrow p hp hat hkey hfree
    rcases List.mem_append.mp hp with hp | hp
    · exact h.homed row hrow p hp hat hkey hfree
    · obtain rfl := List.mem_singleton.mp hp
      rw [hhome row hrow hat hkey] at hfree
      cases hfree

theorem Planned.insert (h : inp.Planned done st) (hvalid : inp.Sound)
    (hsplit : inp.rounds.zipIdx = done ++ indexed :: rest) {claimed : List ℤ}
    (hclaims : inp.Claims indexed st.claimed claimed)
    (hhome : ∀ row ∈ inp.existing, inp.home row ≠ some indexed.2)
    (hshut : indexed.1.isOpen = true → inp.openRowOf st.plan indexed.1.mint = none) :
    inp.Planned (done ++ [indexed])
      ⟨claimed, { st.plan with inserts := st.plan.inserts ++ [inp.importedRow indexed.1] }⟩ where
  claims := h.claims.step hclaims
  updates := h.updates_grow hclaims.1
  inserts := by
    intro row hrow
    rcases List.mem_append.mp hrow with hrow | hrow
    · exact h.inserts_grow row hrow
    · exact ⟨indexed, List.mem_append_right _ List.mem_cons_self, List.mem_singleton.mp hrow⟩
  once := h.once
  keys := by
    have hfresh := h.key_fresh hvalid hsplit
    rw [List.map_append, ← List.append_assoc, List.nodup_append_comm]
    exact List.nodup_cons.mpr ⟨hfresh, h.keys⟩
  opensAfter := h.opensAfter
  importsAfter := by
    intro row hrow hopen
    rcases List.mem_append.mp hrow with hrow | hrow
    · exact h.importsAfter row hrow hopen
    · obtain rfl := List.mem_singleton.mp hrow
      have hround := buildPosition_open hopen
      exact h.closedFirst hvalid hsplit hround (hshut hround)
  homed := by
    intro row hrow p hp hat hkey hfree
    rcases List.mem_append.mp hp with hp | hp
    · exact h.homed row hrow p hp hat hkey hfree
    · obtain rfl := List.mem_singleton.mp hp
      exact absurd hat (hhome row hrow)

theorem Planned.rewrite (h : inp.Planned done st) (hvalid : inp.Sound)
    (hsplit : inp.rounds.zipIdx = done ++ indexed :: rest) {claimed : List ℤ}
    {current : Position} {update : PlannedUpdate} {releases : List RoundKeyRelease}
    (hclaims : inp.Claims indexed st.claimed claimed)
    (hrewrites : inp.Rewrites update current indexed)
    (hfree : ∀ id, current.id = some id → id ∉ st.claimed ∧ id ∈ claimed)
    (hhome : ∀ row ∈ inp.existing, inp.home row = some indexed.2 → row = current)
    (hshut : current.exitTime.isSome = true → indexed.1.isOpen = true →
      inp.openRowOf st.plan indexed.1.mint = none) :
    inp.Planned (done ++ [indexed])
      ⟨claimed, ⟨st.plan.inserts, st.plan.updates ++ [update], releases⟩⟩ := by
  have hstored := hrewrites.takes.stored
  have hid := hrewrites.rewritten.id
  obtain ⟨id, hcurrent⟩ := Option.isSome_iff_exists.mp (hvalid.saved current hstored)
  have hunwritten := h.unwritten (hfree id hcurrent).1
  refine ⟨h.claims.step hclaims, ?updates, h.inserts_grow, ?once, ?keys, ?opensAfter,
    ?importsAfter, ?homed⟩
  case updates =>
    intro other hother
    rcases List.mem_append.mp hother with hother | hother
    · exact h.updates_grow hclaims.1 other hother
    · obtain rfl := List.mem_singleton.mp hother
      exact ⟨current, indexed, List.mem_append_right _ List.mem_cons_self, hrewrites, id,
        (hfree id hcurrent).2, hcurrent⟩
  case once =>
    show (List.map _ (st.plan.updates ++ [update])).Nodup
    rw [List.map_append, List.nodup_append_comm]
    refine List.nodup_cons.mpr ⟨fun hmem => ?_, h.once⟩
    obtain ⟨other, hother, hsame⟩ := List.mem_map.mp hmem
    exact hunwritten other hother (hsame.trans (hid.trans hcurrent))
  case keys =>
    have hfresh := h.key_fresh hvalid hsplit
    rw [← hrewrites.round] at hfresh
    show (List.map _ (st.plan.updates ++ [update]) ++ _).Nodup
    rw [List.map_append, List.append_assoc, List.map_singleton, List.singleton_append,
      List.nodup_middle]
    exact List.nodup_cons.mpr ⟨hfresh, h.keys⟩
  case opensAfter =>
    refine h.opensAfter.concat fun row hrow hrowId hclosed hopen => ?_
    obtain rfl := hvalid.idUnique hrow hstored (hrowId.trans hid)
    rw [hrewrites.round] at hopen
    rw [hrewrites.takes.mint]
    exact h.closedFirst hvalid hsplit hopen (hshut hclosed hopen)
  case importsAfter =>
    intro row hrow hopen
    exact (h.importsAfter row hrow hopen).mono (List.subset_append_left _ _)
  case homed =>
    intro row hrow p hp hat hkey hbusy
    rcases List.mem_append.mp hp with hp | hp
    · obtain ⟨other, hother, hotherId⟩ := h.homed row hrow p hp hat hkey hbusy
      exact ⟨other, List.mem_append_left _ hother, hotherId⟩
    · obtain rfl := List.mem_singleton.mp hp
      obtain rfl := hhome row hrow hat
      exact ⟨update, List.mem_append_right _ List.mem_cons_self, hid⟩

theorem Planned.step (h : inp.Planned done st) (hvalid : inp.Sound)
    (hsplit : inp.rounds.zipIdx = done ++ indexed :: rest) :
    inp.Planned (done ++ [indexed]) (inp.planRound st indexed) := by
  have hstep := planRound_step hvalid hsplit h.claims
  generalize inp.planRound st indexed = after at hstep
  cases hstep with
  | leave claimed hclaims hhome => exact h.leave hclaims hhome
  | insert claimed hclaims hhome hheld hadopt hlegs hbusy hshut =>
    exact h.insert hvalid hsplit hclaims hhome hshut
  | rewrite claimed current position release hclaims htakes hfree hposition hhome hshut hheld =>
    exact h.rewrite hvalid hsplit hclaims ⟨htakes, hposition, rfl, rfl, rfl⟩ hfree hhome hshut

end Step

theorem planned_run (h : inp.Sound) {done rest : List (LedgerRound × ℕ)}
    (hsplit : inp.rounds.zipIdx = done ++ rest) :
    inp.Planned done (done.foldl inp.planRound startPlanning) := by
  induction done using List.reverseRecOn generalizing rest with
  | nil => exact planned_start
  | append_singleton done indexed ih =>
    rw [List.append_assoc, List.singleton_append] at hsplit
    rw [List.foldl_append, List.foldl_cons, List.foldl_nil]
    exact (ih hsplit).step h hsplit

theorem planned_all (h : inp.Sound) :
    inp.Planned inp.rounds.zipIdx (inp.rounds.zipIdx.foldl inp.planRound startPlanning) :=
  planned_run h (List.append_nil _).symm

end SyncInput

end ScreenerBot.Positions
