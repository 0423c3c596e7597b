import ScreenerBot.Sync.KeyOrder

/-! The stored rows while the updates of a plan are carried out. -/
namespace ScreenerBot.Positions
open Ledger Library

namespace SyncInput

variable {inp : SyncInput}

/-- The row as the releases of a plan leave it. -/
def released (releases : List RoundKeyRelease) (row : Position) : Position :=
  releases.foldl (fun row release => releaseRow release row) row

theorem released_cons (release : RoundKeyRelease) (releases : List RoundKeyRelease)
    (row : Position) :
    released (release :: releases) row = released releases (releaseRow release row) := rfl

theorem releaseRow_cases (release : RoundKeyRelease) (row : Position) :
    releaseRow release row = row ∨
      (row.exitTime.isSome = true ∧ releaseRow release row = { row with roundKey := none }) := by
  unfold releaseRow
  split
  next h =>
    rw [Bool.and_eq_true, Bool.and_eq_true] at h
    exact .inr ⟨h.1.2, rfl⟩
  · exact .inl rfl

theorem released_cases (releases : List RoundKeyRelease) (row : Position) :
    released releases row = row ∨
      (row.exitTime.isSome = true ∧ released releases row = { row with roundKey := none }) := by
  induction releases generalizing row with
  | nil => exact .inl rfl
  | cons release releases ih =>
    rw [released_cons]
    rcases releaseRow_cases release row with hsame | ⟨hclosed, hnone⟩
    · rw [hsame]
      exact ih row
    · rw [hnone]
      refine .inr ⟨hclosed, ?_⟩
      rcases ih { row with roundKey := none } with hsame | ⟨-, hsame⟩
      · exact hsame
      · exact hsame

theorem released_of_open {releases : List RoundKeyRelease} {row : Position}
    (h : row.exitTime = none) : released releases row = row := by
  rcases released_cases releases row with hsame | ⟨hclosed, -⟩
  · exact hsame
  · rw [h] at hclosed
    cases hclosed

/-- A released key is given up. -/
theorem released_key {releases : List RoundKeyRelease} {row : Position} {id : ℤ} {key : String}
    (hid : row.id = some id) (hclosed : row.exitTime.isSome = true)
    (hrelease : ⟨id, key⟩ ∈ releases) : (released releases row).roundKey ≠ some key := by
  induction releases generalizing row with
  | nil => cases hrelease
  | cons release releases ih =>
    rw [released_cons]
    rcases List.mem_cons.mp hrelease with rfl | hrelease
    · have hkey : (releaseRow ⟨id, key⟩ row).roundKey ≠ some key := by
        unfold releaseRow
        split
        · exact Option.some_ne_none key |>.symm
        next hkept => simpa [hid, hclosed] using hkept
      rcases released_cases releases (releaseRow ⟨id, key⟩ row) with hsame | ⟨-, hsame⟩
      · rw [hsame]
        exact hkey
      · rw [hsame]
        exact Option.some_ne_none key |>.symm
    · rcases releaseRow_cases release row with hsame | ⟨-, hnone⟩
      · rw [hsame]
        exact ih hid hclosed hrelease
      · rw [hnone]
        exact @ih { row with roundKey := none } hid hclosed hrelease

/-- How a stored row stands to the row it was planned from, once the updates `done` are carried
out after the releases. -/
structure Follows (inp : SyncInput) (releases : List RoundKeyRelease) (done : List PlannedUpdate)
    (row stored : Position) : Prop where
  id : stored.id = row.id
  mint : stored.mint = row.mint
  untouched : (∀ update ∈ done, update.position.id ≠ row.id) → stored = released releases row
  key : stored.roundKey = (released releases row).roundKey ∨
    ∃ update ∈ done, update.position.id = row.id ∧ stored.roundKey = some update.round.roundKey
  moved : inp.Astray row → (∃ update ∈ done, update.position.id = row.id) →
    stored.roundKey ≠ row.roundKey
  opened : stored.exitTime = none → row.exitTime = none ∨
    ∃ update ∈ done, update.position.id = row.id ∧ update.round.isOpen = true
  closed : row.exitTime = none →
    (∃ update ∈ done, update.position.id = row.id ∧ update.round.isOpen = false) →
      stored.exitTime ≠ none

theorem released_follows (releases : List RoundKeyRelease) (row : Position) :
    Follows inp releases [] row (released releases row) where
  id := by rcases released_cases releases row with h | ⟨-, h⟩ <;> rw [h]
  mint := by rcases released_cases releases row with h | ⟨-, h⟩ <;> rw [h]
  untouched _ := rfl
  key := .inl rfl
  moved _ hmoved := by
    obtain ⟨update, hupdate, -⟩ := hmoved
    cases hupdate
  opened h := by
    rcases released_cases releases row with hsame | ⟨-, hsame⟩
    · exact .inl (hsame ▸ h)
    · rw [hsame] at h
      exact .inl h
  closed _ hmoved := by
    obtain ⟨update, hupdate, -⟩ := hmoved
    cases hupdate

section Update

variable {releases : List RoundKeyRelease} {done : List PlannedUpdate} {update : PlannedUpdate}
  {row stored : Position}

/-- An update of another row leaves the row as it is. -/
theorem Follows.other (h : Follows inp releases done row stored)
    (hother : update.position.id ≠ row.id) :
    Follows inp releases (done ++ [update]) row stored := by
  have hmem {u : PlannedUpdate} (hu : u ∈ done ++ [update]) (hid : u.position.id = row.id) :
      u ∈ done := by
    rcases List.mem_append.mp hu with hu | hu
    · exact hu
    · obtain rfl := List.mem_singleton.mp hu
      exact absurd hid hother
  refine ⟨h.id, h.mint, fun hnone => h.untouched fun u hu => hnone u (List.mem_append_left _ hu),
    h.key.imp_right ?_, fun hastray => ?_, fun hopen => (h.opened hopen).imp_right ?_,
    fun hopen => ?_⟩
  · rintro ⟨u, hu, hkey⟩
    exact ⟨u, List.mem_append_left _ hu, hkey⟩
  · rintro ⟨u, hu, hid⟩
    exact h.moved hastray ⟨u, hmem hu hid, hid⟩
  · rintro ⟨u, hu, hround⟩
    exact ⟨u, List.mem_append_left _ hu, hround⟩
  · rintro ⟨u, hu, hid, hround⟩
    exact h.closed hopen ⟨u, hmem hu hid, hid, hround⟩

theorem rewrittenRow_rewritten {rows : List Position} {row fresh : Position}
    (h : inp.rewrittenRow rows row update = some fresh) : Rewritten update.round row fresh := by
  unfold rewrittenRow at h
  dsimp only at h
  split at h
  · exact rewriteRow_rewritten h
  · obtain ⟨attribution, -, h⟩ := Option.bind_eq_some_iff.mp h
    exact rewriteRow_rewritten h

/-- The only open row of its mint is charged against no other. -/
theorem writtenAttribution_isSome {rows : List Position} {row : Position}
    (halone : ∀ other ∈ rows, other.mint = row.mint → other.id ≠ row.id → other.exitTime ≠ none) :
    ∃ attribution, inp.writtenAttribution rows row update = some attribution := by
  have hothers : ((rows.filter (·.mint == row.mint)).filter fun other =>
      other.id != row.id && other.exitTime.isNone) = [] := by
    refine List.filter_eq_nil_iff.mpr fun other hother => ?_
    obtain ⟨hother, hmint⟩ := List.mem_filter.mp hother
    rw [Bool.and_eq_true, bne_iff_ne, Option.isNone_iff_eq_none]
    exact fun ⟨hid, hopen⟩ => halone other hother (beq_iff_eq.mp hmint) hid hopen
  unfold writtenAttribution
  dsimp only
  rw [hothers]
  split
  · exact ⟨_, rfl⟩
  · exact ⟨_, rfl⟩

/-- The write of an update still closes an open row with its round, and still moves a bot row to
its key. -/
theorem rewrittenRow_isSome {rows : List Position} {p : LedgerRound × ℕ}
    (hrewrites : inp.Rewrites update row p) (hopen : row.exitTime = none)
    (halone : ∀ other ∈ rows, other.mint = row.mint → other.id ≠ row.id → other.exitTime ≠ none)
    (hwhy : p.1.isOpen = false ∨
      (row.isWalletDerived = false ∧ row.roundKey ≠ some p.1.roundKey)) :
    ∃ fresh, inp.rewrittenRow rows row update = some fresh := by
  unfold rewrittenRow
  dsimp only
  rw [hrewrites.round, hrewrites.earlier, hrewrites.metadata]
  cases hderived : row.isWalletDerived with
  | true =>
    have hplanned := hrewrites.position
    unfold rewriteCurrent at hplanned
    rw [hderived, if_pos rfl] at hplanned
    rw [if_pos rfl]
    exact ⟨_, hplanned⟩
  | false =>
    have hfree := hrewrites.free hderived
    obtain ⟨attribution, hattribution⟩ := @writtenAttribution_isSome inp update rows row halone
    rw [if_neg Bool.false_ne_true, hattribution, Option.bind_some]
    refine Option.isSome_iff_exists.mp ?_
    rcases hwhy with hclosed | ⟨-, hkey⟩
    · exact rewriteRow_of_closed hderived hfree hopen hclosed
    · exact rewriteRow_of_newKey hderived hfree hkey

/-- An astray row is rewritten for the round it is at home at. -/
theorem Rewrites.home {p : LedgerRound × ℕ} (h : inp.Rewrites update row p)
    (hp : p ∈ inp.rounds.zipIdx) (hastray : inp.Astray row) :
    row.isWalletDerived = false ∧ row.exitTime = none ∧ row.roundKey ≠ some p.1.roundKey := by
  obtain ⟨q, hq, hhome, hkey⟩ := hastray
  obtain ⟨hbot, hopen, -⟩ := home_ok hhome
  obtain rfl := eq_of_index hq hp (not_elsewhere h.takes.here hhome)
  exact ⟨hbot, hopen, hkey⟩

theorem Follows.written {rows : List Position} {p : LedgerRound × ℕ}
    (h : Follows inp releases done row stored) (hrewrites : inp.Rewrites update row p)
    (hp : p ∈ inp.rounds.zipIdx) (hsaved : row.id.isSome = true)
    (honce : ∀ u ∈ done, u.position.id ≠ row.id)
    (halone : stored.exitTime = none → ∀ other ∈ rows, other.mint = stored.mint →
      other.id ≠ stored.id → other.exitTime ≠ none) :
    Follows inp releases (done ++ [update]) row (inp.updateRow rows update stored) := by
  have hupdateId := hrewrites.rewritten.id
  have huntouched := h.untouched honce
  have hlast {u : PlannedUpdate} (hu : u ∈ done ++ [update]) (hid : u.position.id = row.id) :
      u = update := by
    rcases List.mem_append.mp hu with hu | hu
    · exact absurd hid (honce u hu)
    · exact List.mem_singleton.mp hu
  have hrow : inp.updateRow rows update stored =
      ((inp.rewrittenRow rows stored update).map (Store.stored stored)).getD stored := by
    unfold updateRow
    rw [h.id, hsaved, hupdateId, beq_self_eq_true, Bool.and_self, if_pos rfl]
  have hsome (hopen : row.exitTime = none) (hwhy : p.1.isOpen = false ∨
      (row.isWalletDerived = false ∧ row.roundKey ≠ some p.1.roundKey)) :
      ∃ fresh, inp.rewrittenRow rows stored update = some fresh := by
    have hstored : stored = row := huntouched.trans (released_of_open hopen)
    rw [hstored] at halone ⊢
    exact rewrittenRow_isSome hrewrites hopen (halone hopen) hwhy
  have hmem : update ∈ done ++ [update] := List.mem_append_right _ List.mem_cons_self
  cases hfresh : inp.rewrittenRow rows stored update with
  | none =>
    rw [hfresh, Option.map_none, Option.getD_none] at hrow
    rw [hrow]
    refine ⟨h.id, h.mint, fun _ => huntouched, .inl (by rw [huntouched]), fun hastray _ => ?_,
      fun hopen => (h.opened hopen).imp_right ?_, fun hopen hclosed => ?_⟩
    · obtain ⟨hbot, hopen, hkey⟩ := hrewrites.home hp hastray
      obtain ⟨fresh, hsome⟩ := hsome hopen (.inr ⟨hbot, hkey⟩)
      rw [hfresh] at hsome
      cases hsome
    · rintro ⟨u, hu, hround⟩
      exact ⟨u, List.mem_append_left _ hu, hround⟩
    · obtain ⟨u, hu, hid, hround⟩ := hclosed
      obtain rfl := hlast hu hid
      rw [hrewrites.round] at hround
      obtain ⟨fresh, hsome⟩ := hsome hopen (.inl hround)
      rw [hfresh] at hsome
      cases hsome
  | some fresh =>
    rw [hfresh, Option.map_some, Option.getD_some] at hrow
    rw [hrow]
    have hrewritten := rewrittenRow_rewritten hfresh
    have hmint : stored.mint = update.round.mint := by
      rw [h.mint, hrewrites.round, hrewrites.takes.mint]
    refine ⟨hrewritten.id.trans h.id, (hrewritten.mint hmint).trans (hmint.symm.trans h.mint),
      fun hnone => absurd hupdateId (hnone update hmem),
      .inr ⟨update, hmem, hupdateId, hrewritten.roundKey⟩, fun hastray _ => ?_,
      fun hopen => .inr ⟨update, hmem, hupdateId, hrewritten.opened hopen⟩,
      fun _ hclosed hopen => ?_⟩
    · obtain ⟨-, -, hkey⟩ := hrewrites.home hp hastray
      show fresh.roundKey ≠ row.roundKey
      rw [hrewritten.roundKey, hrewrites.round]
      exact hkey.symm
    · obtain ⟨u, hu, hid, hround⟩ := hclosed
      obtain rfl := hlast hu hid
      rw [hrewritten.opened hopen] at hround
      cases hround

end Update

end SyncInput

end ScreenerBot.Positions
