import ScreenerBot.Sync.CarryOut
import ScreenerBot.Positions.Conservation

/-! A plan carried out: no two rows of one round key, no two open rows of one mint. -/
namespace ScreenerBot.Positions
open Ledger Library

namespace SyncInput

variable {inp : SyncInput}

/-- A plan rewrites each row once, and writing it never gives two rows one round key and leaves
one open row of a mint. -/
structure Exclusive (inp : SyncInput) : Prop where
  once : (inp.planPositionWrites.updates.map (·.position.id)).Nodup
  keys : ∀ before after, inp.planPositionWrites.writes = before ++ after →
    KeysDistinct (before.foldl inp.writePlanned inp.existing)
  openRows : OneOpen (inp.planPositionWrites.writes.foldl inp.writePlanned inp.existing)

section Updates

variable {all : List (LedgerRound × ℕ)} {st : Planning} {done rest : List PlannedUpdate}
  {rows : List Position} {row other stored otherStored : Position}

theorem Planned.update_unique (h : inp.Planned all st) {u u' : PlannedUpdate}
    (hu : u ∈ st.plan.updates) (hu' : u' ∈ st.plan.updates)
    (hkey : u.round.roundKey = u'.round.roundKey) : u = u' := by
  have hnodup := (List.nodup_append.mp h.keys).1
  exact List.inj_on_of_nodup_map hnodup hu hu' (by rw [hkey])

theorem Planned.rewrites (h : inp.Planned all st) (hvalid : inp.Sound) {u : PlannedUpdate}
    (hu : u ∈ st.plan.updates) (hrow : row ∈ inp.existing) (hid : u.position.id = row.id) :
    ∃ p ∈ all, inp.Rewrites u row p := by
  obtain ⟨found, p, hp, hrewrites, -⟩ := h.updates u hu
  obtain rfl := hvalid.idUnique hrewrites.takes.stored hrow (hrewrites.rewritten.id.symm.trans hid)
  exact ⟨p, hp, hrewrites⟩

/-- A closed row that an update opened is the only open row of its mint. -/
theorem Follows.opened_alone (h : inp.Planned all st) (hvalid : inp.Sound)
    (hall : all = inp.rounds.zipIdx) (hsplit : st.plan.updates = done ++ rest)
    (hrow : row ∈ inp.existing) (hother : other ∈ inp.existing) (hne : row ≠ other)
    (hstored : Follows inp st.plan.roundKeyReleases done row stored)
    (hotherStored : Follows inp st.plan.roundKeyReleases done other otherStored)
    (hclosed : row.exitTime.isSome = true) (hopen : stored.exitTime = none) :
    otherStored.exitTime = none → otherStored.mint ≠ stored.mint := by
  subst hall
  intro hotherOpen hmint
  rw [hstored.mint, hotherStored.mint] at hmint
  have hnotOpen : row.exitTime ≠ none := Option.ne_none_iff_isSome.mpr hclosed
  obtain ⟨u, hu, hid, hround⟩ := (hstored.opened hopen).resolve_left hnotOpen
  have hin {u : PlannedUpdate} (hu : u ∈ done) : u ∈ st.plan.updates := by
    rw [hsplit]
    exact List.mem_append_left _ hu
  cases hexit : other.exitTime with
  | none =>
    obtain ⟨before, after, rfl⟩ := List.append_of_mem hu
    rw [List.append_assoc, List.cons_append] at hsplit
    obtain ⟨closing, hclosing, hclosingId, hclosingRound⟩ :=
      h.opensAfter before u _ hsplit row hrow hid.symm hclosed hround other hother hexit hmint
    exact hotherStored.closed hexit
      ⟨closing, List.mem_append_left _ hclosing, hclosingId, hclosingRound⟩ hotherOpen
  | some exit =>
    obtain ⟨u', hu', hid', hround'⟩ := (hotherStored.opened hotherOpen).resolve_left (by
      rw [hexit]
      exact Option.some_ne_none exit)
    obtain ⟨p, hp, hrewrites⟩ := h.rewrites hvalid (hin hu) hrow hid
    obtain ⟨p', hp', hrewrites'⟩ := h.rewrites hvalid (hin hu') hother hid'
    have hsame : p'.1 = p.1 := hvalid.openRounds p'.1 (mem_rounds hp') p.1 (mem_rounds hp)
      (hrewrites'.round ▸ hround') (hrewrites.round ▸ hround)
      (by rw [← hrewrites'.takes.mint, ← hrewrites.takes.mint, hmint])
    obtain rfl := h.update_unique (hin hu) (hin hu') (by
      rw [hrewrites.round, hrewrites'.round, hsame])
    exact hne (hvalid.idUnique hrow hother (hid.symm.trans hid'))

theorem oneOpen_of_follows (h : inp.Planned all st) (hvalid : inp.Sound)
    (hall : all = inp.rounds.zipIdx) (hsplit : st.plan.updates = done ++ rest)
    (hrows : List.Forall₂ (Follows inp st.plan.roundKeyReleases done) inp.existing rows) :
    OneOpen rows := by
  have hdistinct : inp.existing.Pairwise fun p q => p ≠ q := List.Nodup.of_map _ hvalid.ids
  refine pairwise_of_forall₂ hrows hdistinct
    fun row hrow other hother stored otherStored hne hstored hotherStored hopen hotherOpen => ?_
  cases hexit : row.exitTime with
  | some exit =>
    exact fun hmint => hstored.opened_alone h hvalid hall hsplit hrow hother hne hotherStored
      (by rw [hexit]; rfl) hopen hotherOpen hmint.symm
  | none =>
    cases hotherExit : other.exitTime with
    | some exit =>
      exact hotherStored.opened_alone h hvalid hall hsplit hother hrow hne.symm hstored
        (by rw [hotherExit]; rfl) hotherOpen hopen
    | none =>
      rw [hstored.mint, hotherStored.mint]
      exact fun hmint => hne (hvalid.openRows.unique hrow hother hexit hotherExit hmint)

/-- A row that kept its own key does not carry the key an update has written. -/
theorem Follows.kept_apart (hfreed : inp.KeysFreed st.plan)
    (hsplit : st.plan.updates = done ++ rest) {u : PlannedUpdate} (hu : u ∈ done)
    (hother : other ∈ inp.existing) (hid : other.id ≠ u.position.id)
    (hotherStored : Follows inp st.plan.roundKeyReleases done other otherStored)
    (hkept : otherStored.roundKey = (released st.plan.roundKeyReleases other).roundKey) :
    otherStored.roundKey ≠ some u.round.roundKey := by
  intro hkey
  have hreleased := hkept.symm.trans hkey
  have hotherKey : other.roundKey = some u.round.roundKey := by
    rcases released_cases st.plan.roundKeyReleases other with hsame | ⟨-, hsame⟩
    · rw [hsame] at hreleased
      exact hreleased
    · rw [hsame] at hreleased
      cases hreleased
  obtain ⟨before, after, rfl⟩ := List.append_of_mem hu
  rw [List.append_assoc, List.cons_append] at hsplit
  rcases hfreed.updates before u _ hsplit other hother hotherKey hid with
    ⟨hclosed, id, hotherId, hrelease⟩ | ⟨hastray, moving, hmoving, hmovingId⟩
  · exact released_key hotherId hclosed hrelease hreleased
  · exact hotherStored.moved hastray ⟨moving, List.mem_append_left _ hmoving, hmovingId⟩
      (hkey.trans hotherKey.symm)

theorem keysDistinct_of_follows (h : inp.Planned all st) (hvalid : inp.Sound)
    (hfreed : inp.KeysFreed st.plan) (hsplit : st.plan.updates = done ++ rest)
    (hrows : List.Forall₂ (Follows inp st.plan.roundKeyReleases done) inp.existing rows) :
    KeysDistinct rows := by
  have hdistinct : inp.existing.Pairwise fun p q => p ≠ q := List.Nodup.of_map _ hvalid.ids
  have hin {u : PlannedUpdate} (hu : u ∈ done) : u ∈ st.plan.updates := by
    rw [hsplit]
    exact List.mem_append_left _ hu
  refine pairwise_of_forall₂ hrows hdistinct
    fun row hrow other hother stored otherStored hne hstored hotherStored hsome hsame => ?_
  have hids : row.id ≠ other.id := fun hid => hne (hvalid.idUnique hrow hother hid)
  rcases hstored.key with hkept | ⟨u, hu, hid, hkey⟩
  · rcases hotherStored.key with hotherKept | ⟨u', hu', hid', hkey'⟩
    · obtain ⟨key, hkey⟩ := Option.isSome_iff_exists.mp hsome
      have hunreleased {p : Position}
          (hp : (released st.plan.roundKeyReleases p).roundKey = some key) :
          p.roundKey = some key := by
        rcases released_cases st.plan.roundKeyReleases p with hp' | ⟨-, hp'⟩
        · rwa [hp'] at hp
        · rw [hp'] at hp
          cases hp
      exact hne (hvalid.rowKeys.unique hrow hother (hunreleased (hkept ▸ hkey))
        (hunreleased (hotherKept ▸ hsame ▸ hkey)))
    · exact hstored.kept_apart hfreed hsplit hu' hrow (hid' ▸ hids) hkept (hsame.trans hkey')
  · rcases hotherStored.key with hotherKept | ⟨u', hu', hid', hkey'⟩
    · exact hotherStored.kept_apart hfreed hsplit hu hother (hid ▸ hids.symm)
        hotherKept (hsame.symm.trans hkey)
    · obtain rfl := h.update_unique (hin hu) (hin hu')
        (Option.some.inj (hkey.symm.trans (hsame.trans hkey')))
      exact hids (hid.symm.trans hid')

theorem updateRow_other {u : PlannedUpdate} (hid : u.position.id ≠ stored.id) :
    inp.updateRow rows u stored = stored := by
  unfold updateRow
  rw [beq_eq_false_iff_ne.mpr hid, Bool.and_false, if_neg Bool.false_ne_true]

/-- The stored rows follow the rows planned from, update by update. -/
theorem carried (h : inp.Planned all st) (hvalid : inp.Sound) (hall : all = inp.rounds.zipIdx)
    (hsplit : st.plan.updates = done ++ rest) :
    List.Forall₂ (Follows inp st.plan.roundKeyReleases done) inp.existing
      ((done.map PlanWrite.update).foldl inp.writePlanned
        (inp.existing.map (released st.plan.roundKeyReleases))) := by
  induction done using List.reverseRecOn generalizing rest with
  | nil =>
    refine List.forall₂_map_right_iff.mpr (List.forall₂_same.mpr fun row _ => ?_)
    exact released_follows _ row
  | append_singleton done u ih =>
    rw [List.append_assoc, List.singleton_append] at hsplit
    have hrows := ih hsplit
    have hopen := oneOpen_of_follows h hvalid hall hsplit hrows
    rw [List.map_append, List.foldl_append]
    generalize (done.map PlanWrite.update).foldl inp.writePlanned
      (inp.existing.map (released st.plan.roundKeyReleases)) = rows at hrows hopen
    have hu : u ∈ st.plan.updates := by
      rw [hsplit]
      exact List.mem_append_right _ List.mem_cons_self
    have honce : ∀ u' ∈ done, u'.position.id ≠ u.position.id := by
      have hnodup := h.once
      rw [hsplit, List.map_append, List.nodup_append] at hnodup
      exact fun u' hu' => hnodup.2.2 _ (List.mem_map_of_mem hu') _ List.mem_cons_self
    show List.Forall₂ _ _ (rows.map (inp.updateRow rows u))
    refine List.forall₂_map_right_iff.mpr ((forall₂_mem hrows).imp ?_)
    rintro row stored ⟨hrow, hstored, hfollows⟩
    by_cases hid : u.position.id = row.id
    · obtain ⟨p, hp, hrewrites⟩ := h.rewrites hvalid hu hrow hid
      subst hall
      refine hfollows.written hrewrites hp (hvalid.saved row hrow)
        (fun u' hu' => hid ▸ honce u' hu')
        fun hstoredOpen other hother hmint hne hotherOpen => hne ?_
      rw [hopen.unique hother hstored hotherOpen hstoredOpen hmint]
    · rw [updateRow_other (by rwa [hfollows.id])]
      exact hfollows.other hid

end Updates

theorem foldl_releases (releases : List RoundKeyRelease) (rows : List Position) :
    (releases.map PlanWrite.release).foldl inp.writePlanned rows =
      rows.map (released releases) := by
  induction releases generalizing rows with
  | nil => exact (List.map_id rows).symm
  | cons release releases ih =>
    rw [List.map_cons, List.foldl_cons, ih]
    show (rows.map (releaseRow release)).map (released releases) = _
    rw [List.map_map]
    rfl

theorem released_keysDistinct (hvalid : inp.Sound) (releases : List RoundKeyRelease) :
    KeysDistinct (inp.existing.map (released releases)) := by
  refine List.pairwise_map.mpr (hvalid.rowKeys.imp fun {p q} hapart hsome => ?_)
  rcases released_cases releases p with hp | ⟨-, hp⟩
  · rw [hp] at hsome ⊢
    rcases released_cases releases q with hq | ⟨-, hq⟩
    · rw [hq]
      exact hapart hsome
    · rw [hq]
      exact Option.isSome_iff_ne_none.mp hsome
  · rw [hp] at hsome
    cases hsome

/-- The rows imported by the inserts of a plan. -/
theorem foldl_inserts (inserts : List Position) (rows : List Position) :
    ∃ imported : List Position,
      (inserts.map PlanWrite.insert).foldl inp.writePlanned rows = rows ++ imported ∧
      (imported.map (·.roundKey)).Sublist (inserts.map (·.roundKey)) ∧
      ∀ row ∈ imported, ∃ planned ∈ inserts, row.roundKey = planned.roundKey ∧
        row.mint = planned.mint ∧ row.exitTime = planned.exitTime := by
  induction inserts generalizing rows with
  | nil => exact ⟨[], (List.append_nil rows).symm, List.Sublist.refl _, fun _ h =>
      absurd h List.not_mem_nil⟩
  | cons position inserts ih =>
    rw [List.map_cons, List.foldl_cons]
    by_cases hbusy : inp.busyMints.contains position.mint = true
    · have hskip : inp.writePlanned rows (.insert position) = rows := if_pos hbusy
      obtain ⟨imported, hrows, hkeys, hfrom⟩ := ih rows
      rw [hskip]
      refine ⟨imported, hrows, hkeys.cons _, fun row hrow => ?_⟩
      obtain ⟨planned, hplanned, hsame⟩ := hfrom row hrow
      exact ⟨planned, List.mem_cons_of_mem _ hplanned, hsame⟩
    · have hwritten : inp.writePlanned rows (.insert position) =
          rows ++ [{ position with id := some (freshId rows) }] := if_neg hbusy
      obtain ⟨imported, hrows, hkeys, hfrom⟩ :=
        ih (rows ++ [{ position with id := some (freshId rows) }])
      refine ⟨{ position with id := some (freshId rows) } :: imported, ?_, hkeys.cons_cons _,
        fun row hrow => ?_⟩
      · rw [hwritten, hrows, List.append_assoc, List.singleton_append]
      · rcases List.mem_cons.mp hrow with rfl | hrow
        · exact ⟨position, List.mem_cons_self, rfl, rfl, rfl⟩
        · obtain ⟨planned, hplanned, hsame⟩ := hfrom row hrow
          exact ⟨planned, List.mem_cons_of_mem _ hplanned, hsame⟩

section Imports

variable {all : List (LedgerRound × ℕ)} {st : Planning} {rows imported : List Position}
  {inserts rest : List Position}

theorem imported_round (h : inp.Planned all st) (hall : all = inp.rounds.zipIdx)
    (hsplit : st.plan.inserts = inserts ++ rest) {row : Position} (hrow : row ∈ inserts) :
    ∃ round ∈ inp.rounds, row.roundKey = some round.roundKey ∧ row.mint = round.mint ∧
      (row.exitTime = none → round.isOpen = true) := by
  subst hall
  obtain ⟨p, hp, rfl⟩ := h.inserts row (hsplit ▸ List.mem_append_left _ hrow)
  exact ⟨p.1, mem_rounds hp, rfl, rfl, buildPosition_open⟩

theorem keysDistinct_import (h : inp.Planned all st) (hvalid : inp.Sound)
    (hall : all = inp.rounds.zipIdx) (hfreed : inp.KeysFreed st.plan)
    (hsplit : st.plan.inserts = inserts ++ rest)
    (hrows : List.Forall₂ (Follows inp st.plan.roundKeyReleases st.plan.updates) inp.existing rows)
    (hkeys : (imported.map (·.roundKey)).Sublist (inserts.map (·.roundKey)))
    (hfrom : ∀ row ∈ imported, ∃ planned ∈ inserts, row.roundKey = planned.roundKey ∧
      row.mint = planned.mint ∧ row.exitTime = planned.exitTime) :
    KeysDistinct (rows ++ imported) := by
  obtain ⟨-, hinserts, hcross⟩ := List.nodup_append.mp h.keys
  have hkept := keysDistinct_of_follows h hvalid hfreed (List.append_nil _).symm hrows
  refine List.pairwise_append.mpr ⟨hkept, ?_, fun stored hstored row hrow hsome hsame => ?_⟩
  · rw [hsplit, List.map_append] at hinserts
    have hnodup := hkeys.nodup (List.nodup_append.mp hinserts).1
    refine (List.pairwise_map.mp hnodup).imp ?_
    intro p q hne _
    exact hne
  · obtain ⟨planned, hplanned, hkey, -⟩ := hfrom row hrow
    have hin : planned ∈ st.plan.inserts := hsplit ▸ List.mem_append_left _ hplanned
    obtain ⟨existing, hexisting, hfollows⟩ := mem_of_forall₂ hrows hstored
    rw [hkey] at hsame
    rcases hfollows.key with hown | ⟨u, hu, -, hwritten⟩
    · have hholder : existing.roundKey = planned.roundKey := by
        rcases released_cases st.plan.roundKeyReleases existing with he | ⟨-, he⟩
        · rw [← hsame, hown, he]
        · rw [hown, he] at hsome
          cases hsome
      obtain ⟨hastray, hmoves⟩ := hfreed.inserts planned hin existing hexisting hholder
      have hmoved : ∃ u ∈ st.plan.updates, u.position.id = existing.id := by
        rcases hmoves with hmoved | hfree
        · exact hmoved
        · obtain ⟨p, hp, hhome, hne⟩ := hastray
          exact h.homed existing hexisting p (hall ▸ hp) hhome hne hfree
      exact hfollows.moved hastray hmoved (hsame.trans hholder.symm)
    · exact hcross _ (List.mem_map_of_mem hu) _ (List.mem_map_of_mem hin)
        (hwritten.symm.trans hsame)

theorem oneOpen_import (h : inp.Planned all st) (hvalid : inp.Sound)
    (hall : all = inp.rounds.zipIdx) (hsplit : st.plan.inserts = inserts ++ rest)
    (hrows : List.Forall₂ (Follows inp st.plan.roundKeyReleases st.plan.updates) inp.existing rows)
    (hkeys : (imported.map (·.roundKey)).Sublist (inserts.map (·.roundKey)))
    (hfrom : ∀ row ∈ imported, ∃ planned ∈ inserts, row.roundKey = planned.roundKey ∧
      row.mint = planned.mint ∧ row.exitTime = planned.exitTime) :
    OneOpen (rows ++ imported) := by
  obtain ⟨-, hinserts, hcross⟩ := List.nodup_append.mp h.keys
  have hkept := oneOpen_of_follows h hvalid hall (List.append_nil _).symm hrows
  refine List.pairwise_append.mpr
    ⟨hkept, ?_, fun stored hstored row hrow hopen hrowOpen hmint => ?_⟩
  · rw [hsplit, List.map_append] at hinserts
    have hnodup := List.pairwise_map.mp (hkeys.nodup (List.nodup_append.mp hinserts).1)
    refine hnodup.imp_of_mem fun {p q} hp hq hne hpo hqo hmint => ?_
    obtain ⟨planned, hplanned, hkey, hpm, hexit⟩ := hfrom p hp
    obtain ⟨planned', hplanned', hkey', hqm, hexit'⟩ := hfrom q hq
    obtain ⟨r, hr, hrkey, hrmint, hro⟩ := imported_round h hall hsplit hplanned
    obtain ⟨r', hr', hrkey', hrmint', hro'⟩ := imported_round h hall hsplit hplanned'
    have hsame := hvalid.openRounds r hr r' hr' (hro (hexit ▸ hpo)) (hro' (hexit' ▸ hqo))
      (by rw [← hrmint, ← hrmint', ← hpm, ← hqm, hmint])
    exact hne (by rw [hkey, hkey', hrkey, hrkey', hsame])
  · obtain ⟨planned, hplanned, -, hpm, hexit⟩ := hfrom row hrow
    have hin : planned ∈ st.plan.inserts := hsplit ▸ List.mem_append_left _ hplanned
    obtain ⟨round, hround, hrkey, hrmint, hro⟩ := imported_round h hall hsplit hplanned
    rw [hexit] at hrowOpen
    obtain ⟨existing, hexisting, hfollows⟩ := mem_of_forall₂ hrows hstored
    rw [hfollows.mint, hpm] at hmint
    cases hwas : existing.exitTime with
    | none =>
      obtain ⟨u, hu, hid, hclosed⟩ :=
        h.importsAfter planned hin hrowOpen existing hexisting hwas hmint
      exact hfollows.closed hwas ⟨u, hu, hid, hclosed⟩ hopen
    | some exit =>
      obtain ⟨u, hu, hid, huOpen⟩ := (hfollows.opened hopen).resolve_left (by
        rw [hwas]
        exact Option.some_ne_none exit)
      obtain ⟨p, hp, hrewrites⟩ := h.rewrites hvalid hu hexisting hid
      subst hall
      have hsame := hvalid.openRounds u.round (hrewrites.round ▸ mem_rounds hp) round hround huOpen
        (hro hrowOpen) (by rw [hrewrites.round, ← hrewrites.takes.mint, hmint, hrmint])
      exact hcross _ (List.mem_map_of_mem hu) _ (List.mem_map_of_mem hin) (by rw [hsame, hrkey])

end Imports

/-- Where no row carries the key of another mint's round, and no closed round takes a key that the
row at home elsewhere still carries when it is written, a plan is carried out without two rows of
one key or two open rows of one mint. -/
theorem plan_exclusive (hvalid : inp.Valid) (hkeyed : inp.KeyedByMint) (hleaves : ∀ step ∈
    visited inp.planRound startPlanning inp.rounds.zipIdx, inp.leavesKey step.1 step.2 = true) :
    inp.Exclusive := by
  have h : inp.Sound := ⟨hvalid, hkeyed⟩
  have hplanned := planned_all h
  have hfreed := keysFreed_run h (List.append_nil _).symm hleaves
  have hplan : (inp.rounds.zipIdx.foldl inp.planRound startPlanning).plan =
      inp.planPositionWrites := rfl
  generalize inp.rounds.zipIdx.foldl inp.planRound startPlanning = st at hplanned hfreed hplan
  obtain ⟨claimed, plan⟩ := st
  obtain rfl : plan = inp.planPositionWrites := hplan
  have hcarried := @carried inp inp.rounds.zipIdx _ inp.planPositionWrites.updates [] hplanned h rfl
    (List.append_nil _).symm
  refine ⟨hplanned.once, fun before after hwrites => ?keys, ?openRows⟩
  case openRows =>
    unfold SyncPlan.writes
    rw [List.foldl_append, List.foldl_append, foldl_releases]
    obtain ⟨imported, hrows, hkeys, hfrom⟩ := @foldl_inserts inp inp.planPositionWrites.inserts
      ((inp.planPositionWrites.updates.map PlanWrite.update).foldl inp.writePlanned
        (inp.existing.map (released inp.planPositionWrites.roundKeyReleases)))
    rw [hrows]
    exact oneOpen_import hplanned h rfl (List.append_nil _).symm hcarried hkeys hfrom
  case keys =>
    unfold SyncPlan.writes at hwrites
    rcases List.append_eq_append_iff.mp hwrites with ⟨inserts, rfl, hinserts⟩ | ⟨later, hfirst, -⟩
    · obtain ⟨inserts, rest, hsplit, rfl, -⟩ := List.map_eq_append_iff.mp hinserts
      rw [List.foldl_append, List.foldl_append, foldl_releases]
      obtain ⟨imported, hrows, hkeys, hfrom⟩ := @foldl_inserts inp inserts
        ((inp.planPositionWrites.updates.map PlanWrite.update).foldl inp.writePlanned
          (inp.existing.map (released inp.planPositionWrites.roundKeyReleases)))
      rw [hrows]
      exact keysDistinct_import hplanned h rfl hfreed hsplit hcarried hkeys hfrom
    rcases List.append_eq_append_iff.mp hfirst with ⟨updates, rfl, hupdates⟩ | ⟨later',
      hreleases, -⟩
    · obtain ⟨updates, rest, hsplit, rfl, -⟩ := List.map_eq_append_iff.mp hupdates
      rw [List.foldl_append, foldl_releases]
      exact keysDistinct_of_follows hplanned h hfreed hsplit (carried hplanned h rfl hsplit)
    · obtain ⟨releases, rest, -, rfl, -⟩ := List.map_eq_append_iff.mp hreleases
      rw [foldl_releases]
      exact released_keysDistinct h releases

end SyncInput

section Samples

def roundEvent (signature : String) (kind : LedgerEventKind) (amountRaw balanceAfter : ℕ)
    (time : ℤ) : LedgerEvent where
  signature := signature
  slot := none
  blockTime := some time
  kind := kind
  amount := amountRaw
  amountRaw := amountRaw
  balanceAfter := balanceAfter
  quote := some ⟨.sol, 1⟩
  priceNative := none
  venue := none

/-- A round that two buys opened and one sale closed. -/
def soldRound : LedgerRound where
  mint := "mint"
  decimals := 0
  roundKey := "sold"
  openedAt := some 10
  closedAt := some 110
  isOpen := false
  balanceRaw := 0
  totalAcquiredRaw := 300
  totalDisposedRaw := 300
  entryCount := 2
  exitCount := 1
  investedNative := 2
  remainingBasisNative := 0
  realizedProceedsNative := 1
  realizedCostNative := 2
  averageEntryPriceNative := some (1 / 150)
  averageExitPriceNative := some (1 / 300)
  realizedPnlNative := some (-1)
  basisComplete := true
  historyComplete := true
  entrySignature := some "closed-buy"
  exitSignature := some "outside-sale"
  events := [roundEvent "closed-buy" .entry 100 100 10, roundEvent "open-buy" .add 200 300 100,
    roundEvent "outside-sale" .exit 300 0 110]

/-- The round a later add opened. -/
def heldRound : LedgerRound :=
  { soldRound with
    roundKey := "held"
    openedAt := some 120
    closedAt := none
    isOpen := true
    balanceRaw := 50
    totalAcquiredRaw := 50
    totalDisposedRaw := 0
    entryCount := 1
    exitCount := 0
    investedNative := 1
    remainingBasisNative := 1
    realizedProceedsNative := 0
    realizedCostNative := 0
    averageEntryPriceNative := some (1 / 50)
    averageExitPriceNative := none
    realizedPnlNative := none
    entrySignature := some "add"
    exitSignature := none
    events := [roundEvent "add" .entry 50 50 120] }

/-- A closed row without a key beside an open row keyed by the sold round, whose add opened the
held round. -/
def movedHome (rounds : List LedgerRound) : SyncInput where
  rounds := rounds
  existing := [closedRow "mint", { openRow "mint" with id := some 2, roundKey := some "sold" }]
  metadata _ := none
  traderLegs id := if id = 2 then some ⟨{"open-buy", "add"}, ∅, 3, 250, 0⟩
    else if id = 1 then some ⟨{"closed-buy"}, {"closed-sale"}, 1, 100, 2⟩ else none
  busyMints := []
  now := 1000

theorem plan_exclusive_held_first : (movedHome [heldRound, soldRound]).Exclusive :=
  SyncInput.plan_exclusive (by refine ⟨?_, ?_, ?_, ?_, ?_, ?_⟩ <;> decide +kernel)
    (by decide +kernel) (by decide +kernel)

/-- The closed row is given the sold round's key before the open row leaves it. -/
theorem adopted_row_takes_held_key : (movedHome [soldRound, heldRound]).Valid ∧
    (movedHome [soldRound, heldRound]).KeyedByMint ∧
    ¬(movedHome [soldRound, heldRound]).Exclusive := by
  refine ⟨by refine ⟨?_, ?_, ?_, ?_, ?_, ?_⟩ <;> decide +kernel, by decide +kernel, fun h => ?_⟩
  have hkeys := h.keys _ _
    (List.take_append_drop 1 (movedHome [soldRound, heldRound]).planPositionWrites.writes).symm
  exact absurd hkeys (by decide +kernel)

end Samples

end ScreenerBot.Positions
