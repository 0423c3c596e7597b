import ScreenerBot.Sync.Planning

/-! What planning one round may do, said once for every invariant of the plan. -/
namespace ScreenerBot.Positions
open Ledger Library

namespace SyncInput

variable {inp : SyncInput}

theorem matchedRow_none {round : LedgerRound} {index : ℕ} {claimed : List ℤ}
    (h : inp.matchedRow round index claimed = none) :
    inp.adoptRow round claimed index = none ∧
      ∀ holder, inp.byRoundKey round.roundKey = some holder →
        inp.elsewhere holder index = true := by
  unfold matchedRow at h
  obtain ⟨hkeyed, hadopt⟩ := Option.or_eq_none_iff.mp h
  refine ⟨hadopt, fun holder hholder => ?_⟩
  have := Option.filter_eq_none_iff.mp hkeyed holder hholder
  simpa using this

theorem target_rewrite {plan : SyncPlan} {round : LedgerRound} {matched homeRow : Option Position}
    {current : Position} {release : Option RoundKeyRelease}
    (h : inp.target plan round matched homeRow = .rewrite current release) :
    (matched = some current ∧ current.exitTime = none ∧ release = none) ∨
      (∃ closed, matched = some closed ∧ closed.exitTime.isSome = true ∧
        homeRow = some current ∧ (closed.roundKey = some round.roundKey →
          release = closed.id.map fun id => ⟨id, round.roundKey⟩)) ∨
      (matched = some current ∧ homeRow = none ∧
        (round.isOpen = true → inp.openRowOf plan current.mint = none)) ∨
      (matched = none ∧ homeRow = some current) := by
  unfold target at h
  cases matched with
  | none =>
    cases homeRow with
    | none =>
      dsimp only at h
      split at h
      · cases h
      split at h
      · cases h
      split at h <;> cases h
    | some home =>
      cases h
      exact .inr (.inr (.inr ⟨rfl, rfl⟩))
  | some row =>
    dsimp only at h
    split at h
    next hopen =>
      cases h
      exact .inl ⟨rfl, Option.isNone_iff_eq_none.mp hopen, rfl⟩
    next hclosed =>
      rw [Option.isNone_iff_eq_none, ← ne_eq, Option.ne_none_iff_isSome] at hclosed
      cases homeRow with
      | some home =>
        cases h
        refine .inr (.inl ⟨row, rfl, hclosed, rfl, fun hkey => ?_⟩)
        rw [hkey, beq_self_eq_true, if_pos rfl]
      | none =>
        dsimp only at h
        split at h
        · cases h
        next hshut =>
          cases h
          refine .inr (.inr (.inl ⟨rfl, rfl, fun hopen => ?_⟩))
          simpa [hopen] using hshut

theorem target_insert {plan : SyncPlan} {round : LedgerRound} {matched homeRow : Option Position}
    (h : inp.target plan round matched homeRow = .insert) :
    matched = none ∧ homeRow = none ∧ (round.isOpen = true ∨ inp.holdsBotLeg round = false) ∧
      inp.busyMints.contains round.mint = false ∧
      (round.isOpen = true → inp.openRowOf plan round.mint = none) := by
  unfold target at h
  cases matched with
  | some row =>
    dsimp only at h
    split at h
    · cases h
    cases homeRow with
    | some home => cases h
    | none =>
      dsimp only at h
      split at h <;> cases h
  | none =>
    cases homeRow with
    | some home => cases h
    | none =>
      dsimp only at h
      split at h
      · cases h
      next hlegs =>
        split at h
        · cases h
        next hbusy =>
          split at h
          · cases h
          next hshut =>
            refine ⟨rfl, rfl, ?_, by simpa using hbusy, fun hopen => by simpa [hopen] using hshut⟩
            cases hopen : round.isOpen with
            | true => exact .inl rfl
            | false => exact .inr (by simpa [hopen] using hlegs)

theorem mem_claim {claimed : List ℤ} {row : Option Position} {id : ℤ} :
    id ∈ claim claimed row ↔ (∃ r, row = some r ∧ r.id = some id) ∨ id ∈ claimed := by
  rw [claim, List.mem_append, Option.mem_toList, Option.bind_eq_some_iff]

/-- The rows claimed so far belong to the rounds planned so far. -/
def ClaimedBy (inp : SyncInput) (done : List (LedgerRound × ℕ)) (claimed : List ℤ) : Prop :=
  ∀ id ∈ claimed, ∃ row, ∃ p ∈ done, inp.Takes row p ∧ row.id = some id

/-- A round claims rows it may take, beside those claimed before. -/
def Claims (inp : SyncInput) (indexed : LedgerRound × ℕ) (old new : List ℤ) : Prop :=
  old ⊆ new ∧ ∀ id ∈ new, id ∈ old ∨ ∃ row, inp.Takes row indexed ∧ row.id = some id

theorem Claims.trans {indexed : LedgerRound × ℕ} {first second third : List ℤ}
    (h : inp.Claims indexed first second) (h' : inp.Claims indexed second third) :
    inp.Claims indexed first third := by
  refine ⟨List.Subset.trans h.1 h'.1, fun id hid => ?_⟩
  rcases h'.2 id hid with hid | htaken
  · exact h.2 id hid
  · exact .inr htaken

theorem claim_claims {indexed : LedgerRound × ℕ} {claimed : List ℤ} {row : Option Position}
    (h : ∀ r, row = some r → inp.Takes r indexed) :
    inp.Claims indexed claimed (claim claimed row) := by
  refine ⟨fun id hid => mem_claim.mpr (.inr hid), fun id hid => ?_⟩
  rcases mem_claim.mp hid with ⟨r, hr, hid⟩ | hid
  · exact .inr ⟨r, h r hr, hid⟩
  · exact .inl hid

theorem ClaimedBy.step {done : List (LedgerRound × ℕ)} {indexed : LedgerRound × ℕ}
    {old new : List ℤ} (h : inp.ClaimedBy done old) (hnew : inp.Claims indexed old new) :
    inp.ClaimedBy (done ++ [indexed]) new := by
  intro id hid
  rcases hnew.2 id hid with hold | ⟨row, htakes, hrow⟩
  · obtain ⟨row, p, hp, hrow⟩ := h id hold
    exact ⟨row, p, List.mem_append_left _ hp, hrow⟩
  · exact ⟨row, indexed, List.mem_append_right _ List.mem_cons_self, htakes, hrow⟩

/-- The row keyed by a round but at home elsewhere is the open row of their mint. -/
theorem elsewhere_unique (h : inp.Sound) {indexed : LedgerRound × ℕ}
    (hindexed : indexed ∈ inp.rounds.zipIdx) {holder row : Position}
    (hholder : holder ∈ inp.existing) (hkey : holder.roundKey = some indexed.1.roundKey)
    (helsewhere : inp.elsewhere holder indexed.2 = true) (hrow : row ∈ inp.existing)
    (hopen : row.exitTime = none) (hmint : row.mint = indexed.1.mint) : row = holder := by
  obtain ⟨home, hhome, -⟩ := elsewhere_iff.mp helsewhere
  obtain ⟨-, hholderOpen, -⟩ := home_ok hhome
  refine h.openRows.unique hrow hholder hopen hholderOpen (hmint.trans ?_)
  exact (h.keyMints holder hholder indexed.1 (mem_rounds hindexed) hkey).symm

theorem homeRow_open {index : ℕ} {claimed : List ℤ} {row : Position}
    (h : inp.homeRow index claimed = some row) : row.exitTime = none :=
  (home_ok (homeRow_ok h).2.1).2.1

/-- A bot row that a new key leaves as it is has work in flight. -/
theorem isBusy_of_kept {row : Position} {round : LedgerRound} {index : ℕ}
    (hbot : row.isWalletDerived = false) (hkey : row.roundKey ≠ some round.roundKey)
    (hkept : inp.rewriteCurrent row round index = none) : isBusy row inp.busyMints = true := by
  by_contra hfree
  rw [Bool.not_eq_true] at hfree
  unfold rewriteCurrent at hkept
  rw [hbot, if_neg Bool.false_ne_true] at hkept
  have hsome := @rewriteRow_of_newKey row round (inp.earlier row index)
    ((inp.metadata round.mint).getD .empty) (inp.plannedAttribution row) inp.busyMints inp.now
    hbot hfree hkey
  rw [hkept] at hsome
  cases hsome

section Step

variable {done rest : List (LedgerRound × ℕ)} {indexed : LedgerRound × ℕ} {st : Planning}

/-- A row the next round may take by its own key or as its home is unclaimed yet. -/
theorem ClaimedBy.unclaimed (h : inp.Sound)
    (hsplit : inp.rounds.zipIdx = done ++ indexed :: rest) (hclaims : inp.ClaimedBy done st.claimed)
    {row : Position} (hrow : inp.Takes row indexed)
    (hwhy : inp.home row = some indexed.2 ∨ row.roundKey = some indexed.1.roundKey) :
    ∀ id, row.id = some id → id ∉ st.claimed := by
  intro id hid hclaimed
  obtain ⟨other, p, hp, hother, hotherId⟩ := hclaims id hclaimed
  have hsame : other = row := h.idUnique hother.stored hrow.stored (hotherId.trans hid.symm)
  subst hsame
  have hlt := (zipIdx_split hsplit).1 p hp
  have hmem : p ∈ inp.rounds.zipIdx := by
    rw [hsplit]
    exact List.mem_append_left _ hp
  have hnext : indexed ∈ inp.rounds.zipIdx := by
    rw [hsplit]
    exact List.mem_append_right _ List.mem_cons_self
  rcases hwhy with hhome | hkey
  · exact absurd (not_elsewhere hother.here hhome) hlt.ne'
  · rw [hother.only h hmem hnext hrow.here hkey] at hlt
    exact absurd hlt (lt_irrefl _)

/-- A round rewrites the open row at home there. -/
theorem target_of_home (h : inp.Sound)
    (hsplit : inp.rounds.zipIdx = done ++ indexed :: rest) (hclaims : inp.ClaimedBy done st.claimed)
    {row : Position} (hrow : row ∈ inp.existing) (hhome : inp.home row = some indexed.2)
    {matched homeRow : Option Position}
    (hmatched : inp.matchedRow indexed.1 indexed.2 st.claimed = matched)
    (hhomeRow : inp.homeRow indexed.2 (claim st.claimed matched) = homeRow) :
    ∃ release, inp.target st.plan indexed.1 matched homeRow = .rewrite row release := by
  have hnext : indexed ∈ inp.rounds.zipIdx := by
    rw [hsplit]
    exact List.mem_append_right _ List.mem_cons_self
  have htakes := takes_of_home hnext hrow hhome
  obtain ⟨-, hopen, -⟩ := home_ok hhome
  obtain ⟨id, hid⟩ := Option.isSome_iff_exists.mp (h.saved row hrow)
  have hunclaimed := hclaims.unclaimed h hsplit htakes (.inl hhome) id hid
  -- the open row of the mint is the only one that can be at home here
  have hfound (hother : ∀ row', matched = some row' → row'.id ≠ some id) :
      homeRow = some row := by
    have hfree : id ∉ claim st.claimed matched := by
      rw [mem_claim, not_or]
      exact ⟨fun ⟨row', hrow', hid'⟩ => hother row' hrow' hid', hunclaimed⟩
    have hsome := homeRow_isSome hrow hhome hid hfree
    rw [hhomeRow] at hsome
    obtain ⟨home, rfl⟩ := Option.isSome_iff_exists.mp hsome
    obtain ⟨hstored, hhomed, -⟩ := homeRow_ok hhomeRow
    obtain ⟨-, hhomeOpen, -⟩ := home_ok hhomed
    have hmint := (takes_of_home hnext hstored hhomed).mint.trans htakes.mint.symm
    rw [h.openRows.unique hstored hrow hhomeOpen hopen hmint]
  cases matched with
  | none =>
    rw [hfound (fun _ hnone => by cases hnone)]
    exact ⟨none, rfl⟩
  | some row' =>
    have htakes' := matchedRow_takes h hnext hmatched
    cases hexit : row'.exitTime with
    | none =>
      have hsame := h.openRows.unique htakes'.stored hrow hexit hopen
        (htakes'.mint.trans htakes.mint.symm)
      subst hsame
      exact ⟨none, by simp [target, hexit]⟩
    | some exit =>
      have hhomeRow := hfound fun other hother hotherId => by
        cases hother
        rw [h.idUnique htakes'.stored hrow (hotherId.trans hid.symm), hopen] at hexit
        cases hexit
      rw [hhomeRow]
      exact ⟨_, by simp only [target, hexit]; rfl⟩

/-- Another row that carries the key of a rewritten row's round is released first, or it is at
home elsewhere and the rewritten row was adopted. -/
theorem holder_cases (h : inp.Sound) (hindexed : indexed ∈ inp.rounds.zipIdx) {claimed : List ℤ}
    {current row : Position} {matched homeRow : Option Position}
    {release : Option RoundKeyRelease} (htakes : inp.Takes current indexed)
    (hmatched : inp.matchedRow indexed.1 indexed.2 claimed = matched)
    (hhomeRow : homeRow = some current → current.exitTime = none)
    (htarget : inp.target st.plan indexed.1 matched homeRow = .rewrite current release)
    (hrow : row ∈ inp.existing) (hkey : row.roundKey = some indexed.1.roundKey)
    (hne : row ≠ current) :
    (row.exitTime.isSome = true ∧ release = row.id.map fun id => ⟨id, indexed.1.roundKey⟩) ∨
      (inp.elsewhere row indexed.2 = true ∧ current.exitTime.isSome = true ∧
        inp.adoptRow indexed.1 claimed indexed.2 = some current) := by
  have hholder := h.byRoundKey_eq hrow hkey
  -- the open row of the mint is the row at home elsewhere
  have hclosed (helsewhere : inp.elsewhere row indexed.2 = true) :
      current.exitTime ≠ none := fun hopen =>
    hne (elsewhere_unique h hindexed hrow hkey helsewhere htakes.stored hopen htakes.mint).symm
  rcases target_rewrite htarget with ⟨hm, hopen, -⟩ | ⟨closed, hm, hexit, hh, hrelease⟩ |
    ⟨hm, -⟩ | ⟨hm, hh⟩
  · rcases matchedRow_cases (hmatched.trans hm) with ⟨hkeyed, -⟩ | ⟨-, helsewhere⟩
    · exact absurd (Option.some.inj (hholder.symm.trans hkeyed)) hne
    · exact absurd hopen (hclosed (helsewhere row hholder))
  · rcases matchedRow_cases (hmatched.trans hm) with ⟨hkeyed, -⟩ | ⟨-, helsewhere⟩
    · obtain rfl := Option.some.inj (hholder.symm.trans hkeyed)
      exact .inl ⟨hexit, hrelease hkey⟩
    · exact absurd (hhomeRow hh) (hclosed (helsewhere row hholder))
  · rcases matchedRow_cases (hmatched.trans hm) with ⟨hkeyed, -⟩ | ⟨hadopted, helsewhere⟩
    · exact absurd (Option.some.inj (hholder.symm.trans hkeyed)) hne
    · have hhere := helsewhere row hholder
      exact .inr ⟨hhere, Option.ne_none_iff_isSome.mp (hclosed hhere), hadopted⟩
  · have hhere := (matchedRow_none (hmatched.trans hm)).2 row hholder
    exact absurd (hhomeRow hh) (hclosed hhere)

/-- The row a round imports. -/
def importedRow (inp : SyncInput) (round : LedgerRound) : Position :=
  buildPosition round ((inp.metadata round.mint).getD .empty) none inp.now

/-- What planning a round may do: nothing, import a row for it, or rewrite a row it takes. -/
inductive RoundStep (inp : SyncInput) (st : Planning) (indexed : LedgerRound × ℕ) :
    Planning → Prop
  | leave (claimed : List ℤ)
      (hclaims : inp.Claims indexed st.claimed claimed)
      (hhome : ∀ row ∈ inp.existing, inp.home row = some indexed.2 →
        row.roundKey ≠ some indexed.1.roundKey → isBusy row inp.busyMints = true) :
      RoundStep inp st indexed ⟨claimed, st.plan⟩
  | insert (claimed : List ℤ)
      (hclaims : inp.Claims indexed st.claimed claimed)
      (hhome : ∀ row ∈ inp.existing, inp.home row ≠ some indexed.2)
      (hheld : ∀ row ∈ inp.existing, row.roundKey = some indexed.1.roundKey →
        inp.elsewhere row indexed.2 = true)
      (hadopt : inp.adoptRow indexed.1 st.claimed indexed.2 = none)
      (hlegs : indexed.1.isOpen = true ∨ inp.holdsBotLeg indexed.1 = false)
      (hbusy : inp.busyMints.contains indexed.1.mint = false)
      (hshut : indexed.1.isOpen = true → inp.openRowOf st.plan indexed.1.mint = none) :
      RoundStep inp st indexed ⟨claimed, { st.plan with
        inserts := st.plan.inserts ++ [inp.importedRow indexed.1] }⟩
  | rewrite (claimed : List ℤ) (current position : Position) (release : Option RoundKeyRelease)
      (hclaims : inp.Claims indexed st.claimed claimed)
      (htakes : inp.Takes current indexed)
      (hfree : ∀ id, current.id = some id → id ∉ st.claimed ∧ id ∈ claimed)
      (hposition : inp.rewriteCurrent current indexed.1 indexed.2 = some position)
      (hhome : ∀ row ∈ inp.existing, inp.home row = some indexed.2 → row = current)
      (hshut : current.exitTime.isSome = true → indexed.1.isOpen = true →
        inp.openRowOf st.plan indexed.1.mint = none)
      (hheld : ∀ row ∈ inp.existing, row.roundKey = some indexed.1.roundKey → row ≠ current →
        (row.exitTime.isSome = true ∧
          release = row.id.map fun id => ⟨id, indexed.1.roundKey⟩) ∨
        (inp.elsewhere row indexed.2 = true ∧ current.exitTime.isSome = true ∧
          inp.adoptRow indexed.1 st.claimed indexed.2 = some current)) :
      RoundStep inp st indexed ⟨claimed, { st.plan with
        updates := st.plan.updates ++ [⟨position, indexed.1, inp.earlier current indexed.2,
          (inp.metadata indexed.1.mint).getD .empty⟩]
        roundKeyReleases := st.plan.roundKeyReleases ++ release.toList }⟩

theorem planRound_step (h : inp.Sound)
    (hsplit : inp.rounds.zipIdx = done ++ indexed :: rest)
    (hclaims : inp.ClaimedBy done st.claimed) :
    RoundStep inp st indexed (inp.planRound st indexed) := by
  have hnext : indexed ∈ inp.rounds.zipIdx := by
    rw [hsplit]
    exact List.mem_append_right _ List.mem_cons_self
  unfold planRound
  dsimp only
  generalize hmatched : inp.matchedRow indexed.1 indexed.2 st.claimed = matched
  generalize hhomeRow : inp.homeRow indexed.2 (claim st.claimed matched) = homeRow
  have hhome {row : Position} (hrow : row ∈ inp.existing) (hhome : inp.home row = some indexed.2) :=
    target_of_home h hsplit hclaims hrow hhome hmatched hhomeRow
  have hmatchedClaims : inp.Claims indexed st.claimed (claim st.claimed matched) :=
    claim_claims fun row hrow => matchedRow_takes h hnext (hmatched.trans hrow)
  cases htarget : inp.target st.plan indexed.1 matched homeRow with
  | leave =>
    refine .leave _ hmatchedClaims fun row hrow hat _ => ?_
    obtain ⟨release, hrewrite⟩ := hhome hrow hat
    rw [htarget] at hrewrite
    cases hrewrite
  | insert =>
    obtain ⟨rfl, rfl, hlegs, hbusy, hshut⟩ := target_insert htarget
    obtain ⟨hadopt, hheld⟩ := matchedRow_none hmatched
    refine .insert _ hmatchedClaims (fun row hrow hat => ?_)
      (fun row hrow hkey => hheld row (h.byRoundKey_eq hrow hkey)) hadopt hlegs hbusy hshut
    obtain ⟨release, hrewrite⟩ := hhome hrow hat
    rw [htarget] at hrewrite
    cases hrewrite
  | rewrite current release =>
    dsimp only
    have hcurrent : matched = some current ∨ homeRow = some current := by
      rcases target_rewrite htarget with ⟨hm, -⟩ | ⟨closed, -, -, hh, -⟩ | ⟨hm, -⟩ | ⟨-, hh⟩
      · exact .inl hm
      · exact .inr hh
      · exact .inl hm
      · exact .inr hh
    have htakes : inp.Takes current indexed := by
      rcases hcurrent with hm | hh
      · exact matchedRow_takes h hnext (hmatched.trans hm)
      · obtain ⟨hrow, hat, -⟩ := homeRow_ok (hhomeRow.trans hh)
        exact takes_of_home hnext hrow hat
    have hcurrentClaims : inp.Claims indexed st.claimed
        (claim (claim st.claimed matched) (some current)) := by
      refine hmatchedClaims.trans (claim_claims fun row hrow => ?_)
      cases hrow
      exact htakes
    have honly : ∀ row ∈ inp.existing, inp.home row = some indexed.2 → row = current := by
      intro row hrow hat
      obtain ⟨release, hrewrite⟩ := hhome hrow hat
      rw [htarget] at hrewrite
      cases hrewrite
      rfl
    cases hposition : inp.rewriteCurrent current indexed.1 indexed.2 with
    | none =>
      refine .leave _ hcurrentClaims fun row hrow hat hkey => ?_
      obtain rfl := honly row hrow hat
      exact isBusy_of_kept (home_ok hat).1 hkey hposition
    | some position =>
      refine .rewrite _ current position release hcurrentClaims htakes ?_ hposition honly ?_ ?_
      · intro id hid
        refine ⟨?_, mem_claim.mpr (.inl ⟨current, rfl, hid⟩)⟩
        rcases hcurrent with hm | hh
        · rcases matchedRow_cases (hmatched.trans hm) with ⟨hkeyed, -⟩ | ⟨hadopted, -⟩
          · exact hclaims.unclaimed h hsplit htakes (.inr (byRoundKey_mem hkeyed).2) id hid
          · exact (adoptRow_ok hadopted).2.2.2.2 id hid
        · obtain ⟨-, -, hfree⟩ := homeRow_ok (hhomeRow.trans hh)
          exact fun hclaimed => hfree id hid (mem_claim.mpr (.inr hclaimed))
      · intro hclosed hopen
        rcases target_rewrite htarget with ⟨-, hexit, -⟩ | ⟨closed, -, -, hh, -⟩ | ⟨-, -, hshut⟩ |
          ⟨-, hh⟩
        · rw [hexit] at hclosed
          cases hclosed
        · rw [homeRow_open (hhomeRow.trans hh)] at hclosed
          cases hclosed
        · rw [← htakes.mint]
          exact hshut hopen
        · rw [homeRow_open (hhomeRow.trans hh)] at hclosed
          cases hclosed
      · intro row hrow hkey hne
        exact holder_cases h hnext htakes hmatched (fun hh => homeRow_open (hhomeRow.trans hh))
          htarget hrow hkey hne

end Step

end SyncInput

end ScreenerBot.Positions
