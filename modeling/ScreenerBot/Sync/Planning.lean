import ScreenerBot.Sync.Rewrite

/-! What a planned round writes, over the rows and rounds a sync may meet. -/
namespace ScreenerBot.Positions
open Ledger Library

/-- Two rows do not share a round key. -/
def KeysApart (p q : Position) : Prop := p.roundKey.isSome = true → p.roundKey ≠ q.roundKey

/-- Two rows are not both open for one mint. -/
def OpenApart (p q : Position) : Prop := p.exitTime = none → q.exitTime = none → p.mint ≠ q.mint

instance : Std.Symm KeysApart := ⟨fun _ _ h hq hsame => h (hsame ▸ hq) hsame.symm⟩

instance : Std.Symm OpenApart := ⟨fun _ _ h hq hp hsame => h hp hq hsame.symm⟩

instance : DecidableRel KeysApart := fun p q =>
  inferInstanceAs (Decidable (p.roundKey.isSome = true → p.roundKey ≠ q.roundKey))
instance : DecidableRel OpenApart := fun p q =>
  inferInstanceAs (Decidable (p.exitTime = none → q.exitTime = none → p.mint ≠ q.mint))

/-- No two rows have the same round key. -/
def KeysDistinct (rows : List Position) : Prop := rows.Pairwise KeysApart

/-- No two rows of a mint are open. -/
def OneOpen (rows : List Position) : Prop := rows.Pairwise OpenApart

instance (rows : List Position) : Decidable (KeysDistinct rows) :=
  inferInstanceAs (Decidable (rows.Pairwise KeysApart))
instance (rows : List Position) : Decidable (OneOpen rows) :=
  inferInstanceAs (Decidable (rows.Pairwise OpenApart))

/-- The rounds and the stored rows of one wallet: rounds with their own keys, one open of a mint;
rows with their own ids and keys, one open of a mint. -/
structure SyncInput.Valid (inp : SyncInput) : Prop where
  roundKeys : (inp.rounds.map (·.roundKey)).Nodup
  openRounds : ∀ r ∈ inp.rounds, ∀ r' ∈ inp.rounds, r.isOpen = true → r'.isOpen = true →
    r.mint = r'.mint → r = r'
  saved : ∀ row ∈ inp.existing, row.id.isSome = true
  ids : (inp.existing.map (·.id)).Nodup
  openRows : OneOpen inp.existing
  rowKeys : KeysDistinct inp.existing

/-- A row that carries the key of a round is a row of the round's mint. -/
def SyncInput.KeyedByMint (inp : SyncInput) : Prop :=
  ∀ row ∈ inp.existing, ∀ r ∈ inp.rounds, row.roundKey = some r.roundKey → row.mint = r.mint

instance (inp : SyncInput) : Decidable inp.KeyedByMint :=
  inferInstanceAs (Decidable (∀ row ∈ inp.existing, ∀ r ∈ inp.rounds, _))

/-- What the planner may rely on. -/
structure SyncInput.Sound (inp : SyncInput) : Prop extends inp.Valid where
  keyMints : inp.KeyedByMint

theorem KeysDistinct.unique {rows : List Position} (h : KeysDistinct rows) {p q : Position}
    {key : String} (hp : p ∈ rows) (hq : q ∈ rows) (hpk : p.roundKey = some key)
    (hqk : q.roundKey = some key) : p = q := by
  by_contra hne
  exact h.forall hp hq hne (by rw [hpk]; rfl) (hpk.trans hqk.symm)

theorem OneOpen.unique {rows : List Position} (h : OneOpen rows) {p q : Position} (hp : p ∈ rows)
    (hq : q ∈ rows) (hpo : p.exitTime = none) (hqo : q.exitTime = none) (hm : p.mint = q.mint) :
    p = q := by
  by_contra hne
  exact h.forall hp hq hne hpo hqo hm

namespace SyncInput

variable {inp : SyncInput}

theorem Sound.idUnique (h : inp.Sound) {p q : Position} (hp : p ∈ inp.existing)
    (hq : q ∈ inp.existing) (hid : p.id = q.id) : p = q :=
  List.inj_on_of_nodup_map h.ids hp hq hid

theorem byRoundKey_mem {key : String} {row : Position} (h : inp.byRoundKey key = some row) :
    row ∈ inp.existing ∧ row.roundKey = some key := by
  have hfound := List.find?_some h
  exact ⟨List.mem_reverse.mp (List.mem_of_find?_eq_some h), beq_iff_eq.mp hfound⟩

theorem Sound.byRoundKey_eq (h : inp.Sound) {key : String} {row : Position}
    (hrow : row ∈ inp.existing) (hkey : row.roundKey = some key) :
    inp.byRoundKey key = some row := by
  cases hfound : inp.byRoundKey key with
  | none =>
    have hnone := List.find?_eq_none.mp hfound row (List.mem_reverse.mpr hrow)
    rw [hkey, beq_self_eq_true] at hnone
    exact absurd rfl hnone
  | some other =>
    obtain ⟨hother, hotherKey⟩ := byRoundKey_mem hfound
    rw [h.rowKeys.unique hother hrow hotherKey hkey]

/-- A row at home somewhere is an open bot row with a leg in its home round. -/
theorem home_ok {row : Position} {index : ℕ} (h : inp.home row = some index) :
    row.isWalletDerived = false ∧ row.exitTime = none ∧
      ∃ round, (round, index) ∈ inp.rounds.zipIdx ∧ row.mint = round.mint := by
  unfold home at h
  split at h
  · cases h
  next hopen =>
    rw [Bool.or_eq_true, not_or, Bool.not_eq_true, Bool.not_eq_true, Option.isSome_eq_false_iff,
      Option.isNone_iff_eq_none] at hopen
    obtain ⟨⟨round, i⟩, hlast, rfl⟩ := Option.map_eq_some_iff.mp h
    have hmem := (mem_sortBy _ _ _).mp (List.mem_of_getLast? hlast)
    obtain ⟨hround, hleg⟩ := List.mem_filter.mp hmem
    simp only [holdsLegOf, Bool.and_eq_true, beq_iff_eq] at hleg
    exact ⟨hopen.1, hopen.2, round, hround, hleg.1.2⟩

theorem elsewhere_iff {row : Position} {index : ℕ} :
    inp.elsewhere row index = true ↔ ∃ home, inp.home row = some home ∧ home ≠ index := by
  unfold elsewhere
  rw [Option.any_eq_true]
  simp

theorem homeRow_ok {index : ℕ} {claimed : List ℤ} {row : Position}
    (h : inp.homeRow index claimed = some row) : row ∈ inp.existing ∧
      inp.home row = some index ∧ ∀ id, row.id = some id → id ∉ claimed := by
  have hmem := (mem_sortBy _ _ _).mp (List.mem_of_mem_head? (Option.mem_def.mpr h))
  obtain ⟨hrow, hhome⟩ := List.mem_filter.mp hmem
  rw [Bool.and_eq_true, beq_iff_eq] at hhome
  refine ⟨hrow, hhome.1, fun id hid hclaimed => ?_⟩
  rw [hid, Option.any_some, List.contains_iff_mem.mpr hclaimed] at hhome
  exact absurd hhome.2 Bool.false_ne_true

/-- An unclaimed open row at home at a round is found there. -/
theorem homeRow_isSome {index : ℕ} {claimed : List ℤ} {row : Position} {id : ℤ}
    (hrow : row ∈ inp.existing) (hhome : inp.home row = some index) (hid : row.id = some id)
    (hfree : id ∉ claimed) : (inp.homeRow index claimed).isSome = true := by
  unfold homeRow
  rw [List.isSome_head?]
  refine List.ne_nil_of_mem ((mem_sortBy _ _ row).mpr (List.mem_filter.mpr ⟨hrow, ?_⟩))
  rw [hhome, beq_self_eq_true, Bool.true_and, hid, Option.any_some, Bool.not_eq_true',
    ← Bool.not_eq_true, List.contains_iff_mem]
  exact hfree

theorem adoptRow_ok {round : LedgerRound} {claimed : List ℤ} {index : ℕ} {row : Position}
    (h : inp.adoptRow round claimed index = some row) : row ∈ inp.existing ∧
      row.roundKey = none ∧ row.mint = round.mint ∧ inp.elsewhere row index = false ∧
      ∀ id, row.id = some id → id ∉ claimed := by
  obtain ⟨signature, -, hfound⟩ := List.exists_of_findSome?_eq_some h
  have haccepted := List.find?_some hfound
  have hmem := (mem_sortBy _ _ _).mp (List.mem_of_find?_eq_some hfound)
  obtain ⟨hrow, hadoptable⟩ := List.mem_filter.mp hmem
  simp only [Bool.and_eq_true, Option.isNone_iff_eq_none, beq_iff_eq] at hadoptable
  rw [Bool.and_eq_true, Bool.not_eq_true'] at haccepted
  refine ⟨hrow, hadoptable.1.1.1, hadoptable.1.2, haccepted.2, fun id hid hclaimed => ?_⟩
  rw [hid, Option.any_some, List.contains_iff_mem.mpr hclaimed] at haccepted
  exact absurd haccepted.1 Bool.false_ne_true

/-- A later round has a later index. -/
theorem zipIdx_split {done rest : List (LedgerRound × ℕ)} {next : LedgerRound × ℕ}
    (h : inp.rounds.zipIdx = done ++ next :: rest) :
    (∀ p ∈ done, p.2 < next.2) ∧ ∀ p ∈ rest, next.2 < p.2 := by
  have hindex : (inp.rounds.zipIdx.map Prod.snd).Pairwise (· < ·) := by
    rw [List.zipIdx_map_snd]
    exact List.pairwise_lt_range'
  rw [h, List.map_append, List.map_cons] at hindex
  obtain ⟨-, hrest, hdone⟩ := List.pairwise_append.mp hindex
  obtain ⟨hnext, -⟩ := List.pairwise_cons.mp hrest
  constructor
  · intro p hp
    exact hdone p.2 (List.mem_map_of_mem hp) next.2 List.mem_cons_self
  · intro p hp
    exact hnext p.2 (List.mem_map_of_mem hp)

theorem mem_done {done rest : List (LedgerRound × ℕ)} {next p : LedgerRound × ℕ}
    (h : inp.rounds.zipIdx = done ++ next :: rest) (hp : p ∈ inp.rounds.zipIdx)
    (hlt : p.2 < next.2) : p ∈ done := by
  rw [h] at hp
  rcases List.mem_append.mp hp with hp | hp
  · exact hp
  rcases List.mem_cons.mp hp with rfl | hp
  · exact absurd hlt (lt_irrefl _)
  · exact absurd (hlt.trans ((zipIdx_split h).2 p hp)) (lt_irrefl _)

theorem mem_rounds {indexed : LedgerRound × ℕ} (h : indexed ∈ inp.rounds.zipIdx) :
    indexed.1 ∈ inp.rounds :=
  List.mem_of_getElem? (List.mem_zipIdx_iff_getElem?.mp h)

theorem eq_of_index {p q : LedgerRound × ℕ} (hp : p ∈ inp.rounds.zipIdx)
    (hq : q ∈ inp.rounds.zipIdx) (hindex : p.2 = q.2) : p = q := by
  have hround : some p.1 = some q.1 := by
    rw [← List.mem_zipIdx_iff_getElem?.mp hp, ← List.mem_zipIdx_iff_getElem?.mp hq, hindex]
  exact Prod.ext (Option.some.inj hround) hindex

theorem Sound.eq_of_key (h : inp.Sound) {p q : LedgerRound × ℕ} (hp : p ∈ inp.rounds.zipIdx)
    (hq : q ∈ inp.rounds.zipIdx) (hkey : p.1.roundKey = q.1.roundKey) : p = q := by
  refine eq_of_index hp hq ((List.getElem?_inj ?_ h.roundKeys).mp ?_)
  · rw [List.length_map]
    exact (List.getElem?_eq_some_iff.mp (List.mem_zipIdx_iff_getElem?.mp hp)).1
  · rw [List.getElem?_map, List.getElem?_map, List.mem_zipIdx_iff_getElem?.mp hp,
      List.mem_zipIdx_iff_getElem?.mp hq, Option.map_some, Option.map_some, hkey]

/-- A round may take a row of its mint that is not at home elsewhere: the row at home there, the
row that carries its key, or one without a key. -/
structure Takes (inp : SyncInput) (row : Position) (indexed : LedgerRound × ℕ) : Prop where
  stored : row ∈ inp.existing
  mint : row.mint = indexed.1.mint
  here : inp.elsewhere row indexed.2 = false
  why : inp.home row = some indexed.2 ∨ row.roundKey = none ∨
    row.roundKey = some indexed.1.roundKey

theorem not_elsewhere {row : Position} {index home : ℕ} (h : inp.elsewhere row index = false)
    (hhome : inp.home row = some home) : home = index := by
  by_contra hne
  rw [elsewhere_iff.mpr ⟨home, hhome, hne⟩] at h
  cases h

/-- A row that carries a round's key and may be taken there is taken nowhere else. -/
theorem Takes.only (h : inp.Sound) {row : Position} {p q : LedgerRound × ℕ}
    (hrow : inp.Takes row p) (hp : p ∈ inp.rounds.zipIdx) (hq : q ∈ inp.rounds.zipIdx)
    (here : inp.elsewhere row q.2 = false) (hkey : row.roundKey = some q.1.roundKey) : p = q := by
  rcases hrow.why with hhome | hnone | hsame
  · exact eq_of_index hp hq (not_elsewhere here hhome)
  · rw [hkey] at hnone
    cases hnone
  · exact h.eq_of_key hp hq (Option.some.inj (hsame.symm.trans hkey))

theorem matchedRow_cases {round : LedgerRound} {index : ℕ} {claimed : List ℤ}
    {row : Position} (h : inp.matchedRow round index claimed = some row) :
    (inp.byRoundKey round.roundKey = some row ∧ inp.elsewhere row index = false) ∨
      (inp.adoptRow round claimed index = some row ∧
        ∀ holder, inp.byRoundKey round.roundKey = some holder →
          inp.elsewhere holder index = true) := by
  unfold matchedRow at h
  rcases Option.or_eq_some_iff.mp h with hkeyed | ⟨hnone, hadopted⟩
  · obtain ⟨hkeyed, here⟩ := Option.filter_eq_some_iff.mp hkeyed
    exact .inl ⟨hkeyed, by simpa using here⟩
  · refine .inr ⟨hadopted, fun holder hholder => ?_⟩
    have := Option.filter_eq_none_iff.mp hnone holder hholder
    simpa using this

theorem matchedRow_takes (h : inp.Sound) {indexed : LedgerRound × ℕ}
    (hindexed : indexed ∈ inp.rounds.zipIdx) {claimed : List ℤ} {row : Position}
    (hmatched : inp.matchedRow indexed.1 indexed.2 claimed = some row) :
    inp.Takes row indexed := by
  rcases matchedRow_cases hmatched with ⟨hkeyed, here⟩ | ⟨hadopted, -⟩
  · obtain ⟨hrow, hkey⟩ := byRoundKey_mem hkeyed
    exact ⟨hrow, h.keyMints row hrow indexed.1 (mem_rounds hindexed) hkey, here, .inr (.inr hkey)⟩
  · obtain ⟨hrow, hkey, hmint, here, -⟩ := adoptRow_ok hadopted
    exact ⟨hrow, hmint, here, .inr (.inl hkey)⟩

theorem takes_of_home {indexed : LedgerRound × ℕ} (hindexed : indexed ∈ inp.rounds.zipIdx)
    {row : Position} (hrow : row ∈ inp.existing) (hhome : inp.home row = some indexed.2) :
    inp.Takes row indexed := by
  obtain ⟨-, -, round, hround, hmint⟩ := home_ok hhome
  have hsame : round = indexed.1 := congrArg Prod.fst (eq_of_index hround hindexed rfl)
  refine ⟨hrow, hsame ▸ hmint, ?_, .inl hhome⟩
  rw [← Bool.not_eq_true, elsewhere_iff]
  rintro ⟨home, hother, hne⟩
  rw [hhome] at hother
  exact hne (Option.some.inj hother).symm

end SyncInput

end ScreenerBot.Positions
