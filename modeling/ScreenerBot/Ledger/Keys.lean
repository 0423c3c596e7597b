import ScreenerBot.Ledger.Lifecycle
import ScreenerBot.Ledger.Wallet

/-! Round keys: what each one names, and that no two rounds are given the same one. -/
namespace ScreenerBot.Ledger
open Library

/-- A name the round keys can be joined from. -/
def PlainName (name : String) : Prop := ':' ∉ name.toList

instance (name : String) : Decidable (PlainName name) := inferInstanceAs (Decidable (_ ∉ _))

/-- A signature that none of the key prefixes spells. -/
def PlainSignature (signature : String) : Prop :=
  PlainName signature ∧ signature ≠ "genesis" ∧ signature ≠ "holding"

instance (signature : String) : Decidable (PlainSignature signature) :=
  inferInstanceAs (Decidable (_ ∧ _ ∧ _))

theorem split_first {sep : Char} : ∀ {x y u v : List Char}, sep ∉ x → sep ∉ y →
    x ++ sep :: u = y ++ sep :: v → x = y ∧ u = v
  | [], [], _, _, _, _, h => ⟨rfl, (List.cons.inj h).2⟩
  | [], c :: _, _, _, _, hy, h => absurd ((List.cons.inj h).1 ▸ List.mem_cons_self) hy
  | c :: _, [], _, _, hx, _, h => absurd ((List.cons.inj h).1 ▸ List.mem_cons_self) hx
  | c :: x, c' :: y, _, _, hx, hy, h => by
    obtain ⟨hc, htail⟩ := List.cons.inj h
    obtain ⟨hxy, huv⟩ := split_first (fun m => hx (List.mem_cons_of_mem _ m))
      (fun m => hy (List.mem_cons_of_mem _ m)) htail
    exact ⟨congrArg₂ List.cons hc hxy, huv⟩

theorem join_inj {a b c d : String} (ha : PlainName a) (hc : PlainName c)
    (h : a ++ ":" ++ b = c ++ ":" ++ d) : a = c ∧ b = d := by
  have hlist : a.toList ++ ':' :: b.toList = c.toList ++ ':' :: d.toList := by
    have := congrArg String.toList h
    simpa [String.toList_append] using this
  obtain ⟨hac, hbd⟩ := split_first ha hc hlist
  exact ⟨String.toList_injective hac, String.toList_injective hbd⟩

theorem join_not_plain (a b : String) : ¬ PlainName (a ++ ":" ++ b) := by
  simp [PlainName, String.toList_append]

/-- What a round key names: the acquisition that opened the round, the first or a later gap of
its mint, or a holding with no history. -/
inductive KeyOrigin where
  | grounded (signature mint : String)
  | bareGenesis (mint : String)
  | gapGenesis (signature mint : String)
  | holding (mint : String)

namespace KeyOrigin

def render : KeyOrigin → String
  | grounded signature mint => signature ++ ":" ++ mint
  | bareGenesis mint => "genesis" ++ ":" ++ mint
  | gapGenesis signature mint => "genesis" ++ ":" ++ (signature ++ ":" ++ mint)
  | holding mint => "genesis" ++ ":" ++ ("holding" ++ ":" ++ mint)

def WellNamed : KeyOrigin → Prop
  | grounded signature mint => PlainSignature signature ∧ PlainName mint
  | bareGenesis mint => PlainName mint
  | gapGenesis signature mint => PlainSignature signature ∧ PlainName mint
  | holding mint => PlainName mint

/-- Well-named origins are told apart by their keys. -/
theorem render_inj {o o' : KeyOrigin} (h : o.WellNamed) (h' : o'.WellNamed)
    (heq : o.render = o'.render) : o = o' := by
  have hg : PlainName "genesis" := by decide
  have hh : PlainName "holding" := by decide
  cases o with
  | grounded s m =>
    cases o' with
    | grounded s' m' =>
      obtain ⟨rfl, rfl⟩ := join_inj h.1.1 h'.1.1 heq
      rfl
    | bareGenesis m' => exact absurd (join_inj h.1.1 hg heq).1 h.1.2.1
    | gapGenesis s' m' => exact absurd (join_inj h.1.1 hg heq).1 h.1.2.1
    | holding m' => exact absurd (join_inj h.1.1 hg heq).1 h.1.2.1
  | bareGenesis m =>
    have h : PlainName m := h
    cases o' with
    | grounded s' m' => exact absurd (join_inj hg h'.1.1 heq).1.symm h'.1.2.1
    | bareGenesis m' =>
      obtain ⟨-, rfl⟩ := join_inj hg hg heq
      rfl
    | gapGenesis s' m' => exact absurd ((join_inj hg hg heq).2 ▸ h) (join_not_plain _ _)
    | holding m' => exact absurd ((join_inj hg hg heq).2 ▸ h) (join_not_plain _ _)
  | gapGenesis s m =>
    cases o' with
    | grounded s' m' => exact absurd (join_inj hg h'.1.1 heq).1.symm h'.1.2.1
    | bareGenesis m' =>
      have h' : PlainName m' := h'
      exact absurd ((join_inj hg hg heq).2.symm ▸ h') (join_not_plain _ _)
    | gapGenesis s' m' =>
      obtain ⟨rfl, rfl⟩ := join_inj h.1.1 h'.1.1 (join_inj hg hg heq).2
      rfl
    | holding m' => exact absurd (join_inj h.1.1 hh (join_inj hg hg heq).2).1 h.1.2.2
  | holding m =>
    cases o' with
    | grounded s' m' => exact absurd (join_inj hg h'.1.1 heq).1.symm h'.1.2.1
    | bareGenesis m' =>
      have h' : PlainName m' := h'
      exact absurd ((join_inj hg hg heq).2.symm ▸ h') (join_not_plain _ _)
    | gapGenesis s' m' =>
      exact absurd (join_inj hh h'.1.1 (join_inj hg hg heq).2).1.symm h'.1.2.2
    | holding m' =>
      obtain ⟨-, rfl⟩ := join_inj hh hh (join_inj hg hg heq).2
      rfl

/-- The origins a reduction has spent: those of the deltas it folded, and the bare key of each
mint with a gap. -/
def SpentBy (done : List SubjectAssetDelta) (genesisUsed : List String) : KeyOrigin → Prop
  | grounded signature mint => (signature, mint) ∈ done.map fun d => (d.signature, d.mint)
  | bareGenesis mint => mint ∈ genesisUsed
  | gapGenesis signature mint => (signature, mint) ∈ done.map fun d => (d.signature, d.mint)
  | holding _ => False

end KeyOrigin

theorem groundedKey_render (d : SubjectAssetDelta) :
    groundedKey d = (KeyOrigin.grounded d.signature d.mint).render := rfl

theorem bareGenesisKey_render (mint : String) :
    bareGenesisKey mint = (KeyOrigin.bareGenesis mint).render := rfl

theorem gapGenesisKey_render (d : SubjectAssetDelta) :
    gapGenesisKey d = (KeyOrigin.gapGenesis d.signature d.mint).render := by
  simp only [gapGenesisKey, KeyOrigin.render, ← String.append_assoc]
  rfl

/-- The keys of every round of the reduction, finished or open. -/
def Tracking.keys (t : Tracking) : List String :=
  t.ended.map (·.life.round.roundKey) ++ (values t.openLives).map (·.round.roundKey)

/-- A step adds the key of the round its delta is folded into, if that round is new. -/
theorem Tracking.step_keys (t : Tracking) (s : ReductionStep) :
    (t.step s).keys.Perm (if startsFromZero s.delta = true ∨ t.openLives.lookup s.delta.mint = none
      then (t.lifeFor s.delta).round.roundKey :: t.keys else t.keys) := by
  have hkey : ((t.lifeFor s.delta).fold s).round.roundKey = (t.lifeFor s.delta).round.roundKey :=
    Round.apply_roundKey _ _ _
  let rest := (values (t.openLives.erase s.delta.mint)).map (·.round.roundKey)
  let ended := t.ended.map (·.life.round.roundKey)
  let stale := (t.staleFor s.delta).map (·.life.round.roundKey)
  have hstep : (t.step s).keys.Perm
      ((t.lifeFor s.delta).round.roundKey :: (ended ++ stale ++ rest)) := by
    unfold step keys
    dsimp only
    split
    · simp only [List.map_append, List.map_cons, List.map_nil, hkey, List.append_assoc,
        List.singleton_append]
      rw [← List.append_assoc, ← List.append_assoc]
      exact List.perm_middle
    · simp only [values_insert, List.map_append, List.map_cons, hkey]
      exact List.perm_middle
  have hold : t.keys.Perm (ended ++
      (((t.openLives.lookup s.delta.mint).map (·.round.roundKey)).toList ++ rest)) := by
    refine List.Perm.append_left ended ?_
    cases hl : t.openLives.lookup s.delta.mint with
    | none => rw [Option.map_none, Option.toList_none, List.nil_append, ← erase_of_lookup_none hl]
    | some life => exact (values_perm_of_lookup hl).map _
  split
  next h =>
    have hstale : stale = if startsFromZero s.delta then
        ((t.openLives.lookup s.delta.mint).map (·.round.roundKey)).toList else [] := by
      simp only [stale, staleFor]
      split
      · cases t.openLives.lookup s.delta.mint <;> rfl
      · rfl
    have hsame : stale = ((t.openLives.lookup s.delta.mint).map (·.round.roundKey)).toList := by
      rw [hstale]
      rcases h with h | h
      · rw [if_pos h]
      · simp [h]
    rw [hsame, List.append_assoc] at hstep
    exact hstep.trans (hold.symm.cons _)
  next h =>
    obtain ⟨hz, hl⟩ := not_or.mp h
    obtain ⟨life, hl⟩ := Option.ne_none_iff_exists'.mp hl
    have hlife : t.lifeFor s.delta = life := by simp [lifeFor, hz, hl]
    have hstale : stale = [] := by simp [stale, staleFor, hz]
    rw [hlife, hstale, List.append_nil] at hstep
    rw [hl] at hold
    exact hstep.trans (List.perm_middle.symm.trans hold.symm)

/-- The keys given so far: pairwise distinct, each spent by a delta folded so far. -/
structure Tracking.KeysDistinct (done : List SubjectAssetDelta) (t : Tracking) : Prop where
  nodup : t.keys.Nodup
  spent : ∀ key ∈ t.keys, ∃ o :
    KeyOrigin, o.render = key ∧ o.WellNamed ∧ o.SpentBy done t.genesisUsed

/-- Names as the chain writes them: no separator in them, and no signature a key prefix. -/
def SubjectAssetDelta.PlainNames (d : SubjectAssetDelta) : Prop :=
  PlainSignature d.signature ∧ PlainName d.mint

instance (d : SubjectAssetDelta) : Decidable d.PlainNames := inferInstanceAs (Decidable (_ ∧ _))

theorem KeyOrigin.SpentBy.mono {o : KeyOrigin} {done done' : List SubjectAssetDelta}
    {used used' : List String} (h : o.SpentBy done used) (hdone : done ⊆ done')
    (hused : used ⊆ used') :
    o.SpentBy done' used' := by
  cases o with
  | grounded s m => exact List.map_subset _ hdone h
  | bareGenesis m => exact hused h
  | gapGenesis s m => exact List.map_subset _ hdone h
  | holding m => exact h

/-- The origin of the round a delta opens, which nothing before the delta has spent. -/
theorem Tracking.fresh_origin {t : Tracking} {done : List SubjectAssetDelta} {d : SubjectAssetDelta}
    (hplain : d.PlainNames)
    (hnew : (d.signature, d.mint) ∉ done.map fun d => (d.signature, d.mint))
    (h : startsFromZero d = true ∨ t.openLives.lookup d.mint = none) :
    ∃ o : KeyOrigin, o.render = (t.lifeFor d).round.roundKey ∧ o.WellNamed ∧
      ¬ o.SpentBy done t.genesisUsed ∧ o.SpentBy (done ++ [d]) (t.spendGenesis d) := by
  have hspent : (d.signature, d.mint) ∈ (done ++ [d]).map fun d => (d.signature, d.mint) := by simp
  cases hz : startsFromZero d with
  | true => exact ⟨.grounded d.signature d.mint, by simp [lifeFor, hz, Round.grounded,
      groundedKey_render], hplain, hnew, hspent⟩
  | false =>
    have hl : t.openLives.lookup d.mint = none := h.resolve_left (by simp [hz])
    have hkey : (t.lifeFor d).round.roundKey = t.genesisKey d := by
      simp only [lifeFor, hz, hl]
      exact congrArg Prod.snd (Round.genesis_identity d _)
    by_cases hu : d.mint ∈ t.genesisUsed
    · refine ⟨.gapGenesis d.signature d.mint, ?_, hplain, hnew, hspent⟩
      rw [hkey, genesisKey, if_pos hu, gapGenesisKey_render]
    · refine ⟨.bareGenesis d.mint, ?_, hplain.2, hu, ?_⟩
      · rw [hkey, genesisKey, if_neg hu, bareGenesisKey_render]
      · show d.mint ∈ t.spendGenesis d
        rw [spendGenesis, if_pos ⟨hz, hl, hu⟩]
        exact List.mem_cons_self

theorem Tracking.spendGenesis_subset (t : Tracking) (d : SubjectAssetDelta) :
    t.genesisUsed ⊆ t.spendGenesis d := by
  unfold spendGenesis
  split
  · exact List.subset_cons_self _ _
  · exact List.Subset.refl _

/-- One more delta, not folded before, keeps the keys distinct. -/
theorem Tracking.step_keysDistinct {t : Tracking} {done : List SubjectAssetDelta}
    {s : ReductionStep}
    (h : t.KeysDistinct done) (hplain : s.delta.PlainNames)
    (hnew : (s.delta.signature, s.delta.mint) ∉ done.map fun d => (d.signature, d.mint)) :
    (t.step s).KeysDistinct (done ++ [s.delta]) := by
  have hused : (t.step s).genesisUsed = t.spendGenesis s.delta := by
    unfold step
    dsimp only
    split <;> rfl
  have hold : ∀ key ∈ t.keys, ∃ o : KeyOrigin, o.render = key ∧ o.WellNamed ∧
      o.SpentBy (done ++ [s.delta]) (t.spendGenesis s.delta) := by
    intro key hkey
    obtain ⟨o, hr, hw, hs⟩ := h.spent key hkey
    exact ⟨o, hr, hw, hs.mono (List.subset_append_left _ _) (t.spendGenesis_subset s.delta)⟩
  have hperm := t.step_keys s
  split at hperm
  next hfresh =>
    obtain ⟨o, hr, hw, hunspent, hspent⟩ := t.fresh_origin hplain hnew hfresh
    refine ⟨hperm.nodup_iff.mpr (List.nodup_cons.mpr ⟨fun hmem => ?_, h.nodup⟩), fun key hkey => ?_⟩
    · obtain ⟨o', hr', hw', hs'⟩ := h.spent _ hmem
      exact hunspent (KeyOrigin.render_inj hw' hw (hr'.trans hr.symm) ▸ hs')
    · rw [hused]
      rcases List.mem_cons.mp (hperm.mem_iff.mp hkey) with rfl | hkey
      · exact ⟨o, hr, hw, hspent⟩
      · exact hold key hkey
  next =>
    refine ⟨hperm.nodup_iff.mpr h.nodup, fun key hkey => ?_⟩
    rw [hused]
    exact hold key (hperm.mem_iff.mp hkey)

/-- The whole reduction gives pairwise distinct keys. -/
theorem track_keysDistinct {deltas : List SubjectAssetDelta}
    (hplain : ∀ d ∈ deltas, d.PlainNames)
    (hkeys : (deltas.map fun d => (d.signature, d.mint)).Nodup) :
    (track deltas).KeysDistinct ((reductionSteps deltas).map (·.delta)) := by
  have hsteps : ((reductionSteps deltas).map fun s => (s.delta.signature, s.delta.mint)).Nodup := by
    have hordered : ((orderedDeltas deltas).map fun d => (d.signature, d.mint)).Nodup :=
      ((sortBy_perm deltaOrder _).map _).nodup_iff.mpr
        (hkeys.sublist (List.filter_sublist.map _))
    have hmap : (reductionSteps deltas).map (fun s => (s.delta.signature, s.delta.mint)) =
        ((orderedDeltas deltas).filter isReduced).map fun d => (d.signature, d.mint) := by
      rw [← reductionSteps_deltas, List.map_map]
      rfl
    rw [hmap]
    exact hordered.sublist (List.filter_sublist.map _)
  refine run_history Tracking.step (fun done t => t.KeysDistinct (done.map (·.delta)))
    (reductionSteps deltas) _ [] .empty rfl ⟨List.nodup_nil, fun key h => by cases h⟩ ?_
  intro done s rest t hall h
  rw [List.map_append, List.map_singleton]
  refine Tracking.step_keysDistinct h (hplain _ (reductionSteps_mem ?_).1) ?_
  · rw [hall]
    simp
  · rw [hall, List.map_append, List.map_cons] at hsteps
    have := (List.nodup_append.mp hsteps).2.2
    rw [List.map_map]
    exact fun hmem => this _ hmem _ List.mem_cons_self rfl

theorem Ended.ledgerRound_roundKey (e : Ended) :
    e.ledgerRound.roundKey = e.life.round.roundKey := by
  unfold ledgerRound Round.closeStale
  split
  · rfl
  · split <;> rfl
  · rfl

theorem Ended.ledgerRound_isOpen (e : Ended) :
    e.ledgerRound.isOpen = decide (e.ending = .stillOpen) := by
  obtain ⟨life, ending⟩ := e
  cases ending with
  | emptied => rfl
  | stale =>
    simp only [ledgerRound, Round.closeStale]
    split <;> rfl
  | stillOpen => rfl

/-- The reported rounds carry the keys the reduction gave. -/
theorem reduceRounds_keys (deltas : List SubjectAssetDelta) :
    ((reduceRounds deltas).map (·.roundKey)).Perm (track deltas).keys := by
  have hkey : (·.roundKey) ∘ Ended.ledgerRound = fun e : Ended => e.life.round.roundKey :=
    funext Ended.ledgerRound_roundKey
  rw [reduceRounds_eq_lifecycles, List.map_map, hkey, lifecycles]
  refine ((sortBy_perm _ _).map _).trans ?_
  rw [List.map_append, List.map_map]
  exact List.Perm.refl _

theorem reduceRounds_open {deltas : List SubjectAssetDelta} {r : LedgerRound}
    (hr : r ∈ reduceRounds deltas) (ho : r.isOpen = true) : 0 < r.balanceRaw := by
  rw [reduceRounds_eq_lifecycles] at hr
  obtain ⟨e, he, rfl⟩ := List.mem_map.mp hr
  rw [Ended.ledgerRound_isOpen, decide_eq_true_eq] at ho
  obtain ⟨life, ending⟩ := e
  subst ho
  have hb : 0 < life.round.balance := ((lifecycles_balance he).resolve_left (by simp)).2
  have := Round.finish_balanceRaw hb.le true
  simp only [Ended.ledgerRound]
  omega

/-- The reduction leaves at most one open round per mint. -/
theorem reduceRounds_openMints (deltas : List SubjectAssetDelta) :
    (openMints (reduceRounds deltas)).Nodup := by
  have hfinished : ∀ e ∈ (track deltas).ended, e.ledgerRound.isOpen = false := by
    intro e he
    rw [Ended.ledgerRound_isOpen]
    obtain ⟨p, -, ⟨hs, -⟩ | ⟨rfl, -⟩⟩ := mem_track_ended.mp he <;> simp_all
  have hperm : (openMints (reduceRounds deltas)).Perm
      ((values (track deltas).openLives).map (·.round.mint)) := by
    rw [reduceRounds, collect, ← view_track]
    refine (((sortBy_perm _ _).filter _).map _).trans ?_
    rw [List.filter_append, List.filter_eq_nil_iff.mpr, List.nil_append]
    · simp [Tracking.view, values_mapVal, List.filter_map, Function.comp_def, Round.finish]
    · intro r hr
      obtain ⟨e, he, rfl⟩ := List.mem_map.mp hr
      simp [hfinished e he]
  have hmints : (values (track deltas).openLives).map (·.round.mint) =
      (track deltas).openLives.keys :=
    values_map_of_keyed _ fun mint life h => (track_openRounds deltas mint life h).1
  rw [hperm.nodup_iff, hmints]
  exact AList.keys_nodup _

/-- What the key of a held mint with no round names. -/
def holdingOrigin (taken : List String) (h : WalletHolding) : KeyOrigin :=
  if taken.contains ("genesis:" ++ h.mint) then .holding h.mint else .bareGenesis h.mint

theorem holdingKey_render (taken : List String) (h : WalletHolding) :
    holdingKey taken h = (holdingOrigin taken h).render := by
  unfold holdingKey holdingOrigin
  dsimp only
  split
  · simp only [KeyOrigin.render, ← String.append_assoc]
    rfl
  · rfl

theorem holdingOrigin_wellNamed {taken : List String} {h : WalletHolding}
    (hplain : PlainName h.mint) :
    (holdingOrigin taken h).WellNamed := by
  unfold holdingOrigin
  split <;> exact hplain

theorem holdingOrigin_mint {taken : List String} {h h' : WalletHolding}
    (heq : holdingOrigin taken h = holdingOrigin taken h') : h.mint = h'.mint := by
  unfold holdingOrigin at heq
  split at heq <;> split at heq <;> simp_all

/-- A held mint with no round is given a key no reduced round has. -/
theorem holdingKey_fresh {taken : List String} {h : WalletHolding} (hplain : PlainName h.mint)
    (hspent : ∀ key ∈ taken, ∃ o : KeyOrigin, o.render = key ∧ o.WellNamed ∧
      ∃ done used, o.SpentBy done used) : holdingKey taken h ∉ taken := by
  intro hmem
  by_cases hbare : taken.contains ("genesis:" ++ h.mint)
  · obtain ⟨o, hr, hw, done, used, hs⟩ := hspent _ hmem
    have horigin : holdingOrigin taken h = .holding h.mint := if_pos hbare
    rw [holdingKey_render, horigin] at hr
    have ho : o = .holding h.mint := KeyOrigin.render_inj hw (show PlainName h.mint from hplain) hr
    rw [ho] at hs
    exact hs
  · rw [holdingKey, if_neg hbare] at hmem
    exact hbare (List.contains_iff_mem.mpr hmem)

/-- The reduced rounds, reconciled with the wallet, carry pairwise distinct keys, at most one
open round per mint, and a positive balance in every open round. -/
theorem reconciled_rounds_distinct {deltas : List SubjectAssetDelta} {holdings : List WalletHolding}
    (readSlot : Option ℕ) (hkeys : (deltas.map fun d => (d.signature, d.mint)).Nodup)
    (hmints : (holdings.map (·.mint)).Nodup) (hplain : ∀ d ∈ deltas, d.PlainNames)
    (hheld : ∀ h ∈ holdings, PlainName h.mint) :
    ((reconcileWithWallet (reduceRounds deltas) holdings readSlot).map (·.roundKey)).Nodup ∧
      (openMints (reconcileWithWallet (reduceRounds deltas) holdings readSlot)).Nodup ∧
      ∀ r ∈ reconcileWithWallet (reduceRounds deltas) holdings readSlot, r.isOpen = true →
        0 < r.balanceRaw := by
  refine ⟨?_, openMints_nodup (reduceRounds_openMints deltas) hmints, fun r hr ho => ?_⟩
  · have htrack := track_keysDistinct hplain hkeys
    have hperm := reduceRounds_keys deltas
    have htaken : ((reduceRounds deltas).map (reconcileRound holdings readSlot)).map (·.roundKey) =
        (reduceRounds deltas).map (·.roundKey) := by
      simp [Function.comp_def]
    simp only [reconcileWithWallet]
    rw [List.map_append, htaken, List.map_map (f := holdingRound _), List.nodup_append]
    refine ⟨hperm.nodup_iff.mpr htrack.nodup, ?_, ?_⟩
    · have hmissing : ((missingHoldings ((reduceRounds deltas).map
          (reconcileRound holdings readSlot)) holdings).map (·.mint)).Nodup :=
        hmints.sublist (List.filter_sublist.map _)
      refine List.Nodup.map_on (fun h hh h' hh' heq => ?_) hmissing.of_map
      have hw (taken : List String) : (holdingOrigin taken h).WellNamed :=
        holdingOrigin_wellNamed (hheld h (mem_missingHoldings.mp hh).1)
      have hw' (taken : List String) : (holdingOrigin taken h').WellNamed :=
        holdingOrigin_wellNamed (hheld h' (mem_missingHoldings.mp hh').1)
      have heq : holdingKey _ h = holdingKey _ h' := heq
      rw [holdingKey_render, holdingKey_render] at heq
      exact List.inj_on_of_nodup_map hmissing hh hh'
        (holdingOrigin_mint (KeyOrigin.render_inj (hw _) (hw' _) heq))
    · rintro key hkey key' hkey' rfl
      obtain ⟨h, hh, rfl⟩ := List.mem_map.mp hkey'
      refine holdingKey_fresh (hheld h (mem_missingHoldings.mp hh).1) (fun key hkey => ?_) hkey
      obtain ⟨o, hr, hw, hs⟩ := htrack.spent key (hperm.mem_iff.mp hkey)
      exact ⟨o, hr, hw, _, _, hs⟩
  · rcases mem_reconcileWithWallet.mp hr with ⟨r', hr', rfl⟩ | ⟨h, hh, rfl⟩
    · rcases reconcileRound_cases holdings readSlot r' with ⟨he, -⟩ | ⟨-, -, -, hopen, hbal⟩
      · rw [he] at ho ⊢
        exact reduceRounds_open hr' ho
      · rw [hopen, decide_eq_true_eq] at ho
        rw [hbal]
        omega
    · exact (mem_missingHoldings.mp hh).2.1

/-- A gap in a mint's history and then a buy of it, under the given signature. -/
def gapThenBuy (signature : String) : List SubjectAssetDelta :=
  let sale : SubjectAssetDelta :=
    { signature := "s1", mint := "mintA", slot := some 7, blockTime := some 70, txIndex := 0
      deltaRaw := -3, beforeRaw := some 3, afterRaw := some 0, decimals := 0, kind := .trade
      venue := none, success := true }
  [sale, { sale with
    signature, slot := some 8, deltaRaw := 5, beforeRaw := some 0, afterRaw := some 5 }]

theorem reconciled_rounds_distinct_gap :
    ((reconcileWithWallet (reduceRounds (gapThenBuy "s2")) walletHoldings none).map
        (·.roundKey)).Nodup ∧
      (openMints (reconcileWithWallet (reduceRounds (gapThenBuy "s2")) walletHoldings none)).Nodup ∧
      ∀ r ∈ reconcileWithWallet (reduceRounds (gapThenBuy "s2")) walletHoldings none,
        r.isOpen = true → 0 < r.balanceRaw :=
  reconciled_rounds_distinct none (by decide) (by decide) (by decide) (by decide)

/-- A signature that spells a key prefix gives a buy the key of the gap before it. -/
theorem prefix_signature_collides :
    ¬ ∀ (deltas : List SubjectAssetDelta) (holdings : List WalletHolding) (readSlot : Option ℕ),
      (deltas.map fun d => (d.signature, d.mint)).Nodup → (holdings.map (·.mint)).Nodup →
        ((reconcileWithWallet (reduceRounds deltas) holdings readSlot).map (·.roundKey)).Nodup := by
  intro h
  have hbad := h (gapThenBuy "genesis") [] none (by decide) (by decide)
  revert hbad
  decide

end ScreenerBot.Ledger
