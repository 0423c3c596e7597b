import Mathlib

/-! Association lists with non-dependent values: their values, and a change of payload. -/
namespace ScreenerBot.Library

variable {α β γ : Type*}

def values (s : AList fun _ : α => β) : List β := s.entries.map Sigma.snd

/-- The same keys carrying `f` of their values. -/
def mapVal (f : β → γ) (s : AList fun _ : α => β) : AList fun _ : α => γ where
  entries := s.entries.map fun e => ⟨e.1, f e.2⟩
  nodupKeys := by
    have hkeys : (s.entries.map fun e => (⟨e.1, f e.2⟩ : Σ _ : α, γ)).keys = s.entries.keys := by
      simp [List.keys, Function.comp_def]
    rw [List.NodupKeys, hkeys]
    exact s.nodupKeys

theorem values_mapVal (f : β → γ) (s : AList fun _ : α => β) :
    values (mapVal f s) = (values s).map f := by
  simp [values, mapVal, Function.comp_def]

variable [DecidableEq α]

theorem mem_values {s : AList fun _ : α => β} {b : β} :
    b ∈ values s ↔ ∃ a, s.lookup a = some b := by
  simp only [values, List.mem_map, Sigma.exists, exists_eq_right]
  exact exists_congr fun a => (AList.mem_lookup_iff (s := s)).symm

/-- Values that carry their own key, under pairwise distinct keys. -/
theorem values_map_of_keyed (f : β → α) {s : AList fun _ : α => β}
    (h : ∀ a b, s.lookup a = some b → f b = a) : (values s).map f = s.keys := by
  simp only [values, AList.keys, List.keys, List.map_map]
  refine List.map_congr_left fun e he => ?_
  exact h e.1 e.2 (AList.mem_lookup_iff.mpr he)

/-- A value that carries its own key is looked up under it. -/
theorem lookup_iff_of_keyed {f : β → α} {s : AList fun _ : α => β}
    (h : ∀ a b, s.lookup a = some b → f b = a) {a : α} {b : β} :
    s.lookup a = some b ↔ b ∈ values s ∧ f b = a := by
  rw [mem_values]
  constructor
  · exact fun hlookup => ⟨⟨a, hlookup⟩, h a b hlookup⟩
  · rintro ⟨⟨a', hlookup⟩, rfl⟩
    rw [h a' b hlookup]
    exact hlookup

theorem lookup_mapVal (f : β → γ) (s : AList fun _ : α => β) (a : α) :
    (mapVal f s).lookup a = (s.lookup a).map f := by
  simp only [AList.lookup, mapVal]
  induction s.entries with
  | nil => rfl
  | cons e es ih =>
    obtain ⟨a', b⟩ := e
    by_cases h : a = a'
    · subst h
      simp [List.dlookup_cons_eq]
    · simp [List.dlookup_cons_ne, h, ih]

theorem mapVal_erase (f : β → γ) (s : AList fun _ : α => β) (a : α) :
    mapVal f (s.erase a) = (mapVal f s).erase a := by
  apply AList.ext
  simp only [mapVal, AList.erase, List.kerase, List.eraseP_map]
  rfl

theorem mapVal_insert (f : β → γ) (s : AList fun _ : α => β) (a : α) (b : β) :
    mapVal f (s.insert a b) = (mapVal f s).insert a (f b) := by
  apply AList.ext
  simp only [mapVal, AList.insert, List.kinsert, List.kerase, List.map_cons, List.eraseP_map]
  rfl

theorem erase_insert (s : AList fun _ : α => β) (a : α) (b : β) :
    (s.insert a b).erase a = s.erase a := by
  apply AList.ext
  simp [AList.erase, AList.insert, List.kinsert, List.kerase_cons_eq]

theorem values_insert (s : AList fun _ : α => β) (a : α) (b : β) :
    values (s.insert a b) = b :: values (s.erase a) := rfl

theorem erase_of_lookup_none {s : AList fun _ : α => β} {a : α} (h : s.lookup a = none) :
    s.erase a = s :=
  AList.ext (List.kerase_of_notMem_keys (AList.lookup_eq_none.mp h))

/-- A value stands beside the values of the other keys. -/
theorem values_perm_of_lookup {s : AList fun _ : α => β} {a : α} {b : β}
    (h : s.lookup a = some b) : (values s).Perm (b :: values (s.erase a)) := by
  have hkey : a ∈ s.entries.keys := AList.mem_keys.mp (AList.lookup_isSome.mp (by rw [h]; rfl))
  obtain ⟨b', front, back, -, hs, hrest⟩ := List.exists_of_kerase hkey
  have hmem : (⟨a, b'⟩ : Σ _ : α, β) ∈ s.entries := by rw [hs]; simp
  have hb : b' = b := by
    have := AList.mem_lookup_iff.mpr hmem
    rw [h] at this
    exact (Option.some.inj this).symm
  subst hb
  have herase : values (s.erase a) = (front ++ back).map Sigma.snd := by rw [← hrest]; rfl
  rw [herase, values, hs, List.map_append, List.map_append, List.map_cons]
  exact List.perm_middle

/-- The value at a key comes from an insertion there or was there before. -/
theorem lookup_insert_cases {s : AList fun _ : α => β} {a a' : α} {b b' : β}
    (h : (s.insert a b).lookup a' = some b') :
    (a' = a ∧ b' = b) ∨ (a' ≠ a ∧ s.lookup a' = some b') := by
  by_cases e : a' = a
  · subst e
    rw [AList.lookup_insert] at h
    exact .inl ⟨rfl, (Option.some.inj h).symm⟩
  · rw [AList.lookup_insert_ne e] at h
    exact .inr ⟨e, h⟩

theorem lookup_erase_cases {s : AList fun _ : α => β} {a a' : α} {b' : β}
    (h : (s.erase a).lookup a' = some b') : a' ≠ a ∧ s.lookup a' = some b' := by
  by_cases e : a' = a
  · subst e
    rw [AList.lookup_erase] at h
    cases h
  · rw [AList.lookup_erase_ne e] at h
    exact ⟨e, h⟩

/-- The values counted by a key of theirs, less the one at `a`. -/
theorem count_values_of_lookup [DecidableEq γ] (f : β → γ) {s : AList fun _ : α => β}
    {a : α} {b : β}
    (h : s.lookup a = some b) (c : γ) :
    ((values s).map f).count c = ((values (s.erase a)).map f).count c + if f b =
      c then 1 else 0 := by
  rw [((values_perm_of_lookup h).map f).count_eq c, List.map_cons, List.count_cons]
  simp

/-- Lists with the same lookups hold the same values. -/
theorem values_perm_of_lookups {s t : AList fun _ : α => β} (h : ∀ a, s.lookup a = t.lookup a) :
    (values s).Perm (values t) := by
  refine List.Perm.map Sigma.snd (List.lookup_ext s.nodupKeys t.nodupKeys fun a b => ?_)
  have ha := h a
  simp only [AList.lookup] at ha
  rw [ha]

/-- The values kept and those left out are all the values. -/
theorem count_filter_add [DecidableEq γ] (f : β → γ) (p : β → Bool) (l : List β) (c : γ) :
    ((l.filter p).map f).count c + ((l.filter fun b => !p b).map f).count c =
    (l.map f).count c := by
  rw [← List.count_append, ← List.map_append]
  exact ((List.filter_append_perm p l).map f).count_eq c

/-- The keys whose values satisfy `p`. -/
def retain (p : β → Bool) (s : AList fun _ : α => β) : AList fun _ : α => β where
  entries := s.entries.filter fun e => p e.2
  nodupKeys := s.nodupKeys.sublist List.filter_sublist

theorem lookup_retain_eq_some {p : β → Bool} {s : AList fun _ : α => β} {a : α} {b : β} :
    (retain p s).lookup a = some b ↔ s.lookup a = some b ∧ p b = true := by
  rw [← Option.mem_def, AList.mem_lookup_iff, ← Option.mem_def, AList.mem_lookup_iff]
  exact List.mem_filter

omit [DecidableEq α] in

theorem values_retain (p : β → Bool) (s : AList fun _ : α => β) :
    values (retain p s) = (values s).filter p := by
  simp [values, retain, List.filter_map, Function.comp_def]

omit [DecidableEq α] in

theorem retain_eq_self {p : β → Bool} {s : AList fun _ : α => β} (h : ∀ b ∈ values s, p b = true) :
    retain p s = s :=
  AList.ext (List.filter_eq_self.mpr fun e he => h e.2 (List.mem_map_of_mem he))

/-- The keys that satisfy `p`, with their values. -/
def retainKeys (p : α → Bool) (s : AList fun _ : α => β) : AList fun _ : α => β where
  entries := s.entries.filter fun e => p e.1
  nodupKeys := s.nodupKeys.sublist List.filter_sublist

theorem lookup_retainKeys_eq_some {p : α → Bool} {s : AList fun _ : α => β} {a : α} {b : β} :
    (retainKeys p s).lookup a = some b ↔ s.lookup a = some b ∧ p a = true := by
  rw [← Option.mem_def, AList.mem_lookup_iff, ← Option.mem_def, AList.mem_lookup_iff]
  exact List.mem_filter

/-- The same keys, each carrying `f` of itself and its value. -/
def mapWithKey (f : α → β → β) (s : AList fun _ : α => β) : AList fun _ : α => β where
  entries := s.entries.map fun e => ⟨e.1, f e.1 e.2⟩
  nodupKeys := by
    have hkeys : (s.entries.map fun e => (⟨e.1, f e.1 e.2⟩ : Σ _ : α, β)).keys =
        s.entries.keys := by
      simp [List.keys, Function.comp_def]
    rw [List.NodupKeys, hkeys]
    exact s.nodupKeys

theorem lookup_mapWithKey (f : α → β → β) (s : AList fun _ : α => β) (a : α) :
    (mapWithKey f s).lookup a = (s.lookup a).map (f a) := by
  simp only [AList.lookup, mapWithKey]
  induction s.entries with
  | nil => rfl
  | cons e es ih =>
    obtain ⟨a', b⟩ := e
    by_cases h : a = a'
    · subst h
      simp [List.dlookup_cons_eq]
    · simp [List.dlookup_cons_ne, h, ih]

/-- A list of values that carry their key, inserted in turn. -/
def insertAll (f : β → α) (l : List β) (s : AList fun _ : α => β) : AList fun _ : α => β :=
  l.foldl (fun s b => s.insert (f b) b) s

theorem values_insertAll (f : β → α) (l : List β) : ∀ s : AList fun _ : α => β,
    (l.map f).Nodup → (∀ b ∈ l, s.lookup (f b) = none) →
      (values (insertAll f l s)).Perm (l ++ values s) := by
  induction l with
  | nil => intro s _ _; exact List.Perm.refl _
  | cons b l ih =>
    intro s hnodup hnone
    obtain ⟨hnew, hnodup⟩ := List.nodup_cons.mp hnodup
    have hrest := ih (s.insert (f b) b) hnodup (by
      intro c hc
      have hne : f c ≠ f b := fun h => hnew (h ▸ List.mem_map_of_mem hc)
      rw [AList.lookup_insert_ne hne]
      exact hnone c (List.mem_cons_of_mem b hc))
    rw [values_insert, erase_of_lookup_none (hnone b List.mem_cons_self)] at hrest
    exact hrest.trans List.perm_middle

theorem lookup_insertAll {f : β → α} {l : List β} : ∀ {s : AList fun _ : α => β} {a : α} {b : β},
    (insertAll f l s).lookup a = some b → (f b = a ∧ b ∈ l) ∨ s.lookup a = some b := by
  induction l with
  | nil => intro s a b h; exact .inr h
  | cons c l ih =>
    intro s a b h
    rcases ih h with ⟨hkey, hmem⟩ | h
    · exact .inl ⟨hkey, List.mem_cons_of_mem c hmem⟩
    · rcases lookup_insert_cases h with ⟨rfl, rfl⟩ | ⟨-, h⟩
      · exact .inl ⟨rfl, List.mem_cons_self⟩
      · exact .inr h

/-- The sum of what each key and its value count for. -/
def entrySum {M : Type*} [AddCommMonoid M] (f : α → β → M) (s : AList fun _ : α => β) : M :=
  (s.entries.map fun e => f e.1 e.2).sum

theorem entrySum_insert {M : Type*} [AddCommMonoid M] (f : α → β → M)
    (s : AList fun _ : α => β) (a : α) (b : β) :
    entrySum f (s.insert a b) = f a b + entrySum f (s.erase a) := by
  simp [entrySum, AList.insert, AList.erase, List.kinsert]

/-- A key counts for what it holds. -/
theorem entrySum_lookup {M : Type*} [AddCommMonoid M] (f : α → β → M)
    (s : AList fun _ : α => β) (a : α) :
    entrySum f s = (s.lookup a).elim 0 (f a) + entrySum f (s.erase a) := by
  cases h : s.lookup a with
  | none => rw [erase_of_lookup_none h, Option.elim_none, zero_add]
  | some b =>
    have hperm : s.entries.Perm ((s.erase a).insert a b).entries := by
      refine List.lookup_ext s.nodupKeys (AList.nodupKeys _) ?_
      intro x y
      change y ∈ s.lookup x ↔ y ∈ ((s.erase a).insert a b).lookup x
      by_cases hx : x = a
      · rw [hx, AList.lookup_insert, h]
      · rw [AList.lookup_insert_ne hx, AList.lookup_erase_ne hx]
    have hinsert := entrySum_insert f (s.erase a) a b
    rw [erase_of_lookup_none (AList.lookup_erase a s)] at hinsert
    rw [Option.elim_some, ← hinsert]
    exact (hperm.map fun e => f e.1 e.2).sum_eq

end ScreenerBot.Library
