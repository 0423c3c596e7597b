import ScreenerBot.Watch.Worker

/-! What the funnel keeps: a signature is published once, and dealt with when the funnel says so. -/
namespace ScreenerBot.Watch
open Library

variable {κ : Type}

namespace WatchStore

variable (history : List SignaturePageItem) (own : Bool)

/-- The signature is known, failed on an external target, or lies before the first baseline. -/
def Settled (s : WatchStore κ) (item : SignaturePageItem) : Prop :=
  item.signature ∈ s.known ∨ (item.failed = true ∧ own = false) ∨
    item.signature ∈ s.baselined.getD []

/-- Every signature up to this one is settled. -/
def SettledTo (s : WatchStore κ) (signature : String) : Prop :=
  signature ∈ history.map (·.signature) ∧ ∀ x ∈ upTo history signature, s.Settled own x

/-- Every signature up to the durable cursor is settled. -/
def Covered (s : WatchStore κ) : Prop :=
  ∀ signature, s.cursor = some (some signature) → s.SettledTo history own signature

/-- A published signature is known, and published once. -/
structure Once (s : WatchStore κ) : Prop where
  distinct : (s.published.map (·.signature)).Nodup
  known : ∀ activity ∈ s.published, activity.signature ∈ s.known
  cached : ∀ signature ∈ s.cached, signature ∈ s.known

/-- What holds throughout; the cursor is honest where the exchanges keep it so. -/
def Kept (ok : Prop) (s : WatchStore κ) : Prop := s.Once ∧ (ok → s.Covered history own)

/-- More is known, and the cursor stands where it did. -/
structure Grows (s s' : WatchStore κ) : Prop where
  cursor : s'.cursor = s.cursor
  known : ∀ signature ∈ s.known, signature ∈ s'.known
  baselined : s'.baselined = s.baselined

variable {history own} {s s' t : WatchStore κ}

theorem Grows.refl (s : WatchStore κ) : s.Grows s := ⟨rfl, fun _ h => h, rfl⟩

theorem Grows.trans (h : s.Grows s') (h' : s'.Grows t) : s.Grows t where
  cursor := h'.cursor.trans h.cursor
  known signature hknown := h'.known signature (h.known signature hknown)
  baselined := h'.baselined.trans h.baselined

theorem Settled.grows {item : SignaturePageItem} (h : s.Settled own item) (hgrows : s.Grows s') :
    s'.Settled own item := by
  obtain hknown | hfailed | hbaselined := h
  · exact .inl (hgrows.known _ hknown)
  · exact .inr (.inl hfailed)
  · exact .inr (.inr (hgrows.baselined ▸ hbaselined))

theorem SettledTo.grows {signature : String} (h : s.SettledTo history own signature)
    (hgrows : s.Grows s') : s'.SettledTo history own signature :=
  ⟨h.1, fun x hx => (h.2 x hx).grows hgrows⟩

theorem Covered.grows (h : s.Covered history own) (hgrows : s.Grows s') :
    s'.Covered history own := by
  intro signature hcursor
  rw [hgrows.cursor] at hcursor
  exact (h signature hcursor).grows hgrows

/-- Beside the worker nothing is published. -/
theorem moves_grows (h : Relation.ReflTransGen Moves s s') :
    s.Grows s' ∧ s'.published = s.published := by
  induction h with
  | refl => exact ⟨.refl s, rfl⟩
  | tail _ hmove ih =>
    obtain ⟨hgrows, hsame⟩ := ih
    cases hmove with
    | known =>
      exact ⟨hgrows.trans ⟨rfl, fun _ => List.mem_cons_of_mem _, rfl⟩, hsame⟩
    | evicted => exact ⟨hgrows.trans ⟨rfl, fun _ h => h, rfl⟩, hsame⟩

theorem moves_kept {ok : Prop} (h : s.Kept history own ok) (hmove : Moves s s') :
    s'.Kept history own ok := by
  have hgrows := (moves_grows (.single hmove)).1
  refine ⟨?_, fun hok => (h.2 hok).grows hgrows⟩
  cases hmove with
  | known signature =>
    refine ⟨h.1.distinct, fun a ha => List.mem_cons_of_mem _ (h.1.known a ha), fun key hkey => ?_⟩
    obtain rfl | hkey := List.mem_cons.mp hkey
    · exact List.mem_cons_self
    · exact List.mem_cons_of_mem _ (h.1.cached key hkey)
  | evicted signature =>
    exact ⟨h.1.distinct, h.1.known, fun key hkey => h.1.cached key (List.mem_of_mem_erase hkey)⟩

/-- A signature up to which everything is settled may become the cursor. -/
theorem Kept.setCursor {ok : Prop} (h : s.Kept history own ok) {signature : String}
    (hsettled : ok → s.SettledTo history own signature) :
    Kept history own ok { s with cursor := some (some signature) } := by
  refine ⟨⟨h.1.distinct, h.1.known, h.1.cached⟩, fun hok key hkey => ?_⟩
  cases hkey
  exact hsettled hok

/-- A row without a signature may be inserted. -/
theorem Kept.initialized {ok : Prop} (h : s.Kept history own ok) :
    Kept history own ok { s with cursor := s.cursor.or (some none) } := by
  refine ⟨⟨h.1.distinct, h.1.known, h.1.cached⟩, fun hok key hkey => ?_⟩
  refine h.2 hok key ?_
  cases hcursor : s.cursor with
  | none =>
    rw [hcursor] at hkey
    cases hkey
  | some row =>
    rw [hcursor] at hkey
    exact hkey

end WatchStore

open WatchStore

section Programs

variable {history : List SignaturePageItem} {own : Bool} {ok : Prop} {α β : Type}

/-- Over the stores of the wallet, the program keeps what is to hold and ends in `post`. -/
abbrev Works (history : List SignaturePageItem) (own : Bool) (ok : Prop)
    (post : WatchStore κ → α → Prop) (program : Program (WatchCall κ) α) (s : WatchStore κ) :
      Prop :=
  program.Safe (worker history own).toSurroundings
    (fun s x => ok → s.KeepsUp history own x.effect x.answer)
    (Kept history own ok) post s

/-- A call and what follows its answer. -/
theorem works_call {effect : WatchCall κ α} {f : α → Program (WatchCall κ) β}
    {post : WatchStore κ → β → Prop} {s : WatchStore κ}
    (h : ∀ s₁ a s₂, s.Grows s₁ → s₁.published = s.published → s₁.Kept history own ok →
      s₁.answers history own effect a s₂ → (ok → s₁.KeepsUp history own effect a) →
        s₂.Kept history own ok ∧ Works history own ok post (f a) s₂) :
    Works history own ok post (Program.perform effect >>= f) s := by
  intro s₁ hmoves hkept a s₂ hanswer hallowed
  obtain ⟨hgrows, hpublished⟩ := moves_grows hmoves
  exact h s₁ a s₂ hgrows hpublished hkept hanswer hallowed

/-- A call that changes nothing. -/
theorem works_read {effect : WatchCall κ α} {f : α → Program (WatchCall κ) β}
    {post : WatchStore κ → β → Prop} {s : WatchStore κ}
    (hsame : ∀ (s : WatchStore κ) a s', s.answers history own effect a s' → s' = s)
    (h : ∀ s₁ a, s.Grows s₁ → s₁.published = s.published → s₁.Kept history own ok →
      s₁.answers history own effect a s₁ → (ok → s₁.KeepsUp history own effect a) →
        Works history own ok post (f a) s₁) :
    Works history own ok post (Program.perform effect >>= f) s := by
  apply works_call
  intro s₁ a s₂ hgrows hpublished hkept hanswer hallowed
  obtain rfl := hsame s₁ a s₂ hanswer
  exact ⟨hkept, h s₂ a hgrows hpublished hkept hanswer hallowed⟩

theorem commit_kept {s s' : WatchStore κ} {signature : String} {result : Except Unit Unit}
    (h : s.Kept history own ok) (hanswer : s.answers history own (.commit signature) result s') :
    s'.Kept history own ok ∧ s.Grows s' ∧ s'.published = s.published ∧
      ((∃ done, result = .ok done) → signature ∈ s'.known) := by
  have hgrows (cached : List String) :
      s.Grows { s with known := signature :: s.known, cached := cached } :=
    ⟨rfl, fun _ => List.mem_cons_of_mem _, rfl⟩
  have honce (cached : List String) (hcached : ∀ key ∈ cached, key = signature ∨ key ∈ s.cached) :
      Once { s with known := signature :: s.known, cached := cached } := by
    refine ⟨h.1.distinct, fun a ha => List.mem_cons_of_mem _ (h.1.known a ha), fun key hkey => ?_⟩
    obtain he | hkey := hcached key hkey
    · exact he ▸ List.mem_cons_self
    · exact List.mem_cons_of_mem _ (h.1.cached key hkey)
  obtain ⟨-, rfl⟩ | ⟨⟨error, rfl⟩, rfl | rfl⟩ := hanswer
  · exact ⟨⟨honce _ fun key => List.mem_cons.mp, fun hok => (h.2 hok).grows (hgrows _)⟩,
      hgrows _, rfl,
      fun _ => List.mem_cons_self⟩
  · exact ⟨h, .refl _, rfl, nofun⟩
  · exact ⟨⟨honce _ fun key hkey => .inr hkey, fun hok => (h.2 hok).grows (hgrows _)⟩,
      hgrows _, rfl,
      nofun⟩

/-- What the funnel leaves of a signature it has dealt with. -/
def Funnelled (ok : Prop) (signature : String) (s s' : WatchStore κ) (outcome : ProcessOutcome) :
    Prop :=
  s.Grows s' ∧ (ok → outcome = .terminal → signature ∈ s'.known)

theorem Funnelled.after {signature : String} {s s' t : WatchStore κ} {outcome : ProcessOutcome}
    (hgrows : s.Grows s') (h : Funnelled ok signature s' t outcome) :
    Funnelled ok signature s t outcome := ⟨hgrows.trans h.1, h.2⟩

theorem commitOnly_works {signature : String} (s : WatchStore κ) :
    Works history own ok (Funnelled ok signature s) (commitOnly signature) s := by
  apply works_call
  intro s₁ result s₂ hgrows _ hkept hanswer _
  obtain ⟨hkept₂, hgrows₂, -, hknown⟩ := commit_kept hkept hanswer
  refine ⟨hkept₂, ?_⟩
  cases result with
  | error error => exact ⟨hgrows.trans hgrows₂, nofun⟩
  | ok done => exact ⟨hgrows.trans hgrows₂, fun _ _ => hknown ⟨done, rfl⟩⟩

theorem publishOnce_works {target : WatchTarget} {signature : String} {backfill : Bool} {kind : κ}
    {s : WatchStore κ} (hnew : ∀ a ∈ s.published, a.signature ≠ signature) :
    Works history own ok (Funnelled ok signature s)
      (publishOnce target signature backfill kind) s := by
  apply works_read
  · exact fun _ _ _ hanswer => hanswer
  intro s₁ result hgrows hpublished hkept _ _
  cases result with
  | error error => exact ⟨hgrows, nofun⟩
  | ok done =>
    apply works_call
    intro s₂ result s₃ hgrows₂ hpublished₂ hkept₂ hanswer _
    obtain ⟨hkept₃, hgrows₃, hpublished₃, hknown⟩ := commit_kept hkept₂ hanswer
    refine ⟨hkept₃, ?_⟩
    have hgrown := (hgrows.trans hgrows₂).trans hgrows₃
    cases result with
    | error error => exact ⟨hgrown, nofun⟩
    | ok done =>
      have hin : signature ∈ s₃.known := hknown ⟨done, rfl⟩
      apply works_call
      rintro s₄ ⟨⟩ s₅ hgrows₄ hpublished₄ hkept₄ rfl _
      have hsame : s₄.published = s.published := by
        rw [hpublished₄, hpublished₃, hpublished₂, hpublished]
      have hgrows₅ : s₄.Grows { s₄ with
          published := s₄.published ++ [⟨signature, kind, target.sources, backfill⟩] } :=
        ⟨rfl, fun _ h => h, rfl⟩
      refine ⟨⟨⟨?_, ?_, hkept₄.1.cached⟩, fun hok => (hkept₄.2 hok).grows hgrows₅⟩,
        (hgrown.trans hgrows₄).trans hgrows₅, fun _ _ => hgrows₄.known _ hin⟩
      · rw [List.map_append]
        refine List.nodup_append.mpr ⟨hkept₄.1.distinct, List.nodup_singleton _,
          fun key hkey key' hkey' => ?_⟩
        obtain ⟨a, ha, rfl⟩ := List.mem_map.mp hkey
        rw [List.map_singleton, List.mem_singleton] at hkey'
        subst hkey'
        rw [hsame] at ha
        exact hnew a ha
      · intro a ha
        obtain ha | ha := List.mem_append.mp ha
        · exact hkept₄.1.known a ha
        · rw [List.mem_singleton] at ha
          subst ha
          exact hgrows₄.known _ hin

theorem decoded_works {target : WatchTarget} {signature : String}
    {predecoded : Option (Transaction κ)} (s : WatchStore κ) :
    Works history own ok (fun s' _ => s.Grows s' ∧ s'.published = s.published)
      (decoded target signature predecoded) s := by
  cases predecoded with
  | some transaction => exact ⟨.refl s, rfl⟩
  | none =>
    intro s₁ hmoves hkept₁ result s₂ hanswer _
    obtain rfl : s₂ = s₁ := hanswer
    exact ⟨hkept₁, moves_grows hmoves⟩

/-- The funnel publishes only what was not known when it looked. -/
theorem processSignature_works {target : WatchTarget} {signature : String} {backfill : Bool}
    {predecoded : Option (Transaction κ)} (s : WatchStore κ) :
    Works history own ok (Funnelled ok signature s)
      (processSignature target signature backfill predecoded) s := by
  apply works_read
  · exact fun _ _ _ hanswer => hanswer
  intro s₁ resolves hgrows _ hkept _ hkeeps
  cases resolves with
  | false => exact ⟨hgrows, fun hok => absurd (hkeeps hok) Bool.false_ne_true⟩
  | true =>
    apply works_read
    · exact fun _ _ _ hanswer => hanswer.1
    intro s₂ seen hgrows₂ hpublished₂ hkept₂ hanswer _
    have hgrown := hgrows.trans hgrows₂
    cases seen with
    | error error => exact ⟨hgrown, nofun⟩
    | ok seen =>
      have hseen := hanswer.2 seen rfl
      cases seen with
      | true =>
        refine ⟨hgrown, fun _ _ => ?_⟩
        obtain hcached | hknown := hseen.mp rfl
        · exact hkept₂.1.cached signature hcached
        · exact hknown
      | false =>
        have hnew : ∀ a ∈ s₂.published, a.signature ≠ signature := by
          rintro a ha rfl
          exact absurd (hseen.mpr (.inr (hkept₂.1.known a ha))) Bool.false_ne_true
        apply (decoded_works s₂).bind hkept₂
        intro s₃ result hkept₃ hdecoded
        obtain ⟨hgrows₃, hpublished₃⟩ := hdecoded
        have hgrown₃ := hgrown.trans hgrows₃
        cases result with
        | error error =>
          cases hdeferred : error.isDeferred with
          | true =>
            simp only [hdeferred, if_true]
            exact ⟨hgrown₃, nofun⟩
          | false =>
            simp only [hdeferred, Bool.false_eq_true, if_false]
            exact (commitOnly_works s₃).mono fun _ _ h => h.after hgrown₃
        | ok transaction =>
          dsimp only
          split
          · split
            · exact (commitOnly_works s₃).mono fun _ _ h => h.after hgrown₃
            next kind _ =>
              refine (publishOnce_works ?_).mono fun _ _ h => h.after hgrown₃
              rw [hpublished₃]
              exact hnew
          · split
            · apply works_read
              · exact fun _ _ _ hanswer => hanswer
              intro s₄ result hgrows₄ _ _ _ _
              cases result with
              | error error => exact ⟨hgrown₃.trans hgrows₄, nofun⟩
              | ok done =>
                exact (commitOnly_works s₄).mono fun _ _ h => h.after (hgrown₃.trans hgrows₄)
            · exact (commitOnly_works s₃).mono fun _ _ h => h.after hgrown₃

end Programs

end ScreenerBot.Watch
