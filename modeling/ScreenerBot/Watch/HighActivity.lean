import ScreenerBot.Watch.Ranges

/-! High-activity paging: the cursor moves along handled items, past transactions that failed on an
external target. -/
namespace ScreenerBot.Watch
open Library WatchStore

variable {κ : Type} {history : List SignaturePageItem} {own : Bool} {ok : Prop}

/-- Between each item and the one before it there are only failed signatures. -/
def Consecutive (history : List SignaturePageItem) :
    Option String → List (SuccessfulTransactionPageItem κ) → Prop
  | _, [] => True
  | previous, item :: rest => item.signature ∈ history.map (·.signature) ∧
    (∀ x ∈ upTo history item.signature, x.signature = item.signature ∨ x.failed = true ∨
      ∃ signature, previous = some signature ∧ x ∈ upTo history signature) ∧
    Consecutive history (some item.signature) rest

/-- A page of the successful signatures after the previous one. -/
theorem consecutive_page {newer later : List SignaturePageItem} :
    ∀ {older : List SignaturePageItem} {previous : Option String} {count : ℕ}
      {items : List (SuccessfulTransactionPageItem κ)},
      history = older ++ newer ++ later → (history.map (·.signature)).Nodup →
      (∀ x ∈ older, x.failed = true ∨ ∃ signature, previous = some signature ∧
        x ∈ upTo history signature) →
      items.map (·.signature) = ((newer.filter (!·.failed)).take count).map (·.signature) →
        Consecutive history previous items := by
  induction newer with
  | nil =>
    intro older previous count items _ _ _ hitems
    rw [List.filter_nil, List.take_nil, List.map_nil, List.map_eq_nil_iff] at hitems
    subst hitems
    trivial
  | cons item newer ih =>
    intro older previous count items hhistory hnodup holder hitems
    have hnext : history = older ++ [item] ++ newer ++ later := by
      rw [hhistory]
      simp
    cases hfailed : item.failed with
    | true =>
      rw [List.filter_cons_of_neg (by rw [hfailed]; decide)] at hitems
      refine ih hnext hnodup (fun x hx => ?_) hitems
      obtain hx | hx := List.mem_append.mp hx
      · exact holder x hx
      · rw [List.mem_singleton] at hx
        exact .inl (hx ▸ hfailed)
    | false =>
      rw [List.filter_cons_of_pos (by rw [hfailed]; decide)] at hitems
      cases items with
      | nil => trivial
      | cons first rest =>
        cases count with
        | zero => cases hitems
        | succ count =>
          rw [List.take_succ_cons, List.map_cons, List.map_cons, List.cons.injEq] at hitems
          obtain ⟨hsame, hrest⟩ := hitems
          have hupTo : upTo history first.signature = older ++ [item] := by
            have hsplit : history = older ++ item :: (newer ++ later) := by
              rw [hhistory]
              simp
            rw [hsame, hsplit]
            rw [hsplit] at hnodup
            exact upTo_split hnodup
          refine ⟨?_, fun x hx => ?_, ?_⟩
          · rw [hsame, hnext]
            simp
          · rw [hupTo, List.mem_append, List.mem_singleton] at hx
            obtain hx | rfl := hx
            · exact .inr (holder x hx)
            · exact .inl hsame.symm
          · refine ih hnext hnodup (fun x hx => .inr ⟨first.signature, rfl, ?_⟩) hrest
            rwa [hupTo]

/-- The page that a node answers with, of what it has seen after a known signature. -/
theorem consecutive_answer (hnodup : (history.map (·.signature)).Nodup) {seen count : ℕ}
    {after : Option String} {items : List (SuccessfulTransactionPageItem κ)}
    (hafter : ∀ signature, after = some signature →
      signature ∈ (history.take seen).map (·.signature))
    (hitems : items.map (·.signature) =
      (((newerThan (history.take seen) after).filter (!·.failed)).take count).map (·.signature)) :
    Consecutive history after items := by
  obtain ⟨later, hlater⟩ : ∃ later, history = history.take seen ++ later :=
    ⟨_, (List.take_append_drop seen history).symm⟩
  cases after with
  | none =>
    have hall : history = [] ++ history.take seen ++ later := by
      rw [List.nil_append]
      exact hlater
    exact consecutive_page hall hnodup (fun _ hx => absurd hx List.not_mem_nil) hitems
  | some signature =>
    obtain ⟨item, hitem, rfl⟩ := List.mem_map.mp (hafter signature rfl)
    obtain ⟨older, newer, hview⟩ := List.append_of_mem hitem
    have hhistory : history = older ++ item :: (newer ++ later) := by
      rw [hlater, hview]
      simp
    have hviewNodup : ((older ++ item :: newer).map (·.signature)).Nodup := by
      rw [← hview]
      exact ((List.take_sublist seen history).map _).nodup hnodup
    rw [hview, newerThan_split hviewNodup] at hitems
    have hnext : history = older ++ [item] ++ newer ++ later := by
      rw [hhistory]
      simp
    refine consecutive_page hnext hnodup (fun x hx => .inr ⟨item.signature, rfl, ?_⟩) hitems
    have hupTo : upTo history item.signature = older ++ [item] := by
      rw [hhistory] at hnodup ⊢
      exact upTo_split hnodup
    rwa [hupTo]

/-- An item that is dealt with settles everything up to it. -/
theorem settledTo_item {s : WatchStore κ} (hown : own = false) {previous : Option String}
    {item : SuccessfulTransactionPageItem κ} {rest : List (SuccessfulTransactionPageItem κ)}
    (hconsecutive : Consecutive history previous (item :: rest))
    (hprevious : ∀ signature, previous = some signature → s.SettledTo history own signature)
    (hitem : item.signature ∈ s.known) :
    s.SettledTo history own item.signature := by
  obtain ⟨hmem, hbetween, -⟩ := hconsecutive
  refine ⟨hmem, fun x hx => ?_⟩
  obtain hself | hfailed | ⟨signature, hsome, hold⟩ := hbetween x hx
  · rw [Settled, hself]
    exact .inl hitem
  · exact .inr (.inl ⟨hfailed, hown⟩)
  · exact (hprevious signature hsome).2 x hold

theorem handleItems_works (hown : own = false) {target : WatchTarget}
    {items : List (SuccessfulTransactionPageItem κ)} :
    ∀ {previous lastHandled : Option String} {s : WatchStore κ}, s.Kept history own ok →
      (ok → Consecutive history previous items) →
      (ok → ∀ signature, previous = some signature → s.SettledTo history own signature) →
      (ok → ∀ signature, lastHandled = some signature → s.SettledTo history own signature) →
      (ok → ∀ item ∈ items, (item.transaction matches .ok none) = false) →
        Works history own ok (fun s' handled => ok → ∀ signature, handled.1 = some signature →
          s'.SettledTo history own signature) (handleItems target items lastHandled) s := by
  induction items with
  | nil => exact fun _ _ _ hlast _ => hlast
  | cons item rest ih =>
    intro previous lastHandled s hkept hconsecutive hprevious hlast heffective
    have hrest (hok : ok) : ∀ other ∈ rest, (other.transaction matches .ok none) = false :=
      fun other hother => heffective hok other (List.mem_cons_of_mem _ hother)
    unfold handleItems
    split
    next transaction htransaction =>
      apply (processSignature_works s).bind hkept
      intro s₁ outcome hkept₁ hfunnelled
      obtain ⟨hgrows, hknown⟩ := hfunnelled
      cases outcome with
      | retryable => exact fun hok signature hsome => (hlast hok signature hsome).grows hgrows
      | terminal =>
        have hsettled (hok : ok) : s₁.SettledTo history own item.signature :=
          settledTo_item hown (hconsecutive hok)
            (fun signature hsome => (hprevious hok signature hsome).grows hgrows) (hknown hok rfl)
        refine ih hkept₁ (fun hok => (hconsecutive hok).2.2) (fun hok key hkey => ?_)
          (fun hok key hkey => ?_) hrest
        · cases hkey
          exact hsettled hok
        · cases hkey
          exact hsettled hok
    next hnone =>
      have hnever (hok : ok) : False := by
        have heffect := heffective hok item List.mem_cons_self
        rw [hnone] at heffect
        cases heffect
      exact @ih none (some item.signature) s hkept (fun hok => (hnever hok).elim) nofun
        (fun hok => (hnever hok).elim) hrest
    next => exact hlast

/-- A cursor write at a signature up to which everything is settled. -/
theorem setCursor_kept {s s' : WatchStore κ} {signature : String} {result : Except Unit Unit}
    (hkept : s.Kept history own ok) (hsettled : ok → s.SettledTo history own signature)
    (hanswer : s.answers history own (.setCursor signature) result s') :
    s'.Kept history own ok ∧ ∀ key, s.SettledTo history own key → s'.SettledTo history own key := by
  obtain rfl | ⟨-, rfl⟩ := hanswer
  · exact ⟨hkept.setCursor hsettled, fun _ h => h⟩
  · exact ⟨hkept, fun _ h => h⟩

theorem stopAt_works {lastHandled : Option String} {s : WatchStore κ}
    (hlast : ok → ∀ signature, lastHandled = some signature → s.SettledTo history own signature) :
    Works history own ok (fun _ _ => True) (stopAt lastHandled) s := by
  cases lastHandled with
  | none => trivial
  | some signature =>
    apply works_call
    intro s₁ result s₂ hgrows _ hkept hanswer _
    exact ⟨(setCursor_kept hkept (fun hok => (hlast hok signature rfl).grows hgrows) hanswer).1,
      trivial⟩

theorem highActivityPages_works (hnodup : (history.map (·.signature)).Nodup) (hown : own = false)
    {target : WatchTarget} (pages : ℕ) :
      ∀ {remaining : ℕ} {after : Option String} {s : WatchStore κ},
      (ok → ∀ signature, after = some signature → s.SettledTo history own signature) →
        Works history own ok (fun _ _ => True)
          (highActivityPages target pages remaining after) s := by
  induction pages with
  | zero => exact fun _ => trivial
  | succ pages ih =>
    intro remaining after s hafter
    unfold highActivityPages
    split
    · trivial
    apply works_call
    intro s₁ result s₂ hgrows _ hkept hanswer hkeeps
    obtain ⟨⟨error, rfl⟩, rfl⟩ | ⟨seen, page, count, hknown, rfl, -, hitems, rfl⟩ := hanswer
    · exact ⟨hkept, trivial⟩
    refine ⟨hkept, ?_⟩
    have hconsecutive (_ : ok) : Consecutive history after page.items :=
      consecutive_answer hnodup hknown hitems
    have hhandled := @handleItems_works _ _ _ _ hown target page.items after none _ hkept
      hconsecutive
      (fun hok signature hsome => (hafter hok signature hsome).grows hgrows)
      (fun _ _ hsome => absurd hsome (Option.some_ne_none _).symm) hkeeps
    apply hhandled.bind hkept
    rintro s₃ ⟨lastHandled, handledAll⟩ hkept₃ hlast
    cases handledAll with
    | false => exact (stopAt_works hlast).bind hkept₃ fun _ _ _ _ => trivial
    | true =>
      cases lastHandled with
      | none => trivial
      | some signature =>
        apply works_call
        intro s₄ result s₅ hgrows₄ _ hkept₄ hanswer _
        have hsettled (hok : ok) : s₄.SettledTo history own signature :=
          (hlast hok signature rfl).grows hgrows₄
        obtain ⟨hkept₅, hsame⟩ := setCursor_kept hkept₄ hsettled hanswer
        refine ⟨hkept₅, ?_⟩
        cases result with
        | error error => trivial
        | ok done =>
          dsimp only
          split
          · trivial
          · refine ih fun hok key hkey => ?_
            cases hkey
            exact hsame signature (hsettled hok)

end ScreenerBot.Watch
