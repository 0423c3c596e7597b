import ScreenerBot.Watch.Funnel

/-! A range that is paged back to the durable cursor: together with what is settled it holds every
signature up to its newest one. -/
namespace ScreenerBot.Watch
open Library WatchStore

variable {κ : Type}

/-- The range holds the newest part of the history up to its newest signature, and once complete
everything there that is not settled; a baseline settles all of it. -/
structure Ranged (history : List SignaturePageItem) (own : Bool) (s : WatchStore κ)
    (state : CatchUpState)
    (baselineOnly : Bool) : Prop where
  window : state.initialWindow = state.durableUntil.isNone
  boundary : ∀ signature, state.durableUntil = some signature → s.SettledTo history own signature
  unread : state.newestSignature = none → state.newestFirst = [] ∧ state.before = none
  read : ∀ newest, state.newestSignature = some newest → newest ∈ history.map (·.signature) ∧
    ∃ before, state.before = some before ∧
      (upTo history newest).reverse = state.newestFirst ++ (olderThan history (some before)).reverse
  first : state.complete = false → state.durableUntil = none → state.newestSignature = none
  baseline : baselineOnly = true →
    own = false ∧ state.durableUntil = none ∧ (state.complete = false → s.cursor = none)
  rest : state.complete = true → ∀ newest, state.newestSignature = some newest →
    ∀ x ∈ upTo history newest, (baselineOnly = false ∧ x ∈ state.newestFirst) ∨ s.Settled own x

variable {history : List SignaturePageItem} {own : Bool} {s s' : WatchStore κ}
  {state : CatchUpState}
  {baselineOnly : Bool}

theorem Ranged.grows (h : Ranged history own s state baselineOnly) (hgrows : s.Grows s') :
    Ranged history own s' state baselineOnly where
  window := h.window
  boundary signature hsome := (h.boundary signature hsome).grows hgrows
  unread := h.unread
  read := h.read
  first := h.first
  baseline hbaseline := by
    obtain ⟨hown, hnone, hcursor⟩ := h.baseline hbaseline
    exact ⟨hown, hnone, fun hcomplete => hgrows.cursor.trans (hcursor hcomplete)⟩
  rest hcomplete newest hnewest x hx :=
    (h.rest hcomplete newest hnewest x hx).imp_right fun hsettled => hsettled.grows hgrows

/-- A complete range does not look at the cursor any more. -/
theorem Ranged.setCursor (h : Ranged history own s state baselineOnly)
    (hcomplete : state.complete = true)
    (cursor : Option (Option String)) :
    Ranged history own { s with cursor := cursor } state baselineOnly where
  window := h.window
  boundary := h.boundary
  unread := h.unread
  read := h.read
  first := h.first
  baseline hbaseline := by
    obtain ⟨hown, hnone, -⟩ := h.baseline hbaseline
    refine ⟨hown, hnone, fun hnot => ?_⟩
    cases hcomplete.symm.trans hnot
  rest := h.rest

/-- A new range at what the cursor is read as. -/
theorem ranged_new {durableUntil : Option String}
    (hboundary : ∀ signature, durableUntil = some signature → s.SettledTo history own signature)
    (hbaseline : baselineOnly = true → own = false ∧ s.cursor = none ∧ durableUntil = none) :
    Ranged history own s (.new durableUntil) baselineOnly where
  window := rfl
  boundary := hboundary
  unread _ := ⟨rfl, rfl⟩
  read := nofun
  first _ _ := rfl
  baseline h := by
    obtain ⟨hown, hcursor, hnone⟩ := hbaseline h
    exact ⟨hown, hnone, fun _ => hcursor⟩
  rest := nofun

/-- What lies behind a short page begins at the boundary. -/
theorem settled_of_boundary (hnodup : (history.map (·.signature)).Nodup)
    {older page rest : List SignaturePageItem} {durableUntil : Option String}
    (hearlier : older <+: history)
    (hsplit : older.reverse = page ++ rest)
    (hend : ∀ item ∈ rest.head?, durableUntil = some item.signature)
    (hboundary : ∀ signature, durableUntil = some signature → s.SettledTo history own signature) :
    ∀ x ∈ rest, s.Settled own x := by
  cases rest with
  | nil => exact nofun
  | cons item tail =>
    obtain ⟨later, rfl⟩ := hearlier
    have hsettled := (hboundary item.signature (hend item rfl)).2
    have holder : older ++ later = tail.reverse ++ item :: (page.reverse ++ later) := by
      rw [← List.reverse_reverse older, hsplit]
      simp
    rw [holder] at hsettled hnodup
    rw [upTo_split hnodup] at hsettled
    intro x hx
    apply hsettled
    rw [List.mem_append, List.mem_reverse, List.mem_singleton]
    exact (List.mem_cons.mp hx).symm

/-- A page that begins where the range ends goes on from there. -/
theorem read_page (hnodup : (history.map (·.signature)).Nodup)
    {older page rest : List SignaturePageItem}
    (hearlier : older <+: history) (hsplit : older.reverse = page ++ rest) (hpage : page ≠ []) :
    ∃ before, page.getLast?.map (·.signature) = some before ∧
      rest = (olderThan history (some before)).reverse := by
  obtain ⟨init, last, rfl⟩ := List.eq_nil_or_concat page |>.resolve_left hpage
  obtain ⟨later, rfl⟩ := hearlier
  refine ⟨last.signature, by simp, ?_⟩
  have holder : older ++ later = rest.reverse ++ last :: (init.reverse ++ later) := by
    rw [← List.reverse_reverse older, hsplit]
    simp
  rw [holder] at hnodup ⊢
  rw [olderThan_split hnodup, List.reverse_reverse]

/-- The first page of a range begins at the newest signature of what it is read from. -/
theorem upTo_page (hnodup : (history.map (·.signature)).Nodup)
    {view page rest : List SignaturePageItem}
    {newest : SignaturePageItem} (hearlier : view <+: history)
    (hsplit : view.reverse = page ++ rest)
    (hnewest : page.head? = some newest) : upTo history newest.signature = view := by
  cases page with
  | nil => cases hnewest
  | cons item tail =>
    cases hnewest
    obtain ⟨later, rfl⟩ := hearlier
    have hview : view = rest.reverse ++ tail.reverse ++ [newest] := by
      rw [← List.reverse_reverse view, hsplit]
      simp
    subst hview
    rw [List.append_assoc (rest.reverse ++ tail.reverse), List.singleton_append] at hnodup ⊢
    exact upTo_split hnodup

theorem opened_known {view : List SignaturePageItem} {size : ℕ}
    {before durableUntil : Option String} :
    (s.opened own view size before durableUntil).known = s.known ∧
      (s.opened own view size before durableUntil).cursor = s.cursor := by
  unfold opened
  split
  · exact ⟨rfl, rfl⟩
  · exact ⟨rfl, rfl⟩

/-- Only a window that begins at no boundary tells what lies before the baseline. -/
theorem opened_same {view : List SignaturePageItem} {size : ℕ} {before durableUntil : Option String}
    (h : before ≠ none ∨ durableUntil ≠ none ∨ s.cursor ≠ none ∨
      ¬ (own = true → s.baselined = none)) :
    s.opened own view size before durableUntil = s := by
  unfold opened
  rw [if_neg]
  rintro ⟨hbefore, huntil, hcursor, hfirst⟩
  obtain h | h | h | h := h
  · exact h hbefore
  · exact h huntil
  · exact h hcursor
  · exact h hfirst

/-- Everything that a window does not hold is settled, where the exchange keeps up; a baseline
settles all of it. -/
theorem window_settled {view : List SignaturePageItem} {size : ℕ} {newest : SignaturePageItem}
    (hcovered : s.Covered history own)
    (hkeeps : s.KeepsUp history own (.fetchSignaturesPage size none none : WatchCall κ _)
      (.ok (signaturesPage view size none none)))
    (hnewest : (signaturesPage view size none none).head? = some newest)
    (hview : upTo history newest.signature = view)
    (hbaseline : baselineOnly = true → own = false ∧ s.cursor = none) :
    ∀ x ∈ view, (baselineOnly = false ∧ x ∈ signaturesPage view size none none) ∨
      (s.opened own view size none none).Settled own x := by
  intro x hx
  have hreach := hkeeps newest hnewest x (hview.symm ▸ hx)
  cases hcursor : s.cursor with
  | none =>
    rw [hcursor] at hreach
    by_cases hfirst : own = true → s.baselined = none
    · have hopened : (s.opened own view size none none).baselined =
          some ((if own then view.take (view.length - size) else view).map (·.signature)) := by
        rw [opened, if_pos ⟨rfl, rfl, hcursor, hfirst⟩]
      have hsettled (h : x ∈ if own then view.take (view.length - size) else view) :
          (s.opened own view size none none).Settled own x := by
        refine .inr (.inr ?_)
        rw [hopened]
        exact List.mem_map_of_mem h
      cases hown : own with
      | false =>
        rw [hown] at hsettled
        exact .inr (hsettled hx)
      | true =>
        have hnot : baselineOnly = false := by
          cases hb : baselineOnly with
          | false => rfl
          | true => cases hown.symm.trans (hbaseline hb).1
        -- the own wallet's window leaves only what is older than the page
        rw [← List.take_append_drop (view.length - size) view, List.mem_append] at hx
        obtain hold | hnew := hx
        · right
          rw [hown] at hsettled
          exact hsettled hold
        · left
          rw [signaturesPage_window, List.take_reverse, List.mem_reverse]
          exact ⟨hnot, hnew⟩
    · -- a later window of the own wallet, which has a baseline
      have hnot : baselineOnly = false := by
        cases hb : baselineOnly with
        | false => rfl
        | true => exact absurd (fun hown => absurd ((hbaseline hb).1.symm.trans hown)
            Bool.false_ne_true) hfirst
      rw [opened_same (.inr (.inr (.inr hfirst)))]
      obtain hpage | hnone | hknown | hbaselined := hreach
      · exact .inl ⟨hnot, hpage⟩
      · exact absurd hnone hfirst
      · exact .inr (.inl hknown)
      · exact .inr (.inr (.inr hbaselined))
  | some row =>
    have hnot : baselineOnly = false := by
      cases hb : baselineOnly with
      | false => rfl
      | true => cases hcursor.symm.trans (hbaseline hb).2
    rw [opened_same (.inr (.inr (.inl (by rw [hcursor]; exact Option.some_ne_none _))))]
    rw [hcursor] at hreach
    obtain hpage | ⟨signature, rfl, hcover⟩ := hreach
    · exact .inl ⟨hnot, hpage⟩
    · exact .inr ((hcovered signature hcursor).2 x hcover)

/-- A page read where the range ends. -/
theorem Ranged.page (hnodup : (history.map (·.signature)).Nodup)
    (h : Ranged history own s state baselineOnly) (hincomplete : state.complete = false)
    (hcovered : s.Covered history own) {view : List SignaturePageItem} (hearlier : view <+: history)
    {before durableUntil : Option String} (hbefore : state.before = before)
    (huntil : state.durableUntil = durableUntil)
    (hknown : ∀ signature, before = some signature → signature ∈ view.map (·.signature))
    (hkeeps : s.KeepsUp history own
      (.fetchSignaturesPage pageSize before durableUntil : WatchCall κ _)
      (.ok (signaturesPage view pageSize before durableUntil))) :
    Ranged history own (s.opened own view pageSize before durableUntil)
      (state.ingestPage (signaturesPage view pageSize before durableUntil) pageSize)
        baselineOnly := by
  obtain ⟨rest, hsplit, hend⟩ := signaturesPage_split view pageSize before durableUntil
  obtain ⟨page, hpage⟩ : ∃ page, signaturesPage view pageSize before durableUntil = page := ⟨_, rfl⟩
  have holder : olderThan view before <+: history := (olderThan_isPrefix _).trans hearlier
  have hboundary : ∀ signature, durableUntil = some signature →
      (s.opened own view pageSize before durableUntil).SettledTo history own signature := by
    intro signature hsome
    rw [opened_same (.inr (.inl (by rw [hsome]; exact Option.some_ne_none _)))]
    exact h.boundary signature (huntil.trans hsome)
  have hread (newest : String) (hnewest : state.newestSignature = some newest) :
      newest ∈ history.map (·.signature) ∧
        (upTo history newest).reverse = state.newestFirst ++ page ++ rest := by
    obtain ⟨hmem, signature, hsignature, hrange⟩ := h.read newest hnewest
    have hsome := hbefore.symm.trans hsignature
    subst hsome
    refine ⟨hmem, ?_⟩
    rw [hrange, List.append_assoc, ← hpage, ← hsplit,
      olderThan_prefix hearlier (hknown signature rfl)]
  have hshort (hlength : page.length < pageSize) :
      ∀ x ∈ rest, (s.opened own view pageSize before durableUntil).Settled own x := by
    rw [← hpage] at hlength
    exact settled_of_boundary hnodup holder hsplit (hend hlength) hboundary
  have hbaseline (hb : baselineOnly = true) : own = false ∧ state.durableUntil = none ∧
      state.newestSignature = none ∧ s.cursor = none := by
    obtain ⟨hown, hnone, hcursor⟩ := h.baseline hb
    exact ⟨hown, hnone, h.first hincomplete hnone, hcursor hincomplete⟩
  rw [hpage] at hsplit ⊢
  rw [CatchUpState.ingestPage, if_neg (by rw [hincomplete]; exact Bool.false_ne_true)]
  by_cases hempty : page = []
  · subst hempty
    rw [if_pos List.isEmpty_nil]
    refine ⟨h.window, fun signature hsome =>
      hboundary signature (huntil.symm.trans hsome), h.unread,
      h.read, nofun, fun hb => ⟨(hbaseline hb).1, (hbaseline hb).2.1, nofun⟩, ?_⟩
    intro _ newest hnewest x hx
    rw [← List.mem_reverse, (hread newest hnewest).2, List.append_nil, List.mem_append] at hx
    obtain hfirst | hrest := hx
    · left
      refine ⟨?_, hfirst⟩
      rw [← Bool.not_eq_true]
      intro hb
      cases (hbaseline hb).2.2.1.symm.trans hnewest
    · exact .inr (hshort (by decide) x hrest)
  · obtain ⟨signature, hlast, hrest⟩ := read_page hnodup holder hsplit hempty
    obtain ⟨first, hfirst⟩ : ∃ first, page.head? = some first :=
      Option.isSome_iff_exists.mp (List.isSome_head?.mpr hempty)
    rw [if_neg (by rw [List.isEmpty_iff]; exact hempty)]
    -- the newest signature is the one of the first page
    have hnewest : ∃ newest, state.newestSignature.or (page.head?.map (·.signature)) = some newest ∧
        newest ∈ history.map (·.signature) ∧
        (upTo history newest).reverse = state.newestFirst ++ page ++ rest ∧
        (state.newestSignature = none → newest = first.signature ∧ upTo history newest = view) := by
      cases hold : state.newestSignature with
      | some newest =>
        obtain ⟨hmem, hrange⟩ := hread newest hold
        exact ⟨newest, rfl, hmem, hrange, nofun⟩
      | none =>
        obtain ⟨hnil, hunread⟩ := h.unread hold
        rw [hbefore] at hunread
        subst hunread
        have hview := upTo_page hnodup hearlier hsplit hfirst
        refine ⟨first.signature, by rw [hfirst]; rfl, ?_, ?_, fun _ => ⟨rfl, hview⟩⟩
        · apply List.mem_map_of_mem
          apply hearlier.subset
          rw [← List.mem_reverse, show view.reverse = page ++ rest from hsplit]
          exact List.mem_append_left _ (List.mem_of_mem_head? hfirst)
        · rw [hview, hnil, List.nil_append]
          exact hsplit
    obtain ⟨newest, hor, hmem, hrange, hfresh⟩ := hnewest
    refine ⟨h.window, fun key hkey => hboundary key (huntil.symm.trans hkey), fun hnone => ?_,
      fun key hkey => ?_, fun hcomplete hnone => ?_, fun hb =>
        ?_, fun hcomplete key hkey x hx => ?_⟩
    · cases hor.symm.trans hnone
    · cases hor.symm.trans hkey
      exact ⟨hmem, signature, hlast, by rw [hrange, hrest]⟩
    · change (state.initialWindow || decide (page.length < pageSize)) = false at hcomplete
      rw [h.window, show state.durableUntil = none from hnone] at hcomplete
      cases hcomplete
    · refine ⟨(hbaseline hb).1, (hbaseline hb).2.1, fun _ => ?_⟩
      rw [opened_known.2]
      exact (hbaseline hb).2.2.2
    · cases hor.symm.trans hkey
      change (state.initialWindow || decide (page.length < pageSize)) = true at hcomplete
      cases durableUntil with
      | none =>
        have hunread := h.first hincomplete huntil
        obtain ⟨hnil, hnone⟩ := h.unread hunread
        rw [hbefore] at hnone
        subst hnone
        obtain ⟨rfl, hview⟩ := hfresh hunread
        rw [hview] at hx
        rw [← hpage] at hfirst
        obtain ⟨hnot, hin⟩ | hsettled := window_settled hcovered hkeeps hfirst hview
          (fun hb => ⟨(hbaseline hb).1, (hbaseline hb).2.2.2⟩) x hx
        · rw [hpage] at hin
          exact .inl ⟨hnot, List.mem_append_right _ hin⟩
        · exact .inr hsettled
      | some boundary =>
        rw [h.window, huntil, Option.isNone_some, Bool.false_or, decide_eq_true_eq] at hcomplete
        rw [← List.mem_reverse, hrange, List.mem_append] at hx
        obtain hfirst | hrest := hx
        · left
          refine ⟨?_, hfirst⟩
          rw [← Bool.not_eq_true]
          intro hb
          cases huntil.symm.trans (hbaseline hb).2.1
        · exact .inr (hshort hcomplete x hrest)

end ScreenerBot.Watch
