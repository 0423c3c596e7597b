import ScreenerBot.Ohlcvs.Gaps

/-! The spans of a scan: each begins and ends with a row, and no two of one timeframe meet. -/
namespace ScreenerBot.Ohlcvs
open Library

/-- Spans of one timeframe do not meet. -/
def GapSpan.Apart (a b : GapSpan) : Prop :=
  a.timeframe = b.timeframe → a.stop < b.start ∨ b.stop < a.start

theorem GapSpan.Apart.symm {a b : GapSpan} (h : a.Apart b) : b.Apart a :=
  fun he => (h he.symm).symm

/-- A span begins with one of the rows and ends with one. -/
structure GapSpan.Spans (span : GapSpan) (rows : List GapRecord) : Prop where
  first : ∃ row ∈ rows, row.timeframe = span.timeframe ∧ row.start = span.start ∧
    row.stop ≤ span.stop
  last : ∃ row ∈ rows, row.timeframe = span.timeframe ∧ span.start ≤ row.start ∧
    row.stop = span.stop

/-- The row comes after the start of the span, in the order the rows are grouped in. -/
def GapSpan.Before (span : GapSpan) (row : GapRecord) : Prop :=
  span.timeframe.toSeconds ≤ row.timeframe.toSeconds ∧
    (span.timeframe = row.timeframe → span.start ≤ row.start)

/-- Spans in the order they are made in. -/
def GapSpan.Precedes (a b : GapSpan) : Prop :=
  a.timeframe.toSeconds ≤ b.timeframe.toSeconds ∧ (a.timeframe = b.timeframe → a.stop < b.start)

theorem GapSpan.Precedes.apart {a b : GapSpan} (h : a.Precedes b) : a.Apart b :=
  fun he => .inl (h.2 he)

/-- The spans grouped so far, with the rows still to come. -/
structure Grouped (rows : List GapRecord) (spans : List GapSpan) (rest : List GapRecord) :
    Prop where
  made : ∀ span ∈ spans, span.Spans rows
  ordered : spans.Pairwise GapSpan.Precedes
  before : ∀ span ∈ spans, ∀ row ∈ rest, span.Before row

variable {rows rest : List GapRecord} {spans : List GapSpan} {row : GapRecord}

theorem groupRow_nil (row : GapRecord) : groupRow [] row = [row.toSpan] := rfl

theorem groupRow_concat (front : List GapSpan) (span : GapSpan) (row : GapRecord) :
    groupRow (front ++ [span]) row =
      if span.timeframe = row.timeframe ∧ (row.start ≤ span.stop + row.timeframe.toSeconds ∨
          bucketsBetween span.start (max span.stop row.stop) row.timeframe ≤ gapSpanMaxBuckets) then
        front ++ [{ span with
          stop := max span.stop row.stop
          attempts := max span.attempts row.attempts
          lastAttempt := laterAttempt span.lastAttempt row.lastAttempt }]
      else front ++ [span] ++ [row.toSpan] := by
  simp only [groupRow, List.getLast?_concat, List.dropLast_concat]

theorem toSpan_spans (h : row ∈ rows) : row.toSpan.Spans rows :=
  ⟨⟨row, h, rfl, rfl, le_refl _⟩, ⟨row, h, rfl, le_refl _, rfl⟩⟩

theorem grouped_groupRow (hsorted : (row :: rest).Pairwise fun a b =>
      a.timeframe.toSeconds ≤ b.timeframe.toSeconds ∧
        (a.timeframe = b.timeframe → a.start ≤ b.start))
    (hmem : row ∈ rows) (h : Grouped rows spans (row :: rest)) :
    Grouped rows (groupRow spans row) rest := by
  have hlater := (List.pairwise_cons.mp hsorted).1
  have hbefore : ∀ span ∈ spans, ∀ row ∈ rest, span.Before row :=
    fun span hspan row' hrow' => h.before span hspan row' (List.mem_cons_of_mem _ hrow')
  rcases List.eq_nil_or_concat spans with rfl | ⟨front, last, rfl⟩
  · rw [groupRow_nil]
    constructor
    · intro span hspan
      rw [List.mem_singleton.mp hspan]
      exact toSpan_spans hmem
    · exact List.pairwise_singleton _ _
    · intro span hspan row' hrow'
      rw [List.mem_singleton.mp hspan]
      exact hlater row' hrow'
  · rw [List.concat_eq_append] at h hbefore ⊢
    obtain ⟨hfront, -, hprecedes⟩ := List.pairwise_append.mp h.ordered
    have hlast := h.before last (by simp) row List.mem_cons_self
    rw [groupRow_concat]
    split
    · rename_i hjoins
      obtain ⟨⟨first, hfirst, hfirsttf, hfirststart, hfirststop⟩,
          ⟨end_, hend, hendtf, hendstart, hendstop⟩⟩ :=
        h.made last (by simp)
      constructor
      · intro span hspan
        rcases List.mem_append.mp hspan with hspan | hspan
        · exact h.made span (List.mem_append_left _ hspan)
        · rw [List.mem_singleton.mp hspan]
          constructor
          · exact ⟨first, hfirst, hfirsttf, hfirststart, le_max_of_le_left hfirststop⟩
          · rcases le_total last.stop row.stop with hle | hle
            · exact ⟨row, hmem, hjoins.1.symm, hlast.2 hjoins.1, (max_eq_right hle).symm⟩
            · exact ⟨end_, hend, hendtf, hendstart, hendstop.trans (max_eq_left hle).symm⟩
      · refine List.pairwise_append.mpr ⟨hfront, List.pairwise_singleton _ _, ?_⟩
        intro a ha b hb
        rw [List.mem_singleton.mp hb]
        exact hprecedes a ha last List.mem_cons_self
      · intro span hspan row' hrow'
        rcases List.mem_append.mp hspan with hspan | hspan
        · exact hbefore span (List.mem_append_left _ hspan) row' hrow'
        · rw [List.mem_singleton.mp hspan]
          exact hbefore last (by simp) row' hrow'
    · rename_i hjoins
      constructor
      · intro span hspan
        rcases List.mem_append.mp hspan with hspan | hspan
        · exact h.made span hspan
        · rw [List.mem_singleton.mp hspan]
          exact toSpan_spans hmem
      · refine List.pairwise_append.mpr ⟨h.ordered, List.pairwise_singleton _ _, ?_⟩
        intro a ha b hb
        rw [List.mem_singleton.mp hb]
        have hrow := h.before a ha row List.mem_cons_self
        refine ⟨hrow.1, fun (htf : a.timeframe = row.timeframe) => ?_⟩
        rcases List.mem_append.mp ha with ha | ha
        · -- the spans of a row's timeframe are the last ones
          have hlasttf : a.timeframe = last.timeframe := by
            have ha := (hprecedes a ha last List.mem_cons_self).1
            apply Timeframe.toSeconds_injective
            have hlast := hlast.1
            rw [← htf] at hlast
            exact le_antisymm ha hlast
          have hstart := hlast.2 (hlasttf.symm.trans htf)
          exact ((hprecedes a ha last List.mem_cons_self).2 hlasttf).trans_le hstart
        · rw [List.mem_singleton.mp ha] at htf ⊢
          have htouches : ¬row.start ≤ last.stop + row.timeframe.toSeconds :=
            fun hle => hjoins ⟨htf, .inl hle⟩
          have hpos := row.timeframe.toSeconds_pos
          show last.stop < row.start
          omega
      · intro span hspan row' hrow'
        rcases List.mem_append.mp hspan with hspan | hspan
        · exact hbefore span hspan row' hrow'
        · rw [List.mem_singleton.mp hspan]
          exact hlater row' hrow'

theorem grouped_foldl : ∀ (rest : List GapRecord) (spans : List GapSpan),
    rest.Pairwise (fun a b => a.timeframe.toSeconds ≤ b.timeframe.toSeconds ∧
      (a.timeframe = b.timeframe → a.start ≤ b.start)) →
    (∀ row ∈ rest, row ∈ rows) → Grouped rows spans rest →
      Grouped rows (rest.foldl groupRow spans) []
  | [], _, _, _, h => h
  | row :: rest, spans, hsorted, hmem, h =>
    grouped_foldl rest (groupRow spans row) hsorted.of_cons
      (fun row' hrow' => hmem row' (List.mem_cons_of_mem _ hrow'))
      (grouped_groupRow hsorted (hmem row List.mem_cons_self) h)

theorem grouped_groupSpans (rows : List GapRecord) : Grouped rows (groupSpans rows) [] := by
  refine grouped_foldl _ [] ?_ ?_ ?_
  · refine (sortBy_sorted _ rows).imp fun {a b} hle => ?_
    rcases (Prod.Lex.toLex_le_toLex.mp hle) with hlt | ⟨heq, hle⟩
    · exact ⟨hlt.le, fun he => absurd hlt (by rw [he]; exact lt_irrefl _)⟩
    · refine ⟨heq.le, fun _ => ?_⟩
      rcases Prod.Lex.toLex_le_toLex.mp hle with hlt | ⟨heq, -⟩
      · exact hlt.le
      · exact heq.le
  · exact fun row hrow => (mem_sortBy _ _ _).mp hrow
  · constructor
    · intro span hspan
      cases hspan
    · exact List.Pairwise.nil
    · intro span hspan
      cases hspan

theorem mem_selectDueSpans {now : ℤ} {budget : ℕ} {span : GapSpan}
    (h : span ∈ selectDueSpans spans now budget) : span ∈ spans :=
  (List.mem_filter.mp ((mem_sortBy _ _ _).mp (List.mem_of_mem_take h))).1

theorem selectDueSpans_apart {now : ℤ} {budget : ℕ} (h : spans.Pairwise GapSpan.Apart) :
    (selectDueSpans spans now budget).Pairwise GapSpan.Apart := by
  have hfilter := h.sublist (List.filter_sublist (p := fun span : GapSpan =>
    gapRetryDue span.attempts span.lastAttempt now))
  have hsorted := (sortBy_perm (fun span : GapSpan => toLex (-span.stop, -span.start))
    _).symm.pairwise
    hfilter fun hapart => hapart.symm
  exact hsorted.sublist (List.take_sublist _ _)

/-- The spans of a scan begin and end with rows of the open set and do not meet. -/
theorem dueSpans_spec (table : GapTable) (now since : ℤ) (budget : ℕ) :
    (∀ span ∈ dueSpans table now since budget,
      span.Spans (table.getOpenGaps since maxGapAttempts)) ∧
      (dueSpans table now since budget).Pairwise GapSpan.Apart := by
  have hgrouped := grouped_groupSpans (table.getOpenGaps since maxGapAttempts)
  simp only [dueSpans]
  split
  · simp
  · exact ⟨fun span hspan => hgrouped.made span (mem_selectDueSpans hspan),
      selectDueSpans_apart (hgrouped.ordered.imp GapSpan.Precedes.apart)⟩

end ScreenerBot.Ohlcvs
