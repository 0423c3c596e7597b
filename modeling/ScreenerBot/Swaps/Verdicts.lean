import ScreenerBot.Swaps.FinalizedChain

/-! What the settlement rule is worth when each read may be answered by another node. -/
namespace ScreenerBot.Swaps

open Library Rpc

/-- The calls of a run, each with the node that answered it. -/
abbrev Reads := List (NodeView × Exchange NodeCall)

variable {chain : FinalizedChain} {reads all : Reads}

/-- Every node answers from its own prefix of the chain. -/
def Truthful (chain : FinalizedChain) (reads : Reads) : Prop :=
  ∀ read ∈ reads, read.1.Answers chain read.2

/-- A node that answers a transaction lookup has reached the block that holds the transaction. -/
def ReachedBy (chain : FinalizedChain) : NodeView × Exchange NodeCall → Prop
  | (node, ⟨.transaction signature, .ok _⟩) => node.Reached chain signature
  | _ => True

/-- Every node that answers a transaction lookup has reached the block that holds it. -/
def LookupsReached (chain : FinalizedChain) (reads : Reads) : Prop :=
  ∀ read ∈ reads, ReachedBy chain read

/-- Some node that was asked holds the signature, failed or not. -/
def Seen (chain : FinalizedChain) (reads : Reads) (signature : String) (failed : Bool) : Prop :=
  ∃ read ∈ reads, read.1.outcome chain signature = some failed

/-- What a verdict promises of the chain and of the nodes that were asked. -/
def VerdictSound (chain : FinalizedChain) (reads : Reads) (signature : String) :
    SignatureVerdict → Prop
  | .notLanded => chain.outcome signature = none
  | .landed => Seen chain reads signature false
  | .failedOnChain => Seen chain reads signature true
  | .pending => True

@[simp] theorem truthful_append {reads₁ reads₂ : Reads} :
    Truthful chain (reads₁ ++ reads₂) ↔ Truthful chain reads₁ ∧ Truthful chain reads₂ := by
  simp only [Truthful, List.mem_append, or_imp, forall_and]

@[simp] theorem truthful_cons {read : NodeView × Exchange NodeCall} :
    Truthful chain (read :: reads) ↔ read.1.Answers chain read.2 ∧ Truthful chain reads := by
  simp only [Truthful, List.forall_mem_cons]

@[simp] theorem lookupsReached_nil : LookupsReached chain [] := by
  simp [LookupsReached]

@[simp] theorem lookupsReached_append {reads₁ reads₂ : Reads} :
    LookupsReached chain (reads₁ ++ reads₂) ↔
      LookupsReached chain reads₁ ∧ LookupsReached chain reads₂ := by
  simp only [LookupsReached, List.mem_append, or_imp, forall_and]

@[simp] theorem lookupsReached_cons {read : NodeView × Exchange NodeCall} :
    LookupsReached chain (read :: reads) ↔ ReachedBy chain read ∧ LookupsReached chain reads := by
  simp only [LookupsReached, List.forall_mem_cons]

/-- What a status decides by itself is what its node's prefix says. -/
theorem verdictSound_of_decided {node : NodeView} {signature : String}
    {status : Option TransactionStatus} {slot : ℕ} {bound : Option ℕ} {tip : Option FinalizedTip}
    {verdict : SignatureVerdict} (hseen : ∃ read ∈ all, read.1 = node)
    (hstatus : node.AnswersStatus chain signature status)
    (h : classifyStatus status slot bound tip = .decided verdict) :
    VerdictSound chain all signature verdict := by
  obtain ⟨read, hread, rfl⟩ := hseen
  cases status with
  | none =>
    have hpending : verdict = .pending := by
      unfold classifyStatus at h
      split at h
      · cases ‹none = some _›
      · split at h
        · split at h
          · cases h
          · exact (StatusRead.decided.inj h).symm
        · exact (StatusRead.decided.inj h).symm
    rw [hpending]
    trivial
  | some status =>
    simp only [classifyStatus] at h
    cases hlevel : status.level with
    | processed =>
      rw [hlevel] at h
      rw [← StatusRead.decided.inj h]
      trivial
    | confirmed | finalized =>
      have houtcome : read.1.outcome chain signature = some status.err.isSome :=
        hstatus.resolve_left (by simp [hlevel])
      rw [hlevel] at h
      simp only at h
      split at h
      next hfailed =>
        rw [← StatusRead.decided.inj h]
        exact ⟨read, hread, by rw [houtcome, hfailed]⟩
      next hlanded =>
        rw [← StatusRead.decided.inj h]
        exact ⟨read, hread, by rw [houtcome]; simpa using hlanded⟩

/-- What a lookup decides is sound exactly when its node had reached the block. -/
theorem verdictSound_lookup {node : NodeView} {signature : String}
    {found : Except CallError (Option ExecutedTransaction)}
    (hmem : (node, ⟨.transaction signature, found⟩) ∈ all)
    (hanswer : node.Answers chain ⟨.transaction signature, found⟩) :
    VerdictSound chain all signature (transactionLookup found).verdict ↔
      ReachedBy chain (node, ⟨.transaction signature, found⟩) := by
  cases found with
  | error e => simp [transactionLookup, TransactionLookup.verdict, VerdictSound, ReachedBy]
  | ok found =>
    cases found with
    | none =>
      have hnone : node.outcome chain signature = none := hanswer
      constructor
      · intro hsound block hblock
        rw [FinalizedChain.outcome_eq_none_iff.mp hsound] at hblock
        cases hblock
      · intro hreached
        exact (NodeView.outcome_of_reached hreached).symm.trans hnone
    | some found =>
      obtain ⟨failed, houtcome, hmeta⟩ := hanswer
      have hreached := NodeView.reached_of_outcome houtcome
      refine iff_of_true ?_ hreached
      obtain ⟨statusMeta⟩ := found
      rcases statusMeta with _ | _ | err
      · trivial
      · exact ⟨_, hmem, by rw [houtcome, hmeta _ rfl]; rfl⟩
      · exact ⟨_, hmem, by rw [houtcome, hmeta _ rfl]; rfl⟩

/-- A status answered by a node that was asked. -/
def StatusAnswered (chain : FinalizedChain) (reads : Reads) (signature : String)
    (status : Option TransactionStatus) : Prop :=
  ∃ read ∈ reads, read.1.AnswersStatus chain signature status

theorem settleSignature_sound {tip : Option FinalizedTip} {bound : Option ℕ} {signature : String}
    {slot : ℕ} {status : Option TransactionStatus} {verdict : SignatureVerdict}
    (hrun : (settleSignature tip bound signature slot status).AnsweredBy reads verdict)
    (hreads : ∀ read ∈ reads, read ∈ all) (htruthful : Truthful chain reads)
    (hstatus : StatusAnswered chain all signature status) :
    VerdictSound chain all signature verdict ↔ LookupsReached chain reads := by
  unfold settleSignature at hrun
  split at hrun
  next hdecided =>
    obtain ⟨rfl, rfl⟩ := Program.answeredBy_pure.mp hrun
    obtain ⟨read, hread, hanswers⟩ := hstatus
    exact iff_of_true (verdictSound_of_decided ⟨read, hread, rfl⟩ hanswers hdecided)
      lookupsReached_nil
  next hlookup =>
    obtain ⟨node, found, rest, rfl, hrest⟩ := Program.answeredBy_perform_bind.mp hrun
    obtain ⟨rfl, rfl⟩ := Program.answeredBy_pure.mp hrest
    rw [verdictSound_lookup (hreads _ (List.mem_singleton.mpr rfl)) (truthful_cons.mp htruthful).1]
    simp

/-- The verdicts of a batch are sound exactly when its lookups were answered by nodes that had
reached the transactions. -/
theorem settleSignatures_sound {tip : Option FinalizedTip}
    {entries : List (Option ℕ × String × ℕ × Option TransactionStatus)}
    {verdicts : List SignatureVerdict}
    (hrun : (settleSignatures tip entries).AnsweredBy reads verdicts)
    (hreads : ∀ read ∈ reads, read ∈ all) (htruthful : Truthful chain reads)
    (hstatus : ∀ entry ∈ entries, StatusAnswered chain all entry.2.1 entry.2.2.2) :
    List.Forall₂ (VerdictSound chain all) (entries.map (·.2.1)) verdicts ↔
      LookupsReached chain reads := by
  induction entries generalizing reads verdicts with
  | nil =>
    obtain ⟨rfl, rfl⟩ := Program.answeredBy_pure.mp hrun
    simp
  | cons entry entries ih =>
    obtain ⟨reads₁, verdict, reads₂, rfl, hfirst, hothers⟩ := Program.answeredBy_bind.mp hrun
    obtain ⟨reads₂, rest, reads₃, rfl, hrest, hdone⟩ := Program.answeredBy_bind.mp hothers
    obtain ⟨rfl, rfl⟩ := Program.answeredBy_pure.mp hdone
    simp only [List.mem_append, or_imp, forall_and, truthful_append, List.forall_mem_cons] at *
    rw [List.map_cons, List.forall₂_cons, lookupsReached_append, lookupsReached_append,
      settleSignature_sound hfirst hreads.1 htruthful.1 hstatus.1,
      ih hrest hreads.2.1 htruthful.2.1 hstatus.2]
    simp

/-- Every status of a batch was answered by some node, and status reads are no lookups. -/
theorem readStatuses_answered {pieces : List (List String)}
    {statuses : List (ℕ × Option TransactionStatus)}
    (hrun : Attempt.AnsweredBy (readStatuses pieces) reads (.ok statuses))
    (htruthful : Truthful chain reads) :
    LookupsReached chain reads ∧ List.Forall₂ (fun signature status =>
      StatusAnswered chain reads signature status.2) pieces.flatten statuses := by
  induction pieces generalizing reads statuses with
  | nil =>
    obtain ⟨hnil, hstatuses⟩ := Attempt.answered_pure.mp hrun
    obtain rfl := List.map_eq_nil_iff.mp hnil
    cases hstatuses
    simp
  | cons piece pieces ih =>
    obtain ⟨reads₁, read, reads₂, rfl, hread, hrest⟩ := Attempt.answeredBy_bind_ok.mp hrun
    obtain ⟨node, answer, rfl, hanswer⟩ := Attempt.answeredBy_performWith.mp hread
    obtain ⟨slot, pieceStatuses⟩ := read
    cases answer with
    | error e => cases hanswer
    | ok found =>
      cases hanswer
      obtain ⟨reads₃, rest, reads₄, rfl, hrec, hdone⟩ := Attempt.answeredBy_bind_ok.mp hrest
      obtain ⟨hnil, hstatuses⟩ := Attempt.answered_pure.mp hdone
      obtain rfl := List.map_eq_nil_iff.mp hnil
      cases hstatuses
      simp only [truthful_append, truthful_cons] at htruthful
      obtain ⟨⟨⟨-, hpiece⟩, -⟩, htruthful, -⟩ := htruthful
      obtain ⟨hlookups, hforall⟩ := ih hrec htruthful
      refine ⟨by simp [hlookups, ReachedBy], ?_⟩
      rw [List.flatten_cons]
      refine List.rel_append ?_ ?_
      · rw [List.forall₂_map_right_iff]
        exact hpiece.imp fun _ _ hstatus => ⟨_, .head _, hstatus⟩
      · exact hforall.imp fun _ _ ⟨read, hread, hstatus⟩ => ⟨read, by simp [hread], hstatus⟩

/-- The tip is read at most once, and its read is no lookup. -/
theorem readTip_answered {needed : Bool} {tip : Option FinalizedTip}
    (hrun : (readTip needed).AnsweredBy reads tip) : LookupsReached chain reads := by
  unfold readTip at hrun
  split at hrun
  · obtain ⟨node, answer, rest, rfl, hrest⟩ := Program.answeredBy_perform_bind.mp hrun
    obtain ⟨rfl, rfl⟩ := Program.answeredBy_pure.mp hrest
    simp [ReachedBy]
  · obtain ⟨rfl, rfl⟩ := Program.answeredBy_pure.mp hrun
    exact lookupsReached_nil

/-- The verdicts of signature_verdicts are sound exactly when every node that answered a transaction
lookup had reached the block that holds the transaction. -/
theorem signatureVerdicts_sound {fromStr : String → Except String String}
    {checks : List SignatureCheck} {signatures : List String} {verdicts : List SignatureVerdict}
    (hparse : parseSignatures fromStr checks = .ok signatures)
    (hrun : Attempt.AnsweredBy (signatureVerdicts fromStr checks) reads (.ok verdicts))
    (htruthful : Truthful chain reads) :
    List.Forall₂ (VerdictSound chain reads) signatures verdicts ↔ LookupsReached chain reads := by
  unfold signatureVerdicts at hrun
  split at hrun
  next hempty =>
    obtain ⟨hnil, hverdicts⟩ := Attempt.answered_pure.mp hrun
    obtain rfl := List.map_eq_nil_iff.mp hnil
    cases hverdicts
    rw [List.isEmpty_iff.mp hempty] at hparse
    cases hparse
    simp
  next hsome =>
    obtain ⟨reads₁, parsed, reads₂, rfl, hparsing, hstatuses⟩ := Attempt.answeredBy_bind_ok.mp hrun
    obtain ⟨hnil, hparsed⟩ := Program.answered_pure.mp hparsing
    obtain rfl := List.map_eq_nil_iff.mp hnil
    rw [hparse, Except.ok.injEq] at hparsed
    subst hparsed
    obtain ⟨reads₂, statuses, reads₃, rfl, hread, hrest⟩ := Attempt.answeredBy_bind_ok.mp hstatuses
    split at hrest
    next hshort =>
      obtain ⟨reads₃, never, reads₄, rfl, hthrow, -⟩ := Attempt.answeredBy_bind_ok.mp hrest
      cases (Attempt.answered_throw.mp hthrow).2
    next hlength =>
      obtain ⟨reads₃, tip, reads₄, rfl, hlift, hlast⟩ := Attempt.answeredBy_bind_ok.mp hrest
      obtain ⟨tip, htip, ⟨⟩⟩ := Attempt.answeredBy_lift.mp hlift
      obtain ⟨verdicts, hsettle, ⟨⟩⟩ := Attempt.answeredBy_lift.mp hlast
      simp only [truthful_append, List.nil_append] at htruthful
      obtain ⟨hlookups, hforall⟩ := readStatuses_answered hread htruthful.1
      rw [chunks_flatten (by decide)] at hforall
      obtain ⟨hequal, hzip⟩ := List.forall₂_iff_zip.mp hforall
      -- one status for each check, so that the entries line up with the signatures
      have hchecks : parsed.length ≤ checks.length := by
        rw [hequal]
        exact (not_not.mp hlength).le
      have hentries : ((checks.map (·.expiryBound)).zip (parsed.zip statuses)).map (·.2.1) =
          parsed := by
        calc ((checks.map (·.expiryBound)).zip (parsed.zip statuses)).map (·.2.1)
            = (((checks.map (·.expiryBound)).zip (parsed.zip statuses)).map Prod.snd).map
              Prod.fst := by
              rw [List.map_map]
              rfl
          _ = (parsed.zip statuses).map Prod.fst := by
              rw [List.map_snd_zip (by simp [← hequal, hchecks])]
          _ = parsed := List.map_fst_zip hequal.le
      rw [← hentries, settleSignatures_sound hsettle (by simp +contextual) htruthful.2.2]
      · simp [hlookups, readTip_answered htip]
      · intro entry hentry
        obtain ⟨read, hread, hanswers⟩ := hzip (List.of_mem_zip hentry).2
        exact ⟨read, by simp [hread], hanswers⟩

/-- What the settle loop's outcome says of its signature. -/
def Settled.verdict : Settled → SignatureVerdict
  | landed => .landed
  | reverted _ => .failedOnChain
  | expired .. => .notLanded
  | unsettled _ => .pending

/-- A status read is answered by one node, and is no lookup. -/
theorem status_answered {signature : String}
    {read : Except CallError (ℕ × Option TransactionStatus)}
    (hrun : (status signature).AnsweredBy reads read) (htruthful : Truthful chain reads) :
    ∃ node answer, reads = [(node, answer)] ∧ LookupsReached chain reads ∧
      ∀ slot found, read = .ok (slot, found) →
        slot = node.slot ∧ node.AnswersStatus chain signature found := by
  obtain ⟨node, answer, rest, rfl, hrest⟩ := Program.answeredBy_perform_bind.mp hrun
  obtain ⟨rfl, rfl⟩ := Program.answeredBy_pure.mp hrest
  refine ⟨node, _, rfl, by simp [ReachedBy], ?_⟩
  intro slot found hread
  cases answer with
  | error e => cases hread
  | ok answer =>
    obtain ⟨slot', statuses⟩ := answer
    obtain ⟨hslot, hforall⟩ := (truthful_cons.mp htruthful).1
    obtain ⟨found', -, hstatus, ⟨⟩, rfl⟩ := List.forall₂_cons_left_iff.mp hforall
    cases hread
    exact ⟨hslot, hstatus⟩

/-- Only a null status past the expiry, read at or after the tip's slot, is looked up. -/
theorem expired_of_lookUp {found : Option TransactionStatus} {slot : ℕ} {bound : Option ℕ}
    {tip : Option FinalizedTip} (h : classifyStatus found slot bound tip = .lookUpTransaction) :
    ∃ expiry last, bound = some expiry ∧ tip = some last ∧ expiry < last.blockHeight ∧
      last.slot ≤ slot := by
  unfold classifyStatus at h
  split at h
  · split at h
    · cases h
    · split at h <;> cases h
    · split at h <;> cases h
  · split at h
    next expiry last =>
      split at h
      next hexpired => exact ⟨expiry, last, rfl, rfl, hexpired⟩
      next => cases h
    next => cases h

/-- A poll that settles is sound, and one that does not has asked only reached nodes, exactly when
its lookup was answered by a node that had reached the transaction. -/
theorem poll_sound {signature : String} {bound : Option ℕ} {tip : Option FinalizedTip}
    {settled : Option Settled} (hrun : (poll signature bound tip).AnsweredBy reads settled)
    (hreads : ∀ read ∈ reads, read ∈ all) (htruthful : Truthful chain reads) :
    (∀ outcome, settled = some outcome → VerdictSound chain all signature outcome.verdict) ↔
      LookupsReached chain reads := by
  obtain ⟨reads₁, read, reads₂, rfl, hstatus, hrest⟩ := Program.answeredBy_bind.mp hrun
  rw [truthful_append] at htruthful
  obtain ⟨node, answer, rfl, hlookups, hanswers⟩ := status_answered hstatus htruthful.1
  cases read with
  | error e =>
    obtain ⟨rfl, rfl⟩ := Program.answeredBy_pure.mp hrest
    simpa using hlookups
  | ok read =>
    obtain ⟨slot, found⟩ := read
    obtain ⟨-, hfound⟩ := hanswers slot found rfl
    have hseen : ∃ read ∈ all, read.1 = node := ⟨_, hreads _ (.head _), rfl⟩
    simp only at hrest
    split at hrest
    next hdecided =>
      obtain ⟨rfl, rfl⟩ := Program.answeredBy_pure.mp hrest
      have hsound := verdictSound_of_decided hseen hfound hdecided
      simpa [Settled.verdict, hsound] using hlookups
    next hdecided =>
      obtain ⟨rfl, rfl⟩ := Program.answeredBy_pure.mp hrest
      have hsound := verdictSound_of_decided hseen hfound hdecided
      simpa [Settled.verdict, hsound] using hlookups
    next hpending =>
      obtain ⟨rfl, rfl⟩ := Program.answeredBy_pure.mp hrest
      simpa using hlookups
    next hnever =>
      obtain ⟨rfl, rfl⟩ := Program.answeredBy_pure.mp hrest
      simpa using hlookups
    next hlookup =>
      have hfirst := (lookupsReached_cons.mp hlookups).1
      obtain ⟨reader, answer, reads₃, rfl, hfinal⟩ := Program.answeredBy_perform_bind.mp hrest
      have hiff := verdictSound_lookup (hreads _ (.tail _ (.head _)))
        (truthful_cons.mp htruthful.2).1
      cases hverdict : transactionLookup answer with
      | executed error =>
        cases error <;>
        · rw [hverdict] at hfinal hiff
          obtain ⟨rfl, rfl⟩ := Program.answeredBy_pure.mp hfinal
          simpa [hfirst, Settled.verdict, TransactionLookup.verdict] using hiff
      | unreadable =>
        rw [hverdict] at hfinal hiff
        obtain ⟨rfl, rfl⟩ := Program.answeredBy_pure.mp hfinal
        simpa [hfirst, TransactionLookup.verdict, VerdictSound] using hiff
      | missing =>
        obtain ⟨expiry, reached, rfl, rfl, -⟩ := expired_of_lookUp hlookup
        rw [hverdict] at hfinal hiff
        obtain ⟨rfl, rfl⟩ := Program.answeredBy_pure.mp hfinal
        simpa [hfirst, Settled.verdict, TransactionLookup.verdict] using hiff

theorem rebroadcast_answered {transaction : VersionedTransaction} {due : Bool} {done : Unit}
    (hrun : (rebroadcast transaction due).AnsweredBy reads done) : LookupsReached chain reads := by
  unfold rebroadcast at hrun
  split at hrun
  · obtain ⟨node, answer, rest, rfl, hrest⟩ := Program.answeredBy_perform_bind.mp hrun
    obtain ⟨rfl, rfl⟩ := Program.answeredBy_pure.mp hrest
    simp [ReachedBy]
  · obtain ⟨rfl, rfl⟩ := Program.answeredBy_pure.mp hrun
    exact lookupsReached_nil

theorem refreshTip_answered {due : Bool} {tip tip' : Option FinalizedTip}
    (hrun : (refreshTip due tip).AnsweredBy reads tip') : LookupsReached chain reads := by
  unfold refreshTip at hrun
  split at hrun
  · obtain ⟨node, answer, rest, rfl, hrest⟩ := Program.answeredBy_perform_bind.mp hrun
    have hnil : rest = [] := by
      split at hrest
      · exact (Program.answeredBy_pure.mp hrest).1
      · exact (Program.answeredBy_pure.mp hrest).1
    rw [hnil]
    simp [ReachedBy]
  · obtain ⟨rfl, rfl⟩ := Program.answeredBy_pure.mp hrun
    exact lookupsReached_nil

/-- The outcome of the settle loop is sound exactly when every node that answered a transaction
lookup had reached the block that holds the transaction. -/
theorem settle_sound {transaction : VersionedTransaction} {signature : String} {bound : Option ℕ}
    {timeoutMs : ℕ} {rounds : List Round} {tip : Option FinalizedTip} {settled : Settled}
    (hrun : (settle transaction signature bound timeoutMs rounds tip).AnsweredBy reads settled)
    (hreads : ∀ read ∈ reads, read ∈ all) (htruthful : Truthful chain reads) :
    VerdictSound chain all signature settled.verdict ↔ LookupsReached chain reads := by
  induction rounds generalizing reads tip with
  | nil =>
    obtain ⟨reads₁, outcome, reads₂, rfl, hpoll, hrest⟩ := Program.answeredBy_bind.mp hrun
    simp only [List.mem_append, or_imp, forall_and, truthful_append] at hreads htruthful
    have hiff := poll_sound hpoll hreads.1 htruthful.1
    cases outcome with
    | some outcome =>
      obtain ⟨rfl, rfl⟩ := Program.answeredBy_pure.mp hrest
      simpa using hiff
    | none =>
      obtain ⟨rfl, rfl⟩ := Program.answeredBy_pure.mp hrest
      simpa [Settled.verdict, VerdictSound] using hiff
  | cons round rounds ih =>
    obtain ⟨reads₁, outcome, reads₂, rfl, hpoll, hrest⟩ := Program.answeredBy_bind.mp hrun
    simp only [List.mem_append, or_imp, forall_and, truthful_append] at hreads htruthful
    have hiff := poll_sound hpoll hreads.1 htruthful.1
    cases outcome with
    | some outcome =>
      obtain ⟨rfl, rfl⟩ := Program.answeredBy_pure.mp hrest
      simpa using hiff
    | none =>
      obtain ⟨reads₂, done, reads₃, rfl, hsent, hnext⟩ := Program.answeredBy_bind.mp hrest
      obtain ⟨reads₃, tip', reads₄, rfl, htip, hlast⟩ := Program.answeredBy_bind.mp hnext
      simp only [List.mem_append, or_imp, forall_and, truthful_append] at hreads htruthful
      rw [ih hlast hreads.2.2.2 htruthful.2.2.2]
      have hpolled : LookupsReached chain reads₁ := by simpa using hiff
      simp [hpolled, rebroadcast_answered hsent, refreshTip_answered htip]

/-- Verdicts of the settlement reader and outcomes of the settle loop are sound exactly when every
node that answered a transaction lookup had reached the block that holds the transaction. -/
theorem settlement_sound (chain : FinalizedChain) (reads : Reads)
    (htruthful : Truthful chain reads) :
    (∀ (fromStr : String → Except String String) (checks : List SignatureCheck)
        (signatures : List String) (verdicts : List SignatureVerdict),
      parseSignatures fromStr checks = .ok signatures →
      Attempt.AnsweredBy (signatureVerdicts fromStr checks) reads (.ok verdicts) →
        (List.Forall₂ (VerdictSound chain reads) signatures verdicts ↔
          LookupsReached chain reads)) ∧
    (∀ (transaction : VersionedTransaction) (signature : String) (bound : Option ℕ)
        (timeoutMs : ℕ) (rounds : List Round) (settled : Settled),
      (settle transaction signature bound timeoutMs rounds none).AnsweredBy reads settled →
        (VerdictSound chain reads signature settled.verdict ↔ LookupsReached chain reads)) :=
  ⟨fun _ _ _ _ hparse hrun => signatureVerdicts_sound hparse hrun htruthful,
    fun _ _ _ _ _ _ hrun => settle_sound hrun (fun _ h => h) htruthful⟩

/-- A chain whose block at height 10 executed the signature "sig". -/
def landedChain : FinalizedChain where
  blocks := [⟨10, 10, [("sig", false)]⟩, ⟨200, 200, []⟩]
  ascending := by decide

/-- A lookup past the expiry, after a status that its node has forgotten. -/
def forgottenReads (reader : NodeView) (found : Option ExecutedTransaction) : Reads :=
  [(⟨210, fun _ => true⟩, ⟨.signatureStatuses ["sig"], .ok (210, [none])⟩),
    (⟨200, fun _ => false⟩, ⟨.finalizedTip, .ok ⟨200, 200⟩⟩),
    (reader, ⟨.transaction "sig", .ok found⟩)]

theorem forgottenReads_answered (reader : NodeView) (found : Option ExecutedTransaction) :
    Attempt.AnsweredBy (signatureVerdicts .ok [⟨"sig", some 150⟩]) (forgottenReads reader found)
      (.ok [(transactionLookup (.ok found)).verdict]) :=
  .call _ (.call _ (.call _ (.done _)))

theorem forgottenReads_truthful (reader : NodeView) (found : Option ExecutedTransaction)
    (h : reader.Answers landedChain ⟨.transaction "sig", .ok found⟩) :
    Truthful landedChain (forgottenReads reader found) := by
  refine truthful_cons.mpr ⟨⟨rfl, .cons (.inr rfl) .nil⟩, truthful_cons.mpr ⟨?_, ?_⟩⟩
  · exact ⟨⟨200, 200, []⟩, by simp [FinalizedChain.upTo, landedChain], rfl⟩
  · exact truthful_cons.mpr ⟨h, by simp [Truthful]⟩

/-- A node that has reached the transaction still finds what its status forgot. -/
theorem forgotten_status_looked_up :
    List.Forall₂ (VerdictSound landedChain (forgottenReads ⟨210, fun _ => true⟩ (some ⟨some none⟩)))
      ["sig"] [.landed] ∧
    VerdictSound landedChain
      ((⟨210, fun _ => true⟩, ⟨.signatureStatuses ["sig"], .error (.other "timeout")⟩) :: [])
      "sig" (Settled.unsettled 60000).verdict := by
  have htruthful := forgottenReads_truthful ⟨210, fun _ => true⟩ (some ⟨some none⟩)
    ⟨false, by decide, by simp⟩
  have hreached : LookupsReached landedChain
      (forgottenReads ⟨210, fun _ => true⟩ (some ⟨some none⟩)) := by
    simp [forgottenReads, ReachedBy, NodeView.Reached, FinalizedChain.landedIn, landedChain,
      Block.outcome]
  have hsettle : (settle ⟨[], ["sig"]⟩ "sig" (some 150) 60000 [] none).AnsweredBy
      [((⟨210, fun _ => true⟩ : NodeView), ⟨.signatureStatuses ["sig"], .error (.other "timeout")⟩)]
      (.unsettled 60000) := .call _ (.done _)
  have hunread : Truthful landedChain
      [(⟨210, fun _ => true⟩, ⟨.signatureStatuses ["sig"], .error (.other "timeout")⟩)] :=
    truthful_cons.mpr ⟨trivial, by simp [Truthful]⟩
  exact ⟨((settlement_sound landedChain _ htruthful).1 .ok [⟨"sig", some 150⟩] ["sig"] _ rfl
      (forgottenReads_answered _ _)).mpr hreached,
    ((settlement_sound landedChain _ hunread).2 ⟨[], ["sig"]⟩ "sig" (some 150) 60000 []
      (.unsettled 60000) hsettle).mpr (by simp [ReachedBy])⟩

/-- A node that answers the lookup from behind the transaction makes a landed swap not landed. -/
theorem lookup_behind_transaction :
    ¬∀ (chain : FinalizedChain) (reads : Reads) (fromStr : String → Except String String)
      (checks : List SignatureCheck) (signatures : List String) (verdicts : List SignatureVerdict),
      parseSignatures fromStr checks = .ok signatures →
      Attempt.AnsweredBy (signatureVerdicts fromStr checks) reads (.ok verdicts) →
      Truthful chain reads →
      (∀ check ∈ checks, ∀ bound, check.expiryBound = some bound →
        chain.LandsBy check.signature bound) →
      List.Forall₂ (VerdictSound chain reads) signatures verdicts := by
  intro h
  have hbehind : NodeView.outcome landedChain ⟨5, fun _ => false⟩ "sig" = none := by decide
  have hsound := h landedChain (forgottenReads ⟨5, fun _ => false⟩ none) .ok [⟨"sig", some 150⟩]
    ["sig"] _ rfl (forgottenReads_answered _ _) (forgottenReads_truthful _ _ hbehind) (by
      simp [FinalizedChain.LandsBy, FinalizedChain.landedIn, landedChain, Block.outcome])
  have hnone : landedChain.outcome "sig" = none := (List.forall₂_cons.mp hsound).1
  have hlanded : landedChain.outcome "sig" = some false := by decide
  rw [hlanded] at hnone
  cases hnone

end ScreenerBot.Swaps
