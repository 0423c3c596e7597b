import ScreenerBot.Direct.Execute
import ScreenerBot.Swaps.Verdicts

/-! A direct swap that ends in an error, and whether another route may swap again. -/
namespace ScreenerBot.Direct

open Library Rpc Swaps

variable {chain : FinalizedChain} {reads : Reads} {signature : String}

/-- The signature of a transaction that was handed to a node. -/
def Sent (reads : Reads) (signature : String) : Prop :=
  ∃ node transaction answer, (node, ⟨.send transaction, answer⟩) ∈ reads ∧
    transaction.signatures.head? = some signature

/-- Some node took the transaction, or left open whether it did. -/
def Accepted (reads : Reads) (signature : String) : Prop :=
  ∃ node transaction answer, (node, ⟨.send transaction, answer⟩) ∈ reads ∧
    transaction.signatures.head? = some signature ∧
    ∀ error, answer = .error error → ¬error.NotSent

/-- The call that asks for the receipt's node. -/
def ReceiptUnserved (reads : Reads) : Prop :=
  ∃ node detail, (node, ⟨.directNode "getTransaction", .error detail⟩) ∈ reads

/-- One node answers every call, from its own prefix of the chain, and never goes back; what it
says of a blockhash's expiry holds, and only a send it did not refuse brings a transaction to the
chain. -/
structure OneNode (chain : FinalizedChain) (sign : List Instruction → String → VersionedTransaction)
    (reads : Reads) : Prop where
  truthful : Truthful chain reads
  forward : reads.Pairwise fun earlier later => earlier.1.slot ≤ later.1.slot
  expires : ∀ node blockhash bound, (node, ⟨.latestBlockhash, .ok (blockhash, bound)⟩) ∈ reads →
    ∀ instructions signature, (sign instructions blockhash).signatures.head? = some signature →
      chain.LandsBy signature bound
  delivered : ∀ signature, Sent reads signature → chain.outcome signature ≠ none →
    Accepted reads signature

/-- A fallback is allowed only where no transaction that was sent has landed. -/
def FallbackSafe (chain : FinalizedChain) (reads : Reads) (error : DirectSwapError) : Prop :=
  error.safeToFallback = true → ∀ signature, Sent reads signature →
    chain.outcome signature ≠ some false

/-- Neither a send nor the call for the receipt's node. -/
def Quiet : Exchange NodeCall → Prop
  | ⟨.send _, _⟩ => False
  | ⟨.directNode operation, _⟩ => operation ≠ "getTransaction"
  | _ => True

/-- What the settle loop asks: it sends no other transaction, and never for the receipt's node. -/
def Settling (transaction : VersionedTransaction) : Exchange NodeCall → Prop
  | ⟨.send sent, _⟩ => sent = transaction
  | ⟨.directNode _, _⟩ => False
  | _ => True

theorem preflightBalance_quiet (priorityFee : ℕ) (plan : SwapPlan) (owner : String) :
    Attempt.Asks Quiet (preflightBalance priorityFee plan owner) := by
  unfold preflightBalance
  refine .bind (.performWith fun _ => by simp [Quiet]) fun _ => ?_
  refine .bind (.performWith fun _ => trivial) fun accounts => ?_
  split
  · exact .throw _
  · exact .throw _
  · exact .throw _
  · refine .bind ?_ fun _ => .of _
    unfold rentCushionFor ataRentLamports
    split
    · exact .pure _
    · exact .bind (.performWith fun _ => trivial) fun _ => .pure _

theorem gate_quiet (transaction : VersionedTransaction) :
    Program.Asks Quiet (gate transaction) := by
  unfold gate
  split
  · exact .pure _
  · exact .bind (.perform fun _ => trivial) fun _ => .pure _

theorem readDetails_quiet (signature : String) (attempts : ℕ) :
    Program.Asks Quiet (readDetails signature attempts) := by
  induction attempts with
  | zero => exact .pure _
  | succ attempts ih =>
    refine .bind (.perform fun _ => trivial) fun answer => ?_
    cases answer with
    | error _ => exact ih
    | ok _ => exact .pure _

theorem poll_settling (transaction : VersionedTransaction) (signature : String)
    (bound : Option ℕ) (tip : Option FinalizedTip) :
    Program.Asks (Settling transaction) (poll signature bound tip) := by
  unfold poll status
  refine .bind (.bind (.perform fun _ => trivial) fun _ => .pure _) fun read => ?_
  split
  · exact .pure _
  · split
    · exact .pure _
    · exact .pure _
    · exact .pure _
    · exact .pure _
    · refine .bind (.perform fun _ => trivial) fun found => ?_
      split
      · exact .pure _
      · exact .pure _
      · exact .pure _
      · split <;> exact .pure _

theorem settle_settling (transaction : VersionedTransaction) (signature : String)
    (bound : Option ℕ) (timeoutMs : ℕ) (rounds : List Round) (tip : Option FinalizedTip) :
    Program.Asks (Settling transaction)
      (settle transaction signature bound timeoutMs rounds tip) := by
  induction rounds generalizing tip with
  | nil =>
    refine .bind (poll_settling transaction signature bound tip) fun settled => ?_
    cases settled with
    | none => exact .pure _
    | some _ => exact .pure _
  | cons round rounds ih =>
    refine .bind (poll_settling transaction signature bound tip) fun settled => ?_
    cases settled with
    | some _ => exact .pure _
    | none =>
      refine .bind ?_ fun _ => .bind ?_ fun _ => ih _
      · unfold rebroadcast
        split
        · exact .bind (.perform fun _ => rfl) fun _ => .pure _
        · exact .pure _
      · unfold refreshTip
        split
        · refine .bind (.perform fun _ => trivial) fun read => ?_
          cases read with
          | ok _ => exact .pure _
          | error _ => exact .pure _
        · exact .pure _

/-- A tip some node has answered. -/
def TipAnswered (chain : FinalizedChain) (tip : Option FinalizedTip) : Prop :=
  ∀ last, tip = some last → ∃ node : NodeView, node.Answers chain ⟨.finalizedTip, .ok last⟩

/-- A refreshed tip was answered, now or before. -/
theorem refreshTip_told {due : Bool} {tip tip' : Option FinalizedTip}
    (hrun : (refreshTip due tip).AnsweredBy reads tip') (htruthful : Truthful chain reads)
    (htip : TipAnswered chain tip) : TipAnswered chain tip' := by
  unfold refreshTip at hrun
  split at hrun
  · obtain ⟨node, answer, rest, rfl, hrest⟩ := Program.answeredBy_perform_bind.mp hrun
    cases answer with
    | ok read =>
      obtain ⟨-, rfl⟩ := Program.answeredBy_pure.mp hrest
      intro last hlast
      obtain rfl := Option.some.inj hlast
      exact ⟨node, (truthful_cons.mp htruthful).1⟩
    | error _ =>
      obtain ⟨-, rfl⟩ := Program.answeredBy_pure.mp hrest
      exact htip
  · obtain ⟨-, rfl⟩ := Program.answeredBy_pure.mp hrun
    exact htip

/-- A node that never goes back has reached every transaction it looks up past the expiry. -/
theorem poll_reached {bound : ℕ} {tip : Option FinalizedTip} {settled : Option Settled}
    (hrun : (poll signature (some bound) tip).AnsweredBy reads settled)
    (htruthful : Truthful chain reads)
    (hforward : reads.Pairwise fun earlier later => earlier.1.slot ≤ later.1.slot)
    (htip : TipAnswered chain tip) (hbound : chain.LandsBy signature bound) :
    LookupsReached chain reads := by
  obtain ⟨reads₁, read, reads₂, rfl, hstatus, hrest⟩ := Program.answeredBy_bind.mp hrun
  rw [truthful_append] at htruthful
  obtain ⟨node, answer, rfl, hlookups, hanswers⟩ := status_answered hstatus htruthful.1
  cases read with
  | error e =>
    obtain ⟨rfl, rfl⟩ := Program.answeredBy_pure.mp hrest
    simpa using hlookups
  | ok read =>
    obtain ⟨slot, found⟩ := read
    obtain ⟨rfl, -⟩ := hanswers slot found rfl
    simp only at hrest
    split at hrest
    iterate 4
      next =>
        obtain ⟨rfl, rfl⟩ := Program.answeredBy_pure.mp hrest
        simpa using hlookups
    next hlookup =>
      obtain ⟨reader, found', rest, rfl, hfinal⟩ := Program.answeredBy_perform_bind.mp hrest
      obtain ⟨expiry, last, hexpiry, rfl, hexpired, hslot⟩ := expired_of_lookUp hlookup
      obtain rfl : bound = expiry := Option.some.inj hexpiry
      obtain ⟨teller, htold⟩ := htip last rfl
      have hrest : rest = [] := by
        split at hfinal
        · exact (Program.answeredBy_pure.mp hfinal).1
        · exact (Program.answeredBy_pure.mp hfinal).1
        · exact (Program.answeredBy_pure.mp hfinal).1
        · exact (Program.answeredBy_pure.mp hfinal).1
      subst hrest
      have hlater : node.slot ≤ reader.slot := by simpa using hforward
      have hreached := NodeView.reached_of_tip htold hbound hexpired
        (hslot.trans hlater)
      rw [lookupsReached_append]
      refine ⟨hlookups, ?_⟩
      cases found' with
      | error _ => simp [ReachedBy]
      | ok _ => simpa [ReachedBy] using hreached

/-- The settle loop of a node that never goes back looks up only what it has reached. -/
theorem settle_reached {transaction : VersionedTransaction} {bound timeoutMs : ℕ}
    {rounds : List Round} {tip : Option FinalizedTip} {settled : Settled}
    (hrun : (settle transaction signature (some bound) timeoutMs rounds tip).AnsweredBy reads
      settled)
    (htruthful : Truthful chain reads)
    (hforward : reads.Pairwise fun earlier later => earlier.1.slot ≤ later.1.slot)
    (htip : TipAnswered chain tip) (hbound : chain.LandsBy signature bound) :
    LookupsReached chain reads := by
  induction rounds generalizing reads tip with
  | nil =>
    obtain ⟨reads₁, outcome, reads₂, rfl, hpoll, hrest⟩ := Program.answeredBy_bind.mp hrun
    rw [truthful_append] at htruthful
    rw [List.pairwise_append] at hforward
    have hpolled := poll_reached hpoll htruthful.1 hforward.1 htip hbound
    cases outcome with
    | some _ =>
      obtain ⟨rfl, rfl⟩ := Program.answeredBy_pure.mp hrest
      simpa using hpolled
    | none =>
      obtain ⟨rfl, rfl⟩ := Program.answeredBy_pure.mp hrest
      simpa using hpolled
  | cons round rounds ih =>
    obtain ⟨reads₁, outcome, reads₂, rfl, hpoll, hrest⟩ := Program.answeredBy_bind.mp hrun
    rw [truthful_append] at htruthful
    rw [List.pairwise_append] at hforward
    have hpolled := poll_reached hpoll htruthful.1 hforward.1 htip hbound
    cases outcome with
    | some _ =>
      obtain ⟨rfl, rfl⟩ := Program.answeredBy_pure.mp hrest
      simpa using hpolled
    | none =>
      obtain ⟨reads₂, done, reads₃, rfl, hsent, hnext⟩ := Program.answeredBy_bind.mp hrest
      obtain ⟨reads₃, tip', reads₄, rfl, hrefresh, hlast⟩ := Program.answeredBy_bind.mp hnext
      simp only [truthful_append, List.pairwise_append] at htruthful hforward
      have htip' : TipAnswered chain tip' := refreshTip_told hrefresh htruthful.2.2.1 htip
      simp only [lookupsReached_append]
      exact ⟨hpolled, rebroadcast_answered hsent, refreshTip_answered hrefresh,
        ih hlast htruthful.2.2.2 hforward.2.1.2.1.2.1 htip'⟩

theorem prepare_quiet (priorityFee : ℕ)
    (sign : List Instruction → String → VersionedTransaction) (owner : String) (plan : SwapPlan) :
    Attempt.Asks Quiet (prepare priorityFee sign owner plan) := by
  unfold prepare directNode
  refine .bind (.performWith fun _ => by simp [Quiet]) fun _ => ?_
  refine .bind (preflightBalance_quiet priorityFee plan owner) fun _ => ?_
  refine .bind (.performWith fun _ => trivial) fun _ => ?_
  refine .bind (.lift (gate_quiet _)) fun _ => ?_
  exact .bind (.of _) fun _ => .pure _

/-- The transaction is signed over the blockhash whose expiry goes with it. -/
theorem prepare_ok {priorityFee : ℕ} {sign : List Instruction → String → VersionedTransaction}
    {owner : String} {plan : SwapPlan} {transaction : VersionedTransaction} {bound : ℕ}
    (hrun : Attempt.AnsweredBy (prepare priorityFee sign owner plan) reads
      (.ok (transaction, bound))) :
    ∃ node blockhash instructions,
      (node, ⟨.latestBlockhash, .ok (blockhash, bound)⟩) ∈ reads ∧
        transaction = sign instructions blockhash := by
  obtain ⟨reads₁, _, reads₂, rfl, -, hrest⟩ := Attempt.answeredBy_bind_ok.mp hrun
  obtain ⟨reads₂, _, reads₃, rfl, -, hrest'⟩ := Attempt.answeredBy_bind_ok.mp hrest
  obtain ⟨reads₃, ⟨blockhash, valid⟩, reads₄, rfl, hhash, hgate⟩ :=
    Attempt.answeredBy_bind_ok.mp hrest'
  obtain ⟨node, answer, rfl, hanswer⟩ := Attempt.answeredBy_performWith.mp hhash
  obtain ⟨reads₄, verdict, reads₅, rfl, -, hcleared⟩ := Attempt.answeredBy_bind_ok.mp hgate
  obtain ⟨reads₅, outcome, reads₆, rfl, -, hdone⟩ := Attempt.answeredBy_bind_ok.mp hcleared
  obtain ⟨-, hresult⟩ := Attempt.answered_pure.mp hdone
  obtain ⟨rfl, rfl⟩ := Prod.mk.inj (Except.ok.inj hresult)
  cases answer with
  | error _ => cases hanswer
  | ok answer =>
    obtain rfl := Except.ok.inj hanswer
    exact ⟨node, blockhash, _, by simp, rfl⟩

/-- The three ways a send ends: nothing was sent, a node refused it, or its signature is settled. -/
theorem sendAndSettle_cases {transaction : VersionedTransaction} {bound : Option ℕ} {timeoutMs : ℕ}
    {rounds : List Round} {result : Except NotSubmittedReason (String × Settled)}
    (hrun : Attempt.AnsweredBy (sendAndSettle transaction bound timeoutMs rounds) reads result) :
    (reads = [] ∧ ∃ reason, result = .error reason) ∨
    (∃ node refusal reason, reads = [(node, ⟨.send transaction, .error refusal⟩)] ∧
      refusal.NotSent ∧ result = .error reason) ∨
    ∃ node answer rest signature settled, reads = (node, ⟨.send transaction, answer⟩) :: rest ∧
      transaction.signatures.head? = some signature ∧
      (settle transaction signature bound timeoutMs rounds none).AnsweredBy rest settled ∧
      result = .ok (signature, settled) := by
  unfold sendAndSettle at hrun
  obtain ⟨e, rfl, hmeasure⟩ | ⟨reads₁, _, reads₂, rfl, hmeasure, hrest⟩ :=
    Attempt.answeredBy_bind.mp hrun
  · obtain ⟨hnil, -⟩ := Program.answeredBy_pure.mp hmeasure
    exact .inl ⟨hnil, e, rfl⟩
  obtain ⟨rfl, -⟩ := Program.answeredBy_pure.mp hmeasure
  split at hrest
  next =>
    obtain ⟨hnil, rfl⟩ := Attempt.answered_throw.mp hrest
    exact .inl ⟨by simpa using hnil, _, rfl⟩
  next signature hsignature =>
    obtain ⟨node, answer, rest, rfl, hsent⟩ := Attempt.answeredBy_ask_bind.mp hrest
    have hsettles : ∀ {attempt : Attempt NodeCall NotSubmittedReason (String × Settled)},
        attempt = (do
          let settled ← ExceptT.lift
            (settle transaction signature bound timeoutMs rounds none)
          return (signature, settled)) →
        Attempt.AnsweredBy attempt rest result → ∃ settled,
          (settle transaction signature bound timeoutMs rounds none).AnsweredBy rest settled ∧
            result = .ok (signature, settled) := by
      rintro _ rfl hsettle
      obtain ⟨e, -, hlift⟩ | ⟨reads₃, settled, reads₄, rfl, hlift, hdone⟩ :=
        Attempt.answeredBy_bind.mp hsettle
      · obtain ⟨_, -, ⟨⟩⟩ := Attempt.answeredBy_lift.mp hlift
      · obtain ⟨_, hloop, hsame⟩ := Attempt.answeredBy_lift.mp hlift
        obtain rfl := Except.ok.inj hsame
        obtain ⟨hnil, rfl⟩ := Attempt.answered_pure.mp hdone
        obtain rfl := List.map_eq_nil_iff.mp hnil
        exact ⟨_, by simpa using hloop, rfl⟩
    cases answer with
    | ok _ =>
      obtain ⟨settled, hloop, rfl⟩ := hsettles rfl hsent
      exact .inr (.inr ⟨node, _, rest, signature, settled, rfl, hsignature, hloop, rfl⟩)
    | error refusal =>
      simp only at hsent
      cases hfailure : sendFailure refusal with
      | notSent reason =>
        rw [hfailure] at hsent
        obtain ⟨hnil, rfl⟩ := Attempt.answered_throw.mp hsent
        obtain rfl := List.map_eq_nil_iff.mp hnil
        exact .inr (.inl ⟨node, refusal, reason, rfl, ⟨reason, hfailure⟩, rfl⟩)
      | unproven _ =>
        rw [hfailure] at hsent
        obtain ⟨settled, hloop, rfl⟩ := hsettles rfl hsent
        exact .inr (.inr ⟨node, _, rest, signature, settled, rfl, hsignature, hloop, rfl⟩)

theorem sendSettled_cases {transaction : VersionedTransaction} {bound timeoutMs : ℕ}
    {rounds : List Round} {result : Except DirectSwapError String}
    (hrun : Attempt.AnsweredBy (sendSettled transaction bound timeoutMs rounds) reads result) :
    (reads = [] ∧ ∃ error, result = .error error) ∨
    (∃ node refusal error, reads = [(node, ⟨.send transaction, .error refusal⟩)] ∧
      refusal.NotSent ∧ result = .error error) ∨
    ∃ node answer rest signature settled, reads = (node, ⟨.send transaction, answer⟩) :: rest ∧
      transaction.signatures.head? = some signature ∧
      (settle transaction signature (some bound) timeoutMs rounds none).AnsweredBy rest settled ∧
      result = settledResult signature settled := by
  unfold sendSettled at hrun
  obtain ⟨e, -, hlift⟩ | ⟨reads₁, outcome, reads₂, rfl, hlift, hrest⟩ :=
    Attempt.answeredBy_bind.mp hrun
  · obtain ⟨_, -, ⟨⟩⟩ := Attempt.answeredBy_lift.mp hlift
  obtain ⟨_, hsend, hsame⟩ := Attempt.answeredBy_lift.mp hlift
  obtain rfl := Except.ok.inj hsame
  obtain ⟨rfl, reason, rfl⟩ | ⟨node, refusal, reason, rfl, hrefusal, rfl⟩ |
      ⟨node, answer, rest, signature, settled, rfl, hsignature, hloop, rfl⟩ :=
    sendAndSettle_cases hsend
  · obtain ⟨hnil, rfl⟩ := Attempt.answered_throw.mp hrest
    obtain rfl := List.map_eq_nil_iff.mp hnil
    exact .inl ⟨rfl, _, rfl⟩
  · obtain ⟨hnil, rfl⟩ := Attempt.answered_throw.mp hrest
    obtain rfl := List.map_eq_nil_iff.mp hnil
    exact .inr (.inl ⟨node, refusal, _, rfl, hrefusal, rfl⟩)
  · obtain ⟨rfl, rfl⟩ := Program.answeredBy_pure.mp hrest
    exact .inr (.inr ⟨node, answer, rest, signature, settled, by simp, hsignature, hloop, rfl⟩)

/-- Every read of a run is one of the calls the program asks. -/
theorem asked {P : Exchange NodeCall → Prop} {α : Type} {program : Program NodeCall α} {a : α}
    (h : Program.Asks P program) (hrun : program.AnsweredBy reads a) : ∀ read ∈ reads, P read.2 :=
  fun _ hread => h _ _ hrun _ (List.mem_map_of_mem hread)

theorem sent_append {before after : Reads} :
    Sent (before ++ after) signature ↔ Sent before signature ∨ Sent after signature := by
  simp only [Sent, List.mem_append, or_and_right, exists_or]

theorem accepted_append {before after : Reads} :
    Accepted (before ++ after) signature ↔ Accepted before signature ∨
      Accepted after signature := by
  simp only [Accepted, List.mem_append, or_and_right, exists_or]

theorem receiptUnserved_append {before after : Reads} :
    ReceiptUnserved (before ++ after) ↔ ReceiptUnserved before ∨ ReceiptUnserved after := by
  simp only [ReceiptUnserved, List.mem_append, exists_or]

theorem not_sent_of_quiet (h : ∀ read ∈ reads, Quiet read.2) : ¬Sent reads signature := by
  rintro ⟨node, transaction, answer, hmem, -⟩
  exact h _ hmem

theorem not_accepted_of_quiet (h : ∀ read ∈ reads, Quiet read.2) : ¬Accepted reads signature := by
  rintro ⟨node, transaction, answer, hmem, -⟩
  exact h _ hmem

theorem not_unserved_of_quiet (h : ∀ read ∈ reads, Quiet read.2) : ¬ReceiptUnserved reads := by
  rintro ⟨node, detail, hmem⟩
  exact h _ hmem rfl

theorem not_unserved_of_settling {transaction : VersionedTransaction}
    (h : ∀ read ∈ reads, Settling transaction read.2) : ¬ReceiptUnserved reads := by
  rintro ⟨node, detail, hmem⟩
  exact h _ hmem

theorem head_of_settling {transaction : VersionedTransaction}
    (h : ∀ read ∈ reads, Settling transaction read.2) (hsent : Sent reads signature) :
    transaction.signatures.head? = some signature := by
  obtain ⟨node, sent, answer, hmem, hhead⟩ := hsent
  obtain rfl : sent = transaction := h _ hmem
  exact hhead

theorem not_sent_directNode {node : NodeView} {operation : String} {answer : Except String Unit} :
    ¬Sent [(node, ⟨.directNode operation, answer⟩)] signature := by
  rintro ⟨_, transaction, sent, hmem, -⟩
  have hcall : Settling transaction ⟨.send transaction, sent⟩ := rfl
  rw [(Prod.mk.inj (List.mem_singleton.mp hmem)).2] at hcall
  exact hcall

theorem outcome_of_seen {failed : Bool} (h : Seen chain reads signature failed) :
    chain.outcome signature = some failed := by
  obtain ⟨read, -, houtcome⟩ := h
  exact FinalizedChain.outcome_of_upTo houtcome

/-- The details a receipt is read from were answered by a node that holds the transaction. -/
theorem readDetails_answered {attempts : ℕ} {details : TransactionDetails}
    (hrun : (readDetails signature attempts).AnsweredBy reads (some details))
    (htruthful : Truthful chain reads) :
    ∃ failed, chain.outcome signature = some failed ∧
      ∀ statusMeta, details.statusMeta = some statusMeta → failed = statusMeta.err.isSome := by
  induction attempts generalizing reads with
  | zero =>
    obtain ⟨-, hnone⟩ := Program.answeredBy_pure.mp hrun
    cases hnone
  | succ attempts ih =>
    obtain ⟨node, answer, rest, rfl, hrest⟩ := Program.answeredBy_perform_bind.mp hrun
    rw [truthful_cons] at htruthful
    cases answer with
    | error _ => exact ih hrest htruthful.2
    | ok found =>
      obtain ⟨-, hsame⟩ := Program.answeredBy_pure.mp hrest
      obtain rfl := Option.some.inj hsame
      obtain ⟨failed, houtcome, hmeta⟩ := htruthful.1
      exact ⟨failed, FinalizedChain.outcome_of_upTo houtcome, hmeta⟩

/-- How a receipt ends in an error: its node is not served, the chain holds the transaction as
failed, or what was measured falls short. -/
theorem readReceipt_cases {owner : String} {plan : SwapPlan} {error : DirectSwapError}
    (hrun : Attempt.AnsweredBy (readReceipt signature owner plan) reads (.error error))
    (htruthful : Truthful chain reads) :
    (∃ detail, error = .nodeUnavailable "getTransaction" detail ∧ ReceiptUnserved reads ∧
      ∀ s, ¬Sent reads s) ∨
    (chain.outcome signature = some true ∨ error.safeToFallback = false) ∧
      ¬ReceiptUnserved reads ∧ ∀ s, ¬Sent reads s := by
  unfold readReceipt directNode at hrun
  obtain ⟨e, hsame, hserved⟩ | ⟨reads₁, _, reads₂, rfl, hserved, hrest⟩ :=
    Attempt.answeredBy_bind.mp hrun
  · obtain rfl := Except.error.inj hsame
    obtain ⟨node, answer, rfl, hanswer⟩ := Attempt.answeredBy_performWith.mp hserved
    cases answer with
    | ok _ => cases hanswer
    | error detail =>
      exact .inl ⟨detail, Except.error.inj hanswer, ⟨node, detail, .head _⟩,
        fun s => not_sent_directNode⟩
  · obtain ⟨node, answer, rfl, hanswer⟩ := Attempt.answeredBy_performWith.mp hserved
    cases answer with
    | error _ => cases hanswer
    | ok _ =>
      obtain ⟨e, -, hlift⟩ | ⟨reads₂, found, reads₃, rfl, hlift, hreceipt⟩ :=
        Attempt.answeredBy_bind.mp hrest
      · obtain ⟨_, -, ⟨⟩⟩ := Attempt.answeredBy_lift.mp hlift
      obtain ⟨_, hdetails, hsame⟩ := Attempt.answeredBy_lift.mp hlift
      obtain rfl := Except.ok.inj hsame
      have hquiet := asked (readDetails_quiet _ _) hdetails
      cases found with
      | none =>
        obtain ⟨-, hok⟩ := Attempt.answered_pure.mp hreceipt
        cases hok
      | some details =>
        obtain ⟨rfl, herror⟩ := Program.answeredBy_pure.mp hreceipt
        rw [List.append_nil] at htruthful ⊢
        refine .inr ⟨?_, ?_, fun s hsent => ?_⟩
        · obtain ⟨statusMeta, detail, hmeta, herr, rfl⟩ | ⟨minimum, received, rfl⟩ :=
            receiptFromTransaction_error herror.symm
          · obtain ⟨failed, houtcome, hfailed⟩ :=
              readDetails_answered hdetails (truthful_append.mp htruthful).2
            rw [hfailed _ hmeta, herr] at houtcome
            exact .inl houtcome
          · exact .inr rfl
        · rw [receiptUnserved_append]
          rintro (⟨_, _, hmem⟩ | hunserved)
          · cases List.mem_singleton.mp hmem
          · exact not_unserved_of_quiet hquiet hunserved
        · rcases sent_append.mp hsent with hsent | hsent
          · exact not_sent_directNode hsent
          · exact not_sent_of_quiet hquiet hsent

theorem not_accepted_refused {node : NodeView} {transaction : VersionedTransaction}
    {refusal : CallError} (h : refusal.NotSent) :
    ¬Accepted [(node, ⟨.send transaction, .error refusal⟩)] signature := by
  rintro ⟨_, _, answer, hmem, -, hopen⟩
  obtain ⟨⟩ := List.mem_singleton.mp hmem
  exact hopen refusal rfl h

theorem sends_settling (node : NodeView) {transaction : VersionedTransaction}
    (answer : Except CallError String) (h : ∀ read ∈ reads, Settling transaction read.2) :
    ∀ read ∈ (node, (⟨.send transaction, answer⟩ : Exchange NodeCall)) :: reads,
      Settling transaction read.2 :=
  List.forall_mem_cons.mpr ⟨rfl, h⟩

/-- A settle verdict that allows a fallback is no landed transaction. -/
theorem settled_safe {settled : Settled} {error : DirectSwapError}
    (hverdict : VerdictSound chain reads signature settled.verdict)
    (herror : settledResult signature settled = .error error)
    (hsafe : error.safeToFallback = true) : chain.outcome signature ≠ some false := by
  cases settled with
  | landed => cases herror
  | reverted detail =>
    rw [outcome_of_seen hverdict]
    simp
  | expired last current =>
    have hnone : chain.outcome signature = none := hverdict
    rw [hnone]
    simp
  | unsettled waited =>
    obtain rfl := Except.error.inj herror
    cases hsafe

theorem landed_of_ok {settled : Settled} {landed : String}
    (h : settledResult signature settled = .ok landed) :
      settled = .landed ∧ signature = landed := by
  cases settled with
  | landed => exact ⟨rfl, Except.ok.inj h⟩
  | _ => cases h

variable {sign : List Instruction → String → VersionedTransaction}

/-- What the settle loop of a run concludes is so. -/
theorem OneNode.verdict {loop : Reads} {transaction : VersionedTransaction} {bound timeoutMs : ℕ}
    {rounds : List Round} {settled : Settled} (h : OneNode chain sign reads)
    (hsub : loop.Sublist reads) (hbound : chain.LandsBy signature bound)
    (hloop : (settle transaction signature (some bound) timeoutMs rounds none).AnsweredBy loop
      settled) : VerdictSound chain reads signature settled.verdict := by
  have htruthful : Truthful chain loop := fun read hread => h.truthful read (hsub.subset hread)
  apply (settle_sound hloop (fun _ hread => hsub.subset hread) htruthful).mpr
  exact settle_reached hloop htruthful (h.forward.sublist hsub) (fun _ hnone => by cases hnone)
    hbound

/-- An error of a direct swap lets another route swap again only where nothing of it landed, exactly
when the receipt's node was served. -/
theorem fallback_safe_iff {priorityFee timeoutMs : ℕ} {owner : String} {rounds : List Round}
    {plan : SwapPlan} {error : DirectSwapError} (h : OneNode chain sign reads)
    (hrun : Attempt.AnsweredBy (executePlan priorityFee sign owner timeoutMs rounds plan) reads
      (.error error)) :
    FallbackSafe chain reads error ↔ ¬ReceiptUnserved reads := by
  obtain ⟨e, -, hprepare⟩ | ⟨before, ⟨transaction, bound⟩, reads₁, rfl, hprepare, hrest⟩ :=
    Attempt.answeredBy_bind.mp hrun
  · have hquiet := asked (prepare_quiet priorityFee sign owner plan) hprepare
    exact iff_of_true (fun _ _ hsent => absurd hsent (not_sent_of_quiet hquiet))
      (not_unserved_of_quiet hquiet)
  have hquiet := asked (prepare_quiet priorityFee sign owner plan) hprepare
  obtain ⟨teller, blockhash, instructions, htold, rfl⟩ := prepare_ok hprepare
  have hexpires := h.expires teller blockhash bound (List.mem_append_left _ htold) instructions
  obtain ⟨e, hsame, hsend⟩ | ⟨reads₁, signature, reads₂, rfl, hsend, hreceipt⟩ :=
    Attempt.answeredBy_bind.mp hrest
  · obtain rfl := Except.error.inj hsame
    obtain ⟨rfl, -⟩ | ⟨node, refusal, _, rfl, hrefusal, -⟩ |
        ⟨node, answer, loop, signature, settled, rfl, hhead, hloop, hresult⟩ :=
      sendSettled_cases hsend
    · rw [List.append_nil]
      exact iff_of_true (fun _ _ hsent => absurd hsent (not_sent_of_quiet hquiet))
        (not_unserved_of_quiet hquiet)
    · refine iff_of_true (fun _ s hsent hlanded => ?_) ?_
      · have haccepted := h.delivered s hsent (by rw [hlanded]; simp)
        rcases accepted_append.mp haccepted with haccepted | haccepted
        · exact not_accepted_of_quiet hquiet haccepted
        · exact not_accepted_refused hrefusal haccepted
      · rw [receiptUnserved_append]
        rintro (hunserved | hunserved)
        · exact not_unserved_of_quiet hquiet hunserved
        · exact not_unserved_of_settling (sends_settling _ _ (by simp)) hunserved
    · have hverdict := h.verdict ((List.sublist_cons_self _ loop).trans
        (List.sublist_append_right before _)) (hexpires _ hhead) hloop
      have hsettling := sends_settling node answer
        (asked (settle_settling _ _ _ _ _ _) hloop)
      refine iff_of_true (fun hsafe s hsent => ?_) ?_
      · rcases sent_append.mp hsent with hsent | hsent
        · exact absurd hsent (not_sent_of_quiet hquiet)
        · obtain rfl : signature = s :=
            Option.some.inj (hhead.symm.trans (head_of_settling hsettling hsent))
          exact settled_safe hverdict hresult.symm hsafe
      · rw [receiptUnserved_append]
        rintro (hunserved | hunserved)
        · exact not_unserved_of_quiet hquiet hunserved
        · exact not_unserved_of_settling hsettling hunserved
  · obtain ⟨-, e, ⟨⟩⟩ | ⟨_, _, e, -, -, ⟨⟩⟩ |
        ⟨node, answer, loop, sent, settled, rfl, hhead, hloop, hresult⟩ :=
      sendSettled_cases hsend
    have hsettling := sends_settling node answer
      (asked (settle_settling _ _ _ _ _ _) hloop)
    have hsub : loop.Sublist (before ++ ((node, ⟨.send (sign instructions blockhash), answer⟩) ::
        loop ++ reads₂)) := (List.sublist_cons_self _ loop).trans
      ((List.sublist_append_left _ reads₂).trans (List.sublist_append_right before _))
    have hverdict := h.verdict hsub (hexpires _ hhead) hloop
    obtain ⟨rfl, rfl⟩ := landed_of_ok hresult.symm
    have hlanded := outcome_of_seen hverdict
    obtain ⟨e, hsame, hread⟩ | ⟨reads₃, receipt, reads₄, rfl, -, hdone⟩ :=
      Attempt.answeredBy_bind.mp hreceipt
    · obtain rfl := Except.error.inj hsame
      have htruthful := (truthful_append.mp (truthful_append.mp h.truthful).2).2
      obtain ⟨detail, rfl, hunserved, -⟩ | ⟨hsafe, hserved, hnone⟩ :=
        readReceipt_cases hread htruthful
      · refine iff_of_false (fun hfallback => ?_) ?_
        · refine hfallback rfl sent ?_ hlanded
          exact ⟨node, sign instructions blockhash, answer, by simp, hhead⟩
        · rw [not_not, receiptUnserved_append, receiptUnserved_append]
          exact .inr (.inr hunserved)
      · refine iff_of_true (fun hallowed s hsent => ?_) ?_
        · rcases hsafe with hfailed | hclosed
          · rw [hlanded] at hfailed
            cases hfailed
          · rw [hclosed] at hallowed
            cases hallowed
        · rw [receiptUnserved_append, receiptUnserved_append]
          rintro (hunserved | hunserved | hunserved)
          · exact not_unserved_of_quiet hquiet hunserved
          · exact not_unserved_of_settling hsettling hunserved
          · exact hserved hunserved
    · obtain ⟨-, hok⟩ := Attempt.answered_pure.mp hdone
      cases hok

/-- A plan that spends 0.005 SOL, and the transaction it is signed into. -/
def smallPlan : SwapPlan where
  instructions := [.setComputeUnitLimit 260000, .setComputeUnitPrice 0]
  venueComputeUnits := 200000
  inputAccount := "in"
  outputAccount := "out"
  outputIsNative := false
  quote := ⟨"pool", .raydiumCpmm, solMint, "token", 5000000, 4975000, 1000000, 990000, 1000000,
    990000, .none, 12500, 0, 100⟩

def smallTransaction : VersionedTransaction := ⟨[0, 0], ["sig"]⟩

def steadyNode : NodeView := ⟨210, fun _ => false⟩

/-- What the calls of the small run say of its transaction. -/
def Small : Exchange NodeCall → Prop
  | ⟨.latestBlockhash, answer⟩ => ∀ blockhash bound, answer = .ok (blockhash, bound) → bound = 150
  | ⟨.send transaction, _⟩ => transaction = smallTransaction
  | _ => True

/-- A run up to the status of its transaction, and the receipt's node where it is not served. -/
def settledReads (err unserved : Option String) : Reads :=
  [(steadyNode, ⟨.directNode "getLatestBlockhash", .ok ()⟩),
    (steadyNode, ⟨.directNode "getMultipleAccounts", .ok ()⟩),
    (steadyNode, ⟨.multipleAccounts ["wallet", "in", "out"],
      .ok [some ⟨10000000, []⟩, some ⟨2039280, []⟩, some ⟨2039280, []⟩]⟩),
    (steadyNode, ⟨.latestBlockhash, .ok ("hash", 150)⟩),
    (steadyNode, ⟨.simulate smallTransaction, .ok {}⟩),
    (steadyNode, ⟨.send smallTransaction, .ok "sig"⟩),
    (steadyNode, ⟨.signatureStatuses ["sig"], .ok (210, [some ⟨none, err, some .confirmed⟩])⟩)] ++
    unserved.toList.map fun detail => (steadyNode, ⟨.directNode "getTransaction", .error detail⟩)

theorem settledReads_oneNode {err unserved : Option String}
    (houtcome : steadyNode.outcome chain "sig" = some err.isSome)
    (hbound : chain.LandsBy "sig" 150) :
    OneNode chain (fun _ _ => smallTransaction) (settledReads err unserved) := by
  have hsteady : ∀ read ∈ settledReads err unserved, read.1 = steadyNode := by
    cases unserved <;> simp [settledReads]
  have hsmall : ∀ read ∈ settledReads err unserved, Small read.2 := by
    cases unserved <;> simp +contextual [settledReads, Small]
  constructor
  · intro read hread
    cases unserved with
    | none =>
      simp only [settledReads, Option.toList_none, List.map_nil, List.append_nil,
        List.mem_cons, List.not_mem_nil, or_false] at hread
      rcases hread with rfl | rfl | rfl | rfl | rfl | rfl | rfl
      all_goals first | trivial | exact ⟨rfl, .cons (.inr houtcome) .nil⟩
    | some detail =>
      simp only [settledReads, Option.toList_some, List.map_cons, List.map_nil, List.cons_append,
        List.nil_append, List.mem_cons, List.not_mem_nil, or_false] at hread
      rcases hread with rfl | rfl | rfl | rfl | rfl | rfl | rfl | rfl
      all_goals first | trivial | exact ⟨rfl, .cons (.inr houtcome) .nil⟩
  · apply List.Pairwise.imp_of_mem (R := fun _ _ => True)
    · intro earlier later hearlier hlater _
      rw [hsteady _ hearlier, hsteady _ hlater]
    · exact List.pairwise_of_forall fun _ _ => trivial
  · intro node blockhash bound hread instructions signature hhead
    obtain rfl : "sig" = signature := Option.some.inj hhead
    obtain rfl : bound = 150 := hsmall _ hread _ _ rfl
    exact hbound
  · intro signature hsent _
    refine ⟨steadyNode, smallTransaction, .ok "sig", by simp [settledReads], ?_, by simp⟩
    obtain ⟨node, transaction, answer, hmem, hhead⟩ := hsent
    obtain rfl : transaction = smallTransaction := hsmall _ hmem
    exact hhead

/-- The own node serves whatever is asked of it. -/
def Served : Exchange NodeCall → Prop
  | ⟨.directNode _, answer⟩ => answer = .ok ()
  | _ => True

def revertedChain : FinalizedChain where
  blocks := [⟨10, 10, [("sig", true)]⟩]
  ascending := by decide

/-- A reverted swap allows a fallback, and nothing of it landed. -/
theorem reverted_fallback_safe : FallbackSafe revertedChain (settledReads (some "0x1771") none)
    (.transactionFailed "sig" "0x1771") := by
  have hrun : Attempt.AnsweredBy
      (executePlan 0 (fun _ _ => smallTransaction) "wallet" 60000 [] smallPlan)
      (settledReads (some "0x1771") none) (.error (.transactionFailed "sig" "0x1771")) :=
    .call _ (.call _ (.call _ (.call _ (.call _ (.call _ (.call _ (.done _)))))))
  refine (fallback_safe_iff (settledReads_oneNode (by decide) ?_) hrun).mpr ?_
  · simp [FinalizedChain.LandsBy, FinalizedChain.landedIn, revertedChain, Block.outcome]
  · rintro ⟨node, detail, hmem⟩
    have hserved : ∀ read ∈ settledReads (some "0x1771") none, Served read.2 := by
      simp [settledReads, Served]
    cases hserved _ hmem

/-- A swap lands, and then the access mode no longer serves the node its receipt is read from. -/
theorem landed_then_unserved :
    ¬∀ (chain : FinalizedChain) (reads : Reads)
      (sign : List Instruction → String → VersionedTransaction) (priorityFee timeoutMs : ℕ)
      (owner : String) (rounds : List Round) (plan : SwapPlan) (error : DirectSwapError),
      OneNode chain sign reads →
      Attempt.AnsweredBy (executePlan priorityFee sign owner timeoutMs rounds plan) reads
        (.error error) → FallbackSafe chain reads error := by
  intro h
  have hlanded : landedChain.outcome "sig" = some false := by decide
  have hrun : Attempt.AnsweredBy
      (executePlan 0 (fun _ _ => smallTransaction) "wallet" 60000 [] smallPlan)
      (settledReads none (some "no node"))
      (.error (.nodeUnavailable "getTransaction" "no node")) :=
    .call _ (.call _ (.call _ (.call _ (.call _ (.call _ (.call _ (.call _ (.done _))))))))
  refine h landedChain _ _ 0 60000 "wallet" [] smallPlan _ (settledReads_oneNode (by decide) ?_)
    hrun rfl "sig" ?_ hlanded
  · simp [FinalizedChain.LandsBy, FinalizedChain.landedIn, landedChain, Block.outcome]
  · exact ⟨steadyNode, smallTransaction, .ok "sig", by simp [settledReads], rfl⟩

end ScreenerBot.Direct
