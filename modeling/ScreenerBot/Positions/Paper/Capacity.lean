import ScreenerBot.Library.Run
import ScreenerBot.Positions.Paper.Sound

/-! The limits of paper trading: the number of open rounds, the cash of the run, the run a fill was
priced in, and each leg booked once. -/
namespace ScreenerBot.Positions.Paper
open Library Trader

/-- The rounds a buy may leave open; other orders open none. -/
def PaperOrder.maxOpen : PaperOrder → Option ℕ
  | buy _ _ _ terms => some terms.maxOpen
  | _ => none

/-- An order was priced in the current run or an earlier one. Its round is stored, and closed once
the run it was priced in has ended. -/
def Priced (db : PaperStore) (order : PaperOrder) : Prop :=
  ∃ epoch, db.currentPaperEpoch = some epoch ∧ order.epoch ≤ epoch.epoch ∧
    ∀ positionId, order.target = some positionId → (db.rounds.lookup positionId).isSome ∧
      (order.epoch < epoch.epoch → ¬ db.OpenAt positionId)

/-- What the checks of an order found under the capacity lock, and what still holds at its write. -/
structure Checked (db : PaperStore) (order : PaperOrder) (account : Option PaperAccount) :
    Prop where
  cash : ∀ read, account = some read → order.cost ≤ Binary64.add read.cashNative f64Epsilon
  closed : account = none → ∃ positionId, order.target = some positionId ∧ ¬ db.OpenAt positionId
  room : ∀ maxOpen, order.maxOpen = some maxOpen → db.openRounds.length < maxOpen
  current : order.target = none → ∃ epoch, db.currentPaperEpoch = some epoch ∧
    epoch.epoch = order.epoch
  run : ∀ read, account = some read → ∃ epoch, db.currentPaperEpoch = some epoch ∧
    epoch.epoch = read.epoch
  buys : order.isSale = false

/-- What the holder of the capacity lock relies on: an order its checks, a reset that every open
round is still to be settled. -/
def Capacity.Holds (db : PaperStore) (orders : List PaperOrder) : Capacity → Prop
  | .free => True
  | .buying order _ account => order ∈ orders ∧ Checked db order account
  | .settling _ _ _ none => True
  | .settling pending _ _ (some _) => ∀ positionId, db.OpenAt positionId →
    ∃ round ∈ pending, round.row.id = some positionId

/-- What holds in every state of paper trading. -/
structure PaperDesk.Invariant (desk : PaperDesk) : Prop where
  sound : desk.book.Sound
  targeted : ∀ round ∈ desk.targeted, ∃ positionId, round.row.id = some positionId ∧
    (desk.book.db.rounds.lookup positionId).isSome
  priced : ∀ order ∈ desk.orders, Priced desk.book.db order
  holder : desk.capacity.Holds desk.book.db desk.orders

theorem Priced.follows {db db' : PaperStore} {order : PaperOrder} (h : Priced db order)
    (hfollows : db.Follows db') : Priced db' order := by
  obtain ⟨epoch, hcurrent, hle, htarget⟩ := h
  refine ⟨epoch, ?_, hle, fun positionId hid => ?_⟩
  · rw [PaperStore.currentPaperEpoch, hfollows.epochs]
    exact hcurrent
  · obtain ⟨hstored, hclosed⟩ := htarget positionId hid
    exact ⟨hfollows.stored positionId hstored, fun hlt hopen =>
      hclosed hlt (hfollows.opened positionId hstored hopen)⟩

/-- The holder of the lock keeps what it relies on while no round opens. -/
theorem Capacity.Holds.mono {db db' : PaperStore} {orders : List PaperOrder} {capacity : Capacity}
    (h : capacity.Holds db orders) (hepochs : db'.epochs = db.epochs)
    (hopen : ∀ positionId, db'.OpenAt positionId → db.OpenAt positionId) :
    capacity.Holds db' orders := by
  cases capacity with
  | free => exact h
  | buying order now account =>
    obtain ⟨hmem, hchecked⟩ := h
    refine ⟨hmem, hchecked.cash, fun hnone => ?_, fun maxOpen hmax => ?_, fun hbuy => ?_,
      fun read hread => ?_, hchecked.buys⟩
    · obtain ⟨positionId, htarget, hclosed⟩ := hchecked.closed hnone
      exact ⟨positionId, htarget, fun h => hclosed (hopen positionId h)⟩
    · exact (openRounds_mono hopen).trans_lt (hchecked.room maxOpen hmax)
    · rw [PaperStore.currentPaperEpoch, hepochs]
      exact hchecked.current hbuy
    · rw [PaperStore.currentPaperEpoch, hepochs]
      exact hchecked.run read hread
  | settling pending reason now reset =>
    cases reset with
    | none => exact h
    | some balance => exact fun positionId hstill => h positionId (hopen positionId hstill)

theorem Capacity.Holds.append {db : PaperStore} {orders : List PaperOrder} {capacity : Capacity}
    (h : capacity.Holds db orders) (order : PaperOrder) :
      capacity.Holds db (orders ++ [order]) := by
  cases capacity with
  | free => exact h
  | buying held now account => exact ⟨List.mem_append_left _ h.1, h.2⟩
  | settling pending reason now reset =>
    cases reset with
    | none => exact h
    | some balance => exact h

theorem coveringAccount_ok {book : PaperBook} {mint : String} {needed : ℚ} {pricedIn : Option ℤ}
    {account : PaperAccount} (h : book.coveringAccount mint needed pricedIn = .ok account) :
    ∃ epoch, book.db.currentPaperEpoch = some epoch ∧ account = book.accountIn epoch ∧
      (∀ priced, pricedIn = some priced → epoch.epoch = priced) ∧
      needed ≤ Binary64.add account.cashNative f64Epsilon := by
  unfold PaperBook.coveringAccount at h
  split at h
  · cases h
  next epoch hepoch =>
    split at h
    · cases h
    next hpriced =>
      dsimp only at h
      split at h
      · cases h
      next hcash =>
        cases h
        refine ⟨epoch, hepoch, rfl, fun priced hsome => ?_, not_lt.mp hcash⟩
        subst hsome
        simp only [Option.any_some, bne_iff_ne, ne_eq, not_not] at hpriced
        exact hpriced.symm

theorem checkOpen_ok {book : PaperBook} {mint : String} {fill : EntryFill} {leg : PaperLeg}
    {terms : PaperOpenTerms} {now : ℤ} {account : PaperAccount}
    (h : book.checkOpen mint fill leg terms now = .ok (.inr account)) :
    book.opened.length < terms.maxOpen ∧
      book.coveringAccount mint (Binary64.add fill.nativeSize (Rounded.rawToNative fill.feeRaw))
        (some terms.epoch) =
        .ok account := by
  unfold PaperBook.checkOpen at h
  split at h
  · obtain ⟨found, -, hret⟩ := bind_eq_ok.mp h
    cases hret
  · by_cases hroom : terms.maxOpen ≤ book.opened.length
    · rw [if_pos hroom] at h
      cases h
    · rw [if_neg hroom] at h
      dsimp only at h
      split at h
      · cases h
      · obtain ⟨found, hfound, hret⟩ := bind_eq_ok.mp h
        cases hret
        exact ⟨by omega, hfound⟩

/-- An order that passes its checks does so against the account of the current run. -/
theorem check_ok {book : PaperBook} {now : ℤ} {order : PaperOrder} {account : Option PaperAccount}
    (hsound : book.Sound) (h : order.check book now = .ok (some account)) :
    Checked book.db order account ∧ ∀ read, account = some read → ∃ epoch,
      book.db.currentPaperEpoch = some epoch ∧ read = book.accountIn epoch := by
  cases order with
  | buy opening fill leg terms =>
    obtain ⟨entry, hentry, h⟩ := bind_eq_ok.mp h
    obtain ⟨found, hfound, hret⟩ := bind_eq_ok.mp h
    obtain ⟨⟨tokenAmount, decimals⟩, -, hentry⟩ := bind_eq_ok.mp hentry
    cases hentry
    cases found with
    | inl opened => cases hret
    | inr read =>
      cases hret
      obtain ⟨hroom, hcovers⟩ := checkOpen_ok hfound
      obtain ⟨epoch, hepoch, hread, hpriced, hcash⟩ := coveringAccount_ok hcovers
      refine ⟨⟨?_, nofun, ?_, fun _ => ⟨epoch, hepoch, hpriced _ rfl⟩, ?_, rfl⟩, ?_⟩
      · rintro _ ⟨⟩
        exact hcash
      · rintro _ ⟨⟩
        exact hsound.openRounds_le.trans_lt hroom
      · rintro _ ⟨⟩
        exact ⟨epoch, hepoch, by rw [hread]; rfl⟩
      · rintro _ ⟨⟩
        exact ⟨epoch, hepoch, hread⟩
  | add positionId mint fill leg epoch =>
    obtain ⟨⟨dca, decimals⟩, hdca, h⟩ := bind_eq_ok.mp h
    obtain ⟨account, hcheck, hret⟩ := bind_eq_ok.mp h
    obtain ⟨⟨tokensBought, decimals⟩, -, hdca⟩ := bind_eq_ok.mp hdca
    cases hdca
    cases hret
    unfold PaperBook.checkDca at hcheck
    split at hcheck
    next hnone =>
      cases hcheck
      refine ⟨⟨nofun, fun _ => ⟨positionId, rfl, fun hopen => ?_⟩, nofun, nofun, nofun, rfl⟩,
        nofun⟩
      obtain ⟨live, hlive, hid⟩ := hsound.held positionId hopen
      have habsent := List.find?_eq_none.mp hnone live hlive
      simp [hid] at habsent
    · obtain ⟨read, hcovers, hret⟩ := bind_eq_ok.mp hcheck
      cases hret
      obtain ⟨current, hcurrent, hread, -, hcash⟩ := coveringAccount_ok hcovers
      refine ⟨⟨?_, nofun, nofun, nofun, ?_, rfl⟩, ?_⟩
      · rintro _ ⟨⟩
        exact hcash
      · rintro _ ⟨⟩
        exact ⟨current, hcurrent, by rw [hread]; rfl⟩
      · rintro _ ⟨⟩
        exact ⟨current, hcurrent, hread⟩
  | sale => cases h

theorem target_of_isSale {order : PaperOrder} (h : order.isSale = true) : order.target ≠ none := by
  cases order with
  | buy => cases h
  | add => cases h
  | sale => nofun

theorem map_some_eq_ok {ε α : Type} {x : Except ε α} {a : α} (h : x.map some = .ok (some a)) :
    x = .ok a := by
  cases x with
  | error e => cases h
  | ok b =>
    cases h
    rfl

/-- A priced order is of the run it is priced in, and targets the round it was priced on. -/
theorem buyOrder_priced {decision : BuyDecision} {reads : ExecutionReads} {epoch : ℤ}
    {order : PaperOrder} (h : buyOrder decision reads epoch = .ok order) :
    order.epoch = epoch ∧ order.target = none := by
  obtain ⟨request, -, h⟩ := bind_eq_ok.mp h
  obtain ⟨fill, -, hret⟩ := bind_eq_ok.mp h
  cases hret
  exact ⟨rfl, rfl⟩

theorem addOrder_priced {position : Position} {sizeNative : ℚ} {reads : ExecutionReads} {epoch : ℤ}
    {order : PaperOrder} (h : addOrder position sizeNative reads epoch = .ok (some order)) :
    order.epoch = epoch ∧ order.target = position.id := by
  unfold addOrder at h
  split at h
  · cases h
  next positionId hid =>
    obtain ⟨request, -, h⟩ := bind_eq_ok.mp h
    obtain ⟨fill, -, hret⟩ := bind_eq_ok.mp h
    cases hret
    exact ⟨rfl, hid.symm⟩

theorem sellOrder_priced {position : Position} {decision : SellDecision} {reads : ExecutionReads}
    {epoch : ℤ} {order : PaperOrder}
    (h : sellOrder position decision reads epoch = .ok (some order)) :
    order.epoch = epoch ∧ order.target = position.id := by
  unfold sellOrder at h
  split at h
  · cases h
  next positionId hid =>
    obtain ⟨amount, -, h⟩ := bind_eq_ok.mp h
    obtain ⟨fill, -, hret⟩ := bind_eq_ok.mp h
    cases hret
    exact ⟨rfl, hid.symm⟩

namespace PaperDesk

variable {desk : PaperDesk}

theorem price_invariant {order : ℤ → Except PaperFillError (Option PaperOrder)} (h : desk.Invariant)
    (horder : ∀ epoch priced, order epoch = .ok (some priced) → priced.epoch = epoch ∧
      ∀ positionId, priced.target = some positionId →
        (desk.book.db.rounds.lookup positionId).isSome) :
    (desk.price order).Invariant := by
  unfold price
  split
  · exact h
  next epoch hepoch =>
    split
    next priced hpriced =>
      obtain ⟨hin, htarget⟩ := horder _ _ hpriced
      refine { h with priced := ?_, holder := ?_ }
      · intro other hother
        rcases List.mem_append.mp hother with hother | hother
        · exact h.priced other hother
        · rw [List.mem_singleton.mp hother]
          exact ⟨epoch, hepoch, hin.le, fun positionId hid =>
            ⟨htarget positionId hid, fun hlt => absurd hlt (by omega)⟩⟩
      · exact h.holder.append priced
    · exact h

/-- The state with a book that only later bookings made, and its lock. -/
theorem booked_invariant {book : PaperBook} {capacity : Capacity} (h : desk.Invariant)
    (hsound : book.Sound) (hfollows : desk.book.db.Follows book.db)
    (hholder : capacity.Holds book.db desk.orders) :
    ({ desk with book := book, capacity := capacity } : PaperDesk).Invariant where
  sound := hsound
  targeted round hround := by
    obtain ⟨positionId, hid, hstored⟩ := h.targeted round hround
    exact ⟨positionId, hid, hfollows.stored positionId hstored⟩
  priced order horder := (h.priced order horder).follows hfollows
  holder := hholder

theorem lock_invariant {i : ℕ} {now : ℤ} (h : desk.Invariant) : (desk.lock i now).Invariant := by
  unfold lock
  split
  next order hfree horder =>
    split
    next account hcheck =>
      refine { h with holder := ⟨List.mem_of_getElem? horder, (check_ok h.sound hcheck).1⟩ }
    · exact h
  · exact h

theorem booked_step {order : PaperOrder} {now : ℤ} :
    OrderStep desk.book order (desk.booked order now) := by
  unfold booked
  split
  next book hwrite => exact order_step hwrite
  · exact .unchanged

theorem settleNext_invariant {currentPrice : Option ℚ} {decimalsOf : String → Option ℕ}
    {key : String}
    (h : desk.Invariant) : (desk.settleNext currentPrice decimalsOf key).Invariant := by
  unfold settleNext
  split
  next round pending reason now reset hcapacity =>
    split
    · exact h
    next hnew =>
      split
      next booked book hsettle =>
        have hnone : desk.book.db.paperLeg (PaperLeg.reference key) = none := by simpa using hnew
        obtain ⟨hsound, hfollows, hopen, hclosed⟩ := settleRound_step h.sound hnone hsettle
        refine booked_invariant h hsound hfollows ?_
        have hholder := h.holder
        rw [hcapacity] at hholder
        cases reset with
        | none => trivial
        | some balance =>
          intro positionId hstill
          obtain ⟨waiting, hwaiting, hid⟩ := hholder positionId (hopen positionId hstill)
          rcases List.mem_cons.mp hwaiting with rfl | hwaiting
          · exact absurd hstill (hclosed positionId hid)
          · exact ⟨waiting, hwaiting, hid⟩
      · exact { h with holder := trivial }
  · exact h

theorem settled_invariant (h : desk.Invariant) : desk.settled.Invariant := by
  unfold settled
  split
  · exact { h with holder := trivial }
  next reason now balance hcapacity =>
    have hholder := h.holder
    rw [hcapacity] at hholder
    have hclosed : ∀ positionId, ¬ desk.book.db.OpenAt positionId := by
      intro positionId hopen
      obtain ⟨round, hround, -⟩ := hholder positionId hopen
      cases hround
    refine ⟨⟨h.sound.keyed, h.sound.live, h.sound.held, h.sound.legs, h.sound.recorded⟩, h.targeted,
      fun order horder => ?_, trivial⟩
    obtain ⟨epoch, hepoch, hle, htarget⟩ := h.priced order horder
    have hnext : (desk.book.db.epochs.head?.map (·.epoch)).getD 0 = epoch.epoch := by
      rw [show desk.book.db.epochs.head? = some epoch from hepoch]
      rfl
    refine ⟨_, rfl, ?_, fun positionId hid =>
      ⟨(htarget positionId hid).1, fun _ => hclosed positionId⟩⟩
    simp only [hnext]
    omega
  · exact h

theorem account_invariant {startingBalanceNative : ℚ} {now : ℤ} (h : desk.Invariant) :
    ({ desk with book := desk.book.account startingBalanceNative now } : PaperDesk).Invariant := by
  unfold PaperBook.account
  cases hcurrent : desk.book.db.currentPaperEpoch with
  | some epoch => exact h
  | none =>
    have hunpriced : ∀ order ∈ desk.orders, False := by
      intro order horder
      obtain ⟨epoch, hepoch, -⟩ := h.priced order horder
      rw [hcurrent] at hepoch
      cases hepoch
    refine ⟨⟨h.sound.keyed, h.sound.live, h.sound.held, h.sound.legs, h.sound.recorded⟩, h.targeted,
      fun order horder => (hunpriced order horder).elim, ?_⟩
    have hholder := h.holder
    show desk.capacity.Holds _ desk.orders
    cases hcapacity : desk.capacity with
    | free => trivial
    | buying order now account =>
      rw [hcapacity] at hholder
      exact (hunpriced order hholder.1).elim
    | settling pending reason now reset =>
      rw [hcapacity] at hholder
      cases reset with
      | none => trivial
      | some balance => exact hholder

/-- A process loads the open rounds of its store. -/
theorem load_sound {book : PaperBook} (h : book.Sound) : (PaperBook.load book.db).Sound where
  keyed := h.keyed
  live round hround := by
    obtain ⟨hvalue, -⟩ := List.mem_filter.mp hround
    obtain ⟨positionId, hlookup⟩ := mem_values.mp hvalue
    refine ⟨positionId, (h.keyed _ _ hlookup).1, ?_⟩
    rw [show (PaperBook.load book.db).db = book.db from rfl, hlookup]
    rfl
  held positionId hopen := by
    obtain ⟨round, hlookup, hisOpen⟩ := hopen
    exact ⟨round, List.mem_filter.mpr ⟨mem_values.mpr ⟨positionId, hlookup⟩, hisOpen⟩,
      (h.keyed _ _ hlookup).1⟩
  legs := h.legs
  recorded := h.recorded

theorem new_lookup (positionId : ℤ) : new.book.db.rounds.lookup positionId = none :=
  AList.lookup_empty positionId

theorem new_invariant : PaperDesk.new.Invariant := by
  have hclosed : ∀ positionId, ¬ new.book.db.OpenAt positionId := by
    rintro positionId ⟨round, hround, -⟩
    rw [new_lookup] at hround
    cases hround
  constructor
  · constructor
    · intro positionId round hround
      rw [new_lookup] at hround
      cases hround
    · exact List.forall_mem_nil _
    · exact fun positionId hopen => absurd hopen (hclosed positionId)
    · exact List.nodup_nil
    · exact List.forall_mem_nil _
  · exact List.forall_mem_nil _
  · exact List.forall_mem_nil _
  · exact trivial

theorem step_invariant (action : DeskAction) (h : desk.Invariant) :
    (desk.step action).Invariant := by
  have hstored (i : ℕ) (round : PaperRound) (hround : desk.targeted[i]? = some round)
    (positionId : ℤ)
      (hid : round.row.id = some positionId) : (desk.book.db.rounds.lookup positionId).isSome := by
    obtain ⟨other, hother, hlookup⟩ := h.targeted round (List.mem_of_getElem? hround)
    rw [hother] at hid
    cases hid
    exact hlookup
  cases action with
  | account startingBalanceNative now => exact account_invariant h
  | target positionId =>
    refine { h with targeted := fun round hround => ?_ }
    rcases List.mem_append.mp hround with hround | hround
    · exact h.targeted round hround
    · exact h.sound.live round (List.mem_of_find?_eq_some (Option.mem_toList.mp hround))
  | priceBuy decision reads =>
    simp only [step]
    refine price_invariant h fun epoch priced hpriced => ?_
    obtain ⟨hepoch, htarget⟩ := buyOrder_priced (map_some_eq_ok hpriced)
    refine ⟨hepoch, fun positionId hid => ?_⟩
    rw [htarget] at hid
    cases hid
  | priceAdd target sizeNative reads =>
    simp only [step]
    split
    next round hround =>
      refine price_invariant h fun epoch priced hpriced => ?_
      obtain ⟨hepoch, htarget⟩ := addOrder_priced hpriced
      exact ⟨hepoch, fun positionId hid =>
        hstored _ round hround positionId (htarget.symm.trans hid)⟩
    · exact h
  | priceSell target decision reads =>
    simp only [step]
    split
    next round hround =>
      refine price_invariant h fun epoch priced hpriced => ?_
      obtain ⟨hepoch, htarget⟩ := sellOrder_priced hpriced
      exact ⟨hepoch, fun positionId hid =>
        hstored _ round hround positionId (htarget.symm.trans hid)⟩
    · exact h
  | lock i now => exact lock_invariant h
  | write =>
    simp only [step]
    split
    next order now account hcapacity =>
      obtain ⟨hsound, hfollows⟩ := (@booked_step desk order now).sound h.sound
      exact booked_invariant h hsound hfollows trivial
    · exact h
  | sell i =>
    simp only [step]
    split
    next order horder =>
      have hsale := (Option.filter_eq_some_iff.mp horder).2
      have hstep := @booked_step desk order 0
      obtain ⟨hsound, hfollows⟩ := hstep.sound h.sound
      exact booked_invariant h hsound hfollows
        (h.holder.mono hfollows.epochs fun other => hstep.openAt (target_of_isSale hsale))
    · exact h
  | settleAtMark rounds reason now =>
    simp only [step]
    split
    · exact { h with holder := trivial }
    · exact h
  | resetRun startingBalanceNative reason now =>
    simp only [step]
    split
    · exact { h with holder := h.sound.held }
    · exact h
  | settleNext currentPrice decimalsOf key => exact settleNext_invariant h
  | settled => exact settled_invariant h
  | restart =>
    simp only [step]
    exact ⟨load_sound h.sound, by simp, by simp, trivial⟩

end PaperDesk

namespace PaperDesk

/-- The step books `order`: it stores its leg. -/
def Books (desk : PaperDesk) (action : DeskAction) (order : PaperOrder) : Prop :=
  desk.booking action = some order ∧ (desk.step action).book.db.legs ≠ desk.book.db.legs

/-- What a step that books `order` stays within: the open rounds a buy may leave, or those there
were; the cash read under the capacity lock; the run the fill was priced in; and a leg not stored
before. -/
structure WithinLimits (desk : PaperDesk) (action : DeskAction) (order : PaperOrder) : Prop where
  rounds : (desk.step action).book.db.openRounds.length ≤
    order.maxOpen.getD desk.book.db.openRounds.length
  cash : ∀ now account, action = .write → desk.capacity = .buying order now account →
    ∃ read, account = some read ∧ read.epoch = order.epoch ∧
      order.cost ≤ Binary64.add read.cashNative f64Epsilon
  run : ∃ epoch, desk.book.db.currentPaperEpoch = some epoch ∧ epoch.epoch = order.epoch
  once : order.leg.legRef ∉ desk.book.db.legs.map (·.leg.legRef)

variable {desk : PaperDesk} {action : DeskAction} {order : PaperOrder}

/-- A fill booked onto an open round was priced in the current run. -/
theorem run_of_open {positionId : ℤ} (hpriced : Priced desk.book.db order)
    (htarget : order.target = some positionId) (hopen : desk.book.db.OpenAt positionId) :
    ∃ epoch, desk.book.db.currentPaperEpoch = some epoch ∧ epoch.epoch = order.epoch := by
  obtain ⟨epoch, hepoch, hle, hround⟩ := hpriced
  refine ⟨epoch, hepoch, ?_⟩
  by_contra hne
  exact (hround positionId htarget).2 (by omega) hopen

/-- Only a buy has no target, and only it may open a round. -/
theorem maxOpen_eq_none {positionId : ℤ} (htarget : order.target = some positionId) :
    order.maxOpen = none := by
  cases order with
  | buy => cases htarget
  | add => rfl
  | sale => rfl

theorem exists_maxOpen (htarget : order.target = none) : ∃ limit, order.maxOpen = some limit := by
  cases order with
  | buy opening fill leg terms => exact ⟨terms.maxOpen, rfl⟩
  | add => cases htarget
  | sale => cases htarget

/-- A step books a priced order: the one the lock is held for, or a sale. -/
theorem booking_order (h : desk.Invariant) (hbooking : desk.booking action = some order) :
    order ∈ desk.orders ∧ (∃ now, (desk.step action).book = desk.booked order now) ∧
      (action = .write → ∃ now account, desk.capacity = .buying order now account) ∧
      (action ≠ .write → order.target ≠ none) := by
  unfold booking at hbooking
  split at hbooking
  · split at hbooking
    next held now account hcapacity =>
      cases hbooking
      have hholder := h.holder
      rw [hcapacity] at hholder
      refine ⟨hholder.1, ⟨now, ?_⟩, fun _ => ⟨now, account, hcapacity⟩, fun hne => absurd rfl hne⟩
      simp only [step, hcapacity]
    · cases hbooking
  next i =>
    obtain ⟨horder, hsale⟩ := Option.filter_eq_some_iff.mp hbooking
    refine ⟨List.mem_of_getElem? horder, ⟨0, ?_⟩, by rintro ⟨⟩, fun _ => target_of_isSale hsale⟩
    simp only [step, hbooking]
  · cases hbooking

/-- A step that books an order stays within the limits. -/
theorem books_within (h : desk.Invariant) (hbooks : desk.Books action order) :
    desk.WithinLimits action order := by
  obtain ⟨hbooking, hlegs⟩ := hbooks
  obtain ⟨hmem, ⟨now, hbook⟩, hwrite, hsell⟩ := booking_order h hbooking
  have hstep := @booked_step desk order now
  rw [← hbook] at hstep
  have hchecked : ∀ now account, desk.capacity = .buying order now account →
      Checked desk.book.db order account := by
    intro now account hcapacity
    have hholder := h.holder
    rw [hcapacity] at hholder
    exact hholder.2
  have hrun : ∃ epoch, desk.book.db.currentPaperEpoch = some epoch ∧ epoch.epoch = order.epoch := by
    cases htarget : order.target with
    | none =>
      by_cases hact : action = .write
      · obtain ⟨now, account, hcapacity⟩ := hwrite hact
        exact (hchecked now account hcapacity).current htarget
      · exact absurd htarget (hsell hact)
    | some positionId =>
      exact run_of_open (h.priced order hmem) htarget (hstep.openAt_target hlegs htarget)
  constructor
  · cases htarget : order.target with
    | none =>
      obtain ⟨limit, hlimit⟩ := exists_maxOpen htarget
      by_cases hact : action = .write
      · obtain ⟨now, account, hcapacity⟩ := hwrite hact
        have hroom := (hchecked now account hcapacity).room limit hlimit
        rw [hlimit, Option.getD_some]
        exact hstep.openRounds_le.trans hroom
      · exact absurd htarget (hsell hact)
    | some positionId =>
      rw [maxOpen_eq_none htarget, Option.getD_none]
      exact openRounds_mono fun other => hstep.openAt (by rw [htarget]; nofun)
  · intro now account _ hcapacity
    have hread := hchecked now account hcapacity
    cases account with
    | none =>
      obtain ⟨positionId, htarget, hclosed⟩ := hread.closed rfl
      exact absurd (hstep.openAt_target hlegs htarget) hclosed
    | some read =>
      obtain ⟨current, hcurrent, hepoch⟩ := hread.run read rfl
      obtain ⟨epoch, hsame, horder⟩ := hrun
      rw [hcurrent] at hsame
      cases hsame
      exact ⟨read, rfl, hepoch.symm.trans horder, hread.cash read rfl⟩
  · exact hrun
  · rcases hstep.legs_eq with hsame | ⟨hnew, -⟩
    · exact absurd hsame hlegs
    · exact paperLeg_none.mp hnew

/-- Open rounds become more only by a buy that is booked, which leaves what it may. -/
theorem step_openRounds (h : desk.Invariant) :
    (desk.step action).book.db.openRounds.length ≤ desk.book.db.openRounds.length ∨
      ∃ order limit, desk.Books action order ∧ order.maxOpen = some limit ∧
        (desk.step action).book.db.openRounds.length ≤ limit := by
  have hstep := desk.desk_step action
  generalize hafter : (desk.step action).book = after at hstep ⊢
  cases hstep with
  | kept hsame =>
    left
    rw [PaperStore.openRounds, hsame.rounds]
    exact le_rfl
  | wrote order now hbooking =>
    rw [← hafter]
    by_cases hlegs : (desk.step action).book.db.legs = desk.book.db.legs
    · rw [hafter] at hlegs ⊢
      rw [booked_step.db_eq hlegs]
      exact .inl le_rfl
    · have hrounds := (books_within h ⟨hbooking, hlegs⟩).rounds
      cases hlimit : order.maxOpen with
      | none =>
        rw [hlimit] at hrounds
        exact .inl hrounds
      | some limit =>
        rw [hlimit] at hrounds
        exact .inr ⟨order, limit, ⟨hbooking, hlegs⟩, hlimit, hrounds⟩
  | closedAtMark hcapacity hnew hsettle =>
    obtain ⟨-, -, hopen, -⟩ := settleRound_step h.sound hnew hsettle
    exact .inl (openRounds_mono hopen)

theorem price_capacity {order : ℤ → Except PaperFillError (Option PaperOrder)} :
    (desk.price order).capacity = desk.capacity := by
  unfold price
  split
  · rfl
  · split <;> rfl

/-- The capacity lock is taken by an order that passed its checks. -/
theorem lock_taken {now : ℤ} {account : Option PaperAccount} (hfree : desk.capacity = .free)
    (h : (desk.step action).capacity = .buying order now account) :
    order.check desk.book now = .ok (some account) := by
  cases action with
  | lock i time =>
    simp only [step, lock, hfree] at h
    split at h
    next held horder hfound =>
      split at h
      next read hcheck =>
        cases h
        exact hcheck
      · rw [hfree] at h
        cases h
    · rw [hfree] at h
      cases h
  | account => rw [show (step desk _).capacity = desk.capacity from rfl, hfree] at h; cases h
  | target => rw [show (step desk _).capacity = desk.capacity from rfl, hfree] at h; cases h
  | priceBuy decision reads =>
    simp only [step, price_capacity, hfree] at h
    cases h
  | priceAdd target sizeNative reads =>
    simp only [step] at h
    split at h
    · rw [price_capacity, hfree] at h
      cases h
    · rw [hfree] at h
      cases h
  | priceSell target decision reads =>
    simp only [step] at h
    split at h
    · rw [price_capacity, hfree] at h
      cases h
    · rw [hfree] at h
      cases h
  | write =>
    simp only [step, hfree] at h
    cases h
  | sell i =>
    simp only [step] at h
    split at h <;> rw [hfree] at h <;> cases h
  | settleAtMark rounds reason time =>
    simp only [step, hfree] at h
    cases h
  | resetRun startingBalanceNative reason time =>
    simp only [step, hfree] at h
    cases h
  | settleNext currentPrice decimalsOf key =>
    simp only [step, settleNext, hfree] at h
    cases h
  | settled =>
    simp only [step, settled, hfree] at h
    cases h
  | restart => cases h

end PaperDesk

/-- In any interleaving of paper trading, every booking stays within its limits, and the cash a buy
or an add is checked against under the capacity lock is that of the current run. When no buy booked
may leave more than `maxOpen` rounds open, no state has more open. -/
theorem paper_bookings_within_limits (actions : List DeskAction) :
    (∀ p ∈ visited PaperDesk.step .new actions,
      (∀ order, p.1.Books p.2 order → p.1.WithinLimits p.2 order) ∧
      ∀ order now read, p.1.capacity = .free →
        (p.1.step p.2).capacity = .buying order now (some read) →
          ∃ epoch, p.1.book.db.currentPaperEpoch = some epoch ∧ read = p.1.book.accountIn epoch) ∧
    ∀ maxOpen, (∀ p ∈ visited PaperDesk.step .new actions, ∀ order limit, p.1.Books p.2 order →
        order.maxOpen = some limit → limit ≤ maxOpen) →
      ∀ before, before <+: actions →
        (before.foldl PaperDesk.step .new).book.db.openRounds.length ≤ maxOpen := by
  have hnew := PaperDesk.new_invariant
  constructor
  · intro p hp
    have hinv := visited_invariant PaperDesk.step PaperDesk.Invariant actions .new hnew
      (fun q _ hq => PaperDesk.step_invariant q.2 hq) p hp
    refine ⟨fun order hbooks => PaperDesk.books_within hinv hbooks,
      fun order now read hfree htaken => ?_⟩
    exact (check_ok hinv.sound (PaperDesk.lock_taken hfree htaken)).2 read rfl
  · intro maxOpen hlimits before hbefore
    refine (reached_invariant PaperDesk.step
      (fun desk => desk.Invariant ∧ desk.book.db.openRounds.length ≤ maxOpen)
      ⟨hnew, Nat.zero_le _⟩ (fun p hp ⟨hinv, hle⟩ => ?_) before hbefore).2
    refine ⟨PaperDesk.step_invariant p.2 hinv, ?_⟩
    rcases PaperDesk.step_openRounds hinv with hmono | ⟨order, limit, hbooks, hlimit, hrounds⟩
    · exact hmono.trans hle
    · exact hrounds.trans (hlimits p hp order limit hbooks hlimit)

/-- A quote of one SOL for one token of six decimals, without a fee. -/
def oneTokenQuote : Quote where
  routerId := "router"
  inputMint := solMint
  outputMint := "token"
  inputAmount := 10 ^ 9
  outputAmount := 10 ^ 6
  minimumOutputAmount := 10 ^ 6
  priceImpactPct := 0
  estimatedNetworkFeeLamports := some 0
  swapMode := .exactIn
  walletAddress := "wallet"

/-- A buy of one SOL in a run that starts with the largest `f64` below one SOL, once it holds the
capacity lock. -/
def boughtOnTheLast : PaperDesk :=
  [.account (1 - 1 / 2 ^ 53) 0,
    .priceBuy ⟨"token", "TKN", "Token", 1, none, 1, .manual, .userOnly, 1, 0⟩
      ⟨"wallet", 6, oneTokenQuote, oneTokenQuote, ⟨0, 0, 0, 0⟩, none, "leg", 1⟩,
    .lock 0 1].foldl PaperDesk.step .new

/-- A buy within the tolerance of the check is booked and spends more than the paper cash of its
run. -/
theorem buy_spends_past_cash : ∃ order, boughtOnTheLast.Books .write order ∧
    ∃ epoch, boughtOnTheLast.book.db.currentPaperEpoch = some epoch ∧
      (boughtOnTheLast.book.accountIn epoch).cashNative < order.cost := by
  have hrun : (boughtOnTheLast.booking .write).any (fun order =>
      decide ((boughtOnTheLast.step .write).book.db.legs ≠ boughtOnTheLast.book.db.legs) &&
        boughtOnTheLast.book.db.currentPaperEpoch.any fun epoch =>
          decide ((boughtOnTheLast.book.accountIn epoch).cashNative < order.cost)) = true := by
    decide +kernel
  obtain ⟨order, horder, hbooks⟩ := (Option.any_eq_true _ _).mp hrun
  obtain ⟨hlegs, hcash⟩ := Bool.and_eq_true_iff.mp hbooks
  obtain ⟨epoch, hepoch, hshort⟩ := (Option.any_eq_true _ _).mp hcash
  exact ⟨order, ⟨horder, of_decide_eq_true hlegs⟩, epoch, hepoch, of_decide_eq_true hshort⟩

end ScreenerBot.Positions.Paper
