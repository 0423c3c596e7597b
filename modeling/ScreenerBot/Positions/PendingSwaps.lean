import ScreenerBot.Library.Transcript
import ScreenerBot.Positions.PendingExits

/-! The pending sets of sent swaps, in memory and in storage, under calls that interleave at each
change of a set, each snapshot of it and each write of a snapshot. -/
namespace ScreenerBot.Positions

open Library

/-- A sent add that is not verified yet. -/
structure PendingDcaSwap where
  signature : String
  mint : String
  positionId : ℤ
  expiryHeight : Option ℕ
  sizeSol : ℚ
  deriving DecidableEq, Repr

inductive PendingKind where
  | dca
  | partialExit
  deriving DecidableEq, Repr

namespace PendingKind

abbrev Entry : PendingKind → Type
  | dca => PendingDcaSwap
  | partialExit => PendingPartialExit

def signature : (kind : PendingKind) → kind.Entry → String
  | dca, entry => entry.signature
  | partialExit, entry => entry.signature

def positionId : (kind : PendingKind) → kind.Entry → ℤ
  | dca, entry => entry.positionId
  | partialExit, entry => entry.positionId

end PendingKind

/-- The atomic steps on the sets in memory and in storage. -/
inductive PendingCall : Type → Type where
  | insert (kind : PendingKind) (entry : kind.Entry) : PendingCall Unit
  | remove (kind : PendingKind) (signature : String) : PendingCall (Option kind.Entry)
  | removeOfPosition (kind : PendingKind) (positionId : ℤ) : PendingCall (List kind.Entry)
  | snapshot (kind : PendingKind) : PendingCall (List kind.Entry)
  | setMetadata (kind : PendingKind) (pending : List kind.Entry) : PendingCall (Except String Unit)
  | dropHoldsOfPosition (positionId : ℤ) : PendingCall (Except String Unit)

def persistPending (kind : PendingKind) : Program PendingCall (Except String Unit) := do
  let pending ← Program.perform (.snapshot kind)
  Program.perform (.setMetadata kind pending)

def registerPending (kind : PendingKind) (entry : kind.Entry) :
    Program PendingCall (Except String Unit) := do
  Program.perform (.insert kind entry)
  persistPending kind

def clearPending (kind : PendingKind) (signature : String) :
    Program PendingCall (Except String (Option kind.Entry)) := do
  match ← Program.perform (.remove kind signature) with
  | none => return .ok none
  | some entry =>
    match ← persistPending kind with
    | .ok () => return .ok (some entry)
    | .error error =>
      Program.perform (.insert kind entry)
      return .error error

def registerPendingDcaSwap (entry : PendingDcaSwap) : Program PendingCall (Except String Unit) :=
  registerPending .dca entry

def clearPendingDcaSwap (signature : String) :
    Program PendingCall (Except String (Option PendingDcaSwap)) := clearPending .dca signature

def registerPendingPartialExit (entry : PendingPartialExit) :
    Program PendingCall (Except String Unit) := registerPending .partialExit entry

def clearPendingPartialExit (signature : String) :
    Program PendingCall (Except String (Option PendingPartialExit)) :=
  clearPending .partialExit signature

/-- `Result::and`. -/
def andResult (a b : Except String Unit) : Except String Unit := a >>= fun _ => b

/-- Persists a set that entries were removed from. -/
def persistChanged (kind : PendingKind) (removed : List kind.Entry) :
    Program PendingCall (Except String Unit) :=
  if removed.isEmpty then pure (.ok ()) else persistPending kind

def clearPendingSwapsOfPosition (positionId : ℤ) : Program PendingCall (Except String Unit) := do
  let dcaRemoved ← Program.perform (.removeOfPosition .dca positionId)
  let partialsRemoved ← Program.perform (.removeOfPosition .partialExit positionId)
  let dcaPersisted ← persistChanged .dca dcaRemoved
  let partialsPersisted ← persistChanged .partialExit partialsRemoved
  let holdsPersisted ← Program.perform (.dropHoldsOfPosition positionId)
  return andResult (andResult dcaPersisted partialsPersisted) holdsPersisted

/-- A pending set in memory, by signature, and the entries last written to storage. -/
structure PendingSet (α : Type) where
  map : AList fun _ : String => α
  stored : List α

abbrev PendingSets := (kind : PendingKind) → PendingSet kind.Entry

namespace PendingSet

variable {α : Type} (signature : α → String) (positionId : α → ℤ)

def insert (entry : α) (set : PendingSet α) : PendingSet α :=
  { set with map := set.map.insert (signature entry) entry }

def remove (key : String) (set : PendingSet α) : PendingSet α :=
  { set with map := set.map.erase key }

def removeOfPosition (id : ℤ) (set : PendingSet α) : PendingSet α :=
  { set with map := retain (fun entry => positionId entry != id) set.map }

/-- What the stored entries of a set restore at a start, where some positions are deleted. -/
def rehydrate (set : PendingSet α) (deleted : ℤ → Bool) : AList fun _ : String => α :=
  insertAll signature (set.stored.filter fun entry => !deleted (positionId entry)) ∅

/-- The stored set is the map. -/
def Saved (set : PendingSet α) : Prop := set.stored.Perm (values set.map)

/-- Each entry stands under its own signature. -/
def Keyed (set : PendingSet α) : Prop :=
  ∀ key entry, set.map.lookup key = some entry → signature entry = key

end PendingSet

/-- The answers the sets may give to a step, and what they are afterwards. A map lists its values in
any order, and a write that fails leaves what was stored. -/
def PendingSets.Answers (sets sets' : PendingSets) : {β : Type} → PendingCall β → β → Prop
  | _, .insert kind entry, _ =>
      sets' = Function.update sets kind ((sets kind).insert kind.signature entry)
  | _, .remove kind key, removed => removed = (sets kind).map.lookup key ∧
      sets' = Function.update sets kind ((sets kind).remove key)
  | _, .removeOfPosition kind id, removed =>
      removed.Perm ((values (sets kind).map).filter fun entry => kind.positionId entry == id) ∧
        sets' = Function.update sets kind ((sets kind).removeOfPosition kind.positionId id)
  | _, .snapshot kind, pending => pending.Perm (values (sets kind).map) ∧ sets' = sets
  | _, .setMetadata kind pending, .ok () =>
      sets' = Function.update sets kind { sets kind with stored := pending }
  | _, .setMetadata _ _, .error _ => sets' = sets
  | _, .dropHoldsOfPosition _, _ => sets' = sets

/-- The sets under the calls of the application, from a start where storage and memory agree. -/
def pendingShared : Shared PendingCall PendingSets (Except String Unit) where
  starts sets := ∀ kind, (sets kind).Saved ∧ (sets kind).Keyed kind.signature
  answers sets _ effect b sets' := sets.Answers sets' effect b
  spawns program := (∃ kind entry, program = registerPending kind entry) ∨
    (∃ kind signature, program = (Except.map fun _ => ()) <$> clearPending kind signature) ∨
    ∃ positionId, program = clearPendingSwapsOfPosition positionId

section Saving

variable (kind : PendingKind)

def IsSnapshot : (β : Type) → PendingCall β → Prop
  | _, .snapshot kind' => kind' = kind
  | _, _ => False

/-- A call that is about to write what the set is. -/
def WritesCurrent (sets : PendingSets) : Program PendingCall (Except String Unit) → Prop
  | .call (.setMetadata kind' pending) _ =>
      kind' = kind ∧ pending.Perm (values (sets kind').map)
  | _ => False

/-- A call that is still to snapshot the set, or to write what the set is. -/
def Carries (sets : PendingSets) (program : Program PendingCall (Except String Unit)) : Prop :=
  program.Makes (IsSnapshot kind) ∨ WritesCurrent kind sets program

/-- A write of the set as it is, or with another call still to save it. -/
def Current (sets : PendingSets) (others : List (Program PendingCall (Except String Unit))) :
    Exchange PendingCall → Prop
  | ⟨.setMetadata kind pending, .ok ()⟩ =>
    pending.Perm (values (sets kind).map) ∨ ∃ other ∈ others, Carries kind sets other
  | _ => True

/-- A change of the set is followed by a save or an error, a snapshot by its write, and a write that
fails by an error. -/
def Careful : Exchange PendingCall → Program PendingCall (Except String Unit) → Prop
  | ⟨.insert kind' _, _⟩, rest =>
      kind' = kind → rest.Makes (IsSnapshot kind) ∨ rest.Fails
  | ⟨.remove kind' _, removed⟩, rest =>
      kind' = kind → removed ≠ none → rest.Makes (IsSnapshot kind) ∨ rest.Fails
  | ⟨.removeOfPosition kind' _, removed⟩, rest =>
      kind' = kind → removed ≠ [] → rest.Makes (IsSnapshot kind) ∨ rest.Fails
  | ⟨.snapshot kind', pending⟩, rest =>
      kind' = kind → ∃ next, rest = .call (.setMetadata kind' pending) next
  | ⟨.setMetadata kind' _, .error _⟩, rest => kind' = kind → rest.Fails
  | _, _ => True

/-- The set is stored, or a call that runs is going to store it or to end in an error, or one
has. -/
def Kept (sets : PendingSets) (running : List (Program PendingCall (Except String Unit)))
    (results : List (Except String Unit)) : Prop :=
  (sets kind).Saved ∨ (∃ program ∈ running, Carries kind sets program ∨ program.Fails) ∨
    ∃ error, .error error ∈ results

variable {kind} {sets sets' : PendingSets}
  {front back : List (Program PendingCall (Except String Unit))}
  {results : List (Except String Unit)}

theorem Carries.congr {program : Program PendingCall (Except String Unit)}
    (hset : (sets' kind).map = (sets kind).map) (h : Carries kind sets program) :
    Carries kind sets' program := by
  refine h.imp_right fun hwrites => ?_
  unfold WritesCurrent at hwrites ⊢
  split
  next =>
    obtain ⟨rfl, hpending⟩ := hwrites
    exact ⟨rfl, hset ▸ hpending⟩
  next hother =>
    split at hwrites
    next => exact hother _ _ _ rfl
    next => exact hwrites

/-- A step that leaves the set alone, of a call that goes on to whatever it was going to. -/
theorem kept_of_same {β : Type} {effect : PendingCall β}
    {next : β → Program PendingCall (Except String Unit)} {b : β}
    (hset : sets' kind = sets kind)
    (hcarries : Carries kind sets (.call effect next) →
      Carries kind sets' (next b) ∨ (sets' kind).Saved)
    (h : Kept kind sets (front ++ .call effect next :: back) results) :
    Kept kind sets' (front ++ next b :: back) results := by
  obtain hsaved | ⟨program, hprogram, hkeeps⟩ | herror := h
  · exact .inl (hset ▸ hsaved)
  · rw [List.mem_append, List.mem_cons] at hprogram
    have hother (hmem : program ∈ front ∨ program ∈ back) :
        Kept kind sets' (front ++ next b :: back) results := by
      refine .inr (.inl ⟨program, ?_, hkeeps.imp_left (Carries.congr (hset ▸ rfl))⟩)
      rw [List.mem_append, List.mem_cons]
      exact hmem.imp_right .inr
    rcases hprogram with hmem | rfl | hmem
    · exact hother (.inl hmem)
    · obtain hkeeps | hfails := hkeeps
      · obtain hcarried | hsaved := hcarries hkeeps
        · exact .inr (.inl ⟨next b, by simp, .inl hcarried⟩)
        · exact .inl hsaved
      · exact .inr (.inl ⟨next b, by simp, .inr (hfails.after b)⟩)
    · exact hother (.inr hmem)
  · exact .inr (.inr herror)

/-- A step whose call saves the set from there, or ends in an error. -/
theorem kept_of_rest {rest : Program PendingCall (Except String Unit)}
    (h : Carries kind sets' rest ∨ rest.Fails) : Kept kind sets' (front ++ rest :: back) results :=
  .inr (.inl ⟨rest, by simp, h⟩)

theorem makes_persistPending {f : Except String Unit → Program PendingCall (Except String Unit)} :
    (persistPending kind >>= f).Makes (IsSnapshot kind) := .now rfl

theorem follows_persistPending {kind' : PendingKind}
    {f : Except String Unit → Program PendingCall (Except String Unit)}
    (hf : ∀ r, (f r).Follows (Careful kind)) (hfailed : ∀ error, (f (.error error)).Fails) :
    (persistPending kind' >>= f).Follows (Careful kind) := by
  refine .call (fun pending _ => ⟨_, rfl⟩) fun pending => .call (fun r => ?_) hf
  cases r with
  | ok done => trivial
  | error error => exact fun _ => hfailed error

theorem follows_registerPending (kind' : PendingKind) (entry : kind'.Entry) :
    (registerPending kind' entry).Follows (Careful kind) := by
  refine .call (fun _ hkind => ?_) fun _ => ?_
  · subst hkind
    exact .inl (@makes_persistPending kind' .done)
  · exact @follows_persistPending kind kind' .done (fun r => .done r) fun error => .done error

theorem follows_clearPending (kind' : PendingKind) (signature : String) :
    ((Except.map fun _ => ()) <$> clearPending kind' signature).Follows (Careful kind) := by
  refine .call (fun removed hkind hremoved => ?_) fun removed => ?_
  · subst hkind
    cases removed with
    | none => exact absurd rfl hremoved
    | some entry => exact .inl (.now rfl)
  · cases removed with
    | none => exact .done _
    | some entry =>
      refine .call (fun pending _ => ⟨_, rfl⟩) fun pending => .call (fun r => ?_) fun r => ?_
      · cases r with
        | ok done => trivial
        | error error => exact fun _ => .call fun _ => .done error
      · cases r with
        | ok done => exact .done _
        | error error =>
          exact .call (fun _ _ => .inr (.done error)) fun _ => .done _

section PersistChanged

variable {kind' : PendingKind} {removed : List kind'.Entry}
  {f : Except String Unit → Program PendingCall (Except String Unit)}

theorem makes_persistChanged (h : removed ≠ []) :
    (persistChanged kind' removed >>= f).Makes (IsSnapshot kind') := by
  rw [persistChanged, if_neg (by simpa using h)]
  exact makes_persistPending

/-- What is made whatever a persist returns is made after it. -/
theorem makes_after_persistChanged (h : ∀ r, (f r).Makes (IsSnapshot kind)) :
    (persistChanged kind' removed >>= f).Makes (IsSnapshot kind) := by
  unfold persistChanged
  split
  · exact h _
  · exact .later fun _ => .later h

theorem fails_persistChanged (h : ∀ r, (f r).Fails) :
    (persistChanged kind' removed >>= f).Fails := by
  unfold persistChanged
  split
  · exact h _
  · exact .call fun _ => .call h

theorem follows_persistChanged (hf : ∀ r, (f r).Follows (Careful kind))
    (hfailed : ∀ error, (f (.error error)).Fails) :
    (persistChanged kind' removed >>= f).Follows (Careful kind) := by
  unfold persistChanged
  split
  · exact hf _
  · exact follows_persistPending hf hfailed

end PersistChanged

/-- The last call of a clear, with what its persists returned. -/
theorem fails_clear {positionId : ℤ} {persisted : Except String Unit} {error : String}
    (h : persisted = .error error) :
    (Program.perform (.dropHoldsOfPosition positionId) >>= fun holdsPersisted =>
      (pure (andResult persisted holdsPersisted) : Program PendingCall _)).Fails := by
  subst h
  exact .call fun _ => .done error

theorem follows_clearPendingSwapsOfPosition (positionId : ℤ) :
    (clearPendingSwapsOfPosition positionId).Follows (Careful kind) := by
  refine .call (fun dcaRemoved hkind hchanged => .inl ?_) fun dcaRemoved =>
    .call (fun partialsRemoved hkind hchanged => .inl ?_) fun partialsRemoved => ?_
  · subst hkind
    exact .later fun _ => makes_persistChanged hchanged
  · subst hkind
    exact makes_after_persistChanged fun _ => makes_persistChanged hchanged
  · refine follows_persistChanged (fun dcaPersisted => ?_) fun error => ?_
    · refine follows_persistChanged (fun partialsPersisted => ?_) fun error => ?_
      · exact .call (fun _ => trivial) fun _ => .done _
      · cases dcaPersisted with
        | error first => exact fails_clear rfl
        | ok done => exact fails_clear rfl
    · exact fails_persistChanged fun _ => fails_clear rfl

/-- A step of a call on another set, or one that leaves this set as it was. -/
theorem kept_of_apart {β : Type} {effect : PendingCall β}
    {next : β → Program PendingCall (Except String Unit)} {b : β} (hset : sets' kind = sets kind)
    (hsnapshot : ¬IsSnapshot kind β effect) (hwrite : ¬WritesCurrent kind sets (.call effect next))
    (h : Kept kind sets (front ++ .call effect next :: back) results) :
    Kept kind sets' (front ++ next b :: back) results := by
  refine kept_of_same hset (fun hcarries => .inl (.inl ?_)) h
  obtain hmakes | hwrites := hcarries
  · exact hmakes.after.resolve_left hsnapshot b
  · exact absurd hwrites hwrite

theorem kept_of_answer {β : Type} {effect : PendingCall β}
    {next : β → Program PendingCall (Except String Unit)} {b : β}
    (hcareful : Careful kind ⟨effect, b⟩ (next b))
    (hcurrent : Current sets (front ++ back) ⟨effect, b⟩) (hanswer : sets.Answers sets' effect b)
    (h : Kept kind sets (front ++ .call effect next :: back) results) :
    Kept kind sets' (front ++ next b :: back) results := by
  cases effect with
  | dropHoldsOfPosition positionId =>
    obtain rfl : sets' = sets := hanswer
    exact kept_of_apart rfl id id h
  | insert kind' entry =>
    obtain rfl : sets' = _ := hanswer
    by_cases hkind : kind' = kind
    · exact kept_of_rest ((hcareful hkind).imp_left .inl)
    · exact kept_of_apart (Function.update_of_ne (Ne.symm hkind) _ _) id id h
  | remove kind' key =>
    obtain ⟨hremoved, rfl⟩ := hanswer
    by_cases hkind : kind' = kind
    · by_cases hnone : b = none
      · have hsame : (sets kind').remove key = sets kind' := by
          rw [PendingSet.remove, erase_of_lookup_none (hremoved.symm.trans hnone)]
        refine kept_of_apart ?_ id id h
        rw [hsame, Function.update_eq_self]
      · exact kept_of_rest ((hcareful hkind hnone).imp_left .inl)
    · exact kept_of_apart (Function.update_of_ne (Ne.symm hkind) _ _) id id h
  | removeOfPosition kind' position =>
    obtain ⟨hremoved, rfl⟩ := hanswer
    by_cases hkind : kind' = kind
    · by_cases hnone : b = []
      · have hkept : ∀ entry ∈ values (sets kind').map,
          (kind'.positionId entry != position) = true := by
          rw [hnone, List.nil_perm, List.filter_eq_nil_iff] at hremoved
          simpa using hremoved
        refine kept_of_apart ?_ id id h
        rw [PendingSet.removeOfPosition, retain_eq_self hkept, Function.update_eq_self]
      · exact kept_of_rest ((hcareful hkind hnone).imp_left .inl)
    · exact kept_of_apart (Function.update_of_ne (Ne.symm hkind) _ _) id id h
  | snapshot kind' =>
    obtain ⟨hpending, rfl⟩ := hanswer
    by_cases hkind : kind' = kind
    · obtain ⟨next', hnext⟩ := hcareful hkind
      rw [hnext]
      exact kept_of_rest (.inl (.inr ⟨hkind, hpending⟩))
    · refine kept_of_apart rfl ?_ id h
      exact hkind
  | setMetadata kind' pending =>
    by_cases hkind : kind' = kind
    · subst hkind
      cases b with
      | error error => exact kept_of_rest (.inr (hcareful rfl))
      | ok done =>
        obtain rfl : sets' = _ := hanswer
        obtain hpending | ⟨other, hother, hcarries⟩ := hcurrent
        · refine .inl ?_
          simpa [PendingSet.Saved] using hpending
        · refine .inr (.inl ⟨other, ?_, .inl (hcarries.congr (by simp))⟩)
          rw [List.mem_append, List.mem_cons]
          exact (List.mem_append.mp hother).imp_right .inr
    · have hwrite : ¬WritesCurrent kind sets (.call (.setMetadata kind' pending) next) :=
        fun hwrites => hkind hwrites.1
      cases b with
      | error error =>
        obtain rfl : sets' = sets := hanswer
        exact kept_of_apart rfl id hwrite h
      | ok done =>
        obtain rfl : sets' = _ := hanswer
        exact kept_of_apart (Function.update_of_ne (Ne.symm hkind) _ _) id hwrite h

/-- An entry always stands under its own signature. -/
theorem keyed_of_answer {β : Type} {effect : PendingCall β} {b : β}
    (hanswer : sets.Answers sets' effect b) (h : ∀ kind, (sets kind).Keyed kind.signature) :
    ∀ kind, (sets' kind).Keyed kind.signature := by
  have hupdate (changed : PendingKind) (set : PendingSet changed.Entry)
      (hset : set.Keyed changed.signature) (kind : PendingKind) :
      (Function.update sets changed set kind).Keyed kind.signature := by
    by_cases hkind : kind = changed
    · subst hkind
      rw [Function.update_self]
      exact hset
    · rw [Function.update_of_ne hkind]
      exact h kind
  cases effect with
  | dropHoldsOfPosition position =>
    obtain rfl : sets' = sets := hanswer
    exact h
  | insert changed entry =>
    obtain rfl : sets' = _ := hanswer
    apply hupdate
    intro key found hfound
    rcases lookup_insert_cases hfound with ⟨rfl, rfl⟩ | ⟨-, hfound⟩
    · rfl
    · exact h changed key found hfound
  | remove changed signature =>
    obtain ⟨-, rfl⟩ := hanswer
    apply hupdate
    intro key found hfound
    exact h changed key found (lookup_erase_cases hfound).2
  | removeOfPosition changed position =>
    obtain ⟨-, rfl⟩ := hanswer
    apply hupdate
    intro key found hfound
    exact h changed key found (lookup_retain_eq_some.mp hfound).1
  | snapshot changed =>
    obtain ⟨-, rfl⟩ := hanswer
    exact h
  | setMetadata changed pending =>
    cases b with
    | error error =>
      obtain rfl : sets' = sets := hanswer
      exact h
    | ok done =>
      obtain rfl : sets' = _ := hanswer
      exact hupdate changed _ (h changed)

end Saving

/-- What is kept throughout a run whose writes are all current. -/
theorem kept_of_interleaved {sets : PendingSets}
    {running : List (Program PendingCall (Except String Unit))}
    {results : List (Except String Unit)}
    (h : Interleaved pendingShared Current sets running results) :
    (∀ kind, (sets kind).Keyed kind.signature) ∧ ∀ kind, Kept kind sets running results ∧
      ∀ program ∈ running, program.Follows (Careful kind) := by
  induction h with
  | start hstart =>
    exact ⟨fun kind => (hstart kind).2, fun kind => ⟨.inl (hstart kind).1, by simp⟩⟩
  | spawn h hspawn ih =>
    obtain ⟨hkeyed, hkept⟩ := ih
    refine ⟨hkeyed, fun kind => ⟨?_, List.forall_mem_cons.mpr ⟨?_, (hkept kind).2⟩⟩⟩
    · obtain hsaved | ⟨program, hprogram, hkeeps⟩ | herror := (hkept kind).1
      · exact .inl hsaved
      · exact .inr (.inl ⟨program, List.mem_cons_of_mem _ hprogram, hkeeps⟩)
      · exact .inr (.inr herror)
    · obtain ⟨kind', entry, rfl⟩ | ⟨kind', signature, rfl⟩ | ⟨position, rfl⟩ := hspawn
      · exact follows_registerPending kind' entry
      · exact follows_clearPending kind' signature
      · exact follows_clearPendingSwapsOfPosition position
  | answer h hallowed hanswer ih =>
    obtain ⟨hkeyed, hkept⟩ := ih
    refine ⟨keyed_of_answer hanswer hkeyed, fun kind => ?_⟩
    obtain ⟨hkept, hfollows⟩ := hkept kind
    simp only [List.forall_mem_append, List.forall_mem_cons] at hfollows ⊢
    obtain ⟨hfront, hcall, hback⟩ := hfollows
    obtain ⟨hcareful, hnext⟩ := hcall.after _
    exact ⟨kept_of_answer hcareful hallowed hanswer hkept, hfront, hnext, hback⟩
  | @finish sets front back results r h ih =>
    obtain ⟨hkeyed, hkept⟩ := ih
    refine ⟨hkeyed, fun kind => ?_⟩
    obtain ⟨hkept, hfollows⟩ := hkept kind
    simp only [List.forall_mem_append, List.forall_mem_cons] at hfollows ⊢
    refine ⟨?_, hfollows.1, hfollows.2.2⟩
    obtain hsaved | ⟨program, hprogram, hkeeps⟩ | ⟨error, herror⟩ := hkept
    · exact .inl hsaved
    · rw [List.mem_append, List.mem_cons] at hprogram
      rcases hprogram with hmem | rfl | hmem
      · exact .inr (.inl ⟨program, List.mem_append_left _ hmem, hkeeps⟩)
      · obtain (hmakes | hwrites) | hfails := hkeeps
        · cases hmakes
        · exact hwrites.elim
        · cases hfails with
          | done error => exact .inr (.inr ⟨error, List.mem_cons_self⟩)
      · exact .inr (.inl ⟨program, List.mem_append_right _ hmem, hkeeps⟩)
    · exact .inr (.inr ⟨error, List.mem_cons_of_mem _ herror⟩)

/-- Restoring saved entries gives the map back, where the rows of their positions still exist. -/
theorem lookup_rehydrate {kind : PendingKind} {set : PendingSet kind.Entry} {deleted : ℤ → Bool}
    (hsaved : set.Saved) (hkeyed : set.Keyed kind.signature)
    (hrows : ∀ entry ∈ values set.map, deleted (kind.positionId entry) = false) (key : String) :
    (set.rehydrate kind.signature kind.positionId deleted).lookup key = set.map.lookup key := by
  have hall : set.stored.filter (fun entry => !deleted (kind.positionId entry)) = set.stored := by
    refine List.filter_eq_self.mpr fun entry hentry => ?_
    rw [hrows entry (hsaved.mem_iff.mp hentry)]
    rfl
  rw [PendingSet.rehydrate, hall]
  have hdistinct : (set.stored.map kind.signature).Nodup := by
    rw [(hsaved.map kind.signature).nodup_iff, values_map_of_keyed kind.signature hkeyed]
    exact set.map.nodupKeys
  have hvalues : (values (insertAll kind.signature set.stored ∅)).Perm (values set.map) :=
    (values_insertAll kind.signature set.stored ∅ hdistinct fun _ _ => rfl).trans
      (by simpa [values, PendingSet.Saved] using hsaved)
  have hrestored : ∀ key entry,
      (insertAll kind.signature set.stored ∅).lookup key = some entry →
        kind.signature entry = key := by
    intro key entry hlookup
    rcases lookup_insertAll hlookup with ⟨hkey, -⟩ | hlookup
    · exact hkey
    · cases hlookup
  ext entry
  rw [lookup_iff_of_keyed hrestored, lookup_iff_of_keyed hkeyed, hvalues.mem_iff]

/-- Whenever no call is in progress and every call returned `Ok`, storage holds the pending sets as
memory has them, and a restart restores them, in every run whose writes are current. -/
theorem pending_swaps_survive {sets : PendingSets} {results : List (Except String Unit)}
    (h : Interleaved pendingShared Current sets [] results)
    (hfinished : ∀ result ∈ results, result = .ok ()) (kind : PendingKind) :
    (sets kind).Saved ∧ ∀ deleted : ℤ → Bool,
      (∀ entry ∈ values (sets kind).map, deleted (kind.positionId entry) = false) →
        ∀ key, ((sets kind).rehydrate kind.signature kind.positionId deleted).lookup key =
          (sets kind).map.lookup key := by
  obtain ⟨hkeyed, hkept⟩ := kept_of_interleaved h
  have hsaved : (sets kind).Saved := by
    obtain hsaved | ⟨program, hprogram, -⟩ | ⟨error, herror⟩ := (hkept kind).1
    · exact hsaved
    · cases hprogram
    · cases hfinished _ herror
  exact ⟨hsaved, fun deleted hrows key => lookup_rehydrate hsaved (hkeyed kind) hrows key⟩

/-- The sets after adds were inserted in turn and `stored` was written. -/
def pendingAdds (adds stored : List PendingDcaSwap) : PendingSets
  | .dca => ⟨insertAll PendingDcaSwap.signature adds ∅, stored⟩
  | .partialExit => ⟨∅, []⟩

theorem pendingAdds_starts : pendingShared.starts (pendingAdds [] []) := by
  intro kind
  cases kind <;> exact ⟨List.Perm.nil, nofun⟩

theorem pendingAdds_insert (adds stored : List PendingDcaSwap) (add : PendingDcaSwap) :
    pendingShared.answers (pendingAdds adds stored) (.insert .dca add) ()
      (pendingAdds (adds ++ [add]) stored) := by
  funext kind
  cases kind with
  | dca => simp [pendingAdds, insertAll, PendingSet.insert, PendingKind.signature]
  | partialExit => rfl

theorem pendingAdds_write (adds stored pending : List PendingDcaSwap) :
    pendingShared.answers (pendingAdds adds stored) (.setMetadata .dca pending) (.ok ())
      (pendingAdds adds pending) := by
  funext kind
  cases kind <;> rfl

def firstAdd : PendingDcaSwap := ⟨"first", "mintA", 1, some 100, 1⟩

def secondAdd : PendingDcaSwap := ⟨"second", "mintB", 2, some 100, 1⟩

def onlyExit : PendingPartialExit where
  signature := "exit"
  mint := "mintA"
  positionId := 1
  expectedExitAmount := 10
  requestedExitPercentage := 50
  takeProfitLevel := none
  expiryHeight := some 100

/-- A partial exit is registered while an add is, and a second add while the first is cleared: both
sets are stored as memory has them. -/
theorem overlapping_calls_survive : ∃ sets results,
    Interleaved pendingShared Current sets [] results ∧ (sets .dca).stored = [secondAdd] ∧
      (sets .partialExit).stored = [onlyExit] ∧ (sets .dca).Saved ∧ (sets .partialExit).Saved := by
  have hstart : Interleaved pendingShared Current (pendingAdds [] []) [] [] :=
    .start pendingAdds_starts
  have hfirst := (hstart.spawn (.inl ⟨.dca, firstAdd, rfl⟩)).answer_first () trivial rfl
  have hexit := (hfirst.spawn (.inl ⟨.partialExit, onlyExit, rfl⟩)).answer_first () trivial rfl
  have hexitRead := hexit.answer_first [onlyExit] trivial ⟨List.Perm.refl _, rfl⟩
  have hexitStored := hexitRead.answer_first (Except.ok ()) (Or.inl (List.Perm.refl _)) rfl
  have hfirstRead := hexitStored.finish_first.answer_first [firstAdd] trivial
    ⟨List.Perm.refl _, rfl⟩
  have hfirstStored := hfirstRead.answer_first (Except.ok ()) (Or.inl (List.Perm.refl _)) rfl
  have hcleared := (hfirstStored.finish_first.spawn (.inr (.inl ⟨.dca, "first", rfl⟩))).answer_first
    (some firstAdd) trivial ⟨rfl, rfl⟩
  have hsecond := (hcleared.spawn (.inl ⟨.dca, secondAdd, rfl⟩)).answer_first () trivial rfl
  have hsecondRead := hsecond.answer_first [secondAdd] trivial ⟨List.Perm.refl _, rfl⟩
  have hsecondStored := hsecondRead.answer_first (Except.ok ()) (Or.inl (List.Perm.refl _)) rfl
  have hclearRead := hsecondStored.finish_first.answer_first [secondAdd] trivial
    ⟨List.Perm.refl _, rfl⟩
  have hend := (hclearRead.answer_first (Except.ok ()) (Or.inl (List.Perm.refl _)) rfl).finish_first
  have hsurvive := pending_swaps_survive hend (by simp [Except.map])
  exact ⟨_, _, hend, rfl, rfl, (hsurvive .dca).1, (hsurvive .partialExit).1⟩

/-- Two adds settle at the same moment: the older snapshot is written last. -/
theorem older_snapshot_written_last :
    ¬∀ (sets : PendingSets) (results : List (Except String Unit)),
      Interleaved pendingShared (fun _ _ _ => True) sets [] results →
        (∀ result ∈ results, result = .ok ()) → ∀ kind, (sets kind).Saved := by
  intro hclaim
  have hstart : Interleaved pendingShared (fun _ _ _ => True) (pendingAdds [] []) [] [] :=
    .start pendingAdds_starts
  have hfirst := hstart.spawn (.inl ⟨.dca, firstAdd, rfl⟩)
  have hinserted := hfirst.answer_first () trivial (pendingAdds_insert [] [] firstAdd)
  have hread := hinserted.answer_first [firstAdd] trivial ⟨List.Perm.refl _, rfl⟩
  have hsecond := hread.spawn (.inl ⟨.dca, secondAdd, rfl⟩)
  have hboth := hsecond.answer_first () trivial (pendingAdds_insert [firstAdd] [] secondAdd)
  have hreread := hboth.answer_first [secondAdd, firstAdd] trivial ⟨List.Perm.refl _, rfl⟩
  have hnewer := hreread.answer_first (Except.ok ()) trivial
    (pendingAdds_write [firstAdd, secondAdd] [] [secondAdd, firstAdd])
  have holder := hnewer.finish_first.answer_first (Except.ok ()) trivial
    (pendingAdds_write [firstAdd, secondAdd] [secondAdd, firstAdd] [firstAdd])
  have hlost := (hclaim _ _ holder.finish_first (by simp) .dca).length_eq
  revert hlost
  decide +kernel

end ScreenerBot.Positions
