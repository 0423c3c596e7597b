import Mathlib
import ScreenerBot.Library.DependencyOrder
import ScreenerBot.Library.Keyed
import ScreenerBot.Library.Sorting

/-!
The order in which registered services start: each after the registered services it depends on, the
lowest priority first among those that can start, and the name where priorities agree.
-/
namespace ScreenerBot.Services
open Library Relation

abbrev ServiceName := String

/-- What a service declares; whether it is enabled is read anew by each pass. -/
structure Service where
  essential : Bool
  priority : ℤ
  dependencies : List ServiceName
  stopsAlone : Bool
  deriving DecidableEq, Repr

inductive ServiceError
  | dependency (service dependency message : String)
  | stop (service message : String)
  | failed (chain : List String)
  deriving DecidableEq, Repr

/-- The services registered under their names. -/
abbrev Registry := AList fun _ : ServiceName => Service

/-- How hashed collections list what they hold; within a pass all of them share one order. -/
structure HashOrder where
  listing : List ServiceName → List ServiceName
  perm : ∀ l, (listing l).Perm l

namespace Registry

def register (r : Registry) (name : ServiceName) (service : Service) : Registry :=
  r.insert name service

def priority (r : Registry) (name : ServiceName) : ℤ :=
  ((r.lookup name).map Service.priority).getD 100

/-- The distinct registered dependencies of a service. -/
def declared (hash : HashOrder) (r : Registry) (name : ServiceName) : List ServiceName :=
  hash.listing (((((r.lookup name).map Service.dependencies).getD []).filter (· ∈ r)).dedup)

def closure (hash : HashOrder) (r : Registry) (services : List ServiceName) : List ServiceName :=
  hash.listing (reachFrom r.keys.toFinset (r.declared hash) [] (services.filter (· ∈ r)).reverse)

/-- `n` declares the registered service `d`. -/
def DependsOn (r : Registry) (n d : ServiceName) : Prop :=
  ∃ service, r.lookup n = some service ∧ d ∈ service.dependencies ∧ d ∈ r

/-- A requested service, or one that a requested service depends on, however indirectly. -/
def Needed (r : Registry) (services : List ServiceName) (n : ServiceName) : Prop :=
  ∃ s ∈ services, s ∈ r ∧ ReflTransGen r.DependsOn s n

variable {hash hash' : HashOrder} {r r' : Registry} {services services' : List ServiceName}

theorem mem_declared {n d : ServiceName} : d ∈ r.declared hash n ↔ r.DependsOn n d := by
  rw [declared, (hash.perm _).mem_iff, List.mem_dedup, List.mem_filter,
    decide_eq_true_iff, DependsOn]
  cases h : r.lookup n with
  | none => simp
  | some service => simp

theorem declared_nodup (n : ServiceName) : (r.declared hash n).Nodup :=
  (hash.perm _).nodup_iff.mpr (List.nodup_dedup _)

theorem declared_bound (n : ServiceName) : ∀ d ∈ r.declared hash n, d ∈ r.keys.toFinset := by
  intro d hd
  obtain ⟨_, _, _, hregistered⟩ := mem_declared.mp hd
  exact List.mem_toFinset.mpr (AList.mem_keys.mp hregistered)

theorem mem_closure {n : ServiceName} : n ∈ r.closure hash services ↔ r.Needed services n := by
  have hpending : ∀ a ∈ (services.filter (· ∈ r)).reverse, a ∈ r.keys.toFinset := by
    intro a ha
    rw [List.mem_reverse, List.mem_filter, decide_eq_true_iff] at ha
    exact List.mem_toFinset.mpr (AList.mem_keys.mp ha.2)
  have hdepends : (fun x y => y ∈ r.declared hash x) = r.DependsOn := by
    funext x y
    exact propext mem_declared
  rw [closure, (hash.perm _).mem_iff, mem_reachFrom declared_bound hpending, hdepends, Needed]
  simp [and_assoc]

theorem closure_nodup : (r.closure hash services).Nodup :=
  (hash.perm _).nodup_iff.mpr (reachFrom_nodup List.nodup_nil)

/-- What is to be ordered, by priority and name. -/
def precedence (hash : HashOrder) (r : Registry) (services : List ServiceName) :
    Precedence ServiceName (ℤ ×ₗ ServiceName) where
  nodes := r.closure hash services
  before := r.declared hash
  key n := toLex (r.priority n, n)
  nodes_nodup := closure_nodup
  before_nodup := declared_nodup
  closed n hn d hd := by
    obtain ⟨s, hs, hregistered, hsn⟩ := mem_closure.mp hn
    exact mem_closure.mpr ⟨s, hs, hregistered, hsn.tail (mem_declared.mp hd)⟩
  key_injective n m h := congrArg (fun k => (ofLex k).2) h

def resolveStartupOrder (hash : HashOrder) (r : Registry) (services : List ServiceName) :
    Except ServiceError (List ServiceName) :=
  match (r.precedence hash services).order with
  | .ok ordered => .ok ordered
  | .error blocked =>
    let blocked := sortBy id blocked
    .error (.dependency (blocked.head?.getD "") "circular"
      ("Circular dependency among services: " ++ ", ".intercalate blocked))

/-- Each service comes after all its registered dependencies, and no service that could have come in
its place has a lower priority, or the same priority and an earlier name. -/
def InStartupOrder (r : Registry) (services : List ServiceName) : List ServiceName → Prop :=
  EachAfter fun before n =>
    (∀ d, r.DependsOn n d → d ∈ before) ∧
      ∀ m, r.Needed services m → m ∉ before → (∀ d, r.DependsOn m d → d ∈ before) →
        toLex (r.priority n, n) ≤ toLex (r.priority m, m)

theorem inStartupOrder_of_greedy {ordered : List ServiceName}
    (h : (r.precedence hash services).Greedy ordered) : r.InStartupOrder services ordered := by
  refine EachAfter.imp (fun before n hn => ?_) h
  obtain ⟨⟨_, _, hbefore⟩, hleast⟩ := hn
  constructor
  · exact fun d hd => hbefore d (mem_declared.mpr hd)
  · intro m hm hnew hready
    apply hleast m
    exact ⟨mem_closure.mpr hm, hnew, fun d hd => hready d (mem_declared.mp hd)⟩

theorem resolve_eq_ok {ordered : List ServiceName} :
    r.resolveStartupOrder hash services = .ok ordered ↔
      (r.precedence hash services).order = .ok ordered := by
  rw [resolveStartupOrder]
  split
  next ordered' h => rw [h, Except.ok.injEq, Except.ok.injEq]
  next blocked h => simp [h]

theorem transGen_depends {a b : ServiceName} (ha : r.Needed services a)
    (h : TransGen r.DependsOn a b) : TransGen (r.precedence hash services).Depends a b := by
  obtain ⟨s, hs, hregistered, hsa⟩ := ha
  induction h with
  | single hab =>
    exact .single ⟨mem_closure.mpr ⟨s, hs, hregistered, hsa⟩, mem_declared.mpr hab⟩
  | tail hab hbc ih =>
    have hneeded : r.Needed services _ := ⟨s, hs, hregistered, hsa.trans hab.to_reflTransGen⟩
    exact ih.tail ⟨mem_closure.mpr hneeded, mem_declared.mpr hbc⟩

theorem needed_of_transGen {a b : ServiceName}
    (h : TransGen (r.precedence hash services).Depends a b) :
    r.Needed services a ∧ TransGen r.DependsOn a b := by
  induction h with
  | single hab => exact ⟨mem_closure.mp hab.1, .single (mem_declared.mp hab.2)⟩
  | tail _ hbc ih => exact ⟨ih.1, ih.2.tail (mem_declared.mp hbc.2)⟩

/-- There is an order unless a needed service depends on itself. It then has every needed service
once and in startup order; else the error names services that wait for one another. -/
theorem resolveStartupOrder_spec (hash : HashOrder) (r : Registry) (services : List ServiceName) :
    ((∃ ordered, r.resolveStartupOrder hash services = .ok ordered) ↔
      ∀ n, r.Needed services n → ¬TransGen r.DependsOn n n) ∧
    (∀ ordered, r.resolveStartupOrder hash services = .ok ordered →
      ordered.Nodup ∧ (∀ n, n ∈ ordered ↔ r.Needed services n) ∧
        r.InStartupOrder services ordered) ∧
    ∀ e, r.resolveStartupOrder hash services = .error e →
      ∃ first rest, (first :: rest).Pairwise (· ≤ ·) ∧
        (∀ n ∈ first :: rest, r.Needed services n ∧ ∃ d ∈ first :: rest, r.DependsOn n d) ∧
        e = .dependency first "circular"
          ("Circular dependency among services: " ++ ", ".intercalate (first :: rest)) := by
  refine ⟨?_, ?_, ?_⟩
  · simp only [resolve_eq_ok]
    rw [Precedence.exists_order_iff]
    constructor
    · exact fun hacyclic n hn hcycle => hacyclic n (transGen_depends hn hcycle)
    · intro hacyclic n hcycle
      obtain ⟨hn, hcycle⟩ := needed_of_transGen hcycle
      exact hacyclic n hn hcycle
  · intro ordered h
    obtain ⟨hgreedy, hperm⟩ := Precedence.order_ok (resolve_eq_ok.mp h)
    exact ⟨hgreedy.nodup, fun n =>
      hperm.mem_iff.trans mem_closure, inStartupOrder_of_greedy hgreedy⟩
  · intro e h
    rw [resolveStartupOrder] at h
    split at h
    next => cases h
    next blocked horder =>
      obtain ⟨hne, hwaits⟩ := Precedence.order_error horder
      have hperm := sortBy_perm id blocked
      have hsorted := sortBy_sorted id blocked
      obtain rfl := Except.error.inj h
      cases hblocked : sortBy id blocked with
      | nil =>
        rw [hblocked] at hperm
        exact absurd hperm.nil_eq.symm hne
      | cons first rest =>
        rw [hblocked] at hperm hsorted
        refine ⟨first, rest, hsorted, fun n hn => ?_, rfl⟩
        obtain ⟨hnode, d, hd, hblocked⟩ := hwaits n (hperm.mem_iff.mp hn)
        exact ⟨mem_closure.mp hnode, d, hperm.mem_iff.mpr hblocked, mem_declared.mp hd⟩

theorem mem_iff_of_perm (h : r.entries.Perm r'.entries) (n : ServiceName) : n ∈ r ↔ n ∈ r' := by
  rw [← AList.lookup_isSome, ← AList.lookup_isSome, AList.perm_lookup h]

theorem dependsOn_of_perm (h : r.entries.Perm r'.entries) : r.DependsOn = r'.DependsOn := by
  funext n d
  rw [DependsOn, DependsOn, AList.perm_lookup h, mem_iff_of_perm h]

theorem needed_congr (h : r.entries.Perm r'.entries) (hs : ∀ n, n ∈ services ↔ n ∈ services')
    (n : ServiceName) : r.Needed services n ↔ r'.Needed services' n := by
  rw [Needed, Needed, dependsOn_of_perm h]
  simp only [hs, mem_iff_of_perm h]

/-- The order, and the error, are the same however the services were registered and requested and
however the maps on the way list them. -/
theorem resolveStartupOrder_deterministic (hash hash' : HashOrder) (r r' : Registry)
    (services services' : List ServiceName) (hr : r.entries.Perm r'.entries)
    (hs : ∀ n, n ∈ services ↔ n ∈ services') :
    r.resolveStartupOrder hash services = r'.resolveStartupOrder hash' services' := by
  have hnodes : (r.closure hash services).Perm (r'.closure hash' services') := by
    apply (List.perm_ext_iff_of_nodup closure_nodup closure_nodup).mpr
    exact fun n => mem_closure.trans ((needed_congr hr hs n).trans mem_closure.symm)
  have hbefore : ∀ n, (r.declared hash n).Perm (r'.declared hash' n) := by
    intro n
    apply (List.perm_ext_iff_of_nodup (declared_nodup n) (declared_nodup n)).mpr
    intro d
    rw [mem_declared, mem_declared, dependsOn_of_perm hr]
  have hkey : (r.precedence hash services).key = (r'.precedence hash' services').key := by
    funext n
    simp only [precedence, priority, AList.perm_lookup hr]
  obtain ⟨hok, herror⟩ := Precedence.order_unique (p := r.precedence hash services)
    (q := r'.precedence hash' services') hnodes hbefore hkey
  cases horder : (r.precedence hash services).order with
  | ok ordered =>
    rw [resolve_eq_ok.mpr horder, resolve_eq_ok.mpr ((hok ordered).mp horder)]
  | error blocked =>
    obtain ⟨blocked', horder', hperm⟩ := herror blocked horder
    have hnodup : (blocked.map id).Nodup := by
      rw [List.map_id]
      exact Precedence.order_error_nodup horder
    have hsorted := sortBy_eq_of_perm id hperm hnodup
    rw [resolveStartupOrder, resolveStartupOrder, horder, horder']
    simp only [hsorted]

/-- Two services of one priority, registered either way round. -/
theorem resolveStartupOrder_deterministic_pair :
    (((∅ : Registry).register "pools" ⟨false, 30, ["tokens"], false⟩).register "tokens"
        ⟨false, 30, [], false⟩).resolveStartupOrder ⟨id, .refl⟩ ["pools", "tokens"]
      = (((∅ : Registry).register "tokens" ⟨false, 30, [], false⟩).register "pools"
        ⟨false, 30, ["tokens"], false⟩).resolveStartupOrder ⟨List.reverse, List.reverse_perm⟩
          ["tokens", "pools", "tokens"] :=
  resolveStartupOrder_deterministic _ _ _ _ _ _ (by decide) (by simp [or_comm])

end Registry
end ScreenerBot.Services
