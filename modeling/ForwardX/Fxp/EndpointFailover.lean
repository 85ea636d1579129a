import Mathlib.Data.List.Nodup
import ForwardX.Lib.Transition
import ForwardX.Fxp.ListenLanes

/- The choice of an exit endpoint (`main.go`, `exitEndpointSelector` and `dialSelectedSetup`).
   The loop picks an endpoint that it has not tried, dials it, writes the setup and notes in
   the selector's table how it went, until an attempt succeeds or nothing is left. Others use the
   same table meanwhile, and change whether and until when an endpoint is held unhealthy. -/
namespace ForwardX.Fxp.Failover
open Transition Control
open Traffic (trimSpace)

/-! ## The selector -/

/-- One index of `endpoints`, `healthy` and `retryAfter`; the zero time is none. -/
structure EndpointEntry where
  endpoint : ExitEndpoint
  healthy : Bool
  retryAfter : Option Int
  deriving DecidableEq, Repr

/-- `exitEndpointSelector`; one without endpoints stands for nil too. -/
structure ExitEndpointSelector where
  entries : List EndpointEntry
  strategy : String
  next : Nat
  deriving DecidableEq, Repr

def fxpFallbackRetry : Int := 5000000000

/-- `fnv.New64a`. -/
def fnv64a (bytes : List UInt8) : UInt64 :=
  bytes.foldl (fun h b => (h ^^^ b.toUInt64) * 1099511628211) 14695981039346656037

def ExitEndpointSelector.count (s : ExitEndpointSelector) : Nat := s.entries.length

def EndpointEntry.eligible (e : EndpointEntry) (now : Int) : Bool := e.healthy || e.retryAfter.all (fun t => t ≤ now)

def ExitEndpointSelector.eligibleAt (s : ExitEndpointSelector) (now : Int) (i : Nat) : Bool :=
  s.entries[i]?.any (fun e => e.eligible now)

def ExitEndpointSelector.untried (s : ExitEndpointSelector) (excluded : List Nat) : List Nat :=
  (List.range s.count).filter (fun i => !excluded.contains i)

/-- `exitEndpointSelector.pick`; `random` is what `randomUint64` returns, none for its error. -/
def ExitEndpointSelector.pick (s : ExitEndpointSelector) (excluded : List Nat) (selectionKey : String) (now : Int)
    (random : Option UInt64) : ExitEndpointSelector × Option Nat :=
  if s.strategy = "fallback" then
    (s, ((s.untried excluded).filter (s.eligibleAt now)).head? <|> (s.untried excluded).head?)
  else
    let eligible := (s.untried excluded).filter (s.eligibleAt now)
    let candidates := if eligible.length = 0 then s.untried excluded else eligible
    if candidates.length = 0 then (s, none)
    else if s.strategy = "random" ∧ random.isSome then
      (s, random.bind (fun value => candidates[value.toNat % candidates.length]?))
    else if s.strategy = "ip_hash" ∧ trimSpace selectionKey ≠ "" then
      (s, candidates[(fnv64a (trimSpace selectionKey).toUTF8.toList).toNat % candidates.length]?)
    else ({ s with next := (s.next + 1) % 1000000 }, candidates[s.next % candidates.length]?)

def ExitEndpointSelector.modify (s : ExitEndpointSelector) (index : Nat) (f : EndpointEntry → EndpointEntry) :
    ExitEndpointSelector := { s with entries := s.entries.modify index f }

def ExitEndpointSelector.markFailure (s : ExitEndpointSelector) (index : Nat) (now : Int) : ExitEndpointSelector :=
  s.modify index (fun e => { e with healthy := false, retryAfter := some (now + fxpFallbackRetry) })

def ExitEndpointSelector.markHealthy (s : ExitEndpointSelector) (index : Nat) : ExitEndpointSelector :=
  s.modify index (fun e => { e with healthy := true, retryAfter := none })

/-! ## The loop -/

/-- An error, with what `errors.Is` says of it. -/
structure DialError where
  text : String
  isClosed : Bool
  isDraining : Bool
  isStreamLimit : Bool
  deriving DecidableEq, Repr

/-- `strings.Contains`. -/
def containsText (s sub : String) : Bool := s.toList.tails.any (fun t => sub.toList.isPrefixOf t)

def v3EndpointFailureIsRetryable (err : DialError) : Bool :=
  if err.isClosed || err.isDraining || err.isStreamLimit then false
  else !containsText err.text "physical session pool limit reached"

def v3MuxEnabled (cfg : Settings) : Bool := cfg.TransportVersion = "v3" && cfg.V3Multiplex.all id

/-- How an attempt went. -/
inductive Outcome
  | connected
  | dialFailed (err : DialError)
  | setupFailed (err : DialError)
  deriving DecidableEq, Repr

def Outcome.err : Outcome → Option DialError
  | connected => none
  | dialFailed err => some err
  | setupFailed err => some err

/-- What was picked and dialed, and which endpoints were eligible at that time. -/
structure Choice where
  index : Nat
  host : String
  port : Int
  key : String
  eligible : List Bool
  deriving DecidableEq, Repr

def Choice.eligibleAt (c : Choice) (j : Nat) : Bool := c.eligible[j]?.any id

/-- An attempt that is over: whether its connection was closed, and the entry of the table right
after the outcome was noted. -/
structure Attempt where
  choice : Choice
  outcome : Outcome
  closed : Bool
  notedAt : Int
  entry : Option EndpointEntry
  deriving DecidableEq, Repr

inductive Phase
  | choosing
  | dialing (choice : Choice)
  | settling (choice : Choice) (outcome : Outcome) (closed : Bool)
  | returned (result : Except DialError Nat)

def Phase.choice : Phase → Option Choice
  | choosing => none
  | dialing choice => some choice
  | settling choice _ _ => some choice
  | returned _ => none

structure State where
  selector : ExitEndpointSelector
  tried : List Attempt
  lastErr : Option DialError
  phase : Phase

def State.choices (s : State) : List Choice := s.tried.map Attempt.choice ++ s.phase.choice.toList

/-- The keys of `attempted`. -/
def State.attempted (s : State) : List Nat := s.choices.map Choice.index

/-- What the loop is called with; `hasSetup` is whether `setup` is not nil. -/
structure Call where
  cfg : Settings
  selectionKey : String
  hasSetup : Bool

inductive Action
  /-- Others have changed the table. -/
  | other (selector : ExitEndpointSelector)
  | pick (now : Int) (random : Option UInt64)
  | dial (outcome : Outcome)
  | note (now : Int)

def Action.own : Action → Bool
  | other _ => false
  | _ => true

def finalErr (lastErr : Option DialError) : DialError :=
  lastErr.getD ⟨"no exit endpoint available", false, false, false⟩

def Call.stopsAt (call : Call) (err : DialError) : Bool :=
  v3MuxEnabled call.cfg && !v3EndpointFailureIsRetryable err

def step (call : Call) (s : State) : Action → Option State
  | .other selector =>
    if selector.entries.map (·.endpoint) = s.selector.entries.map (·.endpoint) ∧
        selector.strategy = s.selector.strategy then some { s with selector := selector }
    else none
  | .pick now random =>
    match s.phase with
    | .choosing =>
      if s.attempted.length < s.selector.count then
        let (selector, index) := s.selector.pick s.attempted call.selectionKey now random
        match index.bind (fun i => s.selector.entries[i]?.map (fun e => (i, e.endpoint))) with
        | none => some { s with selector := selector, phase := .returned (.error (finalErr s.lastErr)) }
        | some (i, endpoint) =>
          some { s with
            selector := selector
            phase := .dialing
              { index := i
                host := endpoint.Host
                port := endpoint.Port
                key := if endpoint.Key = "" then call.cfg.Key else endpoint.Key
                eligible := s.selector.entries.map (fun e => e.eligible now) } }
      else some { s with phase := .returned (.error (finalErr s.lastErr)) }
    | _ => none
  | .dial outcome =>
    match s.phase with
    | .dialing choice =>
      match outcome with
      | .setupFailed err =>
        if call.hasSetup then some { s with phase := .settling choice (.setupFailed err) true } else none
      | outcome => some { s with phase := .settling choice outcome false }
    | _ => none
  | .note now =>
    match s.phase with
    | .settling choice outcome closed =>
      match outcome.err with
      | none =>
        let selector := s.selector.markHealthy choice.index
        some { s with
          selector := selector
          tried := s.tried ++ [⟨choice, outcome, closed, now, selector.entries[choice.index]?⟩]
          phase := .returned (.ok choice.index) }
      | some err =>
        if call.stopsAt err then
          some { s with
            tried := s.tried ++ [⟨choice, outcome, closed, now, s.selector.entries[choice.index]?⟩]
            lastErr := some err
            phase := .returned (.error err) }
        else
          let selector := s.selector.markFailure choice.index now
          some
            { selector := selector
              tried := s.tried ++ [⟨choice, outcome, closed, now, selector.entries[choice.index]?⟩]
              lastErr := some err
              phase := .choosing }
    | _ => none

def start (selector : ExitEndpointSelector) : State := ⟨selector, [], none, .choosing⟩

/-! ## Picking -/

namespace ExitEndpointSelector

variable {s : ExitEndpointSelector} {excluded : List Nat} {selectionKey : String} {now : Int}
  {random : Option UInt64} {i : Nat}

theorem mem_untried : i ∈ s.untried excluded ↔ i < s.count ∧ i ∉ excluded := by
  unfold untried
  rw [List.mem_filter, List.mem_range]
  simp

theorem untried_eq_nil (h : s.untried excluded = []) (hi : i < s.count) : i ∈ excluded := by
  by_contra hnot
  have hmem := mem_untried.mpr ⟨hi, hnot⟩
  rw [h] at hmem
  exact List.not_mem_nil hmem

theorem getElem?_mod {candidates : List Nat} (h : candidates ≠ []) (n : Nat) :
    ∃ c ∈ candidates, candidates[n % candidates.length]? = some c := by
  have hlt : n % candidates.length < candidates.length := Nat.mod_lt _ (List.length_pos_of_ne_nil h)
  exact ⟨_, List.getElem_mem hlt, List.getElem?_eq_getElem hlt⟩

/-- The first of the indices left that meet a test is before every other such index. -/
theorem head?_least {p : Nat → Bool} (h : ((s.untried excluded).filter p).head? = some i) :
    (i ∈ s.untried excluded ∧ p i = true) ∧ ∀ j ∈ s.untried excluded, p j = true → j ≠ i → i < j := by
  obtain ⟨rest, hrest⟩ := List.head?_eq_some_iff.mp h
  have hsorted : ((s.untried excluded).filter p).Pairwise (· < ·) :=
    (List.pairwise_lt_range.filter _).filter _
  rw [hrest, List.pairwise_cons] at hsorted
  refine ⟨List.mem_filter.mp (hrest ▸ List.mem_cons_self), fun j hj hp hne => ?_⟩
  have hmem : j ∈ i :: rest := hrest ▸ List.mem_filter.mpr ⟨hj, hp⟩
  exact hsorted.1 j ((List.mem_cons.mp hmem).resolve_left hne)

/-- Index `i` comes before `j`, by whether each is eligible and then by number. -/
def Precedes (eligible : Nat → Bool) (i j : Nat) : Prop :=
  (eligible i = true ∧ (eligible j = true → i < j)) ∨
    (eligible i = false ∧ eligible j = false ∧ i < j)

theorem fallback_spec {index : Option Nat}
    (h : (((s.untried excluded).filter (s.eligibleAt now)).head? <|> (s.untried excluded).head?) = index) :
    (index = none → s.untried excluded = []) ∧
      ∀ i, index = some i → i ∈ s.untried excluded ∧
        ∀ j ∈ s.untried excluded, j ≠ i → Precedes (s.eligibleAt now) i j := by
  rw [Option.orElse_eq_orElse, Option.orElse_eq_or] at h
  constructor
  · intro hnone
    rw [hnone, Option.or_eq_none_iff] at h
    exact List.head?_eq_none_iff.mp h.2
  · intro i hsome
    rw [hsome, Option.or_eq_some_iff] at h
    rcases h with hfirst | ⟨hnone, hrest⟩
    · obtain ⟨⟨hmem, heligible⟩, hleast⟩ := head?_least hfirst
      exact ⟨hmem, fun j hj hne => Or.inl ⟨heligible, fun hp => hleast j hj hp hne⟩⟩
    · have hineligible : ∀ j ∈ s.untried excluded, s.eligibleAt now j = false := by
        intro j hj
        have hnot := List.filter_eq_nil_iff.mp (List.head?_eq_none_iff.mp hnone) j hj
        simpa using hnot
      rw [← List.filter_true (s.untried excluded)] at hrest
      obtain ⟨⟨hmem, -⟩, hleast⟩ := head?_least hrest
      exact ⟨hmem, fun j hj hne =>
        Or.inr ⟨hineligible i hmem, hineligible j hj, hleast j hj rfl hne⟩⟩

/-- What `pick` does: the table stays, an index that is left is picked if there is one, and
with the strategy fallback it is the first of them. -/
theorem pick_spec {picked : ExitEndpointSelector} {index : Option Nat}
    (h : s.pick excluded selectionKey now random = (picked, index)) :
    picked.entries = s.entries ∧ picked.strategy = s.strategy ∧
      (index = none → s.untried excluded = []) ∧
      ∀ i, index = some i → i ∈ s.untried excluded ∧
        (s.strategy = "fallback" →
          ∀ j ∈ s.untried excluded, j ≠ i → Precedes (s.eligibleAt now) i j) := by
  unfold pick at h
  split at h
  · obtain ⟨rfl, hindex⟩ := Prod.mk.inj h
    obtain ⟨hnone, hsome⟩ := fallback_spec hindex
    exact ⟨rfl, rfl, hnone, fun i hi => ⟨(hsome i hi).1, fun _ => (hsome i hi).2⟩⟩
  · rename_i hstrategy
    dsimp only at h
    generalize hcandidates : (if ((s.untried excluded).filter (s.eligibleAt now)).length = 0 then
      s.untried excluded else (s.untried excluded).filter (s.eligibleAt now)) = candidates at h
    have hsub : ∀ j ∈ candidates, j ∈ s.untried excluded := by
      intro j hj
      rw [← hcandidates] at hj
      split at hj
      · exact hj
      · exact (List.mem_filter.mp hj).1
    have hempty : candidates = [] → s.untried excluded = [] := by
      intro hnil
      rw [hnil] at hcandidates
      split at hcandidates
      · exact hcandidates
      · rename_i hlength
        exact absurd (by rw [hcandidates]; rfl) hlength
    -- Every other branch takes the candidate at some number that wraps around.
    have hwrapped : ∀ {n : Nat}, candidates ≠ [] → candidates[n % candidates.length]? = index →
        (index = none → s.untried excluded = []) ∧
          ∀ i, index = some i → i ∈ s.untried excluded ∧
            (s.strategy = "fallback" →
              ∀ j ∈ s.untried excluded, j ≠ i → Precedes (s.eligibleAt now) i j) := by
      intro n hne hindex
      obtain ⟨c, hc, hget⟩ := getElem?_mod hne n
      rw [hget] at hindex
      refine ⟨fun hnone => absurd (hindex.trans hnone) (by simp), fun i hi => ?_⟩
      obtain rfl := Option.some.inj (hindex.trans hi)
      exact ⟨hsub _ hc, fun hfallback => absurd hfallback hstrategy⟩
    split at h
    · rename_i hlength
      obtain ⟨rfl, rfl⟩ := Prod.mk.inj h
      exact ⟨rfl, rfl, fun _ => hempty (List.length_eq_zero_iff.mp hlength), fun i hi => by cases hi⟩
    · rename_i hlength
      have hne : candidates ≠ [] := fun hnil => hlength (by rw [hnil]; rfl)
      split at h
      · rename_i hrandom
        obtain ⟨value, hvalue⟩ := Option.isSome_iff_exists.mp hrandom.2
        obtain ⟨rfl, hindex⟩ := Prod.mk.inj h
        rw [hvalue] at hindex
        exact ⟨rfl, rfl, hwrapped hne hindex⟩
      · split at h <;> obtain ⟨rfl, hindex⟩ := Prod.mk.inj h <;> exact ⟨rfl, rfl, hwrapped hne hindex⟩

/-! ### Marks -/

@[simp] theorem modify_count (f : EndpointEntry → EndpointEntry) : (s.modify i f).count = s.count := by
  simp only [modify, count, List.length_modify]

theorem modify_entry (f : EndpointEntry → EndpointEntry) (h : i < s.count) :
    ∃ e, s.entries[i]? = some e ∧ (s.modify i f).entries[i]? = some (f e) := by
  have hget : s.entries[i]? = some s.entries[i] := List.getElem?_eq_getElem h
  refine ⟨_, hget, ?_⟩
  rw [modify, List.getElem?_modify_eq, hget]
  rfl

end ExitEndpointSelector

/-! ## The loop -/

structure Attempt.Settled (call : Call) (a : Attempt) : Prop where
  closed : ∀ err, a.outcome = .setupFailed err → a.closed = true
  healthy : a.outcome = .connected → ∃ e, a.entry = some e ∧ e.healthy = true ∧ e.retryAfter = none
  unhealthy : ∀ err, a.outcome.err = some err → call.stopsAt err = false →
    ∃ e, a.entry = some e ∧ e.healthy = false ∧ e.retryAfter = some (a.notedAt + fxpFallbackRetry)

/-- Each choice precedes, by what was eligible when it was made, every index that was left. -/
def InOrder (n : Nat) (choices : List Choice) : Prop :=
  ∀ before c after, choices = before ++ c :: after → ∀ j, j < n → j ∉ before.map Choice.index →
    j ≠ c.index → ExitEndpointSelector.Precedes c.eligibleAt c.index j

theorem InOrder.concat {n : Nat} {choices : List Choice} {c : Choice} (h : InOrder n choices)
    (hc : ∀ j, j < n → j ∉ choices.map Choice.index → j ≠ c.index →
      ExitEndpointSelector.Precedes c.eligibleAt c.index j) : InOrder n (choices ++ [c]) := by
  intro before d after heq
  rcases List.eq_nil_or_concat after with rfl | ⟨rest, last, rfl⟩
  · obtain ⟨rfl, hlast⟩ := List.append_inj' heq rfl
    obtain rfl := (List.cons.inj hlast).1
    exact hc
  · rw [List.concat_eq_append, ← List.cons_append, ← List.append_assoc] at heq
    exact h before d rest (List.append_inj' heq rfl).1

/-- The choices made so far, over a table of `n` endpoints. -/
structure Chosen (n : Nat) (strategy : String) (choices : List Choice) : Prop where
  nodup : (choices.map Choice.index).Nodup
  bounded : ∀ i ∈ choices.map Choice.index, i < n
  order : strategy = "fallback" → InOrder n choices

theorem Chosen.concat {n : Nat} {strategy : String} {choices : List Choice} {c : Choice}
    (h : Chosen n strategy choices) (hlt : c.index < n) (hfresh : c.index ∉ choices.map Choice.index)
    (hfirst : strategy = "fallback" → ∀ j, j < n → j ∉ choices.map Choice.index → j ≠ c.index →
      ExitEndpointSelector.Precedes c.eligibleAt c.index j) : Chosen n strategy (choices ++ [c]) where
  nodup := by
    rw [List.map_append, List.nodup_append]
    refine ⟨h.nodup, List.nodup_singleton _, fun i hi j hj hij => ?_⟩
    rw [List.map_singleton, List.mem_singleton] at hj
    exact hfresh (hj ▸ hij ▸ hi)
  bounded := by
    intro i hi
    rw [List.map_append, List.mem_append, List.map_singleton, List.mem_singleton] at hi
    rcases hi with hi | rfl
    · exact h.bounded i hi
    · exact hlt
  order := fun hfallback => (h.order hfallback).concat (hfirst hfallback)

/-- What holds while the loop runs, over a table of `n` endpoints. -/
structure Inv (call : Call) (n : Nat) (strategy : String) (s : State) : Prop where
  size : s.selector.count = n
  kept : s.selector.strategy = strategy
  chosen : Chosen n strategy s.choices
  settled : ∀ a ∈ s.tried, a.Settled call
  closing : ∀ c err closed, s.phase = .settling c (.setupFailed err) closed → closed = true
  /-- An attempt that connected is the last, and its endpoint is returned. -/
  connected : ∀ before a after, s.tried = before ++ a :: after → a.outcome.err = none →
    after = [] ∧ s.phase = .returned (.ok a.choice.index)
  accepted : ∀ i, s.phase = .returned (.ok i) →
    ∃ before a, s.tried = before ++ [a] ∧ a.outcome = .connected ∧ a.choice.index = i
  refused : ∀ err, s.phase = .returned (.error err) →
    (∀ i, i < n → ∃ a ∈ s.tried, a.choice.index = i ∧ a.outcome.err.isSome = true) ∨
      ∃ before a, s.tried = before ++ [a] ∧ a.outcome.err = some err ∧ call.stopsAt err = true

section
variable {call : Call} {n : Nat} {strategy : String} {s s' : State} {outcome : Outcome}

theorem err_eq_none : outcome.err = none ↔ outcome = .connected := by
  cases outcome <;> simp [Outcome.err]

theorem not_connected {err : DialError} (h : outcome.err = some err) : outcome ≠ .connected := by
  rintro rfl
  cases h

theorem Inv.start (selector : ExitEndpointSelector) : Inv call selector.count selector.strategy (start selector) where
  size := rfl
  kept := rfl
  chosen := ⟨List.nodup_nil, fun _ h => absurd h List.not_mem_nil,
    fun _ before c after h => by cases before <;> cases h⟩
  settled := fun _ h => absurd h List.not_mem_nil
  closing := fun _ _ _ h => by cases h
  connected := fun before a after h => by cases before <;> cases h
  accepted := fun _ h => by cases h
  refused := fun _ h => by cases h

theorem Inv.other {selector : ExitEndpointSelector} (h : Inv call n strategy s)
    (hstep : step call s (.other selector) = some s') : Inv call n strategy s' := by
  simp only [step] at hstep
  split at hstep
  · rename_i hsame
    obtain rfl := Option.some.inj hstep
    have hcount : selector.count = s.selector.count := by
      have hlength := congrArg List.length hsame.1
      rwa [List.length_map, List.length_map] at hlength
    exact
      { h with
        size := hcount.trans h.size
        kept := hsame.2.trans h.kept }
  · cases hstep

/-- No endpoint is left to be picked once as many were tried as there are. -/
theorem Inv.exhausted (h : Inv call n strategy s) (hlength : ¬s.attempted.length < n) :
    ∀ i, i < n → i ∈ s.attempted := by
  intro i hi
  by_contra hnot
  have hnodup : (i :: s.attempted).Nodup := List.nodup_cons.mpr ⟨hnot, h.chosen.nodup⟩
  have hsub : i :: s.attempted ⊆ List.range n := by
    intro j hj
    rcases List.mem_cons.mp hj with rfl | hj
    · exact List.mem_range.mpr hi
    · exact List.mem_range.mpr (h.chosen.bounded j hj)
  have hle := (List.subperm_of_subset hnodup hsub).length_le
  rw [List.length_cons, List.length_range] at hle
  omega

theorem eligibleAt_eq (selector : ExitEndpointSelector) (now : Int) (c : Choice)
    (h : c.eligible = selector.entries.map (fun e => e.eligible now)) : c.eligibleAt = selector.eligibleAt now := by
  funext j
  rw [Choice.eligibleAt, ExitEndpointSelector.eligibleAt, h, List.getElem?_map, Option.any_map]
  rfl

theorem Inv.pick_cases {now : Int} {random : Option UInt64} (h : Inv call n strategy s)
    (hstep : step call s (.pick now random) = some s') :
    s.phase = .choosing ∧ ∃ selector : ExitEndpointSelector, selector.count = n ∧ selector.strategy = strategy ∧
      (((∀ i, i < n → i ∈ s.attempted) ∧
          s' = { s with selector := selector, phase := .returned (.error (finalErr s.lastErr)) }) ∨
        ∃ c : Choice, c.index < n ∧ c.index ∉ s.attempted ∧
          s' = { s with selector := selector, phase := .dialing c } ∧
          (strategy = "fallback" → ∀ j, j < n → j ∉ s.attempted → j ≠ c.index →
            ExitEndpointSelector.Precedes c.eligibleAt c.index j)) := by
  simp only [step] at hstep
  split at hstep
  · rename_i hphase
    refine ⟨hphase, ?_⟩
    split at hstep
    · generalize hpick : s.selector.pick s.attempted call.selectionKey now random = picked at hstep
      obtain ⟨selector, index⟩ := picked
      obtain ⟨hentries, hstrategy, hnone, hsome⟩ := ExitEndpointSelector.pick_spec hpick
      have hsize : selector.count = n := by rw [← h.size, ExitEndpointSelector.count, hentries]; rfl
      refine ⟨selector, hsize, hstrategy.trans h.kept, ?_⟩
      cases index with
      | none =>
        obtain rfl := Option.some.inj hstep
        exact Or.inl ⟨fun i hi =>
          ExitEndpointSelector.untried_eq_nil (hnone rfl) (h.size.symm ▸ hi), rfl⟩
      | some i =>
        obtain ⟨hleft, hfirst⟩ := hsome i rfl
        obtain ⟨hlt, hfresh⟩ := ExitEndpointSelector.mem_untried.mp hleft
        have hget : s.selector.entries[i]? = some s.selector.entries[i] := List.getElem?_eq_getElem hlt
        simp only [Option.bind_some, hget, Option.map_some] at hstep
        obtain rfl := Option.some.inj hstep
        refine Or.inr ⟨_, h.size ▸ hlt, hfresh, rfl, fun hfallback j hj hleft hne => ?_⟩
        rw [eligibleAt_eq s.selector now _ rfl]
        exact hfirst (h.kept.trans hfallback) j
          (ExitEndpointSelector.mem_untried.mpr ⟨h.size.symm ▸ hj, hleft⟩) hne
    · rename_i hlength
      obtain rfl := Option.some.inj hstep
      exact ⟨s.selector, h.size, h.kept, Or.inl ⟨h.exhausted (h.size ▸ hlength), rfl⟩⟩
  · cases hstep

theorem Inv.failed (h : Inv call n strategy s) (hphase : ∀ i, s.phase ≠ .returned (.ok i)) :
    ∀ a ∈ s.tried, a.outcome.err.isSome = true := by
  intro a ha
  obtain ⟨before, after, htried⟩ := List.append_of_mem ha
  by_contra hnone
  rw [Bool.not_eq_true, Option.isSome_eq_false_iff, Option.isNone_iff_eq_none] at hnone
  exact hphase _ (h.connected before a after htried hnone).2

theorem Inv.pick {now : Int} {random : Option UInt64} (h : Inv call n strategy s)
    (hstep : step call s (.pick now random) = some s') : Inv call n strategy s' := by
  obtain ⟨hphase, selector, hsize, hkept, hcase⟩ := h.pick_cases hstep
  have hchoices : s.choices = s.tried.map Attempt.choice := by
    simp [State.choices, hphase, Phase.choice]
  have hfailed := h.failed (fun i hi => by rw [hphase] at hi; cases hi)
  rcases hcase with ⟨hall, rfl⟩ | ⟨c, hlt, hfresh, rfl, hfirst⟩
  · have hsame : State.choices ⟨selector, s.tried, s.lastErr, .returned (.error (finalErr s.lastErr))⟩ =
        s.choices := by
      simp [State.choices, hphase, Phase.choice]
    refine
      { size := hsize
        kept := hkept
        chosen := hsame ▸ h.chosen
        settled := h.settled
        closing := fun c err closed hc => by cases hc
        connected := fun before a after htried hnone => ?_
        accepted := fun i hi => by cases hi
        refused := fun err _ => Or.inl fun i hi => ?_ }
    · have hsome := hfailed a (htried ▸ List.mem_append_right _ List.mem_cons_self)
      rw [hnone] at hsome
      cases hsome
    · have hmem := hall i hi
      rw [State.attempted, hchoices, List.map_map, List.mem_map] at hmem
      obtain ⟨a, ha, hindex⟩ := hmem
      exact ⟨a, ha, hindex, hfailed a ha⟩
  · have hnext : State.choices ⟨selector, s.tried, s.lastErr, .dialing c⟩ = s.choices ++ [c] := by
      simp [State.choices, hphase, Phase.choice]
    refine
      { size := hsize
        kept := hkept
        chosen := hnext ▸ h.chosen.concat hlt hfresh hfirst
        settled := h.settled
        closing := fun c err closed hc => by cases hc
        connected := fun before a after htried hnone => ?_
        accepted := fun i hi => by cases hi
        refused := fun err herr => by cases herr }
    have hsome := hfailed a (htried ▸ List.mem_append_right _ List.mem_cons_self)
    rw [hnone] at hsome
    cases hsome

theorem dial_cases (hstep : step call s (.dial outcome) = some s') :
    ∃ c closed, s.phase = .dialing c ∧ s' = { s with phase := .settling c outcome closed } ∧
      ∀ err, outcome = .setupFailed err → closed = true := by
  simp only [step] at hstep
  split at hstep
  · rename_i c hphase
    cases outcome with
    | setupFailed err =>
      dsimp only at hstep
      split at hstep
      · exact ⟨c, true, hphase, (Option.some.inj hstep).symm, fun _ _ => rfl⟩
      · cases hstep
    | connected => exact ⟨c, false, hphase, (Option.some.inj hstep).symm, fun _ h => by cases h⟩
    | dialFailed err => exact ⟨c, false, hphase, (Option.some.inj hstep).symm, fun _ h => by cases h⟩
  · cases hstep

theorem Inv.dial (h : Inv call n strategy s) (hstep : step call s (.dial outcome) = some s') :
    Inv call n strategy s' := by
  obtain ⟨c, closed, hphase, rfl, hclosed⟩ := dial_cases hstep
  have hsame : State.choices { s with phase := .settling c outcome closed } = s.choices := by
    simp [State.choices, hphase, Phase.choice]
  refine
    { size := h.size
      kept := h.kept
      chosen := hsame ▸ h.chosen
      settled := h.settled
      closing := fun d err b hd => ?_
      connected := fun before a after htried hnone => ?_
      accepted := fun i hi => by cases hi
      refused := fun err herr => by cases herr }
  · cases hd
    exact hclosed err rfl
  · have hreturned := (h.connected before a after htried hnone).2
    rw [hphase] at hreturned
    cases hreturned

/-- Noting an attempt, with the entry it leaves: the loop returns the endpoint, stops at the
failure, or goes on. -/
theorem note_cases {now : Int} (hstep : step call s (.note now) = some s') :
    ∃ c outcome closed, s.phase = .settling c outcome closed ∧ s'.tried.length = s.tried.length + 1 ∧
      ((outcome = .connected ∧ s' =
          { s with
            selector := s.selector.markHealthy c.index
            tried := s.tried ++ [⟨c, outcome, closed, now, (s.selector.markHealthy c.index).entries[c.index]?⟩]
            phase := .returned (.ok c.index) }) ∨
        (∃ err, outcome.err = some err ∧ call.stopsAt err = true ∧ s' =
          { s with
            tried := s.tried ++ [⟨c, outcome, closed, now, s.selector.entries[c.index]?⟩]
            lastErr := some err
            phase := .returned (.error err) }) ∨
        ∃ err, outcome.err = some err ∧ call.stopsAt err = false ∧ s' =
          { selector := s.selector.markFailure c.index now
            tried := s.tried ++
              [⟨c, outcome, closed, now, (s.selector.markFailure c.index now).entries[c.index]?⟩]
            lastErr := some err
            phase := .choosing }) := by
  simp only [step] at hstep
  split at hstep
  · rename_i c outcome closed hphase
    refine ⟨c, outcome, closed, hphase, ?_⟩
    split at hstep
    · rename_i hnone
      obtain rfl := Option.some.inj hstep
      exact ⟨List.length_append, Or.inl ⟨err_eq_none.mp hnone, rfl⟩⟩
    · rename_i err herr
      split at hstep
      · rename_i hstop
        obtain rfl := Option.some.inj hstep
        exact ⟨List.length_append, Or.inr (Or.inl ⟨err, herr, hstop, rfl⟩)⟩
      · rename_i hstop
        obtain rfl := Option.some.inj hstep
        exact ⟨List.length_append, Or.inr (Or.inr ⟨err, herr, Bool.not_eq_true _ ▸ hstop, rfl⟩)⟩
  · cases hstep

/-- The state after an attempt was noted keeps what the invariant says of those before it. -/
theorem Inv.noted {a : Attempt} {closed : Bool} (h : Inv call n strategy s)
    (hphase : s.phase = .settling a.choice outcome closed) (hsize : s'.selector.count = n)
    (hkept : s'.selector.strategy = strategy) (htried : s'.tried = s.tried ++ [a]) (hsettled : a.Settled call)
    (hchoice : s'.phase.choice = none) (hconnected : a.outcome.err = none → s'.phase = .returned (.ok a.choice.index))
    (haccepted : ∀ i, s'.phase = .returned (.ok i) → a.outcome = .connected ∧ a.choice.index = i)
    (hrefused : ∀ err, s'.phase = .returned (.error err) →
      a.outcome.err = some err ∧ call.stopsAt err = true) : Inv call n strategy s' := by
  have hfailed := h.failed (fun i hi => by rw [hphase] at hi; cases hi)
  have hsame : s'.choices = s.choices := by
    rw [State.choices, State.choices, hphase, hchoice, htried]
    simp [Phase.choice]
  exact
    { size := hsize
      kept := hkept
      chosen := hsame.symm ▸ h.chosen
      settled := by
        intro b hb
        rw [htried, List.mem_append, List.mem_singleton] at hb
        rcases hb with hb | rfl
        · exact h.settled b hb
        · exact hsettled
      closing := fun c err b hc => by rw [hc] at hchoice; cases hchoice
      connected := by
        intro before b after heq hnone
        rw [htried] at heq
        rcases List.eq_nil_or_concat after with rfl | ⟨rest, last, rfl⟩
        · obtain ⟨-, hlast⟩ := List.append_inj' heq rfl
          obtain rfl := (List.cons.inj hlast).1
          exact ⟨rfl, hconnected hnone⟩
        · rw [List.concat_eq_append, ← List.cons_append, ← List.append_assoc] at heq
          have hmem : b ∈ s.tried := by
            rw [(List.append_inj' heq rfl).1]
            exact List.mem_append_right _ List.mem_cons_self
          have hsome := hfailed b hmem
          rw [hnone] at hsome
          cases hsome
      accepted := fun i hi => ⟨s.tried, a, htried, haccepted i hi⟩
      refused := fun err herr => Or.inr ⟨s.tried, a, htried, hrefused err herr⟩ }

theorem Inv.note {now : Int} (h : Inv call n strategy s) (hstep : step call s (.note now) = some s') :
    Inv call n strategy s' := by
  obtain ⟨c, outcome, closed, hphase, -, hcase⟩ := note_cases hstep
  have hlt : c.index < s.selector.count := by
    rw [h.size]
    refine h.chosen.bounded _ ?_
    simp [State.choices, hphase, Phase.choice]
  have hclosed : ∀ err, outcome = .setupFailed err → closed = true := fun err hfail =>
    h.closing c err closed (hfail ▸ hphase)
  rcases hcase with ⟨hconnected, rfl⟩ | ⟨err, herr, hstop, rfl⟩ | ⟨err, herr, hgo, rfl⟩
  · obtain ⟨e, -, hentry⟩ := s.selector.modify_entry (fun e => { e with healthy := true, retryAfter := none }) hlt
    refine h.noted hphase ((ExitEndpointSelector.modify_count _).trans h.size) h.kept rfl ⟨hclosed, ?_, ?_⟩
      rfl (fun _ => rfl) (fun i hi => ?_) (fun err herr => by cases herr)
    · exact fun _ => ⟨_, hentry, rfl, rfl⟩
    · exact fun err herr => absurd hconnected (not_connected herr)
    · cases hi
      exact ⟨hconnected, rfl⟩
  · refine h.noted hphase h.size h.kept rfl ⟨hclosed, ?_, ?_⟩ rfl ?_ (fun i hi => by cases hi) (fun err' herr' => ?_)
    · exact fun hconnected => absurd hconnected (not_connected herr)
    · intro err' herr' hgo
      obtain rfl := Option.some.inj (herr.symm.trans herr')
      rw [hstop] at hgo
      cases hgo
    · exact fun hnone => absurd (err_eq_none.mp hnone) (not_connected herr)
    · cases herr'
      exact ⟨herr, hstop⟩
  · obtain ⟨e, -, hentry⟩ := s.selector.modify_entry
      (fun e => { e with healthy := false, retryAfter := some (now + fxpFallbackRetry) }) hlt
    refine h.noted hphase ((ExitEndpointSelector.modify_count _).trans h.size) h.kept rfl ⟨hclosed, ?_, ?_⟩
      rfl ?_ (fun i hi => by cases hi) (fun err herr => by cases herr)
    · exact fun hconnected => absurd hconnected (not_connected herr)
    · exact fun _ _ _ => ⟨_, hentry, rfl, rfl⟩
    · exact fun hnone => absurd (err_eq_none.mp hnone) (not_connected herr)

theorem Inv.step {a : Action} (hstep : step call s a = some s') (h : Inv call n strategy s) :
    Inv call n strategy s' := by
  cases a with
  | other selector => exact h.other hstep
  | pick now random => exact h.pick hstep
  | dial outcome => exact h.dial hstep
  | note now => exact h.note hstep

theorem Chosen.length_le {choices : List Choice} (h : Chosen n strategy choices) : choices.length ≤ n := by
  have hsub : choices.map Choice.index ⊆ List.range n := fun i hi => List.mem_range.mpr (h.bounded i hi)
  have hle := (List.subperm_of_subset h.nodup hsub).length_le
  rwa [List.length_map, List.length_range] at hle

/-- How many of its own actions the loop can still take. -/
def remaining (n : Nat) (s : State) : Nat :=
  match s.phase with
  | .choosing => 3 * (n - s.tried.length) + 1
  | .dialing _ => 3 * (n - s.tried.length)
  | .settling _ _ _ => 3 * (n - s.tried.length) - 1
  | .returned _ => 0

theorem Inv.remaining_step {a : Action} (hstep : Failover.step call s a = some s') (h : Inv call n strategy s) :
    (if a.own then 1 else 0) + remaining n s' ≤ remaining n s := by
  have hlength := h.chosen.length_le
  rw [State.choices, List.length_append, List.length_map] at hlength
  cases a with
  | other selector =>
    simp only [Failover.step] at hstep
    split at hstep
    · obtain rfl := Option.some.inj hstep
      simp [Action.own, remaining]
    · cases hstep
  | pick now random =>
    have hnext := (h.pick hstep).chosen.length_le
    obtain ⟨hphase, selector, -, -, ⟨-, rfl⟩ | ⟨c, -, -, rfl, -⟩⟩ := h.pick_cases hstep
    · simp only [Action.own, remaining, hphase, if_true]
      omega
    · simp only [Action.own, remaining, hphase, if_true]
      omega
  | dial outcome =>
    obtain ⟨c, closed, hphase, rfl, -⟩ := dial_cases hstep
    rw [hphase, Phase.choice, Option.toList_some, List.length_singleton] at hlength
    simp only [Action.own, remaining, hphase, if_true]
    omega
  | note now =>
    obtain ⟨c, outcome, closed, hphase, htried, hcase⟩ := note_cases hstep
    rw [hphase, Phase.choice, Option.toList_some, List.length_singleton] at hlength
    have hleft : remaining n s' ≤ 3 * (n - s'.tried.length) + 1 := by
      unfold remaining
      split <;> omega
    rw [htried] at hleft
    have hhere : remaining n s = 3 * (n - s.tried.length) - 1 := by simp only [remaining, hphase]
    rw [hhere]
    simp only [Action.own, if_true]
    omega

/-- Until the loop has returned it goes on, whatever it reads and however dial and setup go. -/
structure Ready (call : Call) (s : State) : Prop where
  pick : s.phase = .choosing → ∀ now random, (step call s (.pick now random)).isSome = true
  dial : ∀ c, s.phase = .dialing c → ∀ outcome, (call.hasSetup = true ∨ ∀ err, outcome ≠ .setupFailed err) →
    (step call s (.dial outcome)).isSome = true
  note : ∀ c outcome closed, s.phase = .settling c outcome closed →
    ∀ now, (step call s (.note now)).isSome = true

theorem ready (call : Call) (s : State) : Ready call s where
  pick := by
    intro hphase now random
    simp only [step, hphase]
    split
    · split <;> rfl
    · rfl
  dial := by
    intro c hphase outcome hsetup
    simp only [step, hphase]
    split
    · rename_i err
      rcases hsetup with hsetup | hnot
      · rw [if_pos hsetup]
        rfl
      · exact absurd rfl (hnot err)
    · rfl
  note := by
    intro c outcome closed hphase now
    simp only [step, hphase]
    split
    · rfl
    · split <;> rfl

/-- The failover loop over any table, with any strategy, any changes that others make to
the table, any clock readings and any outcomes. -/
theorem endpoint_failover (call : Call) (selector : ExitEndpointSelector) {as : List Action} {s : State}
    (hrun : Run (Steps.ofFn (step call)) (start selector) as s) :
    -- Each endpoint is tried once at most, and the loop ends.
    (s.attempted.Nodup ∧ ∀ i ∈ s.attempted, i < selector.count) ∧
    (as.countP Action.own ≤ 3 * selector.count + 1 ∧ Ready call s) ∧
    -- It returns the first endpoint that connects.
    (∀ before a after, s.tried = before ++ a :: after → a.outcome = .connected →
      after = [] ∧ s.phase = .returned (.ok a.choice.index)) ∧
    (∀ i, s.phase = .returned (.ok i) →
      ∃ before a, s.tried = before ++ [a] ∧ a.outcome = .connected ∧ a.choice.index = i) ∧
    -- It returns an error once all have failed, or at once where retrying cannot help.
    (∀ err, s.phase = .returned (.error err) →
      (∀ i, i < selector.count → ∃ a ∈ s.tried, a.choice.index = i ∧ a.outcome ≠ .connected) ∨
        (v3MuxEnabled call.cfg = true ∧ v3EndpointFailureIsRetryable err = false ∧
          ∃ before a, s.tried = before ++ [a] ∧ a.outcome.err = some err)) ∧
    -- A connection whose setup failed is closed.
    (∀ a ∈ s.tried, ∀ err, a.outcome = .setupFailed err → a.closed = true) ∧
    -- Every outcome that does not end the loop early is recorded.
    (∀ a ∈ s.tried, ∀ err, a.outcome.err = some err →
      (v3MuxEnabled call.cfg = false ∨ v3EndpointFailureIsRetryable err = true) →
        ∃ e, a.entry = some e ∧ e.healthy = false ∧ e.retryAfter = some (a.notedAt + fxpFallbackRetry)) ∧
    (∀ a ∈ s.tried, a.outcome = .connected →
      ∃ e, a.entry = some e ∧ e.healthy = true ∧ e.retryAfter = none) ∧
    -- With the strategy fallback the eligible endpoints come first, each kind by its index.
    (selector.strategy = "fallback" → InOrder selector.count s.choices) := by
  have hkeeps : ∀ t a t', Steps.ofFn (step call) t a t' → Inv call selector.count selector.strategy t →
      Inv call selector.count selector.strategy t' := fun t a t' ht => Inv.step ht
  have hinv := hrun.preserves hkeeps (Inv.start selector)
  refine ⟨⟨hinv.chosen.nodup, hinv.chosen.bounded⟩, ⟨?_, ready call s⟩, ?_, hinv.accepted, ?_, ?_, ?_, ?_,
    hinv.chosen.order⟩
  · have hcount : as.countP Action.own + remaining selector.count s ≤ remaining selector.count (start selector) :=
      hrun.countP_le hkeeps (fun t a t' ht => Inv.remaining_step ht) (Inv.start selector)
    have hfirst : remaining selector.count (start selector) = 3 * selector.count + 1 := by
      simp [remaining, start]
    omega
  · exact fun before a after htried hconnected =>
      hinv.connected before a after htried (err_eq_none.mpr hconnected)
  · intro err herr
    rcases hinv.refused err herr with hall | ⟨before, a, htried, hfailed, hstop⟩
    · refine Or.inl fun i hi => ?_
      obtain ⟨a, ha, hindex, hsome⟩ := hall i hi
      obtain ⟨_, hfailed⟩ := Option.isSome_iff_exists.mp hsome
      exact ⟨a, ha, hindex, not_connected hfailed⟩
    · rw [Call.stopsAt, Bool.and_eq_true, Bool.not_eq_true'] at hstop
      exact Or.inr ⟨hstop.1, hstop.2, before, a, htried, hfailed⟩
  · exact fun a ha => (hinv.settled a ha).closed
  · intro a ha err hfailed hgo
    refine (hinv.settled a ha).unhealthy err hfailed ?_
    rw [Call.stopsAt]
    rcases hgo with hgo | hgo <;> rw [hgo]
    · rfl
    · rw [Bool.not_true, Bool.and_false]
  · exact fun a ha => (hinv.settled a ha).healthy

end

/-- Three exits; the first is held unhealthy until 100. -/
def threeExits : ExitEndpointSelector :=
  { entries :=
      [⟨⟨"a.example", 9000, 9000, ""⟩, false, some 100⟩, ⟨⟨"b.example", 9000, 9000, "kb"⟩, true, none⟩,
        ⟨⟨"c.example", 9000, 9000, ""⟩, true, none⟩]
    strategy := "fallback"
    next := 0 }

def helloCall : Call := ⟨(plainEntry 1 "" "tcp" 7000 0).settings, "", true⟩

def refusedError : DialError := ⟨"connection refused", false, false, false⟩

/-- The two eligible exits fail, one of them in its setup, and the first is tried last. -/
def lastResort : List Action :=
  [.pick 10 none, .dial (.dialFailed refusedError), .note 11, .pick 12 none, .dial (.setupFailed refusedError),
    .note 13, .pick 14 none, .dial .connected, .note 15]

theorem held_exit_connects_last :
    ∃ s, exec (step helloCall) (start threeExits) lastResort = some s ∧
      s.attempted = [1, 2, 0] ∧ s.attempted.Nodup ∧ InOrder 3 s.choices := by
  have hsome : (exec (step helloCall) (start threeExits) lastResort).any (fun s => s.attempted = [1, 2, 0]) = true := by
    decide
  obtain ⟨s, hrun, hattempted⟩ := (Option.any_eq_true _ _).mp hsome
  have hall := endpoint_failover helloCall threeExits (exec_run hrun)
  exact ⟨s, hrun, of_decide_eq_true hattempted, hall.1.1, hall.2.2.2.2.2.2.2.2 rfl⟩

end ForwardX.Fxp.Failover
