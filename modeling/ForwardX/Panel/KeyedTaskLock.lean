import Mathlib.Data.Rat.Floor
import ForwardX.Lib.KeyedChain
import ForwardX.Lib.DecimalText
import ForwardX.Lib.Transition
import ForwardX.Panel.DdnsValues

/- Locks by key (`keyedTaskLock.ts`). A call takes its place behind the last call of its key, and its
   task starts when that one has released. The lock of a user may be taken again from within: the
   ambient context of a task names the locks it runs under, and a call for one of these that is still
   held starts at once. Promise callbacks are steps that may come in any order. -/
namespace ForwardX.Panel.KeyedTaskLock
open Transition KeyedChain Assoc
open Ddns (jsTrim jsTrim_noSpace)

/-- `trafficBillingUserLockKey`; a user id that is not a finite number is `none`. -/
def trafficBillingUserLockKey (userId : Option ℚ) : String :=
  "traffic-billing-user:" ++ toString ((userId.filter (fun id => 0 < id)).elim 0 Int.floor)

/-- A call: its place in the chain of its key, the call whose lock it runs under when it takes none,
the locks of the context its task runs in, each with the call that took it, and whether its task
has settled. -/
structure Call where
  entry : Entry String
  key : String
  holder : Option Nat
  depth : Nat
  context : List (String × Nat)
  settled : Bool
  deriving DecidableEq

/-- The calls so far, and `pendingTasks`: the last call of each key. -/
structure State where
  calls : List Call
  pendingTasks : List (String × Nat)
  deriving DecidableEq

def State.initial : State := ⟨[], []⟩

def State.entries (s : State) : List (Entry String) := s.calls.map Call.entry

/-- The task of the call runs and has not settled: the token of its lock is active. -/
def Call.active (c : Call) : Bool := c.entry.stage == .running && !c.settled

def Call.toStage (c : Call) (stage : KeyedChain.Stage) : Call := { c with entry := { c.entry with stage := stage } }

/-- The context a call is made in: that of a task that has started, or none. -/
def State.contextOf (s : State) : Option Nat → Option (List (String × Nat))
  | none => some []
  | some i => s.calls[i]?.bind fun c => if c.entry.stage = .waiting then none else some c.context

def State.run (s : State) (key : String) (holder : Option Nat) (context : List (String × Nat)) : State :=
  { s with calls := s.calls ++ [⟨⟨none, none, .running⟩, key, holder, 0, context, false⟩] }

def State.keyedTaskDepth (s : State) (key : String) : Nat :=
  (((s.pendingTasks.lookup key).bind (fun i => s.calls[i]?)).map Call.depth).getD 0

/-- A call takes its place behind the last one of its key; it waits where there is one. -/
def State.enter (s : State) (key : String) (context : List (String × Nat)) : State :=
  let previous := s.pendingTasks.lookup key
  let stage := if previous.isNone then KeyedChain.Stage.running else .waiting
  { calls := s.calls ++ [⟨⟨some key, previous, stage⟩, key, none, s.keyedTaskDepth key + 1, context, false⟩]
    pendingTasks := put s.pendingTasks key s.calls.length }

/-- `withKeyedTaskLock`, up to its first wait; its task will run in the context. -/
def State.withKeyedTaskLock (s : State) (keyValue : String) (context : List (String × Nat)) : State :=
  let key := jsTrim keyValue
  if key = "" then s.run key none context else s.enter key context

/-- The call that holds the lock of the key in a context, with an active token. -/
def State.inheritedLock (s : State) (inherited : List (String × Nat)) (key : String) : Option Nat :=
  (inherited.lookup key).filter fun i => s.calls[i]?.any Call.active

/-- `withTrafficBillingUserLock`, up to its first wait. -/
def State.withTrafficBillingUserLock (s : State) (userId : Option ℚ) (inherited : List (String × Nat)) : State :=
  let key := trafficBillingUserLockKey userId
  match s.inheritedLock inherited key with
  | some holder => s.run key (some holder) inherited
  | none => s.withKeyedTaskLock key (put inherited key s.calls.length)

/-- What can happen: a call, from the context of a task or from none; the wait of a call is over
and its task starts; a task settles, with a value or an error; the `finally` of a call runs. -/
inductive Action where
  | keyed (keyValue : String) (origin : Option Nat)
  | user (userId : Option ℚ) (origin : Option Nat)
  | proceed (call : Nat)
  | settle (call : Nat) (threw : Bool)
  | release (call : Nat)

/-- The state with call `i` replaced. -/
def State.set (s : State) (i : Nat) (c : Call) : State := { s with calls := s.calls.set i c }

def step (s : State) : Action → Option State
  | .keyed keyValue origin => (s.contextOf origin).map fun context => s.withKeyedTaskLock keyValue context
  | .user userId origin => (s.contextOf origin).map fun inherited => s.withTrafficBillingUserLock userId inherited
  | .proceed i => s.calls[i]?.bind fun c =>
    if c.entry.stage = .waiting ∧ Ready s.entries c.entry then
      some (s.set i (c.toStage .running))
    else none
  | .settle i _ => s.calls[i]?.bind fun c =>
    if c.active then
      -- a task under no lock of its own leaves nothing to release
      if c.entry.key = none then some (s.set i { c.toStage .closed with settled := true })
      else some (s.set i { c with settled := true })
    else none
  | .release i => s.calls[i]?.bind fun c =>
    if c.entry.stage = .running ∧ c.settled = true then
      some { calls := s.calls.set i (c.toStage .closed)
             pendingTasks := leave s.pendingTasks c.entry.key i }
    else none

abbrev schedules : Steps State Action := Steps.ofFn step

/-- A task settles after the calls that run under its lock: nested calls are awaited. -/
def Awaits (s : State) : Action → Prop
  | .settle i _ => ∀ c ∈ s.calls, c.holder = some i → c.entry.stage = .closed
  | _ => True

instance (s : State) : (a : Action) → Decidable (Awaits s a)
  | .settle i _ => inferInstanceAs (Decidable (∀ c ∈ s.calls, c.holder = some i → c.entry.stage = .closed))
  | .keyed _ _ | .user _ _ | .proceed _ | .release _ => inferInstanceAs (Decidable True)

/-! ## Keys -/

theorem jsTrim_numbered {text : String} (h : text.toList.all (fun c => !jsIsSpace c) = true) (n : Int) :
    jsTrim (text ++ toString n) = text ++ toString n := by
  apply jsTrim_noSpace
  intro c hc
  rw [String.toList_append, List.mem_append] at hc
  rcases hc with hc | hc
  · simpa using List.all_eq_true.mp h c hc
  · rcases DecimalText.mem_toString hc with hd | rfl
    · exact (Ddns.digit_clean hd).2.2.2
    · decide

theorem numbered_ne_empty {text : String} (h : text ≠ "") (n : Int) : text ++ toString n ≠ "" := by
  intro hempty
  have hlist := congrArg String.toList hempty
  rw [String.toList_append] at hlist
  exact h (String.toList_injective (List.append_eq_nil_iff.mp hlist).1)

theorem key_clean (n : Int) : jsTrim ("traffic-billing-user:" ++ toString n) = "traffic-billing-user:" ++ toString n :=
  jsTrim_numbered (by decide +kernel) n

theorem key_ne_empty (n : Int) : "traffic-billing-user:" ++ toString n ≠ "" :=
  numbered_ne_empty (by decide) n

/-! ## The invariant -/

section
variable {s s' : State} {a : Action}

def State.Names (s : State) (context : List (String × Nat)) : Prop :=
  ∀ k t, context.lookup k = some t → ∃ h, s.calls[t]? = some h ∧ h.entry.key = some k

structure State.Inv (s : State) : Prop where
  chain : InOrder s.entries s.pendingTasks
  keyed : ∀ c ∈ s.calls, ∀ k, c.entry.key = some k → c.key = k ∧ k ≠ "" ∧ c.holder = none
  free : ∀ c ∈ s.calls, c.entry.key = none → c.entry.stage ≠ .waiting ∧ (c.holder = none → c.key = "")
  riders : ∀ c ∈ s.calls, ∀ t, c.holder = some t → c.entry.stage ≠ .closed →
    ∃ h, s.calls[t]? = some h ∧ h.active = true ∧ h.entry.key = some c.key
  contexts : ∀ c ∈ s.calls, s.Names c.context

theorem getElem?_entries {i : Nat} {c : Call} (h : s.calls[i]? = some c) : s.entries[i]? = some c.entry := by
  rw [State.entries, List.getElem?_map, h, Option.map_some]

variable {context : List (String × Nat)}

theorem State.Inv.contextOf (hi : s.Inv) {origin : Option Nat} (h : s.contextOf origin = some context) :
    s.Names context := by
  cases origin with
  | none =>
    obtain rfl := Option.some.inj h
    intro k t hk
    cases hk
  | some i =>
    obtain ⟨c, hc, h⟩ := Option.bind_eq_some_iff.mp h
    simp only [Option.ite_none_left_eq_some, Option.some.injEq] at h
    rw [← h.2]
    exact hi.contexts c (List.mem_of_getElem? hc)

theorem State.Names.append (h : s.Names context) (c : Call) (pending : List (String × Nat)) :
    State.Names ⟨s.calls ++ [c], pending⟩ context := by
  intro k t hk
  obtain ⟨x, hx, hkey⟩ := h k t hk
  exact ⟨x, by rw [List.getElem?_append_left (List.getElem?_eq_some_iff.mp hx).1, hx], hkey⟩

theorem State.entries_append (calls : List Call) (c : Call) (pending : List (String × Nat)) :
    State.entries ⟨calls ++ [c], pending⟩ = calls.map Call.entry ++ [c.entry] := List.map_append

/-- A call that takes no lock: one without a key, or one under a lock that is held. -/
theorem State.Inv.run (hi : s.Inv) {key : String} {holder : Option Nat} (hc : s.Names context)
    (hkey : holder = none → key = "")
    (hheld : ∀ t, holder = some t → ∃ h, s.calls[t]? = some h ∧ h.active = true ∧ h.entry.key = some key) :
    (s.run key holder context).Inv := by
  have hkeep : ∀ {t : Nat} {h c : Call}, s.calls[t]? = some h → (s.calls ++ [c])[t]? = some h := by
    intro t h c ht
    rw [List.getElem?_append_left (List.getElem?_eq_some_iff.mp ht).1, ht]
  refine ⟨?_, fun c hmem k hk => ?_, fun c hmem hk => ?_, fun c hmem t ht hopen => ?_, fun c hmem => ?_⟩
  · show InOrder (State.entries ⟨_, _⟩) _
    rw [State.entries_append]
    exact hi.chain.pass none .running
  · rcases List.mem_append.mp hmem with hmem | hmem
    · exact hi.keyed c hmem k hk
    · rw [List.mem_singleton.mp hmem] at hk
      cases hk
  · rcases List.mem_append.mp hmem with hmem | hmem
    · exact hi.free c hmem hk
    · rw [List.mem_singleton.mp hmem]
      exact ⟨by simp, hkey⟩
  · rcases List.mem_append.mp hmem with hmem | hmem
    · obtain ⟨h, hh, hrest⟩ := hi.riders c hmem t ht hopen
      exact ⟨h, hkeep hh, hrest⟩
    · rw [List.mem_singleton.mp hmem] at ht ⊢
      obtain ⟨h, hh, hrest⟩ := hheld t ht
      exact ⟨h, hkeep hh, hrest⟩
  · rcases List.mem_append.mp hmem with hmem | hmem
    · exact (hi.contexts c hmem).append _ _
    · rw [List.mem_singleton.mp hmem]
      exact hc.append _ _

theorem State.Inv.enter (hi : s.Inv) {key : String} (hkey : key ≠ "") (hc : (s.enter key context).Names context) :
    (s.enter key context).Inv := by
  have hkeep : ∀ {t : Nat} {h c : Call}, s.calls[t]? = some h → (s.calls ++ [c])[t]? = some h := by
    intro t h c ht
    rw [List.getElem?_append_left (List.getElem?_eq_some_iff.mp ht).1, ht]
  refine ⟨?_, fun c hmem k hk => ?_, fun c hmem hk => ?_, fun c hmem t ht hopen => ?_, fun c hmem => ?_⟩
  · have hjoin := hi.chain.join key
    rw [State.entries, List.length_map] at hjoin
    show InOrder (State.entries ⟨_, _⟩) _
    rw [State.entries_append]
    by_cases hnone : (s.pendingTasks.lookup key).isNone = true
    · rw [if_pos hnone]
      -- nothing is before it: it is admitted at once
      have hlast : (s.calls.map Call.entry ++ [(⟨some key, s.pendingTasks.lookup key, .waiting⟩ : Entry String)])[
          s.calls.length]? = some ⟨some key, s.pendingTasks.lookup key, .waiting⟩ := by
        rw [List.getElem?_append_right (by simp), List.length_map, Nat.sub_self]
        rfl
      have hready : Ready (s.calls.map Call.entry ++ [(⟨some key, s.pendingTasks.lookup key, .waiting⟩ : Entry String)])
          ⟨some key, s.pendingTasks.lookup key, .waiting⟩ := by
        intro p hp
        rw [Option.isNone_iff_eq_none.mp hnone] at hp
        cases hp
      have hadmit := hjoin.proceed hlast rfl hready
      rwa [List.set_append_right _ _ (by simp), List.length_map, Nat.sub_self, List.set_cons_zero] at hadmit
    · rw [if_neg hnone]
      exact hjoin
  · rcases List.mem_append.mp hmem with hmem | hmem
    · exact hi.keyed c hmem k hk
    · rw [List.mem_singleton.mp hmem] at hk ⊢
      obtain rfl := Option.some.inj hk
      exact ⟨rfl, hkey, rfl⟩
  · rcases List.mem_append.mp hmem with hmem | hmem
    · exact hi.free c hmem hk
    · rw [List.mem_singleton.mp hmem] at hk
      cases hk
  · rcases List.mem_append.mp hmem with hmem | hmem
    · obtain ⟨h, hh, hrest⟩ := hi.riders c hmem t ht hopen
      exact ⟨h, hkeep hh, hrest⟩
    · rw [List.mem_singleton.mp hmem] at ht
      cases ht
  · rcases List.mem_append.mp hmem with hmem | hmem
    · exact (hi.contexts c hmem).append _ _
    · rw [List.mem_singleton.mp hmem]
      exact hc

/-- A call that goes on: the chain keeps its order, and a lock that is given up has no open call
under it. -/
theorem State.Inv.replace (hi : s.Inv) {i : Nat} {c : Call} (hc : s.calls[i]? = some c) (c' : Call)
    (hkey : c'.key = c.key ∧ c'.entry.key = c.entry.key) (hholder : c'.holder = c.holder)
    (hcontext : c'.context = c.context) (hopen : c'.entry.stage ≠ .closed → c.entry.stage ≠ .closed)
    (hstarted : c'.entry.stage ≠ .waiting)
    (hride : c.active = true → c'.active = true ∨ ∀ d ∈ s.calls, d.holder = some i → d.entry.stage = .closed)
    {pending : List (String × Nat)} (hchain : InOrder (s.entries.set i c'.entry) pending) :
    State.Inv ⟨s.calls.set i c', pending⟩ := by
  have hmemc := List.mem_of_getElem? hc
  have hlt := (List.getElem?_eq_some_iff.mp hc).1
  have hkeep : ∀ {t : Nat} {h : Call}, s.calls[t]? = some h →
      ∃ h', (s.calls.set i c')[t]? = some h' ∧ h'.entry.key = h.entry.key ∧ (t ≠ i → h' = h) ∧ (t = i → h' = c') := by
    intro t h ht
    by_cases hti : t = i
    · rw [hti, hc] at ht
      obtain rfl := Option.some.inj ht
      exact ⟨c', by rw [hti, List.getElem?_set_self hlt], hkey.2, fun hne => absurd hti hne, fun _ => rfl⟩
    · exact ⟨h, by rw [List.getElem?_set_ne (Ne.symm hti), ht], rfl, fun _ => rfl, fun heq => absurd heq hti⟩
  have hnames : ∀ {context : List (String × Nat)}, s.Names context → State.Names ⟨s.calls.set i c', pending⟩ context := by
    intro context hn k t hk
    obtain ⟨h, hh, hhk⟩ := hn k t hk
    obtain ⟨h', hh', hhk', _⟩ := hkeep hh
    exact ⟨h', hh', hhk'.trans hhk⟩
  have hriders : ∀ d ∈ s.calls, ∀ t, d.holder = some t → d.entry.stage ≠ .closed →
      ∃ h, (s.calls.set i c')[t]? = some h ∧ h.active = true ∧ h.entry.key = some d.key := by
    intro d hd t ht hdo
    obtain ⟨h, hh, hact, hhk⟩ := hi.riders d hd t ht hdo
    obtain ⟨h', hh', hhk', hother, hself⟩ := hkeep hh
    refine ⟨h', hh', ?_, hhk'.trans hhk⟩
    by_cases hti : t = i
    · rw [hti, hc] at hh
      obtain rfl := Option.some.inj hh
      rw [hself hti]
      rcases hride hact with hact' | hall
      · exact hact'
      · exact absurd (hall d hd (hti ▸ ht)) hdo
    · rw [hother hti]
      exact hact
  refine ⟨?_, fun d hd k hk => ?_, fun d hd hk => ?_, fun d hd t ht hdo => ?_, fun d hd => ?_⟩
  · rw [State.entries, List.map_set]
    exact hchain
  · rcases List.mem_or_eq_of_mem_set hd with hd | rfl
    · exact hi.keyed d hd k hk
    · rw [hkey.1, hholder]
      exact hi.keyed c hmemc k (hkey.2 ▸ hk)
  · rcases List.mem_or_eq_of_mem_set hd with hd | rfl
    · exact hi.free d hd hk
    · rw [hkey.1, hholder]
      exact ⟨hstarted, (hi.free c hmemc (hkey.2 ▸ hk)).2⟩
  · rcases List.mem_or_eq_of_mem_set hd with hd | rfl
    · exact hriders d hd t ht hdo
    · rw [hkey.1]
      exact hriders c hmemc t (hholder ▸ ht) (hopen hdo)
  · rcases List.mem_or_eq_of_mem_set hd with hd | rfl
    · exact hnames (hi.contexts d hd)
    · rw [hcontext]
      exact hnames (hi.contexts c hmemc)

/-- A call of a key that is held in the context starts under the lock; another takes its place. -/
theorem State.Inv.withKeyedTaskLock (hi : s.Inv) {keyValue : String}
    (hc : jsTrim keyValue ≠ "" → (s.enter (jsTrim keyValue) context).Names context)
    (hblank : jsTrim keyValue = "" → s.Names context) : (s.withKeyedTaskLock keyValue context).Inv := by
  by_cases hkey : jsTrim keyValue = ""
  · simp only [State.withKeyedTaskLock, if_pos hkey]
    exact hi.run (hblank hkey) (fun _ => hkey) (fun t ht => by cases ht)
  · simp only [State.withKeyedTaskLock, if_neg hkey]
    exact hi.enter hkey (hc hkey)

theorem State.inheritedLock_spec {inherited : List (String × Nat)} {key : String} {t : Nat} :
    s.inheritedLock inherited key = some t ↔
      inherited.lookup key = some t ∧ ∃ h, s.calls[t]? = some h ∧ h.active = true := by
  rw [State.inheritedLock, Option.filter_eq_some_iff, Option.any_eq_true]

theorem State.Inv.withTrafficBillingUserLock (hi : s.Inv) {userId : Option ℚ} {inherited : List (String × Nat)}
    (hc : s.Names inherited) : (s.withTrafficBillingUserLock userId inherited).Inv := by
  have hclean : jsTrim (trafficBillingUserLockKey userId) = trafficBillingUserLockKey userId := key_clean _
  have hne : trafficBillingUserLockKey userId ≠ "" := key_ne_empty _
  cases hheld : s.inheritedLock inherited (trafficBillingUserLockKey userId) with
  | some t =>
    simp only [State.withTrafficBillingUserLock, hheld]
    obtain ⟨hlook, h, hh, hact⟩ := State.inheritedLock_spec.mp hheld
    refine hi.run hc (fun hn => by cases hn) (fun t' ht => ?_)
    obtain rfl := Option.some.inj ht
    obtain ⟨h', hh', hk⟩ := hc _ _ hlook
    rw [hh] at hh'
    obtain rfl := Option.some.inj hh'
    exact ⟨h, hh, hact, hk⟩
  | none =>
    simp only [State.withTrafficBillingUserLock, hheld]
    refine hi.withKeyedTaskLock (fun _ => ?_) (fun hblank => absurd (hclean ▸ hblank) hne)
    intro k t hk
    by_cases hkk : k = trafficBillingUserLockKey userId
    · rw [hkk, lookup_put_self] at hk
      obtain rfl := Option.some.inj hk
      exact ⟨_, List.getElem?_concat_length, by rw [hclean, hkk]⟩
    · rw [lookup_put_ne _ hkk] at hk
      exact hc.append _ _ k t hk

theorem State.Inv.step (hi : s.Inv) (hawait : Awaits s a) (h : schedules s a s') : s'.Inv := by
  cases a with
  | keyed keyValue origin =>
    obtain ⟨context, hcontext, rfl⟩ := Option.map_eq_some_iff.mp h
    have hnames := hi.contextOf hcontext
    exact hi.withKeyedTaskLock (fun _ => hnames.append _ _) (fun _ => hnames)
  | user userId origin =>
    obtain ⟨inherited, hinherited, rfl⟩ := Option.map_eq_some_iff.mp h
    exact hi.withTrafficBillingUserLock (hi.contextOf hinherited)
  | proceed i =>
    obtain ⟨c, hc, ⟨hw, hready⟩, rfl⟩ := Transition.bind_ite_eq_some.mp h
    refine hi.replace hc (c.toStage .running) ⟨rfl, rfl⟩ rfl rfl (by simp [hw]) (by simp [Call.toStage])
      (fun hact => ?_) (hi.chain.proceed (getElem?_entries hc) hw hready)
    simp [Call.active, hw] at hact
  | settle i threw =>
    obtain ⟨c, hc, h⟩ := Option.bind_eq_some_iff.mp h
    rw [Option.ite_none_right_eq_some] at h
    obtain ⟨hact, h⟩ := h
    have hrun : c.entry.stage = .running := by
      simp only [Call.active, Bool.and_eq_true, beq_iff_eq] at hact
      exact hact.1
    by_cases hk : c.entry.key = none
    · rw [if_pos hk] at h
      obtain rfl := Option.some.inj h
      have hchain := hi.chain.close (getElem?_entries hc) hrun
      rw [show leave s.pendingTasks c.entry.key i = s.pendingTasks by rw [hk]; rfl] at hchain
      exact hi.replace hc { c.toStage .closed with settled := true } ⟨rfl, rfl⟩ rfl rfl (by simp [Call.toStage])
        (by simp [Call.toStage]) (fun _ => Or.inr hawait) hchain
    · rw [if_neg hk] at h
      obtain rfl := Option.some.inj h
      refine hi.replace hc { c with settled := true } ⟨rfl, rfl⟩ rfl rfl id (by simp [hrun])
        (fun _ => Or.inr hawait) ?_
      show InOrder (s.entries.set i c.entry) s.pendingTasks
      obtain ⟨hlt, hget⟩ := List.getElem?_eq_some_iff.mp (getElem?_entries hc)
      rw [← hget, List.set_getElem_self hlt]
      exact hi.chain
  | release i =>
    obtain ⟨c, hc, ⟨hrun, hsettled⟩, rfl⟩ := Transition.bind_ite_eq_some.mp h
    refine hi.replace hc (c.toStage .closed) ⟨rfl, rfl⟩ rfl rfl (by simp [Call.toStage]) (by simp [Call.toStage])
      (fun hact => ?_) (hi.chain.close (getElem?_entries hc) hrun)
    simp [Call.active, hsettled] at hact

/-! ## What holds in every schedule -/

/-- The call takes the lock of its key: it has one and does not run under that of another call. -/
def Call.TopLevel (c : Call) : Prop := c.holder = none ∧ c.key ≠ ""

structure State.Serialised (s : State) : Prop where
  /-- Two tasks of a key that take its lock do not run at once. -/
  exclusive : ∀ (i j : Nat) (c d : Call), s.calls[i]? = some c → s.calls[j]? = some d → c.TopLevel → d.TopLevel →
    c.key = d.key → c.entry.stage = .running → d.entry.stage = .running → i = j
  /-- A task of a key starts once every task of an earlier call of the key has released. -/
  inOrder : ∀ (i j : Nat) (c d : Call), i < j → s.calls[i]? = some c → s.calls[j]? = some d → c.TopLevel →
    d.TopLevel → c.key = d.key → d.entry.stage ≠ .waiting → c.entry.stage = .closed
  /-- A call under a lock never waits, and the lock is held as long as it is not over. -/
  nested : ∀ c ∈ s.calls, ∀ t, c.holder = some t → c.entry.stage ≠ .waiting ∧
    (c.entry.stage ≠ .closed → ∃ h : Call, s.calls[t]? = some h ∧ h.active = true ∧ h.key = c.key)
  /-- A user call runs under the lock that its context names exactly while that is held. -/
  inherits : ∀ userId origin s', schedules s (.user userId origin) s' → ∃ (inherited : List (String × Nat)) (c : Call),
    s.contextOf origin = some inherited ∧ s'.calls = s.calls ++ [c] ∧ c.key = trafficBillingUserLockKey userId ∧
    ∀ t, c.holder = some t ↔ inherited.lookup (trafficBillingUserLockKey userId) = some t ∧
      ∃ h, s.calls[t]? = some h ∧ h.active = true
  /-- A key is pending exactly while a task of it runs or waits. -/
  pending : ∀ k, k ≠ "" → ((∃ i, s.pendingTasks.lookup k = some i) ↔
    ∃ c ∈ s.calls, c.key = k ∧ c.entry.stage ≠ .closed)
  /-- Where a call waits, a task of its key runs or may start. -/
  moves : ∀ c ∈ s.calls, c.entry.stage = .waiting → ∃ (j : Nat) (d : Call), s.calls[j]? = some d ∧ d.key = c.key ∧
    (d.entry.stage = .running ∨ ∃ s', schedules s (.proceed j) s')

theorem State.Inv.key_of_topLevel (hi : s.Inv) {c : Call} (hc : c ∈ s.calls) (ht : c.TopLevel) :
    c.entry.key = some c.key := by
  cases hk : c.entry.key with
  | none => exact absurd ((hi.free c hc hk).2 ht.1) ht.2
  | some k => rw [(hi.keyed c hc k hk).1]

theorem exists_call {i : Nat} {e : Entry String} (h : s.entries[i]? = some e) : ∃ c, s.calls[i]? = some c ∧ c.entry = e := by
  rw [State.entries, List.getElem?_map, Option.map_eq_some_iff] at h
  exact h

theorem user_call {userId : Option ℚ} {origin : Option Nat}
    (h : schedules s (.user userId origin) s') : ∃ inherited c, s.contextOf origin = some inherited ∧
      s'.calls = s.calls ++ [c] ∧ c.key = trafficBillingUserLockKey userId ∧
      ∀ t, c.holder = some t ↔ inherited.lookup (trafficBillingUserLockKey userId) = some t ∧
        ∃ h, s.calls[t]? = some h ∧ h.active = true := by
  obtain ⟨inherited, hinherited, rfl⟩ := Option.map_eq_some_iff.mp h
  have hclean : jsTrim (trafficBillingUserLockKey userId) = trafficBillingUserLockKey userId := key_clean _
  have hne : trafficBillingUserLockKey userId ≠ "" := key_ne_empty _
  refine ⟨inherited, ?_⟩
  cases hheld : s.inheritedLock inherited (trafficBillingUserLockKey userId) with
  | some t =>
    simp only [State.withTrafficBillingUserLock, hheld]
    refine ⟨_, hinherited, rfl, rfl, fun t' => ?_⟩
    rw [← State.inheritedLock_spec, hheld]
  | none =>
    simp only [State.withTrafficBillingUserLock, hheld, State.withKeyedTaskLock, hclean, if_neg hne]
    refine ⟨_, hinherited, rfl, rfl, fun t' => ?_⟩
    rw [← State.inheritedLock_spec, hheld]

theorem State.Inv.serialised (hi : s.Inv) : s.Serialised := by
  constructor
  · intro i j c d hc hd htc htd hkey hrc hrd
    have hck := hi.key_of_topLevel (List.mem_of_getElem? hc) htc
    have hdk := hi.key_of_topLevel (List.mem_of_getElem? hd) htd
    exact hi.chain.exclusive (getElem?_entries hc) (getElem?_entries hd) hck (hkey ▸ hdk) hrc hrd
  · intro i j c d hij hc hd htc htd hkey hstarted
    have hck := hi.key_of_topLevel (List.mem_of_getElem? hc) htc
    have hdk := hi.key_of_topLevel (List.mem_of_getElem? hd) htd
    exact hi.chain.started hij (getElem?_entries hc) (getElem?_entries hd) hck (hkey ▸ hdk) hstarted
  · intro c hc t ht
    have hfree : c.entry.key = none := by
      cases hk : c.entry.key with
      | none => rfl
      | some k =>
        have := (hi.keyed c hc k hk).2.2
        rw [ht] at this
        cases this
    refine ⟨(hi.free c hc hfree).1, fun hopen => ?_⟩
    obtain ⟨h, hh, hact, hk⟩ := hi.riders c hc t ht hopen
    exact ⟨h, hh, hact, (hi.keyed h (List.mem_of_getElem? hh) _ hk).1⟩
  · intro userId origin s' h
    exact user_call h
  · intro k hk
    rw [hi.chain.tail_iff k]
    constructor
    · rintro ⟨i, e, he, hek, hopen⟩
      obtain ⟨c, hc, rfl⟩ := exists_call he
      have hmem := List.mem_of_getElem? hc
      exact ⟨c, hmem, (hi.keyed c hmem k hek).1, hopen⟩
    · rintro ⟨c, hc, rfl, hopen⟩
      cases hholder : c.holder with
      | none =>
        obtain ⟨i, hi'⟩ := List.mem_iff_getElem?.mp hc
        exact ⟨i, c.entry, getElem?_entries hi', hi.key_of_topLevel hc ⟨hholder, hk⟩, hopen⟩
      | some t =>
        -- the call it runs under is still open
        obtain ⟨h, hh, hact, hhk⟩ := hi.riders c hc t hholder hopen
        simp only [Call.active, Bool.and_eq_true, beq_iff_eq] at hact
        exact ⟨t, h.entry, getElem?_entries hh, hhk, by simp [hact.1]⟩
  · intro c hc hw
    obtain ⟨i, hci⟩ := List.mem_iff_getElem?.mp hc
    cases hk : c.entry.key with
    | none => exact absurd hw (hi.free c hc hk).1
    | some k =>
      obtain ⟨j, e, he, hek, hgoes⟩ := hi.chain.progress (getElem?_entries hci) hk hw
      obtain ⟨d, hd, rfl⟩ := exists_call he
      refine ⟨j, d, hd, ?_, ?_⟩
      · rw [(hi.keyed d (List.mem_of_getElem? hd) k hek).1, (hi.keyed c hc k hk).1]
      · rcases hgoes with hrun | ⟨hdw, hready⟩
        · exact Or.inl hrun
        · exact Or.inr ⟨_, Option.bind_eq_some_iff.mpr ⟨d, hd, if_pos ⟨hdw, hready⟩⟩⟩

theorem initial_inv : State.initial.Inv :=
  ⟨InOrder.empty, (fun _ h => by cases h), (fun _ h => by cases h), (fun _ h => by cases h), (fun _ h => by cases h)⟩

theorem serialised_run {as : List Action} (h : Run (Guarded Awaits schedules) State.initial as s) : s.Serialised :=
  (h.preserves (P := State.Inv) (fun _ _ _ hs hi => hi.step hs.1 hs.2) initial_inv).serialised

end

end ForwardX.Panel.KeyedTaskLock
