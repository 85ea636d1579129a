import Mathlib.Data.ENat.Basic
import ForwardX.Lib.Tally
import ForwardX.Panel.KeyedTaskLock

/- The dispatcher of tasks by key (`keyedTaskDispatcher.ts`). The tasks of a key form a chain, and a
   task whose turn it is asks for a slot: it gets a free one or waits, and a task that ends hands its
   slot to the first that waits. Promise callbacks are steps that may come in any order. -/
namespace ForwardX.Panel.KeyedTaskDispatcher
open Transition KeyedChain Assoc
open Ddns (jsTrim)

/-- How a task stands to the slots: it has not asked for one, waits for one, has one and is not
called yet, runs, or has given it back. -/
inductive Slot where
  | none
  | waiting
  | granted
  | running
  | returned
  deriving DecidableEq

structure Task where
  entry : Entry String
  slot : Slot
  deriving DecidableEq

/-- `KeyedTaskDispatcher`, with the tasks enqueued so far and those started, in the order of their
start. The calls of `waitForIdle` are numbered; one that is not among the waiters has resolved. -/
structure Dispatcher where
  concurrency : ℕ∞
  tasks : List Task
  keyTails : List (String × Nat)
  slotWaiters : List Nat
  idleWaiters : List Nat
  activeSlots : Nat
  pendingTasks : Nat
  started : List Nat
  waits : Nat
  deriving DecidableEq

inductive Number where
  | nan
  | finite (value : ℚ)
  | infinite (negative : Bool)

/-- The slots a concurrency stands for: as many as there are tasks for `Infinity`, one for a value
that is not a number. -/
def Number.slots : Number → ℕ∞
  | .nan => 1
  | .finite value => (max 1 ⌊if value = 0 then 1 else value⌋).toNat
  | .infinite negative => if negative then 1 else ⊤

def Dispatcher.new (concurrencyValue : Number) : Dispatcher :=
  ⟨concurrencyValue.slots, [], [], [], [], 0, 0, [], 0⟩

namespace Dispatcher

def entries (d : Dispatcher) : List (Entry String) := d.tasks.map Task.entry

/-- The dispatcher with task `i` replaced. -/
def set (d : Dispatcher) (i : Nat) (t : Task) : Dispatcher := { d with tasks := d.tasks.set i t }

/-- `enqueue`, up to the first callback. -/
def enqueue (d : Dispatcher) (keyValue : String) : Dispatcher :=
  let key := if jsTrim keyValue = "" then "default" else jsTrim keyValue
  { d with
    tasks := d.tasks ++ [⟨⟨some key, d.keyTails.lookup key, .waiting⟩, .none⟩]
    keyTails := put d.keyTails key d.tasks.length
    pendingTasks := d.pendingTasks + 1 }

/-- `acquireSlot` for task `i`, whose turn it is. -/
def acquireSlot (d : Dispatcher) (i : Nat) (t : Task) : Dispatcher :=
  if d.activeSlots < d.concurrency then
    { d.set i ⟨{ t.entry with stage := .running }, .granted⟩ with activeSlots := d.activeSlots + 1 }
  else
    { d.set i ⟨{ t.entry with stage := .running }, .waiting⟩ with slotWaiters := d.slotWaiters ++ [i] }

/-- The wait of task `i` for a slot is over. -/
def grantTo (d : Dispatcher) (i : Nat) : Dispatcher :=
  d.tasks[i]?.elim d (fun t => d.set i { t with slot := .granted })

/-- `releaseSlot`: the slot goes to the first that waits, or becomes free. -/
def releaseSlot (d : Dispatcher) : Dispatcher :=
  match d.slotWaiters with
  | [] => { d with activeSlots := d.activeSlots - 1 }
  | next :: rest => grantTo { d with slotWaiters := rest } next

/-- The last callback of task `i`: its chain goes on, and the idle waiters resolve when nothing is
pending. -/
def settleTail (d : Dispatcher) (i : Nat) (t : Task) : Dispatcher :=
  let pending := d.pendingTasks - 1
  { d.set i { t with entry := { t.entry with stage := .closed } } with
    keyTails := leave d.keyTails t.entry.key i
    pendingTasks := pending
    idleWaiters := if pending = 0 then [] else d.idleWaiters }

def waitForIdle (d : Dispatcher) : Dispatcher :=
  { d with
    waits := d.waits + 1
    idleWaiters := if d.pendingTasks = 0 then d.idleWaiters else d.idleWaiters ++ [d.waits] }

end Dispatcher

/-- What can happen: a call; the turn of a task comes; a task that has its slot is called; a task
settles, with a value or an error; the last callback of a task runs. -/
inductive Action where
  | enqueue (keyValue : String)
  | waitForIdle
  | turn (task : Nat)
  | start (task : Nat)
  | settle (task : Nat) (rejected : Bool)
  | finish (task : Nat)

def Action.internal : Action → Bool
  | .enqueue _ | .waitForIdle => false
  | .turn _ | .start _ | .settle _ _ | .finish _ => true

def step (d : Dispatcher) : Action → Option Dispatcher
  | .enqueue keyValue => some (d.enqueue keyValue)
  | .waitForIdle => some d.waitForIdle
  | .turn i => d.tasks[i]?.bind fun t =>
    if t.entry.stage = .waiting ∧ Ready d.entries t.entry then some (d.acquireSlot i t) else none
  | .start i => d.tasks[i]?.bind fun t =>
    if t.slot = .granted then some { d.set i { t with slot := .running } with started := d.started ++ [i] } else none
  | .settle i _ => d.tasks[i]?.bind fun t =>
    if t.slot = .running then some (d.set i { t with slot := .returned }).releaseSlot else none
  | .finish i => d.tasks[i]?.bind fun t =>
    if t.entry.stage = .running ∧ t.slot = .returned then some (d.settleTail i t) else none

abbrev schedules : Steps Dispatcher Action := Steps.ofFn step

/-! ## The invariant -/

def Task.holds (t : Task) : Bool := t.slot == .granted || t.slot == .running

def Task.begun (t : Task) : Bool := t.slot == .running || t.slot == .returned

def Task.unfinished (t : Task) : Bool := t.entry.stage != .closed

structure Task.Proper (t : Task) : Prop where
  keyed : t.entry.key ≠ none
  waits : t.entry.stage = .waiting ↔ t.slot = .none
  closed : t.entry.stage = .closed → t.slot = .returned

structure Dispatcher.Inv (d : Dispatcher) : Prop where
  chain : InOrder d.entries d.keyTails
  proper : ∀ t ∈ d.tasks, t.Proper
  waiters : d.slotWaiters.Nodup
  waiting : ∀ i, i ∈ d.slotWaiters ↔ ∃ t, d.tasks[i]? = some t ∧ t.slot = .waiting
  active : d.activeSlots = d.tasks.countP Task.holds
  within : d.activeSlots ≤ d.concurrency
  full : d.slotWaiters ≠ [] → d.activeSlots = d.concurrency
  positive : 0 < d.concurrency
  pending : d.pendingTasks = d.tasks.countP Task.unfinished
  idle : d.pendingTasks = 0 → d.idleWaiters = []
  log : ∀ (i : Nat) (t : Task), d.tasks[i]? = some t → d.started.count i = if t.begun then 1 else 0
  logged : ∀ i ∈ d.started, i < d.tasks.length

section
variable {d d' : Dispatcher} {tasks : List Task} {i : Nat} {t t' : Task}

theorem getElem?_entries (h : d.tasks[i]? = some t) : d.entries[i]? = some t.entry := by
  rw [Dispatcher.entries, List.getElem?_map, h, Option.map_some]

theorem waiting_set (h : tasks[i]? = some t) (t' : Task) (j : Nat) :
    (∃ u, (tasks.set i t')[j]? = some u ∧ u.slot = .waiting) ↔
      (j = i ∧ t'.slot = .waiting) ∨ (j ≠ i ∧ ∃ u, tasks[j]? = some u ∧ u.slot = .waiting) := by
  by_cases hji : j = i
  · rw [hji, List.getElem?_set_self (List.getElem?_eq_some_iff.mp h).1]
    simp
  · rw [List.getElem?_set_ne (Ne.symm hji)]
    simp [hji]

theorem log_set {started : List Nat} (hlog : ∀ (j : Nat) (u : Task), tasks[j]? = some u →
      started.count j = if u.begun then 1 else 0) (h : tasks[i]? = some t) (hsame : t'.begun = t.begun)
    (j : Nat) (u : Task) (hu : (tasks.set i t')[j]? = some u) : started.count j = if u.begun then 1 else 0 := by
  by_cases hji : j = i
  · rw [hji, List.getElem?_set_self (List.getElem?_eq_some_iff.mp h).1] at hu
    obtain rfl := Option.some.inj hu
    rw [hsame, hji]
    exact hlog i t h
  · rw [List.getElem?_set_ne (Ne.symm hji)] at hu
    exact hlog j u hu

theorem proper_set (hp : ∀ u ∈ tasks, u.Proper) (ht' : t'.Proper) : ∀ u ∈ tasks.set i t', u.Proper := by
  intro u hu
  rcases List.mem_or_eq_of_mem_set hu with hu | rfl
  · exact hp u hu
  · exact ht'

theorem entries_set (d : Dispatcher) (i : Nat) (t : Task) : (d.set i t).entries = d.entries.set i t.entry := by
  rw [Dispatcher.entries, Dispatcher.set, List.map_set]
  rfl

theorem entries_set_same (h : d.tasks[i]? = some t) (t' : Task) (hsame : t'.entry = t.entry) : (d.set i t').entries = d.entries := by
  obtain ⟨hlt, hget⟩ := List.getElem?_eq_some_iff.mp (getElem?_entries h)
  rw [entries_set, hsame, ← hget, List.set_getElem_self hlt]

theorem releaseSlot_nil (hq : d.slotWaiters = []) : d.releaseSlot = { d with activeSlots := d.activeSlots - 1 } := by
  simp only [Dispatcher.releaseSlot, hq]

theorem releaseSlot_cons {next : Nat} {rest : List Nat} (hq : d.slotWaiters = next :: rest)
    (hn : d.tasks[next]? = some t) :
    d.releaseSlot = { d.set next { t with slot := .granted } with slotWaiters := rest } := by
  simp only [Dispatcher.releaseSlot, hq, Dispatcher.grantTo, hn, Option.elim_some]
  rfl

namespace Dispatcher.Inv

theorem enqueue (hi : d.Inv) (keyValue : String) : (d.enqueue keyValue).Inv := by
  have hjoin := fun key => hi.chain.join key
  simp only [entries, List.length_map] at hjoin
  have hlast : ∀ {j : Nat} {u v : Task}, (d.tasks ++ [v])[j]? = some u →
      d.tasks[j]? = some u ∨ (j = d.tasks.length ∧ u = v) := by
    intro j u v hu
    rcases Nat.lt_or_ge j d.tasks.length with hlt | hge
    · left
      rwa [List.getElem?_append_left hlt] at hu
    · right
      have hlen := (List.getElem?_eq_some_iff.mp hu).1
      rw [List.length_append, List.length_singleton] at hlen
      have hj : j = d.tasks.length := by omega
      rw [hj, List.getElem?_concat_length] at hu
      exact ⟨hj, (Option.some.inj hu).symm⟩
  constructor
  · simp only [Dispatcher.enqueue, entries, List.map_append]
    exact hjoin _
  · intro u hu
    rcases List.mem_append.mp hu with hu | hu
    · exact hi.proper u hu
    · rw [List.mem_singleton.mp hu]
      exact ⟨by simp, by simp, by simp⟩
  · exact hi.waiters
  · intro j
    rw [show (d.enqueue keyValue).slotWaiters = d.slotWaiters from rfl, hi.waiting]
    constructor
    · rintro ⟨u, hu, hw⟩
      exact ⟨u, by rw [Dispatcher.enqueue, List.getElem?_append_left (List.getElem?_eq_some_iff.mp hu).1, hu], hw⟩
    · rintro ⟨u, hu, hw⟩
      rcases hlast hu with hu | ⟨_, rfl⟩
      · exact ⟨u, hu, hw⟩
      · cases hw
  · rw [show (d.enqueue keyValue).activeSlots = d.activeSlots from rfl, hi.active, Dispatcher.enqueue,
      List.countP_append]
    rfl
  · exact hi.within
  · exact hi.full
  · exact hi.positive
  · rw [Dispatcher.enqueue, List.countP_append, ← hi.pending]
    rfl
  · intro hzero
    cases hzero
  · intro j u hu
    rcases hlast hu with hu | ⟨rfl, rfl⟩
    · exact hi.log j u hu
    · apply List.count_eq_zero.mpr
      intro hmem
      exact absurd (hi.logged _ hmem) (Nat.lt_irrefl _)
  · intro j hj
    have := hi.logged j hj
    rw [Dispatcher.enqueue, List.length_append]
    omega

theorem waitForIdle (hi : d.Inv) : d.waitForIdle.Inv := by
  refine ⟨hi.chain, hi.proper, hi.waiters, hi.waiting, hi.active, hi.within, hi.full, hi.positive, hi.pending, ?_,
    hi.log, hi.logged⟩
  intro hzero
  have hzero' : d.pendingTasks = 0 := hzero
  rw [Dispatcher.waitForIdle, if_pos hzero']
  exact hi.idle hzero'

theorem acquireSlot (hi : d.Inv) (h : d.tasks[i]? = some t) (hw : t.entry.stage = .waiting)
    (hr : Ready d.entries t.entry) : (d.acquireSlot i t).Inv := by
  have hlt := (List.getElem?_eq_some_iff.mp h).1
  have hproper := hi.proper t (List.mem_of_getElem? h)
  have hnone : t.slot = .none := hproper.waits.mp hw
  have hchain := hi.chain.proceed (getElem?_entries h) hw hr
  have hun : t.unfinished = true := by simp [Task.unfinished, hw]
  have hnotin : i ∉ d.slotWaiters := by
    intro hmem
    obtain ⟨u, hu, hslot⟩ := (hi.waiting i).mp hmem
    rw [h] at hu
    obtain rfl := Option.some.inj hu
    rw [hnone] at hslot
    cases hslot
  by_cases hfree : d.activeSlots < d.concurrency
  · rw [Dispatcher.acquireSlot, if_pos hfree]
    have hactive := Tally.countP_set Task.holds h ⟨{ t.entry with stage := .running }, .granted⟩
    have hpending := Tally.countP_set Task.unfinished h ⟨{ t.entry with stage := .running }, .granted⟩
    have hwithin : ((d.activeSlots + 1 : Nat) : ℕ∞) ≤ d.concurrency := by
      rw [Nat.cast_add_one]
      exact Order.add_one_le_of_lt hfree
    refine ⟨?_, proper_set hi.proper ⟨hproper.keyed, by simp, by simp⟩, hi.waiters, fun j => ?_, ?_, hwithin, ?_,
      hi.positive, ?_, hi.idle, log_set hi.log h (by rw [Task.begun, Task.begun, hnone]; rfl), ?_⟩
    · show InOrder (d.set i _).entries d.keyTails
      rw [entries_set]
      exact hchain
    · show j ∈ d.slotWaiters ↔ ∃ u, (d.tasks.set i _)[j]? = some u ∧ _
      rw [waiting_set h, ← hi.waiting]
      constructor
      · intro hj
        exact Or.inr ⟨fun hji => hnotin (hji ▸ hj), hj⟩
      · rintro (⟨_, hslot⟩ | ⟨_, hj⟩)
        · cases hslot
        · exact hj
    · simp [Task.holds, hnone] at hactive
      show d.activeSlots + 1 = (d.tasks.set i _).countP Task.holds
      rw [hactive, hi.active]
    · intro hne
      exact absurd (hi.full hne) (ne_of_lt hfree)
    · simp [Task.unfinished, hw] at hpending
      show d.pendingTasks = (d.tasks.set i _).countP Task.unfinished
      rw [hpending, hi.pending]
    · intro j hj
      show j < (d.tasks.set i _).length
      rw [List.length_set]
      exact hi.logged j hj
  · rw [Dispatcher.acquireSlot, if_neg hfree]
    have hactive := Tally.countP_set Task.holds h ⟨{ t.entry with stage := .running }, .waiting⟩
    have hpending := Tally.countP_set Task.unfinished h ⟨{ t.entry with stage := .running }, .waiting⟩
    refine ⟨?_, proper_set hi.proper ⟨hproper.keyed, by simp, by simp⟩, ?_, fun j => ?_, ?_, hi.within, ?_,
      hi.positive, ?_, hi.idle, log_set hi.log h (by rw [Task.begun, Task.begun, hnone]; rfl), ?_⟩
    · show InOrder (d.set i _).entries d.keyTails
      rw [entries_set]
      exact hchain
    · show (d.slotWaiters ++ [i]).Nodup
      rw [← List.concat_eq_append]
      exact List.Nodup.concat hnotin hi.waiters
    · show j ∈ d.slotWaiters ++ [i] ↔ ∃ u, (d.tasks.set i _)[j]? = some u ∧ _
      rw [waiting_set h, ← hi.waiting, List.mem_append, List.mem_singleton]
      by_cases hji : j = i
      · simp [hji]
      · simp [hji]
    · simp [Task.holds, hnone] at hactive
      show d.activeSlots = (d.tasks.set i _).countP Task.holds
      rw [hi.active]
      exact hactive.symm
    · intro _
      exact le_antisymm hi.within (not_lt.mp hfree)
    · simp [Task.unfinished, hw] at hpending
      show d.pendingTasks = (d.tasks.set i _).countP Task.unfinished
      rw [hpending, hi.pending]
    · intro j hj
      show j < (d.tasks.set i _).length
      rw [List.length_set]
      exact hi.logged j hj

theorem start (hi : d.Inv) (h : d.tasks[i]? = some t) (hslot : t.slot = .granted) :
    Inv { d.set i { t with slot := .running } with started := d.started ++ [i] } := by
  have hproper := hi.proper t (List.mem_of_getElem? h)
  have hactive := Tally.countP_set Task.holds h { t with slot := .running }
  have hpending := Tally.countP_set Task.unfinished h { t with slot := .running }
  have hbegun : t.begun = false := by rw [Task.begun, hslot]; rfl
  refine ⟨?_, proper_set hi.proper ⟨hproper.keyed, ?_, ?_⟩, hi.waiters, fun j => ?_, ?_, hi.within, hi.full,
    hi.positive, ?_, hi.idle, fun j u hu => ?_, fun j hj => ?_⟩
  · show InOrder (d.set i _).entries d.keyTails
    rw [entries_set_same h { t with slot := .running } rfl]
    exact hi.chain
  · have := hproper.waits
    rw [hslot] at this
    simpa using this
  · intro hclosed
    have := hproper.closed hclosed
    rw [hslot] at this
    cases this
  · show j ∈ d.slotWaiters ↔ ∃ u, (d.tasks.set i _)[j]? = some u ∧ _
    rw [waiting_set h, hi.waiting]
    by_cases hji : j = i
    · rw [hji]
      simp [h, hslot]
    · simp [hji]
  · simp [Task.holds, hslot] at hactive
    show d.activeSlots = (d.tasks.set i _).countP Task.holds
    rw [hi.active]
    exact hactive.symm
  · show d.pendingTasks = (d.tasks.set i _).countP Task.unfinished
    rw [hi.pending]
    exact (Nat.add_right_cancel hpending).symm
  · show (d.started ++ [i]).count j = _
    rw [List.count_append, List.count_singleton]
    by_cases hji : j = i
    · rw [hji] at hu ⊢
      rw [Dispatcher.set, List.getElem?_set_self (List.getElem?_eq_some_iff.mp h).1] at hu
      obtain rfl := Option.some.inj hu
      rw [hi.log i t h, hbegun]
      simp [Task.begun]
    · rw [Dispatcher.set, List.getElem?_set_ne (Ne.symm hji)] at hu
      rw [hi.log j u hu]
      simp [Ne.symm hji]
  · show j < (d.tasks.set i _).length
    rw [List.length_set]
    rcases List.mem_append.mp hj with hj | hj
    · exact hi.logged j hj
    · rw [List.mem_singleton.mp hj]
      exact (List.getElem?_eq_some_iff.mp h).1

/-- A task that ends gives its slot to the first that waits, or frees it. -/
theorem settle (hi : d.Inv) (h : d.tasks[i]? = some t) (hslot : t.slot = .running) :
    (d.set i { t with slot := .returned }).releaseSlot.Inv := by
  have hproper := hi.proper t (List.mem_of_getElem? h)
  have hproper' : Task.Proper { t with slot := .returned } := by
    refine ⟨hproper.keyed, ?_, fun _ => rfl⟩
    have := hproper.waits
    rw [hslot] at this
    simpa using this
  have hactive := Tally.countP_set Task.holds h { t with slot := .returned }
  have hpending := Tally.countP_set Task.unfinished h { t with slot := .returned }
  have hbegun : Task.begun { t with slot := .returned } = t.begun := by rw [Task.begun, Task.begun, hslot]; rfl
  simp [Task.holds, hslot] at hactive
  have hwaiting : ∀ j, j ∈ d.slotWaiters ↔ ∃ u, (d.tasks.set i { t with slot := .returned })[j]? = some u ∧ u.slot = .waiting := by
    intro j
    rw [waiting_set h, hi.waiting]
    by_cases hji : j = i
    · rw [hji]
      simp [h, hslot]
    · simp [hji]
  have hlogged : ∀ j ∈ d.started, j < (d.tasks.set i { t with slot := .returned }).length := by
    intro j hj
    rw [List.length_set]
    exact hi.logged j hj
  have hentries : (d.set i { t with slot := .returned }).entries = d.entries := entries_set_same h _ rfl
  cases hq : d.slotWaiters with
  | nil =>
    rw [releaseSlot_nil (d := d.set i { t with slot := .returned }) hq]
    refine ⟨hentries ▸ hi.chain, proper_set hi.proper hproper', hi.waiters, hwaiting, ?_, ?_, ?_, hi.positive,
      ?_, hi.idle, log_set hi.log h hbegun, hlogged⟩
    · show d.activeSlots - 1 = (d.tasks.set i _).countP Task.holds
      rw [hi.active]
      exact Nat.sub_eq_of_eq_add hactive.symm
    · have hless : ((d.activeSlots - 1 : Nat) : ℕ∞) ≤ d.activeSlots := Nat.cast_le.mpr (Nat.sub_le _ _)
      exact le_trans hless hi.within
    · intro hne
      exact absurd hq hne
    · show d.pendingTasks = (d.tasks.set i _).countP Task.unfinished
      rw [hi.pending]
      exact (Nat.add_right_cancel hpending).symm
  | cons next rest =>
    have hnext : next ∈ d.slotWaiters := by
      rw [hq]
      exact List.mem_cons_self
    obtain ⟨u, hu, hwait⟩ := (hwaiting next).mp hnext
    have huproper := proper_set hi.proper hproper' u (List.mem_of_getElem? hu)
    have hnd := hi.waiters
    rw [hq, List.nodup_cons] at hnd
    have hactive' := Tally.countP_set Task.holds hu { u with slot := .granted }
    have hpending' := Tally.countP_set Task.unfinished hu { u with slot := .granted }
    simp [Task.holds, hwait] at hactive'
    rw [releaseSlot_cons (d := d.set i { t with slot := .returned }) hq hu]
    refine ⟨?_, proper_set (proper_set hi.proper hproper') ⟨huproper.keyed, ?_, ?_⟩, hnd.2, fun j => ?_, ?_, hi.within,
      ?_, hi.positive, ?_, hi.idle, log_set (log_set hi.log h hbegun) hu ?_, fun j hj => ?_⟩
    · show InOrder (Dispatcher.set (d.set i _) next _).entries d.keyTails
      rw [entries_set_same (d := d.set i { t with slot := .returned }) hu { u with slot := .granted } rfl, hentries]
      exact hi.chain
    · have := huproper.waits
      rw [hwait] at this
      simpa using this
    · intro hclosed
      have := huproper.closed hclosed
      rw [hwait] at this
      cases this
    · show j ∈ rest ↔ ∃ v, ((d.tasks.set i _).set next _)[j]? = some v ∧ _
      rw [waiting_set hu, ← hwaiting, hq]
      by_cases hjn : j = next
      · rw [hjn]
        simp [hnd.1]
      · simp [hjn]
    · show d.activeSlots = ((d.tasks.set i _).set next _).countP Task.holds
      rw [hi.active]
      exact hactive.symm.trans hactive'.symm
    · intro _
      exact hi.full (List.ne_nil_of_mem hnext)
    · show d.pendingTasks = ((d.tasks.set i _).set next _).countP Task.unfinished
      rw [hi.pending]
      exact ((Nat.add_right_cancel hpending').trans (Nat.add_right_cancel hpending)).symm
    · rw [Task.begun, Task.begun, hwait]
      rfl
    · show j < ((d.tasks.set i _).set next _).length
      rw [List.length_set]
      exact hlogged j hj

theorem settleTail (hi : d.Inv) (h : d.tasks[i]? = some t) (hrun : t.entry.stage = .running)
    (hslot : t.slot = .returned) : (d.settleTail i t).Inv := by
  have hproper := hi.proper t (List.mem_of_getElem? h)
  have hactive := Tally.countP_set Task.holds h { t with entry := { t.entry with stage := .closed } }
  have hpending := Tally.countP_set Task.unfinished h { t with entry := { t.entry with stage := .closed } }
  simp [Task.unfinished, hrun] at hpending
  refine ⟨?_, proper_set hi.proper ⟨hproper.keyed, by simp [hslot], fun _ => hslot⟩, hi.waiters, fun j => ?_, ?_,
    hi.within, hi.full, hi.positive, ?_, fun hzero => ?_, log_set hi.log h rfl, fun j hj => ?_⟩
  · show InOrder (d.set i _).entries (leave d.keyTails t.entry.key i)
    rw [entries_set]
    exact hi.chain.close (getElem?_entries h) hrun
  · show j ∈ d.slotWaiters ↔ ∃ u, (d.tasks.set i _)[j]? = some u ∧ _
    rw [waiting_set h, hi.waiting]
    by_cases hji : j = i
    · rw [hji]
      simp [h, hslot]
    · simp [hji]
  · show d.activeSlots = (d.tasks.set i _).countP Task.holds
    rw [hi.active]
    exact (Nat.add_right_cancel hactive).symm
  · show d.pendingTasks - 1 = (d.tasks.set i _).countP Task.unfinished
    rw [hi.pending]
    exact Nat.sub_eq_of_eq_add hpending.symm
  · exact if_pos hzero
  · show j < (d.tasks.set i _).length
    rw [List.length_set]
    exact hi.logged j hj

theorem step {a : Action} (hi : d.Inv) (hs : schedules d a d') : d'.Inv := by
  cases a with
  | enqueue keyValue =>
    obtain rfl := Option.some.inj hs
    exact hi.enqueue keyValue
  | waitForIdle =>
    obtain rfl := Option.some.inj hs
    exact hi.waitForIdle
  | turn i =>
    obtain ⟨t, ht, ⟨hw, hr⟩, rfl⟩ := Transition.bind_ite_eq_some.mp hs
    exact hi.acquireSlot ht hw hr
  | start i =>
    obtain ⟨t, ht, hslot, rfl⟩ := Transition.bind_ite_eq_some.mp hs
    exact hi.start ht hslot
  | settle i rejected =>
    obtain ⟨t, ht, hslot, rfl⟩ := Transition.bind_ite_eq_some.mp hs
    exact hi.settle ht hslot
  | finish i =>
    obtain ⟨t, ht, ⟨hrun, hslot⟩, rfl⟩ := Transition.bind_ite_eq_some.mp hs
    exact hi.settleTail ht hrun hslot

theorem new (concurrencyValue : Number) : (Dispatcher.new concurrencyValue).Inv := by
  have hpos : 0 < (Dispatcher.new concurrencyValue).concurrency := by
    show 0 < concurrencyValue.slots
    cases concurrencyValue with
    | nan => exact one_pos
    | finite value =>
      have hone : 0 < (max 1 ⌊if value = 0 then 1 else value⌋).toNat := by omega
      exact Nat.cast_pos.mpr hone
    | infinite negative => cases negative <;> decide
  exact ⟨InOrder.empty, (fun _ h => by cases h), List.nodup_nil, fun i => by simp [Dispatcher.new], rfl, zero_le,
    fun h => absurd rfl h, hpos, rfl, fun _ => rfl, (fun _ _ h => by cases h), (fun _ h => by cases h)⟩

end Dispatcher.Inv

/-! ## Progress -/

def Slot.toCome : Slot → Int
  | .none => 5
  | .waiting => 4
  | .granted => 3
  | .running => 2
  | .returned => 1

def Task.toCome (t : Task) : Int := if t.entry.stage = .closed then 0 else t.slot.toCome

def Dispatcher.toCome (d : Dispatcher) : Int := (d.tasks.map Task.toCome).sum

theorem Task.toCome_nonneg (t : Task) : 0 ≤ t.toCome := by
  rw [Task.toCome]
  split
  · exact Int.le_refl _
  · cases t.slot <;> decide

theorem Dispatcher.toCome_nonneg (d : Dispatcher) : 0 ≤ d.toCome :=
  Tally.sum_map_nonneg Task.toCome Task.toCome_nonneg d.tasks

theorem Task.Proper.open_of_slot (h : t.Proper) (hslot : t.slot ≠ .returned) : t.entry.stage ≠ .closed :=
  fun hc => hslot (h.closed hc)

theorem Dispatcher.Inv.toCome_lt {a : Action} (hi : d.Inv) (ha : a.internal = true) (hs : schedules d a d') :
    1 + d'.toCome ≤ d.toCome := by
  cases a with
  | enqueue keyValue => cases ha
  | waitForIdle => cases ha
  | turn i =>
    obtain ⟨t, ht, ⟨hw, _⟩, rfl⟩ := Transition.bind_ite_eq_some.mp hs
    have hnone := (hi.proper t (List.mem_of_getElem? ht)).waits.mp hw
    have hbefore : t.toCome = 5 := by simp [Task.toCome, hw, hnone, Slot.toCome]
    have hsum := fun u => Tally.sum_map_set Task.toCome ht u
    rw [Dispatcher.acquireSlot]
    split
    · have := hsum ⟨{ t.entry with stage := .running }, .granted⟩
      rw [hbefore] at this
      show 1 + ((d.tasks.set i _).map Task.toCome).sum ≤ (d.tasks.map Task.toCome).sum
      rw [this]
      simp [Task.toCome, Slot.toCome]
      omega
    · have := hsum ⟨{ t.entry with stage := .running }, .waiting⟩
      rw [hbefore] at this
      show 1 + ((d.tasks.set i _).map Task.toCome).sum ≤ (d.tasks.map Task.toCome).sum
      rw [this]
      simp [Task.toCome, Slot.toCome]
  | start i =>
    obtain ⟨t, ht, hslot, rfl⟩ := Transition.bind_ite_eq_some.mp hs
    have hopen := (hi.proper t (List.mem_of_getElem? ht)).open_of_slot (by simp [hslot])
    show 1 + ((d.tasks.set i _).map Task.toCome).sum ≤ (d.tasks.map Task.toCome).sum
    rw [Tally.sum_map_set Task.toCome ht]
    simp [Task.toCome, hopen, hslot, Slot.toCome]
  | settle i rejected =>
    obtain ⟨t, ht, hslot, rfl⟩ := Transition.bind_ite_eq_some.mp hs
    have hopen := (hi.proper t (List.mem_of_getElem? ht)).open_of_slot (by simp [hslot])
    have hfirst : 1 + ((d.tasks.set i { t with slot := .returned }).map Task.toCome).sum =
        (d.tasks.map Task.toCome).sum := by
      rw [Tally.sum_map_set Task.toCome ht]
      simp [Task.toCome, hopen, hslot, Slot.toCome]
    rw [show d.toCome = (d.tasks.map Task.toCome).sum from rfl, ← hfirst]
    cases hq : d.slotWaiters with
    | nil =>
      rw [releaseSlot_nil (d := d.set i { t with slot := .returned }) hq]
      exact Int.le_refl _
    | cons next rest =>
      have hnext : next ∈ d.slotWaiters := by
        rw [hq]
        exact List.mem_cons_self
      have hwait := (hi.waiting next).mp hnext
      have hni : next ≠ i := by
        rintro rfl
        obtain ⟨u, hu, hw⟩ := hwait
        rw [ht] at hu
        obtain rfl := Option.some.inj hu
        rw [hslot] at hw
        cases hw
      obtain ⟨u, hu, hw⟩ := (waiting_set ht { t with slot := .returned } next).mpr (Or.inr ⟨hni, hwait⟩)
      have huopen := (hi.proper u ?_).open_of_slot (by simp [hw])
      · rw [releaseSlot_cons (d := d.set i { t with slot := .returned }) hq hu]
        show 1 + (((d.tasks.set i _).set next _).map Task.toCome).sum ≤ _
        rw [Tally.sum_map_set Task.toCome hu]
        simp [Task.toCome, huopen, hw, Slot.toCome]
      · rw [List.getElem?_set_ne (Ne.symm hni)] at hu
        exact List.mem_of_getElem? hu
  | finish i =>
    obtain ⟨t, ht, ⟨hrun, hslot⟩, rfl⟩ := Transition.bind_ite_eq_some.mp hs
    show 1 + ((d.tasks.set i _).map Task.toCome).sum ≤ (d.tasks.map Task.toCome).sum
    rw [Tally.sum_map_set Task.toCome ht]
    simp [Task.toCome, hrun, hslot, Slot.toCome]

def Dispatcher.Quiet (d : Dispatcher) : Prop := ∀ a d', a.internal = true → ¬ schedules d a d'

theorem Dispatcher.Inv.closed_of_quiet (hi : d.Inv) (hq : d.Quiet) : ∀ t ∈ d.tasks, t.entry.stage = .closed := by
  have hslots : ∀ (j : Nat) (u : Task), d.tasks[j]? = some u → u.slot ≠ .granted ∧ u.slot ≠ .running := by
    intro j u hu
    constructor
    · intro hslot
      exact hq (.start j) _ rfl (Option.bind_eq_some_iff.mpr ⟨u, hu, if_pos hslot⟩)
    · intro hslot
      exact hq (.settle j false) _ rfl (Option.bind_eq_some_iff.mpr ⟨u, hu, if_pos hslot⟩)
  -- no task holds a slot, so none waits for one
  have hnone : d.slotWaiters = [] := by
    by_contra hne
    have hactive := hi.full hne
    have hpos := hi.positive
    rw [hi.active] at hactive
    obtain ⟨u, hu, hholds⟩ := List.countP_pos_iff.mp (Nat.cast_pos.mp (hactive ▸ hpos))
    obtain ⟨j, hj⟩ := List.mem_iff_getElem?.mp hu
    have := hslots j u hj
    simp [Task.holds, this.1, this.2] at hholds
  have hrunning : ∀ (j : Nat) (u : Task), d.tasks[j]? = some u → u.entry.stage ≠ .running := by
    intro j u hu hrun
    have hproper := hi.proper u (List.mem_of_getElem? hu)
    cases hslot : u.slot with
    | none =>
      have := hproper.waits.mpr hslot
      rw [hrun] at this
      cases this
    | waiting =>
      have := (hi.waiting j).mpr ⟨u, hu, hslot⟩
      rw [hnone] at this
      cases this
    | granted => exact (hslots j u hu).1 hslot
    | running => exact (hslots j u hu).2 hslot
    | returned => exact hq (.finish j) _ rfl (Option.bind_eq_some_iff.mpr ⟨u, hu, if_pos ⟨hrun, hslot⟩⟩)
  intro t ht
  obtain ⟨i, hti⟩ := List.mem_iff_getElem?.mp ht
  cases hstage : t.entry.stage with
  | closed => rfl
  | running => exact absurd hstage (hrunning i t hti)
  | waiting =>
    obtain ⟨k, hk⟩ := Option.ne_none_iff_exists'.mp (hi.proper t ht).keyed
    obtain ⟨j, e, he, _, hgoes⟩ := hi.chain.progress (getElem?_entries hti) hk hstage
    rw [Dispatcher.entries, List.getElem?_map, Option.map_eq_some_iff] at he
    obtain ⟨u, hu, rfl⟩ := he
    rcases hgoes with hrun | hready
    · exact absurd hrun (hrunning j u hu)
    · exact absurd (Option.bind_eq_some_iff.mpr ⟨u, hu, if_pos hready⟩) (hq (.turn j) _ rfl)

/-! ## What holds in every schedule -/

structure Dispatcher.Serves (d : Dispatcher) : Prop where
  /-- Once the turn of a task has come, every task of its key that was enqueued before is over. -/
  inOrder : ∀ (i j : Nat) (t u : Task), i < j → d.tasks[i]? = some t → d.tasks[j]? = some u →
    t.entry.key = u.entry.key → u.entry.stage ≠ .waiting → t.entry.stage = .closed
  within : d.tasks.countP (fun t => t.slot = .running) ≤ d.concurrency
  active : d.activeSlots = d.tasks.countP (fun t => t.slot = .running) + d.tasks.countP (fun t => t.slot = .granted)
  once : ∀ i, d.started.count i ≤ 1
  /-- Without further calls the callbacks come to an end. -/
  ends : ∀ as d', Run (Guarded (fun _ a => a.internal = true) schedules) d as d' → (as.length : Int) ≤ d.toCome
  /-- Then every task has run once, and nothing is left. -/
  idle : d.Quiet → (∀ i, i < d.tasks.length → d.started.count i = 1) ∧ d.activeSlots = 0 ∧ d.pendingTasks = 0 ∧
    d.keyTails = [] ∧ d.idleWaiters = []

theorem countP_holds (tasks : List Task) : tasks.countP Task.holds =
    tasks.countP (fun t => t.slot = .running) + tasks.countP (fun t => t.slot = .granted) := by
  induction tasks with
  | nil => rfl
  | cons t rest ih =>
    rw [List.countP_cons, List.countP_cons, List.countP_cons, ih]
    cases hslot : t.slot <;> simp [Task.holds, hslot] <;> omega

theorem Dispatcher.Inv.serves (hi : d.Inv) : d.Serves := by
  have hactive := hi.active
  rw [countP_holds] at hactive
  refine ⟨fun i j t u hij ht hu hkey hturn => ?_, ?_, hactive, fun i => ?_, fun as d' hrun => ?_, fun hq => ?_⟩
  · obtain ⟨k, hk⟩ := Option.ne_none_iff_exists'.mp (hi.proper u (List.mem_of_getElem? hu)).keyed
    exact hi.chain.started hij (getElem?_entries ht) (getElem?_entries hu) (hkey.trans hk) hk hturn
  · have hless : d.tasks.countP (fun t => t.slot = .running) ≤ d.activeSlots := by omega
    exact le_trans (Nat.cast_le.mpr hless) hi.within
  · by_cases hlt : i < d.tasks.length
    · rw [hi.log i d.tasks[i] (List.getElem?_eq_getElem hlt)]
      split <;> omega
    · rw [List.count_eq_zero.mpr fun hmem => hlt (hi.logged i hmem)]
      omega
  · have hcount := Run.countP_le (I := Dispatcher.Inv) (p := fun _ => true)
      (μ := fun d => d.toCome.toNat) (fun s a s' hs h => h.step hs.2) (fun s a s' hs h => ?_) hrun hi
    · rw [List.countP_true] at hcount
      have := d.toCome_nonneg
      omega
    · have hlt := h.toCome_lt hs.1 hs.2
      have := s.toCome_nonneg
      have := s'.toCome_nonneg
      rw [if_pos rfl]
      omega
  · have hclosed := hi.closed_of_quiet hq
    have hreturned : ∀ t ∈ d.tasks, t.slot = .returned := fun t ht => (hi.proper t ht).closed (hclosed t ht)
    have hpending : d.pendingTasks = 0 := by
      rw [hi.pending, List.countP_eq_zero]
      intro t ht
      simp [Task.unfinished, hclosed t ht]
    refine ⟨fun i hlt => ?_, ?_, hpending, ?_, hi.idle hpending⟩
    · rw [hi.log i d.tasks[i] (List.getElem?_eq_getElem hlt)]
      simp [Task.begun, hreturned _ (List.getElem_mem hlt)]
    · rw [hi.active, List.countP_eq_zero]
      intro t ht
      simp [Task.holds, hreturned t ht]
    · -- a tail would be one of a task that is not over
      cases htails : d.keyTails with
      | nil => rfl
      | cons e rest =>
        have hmem : e.1 ∈ keys d.keyTails := by
          rw [htails]
          exact List.mem_cons_self
        obtain ⟨i, f, hf, _, hopen⟩ := (hi.chain.tail_iff e.1).mp (mem_keys.mp hmem)
        rw [Dispatcher.entries, List.getElem?_map, Option.map_eq_some_iff] at hf
        obtain ⟨t, ht, rfl⟩ := hf
        exact absurd (hclosed t (List.mem_of_getElem? ht)) hopen

end

theorem serves_run {concurrencyValue : Number} {as : List Action} {d : Dispatcher}
    (h : Run schedules (Dispatcher.new concurrencyValue) as d) : d.Serves :=
  (h.preserves (P := Dispatcher.Inv) (fun _ _ _ hs hi => hi.step hs) (Dispatcher.Inv.new concurrencyValue)).serves

/-- The locks by key serialise in every schedule in which nested calls are awaited, and the
dispatcher serves in every schedule. -/
theorem keyed_tasks_serialise :
    (∀ as s, Run (Guarded KeyedTaskLock.Awaits KeyedTaskLock.schedules) KeyedTaskLock.State.initial as s →
      s.Serialised) ∧
    ∀ concurrencyValue as d, Run schedules (Dispatcher.new concurrencyValue) as d → d.Serves :=
  ⟨fun _ _ h => KeyedTaskLock.serialised_run h, fun _ _ _ h => serves_run h⟩

/-- Two calls for the lock of a user and one from within the first of them, and two tasks over one
slot. -/
theorem keyed_tasks_nested :
    (∃ s : KeyedTaskLock.State, s.calls.map KeyedTaskLock.Call.holder = [none, none, some 0] ∧ s.Serialised) ∧
      ∃ d : Dispatcher, d.tasks.length = 2 ∧ d.Serves := by
  -- the nested call throws, the task it is made from settles after it, and the other call goes on
  have hlocks : (exec (fun s a => if decide (KeyedTaskLock.Awaits s a) then KeyedTaskLock.step s a else none)
      KeyedTaskLock.State.initial [.user (some 7) none, .user (some 7) none, .user (some 7) (some 0),
        .settle 2 true, .settle 0 false, .release 0, .proceed 1]).any
      (fun s => decide (s.calls.map KeyedTaskLock.Call.holder = [none, none, some 0])) = true := by decide +kernel
  obtain ⟨s, hexec, hholders⟩ := (Option.any_eq_true _ _).mp hlocks
  have hrun := exec_guarded (G := KeyedTaskLock.Awaits) (g := fun s a => decide (KeyedTaskLock.Awaits s a))
    (fun _ _ => of_decide_eq_true) hexec
  have htasks : exec step (Dispatcher.new (.finite 1)) [.enqueue "chat:1", .enqueue "chat:2", .turn 1, .turn 0,
      .start 1, .settle 1 true] = some ⟨1, [⟨⟨some "chat:1", none, .running⟩, .granted⟩,
        ⟨⟨some "chat:2", none, .running⟩, .returned⟩], [("chat:1", 0), ("chat:2", 1)], [], [], 1, 2, [1], 0⟩ := by
    decide +kernel
  exact ⟨⟨s, of_decide_eq_true hholders, keyed_tasks_serialise.1 _ _ hrun⟩, _, rfl,
    keyed_tasks_serialise.2 (.finite 1) _ _ (exec_run htasks)⟩

/-- Two tasks under a blank key run at once; and a user lock taken from a task that holds the key of
the user by its name waits for that task. -/
theorem blank_keys_overlap :
    (∃ s, Run (Guarded KeyedTaskLock.Awaits KeyedTaskLock.schedules) KeyedTaskLock.State.initial
        [.keyed "" none, .keyed "  " none] s ∧
      s.calls.map (fun c => (c.key, c.holder, c.entry.stage)) = [("", none, .running), ("", none, .running)]) ∧
    ∃ s, Run (Guarded KeyedTaskLock.Awaits KeyedTaskLock.schedules) KeyedTaskLock.State.initial
        [.keyed (KeyedTaskLock.trafficBillingUserLockKey (some 7)) none, .user (some 7) (some 0)] s ∧
      s.calls.map (fun c => (c.entry.stage, c.entry.before)) = [(.running, none), (.waiting, some 0)] := by
  have hblank : exec (fun s a => if decide (KeyedTaskLock.Awaits s a) then KeyedTaskLock.step s a else none)
      KeyedTaskLock.State.initial [.keyed "" none, .keyed "  " none] =
      some ⟨[⟨⟨none, none, .running⟩, "", none, 0, [], false⟩, ⟨⟨none, none, .running⟩, "", none, 0, [], false⟩], []⟩ := by
    decide
  have hkey : KeyedTaskLock.trafficBillingUserLockKey (some 7) = "traffic-billing-user:7" := by decide +kernel
  have hnested : exec (fun s a => if decide (KeyedTaskLock.Awaits s a) then KeyedTaskLock.step s a else none)
      KeyedTaskLock.State.initial
      [.keyed (KeyedTaskLock.trafficBillingUserLockKey (some 7)) none, .user (some 7) (some 0)] =
      some ⟨[⟨⟨some "traffic-billing-user:7", none, .running⟩, "traffic-billing-user:7", none, 1, [], false⟩,
        ⟨⟨some "traffic-billing-user:7", some 0, .waiting⟩, "traffic-billing-user:7", none, 2,
          [("traffic-billing-user:7", 1)], false⟩], [("traffic-billing-user:7", 1)]⟩ := by
    decide +kernel
  have hcareful := fun (s : KeyedTaskLock.State) (a : KeyedTaskLock.Action) =>
    @of_decide_eq_true (KeyedTaskLock.Awaits s a) _
  exact ⟨⟨_, exec_guarded hcareful hblank, rfl⟩, _, exec_guarded hcareful hnested, rfl⟩

end ForwardX.Panel.KeyedTaskDispatcher
