import Mathlib.Data.List.Perm.Lattice
import ForwardX.Lib.Assoc
import ForwardX.Lib.Transition

/- The gate before the heartbeat reconciliation (`agentHeartbeatGate.ts`). A host that gets
   through holds a lease, a closure its caller may call late, again or never. The state beside the
   gate lists the leases granted so far; a lease is outstanding until it is released or its host is
   cleared. -/
namespace ForwardX.Panel.HeartbeatGate
open Transition Assoc

structure Config where
  coalesceMs : Int := 5000
  maxConcurrent : Int := 8
  waitingTimeoutMs : Int := 30000

/-- `AgentHeartbeatGate`: the sets and maps are lists without duplicates. -/
structure AgentHeartbeatGate where
  active : List Int
  completedAt : List (Int × Int)
  waiting : List Int
  waitingSince : List (Int × Int)
  deriving DecidableEq

def AgentHeartbeatGate.empty : AgentHeartbeatGate := ⟨[], [], [], []⟩

def Config.capacity (cfg : Config) : Int := max 1 cfg.maxConcurrent

/-- A host that queued at `queuedAt` has waited too long. -/
def Config.expired (cfg : Config) (currentTime queuedAt : Int) : Bool := cfg.waitingTimeoutMs < currentTime - queuedAt

/-- The loop of `pruneWaiting`. -/
def pruneLoop (cfg : Config) (currentTime : Int) : List Int → List (Int × Int) → List Int × List (Int × Int)
  | [], since => ([], since)
  | hostId :: rest, since =>
    if (since.lookup hostId).any (fun queuedAt => !cfg.expired currentTime queuedAt) then (hostId :: rest, since)
    else pruneLoop cfg currentTime rest (erase since hostId)

namespace AgentHeartbeatGate

def pruneWaiting (gate : AgentHeartbeatGate) (cfg : Config) (currentTime : Int) : AgentHeartbeatGate :=
  let (waiting, waitingSince) := pruneLoop cfg currentTime gate.waiting gate.waitingSince
  { gate with waiting := waiting, waitingSince := waitingSince }

def enqueue (gate : AgentHeartbeatGate) (hostId currentTime : Int) : AgentHeartbeatGate :=
  if (keys gate.waitingSince).contains hostId then
    { gate with waitingSince := put gate.waitingSince hostId currentTime }
  else { gate with waiting := gate.waiting ++ [hostId], waitingSince := put gate.waitingSince hostId currentTime }

def removeWaiting (gate : AgentHeartbeatGate) (hostId : Int) : AgentHeartbeatGate :=
  if (keys gate.waitingSince).contains hostId then
    { gate with waiting := gate.waiting.erase hostId, waitingSince := erase gate.waitingSince hostId }
  else gate

/-- The host completed less than `coalesceMs` ago; `|| 0` where it never did. -/
def recentlyCompleted (gate : AgentHeartbeatGate) (cfg : Config) (hostId currentTime : Int) : Bool :=
  currentTime - (gate.completedAt.lookup hostId).getD 0 < cfg.coalesceMs

def grant (gate : AgentHeartbeatGate) (hostId : Int) : AgentHeartbeatGate :=
  { gate with active := gate.active ++ [hostId] }

/-- `tryAcquire` on a gate that is pruned, with whether a lease was granted. -/
def takeSlot (gate : AgentHeartbeatGate) (cfg : Config) (hostId : Int) (force : Bool) (currentTime : Int) :
    AgentHeartbeatGate × Bool :=
  if gate.active.contains hostId || (!force && gate.recentlyCompleted cfg hostId currentTime) then (gate, false)
  else if cfg.capacity ≤ gate.active.length then (gate.enqueue hostId currentTime, false)
  else match gate.waiting with
    | [] => (gate.grant hostId, true)
    | first :: rest =>
      if !(keys gate.waitingSince).contains hostId then (gate.enqueue hostId currentTime, false)
      else if first != hostId then
        ({ gate with waitingSince := put gate.waitingSince hostId currentTime }, false)
      else (grant { gate with waiting := rest, waitingSince := erase gate.waitingSince hostId } hostId, true)

def tryAcquire (gate : AgentHeartbeatGate) (cfg : Config) (hostId : Int) (force : Bool) (currentTime : Int) :
    AgentHeartbeatGate × Bool :=
  if hostId ≤ 0 then (gate, false) else (gate.pruneWaiting cfg currentTime).takeSlot cfg hostId force currentTime

def release (gate : AgentHeartbeatGate) (hostId currentTime : Int) : AgentHeartbeatGate :=
  { gate with active := gate.active.erase hostId, completedAt := put gate.completedAt hostId currentTime }

/-- `clear` of a host. -/
def clear (gate : AgentHeartbeatGate) (hostId : Int) : AgentHeartbeatGate :=
  removeWaiting { gate with active := gate.active.erase hostId, completedAt := erase gate.completedAt hostId } hostId

end AgentHeartbeatGate

/-- A lease: the host it was granted to, the flag of the closure, and whether its host was
cleared since. -/
structure Lease where
  hostId : Int
  released : Bool
  cleared : Bool
  deriving DecidableEq

def Lease.outstanding (l : Lease) : Bool := !l.released && !l.cleared

/-- The gate, the leases it has granted and the time of the last call. -/
structure State where
  gate : AgentHeartbeatGate
  leases : List Lease
  clock : Int
  deriving DecidableEq

def State.initial (clock : Int) : State := ⟨.empty, [], clock⟩

/-- The calls of a gate. A host id that is not an integer is `none`; a lease is named by its
place among the leases granted. -/
inductive Action where
  | tryAcquire (hostIdValue : Option Int) (force : Bool) (now : Int)
  | release (lease : Nat) (now : Int)
  | clear (hostIdValue : Option Int)
  | clearAll
  deriving DecidableEq

def clearLeases (leases : List Lease) (hostId : Int) : List Lease :=
  leases.map (fun l => if l.hostId = hostId then { l with cleared := true } else l)

def clearAllLeases (leases : List Lease) : List Lease := leases.map (fun l => { l with cleared := true })

/-- One call. Time does not go back, and only a lease that was granted can be called. -/
def step (cfg : Config) (s : State) : Action → Option State
  | .tryAcquire none _ now => if s.clock ≤ now then some { s with clock := now } else none
  | .tryAcquire (some hostId) force now =>
    if s.clock ≤ now then
      let (gate, granted) := s.gate.tryAcquire cfg hostId force now
      some ⟨gate, if granted then s.leases ++ [⟨hostId, false, false⟩] else s.leases, now⟩
    else none
  | .release lease now =>
    if s.clock ≤ now then
      s.leases[lease]?.map fun l =>
        if l.released then { s with clock := now }
        else ⟨s.gate.release l.hostId now, s.leases.set lease { l with released := true }, now⟩
    else none
  | .clear none => some s
  | .clear (some hostId) => some { s with gate := s.gate.clear hostId, leases := clearLeases s.leases hostId }
  | .clearAll => some { s with gate := .empty, leases := clearAllLeases s.leases }

abbrev calls (cfg : Config) : Steps State Action := Steps.ofFn (step cfg)

def State.outstanding (s : State) : List Lease := s.leases.filter Lease.outstanding

def State.holders (s : State) : List Int := s.outstanding.map Lease.hostId

/-- A call of a lease is careful unless it is the first one, comes after a clear of the host, and
another lease of the host is outstanding. -/
def Careful (s : State) : Action → Prop
  | .release lease _ => ∀ l ∈ s.leases[lease]?, l.released = false → l.cleared = true → l.hostId ∉ s.holders
  | _ => True

instance (s : State) : (a : Action) → Decidable (Careful s a)
  | .release lease _ => inferInstanceAs (Decidable
      (∀ l ∈ s.leases[lease]?, l.released = false → l.cleared = true → l.hostId ∉ s.holders))
  | .tryAcquire _ _ _ | .clear _ | .clearAll => inferInstanceAs (Decidable True)

/-! ## What holds in every state -/

def State.Exclusive (s : State) : Prop := s.holders.Nodup

def State.Bounded (cfg : Config) (s : State) : Prop := (s.outstanding.length : Int) ≤ cfg.capacity

/-- The hosts that wait are those with a time, each once, and none of them is active. -/
structure AgentHeartbeatGate.Queue (gate : AgentHeartbeatGate) : Prop where
  waiting : gate.waiting.Nodup
  since : (keys gate.waitingSince).Nodup
  same : ∀ h, h ∈ gate.waiting ↔ h ∈ keys gate.waitingSince
  apart : ∀ h ∈ gate.waiting, h ∉ gate.active

/-- The host has waited too long. -/
def AgentHeartbeatGate.TimedOut (gate : AgentHeartbeatGate) (cfg : Config) (currentTime h : Int) : Prop :=
  ∃ queuedAt, gate.waitingSince.lookup h = some queuedAt ∧ cfg.expired currentTime queuedAt = true

/-- No host waits in front of `h`, those apart that have waited too long. -/
def AgentHeartbeatGate.Foremost (gate : AgentHeartbeatGate) (cfg : Config) (currentTime h : Int) : Prop :=
  ∃ front back, gate.waiting = front ++ back ∧ (∀ g ∈ front, gate.TimedOut cfg currentTime g) ∧
    (back = [] ∨ back.head? = some h)

/-- The call may take the place of `g` in the queue: `g` has waited too long, is granted a lease
or is cleared. -/
def Removes (cfg : Config) (s s' : State) (g : Int) : Action → Prop
  | .tryAcquire hostIdValue _ now =>
    s.gate.TimedOut cfg now g ∨ (hostIdValue = some g ∧ s'.leases = s.leases ++ [⟨g, false, false⟩])
  | .release _ _ => False
  | .clear hostIdValue => hostIdValue = some g
  | .clearAll => True

/-- What a call does in turn: a grant goes to the foremost host while there is capacity, and the
hosts that keep their places keep their order, before those that join. -/
structure InTurn (cfg : Config) (s : State) (a : Action) (s' : State) : Prop where
  grant : ∀ h force now, a = .tryAcquire (some h) force now → s'.leases ≠ s.leases →
    s.gate.Foremost cfg now h ∧ (s.gate.active.length : Int) < cfg.capacity
  places : ∃ kept joined, s'.gate.waiting = kept ++ joined ∧ kept.Sublist s.gate.waiting ∧
    ∀ g ∈ s.gate.waiting, g ∉ kept → Removes cfg s s' g a

/-! ## The queue -/

section
variable {cfg : Config} {now : Int}

/-- The loop drops hosts from the front that have waited too long, with their times. -/
theorem pruneLoop_spec (cfg : Config) (now : Int) {waiting : List Int} {since : List (Int × Int)}
    (hnd : waiting.Nodup) (hkeys : ∀ h ∈ waiting, h ∈ keys since) :
    ∃ front, waiting = front ++ (pruneLoop cfg now waiting since).1 ∧
      (∀ g ∈ front, ∃ queuedAt, since.lookup g = some queuedAt ∧ cfg.expired now queuedAt = true) ∧
      (pruneLoop cfg now waiting since).2 = since.filter (fun e => !front.contains e.1) := by
  induction waiting generalizing since with
  | nil => exact ⟨[], rfl, by simp, by simp [pruneLoop]⟩
  | cons hostId rest ih =>
    rw [List.nodup_cons] at hnd
    obtain ⟨queuedAt, hqueued⟩ := mem_keys.mp (hkeys hostId List.mem_cons_self)
    rw [pruneLoop, hqueued, Option.any_some]
    by_cases hexp : cfg.expired now queuedAt = true
    · rw [hexp, Bool.not_true, if_neg Bool.false_ne_true]
      have hne : ∀ g ∈ rest, g ≠ hostId := fun g hg hgh => hnd.1 (hgh ▸ hg)
      have hrest : ∀ h ∈ rest, h ∈ keys (erase since hostId) := by
        intro h hh
        obtain ⟨x, hx⟩ := mem_keys.mp (hkeys h (List.mem_cons_of_mem _ hh))
        exact mem_keys.mpr ⟨x, by rw [lookup_erase_ne since (hne h hh), hx]⟩
      obtain ⟨front, hfront, hout, hsince⟩ := ih hnd.2 hrest
      refine ⟨hostId :: front, by rw [List.cons_append, ← hfront], ?_, ?_⟩
      · intro g hg
        rcases List.mem_cons.mp hg with rfl | hg
        · exact ⟨queuedAt, hqueued, hexp⟩
        · obtain ⟨x, hx, hlate⟩ := hout g hg
          have hgr : g ∈ rest := by
            rw [hfront]
            exact List.mem_append_left _ hg
          exact ⟨x, by rw [← lookup_erase_ne since (hne g hgr), hx], hlate⟩
      · rw [hsince, erase, List.filter_filter]
        apply List.filter_congr
        intro e _
        rw [List.contains_cons, Bool.not_or, Bool.and_comm]
        rfl
    · rw [if_pos (by simpa using hexp)]
      exact ⟨[], rfl, by simp, by simp⟩

theorem pruneLoop_nil {waiting : List Int} {since : List (Int × Int)}
    (hall : ∀ h x, since.lookup h = some x → cfg.expired now x = true) :
    (pruneLoop cfg now waiting since).1 = [] := by
  induction waiting generalizing since with
  | nil => rfl
  | cons hostId rest ih =>
    have hdrop : (since.lookup hostId).any (fun queuedAt => !cfg.expired now queuedAt) = false := by
      cases hx : since.lookup hostId with
      | none => rfl
      | some x => simp [hall hostId x hx]
    rw [pruneLoop, hdrop, if_neg Bool.false_ne_true]
    apply ih
    intro h x hx
    by_cases hh : h = hostId
    · rw [hh, lookup_erase_self] at hx
      cases hx
    · exact hall h x (by rw [← lookup_erase_ne since hh, hx])

namespace AgentHeartbeatGate

variable {gate : AgentHeartbeatGate}

@[simp] theorem pruneWaiting_active : (gate.pruneWaiting cfg now).active = gate.active := rfl

theorem Queue.drop (hq : gate.Queue) {front back : List Int} (hsplit : gate.waiting = front ++ back) :
    Queue { gate with waiting := back, waitingSince := gate.waitingSince.filter (fun e => !front.contains e.1) } := by
  have hnd := hq.waiting
  rw [hsplit] at hnd
  have hdisj := (List.nodup_append.mp hnd).2.2
  constructor
  · exact (List.nodup_append.mp hnd).2.1
  · exact hq.since.sublist (List.filter_sublist.map _)
  · intro h
    have hsame := hq.same h
    rw [hsplit, List.mem_append] at hsame
    constructor
    · intro hh
      obtain ⟨e, he, rfl⟩ := List.mem_map.mp (hsame.mp (Or.inr hh))
      refine List.mem_map.mpr ⟨e, List.mem_filter.mpr ⟨he, ?_⟩, rfl⟩
      have hout : e.1 ∉ front := fun hf => hdisj _ hf _ hh rfl
      simpa using hout
    · intro hh
      obtain ⟨e, he, rfl⟩ := List.mem_map.mp hh
      obtain ⟨he, hout⟩ := List.mem_filter.mp he
      rcases hsame.mpr (List.mem_map_of_mem he) with hf | hb
      · simp [hf] at hout
      · exact hb
  · intro h hh
    apply hq.apart
    rw [hsplit]
    exact List.mem_append_right _ hh

theorem Queue.prune (hq : gate.Queue) (cfg : Config) (now : Int) :
    (gate.pruneWaiting cfg now).Queue ∧ ∃ front, gate.waiting = front ++ (gate.pruneWaiting cfg now).waiting ∧
      ∀ g ∈ front, gate.TimedOut cfg now g := by
  obtain ⟨front, hsplit, hout, hsince⟩ := pruneLoop_spec cfg now hq.waiting (fun h hh => (hq.same h).mp hh)
  have hkept := hq.drop hsplit
  rw [← hsince] at hkept
  exact ⟨hkept, front, hsplit, hout⟩

/-- The gate once the host at the head of the queue, or any where the queue is empty, gets in. -/
def pass (gate : AgentHeartbeatGate) (hostId : Int) : AgentHeartbeatGate :=
  grant { gate with waiting := gate.waiting.tail, waitingSince := erase gate.waitingSince hostId } hostId

/-- The four ways `tryAcquire` can go: nothing, a later time for a host that waits, a new place in
the queue, or a lease. -/
theorem takeSlot_cases (hq : gate.Queue) (cfg : Config) (hostId : Int) (force : Bool) (now : Int) :
    gate.takeSlot cfg hostId force now = (gate, false) ∨
    (hostId ∈ gate.waiting ∧ gate.takeSlot cfg hostId force now =
      ({ gate with waitingSince := put gate.waitingSince hostId now }, false)) ∨
    (hostId ∉ gate.waiting ∧ hostId ∉ gate.active ∧ gate.takeSlot cfg hostId force now =
      ({ gate with waiting := gate.waiting ++ [hostId], waitingSince := put gate.waitingSince hostId now }, false)) ∨
    (hostId ∉ gate.active ∧ (gate.active.length : Int) < cfg.capacity ∧
      (gate.waiting = [] ∨ gate.waiting.head? = some hostId) ∧
      gate.takeSlot cfg hostId force now = (gate.pass hostId, true)) := by
  by_cases hbusy : (gate.active.contains hostId || (!force && gate.recentlyCompleted cfg hostId now)) = true
  · left
    rw [takeSlot, if_pos hbusy]
  · have hfree : hostId ∉ gate.active := by
      intro hmem
      simp [hmem] at hbusy
    have hwaits : (keys gate.waitingSince).contains hostId = true ↔ hostId ∈ gate.waiting := by
      rw [List.contains_iff_mem]
      exact (hq.same hostId).symm
    by_cases hfull : cfg.capacity ≤ gate.active.length
    · rw [takeSlot, if_neg hbusy, if_pos hfull, enqueue]
      by_cases hin : hostId ∈ gate.waiting
      · rw [if_pos (hwaits.mpr hin)]
        exact Or.inr (Or.inl ⟨hin, rfl⟩)
      · rw [if_neg (mt hwaits.mp hin)]
        exact Or.inr (Or.inr (Or.inl ⟨hin, hfree, rfl⟩))
    · rw [takeSlot, if_neg hbusy, if_neg hfull]
      cases hw : gate.waiting with
      | nil =>
        have hnone : erase gate.waitingSince hostId = gate.waitingSince := by
          apply erase_of_notMem
          rw [← hq.same, hw]
          exact List.not_mem_nil
        refine Or.inr (Or.inr (Or.inr ⟨hfree, by omega, Or.inl rfl, ?_⟩))
        show (gate.grant hostId, true) = _
        rw [pass, hnone, hw, List.tail_nil, ← hw]
      | cons first rest =>
        dsimp only
        rw [← hw]
        by_cases hin : hostId ∈ gate.waiting
        · have hhas : (!(keys gate.waitingSince).contains hostId) = false := by
            rw [hwaits.mpr hin, Bool.not_true]
          simp only [hhas, Bool.false_eq_true, if_false]
          by_cases hfirst : first = hostId
          · refine Or.inr (Or.inr (Or.inr ⟨hfree, by omega, Or.inr ?_, ?_⟩))
            · rw [hw, hfirst, List.head?_cons]
            · rw [if_neg (by simpa using hfirst), pass, hw, List.tail_cons]
          · rw [if_pos (by simpa using hfirst)]
            exact Or.inr (Or.inl ⟨hin, rfl⟩)
        · have hhas : (!(keys gate.waitingSince).contains hostId) = true := by
            rw [Bool.eq_false_iff.mpr (mt hwaits.mp hin), Bool.not_false]
          rw [if_pos hhas, enqueue, if_neg (mt hwaits.mp hin)]
          exact Or.inr (Or.inr (Or.inl ⟨hin, hfree, rfl⟩))

/-- A host that waits, or one that is not active and joins at the end, has a time. -/
theorem Queue.touch (hq : gate.Queue) {hostId : Int} (hin : hostId ∈ gate.waiting) (now : Int) :
    Queue { gate with waitingSince := put gate.waitingSince hostId now } := by
  refine ⟨hq.waiting, nodup_put hq.since _ _, fun h => ?_, hq.apart⟩
  rw [mem_keys]
  by_cases hh : h = hostId
  · rw [hh, lookup_put_self]
    exact ⟨fun _ => ⟨now, rfl⟩, fun _ => hin⟩
  · rw [lookup_put_ne _ hh, ← mem_keys]
    exact hq.same h

theorem Queue.join (hq : gate.Queue) {hostId : Int} (hout : hostId ∉ gate.waiting) (hfree : hostId ∉ gate.active)
    (now : Int) : Queue { gate with waiting := gate.waiting ++ [hostId], waitingSince := put gate.waitingSince hostId now } := by
  constructor
  · rw [← List.concat_eq_append]
    exact List.Nodup.concat hout hq.waiting
  · exact nodup_put hq.since _ _
  · intro h
    rw [mem_keys, List.mem_append, List.mem_singleton]
    by_cases hh : h = hostId
    · rw [hh, lookup_put_self]
      exact ⟨fun _ => ⟨now, rfl⟩, fun _ => Or.inr rfl⟩
    · rw [lookup_put_ne _ hh, ← mem_keys, ← hq.same h]
      exact or_iff_left hh
  · intro h hh
    rcases List.mem_append.mp hh with hh | hh
    · exact hq.apart h hh
    · rw [List.mem_singleton.mp hh]
      exact hfree

theorem Queue.pass (hq : gate.Queue) {hostId : Int} (hturn : gate.waiting = [] ∨ gate.waiting.head? = some hostId) :
    (gate.pass hostId).Queue := by
  have hgone : hostId ∉ gate.waiting.tail ∧ ∀ h, h ∈ gate.waiting.tail ↔ h ∈ gate.waiting ∧ h ≠ hostId := by
    rcases hturn with hempty | hhead
    · simp [hempty]
    · obtain ⟨rest, hrest⟩ := List.head?_eq_some_iff.mp hhead
      have hnd := hq.waiting
      rw [hrest, List.nodup_cons] at hnd
      rw [hrest, List.tail_cons]
      refine ⟨hnd.1, fun h => ⟨fun hh => ⟨List.mem_cons_of_mem _ hh, ?_⟩, fun hh => ?_⟩⟩
      · rintro rfl
        exact hnd.1 hh
      · exact (List.mem_cons.mp hh.1).resolve_left hh.2
  constructor
  · exact hq.waiting.sublist (List.tail_sublist _)
  · exact nodup_erase hq.since _
  · intro h
    show h ∈ gate.waiting.tail ↔ h ∈ keys (erase gate.waitingSince hostId)
    rw [hgone.2, mem_keys, hq.same, mem_keys]
    by_cases hh : h = hostId
    · rw [hh, lookup_erase_self]
      simp
    · rw [lookup_erase_ne _ hh]
      exact and_iff_left hh
  · intro h hh hactive
    rcases List.mem_append.mp hactive with hactive | hactive
    · exact hq.apart h ((hgone.2 h).mp hh).1 hactive
    · exact ((hgone.2 h).mp hh).2 (List.mem_singleton.mp hactive)

/-- A lease that is called, or a host that is cleared, takes nothing into the queue. -/
theorem Queue.deactivate (hq : gate.Queue) (hostId : Int) (completedAt : List (Int × Int)) :
    Queue { gate with active := gate.active.erase hostId, completedAt := completedAt } :=
  ⟨hq.waiting, hq.since, hq.same, fun h hh hactive => hq.apart h hh (List.mem_of_mem_erase hactive)⟩

theorem Queue.remove (hq : gate.Queue) (hostId : Int) :
    (gate.removeWaiting hostId).Queue ∧ (gate.removeWaiting hostId).waiting = gate.waiting.erase hostId ∧
      (gate.removeWaiting hostId).active = gate.active := by
  by_cases hin : (keys gate.waitingSince).contains hostId = true
  · rw [removeWaiting, if_pos hin]
    refine ⟨⟨hq.waiting.erase _, nodup_erase hq.since _, fun h => ?_, fun h hh => ?_⟩, rfl, rfl⟩
    · rw [hq.waiting.mem_erase_iff, hq.same, mem_keys, mem_keys]
      by_cases hh : h = hostId
      · rw [hh, lookup_erase_self]
        simp
      · rw [lookup_erase_ne _ hh]
        exact and_iff_right hh
    · exact hq.apart h (List.mem_of_mem_erase hh)
  · rw [removeWaiting, if_neg hin]
    rw [List.contains_iff_mem, ← hq.same] at hin
    exact ⟨hq, (List.erase_of_not_mem hin).symm, rfl⟩

/-- What one `tryAcquire` does: the gate keeps its queue in order, the active hosts change by a
grant only, and a grant goes to the foremost host. -/
structure Acquired (gate : AgentHeartbeatGate) (cfg : Config) (h now : Int) (r : AgentHeartbeatGate × Bool) : Prop where
  queue : r.1.Queue
  refused : r.2 = false → r.1.active = gate.active
  granted : r.2 = true → r.1.active = gate.active ++ [h] ∧ h ∉ gate.active ∧ 0 < h ∧
    (gate.active.length : Int) < cfg.capacity ∧ gate.Foremost cfg now h
  places : ∃ kept joined, r.1.waiting = kept ++ joined ∧ kept.Sublist gate.waiting ∧
    ∀ g ∈ gate.waiting, g ∉ kept → gate.TimedOut cfg now g ∨ (g = h ∧ r.2 = true)

theorem acquired (hq : gate.Queue) (cfg : Config) (h : Int) (force : Bool) (now : Int) :
    Acquired gate cfg h now (gate.tryAcquire cfg h force now) := by
  by_cases hpos : h ≤ 0
  · rw [tryAcquire, if_pos hpos]
    exact ⟨hq, fun _ => rfl, (fun hr => by cases hr), gate.waiting, [], (List.append_nil _).symm, List.Sublist.refl _,
      fun g hg hout => absurd hg hout⟩
  · rw [tryAcquire, if_neg hpos]
    obtain ⟨hkept, front, hsplit, hlate⟩ := hq.prune cfg now
    have hsub : (gate.pruneWaiting cfg now).waiting.Sublist gate.waiting := by
      rw [hsplit]
      exact List.sublist_append_right _ _
    have hleft : ∀ g ∈ gate.waiting, g ∉ (gate.pruneWaiting cfg now).waiting → gate.TimedOut cfg now g := by
      intro g hg hout
      rw [hsplit, List.mem_append] at hg
      exact hlate g (hg.resolve_right hout)
    -- every way but the grant leaves the pruned queue in place
    have hstay : ∀ (gate' : AgentHeartbeatGate) (joined : List Int), gate'.Queue → gate'.active = gate.active →
        gate'.waiting = (gate.pruneWaiting cfg now).waiting ++ joined → Acquired gate cfg h now (gate', false) :=
      fun gate' joined hqueue hactive hwaiting => ⟨hqueue, fun _ => hactive, (fun hr => by cases hr),
        _, joined, hwaiting, hsub, fun g hg hgone => Or.inl (hleft g hg hgone)⟩
    rcases takeSlot_cases hkept cfg h force now with heq | ⟨hin, heq⟩ | ⟨hout, hfree, heq⟩ | ⟨hfree, hroom, hturn, heq⟩
    · rw [heq]
      exact hstay _ [] hkept rfl (List.append_nil _).symm
    · rw [heq]
      exact hstay _ [] (hkept.touch hin now) rfl (List.append_nil _).symm
    · rw [heq]
      exact hstay _ [h] (hkept.join hout hfree now) rfl rfl
    · rw [heq]
      refine ⟨hkept.pass hturn, (fun hr => by cases hr), fun _ => ?_, _, [], (List.append_nil _).symm,
        (List.tail_sublist _).trans hsub, fun g hg hgone => ?_⟩
      · exact ⟨rfl, hfree, by omega, hroom, front, _, hsplit, hlate, hturn⟩
      · by_cases hback : g ∈ (gate.pruneWaiting cfg now).waiting
        · rcases hturn with hempty | hhead
          · rw [hempty] at hback
            cases hback
          · obtain ⟨rest, hrest⟩ := List.head?_eq_some_iff.mp hhead
            rw [hrest] at hback
            have htail : g ∉ rest := by
              intro hmem
              exact hgone (by simpa [pass, grant, hrest] using hmem)
            exact Or.inr ⟨(List.mem_cons.mp hback).resolve_right htail, rfl⟩
        · exact Or.inl (hleft g hg hback)

end AgentHeartbeatGate

end

/-! ## The leases -/

theorem holders_append (leases : List Lease) (h : Int) :
    ((leases ++ [(⟨h, false, false⟩ : Lease)]).filter Lease.outstanding).map Lease.hostId =
      (leases.filter Lease.outstanding).map Lease.hostId ++ [h] := by
  rw [List.filter_append, List.map_append]
  rfl

theorem holders_clear (leases : List Lease) (h : Int) :
    ((clearLeases leases h).filter Lease.outstanding).map Lease.hostId =
      ((leases.filter Lease.outstanding).map Lease.hostId).filter (fun x => x != h) := by
  induction leases with
  | nil => rfl
  | cons l rest ih =>
    rw [clearLeases, List.map_cons, ← clearLeases]
    by_cases hl : l.hostId = h
    · have hout : Lease.outstanding { l with cleared := true } = false := by simp [Lease.outstanding]
      rw [if_pos hl, List.filter_cons_of_neg (by simp [hout]), ih]
      by_cases ho : l.outstanding = true
      · rw [List.filter_cons_of_pos ho, List.map_cons, List.filter_cons_of_neg (by simp [hl])]
      · rw [List.filter_cons_of_neg ho]
    · rw [if_neg hl]
      by_cases ho : l.outstanding = true
      · rw [List.filter_cons_of_pos ho, List.filter_cons_of_pos ho, List.map_cons, List.map_cons,
          List.filter_cons_of_pos (by simpa using hl), ih]
      · rw [List.filter_cons_of_neg ho, List.filter_cons_of_neg ho, ih]

theorem holders_clearAll (leases : List Lease) :
    ((clearAllLeases leases).filter Lease.outstanding).map Lease.hostId = [] := by
  rw [List.map_eq_nil_iff, List.filter_eq_nil_iff]
  intro l hl
  obtain ⟨m, _, rfl⟩ := List.mem_map.mp hl
  simp [Lease.outstanding]

/-- The first call of a lease takes it from the outstanding ones, where it is one of them. -/
theorem holders_release {leases : List Lease} {lease : Nat} {l : Lease} (hl : leases[lease]? = some l) :
    ((leases.filter Lease.outstanding).map Lease.hostId).Perm
      ((if l.outstanding then [l.hostId] else []) ++
        ((leases.set lease { l with released := true }).filter Lease.outstanding).map Lease.hostId) := by
  obtain ⟨hlt, rfl⟩ := List.getElem?_eq_some_iff.mp hl
  have hsplit : leases = leases.take lease ++ leases[lease] :: leases.drop (lease + 1) := by
    rw [← List.drop_eq_getElem_cons hlt, List.take_append_drop]
  have hset : leases.set lease { leases[lease] with released := true } =
      leases.take lease ++ { leases[lease] with released := true } :: leases.drop (lease + 1) := by
    rw [List.set_eq_take_append_cons_drop, if_pos hlt]
  have hgone : Lease.outstanding { leases[lease] with released := true } = false := by simp [Lease.outstanding]
  rw [hset, List.filter_append, List.filter_cons_of_neg (by simp [hgone])]
  conv_lhs => rw [hsplit]
  rw [List.filter_append]
  by_cases ho : leases[lease].outstanding = true
  · rw [List.filter_cons_of_pos ho, if_pos ho, List.map_append, List.map_append, List.map_cons]
    exact List.perm_middle
  · rw [List.filter_cons_of_neg ho, if_neg ho]
    exact List.Perm.refl _

/-! ## One call -/

section
variable {cfg : Config} {s s' : State} {a : Action}

/-- What holds of the gate in every state, careful or not. -/
structure State.Inv (cfg : Config) (s : State) : Prop where
  queue : s.gate.Queue
  nodup : s.gate.active.Nodup
  within : (s.gate.active.length : Int) ≤ cfg.capacity
  positive : ∀ l ∈ s.leases, 0 < l.hostId

def State.Agrees (s : State) : Prop := s.holders.Perm s.gate.active

theorem step_cases (h : step cfg s a = some s') :
    (s'.gate = s.gate ∧ s'.leases = s.leases) ∨
    (∃ hostId force now, a = .tryAcquire (some hostId) force now ∧
      s'.gate = (s.gate.tryAcquire cfg hostId force now).1 ∧
      s'.leases = if (s.gate.tryAcquire cfg hostId force now).2 then s.leases ++ [⟨hostId, false, false⟩] else s.leases) ∨
    (∃ lease now l, a = .release lease now ∧ s.leases[lease]? = some l ∧ l.released = false ∧
      s'.gate = s.gate.release l.hostId now ∧ s'.leases = s.leases.set lease { l with released := true }) ∨
    (∃ hostId, a = .clear (some hostId) ∧ s'.gate = s.gate.clear hostId ∧ s'.leases = clearLeases s.leases hostId) ∨
    (a = .clearAll ∧ s'.gate = .empty ∧ s'.leases = clearAllLeases s.leases) := by
  cases a with
  | tryAcquire hostIdValue force now =>
    cases hostIdValue with
    | none =>
      simp only [step, Option.ite_none_right_eq_some, Option.some.injEq] at h
      rw [← h.2]
      exact Or.inl ⟨rfl, rfl⟩
    | some hostId =>
      simp only [step, Option.ite_none_right_eq_some, Option.some.injEq] at h
      rw [← h.2]
      exact Or.inr (Or.inl ⟨hostId, force, now, rfl, rfl, rfl⟩)
  | release lease now =>
    simp only [step, Option.ite_none_right_eq_some, Option.map_eq_some_iff] at h
    obtain ⟨_, l, hl, h⟩ := h
    by_cases hr : l.released = true
    · rw [if_pos hr] at h
      rw [← h]
      exact Or.inl ⟨rfl, rfl⟩
    · rw [if_neg hr] at h
      rw [← h]
      exact Or.inr (Or.inr (Or.inl ⟨lease, now, l, rfl, hl, by simpa using hr, rfl, rfl⟩))
  | clear hostIdValue =>
    cases hostIdValue with
    | none =>
      simp only [step, Option.some.injEq] at h
      rw [← h]
      exact Or.inl ⟨rfl, rfl⟩
    | some hostId =>
      simp only [step, Option.some.injEq] at h
      rw [← h]
      exact Or.inr (Or.inr (Or.inr (Or.inl ⟨hostId, rfl, rfl, rfl⟩)))
  | clearAll =>
    simp only [step, Option.some.injEq] at h
    rw [← h]
    exact Or.inr (Or.inr (Or.inr (Or.inr ⟨rfl, rfl, rfl⟩)))

theorem cleared (hq : s.gate.Queue) (hostId : Int) :
    (s.gate.clear hostId).Queue ∧ (s.gate.clear hostId).waiting = s.gate.waiting.erase hostId ∧
      (s.gate.clear hostId).active = s.gate.active.erase hostId :=
  (hq.deactivate hostId (erase s.gate.completedAt hostId)).remove hostId

theorem empty_queue : AgentHeartbeatGate.empty.Queue :=
  ⟨List.nodup_nil, List.nodup_nil, fun _ => Iff.rfl, fun _ hh => absurd hh List.not_mem_nil⟩

theorem State.Inv.step (hi : s.Inv cfg) (h : calls cfg s a s') : s'.Inv cfg := by
  have hcap : (1 : Int) ≤ cfg.capacity := Int.le_max_left 1 cfg.maxConcurrent
  rcases step_cases h with ⟨hg, hl⟩ | ⟨hostId, force, now, rfl, hg, hl⟩ | ⟨lease, now, l, rfl, hlease, hr, hg, hl⟩ |
    ⟨hostId, rfl, hg, hl⟩ | ⟨rfl, hg, hl⟩
  · exact ⟨hg ▸ hi.queue, hg ▸ hi.nodup, hg ▸ hi.within, hl ▸ hi.positive⟩
  · have hacq := AgentHeartbeatGate.acquired hi.queue cfg hostId force now
    cases hgr : (s.gate.tryAcquire cfg hostId force now).2 with
    | false =>
      rw [hgr, if_neg Bool.false_ne_true] at hl
      have hactive := hacq.refused hgr
      rw [← hg] at hactive
      exact ⟨hg ▸ hacq.queue, hactive ▸ hi.nodup, hactive ▸ hi.within, hl ▸ hi.positive⟩
    | true =>
      rw [hgr, if_pos rfl] at hl
      obtain ⟨hactive, hfree, hpos, hroom, _⟩ := hacq.granted hgr
      rw [← hg] at hactive
      refine ⟨hg ▸ hacq.queue, ?_, ?_, ?_⟩
      · rw [hactive, ← List.concat_eq_append]
        exact List.Nodup.concat hfree hi.nodup
      · rw [hactive, List.length_append, List.length_singleton]
        omega
      · intro l hmem
        rw [hl, List.mem_append, List.mem_singleton] at hmem
        rcases hmem with hmem | rfl
        · exact hi.positive l hmem
        · exact hpos
  · refine ⟨?_, ?_, ?_, ?_⟩
    · rw [hg]
      exact hi.queue.deactivate _ _
    · rw [hg]
      exact hi.nodup.erase _
    · rw [hg]
      have := (List.erase_sublist (a := l.hostId) (l := s.gate.active)).length_le
      show ((s.gate.active.erase l.hostId).length : Int) ≤ cfg.capacity
      have := hi.within
      omega
    · intro m hm
      rw [hl] at hm
      rcases List.mem_or_eq_of_mem_set hm with hm | rfl
      · exact hi.positive m hm
      · exact hi.positive l (List.mem_of_getElem? hlease)
  · obtain ⟨hqueue, _, hactive⟩ := cleared hi.queue hostId
    refine ⟨hg ▸ hqueue, ?_, ?_, ?_⟩
    · rw [hg, hactive]
      exact hi.nodup.erase _
    · rw [hg, hactive]
      have := (List.erase_sublist (a := hostId) (l := s.gate.active)).length_le
      have := hi.within
      omega
    · intro m hm
      rw [hl] at hm
      obtain ⟨l, hl, rfl⟩ := List.mem_map.mp hm
      have := hi.positive l hl
      split <;> exact this
  · refine ⟨hg ▸ empty_queue, hg ▸ List.nodup_nil, ?_, ?_⟩
    · rw [hg]
      show (0 : Int) ≤ cfg.capacity
      omega
    · intro m hm
      rw [hl] at hm
      obtain ⟨l, hl, rfl⟩ := List.mem_map.mp hm
      exact hi.positive l hl

/-- A careful call keeps the active hosts those of the outstanding leases. -/
theorem State.Agrees.step (hi : s.Inv cfg) (ha : s.Agrees) (hc : Careful s a) (h : calls cfg s a s') : s'.Agrees := by
  unfold State.Agrees State.holders State.outstanding at ha ⊢
  rcases step_cases h with ⟨hg, hl⟩ | ⟨hostId, force, now, rfl, hg, hl⟩ | ⟨lease, now, l, rfl, hlease, hr, hg, hl⟩ |
    ⟨hostId, rfl, hg, hl⟩ | ⟨rfl, hg, hl⟩
  · rw [hg, hl]
    exact ha
  · have hacq := AgentHeartbeatGate.acquired hi.queue cfg hostId force now
    cases hgr : (s.gate.tryAcquire cfg hostId force now).2 with
    | false =>
      rw [hgr, if_neg Bool.false_ne_true] at hl
      rw [hg, hl, hacq.refused hgr]
      exact ha
    | true =>
      rw [hgr, if_pos rfl] at hl
      rw [hg, hl, (hacq.granted hgr).1, holders_append]
      exact ha.append_right [hostId]
  · rw [hg, hl]
    have hrest := holders_release hlease
    by_cases hcl : l.cleared = false
    · have ho : l.outstanding = true := by simp [Lease.outstanding, hr, hcl]
      rw [if_pos ho] at hrest
      have herase := (hrest.symm.trans ha).erase l.hostId
      rwa [List.singleton_append, List.erase_cons_head] at herase
    · rw [Bool.not_eq_false] at hcl
      have ho : ¬ l.outstanding = true := by simp [Lease.outstanding, hcl]
      rw [if_neg ho] at hrest
      have hout : l.hostId ∉ s.gate.active := fun hmem => hc l hlease hr hcl (ha.symm.subset hmem)
      show List.Perm _ (s.gate.active.erase l.hostId)
      rw [List.erase_of_not_mem hout]
      exact hrest.symm.trans ha
  · rw [hg, hl, (cleared hi.queue hostId).2.2, holders_clear, hi.nodup.erase_eq_filter]
    exact ha.filter _
  · rw [hg, hl, holders_clearAll]
    exact List.Perm.refl _

theorem inTurn_step (hi : s.Inv cfg) (h : calls cfg s a s') : InTurn cfg s a s' := by
  rcases step_cases h with ⟨hg, hl⟩ | ⟨hostId, force, now, rfl, hg, hl⟩ | ⟨lease, now, l, rfl, hlease, hr, hg, hl⟩ |
    ⟨hostId, rfl, hg, hl⟩ | ⟨rfl, hg, hl⟩
  · refine ⟨fun _ _ _ _ hne => absurd hl hne, s.gate.waiting, [], ?_, List.Sublist.refl _, ?_⟩
    · rw [hg, List.append_nil]
    · exact fun g hin hout => absurd hin hout
  · have hacq := AgentHeartbeatGate.acquired hi.queue cfg hostId force now
    constructor
    · rintro h force' now' heq hne
      obtain ⟨rfl, rfl, rfl⟩ : hostId = h ∧ force = force' ∧ now = now' := by simpa using heq
      have hgr : (s.gate.tryAcquire cfg hostId force now).2 = true := by
        by_contra hgr
        rw [if_neg hgr] at hl
        exact hne hl
      obtain ⟨_, _, _, hroom, hturn⟩ := hacq.granted hgr
      exact ⟨hturn, hroom⟩
    · obtain ⟨kept, joined, hw, hsub, hgone⟩ := hacq.places
      refine ⟨kept, joined, hg ▸ hw, hsub, fun g hin hout => ?_⟩
      rcases hgone g hin hout with hlate | ⟨rfl, hgr⟩
      · exact Or.inl hlate
      · rw [if_pos hgr] at hl
        exact Or.inr ⟨rfl, hl⟩
  · refine ⟨(fun _ _ _ heq => by cases heq), s.gate.waiting, [], ?_, List.Sublist.refl _, ?_⟩
    · rw [hg, List.append_nil]
      rfl
    · exact fun g hin hout => absurd hin hout
  · refine ⟨(fun _ _ _ heq => by cases heq), s.gate.waiting.erase hostId, [], ?_, List.erase_sublist, ?_⟩
    · rw [hg, (cleared hi.queue hostId).2.1, List.append_nil]
    · intro g hin hout
      rw [hi.queue.waiting.mem_erase_iff] at hout
      by_cases hgh : g = hostId
      · exact congrArg some hgh.symm
      · exact absurd ⟨hgh, hin⟩ hout
  · refine ⟨(fun _ _ _ heq => by cases heq), [], [], ?_, List.nil_sublist _, fun _ _ _ => trivial⟩
    rw [hg]
    rfl

/-! ## A careless call -/

theorem exists_late (cfg : Config) (clock : Int) (since : List (Int × Int)) :
    ∃ now, clock ≤ now ∧ ∀ e ∈ since, cfg.expired now e.2 = true := by
  induction since with
  | nil => exact ⟨clock, Int.le_refl _, fun e he => absurd he List.not_mem_nil⟩
  | cons e rest ih =>
    obtain ⟨now, hclock, hrest⟩ := ih
    refine ⟨max now (e.2 + cfg.waitingTimeoutMs + 1), by omega, fun x hx => ?_⟩
    rcases List.mem_cons.mp hx with rfl | hx
    · simp only [Config.expired, decide_eq_true_eq]
      omega
    · have := hrest x hx
      simp only [Config.expired, decide_eq_true_eq] at this ⊢
      omega

/-- A host that is not active gets a lease at once while there is capacity and nobody waits. -/
theorem tryAcquire_granted {gate : AgentHeartbeatGate} {hostId now : Int} (hpos : 0 < hostId)
    (hfree : hostId ∉ gate.active) (hroom : (gate.active.length : Int) < cfg.capacity)
    (hlate : ∀ e ∈ gate.waitingSince, cfg.expired now e.2 = true) :
    (gate.tryAcquire cfg hostId true now).2 = true := by
  have hnone : (gate.pruneWaiting cfg now).waiting = [] :=
    pruneLoop_nil fun h x hx => hlate (h, x) (mem_of_lookup hx)
  have hbusy : ¬ ((gate.pruneWaiting cfg now).active.contains hostId ||
      (!true && (gate.pruneWaiting cfg now).recentlyCompleted cfg hostId now)) = true := by
    simpa using hfree
  have hcap : ¬ cfg.capacity ≤ (gate.pruneWaiting cfg now).active.length := by
    rw [AgentHeartbeatGate.pruneWaiting_active]
    omega
  rw [AgentHeartbeatGate.tryAcquire, if_neg (by omega), AgentHeartbeatGate.takeSlot, if_neg hbusy, if_neg hcap, hnone]

theorem granted_step {hostId now : Int} {force : Bool} (hclock : s.clock ≤ now)
    (hgranted : (s.gate.tryAcquire cfg hostId force now).2 = true) :
    calls cfg s (.tryAcquire (some hostId) force now)
      ⟨(s.gate.tryAcquire cfg hostId force now).1, s.leases ++ [⟨hostId, false, false⟩], now⟩ := by
  simp only [Steps.ofFn, step, if_pos hclock, hgranted, if_true]

theorem careless_cases (hc : ¬ Careful s a) : ∃ lease now l, a = .release lease now ∧ s.leases[lease]? = some l ∧
    l.released = false ∧ l.cleared = true ∧ l.hostId ∈ s.holders := by
  cases a with
  | release lease now =>
    simp only [Careful, Option.mem_def, not_forall, not_not, exists_prop] at hc
    obtain ⟨l, hl, hr, hcl, hmem⟩ := hc
    exact ⟨lease, now, l, rfl, hl, hr, hcl, hmem⟩
  | tryAcquire _ _ _ => exact absurd trivial hc
  | clear _ => exact absurd trivial hc
  | clearAll => exact absurd trivial hc

/-- After a careless call the host can get one more lease beside one that is outstanding. -/
theorem careless_breaks (hi : s.Inv cfg) (ha : s.Agrees) (hc : ¬ Careful s a) (h : calls cfg s a s') :
    ∃ hostId now s'', calls cfg s' (.tryAcquire (some hostId) true now) s'' ∧ ¬ s''.Exclusive := by
  obtain ⟨lease, now, l, rfl, hlease, hr, hcl, hmem⟩ := careless_cases hc
  simp only [Steps.ofFn, step, hlease, hr, Option.map_some, Option.ite_none_right_eq_some, Option.some.injEq,
    Bool.false_eq_true, if_false] at h
  obtain ⟨_, rfl⟩ := h
  obtain ⟨later, hclock, hlate⟩ := exists_late cfg now s.gate.waitingSince
  have hactive : l.hostId ∈ s.gate.active := ha.subset hmem
  have hgranted : ((s.gate.release l.hostId now).tryAcquire cfg l.hostId true later).2 = true := by
    apply tryAcquire_granted (hi.positive l (List.mem_of_getElem? hlease))
    · exact hi.nodup.not_mem_erase
    · show ((s.gate.active.erase l.hostId).length : Int) < cfg.capacity
      have hlen := List.length_erase_of_mem hactive
      have hpos := List.length_pos_of_mem hactive
      have := hi.within
      omega
    · exact hlate
  refine ⟨l.hostId, later, _, granted_step hclock hgranted, ?_⟩
  unfold State.Exclusive State.holders State.outstanding
  rw [holders_append]
  -- the lease of the host is still among the outstanding ones
  have hrest := holders_release hlease
  rw [if_neg (by simp [Lease.outstanding, hcl]), List.nil_append] at hrest
  intro hnd
  exact (List.nodup_append.mp hnd).2.2 _ (hrest.subset hmem) _ (List.mem_singleton.mpr rfl) rfl

end

/-! ## Runs -/

theorem initial_inv (cfg : Config) (clock : Int) : (State.initial clock).Inv cfg := by
  refine ⟨empty_queue, List.nodup_nil, ?_, fun l hl => absurd hl List.not_mem_nil⟩
  have : (1 : Int) ≤ cfg.capacity := Int.le_max_left 1 cfg.maxConcurrent
  show (0 : Int) ≤ cfg.capacity
  omega

/-- In every run of careful calls, at most one lease per host is outstanding, no more than the
capacity are, the queue is in order and every next call keeps to it; a call that is not careful
lets its host have two leases. -/
theorem careful_leases_exclusive (cfg : Config) (clock : Int) {as : List Action} {s : State}
    (h : Run (Guarded Careful (calls cfg)) (State.initial clock) as s) :
    s.Exclusive ∧ s.Bounded cfg ∧ s.gate.Queue ∧ (∀ a s', calls cfg s a s' → InTurn cfg s a s') ∧
      ∀ a s', calls cfg s a s' → ¬ Careful s a →
        ∃ hostId now s'', calls cfg s' (.tryAcquire (some hostId) true now) s'' ∧ ¬ s''.Exclusive := by
  have hinv := h.of_guarded.preserves (fun _ _ _ hs hi => State.Inv.step hi hs) (initial_inv cfg clock)
  have hboth : s.Inv cfg ∧ s.Agrees := h.preserves (P := fun t => t.Inv cfg ∧ t.Agrees)
    (fun _ _ _ hs ht => ⟨ht.1.step hs.2, ht.2.step ht.1 hs.1 hs.2⟩) ⟨initial_inv cfg clock, List.Perm.refl _⟩
  obtain ⟨hi, ha⟩ := hboth
  refine ⟨ha.nodup_iff.mpr hi.nodup, ?_, hi.queue, fun a s' hs => inTurn_step hi hs,
    fun a s' hs hc => careless_breaks hi ha hc hs⟩
  have hlen := ha.length_eq
  rw [State.holders, List.length_map] at hlen
  show (s.outstanding.length : Int) ≤ cfg.capacity
  rw [hlen]
  exact hi.within

/-- A careful run: the lease of a cleared host is released before the next one is granted. -/
theorem careful_leases_cleared :
    ∃ as s, Run (Guarded Careful (calls {})) (State.initial 0) as s ∧ s.Exclusive ∧ s.outstanding ≠ [] := by
  have hexec : exec (fun t act => if decide (Careful t act) then step {} t act else none) (State.initial 0)
      [.tryAcquire (some 1) false 6000, .clear (some 1), .release 0 7000, .tryAcquire (some 1) true 8000] =
      some ⟨⟨[1], [(1, 7000)], [], []⟩, [⟨1, true, true⟩, ⟨1, false, false⟩], 8000⟩ := by decide
  have hrun := exec_guarded (G := Careful) (g := fun t act => decide (Careful t act))
    (fun _ _ => of_decide_eq_true) hexec
  exact ⟨_, _, hrun, (careful_leases_exclusive {} 0 hrun).1, by decide⟩

/-- The lease of a cleared host is released while the next one is out: a third is granted. -/
theorem cleared_lease_breaks_exclusion :
    ∃ s, Run (calls {}) (State.initial 0) [.tryAcquire (some 1) false 6000, .clear (some 1),
      .tryAcquire (some 1) false 6000, .release 0 7000, .tryAcquire (some 1) true 8000] s ∧ ¬ s.Exclusive := by
  have hexec : exec (step {}) (State.initial 0)
      [.tryAcquire (some 1) false 6000, .clear (some 1), .tryAcquire (some 1) false 6000, .release 0 7000,
        .tryAcquire (some 1) true 8000] =
      some ⟨⟨[1], [(1, 7000)], [], []⟩, [⟨1, true, true⟩, ⟨1, false, false⟩, ⟨1, false, false⟩], 8000⟩ := by decide
  refine ⟨_, exec_run hexec, ?_⟩
  show ¬ [(1 : Int), 1].Nodup
  decide

end ForwardX.Panel.HeartbeatGate
