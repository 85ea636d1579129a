import Mathlib.Algebra.BigOperators.Group.Finset.Basic
import ForwardX.Udp.Fragment

/- The byte budgets of the datagram path (`udp_queue_budget.go`) and what spends them:
   the packet queues (`udp_tuning.go`, `fxpUDPQueue`) and the fragment reassemblers
   (`udp_fragment.go`, `udpFragmentReassembler`). Any number of rule budgets share one
   process budget; `ρ`, `κ`, `ν` and `γ` name the rules, the queues, the
   reassemblers and the in-flight counters.

   A budget is only read and written under the lock of its process budget, so each
   access to it is one step, together with the change to the queue or the
   reassembler whose lock is held then; a call that accesses a budget more than
   once takes one step for each, and other calls may come between. -/
namespace ForwardX.Udp
open Wire

universe u

variable {ρ κ ν γ : Type u}

/-! ## Budgets -/

/-- `fxpUDPQueueProcessBudget` and `fxpUDPQueueRuleBudget`: bytes that may be held, and
bytes that are. -/
structure Budget where
  limit : Int
  used : Int
  deriving DecidableEq, Repr

/-- `newFXPUDPQueueProcessBudget`, `newFXPUDPQueueRuleBudget`. -/
def newBudget (limit : Int) : Budget := ⟨if limit < 0 then 0 else limit, 0⟩

/-- The rule budgets of one process budget. `clamped` is not in the program: it records
that a release asked for more than its rule budget held. -/
structure Budgets (ρ : Type u) where
  process : Budget
  rules : ρ → Budget
  clamped : Bool

section
variable [DecidableEq ρ]

def Budgets.setUsed (b : Budgets ρ) (r : ρ) (processUsed ruleUsed : Int) : Budgets ρ :=
  { b with
    process := { b.process with used := processUsed }
    rules := Function.update b.rules r { b.rules r with used := ruleUsed } }

/-- `reserve`; `none` is a refusal. -/
def Budgets.reserve (b : Budgets ρ) (r : ρ) (bytes : Nat) : Option (Budgets ρ) :=
  if bytes = 0 then some b
  else
    let n : Int := bytes
    if n > (b.rules r).limit - (b.rules r).used ∨ n > b.process.limit - b.process.used then none
    else some (b.setUsed r (b.process.used + n) ((b.rules r).used + n))

/-- `replace`; `none` is a refusal. -/
def Budgets.replace (b : Budgets ρ) (r : ρ) (releaseBytes reserveBytes : Nat) : Option (Budgets ρ) :=
  let release : Int := releaseBytes
  let reserve : Int := reserveBytes
  if release > (b.rules r).used ∨ release > b.process.used then none
  else
    let ruleBase := (b.rules r).used - release
    let processBase := b.process.used - release
    if reserve > (b.rules r).limit - ruleBase ∨ reserve > b.process.limit - processBase then none
    else some (b.setUsed r (processBase + reserve) (ruleBase + reserve))

def Budgets.release (b : Budgets ρ) (r : ρ) (bytes : Nat) : Budgets ρ :=
  if bytes = 0 then b
  else
    let asked : Int := bytes
    let n := if asked > (b.rules r).used then (b.rules r).used else asked
    { b.setUsed r (b.process.used - n) ((b.rules r).used - n) with
      clamped := b.clamped || decide (asked > (b.rules r).used) }

def Budgets.releaseTo (b : Budgets ρ) (budget : Option ρ) (bytes : Nat) : Budgets ρ :=
  match budget with
  | none => b
  | some r => b.release r bytes

/-- `budget == nil || budget.reserve(bytes)`. -/
def Budgets.reserveFrom (b : Budgets ρ) (budget : Option ρ) (bytes : Nat) : Option (Budgets ρ) :=
  match budget with
  | none => some b
  | some r => b.reserve r bytes

/-- `budget == nil || budget.replace(releaseBytes, reserveBytes)`. -/
def Budgets.replaceIn (b : Budgets ρ) (budget : Option ρ) (releaseBytes reserveBytes : Nat) :
    Option (Budgets ρ) :=
  match budget with
  | none => some b
  | some r => b.replace r releaseBytes reserveBytes

end

/-! ## Queues -/

/-- `fxpUDPQueue`. The ring buffer of `cap` slots is the list of its packets, oldest
first. `woken` counts the calls of `nextTracked` that received from `ready` and have not
locked the queue yet; `draining` says that `clear` or `close` holds the lock. -/
structure Queue (ρ : Type u) where
  packets : List Bytes
  cap : Nat
  queuedBytes : Nat
  maxBytes : Nat
  budget : Option ρ
  closed : Bool
  ready : Bool
  woken : Nat
  draining : Bool

/-- `newFXPUDPQueueWithBudget`. -/
def newFXPUDPQueue (maxPackets maxBytes : Int) (budget : Option ρ) : Queue ρ :=
  { packets := []
    cap := if maxPackets ≤ 0 then 1 else maxPackets.toNat
    queuedBytes := 0
    maxBytes := if maxBytes ≤ 0 then 1 else maxBytes.toNat
    budget := budget
    closed := false
    ready := false
    woken := 0
    draining := false }

/-- What the loop of `enqueue` leaves: the packets that stay, their bytes, and the bytes
of the dropped ones. -/
structure Room where
  packets : List Bytes
  remainingBytes : Nat
  releaseBytes : Nat
  deriving DecidableEq, Repr

/-- The loop of `enqueue`: drop the oldest packets until one of `packetBytes` fits. -/
def makeRoom (cap maxBytes packetBytes : Nat) : List Bytes → Nat → Nat → Room
  | [], remainingBytes, releaseBytes => ⟨[], remainingBytes, releaseBytes⟩
  | p :: ps, remainingBytes, releaseBytes =>
    if (p :: ps).length ≥ cap ∨ remainingBytes + packetBytes > maxBytes then
      makeRoom cap maxBytes packetBytes ps (remainingBytes - p.length) (releaseBytes + p.length)
    else ⟨p :: ps, remainingBytes, releaseBytes⟩

/-- `signalLocked`. -/
def Queue.signal (q : Queue ρ) : Queue ρ :=
  if q.packets.isEmpty then q else { q with ready := true }

@[simp] theorem Queue.signal_packets (q : Queue ρ) : q.signal.packets = q.packets := by
  unfold Queue.signal
  split <;> rfl

@[simp] theorem Queue.signal_queuedBytes (q : Queue ρ) : q.signal.queuedBytes = q.queuedBytes := by
  unfold Queue.signal
  split <;> rfl

@[simp] theorem Queue.signal_budget (q : Queue ρ) : q.signal.budget = q.budget := by
  unfold Queue.signal
  split <;> rfl

@[simp] theorem Queue.signal_closed (q : Queue ρ) : q.signal.closed = q.closed := by
  unfold Queue.signal
  split <;> rfl

/-- What `enqueue` returns, whether a packet was dropped, and leaves behind. -/
structure Enqueued (ρ : Type u) where
  dropped : Bool
  queue : Queue ρ
  budgets : Budgets ρ

def Queue.enqueue [DecidableEq ρ] (q : Queue ρ) (b : Budgets ρ) (payload : Bytes) : Enqueued ρ :=
  let packetBytes := payload.length
  if q.closed then ⟨true, q, b⟩
  else if packetBytes > q.maxBytes then ⟨true, q, b⟩
  else
    let room := makeRoom q.cap q.maxBytes packetBytes q.packets q.queuedBytes 0
    if room.packets.length ≥ q.cap ∨ room.remainingBytes + packetBytes > q.maxBytes then
      ⟨true, q, b⟩
    else
      match b.replaceIn q.budget room.releaseBytes packetBytes with
      | none => ⟨true, q, b⟩
      | some b' =>
        -- the dropped packets leave the queue without a release of their own
        let q' : Queue ρ := { q with
          packets := room.packets ++ [payload]
          queuedBytes := q.queuedBytes - room.releaseBytes + packetBytes }
        ⟨decide (room.packets.length < q.packets.length), q'.signal, b'⟩

/-- How far `done` of a leased packet is. -/
inductive LeaseStage
  | held
  | released
  | done
  deriving DecidableEq, Repr

/-- What a packet taken by `nextTracked` carries: its budget, its bytes and its in-flight
counter. -/
structure Lease (ρ γ : Type u) where
  leaseBudget : Option ρ
  leaseInFlight : Option γ
  leaseBytes : Nat
  stage : LeaseStage

/-! ## Reassemblers -/

/-- What follows when `clearLocked` is through. -/
inductive AfterClear (ρ : Type u)
  | clear
  | setBudget (budget : Option ρ)
  | close

/-- What the call that holds a reassembler's lock does next. -/
inductive Job (ρ : Type u)
  | idle
  /-- `clearLocked`. -/
  | clearing (after : AfterClear ρ)
  /-- `expireLocked`, of `expire` or of an `accept`. -/
  | expiring (now : Int) (packet : Option Packet)
  /-- `accept` after `expireLocked`. -/
  | finding (now : Int) (packet : Packet)
  /-- `accept` with the assembly at hand. -/
  | placing (now : Int) (packet : Packet)
  /-- `evictOldestLocked`, then on with `accept`. -/
  | evicting (now : Int) (packet : Packet)
  /-- `removeAssemblyLocked` at the end of `accept`. -/
  | removing (sequence : UInt64)

/-- A reassembler with its budget and the call that holds its lock. `closing` counts the
calls of `close` that set `closed` and have not returned. -/
structure Holder (ρ : Type u) where
  reassembler : Reassembler
  budget : Option ρ
  closing : Nat
  job : Job ρ

def Holder.new : Holder ρ := ⟨Reassembler.new, none, 0, .idle⟩

section
variable [DecidableEq ρ]

/-- `removeAssemblyLocked`. -/
def Holder.removeAssembly (h : Holder ρ) (b : Budgets ρ) (sequence : UInt64) (job : Job ρ) :
    Holder ρ × Budgets ρ :=
  match h.reassembler.pending.lookup sequence with
  | none => ({ h with job := job }, b)
  | some assembly =>
    ({ h with reassembler := h.reassembler.removeAssembly sequence, job := job },
      b.releaseTo h.budget assembly.total)

/-- `accept` up to `expireLocked`: a datagram in one piece and a fragment that is
refused outright touch no assembly. -/
def Holder.accept (h : Holder ρ) (now : Int) (packet : Packet) : Holder ρ :=
  if h.reassembler.closed || !validFXPUDPFragmentMetadata packet.fragment packet.fragments then h
  else if packet.fragments = 0 then h
  else if packet.payload.length = 0 ∨ packet.payload.length > fxpUDPFragmentPayloadSize then h
  else { h with job := .expiring now (some packet) }

/-- The fragment's assembly is looked up; for a new one a place may have to be freed. -/
def Holder.find (h : Holder ρ) (now : Int) (packet : Packet) : Holder ρ :=
  match h.reassembler.pending.lookup packet.sequence with
  | some assembly =>
    if assembly.fragments ≠ packet.fragments then { h with job := .removing packet.sequence }
    else { h with job := .placing now packet }
  | none =>
    if h.reassembler.pending.length ≥ fxpUDPMaxPendingFragmentSets then
      { h with job := .evicting now packet }
    else { h with job := .placing now packet }

/-- The fragment is added to its assembly, if the budget has room for it. -/
def Holder.place (h : Holder ρ) (b : Budgets ρ) (now : Int) (packet : Packet) :
    Holder ρ × Budgets ρ :=
  let found := h.reassembler.pending.lookup packet.sequence
  let assembly : Assembly := found.getD
    ⟨packet.fragments, List.replicate packet.fragments.toNat none, 0, 0, now⟩
  let reject : Holder ρ :=
    { h with job := if found.isNone then .idle else .removing packet.sequence }
  let index := packet.fragment.toNat
  if (assembly.chunks.getD index none).isSome then ({ h with job := .idle }, b)
  else if assembly.total + packet.payload.length > fxpUDPMaxDatagramPayload then (reject, b)
  else
    match b.reserveFrom h.budget packet.payload.length with
    | none => (reject, b)
    | some b' =>
      let assembly := { assembly with
        total := assembly.total + packet.payload.length
        chunks := assembly.chunks.set index (some packet.payload)
        received := assembly.received + 1 }
      -- a complete datagram leaves its assembly at once; the replay window then decides
      -- whether it is delivered, which is no matter of the budget
      ({ h with
          reassembler := h.reassembler.putAssembly packet.sequence assembly
          job := if assembly.received ≠ assembly.fragments.toNat then .idle
            else .removing packet.sequence }, b')

/-- The end of `clearLocked`, when no assembly is left, and of the call it is for. -/
def Holder.cleared (h : Holder ρ) (after : AfterClear ρ) : Holder ρ :=
  let h : Holder ρ :=
    { h with reassembler := { h.reassembler with pending := [] }, job := .idle }
  match after with
  | .clear => h
  | .setBudget budget => { h with budget := budget }
  | .close => { h with closing := h.closing - 1 }

/-- One step of the call that holds the lock. The loops over the pending map visit its
entries in any order: `sequence` is the next one, or, of the oldest, the first. -/
def Holder.work (h : Holder ρ) (b : Budgets ρ) (sequence : UInt64) : Option (Holder ρ × Budgets ρ) :=
  match h.job with
  | .idle => none
  | .clearing after =>
    if h.reassembler.pending.isEmpty then some (h.cleared after, b)
    else if (h.reassembler.pending.lookup sequence).isSome then
      some (h.removeAssembly b sequence (.clearing after))
    else none
  | .expiring now packet =>
    match h.reassembler.pending.find? (fun e => now - e.2.createdAt ≥ fxpUDPFragmentTimeout) with
    | none =>
      match packet with
      | none => some ({ h with job := .idle }, b)
      | some packet => some ({ h with job := .finding now packet }, b)
    | some _ =>
      match h.reassembler.pending.lookup sequence with
      | none => none
      | some assembly =>
        if now - assembly.createdAt ≥ fxpUDPFragmentTimeout then
          some (h.removeAssembly b sequence (.expiring now packet))
        else none
  | .finding now packet => some (h.find now packet, b)
  | .placing now packet => some (h.place b now packet)
  | .evicting now packet =>
    match h.reassembler.pending.lookup sequence with
    | none => none
    | some assembly =>
      if h.reassembler.pending.all (fun e => assembly.createdAt ≤ e.2.createdAt) then
        some (h.removeAssembly b sequence (.placing now packet))
      else none
  | .removing sequence => some (h.removeAssembly b sequence .idle)

end

/-! ## Any number of queues and reassemblers -/

/-- Everything that spends the budgets of one process. -/
structure Spenders (ρ κ ν γ : Type u) where
  budgets : Budgets ρ
  queues : κ → Queue ρ
  holders : ν → Holder ρ
  leases : List (Lease ρ γ)
  inFlight : γ → Int

/-- The steps of the callers: the start of a call, the next step of the one that holds a
lock, or a whole call where one step does. -/
inductive Spend (ρ κ ν γ : Type u)
  /-- `enqueue`. -/
  | enqueue (q : κ) (payload : Bytes)
  /-- `nextTracked` receives from `ready`. -/
  | wake (q : κ)
  /-- `nextTracked` locks the queue and takes the oldest packet. -/
  | next (q : κ) (counter : Option γ)
  /-- `clear` locks the queue. -/
  | clearQueue (q : κ)
  /-- `close` locks the queue and marks it closed. -/
  | closeQueue (q : κ)
  /-- One round of the loop of `clear` or `close`, or its end. -/
  | drop (q : κ)
  /-- `done` of a leased packet: the release. -/
  | done (lease : Nat)
  /-- `done` of a leased packet: the counter. -/
  | count (lease : Nat)
  /-- `accept` locks the reassembler. -/
  | accept (v : ν) (now : Int) (packet : Packet)
  /-- `expire` locks the reassembler. -/
  | expire (v : ν) (now : Int)
  /-- `setBudget` locks the reassembler. -/
  | setBudget (v : ν) (budget : Option ρ)
  /-- `clear` locks the reassembler. -/
  | clear (v : ν)
  /-- `close` marks the reassembler closed. -/
  | close (v : ν)
  /-- `close` locks the reassembler. -/
  | closeLock (v : ν)
  /-- The next step of the call that holds the reassembler's lock. -/
  | work (v : ν) (sequence : UInt64)

section
variable [DecidableEq ρ] [DecidableEq κ] [DecidableEq ν] [DecidableEq γ]

def Spenders.setQueue (s : Spenders ρ κ ν γ) (q : κ) (x : Queue ρ) : Spenders ρ κ ν γ :=
  { s with queues := Function.update s.queues q x }

def Spenders.setHolder (s : Spenders ρ κ ν γ) (v : ν) (x : Holder ρ) : Spenders ρ κ ν γ :=
  { s with holders := Function.update s.holders v x }

/-- `nextTracked` with the lock held: the oldest packet becomes a lease, its bytes stay
in the budget. -/
def Spenders.next (s : Spenders ρ κ ν γ) (q : κ) (counter : Option γ) : Spenders ρ κ ν γ :=
  let x := s.queues q
  let y : Queue ρ := { x with woken := x.woken - 1 }
  match x.packets with
  | [] => s.setQueue q y
  | packet :: rest =>
    let y : Queue ρ := { y with packets := rest, queuedBytes := x.queuedBytes - packet.length }
    { s.setQueue q y.signal with
      leases := s.leases ++ [⟨x.budget, counter, packet.length, .held⟩]
      inFlight := match counter with
        | none => s.inFlight
        | some c => Function.update s.inFlight c (s.inFlight c + 1) }

/-- One round of the loop of `clear` and `close`, or its end. -/
def Spenders.drop (s : Spenders ρ κ ν γ) (q : κ) : Spenders ρ κ ν γ :=
  let x := s.queues q
  match x.packets with
  | [] => s.setQueue q { x with ready := false, draining := false }
  | packet :: rest =>
    { s.setQueue q { x with packets := rest, queuedBytes := x.queuedBytes - packet.length } with
      budgets := s.budgets.releaseTo x.budget packet.length }

/-- `done`, in two steps: the release, and then the counter. Later calls do nothing. -/
def Spenders.done (s : Spenders ρ κ ν γ) (i : Nat) : Option (Spenders ρ κ ν γ) := do
  let l ← s.leases[i]?
  if l.stage ≠ .held then some s
  else some { s with
    leases := s.leases.set i { l with stage := .released }
    budgets := s.budgets.releaseTo l.leaseBudget l.leaseBytes }

def Spenders.count (s : Spenders ρ κ ν γ) (i : Nat) : Option (Spenders ρ κ ν γ) := do
  let l ← s.leases[i]?
  if l.stage ≠ .released then none
  else some { s with
    leases := s.leases.set i { l with stage := .done }
    inFlight := match l.leaseInFlight with
      | none => s.inFlight
      | some c => Function.update s.inFlight c (s.inFlight c - 1) }

/-- The lock of a reassembler is taken, and `job` starts. -/
def Spenders.lock (s : Spenders ρ κ ν γ) (v : ν) (job : Job ρ) : Option (Spenders ρ κ ν γ) :=
  match (s.holders v).job with
  | .idle => some (s.setHolder v { s.holders v with job := job })
  | _ => none

/-- One step of the callers; `none` where the step is not enabled. -/
def Spenders.step (s : Spenders ρ κ ν γ) : Spend ρ κ ν γ → Option (Spenders ρ κ ν γ)
  | .enqueue q payload =>
    if (s.queues q).draining then none
    else
      let e := (s.queues q).enqueue s.budgets payload
      some { s.setQueue q e.queue with budgets := e.budgets }
  | .wake q =>
    if (s.queues q).ready then
      some (s.setQueue q { s.queues q with ready := false, woken := (s.queues q).woken + 1 })
    else none
  | .next q counter =>
    if (s.queues q).draining ∨ (s.queues q).woken = 0 then none else some (s.next q counter)
  | .clearQueue q =>
    if (s.queues q).draining then none
    else some (s.setQueue q { s.queues q with draining := true })
  | .closeQueue q =>
    if (s.queues q).draining then none
    else some (s.setQueue q { s.queues q with closed := true, draining := true })
  | .drop q => if (s.queues q).draining then some (s.drop q) else none
  | .done i => s.done i
  | .count i => s.count i
  | .accept v now packet =>
    match (s.holders v).job with
    | .idle => some (s.setHolder v ((s.holders v).accept now packet))
    | _ => none
  | .expire v now =>
    if (s.holders v).reassembler.closed then some s else s.lock v (.expiring now none)
  | .setBudget v budget =>
    match (s.holders v).job with
    | .idle =>
      if (s.holders v).budget = budget then some s else s.lock v (.clearing (.setBudget budget))
    | _ => none
  | .clear v => s.lock v (.clearing .clear)
  | .close v =>
    let h := s.holders v
    some (s.setHolder v { h with
      reassembler := { h.reassembler with closed := true }
      closing := h.closing + 1 })
  | .closeLock v =>
    if (s.holders v).closing = 0 then none else s.lock v (.clearing .close)
  | .work v sequence => do
    let r ← (s.holders v).work s.budgets sequence
    some { s.setHolder v r.1 with budgets := r.2 }

/-- Fresh budgets, queues and reassemblers. -/
def Spenders.initial (processLimit : Int) (ruleLimit : ρ → Int)
    (queues : κ → Int × Int × Option ρ) : Spenders ρ κ ν γ :=
  { budgets := ⟨newBudget processLimit, fun r => newBudget (ruleLimit r), false⟩
    queues := fun q => newFXPUDPQueue (queues q).1 (queues q).2.1 (queues q).2.2
    holders := fun _ => Holder.new
    leases := []
    inFlight := fun _ => 0 }

end

end ForwardX.Udp
