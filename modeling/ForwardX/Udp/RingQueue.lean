import Mathlib.Order.Bounds.Basic
import ForwardX.Lib.RingBuffer
import ForwardX.Lib.Transition
import ForwardX.Udp.Queue

/- The packet queue of a UDP session as the program stores it (`udp_tuning.go`,
   `fxpUDPQueue`): a ring of slots with a head and a size, a byte count, a budget shared
   with other queues and a wake-up channel of one slot. It refines a plain list,
   bounded in packets and bytes, that drops its oldest packets (`Fifo.step`).

   Every call but the receive from `ready` runs under the queue's lock and touches
   `ready` last, so it is one step; what other holders of the budget do before it, after
   it, or between two releases of a `clear`, is a step `others` to any budgets at all. -/
namespace ForwardX.Udp
open Wire Transition

universe u

variable {ρ γ : Type u}

/-! ## The ring -/

/-- `fxpUDPQueuedPacket` while it is queued; its lease fields are zero until it is taken. -/
structure QueuedPacket where
  payload : Bytes
  queuedAt : Int
  deriving DecidableEq, Repr

/-- `fxpUDPQueuedPacket{}`, what an empty slot holds. -/
def QueuedPacket.zero : QueuedPacket := ⟨[], 0⟩

/-- `fxpUDPQueue`. -/
structure RingQueue (ρ : Type u) where
  packets : List QueuedPacket
  head : Nat
  size : Nat
  queuedBytes : Int
  maxBytes : Int
  budget : Option ρ
  closed : Bool
  ready : Bool

def newFXPUDPQueueWithBudget (maxPackets maxBytes : Int) (budget : Option ρ) : RingQueue ρ :=
  { packets := List.replicate (if maxPackets ≤ 0 then 1 else maxPackets.toNat) .zero
    head := 0
    size := 0
    queuedBytes := 0
    maxBytes := if maxBytes ≤ 0 then 1 else maxBytes
    budget := budget
    closed := false
    ready := false }

/-- `signalLocked`: a send that does not wait. -/
def RingQueue.signalLocked (q : RingQueue ρ) : RingQueue ρ :=
  if q.size = 0 then q else { q with ready := true }

section
variable [DecidableEq ρ]

/-- What a call under the lock hands back beside the queue and the budgets. -/
structure Popped (ρ : Type u) where
  packet : QueuedPacket
  queue : RingQueue ρ
  budgets : Budgets ρ

def RingQueue.popOldestLocked (q : RingQueue ρ) (b : Budgets ρ) (releaseBudget : Bool) : Popped ρ :=
  let packet := q.packets.getD q.head .zero
  let left := q.queuedBytes - packet.payload.length
  { packet := packet
    queue := { q with
      packets := q.packets.set q.head .zero
      head := (q.head + 1) % q.packets.length
      size := q.size - 1
      queuedBytes := if left < 0 then 0 else left }
    budgets := if releaseBudget then b.releaseTo q.budget packet.payload.length else b }

/-- `popOldestLocked`, so many times. -/
def RingQueue.dropOldest (releaseBudget : Bool) : Nat → RingQueue ρ → Budgets ρ → RingQueue ρ × Budgets ρ
  | 0, q, b => (q, b)
  | n + 1, q, b =>
    let popped := q.popOldestLocked b releaseBudget
    RingQueue.dropOldest releaseBudget n popped.queue popped.budgets

/-- The variables of the first loop of `enqueue`, at its end. -/
structure DropPlan where
  dropCount : Nat
  releaseBytes : Nat
  remainingPackets : Nat
  remainingBytes : Int
  deriving DecidableEq, Repr

/-- The first loop of `enqueue`, over `remainingPackets`: count the oldest packets that
have to go, without touching the ring. -/
def RingQueue.plan (q : RingQueue ρ) (packetBytes : Nat) : Nat → Nat → Nat → Int → DropPlan
  | 0, dropCount, releaseBytes, remainingBytes => ⟨dropCount, releaseBytes, 0, remainingBytes⟩
  | remaining + 1, dropCount, releaseBytes, remainingBytes =>
    if remaining + 1 ≥ q.packets.length ∨ remainingBytes + packetBytes > q.maxBytes then
      let index := (q.head + dropCount) % q.packets.length
      let bytes := (q.packets.getD index .zero).payload.length
      q.plan packetBytes remaining (dropCount + 1) (releaseBytes + bytes) (remainingBytes - bytes)
    else ⟨dropCount, releaseBytes, remaining + 1, remainingBytes⟩

/-- What `enqueue` returns, and leaves behind. -/
structure Offered (ρ : Type u) where
  dropped : Bool
  queue : RingQueue ρ
  budgets : Budgets ρ

def RingQueue.enqueue (q : RingQueue ρ) (b : Budgets ρ) (packet : QueuedPacket) : Offered ρ :=
  let packetBytes := packet.payload.length
  if q.closed then ⟨true, q, b⟩
  else if packetBytes > q.maxBytes then ⟨true, q, b⟩
  else
    let plan := q.plan packetBytes q.size 0 0 q.queuedBytes
    if plan.remainingPackets ≥ q.packets.length ∨ plan.remainingBytes + packetBytes > q.maxBytes then
      ⟨true, q, b⟩
    else
      match b.replaceIn q.budget plan.releaseBytes packetBytes with
      | none => ⟨true, q, b⟩
      | some b' =>
        let (q', b'') := RingQueue.dropOldest false plan.dropCount q b'
        let index := (q'.head + q'.size) % q'.packets.length
        let stored : RingQueue ρ := { q' with
          packets := q'.packets.set index packet
          size := q'.size + 1
          queuedBytes := q'.queuedBytes + packetBytes }
        ⟨decide (plan.dropCount > 0), stored.signalLocked, b''⟩

def RingQueue.clear (q : RingQueue ρ) (b : Budgets ρ) : RingQueue ρ × Budgets ρ :=
  let (q', b') := RingQueue.dropOldest true q.size q b
  ({ q' with ready := false }, b')

def RingQueue.close (q : RingQueue ρ) (b : Budgets ρ) : RingQueue ρ × Budgets ρ :=
  let (q', b') := RingQueue.dropOldest true q.size { q with closed := true } b
  ({ q' with ready := false }, b')

end

/-! ## Its callers -/

/-- A queue, the budgets, and the calls of `nextTracked`: `waiting` of them are in the
select, `woken` have received from `ready` and not locked the queue yet. `results` is
what `enqueue` has returned and `returned` what `nextTracked` has, in order. -/
structure QueueState (ρ γ : Type u) where
  queue : RingQueue ρ
  budgets : Budgets ρ
  waiting : Nat
  woken : Nat
  inFlight : γ → Int
  results : List Bool
  returned : List (QueuedPacket × Lease ρ γ)

inductive QueueAct (ρ γ : Type u)
  /-- `enqueue` of a payload, at a time. -/
  | enqueue (payload : Bytes) (queuedAt : Int)
  /-- `nextTracked` is called. -/
  | call
  /-- A waiting call receives from `ready`. -/
  | receive
  /-- It locks the queue and takes the oldest packet, or goes back to wait. -/
  | take (inFlight : Option γ)
  /-- A waiting call finds `done` closed. -/
  | cancelled
  | clear
  | close
  /-- The other users of the budgets. -/
  | others (budgets : Budgets ρ)

/-- The lease of a packet that `nextTracked` returns. -/
def leaseOf (budget : Option ρ) (inFlight : Option γ) (packet : QueuedPacket) : Lease ρ γ :=
  ⟨budget, inFlight, packet.payload.length, .held⟩

/-- `inFlight.Add(1)`. -/
def countInFlight [DecidableEq γ] (inFlight : γ → Int) : Option γ → γ → Int
  | none => inFlight
  | some c => Function.update inFlight c (inFlight c + 1)

section
variable [DecidableEq ρ] [DecidableEq γ]

/-- `nextTracked` with the lock held. -/
def QueueState.take (s : QueueState ρ γ) (inFlight : Option γ) : QueueState ρ γ :=
  if s.queue.size = 0 then { s with waiting := s.waiting + 1, woken := s.woken - 1 }
  else
    let popped := s.queue.popOldestLocked s.budgets false
    { s with
      queue := popped.queue.signalLocked
      budgets := popped.budgets
      woken := s.woken - 1
      inFlight := countInFlight s.inFlight inFlight
      returned := s.returned ++ [(popped.packet, leaseOf popped.queue.budget inFlight popped.packet)] }

def QueueState.step (s : QueueState ρ γ) : QueueAct ρ γ → Option (QueueState ρ γ)
  | .enqueue payload queuedAt =>
    let offered := s.queue.enqueue s.budgets ⟨payload, queuedAt⟩
    some { s with
      queue := offered.queue
      budgets := offered.budgets
      results := s.results ++ [offered.dropped] }
  | .call => some { s with waiting := s.waiting + 1 }
  | .receive =>
    if s.queue.ready ∧ 0 < s.waiting then
      some { s with
        queue := { s.queue with ready := false }
        waiting := s.waiting - 1
        woken := s.woken + 1 }
    else none
  | .take inFlight => if s.woken = 0 then none else some (s.take inFlight)
  | .cancelled => if s.waiting = 0 then none else some { s with waiting := s.waiting - 1 }
  | .clear =>
    let cleared := s.queue.clear s.budgets
    some { s with queue := cleared.1, budgets := cleared.2 }
  | .close =>
    let closed := s.queue.close s.budgets
    some { s with queue := closed.1, budgets := closed.2 }
  | .others budgets => some { s with budgets := budgets }

/-- A new queue over budgets already in use. -/
def QueueState.initial (maxPackets maxBytes : Int) (budget : Option ρ) (budgets : Budgets ρ)
    (inFlight : γ → Int) : QueueState ρ γ :=
  { queue := newFXPUDPQueueWithBudget maxPackets maxBytes budget
    budgets := budgets
    waiting := 0
    woken := 0
    inFlight := inFlight
    results := []
    returned := [] }

end

/-! ## The list it stands for -/

def bytesOf (packets : List QueuedPacket) : Nat := (packets.map fun p => p.payload.length).sum

/-- A packet fits behind `packets`. -/
def Fits (cap : Nat) (maxBytes : Int) (packet : QueuedPacket) (packets : List QueuedPacket) : Prop :=
  packets.length < cap ∧ (bytesOf packets + packet.payload.length : Int) ≤ maxBytes

instance (cap : Nat) (maxBytes : Int) (packet : QueuedPacket) (packets : List QueuedPacket) :
    Decidable (Fits cap maxBytes packet packets) := inferInstanceAs (Decidable (_ ∧ _))

/-- How many of the oldest packets have to go for `packet` to fit: as few as possible. -/
def shortestDrop (cap : Nat) (maxBytes : Int) (packet : QueuedPacket) (packets : List QueuedPacket) :
    Nat :=
  ((List.range (packets.length + 1)).find? fun k =>
    decide (Fits cap maxBytes packet (packets.drop k))).getD packets.length

structure Limits (ρ : Type u) where
  cap : Nat
  maxBytes : Int
  budget : Option ρ

/-- A bounded list that drops its oldest packets, with what it has answered. -/
structure Fifo (ρ γ : Type u) where
  packets : List QueuedPacket
  closed : Bool
  budgets : Budgets ρ
  inFlight : γ → Int
  results : List Bool
  returned : List (QueuedPacket × Lease ρ γ)

section
variable [DecidableEq ρ] [DecidableEq γ]

/-- What `packet` leaves of the list: `none` where it is not admissible. -/
def Fifo.admitted (l : Limits ρ) (f : Fifo ρ γ) (packet : QueuedPacket) :
    Option (List QueuedPacket × Budgets ρ) :=
  if f.closed ∨ packet.payload.length > l.maxBytes then none
  else
    let k := shortestDrop l.cap l.maxBytes packet f.packets
    (f.budgets.replaceIn l.budget (bytesOf (f.packets.take k)) packet.payload.length).map
      fun budgets => (f.packets.drop k ++ [packet], budgets)

def Fifo.enqueue (l : Limits ρ) (f : Fifo ρ γ) (packet : QueuedPacket) : Fifo ρ γ :=
  let next := (f.admitted l packet).getD (f.packets, f.budgets)
  { f with
    packets := next.1
    budgets := next.2
    results := f.results ++ [decide (next.1 ≠ f.packets ++ [packet])] }

def Fifo.take (l : Limits ρ) (f : Fifo ρ γ) (inFlight : Option γ) : Fifo ρ γ :=
  match f.packets with
  | [] => f
  | packet :: rest =>
    { f with
      packets := rest
      inFlight := countInFlight f.inFlight inFlight
      returned := f.returned ++ [(packet, leaseOf l.budget inFlight packet)] }

/-- All packets leave, and their bytes go back one packet after the other. -/
def Fifo.drain (l : Limits ρ) (f : Fifo ρ γ) : Fifo ρ γ :=
  { f with
    packets := []
    budgets := f.packets.foldl (fun b p => b.releaseTo l.budget p.payload.length) f.budgets }

def Fifo.step (l : Limits ρ) (f : Fifo ρ γ) : QueueAct ρ γ → Fifo ρ γ
  | .enqueue payload queuedAt => f.enqueue l ⟨payload, queuedAt⟩
  | .call => f
  | .receive => f
  | .take inFlight => f.take l inFlight
  | .cancelled => f
  | .clear => f.drain l
  | .close => { f.drain l with closed := true }
  | .others budgets => { f with budgets := budgets }

end

end ForwardX.Udp
