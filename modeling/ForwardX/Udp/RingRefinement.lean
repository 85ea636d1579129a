import Mathlib.Data.List.Sublists
import ForwardX.Udp.RingQueue

/- The ring of `fxpUDPQueue` refines the list queue `Fifo`: its packets, its answers and
   what it does to the budgets are those of the list in every run of its callers, and
   a nonempty queue has its wake-up signal set or a call on its way to set it. -/
namespace ForwardX.Udp
open Wire Transition

universe u

variable {ρ γ : Type u}

/-! ## What a ring holds -/

def RingQueue.contents (q : RingQueue ρ) : List QueuedPacket :=
  RingBuffer.contents .zero q.packets q.head q.size

/-- The head is a slot, the packets fit, and the byte count is theirs. -/
structure RingQueue.Ok (q : RingQueue ρ) : Prop where
  head_lt : q.head < q.packets.length
  size_le : q.size ≤ q.packets.length
  bytes : q.queuedBytes = bytesOf q.contents

@[simp] theorem RingQueue.length_contents (q : RingQueue ρ) : q.contents.length = q.size :=
  RingBuffer.length_contents _ _ _ _

@[simp] theorem bytesOf_nil : bytesOf [] = 0 := rfl

@[simp] theorem bytesOf_cons (p : QueuedPacket) (ps : List QueuedPacket) :
    bytesOf (p :: ps) = p.payload.length + bytesOf ps := by
  simp [bytesOf]

@[simp] theorem bytesOf_append (ps qs : List QueuedPacket) :
    bytesOf (ps ++ qs) = bytesOf ps + bytesOf qs := by
  simp [bytesOf]

theorem bytesOf_take_add_drop (k : Nat) (ps : List QueuedPacket) :
    bytesOf (ps.take k) + bytesOf (ps.drop k) = bytesOf ps := by
  rw [← bytesOf_append, List.take_append_drop]

theorem RingQueue.Ok.new (maxPackets maxBytes : Int) (budget : Option ρ) :
    (newFXPUDPQueueWithBudget maxPackets maxBytes budget).Ok := by
  constructor
  · simp only [newFXPUDPQueueWithBudget, List.length_replicate]
    split <;> omega
  · exact Nat.zero_le _
  · rfl

variable {q : RingQueue ρ}

theorem RingQueue.contents_of_size_zero (h : q.size = 0) : q.contents = [] :=
  List.eq_nil_of_length_eq_zero (by rw [q.length_contents, h])

/-! ## Signals -/

@[simp] theorem RingQueue.signalLocked_contents (q : RingQueue ρ) :
    q.signalLocked.contents = q.contents := by
  unfold RingQueue.signalLocked
  split <;> rfl

@[simp] theorem RingQueue.signalLocked_size (q : RingQueue ρ) : q.signalLocked.size = q.size := by
  unfold RingQueue.signalLocked
  split <;> rfl

theorem RingQueue.Ok.signalLocked (h : q.Ok) : q.signalLocked.Ok := by
  unfold RingQueue.signalLocked
  split
  · exact h
  · exact ⟨h.head_lt, h.size_le, h.bytes⟩

theorem RingQueue.signalLocked_ready (h : 0 < q.size) : q.signalLocked.ready = true := by
  unfold RingQueue.signalLocked
  rw [if_neg (Nat.ne_of_gt h)]

/-- What no operation changes: the slots' number, the limits and the budget. -/
structure SameLimits (q q' : RingQueue ρ) : Prop where
  cap : q'.packets.length = q.packets.length
  maxBytes : q'.maxBytes = q.maxBytes
  budget : q'.budget = q.budget

theorem SameLimits.refl (q : RingQueue ρ) : SameLimits q q := ⟨rfl, rfl, rfl⟩

theorem SameLimits.trans {q₁ q₂ q₃ : RingQueue ρ} (h₁ : SameLimits q₁ q₂) (h₂ : SameLimits q₂ q₃) :
    SameLimits q₁ q₃ :=
  ⟨h₂.cap.trans h₁.cap, h₂.maxBytes.trans h₁.maxBytes, h₂.budget.trans h₁.budget⟩

theorem SameLimits.signalLocked (q : RingQueue ρ) : SameLimits q q.signalLocked := by
  unfold RingQueue.signalLocked
  split <;> exact ⟨rfl, rfl, rfl⟩

@[simp] theorem RingQueue.signalLocked_closed (q : RingQueue ρ) : q.signalLocked.closed = q.closed := by
  unfold RingQueue.signalLocked
  split <;> rfl

theorem RingQueue.getD_contents {k : Nat} (h : k < q.size) : q.contents.drop k =
      q.packets.getD ((q.head + k) % q.packets.length) .zero :: q.contents.drop (k + 1) := by
  have hlt : k < q.contents.length := by rwa [q.length_contents]
  have hget := RingBuffer.getElem?_contents QueuedPacket.zero q.packets q.head h
  have heq : q.contents[k] = q.packets.getD ((q.head + k) % q.packets.length) .zero := by
    have hsome : q.contents[k]? = some q.contents[k] := List.getElem?_eq_getElem hlt
    exact Option.some.inj (hsome.symm.trans hget)
  rw [List.drop_eq_getElem_cons hlt, heq]

def RingQueue.limits (q : RingQueue ρ) : Limits ρ := ⟨q.packets.length, q.maxBytes, q.budget⟩

theorem SameLimits.limits {q q' : RingQueue ρ} (h : SameLimits q q') : q'.limits = q.limits := by
  simp only [RingQueue.limits, h.cap, h.maxBytes, h.budget]

section
variable [DecidableEq ρ]

/-! ## Pops -/

theorem RingQueue.popOldestLocked_spec {packet : QueuedPacket} {rest : List QueuedPacket} (h : q.Ok)
    (hq : q.contents = packet :: rest) (b : Budgets ρ) (releaseBudget : Bool) : ∃ q' : RingQueue ρ,
    q.popOldestLocked b releaseBudget =
      ⟨packet, q', if releaseBudget then b.releaseTo q.budget packet.payload.length else b⟩ ∧
    q'.Ok ∧ q'.contents = rest ∧ SameLimits q q' ∧ q'.closed = q.closed := by
  obtain ⟨n, hn⟩ : ∃ n, q.size = n + 1 := by
    refine ⟨rest.length, ?_⟩
    rw [← q.length_contents, hq, List.length_cons]
  have hsize := h.size_le
  have hhead : q.packets.getD q.head .zero = packet := by
    have hfirst := RingBuffer.head_contents QueuedPacket.zero n h.head_lt
    have : q.contents.head? = some (q.packets.getD q.head .zero) := by
      rw [RingQueue.contents, hn, hfirst]
    rw [hq] at this
    exact (Option.some.inj this).symm
  have hpop := RingBuffer.contents_pop QueuedPacket.zero n (by omega) h.head_lt
  have hrest : RingBuffer.contents .zero (q.packets.set q.head .zero)
      ((q.head + 1) % q.packets.length) (q.size - 1) = rest := by
    have htail : (RingBuffer.contents QueuedPacket.zero q.packets q.head (n + 1)).tail = rest := by
      rw [← hn]
      exact congrArg List.tail hq
    rw [hn, Nat.add_sub_cancel, hpop, htail]
  have hbytes : q.queuedBytes = packet.payload.length + bytesOf rest := by
    rw [h.bytes, hq, bytesOf_cons]
    exact Int.natCast_add _ _
  refine ⟨(q.popOldestLocked b releaseBudget).queue, ?_, ⟨?_, ?_, ?_⟩, ?_,
    ⟨List.length_set, rfl, rfl⟩, rfl⟩
  · unfold RingQueue.popOldestLocked
    rw [hhead]
  · show (q.head + 1) % q.packets.length < (q.packets.set q.head .zero).length
    rw [List.length_set]
    exact Nat.mod_lt _ (Nat.zero_lt_of_lt h.head_lt)
  · show q.size - 1 ≤ (q.packets.set q.head .zero).length
    rw [List.length_set]
    omega
  · -- the byte count never goes below zero here
    have hrest' : (q.popOldestLocked b releaseBudget).queue.contents = rest := hrest
    rw [hrest', RingQueue.popOldestLocked]
    dsimp only
    rw [hhead, if_neg (by omega)]
    omega
  · exact hrest

/-- The releases of `n` pops. -/
def releaseAll (budget : Option ρ) (releaseBudget : Bool) (packets : List QueuedPacket)
    (b : Budgets ρ) : Budgets ρ :=
  if releaseBudget then packets.foldl (fun b p => b.releaseTo budget p.payload.length) b else b

theorem RingQueue.dropOldest_spec (releaseBudget : Bool) (n : Nat) (h : q.Ok) (hn : n ≤ q.size) (b : Budgets ρ) :
    ∃ q' : RingQueue ρ,
    RingQueue.dropOldest releaseBudget n q b =
      (q', releaseAll q.budget releaseBudget (q.contents.take n) b) ∧
    q'.Ok ∧ q'.contents = q.contents.drop n ∧ SameLimits q q' ∧ q'.closed = q.closed := by
  induction n generalizing q b with
  | zero =>
    refine ⟨q, ?_, h, rfl, SameLimits.refl q, rfl⟩
    cases releaseBudget <;> rfl
  | succ n ih =>
    cases hq : q.contents with
    | nil =>
      have := q.length_contents
      rw [hq, List.length_nil] at this
      omega
    | cons packet rest =>
      obtain ⟨q₁, hpop, hok, hrest, hlimits, hclosed⟩ := RingQueue.popOldestLocked_spec h hq b releaseBudget
      have hsize : q₁.size + 1 = q.size := by
        rw [← q₁.length_contents, ← q.length_contents, hrest, hq, List.length_cons]
      obtain ⟨q₂, hdrop, hok₂, hrest₂, hlimits₂, hclosed₂⟩ := ih hok (by omega)
        (if releaseBudget then b.releaseTo q.budget packet.payload.length else b)
      refine ⟨q₂, ?_, hok₂, ?_, hlimits.trans hlimits₂, hclosed₂.trans hclosed⟩
      · rw [RingQueue.dropOldest, hpop]
        dsimp only
        rw [hdrop, hrest, hlimits.budget]
        cases releaseBudget <;> rfl
      · rw [hrest₂, hrest]
        rfl

end

/-! ## The plan of `enqueue` -/

/-- What the first loop of `enqueue` has found after it: the packets before
`dropCount` have to go, and behind them `packet` fits, if anything is left. -/
structure RingQueue.Planned (q : RingQueue ρ) (packet : QueuedPacket) (plan : DropPlan) : Prop where
  count : plan.dropCount + plan.remainingPackets = q.size
  released : plan.releaseBytes = bytesOf (q.contents.take plan.dropCount)
  remaining : plan.remainingBytes = bytesOf (q.contents.drop plan.dropCount)
  tight : ∀ k < plan.dropCount,
    ¬ Fits q.packets.length q.maxBytes packet (q.contents.drop k)
  fits : 0 < plan.remainingPackets →
    Fits q.packets.length q.maxBytes packet (q.contents.drop plan.dropCount)

theorem RingQueue.plan_planned (packet : QueuedPacket) :
    ∀ (remaining dropCount releaseBytes : Nat) (remainingBytes : Int),
      dropCount + remaining = q.size →
      releaseBytes = bytesOf (q.contents.take dropCount) →
      remainingBytes = bytesOf (q.contents.drop dropCount) →
      (∀ k < dropCount, ¬ Fits q.packets.length q.maxBytes packet (q.contents.drop k)) →
      q.Planned packet (q.plan packet.payload.length remaining dropCount releaseBytes remainingBytes) := by
  intro remaining
  induction remaining with
  | zero =>
    intro dropCount releaseBytes remainingBytes hcount hreleased hremaining htight
    exact ⟨hcount, hreleased, hremaining, htight, fun h => absurd h (Nat.lt_irrefl 0)⟩
  | succ remaining ih =>
    intro dropCount releaseBytes remainingBytes hcount hreleased hremaining htight
    have hlt : dropCount < q.size := by omega
    have hnext := RingQueue.getD_contents hlt
    have hlength : (q.contents.drop dropCount).length = remaining + 1 := by
      rw [List.length_drop, q.length_contents]
      omega
    have hbytes := bytesOf_take_add_drop dropCount q.contents
    have hbytes' := bytesOf_take_add_drop (dropCount + 1) q.contents
    have hcons := congrArg bytesOf hnext
    rw [bytesOf_cons] at hcons
    rw [RingQueue.plan]
    split
    next hfull =>
      apply ih
      · omega
      · omega
      · omega
      · intro k hk
        obtain hlt | rfl := Nat.lt_succ_iff_lt_or_eq.mp hk
        · exact htight k hlt
        · intro hfits
          have hcap := hfits.1
          have hmax := hfits.2
          rw [hlength] at hcap
          omega
    next hroom =>
      refine ⟨hcount, hreleased, hremaining, htight, fun _ => ⟨?_, ?_⟩⟩
      · rw [hlength]
        omega
      · dsimp only
        omega

/-! ## `enqueue` and the list -/

theorem shortestDrop_eq {cap : Nat} {maxBytes : Int} {packet : QueuedPacket}
    {packets : List QueuedPacket} {k : Nat} (hk : k ≤ packets.length)
    (hfits : Fits cap maxBytes packet (packets.drop k))
    (htight : ∀ j < k, ¬ Fits cap maxBytes packet (packets.drop j)) :
    shortestDrop cap maxBytes packet packets = k := by
  have hfind : (List.range (packets.length + 1)).find?
      (fun k => decide (Fits cap maxBytes packet (packets.drop k))) = some k := by
    rw [List.find?_range_eq_some]
    refine ⟨decide_eq_true hfits, List.mem_range.mpr (by omega), fun j hj => ?_⟩
    simp [htight j hj]
  rw [shortestDrop, hfind, Option.getD_some]

/-- The list queue a ring and the state around it stand for. -/
def QueueState.toFifo (s : QueueState ρ γ) : Fifo ρ γ :=
  { packets := s.queue.contents
    closed := s.queue.closed
    budgets := s.budgets
    inFlight := s.inFlight
    results := s.results
    returned := s.returned }

section
variable [DecidableEq ρ]

/-- What `enqueue` did: refused the packet and touched nothing, or dropped the shortest
prefix and stored it. -/
theorem RingQueue.enqueue_spec (h : q.Ok) (b : Budgets ρ) (packet : QueuedPacket) (f : Fifo ρ γ)
    (hf : f.packets = q.contents) (hc : f.closed = q.closed) (hb : f.budgets = b) :
    (f.admitted q.limits packet = none ∧ q.enqueue b packet = ⟨true, q, b⟩) ∨
    ∃ (q' : RingQueue ρ) (b' : Budgets ρ) (k : Nat), k ≤ q.size ∧
      f.admitted q.limits packet = some (q.contents.drop k ++ [packet], b') ∧
      q.enqueue b packet = ⟨decide (k > 0), q', b'⟩ ∧
      q'.contents = q.contents.drop k ++ [packet] ∧ q'.Ok ∧ SameLimits q q' ∧
      q'.closed = q.closed ∧ q'.ready = true := by
  subst hb
  unfold Fifo.admitted RingQueue.enqueue RingQueue.limits
  rw [hf, hc]
  by_cases hclosed : q.closed = true
  · left
    rw [if_pos (.inl hclosed), if_pos hclosed]
    exact ⟨rfl, rfl⟩
  rw [if_neg hclosed]
  dsimp only
  by_cases hlarge : (packet.payload.length : Int) > q.maxBytes
  · left
    rw [if_pos (.inr hlarge), if_pos hlarge]
    exact ⟨rfl, rfl⟩
  rw [if_neg hlarge, if_neg (not_or.mpr ⟨hclosed, hlarge⟩)]
  have hplanned : q.Planned packet (q.plan packet.payload.length q.size 0 0 q.queuedBytes) := by
    apply RingQueue.plan_planned packet q.size 0 0 q.queuedBytes
    · omega
    · rfl
    · exact h.bytes
    · intro k hk
      omega
  generalize q.plan packet.payload.length q.size 0 0 q.queuedBytes = plan at hplanned
  have hcap : 0 < q.packets.length := Nat.zero_lt_of_lt h.head_lt
  -- with everything dropped a packet no larger than `maxBytes` fits
  have hfits : Fits q.packets.length q.maxBytes packet (q.contents.drop plan.dropCount) := by
    obtain hzero | hpos := Nat.eq_zero_or_pos plan.remainingPackets
    · have hcount := hplanned.count
      rw [List.drop_eq_nil_of_le (by rw [q.length_contents]; omega)]
      refine ⟨hcap, ?_⟩
      rw [bytesOf_nil]
      omega
    · exact hplanned.fits hpos
  have hremaining : plan.remainingPackets = (q.contents.drop plan.dropCount).length := by
    have := hplanned.count
    rw [List.length_drop, q.length_contents]
    omega
  have hle : plan.dropCount ≤ q.size := by
    have := hplanned.count
    omega
  have hshortest : shortestDrop q.packets.length q.maxBytes packet q.contents = plan.dropCount :=
    shortestDrop_eq (by rwa [q.length_contents]) hfits hplanned.tight
  have hroom : ¬ (plan.remainingPackets ≥ q.packets.length ∨
      plan.remainingBytes + packet.payload.length > q.maxBytes) := by
    have h₁ := hfits.1
    have h₂ := hfits.2
    have h₃ := hplanned.remaining
    omega
  rw [if_neg hroom, hshortest, ← hplanned.released]
  cases hreplace : f.budgets.replaceIn q.budget plan.releaseBytes packet.payload.length with
  | none => exact .inl ⟨rfl, rfl⟩
  | some b' =>
    right
    obtain ⟨q₁, hdrop, hok, hrest, hlimits, hclosed₁⟩ :=
      RingQueue.dropOldest_spec false plan.dropCount h hle b'
    dsimp only
    rw [hdrop]
    dsimp only [releaseAll]
    have hsize : q₁.size < q₁.packets.length := by
      rw [← q₁.length_contents, hrest, hlimits.cap]
      exact hfits.1
    have hpush := RingBuffer.contents_push QueuedPacket.zero q₁.head hsize packet
    refine ⟨_, b', plan.dropCount, hle, rfl, rfl, ?_, ?_, ?_, ?_, ?_⟩
    · rw [RingQueue.signalLocked_contents, ← hrest]
      exact hpush
    · refine RingQueue.Ok.signalLocked ⟨?_, ?_, ?_⟩
      · simpa using hok.head_lt
      · rw [List.length_set]
        exact hsize
      · have hbytes := hok.bytes
        show q₁.queuedBytes + packet.payload.length = (bytesOf (RingBuffer.contents .zero _ _ _) : Int)
        rw [hpush, bytesOf_append, bytesOf_cons, bytesOf_nil, hbytes]
        exact (Int.natCast_add _ _).symm
    · refine hlimits.trans (SameLimits.trans ?_ (SameLimits.signalLocked _))
      exact ⟨List.length_set, rfl, rfl⟩
    · rw [RingQueue.signalLocked_closed]
      exact hclosed₁
    · exact RingQueue.signalLocked_ready (Nat.succ_pos _)

theorem drop_append_ne {ps : List QueuedPacket} {k : Nat} (hk : k ≤ ps.length) (p : QueuedPacket) :
    ps.drop k ++ [p] ≠ ps ++ [p] ↔ k > 0 := by
  constructor
  · intro hne
    by_contra hzero
    obtain rfl : k = 0 := by omega
    exact hne rfl
  · intro hpos heq
    have := congrArg List.length heq
    simp only [List.length_append, List.length_drop] at this
    omega

theorem ne_append_singleton (ps : List QueuedPacket) (p : QueuedPacket) : ps ≠ ps ++ [p] := by
  intro heq
  have := congrArg List.length heq
  simp at this

variable {l : Limits ρ}

theorem Fifo.enqueue_refused {f : Fifo ρ γ} {p : QueuedPacket} (h : f.admitted l p = none) :
    f.enqueue l p = { f with results := f.results ++ [true] } := by
  unfold Fifo.enqueue
  rw [h, Option.getD_none]
  dsimp only
  rw [decide_eq_true (ne_append_singleton f.packets p)]

theorem Fifo.enqueue_stored {f : Fifo ρ γ} {p : QueuedPacket} {k : Nat} {b : Budgets ρ} (hk : k ≤ f.packets.length)
    (h : f.admitted l p = some (f.packets.drop k ++ [p], b)) : f.enqueue l p = { f with
      packets := f.packets.drop k ++ [p]
      budgets := b
      results := f.results ++ [decide (k > 0)] } := by
  unfold Fifo.enqueue
  simp only [h, Option.getD_some, drop_append_ne hk p]

theorem RingQueue.enqueue_dropped (h : q.Ok) (b : Budgets ρ) (packet : QueuedPacket) :
    (q.enqueue b packet).dropped = true ↔
      (q.enqueue b packet).queue.contents ≠ q.contents ++ [packet] := by
  obtain ⟨-, hrefused⟩ | ⟨q', b', k, hk, -, hstored, hcontents, -⟩ :=
    RingQueue.enqueue_spec (γ := PUnit) h b packet ⟨q.contents, q.closed, b, fun _ => 0, [], []⟩ rfl rfl rfl
  · rw [hrefused]
    exact iff_of_true rfl (ne_append_singleton _ _)
  · rw [hstored]
    dsimp only
    rw [hcontents, decide_eq_true_eq]
    exact (drop_append_ne (by rwa [q.length_contents]) packet).symm

/-! ## Every step -/

theorem RingQueue.dropOldest_all (h : q.Ok) (b : Budgets ρ) : ∃ q' : RingQueue ρ,
    RingQueue.dropOldest true q.size q b =
      (q', q.contents.foldl (fun b p => b.releaseTo q.budget p.payload.length) b) ∧
    q'.Ok ∧ q'.size = 0 ∧ SameLimits q q' ∧ q'.closed = q.closed := by
  obtain ⟨q', hdrop, hok, hrest, hlimits, hclosed⟩ :=
    RingQueue.dropOldest_spec true q.size h (Nat.le_refl _) b
  have htake : q.contents.take q.size = q.contents := List.take_of_length_le (by rw [q.length_contents])
  refine ⟨q', ?_, hok, ?_, hlimits, hclosed⟩
  · rw [hdrop, htake]
    rfl
  · rw [← q'.length_contents, hrest, List.length_drop, q.length_contents, Nat.sub_self]

/-- The ring is well formed, has the limits it was built with, and wakes its consumers:
while packets are queued `ready` is set, or a call that received it has yet to lock. -/
structure QueueInv (l : Limits ρ) (s : QueueState ρ γ) : Prop where
  ok : s.queue.Ok
  limits : s.queue.limits = l
  wake : 0 < s.queue.size → s.queue.ready = true ∨ 0 < s.woken

variable [DecidableEq γ]

/-- The call that locks the queue sets `ready` again for what it leaves. -/
theorem QueueState.take_ready {s : QueueState ρ γ} {inFlight : Option γ}
    (h : 0 < (s.take inFlight).queue.size) : (s.take inFlight).queue.ready = true := by
  unfold QueueState.take at h ⊢
  split
  next hzero =>
    rw [if_pos hzero] at h
    exact absurd hzero (Nat.ne_of_gt h)
  next hsize =>
    rw [if_neg hsize] at h
    exact RingQueue.signalLocked_ready (by simpa using h)

theorem QueueState.take_step {s : QueueState ρ γ} (h : QueueInv l s) (inFlight : Option γ) :
    QueueInv l (s.take inFlight) ∧ (s.take inFlight).toFifo = s.toFifo.take l inFlight := by
  have hready : 0 < (s.take inFlight).queue.size → (s.take inFlight).queue.ready = true :=
    QueueState.take_ready
  cases hq : s.queue.contents with
  | nil =>
    have hzero : s.queue.size = 0 := by rw [← s.queue.length_contents, hq, List.length_nil]
    have htake : s.take inFlight = { s with waiting := s.waiting + 1, woken := s.woken - 1 } := by
      rw [QueueState.take, if_pos hzero]
    rw [htake]
    refine ⟨⟨h.ok, h.limits, fun hpos => absurd hzero (Nat.ne_of_gt hpos)⟩, ?_⟩
    simp only [Fifo.take, QueueState.toFifo, hq]
  | cons packet rest =>
    have hsize : s.queue.size ≠ 0 := by
      rw [← s.queue.length_contents, hq, List.length_cons]
      omega
    obtain ⟨q', hpop, hok, hrest, hlimits, hclosed⟩ :=
      RingQueue.popOldestLocked_spec h.ok hq s.budgets false
    have hbudget : q'.budget = l.budget := by
      rw [hlimits.budget, ← h.limits]
      rfl
    refine ⟨⟨?_, ?_, fun hpos => .inl (hready hpos)⟩, ?_⟩
    · rw [QueueState.take, if_neg hsize, hpop]
      exact hok.signalLocked
    · rw [QueueState.take, if_neg hsize, hpop]
      exact (hlimits.trans (SameLimits.signalLocked q')).limits.trans h.limits
    · rw [QueueState.take, if_neg hsize, hpop]
      simp [Fifo.take, QueueState.toFifo, hq, hrest, hclosed, hbudget]

theorem QueueState.step_refines {s s' : QueueState ρ γ} {a : QueueAct ρ γ} (hs : s.step a = some s')
    (h : QueueInv l s) :
    QueueInv l s' ∧ s'.toFifo = s.toFifo.step l a := by
  cases a with
  | enqueue payload queuedAt =>
    obtain rfl := Option.some.inj hs
    obtain ⟨hadmitted, hrefused⟩ | ⟨q', b', k, hk, hadmitted, hstored, hcontents, hok, hlimits, hclosed, hready⟩ :=
      RingQueue.enqueue_spec h.ok s.budgets ⟨payload, queuedAt⟩ s.toFifo rfl rfl rfl
    · rw [h.limits] at hadmitted
      rw [hrefused]
      refine ⟨⟨h.ok, h.limits, h.wake⟩, ?_⟩
      show _ = s.toFifo.enqueue l ⟨payload, queuedAt⟩
      rw [Fifo.enqueue_refused hadmitted]
      rfl
    · rw [h.limits] at hadmitted
      rw [hstored]
      refine ⟨⟨hok, hlimits.limits.trans h.limits, fun _ => .inl hready⟩, ?_⟩
      show _ = s.toFifo.enqueue l ⟨payload, queuedAt⟩
      rw [Fifo.enqueue_stored (f := s.toFifo) (hk.trans_eq s.queue.length_contents.symm) hadmitted]
      simp only [QueueState.toFifo, hcontents, hclosed]
  | call =>
    obtain rfl := Option.some.inj hs
    exact ⟨⟨h.ok, h.limits, h.wake⟩, rfl⟩
  | receive =>
    simp only [QueueState.step, Option.ite_none_right_eq_some, Option.some.injEq] at hs
    obtain ⟨-, rfl⟩ := hs
    exact ⟨⟨⟨h.ok.head_lt, h.ok.size_le, h.ok.bytes⟩, h.limits, fun _ => .inr (Nat.succ_pos _)⟩, rfl⟩
  | take inFlight =>
    simp only [QueueState.step, Option.ite_none_left_eq_some, Option.some.injEq] at hs
    obtain ⟨-, rfl⟩ := hs
    exact QueueState.take_step h inFlight
  | cancelled =>
    simp only [QueueState.step, Option.ite_none_left_eq_some, Option.some.injEq] at hs
    obtain ⟨-, rfl⟩ := hs
    exact ⟨⟨h.ok, h.limits, h.wake⟩, rfl⟩
  | clear =>
    obtain rfl := Option.some.inj hs
    obtain ⟨q', hdrop, hok, hzero, hlimits, hclosed⟩ := RingQueue.dropOldest_all h.ok s.budgets
    have hbudget : s.queue.budget = l.budget := congrArg Limits.budget h.limits
    have hempty : ∀ closed, RingQueue.contents { q' with closed := closed, ready := false } = [] :=
      fun _ => RingQueue.contents_of_size_zero hzero
    simp only [RingQueue.clear, hdrop]
    refine ⟨⟨⟨hok.head_lt, hok.size_le, hok.bytes⟩, hlimits.limits.trans h.limits,
      fun hpos => absurd hzero (Nat.ne_of_gt hpos)⟩, ?_⟩
    simp only [Fifo.step, Fifo.drain, QueueState.toFifo, hempty, hclosed, ← hbudget]
  | close =>
    obtain rfl := Option.some.inj hs
    have hok' : RingQueue.Ok { s.queue with closed := true } := ⟨h.ok.head_lt, h.ok.size_le, h.ok.bytes⟩
    obtain ⟨q', hdrop, hok, hzero, hlimits, hclosed⟩ := RingQueue.dropOldest_all hok' s.budgets
    have hbudget : s.queue.budget = l.budget := congrArg Limits.budget h.limits
    have hempty : ∀ closed, RingQueue.contents { q' with closed := closed, ready := false } = [] :=
      fun _ => RingQueue.contents_of_size_zero hzero
    simp only [RingQueue.close, hdrop]
    refine ⟨⟨⟨hok.head_lt, hok.size_le, hok.bytes⟩, hlimits.limits.trans h.limits,
      fun hpos => absurd hzero (Nat.ne_of_gt hpos)⟩, ?_⟩
    simp only [Fifo.step, Fifo.drain, QueueState.toFifo, hempty, hclosed, ← hbudget]
    rfl
  | others budgets =>
    obtain rfl := Option.some.inj hs
    exact ⟨⟨h.ok, h.limits, h.wake⟩, rfl⟩

/-! ## Every run -/

/-- The packets offered by the calls of `enqueue`, in their order. -/
def offeredBy (acts : List (QueueAct ρ γ)) : List QueuedPacket :=
  acts.filterMap fun
    | .enqueue payload queuedAt => some ⟨payload, queuedAt⟩
    | _ => none

def Fifo.initial (budgets : Budgets ρ) (inFlight : γ → Int) : Fifo ρ γ :=
  ⟨[], false, budgets, inFlight, [], []⟩

/-- The limits `newFXPUDPQueueWithBudget` gives a queue. -/
def newLimits (maxPackets maxBytes : Int) (budget : Option ρ) : Limits ρ :=
  ⟨if maxPackets ≤ 0 then 1 else maxPackets.toNat, if maxBytes ≤ 0 then 1 else maxBytes, budget⟩

omit [DecidableEq ρ] [DecidableEq γ] in
theorem QueueInv.initial (maxPackets maxBytes : Int) (budget : Option ρ) (budgets : Budgets ρ)
    (inFlight : γ → Int) : QueueInv (newLimits maxPackets maxBytes budget)
    (QueueState.initial maxPackets maxBytes budget budgets inFlight) where
  ok := RingQueue.Ok.new maxPackets maxBytes budget
  limits := by
    simp [QueueState.initial, newFXPUDPQueueWithBudget, RingQueue.limits, newLimits]
  wake h := absurd h (Nat.lt_irrefl 0)

theorem QueueInv.run {s s' : QueueState ρ γ} {acts : List (QueueAct ρ γ)}
    (h : Run (Steps.ofFn QueueState.step) s acts s') (hs : QueueInv l s) :
    QueueInv l s' ∧ s'.toFifo = acts.foldl (Fifo.step l) s.toFifo := by
  induction h with
  | nil => exact ⟨hs, rfl⟩
  | snoc _ hlast ih =>
    obtain ⟨hinv, hfifo⟩ := ih
    obtain ⟨hinv', hfifo'⟩ := QueueState.step_refines hlast hinv
    refine ⟨hinv', ?_⟩
    rw [List.foldl_append, List.foldl_cons, List.foldl_nil, ← hfifo]
    exact hfifo'

def Fifo.served (f : Fifo ρ γ) : List QueuedPacket := f.returned.map Prod.fst ++ f.packets

theorem Fifo.served_step (l : Limits ρ) (f : Fifo ρ γ) (a : QueueAct ρ γ) :
    (f.step l a).served.Sublist (f.served ++ offeredBy [a]) := by
  have hkept : f.served.Sublist (f.served ++ offeredBy [a]) := List.sublist_append_left _ _
  cases a with
  | enqueue payload queuedAt =>
    show (f.enqueue l ⟨payload, queuedAt⟩).served.Sublist (f.served ++ [⟨payload, queuedAt⟩])
    cases hadmitted : f.admitted l ⟨payload, queuedAt⟩ with
    | none =>
      rw [Fifo.enqueue_refused hadmitted]
      exact List.sublist_append_left _ _
    | some next =>
      have hnext : ∃ k, next.1 = f.packets.drop k ++ [⟨payload, queuedAt⟩] := by
        simp only [Fifo.admitted, Option.ite_none_left_eq_some, Option.map_eq_some_iff] at hadmitted
        obtain ⟨-, budgets, -, rfl⟩ := hadmitted
        exact ⟨_, rfl⟩
      obtain ⟨k, hk⟩ := hnext
      have hserved : (f.enqueue l ⟨payload, queuedAt⟩).served =
          f.returned.map Prod.fst ++ (f.packets.drop k ++ [⟨payload, queuedAt⟩]) := by
        simp only [Fifo.enqueue, Fifo.served, hadmitted, Option.getD_some, hk]
      rw [hserved, Fifo.served, List.append_assoc]
      exact ((List.drop_sublist k f.packets).append (List.Sublist.refl _)).append_left _
  | take inFlight =>
    show (f.take l inFlight).served.Sublist _
    unfold Fifo.take
    split
    next => exact hkept
    next packet rest hpackets =>
      refine List.Sublist.trans ?_ hkept
      simp [Fifo.served, hpackets]
  | clear =>
    refine List.Sublist.trans ?_ hkept
    simp [Fifo.step, Fifo.drain, Fifo.served]
  | close =>
    refine List.Sublist.trans ?_ hkept
    simp [Fifo.step, Fifo.drain, Fifo.served]
  | call => exact hkept
  | receive => exact hkept
  | cancelled => exact hkept
  | others budgets => exact hkept

theorem Fifo.served_run (l : Limits ρ) (f : Fifo ρ γ) (acts : List (QueueAct ρ γ)) :
    (acts.foldl (Fifo.step l) f).served.Sublist (f.served ++ offeredBy acts) := by
  induction acts generalizing f with
  | nil => simp [offeredBy]
  | cons a acts ih =>
    have hsplit : offeredBy (a :: acts) = offeredBy [a] ++ offeredBy acts := by
      simp only [offeredBy, ← List.filterMap_append, List.singleton_append]
    rw [List.foldl_cons, hsplit, ← List.append_assoc]
    exact (ih (f.step l a)).trans ((Fifo.served_step l f a).append_right _)

/-- In every run of its callers, over any budgets, the ring holds and answers what the
bounded list does; what it hands out, and then what it holds, is a selection of what was
offered, in order; `enqueue` reports whether a packet was lost; and a nonempty queue has
`ready` set or a call that has yet to lock it, which sets `ready` for what it leaves. -/
theorem fxp_udp_queue_refines_fifo {maxPackets maxBytes : Int} {budget : Option ρ}
    {budgets : Budgets ρ} {inFlight : γ → Int} {acts : List (QueueAct ρ γ)} {s : QueueState ρ γ}
    (h : Run (Steps.ofFn QueueState.step)
      (QueueState.initial maxPackets maxBytes budget budgets inFlight) acts s) :
    s.toFifo = acts.foldl (Fifo.step (newLimits maxPackets maxBytes budget))
      (Fifo.initial budgets inFlight) ∧
    (s.returned.map Prod.fst ++ s.queue.contents).Sublist (offeredBy acts) ∧
    (∀ packet, (s.queue.enqueue s.budgets packet).dropped = true ↔
      (s.queue.enqueue s.budgets packet).queue.contents ≠ s.queue.contents ++ [packet]) ∧
    (0 < s.queue.size → s.queue.ready = true ∨ 0 < s.woken) ∧
    (∀ counter, 0 < (s.take counter).queue.size → (s.take counter).queue.ready = true) := by
  obtain ⟨hinv, hfifo⟩ := (QueueInv.initial maxPackets maxBytes budget budgets inFlight).run h
  have hinitial : (QueueState.initial maxPackets maxBytes budget budgets inFlight).toFifo =
      Fifo.initial budgets inFlight := by
    simp [QueueState.initial, QueueState.toFifo, Fifo.initial, newFXPUDPQueueWithBudget,
      RingQueue.contents]
  rw [hinitial] at hfifo
  refine ⟨hfifo, ?_, fun packet => RingQueue.enqueue_dropped hinv.ok s.budgets packet, hinv.wake,
    fun counter => QueueState.take_ready⟩
  have hserved := Fifo.served_run (newLimits maxPackets maxBytes budget)
    (Fifo.initial budgets inFlight) acts
  rw [← hfifo] at hserved
  simpa [Fifo.served, Fifo.initial, QueueState.toFifo] using hserved

end

/-- A queue of one slot: an empty packet takes the place of an older one, is taken, and
is followed by a third. -/
def oneSlotActs : List (QueueAct Unit Unit) :=
  [.call, .enqueue [1, 2] 10, .enqueue [] 20, .receive, .take (some ()), .enqueue [3] 30]

def oneSlotState : QueueState Unit Unit :=
  QueueState.initial 0 4 (some ()) ⟨⟨8, 0⟩, fun _ => ⟨8, 0⟩, false⟩ (fun _ => 0)

theorem one_slot_queue_refines_fifo : ∃ s,
    Run (Steps.ofFn QueueState.step) oneSlotState oneSlotActs s ∧
    s.results = [false, true, false] ∧ s.queue.contents = [⟨[3], 30⟩] ∧
    s.toFifo = oneSlotActs.foldl (Fifo.step (newLimits 0 4 (some ())))
      (Fifo.initial oneSlotState.budgets oneSlotState.inFlight) := by
  have hrun : (exec QueueState.step oneSlotState oneSlotActs).any (fun s =>
      s.results = [false, true, false] ∧ s.queue.contents = [⟨[3], 30⟩]) = true := by
    decide +kernel
  obtain ⟨s, hs, htest⟩ := (Option.any_eq_true _ _).mp hrun
  have htest := of_decide_eq_true htest
  have hsteps := exec_run hs
  exact ⟨s, hsteps, htest.1, htest.2, (fxp_udp_queue_refines_fifo hsteps).1⟩

end ForwardX.Udp
