import ForwardX.Lib.Tally
import ForwardX.Lib.Transition
import ForwardX.Udp.Queue

/- What the byte budgets hold is what the queues, the leases and the reassemblers
   hold of them. `owed s r` is the sum of the bytes queued under rule `r`, of the leases
   of `r` whose `done` has not released them, and of the pending assemblies bound to
   `r`. Every step moves a budget and `owed` by the same amount (`Balanced`), so a
   release never asks for more than is there. -/
namespace ForwardX.Udp
open Wire Transition

universe u

variable {ρ κ ν γ : Type u}

/-! ## A balanced budget -/

/-- The budgets hold exactly `owed`, within their limits, and no release was clamped. -/
structure Balanced [Fintype ρ] (b : Budgets ρ) (owed : ρ → Int) : Prop where
  process : b.process.used = ∑ r, (b.rules r).used
  rules : ∀ r, (b.rules r).used = owed r
  nonneg : ∀ r, 0 ≤ (b.rules r).used
  within : ∀ r, (b.rules r).used ≤ (b.rules r).limit
  processWithin : b.process.used ≤ b.process.limit
  unclamped : b.clamped = false

theorem Balanced.congr [Fintype ρ] {b : Budgets ρ} {owed owed' : ρ → Int} (h : Balanced b owed)
    (he : ∀ r, owed r = owed' r) : Balanced b owed' :=
  { h with rules := fun r => (h.rules r).trans (he r) }

theorem Balanced.process_nonneg [Fintype ρ] {b : Budgets ρ} {owed : ρ → Int} (h : Balanced b owed) :
    0 ≤ b.process.used := by
  rw [h.process]
  exact Finset.sum_nonneg (fun r _ => h.nonneg r)

variable [DecidableEq ρ]

/-- `n` bytes on the account of `budget`, as rule `r` sees them. -/
def charge (budget : Option ρ) (n : Int) (r : ρ) : Int := if budget = some r then n else 0

@[simp] theorem charge_none (n : Int) (r : ρ) : charge none n r = 0 := by simp [charge]

theorem charge_nonneg {n : Int} (h : 0 ≤ n) (budget : Option ρ) (r : ρ) : 0 ≤ charge budget n r := by
  unfold charge
  split
  · exact h
  · exact Int.le_refl 0

theorem charge_add (budget : Option ρ) (m n : Int) (r : ρ) :
    charge budget (m + n) r = charge budget m r + charge budget n r := by
  unfold charge
  split
  · rfl
  · rfl

theorem charge_sub (budget : Option ρ) (m n : Int) (r : ρ) :
    charge budget (m - n) r = charge budget m r - charge budget n r := by
  unfold charge
  split
  · rfl
  · rfl

@[simp] theorem charge_zero (budget : Option ρ) (r : ρ) : charge budget 0 r = 0 := by
  unfold charge
  split
  · rfl
  · rfl

section
variable [Fintype ρ]

namespace Balanced
variable {b b' : Budgets ρ} {owed : ρ → Int}

theorem move (h : Balanced b owed) {r : ρ} {d : Int} (h₀ : 0 ≤ (b.rules r).used + d)
    (h₁ : (b.rules r).used + d ≤ (b.rules r).limit) (h₂ : b.process.used + d ≤ b.process.limit) :
    Balanced (b.setUsed r (b.process.used + d) ((b.rules r).used + d))
      (fun r' => owed r' + charge (some r) d r') := by
  have hrule : ∀ r', ((b.setUsed r (b.process.used + d) ((b.rules r).used + d)).rules r').used
      = (b.rules r').used + charge (some r) d r' := by
    intro r'
    unfold Budgets.setUsed charge
    by_cases hr : r' = r
    · subst hr
      simp
    · have hne : ¬ some r = some r' := by simpa using fun h' => hr (Eq.symm h')
      simp [Function.update_of_ne hr, hne]
  have hlimit : ∀ r', ((b.setUsed r (b.process.used + d) ((b.rules r).used + d)).rules r').limit
      = (b.rules r').limit := by
    intro r'
    unfold Budgets.setUsed
    by_cases hr : r' = r
    · subst hr
      simp
    · simp [Function.update_of_ne hr]
  refine ⟨?_, ?_, ?_, ?_, h₂, h.unclamped⟩
  · have hsum := Tally.sum_update (fun x : Budget => x.used) b.rules r
      { b.rules r with used := (b.rules r).used + d }
    calc b.process.used + d
        = ∑ r', (b.rules r').used + ((b.rules r).used + d - (b.rules r).used) := by
          rw [h.process]; ring
      _ = ∑ r', ((b.setUsed r (b.process.used + d) ((b.rules r).used + d)).rules r').used :=
          hsum.symm
  · intro r'
    rw [hrule, h.rules]
  · intro r'
    by_cases hr : r' = r
    · subst hr
      rw [hrule]
      simpa [charge] using h₀
    · have hne : ¬ some r = some r' := by simpa using fun h' => hr (Eq.symm h')
      rw [hrule]
      simpa [charge, hne] using h.nonneg r'
  · intro r'
    rw [hrule, hlimit]
    by_cases hr : r' = r
    · subst hr
      simpa [charge] using h₁
    · have hne : ¬ some r = some r' := by simpa using fun h' => hr (Eq.symm h')
      simpa [charge, hne] using h.within r'

theorem reserveFrom (h : Balanced b owed) {budget : Option ρ} {n : Nat}
    (hr : b.reserveFrom budget n = some b') :
    Balanced b' (fun r => owed r + charge budget n r) := by
  cases budget with
  | none =>
    obtain rfl := Option.some.inj hr
    exact h.congr (by simp)
  | some r =>
    simp only [Budgets.reserveFrom, Budgets.reserve] at hr
    split at hr
    · rename_i hn
      obtain rfl := Option.some.inj hr
      exact h.congr (by simp [hn])
    split at hr
    · cases hr
    · rename_i hroom
      obtain rfl := Option.some.inj hr
      have := h.nonneg r
      exact h.move (by omega) (by omega) (by omega)

theorem replaceIn (h : Balanced b owed) {budget : Option ρ} {m n : Nat}
    (hr : b.replaceIn budget m n = some b') :
    Balanced b' (fun r => owed r + charge budget ((n : Int) - m) r) := by
  cases budget with
  | none =>
    obtain rfl := Option.some.inj hr
    exact h.congr (by simp)
  | some r =>
    simp only [Budgets.replaceIn, Budgets.replace] at hr
    split at hr
    · cases hr
    split at hr
    · cases hr
    · rename_i hheld hroom
      have hp : b.process.used - m + n = b.process.used + ((n : Int) - m) := by ring
      have hu : (b.rules r).used - m + n = (b.rules r).used + ((n : Int) - m) := by ring
      rw [hp, hu] at hr
      obtain rfl := Option.some.inj hr
      have := h.nonneg r
      exact h.move (by omega) (by omega) (by omega)

theorem releaseTo (h : Balanced b owed) {budget : Option ρ} {n : Nat}
    (hle : ∀ r, charge budget n r ≤ owed r) :
    Balanced (b.releaseTo budget n) (fun r => owed r - charge budget n r) := by
  cases budget with
  | none => exact h.congr (by simp)
  | some r =>
    simp only [Budgets.releaseTo, Budgets.release]
    split
    · rename_i hn
      exact h.congr (by simp [hn])
    · have hasked : ¬ (n : Int) > (b.rules r).used := by
        have := hle r
        rw [h.rules]
        simp only [charge, if_true] at this
        omega
      have hmoved := h.move (r := r) (d := -(n : Int)) (by omega) (by have := h.within r; omega)
        (by have := h.processWithin; omega)
      have hkept : Balanced (b.setUsed r (b.process.used - n) ((b.rules r).used - n))
          (fun r' => owed r' - charge (some r) n r') := by
        rw [Int.sub_eq_add_neg, Int.sub_eq_add_neg]
        apply hmoved.congr
        intro r'
        have := charge_sub (some r) 0 (n : Int) r'
        rw [Int.zero_sub, charge_zero, Int.zero_sub] at this
        rw [this, Int.sub_eq_add_neg]
      simp only [hasked, if_false, decide_false, Bool.or_false]
      exact { hkept with unclamped := h.unclamped }

end Balanced

end

/-! ## What is held -/

/-- The bytes queued, as rule `r` sees them. -/
def Queue.held (q : Queue ρ) (r : ρ) : Int := charge q.budget q.queuedBytes r

def Lease.held (l : Lease ρ γ) (r : ρ) : Int :=
  if l.stage = .held then charge l.leaseBudget l.leaseBytes r else 0

def Holder.total (h : Holder ρ) : Int :=
  Tally.total (fun a : Assembly => (a.total : Int)) h.reassembler.pending

def Holder.held (h : Holder ρ) (r : ρ) : Int := charge h.budget h.total r

/-- One in the count of `c`, for a lease whose `done` has not counted it off. -/
def Lease.counted [DecidableEq γ] (l : Lease ρ γ) (c : γ) : Int :=
  if l.stage ≠ .done ∧ l.leaseInFlight = some c then 1 else 0

theorem Queue.held_nonneg (q : Queue ρ) (r : ρ) : 0 ≤ q.held r :=
  charge_nonneg (Int.natCast_nonneg _) _ _

theorem Lease.held_nonneg (l : Lease ρ γ) (r : ρ) : 0 ≤ l.held r := by
  unfold Lease.held
  split
  · exact charge_nonneg (Int.natCast_nonneg _) _ _
  · exact Int.le_refl 0

theorem Holder.held_nonneg (h : Holder ρ) (r : ρ) : 0 ≤ h.held r :=
  charge_nonneg (Tally.total_nonneg _ (fun _ => Int.natCast_nonneg _) _) _ _

variable [Fintype κ] [Fintype ν]

/-- What the queues, the leases and the reassemblers hold of rule `r`. -/
def owed (s : Spenders ρ κ ν γ) (r : ρ) : Int :=
  ∑ q, (s.queues q).held r + (s.leases.map (fun l => l.held r)).sum + ∑ v, (s.holders v).held r

theorem owed_parts_nonneg (s : Spenders ρ κ ν γ) (r : ρ) :
    0 ≤ ∑ q, (s.queues q).held r ∧ 0 ≤ (s.leases.map (fun l => l.held r)).sum ∧
      0 ≤ ∑ v, (s.holders v).held r :=
  ⟨Finset.sum_nonneg (fun q _ => (s.queues q).held_nonneg r),
    Tally.sum_map_nonneg (fun l : Lease ρ γ => l.held r) (fun l => l.held_nonneg r) s.leases,
    Finset.sum_nonneg (fun v _ => (s.holders v).held_nonneg r)⟩

theorem queue_le_owed (s : Spenders ρ κ ν γ) (q : κ) (r : ρ) : (s.queues q).held r ≤ owed s r := by
  have hq := Tally.le_sum (fun q' => (s.queues q').held_nonneg r) q
  have hparts := owed_parts_nonneg s r
  unfold owed
  omega

theorem lease_le_owed (s : Spenders ρ κ ν γ) {l : Lease ρ γ} (hl : l ∈ s.leases) (r : ρ) :
    l.held r ≤ owed s r := by
  have hl := Tally.le_sum_map (fun l : Lease ρ γ => l.held r) (fun l => l.held_nonneg r) hl
  have hparts := owed_parts_nonneg s r
  unfold owed
  omega

theorem holder_le_owed (s : Spenders ρ κ ν γ) (v : ν) (r : ρ) :
    (s.holders v).held r ≤ owed s r := by
  have hv := Tally.le_sum (fun v' => (s.holders v').held_nonneg r) v
  have hparts := owed_parts_nonneg s r
  unfold owed
  omega

theorem owed_setQueue [DecidableEq κ] (s : Spenders ρ κ ν γ) (q : κ) (x : Queue ρ) (r : ρ) :
    owed (s.setQueue q x) r = owed s r + (x.held r - (s.queues q).held r) := by
  have hq := Tally.sum_update (fun y : Queue ρ => y.held r) s.queues q x
  unfold owed Spenders.setQueue
  simp only [hq]
  ring

theorem owed_setHolder [DecidableEq ν] (s : Spenders ρ κ ν γ) (v : ν) (x : Holder ρ) (r : ρ) :
    owed (s.setHolder v x) r = owed s r + (x.held r - (s.holders v).held r) := by
  have hv := Tally.sum_update (fun y : Holder ρ => y.held r) s.holders v x
  unfold owed Spenders.setHolder
  simp only [hv]
  ring

/-! ## What each call does -/

def packetBytes (packets : List Bytes) : Nat := (packets.map List.length).sum

theorem packetBytes_append (ps qs : List Bytes) :
    packetBytes (ps ++ qs) = packetBytes ps + packetBytes qs := by
  simp [packetBytes]

theorem packetBytes_cons (p : Bytes) (ps : List Bytes) :
    packetBytes (p :: ps) = p.length + packetBytes ps := by
  simp [packetBytes]

/-- A queue counts its bytes, and once closed it is empty or about to be. -/
structure Queue.Ok (q : Queue ρ) : Prop where
  bytes : q.queuedBytes = packetBytes q.packets
  closed : q.closed = true → q.packets = [] ∨ q.draining = true

/-- No step of an `accept` is left. -/
def Job.Calm : Job ρ → Prop
  | .idle => True
  | .clearing _ => True
  | _ => False

/-- A reassembler has one assembly for a sequence, and once a `close` of it has
returned it stays empty. -/
structure Holder.Ok (h : Holder ρ) : Prop where
  keys : (h.reassembler.pending.map Prod.fst).Nodup
  closed : h.reassembler.closed = true →
    0 < h.closing ∨ (h.reassembler.pending = [] ∧ h.job.Calm)

/-- The loop of `enqueue` drops packets from the front and adds their bytes up. -/
theorem makeRoom_spec (cap maxBytes n : Nat) (packets : List Bytes) (remaining rel : Nat) :
    ∃ dropped, packets = dropped ++ (makeRoom cap maxBytes n packets remaining rel).packets ∧
      (makeRoom cap maxBytes n packets remaining rel).releaseBytes = rel + packetBytes dropped := by
  induction packets generalizing remaining rel with
  | nil => exact ⟨[], rfl, rfl⟩
  | cons p ps ih =>
    simp only [makeRoom]
    split
    · obtain ⟨dropped, hps, hrel⟩ := ih (remaining - p.length) (rel + p.length)
      refine ⟨p :: dropped, ?_, ?_⟩
      · rw [List.cons_append, ← hps]
      · rw [hrel, packetBytes_cons]
        omega
    · exact ⟨[], rfl, rfl⟩

section
variable [Fintype ρ] {b : Budgets ρ} {owed : ρ → Int}

theorem enqueue_spec (hb : Balanced b owed) {q : Queue ρ} (hq : q.Ok) (payload : Bytes) :
    Balanced (q.enqueue b payload).budgets
        (fun r => owed r + ((q.enqueue b payload).queue.held r - q.held r)) ∧
      (q.enqueue b payload).queue.Ok := by
  have hsame : Balanced b (fun r => owed r + (q.held r - q.held r)) :=
    hb.congr (fun r => by omega)
  unfold Queue.enqueue
  dsimp only
  split
  · exact ⟨hsame, hq⟩
  rename_i hopen
  split
  · exact ⟨hsame, hq⟩
  split
  · exact ⟨hsame, hq⟩
  split
  · exact ⟨hsame, hq⟩
  · rename_i b' hreplace
    obtain ⟨dropped, hpackets, hrelease⟩ :=
      makeRoom_spec q.cap q.maxBytes payload.length q.packets q.queuedBytes 0
    have hbytes : q.queuedBytes = packetBytes dropped
        + packetBytes (makeRoom q.cap q.maxBytes payload.length q.packets q.queuedBytes 0).packets := by
      rw [← packetBytes_append, ← hpackets]
      exact hq.bytes
    refine ⟨(hb.replaceIn hreplace).congr fun r => ?_, ?_, ?_⟩
    · unfold Queue.held
      rw [Queue.signal_budget, Queue.signal_queuedBytes, ← charge_sub]
      congr 2
      dsimp only
      omega
    · rw [Queue.signal_queuedBytes, Queue.signal_packets]
      dsimp only
      rw [packetBytes_append, packetBytes_cons]
      have hnil : packetBytes [] = 0 := rfl
      omega
    · rw [Queue.signal_closed]
      intro hclosed
      exact absurd hclosed hopen

theorem removeAssembly_spec (hb : Balanced b owed) {h : Holder ρ} (hkeys : (h.reassembler.pending.map Prod.fst).Nodup)
    (hle : ∀ r, h.held r ≤ owed r) (sequence : UInt64) (job : Job ρ) : Balanced (h.removeAssembly b sequence job).2
        (fun r => owed r + ((h.removeAssembly b sequence job).1.held r - h.held r)) ∧
      ((h.removeAssembly b sequence job).1.reassembler.pending.map Prod.fst).Nodup := by
  unfold Holder.removeAssembly
  split
  · refine ⟨hb.congr fun r => ?_, hkeys⟩
    simp only [Holder.held, Holder.total]
    omega
  · rename_i assembly hlookup
    have htotal : Tally.total (fun a : Assembly => (a.total : Int))
        (h.reassembler.removeAssembly sequence).pending = h.total - assembly.total :=
      Tally.total_erase (fun a : Assembly => (a.total : Int)) hkeys hlookup
    have hrest := Tally.total_nonneg (fun a : Assembly => (a.total : Int))
      (fun _ => Int.natCast_nonneg _) (h.reassembler.removeAssembly sequence).pending
    have hcharge : ∀ r, charge h.budget assembly.total r ≤ owed r := by
      intro r
      have hheld := hle r
      have hpos := charge_nonneg hrest h.budget r
      rw [htotal, charge_sub] at hpos
      unfold Holder.held at hheld
      omega
    refine ⟨(hb.releaseTo hcharge).congr fun r => ?_,
      hkeys.sublist (Assoc.keys_erase_sublist h.reassembler.pending sequence)⟩
    unfold Holder.held
    simp only [Holder.total] at htotal ⊢
    rw [htotal, charge_sub]
    omega

theorem place_spec_budget (hb : Balanced b owed) {h : Holder ρ} (hkeys : (h.reassembler.pending.map Prod.fst).Nodup)
    (now : Int) (packet : Packet) : Balanced (h.place b now packet).2
        (fun r => owed r + ((h.place b now packet).1.held r - h.held r)) ∧
      ((h.place b now packet).1.reassembler.pending.map Prod.fst).Nodup := by
  have hsame : ∀ job, Balanced b (fun r => owed r + (({ h with job := job } : Holder ρ).held r - h.held r)) :=
    fun job => hb.congr (fun r => by simp only [Holder.held, Holder.total]; omega)
  unfold Holder.place
  dsimp only
  split
  · exact ⟨hsame _, hkeys⟩
  split
  · exact ⟨hsame _, hkeys⟩
  split
  · exact ⟨hsame _, hkeys⟩
  · rename_i b' hreserve
    refine ⟨(hb.reserveFrom hreserve).congr fun r => ?_, Assoc.nodup_put hkeys _ _⟩
    have hput : ∀ a : Assembly, Tally.total (fun a : Assembly => (a.total : Int))
        (h.reassembler.putAssembly packet.sequence a).pending
        = Tally.total (fun a : Assembly => (a.total : Int))
          (Assoc.erase h.reassembler.pending packet.sequence) + a.total := by
      intro a
      simp [Tally.total, Assoc.erase, Reassembler.putAssembly]
    unfold Holder.held
    simp only [Holder.total]
    rw [hput, ← charge_sub]
    cases hfound : h.reassembler.pending.lookup packet.sequence with
    | none =>
      have hout : packet.sequence ∉ h.reassembler.pending.map Prod.fst := by
        intro hmem
        obtain ⟨e, he, hk⟩ := List.mem_map.mp hmem
        have := List.lookup_eq_none_iff.mp hfound e he
        simp [hk] at this
      rw [Assoc.erase_of_notMem hout]
      congr 2
      simp only [Option.getD_none]
      push_cast
      omega
    | some a =>
      rw [Tally.total_erase (fun a : Assembly => (a.total : Int)) hkeys hfound]
      congr 2
      simp only [Option.getD_some]
      push_cast
      omega

/-- Each step of the call that holds a reassembler's lock moves the budgets by what it
moves the assemblies. -/
theorem work_spec {b b' : Budgets ρ} (hb : Balanced b owed) {h h' : Holder ρ} (hok : h.Ok)
    (hle : ∀ r, h.held r ≤ owed r) {sequence : UInt64} (hwork : h.work b sequence = some (h', b')) :
    Balanced b' (fun r => owed r + (h'.held r - h.held r)) ∧ h'.Ok := by
  have hsame : ∀ job, Balanced b (fun r => owed r + (({ h with job := job } : Holder ρ).held r - h.held r)) :=
    fun job => hb.congr (fun r => by simp only [Holder.held, Holder.total]; omega)
  have hremove := fun sequence job => removeAssembly_spec hb hok.keys hle sequence job
  -- a step of an `accept` or an `expire` is not possible once a `close` has returned
  have hopen : ¬ h.job.Calm → ∀ (h₁ : Holder ρ), h₁.closing = h.closing →
      h₁.reassembler.closed = h.reassembler.closed → h₁.reassembler.closed = true →
      0 < h₁.closing ∨ (h₁.reassembler.pending = [] ∧ h₁.job.Calm) := by
    intro hbusy h₁ hclosing hclosed hc
    rcases hok.closed (hclosed ▸ hc) with hpos | hcalm
    · exact .inl (hclosing ▸ hpos)
    · exact absurd hcalm.2 hbusy
  have hkept : ∀ sequence job, (h.removeAssembly b sequence job).1.closing = h.closing ∧
      (h.removeAssembly b sequence job).1.reassembler.closed = h.reassembler.closed := by
    intro sequence job
    unfold Holder.removeAssembly
    split <;> exact ⟨rfl, rfl⟩
  unfold Holder.work at hwork
  split at hwork
  · cases hwork
  · -- `clearLocked`
    rename_i after hjob
    split at hwork
    · rename_i hempty
      have hnil := List.isEmpty_iff.mp hempty
      obtain ⟨rfl, rfl⟩ := Prod.mk.inj (Option.some.inj hwork)
      have hzero : h.total = 0 := by simp [Holder.total, hnil, Tally.total]
      refine ⟨hb.congr fun r => ?_, ?_, ?_⟩
      · have hafter : (h.cleared after).total = 0 := by
          cases after <;> simp [Holder.cleared, Holder.total, Tally.total]
        unfold Holder.held
        rw [hzero, hafter, charge_zero, charge_zero]
        omega
      · cases after <;> simp [Holder.cleared]
      · intro hc
        refine .inr ?_
        cases after <;> exact ⟨rfl, trivial⟩
    · rename_i hfull
      split at hwork
      · obtain ⟨rfl, rfl⟩ := Prod.mk.inj (Option.some.inj hwork)
        refine ⟨(hremove _ _).1, (hremove _ _).2, fun hc => ?_⟩
        obtain ⟨hclosing, hclosed⟩ := hkept sequence (.clearing after)
        rcases hok.closed (hclosed ▸ hc) with hpos | ⟨hnil, -⟩
        · exact .inl (hpos.trans_eq hclosing.symm)
        · exact absurd (List.isEmpty_iff.mpr hnil) hfull
      · cases hwork
  · -- `expireLocked`
    rename_i now packet hjob
    have hbusy : ¬ h.job.Calm := by rw [hjob]; exact id
    split at hwork
    · split at hwork
      · obtain ⟨rfl, rfl⟩ := Prod.mk.inj (Option.some.inj hwork)
        exact ⟨hsame _, hok.keys, hopen hbusy _ rfl rfl⟩
      · obtain ⟨rfl, rfl⟩ := Prod.mk.inj (Option.some.inj hwork)
        exact ⟨hsame _, hok.keys, hopen hbusy _ rfl rfl⟩
    · split at hwork
      · cases hwork
      · split at hwork
        · obtain ⟨rfl, rfl⟩ := Prod.mk.inj (Option.some.inj hwork)
          exact ⟨(hremove _ _).1, (hremove _ _).2, hopen hbusy _ (hkept _ _).1 (hkept _ _).2⟩
        · cases hwork
  · -- the lookup
    rename_i now packet hjob
    have hbusy : ¬ h.job.Calm := by rw [hjob]; exact id
    have hfind : ∃ job, h.find now packet = { h with job := job } := by
      unfold Holder.find
      split
      · split <;> exact ⟨_, rfl⟩
      · split <;> exact ⟨_, rfl⟩
    obtain ⟨job, hjob'⟩ := hfind
    rw [hjob'] at hwork
    obtain ⟨rfl, rfl⟩ := Prod.mk.inj (Option.some.inj hwork)
    exact ⟨hsame _, hok.keys, hopen hbusy _ rfl rfl⟩
  · -- the fragment joins its assembly
    rename_i now packet hjob
    have hbusy : ¬ h.job.Calm := by rw [hjob]; exact id
    have hplace := place_spec_budget hb hok.keys now packet
    have hkeep : (h.place b now packet).1.closing = h.closing ∧
        (h.place b now packet).1.reassembler.closed = h.reassembler.closed := by
      unfold Holder.place
      dsimp only
      split
      · exact ⟨rfl, rfl⟩
      split
      · exact ⟨rfl, rfl⟩
      split <;> exact ⟨rfl, rfl⟩
    rw [Option.some.inj hwork] at hplace hkeep
    exact ⟨hplace.1, hplace.2, hopen hbusy _ hkeep.1 hkeep.2⟩
  · -- the oldest makes room
    rename_i now packet hjob
    have hbusy : ¬ h.job.Calm := by rw [hjob]; exact id
    split at hwork
    · cases hwork
    · split at hwork
      · obtain ⟨rfl, rfl⟩ := Prod.mk.inj (Option.some.inj hwork)
        exact ⟨(hremove _ _).1, (hremove _ _).2, hopen hbusy _ (hkept _ _).1 (hkept _ _).2⟩
      · cases hwork
  · -- a complete or refused assembly leaves
    rename_i sequence hjob
    have hbusy : ¬ h.job.Calm := by rw [hjob]; exact id
    obtain ⟨rfl, rfl⟩ := Prod.mk.inj (Option.some.inj hwork)
    exact ⟨(hremove _ _).1, (hremove _ _).2, hopen hbusy _ (hkept _ _).1 (hkept _ _).2⟩

end

/-! ## Every run -/

variable [Fintype ρ] [DecidableEq γ]

structure Spenders.Inv (s : Spenders ρ κ ν γ) : Prop where
  balanced : Balanced s.budgets (owed s)
  queues : ∀ q, (s.queues q).Ok
  holders : ∀ v, (s.holders v).Ok
  inFlight : ∀ c, s.inFlight c = (s.leases.map (fun l => l.counted c)).sum

theorem forall_update {ι : Type u} {α : Type u} [DecidableEq ι] {P : α → Prop} {f : ι → α}
    (h : ∀ i, P (f i)) (k : ι) {x : α} (hx : P x) (i : ι) : P (Function.update f k x i) := by
  by_cases hi : i = k
  · subst hi
    rwa [Function.update_self]
  · rw [Function.update_of_ne hi]
    exact h i

namespace Spenders.Inv
variable {s s' : Spenders ρ κ ν γ}

theorem ofQueue [DecidableEq κ] (h : s.Inv) {q : κ} {x : Queue ρ} {b : Budgets ρ}
    (hb : Balanced b (fun r => owed s r + (x.held r - (s.queues q).held r))) (hx : x.Ok) :
    Inv { s.setQueue q x with budgets := b } where
  balanced := hb.congr (fun r => (owed_setQueue s q x r).symm)
  queues := forall_update h.queues q hx
  holders := h.holders
  inFlight := h.inFlight

/-- A step that changes one reassembler and the budgets by the same amount. -/
theorem ofHolder [DecidableEq ν] (h : s.Inv) {v : ν} {x : Holder ρ} {b : Budgets ρ}
    (hb : Balanced b (fun r => owed s r + (x.held r - (s.holders v).held r))) (hx : x.Ok) :
    Inv { s.setHolder v x with budgets := b } where
  balanced := hb.congr (fun r => (owed_setHolder s v x r).symm)
  queues := h.queues
  holders := forall_update h.holders v hx
  inFlight := h.inFlight

theorem ofQueue_same [DecidableEq κ] (h : s.Inv) {q : κ} {x : Queue ρ} (hheld : ∀ r, x.held r = (s.queues q).held r)
    (hx : x.Ok) : Inv (s.setQueue q x) :=
  h.ofQueue (h.balanced.congr fun r => by rw [hheld]; omega) hx

theorem ofHolder_same [DecidableEq ν] (h : s.Inv) {v : ν} {x : Holder ρ}
    (hheld : ∀ r, x.held r = (s.holders v).held r) (hx : x.Ok) : Inv (s.setHolder v x) :=
  h.ofHolder (h.balanced.congr fun r => by rw [hheld]; omega) hx

theorem lock [DecidableEq ν] (h : s.Inv) {v : ν} {job : Job ρ}
    (hcalm : (s.holders v).reassembler.closed = true → job.Calm) (hs : s.lock v job = some s') :
    s'.Inv := by
  unfold Spenders.lock at hs
  split at hs
  · obtain rfl := Option.some.inj hs
    refine h.ofHolder_same (fun r => rfl) ⟨(h.holders v).keys, fun hc => ?_⟩
    rcases (h.holders v).closed hc with hpos | hcl
    · exact .inl hpos
    · exact .inr ⟨hcl.1, hcalm hc⟩
  · cases hs

theorem next [DecidableEq κ] (h : s.Inv) (q : κ) (counter : Option γ) (hdr : (s.queues q).draining = false) :
    Inv (s.next q counter) := by
  have hq := h.queues q
  unfold Spenders.next
  dsimp only
  split
  · rename_i hnil
    exact h.ofQueue_same (fun r => rfl) ⟨hq.bytes, hq.closed⟩
  · rename_i packet rest hpackets
    have hbytes := hq.bytes
    rw [hpackets, packetBytes_cons] at hbytes
    refine ⟨h.balanced.congr fun r => ?_, ?_, h.holders, fun c => ?_⟩
    · have hset := owed_setQueue s q (Queue.signal { s.queues q with
        woken := (s.queues q).woken - 1
        packets := rest
        queuedBytes := (s.queues q).queuedBytes - packet.length }) r
      have hlease : (Lease.held ⟨(s.queues q).budget, counter, packet.length, .held⟩ r
          : Int) = charge (s.queues q).budget packet.length r := rfl
      have hsum := Tally.sum_map_concat (fun l : Lease ρ γ => l.held r) s.leases
        ⟨(s.queues q).budget, counter, packet.length, .held⟩
      unfold owed Queue.held at hset ⊢
      simp only [Spenders.setQueue, Queue.signal_budget, Queue.signal_queuedBytes] at hset ⊢
      rw [hsum, hlease]
      have hsplit : charge (s.queues q).budget ((s.queues q).queuedBytes : Int) r
          = charge (s.queues q).budget ((((s.queues q).queuedBytes - packet.length : Nat)) : Int) r
            + charge (s.queues q).budget packet.length r := by
        rw [← charge_add]
        congr 1
        omega
      omega
    · apply forall_update h.queues q
      refine ⟨?_, fun hc => ?_⟩
      · rw [Queue.signal_queuedBytes, Queue.signal_packets]
        dsimp only
        omega
      · rw [Queue.signal_closed] at hc
        rcases hq.closed hc with hnil | hdraining
        · rw [hnil] at hpackets
          cases hpackets
        · rw [hdr] at hdraining
          cases hdraining
    · have hsum := Tally.sum_map_concat (fun l : Lease ρ γ => l.counted c) s.leases
        ⟨(s.queues q).budget, counter, packet.length, .held⟩
      dsimp only
      rw [hsum, ← h.inFlight c]
      cases counter with
      | none => simp [Lease.counted]
      | some c' =>
        by_cases hcc : c = c'
        · subst hcc
          simp [Lease.counted]
        · have hne : ¬ c' = c := fun h' => hcc (Eq.symm h')
          simp [Lease.counted, Function.update_of_ne hcc, hne]

theorem drop [DecidableEq κ] (h : s.Inv) (q : κ) (hdr : (s.queues q).draining = true) : Inv (s.drop q) := by
  have hq := h.queues q
  unfold Spenders.drop
  dsimp only
  split
  · rename_i hnil
    exact h.ofQueue_same (fun r => rfl) ⟨hq.bytes, fun _ => .inl hnil⟩
  · rename_i packet rest hpackets
    have hbytes := hq.bytes
    rw [hpackets, packetBytes_cons] at hbytes
    have hcharge : ∀ r, charge (s.queues q).budget packet.length r ≤ owed s r := by
      intro r
      have hle := queue_le_owed s q r
      have hrest := charge_nonneg (n := ((s.queues q).queuedBytes : Int) - packet.length) (by omega)
        (s.queues q).budget r
      rw [charge_sub] at hrest
      unfold Queue.held at hle
      omega
    refine h.ofQueue ((h.balanced.releaseTo hcharge).congr fun r => ?_) ⟨?_, fun _ => .inr hdr⟩
    · unfold Queue.held
      dsimp only
      have hcast : (((s.queues q).queuedBytes - packet.length : Nat) : Int)
          = (s.queues q).queuedBytes - packet.length := by omega
      rw [hcast, charge_sub]
      omega
    · dsimp only
      omega

theorem done (h : s.Inv) {i : Nat} (hs : s.done i = some s') : s'.Inv := by
  unfold Spenders.done at hs
  obtain ⟨l, hl, hs⟩ := Option.bind_eq_some_iff.mp hs
  split at hs
  · obtain rfl := Option.some.inj hs
    exact h
  · rename_i hstage
    have hheld : l.stage = .held := by simpa using hstage
    obtain rfl := Option.some.inj hs
    have hcharge : ∀ r, charge l.leaseBudget l.leaseBytes r = l.held r := by
      intro r
      simp [Lease.held, hheld]
    refine ⟨(h.balanced.releaseTo fun r => ?_).congr fun r => ?_, h.queues, h.holders, fun c => ?_⟩
    · rw [hcharge]
      exact lease_le_owed s (List.mem_of_getElem? hl) r
    · have hsum := Tally.sum_map_set (fun l : Lease ρ γ => l.held r) hl
        { l with stage := .released }
      have hout : Lease.held ({ l with stage := .released } : Lease ρ γ) r = 0 := rfl
      unfold owed
      dsimp only
      rw [hsum, hout, hcharge]
      ring
    · have hsum := Tally.sum_map_set (fun l : Lease ρ γ => l.counted c) hl
        { l with stage := .released }
      have hsame : Lease.counted ({ l with stage := .released } : Lease ρ γ) c = l.counted c := by
        simp [Lease.counted, hheld]
      dsimp only
      rw [hsum, hsame, h.inFlight c]
      ring

theorem count (h : s.Inv) {i : Nat} (hs : s.count i = some s') : s'.Inv := by
  unfold Spenders.count at hs
  obtain ⟨l, hl, hs⟩ := Option.bind_eq_some_iff.mp hs
  split at hs
  · cases hs
  · rename_i hstage
    have hreleased : l.stage = .released := by simpa using hstage
    obtain rfl := Option.some.inj hs
    refine ⟨h.balanced.congr fun r => ?_, h.queues, h.holders, fun c => ?_⟩
    · have hsum := Tally.sum_map_set (fun l : Lease ρ γ => l.held r) hl { l with stage := .done }
      have hout : Lease.held ({ l with stage := .done } : Lease ρ γ) r = 0 := rfl
      have hin : l.held r = 0 := by simp [Lease.held, hreleased]
      unfold owed
      dsimp only
      rw [hsum, hout, hin]
      ring
    · have hsum := Tally.sum_map_set (fun l : Lease ρ γ => l.counted c) hl { l with stage := .done }
      have hout : Lease.counted ({ l with stage := .done } : Lease ρ γ) c = 0 := by
        simp [Lease.counted]
      dsimp only
      rw [hsum, hout, ← h.inFlight c]
      cases hcounter : l.leaseInFlight with
      | none => simp [Lease.counted, hcounter]
      | some c' =>
        by_cases hcc : c = c'
        · subst hcc
          simp [Lease.counted, hcounter, hreleased]
          ring
        · have hne : ¬ c' = c := fun h' => hcc (Eq.symm h')
          simp [Lease.counted, hcounter, hne, Function.update_of_ne hcc]

theorem step [DecidableEq κ] [DecidableEq ν] (h : s.Inv) {a : Spend ρ κ ν γ} (hs : s.step a = some s') : s'.Inv := by
  cases a with
  | enqueue q payload =>
    simp only [Spenders.step] at hs
    split at hs
    · cases hs
    · obtain rfl := Option.some.inj hs
      have he := enqueue_spec h.balanced (h.queues q) payload
      exact h.ofQueue he.1 he.2
  | wake q =>
    simp only [Spenders.step] at hs
    split at hs
    · obtain rfl := Option.some.inj hs
      exact h.ofQueue_same (fun r => rfl) ⟨(h.queues q).bytes, (h.queues q).closed⟩
    · cases hs
  | next q counter =>
    simp only [Spenders.step] at hs
    split at hs
    · cases hs
    · rename_i hgo
      obtain rfl := Option.some.inj hs
      apply h.next
      simpa using fun hd => hgo (.inl hd)
  | clearQueue q =>
    simp only [Spenders.step] at hs
    split at hs
    · cases hs
    · obtain rfl := Option.some.inj hs
      exact h.ofQueue_same (fun r => rfl) ⟨(h.queues q).bytes, fun _ => .inr rfl⟩
  | closeQueue q =>
    simp only [Spenders.step] at hs
    split at hs
    · cases hs
    · obtain rfl := Option.some.inj hs
      exact h.ofQueue_same (fun r => rfl) ⟨(h.queues q).bytes, fun _ => .inr rfl⟩
  | drop q =>
    simp only [Spenders.step] at hs
    split at hs
    · rename_i hdr
      obtain rfl := Option.some.inj hs
      exact h.drop q hdr
    · cases hs
  | done i => exact h.done hs
  | count i => exact h.count hs
  | accept v now packet =>
    simp only [Spenders.step] at hs
    split at hs
    · obtain rfl := Option.some.inj hs
      unfold Holder.accept
      split
      · exact h.ofHolder_same (fun r => rfl) (h.holders v)
      split
      · exact h.ofHolder_same (fun r => rfl) (h.holders v)
      split
      · exact h.ofHolder_same (fun r => rfl) (h.holders v)
      · rename_i hopen _ _
        refine h.ofHolder_same (fun r => rfl) ⟨(h.holders v).keys, fun hc => ?_⟩
        simp only [Bool.or_eq_true, not_or] at hopen
        exact absurd hc hopen.1
    · cases hs
  | expire v now =>
    simp only [Spenders.step] at hs
    split at hs
    · obtain rfl := Option.some.inj hs
      exact h
    · rename_i hopen
      exact h.lock (fun hc => absurd hc hopen) hs
  | setBudget v budget =>
    simp only [Spenders.step] at hs
    split at hs
    · split at hs
      · obtain rfl := Option.some.inj hs
        exact h
      · exact h.lock (fun _ => show Job.Calm (.clearing _) from trivial) hs
    · cases hs
  | clear v => exact h.lock (fun _ => show Job.Calm (.clearing _) from trivial) hs
  | close v =>
    obtain rfl := Option.some.inj hs
    exact h.ofHolder_same (fun r => rfl) ⟨(h.holders v).keys, fun _ => .inl (Nat.succ_pos _)⟩
  | closeLock v =>
    simp only [Spenders.step] at hs
    split at hs
    · cases hs
    · exact h.lock (fun _ => show Job.Calm (.clearing _) from trivial) hs
  | work v sequence =>
    obtain ⟨⟨h', b'⟩, hwork, hs⟩ := Option.bind_eq_some_iff.mp hs
    obtain rfl := Option.some.inj hs
    have hw := work_spec h.balanced (h.holders v) (holder_le_owed s v) hwork
    exact h.ofHolder hw.1 hw.2

theorem initial (processLimit : Int) (ruleLimit : ρ → Int) (queues : κ → Int × Int × Option ρ) :
    Inv (Spenders.initial processLimit ruleLimit queues : Spenders ρ κ ν γ) := by
  have hlimit : ∀ n, 0 ≤ (newBudget n).limit := by
    intro n
    simp only [newBudget]
    split <;> omega
  refine ⟨⟨?_, fun r => ?_, fun r => Int.le_refl 0, fun r => hlimit _, hlimit _, rfl⟩,
    fun q => ⟨rfl, fun _ => .inl rfl⟩, fun v => ⟨List.nodup_nil, ?_⟩, fun c => rfl⟩
  · simp [Spenders.initial, newBudget]
  · simp [owed, Spenders.initial, newBudget, newFXPUDPQueue, Queue.held, Holder.held, Holder.total,
      Holder.new, Reassembler.new, Tally.total]
  · intro hc
    cases hc

end Spenders.Inv

section
variable [DecidableEq κ] [DecidableEq ν]

theorem Spenders.Inv.ofRun {processLimit : Int} {ruleLimit : ρ → Int}
    {queues : κ → Int × Int × Option ρ} {as : List (Spend ρ κ ν γ)} {s : Spenders ρ κ ν γ}
    (h : Run (Steps.ofFn Spenders.step) (Spenders.initial processLimit ruleLimit queues) as s) :
    s.Inv :=
  h.preserves (fun _ _ _ hs hinv => hinv.step hs) (Spenders.Inv.initial _ _ _)

end

/-- Every queue and every reassembler is closed, each call has returned, and every lease is
done. -/
structure Spenders.Settled (s : Spenders ρ κ ν γ) : Prop where
  queues : ∀ q, (s.queues q).closed = true ∧ (s.queues q).draining = false
  holders : ∀ v, (s.holders v).reassembler.closed = true ∧ (s.holders v).closing = 0
  leases : ∀ l ∈ s.leases, l.stage = .done

theorem Spenders.Inv.settled {s : Spenders ρ κ ν γ} (h : s.Inv) (hs : s.Settled) :
    (∀ r, owed s r = 0) ∧ ∀ c, s.inFlight c = 0 := by
  have hqueue : ∀ q r, (s.queues q).held r = 0 := by
    intro q r
    obtain ⟨hclosed, hdr⟩ := hs.queues q
    have hempty : (s.queues q).packets = [] := by
      rcases (h.queues q).closed hclosed with hnil | hbusy
      · exact hnil
      · rw [hdr] at hbusy
        cases hbusy
    have hbytes := (h.queues q).bytes
    rw [hempty] at hbytes
    have hzero : (s.queues q).queuedBytes = 0 := hbytes
    simp [Queue.held, hzero]
  have hholder : ∀ v r, (s.holders v).held r = 0 := by
    intro v r
    obtain ⟨hclosed, hret⟩ := hs.holders v
    have hempty : (s.holders v).reassembler.pending = [] := by
      rcases (h.holders v).closed hclosed with hpos | hnil
      · omega
      · exact hnil.1
    simp [Holder.held, Holder.total, hempty, Tally.total]
  refine ⟨fun r => ?_, fun c => ?_⟩
  · have hleases : (s.leases.map (fun l => l.held r)).sum = 0 := by
      apply List.sum_eq_zero
      intro n hn
      obtain ⟨l, hl, rfl⟩ := List.mem_map.mp hn
      simp [Lease.held, hs.leases l hl]
    simp [owed, hqueue, hholder, hleases]
  · rw [h.inFlight c]
    apply List.sum_eq_zero
    intro n hn
    obtain ⟨l, hl, rfl⟩ := List.mem_map.mp hn
    simp [Lease.counted, hs.leases l hl]

/-- In every run of the queues and reassemblers of one process, the process budget is the
sum of its rule budgets, each of these is what its queues, its leases and its
reassemblers hold, both stay within their limits and no release asks for more than
is there; and when all is closed and done, nothing is left. -/
theorem byte_budgets_conserved [DecidableEq κ] [DecidableEq ν] (processLimit : Int)
    (ruleLimit : ρ → Int) (queues : κ → Int × Int × Option ρ) {as : List (Spend ρ κ ν γ)}
    {s : Spenders ρ κ ν γ}
    (h : Run (Steps.ofFn Spenders.step) (Spenders.initial processLimit ruleLimit queues) as s) :
    s.budgets.process.used = ∑ r, (s.budgets.rules r).used ∧
    (∀ r, (s.budgets.rules r).used =
      ∑ q, (if (s.queues q).budget = some r then ((s.queues q).queuedBytes : Int) else 0) +
      (s.leases.map (fun l =>
        if l.stage = .held ∧ l.leaseBudget = some r then (l.leaseBytes : Int) else 0)).sum +
      ∑ v, (if (s.holders v).budget = some r then
        ((s.holders v).reassembler.pending.map (fun e => (e.2.total : Int))).sum else 0)) ∧
    (0 ≤ s.budgets.process.used ∧ s.budgets.process.used ≤ s.budgets.process.limit) ∧
    (∀ r, 0 ≤ (s.budgets.rules r).used ∧ (s.budgets.rules r).used ≤ (s.budgets.rules r).limit) ∧
    s.budgets.clamped = false ∧
    (s.Settled → s.budgets.process.used = 0 ∧ (∀ r, (s.budgets.rules r).used = 0) ∧
      ∀ c, s.inFlight c = 0) := by
  have hinv := Spenders.Inv.ofRun h
  have hb := hinv.balanced
  refine ⟨hb.process, fun r => ?_, ⟨hb.process_nonneg, hb.processWithin⟩,
    fun r => ⟨hb.nonneg r, hb.within r⟩, hb.unclamped, fun hs => ?_⟩
  · rw [hb.rules r]
    have hlease : ∀ l : Lease ρ γ, l.held r
        = if l.stage = .held ∧ l.leaseBudget = some r then (l.leaseBytes : Int) else 0 := by
      intro l
      unfold Lease.held charge
      split
      · rename_i hheld
        simp [hheld]
      · rename_i hheld
        simp [hheld]
    simp only [owed, hlease]
    rfl
  · obtain ⟨howed, hcount⟩ := hinv.settled hs
    have hrules : ∀ r, (s.budgets.rules r).used = 0 := fun r => (hb.rules r).trans (howed r)
    refine ⟨?_, hrules, hcount⟩
    rw [hb.process]
    exact Finset.sum_eq_zero (fun r _ => hrules r)

/-- Two packets pass through a queue of one rule, one of them taken and one dropped by
`close`. -/
theorem byte_budgets_conserved_closed_queue :
    ∃ s : Spenders Unit Unit Unit Unit,
      exec Spenders.step (Spenders.initial 8 (fun _ => 8) (fun _ => (2, 8, some ())))
        [.enqueue () [1, 2, 3], .wake (), .next () (some ()), .enqueue () [4, 5], .done 0, .count 0,
          .closeQueue (), .drop (), .drop (), .close (), .closeLock (), .work () 0] = some s ∧
      s.Settled ∧ s.budgets.process.used = 0 := by
  obtain ⟨s, hexec, hsettled⟩ : ∃ s : Spenders Unit Unit Unit Unit,
      exec Spenders.step (Spenders.initial 8 (fun _ => 8) (fun _ => (2, 8, some ())))
        [.enqueue () [1, 2, 3], .wake (), .next () (some ()), .enqueue () [4, 5], .done 0, .count 0,
          .closeQueue (), .drop (), .drop (), .close (), .closeLock (), .work () 0] = some s ∧
      s.Settled := by
    refine ⟨_, rfl, fun q => ⟨rfl, rfl⟩, fun v => ⟨rfl, rfl⟩, fun l hl => ?_⟩
    rw [List.mem_singleton.mp hl]
  have hledger := byte_budgets_conserved 8 (fun _ => 8) (fun _ => (2, 8, some ())) (exec_run hexec)
  exact ⟨s, hexec, hsettled, (hledger.2.2.2.2.2 hsettled).1⟩

end ForwardX.Udp
