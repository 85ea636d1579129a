import ForwardX.Lib.Assoc
import ForwardX.Lib.Gather
import ForwardX.Udp.ByteLedger
import ForwardX.Udp.FragmentSeal

/- The receiving end of a session: frames are opened (`openPacket`) and handed to
   `udpFragmentReassembler.accept` with the session's replay window and byte budget. This
   is `Reassembler.accept` with the budget it spends (`accept_agrees`).

   A pending set collects the fragments of one datagram (`Collects`): its filled slots
   hold their payloads, and `received` and `total` count them. What `place` does with
   the next fragment follows (`place_cases`). -/
namespace ForwardX.Udp
open Wire Gather

universe u

variable {ρ : Type u}

/-- A session that receives. `delivered` is not in the program: it holds what `accept`
has returned, the latest first, each payload with its sequence. -/
structure Inbound (ρ : Type u) where
  reassembler : Reassembler
  budget : Option ρ
  budgets : Budgets ρ
  replay : ReplayWindow
  delivered : List (UInt64 × Bytes)

/-- A frame that comes in, and when. -/
structure Arrival where
  frame : Bytes
  now : Int
  deriving DecidableEq, Repr

def Inbound.new (budget : Option ρ) (budgets : Budgets ρ) : Inbound ρ :=
  ⟨Reassembler.new, budget, budgets, ReplayWindow.new, []⟩

abbrev Inbound.pending (s : Inbound ρ) : List (UInt64 × Assembly) := s.reassembler.pending

/-- The end of `accept`: the replay window decides. -/
def Inbound.deliver (s : Inbound ρ) (sequence : UInt64) (payload : Bytes) : Inbound ρ :=
  let a := s.replay.accept sequence
  if !a.1 then { s with replay := a.2 }
  else { s with replay := a.2, delivered := (sequence, payload) :: s.delivered }

section
variable [DecidableEq ρ]

/-- `removeAssemblyLocked`. -/
def Inbound.removeAssembly (s : Inbound ρ) (sequence : UInt64) : Inbound ρ :=
  match s.pending.lookup sequence with
  | none => s
  | some assembly => { s with
      reassembler := s.reassembler.removeAssembly sequence
      budgets := s.budgets.releaseTo s.budget assembly.total }

def releaseSets (budgets : Budgets ρ) (budget : Option ρ) (removed : List (UInt64 × Assembly)) :
    Budgets ρ :=
  removed.foldl (fun b e => b.releaseTo budget e.2.total) budgets

/-- `expireLocked`. -/
def Inbound.expire (s : Inbound ρ) (now : Int) : Inbound ρ :=
  { s with
    reassembler := s.reassembler.expire now
    budgets := releaseSets s.budgets s.budget
      (s.pending.filter (fun e => !decide (now - e.2.createdAt < fxpUDPFragmentTimeout))) }

/-- `evictOldestLocked`. -/
def Inbound.evictOldest (s : Inbound ρ) : Inbound ρ :=
  match oldest s.pending with
  | none => s
  | some e => s.removeAssembly e.1

/-- An assembly with one more fragment. -/
def Assembly.add (assembly : Assembly) (packet : Packet) : Assembly :=
  { assembly with
    total := assembly.total + packet.payload.length
    chunks := assembly.chunks.set packet.fragment.toNat (some packet.payload)
    received := assembly.received + 1 }

/-- The part of `accept` that adds a fragment to its assembly. -/
def Inbound.place (s : Inbound ρ) (assembly : Assembly) (newAssembly : Bool) (packet : Packet) :
    Inbound ρ :=
  let reject := if newAssembly then s else s.removeAssembly packet.sequence
  if (assembly.chunks.getD packet.fragment.toNat none).isSome then s
  else if assembly.total + packet.payload.length > fxpUDPMaxDatagramPayload then reject
  else
    match s.budgets.reserveFrom s.budget packet.payload.length with
    | none => reject
    | some budgets =>
      let assembly := assembly.add packet
      let s := { s with
        budgets := budgets
        reassembler := s.reassembler.putAssembly packet.sequence assembly }
      if assembly.received ≠ assembly.fragments.toNat then s
      else
        (s.removeAssembly packet.sequence).deliver packet.sequence
          (assembly.chunks.map (·.getD [])).flatten

def newAssembly (packet : Packet) (now : Int) : Assembly :=
  ⟨packet.fragments, List.replicate packet.fragments.toNat none, 0, 0, now⟩

def Inbound.accept (s : Inbound ρ) (packet : Packet) (now : Int) : Inbound ρ :=
  if s.reassembler.closed || !validFXPUDPFragmentMetadata packet.fragment packet.fragments then s
  else if packet.fragments = 0 then s.deliver packet.sequence packet.payload
  else if packet.payload.length = 0 ∨ packet.payload.length > fxpUDPFragmentPayloadSize then s
  else
    let s := s.expire now
    match s.pending.lookup packet.sequence with
    | some assembly =>
      if assembly.fragments ≠ packet.fragments then s.removeAssembly packet.sequence
      else s.place assembly false packet
    | none =>
      let s := if s.pending.length ≥ fxpUDPMaxPendingFragmentSets then s.evictOldest else s
      s.place (newAssembly packet now) true packet

/-- A frame that opens goes to `accept`; any other is dropped. -/
def Inbound.receive (codec : Codec) (s : Inbound ρ) (arrival : Arrival) : Inbound ρ :=
  match codec.openPacket arrival.frame with
  | .error _ => s
  | .ok packet => s.accept packet arrival.now

def Inbound.receiveAll (codec : Codec) (s : Inbound ρ) (arrivals : List Arrival) : Inbound ρ :=
  arrivals.foldl (Inbound.receive codec) s

end

/-! ## The same reassembler -/

section
variable [DecidableEq ρ]

theorem putAssembly_removeAssembly (r : Reassembler) (sequence : UInt64) (a : Assembly) :
    (r.putAssembly sequence a).removeAssembly sequence = r.removeAssembly sequence := by
  simp [Reassembler.putAssembly, Reassembler.removeAssembly, List.filter_append, List.filter_filter]

@[simp] theorem Inbound.removeAssembly_reassembler (s : Inbound ρ) (sequence : UInt64) :
    (s.removeAssembly sequence).reassembler = s.reassembler.removeAssembly sequence := by
  unfold Inbound.removeAssembly
  cases hlookup : s.pending.lookup sequence with
  | none =>
    have herase := Assoc.erase_of_notMem (Assoc.lookup_eq_none.mp hlookup)
    show s.reassembler = { s.reassembler with pending := Assoc.erase s.pending sequence }
    rw [herase]
  | some a => rfl

@[simp] theorem Inbound.removeAssembly_replay (s : Inbound ρ) (sequence : UInt64) :
    (s.removeAssembly sequence).replay = s.replay := by
  unfold Inbound.removeAssembly
  split
  · rfl
  · rfl

@[simp] theorem Inbound.removeAssembly_delivered (s : Inbound ρ) (sequence : UInt64) :
    (s.removeAssembly sequence).delivered = s.delivered := by
  unfold Inbound.removeAssembly
  split
  · rfl
  · rfl

@[simp] theorem Inbound.removeAssembly_budget (s : Inbound ρ) (sequence : UInt64) :
    (s.removeAssembly sequence).budget = s.budget := by
  unfold Inbound.removeAssembly
  split
  · rfl
  · rfl

/-- `s'` is what `a` left of `s`. -/
structure Agrees (s s' : Inbound ρ) (sequence : UInt64) (a : Accepted) : Prop where
  reassembler : s'.reassembler = a.reassembler
  replay : s'.replay = a.replay
  delivered : s'.delivered = (a.payload.map (sequence, ·)).toList ++ s.delivered

omit [DecidableEq ρ] in
theorem Inbound.deliver_agrees (s : Inbound ρ) (sequence : UInt64) (payload : Bytes) :
    Agrees s (s.deliver sequence payload) sequence
      (admitSequence s.reassembler s.replay sequence payload) := by
  unfold Inbound.deliver admitSequence
  dsimp only
  split
  · exact ⟨rfl, rfl, rfl⟩
  · exact ⟨rfl, rfl, rfl⟩

theorem Inbound.place_agrees (s : Inbound ρ) (assembly : Assembly) (newAssembly : Bool)
    (packet : Packet) : ∃ reserved, Agrees s (s.place assembly newAssembly packet) packet.sequence
      (s.reassembler.place assembly newAssembly packet s.replay reserved) := by
  refine ⟨(s.budgets.reserveFrom s.budget packet.payload.length).isSome, ?_⟩
  have hreject : Agrees s (if newAssembly then s else s.removeAssembly packet.sequence) packet.sequence
      ⟨none, if newAssembly then s.reassembler else s.reassembler.removeAssembly packet.sequence,
        s.replay⟩ := by
    cases newAssembly with
    | true => exact ⟨rfl, rfl, rfl⟩
    | false => exact ⟨s.removeAssembly_reassembler _, s.removeAssembly_replay _, s.removeAssembly_delivered _⟩
  unfold Inbound.place Reassembler.place
  dsimp only
  split
  · exact ⟨rfl, rfl, rfl⟩
  split
  · exact hreject
  cases hreserve : s.budgets.reserveFrom s.budget packet.payload.length with
  | none => exact hreject
  | some budgets =>
    simp only [Option.isSome_some, Bool.not_true, Bool.false_eq_true, if_false]
    show Agrees s
      (if (assembly.add packet).received ≠ (assembly.add packet).fragments.toNat then _ else _) _
      (if (assembly.add packet).received ≠ (assembly.add packet).fragments.toNat then _ else _)
    by_cases hmore : (assembly.add packet).received ≠ (assembly.add packet).fragments.toNat
    · rw [if_pos hmore, if_pos hmore]
      exact ⟨rfl, rfl, rfl⟩
    · rw [if_neg hmore, if_neg hmore]
      obtain ⟨hr, hreplay, hdelivered⟩ := Inbound.deliver_agrees
        (Inbound.removeAssembly { s with
          budgets := budgets
          reassembler := s.reassembler.putAssembly packet.sequence (assembly.add packet) }
          packet.sequence) packet.sequence
        ((assembly.add packet).chunks.map (·.getD [])).flatten
      rw [Inbound.removeAssembly_reassembler, putAssembly_removeAssembly,
        Inbound.removeAssembly_replay] at hr hreplay hdelivered
      rw [Inbound.removeAssembly_delivered] at hdelivered
      exact ⟨hr, hreplay, hdelivered⟩

@[simp] theorem Inbound.evictOldest_reassembler (s : Inbound ρ) :
    s.evictOldest.reassembler = s.reassembler.evictOldest := by
  unfold Inbound.evictOldest Reassembler.evictOldest
  cases oldest s.pending with
  | none => rfl
  | some e => exact s.removeAssembly_reassembler e.1

/-- The budget takes part in `accept` by its answer only. -/
theorem Inbound.accept_agrees (s : Inbound ρ) (packet : Packet) (now : Int) :
    ∃ reserved, Agrees s (s.accept packet now) packet.sequence
      (s.reassembler.accept packet s.replay now reserved) := by
  unfold Inbound.accept Reassembler.accept
  split
  · exact ⟨true, rfl, rfl, rfl⟩
  split
  · exact ⟨true, s.deliver_agrees _ _⟩
  split
  · exact ⟨true, rfl, rfl, rfl⟩
  dsimp only
  have hsame : (s.expire now).reassembler = s.reassembler.expire now := rfl
  rw [← hsame]
  cases hlookup : (s.expire now).pending.lookup packet.sequence with
  | some assembly =>
    dsimp only
    split
    · exact ⟨true, Inbound.removeAssembly_reassembler _ _, Inbound.removeAssembly_replay _ _,
        Inbound.removeAssembly_delivered _ _⟩
    · obtain ⟨reserved, hr, hreplay, hdelivered⟩ := (s.expire now).place_agrees assembly false packet
      exact ⟨reserved, hr, hreplay, hdelivered⟩
  | none =>
    dsimp only
    split
    · obtain ⟨reserved, hr, hreplay, hdelivered⟩ :=
        (s.expire now).evictOldest.place_agrees (newAssembly packet now) true packet
      have hkept : (s.expire now).evictOldest.replay = s.replay ∧
          (s.expire now).evictOldest.delivered = s.delivered := by
        unfold Inbound.evictOldest
        split
        · exact ⟨rfl, rfl⟩
        · exact ⟨Inbound.removeAssembly_replay _ _, Inbound.removeAssembly_delivered _ _⟩
      rw [Inbound.evictOldest_reassembler, hkept.1] at hr hreplay hdelivered
      rw [hkept.2] at hdelivered
      exact ⟨reserved, hr, hreplay, hdelivered⟩
    · obtain ⟨reserved, hr, hreplay, hdelivered⟩ :=
        (s.expire now).place_agrees (newAssembly packet now) true packet
      exact ⟨reserved, hr, hreplay, hdelivered⟩

end

/-! ## One budget -/

section
variable [DecidableEq ρ]

omit [DecidableEq ρ] in
@[simp] theorem Inbound.deliver_budget (s : Inbound ρ) (sequence : UInt64) (payload : Bytes) :
    (s.deliver sequence payload).budget = s.budget := by
  unfold Inbound.deliver
  dsimp only
  split
  · rfl
  · rfl

theorem Inbound.place_budget (s : Inbound ρ) (assembly : Assembly) (newAssembly : Bool) (packet : Packet) :
    (s.place assembly newAssembly packet).budget = s.budget := by
  have hreject : (if newAssembly then s else s.removeAssembly packet.sequence).budget = s.budget := by
    split
    · rfl
    · exact s.removeAssembly_budget _
  unfold Inbound.place
  dsimp only
  split
  · rfl
  split
  · exact hreject
  split
  · exact hreject
  split
  · rfl
  · rw [Inbound.deliver_budget, Inbound.removeAssembly_budget]

theorem Inbound.accept_budget (s : Inbound ρ) (packet : Packet) (now : Int) :
    (s.accept packet now).budget = s.budget := by
  have hevict : (s.expire now).evictOldest.budget = s.budget := by
    unfold Inbound.evictOldest
    split
    · rfl
    · exact Inbound.removeAssembly_budget _ _
  unfold Inbound.accept
  split
  · rfl
  split
  · exact s.deliver_budget _ _
  split
  · rfl
  dsimp only
  split
  · split
    · exact Inbound.removeAssembly_budget _ _
    · exact Inbound.place_budget _ _ _ _
  · rw [Inbound.place_budget]
    split
    · exact hevict
    · rfl

theorem Inbound.receiveAll_budget (codec : Codec) (s : Inbound ρ) (arrivals : List Arrival) :
    (s.receiveAll codec arrivals).budget = s.budget := by
  induction arrivals generalizing s with
  | nil => rfl
  | cons x arrivals ih =>
    have hone : (s.receive codec x).budget = s.budget := by
      unfold Inbound.receive
      split
      · rfl
      · exact s.accept_budget _ _
    exact (ih (s.receive codec x)).trans hone

end

/-! ## One set -/

/-- An assembly collects `fragments`: what it has of them it has in their places, and it
counts them and their bytes. -/
structure Collects (fragments : List Packet) (a : Assembly) : Prop where
  count : a.fragments.toNat = fragments.length
  within : Within a.chunks (fragments.map Packet.payload)
  received : a.received = filled a.chunks
  total : a.total = size List.length a.chunks

variable {packet : Packet} {fragments : List Packet}

theorem Collects.fresh (h : packet.fragments.toNat = fragments.length) (now : Int) :
    Collects fragments (newAssembly packet now) where
  count := h
  within := by
    have hempty := Within.empty (fragments.map Packet.payload)
    rwa [List.length_map, ← h] at hempty
  received := (filled_empty _).symm
  total := (size_empty _ _).symm

theorem length_flatten_payload (fragments : List Packet) :
    ((fragments.map Packet.payload).map List.length).sum = (fragments.map Packet.payload).flatten.length :=
  List.length_flatten.symm

theorem Collects.add {a : Assembly} (h : Collects fragments a)
    (hpacket : fragments[packet.fragment.toNat]? = some packet)
    (habsent : a.chunks[packet.fragment.toNat]? = some none) :
    Collects fragments (a.add packet) where
  count := h.count
  within := by
    apply h.within.set
    rw [List.getElem?_map, hpacket]
    rfl
  received := by
    show a.received + 1 = filled (a.chunks.set _ (some packet.payload))
    rw [filled_set habsent, h.received]
  total := by
    show a.total + packet.payload.length = size List.length (a.chunks.set _ (some packet.payload))
    rw [size_set List.length habsent, h.total]

theorem Collects.total_le {a : Assembly} (h : Collects fragments a) :
    a.total ≤ (fragments.map Packet.payload).flatten.length := by
  rw [h.total, ← length_flatten_payload]
  exact h.within.size_le List.length

theorem Collects.flatten {a : Assembly} (h : Collects fragments a) (hall : filled a.chunks = fragments.length) :
    (a.chunks.map (·.getD [])).flatten = (fragments.map Packet.payload).flatten := by
  rw [h.within.complete (by rw [List.length_map]; exact hall), List.map_map]
  simp [Function.comp_def]

/-- The session with one more fragment in a set. -/
def Inbound.put (s : Inbound ρ) (budgets : Budgets ρ) (assembly : Assembly) (packet : Packet) : Inbound ρ :=
  { s with
    budgets := budgets
    reassembler := s.reassembler.putAssembly packet.sequence (assembly.add packet) }

/-- A fragment that its set has is dropped; any other is added, and with the last one the
datagram goes to the replay window. -/
theorem Inbound.place_cases [DecidableEq ρ] {s : Inbound ρ} {assembly : Assembly} {budgets : Budgets ρ}
    (hc : Collects fragments assembly) (hpacket : fragments[packet.fragment.toNat]? = some packet)
    (hsize : (fragments.map Packet.payload).flatten.length ≤ fxpUDPMaxDatagramPayload)
    (hreserve : s.budgets.reserveFrom s.budget packet.payload.length = some budgets) (newAssembly : Bool) :
    ((assembly.chunks.getD packet.fragment.toNat none).isSome = true ∧
      s.place assembly newAssembly packet = s) ∨
    (assembly.chunks[packet.fragment.toNat]? = some none ∧ Collects fragments (assembly.add packet) ∧
      ((filled (assembly.add packet).chunks ≠ fragments.length ∧
        s.place assembly newAssembly packet = s.put budgets assembly packet) ∨
      (filled (assembly.add packet).chunks = fragments.length ∧
        s.place assembly newAssembly packet =
          ((s.put budgets assembly packet).removeAssembly packet.sequence).deliver packet.sequence
            (fragments.map Packet.payload).flatten))) := by
  unfold Inbound.place
  dsimp only
  by_cases hpresent : (assembly.chunks.getD packet.fragment.toNat none).isSome = true
  · rw [if_pos hpresent]
    exact .inl ⟨hpresent, rfl⟩
  · have hlt : packet.fragment.toNat < assembly.chunks.length := by
      rw [hc.within.length_eq, List.length_map]
      exact (List.getElem?_eq_some_iff.mp hpacket).1
    have habsent : assembly.chunks[packet.fragment.toNat]? = some none := by
      rw [List.getD_eq_getElem _ _ hlt] at hpresent
      rw [List.getElem?_eq_getElem hlt, Option.not_isSome_iff_eq_none.mp hpresent]
    have hadd := hc.add hpacket habsent
    have hroom : ¬ assembly.total + packet.payload.length > fxpUDPMaxDatagramPayload :=
      Nat.not_lt.mpr (Nat.le_trans hadd.total_le hsize)
    rw [if_neg hpresent, if_neg hroom, hreserve]
    refine .inr ⟨habsent, hadd, ?_⟩
    dsimp only
    rw [hadd.received, hadd.count]
    by_cases hall : filled (assembly.add packet).chunks = fragments.length
    · rw [if_neg (fun hne => hne hall), hadd.flatten hall]
      exact .inr ⟨hall, rfl⟩
    · rw [if_pos hall]
      exact .inl ⟨hall, rfl⟩

/-! ## All pending sets -/

def Inbound.total (s : Inbound ρ) : Int := Tally.total (fun a : Assembly => (a.total : Int)) s.pending

section
variable [DecidableEq ρ] [Fintype ρ]

/-- The session is open, has one set for a sequence, each of them as `P` says, and its
budget holds their bytes on top of `base`. -/
structure Inbound.Sound (base : ρ → Int) (P : UInt64 → Assembly → Prop) (s : Inbound ρ) : Prop where
  opened : s.reassembler.closed = false
  nodup : (Assoc.keys s.pending).Nodup
  sets : ∀ e ∈ s.pending, P e.1 e.2
  balanced : Balanced s.budgets (fun r => base r + charge s.budget s.total r)

variable {base : ρ → Int} {P P' : UInt64 → Assembly → Prop} {s : Inbound ρ}

theorem Inbound.Sound.mono (h : s.Sound base P) (himp : ∀ k a, P k a → P' k a) : s.Sound base P' :=
  { h with sets := fun e he => himp e.1 e.2 (h.sets e he) }

omit [Fintype ρ] in
theorem charge_le_charge (budget : Option ρ) {m n : Int} (h : m ≤ n) (r : ρ) :
    charge budget m r ≤ charge budget n r := by
  have := charge_nonneg (show 0 ≤ n - m by omega) budget r
  rw [charge_sub] at this
  omega

theorem releaseSets_balanced (hbase : ∀ r, 0 ≤ base r) {budget : Option ρ} {m : Int} (hm : 0 ≤ m)
    (removed : List (UInt64 × Assembly)) {b : Budgets ρ} (h : Balanced b (fun r => base r +
      charge budget (m + Tally.total (fun a : Assembly => (a.total : Int)) removed) r)) :
    Balanced (releaseSets b budget removed) (fun r => base r + charge budget m r) := by
  induction removed generalizing b with
  | nil =>
    apply h.congr
    intro r
    simp [Tally.total]
  | cons e removed ih =>
    have hrest := Tally.total_nonneg (fun a : Assembly => (a.total : Int))
      (fun _ => Int.natCast_nonneg _) removed
    apply ih
    have hle : ∀ r, charge budget (e.2.total : Int) r ≤ base r +
        charge budget (m + Tally.total (fun a : Assembly => (a.total : Int)) (e :: removed)) r := by
      intro r
      have hcharge := charge_le_charge budget (show (e.2.total : Int) ≤
        m + Tally.total (fun a : Assembly => (a.total : Int)) (e :: removed) by
          rw [Tally.total_cons]
          omega) r
      have := hbase r
      omega
    apply (h.releaseTo hle).congr
    intro r
    rw [Tally.total_cons, add_sub_assoc, ← charge_sub]
    congr 2
    ring

theorem Inbound.Sound.expire (hbase : ∀ r, 0 ≤ base r) (h : s.Sound base P) (now : Int) :
    (s.expire now).Sound base P where
  opened := h.opened
  nodup := h.nodup.sublist (List.filter_sublist.map Prod.fst)
  sets e he := h.sets e (List.mem_filter.mp he).1
  balanced := by
    apply releaseSets_balanced hbase (Tally.total_nonneg _ (fun _ => Int.natCast_nonneg _) _)
    have htotal : (s.expire now).total + Tally.total (fun a : Assembly => (a.total : Int))
        (s.pending.filter (fun e => !decide (now - e.2.createdAt < fxpUDPFragmentTimeout))) = s.total :=
      Tally.total_filter_add _ _ _
    apply h.balanced.congr
    intro r
    rw [← htotal]
    rfl

theorem Inbound.Sound.removeAssembly (hbase : ∀ r, 0 ≤ base r) (h : s.Sound base P)
    {sequence : UInt64} (himp : ∀ k a, k ≠ sequence → P k a → P' k a) :
    (s.removeAssembly sequence).Sound base P' where
  opened := by
    rw [Inbound.removeAssembly_reassembler]
    exact h.opened
  nodup := by
    unfold Inbound.pending
    rw [Inbound.removeAssembly_reassembler]
    exact Assoc.nodup_erase h.nodup sequence
  sets e he := by
    unfold Inbound.pending at he
    rw [Inbound.removeAssembly_reassembler] at he
    obtain ⟨hmem, hne⟩ := List.mem_filter.mp he
    exact himp e.1 e.2 (by simpa using hne) (h.sets e hmem)
  balanced := by
    unfold Inbound.removeAssembly
    cases hlookup : s.pending.lookup sequence with
    | none => exact h.balanced
    | some a =>
      have hafter : Tally.total (fun a : Assembly => (a.total : Int))
          (s.reassembler.removeAssembly sequence).pending = s.total - a.total :=
        Tally.total_erase _ h.nodup hlookup
      have hrest := Tally.total_nonneg (fun a : Assembly => (a.total : Int))
        (fun _ => Int.natCast_nonneg _) (s.reassembler.removeAssembly sequence).pending
      have hle : ∀ r, charge s.budget (a.total : Int) r ≤ base r + charge s.budget s.total r := by
        intro r
        have hcharge := charge_le_charge s.budget (show (a.total : Int) ≤ s.total by omega) r
        have := hbase r
        omega
      apply (h.balanced.releaseTo hle).congr
      intro r
      show base r + charge s.budget s.total r - charge s.budget (a.total : Int) r =
        base r + charge s.budget (Tally.total (fun a : Assembly => (a.total : Int))
          (s.reassembler.removeAssembly sequence).pending) r
      rw [hafter, charge_sub]
      omega

theorem Inbound.Sound.put (h : s.Sound base P) {assembly : Assembly} {now : Int} {budgets : Budgets ρ}
    (hfound : (s.pending.lookup packet.sequence).getD (newAssembly packet now) = assembly)
    (hreserve : s.budgets.reserveFrom s.budget packet.payload.length = some budgets)
    (himp : ∀ k a, k ≠ packet.sequence → P k a → P' k a) (hnew : P' packet.sequence (assembly.add packet)) :
    (s.put budgets assembly packet).Sound base P' where
  opened := h.opened
  nodup := Assoc.nodup_put h.nodup packet.sequence (assembly.add packet)
  sets e he := by
    rcases List.mem_append.mp he with he | he
    · obtain ⟨hmem, hne⟩ := List.mem_filter.mp he
      exact himp e.1 e.2 (by simpa using hne) (h.sets e hmem)
    · obtain rfl := List.mem_singleton.mp he
      exact hnew
  balanced := by
    have hput : (s.put budgets assembly packet).total =
        Tally.total (fun a : Assembly => (a.total : Int)) (Assoc.erase s.pending packet.sequence) +
          (assembly.total + packet.payload.length) := by
      have hrow := Tally.sum_map_concat (fun e : UInt64 × Assembly => (e.2.total : Int))
        (Assoc.erase s.pending packet.sequence) (packet.sequence, assembly.add packet)
      exact hrow
    have herase : Tally.total (fun a : Assembly => (a.total : Int))
        (Assoc.erase s.pending packet.sequence) = s.total - assembly.total := by
      cases hlookup : s.pending.lookup packet.sequence with
      | none =>
        rw [hlookup] at hfound
        rw [Assoc.erase_of_notMem (Assoc.lookup_eq_none.mp hlookup), ← hfound]
        simp [Inbound.total, newAssembly]
      | some a =>
        rw [hlookup] at hfound
        rw [Tally.total_erase _ h.nodup hlookup, ← hfound]
        rfl
    apply (h.balanced.reserveFrom hreserve).congr
    intro r
    rw [hput, herase]
    show base r + charge s.budget s.total r + charge s.budget (packet.payload.length : Int) r =
      base r + charge s.budget (s.total - assembly.total + (assembly.total + packet.payload.length)) r
    rw [Int.add_assoc, ← charge_add]
    congr 2
    ring

end

end ForwardX.Udp
