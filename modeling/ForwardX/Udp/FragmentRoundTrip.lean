import ForwardX.Udp.Reassembly

/- Datagrams survive the network. The frames of several transmissions arrive in any order
   and any number of times; as long as the frames of a set come within five seconds, no
   more than eight sets are pending, the sequences stay within the replay window and
   the budget suffices (`Orderly`), a session delivers every datagram that is complete,
   once, and nothing else, and its budget holds what the pending sets hold
   (`udp_fragmentation_round_trip`).

   The invariant says what has come out (`Log`), what a pending set is (`IsSet`), and
   that the set of an incomplete transmission has what arrived of it (`Gathered`),
   unless it came too late for the rest (`Late`). -/
namespace ForwardX.Udp
open Wire Aead Gather

universe u

variable {ρ : Type u}

def Complete (t : Transmission) (arrivals : List Arrival) : Prop :=
  ∀ frame ∈ t.frames, frame ∈ arrivals.map Arrival.frame

/-- The budget has room for a packet, and no pending set has to give way to its set. -/
structure Inbound.Ready [DecidableEq ρ] (s : Inbound ρ) (packet : Packet) : Prop where
  place : s.pending.length < fxpUDPMaxPendingFragmentSets ∨
    (s.pending.lookup packet.sequence).isSome = true
  funds : (s.budgets.reserveFrom s.budget packet.payload.length).isSome = true

/-- What the network and the configuration owe the session `s`. -/
structure Orderly [DecidableEq ρ] (codec : Codec) (s : Inbound ρ) (ts : List Transmission)
    (arrivals : List Arrival) : Prop where
  /-- Only frames of the transmissions arrive. -/
  sent : ∀ x ∈ arrivals, ∃ t ∈ ts, x.frame ∈ t.frames
  clock : arrivals.Pairwise (fun x y => x.now ≤ y.now)
  /-- Until a set is complete, its frames come within five seconds. -/
  inTime : ∀ before x after, arrivals = before ++ x :: after → ∀ t ∈ ts, x.frame ∈ t.frames →
    ¬ Complete t before → ∀ y ∈ before, y.frame ∈ t.frames →
    x.now - y.now < fxpUDPFragmentTimeout
  /-- A set that gets complete is less than 64 behind those that are. -/
  window : ∀ before x after, arrivals = before ++ x :: after → ∀ t ∈ ts,
    Complete t (before ++ [x]) → ¬ Complete t before →
    ∀ t' ∈ ts, Complete t' before → t'.sequence.toNat < t.sequence.toNat + 64
  ready : ∀ before x after, arrivals = before ++ x :: after → ∀ packet,
    codec.openPacket x.frame = .ok packet → packet.fragments ≠ 0 →
    ((s.receiveAll codec before).expire x.now).Ready packet

/-! ## Frames and their transmissions -/

/-- Transmissions with sequences of their own, and the fragments they carry. -/
structure Sent (codec : Codec) (ts : List Transmission) (fragments : Transmission → List Packet) : Prop where
  distinct : (ts.map Transmission.sequence).Nodup
  nonzero : ∀ t ∈ ts, t.sequence ≠ 0
  carried : ∀ t ∈ ts, Carried codec t (fragments t)

theorem forall₂_getElem? {α β : Type} {R : α → β → Prop} {l : List α} {l' : List β}
    (h : List.Forall₂ R l l') {i : Nat} {y : β} (hy : l'[i]? = some y) :
    ∃ x, l[i]? = some x ∧ R x y := by
  induction h generalizing i with
  | nil => cases hy
  | cons hxy _ ih =>
    cases i with
    | zero =>
      obtain rfl := Option.some.inj hy
      exact ⟨_, rfl, hxy⟩
    | succ i => exact ih hy

variable {codec : Codec} {fragments : List Packet}

theorem Carried.open_frame {t : Transmission} (h : Carried codec t fragments) {i : Nat} {frame : Bytes}
    (hframe : t.frames[i]? = some frame) : ∃ packet, fragments[i]? = some packet ∧ codec.openPacket frame = .ok packet ∧
      packet.sequence = t.sequence := by
  obtain ⟨packet, hpacket, hopen, -⟩ := forall₂_getElem? h.opens hframe
  exact ⟨packet, hpacket, hopen, h.sequence packet (List.mem_of_getElem? hpacket)⟩

theorem Carried.length_eq {t : Transmission} (h : Carried codec t fragments) : fragments.length = t.frames.length :=
  List.Forall₂.length_eq h.opens

section
variable {codec : Codec} {ts : List Transmission} {fragments : Transmission → List Packet}

theorem Sent.eq_of_sequence (hs : Sent codec ts fragments) {t t' : Transmission} (ht : t ∈ ts)
    (ht' : t' ∈ ts) (h : t.sequence = t'.sequence) : t = t' :=
  List.inj_on_of_nodup_map hs.distinct ht ht' h

theorem Sent.eq_of_frame (hs : Sent codec ts fragments) {t t' : Transmission} (ht : t ∈ ts)
    (ht' : t' ∈ ts) {frame : Bytes} (h : frame ∈ t.frames) (h' : frame ∈ t'.frames) : t = t' := by
  obtain ⟨i, hi⟩ := List.mem_iff_getElem?.mp h
  obtain ⟨j, hj⟩ := List.mem_iff_getElem?.mp h'
  obtain ⟨p, -, hp, hseq⟩ := (hs.carried t ht).open_frame hi
  obtain ⟨q, -, hq, hseq'⟩ := (hs.carried t' ht').open_frame hj
  obtain rfl : p = q := Except.ok.inj (hp.symm.trans hq)
  exact hs.eq_of_sequence ht ht' (hseq.symm.trans hseq')

variable {t : Transmission} {before : List Arrival}

theorem Complete.mono (h : Complete t before) (x : Arrival) : Complete t (before ++ [x]) := by
  intro frame hframe
  rw [List.map_append]
  exact List.mem_append_left _ (h frame hframe)

theorem Sent.complete_other (hs : Sent codec ts fragments) {t t' : Transmission} (ht : t ∈ ts)
    (ht' : t' ∈ ts) (hne : t' ≠ t) {x : Arrival} (hx : x.frame ∈ t.frames) (before : List Arrival) :
    Complete t' (before ++ [x]) ↔ Complete t' before := by
  refine ⟨fun h frame hframe => ?_, fun h => h.mono x⟩
  have hmem := h frame hframe
  rw [List.map_append, List.mem_append] at hmem
  rcases hmem with hmem | hmem
  · exact hmem
  · obtain rfl := List.mem_singleton.mp hmem
    exact absurd (hs.eq_of_frame ht' ht hframe hx) hne

/-! ## What has come out -/

/-- The session has delivered the complete transmissions, each once, and its window
holds their sequences. -/
structure Log (ts : List Transmission) (before : List Arrival) (s : Inbound ρ) : Prop where
  holds : Holds s.replay (s.delivered.map Prod.fst)
  once : (s.delivered.map Prod.fst).Nodup
  delivered : ∀ e, e ∈ s.delivered ↔ ∃ t ∈ ts, Complete t before ∧ e = (t.sequence, t.payload)

theorem Log.same {s s' : Inbound ρ} {x : Arrival} (h : Log ts before s)
    (hsame : ∀ t ∈ ts, Complete t (before ++ [x]) ↔ Complete t before) (hreplay : s'.replay = s.replay)
    (hdelivered : s'.delivered = s.delivered) : Log ts (before ++ [x]) s' where
  holds := by
    rw [hreplay, hdelivered]
    exact h.holds
  once := by
    rw [hdelivered]
    exact h.once
  delivered e := by
    rw [hdelivered, h.delivered]
    constructor
    · rintro ⟨t, ht, hcomplete, he⟩
      exact ⟨t, ht, (hsame t ht).mpr hcomplete, he⟩
    · rintro ⟨t, ht, hcomplete, he⟩
      exact ⟨t, ht, (hsame t ht).mp hcomplete, he⟩

theorem Log.deliver (hs : Sent codec ts fragments) {s s' : Inbound ρ} {x : Arrival} (h : Log ts before s) (ht : t ∈ ts)
    (hx : x.frame ∈ t.frames) (hafter : Complete t (before ++ [x]))
    (hwindow : ¬ Complete t before → ∀ t' ∈ ts, Complete t' before →
      t'.sequence.toNat < t.sequence.toNat + 64) (hreplay : s'.replay = s.replay)
    (hdelivered : s'.delivered = s.delivered) : Log ts (before ++ [x]) (s'.deliver t.sequence t.payload) := by
  have hout : t.sequence ∈ s.delivered.map Prod.fst ↔ Complete t before := by
    constructor
    · intro hmem
      obtain ⟨e, he, hseq⟩ := List.mem_map.mp hmem
      obtain ⟨t', ht', hcomplete, rfl⟩ := (h.delivered e).mp he
      rwa [hs.eq_of_sequence ht ht' hseq.symm]
    · intro hcomplete
      exact List.mem_map_of_mem ((h.delivered _).mpr ⟨t, ht, hcomplete, rfl⟩)
  have hother : ∀ t' ∈ ts, t' ≠ t → (Complete t' (before ++ [x]) ↔ Complete t' before) :=
    fun t' ht' hne => hs.complete_other ht ht' hne hx before
  unfold Inbound.deliver
  rw [hreplay]
  obtain ⟨htrue, hadm, hnext⟩ | ⟨hfalse, hnot, hsame⟩ := ReplayWindow.accept_spec h.holds t.sequence
  · -- a new sequence
    have hnew : ¬ Complete t before := fun hcomplete => hadm.2.1 (hout.mpr hcomplete)
    simp only [htrue, Bool.not_true, Bool.false_eq_true, if_false, hdelivered]
    refine ⟨hnext, List.nodup_cons.mpr ⟨hadm.2.1, h.once⟩, fun e => ?_⟩
    rw [List.mem_cons, h.delivered]
    constructor
    · rintro (rfl | ⟨t', ht', hcomplete, he⟩)
      · exact ⟨t, ht, hafter, rfl⟩
      · exact ⟨t', ht', hcomplete.mono x, he⟩
    · rintro ⟨t', ht', hcomplete, he⟩
      by_cases heq : t' = t
      · rw [heq] at he
        exact .inl he
      · exact .inr ⟨t', ht', (hother t' ht' heq).mp hcomplete, he⟩
  · -- the window refuses what it holds, and nothing else here
    have hold : Complete t before := by
      by_contra hnew
      apply hnot
      refine ⟨hs.nonzero t ht, fun hmem => hnew (hout.mp hmem), fun n hn => ?_⟩
      obtain ⟨e, he, rfl⟩ := List.mem_map.mp hn
      obtain ⟨t', ht', hcomplete, rfl⟩ := (h.delivered e).mp he
      exact hwindow hnew t' ht' hcomplete
    simp only [hfalse, Bool.not_false, if_true]
    refine h.same (fun t' ht' => ?_) hsame hdelivered
    by_cases heq : t' = t
    · rw [heq]
      exact iff_of_true hafter hold
    · exact hother t' ht' heq

/-! ## The pending sets -/

/-- A pending set is of a transmission, is not complete, and began with an arrival. -/
def IsSet (ts : List Transmission) (fragments : Transmission → List Packet) (before : List Arrival)
    (sequence : UInt64) (a : Assembly) : Prop :=
  ∃ t ∈ ts, t.sequence = sequence ∧ Collects (fragments t) a ∧
    filled a.chunks ≠ (fragments t).length ∧ ∃ y ∈ before, y.frame ∈ t.frames ∧ y.now = a.createdAt

theorem IsSet.mono {sequence : UInt64} {a : Assembly} (h : IsSet ts fragments before sequence a) (x : Arrival) :
    IsSet ts fragments (before ++ [x]) sequence a := by
  obtain ⟨t, ht, hseq, hc, hne, y, hy, hframe⟩ := h
  exact ⟨t, ht, hseq, hc, hne, y, List.mem_append_left _ hy, hframe⟩

def Late (t : Transmission) (before : List Arrival) : Prop :=
  ∃ y ∈ before, y.frame ∈ t.frames ∧ ∃ z ∈ before, fxpUDPFragmentTimeout ≤ z.now - y.now

theorem Late.mono (h : Late t before) (x : Arrival) : Late t (before ++ [x]) := by
  obtain ⟨y, hy, hframe, z, hz, hlate⟩ := h
  exact ⟨y, List.mem_append_left _ hy, hframe, z, List.mem_append_left _ hz, hlate⟩

/-- The transmission's set has what arrived of it. -/
def Gathered (t : Transmission) (before : List Arrival) (pending : List (UInt64 × Assembly)) : Prop :=
  ∀ i frame, t.frames[i]? = some frame → (frame ∈ before.map Arrival.frame ↔
    ∃ a, pending.lookup t.sequence = some a ∧ (a.chunks.getD i none).isSome = true)

theorem Gathered.other (hs : Sent codec ts fragments) {t t' : Transmission} (ht : t ∈ ts) (ht' : t' ∈ ts) (hne : t' ≠ t)
    {x : Arrival} (hx : x.frame ∈ t.frames) {pending pending' : List (UInt64 × Assembly)}
    (h : Gathered t' before pending) (hsame : pending'.lookup t'.sequence = pending.lookup t'.sequence) :
    Gathered t' (before ++ [x]) pending' := by
  intro i frame hframe
  rw [hsame, ← h i frame hframe, List.map_append, List.mem_append]
  constructor
  · rintro (hmem | hmem)
    · exact hmem
    · obtain rfl := List.mem_singleton.mp hmem
      exact absurd (hs.eq_of_frame ht' ht (List.mem_of_getElem? hframe) hx) hne
  · exact .inl

section
variable [DecidableEq ρ] [Fintype ρ]

/-- What is so after the arrivals `before`. -/
structure Inv (base : ρ → Int) (ts : List Transmission) (fragments : Transmission → List Packet)
    (before : List Arrival) (s : Inbound ρ) : Prop where
  sound : s.Sound base (IsSet ts fragments before)
  log : Log ts before s
  collected : ∀ t ∈ ts, 2 ≤ t.frames.length → ¬ Complete t before →
    Late t before ∨ Gathered t before s.pending

/-! ## One arrival -/

variable {base : ρ → Int} {s : Inbound ρ} {before : List Arrival} {x : Arrival} {t : Transmission}

theorem lookup_expire (hs : Sent codec ts fragments) (h : s.Sound base (IsSet ts fragments before))
    (ht : t ∈ ts) (now : Int) :
    (s.expire now).pending.lookup t.sequence = s.pending.lookup t.sequence ∨
    ∃ y ∈ before, y.frame ∈ t.frames ∧ fxpUDPFragmentTimeout ≤ now - y.now := by
  have hfilter : (s.expire now).pending.lookup t.sequence = (s.pending.lookup t.sequence).filter
      (fun a => decide (now - a.createdAt < fxpUDPFragmentTimeout)) :=
    Assoc.lookup_filter h.nodup _ t.sequence
  rw [hfilter]
  cases hlookup : s.pending.lookup t.sequence with
  | none => exact .inl rfl
  | some a =>
    obtain ⟨t', ht', hseq, -, -, y, hy, hframe, hcreated⟩ := h.sets _ (Assoc.mem_of_lookup hlookup)
    obtain rfl := hs.eq_of_sequence ht' ht hseq
    by_cases hnew : now - a.createdAt < fxpUDPFragmentTimeout
    · left
      simp [hnew]
    · right
      have hstart : y.now = a.createdAt := hcreated
      exact ⟨y, hy, hframe, by omega⟩

theorem accept_place (hs : Sent codec ts fragments) (h : s.Sound base (IsSet ts fragments before))
    (ht : t ∈ ts) (hmany : 2 ≤ (fragments t).length) {i : Nat} {packet : Packet} {now : Int}
    (hpacket : (fragments t)[i]? = some packet) (hready : (s.expire now).Ready packet)
    (hbase : ∀ r, 0 ≤ base r) :
    ∃ assembly new, ((s.expire now).pending.lookup packet.sequence).getD (newAssembly packet now) = assembly ∧
      Collects (fragments t) assembly ∧ s.accept packet now = (s.expire now).place assembly new packet ∧
      (assembly.createdAt = now ∨ ∃ y ∈ before, y.frame ∈ t.frames ∧ y.now = assembly.createdAt) := by
  have hcarried := hs.carried t ht
  obtain ⟨p, hone, -⟩ | ⟨-, hall⟩ := hcarried.shape
  · rw [hone] at hmany
    simp at hmany
  obtain ⟨-, hcount, hvalid, hpos, hle⟩ := hall i packet hpacket
  have hsequence := hcarried.sequence packet (List.mem_of_getElem? hpacket)
  have hexpired := h.expire hbase now
  have hopen : ¬ (s.reassembler.closed || !validFXPUDPFragmentMetadata packet.fragment packet.fragments) = true := by
    rw [h.opened, hvalid]
    decide
  have hseveral : packet.fragments ≠ 0 := by
    intro hzero
    rw [hzero] at hcount
    exact absurd hcount (Nat.ne_of_lt (Nat.lt_of_lt_of_le Nat.zero_lt_two hmany))
  have hsized : ¬ (packet.payload.length = 0 ∨ packet.payload.length > fxpUDPFragmentPayloadSize) := by
    omega
  unfold Inbound.accept
  rw [if_neg hopen, if_neg hseveral, if_neg hsized]
  dsimp only
  cases hlookup : (s.expire now).pending.lookup packet.sequence with
  | some a =>
    obtain ⟨t', ht', hseq, hc, -, hcreated⟩ := hexpired.sets _ (Assoc.mem_of_lookup hlookup)
    obtain rfl := hs.eq_of_sequence ht' ht (hseq.trans hsequence)
    have hsame : ¬ a.fragments ≠ packet.fragments := by
      rw [not_not]
      exact UInt8.toNat_inj.mp (hc.count.trans hcount.symm)
    dsimp only
    rw [if_neg hsame]
    exact ⟨a, false, rfl, hc, rfl, .inr hcreated⟩
  | none =>
    have hfree : ¬ (s.expire now).pending.length ≥ fxpUDPMaxPendingFragmentSets := by
      rcases hready.place with hfree | hsome
      · exact Nat.not_le.mpr hfree
      · rw [hlookup] at hsome
        cases hsome
    dsimp only
    rw [if_neg hfree]
    exact ⟨newAssembly packet now, true, rfl, Collects.fresh hcount now, rfl, .inl rfl⟩

omit [DecidableEq ρ] [Fintype ρ] in
/-- What has arrived of an incomplete transmission after one more frame. -/
theorem arrived_add (hs : Sent codec ts fragments) (ht : t ∈ ts) (hmany : 2 ≤ (fragments t).length)
    {packet : Packet} (hpacket : (fragments t)[packet.fragment.toNat]? = some packet)
    (hopen : codec.openPacket x.frame = .ok packet)
    (hx : t.frames[packet.fragment.toNat]? = some x.frame) {assembly : Assembly}
    (hc : Collects (fragments t) assembly)
    (hhas : ∀ j frame, t.frames[j]? = some frame → (frame ∈ before.map Arrival.frame ↔
      (assembly.chunks.getD j none).isSome = true)) {j : Nat} {frame : Bytes}
    (hframe : t.frames[j]? = some frame) : frame ∈ (before ++ [x]).map Arrival.frame ↔
      ((assembly.add packet).chunks.getD j none).isSome = true := by
  have hcarried := hs.carried t ht
  have hlt : packet.fragment.toNat < assembly.chunks.length := by
    rw [hc.within.length_eq, List.length_map]
    exact (List.getElem?_eq_some_iff.mp hpacket).1
  have hsame : frame = x.frame ↔ j = packet.fragment.toNat := by
    constructor
    · rintro rfl
      obtain ⟨p, hp, hagain, -⟩ := hcarried.open_frame hframe
      obtain rfl : p = packet := Except.ok.inj (hagain.symm.trans hopen)
      obtain ⟨q, hone, -⟩ | ⟨-, hall⟩ := hcarried.shape
      · rw [hone] at hmany
        simp at hmany
      · exact (hall j p hp).1.symm
    · rintro rfl
      exact Option.some.inj (hframe.symm.trans hx)
  show _ ↔ ((assembly.chunks.set _ (some packet.payload)).getD j none).isSome = true
  rw [isSome_getD_set hlt, ← hhas j frame hframe, ← hsame, List.map_append, List.mem_append, or_comm]
  exact or_congr_left List.mem_singleton

theorem Inbound.Sound.deliver {P : UInt64 → Assembly → Prop} (h : s.Sound base P) (sequence : UInt64)
    (payload : Bytes) : (s.deliver sequence payload).Sound base P := by
  unfold Inbound.deliver
  dsimp only
  split
  · exact ⟨h.opened, h.nodup, h.sets, h.balanced⟩
  · exact ⟨h.opened, h.nodup, h.sets, h.balanced⟩

omit [DecidableEq ρ] [Fintype ρ] in
@[simp] theorem Inbound.deliver_pending (s : Inbound ρ) (sequence : UInt64) (payload : Bytes) :
    (s.deliver sequence payload).pending = s.pending := by
  unfold Inbound.deliver
  dsimp only
  split
  · rfl
  · rfl

theorem Inv.step_one (hs : Sent codec ts fragments) (h : Inv base ts fragments before s) (ht : t ∈ ts)
    (hx : x.frame ∈ t.frames) (hone : (fragments t).length < 2)
    (hwindow : Complete t (before ++ [x]) → ¬ Complete t before → ∀ t' ∈ ts, Complete t' before →
      t'.sequence.toNat < t.sequence.toNat + 64) :
    Inv base ts fragments (before ++ [x]) (s.receive codec x) := by
  have hcarried := hs.carried t ht
  obtain ⟨p, hsingle, hfragment, hfragments⟩ | ⟨hmany, -⟩ := hcarried.shape
  swap
  · exact absurd hmany (Nat.not_le.mpr hone)
  have hlength : t.frames.length = 1 := by
    rw [← hcarried.length_eq, hsingle]
    rfl
  obtain ⟨frame, hframes⟩ := List.length_eq_one_iff.mp hlength
  obtain rfl : x.frame = frame := by
    rw [hframes] at hx
    exact List.mem_singleton.mp hx
  obtain ⟨q, hq, hopen, hsequence⟩ := hcarried.open_frame (show t.frames[0]? = some x.frame by rw [hframes]; rfl)
  obtain rfl : p = q := by
    rw [hsingle] at hq
    exact Option.some.inj hq
  have hpayload : p.payload = t.payload := by
    have := hcarried.payload
    rw [hsingle] at this
    simpa using this
  have hreceive : s.receive codec x = s.deliver t.sequence t.payload := by
    unfold Inbound.receive
    rw [hopen]
    show s.accept p x.now = _
    unfold Inbound.accept
    rw [h.sound.opened, hfragment, hfragments, hsequence, hpayload]
    rfl
  have hafter : Complete t (before ++ [x]) := by
    intro frame hframe
    rw [hframes] at hframe
    rw [List.mem_singleton.mp hframe, List.map_append]
    exact List.mem_append_right _ (List.mem_singleton.mpr rfl)
  rw [hreceive]
  refine ⟨(h.sound.deliver _ _).mono (fun _ _ hset => hset.mono x),
    h.log.deliver hs ht hx hafter (hwindow hafter) rfl rfl, fun t' ht' hmany hnew => ?_⟩
  have hne : t' ≠ t := by
    rintro rfl
    rw [hlength] at hmany
    exact absurd hmany (by decide)
  rw [hs.complete_other ht ht' hne hx] at hnew
  refine (h.collected t' ht' hmany hnew).imp (fun hlate => hlate.mono x) (fun hgathered => ?_)
  apply hgathered.other hs ht ht' hne hx
  rw [Inbound.deliver_pending]

theorem Inv.collected_other (hs : Sent codec ts fragments) (h : Inv base ts fragments before s)
    (ht : t ∈ ts) (hx : x.frame ∈ t.frames) {s' : Inbound ρ}
    (hkept : ∀ k, k ≠ t.sequence → s'.pending.lookup k = (s.expire x.now).pending.lookup k)
    {t' : Transmission} (ht' : t' ∈ ts) (hne : t' ≠ t) (hmany : 2 ≤ t'.frames.length)
    (hnew : ¬ Complete t' (before ++ [x])) :
    Late t' (before ++ [x]) ∨ Gathered t' (before ++ [x]) s'.pending := by
  rw [hs.complete_other ht ht' hne hx] at hnew
  rcases lookup_expire hs h.sound ht' x.now with hsame | ⟨y, hy, hframe, hold⟩
  · refine (h.collected t' ht' hmany hnew).imp (fun hlate => hlate.mono x) (fun hgathered => ?_)
    apply hgathered.other hs ht ht' hne hx
    rw [hkept t'.sequence (fun heq => hne (hs.eq_of_sequence ht' ht heq)), hsame]
  · exact .inl ⟨y, List.mem_append_left _ hy, hframe, x,
      List.mem_append_right _ (List.mem_singleton.mpr rfl), hold⟩

/-- A fragment of several is dropped, is added to its set, or completes it. -/
theorem Inv.step_many (hs : Sent codec ts fragments) (hbase : ∀ r, 0 ≤ base r)
    (h : Inv base ts fragments before s) (ht : t ∈ ts) (hx : x.frame ∈ t.frames)
    (hmany : 2 ≤ (fragments t).length) (hclock : ∀ z ∈ before, z.now ≤ x.now)
    (hinTime : ¬ Complete t before → ∀ y ∈ before, y.frame ∈ t.frames →
      x.now - y.now < fxpUDPFragmentTimeout)
    (hwindow : Complete t (before ++ [x]) → ¬ Complete t before → ∀ t' ∈ ts, Complete t' before →
      t'.sequence.toNat < t.sequence.toNat + 64)
    (hready : ∀ packet, codec.openPacket x.frame = .ok packet → packet.fragments ≠ 0 →
      (s.expire x.now).Ready packet) :
    Inv base ts fragments (before ++ [x]) (s.receive codec x) := by
  have hcarried := hs.carried t ht
  have hframes : 2 ≤ t.frames.length := by
    rw [← hcarried.length_eq]
    exact hmany
  obtain ⟨i, hi⟩ := List.mem_iff_getElem?.mp hx
  obtain ⟨packet, hpacket, hopen, hsequence⟩ := hcarried.open_frame hi
  obtain ⟨hindex, hseveral⟩ : packet.fragment.toNat = i ∧ packet.fragments ≠ 0 := by
    obtain ⟨p, hone, -⟩ | ⟨-, hall⟩ := hcarried.shape
    · rw [hone] at hmany
      simp at hmany
    · obtain ⟨hfragment, hcount, -⟩ := hall i packet hpacket
      refine ⟨hfragment, fun hzero => ?_⟩
      rw [hzero] at hcount
      exact absurd hcount (Nat.ne_of_lt (Nat.lt_of_lt_of_le Nat.zero_lt_two hmany))
  subst hindex
  have hfits := hready packet hopen hseveral
  obtain ⟨budgets, hreserve⟩ := Option.isSome_iff_exists.mp hfits.funds
  obtain ⟨assembly, new, hfound, hc, haccept, hcreated⟩ :=
    accept_place hs h.sound ht hmany hpacket hfits hbase
  have hreceive : s.receive codec x = (s.expire x.now).place assembly new packet := by
    unfold Inbound.receive
    rw [hopen]
    exact haccept
  have hexpired := h.sound.expire hbase x.now
  -- the set of an incomplete transmission has not expired
  have hown : ¬ Complete t before → (s.expire x.now).pending.lookup t.sequence = s.pending.lookup t.sequence ∧
      Gathered t before s.pending := by
    intro hnew
    constructor
    · rcases lookup_expire hs h.sound ht x.now with hsame | ⟨y, hy, hframe, hold⟩
      · exact hsame
      · exact absurd hold (Int.not_le.mpr (hinTime hnew y hy hframe))
    · rcases h.collected t ht hframes hnew with ⟨y, hy, hframe, z, hz, hold⟩ | hgathered
      · have := hinTime hnew y hy hframe
        have := hclock z hz
        omega
      · exact hgathered
  have hhas : ¬ Complete t before → ∀ j frame, t.frames[j]? = some frame →
      (frame ∈ before.map Arrival.frame ↔ (assembly.chunks.getD j none).isSome = true) := by
    intro hnew j frame hframe
    obtain ⟨hsame, hgathered⟩ := hown hnew
    rw [hgathered j frame hframe, ← hsame]
    rw [hsequence] at hfound
    cases hlookup : (s.expire x.now).pending.lookup t.sequence with
    | none =>
      rw [hlookup] at hfound
      rw [← hfound]
      simp [newAssembly, List.getD_eq_getElem?_getD, List.getElem?_replicate]
      split <;> simp
    | some a =>
      rw [hlookup] at hfound
      rw [← hfound]
      simp
  have hadded : ¬ Complete t before → ∀ j frame, t.frames[j]? = some frame →
      (frame ∈ (before ++ [x]).map Arrival.frame ↔
        ((assembly.add packet).chunks.getD j none).isSome = true) :=
    fun hnew j frame hframe => arrived_add hs ht hmany hpacket hopen hi hc (hhas hnew) hframe
  have hset : Collects (fragments t) (assembly.add packet) →
      filled (assembly.add packet).chunks ≠ (fragments t).length →
      IsSet ts fragments (before ++ [x]) packet.sequence (assembly.add packet) := by
    intro hadd hpart
    refine ⟨t, ht, hsequence.symm, hadd, hpart, ?_⟩
    rcases hcreated with hnow | ⟨y, hy, hframe, hcreated⟩
    · exact ⟨x, List.mem_append_right _ (List.mem_singleton.mpr rfl), hx, hnow.symm⟩
    · exact ⟨y, List.mem_append_left _ hy, hframe, hcreated⟩
  rw [hreceive]
  obtain ⟨hpresent, hplace⟩ | ⟨-, hadd, hcases⟩ := Inbound.place_cases hc hpacket
    (by rw [hcarried.payload]; exact hcarried.size) hreserve new
  · -- a duplicate
    have hdup : ¬ Complete t before → ∀ frame, frame ∈ (before ++ [x]).map Arrival.frame ↔
        frame ∈ before.map Arrival.frame := by
      intro hnew frame
      have hmem := (hhas hnew _ _ hi).mpr hpresent
      rw [List.map_append, List.mem_append]
      refine ⟨fun hor => hor.elim id fun hlast => ?_, .inl⟩
      rwa [List.mem_singleton.mp hlast]
    have hown' : Complete t (before ++ [x]) ↔ Complete t before := by
      by_cases hnew : Complete t before
      · exact iff_of_true (hnew.mono x) hnew
      · exact forall₂_congr fun frame _ => hdup hnew frame
    rw [hplace]
    refine ⟨hexpired.mono fun _ _ hset => hset.mono x, h.log.same (fun t' ht' => ?_) rfl rfl,
      fun t' ht' hmany' hnew => ?_⟩
    · by_cases heq : t' = t
      · rw [heq]
        exact hown'
      · exact hs.complete_other ht ht' heq hx before
    · by_cases heq : t' = t
      · subst heq
        rw [hown'] at hnew
        obtain ⟨hsame, hgathered⟩ := hown hnew
        refine .inr fun j frame hframe => ?_
        rw [hdup hnew, hsame]
        exact hgathered j frame hframe
      · exact h.collected_other hs ht hx (fun _ _ => rfl) ht' heq hmany' hnew
  have hlength : (assembly.add packet).chunks.length = (fragments t).length := by
    rw [hadd.within.length_eq, List.length_map]
  -- a set is full when the transmission is complete
  have hfull : ¬ Complete t before →
      (Complete t (before ++ [x]) ↔ filled (assembly.add packet).chunks = (fragments t).length) := by
    intro hnew
    rw [← hlength, filled_eq_length_iff, hlength, hcarried.length_eq]
    constructor
    · intro hafter j hj
      have hframe := List.getElem?_eq_getElem hj
      exact (hadded hnew j _ hframe).mp (hafter _ (List.getElem_mem hj))
    · intro hall frame hmem
      obtain ⟨j, hframe⟩ := List.mem_iff_getElem?.mp hmem
      exact (hadded hnew j frame hframe).mpr (hall j (List.getElem?_eq_some_iff.mp hframe).1)
  have himp : ∀ k a, k ≠ packet.sequence → IsSet ts fragments before k a →
      IsSet ts fragments (before ++ [x]) k a := fun _ _ _ hset => hset.mono x
  obtain ⟨hpart, hplace⟩ | ⟨hall, hplace⟩ := hcases
  · -- one more of the set
    have hown' : Complete t (before ++ [x]) ↔ Complete t before := by
      by_cases hnew : Complete t before
      · exact iff_of_true (hnew.mono x) hnew
      · exact iff_of_false (fun hafter => hpart ((hfull hnew).mp hafter)) hnew
    rw [hplace]
    refine ⟨hexpired.put hfound hreserve himp (hset hadd hpart), h.log.same (fun t' ht' => ?_) rfl rfl,
      fun t' ht' hmany' hnew => ?_⟩
    · by_cases heq : t' = t
      · rw [heq]
        exact hown'
      · exact hs.complete_other ht ht' heq hx before
    · by_cases heq : t' = t
      · subst heq
        rw [hown'] at hnew
        refine .inr fun j frame hframe => ?_
        have hlookup : ((s.expire x.now).put budgets assembly packet).pending.lookup t'.sequence =
            some (assembly.add packet) := by
          rw [← hsequence]
          exact Assoc.lookup_put_self _ _ _
        rw [hadded hnew j frame hframe, hlookup]
        simp
      · refine h.collected_other hs ht hx (fun k hk => ?_) ht' heq hmany' hnew
        rw [← hsequence] at hk
        exact Assoc.lookup_put_ne _ hk _
  · -- the last of the set
    have hafter : Complete t (before ++ [x]) := by
      by_cases hnew : Complete t before
      · exact hnew.mono x
      · exact (hfull hnew).mpr hall
    have hput : ((s.expire x.now).put budgets assembly packet).Sound base
        (fun k a => k ≠ packet.sequence → IsSet ts fragments (before ++ [x]) k a) :=
      hexpired.put hfound hreserve (fun k a hk hset _ => himp k a hk hset) (fun hne => absurd rfl hne)
    have hremoved : (((s.expire x.now).put budgets assembly packet).removeAssembly packet.sequence).Sound
        base (IsSet ts fragments (before ++ [x])) := hput.removeAssembly hbase (fun k a hk hset => hset hk)
    rw [hplace, hsequence, hcarried.payload]
    rw [hsequence] at hremoved
    refine ⟨hremoved.deliver _ _, h.log.deliver hs ht hx hafter (hwindow hafter)
      (Inbound.removeAssembly_replay _ _) (Inbound.removeAssembly_delivered _ _),
      fun t' ht' hmany' hnew => ?_⟩
    have hne : t' ≠ t := by
      rintro rfl
      exact hnew hafter
    refine h.collected_other hs ht hx (fun k hk => ?_) ht' hne hmany' hnew
    rw [Inbound.deliver_pending]
    unfold Inbound.pending
    rw [Inbound.removeAssembly_reassembler]
    have herased : ((s.expire x.now).put budgets assembly packet).pending.lookup k =
        (s.expire x.now).pending.lookup k := by
      rw [← hsequence] at hk
      exact Assoc.lookup_put_ne _ hk _
    exact (Assoc.lookup_erase_ne _ hk).trans herased

/-! ## Every run -/

theorem Inv.new (hbase : ∀ t ∈ ts, t.frames ≠ []) {budget : Option ρ} {budgets : Budgets ρ}
    (hbudgets : Balanced budgets base) : Inv base ts fragments [] (Inbound.new budget budgets) where
  sound := by
    refine ⟨rfl, List.nodup_nil, fun e he => (List.not_mem_nil he).elim, hbudgets.congr fun r => ?_⟩
    simp [Inbound.total, Inbound.new, Inbound.pending, Reassembler.new, Tally.total]
  log := by
    refine ⟨Holds.new, List.nodup_nil, fun e => iff_of_false List.not_mem_nil ?_⟩
    rintro ⟨t, ht, hcomplete, -⟩
    obtain ⟨frame, hframe⟩ := List.exists_mem_of_ne_nil _ (hbase t ht)
    exact List.not_mem_nil (hcomplete frame hframe)
  collected t _ _ _ := by
    right
    intro i frame _
    simp [Inbound.new, Inbound.pending, Reassembler.new]

theorem Inv.run (hs : Sent codec ts fragments) (hbase : ∀ r, 0 ≤ base r)
    (hnew : Inv base ts fragments [] s) {arrivals : List Arrival} (h : Orderly codec s ts arrivals)
    (before after : List Arrival) (hsplit : arrivals = before ++ after) :
    Inv base ts fragments before (s.receiveAll codec before) := by
  induction before using List.reverseRecOn generalizing after with
  | nil => exact hnew
  | append_singleton before x ih =>
    rw [List.append_assoc, List.singleton_append] at hsplit
    have hinv := ih (x :: after) hsplit
    obtain ⟨t, ht, hx⟩ := h.sent x (by rw [hsplit]; simp)
    have hclock : ∀ z ∈ before, z.now ≤ x.now := by
      have hpairs := h.clock
      rw [hsplit, List.pairwise_append] at hpairs
      exact fun z hz => hpairs.2.2 z hz x List.mem_cons_self
    have hstep : s.receiveAll codec (before ++ [x]) = (s.receiveAll codec before).receive codec x := by
      simp [Inbound.receiveAll]
    rw [hstep]
    by_cases hmany : 2 ≤ (fragments t).length
    · exact hinv.step_many hs hbase ht hx hmany hclock (h.inTime before x after hsplit t ht hx)
        (h.window before x after hsplit t ht) (h.ready before x after hsplit)
    · exact hinv.step_one hs ht hx (Nat.lt_of_not_le hmany) (h.window before x after hsplit t ht)

end

end

/-! ## The round trip -/

instance (t : Transmission) (arrivals : List Arrival) : Decidable (Complete t arrivals) :=
  inferInstanceAs (Decidable (∀ frame ∈ t.frames, frame ∈ arrivals.map Arrival.frame))

def Inbound.held (s : Inbound ρ) : Int :=
  Tally.total (fun a : Assembly => (size List.length a.chunks : Int)) s.pending

theorem mapM_openPacket {frames : List Bytes} (h : List.Forall₂ (fun p frame => codec.openPacket frame = .ok p ∧
      frame.length ≤ fxpUDPMaxWirePacketSize) fragments frames) :
    frames.mapM codec.openPacket = .ok fragments ∧ ∀ frame ∈ frames, frame.length ≤ fxpUDPMaxWirePacketSize := by
  induction h with
  | nil => exact ⟨rfl, fun frame hframe => (List.not_mem_nil hframe).elim⟩
  | cons hp _ ih =>
    constructor
    · rw [List.mapM_cons, hp.1, ih.1]
      rfl
    · intro frame hframe
      rcases List.mem_cons.mp hframe with rfl | hframe
      · exact hp.2
      · exact ih.2 frame hframe

/-- Datagrams of up to 65507 bytes are sealed as packets of at most 1200 bytes that open to
them, and from every orderly run of these packets' arrivals a session delivers the
complete datagrams, each once, and nothing else; its budget then holds, on top of what it
held before, the bytes of the sets that are not complete. -/
theorem udp_fragmentation_round_trip [DecidableEq ρ] [Fintype ρ] {codec : Codec} {packets : List Packet}
    {counter : UInt64} (hcontext : WireContext codec.context)
    (hpackets : ∀ packet ∈ packets, Unsealed codec packet)
    (hcounter : counter.toNat + packets.length ≤ maxUint64.toNat) :
    ∃ ts, transmit codec counter packets = .ok ts ∧
      ts.map Transmission.payload = packets.map Packet.payload ∧
      (∀ t ∈ ts, (∀ frame ∈ t.frames, frame.length ≤ fxpUDPMaxWirePacketSize) ∧
        ∃ fragments, t.frames.mapM codec.openPacket = .ok fragments ∧
          (fragments.map Packet.payload).flatten = t.payload) ∧
      ∀ (budget : Option ρ) (budgets : Budgets ρ) (arrivals : List Arrival),
        Balanced budgets (fun r => (budgets.rules r).used) →
        Orderly codec (Inbound.new budget budgets) ts arrivals →
        let s := (Inbound.new budget budgets).receiveAll codec arrivals
        s.delivered.Perm
          ((ts.filter (fun t => Complete t arrivals)).map (fun t => (t.sequence, t.payload))) ∧
        (∀ r, (s.budgets.rules r).used = (budgets.rules r).used + charge budget s.held r) ∧
        s.budgets.process.used = budgets.process.used + (if budget.isSome then s.held else 0) ∧
        ∀ e ∈ s.pending, none ∈ e.2.chunks := by
  obtain ⟨ts, hts, hpayloads, hdistinct, hgt, hcarried⟩ := transmit_ok hcontext hpackets hcounter
  refine ⟨ts, hts, hpayloads, fun t ht => ?_, fun budget budgets arrivals hbudgets horderly => ?_⟩
  · obtain ⟨fragments, h⟩ := hcarried t ht
    obtain ⟨hopen, hsmall⟩ := mapM_openPacket h.opens
    exact ⟨hsmall, fragments, hopen, h.payload⟩
  · intro s
    choose! fragments hfragments using hcarried
    have hs : Sent codec ts fragments := by
      refine ⟨hdistinct, fun t ht hzero => ?_, hfragments⟩
      have := hgt t ht
      rw [hzero] at this
      exact absurd this (Nat.not_lt_zero _)
    have hnonempty : ∀ t ∈ ts, t.frames ≠ [] := by
      intro t ht hnil
      have hlength := (hfragments t ht).length_eq
      rw [hnil] at hlength
      obtain ⟨p, hone, -⟩ | ⟨hmany, -⟩ := (hfragments t ht).shape
      · rw [hone] at hlength
        simp at hlength
      · rw [hlength] at hmany
        exact absurd hmany (by decide)
    have hinv : Inv (fun r => (budgets.rules r).used) ts fragments arrivals s :=
      Inv.run hs hbudgets.nonneg (Inv.new hnonempty hbudgets) horderly arrivals [] (by simp)
    have hbudget : s.budget = budget := Inbound.receiveAll_budget codec _ arrivals
    have hheld : s.total = s.held := by
      refine congrArg List.sum (List.map_congr_left fun e he => ?_)
      obtain ⟨t, -, -, hc, -⟩ := hinv.sound.sets e he
      show (e.2.total : Int) = (size List.length e.2.chunks : Int)
      rw [hc.total]
    have hbalanced := hinv.sound.balanced
    rw [hbudget, hheld] at hbalanced
    refine ⟨?_, hbalanced.rules, ?_, ?_⟩
    · refine (List.perm_ext_iff_of_nodup (List.Nodup.of_map Prod.fst hinv.log.once) ?_).mpr fun e => ?_
      · apply List.Nodup.of_map Prod.fst
        rw [List.map_map]
        exact (List.filter_sublist.map Transmission.sequence).nodup hdistinct
      · rw [hinv.log.delivered, List.mem_map]
        simp only [List.mem_filter, decide_eq_true_eq, and_assoc]
        exact exists_congr fun t => and_congr_right fun _ => and_congr_right fun _ => eq_comm
    · calc s.budgets.process.used
          = ∑ r, (s.budgets.rules r).used := hbalanced.process
        _ = ∑ r, ((budgets.rules r).used + charge budget s.held r) :=
            Finset.sum_congr rfl (fun r _ => hbalanced.rules r)
        _ = budgets.process.used + ∑ r, charge budget s.held r := by
            rw [Finset.sum_add_distrib, ← hbudgets.process]
        _ = budgets.process.used + (if budget.isSome then s.held else 0) := by
            cases budget with
            | none => simp
            | some r => simp [charge]
    · intro e he
      obtain ⟨t, -, -, hc, hpart, -⟩ := hinv.sound.sets e he
      apply none_mem_of_filled_ne
      rwa [hc.within.length_eq, List.length_map]

/-! ## Deciding what is orderly -/

section
variable [DecidableEq ρ] {codec : Codec} {s : Inbound ρ} {ts : List Transmission} {arrivals : List Arrival}

instance (s : Inbound ρ) (packet : Packet) : Decidable (s.Ready packet) :=
  decidable_of_iff ((s.pending.length < fxpUDPMaxPendingFragmentSets ∨
      (s.pending.lookup packet.sequence).isSome = true) ∧
    (s.budgets.reserveFrom s.budget packet.payload.length).isSome = true)
    ⟨fun h => ⟨h.1, h.2⟩, fun h => ⟨h.place, h.funds⟩⟩

/-- What `Orderly` asks of the arrival `x` after the arrivals `before`. -/
def OrderlyAt (codec : Codec) (s : Inbound ρ) (ts : List Transmission) (before : List Arrival) (x : Arrival) : Prop :=
  (∀ t ∈ ts, x.frame ∈ t.frames → ¬ Complete t before →
    ∀ y ∈ before, y.frame ∈ t.frames → x.now - y.now < fxpUDPFragmentTimeout) ∧
  (∀ t ∈ ts, Complete t (before ++ [x]) → ¬ Complete t before →
    ∀ t' ∈ ts, Complete t' before → t'.sequence.toNat < t.sequence.toNat + 64) ∧
  ∀ packet ∈ (codec.openPacket x.frame).toOption, packet.fragments ≠ 0 →
    ((s.receiveAll codec before).expire x.now).Ready packet

instance (codec : Codec) (s : Inbound ρ) (ts : List Transmission) (before : List Arrival) (x : Arrival) :
    Decidable (OrderlyAt codec s ts before x) := inferInstanceAs (Decidable (_ ∧ _ ∧ _))

theorem orderly_iff : Orderly codec s ts arrivals ↔
    (∀ x ∈ arrivals, ∃ t ∈ ts, x.frame ∈ t.frames) ∧ arrivals.Pairwise (fun x y => x.now ≤ y.now) ∧
      ∀ i (h : i < arrivals.length), OrderlyAt codec s ts (arrivals.take i) arrivals[i] := by
  constructor
  · intro h
    refine ⟨h.sent, h.clock, fun i hi => ?_⟩
    have hsplit : arrivals = arrivals.take i ++ arrivals[i] :: arrivals.drop (i + 1) := by
      rw [← List.drop_eq_getElem_cons hi, List.take_append_drop]
    refine ⟨h.inTime _ _ _ hsplit, h.window _ _ _ hsplit, fun packet hpacket => h.ready _ _ _ hsplit packet ?_⟩
    cases hopen : codec.openPacket arrivals[i].frame with
    | error e =>
      rw [hopen] at hpacket
      cases hpacket
    | ok packet' =>
      rw [hopen] at hpacket
      cases hpacket
      rfl
  · rintro ⟨hsent, hclock, hat⟩
    have hsplit : ∀ before x after, arrivals = before ++ x :: after → OrderlyAt codec s ts before x := by
      rintro before x after rfl
      simpa using hat before.length (by simp)
    refine ⟨hsent, hclock, fun before x after h => (hsplit before x after h).1,
      fun before x after h => (hsplit before x after h).2.1, fun before x after h packet hpacket => ?_⟩
    exact (hsplit before x after h).2.2 packet (by rw [hpacket]; rfl)

instance (codec : Codec) (s : Inbound ρ) (ts : List Transmission) (arrivals : List Arrival) :
    Decidable (Orderly codec s ts arrivals) := decidable_of_iff _ orderly_iff.symm

end

/-! ## Two datagrams of two fragments each -/

def plainCodec : Codec := ⟨⟨fxpUDPTypeData, 5, 7, 9⟩, Cipher.null⟩

/-- A datagram of `n` equal bytes. -/
def datagramOf (n : Nat) (byte : UInt8) : Packet := ⟨plainCodec.context, 0, 0, 0, List.replicate n byte⟩

def twoDatagrams : List Packet :=
  [datagramOf (fxpUDPFragmentPayloadSize + 1) 42, datagramOf (fxpUDPFragmentPayloadSize + 1) 43]

def twoTransmissions : List Transmission := (transmit plainCodec 0 twoDatagrams).toOption.getD []

/-- The fragments of the first datagram change places, and the first one of the second comes between
them; a fragment of the first comes again when that is complete, and then the last one. -/
def shuffled : List Transmission → List Arrival
  | [⟨_, _, [f, f']⟩, ⟨_, _, [g, g']⟩] => [⟨f', 0⟩, ⟨g, 1⟩, ⟨f, 2⟩, ⟨f', 3⟩, ⟨g', 4⟩]
  | _ => []

def smallBudgets : Budgets Unit := ⟨⟨4000, 0⟩, fun _ => ⟨3000, 0⟩, false⟩

/-- Both datagrams come out once, and the budget holds the byte that came again. -/
theorem round_trip_of_shuffled :
    transmit plainCodec 0 twoDatagrams = .ok twoTransmissions ∧
    (shuffled twoTransmissions).length = 5 ∧
    ((Inbound.new (some ()) smallBudgets).receiveAll plainCodec (shuffled twoTransmissions)).delivered.Perm
      [(1, List.replicate 1153 42), (2, List.replicate 1153 43)] ∧
    (((Inbound.new (some ()) smallBudgets).receiveAll plainCodec (shuffled twoTransmissions)).budgets.rules ()).used =
      1 := by
  have hpackets : ∀ packet ∈ twoDatagrams, Unsealed plainCodec packet := by
    intro packet hpacket
    rcases List.mem_cons.mp hpacket with rfl | hpacket
    · exact ⟨rfl, rfl, rfl, rfl, by decide +kernel⟩
    · rw [List.mem_singleton.mp hpacket]
      exact ⟨rfl, rfl, rfl, rfl, by decide +kernel⟩
  have hcontext : WireContext plainCodec.context := ⟨rfl, by decide, by decide⟩
  have hcounter : (0 : UInt64).toNat + twoDatagrams.length ≤ maxUint64.toNat := by decide
  obtain ⟨ts, hts, -, -, hrun⟩ := udp_fragmentation_round_trip (ρ := Unit) hcontext hpackets hcounter
  have hsame : twoTransmissions = ts := by
    rw [twoTransmissions, hts]
    rfl
  subst hsame
  have hbalanced : Balanced smallBudgets (fun r => (smallBudgets.rules r).used) := by
    constructor <;> simp [smallBudgets]
  have horderly : Orderly plainCodec (Inbound.new (some ()) smallBudgets) twoTransmissions (shuffled twoTransmissions) := by
    decide +kernel
  obtain ⟨hdelivered, hused, -⟩ := hrun (some ()) smallBudgets (shuffled twoTransmissions) hbalanced horderly
  have hcomplete : (twoTransmissions.filter fun t => Complete t (shuffled twoTransmissions)).map
      (fun t => (t.sequence, t.payload)) = [(1, List.replicate 1153 42), (2, List.replicate 1153 43)] := by
    decide +kernel
  have hheld : charge (some ()) ((Inbound.new (some ()) smallBudgets).receiveAll plainCodec
      (shuffled twoTransmissions)).held () = 1 := by
    decide +kernel
  refine ⟨hts, by decide +kernel, hcomplete ▸ hdelivered, ?_⟩
  rw [hused (), hheld]
  rfl

/-- Sealing refuses an exhausted counter and a session without an id. -/
theorem udp_sealing_refuses :
    (Unsealed ⟨⟨fxpUDPTypeData, 5, 7, 9⟩, Cipher.null⟩ ⟨⟨fxpUDPTypeData, 5, 7, 9⟩, 0, 0, 0, [42]⟩ ∧
      (sealFXPUDPDatagramsWithCodec ⟨⟨fxpUDPTypeData, 5, 7, 9⟩, 0, 0, 0, [42]⟩
        ⟨⟨fxpUDPTypeData, 5, 7, 9⟩, Cipher.null⟩ maxUint64).frames = .error "udp packet sequence exhausted") ∧
    (Unsealed ⟨⟨fxpUDPTypeData, 5, 7, 0⟩, Cipher.null⟩ ⟨⟨fxpUDPTypeData, 5, 7, 0⟩, 0, 0, 0, [42]⟩ ∧
      (sealFXPUDPDatagramsWithCodec ⟨⟨fxpUDPTypeData, 5, 7, 0⟩, 0, 0, 0, [42]⟩
        ⟨⟨fxpUDPTypeData, 5, 7, 0⟩, Cipher.null⟩ 0).frames = .error "invalid udp packet fields") :=
  ⟨⟨⟨rfl, rfl, rfl, rfl, by decide⟩, rfl⟩, ⟨⟨rfl, rfl, rfl, rfl, by decide⟩, rfl⟩⟩

end ForwardX.Udp
