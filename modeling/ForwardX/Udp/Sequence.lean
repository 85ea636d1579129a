import ForwardX.Lib.Slots
import ForwardX.Lib.Transition
import ForwardX.Udp.Packet

/- Sequence numbers of a whole FXP process (`udp_fragment.go`, the session types of
   `udp_direct.go`). Every sender of datagrams, whatever its session, starts its
   counter at a seed of one process-wide allocator and counts up on its own; the
   allocator hears of the counter when the session closes and when the sending
   loop exits.

   A new seed is above every older seed, not above every older counter, so two
   senders of one context can count through the same sequences. They cannot while
   each stays below the seeds of the newer ones (`nonceUnique_of_separated`), which
   holds when a sender is replaced only after it has stopped and been observed
   (`nonceUnique_of_retired`). -/
namespace ForwardX.Udp.Sequence
open Wire Aead Transition Slots

/-- `fxpUDPSequenceSeedAllocator.next`, with the clock reading in nanoseconds. The
loop of compare-and-swaps takes effect at the one that succeeds. -/
def nextSeed (last : UInt64) (nanos : Int64) : Except String UInt64 :=
  if nanos ≤ 0 then .error "udp sequence seed time out of range"
  else if nanos.toUInt64 ≤ last then
    if last = maxUint64 then .error "udp sequence seed exhausted" else .ok (last + 1)
  else .ok nanos.toUInt64

def observe (last sequence : UInt64) : UInt64 :=
  if sequence = 0 ∨ sequence ≤ last then last else sequence

/-- One direction of a session: the codec it seals with and the counter its one
sending loop advances. `observing` holds counter values that `close` or the exiting
loop has read and not yet told the allocator. -/
structure Sender where
  codec : Codec
  seed : UInt64
  counter : UInt64
  closed : Bool
  exited : Bool
  observing : List UInt64

/-- A process: the last seed handed out or observed, the senders in order of
creation, and every packet sealed. -/
structure Process where
  last : UInt64
  senders : List Sender
  sealed : List Packet

def Process.init : Process := ⟨0, [], []⟩

/-- What can happen next: a session creates a sender, or takes a seed and fails to
come up; a sending loop seals a datagram; a session closes; a sending loop exits;
a pending observation reaches the allocator. -/
inductive Act where
  | create (key : String) (context : Context) (nanos : Int64)
  | allocate (nanos : Int64)
  | send (i : Nat) (payload : Bytes)
  | close (i : Nat)
  | exit (i : Nat)
  | observe (i k : Nat)

/-- One step of the process; `none` where the action is not enabled. -/
def step (fxpUDPAEAD : String → Context → Cipher) (s : Process) : Act → Option Process
  | .create key context nanos =>
    match newFXPUDPCodec fxpUDPAEAD key context, nextSeed s.last nanos with
    | .ok codec, .ok seed =>
      some { s with last := seed, senders := s.senders ++ [⟨codec, seed, seed, false, false, []⟩] }
    | _, _ => none
  | .allocate nanos =>
    match nextSeed s.last nanos with
    | .ok seed => some { s with last := seed }
    | .error _ => none
  | .send i payload => (s.senders[i]?).bind fun x =>
    if x.exited then none
    else
      let r := sealFXPUDPDatagramsWithCodec ⟨x.codec.context, 0, 0, 0, payload⟩ x.codec x.counter
      some { s with senders := s.senders.set i { x with counter := r.counter },
                    sealed := s.sealed ++ r.packets }
  | .close i => (s.senders[i]?).bind fun x =>
    if x.closed then none
    else
      let x' := { x with closed := true, observing := x.observing ++ [x.counter] }
      some { s with senders := s.senders.set i x' }
  | .exit i => (s.senders[i]?).bind fun x =>
    if x.exited then none
    else
      let x' := { x with exited := true, observing := x.observing ++ [x.counter] }
      some { s with senders := s.senders.set i x' }
  | .observe i k => (s.senders[i]?).bind fun x => (x.observing[k]?).bind fun sequence =>
    some { s with last := observe s.last sequence,
                  senders := s.senders.set i { x with observing := x.observing.eraseIdx k } }

def process (fxpUDPAEAD : String → Context → Cipher) : Steps Process Act :=
  Steps.ofFn (step fxpUDPAEAD)

/-- No two sealed packets of one context have the same sequence and fragment. -/
def NonceUnique (s : Process) : Prop :=
  (s.sealed.map (fun p => (p.context, p.sequence, p.fragment))).Nodup

/-- Senders of one context stay apart: a new one is seeded no lower than the
counters of the older ones, and an older one does not count past the seed of a
newer one. -/
def Separated (s : Process) : Act → Prop
  | .create _ context nanos => ∀ seed, nextSeed s.last nanos = .ok seed →
      ∀ x ∈ s.senders, x.codec.context = context → x.counter ≤ seed
  | .send i _ => ∀ x, s.senders[i]? = some x → ∀ j y, i < j → s.senders[j]? = some y →
      y.codec.context = x.codec.context → x.counter < y.seed
  | _ => True

/-- A sender is created only when every sender of its context has exited and its
observations have reached the allocator. -/
def Retired (s : Process) : Act → Prop
  | .create _ context _ => ∀ x ∈ s.senders, x.codec.context = context →
      x.exited = true ∧ x.observing = []
  | _ => True

/-! ## The allocator -/

theorem nextSeed_gt {last seed : UInt64} {nanos : Int64} (h : nextSeed last nanos = .ok seed) :
    last.toNat < seed.toNat := by
  unfold nextSeed at h
  split at h
  · cases h
  split at h
  · split at h
    · cases h
    · rename_i hne
      cases h
      have hlt := last.toNat_lt
      have hmax : last.toNat ≠ 2^64 - 1 := fun he => hne (UInt64.toNat_inj.mp he)
      rw [UInt64.toNat_add]
      simp only [UInt64.reduceToNat]
      omega
  · rename_i hlt
    cases h
    exact UInt64.not_le.mp hlt

/-- An observation raises the last seed to the sequence and no further. -/
theorem observe_toNat (last sequence : UInt64) :
    (observe last sequence).toNat = max last.toNat sequence.toNat := by
  unfold observe
  split
  · rename_i h
    rcases h with rfl | h
    · simp
    · exact (Nat.max_eq_left h).symm
  · rename_i h
    have hlt : last < sequence := UInt64.not_le.mp (fun hle => h (.inr hle))
    exact (Nat.max_eq_right (Nat.le_of_lt hlt)).symm

/-! ## The invariant -/

/-- A packet is one of a sender's: of its context, after its seed and up to its
counter. -/
def Sender.Owns (x : Sender) (p : Packet) : Prop :=
  p.context = x.codec.context ∧ x.seed.toNat < p.sequence.toNat ∧ p.sequence.toNat ≤ x.counter.toNat

/-- A sender's seed is known to the allocator and below its counter, and its final
counter is known or about to be. -/
structure SenderOk (last : UInt64) (x : Sender) : Prop where
  seed_le_last : x.seed.toNat ≤ last.toNat
  seed_le_counter : x.seed.toNat ≤ x.counter.toNat
  exited : x.exited = true → x.counter ∈ x.observing ∨ x.counter.toNat ≤ last.toNat

/-- Every sender is sound and every sealed packet has an owner. -/
structure Inv (s : Process) : Prop where
  senders : ∀ x ∈ s.senders, SenderOk s.last x
  owned : ∀ p ∈ s.sealed, ∃ (i : Nat) (x : Sender), s.senders[i]? = some x ∧ x.Owns p

/-- Older senders of a context stay at or below the seeds of the newer ones. -/
def Apart (s : Process) : Prop :=
  ∀ (i j : Nat) (x y : Sender), i < j → s.senders[i]? = some x → s.senders[j]? = some y →
    x.codec.context = y.codec.context → x.counter.toNat ≤ y.seed.toNat

theorem SenderOk.mono {last last' : UInt64} {x : Sender} (h : SenderOk last x)
    (hle : last.toNat ≤ last'.toNat) : SenderOk last' x where
  seed_le_last := Nat.le_trans h.seed_le_last hle
  seed_le_counter := h.seed_le_counter
  exited he := (h.exited he).imp_right (fun hc => Nat.le_trans hc hle)

theorem Inv.init : Inv Process.init := by
  constructor <;> simp [Process.init]

/-- Replacing a sender by one that is sound and owns all its packets keeps the
invariant. -/
theorem Inv.update {s : Process} (h : Inv s) {i : Nat} {x x' : Sender} {last : UInt64}
    (packets : List Packet) (hx : s.senders[i]? = some x) (hlast : s.last.toNat ≤ last.toNat)
    (hok : SenderOk last x') (hown : ∀ p, x.Owns p → x'.Owns p) (hnew : ∀ p ∈ packets, x'.Owns p) :
    Inv ⟨last, s.senders.set i x', s.sealed ++ packets⟩ where
  senders y hy := by
    rcases List.mem_or_eq_of_mem_set hy with hy | rfl
    · exact (h.senders y hy).mono hlast
    · exact hok
  owned p hp := by
    have hi : i < s.senders.length := (List.getElem?_eq_some_iff.mp hx).1
    have hset : (s.senders.set i x')[i]? = some x' := List.getElem?_set_self hi
    rcases List.mem_append.mp hp with hp | hp
    · obtain ⟨j, y, hy, hp⟩ := h.owned p hp
      by_cases hij : i = j
      · subst hij
        obtain rfl : x = y := Option.some.inj (hx ▸ hy)
        exact ⟨i, x', hset, hown p hp⟩
      · exact ⟨j, y, by rw [List.getElem?_set_ne hij]; exact hy, hp⟩
    · exact ⟨i, x', hset, hnew p hp⟩

theorem Inv.create {s : Process} (h : Inv s) {last : UInt64} {x : Sender}
    (hlast : s.last.toNat ≤ last.toNat) (hok : SenderOk last x) :
    Inv ⟨last, s.senders ++ [x], s.sealed⟩ where
  senders y hy := by
    rcases List.mem_append.mp hy with hy | hy
    · exact (h.senders y hy).mono hlast
    · rw [List.mem_singleton.mp hy]
      exact hok
  owned p hp := by
    obtain ⟨i, y, hy, hp⟩ := h.owned p hp
    exact ⟨i, y, List.getElem?_append_left (List.getElem?_eq_some_iff.mp hy).1 ▸ hy, hp⟩

/-! ## What one step does -/

/-- What a step does: it adds a sender, takes a seed, lets a running sender seal one
datagram, or changes what is known of a sender but not its counter. -/
inductive Effect (s : Process) : Act → Process → Prop
  | create {key : String} {context : Context} {nanos : Int64} {codec : Codec} {seed : UInt64} :
      nextSeed s.last nanos = .ok seed → codec.context = context →
      Effect s (.create key context nanos)
        ⟨seed, s.senders ++ [⟨codec, seed, seed, false, false, []⟩], s.sealed⟩
  | allocate {nanos : Int64} {seed : UInt64} :
      nextSeed s.last nanos = .ok seed → Effect s (.allocate nanos) ⟨seed, s.senders, s.sealed⟩
  | send {i : Nat} {payload : Bytes} {x : Sender} {counter : UInt64} {packets : List Packet} :
      s.senders[i]? = some x → x.exited = false →
      (counter = x.counter ∧ packets = [] ∨
        counter.toNat = x.counter.toNat + 1 ∧
        (∀ p ∈ packets, p.context = x.codec.context ∧ p.sequence = counter) ∧
        (packets.map Packet.fragment).Nodup) →
      Effect s (.send i payload)
        ⟨s.last, s.senders.set i { x with counter := counter }, s.sealed ++ packets⟩
  | track {a : Act} {i : Nat} {x : Sender} {closed exited : Bool} {observing : List UInt64}
      {last : UInt64} :
      s.senders[i]? = some x → s.last.toNat ≤ last.toNat → (x.exited = true → exited = true) →
      (SenderOk s.last x → SenderOk last { x with closed, exited, observing }) →
      Effect s a ⟨last, s.senders.set i { x with closed, exited, observing }, s.sealed⟩

theorem newFXPUDPCodec_context {fxpUDPAEAD : String → Context → Cipher} {key : String}
    {context : Context} {codec : Codec} (h : newFXPUDPCodec fxpUDPAEAD key context = .ok codec) :
    codec.context = context := by
  simp only [newFXPUDPCodec] at h
  cases hv : validateFXPUDPContext context with
  | error e => simp [hv, bind, Except.bind] at h
  | ok _ =>
    by_cases hk : key = ""
    · simp [hv, hk, bind, Except.bind, throw, throwThe, MonadExceptOf.throw] at h
    · simp [hv, hk, bind, Except.bind, pure, Except.pure] at h
      rw [← h]

variable {fxpUDPAEAD : String → Context → Cipher} {a : Act} {s s' : Process}

theorem step_effect (h : step fxpUDPAEAD s a = some s') : Effect s a s' := by
  cases a with
  | create key context nanos =>
    simp only [step] at h
    split at h
    · rename_i codec seed hcodec hseed
      simp only [Option.some.injEq] at h
      exact h ▸ .create hseed (newFXPUDPCodec_context hcodec)
    · cases h
  | allocate nanos =>
    simp only [step] at h
    split at h
    · rename_i seed hseed
      simp only [Option.some.injEq] at h
      exact h ▸ .allocate hseed
    · cases h
  | send i payload =>
    simp only [step] at h
    obtain ⟨x, hx, h⟩ := Option.bind_eq_some_iff.mp h
    split at h
    · cases h
    · rename_i he
      simp only [Option.some.injEq] at h
      exact h ▸ .send hx (by simpa using he)
        (sealFXPUDPDatagramsWithCodec_cases ⟨x.codec.context, 0, 0, 0, payload⟩ x.codec x.counter)
  | close i =>
    simp only [step] at h
    obtain ⟨x, hx, h⟩ := Option.bind_eq_some_iff.mp h
    split at h
    · cases h
    · simp only [Option.some.injEq] at h
      refine h ▸ .track hx (Nat.le_refl _) (fun he => he) (fun hok => ?_)
      exact ⟨hok.seed_le_last, hok.seed_le_counter,
        fun he => (hok.exited he).imp_left (List.mem_append_left _)⟩
  | exit i =>
    simp only [step] at h
    obtain ⟨x, hx, h⟩ := Option.bind_eq_some_iff.mp h
    split at h
    · cases h
    · simp only [Option.some.injEq] at h
      refine h ▸ .track hx (Nat.le_refl _) (fun _ => rfl) (fun hok => ?_)
      exact ⟨hok.seed_le_last, hok.seed_le_counter,
        fun _ => .inl (List.mem_append_right _ (List.mem_singleton.mpr rfl))⟩
  | observe i k =>
    simp only [step] at h
    obtain ⟨x, hx, h⟩ := Option.bind_eq_some_iff.mp h
    obtain ⟨sequence, hk, h⟩ := Option.bind_eq_some_iff.mp h
    simp only [Option.some.injEq] at h
    have hlast : s.last.toNat ≤ (Sequence.observe s.last sequence).toNat := by
      rw [observe_toNat]
      exact Nat.le_max_left _ _
    refine h ▸ .track hx hlast (fun he => he) (fun hok => ?_)
    refine ⟨Nat.le_trans hok.seed_le_last hlast, hok.seed_le_counter, fun he => ?_⟩
    -- the observation that leaves the list is the one the allocator now knows
    rcases hok.exited he with hc | hc
    · by_cases heq : x.counter = sequence
      · right
        rw [observe_toNat, heq]
        exact Nat.le_max_right _ _
      · left
        obtain ⟨j, hj⟩ := List.getElem?_of_mem hc
        have hjk : j ≠ k := by
          intro hjk
          rw [hjk, hk] at hj
          exact heq (Option.some.inj hj).symm
        exact List.mem_eraseIdx_iff_getElem?.mpr ⟨j, hjk, hj⟩
    · right
      exact Nat.le_trans hc hlast

/-! ## The invariant along a run -/

theorem Inv.step (h : Inv s) (heff : Effect s a s') : Inv s' := by
  cases heff with
  | create hseed _ =>
    have hgt := nextSeed_gt hseed
    exact h.create (Nat.le_of_lt hgt) ⟨Nat.le_refl _, Nat.le_refl _, fun he => nomatch he⟩
  | allocate hseed =>
    have hgt := nextSeed_gt hseed
    exact ⟨fun x hx => (h.senders x hx).mono (Nat.le_of_lt hgt), h.owned⟩
  | @send i payload x counter packets hx he hsent =>
    have hok := h.senders x (List.mem_of_getElem? hx)
    have hle : x.counter.toNat ≤ counter.toNat := by
      rcases hsent with ⟨rfl, -⟩ | ⟨hc, -⟩ <;> omega
    refine h.update packets hx (Nat.le_refl _) ⟨hok.seed_le_last, ?_, ?_⟩ ?_ ?_
    · exact Nat.le_trans hok.seed_le_counter hle
    · intro he'
      exact absurd (he.symm.trans he') (by decide)
    · intro p hp
      exact ⟨hp.1, hp.2.1, Nat.le_trans hp.2.2 hle⟩
    · intro p hp
      rcases hsent with ⟨-, rfl⟩ | ⟨hc, hall, -⟩
      · cases hp
      · obtain ⟨hctx, hseq⟩ := hall p hp
        have := hok.seed_le_counter
        exact ⟨hctx, by rw [hseq]; show x.seed.toNat < _; omega, by rw [hseq]⟩
  | @track _ i x closed exited observing last hx hlast hexit hok =>
    have hx' := hok (h.senders x (List.mem_of_getElem? hx))
    have hall := h.update [] hx hlast hx' (fun _ hp => hp) (fun _ hp => nomatch hp)
    simpa only [List.append_nil] using hall

theorem Apart.step (h : Apart s) (heff : Effect s a s') (hsep : Separated s a) : Apart s' := by
  intro i j y z hij hy hz hctx
  cases heff with
  | create hseed hcontext =>
    rcases getElem?_concat_cases hy with ⟨rfl, rfl⟩ | ⟨hi, hy⟩
    · have hj := (List.getElem?_eq_some_iff.mp hz).1
      rw [List.length_append, List.length_singleton] at hj
      omega
    rcases getElem?_concat_cases hz with ⟨rfl, rfl⟩ | ⟨hj, hz⟩
    · exact hsep _ hseed y (List.mem_of_getElem? hy) (hctx.trans hcontext)
    · exact h i j y z hij hy hz hctx
  | allocate => exact h i j y z hij hy hz hctx
  | @send k payload x counter packets hx he hsent =>
    obtain ⟨z₀, hz₀, hz₀z⟩ := getElem?_set_map (fun x => (x.codec, x.seed)) hx hz rfl
    simp only [Prod.mk.injEq] at hz₀z
    obtain ⟨hcodec, hseed⟩ := hz₀z
    rw [← hcodec] at hctx
    rw [← hseed]
    rcases getElem?_set_cases hy with ⟨rfl, rfl⟩ | ⟨hi, hy₀⟩
    · -- the older of the two seals
      rcases hsent with ⟨rfl, -⟩ | ⟨hc, -⟩
      · exact h i j x z₀ hij hx hz₀ hctx
      · have hlt : x.counter.toNat < z₀.seed.toNat := hsep x hx j z₀ hij hz₀ hctx.symm
        show counter.toNat ≤ z₀.seed.toNat
        omega
    · exact h i j y z₀ hij hy₀ hz₀ hctx
  | @track _ k x closed exited observing last hx =>
    obtain ⟨y₀, hy₀, hy₀y⟩ := getElem?_set_map (fun x => (x.codec, x.counter)) hx hy rfl
    obtain ⟨z₀, hz₀, hz₀z⟩ := getElem?_set_map (fun x => (x.codec, x.seed)) hx hz rfl
    simp only [Prod.mk.injEq] at hy₀y hz₀z
    have := h i j y₀ z₀ hij hy₀ hz₀ (by rw [hy₀y.1, hz₀z.1]; exact hctx)
    rwa [hy₀y.2, hz₀z.2] at this

/-- Where senders are apart, a running sender's next sequence is unused in its
context, also by itself: older senders stay below its seed, newer ones start above. -/
theorem next_unused (h : Inv s) (hapart : Apart s) {i : Nat} {x : Sender} {payload : Bytes}
    (hx : s.senders[i]? = some x) (hsep : Separated s (.send i payload)) :
    ∀ p ∈ s.sealed, p.context = x.codec.context → p.sequence.toNat ≠ x.counter.toNat + 1 := by
  intro p hp hctx heq
  obtain ⟨j, y, hy, hown⟩ := h.owned p hp
  have hsame : y.codec.context = x.codec.context := hown.1.symm.trans hctx
  have hseed := (h.senders x (List.mem_of_getElem? hx)).seed_le_counter
  rcases Nat.lt_trichotomy i j with hij | rfl | hij
  · have hlt : x.counter.toNat < y.seed.toNat := hsep x hx j y hij hy hsame
    have := hown.2.1
    omega
  · obtain rfl : x = y := Option.some.inj (hx ▸ hy)
    have := hown.2.2
    omega
  · have := hapart j i y x hij hy hx hsame
    have := hown.2.2
    omega

/-- A separated step seals no packet under a sequence and fragment in use. -/
theorem NonceUnique.step (h : NonceUnique s) (hinv : Inv s) (hapart : Apart s) (heff : Effect s a s')
    (hsep : Separated s a) : NonceUnique s' := by
  cases heff with
  | create => exact h
  | allocate => exact h
  | track => exact h
  | @send i payload x counter packets hx he hsent =>
    unfold NonceUnique
    rw [List.map_append]
    rcases hsent with ⟨-, rfl⟩ | ⟨hc, hall, hnodup⟩
    · rw [List.map_nil, List.append_nil]
      exact h
    · have hunused := next_unused hinv hapart hx hsep
      refine List.Nodup.append h ?_ ?_
      · -- within the datagram the fragments differ
        refine List.Nodup.of_map (fun n => n.2.2) ?_
        rw [List.map_map]
        exact hnodup
      · intro n hn hn'
        obtain ⟨p, hp, rfl⟩ := List.mem_map.mp hn
        obtain ⟨q, hq, heq⟩ := List.mem_map.mp hn'
        obtain ⟨hctx, hseq⟩ := hall q hq
        simp only [Prod.mk.injEq] at heq
        obtain ⟨hctx', hseq', -⟩ := heq
        refine hunused p hp (hctx'.symm.trans hctx) ?_
        rw [← hseq', hseq, hc]

theorem inv_of_separated {as : List Act} (hrun : Run (Guarded Separated (process fxpUDPAEAD)) Process.init as s) :
    Inv s ∧ Apart s ∧ NonceUnique s := by
  induction hrun with
  | nil => exact ⟨Inv.init, by simp [Apart, Process.init], by simp [NonceUnique, Process.init]⟩
  | snoc _ hstep ih =>
    obtain ⟨hinv, hapart, hunique⟩ := ih
    obtain ⟨hsep, hstep⟩ := hstep
    have heff := step_effect hstep
    exact ⟨hinv.step heff, hapart.step heff hsep, hunique.step hinv hapart heff hsep⟩

/-- In every run whose senders stay separated, no packet reuses a nonce. -/
theorem nonceUnique_of_separated (fxpUDPAEAD : String → Context → Cipher) (as : List Act)
    (s : Process) (hrun : Run (Guarded Separated (process fxpUDPAEAD)) Process.init as s) :
    NonceUnique s :=
  (inv_of_separated hrun).2.2

/-! ## Senders that are retired -/

def OlderExited (s : Process) : Prop :=
  ∀ (i j : Nat) (x y : Sender), i < j → s.senders[i]? = some x → s.senders[j]? = some y →
    x.codec.context = y.codec.context → x.exited = true

theorem OlderExited.step (h : OlderExited s) (heff : Effect s a s') (hretired : Retired s a) : OlderExited s' := by
  intro i j y z hij hy hz hctx
  cases heff with
  | create _ hcontext =>
    rcases getElem?_concat_cases hy with ⟨rfl, rfl⟩ | ⟨hi, hy⟩
    · have hj := (List.getElem?_eq_some_iff.mp hz).1
      rw [List.length_append, List.length_singleton] at hj
      omega
    rcases getElem?_concat_cases hz with ⟨rfl, rfl⟩ | ⟨hj, hz⟩
    · exact (hretired y (List.mem_of_getElem? hy) (hctx.trans hcontext)).1
    · exact h i j y z hij hy hz hctx
  | allocate => exact h i j y z hij hy hz hctx
  | @send k payload x counter packets hx he hsent =>
    obtain ⟨y₀, hy₀, hy₀y⟩ := getElem?_set_map (fun x => (x.codec, x.exited)) hx hy rfl
    obtain ⟨z₀, hz₀, hz₀z⟩ := getElem?_set_map Sender.codec hx hz rfl
    simp only [Prod.mk.injEq] at hy₀y
    rw [← hy₀y.2]
    exact h i j y₀ z₀ hij hy₀ hz₀ (by rw [hy₀y.1, hz₀z]; exact hctx)
  | @track _ k x closed exited observing last hx _ hexit =>
    obtain ⟨z₀, hz₀, hz₀z⟩ := getElem?_set_map Sender.codec hx hz rfl
    rcases getElem?_set_cases hy with ⟨rfl, rfl⟩ | ⟨hi, hy₀⟩
    · exact hexit (h i j x z₀ hij hx hz₀ (by rw [hz₀z]; exact hctx))
    · exact h i j y z₀ hij hy₀ hz₀ (by rw [hz₀z]; exact hctx)

/-- Senders that are retired before they are replaced are apart: the last seed is no lower than
their counters, and they seal nothing more. -/
theorem separated_of_retired (hinv : Inv s) (h : OlderExited s) (hstep : step fxpUDPAEAD s a = some s')
    (hretired : Retired s a) : Separated s a := by
  cases a with
  | create key context nanos =>
    intro seed hseed x hx hctx
    obtain ⟨hexited, hobserving⟩ := hretired x hx hctx
    have hgt := nextSeed_gt hseed
    rcases (hinv.senders x hx).exited hexited with hc | hc
    · rw [hobserving] at hc
      cases hc
    · exact Nat.le_trans hc (Nat.le_of_lt hgt)
  | send i payload =>
    intro x hx j y hij hy hctx
    have hexited := h i j x y hij hx hy hctx.symm
    simp [step, hx, hexited] at hstep
  | allocate | close | exit | observe => trivial

/-- A run whose senders are retired before they are replaced is separated. -/
theorem separated_run_of_retired {as : List Act} (hrun : Run (Guarded Retired (process fxpUDPAEAD)) Process.init as s) :
    Run (Guarded Separated (process fxpUDPAEAD)) Process.init as s := by
  refine hrun.mono_of_invariant (I := fun s => Inv s ∧ OlderExited s) ?_ ?_ ⟨Inv.init, by simp [OlderExited, Process.init]⟩
  · intro s a s' ⟨hretired, hstep⟩ ⟨hinv, hexited⟩
    have heff := step_effect hstep
    exact ⟨hinv.step heff, hexited.step heff hretired⟩
  · intro s a s' ⟨hretired, hstep⟩ ⟨hinv, hexited⟩
    exact ⟨separated_of_retired hinv hexited hstep hretired, hstep⟩

theorem nonceUnique_of_retired {as : List Act} (hrun : Run (Guarded Retired (process fxpUDPAEAD)) Process.init as s) :
    NonceUnique s :=
  (inv_of_separated (separated_run_of_retired hrun)).2.2

/-! ## Two senders of one context -/

def nullAEAD (_ : String) (_ : Context) : Cipher := .null

def returnContext : Context := ⟨fxpUDPTypeReturn, 41, 73, 9001⟩

/-- A sender that stops, is observed and is created again within one clock tick. -/
theorem nonceUnique_recreated :
    ∃ s, Run (process nullAEAD) Process.init [.create "key" returnContext 10, .send 0 [1], .exit 0,
        .observe 0 0, .create "key" returnContext 10, .send 1 [2]] s ∧
      s.sealed.length = 2 ∧ NonceUnique s := by
  have hrun : Run (Guarded Separated (process nullAEAD)) Process.init
      [.create "key" returnContext 10, .send 0 [1], .exit 0, .observe 0 0,
        .create "key" returnContext 10, .send 1 [2]]
      ⟨12, [⟨⟨returnContext, .null⟩, 10, 11, false, true, []⟩,
          ⟨⟨returnContext, .null⟩, 12, 13, false, false, []⟩],
        [⟨returnContext, 11, 0, 0, [1]⟩, ⟨returnContext, 13, 0, 0, [2]⟩]⟩ := by
    refine Run.cons (t := ⟨10, [⟨⟨returnContext, .null⟩, 10, 10, false, false, []⟩], []⟩)
      ⟨fun _ _ _ hx => (by cases hx), ?_⟩ ?_
    · rfl
    refine Run.cons (t := ⟨10, [⟨⟨returnContext, .null⟩, 10, 11, false, false, []⟩],
      [⟨returnContext, 11, 0, 0, [1]⟩]⟩) ⟨?_, ?_⟩ ?_
    · intro x hx j y hj hy
      cases j with
      | zero => omega
      | succ j => cases hy
    · rfl
    refine Run.cons (t := ⟨10, [⟨⟨returnContext, .null⟩, 10, 11, false, true, [11]⟩],
      [⟨returnContext, 11, 0, 0, [1]⟩]⟩) ⟨trivial, ?_⟩ ?_
    · rfl
    refine Run.cons (t := ⟨11, [⟨⟨returnContext, .null⟩, 10, 11, false, true, []⟩],
      [⟨returnContext, 11, 0, 0, [1]⟩]⟩) ⟨trivial, ?_⟩ ?_
    · rfl
    refine Run.cons (t := ⟨12, [⟨⟨returnContext, .null⟩, 10, 11, false, true, []⟩,
      ⟨⟨returnContext, .null⟩, 12, 12, false, false, []⟩],
      [⟨returnContext, 11, 0, 0, [1]⟩]⟩) ⟨?_, ?_⟩ ?_
    · intro seed hseed x hx _
      obtain rfl := List.mem_singleton.mp hx
      cases hseed
      decide
    · rfl
    refine Run.single ⟨?_, ?_⟩
    · intro x hx j y hj hy
      cases j with
      | zero => omega
      | succ j =>
        cases j with
        | zero => omega
        | succ j => cases hy
    · rfl
  exact ⟨_, hrun.of_guarded, rfl, nonceUnique_of_separated nullAEAD _ _ hrun⟩

/-- Two senders of one context created within one clock tick, both live: the older
one's second packet has the sequence of the newer one's first. -/
theorem live_senders_reuse :
    ¬ ∀ (fxpUDPAEAD : String → Context → Cipher) (as : List Act) (s : Process),
      Run (process fxpUDPAEAD) Process.init as s → NonceUnique s := by
  intro h
  have hrun : Run (process nullAEAD) Process.init [.create "key" returnContext 10,
      .create "key" returnContext 10, .send 0 [1], .send 0 [2], .send 1 [3]]
      ⟨11, [⟨⟨returnContext, .null⟩, 10, 12, false, false, []⟩,
          ⟨⟨returnContext, .null⟩, 11, 12, false, false, []⟩],
        [⟨returnContext, 11, 0, 0, [1]⟩, ⟨returnContext, 12, 0, 0, [2]⟩,
          ⟨returnContext, 12, 0, 0, [3]⟩]⟩ := exec_run rfl
  have := h _ _ _ hrun
  simp [NonceUnique] at this

end ForwardX.Udp.Sequence
