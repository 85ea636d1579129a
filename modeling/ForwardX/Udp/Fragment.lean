import ForwardX.Udp.Packet
import ForwardX.Udp.ReplayWindow

/- Reassembly of fragmented datagrams (`udp_fragment.go`,
   `udpFragmentReassembler`). A datagram in one piece goes through the replay window
   at once; the fragments of a larger one are collected first, under limits on
   their number, size, age and on a shared byte budget. Either way a datagram comes
   out only when the window accepts its sequence (`accept_spec`). -/
namespace ForwardX.Udp
open Wire

def fxpUDPFragmentTimeout : Int := 5000000000
def fxpUDPMaxPendingFragmentSets : Nat := 8

/-- `udpFragmentAssembly`. -/
structure Assembly where
  fragments : UInt8
  chunks : List (Option Bytes)
  received : Nat
  total : Nat
  createdAt : Int
  deriving DecidableEq, Repr

/-- `udpFragmentReassembler`. The map from sequences to assemblies is a list in some
order of iteration. -/
structure Reassembler where
  pending : List (UInt64 × Assembly)
  closed : Bool
  deriving DecidableEq, Repr

def Reassembler.new : Reassembler := ⟨[], false⟩

def Reassembler.removeAssembly (r : Reassembler) (sequence : UInt64) : Reassembler :=
  { r with pending := r.pending.filter (fun e => e.1 != sequence) }

def Reassembler.putAssembly (r : Reassembler) (sequence : UInt64) (a : Assembly) : Reassembler :=
  { r with pending := (r.pending.filter (fun e => e.1 != sequence)) ++ [(sequence, a)] }

/-- `expireLocked`. -/
def Reassembler.expire (r : Reassembler) (now : Int) : Reassembler :=
  { r with pending := r.pending.filter (fun e => now - e.2.createdAt < fxpUDPFragmentTimeout) }

/-- The pending set created first, the earlier one in iteration order among equals. -/
def oldest : List (UInt64 × Assembly) → Option (UInt64 × Assembly)
  | [] => none
  | e :: es =>
    match oldest es with
    | none => some e
    | some e' => if e'.2.createdAt < e.2.createdAt then some e' else some e

/-- `evictOldestLocked`. -/
def Reassembler.evictOldest (r : Reassembler) : Reassembler :=
  match oldest r.pending with
  | none => r
  | some e => r.removeAssembly e.1

/-- `clearLocked`, after `closed` is set. -/
def Reassembler.close (_ : Reassembler) : Reassembler := ⟨[], true⟩

/-- What `accept` returns and leaves behind. -/
structure Accepted where
  payload : Option Bytes
  reassembler : Reassembler
  replay : ReplayWindow

/-- The end of `accept`: the replay window decides. -/
def admitSequence (r : Reassembler) (replay : ReplayWindow) (sequence : UInt64) (payload : Bytes) : Accepted :=
  let a := replay.accept sequence
  if !a.1 then ⟨none, r, a.2⟩ else ⟨some payload, r, a.2⟩

/-- The part of `accept` that adds a fragment to its assembly; `reserved` is whether
the byte budget admits it. -/
def Reassembler.place (r : Reassembler) (assembly : Assembly) (newAssembly : Bool) (packet : Packet)
    (replay : ReplayWindow) (reserved : Bool) : Accepted :=
  let index := packet.fragment.toNat
  let reject := if newAssembly then r else r.removeAssembly packet.sequence
  if (assembly.chunks.getD index none).isSome then ⟨none, r, replay⟩
  else if assembly.total + packet.payload.length > fxpUDPMaxDatagramPayload then
    ⟨none, reject, replay⟩
  else if !reserved then ⟨none, reject, replay⟩
  else
    let assembly := { assembly with
      total := assembly.total + packet.payload.length
      chunks := assembly.chunks.set index (some packet.payload)
      received := assembly.received + 1 }
    if assembly.received ≠ assembly.fragments.toNat then
      ⟨none, r.putAssembly packet.sequence assembly, replay⟩
    else
      admitSequence (r.removeAssembly packet.sequence) replay packet.sequence
        (assembly.chunks.map (·.getD [])).flatten

def Reassembler.accept (r : Reassembler) (packet : Packet) (replay : ReplayWindow) (now : Int)
    (reserved : Bool) : Accepted :=
  if r.closed || !validFXPUDPFragmentMetadata packet.fragment packet.fragments then
    ⟨none, r, replay⟩
  else if packet.fragments = 0 then admitSequence r replay packet.sequence packet.payload
  else if packet.payload.length = 0 ∨ packet.payload.length > fxpUDPFragmentPayloadSize then
    ⟨none, r, replay⟩
  else
    let r := r.expire now
    match r.pending.lookup packet.sequence with
    | some assembly =>
      if assembly.fragments ≠ packet.fragments then ⟨none, r.removeAssembly packet.sequence, replay⟩
      else r.place assembly false packet replay reserved
    | none =>
      let r := if r.pending.length ≥ fxpUDPMaxPendingFragmentSets then r.evictOldest else r
      let assembly : Assembly :=
        ⟨packet.fragments, List.replicate packet.fragments.toNat none, 0, 0, now⟩
      r.place assembly true packet replay reserved

/-! ## Only what the window accepts comes out -/

/-- Either nothing comes out and the window is unchanged, or a datagram does and the
window holds its sequence, which it did not hold before. -/
def AdmitsOnce (replay : ReplayWindow) (accepted : List UInt64) (sequence : UInt64) (a : Accepted) :
    Prop :=
  (a.payload = none ∧ a.replay = replay) ∨
  (a.payload.isSome = true ∧ sequence ∉ accepted ∧ Holds a.replay (sequence :: accepted))

variable {replay : ReplayWindow} {accepted : List UInt64}

theorem admitSequence_spec (h : Holds replay accepted) (r : Reassembler) (sequence : UInt64) (payload : Bytes) :
    AdmitsOnce replay accepted sequence (admitSequence r replay sequence payload) := by
  unfold admitSequence
  rcases ReplayWindow.accept_spec h sequence with ⟨ha, hadm, hholds⟩ | ⟨ha, -, hw⟩
  · simp only [ha, Bool.not_true, Bool.false_eq_true, if_false]
    exact .inr ⟨rfl, hadm.2.1, hholds⟩
  · simp only [ha, Bool.not_false, if_true]
    exact .inl ⟨rfl, hw⟩

theorem place_spec (h : Holds replay accepted) (r : Reassembler) (assembly : Assembly) (newAssembly : Bool)
    (packet : Packet) (reserved : Bool) : AdmitsOnce replay accepted packet.sequence
      (r.place assembly newAssembly packet replay reserved) := by
  unfold Reassembler.place
  dsimp only
  split
  · exact .inl ⟨rfl, rfl⟩
  split
  · exact .inl ⟨rfl, rfl⟩
  split
  · exact .inl ⟨rfl, rfl⟩
  split
  · exact .inl ⟨rfl, rfl⟩
  · exact admitSequence_spec h _ _ _

theorem accept_spec (h : Holds replay accepted) (r : Reassembler) (packet : Packet) (now : Int) (reserved : Bool) :
    AdmitsOnce replay accepted packet.sequence (r.accept packet replay now reserved) := by
  unfold Reassembler.accept
  split
  · exact .inl ⟨rfl, rfl⟩
  split
  · exact admitSequence_spec h _ _ _
  split
  · exact .inl ⟨rfl, rfl⟩
  dsimp only
  split
  · split
    · exact .inl ⟨rfl, rfl⟩
    · exact place_spec h _ _ _ _ _
  · exact place_spec h _ _ _ _ _

end ForwardX.Udp
