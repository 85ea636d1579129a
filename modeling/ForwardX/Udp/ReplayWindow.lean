import Mathlib.Data.Nat.Bitwise
import Mathlib.Data.Set.Basic
import Mathlib.Data.List.Nodup
import Mathlib.Order.Bounds.Defs

/- The 64-wide replay window of a UDP session (`udp_direct.go`,
   `udpReplayWindow`), and the set it stands for: the sequences it has accepted.
   A sequence is accepted when it is nonzero, was not accepted before, and is less
   than 64 behind the highest accepted one (`accept_spec`). -/
namespace ForwardX.Udp

def fxpUDPReplayBits : UInt64 := 64

/-- `udpReplayWindow`. -/
structure ReplayWindow where
  initialized : Bool
  highest : UInt64
  seen : UInt64
  deriving DecidableEq, Repr

def ReplayWindow.new : ReplayWindow := ⟨false, 0, 0⟩

def ReplayWindow.accept (w : ReplayWindow) (sequence : UInt64) : Bool × ReplayWindow :=
  if sequence = 0 then (false, w)
  else if !w.initialized then (true, ⟨true, sequence, 1⟩)
  else if sequence > w.highest then
    let shift := sequence - w.highest
    if shift ≥ fxpUDPReplayBits then (true, { w with highest := sequence, seen := 1 })
    else (true, { w with highest := sequence, seen := (w.seen <<< shift) ||| 1 })
  else
    let distance := w.highest - sequence
    if distance ≥ fxpUDPReplayBits then (false, w)
    else
      let bit := 1 <<< distance
      if w.seen &&& bit ≠ 0 then (false, w)
      else (true, { w with seen := w.seen ||| bit })

/-- Bit `d` of the bitmap. -/
def ReplayWindow.bit (w : ReplayWindow) (d : Nat) : Bool := w.seen.toNat.testBit d

/-- The window holds exactly the sequences `accepted`: the highest of them, and a
bit for each of the 64 up to it. -/
structure Holds (w : ReplayWindow) (accepted : List UInt64) : Prop where
  empty : w.initialized = false → accepted = []
  highest_mem : w.initialized = true → w.highest ∈ accepted
  le_highest : ∀ n ∈ accepted, n.toNat ≤ w.highest.toNat
  bits : w.initialized = true → ∀ d < 64, w.bit d = true ↔
    ∃ n ∈ accepted, n.toNat + d = w.highest.toNat

/-- The reference: `sequence` is new and less than 64 behind everything accepted. -/
def Admissible (accepted : List UInt64) (sequence : UInt64) : Prop :=
  sequence ≠ 0 ∧ sequence ∉ accepted ∧ ∀ n ∈ accepted, n.toNat < sequence.toNat + 64

theorem Holds.new : Holds ReplayWindow.new [] := by
  constructor <;> simp [ReplayWindow.new]

/-! ## Bits -/

theorem testBit_one (d : Nat) : (1 : UInt64).toNat.testBit d = decide (d = 0) := by
  cases d <;> simp [Nat.testBit_succ]

theorem testBit_shift (x k : UInt64) (hk : k.toNat < 64) {d : Nat} (hd : d < 64) :
    (x <<< k).toNat.testBit d = (decide (k.toNat ≤ d) && x.toNat.testBit (d - k.toNat)) := by
  rw [UInt64.toNat_shiftLeft, Nat.mod_eq_of_lt hk, Nat.testBit_mod_two_pow, Nat.testBit_shiftLeft]
  simp [hd]

theorem testBit_or (x y : UInt64) (d : Nat) :
    (x ||| y).toNat.testBit d = (x.toNat.testBit d || y.toNat.testBit d) := by
  rw [UInt64.toNat_or, Nat.testBit_or]

theorem one_shift_toNat (k : UInt64) (hk : k.toNat < 64) : (1 <<< k : UInt64).toNat = 2^k.toNat := by
  have hlt : 2^k.toNat < 2^64 := Nat.pow_lt_pow_right (by decide) hk
  rw [UInt64.toNat_shiftLeft, Nat.mod_eq_of_lt hk, UInt64.toNat_one, Nat.one_shiftLeft,
    Nat.mod_eq_of_lt hlt]

theorem and_bit_ne_zero (x k : UInt64) (hk : k.toNat < 64) :
    x &&& (1 <<< k) ≠ 0 ↔ x.toNat.testBit k.toNat = true := by
  rw [ne_eq, ← UInt64.toNat_inj, UInt64.toNat_and, one_shift_toNat k hk, UInt64.toNat_zero,
    Nat.and_two_pow]
  cases x.toNat.testBit k.toNat <;> simp

theorem testBit_or_bit (x k : UInt64) (hk : k.toNat < 64) (d : Nat) :
    (x ||| (1 <<< k)).toNat.testBit d = (x.toNat.testBit d || decide (k.toNat = d)) := by
  rw [testBit_or, one_shift_toNat k hk, Nat.testBit_two_pow]

/-! ## One call -/

theorem sub_toNat {a b : UInt64} (h : b.toNat ≤ a.toNat) : (a - b).toNat = a.toNat - b.toNat :=
  UInt64.toNat_sub_of_le _ _ h

theorem Holds.first {s : UInt64} : Holds ⟨true, s, 1⟩ [s] where
  empty h := nomatch h
  highest_mem _ := List.mem_singleton.mpr rfl
  le_highest n hn := Nat.le_of_eq (congrArg UInt64.toNat (List.mem_singleton.mp hn))
  bits _ d _ := by
    show (1 : UInt64).toNat.testBit d = true ↔ _
    rw [testBit_one, decide_eq_true_eq]
    simp

variable {accepted : List UInt64} {w : ReplayWindow}

theorem Holds.advance {s seen : UInt64} (h : Holds w accepted) (hi : w.initialized = true)
    (hs : w.highest.toNat < s.toNat) (hseen : ∀ d < 64, seen.toNat.testBit d = (decide (d = 0) ||
      (decide (s.toNat - w.highest.toNat ≤ d) && w.bit (d - (s.toNat - w.highest.toNat))))) :
    Holds { w with highest := s, seen := seen } (s :: accepted) where
  empty he := absurd (hi.symm.trans he) (by decide)
  highest_mem _ := List.mem_cons_self
  le_highest n hn := by
    rcases List.mem_cons.mp hn with rfl | hn
    · exact Nat.le_refl _
    · exact Nat.le_of_lt (Nat.lt_of_le_of_lt (h.le_highest n hn) hs)
  bits _ d hd := by
    show seen.toNat.testBit d = true ↔ ∃ n ∈ s :: accepted, n.toNat + d = s.toNat
    rw [hseen d hd, Bool.or_eq_true, Bool.and_eq_true, decide_eq_true_eq, decide_eq_true_eq]
    constructor
    · intro hbit
      rcases hbit with rfl | ⟨hle, hbit⟩
      · exact ⟨s, List.mem_cons_self, rfl⟩
      · obtain ⟨n, hn, heq⟩ := (h.bits hi _ (by omega)).mp hbit
        exact ⟨n, List.mem_cons_of_mem _ hn, by omega⟩
    · intro hn
      obtain ⟨n, hn, heq⟩ := hn
      rcases List.mem_cons.mp hn with rfl | hn
      · left
        omega
      · have := h.le_highest n hn
        refine .inr ⟨by omega, (h.bits hi _ (by omega)).mpr ⟨n, hn, by omega⟩⟩

theorem Holds.fill {s seen : UInt64} (h : Holds w accepted) (hi : w.initialized = true) (hs : s.toNat ≤ w.highest.toNat)
    (hseen : ∀ d < 64, seen.toNat.testBit d =
      (w.bit d || decide (w.highest.toNat - s.toNat = d))) : Holds { w with seen := seen } (s :: accepted) where
  empty he := absurd (hi.symm.trans he) (by decide)
  highest_mem _ := List.mem_cons_of_mem _ (h.highest_mem hi)
  le_highest n hn := by
    rcases List.mem_cons.mp hn with rfl | hn
    · exact hs
    · exact h.le_highest n hn
  bits _ d hd := by
    show seen.toNat.testBit d = true ↔ ∃ n ∈ s :: accepted, n.toNat + d = w.highest.toNat
    rw [hseen d hd, Bool.or_eq_true, decide_eq_true_eq, h.bits hi d hd]
    constructor
    · intro hbit
      rcases hbit with ⟨n, hn, heq⟩ | heq
      · exact ⟨n, List.mem_cons_of_mem _ hn, heq⟩
      · exact ⟨s, List.mem_cons_self, by omega⟩
    · intro hn
      obtain ⟨n, hn, heq⟩ := hn
      rcases List.mem_cons.mp hn with rfl | hn
      · right
        omega
      · exact .inl ⟨n, hn, heq⟩

/-- A window accepts exactly the admissible sequences and holds the ones it has
accepted. -/
theorem ReplayWindow.accept_spec (h : Holds w accepted) (s : UInt64) :
    ((w.accept s).1 = true ∧ Admissible accepted s ∧ Holds (w.accept s).2 (s :: accepted)) ∨
    ((w.accept s).1 = false ∧ ¬ Admissible accepted s ∧ (w.accept s).2 = w) := by
  unfold ReplayWindow.accept
  by_cases hz : s = 0
  · rw [if_pos hz]
    exact .inr ⟨rfl, fun ha => ha.1 hz, rfl⟩
  rw [if_neg hz]
  by_cases hi : w.initialized = true
  · have hni : ¬ (!w.initialized) = true := by rw [hi]; decide
    rw [if_neg hni]
    by_cases hgt : s > w.highest
    · have hlt : w.highest.toNat < s.toNat := hgt
      have hsub : (s - w.highest).toNat = s.toNat - w.highest.toNat := sub_toNat (Nat.le_of_lt hlt)
      have hadm : Admissible accepted s := by
        refine ⟨hz, fun hmem => ?_, fun n hn => ?_⟩
        · have := h.le_highest s hmem
          omega
        · have := h.le_highest n hn
          omega
      rw [if_pos hgt]
      dsimp only
      left
      by_cases hsh : s - w.highest ≥ fxpUDPReplayBits
      · have hfar : 64 ≤ (s - w.highest).toNat := hsh
        rw [if_pos hsh]
        refine ⟨rfl, hadm, h.advance hi hlt (fun d hd => ?_)⟩
        have : ¬ (s.toNat - w.highest.toNat ≤ d) := by omega
        rw [testBit_one, decide_eq_false this, Bool.false_and, Bool.or_false]
      · have hnear : (s - w.highest).toNat < 64 := Nat.lt_of_not_le hsh
        rw [if_neg hsh]
        refine ⟨rfl, hadm, h.advance hi hlt (fun d hd => ?_)⟩
        rw [testBit_or, testBit_one, testBit_shift _ _ hnear hd, hsub, Bool.or_comm]
        rfl
    · have hle : s.toNat ≤ w.highest.toNat := Nat.le_of_not_lt hgt
      have hsub : (w.highest - s).toNat = w.highest.toNat - s.toNat := sub_toNat hle
      rw [if_neg hgt]
      dsimp only
      by_cases hd : w.highest - s ≥ fxpUDPReplayBits
      · have hfar : 64 ≤ (w.highest - s).toNat := hd
        rw [if_pos hd]
        refine .inr ⟨rfl, fun hadm => ?_, rfl⟩
        have := hadm.2.2 _ (h.highest_mem hi)
        omega
      · have hnear : (w.highest - s).toNat < 64 := Nat.lt_of_not_le hd
        have hbit : w.seen &&& (1 <<< (w.highest - s)) ≠ 0 ↔ s ∈ accepted := by
          rw [and_bit_ne_zero _ _ hnear]
          refine (h.bits hi _ hnear).trans ⟨fun hn => ?_, fun hn => ⟨s, hn, by omega⟩⟩
          obtain ⟨n, hn, heq⟩ := hn
          obtain rfl : n = s := UInt64.toNat_inj.mp (by omega)
          exact hn
        rw [if_neg hd]
        by_cases hmem : s ∈ accepted
        · rw [if_pos (hbit.mpr hmem)]
          exact .inr ⟨rfl, fun hadm => hadm.2.1 hmem, rfl⟩
        · rw [if_neg (fun hb => hmem (hbit.mp hb))]
          refine .inl ⟨rfl, ⟨hz, hmem, fun n hn => ?_⟩, h.fill hi hle (fun d _ => ?_)⟩
          · have := h.le_highest n hn
            omega
          · rw [testBit_or_bit _ _ hnear, hsub]
            rfl
  · have hni : (!w.initialized) = true := by simp [hi]
    rw [if_pos hni, h.empty (by simpa using hi)]
    exact .inl ⟨rfl, ⟨hz, List.not_mem_nil, fun _ hn => nomatch hn⟩, Holds.first⟩

/-! ## Every sequence of calls -/

/-- The window after `calls`, and what each call returned. -/
def ReplayWindow.acceptAll : ReplayWindow → List UInt64 → List (UInt64 × Bool) × ReplayWindow
  | w, [] => ([], w)
  | w, sequence :: calls =>
    let (rest, last) := ReplayWindow.acceptAll (w.accept sequence).2 calls
    ((sequence, (w.accept sequence).1) :: rest, last)

/-- The sequences accepted by `calls`, in their order. -/
def acceptedBy (calls : List UInt64) : List UInt64 :=
  ((ReplayWindow.new.acceptAll calls).1.filter Prod.snd).map Prod.fst

def ReferenceAccepts (accepted : Set UInt64) (s : UInt64) : Prop :=
  s ≠ 0 ∧ s ∉ accepted ∧ (accepted = ∅ ∨
    ∃ highest, IsGreatest accepted highest ∧ (s.toNat : Int) > highest.toNat - 64)

/-- A window's run adds the sequences it accepts to those it holds, each once. -/
theorem Holds.acceptAll (calls : List UInt64) (h : Holds w accepted) (hn : accepted.Nodup) : ∃ more : List UInt64,
    more = ((w.acceptAll calls).1.filter Prod.snd).map Prod.fst ∧
    Holds (w.acceptAll calls).2 (more.reverse ++ accepted) ∧ (more.reverse ++ accepted).Nodup := by
  induction calls generalizing w accepted with
  | nil => exact ⟨[], rfl, h, hn⟩
  | cons s calls ih =>
    obtain ⟨htrue, hadm, hnext⟩ | ⟨hfalse, -, hsame⟩ := w.accept_spec h s
    · obtain ⟨more, hmore, hholds, hnodup⟩ := ih hnext (List.nodup_cons.mpr ⟨hadm.2.1, hn⟩)
      refine ⟨s :: more, ?_, ?_, ?_⟩
      · simp [ReplayWindow.acceptAll, htrue, hmore]
      · simpa [ReplayWindow.acceptAll] using hholds
      · simpa using hnodup
    · rw [← hsame] at h
      obtain ⟨more, hmore, hholds, hnodup⟩ := ih h hn
      refine ⟨more, ?_, hholds, hnodup⟩
      simp [ReplayWindow.acceptAll, hfalse, hmore]

theorem Holds.reference (h : Holds w accepted) (s : UInt64) :
    Admissible accepted s ↔ ReferenceAccepts {n | n ∈ accepted} s := by
  constructor
  · intro hadm
    refine ⟨hadm.1, hadm.2.1, ?_⟩
    by_cases hi : w.initialized = true
    · -- the window's own `highest` is the largest accepted sequence
      have hlt := hadm.2.2 _ (h.highest_mem hi)
      exact .inr ⟨w.highest, ⟨h.highest_mem hi, fun n hn => h.le_highest n hn⟩, by omega⟩
    · have := h.empty (by simpa using hi)
      left
      simp [this]
  · intro href
    refine ⟨href.1, href.2.1, fun n hn => ?_⟩
    obtain hempty | ⟨highest, hgreatest, hgt⟩ := href.2.2
    · exact absurd (hempty ▸ (show n ∈ {n | n ∈ accepted} from hn)) (Set.notMem_empty n)
    · have : n.toNat ≤ highest.toNat := hgreatest.2 hn
      omega

/-- After every sequence of calls the window accepts what the reference over the
accepted set accepts, and has accepted no sequence twice. -/
theorem replay_window_is_reference (calls : List UInt64) :
    (∀ s, ((ReplayWindow.new.acceptAll calls).2.accept s).1 = true ↔
      ReferenceAccepts {n | n ∈ acceptedBy calls} s) ∧
    (acceptedBy calls).Nodup := by
  obtain ⟨more, hmore, hholds, hnodup⟩ := Holds.new.acceptAll calls List.nodup_nil
  have hset : {n | n ∈ more.reverse ++ []} = {n | n ∈ acceptedBy calls} := by
    simp [acceptedBy, hmore]
  constructor
  · intro s
    rw [← hset, ← hholds.reference s]
    obtain ⟨htrue, hadm, -⟩ | ⟨hfalse, hnot, -⟩ := ReplayWindow.accept_spec hholds s
    · exact iff_of_true htrue hadm
    · exact iff_of_false (by rw [hfalse]; decide) hnot
  · rw [List.append_nil] at hnodup
    have : more.Nodup := List.nodup_reverse.mp hnodup
    rwa [hmore] at this

end ForwardX.Udp
