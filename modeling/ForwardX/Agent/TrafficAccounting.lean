import Mathlib.Data.List.Nodup
import Mathlib.Algebra.Order.Ring.Nat
import ForwardX.Agent.TrafficCollect

/- Every counted byte is applied once (`traffic_accounted_once`).

   One port at a time: what the disk, the cache and the panel have of it is a `Slot`. It is
   settled when the baselines that can be read are at the last one the panel applied, and
   moving while the panel has applied a row whose baseline is not committed yet. The rows of
   a report that is not applied fit the slots they were sampled from (`Slot.Fits`), which
   nobody touches before the report is applied.

   Over all ports: while nothing is pending every slot is settled; while a report is pending
   its rows fit, or, once it is applied, its ports are moving and the others settled
   (`Inv.reports`). -/
namespace ForwardX.Agent.Traffic

open Transition

/-! ### One port -/

def SameBytes (a b : Baseline) : Prop := ∀ d, a.bytes d = b.bytes d

/-- What the disk, the cache and the panel have of a port. -/
structure Slot where
  file : Option Baseline
  cache : Option Baseline
  first : Option Baseline
  sampled : Dir → Nat
  applied : Dir → Nat
  last : Option Baseline

/-- A baseline of the port's rule, with its byte source and epoch. -/
structure Known (rule : Int) (source epoch : String) (b : Baseline) : Prop where
  rule : b.ruleID = rule
  source : b.byteSource = source
  epoch : b.byteEpoch = epoch

/-- The level of a port: the last applied baseline, and before it the first one. -/
def Slot.level (x : Slot) (v : Baseline) : Baseline := x.last.getD v

/-- `writePrevState` on one port. -/
def Slot.write (x : Slot) (next : Baseline) (o : Outcome) : Slot × Bool :=
  let next := { next with connSource := normalizeTrafficConnectionSource next.connSource }
  if x.cache = some next then (x, true)
  else
    match o with
    | .ok => ({ x with file := some next, cache := some next }, true)
    | .failed => (x, false)
    | .failedButDone => ({ x with file := some next }, false)

/-- `readPrevState` on one port. -/
def Slot.read (x : Slot) : Slot × Baseline :=
  match x.cache with
  | some b => (x, b)
  | none =>
    let b := x.file.getD .zero
    ({ x with cache := some b }, b)

/-- `noteFirst` on one port. -/
def Slot.note (rule : Int) (x : Slot) (b : Baseline) : Slot :=
  if x.first = none ∧ b.ruleID = rule then { x with first := some b } else x

def Slot.apply {Port : Type} (x : Slot) (row : Row Port) : Slot :=
  { x with applied := fun d => x.applied d + row.bytes d, last := some row.baseline }

section
variable {rule : Int} {source epoch : String} {x : Slot} {n : Baseline}

/-- The baselines of a port are of its rule and within the counters, and the panel has
applied what lies between the first and the last. -/
structure Slot.Ok (rule : Int) (source epoch : String) (x : Slot) : Prop where
  file : ∀ b, x.file = some b → Known rule source epoch b ∧ ∀ d, b.bytes d ≤ x.sampled d
  cache : ∀ b, x.cache = some b → b = .zero ∨ (Known rule source epoch b ∧ ∀ d, b.bytes d ≤ x.sampled d)
  fresh : x.first = none → ∀ d, x.applied d = 0
  sum : ∀ v, x.first = some v → ∀ d, x.applied d + v.bytes d = (x.level v).bytes d

structure Slot.Settled (rule : Int) (source epoch : String) (x : Slot) : Prop where
  fresh : x.first = none → x.last = none ∧ ∀ b, x.cache = some b → b = .zero
  file : ∀ v, x.first = some v → ∃ f, x.file = some f ∧ SameBytes f (x.level v)
  cache : ∀ v, x.first = some v → ∀ b, x.cache = some b →
    Known rule source epoch b ∧ SameBytes b (x.level v)

/-- The panel is at `n`; what can be read may be behind. -/
structure Slot.Moving (rule : Int) (source epoch : String) (n : Baseline) (x : Slot) : Prop where
  last : ∃ l, x.last = some l ∧ SameBytes l n
  cache : ∀ b, x.cache = some b → Known rule source epoch b →
    ∃ f, x.file = some f ∧ (SameBytes f b ∨ SameBytes f n)

structure Slot.Fits {Port : Type} (rule : Int) (source epoch : String) (row : Row Port) (x : Slot) :
    Prop where
  known : Known rule source epoch row.baseline
  within : ∀ d, row.baseline.bytes d ≤ x.sampled d
  fresh : x.first = none → ∀ d, row.bytes d = 0
  sum : ∀ v, x.first = some v → ∀ d, row.bytes d + (x.level v).bytes d = row.baseline.bytes d

/-- The baseline as `writePrevState` stores it. -/
abbrev Baseline.stored (b : Baseline) : Baseline :=
  { b with connSource := normalizeTrafficConnectionSource b.connSource }

theorem sameBytes_stored (b : Baseline) : SameBytes b.stored b := by
  intro d
  cases d <;> rfl

theorem Known.stored (h : Known rule source epoch n) : Known rule source epoch n.stored :=
  ⟨h.rule, h.source, h.epoch⟩

theorem Known.zero (hrule : 0 < rule) : ¬ Known rule source epoch .zero := by
  intro h
  have : (0 : Int) = rule := h.rule
  omega

theorem SameBytes.trans {a b c : Baseline} (h : SameBytes a b) (h' : SameBytes b c) : SameBytes a c :=
  fun d => (h d).trans (h' d)

theorem SameBytes.symm {a b : Baseline} (h : SameBytes a b) : SameBytes b a := fun d => (h d).symm

/-- What a write leaves: the slot itself, or one with the stored baseline on the disk. -/
theorem Slot.write_cases (x : Slot) (n : Baseline) (o : Outcome) :
    (x.cache = some n.stored ∧ x.write n o = (x, true)) ∨
    (x.cache ≠ some n.stored ∧
      (x.write n o = (x, false) ∨
       x.write n o = ({ x with file := some n.stored }, false) ∨
       x.write n o = ({ x with file := some n.stored, cache := some n.stored }, true))) := by
  unfold Slot.write
  dsimp only
  by_cases hcache : x.cache = some n.stored
  · rw [if_pos hcache]
    exact .inl ⟨hcache, rfl⟩
  · rw [if_neg hcache]
    cases o with
    | ok => exact .inr ⟨hcache, .inr (.inr rfl)⟩
    | failed => exact .inr ⟨hcache, .inl rfl⟩
    | failedButDone => exact .inr ⟨hcache, .inr (.inl rfl)⟩

/-! What one operation keeps of a slot. -/

/-- A baseline of the rule may take the place of the one on the disk, or of both. -/
theorem Slot.Ok.put (h : x.Ok rule source epoch) (hn : Known rule source epoch n)
    (hwithin : ∀ d, n.bytes d ≤ x.sampled d) {cache : Option Baseline}
    (hcache : cache = x.cache ∨ cache = some n.stored) :
    Slot.Ok rule source epoch { x with file := some n.stored, cache := cache } where
  file b hb := by
    obtain rfl := Option.some.inj hb
    exact ⟨hn.stored, fun d => Nat.le_trans (Nat.le_of_eq (sameBytes_stored n d)) (hwithin d)⟩
  cache b hb := by
    rcases hcache with rfl | rfl
    · exact h.cache b hb
    · obtain rfl := Option.some.inj hb
      exact .inr ⟨hn.stored, fun d => Nat.le_trans (Nat.le_of_eq (sameBytes_stored n d)) (hwithin d)⟩
  fresh := h.fresh
  sum := h.sum

theorem Slot.Ok.write (h : x.Ok rule source epoch) (hn : Known rule source epoch n)
    (hwithin : ∀ d, n.bytes d ≤ x.sampled d) (o : Outcome) : (x.write n o).1.Ok rule source epoch := by
  rcases x.write_cases n o with ⟨-, hw⟩ | ⟨-, hw | hw | hw⟩
  · rw [hw]
    exact h
  · rw [hw]
    exact h
  · rw [hw]
    exact h.put hn hwithin (.inl rfl)
  · rw [hw]
    exact h.put hn hwithin (.inr rfl)

theorem Slot.Settled.write (h : x.Settled rule source epoch) (hn : Known rule source epoch n)
    {v : Baseline} (hfirst : x.first = some v) (hlevel : SameBytes n (x.level v)) (o : Outcome) :
    (x.write n o).1.Settled rule source epoch := by
  have hput : ∀ cache : Option Baseline, (∀ b, cache = some b →
      Known rule source epoch b ∧ SameBytes b (x.level v)) →
      Slot.Settled rule source epoch { x with file := some n.stored, cache := cache } := by
    intro cache hcache
    refine ⟨fun hnone => absurd (hfirst.symm.trans hnone) (by simp), fun v' hv' => ?_, fun v' hv' => ?_⟩
    · obtain rfl := Option.some.inj (hfirst.symm.trans hv')
      exact ⟨_, rfl, (sameBytes_stored n).trans hlevel⟩
    · obtain rfl := Option.some.inj (hfirst.symm.trans hv')
      exact hcache
  rcases x.write_cases n o with ⟨-, hw⟩ | ⟨-, hw | hw | hw⟩
  · rw [hw]
    exact h
  · rw [hw]
    exact h
  · rw [hw]
    exact hput x.cache (h.cache v hfirst)
  · rw [hw]
    refine hput _ fun b hb => ?_
    obtain rfl := Option.some.inj hb
    exact ⟨hn.stored, (sameBytes_stored n).trans hlevel⟩

theorem Slot.note_of_some {v : Baseline} (h : x.first = some v) (b : Baseline) : x.note rule b = x := by
  unfold Slot.note
  rw [if_neg (fun hc => absurd (h.symm.trans hc.1) (by simp))]

theorem Slot.note_first (h : x.Ok rule source epoch) (hn : Known rule source epoch n)
    (hfirst : x.first = none) (hlevel : SameBytes (x.level n) n)
    (hfile : ∃ f, x.file = some f ∧ SameBytes f n)
    (hcache : ∀ b, x.cache = some b → Known rule source epoch b ∧ SameBytes b n) :
    (x.note rule n).Ok rule source epoch ∧ (x.note rule n).Settled rule source epoch := by
  have hnote : x.note rule n = { x with first := some n } := if_pos ⟨hfirst, hn.rule⟩
  rw [hnote]
  refine ⟨⟨h.file, h.cache, fun hnone => ?_, fun v hv d => ?_⟩,
    fun hnone => ?_, fun v hv => ?_, fun v hv b hb => ?_⟩
  · cases hnone
  · obtain rfl := Option.some.inj hv
    show x.applied d + n.bytes d = (x.level n).bytes d
    rw [h.fresh hfirst d, Nat.zero_add]
    exact (hlevel d).symm
  · cases hnone
  · obtain rfl := Option.some.inj hv
    obtain ⟨f, hf, hsame⟩ := hfile
    exact ⟨f, hf, hsame.trans hlevel.symm⟩
  · obtain rfl := Option.some.inj hv
    obtain ⟨hknown, hsame⟩ := hcache b hb
    exact ⟨hknown, hsame.trans hlevel.symm⟩

theorem Slot.note_zero (hrule : 0 < rule) (x : Slot) : x.note rule .zero = x := by
  unfold Slot.note
  rw [if_neg]
  rintro ⟨-, h0⟩
  have : (0 : Int) = rule := h0
  omega

theorem Slot.read_of_cache {b : Baseline} (h : x.cache = some b) : x.read = (x, b) := by
  unfold Slot.read
  rw [h]

theorem Slot.read_of_file (h : x.cache = none) {b : Baseline} (hb : x.file.getD .zero = b) :
    x.read = ({ x with cache := some b }, b) := by
  unfold Slot.read
  rw [h]
  dsimp only
  rw [hb]

structure Slot.Reads (rule : Int) (source epoch : String) (x : Slot) (b : Baseline) : Prop where
  ok : x.Ok rule source epoch
  settled : x.Settled rule source epoch
  cache : x.cache = some b
  level : (x.first = none ∧ b = .zero) ∨
    ∃ v, x.first = some v ∧ Known rule source epoch b ∧ SameBytes b (x.level v)

/-- Reading a settled port, and keeping what is read as the first baseline if there is none. -/
theorem Slot.read_settled (h : x.Ok rule source epoch) (hs : x.Settled rule source epoch) (hrule : 0 < rule) :
    (x.read.1.note rule x.read.2).Reads rule source epoch x.read.2 := by
  rcases Option.eq_none_or_eq_some x.cache with hcache | ⟨b, hcache⟩
  swap
  · rw [Slot.read_of_cache hcache]
    rcases Option.eq_none_or_eq_some x.first with hfirst | ⟨v, hfirst⟩
    · obtain rfl := (hs.fresh hfirst).2 b hcache
      rw [Slot.note_zero hrule]
      exact ⟨h, hs, hcache, .inl ⟨hfirst, rfl⟩⟩
    · rw [Slot.note_of_some hfirst]
      obtain ⟨hknown, hsame⟩ := hs.cache v hfirst b hcache
      exact ⟨h, hs, hcache, .inr ⟨v, hfirst, hknown, hsame⟩⟩
  rcases Option.eq_none_or_eq_some x.file with hfile | ⟨f, hfile⟩
  · -- nothing on the disk, so there is no first baseline either
    have hfirst : x.first = none := by
      by_contra hsome
      obtain ⟨v, hv⟩ := Option.ne_none_iff_exists'.mp hsome
      obtain ⟨f, hf, -⟩ := hs.file v hv
      cases hfile.symm.trans hf
    have hnone : ∀ v : Baseline, x.first ≠ some v := fun v hv => by cases hfirst.symm.trans hv
    rw [Slot.read_of_file hcache (show x.file.getD .zero = .zero by rw [hfile]; rfl)]
    dsimp only
    rw [Slot.note_zero hrule]
    refine ⟨⟨h.file, fun b hb => .inl (Option.some.inj hb).symm, h.fresh, h.sum⟩,
      ⟨fun _ => ⟨(hs.fresh hfirst).1, fun b hb => (Option.some.inj hb).symm⟩,
        fun v hv => absurd hv (hnone v), fun v hv => absurd hv (hnone v)⟩, rfl, .inl ⟨hfirst, rfl⟩⟩
  · obtain ⟨hknown, hwithin⟩ := h.file f hfile
    rw [Slot.read_of_file hcache (show x.file.getD .zero = f by rw [hfile]; rfl)]
    dsimp only
    have hok : Slot.Ok rule source epoch { x with cache := some f } := by
      refine ⟨h.file, fun b hb => ?_, h.fresh, h.sum⟩
      obtain rfl := Option.some.inj hb
      exact .inr ⟨hknown, hwithin⟩
    rcases Option.eq_none_or_eq_some x.first with hfirst | ⟨v, hfirst⟩
    · have hlevel : SameBytes (Slot.level { x with cache := some f } f) f := by
        intro d
        simp [Slot.level, (hs.fresh hfirst).1]
      obtain ⟨hok', hs'⟩ := Slot.note_first hok hknown hfirst hlevel ⟨f, hfile, fun _ => rfl⟩
        (fun b hb => by
          obtain rfl := Option.some.inj hb
          exact ⟨hknown, fun _ => rfl⟩)
      have hnote : Slot.note rule { x with cache := some f } f =
          { x with cache := some f, first := some f } := if_pos ⟨hfirst, hknown.rule⟩
      refine ⟨hok', hs', ?_, .inr ⟨f, ?_, hknown, ?_⟩⟩
      · rw [hnote]
      · rw [hnote]
      · rw [hnote]
        exact hlevel.symm
    · obtain ⟨f', hf', hsame⟩ := hs.file v hfirst
      obtain rfl : f = f' := Option.some.inj (hfile.symm.trans hf')
      have hnote : Slot.note rule { x with cache := some f } f = { x with cache := some f } :=
        Slot.note_of_some (show Slot.first { x with cache := some f } = some v from hfirst) f
      have hsettled : Slot.Settled rule source epoch { x with cache := some f } := by
        refine ⟨fun hnone => ?_, hs.file, fun v' hv' b hb => ?_⟩
        · cases hfirst.symm.trans hnone
        · obtain rfl := Option.some.inj (hfirst.symm.trans hv')
          obtain rfl := Option.some.inj hb
          exact ⟨hknown, hsame⟩
      rw [hnote]
      exact ⟨hok, hsettled, rfl, .inr ⟨v, hfirst, hknown, hsame⟩⟩

/-- Committing a row without deltas leaves the port settled, whether it is the first
baseline or the level again. -/
theorem Slot.Reads.commit {b : Baseline} (h : x.Reads rule source epoch b) (hrule : 0 < rule)
    (hn : Known rule source epoch n) (hwithin : ∀ d, n.bytes d ≤ x.sampled d)
    (hlevel : ∀ v, x.first = some v → SameBytes n (x.level v)) (o : Outcome) :
    (if (x.write n o).2 then (x.write n o).1.note rule n else (x.write n o).1).Ok rule source epoch ∧
    (if (x.write n o).2 then (x.write n o).1.note rule n else (x.write n o).1).Settled rule source epoch := by
  have hok := h.ok.write hn hwithin o
  rcases h.level with ⟨hfirst, rfl⟩ | ⟨v, hfirst, -, -⟩
  · -- the first baseline
    have hlast := (h.settled.fresh hfirst).1
    rcases x.write_cases n o with ⟨hsame, -⟩ | ⟨-, hw | hw | hw⟩
    · have hzero : (Baseline.zero : Baseline) = n.stored := Option.some.inj (h.cache.symm.trans hsame)
      exact absurd (hzero ▸ hn.stored) (Known.zero hrule)
    · rw [hw]
      exact ⟨h.ok, h.settled⟩
    · rw [hw] at hok ⊢
      refine ⟨hok, h.settled.fresh, fun v hv => ?_, fun v hv => ?_⟩
      · cases hfirst.symm.trans hv
      · cases hfirst.symm.trans hv
    · rw [hw] at hok ⊢
      refine Slot.note_first hok hn hfirst ?_ ⟨_, rfl, sameBytes_stored n⟩ fun b hb => ?_
      · intro d
        simp [Slot.level, hlast]
      · obtain rfl := Option.some.inj hb
        exact ⟨hn.stored, sameBytes_stored n⟩
  · have hkept : (x.write n o).1.first = some v := by
      rcases x.write_cases n o with ⟨-, hw⟩ | ⟨-, hw | hw | hw⟩
      all_goals
        rw [hw]
        exact hfirst
    rw [Slot.note_of_some hkept, ite_self]
    exact ⟨hok, h.settled.write hn hfirst (hlevel v hfirst) o⟩

/-- Committing the baseline the panel is at: a moving port stays moving until the write
returns, and is settled then. -/
theorem Slot.Moving.commit (h : x.Moving rule source epoch n) (hok : x.Ok rule source epoch)
    (hn : Known rule source epoch n) (hwithin : ∀ d, n.bytes d ≤ x.sampled d) (o : Outcome) :
    ((x.write n o).2 = false ∧ (x.write n o).1.Ok rule source epoch ∧ (x.write n o).1.Moving rule source epoch n) ∨
    ((x.write n o).2 = true ∧ ((x.write n o).1.note rule n).Ok rule source epoch ∧
      ((x.write n o).1.note rule n).Settled rule source epoch) := by
  have hok' := hok.write hn hwithin o
  obtain ⟨l, hlast, hsame⟩ := h.last
  have hlevel : ∀ v, SameBytes (x.level v) n := by
    intro v d
    rw [Slot.level, hlast]
    exact hsame d
  -- once the disk and the cache are at `n`, the port is settled
  have hsettle : ∀ y : Slot, y.Ok rule source epoch → y.first = x.first → y.last = x.last →
      (∃ f, y.file = some f ∧ SameBytes f n) →
      (∀ b, y.cache = some b → Known rule source epoch b ∧ SameBytes b n) →
      (y.note rule n).Ok rule source epoch ∧ (y.note rule n).Settled rule source epoch := by
    intro y hy hyfirst hylast hfile hcache
    have hylevel : ∀ v, SameBytes (y.level v) n := by
      intro v
      rw [Slot.level, hylast]
      exact hlevel v
    rcases Option.eq_none_or_eq_some y.first with hfirst | ⟨v, hfirst⟩
    · exact Slot.note_first hy hn hfirst (hylevel n) hfile hcache
    · rw [Slot.note_of_some hfirst]
      refine ⟨hy, fun hnone => ?_, fun v' _ => ?_, fun v' _ b hb => ?_⟩
      · cases hfirst.symm.trans hnone
      · obtain ⟨f, hf, hfn⟩ := hfile
        exact ⟨f, hf, hfn.trans (hylevel v').symm⟩
      · obtain ⟨hknown, hbn⟩ := hcache b hb
        exact ⟨hknown, hbn.trans (hylevel v').symm⟩
  rcases x.write_cases n o with ⟨hcache, hw⟩ | ⟨-, hw | hw | hw⟩
  · -- the cache is there already
    rw [hw] at hok' ⊢
    refine .inr ⟨rfl, hsettle x hok' rfl rfl ?_ fun b hb => ?_⟩
    · obtain ⟨f, hf, hfn⟩ := h.cache _ hcache hn.stored
      exact ⟨f, hf, hfn.elim (fun hfn => hfn.trans (sameBytes_stored n)) id⟩
    · obtain rfl := Option.some.inj (hcache.symm.trans hb)
      exact ⟨hn.stored, sameBytes_stored n⟩
  · rw [hw]
    exact .inl ⟨rfl, hok, h⟩
  · rw [hw] at hok' ⊢
    exact .inl ⟨rfl, hok', ⟨l, hlast, hsame⟩, fun b _ _ => ⟨_, rfl, .inr (sameBytes_stored n)⟩⟩
  · rw [hw] at hok' ⊢
    refine .inr ⟨rfl, hsettle _ hok' rfl rfl ⟨_, rfl, sameBytes_stored n⟩ fun b hb => ?_⟩
    obtain rfl := Option.some.inj hb
    exact ⟨hn.stored, sameBytes_stored n⟩

theorem Slot.Settled.moving (h : x.Settled rule source epoch) (hrule : 0 < rule) {l : Baseline}
    (hlast : x.last = some l) (hsame : SameBytes l n) : x.Moving rule source epoch n where
  last := ⟨l, hlast, hsame⟩
  cache b hb hknown := by
    rcases Option.eq_none_or_eq_some x.first with hfirst | ⟨v, hfirst⟩
    · rw [(h.fresh hfirst).2 b hb] at hknown
      exact absurd hknown (Known.zero hrule)
    · obtain ⟨f, hf, hfl⟩ := h.file v hfirst
      exact ⟨f, hf, .inl (hfl.trans (h.cache v hfirst b hb).2.symm)⟩

/-- When the panel applies a row that fits, the port moves to the row's baseline. -/
theorem Slot.Settled.apply {Port : Type} {row : Row Port} (hs : x.Settled rule source epoch)
    (hok : x.Ok rule source epoch) (hrule : 0 < rule) (h : x.Fits rule source epoch row) :
    (x.apply row).Ok rule source epoch ∧ (x.apply row).Moving rule source epoch row.baseline := by
  refine ⟨⟨hok.file, hok.cache, fun hfirst d => ?_, fun v hv d => ?_⟩, ⟨row.baseline, rfl, fun _ => rfl⟩, ?_⟩
  · show x.applied d + row.bytes d = 0
    rw [hok.fresh hfirst d, h.fresh hfirst d]
  · show x.applied d + row.bytes d + v.bytes d = row.baseline.bytes d
    have := hok.sum v hv d
    have := h.sum v hv d
    omega
  · intro b hb hknown
    rcases Option.eq_none_or_eq_some x.first with hfirst | ⟨v, hfirst⟩
    · rw [(hs.fresh hfirst).2 b hb] at hknown
      exact absurd hknown (Known.zero hrule)
    · obtain ⟨f, hf, hfl⟩ := hs.file v hfirst
      exact ⟨f, hf, .inl (hfl.trans (hs.cache v hfirst b hb).2.symm)⟩

/-! Counters that grow. -/

theorem Slot.Ok.grow (h : x.Ok rule source epoch) {sampled : Dir → Nat} (hle : ∀ d, x.sampled d ≤ sampled d) :
    Slot.Ok rule source epoch { x with sampled := sampled } where
  file b hb := ⟨(h.file b hb).1, fun d => Nat.le_trans ((h.file b hb).2 d) (hle d)⟩
  cache b hb := (h.cache b hb).imp_right fun hk => ⟨hk.1, fun d => Nat.le_trans (hk.2 d) (hle d)⟩
  fresh := h.fresh
  sum := h.sum

theorem Slot.Reads.grow {b : Baseline} (h : x.Reads rule source epoch b) {sampled : Dir → Nat}
    (hle : ∀ d, x.sampled d ≤ sampled d) : Slot.Reads rule source epoch { x with sampled := sampled } b where
  ok := h.ok.grow hle
  settled := ⟨h.settled.fresh, h.settled.file, h.settled.cache⟩
  cache := h.cache
  level := h.level

end

/-! ### Rows -/

section
variable {Port : Type} (env : Env Port)

abbrev Env.Known (port : Port) (b : Baseline) : Prop :=
  Traffic.Known (env.ruleOf port) (env.byteSource port) (env.byteEpoch port) b

abbrev Env.Ok (port : Port) (x : Slot) : Prop :=
  x.Ok (env.ruleOf port) (env.byteSource port) (env.byteEpoch port)

abbrev Env.Settled (port : Port) (x : Slot) : Prop :=
  x.Settled (env.ruleOf port) (env.byteSource port) (env.byteEpoch port)

abbrev Env.Moving (row : Row Port) (x : Slot) : Prop :=
  x.Moving (env.ruleOf row.port) (env.byteSource row.port) (env.byteEpoch row.port) row.baseline

/-- A row of a rule that fits the slot of its port. -/
structure Env.Fits (row : Row Port) (x : Slot) : Prop where
  rule : 0 < env.ruleOf row.port
  fits : x.Fits (env.ruleOf row.port) (env.byteSource row.port) (env.byteEpoch row.port) row

variable {env}

theorem delta_of_le {cur prev : Nat} (h : prev ≤ cur) : delta cur prev = cur - prev := if_pos h

/-- From a baseline of the rule the deltas are what the counters grew by. -/
theorem trafficByteDeltas_known {port : Port} {b : Baseline} {bytesIn bytesOut : Nat} (h : env.Known port b)
    (hrule : 0 < env.ruleOf port) (hin : b.bytesIn ≤ bytesIn) (hout : b.bytesOut ≤ bytesOut) :
    trafficByteDeltas b (env.ruleOf port) bytesIn bytesOut (env.byteSource port) (env.byteEpoch port) =
      (bytesIn - b.bytesIn, bytesOut - b.bytesOut, false) := by
  have hinitial : ¬ (b.ruleID ≤ 0 ∨ b.ruleID ≠ env.ruleOf port) := by
    rw [h.rule]
    omega
  have hchanged : ¬ (b.byteSource ≠ env.byteSource port ∧
      (b.byteSource ≠ "" ∨ isNativeTrafficSource (env.byteSource port) = true)) :=
    fun hc => hc.1 h.source
  have hreset : ¬ (isNativeTrafficSource (env.byteSource port) = true ∧
      (b.byteEpoch ≠ env.byteEpoch port ∨ bytesIn < b.bytesIn ∨ bytesOut < b.bytesOut)) := by
    rintro ⟨-, hepoch | hlt | hlt⟩
    · exact hepoch h.epoch
    · omega
    · omega
  unfold trafficByteDeltas
  dsimp only
  rw [if_neg (fun h => h.elim hinitial fun h => h.elim hchanged hreset), delta_of_le hin, delta_of_le hout]

theorem trafficByteDeltas_zero (rule : Int) (bytesIn bytesOut : Nat) (source epoch : String) :
    trafficByteDeltas .zero rule bytesIn bytesOut source epoch = (0, 0, true) := by
  unfold trafficByteDeltas
  dsimp only
  rw [if_pos (.inl (.inl (Int.le_refl 0)))]

theorem rowOf_known (port : Port) (b : Baseline) (sample : Sample) :
    env.Known port (env.rowOf port b sample).baseline := ⟨rfl, rfl, rfl⟩

theorem rowOf_bytes (port : Port) (b : Baseline) (sample : Sample) (d : Dir) :
    (env.rowOf port b sample).baseline.bytes d = sample.bytes d := by
  cases d <;> rfl

/-- A row that was made from what was read fits, and is at the level if it has no deltas. -/
theorem rowOf_fits {port : Port} {b : Baseline} {x : Slot} {sample : Sample}
    (h : x.Reads (env.ruleOf port) (env.byteSource port) (env.byteEpoch port) b)
    (hrule : 0 < env.ruleOf port) (hle : ∀ d, x.sampled d ≤ sample.bytes d) :
    env.Fits (env.rowOf port b sample) { x with sampled := sample.bytes } ∧
    ((env.rowOf port b sample).isZero = true → ∀ v, x.first = some v →
      SameBytes (env.rowOf port b sample).baseline (x.level v)) := by
  have hbytes : ∀ v, x.first = some v → ∀ d,
      (env.rowOf port b sample).bytes d + (x.level v).bytes d = sample.bytes d := by
    intro v hv d
    obtain ⟨hnone, -⟩ | ⟨v', hv', hknown, hsame⟩ := h.level
    · cases hv.symm.trans hnone
    obtain rfl := Option.some.inj (hv.symm.trans hv')
    have hwithin : ∀ d, b.bytes d ≤ sample.bytes d := by
      intro d
      rcases h.ok.cache b h.cache with rfl | ⟨-, hle'⟩
      · exact absurd hknown (Known.zero hrule)
      · exact Nat.le_trans (hle' d) (hle d)
    have hdeltas := trafficByteDeltas_known hknown hrule (hwithin .inbound) (hwithin .outbound)
    rw [← hsame d]
    cases d with
    | inbound =>
      have hrow : (env.rowOf port b sample).bytes .inbound = sample.bytesIn - b.bytesIn :=
        congrArg Prod.fst hdeltas
      rw [hrow]
      exact Nat.sub_add_cancel (hwithin .inbound)
    | outbound =>
      have hrow : (env.rowOf port b sample).bytes .outbound = sample.bytesOut - b.bytesOut :=
        congrArg (fun p => p.2.1) hdeltas
      rw [hrow]
      exact Nat.sub_add_cancel (hwithin .outbound)
  refine ⟨⟨hrule, rowOf_known port b sample, fun d => Nat.le_of_eq (rowOf_bytes port b sample d), fun hfirst d => ?_,
    fun v hv d => ?_⟩, fun hzero v hv d => ?_⟩
  · obtain ⟨-, rfl⟩ | ⟨v, hv, -⟩ := h.level
    · have hdeltas := trafficByteDeltas_zero (env.ruleOf port) sample.bytesIn sample.bytesOut
        (env.byteSource port) (env.byteEpoch port)
      cases d with
      | inbound => exact congrArg Prod.fst hdeltas
      | outbound => exact congrArg (fun p => p.2.1) hdeltas
    · cases hv.symm.trans hfirst
  · exact (hbytes v hv d).trans (rowOf_bytes port b sample d).symm
  · have hnothing : (env.rowOf port b sample).bytes d = 0 := by
      simp only [Row.isZero, Bool.and_eq_true, decide_eq_true_eq] at hzero
      cases d with
      | inbound => exact hzero.1.1
      | outbound => exact hzero.1.2
    have := hbytes v hv d
    rw [hnothing, Nat.zero_add] at this
    exact (rowOf_bytes port b sample d).trans this.symm

end

/-! ### All ports -/

section
variable {Port : Type} [DecidableEq Port]

def State.rowsOf (s : State Port) (port : Port) : List (Row Port) :=
  (s.applied.flatMap Report.rows).filter (fun row => row.port = port)

def State.appliedBytes (s : State Port) (port : Port) (d : Dir) : Nat :=
  ((s.rowsOf port).map (fun row => row.bytes d)).sum

def State.lastApplied (s : State Port) (port : Port) : Option Baseline :=
  (s.rowsOf port).getLast?.map Row.baseline

def State.slot (s : State Port) (port : Port) : Slot where
  file := s.store.file port
  cache := s.store.cache port
  first := s.first port
  sampled := s.sampled port
  applied := s.appliedBytes port
  last := s.lastApplied port

theorem slot_store (s : State Port) (store : Store Port) (port : Port) :
    ({ s with store := store } : State Port).slot port =
      { s.slot port with file := store.file port, cache := store.cache port } := rfl

theorem slot_read (s : State Port) (port : Port) :
    ({ s with store := (s.store.readPrevState port).1 } : State Port).slot port = (s.slot port).read.1 ∧
    (s.store.readPrevState port).2 = (s.slot port).read.2 := by
  rw [slot_store]
  rcases Option.eq_none_or_eq_some (s.store.cache port) with hcache | ⟨b, hcache⟩
  · rw [Slot.read_of_file (x := s.slot port) hcache rfl]
    unfold Store.readPrevState
    rw [hcache]
    constructor
    · simp [State.slot]
    · rfl
  · rw [Slot.read_of_cache (x := s.slot port) hcache]
    unfold Store.readPrevState
    rw [hcache]
    exact ⟨by simp [State.slot, hcache], rfl⟩

theorem slot_write (s : State Port) (port : Port) (n : Baseline) (o : Outcome) :
    ({ s with store := (s.store.writePrevState port n o).1 } : State Port).slot port =
      ((s.slot port).write n o).1 ∧
    (s.store.writePrevState port n o).2 = ((s.slot port).write n o).2 := by
  rw [slot_store]
  unfold Store.writePrevState Slot.write
  dsimp only
  have hcache : (s.slot port).cache = s.store.cache port := rfl
  rw [hcache]
  split
  · exact ⟨rfl, rfl⟩
  · cases o with
    | ok => exact ⟨by simp, rfl⟩
    | failed => exact ⟨rfl, rfl⟩
    | failedButDone => exact ⟨by simp [State.slot], rfl⟩

theorem slot_read_ne (s : State Port) {port q : Port} (h : q ≠ port) :
    ({ s with store := (s.store.readPrevState port).1 } : State Port).slot q = s.slot q := by
  rw [slot_store]
  unfold Store.readPrevState
  rcases Option.eq_none_or_eq_some (s.store.cache port) with hcache | ⟨b, hcache⟩
  · rw [hcache]
    simp [State.slot, Function.update_of_ne h]
  · rw [hcache]
    rfl

theorem slot_write_ne (s : State Port) {port q : Port} (h : q ≠ port) (n : Baseline) (o : Outcome) :
    ({ s with store := (s.store.writePrevState port n o).1 } : State Port).slot q = s.slot q := by
  rw [slot_store]
  unfold Store.writePrevState
  dsimp only
  split
  · rfl
  · cases o with
    | ok => simp [State.slot, Function.update_of_ne h]
    | failed => rfl
    | failedButDone => simp [State.slot, Function.update_of_ne h]

variable (env : Env Port)

theorem slot_note (s : State Port) (port : Port) (b : Baseline) :
    ({ s with first := noteFirst env s.first port b } : State Port).slot port =
      (s.slot port).note (env.ruleOf port) b := by
  unfold Slot.note noteFirst
  have hfirst : (s.slot port).first = s.first port := rfl
  rw [hfirst]
  by_cases hnote : s.first port = none ∧ b.ruleID = env.ruleOf port
  · rw [if_pos hnote, if_pos hnote]
    show ({ s.slot port with first := Function.update s.first port (some b) port } : Slot) = _
    rw [Function.update_self]
  · rw [if_neg hnote, if_neg hnote]

theorem slot_note_ne (s : State Port) {port q : Port} (h : q ≠ port) (b : Baseline) :
    ({ s with first := noteFirst env s.first port b } : State Port).slot q = s.slot q := by
  unfold noteFirst
  split
  · show ({ s.slot q with first := Function.update s.first port (some b) q } : Slot) = _
    rw [Function.update_of_ne h]
    rfl
  · rfl

/-- What was read of a port for its sample, with the counters of the sample. -/
def State.readSlot (s : State Port) (port : Port) (sample : Sample) : Slot :=
  { (s.slot port).read.1.note (env.ruleOf port) (s.slot port).read.2 with sampled := sample.bytes }

/-- A slot after a baseline was written, and kept as the first one if the write returned. -/
def Slot.commit (rule : Int) (x : Slot) (n : Baseline) (o : Outcome) : Slot :=
  if (x.write n o).2 then (x.write n o).1.note rule n else (x.write n o).1

/-- A commit, of the sampling loop or of a completion. -/
def State.commit (s : State Port) (port : Port) (n : Baseline) (o : Outcome) : State Port :=
  { s with
    store := (s.store.writePrevState port n o).1
    first := if (s.store.writePrevState port n o).2 then noteFirst env s.first port n else s.first }

theorem slot_commit (s : State Port) (port : Port) (n : Baseline) (o : Outcome) :
    (s.commit env port n o).slot port = (s.slot port).commit (env.ruleOf port) n o := by
  obtain ⟨hslot, hreturned⟩ := slot_write s port n o
  unfold State.commit Slot.commit
  rw [← hreturned, ← hslot]
  cases (s.store.writePrevState port n o).2 with
  | true => exact slot_note env { s with store := (s.store.writePrevState port n o).1 } port n
  | false => rfl

theorem slot_commit_ne (s : State Port) {port q : Port} (h : q ≠ port) (n : Baseline) (o : Outcome) :
    (s.commit env port n o).slot q = s.slot q := by
  rw [← slot_write_ne s h n o]
  unfold State.commit
  cases (s.store.writePrevState port n o).2 with
  | true => exact slot_note_ne env { s with store := (s.store.writePrevState port n o).1 } h n
  | false => rfl

/-- The state of a collection that has read and sampled a port. -/
def State.readOf (s : State Port) (port : Port) (sample : Sample) : State Port :=
  { s with
    store := (s.store.readPrevState port).1
    first := noteFirst env s.first port (s.store.readPrevState port).2
    sampled := Function.update s.sampled port sample.bytes }

theorem slot_readOf (s : State Port) (port : Port) (sample : Sample) :
    (s.readOf env port sample).slot port = s.readSlot env port sample := by
  obtain ⟨hslot, hread⟩ := slot_read s port
  have hnote := slot_note env { s with store := (s.store.readPrevState port).1 } port
    (s.store.readPrevState port).2
  rw [hslot, hread] at hnote
  unfold State.readSlot
  rw [← hnote, ← hread]
  show ({ State.slot _ port with sampled := Function.update s.sampled port sample.bytes port } : Slot) = _
  rw [Function.update_self]
  rfl

theorem slot_readOf_ne (s : State Port) {port q : Port} (h : q ≠ port) (sample : Sample) :
    (s.readOf env port sample).slot q = s.slot q := by
  have hnote := slot_note_ne env { s with store := (s.store.readPrevState port).1 } h
    (s.store.readPrevState port).2
  rw [slot_read_ne s h] at hnote
  show ({ State.slot { s with
      store := (s.store.readPrevState port).1
      first := noteFirst env s.first port (s.store.readPrevState port).2 } q with
    sampled := Function.update s.sampled port sample.bytes q } : Slot) = _
  rw [Function.update_of_ne h, hnote]
  rfl

theorem sample_eq (s : State Port) (visited : List Port) (rows : List (Row Port)) (port : Port)
    (sample : Sample) (o : Outcome) :
    s.sample env visited rows port sample o =
      let row := env.rowOf port (s.slot port).read.2 sample
      if row.isZero then
        { (s.readOf env port sample).commit env port row.baseline o with
          phase := .sampling (port :: visited) rows }
      else
        { s.readOf env port sample with phase := .sampling (port :: visited) (rows ++ [row]) } := by
  rw [← (slot_read s port).2]
  rfl

/-! ### The invariant -/

variable {env}

/-- A row that the panel applied and whose baseline may not be committed. -/
structure Env.Applied (env : Env Port) (row : Row Port) (x : Slot) : Prop where
  rule : 0 < env.ruleOf row.port
  known : env.Known row.port row.baseline
  within : ∀ d, row.baseline.bytes d ≤ x.sampled d
  moving : env.Moving row x

/-- The rows of a collection, each of a port of its own, fit. -/
structure RowsFit (env : Env Port) (slot : Port → Slot) (rows : List (Row Port)) : Prop where
  ports : (rows.map Row.port).Nodup
  fit : ∀ row ∈ rows, env.Fits row (slot row.port)

/-- What is so of a report that is pending: it fits, or the panel has applied it. -/
structure PendingOk (env : Env Port) (s : State Port) (r : Report Port) : Prop where
  saved : r ∈ s.saved
  ports : (r.rows.map Row.port).Nodup
  waits : r ∉ s.applied → (∀ port, env.Settled port (s.slot port)) ∧ RowsFit env s.slot r.rows
  moves : r ∈ s.applied → (∀ row ∈ r.rows, env.Applied row (s.slot row.port)) ∧
    ∀ port, port ∉ r.rows.map Row.port → env.Settled port (s.slot port)

/-- What is so where a collection stands. -/
def PhaseOk (env : Env Port) (s : State Port) : Phase Port → Prop
  | .idle => True
  | .sampling visited rows => s.pending = none ∧ RowsFit env s.slot rows ∧ ∀ row ∈ rows, row.port ∈ visited
  | .saving r => s.pending = none ∧ RowsFit env s.slot r.rows ∧ r.reportId ∈ s.ids ∧
      r.reportId ∉ s.saved.map Report.reportId
  | .posting r => s.pending = some r
  | .waiting r => s.pending = some r
  | .completing r rest => s.pending = some r ∧ r ∈ s.applied ∧
      ∃ done, r.rows = done ++ rest ∧ ∀ row ∈ done, env.Settled row.port (s.slot row.port)

structure Inv (env : Env Port) (s : State Port) : Prop where
  ok : ∀ port, env.Ok port (s.slot port)
  settled : s.pending = none → ∀ port, env.Settled port (s.slot port)
  reports : ∀ r, s.pending = some r → PendingOk env s r
  phase : PhaseOk env s s.phase
  posted : ∀ r ∈ s.posted, r ∈ s.saved
  applied : ∀ r ∈ s.applied, r ∈ s.saved
  saved : ∀ r ∈ s.saved, s.pending = some r ∨ r ∈ s.applied
  ids : ∀ r ∈ s.saved, r.reportId ∈ s.ids
  distinct : (s.saved.map Report.reportId).Nodup

theorem Inv.eq_of_id {s : State Port} (h : Inv env s) {r r' : Report Port} (hr : r ∈ s.saved)
    (hr' : r' ∈ s.saved) (hid : r.reportId = r'.reportId) : r = r' :=
  List.inj_on_of_nodup_map h.distinct hr hr' hid

theorem Inv.mem_applied {s : State Port} (h : Inv env s) {r : Report Port} (hr : r ∈ s.saved) :
    r.reportId ∈ s.appliedIds ↔ r ∈ s.applied := by
  constructor
  · intro hid
    obtain ⟨r', hr', heq⟩ := List.mem_map.mp hid
    rwa [h.eq_of_id hr (h.applied r' hr') heq.symm]
  · exact fun hmem => List.mem_map_of_mem hmem

theorem Inv.initial : Inv env (State.initial : State Port) where
  ok port := by
    refine ⟨fun b hb => ?_, fun b hb => ?_, fun _ _ => rfl, fun v hv => ?_⟩
    · cases hb
    · cases hb
    · cases hv
  settled _ port := by
    refine ⟨fun _ => ⟨rfl, fun b hb => ?_⟩, fun v hv => ?_, fun v hv => ?_⟩
    · cases hb
    · cases hv
    · cases hv
  reports r hr := by cases hr
  phase := trivial
  posted r hr := by cases hr
  applied r hr := by cases hr
  saved r hr := by cases hr
  ids r hr := by cases hr
  distinct := List.nodup_nil

/-! ### Steps -/

section
variable {s s' : State Port}

/-- A step that touches neither the ports nor the reports keeps all but the phase. -/
theorem Inv.move (h : Inv env s) (phase : Phase Port) (hphase : PhaseOk env s phase) :
    Inv env { s with phase := phase } where
  ok := h.ok
  settled := h.settled
  reports r hr := ⟨(h.reports r hr).saved, (h.reports r hr).ports, (h.reports r hr).waits, (h.reports r hr).moves⟩
  phase := by
    cases phase with
    | idle => trivial
    | sampling visited rows => exact hphase
    | saving r => exact hphase
    | posting r => exact hphase
    | waiting r => exact hphase
    | completing r rest => exact hphase
  posted := h.posted
  applied := h.applied
  saved := h.saved
  ids := h.ids
  distinct := h.distinct

theorem Inv.collect (h : Inv env s) (hstep : step env s .collect = some s') : Inv env s' := by
  cases hphase : s.phase with
  | idle =>
    simp only [step, hphase] at hstep
    rcases Option.eq_none_or_eq_some s.pending with hpending | ⟨r, hpending⟩
    · rw [hpending] at hstep
      obtain rfl := Option.some.inj hstep
      exact hpending ▸ h.move (.sampling [] []) ⟨hpending, ⟨List.nodup_nil, fun row hrow => by cases hrow⟩,
        fun row hrow => by cases hrow⟩
    · rw [hpending] at hstep
      obtain rfl := Option.some.inj hstep
      exact hpending ▸ h.move (.posting r) hpending
  | _ =>
    simp only [step, hphase] at hstep
    cases hstep

/-- A step on one port while nothing is pending: the port is settled again, and the rows so
far are not of it. -/
theorem Inv.touch (h : Inv env s) (hpending : s.pending = none) {store : Store Port}
    {sampled : Port → Dir → Nat} {first : Port → Option Baseline} {port : Port}
    (hother : ∀ q, q ≠ port → ({ s with store := store, sampled := sampled, first := first } : State Port).slot q =
      s.slot q)
    (hok : env.Ok port (({ s with store := store, sampled := sampled, first := first } : State Port).slot port))
    (hsettled : env.Settled port
      (({ s with store := store, sampled := sampled, first := first } : State Port).slot port))
    {phase : Phase Port} (hphase : PhaseOk env { s with store := store, sampled := sampled, first := first } phase) :
    Inv env { s with store := store, sampled := sampled, first := first, phase := phase } where
  ok q := by
    by_cases hq : q = port
    · rw [hq]
      exact hok
    · have := h.ok q
      rw [← hother q hq] at this
      exact this
  settled _ q := by
    by_cases hq : q = port
    · rw [hq]
      exact hsettled
    · have := h.settled hpending q
      rw [← hother q hq] at this
      exact this
  reports r hr := by cases hpending.symm.trans hr
  phase := by
    cases phase with
    | idle => trivial
    | sampling visited rows => exact hphase
    | saving r => exact hphase
    | posting r => exact hphase
    | waiting r => exact hphase
    | completing r rest => exact hphase
  posted := h.posted
  applied := h.applied
  saved := h.saved
  ids := h.ids
  distinct := h.distinct

theorem Inv.sample (h : Inv env s) {port : Port} {x : Sample} {o : Outcome}
    (hstep : step env s (.sample port x o) = some s') : Inv env s' := by
  cases hphase : s.phase with
  | sampling visited rows =>
    simp only [step, hphase] at hstep
    split at hstep
    swap
    · cases hstep
    rename_i hguard
    obtain ⟨hnew, hrule, hin, hout⟩ := hguard
    obtain rfl := Option.some.inj hstep
    have hphaseOk := h.phase
    rw [hphase] at hphaseOk
    obtain ⟨hpending, hfit, hvisited⟩ := hphaseOk
    have hgrow : ∀ d, (s.slot port).sampled d ≤ x.bytes d := by
      intro d
      cases d with
      | inbound => exact hin
      | outbound => exact hout
    -- what is read of the port, and the row that is made of it
    have hread := Slot.read_settled (h.ok port) (h.settled hpending port) hrule
    have hsampled : ((s.slot port).read.1.note (env.ruleOf port) (s.slot port).read.2).sampled =
        (s.slot port).sampled := by
      unfold Slot.note Slot.read
      split
      · split
        · rfl
        · rfl
      · split
        · rfl
        · rfl
    have hle : ∀ d, ((s.slot port).read.1.note (env.ruleOf port) (s.slot port).read.2).sampled d ≤ x.bytes d := by
      rw [hsampled]
      exact hgrow
    obtain ⟨hrowFits, hzeroLevel⟩ := rowOf_fits hread hrule hle
    have hreads := hread.grow hle
    have hother : ∀ row ∈ rows, row.port ≠ port := fun row hrow heq => hnew (heq ▸ hvisited row hrow)
    rw [sample_eq]
    dsimp only
    split
    · rename_i hzero
      have hslot : ((s.readOf env port x).commit env port
          (env.rowOf port (s.slot port).read.2 x).baseline o).slot port =
          (s.readSlot env port x).commit (env.ruleOf port) (env.rowOf port (s.slot port).read.2 x).baseline o := by
        rw [slot_commit, slot_readOf]
      have hkept : ∀ q, q ≠ port → ((s.readOf env port x).commit env port
          (env.rowOf port (s.slot port).read.2 x).baseline o).slot q = s.slot q := by
        intro q hq
        rw [slot_commit_ne env _ hq, slot_readOf_ne env _ hq]
      obtain ⟨hok, hsettled⟩ := hreads.commit hrule (rowOf_known port _ x)
        (fun d => Nat.le_of_eq (rowOf_bytes port _ x d)) (hzeroLevel hzero) o
      refine h.touch hpending hkept (hslot ▸ hok) (hslot ▸ hsettled) ⟨hpending, ⟨hfit.ports, fun row hrow => ?_⟩,
        fun row hrow => List.mem_cons_of_mem _ (hvisited row hrow)⟩
      have := hfit.fit row hrow
      rw [← hkept row.port (hother row hrow)] at this
      exact this
    · have hslot := slot_readOf env s port x
      have hkept : ∀ q, q ≠ port → (s.readOf env port x).slot q = s.slot q :=
        fun q hq => slot_readOf_ne env s hq x
      refine h.touch hpending hkept (hslot ▸ hreads.ok) (hslot ▸ hreads.settled)
        ⟨hpending, ⟨?_, fun row hrow => ?_⟩, fun row hrow => ?_⟩
      · rw [List.map_append, List.nodup_append]
        refine ⟨hfit.ports, List.nodup_singleton _, fun q hq q' hq' heq => ?_⟩
        obtain ⟨row, hrow, rfl⟩ := List.mem_map.mp hq
        exact hother row hrow (heq.trans (List.mem_singleton.mp hq'))
      · rcases List.mem_append.mp hrow with hrow | hrow
        · have := hfit.fit row hrow
          rw [← hkept row.port (hother row hrow)] at this
          exact this
        · rw [List.mem_singleton.mp hrow]
          show env.Fits _ ((s.readOf env port x).slot port)
          rw [hslot]
          exact hrowFits
      · rcases List.mem_append.mp hrow with hrow | hrow
        · exact List.mem_cons_of_mem _ (hvisited row hrow)
        · rw [List.mem_singleton.mp hrow]
          exact List.mem_cons_self
  | _ =>
    simp only [step, hphase] at hstep
    cases hstep

theorem Inv.build (h : Inv env s) {due hostDue : Bool} {hostTraffic : Option (Nat × Nat)} {reportId : String}
    (hstep : step env s (.build due hostDue hostTraffic reportId) = some s') : Inv env s' := by
  cases hphase : s.phase with
  | sampling visited rows =>
    simp only [step, hphase] at hstep
    have hphaseOk := h.phase
    rw [hphase] at hphaseOk
    obtain ⟨hpending, hfit, -⟩ := hphaseOk
    generalize (if (rows ≠ [] ∧ due = true) ∨ hostDue = true then hostTraffic else none) = host at hstep
    split at hstep
    · split at hstep
      · cases hstep
      · rename_i hfresh
        obtain rfl := Option.some.inj hstep
        refine ⟨h.ok, h.settled, fun r hr => ?_, ⟨hpending, hfit, List.mem_cons_self, fun hmem => ?_⟩, h.posted,
          h.applied, h.saved, fun r hr => List.mem_cons_of_mem _ (h.ids r hr), h.distinct⟩
        · cases hpending.symm.trans hr
        · obtain ⟨r, hr, hid⟩ := List.mem_map.mp hmem
          have hsame : r.reportId = reportId := hid
          exact hfresh (hsame ▸ h.ids r hr)
    · obtain rfl := Option.some.inj hstep
      exact h.move .idle trivial
  | _ =>
    simp only [step, hphase] at hstep
    cases hstep

theorem Inv.save (h : Inv env s) {o : Outcome} (hstep : step env s (.save o) = some s') : Inv env s' := by
  cases hphase : s.phase with
  | saving r =>
    simp only [step, hphase] at hstep
    have hphaseOk := h.phase
    rw [hphase] at hphaseOk
    obtain ⟨hpending, hfit, hid, hfresh⟩ := hphaseOk
    split at hstep
    · obtain rfl := Option.some.inj hstep
      exact h.move .idle trivial
    · obtain rfl := Option.some.inj hstep
      have hnew : r ∉ s.saved := fun hmem => hfresh (List.mem_map_of_mem hmem)
      refine ⟨h.ok, fun hnone => ?_, fun r' hr' => ?_, ?_, fun r' hr' => List.mem_append_left _ (h.posted r' hr'),
        fun r' hr' => List.mem_append_left _ (h.applied r' hr'), fun r' hr' => ?_, fun r' hr' => ?_, ?_⟩
      · cases hnone
      · obtain rfl := Option.some.inj hr'
        exact ⟨List.mem_append_right _ (List.mem_singleton.mpr rfl), hfit.ports,
          fun _ => ⟨h.settled hpending, hfit⟩, fun hmem => absurd (h.applied r hmem) hnew⟩
      · split
        · rfl
        · trivial
      · rcases List.mem_append.mp hr' with hr' | hr'
        · rcases h.saved r' hr' with heq | hmem
          · cases hpending.symm.trans heq
          · exact .inr hmem
        · rw [List.mem_singleton.mp hr']
          exact .inl rfl
      · rcases List.mem_append.mp hr' with hr' | hr'
        · exact h.ids r' hr'
        · rw [List.mem_singleton.mp hr']
          exact hid
      · rw [List.map_append, List.nodup_append]
        refine ⟨h.distinct, List.nodup_singleton _, fun id hmem id' hmem' heq => ?_⟩
        rw [heq, List.mem_singleton.mp hmem'] at hmem
        exact hfresh hmem
  | _ =>
    simp only [step, hphase] at hstep
    cases hstep

theorem Inv.post (h : Inv env s) (hstep : step env s .post = some s') : Inv env s' := by
  cases hphase : s.phase with
  | posting r =>
    simp only [step, hphase] at hstep
    obtain rfl := Option.some.inj hstep
    have hpending : s.pending = some r := by
      have := h.phase
      rwa [hphase] at this
    have hreports := h.reports
    refine ⟨h.ok, h.settled, fun r' hr' => ⟨(hreports r' hr').saved, (hreports r' hr').ports,
      (hreports r' hr').waits, (hreports r' hr').moves⟩, hpending, fun r' hr' => ?_, h.applied, h.saved, h.ids,
      h.distinct⟩
    rcases List.mem_append.mp hr' with hr' | hr'
    · exact h.posted r' hr'
    · rw [List.mem_singleton.mp hr']
      exact (hreports r hpending).saved
  | _ =>
    simp only [step, hphase] at hstep
    cases hstep

theorem Inv.answer (h : Inv env s) {ok : Bool} (hstep : step env s (.answer ok) = some s') : Inv env s' := by
  cases hphase : s.phase with
  | waiting r =>
    simp only [step, hphase] at hstep
    have hpending : s.pending = some r := by
      have := h.phase
      rwa [hphase] at this
    split at hstep
    · obtain rfl := Option.some.inj hstep
      exact h.move .idle trivial
    split at hstep
    · rename_i hid
      obtain rfl := Option.some.inj hstep
      have happlied := (h.mem_applied (h.reports r hpending).saved).mp hid
      exact h.move (.completing r r.rows) ⟨hpending, happlied, [], rfl, fun row hrow => by cases hrow⟩
    · cases hstep
  | _ =>
    simp only [step, hphase] at hstep
    cases hstep

theorem Inv.remove (h : Inv env s) {o : Outcome} (hstep : step env s (.remove o) = some s') : Inv env s' := by
  cases hphase : s.phase with
  | completing r rest =>
    cases rest with
    | cons row rest =>
      simp only [step, hphase] at hstep
      cases hstep
    | nil =>
      simp only [step, hphase] at hstep
      obtain rfl := Option.some.inj hstep
      have hphaseOk := h.phase
      rw [hphase] at hphaseOk
      obtain ⟨hpending, happlied, done, hrows, hdone⟩ := hphaseOk
      rw [List.append_nil] at hrows
      subst hrows
      by_cases hfailed : o = .failed
      · rw [if_pos hfailed]
        exact h.move .idle trivial
      · rw [if_neg hfailed]
        have hall : ∀ port, env.Settled port (s.slot port) := by
          intro port
          by_cases hport : port ∈ r.rows.map Row.port
          · obtain ⟨row, hrow, rfl⟩ := List.mem_map.mp hport
            exact hdone row hrow
          · exact ((h.reports r hpending).moves happlied).2 port hport
        refine ⟨h.ok, fun _ => hall, fun r' hr' => ?_, trivial, h.posted, h.applied, fun r' hr' => ?_, h.ids,
          h.distinct⟩
        · cases hr'
        · rcases h.saved r' hr' with heq | hmem
          · obtain rfl := Option.some.inj (hpending.symm.trans heq)
            exact .inr happlied
          · exact .inr hmem
  | _ =>
    simp only [step, hphase] at hstep
    cases hstep

theorem Slot.crash {rule : Int} {source epoch : String} {x : Slot} (h : x.Ok rule source epoch) :
    Slot.Ok rule source epoch { x with cache := none } ∧
    (x.Settled rule source epoch → Slot.Settled rule source epoch { x with cache := none }) := by
  refine ⟨⟨h.file, fun b hb => ?_, h.fresh, h.sum⟩, fun hs => ⟨fun hfirst => ⟨(hs.fresh hfirst).1, fun b hb => ?_⟩,
    hs.file, fun v hv b hb => ?_⟩⟩
  all_goals cases hb

theorem Inv.crash (h : Inv env s) (hstep : step env s .crash = some s') : Inv env s' := by
  simp only [step] at hstep
  obtain rfl := Option.some.inj hstep
  have hcrash := fun port => Slot.crash (h.ok port)
  refine ⟨fun port => (hcrash port).1, fun hnone port => (hcrash port).2 (h.settled hnone port), fun r hr => ?_,
    trivial, h.posted, h.applied, h.saved, h.ids, h.distinct⟩
  have hr := h.reports r hr
  refine ⟨hr.saved, hr.ports, fun hnew => ?_, fun happlied => ?_⟩
  · obtain ⟨hsettled, hfit⟩ := hr.waits hnew
    refine ⟨fun port => (hcrash port).2 (hsettled port), hfit.ports, fun row hrow => ?_⟩
    obtain ⟨hrule, hknown, hwithin, hfresh, hsum⟩ := hfit.fit row hrow
    exact ⟨hrule, hknown, hwithin, hfresh, hsum⟩
  · obtain ⟨hrows, hothers⟩ := hr.moves happlied
    refine ⟨fun row hrow => ?_, fun port hport => (hcrash port).2 (hothers port hport)⟩
    obtain ⟨hrule, hknown, hwithin, hlast, -⟩ := hrows row hrow
    exact ⟨hrule, hknown, hwithin, hlast, fun b hb => by cases hb⟩

theorem Slot.commit_kept (rule : Int) (x : Slot) (n : Baseline) (o : Outcome) :
    (x.commit rule n o).last = x.last ∧ (x.commit rule n o).sampled = x.sampled := by
  have hnote : ∀ y : Slot, (y.note rule n).last = y.last ∧ (y.note rule n).sampled = y.sampled := by
    intro y
    unfold Slot.note
    split
    · exact ⟨rfl, rfl⟩
    · exact ⟨rfl, rfl⟩
  unfold Slot.commit
  rcases x.write_cases n o with ⟨-, hw⟩ | ⟨-, hw | hw | hw⟩
  · rw [hw]
    exact hnote x
  · rw [hw]
    exact ⟨rfl, rfl⟩
  · rw [hw]
    exact ⟨rfl, rfl⟩
  · rw [hw]
    exact hnote _

omit [DecidableEq Port] in
/-- Committing a row that the panel applied keeps it applied, and settles its port once the
write returns. -/
theorem Env.Applied.commit {row : Row Port} {x : Slot} (h : env.Applied row x) (hok : env.Ok row.port x)
    (o : Outcome) :
    env.Ok row.port (x.commit (env.ruleOf row.port) row.baseline o) ∧
    env.Applied row (x.commit (env.ruleOf row.port) row.baseline o) ∧
    ((x.write row.baseline o).2 = true →
      env.Settled row.port (x.commit (env.ruleOf row.port) row.baseline o)) := by
  obtain ⟨hlast, hsampled⟩ := Slot.commit_kept (env.ruleOf row.port) x row.baseline o
  have hwithin : ∀ d, row.baseline.bytes d ≤ (x.commit (env.ruleOf row.port) row.baseline o).sampled d := by
    rw [hsampled]
    exact h.within
  rcases h.moving.commit hok h.known h.within o with ⟨hfalse, hok', hmoving⟩ | ⟨htrue, hok', hsettled⟩
  · have hcommit : x.commit (env.ruleOf row.port) row.baseline o = (x.write row.baseline o).1 := by
      unfold Slot.commit
      rw [hfalse]
      rfl
    rw [← hcommit] at hok' hmoving
    refine ⟨hok', ⟨h.rule, h.known, hwithin, hmoving⟩, fun htrue => ?_⟩
    rw [hfalse] at htrue
    cases htrue
  · have hcommit : x.commit (env.ruleOf row.port) row.baseline o =
        (x.write row.baseline o).1.note (env.ruleOf row.port) row.baseline := by
      unfold Slot.commit
      rw [if_pos htrue]
    rw [← hcommit] at hok' hsettled
    obtain ⟨l, hl, hsame⟩ := h.moving.last
    exact ⟨hok', ⟨h.rule, h.known, hwithin, hsettled.moving h.rule (hlast.trans hl) hsame⟩, fun _ => hsettled⟩

omit [DecidableEq Port] in
theorem eq_of_port {rows : List (Row Port)} (hports : (rows.map Row.port).Nodup) {row row' : Row Port}
    (hrow : row ∈ rows) (hrow' : row' ∈ rows) (h : row.port = row'.port) : row = row' :=
  List.inj_on_of_nodup_map hports hrow hrow' h

theorem Inv.commit (h : Inv env s) {o : Outcome} (hstep : step env s (.commit o) = some s') : Inv env s' := by
  cases hphase : s.phase with
  | completing r rest =>
    cases rest with
    | nil =>
      simp only [step, hphase] at hstep
      cases hstep
    | cons row rest =>
      simp only [step, hphase] at hstep
      obtain rfl := Option.some.inj hstep
      have hphaseOk := h.phase
      rw [hphase] at hphaseOk
      obtain ⟨hpending, happlied, done, hrows, hdone⟩ := hphaseOk
      have hr := h.reports r hpending
      obtain ⟨hmoves, hothers⟩ := hr.moves happlied
      have hmem : row ∈ r.rows := by
        rw [hrows]
        simp
      obtain ⟨hok, hmoving, hsettled⟩ := (hmoves row hmem).commit (h.ok row.port) o
      have hreturned := (slot_write s row.port row.baseline o).2
      have hslot := slot_commit env s row.port row.baseline o
      have hkept : ∀ q, q ≠ row.port → (s.commit env row.port row.baseline o).slot q = s.slot q :=
        fun q hq => slot_commit_ne env s hq row.baseline o
      -- the rows before have other ports
      have hdone' : ∀ row' ∈ done, row'.port ≠ row.port := by
        intro row' hrow' heq
        have hports := hr.ports
        rw [hrows, List.map_append, List.map_cons] at hports
        exact (List.nodup_append.mp hports).2.2 _ (List.mem_map_of_mem hrow') _ List.mem_cons_self heq
      refine ⟨fun port => ?_, fun hnone => ?_, fun r' hr' => ?_, ?_, h.posted, h.applied, h.saved, h.ids, h.distinct⟩
      · show env.Ok port ((s.commit env row.port row.baseline o).slot port)
        by_cases hport : port = row.port
        · rw [hport, hslot]
          exact hok
        · rw [hkept port hport]
          exact h.ok port
      · cases hpending.symm.trans hnone
      · obtain rfl := Option.some.inj (hpending.symm.trans hr')
        refine ⟨hr.saved, hr.ports, fun hnew => absurd happlied hnew, fun _ =>
          ⟨fun row' hrow' => ?_, fun port hport => ?_⟩⟩
        · show env.Applied row' ((s.commit env row.port row.baseline o).slot row'.port)
          by_cases hport : row'.port = row.port
          · obtain rfl := eq_of_port hr.ports hrow' hmem hport
            rw [hslot]
            exact hmoving
          · rw [hkept _ hport]
            exact hmoves row' hrow'
        · show env.Settled port ((s.commit env row.port row.baseline o).slot port)
          rw [hkept port (fun heq => hport (heq ▸ List.mem_map_of_mem hmem))]
          exact hothers port hport
      · have hcommitted : (s.store.writePrevState row.port row.baseline o).2 = true → ∀ row' ∈ done ++ [row],
            env.Settled row'.port ((s.commit env row.port row.baseline o).slot row'.port) := by
          intro htrue row' hrow'
          rcases List.mem_append.mp hrow' with hrow' | hrow'
          · rw [hkept _ (hdone' row' hrow')]
            exact hdone row' hrow'
          · rw [List.mem_singleton.mp hrow', hslot]
            exact hsettled (hreturned ▸ htrue)
        show PhaseOk env { s.commit env row.port row.baseline o with phase := _ }
          (if (s.store.writePrevState row.port row.baseline o).2 then Phase.completing r rest else .idle)
        by_cases htrue : (s.store.writePrevState row.port row.baseline o).2 = true
        · rw [if_pos htrue]
          refine ⟨hpending, happlied, done ++ [row], ?_, hcommitted htrue⟩
          rw [hrows]
          simp
        · rw [if_neg htrue]
          trivial
  | _ =>
    simp only [step, hphase] at hstep
    cases hstep

theorem filter_port {rows : List (Row Port)} (hports : (rows.map Row.port).Nodup) {row : Row Port}
    (hrow : row ∈ rows) : rows.filter (fun r => r.port = row.port) = [row] := by
  induction rows with
  | nil => cases hrow
  | cons z rows ih =>
    rw [List.map_cons, List.nodup_cons] at hports
    rcases List.mem_cons.mp hrow with rfl | hrow
    · rw [List.filter_cons_of_pos (by simp)]
      congr 1
      apply List.filter_eq_nil_iff.mpr
      intro r hr heq
      have hport : r.port = row.port := by simpa using heq
      exact hports.1 (hport ▸ List.mem_map_of_mem hr)
    · have hne : z.port ≠ row.port := fun heq => hports.1 (heq ▸ List.mem_map_of_mem hrow)
      rw [List.filter_cons_of_neg (by simpa using hne)]
      exact ih hports.2 hrow

theorem rowsOf_deliver (s : State Port) (r : Report Port) (port : Port) :
    ({ s with applied := s.applied ++ [r] } : State Port).rowsOf port =
      s.rowsOf port ++ r.rows.filter (fun row => row.port = port) := by
  simp [State.rowsOf, List.flatMap_append, List.filter_append]

theorem slot_deliver (s : State Port) {r : Report Port} (hports : (r.rows.map Row.port).Nodup) {row : Row Port}
    (hrow : row ∈ r.rows) : ({ s with applied := s.applied ++ [r] } : State Port).slot row.port =
      (s.slot row.port).apply row := by
  have hrows := rowsOf_deliver s r row.port
  rw [filter_port hports hrow] at hrows
  have hbytes : ({ s with applied := s.applied ++ [r] } : State Port).appliedBytes row.port =
      fun d => s.appliedBytes row.port d + row.bytes d := by
    funext d
    unfold State.appliedBytes
    rw [hrows]
    simp
  have hlast : ({ s with applied := s.applied ++ [r] } : State Port).lastApplied row.port = some row.baseline := by
    unfold State.lastApplied
    rw [hrows]
    simp
  show (⟨_, _, _, _, _, _⟩ : Slot) = ⟨_, _, _, _, _, _⟩
  rw [hbytes, hlast]
  rfl

theorem slot_deliver_ne (s : State Port) {r : Report Port} {port : Port} (hport : port ∉ r.rows.map Row.port) :
    ({ s with applied := s.applied ++ [r] } : State Port).slot port = s.slot port := by
  have hnone : r.rows.filter (fun row => row.port = port) = [] := by
    apply List.filter_eq_nil_iff.mpr
    intro row hrow heq
    have hsame : row.port = port := by simpa using heq
    exact hport (hsame ▸ List.mem_map_of_mem hrow)
  have hrows := rowsOf_deliver s r port
  rw [hnone, List.append_nil] at hrows
  show (⟨_, _, _, _, State.appliedBytes _ port, State.lastApplied _ port⟩ : Slot) = _
  unfold State.appliedBytes State.lastApplied
  rw [hrows]
  rfl

theorem Inv.deliver (h : Inv env s) {r : Report Port} (hstep : step env s (.deliver r) = some s') : Inv env s' := by
  simp only [step] at hstep
  split at hstep
  swap
  · cases hstep
  rename_i hposted
  have hsaved := h.posted r hposted
  split at hstep
  · obtain rfl := Option.some.inj hstep
    exact h
  rename_i hid
  obtain rfl := Option.some.inj hstep
  have hnew : r ∉ s.applied := fun hmem => hid ((h.mem_applied hsaved).mpr hmem)
  have hpending : s.pending = some r := (h.saved r hsaved).resolve_right hnew
  have hr := h.reports r hpending
  obtain ⟨hsettled, hfit⟩ := hr.waits hnew
  have happly : ∀ row ∈ r.rows,
      env.Ok row.port (({ s with applied := s.applied ++ [r] } : State Port).slot row.port) ∧
      env.Applied row (({ s with applied := s.applied ++ [r] } : State Port).slot row.port) := by
    intro row hrow
    obtain ⟨hrule, hfits⟩ := hfit.fit row hrow
    obtain ⟨hok, hmoving⟩ := (hsettled row.port).apply (h.ok row.port) hrule hfits
    rw [slot_deliver s hr.ports hrow]
    exact ⟨hok, hrule, hfits.known, hfits.within, hmoving⟩
  refine ⟨fun port => ?_, fun hnone => ?_, fun r' hr' => ?_, ?_, h.posted, fun r' hr' => ?_, fun r' hr' => ?_, h.ids,
    h.distinct⟩
  · by_cases hport : port ∈ r.rows.map Row.port
    · obtain ⟨row, hrow, rfl⟩ := List.mem_map.mp hport
      exact (happly row hrow).1
    · rw [slot_deliver_ne s hport]
      exact h.ok port
  · cases hpending.symm.trans hnone
  · obtain rfl := Option.some.inj (hpending.symm.trans hr')
    refine ⟨hr.saved, hr.ports, fun hnew' => absurd (List.mem_append_right _ (List.mem_singleton.mpr rfl)) hnew',
      fun _ => ⟨fun row hrow => (happly row hrow).2, fun port hport => ?_⟩⟩
    rw [slot_deliver_ne s hport]
    exact hsettled port
  · -- the phases that are about slots are not reached while the report is pending
    have hphaseOk := h.phase
    cases hphase : s.phase with
    | idle => trivial
    | sampling visited rows =>
      rw [hphase] at hphaseOk
      cases hpending.symm.trans hphaseOk.1
    | saving r' =>
      rw [hphase] at hphaseOk
      cases hpending.symm.trans hphaseOk.1
    | posting r' =>
      rw [hphase] at hphaseOk
      exact hphaseOk
    | waiting r' =>
      rw [hphase] at hphaseOk
      exact hphaseOk
    | completing r' rest =>
      rw [hphase] at hphaseOk
      obtain rfl := Option.some.inj (hpending.symm.trans hphaseOk.1)
      exact absurd hphaseOk.2.1 hnew
  · rcases List.mem_append.mp hr' with hr' | hr'
    · exact h.applied r' hr'
    · rw [List.mem_singleton.mp hr']
      exact hsaved
  · exact (h.saved r' hr').imp_right fun hmem => List.mem_append_left _ hmem

theorem Inv.step (a : Act Port) (hstep : step env s a = some s') (h : Inv env s) : Inv env s' := by
  cases a with
  | collect => exact h.collect hstep
  | sample port x o => exact h.sample hstep
  | build due hostDue hostTraffic reportId => exact h.build hstep
  | save o => exact h.save hstep
  | post => exact h.post hstep
  | answer ok => exact h.answer hstep
  | commit o => exact h.commit hstep
  | remove o => exact h.remove hstep
  | deliver r => exact h.deliver hstep
  | crash => exact h.crash hstep

end

/-! ### Every run -/

/-- In every run: what the panel applied of a port lies between its first baseline and the last
one the panel applied; nothing is sampled or saved while a report is pending; only saved
reports are posted, each under an id of its own, and each is pending or applied; and while
nothing is pending what was applied lies between the first baseline and those on the disk and
in the cache. -/
theorem traffic_accounted_once {acts : List (Act Port)} {s : State Port}
    (h : Run (steps env) State.initial acts s) :
    (∀ port d, (s.first port = none → s.appliedBytes port d = 0) ∧ ∀ v, s.first port = some v →
      s.appliedBytes port d + v.bytes d = ((s.lastApplied port).getD v).bytes d) ∧
    ((∃ visited rows, s.phase = .sampling visited rows) ∨ (∃ r, s.phase = .saving r) → s.pending = none) ∧
    (∀ r ∈ s.posted, r ∈ s.saved) ∧ (s.saved.map Report.reportId).Nodup ∧
    (∀ r ∈ s.saved, s.pending = some r ∨ r ∈ s.applied) ∧
    (s.pending = none → ∀ port v, s.first port = some v →
      (∃ b, s.store.file port = some b ∧ ∀ d, s.appliedBytes port d + v.bytes d = b.bytes d) ∧
      ∀ b, s.store.cache port = some b → ∀ d, s.appliedBytes port d + v.bytes d = b.bytes d) := by
  have hinv : Inv env s := Run.preserves (P := Inv env) (fun _ a _ hstep hs => Inv.step a hstep hs) h Inv.initial
  refine ⟨fun port d => ⟨fun hfirst => (hinv.ok port).fresh hfirst d, fun v hv => (hinv.ok port).sum v hv d⟩,
    fun hphase => ?_, hinv.posted, hinv.distinct, hinv.saved, fun hpending port v hv => ?_⟩
  · have hphaseOk := hinv.phase
    obtain ⟨visited, rows, hphase⟩ | ⟨r, hphase⟩ := hphase
    · rw [hphase] at hphaseOk
      exact hphaseOk.1
    · rw [hphase] at hphaseOk
      exact hphaseOk.1
  · have hsum := (hinv.ok port).sum v hv
    have hsettled := hinv.settled hpending port
    constructor
    · obtain ⟨f, hf, hsame⟩ := hsettled.file v hv
      exact ⟨f, hf, fun d => (hsum d).trans (hsame d).symm⟩
    · intro b hb d
      exact (hsum d).trans ((hsettled.cache v hv b hb).2 d).symm

end

/-- Five bytes whose report was posted, applied, and posted again after a crash. -/
theorem traffic_accounted_after_crash : ∃ s : State Unit,
    exec (step ⟨fun _ => 1, fun _ => "", fun _ => "", fun _ => true⟩) State.initial
      [.collect, .sample () ⟨10, 20, 0, "", 0, false⟩ .ok, .build true false none "r",
        .collect, .sample () ⟨15, 20, 0, "", 0, false⟩ .ok, .build true false none "r", .save .ok, .post,
        .answer false, .deliver ⟨"r", [⟨(), 5, 0, 0, ⟨1, 15, 20, 0, "", "", ""⟩⟩], none⟩, .crash,
        .collect, .post, .answer true, .commit .ok, .remove .ok] = some s ∧
      s.pending = none ∧ s.appliedBytes () .inbound = 5 ∧
      ∀ v, s.first () = some v → 5 + v.bytesIn = ((s.lastApplied ()).getD v).bytesIn := by
  have hrun : (exec (step ⟨fun _ => 1, fun _ => "", fun _ => "", fun _ => true⟩) (State.initial : State Unit)
      [.collect, .sample () ⟨10, 20, 0, "", 0, false⟩ .ok, .build true false none "r",
        .collect, .sample () ⟨15, 20, 0, "", 0, false⟩ .ok, .build true false none "r", .save .ok, .post,
        .answer false, .deliver ⟨"r", [⟨(), 5, 0, 0, ⟨1, 15, 20, 0, "", "", ""⟩⟩], none⟩, .crash,
        .collect, .post, .answer true, .commit .ok, .remove .ok]).any
      (fun s => s.pending.isNone && decide (s.appliedBytes () .inbound = 5)) = true := by decide +kernel
  obtain ⟨s, hs, hend⟩ := (Option.any_eq_true _ _).mp hrun
  rw [Bool.and_eq_true, Option.isNone_iff_eq_none, decide_eq_true_eq] at hend
  obtain ⟨hpending, hbytes⟩ := hend
  refine ⟨s, hs, hpending, hbytes, fun v hv => ?_⟩
  have hsum := ((traffic_accounted_once (exec_run hs)).1 () .inbound).2 v hv
  rw [hbytes] at hsum
  exact hsum

end ForwardX.Agent.Traffic
