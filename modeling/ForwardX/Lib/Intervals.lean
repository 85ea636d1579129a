import Mathlib.Algebra.Order.Ring.Int
import Mathlib.Data.List.Sort

/- Lists of closed intervals of integers as the sets they cover. `merge` joins the intervals of
   a sorted list that overlap or touch, and `intersect` walks two lists in order at once; both
   are judged by what they cover and by the order they leave. -/
namespace Intervals

structure Interval where
  start : Int
  stop : Int
  deriving DecidableEq, Repr

def Interval.Has (r : Interval) (x : Int) : Prop := r.start ≤ x ∧ x ≤ r.stop

def Covers (l : List Interval) (x : Int) : Prop := ∃ r ∈ l, r.Has x

theorem covers_nil (x : Int) : Covers [] x ↔ False := by simp [Covers]

theorem covers_cons (r : Interval) (l : List Interval) (x : Int) : Covers (r :: l) x ↔ r.Has x ∨ Covers l x := by
  simp [Covers]

theorem covers_append (l m : List Interval) (x : Int) : Covers (l ++ m) x ↔ Covers l x ∨ Covers m x := by
  simp [Covers, or_and_right, exists_or]

theorem Covers.perm {l m : List Interval} (h : l.Perm m) (x : Int) : Covers l x ↔ Covers m x := by
  simp only [Covers, h.mem_iff]

/-- The intervals are not empty, and each ends before those behind it start. -/
structure Ordered (l : List Interval) : Prop where
  proper : ∀ r ∈ l, r.start ≤ r.stop
  apart : l.Pairwise (fun a b => a.stop < b.start)

theorem Ordered.nil : Ordered [] := ⟨fun _ h => absurd h List.not_mem_nil, List.Pairwise.nil⟩

variable {l m : List Interval} {r : Interval}

theorem Ordered.tail (h : Ordered (r :: l)) : Ordered l :=
  ⟨fun s hs => h.proper s (List.mem_cons_of_mem _ hs), h.apart.of_cons⟩

theorem Ordered.sublist (h : Ordered m) (hlm : l.Sublist m) : Ordered l :=
  ⟨fun r hr => h.proper r (hlm.subset hr), h.apart.sublist hlm⟩

/-- Intervals that cover only numbers between two bounds lie between these. -/
theorem Ordered.within (h : Ordered l) {lo hi : Int} (hin : ∀ x, Covers l x → lo ≤ x ∧ x ≤ hi) :
    ∀ r ∈ l, lo ≤ r.start ∧ r.stop ≤ hi := by
  intro r hr
  have hproper := h.proper r hr
  exact ⟨(hin r.start ⟨r, hr, Int.le_refl _, hproper⟩).1, (hin r.stop ⟨r, hr, hproper, Int.le_refl _⟩).2⟩

/-! ## Merging -/

/-- The intervals of a sorted list, the first of which is `previous`, joined where they overlap
or touch. -/
def mergeFrom (previous : Interval) : List Interval → List Interval
  | [] => [previous]
  | range :: ranges =>
    if range.start ≤ previous.stop + 1 then mergeFrom ⟨previous.start, max previous.stop range.stop⟩ ranges
    else previous :: mergeFrom range ranges

def merge : List Interval → List Interval
  | [] => []
  | range :: ranges => mergeFrom range ranges

def Sorted (l : List Interval) : Prop := l.Pairwise (fun a b => a.start ≤ b.start)

theorem mergeFrom_covers {previous : Interval} (h : Sorted (previous :: l)) (x : Int) :
    Covers (mergeFrom previous l) x ↔ previous.Has x ∨ Covers l x := by
  induction l generalizing previous with
  | nil => exact covers_cons previous [] x
  | cons range ranges ih =>
    obtain ⟨hfirst, hrest⟩ := List.pairwise_cons.mp h
    obtain ⟨hsecond, htail⟩ := List.pairwise_cons.mp hrest
    unfold mergeFrom
    split
    · rename_i htouch
      have hstart := hfirst range List.mem_cons_self
      have hsorted : Sorted (⟨previous.start, max previous.stop range.stop⟩ :: ranges) :=
        List.pairwise_cons.mpr ⟨fun r hr => hfirst r (List.mem_cons_of_mem _ hr), htail⟩
      rw [ih hsorted, covers_cons, ← or_assoc]
      apply or_congr_left
      unfold Interval.Has
      dsimp only
      omega
    · rw [covers_cons, ih hrest, covers_cons]

theorem mergeFrom_ordered {previous : Interval} (h : Sorted (previous :: l))
    (hproper : ∀ r ∈ previous :: l, r.start ≤ r.stop) :
    Ordered (mergeFrom previous l) ∧ ∀ r ∈ mergeFrom previous l, previous.start ≤ r.start := by
  induction l generalizing previous with
  | nil =>
    refine ⟨⟨hproper, List.pairwise_singleton _ _⟩, fun r hr => ?_⟩
    rw [mergeFrom, List.mem_singleton] at hr
    rw [hr]
  | cons range ranges ih =>
    obtain ⟨hfirst, hrest⟩ := List.pairwise_cons.mp h
    obtain ⟨hsecond, htail⟩ := List.pairwise_cons.mp hrest
    have hstart := hfirst range List.mem_cons_self
    have hprevious := hproper previous List.mem_cons_self
    unfold mergeFrom
    split
    · apply ih
      · exact List.pairwise_cons.mpr ⟨fun r hr => hfirst r (List.mem_cons_of_mem _ hr), htail⟩
      · intro r hr
        rcases List.mem_cons.mp hr with rfl | hr
        · dsimp only
          omega
        · exact hproper r (List.mem_cons_of_mem _ (List.mem_cons_of_mem _ hr))
    · obtain ⟨hordered, hbehind⟩ := ih hrest fun r hr => hproper r (List.mem_cons_of_mem _ hr)
      refine ⟨⟨fun r hr => ?_, List.pairwise_cons.mpr ⟨fun r hr => ?_, hordered.apart⟩⟩, fun r hr => ?_⟩
      · rcases List.mem_cons.mp hr with rfl | hr
        · exact hprevious
        · exact hordered.proper r hr
      · have := hbehind r hr
        omega
      · rcases List.mem_cons.mp hr with rfl | hr
        · exact Int.le_refl _
        · exact Int.le_trans hstart (hbehind r hr)

theorem merge_covers (h : Sorted l) (x : Int) : Covers (merge l) x ↔ Covers l x := by
  cases l with
  | nil => exact Iff.rfl
  | cons range ranges => exact (mergeFrom_covers h x).trans (covers_cons range ranges x).symm

theorem merge_ordered (h : Sorted l) (hproper : ∀ r ∈ l, r.start ≤ r.stop) : Ordered (merge l) := by
  cases l with
  | nil => exact Ordered.nil
  | cons range ranges => exact (mergeFrom_ordered h hproper).1

/-! ## Intersecting -/

/-- The common part of the first intervals, then that of the lists behind the one which ends first. -/
def intersect : List Interval → List Interval → List Interval
  | [], _ => []
  | _ :: _, [] => []
  | left :: lefts, right :: rights =>
    let start := max left.start right.start
    let stop := min left.stop right.stop
    (if start ≤ stop then [⟨start, stop⟩] else []) ++
      (if left.stop < right.stop then intersect lefts (right :: rights) else intersect (left :: lefts) rights)
termination_by lefts rights => lefts.length + rights.length

theorem covers_common (left right : Interval) (x : Int) :
    Covers (if max left.start right.start ≤ min left.stop right.stop then
      [⟨max left.start right.start, min left.stop right.stop⟩] else []) x ↔ left.Has x ∧ right.Has x := by
  split
  · rw [covers_cons, covers_nil, or_false]
    unfold Interval.Has
    dsimp only
    omega
  · rw [covers_nil]
    constructor
    · exact False.elim
    · rintro ⟨⟨h₁, h₂⟩, h₃, h₄⟩
      omega

/-- A number behind the first interval of a list in order is in no later one, and conversely. -/
theorem Ordered.notCovers (h : Ordered (r :: l)) {x : Int} (hx : x ≤ r.stop) : ¬ Covers l x := by
  rintro ⟨s, hs, hstart, _⟩
  have := (List.pairwise_cons.mp h.apart).1 s hs
  omega

theorem intersect_covers (hl : Ordered l) (hm : Ordered m) (x : Int) :
    Covers (intersect l m) x ↔ Covers l x ∧ Covers m x := by
  induction l, m using intersect.induct with
  | case1 m =>
    rw [intersect, covers_nil, false_and]
  | case2 left lefts =>
    rw [intersect, covers_nil, and_false]
  | case3 left lefts right rights ihLeft ihRight =>
    rw [intersect, covers_append, covers_common]
    split
    · -- the left interval ends first, and none of the right ones behind the first reaches it
      have hright : left.Has x → ¬ Covers rights x := fun hx => hm.notCovers (by have := hx.2; omega)
      rw [ihLeft hl.tail hm, covers_cons left lefts, covers_cons right rights]
      constructor
      · rintro (⟨hx, hy⟩ | ⟨hx, hy⟩)
        · exact ⟨.inl hx, .inl hy⟩
        · exact ⟨.inr hx, hy⟩
      · rintro ⟨hx | hx, hy⟩
        · exact .inl ⟨hx, hy.resolve_right (hright hx)⟩
        · exact .inr ⟨hx, hy⟩
    · have hleft : right.Has x → ¬ Covers lefts x := fun hx => hl.notCovers (by have := hx.2; omega)
      rw [ihRight hl hm.tail, covers_cons right rights, covers_cons left lefts]
      constructor
      · rintro (⟨hx, hy⟩ | ⟨hx, hy⟩)
        · exact ⟨.inl hx, .inl hy⟩
        · exact ⟨hx, .inr hy⟩
      · rintro ⟨hx, hy | hy⟩
        · exact .inl ⟨hx.resolve_right (hleft hy), hy⟩
        · exact .inr ⟨hx, hy⟩

theorem mem_intersect (h : r ∈ intersect l m) : r.start ≤ r.stop ∧ (∃ a ∈ l, a.start ≤ r.start ∧ r.stop ≤ a.stop) ∧
      ∃ b ∈ m, b.start ≤ r.start ∧ r.stop ≤ b.stop := by
  induction l, m using intersect.induct with
  | case1 m =>
    rw [intersect] at h
    cases h
  | case2 left lefts =>
    rw [intersect] at h
    cases h
  | case3 left lefts right rights ihLeft ihRight =>
    rw [intersect, List.mem_append] at h
    rcases h with h | h
    · split at h
      · rename_i hproper
        rw [List.mem_singleton] at h
        rw [h]
        exact ⟨hproper, ⟨left, List.mem_cons_self, Int.le_max_left _ _, Int.min_le_left _ _⟩, right,
          List.mem_cons_self, Int.le_max_right _ _, Int.min_le_right _ _⟩
      · cases h
    · split at h
      · obtain ⟨hproper, ⟨a, ha, hin⟩, hright⟩ := ihLeft h
        exact ⟨hproper, ⟨a, List.mem_cons_of_mem _ ha, hin⟩, hright⟩
      · obtain ⟨hproper, hleft, b, hb, hin⟩ := ihRight h
        exact ⟨hproper, hleft, b, List.mem_cons_of_mem _ hb, hin⟩

theorem intersect_ordered (hl : Ordered l) (hm : Ordered m) : Ordered (intersect l m) := by
  refine ⟨fun r hr => (mem_intersect hr).1, ?_⟩
  induction l, m using intersect.induct with
  | case1 m =>
    rw [intersect]
    exact List.Pairwise.nil
  | case2 left lefts =>
    rw [intersect]
    exact List.Pairwise.nil
  | case3 left lefts right rights ihLeft ihRight =>
    rw [intersect, List.pairwise_append]
    refine ⟨?_, ?_, fun r hr s hs => ?_⟩
    · split
      · exact List.pairwise_singleton _ _
      · exact List.Pairwise.nil
    · split
      · exact ihLeft hl.tail hm
      · exact ihRight hl hm.tail
    · -- what follows lies behind the interval that ended first
      split at hr
      · rw [List.mem_singleton] at hr
        rw [hr]
        dsimp only
        split at hs
        · obtain ⟨_, ⟨a, ha, hin⟩, _⟩ := mem_intersect hs
          have hapart := (List.pairwise_cons.mp hl.apart).1 a ha
          omega
        · obtain ⟨_, _, b, hb, hin⟩ := mem_intersect hs
          have hapart := (List.pairwise_cons.mp hm.apart).1 b hb
          omega
      · cases hr

end Intervals
