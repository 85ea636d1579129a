import Mathlib.Data.List.Perm.Subperm
import ForwardX.Lib.Heap

/- The handshake replay cache (`main.go`, `replayCache`): a map from keys to the time
   their entry expires and a binary heap of the same entries, swept on every call
   and cut back to a maximum by dropping the entries that expire first.

   The map and the heap hold the same entries (`CacheOk`). An entry leaves by
   expiring, or when more than the maximum of entries expire no earlier
   (`addAt_spec`). -/
namespace ForwardX.Fxp.Replay

universe u

structure ReplayExpiry (κ : Type u) where
  key : κ
  expiresAt : Int
  deriving DecidableEq, Repr

/-- `replayCache`; the map is its list of entries. -/
structure ReplayCache (κ : Type u) where
  ttl : Int
  max : Int
  seen : List (ReplayExpiry κ)
  expiry : List (ReplayExpiry κ)

def newReplayCache {κ : Type u} (ttl max : Int) : ReplayCache κ := ⟨ttl, max, [], []⟩

section
variable {κ : Type u} [DecidableEq κ]

def lookup (seen : List (ReplayExpiry κ)) (key : κ) : Option Int :=
  (seen.find? (fun e => e.key = key)).map ReplayExpiry.expiresAt

def delete (seen : List (ReplayExpiry κ)) (key : κ) : List (ReplayExpiry κ) :=
  seen.filter (fun e => e.key ≠ key)

def insert (seen : List (ReplayExpiry κ)) (key : κ) (expiresAt : Int) : List (ReplayExpiry κ) :=
  ⟨key, expiresAt⟩ :: delete seen key

/-- The map after an entry was popped from the heap: it goes if it is still current. -/
def forget (seen : List (ReplayExpiry κ)) (entry : ReplayExpiry κ) : List (ReplayExpiry κ) :=
  if lookup seen entry.key = some entry.expiresAt then delete seen entry.key else seen

/-- `sweepLocked`, with at most `fuel` entries to pop. -/
def sweep : Nat → ReplayCache κ → Int → ReplayCache κ
  | 0, c, _ => c
  | fuel + 1, c, now =>
    match c.expiry[0]? with
    | none => c
    | some first =>
      if first.expiresAt > now then c
      else
        match Heap.pop ReplayExpiry.expiresAt c.expiry with
        | none => c
        | some (entry, expiry) => sweep fuel { c with seen := forget c.seen entry, expiry } now

/-- `evictOldestLocked`, with at most `fuel` entries to pop. -/
def evictOldest : Nat → ReplayCache κ → Bool × ReplayCache κ
  | 0, c => (false, c)
  | fuel + 1, c =>
    match Heap.pop ReplayExpiry.expiresAt c.expiry with
    | none => (false, c)
    | some (entry, expiry) =>
      if lookup c.seen entry.key = some entry.expiresAt then
        (true, { c with seen := delete c.seen entry.key, expiry })
      else evictOldest fuel { c with expiry }

/-- The loop at the end of `addAt`, with at most `fuel` rounds. -/
def trim : Nat → ReplayCache κ → ReplayCache κ
  | 0, c => c
  | fuel + 1, c =>
    if (c.seen.length : Int) > c.max then
      let r := evictOldest c.expiry.length c
      if r.1 then trim fuel r.2 else r.2
    else c

/-- The rest of `addAt` for a key that is not retained. -/
def addNew (c : ReplayCache κ) (key : κ) (now : Int) : ReplayCache κ :=
  let expiresAt := now + c.ttl
  let c := { c with seen := insert c.seen key expiresAt,
                    expiry := Heap.push ReplayExpiry.expiresAt c.expiry ⟨key, expiresAt⟩ }
  trim c.seen.length c

def addAt (c : ReplayCache κ) (key : κ) (now : Int) : Bool × ReplayCache κ :=
  let c := sweep c.expiry.length c now
  match lookup c.seen key with
  | some expiresAt => if expiresAt > now then (false, c) else (true, addNew c key now)
  | none => (true, addNew c key now)

end

/-! ## Map and heap agree -/

/-- The heap is one, and holds the entries of the map; the map has one entry a key. -/
structure CacheOk {κ : Type u} (c : ReplayCache κ) : Prop where
  ordered : Heap.Ordered ReplayExpiry.expiresAt c.expiry c.expiry.length
  perm : c.expiry.Perm c.seen
  nodup : (c.seen.map ReplayExpiry.key).Nodup

theorem CacheOk.new {κ : Type u} (ttl max : Int) : CacheOk (newReplayCache ttl max : ReplayCache κ) where
  ordered k _ hk := by simp [newReplayCache] at hk
  perm := List.Perm.refl _
  nodup := List.nodup_nil

section
variable {κ : Type u} [DecidableEq κ] {seen : List (ReplayExpiry κ)}

theorem lookup_eq_some (h : (seen.map ReplayExpiry.key).Nodup) {key : κ} {expiresAt : Int} :
    lookup seen key = some expiresAt ↔ ⟨key, expiresAt⟩ ∈ seen := by
  induction seen with
  | nil => simp [lookup]
  | cons e seen ih =>
    rw [List.map_cons, List.nodup_cons] at h
    unfold lookup at ih ⊢
    by_cases he : e.key = key
    · simp only [List.find?_cons, he, decide_true, Option.map_some, Option.some.injEq,
        List.mem_cons]
      constructor
      · intro hexp
        left
        rw [← he, ← hexp]
      · intro hmem
        rcases hmem with hmem | hmem
        · rw [← hmem]
        · exact absurd (List.mem_map.mpr ⟨_, hmem, he.symm⟩) h.1
    · simp only [List.find?_cons, he, decide_false, List.mem_cons]
      rw [ih h.2]
      constructor
      · intro hmem
        exact .inr hmem
      · intro hmem
        rcases hmem with hmem | hmem
        · rw [← hmem] at he
          exact absurd rfl he
        · exact hmem

theorem mem_delete {key : κ} {e : ReplayExpiry κ} : e ∈ delete seen key ↔ e ∈ seen ∧ e.key ≠ key := by
  simp [delete]

theorem delete_perm {seen rest : List (ReplayExpiry κ)} {x : ReplayExpiry κ}
    (hnodup : (seen.map ReplayExpiry.key).Nodup) (hperm : seen.Perm (x :: rest)) :
    (delete seen x.key).Perm rest := by
  have hkeys : ((x :: rest).map ReplayExpiry.key).Nodup :=
    (hperm.map ReplayExpiry.key).nodup_iff.mp hnodup
  rw [List.map_cons, List.nodup_cons] at hkeys
  have hrest : rest.filter (fun e => e.key ≠ x.key) = rest := by
    rw [List.filter_eq_self]
    intro e he
    simp only [ne_eq, decide_eq_true_eq]
    exact fun hk => hkeys.1 (List.mem_map.mpr ⟨e, he, hk⟩)
  have hfilter := hperm.filter (fun e => decide (e.key ≠ x.key))
  rw [List.filter_cons_of_neg (by simp), hrest] at hfilter
  exact hfilter

variable {c : ReplayCache κ} {key : κ}

theorem CacheOk.pop (h : CacheOk c) (hne : c.expiry ≠ []) :
    ∃ x expiry, Heap.pop ReplayExpiry.expiresAt c.expiry = some (x, expiry) ∧
      lookup c.seen x.key = some x.expiresAt ∧ c.seen.Perm (x :: delete c.seen x.key) ∧
      (∀ y ∈ c.seen, x.expiresAt ≤ y.expiresAt) ∧ expiry.length + 1 = c.expiry.length ∧
      CacheOk { c with seen := delete c.seen x.key, expiry } := by
  obtain ⟨x, expiry, hpop, hperm, hleast, hordered⟩ :=
    Heap.pop_spec ReplayExpiry.expiresAt h.ordered hne
  have hseen : c.seen.Perm (x :: expiry) := h.perm.symm.trans hperm
  have hdelete := delete_perm h.nodup hseen
  refine ⟨x, expiry, hpop, ?_, ?_, ?_, hperm.length_eq.symm, hordered, hdelete.symm, ?_⟩
  · exact (lookup_eq_some h.nodup).mpr (hseen.mem_iff.mpr List.mem_cons_self)
  · exact hseen.trans (hdelete.symm.cons x)
  · exact fun y hy => hleast y (h.perm.mem_iff.mpr hy)
  · exact h.nodup.sublist (List.filter_sublist.map ReplayExpiry.key)

/-! ## Sweeping -/

theorem sweep_spec {fuel : Nat} (now : Int) (h : CacheOk c) (hfuel : c.expiry.length ≤ fuel) :
    CacheOk (sweep fuel c now) ∧ (sweep fuel c now).ttl = c.ttl ∧ (sweep fuel c now).max = c.max ∧
      (sweep fuel c now).seen.Subperm c.seen ∧
      ∀ e, e ∈ (sweep fuel c now).seen ↔ e ∈ c.seen ∧ now < e.expiresAt := by
  induction fuel generalizing c with
  | zero =>
    have hnil : c.expiry = [] := List.eq_nil_of_length_eq_zero (by omega)
    have hseen : c.seen = [] := (hnil ▸ h.perm).nil_eq.symm
    refine ⟨h, rfl, rfl, List.Subperm.refl _, ?_⟩
    intro e
    show e ∈ c.seen ↔ _
    rw [hseen]
    simp
  | succ fuel ih =>
    unfold sweep
    cases hfirst : c.expiry[0]? with
    | none =>
      have hnil : c.expiry = [] := by
        cases hexp : c.expiry with
        | nil => rfl
        | cons x xs => simp [hexp] at hfirst
      have hseen : c.seen = [] := (hnil ▸ h.perm).nil_eq.symm
      refine ⟨h, rfl, rfl, List.Subperm.refl _, ?_⟩
      intro e
      show e ∈ c.seen ↔ _
      rw [hseen]
      simp
    | some first =>
      have hne : c.expiry ≠ [] := by
        intro hnil
        simp [hnil] at hfirst
      dsimp only
      have hroot : ∀ e ∈ c.seen, first.expiresAt ≤ e.expiresAt := by
        intro e he
        obtain ⟨k, hk, rfl⟩ := List.mem_iff_getElem.mp (h.perm.mem_iff.mpr he)
        obtain ⟨h0, rfl⟩ := List.getElem?_eq_some_iff.mp hfirst
        have hle := Heap.root_le ReplayExpiry.expiresAt h.ordered k hk
        rw [Heap.keyAt_getElem _ h0, Heap.keyAt_getElem _ hk] at hle
        exact WithTop.coe_le_coe.mp hle
      by_cases hlive : first.expiresAt > now
      · rw [if_pos hlive]
        refine ⟨h, rfl, rfl, List.Subperm.refl _, fun e => ⟨fun he => ⟨he, ?_⟩, fun he => he.1⟩⟩
        have := hroot e he
        omega
      · rw [if_neg hlive]
        obtain ⟨x, expiry, hpop, hlookup, hperm, hleast, hlen, hok⟩ := h.pop hne
        rw [hpop]
        dsimp only
        have hforget : forget c.seen x = delete c.seen x.key := by
          unfold forget
          rw [if_pos hlookup]
        rw [hforget]
        obtain ⟨hok', httl, hmax, hsub, hmem⟩ := ih hok (show expiry.length ≤ fuel by omega)
        refine ⟨hok', httl, hmax, hsub.trans (List.filter_sublist.subperm), fun e => ?_⟩
        rw [hmem]
        constructor
        · intro he
          exact ⟨(mem_delete.mp he.1).1, he.2⟩
        · intro he
          refine ⟨mem_delete.mpr ⟨he.1, fun hk => ?_⟩, he.2⟩
          -- the popped entry is the only one with its key, and it has expired
          have hx : e = x := by
            rcases List.mem_cons.mp (hperm.mem_iff.mp he.1) with heq | hd
            · exact heq
            · exact absurd hk (mem_delete.mp hd).2
          have hfirst_mem : first ∈ c.seen :=
            h.perm.mem_iff.mp (List.mem_of_getElem? hfirst)
          have := hleast first hfirst_mem
          rw [hx] at he
          omega

/-! ## Cutting back -/

theorem CacheOk.evict (h : CacheOk c) (hne : c.expiry ≠ []) :
    ∃ x expiry, evictOldest c.expiry.length c = (true, { c with seen := delete c.seen x.key, expiry }) ∧
      c.seen.Perm (x :: delete c.seen x.key) ∧ (∀ y ∈ c.seen, x.expiresAt ≤ y.expiresAt) ∧
      CacheOk { c with seen := delete c.seen x.key, expiry } := by
  obtain ⟨x, expiry, hpop, hlookup, hperm, hleast, hlen, hok⟩ := h.pop hne
  refine ⟨x, expiry, ?_, hperm, hleast, hok⟩
  rw [← hlen]
  unfold evictOldest
  rw [hpop]
  dsimp only
  rw [if_pos hlookup]

/-- The loop that cuts the cache back keeps an entry unless more than the maximum of
entries expire no earlier. -/
theorem trim_spec {fuel : Nat} (h : CacheOk c) :
    CacheOk (trim fuel c) ∧ (trim fuel c).ttl = c.ttl ∧ (trim fuel c).max = c.max ∧
      (trim fuel c).seen.Subperm c.seen ∧
      ∀ e ∈ c.seen, e ∈ (trim fuel c).seen ∨
        c.max < c.seen.countP (fun y => decide (e.expiresAt ≤ y.expiresAt)) := by
  induction fuel generalizing c with
  | zero => exact ⟨h, rfl, rfl, List.Subperm.refl _, fun e he => .inl he⟩
  | succ fuel ih =>
    unfold trim
    split
    · rename_i hover
      by_cases hne : c.expiry = []
      · -- an empty heap: there is nothing to evict
        have hevict : evictOldest c.expiry.length c = (false, c) := by
          rw [hne]
          rfl
        rw [hevict]
        exact ⟨h, rfl, rfl, List.Subperm.refl _, fun e he => .inl he⟩
      · obtain ⟨x, expiry, hevict, hperm, hleast, hok⟩ := h.evict hne
        rw [hevict]
        dsimp only
        rw [if_pos rfl]
        obtain ⟨hok', httl, hmax, hsub, hkeep⟩ := ih hok
        have hdel : (delete c.seen x.key).Subperm c.seen := List.filter_sublist.subperm
        refine ⟨hok', httl, hmax, hsub.trans hdel, fun e he => ?_⟩
        rcases List.mem_cons.mp (hperm.mem_iff.mp he) with rfl | hd
        · -- the evicted entry expires first, so all of the cache expires no earlier
          right
          rw [List.countP_eq_length.mpr (fun y hy => decide_eq_true (hleast y hy))]
          exact hover
        · rcases hkeep e hd with hkeep | hcount
          · exact .inl hkeep
          · have hle := hdel.countP_le (p := fun y => decide (e.expiresAt ≤ y.expiresAt))
            exact .inr (Int.lt_of_lt_of_le hcount (Int.ofNat_le.mpr hle))
    · exact ⟨h, rfl, rfl, List.Subperm.refl _, fun e he => .inl he⟩

/-! ## One call -/

theorem delete_of_absent (h : ∀ e ∈ seen, e.key ≠ key) : delete seen key = seen :=
  List.filter_eq_self.mpr (fun e he => decide_eq_true (h e he))

theorem addNew_eq (h : CacheOk c) (now : Int) (habsent : ∀ e ∈ c.seen, e.key ≠ key) :
    ∃ c' : ReplayCache κ, addNew c key now = trim c'.seen.length c' ∧ CacheOk c' ∧ c'.ttl = c.ttl ∧ c'.max = c.max ∧
      c'.seen = ⟨key, now + c.ttl⟩ :: c.seen := by
  have hinsert : insert c.seen key (now + c.ttl) = ⟨key, now + c.ttl⟩ :: c.seen := by
    unfold insert
    rw [delete_of_absent habsent]
  refine ⟨{ c with seen := ⟨key, now + c.ttl⟩ :: c.seen,
                   expiry := Heap.push ReplayExpiry.expiresAt c.expiry ⟨key, now + c.ttl⟩ }, ?_, ⟨?_, ?_, ?_⟩, rfl, rfl, rfl⟩
  · unfold addNew
    dsimp only
    rw [hinsert]
  · exact Heap.push_ordered ReplayExpiry.expiresAt _ h.ordered
  · exact (Heap.push_perm ReplayExpiry.expiresAt c.expiry _).trans (h.perm.cons _)
  · rw [List.map_cons, List.nodup_cons]
    refine ⟨fun hmem => ?_, h.nodup⟩
    obtain ⟨e, he, hk⟩ := List.mem_map.mp hmem
    exact habsent e he hk

theorem addNew_spec (h : CacheOk c) (now : Int) (habsent : ∀ e ∈ c.seen, e.key ≠ key) :
    CacheOk (addNew c key now) ∧ (addNew c key now).ttl = c.ttl ∧
      (addNew c key now).max = c.max ∧
      (addNew c key now).seen.Subperm (⟨key, now + c.ttl⟩ :: c.seen) ∧
      ∀ e ∈ (⟨key, now + c.ttl⟩ :: c.seen : List (ReplayExpiry κ)), e ∈ (addNew c key now).seen ∨
        c.max < (⟨key, now + c.ttl⟩ :: c.seen : List (ReplayExpiry κ)).countP
          (fun y => decide (e.expiresAt ≤ y.expiresAt)) := by
  obtain ⟨c', heq, hok, httl, hmax, hseen⟩ := addNew_eq h now habsent
  rw [heq, ← hseen, ← httl, ← hmax]
  exact trim_spec hok

theorem addAt_eq_false_iff (h : CacheOk c) (key : κ) (now : Int) :
    (addAt c key now).1 = false ↔ ∃ e, ⟨key, e⟩ ∈ c.seen ∧ now < e := by
  obtain ⟨hok, -, -, -, hmem⟩ := sweep_spec now h (Nat.le_refl _)
  have hlookup : ∀ e, lookup (sweep c.expiry.length c now).seen key = some e ↔
      ⟨key, e⟩ ∈ c.seen ∧ now < e := by
    intro e
    rw [lookup_eq_some hok.nodup, hmem]
  unfold addAt
  dsimp only
  split
  · rename_i e he
    have := (hlookup e).mp he
    rw [if_pos this.2]
    exact ⟨fun _ => ⟨e, this⟩, fun _ => rfl⟩
  · rename_i hnone
    constructor
    · intro hf
      cases hf
    · intro hex
      obtain ⟨e, he⟩ := hex
      rw [(hlookup e).mpr he] at hnone
      cases hnone

theorem addAt_refused {now : Int} (hfalse : (addAt c key now).1 = false) :
    (addAt c key now).2 = sweep c.expiry.length c now := by
  unfold addAt at hfalse ⊢
  dsimp only at hfalse ⊢
  split at hfalse
  · split at hfalse
    · rename_i hlive
      rw [if_pos hlive]
    · cases hfalse
  · cases hfalse

theorem addAt_accepted (h : CacheOk c) {now : Int} (htrue : (addAt c key now).1 = true) :
    (addAt c key now).2 = addNew (sweep c.expiry.length c now) key now ∧
      ∀ e ∈ (sweep c.expiry.length c now).seen, e.key ≠ key := by
  obtain ⟨hok, -, -, -, hmem⟩ := sweep_spec now h (Nat.le_refl _)
  have hnot : ¬ ∃ e, ⟨key, e⟩ ∈ c.seen ∧ now < e := by
    rw [← addAt_eq_false_iff h key now, htrue]
    decide
  refine ⟨?_, ?_⟩
  · unfold addAt at htrue ⊢
    dsimp only at htrue ⊢
    split at htrue
    · split at htrue
      · cases htrue
      · rename_i hdead
        rw [if_neg hdead]
    · rfl
  · intro e he hk
    subst hk
    exact hnot ⟨e.expiresAt, (hmem e).mp he⟩

/-- A call keeps map and heap in agreement, adds at most the key, and drops an entry
that has not expired only when more than the maximum of entries expire no earlier. -/
theorem addAt_spec (h : CacheOk c) (key : κ) (now : Int) :
    CacheOk (addAt c key now).2 ∧ (addAt c key now).2.ttl = c.ttl ∧
      (addAt c key now).2.max = c.max ∧
      (addAt c key now).2.seen.Subperm
        (if (addAt c key now).1 then ⟨key, now + c.ttl⟩ :: c.seen else c.seen) ∧
      ∀ e ∈ (if (addAt c key now).1 then ⟨key, now + c.ttl⟩ :: c.seen else c.seen),
        now < e.expiresAt → e ∈ (addAt c key now).2.seen ∨
          c.max < (if (addAt c key now).1 then ⟨key, now + c.ttl⟩ :: c.seen else c.seen).countP
            (fun y => decide (e.expiresAt ≤ y.expiresAt)) := by
  obtain ⟨hok, httl, hmax, hsub, hmem⟩ := sweep_spec now h (Nat.le_refl _)
  cases hr : (addAt c key now).1 with
  | false =>
    rw [addAt_refused hr, if_neg (by decide)]
    exact ⟨hok, httl, hmax, hsub, fun e he hnow => .inl ((hmem e).mpr ⟨he, hnow⟩)⟩
  | true =>
    obtain ⟨heq, habsent⟩ := addAt_accepted h hr
    obtain ⟨hok', httl', hmax', hsub', hkeep⟩ := addNew_spec hok now habsent
    rw [httl] at hsub' hkeep
    rw [hmax] at hkeep
    have hcons : (⟨key, now + c.ttl⟩ :: (sweep c.expiry.length c now).seen).Subperm
        (⟨key, now + c.ttl⟩ :: c.seen) := (List.subperm_cons _).mpr hsub
    rw [heq, if_pos rfl]
    refine ⟨hok', httl'.trans httl, hmax'.trans hmax, hsub'.trans hcons, fun e he hnow => ?_⟩
    have he' : e ∈ (⟨key, now + c.ttl⟩ :: (sweep c.expiry.length c now).seen :
        List (ReplayExpiry κ)) := by
      rcases List.mem_cons.mp he with rfl | he
      · exact List.mem_cons_self
      · exact List.mem_cons_of_mem _ ((hmem e).mpr ⟨he, hnow⟩)
    rcases hkeep e he' with hkeep | hcount
    · exact .inl hkeep
    · have hle := hcons.countP_le (p := fun y => decide (e.expiresAt ≤ y.expiresAt))
      exact .inr (Int.lt_of_lt_of_le hcount (Int.ofNat_le.mpr hle))

end

end ForwardX.Fxp.Replay
