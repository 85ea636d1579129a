import ForwardX.Fxp.ReplayCache

/- The window of the handshake replay cache over whole histories. From an empty cache, at any times of the calls, map
   and heap hold the same entries and no more than the maximum of them. A call adds one entry, so it evicts at most
   one: that which expires first of one too many (`trim_over`). -/
namespace ForwardX.Fxp.Replay

universe u
variable {κ : Type u} [DecidableEq κ]

def afterCalls (c : ReplayCache κ) (calls : List (κ × Int)) : ReplayCache κ :=
  calls.foldl (fun c call => (addAt c call.1 call.2).2) c

def Retained (c : ReplayCache κ) (key : κ) (expiresAt : Int) : Prop := lookup c.seen key = some expiresAt

def FullUntil (c : ReplayCache κ) (expiresAt : Int) : Prop :=
  (c.seen.length : Int) = c.max ∧ ∀ e ∈ c.seen, expiresAt ≤ e.expiresAt

/-- A cache of a time to live and a maximum within its bounds. -/
structure Window (ttl max : Int) (c : ReplayCache κ) : Prop where
  ok : CacheOk c
  ttl_eq : c.ttl = ttl
  max_eq : c.max = max
  size : (c.seen.length : Int) ≤ max

variable {max ttl : Int} {c : ReplayCache κ}

theorem Window.retained_iff (h : Window ttl max c) {key : κ} {e : Int} : Retained c key e ↔ ⟨key, e⟩ ∈ c.seen :=
  lookup_eq_some h.ok.nodup

/-! ## Cutting back -/

theorem trim_fits {fuel : Nat} (h : (c.seen.length : Int) ≤ c.max) : trim fuel c = c := by
  cases fuel with
  | zero => rfl
  | succ fuel =>
    unfold trim
    rw [if_neg (by omega)]

theorem trim_over (fuel : Nat) (h : CacheOk c) (hmax : 0 < c.max) (hover : (c.seen.length : Int) = c.max + 1) :
    ∃ x, c.seen.Perm (x :: (trim (fuel + 1) c).seen) ∧ ∀ y ∈ c.seen, x.expiresAt ≤ y.expiresAt := by
  have hne : c.expiry ≠ [] := by
    intro hnil
    have hlen := h.perm.length_eq
    rw [hnil, List.length_nil] at hlen
    omega
  obtain ⟨x, expiry, hevict, hperm, hleast, -⟩ := h.evict hne
  have hfits : ((delete c.seen x.key).length : Int) ≤ c.max := by
    have hlen := hperm.length_eq
    rw [List.length_cons] at hlen
    omega
  refine ⟨x, ?_, hleast⟩
  unfold trim
  rw [if_pos (by omega), hevict]
  dsimp only
  rw [if_pos rfl, trim_fits hfits]
  exact hperm

theorem addNew_window (h : Window ttl max c) (hmax : 0 < max) {key : κ} (now : Int)
    (habsent : ∀ e ∈ c.seen, e.key ≠ key) :
    Window ttl max (addNew c key now) ∧ ∀ e ∈ (⟨key, now + ttl⟩ :: c.seen : List (ReplayExpiry κ)),
      e ∈ (addNew c key now).seen ∨ FullUntil (addNew c key now) e.expiresAt := by
  obtain ⟨hok, httl, hmaximum, -, -⟩ := addNew_spec h.ok now habsent
  have hsize := h.size
  -- the cache with the key, before it is cut back
  obtain ⟨c', heq, hok', -, hmax', hseen⟩ := addNew_eq h.ok now habsent
  have hmaxEq := h.max_eq
  have hlen : c'.seen.length = c.seen.length + 1 := by rw [hseen, List.length_cons]
  rw [hlen] at heq
  rw [h.ttl_eq] at hseen
  rw [← hseen]
  by_cases hfull : (c.seen.length : Int) = max
  · obtain ⟨x, hperm, hleast⟩ := trim_over c.seen.length hok' (by omega) (by omega)
    rw [← heq] at hperm
    have hcount : ((addNew c key now).seen.length : Int) = max := by
      have hcons := hperm.length_eq
      rw [List.length_cons] at hcons
      omega
    refine ⟨⟨hok, httl.trans h.ttl_eq, hmaximum.trans h.max_eq, by omega⟩, ?_⟩
    intro e he
    rcases List.mem_cons.mp (hperm.mem_iff.mp he) with rfl | hleft
    · right
      refine ⟨by rw [hcount, hmaximum, h.max_eq], ?_⟩
      intro y hy
      exact hleast y (hperm.mem_iff.mpr (List.mem_cons_of_mem _ hy))
    · exact Or.inl hleft
  · have hfits : addNew c key now = c' := by rw [heq, trim_fits (by omega)]
    refine ⟨⟨hok, httl.trans h.ttl_eq, hmaximum.trans h.max_eq, by rw [hfits]; omega⟩, ?_⟩
    intro e he
    rw [hfits]
    exact Or.inl he

/-! ## Histories -/

theorem sweep_window (h : Window ttl max c) (now : Int) : Window ttl max (sweep c.expiry.length c now) := by
  obtain ⟨hok, httl, hmaximum, hsub, -⟩ := sweep_spec now h.ok (Nat.le_refl _)
  have hlen := hsub.length_le
  have hsize := h.size
  exact ⟨hok, httl.trans h.ttl_eq, hmaximum.trans h.max_eq, by omega⟩

/-- One call: the cache stays within its bounds, a new key enters, and a retained one stays until it expires; but for
what a full cache evicts. -/
theorem addAt_window (h : Window ttl max c) (hmax : 0 < max) (key : κ) (now : Int) :
    Window ttl max (addAt c key now).2 ∧
      ((addAt c key now).1 = true → Retained (addAt c key now).2 key (now + ttl) ∨
        FullUntil (addAt c key now).2 (now + ttl)) ∧
      ∀ k e, Retained c k e → Retained (addAt c key now).2 k e ∨ e ≤ now ∨
        ((addAt c key now).1 = true ∧ FullUntil (addAt c key now).2 e) := by
  have hswept := sweep_window h now
  obtain ⟨-, -, -, -, hmem⟩ := sweep_spec now h.ok (Nat.le_refl _)
  have hlive : ∀ k e, Retained c k e → e ≤ now ∨ ⟨k, e⟩ ∈ (sweep c.expiry.length c now).seen := by
    intro k e hretained
    by_cases hexpired : e ≤ now
    · exact Or.inl hexpired
    · exact Or.inr ((hmem _).mpr ⟨h.retained_iff.mp hretained, by show now < e; omega⟩)
  cases hr : (addAt c key now).1 with
  | false =>
    rw [addAt_refused hr]
    refine ⟨hswept, fun htrue => Bool.noConfusion htrue, ?_⟩
    intro k e hretained
    rcases hlive k e hretained with hexpired | hstays
    · exact Or.inr (Or.inl hexpired)
    · exact Or.inl (hswept.retained_iff.mpr hstays)
  | true =>
    obtain ⟨heq, habsent⟩ := addAt_accepted h.ok hr
    obtain ⟨hwindow, hkeep⟩ := addNew_window hswept hmax now habsent
    rw [heq]
    refine ⟨hwindow, ?_, ?_⟩
    · intro _
      rcases hkeep _ List.mem_cons_self with hin | hfull
      · exact Or.inl (hwindow.retained_iff.mpr hin)
      · exact Or.inr hfull
    · intro k e hretained
      rcases hlive k e hretained with hexpired | hstays
      · exact Or.inr (Or.inl hexpired)
      · rcases hkeep _ (List.mem_cons_of_mem _ hstays) with hin | hfull
        · exact Or.inl (hwindow.retained_iff.mpr hin)
        · exact Or.inr (Or.inr ⟨rfl, hfull⟩)

theorem afterCalls_window (hmax : 0 < max) (calls : List (κ × Int)) (h : Window ttl max c) :
    Window ttl max (afterCalls c calls) := by
  induction calls generalizing c with
  | nil => exact h
  | cons call calls ih => exact ih (addAt_window h hmax call.1 call.2).1

/-- After every history, map and heap agree within the bound; the next call refuses exactly what is retained and has not
expired; a key that it accepts is retained until `ttl` later; and what was retained until `e` is retained still, unless
it has expired or the call left as many keys as there may be, none of which expires before `e`. -/
theorem replay_cache_exact_window {ttl max : Int} (hmax : 0 < max) (calls : List (κ × Int)) (key : κ) (now : Int) :
    let c := afterCalls (newReplayCache ttl max) calls
    let r := addAt c key now
    CacheOk c ∧ (c.seen.length : Int) ≤ max ∧ (r.1 = false ↔ ∃ e, Retained c key e ∧ now < e) ∧
      (r.1 = true → Retained r.2 key (now + ttl) ∨ ((r.2.seen.length : Int) = max ∧ ∀ y ∈ r.2.seen, now + ttl ≤ y.expiresAt)) ∧
      ∀ k e, Retained c k e → Retained r.2 k e ∨ e ≤ now ∨
        (r.1 = true ∧ (r.2.seen.length : Int) = max ∧ ∀ y ∈ r.2.seen, e ≤ y.expiresAt) := by
  have hnew : Window ttl max (newReplayCache ttl max : ReplayCache κ) :=
    ⟨CacheOk.new ttl max, rfl, rfl, by show (0 : Int) ≤ max; omega⟩
  have h := afterCalls_window hmax calls hnew
  generalize afterCalls (newReplayCache ttl max) calls = c at h
  obtain ⟨hwindow, hadded, hkept⟩ := addAt_window h hmax key now
  refine ⟨h.ok, h.size, ?_, ?_, ?_⟩
  · rw [addAt_eq_false_iff h.ok]
    apply exists_congr
    intro e
    rw [h.retained_iff]
  · intro haccepted
    rcases hadded haccepted with hin | hfull
    · exact Or.inl hin
    · exact Or.inr ⟨hfull.1.trans hwindow.max_eq, hfull.2⟩
  · intro k e hretained
    rcases hkept k e hretained with hin | hexpired | ⟨haccepted, hfull⟩
    · exact Or.inl hin
    · exact Or.inr (Or.inl hexpired)
    · exact Or.inr (Or.inr ⟨haccepted, hfull.1.trans hwindow.max_eq, hfull.2⟩)

/-- A cache of one key evicts it for the next. -/
theorem full_window_evicts : (addAt (afterCalls (newReplayCache 60 1) [("a", 0)]) "b" 5).1 = true ∧
    ¬ Retained (addAt (afterCalls (newReplayCache 60 1) [("a", 0)]) "b" 5).2 "a" 60 ∧
    CacheOk (afterCalls (newReplayCache 60 1) [("a", 0)]) := by
  refine ⟨by decide +kernel, ?_, (replay_cache_exact_window (by decide) [("a", 0)] "b" 5).1⟩
  unfold Retained
  decide +kernel

end ForwardX.Fxp.Replay
