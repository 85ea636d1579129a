import Mathlib.Algebra.Order.Group.Defs
import Mathlib.Tactic.Linarith
import ForwardX.Lib.Assoc

/- Accepting a key once while an entry for it lives. The cache keeps, for each accepted
   key, the time its entry expires; entries that have expired are swept from time to
   time. What is guaranteed is that a key is accepted again only `ttl` after it was
   accepted (`Remembers.late`), whatever the sweeps do. -/
namespace OnceCache

universe u v

/-- The entries with the times they expire, and the time of the next sweep. -/
structure Cache (κ : Type u) (K : Type v) where
  entries : List (κ × K)
  cleanupAt : K

section
variable {κ : Type u} {K : Type v}

def empty [Zero K] : Cache κ K := ⟨[], 0⟩

def Keyed (c : Cache κ K) : Prop := (Assoc.keys c.entries).Nodup

def FromLog [DecidableEq κ] [Add K] (ttl : K) (log : List (κ × K)) (c : Cache κ K) : Prop :=
  ∀ k e, c.entries.lookup k = some e → ∃ n, (k, n) ∈ log ∧ e = n + ttl

/-- The cache with an entry for `k` that lives for `ttl`. -/
def remember [DecidableEq κ] [Add K] (ttl : K) (c : Cache κ K) (k : κ) (now : K) : Cache κ K :=
  { c with entries := Assoc.put c.entries k (now + ttl) }

theorem keyed_remember [DecidableEq κ] [Add K] {c : Cache κ K} (h : Keyed c) (ttl : K) (k : κ) (now : K) :
    Keyed (remember ttl c k now) :=
  Assoc.nodup_put h k (now + ttl)

theorem FromLog.empty [DecidableEq κ] [Add K] [Zero K] (ttl : K) :
    FromLog ttl ([] : List (κ × K)) OnceCache.empty := by
  intro k e hl
  cases hl

theorem FromLog.remember [DecidableEq κ] [Add K] {ttl : K} {log : List (κ × K)} {c : Cache κ K}
    (h : FromLog ttl log c) (k : κ) (now : K) :
    FromLog ttl (log ++ [(k, now)]) (remember ttl c k now) := by
  intro k' e he
  by_cases hk : k' = k
  · subst hk
    have hput : (OnceCache.remember ttl c k' now).entries.lookup k' = some (now + ttl) :=
      Assoc.lookup_put_self c.entries k' (now + ttl)
    exact ⟨now, by simp, Option.some.inj (he.symm.trans hput)⟩
  · have hput : (OnceCache.remember ttl c k now).entries.lookup k' = c.entries.lookup k' :=
      Assoc.lookup_put_ne c.entries hk (now + ttl)
    obtain ⟨n, hmem, hn⟩ := h k' e (hput ▸ he)
    exact ⟨n, List.mem_append_left _ hmem, hn⟩

end

section
variable {κ : Type u} {K : Type v} [AddCommGroup K] [LinearOrder K]

def sweep (interval : K) (c : Cache κ K) (now : K) : Cache κ K :=
  if now < c.cleanupAt then c
  else ⟨c.entries.filter (fun e => !decide (e.2 ≤ now)), now + interval⟩

theorem keyed_sweep {c : Cache κ K} (h : Keyed c) (interval now : K) : Keyed (sweep interval c now) := by
  unfold sweep
  split
  · exact h
  · exact List.Nodup.sublist (List.filter_sublist.map Prod.fst) h

end

section
variable {κ : Type u} {K : Type v} [DecidableEq κ] [AddCommGroup K] [LinearOrder K]

/-- When the entry of a key expires; `0` for a key without one. -/
def expiry (c : Cache κ K) (k : κ) : K := (c.entries.lookup k).getD 0

/-- Every acceptance in the log has an entry that lives `ttl` at least, or lies `ttl` back. -/
def Remembers (ttl : K) (log : List (κ × K)) (now : K) (c : Cache κ K) : Prop :=
  ∀ k n, (k, n) ∈ log → n + ttl ≤ now ∨ ∃ e, c.entries.lookup k = some e ∧ n + ttl ≤ e

/-- What a sweep leaves at a key: its entry, unless a sweep was due and it has expired. -/
theorem lookup_sweep {c : Cache κ K} (h : Keyed c) (interval now : K) (k : κ) :
    (sweep interval c now).entries.lookup k = c.entries.lookup k ∨
      (sweep interval c now).entries.lookup k = none ∧ ∀ e, c.entries.lookup k = some e → e ≤ now := by
  unfold sweep
  split
  · exact Or.inl (by simp)
  · simp only [Assoc.lookup_filter h]
    cases hl : c.entries.lookup k with
    | none => exact Or.inl (by simp)
    | some e =>
      by_cases he : e ≤ now
      · exact Or.inr (by simpa [Option.filter] using he)
      · exact Or.inl (by simp [Option.filter, he])

/-- Erasing a key before the sweep makes no difference once it is remembered. -/
theorem remember_sweep_erase (ttl interval : K) (c : Cache κ K) (k : κ) (now : K) :
    remember ttl (sweep interval { c with entries := Assoc.erase c.entries k } now) k now =
      remember ttl (sweep interval c now) k now := by
  unfold sweep
  split
  · simp [remember, Assoc.put, Assoc.erase, List.filter_filter]
  · have htwice : ∀ e : κ × K, (e.1 != k && (!decide (e.2 ≤ now) && e.1 != k)) = (e.1 != k && !decide (e.2 ≤ now)) := by
      intro e
      cases e.1 != k <;> simp
    simp only [remember, Assoc.put, Assoc.erase, List.filter_filter, htwice]

theorem Remembers.empty (ttl now : K) : Remembers ttl ([] : List (κ × K)) now OnceCache.empty := by
  intro k n hmem
  cases hmem

variable {ttl : K} {log : List (κ × K)} {c : Cache κ K}

theorem Remembers.later {now now' : K} (h : Remembers ttl log now c) (hle : now ≤ now') : Remembers ttl log now' c :=
  fun k n hmem => (h k n hmem).imp_left fun hn => hn.trans hle

theorem Remembers.sweep {now : K} (h : Remembers ttl log now c) (hk : Keyed c) (interval : K) :
    Remembers ttl log now (sweep interval c now) := by
  intro k n hmem
  rcases h k n hmem with hold | ⟨e, he, hn⟩
  · exact Or.inl hold
  · rcases lookup_sweep hk interval now k with hsame | ⟨_, hexpired⟩
    · exact Or.inr ⟨e, hsame.trans he, hn⟩
    · exact Or.inl (hn.trans (hexpired e he))

theorem FromLog.sweep (h : FromLog ttl log c) (hk : Keyed c) (interval now : K) :
    FromLog ttl log (sweep interval c now) := by
  intro k e he
  rcases lookup_sweep hk interval now k with hsame | ⟨hnone, _⟩
  · exact h k e (hsame ▸ he)
  · rw [hnone] at he
    cases he

theorem Remembers.late {now : K} (h : Remembers ttl log now c) {k : κ} (hfree : expiry c k ≤ now) {n : K}
    (hmem : (k, n) ∈ log) : n + ttl ≤ now := by
  rcases h k n hmem with hold | ⟨e, he, hn⟩
  · exact hold
  · have hexp : expiry c k = e := by simp [expiry, he]
    exact hn.trans (hexp ▸ hfree)

theorem FromLog.recent {now : K} (h : FromLog ttl log c) (hnow : 0 ≤ now) {k : κ} (hlive : now < expiry c k) :
    ∃ n, (k, n) ∈ log ∧ now < n + ttl := by
  cases hl : c.entries.lookup k with
  | none =>
    have hzero : expiry c k = 0 := by simp [expiry, hl]
    exact absurd (hzero ▸ hlive) (not_lt.mpr hnow)
  | some e =>
    have hexp : expiry c k = e := by simp [expiry, hl]
    obtain ⟨n, hmem, rfl⟩ := h k e hl
    exact ⟨n, hmem, hexp ▸ hlive⟩

/-- An acceptance replaces the entry of its key by one that lives longer. -/
theorem Remembers.remember [IsOrderedAddMonoid K] {now : K} (h : Remembers ttl log now c)
    (hlog : ∀ k n, (k, n) ∈ log → n ≤ now) (k : κ) : Remembers ttl (log ++ [(k, now)]) now (remember ttl c k now) := by
  intro k' n hmem
  have hput : (OnceCache.remember ttl c k now).entries.lookup k = some (now + ttl) :=
    Assoc.lookup_put_self c.entries k (now + ttl)
  rcases List.mem_append.mp hmem with hold | hnew
  · by_cases hk : k' = k
    · subst hk
      have hle : n + ttl ≤ now + ttl := by simpa using hlog k' n hold
      exact Or.inr ⟨now + ttl, hput, hle⟩
    · have hkeep : (OnceCache.remember ttl c k now).entries.lookup k' = c.entries.lookup k' :=
        Assoc.lookup_put_ne c.entries hk (now + ttl)
      rw [hkeep]
      exact h k' n hold
  · obtain ⟨rfl, rfl⟩ := Prod.mk.inj (List.mem_singleton.mp hnew)
    exact Or.inr ⟨n + ttl, hput, le_refl _⟩

end

end OnceCache
