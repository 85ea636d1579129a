import Mathlib.Data.List.Perm.Basic
import Mathlib.Data.List.Nodup
import ForwardX.V3.Pool

/- The slot accounting of the V3 pool. A slot is taken before the dial and returned
   after it failed, or by `releaseWhenClosed`; `SlotsExact` says where each slot ever
   taken is, and that `count` is the number of those that are not returned. A session
   that has ended holds its slot until its `releaseWhenClosed` has the lock
   (`ended_session_holds_slot`). -/
namespace ForwardX.V3.Pool
open Transition Slots

universe u

def Phase.slot : Phase → Option Nat
  | .dialing _ slot => some slot
  | _ => none

section
variable {κ : Type u}

def SessionPool.dials (s : SessionPool κ) : List Nat := s.callers.filterMap (fun c => c.phase.slot)

/-! ## Slots -/

/-- Each slot ever taken is a dial in progress, is held by a session or has been
returned, and `count` is the number of those that are not returned. -/
structure Counted (dials : List Nat) (releasers : List Releaser) (returned : List Nat)
    (taken : Nat) (total : Int) : Prop where
  count : total = dials.length + releasers.length
  limit : total ≤ v3PoolSessionLimit
  once : (dials ++ releasers.map Releaser.slot ++ returned).Perm (List.range taken)

section
variable {dials dials' returned : List Nat} {releasers : List Releaser} {taken slot : Nat}
  {total : Int}

theorem Counted.congr (h : Counted dials releasers returned taken total) (hd : dials'.Perm dials) :
    Counted dials' releasers returned taken total := by
  refine ⟨?_, h.limit, ((hd.append_right _).append_right _).trans h.once⟩
  rw [hd.length_eq]
  exact h.count

theorem Counted.take (h : Counted dials releasers returned taken total)
    (hlt : total < v3PoolSessionLimit) :
    Counted (taken :: dials) releasers returned (taken + 1) (total + 1) := by
  refine ⟨?_, by omega, ?_⟩
  · rw [h.count, List.length_cons]
    omega
  · rw [List.range_succ, List.cons_append, List.cons_append]
    exact (h.once.cons taken).trans (List.perm_append_singleton _ _).symm

theorem Counted.fail (h : Counted (slot :: dials) releasers returned taken total) :
    Counted dials releasers (slot :: returned) taken (total - 1) := by
  have hcount := h.count
  have hlimit := h.limit
  rw [List.length_cons] at hcount
  refine ⟨by omega, by omega, ?_⟩
  exact List.perm_middle.trans h.once

theorem Counted.hold (h : Counted (slot :: dials) releasers returned taken total) (b x : Nat) :
    Counted dials (releasers ++ [⟨b, x, slot⟩]) returned taken total := by
  have hcount := h.count
  rw [List.length_cons] at hcount
  refine ⟨?_, h.limit, ?_⟩
  · rw [List.length_append, List.length_singleton]
    omega
  · refine List.Perm.trans ?_ h.once
    rw [List.map_append, ← List.append_assoc]
    exact (List.perm_append_singleton slot _).append_right _

theorem Counted.release {rest : List Releaser} {r : Releaser}
    (h : Counted dials releasers returned taken total) (hr : releasers.Perm (r :: rest)) :
    0 < total ∧ Counted dials rest (r.slot :: returned) taken (total - 1) := by
  have hcount := h.count
  have hlimit := h.limit
  have hlen := hr.length_eq
  rw [List.length_cons] at hlen
  refine ⟨by omega, by omega, by omega, ?_⟩
  have hslots : (dials ++ releasers.map Releaser.slot).Perm
      (r.slot :: (dials ++ rest.map Releaser.slot)) :=
    ((hr.map Releaser.slot).append_left dials).trans List.perm_middle
  exact (List.perm_middle.trans (hslots.symm.append_right returned)).trans h.once

end

/-! ## Buckets -/

/-- The bucket of a call that is in its loop, and the sessions it keeps or has yet to
look at. -/
def Phase.remaining : Phase → Option (Nat × List Nat)
  | .scan n | .stale _ n => some (n.bucket, n.alive ++ n.todo)
  | .live x n => some (n.bucket, n.alive ++ x :: n.todo)
  | _ => none

/-- What a bucket holds waits for its release, and is in no other bucket. -/
structure Filed (objects : List (Bucket κ)) (releasers : List Releaser) (sessions : Nat) : Prop where
  nodup : ∀ v ∈ objects, v.sessions.Nodup
  pending : ∀ b v, objects[b]? = some v → ∀ x ∈ v.sessions,
    ∃ r ∈ releasers, r.bucket = b ∧ r.session = x
  distinct : (releasers.map Releaser.session).Nodup
  known : ∀ r ∈ releasers, r.session < sessions ∧ r.bucket < objects.length

/-- A call that is in its loop has the lock, and works on what its bucket holds. -/
def Scanning (callers : List (Caller κ)) (lock : Option Nat) (objects : List (Bucket κ)) : Prop :=
  ∀ i c b l, callers[i]? = some c → c.phase.remaining = some (b, l) →
    lock = some i ∧ ∃ v, objects[b]? = some v ∧ l.Sublist v.sessions

section
variable {objects : List (Bucket κ)} {releasers : List Releaser} {sessions b : Nat} {v : Bucket κ}

theorem Filed.shrink (h : Filed objects releasers sessions) {v' : Bucket κ}
    (hv : objects[b]? = some v) (hsub : v'.sessions.Sublist v.sessions) :
    Filed (objects.set b v') releasers sessions := by
  refine ⟨fun w hw => ?_, fun b' w hw x hx => ?_, h.distinct, fun r hr => ?_⟩
  · rcases List.mem_or_eq_of_mem_set hw with hw | rfl
    · exact h.nodup w hw
    · exact hsub.nodup (h.nodup v (List.mem_of_getElem? hv))
  · rcases getElem?_set_cases hw with ⟨rfl, rfl⟩ | ⟨-, hw⟩
    · exact h.pending b' v hv x (hsub.subset hx)
    · exact h.pending b' w hw x hx
  · rw [List.length_set]
    exact h.known r hr

theorem Filed.concat (h : Filed objects releasers sessions) (hv : v.sessions = []) :
    Filed (objects ++ [v]) releasers sessions := by
  refine ⟨fun w hw => ?_, fun b w hw x hx => ?_, h.distinct, fun r hr => ?_⟩
  · rcases List.mem_append.mp hw with hw | hw
    · exact h.nodup w hw
    · rw [List.mem_singleton.mp hw, hv]
      exact List.nodup_nil
  · rcases getElem?_concat_cases hw with ⟨-, rfl⟩ | ⟨-, hw⟩
    · rw [hv] at hx
      cases hx
    · exact h.pending b w hw x hx
  · rw [List.length_append]
    exact ⟨(h.known r hr).1, Nat.lt_add_right _ (h.known r hr).2⟩

theorem Filed.add (h : Filed objects releasers sessions) (hv : objects[b]? = some v) (slot : Nat)
    {v' : Bucket κ} (hv' : v'.sessions = v.sessions ++ [sessions]) :
    Filed (objects.set b v') (releasers ++ [⟨b, sessions, slot⟩]) (sessions + 1) := by
  have hfresh : ∀ r ∈ releasers, r.session ≠ sessions := fun r hr heq =>
    Nat.lt_irrefl _ (heq ▸ (h.known r hr).1)
  refine ⟨fun w hw => ?_, fun b' w hw x hx => ?_, ?_, fun r hr => ?_⟩
  · rcases List.mem_or_eq_of_mem_set hw with hw | rfl
    · exact h.nodup w hw
    · rw [hv']
      refine List.Nodup.append (h.nodup v (List.mem_of_getElem? hv)) (List.nodup_singleton _) ?_
      intro x hx hx'
      obtain ⟨r, hr, -, hsession⟩ := h.pending b v hv x hx
      exact hfresh r hr (hsession.trans (List.mem_singleton.mp hx'))
  · rcases getElem?_set_cases hw with ⟨rfl, rfl⟩ | ⟨-, hw⟩
    · rw [hv'] at hx
      rcases List.mem_append.mp hx with hx | hx
      · obtain ⟨r, hr, hrb⟩ := h.pending b' v hv x hx
        exact ⟨r, List.mem_append_left _ hr, hrb⟩
      · exact ⟨_, List.mem_append_right _ List.mem_cons_self, rfl, (List.mem_singleton.mp hx).symm⟩
    · obtain ⟨r, hr, hrb⟩ := h.pending b' w hw x hx
      exact ⟨r, List.mem_append_left _ hr, hrb⟩
  · rw [List.map_append]
    refine List.Nodup.append h.distinct (List.nodup_singleton _) ?_
    intro x hx hx'
    obtain ⟨r, hr, rfl⟩ := List.mem_map.mp hx
    exact hfresh r hr (List.mem_singleton.mp hx')
  · rw [List.length_set]
    rcases List.mem_append.mp hr with hr | hr
    · exact ⟨Nat.lt_succ_of_lt (h.known r hr).1, (h.known r hr).2⟩
    · rw [List.mem_singleton.mp hr]
      exact ⟨Nat.lt_succ_self _, (List.getElem?_eq_some_iff.mp hv).1⟩

/-- A session is released: it leaves its bucket, the only one that may hold it. -/
theorem Filed.release (h : Filed objects releasers sessions) {j : Nat} {r : Releaser}
    {v' : Bucket κ} (hr : releasers[j]? = some r) (hv : objects[r.bucket]? = some v)
    (hv' : v'.sessions = v.sessions.erase r.session) :
    Filed (objects.set r.bucket v') (releasers.eraseIdx j) sessions := by
  obtain ⟨rest, hperm, herase, -⟩ := exists_rest hr
  have hdistinct := (hperm.map Releaser.session).nodup_iff.mp h.distinct
  rw [List.map_cons, List.nodup_cons] at hdistinct
  -- whoever else waits for its release still does
  have hstill : ∀ q ∈ releasers, q.session ≠ r.session → q ∈ releasers.eraseIdx j := by
    intro q hq hne
    rcases List.mem_cons.mp (hperm.mem_iff.mp hq) with rfl | hq
    · exact absurd rfl hne
    · exact herase.mem_iff.mpr hq
  have hsub : v'.sessions.Sublist v.sessions := hv' ▸ List.erase_sublist
  have hshrink := h.shrink hv hsub
  refine ⟨hshrink.nodup, fun b w hw x hx => ?_, ?_, fun q hq => ?_⟩
  · obtain ⟨q, hq, hbucket, rfl⟩ := hshrink.pending b w hw x hx
    refine ⟨q, hstill q hq (fun heq => ?_), hbucket, rfl⟩
    -- the released session would still be in its bucket
    have hqr : q = r := by
      rcases List.mem_cons.mp (hperm.mem_iff.mp hq) with hqr | hq
      · exact hqr
      · exact absurd (List.mem_map.mpr ⟨q, hq, heq⟩) hdistinct.1
    subst hqr
    rcases getElem?_set_cases hw with ⟨-, rfl⟩ | ⟨hb, -⟩
    · rw [hv'] at hx
      exact List.Nodup.not_mem_erase (h.nodup v (List.mem_of_getElem? hv)) hx
    · exact hb hbucket.symm
  · exact (herase.map Releaser.session).nodup_iff.mpr hdistinct.2
  · exact hshrink.known q (List.mem_of_mem_eraseIdx hq)

variable {callers : List (Caller κ)} {lock : Option Nat} {i : Nat} {c c' : Caller κ}

theorem Scanning.not_other (h : Scanning callers lock objects) (hc : callers[i]? = some c)
    (hlock : lock ≠ some i) : c.phase.remaining = none := by
  cases hl : c.phase.remaining with
  | none => rfl
  | some r => exact absurd (h i c r.1 r.2 hc hl).1 hlock

theorem Scanning.keep (h : Scanning callers lock objects) (hc' : c'.phase.remaining = none) :
    Scanning (callers.set i c') lock objects := by
  intro j d b l hd hl
  rcases getElem?_set_cases hd with ⟨-, rfl⟩ | ⟨-, hd⟩
  · rw [hc'] at hl
    cases hl
  · exact h j d b l hd hl

/-- The call that has the lock, or takes it, moves on, whatever it does to the buckets. -/
theorem Scanning.owner (h : Scanning callers lock objects) (hlock : lock = none ∨ lock = some i)
    {lock' : Option Nat} {objects' : List (Bucket κ)}
    (hc' : ∀ b l, c'.phase.remaining = some (b, l) →
      lock' = some i ∧ ∃ v, objects'[b]? = some v ∧ l.Sublist v.sessions) :
    Scanning (callers.set i c') lock' objects' := by
  intro j d b l hd hl
  rcases getElem?_set_cases hd with ⟨rfl, rfl⟩ | ⟨hj, hd⟩
  · exact hc' b l hl
  · have hother : lock ≠ some j := by
      rcases hlock with hlock | hlock <;> rw [hlock]
      · exact fun h => nomatch h
      · exact fun h => hj (Option.some.inj h).symm
    rw [h.not_other hd hother] at hl
    cases hl

theorem Scanning.unlocked (h : Scanning callers none objects) (objects' : List (Bucket κ)) :
    Scanning callers none objects' := by
  intro j d b l hd hl
  rw [h.not_other hd (fun h => nomatch h)] at hl
  cases hl

end

/-! ## The pool -/

structure Inv (s : SessionPool κ) : Prop where
  counted : Counted s.dials s.releasers s.returned s.taken s.count
  filed : Filed s.bucketObjects s.releasers s.sessions.length
  scanning : Scanning s.callers s.lock s.bucketObjects

theorem Inv.init : Inv (SessionPool.init κ) where
  counted := ⟨rfl, show (0 : Int) ≤ 64 by decide, List.Perm.refl _⟩
  filed := ⟨fun _ h => (nomatch h), fun _ _ h => (nomatch h), List.nodup_nil, fun _ h => (nomatch h)⟩
  scanning _ _ _ _ h := nomatch h

variable {s : SessionPool κ} {i : Nat} {c c' : Caller κ}

theorem dials_set (hc : s.callers[i]? = some c) (hslot : c'.phase.slot = c.phase.slot) :
    (s.putCaller i c').dials.Perm s.dials := by
  obtain ⟨rest, hperm, hset⟩ := exists_rest_filterMap (fun c : Caller κ => c.phase.slot) hc
  refine (hset c').trans ?_
  rw [hslot]
  exact hperm.symm

theorem Inv.walk (h : Inv s) (hc : s.callers[i]? = some c) (hslot : c'.phase.slot = c.phase.slot)
    (hout : c'.phase.remaining = none) : Inv (s.putCaller i c') :=
  ⟨h.counted.congr (dials_set hc hslot), h.filed, h.scanning.keep hout⟩

theorem Inv.loop (h : Inv s) (hc : s.callers[i]? = some c) (hslot : c'.phase.slot = c.phase.slot)
    {b : Nat} {l l' : List Nat} (hl : c.phase.remaining = some (b, l))
    (hl' : c'.phase.remaining = some (b, l')) (hsub : l'.Sublist l) : Inv (s.putCaller i c') := by
  obtain ⟨hlock, v, hv, hheld⟩ := h.scanning i c b l hc hl
  refine ⟨h.counted.congr (dials_set hc hslot), h.filed, h.scanning.owner (.inr hlock) ?_⟩
  intro b' l₁ hl₁
  obtain ⟨rfl, rfl⟩ := Prod.mk.inj (Option.some.inj (hl'.symm.trans hl₁))
  exact ⟨hlock, v, hv, hsub.trans hheld⟩

theorem Inv.putSession (h : Inv s) (x : Nat) (y : Session) : Inv (s.putSession x y) := by
  refine ⟨h.counted, ?_, h.scanning⟩
  show Filed s.bucketObjects s.releasers (s.sessions.set x y).length
  rw [List.length_set]
  exact h.filed

variable [DecidableEq κ]

theorem Inv.deleteKey (h : Inv s) (key : κ) : Inv (s.deleteKey key) :=
  ⟨h.counted, h.filed, h.scanning⟩

theorem Inv.begin (h : Inv s) (hc : s.callers[i]? = some c) (hphase : c.phase = .start)
    (hlock : s.lock = none) {s' : SessionPool κ} (hstep : begin s i c = some s') : Inv s' := by
  have hslot : ∀ p : Phase, p.slot = none →
      (s.putCaller i { c with phase := p }).dials.Perm s.dials := fun p hp =>
    dials_set hc (by rw [hphase]; exact hp)
  unfold Pool.begin at hstep
  split at hstep
  · obtain rfl := Option.some.inj hstep
    exact h.walk hc (by rw [hphase]; rfl) rfl
  split at hstep
  · rename_i b hb
    obtain ⟨v, hv, rfl⟩ := Option.map_eq_some_iff.mp hstep
    refine ⟨h.counted.congr (hslot _ rfl), h.filed, h.scanning.owner (.inl hlock) ?_⟩
    intro b' l hl
    obtain ⟨rfl, rfl⟩ := Prod.mk.inj (Option.some.inj hl)
    exact ⟨rfl, v, hv, List.Sublist.refl _⟩
  · obtain rfl := Option.some.inj hstep
    refine ⟨h.counted.congr (hslot _ rfl), h.filed.concat rfl, h.scanning.owner (.inl hlock) ?_⟩
    intro b' l hl
    obtain ⟨rfl, rfl⟩ := Prod.mk.inj (Option.some.inj hl)
    exact ⟨rfl, _, List.getElem?_concat_length, List.Sublist.refl _⟩

/-- The call leaves its loop and the lock: the bucket holds what it has kept, and a
slot is taken if it dials. -/
theorem Inv.finish (h : Inv s) (hc : s.callers[i]? = some c) {n : Scan} (hphase : c.phase = .scan n)
    (htodo : n.todo = []) {v : Bucket κ} (hv : s.bucketObjects[n.bucket]? = some v) :
    Inv (finish s i c n v) := by
  obtain ⟨hlock, w, hw, hsub⟩ := h.scanning i c n.bucket (n.alive ++ n.todo) hc (by rw [hphase]; rfl)
  obtain rfl : w = v := Option.some.inj (hw ▸ hv)
  rw [htodo, List.append_nil] at hsub
  have hslot : c.phase.slot = none := by rw [hphase]; rfl
  -- whatever the call does next, it is out of its loop
  have hout : ∀ (p : Phase) (w' : Bucket κ), p.remaining = none → w'.sessions = n.alive →
      Filed (s.bucketObjects.set n.bucket w') s.releasers s.sessions.length ∧
      Scanning (s.callers.set i { c with phase := p }) none (s.bucketObjects.set n.bucket w') := by
    intro p w' hp hw'
    refine ⟨h.filed.shrink hv (hw' ▸ hsub), h.scanning.owner (.inr hlock) fun b l hl => ?_⟩
    rw [hp] at hl
    cases hl
  have hleft : ∀ p : Phase, p.slot = none → p.remaining = none →
      Inv ({ s.putBucket n.bucket { w with sessions := n.alive } with lock := none }.move i c p) := by
    intro p hp hp'
    obtain ⟨hfiled, hscanning⟩ := hout p { w with sessions := n.alive } hp' rfl
    exact ⟨h.counted.congr (dials_set hc (hp.trans hslot.symm)), hfiled, hscanning⟩
  unfold Pool.finish
  dsimp only
  split
  · rename_i x _
    exact hleft (.opening x) rfl rfl
  split
  · exact hleft (.waiting n.bucket w.changed) rfl rfl
  split
  · split
    · exact (hleft (.returned false) rfl rfl).deleteKey c.key
    · exact hleft (.returned false) rfl rfl
  · rename_i hroom
    have hdials : (s.putCaller i { c with phase := .dialing n.bucket s.taken }).dials.Perm
        (s.taken :: s.dials) := by
      obtain ⟨rest, hperm, hset⟩ := exists_rest_filterMap (fun c : Caller κ => c.phase.slot) hc
      rw [hslot] at hperm
      exact (hset _).trans (hperm.symm.cons s.taken)
    obtain ⟨hfiled, hscanning⟩ := hout (.dialing n.bucket s.taken)
      { w with sessions := n.alive, dialing := true } rfl rfl
    refine ⟨(h.counted.take (Int.not_le.mp hroom)).congr hdials, ?_, ?_⟩
    · dsimp only [SessionPool.move, SessionPool.putCaller, SessionPool.putBucket]
      rw [List.set_set]
      exact hfiled
    · dsimp only [SessionPool.move, SessionPool.putCaller, SessionPool.putBucket]
      rw [List.set_set]
      exact hscanning

theorem Inv.dialed (h : Inv s) (hc : s.callers[i]? = some c) {b slot : Nat}
    (hphase : c.phase = .dialing b slot) (hlock : s.lock = none) {v : Bucket κ}
    (hv : s.bucketObjects[b]? = some v) (ok : Bool) : Inv (dialed s i c b slot v ok) := by
  obtain ⟨rest, hperm, hset⟩ := exists_rest_filterMap (fun c : Caller κ => c.phase.slot) hc
  have hslot : c.phase.slot = some slot := by rw [hphase]; rfl
  rw [hslot] at hperm
  have hcounted := h.counted.congr hperm.symm
  have hdials : ∀ p : Phase, p.slot = none → (s.putCaller i { c with phase := p }).dials.Perm rest := by
    intro p hp
    have hperm' := hset { c with phase := p }
    rw [hp] at hperm'
    exact hperm'
  have hscanning := h.scanning
  rw [hlock] at hscanning
  unfold Pool.dialed
  dsimp only
  split
  · refine ⟨(hcounted.hold b s.sessions.length).congr (hdials _ rfl), ?_, ?_⟩
    · dsimp only [SessionPool.move, SessionPool.putCaller, SessionPool.putBucket]
      rw [List.length_append, List.length_singleton]
      exact h.filed.add hv slot rfl
    · dsimp only [SessionPool.move, SessionPool.putCaller, SessionPool.putBucket]
      rw [hlock]
      exact (hscanning.unlocked _).keep rfl
  · have hreturned : ∀ v' : Bucket κ, v'.sessions = v.sessions →
        Inv ({ s.putBucket b v' with count := s.count - 1, returned := slot :: s.returned }.move i c
          (.returned false)) := by
      intro v' hv'
      refine ⟨hcounted.fail.congr (hdials _ rfl), h.filed.shrink hv (hv' ▸ List.Sublist.refl _), ?_⟩
      dsimp only [SessionPool.move, SessionPool.putCaller, SessionPool.putBucket]
      rw [hlock]
      exact (hscanning.unlocked _).keep rfl
    have hdone := hreturned
      { v with dialing := false, lastErr := !(ok && !s.closed), changed := v.changed + 1 } rfl
    split
    · exact hdone.deleteKey c.key
    · exact hdone

theorem Inv.release (h : Inv s) {j : Nat} {r : Releaser} (hr : s.releasers[j]? = some r)
    (hlock : s.lock = none) {v : Bucket κ} (hv : s.bucketObjects[r.bucket]? = some v) :
    Inv (release s j r v) := by
  obtain ⟨rest, hperm, herase, -⟩ := exists_rest hr
  obtain ⟨hpos, hcounted⟩ := h.counted.release (hperm.trans (herase.symm.cons r))
  have hscanning := h.scanning
  rw [hlock] at hscanning
  have hreleased : ∀ v' : Bucket κ, v'.sessions = v.sessions.erase r.session →
      Inv { s.putBucket r.bucket v' with
        count := s.count - 1, releasers := s.releasers.eraseIdx j,
        returned := r.slot :: s.returned } := by
    intro v' hv'
    refine ⟨hcounted, h.filed.release hr hv hv', ?_⟩
    show Scanning s.callers s.lock _
    rw [hlock]
    exact hscanning.unlocked _
  have hdone := hreleased { v with sessions := v.sessions.erase r.session } rfl
  unfold Pool.release
  dsimp only
  rw [if_pos hpos]
  split
  · exact hdone.deleteKey v.key
  · exact hdone

theorem Inv.step (h : Inv s) {a : Act κ} {s' : SessionPool κ} (hstep : step s a = some s') :
    Inv s' := by
  cases a with
  | call key =>
    obtain rfl := Option.some.inj hstep
    have hdials : ({ s with callers := s.callers ++ [⟨key, 0, .start⟩] } : SessionPool κ).dials =
        s.dials := by
      unfold SessionPool.dials
      rw [List.filterMap_append]
      exact List.append_nil _
    refine ⟨?_, h.filed, fun j d b l hd hl => ?_⟩
    · rw [hdials]
      exact h.counted
    · rcases getElem?_concat_cases hd with ⟨-, rfl⟩ | ⟨-, hd⟩
      · cases hl
      · exact h.scanning j d b l hd hl
  | begin i =>
    obtain ⟨c, hc, hstep⟩ := Option.bind_eq_some_iff.mp hstep
    split at hstep
    · rename_i hphase
      split at hstep
      · rename_i hlock
        exact h.begin hc hphase hlock hstep
      · cases hstep
    · cases hstep
  | check i =>
    obtain ⟨c, hc, hstep⟩ := Option.bind_eq_some_iff.mp hstep
    split at hstep
    · rename_i n hphase
      unfold Pool.check at hstep
      split at hstep
      · cases hstep
      · rename_i x todo htodo
        obtain ⟨y, -, rfl⟩ := Option.map_eq_some_iff.mp hstep
        have hl : c.phase.remaining = some (n.bucket, n.alive ++ x :: todo) := by
          rw [hphase, ← htodo]
          rfl
        have hdrop : (n.alive ++ todo).Sublist (n.alive ++ x :: todo) :=
          (List.sublist_cons_self x todo).append_left n.alive
        have hslot : c.phase.slot = none := by rw [hphase]; rfl
        dsimp only
        split
        · exact h.loop hc hslot.symm hl rfl hdrop
        · split
          · exact h.loop hc hslot.symm hl rfl (List.Sublist.refl _)
          · exact h.loop hc hslot.symm hl rfl hdrop
    · cases hstep
  | closeStale i =>
    obtain ⟨c, hc, hstep⟩ := Option.bind_eq_some_iff.mp hstep
    split at hstep
    · rename_i x n hphase
      obtain ⟨y, -, rfl⟩ := Option.map_eq_some_iff.mp hstep
      exact (h.putSession x y.close).loop hc (by rw [hphase]; rfl) (by rw [hphase]; rfl) rfl
        (List.Sublist.refl _)
    · cases hstep
  | slots i =>
    obtain ⟨c, hc, hstep⟩ := Option.bind_eq_some_iff.mp hstep
    split at hstep
    · rename_i x n hphase
      obtain ⟨y, -, rfl⟩ := Option.map_eq_some_iff.mp hstep
      have hl : c.phase.remaining = some (n.bucket, n.alive ++ x :: n.todo) := by
        rw [hphase]
        rfl
      have hkept : (n.alive ++ [x] ++ n.todo).Sublist (n.alive ++ x :: n.todo) := by
        rw [List.append_assoc]
        exact List.Sublist.refl _
      have hslot : c.phase.slot = none := by rw [hphase]; rfl
      unfold Pool.slots
      dsimp only
      split
      · exact h.loop hc hslot.symm hl rfl hkept
      · exact h.loop hc hslot.symm hl rfl hkept
    · cases hstep
  | finish i =>
    obtain ⟨c, hc, hstep⟩ := Option.bind_eq_some_iff.mp hstep
    split at hstep
    · rename_i n hphase
      split at hstep
      · rename_i htodo
        obtain ⟨v, hv, rfl⟩ := Option.map_eq_some_iff.mp hstep
        exact h.finish hc hphase htodo hv
      · cases hstep
    · cases hstep
  | openBegin i =>
    obtain ⟨c, hc, hstep⟩ := Option.bind_eq_some_iff.mp hstep
    split at hstep
    · rename_i x hphase
      obtain ⟨y, -, rfl⟩ := Option.map_eq_some_iff.mp hstep
      have hput := h.putSession x y.openStream.2
      unfold Pool.openBegin
      dsimp only
      split
      · exact hput.walk hc (by rw [hphase]; rfl) rfl
      · exact hput.walk hc (by rw [hphase]; rfl) rfl
      · exact hput.walk hc (by rw [hphase]; rfl) rfl
    · cases hstep
  | opened i =>
    obtain ⟨c, hc, hstep⟩ := Option.bind_eq_some_iff.mp hstep
    split at hstep
    · rename_i x id hphase
      obtain rfl := Option.some.inj hstep
      exact h.walk hc (by rw [hphase]; rfl) rfl
    · cases hstep
  | openFailed i =>
    obtain ⟨c, hc, hstep⟩ := Option.bind_eq_some_iff.mp hstep
    split at hstep
    · rename_i x id hphase
      obtain ⟨y, -, hstep⟩ := Option.bind_eq_some_iff.mp hstep
      split at hstep
      · obtain rfl := Option.some.inj hstep
        exact (h.putSession x _).walk hc (by rw [hphase]; rfl) rfl
      · cases hstep
    · cases hstep
  | closeSelected i =>
    obtain ⟨c, hc, hstep⟩ := Option.bind_eq_some_iff.mp hstep
    split at hstep
    · rename_i x hphase
      obtain ⟨y, -, rfl⟩ := Option.map_eq_some_iff.mp hstep
      split
      · exact (h.putSession x _).walk hc (by rw [hphase]; rfl) rfl
      · exact (h.putSession x _).walk hc (by rw [hphase]; rfl) rfl
    · cases hstep
  | wake i =>
    obtain ⟨c, hc, hstep⟩ := Option.bind_eq_some_iff.mp hstep
    split at hstep
    · rename_i b changed hphase
      obtain ⟨v, -, hstep⟩ := Option.bind_eq_some_iff.mp hstep
      split at hstep
      · obtain rfl := Option.some.inj hstep
        have hslot : c.phase.slot = none := by rw [hphase]; rfl
        split
        · exact h.walk hc hslot.symm rfl
        · exact h.walk hc hslot.symm rfl
      · cases hstep
    · cases hstep
  | dialed i ok =>
    obtain ⟨c, hc, hstep⟩ := Option.bind_eq_some_iff.mp hstep
    split at hstep
    · rename_i b slot hphase
      split at hstep
      · rename_i hlock
        obtain ⟨v, hv, rfl⟩ := Option.map_eq_some_iff.mp hstep
        exact h.dialed hc hphase hlock hv ok
      · cases hstep
    · cases hstep
  | release j =>
    obtain ⟨r, hr, hstep⟩ := Option.bind_eq_some_iff.mp hstep
    obtain ⟨y, -, hstep⟩ := Option.bind_eq_some_iff.mp hstep
    split at hstep
    · rename_i hready
      obtain ⟨v, hv, rfl⟩ := Option.map_eq_some_iff.mp hstep
      exact h.release hr hready.1 hv
    · cases hstep
  | close =>
    simp only [Pool.step] at hstep
    split at hstep
    · obtain rfl := Option.some.inj hstep
      exact ⟨h.counted, h.filed, h.scanning⟩
    · cases hstep
  | closeNext =>
    simp only [Pool.step] at hstep
    split at hstep
    · cases hstep
    · rename_i x closing _
      obtain ⟨y, -, rfl⟩ := Option.map_eq_some_iff.mp hstep
      have hput := h.putSession x y.close
      exact ⟨hput.counted, hput.filed, hput.scanning⟩
  | tick d =>
    obtain rfl := Option.some.inj hstep
    exact ⟨h.counted, h.filed, h.scanning⟩
  | exit x =>
    obtain ⟨y, -, hstep⟩ := Option.bind_eq_some_iff.mp hstep
    split at hstep
    · obtain rfl := Option.some.inj hstep
      exact h.putSession x _
    · cases hstep
  | write x | drain x | streamEnds x id | peerCloses x id | writeFails x | fail x =>
    obtain ⟨y, -, rfl⟩ := Option.map_eq_some_iff.mp hstep
    exact h.putSession x _

/-! ## What holds of every run -/

/-- Slots are accounted for: `count` is the number of dials in progress and of sessions
that wait for their release, at most the limit, and above zero as long as there is
one of these, so the guard of `releaseWhenClosed` hides nothing; of the slots ever
taken each is one of these or has been returned, once; when no dial and no release
is left the count is zero and no bucket holds a session; and once a session has
ended, its release is not held up by anything but the lock. -/
structure SlotsExact (s : SessionPool κ) : Prop where
  count : s.count = s.dials.length + s.releasers.length
  limit : s.count ≤ v3PoolSessionLimit
  positive : s.dials ≠ [] ∨ s.releasers ≠ [] → 0 < s.count
  once : (s.dials ++ s.releasers.map Releaser.slot ++ s.returned).Perm (List.range s.taken)
  empty : s.dials = [] → s.releasers = [] → s.count = 0 ∧ ∀ v ∈ s.bucketObjects, v.sessions = []
  released : s.lock = none → ∀ j r y, s.releasers[j]? = some r → s.sessions[r.session]? = some y →
    y.err = true → y.ended = true → (step s (.release j)).isSome = true

theorem Inv.slotsExact (h : Inv s) : SlotsExact s := by
  have hcount := h.counted.count
  refine ⟨hcount, h.counted.limit, fun hne => ?_, h.counted.once, fun hdials hreleasers => ⟨?_, ?_⟩,
    fun hlock j r y hr hy herr hended => ?_⟩
  · rcases hne with hne | hne
    · have := List.length_pos_iff.mpr hne
      omega
    · have := List.length_pos_iff.mpr hne
      omega
  · rw [hcount, hdials, hreleasers]
    rfl
  · intro v hv
    obtain ⟨b, hb⟩ := List.mem_iff_getElem?.mp hv
    refine List.eq_nil_iff_forall_not_mem.mpr fun x hx => ?_
    obtain ⟨r, hr, -⟩ := h.filed.pending b v hb x hx
    rw [hreleasers] at hr
    cases hr
  · have hbucket := (h.filed.known r (List.mem_of_getElem? hr)).2
    simp only [Pool.step, hr, hy, Option.bind_some]
    rw [if_pos ⟨hlock, herr, hended⟩, List.getElem?_eq_getElem hbucket]
    rfl

end

/-- In every run of the pool, in every state, the slots are accounted for. -/
theorem slots_exact (κ : Type u) [DecidableEq κ] (as : List (Act κ)) (s : SessionPool κ)
    (hrun : Run (pool κ) (SessionPool.init κ) as s) : SlotsExact s := by
  have hinv : Inv s := hrun.preserves (fun s a s' hs h => h.step hs) Inv.init
  exact hinv.slotsExact

def dialAndDie : List (Act Nat) :=
  [.call 7, .begin 0, .finish 0, .dialed 0 true, .fail 0, .exit 0]

/-- One session, dialed and ended, is released: the pool is empty again. -/
theorem slots_exact_released :
    ∃ s : SessionPool Nat, (s.count = 0 ∧ s.taken = 1 ∧ s.returned = [0]) ∧ SlotsExact s := by
  have hexec : ∃ s, exec step (SessionPool.init Nat) (dialAndDie ++ [.release 0]) = some s ∧
      s.count = 0 ∧ s.taken = 1 ∧ s.returned = [0] := ⟨_, rfl, rfl, rfl, rfl⟩
  obtain ⟨s, hexec, hs⟩ := hexec
  exact ⟨s, hs, slots_exact Nat _ s (exec_run hexec)⟩

def SessionPool.AllEnded {κ : Type u} (s : SessionPool κ) : Prop :=
  ∀ y ∈ s.sessions, y.err = true ∧ y.ended = true

/-- Every session has ended and no dial runs, and a slot is still taken: the session's
`releaseWhenClosed` has not had the lock. -/
theorem ended_session_holds_slot :
    ¬ ∀ (as : List (Act Nat)) (s : SessionPool Nat), Run (pool Nat) (SessionPool.init Nat) as s →
      s.AllEnded → s.dials = [] → s.count = 0 := by
  intro h
  have hexec : ∃ s, exec step (SessionPool.init Nat) dialAndDie = some s ∧
      s.sessions = [⟨true, true, 0, false, 1, [], [], false⟩] ∧ s.dials = [] ∧ s.count = 1 :=
    ⟨_, rfl, rfl, rfl, rfl⟩
  obtain ⟨s, hexec, hsessions, hdials, hcount⟩ := hexec
  have hended : s.AllEnded := by
    intro y hy
    rw [hsessions] at hy
    rw [List.mem_singleton.mp hy]
    exact ⟨rfl, rfl⟩
  have hzero := h _ s (exec_run hexec) hended hdials
  rw [hcount] at hzero
  cases hzero

end ForwardX.V3.Pool
