import Mathlib.Algebra.Order.Ring.Nat
import Mathlib.Algebra.Order.Ring.Int
import Mathlib.Algebra.Order.Field.Rat
import Mathlib.Data.Rat.Floor
import ForwardX.Lib.Slots
import ForwardX.Lib.TokenBucket
import ForwardX.Lib.Transition

/- The rate limiter (`main.go`, `limiter`). Callers of `waitDone` share its tokens: each takes
   the lock, adds what the time since the last reading has brought, and takes what it wants or
   goes to sleep. A request above the burst is granted in pieces. Times are nanoseconds and
   tokens are rational numbers. The limiter is a token bucket (`Inv`, `bounded`). -/
namespace ForwardX.Fxp.Limit
open Transition Slots TokenBucket

/-! ## The limiter -/

/-- `limiter`; `last` is none for the zero time. -/
structure Limiter where
  rate : Int
  burst : Int
  tokens : ℚ
  last : Option Int
  deriving DecidableEq

def newLimiter (rate now : Int) : Limiter :=
  if 0 < rate then
    let burst := if rate < 64 * 1024 then 64 * 1024 else rate
    { rate := rate, burst := burst, tokens := burst, last := some now }
  else { rate := rate, burst := 0, tokens := 0, last := none }

/-- The longest `time.Duration`, which `Sub` does not exceed. -/
def maxDuration : Int := 9223372036854775807

/-- `now.Sub(last).Seconds()`. -/
def secondsSince (last now : Int) : ℚ := (min (now - last) maxDuration : Int) / 1000000000

/-- What a caller under the lock does first. -/
def Limiter.refill (l : Limiter) (now : Int) : Limiter :=
  let last := l.last.getD now
  if last < now then
    let tokens := l.tokens + secondsSince last now * l.rate
    { l with tokens := if (l.burst : ℚ) < tokens then l.burst else tokens, last := some now }
  else { l with last := some last }

/-- One turn of the inner loop of `waitDone`: the tokens are taken, or there is a time to wait. -/
def Limiter.poll (l : Limiter) (wanted now : Int) : Limiter × Option Int :=
  let l := l.refill now
  if (wanted : ℚ) ≤ l.tokens then ({ l with tokens := l.tokens - wanted }, none)
  else
    let waitFor := Rat.floor ((wanted - l.tokens) * 1000000000 / l.rate)
    (l, some (if waitFor ≤ 0 then 1 else waitFor))

/-! ## Callers -/

/-- A call of `waitDone`, with the pieces that were granted to it. -/
structure Call where
  n : Int
  remaining : Int
  returned : Option Bool
  pieces : List Int
  deriving DecidableEq

def Call.wanted (c : Call) (burst : Int) : Int := if burst < c.remaining then burst else c.remaining

/-- The limiter, the last reading of the clock, the calls, and what was granted when. -/
structure State where
  limiter : Limiter
  clock : Int
  calls : List Call
  granted : List (Int × Int)
  deriving DecidableEq

inductive Action
  /-- `waitDone` is called. -/
  | call (n : Int)
  /-- A caller takes the lock and reads the clock. -/
  | poll (i : Nat) (now : Int)
  /-- A caller sees `done` closed. -/
  | done (i : Nat)
  /-- A caller to which everything was granted returns. -/
  | finish (i : Nat)
  deriving DecidableEq, Repr

def initial (rate now : Int) : State := ⟨newLimiter rate now, now, [], []⟩

/-- The call at `i` has not returned. -/
def State.running (s : State) (i : Nat) : Option Call := s.calls[i]?.filter (fun c => c.returned.isNone)

def step (s : State) : Action → Option State
  | .call n =>
    some { s with
      calls := s.calls ++ [⟨n, n, if s.limiter.rate ≤ 0 ∨ n ≤ 0 then some true else none, []⟩] }
  | .poll i now =>
    (s.running i).bind fun c =>
      if 0 < c.remaining ∧ s.clock ≤ now then
        let wanted := c.wanted s.limiter.burst
        let (limiter, waitFor) := s.limiter.poll wanted now
        if waitFor.isSome then some { s with limiter := limiter, clock := now }
        else some
          { limiter := limiter
            clock := now
            calls := s.calls.set i { c with remaining := c.remaining - wanted, pieces := c.pieces ++ [wanted] }
            granted := s.granted ++ [(now, wanted)] }
      else none
  | .done i => (s.running i).map fun c => { s with calls := s.calls.set i { c with returned := some false } }
  | .finish i =>
    (s.running i).bind fun c =>
      if c.remaining ≤ 0 then some { s with calls := s.calls.set i { c with returned := some true } } else none

/-- What was granted from `t₀` on and up to `t₁`. -/
def grantedBytes (granted : List (Int × Int)) (t₀ t₁ : Int) : Int :=
  ((granted.filter (fun g => decide (t₀ ≤ g.1) && decide (g.1 ≤ t₁))).map Prod.snd).sum

/-! ## The limiter is a bucket -/

def rationalLog (granted : List (Int × Int)) : List (ℚ × ℚ) := granted.map (fun g => ((g.1 : ℚ), (g.2 : ℚ)))

theorem grantedBytes_taken (granted : List (Int × Int)) (t₀ t₁ : Int) :
    (grantedBytes granted t₀ t₁ : ℚ) = taken (rationalLog granted) t₀ t₁ := by
  unfold grantedBytes taken rationalLog
  induction granted with
  | nil => rfl
  | cons g granted ih =>
    rw [List.map_cons, List.filter_cons, List.filter_cons]
    simp only [Int.cast_le]
    split
    · rw [List.map_cons, List.sum_cons, List.map_cons, List.sum_cons, Int.cast_add, ih]
    · exact ih

theorem secondsSince_le {last now : Int} : secondsSince last now ≤ ((now : ℚ) - last) / 1000000000 := by
  unfold secondsSince
  have hmin : ((min (now - last) maxDuration : Int) : ℚ) ≤ (now : ℚ) - last := by
    rw [← Int.cast_sub]
    exact Int.cast_le.mpr (min_le_left _ _)
  linarith

theorem secondsSince_nonneg {last now : Int} (h : last ≤ now) : 0 ≤ secondsSince last now := by
  unfold secondsSince
  have hmin : (0 : Int) ≤ min (now - last) maxDuration := le_min (by omega) (by decide)
  have hcast : (0 : ℚ) ≤ ((min (now - last) maxDuration : Int) : ℚ) := Int.cast_nonneg hmin
  linarith

/-- The limiter is of the given rate, and its tokens are the level of a bucket that was read at
`last` at the latest. -/
structure BucketAt (rate last : Int) (l : Limiter) (granted : List (Int × Int)) : Prop where
  rate_eq : l.rate = rate
  burst_eq : l.burst = max rate (64 * 1024)
  last_eq : l.last = some last
  bounded : Bounded (l.burst : ℚ) ((rate : ℚ) / 1000000000) l.tokens last (rationalLog granted)

variable {rate last now : Int} {l : Limiter} {granted : List (Int × Int)}

theorem bucketAt_new (hrate : 0 < rate) (now : Int) : BucketAt rate now (newLimiter rate now) [] := by
  have hcast : (0 : ℚ) < rate := Int.cast_pos.mpr hrate
  have hburst : (0 : Int) ≤ if rate < 64 * 1024 then 64 * 1024 else rate := by split <;> omega
  unfold newLimiter
  rw [if_pos hrate]
  refine ⟨rfl, ?_, rfl, ?_⟩
  · dsimp only
    split <;> omega
  · exact Bounded.full (Int.cast_nonneg hburst) (by linarith) _

/-- A caller that reads the clock at `now` finds a bucket read at `now`. -/
theorem BucketAt.refill (h : BucketAt rate last l granted) (hrate : 0 < rate) (hnow : last ≤ now) :
    BucketAt rate now (l.refill now) granted := by
  have hcast : (0 : ℚ) < rate := Int.cast_pos.mpr hrate
  unfold Limiter.refill
  rw [h.last_eq, Option.getD_some]
  dsimp only
  split
  · refine ⟨h.rate_eq, h.burst_eq, rfl, ?_⟩
    have hbrought : 0 ≤ secondsSince last now * (l.rate : ℚ) := by
      rw [h.rate_eq]
      exact mul_nonneg (secondsSince_nonneg hnow) hcast.le
    have hlimit : secondsSince last now * (l.rate : ℚ) ≤ (rate : ℚ) / 1000000000 * ((now : ℚ) - last) := by
      rw [h.rate_eq]
      calc secondsSince last now * (rate : ℚ)
          ≤ ((now : ℚ) - last) / 1000000000 * rate := mul_le_mul_of_nonneg_right secondsSince_le hcast.le
        _ = (rate : ℚ) / 1000000000 * ((now : ℚ) - last) := by ring
    have hbefore := h.bounded.le
    apply h.bounded.refill (by linarith) (Int.cast_le.mpr hnow)
    · dsimp only
      split <;> linarith
    · dsimp only
      split <;> linarith
    · dsimp only
      split <;> linarith
  · rename_i hlt
    obtain rfl : last = now := by omega
    exact ⟨h.rate_eq, h.burst_eq, rfl, h.bounded⟩

/-- What a turn takes is logged at its reading of the clock; a turn that waits takes nothing. -/
theorem BucketAt.poll (h : BucketAt rate last l granted) (hrate : 0 < rate) (hnow : last ≤ now) {wanted : Int}
    (hwanted : 0 ≤ wanted) :
    BucketAt rate now (l.poll wanted now).1
      (if (l.poll wanted now).2.isSome then granted else granted ++ [(now, wanted)]) := by
  have hfull := h.refill hrate hnow
  have hcast : (0 : ℚ) < rate := Int.cast_pos.mpr hrate
  unfold Limiter.poll
  dsimp only
  split
  · rename_i hle
    refine ⟨hfull.rate_eq, hfull.burst_eq, hfull.last_eq, ?_⟩
    have htake := hfull.bounded.take (by linarith) (Int.cast_nonneg hwanted) hle
    simpa [rationalLog] using htake
  · exact hfull

/-! ## Runs -/

/-- The pieces of a call and what remains of it are the request. -/
structure Call.Sound (burst : Int) (c : Call) : Prop where
  sum : c.pieces.sum + c.remaining = c.n
  remaining : 0 < c.n → 0 ≤ c.remaining
  pieces : ∀ piece ∈ c.pieces, 0 < piece ∧ piece ≤ burst
  finished : c.returned = some true → c.remaining ≤ 0

structure Inv (rate : Int) (s : State) : Prop where
  bucket : ∃ last ≤ s.clock, BucketAt rate last s.limiter s.granted
  calls : ∀ c ∈ s.calls, c.Sound (max rate (64 * 1024))

theorem Inv.initial (hrate : 0 < rate) (now : Int) : Inv rate (initial rate now) :=
  ⟨⟨now, le_refl now, bucketAt_new hrate now⟩, fun _ hc => by cases hc⟩

theorem State.running_eq_some {s : State} {i : Nat} {c : Call} (h : s.running i = some c) :
    s.calls[i]? = some c ∧ c.returned = none := by
  unfold State.running at h
  rw [Option.filter_eq_some_iff] at h
  exact ⟨h.1, Option.isNone_iff_eq_none.mp h.2⟩

theorem sound_set {burst : Int} {calls : List Call} (h : ∀ c ∈ calls, c.Sound burst) {i : Nat} {c : Call}
    (hc : c.Sound burst) : ∀ d ∈ calls.set i c, d.Sound burst := by
  intro d hd
  rcases List.mem_or_eq_of_mem_set hd with hd | rfl
  · exact h d hd
  · exact hc

theorem Inv.step (hrate : 0 < rate) {s s' : State} {a : Action} (hstep : step s a = some s') (h : Inv rate s) :
    Inv rate s' := by
  obtain ⟨last, hlast, hbucket⟩ := h.bucket
  cases a with
  | call n =>
    obtain rfl := Option.some.inj hstep
    refine ⟨⟨last, hlast, hbucket⟩, fun c hc => ?_⟩
    rcases List.mem_append.mp hc with hc | hc
    · exact h.calls c hc
    · rw [List.mem_singleton] at hc
      rw [hc]
      refine ⟨by simp, fun hn => Int.le_of_lt hn, by simp, fun hreturned => ?_⟩
      dsimp only at hreturned ⊢
      rw [hbucket.rate_eq] at hreturned
      split at hreturned
      · omega
      · cases hreturned
  | poll i now =>
    obtain ⟨c, hrunning, hstep⟩ := Option.bind_eq_some_iff.mp hstep
    obtain ⟨hget, hreturned⟩ := State.running_eq_some hrunning
    split at hstep
    · rename_i hguard
      have hburst : 0 < s.limiter.burst := by
        rw [hbucket.burst_eq]
        omega
      have hwanted : 0 < c.wanted s.limiter.burst ∧ c.wanted s.limiter.burst ≤ s.limiter.burst ∧
          c.wanted s.limiter.burst ≤ c.remaining := by
        unfold Call.wanted
        split <;> omega
      have hpoll := hbucket.poll hrate (Int.le_trans hlast hguard.2) (Int.le_of_lt hwanted.1)
      dsimp only at hstep
      split at hstep
      · rename_i hwait
        obtain rfl := Option.some.inj hstep
        rw [if_pos hwait] at hpoll
        exact ⟨⟨now, Int.le_refl now, hpoll⟩, h.calls⟩
      · rename_i hwait
        obtain rfl := Option.some.inj hstep
        rw [if_neg hwait] at hpoll
        refine ⟨⟨now, Int.le_refl now, hpoll⟩, sound_set h.calls ?_⟩
        have hsound := h.calls c (List.mem_of_getElem? hget)
        refine ⟨?_, fun _ => ?_, fun piece hpiece => ?_, fun hfinished => ?_⟩
        · have := hsound.sum
          simp only [List.sum_append, List.sum_cons, List.sum_nil]
          omega
        · dsimp only
          omega
        · rcases List.mem_append.mp hpiece with hpiece | hpiece
          · exact hsound.pieces piece hpiece
          · rw [List.mem_singleton] at hpiece
            rw [hpiece, ← hbucket.burst_eq]
            exact ⟨hwanted.1, hwanted.2.1⟩
        · dsimp only at hfinished
          rw [hreturned] at hfinished
          cases hfinished
    · cases hstep
  | done i =>
    obtain ⟨c, hrunning, rfl⟩ := Option.map_eq_some_iff.mp hstep
    have hsound := h.calls c (List.mem_of_getElem? (State.running_eq_some hrunning).1)
    refine ⟨⟨last, hlast, hbucket⟩, sound_set h.calls ⟨hsound.sum, hsound.remaining, hsound.pieces, ?_⟩⟩
    intro hfalse
    cases hfalse
  | finish i =>
    obtain ⟨c, hrunning, hstep⟩ := Option.bind_eq_some_iff.mp hstep
    have hsound := h.calls c (List.mem_of_getElem? (State.running_eq_some hrunning).1)
    split at hstep
    · rename_i hnone
      obtain rfl := Option.some.inj hstep
      exact ⟨⟨last, hlast, hbucket⟩, sound_set h.calls ⟨hsound.sum, hsound.remaining, hsound.pieces, fun _ => hnone⟩⟩
    · cases hstep

/-- Whatever the callers ask for and whenever they read the clock: over every interval no more
is granted than the burst and the rate allow, tokens are never negative, and the pieces of a
call are each within the burst and sum to the request when it returns. -/
theorem token_bucket_bound {rate start : Int} (hrate : 0 < rate) {as : List Action} {s : State}
    (h : Run (Steps.ofFn step) (initial rate start) as s) :
    (∀ t₀ t₁ : Int, t₀ ≤ t₁ → (grantedBytes s.granted t₀ t₁ : ℚ) ≤
      (max rate (64 * 1024) : Int) + rate * (((t₁ - t₀ : Int) : ℚ) / 1000000000)) ∧
    0 ≤ s.limiter.tokens ∧
    ∀ c ∈ s.calls, 0 < c.n → c.pieces.sum + c.remaining = c.n ∧ 0 ≤ c.remaining ∧
      (∀ piece ∈ c.pieces, 0 < piece ∧ piece ≤ max rate (64 * 1024)) ∧
      (c.returned = some true → c.pieces.sum = c.n) := by
  have hinv : Inv rate s := h.preserves (fun _ _ _ hstep hinv => Inv.step hrate hstep hinv) (Inv.initial hrate start)
  obtain ⟨last, _, hbucket⟩ := hinv.bucket
  refine ⟨fun t₀ t₁ ht => ?_, hbucket.bounded.nonneg, fun c hc hn => ?_⟩
  · calc (grantedBytes s.granted t₀ t₁ : ℚ)
        = taken (rationalLog s.granted) t₀ t₁ := grantedBytes_taken _ _ _
      _ ≤ (s.limiter.burst : ℚ) + (rate : ℚ) / 1000000000 * ((t₁ : ℚ) - t₀) :=
          hbucket.bounded.within _ _ (Int.cast_le.mpr ht)
      _ = (max rate (64 * 1024) : Int) + rate * (((t₁ - t₀ : Int) : ℚ) / 1000000000) := by
          rw [hbucket.burst_eq, Int.cast_sub]
          ring
  · have hsound := hinv.calls c hc
    refine ⟨hsound.sum, hsound.remaining hn, hsound.pieces, fun hreturned => ?_⟩
    have hzero := hsound.finished hreturned
    have hnonneg := hsound.remaining hn
    have hsum := hsound.sum
    omega

/-- A request of 100000 bytes at 100 bytes a second: the burst at once, the rest when the time
has brought it. -/
theorem request_granted_in_two_pieces :
    ∃ s, Run (Steps.ofFn step) (initial 100 0)
        [.call 100000, .poll 0 0, .poll 0 5000000000, .poll 0 344640000000, .finish 0] s ∧
      s.calls.map Call.pieces = [[65536, 34464]] ∧
      (grantedBytes s.granted 0 400000000000 : ℚ) ≤
        (max 100 (64 * 1024) : Int) + (100 : Int) * (((400000000000 - 0 : Int) : ℚ) / 1000000000) := by
  have hfound : (exec step (initial 100 0)
      [.call 100000, .poll 0 0, .poll 0 5000000000, .poll 0 344640000000, .finish 0]).any
        (fun s => s.calls.map Call.pieces = [[65536, 34464]]) = true := by decide +kernel
  obtain ⟨s, hs, hpieces⟩ := (Option.any_eq_true _ _).mp hfound
  have hrun := exec_run hs
  exact ⟨s, hrun, of_decide_eq_true hpieces, (token_bucket_bound (by decide) hrun).1 0 400000000000 (by decide)⟩

end ForwardX.Fxp.Limit
