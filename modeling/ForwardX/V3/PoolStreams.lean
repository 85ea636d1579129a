import ForwardX.V3.Pool

/- What a call of `openAt` does to the sessions others use. It closes a session in two
   places: when its last write is too old or it is draining, and when `Open` on it has
   failed. Neither looks at the streams the session still carries, so opening a stream
   ends those of an idle session (`openAt_kills_streams`); `openAt_spares` says when it
   does not. -/
namespace ForwardX.V3.Pool
open Transition Slots

universe u

def Phase.looksAt : Phase → Option Nat
  | .scan n => n.todo.head?
  | _ => none

/-- The session `Open` is called on. -/
def Phase.opens : Phase → Option Nat
  | .opening x => some x
  | _ => none

def Phase.sends : Phase → Option (Nat × Nat)
  | .sending x id => some (x, id)
  | _ => none

def Phase.closes : Phase → Option Nat
  | .stale x _ => some x
  | .failed x => some x
  | _ => none

/-- The steps of `openAt`. -/
def Act.ofOpenAt {κ : Type u} : Act κ → Bool
  | .begin _ | .check _ | .closeStale _ | .slots _ | .finish _ | .openBegin _ | .opened _
  | .openFailed _ | .closeSelected _ | .wake _ | .dialed _ _ => true
  | _ => false

def Session.InUse (y : Session) : Prop := y.err = false ∧ y.streams ≠ []

instance (y : Session) : Decidable y.InUse := inferInstanceAs (Decidable (_ ∧ _))

section
variable {κ : Type u}

def Spares (s s' : SessionPool κ) : Prop :=
  ∀ (x : Nat) (y : Session), s.sessions[x]? = some y → y.InUse →
    ∃ y' : Session, s'.sessions[x]? = some y' ∧ y'.err = false

/-- A session that a call is about to close has failed or carries no stream. -/
def Doomed (s : SessionPool κ) : Prop :=
  ∀ c ∈ s.callers, ∀ x, c.phase.closes = some x → ∀ y, s.sessions[x]? = some y →
    y.err = true ∨ y.streams = []

/-- The steps that spare the sessions in use: a session in use that the loop looks at
is alive; one that `Open` is called on is not draining and has stream IDs left; `Open`
on it is not refused once its stream is registered; and no stream is registered on a
session that another call has found stale, or failed to open, and is about to close. -/
def Gentle (s : SessionPool κ) : Act κ → Prop
  | .check i => ∀ c ∈ s.callers[i]?, ∀ x ∈ c.phase.looksAt, ∀ y ∈ s.sessions[x]?,
      y.InUse → y.alive s.clock v3SessionStaleAge = true
  | .openBegin i => ∀ c ∈ s.callers[i]?, ∀ x ∈ c.phase.opens, ∀ y ∈ s.sessions[x]?,
      (y.InUse → y.draining = false ∧ (y.nextID ≠ 0 ∨ y.streams.length ≥ maxStreams)) ∧
      (y.openStream.1 ≠ .failed → ∀ c' ∈ s.callers, c'.phase.closes ≠ some x)
  | .openFailed i => ∀ c ∈ s.callers[i]?, ∀ x ∈ c.phase.sends, ∀ y ∈ s.sessions[x.1]?,
      y.err = true ∨ y.streams.erase x.2 = []
  | _ => True

instance (s : SessionPool κ) : (a : Act κ) → Decidable (Gentle s a)
  | .check i => inferInstanceAs (Decidable (∀ c ∈ s.callers[i]?, ∀ x ∈ c.phase.looksAt,
      ∀ y ∈ s.sessions[x]?, y.InUse → y.alive s.clock v3SessionStaleAge = true))
  | .openBegin i => inferInstanceAs (Decidable (∀ c ∈ s.callers[i]?, ∀ x ∈ c.phase.opens,
      ∀ y ∈ s.sessions[x]?,
        (y.InUse → y.draining = false ∧ (y.nextID ≠ 0 ∨ y.streams.length ≥ maxStreams)) ∧
        (y.openStream.1 ≠ .failed → ∀ c' ∈ s.callers, c'.phase.closes ≠ some x)))
  | .openFailed i => inferInstanceAs (Decidable (∀ c ∈ s.callers[i]?, ∀ x ∈ c.phase.sends,
      ∀ y ∈ s.sessions[x.1]?, y.err = true ∨ y.streams.erase x.2 = []))
  | .call _ | .begin _ | .closeStale _ | .slots _ | .finish _ | .opened _ | .closeSelected _
  | .wake _ | .dialed _ _ | .release _ | .close | .closeNext | .tick _ | .write _ | .drain _
  | .streamEnds _ _ | .peerCloses _ _ | .writeFails _ | .fail _ | .exit _ => isTrue trivial

variable {s s' : SessionPool κ}

theorem Doomed.putCaller (h : Doomed s) (i : Nat) {c' : Caller κ}
    (hc' : ∀ x, c'.phase.closes = some x → ∀ y, s.sessions[x]? = some y →
      y.err = true ∨ y.streams = []) : Doomed (s.putCaller i c') := by
  intro c hc
  rcases List.mem_or_eq_of_mem_set hc with hc | rfl
  · exact h c hc
  · exact hc'

theorem Doomed.putSession (h : Doomed s) {x : Nat} {y y' : Session} (hy : s.sessions[x]? = some y)
    (herr : y.err = true → y'.err = true) (hstreams : y.streams = [] → y'.streams = []) :
    Doomed (s.putSession x y') := by
  intro c hc z hz w hw
  rcases getElem?_set_cases hw with ⟨rfl, rfl⟩ | ⟨-, hw⟩
  · rcases h c hc z hz y hy with hfailed | hempty
    · exact .inl (herr hfailed)
    · exact .inr (hstreams hempty)
  · exact h c hc z hz w hw

theorem Doomed.register (h : Doomed s) {x : Nat} {y' : Session}
    (hx : ∀ c ∈ s.callers, c.phase.closes ≠ some x) : Doomed (s.putSession x y') := by
  intro c hc z hz w hw
  rcases getElem?_set_cases hw with ⟨rfl, -⟩ | ⟨-, hw⟩
  · exact absurd hz (hx c hc)
  · exact h c hc z hz w hw

theorem Session.openStream_err (y : Session) : y.openStream.2.err = y.err := by
  unfold openStream
  split
  · rfl
  split
  · rfl
  split
  · rfl
  split
  · rfl
  · rfl

theorem Session.openStream_streams {y : Session} (h : ∀ id, y.openStream.1 ≠ .registered id) :
    y.openStream.2.streams = y.streams := by
  unfold openStream at h ⊢
  split at h
  · rename_i herr
    rw [if_pos herr]
  rename_i herr
  rw [if_neg herr]
  split at h
  · rename_i hdraining
    rw [if_pos hdraining]
  rename_i hdraining
  rw [if_neg hdraining]
  split at h
  · rename_i hfull
    rw [if_pos hfull]
  rename_i hfull
  rw [if_neg hfull]
  split at h
  · rename_i hspent
    rw [if_pos hspent]
  · exact absurd rfl (h _)

theorem Session.openStream_failed {y : Session} (h : y.openStream.1 = .failed) :
    y.err = true ∨ y.draining = true ∨ (y.nextID = 0 ∧ y.streams.length < maxStreams) := by
  unfold openStream at h
  split at h
  · rename_i herr
    exact .inl herr
  split at h
  · rename_i hdraining
    exact .inr (.inl hdraining)
  split at h
  · cases h
  rename_i hroom
  split at h
  · rename_i hspent
    exact .inr (.inr ⟨hspent, Nat.not_le.mp hroom⟩)
  · cases h

inductive Effect (s : SessionPool κ) (s' : SessionPool κ) : Act κ → Prop
  /-- No session changes, and no call gets to close one. -/
  | quiet {a : Act κ} (hsessions : s'.sessions = s.sessions)
      (hcallers : ∀ c ∈ s'.callers, c ∈ s.callers ∨ c.phase.closes = none) : Effect s s' a
  /-- A session changes and no stream is registered on it; it fails if a call closes it,
  or on its own. -/
  | session {a : Act κ} {x : Nat} {y y' : Session} (hy : s.sessions[x]? = some y)
      (hsessions : s'.sessions = s.sessions.set x y')
      (hcallers : ∀ c ∈ s'.callers, c ∈ s.callers ∨ c.phase.closes = none)
      (herr : y.err = true → y'.err = true) (hstreams : y.streams = [] → y'.streams = [])
      (hclosed : a.ofOpenAt = true → y'.err = y.err ∨ ∃ c ∈ s.callers, c.phase.closes = some x) :
      Effect s s' a
  /-- A session is dialed. -/
  | dial {a : Act κ} {y : Session} (hsessions : s'.sessions = s.sessions ++ [y])
      (hcallers : ∀ c ∈ s'.callers, c ∈ s.callers ∨ c.phase.closes = none)
      (hstreams : y.streams = []) : Effect s s' a
  /-- The loop finds a session that is not alive. -/
  | stale {i x : Nat} {c c' : Caller κ} {y : Session} (hc : s.callers[i]? = some c)
      (hlooks : c.phase.looksAt = some x) (hy : s.sessions[x]? = some y)
      (hdead : y.alive s.clock v3SessionStaleAge = false) (hcloses : c'.phase.closes = some x)
      (hsessions : s'.sessions = s.sessions) (hcallers : s'.callers = s.callers.set i c') :
      Effect s s' (.check i)
  /-- `Open` starts: it fails, and the session is to be closed, or it does not. -/
  | opens {i x : Nat} {c c' : Caller κ} {y : Session} (hc : s.callers[i]? = some c)
      (hopens : c.phase.opens = some x) (hy : s.sessions[x]? = some y)
      (hcloses : c'.phase.closes = if y.openStream.1 = .failed then some x else none)
      (hsessions : s'.sessions = s.sessions.set x y.openStream.2)
      (hcallers : s'.callers = s.callers.set i c') : Effect s s' (.openBegin i)
  /-- `Open` fails after its stream was registered. -/
  | refused {i x id : Nat} {c c' : Caller κ} {y y' : Session} (hc : s.callers[i]? = some c)
      (hsends : c.phase.sends = some (x, id)) (hy : s.sessions[x]? = some y)
      (hcloses : c'.phase.closes = some x) (hy' : y' = { y with streams := y.streams.erase id })
      (hsessions : s'.sessions = s.sessions.set x y') (hcallers : s'.callers = s.callers.set i c') :
      Effect s s' (.openFailed i)

theorem mem_callers_set {i : Nat} {c c' : Caller κ} (hc' : c'.phase.closes = none)
    (hc : c ∈ s.callers.set i c') : c ∈ s.callers ∨ c.phase.closes = none := by
  rcases List.mem_or_eq_of_mem_set hc with hc | rfl
  · exact .inl hc
  · exact .inr hc'

variable [DecidableEq κ]

theorem step_effect {a : Act κ} (hstep : step s a = some s') : Effect s s' a := by
  cases a with
  | call key =>
    obtain rfl := Option.some.inj hstep
    refine .quiet rfl fun c hc => ?_
    rcases List.mem_append.mp hc with hc | hc
    · exact .inl hc
    · rw [List.mem_singleton.mp hc]
      exact .inr rfl
  | begin i =>
    obtain ⟨c, hc, hstep⟩ := Option.bind_eq_some_iff.mp hstep
    split at hstep
    · split at hstep
      · unfold Pool.begin at hstep
        split at hstep
        · obtain rfl := Option.some.inj hstep
          exact .quiet rfl fun _ => mem_callers_set rfl
        split at hstep
        · obtain ⟨v, -, rfl⟩ := Option.map_eq_some_iff.mp hstep
          exact .quiet rfl fun _ => mem_callers_set rfl
        · obtain rfl := Option.some.inj hstep
          exact .quiet rfl fun _ => mem_callers_set rfl
      · cases hstep
    · cases hstep
  | check i =>
    obtain ⟨c, hc, hstep⟩ := Option.bind_eq_some_iff.mp hstep
    split at hstep
    · rename_i n hphase
      unfold Pool.check at hstep
      split at hstep
      · cases hstep
      · rename_i x todo htodo
        obtain ⟨y, hy, rfl⟩ := Option.map_eq_some_iff.mp hstep
        dsimp only
        split
        · exact .quiet rfl fun _ => mem_callers_set rfl
        split
        · exact .quiet rfl fun _ => mem_callers_set rfl
        · rename_i hdead
          have hlooks : c.phase.looksAt = some x := by
            rw [hphase]
            show n.todo.head? = some x
            rw [htodo]
            rfl
          exact .stale hc hlooks hy (Bool.eq_false_iff.mpr hdead) rfl rfl rfl
    · cases hstep
  | closeStale i =>
    obtain ⟨c, hc, hstep⟩ := Option.bind_eq_some_iff.mp hstep
    split at hstep
    · rename_i x n hphase
      obtain ⟨y, hy, rfl⟩ := Option.map_eq_some_iff.mp hstep
      exact .session hy rfl (fun _ => mem_callers_set rfl) (fun _ => rfl) (fun _ => rfl)
        (fun _ => .inr ⟨c, List.mem_of_getElem? hc, by rw [hphase]; rfl⟩)
    · cases hstep
  | slots i =>
    obtain ⟨c, hc, hstep⟩ := Option.bind_eq_some_iff.mp hstep
    split at hstep
    · obtain ⟨y, -, rfl⟩ := Option.map_eq_some_iff.mp hstep
      unfold Pool.slots
      dsimp only
      split
      · exact .quiet rfl fun _ => mem_callers_set rfl
      · exact .quiet rfl fun _ => mem_callers_set rfl
    · cases hstep
  | finish i =>
    obtain ⟨c, hc, hstep⟩ := Option.bind_eq_some_iff.mp hstep
    split at hstep
    · split at hstep
      · obtain ⟨v, -, rfl⟩ := Option.map_eq_some_iff.mp hstep
        unfold Pool.finish
        dsimp only
        split
        · exact .quiet rfl fun _ => mem_callers_set rfl
        split
        · exact .quiet rfl fun _ => mem_callers_set rfl
        split
        · split
          · exact .quiet rfl fun _ => mem_callers_set rfl
          · exact .quiet rfl fun _ => mem_callers_set rfl
        · exact .quiet rfl fun _ => mem_callers_set rfl
      · cases hstep
    · cases hstep
  | openBegin i =>
    obtain ⟨c, hc, hstep⟩ := Option.bind_eq_some_iff.mp hstep
    split at hstep
    · rename_i x hphase
      obtain ⟨y, hy, rfl⟩ := Option.map_eq_some_iff.mp hstep
      have hopens : c.phase.opens = some x := by rw [hphase]; rfl
      unfold Pool.openBegin
      dsimp only
      split
      · rename_i hfailed
        exact .opens hc hopens hy (by rw [if_pos hfailed]; rfl) rfl rfl
      · rename_i hlimit
        exact .opens hc hopens hy (by rw [if_neg (by rw [hlimit]; decide)]; rfl) rfl rfl
      · rename_i id hid
        exact .opens hc hopens hy (by rw [if_neg (by rw [hid]; exact fun h => nomatch h)]; rfl) rfl rfl
    · cases hstep
  | opened i =>
    obtain ⟨c, hc, hstep⟩ := Option.bind_eq_some_iff.mp hstep
    split at hstep
    · obtain rfl := Option.some.inj hstep
      exact .quiet rfl fun _ => mem_callers_set rfl
    · cases hstep
  | openFailed i =>
    obtain ⟨c, hc, hstep⟩ := Option.bind_eq_some_iff.mp hstep
    split at hstep
    · rename_i x id hphase
      obtain ⟨y, hy, hstep⟩ := Option.bind_eq_some_iff.mp hstep
      split at hstep
      · obtain rfl := Option.some.inj hstep
        exact .refused hc (by rw [hphase]; rfl) hy rfl rfl rfl rfl
      · cases hstep
    · cases hstep
  | closeSelected i =>
    obtain ⟨c, hc, hstep⟩ := Option.bind_eq_some_iff.mp hstep
    split at hstep
    · rename_i x hphase
      obtain ⟨y, hy, rfl⟩ := Option.map_eq_some_iff.mp hstep
      have hcloses : ∃ c ∈ s.callers, c.phase.closes = some x :=
        ⟨c, List.mem_of_getElem? hc, by rw [hphase]; rfl⟩
      split
      · exact .session hy rfl (fun _ => mem_callers_set rfl) (fun _ => rfl) (fun _ => rfl)
          (fun _ => .inr hcloses)
      · exact .session hy rfl (fun _ => mem_callers_set rfl) (fun _ => rfl) (fun _ => rfl)
          (fun _ => .inr hcloses)
    · cases hstep
  | wake i =>
    obtain ⟨c, hc, hstep⟩ := Option.bind_eq_some_iff.mp hstep
    split at hstep
    · obtain ⟨v, -, hstep⟩ := Option.bind_eq_some_iff.mp hstep
      split at hstep
      · obtain rfl := Option.some.inj hstep
        split
        · exact .quiet rfl fun _ => mem_callers_set rfl
        · exact .quiet rfl fun _ => mem_callers_set rfl
      · cases hstep
    · cases hstep
  | dialed i ok =>
    obtain ⟨c, hc, hstep⟩ := Option.bind_eq_some_iff.mp hstep
    split at hstep
    · split at hstep
      · obtain ⟨v, -, rfl⟩ := Option.map_eq_some_iff.mp hstep
        unfold Pool.dialed
        dsimp only
        split
        · exact .dial rfl (fun _ => mem_callers_set rfl) rfl
        · split
          · exact .quiet rfl fun _ => mem_callers_set rfl
          · exact .quiet rfl fun _ => mem_callers_set rfl
      · cases hstep
    · cases hstep
  | release j =>
    obtain ⟨r, -, hstep⟩ := Option.bind_eq_some_iff.mp hstep
    obtain ⟨y, -, hstep⟩ := Option.bind_eq_some_iff.mp hstep
    split at hstep
    · obtain ⟨v, -, rfl⟩ := Option.map_eq_some_iff.mp hstep
      unfold Pool.release
      generalize (if s.count > 0 then s.count - 1 else s.count) = count
      dsimp only
      split
      · exact .quiet rfl fun _ => .inl
      · exact .quiet rfl fun _ => .inl
    · cases hstep
  | close =>
    simp only [Pool.step] at hstep
    split at hstep
    · obtain rfl := Option.some.inj hstep
      exact .quiet rfl fun _ => .inl
    · cases hstep
  | closeNext =>
    simp only [Pool.step] at hstep
    split at hstep
    · cases hstep
    · obtain ⟨y, hy, rfl⟩ := Option.map_eq_some_iff.mp hstep
      exact .session hy rfl (fun _ => .inl) (fun _ => rfl) (fun _ => rfl) (fun h => nomatch h)
  | tick d =>
    obtain rfl := Option.some.inj hstep
    exact .quiet rfl fun _ => .inl
  | exit x =>
    obtain ⟨y, hy, hstep⟩ := Option.bind_eq_some_iff.mp hstep
    split at hstep
    · obtain rfl := Option.some.inj hstep
      exact .session hy rfl (fun _ => .inl) (fun hf => hf) (fun hs => hs) (fun h => nomatch h)
    · cases hstep
  | streamEnds x id =>
    obtain ⟨y, hy, rfl⟩ := Option.map_eq_some_iff.mp hstep
    exact .session hy rfl (fun _ => .inl) (fun hf => hf) (fun hs => by rw [hs]; rfl)
      (fun h => nomatch h)
  | fail x =>
    obtain ⟨y, hy, rfl⟩ := Option.map_eq_some_iff.mp hstep
    exact .session hy rfl (fun _ => .inl) (fun _ => rfl) (fun _ => rfl) (fun h => nomatch h)
  | write x | drain x | peerCloses x id | writeFails x =>
    obtain ⟨y, hy, rfl⟩ := Option.map_eq_some_iff.mp hstep
    exact .session hy rfl (fun _ => .inl) (fun hf => hf) (fun hs => hs) (fun h => nomatch h)

theorem Doomed.step {a : Act κ} (h : Doomed s) (hgentle : Gentle s a) (hstep : step s a = some s') :
    Doomed s' := by
  cases step_effect hstep with
  | quiet hsessions hcallers =>
    intro c hc x hx y hy
    rcases hcallers c hc with hc | hnone
    · rw [hsessions] at hy
      exact h c hc x hx y hy
    · rw [hnone] at hx
      cases hx
  | session hy hsessions hcallers herr hstreams _ =>
    intro c hc x hx w hw
    rcases hcallers c hc with hc | hnone
    · rw [hsessions] at hw
      exact h.putSession hy herr hstreams c hc x hx w hw
    · rw [hnone] at hx
      cases hx
  | dial hsessions hcallers hempty =>
    intro c hc x hx w hw
    rcases hcallers c hc with hc | hnone
    · rw [hsessions] at hw
      rcases getElem?_concat_cases hw with ⟨-, rfl⟩ | ⟨-, hw⟩
      · exact .inr hempty
      · exact h c hc x hx w hw
    · rw [hnone] at hx
      cases hx
  | @stale i x c c' y hc hlooks hy hdead hcloses hsessions hcallers =>
    -- a session that is not alive is not in use
    have hput : Doomed (s.putCaller i c') := by
      refine h.putCaller i fun z hz w hw => ?_
      obtain rfl := Option.some.inj (hcloses ▸ hz)
      obtain rfl := Option.some.inj (hy ▸ hw)
      by_contra huse
      rw [not_or] at huse
      have halive := hgentle c hc x hlooks y hy ⟨Bool.eq_false_iff.mpr huse.1, huse.2⟩
      rw [hdead] at halive
      cases halive
    intro d hd
    rw [hcallers] at hd
    rw [hsessions]
    exact hput d hd
  | @opens i x c c' y hc hopens hy hcloses hsessions hcallers =>
    obtain ⟨hfit, hfree⟩ := hgentle c hc x hopens y hy
    have herr := y.openStream_err
    have hput : Doomed ((s.putSession x y.openStream.2).putCaller i c') := by
      by_cases hfailed : y.openStream.1 = .failed
      · -- `Open` fails on no session in use
        rw [if_pos hfailed] at hcloses
        have hstreams : y.openStream.2.streams = y.streams := by
          refine Session.openStream_streams fun id => ?_
          rw [hfailed]
          exact fun heq => nomatch heq
        refine (h.putSession hy (fun hf => herr.trans hf) (fun hs => hstreams.trans hs)).putCaller i
          fun z hz w hw => ?_
        obtain rfl := Option.some.inj (hcloses ▸ hz)
        have hlt := (List.getElem?_eq_some_iff.mp hy).1
        obtain rfl := Option.some.inj (hw.symm.trans (List.getElem?_set_self hlt))
        rw [herr, hstreams]
        by_contra huse
        rw [not_or] at huse
        obtain ⟨hdraining, hids⟩ := hfit ⟨Bool.eq_false_iff.mpr huse.1, huse.2⟩
        rcases Session.openStream_failed hfailed with hbad | hbad | ⟨hspent, hroom⟩
        · exact huse.1 hbad
        · rw [hdraining] at hbad
          cases hbad
        · rcases hids with hid | hfull
          · exact hid hspent
          · omega
      · rw [if_neg hfailed] at hcloses
        refine (h.register (hfree hfailed)).putCaller i fun z hz => ?_
        rw [hcloses] at hz
        cases hz
    intro d hd
    rw [hcallers] at hd
    rw [hsessions]
    exact hput d hd
  | @refused i x id c c' y y' hc hsends hy hcloses hy' hsessions hcallers =>
    have hput : Doomed ((s.putSession x y').putCaller i c') := by
      have herased : Doomed (s.putSession x y') := by
        refine h.putSession hy (fun hf => ?_) (fun hs => ?_)
        · rw [hy']
          exact hf
        · rw [hy', hs]
          rfl
      refine herased.putCaller i fun z hz w hw => ?_
      obtain rfl := Option.some.inj (hcloses ▸ hz)
      have hlt := (List.getElem?_eq_some_iff.mp hy).1
      obtain rfl := Option.some.inj (hw.symm.trans (List.getElem?_set_self hlt))
      rw [hy']
      exact hgentle c hc (x, id) hsends y hy
    intro d hd
    rw [hcallers] at hd
    rw [hsessions]
    exact hput d hd

theorem Doomed.spares {a : Act κ} (h : Doomed s) (hopen : a.ofOpenAt = true)
    (hstep : Pool.step s a = some s') : Spares s s' := by
  -- a session that is replaced by one that has not failed
  have hset : ∀ (x : Nat) (y y' : Session), s.sessions[x]? = some y →
      (y.InUse → y'.err = false) → ∀ (z : Nat) (w : Session), s.sessions[z]? = some w → w.InUse →
      ∃ w' : Session, (s.sessions.set x y')[z]? = some w' ∧ w'.err = false := by
    intro x y y' hy hok z w hw huse
    by_cases hzx : z = x
    · subst hzx
      obtain rfl := Option.some.inj (hw ▸ hy)
      exact ⟨y', List.getElem?_set_self (List.getElem?_eq_some_iff.mp hy).1, hok huse⟩
    · exact ⟨w, by rw [List.getElem?_set_ne (fun heq => hzx heq.symm)]; exact hw, huse.1⟩
  cases step_effect hstep with
  | quiet hsessions _ =>
    intro x y hy huse
    exact ⟨y, hsessions ▸ hy, huse.1⟩
  | @session a x y y' hy hsessions _ _ _ hclosed =>
    unfold Spares
    rw [hsessions]
    refine hset x y y' hy fun huse => ?_
    rcases hclosed hopen with herr | ⟨c, hc, hcloses⟩
    · exact herr.trans huse.1
    · rcases h c hc x hcloses y hy with herr | hempty
      · rw [huse.1] at herr
        cases herr
      · exact absurd hempty huse.2
  | dial hsessions _ _ =>
    intro x y hy huse
    rw [hsessions, List.getElem?_append_left (List.getElem?_eq_some_iff.mp hy).1]
    exact ⟨y, hy, huse.1⟩
  | stale _ _ _ _ _ hsessions _ =>
    intro x y hy huse
    exact ⟨y, hsessions ▸ hy, huse.1⟩
  | @opens i x c c' y _ _ hy _ hsessions _ =>
    unfold Spares
    rw [hsessions]
    exact hset x y _ hy fun huse => y.openStream_err.trans huse.1
  | @refused i x id c c' y y' _ _ hy _ hy' hsessions _ =>
    unfold Spares
    rw [hsessions]
    exact hset x y y' hy fun huse => hy' ▸ huse.1

end

/-- In every run of gentle steps, no step of any call of `openAt` closes or fails a
session that carries a stream and reports no error. -/
theorem openAt_spares (κ : Type u) [DecidableEq κ] (as : List (Act κ)) (a : Act κ)
    (s s' : SessionPool κ) (hrun : Run (Guarded Gentle (pool κ)) (SessionPool.init κ) as s)
    (hstep : pool κ s a s') (hopen : a.ofOpenAt = true) : Spares s s' := by
  have hdoomed : Doomed s := hrun.preserves (fun s a s' hs h => h.step hs.1 hs.2)
    (fun _ h => nomatch h)
  exact hdoomed.spares hopen hstep

/-- A session is dialed and a stream opened on it; `d` nanoseconds later a second call
looks at it. -/
def openTwice (d : Nat) : List (Act Nat) :=
  [.call 7, .begin 0, .finish 0, .dialed 0 true, .begin 0, .check 0, .slots 0, .finish 0,
    .openBegin 0, .opened 0, .tick d, .call 7, .begin 1, .check 1]

/-- A session that last wrote within its age is kept, and shared. -/
theorem openAt_spares_shared :
    ∃ s s' : SessionPool Nat, s.sessions = [⟨false, false, 0, false, 2, [1], [], false⟩] ∧
      step s (.slots 1) = some s' ∧ Spares s s' := by
  have hexec : ∃ s s', exec (fun s a => if decide (Gentle s a) then step s a else none)
      (SessionPool.init Nat) (openTwice 30000000000) = some s ∧
      s.sessions = [⟨false, false, 0, false, 2, [1], [], false⟩] ∧ step s (.slots 1) = some s' :=
    ⟨_, _, rfl, rfl, rfl⟩
  obtain ⟨s, s', hexec, hsessions, hstep⟩ := hexec
  exact ⟨s, s', hsessions, hstep, openAt_spares Nat _ (.slots 1) s s'
    (exec_guarded (fun _ _ => of_decide_eq_true) hexec) hstep rfl⟩

/-- Opening a second stream on an idle session ends the first. -/
theorem openAt_kills_streams :
    ¬ ∀ (as : List (Act Nat)) (a : Act Nat) (s s' : SessionPool Nat),
      Run (pool Nat) (SessionPool.init Nat) as s → pool Nat s a s' → a.ofOpenAt = true →
        Spares s s' := by
  intro h
  have hexec : ∃ s s', exec step (SessionPool.init Nat) (openTwice 30000000001) = some s ∧
      step s (.closeStale 1) = some s' ∧
      s.sessions = [⟨false, false, 0, false, 2, [1], [], false⟩] ∧
      s'.sessions = [⟨true, false, 0, false, 2, [], [], false⟩] := ⟨_, _, rfl, rfl, rfl, rfl⟩
  obtain ⟨s, s', hexec, hstep, hsessions, hsessions'⟩ := hexec
  obtain ⟨y', hy', herr⟩ := h _ (.closeStale 1) s s' (exec_run hexec) hstep rfl 0
    ⟨false, false, 0, false, 2, [1], [], false⟩ (by rw [hsessions]; rfl)
    ⟨rfl, fun hnil => nomatch hnil⟩
  rw [hsessions'] at hy'
  obtain rfl := Option.some.inj hy'
  cases herr

end ForwardX.V3.Pool
