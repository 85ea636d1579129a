import ForwardX.Panel.RuleQuota

/- What every step of the quota reservations keeps: each creator is in a call of its own, the
   pending quota of a user is what its creators hold, and with the reservations for rules to come
   the rules and ports stay within the limits. -/
namespace ForwardX.Panel.RuleQuota
open Transition Assoc
open KeyedTaskLock (State Call)

/-! ## The lock -/

section
variable {lock lock' : State} {i j : Nat} {key : String} {running : Bool}

/-- The calls of the lock are those of creators, each with a key of its own. -/
structure LockOk (lock : State) : Prop where
  inv : lock.Inv
  plain : ∀ c ∈ lock.calls, c.holder = none

/-- Call `i` is one of the key and has not settled, and it has the lock. -/
def HasCall (lock : State) (i : Nat) (key : String) (running : Bool) : Prop :=
  ∃ c, lock.calls[i]? = some c ∧ c.entry.key = some key ∧ c.settled = false ∧
    (running = true → c.entry.stage = .running)

theorem LockOk.initial : LockOk State.initial :=
  ⟨⟨KeyedChain.InOrder.empty, fun _ h => (by cases h), fun _ h => (by cases h), fun _ h => (by cases h),
    fun _ h => (by cases h)⟩, fun _ h => (by cases h)⟩

theorem HasCall.lt (h : HasCall lock i key running) : i < lock.calls.length := by
  obtain ⟨c, hc, _⟩ := h
  exact (List.getElem?_eq_some_iff.mp hc).1

theorem quotaKey_clean (userId : Int) : KeyedTaskLock.State.withKeyedTaskLock lock (quotaKey userId) [] =
    lock.enter (quotaKey userId) [] := by
  have hclean : Ddns.jsTrim (quotaKey userId) = quotaKey userId :=
    KeyedTaskLock.jsTrim_numbered (by decide +kernel) userId
  rw [State.withKeyedTaskLock, hclean]
  exact if_neg (KeyedTaskLock.numbered_ne_empty (by decide) userId)

theorem LockOk.call (h : LockOk lock) (userId : Int) :
    LockOk (lock.withKeyedTaskLock (quotaKey userId) []) ∧
    HasCall (lock.withKeyedTaskLock (quotaKey userId) []) lock.calls.length (quotaKey userId) false ∧
    ∀ j key running, HasCall lock j key running → HasCall (lock.withKeyedTaskLock (quotaKey userId) []) j key running := by
  rw [quotaKey_clean]
  refine ⟨⟨?_, fun c hc => ?_⟩, ?_, fun j key running hj => ?_⟩
  · exact h.inv.enter (KeyedTaskLock.numbered_ne_empty (by decide) userId) fun k t hk => by cases hk
  · rcases List.mem_append.mp hc with hc | hc
    · exact h.plain c hc
    · rw [List.mem_singleton.mp hc]
  · exact ⟨_, List.getElem?_concat_length, rfl, rfl, fun hr => by cases hr⟩
  · obtain ⟨c, hc, hrest⟩ := hj
    exact ⟨c, by rw [State.enter, List.getElem?_append_left (List.getElem?_eq_some_iff.mp hc).1, hc], hrest⟩

theorem HasCall.set {c : Call} (hj : HasCall lock j key running) (hne : j ≠ i) (pending : List (String × Nat)) :
    HasCall ⟨lock.calls.set i c, pending⟩ j key running := by
  obtain ⟨d, hd, hrest⟩ := hj
  exact ⟨d, by rw [List.getElem?_set_ne (Ne.symm hne), hd], hrest⟩

theorem plain_set {c d : Call} (h : ∀ c ∈ lock.calls, c.holder = none) (hc : lock.calls[i]? = some c)
    (hholder : d.holder = c.holder) : ∀ x ∈ lock.calls.set i d, x.holder = none := by
  intro x hd
  rcases List.mem_or_eq_of_mem_set hd with hd | rfl
  · exact h x hd
  · rw [hholder]
    exact h c (List.mem_of_getElem? hc)

theorem LockOk.settle (h : LockOk lock) {threw : Bool} (hs : KeyedTaskLock.step lock (.settle i threw) = some lock') :
    LockOk lock' ∧ (∀ key, HasCall lock i key false → HasCall lock i key true) ∧
    ∀ j key running, j ≠ i → HasCall lock j key running → HasCall lock' j key running := by
  have hinv : lock'.Inv := h.inv.step (a := .settle i threw)
    (fun c hc hholder => by rw [h.plain c hc] at hholder; cases hholder) hs
  obtain ⟨c, hc, hs⟩ := Option.bind_eq_some_iff.mp hs
  rw [Option.ite_none_right_eq_some] at hs
  obtain ⟨hactive, hs⟩ := hs
  have hrun : c.entry.stage = .running := by
    simp only [Call.active, Bool.and_eq_true, beq_iff_eq] at hactive
    exact hactive.1
  have hstart : ∀ key, HasCall lock i key false → HasCall lock i key true := by
    rintro key ⟨d, hd, hk, hset, _⟩
    obtain rfl := Option.some.inj (hc.symm.trans hd)
    exact ⟨c, hc, hk, hset, fun _ => hrun⟩
  by_cases hkey : c.entry.key = none
  · rw [if_pos hkey] at hs
    obtain rfl := Option.some.inj hs
    exact ⟨⟨hinv, plain_set (d := { c.toStage .closed with settled := true }) h.plain hc rfl⟩, hstart,
      fun j key running hne hj => hj.set hne _⟩
  · rw [if_neg hkey] at hs
    obtain rfl := Option.some.inj hs
    exact ⟨⟨hinv, plain_set (d := { c with settled := true }) h.plain hc rfl⟩, hstart,
      fun j key running hne hj => hj.set hne _⟩

theorem LockOk.proceed (h : LockOk lock) (hs : KeyedTaskLock.step lock (.proceed i) = some lock') :
    LockOk lock' ∧ ∀ j key running, HasCall lock j key running → HasCall lock' j key running := by
  have hinv : lock'.Inv := h.inv.step (a := .proceed i) trivial hs
  obtain ⟨c, hc, ⟨hw, _⟩, rfl⟩ := Transition.bind_ite_eq_some.mp hs
  refine ⟨⟨hinv, plain_set (d := c.toStage .running) h.plain hc rfl⟩, fun j key running hj => ?_⟩
  by_cases hji : j = i
  · subst hji
    obtain ⟨d, hd, hk, hset, _⟩ := hj
    obtain rfl := Option.some.inj (hc.symm.trans hd)
    exact ⟨c.toStage .running, List.getElem?_set_self (List.getElem?_eq_some_iff.mp hc).1, hk, hset, fun _ => rfl⟩
  · exact hj.set hji _

theorem LockOk.leave (h : LockOk lock) (hs : KeyedTaskLock.step lock (.release i) = some lock') :
    LockOk lock' ∧ ∀ j key running, HasCall lock j key running → HasCall lock' j key running := by
  have hinv : lock'.Inv := h.inv.step (a := .release i) trivial hs
  obtain ⟨c, hc, ⟨_, hsettled⟩, rfl⟩ := Transition.bind_ite_eq_some.mp hs
  refine ⟨⟨hinv, plain_set (d := c.toStage .closed) h.plain hc rfl⟩, fun j key running hj => ?_⟩
  by_cases hji : j = i
  · subst hji
    obtain ⟨d, hd, _, hset, _⟩ := hj
    obtain rfl := Option.some.inj (hc.symm.trans hd)
    rw [hsettled] at hset
    cases hset
  · exact hj.set hji _

theorem LockOk.alone (h : LockOk lock) (hi : HasCall lock i key true) (hj : HasCall lock j key true) : i = j := by
  obtain ⟨c, hc, hck, _, hcr⟩ := hi
  obtain ⟨d, hd, hdk, _, hdr⟩ := hj
  exact h.inv.chain.exclusive (KeyedTaskLock.getElem?_entries hc) (KeyedTaskLock.getElem?_entries hd) hck hdk
    (hcr rfl) (hdr rfl)

end

/-! ## The calls of the creators -/

section
variable {s t : QuotaState} {k k' i : Nat} {c d x : QuotaClient}

/-- Each creator that waits for the lock or has it does so with a call of its own. -/
structure QuotaState.Calls (s : QuotaState) : Prop where
  lock : LockOk s.lock
  own : ∀ {k i : Nat} {c : QuotaClient}, s.clients[k]? = some c → c.stage.call = some i →
    HasCall s.lock i (quotaKey c.userId) c.stage.counts
  distinct : ∀ {k k' i : Nat} {c d : QuotaClient}, s.clients[k]? = some c → s.clients[k']? = some d →
    c.stage.call = some i → d.stage.call = some i → k = k'

theorem QuotaState.Calls.alone (h : s.Calls) (hk : s.clients[k]? = some c) (hcall : c.stage.call = some i)
    (hrun : HasCall s.lock i (quotaKey c.userId) true) (hk' : s.clients[k']? = some x) (hu : x.userId = c.userId)
    (hcounts : x.stage.counts = true) : k' = k := by
  cases hstage : x.stage with
  | counting j p r q =>
    have hcall' : x.stage.call = some j := by rw [hstage]; rfl
    have hrun' := h.own hk' hcall'
    rw [hcounts, hu] at hrun'
    obtain rfl := h.lock.alone hrun hrun'
    exact h.distinct hk' hk hcall' hcall
  | _ =>
    rw [hstage] at hcounts
    cases hcounts

theorem get_set (hk : s.clients[k]? = some c) (ht : t.clients = s.clients.set k d) (hd : t.clients[k']? = some x) :
    (k' = k ∧ x = d) ∨ (k' ≠ k ∧ s.clients[k']? = some x) := by
  rw [ht] at hd
  by_cases hkk : k' = k
  · rw [hkk, List.getElem?_set_self (List.getElem?_eq_some_iff.mp hk).1] at hd
    exact Or.inl ⟨hkk, (Option.some.inj hd).symm⟩
  · rw [List.getElem?_set_ne (Ne.symm hkk)] at hd
    exact Or.inr ⟨hkk, hd⟩

theorem QuotaState.Calls.replace (h : s.Calls) (hk : s.clients[k]? = some c) (ht : t.clients = s.clients.set k d)
    (hlock : LockOk t.lock)
    (hothers : ∀ (k' j : Nat) (x : QuotaClient), k' ≠ k → s.clients[k']? = some x → x.stage.call = some j →
      HasCall t.lock j (quotaKey x.userId) x.stage.counts)
    (hown : ∀ i, d.stage.call = some i → HasCall t.lock i (quotaKey d.userId) d.stage.counts ∧
      ∀ (k' : Nat) (x : QuotaClient), k' ≠ k → s.clients[k']? = some x → x.stage.call ≠ some i) : t.Calls := by
  refine ⟨hlock, fun {k' j x} hd hcall => ?_, fun {k₁ k₂ j x₁ x₂} h₁ h₂ hc₁ hc₂ => ?_⟩
  · rcases get_set hk ht hd with ⟨_, rfl⟩ | ⟨hne, hd⟩
    · exact (hown j hcall).1
    · exact hothers k' j x hne hd hcall
  · rcases get_set hk ht h₁ with ⟨rfl, rfl⟩ | ⟨hne₁, h₁⟩
    · rcases get_set hk ht h₂ with ⟨rfl, rfl⟩ | ⟨hne₂, h₂⟩
      · rfl
      · exact absurd hc₂ ((hown j hc₁).2 k₂ x₂ hne₂ h₂)
    · rcases get_set hk ht h₂ with ⟨rfl, rfl⟩ | ⟨hne₂, h₂⟩
      · exact absurd hc₁ ((hown j hc₂).2 k₁ x₁ hne₁ h₁)
      · exact h.distinct h₁ h₂ hc₁ hc₂

theorem QuotaState.Calls.same (h : s.Calls) (hk : s.clients[k]? = some c) (ht : t.clients = s.clients.set k d)
    (hlock : t.lock = s.lock) (huser : d.userId = c.userId)
    (hcall : ∀ i, d.stage.call = some i → c.stage.call = some i ∧ HasCall s.lock i (quotaKey c.userId) d.stage.counts) :
    t.Calls := by
  refine h.replace hk ht (hlock ▸ h.lock) (fun k' j x _ hd hj => hlock ▸ h.own hd hj) fun i hi => ?_
  obtain ⟨hi', hhas⟩ := hcall i hi
  rw [hlock, huser]
  exact ⟨hhas, fun k' x hne hd hdi => hne (h.distinct hd hk hdi hi')⟩

theorem QuotaState.Calls.ask (h : s.Calls) (hk : s.clients[k]? = some c) (ht : t.clients = s.clients.set k d)
    (hlock : t.lock = s.lock.withKeyedTaskLock (quotaKey c.userId) []) (huser : d.userId = c.userId)
    (hcall : d.stage.call = some s.lock.calls.length) (hcounts : d.stage.counts = false) : t.Calls := by
  obtain ⟨hok, hnew, hkeep⟩ := h.lock.call c.userId
  refine h.replace hk ht (hlock ▸ hok) (fun k' j x _ hd hj => hlock ▸ hkeep j _ _ (h.own hd hj)) fun i hi => ?_
  obtain rfl := Option.some.inj (hcall.symm.trans hi)
  rw [hlock, huser, hcounts]
  exact ⟨hnew, fun k' x _ hd hdi => Nat.lt_irrefl _ (h.own hd hdi).lt⟩

theorem QuotaState.Calls.settle (h : s.Calls) (hk : s.clients[k]? = some c) (hcall : c.stage.call = some i)
    (ht : t.clients = s.clients.set k d) {threw : Bool}
    (hs : KeyedTaskLock.step s.lock (.settle i threw) = some t.lock) (hnone : d.stage.call = none) :
    t.Calls ∧ HasCall s.lock i (quotaKey c.userId) true := by
  obtain ⟨hok, hrun, hkeep⟩ := h.lock.settle hs
  refine ⟨h.replace hk ht hok (fun k' j x hne hd hj => ?_) fun i hi => ?_, ?_⟩
  · refine hkeep j _ _ ?_ (h.own hd hj)
    rintro rfl
    exact hne (h.distinct hd hk hj hcall)
  · rw [hnone] at hi
    cases hi
  · obtain ⟨x, hx, hkey, hset, _⟩ := h.own hk hcall
    exact hrun _ ⟨x, hx, hkey, hset, fun hr => by cases hr⟩

theorem QuotaState.Calls.move (h : s.Calls) (ht : t.clients = s.clients) (hlock : LockOk t.lock)
    (hkeep : ∀ j key running, HasCall s.lock j key running → HasCall t.lock j key running) : t.Calls :=
  ⟨hlock, fun hd hj => hkeep _ _ _ (h.own (ht ▸ hd) hj), fun h₁ h₂ => h.distinct (ht ▸ h₁) (ht ▸ h₂)⟩

end

/-! ## What is reserved -/

/-- The creator holds a reservation of the user, and holds one for a rule to come. -/
def QuotaClient.holds (u : Int) (c : QuotaClient) : Int := if c.userId = u ∧ c.stage.held = true then 1 else 0
def QuotaClient.spares (u : Int) (c : QuotaClient) : Int :=
  if c.userId = u ∧ c.stage = .granted ∧ c.inserted = false then 1 else 0

def QuotaState.held (s : QuotaState) (u : Int) : Int := (s.clients.map (QuotaClient.holds u)).sum
def QuotaState.spare (s : QuotaState) (u : Int) : Int := (s.clients.map (QuotaClient.spares u)).sum

def expected (l : Limits) (n : Int) : Option PendingQuota :=
  if l.Unlimited ∨ n = 0 then none else some ⟨n * l.one.rules, n * l.one.ports⟩

section
variable {limits : Int → Limits} {base rules rules' : List Rule} {s t : QuotaState} {k : Nat} {c d : QuotaClient}
  {u : Int}

/-- A creator of the user that counts knows the pending quota, and what it saw is enough for the
rules inserted since. -/
structure Counted (rules : List Rule) (s : QuotaState) (u : Int) (p : PendingQuota) (r q : Nat) :
    Prop where
  pending : p = s.pendingOf u
  ruleRoom : ruleCount rules u + s.spare u ≤ r + s.held u
  portRoom : portCount rules u + s.spare u ≤ q + s.held u

/-- What holds of a user; `base` are the rules at the start. -/
structure UserOk (limits : Int → Limits) (base rules : List Rule) (s : QuotaState) (u : Int) : Prop where
  pending : s.pendingByUser.lookup u = expected (limits u) (s.held u)
  limited : ∀ (k : Nat) (c : QuotaClient), s.clients[k]? = some c → c.userId = u → c.stage.call.isSome = true →
    ¬ (limits u).Unlimited
  counting : ∀ (k : Nat) (c : QuotaClient), s.clients[k]? = some c → c.userId = u → ∀ i p r q,
    c.stage = .counting i p r q → Counted rules s u p r q
  ruleLimit : 0 < (limits u).rules → ruleCount base u ≤ (limits u).rules → ruleCount rules u + s.spare u ≤ (limits u).rules
  portLimit : 0 < (limits u).ports → portCount base u ≤ (limits u).ports → portCount rules u + s.spare u ≤ (limits u).ports

theorem holds_nonneg (u : Int) (c : QuotaClient) : 0 ≤ c.holds u := by
  unfold QuotaClient.holds
  split <;> omega

theorem spares_nonneg (u : Int) (c : QuotaClient) : 0 ≤ c.spares u := by
  unfold QuotaClient.spares
  split <;> omega

theorem spares_le (u : Int) (c : QuotaClient) : c.spares u ≤ c.holds u := by
  by_cases h : c.userId = u ∧ c.stage = .granted ∧ c.inserted = false
  · rw [QuotaClient.spares, if_pos h, QuotaClient.holds, if_pos ⟨h.1, by rw [h.2.1]; rfl⟩]
  · rw [QuotaClient.spares, if_neg h]
    exact holds_nonneg u c

theorem spare_le_held (s : QuotaState) (u : Int) : s.spare u ≤ s.held u :=
  List.sum_le_sum fun c _ => spares_le u c

theorem spare_nonneg (s : QuotaState) (u : Int) : 0 ≤ s.spare u :=
  Tally.sum_map_nonneg _ (spares_nonneg u) _

theorem held_nonneg (s : QuotaState) (u : Int) : 0 ≤ s.held u :=
  Tally.sum_map_nonneg _ (holds_nonneg u) _

theorem held_set (hk : s.clients[k]? = some c) (ht : t.clients = s.clients.set k d) (u : Int) :
    t.held u = s.held u + (d.holds u - c.holds u) := by
  rw [QuotaState.held, ht]
  exact Tally.sum_map_set _ hk d

theorem spare_set (hk : s.clients[k]? = some c) (ht : t.clients = s.clients.set k d) (u : Int) :
    t.spare u = s.spare u + (d.spares u - c.spares u) := by
  rw [QuotaState.spare, ht]
  exact Tally.sum_map_set _ hk d

theorem holds_other (hu : c.userId ≠ u) : c.holds u = 0 := if_neg fun h => hu h.1
theorem spares_other (hu : c.userId ≠ u) : c.spares u = 0 := if_neg fun h => hu h.1

theorem UserOk.pendingOf (h : UserOk limits base rules s u) (hl : ¬ (limits u).Unlimited) :
    s.pendingOf u = ⟨s.held u * (limits u).one.rules, s.held u * (limits u).one.ports⟩ := by
  rw [QuotaState.pendingOf, h.pending, expected]
  by_cases hn : s.held u = 0
  · rw [if_pos (Or.inr hn), hn, Int.zero_mul, Int.zero_mul]
    rfl
  · rw [if_neg (not_or.mpr ⟨hl, hn⟩)]
    rfl

theorem UserOk.replace (h : UserOk limits base rules s u) (hk : s.clients[k]? = some c)
    (ht : t.clients = s.clients.set k d) (hpending : t.pendingByUser.lookup u = expected (limits u) (t.held u))
    (hothers : ∀ (k' : Nat) (x : QuotaClient), k' ≠ k → s.clients[k']? = some x → x.userId = u → x.stage.counts = true →
      ¬ (limits u).Unlimited → t.pendingOf u = s.pendingOf u ∧
        ruleCount rules' u + t.spare u + s.held u ≤ ruleCount rules u + s.spare u + t.held u ∧
        portCount rules' u + t.spare u + s.held u ≤ portCount rules u + s.spare u + t.held u)
    (hlimited : d.userId = u → d.stage.call.isSome = true → ¬ (limits u).Unlimited)
    (hown : d.userId = u → ∀ i p r q, d.stage = .counting i p r q → Counted rules' t u p r q)
    (hrules : 0 < (limits u).rules → ruleCount rules u + s.spare u ≤ (limits u).rules →
      ruleCount rules' u + t.spare u ≤ (limits u).rules)
    (hports : 0 < (limits u).ports → portCount rules u + s.spare u ≤ (limits u).ports →
      portCount rules' u + t.spare u ≤ (limits u).ports) : UserOk limits base rules' t u := by
  refine ⟨hpending, fun k' x hd hu hcall => ?_, fun k' x hd hu i p r q hstage => ?_, fun hpos hbase => hrules hpos (h.ruleLimit hpos hbase),
    fun hpos hbase => hports hpos (h.portLimit hpos hbase)⟩
  · rcases get_set hk ht hd with ⟨_, rfl⟩ | ⟨_, hd⟩
    · exact hlimited hu hcall
    · exact h.limited k' x hd hu hcall
  · rcases get_set hk ht hd with ⟨_, rfl⟩ | ⟨hne, hd⟩
    · exact hown hu i p r q hstage
    · obtain ⟨hp, hr, hq⟩ := h.counting k' x hd hu i p r q hstage
      obtain ⟨hsame, hless, hless'⟩ := hothers k' x hne hd hu (by rw [hstage]; rfl)
        (h.limited k' x hd hu (by rw [hstage]; rfl))
      exact ⟨hp.trans hsame.symm, by omega, by omega⟩

/-- Nothing changes for the user but that a creator may start to count. -/
theorem UserOk.same (h : UserOk limits base rules s u) (hk : s.clients[k]? = some c)
    (ht : t.clients = s.clients.set k d) (hlook : t.pendingByUser.lookup u = s.pendingByUser.lookup u)
    (hholds : d.holds u = c.holds u) (hspares : d.spares u = c.spares u)
    (hrules : ruleCount rules' u = ruleCount rules u) (hports : portCount rules' u = portCount rules u)
    (hlimited : d.userId = u → d.stage.call.isSome = true → ¬ (limits u).Unlimited)
    (hown : d.userId = u → ∀ i p r q, d.stage = .counting i p r q → Counted rules' t u p r q) :
    UserOk limits base rules' t u := by
  have hheld : t.held u = s.held u := by
    rw [held_set hk ht, hholds]
    omega
  have hspare : t.spare u = s.spare u := by
    rw [spare_set hk ht, hspares]
    omega
  refine h.replace hk ht (by rw [hlook, h.pending, hheld]) (fun _ _ _ _ _ _ _ => ⟨?_, ?_, ?_⟩) hlimited hown
    (fun _ hle => ?_) fun _ hle => ?_
  · rw [QuotaState.pendingOf, QuotaState.pendingOf, hlook]
  · rw [hheld, hspare, hrules]
  · rw [hheld, hspare, hports]
  · rw [hspare, hrules]
    exact hle
  · rw [hspare, hports]
    exact hle

theorem UserOk.other (h : UserOk limits base rules s u) (hk : s.clients[k]? = some c)
    (ht : t.clients = s.clients.set k d) (huser : d.userId = c.userId) (hu : c.userId ≠ u)
    (hlook : t.pendingByUser.lookup u = s.pendingByUser.lookup u) (hrules : ruleCount rules' u = ruleCount rules u)
    (hports : portCount rules' u = portCount rules u) : UserOk limits base rules' t u := by
  have hu' : d.userId ≠ u := huser ▸ hu
  exact h.same hk ht hlook ((holds_other hu').trans (holds_other hu).symm)
    ((spares_other hu').trans (spares_other hu).symm) hrules hports (fun h => absurd h hu') fun h => absurd h hu'

end

/-! ## Every step -/

structure QuotaState.Inv (limits : Int → Limits) (base rules : List Rule) (s : QuotaState) : Prop where
  calls : s.Calls
  users : ∀ u, UserOk limits base rules s u

section
variable {limits : Int → Limits} {base rules : List Rule} {s t : QuotaState} {k : Nat} {c d : QuotaClient} {u : Int}

theorem QuotaState.Inv.initial (limits : Int → Limits) (base : List Rule) :
    QuotaState.initial.Inv limits base base := by
  have hbase : ∀ (u : Int) (n : Nat) (m : Int), (n : Int) ≤ m → (n : Int) + QuotaState.initial.spare u ≤ m := by
    intro u n m hle
    show (n : Int) + 0 ≤ m
    omega
  refine ⟨⟨LockOk.initial, (fun h _ => by cases h), (fun h _ _ _ => by cases h)⟩, fun u => ⟨?_, (fun _ _ h => by cases h),
    (fun _ _ h => by cases h), fun _ => hbase u _ _, fun _ => hbase u _ _⟩⟩
  exact (if_pos (Or.inr rfl)).symm

theorem QuotaState.Inv.start (h : s.Inv limits base rules) (userId : Int) :
    (s.start userId).Inv limits base rules := by
  have hget : ∀ {k : Nat} {c : QuotaClient} {i : Nat}, (s.clients ++ [⟨userId, .idle, false⟩])[k]? = some c →
      c.stage.call = some i → s.clients[k]? = some c := by
    intro k c i hc hcall
    rcases Slots.getElem?_concat_cases hc with ⟨_, rfl⟩ | ⟨_, hc⟩
    · cases hcall
    · exact hc
  have hheld : ∀ u, (s.start userId).held u = s.held u := by
    intro u
    rw [QuotaState.held, QuotaState.start, Tally.sum_map_concat, show QuotaClient.holds u ⟨userId, .idle, false⟩ = 0 from
      if_neg fun h => by cases h.2]
    exact Int.add_zero _
  have hspare : ∀ u, (s.start userId).spare u = s.spare u := by
    intro u
    rw [QuotaState.spare, QuotaState.start, Tally.sum_map_concat, show QuotaClient.spares u ⟨userId, .idle, false⟩ = 0 from
      if_neg fun h => by cases h.2.1]
    exact Int.add_zero _
  refine ⟨⟨h.calls.lock, fun hc hcall => h.calls.own (hget hc hcall) hcall,
    fun h₁ h₂ hc₁ hc₂ => h.calls.distinct (hget h₁ hc₁) (hget h₂ hc₂) hc₁ hc₂⟩, fun u => ?_⟩
  obtain ⟨hpending, hlimited, hcounting, hrules, hports⟩ := h.users u
  refine ⟨by rw [hheld]; exact hpending, fun k c hc hu hcall => ?_, fun k c hc hu i p r q hstage => ?_,
    by rw [hspare]; exact hrules, by rw [hspare]; exact hports⟩
  · obtain ⟨i, hi⟩ := Option.isSome_iff_exists.mp hcall
    exact hlimited k c (hget hc hi) hu hcall
  · have hcall : c.stage.call = some i := by rw [hstage]; rfl
    obtain ⟨hp, hr, hq⟩ := hcounting k c (hget hc hcall) hu i p r q hstage
    exact ⟨hp, by rw [hspare, hheld]; exact hr, by rw [hspare, hheld]; exact hq⟩

theorem UserOk.unlimited (h : UserOk limits base rules s u) (hk : s.clients[k]? = some c)
    (ht : t.clients = s.clients.set k d) (hlook : t.pendingByUser = s.pendingByUser) (hl : (limits u).Unlimited)
    (hcall : d.stage.call = none) : UserOk limits base rules t u := by
  obtain ⟨hr, hp⟩ := hl
  refine h.replace hk ht ?_ (fun _ _ _ _ _ _ hnot => absurd ⟨hr, hp⟩ hnot) (fun _ hsome => ?_)
    (fun _ i p r q hstage => ?_) (fun hpos => absurd hr (Int.ne_of_gt hpos)) fun hpos => absurd hp (Int.ne_of_gt hpos)
  · rw [hlook, h.pending, expected, expected, if_pos (Or.inl ⟨hr, hp⟩), if_pos (Or.inl ⟨hr, hp⟩)]
  · rw [hcall] at hsome
    cases hsome
  · rw [hstage] at hcall
    cases hcall

theorem QuotaState.Inv.quiet (h : s.Inv limits base rules) (hk : s.clients[k]? = some c)
    (ht : t.clients = s.clients.set k d) (huser : d.userId = c.userId) (hlook : t.pendingByUser = s.pendingByUser)
    (hheld : c.stage.held = false) (hheld' : d.stage.held = false)
    (hlimited : d.stage.call.isSome = true → ¬ (limits c.userId).Unlimited)
    (hown : ∀ i p r q, d.stage = .counting i p r q →
      p = s.pendingOf c.userId ∧ r = ruleCount rules c.userId ∧ q = portCount rules c.userId) (u : Int) :
    UserOk limits base rules t u := by
  have hholds : ∀ x : QuotaClient, x.stage.held = false → x.holds u = 0 ∧ x.spares u = 0 := by
    intro x hd
    have hz : x.holds u = 0 := if_neg fun h => by rw [hd] at h; cases h.2
    have hle := spares_le u x
    have hge := spares_nonneg u x
    exact ⟨hz, by omega⟩
  refine (h.users u).same hk ht (by rw [hlook]) ((hholds d hheld').1.trans (hholds c hheld).1.symm)
    ((hholds d hheld').2.trans (hholds c hheld).2.symm) rfl rfl (fun hu => ?_) fun hu i p r q hstage => ?_
  · rw [← hu, huser]
    exact hlimited
  · rw [huser] at hu
    obtain ⟨rfl, rfl, rfl⟩ := hown i p r q hstage
    rw [hu]
    have hle := spare_le_held t u
    exact ⟨by rw [QuotaState.pendingOf, QuotaState.pendingOf, hlook], by omega, by omega⟩

theorem quotaError_none {l : Limits} {ruleCount portCount : Int} {p : PendingQuota}
    (h : quotaError l ruleCount portCount p = none) :
    (0 < l.rules → ruleCount + p.rules < l.rules) ∧ (0 < l.ports → portCount + p.ports < l.ports) := by
  unfold quotaError at h
  by_cases hrules : 0 < l.rules ∧ l.rules ≤ ruleCount + p.rules
  · rw [if_pos hrules] at h
    cases h
  · rw [if_neg hrules] at h
    by_cases hports : 0 < l.ports ∧ l.ports ≤ portCount + p.ports
    · rw [if_pos hports] at h
      cases h
    · exact ⟨fun hpos => Int.lt_of_not_ge fun hge => hrules ⟨hpos, hge⟩,
        fun hpos => Int.lt_of_not_ge fun hge => hports ⟨hpos, hge⟩⟩

theorem UserOk.grant (h : UserOk limits base rules s c.userId) (hcalls : s.Calls) {i : Nat} {p : PendingQuota} {r q : Nat}
    (hk : s.clients[k]? = some c) (hstage : c.stage = .counting i p r q) (hrun : HasCall s.lock i (quotaKey c.userId) true)
    (ht : t.clients = s.clients.set k { c with stage := .granted })
    (hpend : t.pendingByUser = put s.pendingByUser c.userId
      ⟨p.rules + (limits c.userId).one.rules, p.ports + (limits c.userId).one.ports⟩)
    {ruleCount' portCount' : Int} (hreflects : Reflects (limits c.userId) r q (some (ruleCount', portCount')))
    (herror : quotaError (limits c.userId) (if 0 < (limits c.userId).rules then ruleCount' else 0)
      (if 0 < (limits c.userId).ports then portCount' else 0) p = none) :
    UserOk limits base rules t c.userId := by
  have hcall : c.stage.call = some i := by rw [hstage]; rfl
  have hlimited := h.limited k c hk rfl (by rw [hcall]; rfl)
  obtain ⟨hp, hr, hq⟩ := h.counting k c hk rfl i p r q hstage
  have hpending := hp.trans (h.pendingOf hlimited)
  have hheld : t.held c.userId = s.held c.userId + 1 := by
    rw [held_set hk ht, QuotaClient.holds, QuotaClient.holds, if_pos ⟨rfl, rfl⟩,
      if_neg fun h => by rw [hstage] at h; cases h.2]
    omega
  have hspare : t.spare c.userId ≤ s.spare c.userId + 1 := by
    have hle := spares_le c.userId { c with stage := .granted }
    have hge := spares_nonneg c.userId c
    have hone : QuotaClient.holds c.userId { c with stage := .granted } = 1 := if_pos ⟨rfl, rfl⟩
    rw [spare_set hk ht]
    omega
  have hnonneg := held_nonneg s c.userId
  obtain ⟨hleast, hleast'⟩ := hreflects _ rfl
  obtain ⟨hroom, hroom'⟩ := quotaError_none herror
  refine h.replace hk ht ?_ (fun k' d hne hd hu hcounts _ => absurd (hcalls.alone hk hcall hrun hd hu hcounts) hne)
    (fun _ _ => hlimited) (fun _ _ _ _ _ hs => by cases hs) (fun hpos _ => ?_) fun hpos _ => ?_
  · rw [hpend, lookup_put_self, expected, if_neg (not_or.mpr ⟨hlimited, by omega⟩), hheld, hpending, Int.add_mul,
      Int.add_mul, Int.one_mul, Int.one_mul]
  · have hle := hleast hpos
    have hlt := hroom hpos
    have hone : p.rules = s.held c.userId := by
      rw [hpending, Limits.one, if_pos hpos, Int.mul_one]
    rw [if_pos hpos, hone] at hlt
    have hle : (r : Int) ≤ ruleCount' := hle
    omega
  · have hle := hleast' hpos
    have hlt := hroom' hpos
    have hone : p.ports = s.held c.userId := by
      rw [hpending, Limits.one, if_pos hpos, Int.mul_one]
    rw [if_pos hpos, hone] at hlt
    have hle : (q : Int) ≤ portCount' := hle
    omega

theorem UserOk.giveUp (h : UserOk limits base rules s c.userId) (hk : s.clients[k]? = some c) (hstage : c.stage = .granted)
    {i : Nat} (hlimited : ¬ (limits c.userId).Unlimited) (ht : t.clients = s.clients.set k { c with stage := .releasing i })
    (hpend : t.pendingByUser = s.pendingByUser) : UserOk limits base rules t c.userId := by
  have hheld : t.held c.userId = s.held c.userId := by
    rw [held_set hk ht, QuotaClient.holds, QuotaClient.holds, if_pos ⟨rfl, rfl⟩, if_pos ⟨rfl, by rw [hstage]; rfl⟩]
    omega
  have hspare : t.spare c.userId ≤ s.spare c.userId := by
    have hge := spares_nonneg c.userId c
    have hzero : QuotaClient.spares c.userId { c with stage := .releasing i } = 0 := if_neg fun h => by cases h.2.1
    rw [spare_set hk ht]
    omega
  refine h.replace hk ht (by rw [hpend, h.pending, hheld]) (fun _ _ _ _ _ _ _ => ⟨?_, by omega, by omega⟩)
    (fun _ _ => hlimited) (fun _ _ _ _ _ hs => by cases hs) (fun _ hle => by omega) fun _ hle => by omega
  rw [QuotaState.pendingOf, QuotaState.pendingOf, hpend]

theorem one_nonneg (l : Limits) : 0 ≤ l.one.rules ∧ 0 ≤ l.one.ports := by
  constructor
  · show (0 : Int) ≤ if 0 < l.rules then 1 else 0
    split <;> omega
  · show (0 : Int) ≤ if 0 < l.ports then 1 else 0
    split <;> omega

theorem one_pos {l : Limits} (h : ¬ l.Unlimited) : 0 < l.one.rules ∨ 0 < l.one.ports := by
  have hr : 0 ≤ l.rules := Int.le_max_left _ _
  have hp : 0 ≤ l.ports := Int.le_max_left _ _
  by_cases hrules : 0 < l.rules
  · left
    rw [Limits.one, if_pos hrules]
    exact Int.one_pos
  · by_cases hports : 0 < l.ports
    · right
      rw [Limits.one, if_pos hports]
      exact Int.one_pos
    · exact absurd ⟨by omega, by omega⟩ h

theorem dropPending_lookup (pendingByUser : List (Int × PendingQuota)) (userId : Int) (l : Limits) {n : Int} (hn : 0 < n)
    (hl : ¬ l.Unlimited) (h : pendingByUser.lookup userId = expected l n) :
    (dropPending pendingByUser userId l).lookup userId = expected l (n - 1) := by
  obtain ⟨hr, hp⟩ := one_nonneg l
  rw [expected, if_neg (not_or.mpr ⟨hl, by omega⟩)] at h
  have hless : ∀ m : Int, 0 ≤ m → max 0 (n * m - m) = (n - 1) * m := by
    intro m hm
    rw [Int.sub_mul, Int.one_mul, ← Int.one_mul m, ← Int.mul_assoc, Int.mul_one]
    refine Int.max_eq_right ?_
    have := Int.mul_le_mul_of_nonneg_right (show (1 : Int) ≤ n by omega) hm
    omega
  simp only [dropPending, h, hless _ hr, hless _ hp]
  by_cases hzero : n - 1 = 0
  · rw [hzero, Int.zero_mul, Int.zero_mul, if_pos ⟨rfl, rfl⟩, lookup_erase_self, expected, if_pos (Or.inr rfl)]
  · rw [if_neg, lookup_put_self, expected, if_neg (not_or.mpr ⟨hl, hzero⟩)]
    rintro ⟨hr0, hp0⟩
    rcases one_pos hl with hpos | hpos
    · have := Int.mul_pos (show 0 < n - 1 by omega) hpos
      omega
    · have := Int.mul_pos (show 0 < n - 1 by omega) hpos
      omega

theorem dropPending_other (pendingByUser : List (Int × PendingQuota)) {userId u : Int} (l : Limits) (hu : u ≠ userId) :
    (dropPending pendingByUser userId l).lookup u = pendingByUser.lookup u := by
  unfold dropPending
  cases pendingByUser.lookup userId with
  | none => rfl
  | some current =>
    dsimp only
    split
    · exact lookup_erase_ne _ hu
    · exact lookup_put_ne _ hu _

theorem UserOk.drop (h : UserOk limits base rules s c.userId) (hcalls : s.Calls) {i : Nat}
    (hk : s.clients[k]? = some c) (hstage : c.stage = .releasing i) (hrun : HasCall s.lock i (quotaKey c.userId) true)
    (ht : t.clients = s.clients.set k { c with stage := .released })
    (hpend : t.pendingByUser = dropPending s.pendingByUser c.userId (limits c.userId)) :
    UserOk limits base rules t c.userId := by
  have hcall : c.stage.call = some i := by rw [hstage]; rfl
  have hlimited := h.limited k c hk rfl (by rw [hcall]; rfl)
  have hone : c.holds c.userId = 1 := if_pos ⟨rfl, by rw [hstage]; rfl⟩
  have hheld : t.held c.userId = s.held c.userId - 1 := by
    rw [held_set hk ht, hone, QuotaClient.holds, if_neg fun h => by cases h.2]
    omega
  have hspare : t.spare c.userId ≤ s.spare c.userId := by
    have hge := spares_nonneg c.userId c
    have hzero : QuotaClient.spares c.userId { c with stage := .released } = 0 := if_neg fun h => by cases h.2.1
    rw [spare_set hk ht]
    omega
  have hpos : 0 < s.held c.userId := by
    have hle := Tally.le_sum_map _ (holds_nonneg c.userId) (List.mem_of_getElem? hk)
    rw [hone] at hle
    exact hle
  refine h.replace hk ht ?_ (fun k' d hne hd hu hcounts _ => absurd (hcalls.alone hk hcall hrun hd hu hcounts) hne)
    (fun _ hs => by cases hs) (fun _ _ _ _ _ hs => by cases hs) (fun _ hle => by omega) fun _ hle => by omega
  rw [hpend, hheld]
  exact dropPending_lookup _ _ _ hpos hlimited h.pending

/-! ### A rule is inserted -/

theorem ruleCount_concat (rules : List Rule) (r : Rule) (u : Int) :
    ruleCount (rules ++ [r]) u = ruleCount rules u + if r.userId = u then 1 else 0 := by
  rw [ruleCount, List.filter_append, List.length_append]
  by_cases hu : r.userId = u
  · rw [if_pos hu, List.filter_cons_of_pos (by simp [hu])]
    rfl
  · rw [if_neg hu, List.filter_cons_of_neg (by simp [hu])]
    rfl

theorem portCount_concat_le (rules : List Rule) (r : Rule) (u : Int) :
    portCount (rules ++ [r]) u ≤ portCount rules u + 1 := by
  have hsub : ((rules ++ [r]).filter (fun r => r.userId == u)).map Rule.sourcePort ⊆
      r.sourcePort :: ((rules.filter (fun r => r.userId == u)).map Rule.sourcePort).dedup := by
    intro port hport
    obtain ⟨x, hx, rfl⟩ := List.mem_map.mp hport
    obtain ⟨hx, hxu⟩ := List.mem_filter.mp hx
    rcases List.mem_append.mp hx with hx | hx
    · exact List.mem_cons_of_mem _ (List.mem_dedup.mpr (List.mem_map.mpr ⟨x, List.mem_filter.mpr ⟨hx, hxu⟩, rfl⟩))
    · rw [List.mem_singleton.mp hx]
      exact List.mem_cons_self
  have hle := ((List.nodup_dedup _).subperm fun port hport => hsub (List.dedup_subset _ hport)).length_le
  rw [List.length_cons] at hle
  exact hle

theorem portCount_concat_other (rules : List Rule) {r : Rule} {u : Int} (hu : r.userId ≠ u) :
    portCount (rules ++ [r]) u = portCount rules u := by
  rw [portCount, List.filter_append, List.filter_cons_of_neg (by simp [hu]), List.filter_nil, List.append_nil, portCount]

theorem QuotaState.Inv.insert (h : s.Inv limits base rules) (hk : s.clients[k]? = some c) (hs : s.insert k = some t)
    (hostId sourcePort : Int) : t.Inv limits base (rules ++ [⟨c.userId, hostId, sourcePort⟩]) := by
  rw [QuotaState.insert, hk, Option.bind_some] at hs
  rw [Option.ite_none_right_eq_some, Option.some.injEq] at hs
  obtain ⟨⟨hstage, hinserted⟩, rfl⟩ := hs
  have hcall : c.stage.call = none := by rw [hstage]; rfl
  have ht : (⟨s.lock, s.pendingByUser, s.clients.set k { c with inserted := true }⟩ : QuotaState).clients =
    s.clients.set k { c with inserted := true } := rfl
  refine ⟨h.calls.same (t := ⟨s.lock, s.pendingByUser, s.clients.set k { c with inserted := true }⟩) hk ht rfl rfl
    (fun i hi => ?_), fun u => ?_⟩
  · have hi : c.stage.call = some i := hi
    rw [hcall] at hi
    cases hi
  · by_cases hu : c.userId = u
    · subst hu
      have hheld : QuotaState.held ⟨s.lock, s.pendingByUser, s.clients.set k { c with inserted := true }⟩ c.userId =
          s.held c.userId := by
        rw [held_set hk ht]
        show s.held c.userId + (c.holds c.userId - c.holds c.userId) = _
        omega
      have hspare : QuotaState.spare ⟨s.lock, s.pendingByUser, s.clients.set k { c with inserted := true }⟩ c.userId =
          s.spare c.userId - 1 := by
        rw [spare_set hk ht, show c.spares c.userId = 1 from if_pos ⟨rfl, hstage, hinserted⟩,
          show QuotaClient.spares c.userId { c with inserted := true } = 0 from if_neg fun h => by cases h.2.2]
        omega
      have hcount := ruleCount_concat rules ⟨c.userId, hostId, sourcePort⟩ c.userId
      rw [if_pos rfl] at hcount
      have hports := portCount_concat_le rules ⟨c.userId, hostId, sourcePort⟩ c.userId
      refine (h.users c.userId).replace hk ht ?_ (fun _ _ _ _ _ _ _ => ⟨rfl, by omega, by omega⟩) (fun _ hsome => ?_)
        (fun _ i p r q hstage' => ?_) (fun _ hle => by omega) fun _ hle => by omega
      · rw [hheld]
        exact (h.users c.userId).pending
      · have hsome : c.stage.call.isSome = true := hsome
        rw [hcall] at hsome
        cases hsome
      · have hstage' : c.stage = .counting i p r q := hstage'
        rw [hstage] at hstage'
        cases hstage'
    · refine (h.users u).other hk ht rfl hu rfl ?_ (portCount_concat_other rules hu)
      rw [ruleCount_concat, if_neg hu, Nat.add_zero]

/-! ### Every other step -/

theorem QuotaState.Inv.moved (h : s.Inv limits base rules) (hcalls : t.Calls) (hclients : t.clients = s.clients)
    (hpend : t.pendingByUser = s.pendingByUser) : t.Inv limits base rules := by
  refine ⟨hcalls, fun u => ?_⟩
  obtain ⟨hpending, hlimited, hcounting, hrules, hports⟩ := h.users u
  have hheld : t.held u = s.held u := by rw [QuotaState.held, hclients, QuotaState.held]
  have hspare : t.spare u = s.spare u := by rw [QuotaState.spare, hclients, QuotaState.spare]
  refine ⟨by rw [hpend, hheld]; exact hpending, by rw [hclients]; exact hlimited, fun k c hc hu i p r q hstage => ?_,
    by rw [hspare]; exact hrules, by rw [hspare]; exact hports⟩
  rw [hclients] at hc
  obtain ⟨hp, hr, hq⟩ := hcounting k c hc hu i p r q hstage
  exact ⟨by rw [QuotaState.pendingOf, hpend]; exact hp, by rw [hspare, hheld]; exact hr, by rw [hspare, hheld]; exact hq⟩

theorem QuotaState.Inv.exempt (h : s.Inv limits base rules) (hk : s.clients[k]? = some c)
    (hl : (limits c.userId).Unlimited) {stage : QuotaStage} (hcall : stage.call = none) :
    (s.toStage k c stage).Inv limits base rules := by
  refine ⟨h.calls.same (d := { c with stage := stage }) hk rfl rfl rfl (fun i hi => ?_), fun u => ?_⟩
  · cases hcall.symm.trans hi
  · by_cases hu : c.userId = u
    · exact (h.users u).unlimited (d := { c with stage := stage }) hk rfl rfl (hu ▸ hl) hcall
    · exact (h.users u).other (d := { c with stage := stage }) hk rfl rfl hu rfl rfl rfl

theorem QuotaState.Inv.reserve (h : s.Inv limits base rules) (hk : s.clients[k]? = some c) (hstage : c.stage = .idle) :
    (s.reserveRuleCreateQuota (limits c.userId) k c).Inv limits base rules := by
  unfold QuotaState.reserveRuleCreateQuota
  by_cases hl : (limits c.userId).Unlimited
  · rw [if_pos hl]
    exact h.exempt hk hl rfl
  · rw [if_neg hl]
    obtain ⟨lock, hlock⟩ : ∃ lock, lock = s.lock.withKeyedTaskLock (quotaKey c.userId) [] := ⟨_, rfl⟩
    rw [← hlock]
    exact ⟨h.calls.ask (t := { s.toStage k c (.waiting s.lock.calls.length) with lock := lock })
        (d := { c with stage := .waiting s.lock.calls.length }) hk rfl hlock rfl rfl rfl,
      h.quiet (d := { c with stage := .waiting s.lock.calls.length }) hk rfl rfl rfl (by rw [hstage]; rfl) rfl
        (fun _ => hl) (fun _ _ _ _ hs => by cases hs)⟩

theorem QuotaState.Inv.release (h : s.Inv limits base rules) (hk : s.clients[k]? = some c) :
    (s.release (limits c.userId) k c).Inv limits base rules := by
  unfold QuotaState.release
  by_cases hstage : c.stage = .granted
  · rw [if_pos hstage]
    by_cases hl : (limits c.userId).Unlimited
    · rw [if_pos hl]
      exact h.exempt hk hl rfl
    · rw [if_neg hl]
      obtain ⟨lock, hlock⟩ : ∃ lock, lock = s.lock.withKeyedTaskLock (quotaKey c.userId) [] := ⟨_, rfl⟩
      rw [← hlock]
      refine ⟨h.calls.ask (t := { s.toStage k c (.releasing s.lock.calls.length) with lock := lock })
        (d := { c with stage := .releasing s.lock.calls.length }) hk rfl hlock rfl rfl rfl, fun u => ?_⟩
      by_cases hu : c.userId = u
      · subst hu
        exact (h.users c.userId).giveUp hk hstage hl rfl rfl
      · exact (h.users u).other (d := { c with stage := .releasing s.lock.calls.length }) hk rfl rfl hu rfl rfl rfl
  · rw [if_neg hstage]
    exact h

theorem QuotaState.Calls.running (h : s.Calls) (hk : s.clients[k]? = some c) {i : Nat} (hcall : c.stage.call = some i)
    (hactive : s.lock.calls[i]?.any Call.active = true) : HasCall s.lock i (quotaKey c.userId) true := by
  obtain ⟨x, hx, hkey, hset, _⟩ := h.own hk hcall
  rw [hx, Option.any_some, Call.active, Bool.and_eq_true, beq_iff_eq] at hactive
  exact ⟨x, hx, hkey, hset, fun _ => hactive.1⟩

theorem QuotaState.Inv.counted (h : s.Inv limits base rules) (hk : s.clients[k]? = some c) {i : Nat} {p : PendingQuota}
    {r q : Nat} (hstage : c.stage = .counting i p r q) {counts : Option (Int × Int)}
    (hreflects : Reflects (limits c.userId) r q counts) {lock : State}
    (hlock : KeyedTaskLock.step s.lock (.settle i counts.isNone) = some lock) :
    QuotaState.Inv limits base rules { s.counted (limits c.userId) k c p counts with lock := lock } := by
  have hcall : c.stage.call = some i := by rw [hstage]; rfl
  have hfree : c.stage.held = false := by rw [hstage]; rfl
  -- a creator that is refused holds nothing
  have hrefused : ∀ error, QuotaState.Inv limits base rules { s.toStage k c (.refused error) with lock := lock } := by
    intro error
    exact ⟨(h.calls.settle (t := { s.toStage k c (.refused error) with lock := lock })
        (d := { c with stage := .refused error }) hk hcall rfl hlock rfl).1,
      h.quiet (d := { c with stage := .refused error }) hk rfl rfl rfl hfree rfl (fun hs => by cases hs)
        (fun _ _ _ _ hs => by cases hs)⟩
  unfold QuotaState.counted
  cases counts with
  | none => exact hrefused none
  | some counts =>
    obtain ⟨ruleCount', portCount'⟩ := counts
    dsimp only
    cases herror : quotaError (limits c.userId) (if 0 < (limits c.userId).rules then ruleCount' else 0)
      (if 0 < (limits c.userId).ports then portCount' else 0) p with
    | some error => exact hrefused (some error)
    | none =>
      obtain ⟨hcalls, hrun⟩ := h.calls.settle (t := { s.toStage k c .granted with
          lock := lock, pendingByUser := put s.pendingByUser c.userId
            ⟨p.rules + (limits c.userId).one.rules, p.ports + (limits c.userId).one.ports⟩ })
        (d := { c with stage := .granted }) hk hcall rfl hlock rfl
      refine ⟨hcalls, fun u => ?_⟩
      by_cases hu : c.userId = u
      · subst hu
        exact (h.users c.userId).grant h.calls hk hstage hrun rfl rfl hreflects herror
      · exact (h.users u).other (d := { c with stage := .granted }) hk rfl rfl hu (lookup_put_ne _ (Ne.symm hu) _) rfl rfl

theorem QuotaState.Inv.step (h : s.Inv limits base rules) {a : QuotaAction} (hs : s.step limits rules a = some t) :
    t.Inv limits base rules := by
  cases a with
  | reserve k =>
    obtain ⟨c, hk, hstage, rfl⟩ := Transition.bind_ite_eq_some.mp hs
    exact h.reserve hk hstage
  | count k =>
    obtain ⟨c, hk, hs⟩ := Option.bind_eq_some_iff.mp hs
    cases hstage : c.stage with
    | waiting i =>
      simp only [hstage, Option.ite_none_right_eq_some, Option.some.injEq] at hs
      obtain ⟨hactive, rfl⟩ := hs
      have hcall : c.stage.call = some i := by rw [hstage]; rfl
      have hlimited := (h.users c.userId).limited k c hk rfl (by rw [hcall]; rfl)
      have hd : s.toStage k c (.counting i (s.pendingOf c.userId) (ruleCount rules c.userId) (portCount rules c.userId)) =
        { s with clients := s.clients.set k ⟨c.userId, .counting i (s.pendingOf c.userId) (ruleCount rules c.userId)
          (portCount rules c.userId), c.inserted⟩ } := rfl
      rw [hd]
      refine ⟨h.calls.same hk rfl rfl rfl (fun j hj => ?_), h.quiet hk rfl rfl rfl (by rw [hstage]; rfl) rfl
        (fun _ => hlimited) (fun j p r q hs => ?_)⟩
      · obtain rfl := Option.some.inj hj
        exact ⟨hcall, h.calls.running hk hcall hactive⟩
      · cases hs
        exact ⟨rfl, rfl, rfl⟩
    | _ =>
      simp only [hstage] at hs
      cases hs
  | counted k counts =>
    obtain ⟨c, hk, hs⟩ := Option.bind_eq_some_iff.mp hs
    cases hstage : c.stage with
    | counting i p r q =>
      simp only [hstage, Option.ite_none_right_eq_some] at hs
      obtain ⟨hreflects, hs⟩ := hs
      obtain ⟨lock, hlock, rfl⟩ := Option.map_eq_some_iff.mp hs
      exact h.counted hk hstage hreflects hlock
    | _ =>
      simp only [hstage] at hs
      cases hs
  | release k =>
    obtain ⟨c, hk, _, rfl⟩ := Transition.bind_ite_eq_some.mp hs
    exact h.release hk
  | drop k =>
    obtain ⟨c, hk, hs⟩ := Option.bind_eq_some_iff.mp hs
    cases hstage : c.stage with
    | releasing i =>
      simp only [hstage] at hs
      obtain ⟨lock, hlock, rfl⟩ := Option.map_eq_some_iff.mp hs
      have hcall : c.stage.call = some i := by rw [hstage]; rfl
      obtain ⟨hcalls, hrun⟩ := h.calls.settle (t := { s.toStage k c .released with
          lock := lock, pendingByUser := dropPending s.pendingByUser c.userId (limits c.userId) })
        (d := { c with stage := .released }) hk hcall rfl hlock rfl
      refine ⟨hcalls, fun u => ?_⟩
      by_cases hu : c.userId = u
      · subst hu
        exact (h.users c.userId).drop h.calls hk hstage hrun rfl rfl
      · exact (h.users u).other (d := { c with stage := .released }) hk rfl rfl hu
          (dropPending_other _ _ (Ne.symm hu)) rfl rfl
    | _ =>
      simp only [hstage] at hs
      cases hs
  | proceed i =>
    obtain ⟨lock, hlock, rfl⟩ := Option.map_eq_some_iff.mp hs
    obtain ⟨hok, hkeep⟩ := h.calls.lock.proceed hlock
    exact h.moved (h.calls.move rfl hok hkeep) rfl rfl
  | leave i =>
    obtain ⟨lock, hlock, rfl⟩ := Option.map_eq_some_iff.mp hs
    obtain ⟨hok, hkeep⟩ := h.calls.lock.leave hlock
    exact h.moved (h.calls.move rfl hok hkeep) rfl rfl

end

end ForwardX.Panel.RuleQuota
