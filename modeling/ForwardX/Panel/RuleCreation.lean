import ForwardX.Panel.RuleQuotaInvariant
import ForwardX.Panel.HostPorts

/- Creators of rules: each asks for a reservation of its user's quota and for a port of its host, in
   any order and beside the others, inserts at most one rule while it holds both, and releases
   both. No interleaving takes a user past a limit or gives a port of a host to two rules. -/
namespace ForwardX.Panel.RuleCreation
open Transition Assoc
open RuleQuota HostPorts

/-! ## The ports that are reserved -/

/-- A port that no rule uses: it was found free, or it is held for a rule to come. -/
def vacant (c : PortClient) : Option HostPortReservation :=
  match c.stage with
  | .checking _ r false => some r
  | .held r => if c.inserted then none else some r
  | _ => none

def listener (r : Rule) : Int × Int := (r.hostId, r.sourcePort)

section
variable {base rules : List Rule} {s t : PortState} {k : Nat} {c d : PortClient}

structure PortState.Inv (base rules : List Rule) (s : PortState) : Prop where
  wellFormed : WellFormed s.reservations
  /-- A reservation that is live is what the registry holds for its port. -/
  live : ∀ (k : Nat) (c : PortClient) (r : HostPortReservation), s.clients[k]? = some c → c.stage.live = some r →
    holderAt s.reservations r.hostId r.port = some [⟨r.token, r.protocol⟩] ∧ r.token < s.nextToken
  tokens : ∀ (k k' : Nat) (c c' : PortClient) (r r' : HostPortReservation), s.clients[k]? = some c →
    s.clients[k']? = some c' → c.stage.live = some r → c'.stage.live = some r' → r.token = r'.token → k = k'
  sound : ∀ hostId port entries, holderAt s.reservations hostId port = some entries →
    ∃ (k : Nat) (c : PortClient) (r : HostPortReservation), s.clients[k]? = some c ∧ c.stage.live = some r ∧
      r.hostId = hostId ∧ r.port = port
  free : ∀ (k : Nat) (c : PortClient) (r : HostPortReservation), s.clients[k]? = some c → vacant c = some r →
    ∀ rule ∈ rules, listener rule ≠ (r.hostId, r.port)
  once : (base.map listener).Nodup → (rules.map listener).Nodup

variable {r : HostPortReservation}

theorem live_of_vacant (h : vacant c = some r) : c.stage.live = some r := by
  unfold vacant at h
  cases hstage : c.stage with
  | checking attempt r' used =>
    cases used with
    | true => simp [hstage] at h
    | false => simpa [hstage, PortStage.live] using h
  | held r' =>
    cases hins : c.inserted with
    | true => simp [hstage, hins] at h
    | false => simpa [hstage, hins, PortStage.live] using h
  | _ => simp [hstage] at h

theorem PortState.Inv.distinct (h : PortState.Inv base rules s) {k k' : Nat} {c c' : PortClient} {r r' : HostPortReservation}
    (hk : s.clients[k]? = some c) (hk' : s.clients[k']? = some c') (hr : c.stage.live = some r)
    (hr' : c'.stage.live = some r') (hhost : r.hostId = r'.hostId) (hport : r.port = r'.port) : k = k' := by
  have hheld := (h.live k c r hk hr).1
  have hheld' := (h.live k' c' r' hk' hr').1
  rw [hhost, hport, hheld'] at hheld
  refine h.tokens k k' c c' r r' hk hk' hr hr' ?_
  have := List.singleton_inj.mp (Option.some.inj hheld)
  exact (congrArg ReservationEntry.token this).symm

theorem get_set {α : Type} {l : List α} {k k' : Nat} {c d x : α} (hk : l[k]? = some c) (hx : (l.set k d)[k']? = some x) :
    (k' = k ∧ x = d) ∨ (k' ≠ k ∧ l[k']? = some x) := by
  by_cases hkk : k' = k
  · rw [hkk, List.getElem?_set_self (List.getElem?_eq_some_iff.mp hk).1] at hx
    exact Or.inl ⟨hkk, (Option.some.inj hx).symm⟩
  · rw [List.getElem?_set_ne (Ne.symm hkk)] at hx
    exact Or.inr ⟨hkk, hx⟩

theorem PortState.Inv.keep (h : PortState.Inv base rules s) (hk : s.clients[k]? = some c)
    (ht : t.clients = s.clients.set k d) (hres : t.reservations = s.reservations) (hnext : t.nextToken = s.nextToken)
    (hlive : d.stage.live = c.stage.live)
    (hvacant : ∀ r, vacant d = some r → vacant c = some r) : PortState.Inv base rules t := by
  have hget : ∀ {k' : Nat} {x : PortClient}, t.clients[k']? = some x →
      ∃ y, s.clients[k']? = some y ∧ x.stage.live = y.stage.live ∧ ∀ r, vacant x = some r → vacant y = some r := by
    intro k' x hx
    rw [ht] at hx
    rcases get_set hk hx with ⟨rfl, rfl⟩ | ⟨_, hx⟩
    · exact ⟨c, hk, hlive, hvacant⟩
    · exact ⟨x, hx, rfl, fun _ => id⟩
  refine ⟨hres ▸ h.wellFormed, fun k' x r hx hr => ?_, fun k₁ k₂ x₁ x₂ r₁ r₂ h₁ h₂ hr₁ hr₂ htok => ?_,
    fun a b entries hentries => ?_, fun k' x r hx hr => ?_, h.once⟩
  · obtain ⟨y, hy, hxy, _⟩ := hget hx
    rw [hres, hnext]
    exact h.live k' y r hy (hxy ▸ hr)
  · obtain ⟨y₁, hy₁, hxy₁, _⟩ := hget h₁
    obtain ⟨y₂, hy₂, hxy₂, _⟩ := hget h₂
    exact h.tokens k₁ k₂ y₁ y₂ r₁ r₂ hy₁ hy₂ (hxy₁ ▸ hr₁) (hxy₂ ▸ hr₂) htok
  · rw [hres] at hentries
    obtain ⟨k', x, r, hx, hr, hab⟩ := h.sound a b entries hentries
    by_cases hkk : k' = k
    · subst hkk
      obtain rfl := Option.some.inj (hk.symm.trans hx)
      exact ⟨k', d, r, by rw [ht, List.getElem?_set_self (List.getElem?_eq_some_iff.mp hk).1], hlive.trans hr, hab⟩
    · exact ⟨k', x, r, by rw [ht, List.getElem?_set_ne (Ne.symm hkk), hx], hr, hab⟩
  · obtain ⟨y, hy, _, hxy⟩ := hget hx
    exact h.free k' y r hy (hxy r hr)

theorem PortState.Inv.take (h : PortState.Inv base rules s) (hk : s.clients[k]? = some c) (hnone : c.stage.live = none)
    {hostId port : Int} {taken : Registry × HostPortReservation}
    (htake : tryReserveHostPort s.reservations s.nextToken hostId port c.protocol = some taken) (attempt : Option Nat) :
    PortState.Inv base rules (s.check rules k c attempt taken) := by
  obtain ⟨hwf, htoken, hfree, hview⟩ := tryReserve_spec h.wellFormed htake
  have hprotocol : taken.2.protocol = c.protocol := by
    unfold tryReserveHostPort at htake
    simp only [Option.ite_none_left_eq_some, Option.some.injEq] at htake
    obtain ⟨_, _, rfl⟩ := htake
    rfl
  have hlt := (List.getElem?_eq_some_iff.mp hk).1
  -- the other reservations are for other ports
  have hother : ∀ (k' : Nat) (x : PortClient) (r : HostPortReservation), s.clients[k']? = some x → x.stage.live = some r →
      holderAt taken.1 r.hostId r.port = some [⟨r.token, r.protocol⟩] ∧ r.token < s.nextToken := by
    intro k' x r hx hr
    obtain ⟨hheld, hless⟩ := h.live k' x r hx hr
    refine ⟨?_, hless⟩
    rw [hview, if_neg, hheld]
    rintro ⟨ha, hb⟩
    rw [ha, hb, hfree] at hheld
    cases hheld
  refine ⟨hwf, fun k' x r hx hr => ?_, fun k₁ k₂ x₁ x₂ r₁ r₂ h₁ h₂ hr₁ hr₂ htok => ?_, fun a b entries hentries => ?_,
    fun k' x r hx hr => ?_, h.once⟩
  · rcases get_set hk hx with ⟨_, rfl⟩ | ⟨_, hx⟩
    · obtain rfl := Option.some.inj hr
      refine ⟨?_, htoken ▸ Nat.lt_succ_self _⟩
      show holderAt taken.1 taken.2.hostId taken.2.port = _
      rw [hview, if_pos ⟨rfl, rfl⟩, htoken, hprotocol]
    · obtain ⟨hheld, hless⟩ := hother k' x r hx hr
      exact ⟨hheld, Nat.lt_succ_of_lt hless⟩
  · rcases get_set hk h₁ with ⟨rfl, rfl⟩ | ⟨_, g₁⟩
    · rcases get_set hk h₂ with ⟨rfl, rfl⟩ | ⟨_, g₂⟩
      · rfl
      · obtain rfl := Option.some.inj hr₁
        have hless := (h.live k₂ x₂ r₂ g₂ hr₂).2
        rw [← htok, htoken] at hless
        exact absurd hless (Nat.lt_irrefl _)
    · rcases get_set hk h₂ with ⟨rfl, rfl⟩ | ⟨_, g₂⟩
      · obtain rfl := Option.some.inj hr₂
        have hless := (h.live k₁ x₁ r₁ g₁ hr₁).2
        rw [htok, htoken] at hless
        exact absurd hless (Nat.lt_irrefl _)
      · exact h.tokens k₁ k₂ x₁ x₂ r₁ r₂ g₁ g₂ hr₁ hr₂ htok
  · have hentries : holderAt taken.1 a b = some entries := hentries
    rw [hview] at hentries
    by_cases hab : a = taken.2.hostId ∧ b = taken.2.port
    · exact ⟨k, _, taken.2, List.getElem?_set_self hlt, rfl, hab.1.symm, hab.2.symm⟩
    · rw [if_neg hab] at hentries
      obtain ⟨k', x, r, hx, hr, hxab⟩ := h.sound a b entries hentries
      have hkk : k ≠ k' := by
        rintro rfl
        obtain rfl := Option.some.inj (hk.symm.trans hx)
        rw [hnone] at hr
        cases hr
      exact ⟨k', x, r, (List.getElem?_set_ne hkk).trans hx, hr, hxab⟩
  · rcases get_set hk hx with ⟨_, rfl⟩ | ⟨_, hx⟩
    · -- it was told that no rule uses the port, if it is vacant
      cases hused : usedBy rules taken.2.hostId taken.2.port with
      | true => simp [vacant, hused] at hr
      | false =>
        simp only [vacant, hused, Option.some.injEq] at hr
        intro rule hrule hsame
        have hnot := List.any_eq_false.mp hused rule hrule
        rw [← hr] at hsame
        obtain ⟨ha, hb⟩ := Prod.mk.inj hsame
        simp [ha, hb] at hnot
    · exact h.free k' x r hx hr

theorem PortState.Inv.giveBack (h : PortState.Inv base rules s) (hk : s.clients[k]? = some c)
    (hr : c.stage.live = some r) (ht : t.clients = s.clients.set k d) (hres : t.reservations = release s.reservations r)
    (hnext : t.nextToken = s.nextToken) (hnone : d.stage.live = none) : PortState.Inv base rules t := by
  obtain ⟨hwf, hview⟩ := release_spec h.wellFormed (h.live k c r hk hr).1
  have hget : ∀ {k' : Nat} {x : PortClient} {r' : HostPortReservation}, t.clients[k']? = some x → x.stage.live = some r' →
      k' ≠ k ∧ s.clients[k']? = some x := by
    intro k' x r' hx hr'
    rw [ht] at hx
    rcases get_set hk hx with ⟨_, rfl⟩ | hx
    · rw [hnone] at hr'
      cases hr'
    · exact hx
  refine ⟨hres ▸ hwf, fun k' x r' hx hr' => ?_, fun k₁ k₂ x₁ x₂ r₁ r₂ h₁ h₂ hr₁ hr₂ htok => ?_,
    fun a b entries hentries => ?_, fun k' x r' hx hr' => ?_, h.once⟩
  · obtain ⟨hkk, hx⟩ := hget hx hr'
    obtain ⟨hheld, hless⟩ := h.live k' x r' hx hr'
    rw [hres, hnext, hview, if_neg]
    · exact ⟨hheld, hless⟩
    · rintro ⟨ha, hb⟩
      exact hkk (h.distinct hx hk hr' hr ha hb)
  · exact h.tokens k₁ k₂ x₁ x₂ r₁ r₂ (hget h₁ hr₁).2 (hget h₂ hr₂).2 hr₁ hr₂ htok
  · rw [hres, hview, Option.ite_none_left_eq_some] at hentries
    obtain ⟨k', x, r', hx, hr', ha, hb⟩ := h.sound a b entries hentries.2
    refine ⟨k', x, r', ?_, hr', ha, hb⟩
    rw [ht, List.getElem?_set_ne, hx]
    rintro rfl
    obtain rfl := Option.some.inj (hk.symm.trans hx)
    obtain rfl := Option.some.inj (hr.symm.trans hr')
    exact hentries.1 ⟨ha.symm, hb.symm⟩
  · exact h.free k' x r' (hget hx (live_of_vacant hr')).2 hr'

theorem PortState.Inv.start (h : PortState.Inv base rules s) (hostId : Int) (protocol : ForwardRuleProtocol)
    (maxAttempts : Option Int) : PortState.Inv base rules (s.start hostId protocol maxAttempts) := by
  have hget : ∀ {k : Nat} {x : PortClient} {r : HostPortReservation},
      (s.clients ++ [⟨hostId, protocol, maxAttempts, .idle, false⟩])[k]? = some x → x.stage.live = some r →
      s.clients[k]? = some x := by
    intro k x r hx hr
    rcases Slots.getElem?_concat_cases hx with ⟨_, rfl⟩ | ⟨_, hx⟩
    · cases hr
    · exact hx
  refine ⟨h.wellFormed, fun k x r hx hr => h.live k x r (hget hx hr) hr,
    fun k₁ k₂ x₁ x₂ r₁ r₂ h₁ h₂ hr₁ hr₂ => h.tokens k₁ k₂ x₁ x₂ r₁ r₂ (hget h₁ hr₁) (hget h₂ hr₂) hr₁ hr₂,
    fun a b entries hentries => ?_, fun k x r hx hr => h.free k x r (hget hx (live_of_vacant hr)) hr, h.once⟩
  obtain ⟨k, x, r, hx, hrest⟩ := h.sound a b entries hentries
  refine ⟨k, x, r, ?_, hrest⟩
  show (s.clients ++ _)[k]? = some x
  rw [List.getElem?_append_left (List.getElem?_eq_some_iff.mp hx).1, hx]

theorem PortState.Inv.idle (h : PortState.Inv base rules s) (hk : s.clients[k]? = some c) (hnone : c.stage.live = none)
    {stage : PortStage} (hstage : stage.live = none) : PortState.Inv base rules (s.toStage k c stage) := by
  refine h.keep (d := { c with stage := stage }) hk rfl rfl rfl (hstage.trans hnone.symm) fun r hr => ?_
  have hlive : stage.live = some r := live_of_vacant hr
  rw [hstage] at hlive
  cases hlive

theorem PortState.Inv.available (h : PortState.Inv base rules s) (hk : s.clients[k]? = some c)
    (hnone : c.stage.live = none) (attempt : Nat) : PortState.Inv base rules (s.reserveAvailableHostPort k c attempt) := by
  unfold PortState.reserveAvailableHostPort
  split
  · exact h.idle hk hnone rfl
  · exact h.idle hk hnone rfl

theorem PortState.Inv.again (h : PortState.Inv base rules s) (hk : s.clients[k]? = some c) (hr : c.stage.live = some r)
    (attempt : Nat) : PortState.Inv base rules
      (PortState.reserveAvailableHostPort { s with reservations := release s.reservations r } k c attempt) := by
  unfold PortState.reserveAvailableHostPort
  split
  · exact h.giveBack (d := { c with
      stage := .finding attempt (reservedHostPorts (release s.reservations r) c.hostId c.protocol) }) hk hr rfl rfl rfl rfl
  · exact h.giveBack (d := { c with stage := .refused }) hk hr rfl rfl rfl rfl

theorem PortState.Inv.step (h : PortState.Inv base rules s) {a : PortAction} (hs : s.step rules a = some t) :
    PortState.Inv base rules t := by
  cases a with
  | reserveSpecific k port =>
    obtain ⟨c, hk, hstage, rfl⟩ := Transition.bind_ite_eq_some.mp hs
    have hnone : c.stage.live = none := by rw [hstage]; rfl
    unfold PortState.reserveSpecificHostPort
    cases htake : tryReserveHostPort s.reservations s.nextToken c.hostId port c.protocol with
    | none => exact h.idle hk hnone rfl
    | some taken => exact h.take hk hnone htake none
  | reserveAvailable k =>
    obtain ⟨c, hk, hstage, rfl⟩ := Transition.bind_ite_eq_some.mp hs
    exact h.available hk (by rw [hstage]; rfl) 0
  | found k result =>
    obtain ⟨c, hk, hs⟩ := Option.bind_eq_some_iff.mp hs
    cases hstage : c.stage with
    | finding attempt reservedPorts =>
      simp only [hstage, Option.some.injEq] at hs
      subst hs
      have hnone : c.stage.live = none := by rw [hstage]; rfl
      unfold PortState.found
      by_cases hzero : (result.bind id).getD 0 = 0
      · simp only [if_pos hzero]
        exact h.idle hk hnone rfl
      · simp only [if_neg hzero]
        cases htake : tryReserveHostPort s.reservations s.nextToken c.hostId ((result.bind id).getD 0) c.protocol with
        | none => exact h.available hk hnone (attempt + 1)
        | some taken => exact h.take hk hnone htake (some attempt)
    | _ =>
      simp only [hstage] at hs
      cases hs
  | checked k result =>
    obtain ⟨c, hk, hs⟩ := Option.bind_eq_some_iff.mp hs
    cases hstage : c.stage with
    | checking attempt r used =>
      simp only [hstage, Option.ite_none_left_eq_some, Option.some.injEq] at hs
      obtain ⟨hreflects, rfl⟩ := hs
      have hr : c.stage.live = some r := by rw [hstage]; rfl
      unfold PortState.checked
      by_cases hfree : result = some false
      · rw [if_pos hfree]
        have hunused : used = false := by
          cases used with
          | false => rfl
          | true => exact absurd ⟨rfl, hfree⟩ hreflects
        refine h.keep (d := { c with stage := .held r }) hk rfl rfl rfl (by rw [hr]; rfl) fun r' hr' => ?_
        have hlive := live_of_vacant hr'
        obtain rfl : r = r' := Option.some.inj hlive
        rw [vacant, hstage, hunused]
      · rw [if_neg hfree]
        have hrefused := h.giveBack (d := { c with stage := .refused })
          (t := { s with reservations := release s.reservations r, clients := s.clients.set k { c with stage := .refused } })
          hk hr rfl rfl rfl rfl
        cases attempt with
        | none => exact hrefused
        | some attempt =>
          cases result with
          | none => exact hrefused
          | some used' => exact h.again hk hr (attempt + 1)
    | _ =>
      simp only [hstage] at hs
      cases hs
  | release k =>
    obtain ⟨c, hk, hs⟩ := Option.bind_eq_some_iff.mp hs
    cases hstage : c.stage with
    | held r =>
      simp only [hstage, Option.some.injEq] at hs
      subst hs
      exact h.giveBack (d := { c with stage := .released }) hk (by rw [hstage]; rfl) rfl rfl rfl rfl
    | released =>
      simp only [hstage, Option.some.injEq] at hs
      exact hs ▸ h
    | _ =>
      simp only [hstage] at hs
      cases hs

theorem PortState.Inv.insert (h : PortState.Inv base rules s) (hs : s.insert k = some (t, r)) (userId : Int) :
    PortState.Inv base (rules ++ [⟨userId, r.hostId, r.port⟩]) t := by
  obtain ⟨c, hk, hs⟩ := Option.bind_eq_some_iff.mp hs
  cases hstage : c.stage with
  | held r' =>
    simp only [hstage, Option.ite_none_right_eq_some, Option.some.injEq, Prod.mk.injEq] at hs
    obtain ⟨hinserted, rfl, rfl⟩ := hs
    have hr : c.stage.live = some r' := by rw [hstage]; rfl
    have hvacant : vacant c = some r' := by
      rw [vacant, hstage, hinserted]
      rfl
    have hgone : vacant ⟨c.hostId, c.protocol, c.maxAttempts, .held r', true⟩ = none := rfl
    have hkept := h.keep (d := ⟨c.hostId, c.protocol, c.maxAttempts, .held r', true⟩)
      (t := { s with clients := s.clients.set k ⟨c.hostId, c.protocol, c.maxAttempts, .held r', true⟩ }) hk rfl rfl rfl
      (by rw [hr]; rfl) (fun r hr' => by rw [hgone] at hr'; cases hr')
    refine ⟨hkept.wellFormed, hkept.live, hkept.tokens, hkept.sound, fun k' x r'' hx hr'' rule hrule => ?_, fun hbase => ?_⟩
    · rcases List.mem_append.mp hrule with hrule | hrule
      · exact hkept.free k' x r'' hx hr'' rule hrule
      · rw [List.mem_singleton.mp hrule]
        intro hsame
        obtain ⟨ha, hb⟩ := Prod.mk.inj hsame
        rcases get_set hk hx with ⟨_, rfl⟩ | ⟨hne, hx⟩
        · rw [hgone] at hr''
          cases hr''
        · exact hne (h.distinct hx hk (live_of_vacant hr'') hr ha.symm hb.symm)
    · rw [List.map_append, List.map_singleton, ← List.concat_eq_append]
      refine (h.once hbase).concat fun hmem => ?_
      obtain ⟨rule, hrule, hsame⟩ := List.mem_map.mp hmem
      exact h.free k c r' hk hvacant rule hrule hsame
  | _ =>
    simp only [hstage] at hs
    cases hs

end

/-! ## The creators -/

/-- Creators `k` of both registries are one creator. -/
structure State where
  quota : QuotaState
  ports : PortState
  rules : List Rule
  deriving DecidableEq

def State.initial (rules : List Rule) : State := ⟨QuotaState.initial, PortState.initial, rules⟩

/-- What can happen: a creator comes; it goes on with its quota, or with its port; it inserts its
rule. -/
inductive Action where
  | start (userId hostId : Int) (protocol : ForwardRuleProtocol) (maxAttempts : Option Int)
  | quota (a : QuotaAction)
  | ports (a : PortAction)
  | insert (k : Nat)

def step (limits : Int → Limits) (s : State) : Action → Option State
  | .start userId hostId protocol maxAttempts =>
    some { s with quota := s.quota.start userId, ports := s.ports.start hostId protocol maxAttempts }
  | .quota a => (s.quota.step limits s.rules a).map fun quota => { s with quota := quota }
  | .ports a => (s.ports.step s.rules a).map fun ports => { s with ports := ports }
  | .insert k => s.quota.clients[k]?.bind fun c => (s.quota.insert k).bind fun quota => (s.ports.insert k).map fun p =>
    ⟨quota, p.1, s.rules ++ [⟨c.userId, p.2.hostId, p.2.port⟩]⟩

section
variable {limits : Int → Limits} {base : List Rule} {s t : State}

structure State.Inv (limits : Int → Limits) (base : List Rule) (s : State) : Prop where
  quota : s.quota.Inv limits base s.rules
  ports : PortState.Inv base s.rules s.ports

theorem State.Inv.initial (limits : Int → Limits) (base : List Rule) : (State.initial base).Inv limits base :=
  ⟨QuotaState.Inv.initial limits base, ⟨⟨(fun _ _ h => by cases h), (fun _ _ _ h => by cases h)⟩,
    (fun _ _ _ h => by cases h), (fun _ _ _ _ _ _ h => by cases h), (fun _ _ _ h => by cases h),
    (fun _ _ _ h => by cases h), id⟩⟩

theorem State.Inv.step (h : s.Inv limits base) {a : Action} (hs : step limits s a = some t) : t.Inv limits base := by
  cases a with
  | start userId hostId protocol maxAttempts =>
    obtain rfl := Option.some.inj hs
    exact ⟨h.quota.start userId, h.ports.start hostId protocol maxAttempts⟩
  | quota a =>
    obtain ⟨quota, hq, rfl⟩ := Option.map_eq_some_iff.mp hs
    exact ⟨h.quota.step hq, h.ports⟩
  | ports a =>
    obtain ⟨ports, hp, rfl⟩ := Option.map_eq_some_iff.mp hs
    exact ⟨h.quota, h.ports.step hp⟩
  | insert k =>
    obtain ⟨c, hk, hs⟩ := Option.bind_eq_some_iff.mp hs
    obtain ⟨quota, hq, hs⟩ := Option.bind_eq_some_iff.mp hs
    obtain ⟨⟨ports, r⟩, hp, rfl⟩ := Option.map_eq_some_iff.mp hs
    exact ⟨h.quota.insert hk hq r.hostId r.port, h.ports.insert hp c.userId⟩

/-- The reservations of a user that were granted and are not released yet. -/
def State.granted (s : State) (userId : Int) : Nat :=
  s.quota.clients.countP (fun c => decide (c.userId = userId ∧ c.stage.held = true))

theorem held_eq_granted (s : State) (u : Int) : s.quota.held u = s.granted u := by
  unfold QuotaState.held State.granted
  induction s.quota.clients with
  | nil => rfl
  | cons c rest ih =>
    rw [List.map_cons, List.sum_cons, ih, List.countP_cons, QuotaClient.holds]
    by_cases hc : c.userId = u ∧ c.stage.held = true
    · rw [if_pos hc, if_pos (decide_eq_true hc)]
      omega
    · rw [if_neg hc, if_neg (by simpa using hc)]
      omega

/-- Whatever the creators do and in whatever order, a user within a limit stays within it, no two
rules and no two reservations share a port of a host, what is pending is what was granted and not
released, and nothing is left once all is released. -/
theorem rule_creation_safe (limits : Int → Limits) (base : List Rule) {as : List Action} {s : State}
    (h : Run (Steps.ofFn (RuleCreation.step limits)) (State.initial base) as s) :
    (∀ u, 0 < (limits u).rules → ruleCount base u ≤ (limits u).rules → ruleCount s.rules u ≤ (limits u).rules) ∧
    (∀ u, 0 < (limits u).ports → portCount base u ≤ (limits u).ports → portCount s.rules u ≤ (limits u).ports) ∧
    ((base.map listener).Nodup → (s.rules.map listener).Nodup) ∧
    (∀ (k k' : Nat) (c c' : PortClient) (r r' : HostPortReservation), s.ports.clients[k]? = some c →
      s.ports.clients[k']? = some c' → c.stage.live = some r → c'.stage.live = some r' → r.hostId = r'.hostId →
      r.port = r'.port → k = k') ∧
    (∀ u, (0 < (limits u).rules → (s.quota.pendingOf u).rules = s.granted u) ∧
      (0 < (limits u).ports → (s.quota.pendingOf u).ports = s.granted u)) ∧
    (∀ u, (∀ c ∈ s.quota.clients, c.userId = u → c.stage.held = false) → s.quota.pendingByUser.lookup u = none) ∧
    ∀ hostId, (∀ c ∈ s.ports.clients, ∀ r, c.stage.live = some r → r.hostId ≠ hostId) →
      s.ports.reservations.lookup hostId = none := by
  have hinv : s.Inv limits base :=
    h.preserves (P := fun s => State.Inv limits base s) (fun _ _ _ hst hs => hs.step hst) (State.Inv.initial limits base)
  have hpending : ∀ u, ¬ (limits u).Unlimited → s.quota.pendingOf u =
      ⟨s.granted u * (limits u).one.rules, s.granted u * (limits u).one.ports⟩ := fun u hl => by
    rw [(hinv.quota.users u).pendingOf hl, held_eq_granted]
  refine ⟨fun u hpos hbase => ?_, fun u hpos hbase => ?_, hinv.ports.once,
    fun k k' c c' r r' hk hk' hr hr' => hinv.ports.distinct hk hk' hr hr', fun u => ⟨fun hpos => ?_, fun hpos => ?_⟩,
    fun u hnone => ?_, fun hostId hnone => ?_⟩
  · have hle := (hinv.quota.users u).ruleLimit hpos hbase
    have hspare := spare_nonneg s.quota u
    omega
  · have hle := (hinv.quota.users u).portLimit hpos hbase
    have hspare := spare_nonneg s.quota u
    omega
  · rw [hpending u fun hl => absurd hl.1 (Int.ne_of_gt hpos), Limits.one, if_pos hpos, Int.mul_one]
  · rw [hpending u fun hl => absurd hl.2 (Int.ne_of_gt hpos)]
    show (s.granted u : Int) * (if 0 < (limits u).ports then 1 else 0) = _
    rw [if_pos hpos, Int.mul_one]
  · rw [(hinv.quota.users u).pending, expected, if_pos (Or.inr ?_)]
    rw [held_eq_granted, State.granted, List.countP_eq_zero.mpr]
    · rfl
    · intro c hc hheld
      obtain ⟨hu, hheld⟩ := of_decide_eq_true hheld
      rw [hnone c hc hu] at hheld
      cases hheld
  · refine hinv.ports.wellFormed.lookup_none fun p => ?_
    cases hold : holderAt s.ports.reservations hostId p with
    | none => rfl
    | some entries =>
      obtain ⟨k, c, r, hk, hr, ha, _⟩ := hinv.ports.sound hostId p entries hold
      exact absurd ha (hnone c (List.mem_of_getElem? hk) r hr)

end

/-- Two creators of a user with one rule to spend: the second one counts once the first has
inserted and released. -/
def twoCreators : List Action :=
  [.start 7 3 .tcp none, .start 7 3 .udp none, .quota (.reserve 0), .quota (.reserve 1), .quota (.count 0),
    .ports (.reserveSpecific 0 80), .quota (.counted 0 (some (0, 0))), .ports (.checked 0 (some false)), .insert 0,
    .quota (.leave 0), .quota (.proceed 1), .quota (.release 0), .quota (.count 1), .quota (.counted 1 (some (1, 1))),
    .quota (.leave 1), .quota (.proceed 2), .quota (.drop 0), .ports (.release 0)]

theorem two_creators_one_rule :
    ∃ s, exec (RuleCreation.step fun _ => ⟨1, 0⟩) (State.initial []) twoCreators = some s ∧ s.rules.length = 1 ∧
      (s.rules.map listener).Nodup := by
  have hsome : (exec (RuleCreation.step fun _ => ⟨1, 0⟩) (State.initial []) twoCreators).isSome = true := by
    decide +kernel
  have hrun := (Option.some_get hsome).symm
  exact ⟨_, hrun, rfl, (rule_creation_safe (fun _ => ⟨1, 0⟩) [] (exec_run hrun)).2.2.1 List.nodup_nil⟩

end ForwardX.Panel.RuleCreation
