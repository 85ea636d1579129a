import Mathlib.Algebra.Order.Ring.Nat
import ForwardX.Fxp.Traffic
import ForwardX.Lib.Slots

/- Nothing enqueued is lost or reported twice. Of every key and rule, what was enqueued
   is what acknowledged reports carried plus what its batch still holds
   (`Inv.conserved`), as long as no count wraps around (`Fits`). A batch always covers
   the report that is pending for it (`Inv.held`), so an acknowledgement takes off exactly
   what was sent, and a panel has credited the acknowledged reports and, at most once,
   the pending one (`Inv.credited`). -/
namespace ForwardX.Fxp.Traffic
open Transition

/-! ## What the operations do to a batch -/

theorem amount_nil (rule : Int) (m : Measure) : amount [] rule m = 0 := by
  unfold amount
  rw [List.lookup_nil, Option.getD_none, Value.at_zero]
  rfl

theorem amount_put (byRule : ByRule) (rule rule' : Int) (v : Value) (m : Measure) :
    amount (Assoc.put byRule rule v) rule' m
      = if rule' = rule then (v.at m).toNat else amount byRule rule' m := by
  unfold amount
  split
  · rename_i h
    rw [h, Assoc.lookup_put_self, Option.getD_some]
  · rename_i h
    rw [Assoc.lookup_put_ne byRule h]

theorem amount_erase (byRule : ByRule) (rule rule' : Int) (m : Measure) :
    amount (Assoc.erase byRule rule) rule' m = if rule' = rule then 0 else amount byRule rule' m := by
  unfold amount
  split
  · rename_i h
    rw [h, Assoc.lookup_erase_self, Option.getD_none, Value.at_zero]
    rfl
  · rename_i h
    rw [Assoc.lookup_erase_ne byRule h]

theorem amount_cons (e : Int × Value) (byRule : ByRule) (rule : Int) (m : Measure) :
    amount (e :: byRule) rule m = if rule = e.1 then (e.2.at m).toNat else amount byRule rule m := by
  unfold amount
  by_cases h : rule = e.1
  · subst h
    rw [List.lookup_cons_self, Option.getD_some, if_pos rfl]
  · have hne : (rule == e.1) = false := by simpa using h
    rw [List.lookup_cons, hne, if_neg h]

theorem amount_filter_le {byRule : ByRule} (hnd : (Assoc.keys byRule).Nodup) (p : Int × Value → Bool)
    (rule : Int) (m : Measure) : amount (byRule.filter p) rule m ≤ amount byRule rule m := by
  unfold amount
  rw [Assoc.lookup_filter hnd]
  cases hv : byRule.lookup rule with
  | none => exact Nat.le_refl _
  | some v =>
    rw [Option.filter_some]
    split
    · exact Nat.le_refl _
    · rw [Option.getD_none, Value.at_zero]
      exact Nat.zero_le _

theorem saturate_toNat (current sent : UInt64) :
    (saturate current sent).toNat = current.toNat - sent.toNat := by
  unfold saturate
  split
  · rename_i h
    exact UInt64.toNat_sub_of_le _ _ h
  · rename_i h
    have hlt : current.toNat < sent.toNat := UInt64.not_le.mp h
    have hzero : (0 : UInt64).toNat = 0 := rfl
    omega

theorem settleRule_amount (byRule : ByRule) (e : Int × Value) (rule : Int) (m : Measure) :
    amount (settleRule byRule e) rule m
      = if rule = e.1 then amount byRule rule m - (e.2.at m).toNat else amount byRule rule m := by
  unfold settleRule
  split
  · rename_i hnone
    split
    · rename_i h
      have hzero : amount byRule rule m = 0 := by
        unfold amount
        rw [h, hnone, Option.getD_none, Value.at_zero]
        rfl
      omega
    · rfl
  · rename_i current hsome
    have hcurrent : amount byRule e.1 m = (current.at m).toNat := by
      unfold amount
      rw [hsome, Option.getD_some]
    have hrest : ((current.saturate e.2).at m).toNat = (current.at m).toNat - (e.2.at m).toNat := by
      rw [Value.at_saturate, saturate_toNat]
    dsimp only
    split
    · rename_i hempty
      have hzero : (current.saturate e.2).at m = 0 := by
        cases m
        · exact hempty.1
        · exact hempty.2.1
        · exact hempty.2.2
      rw [amount_erase]
      split
      · rename_i h
        rw [h, hcurrent, ← hrest, hzero]
        rfl
      · rfl
    · rw [amount_put]
      split
      · rename_i h
        rw [h, hcurrent, hrest]
      · rfl

theorem settleRule_nodup {byRule : ByRule} (h : (Assoc.keys byRule).Nodup) (e : Int × Value) :
    (Assoc.keys (settleRule byRule e)).Nodup := by
  unfold settleRule
  split
  · exact h
  · dsimp only
    split
    · exact Assoc.nodup_erase h _
    · exact Assoc.nodup_put h _ _

/-- An acknowledgement takes what was sent off the batch, and nothing below zero. -/
theorem settle_amount {sent : ByRule} (hsent : (Assoc.keys sent).Nodup) (byRule : ByRule) (rule : Int)
    (m : Measure) :
    amount (sent.foldl settleRule byRule) rule m = amount byRule rule m - amount sent rule m := by
  induction sent generalizing byRule with
  | nil => rw [List.foldl_nil, amount_nil, Nat.sub_zero]
  | cons e sent ih =>
    rw [Assoc.keys, List.map_cons, List.nodup_cons] at hsent
    rw [List.foldl_cons, ih hsent.2, settleRule_amount, amount_cons]
    split
    · rename_i h
      have hout : amount sent rule m = 0 := by
        unfold amount
        rw [h, Assoc.lookup_eq_none.mpr hsent.1, Option.getD_none, Value.at_zero]
        rfl
      omega
    · rfl

theorem settle_nodup (sent : ByRule) {byRule : ByRule} (h : (Assoc.keys byRule).Nodup) :
    (Assoc.keys (sent.foldl settleRule byRule)).Nodup := by
  induction sent generalizing byRule with
  | nil => exact h
  | cons e sent ih => exact ih (settleRule_nodup h e)

theorem batch_add (r : Reporter) (key key' : Key) (rule : Int) (delta : Value) :
    (r.add key rule delta).batch key' = if key' = key then
      Assoc.put (r.batch key) rule ((((r.batch key).lookup rule).getD Value.zero).add delta)
      else r.batch key' := by
  unfold Reporter.add Reporter.batch
  dsimp only
  split
  · rename_i h
    rw [h, Assoc.lookup_put_self, Option.getD_some]
  · rename_i h
    rw [Assoc.lookup_put_ne _ h]

theorem batch_acknowledge (r : Reporter) (key key' : Key) (sent : ByRule) :
    (r.acknowledgeTrafficBatch key sent).batch key' = if key' = key then
      sent.foldl settleRule (r.batch key) else r.batch key' := by
  unfold Reporter.acknowledgeTrafficBatch Reporter.batch
  dsimp only
  by_cases h : key' = key
  · subst h
    rw [if_pos rfl]
    split
    · rename_i hnil
      rw [hnil, Assoc.lookup_erase_self, Option.getD_none]
    · rw [Assoc.lookup_put_self, Option.getD_some]
  · rw [if_neg h]
    split
    · rw [Assoc.lookup_erase_ne _ h]
    · rw [Assoc.lookup_put_ne _ h]

/-! ## The invariant -/

/-- What `enqueueTraffic` has counted for a key and a rule. -/
def enqueued (s : System) (key : Key) (rule : Int) (m : Measure) : Nat :=
  (s.log.map (Event.enqueuedAmount key rule m)).sum

def acknowledged (s : System) (key : Key) (rule : Int) (m : Measure) : Nat :=
  (s.log.map (Event.acknowledgedAmount key rule m)).sum

/-- Between two posts for a key without an acknowledgement the report stays the same. -/
def Frozen (log : List Event) : Prop :=
  ∀ l₁ l₂ l₃ key p q, log = l₁ ++ .posted key p :: l₂ ++ .posted key q :: l₃ →
    (∀ x, .acknowledged key x ∉ l₂) → q = p

/-- What every reachable state satisfies, whatever is enqueued. -/
structure Base (env : Env) (s : System) : Prop where
  ruleKeys : ∀ key, (Assoc.keys (s.reporter.batch key)).Nodup
  todoKeys : (Assoc.keys s.reporter.todo).Nodup
  todo : ∀ key p, (key, p) ∈ s.reporter.todo → s.reporter.pending.lookup key = some p
  posting : ∀ key p, s.reporter.posting = some (key, p) →
    s.reporter.pending.lookup key = some p ∧ key ∉ Assoc.keys s.reporter.todo
  pending : ∀ key p, s.reporter.pending.lookup key = some p →
    p.byRule ≠ [] ∧ (Assoc.keys p.byRule).Nodup ∧ (key, p) ∈ s.reporter.issued
  ids : ∀ i key p, s.reporter.issued[i]? = some (key, p) → p.reportID = env.reportID i
  requests : ∀ x ∈ s.requests, x ∈ s.reporter.issued
  applied : ∀ t ∈ s.applied, ∃ x ∈ s.reporter.issued, reportKey x = t
  waiting : ∀ key p, (key, p) ∈ s.reporter.issued → reportKey (key, p) ∉ s.applied →
    s.reporter.pending.lookup key = some p
  last : ∀ l₁ l₂ key p, s.log = l₁ ++ .posted key p :: l₂ → (∀ x, .acknowledged key x ∉ l₂) →
    s.reporter.pending.lookup key = some p
  frozen : Frozen s.log
  credited : ∀ key rule m,
    s.credited key rule m = acknowledged s key rule m + inFlight s key rule m

/-- The ledger of a run in which no count wraps around. -/
structure Inv (env : Env) (s : System) : Prop extends Base env s where
  held : ∀ key p, s.reporter.pending.lookup key = some p →
    ∀ rule m, amount p.byRule rule m ≤ amount (s.reporter.batch key) rule m
  conserved : ∀ key rule m,
    enqueued s key rule m = acknowledged s key rule m + amount (s.reporter.batch key) rule m

theorem Frozen.snoc {log : List Event} (h : Frozen log) {e : Event} (he : ∀ key p, e ≠ .posted key p) :
    Frozen (log ++ [e]) := by
  intro l₁ l₂ l₃ key p q hlog hack
  rcases Slots.snoc_split hlog with ⟨-, heq, -⟩ | ⟨l₃', -, hlog⟩
  · exact absurd heq (he key q)
  · exact h l₁ l₂ l₃' key p q hlog hack

section
variable {env : Env} {s : System}

theorem Base.issued_inj (h : Base env s) (hids : Function.Injective env.reportID)
    {x y : Key × Pending} (hx : x ∈ s.reporter.issued) (hy : y ∈ s.reporter.issued)
    (hid : reportKey x = reportKey y) : x = y := by
  obtain ⟨i, hi⟩ := List.mem_iff_getElem?.mp hx
  obtain ⟨j, hj⟩ := List.mem_iff_getElem?.mp hy
  have hsame : env.reportID i = env.reportID j := by
    rw [← h.ids i x.1 x.2 hi, ← h.ids j y.1 y.2 hj]
    exact congrArg (fun t => t.2.2) hid
  obtain rfl := hids hsame
  exact Option.some.inj (hi.symm.trans hj)

theorem Base.fresh (h : Base env s) (hids : Function.Injective env.reportID) (key : Key)
    (byRule : ByRule) :
    reportKey (key, ⟨env.reportID s.reporter.issued.length, byRule⟩) ∉ s.applied := by
  intro hmem
  obtain ⟨x, hx, hid⟩ := h.applied _ hmem
  obtain ⟨i, hi⟩ := List.mem_iff_getElem?.mp hx
  have hsame : env.reportID i = env.reportID s.reporter.issued.length := by
    rw [← h.ids i x.1 x.2 hi]
    exact congrArg (fun t => t.2.2) hid
  have hlt := (List.getElem?_eq_some_iff.mp hi).1
  have := hids hsame
  omega

/-! ## Enqueueing -/

theorem Base.add (h : Base env s) (key : Key) (rule : Int) (delta : Value) :
    Base env { s with
      reporter := s.reporter.add key rule delta
      log := s.log ++ [.enqueued key rule delta] } where
  ruleKeys := by
    intro key'
    dsimp only
    rw [batch_add]
    split
    · exact Assoc.nodup_put (h.ruleKeys key) _ _
    · exact h.ruleKeys key'
  todoKeys := h.todoKeys
  todo := h.todo
  posting := h.posting
  pending := h.pending
  ids := h.ids
  requests := h.requests
  applied := h.applied
  waiting := h.waiting
  last := by
    intro l₁ l₂ key' p hlog hack
    rcases Slots.snoc_split hlog with ⟨-, heq, -⟩ | ⟨l₂', rfl, hrest⟩
    · cases heq
    · exact h.last l₁ l₂' key' p hrest (fun x hx => hack x (List.mem_append_left _ hx))
  frozen := h.frozen.snoc (fun _ _ heq => by cases heq)
  credited := by
    intro key' rule' m
    have hack : acknowledged { s with
        reporter := s.reporter.add key rule delta
        log := s.log ++ [.enqueued key rule delta] } key' rule' m = acknowledged s key' rule' m := by
      simp [acknowledged, Event.acknowledgedAmount]
    rw [hack]
    exact h.credited key' rule' m

def Room (r : Reporter) (key : Key) (rule : Int) (delta : Value) : Prop :=
  ∀ m, amount (r.batch key) rule m + (delta.at m).toNat < UInt64.size

theorem amount_add (r : Reporter) (key key' : Key) (rule rule' : Int) (delta : Value) (m : Measure)
    (hroom : Room r key rule delta) :
    amount ((r.add key rule delta).batch key') rule' m = amount (r.batch key') rule' m +
      if key = key' ∧ rule = rule' then (delta.at m).toNat else 0 := by
  rw [batch_add]
  by_cases hk : key' = key
  · subst hk
    rw [if_pos rfl, amount_put]
    by_cases hr : rule' = rule
    · subst hr
      have hfit := hroom m
      unfold amount at hfit ⊢
      rw [if_pos rfl, if_pos ⟨rfl, rfl⟩, Value.at_add, UInt64.toNat_add]
      exact Nat.mod_eq_of_lt hfit
    · rw [if_neg hr, if_neg (fun h => hr h.2.symm), Nat.add_zero]
  · rw [if_neg hk, if_neg (fun h => hk h.1.symm), Nat.add_zero]

variable {key : Key}

theorem Inv.add (h : Inv env s) {rule : Int} {delta : Value} (hroom : Room s.reporter key rule delta) : Inv env { s with
      reporter := s.reporter.add key rule delta
      log := s.log ++ [.enqueued key rule delta] } where
  toBase := h.toBase.add key rule delta
  held := by
    intro key' p hp rule' m
    dsimp only
    rw [amount_add _ _ _ _ _ _ _ hroom]
    have := h.held key' p hp rule' m
    omega
  conserved := by
    intro key' rule' m
    have hconserved := h.conserved key' rule' m
    simp only [enqueued, acknowledged, List.map_append, List.map_cons, List.map_nil,
      List.sum_append, List.sum_cons, List.sum_nil, Event.enqueuedAmount,
      Event.acknowledgedAmount] at hconserved ⊢
    rw [amount_add _ _ _ _ _ _ _ hroom]
    omega

/-! ## The snapshot -/

/-- One round of the snapshot either lists the pending report, or makes one of the
counts in the batch, or finds nothing. -/
theorem freeze_cases (env : Env) (r : Reporter) (key : Key) :
    (∃ p, r.pending.lookup key = some p ∧ p.byRule ≠ [] ∧
      r.freeze env key = { r with todo := r.todo ++ [(key, p)] }) ∨
    (∃ f : Int × Value → Bool, (∀ p, r.pending.lookup key = some p → p.byRule = []) ∧
      (r.batch key).filter f ≠ [] ∧
      r.freeze env key = { r with
        pending := Assoc.put r.pending key ⟨env.reportID r.issued.length, (r.batch key).filter f⟩
        todo := r.todo ++ [(key, ⟨env.reportID r.issued.length, (r.batch key).filter f⟩)]
        issued := r.issued ++ [(key, ⟨env.reportID r.issued.length, (r.batch key).filter f⟩)] }) ∨
    r.freeze env key = r := by
  unfold Reporter.freeze
  dsimp only
  split
  · rename_i hpending
    cases hp : r.pending.lookup key with
    | none =>
      rw [hp] at hpending
      exact absurd rfl hpending
    | some p =>
      rw [hp] at hpending
      exact .inl ⟨p, rfl, hpending, rfl⟩
  · rename_i hempty
    split
    · rename_i hcopy
      refine .inr (.inl ⟨_, fun p hp => ?_, hcopy, rfl⟩)
      rw [hp] at hempty
      exact not_not.mp hempty
    · exact .inr (.inr rfl)

theorem todo_concat {todo : List (Key × Pending)} (hnd : (Assoc.keys todo).Nodup) (hkey : key ∉ Assoc.keys todo)
    (p : Pending) : (Assoc.keys (todo ++ [(key, p)])).Nodup := by
  rw [Assoc.keys, List.map_append]
  refine List.nodup_append.mpr ⟨hnd, by simp, ?_⟩
  intro a ha b hb hab
  simp only [List.map_cons, List.map_nil, List.mem_singleton] at hb
  rw [hab, hb] at ha
  exact hkey ha

theorem Base.freeze (h : Base env s) (hids : Function.Injective env.reportID) (hkey : key ∉ Assoc.keys s.reporter.todo)
    (hidle : s.reporter.posting = none) : Base env { s with reporter := s.reporter.freeze env key } := by
  rcases freeze_cases env s.reporter key with ⟨p, hp, -, he⟩ | ⟨f, hnone, hcopy, he⟩ | he
  · -- the pending report goes into the snapshot again
    rw [he]
    refine { h with todoKeys := todo_concat h.todoKeys hkey p, todo := ?_, posting := ?_ }
    · intro key' p' hmem
      rcases List.mem_append.mp hmem with hmem | hmem
      · exact h.todo key' p' hmem
      · obtain ⟨rfl, rfl⟩ := Prod.mk.inj (List.mem_singleton.mp hmem)
        exact hp
    · intro key' p' hpost
      rw [hidle] at hpost
      cases hpost
  · -- a new report is made
    have hout : s.reporter.pending.lookup key = none := by
      cases hp : s.reporter.pending.lookup key with
      | none => rfl
      | some p => exact absurd (hnone p hp) (h.pending key p hp).1
    have hlookup : ∀ x key' p', s.reporter.pending.lookup key' = some p' →
        (Assoc.put s.reporter.pending key x).lookup key' = some p' := by
      intro x key' p' hp'
      have hne : key' ≠ key := by
        rintro rfl
        rw [hout] at hp'
        cases hp'
      rw [Assoc.lookup_put_ne _ hne]
      exact hp'
    rw [he]
    refine ⟨h.ruleKeys, todo_concat h.todoKeys hkey _, ?_, ?_, ?_, ?_, ?_, ?_, ?_, ?_, h.frozen, ?_⟩
    · intro key' p' hmem
      rcases List.mem_append.mp hmem with hmem | hmem
      · exact hlookup _ key' p' (h.todo key' p' hmem)
      · obtain ⟨rfl, rfl⟩ := Prod.mk.inj (List.mem_singleton.mp hmem)
        exact Assoc.lookup_put_self _ _ _
    · intro key' p' hpost
      rw [hidle] at hpost
      cases hpost
    · intro key' p' hp'
      dsimp only at hp'
      by_cases hk : key' = key
      · subst hk
        rw [Assoc.lookup_put_self] at hp'
        obtain rfl := Option.some.inj hp'
        refine ⟨hcopy, ?_, List.mem_append_right _ List.mem_cons_self⟩
        exact (h.ruleKeys key').sublist (List.filter_sublist.map Prod.fst)
      · rw [Assoc.lookup_put_ne _ hk] at hp'
        obtain ⟨hne, hnd, hissued⟩ := h.pending key' p' hp'
        exact ⟨hne, hnd, List.mem_append_left _ hissued⟩
    · intro i key' p' hi
      dsimp only at hi
      rcases Nat.lt_or_ge i s.reporter.issued.length with hlt | hge
      · rw [List.getElem?_append_left hlt] at hi
        exact h.ids i key' p' hi
      · have hlen := (List.getElem?_eq_some_iff.mp hi).1
        rw [List.length_append, List.length_singleton] at hlen
        obtain rfl : i = s.reporter.issued.length := by omega
        rw [List.getElem?_concat_length] at hi
        obtain ⟨-, rfl⟩ := Prod.mk.inj (Option.some.inj hi)
        rfl
    · exact fun x hx => List.mem_append_left _ (h.requests x hx)
    · intro t ht
      obtain ⟨x, hx, hid⟩ := h.applied t ht
      exact ⟨x, List.mem_append_left _ hx, hid⟩
    · intro key' p' hmem happlied
      rcases List.mem_append.mp hmem with hmem | hmem
      · exact hlookup _ key' p' (h.waiting key' p' hmem happlied)
      · obtain ⟨rfl, rfl⟩ := Prod.mk.inj (List.mem_singleton.mp hmem)
        exact Assoc.lookup_put_self _ _ _
    · intro l₁ l₂ key' p' hlog hack
      exact hlookup _ key' p' (h.last l₁ l₂ key' p' hlog hack)
    · intro key' rule m
      have hcredited := h.credited key' rule m
      by_cases hk : key' = key
      · subst hk
        unfold inFlight at hcredited ⊢
        rw [hout] at hcredited
        dsimp only
        rw [Assoc.lookup_put_self]
        dsimp only
        rw [if_neg (h.fresh hids _ _)]
        exact hcredited
      · unfold inFlight at hcredited ⊢
        dsimp only
        rw [Assoc.lookup_put_ne _ hk]
        exact hcredited
  · rw [he]
    exact h

theorem Inv.freeze (h : Inv env s) (hids : Function.Injective env.reportID) (hkey : key ∉ Assoc.keys s.reporter.todo)
    (hidle : s.reporter.posting = none) : Inv env { s with reporter := s.reporter.freeze env key } := by
  refine { h.toBase.freeze hids hkey hidle with held := ?_, conserved := ?_ }
  · rcases freeze_cases env s.reporter key with ⟨p, -, -, he⟩ | ⟨f, -, -, he⟩ | he
    · rw [he]
      exact h.held
    · rw [he]
      intro key' p' hp' rule m
      dsimp only at hp' ⊢
      by_cases hk : key' = key
      · subst hk
        rw [Assoc.lookup_put_self] at hp'
        obtain rfl := Option.some.inj hp'
        exact amount_filter_le (h.ruleKeys key') f rule m
      · rw [Assoc.lookup_put_ne _ hk] at hp'
        exact h.held key' p' hp' rule m
    · rw [he]
      exact h.held
  · rcases freeze_cases env s.reporter key with ⟨p, -, -, he⟩ | ⟨f, -, -, he⟩ | he <;>
    · rw [he]
      exact h.conserved

theorem freeze_todo (env : Env) (r : Reporter) (key : Key) :
    ∀ k ∈ Assoc.keys (r.freeze env key).todo, k = key ∨ k ∈ Assoc.keys r.todo := by
  intro k hk
  have hconcat : ∀ p, k ∈ Assoc.keys (r.todo ++ [(key, p)]) → k = key ∨ k ∈ Assoc.keys r.todo := by
    intro p hmem
    rw [Assoc.keys, List.map_append, List.mem_append] at hmem
    rcases hmem with hmem | hmem
    · exact .inr hmem
    · exact .inl (List.mem_singleton.mp hmem)
  rcases freeze_cases env r key with ⟨p, -, -, he⟩ | ⟨f, -, -, he⟩ | he
  · rw [he] at hk
    exact hconcat _ hk
  · rw [he] at hk
    exact hconcat _ hk
  · rw [he] at hk
    exact .inr hk

theorem freeze_posting (env : Env) (r : Reporter) (key : Key) :
    (r.freeze env key).posting = r.posting := by
  rcases freeze_cases env r key with ⟨p, -, -, he⟩ | ⟨f, -, -, he⟩ | he <;> rw [he]

theorem Inv.freezeAll (hids : Function.Injective env.reportID) {order : List Key} (hnd : order.Nodup)
    {r : Reporter} (h : Inv env { s with reporter := r })
    (hkeys : ∀ k ∈ order, k ∉ Assoc.keys r.todo) (hidle : r.posting = none) :
    Inv env { s with reporter := order.foldl (Reporter.freeze env) r } := by
  induction order generalizing r with
  | nil => exact h
  | cons key order ih =>
    rw [List.nodup_cons] at hnd
    refine ih hnd.2 (h.freeze hids (hkeys key List.mem_cons_self) hidle) ?_ ?_
    · intro k hk hmem
      rcases freeze_todo env r key k hmem with rfl | hmem
      · exact hnd.1 hk
      · exact hkeys k (List.mem_cons_of_mem _ hk) hmem
    · exact (freeze_posting env r key).trans hidle

/-! ## Posts and their answers -/

theorem Base.post (h : Base env s) {p : Pending} (hp : s.reporter.todo.lookup key = some p) : Base env { s with
      reporter := { s.reporter with
        todo := Assoc.erase s.reporter.todo key
        posting := some (key, p) }
      requests := s.requests ++ [(key, p)]
      log := s.log ++ [.posted key p] } := by
  have hpending := h.todo key p (Assoc.mem_of_lookup hp)
  refine ⟨h.ruleKeys, Assoc.nodup_erase h.todoKeys key, ?_, ?_, h.pending, h.ids, ?_, h.applied,
    h.waiting, ?_, ?_, ?_⟩
  · exact fun key' p' hmem => h.todo key' p' (List.mem_filter.mp hmem).1
  · intro key' p' hpost
    obtain ⟨rfl, rfl⟩ := Prod.mk.inj (Option.some.inj hpost)
    exact ⟨hpending, Assoc.notMem_erase _ _⟩
  · intro x hx
    rcases List.mem_append.mp hx with hx | hx
    · exact h.requests x hx
    · rw [List.mem_singleton.mp hx]
      exact (h.pending key p hpending).2.2
  · intro l₁ l₂ key' p' hlog hack
    rcases Slots.snoc_split hlog with ⟨-, heq, -⟩ | ⟨l₂', rfl, hrest⟩
    · obtain ⟨rfl, rfl⟩ := Event.posted.inj heq
      exact hpending
    · exact h.last l₁ l₂' key' p' hrest (fun x hx => hack x (List.mem_append_left _ hx))
  · -- the last post since an acknowledgement was of the report that is pending still
    intro l₁ l₂ l₃ key' p' q hlog hack
    rcases Slots.snoc_split hlog with ⟨hl, heq, -⟩ | ⟨l₃', -, hrest⟩
    · obtain ⟨rfl, rfl⟩ := Event.posted.inj heq
      have := h.last l₁ l₂ key p' hl hack
      exact Option.some.inj (hpending.symm.trans this)
    · exact h.frozen l₁ l₂ l₃' key' p' q hrest hack
  · intro key' rule m
    have hack : acknowledged { s with
        reporter := { s.reporter with
          todo := Assoc.erase s.reporter.todo key
          posting := some (key, p) }
        requests := s.requests ++ [(key, p)]
        log := s.log ++ [.posted key p] } key' rule m = acknowledged s key' rule m := by
      simp [acknowledged, Event.acknowledgedAmount]
    rw [hack]
    exact h.credited key' rule m

theorem Inv.post (h : Inv env s) {p : Pending} (hp : s.reporter.todo.lookup key = some p) : Inv env { s with
      reporter := { s.reporter with
        todo := Assoc.erase s.reporter.todo key
        posting := some (key, p) }
      requests := s.requests ++ [(key, p)]
      log := s.log ++ [.posted key p] } := by
  refine { h.toBase.post hp with held := h.held, conserved := ?_ }
  intro key' rule m
  have hconserved := h.conserved key' rule m
  simp only [enqueued, acknowledged, List.map_append, List.map_cons, List.map_nil,
    List.sum_append, List.sum_cons, List.sum_nil, Event.enqueuedAmount,
    Event.acknowledgedAmount] at hconserved ⊢
  exact hconserved

/-- A request that the panel has not seen is of a report that is pending. -/
theorem Base.deliver (h : Base env s) (hids : Function.Injective env.reportID) {x : Key × Pending}
    (hx : x ∈ s.requests) (hnew : reportKey x ∉ s.applied) :
    Base env { s with
      applied := s.applied ++ [reportKey x]
      credited := fun key rule m => s.credited key rule m +
        if key = x.1 then amount x.2.byRule rule m else 0 } := by
  have hissued := h.requests x hx
  have hpending := h.waiting x.1 x.2 hissued hnew
  refine { h with applied := ?_, waiting := ?_, credited := ?_ }
  · intro t ht
    rcases List.mem_append.mp ht with ht | ht
    · exact h.applied t ht
    · exact ⟨x, hissued, (List.mem_singleton.mp ht).symm⟩
  · exact fun key p hp happlied =>
      h.waiting key p hp (fun hmem => happlied (List.mem_append_left _ hmem))
  · intro key rule m
    have hcredited := h.credited key rule m
    have hack : ∀ a c, acknowledged { s with applied := a, credited := c } key rule m
        = acknowledged s key rule m := fun _ _ => rfl
    rw [hack]
    dsimp only
    rw [hcredited]
    by_cases hk : key = x.1
    · subst hk
      unfold inFlight
      dsimp only
      rw [hpending]
      dsimp only
      rw [if_neg hnew, if_pos rfl, if_pos (List.mem_append_right _ List.mem_cons_self)]
      omega
    · rw [if_neg hk, Nat.add_zero]
      unfold inFlight
      dsimp only
      cases hp : s.reporter.pending.lookup key with
      | none => rfl
      | some p =>
        have hother : reportKey (key, p) ≠ reportKey x := by
          intro hid
          have := h.issued_inj hids (h.pending key p hp).2.2 hissued hid
          exact hk (congrArg Prod.fst this)
        simp only [List.mem_append, List.mem_singleton, hother, or_false]

/-- An acknowledged report leaves the pending map, and its counts the batch. -/
theorem Base.acknowledge (h : Base env s) {p : Pending} (hposting : s.reporter.posting = some (key, p))
    (happlied : reportKey (key, p) ∈ s.applied) : Base env { s with
      reporter := { s.reporter.acknowledgeTrafficBatch key p.byRule with posting := none }
      log := s.log ++ [.acknowledged key p] } := by
  obtain ⟨hpending, htodo⟩ := h.posting key p hposting
  have hother : ∀ key' p', key' ≠ key → s.reporter.pending.lookup key' = some p' →
      (Assoc.erase s.reporter.pending key).lookup key' = some p' := by
    intro key' p' hk hp'
    rw [Assoc.lookup_erase_ne _ hk]
    exact hp'
  refine ⟨?_, h.todoKeys, ?_, ?_, ?_, h.ids, h.requests, h.applied, ?_, ?_, ?_, ?_⟩
  · intro key'
    have hbatch := batch_acknowledge s.reporter key key' p.byRule
    unfold Reporter.batch at hbatch ⊢
    dsimp only at hbatch ⊢
    rw [hbatch]
    split
    · exact settle_nodup p.byRule (h.ruleKeys key)
    · exact h.ruleKeys key'
  · intro key' p' hmem
    refine hother key' p' ?_ (h.todo key' p' hmem)
    rintro rfl
    exact htodo (List.mem_map_of_mem hmem)
  · intro key' p' hpost
    cases hpost
  · intro key' p' hp'
    have hp' : (Assoc.erase s.reporter.pending key).lookup key' = some p' := hp'
    by_cases hk : key' = key
    · subst hk
      rw [Assoc.lookup_erase_self] at hp'
      cases hp'
    · rw [Assoc.lookup_erase_ne _ hk] at hp'
      exact h.pending key' p' hp'
  · intro key' p' hissued hwait
    have hp' := h.waiting key' p' hissued hwait
    refine hother key' p' ?_ hp'
    rintro rfl
    rw [hpending] at hp'
    obtain rfl := Option.some.inj hp'
    exact hwait happlied
  · intro l₁ l₂ key' p' hlog hack
    rcases Slots.snoc_split hlog with ⟨-, heq, -⟩ | ⟨l₂', rfl, hrest⟩
    · cases heq
    · refine hother key' p' ?_
        (h.last l₁ l₂' key' p' hrest (fun x hx => hack x (List.mem_append_left _ hx)))
      rintro rfl
      exact hack p (List.mem_append_right _ List.mem_cons_self)
  · exact h.frozen.snoc (fun _ _ heq => by cases heq)
  · intro key' rule m
    have hcredited := h.credited key' rule m
    have hack : acknowledged { s with
        reporter := { s.reporter.acknowledgeTrafficBatch key p.byRule with posting := none }
        log := s.log ++ [.acknowledged key p] } key' rule m = acknowledged s key' rule m +
          if key = key' then amount p.byRule rule m else 0 := by
      simp [acknowledged, Event.acknowledgedAmount]
    rw [hack]
    have hlookup : (s.reporter.acknowledgeTrafficBatch key p.byRule).pending.lookup key'
        = (Assoc.erase s.reporter.pending key).lookup key' := rfl
    unfold inFlight at hcredited ⊢
    dsimp only
    rw [hlookup]
    by_cases hk : key' = key
    · subst hk
      rw [hpending] at hcredited
      dsimp only at hcredited
      rw [if_pos happlied] at hcredited
      rw [Assoc.lookup_erase_self, if_pos rfl]
      exact hcredited
    · rw [Assoc.lookup_erase_ne _ hk, if_neg (fun h' => hk h'.symm)]
      exact hcredited

theorem Inv.acknowledge (h : Inv env s) {p : Pending} (hposting : s.reporter.posting = some (key, p))
    (happlied : reportKey (key, p) ∈ s.applied) : Inv env { s with
      reporter := { s.reporter.acknowledgeTrafficBatch key p.byRule with posting := none }
      log := s.log ++ [.acknowledged key p] } := by
  obtain ⟨hpending, -⟩ := h.posting key p hposting
  have hnd := (h.pending key p hpending).2.1
  have hamount : ∀ key' rule m,
      amount ((s.reporter.acknowledgeTrafficBatch key p.byRule).batch key') rule m
        = amount (s.reporter.batch key') rule m - if key = key' then amount p.byRule rule m else 0 := by
    intro key' rule m
    rw [batch_acknowledge]
    by_cases hk : key' = key
    · subst hk
      rw [if_pos rfl, if_pos rfl, settle_amount hnd]
    · rw [if_neg hk, if_neg (fun h' => hk h'.symm), Nat.sub_zero]
  refine { h.toBase.acknowledge hposting happlied with held := ?_, conserved := ?_ }
  · intro key' p' hp' rule m
    have hp' : (Assoc.erase s.reporter.pending key).lookup key' = some p' := hp'
    have hk : key' ≠ key := by
      rintro rfl
      rw [Assoc.lookup_erase_self] at hp'
      cases hp'
    rw [Assoc.lookup_erase_ne _ hk] at hp'
    have hheld := h.held key' p' hp' rule m
    have hsame := hamount key' rule m
    rw [if_neg (fun h' => hk h'.symm), Nat.sub_zero] at hsame
    exact Nat.le_trans hheld (Nat.le_of_eq hsame.symm)
  · -- the batch holds all of the report, so nothing is cut off
    intro key' rule m
    have hconserved := h.conserved key' rule m
    have hsettled : amount (Reporter.batch
        { s.reporter.acknowledgeTrafficBatch key p.byRule with posting := none } key') rule m
        = amount (s.reporter.batch key') rule m - if key = key' then amount p.byRule rule m else 0 :=
      hamount key' rule m
    have hle : (if key = key' then amount p.byRule rule m else 0)
        ≤ amount (s.reporter.batch key') rule m := by
      split
      · rename_i hk
        exact hk ▸ h.held key p hpending rule m
      · exact Nat.zero_le _
    simp only [enqueued, acknowledged, List.map_append, List.map_cons, List.map_nil,
      List.sum_append, List.sum_cons, List.sum_nil, Event.enqueuedAmount,
      Event.acknowledgedAmount] at hconserved ⊢
    rw [hsettled]
    omega

/-! ## Every run -/

/-- Nothing that is enqueued makes a count of its batch wrap around. -/
def Fits (env : Env) (s : System) : Act → Prop
  | .enqueue cfg bytesIn bytesOut connectionDeltas =>
    let delta : Value := ⟨bytesIn, bytesOut, connectionDeltas.headD 0⟩
    ∀ key, trafficKey env cfg delta = some key → Room s.reporter key cfg.RuleID delta
  | _ => True

theorem Inv.initial (env : Env) : Inv env System.initial := by
  refine ⟨⟨fun _ => List.nodup_nil, List.nodup_nil, ?_, ?_, ?_, ?_, ?_, ?_, ?_, ?_, ?_, fun _ _ _ => rfl⟩,
    ?_, fun key rule m => ?_⟩
  · exact fun _ _ h => nomatch h
  · exact fun _ _ h => nomatch h
  · exact fun _ _ h => nomatch h
  · exact fun _ _ _ h => nomatch h
  · exact fun _ h => nomatch h
  · exact fun _ h => nomatch h
  · exact fun _ _ h => nomatch h
  · intro l₁ l₂ key p hlog
    exact absurd hlog.symm (List.append_ne_nil_of_right_ne_nil _ (List.cons_ne_nil _ _))
  · intro l₁ l₂ l₃ key p q hlog
    exact absurd hlog.symm (List.append_ne_nil_of_right_ne_nil _ (List.cons_ne_nil _ _))
  · exact fun _ _ h => nomatch h
  · have hnil := amount_nil rule m
    have hempty : System.initial.reporter.batch key = [] := rfl
    rw [hempty, hnil]
    rfl

theorem Inv.step (h : Inv env s) (hids : Function.Injective env.reportID) {a : Act} {s' : System}
    (hfit : Fits env s a) (hs : s.step env a = some s') : Inv env s' := by
  cases a with
  | enqueue cfg bytesIn bytesOut connectionDeltas =>
    obtain rfl := Option.some.inj hs
    unfold Reporter.enqueueTraffic
    dsimp only
    cases hkey : trafficKey env cfg ⟨bytesIn, bytesOut, connectionDeltas.headD 0⟩ with
    | none => exact h
    | some key => exact h.add (hfit key hkey)
  | flush order =>
    simp only [System.step] at hs
    split at hs
    · rename_i hidle
      obtain rfl := Option.some.inj hs
      have hnd : order.Nodup := hidle.2.2.nodup_iff.mpr (List.nodup_dedup _)
      have hnil : ({ s.reporter with todo := [] } : Reporter) = s.reporter := by
        rw [← hidle.1]
      unfold Reporter.snapshot
      rw [hnil]
      refine Inv.freezeAll hids hnd h (fun k _ hmem => ?_) hidle.2.1
      rw [hidle.1] at hmem
      cases hmem
    · cases hs
  | post key =>
    simp only [System.step] at hs
    split at hs
    · rename_i hp
      obtain rfl := Option.some.inj hs
      exact h.post hp
    · cases hs
  | deliver i =>
    obtain ⟨x, hx, hs⟩ := Option.bind_eq_some_iff.mp hs
    split at hs
    · obtain rfl := Option.some.inj hs
      exact h
    · rename_i hnew
      obtain rfl := Option.some.inj hs
      exact { h.toBase.deliver hids (List.mem_of_getElem? hx) hnew with
        held := h.held
        conserved := h.conserved }
  | fail =>
    obtain ⟨x, hx, hs⟩ := Option.bind_eq_some_iff.mp hs
    obtain rfl := Option.some.inj hs
    exact { h with posting := fun _ _ hpost => nomatch hpost }
  | succeed =>
    obtain ⟨⟨key, p⟩, hp, hs⟩ := Option.bind_eq_some_iff.mp hs
    split at hs
    · rename_i happlied
      obtain rfl := Option.some.inj hs
      exact h.acknowledge hp happlied
    · cases hs

end

/-- In every run in which no count wraps around: what was enqueued for a key and a rule
is what acknowledged reports carried and what its batch holds; until it is
acknowledged a report is posted again as it was; and a panel that applies a report at
most once has credited, of a key with no report pending, what was enqueued less what
waits in the batch, which is all of it when the key has no batch. -/
theorem traffic_conserved (env : Env) (hids : Function.Injective env.reportID) {as : List Act}
    {s : System}
    (h : Run (Guarded (Fits env) (Steps.ofFn (System.step env))) System.initial as s) :
    (∀ key rule m,
      enqueued s key rule m = acknowledged s key rule m + amount (s.reporter.batch key) rule m) ∧
    (∀ l₁ l₂ l₃ key p q, s.log = l₁ ++ .posted key p :: l₂ ++ .posted key q :: l₃ →
      (∀ x, .acknowledged key x ∉ l₂) → q = p) ∧
    (∀ key, s.reporter.pending.lookup key = none → ∀ rule m,
      s.credited key rule m + amount (s.reporter.batch key) rule m = enqueued s key rule m ∧
      (s.reporter.batches.lookup key = none → s.credited key rule m = enqueued s key rule m)) := by
  have hinv : Inv env s :=
    h.preserves (fun _ _ _ hs hinv => hinv.step hids hs.1 hs.2) (Inv.initial env)
  refine ⟨hinv.conserved, hinv.frozen, fun key hnone rule m => ?_⟩
  have hcredited := hinv.credited key rule m
  have hconserved := hinv.conserved key rule m
  unfold inFlight at hcredited
  rw [hnone] at hcredited
  have htotal : s.credited key rule m + amount (s.reporter.batch key) rule m
      = enqueued s key rule m := by
    rw [hcredited, hconserved]
    rfl
  refine ⟨htotal, fun hempty => ?_⟩
  have hzero : amount (s.reporter.batch key) rule m = 0 := by
    unfold Reporter.batch
    rw [hempty, Option.getD_none, amount_nil]
  omega

/-! ## Two runs -/

def unaryEnv : Env := ⟨fun s => s, fun s => s, fun n => String.ofList (List.replicate n 'x')⟩

theorem unaryEnv_injective : Function.Injective unaryEnv.reportID := by
  intro m n h
  have hlen := congrArg (fun s => s.toList.length) h
  simpa [unaryEnv] using hlen

def entryConfig : Config := ⟨"https://panel/", "token", "entry", 1, 42, 8080, ""⟩

def entryKey : Key := ⟨"", "https://panel", "token", fxpTrafficProducerID unaryEnv entryConfig⟩

/-- The test for `Fits`. -/
def fits (env : Env) (s : System) : Act → Bool
  | .enqueue cfg bytesIn bytesOut connectionDeltas =>
    let delta : Value := ⟨bytesIn, bytesOut, connectionDeltas.headD 0⟩
    match trafficKey env cfg delta with
    | none => true
    | some key => [Measure.bytesIn, .bytesOut, .connections].all (fun m =>
        amount (s.reporter.batch key) cfg.RuleID m + (delta.at m).toNat < 18446744073709551616)
  | _ => true

theorem fits_iff (env : Env) (s : System) (a : Act) (h : fits env s a = true) : Fits env s a := by
  cases a with
  | enqueue cfg bytesIn bytesOut connectionDeltas =>
    intro key hkey m
    simp only [fits, hkey, List.all_cons, List.all_nil, Bool.and_true, Bool.and_eq_true,
      decide_eq_true_eq] at h
    cases m
    · exact h.1
    · exact h.2.1
    · exact h.2.2
  | _ => trivial

/-- The first request is processed and its answer lost; the retry is confirmed, and the
traffic that came in between makes up the next report. -/
theorem traffic_conserved_lost_answer :
    ∃ s : System, Run (Guarded (Fits unaryEnv) (Steps.ofFn (System.step unaryEnv))) System.initial
      [.enqueue entryConfig 107 211 [3], .flush [entryKey], .post entryKey, .deliver 0, .fail,
        .enqueue entryConfig 13 17 [4], .flush [entryKey], .post entryKey, .deliver 1, .succeed,
        .flush [entryKey], .post entryKey, .deliver 2, .succeed] s ∧
      s.credited entryKey 42 .bytesIn = 120 ∧ enqueued s entryKey 42 .bytesIn = 120 ∧
      acknowledged s entryKey 42 .bytesIn = 120 := by
  obtain ⟨s, hexec, hpending, hbatches, htotal⟩ : ∃ s : System,
      exec (fun s a => if fits unaryEnv s a then s.step unaryEnv a else none) System.initial
        [.enqueue entryConfig 107 211 [3], .flush [entryKey], .post entryKey, .deliver 0, .fail,
          .enqueue entryConfig 13 17 [4], .flush [entryKey], .post entryKey, .deliver 1, .succeed,
          .flush [entryKey], .post entryKey, .deliver 2, .succeed] = some s ∧
      s.reporter.pending.lookup entryKey = none ∧ s.reporter.batches.lookup entryKey = none ∧
      enqueued s entryKey 42 .bytesIn = 120 :=
    ⟨_, rfl, rfl, rfl, rfl⟩
  have hrun := exec_guarded (fits_iff unaryEnv) hexec
  obtain ⟨hledger, -, hpanel⟩ := traffic_conserved unaryEnv unaryEnv_injective hrun
  refine ⟨s, hrun, ?_, htotal, ?_⟩
  · rw [(hpanel entryKey hpending 42 .bytesIn).2 hbatches]
    exact htotal
  · have hentry := hledger entryKey 42 .bytesIn
    have hempty : s.reporter.batch entryKey = [] := by
      unfold Reporter.batch
      rw [hbatches]
      rfl
    rw [hempty, amount_nil] at hentry
    omega

/-- While a report of 10 bytes is on its way, traffic comes in that makes the count of the
batch wrap around to 0; its acknowledgement then empties the batch, and what came in
last is never reported. -/
theorem wrapped_count_is_lost :
    ∃ s : System, Run (Steps.ofFn (System.step unaryEnv)) System.initial
      [.enqueue entryConfig 10 0 [], .flush [entryKey], .post entryKey, .deliver 0,
        .enqueue entryConfig 18446744073709551606 0 [], .succeed] s ∧
      s.reporter.pending = [] ∧ s.reporter.batches = [] ∧
      enqueued s entryKey 42 .bytesIn = 18446744073709551616 ∧
      acknowledged s entryKey 42 .bytesIn = 10 ∧ s.credited entryKey 42 .bytesIn = 10 := by
  obtain ⟨s, hexec, hs⟩ : ∃ s : System, exec (System.step unaryEnv) System.initial
      [.enqueue entryConfig 10 0 [], .flush [entryKey], .post entryKey, .deliver 0,
        .enqueue entryConfig 18446744073709551606 0 [], .succeed] = some s ∧
      s.reporter.pending = [] ∧ s.reporter.batches = [] ∧
      enqueued s entryKey 42 .bytesIn = 18446744073709551616 ∧
      acknowledged s entryKey 42 .bytesIn = 10 ∧ s.credited entryKey 42 .bytesIn = 10 :=
    ⟨_, rfl, rfl, rfl, rfl, rfl, rfl⟩
  exact ⟨s, exec_run hexec, hs⟩

end ForwardX.Fxp.Traffic
