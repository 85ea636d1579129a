import ForwardX.Panel.HealthDecay

/- What has happened to a member of a failover group, told apart from its row. A log has the
   evaluations that have begun, what each has found of the member, and the Agent's decisions
   of its check from China. The row's windows `failureSince` and `healthySince` are dates;
   `Window.FoundSince` and `Window.Upheld` say what in the log gives such a date its force.

   An evaluation reads the rows when it begins and writes each when it has looked at the
   member; a report may come in between. So an update that is due to the row as it was read
   may undo a decision, and one that is not due may let a decision stand that the
   evaluation did not know of (`Window.Stands`). -/
namespace ForwardX.Panel.Failover

open Ddns

/-! ## The log of a member -/

/-- An evaluation has read the rows; one has found `f` of the member at `now`; the Agent has
decided for or against it. -/
inductive Entry
  | began
  | assessed (now : Int) (f : Findings)
  | decided (healthy : Bool)
  deriving DecidableEq, Repr

def Entry.isDecision : Entry → Bool
  | .decided _ => true
  | _ => false

def lastAssessed (log : List Entry) : List Entry := log.dropWhile Entry.isDecision

inductive Window
  | failure | recovery
  deriving DecidableEq, Repr

namespace Window

def holds : Window → Findings → Bool
  | failure, f => !f.healthy && !f.healthPending
  | recovery, f => f.healthy

/-- Since when it is so, by an evaluation at `now`. -/
def start : Window → Int → Findings → Int
  | failure, now, f => f.observedFailureSince.getD now
  | recovery, now, _ => now

def decision : Window → Bool
  | failure => false
  | recovery => true

def seconds : Window → HealthSettings → Int
  | failure, settings => settings.failoverSeconds
  | recovery, settings => settings.recoverSeconds

def column : Window → MemberColumns → Option Int
  | failure, m => m.failureSince
  | recovery, m => m.healthySince

def value : Window → Member → Findings → Int → Option Int
  | failure, m, f, now => failureSinceOf m f now
  | recovery, m, f, now => healthySinceOf m f now

end Window

def Entry.Keeps (W : Window) : Entry → Prop
  | .assessed _ f => W.holds f = true
  | _ => True

/-- An evaluation that finds it so and dates it, in whole seconds, no later than `since`. -/
def Entry.Dates (W : Window) (since : Int) : Entry → Prop
  | .assessed now f => W.holds f = true ∧ stored (W.start now f) ≤ since
  | _ => False

/-- Every evaluation has found it so, from one on that dates it no later than `since`. -/
inductive Window.FoundSince (W : Window) (since : Int) : List Entry → Prop
  | found {log : List Entry} {e : Entry} (he : e.Dates W since) : FoundSince W since (e :: log)
  | kept {log : List Entry} {e : Entry} (h : FoundSince W since log) (he : e.Keeps W) :
      FoundSince W since (e :: log)

instance (W : Window) : DecidablePred (Entry.Keeps W)
  | .assessed _ _ => inferInstanceAs (Decidable (_ = _))
  | .began => isTrue trivial
  | .decided _ => isTrue trivial

instance (W : Window) (since : Int) : DecidablePred (Entry.Dates W since)
  | .assessed _ _ => inferInstanceAs (Decidable (_ ∧ _))
  | .began => isFalse id
  | .decided _ => isFalse id

theorem Window.foundSince_cons {W : Window} {since : Int} {e : Entry} {log : List Entry} :
    W.FoundSince since (e :: log) ↔ e.Dates W since ∨ e.Keeps W ∧ W.FoundSince since log := by
  constructor
  · intro h
    cases h with
    | found he => exact Or.inl he
    | kept h he => exact Or.inr ⟨he, h⟩
  · rintro (he | ⟨he, h⟩)
    · exact .found he
    · exact .kept h he

def Window.decFoundSince (W : Window) (since : Int) : (log : List Entry) → Decidable (W.FoundSince since log)
  | [] => isFalse fun h => by cases h
  | e :: log =>
    have := W.decFoundSince since log
    decidable_of_iff (e.Dates W since ∨ e.Keeps W ∧ W.FoundSince since log) foundSince_cons.symm

instance (W : Window) (since : Int) : DecidablePred (W.FoundSince since) := W.decFoundSince since

/-- The Agent's latest decision opens the window, and every evaluation begun after it has found it
so; `begun` tells whether there is one. -/
inductive Window.Stands (W : Window) : Bool → List Entry → Prop
  | decided (log : List Entry) : Stands W false (.decided W.decision :: log)
  | began {begun : Bool} {log : List Entry} (h : Stands W begun log) : Stands W true (.began :: log)
  | assessed {begun : Bool} {log : List Entry} {now : Int} {f : Findings} (h : Stands W begun log)
      (hf : begun = true → W.holds f = true) : Stands W begun (.assessed now f :: log)

/-- An evaluation has begun while the decision stood, and it and every one after it has found it
so. An evaluation goes by the row it has read: decisions that come between its beginning
and its look at the member are overtaken by what it finds. -/
inductive Window.Upheld (W : Window) : List Entry → Prop
  | stood {begun : Bool} {log : List Entry} (h : W.Stands begun log) : Upheld W (.began :: log)
  | began {log : List Entry} (h : Upheld W log) : Upheld W (.began :: log)
  | assessed {log : List Entry} {now : Int} {f : Findings} (h : Upheld W log) (hf : W.holds f = true) :
      Upheld W (.assessed now f :: log)
  | decided {log : List Entry} (h : Upheld W log) : Upheld W (.decided W.decision :: log)
  | overtaken {log decisions : List Entry} {now : Int} {f : Findings} (h : Upheld W (.began :: log))
      (hdecisions : ∀ e ∈ decisions, e.isDecision = true) (hf : W.holds f = true) :
      Upheld W (.assessed now f :: (decisions ++ .began :: log))

namespace Window

variable {W : Window} {log : List Entry} {since : Int}

theorem FoundSince.mono {since' : Int} (h : W.FoundSince since log) (hle : since ≤ since') :
    W.FoundSince since' log := by
  induction h with
  | @found log e he =>
    cases e with
    | assessed => exact .found ⟨he.1, he.2.trans hle⟩
    | began | decided => cases he
  | kept _ he ih => exact ih.kept he

theorem FoundSince.stored (h : W.FoundSince since log) : W.FoundSince (Ddns.stored since) log := by
  induction h with
  | @found log e he =>
    cases e with
    | assessed now f =>
      obtain ⟨hf, hstart⟩ := he
      refine .found ⟨hf, ?_⟩
      rw [← stored_stored]
      exact stored_mono hstart
    | began | decided => cases he
  | kept _ he ih => exact ih.kept he

/-- What a date in the row stands for. -/
inductive RowBacked (W : Window) (log : List Entry) (since : Int) : Prop
  | found (h : W.FoundSince since log)
  | upheld (h : W.Upheld log)
  | stands {begun : Bool} (h : W.Stands begun log)

/-- What a date stands for that an evaluation has read, until it looks at the member. -/
inductive ReadBacked (W : Window) : List Entry → Int → Prop
  | found {log : List Entry} {since : Int} (h : W.FoundSince since log) : ReadBacked W log since
  | upheld {log decisions : List Entry} {since : Int} (h : W.Upheld (.began :: log))
      (hdecisions : ∀ e ∈ decisions, e.isDecision = true) : ReadBacked W (decisions ++ .began :: log) since

/-- What the date stands for that an evaluation reckons with. -/
inductive Backed (W : Window) (log : List Entry) (since : Int) : Prop
  | found (h : W.FoundSince since log)
  | upheld (h : W.Upheld log)

theorem RowBacked.began (h : W.RowBacked log since) : W.RowBacked (.began :: log) since := by
  cases h with
  | found h => exact .found (h.kept trivial)
  | upheld h => exact .upheld h.began
  | stands h => exact .stands h.began

theorem RowBacked.read (h : W.RowBacked log since) : W.ReadBacked (.began :: log) since := by
  have hnone : ∀ e ∈ ([] : List Entry), e.isDecision = true := fun _ he => (nomatch he)
  cases h with
  | found h => exact .found (h.kept trivial)
  | upheld h => exact .upheld h.began hnone
  | stands h => exact .upheld (.stood h) hnone

theorem ReadBacked.decided (h : W.ReadBacked log since) (healthy : Bool) :
    W.ReadBacked (.decided healthy :: log) since := by
  cases h with
  | found h => exact .found (h.kept trivial)
  | upheld h hdecisions => exact .upheld h (List.forall_mem_cons.mpr ⟨rfl, hdecisions⟩)

theorem Backed.row (h : W.Backed log since) : W.RowBacked log since := by
  cases h with
  | found h => exact .found h
  | upheld h => exact .upheld h

theorem Backed.stored (h : W.Backed log since) : W.Backed log (Ddns.stored since) := by
  cases h with
  | found h => exact .found h.stored
  | upheld h => exact .upheld h

theorem ReadBacked.assessed {now : Int} {f : Findings} (h : W.ReadBacked log since) (hf : W.holds f = true) :
    W.Backed (.assessed now f :: log) since := by
  cases h with
  | found h => exact .found (h.kept hf)
  | upheld h hdecisions => exact .upheld (h.overtaken hdecisions hf)

/-! ## Dates -/

variable {m : Member} {now : Int} {f : Findings}

theorem value_eq_some (h : W.value m f now = some since) :
    W.holds f = true ∧ (W.column m.columns = some since ∨ since = W.start now f) := by
  cases W with
  | failure =>
    obtain ⟨hhealthy, hpending⟩ := failing_of_failureSince h
    refine ⟨by simp [holds, hhealthy, hpending], ?_⟩
    simp only [value, failureSinceOf_failing hhealthy hpending, Option.some.injEq] at h
    subst h
    show m.columns.failureSince = _ ∨ _ = f.observedFailureSince.getD now
    unfold failureStart
    cases m.columns.failureSince with
    | none => cases f.observedFailureSince <;> simp
    | some since =>
      cases f.observedFailureSince with
      | none => exact Or.inl rfl
      | some date =>
        by_cases hlt : date < since
        · exact Or.inr (if_pos hlt)
        · exact Or.inl (congrArg some (if_neg hlt).symm)
  | recovery =>
    simp only [value, healthySinceOf] at h
    split at h
    next hhealthy =>
      refine ⟨hhealthy, ?_⟩
      cases hrow : m.columns.healthySince with
      | none =>
        simp only [hrow, Option.getD_none, Option.some.injEq] at h
        exact Or.inr h.symm
      | some date =>
        simp only [hrow, Option.getD_some] at h
        exact Or.inl (hrow.trans h)
    next => cases h

/-- The date that an evaluation reckons with stands for something, if the row's does that it has
read. -/
theorem backed_of_value (hread : ∀ since ∈ W.column m.columns, W.ReadBacked log since)
    (h : W.value m f now = some since) : W.Backed (.assessed now f :: log) since := by
  obtain ⟨hholds, hrow | rfl⟩ := value_eq_some h
  · exact (hread since hrow).assessed hholds
  · exact .found (.found ⟨hholds, stored_le _⟩)

end Window

/-! ## The row -/

/-- The update of a row by an evaluation that has read it as `m`: `writeMember` on the row as it is
by then. -/
def updateRow (row : MemberColumns) (m : Member) (available : Bool) (f : Findings) (now : Int) :
    MemberColumns :=
  let healthStateChanged := m.columns.healthStatus ≠ nextHealthStatus f ∨
    m.columns.failureSince ≠ failureSinceOf m f now ∨ m.columns.healthySince ≠ healthySinceOf m f now
  let healthSnapshotDue := available && m.columns.lastCheckedAt.all fun last => 5 * 60 * 1000 ≤ now - last
  if healthStateChanged ∨ healthSnapshotDue then
    { row with
      healthStatus := nextHealthStatus f
      failureSince := (failureSinceOf m f now).map stored
      healthySince := (healthySinceOf m f now).map stored
      lastCheckedAt := if available then some (stored now) else row.lastCheckedAt
      updatedAt := stored now }
  else row

/-- `resetForwardGroupChinaHealth`, of one row. -/
def resetForwardGroupChinaHealth (m : MemberColumns) (now : Int) : MemberColumns :=
  { m with
    healthStatus := .unknown
    chinaHealthStatus := .unknown
    chinaHealthCheckedAt := none
    failureSince := none
    healthySince := none
    lastCheckedAt := none
    updatedAt := stored now }

/-- What a report adds to the log: the Agent's decision, if it has one. -/
def decisionOf (group : HealthSettings) (input : ChinaHealthReport) : List Entry :=
  if group.chinaHealthCheckEnabled then
    match input.healthStatus with
    | some .healthy => [.decided true]
    | some .unhealthy => [.decided false]
    | _ => []
  else []

section
variable (W : Window) (row : MemberColumns) {m : Member} {f : Findings} {now : Int}

/-- An update writes the window, or the row that was read had its date already. -/
theorem updateRow_column (m : Member) (available : Bool) (f : Findings) (now : Int) :
    W.column (updateRow row m available f now) = (W.value m f now).map stored ∨
      W.column (updateRow row m available f now) = W.column row ∧ W.column m.columns = W.value m f now := by
  simp only [updateRow]
  split
  next => cases W <;> exact Or.inl rfl
  next hunchanged =>
    push Not at hunchanged
    cases W with
    | failure => exact Or.inr ⟨rfl, hunchanged.1.2.1⟩
    | recovery => exact Or.inr ⟨rfl, hunchanged.1.2.2⟩

theorem reset_column (now : Int) : W.column (resetForwardGroupChinaHealth row now) = none := by
  cases W <;> rfl

/-- A report leaves a window as it is, or the Agent decides and opens or closes it. -/
theorem report_column (group : HealthSettings) (input : ChinaHealthReport) (now : Int) :
    decisionOf group input = [] ∧
        W.column (updateForwardGroupMemberChinaHealth group row input now) = W.column row ∨
      decisionOf group input = [.decided W.decision] ∨
      W.column (updateForwardGroupMemberChinaHealth group row input now) = none ∧
        decisionOf group input = [.decided !W.decision] := by
  unfold decisionOf updateForwardGroupMemberChinaHealth
  by_cases hchina : group.chinaHealthCheckEnabled = true
  · rw [if_pos hchina, if_neg (not_not.mpr hchina)]
    cases input.healthStatus with
    | none => cases W <;> exact Or.inl ⟨rfl, rfl⟩
    | some status =>
      cases status with
      | unknown => cases W <;> exact Or.inl ⟨rfl, rfl⟩
      | healthy =>
        cases W with
        | failure => exact Or.inr (Or.inr ⟨rfl, rfl⟩)
        | recovery => exact Or.inr (Or.inl rfl)
      | unhealthy =>
        cases W with
        | failure => exact Or.inr (Or.inl rfl)
        | recovery => exact Or.inr (Or.inr ⟨rfl, rfl⟩)
  · rw [if_neg hchina, if_pos hchina]
    exact Or.inl ⟨rfl, rfl⟩

end

end ForwardX.Panel.Failover
