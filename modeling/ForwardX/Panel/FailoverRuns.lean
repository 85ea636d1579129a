import ForwardX.Lib.Transition
import ForwardX.Panel.FailoverRound

/- Runs of a failover group. The evaluations of a group run one at a time, under the lock
   `forward-group-failover`; each reads the group and its members' rows, looks at one member
   after the other, writes that member's row, and at last chooses. Between any two of these
   steps the Agent reports, members come and go and are edited, the check from China is reset,
   and the group's row is edited. A log tells what has happened to each member. -/
namespace ForwardX.Panel.Failover

open Ddns Transition

/-! ## The rows and the evaluation under way -/

/-- A row of `forward_group_members`. -/
structure MemberRow where
  id : Nat
  priority : Int
  columns : MemberColumns
  deriving DecidableEq, Repr

/-- What an evaluation reads when it comes to a member, the two latencies of the row included. -/
structure Visit where
  lastLatencyMs : Option Int
  chinaHealthLatencyMs : Option Int
  hostId : Nat
  host : Option HostLiveness
  childRules : List ChildRule
  templates : List TemplateRule
  now : Int
  deriving DecidableEq, Repr

def MemberRow.sighting (row : MemberRow) (visit : Visit) : Sighting where
  member :=
    { id := row.id
      priority := row.priority
      columns := row.columns
      lastLatencyMs := visit.lastLatencyMs
      chinaHealthLatencyMs := visit.chinaHealthLatencyMs
      hostId := visit.hostId
      host := visit.host
      childRules := visit.childRules }
  templates := visit.templates
  now := visit.now

/-- An evaluation that holds the lock: the group's row as it was read, and the rows of the members
it has not come to. -/
structure Underway extends Survey where
  group : GroupState
  todo : List MemberRow
  ids_nodup : (sightings.map (fun x => x.member.id) ++ todo.map MemberRow.id).Nodup

def Underway.round (l : Underway) (c : Commit) : Round where
  toSurvey := l.toSurvey
  toCommit := c
  ids_nodup := (List.nodup_append.mp l.ids_nodup).1

/-- The rows of a group, what has happened to its members, and the evaluation under way. -/
structure World where
  group : GroupState
  rows : List MemberRow
  ids_nodup : (rows.map MemberRow.id).Nodup
  log : Nat → List Entry
  underway : Option Underway

/-! ## Steps -/

namespace World

variable (w : World)

/-- A write that leaves every row its id. -/
def mapRows (f : MemberRow → MemberRow) (hid : ∀ row, (f row).id = row.id) : World :=
  { w with
    rows := w.rows.map f
    ids_nodup := by
      have hids : MemberRow.id ∘ f = MemberRow.id := funext hid
      rw [List.map_map, hids]
      exact w.ids_nodup }

/-- A write of the member `id`. -/
def write (id : Nat) (f : MemberRow → MemberRow) (hid : ∀ row, (f row).id = row.id) : World :=
  w.mapRows (fun row => if row.id = id then f row else row) fun row => by
    split
    · exact hid row
    · rfl

def writeColumns (id : Nat) (f : MemberColumns → MemberColumns) : World :=
  w.write id (fun row => { row with columns := f row.columns }) fun _ => rfl

def note (id : Nat) (entries : List Entry) : World :=
  { w with log := Function.update w.log id (entries ++ w.log id) }

/-- The group and its members are read, by priority. -/
def getForwardGroupById (settings : HealthSettings) (updatedAt createdAt : Option Int) : World :=
  { w with
    log := fun id => .began :: w.log id
    underway := some
      { settings, updatedAt, createdAt
        sightings := []
        group := w.group
        todo := w.rows.insertionSort fun x y => x.priority ≤ y.priority
        ids_nodup := ((List.perm_insertionSort _ _).map MemberRow.id).nodup_iff.mpr w.ids_nodup } }

/-- The next member is evaluated, and its row written. -/
def evaluateMemberHealth (l : Underway) (row : MemberRow) (rest : List MemberRow) (htodo : l.todo = row :: rest)
    (visit : Visit) : World :=
  let x := row.sighting visit
  let f := l.found x
  { (w.writeColumns row.id fun columns =>
      updateRow columns x.member (x.member.liveness x.now).available f x.now).note row.id [.assessed x.now f] with
    underway := some
      { l with
        sightings := l.sightings ++ [x]
        todo := rest
        ids_nodup := by
          have hnodup := l.ids_nodup
          rw [htodo] at hnodup
          simpa [x, MemberRow.sighting] using hnodup } }

def conclude (l : Underway) (c : Commit) : World :=
  { w with
    group := (l.round c).run l.group
    underway := none }

/-- `updateForwardGroupMemberChinaHealth`. -/
def report (id : Nat) (settings : HealthSettings) (input : ChinaHealthReport) (now : Int) : World :=
  (w.writeColumns id fun columns => updateForwardGroupMemberChinaHealth settings columns input now).note id
    (decisionOf settings input)

/-- `resetForwardGroupChinaHealth`. -/
def reset (now : Int) : World :=
  w.mapRows (fun row => { row with columns := resetForwardGroupChinaHealth row.columns now }) fun _ => rfl

/-- A member is added, with an id that is free. -/
def insert (id : Nat) (priority : Int) (isEnabled : Bool) (now : Int) (hfree : id ∉ w.rows.map MemberRow.id) :
    World :=
  { w with
    rows := w.rows ++ [⟨id, priority, ⟨isEnabled, .unknown, none, .unknown, none, none, none, stored now⟩⟩]
    ids_nodup := by
      rw [List.map_append]
      exact w.ids_nodup.append (List.nodup_singleton _) (by simpa using hfree) }

/-- A member is edited, or moved to another place. -/
def edit (id : Nat) (priority : Int) (isEnabled : Bool) (now : Int) : World :=
  w.write id
    (fun row => { row with priority, columns := { row.columns with isEnabled, updatedAt := stored now } })
    fun _ => rfl

def delete (id : Nat) : World :=
  { w with
    rows := w.rows.filter fun row => row.id ≠ id
    ids_nodup := w.ids_nodup.sublist (List.filter_sublist.map _) }

end World

/-- What happens to a group. An evaluation ends with its choice, or is given up where something
throws; the group's row is edited but for `activeMemberId`, which only evaluations write, and
an edit that falls into an evaluation is one after it. -/
inductive Event
  | getForwardGroupById (settings : HealthSettings) (updatedAt createdAt : Option Int)
  | evaluateMemberHealth (visit : Visit)
  | conclude (c : Commit)
  | giveUp
  | report (id : Nat) (settings : HealthSettings) (input : ChinaHealthReport) (now : Int)
  | reset (now : Int)
  | insert (id : Nat) (priority : Int) (isEnabled : Bool) (now : Int)
  | edit (id : Nat) (priority : Int) (isEnabled : Bool) (now : Int)
  | delete (id : Nat)
  | editGroup (s : GroupState)

def step (w : World) : Event → Option World
  | .getForwardGroupById settings updatedAt createdAt =>
    match w.underway with
    | some _ => none
    | none => some (w.getForwardGroupById settings updatedAt createdAt)
  | .evaluateMemberHealth visit =>
    match w.underway with
    | none => none
    | some l =>
      match htodo : l.todo with
      | [] => none
      | row :: rest => some (w.evaluateMemberHealth l row rest htodo visit)
  | .conclude c =>
    match w.underway with
    | none => none
    | some l => if l.todo.isEmpty then some (w.conclude l c) else none
  | .giveUp => some { w with underway := none }
  | .report id settings input now => some (w.report id settings input now)
  | .reset now => some (w.reset now)
  | .insert id priority isEnabled now =>
    if hfree : id ∈ w.rows.map MemberRow.id then none else some (w.insert id priority isEnabled now hfree)
  | .edit id priority isEnabled now => some (w.edit id priority isEnabled now)
  | .delete id => some (w.delete id)
  | .editGroup s => some { w with group := { s with activeMemberId := w.group.activeMemberId } }

inductive Happens (w : World) : Event → World → Prop
  | getForwardGroupById (settings : HealthSettings) (updatedAt createdAt : Option Int) (hidle : w.underway = none) :
      Happens w (.getForwardGroupById settings updatedAt createdAt) (w.getForwardGroupById settings updatedAt createdAt)
  | evaluateMemberHealth {l : Underway} (hl : w.underway = some l) {row : MemberRow} {rest : List MemberRow}
      (htodo : l.todo = row :: rest) (visit : Visit) :
      Happens w (.evaluateMemberHealth visit) (w.evaluateMemberHealth l row rest htodo visit)
  | conclude {l : Underway} (hl : w.underway = some l) (hdone : l.todo = []) (c : Commit) :
      Happens w (.conclude c) (w.conclude l c)
  | giveUp : Happens w .giveUp { w with underway := none }
  | report (id : Nat) (settings : HealthSettings) (input : ChinaHealthReport) (now : Int) :
      Happens w (.report id settings input now) (w.report id settings input now)
  | reset (now : Int) : Happens w (.reset now) (w.reset now)
  | insert {id : Nat} (priority : Int) (isEnabled : Bool) (now : Int) (hfree : id ∉ w.rows.map MemberRow.id) :
      Happens w (.insert id priority isEnabled now) (w.insert id priority isEnabled now hfree)
  | edit (id : Nat) (priority : Int) (isEnabled : Bool) (now : Int) :
      Happens w (.edit id priority isEnabled now) (w.edit id priority isEnabled now)
  | delete (id : Nat) : Happens w (.delete id) (w.delete id)
  | editGroup (s : GroupState) :
      Happens w (.editGroup s) { w with group := { s with activeMemberId := w.group.activeMemberId } }

theorem happens_of_step {w w' : World} {e : Event} (h : step w e = some w') : Happens w e w' := by
  cases e with
  | getForwardGroupById settings updatedAt createdAt =>
    simp only [step] at h
    split at h
    next => cases h
    next hidle =>
      cases h
      exact .getForwardGroupById settings updatedAt createdAt hidle
  | evaluateMemberHealth visit =>
    simp only [step] at h
    split at h
    next => cases h
    next l hl =>
      split at h
      next => cases h
      next row rest htodo =>
        cases h
        exact .evaluateMemberHealth hl htodo visit
  | conclude c =>
    simp only [step] at h
    split at h
    next => cases h
    next l hl =>
      split at h
      next hdone =>
        cases h
        exact .conclude hl (List.isEmpty_iff.mp hdone) c
      next => cases h
  | insert id priority isEnabled now =>
    simp only [step] at h
    split at h
    next => cases h
    next hfree =>
      cases h
      exact .insert priority isEnabled now hfree
  | giveUp =>
    cases h
    exact .giveUp
  | report id settings input now =>
    cases h
    exact .report id settings input now
  | reset now =>
    cases h
    exact .reset now
  | edit id priority isEnabled now =>
    cases h
    exact .edit id priority isEnabled now
  | delete id =>
    cases h
    exact .delete id
  | editGroup s =>
    cases h
    exact .editGroup s

/-! ## What the dates stand for -/

/-- An evaluation under way has looked at members whose dates stand for something; those of the
others do until it comes to them, and the row has kept its date, lost it, or got it from
the Agent. -/
structure Underway.Ok (w : World) (l : Underway) : Prop where
  active : l.group.activeMemberId = w.group.activeMemberId
  seen : ∀ W, ∀ x ∈ l.sightings, ∀ since ∈ l.date W x, W.Backed (lastAssessed (w.log x.member.id)) since
  read : ∀ W : Window, ∀ t ∈ l.todo, ∀ since ∈ W.column t.columns, W.ReadBacked (w.log t.id) since
  kept : ∀ W : Window, ∀ t ∈ l.todo, ∀ row ∈ w.rows, row.id = t.id →
    W.column row.columns = W.column t.columns ∨ W.column row.columns = none ∨ W.Stands false (w.log t.id)

structure Inv (w : World) : Prop where
  rows : ∀ W : Window, ∀ row ∈ w.rows, ∀ since ∈ W.column row.columns, W.RowBacked (w.log row.id) since
  underway : ∀ l ∈ w.underway, l.Ok w

section
variable {w w' : World}

theorem Inv.of_rows (h : Inv w) (hlog : w'.log = w.log) (hactive : w'.group.activeMemberId = w.group.activeMemberId)
    (hunderway : w'.underway = w.underway)
    (hrows : ∀ W : Window, ∀ row' ∈ w'.rows, W.column row'.columns = none ∨
      ∃ row ∈ w.rows, row.id = row'.id ∧ W.column row.columns = W.column row'.columns) : Inv w' := by
  constructor
  · intro W row' hrow' since hsince
    obtain hnone | ⟨row, hrow, hid, hcolumn⟩ := hrows W row' hrow'
    · rw [hnone] at hsince
      cases hsince
    · rw [hlog, ← hid]
      exact h.rows W row hrow since (hcolumn ▸ hsince)
  · rw [hunderway]
    intro l hl
    obtain ⟨hsame, hseen, hread, hkept⟩ := h.underway l hl
    refine ⟨hsame.trans hactive.symm, hlog ▸ hseen, hlog ▸ hread, fun W t ht row' hrow' hid' => ?_⟩
    obtain hnone | ⟨row, hrow, hid, hcolumn⟩ := hrows W row' hrow'
    · exact Or.inr (Or.inl hnone)
    · rw [hlog, ← hcolumn]
      exact hkept W t ht row hrow (hid.trans hid')

theorem Inv.mapRows (h : Inv w) {f : MemberRow → MemberRow} (hid : ∀ row, (f row).id = row.id)
    (hf : ∀ W : Window, ∀ row, W.column (f row).columns = none ∨ W.column (f row).columns = W.column row.columns) :
    Inv (w.mapRows f hid) := by
  refine h.of_rows rfl rfl rfl fun W row' hrow' => ?_
  obtain ⟨row, hrow, rfl⟩ := List.mem_map.mp hrow'
  exact (hf W row).imp_right fun hsame => ⟨row, hrow, (hid row).symm, hsame.symm⟩

theorem Inv.reset (h : Inv w) (now : Int) : Inv (w.reset now) :=
  h.mapRows _ fun W row => Or.inl (reset_column W row.columns now)

theorem Inv.edit (h : Inv w) (id : Nat) (priority : Int) (isEnabled : Bool) (now : Int) :
    Inv (w.edit id priority isEnabled now) := by
  unfold World.edit World.write
  apply h.mapRows
  intro W row
  right
  split
  · cases W <;> rfl
  · rfl

theorem Inv.insert (h : Inv w) {id : Nat} (priority : Int) (isEnabled : Bool) (now : Int)
    (hfree : id ∉ w.rows.map MemberRow.id) : Inv (w.insert id priority isEnabled now hfree) := by
  refine h.of_rows rfl rfl rfl fun W row hrow => ?_
  rcases List.mem_append.mp hrow with hrow | hnew
  · exact Or.inr ⟨row, hrow, rfl, rfl⟩
  · rw [List.mem_singleton.mp hnew]
    cases W <;> exact Or.inl rfl

theorem Inv.delete (h : Inv w) (id : Nat) : Inv (w.delete id) :=
  h.of_rows rfl rfl rfl fun _ row hrow => Or.inr ⟨row, List.mem_of_mem_filter hrow, rfl, rfl⟩

theorem Inv.idle (h : Inv w) (group : GroupState) : Inv { w with group, underway := none } :=
  ⟨h.rows, fun _ hl => (nomatch hl)⟩

theorem Inv.getForwardGroupById (h : Inv w) (settings : HealthSettings) (updatedAt createdAt : Option Int) :
    Inv (w.getForwardGroupById settings updatedAt createdAt) := by
  refine ⟨fun W row hrow since hsince => (h.rows W row hrow since hsince).began, fun l hl => ?_⟩
  cases hl
  refine ⟨rfl, fun _ x hx => (nomatch hx), fun W t ht since hsince => ?_, fun W t ht row hrow hid => Or.inl ?_⟩
  · exact (h.rows W t ((List.mem_insertionSort _).mp ht) since hsince).read
  · rw [List.inj_on_of_nodup_map w.ids_nodup hrow ((List.mem_insertionSort _).mp ht) hid]

theorem World.mem_writeColumns (w : World) (id : Nat) (f : MemberColumns → MemberColumns) {row' : MemberRow}
    (h : row' ∈ (w.writeColumns id f).rows) : ∃ row ∈ w.rows, row'.id = row.id ∧
      (row.id ≠ id ∧ row'.columns = row.columns ∨ row.id = id ∧ row'.columns = f row.columns) := by
  obtain ⟨row, hrow, rfl⟩ := List.mem_map.mp h
  refine ⟨row, hrow, ?_⟩
  by_cases hid : row.id = id
  · rw [if_pos hid]
    exact ⟨rfl, Or.inr ⟨hid, rfl⟩⟩
  · rw [if_neg hid]
    exact ⟨rfl, Or.inl ⟨hid, rfl⟩⟩

theorem lastAssessed_decided (group : HealthSettings) (input : ChinaHealthReport) (log : List Entry) :
    lastAssessed (decisionOf group input ++ log) = lastAssessed log := by
  unfold decisionOf
  split
  · split <;> rfl
  · rfl

theorem Window.ReadBacked.reported {W : Window} {log : List Entry} {since : Int} (h : W.ReadBacked log since)
    (group : HealthSettings) (input : ChinaHealthReport) : W.ReadBacked (decisionOf group input ++ log) since := by
  unfold decisionOf
  split
  · split
    · exact h.decided true
    · exact h.decided false
    · exact h
  · exact h

theorem Inv.report (h : Inv w) (id : Nat) (settings : HealthSettings) (input : ChinaHealthReport) (now : Int) :
    Inv (w.report id settings input now) := by
  have hother : ∀ k, k ≠ id → (w.report id settings input now).log k = w.log k :=
    fun k hk => Function.update_of_ne hk _ _
  have hsame : (w.report id settings input now).log id = decisionOf settings input ++ w.log id :=
    Function.update_self _ _ _
  have hrows : ∀ row' ∈ (w.report id settings input now).rows, ∃ row ∈ w.rows, row'.id = row.id ∧
      (row.id ≠ id ∧ row'.columns = row.columns ∨
        row.id = id ∧ row'.columns = updateForwardGroupMemberChinaHealth settings row.columns input now) :=
    fun _ => w.mem_writeColumns id fun columns => updateForwardGroupMemberChinaHealth settings columns input now
  constructor
  · intro W row' hrow' since hsince
    obtain ⟨row, hrow, hid', ⟨hne, hcolumns⟩ | ⟨rfl, hcolumns⟩⟩ := hrows row' hrow'
    · rw [hcolumns] at hsince
      rw [hid', hother row.id hne]
      exact h.rows W row hrow since hsince
    · rw [hcolumns] at hsince
      rw [hid', hsame]
      -- the Agent decides nothing, opens the window or closes it
      obtain ⟨hnothing, hcolumn⟩ | hdecided | ⟨hcolumn, -⟩ := report_column W row.columns settings input now
      · rw [hcolumn] at hsince
        rw [hnothing]
        exact h.rows W row hrow since hsince
      · rw [hdecided]
        exact .stands (.decided _)
      · rw [hcolumn] at hsince
        cases hsince
  · intro l hl
    obtain ⟨hactive, hseen, hread, hkept⟩ := h.underway l hl
    refine ⟨hactive, fun W x hx since hsince => ?_, fun W t ht since hsince => ?_, fun W t ht row' hrow' hid => ?_⟩
    · -- what has been found stays, whatever the Agent decides after it
      have hbacked := hseen W x hx since hsince
      by_cases hk : x.member.id = id
      · rw [hk] at hbacked
        rw [hk, hsame, lastAssessed_decided]
        exact hbacked
      · rw [hother _ hk]
        exact hbacked
    · have hbacked := hread W t ht since hsince
      by_cases hk : t.id = id
      · rw [hk] at hbacked
        rw [hk, hsame]
        exact hbacked.reported settings input
      · rw [hother _ hk]
        exact hbacked
    · obtain ⟨row, hrow, hid', ⟨hne, hcolumns⟩ | ⟨rfl, hcolumns⟩⟩ := hrows row' hrow'
      · have hbefore := hkept W t ht row hrow (hid'.symm.trans hid)
        rw [← hid, hid'] at hbefore
        rw [hcolumns, ← hid, hid', hother _ hne]
        exact hbefore
      · have hbefore := hkept W t ht row hrow (hid'.symm.trans hid)
        rw [← hid, hid'] at hbefore
        rw [hcolumns, ← hid, hid', hsame]
        obtain ⟨hnothing, hcolumn⟩ | hdecided | ⟨hcolumn, -⟩ := report_column W row.columns settings input now
        · rw [hcolumn, hnothing]
          exact hbefore
        · rw [hdecided]
          exact Or.inr (Or.inr (.decided _))
        · exact Or.inr (Or.inl hcolumn)

theorem Inv.evaluateMemberHealth (h : Inv w) {l : Underway} (hl : w.underway = some l) {t : MemberRow}
    {rest : List MemberRow} (htodo : l.todo = t :: rest) (visit : Visit) :
    Inv (w.evaluateMemberHealth l t rest htodo visit) := by
  obtain ⟨hactive, hseen, hread, hkept⟩ := h.underway l hl
  have hin : t ∈ l.todo := htodo ▸ List.mem_cons_self
  have hrest : ∀ u ∈ rest, u ∈ l.todo := fun u hu => htodo ▸ List.mem_cons_of_mem t hu
  have hnodup := l.ids_nodup
  rw [htodo, List.map_cons] at hnodup
  obtain ⟨-, hfirst, hapart⟩ := List.nodup_append.mp hnodup
  -- what is found of the member is the latest in its log
  have hsame : (w.evaluateMemberHealth l t rest htodo visit).log t.id =
      .assessed visit.now (l.found (t.sighting visit)) :: w.log t.id := Function.update_self _ _ _
  have hother : ∀ k, k ≠ t.id → (w.evaluateMemberHealth l t rest htodo visit).log k = w.log k :=
    fun k hk => Function.update_of_ne hk _ _
  have hrows : ∀ row' ∈ (w.evaluateMemberHealth l t rest htodo visit).rows, ∃ row ∈ w.rows, row'.id = row.id ∧
      (row.id ≠ t.id ∧ row'.columns = row.columns ∨
        row.id = t.id ∧ row'.columns = updateRow row.columns (t.sighting visit).member
          ((t.sighting visit).member.liveness visit.now).available (l.found (t.sighting visit)) visit.now) :=
    fun _ => w.mem_writeColumns t.id fun columns => updateRow columns (t.sighting visit).member
      ((t.sighting visit).member.liveness visit.now).available (l.found (t.sighting visit)) visit.now
  have hdate : ∀ W : Window, ∀ since, l.date W (t.sighting visit) = some since →
      W.Backed (.assessed visit.now (l.found (t.sighting visit)) :: w.log t.id) since :=
    fun W since hsince => Window.backed_of_value (m := (t.sighting visit).member) (hread W t hin) hsince
  constructor
  · intro W row' hrow' since hsince
    obtain ⟨row, hrow, hid', ⟨hne, hcolumns⟩ | ⟨hid, hcolumns⟩⟩ := hrows row' hrow'
    · rw [hcolumns] at hsince
      rw [hid', hother row.id hne]
      exact h.rows W row hrow since hsince
    · rw [hid', hid, hsame]
      rw [hcolumns] at hsince
      -- the date that was reckoned with is written, or the row is left as it is by now
      obtain hwritten | ⟨hleft, hcolumn⟩ := updateRow_column W row.columns (t.sighting visit).member _ _ _
      · rw [hwritten] at hsince
        obtain ⟨date, hdate', rfl⟩ := Option.map_eq_some_iff.mp hsince
        exact (hdate W date hdate').stored.row
      · rw [hleft] at hsince
        obtain hread' | hnone | hstands := hkept W t hin row hrow hid
        · exact (hdate W since (hcolumn.symm.trans (hread'.symm.trans hsince))).row
        · rw [hnone] at hsince
          cases hsince
        · exact .stands (hstands.assessed fun hbegun => nomatch hbegun)
  · intro l' hl'
    cases hl'
    refine ⟨hactive, fun W x hx since hsince => ?_, fun W u hu since hsince => ?_, fun W u hu row' hrow' hid => ?_⟩
    · rcases List.mem_append.mp hx with hx | hx
      · have hne : x.member.id ≠ t.id :=
          hapart _ (List.mem_map.mpr ⟨x, hx, rfl⟩) _ List.mem_cons_self
        rw [hother _ hne]
        exact hseen W x hx since hsince
      · cases List.mem_singleton.mp hx
        exact hsame ▸ hdate W since hsince
    · have hne : u.id ≠ t.id := fun heq =>
        (List.nodup_cons.mp hfirst).1 (heq ▸ List.mem_map.mpr ⟨u, hu, rfl⟩)
      rw [hother _ hne]
      exact hread W u (hrest u hu) since hsince
    · have hne : u.id ≠ t.id := fun heq =>
        (List.nodup_cons.mp hfirst).1 (heq ▸ List.mem_map.mpr ⟨u, hu, rfl⟩)
      rw [hother _ hne]
      obtain ⟨row, hrow, hid', ⟨-, hcolumns⟩ | ⟨hid'', -⟩⟩ := hrows row' hrow'
      · rw [hcolumns]
        exact hkept W u (hrest u hu) row hrow (hid'.symm.trans hid)
      · exact absurd (hid.symm.trans (hid'.trans hid'')) hne

theorem Inv.next {e : Event} (h : Inv w) (hstep : step w e = some w') : Inv w' := by
  cases happens_of_step hstep with
  | getForwardGroupById settings updatedAt createdAt => exact h.getForwardGroupById settings updatedAt createdAt
  | evaluateMemberHealth hl htodo visit => exact h.evaluateMemberHealth hl htodo visit
  | conclude => exact h.idle _
  | giveUp => exact h.idle w.group
  | report id settings input now => exact h.report id settings input now
  | reset now => exact h.reset now
  | insert priority isEnabled now hfree => exact h.insert priority isEnabled now hfree
  | edit id priority isEnabled now => exact h.edit id priority isEnabled now
  | delete id => exact h.delete id
  | editGroup => exact h.of_rows rfl rfl rfl fun _ row hrow => Or.inr ⟨row, hrow, rfl, rfl⟩

end

/-! ## Runs -/

/-- A group whose members have not been evaluated, and of which the Agent has not reported. -/
structure Begun (w : World) : Prop where
  rows : ∀ W : Window, ∀ row ∈ w.rows, W.column row.columns = none
  log : ∀ id, w.log id = []
  underway : w.underway = none

theorem Begun.inv {w : World} (h : Begun w) : Inv w := by
  constructor
  · intro W row hrow since hsince
    rw [h.rows W row hrow] at hsince
    cases hsince
  · intro l hl
    rw [h.underway] at hl
    cases hl

/-- What has happened to the member of `x`, as the evaluation has left it, gives the window its
length: it was found so for long enough, or the Agent's decision was upheld. -/
def Window.Over (settings : HealthSettings) (log : Nat → List Entry) (W : Window) (x : Sighting) : Prop :=
  W.FoundSince (x.now - W.seconds settings * 1000) (lastAssessed (log x.member.id)) ∨
    W.Upheld (lastAssessed (log x.member.id))

/-- A new group of two members. -/
def newGroup : World where
  group := ⟨none, none, .unknown, none, fun _ => ∅⟩
  rows :=
    [⟨1, 1, ⟨true, .unknown, none, .unknown, none, none, none, 1690000000000⟩⟩,
      ⟨2, 2, ⟨true, .unknown, none, .unknown, none, none, none, 1690000000000⟩⟩]
  ids_nodup := by decide
  log := fun _ => []
  underway := none

/-- A look at the member `id`, whose one rule has been probed. -/
def visit (id : Nat) (status : ProbeStatus) (isTimeout : Bool) (now : Int) : Visit where
  lastLatencyMs := none
  chinaHealthLatencyMs := none
  hostId := id
  host := some ⟨false, some ⟨1700000000000, false, 1, 0⟩, 0, none, some 1690000000000, none⟩
  childRules := [⟨7, true, false, true, some ⟨1699999990000, status, isTimeout, none⟩⟩]
  templates := [⟨7, true, false⟩]
  now := now

/-- Neither the members' hosts nor the stored `active` member change. -/
def calm (active : Option Nat) (ddnsEnabled : Bool) (reply : Reply) : Commit where
  ddns := ⟨⟨fun s => s, fun _ => none⟩, "relay.example", .A, ddnsEnabled, true⟩
  autoFailback := true
  ddnsValue := fun id => if id = 1 then "192.0.2.1" else "192.0.2.2"
  forceSync := false
  before := ⟨some ⟨active, [1, 2]⟩, fun id => ⟨true, false, none, none, ⟨id, true, false, false, 1, 0⟩⟩⟩
  after := ⟨some ⟨active, [1, 2]⟩, fun id => ⟨true, false, none, none, ⟨id, true, false, false, 1, 0⟩⟩⟩
  preserving := ⟨[], []⟩
  reply := fun _ => reply

def looks (settings : HealthSettings) (visits : List Visit) : List Event :=
  .getForwardGroupById settings (some 1690000000000) (some 1690000000000) :: visits.map .evaluateMemberHealth

/-- The first member is well and chosen; then its probe times out for a minute. -/
def failing : List Event :=
  looks ⟨false, 60, 120⟩ [visit 1 .healthy false 1700000000100, visit 2 .healthy false 1700000000200] ++
    .conclude (calm none true .ok) ::
  looks ⟨false, 60, 120⟩ [visit 1 .other true 1700000015100, visit 2 .healthy false 1700000015200] ++
    .conclude (calm (some 1) true .ok) ::
  looks ⟨false, 60, 120⟩ [visit 1 .other true 1700000075100, visit 2 .healthy false 1700000075200] ++
    [.conclude (calm (some 1) true .ok)]

/-- The first member is unhealthy and the second chosen; then the Agent decides for the first, whose
rule has only a probe that did not time out. -/
def decidedFor : List Event :=
  .report 2 ⟨true, 60, 120⟩ ⟨false, some .healthy⟩ 1700000000000 ::
  looks ⟨true, 60, 120⟩ [visit 1 .unhealthy false 1700000000100, visit 2 .healthy false 1700000000200] ++
    .conclude (calm none false .failed) ::
  .report 1 ⟨true, 60, 120⟩ ⟨false, some .healthy⟩ 1700000010000 ::
  looks ⟨true, 60, 120⟩ [visit 1 .other false 1700000015100, visit 2 .healthy false 1700000015200]

def afterDecision : World := (exec step newGroup decidedFor).get (by decide)

def choosing : Underway := afterDecision.underway.get (by decide)

end ForwardX.Panel.Failover
