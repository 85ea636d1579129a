import ForwardX.Lib.Rows
import ForwardX.Lib.Transition
import ForwardX.Fxp.Normalization

/- The local endpoint of a process that adds entries and UDP targets (`additive_control.go`).
   An entry that is served owns an `entryRuntime` with its sockets. `apply` plans what a
   configuration adds, prepares the runtimes of the new entries and of those that have stopped,
   and only then takes the configuration over; a runtime that stops on its own does so between
   two calls, since `apply` reads of one only, and once, whether it is closed. -/
namespace ForwardX.Fxp.Control
open Transition

/-! ## Entry runtimes -/

structure EntryServer where
  network : Network
  isOpen : Bool
  deriving DecidableEq, Repr

/-- `entryRuntime`, with the sockets of its servers. -/
structure EntryRuntime where
  cfg : Config
  servers : List EntryServer
  closed : Bool

def EntryRuntime.close (runtime : EntryRuntime) : EntryRuntime :=
  if runtime.closed then runtime
  else { runtime with closed := true, servers := runtime.servers.map (fun server => { server with isOpen := false }) }

/-- What the system answers while an entry is prepared: the error of each call, if any. -/
structure Answers where
  listenTCP : Option String
  resolveUDP : Option String
  listenUDP : Option String

inductive ListenError
  | tcp (port : Int) (err : String)
  | resolve (err : String)
  | udp (port : Int) (err : String)
  deriving DecidableEq, Repr

def ListenError.text : ListenError → String
  | tcp port err => "entry tcp listen :" ++ toString port ++ ": " ++ err
  | resolve err => err
  | udp port err => "entry udp listen :" ++ toString port ++ ": " ++ err

/-- The half of `prepareEntryRuntime` that listens for TCP. -/
def prepareTCP (answers : Answers) (cfg : Config) : EntryRuntime × Option ListenError :=
  if protocolHas cfg.settings .tcp then
    match answers.listenTCP with
    | some err => (⟨cfg, [], false⟩, some (.tcp cfg.settings.ListenPort err))
    | none => (⟨cfg, [⟨.tcp, true⟩], false⟩, none)
  else (⟨cfg, [], false⟩, none)

/-- The half of `prepareEntryRuntime` that listens for UDP. -/
def prepareUDP (answers : Answers) (runtime : EntryRuntime) : EntryRuntime × Option ListenError :=
  if protocolHas runtime.cfg.settings .udp then
    match answers.resolveUDP with
    | some err => (runtime.close, some (.resolve err))
    | none =>
      match answers.listenUDP with
      | some err => (runtime.close, some (.udp (udpListenPort runtime.cfg.settings) err))
      | none => ({ runtime with servers := runtime.servers ++ [⟨.udp, true⟩] }, none)
  else (runtime, none)

/-- `prepareEntryRuntime`; with an error, the runtime is what was left behind. -/
def prepareEntryRuntime (answers : Answers) (cfg : Config) : EntryRuntime × Option ListenError :=
  match prepareTCP answers cfg with
  | (runtime, some err) => (runtime, some err)
  | (runtime, none) => prepareUDP answers runtime

/-- Prepare the runtimes of entries one after the other; the first error closes all of them. -/
def prepareAll (answers : Nat → Answers) (prepared : List EntryRuntime) :
    List Config → List EntryRuntime × Option (Config × ListenError)
  | [] => (prepared, none)
  | entry :: entries =>
    match prepareEntryRuntime (answers prepared.length) entry with
    | (runtime, some err) => (prepared.map EntryRuntime.close ++ [runtime], some (entry, err))
    | (runtime, none) => prepareAll answers (prepared ++ [runtime]) entries

/-! ## Plans -/

inductive ApplyError
  | stopping
  | config (err : ConfigError)
  | identity
  | groupSettings
  | duplicateRule
  | entryChanged
  | exitSettings
  | targetChanged
  | unsupported
  | listener (ruleID port : Int) (err : ListenError)

def ApplyError.text (quote : String → String) : ApplyError → String
  | stopping => "runtime is stopping"
  | config err => err.text quote
  | identity => "runtime identity changed"
  | groupSettings => "group settings changed"
  | duplicateRule => "duplicate rule"
  | entryChanged => "existing entry changed or removed"
  | exitSettings => "exit settings changed"
  | targetChanged => "existing UDP target changed or removed"
  | unsupported => "runtime does not support additions"
  | listener ruleID port err =>
    "new listener rule=" ++ toString ruleID ++ " port=" ++ toString port ++ ": " ++ err.text

def Config.ruleID (entry : Config) : Int := entry.settings.RuleID

/-- The entries by rule, or none if a rule has two. -/
def indexDesired (byID : List (Int × Config)) : List Config → Option (List (Int × Config))
  | [] => some byID
  | entry :: entries =>
    if (byID.lookup entry.ruleID).isSome then none
    else indexDesired (Assoc.put byID entry.ruleID entry) entries

/-- The desired entries that are not previous ones, or none if a previous one is not among them
as it was. -/
def removePrevious (byID : List (Int × Config)) : List Config → Option (List (Int × Config))
  | [] => some byID
  | entry :: entries =>
    if byID.lookup entry.ruleID = some entry then removePrevious (Assoc.erase byID entry.ruleID) entries
    else none

/-- `liveUDPTargets.set`; `byID` of the plan is the same map. -/
def targetTable (targets : List UdpTarget) : List (Int × UdpTarget) :=
  targets.foldl (fun table target => Assoc.put table target.RuleID target) []

def Config.withoutTargets (cfg : Config) : Config := .mk { cfg.settings with UDPTargets := [] } cfg.Entries

section
variable (u : Unicode)

def planFXPConfigAddition (old next : Config) : Except ApplyError (List Config) :=
  let old := normalizeConfig u old
  let next := normalizeConfig u next
  match validateConfig next with
  | some err => .error (.config err)
  | none =>
    if old.settings.Role ≠ next.settings.Role ∨ old.settings.TunnelID ≠ next.settings.TunnelID then .error .identity
    else if old.settings.Role = "entry-group" then
      if Config.mk old.settings [] ≠ Config.mk next.settings [] then .error .groupSettings
      else
        match indexDesired [] next.Entries with
        | none => .error .duplicateRule
        | some byID =>
          match removePrevious byID old.Entries with
          | none => .error .entryChanged
          | some byID => .ok (next.Entries.filter (fun entry => (byID.lookup entry.ruleID).isSome))
    else if old.settings.Role = "exit" then
      if old.withoutTargets ≠ next.withoutTargets then .error .exitSettings
      else if old.settings.UDPTargets.any (fun target =>
          ((targetTable next.settings.UDPTargets).lookup target.RuleID).getD ⟨0, "", 0⟩ ≠ target) then
        .error .targetChanged
      else .ok []
    else .error .unsupported

/-! ## The runtime -/

/-- `additiveFXPRuntime`; `heap` holds every entry runtime that was made, by its number, and
`udpTargetsLive` is a field of the configuration there. -/
structure AdditiveFXPRuntime where
  cfg : Config
  udpTargetsLive : Option (List (Int × UdpTarget))
  heap : List EntryRuntime
  runtimes : List Nat
  current : List (Int × Nat)
  done : Bool
  closed : Bool

/-- The table of current runtimes with those numbered from `first` on. -/
def register (current : List (Int × Nat)) (first : Nat) : List EntryRuntime → List (Int × Nat)
  | [] => current
  | runtime :: runtimes => register (Assoc.put current runtime.cfg.ruleID first) (first + 1) runtimes

def newAdditiveFXPRuntime (answers : Nat → Answers) (cfg : Config) : Except ListenError AdditiveFXPRuntime :=
  let cfg := normalizeConfig u cfg
  if cfg.settings.Role = "entry-group" then
    match prepareAll answers [] cfg.Entries with
    | (_, some (_, err)) => .error err
    | (prepared, none) =>
      .ok
        { cfg := cfg
          udpTargetsLive := none
          heap := prepared
          runtimes := List.range prepared.length
          current := register [] 0 prepared
          done := false
          closed := false }
  else
    .ok
      { cfg := cfg
        udpTargetsLive := some (targetTable cfg.settings.UDPTargets)
        heap := []
        runtimes := []
        current := []
        done := false
        closed := false }

namespace AdditiveFXPRuntime

def stopped (runtime : AdditiveFXPRuntime) (entry : Config) : Bool :=
  (runtime.current.lookup entry.ruleID).any (fun i => runtime.heap[i]?.any EntryRuntime.closed)

/-- `additiveFXPRuntime.apply`; the order in which `runtimes` is filled is the table's here. -/
def apply (runtime : AdditiveFXPRuntime) (answers : Nat → Answers) (next : Config) :
    AdditiveFXPRuntime × Option ApplyError :=
  if runtime.done || runtime.closed then (runtime, some .stopping)
  else
    let next := normalizeConfig u next
    match planFXPConfigAddition u runtime.cfg next with
    | .error err => (runtime, some err)
    | .ok additions =>
      match prepareAll answers [] (additions ++ next.Entries.filter runtime.stopped) with
      | (prepared, some (entry, err)) =>
        ({ runtime with heap := runtime.heap ++ prepared },
          some (.listener entry.ruleID entry.settings.ListenPort err))
      | (prepared, none) =>
        let current := register runtime.current runtime.heap.length prepared
        ({ runtime with
          cfg := next
          udpTargetsLive := runtime.udpTargetsLive.map (fun _ => targetTable next.settings.UDPTargets)
          heap := runtime.heap ++ prepared
          runtimes := current.map Prod.snd
          current := current }, none)

end AdditiveFXPRuntime

inductive ControlAction
  | apply (next : Config) (answers : Nat → Answers)
  /-- A server of an entry runtime has failed, or has seen that the process ends. -/
  | stop (i : Nat)
  | done
  /-- The end of `runControlledFXP`. -/
  | shutdown

def controlStep (runtime : AdditiveFXPRuntime) : ControlAction → Option AdditiveFXPRuntime
  | .apply next answers => some (runtime.apply u answers next).1
  | .stop i => some { runtime with heap := runtime.heap.modify i EntryRuntime.close }
  | .done => some { runtime with done := true }
  | .shutdown =>
    if runtime.done then
      some { runtime with
        closed := true
        heap := runtime.runtimes.foldl (fun heap i => heap.modify i EntryRuntime.close) runtime.heap }
    else none

end

/-! ## Preparing -/

/-- An entry that is served: a socket for each of its networks, none closed. -/
def listening (entry : Config) : EntryRuntime where
  cfg := entry
  servers := ([Network.tcp, Network.udp].filter (protocolHas entry.settings)).map (fun network => ⟨network, true⟩)
  closed := false

def EntryRuntime.Shut (runtime : EntryRuntime) : Prop := ∀ server ∈ runtime.servers, server.isOpen = false

theorem close_shut {runtime : EntryRuntime} (h : runtime.closed = false) : runtime.close.Shut := by
  intro server hserver
  rw [EntryRuntime.close, h] at hserver
  obtain ⟨_, -, rfl⟩ := List.mem_map.mp hserver
  rfl

theorem close_close (runtime : EntryRuntime) : runtime.close.close = runtime.close := by
  unfold EntryRuntime.close
  by_cases h : runtime.closed = true <;> simp [h]

def openServers (entry : Config) (networks : List Network) : List EntryServer :=
  (networks.filter (protocolHas entry.settings)).map (fun network => ⟨network, true⟩)

variable {cfg : Config} {answers : Answers} {err : Option ListenError}

theorem prepareTCP_spec {runtime : EntryRuntime} (h : prepareTCP answers cfg = (runtime, err)) :
    (err = none → runtime = ⟨cfg, openServers cfg [.tcp], false⟩) ∧ (err.isSome = true → runtime.servers = []) := by
  unfold prepareTCP at h
  split at h
  · rename_i hhas
    split at h
    · obtain ⟨rfl, rfl⟩ := Prod.mk.inj h
      exact ⟨fun hnone => (by cases hnone), fun _ => rfl⟩
    · obtain ⟨rfl, rfl⟩ := Prod.mk.inj h
      exact ⟨fun _ => by simp [openServers, hhas], fun hsome => by cases hsome⟩
  · rename_i hhas
    obtain ⟨rfl, rfl⟩ := Prod.mk.inj h
    exact ⟨fun _ => by simp [openServers, hhas], fun _ => rfl⟩

theorem prepareUDP_spec {before runtime : EntryRuntime} (hopen : before.closed = false)
    (h : prepareUDP answers before = (runtime, err)) :
    (err = none → runtime = { before with servers := before.servers ++ openServers before.cfg [.udp] }) ∧
      (err.isSome = true → runtime.Shut) := by
  unfold prepareUDP at h
  split at h
  · rename_i hhas
    split at h
    · obtain ⟨rfl, rfl⟩ := Prod.mk.inj h
      exact ⟨fun hnone => (by cases hnone), fun _ => close_shut hopen⟩
    · split at h
      · obtain ⟨rfl, rfl⟩ := Prod.mk.inj h
        exact ⟨fun hnone => (by cases hnone), fun _ => close_shut hopen⟩
      · obtain ⟨rfl, rfl⟩ := Prod.mk.inj h
        exact ⟨fun _ => by simp [openServers, hhas], fun hsome => by cases hsome⟩
  · rename_i hhas
    obtain ⟨rfl, rfl⟩ := Prod.mk.inj h
    exact ⟨fun _ => by simp [openServers, hhas], fun hsome => by cases hsome⟩

theorem prepareEntryRuntime_spec {runtime : EntryRuntime} (h : prepareEntryRuntime answers cfg = (runtime, err)) :
    (err = none → runtime = listening cfg) ∧ (err.isSome = true → runtime.Shut) := by
  unfold prepareEntryRuntime at h
  split at h
  · rename_i before err' htcp
    obtain ⟨rfl, rfl⟩ := Prod.mk.inj h
    refine ⟨fun hnone => (by cases hnone), fun hsome server hserver => ?_⟩
    rw [(prepareTCP_spec htcp).2 hsome] at hserver
    exact absurd hserver List.not_mem_nil
  · rename_i before htcp
    obtain rfl := (prepareTCP_spec htcp).1 rfl
    obtain ⟨hok, hfail⟩ := prepareUDP_spec rfl h
    refine ⟨fun hnone => (hok hnone).trans ?_, hfail⟩
    rw [listening, openServers, openServers, ← List.map_append, ← List.filter_append]
    rfl

theorem prepareAll_spec {answers : Nat → Answers} {entries : List Config} (before : List Config) {prepared : List EntryRuntime}
    {err : Option (Config × ListenError)}
    (h : prepareAll answers (before.map listening) entries = (prepared, err)) :
    (err = none → prepared = (before ++ entries).map listening) ∧
      (err.isSome = true → ∀ runtime ∈ prepared, runtime.Shut) := by
  induction entries generalizing before with
  | nil =>
    obtain ⟨rfl, rfl⟩ := Prod.mk.inj h
    exact ⟨fun _ => by rw [List.append_nil], fun hsome => by cases hsome⟩
  | cons entry entries ih =>
    unfold prepareAll at h
    split at h
    · rename_i runtime err' hentry
      obtain ⟨rfl, rfl⟩ := Prod.mk.inj h
      refine ⟨fun hnone => (by cases hnone), fun _ runtime' hmem => ?_⟩
      rcases List.mem_append.mp hmem with hmem | hmem
      · obtain ⟨opened, hopened, rfl⟩ := List.mem_map.mp hmem
        obtain ⟨_, -, rfl⟩ := List.mem_map.mp hopened
        exact close_shut rfl
      · rw [List.mem_singleton] at hmem
        exact hmem ▸ (prepareEntryRuntime_spec hentry).2 rfl
    · rename_i runtime hentry
      obtain rfl := (prepareEntryRuntime_spec hentry).1 rfl
      have hprepared : before.map listening ++ [listening entry] = (before ++ [entry]).map listening := by
        rw [List.map_append, List.map_singleton]
      rw [hprepared] at h
      have hrest := ih _ h
      rwa [List.append_assoc, List.singleton_append] at hrest

/-! ## Plans -/

theorem indexDesired_spec {byID out : List (Int × Config)} {entries : List Config}
    (h : indexDesired byID entries = some out) :
    (entries.map Config.ruleID).Nodup ∧ (∀ entry ∈ entries, byID.lookup entry.ruleID = none) ∧
      (∀ entry ∈ entries, out.lookup entry.ruleID = some entry) ∧
      ∀ id, id ∉ entries.map Config.ruleID → out.lookup id = byID.lookup id := by
  induction entries generalizing byID with
  | nil =>
    obtain rfl := Option.some.inj h
    exact ⟨List.nodup_nil, fun _ hmem => absurd hmem List.not_mem_nil,
      fun _ hmem => absurd hmem List.not_mem_nil, fun _ _ => rfl⟩
  | cons entry entries ih =>
    unfold indexDesired at h
    split at h
    · cases h
    · rename_i hfresh
      obtain ⟨hnodup, hnone, hfound, hother⟩ := ih h
      have hnot : entry.ruleID ∉ entries.map Config.ruleID := by
        intro hmem
        obtain ⟨later, hlater, heq⟩ := List.mem_map.mp hmem
        have hlookup := hnone later hlater
        rw [heq, Assoc.lookup_put_self] at hlookup
        cases hlookup
      rw [Bool.not_eq_true, Option.isSome_eq_false_iff, Option.isNone_iff_eq_none] at hfresh
      refine ⟨List.nodup_cons.mpr ⟨hnot, hnodup⟩, fun other hmem => ?_, fun other hmem => ?_, fun id hid => ?_⟩
      · rcases List.mem_cons.mp hmem with rfl | hmem
        · exact hfresh
        · have hne : other.ruleID ≠ entry.ruleID := fun heq => hnot (heq ▸ List.mem_map_of_mem hmem)
          have hlookup := hnone other hmem
          rwa [Assoc.lookup_put_ne _ hne] at hlookup
      · rcases List.mem_cons.mp hmem with rfl | hmem
        · rw [hother _ hnot, Assoc.lookup_put_self]
        · exact hfound other hmem
      · rw [List.map_cons, List.mem_cons, not_or] at hid
        rw [hother id hid.2, Assoc.lookup_put_ne _ hid.1]

theorem removePrevious_spec {byID out : List (Int × Config)} {entries : List Config}
    (h : removePrevious byID entries = some out) :
    (entries.map Config.ruleID).Nodup ∧ (∀ entry ∈ entries, byID.lookup entry.ruleID = some entry) ∧
      ∀ id, out.lookup id = if id ∈ entries.map Config.ruleID then none else byID.lookup id := by
  induction entries generalizing byID with
  | nil =>
    obtain rfl := Option.some.inj h
    exact ⟨List.nodup_nil, fun _ hmem => absurd hmem List.not_mem_nil, fun _ => rfl⟩
  | cons entry entries ih =>
    unfold removePrevious at h
    split at h
    · rename_i hsame
      obtain ⟨hnodup, hfound, hleft⟩ := ih h
      have hnot : entry.ruleID ∉ entries.map Config.ruleID := by
        intro hmem
        obtain ⟨later, hlater, heq⟩ := List.mem_map.mp hmem
        have hlookup := hfound later hlater
        rw [heq, Assoc.lookup_erase_self] at hlookup
        cases hlookup
      refine ⟨List.nodup_cons.mpr ⟨hnot, hnodup⟩, fun other hmem => ?_, fun id => ?_⟩
      · rcases List.mem_cons.mp hmem with rfl | hmem
        · exact hsame
        · have hne : other.ruleID ≠ entry.ruleID := fun heq => hnot (heq ▸ List.mem_map_of_mem hmem)
          have hlookup := hfound other hmem
          rwa [Assoc.lookup_erase_ne _ hne] at hlookup
      · rw [hleft id, List.map_cons]
        by_cases hid : id = entry.ruleID
        · subst hid
          rw [if_pos List.mem_cons_self, if_neg hnot, Assoc.lookup_erase_self]
        · rw [Assoc.lookup_erase_ne _ hid]
          simp [hid]
    · cases h

theorem foldl_put_spec {targets : List UdpTarget} (hnodup : (targets.map UdpTarget.RuleID).Nodup)
    (table : List (Int × UdpTarget)) (target : UdpTarget) (id : Int) :
    (targets.foldl (fun table target => Assoc.put table target.RuleID target) table).lookup id = some target ↔
      (target ∈ targets ∧ target.RuleID = id) ∨ (id ∉ targets.map UdpTarget.RuleID ∧ table.lookup id = some target) := by
  induction targets generalizing table with
  | nil => simp
  | cons first targets ih =>
    rw [List.map_cons, List.nodup_cons] at hnodup
    rw [List.foldl_cons, ih hnodup.2, List.map_cons, List.mem_cons, List.mem_cons, not_or]
    by_cases hid : id = first.RuleID
    · subst hid
      rw [Assoc.lookup_put_self, Option.some.injEq]
      constructor
      · rintro (⟨hmem, hrule⟩ | ⟨-, rfl⟩)
        · exact Or.inl ⟨Or.inr hmem, hrule⟩
        · exact Or.inl ⟨Or.inl rfl, rfl⟩
      · rintro (⟨rfl | hmem, hrule⟩ | ⟨hne, -⟩)
        · exact Or.inr ⟨hnodup.1, rfl⟩
        · exact Or.inl ⟨hmem, hrule⟩
        · exact absurd rfl hne.1
    · rw [Assoc.lookup_put_ne _ hid]
      constructor
      · rintro (⟨hmem, hrule⟩ | ⟨hnot, hlookup⟩)
        · exact Or.inl ⟨Or.inr hmem, hrule⟩
        · exact Or.inr ⟨⟨hid, hnot⟩, hlookup⟩
      · rintro (⟨rfl | hmem, hrule⟩ | ⟨hne, hlookup⟩)
        · exact absurd hrule.symm hid
        · exact Or.inl ⟨hmem, hrule⟩
        · exact Or.inr ⟨hne.2, hlookup⟩

theorem targetTable_spec {targets : List UdpTarget} (hnodup : (targets.map UdpTarget.RuleID).Nodup)
    (target : UdpTarget) (id : Int) :
    (targetTable targets).lookup id = some target ↔ target ∈ targets ∧ target.RuleID = id := by
  rw [targetTable, foldl_put_spec hnodup, List.lookup_nil, or_iff_left]
  exact fun h => by cases h.2

/-- How a configuration differs from one that it extends by entries alone. -/
structure AddsEntries (old next : Config) : Prop where
  role : old.settings.Role = "entry-group"
  settings : next.settings = old.settings
  nodup : (next.Entries.map Config.ruleID).Nodup
  before : (old.Entries.map Config.ruleID).Nodup
  kept : ∀ entry ∈ old.Entries, entry ∈ next.Entries

/-- How a configuration differs from one that it extends by UDP targets alone. -/
structure AddsTargets (old next : Config) : Prop where
  role : old.settings.Role = "exit"
  settings : next.withoutTargets = old.withoutTargets
  kept : ∀ target ∈ old.settings.UDPTargets, target ∈ next.settings.UDPTargets

theorem normal_targets {u : Unicode} (h : normalizeConfig u cfg = cfg) : TargetsNormal cfg.settings.UDPTargets := by
  cases cfg with
  | mk settings entries =>
    rw [normalizeConfig] at h
    have hsettings : normalizeSettings u settings = settings := congrArg Config.settings h
    rw [Config.settings_mk, ← hsettings]
    exact normalizeUDPTargets_normal settings.UDPTargets

/-- A plan for normalised configurations is made only for additions, and has the added entries. -/
theorem plan_ok {u : Unicode} {old next : Config} {additions : List Config}
    (hold : normalizeConfig u old = old) (hnext : normalizeConfig u next = next)
    (h : planFXPConfigAddition u old next = .ok additions) :
    (AddsEntries old next ∧
        additions = next.Entries.filter (fun entry => entry.ruleID ∉ old.Entries.map Config.ruleID)) ∨
      (AddsTargets old next ∧ additions = []) := by
  unfold planFXPConfigAddition at h
  rw [hold, hnext] at h
  dsimp only at h
  split at h
  · cases h
  · split at h
    · cases h
    · split at h
      · rename_i hrole
        split at h
        · cases h
        · rename_i hsettings
          have hsettings := Classical.not_not.mp hsettings
          split at h
          · cases h
          · rename_i byID hindex
            split at h
            · cases h
            · rename_i left hremove
              obtain ⟨hnodup, -, hfound, hother⟩ := indexDesired_spec hindex
              obtain ⟨hbefore, hsame, hleft⟩ := removePrevious_spec hremove
              refine Or.inl ⟨⟨hrole, (congrArg Config.settings hsettings).symm, hnodup, hbefore,
                fun entry hentry => ?_⟩, ?_⟩
              · have hlookup := hsame entry hentry
                by_cases hin : entry.ruleID ∈ next.Entries.map Config.ruleID
                · obtain ⟨wanted, hwanted, heq⟩ := List.mem_map.mp hin
                  rw [← heq, hfound wanted hwanted] at hlookup
                  exact Option.some.inj hlookup ▸ hwanted
                · rw [hother _ hin, List.lookup_nil] at hlookup
                  cases hlookup
              · rw [← Except.ok.inj h]
                apply List.filter_congr
                intro entry hentry
                rw [hleft, hfound entry hentry]
                by_cases hin : entry.ruleID ∈ old.Entries.map Config.ruleID <;> simp [hin]
      · split at h
        · rename_i hrole
          split at h
          · cases h
          · rename_i hsettings
            split at h
            · cases h
            · rename_i hkept
              refine Or.inr ⟨⟨hrole, (Classical.not_not.mp hsettings).symm, fun target htarget => ?_⟩,
                (Except.ok.inj h).symm⟩
              have hget : ((targetTable next.settings.UDPTargets).lookup target.RuleID).getD ⟨0, "", 0⟩ = target := by
                by_contra hne
                exact hkept (List.any_eq_true.mpr ⟨target, htarget, decide_eq_true hne⟩)
              have hnormal := normal_targets hnext
              cases hlookup : (targetTable next.settings.UDPTargets).lookup target.RuleID with
              | none =>
                rw [hlookup, Option.getD_none] at hget
                have hrule := ((normal_targets hold).usable target htarget).rule
                rw [← hget] at hrule
                exact absurd hrule (by decide)
              | some found =>
                rw [hlookup, Option.getD_some] at hget
                exact ((targetTable_spec hnormal.nodup target target.RuleID).mp (hget ▸ hlookup)).1
        · cases h

end ForwardX.Fxp.Control
