import ForwardX.Lib.Files
import ForwardX.Agent.EntryGroupFold

/- The snapshots from which the agent restores its ForwardX processes (`runtime_persistence.go`): one file for each
   spec, one for all shared entries of a tunnel and transport version. A file is written by a rename and removed as
   a whole; its name has no slash. A call is the list of its operations on the directory. -/
namespace ForwardX.Agent.EntryGroups
open Fxp.Traffic (trimSpace)
open Fxp.Control (Unicode)
open Files

/-! ## Files -/

structure Snapshot where
  modTime : Int
  spec : FxpSpec
  deriving DecidableEq, Repr

def isSnapshotName (name : String) : Bool :=
  "fxp-".toList.isPrefixOf name.toList && ".json".toList.isSuffixOf name.toList

def snapshotFiles (d : Dir Snapshot) : List (String × Snapshot) := d.readDir.filter fun file => isSnapshotName file.1

section
variable (u : Unicode)

/-- Entry credentials are injected from the current agent configuration at launch. -/
def scrubFXPSpec (spec : FxpSpec) : FxpSpec :=
  let spec := normalizeFXPSpec u spec
  if isFXPEntryGroup u spec.toFxpEntry then { spec with Entries := spec.Entries.map (scrubSingle u) }
  else { spec with PanelURL := "", Token := "" }

/-- `fxpServerID` of a spec that is no entry group. -/
def fxpServerID (spec : FxpEntry) : String :=
  normalizeFXPTransportVersion u spec.TransportVersion ++ ":" ++ spec.Role ++ ":" ++ toString spec.TunnelID ++ ":" ++
    toString spec.RuleID ++ ":" ++ toString spec.ListenPort

def persistentFXPPath (spec : FxpSpec) : String :=
  let spec := normalizeFXPSpec u spec
  "fxp-" ++ spec.TransportVersion ++ "-" ++ spec.Role ++ "-" ++ toString spec.TunnelID ++ "-" ++ toString spec.RuleID ++
    "-" ++ toString spec.ListenPort ++ ".json"

def persistentFXPEntryGroupPath (spec : FxpSpec) : String :=
  let spec := normalizeFXPSpec u spec
  "fxp-group-" ++ spec.TransportVersion ++ "-" ++ toString spec.TunnelID ++ ".json"

/-! ## Persisting -/

variable (clock : String → Int) (d : Dir Snapshot)

/-- Another group or shared entry of the tunnel and version of a group goes once the group is written. -/
def supersededAction (group : FxpSpec) (groupPath : String) (file : String × Snapshot) : Files.Action Snapshot :=
  let stored := normalizeFXPSpec u file.2.spec
  let sameTunnel := stored.TunnelID = group.TunnelID && stored.TransportVersion = group.TransportVersion
  if file.1 = groupPath then .keep
  else if (isFXPEntryGroup u stored.toFxpEntry && sameTunnel) || (isSharedFXPEntry u stored.toFxpEntry && sameTunnel) then
    .delete
  else .keep

def replacePersistedSharedFXPEntryGroup (group : FxpSpec) : Except String (List (Op Snapshot)) :=
  let group := scrubFXPSpec u group
  if !isFXPEntryGroup u group.toFxpEntry || group.Entries.isEmpty then
    .error ("invalid FXP entry group tunnel=" ++ toString group.TunnelID ++ " entries=" ++ toString group.Entries.length)
  else match group.Entries.find? fun entry => !isSharedFXPEntry u entry || entry.Key = "" with
    | some entry => .error ("invalid FXP entry group member tunnel=" ++ toString entry.TunnelID ++ " rule=" ++
        toString entry.RuleID ++ " port=" ++ toString entry.ListenPort)
    | none =>
      let groupPath := persistentFXPEntryGroupPath u group
      let write := Op.write groupPath ⟨clock groupPath, group⟩
      .ok (write :: sweep (supersededAction u group groupPath) (snapshotFiles (write.apply d)))

def hasIdentity (spec : FxpEntry) : Bool :=
  spec.Role ≠ "" && 0 < spec.TunnelID && 0 < spec.ListenPort && spec.Key ≠ ""

/-- The operations of a call at the times that `clock` gives for the files it writes. -/
def persistFXPSpec (spec : FxpSpec) : Except String (List (Op Snapshot)) :=
  let spec := scrubFXPSpec u spec
  if isFXPEntryGroup u spec.toFxpEntry then replacePersistedSharedFXPEntryGroup u clock d spec
  else if !hasIdentity spec.toFxpEntry then
    .error ("invalid FXP persistence identity role=" ++ spec.Role ++ " tunnel=" ++ toString spec.TunnelID ++ " rule=" ++
      toString spec.RuleID ++ " port=" ++ toString spec.ListenPort)
  else
    let path := persistentFXPPath u spec
    .ok [.write path ⟨clock path, spec⟩]

/-! ## Removing -/

/-- A group loses the members that the request matches. A spec of its own is matched field by field; the protocol
and the version count only where they are given. -/
def removalAction (requestedProtocol requestedTransportVersion : String) (spec matchSpec : FxpEntry)
    (file : String × Snapshot) : Files.Action Snapshot :=
  let stored := normalizeFXPSpec u file.2.spec
  if isFXPEntryGroup u stored.toFxpEntry then
    let remaining := stored.Entries.filter fun member => !fxpRemovalMatchesEntry u matchSpec member
    if remaining.length = stored.Entries.length then .keep
    else if remaining.isEmpty then .delete
    else .replace ⟨clock file.1, scrubFXPSpec u { stored with Entries := remaining }⟩
  else if spec.Role ≠ "" && stored.Role ≠ spec.Role then .keep
  else if 0 < spec.RuleID && stored.RuleID ≠ spec.RuleID then .keep
  else if 0 < spec.TunnelID && stored.TunnelID ≠ spec.TunnelID then .keep
  else if requestedTransportVersion ≠ "" &&
      stored.TransportVersion ≠ normalizeFXPTransportVersion u requestedTransportVersion then .keep
  else if 0 < spec.ListenPort && stored.ListenPort ≠ spec.ListenPort then .keep
  else if requestedProtocol ≠ "" && !runtimeProtocolsOverlap u stored.Protocol spec.Protocol then .keep
  else .delete

/-- `removePersistedFXPSpec` of a spec that is no entry group. -/
def removeStandalone (spec : FxpSpec) : List (Op Snapshot) :=
  let requestedProtocol := trimSpace spec.Protocol
  let requestedTransportVersion := trimSpace spec.TransportVersion
  let spec := normalizeFXPSpec u spec
  let matchSpec : FxpEntry :=
    if requestedTransportVersion = "" then { spec.toFxpEntry with TransportVersion := "" } else spec.toFxpEntry
  let exact := if 0 < spec.TunnelID && 0 < spec.ListenPort then [Op.remove (persistentFXPPath u spec)] else []
  exact ++ sweep (removalAction u clock requestedProtocol requestedTransportVersion spec.toFxpEntry matchSpec)
    (snapshotFiles (run exact d))

/-- The members of a group are removed one after the other. -/
def removeMembers (d : Dir Snapshot) : List FxpEntry → List (Op Snapshot)
  | [] => []
  | entry :: entries =>
    let ops := removeStandalone u clock d { toFxpEntry := entry }
    ops ++ removeMembers (run ops d) entries

def removePersistedFXPSpec (spec : FxpSpec) : List (Op Snapshot) :=
  let group := normalizeFXPSpec u spec
  if isFXPEntryGroup u group.toFxpEntry then
    let drop := Op.remove (persistentFXPEntryGroupPath u group)
    drop :: removeMembers u clock (drop.apply d) group.Entries
  else removeStandalone u clock d spec

/-! ## Loading -/

/-- The orders in which Go goes over its maps: any. -/
structure MapOrder where
  groups : List (String × Snapshot × String) → List (String × Snapshot × String)
  groups_perm : ∀ l, (groups l).Perm l
  specs : List FxpEntry → List FxpEntry
  specs_perm : ∀ l, (specs l).Perm l

/-- The newest file of a group, by its name where the times are the same. -/
def addCandidate (groupsByTunnel : List (String × Snapshot × String)) (file : String × Snapshot) :
    List (String × Snapshot × String) :=
  if !isFXPEntryGroup u file.2.spec.toFxpEntry || file.2.spec.Entries.isEmpty then groupsByTunnel
  else
    let groupKey := fxpEntryGroupKey u file.2.spec.TransportVersion file.2.spec.TunnelID
    match Assoc.get groupsByTunnel groupKey with
    | none => Assoc.assign groupsByTunnel groupKey (file.2, file.1)
    | some previous =>
      if previous.1.modTime < file.2.modTime || (file.2.modTime = previous.1.modTime && previous.2 < file.1) then
        Assoc.assign groupsByTunnel groupKey (file.2, file.1)
      else groupsByTunnel

def specLess (a b : FxpEntry) : Bool :=
  if a.TransportVersion ≠ b.TransportVersion then a.TransportVersion < b.TransportVersion
  else if a.TunnelID ≠ b.TunnelID then a.TunnelID < b.TunnelID
  else if a.RuleID ≠ b.RuleID then a.RuleID < b.RuleID
  else a.ListenPort < b.ListenPort

/-- The specs that are loaded, in the order in which `byID` gets them. -/
def loadedSpecs (order : MapOrder) : List FxpEntry :=
  let files := (snapshotFiles d).map fun file => (file.1, { file.2 with spec := scrubFXPSpec u file.2.spec })
  let groupsByTunnel := files.foldl (addCandidate u) []
  let standalone := (files.map fun file => file.2.spec).filter fun spec =>
    !isFXPEntryGroup u spec.toFxpEntry && hasIdentity spec.toFxpEntry
  let ungrouped := (standalone.map FxpSpec.toFxpEntry).filter fun spec =>
    !((Assoc.keys groupsByTunnel).contains (fxpEntryGroupKey u spec.TransportVersion spec.TunnelID) &&
      isSharedFXPEntry u spec)
  ungrouped ++ (order.groups groupsByTunnel).flatMap fun candidate =>
    candidate.2.1.spec.Entries.filter fun entry => isSharedFXPEntry u entry && entry.Key ≠ ""

def loadPersistedFXPSpecs (order : MapOrder) : List FxpEntry :=
  let byID := (loadedSpecs u d order).foldl (fun byID spec => Assoc.assign byID (fxpServerID u spec) spec) []
  (order.specs (byID.map Prod.snd)).insertionSort fun a b => specLess b a = false

end

end ForwardX.Agent.EntryGroups
