import Mathlib.Logic.Function.Basic
import ForwardX.Agent.FxpNormalForm

/- The groups that the actions of a batch ask for (`attachDesiredSharedFXPEntryGroups` in `main.go`). The batch is
   folded over mutable groups, whose entries lie in slots: a slot that is removed stays, inactive, and entries are
   found through indexes by rule, listen port and endpoint, which are pruned as they are used. The abstract fold is
   that of a plain list (`plainAfter`). -/
namespace ForwardX.Agent.EntryGroups
open Fxp.Traffic (trimSpace)
open Fxp.Control (Unicode)

/-! ## Removals -/

section
variable (u : Unicode)

def fxpRemovalMatchesEntry (request entry : FxpEntry) : Bool :=
  let requestedProtocol := trimSpace request.Protocol
  let requestedTransportVersion := trimSpace request.TransportVersion
  let entry := normalizeSingle u entry
  let role := trimSpace request.Role
  if !isSharedFXPEntry u entry then false
  else if role ≠ "" && !equalFold role entry.Role then false
  else if 0 < request.TunnelID && request.TunnelID ≠ entry.TunnelID then false
  else if requestedTransportVersion ≠ "" &&
      normalizeFXPTransportVersion u requestedTransportVersion ≠ entry.TransportVersion then false
  else if 0 < request.RuleID && request.RuleID ≠ entry.RuleID then false
  else if 0 < request.ListenPort && request.ListenPort ≠ entry.ListenPort then false
  else requestedProtocol = "" || runtimeProtocolsOverlap u entry.Protocol request.Protocol

/-! ## Mutable groups -/

/-- The endpoints of an entry, in order: a port of a protocol. -/
def sharedFXPEntryEndpoints (spec : FxpEntry) : List (String × Int) :=
  let tcp := if 0 < spec.ListenPort then [("tcp", spec.ListenPort)] else []
  let udp := if 0 < spec.UDPListenPort then [("udp", spec.UDPListenPort)] else []
  if normalizeRuntimeProtocol u spec.Protocol = "udp" then udp
  else if normalizeRuntimeProtocol u spec.Protocol = "both" then tcp ++ udp
  else tcp

structure SharedFXPEntrySlot where
  entry : FxpEntry
  active : Bool

/-- `mutableSharedFXPEntryGroup`. A key that an index does not have leads to no slot; the order in which the active
slots are visited is not known and makes no difference. -/
structure MutableSharedFXPEntryGroup where
  tunnelID : Int
  transportVersion : String
  slots : List SharedFXPEntrySlot := []
  active : List Nat := []
  byRule : Int → List Nat := fun _ => []
  byListenPort : Int → List Nat := fun _ => []
  byEndpoint : String × Int → List Nat := fun _ => []

def newMutableSharedFXPEntryGroup (tunnelID : Int) (transportVersion : String) : MutableSharedFXPEntryGroup :=
  { tunnelID := tunnelID, transportVersion := normalizeFXPTransportVersion u transportVersion }

/-- `index[key] = append(index[key], i)`. -/
def pushIndex {κ : Type} [DecidableEq κ] (index : κ → List Nat) (i : Nat) (key : κ) : κ → List Nat :=
  Function.update index key (index key ++ [i])

namespace MutableSharedFXPEntryGroup

def add (group : MutableSharedFXPEntryGroup) (entry : FxpEntry) : MutableSharedFXPEntryGroup :=
  let entry := normalizeSingle u entry
  if !isSharedFXPEntry u entry || entry.TunnelID ≠ group.tunnelID || entry.TransportVersion ≠ group.transportVersion then group
  else
    let index := group.slots.length
    { group with
      slots := group.slots ++ [⟨entry, true⟩]
      active := group.active ++ [index]
      byRule := pushIndex group.byRule index entry.RuleID
      byListenPort := pushIndex group.byListenPort index entry.ListenPort
      byEndpoint := (sharedFXPEntryEndpoints u entry).foldl (fun byEndpoint => pushIndex byEndpoint index) group.byEndpoint }

def removeSlot (group : MutableSharedFXPEntryGroup) (index : Nat) : MutableSharedFXPEntryGroup :=
  if (group.slots[index]?).any SharedFXPEntrySlot.active then
    { group with
      slots := group.slots.modify index fun slot => { slot with active := false }
      active := group.active.filter fun i => i != index }
  else group

/-- The loop over the candidates of `removeMatching`: the group without those that match, and the candidates that
remain. -/
def prune (request : FxpEntry) : List Nat → MutableSharedFXPEntryGroup → MutableSharedFXPEntryGroup × List Nat
  | [], group => (group, [])
  | index :: candidates, group =>
    if !(group.slots[index]?).any SharedFXPEntrySlot.active then prune request candidates group
    else if (group.slots[index]?).any fun slot => fxpRemovalMatchesEntry u request slot.entry then
      prune request candidates (group.removeSlot index)
    else
      let rest := prune request candidates group
      (rest.1, index :: rest.2)

def removeMatching (group : MutableSharedFXPEntryGroup) (request : FxpEntry) : MutableSharedFXPEntryGroup :=
  if 0 < request.RuleID then
    let pruned := prune u request (group.byRule request.RuleID) group
    { pruned.1 with byRule := Function.update pruned.1.byRule request.RuleID pruned.2 }
  else if 0 < request.ListenPort then
    let pruned := prune u request (group.byListenPort request.ListenPort) group
    { pruned.1 with byListenPort := Function.update pruned.1.byListenPort request.ListenPort pruned.2 }
  else
    group.active.foldl (fun group index =>
      if (group.slots[index]?).any fun slot => fxpRemovalMatchesEntry u request slot.entry then group.removeSlot index
      else group) group

def removeRule (group : MutableSharedFXPEntryGroup) (ruleID : Int) : MutableSharedFXPEntryGroup :=
  let group := (group.byRule ruleID).foldl removeSlot group
  { group with byRule := Function.update group.byRule ruleID [] }

def removeListenConflicts (group : MutableSharedFXPEntryGroup) (entry : FxpEntry) : MutableSharedFXPEntryGroup :=
  (sharedFXPEntryEndpoints u entry).foldl (fun group endpoint =>
    let group := (group.byEndpoint endpoint).foldl removeSlot group
    { group with byEndpoint := Function.update group.byEndpoint endpoint [] }) group

def entries (group : MutableSharedFXPEntryGroup) : List FxpEntry :=
  (group.slots.filter SharedFXPEntrySlot.active).map SharedFXPEntrySlot.entry

def snapshot (group : MutableSharedFXPEntryGroup) : FxpSpec :=
  (buildSharedFXPEntryGroup u group.entries group.tunnelID group.transportVersion).1

end MutableSharedFXPEntryGroup

/-! ## Batches -/

/-- The fields of `action` that the groups depend on, and the one in which they are put. -/
structure Action where
  Op : String
  RuleID : Int := 0
  TunnelID : Int := 0
  Fxp : Option FxpSpec := none
  FXPEntryGroup : Option FxpSpec := none

structure SharedFXPEntryGroupMutation where
  key : String
  spec : FxpEntry
  appendEntry : Bool := false
  replaceConflicts : Bool := false

/-- `sharedFXPEntryGroupMutationForAction`; the index of the action is kept by the caller. -/
def sharedFXPEntryGroupMutationForAction (item : Action) : Option SharedFXPEntryGroupMutation :=
  match item.Fxp with
  | none => none
  | some raw =>
    let op := trimSpace item.Op
    if op = "remove" then
      let role := trimSpace raw.Role
      if raw.TunnelID ≤ 0 || (role ≠ "" && !equalFold role "entry") then none
      else some { key := fxpEntryGroupKey u raw.TransportVersion raw.TunnelID, spec := raw.toFxpEntry }
    else
      let spec := (normalizeFXPSpec u raw).toFxpEntry
      if !isSharedFXPEntry u spec then none
      else some
        { key := fxpEntryGroupKey u spec.TransportVersion spec.TunnelID, spec := spec, appendEntry := op = "apply",
          replaceConflicts := item.Op = "apply" }

/-- `groups`: the keys that are there. -/
abbrev Groups := String → Option MutableSharedFXPEntryGroup

def Groups.modify (groups : Groups) (key : String) (f : MutableSharedFXPEntryGroup → MutableSharedFXPEntryGroup) : Groups :=
  Function.update groups key ((groups key).map f)

/-- The group of a mutation is there. -/
def Groups.create (groups : Groups) (mutation : SharedFXPEntryGroupMutation) : Groups :=
  if (groups mutation.key).isSome then groups
  else Function.update groups mutation.key
    (some (newMutableSharedFXPEntryGroup u mutation.spec.TunnelID mutation.spec.TransportVersion))

def Groups.addPersisted (groups : Groups) (persisted : FxpEntry) : Groups :=
  if !isSharedFXPEntry u persisted then groups
  else groups.modify (fxpEntryGroupKey u persisted.TransportVersion persisted.TunnelID) fun group => group.add u persisted

/-- What a desired apply of another kind takes out of every group: the entries of its rule. -/
def superseded (item : Action) : Option FxpEntry :=
  if trimSpace item.Op ≠ "apply" || item.Fxp.isSome || item.RuleID ≤ 0 then none
  else some { Role := "entry", RuleID := item.RuleID, TunnelID := item.TunnelID }

def Groups.supersede (groups : Groups) (item : Action) : Groups :=
  (superseded item).elim groups fun removal => fun key => (groups key).map fun group => group.removeMatching u removal

/-- What a mutation does to its group. -/
def SharedFXPEntryGroupMutation.apply (mutation : SharedFXPEntryGroupMutation) (group : MutableSharedFXPEntryGroup) :
    MutableSharedFXPEntryGroup :=
  let group := group.removeMatching u mutation.spec
  let group :=
    if mutation.replaceConflicts then
      (group.removeRule mutation.spec.RuleID).removeListenConflicts u mutation.spec
    else group
  if mutation.appendEntry then group.add u mutation.spec else group

def Groups.mutate (groups : Groups) (mutation : SharedFXPEntryGroupMutation) : Groups :=
  groups.modify mutation.key (mutation.apply u)

/-- The groups before the first mutation. -/
def initialGroups (persisted : List FxpEntry) (actions : List Action) : Groups :=
  let mutations := actions.filterMap (sharedFXPEntryGroupMutationForAction u)
  let groups := mutations.foldl (Groups.create u) fun _ => none
  let groups := persisted.foldl (Groups.addPersisted u) groups
  actions.foldl (Groups.supersede u) groups

/-- `persisted` is what `loadPersistedFXPSpecs` returns. -/
def attachDesiredSharedFXPEntryGroups (persisted : List FxpEntry) (actions : List Action) : List Action :=
  let mutations := actions.filterMap (sharedFXPEntryGroupMutationForAction u)
  if mutations.isEmpty then actions
  else
    let groups := mutations.foldl (Groups.mutate u) (initialGroups u persisted actions)
    actions.map fun item =>
      (sharedFXPEntryGroupMutationForAction u item).elim item fun mutation =>
        { item with FXPEntryGroup := (groups mutation.key).map fun group => group.snapshot u }

/-! ## The group on demand -/

def desiredSharedFXPEntryGroup (persisted : List FxpEntry) (current removal : Option FxpEntry) : FxpSpec × Bool :=
  let tunnelID := (current.map FxpEntry.TunnelID).getD 0
  let transportVersion := (current.map fun c => normalizeFXPTransportVersion u c.TransportVersion).getD ""
  let tunnelID := if tunnelID ≤ 0 then (removal.map FxpEntry.TunnelID).getD tunnelID else tunnelID
  let transportVersion := (removal.bind fun r =>
    if trimSpace r.TransportVersion ≠ "" then some (normalizeFXPTransportVersion u r.TransportVersion) else none).getD transportVersion
  let found := removal.bind fun r =>
    if tunnelID ≤ 0 || transportVersion = "" then persisted.find? (fxpRemovalMatchesEntry u r) else none
  let tunnelID := (found.map FxpEntry.TunnelID).getD tunnelID
  let transportVersion := (found.map FxpEntry.TransportVersion).getD transportVersion
  let transportVersion := if transportVersion = "" then "v1" else transportVersion
  let step := fun (state : Int × List FxpEntry) (p : FxpEntry) =>
    if !isSharedFXPEntry u p then state
    else if 0 < state.1 && p.TunnelID ≠ state.1 then state
    else if p.TransportVersion ≠ transportVersion then state
    else if removal.any fun r => fxpRemovalMatchesEntry u r p then (if state.1 ≤ 0 then p.TunnelID else state.1, state.2)
    else if current.any fun c => p.RuleID = c.RuleID || fxpSpecsListenConflict u { toFxpEntry := p } { toFxpEntry := c } then state
    else (state.1, state.2 ++ [p])
  let state := persisted.foldl step (tunnelID, [])
  buildSharedFXPEntryGroup u (state.2 ++ current.toList) state.1 transportVersion

/-! ## The plain list -/

/-- What a mutation drops of the plain list: the entries that it matches and, where it is an apply, those of its
rule and those that listen where it does. -/
def SharedFXPEntryGroupMutation.drops (mutation : SharedFXPEntryGroupMutation) (e : FxpEntry) : Bool :=
  fxpRemovalMatchesEntry u mutation.spec e || (mutation.appendEntry && (e.RuleID = mutation.spec.RuleID ||
    fxpSpecsListenConflict u { toFxpEntry := e } { toFxpEntry := mutation.spec }))

/-- A mutation of a key on the plain list of a key. -/
def plainStep (key : String) (list : List FxpEntry) (mutation : SharedFXPEntryGroupMutation) : List FxpEntry :=
  if mutation.key = key then
    list.filter (fun e => !mutation.drops u e) ++ if mutation.appendEntry then [mutation.spec] else []
  else list

/-- The persisted entries of a key that no apply of another kind supersedes. -/
def plainInitial (persisted : List FxpEntry) (actions : List Action) (key : String) : List FxpEntry :=
  (persisted.filter fun p => isSharedFXPEntry u p && fxpEntryGroupKey u p.TransportVersion p.TunnelID = key).filter fun p =>
    !(actions.filterMap superseded).any fun removal => fxpRemovalMatchesEntry u removal p

/-- The plain list of a key after so many mutations of the batch. -/
def plainAfter (persisted : List FxpEntry) (actions : List Action) (key : String) (n : Nat) : List FxpEntry :=
  ((actions.filterMap (sharedFXPEntryGroupMutationForAction u)).take n).foldl (plainStep u key) (plainInitial u persisted actions key)

end

end ForwardX.Agent.EntryGroups
