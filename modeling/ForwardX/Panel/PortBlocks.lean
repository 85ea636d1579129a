import ForwardX.Lib.Search
import ForwardX.Panel.Store

/- The allocator of port blocks (`findAvailableSubscriptionPortBlock`): a run of free ports in
   the range that the resources of a plan share, clear of the ports of rules and of the
   blocks of the subscriptions that are active at that time. -/
namespace ForwardX.Panel

/-- `Number(value || fallback)`. -/
def orDefault (value : Option Nat) (fallback : Nat) : Nat :=
  match value with
  | none | some 0 => fallback
  | some n => n

/-- The ranges of the resources that exist. -/
def resourceRanges (r : Resources) (hostIds tunnelIds forwardGroupIds : List Nat) : List (Nat × Nat) :=
  let range := fun (s : PortSource) => (orDefault s.portRangeStart 10000, orDefault s.portRangeEnd 65535)
  hostIds.filterMap (fun id => (Rows.find (·.id) r.hosts id).map range) ++
    tunnelIds.filterMap (fun id => (Rows.find (·.id) r.tunnels id).map range) ++
    forwardGroupIds.filterMap (fun id => r.forwardGroupEntryRanges.lookup id)

def UserSubscription.holds (s : UserSubscription) (port : Nat) : Bool :=
  0 < s.portRangeStart.getD 0 && s.portRangeStart.getD 0 ≤ port && port ≤ s.portRangeEnd.getD 0

/-- The ports that the allocator keeps clear of. -/
def portUsed (db : Db) (now : Int) (port : Nat) : Bool :=
  db.resources.forwardRules.any (fun r => r.isEnabled && !r.pendingDelete && r.sourcePort = port) ||
    db.subscriptions.any (fun s => s.isActiveAt now && s.holds port)

/-- `findAvailableSubscriptionPortBlock`: start and end of the block, both null when the plan
does not count ports. -/
def findAvailableSubscriptionPortBlock (db : Db) (portCount : Nat)
    (hostIds tunnelIds forwardGroupIds : List Nat) (now : Int) : Option (Option Nat × Option Nat) :=
  if portCount = 0 then some (none, none)
  else if 65535 < portCount then none
  else
    let ranges := resourceRanges db.resources hostIds tunnelIds forwardGroupIds
    let start := ((ranges.map Prod.fst).max?).getD 10000
    let stop := ((ranges.map Prod.snd).min?).getD 65535
    if start = 0 ∨ stop < start ∨ stop - start + 1 < portCount then none
    else
      (Search.firstFit (portUsed db now) portCount (stop - portCount + 1) (stop + 1) start).map
        (fun port => (some port, some (port + portCount - 1)))

theorem findAvailable_eq_some {db : Db} {portCount : Nat} {hostIds tunnelIds forwardGroupIds : List Nat}
    {now : Int} {block : Option Nat × Option Nat}
    (h : findAvailableSubscriptionPortBlock db portCount hostIds tunnelIds forwardGroupIds now =
      some block) :
    (portCount = 0 ∧ block = (none, none)) ∨
    ∃ port, block = (some port, some (port + portCount - 1)) ∧ 0 < port ∧ 0 < portCount ∧
      ∀ q, port ≤ q → q < port + portCount → portUsed db now q = false := by
  unfold findAvailableSubscriptionPortBlock at h
  by_cases hzero : portCount = 0
  · rw [if_pos hzero] at h
    exact .inl ⟨hzero, (Option.some.inj h).symm⟩
  · rw [if_neg hzero] at h
    split at h
    · cases h
    · dsimp only at h
      split at h
      · cases h
      · rename_i hrange
        obtain ⟨port, hport, hblock⟩ := Option.map_eq_some_iff.mp h
        obtain ⟨hstart, -, hfree⟩ := Search.firstFit_eq_some hport
        exact .inr ⟨port, hblock.symm, by omega, Nat.pos_of_ne_zero hzero, hfree⟩

theorem portUsed_of_holds {db : Db} {now : Int} {s : UserSubscription} (hs : s ∈ db.subscriptions)
    (hactive : s.isActiveAt now = true) {port : Nat} (hport : s.holds port = true) :
    portUsed db now port = true := by
  unfold portUsed
  rw [Bool.or_eq_true]
  right
  apply List.any_eq_true.mpr
  exact ⟨s, hs, by rw [hactive, hport, Bool.true_and]⟩

/-! ## First fit -/

/-- The port lies in all ranges; without any, in `10000` to `65535`. -/
def InRanges (ranges : List (Nat × Nat)) (port : Nat) : Prop :=
  if ranges = [] then 10000 ≤ port ∧ port ≤ 65535 else ∀ r ∈ ranges, r.1 ≤ port ∧ port ≤ r.2

/-- A block of `portCount` ports from `start` on lies in all ranges and holds no used port. -/
def BlockFits (db : Db) (ranges : List (Nat × Nat)) (now : Int) (portCount start : Nat) : Prop :=
  ∀ port, start ≤ port → port < start + portCount → InRanges ranges port ∧ portUsed db now port = false

section
variable {ranges : List (Nat × Nat)}

/-- The greatest start and the least end bound the ports in all ranges. -/
theorem inRanges_iff (port : Nat) : InRanges ranges port ↔
    ((ranges.map Prod.fst).max?).getD 10000 ≤ port ∧ port ≤ ((ranges.map Prod.snd).min?).getD 65535 := by
  unfold InRanges
  cases ranges with
  | nil => rfl
  | cons r ranges =>
    rw [if_neg (List.cons_ne_nil _ _)]
    obtain ⟨start, hstart⟩ := Option.isSome_iff_exists.mp
      (List.isSome_max?_of_mem (List.mem_map_of_mem (f := Prod.fst) (List.mem_cons_self (a := r) (l := ranges))))
    obtain ⟨stop, hstop⟩ := Option.isSome_iff_exists.mp
      (List.isSome_min?_of_mem (List.mem_map_of_mem (f := Prod.snd) (List.mem_cons_self (a := r) (l := ranges))))
    rw [hstart, hstop, Option.getD_some, Option.getD_some, List.max?_le_iff hstart, List.le_min?_iff hstop]
    simp only [List.mem_map, forall_exists_index, and_imp, forall_apply_eq_imp_iff₂, forall_and]

variable {db : Db} {now : Int} {portCount : Nat}

theorem orDefault_pos {value : Option Nat} {fallback : Nat} (h : 0 < fallback) : 0 < orDefault value fallback := by
  unfold orDefault
  split
  · exact h
  · exact h
  next hne => exact Nat.pos_of_ne_zero hne

theorem resourceRanges_pos {r : Resources} (hgroups : ∀ g ∈ r.forwardGroupEntryRanges, 0 < g.2.1)
    (hostIds tunnelIds forwardGroupIds : List Nat) :
    ∀ range ∈ resourceRanges r hostIds tunnelIds forwardGroupIds, 0 < range.1 := by
  intro range hrange
  unfold resourceRanges at hrange
  simp only [List.mem_append, List.mem_filterMap, Option.map_eq_some_iff] at hrange
  obtain (⟨id, _, source, _, rfl⟩ | ⟨id, _, source, _, rfl⟩) | ⟨id, _, hlookup⟩ := hrange
  · exact orDefault_pos (by decide)
  · exact orDefault_pos (by decide)
  · obtain ⟨before, after, hlist, -⟩ := List.lookup_eq_some_iff.mp hlookup
    exact hgroups (id, range) (hlist ▸ by simp)

theorem greatestStart_pos (h : ∀ range ∈ ranges, 0 < range.1) :
    0 < ((ranges.map Prod.fst).max?).getD 10000 := by
  cases hmax : (ranges.map Prod.fst).max? with
  | none => exact Nat.succ_pos _
  | some start =>
    obtain ⟨range, hrange, rfl⟩ := List.mem_map.mp (List.max?_mem hmax)
    exact h range hrange

theorem blockFits_iff (hcount : 0 < portCount) (start : Nat) : BlockFits db ranges now portCount start ↔
    ((ranges.map Prod.fst).max?).getD 10000 ≤ start ∧
      start + portCount - 1 ≤ ((ranges.map Prod.snd).min?).getD 65535 ∧
      ∀ port, start ≤ port → port < start + portCount → portUsed db now port = false := by
  constructor
  · intro h
    refine ⟨((inRanges_iff start).mp (h start (Nat.le_refl _) (by omega)).1).1, ?_, fun port h₁ h₂ => (h port h₁ h₂).2⟩
    exact ((inRanges_iff _).mp (h (start + portCount - 1) (by omega) (by omega)).1).2
  · rintro ⟨hstart, hstop, hfree⟩ port h₁ h₂
    exact ⟨(inRanges_iff port).mpr ⟨by omega, by omega⟩, hfree port h₁ h₂⟩

variable {hostIds tunnelIds forwardGroupIds : List Nat}

/-- Where ports are positive the allocator is the search: its guard gives up only where no
block has room. -/
theorem findAvailable_eq_firstFit (hcount : 0 < portCount ∧ portCount ≤ 65535)
    (hranges : resourceRanges db.resources hostIds tunnelIds forwardGroupIds = ranges)
    (hpos : ∀ range ∈ ranges, 0 < range.1) :
    findAvailableSubscriptionPortBlock db portCount hostIds tunnelIds forwardGroupIds now =
      if ((ranges.map Prod.fst).max?).getD 10000 + portCount ≤ ((ranges.map Prod.snd).min?).getD 65535 + 1 then
        (Search.firstFit (portUsed db now) portCount (((ranges.map Prod.snd).min?).getD 65535 - portCount + 1)
          (((ranges.map Prod.snd).min?).getD 65535 + 1) (((ranges.map Prod.fst).max?).getD 10000)).map
          (fun port => (some port, some (port + portCount - 1)))
      else none := by
  unfold findAvailableSubscriptionPortBlock
  rw [if_neg (by omega), if_neg (by omega), hranges]
  dsimp only
  have hstart := greatestStart_pos hpos
  generalize ((ranges.map Prod.fst).max?).getD 10000 = start at hstart ⊢
  generalize ((ranges.map Prod.snd).min?).getD 65535 = stop
  by_cases hroom : start + portCount ≤ stop + 1
  · rw [if_pos hroom]
    exact if_neg (by omega)
  · rw [if_neg hroom]
    exact if_pos (by omega)

/-- The allocator returns the first block that fits, and none when no block fits. The search
ends by itself: with more fuel it finds the same. The entry range of a group is a run of the
ports of its policy, and so starts at port 1 or above. -/
theorem port_block_first_fit (hcount : 0 < portCount ∧ portCount ≤ 65535)
    (hgroups : ∀ g ∈ db.resources.forwardGroupEntryRanges, 0 < g.2.1) :
    (∀ start stop, findAvailableSubscriptionPortBlock db portCount hostIds tunnelIds forwardGroupIds now =
        some (some start, some stop) ↔
      stop = start + portCount - 1 ∧
        BlockFits db (resourceRanges db.resources hostIds tunnelIds forwardGroupIds) now portCount start ∧
        ∀ earlier < start,
          ¬ BlockFits db (resourceRanges db.resources hostIds tunnelIds forwardGroupIds) now portCount earlier) ∧
    (findAvailableSubscriptionPortBlock db portCount hostIds tunnelIds forwardGroupIds now = none ↔
      ∀ start, ¬ BlockFits db (resourceRanges db.resources hostIds tunnelIds forwardGroupIds) now portCount start) ∧
    ∀ start stop extra, 0 < start → portCount ≤ stop - start + 1 →
      Search.firstFit (portUsed db now) portCount (stop - portCount + 1) (stop + 1 + extra) start =
        Search.firstFit (portUsed db now) portCount (stop - portCount + 1) (stop + 1) start := by
  have hpos := resourceRanges_pos hgroups hostIds tunnelIds forwardGroupIds
  rw [findAvailable_eq_firstFit hcount rfl hpos]
  simp only [blockFits_iff hcount.1]
  have hfirst := greatestStart_pos hpos
  generalize (((resourceRanges db.resources hostIds tunnelIds forwardGroupIds).map Prod.fst).max?).getD 10000 =
    first at hfirst ⊢
  generalize (((resourceRanges db.resources hostIds tunnelIds forwardGroupIds).map Prod.snd).min?).getD 65535 = last
  refine ⟨fun start stop => ?_, ?_, fun start stop extra hstart hroom => Search.firstFit_fuel (by omega) extra⟩
  · by_cases hroom : first + portCount ≤ last + 1
    · rw [if_pos hroom]
      constructor
      · intro h
        obtain ⟨port, hport, hblock⟩ := Option.map_eq_some_iff.mp h
        obtain ⟨rfl, rfl⟩ : port = start ∧ port + portCount - 1 = stop := by simpa using hblock
        obtain ⟨hle, hend, hfree⟩ := Search.firstFit_eq_some hport
        refine ⟨rfl, ⟨hle, by omega, hfree⟩, fun earlier hearlier ⟨hfrom, _, hclear⟩ => ?_⟩
        obtain ⟨q, h₁, h₂, hused⟩ := Search.firstFit_least hport hfrom hearlier
        rw [hclear q h₁ h₂] at hused
        cases hused
      · rintro ⟨rfl, ⟨hle, hend, hfree⟩, hleast⟩
        cases hfind : Search.firstFit (portUsed db now) portCount (last - portCount + 1) (last + 1) first with
        | none =>
          obtain ⟨q, h₁, h₂, hused⟩ :=
            Search.firstFit_eq_none (by omega) hfind hle (by omega)
          rw [hfree q h₁ h₂] at hused
          cases hused
        | some port =>
          obtain ⟨hle', hend', hfree'⟩ := Search.firstFit_eq_some hfind
          have heq : port = start := by
            rcases Nat.lt_trichotomy port start with hlt | heq | hgt
            · exact absurd ⟨hle', by omega, hfree'⟩ (hleast port hlt)
            · exact heq
            · obtain ⟨q, h₁, h₂, hused⟩ := Search.firstFit_least hfind hle hgt
              rw [hfree q h₁ h₂] at hused
              cases hused
          rw [heq]
          rfl
    · rw [if_neg hroom]
      constructor
      · intro h
        cases h
      · rintro ⟨_, ⟨hle, hend, _⟩, _⟩
        omega
  · by_cases hroom : first + portCount ≤ last + 1
    · rw [if_pos hroom, Option.map_eq_none_iff]
      constructor
      · rintro hfind start ⟨hle, hend, hfree⟩
        obtain ⟨q, h₁, h₂, hused⟩ := Search.firstFit_eq_none (by omega) hfind hle (by omega)
        rw [hfree q h₁ h₂] at hused
        cases hused
      · intro hnone
        cases hfind : Search.firstFit (portUsed db now) portCount (last - portCount + 1) (last + 1) first with
        | none => rfl
        | some port =>
          obtain ⟨hle, hend, hfree⟩ := Search.firstFit_eq_some hfind
          exact absurd ⟨hle, by omega, hfree⟩ (hnone port)
    · rw [if_neg hroom]
      constructor
      · rintro _ start ⟨hle, hend, _⟩
        omega
      · exact fun _ => rfl

/-- A host and the entry range of a group share the ports from 20003 on. Port 20004 is a
rule's and 20006 to 20007 are a subscription's: two ports are found behind them. -/
def sharedPorts : Db where
  users := []
  plans := []
  planTrafficAddons := []
  subscriptions := [
    { id := 1, userId := 1, planId := 1, status := .active, source := .admin, paymentOrderNo := none,
      planSnapshot := none, portRangeStart := some 20006, portRangeEnd := some 20007,
      nextTrafficResetAt := none, lastTrafficResetAt := none, startedAt := 0, expiresAt := none }]
  trafficAddons := []
  paymentOrders := []
  discountCodes := []
  resources := {
    hosts := [⟨5, some 20000, some 20010⟩]
    tunnels := []
    forwardGroupEntryRanges := [(7, (20003, 65535))]
    forwardRules := [⟨20004, true, false⟩] }
  accounts := ⟨[], [], []⟩
  log := []

theorem sharedPorts_first_fit :
    findAvailableSubscriptionPortBlock sharedPorts 2 [5] [] [7] 0 = some (some 20008, some 20009) ∧
      ∀ earlier < 20008,
        ¬ BlockFits sharedPorts (resourceRanges sharedPorts.resources [5] [] [7]) 0 2 earlier := by
  have hfound :
      findAvailableSubscriptionPortBlock sharedPorts 2 [5] [] [7] 0 = some (some 20008, some 20009) := by
    decide +kernel
  have hfit := @port_block_first_fit sharedPorts 0 2 [5] [] [7] (by decide) (by decide)
  exact ⟨hfound, ((hfit.1 20008 20009).mp hfound).2.2⟩

end

end ForwardX.Panel
