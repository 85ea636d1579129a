import Mathlib.Data.Finset.Dedup
import Mathlib.Logic.Function.Basic
import ForwardX.Panel.TrafficReports

/- The DNS records of a forward group (`shared/forwardGroupDdns.ts`,
   `shared/hostAddresses.ts`, `server/forwardGroupDdns.ts`): the comma-separated value the
   row of a group stores, the record sets it stands for, and the update that sends them to
   the provider. The provider keeps a set of values for each record type. A request that
   throws may have taken effect all the same (`Reply.lost`). -/
namespace ForwardX.Panel.Ddns

/-! ## Values and record sets -/

inductive ForwardGroupRecordType
  | A | AAAA | BOTH | CNAME
  deriving DecidableEq, Repr

inductive HostIpFamily
  | ipv4 | ipv6
  deriving DecidableEq, Repr

/-- `ForwardGroupRecordType` as the text it is. -/
def ForwardGroupRecordType.name : ForwardGroupRecordType → String
  | .A => "A"
  | .AAAA => "AAAA"
  | .BOTH => "BOTH"
  | .CNAME => "CNAME"

/-- What the code takes from the JavaScript runtime. -/
structure Runtime where
  /-- `String.prototype.toLowerCase` -/
  toLowerCase : String → String
  /-- `new URL("http://[ip]/").hostname` without its brackets, none where the constructor throws -/
  ipv6Hostname : String → Option String

/-- `String.prototype.trim`. -/
def jsTrim (s : String) : String :=
  String.ofList (((s.toList.dropWhile jsIsSpace).reverse.dropWhile jsIsSpace).reverse)

/-- `s.split(",")`. -/
def splitCommas (s : String) : List String := (s.toList.splitOn ',').map String.ofList

/-- `values.join(",")`. -/
def joinValues (values : List String) : String := ",".intercalate values

def digitsValue (digits : List Char) : Nat := digits.foldl (fun n c => n * 10 + (c.toNat - 0x30)) 0

/-- `normalizeHostIp`: the canonical text of an address literal, empty for anything else. -/
def normalizeHostIp (js : Runtime) (value : String) : HostIpFamily → String
  | .ipv4 =>
    let parts := (jsTrim value).toList.splitOn '.'
    if parts.length = 4 ∧ parts.all (fun p => 1 ≤ p.length && p.length ≤ 3 && p.all Char.isDigit) then
      let numbers := parts.map digitsValue
      if numbers.all (· ≤ 255) then ".".intercalate (numbers.map toString) else ""
    else ""
  | .ipv6 =>
    let ip := jsTrim value
    if ¬ ip.toList.contains ':' ∨ ip.toList.any (fun c => "%[]/?#@".toList.contains c || jsIsSpace c) then ""
    else (js.ipv6Hostname ip).getD ""

def splitForwardGroupDdnsValues (value : String) : List String :=
  (((splitCommas value).map jsTrim).filter (· ≠ "")).eraseDups

structure RecordSet where
  recordType : ForwardGroupRecordType
  values : List String
  deriving DecidableEq, Repr

/-- The families of an address record type; an empty family keeps its set. -/
def recordFamilies : ForwardGroupRecordType → List (ForwardGroupRecordType × HostIpFamily)
  | .A => [(.A, .ipv4)]
  | .AAAA => [(.AAAA, .ipv6)]
  | .BOTH => [(.A, .ipv4), (.AAAA, .ipv6)]
  | .CNAME => []

def forwardGroupDdnsRecordSets (js : Runtime) (recordType : ForwardGroupRecordType) (values : List String) :
    List RecordSet :=
  let unique := splitForwardGroupDdnsValues (joinValues values)
  if recordType = .CNAME then [⟨.CNAME, unique⟩]
  else (recordFamilies recordType).map fun record =>
    ⟨record.1, ((unique.map fun v => normalizeHostIp js v record.2).filter (· ≠ "")).eraseDups⟩

/-! ## The provider -/

abbrev Records := ForwardGroupRecordType → Finset String

/-- What a provider request comes to: it succeeds, it throws and nothing has changed, or it
throws although the records are the ones requested. -/
inductive Reply
  | ok | failed | lost
  deriving DecidableEq, Repr

/-- One round of the loop in `updateForwardGroupDdnsRecordValues`. -/
def updateRecordSet (reply : ForwardGroupRecordType → Reply) (acc : Records × Bool) (set : RecordSet) :
    Records × Bool :=
  match reply set.recordType with
  | .ok => (Function.update acc.1 set.recordType set.values.toFinset, acc.2)
  | .failed => (acc.1, false)
  | .lost => (Function.update acc.1 set.recordType set.values.toFinset, false)

/-- `updateForwardGroupDdnsRecordValues`: the records after it, and whether it returned
without throwing. A family that fails does not keep the other from its request. -/
def updateForwardGroupDdnsRecordValues (js : Runtime) (recordType : ForwardGroupRecordType)
    (records : Records) (values : List String) (reply : ForwardGroupRecordType → Reply) : Records × Bool :=
  (forwardGroupDdnsRecordSets js recordType values).foldl (updateRecordSet reply) (records, true)

/-- The records are those the value of a row stands for. -/
def Published (js : Runtime) (recordType : ForwardGroupRecordType) (records : Records) (value : String) :
    Prop :=
  ∀ set ∈ forwardGroupDdnsRecordSets js recordType [value], records set.recordType = set.values.toFinset

instance (js : Runtime) (recordType : ForwardGroupRecordType) (records : Records) (value : String) :
    Decidable (Published js recordType records value) :=
  inferInstanceAs (Decidable (∀ set ∈ _, _))

/-- Every request for the values succeeds. -/
def Accepted (js : Runtime) (recordType : ForwardGroupRecordType) (values : List String)
    (reply : ForwardGroupRecordType → Reply) : Prop :=
  ∀ set ∈ forwardGroupDdnsRecordSets js recordType values, reply set.recordType = .ok

instance (js : Runtime) (recordType : ForwardGroupRecordType) (values : List String)
    (reply : ForwardGroupRecordType → Reply) : Decidable (Accepted js recordType values reply) :=
  inferInstanceAs (Decidable (∀ set ∈ _, _))

/-- The requests that take effect ask for the records there are. -/
def Untouched (js : Runtime) (recordType : ForwardGroupRecordType) (records : Records)
    (values : List String) (reply : ForwardGroupRecordType → Reply) : Prop :=
  ∀ set ∈ forwardGroupDdnsRecordSets js recordType values,
    reply set.recordType ≠ .failed → records set.recordType = set.values.toFinset

instance (js : Runtime) (recordType : ForwardGroupRecordType) (records : Records) (values : List String)
    (reply : ForwardGroupRecordType → Reply) : Decidable (Untouched js recordType records values reply) :=
  inferInstanceAs (Decidable (∀ set ∈ _, _ → _))

section
variable {js : Runtime} {recordType : ForwardGroupRecordType} {records : Records} {values : List String}
  {reply : ForwardGroupRecordType → Reply}

theorem joinValues_singleton (value : String) : joinValues [value] = value := by
  simp [joinValues]

theorem recordSets_joined (values : List String) :
    forwardGroupDdnsRecordSets js recordType [joinValues values] =
      forwardGroupDdnsRecordSets js recordType values := by
  simp only [forwardGroupDdnsRecordSets, joinValues_singleton]

def managedTypes : ForwardGroupRecordType → List ForwardGroupRecordType
  | .A => [.A]
  | .AAAA => [.AAAA]
  | .BOTH => [.A, .AAAA]
  | .CNAME => [.CNAME]

theorem recordSets_types (values : List String) :
    (forwardGroupDdnsRecordSets js recordType values).map RecordSet.recordType = managedTypes recordType := by
  cases recordType <;> rfl

theorem recordSets_nodup (values : List String) :
    ((forwardGroupDdnsRecordSets js recordType values).map RecordSet.recordType).Nodup := by
  rw [recordSets_types]
  cases recordType <;> decide

theorem updateRecordSet_fst (acc : Records × Bool) (set : RecordSet) (t : ForwardGroupRecordType) :
    (updateRecordSet reply acc set).1 t =
      if t = set.recordType ∧ reply t ≠ .failed then set.values.toFinset else acc.1 t := by
  by_cases ht : t = set.recordType
  · subst ht
    cases hreply : reply set.recordType <;> simp [updateRecordSet, hreply]
  · cases hreply : reply set.recordType <;> simp [updateRecordSet, hreply, ht]

theorem updateRecordSet_snd (acc : Records × Bool) (set : RecordSet) :
    (updateRecordSet reply acc set).2 = (acc.2 && decide (reply set.recordType = .ok)) := by
  cases hreply : reply set.recordType <;> simp [updateRecordSet, hreply]

theorem foldl_update_other {t : ForwardGroupRecordType} : ∀ (sets : List RecordSet) (acc : Records × Bool),
    t ∉ sets.map RecordSet.recordType → (sets.foldl (updateRecordSet reply) acc).1 t = acc.1 t
  | [], _, _ => rfl
  | set :: sets, acc, ht => by
    rw [List.map_cons, List.mem_cons, not_or] at ht
    rw [List.foldl_cons, foldl_update_other sets _ ht.2, updateRecordSet_fst, if_neg (fun h => ht.1 h.1)]

theorem foldl_update_mem : ∀ (sets : List RecordSet) (acc : Records × Bool),
    (sets.map RecordSet.recordType).Nodup → ∀ set ∈ sets,
      (sets.foldl (updateRecordSet reply) acc).1 set.recordType =
        if reply set.recordType = .failed then acc.1 set.recordType else set.values.toFinset
  | [], _, _, _, h => by cases h
  | first :: sets, acc, hnodup, set, hset => by
    rw [List.map_cons, List.nodup_cons] at hnodup
    rw [List.foldl_cons]
    obtain rfl | hset := List.mem_cons.mp hset
    · rw [foldl_update_other sets _ hnodup.1, updateRecordSet_fst]
      simp
    · have hne : set.recordType ≠ first.recordType := fun h =>
        hnodup.1 (h ▸ List.mem_map_of_mem hset)
      rw [foldl_update_mem sets _ hnodup.2 set hset, updateRecordSet_fst]
      simp [hne]

theorem foldl_update_snd : ∀ (sets : List RecordSet) (acc : Records × Bool),
    (sets.foldl (updateRecordSet reply) acc).2 = true ↔
      acc.2 = true ∧ ∀ set ∈ sets, reply set.recordType = .ok
  | [], acc => by simp
  | set :: sets, acc => by
    rw [List.foldl_cons, foldl_update_snd sets, updateRecordSet_snd]
    simp [and_assoc]

theorem update_returns : (updateForwardGroupDdnsRecordValues js recordType records values reply).2 = true ↔
    Accepted js recordType values reply := by
  unfold updateForwardGroupDdnsRecordValues Accepted
  rw [foldl_update_snd]
  simp

theorem update_mem {set : RecordSet} (hset : set ∈ forwardGroupDdnsRecordSets js recordType values) :
    (updateForwardGroupDdnsRecordValues js recordType records values reply).1 set.recordType =
      if reply set.recordType = .failed then records set.recordType else set.values.toFinset :=
  foldl_update_mem _ _ (recordSets_nodup values) set hset

theorem update_published (records : Records) (h : Accepted js recordType values reply) :
    Published js recordType
      (updateForwardGroupDdnsRecordValues js recordType records values reply).1 (joinValues values) := by
  intro set hset
  rw [recordSets_joined] at hset
  rw [update_mem hset, h set hset]
  rfl

/-- An update whose effective requests ask for the records there are changes nothing. -/
theorem update_untouched (h : Untouched js recordType records values reply) :
    (updateForwardGroupDdnsRecordValues js recordType records values reply).1 = records := by
  funext t
  by_cases ht : t ∈ (forwardGroupDdnsRecordSets js recordType values).map RecordSet.recordType
  · obtain ⟨set, hset, rfl⟩ := List.mem_map.mp ht
    rw [update_mem hset]
    split
    · rfl
    next hreply => exact (h set hset hreply).symm
  · exact foldl_update_other _ _ ht

theorem exists_set_of_type (values' : List String) {set : RecordSet}
    (hset : set ∈ forwardGroupDdnsRecordSets js recordType values) :
    ∃ own ∈ forwardGroupDdnsRecordSets js recordType values', own.recordType = set.recordType := by
  have htype : set.recordType ∈
      (forwardGroupDdnsRecordSets js recordType values').map RecordSet.recordType := by
    rw [recordSets_types, ← recordSets_types values]
    exact List.mem_map_of_mem hset
  exact List.mem_map.mp htype

theorem Published.untouched {value : String} (hbefore : Published js recordType records value)
    (hafter : Published js recordType
      (updateForwardGroupDdnsRecordValues js recordType records values reply).1 value) :
    Untouched js recordType records values reply := by
  intro set hset hreply
  obtain ⟨own, hown, hsame⟩ := exists_set_of_type [value] hset
  calc records set.recordType = own.values.toFinset := hsame ▸ hbefore own hown
    _ = (updateForwardGroupDdnsRecordValues js recordType records values reply).1 set.recordType :=
        (hsame ▸ hafter own hown).symm
    _ = set.values.toFinset := by rw [update_mem hset, if_neg hreply]

/-- Values that some records are published for are published by the same records. -/
theorem Published.same {value value' : String} {records' : Records}
    (h : Published js recordType records value) (h' : Published js recordType records value')
    (hvalue : Published js recordType records' value) : Published js recordType records' value' := by
  intro set hset
  obtain ⟨own, hown, hsame⟩ := exists_set_of_type [value] hset
  calc records' set.recordType = own.values.toFinset := hsame ▸ hvalue own hown
    _ = records set.recordType := (hsame ▸ h own hown).symm
    _ = set.values.toFinset := h' set hset

end

end ForwardX.Panel.Ddns
