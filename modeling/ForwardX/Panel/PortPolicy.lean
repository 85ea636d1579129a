import Mathlib.Data.Rat.Floor
import ForwardX.Lib.BinarySearch
import ForwardX.Lib.Intervals
import ForwardX.Panel.DdnsRecords

/- Port policies (`portPolicy.ts`). A policy allows a primary range, further ranges and single
   ports, everything when it has none of these, and nothing when it denies all. Policies are
   made from a source or combined from others; those are normalised, so that `WeakSet`
   membership is a field here, and their ranges and ports are searched by halves. -/
namespace ForwardX.Panel.Ports
open Intervals
open Ddns (jsTrim splitCommas)

/-! ## Numbers -/

/-- A number of the runtime: NaN and the infinities are not finite. -/
inductive JsNumber
  | rational (q : ℚ)
  | notFinite
  deriving DecidableEq

/-- The value of a number for which `Number.isInteger` holds. -/
def JsNumber.integer : JsNumber → Option Int
  | rational q => if q.den = 1 then some q.num else none
  | notFinite => none

def optionalPort (value : Option JsNumber) : Option Int :=
  (value.bind JsNumber.integer).filter (fun port => 1 ≤ port && port ≤ 65535)

/-! ## Policies -/

structure PortPolicySource where
  portRangeStart : Option JsNumber
  portRangeEnd : Option JsNumber
  portAllowlist : Option String
  portRanges : List (Option JsNumber × Option JsNumber)

/-- `PortPolicy`; `normalized` is its membership in `normalizedPolicies`. -/
structure PortPolicy where
  rangeStart : Option Int
  rangeEnd : Option Int
  allowlist : List Int
  ranges : Option (List Interval)
  denyAll : Bool
  normalized : Bool
  deriving DecidableEq, Repr

/-- `policy.ranges || []`. -/
def PortPolicy.rangeList (policy : PortPolicy) : List Interval := policy.ranges.getD []

def PortPolicy.primary (policy : PortPolicy) : List Interval :=
  match policy.rangeStart, policy.rangeEnd with
  | some start, some stop => [⟨start, stop⟩]
  | _, _ => []

/-- What `normalizeIntervals` makes of one interval. -/
def clampInterval (range : Interval) : Option Interval :=
  let start := max 1 range.start
  let stop := min 65535 range.stop
  if start ≤ stop then some ⟨start, stop⟩ else none

/-- The order of `normalizeIntervals`: by start, then by end. -/
def IntervalLe (a b : Interval) : Prop := a.start < b.start ∨ (a.start = b.start ∧ a.stop ≤ b.stop)

instance : DecidableRel IntervalLe := fun a b =>
  inferInstanceAs (Decidable (a.start < b.start ∨ (a.start = b.start ∧ a.stop ≤ b.stop)))

def normalizeIntervals (intervals : List Interval) : List Interval :=
  merge ((intervals.filterMap clampInterval).insertionSort IntervalLe)

def policyIntervals (policy : PortPolicy) : List Interval :=
  if policy.denyAll then []
  else normalizeIntervals (policy.primary ++ policy.rangeList ++ policy.allowlist.map (fun port => ⟨port, port⟩))

def intersectIntervals (left right : List Interval) : List Interval := intersect left right

def sideOfNumber (target value : Int) : Ordering :=
  if value = target then .eq else if value < target then .gt else .lt

def sortedNumbersInclude (values : List Int) (target : Int) : Bool :=
  BinarySearch.binarySearch (sideOfNumber target) values

def sideOfRange (target : Int) (range : Interval) : Ordering :=
  if target < range.start then .lt else if range.stop < target then .gt else .eq

def sortedIntervalsInclude (intervals : List Interval) (target : Int) : Bool :=
  BinarySearch.binarySearch (sideOfRange target) intervals

/-- `parsePortAllowlist`; `number` is `Number` of a string. -/
def parsePortAllowlist (number : String → JsNumber) (value : Option String) : List Int :=
  let text := jsTrim (value.getD "")
  if text = "" then []
  else
    ((splitCommas text).filterMap (fun item => optionalPort (some (number (jsTrim item))))).dedup.insertionSort
      (· ≤ ·)

/-- A pair of ends of `portRanges`. -/
def optionalRange (range : Option JsNumber × Option JsNumber) : Option Interval :=
  match optionalPort range.1, optionalPort range.2 with
  | some start, some stop => if start ≤ stop then some ⟨start, stop⟩ else none
  | _, _ => none

def portPolicyFrom (number : String → JsNumber) (source : Option PortPolicySource) : PortPolicy :=
  let rangeStart := source.bind (fun s => optionalPort s.portRangeStart)
  let rangeEnd := source.bind (fun s => optionalPort s.portRangeEnd)
  let hasValidRange := rangeStart.any (fun start => rangeEnd.any (fun stop => start ≤ stop))
  -- the map of the ranges by their text holds every range once
  let ranges := normalizeIntervals ((source.elim [] (·.portRanges)).filterMap optionalRange).dedup
  { rangeStart := if hasValidRange then rangeStart else none
    rangeEnd := if hasValidRange then rangeEnd else none
    allowlist := parsePortAllowlist number (source.bind (·.portAllowlist))
    ranges := if 0 < ranges.length then some ranges else none
    denyAll := false
    normalized := true }

def portPolicyHasRestriction (policy : PortPolicy) : Bool :=
  policy.denyAll || (policy.rangeStart.isSome && policy.rangeEnd.isSome) || 0 < policy.rangeList.length ||
    0 < policy.allowlist.length

/-- `isPortAllowedByPolicy`; the intervals are those of the primary range. -/
def isPortAllowedByPolicy (port : JsNumber) (policy : PortPolicy) : Bool :=
  port.integer.any fun port =>
    if port < 1 ∨ 65535 < port then false
    else if policy.denyAll then false
    else if !portPolicyHasRestriction policy then true
    else if policy.primary.any (fun range => range.start ≤ port && port ≤ range.stop) then true
    else if policy.normalized then
      sortedIntervalsInclude policy.rangeList port || sortedNumbersInclude policy.allowlist port
    else
      policy.rangeList.any (fun range => range.start ≤ port && port ≤ range.stop) || policy.allowlist.contains port

/-! ## Combinations -/

/-- The loop over the restricted policies, which ends when nothing is left. -/
def intersectPolicies (allowed : List Interval) : List PortPolicy → List Interval
  | [] => allowed
  | policy :: policies =>
    if 0 < allowed.length then intersectPolicies (intersectIntervals allowed (policyIntervals policy)) policies
    else allowed

/-- The index of the longest interval, the first of them. -/
def bestIndex (allowed : List Interval) : Nat :=
  (List.range allowed.length).foldl (fun best index =>
    match allowed[index]?, allowed[best]? with
    | some a, some b => if b.stop - b.start < a.stop - a.start then index else best
    | _, _ => best) 0

/-- The policy that allows the given intervals: the longest is its primary range. -/
def encodeIntervals (allowed : List Interval) : PortPolicy :=
  let best := allowed[bestIndex allowed]?
  let hasPrimaryRange := best.any (fun b => b.start < b.stop)
  let remaining :=
    (allowed.zipIdx.filter (fun range => !hasPrimaryRange || range.2 != bestIndex allowed)).map Prod.fst
  let longer := remaining.filter (fun range => range.start ≠ range.stop)
  { rangeStart := if hasPrimaryRange then best.map (·.start) else none
    rangeEnd := if hasPrimaryRange then best.map (·.stop) else none
    allowlist := (remaining.filter (fun range => range.start = range.stop)).map (·.start)
    ranges := if 0 < longer.length then some longer else none
    denyAll := false
    normalized := true }

def combinePortPolicies (number : String → JsNumber) (policies : List PortPolicy) : PortPolicy :=
  match policies.filter portPolicyHasRestriction with
  | [] => portPolicyFrom number none
  | first :: restricted =>
    let allowed := intersectPolicies (policyIntervals first) restricted
    if allowed.length = 0 then
      { rangeStart := none, rangeEnd := none, allowlist := [], ranges := none, denyAll := true, normalized := true }
    else encodeIntervals allowed

def combineHostPortPolicyWithRange (number : String → JsNumber) (hostSource : Option PortPolicySource)
    (preferredStart preferredEnd : Option JsNumber) : PortPolicy :=
  let hostPolicy := portPolicyFrom number hostSource
  match optionalPort preferredStart, optionalPort preferredEnd with
  | some start, some stop =>
    if stop < start then hostPolicy
    else if hostPolicy.rangeStart = some start ∧ hostPolicy.rangeEnd = some stop then hostPolicy
    else
      combinePortPolicies number [hostPolicy,
        portPolicyFrom number (some ⟨some (.rational start), some (.rational stop), none, []⟩)]
  | _, _ => hostPolicy

/-- A policy that `portPolicyFrom` or `combinePortPolicies` has made. -/
inductive Made (number : String → JsNumber) : PortPolicy → Prop
  | source (source : Option PortPolicySource) : Made number (portPolicyFrom number source)
  | combined (policies : List PortPolicy) (h : ∀ policy ∈ policies, Made number policy) :
      Made number (combinePortPolicies number policies)

/-! ## Picking a port -/

/-- The ports from `start` to `stop`. -/
def portsBetween (start stop : Int) : List Int :=
  (List.range (stop - start + 1).toNat).map (fun (i : Nat) => start + (i : Int))

def addCandidate (used : Int → Bool) (candidates : List Int) (port : Int) : List Int :=
  if used port || candidates.contains port then candidates else candidates ++ [port]

/-- The candidate at `Math.floor(Math.random() * candidates.length)`. -/
def randomCandidate (random : ℚ) (candidates : List Int) : Option Int :=
  if candidates.length = 0 then none else candidates[(Rat.floor (random * candidates.length)).toNat]?

/-- `pickAvailablePort`; `random` is what `Math.random` returns. -/
def pickAvailablePort (random : ℚ) (policy : PortPolicy) (used : Int → Bool) (defaults : Interval) : Option Int :=
  if portPolicyHasRestriction policy then
    randomCandidate random
      ((policy.primary.flatMap (fun range => portsBetween range.start range.stop) ++
        policy.rangeList.flatMap (fun range => portsBetween range.start range.stop) ++ policy.allowlist).foldl
          (addCandidate used) [])
  else
    let start := max 1 (min 65535 defaults.start)
    let stop := max start (min 65535 defaults.stop)
    let range := stop - start + 1
    if range ≤ 10000 then randomCandidate random ((portsBetween start stop).foldl (addCandidate used) [])
    else
      let offset := Rat.floor (random * range)
      ((List.range range.toNat).map (fun (i : Nat) => start + (offset + i) % range)).find? (fun port => !used port)

end ForwardX.Panel.Ports
