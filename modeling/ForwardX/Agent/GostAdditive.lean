import Mathlib.Data.List.Sort
import ForwardX.Lib.Assoc
import ForwardX.Lib.Commands
import ForwardX.Lib.Json

/- Additions to a running GOST (`gost_additive_sync.go`): what is planned from its live
   configuration and the desired one, and how the plan is applied over its API. Configurations
   are JSON maps; the numbers of JSON are those of Go, up to `==`. The order in which Go goes
   through a map is not fixed; here it is that of the list. -/
namespace ForwardX.Agent.Gost
open Commands (Prog)

abbrev Fields (N : Type) := List (String × Json N)

/-- `strings.ToLower`, and `float64` of what `time.ParseDuration` gives, if it does. -/
structure Env (N : Type) where
  toLower : String → String
  parseDuration : String → Option N

def hasPrefix (s start : String) : Bool := start.toList.isPrefixOf s.toList

def trimPrefix (s start : String) : String :=
  if hasPrefix s start then String.ofList (s.toList.drop start.toList.length) else s

/-- `strconv.Atoi` gives no error. -/
def isInt (s : String) : Bool :=
  let digits :=
    match s.toList with
    | '+' :: rest => rest
    | '-' :: rest => rest
    | digits => digits
  let value := digits.foldl (fun n c => 10 * n + (c.toNat - 48)) 0
  !digits.isEmpty && digits.all (fun c => '0' ≤ c && c ≤ '9') &&
    value ≤ (if s.toList.head? = some '-' then 9223372036854775808 else 9223372036854775807)

section
variable {N : Type} [DecidableEq N]

/-! ## Reading JSON -/

/-- `value, _ := fields[key].(map[string]any)`. -/
def mapAt (fields : Fields N) (key : String) : Fields N :=
  match fields.lookup key with
  | some (.obj value) => value
  | _ => []

/-- `value, _ := fields[key].([]any)`. -/
def listAt (fields : Fields N) (key : String) : List (Json N) :=
  match fields.lookup key with
  | some (.arr items) => items
  | _ => []

/-- `value, _ := fields[key].(string)`. -/
def stringAt (fields : Fields N) (key : String) : String :=
  match fields.lookup key with
  | some (.str value) => value
  | _ => ""

/-- `value, _ := item.(map[string]any)`. -/
def asMap : Json N → Fields N
  | .obj fields => fields
  | _ => []

/-- `fields[key]`. -/
def valueAt (fields : Fields N) (key : String) : Json N := (fields.lookup key).getD .null

/-! ## Normalisation -/

section
variable [Zero N] (env : Env N)

def isNull : Json N → Bool
  | .null => true
  | _ => false

def isZero : Json N → Bool
  | .num n => n = 0
  | _ => false

def durationKeys : List String := ["failTimeout", "timeout", "reload", "ttl", "validity"]

def duration : Json N → Option N
  | .str text => env.parseDuration text
  | .num n => some n
  | _ => none

/-- The loop over untyped metadata, and whether two of its names are one in lower case. -/
def lowerNames : Fields N × Bool → Fields N → Fields N × Bool
  | acc, [] => acc
  | (normalized, collision), (name, value) :: rest =>
    let clash := (normalized.lookup (env.toLower name)).any (fun previous => !previous.deepEqual value)
    lowerNames (Assoc.put normalized (env.toLower name) value, collision || clash) rest

/-- What the key `metadata` is kept as. -/
def normalizedMetadata : Json N → Option (Json N)
  | .null => none
  | .obj metadata =>
    if metadata = [] then none
    else
      let (normalized, collision) := lowerNames env ([], false) metadata
      if collision then some (.obj metadata) else some (.obj normalized)
  | item => some item

mutual

/-- `normalizedGostValue`; its nil is null. -/
def normalizedGostValue : Json N → Json N
  | .obj fields =>
    match normalizedFields fields with
    | [] => .null
    | out => .obj out
  | .arr items => if items.isEmpty then .null else .arr (normalizedItems items)
  | .str text => if text = "" then .null else .str text
  | value => value

def normalizedFields : Fields N → Fields N
  | [] => []
  | (key, item) :: rest =>
    let kept :=
      if key = "metadata" then normalizedMetadata env item
      else
        match if key ∈ durationKeys then duration env item else none with
        | some n => if n = 0 then none else some (.num n)
        | none =>
          if key = "maxFails" ∧ isZero item then none
          else
            let normalized := normalizedGostValue item
            if isNull normalized then none else some normalized
    (kept.map (fun value => (key, value))).toList ++ normalizedFields rest

def normalizedItems : List (Json N) → List (Json N)
  | [] => []
  | item :: rest => normalizedGostValue item :: normalizedItems rest

end

/-- `reflect.DeepEqual` of the normalised values. -/
def sameValue (a b : Json N) : Bool := (normalizedGostValue env a).deepEqual (normalizedGostValue env b)

end

/-! ## Objects -/

inductive GostError
  | list (collection : String)
  | object (collection : String)
  | name (collection : String)
  deriving DecidableEq, Repr

def GostError.text : GostError → String
  | list collection => "invalid GOST " ++ collection ++ " list"
  | object collection => "invalid GOST " ++ collection ++ " object"
  | name collection => "invalid or duplicate GOST " ++ collection ++ " name"

/-- `gostObjectNamePattern`. -/
def validName (name : String) : Bool :=
  0 < name.toList.length && name.toList.length ≤ 128 &&
    name.toList.all (fun c => ('a' ≤ c && c ≤ 'z') || ('A' ≤ c && c ≤ 'Z') || ('0' ≤ c && c ≤ '9') ||
      c = '_' || c = '.' || c = '-')

/-- A hint of a node that the live API drops. -/
def isHint (field : String × Json N) : Bool :=
  (field.1 = "connector" || field.1 = "dialer") &&
    match field.2 with
    | .obj hint => hint.length = 1 && (stringAt hint "type" = "tcp" || stringAt hint "type" = "udp")
    | _ => false

def withoutHints : Json N → Json N
  | .obj node => .obj (node.filter (fun field => !isHint field))
  | raw => raw

def copyForwarder (forwarder : Fields N) : Fields N :=
  match forwarder.lookup "nodes" with
  | some (.arr nodes) => Assoc.put forwarder "nodes" (.arr (nodes.map withoutHints))
  | _ => forwarder

def withoutStatus (object : Fields N) : Fields N := object.filter (fun field => field.1 ≠ "status")

/-- The copy of an object. -/
def copyObject (collection : String) (object : Fields N) : Fields N :=
  if collection = "services" then
    match (withoutStatus object).lookup "forwarder" with
    | some (.obj forwarder) => Assoc.put (withoutStatus object) "forwarder" (.obj (copyForwarder forwarder))
    | _ => withoutStatus object
  else object

/-- The loop of `gostObjects`. -/
def collect (collection : String) (result : List (String × Fields N)) :
    List (Json N) → Except GostError (List (String × Fields N))
  | [] => .ok result
  | .obj object :: rest =>
    let name := stringAt object "name"
    if !validName name || (result.lookup name).isSome then .error (.name collection)
    else collect collection (Assoc.put result name (copyObject collection object)) rest
  | _ :: _ => .error (.object collection)

def gostObjects (config : Fields N) (collection : String) : Except GostError (List (String × Fields N)) :=
  match config.lookup collection with
  | none => .ok []
  | some .null => .ok []
  | some (.arr items) => collect collection [] items
  | some _ => .error (.list collection)

/-! ## Plans -/

structure GostAddition (N : Type) where
  collection : String
  name : String
  object : Fields N

def ownSections : List String := ["services", "chains", "limiters", "api"]

section
variable [Zero N] (env : Env N)

/-- A listener of GOST has failed. -/
def unhealthy (live : Fields N) : Bool :=
  (listAt live "services").any (fun item =>
    stringAt (mapAt (asMap item) "status") "state" = "closed" ||
      stringAt (mapAt (asMap item) "status") "state" = "failed")

/-- Every section of `a` that is compared is the same in `b`. -/
def sectionsKept (a b : Fields N) : Bool :=
  a.all (fun field => ownSections.contains field.1 || sameValue env (valueAt a field.1) (valueAt b field.1))

/-- Why an object of `old` is not in `next` as it was. -/
def objectsKept (collection : String) (next : List (String × Fields N)) : List (String × Fields N) → Option String
  | [] => none
  | (name, object) :: rest =>
    match next.lookup name with
    | none => some (collection ++ "-removed")
    | some wanted =>
      if sameValue env (.obj object) (.obj wanted) then objectsKept collection next rest
      else some (collection ++ "-changed")

/-- The objects of `next` that `old` does not have, in the order of their names. -/
def newObjects (collection : String) (old next : List (String × Fields N)) : List (GostAddition N) :=
  let names := ((next.map Prod.fst).filter (fun name => !(old.lookup name).isSome)).insertionSort (· ≤ ·)
  names.filterMap (fun name => (next.lookup name).map (fun object => ⟨collection, name, object⟩))

/-- The loop of `planGostAdditions` over the collections. -/
def planCollections (live desired : Fields N) (additions : List (GostAddition N)) :
    List String → Except GostError (List (GostAddition N) × String)
  | [] => .ok (additions, "")
  | collection :: rest =>
    match gostObjects live collection with
    | .error err => .error err
    | .ok old =>
      match gostObjects desired collection with
      | .error err => .error err
      | .ok next =>
        match objectsKept env collection next old with
        | some reason => .ok ([], reason)
        | none => planCollections live desired (additions ++ newObjects collection old next) rest

/-- `planGostAdditions`: the additions and the reason why there are none. -/
def planGostAdditions (live desired : Fields N) : Except GostError (List (GostAddition N) × String) :=
  if unhealthy live then .ok ([], "unhealthy-listener")
  else if !sectionsKept env live desired then .ok ([], "global-config-changed")
  else if !sectionsKept env desired live then .ok ([], "global-config-changed")
  else planCollections env live desired [] ["limiters", "chains", "services"]

end

/-- `a == b` of two values; where Go panics, the values are not equal here. -/
def interfaceEq : Json N → Json N → Bool
  | .null, .null => true
  | .bool a, .bool b => a = b
  | .num m, .num n => m = n
  | .str s, .str t => s = t
  | _, _ => false

def probePrefix : String := "fwx-tunnel-probe-"

/-- `strings.Split(strings.TrimPrefix(name, "fwx-tunnel-probe-"), "-")[0]`. -/
def probeID (name : String) : String :=
  String.ofList ((trimPrefix name probePrefix).toList.takeWhile (fun c => c ≠ '-'))

/-- The live service is an idle probe at the address of an exit that `next` has. -/
def replaced (next : List (String × Fields N)) (old : Fields N) : Bool :=
  let name := stringAt old "name"
  let nodes := listAt (mapAt old "forwarder") "nodes"
  let probeTarget := nodes.length = 1 && nodes.all (fun node => stringAt (asMap node) "addr" = "127.0.0.1:9")
  hasPrefix name probePrefix && isInt (probeID name) && probeID name ≠ "0" &&
    stringAt (mapAt old "handler") "type" = "tcp" && probeTarget && (next.lookup name).isNone &&
    next.any (fun service =>
      hasPrefix service.1 ("fwx-tunnel-exit-" ++ probeID name ++ "-") &&
        interfaceEq (valueAt service.2 "addr") (valueAt old "addr"))

/-- `planGostProbeReplacements`: the live configuration without the probes, and the probes. -/
def planGostProbeReplacements (live desired : Fields N) : Fields N × List (GostAddition N) :=
  match gostObjects desired "services" with
  | .error _ => (live, [])
  | .ok next =>
    let services := listAt live "services"
    (Assoc.put live "services" (.arr (services.filter (fun raw => !replaced next (asMap raw)))),
      (services.filter (fun raw => replaced next (asMap raw))).map (fun raw =>
        ⟨"services", stringAt (asMap raw) "name", withoutStatus (asMap raw)⟩))

/-! ## The API -/

/-- A name in a collection. -/
structure ObjectKey where
  collection : String
  name : String
  deriving DecidableEq, Repr

abbrev Collections (N : Type) := List (ObjectKey × Fields N)

inductive Request (N : Type)
  | post (collection : String) (object : Fields N)
  | delete (collection name : String)

/-- `gostAPIError`, or any other error. -/
inductive RequestError
  | api (status code : Int)
  | unavailable (text : String)
  deriving DecidableEq, Repr

def RequestError.hasCode (code : Int) : RequestError → Bool
  | api _ c => c = code
  | unavailable _ => false

/-- What the API does with a request that reaches it. -/
def serve (objects : Collections N) : Request N → Collections N × Option RequestError
  | .post collection object =>
    if (objects.lookup ⟨collection, stringAt object "name"⟩).isSome then (objects, some (.api 400 40002))
    else (Assoc.put objects ⟨collection, stringAt object "name"⟩ object, none)
  | .delete collection name =>
    if (objects.lookup ⟨collection, name⟩).isSome then (Assoc.erase objects ⟨collection, name⟩, none)
    else (objects, some (.api 400 40004))

/-- A request is served, or fails for another reason before or after it was. -/
def Serves (objects : Collections N) (request : Request N) (answer : Option RequestError)
    (after : Collections N) : Prop :=
  serve objects request = (after, answer) ∨
    ∃ err : RequestError, answer = some err ∧ err.hasCode 40002 = false ∧ err.hasCode 40004 = false ∧
      (after = objects ∨ after = (serve objects request).1)

/-! ## Applying a plan -/

/-- What a call of `applyGostProbeReplacements` returns, and what its restore function knows. -/
structure Applied (N : Type) where
  err : Option RequestError
  removed : List (GostAddition N)
  attempted : List (GostAddition N)

def applyGostAdditions (removed attempted : List (GostAddition N)) :
    List (GostAddition N) → Prog (Request N) (Option RequestError) (Applied N)
  | [] => .done ⟨none, removed, attempted⟩
  | item :: rest =>
    .call (.post item.collection item.object) (fun answer =>
      match answer with
      | none => applyGostAdditions removed (attempted ++ [item]) rest
      | some err =>
        if err.hasCode 40002 then .done ⟨some err, removed, attempted⟩
        else .done ⟨some err, removed, attempted ++ [item]⟩)

def applyGostProbeReplacements (additions removed : List (GostAddition N)) :
    List (GostAddition N) → Prog (Request N) (Option RequestError) (Applied N)
  | [] => applyGostAdditions removed [] additions
  | probe :: rest =>
    .call (.delete "services" probe.name) (fun answer =>
      match answer with
      | none => applyGostProbeReplacements additions (removed ++ [probe]) rest
      | some err => .done ⟨some err, removed ++ [probe], []⟩)

/-- The rollback of the additions, in the order of the list. -/
def deleteAdditions (ok : Bool) : List (GostAddition N) → Prog (Request N) (Option RequestError) Bool
  | [] => .done ok
  | item :: rest =>
    .call (.delete item.collection item.name) (fun answer =>
      deleteAdditions (ok && answer.all (RequestError.hasCode 40004)) rest)

/-- The probes are added again. -/
def postProbes (ok : Bool) : List (GostAddition N) → Prog (Request N) (Option RequestError) Bool
  | [] => .done ok
  | probe :: rest =>
    .call (.post "services" probe.object) (fun answer =>
      postProbes (ok && answer.all (RequestError.hasCode 40002)) rest)

def restore (applied : Applied N) : Prog (Request N) (Option RequestError) Bool :=
  (deleteAdditions true applied.attempted.reverse).bind (fun ok => postProbes ok applied.removed)

end

end ForwardX.Agent.Gost
