import Mathlib.Data.List.Sort
import Mathlib.Data.Int.Order.Basic
import ForwardX.Lib.PacketFilter

/- TCP limits on the addresses that reach a user's ports (`port_access_limits.go`): a counter
   chain for each user and limit, a dispatcher that sends the ports to the counters, and a hook to
   it in two base chains of the mangle table. Names are content-addressed: a prefix and what is
   left of the SHA-256 of a JSON text, which is a parameter here. -/
namespace ForwardX.Agent.PortLimits
open Commands PacketFilter

/-- `portAccessLimitSpec`. -/
structure Spec where
  userID : Int
  maxIPs : Int
  ports : List Int
  deriving DecidableEq, Repr

/-! ## Names -/

/-- What a name is the digest of. -/
inductive ChainValue
  | specs (specs : List Spec)
  | counter (userID maxIPs : Int)
  deriving DecidableEq

def hexDigits : List Char := "0123456789abcdef".toList

/-- The first ten bytes of the SHA-256 of `json.Marshal(value)`, in hexadecimal. -/
structure Digest where
  text : ChainValue → String
  length_text : ∀ value, (text value).toList.length = 20
  hex : ∀ value, (text value).toList.all (fun c => hexDigits.contains c) = true

def hasPrefix (name start : String) : Bool := start.toList.isPrefixOf name.toList

def managedPortLimitChain (name : String) : Bool :=
  (hasPrefix name "FWX_PD_" || hasPrefix name "FWX_PC_") && name.toList.length = 27 &&
    (name.toList.drop 7).all (fun c => hexDigits.contains c)

section
variable (digest : Digest)

def portLimitChain (start : String) (value : ChainValue) : String := start ++ digest.text value

def dispatchChain (specs : List Spec) : String := portLimitChain digest "FWX_PD_" (.specs specs)

def counterChain (spec : Spec) : String := portLimitChain digest "FWX_PC_" (.counter spec.userID spec.maxIPs)

/-! ## Rules -/

def returnRule : Rule := ["-j", "RETURN"]

/-- The rule that drops what is above a limit. -/
def limitRule (ipv6 : Bool) (spec : Spec) : Rule :=
  ["-p", "tcp", "-m", "connlimit", "--connlimit-above", toString spec.maxIPs, "--connlimit-mask",
    if ipv6 then "128" else "32", "--connlimit-saddr", "-j", "DROP"]

def portGroups (ports : List Int) : List (List Int) :=
  (List.range ((ports.length + 14) / 15)).map (fun i => (ports.drop (15 * i)).take 15)

def portsRule (counter : String) (ports : List Int) : Rule :=
  ["-p", "tcp", "-m", "multiport", "--dports", ",".intercalate (ports.map toString), "-j", counter]

/-- `rules[name] = append(rules[name], rule)`. -/
def addRule (rules : List (String × List Rule)) (name : String) (rule : Rule) : List (String × List Rule) :=
  Assoc.put rules name ((rules.lookup name).getD [] ++ [rule])

/-- What a user adds to the rules. -/
def addSpec (ipv6 : Bool) (dispatch : String) (rules : List (String × List Rule)) (spec : Spec) :
    List (String × List Rule) :=
  let counter := counterChain digest spec
  let rules := if spec.maxIPs > 0 then addRule rules counter (limitRule ipv6 spec) else rules
  let rules := addRule rules counter returnRule
  (portGroups spec.ports).foldl (fun rules ports => addRule rules dispatch (portsRule counter ports)) rules

def portLimitRules (specs : List Spec) (ipv6 : Bool) : String × List (String × List Rule) :=
  if specs = [] then ("", [])
  else
    let dispatch := dispatchChain digest specs
    (dispatch, addRule (specs.foldl (addSpec digest ipv6 dispatch) []) dispatch returnRule)

end

def portLimitHook (dispatch base : String) : Rule :=
  ["-p", "tcp", "-m", "tcp", "--syn", "-m", "conntrack", "--ctstate", "NEW", "--ctdir", "ORIGINAL", "-m", "addrtype",
    "--dst-type", "LOCAL"] ++ (if base = "PREROUTING" then ["!", "-i", "lo"] else []) ++ ["-j", dispatch]

def baseChains : List String := ["PREROUTING", "OUTPUT"]

/-! ## Reconciliation -/

abbrev Script := Prog Command Answer (Option String)

def failure : Answer → Option String
  | .ok _ => none
  | .error err => some err

def issue (command : Command) : Script := .call command (fun answer => .done (failure answer))

/-- A rule that is not there is an error, or is put there. -/
def ensure (checkOnly : Bool) (missing : String) (chain : String) (rule : Rule) (command : Command) : Script :=
  .call (.check chain rule) (fun answer =>
    match answer with
    | .ok _ => .done none
    | .error _ => if checkOnly then .done (some missing) else issue command)

/-- The managed chains of a snapshot. -/
def existingChains (snapshot : List (List String)) : List String :=
  snapshot.filterMap (fun args =>
    match args with
    | [command, name] => if command = "-N" ∧ managedPortLimitChain name = true then some name else none
    | _ => none)

/-- The rules of base chains that jump to another managed chain. -/
def obsoleteHooks (dispatch : String) (snapshot : List (List String)) : List (String × Rule) :=
  snapshot.filterMap (fun args =>
    match args with
    | command :: base :: rule =>
      if command = "-A" ∧ (base = "PREROUTING" ∨ base = "OUTPUT") ∧
          (target rule).any (fun chain => managedPortLimitChain chain && chain ≠ dispatch) = true then
        some (base, rule)
      else none
    | _ => none)

section
variable (binary : String) (checkOnly : Bool)

def prepareRule (name : String) (rule : Rule) : Script :=
  ensure checkOnly (binary ++ " limit rule missing") name rule
    (if rule = returnRule then .append name rule else .insert name rule)

/-- A chain with its rules. -/
def prepareChain (existing : List String) (desired : List (String × List Rule)) (name : String) : Script :=
  (if name ∈ existing then .done none
    else if checkOnly then .done (some (binary ++ " limit chain missing"))
    else issue (.new name)).andThen
  (Prog.each ((desired.lookup name).getD []) (prepareRule binary checkOnly name))

def prepareHook (dispatch base : String) : Script :=
  ensure checkOnly (binary ++ " limit hook missing") base (portLimitHook dispatch base)
    (.insert base (portLimitHook dispatch base))

/-- A managed chain that is not desired. -/
def removeChain (desired : List (String × List Rule)) (start name : String) : Script :=
  if !hasPrefix name start || (desired.lookup name).isSome then .done none
  else (issue (.flush name)).andThen (issue (.remove name))

variable (digest : Digest)

/-- `reconcilePortLimitFamily`; `order` is that in which Go goes through a map, for either prefix. -/
def reconcilePortLimitFamily (specs : List Spec) (order : String → List String → List String) : Script :=
  let (dispatch, desired) := portLimitRules digest specs (binary = "ip6tables")
  .call .list (fun answer =>
    match answer with
    | .error err => .done (some err)
    | .ok snapshot =>
      let existing := existingChains snapshot
      let obsolete := obsoleteHooks dispatch snapshot
      let counters := ((desired.map Prod.fst).filter (fun name => name ≠ dispatch)).insertionSort (· ≤ ·)
      let names := if dispatch ≠ "" then counters ++ [dispatch] else counters
      (Prog.each names (prepareChain binary checkOnly existing desired)).andThen
        ((Prog.each (if dispatch ≠ "" then baseChains else []) (prepareHook binary checkOnly dispatch)).andThen
          (if checkOnly then .done (if obsolete = [] then none else some (binary ++ " stale limit hooks"))
          else
            (Prog.each obsolete (fun hook => issue (.delete hook.1 hook.2))).andThen
              (Prog.each ["FWX_PD_", "FWX_PC_"] (fun start =>
                Prog.each (order start existing) (removeChain desired start))))))

end

end ForwardX.Agent.PortLimits
