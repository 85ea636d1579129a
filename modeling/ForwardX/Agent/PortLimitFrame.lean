import ForwardX.Agent.PortAccessLimits

/- What a reconciliation of the limits leaves alone, whichever of its commands fail. Its commands are
   those of `Allowed`: they change managed chains, and in the base chains the hooks to managed chains;
   of the managed chains that are desired they only add to the rules. -/
namespace ForwardX.Agent.PortLimits
open Commands PacketFilter

def jumpsToManaged (rule : Rule) : Bool := (target rule).any managedPortLimitChain

/-- A command that changes what belongs to the limits. -/
inductive Confined (desired : List (String × List Rule)) : Command → Prop
  | new {chain : String} : managedPortLimitChain chain = true → Confined desired (.new chain)
  | insert {chain : String} (rule : Rule) : managedPortLimitChain chain = true → Confined desired (.insert chain rule)
  | append {chain : String} (rule : Rule) : managedPortLimitChain chain = true → Confined desired (.append chain rule)
  | hook {base : String} {rule : Rule} : base ∈ baseChains → jumpsToManaged rule = true → Confined desired (.insert base rule)
  | unhook {base : String} {rule : Rule} : base ∈ baseChains → jumpsToManaged rule = true → Confined desired (.delete base rule)
  | flush {chain : String} : managedPortLimitChain chain = true → desired.lookup chain = none → Confined desired (.flush chain)
  | remove {chain : String} : managedPortLimitChain chain = true → desired.lookup chain = none → Confined desired (.remove chain)

/-- A command that reads, or one that changes what belongs to the limits. -/
inductive Allowed (desired : List (String × List Rule)) (checkOnly : Bool) : Command → Prop
  | list : Allowed desired checkOnly .list
  | check (chain : String) (rule : Rule) : Allowed desired checkOnly (.check chain rule)
  | change {command : Command} : checkOnly = false → Confined desired command → Allowed desired checkOnly command

/-- What is the same in a table before and after. -/
structure Frame (desired : List (String × List Rule)) (table after : Table) : Prop where
  others : ∀ name, managedPortLimitChain name = false → name ∉ baseChains → after.lookup name = table.lookup name
  bases : ∀ base ∈ baseChains, (rulesOf after base).filter (fun rule => !jumpsToManaged rule) =
    (rulesOf table base).filter (fun rule => !jumpsToManaged rule)
  desired : ∀ name, (desired.lookup name).isSome = true → ∀ rule ∈ rulesOf table name, rule ∈ rulesOf after name

section
variable {desired : List (String × List Rule)} {table u v : Table} {answer : Answer} {command : Command} {checkOnly : Bool}

theorem base_unmanaged {base : String} (h : base ∈ baseChains) : managedPortLimitChain base = false := by
  revert base
  decide

theorem filter_erase_of_neg {p : Rule → Bool} {rule : Rule} (h : p rule = false) (rules : List Rule) :
    (rules.erase rule).filter p = rules.filter p := by
  induction rules with
  | nil => rfl
  | cons r rules ih =>
    by_cases hr : r = rule
    · rw [hr, List.erase_cons_head, List.filter_cons_of_neg (by simp [h])]
    · rw [List.erase_cons_tail (by simpa using hr), List.filter_cons, List.filter_cons, ih]

theorem Frame.confined (hmanaged : ∀ name, (desired.lookup name).isSome = true → managedPortLimitChain name = true)
    (h : Frame desired table u) (hc : Confined desired command) (hobeys : Obeys u command answer v) : Frame desired table v where
  others name hname hbase := by
    refine (hobeys.lookup fun hchain => ?_).trans (h.others name hname hbase)
    cases hc <;> cases hchain <;> simp_all
  bases base hbase := by
    rw [← h.bases base hbase]
    obtain hsame | ⟨hchain, heffect⟩ := hobeys.rulesOf base
    · rw [hsame]
    · rw [heffect]
      have hfree := base_unmanaged hbase
      cases hc with
      | hook _ hjump => exact List.filter_cons_of_neg (by simp [hjump])
      | unhook _ hjump => exact filter_erase_of_neg (by simp [hjump]) _
      | _ => cases hchain; simp_all
  desired name hname rule hrule := by
    have hmem := h.desired name hname rule hrule
    have hown := hmanaged name hname
    obtain hsame | ⟨hchain, heffect⟩ := hobeys.rulesOf name
    · rw [hsame]
      exact hmem
    · rw [heffect]
      cases hc with
      | new => exact hmem
      | insert => exact List.mem_cons_of_mem _ hmem
      | append => exact List.mem_append_left _ hmem
      | hook => exact List.mem_cons_of_mem _ hmem
      | unhook hbase =>
        cases hchain
        rw [base_unmanaged hbase] at hown
        cases hown
      | flush _ hfree =>
        cases hchain
        rw [hfree] at hname
        cases hname
      | remove _ hfree =>
        cases hchain
        rw [hfree] at hname
        cases hname

theorem Frame.step (hmanaged : ∀ name, (desired.lookup name).isSome = true → managedPortLimitChain name = true)
    (hc : Allowed desired checkOnly command) (hobeys : Obeys u command answer v)
    (h : Frame desired table u ∧ (checkOnly = true → u = table)) : Frame desired table v ∧ (checkOnly = true → v = table) := by
  cases hc with
  | list => rwa [hobeys.reads fun output hrun => by cases hrun; rfl]
  | check chain rule =>
    rwa [hobeys.reads fun output hrun => by
      obtain ⟨-, hafter⟩ := Option.ite_none_right_eq_some.mp hrun
      cases hafter
      rfl]
  | change hwrites hconfined =>
    refine ⟨h.1.confined hmanaged hconfined hobeys, fun hcheck => ?_⟩
    rw [hcheck] at hwrites
    cases hwrites

end

/-! ## The program -/

section
variable (digest : Digest)

theorem managed_portLimitChain {start : String} (hstart : start = "FWX_PD_" ∨ start = "FWX_PC_") (value : ChainValue) :
    managedPortLimitChain (portLimitChain digest start value) = true := by
  have hlength := digest.length_text value
  have hhex : ∀ c ∈ (digest.text value).toList, c ∈ hexDigits := by simpa using digest.hex value
  obtain rfl | rfl := hstart
  · simpa [managedPortLimitChain, portLimitChain, hasPrefix, hlength] using hhex
  · simpa [managedPortLimitChain, portLimitChain, hasPrefix, hlength] using hhex

def Managed (rules : List (String × List Rule)) : Prop :=
  ∀ name, (rules.lookup name).isSome = true → managedPortLimitChain name = true

theorem Managed.addRule {rules : List (String × List Rule)} (h : Managed rules) {name : String}
    (hname : managedPortLimitChain name = true) (rule : Rule) : Managed (addRule rules name rule) := by
  intro other hother
  by_cases heq : other = name
  · rw [heq]
    exact hname
  · rw [PortLimits.addRule, Assoc.lookup_put_ne _ heq] at hother
    exact h other hother

theorem managed_portLimitRules (specs : List Spec) (ipv6 : Bool) : Managed (portLimitRules digest specs ipv6).2 := by
  have hdispatch := managed_portLimitChain digest (Or.inl rfl) (.specs specs)
  have hspec : ∀ (rules : List (String × List Rule)) (spec : Spec), Managed rules →
      Managed (addSpec digest ipv6 (dispatchChain digest specs) rules spec) := by
    intro rules spec h
    have hcounter := managed_portLimitChain digest (Or.inr rfl) (.counter spec.userID spec.maxIPs)
    have hlimit : Managed (if spec.maxIPs > 0 then addRule rules (counterChain digest spec) (limitRule ipv6 spec) else rules) := by
      split
      · exact h.addRule hcounter _
      · exact h
    exact List.foldlRecOn (motive := Managed) (portGroups spec.ports) _ (hlimit.addRule hcounter _)
      fun rules h ports _ => h.addRule hdispatch _
  rw [portLimitRules]
  split
  · intro name hname
    cases hname
  · exact (List.foldlRecOn (motive := Managed) specs _ (fun _ hname => by cases hname)
      fun rules h spec _ => hspec rules spec h).addRule hdispatch _

theorem only_issue {P : Command → Prop} {command : Command} (h : P command) : (issue command).Only P :=
  ⟨h, fun _ => trivial⟩

theorem only_ensure {P : Command → Prop} {checkOnly : Bool} {missing chain : String} {rule : Rule} {command : Command}
    (hcheck : P (.check chain rule)) (h : checkOnly = false → P command) :
    (ensure checkOnly missing chain rule command).Only P := by
  refine ⟨hcheck, fun answer => ?_⟩
  cases answer with
  | ok => exact trivial
  | error =>
    cases checkOnly with
    | true => exact trivial
    | false => exact only_issue (h rfl)

theorem jumpsToManaged_hook {dispatch : String} (h : managedPortLimitChain dispatch = true) (base : String) :
    jumpsToManaged (portLimitHook dispatch base) = true := by
  have htarget : target (portLimitHook dispatch base) = some dispatch := by
    rw [target, portLimitHook, List.reverse_append]
    rfl
  rw [jumpsToManaged, htarget]
  exact h

theorem mem_obsoleteHooks {dispatch : String} {snapshot : List (List String)} {hook : String × Rule}
    (h : hook ∈ obsoleteHooks dispatch snapshot) : hook.1 ∈ baseChains ∧ jumpsToManaged hook.2 = true := by
  obtain ⟨args, -, hargs⟩ := List.mem_filterMap.mp h
  split at hargs
  · next command base rule =>
    obtain ⟨⟨-, hbase, htarget⟩, hhook⟩ := Option.ite_none_right_eq_some.mp hargs
    cases hhook
    refine ⟨by simpa [baseChains] using hbase, ?_⟩
    rw [jumpsToManaged]
    cases hchain : target rule with
    | none =>
      rw [hchain] at htarget
      cases htarget
    | some chain =>
      rw [hchain] at htarget
      exact (Bool.and_eq_true_iff.mp htarget).1
  · cases hargs

theorem mem_existingChains {snapshot : List (List String)} {name : String} (h : name ∈ existingChains snapshot) :
    managedPortLimitChain name = true := by
  obtain ⟨args, -, hargs⟩ := List.mem_filterMap.mp h
  split at hargs
  · obtain ⟨⟨-, hmanaged⟩, hname⟩ := Option.ite_none_right_eq_some.mp hargs
    cases hname
    exact hmanaged
  · cases hargs

variable {digest}

theorem reconcile_only (binary : String) (checkOnly : Bool) (specs : List Spec) {order : String → List String → List String}
    (horder : ∀ start names name, name ∈ order start names → name ∈ names) :
    (reconcilePortLimitFamily binary checkOnly digest specs order).Only
      (Allowed (portLimitRules digest specs (binary = "ip6tables")).2 checkOnly) := by
  have hmanaged := managed_portLimitRules digest specs (binary = "ip6tables")
  have hdispatch : (portLimitRules digest specs (binary = "ip6tables")).1 ≠ "" →
      managedPortLimitChain (portLimitRules digest specs (binary = "ip6tables")).1 = true := by
    rw [portLimitRules]
    split
    · exact fun hne => absurd rfl hne
    · exact fun _ => managed_portLimitChain digest (Or.inl rfl) _
  rw [reconcilePortLimitFamily]
  generalize portLimitRules digest specs (binary = "ip6tables") = rules at hmanaged hdispatch ⊢
  obtain ⟨dispatch, desired⟩ := rules
  refine ⟨.list, fun answer => ?_⟩
  cases answer with
  | error => exact trivial
  | ok snapshot =>
    refine Prog.Only.andThen (.each fun name hname => ?_) (.andThen (.each fun base hbase => ?_) ?_)
    -- the desired chains, the dispatcher last
    · have hname : managedPortLimitChain name = true := by
        have hcounter : ∀ name ∈ ((desired.map Prod.fst).filter (fun name => name ≠ dispatch)).insertionSort (· ≤ ·),
            managedPortLimitChain name = true := by
          intro name hname
          have hmem : name ∈ Assoc.keys desired :=
            (List.mem_filter.mp ((List.perm_insertionSort (· ≤ ·) _).mem_iff.mp hname)).1
          obtain ⟨rules, hrules⟩ := Assoc.mem_keys.mp hmem
          exact hmanaged name (by rw [hrules]; rfl)
        split at hname
        · next hne =>
          rcases List.mem_append.mp hname with hname | hname
          · exact hcounter name hname
          · rw [List.mem_singleton.mp hname]
            exact hdispatch hne
        · exact hcounter name hname
      refine Prog.Only.andThen ?_ (.each fun rule _ => ?_)
      · split
        · exact trivial
        · split
          · exact trivial
          · next hwrites => exact only_issue (.change (Bool.eq_false_iff.mpr hwrites) (.new hname))
      · refine only_ensure (.check name rule) fun hwrites => ?_
        split
        · exact .change hwrites (.append rule hname)
        · exact .change hwrites (.insert rule hname)
    -- the hooks
    · refine only_ensure (.check base _) fun hwrites => .change hwrites (.hook ?_ ?_)
      · split at hbase
        · exact hbase
        · cases hbase
      · split at hbase
        · next hne => exact jumpsToManaged_hook (hdispatch hne) base
        · cases hbase
    -- what is obsolete, unless this is a check
    · split
      · exact trivial
      · next hwrites =>
        refine .andThen (.each fun hook hhook => ?_) (.each fun start _ => .each fun name hname => ?_)
        · obtain ⟨hbase, hjump⟩ := mem_obsoleteHooks hhook
          exact only_issue (.change (Bool.eq_false_iff.mpr hwrites) (.unhook hbase hjump))
        · rw [removeChain]
          split
          · exact trivial
          · next hstale =>
            have hname := mem_existingChains (horder start _ name hname)
            have hfree : desired.lookup name = none :=
              Option.not_isSome_iff_eq_none.mp (not_or.mp (mt Bool.or_eq_true_iff.mpr hstale)).2
            exact (only_issue (.change (Bool.eq_false_iff.mpr hwrites) (.flush hname hfree))).andThen
              (only_issue (.change (Bool.eq_false_iff.mpr hwrites) (.remove hname hfree)))

/-- Whatever commands fail, and wherever a run stops: the chains that are not managed and the other rules of the base
chains stay as they are, the managed chains that are desired keep the rules that they have, and a check changes nothing. -/
theorem reconcile_keeps {binary : String} {checkOnly : Bool} {specs : List Spec} {order : String → List String → List String}
    (horder : ∀ start names name, name ∈ order start names → name ∈ names) {table after : Table} {path : List Table}
    {err : Option String}
    (hrun : Execution Obeys (reconcilePortLimitFamily binary checkOnly digest specs order) table path err after) :
    ∀ u ∈ path, Frame (portLimitRules digest specs (binary = "ip6tables")).2 table u ∧ (checkOnly = true → u = table) := by
  refine (reconcile_only binary checkOnly specs horder).invariant (fun c s r t hc hobeys h => ?_) hrun ?_
  · exact Frame.step (managed_portLimitRules digest specs _) hc hobeys h
  · exact ⟨⟨fun _ _ _ => rfl, fun _ _ => rfl, fun _ _ _ hrule => hrule⟩, fun _ => rfl⟩

end

def zeros : Digest where
  text _ := "00000000000000000000"
  length_text _ := by decide
  hex _ := by decide

/-- A hook to a dispatcher that is stale, beside a counter that is desired. -/
def limited : Table :=
  [("PREROUTING", [["-j", "DROP"], ["-j", "FWX_PD_11111111111111111111"]]), ("OUTPUT", []),
    ("FWX_PC_00000000000000000000", [["-j", "RETURN"]]),
    ("FWX_PD_11111111111111111111", [["-j", "FWX_PC_00000000000000000000"]])]

/-- The commands work where they can; the one that deletes a rule is killed after it did. -/
def timedOut (table : Table) (command : Command) : Answer × Table :=
  match run table command with
  | none => (.error "exit status 1", table)
  | some (after, output) =>
    match command with
    | .delete .. => (.error "signal: killed", after)
    | _ => (.ok output, after)

theorem obeys_timedOut (table : Table) (command : Command) :
    Obeys table command (timedOut table command).1 (timedOut table command).2 := by
  unfold timedOut
  cases hrun : run table command with
  | none => exact .fails _
  | some result =>
    cases command with
    | delete => exact .killed _ hrun
    | _ => exact .works hrun

/-- The limit of a user is put in place, and the run ends where the stale hook is taken out. -/
def limitUser : Script := reconcilePortLimitFamily "iptables" false zeros [⟨1, 2, [8080]⟩] (fun _ names => names)

theorem limit_replaces_stale_hook : ∃ (path : List Table) (after : Table),
    Execution Obeys limitUser limited path (some "signal: killed") after ∧
    (rulesOf after "FWX_PC_00000000000000000000").length = 2 ∧ (rulesOf after "PREROUTING").length = 2 ∧
    ∀ u ∈ path, Frame (portLimitRules zeros [⟨1, 2, [8080]⟩] false).2 limited u := by
  have hrun := Execution.of_exec obeys_timedOut limitUser limited
  have hend : (limitUser.exec timedOut limited).2.1 = some "signal: killed" := by decide +kernel
  have hcounter : (rulesOf (limitUser.exec timedOut limited).2.2 "FWX_PC_00000000000000000000").length = 2 := by
    decide +kernel
  have hbase : (rulesOf (limitUser.exec timedOut limited).2.2 "PREROUTING").length = 2 := by decide +kernel
  rw [hend] at hrun
  exact ⟨_, _, hrun, hcounter, hbase, fun u hu => (reconcile_keeps (fun _ _ _ h => h) hrun u hu).1⟩

end ForwardX.Agent.PortLimits
