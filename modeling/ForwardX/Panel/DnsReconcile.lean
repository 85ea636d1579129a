import Mathlib.Algebra.Order.BigOperators.Group.List
import Mathlib.Data.List.Perm.Basic
import Mathlib.Data.List.Nodup
import ForwardX.Panel.DnsProvider

/- The reconciliation of the records of a name (`updateDdnsRecordValues` of `server/ddns.ts`). The plan splits the
   records into those that are kept, one for each desired value that is there, and those to spare; each missing value
   takes the place of a spare record while there is one. At every point of a call the records are the kept ones, one
   for each value that is placed so far, and what is left to spare (`Stage`). -/
namespace ForwardX.Panel.Dns
open Ddns (jsTrim)

/-! ## Desired values -/

theorem mem_uniqueFold (values acc : List String) (v : String) :
    v ∈ values.foldl uniqueStep acc ↔ v ∈ acc ∨ ∃ w ∈ values, jsTrim w = v ∧ v ≠ "" := by
  induction values generalizing acc with
  | nil => simp
  | cons w values ih =>
    rw [List.foldl_cons, ih, uniqueStep]
    by_cases hskip : jsTrim w = "" ∨ acc.contains (jsTrim w) = true
    · rw [if_pos hskip]
      constructor
      · rintro (hacc | ⟨w', hw', heq⟩)
        · exact Or.inl hacc
        · exact Or.inr ⟨w', List.mem_cons_of_mem _ hw', heq⟩
      · rintro (hacc | ⟨w', hw', heq, hne⟩)
        · exact Or.inl hacc
        · rcases List.mem_cons.mp hw' with rfl | hw'
          · rcases hskip with hempty | hseen
            · exact absurd (heq ▸ hempty) hne
            · exact Or.inl (heq ▸ List.contains_iff_mem.mp hseen)
          · exact Or.inr ⟨w', hw', heq, hne⟩
    · rw [if_neg hskip, List.mem_append, List.mem_singleton]
      constructor
      · rintro ((hacc | rfl) | ⟨w', hw', heq⟩)
        · exact Or.inl hacc
        · exact Or.inr ⟨w, List.mem_cons_self, rfl, fun hempty => hskip (Or.inl hempty)⟩
        · exact Or.inr ⟨w', List.mem_cons_of_mem _ hw', heq⟩
      · rintro (hacc | ⟨w', hw', heq, hne⟩)
        · exact Or.inl (Or.inl hacc)
        · rcases List.mem_cons.mp hw' with rfl | hw'
          · exact Or.inl (Or.inr heq.symm)
          · exact Or.inr ⟨w', hw', heq, hne⟩

theorem nodup_uniqueFold (values acc : List String) (h : acc.Nodup) :
    (values.foldl uniqueStep acc).Nodup := by
  induction values generalizing acc with
  | nil => exact h
  | cons w values ih =>
    rw [List.foldl_cons]
    apply ih
    unfold uniqueStep
    dsimp only
    split
    · exact h
    · rename_i hkeep
      have hnew : jsTrim w ∉ acc := fun hmem => hkeep (Or.inr (List.contains_iff_mem.mpr hmem))
      exact List.nodup_append.mpr ⟨h, List.nodup_singleton _, fun a ha b hb heq =>
        hnew (List.mem_singleton.mp hb ▸ heq ▸ ha)⟩

theorem uniqueFold_of_nodup {values acc : List String} (h : (acc ++ values).Nodup)
    (htrim : ∀ v ∈ values, v ≠ "" ∧ jsTrim v = v) :
    values.foldl uniqueStep acc = acc ++ values := by
  induction values generalizing acc with
  | nil => simp
  | cons w values ih =>
    obtain ⟨hne, hw⟩ := htrim w List.mem_cons_self
    have hnew : w ∉ acc := fun hmem => (List.nodup_append.mp h).2.2 w hmem w List.mem_cons_self rfl
    have hkeep : ¬ (jsTrim w = "" ∨ acc.contains (jsTrim w) = true) := by
      rw [hw]
      rintro (hempty | hseen)
      · exact hne hempty
      · exact hnew (List.contains_iff_mem.mp hseen)
    rw [List.foldl_cons, uniqueStep, if_neg hkeep, hw, ih]
    · rw [List.append_assoc, List.singleton_append]
    · rw [List.append_assoc, List.singleton_append]
      exact h
    · exact fun v hv => htrim v (List.mem_cons_of_mem _ hv)

theorem nodup_uniqueDdnsValues (values : List String) : (uniqueDdnsValues values).Nodup :=
  nodup_uniqueFold values [] List.nodup_nil

def Trimmed (values : List String) : Prop := ∀ v ∈ values, v ≠ "" ∧ jsTrim v = v

section
variable {values : List String} (h : Trimmed values)
include h

theorem mem_uniqueDdnsValues (v : String) : v ∈ uniqueDdnsValues values ↔ v ∈ values := by
  unfold uniqueDdnsValues
  rw [mem_uniqueFold]
  constructor
  · rintro (hnil | ⟨w, hw, rfl, -⟩)
    · cases hnil
    · rw [(h w hw).2]
      exact hw
  · intro hv
    exact Or.inr ⟨v, hv, (h v hv).2, (h v hv).1⟩

theorem uniqueDdnsValues_perm : (uniqueDdnsValues values).Perm values.dedup := by
  apply (List.perm_ext_iff_of_nodup (nodup_uniqueDdnsValues values) values.nodup_dedup).mpr
  intro v
  rw [mem_uniqueDdnsValues h, List.mem_dedup]

theorem uniqueDdnsValues_trimmed : Trimmed (uniqueDdnsValues values) := fun v hv => h v ((mem_uniqueDdnsValues h v).mp hv)

theorem uniqueDdnsValues_idem : uniqueDdnsValues (uniqueDdnsValues values) = uniqueDdnsValues values :=
  uniqueFold_of_nodup (nodup_uniqueDdnsValues values) (uniqueDdnsValues_trimmed h)

end

/-! ## Plans -/

section
variable {T : Type} (valueOf : T → String) (desired : List String)

/-- The records so far are those that are kept, one for each covered value, and those to spare. No value that is
desired and not covered is among the latter. -/
structure Covers (records kept spare : List T) (covered : List String) : Prop where
  perm : records.Perm (kept ++ spare)
  values : kept.map (fun r => jsTrim (valueOf r)) = covered
  nodup : covered.Nodup
  wanted : ∀ v ∈ covered, v ∈ desired
  needless : ∀ r ∈ spare, jsTrim (valueOf r) ∈ desired → jsTrim (valueOf r) ∈ covered

variable {valueOf desired} in
theorem Covers.step {records kept spare : List T} {covered : List String} (h : Covers valueOf desired records kept spare covered)
    (r : T) : ∃ kept', Covers valueOf desired (records ++ [r]) kept' (coverStep desired valueOf (covered, spare) r).2
      (coverStep desired valueOf (covered, spare) r).1 := by
  unfold coverStep
  dsimp only
  by_cases htake : (desired.contains (jsTrim (valueOf r)) && !covered.contains (jsTrim (valueOf r))) = true
  · rw [if_pos htake]
    simp only [Bool.and_eq_true, Bool.not_eq_true', List.contains_iff_mem] at htake
    have hnew : jsTrim (valueOf r) ∉ covered := by
      intro hmem
      rw [List.contains_iff_mem.mpr hmem] at htake
      exact absurd htake.2 (by decide)
    refine ⟨kept ++ [r], ?_, ?_, ?_, ?_, ?_⟩
    · calc (records ++ [r]).Perm (kept ++ spare ++ [r]) := h.perm.append_right [r]
        _ = kept ++ (spare ++ [r]) := List.append_assoc ..
        List.Perm _ (kept ++ ([r] ++ spare)) := (List.perm_append_comm).append_left kept
        _ = kept ++ [r] ++ spare := (List.append_assoc ..).symm
    · rw [List.map_append, h.values, List.map_singleton]
    · exact List.nodup_append.mpr ⟨h.nodup, List.nodup_singleton _, fun a ha b hb heq =>
        hnew (List.mem_singleton.mp hb ▸ heq ▸ ha)⟩
    · intro v hv
      rcases List.mem_append.mp hv with hold | hlast
      · exact h.wanted v hold
      · rw [List.mem_singleton.mp hlast]
        exact htake.1
    · intro s hs hwanted
      exact List.mem_append_left _ (h.needless s hs hwanted)
  · rw [if_neg htake]
    refine ⟨kept, ?_, h.values, h.nodup, h.wanted, ?_⟩
    · rw [← List.append_assoc]
      exact h.perm.append_right [r]
    · intro s hs hwanted
      rcases List.mem_append.mp hs with hold | hlast
      · exact h.needless s hold hwanted
      · rw [List.mem_singleton.mp hlast] at hwanted ⊢
        by_contra hnot
        apply htake
        rw [List.contains_iff_mem.mpr hwanted, Bool.true_and, Bool.not_eq_true']
        exact Bool.eq_false_iff.mpr fun hseen => hnot (List.contains_iff_mem.mp hseen)

theorem covers_foldl (records : List T) : ∃ kept, Covers valueOf desired records kept
    (records.foldl (coverStep desired valueOf) ([], [])).2 (records.foldl (coverStep desired valueOf) ([], [])).1 := by
  induction records using List.reverseRecOn with
  | nil => exact ⟨[], List.Perm.refl _, rfl, List.nodup_nil, fun v hv => (by cases hv), fun r hr => (by cases hr)⟩
  | append_singleton records r ih =>
    obtain ⟨kept, h⟩ := ih
    rw [List.foldl_append, List.foldl_cons, List.foldl_nil]
    exact h.step r

end

/-- The requests of a plan: each missing value takes a spare record while there is one. -/
def planRequests (template : Option DnsRecord) : List String → List DnsRecord → List Request
  | [], spare => spare.map .delete
  | value :: missing, [] => .create template value :: planRequests template missing []
  | value :: missing, record :: spare => .update record value :: planRequests template missing spare

theorem planRequests_eq (template : Option DnsRecord) (missing : List String) (spare : List DnsRecord) :
    (pairUp missing spare).updates.map (fun change => Request.update change.1 change.2) ++
      (pairUp missing spare).creates.map (.create template) ++ (pairUp missing spare).removals.map .delete =
    planRequests template missing spare := by
  induction missing generalizing spare with
  | nil => simp [pairUp, planRequests]
  | cons value missing ih =>
    cases spare with
    | nil =>
      have hrest := ih []
      cases missing with
      | nil => simp [pairUp, planRequests]
      | cons value' missing =>
        simp only [pairUp, List.map_nil, List.nil_append, List.append_nil, List.map_cons] at hrest ⊢
        rw [planRequests, ← hrest]
    | cons record spare =>
      rw [planRequests, ← ih]
      simp [pairUp]

/-! ## Clients -/

variable {js : Runtime}

/-- The name and the type of a client are in the form in which the listing is filtered. -/
def Client.Settled (js : Runtime) : Client → Prop
  | .cloudflare recordName recordType _ => normalizeDnsName js recordName = recordName ∧ js.toUpperCase recordType = recordType
  | .aliyun _ recordType _ _ => js.toUpperCase recordType = recordType
  | .tencentcloud _ recordType _ _ _ => js.toUpperCase recordType = recordType

theorem cloudflareClient_settled {input : DdnsRecordValuesInput}
    (h : normalizeDnsName js (normalizeDnsName js input.domain) = normalizeDnsName js input.domain) :
    (cloudflareClient js input).Settled js :=
  ⟨h, js.upper_upper _⟩

theorem aliyunClient_settled {settings : DdnsSettings} {input : DdnsRecordValuesInput} {client : Client}
    (h : aliyunClient js settings input = .ok client) : client.Settled js := by
  unfold aliyunClient at h
  split at h
  · cases h
  · cases hsplit : splitDnsName js input.domain settings.aliyunDomainName "阿里云" with
    | error message =>
      rw [hsplit] at h
      cases h
    | ok split =>
      rw [hsplit] at h
      cases h
      exact js.upper_upper _

theorem tencentCloudClient_settled {settings : DdnsSettings} {input : DdnsRecordValuesInput} {client : Client}
    (h : tencentCloudClient js settings input = .ok client) : client.Settled js := by
  unfold tencentCloudClient at h
  split at h
  · cases h
  · cases hsplit : splitDnsName js input.domain settings.tencentcloudDomainName "腾讯云 DNSPod" with
    | error message =>
      rw [hsplit] at h
      cases h
    | ok split =>
      rw [hsplit] at h
      cases h
      exact js.upper_upper _

theorem Client.write_value (client : Client) (value : String) (template : Option DnsRecord) (r : DnsRecord) :
    (client.write value template r).value = value := by
  cases client with
  | cloudflare => rfl
  | aliyun => rfl
  | tencentcloud => rfl

theorem Client.accepts_write {client : Client} (h : client.Settled js) (value : String) (template : Option DnsRecord)
    (r : DnsRecord) : client.accepts js (client.write value template r) = true := by
  cases client with
  | cloudflare recordName recordType ttl =>
    obtain ⟨hname, htype⟩ := h
    simp [Client.accepts, Client.write, hname, htype]
  | aliyun rr recordType line ttl =>
    have htype : js.toUpperCase recordType = recordType := h
    simp [Client.accepts, Client.write, htype]
  | tencentcloud subDomain recordType recordLine recordLineId ttl =>
    have htype : js.toUpperCase recordType = recordType := h
    by_cases hline : recordLineId = ""
    · simp [Client.accepts, Client.write, htype, hline]
    · simp [Client.accepts, Client.write, htype, hline, orElse]

/-! ## Requests -/

variable (js) in
def Client.ours (client : Client) (z : Zone) : List DnsRecord := z.records.filter (client.accepts js)

variable (js) in
def Client.others (client : Client) (z : Zone) : List DnsRecord := z.records.filter fun r => !client.accepts js r

section
variable {client : Client} {z : Zone} {record : DnsRecord} {rest : List DnsRecord}

theorem eq_of_id {r r' : DnsRecord} (hr : r ∈ z.records) (hr' : r' ∈ z.records) (h : r.id = r'.id) : r = r' :=
  List.inj_on_of_nodup_map z.nodup hr hr' h

theorem nodup_ours (client : Client) (z : Zone) : ((client.ours js z).map DnsRecord.id).Nodup :=
  z.nodup.sublist (List.filter_sublist.map _)

variable (hperm : (client.ours js z).Perm (record :: rest))
include hperm

theorem rest_ids : ∀ r ∈ rest, r.id ≠ record.id := by
  have hnd := (hperm.map DnsRecord.id).nodup_iff.mp (nodup_ours client z)
  rw [List.map_cons, List.nodup_cons] at hnd
  intro r hr heq
  exact hnd.1 (heq ▸ List.mem_map_of_mem hr)

theorem mem_of_ours : record ∈ z.records ∧ client.accepts js record = true :=
  List.mem_filter.mp (hperm.mem_iff.mpr List.mem_cons_self)

theorem others_ids : ∀ r ∈ client.others js z, r.id ≠ record.id := by
  intro r hr heq
  obtain ⟨hmem, hother⟩ := List.mem_filter.mp hr
  rw [eq_of_id hmem (mem_of_ours hperm).1 heq, (mem_of_ours hperm).2] at hother
  cases hother

theorem update_ours (hsettled : client.Settled js) (supply : IdSupply) (value : String) :
    (client.ours js (z.apply supply client (.update record value))).Perm
      (client.write value (some record) record :: rest) := by
  have haccepts : ∀ r ∈ z.records, client.accepts js (rewriteRecord client record value r) = client.accepts js r := by
    intro r hr
    unfold rewriteRecord
    split
    · rename_i hid
      rw [eq_of_id hr (mem_of_ours hperm).1 hid, Client.accepts_write hsettled, (mem_of_ours hperm).2]
    · rfl
  have hmap : (record :: rest).map (rewriteRecord client record value) = client.write value (some record) record :: rest := by
    rw [List.map_cons, rewriteRecord, if_pos rfl]
    congr 1
    calc rest.map (rewriteRecord client record value) = rest.map id := by
          apply List.map_congr_left
          intro r hr
          exact if_neg (rest_ids hperm r hr)
      _ = rest := List.map_id _
  have hfilter : client.ours js (z.apply supply client (.update record value)) =
      (client.ours js z).map (rewriteRecord client record value) := by
    show (z.records.map (rewriteRecord client record value)).filter (client.accepts js) = _
    rw [List.filter_map]
    exact congrArg _ (List.filter_congr haccepts)
  rw [hfilter, ← hmap]
  exact hperm.map _

theorem update_others (hsettled : client.Settled js) (supply : IdSupply) (value : String) :
    client.others js (z.apply supply client (.update record value)) = client.others js z := by
  have haccepts : ∀ r ∈ z.records, (!client.accepts js (rewriteRecord client record value r)) = !client.accepts js r := by
    intro r hr
    unfold rewriteRecord
    split
    · rename_i hid
      rw [eq_of_id hr (mem_of_ours hperm).1 hid, Client.accepts_write hsettled, (mem_of_ours hperm).2]
    · rfl
  show (z.records.map (rewriteRecord client record value)).filter _ = _
  rw [List.filter_map]
  calc (z.records.filter ((fun r => !client.accepts js r) ∘ rewriteRecord client record value)).map
          (rewriteRecord client record value)
      = (client.others js z).map (rewriteRecord client record value) := congrArg _ (List.filter_congr haccepts)
    _ = (client.others js z).map id := by
        apply List.map_congr_left
        intro r hr
        exact if_neg (others_ids hperm r hr)
    _ = client.others js z := List.map_id _

theorem delete_ours (supply : IdSupply) : (client.ours js (z.apply supply client (.delete record))).Perm rest := by
  have hswap : client.ours js (z.apply supply client (.delete record)) =
      (client.ours js z).filter fun r => r.id ≠ record.id := by
    show (z.records.filter _).filter _ = (z.records.filter _).filter _
    rw [List.filter_filter, List.filter_filter]
    apply List.filter_congr
    intro r _
    exact Bool.and_comm _ _
  have hrest : (record :: rest).filter (fun r => r.id ≠ record.id) = rest := by
    rw [List.filter_cons_of_neg (by simp)]
    apply List.filter_eq_self.mpr
    intro r hr
    exact decide_eq_true (rest_ids hperm r hr)
  rw [hswap]
  calc ((client.ours js z).filter fun r => r.id ≠ record.id).Perm ((record :: rest).filter fun r => r.id ≠ record.id) :=
        hperm.filter _
    _ = rest := hrest

theorem delete_others (supply : IdSupply) :
    client.others js (z.apply supply client (.delete record)) = client.others js z := by
  have hswap : client.others js (z.apply supply client (.delete record)) =
      (client.others js z).filter fun r => r.id ≠ record.id := by
    show (z.records.filter _).filter _ = (z.records.filter _).filter _
    rw [List.filter_filter, List.filter_filter]
    apply List.filter_congr
    intro r _
    exact Bool.and_comm _ _
  rw [hswap]
  apply List.filter_eq_self.mpr
  intro r hr
  exact decide_eq_true (others_ids hperm r hr)

end

/-! ## Stages of a call -/

/-- The provider while a plan is carried out: `placed` are the missing values that have a record by now, `spare` are
the records that are left to spare. None was deleted while values were missing. -/
structure Stage (js : Runtime) (client : Client) (others kept spares : List DnsRecord) (missing : List String) (z : Zone)
    (placed rest : List String) (spare : List DnsRecord) : Prop where
  split : missing = placed ++ rest
  ours : ∃ new : List DnsRecord, new.map DnsRecord.value = placed ∧ (client.ours js z).Perm (kept ++ new ++ spare)
  others : client.others js z = others
  sub : spare.Sublist spares
  many : rest ≠ [] → spares.length ≤ placed.length + spare.length

section
variable {client : Client} {others kept spares : List DnsRecord} {missing placed rest : List String} {z : Zone}
  {value : String} {record : DnsRecord} {spare : List DnsRecord}

theorem Stage.update (h : Stage js client others kept spares missing z placed (value :: rest) (record :: spare))
    (hsettled : client.Settled js) (supply : IdSupply) :
    Stage js client others kept spares missing (z.apply supply client (.update record value)) (placed ++ [value]) rest spare := by
  obtain ⟨new, hnew, hperm⟩ := h.ours
  have hfront : (client.ours js z).Perm (record :: (kept ++ new ++ spare)) := hperm.trans List.perm_middle
  refine ⟨?_, ⟨new ++ [client.write value (some record) record], ?_, ?_⟩, ?_, ?_, ?_⟩
  · rw [h.split, List.append_assoc, List.singleton_append]
  · rw [List.map_append, hnew, List.map_singleton, client.write_value]
  · calc (client.ours js (z.apply supply client (.update record value))).Perm
          (client.write value (some record) record :: (kept ++ new ++ spare)) := update_ours hfront hsettled supply value
      List.Perm _ (kept ++ new ++ client.write value (some record) record :: spare) := List.perm_middle.symm
      _ = kept ++ (new ++ [client.write value (some record) record]) ++ spare := by simp
  · rw [update_others hfront hsettled supply value, h.others]
  · exact (List.sublist_cons_self record spare).trans h.sub
  · intro _
    have hmany := h.many (List.cons_ne_nil _ _)
    rw [List.length_append, List.length_singleton]
    rw [List.length_cons] at hmany
    omega

theorem Stage.create (h : Stage js client others kept spares missing z placed (value :: rest) [])
    (hsettled : client.Settled js) (supply : IdSupply) (template : Option DnsRecord) :
    Stage js client others kept spares missing (z.apply supply client (.create template value)) (placed ++ [value]) rest [] := by
  obtain ⟨new, hnew, hperm⟩ := h.ours
  have haccepts : client.accepts js (createRecord supply client z template value) = true :=
    Client.accepts_write hsettled value template _
  have hours : client.ours js (z.apply supply client (.create template value)) =
      client.ours js z ++ [createRecord supply client z template value] := by
    show (z.records ++ [createRecord supply client z template value]).filter _ = _
    rw [List.filter_append, List.filter_cons_of_pos haccepts, List.filter_nil]
    rfl
  have hothers : client.others js (z.apply supply client (.create template value)) = client.others js z := by
    show (z.records ++ [createRecord supply client z template value]).filter _ = _
    rw [List.filter_append, List.filter_cons_of_neg (by rw [haccepts]; decide), List.filter_nil, List.append_nil]
    rfl
  refine ⟨?_, ⟨new ++ [createRecord supply client z template value], ?_, ?_⟩, ?_, h.sub, ?_⟩
  · rw [h.split, List.append_assoc, List.singleton_append]
  · rw [List.map_append, hnew, List.map_singleton, createRecord, client.write_value]
  · rw [hours]
    rw [List.append_nil] at hperm ⊢
    rw [← List.append_assoc]
    exact hperm.append_right _
  · rw [hothers, h.others]
  · intro _
    have hmany := h.many (List.cons_ne_nil _ _)
    rw [List.length_append, List.length_singleton]
    omega

theorem Stage.delete (h : Stage js client others kept spares missing z placed [] (record :: spare)) (supply : IdSupply) :
    Stage js client others kept spares missing (z.apply supply client (.delete record)) placed [] spare := by
  obtain ⟨new, hnew, hperm⟩ := h.ours
  have hfront : (client.ours js z).Perm (record :: (kept ++ new ++ spare)) := hperm.trans List.perm_middle
  refine ⟨h.split, ⟨new, hnew, delete_ours hfront supply⟩, ?_, ?_, fun hne => absurd rfl hne⟩
  · rw [delete_others hfront supply, h.others]
  · exact (List.sublist_cons_self record spare).trans h.sub

theorem Stage.run_delete (h : Stage js client others kept spares missing z placed [] spare) (supply : IdSupply) (k : Nat) :
    ∃ spare', Stage js client others kept spares missing (z.run supply client ((spare.map .delete).take k)) placed [] spare' ∧
      (spare.length ≤ k → spare' = []) := by
  induction spare generalizing z k with
  | nil =>
    rw [List.map_nil, List.take_nil]
    exact ⟨[], h, fun _ => rfl⟩
  | cons record spare ih =>
    cases k with
    | zero => exact ⟨record :: spare, h, fun hle => absurd hle (Nat.not_succ_le_zero _)⟩
    | succ k =>
      obtain ⟨spare', hstage, hdone⟩ := ih (h.delete supply) k
      exact ⟨spare', hstage, fun hle => hdone (Nat.le_of_succ_le_succ hle)⟩

/-- A call that is stopped after any of its requests is at some stage; one that is not stopped has nothing left to do. -/
theorem Stage.run (h : Stage js client others kept spares missing z placed rest spare) (hsettled : client.Settled js)
    (supply : IdSupply) (template : Option DnsRecord) (k : Nat) :
    ∃ placed' rest' spare', Stage js client others kept spares missing
        (z.run supply client ((planRequests template rest spare).take k)) placed' rest' spare' ∧
      ((planRequests template rest spare).length ≤ k → rest' = [] ∧ spare' = []) := by
  induction rest generalizing z placed spare k with
  | nil =>
    obtain ⟨spare', hstage, hdone⟩ := h.run_delete supply k
    refine ⟨placed, [], spare', hstage, fun hle => ⟨rfl, hdone ?_⟩⟩
    rw [planRequests, List.length_map] at hle
    exact hle
  | cons value rest ih =>
    cases k with
    | zero =>
      refine ⟨placed, value :: rest, spare, h, fun hle => ?_⟩
      cases spare with
      | nil => exact absurd hle (Nat.not_succ_le_zero _)
      | cons => exact absurd hle (Nat.not_succ_le_zero _)
    | succ k =>
      cases spare with
      | nil =>
        obtain ⟨placed', rest', spare', hstage, hdone⟩ := ih (h.create hsettled supply template) k
        exact ⟨placed', rest', spare', hstage, fun hle => hdone (Nat.le_of_succ_le_succ hle)⟩
      | cons record spare =>
        obtain ⟨placed', rest', spare', hstage, hdone⟩ := ih (h.update hsettled supply) k
        exact ⟨placed', rest', spare', hstage, fun hle => hdone (Nat.le_of_succ_le_succ hle)⟩

end

/-! ## Calls -/

variable (js) in
/-- The provider lists the records of the name, type and line on one page, in any order. -/
def Lists (client : Client) (z : Zone) (listing : List DnsRecord) : Prop :=
  (listing.filter (client.accepts js)).Perm (client.ours js z)

section
variable {client : Client} {z : Zone} {listing : List DnsRecord} {values : List String}

theorem requests_stage (hvalues : Trimmed values) (hlist : Lists js client z listing) :
    ∃ template kept spare covered, Covers DnsRecord.value (uniqueDdnsValues values) (client.ours js z) kept spare covered ∧
      client.requests js listing values =
        planRequests template ((uniqueDdnsValues values).filter fun v => !covered.contains v) spare ∧
      Stage js client (client.others js z) kept spare ((uniqueDdnsValues values).filter fun v => !covered.contains v) z []
        ((uniqueDdnsValues values).filter fun v => !covered.contains v) spare := by
  have hmanaged : (listing.filter (client.accepts js)).filter (fun r => r.id ≠ "") = listing.filter (client.accepts js) := by
    apply List.filter_eq_self.mpr
    intro r hr
    exact decide_eq_true (z.named r (List.mem_filter.mp (hlist.mem_iff.mp hr)).1)
  have hdesired : uniqueDdnsValues (client.desired values) = uniqueDdnsValues values := by
    cases client with
    | cloudflare => exact uniqueDdnsValues_idem hvalues
    | aliyun => rfl
    | tencentcloud => rfl
  obtain ⟨kept, hcovers⟩ := covers_foldl DnsRecord.value (uniqueDdnsValues values) (listing.filter (client.accepts js))
  refine ⟨(listing.filter (client.accepts js)).head?.or (listing.filter (client.accepts js)).head?, kept, _, _,
    ⟨hlist.symm.trans hcovers.perm, hcovers.values, hcovers.nodup, hcovers.wanted, hcovers.needless⟩, ?_, rfl,
    ⟨[], rfl, ?_⟩, rfl, List.Sublist.refl _, ?_⟩
  · unfold Client.requests planDdnsValueChanges
    dsimp only
    rw [hmanaged, hdesired]
    exact planRequests_eq _ _ _
  · rw [List.append_nil]
    exact hlist.symm.trans hcovers.perm
  · intro _
    rw [List.length_nil, Nat.zero_add]

theorem requests_take (hsettled : client.Settled js) (hvalues : Trimmed values) (hlist : Lists js client z listing)
    (supply : IdSupply) (k : Nat) :
    ∃ kept spare covered placed rest spare',
      Covers DnsRecord.value (uniqueDdnsValues values) (client.ours js z) kept spare covered ∧
      Stage js client (client.others js z) kept spare ((uniqueDdnsValues values).filter fun v => !covered.contains v)
        (z.run supply client ((client.requests js listing values).take k)) placed rest spare' ∧
      ((client.requests js listing values).length ≤ k → rest = [] ∧ spare' = []) := by
  obtain ⟨template, kept, spare, covered, hcovers, hrequests, hstage⟩ := requests_stage hvalues hlist
  obtain ⟨placed, rest, spare', hstage', hdone⟩ := hstage.run hsettled supply template k
  rw [← hrequests] at hstage' hdone
  exact ⟨kept, spare, covered, placed, rest, spare', hcovers, hstage', hdone⟩

end

section
variable {client : Client} {z z' : Zone} {kept spare spare' : List DnsRecord} {values covered placed rest : List String}
  (hvalues : Trimmed values)
  (hcovers : Covers DnsRecord.value (uniqueDdnsValues values) (client.ours js z) kept spare covered)
  (hstage : Stage js client (client.others js z) kept spare ((uniqueDdnsValues values).filter fun v => !covered.contains v)
    z' placed rest spare')

include hstage in
theorem placed_missing {v : String} (hv : v ∈ placed) : v ∈ uniqueDdnsValues values ∧ v ∉ covered := by
  have hmissing : v ∈ (uniqueDdnsValues values).filter fun v => !covered.contains v := by
    rw [hstage.split]
    exact List.mem_append_left _ hv
  obtain ⟨hmem, hnot⟩ := List.mem_filter.mp hmissing
  refine ⟨hmem, fun hcovered => ?_⟩
  rw [List.contains_iff_mem.mpr hcovered] at hnot
  cases hnot

include hcovers in
theorem missing_absent {v : String} (hv : v ∈ uniqueDdnsValues values) (hnot : v ∉ covered) :
    ∀ r ∈ client.ours js z, jsTrim r.value ≠ v := by
  intro r hr heq
  rcases List.mem_append.mp (hcovers.perm.mem_iff.mp hr) with hkept | hspare
  · exact hnot (hcovers.values ▸ heq ▸ List.mem_map_of_mem hkept)
  · exact hnot (heq ▸ hcovers.needless r hspare (heq ▸ hv))

include hcovers in
/-- The covered values and the missing ones are those that are desired. -/
theorem desired_perm : (covered ++ (uniqueDdnsValues values).filter fun v => !covered.contains v).Perm
    (uniqueDdnsValues values) := by
  have hnodup : (covered ++ (uniqueDdnsValues values).filter fun v => !covered.contains v).Nodup := by
    refine List.nodup_append.mpr ⟨hcovers.nodup, (nodup_uniqueDdnsValues values).filter _, ?_⟩
    intro a ha b hb heq
    have hnot := (List.mem_filter.mp hb).2
    rw [← heq, List.contains_iff_mem.mpr ha] at hnot
    cases hnot
  apply (List.perm_ext_iff_of_nodup hnodup (nodup_uniqueDdnsValues values)).mpr
  intro v
  rw [List.mem_append, List.mem_filter]
  constructor
  · rintro (hcovered | ⟨hwanted, -⟩)
    · exact hcovers.wanted v hcovered
    · exact hwanted
  · intro hwanted
    by_cases hcovered : v ∈ covered
    · exact Or.inl hcovered
    · refine Or.inr ⟨hwanted, ?_⟩
      rw [Bool.not_eq_true']
      exact Bool.eq_false_iff.mpr fun hseen => hcovered (List.contains_iff_mem.mp hseen)

include hcovers in
theorem length_desired : covered.length + ((uniqueDdnsValues values).filter fun v => !covered.contains v).length =
    (uniqueDdnsValues values).length := by
  rw [← (desired_perm hcovers).length_eq, List.length_append]

include hcovers hstage

theorem Stage.present {r : DnsRecord} (hr : r ∈ client.ours js z') :
    r ∈ client.ours js z ∨ r.value ∈ uniqueDdnsValues values := by
  obtain ⟨new, hnew, hperm⟩ := hstage.ours
  rcases List.mem_append.mp (hperm.mem_iff.mp hr) with hfront | hspare
  · rcases List.mem_append.mp hfront with hkept | hin
    · exact Or.inl (hcovers.perm.mem_iff.mpr (List.mem_append_left _ hkept))
    · exact Or.inr (placed_missing hstage (hnew ▸ List.mem_map_of_mem hin)).1
  · exact Or.inl (hcovers.perm.mem_iff.mpr (List.mem_append_right _ (hstage.sub.subset hspare)))

theorem Stage.keeps {v : String} (hv : v ∈ uniqueDdnsValues values) (hbefore : ∃ r ∈ client.ours js z, jsTrim r.value = v) :
    ∃ r ∈ client.ours js z, r ∈ client.ours js z' ∧ jsTrim r.value = v := by
  obtain ⟨new, -, hperm⟩ := hstage.ours
  have hcovered : v ∈ covered := by
    by_contra hnot
    obtain ⟨r, hr, heq⟩ := hbefore
    exact missing_absent hcovers hv hnot r hr heq
  rw [← hcovers.values] at hcovered
  obtain ⟨r, hr, heq⟩ := List.mem_map.mp hcovered
  refine ⟨r, hcovers.perm.mem_iff.mpr (List.mem_append_left _ hr), ?_, heq⟩
  exact hperm.mem_iff.mpr (List.mem_append_left _ (List.mem_append_left _ hr))

include hvalues in
theorem Stage.count (v : String) : ((client.ours js z').map DnsRecord.value).count v ≤
    max 1 (((client.ours js z).map DnsRecord.value).count v) := by
  obtain ⟨new, hnew, hperm⟩ := hstage.ours
  have hnow := (hperm.map DnsRecord.value).count_eq v
  have hbefore := (hcovers.perm.map DnsRecord.value).count_eq v
  rw [List.map_append, List.map_append, List.count_append, List.count_append, hnew] at hnow
  rw [List.map_append, List.count_append] at hbefore
  have hspare := (hstage.sub.map DnsRecord.value).count_le v
  by_cases hv : v ∈ placed
  · obtain ⟨hwanted, hnot⟩ := placed_missing hstage hv
    have hnone : ((client.ours js z).map DnsRecord.value).count v = 0 := by
      apply List.count_eq_zero_of_not_mem
      intro hmem
      obtain ⟨r, hr, heq⟩ := List.mem_map.mp hmem
      have htrim : jsTrim v = v := (uniqueDdnsValues_trimmed hvalues v hwanted).2
      exact missing_absent hcovers hwanted hnot r hr (by rw [heq, htrim])
    have hnodup : placed.Nodup := by
      have hmissing := (nodup_uniqueDdnsValues values).filter fun v => !covered.contains v
      rw [hstage.split] at hmissing
      exact (List.nodup_append.mp hmissing).1
    have hone := List.nodup_iff_count_le_one.mp hnodup v
    omega
  · have hzero := List.count_eq_zero_of_not_mem hv
    omega

theorem Stage.length : min (client.ours js z).length (uniqueDdnsValues values).length ≤ (client.ours js z').length := by
  obtain ⟨new, hnew, hperm⟩ := hstage.ours
  have hnow := hperm.length_eq
  have hbefore := hcovers.perm.length_eq
  have hkept : kept.length = covered.length := by rw [← hcovers.values, List.length_map]
  have hplaced : new.length = placed.length := by rw [← hnew, List.length_map]
  have hdesired := length_desired hcovers
  rw [hstage.split, List.length_append] at hdesired
  rw [List.length_append, List.length_append] at hnow
  rw [List.length_append] at hbefore
  by_cases hrest : rest = []
  · rw [hrest, List.length_nil] at hdesired
    omega
  · have hmany := hstage.many hrest
    omega

include hvalues in
/-- A call that has nothing left to do leaves one record for each desired value. -/
theorem Stage.final (hrest : rest = []) (hspare : spare' = []) :
    ((client.ours js z').map fun r => jsTrim r.value).Perm (uniqueDdnsValues values) := by
  obtain ⟨new, hnew, hperm⟩ := hstage.ours
  subst hrest hspare
  have hmissing : (uniqueDdnsValues values).filter (fun v => !covered.contains v) = placed := by
    rw [hstage.split, List.append_nil]
  have htrimmed : new.map (fun r => jsTrim r.value) = placed := by
    rw [← hnew]
    apply List.map_congr_left
    intro r hr
    have hwanted := (placed_missing hstage (hnew ▸ List.mem_map_of_mem hr)).1
    exact (uniqueDdnsValues_trimmed hvalues _ hwanted).2
  calc ((client.ours js z').map fun r => jsTrim r.value).Perm ((kept ++ new ++ []).map fun r : DnsRecord => jsTrim r.value) := hperm.map _
    _ = covered ++ placed := by rw [List.append_nil, List.map_append, hcovers.values, htrimmed]
    List.Perm _ (uniqueDdnsValues values) := by
      rw [← hmissing]
      exact desired_perm hcovers

end

section
variable {client : Client} {z : Zone} {listing : List DnsRecord} {values : List String}

/-- A call that is carried out leaves one record for each desired value. -/
theorem requests_final (hsettled : client.Settled js) (hvalues : Trimmed values) (hlist : Lists js client z listing)
    (supply : IdSupply) :
    ((client.ours js (z.run supply client (client.requests js listing values))).map fun r => jsTrim r.value).Perm
      (uniqueDdnsValues values) := by
  obtain ⟨kept, spare, covered, placed, rest, spare', hcovers, hstage, hdone⟩ :=
    requests_take hsettled hvalues hlist supply (client.requests js listing values).length
  obtain ⟨hrest, hspare⟩ := hdone (Nat.le_refl _)
  rw [List.take_length] at hstage
  exact hstage.final hvalues hcovers hrest hspare

/-- For every provider and every list of desired values: a call that is carried out leaves one record for each desired
value, read without the white space around it, and a value that was there keeps one of its records. Wherever the call is
stopped, the other records are untouched, each record is an initial one or has a desired value, no value has more
records than it had or than one, there are as many records as there were or are desired, and another call with the same
list that is carried out ends with the same values. -/
theorem ddns_reconciliation_converges (hsettled : client.Settled js) (hvalues : ∀ v ∈ values, v ≠ "" ∧ jsTrim v = v)
    (hlist : Lists js client z listing) (supply : IdSupply) :
    let requests := client.requests js listing values
    ((client.ours js (z.run supply client requests)).map fun r => jsTrim r.value).Perm values.dedup ∧
    (∀ v ∈ values, (∃ r ∈ client.ours js z, jsTrim r.value = v) →
      ∃ r ∈ client.ours js z, r ∈ client.ours js (z.run supply client requests) ∧ jsTrim r.value = v) ∧
    ∀ k, client.others js (z.run supply client (requests.take k)) = client.others js z ∧
      (∀ r ∈ client.ours js (z.run supply client (requests.take k)), r ∈ client.ours js z ∨ r.value ∈ values) ∧
      (∀ v, ((client.ours js (z.run supply client (requests.take k))).map DnsRecord.value).count v ≤
        max 1 (((client.ours js z).map DnsRecord.value).count v)) ∧
      min (client.ours js z).length values.dedup.length ≤ (client.ours js (z.run supply client (requests.take k))).length ∧
      ∀ listing' supply', Lists js client (z.run supply client (requests.take k)) listing' →
        ((client.ours js ((z.run supply client (requests.take k)).run supply' client
          (client.requests js listing' values))).map fun r => jsTrim r.value).Perm values.dedup := by
  have hunique := uniqueDdnsValues_perm hvalues
  refine ⟨(requests_final hsettled hvalues hlist supply).trans hunique, ?_, ?_⟩
  · intro v hv hbefore
    obtain ⟨kept, spare, covered, placed, rest, spare', hcovers, hstage, -⟩ :=
      requests_take hsettled hvalues hlist supply (client.requests js listing values).length
    rw [List.take_length] at hstage
    exact hstage.keeps hcovers ((mem_uniqueDdnsValues hvalues v).mpr hv) hbefore
  · intro k
    obtain ⟨kept, spare, covered, placed, rest, spare', hcovers, hstage, -⟩ := requests_take hsettled hvalues hlist supply k
    have hlength := hstage.length hcovers
    rw [hunique.length_eq] at hlength
    refine ⟨hstage.others, ?_, hstage.count hvalues hcovers, hlength, ?_⟩
    · intro r hr
      rcases hstage.present hcovers hr with hold | hwanted
      · exact Or.inl hold
      · exact Or.inr ((mem_uniqueDdnsValues hvalues _).mp hwanted)
    · intro listing' supply' hlist'
      exact (requests_final hsettled hvalues hlist' supply').trans hunique

end

/-- A provider that names a record longer than all others. -/
def longerIds : IdSupply where
  next ids := String.ofList (List.replicate ((ids.map String.length).sum + 1) 'n')
  fresh ids hmem := by
    have hle := List.single_le_sum (fun n _ => Nat.zero_le n) _ (List.mem_map_of_mem (f := String.length) hmem)
    rw [String.length_ofList, List.length_replicate] at hle
    omega
  named ids hempty := by
    have hlength := congrArg String.length hempty
    rw [String.length_ofList, List.length_replicate] at hlength
    cases hlength

theorem toUpper_toUpper (c : Char) : c.toUpper.toUpper = c.toUpper := by
  have hupper : ¬ (c.toUpper.val ≥ 'a'.val ∧ c.toUpper.val ≤ 'z'.val) := by
    have ha : 'a'.val.toNat = 97 := by decide
    have hz : 'z'.val.toNat = 122 := by decide
    have hshift : ('A'.val - 'a'.val).toNat = 4294967264 := by decide
    unfold Char.toUpper
    split
    · rename_i hlower
      have hlow := UInt32.le_iff_toNat_le.mp hlower.1
      have hhigh := UInt32.le_iff_toNat_le.mp hlower.2
      rintro ⟨hagain, -⟩
      have hagain := UInt32.le_iff_toNat_le.mp hagain
      rw [UInt32.toNat_add] at hagain
      omega
    · rename_i hlower
      exact hlower
  generalize c.toUpper = d at hupper
  unfold Char.toUpper
  rw [dif_neg hupper]

/-- The runtime on texts of ASCII characters. -/
def asciiRuntime : Runtime where
  toLowerCase s := String.ofList (s.toList.map Char.toLower)
  toUpperCase s := String.ofList (s.toList.map Char.toUpper)
  domainToASCII s := s
  upper_upper s := by
    rw [String.toList_ofList, List.map_map]
    congr 1
    apply List.map_congr_left
    intro c _
    show c.toUpper.toUpper = c.toUpper
    exact toUpper_toUpper c

/-- Two records of one name. -/
def edgeZone (value value' : String) : Zone where
  records := [{ id := "1", name := "edge", type := "A", line := "default", value := value },
    { id := "2", name := "edge", type := "A", line := "default", value := value' }]
  nodup := by
    show ["1", "2"].Nodup
    decide
  named := by
    intro r hr
    rcases List.mem_cons.mp hr with rfl | hr
    · exact fun hempty => absurd hempty (by decide : "1" ≠ "")
    · rw [List.mem_singleton.mp hr]
      exact fun hempty => absurd hempty (by decide : "2" ≠ "")

def edgeClient : Client := .aliyun "edge" "A" "default" 600

/-- Of two records the one with the desired value is kept. -/
theorem offline_member_removed :
    let z := edgeZone "198.51.100.10" "198.51.100.20"
    let final := z.run longerIds edgeClient (edgeClient.requests asciiRuntime z.records ["198.51.100.20"])
    final.ids = ["2"] ∧ ((edgeClient.ours asciiRuntime final).map fun r => jsTrim r.value).Perm ["198.51.100.20"].dedup := by
  have hsettled : edgeClient.Settled asciiRuntime := by
    show asciiRuntime.toUpperCase "A" = "A"
    decide +kernel
  have hvalues : ∀ v ∈ ["198.51.100.20"], v ≠ "" ∧ jsTrim v = v := by decide +kernel
  exact ⟨by decide +kernel, (ddns_reconciliation_converges hsettled hvalues (List.Perm.refl _) longerIds).1⟩

/-- A record whose value has white space around it counts for the value and stays as it is. -/
theorem padded_value_stays :
    let z := edgeZone "198.51.100.20 " "198.51.100.10"
    let final := z.run longerIds edgeClient (edgeClient.requests asciiRuntime z.records ["198.51.100.20"])
    (∀ v ∈ ["198.51.100.20"], v ≠ "" ∧ jsTrim v = v) ∧ Lists asciiRuntime edgeClient z z.records ∧
      ¬ ((edgeClient.ours asciiRuntime final).map DnsRecord.value).Perm ["198.51.100.20"] := by
  refine ⟨by decide +kernel, List.Perm.refl _, ?_⟩
  intro hperm
  have hmem := hperm.mem_iff.mpr (List.mem_singleton_self _)
  revert hmem
  decide +kernel

end ForwardX.Panel.Dns
