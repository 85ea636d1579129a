import Mathlib.Data.List.Basic
import ForwardX.Panel.DdnsRecords

/- The values of a name at a DNS provider (`server/ddns.ts`, `updateCloudflareValues`, `updateAliyunValues`,
   `updateTencentCloudValues`). A call lists the records of the name, type and line, plans which of them to keep, which
   to rewrite, what to create and what to delete, and sends one request after the other until one fails. A provider
   is a set of records with ids of their own; a failed request leaves it as it is. -/
namespace ForwardX.Panel.Dns
open Ddns (jsTrim)

/-! ## Provider -/

/-- A record. Its line is a name, an id, or both; Cloudflare has no lines, and only Cloudflare has the last two fields. -/
structure DnsRecord where
  id : String
  name : String := ""
  type : String := ""
  line : String := ""
  lineId : String := ""
  value : String := ""
  ttl : Int := 0
  proxied : Bool := false
  comment : String := ""
  deriving DecidableEq, Repr

structure Zone where
  records : List DnsRecord
  nodup : (records.map DnsRecord.id).Nodup
  named : ∀ r ∈ records, r.id ≠ ""

/-- How a provider names a new record. -/
structure IdSupply where
  next : List String → String
  fresh : ∀ ids, next ids ∉ ids
  named : ∀ ids, next ids ≠ ""

/-- What the code takes from the JavaScript runtime and from Node's `url` module. -/
structure Runtime where
  toLowerCase : String → String
  toUpperCase : String → String
  domainToASCII : String → String
  upper_upper : ∀ s, toUpperCase (toUpperCase s) = toUpperCase s

/-! ## Names -/

/-- `a || b`. -/
def orElse (a b : String) : String := if a = "" then b else a

variable (js : Runtime)

/-- `value.trim().replace(/\.+$/, "").toLowerCase()`. -/
def normalizeDomain (value : String) : String :=
  js.toLowerCase (String.ofList ((jsTrim value).toList.reverse.dropWhile fun c => c = '.').reverse)

def normalizeDnsName (value : String) : String :=
  let normalized := normalizeDomain js value
  orElse (js.domainToASCII normalized) normalized

/-- The root domain and the name under it. -/
def splitDnsName (fullDomain rootDomain providerLabel : String) : Except String (String × String) :=
  let full := normalizeDomain js fullDomain
  let root := normalizeDomain js rootDomain
  let suffix := "." ++ root
  if root = "" then .error (providerLabel ++ " DDNS 主域名未配置")
  else if full = root then .ok (root, "@")
  else if !suffix.toList.isSuffixOf full.toList then
    .error (providerLabel ++ " DDNS 域名 " ++ fullDomain ++ " 不在主域名 " ++ rootDomain ++ " 下")
  else .ok (root, String.ofList (full.toList.take (full.length - suffix.length)))

/-- `parseTtl` of whole numbers. -/
def parseTtl (value : Option Int) (fallback : Int) : Int :=
  let ttl := if value.getD 0 = 0 then fallback else value.getD 0
  min 86400 (max 60 ttl)

/-! ## Plans -/

section
variable {T : Type}

/-- One round of the loop of `uniqueDdnsValues`. -/
def uniqueStep (out : List String) (value : String) : List String :=
  let text := jsTrim value
  if text = "" ∨ out.contains text then out else out ++ [text]

def uniqueDdnsValues (values : List String) : List String := values.foldl uniqueStep []

structure Plan (T : Type) where
  updates : List (T × String)
  creates : List String
  removals : List T

/-- The loop that pairs the reusable records with the missing values. -/
def pairUp : List String → List T → Plan T
  | value :: missing, record :: reusable =>
    let plan := pairUp missing reusable
    { plan with updates := (record, value) :: plan.updates }
  | missing, reusable => ⟨[], missing, reusable⟩

/-- One round of the loop over the records: the values that are covered and the records that may be reused. -/
def coverStep (desired : List String) (valueOf : T → String) (acc : List String × List T) (record : T) :
    List String × List T :=
  let value := jsTrim (valueOf record)
  if desired.contains value && !acc.1.contains value then (acc.1 ++ [value], acc.2) else (acc.1, acc.2 ++ [record])

def planDdnsValueChanges (records : List T) (desiredValues : List String) (valueOf : T → String) : Plan T :=
  let desired := uniqueDdnsValues desiredValues
  let covered := records.foldl (coverStep desired valueOf) ([], [])
  pairUp (desired.filter fun value => !covered.1.contains value) covered.2

end

/-! ## Clients -/

/-- Which records a call is about, in the words of the provider. -/
inductive Client
  | cloudflare (recordName recordType : String) (ttl : Int)
  | aliyun (rr recordType line : String) (ttl : Int)
  | tencentcloud (subDomain recordType recordLine recordLineId : String) (ttl : Int)
  deriving Repr

structure DdnsRecordValuesInput where
  domain : String
  recordType : String
  ttl : Option Int := none
  lineId : String := ""
  lineName : String := ""

structure DdnsSettings where
  aliyunAccessKeyId : String
  aliyunAccessKeySecret : String
  aliyunDomainName : String
  aliyunLine : String
  aliyunTtl : Int
  tencentcloudSecretId : String
  tencentcloudSecretKey : String
  tencentcloudDomainName : String
  tencentcloudRecordLine : String
  tencentcloudRecordLineId : String
  tencentcloudTtl : Int

def cloudflareClient (input : DdnsRecordValuesInput) : Client :=
  .cloudflare (normalizeDnsName js input.domain) (js.toUpperCase input.recordType) (parseTtl input.ttl 60)

def aliyunClient (settings : DdnsSettings) (input : DdnsRecordValuesInput) : Except String Client :=
  if settings.aliyunAccessKeyId = "" ∨ settings.aliyunAccessKeySecret = "" ∨ settings.aliyunDomainName = "" then
    .error "阿里云 DDNS 配置不完整"
  else (splitDnsName js input.domain settings.aliyunDomainName "阿里云").map fun split =>
    .aliyun split.2 (js.toUpperCase (orElse input.recordType "A"))
      (jsTrim (orElse input.lineId (orElse settings.aliyunLine "default"))) (parseTtl input.ttl settings.aliyunTtl)

def tencentCloudClient (settings : DdnsSettings) (input : DdnsRecordValuesInput) : Except String Client :=
  if settings.tencentcloudSecretId = "" ∨ settings.tencentcloudSecretKey = "" ∨ settings.tencentcloudDomainName = "" then
    .error "腾讯云 DNSPod DDNS 配置不完整"
  else (splitDnsName js input.domain settings.tencentcloudDomainName "腾讯云 DNSPod").map fun split =>
    .tencentcloud split.2 (js.toUpperCase (orElse input.recordType "A"))
      (jsTrim (orElse input.lineName (orElse settings.tencentcloudRecordLine "默认")))
      (jsTrim (orElse input.lineId settings.tencentcloudRecordLineId)) (parseTtl input.ttl settings.tencentcloudTtl)

/-- The filter on the listing. -/
def Client.accepts : Client → DnsRecord → Bool
  | .cloudflare recordName recordType _, r => normalizeDnsName js r.name = recordName && js.toUpperCase r.type = recordType
  | .aliyun rr recordType line _, r => r.name = rr && js.toUpperCase r.type = recordType && (line = "" || r.line = line)
  | .tencentcloud subDomain recordType recordLine recordLineId _, r =>
    r.name = subDomain && js.toUpperCase r.type = recordType &&
      (if recordLineId = "" then r.line = recordLine else r.lineId = recordLineId)

/-- A record once the payload with a value is written to it. Cloudflare's takes the proxy state and the comment, if there
is one, from a template. -/
def Client.write (value : String) (template : Option DnsRecord) (r : DnsRecord) : Client → DnsRecord
  | .cloudflare recordName recordType ttl =>
    let comment := (template.map DnsRecord.comment).getD ""
    { r with
      name := recordName, type := recordType, value := value, ttl := ttl,
      proxied := (template.map DnsRecord.proxied).getD false, comment := orElse comment r.comment }
  | .aliyun rr recordType line ttl => { r with name := rr, type := recordType, line := line, value := value, ttl := ttl }
  | .tencentcloud subDomain recordType recordLine recordLineId ttl =>
    { r with
      name := subDomain, type := recordType, line := recordLine, lineId := orElse recordLineId r.lineId, value := value,
      ttl := ttl }

inductive Request
  | update (record : DnsRecord) (value : String)
  | create (template : Option DnsRecord) (value : String)
  | delete (record : DnsRecord)

/-- The values for which a client plans: Cloudflare's are made unique twice. -/
def Client.desired (values : List String) : Client → List String
  | .cloudflare .. => uniqueDdnsValues values
  | .aliyun .. => values
  | .tencentcloud .. => values

/-- The requests of `updateCloudflareValues`, `updateAliyunValues` and `updateTencentCloudValues` after the listing. -/
def Client.requests (client : Client) (listing : List DnsRecord) (values : List String) : List Request :=
  let candidates := listing.filter (client.accepts js)
  let managedRecords := candidates.filter fun r => r.id ≠ ""
  let template := managedRecords.head?.or candidates.head?
  let plan := planDdnsValueChanges managedRecords (client.desired values) DnsRecord.value
  plan.updates.map (fun change => .update change.1 change.2) ++ plan.creates.map (.create template) ++
    plan.removals.map .delete

/-! ## Requests -/

def Zone.ids (z : Zone) : List String := z.records.map DnsRecord.id

theorem Client.write_id (client : Client) (value : String) (template : Option DnsRecord) (r : DnsRecord) :
    (client.write value template r).id = r.id := by
  cases client with
  | cloudflare => rfl
  | aliyun => rfl
  | tencentcloud => rfl

def rewriteRecord (client : Client) (record : DnsRecord) (value : String) (r : DnsRecord) : DnsRecord :=
  if r.id = record.id then client.write value (some record) r else r

theorem rewriteRecord_id (client : Client) (record : DnsRecord) (value : String) (r : DnsRecord) :
    (rewriteRecord client record value r).id = r.id := by
  unfold rewriteRecord
  split
  · exact client.write_id value (some record) r
  · rfl

theorem map_rewriteRecord_id (client : Client) (record : DnsRecord) (value : String) (records : List DnsRecord) :
    (records.map (rewriteRecord client record value)).map DnsRecord.id = records.map DnsRecord.id := by
  rw [List.map_map]
  apply List.map_congr_left
  intro r _
  exact rewriteRecord_id client record value r

def createRecord (supply : IdSupply) (client : Client) (z : Zone) (template : Option DnsRecord) (value : String) : DnsRecord :=
  client.write value template { id := supply.next z.ids }

theorem createRecord_id (supply : IdSupply) (client : Client) (z : Zone) (template : Option DnsRecord) (value : String) :
    (createRecord supply client z template value).id = supply.next z.ids :=
  client.write_id value template _

/-- The provider after a request that it carries out. -/
def Zone.apply (supply : IdSupply) (client : Client) (z : Zone) : Request → Zone
  | .update record value => {
      records := z.records.map (rewriteRecord client record value)
      nodup := by
        rw [map_rewriteRecord_id]
        exact z.nodup
      named := by
        intro r hr
        obtain ⟨r₀, hr₀, rfl⟩ := List.mem_map.mp hr
        rw [rewriteRecord_id]
        exact z.named r₀ hr₀ }
  | .create template value => {
      records := z.records ++ [createRecord supply client z template value]
      nodup := by
        rw [List.map_append, List.map_singleton, createRecord_id]
        exact List.nodup_append.mpr ⟨z.nodup, List.nodup_singleton _, fun a ha b hb heq =>
          supply.fresh z.ids (List.mem_singleton.mp hb ▸ heq ▸ ha)⟩
      named := by
        intro r hr
        rcases List.mem_append.mp hr with hold | hnew
        · exact z.named r hold
        · rw [List.mem_singleton.mp hnew, createRecord_id]
          exact supply.named z.ids }
  | .delete record => {
      records := z.records.filter fun r => r.id ≠ record.id
      nodup := z.nodup.sublist (List.filter_sublist.map _)
      named := fun r hr => z.named r (List.mem_filter.mp hr).1 }

/-- The provider after some requests. A call that fails at a request has carried out those before it. -/
def Zone.run (supply : IdSupply) (client : Client) (z : Zone) (requests : List Request) : Zone :=
  requests.foldl (Zone.apply supply client) z

end ForwardX.Panel.Dns
