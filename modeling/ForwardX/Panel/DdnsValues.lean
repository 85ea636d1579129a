import ForwardX.Panel.DdnsRecords

/- The texts a stored DNS value is made of. What a host contributes (`memberDdnsValue`) is
   made of canonical addresses; such addresses joined by commas are read back as they were
   (`split_joined`), and the record sets of a stored value hold no others
   (`recordSet_subset`). -/
namespace ForwardX.Panel.Ddns

/-- What the code relies on in the serialisation of an IPv6 host: it is made of hexadecimal
digits, dots and colons, one at least, and it is its own serialisation. -/
structure Runtime.Serialises (js : Runtime) : Prop where
  colon : ∀ {ip host}, js.ipv6Hostname ip = some host → ':' ∈ host.toList
  digits : ∀ {ip host}, js.ipv6Hostname ip = some host →
    ∀ c ∈ host.toList, c ∈ "0123456789abcdef:.".toList
  canonical : ∀ {ip host}, js.ipv6Hostname ip = some host → js.ipv6Hostname host = some host

/-- A canonical address as it stands in a stored value. -/
structure Canonical (js : Runtime) (address : String) : Prop where
  nonempty : address ≠ ""
  noComma : ',' ∉ address.toList
  noSpace : ∀ c ∈ address.toList, jsIsSpace c = false
  own : ∀ family, normalizeHostIp js address family = address ∨ normalizeHostIp js address family = ""

/-- The address fields of a host. -/
structure EntryHost where
  entryIp : String
  ipv4 : String
  ipv6 : String
  ip : String
  ddnsEnabled : Bool
  ddnsDomain : String
  deriving DecidableEq, Repr

def EntryHost.family (host : EntryHost) : HostIpFamily → String
  | .ipv4 => host.ipv4
  | .ipv6 => host.ipv6

/-- `unbracket`: a trimmed text without the brackets around it. -/
def unbracket (value : String) : String :=
  match (jsTrim value).toList with
  | '[' :: rest =>
    if rest.getLast? = some ']' ∧ 2 ≤ rest.length ∧ ']' ∉ rest.dropLast then String.ofList rest.dropLast
    else jsTrim value
  | _ => jsTrim value

def firstNonempty (values : List String) : String := (values.find? (· ≠ "")).getD ""

def forwardGroupDdnsHostValue (js : Runtime) (host : EntryHost) (recordType : ForwardGroupRecordType) : String :=
  let manual := unbracket host.entryIp
  if recordType = .CNAME then
    if manual ≠ "" ∧ normalizeHostIp js manual .ipv4 = "" ∧ normalizeHostIp js manual .ipv6 = "" then manual
    else if host.ddnsEnabled then jsTrim host.ddnsDomain else ""
  else
    joinValues (((recordFamilies recordType).map fun record =>
      firstNonempty [normalizeHostIp js manual record.2,
        normalizeHostIp js (unbracket (host.family record.2)) record.2,
        normalizeHostIp js (unbracket host.ip) record.2]).filter (· ≠ ""))

section
variable {js : Runtime}

/-! ## Trimming -/

theorem dropWhile_noSpace {cs : List Char} (h : ∀ c ∈ cs, jsIsSpace c = false) :
    cs.dropWhile jsIsSpace = cs := by
  cases cs with
  | nil => rfl
  | cons c cs => simp [h c (by simp)]

theorem jsTrim_noSpace {s : String} (h : ∀ c ∈ s.toList, jsIsSpace c = false) : jsTrim s = s := by
  unfold jsTrim
  rw [dropWhile_noSpace h, dropWhile_noSpace fun c hc => h c (List.mem_reverse.mp hc), List.reverse_reverse]
  exact String.ofList_toList

/-! ## Canonical addresses -/

theorem digitsValue_toDigits (n : Nat) : digitsValue (Nat.toDigits 10 n) = n := by
  have hvalue := @Nat.ofDigitChars_ten_toDigits n
  unfold Nat.ofDigitChars at hvalue
  unfold digitsValue
  simp only [Nat.mul_comm 10] at hvalue
  exact hvalue

theorem digit_clean {c : Char} (h : c.isDigit = true) : c ≠ '.' ∧ c ≠ ',' ∧ c ≠ ':' ∧ jsIsSpace c = false := by
  have hlist : ['\t', '\n', '\x0b', '\x0c', '\r', ' ', '\u00a0', '\u1680', '\u2028', '\u2029', '\u202f',
      '\u205f', '\u3000', '\ufeff'].all (fun s => !s.isDigit) = true := by decide +kernel
  have hle : ¬ '\u2000' ≤ c := by
    intro hle
    simp only [Char.isDigit, Bool.and_eq_true, decide_eq_true_eq] at h
    have h₁ := UInt32.le_iff_toNat_le.mp h.2
    have h₂ := UInt32.le_iff_toNat_le.mp (Char.le_def.mp hle)
    exact absurd (Nat.le_trans h₂ h₁) (by decide)
  refine ⟨?_, ?_, ?_, ?_⟩
  · rintro rfl
    exact absurd h (by decide)
  · rintro rfl
    exact absurd h (by decide)
  · rintro rfl
    exact absurd h (by decide)
  · unfold jsIsSpace
    rw [Bool.or_eq_false_iff]
    constructor
    · apply decide_eq_false
      intro hmem
      have hdigit := List.all_eq_true.mp hlist c hmem
      rw [h] at hdigit
      cases hdigit
    · simp [hle]

theorem octet_text (n : Nat) (hn : n < 256) : digitsValue (toString n).toList = n ∧
    1 ≤ (toString n).toList.length ∧ (toString n).toList.length ≤ 3 ∧ ∀ c ∈ (toString n).toList, c.isDigit = true ∧ c ≠ '.' ∧ c ≠ ',' ∧
      c ≠ ':' ∧ jsIsSpace c = false := by
  have htext : (toString n).toList = Nat.toDigits 10 n := Nat.toList_repr
  rw [htext]
  refine ⟨digitsValue_toDigits n, Nat.length_toDigits_pos, ?_, fun c hc => ?_⟩
  · exact (Nat.length_toDigits_le_iff (by decide) (by decide)).mpr (by omega)
  · have hdigit := Nat.isDigit_of_mem_toDigits (by decide) (by decide) hc
    exact ⟨hdigit, digit_clean hdigit⟩
theorem mem_intercalate {sep c : Char} : ∀ {parts : List (List Char)}, c ∈ [sep].intercalate parts →
    c = sep ∨ ∃ part ∈ parts, c ∈ part
  | [], h => by simp at h
  | [part], h => Or.inr ⟨part, by simp, by simpa using h⟩
  | part :: next :: parts, h => by
    rw [List.intercalate_cons_cons, List.mem_append, List.mem_append] at h
    obtain (h | h) | h := h
    · exact Or.inr ⟨part, by simp, h⟩
    · exact Or.inl (List.mem_singleton.mp h)
    · obtain hsep | ⟨found, hfound, hmem⟩ := mem_intercalate h
      · exact Or.inl hsep
      · exact Or.inr ⟨found, List.mem_cons_of_mem _ hfound, hmem⟩

theorem dotted_toList (numbers : List Nat) : (".".intercalate (numbers.map toString)).toList =
    ['.'].intercalate (numbers.map fun n => (toString n).toList) := by
  rw [String.toList_intercalate, List.map_map]
  rfl

theorem dotted_canonical {numbers : List Nat} (hlength : numbers.length = 4) (hbound : ∀ n ∈ numbers, n < 256) :
    Canonical js (".".intercalate (numbers.map toString)) := by
  have hchar : ∀ c ∈ (".".intercalate (numbers.map toString)).toList,
      c ≠ ',' ∧ c ≠ ':' ∧ jsIsSpace c = false := by
    intro c hc
    rw [dotted_toList] at hc
    obtain rfl | ⟨part, hpart, hmem⟩ := mem_intercalate hc
    · decide
    · obtain ⟨n, hn, rfl⟩ := List.mem_map.mp hpart
      obtain ⟨_, _, hcomma, hcolon, hspace⟩ := (octet_text n (hbound n hn)).2.2.2 c hmem
      exact ⟨hcomma, hcolon, hspace⟩
  have htrim := jsTrim_noSpace fun c hc => (hchar c hc).2.2
  have hparts : (".".intercalate (numbers.map toString)).toList.splitOn '.' =
      numbers.map fun n => (toString n).toList := by
    rw [dotted_toList]
    apply List.splitOn_intercalate
    · intro part hpart hdot
      obtain ⟨n, hn, rfl⟩ := List.mem_map.mp hpart
      exact ((octet_text n (hbound n hn)).2.2.2 _ hdot).2.1 rfl
    · intro hnil
      rw [List.map_eq_nil_iff] at hnil
      simp [hnil] at hlength
  have hvalues : (numbers.map fun n => (toString n).toList).map digitsValue = numbers := by
    rw [List.map_map]
    calc numbers.map (digitsValue ∘ fun n => (toString n).toList)
        = numbers.map id := List.map_congr_left fun n hn => (octet_text n (hbound n hn)).1
      _ = numbers := List.map_id numbers
  refine ⟨?_, fun hcomma => (hchar _ hcomma).1 rfl, fun c hc => (hchar c hc).2.2, ?_⟩
  · intro hempty
    have hnil := congrArg (fun s : String => (s.toList.splitOn '.').length) hempty
    simp only [hparts, List.length_map, hlength] at hnil
    exact absurd hnil (by decide)
  · intro family
    cases family with
    | ipv4 =>
      refine Or.inl ?_
      have hdigits : (numbers.map fun n => (toString n).toList).all
          (fun p => 1 ≤ p.length && p.length ≤ 3 && p.all Char.isDigit) = true := by
        rw [List.all_map, List.all_eq_true]
        intro n hn
        have htext := octet_text n (hbound n hn)
        simp only [Function.comp, Bool.and_eq_true, decide_eq_true_eq, List.all_eq_true]
        exact ⟨⟨htext.2.1, htext.2.2.1⟩, fun c hc => (htext.2.2.2 c hc).1⟩
      have hsmall : numbers.all (· ≤ 255) = true := by
        rw [List.all_eq_true]
        intro n hn
        have := hbound n hn
        simp only [decide_eq_true_eq]
        omega
      unfold normalizeHostIp
      simp only [htrim, hparts, hvalues]
      rw [if_pos ⟨by rw [List.length_map, hlength], hdigits⟩, if_pos hsmall]
    | ipv6 =>
      refine Or.inr ?_
      unfold normalizeHostIp
      have hcolon : (".".intercalate (numbers.map toString)).toList.contains ':' = false := by
        rw [Bool.eq_false_iff]
        intro hmem
        exact (hchar ':' (List.contains_iff_mem.mp hmem)).2.1 rfl
      simp only [htrim, hcolon]
      simp

theorem hostname_canonical (hjs : js.Serialises) {ip host : String} (h : js.ipv6Hostname ip = some host) :
    Canonical js host := by
  have hchar : ∀ c ∈ host.toList, jsIsSpace c = false ∧ c ≠ ',' ∧ ¬ "%[]/?#@".toList.contains c = true := by
    have hall : "0123456789abcdef:.".toList.all
        (fun c => !jsIsSpace c && c != ',' && !"%[]/?#@".toList.contains c) = true := by decide +kernel
    intro c hc
    simpa [and_assoc] using List.all_eq_true.mp hall c (hjs.digits h c hc)
  have hcolon := hjs.colon h
  have htrim := jsTrim_noSpace fun c hc => (hchar c hc).1
  refine ⟨?_, fun hcomma => (hchar _ hcomma).2.1 rfl, fun c hc => (hchar c hc).1, ?_⟩
  · rintro rfl
    simp at hcolon
  · intro family
    cases family with
    | ipv4 =>
      -- the part with the colon is not made of digits
      refine Or.inr ?_
      unfold normalizeHostIp
      simp only [htrim]
      rw [if_neg]
      rintro ⟨-, hdigits⟩
      have hparts : ['.'].intercalate (host.toList.splitOn '.') = host.toList := List.intercalate_splitOn '.'
      rw [← hparts] at hcolon
      obtain hdot | ⟨part, hpart, hmem⟩ := mem_intercalate hcolon
      · exact absurd hdot (by decide)
      · have hpartDigits := List.all_eq_true.mp hdigits part hpart
        simp only [Bool.and_eq_true, List.all_eq_true] at hpartDigits
        exact absurd (hpartDigits.2 ':' hmem) (by decide)
    | ipv6 =>
      refine Or.inl ?_
      unfold normalizeHostIp
      simp only [htrim, hjs.canonical h]
      rw [if_neg]
      · rfl
      · rintro (hmissing | hbad)
        · exact hmissing (List.contains_iff_mem.mpr hcolon)
        · obtain ⟨c, hc, hbad⟩ := List.any_eq_true.mp hbad
          simp only [Bool.or_eq_true, (hchar c hc).1] at hbad
          exact (hchar c hc).2.2 (hbad.resolve_right (by decide))

theorem normalizeHostIp_canonical (hjs : js.Serialises) (value : String) (family : HostIpFamily)
    (h : normalizeHostIp js value family ≠ "") : Canonical js (normalizeHostIp js value family) := by
  cases family with
  | ipv4 =>
    unfold normalizeHostIp at h ⊢
    dsimp only at h ⊢
    split at h
    next hparts =>
      rw [if_pos hparts]
      split at h
      next hsmall =>
        rw [if_pos hsmall]
        refine dotted_canonical (by rw [List.length_map, hparts.1]) fun n hn => ?_
        have := of_decide_eq_true (List.all_eq_true.mp hsmall n hn)
        omega
      · exact absurd rfl h
    · exact absurd rfl h
  | ipv6 =>
    unfold normalizeHostIp at h ⊢
    dsimp only at h ⊢
    split at h
    · exact absurd rfl h
    next haccepted =>
      rw [if_neg haccepted]
      cases hhost : js.ipv6Hostname (jsTrim value) with
      | none => exact absurd (by rw [hhost]; rfl) h
      | some host => exact hostname_canonical hjs hhost

/-! ## Stored values -/

def storedValues (value : String) : List String := ((splitCommas value).map jsTrim).filter (· ≠ "")

theorem joined_toList (values : List String) :
    (joinValues values).toList = [','].intercalate (values.map String.toList) :=
  String.toList_intercalate

variable {values : List String}

theorem joined_noSpace (h : ∀ v ∈ values, Canonical js v) : ∀ c ∈ (joinValues values).toList, jsIsSpace c = false := by
  intro c hc
  rw [joined_toList] at hc
  obtain rfl | ⟨part, hpart, hmem⟩ := mem_intercalate hc
  · decide
  · obtain ⟨v, hv, rfl⟩ := List.mem_map.mp hpart
    exact (h v hv).noSpace c hmem

theorem jsTrim_joined (h : ∀ v ∈ values, Canonical js v) : jsTrim (joinValues values) = joinValues values :=
  jsTrim_noSpace (joined_noSpace h)

/-- Canonical addresses are read back from the value they are joined to. -/
theorem storedValues_joined (h : ∀ v ∈ values, Canonical js v) : storedValues (joinValues values) = values := by
  unfold storedValues
  by_cases hnil : values = []
  · subst hnil
    rfl
  · have hsplit : splitCommas (joinValues values) = values := by
      unfold splitCommas
      rw [joined_toList, List.splitOn_intercalate, List.map_map]
      · calc values.map (String.ofList ∘ String.toList) = values.map id :=
              List.map_congr_left fun v _ => String.ofList_toList
          _ = values := List.map_id values
      · intro part hpart hcomma
        obtain ⟨v, hv, rfl⟩ := List.mem_map.mp hpart
        exact (h v hv).noComma hcomma
      · simpa using hnil
    have htrim : values.map jsTrim = values := by
      calc values.map jsTrim = values.map id :=
            List.map_congr_left fun v hv => jsTrim_noSpace (h v hv).noSpace
        _ = values := List.map_id values
    rw [hsplit, htrim, List.filter_eq_self]
    exact fun v hv => decide_eq_true (h v hv).nonempty

theorem split_joined (h : ∀ v ∈ values, Canonical js v) :
    splitForwardGroupDdnsValues (joinValues values) = values.eraseDups := by
  calc splitForwardGroupDdnsValues (joinValues values) = (storedValues (joinValues values)).eraseDups := rfl
    _ = values.eraseDups := by rw [storedValues_joined h]

theorem recordSet_subset {recordType : ForwardGroupRecordType} (hcname : recordType ≠ .CNAME)
    (h : ∀ v ∈ values, Canonical js v) {set : RecordSet}
    (hset : set ∈ forwardGroupDdnsRecordSets js recordType values) :
    ∀ a ∈ set.values, a ∈ values := by
  unfold forwardGroupDdnsRecordSets at hset
  simp only [hcname, if_false, split_joined h] at hset
  obtain ⟨record, _, rfl⟩ := List.mem_map.mp hset
  intro a ha
  obtain ⟨hmem, hempty⟩ := List.mem_filter.mp (List.mem_eraseDups.mp ha)
  obtain ⟨v, hv, rfl⟩ := List.mem_map.mp hmem
  have hvalue := List.mem_eraseDups.mp hv
  obtain hown | hnone := (h v hvalue).own record.2
  · rw [hown]
    exact hvalue
  · simp [hnone] at hempty

theorem firstNonempty_canonical (h : ∀ v ∈ values, v ≠ "" → Canonical js v) (hfound : firstNonempty values ≠ "") :
    Canonical js (firstNonempty values) := by
  unfold firstNonempty at hfound ⊢
  cases hfind : values.find? (· ≠ "") with
  | none =>
    rw [hfind] at hfound
    exact absurd rfl hfound
  | some v => exact h v (List.mem_of_find?_eq_some hfind) (by simpa using List.find?_some hfind)

theorem hostValue_canonical (hjs : js.Serialises) {recordType : ForwardGroupRecordType}
    (hcname : recordType ≠ .CNAME) (host : EntryHost) : ∃ values, (∀ v ∈ values, Canonical js v) ∧
      forwardGroupDdnsHostValue js host recordType = joinValues values := by
  unfold forwardGroupDdnsHostValue
  simp only [hcname, if_false]
  refine ⟨_, fun v hv => ?_, rfl⟩
  obtain ⟨hmem, hempty⟩ := List.mem_filter.mp hv
  obtain ⟨record, _, rfl⟩ := List.mem_map.mp hmem
  refine firstNonempty_canonical (fun u hu hne => ?_) (of_decide_eq_true hempty)
  simp only [List.mem_cons, List.not_mem_nil, or_false] at hu
  obtain rfl | rfl | rfl := hu <;> exact normalizeHostIp_canonical hjs _ _ hne

end

end ForwardX.Panel.Ddns
