import ForwardX.Lib.AsciiText

/- IP addresses and their texts, as the standard library of Go has them: `parseIP` reads
   dotted decimal and colon-separated hexadecimal groups with one `::` and an optional
   IPv4 tail, into 16 bytes; `ipString` prints an IPv4 address dotted and an IPv6 address
   with its first longest run of zero groups as `::`. A text is canonical when it is
   what its address prints as. -/
namespace NetAddress
open Wire AsciiText

/-! ## Addresses -/

def v4InV6Prefix : Bytes := [0, 0, 0, 0, 0, 0, 0, 0, 0, 0, 0xff, 0xff]

def to4 (ip : Bytes) : Option Bytes :=
  if ip.length = 4 then some ip
  else if ip.length = 16 ∧ ip.take 12 = v4InV6Prefix then some (ip.drop 12)
  else none

def to16 (ip : Bytes) : Option Bytes :=
  if ip.length = 4 then some (v4InV6Prefix ++ ip)
  else if ip.length = 16 then some ip
  else none

/-! ## Reading -/

/-- One octet of a dotted address: no sign, no leading zero. -/
def parseOctet (s : Bytes) : Option UInt8 :=
  if s.length > 1 ∧ s.head? = some 0x30 then none
  else
    match readDecimal s with
    | none => none
    | some n => if n > 255 then none else some (UInt8.ofNat n)

/-- A dotted address, as its four bytes. -/
def parseIPv4 (s : Bytes) : Option Bytes :=
  match s.splitOn 0x2e with
  | [a, b, c, d] =>
    match parseOctet a, parseOctet b, parseOctet c, parseOctet d with
    | some a, some b, some c, some d => some [a, b, c, d]
    | _, _, _, _ => none
  | _ => none

def hexValue (b : UInt8) : Option Nat :=
  if 0x30 ≤ b ∧ b ≤ 0x39 then some (b.toNat - 0x30)
  else if 0x61 ≤ b ∧ b ≤ 0x66 then some (b.toNat - 0x61 + 10)
  else if 0x41 ≤ b ∧ b ≤ 0x46 then some (b.toNat - 0x41 + 10)
  else none

/-- The groups of an address from `s` on: the bytes so far, and where the `::` was. Each
round reads a group, so that there are eight at most. -/
def parseGroups : Nat → Bytes → Bytes → Option Nat → Option (Bytes × Option Nat)
  | 0, s, ip, ellipsis => if s = [] then some (ip, ellipsis) else none
  | fuel + 1, s, ip, ellipsis =>
    let digits := s.takeWhile fun b => (hexValue b).isSome
    let rest := s.drop digits.length
    if digits.length = 0 ∨ digits.length > 4 then none
    else if rest.head? = some 0x2e then
      if ellipsis.isNone ∧ ip.length ≠ 12 then none
      else if ip.length + 4 > 16 then none
      else (parseIPv4 s).map fun tail => (ip ++ tail, ellipsis)
    else
      let group := digits.foldl (fun n b => n * 16 + (hexValue b).getD 0) 0
      let ip := ip ++ putBE 2 group
      match rest with
      | [] => some (ip, ellipsis)
      | colon :: rest =>
        if colon ≠ 0x3a then none
        else
          match rest with
          | [] => none
          | next :: rest' =>
            if next = 0x3a then
              if ellipsis.isSome then none
              else if rest' = [] then some (ip, some ip.length)
              else parseGroups fuel rest' ip (some ip.length)
            else parseGroups fuel (next :: rest') ip ellipsis

/-- The 16 bytes, with zeros for the `::`. -/
def expandEllipsis (ip : Bytes) (ellipsis : Option Nat) : Option Bytes :=
  match ellipsis with
  | none => if ip.length < 16 then none else some ip
  | some k =>
    if ip.length < 16 then some (ip.take k ++ List.replicate (16 - ip.length) 0 ++ ip.drop k) else none

def parseIPv6 (s : Bytes) : Option Bytes :=
  if [0x3a, 0x3a].isPrefixOf s then
    if s.length = 2 then some (List.replicate 16 0)
    else (parseGroups 8 (s.drop 2) [] (some 0)).bind fun r => expandEllipsis r.1 r.2
  else (parseGroups 8 s [] none).bind fun r => expandEllipsis r.1 r.2

/-- `net.ParseIP`: the first dot or colon tells the form; an address with a zone is none. -/
def parseIP (s : Bytes) : Option Bytes :=
  match s.find? fun b => b = 0x2e || b = 0x3a || b = 0x25 with
  | some b =>
    if b = 0x2e then (parseIPv4 s).map fun ip => v4InV6Prefix ++ ip
    else if b = 0x3a ∧ s.contains 0x25 = false then parseIPv6 s
    else none
  | none => none

/-! ## Printing -/

def dottedString (ip : Bytes) : Bytes := [0x2e].intercalate (ip.map fun b => decimal b.toNat)

/-- The `i`-th group of 16 bytes. -/
def groupAt (ip : Bytes) (i : Nat) : Nat := getBE ((ip.drop (2 * i)).take 2)

/-- The zero groups from the `i`-th on. -/
def zerosAt (ip : Bytes) (i : Nat) : Nat :=
  ((List.range' i (8 - i)).takeWhile fun j => groupAt ip j = 0).length

/-- The start and the end of the first longest run of two zero groups or more; `(255, 255)`
when there is none. -/
def longestZeros (ip : Bytes) : Nat × Nat :=
  (List.range 8).foldl (fun best i =>
    let l := zerosAt ip i
    if l ≥ 2 ∧ l > best.2 - best.1 then (i, i + l) else best) (255, 255)

/-- The groups from the `i`-th on, in text. -/
def groupsString (ip : Bytes) (zeros : Nat × Nat) : Nat → Nat → Bytes
  | 0, _ => []
  | fuel + 1, i =>
    if i ≥ 8 then []
    else if i = zeros.1 then
      [0x3a, 0x3a] ++
        (if zeros.2 ≥ 8 then []
        else hexadecimal (groupAt ip zeros.2) ++ groupsString ip zeros fuel (zeros.2 + 1))
    else (if i > 0 then [0x3a] else []) ++ (hexadecimal (groupAt ip i) ++ groupsString ip zeros fuel (i + 1))

/-- `IP.String`, of an address. -/
def ipString (ip : Bytes) : Bytes :=
  match to4 ip with
  | some ip4 => dottedString ip4
  | none => groupsString ip (longestZeros ip) 8 0

def Canonical (text ip : Bytes) : Prop := parseIP text = some ip ∧ ipString ip = text

/-! ## Lengths of addresses -/

theorem length_parseIPv4 {s ip : Bytes} (h : parseIPv4 s = some ip) : ip.length = 4 := by
  unfold parseIPv4 at h
  split at h
  · split at h
    · obtain rfl := Option.some.inj h
      rfl
    · cases h
  · cases h

/-- The groups read are at most 16 bytes, and the `::` is before one of them. -/
theorem length_parseGroups {fuel : Nat} {s ip ip' : Bytes} {ellipsis ellipsis' : Option Nat}
    (h : parseGroups fuel s ip ellipsis = some (ip', ellipsis')) (hlen : ip.length + 2 * fuel = 16)
    (hplace : ∀ k, ellipsis = some k → k ≤ ip.length) :
    ip'.length ≤ 16 ∧ ∀ k, ellipsis' = some k → k ≤ ip'.length := by
  induction fuel generalizing s ip ellipsis with
  | zero =>
    simp only [parseGroups, Option.ite_none_right_eq_some, Option.some.injEq, Prod.mk.injEq] at h
    obtain ⟨-, rfl, rfl⟩ := h
    exact ⟨by omega, hplace⟩
  | succ fuel ih =>
    rw [parseGroups] at h
    dsimp only at h
    have hgroup : ∀ n, (ip ++ putBE 2 n).length = ip.length + 2 := by
      intro n
      rw [List.length_append]
      rfl
    have hkept : ∀ n k, ellipsis = some k → k ≤ (ip ++ putBE 2 n).length := by
      intro n k hk
      have := hplace k hk
      rw [hgroup]
      omega
    split at h
    · cases h
    · split at h
      · -- an IPv4 tail
        split at h
        · cases h
        · split at h
          · cases h
          · obtain ⟨tail, htail, heq⟩ := Option.map_eq_some_iff.mp h
            obtain ⟨rfl, rfl⟩ := Prod.mk.inj heq
            have := length_parseIPv4 htail
            rw [List.length_append]
            exact ⟨by omega, fun k hk => by have := hplace k hk; omega⟩
      · generalize List.foldl _ 0 _ = group at h
        split at h
        · obtain ⟨rfl, rfl⟩ := Prod.mk.inj (Option.some.inj h)
          exact ⟨by rw [hgroup]; omega, hkept group⟩
        · split at h
          · cases h
          · split at h
            · cases h
            · split at h
              · split at h
                · cases h
                · split at h
                  · obtain ⟨rfl, rfl⟩ := Prod.mk.inj (Option.some.inj h)
                    exact ⟨by rw [hgroup]; omega, fun k hk => Nat.le_of_eq (Option.some.inj hk).symm⟩
                  · exact ih h (by rw [hgroup]; omega) (fun k hk => Nat.le_of_eq (Option.some.inj hk).symm)
              · exact ih h (by rw [hgroup]; omega) (hkept group)

theorem length_expandEllipsis {ip ip' : Bytes} {ellipsis : Option Nat} (h : ip.length ≤ 16)
    (hplace : ∀ k, ellipsis = some k → k ≤ ip.length) (he : expandEllipsis ip ellipsis = some ip') :
    ip'.length = 16 := by
  unfold expandEllipsis at he
  split at he
  · split at he
    · cases he
    · obtain rfl := Option.some.inj he
      omega
  next k =>
    split at he
    · obtain rfl := Option.some.inj he
      have := hplace k rfl
      simp only [List.length_append, List.length_take, List.length_replicate, List.length_drop]
      omega
    · cases he

theorem length_parseIP {s ip : Bytes} (h : parseIP s = some ip) : ip.length = 16 := by
  unfold parseIP at h
  split at h
  · split at h
    · obtain ⟨ip4, h4, rfl⟩ := Option.map_eq_some_iff.mp h
      rw [List.length_append, length_parseIPv4 h4]
      rfl
    · split at h
      · unfold parseIPv6 at h
        split at h
        · split at h
          · obtain rfl := Option.some.inj h
            rfl
          · obtain ⟨r, hr, he⟩ := Option.bind_eq_some_iff.mp h
            have hzero : ∀ k, some 0 = some k → k ≤ ([] : Bytes).length :=
              fun k hk => Nat.le_of_eq (Option.some.inj hk).symm
            obtain ⟨hlen, hplace⟩ := length_parseGroups hr rfl hzero
            exact length_expandEllipsis hlen hplace he
        · obtain ⟨r, hr, he⟩ := Option.bind_eq_some_iff.mp h
          obtain ⟨hlen, hplace⟩ := length_parseGroups hr rfl (fun k hk => by cases hk)
          exact length_expandEllipsis hlen hplace he
      · cases h
  · cases h

theorem length_to4 {ip ip4 : Bytes} (h : to4 ip = some ip4) : ip4.length = 4 := by
  unfold to4 at h
  split at h
  next h4 =>
    obtain rfl := Option.some.inj h
    exact h4
  · split at h
    next h16 =>
      obtain rfl := Option.some.inj h
      rw [List.length_drop]
      omega
    · cases h

theorem ipString_to4 {ip ip4 : Bytes} (h : to4 ip = some ip4) : ipString ip4 = ipString ip := by
  have h4 : to4 ip4 = some ip4 := by
    unfold to4
    rw [if_pos (length_to4 h)]
  unfold ipString
  rw [h, h4]

/-! ## Texts of addresses -/

def addressByte (b : UInt8) : Bool := isHexDigit b || b == 0x2e || b == 0x3a

theorem graphic_of_addressByte {b : UInt8} (h : addressByte b = true) : graphic b = true := by
  simp only [addressByte, isHexDigit, isDigit, graphic, Bool.or_eq_true, Bool.and_eq_true, beq_iff_eq,
    decide_eq_true_eq, UInt8.le_iff_toNat_le] at h ⊢
  obtain (h | rfl) | rfl := h
  · simp at h ⊢
    omega
  · decide
  · decide

/-- A text of address bytes, and of at most `most` of them. -/
structure Texted (text : Bytes) (most : Nat) : Prop where
  bytes : ∀ b ∈ text, addressByte b = true
  length_le : text.length ≤ most

theorem Texted.append {s t : Bytes} {m n : Nat} (hs : Texted s m) (ht : Texted t n) :
    Texted (s ++ t) (m + n) where
  bytes b hb := by
    obtain hb | hb := List.mem_append.mp hb
    · exact hs.bytes b hb
    · exact ht.bytes b hb
  length_le := by
    have := hs.length_le
    have := ht.length_le
    rw [List.length_append]
    omega

theorem Texted.mono {s : Bytes} {m n : Nat} (h : Texted s m) (hle : m ≤ n) : Texted s n :=
  ⟨h.bytes, Nat.le_trans h.length_le hle⟩

theorem Texted.nil (n : Nat) : Texted [] n := ⟨fun _ hb => absurd hb List.not_mem_nil, Nat.zero_le n⟩

theorem Texted.colons (k : Nat) : Texted (List.replicate k 0x3a) k where
  bytes b hb := by
    rw [List.eq_of_mem_replicate hb]
    decide
  length_le := by rw [List.length_replicate]

theorem Texted.group (ip : Bytes) (i : Nat) : Texted (hexadecimal (groupAt ip i)) 4 where
  bytes b hb := by simp [addressByte, hexadecimal_digits _ b hb]
  length_le := by
    apply length_hexadecimal_le (by decide)
    have := getBE_lt ((ip.drop (2 * i)).take 2)
    have hlen : ((ip.drop (2 * i)).take 2).length ≤ 2 := by
      rw [List.length_take]
      omega
    exact Nat.lt_of_lt_of_le this ((Nat.pow_le_pow_right (by decide) hlen).trans (by decide))

theorem Texted.octet (b : UInt8) : Texted (decimal b.toNat) 3 where
  bytes c hc := by simp [addressByte, isHexDigit, decimal_digits _ c hc]
  length_le := length_decimal_le (by decide) (Nat.lt_of_lt_of_le (UInt8.toNat_lt b) (by decide))

theorem longestZeros_run (ip : Bytes) :
    8 ≤ (longestZeros ip).1 ∨ (longestZeros ip).1 + 2 ≤ (longestZeros ip).2 := by
  unfold longestZeros
  generalize List.range 8 = places
  have hstart : 8 ≤ ((255, 255) : Nat × Nat).1 ∨
      ((255, 255) : Nat × Nat).1 + 2 ≤ ((255, 255) : Nat × Nat).2 := by decide
  generalize ((255, 255) : Nat × Nat) = best at hstart ⊢
  induction places generalizing best with
  | nil => exact hstart
  | cons i places ih =>
    rw [List.foldl_cons]
    apply ih
    dsimp only
    split
    next hlonger =>
      right
      dsimp only
      omega
    next => exact hstart

/-- From the second group on a group takes five bytes, and a run no more than its groups. -/
theorem groupsString_texted (ip : Bytes) {zeros : Nat × Nat}
    (hzeros : 8 ≤ zeros.1 ∨ zeros.1 + 2 ≤ zeros.2) (fuel i : Nat) (hi : 0 < i) :
    Texted (groupsString ip zeros fuel i) (5 * (8 - i)) := by
  induction fuel generalizing i with
  | zero => exact Texted.nil _
  | succ fuel ih =>
    rw [groupsString]
    split
    · exact Texted.nil _
    next hlt =>
      split
      next hrun =>
        have hcolons := Texted.colons 2
        split
        · exact (hcolons.append (Texted.nil 0)).mono (by omega)
        next =>
          exact (hcolons.append ((Texted.group ip zeros.2).append (ih _ (Nat.succ_pos _)))).mono (by omega)
      next =>
        have hcolon := Texted.colons 1
        exact (hcolon.append ((Texted.group ip i).append (ih _ (Nat.succ_pos _)))).mono (by omega)

theorem groupsString_start (ip : Bytes) {zeros : Nat × Nat}
    (hzeros : 8 ≤ zeros.1 ∨ zeros.1 + 2 ≤ zeros.2) :
    Texted (groupsString ip zeros 8 0) 39 ∧ 0x3a ∈ groupsString ip zeros 8 0 := by
  rw [groupsString, if_neg (by omega)]
  split
  next hrun =>
    have hcolons := Texted.colons 2
    refine ⟨?_, by simp⟩
    split
    · exact (hcolons.append (Texted.nil 0)).mono (by omega)
    next =>
      exact (hcolons.append ((Texted.group ip zeros.2).append
        (groupsString_texted ip hzeros 7 _ (Nat.succ_pos _)))).mono (by omega)
  next =>
    rw [if_neg (Nat.lt_irrefl 0), List.nil_append]
    refine ⟨((Texted.group ip 0).append (groupsString_texted ip hzeros 7 1 (by decide))).mono (by omega), ?_⟩
    apply List.mem_append_right
    rw [groupsString, if_neg (by omega)]
    split
    · simp
    · simp

theorem dottedString_texted {ip : Bytes} (h : ip.length = 4) :
    Texted (dottedString ip) 15 ∧ 0x3a ∉ dottedString ip ∧ dottedString ip ≠ [] := by
  obtain ⟨a, b, c, d, rfl⟩ : ∃ a b c d, ip = [a, b, c, d] := by
    match ip, h with
    | [a, b, c, d], _ => exact ⟨a, b, c, d, rfl⟩
  have hdot : Texted [0x2e] 1 := by
    refine ⟨fun b hb => ?_, Nat.le_refl 1⟩
    rw [List.mem_singleton.mp hb]
    decide
  have htext : dottedString [a, b, c, d] = decimal a.toNat ++ ([0x2e] ++ (decimal b.toNat ++
      ([0x2e] ++ (decimal c.toNat ++ ([0x2e] ++ decimal d.toNat))))) := by
    simp [dottedString, List.intercalate_cons_cons]
  have hcolon : ∀ n, 0x3a ∉ decimal n := by
    intro n hmem
    have := decimal_digits n _ hmem
    exact absurd this (by decide)
  rw [htext]
  refine ⟨?_, ?_, ?_⟩
  · exact ((Texted.octet a).append (hdot.append ((Texted.octet b).append (hdot.append
      ((Texted.octet c).append (hdot.append (Texted.octet d))))))).mono (by omega)
  · simp [hcolon]
  · simp [decimal_ne_nil]

theorem Canonical.text {text ip : Bytes} (h : Canonical text ip) :
    Texted text 39 ∧ text ≠ [] ∧ (0x3a ∈ text ↔ to4 ip = none) := by
  have htext := h.2
  unfold ipString at htext
  cases hfour : to4 ip with
  | some ip4 =>
    rw [hfour] at htext
    obtain ⟨htexted, hcolon, hne⟩ := dottedString_texted (length_to4 hfour)
    rw [← htext]
    exact ⟨htexted.mono (by decide), hne, iff_of_false hcolon (by simp)⟩
  | none =>
    rw [hfour] at htext
    obtain ⟨htexted, hcolon⟩ := groupsString_start ip (longestZeros_run ip)
    rw [← htext]
    exact ⟨htexted, List.ne_nil_of_mem hcolon, iff_of_true hcolon rfl⟩

end NetAddress
