import Mathlib.Data.List.Basic
import ForwardX.Lib.Wire

/- Text as bytes: numbers in digits, white space, and fields separated by it. White space
   is Unicode's, in UTF-8: a byte that starts none of its sequences is part of a word.
   Words of graphic ASCII bytes joined by blanks are their own fields (`fields_join`), and
   trimming does not touch them (`trimSpace_graphic`). Strings are also read as UTF-16 units. -/
namespace AsciiText
open Wire

/-! ## Digits -/

def asciiByte (c : Char) : UInt8 := UInt8.ofNat c.toNat

def decimal (n : Nat) : Bytes := (Nat.toDigits 10 n).map asciiByte

def hexadecimal (n : Nat) : Bytes := (Nat.toDigits 16 n).map asciiByte

def decimalInt : Int → Bytes
  | .ofNat n => decimal n
  | .negSucc n => asciiByte '-' :: decimal (n + 1)

def isDigit (b : UInt8) : Bool := 0x30 ≤ b && b ≤ 0x39

def readDecimal (s : Bytes) : Option Nat :=
  if s.length > 0 ∧ s.all isDigit = true then
    some (s.foldl (fun n b => n * 10 + (b.toNat - 0x30)) 0)
  else none

/-- A decimal number with an optional sign. -/
def atoi : Bytes → Option Int
  | [] => none
  | b :: s =>
    if b = 0x2d then (readDecimal s).map fun n => -(n : Int)
    else if b = 0x2b then (readDecimal s).map fun n => (n : Int)
    else (readDecimal (b :: s)).map fun n => (n : Int)

theorem asciiByte_digitChar {d : Nat} (h : d < 10) :
    isDigit (asciiByte (Nat.digitChar d)) = true ∧ (asciiByte (Nat.digitChar d)).toNat = 0x30 + d := by
  have : ∀ d < 10, isDigit (asciiByte (Nat.digitChar d)) = true ∧
      (asciiByte (Nat.digitChar d)).toNat = 0x30 + d := by decide
  exact this d h

theorem decimal_eq (n : Nat) :
    decimal n = (if n < 10 then [] else decimal (n / 10)) ++ [asciiByte (Nat.digitChar (n % 10))] := by
  unfold decimal
  rw [Nat.toDigits_eq_if (by omega)]
  split
  next hlt => simp [Nat.mod_eq_of_lt hlt]
  next => simp

theorem decimal_ne_nil (n : Nat) : decimal n ≠ [] := by
  rw [decimal_eq]
  exact List.append_ne_nil_of_right_ne_nil _ (List.cons_ne_nil _ _)

theorem decimal_digits (n : Nat) : ∀ b ∈ decimal n, isDigit b = true := by
  induction n using Nat.strongRecOn with
  | ind n ih =>
    intro b hb
    rw [decimal_eq] at hb
    obtain hb | hb := List.mem_append.mp hb
    · split at hb
      · cases hb
      next hge => exact ih (n / 10) (by omega) b hb
    · rw [List.mem_singleton.mp hb]
      exact (asciiByte_digitChar (Nat.mod_lt n (by decide))).1

theorem decimal_value (n : Nat) : (decimal n).foldl (fun n b => n * 10 + (b.toNat - 0x30)) 0 = n := by
  induction n using Nat.strongRecOn with
  | ind n ih =>
    have hlast := (asciiByte_digitChar (Nat.mod_lt n (by decide : 0 < 10))).2
    rw [decimal_eq, List.foldl_append, List.foldl_cons, List.foldl_nil, hlast]
    split
    · rw [List.foldl_nil]
      omega
    next hge =>
      rw [ih (n / 10) (by omega)]
      omega

theorem readDecimal_decimal (n : Nat) : readDecimal (decimal n) = some n := by
  unfold readDecimal
  rw [if_pos ⟨List.length_pos_of_ne_nil (decimal_ne_nil n), List.all_eq_true.mpr (decimal_digits n)⟩,
    decimal_value]

theorem length_decimal_le {n k : Nat} (hk : 0 < k) (h : n < 10^k) : (decimal n).length ≤ k := by
  unfold decimal
  rw [List.length_map]
  exact (Nat.length_toDigits_le_iff (by decide) hk).mpr h

theorem length_hexadecimal_le {n k : Nat} (hk : 0 < k) (h : n < 16^k) : (hexadecimal n).length ≤ k := by
  unfold hexadecimal
  rw [List.length_map]
  exact (Nat.length_toDigits_le_iff (by decide) hk).mpr h

theorem hexadecimal_eq (n : Nat) : hexadecimal n =
    (if n < 16 then [] else hexadecimal (n / 16)) ++ [asciiByte (Nat.digitChar (n % 16))] := by
  unfold hexadecimal
  rw [Nat.toDigits_eq_if (by omega)]
  split
  next hlt => simp [Nat.mod_eq_of_lt hlt]
  next => simp

def isHexDigit (b : UInt8) : Bool := isDigit b || (0x61 ≤ b && b ≤ 0x66)

theorem hexadecimal_digits (n : Nat) : ∀ b ∈ hexadecimal n, isHexDigit b = true := by
  have hdigit : ∀ d < 16, isHexDigit (asciiByte (Nat.digitChar d)) = true := by decide
  induction n using Nat.strongRecOn with
  | ind n ih =>
    intro b hb
    rw [hexadecimal_eq] at hb
    obtain hb | hb := List.mem_append.mp hb
    · split at hb
      · cases hb
      next hge => exact ih (n / 16) (by omega) b hb
    · rw [List.mem_singleton.mp hb]
      exact hdigit _ (Nat.mod_lt n (by decide))

/-! ## White space -/

/-- The characters of `unicode.IsSpace`, in UTF-8. -/
def spaces : List Bytes :=
  [[0x09], [0x0a], [0x0b], [0x0c], [0x0d], [0x20], [0xc2, 0x85], [0xc2, 0xa0], [0xe1, 0x9a, 0x80],
    [0xe2, 0x80, 0x80], [0xe2, 0x80, 0x81], [0xe2, 0x80, 0x82], [0xe2, 0x80, 0x83], [0xe2, 0x80, 0x84],
    [0xe2, 0x80, 0x85], [0xe2, 0x80, 0x86], [0xe2, 0x80, 0x87], [0xe2, 0x80, 0x88], [0xe2, 0x80, 0x89],
    [0xe2, 0x80, 0x8a], [0xe2, 0x80, 0xa8], [0xe2, 0x80, 0xa9], [0xe2, 0x80, 0xaf], [0xe2, 0x81, 0x9f],
    [0xe3, 0x80, 0x80]]

/-- The length of the sequence of `seqs` at the start of `s`, or 0. -/
def seqAt (seqs : List Bytes) (s : Bytes) : Nat :=
  ((seqs.find? fun seq => seq.isPrefixOf s).map List.length).getD 0

/-- Drop `skip` bytes, and then the sequences at the start. -/
def dropSeqs (seqs : List Bytes) : Nat → Bytes → Bytes
  | _, [] => []
  | skip + 1, _ :: rest => dropSeqs seqs skip rest
  | 0, b :: rest =>
    match seqAt seqs (b :: rest) with
    | 0 => b :: rest
    | n + 1 => dropSeqs seqs n rest

def trimSpace (s : Bytes) : Bytes :=
  (dropSeqs (spaces.map List.reverse) 0 (dropSeqs spaces 0 s).reverse).reverse

/-- The fields behind `skip` bytes, `word` being the start of the first. -/
def fieldsFrom : Nat → Bytes → Bytes → List Bytes
  | _, word, [] => if word = [] then [] else [word]
  | skip + 1, word, _ :: rest => fieldsFrom skip word rest
  | 0, word, b :: rest =>
    match seqAt spaces (b :: rest) with
    | 0 => fieldsFrom 0 (word ++ [b]) rest
    | n + 1 => (if word = [] then [] else [word]) ++ fieldsFrom n [] rest

def fields (s : Bytes) : List Bytes := fieldsFrom 0 [] s

def graphic (b : UInt8) : Bool := 0x21 ≤ b && b ≤ 0x7e

theorem seqAt_eq_zero {seqs : List Bytes} {b : UInt8} {rest : Bytes}
    (h : ∀ seq ∈ seqs, seq.head? ≠ some b ∧ seq ≠ []) : seqAt seqs (b :: rest) = 0 := by
  unfold seqAt
  rw [List.find?_eq_none.mpr]
  · rfl
  · intro seq hseq hp
    rw [List.isPrefixOf_iff_prefix] at hp
    obtain ⟨hhead, hne⟩ := h seq hseq
    cases seq with
    | nil => exact hne rfl
    | cons c seq =>
      rw [List.cons_prefix_cons] at hp
      exact hhead (by rw [List.head?_cons, hp.1])

theorem seqAt_graphic {b : UInt8} (h : graphic b = true) (rest : Bytes) :
    seqAt spaces (b :: rest) = 0 ∧ seqAt (spaces.map List.reverse) (b :: rest) = 0 := by
  have hfirst : ∀ seq ∈ spaces, seq ≠ [] ∧ seq.head?.any graphic = false := by decide
  have hlast : ∀ seq ∈ spaces.map List.reverse, seq ≠ [] ∧ seq.head?.any graphic = false := by decide
  constructor
  · apply seqAt_eq_zero
    intro seq hseq
    refine ⟨fun heq => ?_, (hfirst seq hseq).1⟩
    have := (hfirst seq hseq).2
    simp [heq, h] at this
  · apply seqAt_eq_zero
    intro seq hseq
    refine ⟨fun heq => ?_, (hlast seq hseq).1⟩
    have := (hlast seq hseq).2
    simp [heq, h] at this

theorem trimSpace_graphic {s : Bytes} (h : ∀ b ∈ s, graphic b = true) : trimSpace s = s := by
  have hleft : dropSeqs spaces 0 s = s := by
    cases s with
    | nil => rfl
    | cons b rest => rw [dropSeqs, (seqAt_graphic (h b List.mem_cons_self) rest).1]
  have hright : dropSeqs (spaces.map List.reverse) 0 s.reverse = s.reverse := by
    cases hs : s.reverse with
    | nil => rfl
    | cons b rest =>
      have hmem : b ∈ s := by
        rw [← List.mem_reverse, hs]
        exact List.mem_cons_self
      rw [dropSeqs, (seqAt_graphic (h b hmem) rest).2]
  rw [trimSpace, hleft, hright, List.reverse_reverse]

theorem fieldsFrom_word {word : Bytes} (h : ∀ b ∈ word, graphic b = true) (start rest : Bytes) :
    fieldsFrom 0 start (word ++ rest) = fieldsFrom 0 (start ++ word) rest := by
  induction word generalizing start with
  | nil => simp
  | cons b word ih =>
    rw [List.cons_append, fieldsFrom, (seqAt_graphic (h b List.mem_cons_self) _).1]
    dsimp only
    rw [ih (fun c hc => h c (List.mem_cons_of_mem b hc)), List.append_assoc]
    rfl

theorem fieldsFrom_blank {word : Bytes} (h : word ≠ []) (rest : Bytes) :
    fieldsFrom 0 word (0x20 :: rest) = word :: fieldsFrom 0 [] rest := by
  have hblank : seqAt spaces (0x20 :: rest) = 1 := rfl
  rw [fieldsFrom, hblank]
  dsimp only
  rw [if_neg h]
  rfl

theorem fields_join {words : List Bytes} (h : ∀ word ∈ words, word ≠ [] ∧ ∀ b ∈ word, graphic b = true) :
    fields ([0x20].intercalate words) = words := by
  unfold fields
  induction words with
  | nil => rfl
  | cons word words ih =>
    obtain ⟨hne, hgraphic⟩ := h word List.mem_cons_self
    cases words with
    | nil =>
      have hword := fieldsFrom_word hgraphic [] []
      rw [List.append_nil, List.nil_append] at hword
      rw [List.intercalate_singleton, hword, fieldsFrom, if_neg hne]
    | cons next words =>
      rw [List.intercalate_cons_cons, List.append_assoc, fieldsFrom_word hgraphic, List.nil_append,
        List.singleton_append, fieldsFrom_blank hne, ih (fun w hw => h w (List.mem_cons_of_mem word hw))]

/-! ## UTF-16 -/

def utf16 (s : String) : List Nat :=
  s.toList.flatMap fun c =>
    if c.toNat < 0x10000 then [c.toNat]
    else [0xd800 + (c.toNat - 0x10000) / 0x400, 0xdc00 + (c.toNat - 0x10000) % 0x400]

end AsciiText
