import ForwardX.Lib.Wire

/- Authenticated encryption with a 16-byte tag, as a pair of functions, and the
   log of what a program has sealed. A log is safe when no two exposed
   ciphertexts of different plaintexts share a key and a nonce.

   The ideal AEAD opens nothing but what is in the log of everything sealed
   (`openSealed`); its ciphertexts are any function of the inputs (`Sealer`). -/
namespace Aead
open Wire

universe u

/-- An AEAD under one key: `sealText` and `openText` take the nonce, the text and the
associated data. -/
structure Cipher where
  sealText : Bytes → Bytes → Bytes → Bytes
  openText : Bytes → Bytes → Bytes → Option Bytes
  sealText_length : ∀ nonce plain ad, (sealText nonce plain ad).length = plain.length + 16
  openText_sealText : ∀ nonce plain ad, openText nonce (sealText nonce plain ad) ad = some plain

def Cipher.overhead : Nat := 16

/-- The cipher that hides and authenticates nothing. -/
def Cipher.null : Cipher where
  sealText _ plain _ := plain ++ List.replicate 16 0
  openText _ text _ := some (text.take (text.length - 16))
  sealText_length _ plain _ := by rw [List.length_append, List.length_replicate]
  openText_sealText _ plain _ := by simp

/-- One call of `sealText`: the key it is under, and whether any of the ciphertext left
the program. -/
structure Sealing (κ : Type u) where
  key : κ
  nonce : Bytes
  plain : Bytes
  exposed : Bool
  deriving DecidableEq, Repr

section
variable {κ : Type u}

def Conflict (a b : Sealing κ) : Prop :=
  a.key = b.key ∧ a.nonce = b.nonce ∧ a.plain ≠ b.plain ∧ a.exposed = true ∧ b.exposed = true

instance [DecidableEq κ] (a b : Sealing κ) : Decidable (Conflict a b) :=
  inferInstanceAs (Decidable (_ ∧ _ ∧ _ ∧ _ ∧ _))

def NonceSafe (log : List (Sealing κ)) : Prop := log.Pairwise (fun a b => ¬ Conflict a b)

instance [DecidableEq κ] (log : List (Sealing κ)) : Decidable (NonceSafe log) :=
  inferInstanceAs (Decidable (log.Pairwise _))

end

/-! ## The ideal AEAD -/

/-- One sealed text, and what it was made of. -/
structure Sealed where
  key : Bytes
  nonce : Bytes
  plain : Bytes
  ad : Bytes
  text : Bytes
  deriving DecidableEq, Repr

/-- What ciphertexts look like: the key, the nonce, the plaintext and the associated
data give a text that is 16 bytes longer than the plaintext. -/
structure Sealer where
  sealText : Bytes → Bytes → Bytes → Bytes → Bytes
  sealText_length : ∀ key nonce plain ad, (sealText key nonce plain ad).length = plain.length + 16

def Sealer.sealed (A : Sealer) (key nonce plain ad : Bytes) : Sealed :=
  ⟨key, nonce, plain, ad, A.sealText key nonce plain ad⟩

def Sealer.null : Sealer where
  sealText _ _ plain _ := plain ++ List.replicate 16 0
  sealText_length _ _ plain _ := by rw [List.length_append, List.length_replicate]

/-- Open a text: it opens to a plaintext that was sealed to it, under the same key,
nonce and associated data. -/
def openSealed (log : List Sealed) (key nonce text ad : Bytes) : Option Bytes :=
  (log.find? (fun e => e.key = key ∧ e.nonce = nonce ∧ e.ad = ad ∧ e.text = text)).map Sealed.plain

theorem openSealed_eq_some {log : List Sealed} {key nonce text ad plain : Bytes}
    (h : openSealed log key nonce text ad = some plain) :
    ⟨key, nonce, plain, ad, text⟩ ∈ log := by
  obtain ⟨e, hfind, rfl⟩ := Option.map_eq_some_iff.mp h
  have hmem := List.mem_of_find?_eq_some hfind
  have htest := List.find?_some hfind
  obtain ⟨rfl, rfl, rfl, rfl⟩ := of_decide_eq_true htest
  exact hmem

theorem openSealed_of_unique {log : List Sealed} {e : Sealed} (hmem : e ∈ log)
    (hunique : ∀ e' ∈ log, e'.key = e.key → e'.nonce = e.nonce → e' = e) :
    openSealed log e.key e.nonce e.text e.ad = some e.plain := by
  have hsome : (log.find? (fun x => x.key = e.key ∧ x.nonce = e.nonce ∧ x.ad = e.ad ∧
      x.text = e.text)).isSome = true := by
    rw [List.find?_isSome]
    exact ⟨e, hmem, decide_eq_true ⟨rfl, rfl, rfl, rfl⟩⟩
  obtain ⟨x, hx⟩ := Option.isSome_iff_exists.mp hsome
  have htest := List.find?_some hx
  rw [decide_eq_true_eq] at htest
  have heq := hunique x (List.mem_of_find?_eq_some hx) htest.1 htest.2.1
  unfold openSealed
  rw [hx, heq]
  rfl

end Aead
