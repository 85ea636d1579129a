import ForwardX.Lib.Wire

/- Reading from a connection. A stream is what its `Read` calls will deliver; `readFull` reads
   until a buffer is full, over as many calls as that takes. An array has a fixed length and is
   written over in part: what was written is there, whatever was there before. -/
namespace ByteStream
open Wire

inductive StreamError
  | eof
  | unexpectedEOF
  | other (text : String)
  deriving DecidableEq, Repr

/-- Bytes that arrive together, and the error that comes with the last of them. -/
structure Delivery where
  bytes : Bytes
  err : Option StreamError
  deriving DecidableEq, Repr

/-- What is still to come; behind its end every call is at the end of the file. -/
abbrev Stream := List Delivery

/-- The error of a `readFull` that is cut short. -/
def cutShort (got : Bytes) (err : StreamError) : StreamError :=
  if err = .eof ∧ got ≠ [] then .unexpectedEOF else err

/-- `io.ReadFull` of `n` more bytes behind those it has got. -/
def readFull (got : Bytes) (n : Nat) : Stream → Bytes × Stream × Option StreamError
  | [] => if n = 0 then (got, [], none) else (got, [], some (cutShort got .eof))
  | delivery :: rest =>
    if n = 0 then (got, delivery :: rest, none)
    else if n < delivery.bytes.length then
      (got ++ delivery.bytes.take n, { delivery with bytes := delivery.bytes.drop n } :: rest, none)
    else if n = delivery.bytes.length then (got ++ delivery.bytes, rest, none)
    else
      match delivery.err with
      | some err => (got ++ delivery.bytes, rest, some (cutShort (got ++ delivery.bytes) err))
      | none => readFull (got ++ delivery.bytes) (n - delivery.bytes.length) rest

theorem readFull_length {got bytes : Bytes} {n : Nat} {stream rest : Stream}
    (h : readFull got n stream = (bytes, rest, none)) : bytes.length = got.length + n := by
  induction stream generalizing got n with
  | nil =>
    unfold readFull at h
    split at h
    · rename_i hzero
      obtain ⟨rfl, -⟩ := Prod.mk.inj h
      rw [hzero, Nat.add_zero]
    · cases h
  | cons delivery stream ih =>
    unfold readFull at h
    split at h
    · rename_i hzero
      obtain ⟨rfl, -⟩ := Prod.mk.inj h
      rw [hzero, Nat.add_zero]
    · split at h
      · rename_i hlt
        obtain ⟨rfl, -⟩ := Prod.mk.inj h
        rw [List.length_append, List.length_take, Nat.min_eq_left (Nat.le_of_lt hlt)]
      · split at h
        · rename_i heq
          obtain ⟨rfl, -⟩ := Prod.mk.inj h
          rw [List.length_append, heq]
        · split at h
          · cases h
          · have hrest := ih h
            rw [List.length_append] at hrest
            omega

/-! ## Arrays -/

/-- An array of `n` bytes. -/
structure FixedArray (n : Nat) where
  bytes : Bytes
  size : bytes.length = n

namespace FixedArray

variable {n : Nat}

def zero (n : Nat) : FixedArray n := ⟨List.replicate n 0, List.length_replicate⟩

/-- The bytes at an offset are written over; what does not fit is left out. -/
def overwrite (a : Bytes) (offset : Nat) (bs : Bytes) : Bytes :=
  a.take offset ++ bs.take (a.length - offset) ++ a.drop (offset + bs.length)

theorem overwrite_length (a : Bytes) (offset : Nat) (bs : Bytes) : (overwrite a offset bs).length = a.length := by
  rw [overwrite, List.length_append, List.length_append, List.length_take, List.length_take, List.length_drop]
  omega

def write (a : FixedArray n) (offset : Nat) (bs : Bytes) : FixedArray n :=
  ⟨overwrite a.bytes offset bs, (overwrite_length a.bytes offset bs).trans a.size⟩

def modify (a : FixedArray n) (i : Nat) (f : UInt8 → UInt8) : FixedArray n :=
  ⟨a.bytes.modify i f, (List.length_modify ..).trans a.size⟩

@[simp] theorem write_bytes (a : FixedArray n) (offset : Nat) (bs : Bytes) :
    (a.write offset bs).bytes = overwrite a.bytes offset bs := rfl

theorem take_write (a : FixedArray n) (bs : Bytes) (h : bs.length ≤ n) : (a.write 0 bs).bytes.take bs.length = bs := by
  rw [write_bytes, overwrite, List.take_zero, List.nil_append, a.size, Nat.sub_zero, List.take_of_length_le h]
  exact List.take_left

theorem write_write (a : FixedArray n) (bs cs : Bytes) (h : bs.length + cs.length = n) :
    ((a.write 0 bs).write bs.length cs).bytes = bs ++ cs := by
  have hfirst := a.take_write bs (by omega)
  have hsize := (a.write 0 bs).size
  rw [write_bytes, overwrite, hfirst, hsize, List.take_of_length_le (by omega), List.drop_eq_nil_of_le (by omega),
    List.append_nil]

end FixedArray

end ByteStream
