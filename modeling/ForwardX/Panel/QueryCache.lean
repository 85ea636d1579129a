import ForwardX.Lib.AsciiText
import ForwardX.Lib.Assoc
import ForwardX.Lib.Rows
import ForwardX.Lib.Transition

/- The query cache (`queryCache.ts`). A load belongs to the entry it was started for, by the identity
   of the entry: one that settles after its entry was cleared stores nothing. Loads are numbered in
   the order in which `get` starts them, and an entry keeps the load its value came from. Sizes and
   durations are natural numbers. -/
namespace ForwardX.Panel.QueryCache
open Transition Assoc

/-- The options of a cache. `sizeOf` gives none where it throws; without a limit on the bytes there
is none. -/
structure CacheOptions (V : Type) where
  maxEntries : Option Nat
  maxBytes : Option Nat
  sizeOf : Option (Option V → Option Nat)
  retryMs : Option Nat

/-- `key.length`, in UTF-16 units. -/
def keyLength (key : String) : Nat := (AsciiText.utf16 key).length

section
variable {V : Type}

def CacheOptions.entries (o : CacheOptions V) : Nat := max 1 (o.maxEntries.getD 300)

def CacheOptions.fits (o : CacheOptions V) (bytes : Int) : Prop := ∀ m ∈ o.maxBytes, bytes ≤ m

instance (o : CacheOptions V) (bytes : Int) : Decidable (o.fits bytes) :=
  inferInstanceAs (Decidable (∀ m ∈ o.maxBytes, bytes ≤ m))

def CacheOptions.retry (o : CacheOptions V) : Int := o.retryMs.getD 1000

/-- The size of a value under a key, none where `sizeOf` throws. -/
def CacheOptions.size (o : CacheOptions V) (key : String) (value : Option V) : Option Nat :=
  match o.sizeOf with
  | none => some 0
  | some sizeOf => (sizeOf value).map (· + keyLength key * 2)

end

/-- `CacheEntry`: `id` is its identity, `source` the load its value came from, and a promise is
that of a load. A value that is undefined is none. -/
structure CacheEntry (V : Type) where
  id : Nat
  freshUntil : Int
  staleUntil : Int
  retryAt : Int
  bytes : Nat
  value : Option V
  source : Nat
  promise : Option Nat
  deriving DecidableEq

/-- How far a load is: its function has not settled; it failed, or its value could not be measured,
and the `catch` is to come; it is over. -/
inductive Progress where
  | pending
  | failed
  | settled
  deriving DecidableEq

/-- A load: its key, its entry and the options of the `get` that started it, and when it was
stored. -/
structure Load where
  key : String
  entry : Nat
  ttlMs : Nat
  staleMs : Nat
  progress : Progress
  storedAt : Option Int
  deriving DecidableEq

/-- A cache, the entries in the order of the map, with the loads so far, the next identity and the
time of the last step. -/
structure Cache (V : Type) where
  entries : List (String × CacheEntry V)
  bytes : Int
  nextPruneAt : Int
  cleanupTimer : Bool
  loads : List Load
  nextId : Nat
  clock : Int
  deriving DecidableEq

def createQueryCache {V : Type} (clock : Int) : Cache V := ⟨[], 0, clock + 1000, false, [], 0, clock⟩

section
variable {V : Type}

/-- The loop of `trim`, with the size of the map and the running total. -/
def trimLoop (o : CacheOptions V) (reserve : Nat) :
    List (String × CacheEntry V) → Nat → Int → List (String × CacheEntry V) × Int
  | [], _, bytes => ([], bytes)
  | e :: rest, size, bytes =>
    if size + reserve ≤ o.entries ∧ o.fits bytes then (e :: rest, bytes)
    else if e.2.promise.isNone then trimLoop o reserve rest (size - 1) (bytes - e.2.bytes)
    else
      let (kept, left) := trimLoop o reserve rest size bytes
      (e :: kept, left)

namespace Cache

/-- The entries that stay, with the total that is left; the timer stops when none does. -/
def retain (s : Cache V) (entries : List (String × CacheEntry V)) (bytes : Int) : Cache V :=
  { s with entries := entries, bytes := bytes, cleanupTimer := s.cleanupTimer && !entries.isEmpty }

def trim (s : Cache V) (o : CacheOptions V) (reserve : Nat) : Cache V :=
  let (entries, bytes) := trimLoop o reserve s.entries s.entries.length s.bytes
  s.retain entries bytes

/-- The entries that meet a test are removed, one after the other. -/
def removeAll (s : Cache V) (test : String × CacheEntry V → Bool) : Cache V :=
  s.retain (s.entries.filter (fun e => !test e)) (s.bytes - ((s.entries.filter test).map (fun e => (e.2.bytes : Int))).sum)

def remove (s : Cache V) (key : String) : Cache V := s.removeAll (fun e => e.1 == key)

def prune (s : Cache V) (o : CacheOptions V) (now : Int) : Cache V :=
  (s.removeAll fun e => e.2.promise.isNone && decide (e.2.staleUntil ≤ now)).trim o 0

def armCleanup (s : Cache V) : Cache V := { s with cleanupTimer := s.cleanupTimer || !s.entries.isEmpty }

def update (s : Cache V) (key : String) (f : CacheEntry V → CacheEntry V) : Cache V :=
  { s with entries := Rows.set Prod.fst s.entries key (fun e => (e.1, f e.2)) }

/-- A load starts for the entry at a key. -/
def startLoad (s : Cache V) (key : String) (id ttlMs staleMs : Nat) : Cache V :=
  { s.update key (fun e => { e with promise := some s.loads.length }) with
    loads := s.loads ++ [⟨key, id, ttlMs, staleMs, .pending, none⟩] }

end Cache

/-- What `get` returns: a value at once, with the load it came from, the promise of a load, or the
error that the cache is busy. -/
inductive Answer (V : Type) where
  | value (value : V) (source : Nat)
  | promise (load : Nat)
  | busy
  deriving DecidableEq

namespace Cache

def refresh (s : Cache V) (o : CacheOptions V) (key : String) (ttlMs staleMs : Nat) : Cache V × Answer V :=
  match s.entries.lookup key with
  | some entry => (s.startLoad key entry.id ttlMs staleMs, .promise s.loads.length)
  | none =>
    let s := s.trim o 1
    if o.entries ≤ s.entries.length then (s, .busy)
    else
      let entry : CacheEntry V := ⟨s.nextId, 0, 0, 0, 0, none, 0, none⟩
      let s := armCleanup { s with entries := put s.entries key entry, nextId := s.nextId + 1 }
      (s.startLoad key entry.id ttlMs staleMs, .promise s.loads.length)

/-- `get` once what has expired is gone. -/
def serve (s : Cache V) (o : CacheOptions V) (key : String) (ttlMs staleMs : Nat) (now : Int) : Cache V × Answer V :=
  match s.entries.lookup key with
  | none => s.refresh o key ttlMs staleMs
  | some cached =>
    let s := { s with entries := put s.entries key cached }
    match cached.value with
    | none =>
      match cached.promise with
      | some load => (s, .promise load)
      | none => s.refresh o key ttlMs staleMs
    | some value =>
      if now < cached.freshUntil then (s, .value value cached.source)
      else if now < cached.staleUntil then
        if cached.promise.isNone ∧ cached.retryAt ≤ now then
          ((s.refresh o key ttlMs staleMs).1, .value value cached.source)
        else (s, .value value cached.source)
      else
        match cached.promise with
        | some load => (s, .promise load)
        | none => s.refresh o key ttlMs staleMs

/-- `get`; without `staleMs` it is `ttlMs`. -/
def get (s : Cache V) (o : CacheOptions V) (key : String) (ttlMs : Nat) (staleMs : Option Nat) (now : Int) :
    Cache V × Answer V :=
  let s := if s.nextPruneAt ≤ now then { s.prune o now with nextPruneAt := now + 1000 } else s
  s.serve o key ttlMs (staleMs.getD ttlMs) now

/-- Load `i` at another progress. -/
def progress (s : Cache V) (i : Nat) (l : Load) (p : Progress) : Cache V :=
  { s with loads := s.loads.set i { l with progress := p } }

def current (s : Cache V) (l : Load) : Option (CacheEntry V) :=
  (s.entries.lookup l.key).filter (fun e => e.id == l.entry)

/-- The function of load `i` has resolved. -/
def resolve (s : Cache V) (o : CacheOptions V) (i : Nat) (l : Load) (value : Option V) (now : Int) : Cache V :=
  match s.current l with
  | none => s.progress i l .settled
  | some entry =>
    match o.size l.key value with
    | none => s.progress i l .failed
    | some size =>
      if o.fits size then
        trim { s.update l.key (fun e => { e with
            value := value, promise := none, bytes := size, retryAt := 0, source := i
            freshUntil := now + l.ttlMs, staleUntil := now + l.ttlMs + l.staleMs }) with
          loads := s.loads.set i { l with progress := .settled, storedAt := some now }
          bytes := s.bytes - entry.bytes + size } o 0
      else (s.remove l.key).progress i l .settled

/-- The `catch` of load `i`. -/
def fail (s : Cache V) (o : CacheOptions V) (i : Nat) (l : Load) (now : Int) : Cache V :=
  match s.current l with
  | none => s.progress i l .settled
  | some entry =>
    let s := s.update l.key (fun e => { e with promise := none, retryAt := now + o.retry })
    let s := if entry.value.isNone then s.remove l.key else s
    s.progress i l .settled

/-- `clear` of the keys that match. -/
def clear (s : Cache V) (matching : String → Bool) : Cache V := s.removeAll (fun e => matching e.1)

/-- `clear` of everything. -/
def clearAll (s : Cache V) : Cache V := s.retain [] 0

def cleanup (s : Cache V) (o : CacheOptions V) (now : Int) : Cache V :=
  (prune { s with cleanupTimer := false } o now).armCleanup

end Cache

inductive Action (V : Type) where
  | get (key : String) (ttlMs : Nat) (staleMs : Option Nat) (now : Int)
  | resolve (load : Nat) (value : Option V) (now : Int)
  | reject (load : Nat) (now : Int)
  | fail (load : Nat) (now : Int)
  | prune (now : Int)
  | timer (now : Int)
  | clear (matching : String → Bool)
  | clearAll

def Action.now : Action V → Option Int
  | .get _ _ _ now | .resolve _ _ now | .reject _ now | .fail _ now | .prune now | .timer now => some now
  | .clear _ | .clearAll => none

def Action.clears (key : String) : Action V → Bool
  | .clear matching => matching key
  | .clearAll => true
  | _ => false

/-- The cache after a step; none where the step cannot be taken. -/
def apply (o : CacheOptions V) (s : Cache V) : Action V → Option (Cache V)
  | .get key ttlMs staleMs now => some (s.get o key ttlMs staleMs now).1
  | .resolve i value now => (s.loads[i]?.filter (fun l => l.progress = .pending)).map fun l => s.resolve o i l value now
  | .reject i _ => (s.loads[i]?.filter (fun l => l.progress = .pending)).map fun l => s.progress i l .failed
  | .fail i now => (s.loads[i]?.filter (fun l => l.progress = .failed)).map fun l => s.fail o i l now
  | .prune now => some (s.prune o now)
  | .timer now => if s.cleanupTimer then some (s.cleanup o now) else none
  | .clear matching => some (s.clear matching)
  | .clearAll => some s.clearAll

def step (o : CacheOptions V) (s : Cache V) (a : Action V) : Option (Cache V) :=
  if s.clock ≤ a.now.getD s.clock then (apply o s a).map fun t => { t with clock := a.now.getD s.clock } else none

/-! ## Removing entries -/

section
variable {o : CacheOptions V} {s t : Cache V}

def total (entries : List (String × CacheEntry V)) : Int := (entries.map (fun e => (e.2.bytes : Int))).sum

theorem total_nonneg (entries : List (String × CacheEntry V)) : 0 ≤ total entries := by
  induction entries with
  | nil => exact Int.le_refl _
  | cons e rest ih =>
    show 0 ≤ (e.2.bytes : Int) + total rest
    omega

/-- What the loop of `trim` leaves: no entry with a promise goes, and there is room, or every
entry that is left has a promise. -/
theorem trimLoop_spec (o : CacheOptions V) (reserve : Nat) (entries : List (String × CacheEntry V)) (size : Nat)
    (bytes : Int) (hsize : entries.length ≤ size) :
    (trimLoop o reserve entries size bytes).1.Sublist entries ∧
    (∀ e ∈ entries, e.2.promise.isSome = true → e ∈ (trimLoop o reserve entries size bytes).1) ∧
    (trimLoop o reserve entries size bytes).2 = bytes - total entries + total (trimLoop o reserve entries size bytes).1 ∧
    ((size - entries.length + (trimLoop o reserve entries size bytes).1.length + reserve ≤ o.entries ∧
        o.fits (trimLoop o reserve entries size bytes).2) ∨
      ∀ e ∈ (trimLoop o reserve entries size bytes).1, e.2.promise.isSome = true) := by
  induction entries generalizing size bytes with
  | nil =>
    refine ⟨List.Sublist.refl _, (fun _ h => by cases h), ?_, Or.inr (fun _ h => by cases h)⟩
    simp [trimLoop, total]
  | cons e rest ih =>
    rw [List.length_cons] at hsize
    by_cases hroom : size + reserve ≤ o.entries ∧ o.fits bytes
    · rw [trimLoop, if_pos hroom]
      refine ⟨List.Sublist.refl _, fun _ h _ => h, ?_, Or.inl ⟨?_, hroom.2⟩⟩
      · show bytes = bytes - total (e :: rest) + total (e :: rest)
        omega
      · rw [List.length_cons]
        omega
    · by_cases hnone : e.2.promise.isNone = true
      · rw [trimLoop, if_neg hroom, if_pos hnone]
        obtain ⟨hsub, hkept, hbytes, hend⟩ := ih (size - 1) (bytes - e.2.bytes) (by omega)
        refine ⟨hsub.cons e, fun x hx hp => ?_, ?_, ?_⟩
        · rcases List.mem_cons.mp hx with rfl | hx
          · rw [Option.isNone_iff_eq_none.mp hnone] at hp
            cases hp
          · exact hkept x hx hp
        · rw [hbytes]
          show _ = bytes - ((e.2.bytes : Int) + total rest) + _
          omega
        · rw [List.length_cons]
          exact hend.imp_left fun hl => ⟨by omega, hl.2⟩
      · rw [trimLoop, if_neg hroom, if_neg hnone]
        obtain ⟨hsub, hkept, hbytes, hend⟩ := ih size bytes (by omega)
        have hsome : e.2.promise.isSome = true := Option.isSome_iff_ne_none.mpr (by simpa using hnone)
        refine ⟨hsub.cons_cons e, fun x hx hp => ?_, ?_, ?_⟩
        · rcases List.mem_cons.mp hx with rfl | hx
          · exact List.mem_cons_self
          · exact List.mem_cons_of_mem _ (hkept x hx hp)
        · show (trimLoop o reserve rest size bytes).2 =
            bytes - ((e.2.bytes : Int) + total rest) + ((e.2.bytes : Int) + total (trimLoop o reserve rest size bytes).1)
          omega
        · rcases hend with ⟨hl, hf⟩ | hall
          · left
            refine ⟨?_, hf⟩
            simp only [List.length_cons]
            omega
          · right
            intro x hx
            rcases List.mem_cons.mp hx with rfl | hx
            · exact hsome
            · exact hall x hx

theorem total_sublist {l l' : List (String × CacheEntry V)} (h : l'.Sublist l) : total l' ≤ total l := by
  induction h with
  | slnil => exact Int.le_refl _
  | cons e _ ih =>
    show _ ≤ (e.2.bytes : Int) + total _
    omega
  | cons_cons e _ ih =>
    show (e.2.bytes : Int) + total _ ≤ (e.2.bytes : Int) + total _
    omega

theorem total_perm {l l' : List (String × CacheEntry V)} (h : l'.Perm l) : total l' = total l := by
  unfold total
  exact (h.map _).sum_eq

theorem total_subperm {l l' : List (String × CacheEntry V)} (h : l'.Subperm l) : total l' ≤ total l := by
  obtain ⟨m, hperm, hsub⟩ := h
  calc total l' = total m := (total_perm hperm).symm
    _ ≤ total l := total_sublist hsub

theorem total_filter (test : String × CacheEntry V → Bool) (l : List (String × CacheEntry V)) :
    total (l.filter (fun e => !test e)) + total (l.filter test) = total l := by
  induction l with
  | nil => rfl
  | cons e l ih =>
    have hcons : total (e :: l) = (e.2.bytes : Int) + total l := rfl
    cases ht : test e with
    | true =>
      rw [List.filter_cons_of_neg (by simp [ht]), List.filter_cons_of_pos ht, hcons]
      show total (l.filter fun e => !test e) + ((e.2.bytes : Int) + total (l.filter test)) = _
      omega
    | false =>
      rw [List.filter_cons_of_pos (by simp [ht]), List.filter_cons_of_neg (by simp [ht]), hcons]
      show (e.2.bytes : Int) + total (l.filter fun e => !test e) + total (l.filter test) = _
      omega

/-- The cache lost entries, none of them with a promise, and the total went down with them. -/
structure Shrunk (s t : Cache V) : Prop where
  loads : t.loads = s.loads
  nextId : t.nextId = s.nextId
  entries : t.entries.Subperm s.entries
  kept : ∀ e ∈ s.entries, e.2.promise.isSome = true → e ∈ t.entries
  bytes : t.bytes = s.bytes - total s.entries + total t.entries

theorem Shrunk.trans {u : Cache V} (h : Shrunk s t) (h' : Shrunk t u) : Shrunk s u :=
  ⟨h'.loads.trans h.loads, h'.nextId.trans h.nextId, h'.entries.trans h.entries,
    fun e he hp => h'.kept e (h.kept e he hp) hp, by rw [h'.bytes, h.bytes]; omega⟩

theorem shrunk_trim (s : Cache V) (o : CacheOptions V) (reserve : Nat) : Shrunk s (s.trim o reserve) := by
  obtain ⟨hsub, hkept, hbytes, _⟩ := trimLoop_spec o reserve s.entries s.entries.length s.bytes (Nat.le_refl _)
  exact ⟨rfl, rfl, hsub.subperm, hkept, hbytes⟩

/-- After `trim` there is room within the limits, or every entry has a promise. -/
theorem trim_room (s : Cache V) (o : CacheOptions V) (reserve : Nat) :
    ((s.trim o reserve).entries.length + reserve ≤ o.entries ∧ o.fits (s.trim o reserve).bytes) ∨
      ∀ e ∈ (s.trim o reserve).entries, e.2.promise.isSome = true := by
  obtain ⟨_, _, _, hend⟩ := trimLoop_spec o reserve s.entries s.entries.length s.bytes (Nat.le_refl _)
  rw [Nat.sub_self, Nat.zero_add] at hend
  exact hend

theorem bytes_removeAll (s : Cache V) (test : String × CacheEntry V → Bool) :
    (s.removeAll test).bytes = s.bytes - total s.entries + total (s.removeAll test).entries := by
  have := total_filter test s.entries
  show s.bytes - total (s.entries.filter test) = s.bytes - total s.entries + total (s.entries.filter fun e => !test e)
  omega

theorem shrunk_removeAll (s : Cache V) {test : String × CacheEntry V → Bool}
    (h : ∀ e, test e = true → e.2.promise.isNone = true) : Shrunk s (s.removeAll test) := by
  refine ⟨rfl, rfl, List.filter_sublist.subperm, fun e he hp => List.mem_filter.mpr ⟨he, ?_⟩, bytes_removeAll s test⟩
  cases ht : test e with
  | false => rfl
  | true =>
    rw [Option.isNone_iff_eq_none.mp (h e ht)] at hp
    cases hp

theorem shrunk_touch (hnd : (keys s.entries).Nodup) {key : String} {e : CacheEntry V}
    (h : s.entries.lookup key = some e) : Shrunk s { s with entries := put s.entries key e } := by
  have hperm := put_perm hnd h
  refine ⟨rfl, rfl, hperm.subperm, fun x hx _ => hperm.mem_iff.mpr hx, ?_⟩
  show s.bytes = s.bytes - total s.entries + total (put s.entries key e)
  rw [total_perm hperm]
  omega

theorem shrunk_prune (s : Cache V) (o : CacheOptions V) (now : Int) : Shrunk s (s.prune o now) := by
  refine Shrunk.trans (shrunk_removeAll s fun e he => ?_) (shrunk_trim _ o 0)
  rw [Bool.and_eq_true] at he
  exact he.1

end

end

end ForwardX.Panel.QueryCache
