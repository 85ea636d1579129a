import ForwardX.Lib.Slots
import ForwardX.Lib.Transition
import ForwardX.Fxp.ReplayCache
import ForwardX.Fxp.SecureConn

/- The V1/V2 server handshake (`main.go`, `newServerSecureConnWithWires` and
   `finishServerHandshake`) of any number of connections that share the process's
   replay cache. A connection is the bytes it delivers, whoever sends them; its
   first frame is opened under each wire context in turn, its salt is added to the
   cache, and the reply is sealed under keys derived from the salt alone.

   The timestamp in the frame is not checked against the clock, so what stops a
   replay is the cache, and the cache forgets after `fxpHandshakeWindow`: `acceptedOnce`
   is what holds within it, `accepted_after_window` what happens at its end. -/
namespace ForwardX.Fxp.ServerHandshake
open Wire Aead Transition Slots Replay

def fxpHandshakeVersion : Int := 2
def fxpSaltSize : Nat := 32
def fxpHandshakeWindow : Int := 300000000000

/-- `fxpWireContext`. -/
structure WireContext where
  name : String
  sessionInfo : Bytes
  lengthAD : Bytes
  payloadAD : Bytes
  masterContext : String
  compat : Bool

def fxpWireCurrent : WireContext where
  name := "current"
  sessionInfo := "forwardx-fxp-v2 session".toUTF8.toList
  lengthAD := "forwardx-fxp-v2 length".toUTF8.toList
  payloadAD := "forwardx-fxp-v2 payload".toUTF8.toList
  masterContext := "forwardx-fxp-v2 master"
  compat := false

def fxpWireCompat2390 : WireContext where
  name := "2.3.90-compat"
  sessionInfo := "forwardx-fxp session".toUTF8.toList
  lengthAD := "forwardx-fxp length".toUTF8.toList
  payloadAD := "forwardx-fxp payload".toUTF8.toList
  masterContext := "forwardx-fxp master"
  compat := true

def fxpWireContexts : List WireContext := [fxpWireCurrent, fxpWireCompat2390]

/-- The fields of the configuration that the handshake reads. -/
structure Config where
  tunnelID : Int
  ruleID : Int
  listenPort : Int
  key : String

structure FxpHandshake where
  v : Int
  ts : Int
  tunnelID : Int

/-- The hash, the key derivation, AES-GCM and JSON, as the handshake uses them. -/
structure Primitives where
  sha256 : Bytes → Bytes
  blake3Derive : Bytes → Bytes → Bytes → String → Nat → Bytes
  newAEAD : Bytes → Cipher
  unmarshal : Bytes → Option FxpHandshake
  marshal : FxpHandshake → Bytes

/-- The key `replayKey` formats, as the fields it is made of. -/
structure ReplayKey where
  tunnelID : Int
  ruleID : Int
  listenPort : Int
  salt : Bytes
  deriving DecidableEq, Repr

def replayKey (cfg : Config) (salt : Bytes) : ReplayKey :=
  ⟨cfg.tunnelID, cfg.ruleID, cfg.listenPort, salt⟩

def newSessionSecureConnWithWire (P : Primitives) (key : String) (salt : Bytes) (client : Bool)
    (wire : WireContext) : SecureConn :=
  let master := P.sha256 key.toUTF8.toList
  let material := P.blake3Derive master salt wire.sessionInfo wire.masterContext 128
  let c2sLen := P.newAEAD (material.take 32)
  let c2sData := P.newAEAD ((material.drop 32).take 32)
  let s2cLen := P.newAEAD ((material.drop 64).take 32)
  let s2cData := P.newAEAD ((material.drop 96).take 32)
  if client then
    { maxReadFrame := 0, lenWriteAEAD := c2sLen, dataWriteAEAD := c2sData, lenReadAEAD := s2cLen,
      dataReadAEAD := s2cData, lengthAD := wire.lengthAD, payloadAD := wire.payloadAD,
      writeDir := fxpEntryToExit, readDir := fxpExitToEntry, writeCounter := 0, readCounter := 0 }
  else
    { maxReadFrame := 0, lenWriteAEAD := s2cLen, dataWriteAEAD := s2cData, lenReadAEAD := c2sLen,
      dataReadAEAD := c2sData, lengthAD := wire.lengthAD, payloadAD := wire.payloadAD,
      writeDir := fxpExitToEntry, readDir := fxpEntryToExit, writeCounter := 0, readCounter := 0 }

/-- A first frame that opened: its wire context, its session and its plaintext. -/
structure Opened where
  wire : WireContext
  sec : SecureConn
  ack : Bytes

/-- The loop of `newServerSecureConnWithWires` over the wire contexts, up to the
replay cache; `rest` is what the connection delivers after the sealed length. -/
def openFirstFrame (P : Primitives) (cfg : Config) (salt lenCipher rest : Bytes) :
    List WireContext → Option Opened
  | [] => none
  | wire :: wires =>
    let sec := newSessionSecureConnWithWire P cfg.key salt false wire
    match sec.decryptFrameLength 0 lenCipher with
    | none => openFirstFrame P cfg salt lenCipher rest wires
    | some n =>
      if rest.length < n + Cipher.overhead then none
      else
        match sec.decryptFrameData 0 (rest.take (n + Cipher.overhead)) with
        | none => none
        | some ack => some ⟨wire, { sec with readCounter := 1 }, ack⟩

/-- `newServerSecureConnWithWires` up to the replay cache, on a connection that
delivers `stream` before it ends or times out. -/
def readFirstFrame (P : Primitives) (cfg : Config) (stream : Bytes) : Option (Bytes × Opened) :=
  let lenSize := 4 + Cipher.overhead
  if stream.length < fxpSaltSize + lenSize then none
  else
    let salt := stream.take fxpSaltSize
    let lenCipher := (stream.drop fxpSaltSize).take lenSize
    (openFirstFrame P cfg salt lenCipher (stream.drop (fxpSaltSize + lenSize)) fxpWireContexts).map
      (fun o => (salt, o))

/-- What `finishServerHandshake` does: it rejects the frame, or seals a reply and
returns the connection or the error of the write. `ts` is the clock in seconds. -/
structure Finished where
  sealings : List (Sealing FrameKey)
  completed : Bool

def finishServerHandshake (P : Primitives) (cfg : Config) (o : Opened) (ts : Int) (ws : List Wrote) :
    Finished :=
  match P.unmarshal o.ack with
  | none => ⟨[], false⟩
  | some hs =>
    if hs.v ≠ fxpHandshakeVersion ∨ hs.tunnelID ≠ cfg.tunnelID then ⟨[], false⟩
    else if hs.ts ≤ 0 then ⟨[], false⟩
    else
      -- a timestamp outside the window is logged and accepted
      let reply := P.marshal ⟨fxpHandshakeVersion, ts, cfg.tunnelID⟩
      let r := writeEncryptedFrame o.sec reply ws
      ⟨r.sealings, r.err.isNone⟩

/-- Where a connection stands: its first frame has opened; `Add` has read the clock
and waits for the lock; the cache has admitted it; the cache has refused it; or
`finishServerHandshake` has returned. -/
inductive Stage where
  | opened (o : Opened)
  | timed (o : Opened) (now : Int)
  | admitted (o : Opened)
  | refused
  | finished (r : Finished)

structure Conn where
  cfg : Config
  salt : Bytes
  stage : Stage

def Conn.key (x : Conn) : ReplayKey := replayKey x.cfg x.salt

/-- The process: its replay cache, a clock that does not run backwards, its
connections, and of the past the latest time at which the cache was swept and the
keys it has admitted with the time of each. -/
structure Server where
  cache : ReplayCache ReplayKey
  clock : Int
  conns : List Conn
  swept : Int
  admissions : List (ReplayKey × Int)

def Server.init : Server := ⟨newReplayCache fxpHandshakeWindow 100000, 0, [], 0, []⟩

/-- What can happen next: time passes; a connection has delivered bytes that open;
its `Add` reads the clock; its `Add` takes the lock; it finishes, at the time `ts`
in seconds and with the answers `ws` of the socket to the reply. -/
inductive Act where
  | tick (d : Nat)
  | present (cfg : Config) (stream : Bytes)
  | clock (i : Nat)
  | add (i : Nat)
  | finish (i : Nat) (ts : Int) (ws : List Wrote)

def Server.put (s : Server) (i : Nat) (x : Conn) : Server := { s with conns := s.conns.set i x }

/-- The `Add` of connection `i`, at the clock reading `now`. -/
def Server.add (s : Server) (i : Nat) (x : Conn) (o : Opened) (now : Int) : Server :=
  let r := addAt s.cache x.key now
  let s := { s with cache := r.2, swept := max s.swept now }
  if r.1 then
    { s.put i { x with stage := .admitted o } with admissions := (x.key, now) :: s.admissions }
  else s.put i { x with stage := .refused }

/-- One step of the process; `none` where the action is not enabled. -/
def step (P : Primitives) (s : Server) : Act → Option Server
  | .tick d => some { s with clock := s.clock + d }
  | .present cfg stream => (readFirstFrame P cfg stream).map fun r =>
    { s with conns := s.conns ++ [⟨cfg, r.1, .opened r.2⟩] }
  | .clock i => (s.conns[i]?).bind fun x =>
    match x.stage with
    | .opened o => some (s.put i { x with stage := .timed o s.clock })
    | _ => none
  | .add i => (s.conns[i]?).bind fun x =>
    match x.stage with
    | .timed o now =>
      some (s.add i x o now)
    | _ => none
  | .finish i ts ws => (s.conns[i]?).bind fun x =>
    match x.stage with
    | .admitted o =>
      some (s.put i { x with stage := .finished (finishServerHandshake P x.cfg o ts ws) })
    | _ => none

def server (P : Primitives) : Steps Server Act := Steps.ofFn (step P)

/-- The connection has completed `finishServerHandshake`. -/
def Conn.Completed (x : Conn) : Prop := ∃ r, x.stage = .finished r ∧ r.completed = true

def Conn.Replied (x : Conn) : Prop := ∃ r, x.stage = .finished r ∧ r.sealings ≠ []

/-- On every listener scope and for every salt, at most one connection completes, and
at most one seals a reply. -/
def AcceptedOnce (s : Server) : Prop :=
  ∀ (i j : Nat) (x y : Conn), s.conns[i]? = some x → s.conns[j]? = some y → x.key = y.key →
    (x.Completed → y.Completed → i = j) ∧ (x.Replied → y.Replied → i = j)

/-- Between the admission of a salt and a later `Add` of it the cache admits fewer
salts than it can hold; those at the very time of the first count. -/
def FewBetween (s : Server) : Act → Prop
  | .add i => ∀ x, s.conns[i]? = some x → ∀ t, (x.key, t) ∈ s.admissions →
      (s.admissions.countP (fun a => decide (t ≤ a.2)) : Int) ≤ s.cache.max
  | _ => True

/-- A salt is added again only before its first admission is `ttl` old, by the time
of its own `Add` and of those before it. -/
def InWindow (s : Server) : Act → Prop
  | .add i => ∀ x o now, s.conns[i]? = some x → x.stage = .timed o now →
      ∀ t, (x.key, t) ∈ s.admissions → max s.swept now < t + s.cache.ttl
  | _ => True

/-! ## The log of the cache -/

/-- What the cache retains was admitted, and it retains every admission that has
neither expired nor been followed by too many others. -/
structure Logged (c : ReplayCache ReplayKey) (swept : Int)
    (admissions : List (ReplayKey × Int)) : Prop where
  cache : CacheOk c
  admitted : (c.seen.map (fun e => (e.key, e.expiresAt - c.ttl))).Subperm admissions
  retained : ∀ k t, (k, t) ∈ admissions → swept < t + c.ttl →
    (admissions.countP (fun a => decide (t ≤ a.2)) : Int) ≤ c.max →
    ⟨k, t + c.ttl⟩ ∈ c.seen

theorem Logged.new (ttl max : Int) : Logged (newReplayCache ttl max) 0 [] where
  cache := CacheOk.new _ _
  admitted := List.Subperm.refl _
  retained _ _ h := nomatch h

variable {admissions : List (ReplayKey × Int)}

/-- The entries that expire no earlier than an admission are no more than the
admissions that are no older. -/
theorem countP_seen_le {seen : List (ReplayExpiry ReplayKey)} {ttl : Int}
    (h : (seen.map (fun e => (e.key, e.expiresAt - ttl))).Subperm admissions) (t : Int) :
    seen.countP (fun e => decide (t + ttl ≤ e.expiresAt)) ≤
      admissions.countP (fun a => decide (t ≤ a.2)) := by
  have hle := h.countP_le (p := fun a => decide (t ≤ a.2))
  rw [List.countP_map] at hle
  refine Nat.le_trans (Nat.le_of_eq (List.countP_congr fun e _ => ?_)) hle
  simp only [Function.comp, decide_eq_true_eq]
  omega

theorem Logged.addAt {c : ReplayCache ReplayKey} {swept : Int} (h : Logged c swept admissions) (key : ReplayKey)
    (now : Int) : Logged (addAt c key now).2 (max swept now)
      (if (addAt c key now).1 then (key, now) :: admissions else admissions) := by
  obtain ⟨hok, httl, hmax, hsub, hkeep⟩ := addAt_spec h.cache key now
  -- the entries before the loop that cuts back, and the admissions they come from
  generalize hseen : (if (Replay.addAt c key now).1 then
    (⟨key, now + c.ttl⟩ :: c.seen : List (ReplayExpiry ReplayKey)) else c.seen) = seen
    at hsub hkeep
  generalize hadm : (if (Replay.addAt c key now).1 then (key, now) :: admissions
    else admissions) = admissions'
  have hmap : (seen.map (fun e => (e.key, e.expiresAt - c.ttl))).Subperm admissions' := by
    rw [← hseen, ← hadm]
    split
    · rw [List.map_cons]
      have hnow : now + c.ttl - c.ttl = now := by omega
      rw [hnow]
      exact (List.subperm_cons _).mpr h.admitted
    · exact h.admitted
  have hmem : ∀ k t, (k, t) ∈ admissions' → max swept now < t + c.ttl →
      (admissions'.countP (fun a => decide (t ≤ a.2)) : Int) ≤ c.max →
      ⟨k, t + c.ttl⟩ ∈ seen := by
    intro k t
    rw [← hseen, ← hadm]
    split
    · intro hin hwindow hfew
      rcases List.mem_cons.mp hin with heq | hin
      · obtain ⟨rfl, rfl⟩ := Prod.mk.inj heq
        exact List.mem_cons_self
      · refine List.mem_cons_of_mem _ (h.retained k t hin (by omega) ?_)
        have hle := (List.sublist_cons_self (key, now) admissions).countP_le
          (p := fun a => decide (t ≤ a.2))
        omega
    · intro hin hwindow hfew
      exact h.retained k t hin (by omega) hfew
  refine ⟨hok, ?_, ?_⟩
  · rw [httl]
    obtain ⟨l, hperm, hlist⟩ := hsub
    exact List.Subperm.trans ⟨_, hperm.map _, hlist.map _⟩ hmap
  · intro k t hin hwindow hfew
    rw [httl] at hwindow ⊢
    rw [hmax] at hfew
    rcases hkeep _ (hmem k t hin hwindow hfew) (show now < t + c.ttl by omega) with hkept | hcount
    · exact hkept
    · have hle := countP_seen_le hmap t
      dsimp only at hcount
      omega

theorem Logged.refuses {c : ReplayCache ReplayKey} {swept : Int} (h : Logged c swept admissions) {k : ReplayKey}
    {t now : Int} (hmem : (k, t) ∈ admissions) (hwindow : max swept now < t + c.ttl)
    (hfew : (admissions.countP (fun a => decide (t ≤ a.2)) : Int) ≤ c.max) : (Replay.addAt c k now).1 = false := by
  refine (addAt_eq_false_iff h.cache k now).mpr ⟨t + c.ttl, ?_, ?_⟩
  · exact h.retained k t hmem (by omega) hfew
  · omega

/-! ## The connections -/

def Stage.Passed : Stage → Prop
  | .admitted _ | .finished _ => True
  | _ => False

/-- The log is kept, every connection the cache has let through is in it, and of the
connections with one key it has let one through. -/
structure Inv (s : Server) : Prop where
  log : Logged s.cache s.swept s.admissions
  passed : ∀ x ∈ s.conns, x.stage.Passed → ∃ t, (x.key, t) ∈ s.admissions
  one : ∀ (i j : Nat) (x y : Conn), s.conns[i]? = some x → s.conns[j]? = some y →
    x.key = y.key → x.stage.Passed → y.stage.Passed → i = j

theorem Inv.init : Inv Server.init where
  log := Logged.new _ _
  passed _ h := nomatch h
  one _ _ _ _ h := nomatch h

/-- A connection goes on without the cache: it had been let through if it has now. -/
theorem Inv.put {s : Server} (h : Inv s) {i : Nat} {x x' : Conn} (hx : s.conns[i]? = some x)
    (hkey : x'.key = x.key) (hpassed : x'.stage.Passed → x.stage.Passed) : Inv (s.put i x') := by
  -- every connection stands for an old one, of the same slot and key
  have hold : ∀ (j : Nat) (y : Conn), (s.put i x').conns[j]? = some y → y.stage.Passed →
      ∃ z, s.conns[j]? = some z ∧ z.key = y.key ∧ z.stage.Passed := by
    intro j y hy hpass
    rcases getElem?_set_cases hy with ⟨rfl, rfl⟩ | ⟨hj, hy⟩
    · exact ⟨x, hx, hkey.symm, hpassed hpass⟩
    · exact ⟨y, hy, rfl, hpass⟩
  refine ⟨h.log, fun y hy hpass => ?_, fun j k y z hy hz hsame hpy hpz => ?_⟩
  · obtain ⟨j, hj⟩ := List.mem_iff_getElem?.mp hy
    obtain ⟨z, hz, hzkey, hzpass⟩ := hold j y hj hpass
    exact hzkey ▸ h.passed z (List.mem_of_getElem? hz) hzpass
  · obtain ⟨y', hy', hykey, hy'pass⟩ := hold j y hy hpy
    obtain ⟨z', hz', hzkey, hz'pass⟩ := hold k z hz hpz
    exact h.one j k y' z' hy' hz' (by rw [hykey, hzkey, hsame]) hy'pass hz'pass

/-- A call of `Add`, of a key that the cache refuses if it has admitted it. -/
theorem Inv.add {s : Server} (h : Inv s) {i : Nat} {x : Conn} {o : Opened} {now : Int}
    (hx : s.conns[i]? = some x)
    (hrefuses : ∀ t, (x.key, t) ∈ s.admissions → (addAt s.cache x.key now).1 = false) :
    Inv (s.add i x o now) := by
  have hlog := h.log.addAt x.key now
  unfold Server.add
  dsimp only
  split
  · rename_i hadmit
    rw [if_pos hadmit] at hlog
    -- the connection is the first with its key that the cache lets through
    have hnone : ∀ y ∈ s.conns, y.stage.Passed → x.key ≠ y.key := by
      intro y hy hpass hkey
      obtain ⟨t, ht⟩ := h.passed y hy hpass
      rw [← hkey] at ht
      rw [hrefuses t ht] at hadmit
      cases hadmit
    refine ⟨hlog, fun y hy hpass => ?_, fun j k y z hy hz hsame hpy hpz => ?_⟩
    · rcases List.mem_or_eq_of_mem_set hy with hy | rfl
      · obtain ⟨t, ht⟩ := h.passed y hy hpass
        exact ⟨t, List.mem_cons_of_mem _ ht⟩
      · exact ⟨now, List.mem_cons_self⟩
    · rcases getElem?_set_cases hy with ⟨rfl, rfl⟩ | ⟨hj, hy₀⟩
      · rcases getElem?_set_cases hz with ⟨rfl, rfl⟩ | ⟨hk, hz₀⟩
        · rfl
        · exact absurd hsame (hnone z (List.mem_of_getElem? hz₀) hpz)
      · rcases getElem?_set_cases hz with ⟨rfl, rfl⟩ | ⟨hk, hz₀⟩
        · exact absurd hsame.symm (hnone y (List.mem_of_getElem? hy₀) hpy)
        · exact h.one j k y z hy₀ hz₀ hsame hpy hpz
  · rename_i hrefused
    rw [if_neg hrefused] at hlog
    have hput : Inv (s.put i { x with stage := .refused }) := h.put hx rfl (fun hp => hp.elim)
    exact ⟨hlog, hput.passed, hput.one⟩

theorem Inv.step {P : Primitives} {s s' : Server} {a : Act} (h : Inv s) (hin : InWindow s a)
    (hfew : FewBetween s a) (hstep : step P s a = some s') : Inv s' := by
  cases a with
  | tick d =>
    obtain rfl := Option.some.inj hstep
    exact ⟨h.log, h.passed, h.one⟩
  | present cfg stream =>
    obtain ⟨r, -, rfl⟩ := Option.map_eq_some_iff.mp hstep
    refine ⟨h.log, fun y hy hpass => ?_, fun j k y z hy hz hsame hpy hpz => ?_⟩
    · rcases List.mem_append.mp hy with hy | hy
      · exact h.passed y hy hpass
      · obtain rfl := List.mem_singleton.mp hy
        exact hpass.elim
    · rcases getElem?_concat_cases hy with ⟨rfl, rfl⟩ | ⟨-, hy⟩
      · exact hpy.elim
      · rcases getElem?_concat_cases hz with ⟨rfl, rfl⟩ | ⟨-, hz⟩
        · exact hpz.elim
        · exact h.one j k y z hy hz hsame hpy hpz
  | clock i =>
    obtain ⟨x, hx, hstep⟩ := Option.bind_eq_some_iff.mp hstep
    split at hstep
    · obtain rfl := Option.some.inj hstep
      exact h.put hx rfl (fun hp => hp.elim)
    · cases hstep
  | add i =>
    obtain ⟨x, hx, hstep⟩ := Option.bind_eq_some_iff.mp hstep
    split at hstep
    · rename_i o now hstage
      obtain rfl := Option.some.inj hstep
      exact h.add hx (fun t ht =>
        h.log.refuses ht (hin x o now hx hstage t ht) (hfew x hx t ht))
    · cases hstep
  | finish i ts ws =>
    obtain ⟨x, hx, hstep⟩ := Option.bind_eq_some_iff.mp hstep
    split at hstep
    · rename_i o hstage
      obtain rfl := Option.some.inj hstep
      exact h.put hx rfl (fun _ => hstage ▸ trivial)
    · cases hstep

theorem Inv.once {s : Server} (h : Inv s) : AcceptedOnce s := by
  intro i j x y hx hy hkey
  refine ⟨fun hcx hcy => ?_, fun hrx hry => ?_⟩
  · obtain ⟨r, hr, -⟩ := hcx
    obtain ⟨r', hr', -⟩ := hcy
    exact h.one i j x y hx hy hkey (hr ▸ trivial) (hr' ▸ trivial)
  · obtain ⟨r, hr, -⟩ := hrx
    obtain ⟨r', hr', -⟩ := hry
    exact h.one i j x y hx hy hkey (hr ▸ trivial) (hr' ▸ trivial)

/-- In every run in which a salt is added again only within the window of its first
admission, of the connections that carry it at most one completes, and at most one
seals a reply. -/
theorem acceptedOnce (P : Primitives) (as : List Act) (s : Server)
    (hrun : Run (Guarded InWindow (Guarded FewBetween (server P))) Server.init as s) :
    AcceptedOnce s := by
  have hinv : Inv s := hrun.preserves
    (fun s a s' hs h => h.step hs.1 hs.2.1 hs.2.2) Inv.init
  exact hinv.once

/-! ## A replay before and after the window closes -/

/-- `{"v":2,"ts":1,"tunnelId":5}`. -/
def firstAck : Bytes :=
  [123, 34, 118, 34, 58, 50, 44, 34, 116, 115, 34, 58, 49, 44, 34, 116, 117, 110, 110, 101, 108,
    73, 100, 34, 58, 53, 125]

/-- Ciphers that hide nothing, and a JSON that knows one frame. -/
def plainPrimitives : Primitives where
  sha256 _ := []
  blake3Derive _ _ _ _ n := List.replicate n 0
  newAEAD _ := .null
  unmarshal b := if b = firstAck then some ⟨2, 1, 5⟩ else none
  marshal _ := firstAck

def listener : Config := ⟨5, 8, 4433, "k"⟩

def recorded : Bytes :=
  List.replicate 32 7 ++ ([0, 0, 0, 27] ++ List.replicate 16 0) ++ (firstAck ++ List.replicate 16 0)

def few (s : Server) (_ : Act) : Bool := decide (s.admissions.length ≤ s.cache.max)

theorem fewBetween_of_few {s : Server} {a : Act} (h : few s a = true) : FewBetween s a := by
  cases a with
  | add i =>
    intro x _ t _
    have hle := List.countP_le_length (p := fun a : ReplayKey × Int => decide (t ≤ a.2))
      (l := s.admissions)
    have hlen := of_decide_eq_true h
    omega
  | tick d => trivial
  | present cfg stream => trivial
  | clock i => trivial
  | finish i ts ws => trivial

/-- An `Add` made while every admission is in its window. -/
def early (s : Server) : Act → Bool
  | .add _ => s.conns.all fun x =>
    match x.stage with
    | .timed _ now => s.admissions.all fun a => decide (max s.swept now < a.2 + s.cache.ttl)
    | _ => true
  | _ => true

theorem inWindow_of_early {s : Server} {a : Act} (h : early s a = true) : InWindow s a := by
  cases a with
  | add i =>
    intro x o now hx hstage t ht
    have hall := List.all_eq_true.mp h x (List.mem_of_getElem? hx)
    simp only [hstage, List.all_eq_true, decide_eq_true_eq] at hall
    exact hall (x.key, t) ht
  | tick d => trivial
  | present cfg stream => trivial
  | clock i => trivial
  | finish i ts ws => trivial

/-- A client's first frame, and its replay `d` nanoseconds later. -/
def replayAfter (d : Nat) : List Act :=
  [.present listener recorded, .clock 0, .add 0, .finish 0 2 [⟨1000, false⟩], .tick d,
    .present listener recorded, .clock 1, .add 1]

/-- The replay of a client's frame just before the window closes is refused. -/
theorem acceptedOnce_replayed :
    ∃ s, (∃ x y, s.conns = [x, y] ∧ x.Completed ∧ y.stage = .refused) ∧ AcceptedOnce s := by
  have hexec : ∃ s, exec (fun s a => if few s a && early s a then step plainPrimitives s a else none)
      Server.init (replayAfter 299999999999) = some s ∧
      ∃ x y, s.conns = [x, y] ∧ x.Completed ∧ y.stage = .refused :=
    ⟨_, rfl, _, _, rfl, ⟨_, rfl, rfl⟩, rfl⟩
  obtain ⟨s, hexec, hconns⟩ := hexec
  have hrun := exec_guarded (G := fun s a => InWindow s a ∧ FewBetween s a)
    (fun s a h => ⟨inWindow_of_early (Bool.and_eq_true_iff.mp h).2,
      fewBetween_of_few (Bool.and_eq_true_iff.mp h).1⟩) hexec
  exact ⟨s, hconns, acceptedOnce plainPrimitives _ s
    (hrun.mono fun _ _ _ h => ⟨h.1.1, h.1.2, h.2⟩)⟩

/-- A client's frame replayed when the window closes is accepted, and answered, once
more. -/
theorem accepted_after_window :
    ¬ ∀ (P : Primitives) (as : List Act) (s : Server),
      Run (Guarded FewBetween (server P)) Server.init as s → AcceptedOnce s := by
  intro h
  have hexec : ∃ s, exec (fun s a => if few s a then step plainPrimitives s a else none) Server.init
      (replayAfter 300000000000 ++ [.finish 1 302 [⟨1000, false⟩]]) = some s ∧
      ∃ x y, s.conns = [x, y] ∧ x.key = y.key ∧ x.Completed ∧ y.Completed :=
    ⟨_, rfl, _, _, rfl, rfl, ⟨_, rfl, rfl⟩, ⟨_, rfl, rfl⟩⟩
  obtain ⟨s, hexec, x, y, hconns, hkey, hx, hy⟩ := hexec
  have honce := h _ _ s (exec_guarded (fun _ _ => fewBetween_of_few) hexec)
  have heq := (honce 0 1 x y (by rw [hconns]; rfl) (by rw [hconns]; rfl) hkey).1 hx hy
  cases heq

end ForwardX.Fxp.ServerHandshake
