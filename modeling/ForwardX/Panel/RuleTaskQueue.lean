import ForwardX.Lib.AsciiText
import ForwardX.Lib.Rows
import ForwardX.Lib.Transition

/- The queue of rule tasks (`ruleTaskQueue.ts`): one writer that rotates the jobs after each item.
   `drain` is entered by `setImmediate` and may be entered again while an earlier call awaits an
   action or its turn; the calls that wait are part of the state. A queue also keeps what was
   submitted and the `execute` calls so far, in order. -/
namespace ForwardX.Panel.RuleTaskQueue
open Transition
open AsciiText (utf16)

/-- What is submitted; an action is of the type `α`. -/
structure Request (α : Type) where
  requestId : String
  title : String
  actions : List α

inductive JobState where
  | queued
  | running
  | completed
  | cancelled
  deriving DecidableEq

inductive ResultStatus where
  | succeeded
  | failed
  | skipped
  | cancelled
  deriving DecidableEq

/-- What `execute` resolves to. -/
structure RuleTaskValue where
  id : Option Int
  sourcePort : Option Int
  skipped : Option Bool
  deriving DecidableEq

/-- `RuleTaskResult`; `error` is cut by UTF-16 units, and may end within a character. -/
structure RuleTaskResult where
  index : Nat
  status : ResultStatus
  value : Option RuleTaskValue
  error : Option (List Nat)
  deriving DecidableEq

/-- `Job`, with the fields of its snapshot. An action that has settled is `none`. -/
structure Job (A α H ι : Type) where
  id : ι
  requestId : String
  title : String
  state : JobState
  total : Nat
  completed : Nat
  succeeded : Nat
  failed : Nat
  skipped : Nat
  cancelled : Nat
  createdAt : Int
  finishedAt : Option Int
  actor : A
  hash : H
  actions : List (Option α)
  results : List RuleTaskResult
  cancel : Bool
  payloadBytes : Nat
  deriving DecidableEq

/-- A call of `drain` that waits: for an action, or for `setImmediate` before the next one. -/
inductive Loop (ι : Type) where
  | executing (id : ι) (index : Nat)
  | pausing
  deriving DecidableEq

/-- A call of `execute`. -/
structure Execution (A α ι : Type) where
  id : ι
  actor : A
  index : Nat
  action : Option α
  deriving DecidableEq

structure Options where
  maxJobs : Option Nat
  maxPendingItems : Option Nat
  maxUserJobs : Option Nat
  retentionMs : Option Int

def Options.jobs (o : Options) : Nat := o.maxJobs.getD 100
def Options.pendingItems (o : Options) : Nat := o.maxPendingItems.getD 20000
def Options.userJobs (o : Options) : Nat := o.maxUserJobs.getD 3
def Options.retention (o : Options) : Int := o.retentionMs.getD (15 * 60000)

def maxRequestBytes : Nat := 2 * 1024 * 1024
def maxRequestActions : Nat := 5000
def maxPendingBytes : Nat := 8 * 1024 * 1024
def maxRetainedItems : Nat := 20000

/-- `RuleTaskQueue`. `immediates` counts the calls of `drain` that `setImmediate` still has to make. -/
structure Queue (A α H ι : Type) where
  jobs : List (Job A α H ι)
  ready : List ι
  active : Option ι
  draining : Bool
  loops : List (Loop ι)
  immediates : Nat
  submitted : List (ι × List α)
  executions : List (Execution A α ι)
  deriving DecidableEq

/-- What the queue takes from its surroundings: the user of an actor, and the length and the hash of
`JSON.stringify(request)`. -/
structure Env (A α H : Type) where
  userId : A → Int
  byteLength : Request α → Nat
  hash : Request α → H

/-- `finishedAt` as the code tests it: a time of 0 counts as none. -/
def truthy (finishedAt : Option Int) : Bool := finishedAt.any (fun t => t != 0)

section
variable {A α H ι : Type}

def Job.finished (job : Job A α H ι) : Bool := truthy job.finishedAt

/-- A job as it is submitted. -/
def Job.new (env : Env A α H) (actor : A) (request : Request α) (id : ι) (createdAt : Int) : Job A α H ι :=
  { id := id, requestId := request.requestId, title := request.title, state := .queued
    total := request.actions.length, completed := 0, succeeded := 0, failed := 0, skipped := 0, cancelled := 0
    createdAt := createdAt, finishedAt := none, actor := actor, hash := env.hash request
    actions := request.actions.map some, results := [], cancel := false, payloadBytes := env.byteLength request }

/-- How `execute` ends. An error that is not an `Error` has no message; `stop` is a
`RuleTaskStopError`. -/
inductive Outcome where
  | resolved (value : Option RuleTaskValue)
  | rejected (message : Option String) (stop : Bool)

/-- The result of the action, and whether it stops the job. -/
def Outcome.result (index : Nat) : Outcome → RuleTaskResult × Bool
  | .resolved value =>
    (⟨index, if (value.bind RuleTaskValue.skipped).getD false then .skipped else .succeeded, value, none⟩, false)
  | .rejected message stop =>
    (⟨index, .failed, none, some ((utf16 (message.getD "执行失败")).take 300)⟩, stop)

/-- The job once the action of a result has settled. -/
def Job.settle (job : Job A α H ι) (result : RuleTaskResult) (stop : Bool) : Job A α H ι :=
  { job with
    cancel := job.cancel || stop
    results := job.results ++ [result]
    completed := job.completed + 1
    failed := if result.status = .failed then job.failed + 1 else job.failed
    skipped := if result.status = .skipped then job.skipped + 1 else job.skipped
    succeeded := if result.status = .failed ∨ result.status = .skipped then job.succeeded else job.succeeded + 1
    actions := job.actions.set result.index none }

/-- The loop over what is left of a job that is cancelled. -/
def Job.cancelLeft : Nat → Job A α H ι → Job A α H ι
  | 0, job => job
  | left + 1, job => cancelLeft left
      { job with
        results := job.results ++ [⟨job.completed, .cancelled, none, none⟩]
        completed := job.completed + 1
        cancelled := job.cancelled + 1 }

/-- The job at the end of its turn: what is left is cancelled when it was cancelled, and it
finishes when nothing is left. -/
def Job.endTurn (job : Job A α H ι) (now : Int) : Job A α H ι :=
  let job := if job.cancel then job.cancelLeft (job.total - job.completed) else job
  if job.completed = job.total then
    { job with
      state := if 0 < job.cancelled then .cancelled else .completed
      finishedAt := some now
      actions := []
      payloadBytes := 0 }
  else job

/-- The loop that reclaims the oldest finished jobs while there is no room for `n` more items. -/
def reclaim (maxJobs n : Nat) : List (Job A α H ι) → Nat → Nat → List (Job A α H ι) × Nat
  | [], _, retainedItems => ([], retainedItems)
  | job :: rest, size, retainedItems =>
    if size < maxJobs ∧ retainedItems + n ≤ maxRetainedItems then (job :: rest, retainedItems)
    else if job.finished then reclaim maxJobs n rest (size - 1) (retainedItems - job.total)
    else
      let (kept, left) := reclaim maxJobs n rest size retainedItems
      (job :: kept, left)

namespace Queue

def initial : Queue A α H ι := ⟨[], [], none, false, [], 0, [], []⟩

def prune (q : Queue A α H ι) (opts : Options) (now : Int) : Queue A α H ι :=
  { q with jobs := q.jobs.filter fun job => !(job.finished && job.finishedAt.any (fun t => t < now - opts.retention)) }

/-- The items of the jobs that are kept, and those of the unfinished ones still to be done. -/
def retainedItems (q : Queue A α H ι) : Nat := (q.jobs.map Job.total).sum

def pendingItems (q : Queue A α H ι) : Nat :=
  (q.jobs.map fun job => if job.finished then 0 else job.total - job.completed).sum

def pendingBytes (q : Queue A α H ι) : Nat := (q.jobs.map fun job => if job.finished then 0 else job.payloadBytes).sum

def own (q : Queue A α H ι) (env : Env A α H) (userId : Int) : Nat :=
  (q.jobs.map fun job => if !job.finished && env.userId job.actor == userId then 1 else 0).sum

/-- The first job of a user with a request id. -/
def findRequest (q : Queue A α H ι) (env : Env A α H) (userId : Int) (requestId : String) : Option (Job A α H ι) :=
  q.jobs.find? fun job => env.userId job.actor == userId && job.requestId == requestId

variable [DecidableEq ι]

/-- `RuleTaskSnapshot`. -/
structure Snapshot (A α H ι : Type) where
  job : Job A α H ι
  queuePosition : Nat
  results : Option (List RuleTaskResult)

/-- `snapshot`: the job as it is, its position, and its results once it is finished. -/
def snapshot (q : Queue A α H ι) (job : Job A α H ι) : Snapshot A α H ι :=
  ⟨job, if job.finished || q.active == some job.id then 0 else (q.ready.idxOf? job.id).elim 0 (· + 1),
    if job.finished then some job.results else none⟩

/-- `enqueue`, with the id of the new job and the times that the clock reads. -/
def enqueue [DecidableEq H] (q : Queue A α H ι) (env : Env A α H) (opts : Options) (actor : A) (request : Request α)
    (id : ι) (now createdAt : Int) : Queue A α H ι × Except String (Snapshot A α H ι) :=
  let q := q.prune opts now
  let n := request.actions.length
  if maxRequestBytes < env.byteLength request ∨ n = 0 ∨ maxRequestActions < n then
    (q, .error "批量任务过大，请拆分后提交")
  else match q.findRequest env (env.userId actor) request.requestId with
    | some job =>
      if job.hash ≠ env.hash request then (q, .error "同一提交标识不能用于不同任务")
      else (q, .ok (q.snapshot job))
    | none =>
      if opts.userJobs ≤ q.own env (env.userId actor) ∨ opts.pendingItems < q.pendingItems + n ∨
          maxPendingBytes < q.pendingBytes + env.byteLength request then
        (q, .error "执行队列已满，请等待现有任务完成")
      else
        let (kept, retained) := reclaim opts.jobs n q.jobs q.jobs.length q.retainedItems
        let q := { q with jobs := kept }
        if opts.jobs ≤ q.jobs.length ∨ maxRetainedItems < retained + n then
          (q, .error "执行队列已满，请稍后再试")
        else
          let job := Job.new env actor request id createdAt
          let q := { q with
            jobs := q.jobs ++ [job], ready := q.ready ++ [id], immediates := q.immediates + 1
            submitted := q.submitted ++ [(id, request.actions)] }
          (q, .ok (q.snapshot job))

/-- `get` and `lookup`. -/
def get (q : Queue A α H ι) (env : Env A α H) (opts : Options) (userId : Int) (id : ι) (now : Int) :
    Queue A α H ι × Option (Snapshot A α H ι) :=
  let q := q.prune opts now
  (q, ((Rows.find Job.id q.jobs id).filter (fun job => env.userId job.actor == userId)).map q.snapshot)

def lookup (q : Queue A α H ι) (env : Env A α H) (opts : Options) (userId : Int) (requestId : String) (now : Int) :
    Queue A α H ι × Option (Snapshot A α H ι) :=
  let q := q.prune opts now
  (q, (q.findRequest env userId requestId).map q.snapshot)

def cancel (q : Queue A α H ι) (env : Env A α H) (userId : Int) (id : ι) : Queue A α H ι × Option (Snapshot A α H ι) :=
  match (Rows.find Job.id q.jobs id).filter (fun job => env.userId job.actor == userId) with
  | none => (q, none)
  | some job =>
    if job.finished then (q, some (q.snapshot job))
    else
      let q := { q with
        jobs := Rows.set Job.id q.jobs id (fun job => { job with cancel := true }), immediates := q.immediates + 1 }
      (q, some (q.snapshot { job with cancel := true }))

/-- The end of a turn of the loop of `drain` for the active job, up to the wait for the next one. -/
def endTurn (q : Queue A α H ι) (id : ι) (job : Job A α H ι) (now : Int) : Queue A α H ι :=
  let job := job.endTurn now
  { q with
    jobs := Rows.set Job.id q.jobs id (fun _ => job)
    ready := if job.completed = job.total then q.ready else q.ready ++ [id]
    active := none
    loops := q.loops ++ [.pausing] }

/-- A turn of the loop of `drain`, up to its first wait; where nothing is ready, or the job is not
there, the call ends. -/
def turn (q : Queue A α H ι) (now : Int) : Queue A α H ι :=
  match q.ready with
  | [] => { q with active := none, draining := false }
  | id :: rest =>
    match Rows.find Job.id q.jobs id with
    | none => { q with ready := rest, active := none, draining := false }
    | some job =>
      let q := { q with ready := rest, active := some id }
      if job.cancel then q.endTurn id job now
      else
        { q with
          jobs := Rows.set Job.id q.jobs id (fun _ => { job with state := .running })
          loops := q.loops ++ [.executing id job.completed]
          executions := q.executions ++ [⟨id, job.actor, job.completed, (job.actions[job.completed]?).join⟩] }

/-- `drain`, as `setImmediate` calls it. -/
def drain (q : Queue A α H ι) (now : Int) : Queue A α H ι :=
  if q.draining then q else turn { q with draining := true } now

/-- The action that a call of `drain` awaits has ended. -/
def settle (q : Queue A α H ι) (id : ι) (index : Nat) (outcome : Outcome) (now : Int) : Queue A α H ι :=
  match Rows.find Job.id q.jobs id with
  | none => q
  | some job =>
    let (result, stop) := outcome.result index
    q.endTurn id (job.settle result stop) now

end Queue

inductive Action (A α ι : Type) where
  | enqueue (actor : A) (request : Request α) (id : ι) (now createdAt : Int)
  | get (userId : Int) (id : ι) (now : Int)
  | lookup (userId : Int) (requestId : String) (now : Int)
  | cancel (userId : Int) (id : ι)
  | immediate (now : Int)
  | settle (loop : Nat) (outcome : Outcome) (now : Int)
  | resume (loop : Nat) (now : Int)

/-- One step. A new job has an id that no job had before. -/
def step [DecidableEq ι] [DecidableEq H] (env : Env A α H) (opts : Options) (q : Queue A α H ι) :
    Action A α ι → Option (Queue A α H ι)
  | .enqueue actor request id now createdAt =>
    if id ∈ q.submitted.map Prod.fst then none else some (q.enqueue env opts actor request id now createdAt).1
  | .get userId id now => some (q.get env opts userId id now).1
  | .lookup userId requestId now => some (q.lookup env opts userId requestId now).1
  | .cancel userId id => some (q.cancel env userId id).1
  | .immediate now => if q.immediates = 0 then none else some (Queue.drain { q with immediates := q.immediates - 1 } now)
  | .settle loop outcome now =>
    match q.loops[loop]? with
    | some (.executing id index) => some (Queue.settle { q with loops := q.loops.eraseIdx loop } id index outcome now)
    | _ => none
  | .resume loop now =>
    match q.loops[loop]? with
    | some .pausing => some (Queue.turn { q with loops := q.loops.eraseIdx loop } now)
    | _ => none

/-! ## One job -/

structure Job.Counts (job : Job A α H ι) (actions : List α) : Prop where
  total : job.total = actions.length
  indices : job.results.map RuleTaskResult.index = List.range job.completed
  sum : job.completed = job.succeeded + job.failed + job.skipped + job.cancelled
  le : job.completed ≤ job.total

/-- A job that goes on: nothing of it was cancelled, and what is left of it is there. -/
structure Job.Going (job : Job A α H ι) (actions : List α) : Prop where
  open' : job.finishedAt = none
  cancelled : job.cancelled = 0
  left : ∀ i, job.completed ≤ i → job.actions[i]? = (actions[i]?).map some

structure Job.Ok (job : Job A α H ι) (actions : List α) : Prop where
  counts : job.Counts actions
  ends : job.completed = job.total ↔ job.finishedAt ≠ none
  going : job.finishedAt = none → job.Going actions

/-- What the steps of a job leave as it is. -/
structure Job.Same (job job' : Job A α H ι) : Prop where
  id : job'.id = job.id
  total : job'.total = job.total
  actor : job'.actor = job.actor
  request : job'.requestId = job.requestId
  hash : job'.hash = job.hash

section
variable {job : Job A α H ι} {actions : List α}

theorem Job.Same.refl (job : Job A α H ι) : job.Same job := ⟨rfl, rfl, rfl, rfl, rfl⟩

theorem Job.Same.trans {job job' job'' : Job A α H ι} (h : job.Same job') (h' : job'.Same job'') : job.Same job'' :=
  ⟨h'.id.trans h.id, h'.total.trans h.total, h'.actor.trans h.actor, h'.request.trans h.request, h'.hash.trans h.hash⟩

theorem Job.lt_of_going (h : job.Ok actions) (hopen : job.finishedAt = none) : job.completed < job.total := by
  have hne : job.completed ≠ job.total := fun heq => h.ends.mp heq hopen
  have := h.counts.le
  omega

theorem Job.new_ok (env : Env A α H) (actor : A) (request : Request α) (id : ι) (createdAt : Int)
    (hne : request.actions.length ≠ 0) : (Job.new env actor request id createdAt).Ok request.actions := by
  refine ⟨⟨rfl, rfl, rfl, Nat.zero_le _⟩, ⟨fun h => absurd h.symm hne, fun h => absurd rfl h⟩,
    fun _ => ⟨rfl, rfl, fun i _ => ?_⟩⟩
  exact List.getElem?_map

theorem Job.settle_counts (h : job.Ok actions) (hopen : job.finishedAt = none) {result : RuleTaskResult}
    (hindex : result.index = job.completed) (hstatus : result.status ≠ .cancelled) (stop : Bool) :
    (job.settle result stop).Counts actions ∧ (job.settle result stop).Going actions := by
  have hlt := Job.lt_of_going h hopen
  have hgoing := h.going hopen
  have hsum := h.counts.sum
  refine ⟨⟨h.counts.total, ?_, ?_, hlt⟩, hopen, hgoing.cancelled, fun i hi => ?_⟩
  · simp only [Job.settle, List.map_append, List.map_cons, List.map_nil]
    rw [h.counts.indices, hindex, List.range_succ]
  · simp only [Job.settle]
    cases hs : result.status <;> simp [hs] at hstatus ⊢ <;> omega
  · have hi' : job.completed + 1 ≤ i := hi
    rw [← hgoing.left i (by omega), Job.settle, List.getElem?_set_ne (by omega)]

theorem Job.cancelLeft_counts (left : Nat) (job : Job A α H ι) (h : job.Counts actions)
    (hleft : job.completed + left ≤ job.total) :
    (Job.cancelLeft left job).Counts actions ∧ (Job.cancelLeft left job).completed = job.completed + left ∧
      (Job.cancelLeft left job).finishedAt = job.finishedAt ∧ (Job.cancelLeft left job).payloadBytes = job.payloadBytes ∧
      job.Same (Job.cancelLeft left job) := by
  induction left generalizing job with
  | zero => exact ⟨h, rfl, rfl, rfl, Job.Same.refl job⟩
  | succ left ih =>
    have hnext : Job.Counts { job with
        results := job.results ++ [⟨job.completed, .cancelled, none, none⟩]
        completed := job.completed + 1
        cancelled := job.cancelled + 1 } actions := by
      refine ⟨h.total, ?_, ?_, ?_⟩
      · simp only [List.map_append, List.map_cons, List.map_nil]
        rw [h.indices, List.range_succ]
      · have := h.sum
        show job.completed + 1 = job.succeeded + job.failed + job.skipped + (job.cancelled + 1)
        omega
      · show job.completed + 1 ≤ job.total
        omega
    obtain ⟨hcounts, hcompleted, hfinished, hbytes, hsame⟩ := ih _ hnext (by show job.completed + 1 + left ≤ job.total; omega)
    refine ⟨hcounts, ?_, hfinished, hbytes, ⟨hsame.id, hsame.total, hsame.actor, hsame.request, hsame.hash⟩⟩
    rw [Job.cancelLeft, hcompleted]
    show job.completed + 1 + left = job.completed + (left + 1)
    omega

/-- What a turn leaves of a job: it is finished, or it goes on as it was. -/
theorem Job.endTurn_spec (hc : job.Counts actions) (hg : job.Going actions) (now : Int) :
    (job.endTurn now).Ok actions ∧ job.Same (job.endTurn now) ∧ (job.endTurn now).payloadBytes ≤ job.payloadBytes ∧
      ((job.endTurn now).finishedAt = none → job.endTurn now = job ∧ job.completed ≠ job.total) ∧
      job.completed ≤ (job.endTurn now).completed := by
  have hfinish : ∀ j : Job A α H ι, j.Counts actions → j.completed = j.total →
      Job.Ok { j with
        state := if 0 < j.cancelled then .cancelled else .completed
        finishedAt := some now
        actions := []
        payloadBytes := 0 } actions := by
    intro j hj hdone
    exact ⟨⟨hj.total, hj.indices, hj.sum, hj.le⟩, ⟨fun _ => by simp, fun _ => hdone⟩, fun h => by cases h⟩
  by_cases hcancel : job.cancel = true
  · obtain ⟨hcounts, hcompleted, _, _, hsame⟩ :=
      Job.cancelLeft_counts (job.total - job.completed) job hc (by have := hc.le; omega)
    have hdone : (Job.cancelLeft (job.total - job.completed) job).completed =
        (Job.cancelLeft (job.total - job.completed) job).total := by
      rw [hcompleted, hsame.total]
      have := hc.le
      omega
    have hturn : job.endTurn now = { Job.cancelLeft (job.total - job.completed) job with
        state := if 0 < (Job.cancelLeft (job.total - job.completed) job).cancelled then .cancelled else .completed
        finishedAt := some now
        actions := []
        payloadBytes := 0 } := by
      simp only [Job.endTurn, if_pos hcancel, if_pos hdone]
    rw [hturn]
    refine ⟨hfinish _ hcounts hdone, ⟨hsame.id, hsame.total, hsame.actor, hsame.request, hsame.hash⟩, Nat.zero_le _,
      (fun h => by cases h), ?_⟩
    show job.completed ≤ (Job.cancelLeft (job.total - job.completed) job).completed
    omega
  · by_cases hdone : job.completed = job.total
    · have hturn : job.endTurn now = { job with
          state := if 0 < job.cancelled then .cancelled else .completed
          finishedAt := some now
          actions := []
          payloadBytes := 0 } := by
        simp only [Job.endTurn, if_neg hcancel, if_pos hdone]
      rw [hturn]
      exact ⟨hfinish job hc hdone, ⟨rfl, rfl, rfl, rfl, rfl⟩, Nat.zero_le _, (fun h => by cases h), Nat.le_refl _⟩
    · have hturn : job.endTurn now = job := by
        simp only [Job.endTurn, if_neg hcancel, if_neg hdone]
      rw [hturn]
      exact ⟨⟨hc, ⟨fun h => absurd h hdone, fun h => absurd hg.open' h⟩, fun _ => hg⟩, Job.Same.refl job, Nat.le_refl _,
        fun _ => ⟨rfl, hdone⟩, Nat.le_refl _⟩

end

/-! ## The limits -/

namespace Queue

structure Within (env : Env A α H) (opts : Options) (q : Queue A α H ι) : Prop where
  jobs : q.jobs.length ≤ opts.jobs
  items : q.pendingItems ≤ opts.pendingItems
  bytes : q.pendingBytes ≤ maxPendingBytes
  retained : q.retainedItems ≤ maxRetainedItems
  own : ∀ userId, q.own env userId ≤ opts.userJobs

section
variable {env : Env A α H} {opts : Options} {q q' : Queue A α H ι}

theorem sum_sublist (g : Job A α H ι → Nat) {l l' : List (Job A α H ι)} (h : l'.Sublist l) :
    (l'.map g).sum ≤ (l.map g).sum :=
  (h.map g).sum_le_sum (fun _ _ => Nat.zero_le _)

theorem Within.sublist (h : q.Within env opts) (hsub : q'.jobs.Sublist q.jobs) : q'.Within env opts :=
  ⟨hsub.length_le.trans h.jobs, (sum_sublist _ hsub).trans h.items, (sum_sublist _ hsub).trans h.bytes,
    (sum_sublist _ hsub).trans h.retained, fun userId => (sum_sublist _ hsub).trans (h.own userId)⟩

/-- The job counts for no more than it did. -/
structure Lighter (env : Env A α H) (job job' : Job A α H ι) : Prop where
  items : (if job'.finished then 0 else job'.total - job'.completed) ≤ if job.finished then 0 else job.total - job.completed
  bytes : (if job'.finished then 0 else job'.payloadBytes) ≤ if job.finished then 0 else job.payloadBytes
  total : job'.total ≤ job.total
  own : ∀ userId, (if !job'.finished && env.userId job'.actor == userId then 1 else 0) ≤
    if !job.finished && env.userId job.actor == userId then 1 else 0

theorem Lighter.of_open {job job' : Job A α H ι} (hopen : job.finishedAt = none) (hsame : job.Same job')
    (hbytes : job'.payloadBytes ≤ job.payloadBytes) (hcompleted : job.completed ≤ job'.completed) :
    Lighter env job job' := by
  have hun : job.finished = false := by
    rw [Job.finished, hopen]
    rfl
  refine ⟨?_, ?_, Nat.le_of_eq hsame.total, fun userId => ?_⟩
  · rw [hun, if_neg Bool.false_ne_true]
    split
    · exact Nat.zero_le _
    · rw [hsame.total]
      exact Nat.sub_le_sub_left hcompleted _
  · rw [hun, if_neg Bool.false_ne_true]
    split
    · exact Nat.zero_le _
    · exact hbytes
  · rw [hun, hsame.actor, Bool.not_false, Bool.true_and]
    by_cases huser : (env.userId job.actor == userId) = true
    · rw [if_pos huser]
      split <;> omega
    · rw [if_neg huser, Bool.eq_false_iff.mpr huser, Bool.and_false, if_neg Bool.false_ne_true]

variable [DecidableEq ι]

theorem Within.set (h : q.Within env opts) (id : ι) {f : Job A α H ι → Job A α H ι}
    (hjobs : q'.jobs = Rows.set Job.id q.jobs id f) (hf : ∀ r ∈ q.jobs, r.id = id → Lighter env r (f r)) :
    q'.Within env opts := by
  refine ⟨?_, (?_ : _ ≤ q.pendingItems).trans h.items, (?_ : _ ≤ q.pendingBytes).trans h.bytes,
    (?_ : _ ≤ q.retainedItems).trans h.retained, fun userId => (?_ : _ ≤ q.own env userId).trans (h.own userId)⟩
  · rw [hjobs, Rows.set, List.length_map]
    exact h.jobs
  · rw [pendingItems, hjobs]
    exact Rows.sum_set_le _ fun r hr hid => (hf r hr hid).items
  · rw [pendingBytes, hjobs]
    exact Rows.sum_set_le _ fun r hr hid => (hf r hr hid).bytes
  · rw [retainedItems, hjobs]
    exact Rows.sum_set_le _ fun r hr hid => (hf r hr hid).total
  · rw [Queue.own, hjobs]
    exact Rows.sum_set_le _ fun r hr hid => (hf r hr hid).own userId

end

end Queue

/-- What the loop that reclaims leaves: no unfinished job goes, and the count of the items is kept. -/
theorem reclaim_spec (maxJobs n : Nat) (l : List (Job A α H ι)) (size retained : Nat) :
    (reclaim maxJobs n l size retained).1.Sublist l ∧
      (∀ job ∈ l, job.finished = false → job ∈ (reclaim maxJobs n l size retained).1) ∧
      ∀ rest, retained = rest + (l.map Job.total).sum →
        (reclaim maxJobs n l size retained).2 = rest + ((reclaim maxJobs n l size retained).1.map Job.total).sum := by
  induction l generalizing size retained with
  | nil => exact ⟨List.Sublist.refl _, (fun _ h => by cases h), fun rest h => h⟩
  | cons job l ih =>
    by_cases hroom : size < maxJobs ∧ retained + n ≤ maxRetainedItems
    · rw [reclaim, if_pos hroom]
      exact ⟨List.Sublist.refl _, fun _ h _ => h, fun rest h => h⟩
    · by_cases hfin : job.finished = true
      · rw [reclaim, if_neg hroom, if_pos hfin]
        obtain ⟨hsub, hkept, hsum⟩ := ih (size - 1) (retained - job.total)
        refine ⟨hsub.cons job, fun j hj hopen => ?_, fun rest hrest => hsum rest ?_⟩
        · rcases List.mem_cons.mp hj with rfl | hj
          · rw [hfin] at hopen
            cases hopen
          · exact hkept j hj hopen
        · rw [List.map_cons, List.sum_cons] at hrest
          omega
      · rw [reclaim, if_neg hroom, if_neg hfin]
        obtain ⟨hsub, hkept, hsum⟩ := ih size retained
        refine ⟨hsub.cons_cons job, fun j hj hopen => ?_, fun rest hrest => ?_⟩
        · rcases List.mem_cons.mp hj with rfl | hj
          · exact List.mem_cons_self
          · exact List.mem_cons_of_mem _ (hkept j hj hopen)
        · rw [List.map_cons, List.sum_cons] at hrest
          have := hsum (rest + job.total) (by omega)
          simp only [List.map_cons, List.sum_cons]
          omega

/-! ## The queue -/

namespace Queue

/-- The `execute` calls of a job, in order: the index and the action of each. -/
def runs [DecidableEq ι] (q : Queue A α H ι) (id : ι) : List (Nat × Option α) :=
  (q.executions.filter (fun e => e.id = id)).map (fun e => (e.index, e.action))

/-- The first `n` actions with their indices. -/
def firstRuns (actions : List α) (n : Nat) : List (Nat × Option α) := (List.range n).map (fun i => (i, actions[i]?))

variable [DecidableEq ι]

/-- What holds of the jobs, the places and the calls of `execute`; `busy` is the job whose action
is under way. -/
structure Core (q : Queue A α H ι) (busy : Option ι) : Prop where
  ids : (q.jobs.map Job.id).Nodup
  once : (q.submitted.map Prod.fst).Nodup
  known : ∀ job ∈ q.jobs, ∃ actions, (job.id, actions) ∈ q.submitted ∧ job.Ok actions
  place : ∀ job ∈ q.jobs, job.finishedAt = none → q.ready.count job.id + (if q.active = some job.id then 1 else 0) = 1
  placed : ∀ id, id ∈ q.ready ∨ q.active = some id → ∃ job ∈ q.jobs, job.id = id ∧ job.finishedAt = none
  ran : ∀ id actions, (id, actions) ∈ q.submitted → ∃ n ≤ actions.length, q.runs id = firstRuns actions n ∧
    ∀ job ∈ q.jobs, job.id = id → job.finishedAt = none → n = job.completed + (if busy = some id then 1 else 0)
  stray : ∀ e ∈ q.executions, e.id ∈ q.submitted.map Prod.fst

section
variable {q : Queue A α H ι} {busy : Option ι}

theorem Core.keep (h : q.Core busy) {jobs : List (Job A α H ι)} (hsub : jobs.Sublist q.jobs)
    (hkept : ∀ job ∈ q.jobs, job.finishedAt = none → job ∈ jobs) : Core { q with jobs := jobs } busy := by
  refine ⟨h.ids.sublist (hsub.map Job.id), h.once, fun job hj => h.known job (hsub.subset hj),
    fun job hj => h.place job (hsub.subset hj), fun id hid => ?_, fun id actions hid => ?_, h.stray⟩
  · obtain ⟨job, hj, hjid, hopen⟩ := h.placed id hid
    exact ⟨job, hkept job hj hopen, hjid, hopen⟩
  · obtain ⟨n, hn, hruns, hjobs⟩ := h.ran id actions hid
    exact ⟨n, hn, hruns, fun job hj => hjobs job (hsub.subset hj)⟩

theorem Core.touch (h : q.Core busy) (id : ι) {f : Job A α H ι → Job A α H ι}
    (hf : ∀ r ∈ q.jobs, r.id = id → r.Same (f r) ∧ (f r).finishedAt = r.finishedAt ∧ (f r).completed = r.completed ∧
      ∀ actions, r.Ok actions → (f r).Ok actions) : Core { q with jobs := Rows.set Job.id q.jobs id f } busy := by
  have hold : ∀ job ∈ Rows.set Job.id q.jobs id f, ∃ r ∈ q.jobs, job.id = r.id ∧ job.finishedAt = r.finishedAt ∧
      job.completed = r.completed ∧ ∀ actions, r.Ok actions → job.Ok actions := by
    intro job hj
    rcases Rows.mem_set.mp hj with ⟨r, hr, hid, rfl⟩ | ⟨hr, _⟩
    · obtain ⟨hsame, hfin, hcompleted, hok⟩ := hf r hr hid
      exact ⟨r, hr, hsame.id, hfin, hcompleted, hok⟩
    · exact ⟨job, hr, rfl, rfl, rfl, fun _ hok => hok⟩
  refine ⟨?_, h.once, fun job hj => ?_, fun job hj hopen => ?_, fun id' hid' => ?_, fun id' actions hid' => ?_, h.stray⟩
  · show ((Rows.set Job.id q.jobs id f).map Job.id).Nodup
    rw [Rows.keys_set_of fun r hr hid => (hf r hr hid).1.id.trans hid]
    exact h.ids
  · obtain ⟨r, hr, hid, _, _, hok⟩ := hold job hj
    obtain ⟨actions, hmem, hrok⟩ := h.known r hr
    exact ⟨actions, hid ▸ hmem, hok actions hrok⟩
  · obtain ⟨r, hr, hid, hfin, _⟩ := hold job hj
    rw [hid]
    exact h.place r hr (hfin ▸ hopen)
  · obtain ⟨r, hr, hrid, hopen⟩ := h.placed id' hid'
    by_cases hid : r.id = id
    · obtain ⟨hsame, hfin, _⟩ := hf r hr hid
      exact ⟨f r, Rows.mem_set.mpr (Or.inl ⟨r, hr, hid, rfl⟩), hsame.id.trans hrid, hfin.trans hopen⟩
    · exact ⟨r, Rows.mem_set.mpr (Or.inr ⟨hr, hid⟩), hrid, hopen⟩
  · obtain ⟨n, hn, hruns, hjobs⟩ := h.ran id' actions hid'
    refine ⟨n, hn, hruns, fun job hj hjid hopen => ?_⟩
    obtain ⟨r, hr, hid, hfin, hcompleted, _⟩ := hold job hj
    rw [hcompleted]
    exact hjobs r hr (hid.symm.trans hjid) (hfin ▸ hopen)

theorem Core.take (h : q.Core busy) (hidle : q.active = none) {id : ι} {rest : List ι} (hready : q.ready = id :: rest) :
    Core { q with ready := rest, active := some id } busy := by
  refine ⟨h.ids, h.once, h.known, fun job hj hopen => ?_, fun id' hid' => ?_, h.ran, h.stray⟩
  · have hplace := h.place job hj hopen
    rw [hready, List.count_cons, hidle] at hplace
    simp only [reduceCtorEq, if_false, beq_iff_eq] at hplace
    simpa using hplace
  · apply h.placed
    rw [hready]
    rcases hid' with hid' | hid'
    · exact Or.inl (List.mem_cons_of_mem _ hid')
    · rw [Option.some.inj hid']
      exact Or.inl List.mem_cons_self

theorem Core.execute (h : q.Core none) {job : Job A α H ι} (hj : job ∈ q.jobs) (hopen : job.finishedAt = none) :
    Core { q with executions := q.executions ++
      [⟨job.id, job.actor, job.completed, (job.actions[job.completed]?).join⟩] } (some job.id) := by
  obtain ⟨acts, hsub, hok⟩ := h.known job hj
  have hlt := Job.lt_of_going hok hopen
  have haction : (job.actions[job.completed]?).join = acts[job.completed]? := by
    rw [(hok.going hopen).left _ (Nat.le_refl _)]
    cases acts[job.completed]? <;> rfl
  refine ⟨h.ids, h.once, h.known, h.place, h.placed, fun id actions hid => ?_, fun e he => ?_⟩
  · obtain ⟨n, hn, hruns, hjobs⟩ := h.ran id actions hid
    by_cases hjid : job.id = id
    · have hn' : n = job.completed := hjobs job hj hjid hopen
      have hsame : actions = acts := by
        have := Rows.eq_of_key h.once hid hsub hjid.symm
        exact congrArg Prod.snd this
      refine ⟨n + 1, ?_, ?_, fun job' hj' hjid' _ => ?_⟩
      · rw [hn', hsame, ← hok.counts.total]
        exact hlt
      · have hfilter : runs { q with executions := q.executions ++
            [⟨job.id, job.actor, job.completed, (job.actions[job.completed]?).join⟩] } id =
            q.runs id ++ [(job.completed, acts[job.completed]?)] := by
          simp [runs, List.filter_append, hjid, haction]
        rw [hfilter, hruns, firstRuns, firstRuns, List.range_succ, List.map_append, hn', hsame]
        rfl
      · have : job' = job := Rows.eq_of_key h.ids hj' hj (hjid'.trans hjid.symm)
        rw [this, hjid, if_pos rfl, hn']
    · have hfilter : runs { q with executions := q.executions ++
          [⟨job.id, job.actor, job.completed, (job.actions[job.completed]?).join⟩] } id = q.runs id := by
        simp [runs, List.filter_append, hjid]
      refine ⟨n, hn, hfilter.trans hruns, fun job' hj' hjid' hopen' => ?_⟩
      have := hjobs job' hj' hjid' hopen'
      rw [if_neg (by simp)] at this
      rw [if_neg (by simpa using hjid)]
      exact this
  · rcases List.mem_append.mp he with he | he
    · exact h.stray e he
    · rw [List.mem_singleton.mp he]
      exact List.mem_map_of_mem hsub

theorem Core.endTurn (h : q.Core busy) {job₀ job : Job A α H ι} (hj : job₀ ∈ q.jobs) (hactive : q.active = some job₀.id)
    (hbusy : busy = none ∨ busy = some job₀.id) (hsame : job₀.Same job)
    (hgoing : ∀ actions, job₀.Ok actions → job.Counts actions ∧ job.Going actions)
    (hdone : job.completed = job₀.completed + (if busy = some job₀.id then 1 else 0)) (now : Int) :
    (q.endTurn job₀.id job now).Core none := by
  obtain ⟨job₁, hj₁, hid₁, hopen⟩ := h.placed job₀.id (Or.inr hactive)
  obtain rfl : job₁ = job₀ := Rows.eq_of_key h.ids hj₁ hj hid₁
  obtain ⟨acts, hsub, hok⟩ := h.known job₁ hj
  obtain ⟨hcounts, hgo⟩ := hgoing acts hok
  obtain ⟨hend, hendSame, _, hunfinished, _⟩ := Job.endTurn_spec hcounts hgo now
  have hendId : (job.endTurn now).id = job₁.id := hendSame.id.trans hsame.id
  have hcount : q.ready.count job₁.id = 0 := by
    have := h.place job₁ hj hopen
    rw [hactive, if_pos rfl] at this
    omega
  have hmem : ∀ job' ∈ Rows.set Job.id q.jobs job₁.id (fun _ => job.endTurn now),
      job' = job.endTurn now ∨ (job' ∈ q.jobs ∧ job'.id ≠ job₁.id) := by
    intro job' hj'
    rcases Rows.mem_set.mp hj' with ⟨_, _, _, heq⟩ | hold
    · exact Or.inl heq.symm
    · exact Or.inr hold
  have hready : ∀ id, id ≠ job₁.id → (q.endTurn job₁.id job now).ready.count id = q.ready.count id := by
    intro id hne
    simp only [Queue.endTurn]
    split
    · rfl
    · rw [List.count_append, List.count_singleton, if_neg (by simpa using Ne.symm hne), Nat.add_zero]
  refine ⟨?_, h.once, fun job' hj' => ?_, fun job' hj' hopen' => ?_, fun id hid => ?_, fun id actions hid => ?_, h.stray⟩
  · show ((Rows.set Job.id q.jobs job₁.id (fun _ => job.endTurn now)).map Job.id).Nodup
    rw [Rows.keys_set_of fun _ _ _ => hendId]
    exact h.ids
  · rcases hmem job' hj' with rfl | ⟨hold, _⟩
    · exact ⟨acts, hendId ▸ hsub, hend⟩
    · exact h.known job' hold
  · show (q.endTurn job₁.id job now).ready.count job'.id + 0 = 1
    rcases hmem job' hj' with rfl | ⟨hold, hne⟩
    · have hgoes : (job.endTurn now).completed ≠ (job.endTurn now).total := fun hc => hend.ends.mp hc hopen'
      simp only [Queue.endTurn, if_neg hgoes]
      rw [hendId, List.count_append, hcount, List.count_singleton_self]
    · have := h.place job' hold hopen'
      rw [hactive, if_neg (by simpa using Ne.symm hne)] at this
      rw [hready _ hne]
      exact this
  · have hid' : id ∈ (q.endTurn job₁.id job now).ready := hid.resolve_right (by simp [Queue.endTurn])
    by_cases hne : id = job₁.id
    · refine ⟨job.endTurn now, Rows.mem_set.mpr (Or.inl ⟨job₁, hj, rfl, rfl⟩), hendId.trans hne.symm, ?_⟩
      by_contra hfin
      have hc := hend.ends.mpr hfin
      simp only [Queue.endTurn, if_pos hc] at hid'
      exact absurd hid' (List.count_eq_zero.mp (hne ▸ hcount))
    · have hold : id ∈ q.ready := by
        rw [← List.count_pos_iff, ← hready id hne, List.count_pos_iff]
        exact hid'
      obtain ⟨job', hj', hjid, hopen'⟩ := h.placed id (Or.inl hold)
      exact ⟨job', Rows.mem_set.mpr (Or.inr ⟨hj', hjid ▸ hne⟩), hjid, hopen'⟩
  · obtain ⟨n, hn, hruns, hjobs⟩ := h.ran id actions hid
    refine ⟨n, hn, hruns, fun job' hj' hjid hopen' => ?_⟩
    rw [if_neg (by simp), Nat.add_zero]
    rcases hmem job' hj' with rfl | ⟨hold, hne⟩
    · have hn' := hjobs job₁ hj (hendId.symm.trans hjid) hopen
      rw [(hunfinished hopen').1, hdone, hn', hendId.symm.trans hjid]
    · have := hjobs job' hold hjid hopen'
      rw [if_neg ?_, Nat.add_zero] at this
      · exact this
      · rcases hbusy with hb | hb
        · rw [hb]
          simp
        · rw [hb]
          simpa using fun heq => hne (hjid.trans heq.symm)

end

/-- The calls of `drain` that wait: none, one that pauses, or one that awaits the action of the
active job. -/
def Control (q : Queue A α H ι) (busy : Option ι) : Prop :=
  (q.draining = false ∧ q.loops = [] ∧ q.active = none ∧ busy = none) ∨
  (q.draining = true ∧ q.loops = [.pausing] ∧ q.active = none ∧ busy = none) ∨
  ∃ job ∈ q.jobs, q.draining = true ∧ q.loops = [.executing job.id job.completed] ∧ q.active = some job.id ∧
    busy = some job.id

structure Inv (env : Env A α H) (opts : Options) (q : Queue A α H ι) : Prop where
  core : ∃ busy, q.Core busy ∧ q.Control busy
  within : q.Within env opts
  awake : q.ready ≠ [] → q.draining = true ∨ 0 < q.immediates

section
variable {env : Env A α H} {opts : Options} {q : Queue A α H ι}

theorem Inv.initial (env : Env A α H) (opts : Options) : (Queue.initial : Queue A α H ι).Inv env opts := by
  refine ⟨⟨none, ?_, Or.inl ⟨rfl, rfl, rfl, rfl⟩⟩, ?_, fun h => absurd rfl h⟩
  · exact ⟨List.nodup_nil, List.nodup_nil, (fun _ h => by cases h), (fun _ h => by cases h),
      (fun _ h => by rcases h with h | h <;> cases h), (fun _ _ h => by cases h), (fun _ h => by cases h)⟩
  · exact ⟨Nat.zero_le _, Nat.zero_le _, Nat.zero_le _, Nat.zero_le _, fun _ => Nat.zero_le _⟩

theorem Inv.keep (h : q.Inv env opts) {jobs : List (Job A α H ι)} (hsub : jobs.Sublist q.jobs)
    (hkept : ∀ job ∈ q.jobs, job.finishedAt = none → job ∈ jobs) : Inv env opts { q with jobs := jobs } := by
  obtain ⟨busy, hcore, hcontrol⟩ := h.core
  refine ⟨⟨busy, hcore.keep hsub hkept, ?_⟩, h.within.sublist hsub, h.awake⟩
  rcases hcontrol with hcontrol | hcontrol | ⟨job, hj, hdrain, hloops, hactive, hbusy⟩
  · exact Or.inl hcontrol
  · exact Or.inr (Or.inl hcontrol)
  · obtain ⟨job', hj', hid, hopen⟩ := hcore.placed job.id (Or.inr hactive)
    obtain rfl : job' = job := Rows.eq_of_key hcore.ids hj' hj hid
    exact Or.inr (Or.inr ⟨job', hkept job' hj' hopen, hdrain, hloops, hactive, hbusy⟩)

omit [DecidableEq ι] in
theorem not_finished {job : Job A α H ι} (h : job.finishedAt = none) : job.finished = false := by
  rw [Job.finished, h]
  rfl

theorem Inv.prune (h : q.Inv env opts) (now : Int) : (q.prune opts now).Inv env opts := by
  refine h.keep List.filter_sublist fun job hj hopen => List.mem_filter.mpr ⟨hj, ?_⟩
  rw [not_finished hopen]
  rfl

variable {job : Job A α H ι} {q' : Queue A α H ι} {busy : Option ι}

theorem Core.of_eq (h : q.Core busy) (hjobs : q'.jobs = q.jobs) (hsubmitted : q'.submitted = q.submitted)
    (hready : q'.ready = q.ready) (hactive : q'.active = q.active) (hexecutions : q'.executions = q.executions) :
    q'.Core busy := by
  obtain ⟨jobs, ready, active, draining, loops, immediates, submitted, executions⟩ := q'
  obtain rfl : jobs = q.jobs := hjobs
  obtain rfl : submitted = q.submitted := hsubmitted
  obtain rfl : ready = q.ready := hready
  obtain rfl : active = q.active := hactive
  obtain rfl : executions = q.executions := hexecutions
  exact ⟨h.ids, h.once, h.known, h.place, h.placed, h.ran, h.stray⟩

/-- The end of a turn of the active job, whose action may just have settled. -/
theorem Inv.endTurn (hcore : q.Core busy) (hloops : q.loops = []) (hdrain : q.draining = true)
    (hwithin : q.Within env opts) {job₀ : Job A α H ι} (job : Job A α H ι) (hj : job₀ ∈ q.jobs)
    (hactive : q.active = some job₀.id) (hbusy : busy = none ∨ busy = some job₀.id) (hsame : job₀.Same job)
    (hbytes : job.payloadBytes = job₀.payloadBytes)
    (hgoing : ∀ actions, job₀.Ok actions → job.Counts actions ∧ job.Going actions)
    (hdone : job.completed = job₀.completed + (if busy = some job₀.id then 1 else 0)) (now : Int) :
    (q.endTurn job₀.id job now).Inv env opts := by
  obtain ⟨job₁, hj₁, hid₁, hopen⟩ := hcore.placed job₀.id (Or.inr hactive)
  obtain rfl : job₁ = job₀ := Rows.eq_of_key hcore.ids hj₁ hj hid₁
  obtain ⟨acts, _, hok⟩ := hcore.known job₁ hj
  obtain ⟨hcounts, hgo⟩ := hgoing acts hok
  obtain ⟨_, hendSame, hendBytes, _, hcompleted⟩ := Job.endTurn_spec hcounts hgo now
  refine ⟨⟨none, hcore.endTurn hj hactive hbusy hsame hgoing hdone now, Or.inr (Or.inl ⟨hdrain, ?_, rfl, rfl⟩)⟩, ?_,
    fun _ => Or.inl hdrain⟩
  · simp only [Queue.endTurn, hloops, List.nil_append]
  · refine hwithin.set job₁.id rfl fun r hr hid => ?_
    obtain rfl : r = job₁ := Rows.eq_of_key hcore.ids hr hj hid
    refine Lighter.of_open hopen (hsame.trans hendSame) (hbytes ▸ hendBytes) ?_
    have : r.completed ≤ job.completed := by
      rw [hdone]
      omega
    exact this.trans hcompleted

theorem Inv.turn (hcore : q.Core none) (hloops : q.loops = []) (hactive : q.active = none) (hdrain : q.draining = true)
    (hwithin : q.Within env opts) (now : Int) : (q.turn now).Inv env opts := by
  cases hready : q.ready with
  | nil =>
    simp only [Queue.turn, hready]
    exact ⟨⟨none, hcore.of_eq rfl rfl hready.symm hactive.symm rfl, Or.inl ⟨rfl, hloops, rfl, rfl⟩⟩,
      hwithin.sublist (List.Sublist.refl _), fun hne => absurd rfl hne⟩
  | cons id rest =>
    have hmem : id ∈ q.ready := by
      rw [hready]
      exact List.mem_cons_self
    obtain ⟨job, hj, rfl, hopen⟩ := hcore.placed id (Or.inl hmem)
    have hfind : Rows.find Job.id q.jobs job.id = some job := Rows.find_of_mem hcore.ids hj
    have htake := hcore.take hactive hready
    simp only [Queue.turn, hready, hfind]
    by_cases hcancel : job.cancel = true
    · rw [if_pos hcancel]
      refine Inv.endTurn htake hloops hdrain (hwithin.sublist (List.Sublist.refl _)) job hj rfl (Or.inl rfl)
        (Job.Same.refl job) rfl (fun actions hok => ⟨hok.counts, hok.going hopen⟩) ?_ now
      rw [if_neg (by simp), Nat.add_zero]
    · rw [if_neg hcancel]
      have hrow : ∀ r ∈ q.jobs, r.id = job.id → r = job := fun r hr hid => Rows.eq_of_key hcore.ids hr hj hid
      have hexec := (htake.execute hj hopen).touch job.id (f := fun _ => { job with state := .running }) ?_
      · refine ⟨⟨some job.id, hexec.of_eq rfl rfl rfl rfl rfl, Or.inr (Or.inr ⟨{ job with state := .running }, ?_, hdrain, ?_,
          rfl, rfl⟩)⟩, ?_, fun _ => Or.inl hdrain⟩
        · exact Rows.mem_set.mpr (Or.inl ⟨job, hj, rfl, rfl⟩)
        · rw [hloops]
          rfl
        · refine hwithin.set job.id rfl fun r hr hid => ?_
          rw [hrow r hr hid]
          exact Lighter.of_open hopen ⟨rfl, rfl, rfl, rfl, rfl⟩ (Nat.le_refl _) (Nat.le_refl _)
      · intro r hr hid
        rw [hrow r hr hid]
        refine ⟨⟨rfl, rfl, rfl, rfl, rfl⟩, rfl, rfl, fun actions hok => ?_⟩
        exact ⟨⟨hok.counts.total, hok.counts.indices, hok.counts.sum, hok.counts.le⟩, hok.ends,
          fun ho => ⟨ho, (hok.going ho).cancelled, (hok.going ho).left⟩⟩

theorem Inv.drain (h : q.Inv env opts) (now : Int) :
    (Queue.drain { q with immediates := q.immediates - 1 } now).Inv env opts := by
  obtain ⟨busy, hcore, hcontrol⟩ := h.core
  by_cases hd : q.draining = true
  · rw [Queue.drain, if_pos hd]
    exact ⟨⟨busy, hcore.of_eq rfl rfl rfl rfl rfl, hcontrol⟩, h.within.sublist (List.Sublist.refl _), fun _ => Or.inl hd⟩
  · rw [Queue.drain, if_neg hd]
    rcases hcontrol with ⟨_, hloops, hactive, rfl⟩ | ⟨hdrain, _⟩ | ⟨_, _, hdrain, _⟩
    · exact Inv.turn (q := { q with immediates := q.immediates - 1, draining := true }) (hcore.of_eq rfl rfl rfl rfl rfl)
        hloops hactive rfl (h.within.sublist (List.Sublist.refl _)) now
    · exact absurd hdrain hd
    · exact absurd hdrain hd

theorem Inv.cancel (h : q.Inv env opts) (userId : Int) (id : ι) : (q.cancel env userId id).1.Inv env opts := by
  obtain ⟨busy, hcore, hcontrol⟩ := h.core
  cases hfind : (Rows.find Job.id q.jobs id).filter (fun job => env.userId job.actor == userId) with
  | none =>
    simp only [Queue.cancel, hfind]
    exact h
  | some job =>
    simp only [Queue.cancel, hfind]
    by_cases hfin : job.finished = true
    · rw [if_pos hfin]
      exact h
    · rw [if_neg hfin]
      have hcore' := hcore.touch id (f := fun job => { job with cancel := true }) fun r _ _ =>
        ⟨⟨rfl, rfl, rfl, rfl, rfl⟩, rfl, rfl, fun actions hok =>
          ⟨⟨hok.counts.total, hok.counts.indices, hok.counts.sum, hok.counts.le⟩, hok.ends,
            fun ho => ⟨ho, (hok.going ho).cancelled, (hok.going ho).left⟩⟩⟩
      refine ⟨⟨busy, hcore'.of_eq rfl rfl rfl rfl rfl, ?_⟩, ?_, fun hne => Or.inr (Nat.succ_pos _)⟩
      · rcases hcontrol with hcontrol | hcontrol | ⟨r, hr, hrest⟩
        · exact Or.inl hcontrol
        · exact Or.inr (Or.inl hcontrol)
        · by_cases hid : r.id = id
          · exact Or.inr (Or.inr ⟨{ r with cancel := true }, Rows.mem_set.mpr (Or.inl ⟨r, hr, hid, rfl⟩), hrest⟩)
          · exact Or.inr (Or.inr ⟨r, Rows.mem_set.mpr (Or.inr ⟨hr, hid⟩), hrest⟩)
      · exact h.within.set id rfl fun r _ _ =>
          ⟨Nat.le_refl _, Nat.le_refl _, Nat.le_refl _, fun _ => Nat.le_refl _⟩

theorem Inv.executing (h : q.Inv env opts) {loop : Nat} {id : ι} {index : Nat}
    (hloop : q.loops[loop]? = some (.executing id index)) :
    ∃ job ∈ q.jobs, job.id = id ∧ job.completed = index ∧ job.finishedAt = none ∧ q.draining = true ∧
      q.active = some id ∧ q.loops.eraseIdx loop = [] ∧ q.Core (some id) := by
  obtain ⟨busy, hcore, hcontrol⟩ := h.core
  rcases hcontrol with ⟨_, hloops, _⟩ | ⟨_, hloops, _⟩ | ⟨job, hj, hdrain, hloops, hactive, rfl⟩
  · rw [hloops] at hloop
    cases hloop
  · rw [hloops] at hloop
    cases loop <;> simp at hloop
  · rw [hloops] at hloop ⊢
    cases loop with
    | succ n => simp at hloop
    | zero =>
      obtain ⟨rfl, rfl⟩ : job.id = id ∧ job.completed = index := by simpa using hloop
      obtain ⟨job', hj', hid, hopen⟩ := hcore.placed job.id (Or.inr hactive)
      obtain rfl : job' = job := Rows.eq_of_key hcore.ids hj' hj hid
      exact ⟨job', hj, rfl, rfl, hopen, hdrain, hactive, rfl, hcore⟩

theorem Inv.pausing (h : q.Inv env opts) {loop : Nat} (hloop : q.loops[loop]? = some .pausing) :
    q.draining = true ∧ q.active = none ∧ q.loops.eraseIdx loop = [] ∧ q.Core none := by
  obtain ⟨busy, hcore, hcontrol⟩ := h.core
  rcases hcontrol with ⟨_, hloops, _⟩ | ⟨hdrain, hloops, hactive, rfl⟩ | ⟨job, hj, hdrain, hloops, hactive, rfl⟩
  · rw [hloops] at hloop
    cases hloop
  · rw [hloops] at hloop ⊢
    cases loop with
    | succ n => simp at hloop
    | zero => exact ⟨hdrain, hactive, rfl, hcore⟩
  · rw [hloops] at hloop
    cases loop <;> simp at hloop

theorem Inv.settle (h : q.Inv env opts) {loop : Nat} {id : ι} {index : Nat}
    (hloop : q.loops[loop]? = some (.executing id index)) (outcome : Outcome) (now : Int) :
    (Queue.settle { q with loops := q.loops.eraseIdx loop } id index outcome now).Inv env opts := by
  obtain ⟨job, hj, rfl, rfl, hopen, hdrain, hactive, hempty, hcore⟩ := h.executing hloop
  have hfind : Rows.find Job.id q.jobs job.id = some job := Rows.find_of_mem hcore.ids hj
  simp only [Queue.settle, hfind]
  have hindex : (outcome.result job.completed).1.index = job.completed := by cases outcome <;> rfl
  have hstatus : (outcome.result job.completed).1.status ≠ .cancelled := by
    cases outcome with
    | resolved value =>
      simp only [Outcome.result]
      split <;> simp
    | rejected message stop => simp [Outcome.result]
  refine Inv.endTurn (q := { q with loops := q.loops.eraseIdx loop }) (hcore.of_eq rfl rfl rfl rfl rfl) hempty hdrain
    (h.within.sublist (List.Sublist.refl _)) (job.settle _ _) hj hactive (Or.inr rfl) ⟨rfl, rfl, rfl, rfl, rfl⟩ rfl
    (fun actions hok => Job.settle_counts hok hopen hindex hstatus _) ?_ now
  rw [if_pos rfl]
  rfl

theorem Inv.resume (h : q.Inv env opts) {loop : Nat} (hloop : q.loops[loop]? = some .pausing) (now : Int) :
    (Queue.turn { q with loops := q.loops.eraseIdx loop } now).Inv env opts := by
  obtain ⟨hdrain, hactive, hempty, hcore⟩ := h.pausing hloop
  exact Inv.turn (q := { q with loops := q.loops.eraseIdx loop }) (hcore.of_eq rfl rfl rfl rfl rfl) hempty hactive
    hdrain (h.within.sublist (List.Sublist.refl _)) now

theorem Core.submitted_of_job (h : q.Core busy) (hj : job ∈ q.jobs) : job.id ∈ q.submitted.map Prod.fst := by
  obtain ⟨actions, hmem, _⟩ := h.known job hj
  exact List.mem_map_of_mem hmem

theorem Core.submit (h : q.Core busy) {actions : List α} (hok : job.Ok actions)
    (hfresh : job.id ∉ q.submitted.map Prod.fst) (hopen : job.finishedAt = none) (hcompleted : job.completed = 0)
    (hbusy : busy ≠ some job.id) : Core { q with
      jobs := q.jobs ++ [job], ready := q.ready ++ [job.id], immediates := q.immediates + 1
      submitted := q.submitted ++ [(job.id, actions)] } busy := by
  have hunplaced : ¬ (job.id ∈ q.ready ∨ q.active = some job.id) := by
    intro hplaced
    obtain ⟨job', hj', hid, _⟩ := h.placed job.id hplaced
    exact hfresh (hid ▸ h.submitted_of_job hj')
  have hother : ∀ job' ∈ q.jobs, job'.id ≠ job.id := fun job' hj' hid => hfresh (hid ▸ h.submitted_of_job hj')
  rw [not_or] at hunplaced
  refine ⟨?_, ?_, fun job' hj' => ?_, fun job' hj' hopen' => ?_, fun id hid => ?_, fun id acts hid => ?_, fun e he => ?_⟩
  · show ((q.jobs ++ [job]).map Job.id).Nodup
    rw [List.map_append]
    refine List.nodup_append.mpr ⟨h.ids, by simp, fun a ha b hb => ?_⟩
    obtain ⟨job', hj', rfl⟩ := List.mem_map.mp ha
    rw [List.map_cons, List.map_nil, List.mem_singleton] at hb
    exact hb ▸ hother job' hj'
  · show ((q.submitted ++ [(job.id, actions)]).map Prod.fst).Nodup
    rw [List.map_append]
    refine List.nodup_append.mpr ⟨h.once, by simp, fun a ha b hb => ?_⟩
    rw [List.map_cons, List.map_nil, List.mem_singleton] at hb
    rintro rfl
    have hab : a = job.id := hb
    exact hfresh (hab ▸ ha)
  · rcases List.mem_append.mp hj' with hj' | hj'
    · obtain ⟨acts, hmem, hok'⟩ := h.known job' hj'
      exact ⟨acts, List.mem_append_left _ hmem, hok'⟩
    · rw [List.mem_singleton.mp hj']
      exact ⟨actions, List.mem_append_right _ List.mem_cons_self, hok⟩
  · show (q.ready ++ [job.id]).count job'.id + (if q.active = some job'.id then 1 else 0) = 1
    rw [List.count_append]
    rcases List.mem_append.mp hj' with hj' | hj'
    · rw [List.count_singleton, if_neg (by simpa using Ne.symm (hother job' hj')), Nat.add_zero]
      exact h.place job' hj' hopen'
    · rw [List.mem_singleton.mp hj', List.count_eq_zero.mpr hunplaced.1, if_neg hunplaced.2, List.count_singleton_self]
  · by_cases hidj : id = job.id
    · exact ⟨job, List.mem_append_right _ List.mem_cons_self, hidj.symm, hopen⟩
    · have hold : id ∈ q.ready ∨ q.active = some id := by
        refine hid.imp_left fun hmem => ?_
        exact (List.mem_append.mp hmem).resolve_right fun hlast => hidj (List.mem_singleton.mp hlast)
      obtain ⟨job', hj', hrest⟩ := h.placed id hold
      exact ⟨job', List.mem_append_left _ hj', hrest⟩
  · rcases List.mem_append.mp hid with hid | hid
    · obtain ⟨n, hn, hruns, hjobs⟩ := h.ran id acts hid
      refine ⟨n, hn, hruns, fun job' hj' hjid hopen' => ?_⟩
      rcases List.mem_append.mp hj' with hj' | hj'
      · exact hjobs job' hj' hjid hopen'
      · rw [List.mem_singleton.mp hj'] at hjid
        exact absurd (List.mem_map_of_mem (f := Prod.fst) hid) (hjid ▸ hfresh)
    · obtain ⟨rfl, rfl⟩ : id = job.id ∧ acts = actions := by simpa using hid
      refine ⟨0, Nat.zero_le _, ?_, fun job' hj' hjid _ => ?_⟩
      · have hnone : q.executions.filter (fun e => e.id = job.id) = [] := by
          rw [List.filter_eq_nil_iff]
          intro e he heq
          exact hfresh (of_decide_eq_true heq ▸ h.stray e he)
        show (q.executions.filter (fun e => e.id = job.id)).map _ = _
        rw [hnone]
        rfl
      · rcases List.mem_append.mp hj' with hj' | hj'
        · exact absurd hjid (hother job' hj')
        · rw [List.mem_singleton.mp hj', hcompleted, if_neg hbusy]
  · show e.id ∈ (q.submitted ++ [(job.id, actions)]).map Prod.fst
    rw [List.map_append]
    exact List.mem_append_left _ (h.stray e he)

theorem Inv.submit (h : q.Inv env opts) {actions : List α} (hok : job.Ok actions)
    (hfresh : job.id ∉ q.submitted.map Prod.fst) (hopen : job.finishedAt = none) (hcompleted : job.completed = 0)
    (hjobs : q.jobs.length < opts.jobs) (hitems : q.pendingItems + job.total ≤ opts.pendingItems)
    (hbytes : q.pendingBytes + job.payloadBytes ≤ maxPendingBytes)
    (hretained : q.retainedItems + job.total ≤ maxRetainedItems)
    (hown : q.own env (env.userId job.actor) < opts.userJobs) : Inv env opts { q with
      jobs := q.jobs ++ [job], ready := q.ready ++ [job.id], immediates := q.immediates + 1
      submitted := q.submitted ++ [(job.id, actions)] } := by
  obtain ⟨busy, hcore, hcontrol⟩ := h.core
  have hun : job.finished = false := not_finished hopen
  have hbusy : busy ≠ some job.id := by
    rcases hcontrol with ⟨_, _, _, hb⟩ | ⟨_, _, _, hb⟩ | ⟨job', hj', _, _, _, hb⟩
    · simp [hb]
    · simp [hb]
    · rw [hb]
      intro heq
      exact hfresh (Option.some.inj heq ▸ hcore.submitted_of_job hj')
  have hsum : ∀ g : Job A α H ι → Nat, ((q.jobs ++ [job]).map g).sum = (q.jobs.map g).sum + g job := fun g => by simp
  refine ⟨⟨busy, hcore.submit hok hfresh hopen hcompleted hbusy, ?_⟩, ⟨?_, ?_, ?_, ?_, fun userId => ?_⟩,
    fun _ => Or.inr (Nat.succ_pos _)⟩
  · rcases hcontrol with hcontrol | hcontrol | ⟨job', hj', hrest⟩
    · exact Or.inl hcontrol
    · exact Or.inr (Or.inl hcontrol)
    · exact Or.inr (Or.inr ⟨job', List.mem_append_left _ hj', hrest⟩)
  · show (q.jobs ++ [job]).length ≤ opts.jobs
    rw [List.length_append, List.length_singleton]
    omega
  · rw [pendingItems, hsum, hun, if_neg Bool.false_ne_true, hcompleted]
    exact hitems
  · rw [pendingBytes, hsum, hun, if_neg Bool.false_ne_true]
    exact hbytes
  · rw [retainedItems, hsum]
    exact hretained
  · rw [Queue.own, hsum]
    by_cases huser : env.userId job.actor = userId
    · have hlt : q.own env userId < opts.userJobs := huser ▸ hown
      rw [Queue.own] at hlt
      split <;> omega
    · have hle := h.within.own userId
      rw [if_neg (by simp [huser])]
      exact hle

theorem Inv.enqueue [DecidableEq H] (h : q.Inv env opts) (actor : A) (request : Request α) {id : ι}
    (hfresh : id ∉ q.submitted.map Prod.fst) (now createdAt : Int) :
    (q.enqueue env opts actor request id now createdAt).1.Inv env opts := by
  have hp := h.prune now
  simp only [Queue.enqueue]
  by_cases hsize : maxRequestBytes < env.byteLength request ∨ request.actions.length = 0 ∨
      maxRequestActions < request.actions.length
  · rw [if_pos hsize]
    exact hp
  · rw [if_neg hsize]
    cases hfind : (q.prune opts now).findRequest env (env.userId actor) request.requestId with
    | some job =>
      dsimp only
      split
      · exact hp
      · exact hp
    | none =>
      dsimp only
      by_cases hfull : opts.userJobs ≤ (q.prune opts now).own env (env.userId actor) ∨
          opts.pendingItems < (q.prune opts now).pendingItems + request.actions.length ∨
          maxPendingBytes < (q.prune opts now).pendingBytes + env.byteLength request
      · rw [if_pos hfull]
        exact hp
      · rw [if_neg hfull]
        rw [not_or, not_or] at hfull
        obtain ⟨hsub, hkept, hsum⟩ := reclaim_spec opts.jobs request.actions.length (q.prune opts now).jobs
          (q.prune opts now).jobs.length (q.prune opts now).retainedItems
        have hleft := hsum 0 (by rw [Nat.zero_add]; rfl)
        have hreclaimed := hp.keep hsub fun job hj hopen => hkept job hj (not_finished hopen)
        by_cases hroom : opts.jobs ≤ (reclaim opts.jobs request.actions.length (q.prune opts now).jobs
            (q.prune opts now).jobs.length (q.prune opts now).retainedItems).1.length ∨
            maxRetainedItems < (reclaim opts.jobs request.actions.length (q.prune opts now).jobs
            (q.prune opts now).jobs.length (q.prune opts now).retainedItems).2 + request.actions.length
        · rw [if_pos hroom]
          exact hreclaimed
        · rw [if_neg hroom]
          rw [not_or] at hroom
          rw [not_or, not_or] at hsize
          rw [hleft, Nat.zero_add] at hroom
          have hitems := sum_sublist (fun job => if job.finished then 0 else job.total - job.completed) hsub
          have hbytes := sum_sublist (fun job => if job.finished then 0 else job.payloadBytes) hsub
          have hown := sum_sublist (fun job =>
            if !job.finished && env.userId job.actor == env.userId actor then 1 else 0) hsub
          refine hreclaimed.submit (Job.new_ok env actor request id
            createdAt hsize.2.1) hfresh rfl rfl (Nat.lt_of_not_le hroom.1) ?_ ?_ (Nat.le_of_not_lt hroom.2) ?_
          · exact (Nat.add_le_add_right hitems _).trans (Nat.le_of_not_lt hfull.2.1)
          · exact (Nat.add_le_add_right hbytes _).trans (Nat.le_of_not_lt hfull.2.2)
          · exact Nat.lt_of_le_of_lt hown (Nat.lt_of_not_le hfull.1)

variable {a : Action A α ι} {id : ι}

theorem step_settle [DecidableEq H] {loop : Nat} {outcome : Outcome} {now : Int}
    (hs : Steps.ofFn (step env opts) q (.settle loop outcome now) q') :
    ∃ id index, q.loops[loop]? = some (.executing id index) ∧
      Queue.settle { q with loops := q.loops.eraseIdx loop } id index outcome now = q' := by
  cases hloop : q.loops[loop]? with
  | none => simp [Steps.ofFn, RuleTaskQueue.step, hloop] at hs
  | some l =>
    cases l with
    | pausing => simp [Steps.ofFn, RuleTaskQueue.step, hloop] at hs
    | executing id index =>
      simp only [Steps.ofFn, RuleTaskQueue.step, hloop, Option.some.injEq] at hs
      exact ⟨id, index, rfl, hs⟩

theorem step_resume [DecidableEq H] {loop : Nat} {now : Int}
    (hs : Steps.ofFn (step env opts) q (.resume loop now) q') :
    q.loops[loop]? = some .pausing ∧ Queue.turn { q with loops := q.loops.eraseIdx loop } now = q' := by
  cases hloop : q.loops[loop]? with
  | none => simp [Steps.ofFn, RuleTaskQueue.step, hloop] at hs
  | some l =>
    cases l with
    | executing id index => simp [Steps.ofFn, RuleTaskQueue.step, hloop] at hs
    | pausing =>
      simp only [Steps.ofFn, RuleTaskQueue.step, hloop, Option.some.injEq] at hs
      exact ⟨rfl, hs⟩

theorem Inv.step [DecidableEq H] (h : q.Inv env opts) (hs : Steps.ofFn (step env opts) q a q') : q'.Inv env opts := by
  cases a with
  | enqueue actor request id now createdAt =>
    simp only [Steps.ofFn, RuleTaskQueue.step, Option.ite_none_left_eq_some, Option.some.injEq] at hs
    rw [← hs.2]
    exact h.enqueue actor request hs.1 now createdAt
  | get userId id now =>
    obtain rfl := Option.some.inj hs
    exact h.prune now
  | lookup userId requestId now =>
    obtain rfl := Option.some.inj hs
    exact h.prune now
  | cancel userId id =>
    obtain rfl := Option.some.inj hs
    exact h.cancel userId id
  | immediate now =>
    simp only [Steps.ofFn, RuleTaskQueue.step, Option.ite_none_left_eq_some, Option.some.injEq] at hs
    rw [← hs.2]
    exact h.drain now
  | settle loop outcome now =>
    obtain ⟨id, index, hloop, rfl⟩ := step_settle hs
    exact h.settle hloop outcome now
  | resume loop now =>
    obtain ⟨hloop, rfl⟩ := step_resume hs
    exact h.resume hloop now

/-! ## Jobs that stay, and jobs that are cancelled -/

omit [DecidableEq ι] in
theorem cancelLeft_kept (left : Nat) (job : Job A α H ι) :
    (Job.cancelLeft left job).id = job.id ∧ (Job.cancelLeft left job).cancel = job.cancel := by
  induction left generalizing job with
  | zero => exact ⟨rfl, rfl⟩
  | succ left ih => exact ih _

omit [DecidableEq ι] in
theorem endTurn_kept (job : Job A α H ι) (now : Int) :
    (job.endTurn now).id = job.id ∧ (job.endTurn now).cancel = job.cancel := by
  have hkept := cancelLeft_kept (job.total - job.completed) job
  by_cases hcancel : job.cancel = true
  · simp only [Job.endTurn, if_pos hcancel]
    split
    · exact hkept
    · exact hkept
  · simp only [Job.endTurn, if_neg hcancel]
    split
    · exact ⟨rfl, rfl⟩
    · exact ⟨rfl, rfl⟩

theorem ids_endTurn (q : Queue A α H ι) (job : Job A α H ι) (hid : job.id = id) (now : Int) :
    (q.endTurn id job now).jobs.map Job.id = q.jobs.map Job.id :=
  Rows.keys_set_of fun _ _ _ => (endTurn_kept job now).1.trans hid

theorem ids_turn (q : Queue A α H ι) (now : Int) : (q.turn now).jobs.map Job.id = q.jobs.map Job.id := by
  cases hready : q.ready with
  | nil => simp only [Queue.turn, hready]
  | cons id rest =>
    cases hfind : Rows.find Job.id q.jobs id with
    | none => simp only [Queue.turn, hready, hfind]
    | some job =>
      have hid := Rows.key_of_find hfind
      simp only [Queue.turn, hready, hfind]
      split
      · exact ids_endTurn _ job hid now
      · exact Rows.keys_set_of fun _ _ _ => hid

theorem ids_settle (q : Queue A α H ι) (id : ι) (index : Nat) (outcome : Outcome) (now : Int) :
    (q.settle id index outcome now).jobs.map Job.id = q.jobs.map Job.id := by
  cases hfind : Rows.find Job.id q.jobs id with
  | none => simp only [Queue.settle, hfind]
  | some job =>
    simp only [Queue.settle, hfind]
    have hid := Rows.key_of_find hfind
    exact ids_endTurn q (job.settle _ _) hid now

omit [DecidableEq ι] in
theorem mem_prune (hj : job ∈ q.jobs) (hopen : job.finishedAt = none) (now : Int) : job ∈ (q.prune opts now).jobs := by
  refine List.mem_filter.mpr ⟨hj, ?_⟩
  rw [not_finished hopen]
  rfl

theorem enqueue_jobs [DecidableEq H] (env : Env A α H) (opts : Options) (q : Queue A α H ι) (actor : A) (request : Request α) (id : ι) (now createdAt : Int) :
    (q.enqueue env opts actor request id now createdAt).1.executions = q.executions ∧
    (∀ job ∈ q.jobs, job.finishedAt = none → job ∈ (q.enqueue env opts actor request id now createdAt).1.jobs) ∧
    (∀ job ∈ (q.enqueue env opts actor request id now createdAt).1.jobs, job ∈ q.jobs ∨ job.id = id) ∧
    (∀ e ∈ q.submitted, e ∈ (q.enqueue env opts actor request id now createdAt).1.submitted) := by
  have hprune : ∀ job ∈ (q.prune opts now).jobs, job ∈ q.jobs := fun job hj => (List.mem_filter.mp hj).1
  simp only [Queue.enqueue]
  by_cases hsize : maxRequestBytes < env.byteLength request ∨ request.actions.length = 0 ∨
      maxRequestActions < request.actions.length
  · rw [if_pos hsize]
    exact ⟨rfl, fun job hj hopen => mem_prune hj hopen now, fun job hj => Or.inl (hprune job hj), fun _ he => he⟩
  · rw [if_neg hsize]
    cases hfind : (q.prune opts now).findRequest env (env.userId actor) request.requestId with
    | some job =>
      dsimp only
      split
      · exact ⟨rfl, fun job hj hopen => mem_prune hj hopen now, fun job hj => Or.inl (hprune job hj), fun _ he => he⟩
      · exact ⟨rfl, fun job hj hopen => mem_prune hj hopen now, fun job hj => Or.inl (hprune job hj), fun _ he => he⟩
    | none =>
      dsimp only
      obtain ⟨hsub, hkept, _⟩ := reclaim_spec opts.jobs request.actions.length (q.prune opts now).jobs
        (q.prune opts now).jobs.length (q.prune opts now).retainedItems
      split
      · exact ⟨rfl, fun job hj hopen => mem_prune hj hopen now, fun job hj => Or.inl (hprune job hj), fun _ he => he⟩
      · split
        · exact ⟨rfl, fun job hj hopen => hkept job (mem_prune hj hopen now) (not_finished hopen),
            fun job hj => Or.inl (hprune job (hsub.subset hj)), fun _ he => he⟩
        · refine ⟨rfl, fun job hj hopen =>
            List.mem_append_left _ (hkept job (mem_prune hj hopen now) (not_finished hopen)), fun job hj => ?_,
            fun _ he => List.mem_append_left _ he⟩
          rcases List.mem_append.mp hj with hj | hj
          · exact Or.inl (hprune job (hsub.subset hj))
          · rw [List.mem_singleton.mp hj]
            exact Or.inr rfl

theorem unfinished_kept [DecidableEq H] (hs : Steps.ofFn (step env opts) q a q') (hj : job ∈ q.jobs)
    (hopen : job.finishedAt = none) : ∃ job' ∈ q'.jobs, job'.id = job.id := by
  have hids : q'.jobs.map Job.id = q.jobs.map Job.id → ∃ job' ∈ q'.jobs, job'.id = job.id := by
    intro hsame
    have hmem : job.id ∈ q'.jobs.map Job.id := hsame ▸ List.mem_map_of_mem hj
    exact List.mem_map.mp hmem
  cases a with
  | enqueue actor request id now createdAt =>
    simp only [Steps.ofFn, RuleTaskQueue.step, Option.ite_none_left_eq_some, Option.some.injEq] at hs
    rw [← hs.2]
    exact ⟨job, (enqueue_jobs env opts q actor request id now createdAt).2.1 job hj hopen, rfl⟩
  | get userId id now =>
    obtain rfl := Option.some.inj hs
    exact ⟨job, mem_prune hj hopen now, rfl⟩
  | lookup userId requestId now =>
    obtain rfl := Option.some.inj hs
    exact ⟨job, mem_prune hj hopen now, rfl⟩
  | cancel userId id =>
    obtain rfl := Option.some.inj hs
    apply hids
    simp only [Queue.cancel]
    split
    · rfl
    · split
      · rfl
      · exact Rows.keys_set_of fun _ _ hid => hid
  | immediate now =>
    simp only [Steps.ofFn, RuleTaskQueue.step, Option.ite_none_left_eq_some, Option.some.injEq] at hs
    rw [← hs.2] at hids ⊢
    apply hids
    rw [Queue.drain]
    split
    · rfl
    · exact ids_turn _ now
  | settle loop outcome now =>
    obtain ⟨id, index, -, rfl⟩ := step_settle hs
    exact hids (ids_settle _ id index outcome now)
  | resume loop now =>
    obtain ⟨-, rfl⟩ := step_resume hs
    exact hids (ids_turn _ now)

/-- The job of the id, where it is still there, has been cancelled or has finished. -/
structure Halted (q : Queue A α H ι) (id : ι) : Prop where
  submitted : id ∈ q.submitted.map Prod.fst
  halted : ∀ job ∈ q.jobs, job.id = id → job.cancel = true ∨ job.finishedAt ≠ none

theorem halted_cancel (h : q.Inv env opts) {userId : Int} {snap : Snapshot A α H ι}
    (hc : (q.cancel env userId id).2 = some snap) : (q.cancel env userId id).1.Halted id := by
  obtain ⟨busy, hcore, _⟩ := h.core
  cases hfind : (Rows.find Job.id q.jobs id).filter (fun job => env.userId job.actor == userId) with
  | none =>
    simp only [Queue.cancel, hfind] at hc
    cases hc
  | some job =>
    obtain ⟨hfound, _⟩ := Option.filter_eq_some_iff.mp hfind
    have hj := Rows.mem_of_find hfound
    have hid := Rows.key_of_find hfound
    have hsub : id ∈ q.submitted.map Prod.fst := hid ▸ hcore.submitted_of_job hj
    simp only [Queue.cancel, hfind]
    by_cases hfin : job.finished = true
    · rw [if_pos hfin]
      refine ⟨hsub, fun job' hj' hid' => Or.inr fun hopen => ?_⟩
      obtain rfl : job' = job := Rows.eq_of_key hcore.ids hj' hj (hid'.trans hid.symm)
      rw [not_finished hopen] at hfin
      cases hfin
    · rw [if_neg hfin]
      refine ⟨hsub, fun job' hj' hid' => Or.inl ?_⟩
      rcases Rows.mem_set.mp hj' with ⟨_, _, _, rfl⟩ | ⟨_, hne⟩
      · rfl
      · exact absurd hid' hne

theorem halted_endTurn {q : Queue A α H ι} {job₀ : Job A α H ι} (job : Job A α H ι) (h : q.Halted id)
    (hj : job₀ ∈ q.jobs) (hsame : job.id = job₀.id) (hcancel : job₀.cancel = true → job.cancel = true)
    (hopen : job₀.finishedAt = none) (now : Int) :
    (q.endTurn job₀.id job now).Halted id ∧ (q.endTurn job₀.id job now).runs id = q.runs id := by
  refine ⟨⟨h.submitted, fun job' hj' hjid => ?_⟩, rfl⟩
  rcases Rows.mem_set.mp hj' with ⟨_, _, _, rfl⟩ | ⟨hold, _⟩
  · have hid₀ : job₀.id = id := hsame.symm.trans ((endTurn_kept job now).1.symm.trans hjid)
    rcases h.halted job₀ hj hid₀ with hc | hfin
    · exact Or.inl ((endTurn_kept job now).2.trans (hcancel hc))
    · exact absurd hopen hfin
  · exact h.halted job' hold hjid

theorem halted_turn (hcore : q.Core none) (h : q.Halted id) (now : Int) :
    (q.turn now).Halted id ∧ (q.turn now).runs id = q.runs id := by
  cases hready : q.ready with
  | nil =>
    simp only [Queue.turn, hready]
    exact ⟨⟨h.submitted, h.halted⟩, rfl⟩
  | cons id' rest =>
    obtain ⟨job, hj, rfl, hopen⟩ := hcore.placed id' (Or.inl (by rw [hready]; exact List.mem_cons_self))
    have hfind : Rows.find Job.id q.jobs job.id = some job := Rows.find_of_mem hcore.ids hj
    simp only [Queue.turn, hready, hfind]
    by_cases hcancel : job.cancel = true
    · rw [if_pos hcancel]
      exact halted_endTurn (q := { q with ready := rest, active := some job.id }) job ⟨h.submitted, h.halted⟩ hj rfl
        (fun hc => hc) hopen now
    · rw [if_neg hcancel]
      have hne : job.id ≠ id := by
        intro hid
        rcases h.halted job hj hid with hc | hfin
        · exact hcancel hc
        · exact hfin hopen
      refine ⟨⟨h.submitted, fun job' hj' hjid => ?_⟩, ?_⟩
      · rcases Rows.mem_set.mp hj' with ⟨_, _, _, rfl⟩ | ⟨hold, _⟩
        · exact absurd hjid hne
        · exact h.halted job' hold hjid
      · simp [runs, List.filter_append, hne]

theorem halted_step [DecidableEq H] (hi : q.Inv env opts) (h : q.Halted id) (hs : Steps.ofFn (step env opts) q a q') :
    q'.Halted id ∧ q'.runs id = q.runs id := by
  obtain ⟨busy, hcore, hcontrol⟩ := hi.core
  cases a with
  | enqueue actor request id' now createdAt =>
    simp only [Steps.ofFn, RuleTaskQueue.step, Option.ite_none_left_eq_some, Option.some.injEq] at hs
    obtain ⟨hfresh, rfl⟩ := hs
    obtain ⟨hexec, _, hjobs, hsub⟩ := enqueue_jobs env opts q actor request id' now createdAt
    have hmem : id ∈ (q.enqueue env opts actor request id' now createdAt).1.submitted.map Prod.fst := by
      obtain ⟨e, he, hid⟩ := List.mem_map.mp h.submitted
      exact List.mem_map.mpr ⟨e, hsub e he, hid⟩
    refine ⟨⟨hmem, fun job hj hid => ?_⟩, ?_⟩
    · rcases hjobs job hj with hold | hnew
      · exact h.halted job hold hid
      · have : id' = id := hnew.symm.trans hid
        exact absurd (this ▸ h.submitted) hfresh
    · rw [runs, hexec]
      rfl
  | get userId id' now =>
    obtain rfl := Option.some.inj hs
    exact ⟨⟨h.submitted, fun job hj => h.halted job (List.mem_filter.mp hj).1⟩, rfl⟩
  | lookup userId requestId now =>
    obtain rfl := Option.some.inj hs
    exact ⟨⟨h.submitted, fun job hj => h.halted job (List.mem_filter.mp hj).1⟩, rfl⟩
  | cancel userId id' =>
    obtain rfl := Option.some.inj hs
    simp only [Queue.cancel]
    split
    · exact ⟨h, rfl⟩
    · split
      · exact ⟨h, rfl⟩
      · refine ⟨⟨h.submitted, fun job hj hid => ?_⟩, rfl⟩
        rcases Rows.mem_set.mp hj with ⟨_, _, _, rfl⟩ | ⟨hold, _⟩
        · exact Or.inl rfl
        · exact h.halted job hold hid
  | immediate now =>
    simp only [Steps.ofFn, RuleTaskQueue.step, Option.ite_none_left_eq_some, Option.some.injEq] at hs
    rw [← hs.2, Queue.drain]
    by_cases hd : q.draining = true
    · rw [if_pos hd]
      exact ⟨⟨h.submitted, h.halted⟩, rfl⟩
    · rw [if_neg hd]
      rcases hcontrol with ⟨_, _, _, rfl⟩ | ⟨hdrain, _⟩ | ⟨_, _, hdrain, _⟩
      · exact halted_turn (q := { q with immediates := q.immediates - 1, draining := true })
          (hcore.of_eq rfl rfl rfl rfl rfl) ⟨h.submitted, h.halted⟩ now
      · exact absurd hdrain hd
      · exact absurd hdrain hd
  | settle loop outcome now =>
    obtain ⟨id', index, hloop, rfl⟩ := step_settle hs
    obtain ⟨job, hj, rfl, rfl, hopen, -, -, -, hcore⟩ := hi.executing hloop
    have hfind : Rows.find Job.id q.jobs job.id = some job := Rows.find_of_mem hcore.ids hj
    simp only [Queue.settle, hfind]
    exact halted_endTurn (q := { q with loops := q.loops.eraseIdx loop }) (job.settle _ _) ⟨h.submitted, h.halted⟩ hj
      rfl (fun hc => by simp [Job.settle, hc]) hopen now
  | resume loop now =>
    obtain ⟨hloop, rfl⟩ := step_resume hs
    exact halted_turn (q := { q with loops := q.loops.eraseIdx loop })
      ((hi.pausing hloop).2.2.2.of_eq rfl rfl rfl rfl rfl) ⟨h.submitted, h.halted⟩ now

theorem enqueue_retained [DecidableEq H] (q : Queue A α H ι) (actor : A) (request : Request α) (id : ι)
    (now createdAt : Int) (hj : job ∈ (q.prune opts now).jobs) (huser : env.userId job.actor = env.userId actor)
    (hrequest : job.requestId = request.requestId) :
    (q.enqueue env opts actor request id now createdAt).1 = q.prune opts now := by
  have hsome : ((q.prune opts now).findRequest env (env.userId actor) request.requestId).isSome = true := by
    rw [findRequest, List.find?_isSome]
    exact ⟨job, hj, by simp [huser, hrequest]⟩
  obtain ⟨found, hfound⟩ := Option.isSome_iff_exists.mp hsome
  simp only [Queue.enqueue, hfound]
  split
  · rfl
  · split <;> rfl

variable [DecidableEq H]

structure Sound (env : Env A α H) (opts : Options) (q : Queue A α H ι) : Prop where
  /-- One call of `drain` at most is under way, so one call of `execute` at most is. -/
  single : q.loops.length ≤ 1
  /-- The `execute` calls of a job are for its first actions, in the order of their indices. -/
  ordered : ∀ id actions, (id, actions) ∈ q.submitted → ∃ n ≤ actions.length, q.runs id = firstRuns actions n
  submitted : ∀ e ∈ q.executions, e.id ∈ q.submitted.map Prod.fst
  results : ∀ job ∈ q.jobs, job.results.map RuleTaskResult.index = List.range job.completed ∧
    job.completed = job.succeeded + job.failed + job.skipped + job.cancelled ∧ job.completed ≤ job.total ∧
    (job.completed = job.total ↔ job.finishedAt ≠ none)
  placed : ∀ job ∈ q.jobs, job.finishedAt = none →
    q.ready.count job.id + (if q.active = some job.id then 1 else 0) = 1
  limits : q.Within env opts
  /-- No step removes an unfinished job. -/
  kept : ∀ a q', Steps.ofFn (step env opts) q a q' → ∀ job ∈ q.jobs, job.finishedAt = none →
    ∃ job' ∈ q'.jobs, job'.id = job.id
  /-- Once `cancel` has returned the job, no further action of it is executed. -/
  cancelled : ∀ userId id snap, (q.cancel env userId id).2 = some snap → ∀ as q',
    Run (Steps.ofFn (step env opts)) (q.cancel env userId id).1 as q' → q'.runs id = (q.cancel env userId id).1.runs id
  /-- A request id of the user that a job has which is still retained creates nothing. -/
  resubmitted : ∀ actor request id now createdAt, ∀ job ∈ (q.prune opts now).jobs,
    env.userId job.actor = env.userId actor → job.requestId = request.requestId →
    (q.enqueue env opts actor request id now createdAt).1 = q.prune opts now
  /-- While a job is left, a call of `drain` is under way or will be made. -/
  awake : (∃ job ∈ q.jobs, job.finishedAt = none) → q.loops ≠ [] ∨ 0 < q.immediates

theorem Inv.sound {q : Queue A α H ι} (h : q.Inv env opts) : q.Sound env opts := by
  obtain ⟨busy, hcore, hcontrol⟩ := h.core
  refine ⟨?_, fun id actions hid => ?_, hcore.stray, fun job hj => ?_, hcore.place, h.within,
    fun a q' hs job hj hopen => unfinished_kept hs hj hopen, fun userId id snap hc as q' hrun => ?_,
    fun actor request id now createdAt job hj huser hrequest =>
      enqueue_retained q actor request id now createdAt hj huser hrequest, fun hleft => ?_⟩
  · rcases hcontrol with ⟨_, hloops, _⟩ | ⟨_, hloops, _⟩ | ⟨_, _, _, hloops, _⟩
    · simp [hloops]
    · simp [hloops]
    · simp [hloops]
  · obtain ⟨n, hn, hruns, _⟩ := hcore.ran id actions hid
    exact ⟨n, hn, hruns⟩
  · obtain ⟨actions, _, hok⟩ := hcore.known job hj
    exact ⟨hok.counts.indices, hok.counts.sum, hok.counts.le, hok.ends⟩
  · have hall := hrun.preserves (P := fun t => t.Inv env opts ∧ t.Halted id ∧
        t.runs id = (q.cancel env userId id).1.runs id)
      (fun t a t' hs ht => ⟨ht.1.step hs, (halted_step ht.1 ht.2.1 hs).1, (halted_step ht.1 ht.2.1 hs).2.trans ht.2.2⟩)
      ⟨h.cancel userId id, halted_cancel h hc, rfl⟩
    exact hall.2.2
  · obtain ⟨job, hj, hopen⟩ := hleft
    have hplace := hcore.place job hj hopen
    rcases hcontrol with ⟨hdrain, hloops, hactive, _⟩ | ⟨_, hloops, _⟩ | ⟨_, _, _, hloops, _⟩
    · right
      rw [hactive, if_neg (by simp), Nat.add_zero] at hplace
      have hne : q.ready ≠ [] := fun hnil => by simp [hnil] at hplace
      exact (h.awake hne).resolve_left (by simp [hdrain])
    · left
      simp [hloops]
    · left
      simp [hloops]

end

end Queue

end

end ForwardX.Panel.RuleTaskQueue
