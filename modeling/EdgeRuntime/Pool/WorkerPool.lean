import Mathlib.Data.List.Basic

/-! # The user-worker loop of `WorkerPool::new`

`WorkerPool::new` (`worker_ctx.rs`, lines 139–190) boots the main worker and then runs, inline,
the loop that serves user workers: it receives `UserWorkerMsgs` from one unbounded channel, keeps
the table `user_workers` from service path to worker, and answers each message on the oneshot
sender it carries.

* `Create`: the key is the service path's display text; a key not in the table gets a worker
  from `WorkerContext::new_user_worker`, unwrapped and inserted; the caller is then sent the key.
* `SendRequest`: the key's worker is looked up and unwrapped, the request is sent on its
  connection, and the unwrapped response is sent to the caller.

The loop awaits each call before the next message, so it handles messages one at a time.  Its
external calls are answered by the outside world: `Answers` are the answers to the calls made
while one message is handled, and every sequence of them is a possible run.  An `unwrap` on an
`Err` or on `None` panics, which ends the loop (`Status.panicked`).

`new_user_worker` spawns the boot (`UserWorker::new`, then `worker.run`) as a task and returns as
soon as the HTTP handshake over the socket pair is done; the task's result stays in the
context's `handle`, which the loop never reads.  The model records that result in the handle.

The table is a `HashMap`; it is modelled by the lookups it answers (`UserWorkers`).
-/

namespace EdgeRuntime.Pool

/-- The options a `Create` carries, as far as this code reads them: the loop keys the table by
`service_path`, and `new_user_worker` hands the rest to `UserWorker::new`, whose answer is the
outside world's. -/
structure UserWorkerOptions where
  servicePath : String
  deriving Repr, DecidableEq

/-- The outside world's answers to the calls `new_user_worker` makes. -/
structure BootAnswers where
  /-- `UnixStream::pair()`. -/
  unixStreamPair : Except String Unit
  /-- `UserWorker::new(..)`, in the spawned boot task. -/
  userWorkerNew : Except String Unit
  /-- `worker.run(recv_stream, shutdown_tx)`, in the spawned boot task. -/
  workerRun : Except String Unit
  /-- `hyper::client::conn::handshake(sender_stream)`: the connection's request sender. -/
  handshake : Except String Nat

/-- `WorkerContext`: the boot task's handle, holding the result the task ends with, and the
request sender of the HTTP connection to the worker. -/
structure WorkerContext where
  handle : Except String Unit
  requestSender : Nat

/-- The spawned boot task (lines 89–109): `UserWorker::new(..)?`, then `worker.run(..)?`. -/
def bootTask (a : BootAnswers) : Except String Unit := do
  a.userWorkerNew
  a.workerRun

/-- `WorkerContext::new_user_worker` (lines 78–125): the socket pair, the boot task spawned, the
handshake; it does not wait for the boot task. -/
def newUserWorker (a : BootAnswers) : Except String WorkerContext := do
  a.unixStreamPair
  let handle := bootTask a
  let requestSender ← a.handshake
  pure ⟨handle, requestSender⟩

/-- `UserWorkerMsgs` as the loop matches them; `tx` names the caller's oneshot sender, a request
and a response are their payloads. -/
inductive UserWorkerMsgs
  | create (workerOptions : UserWorkerOptions) (tx : Nat)
  | sendRequest (key : String) (req : String) (tx : Nat)
  deriving Repr, DecidableEq

/-- What the loop sends on a caller's oneshot sender. -/
inductive Reply
  | createUserWorkerResult (key : String)
  | response (res : String)
  deriving Repr, DecidableEq

/-- The outside world's answers to the calls made while one message is handled. -/
structure Answers where
  boot : BootAnswers
  /-- `worker.send_request(req)`: a response or a `hyper::Error`. -/
  sendRequest : Except String String

/-- What the loop does to the outside world. -/
inductive Effect
  /-- A call to `WorkerContext::new_user_worker` with these options, and its result. -/
  | newUserWorker (workerOptions : UserWorkerOptions) (result : Except String WorkerContext)
  /-- A request sent on a worker's connection, and its result. -/
  | sendRequest (worker : WorkerContext) (req : String) (result : Except String String)
  /-- `tx.send(..)`. -/
  | send (tx : Nat) (reply : Reply)

/-- `HashMap<String, Arc<RwLock<WorkerContext>>>`, as the lookups it answers. -/
def UserWorkers := String → Option WorkerContext

/-- `HashMap::new()`. -/
def UserWorkers.empty : UserWorkers := fun _ => none

/-- `HashMap::insert`. -/
def UserWorkers.insert (m : UserWorkers) (key : String) (ctx : WorkerContext) : UserWorkers :=
  fun k => if k = key then some ctx else m k

/-- Whether the loop is still receiving. -/
inductive Status
  | running
  /-- `recv()` returned `None`: the loop broke. -/
  | stopped
  /-- An `unwrap` panicked. -/
  | panicked
  deriving Repr, DecidableEq

/-- The loop's state: the table, what it has done, and whether it still runs. -/
structure PoolLoop where
  userWorkers : UserWorkers
  effects : List Effect
  status : Status

/-- The loop as it starts (line 159). -/
def PoolLoop.init : PoolLoop := ⟨UserWorkers.empty, [], .running⟩

/-- One turn of the loop (lines 162–185) on what `user_worker_msgs_rx.recv()` returned. -/
def PoolLoop.turn (s : PoolLoop) (a : Answers) : Option UserWorkerMsgs → PoolLoop
  | none => { s with status := .stopped }
  | some (.create workerOptions tx) =>
    let key := workerOptions.servicePath
    if (s.userWorkers key).isSome then
      { s with effects := s.effects ++ [.send tx (.createUserWorkerResult key)] }
    else
      match newUserWorker a.boot with
      | .error e =>
        { s with effects := s.effects ++ [.newUserWorker workerOptions (.error e)],
                 status := .panicked }
      | .ok ctx =>
        { s with userWorkers := s.userWorkers.insert key ctx,
                 effects := s.effects ++ [.newUserWorker workerOptions (.ok ctx),
                   .send tx (.createUserWorkerResult key)] }
  | some (.sendRequest key req tx) =>
    match s.userWorkers key with
    | none => { s with status := .panicked }
    | some worker =>
      match a.sendRequest with
      | .error e =>
        { s with effects := s.effects ++ [.sendRequest worker req (.error e)],
                 status := .panicked }
      | .ok res =>
        { s with effects := s.effects ++ [.sendRequest worker req (.ok res),
                   .send tx (.response res)] }

/-- The loop handling received messages in order, with the answers to their calls; once it no
longer runs, nothing more is handled. -/
def PoolLoop.run (s : PoolLoop) : List (UserWorkerMsgs × Answers) → PoolLoop
  | [] => s
  | (m, a) :: rest => if s.status = .running then (s.turn a (some m)).run rest else s

/-! ## One turn -/

@[simp] theorem UserWorkers.insert_apply (m : UserWorkers) (key : String) (ctx : WorkerContext)
    (k : String) : m.insert key ctx k = if k = key then some ctx else m k := rfl

@[simp] theorem PoolLoop.turn_none (s : PoolLoop) (a : Answers) :
    (s.turn a none).status = .stopped := rfl

/-- **A `Create` the loop survives**: either the key was in the table and the caller is sent the
key, or it was not, `new_user_worker` returned a context, the context is inserted and the caller
is sent the key. -/
theorem PoolLoop.turn_create_of_running {s : PoolLoop} {a : Answers} {o : UserWorkerOptions}
    {tx : Nat} (h : (s.turn a (some (.create o tx))).status = .running) :
    ((s.userWorkers o.servicePath).isSome ∧
      s.turn a (some (.create o tx)) =
        { s with effects := s.effects ++ [.send tx (.createUserWorkerResult o.servicePath)] }) ∨
    (s.userWorkers o.servicePath = none ∧ ∃ ctx, newUserWorker a.boot = .ok ctx ∧
      s.turn a (some (.create o tx)) =
        { s with userWorkers := s.userWorkers.insert o.servicePath ctx,
                 effects := s.effects ++ [.newUserWorker o (.ok ctx),
                   .send tx (.createUserWorkerResult o.servicePath)] }) := by
  dsimp only [turn] at h ⊢
  by_cases hk : (s.userWorkers o.servicePath).isSome
  · exact .inl ⟨hk, by rw [if_pos hk]⟩
  · rw [if_neg hk] at h ⊢
    refine .inr ⟨Option.not_isSome_iff_eq_none.mp hk, ?_⟩
    cases hc : newUserWorker a.boot with
    | error e => rw [hc] at h; cases h
    | ok ctx => exact ⟨ctx, rfl, rfl⟩

/-- **A `SendRequest` the loop survives**: the key's worker was in the table, the request got a
response, and the caller is sent it. -/
theorem PoolLoop.turn_sendRequest_of_running {s : PoolLoop} {a : Answers} {key req : String}
    {tx : Nat} (h : (s.turn a (some (.sendRequest key req tx))).status = .running) :
    ∃ worker res, s.userWorkers key = some worker ∧ a.sendRequest = .ok res ∧
      s.turn a (some (.sendRequest key req tx)) =
        { s with effects := s.effects ++ [.sendRequest worker req (.ok res),
          .send tx (.response res)] } := by
  dsimp only [turn] at h ⊢
  cases hw : s.userWorkers key with
  | none => rw [hw] at h; cases h
  | some worker =>
    rw [hw] at h
    cases hres : a.sendRequest with
    | error e => rw [hres] at h; cases h
    | ok res => exact ⟨worker, res, rfl, rfl, rfl⟩

/-- **The loop does not survive an outside failure**: a `SendRequest` for a key never created,
a `Create` whose socket pair cannot be made, and a `SendRequest` whose transport fails each end
the loop in an `unwrap` panic, with the caller answered by nothing but the dropped sender. -/
theorem user_worker_loop_panics :
    (PoolLoop.init.turn ⟨⟨.ok (), .ok (), .ok (), .ok 0⟩, .ok "200 OK"⟩
      (some (.sendRequest "svc" "GET /" 0))).status = .panicked ∧
    (PoolLoop.init.turn ⟨⟨.error "EMFILE", .ok (), .ok (), .ok 0⟩, .ok "200 OK"⟩
      (some (.create ⟨"svc"⟩ 0))).status = .panicked ∧
    ((PoolLoop.init.turn ⟨⟨.ok (), .ok (), .ok (), .ok 0⟩, .ok "200 OK"⟩
      (some (.create ⟨"svc"⟩ 0))).turn ⟨⟨.ok (), .ok (), .ok (), .ok 0⟩, .error "connection reset"⟩
        (some (.sendRequest "svc" "GET /" 1))).status = .panicked :=
  ⟨rfl, rfl, rfl⟩

/-! ## Runs -/

@[simp] theorem PoolLoop.run_nil (s : PoolLoop) : s.run [] = s := rfl

theorem PoolLoop.run_of_not_running {s : PoolLoop} (h : s.status ≠ .running) :
    ∀ msgs, s.run msgs = s
  | [] => rfl
  | _ :: _ => by simp [run, h]

theorem PoolLoop.run_append (s : PoolLoop) :
    ∀ (msgs more : List (UserWorkerMsgs × Answers)), s.run (msgs ++ more) = (s.run msgs).run more
  | [], _ => rfl
  | (m, a) :: msgs, more => by
    by_cases h : s.status = .running
    · simp only [List.cons_append, run, if_pos h]
      exact run_append _ msgs more
    · simp only [List.cons_append, run, if_neg h, run_of_not_running h]

theorem PoolLoop.run_append_singleton (s : PoolLoop) (msgs : List (UserWorkerMsgs × Answers))
    (m : UserWorkerMsgs) (a : Answers) :
    s.run (msgs ++ [(m, a)]) =
      if (s.run msgs).status = .running then (s.run msgs).turn a (some m) else s.run msgs := by
  rw [run_append]
  by_cases h : (s.run msgs).status = .running <;> simp [run, h]

/-- A run that still runs has run at every earlier point. -/
theorem PoolLoop.running_of_append {s : PoolLoop} {msgs more : List (UserWorkerMsgs × Answers)}
    (h : (s.run (msgs ++ more)).status = .running) : (s.run msgs).status = .running := by
  by_contra hn
  rw [run_append, run_of_not_running hn] at h
  exact hn h

end EdgeRuntime.Pool
