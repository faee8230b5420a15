import EdgeRuntime.Supervisor.Loop
import EdgeRuntime.Worker.Intake

/-! # `create_worker` and `send_user_worker_request`

`create_worker` (`rt_worker/worker_ctx.rs`, lines 151–209) builds a `Worker`, starts it with the
sending half of a oneshot boot-result channel, spawns the request intake (`Worker.Intake`) and
then waits for the boot result.  Unlike `WorkerContext::new_user_worker` in the pool
(`Pool.WorkerPool`), it hands out the request sender only once the boot has reported success; on
a failed boot it aborts the intake task and returns the error, and if the worker drops the boot
sender unsent, the `?` on the receive returns that error instead.  On success it reports one
`Boot` event with the boot time, through `send_event_if_event_worker_available`, which sends
only when the worker has an event worker's sender.

`send_user_worker_request` (lines 211–227) sends a request to such a worker and waits on its own
oneshot receiver: the caller gets the response, the transport error, or a receive error when
`handle_request` dropped the sender (`Resolution`).

Whether the `dyn WorkerHandler` downcasts back to `Worker` depends on `as_any`, declared with the
trait outside these files; it is a parameter here (`downcast`), and so is whether an event
worker is available (`eventWorker`).
-/

namespace EdgeRuntime.Worker

/-- The outside world's answers to what `create_worker` waits for. -/
structure CreateAnswers where
  /-- `Worker::new(&init_opts)`. -/
  workerNew : Except String Unit
  /-- `worker.as_any().downcast_ref::<Worker>()` found the `Worker`. -/
  downcast : Bool
  /-- What `worker_boot_result_rx.await` yields: `none` when the worker dropped the sender. -/
  bootResult : Option (Except String Unit)
  /-- `worker_boot_start_time.elapsed().as_millis()` when the boot result arrives. -/
  bootTimeMs : Nat
  /-- Whether the worker's `events_msg_tx` holds an event worker's sender, so that
  `send_event_if_event_worker_available` sends the event. -/
  eventWorker : Bool

/-- What `create_worker` does besides returning. -/
inductive CreateEffect
  /-- `worker_struct_ref.start(..)` with the boot-result sender. -/
  | start
  /-- The intake task is spawned. -/
  | spawnIntake
  /-- `worker_req_handle.abort()`. -/
  | abortIntake
  /-- `send_event_if_event_worker_available(.., WorkerEvents::Boot(..), ..)`. -/
  | sendEvent (ev : WorkerEvents)
  deriving Repr, DecidableEq

/-- `create_worker`: its effects, and `Ok` with the request sender (`()` here) or the error. -/
def createWorker (a : CreateAnswers) : List CreateEffect × Except String Unit :=
  match a.workerNew with
  | .error e => ([], .error e)
  | .ok () =>
    if a.downcast then
      match a.bootResult with
      | none => ([.start, .spawnIntake], .error "channel closed")
      | some (.error e) => ([.start, .spawnIntake, .abortIntake], .error e)
      | some (.ok ()) =>
        ([.start, .spawnIntake] ++ if a.eventWorker then [.sendEvent (.boot a.bootTimeMs)] else [],
          .ok ())
    else ([], .error "Unknown")

/-- The outcomes of `create_worker`: it returns `Ok` exactly when `Worker::new` succeeded, the
downcast found the `Worker`, and the boot reported success; then it has started the worker,
spawned the intake, and sent the `Boot` event with the boot time if an event worker is
available.  A failed boot aborts the intake and returns the boot's error. -/
theorem createWorker_ok_iff (a : CreateAnswers) :
    ((createWorker a).2 = .ok () ↔
      a.workerNew = .ok () ∧ a.downcast = true ∧ a.bootResult = some (.ok ())) ∧
    ((createWorker a).2 = .ok () →
      (createWorker a).1 = [.start, .spawnIntake] ++
        if a.eventWorker then [.sendEvent (.boot a.bootTimeMs)] else []) ∧
    (∀ e, a.bootResult = some (.error e) → a.workerNew = .ok () → a.downcast = true →
      (createWorker a).1 = [.start, .spawnIntake, .abortIntake] ∧ (createWorker a).2 = .error e) := by
  obtain ⟨w, d, b, t, ev⟩ := a
  rcases w with e | ⟨⟩ <;> cases d <;> rcases b with _ | e' | ⟨⟩ <;>
    simp [createWorker]

/-- `send_user_worker_request` (lines 211–227): the request is sent to the worker's intake, whose
receiver is gone once the intake was aborted or has ended; then the caller waits for its
resolution. -/
def sendUserWorkerRequest (intakeOpen : Bool) (r : Resolution) : Except String String :=
  if intakeOpen then
    match r with
    | .response res => .ok res
    | .transportError e => .error e
    | .dropped => .error "channel closed"
  else .error "channel closed"

/-- The caller gets a response exactly when the intake took the request and its
`handle_request` task sent one. -/
theorem sendUserWorkerRequest_ok_iff (intakeOpen : Bool) (r : Resolution) (res : String) :
    sendUserWorkerRequest intakeOpen r = .ok res ↔ intakeOpen = true ∧ r = .response res := by
  cases intakeOpen <;> cases r <;> simp [sendUserWorkerRequest]

end EdgeRuntime.Worker
