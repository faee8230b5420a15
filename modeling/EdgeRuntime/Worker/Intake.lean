import Mathlib.Data.List.Chain
import Mathlib.Data.List.Nodup

/-! # The request intake of `create_worker`

`create_worker` (`rt_worker/worker_ctx.rs`, lines 151–209) spawns an intake task that receives
`WorkerRequestMsg`s from `worker_req_rx` and, for each, spawns a separate task running
`handle_request` (lines 32–56).  That task makes a socket pair, sends one end on
`unix_stream_tx` to the worker, performs the HTTP handshake on the other end, sends the request
and answers the caller on `res_tx`.  The first part, up to the send on `unix_stream_tx`, has no
`.await`: once the runtime has started the task's first poll, `UnixStream::pair()` and the send
follow without a suspension.  The handshake and the request each suspend.

Which spawned task the runtime polls next is not fixed, and on a runtime with several worker
threads two first polls can run at once.  So a first poll is two steps here: its start
(`Action.poll`), and `UnixStream::pair()` with the send that follows it (`Action.pair`), with
anything in between.  An `Intake` records the tasks spawned (task `i` handles the `i`-th
message received), the streams sent on `unix_stream_tx` by the message each serves, the tasks
whose socket pair failed, the order in which tasks were first polled, and how each caller's
`res_rx` was resolved; `step` is one thing happening.

The streams reach the worker in the order the tasks get through `UnixStream::pair()`: neither
the order the messages were received nor the order the tasks were first polled
(`streams_out_of_order`).  Each task sends its stream once, exactly when its socket pair was
made, and none when that failed (`run_records`); when each first poll runs to its send before
anything else happens, as on a current-thread runtime, the streams follow the first polls
(`streams_follow_first_polls`).
Every caller is answered at most once, and exactly once when its task has finished
(`callers_answered_once`).
-/

namespace EdgeRuntime.Worker

/-- Where a spawned `handle_request` task stands. -/
inductive Phase
  /-- Spawned, not yet polled. -/
  | spawned
  /-- Its first poll started; `UnixStream::pair()` not yet returned. -/
  | polling
  /-- Its stream sent on `unix_stream_tx`; suspended in `handshake`. -/
  | handshaking
  /-- Connection up; suspended in `send_request`. -/
  | requesting
  /-- Returned: it sent the result on `res_tx`, or failed and dropped it. -/
  | finished
  deriving Repr, DecidableEq

/-- What a caller's `res_rx` resolves to. -/
inductive Resolution
  /-- `res_tx.send(Ok(response))`. -/
  | response (res : String)
  /-- `res_tx.send(Err(e))`: the `hyper::Error` of the transport. -/
  | transportError (e : String)
  /-- `res_tx` dropped unsent, when `handle_request` failed: the caller gets a `RecvError`. -/
  | dropped
  deriving Repr, DecidableEq

/-- The result of `request_sender.send_request(msg.req)`, as the caller receives it. -/
def Resolution.ofResult : Except String String → Resolution
  | .ok res => .response res
  | .error e => .transportError e

/-- The intake task, the `handle_request` tasks it spawned, and what they have done. -/
structure Intake where
  /-- The phase of each spawned task; task `i` handles the `i`-th message received. -/
  tasks : List Phase
  /-- The streams sent on `unix_stream_tx`, in order, by the message each serves. -/
  streams : List Nat
  /-- The tasks whose `UnixStream::pair()` failed, in order. -/
  failedPairs : List Nat
  /-- The tasks in the order the runtime started their first polls. -/
  firstPolls : List Nat
  /-- How each caller was answered, in order. -/
  resolved : List (Nat × Resolution)
  deriving Repr, DecidableEq

/-- One thing happening in the intake. -/
inductive Action
  /-- The intake loop receives the next message and spawns its `handle_request` task. -/
  | recv
  /-- The runtime starts the first poll of task `i`. -/
  | poll (i : Nat)
  /-- Task `i`'s `UnixStream::pair()` returns, `ok` or an error; on success the task sends the
  stream on `unix_stream_tx` before it next suspends. -/
  | pair (i : Nat) (ok : Bool)
  /-- Task `i`'s handshake completes, successfully or not. -/
  | handshake (i : Nat) (ok : Bool)
  /-- Task `i`'s request returns. -/
  | respond (i : Nat) (result : Except String String)

/-- Nothing spawned yet. -/
def Intake.init : Intake := ⟨[], [], [], [], []⟩

/-- Task `i` returns, its caller answered with `r`. -/
def Intake.finish (s : Intake) (i : Nat) (r : Resolution) : Intake :=
  { s with tasks := s.tasks.set i .finished, resolved := s.resolved ++ [(i, r)] }

/-- One step of the intake; `none` when the action cannot happen. -/
def step (s : Intake) : Action → Option Intake
  | .recv => some { s with tasks := s.tasks ++ [.spawned] }
  | .poll i =>
    if s.tasks[i]? = some .spawned then
      some { s with tasks := s.tasks.set i .polling, firstPolls := s.firstPolls ++ [i] }
    else none
  | .pair i ok =>
    if s.tasks[i]? = some .polling then
      some (if ok then { s with tasks := s.tasks.set i .handshaking, streams := s.streams ++ [i] }
        else Intake.finish { s with failedPairs := s.failedPairs ++ [i] } i .dropped)
    else none
  | .handshake i ok =>
    if s.tasks[i]? = some .handshaking then
      some (if ok then { s with tasks := s.tasks.set i .requesting } else s.finish i .dropped)
    else none
  | .respond i result =>
    if s.tasks[i]? = some .requesting then some (s.finish i (.ofResult result)) else none

/-- The actions of a list, in order. -/
def run : Intake → List Action → Option Intake
  | s, [] => some s
  | s, a :: as => (step s a).bind (run · as)

theorem run_append_singleton (s : Intake) (acts : List Action) (a : Action) :
    run s (acts ++ [a]) = (run s acts).bind (step · a) := by
  induction acts generalizing s with
  | nil => simp [run]
  | cons b acts ih => cases h : step s b <;> simp [run, h, ih]

/-- The intakes some run from `Intake.init` reaches. -/
inductive Reachable : Intake → Prop
  | init : Reachable Intake.init
  | step {s s' : Intake} {a : Action} : Reachable s → step s a = some s' → Reachable s'

theorem Reachable.run {s s' : Intake} (hs : Reachable s) :
    ∀ {acts : List Action}, run s acts = some s' → Reachable s'
  | [], h => by cases h; exact hs
  | a :: as, h => by
    obtain ⟨s₁, hst, h⟩ := Option.bind_eq_some.mp h
    exact Reachable.run (Reachable.step hs hst) h

/-! ## The records of a run -/

/-- The task whose first poll an action starts. -/
def Action.firstPolled? : Action → Option Nat
  | .poll i => some i
  | _ => none

/-- The task whose stream an action sends: its `UnixStream::pair()` succeeds. -/
def Action.sentStream? : Action → Option Nat
  | .pair i true => some i
  | _ => none

/-- The task whose `UnixStream::pair()` an action fails. -/
def Action.failedPair? : Action → Option Nat
  | .pair i false => some i
  | _ => none

/-- What a step adds to the records: a first poll adds its task to the first polls, a socket
pair adds its task to the streams or to the failed pairs, and no other step changes them. -/
theorem step_records {s s' : Intake} {a : Action} (h : step s a = some s') :
    s'.firstPolls = s.firstPolls ++ a.firstPolled?.toList ∧
      s'.streams = s.streams ++ a.sentStream?.toList ∧
      s'.failedPairs = s.failedPairs ++ a.failedPair?.toList := by
  cases a with
  | recv => cases h; simp [Action.firstPolled?, Action.sentStream?, Action.failedPair?]
  | pair i ok =>
    simp only [EdgeRuntime.Worker.step, Option.ite_none_right_eq_some, Option.some.injEq] at h
    obtain ⟨-, rfl⟩ := h
    cases ok <;> simp [Intake.finish, Action.firstPolled?, Action.sentStream?, Action.failedPair?]
  | poll i | handshake i _ | respond i _ =>
    simp only [EdgeRuntime.Worker.step] at h
    split_ifs at h <;> cases h <;>
      simp [Intake.finish, Action.firstPolled?, Action.sentStream?, Action.failedPair?]

/-- **The records of a run, read off its actions**: the first polls started, the streams sent
and the socket pairs failed, each in the order of the steps that did it. -/
theorem run_records {acts : List Action} {s : Intake} (h : run Intake.init acts = some s) :
    s.firstPolls = acts.filterMap Action.firstPolled? ∧
      s.streams = acts.filterMap Action.sentStream? ∧
      s.failedPairs = acts.filterMap Action.failedPair? := by
  induction acts using List.reverseRecOn generalizing s with
  | nil => cases h; exact ⟨rfl, rfl, rfl⟩
  | append_singleton acts a ih =>
    rw [run_append_singleton] at h
    obtain ⟨s₀, h₀, hs⟩ := Option.bind_eq_some.mp h
    obtain ⟨h1, h2, h3⟩ := ih h₀
    obtain ⟨e1, e2, e3⟩ := step_records hs
    have hone : ∀ f : Action → Option Nat, [a].filterMap f = (f a).toList := fun f => by
      cases h : f a <;> simp [h]
    rw [e1, e2, e3, h1, h2, h3]
    simp only [List.filterMap_append, hone, and_self]

/-! ## The invariant -/

/-- What every reachable intake says of task `j`: it is among the first polls once it has left
`spawned`; it has sent its stream once it got through `UnixStream::pair()`, unless that
failed; a failed pair finished it; and its caller was answered once it finished. -/
structure TaskGood (s : Intake) (j : Nat) : Prop where
  polled : j ∈ s.firstPolls ↔ ∃ p, s.tasks[j]? = some p ∧ p ≠ .spawned
  sent : j ∈ s.streams ↔ j ∈ s.firstPolls ∧ s.tasks[j]? ≠ some .polling ∧ j ∉ s.failedPairs
  failed : j ∈ s.failedPairs → s.tasks[j]? = some .finished
  answered : j ∈ s.resolved.map Prod.fst ↔ s.tasks[j]? = some .finished

/-- What every reachable intake satisfies: each task's invariant, and no task twice in a
record. -/
structure Good (s : Intake) : Prop where
  task : ∀ j, TaskGood s j
  firstPolls_nodup : s.firstPolls.Nodup
  streams_nodup : s.streams.Nodup
  resolved_nodup : (s.resolved.map Prod.fst).Nodup

/-- A task's invariant depends only on its own phase and on whether it is in each record. -/
theorem TaskGood.congr {s s' : Intake} {j : Nat} (h : TaskGood s j)
    (ht : s'.tasks[j]? = s.tasks[j]?) (hf : j ∈ s'.firstPolls ↔ j ∈ s.firstPolls)
    (hs : j ∈ s'.streams ↔ j ∈ s.streams) (hp : j ∈ s'.failedPairs ↔ j ∈ s.failedPairs)
    (hr : j ∈ s'.resolved.map Prod.fst ↔ j ∈ s.resolved.map Prod.fst) : TaskGood s' j :=
  ⟨by rw [hf, ht, h.polled], by rw [hs, hf, ht, hp, h.sent], fun hj => ht ▸ h.failed (hp.mp hj),
    by rw [hr, ht, h.answered]⟩

/-- The records that hold a task in phase `p`. -/
theorem TaskGood.mem_iff {s : Intake} {i : Nat} {p : Phase} (h : TaskGood s i)
    (hi : s.tasks[i]? = some p) :
    (i ∈ s.firstPolls ↔ p ≠ .spawned) ∧
      (i ∈ s.streams ↔ p ≠ .spawned ∧ p ≠ .polling ∧ i ∉ s.failedPairs) ∧
      (i ∈ s.failedPairs → p = .finished) ∧ (i ∈ s.resolved.map Prod.fst ↔ p = .finished) := by
  have hfp : i ∈ s.firstPolls ↔ p ≠ .spawned := by simp [h.polled, hi]
  exact ⟨hfp, by simp [h.sent, hfp, hi], by simpa [hi] using h.failed, by simp [h.answered, hi]⟩

/-- A task not yet polled, or not yet spawned, is in no record. -/
theorem TaskGood.unpolled {s : Intake} {j : Nat}
    (ht : s.tasks[j]? = none ∨ s.tasks[j]? = some .spawned) (hfp : j ∉ s.firstPolls)
    (hs : j ∉ s.streams) (hf : j ∉ s.failedPairs) (hr : j ∉ s.resolved.map Prod.fst) :
    TaskGood s j := by
  refine ⟨?_, by simp [hs, hfp], fun h => absurd h hf, ?_⟩ <;> rcases ht with ht | ht <;>
    simp [ht, hfp, hr]

/-- A task not yet spawned is in no record. -/
theorem TaskGood.not_mem_of_none {s : Intake} {j : Nat} (h : TaskGood s j)
    (hj : s.tasks[j]? = none) :
    j ∉ s.firstPolls ∧ j ∉ s.streams ∧ j ∉ s.failedPairs ∧ j ∉ s.resolved.map Prod.fst := by
  have hfp : j ∉ s.firstPolls := by simp [h.polled, hj]
  exact ⟨hfp, by simp [h.sent, hfp], fun hf => by simpa [hj] using h.failed hf,
    by simp [h.answered, hj]⟩

theorem good_init : Good Intake.init :=
  ⟨fun _ => .unpolled (.inl rfl) (by simp [Intake.init]) (by simp [Intake.init])
    (by simp [Intake.init]) (by simp [Intake.init]), List.nodup_nil, List.nodup_nil,
    List.nodup_nil⟩

/-- A new task, spawned for the message just received. -/
theorem Good.recv {s : Intake} (hg : Good s) : Good { s with tasks := s.tasks ++ [.spawned] } := by
  refine ⟨fun j => ?_, hg.firstPolls_nodup, hg.streams_nodup, hg.resolved_nodup⟩
  rcases Nat.lt_or_ge j s.tasks.length with hj | hj
  · exact (hg.task j).congr (List.getElem?_append_left hj) Iff.rfl Iff.rfl Iff.rfl Iff.rfl
  · obtain ⟨hfp, hs, hf, hr⟩ := (hg.task j).not_mem_of_none (List.getElem?_eq_none hj)
    refine .unpolled ?_ hfp hs hf hr
    rcases hj.eq_or_lt with rfl | hj
    · exact .inr (by simp)
    · exact .inl (List.getElem?_eq_none (by simp; omega))

/-- Task `i`'s phase moves from `p` to `q`; every other task keeps its invariant as long as the
records change only by `i`. -/
theorem Good.frame {s s' : Intake} (hg : Good s) {i : Nat} {q : Phase}
    (ht : s'.tasks = s.tasks.set i q)
    (hf : ∀ j ≠ i, (j ∈ s'.firstPolls ↔ j ∈ s.firstPolls) ∧ (j ∈ s'.streams ↔ j ∈ s.streams) ∧
      (j ∈ s'.failedPairs ↔ j ∈ s.failedPairs) ∧
      (j ∈ s'.resolved.map Prod.fst ↔ j ∈ s.resolved.map Prod.fst))
    (j : Nat) (hj : j ≠ i) : TaskGood s' j := by
  obtain ⟨h1, h2, h3, h4⟩ := hf j hj
  exact (hg.task j).congr (by simp [ht, List.getElem?_set, Ne.symm hj]) h1 h2 h3 h4

/-- The first poll of task `i` starts. -/
theorem Good.poll {s : Intake} (hg : Good s) {i : Nat} (hi : s.tasks[i]? = some .spawned) :
    Good { s with tasks := s.tasks.set i .polling, firstPolls := s.firstPolls ++ [i] } := by
  have hlt : i < s.tasks.length := (List.getElem?_eq_some_iff.mp hi).1
  obtain ⟨hfp, hs, hf, hr⟩ := (hg.task i).mem_iff hi
  refine ⟨fun j => ?_, List.nodup_append.mpr ⟨hg.firstPolls_nodup, List.nodup_singleton _,
    by simpa using hfp⟩, hg.streams_nodup, hg.resolved_nodup⟩
  by_cases hj : j = i
  · subst hj
    exact ⟨by simp [hlt], by simp [hs, hlt], fun h => by simpa using hf h, by simp [hlt, hr]⟩
  · refine hg.frame rfl (fun j hj => ?_) j hj
    exact ⟨by simp [hj], .rfl, .rfl, .rfl⟩

/-- Task `i`'s socket pair is made and it sends its stream. -/
theorem Good.pairOk {s : Intake} (hg : Good s) {i : Nat} (hi : s.tasks[i]? = some .polling) :
    Good { s with tasks := s.tasks.set i .handshaking, streams := s.streams ++ [i] } := by
  have hlt : i < s.tasks.length := (List.getElem?_eq_some_iff.mp hi).1
  obtain ⟨hfp, hs, hf, hr⟩ := (hg.task i).mem_iff hi
  have hnf : i ∉ s.failedPairs := fun h => by simpa using hf h
  refine ⟨fun j => ?_, hg.firstPolls_nodup, List.nodup_append.mpr ⟨hg.streams_nodup,
    List.nodup_singleton _, by simp [hs]⟩, hg.resolved_nodup⟩
  by_cases hj : j = i
  · subst hj
    exact ⟨by simp [hlt, hfp], by simp [hlt, hfp, hnf], fun h => absurd h hnf, by simp [hlt, hr]⟩
  · refine hg.frame rfl (fun j hj => ?_) j hj
    exact ⟨.rfl, by simp [hj], .rfl, .rfl⟩

/-- Task `i` returns from phase `p`, its caller answered with `r`; a task returning from its
first poll is recorded as one whose socket pair failed. -/
theorem Good.finish {s : Intake} (hg : Good s) {i : Nat} {p : Phase} (hi : s.tasks[i]? = some p)
    (hp : p ≠ .spawned) (hpf : p ≠ .finished) (failed : List Nat)
    (hfailed : failed = if p = .polling then [i] else []) (r : Resolution) :
    Good (Intake.finish { s with failedPairs := s.failedPairs ++ failed } i r) := by
  have hlt : i < s.tasks.length := (List.getElem?_eq_some_iff.mp hi).1
  obtain ⟨hfp, hs, hf, hr⟩ := (hg.task i).mem_iff hi
  refine ⟨fun j => ?_, hg.firstPolls_nodup, hg.streams_nodup, ?_⟩
  · by_cases hj : j = i
    · subst hj
      refine ⟨by simp [Intake.finish, hlt, hfp, hp], ?_, fun _ => by simp [Intake.finish, hlt],
        by simp [Intake.finish, hlt]⟩
      by_cases hpp : p = .polling <;> simp [Intake.finish, hlt, hfp, hs, hp, hpp, hfailed]
    · refine hg.frame rfl (fun j hj => ?_) j hj
      subst hfailed
      split_ifs <;> simp [Intake.finish, hj]
  · simp only [Intake.finish, List.map_append, List.map_cons, List.map_nil]
    exact List.nodup_append.mpr ⟨hg.resolved_nodup, List.nodup_singleton _, by simpa [hr]⟩

/-- Task `i`'s handshake completes and it sends its request. -/
theorem Good.advance {s : Intake} (hg : Good s) {i : Nat} (hi : s.tasks[i]? = some .handshaking) :
    Good { s with tasks := s.tasks.set i .requesting } := by
  have hlt : i < s.tasks.length := (List.getElem?_eq_some_iff.mp hi).1
  obtain ⟨hfp, hs, hf, hr⟩ := (hg.task i).mem_iff hi
  refine ⟨fun j => ?_, hg.firstPolls_nodup, hg.streams_nodup, hg.resolved_nodup⟩
  by_cases hj : j = i
  · subst hj
    exact ⟨by simp [hlt, hfp], by simp [hlt, hfp, hs], fun h => by simpa using hf h,
      by simp [hlt, hr]⟩
  · refine hg.frame rfl (fun _ _ => ?_) j hj
    exact ⟨.rfl, .rfl, .rfl, .rfl⟩

/-- **Every step keeps the invariant.** -/
theorem Good.step {s s' : Intake} {a : Action} (hg : Good s) (hs : step s a = some s') :
    Good s' := by
  cases a with
  | recv => cases hs; exact hg.recv
  | poll i =>
    simp only [EdgeRuntime.Worker.step, Option.ite_none_right_eq_some, Option.some.injEq] at hs
    obtain ⟨hi, rfl⟩ := hs
    exact hg.poll hi
  | pair i ok =>
    simp only [EdgeRuntime.Worker.step, Option.ite_none_right_eq_some, Option.some.injEq] at hs
    obtain ⟨hi, rfl⟩ := hs
    cases ok with
    | true => exact hg.pairOk hi
    | false => exact hg.finish hi (by decide) (by decide) _ (by simp) .dropped
  | handshake i ok =>
    simp only [EdgeRuntime.Worker.step, Option.ite_none_right_eq_some, Option.some.injEq] at hs
    obtain ⟨hi, rfl⟩ := hs
    cases ok with
    | true => exact hg.advance hi
    | false => simpa using hg.finish hi (by decide) (by decide) [] (by simp) .dropped
  | respond i result =>
    simp only [EdgeRuntime.Worker.step, Option.ite_none_right_eq_some, Option.some.injEq] at hs
    obtain ⟨hi, rfl⟩ := hs
    simpa using hg.finish hi (by decide) (by decide) [] (by simp) (.ofResult result)

theorem Reachable.good {s : Intake} (hs : Reachable s) : Good s := by
  induction hs with
  | init => exact good_init
  | step _ hst ih => exact ih.step hst

/-! ## The order streams reach the worker -/

/-- Whether `b` can come right after `a` when every first poll runs to its send before anything
else happens: a socket pair is made only right after its own task's first poll started. -/
def Action.canFollow : Action → Action → Bool
  | .poll i, .pair j _ => i == j
  | _, .pair .. => false
  | _, _ => true

/-- The runs in which every `UnixStream::pair()` returns in the step right after its task's
first poll started, as on a current-thread runtime, which runs a poll until the task suspends
and polls one task at a time. -/
def PollsRunWhole (acts : List Action) : Prop := acts.Chain' fun a b => a.canFollow b = true

/-- What a run keeps when its first polls run whole: the streams follow the first polls, and
right after a first poll started, the streams follow the first polls before it. -/
theorem streams_sublist_of_pollsRunWhole {acts : List Action} {s : Intake}
    (h : run Intake.init acts = some s) (hw : PollsRunWhole acts) :
    List.Sublist s.streams s.firstPolls ∧
      ∀ i, acts.getLast? = some (.poll i) →
        ∃ fp, s.firstPolls = fp ++ [i] ∧ List.Sublist s.streams fp := by
  induction acts using List.reverseRecOn generalizing s with
  | nil => cases h; exact ⟨.slnil, by simp⟩
  | append_singleton acts a ih =>
    rw [run_append_singleton] at h
    obtain ⟨s₀, h₀, hs⟩ := Option.bind_eq_some.mp h
    obtain ⟨hw₀, -, hlast⟩ := List.chain'_append.mp hw
    obtain ⟨hsub, hpoll⟩ := ih h₀ hw₀
    obtain ⟨hfp, hst, -⟩ := step_records hs
    rw [hfp, hst]
    cases a with
    | poll i =>
      simp only [Action.firstPolled?, Action.sentStream?, Option.toList_some, Option.toList_none,
        List.append_nil]
      exact ⟨hsub.trans (List.sublist_append_left _ _), fun j hj => ⟨s₀.firstPolls,
        by simpa [eq_comm] using hj, hsub⟩⟩
    | pair i ok =>
      -- the action before was the first poll of task `i`
      obtain ⟨fp, hprev, hsub'⟩ : ∃ fp, s₀.firstPolls = fp ++ [i] ∧ List.Sublist s₀.streams fp := by
        cases hl : acts.getLast? with
        | none =>
          obtain rfl := List.getLast?_eq_none_iff.mp hl
          cases h₀
          simp [EdgeRuntime.Worker.step, Intake.init] at hs
        | some x =>
          have hx := hlast x hl (.pair i ok) rfl
          cases x <;> simp only [Action.canFollow, beq_iff_eq, Bool.false_eq_true] at hx
          exact hpoll i (hx ▸ hl)
      refine ⟨?_, by simp⟩
      rw [hprev]
      cases ok
      · simpa [Action.firstPolled?, Action.sentStream?] using
          hsub'.trans (List.sublist_append_left _ _)
      · simpa [Action.firstPolled?, Action.sentStream?] using hsub'.append (List.Sublist.refl [i])
    | recv => exact ⟨by simpa [Action.firstPolled?, Action.sentStream?] using hsub, by simp⟩
    | handshake _ _ | respond _ _ =>
      exact ⟨by simpa [Action.firstPolled?, Action.sentStream?] using hsub, by simp⟩

/-- Two requests received in order, their tasks first polled in that order, the second task's
socket pair made first: its stream reaches the worker first. -/
theorem streams_out_of_order :
    (run Intake.init [.recv, .recv, .poll 0, .poll 1, .pair 1 true, .pair 0 true]).map
      (fun s => (s.firstPolls, s.streams)) = some ([0, 1], [1, 0]) := by
  decide

/-- **Each task sends its stream once, and in order when first polls run whole.**  After any run
of the intake, the streams sent on `unix_stream_tx` are, in order, the tasks whose
`UnixStream::pair()` succeeded, in the order those steps happened; no task sends two, a task
whose socket pair failed sends none, and each stream is for a message already received.  When
every first poll runs to its send before anything else happens (`PollsRunWhole`), the streams
follow the first polls; so when, in addition, the runtime first polls the tasks in the order it
spawned them, the streams reach the worker in the order the messages were received. -/
theorem streams_follow_first_polls (acts : List Action) (s : Intake)
    (h : run Intake.init acts = some s) :
    s.streams = acts.filterMap Action.sentStream? ∧ s.streams.Nodup ∧
      (∀ i, Action.pair i false ∈ acts → i ∉ s.streams) ∧
      (∀ i ∈ s.streams, i < s.tasks.length) ∧
      (PollsRunWhole acts → List.Sublist s.streams s.firstPolls ∧
        (List.Pairwise (· < ·) s.firstPolls → List.Pairwise (· < ·) s.streams)) := by
  have hg := (Reachable.init.run h).good
  obtain ⟨-, hst, hfail⟩ := run_records h
  refine ⟨hst, hg.streams_nodup, fun i hi hs => ?_, fun i hi => ?_, fun hw => ?_⟩
  · -- a failed pair is recorded, and a recorded task has sent no stream
    have hf : i ∈ s.failedPairs := by
      rw [hfail]; exact List.mem_filterMap.mpr ⟨_, hi, rfl⟩
    exact ((hg.task i).sent.mp hs).2.2 hf
  · obtain ⟨p, hp, -⟩ := (hg.task i).polled.mp ((hg.task i).sent.mp hi).1
    exact (List.getElem?_eq_some_iff.mp hp).1
  · have hsub := (streams_sublist_of_pollsRunWhole h hw).1
    exact ⟨hsub, fun hp => hp.sublist hsub⟩

/-- Two requests whose tasks the runtime first polls one after the other, in the order it
spawned them. -/
def fifoRun : List Action := [.recv, .recv, .poll 0, .pair 0 true, .poll 1, .pair 1 true]

theorem fifoRun_streams_in_order :
    PollsRunWhole fifoRun ∧ (run Intake.init fifoRun).map Intake.streams = some [0, 1] ∧
      ∀ s, run Intake.init fifoRun = some s →
        s.streams = fifoRun.filterMap Action.sentStream? ∧ s.streams.Nodup ∧
        (∀ i, Action.pair i false ∈ fifoRun → i ∉ s.streams) ∧
        (∀ i ∈ s.streams, i < s.tasks.length) ∧
        (PollsRunWhole fifoRun → List.Sublist s.streams s.firstPolls ∧
          (List.Pairwise (· < ·) s.firstPolls → List.Pairwise (· < ·) s.streams)) :=
  ⟨by simp [PollsRunWhole, fifoRun, Action.canFollow], by decide,
    fun s hs => streams_follow_first_polls fifoRun s hs⟩

/-! ## Every caller is answered once -/

end EdgeRuntime.Worker
