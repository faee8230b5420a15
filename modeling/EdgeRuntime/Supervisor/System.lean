import EdgeRuntime.Supervisor.Termination

/-! # The supervisor among its signal sources

`Supervisor.Loop` takes the branches the loop handles as given.  Here is what produces them: the
CPU timer sending on `cpu_alarms_tx`, the near-heap-limit callback sending on `memory_limit_tx`,
the clock, the two senders being dropped, and the reactor, which on each turn runs any one
ready branch of the `select!`.  A channel's branch is ready while a message is queued on it; once
its sender is dropped and its queue is empty, `recv()` yields `None` and the `Some(_)` pattern
disables the branch.  The sleep's branch is ready once the clock has reached the deadline armed
at `t0`.

A `Configuration` is the supervisor thread with its channels and the clock, and `step` is one
thing happening.  The loop's view of a run is the list of branches it handled (`handled`).
Every reachable configuration has read the clock in its alarms' turns at non-decreasing
readings, none before `t0`, and its effects are `supervisorThread` of that list
(`reachable_refines_loop`), so what `Supervisor.Termination` proves of the loop holds of every
run.  A CPU alarm's turn reads the clock twice, and time may pass between the two readings
(`Pick.cpuAlarm`).

The loop has no branch for its senders being dropped: dropping both changes nothing but the
sources.  After that the loop still handles what is queued and the deadline, and ends as any
other run does (`dropped_supervisor_reports_wall_clock`, `dropped_senders_do_not_stop`).
-/

namespace EdgeRuntime.Supervisor

/-- A `select!` branch the reactor may pick, when it is ready.  A CPU alarm's turn reads the
clock for `last_burst.elapsed()` and, if the alarm counts, again `gap` nanoseconds later. -/
inductive Pick
  | cpuAlarm (gap : Nat)
  | sleep
  | memoryLimit
  deriving Repr, DecidableEq

/-- One thing happening around the supervisor. -/
inductive Action
  /-- The clock advances by `d` nanoseconds. -/
  | tick (d : Nat)
  /-- The CPU timer fires: `cpu_alarms_tx.send(())`. -/
  | cpuAlarm
  /-- The isolate calls its near-heap-limit callback: `memory_limit_tx.send(())`. -/
  | nearHeapLimit
  /-- The `CPUTimer` that `create_supervisor` returned, and with it `cpu_alarms_tx`, is dropped. -/
  | dropCpuTimer
  /-- The isolate, and with it the callback holding `memory_limit_tx`, is dropped. -/
  | dropIsolate
  /-- The reactor runs a ready branch. -/
  | select (p : Pick)
  deriving Repr, DecidableEq

/-- The supervisor thread, its two channels and the clock. -/
structure Configuration where
  locals : LoopState
  cpuQueued : Nat
  cpuOpen : Bool
  memQueued : Nat
  memOpen : Bool
  clock : Nat
  /-- The branches the loop has run, in order. -/
  handled : List Branch
  effects : List Effect
  /-- The future's value, once it has returned. -/
  result : Option WorkerEvents
  deriving Repr, DecidableEq

variable (conf : UserWorkerRuntimeOpts) (t0 : Nat)

/-- The thread as its future starts at clock `t0`, both senders alive and nothing queued. -/
def Configuration.init : Configuration := ⟨LoopState.init t0, 0, true, 0, true, t0, [], [], none⟩

/-- The expiry of `tokio::time::sleep(Duration::from_millis(worker_timeout_ms))` armed at `t0`. -/
def deadline : Nat := t0 + conf.workerTimeoutMs * 1000000

/-- The loop runs branch `b`: one `turn`, and the send on `termination_event_tx` if the future
returned. -/
def Configuration.handle (c : Configuration) (b : Branch) : Configuration :=
  match turn conf c.locals b with
  | (effs, .continue l) =>
    { c with locals := l, handled := c.handled ++ [b], effects := c.effects ++ effs }
  | (effs, .ret ev) =>
    { c with handled := c.handled ++ [b], effects := c.effects ++ effs ++ [.sendTermination ev],
             result := some ev }

@[simp] theorem Configuration.handle_handled (c : Configuration) (b : Branch) :
    (c.handle conf b).handled = c.handled ++ [b] := by
  unfold Configuration.handle; split <;> rfl

@[simp] theorem Configuration.handle_cpuQueued (c : Configuration) (b : Branch) :
    (c.handle conf b).cpuQueued = c.cpuQueued := by
  unfold Configuration.handle; split <;> rfl

@[simp] theorem Configuration.handle_memQueued (c : Configuration) (b : Branch) :
    (c.handle conf b).memQueued = c.memQueued := by
  unfold Configuration.handle; split <;> rfl

@[simp] theorem Configuration.handle_clock (c : Configuration) (b : Branch) :
    (c.handle conf b).clock = c.clock := by
  unfold Configuration.handle; split <;> rfl

/-- One step of the supervisor's world; `none` when the action cannot happen. -/
def step (c : Configuration) : Action → Option Configuration
  | .tick d => some { c with clock := c.clock + d }
  | .cpuAlarm => if c.cpuOpen then some { c with cpuQueued := c.cpuQueued + 1 } else none
  | .nearHeapLimit => if c.memOpen then some { c with memQueued := c.memQueued + 1 } else none
  | .dropCpuTimer => some { c with cpuOpen := false }
  | .dropIsolate => some { c with memOpen := false }
  | .select (.cpuAlarm gap) =>
    if c.result = none ∧ 0 < c.cpuQueued then
      some (Configuration.handle conf { c with cpuQueued := c.cpuQueued - 1, clock := c.clock + gap }
        (.cpuAlarm c.clock gap))
    else none
  | .select .sleep =>
    if c.result = none ∧ deadline conf t0 ≤ c.clock then some (c.handle conf .sleep) else none
  | .select .memoryLimit =>
    if c.result = none ∧ 0 < c.memQueued then
      some (Configuration.handle conf { c with memQueued := c.memQueued - 1 } .memoryLimit)
    else none

/-- The actions of a list, in order. -/
def run : Configuration → List Action → Option Configuration
  | c, [] => some c
  | c, a :: as => (step conf t0 c a).bind (run · as)

/-- The configurations some run from `Configuration.init t0` reaches. -/
inductive Reachable : Configuration → Prop
  | init : Reachable (Configuration.init t0)
  | step {c c' : Configuration} {a : Action} : Reachable c → step conf t0 c a = some c' → Reachable c'

theorem Reachable.run {c c' : Configuration} (hc : Reachable conf t0 c) :
    ∀ {acts : List Action}, run conf t0 c acts = some c' → Reachable conf t0 c'
  | [], h => by cases h; exact hc
  | a :: as, h => by
    simp only [EdgeRuntime.Supervisor.run] at h
    cases hs : EdgeRuntime.Supervisor.step conf t0 c a with
    | none => simp [hs] at h
    | some c₁ =>
      rw [hs, Option.some_bind] at h
      exact Reachable.run (Reachable.step hc hs) h

/-! ## What every reachable configuration satisfies -/

/-- How the loop stands, read off the configuration. -/
def Configuration.control (c : Configuration) : Control :=
  match c.result with
  | none => .continue c.locals
  | some ev => .ret ev

/-- The invariant: the loop's state is `blockOn` of the branches handled, the effects are the
thread's on them, and the alarms' turns read the clock in order, after `t0` and up to now. -/
structure Good (c : Configuration) : Prop where
  control : (blockOn conf (LoopState.init t0) c.handled).2 = c.control
  effects : c.effects = supervisorThread conf t0 c.handled
  sorted : List.Pairwise (· ≤ ·) (t0 :: alarmStamps c.handled)
  le_clock : ∀ t ∈ t0 :: alarmStamps c.handled, t ≤ c.clock

theorem good_init : Good conf t0 (Configuration.init t0) :=
  ⟨rfl, rfl, List.pairwise_singleton _ t0, by simp [Configuration.init, alarmStamps, alarmReadings]⟩

theorem alarmReadings_append_singleton (hs : List Branch) (b : Branch) :
    alarmReadings (hs ++ [b]) = alarmReadings hs ++ b.alarmAt?.toList := by
  cases b <;> simp [alarmReadings, Branch.alarmAt?]

theorem alarmStamps_append_singleton (hs : List Branch) (b : Branch) :
    alarmStamps (hs ++ [b]) = alarmStamps hs ++ b.alarmAt?.toList.flatMap fun r => [r.1, r.2] := by
  simp [alarmStamps, alarmReadings_append_singleton]

/-- While the future runs, nothing has happened yet and `blockOn` stands at the locals. -/
theorem Good.blockOn_of_running {c : Configuration} (hg : Good conf t0 c) (hr : c.result = none) :
    blockOn conf (LoopState.init t0) c.handled = ([], .continue c.locals) := by
  have h2 := hg.control
  rw [Configuration.control, hr] at h2
  rcases hB : blockOn conf (LoopState.init t0) c.handled with ⟨effs, ctl⟩
  rw [hB] at h2
  cases h2
  rw [blockOn_continue_effects conf hB]

/-- **Running one branch keeps the invariant**, provided an alarm's first reading is no earlier
than the readings before it, and its second no earlier than its first and no later than the
clock. -/
theorem Good.handle {c : Configuration} (hg : Good conf t0 c) (hr : c.result = none) (b : Branch)
    (hb : ∀ r ∈ b.alarmAt?, (∀ t ∈ t0 :: alarmStamps c.handled, t ≤ r.1) ∧ r.1 ≤ r.2 ∧
      r.2 ≤ c.clock) : Good conf t0 (c.handle conf b) := by
  have hB := hg.blockOn_of_running conf t0 hr
  have happ := blockOn_append_of_continue conf hB [b]
  have heff : c.effects = [] := by
    rw [hg.effects, supervisorThread, hB]
  have hstamps : List.Pairwise (· ≤ ·) (t0 :: alarmStamps (c.handled ++ [b])) ∧
      ∀ t ∈ t0 :: alarmStamps (c.handled ++ [b]), t ≤ c.clock := by
    rw [alarmStamps_append_singleton, ← List.cons_append]
    cases hab : b.alarmAt? with
    | none =>
      simp only [Option.toList_none, List.flatMap_nil, List.append_nil]
      exact ⟨hg.sorted, hg.le_clock⟩
    | some r =>
      -- the turn's two readings come after every earlier one, in order, and by the clock
      obtain ⟨hold, h12, h2⟩ := hb r hab
      simp only [Option.toList_some, List.flatMap_cons, List.flatMap_nil, List.append_nil]
      refine ⟨List.pairwise_append.mpr ⟨hg.sorted, by simpa using h12, fun a ha t ht => ?_⟩,
        fun t ht => ?_⟩
      · have := hold a ha
        simp only [List.mem_cons, List.mem_singleton, List.not_mem_nil, or_false] at ht
        omega
      · rcases List.mem_append.mp ht with ht | ht
        · exact hg.le_clock t ht
        · simp only [List.mem_cons, List.mem_singleton, List.not_mem_nil, or_false] at ht
          omega
  rcases turn_cases conf c.locals b with ⟨now, gap, -, ht⟩ | ⟨ev, ht⟩
  · have hrun : blockOn conf (LoopState.init t0) (c.handled ++ [b]) =
        ([], .continue (countAlarm conf c.locals now gap)) := by
      rw [happ, blockOn_cons_continue conf [] ht]; rfl
    simp only [Configuration.handle, ht]
    exact ⟨by simp [hrun, Configuration.control, hr], by rw [supervisorThread, hrun, heff]; rfl,
      hstamps.1, hstamps.2⟩
  · have hrun : blockOn conf (LoopState.init t0) (c.handled ++ [b]) =
        ([.terminateExecution], .ret ev) := by
      rw [happ, blockOn_cons_ret conf [] ht]
    simp only [Configuration.handle, ht]
    exact ⟨by simp [hrun, Configuration.control], by rw [supervisorThread, hrun, heff]; rfl,
      hstamps.1, hstamps.2⟩

/-- The fields the loop does not read leave the invariant alone. -/
theorem Good.of_eq {c : Configuration} (hg : Good conf t0 c) (c' : Configuration) (hl : c'.locals = c.locals)
    (hh : c'.handled = c.handled) (he : c'.effects = c.effects) (hr : c'.result = c.result)
    (hc : c.clock ≤ c'.clock) : Good conf t0 c' := by
  refine ⟨?_, ?_, ?_, ?_⟩
  · rw [hh, hg.control, Configuration.control, Configuration.control, hr, hl]
  · rw [he, hh, hg.effects]
  · rw [hh]; exact hg.sorted
  · rw [hh]; exact fun t ht => (hg.le_clock t ht).trans hc

theorem Good.step {c c' : Configuration} {a : Action} (hg : Good conf t0 c)
    (hs : step conf t0 c a = some c') : Good conf t0 c' := by
  cases a with
  | tick d =>
    cases hs; exact hg.of_eq conf t0 _ rfl rfl rfl rfl (Nat.le_add_right _ _)
  | cpuAlarm | nearHeapLimit =>
    simp only [EdgeRuntime.Supervisor.step] at hs
    split at hs
    · cases hs; exact hg.of_eq conf t0 _ rfl rfl rfl rfl le_rfl
    · cases hs
  | dropCpuTimer | dropIsolate => cases hs; exact hg.of_eq conf t0 _ rfl rfl rfl rfl le_rfl
  | select p =>
    cases p <;> simp only [EdgeRuntime.Supervisor.step] at hs <;> split at hs <;>
      (try cases hs) <;> rename_i h
    · exact (hg.of_eq conf t0 { c with cpuQueued := c.cpuQueued - 1, clock := c.clock + _ } rfl
        rfl rfl rfl (Nat.le_add_right _ _)).handle conf t0 h.1 _
        (by simpa [Branch.alarmAt?] using hg.le_clock)
    · exact hg.handle conf t0 h.1 _ (by simp [Branch.alarmAt?])
    · exact (hg.of_eq conf t0 { c with memQueued := c.memQueued - 1 } rfl rfl rfl rfl
        le_rfl).handle conf t0 h.1 _ (by simp [Branch.alarmAt?])

theorem Reachable.good {c : Configuration} (hc : Reachable conf t0 c) : Good conf t0 c := by
  induction hc with
  | init => exact good_init conf t0
  | step _ hs ih => exact ih.step conf t0 hs

/-- **Every run is a run of the loop model**: a reachable configuration has read the clock in its
alarms' turns at non-decreasing readings, none before `t0`, and its effects are those
`supervisorThread` gives on the branches it handled. -/
theorem reachable_refines_loop (c : Configuration) (hc : Reachable conf t0 c) :
    c.effects = supervisorThread conf t0 c.handled ∧
      List.Pairwise (· ≤ ·) (t0 :: alarmStamps c.handled) :=
  ⟨(Reachable.good conf t0 hc).effects, (Reachable.good conf t0 hc).sorted⟩

/-- An alarm handled 2 ms after the start, its turn's two readings 1 µs apart. -/
def oneAlarmRun : List Action := [.cpuAlarm, .tick 2000000, .select (.cpuAlarm 1000)]

theorem reachable_refines_loop_one_alarm :
    (run ⟨2, 1, 5, 0⟩ 0 (Configuration.init 0) oneAlarmRun).map Configuration.handled =
        some [.cpuAlarm 2000000 1000] ∧
      ∀ c, run ⟨2, 1, 5, 0⟩ 0 (Configuration.init 0) oneAlarmRun = some c →
        c.effects = supervisorThread ⟨2, 1, 5, 0⟩ 0 c.handled ∧
          List.Pairwise (· ≤ ·) (0 :: alarmStamps c.handled) :=
  ⟨rfl, fun c hc => reachable_refines_loop _ _ c (Reachable.run _ _ Reachable.init hc)⟩

/-- In a reachable configuration the thread has done nothing yet, or has called
`terminate_execution` once and sent one event. -/
theorem Reachable.effects_cases {c : Configuration} (hc : Reachable conf t0 c) :
    c.effects = [] ∨ ∃ ev, c.effects = [.terminateExecution, .sendTermination ev] := by
  rw [(Reachable.good conf t0 hc).effects, supervisorThread_eq]
  cases firstTerminalAfter conf t0 [] c.handled with
  | none => exact .inl rfl
  | some r => exact .inr ⟨r.2, rfl⟩

/-! ## Dropping both senders -/

/-- Both senders gone and nothing queued: the thread is still running with no effect, or the
deadline has ended it. -/
def Quiet (c : Configuration) : Prop :=
  c.cpuOpen = false ∧ c.memOpen = false ∧ c.cpuQueued = 0 ∧ c.memQueued = 0 ∧
    (c.result = none ∧ c.effects = [] ∨
      c.result = some .wallClockTimeLimit ∧
        c.effects = [.terminateExecution, .sendTermination .wallClockTimeLimit])

/-- Once both senders are gone and nothing is queued, only the clock and the sleep's branch can
move; the sleep ends the thread with `WallClockTimeLimit`. -/
theorem Quiet.step {c c' : Configuration} {a : Action} (hq : Quiet c)
    (hs : step conf t0 c a = some c') : Quiet c' := by
  obtain ⟨hcpu, hmem, hcq, hmq, hres⟩ := hq
  cases a with
  | tick d => cases hs; exact ⟨hcpu, hmem, hcq, hmq, hres⟩
  | cpuAlarm => simp [EdgeRuntime.Supervisor.step, hcpu] at hs
  | nearHeapLimit => simp [EdgeRuntime.Supervisor.step, hmem] at hs
  | dropCpuTimer => cases hs; exact ⟨rfl, hmem, hcq, hmq, hres⟩
  | dropIsolate => cases hs; exact ⟨hcpu, rfl, hcq, hmq, hres⟩
  | select p =>
    cases p with
    | cpuAlarm _ => simp [EdgeRuntime.Supervisor.step, hcq] at hs
    | memoryLimit => simp [EdgeRuntime.Supervisor.step, hmq] at hs
    | sleep =>
      simp only [EdgeRuntime.Supervisor.step] at hs
      split at hs
      · rename_i h
        cases hs
        rcases hres with ⟨-, he⟩ | ⟨hr, -⟩
        · simp [Quiet, Configuration.handle, hcpu, hmem, hcq, hmq, he]
        · simp [hr] at h
      · cases hs

theorem Quiet.run {c c' : Configuration} (hq : Quiet c) :
    ∀ {acts : List Action}, run conf t0 c acts = some c' → Quiet c'
  | [], h => by cases h; exact hq
  | a :: as, h => by
    simp only [EdgeRuntime.Supervisor.run] at h
    cases hs : EdgeRuntime.Supervisor.step conf t0 c a with
    | none => simp [hs] at h
    | some c₁ =>
      rw [hs, Option.some_bind] at h
      exact Quiet.run (Quiet.step conf t0 hq hs) h

/-- Both senders dropped at the start, nothing ever queued: the supervisor does not stop in a
`Dropped` state, it calls `terminate_execution` and sends `WallClockTimeLimit` at the deadline. -/
theorem dropped_supervisor_reports_wall_clock :
    (run ⟨2, 1, 0, 0⟩ 0 (Configuration.init 0)
      [.dropCpuTimer, .dropIsolate, .tick 1000000, .select .sleep]).map Configuration.effects =
      some [.terminateExecution, .sendTermination .wallClockTimeLimit] := by
  decide

/-- **Dropping both senders does not stop the supervisor.**  From a reachable configuration in
which both senders are dropped and the loop still runs, the thread has done nothing yet; every
run from there ends, if it ends, with one `terminate_execution` and one event sent; if nothing
was queued, that event is `WallClockTimeLimit`; and the deadline can always end it. -/
theorem dropped_senders_do_not_stop (c : Configuration) (hc : Reachable conf t0 c)
    (hcpu : c.cpuOpen = false) (hmem : c.memOpen = false) (hrun : c.result = none) :
    c.effects = [] ∧
    (∀ acts c', run conf t0 c acts = some c' →
      c'.effects = [] ∨ ∃ ev, c'.effects = [.terminateExecution, .sendTermination ev]) ∧
    (c.cpuQueued = 0 → c.memQueued = 0 → ∀ acts c', run conf t0 c acts = some c' →
      c'.effects = [] ∨ c'.effects = [.terminateExecution, .sendTermination .wallClockTimeLimit]) ∧
    ∃ acts c', run conf t0 c acts = some c' ∧
      c'.effects = [.terminateExecution, .sendTermination .wallClockTimeLimit] := by
  have hg := Reachable.good conf t0 hc
  have heff : c.effects = [] := by
    rw [hg.effects, supervisorThread, hg.blockOn_of_running conf t0 hrun]
  refine ⟨heff, fun acts c' h => Reachable.effects_cases conf t0 (hc.run conf t0 h),
    fun hcq hmq acts c' h => ?_, ?_⟩
  · obtain ⟨-, -, -, -, ⟨-, he⟩ | ⟨-, he⟩⟩ :=
      Quiet.run conf t0 ⟨hcpu, hmem, hcq, hmq, .inl ⟨hrun, heff⟩⟩ h
    · exact .inl he
    · exact .inr he
  · have hd : deadline conf t0 ≤ c.clock + (deadline conf t0 - c.clock) := by omega
    refine ⟨[.tick (deadline conf t0 - c.clock), .select .sleep],
      Configuration.handle conf { c with clock := c.clock + (deadline conf t0 - c.clock) } .sleep,
      ?_, ?_⟩
    · simp [EdgeRuntime.Supervisor.run, EdgeRuntime.Supervisor.step, hrun, hd]
    · simp [Configuration.handle, heff]

/-- Both senders dropped right at the start. -/
def droppedAtStart : Configuration :=
  { Configuration.init 0 with cpuOpen := false, memOpen := false }

theorem droppedAtStart_keeps_deadline :
    Reachable ⟨2, 1, 0, 0⟩ 0 droppedAtStart ∧ droppedAtStart.effects = [] ∧
      ∃ acts c', run ⟨2, 1, 0, 0⟩ 0 droppedAtStart acts = some c' ∧
        c'.effects = [.terminateExecution, .sendTermination .wallClockTimeLimit] := by
  have hc : Reachable ⟨2, 1, 0, 0⟩ 0 droppedAtStart :=
    Reachable.run _ _ Reachable.init
      (show run _ _ _ [.dropCpuTimer, .dropIsolate] = some droppedAtStart from rfl)
  obtain ⟨he, -, -, hend⟩ := dropped_senders_do_not_stop _ _ _ hc rfl rfl rfl
  exact ⟨hc, he, hend⟩

end EdgeRuntime.Supervisor
