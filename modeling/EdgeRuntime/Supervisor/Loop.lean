import Mathlib.Data.List.Basic

/-! # The supervisor future of `create_supervisor`

`create_supervisor` (`rt_worker/worker_ctx.rs`, lines 58–149) starts a thread that drives one
future to completion on its own current-thread runtime and then sends the future's value on
`termination_event_tx`.  The future keeps two locals, `bursts` and `last_burst`, arms a
`tokio::time::sleep` for `worker_timeout_ms`, and loops over a `tokio::select!` of three
branches: a CPU alarm, the sleep's expiry, and a memory-pressure notification.

The reactor picks, on each turn, one branch whose event is ready; which one is not fixed.  So
the future is modelled by the branches it handles, in the order it handles them (`Branch`), a
CPU alarm carrying the two clock readings of its turn: `last_burst.elapsed()` reads the clock
(line 108), and a counted alarm reads it again to set `last_burst` (line 110), no earlier.  `turn` is one iteration of the loop, as the
source writes it; `blockOn` runs the future over a sequence of handled branches, and
`supervisorThread` adds the final send.  Which sequences the reactor can produce is the subject
of `Supervisor.System`.

Clock readings are nanoseconds of `std::time::Instant`; `Duration::as_millis` truncates to whole
milliseconds (`elapsedMillis`).
-/

namespace EdgeRuntime

/-- The `WorkerEvents` this code produces: the boot event of `create_worker` and the three
termination events of the supervisor. -/
inductive WorkerEvents
  | boot (bootTime : Nat)
  | cpuTimeLimit
  | wallClockTimeLimit
  | memoryLimit
  deriving Repr, DecidableEq

namespace Supervisor

/-- The fields of the user worker's runtime options that the supervisor reads. -/
structure UserWorkerRuntimeOpts where
  lowMemoryMultiplier : Nat
  workerTimeoutMs : Nat
  maxCpuBursts : Nat
  cpuBurstIntervalMs : Nat
  deriving Repr, DecidableEq

/-- `earlier.elapsed().as_millis()` read at clock `now` (both in nanoseconds): whole
milliseconds, truncated; a reading before `earlier` gives zero. -/
def elapsedMillis (earlier now : Nat) : Nat := (now - earlier) / 1000000

/-- The future's locals `bursts` and `last_burst`. -/
structure LoopState where
  bursts : Nat
  lastBurst : Nat
  deriving Repr, DecidableEq

/-- The locals as the future starts at clock `t0` (lines 99–100). -/
def LoopState.init (t0 : Nat) : LoopState := ⟨0, t0⟩

/-- The `select!` branch the reactor runs on one turn.  A CPU alarm carries the clock reading
`now` of `last_burst.elapsed()`, and the `gap` after it at which `Instant::now()` is read if the
alarm is counted. -/
inductive Branch
  | cpuAlarm (now gap : Nat)
  | sleep
  | memoryLimit
  deriving Repr, DecidableEq

/-- What the supervisor thread does to the outside world: `terminate_execution` on the isolate's
thread-safe handle, and the send on `termination_event_tx`. -/
inductive Effect
  | terminateExecution
  | sendTermination (ev : WorkerEvents)
  deriving Repr, DecidableEq

/-- How a turn ends: the loop goes round again with new locals, or the future returns. -/
inductive Control
  | continue (s : LoopState)
  | ret (ev : WorkerEvents)
  deriving Repr, DecidableEq

variable (conf : UserWorkerRuntimeOpts)

/-- The burst accounting of the CPU-alarm branch (lines 108–111): the elapsed time is read at
`now`, and a counted alarm sets `last_burst` from a second reading, `gap` later. -/
def countAlarm (s : LoopState) (now gap : Nat) : LoopState :=
  if elapsedMillis s.lastBurst now > conf.cpuBurstIntervalMs then ⟨s.bursts + 1, now + gap⟩
  else s

/-- One iteration of the loop (lines 106–137) on the branch the reactor picked: its effects, and
how it ends. -/
def turn (s : LoopState) : Branch → List Effect × Control
  | .cpuAlarm now gap =>
    let s' := countAlarm conf s now gap
    if s'.bursts > conf.maxCpuBursts then ([.terminateExecution], .ret .cpuTimeLimit)
    else ([], .continue s')
  | .sleep => ([.terminateExecution], .ret .wallClockTimeLimit)
  | .memoryLimit => ([.terminateExecution], .ret .memoryLimit)

/-- `local.block_on(&rt, future)` over the branches handled, in order: the effects of the turns
run, and how the run stands: still looping with its locals, or returned.  Branches after the
turn that returns are never run. -/
def blockOn (s : LoopState) : List Branch → List Effect × Control
  | [] => ([], .continue s)
  | b :: bs =>
    match turn conf s b with
    | (effs, .continue s') => let r := blockOn s' bs; (effs ++ r.1, r.2)
    | (effs, .ret ev) => (effs, .ret ev)

/-- The supervisor thread (lines 91–145): the future started at clock `t0`, then
`termination_event_tx.send(result)` once it has returned. -/
def supervisorThread (t0 : Nat) (bs : List Branch) : List Effect :=
  match blockOn conf (LoopState.init t0) bs with
  | (effs, .continue _) => effs
  | (effs, .ret ev) => effs ++ [.sendTermination ev]

/-! ## One turn -/

@[simp] theorem turn_sleep (s : LoopState) :
    turn conf s .sleep = ([.terminateExecution], .ret .wallClockTimeLimit) := rfl

@[simp] theorem turn_memoryLimit (s : LoopState) :
    turn conf s .memoryLimit = ([.terminateExecution], .ret .memoryLimit) := rfl

theorem turn_cpuAlarm (s : LoopState) (now gap : Nat) :
    turn conf s (.cpuAlarm now gap) =
      if (countAlarm conf s now gap).bursts > conf.maxCpuBursts then
        ([.terminateExecution], .ret .cpuTimeLimit)
      else ([], .continue (countAlarm conf s now gap)) := rfl

/-- **A turn that goes on has no effect**; a turn that returns has called `terminate_execution`
once, and nothing else. -/
theorem turn_cases (s : LoopState) (b : Branch) :
    (∃ now gap, b = .cpuAlarm now gap ∧
        turn conf s b = ([], .continue (countAlarm conf s now gap))) ∨
      ∃ ev, turn conf s b = ([.terminateExecution], .ret ev) := by
  cases b with
  | cpuAlarm now gap =>
    rw [turn_cpuAlarm]
    split
    · exact .inr ⟨_, rfl⟩
    · exact .inl ⟨now, gap, rfl, rfl⟩
  | sleep => exact .inr ⟨_, rfl⟩
  | memoryLimit => exact .inr ⟨_, rfl⟩

@[simp] theorem blockOn_nil (s : LoopState) : blockOn conf s [] = ([], .continue s) := rfl

theorem blockOn_cons_continue {s s' : LoopState} {b : Branch} (bs : List Branch)
    (h : turn conf s b = ([], .continue s')) : blockOn conf s (b :: bs) = blockOn conf s' bs := by
  simp [blockOn, h]

theorem blockOn_cons_ret {s : LoopState} {b : Branch} {ev : WorkerEvents} (bs : List Branch)
    (h : turn conf s b = ([.terminateExecution], .ret ev)) :
    blockOn conf s (b :: bs) = ([.terminateExecution], .ret ev) := by
  simp [blockOn, h]

/-- A run that has not returned has had no effect. -/
theorem blockOn_continue_effects :
    ∀ {s l : LoopState} {bs : List Branch} {effs : List Effect},
      blockOn conf s bs = (effs, .continue l) → effs = []
  | _, _, [], _, h => by cases h; rfl
  | s, _, b :: bs, _, h => by
    rcases turn_cases conf s b with ⟨_, _, -, hb⟩ | ⟨ev, hb⟩
    · rw [blockOn_cons_continue conf bs hb] at h
      exact blockOn_continue_effects h
    · rw [blockOn_cons_ret conf bs hb] at h
      cases h

/-- Running more branches after a run that has not returned. -/
theorem blockOn_append_of_continue :
    ∀ {s l : LoopState} {hs : List Branch} {effs : List Effect},
      blockOn conf s hs = (effs, .continue l) → ∀ bs,
        blockOn conf s (hs ++ bs) = blockOn conf l bs
  | _, _, [], _, h, bs => by cases h; rfl
  | s, _, b :: hs, _, h, bs => by
    rcases turn_cases conf s b with ⟨_, _, -, hb⟩ | ⟨ev, hb⟩
    · rw [blockOn_cons_continue conf hs hb] at h
      rw [List.cons_append, blockOn_cons_continue conf _ hb]
      exact blockOn_append_of_continue h bs
    · rw [blockOn_cons_ret conf hs hb] at h
      cases h

/-- **A run that returned did so at one branch**, after a prefix that went on without effect;
the branches after it were never run. -/
theorem blockOn_eq_ret :
    ∀ {s : LoopState} {bs : List Branch} {effs : List Effect} {ev : WorkerEvents},
      blockOn conf s bs = (effs, .ret ev) →
        ∃ pre b post l, bs = pre ++ b :: post ∧ blockOn conf s pre = ([], .continue l) ∧
          turn conf l b = ([.terminateExecution], .ret ev)
  | _, [], _, _, h => by cases h
  | s, b :: bs, _, _, h => by
    rcases turn_cases conf s b with ⟨_, _, -, hb⟩ | ⟨ev', hb⟩
    · rw [blockOn_cons_continue conf bs hb] at h
      obtain ⟨pre, b', post, l, rfl, hpre, hl⟩ := blockOn_eq_ret h
      exact ⟨b :: pre, b', post, l, rfl, by rw [blockOn_cons_continue conf pre hb, hpre], hl⟩
    · rw [blockOn_cons_ret conf bs hb] at h
      cases h
      exact ⟨[], b, bs, s, rfl, rfl, hb⟩

/-- A turn that returns ran the sleep's branch, the memory branch, or a CPU alarm that took the
counter past `max_cpu_bursts`; the event says which. -/
theorem turn_eq_ret {s : LoopState} {b : Branch} {effs : List Effect} {ev : WorkerEvents}
    (h : turn conf s b = (effs, .ret ev)) :
    (b = .sleep ∧ ev = .wallClockTimeLimit) ∨ (b = .memoryLimit ∧ ev = .memoryLimit) ∨
      ∃ now gap, b = .cpuAlarm now gap ∧ ev = .cpuTimeLimit ∧
        conf.maxCpuBursts < (countAlarm conf s now gap).bursts := by
  cases b with
  | cpuAlarm now gap =>
    rw [turn_cpuAlarm] at h
    split at h
    · cases h; exact .inr (.inr ⟨now, gap, rfl, rfl, ‹_›⟩)
    · cases h
  | sleep => cases h; exact .inl ⟨rfl, rfl⟩
  | memoryLimit => cases h; exact .inr (.inl ⟨rfl, rfl⟩)

/-- A turn that goes on left the counter within `max_cpu_bursts`. -/
theorem turn_eq_continue {s l : LoopState} {b : Branch} {effs : List Effect}
    (h : turn conf s b = (effs, .continue l)) : l.bursts ≤ conf.maxCpuBursts := by
  cases b with
  | cpuAlarm now gap =>
    rw [turn_cpuAlarm] at h
    split at h
    · cases h
    · cases h; omega
  | sleep => cases h
  | memoryLimit => cases h

/-! ## The burst counter is bounded by the clock -/

/-- Each counted alarm is read more than `cpu_burst_interval_ms` whole milliseconds after
`last_burst`, which it then sets no earlier, so the counted bursts fit in the time elapsed since
the start. -/
def BurstsBounded (t0 : Nat) (s : LoopState) : Prop :=
  t0 + s.bursts * ((conf.cpuBurstIntervalMs + 1) * 1000000) ≤ s.lastBurst

theorem burstsBounded_init (t0 : Nat) : BurstsBounded conf t0 (LoopState.init t0) := by
  simp [BurstsBounded, LoopState.init]

/-- An alarm counts at most one burst. -/
theorem countAlarm_bursts_le (s : LoopState) (now gap : Nat) :
    (countAlarm conf s now gap).bursts ≤ s.bursts + 1 := by
  unfold countAlarm
  split <;> simp

/-- An alarm that raised the counter was counted, at its second reading. -/
theorem countAlarm_eq_of_lt {s : LoopState} {now gap : Nat}
    (h : s.bursts < (countAlarm conf s now gap).bursts) :
    countAlarm conf s now gap = ⟨s.bursts + 1, now + gap⟩ := by
  unfold countAlarm at h ⊢
  split
  · rfl
  · rename_i hn; rw [if_neg hn] at h; omega

theorem burstsBounded_countAlarm {t0 : Nat} {s : LoopState} (h : BurstsBounded conf t0 s)
    (now gap : Nat) : BurstsBounded conf t0 (countAlarm conf s now gap) := by
  unfold countAlarm elapsedMillis
  split
  · rename_i hgt
    have hgap : (conf.cpuBurstIntervalMs + 1) * 1000000 ≤ now - s.lastBurst := by omega
    unfold BurstsBounded at h ⊢
    dsimp only
    rw [Nat.add_mul, Nat.one_mul]
    omega
  · exact h

/-- **The counter `bursts` never outgrows the clock**: in every run of the loop that has not
returned, `t0 + bursts · (cpu_burst_interval_ms + 1) ms ≤ last_burst`. -/
theorem burstsBounded_blockOn {t0 : Nat} :
    ∀ {s s' : LoopState} {bs : List Branch} {effs : List Effect}, BurstsBounded conf t0 s →
      blockOn conf s bs = (effs, .continue s') → BurstsBounded conf t0 s'
  | _, _, [], _, h, hr => by cases hr; exact h
  | s, _, b :: bs, _, h, hr => by
    rcases turn_cases conf s b with ⟨now, gap, -, hb⟩ | ⟨ev, hb⟩
    · rw [blockOn_cons_continue conf bs hb] at hr
      exact burstsBounded_blockOn (burstsBounded_countAlarm conf h now gap) hr
    · rw [blockOn_cons_ret conf bs hb] at hr
      cases hr

/-- **The burst counter stays within the clock**: in every run of the supervisor loop from `t0`
that has not returned, the counted bursts fit in the time since `t0`, in units of
`cpu_burst_interval_ms + 1` milliseconds. -/
theorem bursts_within_clock (t0 : Nat) (bs : List Branch) (effs : List Effect) (s : LoopState)
    (h : blockOn conf (LoopState.init t0) bs = (effs, .continue s)) :
    t0 + s.bursts * ((conf.cpuBurstIntervalMs + 1) * 1000000) ≤ s.lastBurst :=
  burstsBounded_blockOn conf (burstsBounded_init conf t0) h

/-- Two alarms with a zero burst interval: the first, read at 1.5 ms, counts and sets
`last_burst` 1 µs later; the second, read at 2 ms, is within a millisecond of that and does not
count. -/
theorem bursts_within_clock_two_alarms :
    blockOn ⟨2, 1, 5, 0⟩ (LoopState.init 0) [.cpuAlarm 1500000 1000, .cpuAlarm 2000000 0] =
        ([], .continue ⟨1, 1501000⟩) ∧
      0 + (1 : Nat) * ((0 + 1) * 1000000) ≤ 1501000 := by
  have h : blockOn ⟨2, 1, 5, 0⟩ (LoopState.init 0) [.cpuAlarm 1500000 1000, .cpuAlarm 2000000 0] =
      ([], .continue ⟨1, 1501000⟩) := by decide
  have hb := bursts_within_clock ⟨2, 1, 5, 0⟩ 0 _ _ _ h
  exact ⟨h, hb⟩

end Supervisor

end EdgeRuntime
