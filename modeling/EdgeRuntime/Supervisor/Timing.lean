import EdgeRuntime.Supervisor.System

/-! # When the supervisor ends a worker

Each of the supervisor's three branches calls `terminate_execution` on the isolate, and
`Supervisor.Termination` says which branch does so first.  This module says when that can
happen, over every run of the supervisor among its signal sources (`Supervisor.System`).

It never happens early (`supervisor_never_ends_early`):

* `WallClockTimeLimit` only once the clock has reached the deadline, `worker_timeout_ms` after
  the future started;
* `CpuTimeLimit` only after the CPU timer has sent more than `max_cpu_bursts` alarms, and only
  `(max_cpu_bursts + 1) · (cpu_burst_interval_ms + 1)` milliseconds after the start: the counter
  `bursts` starts at `0` with `last_burst` the start, an alarm counts only when more than
  `cpu_burst_interval_ms` whole milliseconds have passed since `last_burst`, and it then sets
  `last_burst` from a second clock reading, no earlier;
* `MemoryLimit` only after the near-heap-limit callback has sent on `memory_limit_tx`.

The run facts behind this are that every message sent on a channel is still queued or was
received by the loop exactly once (`Accounted`), and that the sleep's branch runs only at the
deadline.

And the CPU limit does take effect (`cpu_limit_effective`): once the loop has handled more than
`max_cpu_bursts` alarms, each read a burst interval after the second reading of the one before,
it has returned, however many other alarms came between them.  An alarm of such a chain that is
not counted has a counted alarm whose second reading is within a burst interval before it, so
after the chain's previous alarm (`chain_length_le_counted`).  Spacing measured from the previous
alarm's first reading is not enough: the second reading can push `last_burst` past it.
-/

namespace EdgeRuntime.Supervisor

variable (conf : UserWorkerRuntimeOpts)

/-! ## The loop side -/

/-- In a run of the loop that has not returned, each counted burst was an alarm, and the counter
never passed `max_cpu_bursts`. -/
theorem blockOn_continue_bursts :
    ∀ {s l : LoopState} {bs : List Branch} {effs : List Effect}, s.bursts ≤ conf.maxCpuBursts →
      blockOn conf s bs = (effs, .continue l) →
        l.bursts ≤ conf.maxCpuBursts ∧ l.bursts ≤ s.bursts + (alarmReadings bs).length
  | _, _, [], _, h, hr => by cases hr; exact ⟨h, Nat.le_add_right _ _⟩
  | s, _, b :: bs, _, _, hr => by
    rcases turn_cases conf s b with ⟨now, gap, rfl, hb⟩ | ⟨ev, hb⟩
    · rw [blockOn_cons_continue conf bs hb] at hr
      obtain ⟨hmax, hcount⟩ := blockOn_continue_bursts (turn_eq_continue conf hb) hr
      have hone := countAlarm_bursts_le conf s now gap
      have hstamps : (alarmReadings (.cpuAlarm now gap :: bs)).length =
          (alarmReadings bs).length + 1 := by
        simp [alarmReadings, Branch.alarmAt?]
      exact ⟨hmax, by omega⟩
    · rw [blockOn_cons_ret conf bs hb] at hr
      cases hr

/-- **The CPU limit is never reached early by the loop**: a run of the loop from `t0` that
returns `CpuTimeLimit` has handled more than `max_cpu_bursts` alarms, one of whose turns read
the clock at least `(max_cpu_bursts + 1) · (cpu_burst_interval_ms + 1)` ms after `t0`. -/
theorem blockOn_cpuTimeLimit {t0 : Nat} {bs : List Branch} {effs : List Effect}
    (h : blockOn conf (LoopState.init t0) bs = (effs, .ret .cpuTimeLimit)) :
    ∃ r ∈ alarmReadings bs,
      t0 + (conf.maxCpuBursts + 1) * ((conf.cpuBurstIntervalMs + 1) * 1000000) ≤ r.2 ∧
        conf.maxCpuBursts + 1 ≤ (alarmReadings bs).length := by
  obtain ⟨pre, b, post, l, rfl, hpre, hb⟩ := blockOn_eq_ret conf h
  obtain ⟨hmax, hcount⟩ := blockOn_continue_bursts conf (Nat.zero_le _) hpre
  rcases turn_eq_ret conf hb with ⟨-, hev⟩ | ⟨-, hev⟩ | ⟨now, gap, rfl, -, hlt⟩
  · cases hev
  · cases hev
  · have hc : countAlarm conf l now gap = ⟨l.bursts + 1, now + gap⟩ :=
      countAlarm_eq_of_lt conf (by omega)
    have hbb : BurstsBounded conf t0 (countAlarm conf l now gap) := burstsBounded_countAlarm conf
      (burstsBounded_blockOn conf (burstsBounded_init conf t0) hpre) now gap
    rw [hc] at hbb hlt
    have hstamps : alarmReadings (pre ++ .cpuAlarm now gap :: post) =
        alarmReadings pre ++ (now, now + gap) :: alarmReadings post := by
      simp [alarmReadings, Branch.alarmAt?]
    refine ⟨(now, now + gap), by simp [hstamps], ?_, ?_⟩
    · calc t0 + (conf.maxCpuBursts + 1) * ((conf.cpuBurstIntervalMs + 1) * 1000000)
          ≤ t0 + (l.bursts + 1) * ((conf.cpuBurstIntervalMs + 1) * 1000000) :=
            Nat.add_le_add_left (Nat.mul_le_mul_right _ hlt) _
        _ ≤ now + gap := hbb
    · simp only [LoopState.init, Nat.zero_add] at hcount
      simp only [hstamps, List.length_append, List.length_cons]
      dsimp only at hlt
      omega

/-! ## Spaced alarms are counted -/

/-- An alarm counts exactly when it is read at least `cpu_burst_interval_ms + 1` whole
milliseconds after the last counted one. -/
theorem elapsedMillis_gt_iff (last t : Nat) :
    elapsedMillis last t > conf.cpuBurstIntervalMs ↔
      last + (conf.cpuBurstIntervalMs + 1) * 1000000 ≤ t := by
  unfold elapsedMillis
  rw [gt_iff_lt, ← Nat.add_one_le_iff, Nat.le_div_iff_mul_le (by decide)]
  omega

/-- Readings taken in clock order, read per alarm: each alarm's second reading is no earlier
than its first, and the next alarm's first no earlier than both. -/
theorem alarmReadings_sorted {t0 : Nat} {bs : List Branch}
    (h : List.Pairwise (· ≤ ·) (t0 :: alarmStamps bs)) :
    List.Pairwise (fun a b => a.2 ≤ b.1) (alarmReadings bs) ∧
      ∀ r ∈ alarmReadings bs, r.1 ≤ r.2 := by
  rw [List.pairwise_cons, alarmStamps, List.pairwise_flatMap] at h
  exact ⟨h.2.2.imp fun hab => hab _ (by simp) _ (by simp), fun r hr => by simpa using h.2.1 r hr⟩

/-- **Spaced alarms are counted**: among alarms read in clock order, a chain of them each read a
burst interval after the second reading of the one before (the first a burst interval after
`p.2`, no earlier than `last`) counts at least as many bursts as it has alarms.  Each alarm of
the chain is counted, or else the last counted alarm's second reading is within a burst
interval before it, hence that alarm comes after the chain's previous one. -/
theorem chain_length_le_counted :
    ∀ (last : Nat) (rs : List (Nat × Nat)) (p : Nat × Nat) (chain : List (Nat × Nat)),
      List.Pairwise (fun a b => a.2 ≤ b.1) rs → (∀ r ∈ rs, r.1 ≤ r.2) → last ≤ p.2 →
      List.Chain (fun a b => a.2 + (conf.cpuBurstIntervalMs + 1) * 1000000 ≤ b.1) p chain →
      List.Sublist chain rs → chain.length ≤ (counted conf last rs).length
  | _, [], _, _, _, _, _, _, hsub => by simp [List.sublist_nil.mp hsub]
  | last, r :: rs, p, chain, hsorted, hrs, hp, hchain, hsub => by
    have hts := hsorted.of_cons
    have hr : ∀ x ∈ rs, r.2 ≤ x.1 := (List.pairwise_cons.mp hsorted).1
    have hrs' : ∀ x ∈ rs, x.1 ≤ x.2 := fun x hx => hrs x (List.mem_cons_of_mem _ hx)
    by_cases hcount : elapsedMillis last r.1 > conf.cpuBurstIntervalMs
    · rw [counted, if_pos hcount, List.length_cons]
      cases hsub with
      | cons _ hsub' =>
        -- `r` is not in the chain: the chain's alarms all come after it
        cases chain with
        | nil => simp
        | cons c chain' =>
          have hc : c ∈ rs := hsub'.subset (List.mem_cons_self _ _)
          have ih := chain_length_le_counted r.2 rs c chain' hts hrs' ((hr c hc).trans (hrs' c hc))
            (List.chain_cons.mp hchain).2 (List.sublist_of_cons_sublist hsub')
          simp only [List.length_cons]
          omega
      | cons₂ _ hsub' =>
        have ih := chain_length_le_counted r.2 rs r _ hts hrs' le_rfl
          (List.chain_cons.mp hchain).2 hsub'
        simp only [List.length_cons]
        omega
    · rw [counted, if_neg hcount]
      cases hsub with
      | cons _ hsub' => exact chain_length_le_counted last rs p chain hts hrs' hp hchain hsub'
      | cons₂ _ _ =>
        -- the chain's first alarm is `r`, which a burst interval after `last` would count
        have hspaced := (List.chain_cons.mp hchain).1
        exact absurd ((elapsedMillis_gt_iff conf last r.1).mpr (by omega)) hcount

/-! ## What a run has sent and handled -/

variable (t0 : Nat)

/-- What a run of `acts` has done to the channels and the sleep: each message sent on a channel
is still queued or was received by the loop, and the sleep's branch ran only at the deadline. -/
structure Accounted (acts : List Action) (c : Configuration) : Prop where
  cpu : c.cpuQueued + (alarmReadings c.handled).length = acts.count .cpuAlarm
  mem : c.memQueued + c.handled.count .memoryLimit = acts.count .nearHeapLimit
  sleep : .sleep ∈ c.handled → deadline conf t0 ≤ c.clock

theorem accounted_init : Accounted conf t0 [] (Configuration.init t0) :=
  ⟨rfl, rfl, fun h => by simp [Configuration.init] at h⟩

/-- Every step keeps the accounts: a send queues one message, a receive takes one from the
queue into `handled`, and only the clock and the sleep's branch touch the deadline. -/
theorem Accounted.step {acts : List Action} {c c' : Configuration} {a : Action}
    (h : Accounted conf t0 acts c) (hs : step conf t0 c a = some c') :
    Accounted conf t0 (acts ++ [a]) c' := by
  obtain ⟨hcpu, hmem, hsleep⟩ := h
  cases a with
  | tick d =>
    cases hs
    exact ⟨by simpa using hcpu, by simpa using hmem,
      fun hb => (hsleep hb).trans (Nat.le_add_right _ _)⟩
  | cpuAlarm =>
    simp only [EdgeRuntime.Supervisor.step] at hs
    split at hs
    · cases hs
      exact ⟨by simp [← hcpu]; omega, by simpa using hmem, hsleep⟩
    · cases hs
  | nearHeapLimit =>
    simp only [EdgeRuntime.Supervisor.step] at hs
    split at hs
    · cases hs
      exact ⟨by simpa using hcpu, by simp [← hmem]; omega, hsleep⟩
    · cases hs
  | dropCpuTimer | dropIsolate =>
    cases hs
    exact ⟨by simpa using hcpu, by simpa using hmem, hsleep⟩
  | select p =>
    cases p <;> simp only [EdgeRuntime.Supervisor.step] at hs <;> split at hs <;>
      (try cases hs) <;> rename_i hr
    · -- the CPU alarm's branch takes one alarm from the queue, and its turn takes time
      refine ⟨?_, by simpa using hmem,
        fun hb => (hsleep (by simpa using hb)).trans (by simp)⟩
      simp only [Configuration.handle_cpuQueued, Configuration.handle_handled,
        alarmReadings_append_singleton, List.count_append]
      simp [Branch.alarmAt?]
      omega
    · -- the sleep's branch runs at the deadline
      exact ⟨by simpa [alarmReadings_append_singleton, Branch.alarmAt?] using hcpu,
        by simpa using hmem, fun _ => by simpa using hr.2⟩
    · -- the memory branch takes one notice from the queue
      refine ⟨by simpa [alarmReadings_append_singleton, Branch.alarmAt?] using hcpu, ?_,
        fun hb => by simpa using hsleep (by simpa using hb)⟩
      simp only [Configuration.handle_memQueued, Configuration.handle_handled, List.count_append]
      simp
      omega

theorem Accounted.run {acts : List Action} {c c' : Configuration} (h : Accounted conf t0 acts c) :
    ∀ {more : List Action}, run conf t0 c more = some c' → Accounted conf t0 (acts ++ more) c'
  | [], hr => by cases hr; simpa using h
  | a :: more, hr => by
    simp only [EdgeRuntime.Supervisor.run] at hr
    cases hs : EdgeRuntime.Supervisor.step conf t0 c a with
    | none => simp [hs] at hr
    | some c₁ =>
      rw [hs, Option.some_bind] at hr
      simpa using (h.step conf t0 hs).run hr

/-- A configuration whose future has returned `ev` has run the loop to a `ret ev`. -/
theorem Good.blockOn_of_result {c : Configuration} (hg : Good conf t0 c) {ev : WorkerEvents}
    (hr : c.result = some ev) :
    ∃ effs, blockOn conf (LoopState.init t0) c.handled = (effs, .ret ev) := by
  have h2 := hg.control
  rw [Configuration.control, hr] at h2
  exact ⟨_, Prod.ext rfl h2⟩

/-- A future that returned ran the branch its event names. -/
theorem Good.ran_branch_of_result {c : Configuration} (hg : Good conf t0 c) {ev : WorkerEvents}
    (hr : c.result = some ev) :
    (ev = .wallClockTimeLimit → .sleep ∈ c.handled) ∧
      (ev = .memoryLimit → .memoryLimit ∈ c.handled) := by
  obtain ⟨effs, hB⟩ := hg.blockOn_of_result conf t0 hr
  obtain ⟨pre, b, post, l, hbs, -, hb⟩ := blockOn_eq_ret conf hB
  rcases turn_eq_ret conf hb with ⟨rfl, rfl⟩ | ⟨rfl, rfl⟩ | ⟨_, _, -, rfl, -⟩ <;> simp [hbs]

/-- **The supervisor never ends a worker early.**  In every run of the supervisor from the
start: it reports `WallClockTimeLimit` only once the clock has reached the deadline; it reports
`CpuTimeLimit` only after the CPU timer has sent more than `max_cpu_bursts` alarms and
`(max_cpu_bursts + 1) · (cpu_burst_interval_ms + 1)` ms have passed since the start; and it
reports `MemoryLimit` only after the near-heap-limit callback has sent its notice. -/
theorem supervisor_never_ends_early (acts : List Action) (c : Configuration)
    (h : run conf t0 (Configuration.init t0) acts = some c) :
    (c.result = some .wallClockTimeLimit → deadline conf t0 ≤ c.clock) ∧
    (c.result = some .cpuTimeLimit →
      conf.maxCpuBursts + 1 ≤ acts.count .cpuAlarm ∧
        t0 + (conf.maxCpuBursts + 1) * ((conf.cpuBurstIntervalMs + 1) * 1000000) ≤ c.clock) ∧
    (c.result = some .memoryLimit → .nearHeapLimit ∈ acts) := by
  have hg := Reachable.good conf t0 (Reachable.run conf t0 Reachable.init h)
  have ha : Accounted conf t0 acts c := by
    simpa using (accounted_init conf t0).run conf t0 h
  refine ⟨fun hr => ha.sleep ((hg.ran_branch_of_result conf t0 hr).1 rfl), fun hr => ?_,
    fun hr => ?_⟩
  · obtain ⟨effs, hB⟩ := hg.blockOn_of_result conf t0 hr
    obtain ⟨r, hr, hbound, hcount⟩ := blockOn_cpuTimeLimit conf hB
    have hstamp : r.2 ∈ alarmStamps c.handled := List.mem_flatMap.mpr ⟨r, hr, by simp⟩
    exact ⟨by have := ha.cpu; omega, hbound.trans (hg.le_clock _ (List.mem_cons_of_mem _ hstamp))⟩
  · -- the memory branch received a notice, which was sent
    have hpos : 0 < c.handled.count .memoryLimit :=
      List.count_pos_iff.mpr ((hg.ran_branch_of_result conf t0 hr).2 rfl)
    exact List.count_pos_iff.mp (by have := ha.mem; omega)

/-- A CPU alarm sent at the start and handled 1 ms later, with `max_cpu_bursts = 0` and a zero
burst interval: the alarm counts, and the supervisor reports `CpuTimeLimit`. -/
def cpuLimitRun : List Action := [.cpuAlarm, .tick 1000000, .select (.cpuAlarm 0)]

theorem supervisor_never_ends_early_cpu :
    (run ⟨2, 1, 0, 0⟩ 0 (Configuration.init 0) cpuLimitRun).map Configuration.result =
        some (some .cpuTimeLimit) ∧
      ∀ c, run ⟨2, 1, 0, 0⟩ 0 (Configuration.init 0) cpuLimitRun = some c →
        (c.result = some .wallClockTimeLimit → deadline ⟨2, 1, 0, 0⟩ 0 ≤ c.clock) ∧
        (c.result = some .cpuTimeLimit →
          (0 : Nat) + 1 ≤ cpuLimitRun.count .cpuAlarm ∧
            0 + (0 + 1) * ((0 + 1) * 1000000) ≤ c.clock) ∧
        (c.result = some .memoryLimit → .nearHeapLimit ∈ cpuLimitRun) :=
  ⟨rfl, fun c hc => supervisor_never_ends_early ⟨2, 1, 0, 0⟩ 0 cpuLimitRun c hc⟩

/-- **The CPU limit is effective.**  In every reachable configuration in which the loop has
handled more than `max_cpu_bursts` alarms read a burst interval apart (the first reading of the
first at least `cpu_burst_interval_ms + 1` ms after `t0`, that of each later one at least that
long after the second reading of the one before), the supervisor has returned, whatever other
alarms it handled between them. -/
theorem cpu_limit_effective (c : Configuration) (hc : Reachable conf t0 c)
    (chain : List (Nat × Nat)) (hsub : List.Sublist chain (alarmReadings c.handled))
    (hspaced : List.Chain (fun a b => a.2 + (conf.cpuBurstIntervalMs + 1) * 1000000 ≤ b.1)
      (t0, t0) chain)
    (hlen : conf.maxCpuBursts < chain.length) : c.result ≠ none := by
  intro hr
  have hg := Reachable.good conf t0 hc
  have hB := hg.blockOn_of_running conf t0 hr
  obtain ⟨hmax, -⟩ := blockOn_continue_bursts conf (Nat.zero_le _) hB
  have hlocals : c.locals = burstState conf t0 (alarmReadings c.handled) := by
    have h := blockOn_burstState conf t0 [] c.handled
    rw [show alarmReadings [] = [] from rfl, burstState_nil, hB] at h
    split at h
    · simpa using congrArg Prod.snd h
    · cases h
  have hsorted := alarmReadings_sorted hg.sorted
  have hcount := chain_length_le_counted conf t0 _ _ chain hsorted.1 hsorted.2 le_rfl hspaced hsub
  rw [hlocals] at hmax
  exact absurd (hcount.trans hmax) (by omega)

/-- Two alarms with a burst interval of 1 ms and `max_cpu_bursts = 1`: the first read at 2 ms,
its second reading half a millisecond later, the second read 2 ms after that. -/
def spacedAlarmsRun : List Action :=
  [.cpuAlarm, .cpuAlarm, .tick 2000000, .select (.cpuAlarm 500000), .tick 2000000,
    .select (.cpuAlarm 0)]

/-- Where `spacedAlarmsRun` ends: the second alarm made the second burst. -/
def spacedAlarmsEnd : Configuration :=
  ⟨⟨1, 2500000⟩, 0, true, 0, true, 4500000, [.cpuAlarm 2000000 500000, .cpuAlarm 4500000 0],
    [.terminateExecution, .sendTermination .cpuTimeLimit], some .cpuTimeLimit⟩

theorem cpu_limit_effective_spaced :
    Reachable ⟨2, 10, 1, 1⟩ 0 spacedAlarmsEnd ∧
      List.Sublist [(2000000, 2500000), (4500000, 4500000)]
        (alarmReadings spacedAlarmsEnd.handled) ∧
      List.Chain (fun a b => a.2 + (1 + 1) * 1000000 ≤ b.1) (0, 0)
        [(2000000, 2500000), (4500000, 4500000)] ∧
      1 < [(2000000, 2500000), (4500000, 4500000)].length ∧ spacedAlarmsEnd.result ≠ none := by
  have hreach : Reachable ⟨2, 10, 1, 1⟩ 0 spacedAlarmsEnd :=
    Reachable.run _ _ Reachable.init
      (show run _ _ _ spacedAlarmsRun = some spacedAlarmsEnd from rfl)
  have hsub : List.Sublist [(2000000, 2500000), (4500000, 4500000)]
      (alarmReadings spacedAlarmsEnd.handled) := List.Sublist.refl _
  have hchain : List.Chain (fun a b => a.2 + (1 + 1) * 1000000 ≤ b.1) (0, 0)
      [(2000000, 2500000), (4500000, 4500000)] := by
    simp
  exact ⟨hreach, hsub, hchain, by decide,
    cpu_limit_effective ⟨2, 10, 1, 1⟩ 0 spacedAlarmsEnd hreach _ hsub hchain (by decide)⟩

/-- Spacing the chain by first readings is not enough.  With a zero burst interval and
`max_cpu_bursts = 1`, two alarms read at 1 ms and 2 ms: the first counts and sets `last_burst`
1 ns after its reading, so at the second less than a millisecond has passed, it does not count,
and the supervisor has not returned. -/
theorem first_readings_spacing_not_enough :
    (run ⟨2, 10, 1, 0⟩ 0 (Configuration.init 0)
      [.cpuAlarm, .cpuAlarm, .tick 1000000, .select (.cpuAlarm 1), .tick 999999,
        .select (.cpuAlarm 0)]).map (fun c => (alarmReadings c.handled, c.locals, c.result)) =
      some ([(1000000, 1000001), (2000000, 2000000)], ⟨1, 1000001⟩, none) := by
  decide

end EdgeRuntime.Supervisor
