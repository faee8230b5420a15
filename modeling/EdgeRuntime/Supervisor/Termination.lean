import EdgeRuntime.Supervisor.Loop

/-! # How the supervisor ends

What the supervisor is for, said without its loop: over the branches it handles, in order,
a step is *terminal* when it is a memory notification, the deadline, or a CPU alarm at which the
*counted* alarms so far outnumber `max_cpu_bursts`; an alarm counts when, at its first reading,
more than `cpu_burst_interval_ms` whole milliseconds have passed since the second reading of the
last counted alarm, or since the start `t0` (`counted`).  `stepEnds bs i` is the event step `i`
would end the supervisor with.

The loop refines this description (`blockOn_burstState`): while no step has been terminal, its
locals are the number of counted alarms and the second reading of the last one (`burstState`),
and at the first terminal step it calls `terminate_execution` and returns that step's event.  So
the thread's effects are nothing before the first terminal step, and exactly one
`terminate_execution` followed by one send of the right event from then on
(`supervisor_terminates_once`).
-/

namespace EdgeRuntime.Supervisor

variable (conf : UserWorkerRuntimeOpts)

/-- The two clock readings of a CPU-alarm branch: `last_burst.elapsed()`, and the
`Instant::now()` that sets `last_burst` if the alarm is counted. -/
def Branch.alarmAt? : Branch → Option (Nat × Nat)
  | .cpuAlarm now gap => some (now, now + gap)
  | _ => none

/-- The readings of the CPU alarms among the handled branches, in order. -/
def alarmReadings (bs : List Branch) : List (Nat × Nat) := bs.filterMap Branch.alarmAt?

/-- Every clock reading the CPU alarms' turns took, in order. -/
def alarmStamps (bs : List Branch) : List Nat := (alarmReadings bs).flatMap fun r => [r.1, r.2]

/-- **The counted alarms** among alarms with readings `rs`: an alarm counts iff, at its first
reading, more than `cpu_burst_interval_ms` whole milliseconds have passed since the second
reading of the last counted alarm, or since `last` while none has counted. -/
def counted (last : Nat) : List (Nat × Nat) → List (Nat × Nat)
  | [] => []
  | r :: rs =>
    if elapsedMillis last r.1 > conf.cpuBurstIntervalMs then r :: counted r.2 rs
    else counted last rs

/-- The event the step `b` ends the supervisor with, once the branches `pre` have been handled;
`none` if it is not terminal. -/
def terminalEvent (t0 : Nat) (pre : List Branch) : Branch → Option WorkerEvents
  | .memoryLimit => some .memoryLimit
  | .sleep => some .wallClockTimeLimit
  | .cpuAlarm now gap =>
    if (counted conf t0 (alarmReadings (pre ++ [.cpuAlarm now gap]))).length >
        conf.maxCpuBursts then
      some .cpuTimeLimit
    else none

/-- The event step `i` of `bs` ends the supervisor with, if it is terminal. -/
def stepEnds (t0 : Nat) (bs : List Branch) (i : Nat) : Option WorkerEvents :=
  bs[i]?.bind (terminalEvent conf t0 (bs.take i))

/-- The first step of `bs` that is terminal once `pre` has been handled: its index in `bs`, and
its event. -/
def firstTerminalAfter (t0 : Nat) : List Branch → List Branch → Option (Nat × WorkerEvents)
  | _, [] => none
  | pre, b :: bs =>
    match terminalEvent conf t0 pre b with
    | some ev => some (0, ev)
    | none => (firstTerminalAfter t0 (pre ++ [b]) bs).map fun r => (r.1 + 1, r.2)

/-- The thread's effects once the first terminal step, if any, has run. -/
def terminationEffects : Option (Nat × WorkerEvents) → List Effect
  | none => []
  | some (_, ev) => [.terminateExecution, .sendTermination ev]

/-- The locals the loop holds after the alarms with readings `rs`: one burst per counted alarm,
and the second reading of the last counted alarm, or `t0`. -/
def burstState (t0 : Nat) (rs : List (Nat × Nat)) : LoopState :=
  ⟨(counted conf t0 rs).length, ((counted conf t0 rs).getLast?.map Prod.snd).getD t0⟩

/-! ## Counting alarms one at a time -/

theorem counted_append_singleton (last : Nat) (rs : List (Nat × Nat)) (r : Nat × Nat) :
    counted conf last (rs ++ [r]) = counted conf last rs ++
      if elapsedMillis (((counted conf last rs).getLast?.map Prod.snd).getD last) r.1 >
        conf.cpuBurstIntervalMs then [r] else [] := by
  induction rs generalizing last with
  | nil => simp [counted]
  | cons r' rs ih =>
    simp only [List.cons_append, counted]
    split <;> simp [ih, List.getLast?_cons]

/-- The CPU-alarm branch's accounting is the counting rule, one alarm further. -/
theorem countAlarm_burstState (t0 : Nat) (rs : List (Nat × Nat)) (now gap : Nat) :
    countAlarm conf (burstState conf t0 rs) now gap =
      burstState conf t0 (rs ++ [(now, now + gap)]) := by
  simp only [countAlarm, burstState, counted_append_singleton]
  split <;> simp [*]

theorem burstState_nil (t0 : Nat) : burstState conf t0 [] = LoopState.init t0 := rfl

/-! ## The loop refines the description -/

theorem turn_burstState_cpuAlarm (t0 : Nat) (pre : List Branch) (now gap : Nat) :
    turn conf (burstState conf t0 (alarmReadings pre)) (.cpuAlarm now gap) =
      match terminalEvent conf t0 pre (.cpuAlarm now gap) with
      | some ev => ([.terminateExecution], .ret ev)
      | none =>
        ([], .continue (burstState conf t0 (alarmReadings (pre ++ [.cpuAlarm now gap])))) := by
  have hs : alarmReadings (pre ++ [.cpuAlarm now gap]) =
      alarmReadings pre ++ [(now, now + gap)] := by
    simp [alarmReadings, Branch.alarmAt?]
  rw [turn_cpuAlarm, countAlarm_burstState, terminalEvent, hs]
  unfold burstState
  split <;> simp [*]

/-- **The loop refines the description**: run from the locals `burstState` gives after `pre`,
the loop has no effect and holds the counted alarms of `pre ++ bs` while no step of `bs` is
terminal, and otherwise calls `terminate_execution` once and returns the first terminal step's
event. -/
theorem blockOn_burstState (t0 : Nat) :
    ∀ (pre bs : List Branch), blockOn conf (burstState conf t0 (alarmReadings pre)) bs =
      match firstTerminalAfter conf t0 pre bs with
      | none => ([], .continue (burstState conf t0 (alarmReadings (pre ++ bs))))
      | some (_, ev) => ([.terminateExecution], .ret ev)
  | pre, [] => by simp [firstTerminalAfter]
  | pre, b :: bs => by
    have ih := blockOn_burstState t0 (pre ++ [b]) bs
    rw [List.append_assoc, List.singleton_append] at ih
    cases b with
    | cpuAlarm now gap =>
      have ht := turn_burstState_cpuAlarm conf t0 pre now gap
      simp only [firstTerminalAfter]
      cases hte : terminalEvent conf t0 pre (.cpuAlarm now gap) with
      | some ev => rw [hte] at ht; exact blockOn_cons_ret conf bs ht
      | none =>
        rw [hte] at ht
        rw [blockOn_cons_continue conf bs ht, ih]
        cases firstTerminalAfter conf t0 (pre ++ [.cpuAlarm now gap]) bs <;> rfl
    | sleep => exact blockOn_cons_ret conf bs (turn_sleep conf _)
    | memoryLimit => exact blockOn_cons_ret conf bs (turn_memoryLimit conf _)

/-- The thread's effects are those of the first terminal step of the handled branches. -/
theorem supervisorThread_eq (t0 : Nat) (bs : List Branch) :
    supervisorThread conf t0 bs = terminationEffects (firstTerminalAfter conf t0 [] bs) := by
  have h := blockOn_burstState conf t0 [] bs
  rw [show alarmReadings [] = [] from rfl, burstState_nil] at h
  unfold supervisorThread
  rw [h]
  cases firstTerminalAfter conf t0 [] bs <;> rfl

/-! ## The first terminal step, by index -/

/-- `stepEnds` relative to handled branches `pre`. -/
theorem stepEnds_cons (t0 : Nat) (pre : List Branch) (b : Branch) (bs : List Branch) (i : Nat) :
    (b :: bs)[i + 1]?.bind (terminalEvent conf t0 (pre ++ (b :: bs).take (i + 1))) =
      bs[i]?.bind (terminalEvent conf t0 ((pre ++ [b]) ++ bs.take i)) := by
  simp

/-- No terminal step, no end. -/
theorem firstTerminalAfter_eq_none (t0 : Nat) :
    ∀ (pre bs : List Branch), (∀ i, bs[i]?.bind (terminalEvent conf t0 (pre ++ bs.take i)) = none) →
      firstTerminalAfter conf t0 pre bs = none
  | _, [], _ => rfl
  | pre, b :: bs, h => by
    have h0 : terminalEvent conf t0 pre b = none := by simpa using h 0
    simp only [firstTerminalAfter, h0]
    rw [firstTerminalAfter_eq_none t0 (pre ++ [b]) bs fun i => by
      rw [← stepEnds_cons conf t0 pre b bs i]; exact h (i + 1)]
    rfl

/-- The end is at the first terminal step, found by index. -/
theorem firstTerminalAfter_eq_some (t0 : Nat) :
    ∀ (pre bs : List Branch) (i : Nat) (ev : WorkerEvents),
      bs[i]?.bind (terminalEvent conf t0 (pre ++ bs.take i)) = some ev →
      (∀ j < i, bs[j]?.bind (terminalEvent conf t0 (pre ++ bs.take j)) = none) →
      firstTerminalAfter conf t0 pre bs = some (i, ev)
  | _, [], _, _, hi, _ => by simp at hi
  | pre, b :: bs, 0, ev, hi, _ => by
    simp only [List.getElem?_cons_zero, List.take_zero, List.append_nil, Option.some_bind] at hi
    simp only [firstTerminalAfter, hi]
  | pre, b :: bs, i + 1, ev, hi, hbefore => by
    have h0 : terminalEvent conf t0 pre b = none := by simpa using hbefore 0 (by omega)
    rw [stepEnds_cons] at hi
    simp only [firstTerminalAfter, h0]
    rw [firstTerminalAfter_eq_some t0 (pre ++ [b]) bs i ev hi fun j hj => by
      rw [← stepEnds_cons conf t0 pre b bs j]; exact hbefore (j + 1) (by omega)]
    rfl

/-! ## The supervisor terminates once -/

/-- A prefix that stops at or before the first terminal step has no terminal step. -/
theorem stepEnds_take (t0 : Nat) (bs : List Branch) {i j : Nat} (hji : j ≤ i)
    (hbefore : ∀ k < i, stepEnds conf t0 bs k = none) (k : Nat) :
    stepEnds conf t0 (bs.take j) k = none := by
  unfold stepEnds at hbefore ⊢
  rw [List.getElem?_take, List.take_take]
  split
  · rename_i hk
    rw [min_eq_left hk.le]
    exact hbefore k (by omega)
  · rfl

/-- **The supervisor terminates once, on the first terminal step.**  Over any order in which the
loop handles CPU alarms, memory notifications and the deadline: if step `i` is the first
terminal one, the thread calls `terminate_execution` once and sends that step's event once, and
does nothing on any shorter prefix; with no terminal step it does nothing; and a sequence in
which the deadline is handled has a terminal step. -/
theorem supervisor_terminates_once (t0 : Nat) (bs : List Branch) :
    (∀ i ev, stepEnds conf t0 bs i = some ev → (∀ j < i, stepEnds conf t0 bs j = none) →
      supervisorThread conf t0 bs = [.terminateExecution, .sendTermination ev] ∧
        ∀ j ≤ i, supervisorThread conf t0 (bs.take j) = []) ∧
    ((∀ i, stepEnds conf t0 bs i = none) → supervisorThread conf t0 bs = []) ∧
    (.sleep ∈ bs → ∃ i ev, stepEnds conf t0 bs i = some ev) := by
  refine ⟨fun i ev hi hbefore => ⟨?_, fun j hj => ?_⟩, fun h => ?_, fun hs => ?_⟩
  · rw [supervisorThread_eq, firstTerminalAfter_eq_some conf t0 [] bs i ev hi hbefore]
    rfl
  · rw [supervisorThread_eq,
      firstTerminalAfter_eq_none conf t0 [] _ (stepEnds_take conf t0 bs hj hbefore)]
    rfl
  · rw [supervisorThread_eq, firstTerminalAfter_eq_none conf t0 [] bs h]
    rfl
  · obtain ⟨i, hi⟩ := List.mem_iff_getElem?.mp hs
    exact ⟨i, .wallClockTimeLimit, by simp [stepEnds, hi, terminalEvent]⟩

/-- Three CPU alarms 150 ms apart, with a burst interval of 100 ms and at most two bursts: each
alarm counts, and the third is the first terminal step. -/
def threeBursts : List Branch :=
  [.cpuAlarm 150000000 0, .cpuAlarm 300000000 0, .cpuAlarm 450000000 0]

theorem supervisor_terminates_once_three_bursts :
    stepEnds ⟨2, 1000, 2, 100⟩ 0 threeBursts 2 = some .cpuTimeLimit ∧
      supervisorThread ⟨2, 1000, 2, 100⟩ 0 threeBursts =
        [.terminateExecution, .sendTermination .cpuTimeLimit] ∧
      ∀ j ≤ 2, supervisorThread ⟨2, 1000, 2, 100⟩ 0 (threeBursts.take j) = [] := by
  have hend : stepEnds ⟨2, 1000, 2, 100⟩ 0 threeBursts 2 = some .cpuTimeLimit := by decide
  have hbefore : ∀ j < 2, stepEnds ⟨2, 1000, 2, 100⟩ 0 threeBursts j = none := by decide
  exact ⟨hend,
    (supervisor_terminates_once ⟨2, 1000, 2, 100⟩ 0 threeBursts).1 2 _ hend hbefore⟩

end EdgeRuntime.Supervisor
