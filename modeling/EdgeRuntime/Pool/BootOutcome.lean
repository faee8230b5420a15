import EdgeRuntime.Pool.Create

/-! # The loop never sees the boot outcome

`new_user_worker` returns once the socket pair and the HTTP handshake are done; the boot itself,
`UserWorker::new` and `worker.run`, runs in a task whose handle the loop stores and never reads.
So two runs whose answers differ only in what the boot task's calls return — whether it fails,
and when — are the same run as far as anyone outside can tell: the loop panics or runs on at the
same points, calls `new_user_worker` for the same keys, keeps connections for the same keys, and
sends every caller the same reply (`boot_outcome_invisible`).  In particular a failed boot is
answered exactly like a successful one.
-/

namespace EdgeRuntime.Pool

/-- Two answers that agree on every call the loop itself waits for; the boot task's own calls
may differ. -/
def Answers.SameButBoot (a a' : Answers) : Prop :=
  a.boot.unixStreamPair = a'.boot.unixStreamPair ∧ a.boot.handshake = a'.boot.handshake ∧
    a.sendRequest = a'.sendRequest

/-- A reply sent to a caller: the caller and the reply. -/
def Effect.reply? : Effect → Option (Nat × Reply)
  | .send tx r => some (tx, r)
  | _ => none

/-- The replies sent to callers, in order. -/
def sentReplies (effs : List Effect) : List (Nat × Reply) := effs.filterMap Effect.reply?

theorem sentReplies_append (e e' : List Effect) :
    sentReplies (e ++ e') = sentReplies e ++ sentReplies e' :=
  List.filterMap_append _ _ _

/-- Two loop states no caller can tell apart: the same status, the same keys bound to the same
connections, the same `new_user_worker` calls and the same replies. -/
structure Indistinguishable (s s' : PoolLoop) : Prop where
  status : s.status = s'.status
  table : ∀ k, (s.userWorkers k).map WorkerContext.requestSender =
    (s'.userWorkers k).map WorkerContext.requestSender
  calls : calledKeys s.effects = calledKeys s'.effects
  replies : sentReplies s.effects = sentReplies s'.effects

/-- `new_user_worker` fails, or succeeds with the same connection, whatever the boot task does. -/
theorem newUserWorker_sameButBoot {a a' : BootAnswers}
    (hp : a.unixStreamPair = a'.unixStreamPair) (hh : a.handshake = a'.handshake) :
    (∃ e e', newUserWorker a = .error e ∧ newUserWorker a' = .error e') ∨
      ∃ ctx ctx', newUserWorker a = .ok ctx ∧ newUserWorker a' = .ok ctx' ∧
        ctx.requestSender = ctx'.requestSender := by
  unfold newUserWorker
  rw [← hp, ← hh]
  rcases a.unixStreamPair with e | ⟨⟩
  · exact .inl ⟨e, e, rfl, rfl⟩
  · rcases a.handshake with e | rs
    · exact .inl ⟨e, e, rfl, rfl⟩
    · exact .inr ⟨_, _, rfl, rfl, rfl⟩

theorem Indistinguishable.append {s s' : PoolLoop} (h : Indistinguishable s s')
    (e e' : List Effect) (hc : calledKeys e = calledKeys e') (hr : sentReplies e = sentReplies e') :
    calledKeys (s.effects ++ e) = calledKeys (s'.effects ++ e') ∧
      sentReplies (s.effects ++ e) = sentReplies (s'.effects ++ e') := by
  rw [calledKeys_append, calledKeys_append, h.calls, hc, sentReplies_append, sentReplies_append,
    h.replies, hr]
  exact ⟨rfl, rfl⟩

/-- **One turn**: the same message, answered the same but for the boot task, keeps two loops
indistinguishable. -/
theorem Indistinguishable.turn {s s' : PoolLoop} (h : Indistinguishable s s') {a a' : Answers}
    (ha : a.SameButBoot a') (m : UserWorkerMsgs) :
    Indistinguishable (s.turn a (some m)) (s'.turn a' (some m)) := by
  obtain ⟨hp, hh, hsr⟩ := ha
  cases m with
  | create o tx =>
    have hkey : (s.userWorkers o.servicePath).isSome = (s'.userWorkers o.servicePath).isSome := by
      simpa using congrArg Option.isSome (h.table o.servicePath)
    dsimp only [PoolLoop.turn]
    rw [hkey]
    split
    · obtain ⟨hc, hr⟩ := h.append [.send tx (.createUserWorkerResult o.servicePath)]
        [.send tx (.createUserWorkerResult o.servicePath)] rfl rfl
      exact ⟨h.status, h.table, hc, hr⟩
    · rcases newUserWorker_sameButBoot hp hh with ⟨e, e', he, he'⟩ | ⟨ctx, ctx', hc, hc', hrs⟩
      · rw [he, he']
        obtain ⟨hcalls, hr⟩ := h.append [.newUserWorker o (.error e)]
          [.newUserWorker o (.error e')] rfl rfl
        exact ⟨rfl, h.table, hcalls, hr⟩
      · rw [hc, hc']
        obtain ⟨hcalls, hr⟩ := h.append
          [.newUserWorker o (.ok ctx), .send tx (.createUserWorkerResult o.servicePath)]
          [.newUserWorker o (.ok ctx'), .send tx (.createUserWorkerResult o.servicePath)]
          rfl rfl
        refine ⟨h.status, fun k => ?_, hcalls, hr⟩
        by_cases hk : k = o.servicePath
        · simp [hk, hrs]
        · simpa [hk] using h.table k
  | sendRequest key req tx =>
    have hk := h.table key
    dsimp only [PoolLoop.turn]
    cases hw : s.userWorkers key with
    | none =>
      cases hw' : s'.userWorkers key with
      | none => exact ⟨rfl, h.table, h.calls, h.replies⟩
      | some w' => rw [hw, hw'] at hk; cases hk
    | some w =>
      cases hw' : s'.userWorkers key with
      | none => rw [hw, hw'] at hk; cases hk
      | some w' =>
        rw [← hsr]
        cases a.sendRequest with
        | error e =>
          obtain ⟨hc, hr⟩ := h.append [.sendRequest w req (.error e)]
            [.sendRequest w' req (.error e)] rfl rfl
          exact ⟨rfl, h.table, hc, hr⟩
        | ok res =>
          obtain ⟨hc, hr⟩ := h.append [.sendRequest w req (.ok res), .send tx (.response res)]
            [.sendRequest w' req (.ok res), .send tx (.response res)] rfl rfl
          exact ⟨h.status, h.table, hc, hr⟩

/-- **The boot outcome is invisible.**  Two runs of the user-worker loop over the same messages,
whose answers agree on the socket pair, the handshake and the transport but may differ in what
`UserWorker::new` and `worker.run` return, are indistinguishable: the same status, the same keys
bound to the same connections, the same `new_user_worker` calls and the same replies. -/
theorem boot_outcome_invisible :
    ∀ (msgs msgs' : List (UserWorkerMsgs × Answers)),
      List.Forall₂ (fun p p' => p.1 = p'.1 ∧ p.2.SameButBoot p'.2) msgs msgs' →
      Indistinguishable (PoolLoop.init.run msgs) (PoolLoop.init.run msgs') := by
  suffices h : ∀ (s s' : PoolLoop) (msgs msgs' : List (UserWorkerMsgs × Answers)),
      Indistinguishable s s' →
      List.Forall₂ (fun p p' => p.1 = p'.1 ∧ p.2.SameButBoot p'.2) msgs msgs' →
      Indistinguishable (s.run msgs) (s'.run msgs') from
    fun msgs msgs' hm => h _ _ msgs msgs' ⟨rfl, fun _ => rfl, rfl, rfl⟩ hm
  intro s s' msgs msgs' hs hm
  induction hm generalizing s s' with
  | nil => exact hs
  | @cons p p' msgs msgs' hpp _ ih =>
    obtain ⟨m, a⟩ := p
    obtain ⟨m', a'⟩ := p'
    obtain ⟨rfl, ha⟩ := hpp
    simp only [PoolLoop.run, hs.status]
    split
    · exact ih _ _ (hs.turn ha m)
    · exact hs

/-- The same two `Create`s as `bootFailsThenCreate`, with the first boot succeeding. -/
def bootOkThenCreate : List (UserWorkerMsgs × Answers) :=
  [(.create ⟨"svc"⟩ 0, ⟨⟨.ok (), .ok (), .ok (), .ok 0⟩, .ok ""⟩),
   (.create ⟨"svc"⟩ 1, ⟨⟨.ok (), .ok (), .ok (), .ok 1⟩, .ok ""⟩)]

theorem boot_outcome_invisible_failed_boot :
    List.Forall₂ (fun p p' => p.1 = p'.1 ∧ p.2.SameButBoot p'.2)
        bootFailsThenCreate bootOkThenCreate ∧
      Indistinguishable (PoolLoop.init.run bootFailsThenCreate)
        (PoolLoop.init.run bootOkThenCreate) := by
  have h : List.Forall₂ (fun p p' => p.1 = p'.1 ∧ p.2.SameButBoot p'.2)
      bootFailsThenCreate bootOkThenCreate :=
    .cons ⟨rfl, rfl, rfl, rfl⟩ (.cons ⟨rfl, rfl, rfl, rfl⟩ .nil)
  exact ⟨h, boot_outcome_invisible _ _ h⟩

end EdgeRuntime.Pool
