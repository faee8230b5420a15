import EdgeRuntime.Pool.WorkerPool

/-! # One worker per service path

What the user-worker loop promises its `Create` callers, read off the messages handled: every key
of a handled `Create` has had `new_user_worker` called for it exactly once, and no other key has
(`calledKeys`); the table holds exactly those keys, each bound to the context the first `Create`
with that key got (`firstCreated`); and every `Create` caller was sent its own key, in order
(`createReplies`).  `Tracks` is this invariant; each turn the loop survives keeps it
(`Tracks.turn`), so every state the loop reaches satisfies it (`tracks_run`).
-/

namespace EdgeRuntime.Pool

/-- Whether a message is a `Create` with key `k`. -/
def isCreateFor (k : String) (p : UserWorkerMsgs × Answers) : Bool :=
  match p.1 with
  | .create o _ => o.servicePath == k
  | .sendRequest .. => false

/-- The caller and key of a `Create`. -/
def createRequest? (p : UserWorkerMsgs × Answers) : Option (Nat × String) :=
  match p.1 with
  | .create o tx => some (tx, o.servicePath)
  | .sendRequest .. => none

/-- The callers and keys of the `Create` messages among `msgs`, in order. -/
def createRequests (msgs : List (UserWorkerMsgs × Answers)) : List (Nat × String) :=
  msgs.filterMap createRequest?

/-- The keys of the `Create` messages among `msgs`, in order. -/
def createKeys (msgs : List (UserWorkerMsgs × Answers)) : List String :=
  (createRequests msgs).map Prod.snd

/-- The context the first `Create` with key `k` among `msgs` got from `new_user_worker`. -/
def firstCreated (msgs : List (UserWorkerMsgs × Answers)) (k : String) : Option WorkerContext :=
  (msgs.find? (isCreateFor k)).bind fun p => (newUserWorker p.2.boot).toOption

/-- The service path of a call to `new_user_worker`. -/
def Effect.calledKey? : Effect → Option String
  | .newUserWorker o _ => some o.servicePath
  | _ => none

/-- A reply sent to a `Create` caller: the caller and the key. -/
def Effect.createReply? : Effect → Option (Nat × String)
  | .send tx (.createUserWorkerResult k) => some (tx, k)
  | _ => none

/-- The keys `new_user_worker` was called for, in order. -/
def calledKeys (effs : List Effect) : List String := effs.filterMap Effect.calledKey?

/-- The replies sent to `Create` callers, in order. -/
def createReplies (effs : List Effect) : List (Nat × String) := effs.filterMap Effect.createReply?

theorem calledKeys_append (e e' : List Effect) :
    calledKeys (e ++ e') = calledKeys e ++ calledKeys e' :=
  List.filterMap_append _ _ _

/-- **The user-worker invariant**, for the messages `msgs` handled so far. -/
structure Tracks (msgs : List (UserWorkerMsgs × Answers)) (s : PoolLoop) : Prop where
  calls : ∀ k, (calledKeys s.effects).count k = if k ∈ createKeys msgs then 1 else 0
  keys : ∀ k, (s.userWorkers k).isSome ↔ k ∈ createKeys msgs
  table : ∀ k, s.userWorkers k = firstCreated msgs k
  replies : createReplies s.effects = createRequests msgs

/-! ## The messages handled, one more at a time -/

theorem createRequests_append_create (msgs : List (UserWorkerMsgs × Answers))
    (o : UserWorkerOptions) (tx : Nat) (a : Answers) :
    createRequests (msgs ++ [(.create o tx, a)]) = createRequests msgs ++ [(tx, o.servicePath)] := by
  simp [createRequests, createRequest?]

theorem createRequests_append_sendRequest (msgs : List (UserWorkerMsgs × Answers))
    (key req : String) (tx : Nat) (a : Answers) :
    createRequests (msgs ++ [(.sendRequest key req tx, a)]) = createRequests msgs := by
  simp [createRequests, createRequest?]

theorem createKeys_append_create (msgs : List (UserWorkerMsgs × Answers))
    (o : UserWorkerOptions) (tx : Nat) (a : Answers) :
    createKeys (msgs ++ [(.create o tx, a)]) = createKeys msgs ++ [o.servicePath] := by
  simp [createKeys, createRequests_append_create]

theorem mem_createKeys_iff (msgs : List (UserWorkerMsgs × Answers)) (k : String) :
    k ∈ createKeys msgs ↔ (msgs.find? (isCreateFor k)).isSome := by
  induction msgs with
  | nil => simp [createKeys, createRequests]
  | cons p msgs ih =>
    obtain ⟨m, a⟩ := p
    cases m with
    | create o tx =>
      by_cases hk : o.servicePath = k
      · simp [createKeys, createRequests, createRequest?, isCreateFor, hk]
      · have ih' : k ∈ createKeys msgs ↔ (msgs.find? (isCreateFor k)).isSome := ih
        simp only [createKeys, createRequests] at ih'
        simp [createKeys, createRequests, createRequest?, isCreateFor, hk, ih', Ne.symm hk]
    | sendRequest key req tx =>
      simpa [createKeys, createRequests, createRequest?, isCreateFor] using ih

/-- Once a key has a `Create` among `msgs`, later messages do not change its first context. -/
theorem firstCreated_append {msgs : List (UserWorkerMsgs × Answers)} {k : String}
    (hk : k ∈ createKeys msgs) (more : List (UserWorkerMsgs × Answers)) :
    firstCreated (msgs ++ more) k = firstCreated msgs k := by
  obtain ⟨p, hp⟩ := Option.isSome_iff_exists.mp ((mem_createKeys_iff msgs k).mp hk)
  simp [firstCreated, List.find?_append, hp]

/-- The first `Create` with a key not yet seen. -/
theorem firstCreated_append_create {msgs : List (UserWorkerMsgs × Answers)}
    {o : UserWorkerOptions} (hk : o.servicePath ∉ createKeys msgs) (tx : Nat) (a : Answers) :
    firstCreated (msgs ++ [(.create o tx, a)]) o.servicePath = (newUserWorker a.boot).toOption := by
  have hnone : msgs.find? (isCreateFor o.servicePath) = none :=
    Option.not_isSome_iff_eq_none.mp (fun h => hk ((mem_createKeys_iff msgs _).mpr h))
  simp [firstCreated, List.find?_append, hnone, isCreateFor]

theorem firstCreated_append_of_not_create {msgs : List (UserWorkerMsgs × Answers)} {k : String}
    {p : UserWorkerMsgs × Answers} (hp : isCreateFor k p = false) :
    firstCreated (msgs ++ [p]) k = firstCreated msgs k := by
  cases h : msgs.find? (isCreateFor k) <;> simp [firstCreated, List.find?_append, h, hp]

/-! ## Each turn keeps the invariant -/

theorem Tracks.init : Tracks [] PoolLoop.init :=
  ⟨fun _ => rfl, fun _ => by simp [PoolLoop.init, UserWorkers.empty, createKeys, createRequests],
    fun _ => rfl, rfl⟩

/-- A `Create` for a key already in the table sends the key and changes nothing else. -/
theorem Tracks.create_present {msgs : List (UserWorkerMsgs × Answers)} {s : PoolLoop}
    (ht : Tracks msgs s) {o : UserWorkerOptions} (hk : (s.userWorkers o.servicePath).isSome)
    (tx : Nat) (a : Answers) :
    Tracks (msgs ++ [(.create o tx, a)])
      { s with effects := s.effects ++ [.send tx (.createUserWorkerResult o.servicePath)] } := by
  have hmem : o.servicePath ∈ createKeys msgs := (ht.keys _).mp hk
  have hkeys := createKeys_append_create msgs o tx a
  refine ⟨fun k => ?_, fun k => ?_, fun k => ?_, ?_⟩
  · simp only [calledKeys, List.filterMap_append, Effect.calledKey?, List.filterMap_cons,
      List.filterMap_nil, List.append_nil]
    rw [← calledKeys, ht.calls k, hkeys]
    by_cases h : k = o.servicePath
    · subst h; simp [hmem]
    · simp [h]
  · rw [ht.keys k, hkeys]
    by_cases h : k = o.servicePath
    · subst h; simp [hmem]
    · simp [h]
  · by_cases h : k = o.servicePath
    · subst h; rw [ht.table, firstCreated_append hmem]
    · rw [ht.table, firstCreated_append_of_not_create (by simp [isCreateFor, Ne.symm h])]
  · simp [createReplies, Effect.createReply?, createRequests_append_create, ← ht.replies]

/-- A `Create` for a new key inserts the context `new_user_worker` returned and sends the key. -/
theorem Tracks.create_absent {msgs : List (UserWorkerMsgs × Answers)} {s : PoolLoop}
    (ht : Tracks msgs s) {o : UserWorkerOptions} (hk : s.userWorkers o.servicePath = none)
    (tx : Nat) {a : Answers} {ctx : WorkerContext} (hctx : newUserWorker a.boot = .ok ctx) :
    Tracks (msgs ++ [(.create o tx, a)])
      { s with userWorkers := s.userWorkers.insert o.servicePath ctx,
               effects := s.effects ++ [.newUserWorker o (.ok ctx),
                 .send tx (.createUserWorkerResult o.servicePath)] } := by
  have hnot : o.servicePath ∉ createKeys msgs := fun h => by simpa [hk] using (ht.keys _).mpr h
  have hkeys := createKeys_append_create msgs o tx a
  refine ⟨fun k => ?_, fun k => ?_, fun k => ?_, ?_⟩
  · simp only [calledKeys, List.filterMap_append, Effect.calledKey?, List.filterMap_cons,
      List.filterMap_nil, List.count_append]
    rw [← calledKeys, ht.calls k, hkeys]
    by_cases h : k = o.servicePath
    · subst h; simp [hnot]
    · simp [h, Ne.symm h]
  · rw [hkeys]
    by_cases h : k = o.servicePath
    · subst h; simp
    · simp [h, ht.keys k]
  · by_cases h : k = o.servicePath
    · subst h; rw [firstCreated_append_create hnot, hctx]; simp [Except.toOption]
    · simp only [UserWorkers.insert_apply, if_neg h]
      rw [ht.table, firstCreated_append_of_not_create (by simp [isCreateFor, Ne.symm h])]
  · simp [createReplies, Effect.createReply?, createRequests_append_create, ← ht.replies]

/-- A `SendRequest` sends the response and leaves the table alone. -/
theorem Tracks.sendRequest {msgs : List (UserWorkerMsgs × Answers)} {s : PoolLoop}
    (ht : Tracks msgs s) (key req : String) (tx : Nat) (a : Answers) (worker : WorkerContext)
    (res : String) :
    Tracks (msgs ++ [(.sendRequest key req tx, a)])
      { s with effects := s.effects ++ [.sendRequest worker req (.ok res),
          .send tx (.response res)] } := by
  have hkeys : createKeys (msgs ++ [(.sendRequest key req tx, a)]) = createKeys msgs := by
    rw [createKeys, createRequests_append_sendRequest, createKeys]
  refine ⟨fun k => ?_, fun k => ?_, fun k => ?_, ?_⟩
  · simpa [calledKeys, Effect.calledKey?, hkeys] using ht.calls k
  · rw [hkeys]; exact ht.keys k
  · rw [ht.table, firstCreated_append_of_not_create (by rfl)]
  · simp [createReplies, Effect.createReply?, createRequests_append_sendRequest, ← ht.replies]

/-- **Each turn the loop survives keeps the invariant.** -/
theorem Tracks.turn {msgs : List (UserWorkerMsgs × Answers)} {s : PoolLoop} (ht : Tracks msgs s)
    {m : UserWorkerMsgs} {a : Answers} (h : (s.turn a (some m)).status = .running) :
    Tracks (msgs ++ [(m, a)]) (s.turn a (some m)) := by
  cases m with
  | create o tx =>
    rcases PoolLoop.turn_create_of_running h with ⟨hk, he⟩ | ⟨hk, ctx, hctx, he⟩
    · rw [he]; exact ht.create_present hk tx a
    · rw [he]; exact ht.create_absent hk tx hctx
  | sendRequest key req tx =>
    obtain ⟨worker, res, -, -, he⟩ := PoolLoop.turn_sendRequest_of_running h
    rw [he]; exact ht.sendRequest key req tx a worker res

/-- Every state the loop reaches satisfies the invariant. -/
theorem tracks_run (msgs : List (UserWorkerMsgs × Answers))
    (h : (PoolLoop.init.run msgs).status = .running) : Tracks msgs (PoolLoop.init.run msgs) := by
  induction msgs using List.reverseRecOn with
  | nil => exact Tracks.init
  | append_singleton msgs p ih =>
    obtain ⟨m, a⟩ := p
    have hprev := PoolLoop.running_of_append h
    rw [PoolLoop.run_append_singleton, if_pos hprev] at h ⊢
    exact (ih hprev).turn h

/-- **Idempotent create.**  In every state the user-worker loop reaches, `new_user_worker` has
been called exactly once for each key of a handled `Create` and for no other key; the table
holds exactly those keys, each bound to the context the first `Create` with that key got, and
later messages never replace or remove that binding; and every `Create` caller was sent its own
key. -/
theorem create_boots_once (msgs : List (UserWorkerMsgs × Answers))
    (h : (PoolLoop.init.run msgs).status = .running) :
    (∀ k, (calledKeys (PoolLoop.init.run msgs).effects).count k =
      if k ∈ createKeys msgs then 1 else 0) ∧
    (∀ k, ((PoolLoop.init.run msgs).userWorkers k).isSome ↔ k ∈ createKeys msgs) ∧
    (∀ k, (PoolLoop.init.run msgs).userWorkers k = firstCreated msgs k) ∧
    (∀ more, (PoolLoop.init.run (msgs ++ more)).status = .running → ∀ k ctx,
      (PoolLoop.init.run msgs).userWorkers k = some ctx →
        (PoolLoop.init.run (msgs ++ more)).userWorkers k = some ctx) ∧
    createReplies (PoolLoop.init.run msgs).effects = createRequests msgs := by
  have ht := tracks_run msgs h
  refine ⟨ht.calls, ht.keys, ht.table, fun more hmore k ctx hk => ?_, ht.replies⟩
  have hmem : k ∈ createKeys msgs := (ht.keys k).mp (by simp [hk])
  rw [(tracks_run _ hmore).table, firstCreated_append hmem, ← ht.table, hk]

/-- Two `Create`s for one service path. -/
def twoCreates : List (UserWorkerMsgs × Answers) :=
  [(.create ⟨"svc"⟩ 0, ⟨⟨.ok (), .ok (), .ok (), .ok 7⟩, .ok ""⟩),
   (.create ⟨"svc"⟩ 1, ⟨⟨.ok (), .ok (), .ok (), .ok 8⟩, .ok ""⟩)]

theorem create_boots_once_twice :
    (PoolLoop.init.run twoCreates).status = .running ∧
    (∀ k, (calledKeys (PoolLoop.init.run twoCreates).effects).count k =
      if k ∈ createKeys twoCreates then 1 else 0) ∧
    (∀ k, ((PoolLoop.init.run twoCreates).userWorkers k).isSome ↔ k ∈ createKeys twoCreates) ∧
    (∀ k, (PoolLoop.init.run twoCreates).userWorkers k = firstCreated twoCreates k) ∧
    (∀ more, (PoolLoop.init.run (twoCreates ++ more)).status = .running → ∀ k ctx,
      (PoolLoop.init.run twoCreates).userWorkers k = some ctx →
        (PoolLoop.init.run (twoCreates ++ more)).userWorkers k = some ctx) ∧
    createReplies (PoolLoop.init.run twoCreates).effects = createRequests twoCreates :=
  ⟨rfl, create_boots_once twoCreates rfl⟩

/-- A `Create` whose boot task fails in `UserWorker::new`, then a second `Create` for the same
path. -/
def bootFailsThenCreate : List (UserWorkerMsgs × Answers) :=
  [(.create ⟨"svc"⟩ 0, ⟨⟨.ok (), .error "module not found", .ok (), .ok 0⟩, .ok ""⟩),
   (.create ⟨"svc"⟩ 1, ⟨⟨.ok (), .ok (), .ok (), .ok 1⟩, .ok ""⟩)]

/-- **A worker whose boot fails is kept.**  `UserWorker::new` fails in the spawned boot task, but
`new_user_worker` has already returned: the key is inserted with the failed task's handle and its
caller is sent the key, and a second `Create` for the same path is sent the key without a fresh
boot. -/
theorem failed_boot_is_kept :
    (PoolLoop.init.run bootFailsThenCreate).status = .running ∧
      ((PoolLoop.init.run bootFailsThenCreate).userWorkers "svc").map (·.handle.isOk) =
        some false ∧
      createReplies (PoolLoop.init.run bootFailsThenCreate).effects = [(0, "svc"), (1, "svc")] ∧
      calledKeys (PoolLoop.init.run bootFailsThenCreate).effects = ["svc"] :=
  ⟨rfl, rfl, rfl, rfl⟩

end EdgeRuntime.Pool
