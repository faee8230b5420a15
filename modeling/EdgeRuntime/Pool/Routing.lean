import EdgeRuntime.Pool.Create

/-! # Requests reach the worker of their key

A `SendRequest(key, req, tx)` is routed by the table: the loop looks the key up, sends the request
on that worker's connection, and sends the response on `tx`.  Since a `Create` never replaces a
binding (`Pool.Create`), the worker a key finds is the one the first `Create` for that key got.
So, read off the messages handled, the loop's request traffic is fixed: for each `SendRequest`, in
order, its request on the connection of its key's first worker, then the response to its own
caller (`owedExchange`), and nothing else (`requests_reach_first_worker`).  A `SendRequest` the
loop survives was for a key created before it, and got a response; every other one panics
(`user_worker_loop_panics`).
-/

namespace EdgeRuntime.Pool

/-- The key, request, caller and transport answer of a `SendRequest`. -/
def requestOf? (p : UserWorkerMsgs × Answers) :
    Option (String × String × Nat × Except String String) :=
  match p.1 with
  | .sendRequest key req tx => some (key, req, tx, p.2.sendRequest)
  | .create .. => none

/-- The `SendRequest`s among `msgs`, in order. -/
def requestsOf (msgs : List (UserWorkerMsgs × Answers)) :
    List (String × String × Nat × Except String String) :=
  msgs.filterMap requestOf?

/-- Whether an effect belongs to a request's exchange: the request sent on a worker's
connection, or the response sent to the caller. -/
def Effect.isExchange : Effect → Bool
  | .sendRequest .. => true
  | .send _ (.response _) => true
  | _ => false

/-- The request exchanges among `effs`, in order. -/
def exchanges (effs : List Effect) : List Effect := effs.filter Effect.isExchange

/-- The exchange a `SendRequest` is owed once `msgs` have been handled: its request sent on the
connection the first `Create` for its key got, then the response sent to its caller. -/
def owedExchange (msgs : List (UserWorkerMsgs × Answers)) :
    String × String × Nat × Except String String → List Effect
  | (key, req, tx, .ok res) =>
    match firstCreated msgs key with
    | some worker => [.sendRequest worker req (.ok res), .send tx (.response res)]
    | none => []
  | (_, _, _, .error _) => []

/-- **The routing invariant**, for the messages `msgs` handled so far: each `SendRequest` among
them was for a key created before it and got a response, and the exchanges are those owed. -/
structure Routes (msgs : List (UserWorkerMsgs × Answers)) (s : PoolLoop) : Prop where
  before : ∀ i key req tx a, msgs[i]? = some (.sendRequest key req tx, a) →
    key ∈ createKeys (msgs.take i) ∧ ∃ res, a.sendRequest = .ok res
  traffic : exchanges s.effects = (requestsOf msgs).flatMap (owedExchange msgs)

/-! ## The messages handled, one more at a time -/

theorem requestsOf_append_create (msgs : List (UserWorkerMsgs × Answers))
    (o : UserWorkerOptions) (tx : Nat) (a : Answers) :
    requestsOf (msgs ++ [(.create o tx, a)]) = requestsOf msgs := by
  simp [requestsOf, requestOf?]

theorem requestsOf_append_sendRequest (msgs : List (UserWorkerMsgs × Answers))
    (key req : String) (tx : Nat) (a : Answers) :
    requestsOf (msgs ++ [(.sendRequest key req tx, a)]) =
      requestsOf msgs ++ [(key, req, tx, a.sendRequest)] := by
  simp [requestsOf, requestOf?]

/-- A key created in a prefix is created. -/
theorem mem_createKeys_of_take {msgs : List (UserWorkerMsgs × Answers)} {i : Nat} {k : String}
    (h : k ∈ createKeys (msgs.take i)) : k ∈ createKeys msgs := by
  rw [← List.take_append_drop i msgs, createKeys, createRequests, List.filterMap_append,
    List.map_append]
  exact List.mem_append_left _ h

/-- Position `i` of a list with one more element: an old position, or the new one. -/
theorem getElem?_append_singleton_cases {α : Type} {l : List α} {p x : α} {i : Nat}
    (h : (l ++ [p])[i]? = some x) :
    (l[i]? = some x ∧ (l ++ [p]).take i = l.take i) ∨ (x = p ∧ (l ++ [p]).take i = l) := by
  rcases Nat.lt_or_ge i l.length with hi | hi
  · rw [List.getElem?_append_left hi] at h
    exact .inl ⟨h, List.take_append_of_le_length hi.le⟩
  · rcases Nat.lt_or_ge i (l.length + 1) with hi' | hi'
    · obtain rfl : i = l.length := by omega
      simp only [List.getElem?_concat_length, Option.some.injEq] at h
      exact .inr ⟨h.symm, List.take_left' rfl⟩
    · rw [List.getElem?_eq_none (by simp; omega)] at h
      cases h

/-- Every `SendRequest` handled was for a key created by then. -/
theorem Routes.keys {msgs : List (UserWorkerMsgs × Answers)} {s : PoolLoop} (hr : Routes msgs s) :
    ∀ x ∈ requestsOf msgs, x.1 ∈ createKeys msgs := by
  intro x hx
  obtain ⟨⟨m, a⟩, hp, hx⟩ := List.mem_filterMap.mp hx
  obtain ⟨i, hi⟩ := List.mem_iff_getElem?.mp hp
  cases m with
  | create o tx => cases hx
  | sendRequest key req tx =>
    cases hx
    exact mem_createKeys_of_take (hr.before i key req tx a hi).1

/-- Later messages do not change what the `SendRequest`s handled are owed. -/
theorem owed_append {msgs : List (UserWorkerMsgs × Answers)}
    (hk : ∀ x ∈ requestsOf msgs, x.1 ∈ createKeys msgs) (more : List (UserWorkerMsgs × Answers)) :
    (requestsOf msgs).flatMap (owedExchange (msgs ++ more)) =
      (requestsOf msgs).flatMap (owedExchange msgs) := by
  simp only [List.flatMap]
  congr 1
  refine List.map_congr_left fun x hx => ?_
  obtain ⟨key, req, tx, r⟩ := x
  cases r <;> simp [owedExchange, firstCreated_append (hk _ hx)]

/-! ## Each turn keeps the invariant -/

theorem Routes.init : Routes [] PoolLoop.init :=
  ⟨fun _ _ _ _ _ h => by simp at h, rfl⟩

/-- **Each turn the loop survives keeps the routing invariant**: a `Create` adds no exchange, a
`SendRequest` adds the one it is owed. -/
theorem Routes.turn {msgs : List (UserWorkerMsgs × Answers)} {s : PoolLoop} (hr : Routes msgs s)
    (ht : Tracks msgs s) {m : UserWorkerMsgs} {a : Answers}
    (h : (s.turn a (some m)).status = .running) :
    Routes (msgs ++ [(m, a)]) (s.turn a (some m)) := by
  cases m with
  | create o tx =>
    refine ⟨fun i key req tx' a' hi => ?_, ?_⟩
    · rcases getElem?_append_singleton_cases hi with ⟨hi, htake⟩ | ⟨hx, -⟩
      · rw [htake]; exact hr.before i key req tx' a' hi
      · cases hx
    · rw [requestsOf_append_create, owed_append hr.keys, ← hr.traffic]
      rcases PoolLoop.turn_create_of_running h with ⟨-, he⟩ | ⟨-, ctx, -, he⟩ <;>
        simp [he, exchanges, Effect.isExchange]
  | sendRequest key req tx =>
    obtain ⟨worker, res, hw, hres, he⟩ := PoolLoop.turn_sendRequest_of_running h
    have hkey : key ∈ createKeys msgs := (ht.keys key).mp (by simp [hw])
    refine ⟨fun i key' req' tx' a' hi => ?_, ?_⟩
    · rcases getElem?_append_singleton_cases hi with ⟨hi, htake⟩ | ⟨hx, htake⟩
      · rw [htake]; exact hr.before i key' req' tx' a' hi
      · cases hx
        rw [htake]; exact ⟨hkey, res, hres⟩
    · have hfirst : firstCreated (msgs ++ [(.sendRequest key req tx, a)]) key = some worker := by
        rw [firstCreated_append hkey, ← ht.table, hw]
      rw [requestsOf_append_sendRequest, List.flatMap_append, owed_append hr.keys, ← hr.traffic,
        hres, he]
      simp [exchanges, Effect.isExchange, owedExchange, hfirst]

/-- Every state the loop reaches while it runs satisfies the routing invariant. -/
theorem routes_run (msgs : List (UserWorkerMsgs × Answers))
    (h : (PoolLoop.init.run msgs).status = .running) : Routes msgs (PoolLoop.init.run msgs) := by
  induction msgs using List.reverseRecOn with
  | nil => exact Routes.init
  | append_singleton msgs p ih =>
    obtain ⟨m, a⟩ := p
    have hprev := PoolLoop.running_of_append h
    rw [PoolLoop.run_append_singleton, if_pos hprev] at h ⊢
    exact (ih hprev).turn (tracks_run msgs hprev) h

/-- **Requests reach the worker of their key.**  In every state the user-worker loop reaches
while it runs, each `SendRequest` handled was for a key that a `Create` before it had bound, and
its request got a response; and the loop's request traffic is, in order, for each `SendRequest`:
its request sent on the connection of the first `Create` for its key, then that response sent to
its own caller. -/
theorem requests_reach_first_worker (msgs : List (UserWorkerMsgs × Answers))
    (h : (PoolLoop.init.run msgs).status = .running) :
    (∀ i key req tx a, msgs[i]? = some (.sendRequest key req tx, a) →
      key ∈ createKeys (msgs.take i) ∧ ∃ res, a.sendRequest = .ok res) ∧
    exchanges (PoolLoop.init.run msgs).effects = (requestsOf msgs).flatMap (owedExchange msgs) :=
  ⟨(routes_run msgs h).before, (routes_run msgs h).traffic⟩

/-- Two `Create`s for one path, whose connections are `7` and `8`, then a request for it: the
request goes out on connection `7`. -/
def createTwiceThenSend : List (UserWorkerMsgs × Answers) :=
  twoCreates ++ [(.sendRequest "svc" "GET /" 2, ⟨⟨.ok (), .ok (), .ok (), .ok 9⟩, .ok "200 OK"⟩)]

theorem requests_reach_first_worker_svc :
    (PoolLoop.init.run createTwiceThenSend).status = .running ∧
    (exchanges (PoolLoop.init.run createTwiceThenSend).effects).map
        (fun e => match e with | .sendRequest w _ _ => some w.requestSender | _ => none) =
      [some 7, none] ∧
    (∀ i key req tx a, createTwiceThenSend[i]? = some (.sendRequest key req tx, a) →
      key ∈ createKeys (createTwiceThenSend.take i) ∧ ∃ res, a.sendRequest = .ok res) ∧
    exchanges (PoolLoop.init.run createTwiceThenSend).effects =
      (requestsOf createTwiceThenSend).flatMap (owedExchange createTwiceThenSend) :=
  ⟨rfl, rfl, requests_reach_first_worker createTwiceThenSend rfl⟩

end EdgeRuntime.Pool
