import NexusServer.Describe

/-!
# Failure isolation and abort sites

`failed_request_keeps_state`: a request that fails, in either flow, leaves the cursor table as it
was, and leaves the executor cache as it was except for at most one new entry, under the name of
the peer the request was routed to, holding an executor whose construction succeeded. Every `?`
of the dispatcher comes before the one place that changes the cursor table, and the only change to
the cache before a failure is the insertion of `get_peer_executor`.

`dispatcher_abort_sites`: the places where `handle_query` and `do_describe` panic instead of
returning an error. `get_peer_executor` panics on an uncached peer whose config is not BigQuery
or Postgres (`panic!`) or whose constructor fails (`unwrap`); `handle_query` also panics on
`CloseAll` and on a `Created` output when there is no peer to record; `do_describe` panics exactly
on a query associated with a peer that is not BigQuery.

The `unwrap` of a failed construction is not what the rest of the file does with the same
failure: `do_describe` maps the error of `BigQueryQueryExecutor::new` to an `internal_error`
response for that request alone, while `handle_query` aborts the connection's task on it
(`construction_failure_aborts_dispatch`).
-/

namespace Nexus

variable (env : Env) (dec : FromSql)

/-- What a failing request may leave behind, given the text it handed the parser: the same cursor
table, and the same executor cache or the cache with one entry added, under the name of the peer
the parsed statement was routed to, for an executor whose construction succeeded. -/
def FailureFootprint (s s' : NexusBackend) (text : Outcome String) : Prop :=
  s'.peerCursors = s.peerCursors ∧
    (s'.executors = s.executors ∨
      ∃ sql parsed peer, text = .ok sql ∧ env.parseSimpleSql sql = .ok parsed ∧
        routedPeer s parsed.statement = some peer ∧ s.executors peer.name = none ∧
        newExecutor env peer = .ok () ∧
        s'.executors = Function.update s.executors peer.name (some (.peer s.constructed)))

/-- Where a dispatch panics: in the construction of the routed peer's executor, on `CloseAll`, or
on a `Created` output of a statement that has no peer to record it under. -/
def PanicSite (s : NexusBackend) (stmt : NexusStatement) (p : Panic) : Prop :=
  (∃ peer, routedPeer s stmt = some peer ∧ s.executors peer.name = none ∧
    newExecutor env peer = .error p) ∨
  (∃ q, stmt = .peerCursor q .closeAll ∧ p = .todo "close all cursors") ∨
  (p = .unwrapNone ∧ ∃ q x c, (stmt = .peerQuery q .catalog ∨ ∃ ev, stmt = .peerCursor q ev) ∧
    env.execute x q = .ok (.cursor (.created c)))

/-- Where Describe panics: on a query associated with a peer that is not BigQuery. -/
def DescribePanicSite : NexusStatement → Panic → Prop
  | .peerQuery _ (.peer peer), p =>
    (∀ c, peer.config ≠ some (.bigqueryConfig c)) ∧ p = .peerTypeNotSupported peer
  | _, _ => False

/-- Why the construction of a peer's executor panics: an unsupported config, or a constructor
that fails. -/
def ConstructionFailure (peer : Peer) (p : Panic) : Prop :=
  ((peer.config = none ∨ ∃ kind c, peer.config = some (.other kind c)) ∧
    p = .peerTypeNotSupported peer) ∨
  (∃ c e, peer.config = some (.bigqueryConfig c) ∧ env.newBigQuery c = .error e ∧
    p = .unwrapErr e) ∨
  (∃ c e, peer.config = some (.postgresConfig c) ∧ env.newPostgres (some peer.name) c = .error e ∧
    p = .unwrapErr e)

variable {env dec}

/-! ## Failing requests -/

/-- A failing simple-flow request: a parse error leaves the state, a failing dispatch leaves what
`handleQuery_err` says. -/
lemma simpleDoQuery_err {sql : String} {s s' : NexusBackend} {e : PgWireError}
    (h : SimpleQueryHandler.doQuery env sql s = (.err e, s')) :
    s' = s ∨ ∃ parsed peer, env.parseSimpleSql sql = .ok parsed ∧
      routedPeer s parsed.statement = some peer ∧ s.executors peer.name = none ∧
      newExecutor env peer = .ok () ∧ s' = s.insertExecutor peer.name := by
  unfold SimpleQueryHandler.doQuery at h
  cases hp : env.parseSimpleSql sql with
  | error e' =>
    simp only [hp, Outcome.ofExcept, SessionM.lift_err_bind, SessionM.lift_apply,
      Prod.mk.injEq] at h
    exact .inl h.2.symm
  | ok parsed =>
    simp only [hp, Outcome.ofExcept, SessionM.lift_ok_bind] at h
    rcases handleQuery_err h with h | ⟨peer, hr, hn, hc, rfl⟩
    · exact .inl h
    · exact .inr ⟨parsed, peer, rfl, hr, hn, hc, rfl⟩

lemma failureFootprint_of_simple {sql : String} {s s' : NexusBackend} {e : PgWireError}
    (h : SimpleQueryHandler.doQuery env sql s = (.err e, s')) :
    FailureFootprint env s s' (.ok sql) := by
  rcases simpleDoQuery_err h with rfl | ⟨parsed, peer, hp, hr, hn, hc, rfl⟩
  · exact ⟨rfl, .inl rfl⟩
  · exact ⟨rfl, .inr ⟨sql, parsed, peer, rfl, hp, hr, hn, hc, rfl⟩⟩

/-- Answering with a function of the result fails exactly when the operation does. -/
lemma bind_pure_err {α β : Type} {m : SessionM α} {g : α → β} {s s' : NexusBackend}
    {e : PgWireError} (h : (m >>= fun a => pure (g a)) s = (.err e, s')) : m s = (.err e, s') := by
  rw [SessionM.bind_apply] at h
  rcases hm : m s with ⟨o, t⟩
  rw [hm] at h
  cases o <;> cases h
  rfl

variable (env dec) in
/-- A request that fails, in either flow, keeps the cursor table, and keeps the executor cache
but for one new entry under the routed peer's name, for an executor whose construction
succeeded. -/
theorem failed_request_keeps_state (s s' : NexusBackend) (e : PgWireError) :
    (∀ sql, SimpleQueryHandler.doQuery env sql s = (.err e, s') →
      FailureFootprint env s s' (.ok sql)) ∧
    (∀ portal, ExtendedQueryHandler.doQuery env dec portal s = (.err e, s') →
      FailureFootprint env s s' (substituteParameters dec portal)) := by
  refine ⟨fun sql h => failureFootprint_of_simple h, fun portal h => ?_⟩
  rw [doQuery_eq_simple] at h
  cases hsub : substituteParameters dec portal with
  | ok sql =>
    rw [hsub] at h
    exact failureFootprint_of_simple (bind_pure_err h)
  | err e' =>
    rw [hsub] at h
    cases h
    exact ⟨rfl, .inl rfl⟩
  | panic p =>
    rw [hsub] at h
    cases h

/-! ## Abort sites -/

/-- `execute_statement` panics only on a `Created` output with no peer to record. -/
lemma executeStatement_panic {executor : Executor} {stmt : Stmt} {peerHolder : Option Peer}
    {s : NexusBackend} {p : Panic}
    (h : (executeStatement env executor stmt peerHolder s).1 = .panic p) :
    p = .unwrapNone ∧ peerHolder = none ∧
      ∃ c, env.execute executor stmt = .ok (.cursor (.created c)) := by
  unfold executeStatement at h
  split at h
  · cases h
  · cases h
  · split at h <;> cases h
  · split at h <;> cases h
  · next c hc =>
    cases peerHolder with
    | none => cases h; exact ⟨rfl, rfl, c, hc⟩
    | some peer => cases h
  · cases h

/-- A resolve followed by a step panics in the construction or in the step. -/
lemma getPeerExecutor_bind_panic {α : Type} {peer : Peer} {f : Executor → SessionM α}
    {s : NexusBackend} {p : Panic} (h : ((getPeerExecutor env peer >>= f) s).1 = .panic p) :
    (s.executors peer.name = none ∧ newExecutor env peer = .error p) ∨
      ∃ x t, (f x t).1 = .panic p := by
  rw [SessionM.bind_apply] at h
  rcases hg : getPeerExecutor env peer s with ⟨o, s₁⟩
  rw [hg] at h
  rcases getPeerExecutor_cases hg with ⟨x, -, rfl, rfl⟩ | ⟨-, -, rfl, rfl⟩ | ⟨q, hn, hc, rfl, rfl⟩
  · exact .inr ⟨x, _, h⟩
  · exact .inr ⟨_, _, h⟩
  · cases h
    exact .inl ⟨hn, hc⟩

/-- The executor of a cursor statement, then the statement: a panic is in the construction of the
owner's executor or on a `Created` output. -/
lemma cursorExecutor_bind_panic {stmt : Stmt} {peer? : Option Peer} {s : NexusBackend}
    {p : Panic}
    (h : ((cursorExecutor env peer? >>= fun x => executeStatement env x stmt none) s).1 =
      .panic p) :
    (∃ peer, peer? = some peer ∧ s.executors peer.name = none ∧ newExecutor env peer = .error p) ∨
      (p = .unwrapNone ∧ ∃ x c, env.execute x stmt = .ok (.cursor (.created c))) := by
  cases peer? with
  | none =>
    obtain ⟨rfl, -, c, hc⟩ := executeStatement_panic
      (show (executeStatement env .catalog stmt none s).1 = .panic p from h)
    exact .inr ⟨rfl, _, c, hc⟩
  | some peer =>
    rcases getPeerExecutor_bind_panic h with ⟨hn, hc⟩ | ⟨x, t, hx⟩
    · exact .inl ⟨peer, rfl, hn, hc⟩
    · obtain ⟨rfl, -, c, hc⟩ := executeStatement_panic hx
      exact .inr ⟨rfl, x, c, hc⟩

/-- Every panic of a dispatch is at one of the sites of `PanicSite`. -/
lemma handleQuery_panic_site {stmt : NexusStatement} {s : NexusBackend} {p : Panic}
    (h : (handleQuery env stmt s).1 = .panic p) : PanicSite env s stmt p := by
  match stmt with
  | .peerDDL (.createPeer peer _) =>
    simp only [handleQuery] at h
    split at h <;> cases h
  | .peerQuery q (.peer peer) =>
    rcases getPeerExecutor_bind_panic h with ⟨hn, hc⟩ | ⟨x, t, hx⟩
    · exact .inl ⟨peer, rfl, hn, hc⟩
    · cases (executeStatement_panic hx).2.1
  | .peerQuery q .catalog =>
    obtain ⟨rfl, -, c, hc⟩ := executeStatement_panic h
    exact .inr (.inr ⟨rfl, q, .catalog, c, .inl rfl, hc⟩)
  | .peerCursor q .closeAll =>
    cases (show (.panic (.todo "close all cursors") : Outcome (List Response)) = .panic p from h)
    exact .inr (.inl ⟨q, rfl, rfl⟩)
  | .peerCursor q (.fetch c _) | .peerCursor q (.close c) =>
    rcases cursorExecutor_bind_panic (show ((cursorExecutor env (s.peerCursors.getPeer c) >>=
        fun x => executeStatement env x q none) s).1 = .panic p from h) with
      ⟨peer, hp, hn, hc⟩ | ⟨rfl, x, c', hc⟩
    · exact .inl ⟨peer, hp, hn, hc⟩
    · exact .inr (.inr ⟨rfl, q, x, c', .inr ⟨_, rfl⟩, hc⟩)

/-- The construction of a peer's executor panics exactly on an unsupported config or a failing
constructor. -/
lemma newExecutor_error_iff (peer : Peer) (p : Panic) :
    newExecutor env peer = .error p ↔ ConstructionFailure env peer p := by
  unfold newExecutor ConstructionFailure
  rcases hc : peer.config with _ | c | c | ⟨kind, c⟩
  · simp [eq_comm]
  · cases h : env.newBigQuery c <;> simp [h, eq_comm]
  · cases h : env.newPostgres (some peer.name) c <;> simp [h, eq_comm]
  · simp [eq_comm]

/-- A resolve of an uncached peer whose construction fails panics and inserts nothing. -/
lemma getPeerExecutor_of_construction_failure {peer : Peer} {s : NexusBackend} {p : Panic}
    (hn : s.executors peer.name = none) (hf : ConstructionFailure env peer p) :
    getPeerExecutor env peer s = (.panic p, s) := by
  simp only [getPeerExecutor, hn, (newExecutor_error_iff peer p).mpr hf]

/-- Describe panics exactly on a query associated with a peer that is not BigQuery. -/
lemma doDescribe_panic_iff (target : StatementOrPortal) (s : NexusBackend) (p : Panic) :
    (doDescribe env target s).1 = .panic p ↔ DescribePanicSite target.parsed.statement p := by
  unfold doDescribe
  cases target.parsed.statement with
  | peerDDL | peerCursor => simp [DescribePanicSite]
  | peerQuery q assoc =>
    cases assoc with
    | catalog =>
      simp only [describeExecutor, SessionM.pure_bind, SessionM.bind_apply, SessionM.lift_apply]
      cases h : env.describe .catalog q with
      | error e => simp [h, Outcome.ofExcept, DescribePanicSite]
      | ok sc => cases sc <;> simp [h, Outcome.ofExcept, describeAnswer, DescribePanicSite]
    | peer peer =>
      simp only [SessionM.bind_apply, describeExecutor]
      rcases hc : peer.config with _ | c | c | ⟨kind, c⟩
      · simp [hc, eq_comm, DescribePanicSite]
      · cases hb : env.newBigQuery c with
        | error e => simp [hc, hb, DescribePanicSite]
        | ok u =>
          cases h : env.describe (.peer s.constructed) q with
          | error e => simp [hc, hb, h, Outcome.ofExcept, DescribePanicSite]
          | ok sc => cases sc <;> simp [hc, hb, h, Outcome.ofExcept, describeAnswer, DescribePanicSite]
      · simp [hc, eq_comm, DescribePanicSite]
      · simp [hc, eq_comm, DescribePanicSite]

variable (env) in
/-- The abort sites of the dispatcher: every panic of `handle_query` is at a `PanicSite`; the
construction of an uncached peer's executor panics, inserting nothing, exactly on an
unsupported config or a failing constructor; and `do_describe` panics exactly on a query
associated with a peer that is not BigQuery. -/
theorem dispatcher_abort_sites :
    (∀ stmt s p, (handleQuery env stmt s).1 = .panic p → PanicSite env s stmt p) ∧
    (∀ peer s p, s.executors peer.name = none →
      ((getPeerExecutor env peer s = (.panic p, s)) ↔ ConstructionFailure env peer p)) ∧
    (∀ target s p, (doDescribe env target s).1 = .panic p ↔
      DescribePanicSite target.parsed.statement p) := by
  refine ⟨fun _ _ _ => handleQuery_panic_site, fun peer s p hn => ⟨fun h => ?_,
    getPeerExecutor_of_construction_failure hn⟩, doDescribe_panic_iff⟩
  rw [← newExecutor_error_iff]
  simp only [getPeerExecutor, hn] at h
  split at h <;> simp_all

/-- A peer with no config. -/
def unconfiguredPeer : Peer := ⟨"p", none⟩

/-- Collaborators whose BigQuery constructor fails. -/
def Env.rejectingBigQuery : Env :=
  { Env.accepting with newBigQuery := fun _ => .error "invalid credentials" }

/-- A query on a BigQuery peer whose executor cannot be constructed panics on the `unwrap` of the
constructor's error, where Describe of the same statement answers `internal_error` for that
request only; and a query on a peer with no config panics on `panic!`. -/
theorem construction_failure_aborts_dispatch (q : Stmt) :
    handleQuery Env.rejectingBigQuery (.peerQuery q (.peer bigqueryPeer)) NexusBackend.new =
        (.panic (.unwrapErr "invalid credentials"), NexusBackend.new) ∧
      doDescribe Env.rejectingBigQuery (.statement ⟨⟨.peerQuery q (.peer bigqueryPeer), q.sql⟩, []⟩)
          NexusBackend.new = (.err (internalError "invalid credentials"), NexusBackend.new) ∧
      (handleQuery Env.accepting (.peerQuery q (.peer unconfiguredPeer)) NexusBackend.new).1 =
        .panic (.peerTypeNotSupported unconfiguredPeer) :=
  ⟨rfl, rfl, rfl⟩

end Nexus
