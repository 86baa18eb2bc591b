import NexusServer.Basic

/-!
# The statement dispatcher

`NexusBackend::handle_query` and the two functions it calls, `get_peer_executor` (the executor
cache) and `execute_statement` (which runs a statement and translates its output), with the
simple-flow `SimpleQueryHandler::do_query` on top. The external collaborators (the query parser,
the catalog, the executors' constructors, the executors and the response translators) answer
through an `Env`; a run of a session may give every request its own answers.

Each function has a state lemma and an outcome lemma, so that later files reason about a
dispatch without unfolding it: `executeStatement_state` says that only the cursor table changes,
`getPeerExecutor_cases` lists the three things a resolve can do, and `handleQuery_err` says what a
failing dispatch leaves behind.
-/

namespace Nexus

/-- The answers of the external collaborators during one request. -/
structure Env where
  /-- `NexusQueryParser::parse_simple_sql`. -/
  parseSimpleSql : String → Except PgWireError NexusParsedStatement
  /-- `Catalog::create_peer`, with the text of its error. -/
  createPeer : Peer → Except String Unit
  /-- `BigQueryQueryExecutor::new` on a BigQuery config. -/
  newBigQuery : String → Except String Unit
  /-- `PostgresQueryExecutor::new` on the peer's name and a Postgres config. -/
  newPostgres : Option String → String → Except String Unit
  /-- `QueryExecutor::execute`. -/
  execute : Executor → Stmt → Except PgWireError QueryOutput
  /-- `QueryExecutor::describe`. -/
  describe : Executor → Stmt → Except PgWireError (Option Schema)
  /-- `peer_cursor::util::sendable_stream_to_query_response`. -/
  sendableStreamToQueryResponse : Schema → RecordStream → Except PgWireError Response
  /-- `peer_cursor::util::records_to_query_response`. -/
  recordsToQueryResponse : Records → Except PgWireError Response

variable (env : Env)

/-! ## The executor cache -/

/-- The construction step of `get_peer_executor`: the constructor for the peer's config, whose
result is unwrapped; any config other than BigQuery and Postgres panics. -/
def newExecutor (peer : Peer) : Except Panic Unit :=
  match peer.config with
  | some (.bigqueryConfig c) =>
    match env.newBigQuery c with
    | .ok () => .ok ()
    | .error e => .error (.unwrapErr e)
  | some (.postgresConfig c) =>
    match env.newPostgres (some peer.name) c with
    | .ok () => .ok ()
    | .error e => .error (.unwrapErr e)
  | _ => .error (.peerTypeNotSupported peer)

/-- `executors.insert(name, executor)` of a newly allocated executor. -/
def NexusBackend.insertExecutor (s : NexusBackend) (name : String) : NexusBackend :=
  { s with
    executors := Function.update s.executors name (some (.peer s.constructed))
    constructed := s.constructed + 1 }

/-- `NexusBackend::get_peer_executor`: the cached executor of the peer's name, or else a newly
constructed one, which is inserted into the cache. -/
def getPeerExecutor (peer : Peer) : SessionM Executor := fun s =>
  match s.executors peer.name with
  | some executor => (.ok executor, s)
  | none =>
    match newExecutor env peer with
    | .ok () => (.ok (.peer s.constructed), s.insertExecutor peer.name)
    | .error p => (.panic p, s)

/-! ## Running a statement -/

/-- What `execute_statement` does to the cursor table once the executor has answered: `Created`
registers the cursor under `peer_holder`, `Closed` removes each name. -/
def cursorUpdate (t : PeerCursors) (peerHolder : Option Peer) :
    Except PgWireError QueryOutput → PeerCursors
  | .ok (.cursor (.created c)) =>
    match peerHolder with
    | some peer => t.addCursor c peer
    | none => t
  | .ok (.cursor (.closed cs)) => cs.foldl PeerCursors.removeCursor t
  | _ => t

/-- `NexusBackend::execute_statement`: run the statement on the executor and translate its output;
a cursor modification updates the cursor table and `Created` unwraps `peer_holder`. -/
def executeStatement (executor : Executor) (stmt : Stmt) (peerHolder : Option Peer) :
    SessionM (List Response) := fun s =>
  match env.execute executor stmt with
  | .error e => (.err e, s)
  | .ok (.affectedRows rows) => (.ok [.execution (Tag.newForExecution "OK" (some rows))], s)
  | .ok (.stream rows) =>
    match env.sendableStreamToQueryResponse rows.schema rows with
    | .error e => (.err e, s)
    | .ok res => (.ok [res], s)
  | .ok (.records records) =>
    match env.recordsToQueryResponse records with
    | .error e => (.err e, s)
    | .ok res => (.ok [res], s)
  | .ok (.cursor (.created cursorName)) =>
    match peerHolder with
    | none => (.panic .unwrapNone, s)
    | some peer =>
      (.ok [.execution (Tag.newForExecution "DECLARE CURSOR" none)],
        { s with peerCursors := s.peerCursors.addCursor cursorName peer })
  | .ok (.cursor (.closed cursors)) =>
    (.ok [.execution (Tag.newForExecution "CLOSE CURSOR" none)],
      { s with peerCursors := cursors.foldl PeerCursors.removeCursor s.peerCursors })

/-! ## The dispatcher -/

/-- The lookup of a cursor statement's cursor in the cursor table; `CloseAll` is `todo!`. -/
def cursorPeer : CursorEvent → SessionM (Option Peer)
  | .fetch c _ => fun s => (.ok (s.peerCursors.getPeer c), s)
  | .closeAll => fun s => (.panic (.todo "close all cursors"), s)
  | .close c => fun s => (.ok (s.peerCursors.getPeer c), s)

/-- The executor of a cursor statement: the one of the cursor's owning peer, or else the catalog's
built-in executor. -/
def cursorExecutor : Option Peer → SessionM Executor
  | none => pure .catalog
  | some peer => getPeerExecutor env peer

/-- `NexusBackend::handle_query`. -/
def handleQuery : NexusStatement → SessionM (List Response)
  | .peerDDL (.createPeer peer _) => fun s =>
    match env.createPeer peer with
    | .error e => (.err (internalError e), s)
    | .ok () => (.ok [.execution (Tag.newForExecution "OK" none)], s)
  | .peerQuery stmt (.peer peer) => do
    let executor ← getPeerExecutor env peer
    executeStatement env executor stmt (some peer)
  | .peerQuery stmt .catalog => executeStatement env .catalog stmt none
  | .peerCursor stmt cursor => do
    let peer ← cursorPeer cursor
    let executor ← cursorExecutor env peer
    executeStatement env executor stmt none

/-- `SimpleQueryHandler::do_query`: parse the text and dispatch the statement. -/
def SimpleQueryHandler.doQuery (sql : String) : SessionM (List Response) := do
  let parsed ← SessionM.lift (Outcome.ofExcept (env.parseSimpleSql sql))
  handleQuery env parsed.statement

/-- The peer whose executor a statement runs on: the associated peer of a query, or the owning
peer that the cursor table records for a cursor statement's cursor. -/
def routedPeer (s : NexusBackend) : NexusStatement → Option Peer
  | .peerQuery _ (.peer peer) => some peer
  | .peerCursor _ (.fetch c _) => s.peerCursors.getPeer c
  | .peerCursor _ (.close c) => s.peerCursors.getPeer c
  | _ => none

/-- Collaborators that accept every call: the parser classifies every text as a catalog query,
every constructor succeeds, and every statement affects no rows and describes no schema. -/
def Env.accepting : Env where
  parseSimpleSql sql := .ok ⟨.peerQuery ⟨sql⟩ .catalog, sql⟩
  createPeer _ := .ok ()
  newBigQuery _ := .ok ()
  newPostgres _ _ := .ok ()
  execute _ _ := .ok (.affectedRows 0)
  describe _ _ := .ok none
  sendableStreamToQueryResponse schema rows := .ok (.query schema rows.rows)
  recordsToQueryResponse records := .ok (.query records.schema records.rows)

/-! ## Spec lemmas -/

variable {env}

@[simp] lemma NexusBackend.insertExecutor_peerCursors (s : NexusBackend) (name : String) :
    (s.insertExecutor name).peerCursors = s.peerCursors := rfl

/-- What a resolve can do: return the cached executor, construct a new one and insert it under a
name that had none, or panic in the construction. -/
lemma getPeerExecutor_cases {peer : Peer} {s s' : NexusBackend} {o : Outcome Executor}
    (h : getPeerExecutor env peer s = (o, s')) :
    (∃ e, s.executors peer.name = some e ∧ o = .ok e ∧ s' = s) ∨
    (s.executors peer.name = none ∧ newExecutor env peer = .ok () ∧
      o = .ok (.peer s.constructed) ∧ s' = s.insertExecutor peer.name) ∨
    (∃ p, s.executors peer.name = none ∧ newExecutor env peer = .error p ∧
      o = .panic p ∧ s' = s) := by
  simp only [getPeerExecutor] at h
  cases hc : s.executors peer.name with
  | some e =>
    simp only [hc, Prod.mk.injEq] at h
    exact .inl ⟨e, rfl, h.1.symm, h.2.symm⟩
  | none =>
    cases hn : newExecutor env peer with
    | ok u =>
      simp only [hc, hn, Prod.mk.injEq] at h
      exact .inr (.inl ⟨rfl, rfl, h.1.symm, h.2.symm⟩)
    | error p =>
      simp only [hc, hn, Prod.mk.injEq] at h
      exact .inr (.inr ⟨p, rfl, rfl, h.1.symm, h.2.symm⟩)

/-- `execute_statement` changes the cursor table only, as `cursorUpdate` says. -/
lemma executeStatement_state (executor : Executor) (stmt : Stmt) (peerHolder : Option Peer)
    (s : NexusBackend) :
    (executeStatement env executor stmt peerHolder s).2 =
      { s with peerCursors := cursorUpdate s.peerCursors peerHolder (env.execute executor stmt) } := by
  unfold executeStatement
  split <;> rename_i h <;> simp only [h, cursorUpdate]
  all_goals first | rfl | split <;> rfl

/-- `execute_statement` answers with exactly one response whenever it answers. -/
lemma executeStatement_ok_singleton {executor : Executor} {stmt : Stmt} {peerHolder : Option Peer}
    {s s' : NexusBackend} {rs : List Response}
    (h : executeStatement env executor stmt peerHolder s = (.ok rs, s')) : ∃ r, rs = [r] := by
  unfold executeStatement at h
  split at h <;> (try split at h) <;> cases h <;> exact ⟨_, rfl⟩

/-- A dispatch answers with exactly one response whenever it answers. -/
lemma handleQuery_ok_singleton {stmt : NexusStatement} {s s' : NexusBackend} {rs : List Response}
    (h : handleQuery env stmt s = (.ok rs, s')) : ∃ r, rs = [r] := by
  match stmt with
  | .peerDDL (.createPeer peer _) =>
    simp only [handleQuery] at h
    split at h <;> cases h
    exact ⟨_, rfl⟩
  | .peerQuery q (.peer peer) =>
    obtain ⟨_, _, -, h⟩ := SessionM.bind_eq_ok h
    exact executeStatement_ok_singleton h
  | .peerQuery q .catalog =>
    exact executeStatement_ok_singleton (show executeStatement env .catalog q none s = _ from h)
  | .peerCursor q ev =>
    obtain ⟨_, _, -, h⟩ := SessionM.bind_eq_ok h
    obtain ⟨_, _, -, h⟩ := SessionM.bind_eq_ok h
    exact executeStatement_ok_singleton h

/-- The simple flow answers with exactly one response whenever it answers. -/
lemma SimpleQueryHandler.doQuery_ok_singleton {sql : String} {s s' : NexusBackend}
    {rs : List Response} (h : SimpleQueryHandler.doQuery env sql s = (.ok rs, s')) :
    ∃ r, rs = [r] := by
  obtain ⟨_, _, -, h⟩ := SessionM.bind_eq_ok h
  exact handleQuery_ok_singleton h

/-- A failing `execute_statement` leaves the state as it was. -/
lemma executeStatement_err {executor : Executor} {stmt : Stmt} {peerHolder : Option Peer}
    {s s' : NexusBackend} {e : PgWireError}
    (h : executeStatement env executor stmt peerHolder s = (.err e, s')) : s' = s := by
  unfold executeStatement at h
  split at h <;> first | (cases h <;> rfl) | (split at h <;> cases h <;> rfl)

/-- A resolve followed by a step that fails only with the state it was given fails with the state
that the resolve left: the old one, or the one with the new executor inserted. -/
lemma getPeerExecutor_bind_err {α : Type} {peer : Peer} {f : Executor → SessionM α}
    {s s' : NexusBackend} {e : PgWireError} (hf : ∀ x t t', f x t = (.err e, t') → t' = t)
    (h : (getPeerExecutor env peer >>= f) s = (.err e, s')) :
    s' = s ∨ (s.executors peer.name = none ∧ newExecutor env peer = .ok () ∧
      s' = s.insertExecutor peer.name) := by
  rw [SessionM.bind_apply] at h
  rcases hg : getPeerExecutor env peer s with ⟨o, s₁⟩
  rw [hg] at h
  rcases getPeerExecutor_cases hg with ⟨x, -, rfl, rfl⟩ | ⟨hn, hc, rfl, rfl⟩ | ⟨p, -, -, rfl, rfl⟩
  · exact .inl (hf _ _ _ h)
  · exact .inr ⟨hn, hc, hf _ _ _ h⟩
  · cases h

/-- The executor of a cursor statement whose cursor the table maps to `peer?`, then the
statement: a failure leaves the state of `getPeerExecutor_bind_err`. -/
lemma cursorExecutor_bind_err {stmt : Stmt} {peer? : Option Peer} {s s' : NexusBackend}
    {e : PgWireError}
    (h : (cursorExecutor env peer? >>= fun x => executeStatement env x stmt none) s =
      (.err e, s')) :
    s' = s ∨ ∃ peer, peer? = some peer ∧ s.executors peer.name = none ∧
      newExecutor env peer = .ok () ∧ s' = s.insertExecutor peer.name := by
  cases peer? with
  | none => exact .inl (executeStatement_err
      (show executeStatement env .catalog stmt none s = (.err e, s') from h))
  | some peer =>
    rcases getPeerExecutor_bind_err (fun _ _ _ => executeStatement_err) h with h | ⟨hn, hc, rfl⟩
    · exact .inl h
    · exact .inr ⟨peer, rfl, hn, hc, rfl⟩

/-- A failing dispatch leaves the state as it was, except that a resolve may have inserted the
newly constructed executor of the routed peer under a name that had none. -/
lemma handleQuery_err {stmt : NexusStatement} {s s' : NexusBackend} {e : PgWireError}
    (h : handleQuery env stmt s = (.err e, s')) :
    s' = s ∨ ∃ peer, routedPeer s stmt = some peer ∧ s.executors peer.name = none ∧
      newExecutor env peer = .ok () ∧ s' = s.insertExecutor peer.name := by
  match stmt with
  | .peerDDL (.createPeer peer _) =>
    simp only [handleQuery] at h
    split at h <;> cases h
    exact .inl rfl
  | .peerQuery q (.peer peer) =>
    rcases getPeerExecutor_bind_err (fun _ _ _ => executeStatement_err) h with h | ⟨hn, hc, rfl⟩
    · exact .inl h
    · exact .inr ⟨peer, rfl, hn, hc, rfl⟩
  | .peerQuery q .catalog =>
    exact .inl (executeStatement_err
      (show executeStatement env .catalog q none s = (.err e, s') from h))
  | .peerCursor q (.fetch c _) =>
    exact cursorExecutor_bind_err (show (cursorExecutor env (s.peerCursors.getPeer c) >>=
      fun x => executeStatement env x q none) s = (.err e, s') from h)
  | .peerCursor q (.close c) =>
    exact cursorExecutor_bind_err (show (cursorExecutor env (s.peerCursors.getPeer c) >>=
      fun x => executeStatement env x q none) s = (.err e, s') from h)
  | .peerCursor q .closeAll => cases h

end Nexus
