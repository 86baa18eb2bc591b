import NexusServer.ExtendedQuery

/-!
# Describe

`ExtendedQueryHandler::do_describe` answers Describe without executing the statement. For a
query associated with the catalog it asks the catalog's executor for the output schema; for a
query associated with a BigQuery peer it constructs a new BigQuery executor from the peer's
config and asks it, and it panics for a peer of any other kind. Whatever the schema, it answers
no data.

Executor handles are allocated in order (`NexusBackend.constructed`), so every handle the cache
holds was allocated before (`NexusBackend.Allocated`), which `handle_query` keeps
(`handleQuery_allocated`). `describeExecutor_fresh` uses this to show that the executor Describe
consults for a BigQuery peer is never one the cache holds, in particular not the one
`handle_query` would run the statement on (`doDescribe_consults`).
-/

namespace Nexus

/-- The answer to Describe (`pgwire::api::results::DescribeResponse`): no data, or a row
description with the fields of a schema. -/
inductive DescribeResponse where
  | noData
  | rowDescription (schema : Schema)
deriving DecidableEq, Repr

/-- What Describe is asked about (`pgwire::api::query::StatementOrPortal`). -/
inductive StatementOrPortal where
  | statement (stmt : StoredStatement)
  | portal (portal : Portal)
deriving DecidableEq, Repr

/-- The parsed statement of a Describe target. -/
def StatementOrPortal.parsed : StatementOrPortal → NexusParsedStatement
  | .statement st => st.statement
  | .portal p => p.statement.statement

variable (env : Env)

/-- The executor `do_describe` asks for a query's schema: the catalog's for a catalog query, a
newly constructed BigQuery executor for a BigQuery peer, whose construction error is mapped to
`internal_error`; any other peer panics. -/
def describeExecutor : QueryAssocation → SessionM Executor
  | .peer peer => fun s =>
    match peer.config with
    | some (.bigqueryConfig c) =>
      match env.newBigQuery c with
      | .error e => (.err (internalError e), s)
      | .ok () => (.ok (.peer s.constructed), { s with constructed := s.constructed + 1 })
    | _ => (.panic (.peerTypeNotSupported peer), s)
  | .catalog => pure .catalog

/-- The answer of `do_describe` once the executor has reported the schema
(`if let Some(_schema) = schema`): no data either way. -/
def describeAnswer : Option Schema → SessionM DescribeResponse
  | some _ => pure .noData
  | none => pure .noData

/-- `ExtendedQueryHandler::do_describe`. -/
def doDescribe (target : StatementOrPortal) : SessionM DescribeResponse :=
  match target.parsed.statement with
  | .peerDDL _ => pure .noData
  | .peerCursor _ _ => pure .noData
  | .peerQuery stmt assoc => do
    let executor ← describeExecutor env assoc
    let schema ← SessionM.lift (Outcome.ofExcept (env.describe executor stmt))
    describeAnswer schema

/-- Describe consulted `executor` on `stmt` and left the state `s'`: an error of `describe` is
returned, no schema gives no data, and a schema gives some answer. -/
def Consults (o : Outcome DescribeResponse × NexusBackend) (executor : Executor) (stmt : Stmt)
    (s' : NexusBackend) : Prop :=
  (∀ e, env.describe executor stmt = .error e → o = (.err e, s')) ∧
  (env.describe executor stmt = .ok none → o = (.ok .noData, s')) ∧
  (∀ schema, env.describe executor stmt = .ok (some schema) → o.1.IsOk ∧ o.2 = s')

/-! ## Allocation of executor handles -/

/-- Every peer executor the cache holds was allocated before: its id is below the allocation
counter. -/
def NexusBackend.Allocated (s : NexusBackend) : Prop :=
  ∀ name id, s.executors name = some (.peer id) → id < s.constructed

variable {env}

lemma NexusBackend.new_allocated : NexusBackend.new.Allocated := fun _ _ h => nomatch h

lemma NexusBackend.Allocated.insertExecutor {s : NexusBackend} (hs : s.Allocated)
    (name : String) : (s.insertExecutor name).Allocated := by
  intro n id h
  simp only [NexusBackend.insertExecutor, Function.update_apply] at h ⊢
  split at h
  · cases h; omega
  · exact Nat.lt_succ_of_lt (hs n id h)

/-- The allocation counter bounds no handle that it has not yet given out. -/
lemma NexusBackend.Allocated.not_cached {s : NexusBackend} (hs : s.Allocated) (name : String) :
    s.executors name ≠ some (.peer s.constructed) :=
  fun h => Nat.lt_irrefl _ (hs name _ h)

/-- Every handle the executor cache holds is a peer executor that the allocation counter has given
out, under one name only; no name holds the catalog's executor. -/
structure NexusBackend.Distinct (s : NexusBackend) : Prop where
  allocated : s.Allocated
  not_catalog : ∀ n, s.executors n ≠ some .catalog
  unique : ∀ n n' i, s.executors n = some (.peer i) → s.executors n' = some (.peer i) → n = n'

lemma NexusBackend.distinct_new : NexusBackend.new.Distinct :=
  ⟨NexusBackend.new_allocated, fun _ h => (nomatch h), fun _ _ _ h => (nomatch h)⟩

lemma getPeerExecutor_allocated {peer : Peer} {s : NexusBackend} (hs : s.Allocated) :
    (getPeerExecutor env peer s).2.Allocated := by
  rcases h : getPeerExecutor env peer s with ⟨o, s'⟩
  rcases getPeerExecutor_cases h with ⟨-, -, -, rfl⟩ | ⟨-, -, -, rfl⟩ | ⟨-, -, -, -, rfl⟩
  · exact hs
  · exact hs.insertExecutor _
  · exact hs

lemma executeStatement_allocated {executor : Executor} {stmt : Stmt} {peerHolder : Option Peer}
    {s : NexusBackend} (hs : s.Allocated) :
    (executeStatement env executor stmt peerHolder s).2.Allocated := by
  rw [executeStatement_state]
  exact hs

/-- Every dispatch keeps the allocation invariant. -/
lemma handleQuery_allocated (stmt : NexusStatement) {s : NexusBackend} (hs : s.Allocated) :
    (handleQuery env stmt s).2.Allocated := by
  have hx : ∀ (x : Executor) q ph (t : NexusBackend), t.Allocated →
      (executeStatement env x q ph t).2.Allocated := fun _ _ _ _ => executeStatement_allocated
  match stmt with
  | .peerDDL (.createPeer peer _) =>
    simp only [handleQuery]
    split <;> exact hs
  | .peerQuery q (.peer peer) =>
    exact SessionM.bind_invariant (fun _ => getPeerExecutor_allocated) (fun x => hx x q _) hs
  | .peerQuery q .catalog => exact executeStatement_allocated hs
  | .peerCursor q c =>
    refine SessionM.bind_invariant (fun t ht => ?_) (fun p t ht => ?_) hs
    · cases c <;> exact ht
    · refine SessionM.bind_invariant (fun t ht => ?_) (fun x => hx x q _) ht
      cases p with
      | none => exact ht
      | some peer => exact getPeerExecutor_allocated ht

/-- Describe consults a BigQuery peer's new executor, which no cache entry holds. -/
theorem describeExecutor_fresh {s : NexusBackend} (hs : s.Allocated) {peer : Peer} {c : String}
    (hc : peer.config = some (.bigqueryConfig c)) (hn : env.newBigQuery c = .ok ()) :
    describeExecutor env (.peer peer) s =
        (.ok (.peer s.constructed), { s with constructed := s.constructed + 1 }) ∧
      ∀ name, s.executors name ≠ some (.peer s.constructed) := by
  refine ⟨?_, hs.not_cached⟩
  simp only [describeExecutor, hc, hn]

/-- Asking `executor` for the schema and answering from it consults `executor`. -/
lemma consults_describe (executor : Executor) (stmt : Stmt) (s : NexusBackend) :
    Consults env ((SessionM.lift (Outcome.ofExcept (env.describe executor stmt)) >>=
      describeAnswer) s) executor stmt s := by
  refine ⟨fun e h => ?_, fun h => ?_, fun schema h => ?_⟩ <;>
    simp [SessionM.bind_apply, h, Outcome.ofExcept, describeAnswer, Outcome.IsOk]

/-- A BigQuery peer. -/
def bigqueryPeer : Peer := ⟨"bq", some (.bigqueryConfig "project=bq")⟩

/-- A Postgres peer, which `get_peer_executor` supports. -/
def postgresPeer : Peer := ⟨"pg", some (.postgresConfig "host=pg")⟩

/-- The query `SELECT 1` associated with `postgresPeer`, as Parse stores it. -/
def postgresQuery : StoredStatement :=
  ⟨⟨.peerQuery ⟨"SELECT 1"⟩ (.peer postgresPeer), "SELECT 1"⟩, []⟩

/-- `handle_query` runs the query on the Postgres peer's executor; Describe of the same statement
panics. -/
theorem describe_postgres_peer_panics :
    (handleQuery Env.accepting postgresQuery.statement.statement NexusBackend.new).1 =
        .ok [.execution (Tag.newForExecution "OK" (some 0))] ∧
      (doDescribe Env.accepting (.statement postgresQuery) NexusBackend.new).1 =
        .panic (.peerTypeNotSupported postgresPeer) := ⟨rfl, rfl⟩

/-- What Describe consults, by statement: nothing for DDL and cursor statements, which answer no
data and change nothing; the catalog's executor for a catalog query, the one `handle_query` runs
it on; for a BigQuery peer a newly constructed executor that no cache entry holds; and for a peer
of any other kind it panics. -/
theorem doDescribe_consults (target : StatementOrPortal) {s : NexusBackend} (hs : s.Allocated) :
    match target.parsed.statement with
    | .peerDDL _ => doDescribe env target s = (.ok .noData, s)
    | .peerCursor _ _ => doDescribe env target s = (.ok .noData, s)
    | .peerQuery q .catalog => Consults env (doDescribe env target s) .catalog q s
    | .peerQuery q (.peer peer) =>
      match peer.config with
      | some (.bigqueryConfig c) =>
        (∀ e, env.newBigQuery c = .error e →
          doDescribe env target s = (.err (internalError e), s)) ∧
        (env.newBigQuery c = .ok () →
          Consults env (doDescribe env target s) (.peer s.constructed) q
            { s with constructed := s.constructed + 1 } ∧
          ∀ name, s.executors name ≠ some (.peer s.constructed))
      | _ => (doDescribe env target s).1 = .panic (.peerTypeNotSupported peer) := by
  split
  · next h => simp only [doDescribe, h]; rfl
  · next h => simp only [doDescribe, h]; rfl
  · next q h => simpa only [doDescribe, h, describeExecutor, SessionM.pure_bind] using
      consults_describe .catalog q s
  · next q peer h =>
    split
    · next c hc =>
      refine ⟨fun e he => ?_, fun hn => ?_⟩
      · simp only [doDescribe, h, SessionM.bind_apply, describeExecutor, hc, he]
      · obtain ⟨hx, hfresh⟩ := describeExecutor_fresh hs hc hn
        refine ⟨?_, hfresh⟩
        simp only [doDescribe, h, SessionM.bind_apply, hx]
        exact consults_describe _ q _
    · next hc =>
      simp only [doDescribe, h, SessionM.bind_apply, describeExecutor]

/-- The catalog query `SELECT 1`, as Parse stores it. -/
def catalogQuery : StoredStatement := ⟨⟨.peerQuery ⟨"SELECT 1"⟩ .catalog, "SELECT 1"⟩, []⟩

/-- The query `SELECT 1` associated with `bigqueryPeer`, as Parse stores it. -/
def bigqueryQuery : StoredStatement :=
  ⟨⟨.peerQuery ⟨"SELECT 1"⟩ (.peer bigqueryPeer), "SELECT 1"⟩, []⟩

/-- The session after a query on `bigqueryPeer` and one on `postgresPeer`, which cache the
executors 0 and 1 under their names. -/
def twoPeersCached : NexusBackend :=
  (handleQuery Env.accepting (.peerQuery ⟨"SELECT 1"⟩ (.peer postgresPeer))
    (handleQuery Env.accepting (.peerQuery ⟨"SELECT 1"⟩ (.peer bigqueryPeer)) NexusBackend.new).2).2

/-- With the executors of both peers cached, Describe of a catalog query consults the catalog's
executor, and Describe of the BigQuery query consults the new executor 2, not the cached 0. -/
theorem doDescribe_consults_cached :
    twoPeersCached.Allocated ∧ twoPeersCached.executors "bq" = some (.peer 0) ∧
      twoPeersCached.executors "pg" = some (.peer 1) ∧
      Consults Env.accepting (doDescribe Env.accepting (.statement catalogQuery) twoPeersCached)
        .catalog ⟨"SELECT 1"⟩ twoPeersCached ∧
      (∀ e, Env.accepting.newBigQuery "project=bq" = .error e →
        doDescribe Env.accepting (.statement bigqueryQuery) twoPeersCached =
          (.err (internalError e), twoPeersCached)) ∧
      (Env.accepting.newBigQuery "project=bq" = .ok () →
        Consults Env.accepting (doDescribe Env.accepting (.statement bigqueryQuery) twoPeersCached)
          (.peer 2) ⟨"SELECT 1"⟩ { twoPeersCached with constructed := 3 } ∧
        ∀ name, twoPeersCached.executors name ≠ some (.peer 2)) :=
  have hs : twoPeersCached.Allocated :=
    handleQuery_allocated _ (handleQuery_allocated _ NexusBackend.new_allocated)
  ⟨hs, rfl, rfl, doDescribe_consults (.statement catalogQuery) hs,
    doDescribe_consults (.statement bigqueryQuery) hs⟩

end Nexus
