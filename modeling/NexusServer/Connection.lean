import NexusServer.CursorTable
import NexusServer.Rendering

/-!
# The requests of one connection

`process_socket` serves the messages of one connection one at a time. Three kinds of them reach
`NexusBackend`: a simple query (`SimpleQueryHandler::do_query`), the execution of a bound portal
(`ExtendedQueryHandler::do_query`) and a Describe (`do_describe`). A panic in a handler ends the
connection's task, so the connection serves nothing after it (`Connection.run`). Each request
may meet other answers of the parser, the catalog and the executors.

Over every run of a connection, whatever its requests and their outcomes, the executor cache only
grows: an entry is never replaced or removed (`Connection.run_extends`). So once a peer name
has an executor, every later query on a peer of that name runs on it, whatever that peer's config
now is, and so does every fetch or close of a cursor owned by a peer of that name
(`executor_fixed_for_connection`). The executor a cursor was declared on is the one it is fetched
from.

Every handle the cache holds is a peer executor allocated for that name alone
(`NexusBackend.Distinct`): no two names share one and no name holds the catalog's. Every request
keeps this, because a new entry always gets a handle that the allocation counter has not given out
before (`NexusBackend.Allocated`), so it holds along every run.

A Describe changes the allocation counter only (`doDescribe_countsOnly`), so the invariant of the
cursor table survives every request kind: along every run, every cursor the table tracks has its
owning peer's executor cached (`serve_cursorsCached`, carried by `Connection.run_invariant`). A run
of a session (`SessionRun`) is the run of a connection that sends its statements as simple queries
(`SessionRun.connection`), so the invariant along session runs is this one.
-/

namespace Nexus

/-- Modelled from the protocol: a message of the client that reaches `NexusBackend`. -/
inductive Request where
  /-- A simple query with its text. -/
  | query (sql : String)
  /-- Execute of a bound portal. -/
  | execute (portal : Portal)
  /-- Describe of a prepared statement or a portal. -/
  | describe (target : StatementOrPortal)

/-- What a request answers. -/
inductive Reply where
  | responses (rs : List Response)
  | response (r : Response)
  | description (d : DescribeResponse)

/-- The handler that serves a request. -/
def serve (env : Env) (dec : FromSql) : Request → SessionM Reply
  | .query sql => SimpleQueryHandler.doQuery env sql >>= fun rs => pure (.responses rs)
  | .execute portal => ExtendedQueryHandler.doQuery env dec portal >>= fun r => pure (.response r)
  | .describe target => doDescribe env target >>= fun d => pure (.description d)

/-- Modelled from the protocol: a connection serves its requests one after the other, each with
the collaborators' answers of its own, and ends at the first panic. -/
def Connection.run : List (Env × FromSql × Request) → NexusBackend →
    List (Outcome Reply) × NexusBackend
  | [], s => ([], s)
  | (env, dec, req) :: rest, s =>
    match serve env dec req s with
    | (.panic p, s') => ([.panic p], s')
    | (o, s') => (o :: (Connection.run rest s').1, (Connection.run rest s').2)

/-- A property of the state that every request keeps, whatever it answers, holds at the end of
every run of a connection. -/
lemma Connection.run_invariant (P : NexusBackend → Prop)
    (hP : ∀ env dec req s, P s → P (serve env dec req s).2) :
    ∀ reqs s, P s → P (Connection.run reqs s).2
  | [], _, hs => hs
  | (env, dec, req) :: rest, s, hs => by
    have h := hP env dec req s hs
    simp only [Connection.run]
    split
    · next s' hq => rwa [hq] at h
    · next o s' _ hq => rw [hq] at h; exact Connection.run_invariant P hP rest s' h

/-! ## What a request does to the executor cache -/

/-- A step that leaves the executor cache as it was; the allocation counter may grow. -/
def NexusBackend.KeepsCache (s t : NexusBackend) : Prop :=
  t.executors = s.executors ∧ s.constructed ≤ t.constructed

/-- A step that changes the allocation counter only, and only upward. -/
def NexusBackend.CountsOnly (s t : NexusBackend) : Prop :=
  ∃ n, s.constructed ≤ n ∧ t = { s with constructed := n }

/-- What a request may do to the executor cache: leave it as it was, or insert, under a name that
had no entry, a handle that the allocation counter had not given out before and has given out
since. -/
def NexusBackend.CacheStep (s t : NexusBackend) : Prop :=
  s.KeepsCache t ∨ ∃ name i, s.executors name = none ∧ s.constructed ≤ i ∧ i < t.constructed ∧
    t.executors = Function.update s.executors name (some (.peer i))

namespace NexusBackend

lemma KeepsCache.refl (s : NexusBackend) : s.KeepsCache s := ⟨rfl, le_rfl⟩

lemma KeepsCache.trans {s t u : NexusBackend} (h₁ : s.KeepsCache t) (h₂ : t.KeepsCache u) :
    s.KeepsCache u := ⟨h₂.1.trans h₁.1, Nat.le_trans h₁.2 h₂.2⟩

lemma KeepsCache.toCacheStep {s t : NexusBackend} (h : s.KeepsCache t) : s.CacheStep t := .inl h

lemma CacheStep.keepsCache {s t u : NexusBackend} (h₁ : s.CacheStep t) (h₂ : t.KeepsCache u) :
    s.CacheStep u := by
  rcases h₁ with h₁ | ⟨name, i, hn, hle, hlt, he⟩
  · exact .inl (h₁.trans h₂)
  · exact .inr ⟨name, i, hn, hle, Nat.lt_of_lt_of_le hlt h₂.2, h₂.1.trans he⟩

lemma KeepsCache.cacheStep {s t u : NexusBackend} (h₁ : s.KeepsCache t) (h₂ : t.CacheStep u) :
    s.CacheStep u := by
  rcases h₂ with h₂ | ⟨name, i, hn, hle, hlt, he⟩
  · exact .inl (h₁.trans h₂)
  · exact .inr ⟨name, i, h₁.1 ▸ hn, Nat.le_trans h₁.2 hle, hlt, h₁.1 ▸ he⟩

lemma CountsOnly.refl (s : NexusBackend) : s.CountsOnly s := ⟨s.constructed, le_rfl, rfl⟩

lemma CountsOnly.trans {s t u : NexusBackend} (h₁ : s.CountsOnly t) (h₂ : t.CountsOnly u) :
    s.CountsOnly u := by
  obtain ⟨n, hn, rfl⟩ := h₁
  obtain ⟨m, hm, rfl⟩ := h₂
  exact ⟨m, Nat.le_trans hn hm, rfl⟩

lemma CountsOnly.keepsCache {s t : NexusBackend} (h : s.CountsOnly t) : s.KeepsCache t := by
  obtain ⟨n, hn, rfl⟩ := h
  exact ⟨rfl, hn⟩

end NexusBackend

/-- A relation between the states before and after, kept by two steps that compose into it, is
kept by their sequence, also when the first step fails. -/
lemma SessionM.bind_rel {α β : Type} {R R₁ R₂ : NexusBackend → NexusBackend → Prop}
    {m : SessionM α} {f : α → SessionM β} (hm : ∀ s, R₁ s (m s).2) (hf : ∀ a s, R₂ s (f a s).2)
    (hcomp : ∀ {s t u}, R₁ s t → R₂ t u → R s u) (hstop : ∀ {s t}, R₁ s t → R s t)
    (s : NexusBackend) : R s ((m >>= f) s).2 := by
  rw [SessionM.bind_apply]
  rcases hms : m s with ⟨o, s'⟩
  have h₁ : R₁ s s' := by simpa [hms] using hm s
  cases o with
  | ok a => exact hcomp h₁ (hf a s')
  | err _ | panic _ => exact hstop h₁

section CacheStep

open NexusBackend

variable {env : Env} {dec : FromSql}

/-- Two steps that change the allocation counter only. -/
lemma SessionM.bind_countsOnly {α β : Type} {m : SessionM α} {f : α → SessionM β}
    (hm : ∀ s : NexusBackend, s.CountsOnly (m s).2)
    (hf : ∀ a (s : NexusBackend), s.CountsOnly (f a s).2) (s : NexusBackend) :
    s.CountsOnly ((m >>= f) s).2 :=
  SessionM.bind_rel hm hf CountsOnly.trans id s

lemma getPeerExecutor_cacheStep (peer : Peer) (s : NexusBackend) :
    s.CacheStep (getPeerExecutor env peer s).2 := by
  rcases hg : getPeerExecutor env peer s with ⟨o, s'⟩
  rcases getPeerExecutor_cases hg with ⟨-, -, -, rfl⟩ | ⟨hn, -, -, rfl⟩ | ⟨-, -, -, -, rfl⟩
  · exact .inl (.refl _)
  · exact .inr ⟨peer.name, s.constructed, hn, le_rfl, Nat.lt_succ_self _, rfl⟩
  · exact .inl (.refl _)

lemma executeStatement_keepsCache (executor : Executor) (stmt : Stmt) (peerHolder : Option Peer)
    (s : NexusBackend) : s.KeepsCache (executeStatement env executor stmt peerHolder s).2 := by
  rw [executeStatement_state]
  exact ⟨rfl, le_rfl⟩

lemma handleQuery_cacheStep (stmt : NexusStatement) (s : NexusBackend) :
    s.CacheStep (handleQuery env stmt s).2 := by
  have hx : ∀ (x : Executor) q ph (t : NexusBackend),
      t.KeepsCache (executeStatement env x q ph t).2 :=
    executeStatement_keepsCache
  match stmt with
  | .peerDDL (.createPeer peer _) =>
    simp only [handleQuery]
    split <;> exact .inl (.refl s)
  | .peerQuery q (.peer peer) =>
    exact SessionM.bind_rel (getPeerExecutor_cacheStep peer) (hx · q _) CacheStep.keepsCache id s
  | .peerQuery q .catalog => exact .inl (hx _ q _ s)
  | .peerCursor q ev =>
    have hp : ∀ t : NexusBackend, t.KeepsCache (cursorPeer ev t).2 := fun t => by
      cases ev <;> exact .refl t
    have hc : ∀ (peer? : Option Peer) (t : NexusBackend),
        t.CacheStep (cursorExecutor env peer? t).2 := fun peer? t => by
      cases peer? with
      | none => exact .inl (.refl t)
      | some p => exact getPeerExecutor_cacheStep p t
    exact SessionM.bind_rel hp
      (fun peer? => SessionM.bind_rel (hc peer?) (hx · q _) CacheStep.keepsCache id)
      KeepsCache.cacheStep KeepsCache.toCacheStep s

lemma describeExecutor_countsOnly (assoc : QueryAssocation) (s : NexusBackend) :
    s.CountsOnly (describeExecutor env assoc s).2 := by
  cases assoc with
  | catalog => exact .refl s
  | peer peer =>
    simp only [describeExecutor]
    split
    · split
      · exact .refl s
      · exact ⟨_, Nat.le_succ _, rfl⟩
    · exact .refl s

/-- Describe changes the allocation counter only: it may construct an executor, never caches it,
and touches no cursor. -/
lemma doDescribe_countsOnly (target : StatementOrPortal) (s : NexusBackend) :
    s.CountsOnly (doDescribe env target s).2 := by
  unfold doDescribe
  cases target.parsed.statement with
  | peerDDL | peerCursor => exact .refl s
  | peerQuery q assoc =>
    refine SessionM.bind_countsOnly (describeExecutor_countsOnly assoc)
      (fun _ => SessionM.bind_countsOnly (fun t => .refl t) fun schema t => ?_) s
    cases schema <;> exact .refl t

lemma simpleDoQuery_cacheStep (sql : String) (s : NexusBackend) :
    s.CacheStep (SimpleQueryHandler.doQuery env sql s).2 :=
  SessionM.bind_rel (fun t => KeepsCache.refl t)
    (fun (parsed : NexusParsedStatement) => handleQuery_cacheStep parsed.statement)
    KeepsCache.cacheStep KeepsCache.toCacheStep s

/-- What every request does to the executor cache, whatever it answers: nothing, or the insert of
a newly allocated handle under a name that had none. -/
lemma serve_cacheStep (req : Request) (s : NexusBackend) : s.CacheStep (serve env dec req s).2 := by
  cases req with
  | query sql =>
    exact SessionM.bind_rel (simpleDoQuery_cacheStep sql) (fun _ t => KeepsCache.refl t)
      CacheStep.keepsCache id s
  | execute portal =>
    have hext : ∀ t : NexusBackend, t.CacheStep (ExtendedQueryHandler.doQuery env dec portal t).2 :=
      fun t => by
        rw [doQuery_eq_simple]
        split
        · exact SessionM.bind_rel (simpleDoQuery_cacheStep _) (fun _ u => KeepsCache.refl u)
            CacheStep.keepsCache id t
        · exact .inl (.refl t)
        · exact .inl (.refl t)
    exact SessionM.bind_rel hext (fun _ t => KeepsCache.refl t) CacheStep.keepsCache id s
  | describe target =>
    exact (SessionM.bind_countsOnly (doDescribe_countsOnly target) (fun _ t => .refl t)
      s).keepsCache.toCacheStep

end CacheStep

/-! ## The cache only grows -/

/-- Every entry of the executor cache of `s` is an entry of `s'`. -/
def NexusBackend.Extends (s s' : NexusBackend) : Prop :=
  ∀ n x, s.executors n = some x → s'.executors n = some x

/-- A request keeps every entry of the cache. -/
lemma NexusBackend.CacheStep.extends {s t : NexusBackend} (h : s.CacheStep t) : s.Extends t := by
  rcases h with ⟨he, -⟩ | ⟨name, i, hn, -, -, he⟩
  · intro n x hx
    rw [he]
    exact hx
  · intro n x hx
    have hne : n ≠ name := by rintro rfl; rw [hx] at hn; cases hn
    rw [he]
    exact (Function.update_noteq hne _ _).trans hx

/-- Along every run of a connection, an entry of the executor cache is never replaced or
removed. -/
lemma Connection.run_extends (reqs : List (Env × FromSql × Request)) (s : NexusBackend) :
    s.Extends (Connection.run reqs s).2 :=
  Connection.run_invariant (fun t => s.Extends t)
    (fun _ _ req t ht n x hx => (serve_cacheStep req t).extends n x (ht n x hx)) reqs s
    (fun _ _ h => h)

/-- A resolve of a peer whose name has an executor returns it and changes nothing. -/
lemma getPeerExecutor_of_cached {env : Env} {peer : Peer} {s : NexusBackend} {x : Executor}
    (h : s.executors peer.name = some x) : getPeerExecutor env peer s = (.ok x, s) := by
  simp [getPeerExecutor, h]

/-- Once a peer name has an executor in a connection, every later statement routed to a peer of
that name runs on it: a query on any peer of that name, whatever its config, and a fetch or a
close of a cursor that the table binds to a peer of that name. -/
theorem executor_fixed_for_connection {s : NexusBackend} {name : String} {x : Executor}
    (hx : s.executors name = some x) (reqs : List (Env × FromSql × Request)) (env : Env)
    (q : Stmt) :
    (∀ p : Peer, p.name = name →
      handleQuery env (.peerQuery q (.peer p)) (Connection.run reqs s).2 =
        executeStatement env x q (some p) (Connection.run reqs s).2) ∧
    ∀ c (p : Peer), (Connection.run reqs s).2.peerCursors.getPeer c = some p → p.name = name →
      (∀ k, handleQuery env (.peerCursor q (.fetch c k)) (Connection.run reqs s).2 =
        executeStatement env x q none (Connection.run reqs s).2) ∧
      handleQuery env (.peerCursor q (.close c)) (Connection.run reqs s).2 =
        executeStatement env x q none (Connection.run reqs s).2 := by
  have hcached : ∀ p : Peer, p.name = name →
      getPeerExecutor env p (Connection.run reqs s).2 = (.ok x, (Connection.run reqs s).2) :=
    fun p hp => getPeerExecutor_of_cached (hp ▸ Connection.run_extends reqs s name x hx)
  refine ⟨fun p hp => ?_, fun c p hc hp => ⟨fun k => ?_, ?_⟩⟩
  · show (getPeerExecutor env p >>= fun x => executeStatement env x q (some p)) _ = _
    rw [SessionM.bind_apply, hcached p hp]
  · rw [handleQuery_fetch, hc, SessionM.bind_apply, cursorExecutor, hcached p hp]
  · rw [handleQuery_close, hc, SessionM.bind_apply, cursorExecutor, hcached p hp]

/-- A simple query, then a Describe of a prepared catalog query. -/
def queryThenDescribe : List (Env × FromSql × Request) :=
  [(Env.accepting, asciiDecoders, .query "SELECT 1"),
   (Env.accepting, asciiDecoders, .describe (.statement catalogQuery))]

/-- After a `DECLARE` on the Postgres peer `pg` and two more requests, statements on `pg` and on
its cursors still run on the executor the declaration resolved. -/
theorem executor_fixed_for_connection_afterDeclare :
    afterDeclare.executors "pg" = some (.peer 0) ∧
    ((∀ p : Peer, p.name = "pg" →
      handleQuery Env.accepting (.peerQuery ⟨"FETCH 1 c"⟩ (.peer p))
          (Connection.run queryThenDescribe afterDeclare).2 =
        executeStatement Env.accepting (.peer 0) ⟨"FETCH 1 c"⟩ (some p)
          (Connection.run queryThenDescribe afterDeclare).2) ∧
    ∀ c (p : Peer), (Connection.run queryThenDescribe afterDeclare).2.peerCursors.getPeer c = some p →
      p.name = "pg" →
      (∀ k, handleQuery Env.accepting (.peerCursor ⟨"FETCH 1 c"⟩ (.fetch c k))
          (Connection.run queryThenDescribe afterDeclare).2 =
        executeStatement Env.accepting (.peer 0) ⟨"FETCH 1 c"⟩ none
          (Connection.run queryThenDescribe afterDeclare).2) ∧
      handleQuery Env.accepting (.peerCursor ⟨"FETCH 1 c"⟩ (.close c))
          (Connection.run queryThenDescribe afterDeclare).2 =
        executeStatement Env.accepting (.peer 0) ⟨"FETCH 1 c"⟩ none
          (Connection.run queryThenDescribe afterDeclare).2) :=
  ⟨rfl, executor_fixed_for_connection rfl queryThenDescribe Env.accepting ⟨"FETCH 1 c"⟩⟩

/-! ## No two names share an executor -/

/-- A request keeps the cache's handles distinct: a new entry gets a handle the counter had not
given out, which no other name holds. -/
lemma NexusBackend.CacheStep.distinct {s t : NexusBackend} (hs : s.Distinct) (h : s.CacheStep t) :
    t.Distinct := by
  rcases h with ⟨he, hle⟩ | ⟨name, i, -, hle, hlt, he⟩
  · exact ⟨fun n id hx => Nat.lt_of_lt_of_le (hs.allocated n id (he ▸ hx)) hle,
      fun n => he ▸ hs.not_catalog n, fun n n' j => he ▸ hs.unique n n' j⟩
  · have hfresh : ∀ n, s.executors n ≠ some (.peer i) := fun n hx =>
      Nat.lt_irrefl _ (Nat.lt_of_lt_of_le (hs.allocated n i hx) hle)
    refine ⟨fun n id hx => ?_, fun n hx => ?_, fun n n' j hx hx' => ?_⟩
    · rw [he, Function.update_apply] at hx
      split at hx
      · cases hx
        exact hlt
      · exact Nat.lt_of_lt_of_le (hs.allocated n id hx) (by omega)
    · rw [he, Function.update_apply] at hx
      split at hx
      · cases hx
      · exact hs.not_catalog n hx
    · rw [he, Function.update_apply] at hx hx'
      split at hx <;> split at hx'
      · subst_vars
        rfl
      · cases hx
        exact absurd hx' (hfresh n')
      · cases hx'
        exact absurd hx (hfresh n)
      · exact hs.unique n n' j hx hx'

/-- Along every run of a connection from a state whose cached executors are distinct, as in a new
session, they stay distinct: two peer names never share an executor, and no peer name holds the
catalog's. -/
theorem connection_executors_distinct {s : NexusBackend} (hs : s.Distinct)
    (reqs : List (Env × FromSql × Request)) : (Connection.run reqs s).2.Distinct :=
  Connection.run_invariant NexusBackend.Distinct
    (fun _ _ req t ht => (serve_cacheStep req t).distinct ht) reqs s hs

/-- Collaborators whose parser routes every text to `assoc`. -/
def Env.routing (assoc : QueryAssocation) : Env :=
  { Env.accepting with parseSimpleSql := fun sql => .ok ⟨.peerQuery ⟨sql⟩ assoc, sql⟩ }

/-- A query routed to the Postgres peer, one routed to the BigQuery peer, and a Describe of a
BigQuery query. -/
def twoPeers : List (Env × FromSql × Request) :=
  [(Env.routing (.peer postgresPeer), asciiDecoders, .query "SELECT 1"),
   (Env.routing (.peer bigqueryPeer), asciiDecoders, .query "SELECT 1"),
   (Env.accepting, asciiDecoders, .describe (.statement bigqueryQuery))]

/-- From a new session, the two queries construct and cache the executors 0 and 1 under their
peers' names and the Describe constructs executor 2 without caching it; the cache stays
distinct. -/
theorem connection_executors_distinct_twoPeers :
    NexusBackend.new.Distinct ∧ (Connection.run twoPeers NexusBackend.new).2.Distinct ∧
      (Connection.run twoPeers NexusBackend.new).2.executors "pg" = some (.peer 0) ∧
      (Connection.run twoPeers NexusBackend.new).2.executors "bq" = some (.peer 1) ∧
      (Connection.run twoPeers NexusBackend.new).2.constructed = 3 :=
  ⟨NexusBackend.distinct_new, connection_executors_distinct NexusBackend.distinct_new _, rfl, rfl,
    rfl⟩

/-! ## Tracked cursors along a connection -/

/-- Every request keeps every owning peer's executor cached, whatever it answers. -/
lemma serve_cursorsCached (env : Env) (dec : FromSql) (req : Request) {s : NexusBackend}
    (hs : s.CursorsCached) : (serve env dec req s).2.CursorsCached := by
  have hsimple : ∀ sql (t : NexusBackend), t.CursorsCached →
      (SimpleQueryHandler.doQuery env sql t).2.CursorsCached := fun sql t ht =>
    SessionM.bind_invariant (fun _ hu => hu)
      (fun (parsed : NexusParsedStatement) _ hu => handleQuery_cursorsCached parsed.statement hu) ht
  cases req with
  | query sql => exact SessionM.bind_invariant (hsimple sql) (fun _ _ h => h) hs
  | execute portal =>
    refine SessionM.bind_invariant (fun t ht => ?_) (fun _ _ h => h) hs
    rw [doQuery_eq_simple]
    split
    · exact SessionM.bind_invariant (hsimple _) (fun _ _ h => h) ht
    · exact ht
    · exact ht
  | describe target =>
    obtain ⟨n, -, h⟩ : s.CountsOnly (serve env dec (.describe target) s).2 :=
      SessionM.bind_countsOnly (doDescribe_countsOnly target) (fun _ t => .refl t) s
    rw [h]
    exact hs

/-- Along every run of a connection from a state where every cursor the table tracks has its
owning peer's executor cached, as in a new session, this stays so: through simple queries, portal
executions and Describes, whatever they answer. So a later fetch or close of a tracked cursor
resolves its owner from the cache and constructs nothing. -/
theorem connection_cursorsCached {s : NexusBackend} (hs : s.CursorsCached)
    (reqs : List (Env × FromSql × Request)) : (Connection.run reqs s).2.CursorsCached :=
  Connection.run_invariant NexusBackend.CursorsCached
    (fun env dec req _ ht => serve_cursorsCached env dec req ht) reqs s hs

/-- After a declaration of cursor c on the Postgres peer, a simple query and a Describe keep the
owner of c cached. -/
theorem connection_cursorsCached_afterDeclare :
    afterDeclare.CursorsCached ∧ (Connection.run queryThenDescribe afterDeclare).2.CursorsCached :=
  have hs : afterDeclare.CursorsCached := handleQuery_cursorsCached _ cursorsCached_new
  ⟨hs, connection_cursorsCached hs queryThenDescribe⟩

/-! ## Runs of a session as runs of a connection -/

/-- A request that does not panic lets the connection go on from the state it leaves. -/
lemma Connection.run_cons_of_not_panic {env : Env} {dec : FromSql} {req : Request}
    {rest : List (Env × FromSql × Request)} {s s₁ : NexusBackend} {o : Outcome Reply}
    (h : serve env dec req s = (o, s₁)) (hno : ¬ o.IsPanic) :
    (Connection.run ((env, dec, req) :: rest) s).2 = (Connection.run rest s₁).2 := by
  simp only [Connection.run, h]
  cases o with
  | panic p => exact absurd trivial hno
  | ok _ | err _ => rfl

/-- A statement sent as a simple query, to a parser that reads every text as that statement, is
dispatched as it is. -/
lemma serve_query_parsed (env : Env) (dec : FromSql) (stmt : NexusStatement) (sql : String)
    (s : NexusBackend) :
    serve { env with parseSimpleSql := fun sql => .ok ⟨stmt, sql⟩ } dec (.query sql) s =
      (handleQuery env stmt >>= fun rs => pure (.responses rs)) s := rfl

/-- Every run of a session is the run of a connection that sends each of its statements as a
simple query, to a parser that reads the text as that statement. -/
lemma SessionRun.connection {s s' : NexusBackend}
    {run : List (NexusStatement × Except PgWireError QueryOutput)} (h : SessionRun s run s') :
    ∃ reqs : List (Env × FromSql × Request), (Connection.run reqs s).2 = s' := by
  induction h with
  | nil s => exact ⟨[], rfl⟩
  | @cons env stmt _ o s s₁ _ _ hq hno _ _ ih =>
    obtain ⟨reqs, hreqs⟩ := ih
    refine ⟨({ env with parseSimpleSql := fun sql => .ok ⟨stmt, sql⟩ }, asciiDecoders, .query "") ::
      reqs, hreqs ▸ ?_⟩
    have hserve := serve_query_parsed env asciiDecoders stmt "" s
    rw [SessionM.bind_apply, hq] at hserve
    cases o with
    | ok _ | err _ => exact Connection.run_cons_of_not_panic hserve id
    | panic p => exact absurd trivial hno

/-- Along every run of a session from a state where every owning peer's executor is cached, it
stays so: the run is a connection's run of simple queries, along which the invariant holds. -/
theorem sessionRun_cursorsCached {s s' : NexusBackend}
    {run : List (NexusStatement × Except PgWireError QueryOutput)} (h : SessionRun s run s')
    (hs : s.CursorsCached) : s'.CursorsCached :=
  let ⟨reqs, hreqs⟩ := h.connection
  hreqs ▸ Connection.run_invariant NexusBackend.CursorsCached
    (fun env dec req _ ht => serve_cursorsCached env dec req ht) reqs s hs

/-- After the example run, the owning peer of every tracked cursor has its executor cached. -/
theorem declare_then_fetch_cursorsCached :
    ∃ s', SessionRun NexusBackend.new declareThenFetch s' ∧ s'.CursorsCached :=
  let ⟨s', h⟩ := declareThenFetch_sessionRun
  ⟨s', h, sessionRun_cursorsCached h cursorsCached_new⟩

end Nexus
