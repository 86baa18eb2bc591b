import NexusServer.Describe

/-!
# The cursor table

What the cursor table is for, stated over an abstract cursor map from cursor names to the owner
that declared them, the catalog or a peer (`CursorMap`). A successful request changes the map as
its executor says: `Created c` binds `c` to the owner that executed the statement, `Closed cs`
unbinds every name of `cs`, and `CloseAll` unbinds every cursor (`CursorMap.step`).

The code's table maps a name to a peer and has no way to record the catalog as an owner. On the
paths where it keeps the table, the table refines the abstract map: a dispatch that does not
panic moves the table exactly as `CursorMap.step` moves its image (`handleQuery_refines_step`),
and the executor it ran the statement on is the one of the statement's owner, the entry of the
owning peer's name or the catalog's (`cursor_statement_routing`). The two remaining cases abort:
`CloseAll` is `todo!`, and a `Created` output of a catalog query or of a cursor statement
unwraps a missing peer (`cursor_table_aborts`).

Over a whole run of a session (`SessionRun`) the table stands for the abstract map folded over
the run (`sessionRun_refines`). Every dispatch keeps every peer that owns a cursor with its
executor cached (`handleQuery_cursorsCached`); a session run is a connection's run of simple
queries, and the invariant is carried along runs of connections in `NexusServer.Connection`.
-/

namespace Nexus

/-- The owner of a cursor: the catalog or a peer. -/
inductive Owner where
  | catalog
  | peer (p : Peer)
deriving DecidableEq, Repr

/-- The abstract cursor map: the owner of each tracked cursor. -/
def CursorMap : Type := String → Option Owner

/-- The abstract map the cursor table stands for. -/
def PeerCursors.toMap (t : PeerCursors) : CursorMap := fun c => (t.getPeer c).map .peer

namespace CursorMap

/-- The owner that executes a statement: the associated peer of a query, the catalog for a
catalog query, and for a cursor statement the owner of its cursor, the catalog if untracked. -/
def owner (m : CursorMap) : NexusStatement → Owner
  | .peerQuery _ (.peer p) => .peer p
  | .peerCursor _ (.fetch c _) => (m c).getD .catalog
  | .peerCursor _ (.close c) => (m c).getD .catalog
  | _ => .catalog

/-- The abstract effect of a request whose executor answered `answer`: `Created c` binds `c` to
the owner, `Closed cs` unbinds each name of `cs`, `CloseAll` unbinds every cursor. -/
def step (m : CursorMap) (stmt : NexusStatement) (answer : Except PgWireError QueryOutput) :
    CursorMap :=
  match stmt, answer with
  | .peerDDL _, _ => m
  | .peerCursor _ .closeAll, _ => fun _ => none
  | _, .ok (.cursor (.created c)) => Function.update m c (some (m.owner stmt))
  | _, .ok (.cursor (.closed cs)) => fun n => if n ∈ cs then none else m n
  | _, _ => m

end CursorMap

/-! ## The table refines the map -/

lemma PeerCursors.toMap_addCursor (t : PeerCursors) (c : String) (p : Peer) :
    (t.addCursor c p).toMap = Function.update t.toMap c (some (.peer p)) := by
  funext n
  by_cases h : n = c
  · subst h
    simp [PeerCursors.toMap, PeerCursors.getPeer, PeerCursors.addCursor]
  · simp [PeerCursors.toMap, PeerCursors.getPeer, PeerCursors.addCursor, h]

lemma PeerCursors.toMap_removeCursors (t : PeerCursors) (cs : List String) :
    (cs.foldl PeerCursors.removeCursor t).toMap = fun n => if n ∈ cs then none else t.toMap n := by
  induction cs generalizing t with
  | nil => rfl
  | cons c cs ih =>
    funext n
    rw [List.foldl_cons, ih]
    by_cases h : n = c
    · subst h
      simp [PeerCursors.toMap, PeerCursors.getPeer, PeerCursors.removeCursor]
    · by_cases hn : n ∈ cs <;>
        simp [PeerCursors.toMap, PeerCursors.getPeer, PeerCursors.removeCursor, h, hn]

variable {env : Env}

/-- On a query of a peer, the table's update is the abstract step of its image. -/
lemma toMap_cursorUpdate_peer (t : PeerCursors) (q : Stmt) (p : Peer)
    (a : Except PgWireError QueryOutput) :
    (cursorUpdate t (some p) a).toMap = t.toMap.step (.peerQuery q (.peer p)) a := by
  rcases a with e | rows | rows | records | c | cs
  any_goals rfl
  · exact PeerCursors.toMap_addCursor t c p
  · exact PeerCursors.toMap_removeCursors t cs

/-- Without a peer to record, the table's update is the abstract step of its image for every
answer but `Created`, on a catalog query or a fetch or close. -/
lemma toMap_cursorUpdate_none (t : PeerCursors) {stmt : NexusStatement}
    (hstmt : (∃ q, stmt = .peerQuery q .catalog) ∨
      ∃ q c n, stmt = .peerCursor q (.fetch c n) ∨ stmt = .peerCursor q (.close c))
    {a : Except PgWireError QueryOutput} (ha : ∀ c, a ≠ .ok (.cursor (.created c))) :
    (cursorUpdate t none a).toMap = t.toMap.step stmt a := by
  rcases a with e | rows | rows | records | c | cs
  · rcases hstmt with ⟨q, rfl⟩ | ⟨q, c, n, rfl | rfl⟩ <;> rfl
  · rcases hstmt with ⟨q, rfl⟩ | ⟨q, c, n, rfl | rfl⟩ <;> rfl
  · rcases hstmt with ⟨q, rfl⟩ | ⟨q, c, n, rfl | rfl⟩ <;> rfl
  · rcases hstmt with ⟨q, rfl⟩ | ⟨q, c, n, rfl | rfl⟩ <;> rfl
  · exact absurd rfl (ha c)
  · rcases hstmt with ⟨q, rfl⟩ | ⟨q, c, n, rfl | rfl⟩ <;> exact PeerCursors.toMap_removeCursors t cs

/-- The answer `a` is what the executor of the statement's owner answered: the resolved executor
of the associated or owning peer, or the catalog's. -/
def AnsweredBy (env : Env) (s : NexusBackend) :
    NexusStatement → Except PgWireError QueryOutput → Prop
  | .peerQuery q (.peer p), a => ∃ x, (getPeerExecutor env p s).1 = .ok x ∧ a = env.execute x q
  | .peerQuery q .catalog, a => a = env.execute .catalog q
  | .peerCursor q (.fetch c _), a => OwnerAnswered env s (s.peerCursors.getPeer c) q a
  | .peerCursor q (.close c), a => OwnerAnswered env s (s.peerCursors.getPeer c) q a
  | _, _ => True
where
  /-- The answer of the executor of a cursor's owning peer, or of the catalog's. -/
  OwnerAnswered (env : Env) (s : NexusBackend) : Option Peer → Stmt →
      Except PgWireError QueryOutput → Prop
    | none, q, a => a = env.execute .catalog q
    | some p, q, a => ∃ x, (getPeerExecutor env p s).1 = .ok x ∧ a = env.execute x q

/-- Running a statement with no peer to record: unless it panics, the executor did not answer
`Created`, and the table moves by `cursorUpdate`. -/
lemma executeStatement_none_step {x : Executor} {q : Stmt} {s s' : NexusBackend}
    {o : Outcome (List Response)} (h : executeStatement env x q none s = (o, s'))
    (hno : ¬ o.IsPanic) :
    (∀ c, env.execute x q ≠ .ok (.cursor (.created c))) ∧
      s'.peerCursors = cursorUpdate s.peerCursors none (env.execute x q) := by
  refine ⟨fun c hc => hno ?_, ?_⟩
  · have ho := congrArg Prod.fst h
    simp only [executeStatement, hc] at ho
    rw [← ho]
    trivial
  · have hs : (executeStatement env x q none s).2 = _ := executeStatement_state x q none s
    rw [h] at hs
    exact congrArg NexusBackend.peerCursors hs

/-- A resolve leaves the cursor table alone. -/
lemma getPeerExecutor_peerCursors (p : Peer) (s : NexusBackend) :
    (getPeerExecutor env p s).2.peerCursors = s.peerCursors := by
  rcases h : getPeerExecutor env p s with ⟨o, s₁⟩
  rcases getPeerExecutor_cases h with ⟨-, -, -, rfl⟩ | ⟨-, -, -, rfl⟩ | ⟨-, -, -, -, rfl⟩ <;> rfl

/-- The executor of a cursor's owner, then the statement: unless it panics, the table moves by the
owner's answer, which is not `Created`. -/
lemma cursorExecutor_step {peer? : Option Peer} {q : Stmt} {s s' : NexusBackend}
    {o : Outcome (List Response)} {a : Except PgWireError QueryOutput}
    (h : (cursorExecutor env peer? >>= fun x => executeStatement env x q none) s = (o, s'))
    (hno : ¬ o.IsPanic) (ha : AnsweredBy.OwnerAnswered env s peer? q a) :
    (∀ c, a ≠ .ok (.cursor (.created c))) ∧ s'.peerCursors = cursorUpdate s.peerCursors none a := by
  cases peer? with
  | none =>
    subst ha
    exact executeStatement_none_step h hno
  | some p =>
    obtain ⟨x, hx, rfl⟩ := ha
    rw [SessionM.bind_apply] at h
    rcases hg : getPeerExecutor env p s with ⟨o₁, s₁⟩
    rw [hg] at hx
    subst hx
    rw [show cursorExecutor env (some p) s = (Outcome.ok x, s₁) from hg] at h
    rw [← getPeerExecutor_peerCursors p s, hg]
    exact executeStatement_none_step h hno

/-- A dispatch that does not panic moves the cursor table as the abstract step moves its image,
with the answer of the executor of the statement's owner. -/
theorem handleQuery_refines_step {stmt : NexusStatement} {s s' : NexusBackend}
    {o : Outcome (List Response)} (h : handleQuery env stmt s = (o, s')) (hno : ¬ o.IsPanic)
    {a : Except PgWireError QueryOutput} (ha : AnsweredBy env s stmt a) :
    s'.peerCursors.toMap = s.peerCursors.toMap.step stmt a := by
  match stmt with
  | .peerDDL (.createPeer peer _) =>
    have hs : s' = s := by
      simp only [handleQuery] at h
      split at h <;> cases h <;> rfl
    subst hs
    simp [CursorMap.step]
  | .peerQuery q (.peer p) =>
    obtain ⟨x, hx, rfl⟩ := ha
    rcases hg : getPeerExecutor env p s with ⟨o₁, s₁⟩
    rw [hg] at hx
    subst hx
    have hs : (executeStatement env x q (some p) s₁).2 = _ := executeStatement_state x q (some p) s₁
    rw [show executeStatement env x q (some p) s₁ = (o, s') by
      simpa only [handleQuery, SessionM.bind_apply, hg] using h] at hs
    subst hs
    rw [← getPeerExecutor_peerCursors p s, hg]
    exact toMap_cursorUpdate_peer _ q p _
  | .peerQuery q .catalog =>
    subst ha
    obtain ⟨hc, hs'⟩ := executeStatement_none_step h hno
    rw [hs']
    exact toMap_cursorUpdate_none _ (.inl ⟨q, rfl⟩) hc
  | .peerCursor q .closeAll =>
    have ho : o = .panic (.todo "close all cursors") := (congrArg Prod.fst h).symm
    subst ho
    exact (hno trivial).elim
  | .peerCursor q (.fetch c n) =>
    obtain ⟨hc, hs'⟩ := cursorExecutor_step h hno ha
    rw [hs']
    exact toMap_cursorUpdate_none _ (.inr ⟨q, c, n, .inl rfl⟩) hc
  | .peerCursor q (.close c) =>
    obtain ⟨hc, hs'⟩ := cursorExecutor_step h hno ha
    rw [hs']
    exact toMap_cursorUpdate_none _ (.inr ⟨q, c, 0, .inr rfl⟩) hc

/-! ## Runs of a session -/

/-- A run of one session from `s` to `s'`, recorded as each request's statement with the answer
of its owner's executor: each request is dispatched, with collaborators of its own, on the state
the one before it left, and none panics. -/
inductive SessionRun : NexusBackend → List (NexusStatement × Except PgWireError QueryOutput) →
    NexusBackend → Prop
  | nil (s : NexusBackend) : SessionRun s [] s
  | cons {env : Env} {stmt : NexusStatement} {a : Except PgWireError QueryOutput}
      {o : Outcome (List Response)} {s s₁ s' : NexusBackend}
      {rest : List (NexusStatement × Except PgWireError QueryOutput)} :
      handleQuery env stmt s = (o, s₁) → ¬ o.IsPanic → AnsweredBy env s stmt a →
      SessionRun s₁ rest s' → SessionRun s ((stmt, a) :: rest) s'

/-- After every run of a session, the table stands for the abstract map folded over the run. -/
theorem sessionRun_refines {s s' : NexusBackend}
    {run : List (NexusStatement × Except PgWireError QueryOutput)} (h : SessionRun s run s') :
    s'.peerCursors.toMap = run.foldl (fun m r => m.step r.1 r.2) s.peerCursors.toMap := by
  induction h with
  | nil => rfl
  | cons hq hno ha _ ih => rw [ih, List.foldl_cons, handleQuery_refines_step hq hno ha]

/-! ## Cursors are owned by cached peers

A cursor is bound to a peer only by a query that has just resolved that peer's executor, and the
cache never loses an entry, so every owning peer of a tracked cursor has its executor cached. This
holds after every dispatch, whatever its outcome. -/

/-- Every cursor the table binds to a peer has an executor cached under that peer's name. -/
def NexusBackend.CursorsCached (s : NexusBackend) : Prop :=
  ∀ c p, s.peerCursors.getPeer c = some p → s.executors p.name ≠ none

lemma cursorsCached_new : NexusBackend.new.CursorsCached := fun _ _ h => nomatch h

/-- Removing cursors binds none anew. -/
lemma getPeer_foldl_removeCursor {cs : List String} {t : PeerCursors} {c : String} {p : Peer}
    (h : (cs.foldl PeerCursors.removeCursor t).getPeer c = some p) : t.getPeer c = some p := by
  induction cs generalizing t with
  | nil => exact h
  | cons d cs ih =>
    have h' := ih h
    by_cases hc : c = d
    · subst hc
      simp [PeerCursors.getPeer, PeerCursors.removeCursor] at h'
    · simpa [PeerCursors.getPeer, PeerCursors.removeCursor, hc] using h'

/-- A cursor that `cursorUpdate` leaves bound was bound to the same peer before, or is bound to
`peer_holder`. -/
lemma cursorUpdate_getPeer {t : PeerCursors} {peerHolder : Option Peer}
    {a : Except PgWireError QueryOutput} {c : String} {p : Peer}
    (h : (cursorUpdate t peerHolder a).getPeer c = some p) :
    t.getPeer c = some p ∨ peerHolder = some p := by
  rcases a with e | rows | rows | records | n | cs
  · exact .inl h
  · exact .inl h
  · exact .inl h
  · exact .inl h
  · cases peerHolder with
    | none => exact .inl h
    | some q =>
      by_cases hc : c = n
      · subst hc
        simp only [cursorUpdate, PeerCursors.getPeer, PeerCursors.addCursor,
          Function.update_same, Option.some.injEq] at h
        exact .inr (congrArg some h)
      · exact .inl (by simpa [cursorUpdate, PeerCursors.getPeer, PeerCursors.addCursor, hc] using h)
  · exact .inl (getPeer_foldl_removeCursor h)

/-- A resolved executor is cached under the peer's name. -/
lemma getPeerExecutor_ok_cached {p : Peer} {s s₁ : NexusBackend} {x : Executor}
    (h : getPeerExecutor env p s = (.ok x, s₁)) : s₁.executors p.name = some x := by
  rcases getPeerExecutor_cases h with ⟨e, hx, he, rfl⟩ | ⟨-, -, he, rfl⟩ | ⟨q, -, -, he, -⟩
  · cases he
    exact hx
  · cases he
    simp [NexusBackend.insertExecutor]
  · cases he

/-- A resolve keeps every entry of the cache. -/
lemma getPeerExecutor_executors_ne_none {p : Peer} {s : NexusBackend} {n : String}
    (hn : s.executors n ≠ none) : (getPeerExecutor env p s).2.executors n ≠ none := by
  rcases h : getPeerExecutor env p s with ⟨o, s₁⟩
  rcases getPeerExecutor_cases h with ⟨-, -, -, rfl⟩ | ⟨-, -, -, rfl⟩ | ⟨-, -, -, -, rfl⟩
  · exact hn
  · by_cases hp : n = p.name
    · subst hp
      simp [NexusBackend.insertExecutor]
    · simpa [NexusBackend.insertExecutor, hp] using hn
  · exact hn

lemma getPeerExecutor_cursorsCached {p : Peer} {s : NexusBackend} (hs : s.CursorsCached) :
    (getPeerExecutor env p s).2.CursorsCached := fun c q hc =>
  getPeerExecutor_executors_ne_none (hs c q (getPeerExecutor_peerCursors p s ▸ hc))

/-- Running a statement keeps the invariant when `peer_holder`, if any, has a cached executor. -/
lemma executeStatement_cursorsCached {x : Executor} {q : Stmt} {peerHolder : Option Peer}
    {s : NexusBackend} (hs : s.CursorsCached)
    (hp : ∀ p, peerHolder = some p → s.executors p.name ≠ none) :
    (executeStatement env x q peerHolder s).2.CursorsCached := by
  rw [executeStatement_state]
  intro c p hc
  rcases cursorUpdate_getPeer hc with hc | hc
  · exact hs c p hc
  · exact hp p hc

/-- Every dispatch, whatever its outcome, keeps every owning peer's executor cached. -/
theorem handleQuery_cursorsCached (stmt : NexusStatement) {s : NexusBackend}
    (hs : s.CursorsCached) : (handleQuery env stmt s).2.CursorsCached := by
  match stmt with
  | .peerDDL (.createPeer peer _) =>
    simp only [handleQuery]
    split <;> exact hs
  | .peerQuery q (.peer p) =>
    show ((getPeerExecutor env p >>= fun x => executeStatement env x q (some p)) s).2.CursorsCached
    rw [SessionM.bind_apply]
    have hs₁ : (getPeerExecutor env p s).2.CursorsCached := getPeerExecutor_cursorsCached hs
    rcases hg : getPeerExecutor env p s with ⟨o₁, s₁⟩
    rw [hg] at hs₁
    cases o₁ with
    | ok x =>
      refine executeStatement_cursorsCached hs₁ fun p' hp' => ?_
      cases hp'
      simp [getPeerExecutor_ok_cached hg]
    | err _ | panic _ => exact hs₁
  | .peerQuery q .catalog => exact executeStatement_cursorsCached hs fun _ h => nomatch h
  | .peerCursor q ev =>
    refine SessionM.bind_invariant (fun s hs => ?_) (fun peer? s hs =>
      SessionM.bind_invariant (fun s hs => ?_)
        (fun x s hs => executeStatement_cursorsCached hs fun _ h => by cases h) hs) hs
    · cases ev <;> exact hs
    · cases peer? with
      | none => exact hs
      | some p => exact getPeerExecutor_cursorsCached hs

/-! ## Routing of cursor statements -/

lemma handleQuery_fetch (q : Stmt) (c : String) (n : Nat) (s : NexusBackend) :
    handleQuery env (.peerCursor q (.fetch c n)) s =
      (cursorExecutor env (s.peerCursors.getPeer c) >>= fun x => executeStatement env x q none) s :=
  rfl

lemma handleQuery_close (q : Stmt) (c : String) (s : NexusBackend) :
    handleQuery env (.peerCursor q (.close c)) s =
      (cursorExecutor env (s.peerCursors.getPeer c) >>= fun x => executeStatement env x q none) s :=
  rfl

/-- A fetch or a close of cursor `c` runs on the executor the cache holds under the name of the
peer the map binds `c` to, and on the catalog's executor when the map does not track `c`. -/
theorem cursor_statement_routing {s : NexusBackend} (hs : s.CursorsCached) (q : Stmt)
    (c : String) (n : Nat) :
    ∃ x, (s.peerCursors.toMap c = none ∧ x = .catalog ∨
        ∃ p, s.peerCursors.toMap c = some (.peer p) ∧ s.executors p.name = some x) ∧
      handleQuery env (.peerCursor q (.fetch c n)) s = executeStatement env x q none s ∧
      handleQuery env (.peerCursor q (.close c)) s = executeStatement env x q none s := by
  rw [handleQuery_fetch, handleQuery_close]
  cases hc : s.peerCursors.getPeer c with
  | none => exact ⟨.catalog, .inl ⟨by simp [PeerCursors.toMap, hc], rfl⟩, rfl, rfl⟩
  | some p =>
    obtain ⟨x, hx⟩ := Option.ne_none_iff_exists'.mp (hs c p hc)
    have hg : cursorExecutor env (some p) s = (.ok x, s) := by
      simp [cursorExecutor, getPeerExecutor, hx]
    refine ⟨x, .inr ⟨p, by simp [PeerCursors.toMap, hc], hx⟩, ?_, ?_⟩ <;>
      rw [SessionM.bind_apply, hg]

/-! ## Where the table aborts -/

/-- Collaborators whose every statement declares the cursor named c. -/
def Env.declaring : Env := { Env.accepting with execute := fun _ _ => .ok (.cursor (.created "c")) }

/-- The session after its first request, a `DECLARE` of cursor c on a Postgres peer. -/
def afterDeclare : NexusBackend :=
  (handleQuery Env.declaring (.peerQuery ⟨"DECLARE c CURSOR FOR SELECT 1"⟩ (.peer postgresPeer))
    NexusBackend.new).2

/-- A cursor declared on a peer, then fetched: the fetch runs on the executor the declaration
resolved, which the cache holds under the peer's name. -/
theorem declared_cursor_fetched_on_its_peer :
    afterDeclare.CursorsCached ∧ ∃ x, (afterDeclare.peerCursors.toMap "c" = none ∧ x = .catalog ∨
        ∃ p, afterDeclare.peerCursors.toMap "c" = some (.peer p) ∧
          afterDeclare.executors p.name = some x) ∧
      handleQuery Env.accepting (.peerCursor ⟨"FETCH 1 c"⟩ (.fetch "c" 1)) afterDeclare =
        executeStatement Env.accepting x ⟨"FETCH 1 c"⟩ none afterDeclare ∧
      handleQuery Env.accepting (.peerCursor ⟨"FETCH 1 c"⟩ (.close "c")) afterDeclare =
        executeStatement Env.accepting x ⟨"FETCH 1 c"⟩ none afterDeclare :=
  have hs : afterDeclare.CursorsCached := handleQuery_cursorsCached _ cursorsCached_new
  ⟨hs, cursor_statement_routing hs _ _ _⟩

/-- The two requests of the spec's example, each with its executor's answer: a `DECLARE` of
cursor c on a Postgres peer, then a fetch on c. -/
def declareThenFetch : List (NexusStatement × Except PgWireError QueryOutput) :=
  [(.peerQuery ⟨"DECLARE c CURSOR FOR SELECT 1"⟩ (.peer postgresPeer), .ok (.cursor (.created "c"))),
   (.peerCursor ⟨"FETCH 1 c"⟩ (.fetch "c" 1), .ok (.affectedRows 0))]

lemma declareThenFetch_sessionRun : ∃ s', SessionRun NexusBackend.new declareThenFetch s' :=
  ⟨_, .cons (show handleQuery Env.declaring _ _ = (_, _) from rfl) id ⟨.peer 0, rfl, rfl⟩
    (.cons (show handleQuery Env.accepting _ _ = (_, _) from rfl) id ⟨.peer 0, rfl, rfl⟩
      (.nil _))⟩

/-- The example run: the table after it stands for the map that binds c to the peer. -/
theorem declare_then_fetch_refines :
    ∃ s', SessionRun NexusBackend.new declareThenFetch s' ∧
      s'.peerCursors.toMap =
        declareThenFetch.foldl (fun m r => m.step r.1 r.2) NexusBackend.new.peerCursors.toMap :=
  let ⟨s', h⟩ := declareThenFetch_sessionRun
  ⟨s', h, sessionRun_refines h⟩

/-- A catalog query whose executor declares a cursor unwraps the missing `peer_holder`, and
`CloseAll` is `todo!`: the two dispatches panic on every state. -/
theorem cursor_table_aborts (q : Stmt) (s : NexusBackend) :
    (handleQuery Env.declaring (.peerQuery q .catalog) s).1 = .panic .unwrapNone ∧
      (handleQuery env (.peerCursor q .closeAll) s).1 = .panic (.todo "close all cursors") :=
  ⟨rfl, rfl⟩

end Nexus
