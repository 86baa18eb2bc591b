import NexusServer.Session

/-!
# The locks of a dispatch

`handle_query` and the `execute_statement` and `get_peer_executor` calls it makes take three kinds
of lock of the session: the tokio mutexes `peer_cursors` and `catalog`, and the lock of a shard of
the DashMap `executors`, read by `executors.get` and written by `executors.insert`. A guard lives
to the end of its scope: the guard of `peer_cursors` in the PeerCursor branch to the end of the
block that computes the executor, the guard of `catalog` to the end of its arm or block, the `Ref`
of `executors.get` to the end of the `if let`.

`handleQueryL` is `handle_query` with these scopes (`LockedM.withLock`) and its awaits on external
systems (`LockedM.await`) written out. Run on a state it returns what `handleQuery` returns
(`handleQueryL_run`), together with the events it performed, in order.

The discipline of the events (`Keeps`) ranks the locks, `peer_cursors` below `catalog` and the
shards (`Lock.rank`): a guard is requested only above every guard held, no DashMap guard is held
across an await, no guard at all while a statement executes, and every guard is dropped by the
end. Every dispatch keeps it, for every statement, state and answer of the collaborators
(`handleQueryL_disciplined`). The facts of `LockDiscipline` follow from it
(`LockDiscipline.of_keeps`): no task requests a lock it holds, `peer_cursors` was taken first
whenever it is held with `catalog`, and no DashMap guard is held at an await or when another guard
is requested.
-/

namespace Nexus

/-! ## Locks and events -/

/-- The locks of one session: the tokio mutexes `peer_cursors` and `catalog`, and the lock of the
`i`-th shard of the DashMap `executors`. -/
inductive Lock where
  | peerCursors
  | catalog
  | shard (i : Nat)
deriving DecidableEq, Repr

/-- The lock order of the dispatcher: `peer_cursors` first, then `catalog` or a shard. -/
def Lock.rank : Lock → Nat
  | .peerCursors => 0
  | .catalog => 1
  | .shard _ => 1

/-- A lock whose waiting blocks the worker thread: the DashMap shard locks. A task waiting for a
tokio mutex is suspended instead. -/
def Lock.sync : Lock → Bool
  | .shard _ => true
  | _ => false

lemma Lock.rank_le_one (l : Lock) : l.rank ≤ 1 := by
  cases l <;> simp [Lock.rank]

/-- A lock ranked below another is `peer_cursors`, a tokio mutex. -/
lemma Lock.sync_of_rank_lt {l l' : Lock} (h : l.rank < l'.rank) : l.sync = false := by
  cases l with
  | peerCursors => rfl
  | catalog | shard _ => exact absurd (Nat.lt_of_lt_of_le h l'.rank_le_one) (Nat.lt_irrefl 1)

/-- How a guard holds its lock: the `Ref` of `executors.get` is a read guard, every other guard is
exclusive. -/
inductive Mode where
  | shared
  | exclusive
deriving DecidableEq, Repr

/-- The external futures a dispatch awaits. -/
inductive Future where
  /-- `Catalog::create_peer`. -/
  | createPeer
  /-- The constructor of a BigQuery or Postgres executor. -/
  | newExecutor
  /-- `QueryExecutor::execute`. -/
  | execute
deriving DecidableEq, Repr

/-- What a dispatch does that concerns the session's locks. -/
inductive Event where
  /-- It requests a guard of `l` (`lock().await`, or the lock a DashMap call takes). -/
  | acquire (l : Lock) (m : Mode)
  /-- It drops its guard of `l`. -/
  | release (l : Lock)
  /-- It awaits an external future. -/
  | await (f : Future)
deriving DecidableEq, Repr

/-- The guards held after an event, the last taken first. -/
def Event.apply : Event → List (Lock × Mode) → List (Lock × Mode)
  | .acquire l m, h => (l, m) :: h
  | .release l, h => h.filter fun p => p.1 != l
  | .await _, h => h

/-- What the discipline allows while the guards `h` are held: requesting a lock ranked above every
held one; dropping a held guard; awaiting with no DashMap guard held, and a statement's execution
with no guard held at all. -/
def Event.Allowed (h : List (Lock × Mode)) : Event → Prop
  | .acquire l _ => ∀ p ∈ h, p.1.rank < l.rank
  | .release l => ∃ m, (l, m) ∈ h
  | .await f => (∀ p ∈ h, p.1.sync = false) ∧ (f = .execute → h = [])

/-- A lock requested under the discipline is not held. -/
lemma Event.Allowed.not_held {h : List (Lock × Mode)} {l : Lock} {m : Mode}
    (he : Event.Allowed h (.acquire l m)) : ∀ p ∈ h, p.1 ≠ l :=
  fun p hp => ne_of_apply_ne Lock.rank (Nat.ne_of_lt (he p hp))

/-! ## The discipline along a run of events -/

/-- The events `tr`, performed with the guards `h` held, each keep the discipline, and leave the
guards `h'` held. -/
def Keeps : List (Lock × Mode) → List Event → List (Lock × Mode) → Prop
  | h, [], h' => h' = h
  | h, e :: tr, h' => e.Allowed h ∧ Keeps (e.apply h) tr h'

lemma keeps_append {h h'' : List (Lock × Mode)} {a b : List Event} :
    Keeps h (a ++ b) h'' ↔ ∃ h', Keeps h a h' ∧ Keeps h' b h'' := by
  induction a generalizing h with
  | nil => simp [Keeps]
  | cons e a ih => simp [Keeps, ih, and_assoc, exists_and_left]

/-- The guards left by a run of events are those the events leave, one after the other. -/
lemma Keeps.held_eq {h h' : List (Lock × Mode)} {tr : List Event} (hk : Keeps h tr h') :
    h' = tr.foldl (fun h e => e.apply h) h := by
  induction tr generalizing h with
  | nil => exact hk
  | cons e tr ih => exact ih hk.2

/-- The guards held after the events `tr` of a task that started with none. -/
def heldAfter (tr : List Event) : List (Lock × Mode) := tr.foldl (fun h e => e.apply h) []

/-- In a run that keeps the discipline, each event is allowed with the guards its prefix left. -/
lemma Keeps.allowed {pre post : List Event} {e : Event} {h' : List (Lock × Mode)}
    (hk : Keeps [] (pre ++ e :: post) h') : e.Allowed (heldAfter pre) := by
  obtain ⟨h₁, hpre, hpost⟩ := keeps_append.mp hk
  rw [hpre.held_eq] at hpost
  exact hpost.1

/-- The guards held, the last taken first, descend in the lock order. -/
def InOrder (h : List (Lock × Mode)) : Prop := h.Pairwise fun a b => b.1.rank < a.1.rank

lemma InOrder.apply {h : List (Lock × Mode)} {e : Event} (hh : InOrder h) (he : e.Allowed h) :
    InOrder (e.apply h) := by
  cases e with
  | acquire l m => exact List.pairwise_cons.mpr ⟨he, hh⟩
  | release l => exact hh.sublist (List.filter_sublist _)
  | await f => exact hh

lemma Keeps.inOrder {h h' : List (Lock × Mode)} {tr : List Event} (hk : Keeps h tr h')
    (hh : InOrder h) : InOrder h' := by
  induction tr generalizing h with
  | nil => exact hk ▸ hh
  | cons e tr ih => exact ih hk.2 (hh.apply hk.1)

/-- Held together, the guard of `catalog` was taken after that of `peer_cursors`. -/
lemma InOrder.cursors_before_catalog {h : List (Lock × Mode)} (hh : InOrder h) {m m' : Mode}
    (hc : (.catalog, m) ∈ h) (hp : (.peerCursors, m') ∈ h) :
    ∃ a b, h = a ++ (.catalog, m) :: b ∧ (.peerCursors, m') ∈ b := by
  obtain ⟨a, b, rfl⟩ := List.append_of_mem hc
  refine ⟨a, b, rfl, ?_⟩
  rcases List.mem_append.mp hp with ha | hb
  · have := (List.pairwise_append.mp hh).2.2 _ ha _ (List.mem_cons_self _ _)
    simp [Lock.rank] at this
  · simpa using hb

/-- The lock discipline of the events `tr` of one task. -/
structure LockDiscipline (tr : List Event) : Prop where
  /-- No lock is requested while the task holds a guard of it. -/
  no_reentry : ∀ pre l m post, tr = pre ++ .acquire l m :: post → ∀ p ∈ heldAfter pre, p.1 ≠ l
  /-- Whenever the guards of `peer_cursors` and `catalog` are held together, the guard of
  `catalog` was taken after that of `peer_cursors`. -/
  cursors_before_catalog : ∀ pre post m m', tr = pre ++ post → (.catalog, m) ∈ heldAfter pre →
    (.peerCursors, m') ∈ heldAfter pre →
    ∃ a b, heldAfter pre = a ++ (.catalog, m) :: b ∧ (.peerCursors, m') ∈ b
  /-- No DashMap guard is held at an await. -/
  sync_free_at_await : ∀ pre f post, tr = pre ++ .await f :: post →
    ∀ p ∈ heldAfter pre, p.1.sync = false
  /-- No guard is requested while a DashMap guard is held. -/
  sync_free_at_acquire : ∀ pre l m post, tr = pre ++ .acquire l m :: post →
    ∀ p ∈ heldAfter pre, p.1.sync = false
  /-- No guard is held while a statement executes. -/
  free_at_execute : ∀ pre post, tr = pre ++ .await .execute :: post → heldAfter pre = []
  /-- Every guard is dropped by the end. -/
  released : heldAfter tr = []

/-- A run from no guard to no guard that keeps the discipline has the lock discipline. -/
theorem LockDiscipline.of_keeps {tr : List Event} (hk : Keeps [] tr []) : LockDiscipline tr where
  no_reentry pre l m post htr := by
    subst htr
    exact (hk.allowed : Event.Allowed _ (.acquire l m)).not_held
  cursors_before_catalog pre post m m' htr hc hp := by
    subst htr
    obtain ⟨h₁, hpre, -⟩ := keeps_append.mp hk
    exact (hpre.held_eq ▸ hpre.inOrder List.Pairwise.nil).cursors_before_catalog hc hp
  sync_free_at_await pre f post htr := by
    subst htr
    exact (hk.allowed : Event.Allowed _ (.await f)).1
  sync_free_at_acquire pre l m post htr p hp := by
    subst htr
    exact Lock.sync_of_rank_lt ((hk.allowed : Event.Allowed _ (.acquire l m)) p hp)
  free_at_execute pre post htr := by
    subst htr
    exact (hk.allowed : Event.Allowed _ (.await .execute)).2 rfl
  released := hk.held_eq.symm

/-! ## Operations that record their lock events -/

/-- A session operation that also records, in order, the lock events and awaits it performs. -/
def LockedM (α : Type) : Type := NexusBackend → (Outcome α × NexusBackend) × List Event

namespace LockedM

/-- Sequencing: an error or a panic ends the operation with the events performed so far. -/
def bind {α β : Type} (m : LockedM α) (f : α → LockedM β) : LockedM β := fun s =>
  match m s with
  | ((.ok a, s'), tr) => ((f a s').1, tr ++ (f a s').2)
  | ((.err e, s'), tr) => ((.err e, s'), tr)
  | ((.panic p, s'), tr) => ((.panic p, s'), tr)

instance : Monad LockedM where
  pure a := fun s => ((.ok a, s), [])
  bind := bind

/-- A step that takes no lock and awaits nothing. -/
def ofSession {α : Type} (m : SessionM α) : LockedM α := fun s => (m s, [])

/-- An await on an external future. -/
def await (f : Future) : LockedM Unit := fun s => ((.ok (), s), [.await f])

/-- The scope of a guard of `l`: the guard is taken at its start and dropped at its end, however
the scope is left: with a value, with the error of a `?`, or by the unwinding of a panic. -/
def withLock {α : Type} (l : Lock) (mode : Mode) (m : LockedM α) : LockedM α := fun s =>
  ((m s).1, .acquire l mode :: ((m s).2 ++ [.release l]))

/-- The session operation, without its events. -/
def run {α : Type} (m : LockedM α) : SessionM α := fun s => (m s).1

lemma bind_apply {α β : Type} (m : LockedM α) (f : α → LockedM β) (s : NexusBackend) :
    (m >>= f) s = match m s with
      | ((.ok a, s'), tr) => ((f a s').1, tr ++ (f a s').2)
      | ((.err e, s'), tr) => ((.err e, s'), tr)
      | ((.panic p, s'), tr) => ((.panic p, s'), tr) := rfl

lemma run_bind {α β : Type} (m : LockedM α) (f : α → LockedM β) :
    (m >>= f).run = m.run >>= fun a => (f a).run := by
  funext s
  simp only [run, bind_apply, SessionM.bind_apply]
  rcases m s with ⟨⟨o, s'⟩, tr⟩
  cases o <;> rfl

@[simp] lemma run_pure {α : Type} (a : α) : (pure a : LockedM α).run = pure a := rfl

@[simp] lemma run_ofSession {α : Type} (m : SessionM α) : (ofSession m).run = m := rfl

@[simp] lemma run_await (f : Future) : (await f).run = pure () := rfl

@[simp] lemma run_withLock {α : Type} (l : Lock) (mode : Mode) (m : LockedM α) :
    (withLock l mode m).run = m.run := rfl

/-- Every run of the operation, with the guards `h` held, keeps the discipline and gives back
exactly the guards `h`. -/
def Disciplined {α : Type} (h : List (Lock × Mode)) (m : LockedM α) : Prop :=
  ∀ s, Keeps h (m s).2 h

variable {h : List (Lock × Mode)}

lemma disciplined_pure {α : Type} (a : α) : (pure a : LockedM α).Disciplined h := fun _ => rfl

lemma disciplined_ofSession {α : Type} (m : SessionM α) : (ofSession m).Disciplined h :=
  fun _ => rfl

lemma disciplined_await {f : Future} (hsync : ∀ p ∈ h, p.1.sync = false)
    (hexec : f = .execute → h = []) : (await f).Disciplined h :=
  fun _ => ⟨⟨hsync, hexec⟩, rfl⟩

lemma disciplined_bind {α β : Type} {m : LockedM α} {f : α → LockedM β} (hm : m.Disciplined h)
    (hf : ∀ a, (f a).Disciplined h) : (m >>= f).Disciplined h := by
  intro s
  have hms := hm s
  rw [bind_apply]
  rcases hs : m s with ⟨⟨o, s'⟩, tr⟩
  rw [hs] at hms
  cases o with
  | ok a => exact keeps_append.mpr ⟨h, hms, hf a s'⟩
  | err _ | panic _ => exact hms

lemma disciplined_withLock {α : Type} {l : Lock} {mode : Mode} {m : LockedM α}
    (hl : ∀ p ∈ h, p.1.rank < l.rank) (hm : m.Disciplined ((l, mode) :: h)) :
    (withLock l mode m).Disciplined h := by
  intro s
  have hne : ∀ p ∈ h, (p.1 != l) = true := fun p hp =>
    bne_iff_ne.mpr (@Event.Allowed.not_held h l mode hl p hp)
  refine ⟨hl, keeps_append.mpr ⟨_, hm s, ⟨mode, List.mem_cons_self _ _⟩, ?_⟩⟩
  show h = List.filter (fun p => p.1 != l) ((l, mode) :: h)
  rw [List.filter_cons_of_neg (by simp), List.filter_eq_self.mpr hne]

end LockedM

open LockedM

/-! ## The dispatcher with its locks -/

variable (env : Env) (shardOf : String → Nat)

/-- `catalog.lock().await` and `catalog.get_executor()`: the catalog's executor, read under the
guard of `catalog`, which the end of the enclosing block drops. -/
def catalogExecutorL : LockedM Executor := withLock .catalog .exclusive (pure .catalog)

/-- The construction step of `get_peer_executor`: the constructor of a BigQuery or Postgres
config is awaited and unwrapped; any other config panics with no await. -/
def newExecutorL (peer : Peer) : LockedM Unit :=
  (match peer.config with
    | some (.bigqueryConfig _) | some (.postgresConfig _) => await .newExecutor
    | _ => pure ()) >>= fun () =>
  ofSession (SessionM.lift (match newExecutor env peer with
    | .ok () => .ok ()
    | .error p => .panic p))

/-- `NexusBackend::get_peer_executor` with the guards of its DashMap calls, the shard of the
peer's name being `shardOf peer.name`: `executors.get` reads under a read guard, which the end of
the `if let` drops; on a miss the construction is awaited with no guard held, and
`executors.insert` writes under a write guard. -/
def getPeerExecutorL (peer : Peer) : LockedM Executor :=
  withLock (.shard (shardOf peer.name)) .shared
      (ofSession fun s => (.ok (s.executors peer.name), s)) >>= fun
    | some executor => pure executor
    | none => newExecutorL env peer >>= fun () =>
      withLock (.shard (shardOf peer.name)) .exclusive
        (ofSession fun s => (.ok (.peer s.constructed), s.insertExecutor peer.name))

/-- `NexusBackend::execute_statement`: the executor's answer is awaited with no guard held; a
cursor modification is applied under the guard of `peer_cursors`, which the end of the arm drops,
also when `peer_holder.unwrap()` panics. -/
def executeStatementL (executor : Executor) (stmt : Stmt) (peerHolder : Option Peer) :
    LockedM (List Response) :=
  await .execute >>= fun () =>
    match env.execute executor stmt with
    | .ok (.cursor _) =>
      withLock .peerCursors .exclusive (ofSession (executeStatement env executor stmt peerHolder))
    | _ => ofSession (executeStatement env executor stmt peerHolder)

/-- The executor of a cursor statement, resolved under the guard of `peer_cursors`: the
catalog's, or the owning peer's. -/
def cursorExecutorL : Option Peer → LockedM Executor
  | none => catalogExecutorL
  | some peer => getPeerExecutorL env shardOf peer

/-- `NexusBackend::handle_query` with its lock scopes: `create_peer` is awaited under the guard of
`catalog`; the executor of a catalog query is read under it; in the PeerCursor branch the guard of
`peer_cursors` covers the lookup of the cursor and the resolution of its executor, and the end of
the block drops it before `execute_statement`. -/
def handleQueryL : NexusStatement → LockedM (List Response)
  | .peerDDL ddl =>
    withLock .catalog .exclusive
      (await .createPeer >>= fun () => ofSession (handleQuery env (.peerDDL ddl)))
  | .peerQuery stmt (.peer peer) =>
    getPeerExecutorL env shardOf peer >>= fun executor =>
      executeStatementL env executor stmt (some peer)
  | .peerQuery stmt .catalog =>
    catalogExecutorL >>= fun executor => executeStatementL env executor stmt none
  | .peerCursor stmt cursor =>
    withLock .peerCursors .exclusive (ofSession (cursorPeer cursor) >>= cursorExecutorL env shardOf)
      >>= fun executor => executeStatementL env executor stmt none

/-! ## The recorded dispatcher is the dispatcher -/

lemma newExecutorL_run (peer : Peer) :
    (newExecutorL env peer).run = SessionM.lift (match newExecutor env peer with
      | .ok () => .ok ()
      | .error p => .panic p) := by
  rw [newExecutorL, run_bind]
  split <;> rfl

lemma getPeerExecutorL_run (peer : Peer) :
    (getPeerExecutorL env shardOf peer).run = getPeerExecutor env peer := by
  funext s
  simp only [getPeerExecutorL, run_bind, run_withLock, run_ofSession, SessionM.bind_apply,
    getPeerExecutor]
  cases s.executors peer.name with
  | some x => rfl
  | none =>
    simp only [run_bind, newExecutorL_run, SessionM.lift_apply, SessionM.bind_apply]
    cases newExecutor env peer <;> rfl

lemma executeStatementL_run (executor : Executor) (stmt : Stmt) (peerHolder : Option Peer) :
    (executeStatementL env executor stmt peerHolder).run =
      executeStatement env executor stmt peerHolder := by
  rw [executeStatementL, run_bind, run_await, SessionM.pure_bind]
  split <;> rfl

lemma cursorExecutorL_run (peer? : Option Peer) :
    (cursorExecutorL env shardOf peer?).run = cursorExecutor env peer? := by
  cases peer? with
  | none => rfl
  | some peer => exact getPeerExecutorL_run env shardOf peer

/-- Without its events, the recorded dispatcher is `handle_query`. -/
theorem handleQueryL_run (stmt : NexusStatement) :
    (handleQueryL env shardOf stmt).run = handleQuery env stmt := by
  match stmt with
  | .peerDDL ddl => rfl
  | .peerQuery q (.peer peer) =>
    simp only [handleQueryL, run_bind, getPeerExecutorL_run, executeStatementL_run]
    rfl
  | .peerQuery q .catalog =>
    simp only [handleQueryL, run_bind, executeStatementL_run]
    rfl
  | .peerCursor q cursor =>
    simp only [handleQueryL, run_bind, run_withLock, run_ofSession, cursorExecutorL_run,
      executeStatementL_run, SessionM.bind_assoc]
    rfl

/-! ## Every dispatch keeps the discipline -/

variable {env shardOf}

lemma newExecutorL_disciplined (peer : Peer) {h : List (Lock × Mode)}
    (hh : ∀ p ∈ h, p.1.sync = false) : (newExecutorL env peer).Disciplined h := by
  refine disciplined_bind ?_ fun _ => disciplined_ofSession _
  split <;> first | exact disciplined_pure () | exact disciplined_await hh nofun

/-- With at most the guard of `peer_cursors` held, resolving a peer's executor keeps the
discipline. -/
lemma getPeerExecutorL_disciplined (peer : Peer) {h : List (Lock × Mode)}
    (hh : ∀ p ∈ h, p.1 = .peerCursors) : (getPeerExecutorL env shardOf peer).Disciplined h := by
  have hrank : ∀ p ∈ h, p.1.rank < (Lock.shard (shardOf peer.name)).rank := fun p hp => by
    simp [hh p hp, Lock.rank]
  refine disciplined_bind (disciplined_withLock hrank (disciplined_ofSession _)) fun x => ?_
  cases x with
  | some executor => exact disciplined_pure executor
  | none =>
    refine disciplined_bind (newExecutorL_disciplined peer fun p hp => by simp [hh p hp, Lock.sync])
      fun _ => disciplined_withLock hrank (disciplined_ofSession _)

lemma catalogExecutorL_disciplined {h : List (Lock × Mode)} (hh : ∀ p ∈ h, p.1 = .peerCursors) :
    catalogExecutorL.Disciplined h :=
  disciplined_withLock (fun p hp => by simp [hh p hp, Lock.rank]) (disciplined_pure _)

lemma executeStatementL_disciplined (executor : Executor) (stmt : Stmt) (peerHolder : Option Peer) :
    (executeStatementL env executor stmt peerHolder).Disciplined [] := by
  refine disciplined_bind (disciplined_await (by simp) fun _ => rfl) fun _ => ?_
  split
  · exact disciplined_withLock (by simp) (disciplined_ofSession _)
  · exact disciplined_ofSession _

/-- Every dispatch, whatever the statement, the state and the answers of the collaborators, keeps
the discipline, from no guard held to no guard held. -/
theorem handleQueryL_disciplined (stmt : NexusStatement) :
    (handleQueryL env shardOf stmt).Disciplined [] := by
  match stmt with
  | .peerDDL ddl =>
    refine disciplined_withLock (by simp) (disciplined_bind ?_ fun _ => disciplined_ofSession _)
    exact disciplined_await (by simp [Lock.sync]) nofun
  | .peerQuery q (.peer peer) =>
    exact disciplined_bind (getPeerExecutorL_disciplined peer (by simp))
      fun x => executeStatementL_disciplined x q _
  | .peerQuery q .catalog =>
    exact disciplined_bind (catalogExecutorL_disciplined (by simp))
      fun x => executeStatementL_disciplined x q _
  | .peerCursor q cursor =>
    have hpc : ∀ p ∈ [((Lock.peerCursors, Mode.exclusive))], p.1 = .peerCursors := by simp
    refine disciplined_bind (disciplined_withLock (by simp) ?_)
      fun x => executeStatementL_disciplined x q _
    refine disciplined_bind (disciplined_ofSession _) fun peer? => ?_
    cases peer? with
    | none => exact catalogExecutorL_disciplined hpc
    | some peer => exact getPeerExecutorL_disciplined peer hpc

/-- A fetch of a cursor owned by a Postgres peer whose executor is not cached yet: the guard of
`peer_cursors` is held across the lookup, the construction and the insert, and dropped before
the statement executes. -/
example :
    (handleQueryL Env.accepting (fun _ => 0) (.peerCursor ⟨"FETCH 1 c"⟩ (.fetch "c" 1))
      { NexusBackend.new with
        peerCursors := PeerCursors.new.addCursor "c" ⟨"pg", some (.postgresConfig "host=pg")⟩ }).2 =
      [.acquire .peerCursors .exclusive, .acquire (.shard 0) .shared, .release (.shard 0),
        .await .newExecutor, .acquire (.shard 0) .exclusive, .release (.shard 0),
        .release .peerCursors, .await .execute] := rfl

end Nexus
