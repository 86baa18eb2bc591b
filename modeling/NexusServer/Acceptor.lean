import NexusServer.ErrorFrame

/-!
# The accept loop

The loop of `main` takes one incoming connection per turn. It unwraps `listener.accept()`,
connects a catalog for the client, and spawns the connection task with that catalog; when the
catalog connection fails it writes the fatal error frame to the client, shuts the socket down and
goes on to the next connection. `write_all`, `shutdown` and the spawn are each followed by a `?`,
which returns their error from `main` and so ends the server.

`Incoming` records what the world answers to each step of a turn, and `acceptLoop` runs the loop
over a run of incoming connections. The loop goes on accepting exactly when every step that each
turn takes succeeds (`acceptLoop_keeps_accepting_iff`): a failed accept, write, shutdown or spawn
ends it, and the connections after it are never served
(`acceptor_exits_on_connection_failure`). Along a run in which every step succeeds, each
connection is served: its task is spawned, or it receives the fatal frame of its catalog error
(`acceptLoop_serves`).
-/

namespace Nexus

/-- What the world answers to each step of one turn of the loop, an error with its text. -/
structure Incoming where
  /-- `listener.accept()`. -/
  accept : Except String Unit
  /-- `Catalog::new` for the client. -/
  catalog : Except String Unit
  /-- `socket.write_all` of the fatal error frame. -/
  writeAll : Except String Unit
  /-- `socket.shutdown()`. -/
  shutdown : Except String Unit
  /-- The spawn of the connection task. -/
  spawn : Except String Unit
deriving Repr

/-- What a turn did with its connection. -/
inductive Served where
  /-- The connection task was spawned. -/
  | spawned
  /-- The client was sent `frame` and its socket was shut down. -/
  | refused (frame : List UInt8)
deriving DecidableEq, Repr

/-- How `main` leaves the loop: a `?` returns an error, or an unwrap panics. -/
inductive LoopExit where
  | error (e : String)
  | panic (p : Panic)
deriving DecidableEq, Repr

/-- One turn of the loop of `main` on the connection `c`. -/
def acceptTurn (c : Incoming) : Except LoopExit Served :=
  match c.accept with
  | .error e => .error (.panic (.unwrapErr e))
  | .ok () =>
    match c.catalog with
    | .error e =>
      match c.writeAll with
      | .error w => .error (.error w)
      | .ok () =>
        match c.shutdown with
        | .error w => .error (.error w)
        | .ok () => .ok (.refused (fatalErrorFrame e))
    | .ok () =>
      match c.spawn with
      | .error w => .error (.error w)
      | .ok () => .ok .spawned

/-- The loop of `main` over a run of incoming connections: what it did with each connection it
served, and how it left the loop, `none` while it is still accepting. -/
def acceptLoop : List Incoming → List Served × Option LoopExit
  | [] => ([], none)
  | c :: cs =>
    match acceptTurn c with
    | .error x => ([], some x)
    | .ok sv => (sv :: (acceptLoop cs).1, (acceptLoop cs).2)

/-! ## One turn -/

/-- Every step the turn on `c` takes succeeds: the accept, and then the spawn, or the write and
the shutdown when the catalog connection fails. -/
def Incoming.stepsSucceed (c : Incoming) : Bool :=
  c.accept.toBool && match c.catalog with
    | .ok () => c.spawn.toBool
    | .error _ => c.writeAll.toBool && c.shutdown.toBool

/-- What a turn whose steps succeed does: spawn the task, or refuse the client with the fatal
frame of its catalog error. -/
def Incoming.served (c : Incoming) : Served :=
  match c.catalog with
  | .ok () => .spawned
  | .error e => .refused (fatalErrorFrame e)

/-- A turn returns to the loop exactly when its steps succeed, and then it serves its
connection. -/
lemma acceptTurn_eq_ok_iff (c : Incoming) (sv : Served) :
    acceptTurn c = .ok sv ↔ c.stepsSucceed ∧ sv = c.served := by
  rcases c with ⟨_ | ⟨⟩, _ | ⟨⟩, _ | ⟨⟩, _ | ⟨⟩, _ | ⟨⟩⟩ <;>
    simp [acceptTurn, Incoming.stepsSucceed, Incoming.served, Except.toBool, eq_comm]

lemma acceptTurn_ok_of_stepsSucceed {c : Incoming} (h : c.stepsSucceed) :
    acceptTurn c = .ok c.served :=
  (acceptTurn_eq_ok_iff c c.served).mpr ⟨h, rfl⟩

lemma acceptTurn_error_of_not_stepsSucceed {c : Incoming} (h : c.stepsSucceed = false) :
    ∃ x, acceptTurn c = .error x := by
  cases ht : acceptTurn c with
  | error x => exact ⟨x, rfl⟩
  | ok sv => simp [(acceptTurn_eq_ok_iff c sv).mp ht |>.1] at h

/-! ## Runs of the loop -/

/-- The loop is still accepting after a run exactly when every step of every turn succeeded. -/
theorem acceptLoop_keeps_accepting_iff (cs : List Incoming) :
    (acceptLoop cs).2 = none ↔ ∀ c ∈ cs, c.stepsSucceed := by
  induction cs with
  | nil => simp [acceptLoop]
  | cons c cs ih =>
    simp only [List.mem_cons, forall_eq_or_imp, ← ih]
    cases hc : c.stepsSucceed with
    | true => simp [acceptLoop, acceptTurn_ok_of_stepsSucceed hc]
    | false =>
      obtain ⟨x, hx⟩ := acceptTurn_error_of_not_stepsSucceed hc
      simp [acceptLoop, hx]

/-- Along a run in which every step succeeds, the loop serves every connection in turn. -/
theorem acceptLoop_serves {cs : List Incoming} (h : ∀ c ∈ cs, c.stepsSucceed) :
    (acceptLoop cs).1 = cs.map Incoming.served := by
  induction cs with
  | nil => rfl
  | cons c cs ih =>
    have hc := h c (List.mem_cons_self c cs)
    simp only [acceptLoop, acceptTurn_ok_of_stepsSucceed hc, List.map_cons,
      ih fun c' hc' => h c' (List.mem_cons_of_mem c hc')]

/-- A run of two clients: the first one's catalog connection fails and it is sent the fatal frame,
the second one is spawned. -/
theorem acceptLoop_serves_refused_then_spawned :
    (∀ c ∈ [⟨.ok (), .error "timeout", .ok (), .ok (), .error "unused"⟩,
        ⟨.ok (), .ok (), .error "unused", .error "unused", .ok ()⟩], Incoming.stepsSucceed c) ∧
      (acceptLoop [⟨.ok (), .error "timeout", .ok (), .ok (), .error "unused"⟩,
        ⟨.ok (), .ok (), .error "unused", .error "unused", .ok ()⟩]).1 =
        [.refused (fatalErrorFrame "timeout"), .spawned] :=
  ⟨by decide, acceptLoop_serves (by decide)⟩

/-- Each failure that concerns one connection ends the loop, whatever connections come after it:
the write of the fatal frame to a client that has gone, the shutdown of its socket, the spawn of
a connection task, and the accept. -/
theorem acceptor_exits_on_connection_failure (c : Incoming) (e w : String)
    (cs : List Incoming) :
    acceptLoop ({ c with accept := .ok (), catalog := .error e, writeAll := .error w } :: cs) =
        ([], some (.error w)) ∧
      acceptLoop ({ c with accept := .ok (), catalog := .error e, writeAll := .ok (),
                           shutdown := .error w } :: cs) = ([], some (.error w)) ∧
      acceptLoop ({ c with accept := .ok (), catalog := .ok (), spawn := .error w } :: cs) =
        ([], some (.error w)) ∧
      acceptLoop ({ c with accept := .error w } :: cs) = ([], some (.panic (.unwrapErr w))) :=
  ⟨rfl, rfl, rfl, rfl⟩

end Nexus
