import Mathlib.Logic.Function.Basic
import Mathlib.Data.Nat.Defs
import Mathlib.Algebra.Group.Nat.Basic
import Mathlib.Algebra.Group.Int

/-!
# The data model of the nexus server

The values that `nexus/server/src/main.rs` passes between the per-connection session handler
and its external collaborators: peers and their configurations, the analyzer's classified
statements, the outputs of a peer executor and the responses that go back to the client.

A call of the server ends in one of three ways (`Outcome`): with a value, with a `PgWireError`
returned to the client, or in a panic, which ends the connection's task; `Panic` names the abort
sites of the source. A session operation (`SessionM`) runs on the per-connection state, the
`NexusBackend` of one connection with its cursor table and its executor cache, and returns its
outcome together with the state it leaves, also when it fails.
-/

namespace Nexus

/-! ## Peers and statements -/

/-- The backend-specific settings of a peer (`pt::peers::peer::Config`). The server looks only at
the variant; the settings go to the executor's constructor, which is external. -/
inductive Config where
  | bigqueryConfig (c : String)
  | postgresConfig (c : String)
  /-- Any backend kind other than BigQuery and Postgres. -/
  | other (kind : String) (c : String)
deriving DecidableEq, Repr

/-- A configured external data system (`pt::peers::Peer`). -/
structure Peer where
  name : String
  config : Option Config
deriving DecidableEq, Repr

/-- The DDL statements of the analyzer (`analyzer::PeerDDL`). -/
inductive PeerDDL where
  | createPeer (peer : Peer) (ifNotExists : Bool)
deriving DecidableEq, Repr

/-- The routing decision the analyzer attaches to a query (`analyzer::QueryAssocation`). -/
inductive QueryAssocation where
  | peer (peer : Peer)
  | catalog
deriving DecidableEq, Repr

/-- The cursor statements of the analyzer (`analyzer::CursorEvent`). -/
inductive CursorEvent where
  | fetch (c : String) (count : Nat)
  | closeAll
  | close (c : String)
deriving DecidableEq, Repr

/-- A parsed SQL statement (`sqlparser::ast::Statement`), as the executor is handed it. -/
structure Stmt where
  sql : String
deriving DecidableEq, Repr

/-- A classified statement (`peerdb_parser::NexusStatement`). -/
inductive NexusStatement where
  | peerDDL (ddl : PeerDDL)
  | peerQuery (stmt : Stmt) (assoc : QueryAssocation)
  | peerCursor (stmt : Stmt) (cursor : CursorEvent)
deriving DecidableEq, Repr

/-- What the query parser returns (`peerdb_parser::NexusParsedStatement`). -/
structure NexusParsedStatement where
  statement : NexusStatement
  query : String
deriving DecidableEq, Repr

/-! ## Executor outputs and responses -/

/-- The column schema of a result (`peer_cursor::SchemaRef`). -/
structure Schema where
  fields : List String
deriving DecidableEq, Repr

/-- A stream of rows with its schema (`SendableStream`). -/
structure RecordStream where
  schema : Schema
  rows : List (List String)
deriving DecidableEq, Repr

/-- Rows the backend has already materialized (`peer_cursor::Records`). -/
structure Records where
  schema : Schema
  rows : List (List String)
deriving DecidableEq, Repr

/-- A change of the cursor table asked for by an executor (`peer_cursor::CursorModification`). -/
inductive CursorModification where
  | created (name : String)
  | closed (names : List String)
deriving DecidableEq, Repr

/-- The result of running a statement on an executor (`peer_cursor::QueryOutput`). -/
inductive QueryOutput where
  | affectedRows (rows : Nat)
  | stream (rows : RecordStream)
  | records (records : Records)
  | cursor (cm : CursorModification)
deriving DecidableEq, Repr

/-- A command-completion tag (`pgwire::api::results::Tag`). -/
structure Tag where
  command : String
  rows : Option Nat
deriving DecidableEq, Repr

/-- `Tag::new_for_execution`. -/
def Tag.newForExecution (command : String) (rows : Option Nat) : Tag := ⟨command, rows⟩

/-- A response to the client (`pgwire::api::results::Response`). -/
inductive Response where
  | emptyQuery
  | query (schema : Schema) (rows : List (List String))
  | execution (tag : Tag)
deriving DecidableEq, Repr

/-- The fields of a user-visible error (`pgwire::error::ErrorInfo`). -/
structure ErrorInfo where
  severity : String
  code : String
  message : String
deriving DecidableEq, Repr

/-- An error returned to the client (`pgwire::error::PgWireError`): one the server builds, or one
raised by pgwire, the parser or an executor, kept as its text. -/
inductive PgWireError where
  | userError (info : ErrorInfo)
  | other (text : String)
deriving DecidableEq, Repr

/-- The error the server builds from a failed catalog or executor call. -/
def internalError (e : String) : PgWireError :=
  .userError ⟨"ERROR", "internal_error", e⟩

/-! ## Outcomes -/

/-- The abort sites of the source. -/
inductive Panic where
  /-- `Option::unwrap()` on a `None` value. -/
  | unwrapNone
  /-- `Result::unwrap()` on an `Err` value, with the error's text. -/
  | unwrapErr (e : String)
  /-- `panic!("peer type not supported: {:?}", peer)`. -/
  | peerTypeNotSupported (peer : Peer)
  /-- `todo!(msg)`. -/
  | todo (msg : String)
deriving DecidableEq, Repr

/-- How a call of the server ends: with a value, with an error returned to the client, or in a
panic. -/
inductive Outcome (α : Type) where
  | ok (a : α)
  | err (e : PgWireError)
  | panic (p : Panic)
deriving DecidableEq, Repr

namespace Outcome

/-- Sequencing with `?`: an error or a panic ends the computation. -/
def bind {α β : Type} : Outcome α → (α → Outcome β) → Outcome β
  | ok a, f => f a
  | err e, _ => err e
  | panic p, _ => panic p

instance : Monad Outcome where
  pure := ok
  bind := bind

@[simp] lemma pure_eq {α : Type} (a : α) : (pure a : Outcome α) = ok a := rfl
@[simp] lemma ok_bind {α β : Type} (a : α) (f : α → Outcome β) : (ok a >>= f) = f a := rfl
@[simp] lemma err_bind {α β : Type} (e : PgWireError) (f : α → Outcome β) :
    (err e >>= f) = err e := rfl
@[simp] lemma panic_bind {α β : Type} (p : Panic) (f : α → Outcome β) :
    (panic p >>= f) = panic p := rfl

/-- The `?` of a `PgWireResult`. -/
def ofExcept {α : Type} : Except PgWireError α → Outcome α
  | .ok a => ok a
  | .error e => err e

/-- `Result::unwrap()`: an error becomes a panic. -/
def unwrap {α : Type} : Except String α → Outcome α
  | .ok a => ok a
  | .error e => panic (.unwrapErr e)

/-- A computation that returns a value, whichever one. -/
def IsOk {α : Type} : Outcome α → Prop
  | ok _ => True
  | _ => False

/-- A computation that panics, at whichever site. -/
def IsPanic {α : Type} : Outcome α → Prop
  | panic _ => True
  | _ => False

end Outcome

/-! ## The session state -/

/-- A handle on an executor (`Arc<Box<dyn QueryExecutor>>`): the catalog's built-in executor, or
the peer executor allocated `id`-th in the session. Two handles are the same `Arc` exactly when
they are equal. -/
inductive Executor where
  | catalog
  | peer (id : Nat)
deriving DecidableEq, Repr

/-- Modelled from the spec: `cursor::PeerCursors` (the module `cursor` is not in the source), the
cursor table that maps a session-scoped cursor name to its owning peer. -/
structure PeerCursors where
  cursors : String → Option Peer

namespace PeerCursors

/-- Modelled from the spec: the empty cursor table. -/
def new : PeerCursors := ⟨fun _ => none⟩

/-- Modelled from the spec: register `name` as owned by `peer`. -/
def addCursor (t : PeerCursors) (name : String) (peer : Peer) : PeerCursors :=
  ⟨Function.update t.cursors name (some peer)⟩

/-- Modelled from the spec: forget the cursor `name`. -/
def removeCursor (t : PeerCursors) (name : String) : PeerCursors :=
  ⟨Function.update t.cursors name none⟩

/-- Modelled from the spec: the owning peer of the cursor `name`, if it is tracked. -/
def getPeer (t : PeerCursors) (name : String) : Option Peer := t.cursors name

end PeerCursors

/-- The per-connection state of `NexusBackend`: the cursor table `peer_cursors`, the executor
cache `executors` keyed by peer name, and the number of peer executors allocated so far, which
gives each new `Arc` its identity. -/
structure NexusBackend where
  peerCursors : PeerCursors
  executors : String → Option Executor
  constructed : Nat

/-- `NexusBackend::new`: an empty cursor table and an empty executor cache. -/
def NexusBackend.new : NexusBackend := ⟨PeerCursors.new, fun _ => none, 0⟩

/-- A session operation: it runs on the connection's state and returns its outcome with the state
it leaves. -/
def SessionM (α : Type) : Type := NexusBackend → Outcome α × NexusBackend

namespace SessionM

/-- Sequencing of session operations: an error or a panic ends the operation, keeping the state
reached so far. -/
def bind {α β : Type} (m : SessionM α) (f : α → SessionM β) : SessionM β := fun s =>
  match m s with
  | (.ok a, s') => f a s'
  | (.err e, s') => (.err e, s')
  | (.panic p, s') => (.panic p, s')

instance : Monad SessionM where
  pure a := fun s => (.ok a, s)
  bind := bind

/-- An operation that does not touch the state. -/
def lift {α : Type} (o : Outcome α) : SessionM α := fun s => (o, s)

@[simp] lemma pure_apply {α : Type} (a : α) (s : NexusBackend) :
    (pure a : SessionM α) s = (.ok a, s) := rfl

@[simp] lemma lift_apply {α : Type} (o : Outcome α) (s : NexusBackend) : lift o s = (o, s) := rfl

lemma bind_apply {α β : Type} (m : SessionM α) (f : α → SessionM β) (s : NexusBackend) :
    (m >>= f) s = match m s with
      | (.ok a, s') => f a s'
      | (.err e, s') => (.err e, s')
      | (.panic p, s') => (.panic p, s') := rfl

@[simp] lemma pure_bind {α β : Type} (a : α) (f : α → SessionM β) : (pure a >>= f) = f a := rfl

@[simp] lemma lift_ok_bind {α β : Type} (a : α) (f : α → SessionM β) :
    (lift (.ok a) >>= f) = f a := rfl

@[simp] lemma lift_err_bind {α β : Type} (e : PgWireError) (f : α → SessionM β) :
    (lift (.err e) >>= f) = lift (.err e) := rfl

@[simp] lemma lift_panic_bind {α β : Type} (p : Panic) (f : α → SessionM β) :
    (lift (.panic p) >>= f) = lift (.panic p) := rfl

/-- A property of the state that both steps keep is kept by their sequence. -/
lemma bind_invariant {α β : Type} {P : NexusBackend → Prop} {m : SessionM α}
    {f : α → SessionM β} (hm : ∀ s, P s → P (m s).2) (hf : ∀ a s, P s → P (f a s).2)
    {s : NexusBackend} (hs : P s) : P ((m >>= f) s).2 := by
  rw [bind_apply]
  rcases hms : m s with ⟨o, s'⟩
  have : P s' := by simpa [hms] using hm s hs
  cases o with
  | ok a => exact hf a s' this
  | err _ | panic _ => exact this

/-- Sequencing succeeds only when both steps do. -/
lemma bind_eq_ok {α β : Type} {m : SessionM α} {f : α → SessionM β} {s s' : NexusBackend} {b : β}
    (h : (m >>= f) s = (.ok b, s')) : ∃ a t, m s = (.ok a, t) ∧ f a t = (.ok b, s') := by
  rw [bind_apply] at h
  rcases hm : m s with ⟨o, t⟩
  rw [hm] at h
  cases o with
  | ok a => exact ⟨a, t, rfl, h⟩
  | err _ | panic _ => cases h

lemma bind_assoc {α β γ : Type} (m : SessionM α) (f : α → SessionM β) (g : β → SessionM γ) :
    (m >>= f) >>= g = m >>= fun a => f a >>= g := by
  funext s
  simp only [bind_apply]
  rcases m s with ⟨o, s'⟩
  cases o <;> rfl

end SessionM

end Nexus
