import NexusServer.LockTrace

/-!
# No deadlock between the dispatches of a session

The dispatches of one session run as tasks that share its locks. `Dispatch.Reachable` gives every
interleaving of the events of a list of dispatches. At each step one task performs its next event.
A request is granted when no task stands in its way (`Dispatch.Blocks`). A task stands in the way
when it holds a guard of the lock that cannot be held beside the one requested. The requester
stands in its own way when it holds the lock, since none of the locks is reentrant. A lock's queue
of waiters is not modelled.

A set of dispatches is deadlocked (`Dispatch.Deadlocked`) when each of them waits for a guard,
something stands in its way, and everything that stands in its way is in the set. No set is ever
deadlocked along an interleaving of runs that keep the discipline (`Dispatch.not_deadlocked`). A
waiting task requests a lock ranked above everything it holds. So a task that stands in its way
and waits in turn requests a lock ranked higher still. Ranks go no higher than one, so such a
chain ends after two steps. For the dispatches of `handle_query` this gives the main result,
`lock_discipline_rules_out_deadlock`. A corollary: while some dispatch has not finished, some
dispatch can take its next step, also where dispatches wait for one another's guards
(`Dispatch.progress`).

A dispatch's events depend on what it reads (the owner of its cursor, a hit or a miss of the cache)
and on the collaborators' answers. Both theorems hold for every state and every `env` a dispatch
starts from. So they cover each dispatch whatever it reads when it reads it.
-/

namespace Nexus

/-- A dispatch in flight: the events it has still to perform, and the guards it holds, the last
taken first. -/
structure Dispatch where
  todo : List Event
  held : List (Lock × Mode)

/-- Two guards of one lock can be held together: both are read guards. -/
def Mode.compatible : Mode → Mode → Bool
  | .shared, .shared => true
  | _, _ => false

namespace Dispatch

/-- Dispatch `j` stands in the way of dispatch `i`'s request of a guard of `l` in mode `m`: it holds
a guard of `l` that cannot be held beside the one requested, or it is `i` itself. -/
def Blocks (ds : List Dispatch) (i : Nat) (l : Lock) (m : Mode) (j : Nat) : Prop :=
  ∃ d m', ds[j]? = some d ∧ (l, m') ∈ d.held ∧ (j = i ∨ m.compatible m' = false)

/-- Dispatch `i` can perform its next event: a request is granted when nothing stands in its
way. -/
def CanStep (ds : List Dispatch) (i : Nat) : Prop :=
  ∃ d e rest, ds[i]? = some d ∧ d.todo = e :: rest ∧
    ∀ l m, e = .acquire l m → ∀ j, ¬ Blocks ds i l m j

/-- One step of an interleaving: a dispatch that can perform its next event does. -/
inductive Step : List Dispatch → List Dispatch → Prop
  | mk {ds : List Dispatch} {i : Nat} {d : Dispatch} {e : Event} {rest : List Event} :
      ds[i]? = some d → d.todo = e :: rest →
      (∀ l m, e = .acquire l m → ∀ j, ¬ Blocks ds i l m j) →
      Step ds (ds.set i ⟨rest, e.apply d.held⟩)

/-- The states of every interleaving of dispatches with the events `trs`, each started with no
guard held. -/
inductive Reachable (trs : List (List Event)) : List Dispatch → Prop
  | init : Reachable trs (trs.map fun tr => ⟨tr, []⟩)
  | step {ds ds' : List Dispatch} : Reachable trs ds → Step ds ds' → Reachable trs ds'

/-- A deadlocked set of dispatches: each waits for a guard, something stands in its way, and
everything that stands in its way is in the set, so that none of them can ever move. -/
def Deadlocked (ds : List Dispatch) (S : List Nat) : Prop :=
  S ≠ [] ∧ ∀ i ∈ S, ∃ d l m rest, ds[i]? = some d ∧ d.todo = .acquire l m :: rest ∧
    (∃ j, Blocks ds i l m j) ∧ ∀ j, Blocks ds i l m j → j ∈ S

/-! ## The discipline along an interleaving -/

/-- Every dispatch keeps the discipline for the rest of its run. -/
def Keeping (ds : List Dispatch) : Prop := ∀ d ∈ ds, Keeps d.held d.todo []

/-- A dispatch of an interleaving that keeps the discipline keeps it for the rest of its run. -/
lemma Keeping.get {ds : List Dispatch} (hk : Keeping ds) {i : Nat} {d : Dispatch}
    (hd : ds[i]? = some d) : Keeps d.held d.todo [] :=
  hk d (List.mem_iff_getElem?.mpr ⟨i, hd⟩)

/-- A dispatch that holds a guard has events left: a run that keeps the discipline ends with no
guard held. -/
lemma Keeping.todo_ne_nil {ds : List Dispatch} (hk : Keeping ds) {j : Nat} {d : Dispatch}
    {p : Lock × Mode} (hd : ds[j]? = some d) (hp : p ∈ d.held) : d.todo ≠ [] := fun htodo => by
  have hkd : Keeps d.held [] [] := htodo ▸ hk.get hd
  exact List.not_mem_nil _ ((hkd : [] = d.held) ▸ hp)

lemma Step.keeping {ds ds' : List Dispatch} (h : Step ds ds') (hk : Keeping ds) : Keeping ds' := by
  cases h with
  | mk hd ht _ =>
    intro d' hd'
    rcases List.mem_or_eq_of_mem_set hd' with hd' | rfl
    · exact hk d' hd'
    · exact (ht ▸ hk.get hd : Keeps _ (_ :: _) []).2

lemma Reachable.keeping {trs : List (List Event)} (hk : ∀ tr ∈ trs, Keeps [] tr [])
    {ds : List Dispatch} (h : Reachable trs ds) : Keeping ds := by
  induction h with
  | init =>
    intro d hd
    obtain ⟨tr, htr, rfl⟩ := List.mem_map.mp hd
    exact hk tr htr
  | step _ hs ih => exact hs.keeping ih

/-! ## No deadlock -/

/-- Something in the way of a waiting dispatch of a deadlocked set is in the set, and waits for a
lock ranked above the one the first dispatch waits for. -/
lemma Deadlocked.ascent {ds : List Dispatch} {S : List Nat} (hS : Deadlocked ds S)
    (hk : Keeping ds) {i : Nat} {d : Dispatch} {l : Lock} {m : Mode} {rest : List Event}
    (hi : i ∈ S) (hd : ds[i]? = some d) (ht : d.todo = .acquire l m :: rest) :
    ∃ j ∈ S, ∃ d' l' m' rest', ds[j]? = some d' ∧ d'.todo = .acquire l' m' :: rest' ∧
      l.rank < l'.rank := by
  obtain ⟨d₀, l₀, m₀, rest₀, hd₀, ht₀, ⟨j, hj⟩, hall⟩ := hS.2 i hi
  cases hd.symm.trans hd₀
  cases ht.symm.trans ht₀
  have hjS := hall j hj
  obtain ⟨d', m', hd', hheld, -⟩ := hj
  obtain ⟨d'', l', m'', rest', hd'', ht', -⟩ := hS.2 j hjS
  cases hd'.symm.trans hd''
  have hkj : Keeps d'.held (.acquire l' m'' :: rest') [] := ht' ▸ hk.get hd'
  exact ⟨j, hjS, d', l', m'', rest', hd', ht', hkj.1 _ hheld⟩

/-- Along every interleaving of runs that keep the discipline, no set of dispatches is
deadlocked. -/
theorem not_deadlocked {trs : List (List Event)} (hk : ∀ tr ∈ trs, Keeps [] tr [])
    {ds : List Dispatch} (h : Reachable trs ds) : ¬ ∃ S, Deadlocked ds S := by
  rintro ⟨S, hS⟩
  have hkeep := h.keeping hk
  obtain ⟨i, hi⟩ := List.exists_mem_of_ne_nil S hS.1
  obtain ⟨d, l, m, rest, hd, ht, -⟩ := hS.2 i hi
  obtain ⟨j, hj, d', l', m', rest', hd', ht', h₁⟩ := hS.ascent hkeep hi hd ht
  obtain ⟨-, -, -, l'', -, -, -, -, h₂⟩ := hS.ascent hkeep hj hd' ht'
  have := l''.rank_le_one
  omega

/-- The indices of the dispatches with events left. -/
lemma mem_filter_busy {ds : List Dispatch} {i : Nat} :
    i ∈ (List.range ds.length).filter (fun i => ds[i]?.any fun d => !d.todo.isEmpty) ↔
      ∃ d, ds[i]? = some d ∧ d.todo ≠ [] := by
  cases hdi : ds[i]? with
  | none => simp [hdi]
  | some d => simp [hdi, (List.getElem?_eq_some_iff.mp hdi).1, List.isEmpty_iff]

/-- Along every interleaving of runs that keep the discipline, the dispatches have all finished,
or one of them can take its next step. -/
theorem progress {trs : List (List Event)} (hk : ∀ tr ∈ trs, Keeps [] tr [])
    {ds : List Dispatch} (h : Reachable trs ds) :
    (∀ d ∈ ds, d.todo = []) ∨ ∃ i, CanStep ds i := by
  refine (Classical.em (∃ i, CanStep ds i)).symm.imp (fun hc => ?_) id
  have hkeep := h.keeping hk
  intro d hd
  refine Classical.byContradiction fun hne => not_deadlocked hk h
    ⟨(List.range ds.length).filter fun i => ds[i]?.any fun d => !d.todo.isEmpty, ?_, fun i hi => ?_⟩
  · obtain ⟨i, hi⟩ := List.mem_iff_getElem?.mp hd
    exact List.ne_nil_of_mem (mem_filter_busy.mpr ⟨d, hi, hne⟩)
  · obtain ⟨d, hd, hbusy⟩ := mem_filter_busy.mp hi
    obtain ⟨e, rest, ht⟩ := List.exists_cons_of_ne_nil hbusy
    cases e with
    | acquire l m =>
      have hblock : ∃ j, Blocks ds i l m j := Classical.byContradiction fun hb =>
        hc ⟨i, d, _, rest, hd, ht, fun l' m' he j hj => by cases he; exact hb ⟨j, hj⟩⟩
      exact ⟨d, l, m, rest, hd, ht, hblock,
        fun j ⟨d', m', hd', hheld, _⟩ => mem_filter_busy.mpr ⟨d', hd', hkeep.todo_ne_nil hd' hheld⟩⟩
    | release _ | await _ => exact absurd ⟨i, d, _, rest, hd, ht, fun _ _ he => by cases he⟩ hc

end Dispatch

/-! ## The dispatches of a session -/

/-- The events of each dispatch of `handle_query` in a list, each with its collaborators, its
statement and the state it starts from, the shard of a name being `shardOf` of it. -/
def dispatchEvents (shardOf : String → Nat)
    (dispatches : List (Env × NexusStatement × NexusBackend)) :
    List (List Event) :=
  dispatches.map fun x => (handleQueryL x.1 shardOf x.2.1 x.2.2).2

lemma dispatchEvents_keep (shardOf : String → Nat)
    (dispatches : List (Env × NexusStatement × NexusBackend)) :
    ∀ tr ∈ dispatchEvents shardOf dispatches, Keeps [] tr [] := by
  intro tr htr
  obtain ⟨x, -, rfl⟩ := List.mem_map.mp htr
  exact handleQueryL_disciplined x.2.1 x.2.2

/-- Along `handle_query` and the calls it makes, for every statement, state and answer of the
collaborators, the recorded dispatch computes what `handle_query` computes and its events keep the
lock discipline; and however the dispatches of one session interleave, no set of them is ever
deadlocked. -/
theorem lock_discipline_rules_out_deadlock :
    (∀ env shardOf stmt s, (handleQueryL env shardOf stmt).run s = handleQuery env stmt s ∧
      LockDiscipline (handleQueryL env shardOf stmt s).2) ∧
    ∀ shardOf dispatches ds, Dispatch.Reachable (dispatchEvents shardOf dispatches) ds →
      ¬ ∃ S, Dispatch.Deadlocked ds S :=
  ⟨fun env shardOf stmt s => ⟨congrFun (handleQueryL_run env shardOf stmt) s,
      LockDiscipline.of_keeps (handleQueryL_disciplined stmt s)⟩,
    fun shardOf dispatches _ h =>
      Dispatch.not_deadlocked (dispatchEvents_keep shardOf dispatches) h⟩

/-- However the dispatches of one session interleave, they have all finished, or one of them can
take its next step. -/
theorem dispatches_progress (shardOf : String → Nat)
    (dispatches : List (Env × NexusStatement × NexusBackend)) {ds : List Dispatch}
    (h : Dispatch.Reachable (dispatchEvents shardOf dispatches) ds) :
    (∀ d ∈ ds, d.todo = []) ∨ ∃ i, Dispatch.CanStep ds i :=
  Dispatch.progress (dispatchEvents_keep shardOf dispatches) h

/-- Three dispatches of a new session: two fetches of an untracked cursor and a catalog query. -/
def twoFetchesAndQuery : List (Env × NexusStatement × NexusBackend) :=
  [(Env.accepting, .peerCursor ⟨"FETCH 1 c"⟩ (.fetch "c" 1), NexusBackend.new),
    (Env.accepting, .peerCursor ⟨"FETCH 1 c"⟩ (.fetch "c" 1), NexusBackend.new),
    (Env.accepting, .peerQuery ⟨"SELECT 1"⟩ .catalog, NexusBackend.new)]

/-- The events of a fetch of an untracked cursor in a new session: the catalog's executor is
chosen under both mutexes, which are dropped before the execution. -/
def fetchEvents : List Event :=
  [.acquire .peerCursors .exclusive, .acquire .catalog .exclusive, .release .catalog,
    .release .peerCursors, .await .execute]

/-- The events of a catalog query. -/
def queryEvents : List Event := [.acquire .catalog .exclusive, .release .catalog, .await .execute]

/-- The first fetch holds `peer_cursors` and `catalog`, which the second fetch and the catalog
query wait for. -/
def contended : List Dispatch :=
  [⟨fetchEvents.drop 2, [(.catalog, .exclusive), (.peerCursors, .exclusive)]⟩,
    ⟨fetchEvents, []⟩, ⟨queryEvents, []⟩]

/-- A request of a lock that no dispatch holds is granted. -/
lemma Dispatch.not_blocks_of_free {ds : List Dispatch} {l : Lock}
    (hfree : ∀ d ∈ ds, ∀ p ∈ d.held, p.1 ≠ l) (i : Nat) (m : Mode) (j : Nat) :
    ¬ Dispatch.Blocks ds i l m j :=
  fun ⟨d, _, hd, hheld, _⟩ => hfree d (List.mem_iff_getElem?.mpr ⟨j, hd⟩) _ hheld rfl

/-- Where the first fetch holds both locks, the second fetch and the catalog query wait, and the
first fetch is the one that can take its next step. -/
theorem dispatches_progress_contended :
    Dispatch.Reachable (dispatchEvents (fun _ => 0) twoFetchesAndQuery) contended ∧
      ¬ Dispatch.CanStep contended 1 ∧ ¬ Dispatch.CanStep contended 2 ∧
      ((∀ d ∈ contended, d.todo = []) ∨ ∃ i, Dispatch.CanStep contended i) := by
  have hev : dispatchEvents (fun _ => 0) twoFetchesAndQuery = [fetchEvents, fetchEvents, queryEvents] :=
    rfl
  have h : Dispatch.Reachable (dispatchEvents (fun _ => 0) twoFetchesAndQuery) contended := by
    rw [hev]
    refine .step (.step .init (@Dispatch.Step.mk _ 0 ⟨fetchEvents, []⟩
      (.acquire .peerCursors .exclusive) (fetchEvents.drop 1) rfl rfl fun l m he => ?_))
      (@Dispatch.Step.mk _ 0 ⟨fetchEvents.drop 1, [(.peerCursors, .exclusive)]⟩
        (.acquire .catalog .exclusive) (fetchEvents.drop 2) rfl rfl fun l m he => ?_) <;>
      cases he <;>
      exact Dispatch.not_blocks_of_free (by simp [fetchEvents, queryEvents, Event.apply]) 0 _
  refine ⟨h, ?_, ?_, dispatches_progress (fun _ => 0) twoFetchesAndQuery h⟩ <;>
    rintro ⟨d, e, rest, hd, ht, hgrant⟩ <;> cases hd <;> cases ht <;>
    exact hgrant _ _ rfl 0 ⟨_, .exclusive, rfl, by simp [contended], .inr rfl⟩

end Nexus
