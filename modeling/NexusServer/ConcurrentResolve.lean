import NexusServer.Describe

/-!
# Concurrent resolves of the executor cache

`get_peer_executor` takes three steps that other tasks can interleave with: the miss check
`executors.get`, the awaited construction, and `executors.insert` after it. The construction is
the only suspension point, so a resolve is a small thread: it checks the cache (and finishes on a
hit, or suspends on a miss), then resumes when its construction completes and inserts and
returns the new executor in one go. `Sys` holds the shared cache, the allocation counter, the
resolves in flight by index, and the history of constructions.

With no lock around the construction, two misses on one name can both be suspended; both then
construct and the later insert replaces the earlier entry (`concurrent_misses_replace_entry`).
In every interleaving in which a resolve misses only when no other resolve of its name is
suspended in construction (`Sys.SerialAt`; every sequential run is one), the invariant
`Sys.Inv` holds: a name is constructed at most once, an entry is never replaced or removed, and
every finished resolve holds the entry of its name. A resolve run alone does what the sequential
`getPeerExecutor` does (`Sys.resolveAlone_spec`), and from such an interleaving it leaves one
(`serial_resolves_share_executor`).

What a race loses is an entry, never the separation of peers. In every interleaving, racing
misses included, an executor that an entry or a finished resolve holds was made for that name, so
no executor is held for two names and none is the catalog's (`resolves_keep_names_apart`).
-/

namespace Nexus

/-- Where a resolve of `get_peer_executor` stands. -/
inductive Pc where
  /-- Not started: the next step is the miss check. -/
  | start
  /-- Missed, and suspended in the construction of the executor. -/
  | constructing
  /-- Returned the executor `x`. -/
  | done (x : Executor)
  /-- Panicked in the construction. -/
  | panicked
deriving DecidableEq, Repr

/-- A resolve in flight: the peer it resolves and where it stands. -/
structure Resolve where
  peer : Peer
  pc : Pc
deriving DecidableEq, Repr

/-- The shared state of the resolves of one session: the executor cache, the allocation counter,
the resolves by index, and every construction so far with the name it was made for. -/
structure Sys where
  executors : String → Option Executor
  constructed : Nat
  resolves : Nat → Option Resolve
  constructions : List (String × Executor)

/-- No resolve in flight, over the cache and counter of a session state. -/
def Sys.init (s : NexusBackend) : Sys := ⟨s.executors, s.constructed, fun _ => none, []⟩

/-- A new dispatch starts resolving `peer` as resolve `i`. -/
def Sys.spawn (sys : Sys) (i : Nat) (peer : Peer) : Sys :=
  { sys with resolves := Function.update sys.resolves i (some ⟨peer, .start⟩) }

/-- Resolve `i` takes its next step, with `env` answering a construction: the miss check, or the
completion of the construction with the insert of the new executor. -/
def Sys.advance (env : Env) (sys : Sys) (i : Nat) : Option Sys :=
  match sys.resolves i with
  | none => none
  | some r =>
    match r.pc with
    | .start =>
      match sys.executors r.peer.name with
      | some x => some { sys with resolves := Function.update sys.resolves i (some ⟨r.peer, .done x⟩) }
      | none => some { sys with resolves := Function.update sys.resolves i (some ⟨r.peer, .constructing⟩) }
    | .constructing =>
      match newExecutor env r.peer with
      | .ok () =>
        some
          { executors := Function.update sys.executors r.peer.name (some (.peer sys.constructed))
            constructed := sys.constructed + 1
            resolves := Function.update sys.resolves i (some ⟨r.peer, .done (.peer sys.constructed)⟩)
            constructions := sys.constructions ++ [(r.peer.name, .peer sys.constructed)] }
      | .error _ => some { sys with resolves := Function.update sys.resolves i (some ⟨r.peer, .panicked⟩) }
    | .done _ => none
    | .panicked => none

/-- Some resolve of the name `k` is suspended in its construction. -/
def Sys.InConstruction (sys : Sys) (k : String) : Prop :=
  ∃ j r, sys.resolves j = some r ∧ r.peer.name = k ∧ r.pc = .constructing

/-- The step of resolve `i` is serialized: if it is a miss check that misses, no resolve of the
same name is suspended in construction. A construction lock per name allows only such steps. -/
def Sys.SerialAt (sys : Sys) (i : Nat) : Prop :=
  ∀ r, sys.resolves i = some r → r.pc = .start → sys.executors r.peer.name = none →
    ¬ sys.InConstruction r.peer.name

/-- The states of every interleaving of resolves started from a session state. -/
inductive Reachable (s : NexusBackend) : Sys → Prop where
  | init : Reachable s (Sys.init s)
  | spawn {sys : Sys} (i : Nat) (peer : Peer) :
      Reachable s sys → sys.resolves i = none → Reachable s (sys.spawn i peer)
  | advance {sys sys' : Sys} (env : Env) (i : Nat) :
      Reachable s sys → sys.advance env i = some sys' → Reachable s sys'

/-- The states of the serialized interleavings. -/
inductive SerialReachable (s : NexusBackend) : Sys → Prop where
  | init : SerialReachable s (Sys.init s)
  | spawn {sys : Sys} (i : Nat) (peer : Peer) :
      SerialReachable s sys → sys.resolves i = none → SerialReachable s (sys.spawn i peer)
  | advance {sys sys' : Sys} (env : Env) (i : Nat) :
      SerialReachable s sys → sys.SerialAt i → sys.advance env i = some sys' →
        SerialReachable s sys'

/-! ## What a step can do -/

variable {env : Env} {sys sys' : Sys} {i : Nat}

/-- The four steps of a resolve: a hit, a miss, a completed construction with its insert, and a
construction that panics. -/
lemma Sys.advance_cases (h : sys.advance env i = some sys') :
    ∃ r, sys.resolves i = some r ∧
      ((r.pc = .start ∧ ∃ x, sys.executors r.peer.name = some x ∧
          sys' = { sys with resolves := Function.update sys.resolves i (some ⟨r.peer, .done x⟩) }) ∨
        (r.pc = .start ∧ sys.executors r.peer.name = none ∧
          sys' = { sys with
            resolves := Function.update sys.resolves i (some ⟨r.peer, .constructing⟩) }) ∨
        (r.pc = .constructing ∧ newExecutor env r.peer = .ok () ∧
          sys' =
            { executors := Function.update sys.executors r.peer.name (some (.peer sys.constructed))
              constructed := sys.constructed + 1
              resolves :=
                Function.update sys.resolves i (some ⟨r.peer, .done (.peer sys.constructed)⟩)
              constructions := sys.constructions ++ [(r.peer.name, .peer sys.constructed)] }) ∨
        (r.pc = .constructing ∧
          sys' = { sys with
            resolves := Function.update sys.resolves i (some ⟨r.peer, .panicked⟩) })) := by
  unfold Sys.advance at h
  rcases hr : sys.resolves i with _ | ⟨peer, pc⟩
  · simp [hr] at h
  · refine ⟨⟨peer, pc⟩, rfl, ?_⟩
    simp only [hr] at h
    cases pc with
    | start =>
      cases hx : sys.executors peer.name with
      | some x => simp only [hx, Option.some.injEq] at h; exact .inl ⟨rfl, x, rfl, h.symm⟩
      | none => simp only [hx, Option.some.injEq] at h; exact .inr (.inl ⟨rfl, rfl, h.symm⟩)
    | constructing =>
      cases hn : newExecutor env peer with
      | ok u =>
        simp only [hn, Option.some.injEq] at h
        exact .inr (.inr (.inl ⟨rfl, rfl, h.symm⟩))
      | error p =>
        simp only [hn, Option.some.injEq] at h
        exact .inr (.inr (.inr ⟨rfl, h.symm⟩))
    | done x => cases h
    | panicked => cases h

/-! ## The invariant of serialized interleavings -/

/-- The invariant of the serialized interleavings: a suspended construction is for a name the
cache has no entry for, and is the only one for that name; a finished resolve holds the entry
of its name; every construction made is the entry of its name, and no name has two. -/
structure Sys.Inv (sys : Sys) : Prop where
  constructing_miss : ∀ j r, sys.resolves j = some r → r.pc = .constructing →
    sys.executors r.peer.name = none
  constructing_unique : ∀ j j' r r', sys.resolves j = some r → sys.resolves j' = some r' →
    r.pc = .constructing → r'.pc = .constructing → r.peer.name = r'.peer.name → j = j'
  done_cached : ∀ j r x, sys.resolves j = some r → r.pc = .done x →
    sys.executors r.peer.name = some x
  constructions_cached : ∀ k x, (k, x) ∈ sys.constructions → sys.executors k = some x
  constructions_once : ∀ k, sys.constructions.countP (·.1 == k) ≤ 1

lemma Sys.Inv.init (s : NexusBackend) : (Sys.init s).Inv :=
  ⟨fun _ _ h => (nomatch h), fun _ _ _ _ h => (nomatch h), fun _ _ _ h => (nomatch h),
    fun _ _ h => (nomatch h), fun _ => by simp [Sys.init]⟩

/-- The resolve at `j` after resolve `i` was set to `r'`. -/
lemma resolves_update {f : Nat → Option Resolve} {r' : Resolve} {j : Nat} {r : Resolve}
    (h : Function.update f i (some r') j = some r) : (j = i ∧ r = r') ∨ (j ≠ i ∧ f j = some r) := by
  by_cases hj : j = i
  · subst hj
    simp only [Function.update_same, Option.some.injEq] at h
    exact .inl ⟨rfl, h.symm⟩
  · rw [Function.update_noteq hj] at h
    exact .inr ⟨hj, h⟩

/-- Setting a resolve to a state other than a suspended construction keeps the invariant, when a
finished state returns the entry of its name. -/
lemma Sys.Inv.update_resolve (hs : sys.Inv) (peer : Peer) (pc : Pc) (hc : pc ≠ .constructing)
    (hd : ∀ x, pc = .done x → sys.executors peer.name = some x) :
    ({ sys with resolves := Function.update sys.resolves i (some ⟨peer, pc⟩) } : Sys).Inv := by
  refine ⟨fun j r hj hr => ?_, fun j j' r r' hj hj' hr hr' hn => ?_, fun j r x hj hr => ?_,
    hs.constructions_cached, hs.constructions_once⟩
  · rcases resolves_update hj with ⟨-, rfl⟩ | ⟨-, hj⟩
    · exact absurd hr hc
    · exact hs.constructing_miss j r hj hr
  · rcases resolves_update hj with ⟨-, rfl⟩ | ⟨-, hj⟩
    · exact absurd hr hc
    rcases resolves_update hj' with ⟨-, rfl⟩ | ⟨-, hj'⟩
    · exact absurd hr' hc
    exact hs.constructing_unique j j' r r' hj hj' hr hr' hn
  · rcases resolves_update hj with ⟨-, rfl⟩ | ⟨-, hj⟩
    · exact hd x hr
    · exact hs.done_cached j r x hj hr

/-- A miss that no other suspended construction of its name races keeps the invariant. -/
lemma Sys.Inv.miss (hs : sys.Inv) (peer : Peer) (hx : sys.executors peer.name = none)
    (hfree : ¬ sys.InConstruction peer.name) :
    ({ sys with resolves :=
        Function.update sys.resolves i (some ⟨peer, .constructing⟩) } : Sys).Inv := by
  refine ⟨fun j r hj hr => ?_, fun j j' r r' hj hj' hr hr' hn => ?_, fun j r y hj hr => ?_,
    hs.constructions_cached, hs.constructions_once⟩
  · rcases resolves_update hj with ⟨-, rfl⟩ | ⟨-, hj⟩
    · exact hx
    · exact hs.constructing_miss j r hj hr
  · rcases resolves_update hj with ⟨hji, rfl⟩ | ⟨-, hjo⟩ <;>
      rcases resolves_update hj' with ⟨hji', rfl⟩ | ⟨-, hjo'⟩
    · exact hji.trans hji'.symm
    · exact absurd ⟨j', r', hjo', hn.symm, hr'⟩ hfree
    · exact absurd ⟨j, r, hjo, hn, hr⟩ hfree
    · exact hs.constructing_unique j j' r r' hjo hjo' hr hr' hn
  · rcases resolves_update hj with ⟨-, rfl⟩ | ⟨-, hj⟩
    · cases hr
    · exact hs.done_cached j r y hj hr

/-- A construction that completes keeps the invariant: its name had no entry, no finished
resolve and no construction, and no other suspended construction. -/
lemma Sys.Inv.construct (hs : sys.Inv) {r : Resolve} (hi : sys.resolves i = some r)
    (hc : r.pc = .constructing) :
    ({ executors := Function.update sys.executors r.peer.name (some (.peer sys.constructed))
       constructed := sys.constructed + 1
       resolves := Function.update sys.resolves i (some ⟨r.peer, .done (.peer sys.constructed)⟩)
       constructions := sys.constructions ++ [(r.peer.name, .peer sys.constructed)] } : Sys).Inv := by
  have hmiss := hs.constructing_miss i r hi hc
  have hother : ∀ j r', sys.resolves j = some r' → r'.pc = .constructing → j ≠ i →
      r'.peer.name ≠ r.peer.name :=
    fun j r' hj hr' hji hn => hji (hs.constructing_unique j i r' r hj hi hr' hc hn)
  have hnodone : ∀ j r' x, sys.resolves j = some r' → r'.pc = .done x →
      r'.peer.name ≠ r.peer.name := fun j r' x hj hr' hn => by
    simpa [hn, hmiss] using hs.done_cached j r' x hj hr'
  have hnocons : ∀ x, (r.peer.name, x) ∉ sys.constructions := fun x hx => by
    simpa [hmiss] using hs.constructions_cached _ x hx
  refine ⟨fun j r' hj hr' => ?_, fun j j' r₁ r₂ hj hj' h₁ h₂ hn => ?_, fun j r' x hj hr' => ?_,
    fun k x hk => ?_, fun k => ?_⟩
  · rcases resolves_update hj with ⟨-, rfl⟩ | ⟨hji, hjo⟩
    · cases hr'
    · exact (Function.update_noteq (hother j r' hjo hr' hji) _ _).trans
        (hs.constructing_miss j r' hjo hr')
  · rcases resolves_update hj with ⟨-, rfl⟩ | ⟨-, hjo⟩
    · cases h₁
    rcases resolves_update hj' with ⟨-, rfl⟩ | ⟨-, hjo'⟩
    · cases h₂
    exact hs.constructing_unique j j' r₁ r₂ hjo hjo' h₁ h₂ hn
  · rcases resolves_update hj with ⟨-, rfl⟩ | ⟨-, hjo⟩
    · cases hr'
      simp
    · exact (Function.update_noteq (hnodone j r' x hjo hr') _ _).trans
        (hs.done_cached j r' x hjo hr')
  · rcases List.mem_append.mp hk with hk | hk
    · have hne : k ≠ r.peer.name := fun h => hnocons x (h ▸ hk)
      exact (Function.update_noteq hne _ _).trans (hs.constructions_cached k x hk)
    · obtain ⟨rfl, rfl⟩ := Prod.mk.inj (List.mem_singleton.mp hk)
      simp
  · rw [List.countP_append]
    by_cases hk : r.peer.name = k
    · subst hk
      have : sys.constructions.countP (·.1 == r.peer.name) = 0 :=
        List.countP_eq_zero.mpr fun ⟨k', x⟩ hx h => hnocons x (by simp at h; exact h ▸ hx)
      simp [this]
    · simpa [hk] using hs.constructions_once k

/-- Every serialized step keeps the invariant. -/
lemma Sys.Inv.advance (hs : sys.Inv) (hser : sys.SerialAt i) (h : sys.advance env i = some sys') :
    sys'.Inv := by
  obtain ⟨r, hi, ⟨hp, x, hx, rfl⟩ | ⟨hp, hx, rfl⟩ | ⟨hp, -, rfl⟩ | ⟨hp, rfl⟩⟩ := Sys.advance_cases h
  · exact hs.update_resolve r.peer (.done x) (by simp) fun _ h => by cases h; exact hx
  · exact hs.miss r.peer hx (hser r hi hp hx)
  · exact hs.construct hi hp
  · exact hs.update_resolve r.peer .panicked (by decide) fun _ h => by cases h

lemma Sys.Inv.spawn (hs : sys.Inv) (peer : Peer) : (sys.spawn i peer).Inv :=
  hs.update_resolve peer .start (by decide) fun _ h => by cases h

/-- From a state of the invariant no step, serialized or not, replaces or removes an entry: the
only write is the insert of a construction, whose name has no entry. -/
lemma Sys.Inv.advance_keeps_entry (hs : sys.Inv) (h : sys.advance env i = some sys')
    {k : String} {x : Executor} (hk : sys.executors k = some x) : sys'.executors k = some x := by
  obtain ⟨r, hi, ⟨-, -, -, rfl⟩ | ⟨-, -, rfl⟩ | ⟨hp, -, rfl⟩ | ⟨-, rfl⟩⟩ := Sys.advance_cases h
  · exact hk
  · exact hk
  · have hne : k ≠ r.peer.name := fun h => by simp [h, hs.constructing_miss i r hi hp] at hk
    simpa [Function.update_noteq hne] using hk
  · exact hk

lemma SerialReachable.inv {s : NexusBackend} (h : SerialReachable s sys) : sys.Inv := by
  induction h with
  | init => exact Sys.Inv.init s
  | spawn i peer _ _ ih => exact ih.spawn peer
  | advance env i _ hser hstep ih => exact ih.advance hser hstep

/-- A step is serialized when no resolve is suspended in its construction. -/
lemma Sys.serialAt_of_none_constructing (h : ∀ j r, sys.resolves j = some r → r.pc ≠ .constructing) :
    sys.SerialAt i :=
  fun _ _ _ _ ⟨j, r, hj, _, hc⟩ => h j r hj hc

/-- A miss check that hits is serialized. -/
lemma Sys.serialAt_of_hit {peer : Peer} {x : Executor} (hi : sys.resolves i = some ⟨peer, .start⟩)
    (hx : sys.executors peer.name = some x) : sys.SerialAt i := by
  intro r hr _ hn
  cases hi.symm.trans hr
  simp [hx] at hn

/-! ## The sequential resolve -/

/-- A resolve's steps taken back to back: the miss check, then the construction if it missed. -/
def Sys.resolveAlone (env : Env) (sys : Sys) (i : Nat) : Option Sys :=
  (sys.advance env i).bind fun sys₁ =>
    if (sys₁.resolves i).map Resolve.pc = some .constructing then sys₁.advance env i
    else some sys₁

/-- Run alone, a resolve leaves the cache and counter that `getPeerExecutor` leaves, and ends with
the executor it returns, or panicked where it panics. -/
lemma Sys.resolveAlone_spec {peer : Peer} (hi : sys.resolves i = some ⟨peer, .start⟩)
    (t : PeerCursors) :
    ∃ sys', sys.resolveAlone env i = some sys' ∧
      sys'.executors = (getPeerExecutor env peer ⟨t, sys.executors, sys.constructed⟩).2.executors ∧
      sys'.constructed =
        (getPeerExecutor env peer ⟨t, sys.executors, sys.constructed⟩).2.constructed ∧
      sys'.resolves i = some ⟨peer,
        match (getPeerExecutor env peer ⟨t, sys.executors, sys.constructed⟩).1 with
        | .ok x => .done x
        | _ => .panicked⟩ := by
  simp only [Sys.resolveAlone, Sys.advance, hi, getPeerExecutor]
  cases hx : sys.executors peer.name with
  | some x => simp
  | none =>
    cases hn : newExecutor env peer with
    | ok u => simp [hn, NexusBackend.insertExecutor]
    | error p => simp [hn]

/-- Run alone, a resolve does what the sequential `get_peer_executor` does: it leaves the cache
and counter that `getPeerExecutor` leaves, and ends with the executor it returns, or panicked
where it panics. -/
theorem resolveAlone_eq_getPeerExecutor {peer : Peer} (hi : sys.resolves i = some ⟨peer, .start⟩)
    (t : PeerCursors) :
    ∃ sys', sys.resolveAlone env i = some sys' ∧
      sys'.executors = (getPeerExecutor env peer ⟨t, sys.executors, sys.constructed⟩).2.executors ∧
      sys'.constructed =
        (getPeerExecutor env peer ⟨t, sys.executors, sys.constructed⟩).2.constructed ∧
      sys'.resolves i = some ⟨peer,
        match (getPeerExecutor env peer ⟨t, sys.executors, sys.constructed⟩).1 with
        | .ok x => .done x
        | _ => .panicked⟩ :=
  Sys.resolveAlone_spec hi t

theorem resolveAlone_eq_getPeerExecutor_postgres :
    ((Sys.init NexusBackend.new).spawn 0 postgresPeer).resolves 0 = some ⟨postgresPeer, .start⟩ ∧
      ∃ sys', ((Sys.init NexusBackend.new).spawn 0 postgresPeer).resolveAlone Env.accepting 0 =
          some sys' ∧
        sys'.executors = (getPeerExecutor Env.accepting postgresPeer ⟨PeerCursors.new,
          ((Sys.init NexusBackend.new).spawn 0 postgresPeer).executors,
          ((Sys.init NexusBackend.new).spawn 0 postgresPeer).constructed⟩).2.executors ∧
        sys'.constructed = (getPeerExecutor Env.accepting postgresPeer ⟨PeerCursors.new,
          ((Sys.init NexusBackend.new).spawn 0 postgresPeer).executors,
          ((Sys.init NexusBackend.new).spawn 0 postgresPeer).constructed⟩).2.constructed ∧
        sys'.resolves 0 = some ⟨postgresPeer,
          match (getPeerExecutor Env.accepting postgresPeer ⟨PeerCursors.new,
            ((Sys.init NexusBackend.new).spawn 0 postgresPeer).executors,
            ((Sys.init NexusBackend.new).spawn 0 postgresPeer).constructed⟩).1 with
          | .ok x => .done x
          | _ => .panicked⟩ :=
  ⟨rfl, resolveAlone_eq_getPeerExecutor rfl PeerCursors.new⟩

/-! ## The guarantees of serialized interleavings -/

/-- A resolve run alone from a state of a serialized interleaving, whose miss check is serialized,
continues that interleaving: its construction, if it missed, is serialized by itself. -/
lemma SerialReachable.resolveAlone {s : NexusBackend} (h : SerialReachable s sys)
    (hser : sys.SerialAt i) (h' : sys.resolveAlone env i = some sys') : SerialReachable s sys' := by
  obtain ⟨sys₁, h₁, h₂⟩ := Option.bind_eq_some.mp h'
  have hr₁ := h.advance env i hser h₁
  split at h₂
  · next hc => exact hr₁.advance env i (fun r hr hp => absurd hc (by simp [hr, hp])) h₂
  · cases h₂
    exact hr₁

/-- The guarantees of the executor cache in a state: no name is constructed twice, the entry of a
name is the executor constructed for it, all finished resolves of a name returned the same
executor, and no step replaces or removes an entry. -/
structure Sys.SharesExecutors (sys : Sys) : Prop where
  constructed_once : ∀ k, sys.constructions.countP (·.1 == k) ≤ 1
  entry_constructed : ∀ k x, (k, x) ∈ sys.constructions → sys.executors k = some x
  same_handle : ∀ j j' r r' x x', sys.resolves j = some r → sys.resolves j' = some r' →
    r.pc = .done x → r'.pc = .done x' → r.peer.name = r'.peer.name → x = x'
  entries_kept : ∀ env i sys', sys.advance env i = some sys' →
    ∀ k x, sys.executors k = some x → sys'.executors k = some x

/-- In every serialized interleaving of resolves the cache gives its guarantees, and a resolve
whose miss check is serialized, run alone, continues the interleaving and does what the sequential
`getPeerExecutor` does on the same cache and counter. -/
theorem serial_resolves_share_executor {s : NexusBackend} (h : SerialReachable s sys) :
    sys.SharesExecutors ∧
      ∀ env i peer (t : PeerCursors), sys.resolves i = some ⟨peer, .start⟩ → sys.SerialAt i →
        ∃ sys', sys.resolveAlone env i = some sys' ∧ SerialReachable s sys' ∧
          sys'.executors =
            (getPeerExecutor env peer ⟨t, sys.executors, sys.constructed⟩).2.executors ∧
          sys'.constructed =
            (getPeerExecutor env peer ⟨t, sys.executors, sys.constructed⟩).2.constructed ∧
          sys'.resolves i = some ⟨peer,
            match (getPeerExecutor env peer ⟨t, sys.executors, sys.constructed⟩).1 with
            | .ok x => .done x
            | _ => .panicked⟩ := by
  have hs := h.inv
  refine ⟨⟨hs.constructions_once, hs.constructions_cached,
    fun j j' r r' x x' hj hj' hx hx' hn => ?_, fun _ _ _ hstep _ _ hk => hs.advance_keeps_entry hstep hk⟩,
    fun env i peer t hi hser => ?_⟩
  · have h₁ := hs.done_cached j r x hj hx
    rw [hn, hs.done_cached j' r' x' hj' hx'] at h₁
    exact (Option.some.inj h₁).symm
  · obtain ⟨sys', h', hrest⟩ := Sys.resolveAlone_spec hi t
    exact ⟨sys', h', h.resolveAlone hser h', hrest⟩

/-- A serialized interleaving from a new session: a resolve of `bigqueryPeer` has missed and then
constructed and cached its executor, and a second resolve of the same peer has started. -/
def hitPending : Sys :=
  (((Sys.init NexusBackend.new).spawn 0 bigqueryPeer).resolveAlone Env.accepting 0).getD
    (Sys.init NexusBackend.new) |>.spawn 1 bigqueryPeer

/-- After a construction, the second resolve of the same peer hits: it returns the handle the
first one constructed and changes no entry. -/
theorem serial_resolves_share_executor_hit :
    SerialReachable NexusBackend.new hitPending ∧ hitPending.SharesExecutors ∧
      hitPending.resolves 0 = some ⟨bigqueryPeer, .done (.peer 0)⟩ ∧
      hitPending.constructions = [("bq", .peer 0)] ∧
      ∃ sys', hitPending.resolveAlone Env.accepting 1 = some sys' ∧
        SerialReachable NexusBackend.new sys' ∧ sys'.executors = hitPending.executors ∧
        sys'.resolves 1 = some ⟨bigqueryPeer, .done (.peer 0)⟩ := by
  have h₀ : SerialReachable NexusBackend.new ((Sys.init NexusBackend.new).spawn 0 bigqueryPeer) :=
    .spawn 0 bigqueryPeer .init rfl
  have h : SerialReachable NexusBackend.new hitPending := by
    refine .spawn 1 bigqueryPeer (h₀.resolveAlone (Sys.serialAt_of_none_constructing
      fun j r hj => ?_) (show ((Sys.init NexusBackend.new).spawn 0 bigqueryPeer).resolveAlone
        Env.accepting 0 = some _ from rfl)) rfl
    rcases resolves_update hj with ⟨-, rfl⟩ | ⟨-, hj⟩
    · simp
    · cases hj
  obtain ⟨hshare, halone⟩ := serial_resolves_share_executor h
  obtain ⟨sys', h', hr, hx, -, h1⟩ :=
    halone Env.accepting 1 bigqueryPeer PeerCursors.new rfl (Sys.serialAt_of_hit rfl rfl)
  exact ⟨h, hshare, rfl, rfl, sys', h', hr, hx, h1⟩

/-! ## Two concurrent misses -/

/-- A step of an interleaving: a new resolve starts, or resolve `i` takes its next step. -/
inductive Action where
  | spawn (i : Nat) (peer : Peer)
  | advance (env : Env) (i : Nat)

/-- The state after the steps of an interleaving, if each can be taken. -/
def Sys.run : Sys → List Action → Option Sys
  | sys, [] => some sys
  | sys, .spawn i peer :: rest => if sys.resolves i = none then (sys.spawn i peer).run rest else none
  | sys, .advance env i :: rest => (sys.advance env i).bind (·.run rest)

lemma Reachable.run {s : NexusBackend} {sys sys' : Sys} {as : List Action} (h : Reachable s sys)
    (hr : sys.run as = some sys') : Reachable s sys' := by
  induction as generalizing sys with
  | nil => cases hr; exact h
  | cons a as ih =>
    cases a with
    | spawn i peer =>
      simp only [Sys.run] at hr
      split at hr
      · exact ih (h.spawn i peer ‹_›) hr
      · cases hr
    | advance env i =>
      simp only [Sys.run] at hr
      cases ha : sys.advance env i with
      | none => simp [ha] at hr
      | some sys₁ =>
        simp only [ha, Option.bind_some] at hr
        exact ih (h.advance env i ha) hr

/-- Two dispatches resolve `bigqueryPeer`, both miss, then both constructions complete. -/
def twoMisses : List Action :=
  [.spawn 0 bigqueryPeer, .spawn 1 bigqueryPeer, .advance Env.accepting 0,
    .advance Env.accepting 1, .advance Env.accepting 0, .advance Env.accepting 1]

/-- Two concurrent misses on one name both construct an executor, the later insert replaces the
entry the first resolve returned, and the two resolves return different executors. -/
theorem concurrent_misses_replace_entry :
    ∃ sys, Reachable NexusBackend.new sys ∧
      sys.resolves 0 = some ⟨bigqueryPeer, .done (.peer 0)⟩ ∧
      sys.resolves 1 = some ⟨bigqueryPeer, .done (.peer 1)⟩ ∧
      sys.executors "bq" = some (.peer 1) ∧
      sys.constructions = [("bq", .peer 0), ("bq", .peer 1)] := by
  have hrun : ((Sys.init NexusBackend.new).run twoMisses).map (fun sys =>
      sys.resolves 0 == some ⟨bigqueryPeer, .done (.peer 0)⟩ &&
      sys.resolves 1 == some ⟨bigqueryPeer, .done (.peer 1)⟩ &&
      sys.executors "bq" == some (.peer 1) &&
      sys.constructions == [("bq", .peer 0), ("bq", .peer 1)]) = some true := by decide
  cases hr : (Sys.init NexusBackend.new).run twoMisses with
  | none => simp [hr] at hrun
  | some sys =>
    simp only [hr, Option.map_some', Option.some.injEq, Bool.and_eq_true, beq_iff_eq] at hrun
    exact ⟨sys, Reachable.init.run hr, hrun.1.1.1, hrun.1.1.2, hrun.1.2, hrun.2⟩

/-! ## What every interleaving keeps -/

/-- The executor `x` stands for the name `k`: it was the entry of `k` when the resolves started,
or a construction made it for `k`. -/
def Sys.Origin (s : NexusBackend) (sys : Sys) (k : String) (x : Executor) : Prop :=
  s.executors k = some x ∨ (k, x) ∈ sys.constructions

/-- The name `k` holds the executor `x`: as its entry in the cache, or as what a finished resolve
of `k` returned. -/
def Sys.Holds (sys : Sys) (k : String) (x : Executor) : Prop :=
  sys.executors k = some x ∨ ∃ j r, sys.resolves j = some r ∧ r.peer.name = k ∧ r.pc = .done x

/-- The invariant of every interleaving, racing misses included: what a name holds stands for that
name, and every construction got a handle of its own that the counter gave out after the start. -/
structure Sys.Named (s : NexusBackend) (sys : Sys) : Prop where
  counter : s.constructed ≤ sys.constructed
  holds : ∀ k x, sys.Holds k x → sys.Origin s k x
  fresh : ∀ k x, (k, x) ∈ sys.constructions →
    ∃ i, x = .peer i ∧ s.constructed ≤ i ∧ i < sys.constructed
  unique : ∀ k k' x, (k, x) ∈ sys.constructions → (k', x) ∈ sys.constructions → k = k'

section Named

variable {s : NexusBackend}

lemma Sys.Named.init (s : NexusBackend) : (Sys.init s).Named s := by
  refine ⟨le_rfl, fun k x h => ?_, fun _ _ h => (nomatch h), fun _ _ _ h => (nomatch h)⟩
  rcases h with h | ⟨_, _, h, -⟩
  · exact .inl h
  · cases h

/-- Setting a resolve keeps the invariant, when a finished resolve returns what stands for its
name. -/
lemma Sys.Named.update_resolve (hn : sys.Named s) (peer : Peer) (pc : Pc)
    (hd : ∀ x, pc = .done x → sys.Origin s peer.name x) :
    ({ sys with resolves := Function.update sys.resolves i (some ⟨peer, pc⟩) } : Sys).Named s := by
  refine ⟨hn.counter, fun k x h => ?_, hn.fresh, hn.unique⟩
  rcases h with h | ⟨j, r, hj, rfl, hr⟩
  · exact hn.holds k x (.inl h)
  · rcases resolves_update hj with ⟨-, rfl⟩ | ⟨-, hj⟩
    · exact hd x hr
    · exact hn.holds _ x (.inr ⟨j, r, hj, rfl, hr⟩)

/-- A completed construction keeps the invariant, whether or not another resolve of its name
raced it: the entry it writes and the handle it returns were made for its name, with a handle the
counter had not given out. -/
lemma Sys.Named.construct (hn : sys.Named s) (r : Resolve) :
    ({ executors := Function.update sys.executors r.peer.name (some (.peer sys.constructed))
       constructed := sys.constructed + 1
       resolves := Function.update sys.resolves i (some ⟨r.peer, .done (.peer sys.constructed)⟩)
       constructions := sys.constructions ++ [(r.peer.name, .peer sys.constructed)] } : Sys).Named
      s := by
  have hnew : (r.peer.name, Executor.peer sys.constructed) ∈
      sys.constructions ++ [(r.peer.name, .peer sys.constructed)] :=
    List.mem_append_right _ (List.mem_singleton_self _)
  have hmono : ∀ k x, sys.Origin s k x → s.executors k = some x ∨
      (k, x) ∈ sys.constructions ++ [(r.peer.name, .peer sys.constructed)] :=
    fun _ _ h => h.imp_right (List.mem_append_left _)
  refine ⟨Nat.le_succ_of_le hn.counter, fun k x h => ?_, fun k x hk => ?_, ?_⟩
  · rcases h with h | ⟨j, r', hj, rfl, hr⟩
    · simp only [Function.update_apply] at h
      split at h
      · subst_vars
        cases h
        exact .inr hnew
      · exact hmono _ _ (hn.holds k x (.inl h))
    · rcases resolves_update hj with ⟨-, rfl⟩ | ⟨-, hj⟩
      · cases hr
        exact .inr hnew
      · exact hmono _ _ (hn.holds _ x (.inr ⟨j, r', hj, rfl, hr⟩))
  · rcases List.mem_append.1 hk with hk | hk
    · obtain ⟨i, rfl, h1, h2⟩ := hn.fresh k x hk
      exact ⟨i, rfl, h1, Nat.lt_succ_of_lt h2⟩
    · obtain ⟨rfl, rfl⟩ := Prod.mk.inj (List.mem_singleton.1 hk)
      exact ⟨_, rfl, hn.counter, Nat.lt_succ_self _⟩
  · have hold : ∀ k, (k, Executor.peer sys.constructed) ∉ sys.constructions := fun k hk => by
      obtain ⟨i, hi, -, hlt⟩ := hn.fresh k _ hk
      cases hi
      exact Nat.lt_irrefl _ hlt
    intro k k' x hk hk'
    rcases List.mem_append.1 hk with hk | hk <;> rcases List.mem_append.1 hk' with hk' | hk'
    · exact hn.unique k k' x hk hk'
    · obtain ⟨rfl, rfl⟩ := Prod.mk.inj (List.mem_singleton.1 hk')
      exact absurd hk (hold k)
    · obtain ⟨rfl, rfl⟩ := Prod.mk.inj (List.mem_singleton.1 hk)
      exact absurd hk' (hold k')
    · rw [(Prod.mk.inj (List.mem_singleton.1 hk)).1, (Prod.mk.inj (List.mem_singleton.1 hk')).1]

/-- Every step, serialized or not, keeps the invariant. -/
lemma Sys.Named.advance (hn : sys.Named s) (h : sys.advance env i = some sys') : sys'.Named s := by
  obtain ⟨r, -, ⟨-, x, hx, rfl⟩ | ⟨-, -, rfl⟩ | ⟨-, -, rfl⟩ | ⟨-, rfl⟩⟩ := Sys.advance_cases h
  · exact hn.update_resolve r.peer (.done x) fun _ h => by cases h; exact hn.holds _ _ (.inl hx)
  · exact hn.update_resolve r.peer .constructing fun _ h => by cases h
  · exact hn.construct r
  · exact hn.update_resolve r.peer .panicked fun _ h => by cases h

lemma Reachable.named (h : Reachable s sys) : sys.Named s := by
  induction h with
  | init => exact Sys.Named.init s
  | spawn i peer _ _ ih => exact ih.update_resolve peer .start fun _ h => by cases h
  | advance env i _ hstep ih => exact ih.advance hstep

/-- From a session whose executors are distinct, what stands for a name is a peer executor. -/
lemma Sys.Named.origin_ne_catalog (hs : s.Distinct) (hn : sys.Named s) {k : String} {x : Executor}
    (h : sys.Origin s k x) : x ≠ .catalog := by
  rintro rfl
  rcases h with h | h
  · exact hs.not_catalog k h
  · obtain ⟨i, hi, -⟩ := hn.fresh k _ h
    cases hi

/-- From a session whose executors are distinct, an executor stands for one name only: two
entries of the start are distinct, a construction's handle is newer than any of them, and no two
constructions share a handle. -/
lemma Sys.Named.origin_unique (hs : s.Distinct) (hn : sys.Named s) {k k' : String}
    {x : Executor} (h : sys.Origin s k x) (h' : sys.Origin s k' x) : k = k' := by
  have hfresh : ∀ {n m y}, (n, y) ∈ sys.constructions → s.executors m ≠ some y := fun hy hm => by
    obtain ⟨i, rfl, hle, -⟩ := hn.fresh _ _ hy
    exact Nat.lt_irrefl _ (Nat.lt_of_lt_of_le (hs.allocated _ i hm) hle)
  rcases h with h | h <;> rcases h' with h' | h'
  · cases x with
    | catalog => exact absurd h (hs.not_catalog k)
    | peer i => exact hs.unique k k' i h h'
  · exact absurd h (hfresh h')
  · exact absurd h' (hfresh h)
  · exact hn.unique k k' x h h'

end Named

/-- In every interleaving of resolves, also one in which two misses race, an executor is held for
one peer name only: two entries of the cache, two finished resolves, or an entry and a resolve
that hold one executor are for the same name, and no name holds the catalog's executor. So a
statement routed to one peer never runs on an executor built for another, although a race can
replace an entry. -/
theorem resolves_keep_names_apart {s : NexusBackend} (hs : s.Distinct) (h : Reachable s sys) :
    (∀ k x, sys.Holds k x → x ≠ .catalog) ∧ ∀ k k' x, sys.Holds k x → sys.Holds k' x → k = k' :=
  have hn := h.named
  ⟨fun k x hk => hn.origin_ne_catalog hs (hn.holds k x hk),
    fun k k' x hk hk' => hn.origin_unique hs (hn.holds k x hk) (hn.holds k' x hk')⟩

/-- The state after the race of `twoMisses`. -/
def twoMissesState : Sys :=
  ((Sys.init NexusBackend.new).run twoMisses).getD (Sys.init NexusBackend.new)

/-- After the race of two misses on one name, which replaced an entry, the name still holds only
executors made for it. -/
theorem resolves_keep_names_apart_twoMisses :
    NexusBackend.new.Distinct ∧ Reachable NexusBackend.new twoMissesState ∧
      (∀ k x, twoMissesState.Holds k x → x ≠ .catalog) ∧
      ∀ k k' x, twoMissesState.Holds k x → twoMissesState.Holds k' x → k = k' :=
  have h : Reachable NexusBackend.new twoMissesState :=
    Reachable.init.run (show (Sys.init NexusBackend.new).run twoMisses = some twoMissesState from rfl)
  ⟨NexusBackend.distinct_new, h, resolves_keep_names_apart NexusBackend.distinct_new h⟩

end Nexus
