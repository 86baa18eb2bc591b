import NexusServer.Session

/-!
# The extended query flow

`ExtendedQueryHandler::do_query` does not bind parameters on the backend. It renders each bound
value as SQL text (`parameter_to_string`), substitutes the renderings into the prepared text
with `str::replace`, one placeholder `$1`, `$2`, … after the other, and runs the result through
the simple flow.

The bound values reach the server as bytes; `Portal::parameter` decodes them with the
`FromSql` decoders of the Rust types the server asks for, which are external and so a parameter
of this file. Rust's `Display` is modelled for the types `parameter_to_string` prints: booleans,
two's-complement integers (`BitVec`), and floating-point values (`RustFloat`), which `Display`
prints as the shortest decimal that reads back to them, without an exponent.

`doQuery_eq_simple` says that the extended flow is the simple flow on the text that the
substitution loop builds; `substituteParameters` is therefore where the two flows can differ.
-/

namespace Nexus

/-! ## Values and their display -/

/-- The declared type of a placeholder (`pgwire::api::Type`), as `parameter_to_string` tells them
apart; `other` is any type with another OID, `UNKNOWN` among them. -/
inductive PgType where
  | varchar | text | bool | int4 | int8 | float4 | float8
  | other (oid : Nat)
deriving DecidableEq, Repr

/-- A floating-point value as Rust's `Display` sees it: NaN, an infinity, or a finite value
`(-1)^neg * mantissa * 10^exp` given by the shortest decimal that reads back to it. -/
inductive RustFloat where
  | nan
  | infinite (neg : Bool)
  | finite (neg : Bool) (mantissa : Nat) (exp : Int)
deriving DecidableEq, Repr

/-- The digits of `m · 10^exp` written without an exponent, as `Display` writes a float. -/
def decimalDigits (m : Nat) : Int → List Char
  | .ofNat e => (toString m).data ++ List.replicate e '0'
  | .negSucc e =>
    let d := (toString m).data
    if e + 1 < d.length then d.take (d.length - (e + 1)) ++ '.' :: d.drop (d.length - (e + 1))
    else '0' :: '.' :: List.replicate (e + 1 - d.length) '0' ++ d

/-- `impl Display for f32` and `f64`. -/
def RustFloat.toString : RustFloat → String
  | .nan => "NaN"
  | .infinite false => "inf"
  | .infinite true => "-inf"
  | .finite neg m e => ⟨(if neg then ['-'] else []) ++ decimalDigits m e⟩

/-- `impl Display for i32` and `i64`: the two's-complement value in decimal. -/
def displayInt {w : Nat} (v : BitVec w) : String := toString v.toInt

/-- The decoders `Portal::parameter` uses for the Rust types `parameter_to_string` asks for
(`postgres_types::FromSql`), external to the server. -/
structure FromSql where
  string : List UInt8 → Except PgWireError String
  bool : List UInt8 → Except PgWireError Bool
  i32 : List UInt8 → Except PgWireError (BitVec 32)
  i64 : List UInt8 → Except PgWireError (BitVec 64)
  f32 : List UInt8 → Except PgWireError RustFloat
  f64 : List UInt8 → Except PgWireError RustFloat

/-! ## Portals -/

/-- A prepared statement in the portal store (`pgwire::api::stmt::StoredStatement`): the parsed
statement with its text, and the parameter types the client declared in Parse. -/
structure StoredStatement where
  statement : NexusParsedStatement
  parameterTypes : List PgType
deriving DecidableEq, Repr

/-- A bound portal (`pgwire::api::portal::Portal`): a prepared statement and the values of Bind,
`none` for NULL. -/
structure Portal where
  statement : StoredStatement
  parameters : List (Option (List UInt8))
deriving DecidableEq, Repr

/-- `Portal::parameter_len`. -/
def Portal.parameterLen (portal : Portal) : Nat := portal.parameters.length

/-- `Portal::parameter::<T>(idx)`: the bound value decoded, `None` for NULL. -/
def Portal.parameter {α : Type} (portal : Portal) (decode : List UInt8 → Except PgWireError α)
    (idx : Nat) : Except PgWireError (Option α) :=
  match portal.parameters[idx]? with
  | none => .error (.other "parameter index out of bound")
  | some none => .ok none
  | some (some raw) => (decode raw).map some

variable (env : Env) (dec : FromSql)

/-! ## Rendering and substitution -/

/-- The rendering of a value of a non-text type: its `to_string()`, or empty text for NULL. -/
def renderDisplay {α : Type} (portal : Portal) (decode : List UInt8 → Except PgWireError α)
    (display : α → String) (idx : Nat) : Outcome String := do
  let v ← Outcome.ofExcept (portal.parameter decode idx)
  pure ((v.map display).getD "")

/-- `parameter_to_string`: the rendering of the bound value `idx` as SQL text, chosen by its
declared type, which is unwrapped. -/
def parameterToString (portal : Portal) (idx : Nat) : Outcome String :=
  match portal.statement.parameterTypes[idx]? with
  | none => .panic .unwrapNone
  | some .varchar | some .text => do
    let v ← Outcome.ofExcept (portal.parameter dec.string idx)
    pure ("'" ++ v.getD "" ++ "'")
  | some .bool => renderDisplay portal dec.bool toString idx
  | some .int4 => renderDisplay portal dec.i32 displayInt idx
  | some .int8 => renderDisplay portal dec.i64 displayInt idx
  | some .float4 => renderDisplay portal dec.f32 RustFloat.toString idx
  | some .float8 => renderDisplay portal dec.f64 RustFloat.toString idx
  | some (.other _) => .err (.userError ⟨"ERROR", "22023", "unsupported_parameter_value"⟩)

/-- `str::replace` for a nonempty pattern, from a position `skip` characters inside the last
match: every non-overlapping occurrence of `pat`, from left to right, becomes `rep`. -/
def replaceFrom (pat rep : List Char) : Nat → List Char → List Char
  | _, [] => []
  | k + 1, _ :: s => replaceFrom pat rep k s
  | 0, c :: s =>
    if pat.isPrefixOf (c :: s) then rep ++ replaceFrom pat rep (pat.length - 1) s
    else c :: replaceFrom pat rep 0 s

/-- `str::replace`; an empty pattern matches at every character boundary. -/
def replace (s pat rep : String) : String :=
  match pat.data with
  | [] => ⟨rep.data ++ s.data.flatMap fun c => c :: rep.data⟩
  | p :: ps => ⟨replaceFrom (p :: ps) rep.data 0 s.data⟩

/-- The placeholder `$k` that the loop formats (`format!("${}", k)`). -/
def placeholder (k : Nat) : String := "$" ++ toString k

/-- The substitution loop of `ExtendedQueryHandler::do_query` over the indices `is`: the
placeholder `$(i+1)` is replaced by the rendering of parameter `i`, and `?` ends the loop on an
error. -/
def substituteFrom (portal : Portal) (sql : String) : List Nat → Outcome String
  | [] => .ok sql
  | i :: is => do
    let r ← parameterToString dec portal i
    substituteFrom portal (replace sql (placeholder (i + 1)) r) is

/-- The text `ExtendedQueryHandler::do_query` hands to the parser: the prepared text after the
loop over `0..parameter_len`. -/
def substituteParameters (portal : Portal) : Outcome String :=
  substituteFrom dec portal portal.statement.statement.query (List.range portal.parameterLen)

/-! ## The extended `do_query` -/

/-- The single response `do_query` returns: the first one of the dispatch, `EmptyQuery` if none. -/
def firstResponse : List Response → Response
  | [] => .emptyQuery
  | r :: _ => r

/-- `ExtendedQueryHandler::do_query`. -/
def ExtendedQueryHandler.doQuery (portal : Portal) : SessionM Response := do
  let sql ← SessionM.lift (substituteParameters dec portal)
  let parsed ← SessionM.lift (Outcome.ofExcept (env.parseSimpleSql sql))
  let result ← handleQuery env parsed.statement
  pure (firstResponse result)

/-! ## Spec lemmas -/

variable {env dec}

/-- The extended flow is the simple flow on the text the substitution loop builds; a failure of
the loop ends the request before anything runs. -/
theorem doQuery_eq_simple (portal : Portal) (s : NexusBackend) :
    ExtendedQueryHandler.doQuery env dec portal s =
      match substituteParameters dec portal with
      | .ok sql => (SimpleQueryHandler.doQuery env sql >>= fun rs => pure (firstResponse rs)) s
      | .err e => (.err e, s)
      | .panic p => (.panic p, s) := by
  unfold ExtendedQueryHandler.doQuery SimpleQueryHandler.doQuery
  cases substituteParameters dec portal <;>
    simp only [SessionM.lift_ok_bind, SessionM.lift_err_bind, SessionM.lift_panic_bind,
      SessionM.bind_assoc, SessionM.lift_apply]

/-- The extended flow answers with a response exactly when the simple flow, on the text the loop
built, answers with that one response and nothing else. A dispatch never answers with more than
one response, so `do_query` drops none, and its `EmptyQuery` branch is never taken. -/
theorem doQuery_ok_iff (portal : Portal) (s s' : NexusBackend) (r : Response) :
    ExtendedQueryHandler.doQuery env dec portal s = (.ok r, s') ↔
      ∃ sql, substituteParameters dec portal = .ok sql ∧
        SimpleQueryHandler.doQuery env sql s = (.ok [r], s') := by
  rw [doQuery_eq_simple]
  cases substituteParameters dec portal with
  | ok sql =>
    simp only [Outcome.ok.injEq, exists_eq_left']
    constructor
    · intro h
      obtain ⟨rs, t, hq, hp⟩ := SessionM.bind_eq_ok h
      obtain ⟨r', rfl⟩ := SimpleQueryHandler.doQuery_ok_singleton hq
      cases hp
      exact hq
    · intro h
      rw [SessionM.bind_apply, h]
      rfl
  | err e => simp
  | panic p => simp

/-- Rendering through `Portal::parameter` and `?` is the decoded value's rendering, or the
decoding error. -/
lemma ofExcept_bind_pure {α : Type} (x : Except PgWireError α) (g : α → String) :
    (Outcome.ofExcept x >>= fun v => pure (g v)) =
      match x with
      | .ok v => .ok (g v)
      | .error e => .err e := by
  cases x <;> rfl

/-- The loop from the `k`-th parameter on stops at the first one whose rendering fails, and fails
as that rendering does; it succeeds exactly when every rendering does. -/
lemma substituteFrom_range'_first_failure (portal : Portal) : ∀ m k (sql : String),
    ((substituteFrom dec portal sql (List.range' k m)).IsOk ↔
      ∀ i, k ≤ i → i < k + m → (parameterToString dec portal i).IsOk) ∧
    ∀ i, k ≤ i → i < k + m → (∀ j, k ≤ j → j < i → (parameterToString dec portal j).IsOk) →
      ¬ (parameterToString dec portal i).IsOk →
        substituteFrom dec portal sql (List.range' k m) = parameterToString dec portal i
  | 0, _, _ => ⟨iff_of_true trivial fun _ _ h => absurd h (by omega), fun _ _ h => absurd h (by omega)⟩
  | m + 1, k, sql => by
    rw [List.range'_succ, substituteFrom]
    have hfirst : ∀ i, k ≤ i → (∀ j, k ≤ j → j < i → (parameterToString dec portal j).IsOk) →
        ¬ (parameterToString dec portal i).IsOk → ¬ (parameterToString dec portal k).IsOk →
        i = k := fun i hki hok _ hk => by
      by_contra hne
      exact hk (hok k le_rfl (by omega))
    rcases hk : parameterToString dec portal k with r | e | p
    · obtain ⟨ih₁, ih₂⟩ :=
        substituteFrom_range'_first_failure portal m (k + 1) (replace sql (placeholder (k + 1)) r)
      rw [Outcome.ok_bind]
      refine ⟨ih₁.trans ⟨fun h i hki hi => ?_, fun h i hki hi => h i (by omega) (by omega)⟩,
        fun i hki hi hok hfail => ih₂ i ?_ (by omega) (fun j hj hji => hok j (by omega) hji) hfail⟩
      · rcases Nat.eq_or_lt_of_le hki with rfl | hki
        · rw [hk]
          trivial
        · exact h i hki (by omega)
      · rcases Nat.eq_or_lt_of_le hki with rfl | hki
        · rw [hk] at hfail
          exact absurd trivial hfail
        · exact hki
    all_goals
      refine ⟨iff_of_false id fun h => ?_, fun i hki _ hok hfail => ?_⟩
      · have := h k le_rfl (by omega)
        rw [hk] at this
        exact this
      · rw [hfirst i hki hok hfail (by rw [hk]; exact id), hk]
        rfl

/-- The substitution loop stops at the first parameter whose rendering fails, and the extended flow
fails as that rendering does: no later parameter decides the outcome. The loop succeeds exactly
when every rendering does. -/
theorem substituteParameters_first_failure (portal : Portal) :
    ((substituteParameters dec portal).IsOk ↔
      ∀ i < portal.parameterLen, (parameterToString dec portal i).IsOk) ∧
    ∀ i < portal.parameterLen, (∀ j < i, (parameterToString dec portal j).IsOk) →
      ¬ (parameterToString dec portal i).IsOk →
        substituteParameters dec portal = parameterToString dec portal i := by
  obtain ⟨h₁, h₂⟩ := substituteFrom_range'_first_failure portal portal.parameterLen 0
    portal.statement.statement.query
  rw [substituteParameters, List.range_eq_range']
  exact ⟨h₁.trans ⟨fun h i hi => h i (Nat.zero_le i) (by omega), fun h i _ hi => h i (by omega)⟩,
    fun i hi hok hfail => h₂ i (Nat.zero_le i) (by omega) (fun j _ hj => hok j hj) hfail⟩

/-- The substitution loop of a portal whose Parse declared no type and whose Bind gave a value
panics at the first parameter. -/
def untypedPortal : Portal :=
  ⟨⟨⟨.peerQuery ⟨"SELECT $1"⟩ .catalog, "SELECT $1"⟩, []⟩, [some [0, 0, 0, 42]]⟩

theorem doQuery_untyped_parameter_panics (s : NexusBackend) :
    (ExtendedQueryHandler.doQuery env dec untypedPortal s).1 = .panic .unwrapNone := rfl

/-! ## The reference substitution -/

/-- The value of a run of decimal digits. -/
def digitsValue (ds : List Char) : Nat := ds.foldl (fun n d => 10 * n + (d.toNat - '0'.toNat)) 0

/-- What the reference pass emits for a `$` followed by the maximal digit run `ds`: the rendering
`rs[k-1]` if the run denotes some `1 ≤ k ≤ n`, the text itself otherwise. -/
def placeholderText (rs : List String) (ds : List Char) : List Char :=
  if ds ≠ [] ∧ 1 ≤ digitsValue ds ∧ digitsValue ds ≤ rs.length then (rs.getD (digitsValue ds - 1) "").data
  else '$' :: ds

/-- The substitution as the spec states it, for comparison with the loop: one simultaneous
left-to-right pass that replaces each placeholder token by its rendering and copies every other
character; `pending = some ds` after a `$` and the digits `ds` read since. -/
def placeholderPass (rs : List String) : Option (List Char) → List Char → List Char
  | none, [] => []
  | none, c :: s => if c = '$' then placeholderPass rs (some []) s else c :: placeholderPass rs none s
  | some ds, [] => placeholderText rs ds
  | some ds, c :: s =>
    if c.isDigit then placeholderPass rs (some (ds ++ [c])) s
    else placeholderText rs ds ++
      if c = '$' then placeholderPass rs (some []) s else c :: placeholderPass rs none s

/-- Ten text placeholders bound to NULL, the prepared text using the tenth. -/
def tenNullTexts : Portal :=
  ⟨⟨⟨.peerQuery ⟨"SELECT $10"⟩ .catalog, "SELECT $10"⟩, List.replicate 10 .text⟩,
    List.replicate 10 none⟩

/-- With ten parameters the loop's first step replaces the `$1` inside `$10`: the extended flow
runs the simple flow on `SELECT ''0`, where the one-pass substitution gives `SELECT ''`. -/
theorem doQuery_tenth_placeholder_diverges (s : NexusBackend) :
    substituteParameters dec tenNullTexts = .ok "SELECT ''0" ∧
    (⟨placeholderPass (List.replicate 10 "''") none "SELECT $10".data⟩ : String) = "SELECT ''" ∧
    ExtendedQueryHandler.doQuery env dec tenNullTexts s =
      (SimpleQueryHandler.doQuery env "SELECT ''0" >>= fun rs => pure (firstResponse rs)) s := by
  have hloop : substituteParameters dec tenNullTexts = .ok "SELECT ''0" := rfl
  refine ⟨hloop, by decide, ?_⟩
  rw [doQuery_eq_simple, hloop]

end Nexus
