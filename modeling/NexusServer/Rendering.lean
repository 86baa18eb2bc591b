import NexusServer.ExtendedQuery
import NexusServer.PgLexer
import Mathlib.Data.Nat.Digits

/-!
# Rendering parameters as SQL literals

`parameter_to_string` writes a bound value into the prepared text: a text between quotes with no
escaping, a boolean, integer or float as Rust's `Display` writes it, and NULL as two quotes for
the text types and as nothing for the others (`parameterToString_renders`). The question is
whether PostgreSQL then reads, where the placeholder stood, a literal that denotes the value.

This file answers it for the texts that close every token (`delimits`: empty, or starting with
whitespace or punctuation and continuing no string constant): the rendering of a text with no
quote and no NUL, a boolean or an integer is read from between tokens as tokens that denote the
value, the same ones before every such text (`lexFrom_rendering_tokens`). Substitution builds on
it; `NexusServer.RenderingContext` finds the exact contexts on both sides of the placeholder in
which a rendering is read as its value.
-/

namespace Nexus

open PgLexer

/-! ## Values and literals -/

/-- A SQL value. -/
inductive SqlValue where
  | null
  | text (s : String)
  | bool (b : Bool)
  | int (n : Int)
  | float (f : RustFloat)
deriving DecidableEq, Repr

/-- The SQL value of a decoded parameter: NULL, or the value `f` makes of it. -/
def ofDecoded {α : Type} (f : α → SqlValue) : Except PgWireError (Option α) → Option SqlValue
  | .ok none => some .null
  | .ok (some v) => some (f v)
  | .error _ => none

variable (dec : FromSql)

/-- The value that parameter `idx` of a portal is bound to, read as its declared type; `none` when
the type is not one that `parameter_to_string` renders or the value does not decode. -/
def boundValue (portal : Portal) (idx : Nat) : Option SqlValue :=
  match portal.statement.parameterTypes[idx]? with
  | some .varchar | some .text => ofDecoded .text (portal.parameter dec.string idx)
  | some .bool => ofDecoded .bool (portal.parameter dec.bool idx)
  | some .int4 => ofDecoded (fun v => .int v.toInt) (portal.parameter dec.i32 idx)
  | some .int8 => ofDecoded (fun v => .int v.toInt) (portal.parameter dec.i64 idx)
  | some .float4 => ofDecoded .float (portal.parameter dec.f32 idx)
  | some .float8 => ofDecoded .float (portal.parameter dec.f64 idx)
  | _ => none

/-- The value of an unsigned integer constant. -/
def natLiteral (ds : List Char) : Option Nat :=
  if ds ≠ [] ∧ ds.all Char.isDigit then some (digitsValue ds) else none

/-- The value of the keywords TRUE, FALSE and NULL, in any case. -/
def keywordValue (name : String) : Option SqlValue :=
  if name.data.map Char.toLower = "true".data then some (.bool true)
  else if name.data.map Char.toLower = "false".data then some (.bool false)
  else if name.data.map Char.toLower = "null".data then some .null
  else none

/-- The value a literal's tokens denote: a string constant, a keyword, an integer constant, or
minus applied to one. -/
def literalValue : List Token → Option SqlValue
  | [.str s] => some (.text s)
  | [.ident name] => keywordValue name
  | [.num t] => (natLiteral t.data).map fun n => .int n
  | [.op "-", .num t] => (natLiteral t.data).map fun n => .int (-n)
  | _ => none

/-! ## What the code writes -/

/-- What `parameter_to_string` writes for a value. -/
inductive Renders : String → SqlValue → Prop
  | text (s : String) : Renders ("'" ++ s ++ "'") (.text s)
  | nullText : Renders "''" .null
  | nullOther : Renders "" .null
  | bool (b : Bool) : Renders (toString b) (.bool b)
  | int {w : Nat} (v : BitVec w) : Renders (displayInt v) (.int v.toInt)
  | float (f : RustFloat) : Renders f.toString (.float f)

variable {dec}

/-- A rendering through `Display`, or nothing for NULL. -/
lemma renderDisplay_renders {α : Type} {portal : Portal} {decode : List UInt8 → Except PgWireError α}
    {display : α → String} {f : α → SqlValue} {idx : Nat} {r : String} {v : SqlValue}
    (hrender : ∀ a, Renders (display a) (f a))
    (hr : renderDisplay portal decode display idx = .ok r)
    (hv : ofDecoded f (portal.parameter decode idx) = some v) : Renders r v := by
  simp only [renderDisplay, ofExcept_bind_pure] at hr
  rcases hp : portal.parameter decode idx with e | _ | a <;> rw [hp] at hr hv <;> cases hr <;>
    cases hv
  · exact .nullOther
  · exact hrender a

/-- `parameter_to_string` writes what `Renders` says for the value the parameter is bound to. -/
theorem parameterToString_renders {portal : Portal} {idx : Nat} {r : String} {v : SqlValue}
    (hr : parameterToString dec portal idx = .ok r) (hv : boundValue dec portal idx = some v) :
    Renders r v := by
  unfold parameterToString at hr
  unfold boundValue at hv
  rcases ht : portal.statement.parameterTypes[idx]? with _ | t
  · rw [ht] at hr
    cases hr
  rw [ht] at hr hv
  cases t with
  | varchar | text =>
    simp only [ofExcept_bind_pure] at hr
    rcases hp : portal.parameter dec.string idx with e | _ | s <;> rw [hp] at hr hv <;>
      cases hr <;> cases hv
    · exact .nullText
    · exact .text s
  | bool => exact renderDisplay_renders .bool hr hv
  | int4 | int8 => exact renderDisplay_renders .int hr hv
  | float4 | float8 => exact renderDisplay_renders .float hr hv
  | other _ => cases hr

/-! ## Decimal digits -/

lemma digitsValue_append_digit (ds : List Char) (d : Char) :
    digitsValue (ds ++ [d]) = 10 * digitsValue ds + (d.toNat - '0'.toNat) := by
  simp [digitsValue, List.foldl_append]

/-- The digits `Nat.toDigits` writes in front of `ds` read back as the number. -/
lemma toDigitsCore_digits (fuel : Nat) : ∀ (n : Nat) (ds : List Char), n < fuel →
    ∃ pre, Nat.toDigitsCore 10 fuel n ds = pre ++ ds ∧ pre ≠ [] ∧ pre.all Char.isDigit ∧
      digitsValue pre = n := by
  have hdigit : ∀ k, k < 10 → (Nat.digitChar k).isDigit ∧ (Nat.digitChar k).toNat - '0'.toNat = k :=
    by decide
  induction fuel with
  | zero => intro n _ h; omega
  | succ fuel ih =>
    intro n ds hn
    obtain ⟨hd, hv⟩ := hdigit (n % 10) (Nat.mod_lt n (by decide))
    simp only [Nat.toDigitsCore]
    split
    · refine ⟨[Nat.digitChar (n % 10)], rfl, by simp, by simp [hd], ?_⟩
      simp only [digitsValue, List.foldl_cons, List.foldl_nil, hv]
      omega
    · obtain ⟨pre, heq, hne, hall, hval⟩ := ih (n / 10) (Nat.digitChar (n % 10) :: ds) (by omega)
      refine ⟨pre ++ [Nat.digitChar (n % 10)], by simp [heq], by simp, by simp [hall, hd], ?_⟩
      rw [digitsValue_append_digit, hval, hv]
      omega

/-- A natural number's decimal text is an integer constant that denotes it. -/
lemma natLiteral_toString (n : Nat) :
    natLiteral (toString n).data = some n ∧ (toString n).data ≠ [] ∧
      (toString n).data.all Char.isDigit := by
  obtain ⟨pre, heq, hne, hall, hval⟩ := toDigitsCore_digits (n + 1) n [] (by omega)
  have hdata : (toString n).data = pre := by simpa using heq
  rw [hdata]
  exact ⟨by simp [natLiteral, hne, hall, hval], hne, hall⟩

/-! ## Reading a rendering -/

/-- A text that ends any token before it: it is empty or starts with whitespace or one of
`( ) , ;`, and its first character past whitespace and comments is not a quote. -/
def delimits (b : String) : Bool :=
  (match b.data with
    | [] => true
    | c :: _ => isSpace c || isPunct c) &&
  firstSignificant .plain b.data != some '\''

/-- The values whose rendering is a literal that every delimited text closes: a text with no quote
and no NUL, a boolean, an integer. -/
def SqlValue.safe : SqlValue → Bool
  | .text s => !(s.data.elem '\'') && !(s.data.elem '\x00')
  | .bool _ => true
  | .int _ => true
  | _ => false

lemma delimiter_cases {c : Char} (h : (isSpace c || isPunct c) = true) :
    c = ' ' ∨ c = '\t' ∨ c = '\n' ∨ c = '\r' ∨ c = '\x0c' ∨ c = '(' ∨ c = ')' ∨ c = ',' ∨
      c = ';' := by
  simpa [isSpace, isPunct, or_assoc] using h

/-- A delimited text closes a pending token `t` when the token's state steps on whitespace and
punctuation as the state between tokens does after completing `t`. -/
lemma lexFrom_closed {s : LexState} {t : Token} {b : String} (hb : delimits b)
    (hfin : lexFinish s = some [t])
    (hstep : ∀ c, (isSpace c || isPunct c) = true → lexStep s c = emit t (lexStep .idle c)) :
    lexFrom s b.data = (lexFrom .idle b.data).map (t :: ·) := by
  rcases hd : b.data with _ | ⟨c, cs⟩
  · rw [lexFrom_nil, lexFrom_nil, hfin]
    rfl
  · have hc : (isSpace c || isPunct c) = true := by
      simp only [delimits, hd, Bool.and_eq_true] at hb
      exact hb.1
    exact lexFrom_of_emit (hstep c hc) cs

lemma lexFrom_num_closed (acc : List Char) {b : String} (hb : delimits b) :
    lexFrom (.num acc) b.data = (lexFrom .idle b.data).map (.num ⟨acc⟩ :: ·) :=
  lexFrom_closed hb rfl fun c hc => by
    rcases delimiter_cases hc with rfl | rfl | rfl | rfl | rfl | rfl | rfl | rfl | rfl <;> rfl

lemma lexFrom_ident_closed (acc : List Char) {b : String} (hb : delimits b) :
    lexFrom (.ident acc) b.data = (lexFrom .idle b.data).map (.ident ⟨acc⟩ :: ·) :=
  lexFrom_closed hb rfl fun c hc => by
    rcases delimiter_cases hc with rfl | rfl | rfl | rfl | rfl | rfl | rfl | rfl | rfl <;> rfl

/-- A delimited text ends a string constant at its closing quote. -/
lemma lexFrom_strQuote_closed (acc : List Char) {b : String} (hb : delimits b) :
    lexFrom (.strQuote acc) b.data = (lexFrom .idle b.data).map (.str ⟨acc⟩ :: ·) := by
  have hq : firstSignificant .plain b.data ≠ some '\'' := by
    simp only [delimits, Bool.and_eq_true, bne_iff_ne] at hb
    exact hb.2
  rcases hd : b.data with _ | ⟨c, cs⟩
  · rfl
  · rw [hd] at hq
    have hc : c ≠ '\'' := by
      rintro rfl
      exact hq (by simp [firstSignificant, isSpace])
    rw [← (lexFrom_afterStr acc (c :: cs)).1 false hq, lexFrom_cons, lexFrom_cons]
    simp only [lexStep, if_neg hc]

lemma lexRun_str (acc : List Char) {v : List Char} (hv : ∀ c ∈ v, c ≠ '\'' ∧ c ≠ '\x00') :
    lexRun (.str acc) v = some ([], .str (acc ++ v)) := by
  induction v generalizing acc with
  | nil => simp [lexRun]
  | cons c v ih =>
    obtain ⟨hq, h0⟩ := hv c (List.mem_cons_self c v)
    simp [lexRun, lexStep, hq, h0, ih (acc ++ [c]) fun d hd => hv d (List.mem_cons_of_mem c hd)]

lemma lexRun_num (acc : List Char) {ds : List Char} (hds : ds.all Char.isDigit) :
    lexRun (.num acc) ds = some ([], .num (acc ++ ds)) := by
  induction ds generalizing acc with
  | nil => simp [lexRun]
  | cons d ds ih =>
    simp only [List.all_cons, Bool.and_eq_true] at hds
    simp [lexRun, lexStep, hds.1, ih (acc ++ [d]) hds.2]

lemma start_digit {d : Char} (h : d.isDigit) : start d = some ([], .num [d]) := by
  obtain ⟨hs, hi, -⟩ := digit_classes h
  simp [start, hs, hi, h]

lemma opStep_digit (acc : List Char) {d : Char} (h : d.isDigit) :
    opStep acc d = some (opTokens acc, .num [d]) := by
  simp [opStep, (digit_classes h).2.2, start_digit h]

/-- The digits of an unsigned integer constant, read from between tokens or after a minus. -/
lemma lexRun_digits {ds : List Char} (hne : ds ≠ []) (hds : ds.all Char.isDigit) :
    lexRun .idle ds = some ([], .num ds) ∧ lexRun (.op ['-']) ds = some ([.op "-"], .num ds) := by
  obtain ⟨d, ds, rfl⟩ := List.exists_cons_of_ne_nil hne
  simp only [List.all_cons, Bool.and_eq_true] at hds
  have hrest := lexRun_num [d] hds.2
  refine ⟨?_, ?_⟩ <;> simp only [lexRun, lexStep, start_digit hds.1, opStep_digit _ hds.1,
    Option.some_bind, hrest, Option.map_some'] <;> rfl

/-- A text with no quote and no NUL between quotes is one string constant, which the closing quote
leaves pending. -/
lemma lexRun_quoted {s : String} (hv : (SqlValue.text s).safe) :
    lexRun .idle ("'" ++ s ++ "'").data = some ([], .strQuote s.data) := by
  have hs : ∀ c ∈ s.data, c ≠ '\'' ∧ c ≠ '\x00' := by
    simp only [SqlValue.safe, Bool.and_eq_true, Bool.not_eq_true', List.elem_eq_mem,
      decide_eq_false_iff_not] at hv
    exact fun c hc => ⟨fun h => hv.1 (h ▸ hc), fun h => hv.2 (h ▸ hc)⟩
  have hq : lexRun (.str s.data) ['\''] = some ([], .strQuote s.data) := rfl
  rw [String.data_append, String.data_append, lexRun_append, lexRun_append]
  simp only [show lexRun .idle "'".data = some ([], .str []) from rfl, Option.some_bind,
    lexRun_str [] hs, List.nil_append, Option.map_some', hq]

/-- A negative integer's decimal text is a minus and the digits of its absolute value, which the
text leaves pending. -/
lemma lexRun_negSucc (m : Nat) :
    lexRun .idle (toString (Int.negSucc m)).data = some ([.op "-"], .num (toString (m + 1)).data) := by
  obtain ⟨-, hne, hds⟩ := natLiteral_toString (m + 1)
  rw [show toString (Int.negSucc m) = "-" ++ toString (m + 1) from rfl, String.data_append,
    lexRun_append]
  simp only [show lexRun .idle "-".data = some ([], .op ['-']) from rfl, Option.some_bind,
    (lexRun_digits hne hds).2, Option.map_some', List.nil_append]

/-- A run from between tokens that leaves the token `t` pending, then a text that closes it: the
reading is the run's tokens, `t`, and what the text reads. -/
lemma lexFrom_run_closed {r b : List Char} {T : List Token} {s : LexState} {t : Token}
    (hrun : lexRun .idle r = some (T, s))
    (hclose : lexFrom s b = (lexFrom .idle b).map (t :: ·)) :
    lexFrom .idle (r ++ b) = (lexFrom .idle b).map ((T ++ [t]) ++ ·) := by
  rw [lexFrom_append, hrun, Option.some_bind, hclose]
  cases lexFrom .idle b <;> simp

/-- A safe rendering reads as tokens that denote its value, the same ones before every delimited
text, which is then read afresh. -/
theorem lexFrom_rendering_tokens {r : String} {v : SqlValue} (hr : Renders r v) (hv : v.safe) :
    ∃ T, literalValue T = some v ∧ ∀ b : String, delimits b →
      lexFrom .idle (r.data ++ b.data) = (lexFrom .idle b.data).map (T ++ ·) := by
  cases hr with
  | text s =>
    exact ⟨[.str s], rfl, fun b hb =>
      lexFrom_run_closed (lexRun_quoted hv) (lexFrom_strQuote_closed s.data hb)⟩
  | nullText | nullOther | float f => cases hv
  | bool b =>
    have hrun : lexRun .idle (toString b).data = some ([], .ident (toString b).data) := by
      cases b <;> rfl
    exact ⟨[.ident (toString b)], by cases b <;> rfl,
      fun _ hb => lexFrom_run_closed hrun (lexFrom_ident_closed _ hb)⟩
  | int x =>
    unfold displayInt
    generalize x.toInt = n
    cases n with
    | ofNat m =>
      obtain ⟨hlit, hne, hds⟩ := natLiteral_toString m
      exact ⟨[.num (toString m)], by simp [literalValue, hlit],
        fun _ hb => lexFrom_run_closed (lexRun_digits hne hds).1 (lexFrom_num_closed _ hb)⟩
    | negSucc m =>
      obtain ⟨hlit, -, -⟩ := natLiteral_toString (m + 1)
      refine ⟨[.op "-", .num (toString (m + 1))], ?_,
        fun _ hb => lexFrom_run_closed (lexRun_negSucc m) (lexFrom_num_closed _ hb)⟩
      simp only [literalValue, hlit, Option.map_some']
      rfl

/-! ## Decoders -/

/-- Decoders that agree with the binary `FromSql` of postgres-types on what they accept: text of
one byte per ASCII character, a one-byte boolean, big-endian INT4 and INT8. Floats are refused. -/
def asciiDecoders : FromSql where
  string raw := if raw.all (· < 128) then .ok ⟨raw.map fun b => Char.ofNat b.toNat⟩
    else .error (.other "invalid utf-8 sequence")
  bool raw := match raw with
    | [b] => .ok (b != 0)
    | _ => .error (.other "invalid buffer size")
  i32 raw := if raw.length = 4 then .ok (BitVec.ofNat 32 (raw.foldl (fun n b => n * 256 + b.toNat) 0))
    else .error (.other "invalid buffer size")
  i64 raw := if raw.length = 8 then .ok (BitVec.ofNat 64 (raw.foldl (fun n b => n * 256 + b.toNat) 0))
    else .error (.other "invalid buffer size")
  f32 _ := .error (.other "not decoded")
  f64 _ := .error (.other "not decoded")

end Nexus
