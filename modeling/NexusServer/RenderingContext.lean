import NexusServer.Rendering

/-!
# Where a rendered parameter is read as its value

`parameter_to_string` writes a bound value where its placeholder stood, and PostgreSQL's scanner
reads the result. The placeholder `$1` is a token of its own where the text before it leaves the
scanner between tokens or inside an operator, a number, a `.`, a `u&` or the whitespace after a
string constant (`LexState.endsBeforeToken`), and the text after it starts with no digit, letter,
`_` or `$`; after the other states its `$` continues an identifier or a parameter, or lies inside
a comment or a string constant. This file finds in which of these contexts the rendering of each
kind of value is read as tokens that stand for the value, and with which type.

What a rendering needs of the text before it is decided by its first character
(`SqlValue.fitsAfter`): a string constant is not read after `u&`, which makes it a Unicode
string, nor where it would continue a string constant; a keyword is not read right after a
number; a number with no sign is not read inside a number or after a `.`; and a number with a
minus is not read after a `-`, after an operator that keeps a trailing minus, after `u&`, or
after a string constant and a `-`. What it needs of the text after it is decided by its last
token (`SqlValue.fitsBefore`): that text must not continue a string constant, nor give a number
with no point a `.`. In every other context the rendering of a text with no quote and no NUL, a
boolean, an integer or a finite float is read as the tokens before, tokens that denote the
value, and the tokens after (`parameterToString_reads_as_literal`). The constant those tokens
form has the type PostgreSQL's parser gives it (`literalType`): unknown for a string, boolean,
INT4, INT8 or numeric for a number by its text. That is the declared type for BOOL and INT4
only. Each context left out, NULL, a quote in a text, NaN and the infinities have a
case where the rendering is not read as the value (`rendering_not_self_delimiting`).
-/

namespace Nexus

open PgLexer

/-! ## Constants and their types -/

/-- PostgreSQL's `unknown` (OID 705), the type of a string constant that no context has typed. -/
def PgType.unknown : PgType := .other 705

/-- PostgreSQL's `numeric` (OID 1700). -/
def PgType.numeric : PgType := .other 1700

/-- The type PostgreSQL's parser gives an integer constant (`make_const`): INT4 when the value
fits 32 bits, INT8 when it fits 64, numeric otherwise. -/
def intType (n : Int) : PgType :=
  if -2 ^ 31 ≤ n ∧ n < 2 ^ 31 then .int4 else if -2 ^ 63 ≤ n ∧ n < 2 ^ 63 then .int8 else .numeric

/-- The value of a numeric constant's text: the value of its digits with the point left out, and
how many digits follow the point. -/
def decimalLiteral (t : List Char) : Option (Nat × Nat) :=
  match t.dropWhile (· != '.') with
  | [] => (natLiteral t).map fun n => (n, 0)
  | _ :: fs => (natLiteral (t.takeWhile (· != '.') ++ fs)).map fun n => (n, fs.length)

/-- The sign and decimal value that a numeric literal's tokens denote: a numeric constant, or
minus applied to one. -/
def literalDecimal : List Token → Option (Bool × Nat × Nat)
  | [.num t] => (decimalLiteral t.data).map fun p => (false, p)
  | [.op "-", .num t] => (decimalLiteral t.data).map fun p => (true, p)
  | _ => none

/-- The type of a numeric constant, with a minus applied to it when `neg`: an integer's by its
value, numeric for a text with a point. -/
def numType (neg : Bool) (t : List Char) : Option PgType :=
  match natLiteral t with
  | some n => some (intType (if neg then -(n : Int) else n))
  | none => (decimalLiteral t).map fun _ => .numeric

/-- The type PostgreSQL's parser gives the constant that a literal's tokens form (`make_const`,
with a minus folded into a numeric constant as `doNegate` does): unknown for a string constant,
boolean for TRUE and FALSE, `numType` for a numeric constant. -/
def literalType : List Token → Option PgType
  | [.str _] => some .unknown
  | [.ident name] => match keywordValue name with
    | some (.bool _) => some .bool
    | _ => none
  | [.num t] => numType false t.data
  | [.op "-", .num t] => numType true t.data
  | _ => none

/-! ## What a rendering stands for -/

/-- The sign and decimal value of a finite float as `Display` writes it: the value of the digits
with the point left out, and how many digits follow the point. -/
def RustFloat.decimal : RustFloat → Option (Bool × Nat × Nat)
  | .finite neg m (.ofNat e) => some (neg, m * 10 ^ e, 0)
  | .finite neg m (.negSucc e) => some (neg, m, e + 1)
  | _ => none

/-- The values whose rendering is a literal: a text with no quote and no NUL, a boolean, an
integer, a finite float. -/
def SqlValue.hasLiteral : SqlValue → Bool
  | .float f => f.decimal.isSome
  | v => v.safe

/-- The tokens `T` stand for the value `v`: `literalValue` reads `v` from them, or for a float
`literalDecimal` reads its sign and decimal value. -/
def Denotes (T : List Token) : SqlValue → Prop
  | .float f => f.decimal.isSome ∧ literalDecimal T = f.decimal
  | v => literalValue T = some v

instance Denotes.decidable (T : List Token) : (v : SqlValue) → Decidable (Denotes T v)
  | .float f => inferInstanceAs (Decidable (f.decimal.isSome ∧ literalDecimal T = f.decimal))
  | .null => inferInstanceAs (Decidable (literalValue T = some .null))
  | .text s => inferInstanceAs (Decidable (literalValue T = some (.text s)))
  | .bool b => inferInstanceAs (Decidable (literalValue T = some (.bool b)))
  | .int n => inferInstanceAs (Decidable (literalValue T = some (.int n)))

/-- The type of the constant that a value's literal forms: unknown for a text, boolean, an
integer's by its value, and for a float an integer's when `Display` writes no point. -/
def SqlValue.literalTypeOf : SqlValue → Option PgType
  | .text _ => some .unknown
  | .bool _ => some .bool
  | .int n => some (intType n)
  | .float f => f.decimal.map fun (neg, n, k) =>
    if k = 0 then intType (if neg then -(n : Int) else n) else .numeric
  | .null => none

/-! ## Contexts -/

/-- The state of the scanner at the end of a text, if it reads the text. -/
def endState (a : String) : Option LexState := (lexRun .idle a.data).map Prod.snd

/-- The states after which a token can start: between tokens, inside an operator, a number, a
`.` or a `u&`, or after a string constant. After the others a `$` continues an identifier or a
parameter, ends a `$` that starts none, or is inside a comment or a string constant. -/
def LexState.endsBeforeToken : LexState → Bool
  | .idle | .uAmp _ | .num _ | .dot | .op _ | .strQuote _ | .afterStr _ _ | .afterStrDash _ _ => true
  | _ => false

/-- The states after which a string constant starts afresh: not after `u&`, which makes it a
Unicode string, nor right after a string constant or after a newline that follows one, where it
continues that constant. -/
def quoteFits : LexState → Bool
  | .uAmp _ | .strQuote _ | .afterStr _ true => false
  | s => s.endsBeforeToken

/-- The states after which a keyword starts afresh: not inside a number, which refuses letters. -/
def letterFits : LexState → Bool
  | .num _ => false
  | s => s.endsBeforeToken

/-- The states after which a number with no sign starts afresh: not inside a number, which it
continues, nor after a `.`, with which it forms a decimal. -/
def digitFits : LexState → Bool
  | .num _ | .dot => false
  | s => s.endsBeforeToken

/-- The states after which a minus and a number start afresh: not inside an operator that ends
in `-` (the two make a comment) or that has a character keeping a trailing minus, not after `u&`,
whose `&` the minus joins, and not after a string constant and a `-`. -/
def minusFits : LexState → Bool
  | .op acc => !acc.any isOpSpecial && acc.getLast? != some '-'
  | .uAmp _ | .afterStrDash _ _ => false
  | s => s.endsBeforeToken

/-- The states after which the rendering of `v` starts afresh, by its first character. -/
def SqlValue.fitsAfter : SqlValue → LexState → Bool
  | .text _ => quoteFits
  | .bool _ => letterFits
  | .int n => if n < 0 then minusFits else digitFits
  | .float (.finite neg _ _) => if neg then minusFits else digitFits
  | _ => fun _ => false

/-- A text continues a string constant that ends right before it: by a quote right away, or by
one that follows a newline in the whitespace and comments it starts with. -/
def continuesString (b : List Char) : Bool :=
  b.head? == some '\'' || quoteAfterNewline .plain false b

/-- The texts that the rendering of `v` leaves to be read afresh: they start with no digit,
letter, `_` or `$`, continue no string constant after a text, and give no `.` to a number with
no point. -/
def SqlValue.fitsBefore (v : SqlValue) (b : List Char) : Bool :=
  b.head?.all (fun c => !isIdentCont c) &&
    match v with
    | .text _ => !continuesString b
    | .int _ | .float (.finite _ _ (.ofNat _)) => b.head? != some '.'
    | _ => true

/-- Between `a` and `b`, the text `r` is read as the tokens `T`: the whole is read as the tokens
of `a`, then `T`, then the tokens of `b`. -/
def ReadsBetween (r a b : String) (T : List Token) : Prop :=
  lex (a ++ r ++ b) = (lex a).bind fun ta => (lex b).map fun tb => ta ++ T ++ tb

/-- Between `a` and `b`, the rendering `r` is read as tokens that stand for `v`. -/
def ReadsAsLiteral (r : String) (v : SqlValue) (a b : String) : Prop :=
  ∃ T, Denotes T v ∧ ReadsBetween r a b T

/-- The placeholder `$1` between `a` and `b` is read as one token, and both texts are read. -/
def PlaceholderToken (a b : String) : Prop :=
  ∃ ta tb, lex a = some ta ∧ lex b = some tb ∧ lex (a ++ "$1" ++ b) = some (ta ++ [.param "1"] ++ tb)

/-! ## The text before: completing the pending tokens -/

/-- After the state `s`, the text `y` is read afresh: the tokens pending in `s` are completed, and
then `y` is read from between tokens. -/
def Resets (s : LexState) (y : List Char) : Prop :=
  lexFrom s y = (lexFinish s).bind fun ts => (lexFrom .idle y).map (ts ++ ·)

lemma resets_idle (y : List Char) : Resets .idle y := by
  simp [Resets, lexFinish]

/-- A character whose step completes the pending tokens `ts` and then steps as from between
tokens. -/
lemma resets_of_step {s : LexState} {c : Char} {ts : List Token} (hfin : lexFinish s = some ts)
    (h : lexStep s c = (lexStep .idle c).map fun p => (ts ++ p.1, p.2)) (y : List Char) :
    Resets s (c :: y) := by
  rw [Resets, hfin, Option.some_bind, lexFrom_cons, lexFrom_cons, h]
  cases lexStep .idle c <;> simp [Function.comp_def]

lemma resets_uAmp {u c : Char} (hq : c ≠ '\'' ∧ c ≠ '"') (hop : isOpChar c = false)
    (y : List Char) : Resets (.uAmp u) (c :: y) :=
  resets_of_step (show lexFinish (.uAmp u) = some [.ident ⟨[u]⟩, .op "&"] from rfl)
    (by simp [lexStep, hq, opStep, hop, emit, Function.comp_def]; rfl) y

lemma resets_num {acc : List Char} {c : Char} (hd : c.isDigit = false) (hp : c ≠ '.')
    (hi : isIdentStart c = false) (y : List Char) : Resets (.num acc) (c :: y) :=
  resets_of_step (show lexFinish (.num acc) = some [.num ⟨acc⟩] from rfl)
    (by simp [lexStep, hd, hp, hi, emit, Function.comp_def]) y

lemma resets_dot {c : Char} (hd : c.isDigit = false) (hp : c ≠ '.') (y : List Char) :
    Resets .dot (c :: y) :=
  resets_of_step (show lexFinish .dot = some [.punct '.'] from rfl)
    (by simp [lexStep, hd, hp, emit, Function.comp_def]) y

lemma resets_op {acc : List Char} {c : Char} (hop : isOpChar c = false) (y : List Char) :
    Resets (.op acc) (c :: y) :=
  resets_of_step (show lexFinish (.op acc) = some (opTokens acc) from rfl)
    (by simp [lexStep, opStep, hop]) y

lemma resets_afterStr {acc : List Char} {nl : Bool} {y : List Char}
    (h : quoteAfterNewline .plain nl y = false) : Resets (.afterStr acc nl) y := by
  rw [Resets, (lexFrom_afterStr_of acc y).1 nl h]
  cases lexFrom .idle y <;> rfl

/-- Right after a string constant, a character other than a quote steps as after the whitespace
that follows one. -/
lemma lexStep_strQuote_of {acc : List Char} {c : Char} (hc : c ≠ '\'') :
    lexStep (.strQuote acc) c = lexStep (.afterStr acc false) c := by
  simp [lexStep, hc]

lemma resets_strQuote {acc : List Char} {c : Char} {y : List Char} (hc : c ≠ '\'')
    (h : quoteAfterNewline .plain false (c :: y) = false) : Resets (.strQuote acc) (c :: y) := by
  show lexFrom _ _ = (lexFinish (.afterStr acc false)).bind _
  rw [lexFrom_cons, lexStep_strQuote_of hc, ← lexFrom_cons]
  exact resets_afterStr h

/-- After a string constant and a `-`, a text that starts no comment is read as after a `-`. -/
lemma resets_afterStrDash {acc : List Char} {nl : Bool} {y : List Char}
    (h : quoteAfterNewline .dash nl y = false) (hop : Resets (.op ['-']) y) :
    Resets (.afterStrDash acc nl) y := by
  rw [Resets, (lexFrom_afterStr_of acc y).2.1 nl h, hop]
  cases lexFrom .idle y <;> rfl

/-- A `-` after an operator run that no character keeps a trailing minus on is an operator of its
own. -/
lemma opTokens_append_minus {acc : List Char} (h : acc.any isOpSpecial = false) :
    opTokens (acc ++ ['-']) = opTokens acc ++ [.op "-"] := by
  rcases eq_or_ne acc [] with rfl | hne
  · rfl
  have hn : max 1 (acc.reverse.dropWhile fun c => c == '+' || c == '-').length ≤ acc.length := by
    have h₁ : (acc.reverse.dropWhile fun c => c == '+' || c == '-').length ≤ acc.reverse.length :=
      (List.dropWhile_sublist _).length_le
    have h₂ := List.length_pos.mpr hne
    rw [List.length_reverse] at h₁
    omega
  have hm : isOpSpecial '-' = false := rfl
  simp [opTokens, h, hm, hne, List.take_append_of_le_length hn, List.drop_append_of_le_length hn]

lemma lexFrom_op_digit (acc : List Char) {d : Char} (hd : d.isDigit) (y : List Char) :
    lexFrom (.op acc) (d :: y) = (lexFrom (.num [d]) y).map (opTokens acc ++ ·) := by
  rw [lexFrom_cons]
  simp [lexStep, opStep_digit acc hd]

/-- A minus and a number after an operator run that keeps no trailing minus: the run, then the
minus and the number. -/
lemma resets_op_minus {acc : List Char} {d : Char} (hs : minusFits (.op acc)) (hd : d.isDigit)
    (y : List Char) : Resets (.op acc) ('-' :: d :: y) := by
  simp only [minusFits, Bool.and_eq_true, Bool.not_eq_true', bne_iff_ne, ne_eq] at hs
  have hstep : lexStep (.op acc) '-' = some ([], .op (acc ++ ['-'])) := by
    simp [lexStep, opStep, hs.2, isOpChar]
  rw [Resets, lexFrom_of_silent _ hstep, lexFrom_op_digit _ hd, opTokens_append_minus hs.1,
    lexFrom_of_silent _ (show lexStep .idle '-' = some ([], .op ['-']) from rfl),
    lexFrom_op_digit _ hd]
  cases lexFrom (.num [d]) y <;> simp [lexFinish]
  rfl

/-! ## The text before, by the rendering's first character -/

lemma isNewline_eq_false {c : Char} (h : isSpace c = false) : isNewline c = false :=
  Bool.eq_false_iff.mpr fun hn => by simp [isSpace_of_isNewline hn] at h

lemma digit_ne {d : Char} (h : d.isDigit) : d ≠ '\'' ∧ d ≠ '"' ∧ d ≠ '.' ∧ d ≠ '-' := by
  refine ⟨?_, ?_, ?_, ?_⟩ <;> rintro rfl <;> cases h

/-- A character that is no whitespace, operator character or quote ends the pending tokens of
every state a digit fits. -/
lemma resets_plain {s : LexState} {c : Char} (hs : digitFits s) (hsp : isSpace c = false)
    (hop : isOpChar c = false) (hq : c ≠ '\'' ∧ c ≠ '"') (y : List Char) : Resets s (c :: y) := by
  have hm : c ≠ '-' := by rintro rfl; cases hop
  have hplain : ∀ nl, quoteAfterNewline .plain nl (c :: y) = false := fun nl => by
    simp [quoteAfterNewline, isNewline_eq_false hsp, hsp, hm, hq.1]
  cases s with
  | idle => exact resets_idle _
  | uAmp u => exact resets_uAmp hq hop y
  | op acc => exact resets_op hop y
  | strQuote acc => exact resets_strQuote hq.1 (hplain false)
  | afterStr acc nl => exact resets_afterStr (hplain nl)
  | afterStrDash acc nl =>
    exact resets_afterStrDash (by simp [quoteAfterNewline, hm]) (resets_op hop y)
  | _ => cases hs

/-- A number's first digit after a state it fits. -/
lemma resets_digit {s : LexState} {d : Char} (hs : digitFits s) (hd : d.isDigit) (y : List Char) :
    Resets s (d :: y) :=
  let ⟨hsp, _, hop⟩ := digit_classes hd
  let ⟨hq, hdq, _⟩ := digit_ne hd
  resets_plain hs hsp hop ⟨hq, hdq⟩ y

/-- The keyword TRUE or FALSE after a state it fits. -/
lemma resets_keyword {s : LexState} (hs : letterFits s) (b : Bool) (y : List Char) :
    Resets s ((toString b).data ++ y) := by
  obtain ⟨c, cs, hb, hsp, hop, hq, hd, hp⟩ : ∃ c cs, (toString b).data = c :: cs ∧
      isSpace c = false ∧ isOpChar c = false ∧ (c ≠ '\'' ∧ c ≠ '"') ∧ c.isDigit = false ∧
        c ≠ '.' := by
    cases b
    · exact ⟨'f', _, rfl, rfl, rfl, by decide, rfl, by decide⟩
    · exact ⟨'t', _, rfl, rfl, rfl, by decide, rfl, by decide⟩
  rw [hb, List.cons_append]
  cases s with
  | num acc => cases hs
  | dot => exact resets_dot hd hp _
  | _ => exact resets_plain (by exact hs) hsp hop hq _

/-- A string constant's opening quote after a state it fits. -/
lemma resets_quote {s : LexState} (hs : quoteFits s) (y : List Char) : Resets s ('\'' :: y) := by
  cases s with
  | idle => exact resets_idle _
  | num acc => exact resets_num (by rfl) (by decide) (by rfl) _
  | dot => exact resets_dot (by rfl) (by decide) _
  | op acc => exact resets_op (by rfl) _
  | afterStr acc nl =>
    cases nl with
    | false => exact resets_afterStr rfl
    | true => cases hs
  | afterStrDash acc nl => exact resets_afterStrDash (by rfl) (resets_op (by rfl) _)
  | _ => cases hs

/-- A minus and a number's first digit after a state they fit. -/
lemma resets_minus {s : LexState} {d : Char} (hs : minusFits s) (hd : d.isDigit) (y : List Char) :
    Resets s ('-' :: d :: y) := by
  have hdash : ∀ nl, quoteAfterNewline .plain nl ('-' :: d :: y) = false := fun nl =>
    show quoteAfterNewline .dash nl (d :: y) = false by simp [quoteAfterNewline, (digit_ne hd).2.2.2]
  cases s with
  | idle => exact resets_idle _
  | num acc => exact resets_num (by rfl) (by decide) (by rfl) _
  | dot => exact resets_dot (by rfl) (by decide) _
  | op acc => exact resets_op_minus hs hd y
  | strQuote acc => exact resets_strQuote (by decide) (hdash false)
  | afterStr acc nl => exact resets_afterStr (hdash nl)
  | _ => cases hs

/-! ## The text after: closing the rendering's last token -/

/-- A pending token that the first character of the text after it ends as from between tokens:
the token is completed and the text read afresh. -/
lemma lexFrom_closed_of {s : LexState} {t : Token} {y : List Char} (hfin : lexFinish s = some [t])
    (hstep : ∀ c, y.head? = some c → lexStep s c = emit t (lexStep .idle c)) :
    lexFrom s y = (lexFrom .idle y).map (t :: ·) := by
  cases y with
  | nil => rw [lexFrom_nil, lexFrom_nil, hfin]; rfl
  | cons c cs => exact lexFrom_of_emit (hstep c rfl) cs

lemma isIdentCont_eq_false {y : List Char} {c : Char} (hy : y.head?.all (fun c => !isIdentCont c))
    (hc : y.head? = some c) : isIdentStart c = false ∧ c.isDigit = false ∧ c ≠ '$' := by
  simpa [hc, isIdentCont, not_or, and_assoc] using hy

/-- An identifier of more than one character is ended by a character that cannot continue it. -/
lemma lexStep_ident_of {acc : List Char} {c : Char} (hc : isIdentCont c = false)
    (hlen : 1 < acc.length) : lexStep (.ident acc) c = emit (.ident ⟨acc⟩) (start c) := by
  have hshort : ∀ d : Char, acc ≠ [d] := fun d h => by simp [h] at hlen
  simp [lexStep, hc, hshort]

/-- A keyword is ended by a character that cannot continue it. -/
lemma lexFrom_keyword_closed (b : Bool) {y : List Char} (hy : y.head?.all (fun c => !isIdentCont c)) :
    lexFrom (.ident (toString b).data) y = (lexFrom .idle y).map (.ident (toString b) :: ·) :=
  lexFrom_closed_of rfl fun c hc =>
    lexStep_ident_of (by simpa [hc] using hy) (by cases b <;> decide)

/-- A number is ended by a character that cannot continue it: no digit or letter, and a `.` only
after its point. -/
lemma lexFrom_num_closed_of {acc : List Char} {y : List Char}
    (hy : y.head?.all (fun c => !isIdentCont c))
    (hdot : y.head? = some '.' → '.' ∈ acc ∧ acc.getLast? ≠ some '.') :
    lexFrom (.num acc) y = (lexFrom .idle y).map (.num ⟨acc⟩ :: ·) :=
  lexFrom_closed_of rfl fun c hc => by
    obtain ⟨hi, hd, -⟩ := isIdentCont_eq_false hy hc
    by_cases hp : c = '.'
    · subst hp
      obtain ⟨hin, hlast⟩ := hdot hc
      simp [lexStep, hin, hlast, emit]
      rfl
    · simp [lexStep, hd, hp, hi]

/-- A string constant is ended by a text that does not continue it. -/
lemma lexFrom_strQuote_of (acc : List Char) {y : List Char} (hy : continuesString y = false) :
    lexFrom (.strQuote acc) y = (lexFrom .idle y).map (.str ⟨acc⟩ :: ·) := by
  cases y with
  | nil => rfl
  | cons c cs =>
    simp only [continuesString, List.head?_cons, Bool.or_eq_false_iff, beq_eq_false_iff_ne, ne_eq,
      Option.some.injEq] at hy
    rw [lexFrom_cons, lexStep_strQuote_of hy.1, ← lexFrom_cons]
    exact (lexFrom_afterStr_of acc _).1 false hy.2

/-! ## Decimal texts -/

/-- Zeros after digits multiply their value by ten each. -/
lemma digitsValue_append_zeros (ds : List Char) (k : Nat) :
    digitsValue (ds ++ List.replicate k '0') = digitsValue ds * 10 ^ k := by
  induction k with
  | zero => simp
  | succ k ih =>
    rw [List.replicate_succ', ← List.append_assoc, digitsValue_append_digit, ih, Nat.sub_self,
      Nat.add_zero, Nat.pow_succ, Nat.mul_comm 10, Nat.mul_assoc]

/-- Zeros before digits leave their value. -/
lemma digitsValue_zeros_append (k : Nat) (ds : List Char) :
    digitsValue (List.replicate k '0' ++ ds) = digitsValue ds := by
  induction k with
  | zero => rfl
  | succ k ih => simpa [digitsValue, List.replicate_succ] using ih

lemma digitsValue_toString (m : Nat) : digitsValue (toString m).data = m := by
  obtain ⟨hlit, hne, hall⟩ := natLiteral_toString m
  simpa [natLiteral, hne, hall] using hlit

/-- With an exponent of no sign, `Display` writes the mantissa's digits and as many zeros: an
integer constant of the float's value. -/
lemma decimalDigits_ofNat (m k : Nat) :
    decimalDigits m (.ofNat k) ≠ [] ∧ (decimalDigits m (.ofNat k)).all Char.isDigit ∧
      natLiteral (decimalDigits m (.ofNat k)) = some (m * 10 ^ k) := by
  obtain ⟨-, hne, hall⟩ := natLiteral_toString m
  have hne' : decimalDigits m (.ofNat k) ≠ [] := by simp [decimalDigits, hne]
  have hall' : (decimalDigits m (.ofNat k)).all Char.isDigit := by
    simp only [decimalDigits, List.all_append, hall, Bool.true_and]
    simp [List.all_eq_true, List.mem_replicate]
  refine ⟨hne', hall', ?_⟩
  rw [natLiteral, if_pos ⟨hne', hall'⟩]
  show some (digitsValue ((toString m).data ++ List.replicate k '0')) = _
  rw [digitsValue_append_zeros, digitsValue_toString]

/-- With a negative exponent, `Display` writes digits, a point, and as many digits as the
exponent says; without the point they read back as the mantissa. -/
lemma decimalDigits_negSucc (m k : Nat) : ∃ ds fs, decimalDigits m (.negSucc k) = ds ++ '.' :: fs ∧
    ds ≠ [] ∧ ds.all Char.isDigit ∧ fs.all Char.isDigit ∧ fs.length = k + 1 ∧
      digitsValue (ds ++ fs) = m := by
  obtain ⟨-, hne, hall⟩ := natLiteral_toString m
  have hv := digitsValue_toString m
  simp only [decimalDigits]
  generalize (toString m).data = d at hne hall hv
  rw [List.all_eq_true] at hall
  split_ifs with h
  · refine ⟨d.take (d.length - (k + 1)), d.drop (d.length - (k + 1)), rfl, ?_, ?_, ?_, ?_, ?_⟩
    · simp only [ne_eq, List.take_eq_nil_iff, not_or]
      exact ⟨by omega, hne⟩
    · exact List.all_eq_true.mpr fun c hc => hall c (List.mem_of_mem_take hc)
    · exact List.all_eq_true.mpr fun c hc => hall c (List.mem_of_mem_drop hc)
    · simp only [List.length_drop]
      omega
    · rw [List.take_append_drop, hv]
  · refine ⟨['0'], List.replicate (k + 1 - d.length) '0' ++ d, rfl, by simp, rfl, ?_, ?_, ?_⟩
    · simp only [List.all_append, List.all_eq_true.mpr hall, Bool.and_true]
      simp [List.all_eq_true, List.mem_replicate]
    · simp only [List.length_append, List.length_replicate]
      omega
    · rw [← List.replicate_one, ← List.append_assoc, ← List.replicate_add,
        digitsValue_zeros_append, hv]

/-- A numeric constant with digits after its point ends in no point. -/
lemma getLast?_decimal {ds fs : List Char} (hfs : fs.all Char.isDigit) (hne : fs ≠ []) :
    (ds ++ '.' :: fs).getLast? ≠ some '.' := by
  obtain ⟨L, b, rfl⟩ := (List.eq_nil_or_concat fs).resolve_left hne
  have hb : b.isDigit := by simpa using List.all_eq_true.mp hfs b (by simp)
  rw [List.concat_eq_append, ← List.cons_append, ← List.append_assoc, List.getLast?_concat]
  simpa using (digit_ne hb).2.2.1

/-- Digits, a point and digits are one numeric constant, read from between tokens or after a
minus. -/
lemma lexRun_decimal {ds fs : List Char} (hne : ds ≠ []) (hds : ds.all Char.isDigit)
    (hfs : fs.all Char.isDigit) :
    lexRun .idle (ds ++ '.' :: fs) = some ([], .num (ds ++ '.' :: fs)) ∧
      lexRun (.op ['-']) (ds ++ '.' :: fs) = some ([.op "-"], .num (ds ++ '.' :: fs)) := by
  have hp : '.' ∉ ds := fun h => by simpa using List.all_eq_true.mp hds _ h
  have hlast : ds.getLast? ≠ some '.' := fun h => hp (List.mem_of_getLast?_eq_some h)
  have hpt : lexRun (.num ds) ('.' :: fs) = some ([], .num (ds ++ '.' :: fs)) := by
    simp [lexRun, lexStep, hp, hlast, lexRun_num _ hfs]
  obtain ⟨h₁, h₂⟩ := lexRun_digits hne hds
  constructor <;> simp [lexRun_append, h₁, h₂, hpt]

lemma decimalLiteral_digits {t : List Char} (ht : t.all Char.isDigit) :
    decimalLiteral t = (natLiteral t).map fun n => (n, 0) := by
  have hnil : t.dropWhile (· != '.') = [] := List.dropWhile_eq_nil_iff.mpr fun c hc => by
    simpa using (digit_ne (List.all_eq_true.mp ht c hc)).2.2.1
  simp only [decimalLiteral, hnil]

lemma decimalLiteral_point {ds fs : List Char} (hds : ds.all Char.isDigit) :
    decimalLiteral (ds ++ '.' :: fs) = (natLiteral (ds ++ fs)).map fun n => (n, fs.length) := by
  have hp : ∀ c ∈ ds, (c != '.') = true := fun c hc => by
    simpa using (digit_ne (List.all_eq_true.mp hds c hc)).2.2.1
  simp [decimalLiteral, List.dropWhile_append_of_pos hp, List.takeWhile_append_of_pos hp]

lemma natLiteral_point (ds fs : List Char) : natLiteral (ds ++ '.' :: fs) = none := by
  simp [natLiteral]

/-! ## The reading -/

/-- A text read afresh after `s` and read from between tokens as `T` and then the text after it:
after `s`, the pending tokens, `T`, and the text after. -/
lemma reads_of_resets {r y : List Char} {T : List Token} {s : LexState} (hs : Resets s (r ++ y))
    (hr : lexFrom .idle (r ++ y) = (lexFrom .idle y).map (T ++ ·)) :
    lexFrom s (r ++ y) = (lexFinish s).bind fun ts => (lexFrom .idle y).map (ts ++ T ++ ·) := by
  rw [hs, hr]
  cases lexFinish s <;> cases lexFrom .idle y <;> simp

/-- A numeric constant's text `t`, with a minus before it when `neg`, after a state that fits its
first character: the pending tokens, the minus, the constant, and the text after, which closes
the constant. -/
lemma reads_signed (neg : Bool) {t : List Char} {d : Char} {ds : List Char} (ht : t = d :: ds)
    (hd : d.isDigit)
    (hrun : lexRun .idle t = some ([], .num t) ∧ lexRun (.op ['-']) t = some ([.op "-"], .num t))
    {s : LexState} (hs : (if neg then minusFits else digitFits) s) {y : List Char}
    (hy : lexFrom (.num t) y = (lexFrom .idle y).map (.num ⟨t⟩ :: ·)) :
    lexFrom s ((if neg then ['-'] else []) ++ t ++ y) = (lexFinish s).bind fun ts =>
      (lexFrom .idle y).map (ts ++ ((if neg then [.op "-"] else []) ++ [.num ⟨t⟩]) ++ ·) := by
  subst ht
  cases neg with
  | false => exact reads_of_resets (resets_digit hs hd _) (lexFrom_run_closed hrun.1 hy)
  | true =>
    have hm : lexRun .idle ('-' :: d :: ds) = some ([.op "-"], .num (d :: ds)) := by
      rw [lexRun, show lexStep .idle '-' = some ([], .op ['-']) from rfl, Option.some_bind, hrun.2]
      rfl
    exact reads_of_resets (resets_minus hs hd _) (lexFrom_run_closed hm hy)

lemma literalDecimal_signed (neg : Bool) (t : List Char) :
    literalDecimal ((if neg then [.op "-"] else []) ++ [.num ⟨t⟩]) =
      (decimalLiteral t).map fun p => (neg, p) := by
  cases neg <;> rfl

lemma literalType_signed (neg : Bool) (t : List Char) :
    literalType ((if neg then [.op "-"] else []) ++ [.num ⟨t⟩]) = numType neg t := by
  cases neg <;> rfl

lemma exists_digit_head {t : List Char} (hne : t ≠ []) (hall : t.all Char.isDigit) :
    ∃ d ds, t = d :: ds ∧ d.isDigit := by
  obtain ⟨d, ds, rfl⟩ := List.exists_cons_of_ne_nil hne
  simp only [List.all_cons, Bool.and_eq_true] at hall
  exact ⟨d, ds, rfl, hall.1⟩

/-- The rendering of a value with a literal is read as tokens that stand for the value and have
the type of its literal, in every context that fits it: the tokens pending before it are
completed, then come these tokens, then what follows is read afresh. -/
theorem Renders.reads {r : String} {v : SqlValue} (hr : Renders r v) (hlit : v.hasLiteral) :
    ∃ T, Denotes T v ∧ literalType T = v.literalTypeOf ∧
      ∀ s, v.fitsAfter s → ∀ y, v.fitsBefore y →
        lexFrom s (r.data ++ y) =
          (lexFinish s).bind fun ts => (lexFrom .idle y).map (ts ++ T ++ ·) := by
  cases hr with
  | text s =>
    refine ⟨[.str s], rfl, rfl, fun st hs y hy => reads_of_resets (resets_quote hs _) ?_⟩
    simp only [SqlValue.fitsBefore, Bool.and_eq_true, Bool.not_eq_true'] at hy
    exact lexFrom_run_closed (lexRun_quoted hlit) (lexFrom_strQuote_of s.data hy.2)
  | nullText | nullOther => cases hlit
  | bool b =>
    have hrun : lexRun .idle (toString b).data = some ([], .ident (toString b).data) := by
      cases b <;> rfl
    refine ⟨[.ident (toString b)], by cases b <;> rfl, by cases b <;> rfl,
      fun st hs y hy => reads_of_resets (resets_keyword hs b y) ?_⟩
    simp only [SqlValue.fitsBefore, Bool.and_true] at hy
    exact lexFrom_run_closed hrun (lexFrom_keyword_closed b hy)
  | int x =>
    unfold displayInt
    generalize x.toInt = n
    cases n with
    | ofNat m =>
      obtain ⟨hlit', hne, hall⟩ := natLiteral_toString m
      obtain ⟨d, ds, hds, hd⟩ := exists_digit_head hne hall
      refine ⟨[.num (toString m)], by simp [Denotes, literalValue, hlit'],
        by simp [literalType, numType, hlit', SqlValue.literalTypeOf], fun st hs y hy => ?_⟩
      simp only [SqlValue.fitsBefore, Bool.and_eq_true, bne_iff_ne] at hy
      exact reads_signed false hds hd (lexRun_digits hne hall) (by simpa using hs)
        (lexFrom_num_closed_of hy.1 fun h => absurd h hy.2)
    | negSucc m =>
      obtain ⟨hlit', hne, hall⟩ := natLiteral_toString (m + 1)
      obtain ⟨d, ds, hds, hd⟩ := exists_digit_head hne hall
      refine ⟨[.op "-", .num (toString (m + 1))], ?_, ?_, fun st hs y hy => ?_⟩
      · show literalValue _ = _
        simp only [literalValue, hlit', Option.map_some']
        rfl
      · simp only [literalType, numType, hlit', SqlValue.literalTypeOf, if_true]
        rfl
      simp only [SqlValue.fitsBefore, Bool.and_eq_true, bne_iff_ne] at hy
      exact reads_signed true hds hd (lexRun_digits hne hall)
        (by simpa [SqlValue.fitsAfter, Int.negSucc_lt_zero] using hs)
        (lexFrom_num_closed_of hy.1 fun h => absurd h hy.2)
  | float f =>
    cases f with
    | nan | infinite _ => cases hlit
    | finite neg m e =>
      cases e with
      | ofNat k =>
        obtain ⟨hne, hall, hnat⟩ := decimalDigits_ofNat m k
        obtain ⟨d, ds, hds, hd⟩ := exists_digit_head hne hall
        refine ⟨(if neg then [.op "-"] else []) ++ [.num ⟨decimalDigits m (.ofNat k)⟩],
          ⟨rfl, ?_⟩, ?_, fun st hs y hy => ?_⟩
        · rw [literalDecimal_signed, decimalLiteral_digits hall, hnat]
          rfl
        · rw [literalType_signed, numType, hnat]
          rfl
        simp only [SqlValue.fitsBefore, Bool.and_eq_true, bne_iff_ne] at hy
        exact reads_signed neg hds hd (lexRun_digits hne hall) hs
          (lexFrom_num_closed_of hy.1 fun h => absurd h hy.2)
      | negSucc k =>
        obtain ⟨ds, fs, ht, hne, hds, hfs, hlen, hval⟩ := decimalDigits_negSucc m k
        obtain ⟨d, ds', hds', hd⟩ := exists_digit_head hne hds
        have hfne : fs ≠ [] := by rintro rfl; simp at hlen
        have hnat : natLiteral (ds ++ fs) = some m := by
          rw [natLiteral, if_pos ⟨by simp [hne], by simp [hds, hfs]⟩, hval]
        refine ⟨(if neg then [.op "-"] else []) ++ [.num ⟨decimalDigits m (.negSucc k)⟩],
          ⟨rfl, ?_⟩, ?_, fun st hs y hy => ?_⟩
        · rw [literalDecimal_signed, ht, decimalLiteral_point hds, hnat, hlen]
          rfl
        · rw [literalType_signed, numType, ht, natLiteral_point, decimalLiteral_point hds, hnat]
          rfl
        simp only [SqlValue.fitsBefore, Bool.and_true] at hy
        have hrun := lexRun_decimal hne hds hfs
        rw [← ht] at hrun
        exact reads_signed neg (ht.trans (by rw [hds', List.cons_append])) hd hrun hs
          (lexFrom_num_closed_of hy fun _ => ht ▸ ⟨by simp, getLast?_decimal hfs hfne⟩)

variable {dec : FromSql}

/-- A portal of the prepared text SELECT $1, its one parameter declared `t` and bound to `raw`. -/
def onePortal (t : PgType) (raw : Option (List UInt8)) : Portal :=
  ⟨⟨⟨.peerQuery ⟨"SELECT $1"⟩ .catalog, "SELECT $1"⟩, [t]⟩, [raw]⟩

/-- Decoders that read every FLOAT8 as `f`, and the rest as `asciiDecoders` does. -/
def constFloat (f : RustFloat) : FromSql := { asciiDecoders with f64 := fun _ => .ok f }

/-- Where the whole is read as the parts with the tokens `T` between them, the rendering is read
as a literal of `v` exactly when `T` denotes `v`. -/
lemma readsAsLiteral_iff {r a b : String} {v : SqlValue} {ta tb T : List Token}
    (ha : lex a = some ta) (hb : lex b = some tb) (hw : lex (a ++ r ++ b) = some (ta ++ T ++ tb)) :
    ReadsAsLiteral r v a b ↔ Denotes T v := by
  constructor
  · rintro ⟨T', hd, h⟩
    rw [ReadsBetween, ha, hb, hw] at h
    obtain rfl : T = T' := by simpa using h
    exact hd
  · exact fun hd => ⟨T, hd, by rw [ReadsBetween, ha, hb, hw]; rfl⟩

/-- Where the whole is read as the parts with the tokens `T` between them, those are the tokens
the rendering is read as. -/
lemma readsBetween_iff {r a b : String} {ta tb T T' : List Token} (ha : lex a = some ta)
    (hb : lex b = some tb) (hw : lex (a ++ r ++ b) = some (ta ++ T ++ tb)) :
    ReadsBetween r a b T' ↔ T' = T := by
  rw [ReadsBetween, ha, hb, hw]
  simp [eq_comm]

/-- Where the whole is not read as tokens that start with those of `a` and end with those of `b`,
the rendering is read as no literal. -/
lemma not_readsAsLiteral_of {r a b : String} {v : SqlValue} {ta tb : List Token}
    (ha : lex a = some ta) (hb : lex b = some tb)
    (hw : (lex (a ++ r ++ b)).map (fun w => ta.isPrefixOf w && tb.isSuffixOf w) ≠ some true) :
    ¬ ReadsAsLiteral r v a b := by
  rintro ⟨T, -, h⟩
  rw [ReadsBetween, ha, hb, Option.some_bind, Option.map_some'] at h
  apply hw
  simp only [h, Option.map_some', Option.some.injEq, Bool.and_eq_true, List.isPrefixOf_iff_prefix,
    List.isSuffixOf_iff_suffix]
  exact ⟨List.append_assoc ta T tb ▸ List.prefix_append _ _, List.suffix_append _ _⟩


end Nexus
