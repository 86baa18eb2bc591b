import NexusServer.Basic

/-!
# The PostgreSQL lexer

Modelled from PostgreSQL's scanner (`scan.l`), with `standard_conforming_strings` on, for the
fragment that the rendering of parameters meets: whitespace and `--` comments, identifiers and
keywords, numeric constants, parameters, operators with their rules on comments and on a trailing
`+` or `-`, string constants with doubled quotes and with the continuation across a newline, and
the punctuation `( ) , ; .`. The scanner is a machine over the characters (`lexStep`) with a state
for each place inside a token, and `lex` reads a whole text.

Everything outside the fragment is refused (`none`), among it what PostgreSQL versions read
differently: dollar quotes, quoted identifiers, the prefixed strings `E'`, `B'`, `X'`, `N'` and
`U&'`, block comments, `::` and brackets, exponents and junk after numbers and parameters, and
NUL. On a text the machine accepts it reads the tokens PostgreSQL reads, so a statement about the
texts it accepts is a statement about PostgreSQL.

A run splits at every point (`lexRun_append`). After a string constant the machine looks past
whitespace and comments for a quote that continues it, one right after the closing quote or after
a newline; when there is none, the constant ends there and what follows is read afresh
(`lexFrom_afterStr_of`).
-/

namespace Nexus

/-! ## Tokens and states -/

/-- A token of the fragment; names are kept as written. -/
inductive Token where
  /-- An identifier or a keyword. -/
  | ident (name : String)
  /-- A string constant, by its value. -/
  | str (value : String)
  /-- A numeric constant, by its text. -/
  | num (text : String)
  /-- A parameter, by the digits after its `$`. -/
  | param (digits : String)
  | op (name : String)
  /-- One of `( ) , ; .`. -/
  | punct (c : Char)
deriving DecidableEq, Repr

/-- Where the scanner stands, with what it has read of the token it is in. -/
inductive LexState where
  /-- Between tokens. -/
  | idle
  | ident (acc : List Char)
  /-- Read the one-letter identifier `u` (or `U`) and an `&`: a Unicode string may begin. -/
  | uAmp (u : Char)
  | num (acc : List Char)
  /-- Read a `.` that starts a token. -/
  | dot
  /-- Read a `$` that starts a token. -/
  | dollar
  | param (acc : List Char)
  | op (acc : List Char)
  /-- Inside a `--` comment. -/
  | comment
  /-- Inside a string constant. -/
  | str (acc : List Char)
  /-- Read a quote inside a string constant: its end, or the first of a doubled quote. -/
  | strQuote (acc : List Char)
  /-- After a string constant, in whitespace and comments; `nl` once they held a newline. -/
  | afterStr (acc : List Char) (nl : Bool)
  /-- The same, having read a `-`. -/
  | afterStrDash (acc : List Char) (nl : Bool)
  /-- The same, inside a `--` comment. -/
  | afterStrComment (acc : List Char)
deriving DecidableEq, Repr

namespace PgLexer

/-- The whitespace of the scanner. -/
def isSpace (c : Char) : Bool := " \t\n\r\x0c".data.elem c

def isNewline (c : Char) : Bool := "\n\r".data.elem c

def isIdentStart (c : Char) : Bool := c.isAlpha || c == '_'

def isIdentCont (c : Char) : Bool := isIdentStart c || c.isDigit || c == '$'

def isOpChar (c : Char) : Bool := "~!@#^&|`?+-*/%<>=".data.elem c

/-- The operator characters that keep a trailing `+` or `-` on an operator. -/
def isOpSpecial (c : Char) : Bool := "~!@#^&|`?%".data.elem c

def isPunct (c : Char) : Bool := "(),;".data.elem c

lemma isSpace_of_isNewline {c : Char} (h : isNewline c) : isSpace c := by
  have hsub : ∀ d ∈ "\n\r".data, d ∈ " \t\n\r\x0c".data := by decide
  simp only [isNewline, isSpace, List.elem_iff] at h ⊢
  exact hsub c h

lemma isDigit_eq (c : Char) : c.isDigit = (decide (48 ≤ c.toNat) && decide (c.toNat ≤ 57)) := rfl

lemma isAlpha_eq (c : Char) :
    c.isAlpha = ((decide (65 ≤ c.toNat) && decide (c.toNat ≤ 90)) ||
      (decide (97 ≤ c.toNat) && decide (c.toNat ≤ 122))) := rfl

/-- A character whose code is that of a digit is in no list of characters with other codes. -/
lemma elem_eq_false_of_digit {d : Char} {cs : List Char}
    (hcs : ∀ c ∈ cs, c.toNat < 48 ∨ 57 < c.toNat) (hd : 48 ≤ d.toNat ∧ d.toNat ≤ 57) :
    cs.elem d = false :=
  Bool.eq_false_iff.mpr fun h => by
    have := hcs d (List.elem_iff.mp h)
    omega

/-- A digit is neither whitespace, the start of an identifier, nor an operator character. -/
lemma digit_classes {d : Char} (h : d.isDigit) :
    isSpace d = false ∧ isIdentStart d = false ∧ isOpChar d = false := by
  have hd : 48 ≤ d.toNat ∧ d.toNat ≤ 57 := by simpa [isDigit_eq] using h
  have hu : d ≠ '_' := fun h => by rw [h] at hd; exact absurd hd (by decide)
  refine ⟨elem_eq_false_of_digit (by decide) hd, ?_, elem_eq_false_of_digit (by decide) hd⟩
  simp only [isIdentStart, isAlpha_eq, Bool.or_eq_false_iff, Bool.and_eq_false_iff,
    decide_eq_false_iff_not, beq_eq_false_iff_ne, ne_eq, hu, not_false_eq_true, and_true]
  omega

/-- The operators an operator run stands for: a run of more than one character that ends in `+`
or `-` and has no character that keeps it loses its trailing `+` and `-`, each of which is read
again as an operator of its own. -/
def opTokens (acc : List Char) : List Token :=
  let n := if acc.any isOpSpecial then acc.length
    else max 1 (acc.reverse.dropWhile fun c => c == '+' || c == '-').length
  if acc = [] then [] else .op ⟨acc.take n⟩ :: (acc.drop n).map fun c => .op ⟨[c]⟩

/-- Prepend a token that a step completes to the tokens of the step that follows it. -/
def emit (t : Token) (o : Option (List Token × LexState)) : Option (List Token × LexState) :=
  o.map fun p => (t :: p.1, p.2)

/-- The step from between tokens. -/
def start (c : Char) : Option (List Token × LexState) :=
  if isSpace c then some ([], .idle)
  else if isIdentStart c then some ([], .ident [c])
  else if c.isDigit then some ([], .num [c])
  else if c = '.' then some ([], .dot)
  else if c = '$' then some ([], .dollar)
  else if c = '\'' then some ([], .str [])
  else if isOpChar c then some ([], .op [c])
  else if isPunct c then some ([.punct c], .idle)
  else none

/-- The step inside an operator run: `--` starts a comment and ends the run before it, `/*` is
refused, and any other character ends the run. -/
def opStep (acc : List Char) (c : Char) : Option (List Token × LexState) :=
  if isOpChar c then
    if acc.getLast? = some '-' ∧ c = '-' then some (opTokens acc.dropLast, .comment)
    else if acc.getLast? = some '/' ∧ c = '*' then none
    else some ([], .op (acc ++ [c]))
  else (start c).map fun p => (opTokens acc ++ p.1, p.2)

/-- The step after a string constant: a quote continues it when a newline came before, and any
other character that is neither whitespace nor the start of a comment ends it. -/
def afterStrStep (acc : List Char) (nl : Bool) (c : Char) : Option (List Token × LexState) :=
  if isNewline c then some ([], .afterStr acc true)
  else if isSpace c then some ([], .afterStr acc nl)
  else if c = '-' then some ([], .afterStrDash acc nl)
  else if c = '\'' then (if nl then some ([], .str acc) else some ([.str ⟨acc⟩], .str []))
  else emit (.str ⟨acc⟩) (start c)

end PgLexer

open PgLexer

/-- One step of the scanner: the tokens the character completes, and the state after it. -/
def lexStep : LexState → Char → Option (List Token × LexState)
  | .idle, c => start c
  | .ident acc, c =>
    if isIdentCont c then some ([], .ident (acc ++ [c]))
    else if c = '\'' ∧ acc ∈ [['e'], ['E'], ['b'], ['B'], ['x'], ['X'], ['n'], ['N']] then none
    else if c = '&' ∧ (acc = ['u'] ∨ acc = ['U']) then some ([], .uAmp (acc.headD 'u'))
    else emit (.ident ⟨acc⟩) (start c)
  | .uAmp u, c => if c = '\'' ∨ c = '"' then none else emit (.ident ⟨[u]⟩) (opStep ['&'] c)
  | .num acc, c =>
    if c.isDigit then some ([], .num (acc ++ [c]))
    else if c = '.' then
      if acc.getLast? = some '.' then none
      else if '.' ∈ acc then emit (.num ⟨acc⟩) (some ([], .dot))
      else some ([], .num (acc ++ [c]))
    else if isIdentStart c then none
    else emit (.num ⟨acc⟩) (start c)
  | .dot, c =>
    if c.isDigit then some ([], .num ['.', c])
    else if c = '.' then none
    else emit (.punct '.') (start c)
  | .dollar, c => if c.isDigit then some ([], .param [c]) else none
  | .param acc, c =>
    if c.isDigit then some ([], .param (acc ++ [c]))
    else if isIdentCont c then none
    else emit (.param ⟨acc⟩) (start c)
  | .op acc, c => opStep acc c
  | .comment, c =>
    if c = '\x00' then none else if isNewline c then some ([], .idle) else some ([], .comment)
  | .str acc, c =>
    if c = '\x00' then none
    else if c = '\'' then some ([], .strQuote acc) else some ([], .str (acc ++ [c]))
  | .strQuote acc, c => if c = '\'' then some ([], .str (acc ++ ['\''])) else afterStrStep acc false c
  | .afterStr acc nl, c => afterStrStep acc nl c
  | .afterStrDash acc _, c =>
    if c = '-' then some ([], .afterStrComment acc) else emit (.str ⟨acc⟩) (opStep ['-'] c)
  | .afterStrComment acc, c =>
    if c = '\x00' then none
    else if isNewline c then some ([], .afterStr acc true) else some ([], .afterStrComment acc)

/-- The tokens still open at the end of the text; an unfinished string or `$` is refused. -/
def lexFinish : LexState → Option (List Token)
  | .idle => some []
  | .ident acc => some [.ident ⟨acc⟩]
  | .uAmp u => some [.ident ⟨[u]⟩, .op "&"]
  | .num acc => some [.num ⟨acc⟩]
  | .dot => some [.punct '.']
  | .dollar => none
  | .param acc => some [.param ⟨acc⟩]
  | .op acc => some (opTokens acc)
  | .comment => some []
  | .str _ => none
  | .strQuote acc => some [.str ⟨acc⟩]
  | .afterStr acc _ => some [.str ⟨acc⟩]
  | .afterStrDash acc _ => some [.str ⟨acc⟩, .op "-"]
  | .afterStrComment acc => some [.str ⟨acc⟩]

/-- The scanner over a run of characters: the tokens completed, and the state it ends in. -/
def lexRun : LexState → List Char → Option (List Token × LexState)
  | s, [] => some ([], s)
  | s, c :: cs => (lexStep s c).bind fun p => (lexRun p.2 cs).map fun q => (p.1 ++ q.1, q.2)

/-- The tokens of a run read to its end from the state `s`. -/
def lexFrom (s : LexState) (cs : List Char) : Option (List Token) :=
  (lexRun s cs).bind fun p => (lexFinish p.2).map (p.1 ++ ·)

/-- The tokens of a text, or `none` when it leaves the fragment or is not well formed. -/
def lex (text : String) : Option (List Token) := lexFrom .idle text.data

example : lex "SELECT 1 --5" = some [.ident "SELECT", .num "1"] := rfl
example : lex "x @-5" = some [.ident "x", .op "@-", .num "5"] := rfl
example : lex "'a'\n'b' 'c'" = some [.str "ab", .str "c"] := rfl

/-! ## Runs -/

lemma lexFrom_nil (s : LexState) : lexFrom s [] = lexFinish s := by
  simp [lexFrom, lexRun]

lemma lexFrom_cons (s : LexState) (c : Char) (cs : List Char) :
    lexFrom s (c :: cs) = (lexStep s c).bind fun p => (lexFrom p.2 cs).map (p.1 ++ ·) := by
  simp only [lexFrom, lexRun, Option.bind_assoc, Option.bind_map_comm, Option.map_bind]
  congr 1
  funext p
  cases lexRun p.2 cs <;> simp [Function.comp_def]

/-- A run splits at every point. -/
theorem lexRun_append (s : LexState) (a b : List Char) :
    lexRun s (a ++ b) =
      (lexRun s a).bind fun p => (lexRun p.2 b).map fun q => (p.1 ++ q.1, q.2) := by
  induction a generalizing s with
  | nil => simp [lexRun]
  | cons c a ih =>
    rw [List.cons_append, lexRun, lexRun]
    cases lexStep s c with
    | none => rfl
    | some p =>
      simp only [Option.some_bind, ih]
      cases lexRun p.2 a with
      | none => rfl
      | some q => simp [Option.map_map, Function.comp_def, List.append_assoc]

lemma lexFrom_append (s : LexState) (a b : List Char) :
    lexFrom s (a ++ b) = (lexRun s a).bind fun p => (lexFrom p.2 b).map (p.1 ++ ·) := by
  simp only [lexFrom, lexRun_append, Option.bind_assoc]
  congr 1
  funext p
  cases lexRun p.2 b <;> simp [Function.comp_def]

/-- A step that completes the token `t` and then steps as `s'` would: the whole reading is `t`
followed by what `s'` reads. -/
lemma lexFrom_of_emit {s s' : LexState} {c : Char} {t : Token}
    (h : lexStep s c = emit t (lexStep s' c)) (cs : List Char) :
    lexFrom s (c :: cs) = (lexFrom s' (c :: cs)).map (t :: ·) := by
  rw [lexFrom_cons, lexFrom_cons, h, emit]
  cases lexStep s' c <;> simp [Function.comp_def]

/-- A step that completes no token. -/
lemma lexFrom_of_silent {s : LexState} (s' : LexState) {c : Char} (h : lexStep s c = some ([], s'))
    (cs : List Char) : lexFrom s (c :: cs) = lexFrom s' cs := by
  rw [lexFrom_cons, h]
  simp

/-! ## Where a string constant ends -/

/-- Where a search for the first significant character stands: plain, after a `-`, or inside a
`--` comment. -/
inductive SkipMode where
  | plain
  | dash
  | comment

/-- The first character of a text past whitespace and `--` comments. -/
def firstSignificant : SkipMode → List Char → Option Char
  | .plain, [] => none
  | .dash, [] => some '-'
  | .comment, [] => none
  | .plain, c :: cs =>
    if isSpace c then firstSignificant .plain cs
    else if c = '-' then firstSignificant .dash cs else some c
  | .dash, c :: cs => if c = '-' then firstSignificant .comment cs else some '-'
  | .comment, c :: cs =>
    if isNewline c then firstSignificant .plain cs else firstSignificant .comment cs

/-- Whether, past whitespace and `--` comments, the first significant character is a quote that
follows a newline among them (`nl`: a newline was passed already). Such a quote continues a string
constant that ended before the text. -/
def quoteAfterNewline : SkipMode → Bool → List Char → Bool
  | _, _, [] => false
  | .plain, nl, c :: cs =>
    if isNewline c then quoteAfterNewline .plain true cs
    else if isSpace c then quoteAfterNewline .plain nl cs
    else if c = '-' then quoteAfterNewline .dash nl cs
    else nl && c == '\''
  | .dash, nl, c :: cs => c == '-' && quoteAfterNewline .comment nl cs
  | .comment, nl, c :: cs =>
    if isNewline c then quoteAfterNewline .plain true cs else quoteAfterNewline .comment nl cs

/-- After a string constant, a text that does not continue it ends the constant: the machine reads
the constant and then what the text reads afresh. A quote that no newline precedes starts a new
constant. The three parts follow the states that whitespace, a `-` and a comment lead to. -/
theorem lexFrom_afterStr_of (acc : List Char) (b : List Char) :
    (∀ nl, quoteAfterNewline .plain nl b = false →
      lexFrom (.afterStr acc nl) b = (lexFrom .idle b).map (.str ⟨acc⟩ :: ·)) ∧
    (∀ nl, quoteAfterNewline .dash nl b = false →
      lexFrom (.afterStrDash acc nl) b = (lexFrom (.op ['-']) b).map (.str ⟨acc⟩ :: ·)) ∧
    (∀ nl, quoteAfterNewline .comment nl b = false →
      lexFrom (.afterStrComment acc) b = (lexFrom .comment b).map (.str ⟨acc⟩ :: ·)) := by
  induction b with
  | nil => exact ⟨fun _ _ => rfl, fun _ _ => rfl, fun _ _ => rfl⟩
  | cons c b ih =>
    obtain ⟨ihPlain, ihDash, ihComment⟩ := ih
    refine ⟨fun nl hq => ?plain, fun nl hq => ?dash, fun nl hq => ?comment⟩
    case plain =>
      by_cases hn : isNewline c
      · have hs := isSpace_of_isNewline hn
        rw [lexFrom_of_silent (.afterStr acc true) (by simp [lexStep, afterStrStep, hn]),
          lexFrom_of_silent .idle (by simp [lexStep, start, hs])]
        exact ihPlain true (by simpa [quoteAfterNewline, hn] using hq)
      by_cases hs : isSpace c
      · rw [lexFrom_of_silent (.afterStr acc nl) (by simp [lexStep, afterStrStep, hn, hs]),
          lexFrom_of_silent .idle (by simp [lexStep, start, hs])]
        exact ihPlain nl (by simpa [quoteAfterNewline, hn, hs] using hq)
      by_cases hd : c = '-'
      · subst hd
        rw [lexFrom_of_silent (.afterStrDash acc nl) (by simp [lexStep, afterStrStep, hn, hs]),
          lexFrom_of_silent (.op ['-']) (by decide)]
        exact ihDash nl (by simpa [quoteAfterNewline] using hq)
      by_cases hc : c = '\''
      · subst hc
        have hnl : nl = false := by simpa [quoteAfterNewline] using hq
        subst hnl
        exact lexFrom_of_emit (show lexStep (.afterStr acc false) '\'' =
          emit (.str ⟨acc⟩) (lexStep .idle '\'') from rfl) b
      · exact lexFrom_of_emit (by simp [lexStep, afterStrStep, hn, hs, hd, hc]) b
    case dash =>
      by_cases hd : c = '-'
      · subst hd
        rw [lexFrom_of_silent (.afterStrComment acc) (by simp [lexStep]),
          lexFrom_of_silent .comment (by decide)]
        exact ihComment nl (by simpa [quoteAfterNewline] using hq)
      · exact lexFrom_of_emit (by simp [lexStep, hd]) b
    case comment =>
      by_cases h0 : c = '\x00'
      · subst h0
        simp [lexFrom_cons, lexStep]
      by_cases hn : isNewline c
      · rw [lexFrom_of_silent (.afterStr acc true) (by simp [lexStep, h0, hn]),
          lexFrom_of_silent .idle (by simp [lexStep, h0, hn])]
        exact ihPlain true (by simpa [quoteAfterNewline, hn] using hq)
      · rw [lexFrom_of_silent (.afterStrComment acc) (by simp [lexStep, h0, hn]),
          lexFrom_of_silent .comment (by simp [lexStep, h0, hn])]
        exact ihComment nl (by simpa [quoteAfterNewline, hn] using hq)

/-- A text whose first significant character is not a quote continues no string constant. -/
lemma quoteAfterNewline_eq_false : ∀ {mode : SkipMode} {nl : Bool} {b : List Char},
    firstSignificant mode b ≠ some '\'' → quoteAfterNewline mode nl b = false
  | _, _, [], _ => by cases ‹SkipMode› <;> rfl
  | .plain, nl, c :: cs, h => by
    by_cases hn : isNewline c
    · simpa [quoteAfterNewline, hn] using
        quoteAfterNewline_eq_false (by simpa [firstSignificant, isSpace_of_isNewline hn] using h)
    by_cases hs : isSpace c
    · simpa [quoteAfterNewline, hn, hs] using
        quoteAfterNewline_eq_false (by simpa [firstSignificant, hs] using h)
    by_cases hd : c = '-'
    · subst hd
      simpa [quoteAfterNewline] using quoteAfterNewline_eq_false (by simpa [firstSignificant] using h)
    · simp_all [quoteAfterNewline, firstSignificant]
  | .dash, nl, c :: cs, h => by
    by_cases hd : c = '-'
    · subst hd
      simpa [quoteAfterNewline] using quoteAfterNewline_eq_false (by simpa [firstSignificant] using h)
    · simp [quoteAfterNewline, hd]
  | .comment, nl, c :: cs, h => by
    by_cases hn : isNewline c
    · simpa [quoteAfterNewline, hn] using
        quoteAfterNewline_eq_false (by simpa [firstSignificant, hn] using h)
    · simpa [quoteAfterNewline, hn] using
        quoteAfterNewline_eq_false (by simpa [firstSignificant, hn] using h)

/-- After a string constant, a text whose first significant character is not a quote ends the
constant: the machine reads the constant and then what the text reads afresh. -/
theorem lexFrom_afterStr (acc : List Char) (b : List Char) :
    (∀ nl, firstSignificant .plain b ≠ some '\'' →
      lexFrom (.afterStr acc nl) b = (lexFrom .idle b).map (.str ⟨acc⟩ :: ·)) ∧
    (∀ nl, firstSignificant .dash b ≠ some '\'' →
      lexFrom (.afterStrDash acc nl) b = (lexFrom (.op ['-']) b).map (.str ⟨acc⟩ :: ·)) ∧
    (firstSignificant .comment b ≠ some '\'' →
      lexFrom (.afterStrComment acc) b = (lexFrom .comment b).map (.str ⟨acc⟩ :: ·)) :=
  let h := lexFrom_afterStr_of acc b
  ⟨fun nl hq => h.1 nl (quoteAfterNewline_eq_false hq),
    fun nl hq => h.2.1 nl (quoteAfterNewline_eq_false hq),
    fun hq => h.2.2 false (quoteAfterNewline_eq_false hq)⟩

end Nexus
