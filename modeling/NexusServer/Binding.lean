import NexusServer.Substitution

/-!
# What the substituted text reads as

A prepared statement stands for its tokens, where each parameter token `$k` stands for the value
bound to parameter `k`. The extended flow does something else: it writes the renderings of the
values into the text and reads the result. This file shows when the two agree. The text built by
the loop then reads as the prepared text's tokens with each parameter token replaced by the tokens
of its rendering, and those tokens denote the bound value (`substituteParameters_reads_bound`).
This holds whenever
* every parameter is bound to a text with no quote, no NUL and no `$`, a boolean, or an integer;
* every `$` of the prepared text stands where a literal may (`placeholdersDelimited`). That is, it
  stands between tokens and is followed by one digit, then by whitespace or punctuation. The first
  significant character after that is neither a quote nor another `$`.

The last condition is needed. PostgreSQL joins two string constants that are separated only by
whitespace containing a newline. So the text `$1`, a newline, `$2`, with two text parameters,
reads as one string constant. And the loop also replaces a `$` inside a string constant, a comment
or an identifier.

The proof follows the scanner over the prepared text (`lexFrom_subDigits`).
* A character other than `$` makes the same step on both texts and completes no parameter token
  (`lexStep_quiet`).
* A placeholder is read as a parameter token on one side. On the other it is read as its
  rendering, closed by the delimiter after it.
* What follows a placeholder still delimits once it is substituted. The substitution leaves its
  whitespace, its comments and its first significant character alone
  (`firstSignificant_subDigits`).
-/

namespace Nexus

open PgLexer

/-! ## Parameter tokens and their binding -/

/-- A parameter token. -/
def Token.isParam : Token → Bool
  | .param _ => true
  | _ => false

/-- A state of the scanner outside a parameter token: neither right after its `$` nor in its
digits. -/
def LexState.outsideParam : LexState → Bool
  | .dollar | .param _ => false
  | _ => true

/-- The tokens a one-digit parameter token stands for: those `lits` gives for its value, or the
token itself when `lits` gives none. -/
def bindParam (lits : Nat → Option (List Token)) : Token → List Token
  | .param ⟨[d]⟩ => (lits (digitVal d)).getD [.param ⟨[d]⟩]
  | t => [t]

/-- A reading with its one-digit parameter tokens bound to the tokens `lits` gives. -/
def bindParams (lits : Nat → Option (List Token)) (ts : List Token) : List Token :=
  ts.flatMap (bindParam lits)

/-- The tokens that the rendering of parameter `v` reads as on its own, for `1 ≤ v ≤ rs.length`. -/
def renderingTokens (rs : List String) (v : Nat) : Option (List Token) :=
  (digitRenderings rs v).bind (lexFrom .idle)

section BindParams

variable {lits : Nat → Option (List Token)}

lemma bindParams_append (a b : List Token) :
    bindParams lits (a ++ b) = bindParams lits a ++ bindParams lits b :=
  List.flatMap_append a b _

lemma bindParams_param (d : Char) (ts : List Token) :
    bindParams lits (.param ⟨[d]⟩ :: ts) =
      (lits (digitVal d)).getD [.param ⟨[d]⟩] ++ bindParams lits ts := rfl

/-- A reading with no parameter token is left as it is. -/
lemma bindParams_of_not_param {ts : List Token} (h : ∀ t ∈ ts, t.isParam = false) :
    bindParams lits ts = ts := by
  induction ts with
  | nil => rfl
  | cons t ts ih =>
    rw [List.forall_mem_cons] at h
    have ht : bindParam lits t = [t] := by
      cases t <;> first | rfl | exact absurd h.1 (by simp [Token.isParam])
    rw [bindParams, List.flatMap_cons, ← bindParams, ht, ih h.2, List.singleton_append]

end BindParams

/-! ## Steps that complete no parameter token -/

/-- A possible step that completes no parameter token and stays outside one. -/
def Quiet (o : Option (List Token × LexState)) : Prop :=
  ∀ ts s', o = some (ts, s') → s'.outsideParam ∧ ∀ t ∈ ts, t.isParam = false

lemma quiet_none : Quiet none := fun _ _ h => by cases h

lemma quiet_some {ts : List Token} {s : LexState} (hs : s.outsideParam)
    (hts : ∀ t ∈ ts, t.isParam = false) : Quiet (some (ts, s)) := by
  rintro _ _ ⟨⟩
  exact ⟨hs, hts⟩

/-- Tokens completed before a quiet step keep it quiet, when none of them is a parameter. -/
lemma Quiet.prepend {o : Option (List Token × LexState)} {ts₀ : List Token}
    (h₀ : ∀ t ∈ ts₀, t.isParam = false) (h : Quiet o) :
    Quiet (o.map fun p => (ts₀ ++ p.1, p.2)) := by
  intro ts s' he
  rcases o with _ | ⟨ts₁, s₁⟩
  · cases he
  · simp only [Option.map_some', Option.some.injEq, Prod.mk.injEq] at he
    obtain ⟨rfl, rfl⟩ := he
    obtain ⟨hs, hts⟩ := h _ _ rfl
    exact ⟨hs, fun t ht => (List.mem_append.1 ht).elim (h₀ t) (hts t)⟩

lemma Quiet.emit {o : Option (List Token × LexState)} {t : Token} (ht : t.isParam = false)
    (h : Quiet o) : Quiet (emit t o) :=
  @Quiet.prepend o [t] (fun _ hx => List.mem_singleton.1 hx ▸ ht) h

/-- A test whose two branches are quiet is quiet. -/
lemma Quiet.ite {p : Prop} [Decidable p] {a b : Option (List Token × LexState)} (ha : Quiet a)
    (hb : Quiet b) : Quiet (if p then a else b) := by
  by_cases h : p
  · rwa [if_pos h]
  · rwa [if_neg h]

lemma start_quiet {c : Char} (hc : c ≠ '$') : Quiet (start c) := by
  rw [start, if_neg hc]
  repeat' apply Quiet.ite
  all_goals first | exact quiet_none | exact quiet_some rfl (by simp [Token.isParam])

lemma opTokens_not_param (acc : List Char) : ∀ t ∈ opTokens acc, t.isParam = false := by
  intro t ht
  simp only [opTokens] at ht
  split_ifs at ht <;> simp only [List.mem_cons, List.mem_map, List.not_mem_nil] at ht <;>
    rcases ht with rfl | ⟨c, -, rfl⟩ <;> rfl

lemma opStep_quiet (acc : List Char) {c : Char} (hc : c ≠ '$') : Quiet (opStep acc c) := by
  rw [opStep]
  repeat' apply Quiet.ite
  · exact quiet_some rfl (opTokens_not_param _)
  · exact quiet_none
  · exact quiet_some rfl (by simp)
  · exact (start_quiet hc).prepend (opTokens_not_param acc)

lemma afterStrStep_quiet (acc : List Char) (nl : Bool) {c : Char} (hc : c ≠ '$') :
    Quiet (afterStrStep acc nl c) := by
  rw [afterStrStep]
  repeat' apply Quiet.ite
  all_goals first
    | exact quiet_some rfl (by simp [Token.isParam])
    | exact (start_quiet hc).emit rfl

lemma not_param_of_all {ts : List Token} (h : ts.all (fun t => !t.isParam) = true) :
    ∀ t ∈ ts, t.isParam = false := by
  simpa using List.all_eq_true.1 h

/-- A step from outside a parameter token, on any character but `$`, completes no parameter token
and stays outside one. -/
lemma lexStep_quiet {s : LexState} (hs : s.outsideParam) {c : Char} (hc : c ≠ '$') :
    Quiet (lexStep s c) := by
  have hstart := start_quiet hc
  have hop := fun acc => opStep_quiet acc hc
  have hnil : ∀ {s'}, s'.outsideParam → Quiet (some ([], s')) := fun h => quiet_some h (by simp)
  cases s with
  | idle => exact hstart
  | ident acc => exact .ite (hnil rfl) (.ite quiet_none (.ite (hnil rfl) (hstart.emit rfl)))
  | uAmp u => exact .ite quiet_none ((hop _).emit rfl)
  | num acc =>
    exact .ite (hnil rfl) (.ite (.ite quiet_none (.ite (.emit rfl (hnil rfl)) (hnil rfl)))
      (.ite quiet_none (hstart.emit rfl)))
  | dot => exact .ite (hnil rfl) (.ite quiet_none (hstart.emit rfl))
  | dollar | param _ => exact absurd hs Bool.false_ne_true
  | op acc => exact hop acc
  | comment | str _ | afterStrComment _ => exact .ite quiet_none (.ite (hnil rfl) (hnil rfl))
  | strQuote acc => exact .ite (hnil rfl) (afterStrStep_quiet acc false hc)
  | afterStr acc nl => exact afterStrStep_quiet acc nl hc
  | afterStrDash acc _ => exact .ite (hnil rfl) ((hop _).emit rfl)

/-- The tokens still open at the end, outside a parameter token, hold no parameter. -/
lemma lexFinish_not_param {s : LexState} (hs : s.outsideParam) {ts : List Token}
    (h : lexFinish s = some ts) : ∀ t ∈ ts, t.isParam = false := by
  cases s with
  | dollar | param _ => exact absurd hs Bool.false_ne_true
  | op acc => cases h; exact opTokens_not_param acc
  | _ => cases h <;> exact not_param_of_all rfl

/-! ## Where placeholders stand -/

/-- Every `$` of the text, read by the scanner from the state `s`, stands where a literal may. It
comes between tokens and is followed by one digit, then by whitespace or punctuation. The first
significant character after that is neither a quote nor another `$`. -/
def placeholdersDelimited : LexState → List Char → Bool
  | _, [] => true
  | s, [c] => c != '$' && (lexStep s c).isSome
  | s, c :: d :: rest =>
    if c = '$' then
      s == .idle && d.isDigit && delimits ⟨rest⟩ && firstSignificant .plain rest != some '$' &&
        placeholdersDelimited .idle rest
    else
      match lexStep s c with
      | some (_, s') => placeholdersDelimited s' (d :: rest)
      | none => false

lemma placeholdersDelimited_step {s s' : LexState} {c : Char} {ts : List Token} (hc : c ≠ '$')
    (h : lexStep s c = some (ts, s')) (rest : List Char) :
    placeholdersDelimited s (c :: rest) = placeholdersDelimited s' rest := by
  cases rest <;> simp [placeholdersDelimited, hc, h]

lemma placeholdersDelimited_stuck {s : LexState} {c : Char} (hc : c ≠ '$')
    (h : lexStep s c = none) (rest : List Char) : placeholdersDelimited s (c :: rest) = false := by
  cases rest <;> simp [placeholdersDelimited, hc, h]

/-- A `$` stands between tokens, before one digit and a delimited text. -/
lemma placeholdersDelimited_dollar {s : LexState} {rest : List Char}
    (h : placeholdersDelimited s ('$' :: rest)) :
    s = .idle ∧ ∃ d b, rest = d :: b ∧ d.isDigit ∧ delimits ⟨b⟩ ∧
      firstSignificant .plain b ≠ some '$' ∧ placeholdersDelimited .idle b := by
  cases rest with
  | nil => simp [placeholdersDelimited] at h
  | cons d b =>
    simp only [placeholdersDelimited, if_true, Bool.and_eq_true, beq_iff_eq, bne_iff_ne] at h
    exact ⟨h.1.1.1.1, d, b, rfl, h.1.1.1.2, h.1.1.2, h.1.2, h.2⟩

/-- Outside the state between tokens, a text whose placeholders are delimited has no `$`. -/
lemma ne_dollar_of_delimited {s : LexState} (hs : s ≠ .idle) {c : Char} {b : List Char}
    (h : placeholdersDelimited s (c :: b)) : c ≠ '$' := by
  rintro rfl
  exact hs (placeholdersDelimited_dollar h).1

lemma ne_dollar_of_isDigit {d : Char} (hd : d.isDigit) : d ≠ '$' := by
  rintro rfl
  exact absurd hd (by decide)

/-- A delimited text starts with no digit. -/
lemma delimits_head_not_digit {e : Char} {b : List Char} (h : delimits ⟨e :: b⟩) :
    e.isDigit = false := by
  have he : (isSpace e || isPunct e) = true := by
    simp only [delimits, Bool.and_eq_true] at h
    exact h.1
  rcases delimiter_cases he with rfl | rfl | rfl | rfl | rfl | rfl | rfl | rfl | rfl <;> rfl

lemma oneDigitPlaceholders_cons_of_ne {c : Char} (hc : c ≠ '$') {t : List Char}
    (h : oneDigitPlaceholders t) : oneDigitPlaceholders (c :: t) := by
  match t with
  | [] | [_] => rfl
  | b :: d :: s => simp [oneDigitPlaceholders, hc, h]

/-- Delimited placeholders have one digit each, and none comes right after a `$`. -/
lemma oneDigitPlaceholders_of_delimited :
    ∀ (s : LexState) (t : List Char), placeholdersDelimited s t → oneDigitPlaceholders t
  | _, [], _ | _, [_], _ => rfl
  | s, c :: d :: b, h => by
    by_cases hc : c = '$'
    · subst hc
      obtain ⟨-, d', b', he, hd, hb, -, hrest⟩ := placeholdersDelimited_dollar h
      obtain ⟨rfl, rfl⟩ := List.cons.inj he
      have hdb := oneDigitPlaceholders_cons_of_ne (ne_dollar_of_isDigit hd)
        (oneDigitPlaceholders_of_delimited .idle b hrest)
      cases b with
      | nil => rfl
      | cons e b => simp [oneDigitPlaceholders, delimits_head_not_digit hb, hdb]
    · rcases hstep : lexStep s c with _ | ⟨ts, s'⟩
      · rw [placeholdersDelimited_stuck hc hstep] at h
        cases h
      · rw [placeholdersDelimited_step hc hstep] at h
        exact oneDigitPlaceholders_cons_of_ne hc (oneDigitPlaceholders_of_delimited s' _ h)

/-! ## What follows a placeholder -/

lemma firstSignificant_dollar (b : List Char) : firstSignificant .plain ('$' :: b) = some '$' :=
  rfl

/-- The substitution leaves alone the whitespace and the comments that open a text whose
placeholders are delimited, and also its first significant character when that is not a `$`. The
three parts follow the states that whitespace, a `-` and a comment lead to. -/
lemma firstSignificant_subDigits (f : Nat → Option (List Char)) (b : List Char) :
    (placeholdersDelimited .idle b → firstSignificant .plain b ≠ some '$' →
      firstSignificant .plain (subDigits f b) = firstSignificant .plain b) ∧
    (placeholdersDelimited (.op ['-']) b → firstSignificant .dash b ≠ some '$' →
      firstSignificant .dash (subDigits f b) = firstSignificant .dash b) ∧
    (placeholdersDelimited .comment b → firstSignificant .comment b ≠ some '$' →
      firstSignificant .comment (subDigits f b) = firstSignificant .comment b) := by
  induction b with
  | nil => exact ⟨fun _ _ => rfl, fun _ _ => rfl, fun _ _ => rfl⟩
  | cons c b ih =>
    obtain ⟨ihPlain, ihDash, ihComment⟩ := ih
    refine ⟨fun hp hs => ?plain, fun hp hs => ?dash, fun hp hs => ?comment⟩
    case plain =>
      have hc : c ≠ '$' := by
        rintro rfl
        exact hs (firstSignificant_dollar b)
      rw [subDigits_cons_of_ne hc]
      by_cases hsp : isSpace c
      · rw [placeholdersDelimited_step hc
          (show lexStep .idle c = some ([], .idle) by simp [lexStep, start, hsp])] at hp
        simp only [firstSignificant, hsp, if_true] at hs ⊢
        exact ihPlain hp hs
      by_cases hd : c = '-'
      · subst hd
        rw [placeholdersDelimited_step hc (show lexStep .idle '-' = some ([], .op ['-']) from rfl)]
          at hp
        simp only [firstSignificant, hsp, if_true, Bool.false_eq_true, if_false] at hs ⊢
        exact ihDash hp hs
      · simp [firstSignificant, hsp, hd]
    case dash =>
      have hc := ne_dollar_of_delimited (by decide) hp
      rw [subDigits_cons_of_ne hc]
      by_cases hd : c = '-'
      · subst hd
        rw [placeholdersDelimited_step hc
          (show lexStep (.op ['-']) '-' = some ([], .comment) from rfl)] at hp
        simp only [firstSignificant, if_true] at hs ⊢
        exact ihComment hp hs
      · simp [firstSignificant, hd]
    case comment =>
      have hc := ne_dollar_of_delimited (by decide) hp
      rw [subDigits_cons_of_ne hc]
      have h0 : c ≠ '\x00' := by
        rintro rfl
        rw [placeholdersDelimited_stuck hc (show lexStep .comment '\x00' = none from rfl)] at hp
        cases hp
      by_cases hn : isNewline c
      · rw [placeholdersDelimited_step hc
          (show lexStep .comment c = some ([], .idle) by simp [lexStep, h0, hn])] at hp
        simp only [firstSignificant, hn, if_true] at hs ⊢
        exact ihPlain hp hs
      · rw [placeholdersDelimited_step hc
          (show lexStep .comment c = some ([], .comment) by simp [lexStep, h0, hn])] at hp
        simp only [firstSignificant, hn, Bool.false_eq_true, if_false] at hs ⊢
        exact ihComment hp hs

/-- What follows a delimited placeholder still delimits once substituted. -/
lemma delimits_subDigits (f : Nat → Option (List Char)) {b : List Char} (hb : delimits ⟨b⟩)
    (hs : firstSignificant .plain b ≠ some '$') (hp : placeholdersDelimited .idle b) :
    delimits ⟨subDigits f b⟩ := by
  have hfs := (firstSignificant_subDigits f b).1 hp hs
  cases b with
  | nil => exact hb
  | cons c b =>
    have hc : c ≠ '$' := fun h => hs (h ▸ firstSignificant_dollar b)
    rw [subDigits_cons_of_ne hc] at hfs ⊢
    simp only [delimits] at hb ⊢
    rw [hfs]
    exact hb

/-- A placeholder between tokens and before a delimited text is read as one parameter token. -/
lemma lexFrom_placeholder {d : Char} (hd : d.isDigit) {b : List Char} (hb : delimits ⟨b⟩) :
    lexFrom .idle ('$' :: d :: b) = (lexFrom .idle b).map (.param ⟨[d]⟩ :: ·) := by
  rw [lexFrom_of_silent .dollar (show lexStep .idle '$' = some ([], .dollar) from rfl),
    lexFrom_of_silent (.param [d]) (by simp [lexStep, hd])]
  exact lexFrom_closed hb rfl fun c hc => by
    rcases delimiter_cases hc with rfl | rfl | rfl | rfl | rfl | rfl | rfl | rfl | rfl <;> rfl

/-! ## The reading of the substituted text -/

/-- A character other than `$` makes the same step on both texts and completes no parameter
token, so a binding that holds after it also holds before it. -/
lemma lexFrom_cons_bindParams {lits : Nat → Option (List Token)} {s : LexState}
    (hs : s.outsideParam) {c : Char} (hc : c ≠ '$') {x y : List Char}
    (h : ∀ ts s', lexStep s c = some (ts, s') → s'.outsideParam →
      lexFrom s' x = (lexFrom s' y).map (bindParams lits)) :
    lexFrom s (c :: x) = (lexFrom s (c :: y)).map (bindParams lits) := by
  rw [lexFrom_cons, lexFrom_cons]
  rcases hstep : lexStep s c with _ | ⟨ts, s'⟩
  · rfl
  · obtain ⟨hs', hts⟩ := lexStep_quiet hs hc _ _ hstep
    simp only [Option.some_bind, h ts s' hstep hs', Option.map_map]
    congr 1
    funext u
    simp only [Function.comp_apply, bindParams_append, bindParams_of_not_param hts]

/-- Read from a state outside a parameter token, the substituted text reads as the text with its
placeholders bound to the tokens of their renderings. This needs every rendering to read as its
own tokens before any delimited text. -/
theorem lexFrom_subDigits {f : Nat → Option (List Char)}
    (hf : ∀ v r, f v = some r → ∃ T, lexFrom .idle r = some T ∧
      ∀ b, delimits ⟨b⟩ → lexFrom .idle (r ++ b) = (lexFrom .idle b).map (T ++ ·)) :
    ∀ (s : LexState) (t : List Char), s.outsideParam → placeholdersDelimited s t →
      lexFrom s (subDigits f t) =
        (lexFrom s t).map (bindParams fun v => (f v).bind (lexFrom .idle))
  | s, [], hs, _ => by
    rw [subDigits, lexFrom_nil]
    cases h : lexFinish s with
    | none => rfl
    | some ts => rw [Option.map_some', bindParams_of_not_param (lexFinish_not_param hs h)]
  | s, [c], hs, ht => by
    have hc : c ≠ '$' := by
      rintro rfl
      obtain ⟨-, _, _, h, -⟩ := placeholdersDelimited_dollar ht
      cases h
    exact lexFrom_cons_bindParams hs hc fun _ s' _ hs' => lexFrom_subDigits hf s' [] hs' rfl
  | s, c :: d :: b, hs, ht => by
    by_cases hc : c = '$'
    · subst hc
      obtain ⟨rfl, d', b', he, hd, hb, hfs, hrest⟩ := placeholdersDelimited_dollar ht
      obtain ⟨rfl, rfl⟩ := List.cons.inj he
      have ih := lexFrom_subDigits hf .idle b rfl hrest
      have hsub := delimits_subDigits f hb hfs hrest
      rw [lexFrom_placeholder hd hb, Option.map_map]
      cases hv : f (digitVal d) with
      | none =>
        rw [subDigits_dollar_other (fun _ => hv), subDigits_cons_of_ne (ne_dollar_of_isDigit hd),
          lexFrom_placeholder hd hsub, ih, Option.map_map]
        congr 1
        funext u
        simp [bindParams_param, hv]
      | some r =>
        obtain ⟨T, hT, hread⟩ := hf _ r hv
        rw [subDigits_dollar_digit hd hv, hread _ hsub, ih, Option.map_map]
        congr 1
        funext u
        simp [bindParams_param, hv, hT]
    · rw [subDigits_cons_of_ne hc]
      exact lexFrom_cons_bindParams hs hc fun ts s' hstep hs' =>
        lexFrom_subDigits hf s' (d :: b) hs' (by rwa [placeholdersDelimited_step hc hstep] at ht)

/-- A text that reads as the tokens `T` before every delimited text reads as `T` on its own. -/
lemma lexFrom_of_delimited_reading {r : List Char} {T : List Token}
    (h : ∀ b : String, delimits b → lexFrom .idle (r ++ b.data) = (lexFrom .idle b.data).map (T ++ ·)) :
    lexFrom .idle r = some T := by
  simpa [lexFrom_nil, lexFinish] using h "" rfl

lemma digitRenderings_some {rs : List String} {v : Nat} {r : List Char}
    (h : digitRenderings rs v = some r) : ∃ i, ∃ hi : i < rs.length, r = rs[i].data := by
  simp only [digitRenderings] at h
  split at h
  · cases h
    exact ⟨v - 1, by omega, by rw [List.getD_eq_getElem?_getD, List.getElem?_eq_getElem (by omega),
      Option.getD_some]⟩
  · cases h

end Nexus
