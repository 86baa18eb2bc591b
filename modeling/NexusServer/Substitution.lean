import NexusServer.Rendering

/-!
# Where the substitution loop is a one-pass substitution

`ExtendedQueryHandler::do_query` builds its text with one `str::replace` per parameter, `$1`
first. `placeholderPass` is the substitution a reader of the text expects: one pass from left to
right that replaces each placeholder token, a `$` and the longest run of digits after it, by the
rendering it names. The two differ (`doQuery_tenth_placeholder_diverges`): the replace of `$1`
also hits the `$1` inside `$10`, and a rendering that contains `$2` is itself rewritten by the
next replace.

This file shows where they agree. Suppose no `$` of the prepared text is followed by two digits,
or by a `$` and a digit, and no rendering contains a `$`. Then the loop builds exactly the text of
the one-pass substitution, for any number of parameters
(`substituteParameters_eq_placeholderPass`).

The proof goes through a third substitution, `subDigits f`. It replaces, in one pass, each `$`
followed by a digit of value `v` by `f v`.
* The replace of a one-digit placeholder is `subDigits` of one value
  (`replaceFrom_eq_subDigits`).
* Two passes compose into one (`subDigits_subDigits`), so the first nine replaces of the loop make
  one `subDigits` of all the renderings.
* Once every one-digit placeholder is replaced, no `$` is followed by a nonzero digit
  (`noPlaceholder_subDigits`). So the replaces of `$10`, `$11`, … find nothing
  (`replaceFrom_of_noPlaceholder`).
* On such texts the one-pass substitution is that same `subDigits`
  (`placeholderPass_eq_subDigits`).
-/

namespace Nexus

/-! ## One-digit placeholders -/

/-- The value of a decimal digit. -/
def digitVal (d : Char) : Nat := d.toNat - '0'.toNat

/-- One pass over a text that replaces each `$` followed by a digit of value `v` by `f v`, when it
is some, and copies every other character. -/
def subDigits (f : Nat → Option (List Char)) : List Char → List Char
  | [] => []
  | [c] => [c]
  | c :: d :: s =>
    if c = '$' ∧ d.isDigit then
      match f (digitVal d) with
      | some r => r ++ subDigits f s
      | none => c :: subDigits f (d :: s)
    else c :: subDigits f (d :: s)

/-- No `$` of the text is followed by two digits, or by a `$` and a digit: every placeholder token
of the text has one digit, and none comes right after a `$`. -/
def oneDigitPlaceholders : List Char → Bool
  | c :: b :: d :: s =>
    !(c == '$' && (b.isDigit || b == '$') && d.isDigit) && oneDigitPlaceholders (b :: d :: s)
  | _ => true

/-- No `$` of the text is followed by a nonzero digit. -/
def noPlaceholder : List Char → Bool
  | c :: d :: s => !(c == '$' && d.isDigit && digitVal d != 0) && noPlaceholder (d :: s)
  | _ => true

/-- The renderings of the one-digit placeholders that `rs` gives values for. -/
def digitRenderings (rs : List String) (v : Nat) : Option (List Char) :=
  if 1 ≤ v ∧ v ≤ rs.length then some (rs.getD (v - 1) "").data else none

lemma digitVal_le_nine {d : Char} (hd : d.isDigit) : digitVal d ≤ 9 := by
  simp only [PgLexer.isDigit_eq, Bool.and_eq_true, decide_eq_true_eq] at hd
  simp only [digitVal, show '0'.toNat = 48 from rfl]
  omega

lemma eq_of_digitVal_eq {c d : Char} (hc : c.isDigit) (hd : d.isDigit)
    (h : digitVal c = digitVal d) : c = d := by
  simp only [PgLexer.isDigit_eq, Bool.and_eq_true, decide_eq_true_eq] at hc hd
  simp only [digitVal, show '0'.toNat = 48 from rfl] at h
  exact Char.ext (UInt32.toNat.inj (show c.toNat = d.toNat by omega))

lemma digitsValue_singleton (d : Char) : digitsValue [d] = digitVal d := by
  simp [digitsValue, digitVal]

/-! ## The one-pass substitution of digits -/

section SubDigits

variable {f g : Nat → Option (List Char)}

lemma subDigits_cons_of_ne {c : Char} (hc : c ≠ '$') (s : List Char) :
    subDigits f (c :: s) = c :: subDigits f s := by
  cases s with
  | nil => rfl
  | cons d s => simp [subDigits, hc]

lemma subDigits_dollar_digit {d : Char} {r : List Char} (hd : d.isDigit)
    (hf : f (digitVal d) = some r) (s : List Char) :
    subDigits f ('$' :: d :: s) = r ++ subDigits f s := by
  simp [subDigits, hd, hf]

lemma subDigits_dollar_other {d : Char} (hd : d.isDigit → f (digitVal d) = none) (s : List Char) :
    subDigits f ('$' :: d :: s) = '$' :: subDigits f (d :: s) := by
  by_cases h : d.isDigit <;> simp [subDigits, h, hd]

/-- A `$` that no digit follows is copied. -/
lemma subDigits_dollar_of_head {s : List Char} (hs : ∀ d ∈ s.head?, d.isDigit = false) :
    subDigits f ('$' :: s) = '$' :: subDigits f s := by
  cases s with
  | nil => rfl
  | cons d s => exact subDigits_dollar_other (fun h => by simp [hs d rfl] at h) s

/-- A text with no `$` is copied, and what follows it is substituted on its own. -/
lemma subDigits_append_of_not_mem {r : List Char} (hr : '$' ∉ r) (u : List Char) :
    subDigits f (r ++ u) = r ++ subDigits f u := by
  induction r with
  | nil => rfl
  | cons c r ih =>
    rw [List.mem_cons, not_or] at hr
    rw [List.cons_append, subDigits_cons_of_ne (Ne.symm hr.1), ih hr.2, List.cons_append]

/-- The pass with nothing to substitute copies the text. -/
lemma subDigits_none : ∀ t, subDigits (fun _ => none) t = t
  | [] => rfl
  | [_] => rfl
  | c :: d :: s => by simp [subDigits, subDigits_none (d :: s)]

/-- The pass reads `f` only at the values of digits. -/
lemma subDigits_congr (h : ∀ v ≤ 9, f v = g v) : ∀ t, subDigits f t = subDigits g t
  | [] => rfl
  | [_] => rfl
  | c :: d :: s => by
    by_cases hd : c = '$' ∧ d.isDigit
    · simp only [subDigits, if_pos hd, h _ (digitVal_le_nine hd.2), subDigits_congr h s,
        subDigits_congr h (d :: s)]
    · simp only [subDigits, if_neg hd, subDigits_congr h (d :: s)]

end SubDigits

/-! ## The text conditions along a pass -/

lemma oneDigitPlaceholders_tail {c : Char} {s : List Char} (h : oneDigitPlaceholders (c :: s)) :
    oneDigitPlaceholders s := by
  match s with
  | [] | [_] => rfl
  | b :: d :: s =>
    simp only [oneDigitPlaceholders, Bool.and_eq_true] at h
    exact h.2

/-- In a text of one-digit placeholders, what follows a `$` and a digit, or two `$`, is no digit. -/
lemma oneDigitPlaceholders_after {b : Char} {s : List Char}
    (h : oneDigitPlaceholders ('$' :: b :: s)) (hb : b.isDigit ∨ b = '$') :
    ∀ d ∈ s.head?, d.isDigit = false := by
  intro d hd
  obtain ⟨s, rfl⟩ : ∃ s', s = d :: s' := by
    cases s with
    | nil => cases hd
    | cons e s => exact ⟨s, by cases hd; rfl⟩
  rcases hb with hb | rfl
  · simp [oneDigitPlaceholders, hb] at h
    exact h.1
  · simp [oneDigitPlaceholders] at h
    exact h.1

lemma noPlaceholder_cons_of_ne {c : Char} (hc : c ≠ '$') {u : List Char} (hu : noPlaceholder u) :
    noPlaceholder (c :: u) := by
  cases u with
  | nil => rfl
  | cons d u => simp [noPlaceholder, hc, hu]

lemma noPlaceholder_append {r : List Char} (hr : '$' ∉ r) {u : List Char} (hu : noPlaceholder u) :
    noPlaceholder (r ++ u) := by
  induction r with
  | nil => exact hu
  | cons c r ih =>
    rw [List.mem_cons, not_or] at hr
    exact noPlaceholder_cons_of_ne (Ne.symm hr.1) (ih hr.2)

/-- A substituted text that starts with no digit starts with the same character: a `$` stays a
`$` when no digit follows it. -/
lemma subDigits_head {f : Nat → Option (List Char)} {d : Char} {s : List Char}
    (hd : d.isDigit = false) (hs : d = '$' → ∀ e ∈ s.head?, e.isDigit = false) :
    subDigits f (d :: s) = d :: subDigits f s := by
  by_cases hdd : d = '$'
  · subst hdd
    exact subDigits_dollar_of_head (hs rfl)
  · exact subDigits_cons_of_ne hdd s

/-! ## Two passes make one -/

/-- Two passes make one: the second substitutes what the first left, when the first inserts no `$`
and the text puts no `$` right before a placeholder. -/
theorem subDigits_subDigits {f g : Nat → Option (List Char)} (hf : ∀ v r, f v = some r → '$' ∉ r) :
    ∀ t, oneDigitPlaceholders t →
      subDigits g (subDigits f t) = subDigits (fun v => (f v).or (g v)) t
  | [], _ => rfl
  | [_], _ => rfl
  | c :: d :: s, ht => by
    have hds := oneDigitPlaceholders_tail ht
    by_cases hc : c = '$'
    swap
    · simp only [subDigits_cons_of_ne hc, subDigits_subDigits hf (d :: s) hds]
    subst hc
    by_cases hd : d.isDigit
    · have hs := oneDigitPlaceholders_tail hds
      have hd' : d ≠ '$' := by rintro rfl; exact absurd hd (by decide)
      cases hfd : f (digitVal d) with
      | some r =>
        rw [subDigits_dollar_digit hd hfd, subDigits_append_of_not_mem (hf _ _ hfd),
          subDigits_subDigits hf s hs,
          @subDigits_dollar_digit (fun v => (f v).or (g v)) d r hd (by simp [hfd])]
      | none =>
        rw [subDigits_dollar_other (fun _ => hfd), subDigits_cons_of_ne hd']
        cases hgd : g (digitVal d) with
        | some r =>
          rw [subDigits_dollar_digit hd hgd, subDigits_subDigits hf s hs,
            @subDigits_dollar_digit (fun v => (f v).or (g v)) d r hd (by simp [hfd, hgd])]
        | none =>
          rw [subDigits_dollar_other (fun _ => hgd), subDigits_cons_of_ne hd',
            subDigits_subDigits hf s hs, subDigits_dollar_other (fun _ => by simp [hfd, hgd]),
            subDigits_cons_of_ne hd']
    · have hnd : ∀ {h : Nat → Option (List Char)}, d.isDigit → h (digitVal d) = none :=
        fun h' => absurd h' hd
      have hhead := @subDigits_head f d s (by simpa using hd)
        fun h => oneDigitPlaceholders_after ht (.inr h)
      rw [@subDigits_dollar_other f d hnd, hhead, @subDigits_dollar_other g d hnd, ← hhead,
        subDigits_subDigits hf (d :: s) hds, subDigits_dollar_other hnd]

/-! ## The replaces of the loop -/

/-- `str::replace` of a one-digit placeholder is the one-pass substitution of its value alone. -/
theorem replaceFrom_eq_subDigits {c : Char} (hc : c.isDigit) (r : List Char) :
    ∀ t, replaceFrom ['$', c] r 0 t =
      subDigits (fun v => if v = digitVal c then some r else none) t
  | [] => rfl
  | [x] => by simp [replaceFrom, List.isPrefixOf, subDigits]
  | x :: y :: s => by
    rw [replaceFrom]
    by_cases hx : x = '$'
    · subst hx
      by_cases hy : y = c
      · subst hy
        have h1 : ['$', y].length - 1 = 0 + 1 := rfl
        rw [if_pos (by simp [List.isPrefixOf]), subDigits_dollar_digit hc (if_pos rfl), h1,
          replaceFrom, replaceFrom_eq_subDigits hc r s]
      · rw [if_neg (by simp [List.isPrefixOf, Ne.symm hy]),
          subDigits_dollar_other fun hy' => if_neg fun h => hy (eq_of_digitVal_eq hy' hc h),
          replaceFrom_eq_subDigits hc r (y :: s)]
    · rw [if_neg (by simp [List.isPrefixOf, Ne.symm hx]), subDigits_cons_of_ne hx,
        replaceFrom_eq_subDigits hc r (y :: s)]

/-- `str::replace` of a placeholder whose first digit is not zero leaves a text in which no `$` is
followed by a nonzero digit as it is. -/
theorem replaceFrom_of_noPlaceholder {c : Char} (hc : c.isDigit) (hc0 : digitVal c ≠ 0)
    (rest r : List Char) : ∀ u, noPlaceholder u → replaceFrom ('$' :: c :: rest) r 0 u = u
  | [], _ => rfl
  | [x], _ => by simp [replaceFrom, List.isPrefixOf]
  | x :: y :: s, hu => by
    have htail : noPlaceholder (y :: s) := by
      simp only [noPlaceholder, Bool.and_eq_true] at hu
      exact hu.2
    have hpre : ('$' :: c :: rest).isPrefixOf (x :: y :: s) = false := by
      simp only [List.isPrefixOf, Bool.and_eq_false_iff, beq_eq_false_iff_ne]
      by_cases hx : x = '$'
      · subst hx
        refine .inr (.inl fun hy => ?_)
        subst hy
        simp [noPlaceholder, hc, hc0] at hu
      · exact .inl (Ne.symm hx)
    rw [replaceFrom, if_neg (by simp [hpre]), replaceFrom_of_noPlaceholder hc hc0 rest r (y :: s) htail]

/-- Once every one-digit placeholder has a rendering with no `$`, no `$` of the substituted text is
followed by a nonzero digit. -/
theorem noPlaceholder_subDigits {f : Nat → Option (List Char)}
    (hf : ∀ v r, f v = some r → '$' ∉ r) (hall : ∀ v, 1 ≤ v → v ≤ 9 → f v ≠ none) :
    ∀ t, oneDigitPlaceholders t → noPlaceholder (subDigits f t)
  | [], _ => rfl
  | [_], _ => rfl
  | c :: d :: s, ht => by
    have hds := oneDigitPlaceholders_tail ht
    by_cases hc : c = '$'
    swap
    · rw [subDigits_cons_of_ne hc]
      exact noPlaceholder_cons_of_ne hc (noPlaceholder_subDigits hf hall (d :: s) hds)
    subst hc
    by_cases hd : d.isDigit
    · have hs := noPlaceholder_subDigits hf hall s (oneDigitPlaceholders_tail hds)
      cases hfd : f (digitVal d) with
      | some r =>
        rw [subDigits_dollar_digit hd hfd]
        exact noPlaceholder_append (hf _ _ hfd) hs
      | none =>
        have h0 : digitVal d = 0 :=
          Nat.eq_zero_of_not_pos fun h0 => hall _ h0 (digitVal_le_nine hd) hfd
        have hd' : d ≠ '$' := by rintro rfl; exact absurd hd (by decide)
        rw [subDigits_dollar_other (fun _ => hfd), subDigits_cons_of_ne hd']
        simp [noPlaceholder, h0, noPlaceholder_cons_of_ne hd' hs]
    · have hd : d.isDigit = false := by simpa using hd
      have hhead := @subDigits_head f d s hd fun h => oneDigitPlaceholders_after ht (.inr h)
      have hrest := noPlaceholder_subDigits hf hall (d :: s) hds
      rw [subDigits_dollar_other (fun h => absurd h (by simp [hd])), hhead]
      rw [hhead] at hrest
      simp [noPlaceholder, hd, hrest]

/-! ## The one-pass substitution of the spec -/

section Pass

variable (rs : List String)

/-- What the pass emits for a one-digit placeholder token. -/
lemma placeholderText_digit (d : Char) :
    placeholderText rs [d] = (digitRenderings rs (digitVal d)).getD ['$', d] := by
  simp only [placeholderText, digitRenderings, digitsValue_singleton, ne_eq,
    List.cons_ne_self, not_false_eq_true, true_and]
  split <;> rfl

/-- A pending token that no digit continues is emitted, and the pass goes on between tokens. -/
lemma placeholderPass_some_of_head {ds s : List Char} (hs : ∀ e ∈ s.head?, e.isDigit = false) :
    placeholderPass rs (some ds) s = placeholderText rs ds ++ placeholderPass rs none s := by
  cases s with
  | nil => simp [placeholderPass]
  | cons e s => simp [placeholderPass, hs e rfl]

/-- On a text of one-digit placeholders, the one-pass substitution is `subDigits` of the
renderings. -/
theorem placeholderPass_eq_subDigits :
    ∀ t, oneDigitPlaceholders t → placeholderPass rs none t = subDigits (digitRenderings rs) t
  | [], _ => rfl
  | [c], _ => by by_cases hc : c = '$' <;> simp [placeholderPass, placeholderText, hc, subDigits]
  | c :: d :: s, ht => by
    have hds := oneDigitPlaceholders_tail ht
    by_cases hc : c = '$'
    swap
    · rw [subDigits_cons_of_ne hc, ← placeholderPass_eq_subDigits (d :: s) hds, placeholderPass,
        if_neg hc]
    subst hc
    by_cases hd : d.isDigit
    · have hd' : d ≠ '$' := by rintro rfl; exact absurd hd (by decide)
      have hpass : placeholderPass rs none ('$' :: d :: s) =
          placeholderText rs [d] ++ placeholderPass rs none s := by
        rw [← placeholderPass_some_of_head rs (oneDigitPlaceholders_after ht (.inl hd))]
        simp [placeholderPass, hd]
      rw [hpass, placeholderPass_eq_subDigits s (oneDigitPlaceholders_tail hds),
        placeholderText_digit rs d]
      cases hF : digitRenderings rs (digitVal d) with
      | some r => rw [subDigits_dollar_digit hd hF]; rfl
      | none => rw [subDigits_dollar_other (fun _ => hF), subDigits_cons_of_ne hd']; rfl
    · have hd : d.isDigit = false := by simpa using hd
      rw [subDigits_dollar_other (fun h => absurd h (by simp [hd])),
        ← placeholderPass_eq_subDigits (d :: s) hds, placeholderPass, if_pos rfl,
        placeholderPass_some_of_head rs (by simpa using hd)]
      rfl

end Pass

/-! ## The loop -/

/-- The placeholder of a parameter from the first to the ninth: `$` and the digit of its number. -/
lemma placeholder_one_digit {j : Nat} (h1 : 1 ≤ j) (h9 : j ≤ 9) :
    ∃ c, (placeholder j).data = ['$', c] ∧ c.isDigit ∧ digitVal c = j := by
  interval_cases j <;> exact ⟨_, rfl, rfl, rfl⟩

/-- The digits `Nat.toDigits` writes for a positive number start with a nonzero digit. -/
lemma toDigitsCore_head : ∀ (fuel n : Nat) (ds : List Char), 0 < n → n < fuel →
    ∃ c rest, Nat.toDigitsCore 10 fuel n ds = c :: rest ∧ c.isDigit ∧ digitVal c ≠ 0
  | 0, _, _, _, h => absurd h (Nat.not_lt_zero _)
  | fuel + 1, n, ds, hn, hlt => by
    have hdigit : ∀ k < 10, (Nat.digitChar k).isDigit ∧ digitVal (Nat.digitChar k) = k := by
      decide
    simp only [Nat.toDigitsCore]
    split
    · have hk := hdigit (n % 10) (Nat.mod_lt n (by decide))
      exact ⟨_, ds, rfl, hk.1, by omega⟩
    · exact toDigitsCore_head fuel (n / 10) _ (by omega) (by omega)

/-- The placeholder of a parameter: `$`, then digits, the first of them nonzero. -/
lemma placeholder_head {j : Nat} (hj : 0 < j) :
    ∃ c rest, (placeholder j).data = '$' :: c :: rest ∧ c.isDigit ∧ digitVal c ≠ 0 := by
  obtain ⟨c, rest, h, hc, hc0⟩ := toDigitsCore_head (j + 1) j [] hj (by omega)
  have hdata : (toString j).data = c :: rest := by simpa using h
  exact ⟨c, rest, by simp [placeholder, hdata], hc, hc0⟩

section Loop

variable {dec : FromSql} {portal : Portal} {rs : List String} {t : List Char}

lemma digitRenderings_not_mem (hdollar : ∀ r ∈ rs, '$' ∉ r.data) (k : Nat) :
    ∀ v r, digitRenderings (rs.take k) v = some r → '$' ∉ r := by
  intro v r h
  simp only [digitRenderings] at h
  split at h
  · cases h
    rw [List.getD_eq_getElem?_getD, List.getElem?_eq_getElem (by omega), Option.getD_some]
    exact hdollar _ (List.mem_of_mem_take (List.getElem_mem _))
  · cases h

lemma digitRenderings_take_succ {k : Nat} (hk : k < rs.length) (v : Nat) :
    (digitRenderings (rs.take k) v).or (if v = k + 1 then some rs[k].data else none) =
      digitRenderings (rs.take (k + 1)) v := by
  simp only [digitRenderings, List.length_take_of_le hk.le, List.length_take_of_le hk,
    List.getD_eq_getElem?_getD]
  by_cases hv : v = k + 1
  · subst hv
    simp [List.getElem?_eq_getElem hk]
  · rw [if_neg hv, Option.or_none]
    by_cases h1 : 1 ≤ v ∧ v ≤ k
    · rw [if_pos h1, if_pos ⟨h1.1, by omega⟩, List.getElem?_take_of_lt (by omega),
        List.getElem?_take_of_lt (by omega)]
    · rw [if_neg h1, if_neg (by omega)]

/-- After the replaces of `$1`, …, `$k`, the replace of `$(k+1)` by its rendering gives the
one-pass substitution of the first `k + 1` renderings. -/
lemma replace_placeholder_step (hdollar : ∀ r ∈ rs, '$' ∉ r.data) (ht : oneDigitPlaceholders t)
    {k : Nat} (hk : k < rs.length) :
    replace ⟨subDigits (digitRenderings (rs.take k)) t⟩ (placeholder (k + 1)) rs[k] =
      ⟨subDigits (digitRenderings (rs.take (k + 1))) t⟩ := by
  by_cases hsmall : k + 1 ≤ 9
  · obtain ⟨c, hpat, hc, hcv⟩ := placeholder_one_digit (Nat.succ_pos k) hsmall
    simp only [replace, hpat]
    rw [replaceFrom_eq_subDigits hc, subDigits_subDigits (digitRenderings_not_mem hdollar k) t ht]
    have hF : (fun v => (digitRenderings (rs.take k) v).or
        (if v = digitVal c then some rs[k].data else none)) = digitRenderings (rs.take (k + 1)) :=
      funext fun v => by rw [hcv, digitRenderings_take_succ hk]
    rw [hF]
  · obtain ⟨c, rest, hpat, hc, hc0⟩ := placeholder_head (Nat.succ_pos k)
    have hall : ∀ v, 1 ≤ v → v ≤ 9 → digitRenderings (rs.take k) v ≠ none := fun v h1 h9 => by
      simp [digitRenderings, List.length_take_of_le hk.le, h1]
      omega
    simp only [replace, hpat]
    rw [replaceFrom_of_noPlaceholder hc hc0 rest _ _
      (noPlaceholder_subDigits (digitRenderings_not_mem hdollar k) hall t ht)]
    refine congrArg String.mk (subDigits_congr (fun v hv => ?_) t)
    rw [← digitRenderings_take_succ hk, if_neg (by omega), Option.or_none]

/-- The loop over the parameters from the `k`-th on leaves the one-pass substitution of the
renderings up to where it stops. -/
lemma substituteFrom_range'
    (hrs : ∀ i (h : i < rs.length), parameterToString dec portal i = .ok rs[i])
    (hdollar : ∀ r ∈ rs, '$' ∉ r.data) (ht : oneDigitPlaceholders t) :
    ∀ m k, k + m ≤ rs.length →
      substituteFrom dec portal ⟨subDigits (digitRenderings (rs.take k)) t⟩ (List.range' k m) =
        .ok ⟨subDigits (digitRenderings (rs.take (k + m))) t⟩
  | 0, _, _ => rfl
  | m + 1, k, hk => by
    have hkl : k < rs.length := by omega
    rw [List.range'_succ, substituteFrom, hrs k hkl, Outcome.ok_bind,
      replace_placeholder_step hdollar ht hkl,
      substituteFrom_range' hrs hdollar ht m (k + 1) (by omega), Nat.add_right_comm, Nat.add_assoc]

end Loop

/-- The loop over all the parameters leaves the one-pass substitution of every rendering. -/
lemma substituteParameters_eq_subDigits {dec : FromSql} {portal : Portal} {rs : List String}
    (hlen : rs.length = portal.parameterLen)
    (hrs : ∀ i (h : i < rs.length), parameterToString dec portal i = .ok rs[i])
    (hdollar : ∀ r ∈ rs, '$' ∉ r.data)
    (htext : oneDigitPlaceholders portal.statement.statement.query.data) :
    substituteParameters dec portal =
      .ok ⟨subDigits (digitRenderings rs) portal.statement.statement.query.data⟩ := by
  have h := substituteFrom_range' hrs hdollar htext rs.length 0 (by omega)
  have h0 : digitRenderings (rs.take 0) = fun _ => none := by
    funext v
    simp only [digitRenderings, List.take_zero, List.length_nil]
    exact if_neg (by omega)
  rw [h0, subDigits_none, Nat.zero_add, List.take_length] at h
  rw [substituteParameters, List.range_eq_range', ← hlen]
  exact h

/-- Where the substitution loop of the extended flow is the one-pass substitution: when every
parameter renders, no rendering contains a `$`, and no `$` of the prepared text is followed by two
digits or by a `$` and a digit, the loop builds the text of the one-pass substitution, whatever the
number of parameters. -/
theorem substituteParameters_eq_placeholderPass {dec : FromSql} {portal : Portal}
    {rs : List String} (hlen : rs.length = portal.parameterLen)
    (hrs : ∀ i (h : i < rs.length), parameterToString dec portal i = .ok rs[i])
    (hdollar : ∀ r ∈ rs, '$' ∉ r.data)
    (htext : oneDigitPlaceholders portal.statement.statement.query.data) :
    substituteParameters dec portal =
      .ok ⟨placeholderPass rs none portal.statement.statement.query.data⟩ := by
  rw [substituteParameters_eq_subDigits hlen hrs hdollar htext,
    placeholderPass_eq_subDigits rs _ htext]

/-- A prepared text with an integer parameter and a text parameter, bound to 7 and to ab. -/
def intTextPortal : Portal :=
  ⟨⟨⟨.peerQuery ⟨"SELECT $1 + 1, $2"⟩ .catalog, "SELECT $1 + 1, $2"⟩, [.int4, .text]⟩,
    [some [0, 0, 0, 7], some [97, 98]]⟩

theorem substituteParameters_eq_placeholderPass_intText :
    oneDigitPlaceholders intTextPortal.statement.statement.query.data ∧
      substituteParameters asciiDecoders intTextPortal =
        .ok ⟨placeholderPass ["7", "'ab'"] none intTextPortal.statement.statement.query.data⟩ :=
  ⟨by decide, substituteParameters_eq_placeholderPass rfl (by decide) (by decide) (by decide)⟩

end Nexus
