/-
# Reading values back

What is written in JSON notation is read as the value that was written. A text spells a value if
it is read as that value wherever it stands; lists and tables are spelled by what spells their
parts, with white space between them.

* `Json.Spells` : a text is read as a value;
* `Json.spells_list`, `Json.spells_table` : lists and tables from their parts;
* `Value.Plain.spells_inline`, `Value.Plain.spells_indented` : both ways of writing a value.
-/
import Mathlib.Data.List.Forall2
import Mathlib.Tactic.Common
import ComponentDivision.Value.Json
import ComponentDivision.Value.Print

namespace ComponentDivision

namespace Json

/-! ## Texts in quotes -/

/-- A character that stands for itself in quotes. -/
theorem stringUnits_of_plain {opening : Nat} {c : Char} {rest : Text} (hquote : c ≠ '"')
    (hslash : c ≠ '\\') (hc : 32 ≤ c.toNat) :
    stringUnits opening (c :: rest)
      = (stringUnits opening rest).map fun r => (c.toNat :: r.1, r.2) := by
  rw [stringUnits.eq_def]
  split
  all_goals simp_all
  rw [if_neg (by omega)]
  cases stringUnits opening rest <;> rfl

/-- The two digits of a control character. -/
theorem hexDigits_control : ∀ n < 32,
    let digits := ['0', '0', Nat.digitChar (n / 16), Nat.digitChar (n % 16)]
    digits.all isHexDigit = true ∧ numberOf 16 digits = n := by
  decide

/-- A character in quotes is read as itself. -/
theorem stringUnits_quoteChar (opening : Nat) (c : Char) {rest : Text} (hrest : rest ≠ []) :
    stringUnits opening (quoteChar c ++ rest)
      = (stringUnits opening rest).map fun r => (c.toNat :: r.1, r.2) := by
  unfold quoteChar
  split
  · rfl
  · rfl
  · rfl
  · rfl
  · rfl
  · rename_i hquote hslash _ _ _
    split
    · rename_i hc
      rw [hc]
      rfl
    split
    · rename_i hc
      rw [hc]
      rfl
    split
    · rename_i hc
      obtain ⟨hdigits, hnumber⟩ := hexDigits_control c.toNat hc
      show stringUnits opening ('\\' :: 'u' :: '0' :: '0' :: Nat.digitChar (c.toNat / 16)
        :: Nat.digitChar (c.toNat % 16) :: rest) = _
      rw [stringUnits, if_pos (by simp [hdigits, hrest]), hnumber]
      cases stringUnits opening rest <;> rfl
    · rename_i hc
      exact stringUnits_of_plain (fun h => hquote h) (fun h => hslash h) (by omega)

/-- A text in quotes is read as its characters. -/
theorem stringUnits_quoted (opening : Nat) (t rest : Text) :
    stringUnits opening (t.flatMap quoteChar ++ '"' :: rest) = .ok (t.map Char.toNat, rest) := by
  induction t with
  | nil => rfl
  | cons c cs ih =>
    rw [List.flatMap_cons, List.append_assoc, stringUnits_quoteChar opening c (by simp), ih]
    rfl

/-- Characters are no halves of characters. -/
theorem joinUnits_toNat (t : Text) : joinUnits (t.map Char.toNat) = t := by
  have hhalf (c : Char) : (0xD800 ≤ c.toNat && c.toNat ≤ 0xDFFF) = false := by
    have hc : c.toNat < 0xD800 ∨ 0xDFFF < c.toNat ∧ c.toNat < 0x110000 := c.valid
    simp only [Bool.and_eq_false_iff, decide_eq_false_iff_not]
    omega
  induction t with
  | nil => rfl
  | cons c cs ih =>
    cases cs with
    | nil => simp [joinUnits, hhalf, Char.ofNat_toNat]
    | cons d ds =>
      have hhigh : (0xD800 ≤ c.toNat && c.toNat ≤ 0xDBFF) = false := by
        have := hhalf c
        simp only [Bool.and_eq_false_iff, decide_eq_false_iff_not] at this ⊢
        omega
      rw [List.map_cons, List.map_cons, joinUnits, if_neg (by simp [hhigh]),
        if_neg (by simp [hhalf]), Char.ofNat_toNat, ← List.map_cons, ih]

theorem string_quoted (t rest : Text) :
    string (t.flatMap quoteChar ++ '"' :: rest) = .ok (t, rest) := by
  simp only [string, stringUnits_quoted]
  show Except.ok (joinUnits (t.map Char.toNat), rest) = _
  rw [joinUnits_toNat]

/-! ## Numbers -/

/-- What stands after a number does not go on with it. -/
def EndsNumber (rest : Text) : Prop :=
  ∀ c ∈ rest.head?, c.isDigit = false ∧ c ≠ '.' ∧ c ≠ 'e' ∧ c ≠ 'E'

theorem head?_toDigits {n : Nat} (hn : n ≠ 0) : (Nat.toDigits 10 n).head? ≠ some '0' := by
  have hdigit : ∀ n < 10, n ≠ 0 → Nat.digitChar n ≠ '0' := by decide
  induction n using Nat.strongRecOn with
  | _ n ih =>
    by_cases hlt : n < 10
    · rw [Nat.toDigits_of_lt_base hlt, List.head?_cons]
      exact fun h => hdigit n hlt hn (Option.some.inj h)
    · rw [Nat.toDigits_of_base_le (by decide) (by omega),
        List.head?_append_of_ne_nil _ Nat.toDigits_ne_nil]
      exact ih (n / 10) (by omega) (by omega)

theorem isDigit_toDigits {n : Nat} {c : Char} (h : c ∈ Nat.toDigits 10 n) : c.isDigit = true :=
  Nat.isDigit_of_mem_toDigits (by decide) (by decide) h

theorem numberOf_toDigits (n : Nat) : numberOf 10 (Nat.toDigits 10 n) = n := by
  have hvalue : ∀ ds : Text, (∀ c ∈ ds, c.isDigit = true) → ∀ init,
      ds.foldl (fun n c => 10 * n + digitValue c) init = Nat.ofDigitChars 10 ds init := by
    intro ds
    induction ds with
    | nil => exact fun _ _ => rfl
    | cons c cs ih =>
      intro hds init
      have hc : digitValue c = c.toNat - '0'.toNat := by
        rw [digitValue, if_pos (hds c List.mem_cons_self)]
      rw [List.foldl_cons, hc]
      exact ih (fun d hd => hds d (List.mem_cons_of_mem _ hd)) _
  rw [numberOf, hvalue _ fun c hc => isDigit_toDigits hc]
  exact Nat.ofDigitChars_ten_toDigits

theorem takeWhile_isDigit (n : Nat) {rest : Text} (hrest : EndsNumber rest) :
    (Nat.toDigits 10 n ++ rest).takeWhile Char.isDigit = Nat.toDigits 10 n := by
  rw [List.takeWhile_append_of_pos fun c hc => isDigit_toDigits hc]
  cases rest with
  | nil => exact List.append_nil _
  | cons c cs =>
    rw [List.takeWhile_cons_of_neg (by simp [(hrest c rfl).1]), List.append_nil]

theorem integerDigits_toDigits (n : Nat) {rest : Text} (hrest : EndsNumber rest) :
    integerDigits (Nat.toDigits 10 n ++ rest) = Nat.toDigits 10 n := by
  by_cases hn : n = 0
  · subst hn
    rw [Nat.toDigits_zero]
    rfl
  · have hhead : (Nat.toDigits 10 n ++ rest).head? ≠ some '0' := by
      rw [List.head?_append_of_ne_nil _ Nat.toDigits_ne_nil]
      exact head?_toDigits hn
    rw [integerDigits.eq_def]
    split
    · rename_i hzero
      exact absurd (congrArg List.head? hzero) hhead
    · exact takeWhile_isDigit n hrest

theorem fraction_of_endsNumber {rest : Text} (h : EndsNumber rest) : fraction rest = [] := by
  unfold fraction
  split
  · exact absurd rfl (h _ rfl).2.1
  · rfl

theorem exponent_of_endsNumber {rest : Text} (h : EndsNumber rest) : exponent rest = [] := by
  cases rest with
  | nil => rfl
  | cons c cs =>
    obtain ⟨-, -, he, hE⟩ := h c rfl
    rw [exponent, if_neg (by simp [he, hE])]

/-- A sign and digits, up to where the number ends. -/
theorem number?_of_digits (sign : Text) {rest : Text} (n : Nat) (hrest : EndsNumber rest)
    (hsign : ((sign ++ (Nat.toDigits 10 n ++ rest)).take 1).takeWhile (· = '-') = sign) :
    number? (sign ++ (Nat.toDigits 10 n ++ rest))
      = some (.integer (if sign.isEmpty then n else -n), rest) := by
  have hafter : (sign ++ (Nat.toDigits 10 n ++ rest)).drop
      (sign.length + (Nat.toDigits 10 n).length) = rest := by
    rw [← List.drop_drop, List.drop_left, List.drop_left]
  have hne : (Nat.toDigits 10 n).isEmpty = false :=
    List.isEmpty_eq_false_iff.2 Nat.toDigits_ne_nil
  simp only [number?, hsign, List.drop_left, integerDigits_toDigits n hrest, hafter,
    fraction_of_endsNumber hrest, List.length_nil, List.drop_zero, exponent_of_endsNumber hrest,
    numberOf_toDigits, hne, List.append_nil, List.isEmpty_nil, if_true, Bool.false_eq_true,
    if_false]

/-- A number in decimal notation is read as itself. -/
theorem number?_decimal (n : Int) {rest : Text} (hrest : EndsNumber rest) :
    number? (Text.decimal n ++ rest) = some (.integer n, rest) := by
  cases n with
  | ofNat n =>
    refine number?_of_digits [] n hrest ?_
    obtain ⟨d, ds, hds⟩ := List.exists_cons_of_ne_nil (Nat.toDigits_ne_nil (b := 10) (n := n))
    have hd : d ≠ '-' := by
      rintro rfl
      exact absurd (isDigit_toDigits (hds ▸ List.mem_cons_self)) (by decide)
    rw [hds]
    simp [hd]
  | negSucc n => exact number?_of_digits ['-'] (n + 1) hrest rfl

/-! ## Values -/

/-- A character that a value begins with. -/
def opensValue (c : Char) : Bool :=
  c.isDigit || c == '-' || c == '"' || c == '[' || c == '\x7b'

theorem ne_of_opensValue {c d : Char} (hc : opensValue c = true) (hd : opensValue d = false) :
    c ≠ d := by
  rintro rfl
  cases hc.symm.trans hd

/-- White space of the notation. -/
def isGap (c : Char) : Bool :=
  c = ' ' || c = '\t' || c = '\n' || c = '\r'

/-- A text of white space. -/
def AllGap (t : Text) : Prop :=
  ∀ c ∈ t, isGap c = true

/-- The text begins as a value does. -/
def Opens (t : Text) : Prop :=
  ∃ c cs, t = c :: cs ∧ opensValue c = true

/-- The text is read as the value, wherever it stands. -/
structure Spells (t : Text) (v : Value) : Prop where
  opens : Opens t
  reads : ∀ fuel rest, t.length ≤ fuel → EndsNumber rest → value fuel (t ++ rest) = .ok (v, rest)

theorem spells_quoteText (t : Text) : Spells (quoteText t) (.text t) := by
  refine ⟨⟨'"', _, rfl, by decide⟩, fun fuel rest hfuel _ => ?_⟩
  cases fuel with
  | zero => cases hfuel
  | succ fuel =>
    rw [quoteText, List.cons_append, List.cons_append, value, List.append_assoc,
      List.singleton_append, string_quoted]
    rfl

/-- A number begins with a digit, after a sign. -/
theorem exists_digit_decimal (n : Int) : ∃ d ds, d.isDigit = true ∧
    (Text.decimal n = d :: ds ∨ Text.decimal n = '-' :: d :: ds) := by
  have hdigits (n : Nat) : ∃ d ds, d.isDigit = true ∧ Nat.toDigits 10 n = d :: ds := by
    obtain ⟨d, ds, hds⟩ := List.exists_cons_of_ne_nil (Nat.toDigits_ne_nil (b := 10) (n := n))
    exact ⟨d, ds, isDigit_toDigits (hds ▸ List.mem_cons_self), hds⟩
  cases n with
  | ofNat n =>
    obtain ⟨d, ds, hd, hds⟩ := hdigits n
    exact ⟨d, ds, hd, .inl hds⟩
  | negSucc n =>
    obtain ⟨d, ds, hd, hds⟩ := hdigits (n + 1)
    exact ⟨d, ds, hd, .inr (congrArg _ hds)⟩

theorem scalar_decimal (n : Int) {rest : Text} (hrest : EndsNumber rest) :
    scalar (Text.decimal n ++ rest) = .ok (.integer n, rest) := by
  have hword : ∀ entry ∈ wordValues, ¬ entry.1.isPrefixOf (Text.decimal n ++ rest) = true := by
    obtain ⟨d, ds, hd, hds⟩ := exists_digit_decimal n
    have hne (c : Char) (hc : c.isDigit = false) : c ≠ d := by
      rintro rfl
      cases hd.symm.trans hc
    rcases hds with hds | hds
    · rw [hds]
      simp [wordValues, hne]
    · rw [hds]
      simp [wordValues, hne]
  rw [scalar, List.find?_eq_none.2]
  · simp only [number?_decimal n hrest]
  · rintro ⟨word, v⟩ hentry
    exact hword (word, v) hentry

theorem spells_decimal (n : Int) : Spells (Text.decimal n) (.integer n) := by
  have hopens : ∃ c cs, Text.decimal n = c :: cs ∧ (c.isDigit = true ∨ c = '-') := by
    obtain ⟨d, ds, hd, hds | hds⟩ := exists_digit_decimal n
    · exact ⟨d, ds, hds, .inl hd⟩
    · exact ⟨'-', _, hds, .inr rfl⟩
  obtain ⟨c, cs, hc, hopen⟩ := hopens
  have hne (d : Char) (hd : d.isDigit = false) (hminus : d ≠ '-') : c ≠ d := by
    rintro rfl
    rcases hopen with h | h
    · cases h.symm.trans hd
    · exact hminus h
  refine ⟨⟨c, cs, hc, ?_⟩, fun fuel rest hfuel hrest => ?_⟩
  · rcases hopen with h | rfl
    · simp [opensValue, h]
    · decide
  · cases fuel with
    | zero =>
      rw [hc] at hfuel
      cases hfuel
    | succ fuel =>
      rw [← scalar_decimal n hrest, hc, List.cons_append, value]
      · rintro _ ⟨⟩
        exact hne '"' rfl (by decide) rfl
      · rintro _ ⟨⟩
        exact hne '[' rfl (by decide) rfl
      · rintro _ ⟨⟩
        exact hne '\x7b' rfl (by decide) rfl

/-! ## White space -/

theorem skipBlank_append {b : Text} (hb : AllGap b) (t : Text) :
    skipBlank (b ++ t) = skipBlank t :=
  List.dropWhile_append_of_pos hb

theorem skipBlank_cons {c : Char} (hc : isGap c = false) (t : Text) :
    skipBlank (c :: t) = c :: t :=
  List.dropWhile_cons_of_neg (by simpa [isGap] using hc)

theorem isGap_of_opensValue {c : Char} (hc : opensValue c = true) : isGap c = false := by
  simp only [isGap, Bool.or_eq_false_iff, decide_eq_false_iff_not]
  exact ⟨⟨⟨ne_of_opensValue hc rfl, ne_of_opensValue hc rfl⟩, ne_of_opensValue hc rfl⟩,
    ne_of_opensValue hc rfl⟩

theorem endsNumber_append {b : Text} (hb : AllGap b) {t : Text}
    (ht : EndsNumber t) : EndsNumber (b ++ t) := by
  cases b with
  | nil => exact ht
  | cons d ds =>
    rintro _ ⟨⟩
    have hd := hb d List.mem_cons_self
    simp only [isGap, Bool.or_eq_true, decide_eq_true_eq] at hd
    rcases hd with ((rfl | rfl) | rfl) | rfl <;> decide

theorem endsNumber_cons {c : Char} (hc : c ∈ [',', ']', '\x7d']) (t : Text) :
    EndsNumber (c :: t) := by
  rintro _ ⟨⟩
  simp only [List.mem_cons, List.not_mem_nil, or_false] at hc
  rcases hc with rfl | rfl | rfl <;> decide

/-! ## Lists and tables -/

theorem Opens.append {t : Text} (h : Opens t) (rest : Text) : Opens (t ++ rest) := by
  obtain ⟨c, cs, rfl, hc⟩ := h
  exact ⟨c, _, rfl, hc⟩

theorem Opens.intercalate {t : Text} (h : Opens t) (sep : Text) (ts : List Text) :
    Opens (sep.intercalate (t :: ts)) := by
  cases ts with
  | nil => rwa [List.intercalate_singleton]
  | cons t' ts =>
    rw [List.intercalate_cons_cons, List.append_assoc]
    exact h.append _

theorem Opens.skipBlank_append {t b : Text} (h : Opens t) (hb : AllGap b) :
    skipBlank (b ++ t) = t := by
  obtain ⟨c, cs, rfl, hc⟩ := h
  rw [Json.skipBlank_append hb]
  exact skipBlank_cons (isGap_of_opensValue hc) _

theorem skipBlank_tail {tail : Text} (htail : AllGap tail) {c : Char}
    (hc : isGap c = false) (rest : Text) : skipBlank (tail ++ c :: rest) = c :: rest := by
  rw [Json.skipBlank_append htail, skipBlank_cons hc]

/-- The items of a list, up to its end. -/
theorem items_spelled {ts : List Text} {vs : List Value} {sep tail : Text}
    (h : List.Forall₂ Spells ts vs) (hne : ts ≠ []) (hsep : AllGap sep)
    (htail : AllGap tail) (rest : Text) {fuel : Nat}
    (hfuel : ((',' :: sep).intercalate ts).length < fuel) :
    items fuel ((',' :: sep).intercalate ts ++ (tail ++ ']' :: rest)) = .ok (vs, rest) := by
  induction h generalizing fuel with
  | nil => exact absurd rfl hne
  | @cons t v ts vs ht hts ih =>
    cases fuel with
    | zero => cases hfuel
    | succ fuel =>
      cases hts with
      | nil =>
        rw [List.intercalate_singleton] at hfuel ⊢
        have hvalue := ht.reads fuel (tail ++ ']' :: rest) (by omega)
          (endsNumber_append htail (endsNumber_cons (by decide) rest))
        simp only [items, hvalue, bind, Except.bind, skipBlank_tail htail (c := ']') rfl]
        rfl
      | @cons t' v' ts vs ht' hts =>
        rw [List.intercalate_cons_cons] at hfuel ⊢
        simp only [List.length_append, List.length_cons] at hfuel
        have hrest := ih (List.cons_ne_nil t' ts) (show _ < fuel by omega)
        have hopens := (ht'.opens.intercalate (',' :: sep) ts).append
          (tail ++ ']' :: rest)
        have hvalue := ht.reads fuel (',' :: (sep ++ ((',' :: sep).intercalate (t' :: ts)
          ++ (tail ++ ']' :: rest)))) (by omega) (endsNumber_cons (by decide) _)
        rw [List.append_assoc, List.append_assoc, List.cons_append]
        simp only [items, hvalue, bind, Except.bind, skipBlank_cons (c := ',') rfl,
          hopens.skipBlank_append hsep, hrest]
        rfl

/-- The text is read as an entry of a table. -/
def SpellsEntry (t : Text) (e : Text × Value) : Prop :=
  ∃ u, t = quoteText e.1 ++ ':' :: ' ' :: u ∧ Spells u e.2

theorem SpellsEntry.opens {t : Text} {e : Text × Value} (h : SpellsEntry t e) : Opens t := by
  obtain ⟨u, rfl, -⟩ := h
  exact ⟨'"', _, rfl, rfl⟩

/-- The entries of a table, up to its end. -/
theorem entries_spelled {ts : List Text} {es : List (Text × Value)} {sep tail : Text}
    (h : List.Forall₂ SpellsEntry ts es) (hne : ts ≠ []) (hsep : AllGap sep)
    (htail : AllGap tail) (rest : Text) {fuel : Nat}
    (hfuel : ((',' :: sep).intercalate ts).length < fuel) :
    entries fuel ((',' :: sep).intercalate ts ++ (tail ++ '\x7d' :: rest)) = .ok (es, rest) := by
  induction h generalizing fuel with
  | nil => exact absurd rfl hne
  | @cons t e ts es ht hts ih =>
    obtain ⟨u, rfl, hu⟩ := ht
    have htext (rest : Text) : quoteText e.1 ++ ':' :: ' ' :: u ++ rest
        = '"' :: (e.1.flatMap quoteChar ++ '"' :: ':' :: ' ' :: (u ++ rest)) := by
      simp [quoteText]
    have hskip (rest : Text) : skipBlank (' ' :: (u ++ rest)) = u ++ rest :=
      (hu.opens.append rest).skipBlank_append (b := [' ']) (by simp [AllGap, isGap])
    cases fuel with
    | zero => cases hfuel
    | succ fuel =>
      cases hts with
      | nil =>
        rw [List.intercalate_singleton] at hfuel ⊢
        simp only [List.length_append, List.length_cons] at hfuel
        have hvalue := hu.reads fuel (tail ++ '\x7d' :: rest) (by omega)
          (endsNumber_append htail (endsNumber_cons (by decide) rest))
        rw [htext]
        simp only [entries, string_quoted, bind, Except.bind, skipBlank_cons (c := ':') rfl, hskip,
          hvalue, skipBlank_tail htail (c := '\x7d') rfl]
        rfl
      | @cons t' e' ts es ht' hts =>
        rw [List.intercalate_cons_cons] at hfuel ⊢
        simp only [List.length_append, List.length_cons] at hfuel
        have hrest := ih (List.cons_ne_nil t' ts) (show _ < fuel by omega)
        have hopens := (ht'.opens.intercalate (',' :: sep) ts).append
          (tail ++ '\x7d' :: rest)
        have hvalue := hu.reads fuel (',' :: (sep ++ ((',' :: sep).intercalate (t' :: ts)
          ++ (tail ++ '\x7d' :: rest)))) (by omega) (endsNumber_cons (by decide) _)
        rw [List.append_assoc, List.append_assoc, List.cons_append, htext]
        simp only [entries, string_quoted, bind, Except.bind, skipBlank_cons (c := ':') rfl, hskip,
          hvalue, skipBlank_cons (c := ',') rfl, hopens.skipBlank_append hsep, hrest]
        rfl

theorem Opens.ne_cons {t : Text} (h : Opens t) {d : Char} (hd : opensValue d = false) (ds : Text) :
    t ≠ d :: ds := by
  rintro rfl
  obtain ⟨c, cs, hcons, hc⟩ := h
  cases hcons
  exact ne_of_opensValue hc hd rfl

/-- Parts between brackets, with a comma and white space after each but the last. -/
def enclosed (left right : Char) (lead sep tail : Text) (ts : List Text) : Text :=
  left :: (lead ++ ((',' :: sep).intercalate ts ++ (tail ++ [right])))

section

variable {lead sep tail : Text} (hlead : AllGap lead) (hsep : AllGap sep) (htail : AllGap tail)
  {ts : List Text} (hne : ts ≠ [])
include hlead hsep htail hne

/-- Items in square brackets are read as a list. -/
theorem spells_list {vs : List Value} (h : List.Forall₂ Spells ts vs) :
    Spells (enclosed '[' ']' lead sep tail ts) (.list vs) := by
  refine ⟨⟨'[', _, rfl, rfl⟩, fun fuel rest hfuel _ => ?_⟩
  have hopens : Opens ((',' :: sep).intercalate ts ++ (tail ++ ']' :: rest)) := by
    cases h with
    | nil => exact absurd rfl hne
    | cons ht _ => exact (ht.opens.intercalate _ _).append _
  cases fuel with
  | zero => cases hfuel
  | succ fuel =>
    simp only [enclosed, List.length_append, List.length_cons] at hfuel
    have hitems := items_spelled h hne hsep htail rest (show _ < fuel by omega)
    simp only [enclosed, List.cons_append, List.append_assoc, List.nil_append]
    rw [value, hopens.skipBlank_append hlead]
    split
    · rename_i hclose
      exact absurd hclose (hopens.ne_cons rfl _)
    · rw [hitems]
      rfl

/-- Entries in curly brackets are read as a table. -/
theorem spells_table {es : List (Text × Value)} (h : List.Forall₂ SpellsEntry ts es) :
    Spells (enclosed '\x7b' '\x7d' lead sep tail ts) (.table es) := by
  refine ⟨⟨'\x7b', _, rfl, rfl⟩, fun fuel rest hfuel _ => ?_⟩
  have hopens : Opens ((',' :: sep).intercalate ts ++ (tail ++ '\x7d' :: rest)) := by
    cases h with
    | nil => exact absurd rfl hne
    | cons ht _ => exact (ht.opens.intercalate _ _).append _
  cases fuel with
  | zero => cases hfuel
  | succ fuel =>
    simp only [enclosed, List.length_append, List.length_cons] at hfuel
    have hentries := entries_spelled h hne hsep htail rest (show _ < fuel by omega)
    simp only [enclosed, List.cons_append, List.append_assoc, List.nil_append]
    rw [value, hopens.skipBlank_append hlead]
    split
    · rename_i hclose
      exact absurd hclose (hopens.ne_cons rfl _)
    · rw [hentries]
      rfl

end

theorem spells_emptyList : Spells ['[', ']'] (.list []) :=
  ⟨⟨'[', _, rfl, rfl⟩, fun fuel _ hfuel _ => by
    cases fuel with
    | zero => cases hfuel
    | succ => rfl⟩

theorem spells_emptyTable : Spells ['\x7b', '\x7d'] (.table []) :=
  ⟨⟨'\x7b', _, rfl, rfl⟩, fun fuel _ hfuel _ => by
    cases fuel with
    | zero => cases hfuel
    | succ => rfl⟩

/-- A text that spells a value stands for it, with a line feed at the end. -/
theorem Spells.ofJson {t : Text} {v : Value} (h : Spells t v) :
    Value.ofJson (t ++ ['\n']) = .ok v := by
  have hread : value (2 * (t ++ ['\n']).length + 2) (t ++ ['\n']) = .ok (v, ['\n']) := by
    refine h.reads _ _ ?_ ?_
    · simp only [List.length_append]
      omega
    · rintro _ ⟨⟩
      decide
  obtain ⟨c, cs, rfl, hc⟩ := h.opens
  have hmark : ((c :: cs ++ ['\n']).head? == some (Char.ofNat 0xFEFF)) = false := by
    rw [List.cons_append, List.head?_cons, beq_eq_false_iff_ne]
    intro hmark
    exact ne_of_opensValue hc (by decide) (Option.some.inj hmark)
  have hskip : skipBlank (c :: cs ++ ['\n']) = c :: cs ++ ['\n'] :=
    skipBlank_cons (isGap_of_opensValue hc) _
  rw [Value.ofJson, hmark]
  simp only [whole, hskip, hread, bind, Except.bind, Bool.false_eq_true, if_false]
  rfl

end Json

namespace Value

open Json

/-! ## What is written -/

/-- A value of numbers and texts, in lists and tables. -/
inductive Plain : Value → Prop
  | integer (n : Int) : Plain (.integer n)
  | text (t : Text) : Plain (.text t)
  | list {vs : List Value} (h : ∀ v ∈ vs, Plain v) : Plain (.list vs)
  | table {es : List (Text × Value)} (h : ∀ e ∈ es, Plain e.2) : Plain (.table es)

theorem indentedItems_eq (depth : Nat) (vs : List Value) :
    indentedItems depth vs = vs.map (indented depth) := by
  induction vs with
  | nil => rfl
  | cons v vs ih => rw [indentedItems, ih, List.map_cons]

theorem indentedEntries_eq (depth : Nat) (es : List (Text × Value)) : indentedEntries depth es
    = es.map fun e => quoteText e.1 ++ ':' :: ' ' :: e.2.indented depth := by
  induction es with
  | nil => rfl
  | cons e es ih => rw [indentedEntries, ih, List.map_cons]

theorem inlineItems_eq (vs : List Value) : inlineItems vs = vs.map inline := by
  induction vs with
  | nil => rfl
  | cons v vs ih => rw [inlineItems, ih, List.map_cons]

theorem inlineEntries_eq (es : List (Text × Value)) :
    inlineEntries es = es.map fun e => quoteText e.1 ++ ':' :: ' ' :: e.2.inline := by
  induction es with
  | nil => rfl
  | cons e es ih => rw [inlineEntries, ih, List.map_cons]

theorem forall₂_spells {write : Value → Text} {vs : List Value}
    (h : ∀ v ∈ vs, Spells (write v) v) : List.Forall₂ Spells (vs.map write) vs :=
  List.forall₂_map_left_iff.2 (List.forall₂_same.2 h)

theorem forall₂_spellsEntry {write : Value → Text} {es : List (Text × Value)}
    (h : ∀ e ∈ es, Spells (write e.2) e.2) :
    List.Forall₂ SpellsEntry (es.map fun e => quoteText e.1 ++ ':' :: ' ' :: write e.2) es :=
  List.forall₂_map_left_iff.2 (List.forall₂_same.2 fun e he => ⟨_, rfl, h e he⟩)

/-- On one line, a value is written as a text that is read as the value. -/
theorem Plain.spells_inline {v : Value} (h : Plain v) : Spells v.inline v := by
  have hnone : AllGap [] := fun _ h => by cases h
  have hblank : AllGap [' '] := by simp [AllGap, isGap]
  induction h with
  | integer n => exact spells_decimal n
  | text t => exact spells_quoteText t
  | @list vs _ ih =>
    cases vs with
    | nil => exact spells_emptyList
    | cons v vs =>
      rw [inline, inlineItems_eq]
      exact spells_list hnone hblank hnone (List.cons_ne_nil _ _) (forall₂_spells ih)
  | @table es _ ih =>
    cases es with
    | nil => exact spells_emptyTable
    | cons e es =>
      rw [inline, inlineEntries_eq]
      exact spells_table hnone hblank hnone (List.cons_ne_nil _ _) (forall₂_spellsEntry ih)

/-- The beginning of a line at a depth. -/
def line (depth : Nat) : Text :=
  '\n' :: List.replicate (2 * depth) ' '

theorem allGap_line (depth : Nat) : AllGap (line depth) := by
  intro c hc
  rcases List.mem_cons.1 hc with rfl | hc
  · rfl
  · rw [List.eq_of_mem_replicate hc]
    rfl

theorem allGap_line_append (depth : Nat) : AllGap (line depth ++ [' ', ' ']) := by
  intro c hc
  rcases List.mem_append.1 hc with hc | hc
  · exact allGap_line depth c hc
  · simp only [List.mem_cons, List.not_mem_nil, or_false, or_self] at hc
    rw [hc]
    rfl

theorem bracketed_of_ne_nil {left right : Char} (depth : Nat) {items : List Text}
    (h : items ≠ []) : bracketed left right depth items
      = enclosed left right (line depth ++ [' ', ' ']) (line depth ++ [' ', ' ']) (line depth)
        items := by
  rw [bracketed, if_neg (by simpa using h)]
  simp [enclosed, line]

/-- With indentation, a value is written as a text that is read as the value. -/
theorem Plain.spells_indented {v : Value} (h : Plain v) (depth : Nat) :
    Spells (v.indented depth) v := by
  induction h generalizing depth with
  | integer n => exact spells_decimal n
  | text t => exact spells_quoteText t
  | @list vs _ ih =>
    cases vs with
    | nil => exact spells_emptyList
    | cons v vs =>
      rw [indented, indentedItems_eq, List.map_cons,
        bracketed_of_ne_nil depth (List.cons_ne_nil _ _)]
      exact spells_list (allGap_line_append depth) (allGap_line_append depth) (allGap_line depth)
        (List.cons_ne_nil _ _) (forall₂_spells fun v hv => ih v hv (depth + 1))
  | @table es _ ih =>
    cases es with
    | nil => exact spells_emptyTable
    | cons e es =>
      rw [indented, indentedEntries_eq, List.map_cons,
        bracketed_of_ne_nil depth (List.cons_ne_nil _ _)]
      exact spells_table (allGap_line_append depth) (allGap_line_append depth)
        (allGap_line depth) (List.cons_ne_nil _ _)
        (forall₂_spellsEntry fun e he => ih e he (depth + 1))

end Value

end ComponentDivision
