/-
# Decoding

Bytes are decoded to a text exactly if they are the encoding of that text. So a file can be read
exactly if its bytes encode some text. Where an encoding is cut, also in the middle of a character,
lenient decoding gives the characters that are whole before the cut.

* `encode_of_continuation` : what is read as one character is its encoding;
* `continuation_of_encode` : the encoding of a character is read as that character;
* `decode_eq_ok_iff` : both, for whole texts;
* `Text.charsWithin` : how many characters fit into a number of bytes;
* `decodeLeniently_take` : what is decoded of an encoding that is cut.
-/
import Mathlib.Tactic.Common
import ComponentDivision.Text.Encoding

namespace ComponentDivision

/-! ## Bytes as numbers -/

theorem isContinuation_iff {b : UInt8} :
    isContinuation b = true ↔ 0x80 ≤ b.toNat ∧ b.toNat < 0xC0 := by
  simp only [isContinuation, Bool.and_eq_true, decide_eq_true_eq, UInt8.le_iff_toNat_le,
    UInt8.lt_iff_toNat_lt, UInt8.reduceToNat]

theorem mayFollow_iff {a b : UInt8} : mayFollow a b = true ↔
    (0x80 ≤ b.toNat ∧ b.toNat < 0xC0) ∧ ¬ (a.toNat = 0xE0 ∧ b.toNat < 0xA0) ∧
      ¬ (a.toNat = 0xED ∧ 0xA0 ≤ b.toNat) ∧ ¬ (a.toNat = 0xF0 ∧ b.toNat < 0x90) ∧
      ¬ (a.toNat = 0xF4 ∧ 0x90 ≤ b.toNat) := by
  simp only [mayFollow, Bool.and_eq_true, isContinuation_iff, Bool.not_eq_true',
    Bool.and_eq_false_iff, beq_eq_false_iff_ne, decide_eq_false_iff_not, ne_eq, ← UInt8.toNat_inj,
    UInt8.le_iff_toNat_le, UInt8.lt_iff_toNat_lt, UInt8.reduceToNat]
  grind

theorem encodedLength?_eq_some_iff {b : UInt8} {n : Nat} : encodedLength? b = some n ↔
    n = 1 ∧ b.toNat < 0x80 ∨ n = 2 ∧ 0xC2 ≤ b.toNat ∧ b.toNat < 0xE0 ∨
      n = 3 ∧ 0xE0 ≤ b.toNat ∧ b.toNat < 0xF0 ∨ n = 4 ∧ 0xF0 ≤ b.toNat ∧ b.toNat < 0xF5 := by
  simp only [encodedLength?, UInt8.lt_iff_toNat_lt, UInt8.reduceToNat]
  grind

theorem toNat_ofNat_byte (n : Nat) : (UInt8.ofNat n).toNat = n % 256 :=
  UInt8.toNat_ofNat'

theorem val_ofNat {code : Nat} (h : code < 0xD800 ∨ 0xE000 ≤ code ∧ code < 0x110000) :
    (Char.ofNat code).val.toNat = code := by
  have hvalid : code.isValidChar := by
    rcases h with h | h
    · exact Or.inl h
    · exact Or.inr ⟨by omega, h.2⟩
  rw [Char.ofNat, dif_pos hvalid]
  rfl

/-! ## Characters -/

theorem continuation_zero {lead : UInt8} {read acc : Nat} {bs : List UInt8} :
    continuation lead read acc 0 bs = .ok acc := by
  cases bs <;> rfl

/-- One byte more has to continue the character. -/
theorem continuation_succ_eq_ok {lead : UInt8} {read acc need code : Nat} {bs : List UInt8} :
    continuation lead read acc (need + 1) bs = .ok code ↔ ∃ b rest, bs = b :: rest ∧
      (if read = 1 then mayFollow lead b else isContinuation b) = true ∧
      continuation lead (read + 1) (acc * 0x40 + b.toNat % 0x40) need rest = .ok code := by
  cases bs with
  | nil => simp [continuation]
  | cons b rest =>
    by_cases hb : (if read = 1 then mayFollow lead b else isContinuation b) = true
    · rw [continuation, if_pos hb]
      constructor
      · intro h
        exact ⟨b, rest, rfl, hb, h⟩
      · rintro ⟨_, _, ⟨⟩, -, h⟩
        exact h
    · rw [continuation, if_neg hb]
      constructor
      · intro h
        cases h
      · rintro ⟨_, _, ⟨⟩, hb', -⟩
        exact absurd hb' hb

/-- What is read as one character is its encoding. -/
theorem encode_of_continuation {b : UInt8} {bs : List UInt8} {n code : Nat}
    (hn : encodedLength? b = some n)
    (h : continuation b 1 (leadBits b n) (n - 1) bs = .ok code) :
    b :: bs = String.utf8EncodeChar (Char.ofNat code) ++ bs.drop (n - 1) := by
  have hbyte {x : UInt8} {m : Nat} (hm : x.toNat = m % 256) : x = .ofNat m :=
    UInt8.toNat_inj.1 (hm.trans (toNat_ofNat_byte m).symm)
  -- one case for each length; the bytes give the code, and the code gives the bytes
  rcases encodedLength?_eq_some_iff.1 hn with ⟨rfl, hb⟩ | ⟨rfl, hb⟩ | ⟨rfl, hb⟩ | ⟨rfl, hb⟩
  · rw [continuation_zero] at h
    cases h
    simp only [leadBits, String.utf8EncodeChar]
    rw [val_ofNat (by omega), if_pos (by omega)]
    exact congrArg₂ List.cons (hbyte (by omega)) rfl
  · obtain ⟨x, rest, rfl, hx, h⟩ := continuation_succ_eq_ok.1 h
    rw [continuation_zero] at h
    cases h
    simp only [if_true, mayFollow_iff] at hx
    simp only [leadBits, String.utf8EncodeChar]
    rw [val_ofNat (by omega), if_neg (by omega), if_pos (by omega)]
    exact congrArg₂ List.cons (hbyte (by omega)) (congrArg₂ List.cons (hbyte (by omega)) rfl)
  · obtain ⟨x, rest, rfl, hx, h⟩ := continuation_succ_eq_ok.1 h
    obtain ⟨y, rest, rfl, hy, h⟩ := continuation_succ_eq_ok.1 h
    rw [continuation_zero] at h
    cases h
    simp only [if_true, mayFollow_iff] at hx
    simp only [Nat.reduceAdd, Nat.reduceEqDiff, reduceIte, isContinuation_iff] at hy
    simp only [leadBits, String.utf8EncodeChar]
    rw [val_ofNat (by omega), if_neg (by omega), if_neg (by omega), if_pos (by omega)]
    exact congrArg₂ List.cons (hbyte (by omega)) (congrArg₂ List.cons (hbyte (by omega))
      (congrArg₂ List.cons (hbyte (by omega)) rfl))
  · obtain ⟨x, rest, rfl, hx, h⟩ := continuation_succ_eq_ok.1 h
    obtain ⟨y, rest, rfl, hy, h⟩ := continuation_succ_eq_ok.1 h
    obtain ⟨z, rest, rfl, hz, h⟩ := continuation_succ_eq_ok.1 h
    rw [continuation_zero] at h
    cases h
    simp only [if_true, mayFollow_iff] at hx
    simp only [Nat.reduceAdd, Nat.reduceEqDiff, reduceIte, isContinuation_iff] at hy hz
    simp only [leadBits, String.utf8EncodeChar]
    rw [val_ofNat (by omega), if_neg (by omega), if_neg (by omega), if_neg (by omega)]
    exact congrArg₂ List.cons (hbyte (by omega)) (congrArg₂ List.cons (hbyte (by omega))
      (congrArg₂ List.cons (hbyte (by omega)) (congrArg₂ List.cons (hbyte (by omega)) rfl)))

/-- The encoding of a character is read as that character. -/
theorem continuation_of_encode (c : Char) (rest : List UInt8) :
    ∃ b bs, String.utf8EncodeChar c = b :: bs ∧ encodedLength? b = some (bs.length + 1) ∧
      continuation b 1 (leadBits b (bs.length + 1)) bs.length (bs ++ rest) = .ok c.toNat := by
  have hvalid : c.toNat < 0xD800 ∨ 0xDFFF < c.toNat ∧ c.toNat < 0x110000 := c.valid
  have hlength {m n : Nat} (h : n = 1 ∧ m < 0x80 ∨ n = 2 ∧ 0xC2 ≤ m ∧ m < 0xE0 ∨
      n = 3 ∧ 0xE0 ≤ m ∧ m < 0xF0 ∨ n = 4 ∧ 0xF0 ≤ m ∧ m < 0xF5) :
      encodedLength? (.ofNat m) = some n := by
    rw [encodedLength?_eq_some_iff, toNat_ofNat_byte, Nat.mod_eq_of_lt (by omega)]
    exact h
  have hfirst {m n : Nat} (h : (0x80 ≤ n ∧ n < 0xC0) ∧ ¬ (m = 0xE0 ∧ n < 0xA0) ∧
      ¬ (m = 0xED ∧ 0xA0 ≤ n) ∧ ¬ (m = 0xF0 ∧ n < 0x90) ∧ ¬ (m = 0xF4 ∧ 0x90 ≤ n) ∧ m < 256) :
      (if 1 = 1 then mayFollow (.ofNat m) (.ofNat n) else isContinuation (.ofNat n)) = true := by
    rw [if_pos rfl, mayFollow_iff, toNat_ofNat_byte, toNat_ofNat_byte,
      Nat.mod_eq_of_lt (by omega), Nat.mod_eq_of_lt (by omega)]
    omega
  have hlater {lead : UInt8} {read n : Nat} (h : 0x80 ≤ n ∧ n < 0xC0) (hread : read ≠ 1) :
      (if read = 1 then mayFollow lead (.ofNat n) else isContinuation (.ofNat n)) = true := by
    rw [if_neg hread, isContinuation_iff, toNat_ofNat_byte, Nat.mod_eq_of_lt (by omega)]
    exact h
  unfold String.utf8EncodeChar
  simp only [Char.toNat_val]
  generalize c.toNat = v at hvalid
  split_ifs
  · refine ⟨_, _, rfl, hlength (.inl ⟨rfl, by omega⟩), ?_⟩
    refine continuation_zero.trans (congrArg _ ?_)
    simp only [leadBits, List.length_nil, toNat_ofNat_byte]
    omega
  · refine ⟨_, _, rfl, hlength (.inr (.inl ⟨rfl, by omega⟩)), ?_⟩
    refine continuation_succ_eq_ok.2 ⟨_, _, rfl, hfirst (by omega), ?_⟩
    refine continuation_zero.trans (congrArg _ ?_)
    simp only [leadBits, List.length_cons, List.length_nil, toNat_ofNat_byte]
    omega
  · refine ⟨_, _, rfl, hlength (.inr (.inr (.inl ⟨rfl, by omega⟩))), ?_⟩
    refine continuation_succ_eq_ok.2 ⟨_, _, rfl, hfirst (by omega), ?_⟩
    refine continuation_succ_eq_ok.2 ⟨_, _, rfl, hlater (by omega) (by decide), ?_⟩
    refine continuation_zero.trans (congrArg _ ?_)
    simp only [leadBits, List.length_cons, List.length_nil, toNat_ofNat_byte]
    omega
  · refine ⟨_, _, rfl, hlength (.inr (.inr (.inr ⟨rfl, by omega⟩))), ?_⟩
    refine continuation_succ_eq_ok.2 ⟨_, _, rfl, hfirst (by omega), ?_⟩
    refine continuation_succ_eq_ok.2 ⟨_, _, rfl, hlater (by omega) (by decide), ?_⟩
    refine continuation_succ_eq_ok.2 ⟨_, _, rfl, hlater (by omega) (by decide), ?_⟩
    refine continuation_zero.trans (congrArg _ ?_)
    simp only [leadBits, List.length_cons, List.length_nil, toNat_ofNat_byte]
    omega

/-! ## Texts -/

theorem encode_nil : encode [] = [] :=
  rfl

theorem encode_cons (c : Char) (t : Text) : encode (c :: t) = String.utf8EncodeChar c ++ encode t :=
  List.flatMap_cons

/-- A byte and those after it that stand for a character, and then the others. -/
theorem decodeFrom_of_continuation {position n code : Nat} {b : UInt8} {bs : List UInt8}
    (hn : encodedLength? b = some n)
    (h : continuation b 1 (leadBits b n) (n - 1) bs = .ok code) :
    decodeFrom position (b :: bs)
      = (decodeFrom (position + 1 + (n - 1)) (bs.drop (n - 1))).map (Char.ofNat code :: ·) := by
  rw [decodeFrom, hn]
  simp only [h]
  cases decodeFrom (position + 1 + (n - 1)) (bs.drop (n - 1)) <;> rfl

theorem decodeFrom_encode (position : Nat) (t : Text) :
    decodeFrom position (encode t) = .ok t := by
  induction t generalizing position with
  | nil => rw [encode_nil, decodeFrom]
  | cons c cs ih =>
    obtain ⟨b, bs, hbytes, hlength, hcode⟩ := continuation_of_encode c (encode cs)
    rw [encode_cons, hbytes, List.cons_append, decodeFrom_of_continuation hlength hcode,
      Nat.add_sub_cancel, List.drop_left, ih, Char.ofNat_toNat]
    rfl

theorem encode_of_decodeFrom {position : Nat} {bytes : List UInt8} {t : Text}
    (h : decodeFrom position bytes = .ok t) : bytes = encode t := by
  fun_induction decodeFrom position bytes generalizing t with
  | case1 =>
    cases h
    rfl
  | case2 => cases h
  | case3 => cases h
  | case4 position b bs n hn code hcode ih =>
    cases hrest : decodeFrom (position + 1 + (n - 1)) (bs.drop (n - 1)) with
    | error e =>
      rw [hrest] at h
      cases h
    | ok rest =>
      rw [hrest] at h
      cases h
      rw [encode_cons, ← ih hrest]
      exact encode_of_continuation hn hcode

/-- **Bytes are decoded to a text exactly if they encode it.** -/
theorem decode_eq_ok_iff {bytes : List UInt8} {t : Text} :
    decode bytes = .ok t ↔ bytes = encode t := by
  constructor
  · exact encode_of_decodeFrom
  · rintro rfl
    exact decodeFrom_encode 0 t

/-! ## Encodings that are cut -/

/-- The number of characters from the front whose encodings fit into `n` bytes. -/
def Text.charsWithin : Nat → Text → Nat
  | _, [] => 0
  | n, c :: cs => if c.utf8Size ≤ n then 1 + charsWithin (n - c.utf8Size) cs else 0

/-- Bytes that continue a character, but not all of them. -/
theorem continuation_take {lead : UInt8} {read acc need code k : Nat} {bs : List UInt8}
    (h : continuation lead read acc need bs = .ok code) (hk : k < need) :
    continuation lead read acc need (bs.take k) = .error (.unexpectedEnd, read + k) := by
  induction k generalizing read acc need bs with
  | zero =>
    obtain ⟨need, rfl⟩ := Nat.exists_eq_succ_of_ne_zero (Nat.ne_of_gt hk)
    rfl
  | succ k ih =>
    obtain ⟨need, rfl⟩ := Nat.exists_eq_succ_of_ne_zero (Nat.ne_of_gt (Nat.zero_lt_of_lt hk))
    obtain ⟨b, rest, rfl, hb, h⟩ := continuation_succ_eq_ok.1 h
    rw [List.take_succ_cons, continuation, if_pos hb, ih h (Nat.lt_of_succ_lt_succ hk)]
    congr 2
    omega

/-- **An encoding that is cut is decoded to the characters that are whole before the cut.** -/
theorem decodeLeniently_take (n : Nat) (t : Text) :
    decodeLeniently ((encode t).take n) = t.take (Text.charsWithin n t) := by
  induction t generalizing n with
  | nil => rw [encode_nil, List.take_nil, decodeLeniently, List.take_nil]
  | cons c t ih =>
    obtain ⟨b, bs, hbytes, hlength, hcode⟩ := continuation_of_encode c (encode t)
    have hsize : c.utf8Size = bs.length + 1 := by
      rw [← String.length_utf8EncodeChar, hbytes, List.length_cons]
    rw [encode_cons, hbytes, List.cons_append, Text.charsWithin, hsize]
    by_cases hn : bs.length + 1 ≤ n
    · obtain ⟨m, rfl⟩ := Nat.exists_eq_add_of_le' hn
      obtain ⟨b', bs', hbytes', hlength', hcode'⟩ :=
        continuation_of_encode c ((encode t).take m)
      cases hbytes.symm.trans hbytes'
      rw [if_pos hn, Nat.add_sub_cancel, ← Nat.add_assoc, List.take_succ_cons, Nat.add_comm m,
        List.take_length_add_append, decodeLeniently, hlength]
      simp only [Nat.add_sub_cancel, hcode', List.drop_left, ih, Char.ofNat_toNat]
      rw [Nat.add_comm 1, List.take_succ_cons]
    · rw [if_neg hn, List.take_zero]
      cases n with
      | zero => rw [List.take_zero, decodeLeniently]
      | succ k =>
        have hk : k < bs.length := by omega
        have hcut := continuation_take hcode hk
        rw [List.take_succ_cons, decodeLeniently, hlength]
        simp only [Nat.add_sub_cancel, hcut, Nat.add_sub_cancel_left]
        rw [List.drop_eq_nil_of_le (by rw [List.length_take]; omega), decodeLeniently]

end ComponentDivision
