/-
# The pieces of an expression

An expression is written with blanks, comments and tokens. This module says what each of
them looks like, where one may stand and which brackets it opens and closes, without a
scan; a piece is told from the character after it, and a slash from whether a value stands
before it.

* `Piece.Fits` : a piece stands before a text;
* `Balanced` : brackets that are properly nested and all closed;
* `balanced_of_openAfter` : so are the brackets that a stack accounts for.
-/
import ComponentDivision.Proofs.Expression.Literal

namespace ComponentDivision

/-! ## Brackets -/

/-- The character that opens a bracket. -/
def Bracket.opener : Bracket → Char
  | .round => '('
  | .square => '['
  | .curly => '{'
  | .substitution => '{'

/-- A bracket that is opened or closed. -/
inductive BracketMark where
  | opening (b : Bracket)
  | closing (b : Bracket)
  deriving DecidableEq, Repr

/-- The brackets that are open after some marks, innermost first; none if a mark closes a
bracket that is not the innermost one. -/
def openAfter (depth : List Bracket) : List BracketMark → Option (List Bracket)
  | [] => some depth
  | .opening b :: ms => openAfter (b :: depth) ms
  | .closing b :: ms =>
    match depth with
    | [] => none
    | d :: depth => if d = b then openAfter depth ms else none

/-- Properly nested brackets that are all closed. -/
inductive Balanced : List BracketMark → Prop
  | nil : Balanced []
  | enclose (b : Bracket) {xs ys : List BracketMark} (hxs : Balanced xs) (hys : Balanced ys) :
      Balanced (.opening b :: (xs ++ .closing b :: ys))

/-- The number of brackets that are open after some marks. -/
def bracketDepth (ms : List BracketMark) : Int :=
  (ms.map fun
    | .opening _ => 1
    | .closing _ => -1).sum

theorem openAfter_append (depth : List Bracket) (ms ns : List BracketMark) :
    openAfter depth (ms ++ ns) = (openAfter depth ms).bind fun d => openAfter d ns := by
  induction ms generalizing depth with
  | nil => rfl
  | cons m ms ih =>
    cases m with
    | opening b => exact ih (b :: depth)
    | closing b =>
      cases depth with
      | nil => rfl
      | cons d depth =>
        simp only [List.cons_append, openAfter]
        split
        · exact ih depth
        · rfl

/-- A mark closes the innermost bracket. -/
theorem openAfter_closing {depth d : List Bracket} {b : Bracket} {ms : List BracketMark}
    (h : openAfter depth (.closing b :: ms) = some d) :
    ∃ outer, depth = b :: outer ∧ openAfter outer ms = some d := by
  cases depth with
  | nil => cases h
  | cons e outer =>
    simp only [openAfter] at h
    split at h
    · rename_i he
      exact ⟨outer, by rw [he], h⟩
    · cases h

/-- The depth counts the brackets on the stack. -/
theorem bracketDepth_eq {depth d : List Bracket} {ms : List BracketMark}
    (h : openAfter depth ms = some d) : bracketDepth ms = d.length - depth.length := by
  induction ms generalizing depth with
  | nil =>
    cases h
    simp [bracketDepth]
  | cons m ms ih =>
    cases m with
    | opening b =>
      have := ih h
      simp only [bracketDepth, List.map_cons, List.sum_cons, List.length_cons] at this ⊢
      omega
    | closing b =>
      obtain ⟨outer, rfl, houter⟩ := openAfter_closing h
      have := ih houter
      simp only [bracketDepth, List.map_cons, List.sum_cons, List.length_cons] at this ⊢
      omega

/-- Marks that close all brackets of a stack: what stands between their ends is balanced. -/
def Closes : List Bracket → List BracketMark → Prop
  | [], ms => Balanced ms
  | b :: depth, ms => ∃ xs ys, ms = xs ++ .closing b :: ys ∧ Balanced xs ∧ Closes depth ys

/-- A balanced part in front changes nothing. -/
theorem Closes.enclose {depth : List Bracket} {ms : List BracketMark} (b : Bracket)
    {xs : List BracketMark} (hxs : Balanced xs) (h : Closes depth ms) :
    Closes depth (.opening b :: (xs ++ .closing b :: ms)) := by
  cases depth with
  | nil => exact Balanced.enclose b hxs h
  | cons d depth =>
    obtain ⟨us, vs, rfl, hus, hvs⟩ := h
    exact ⟨.opening b :: (xs ++ .closing b :: us), vs, by simp, .enclose b hxs hus, hvs⟩

theorem closes_of_openAfter {depth : List Bracket} {ms : List BracketMark}
    (h : openAfter depth ms = some []) : Closes depth ms := by
  induction ms generalizing depth with
  | nil =>
    cases h
    exact Balanced.nil
  | cons m ms ih =>
    cases m with
    | opening b =>
      obtain ⟨xs, ys, rfl, hxs, hys⟩ := ih h
      exact hys.enclose b hxs
    | closing b =>
      obtain ⟨outer, rfl, houter⟩ := openAfter_closing h
      exact ⟨[], ms, rfl, .nil, ih houter⟩

/-- **Marks that leave no bracket open are balanced.** -/
theorem balanced_of_openAfter {ms : List BracketMark} (h : openAfter [] ms = some []) :
    Balanced ms :=
  closes_of_openAfter h

/-! ## Pieces -/

/-- A blank, a comment or a token. -/
inductive Piece where
  | blank (c : Char)
  | lineComment (body : Text)
  | blockComment (body : Text)
  | word (w : Text)
  | string (quote : Char) (body : Text)
  /-- A chunk of a template literal: whether it resumes after a substitution, and whether
  the literal ends with it. -/
  | chunk (resumes : Bool) (body : Text) (closed : Bool)
  | regex (body flags : Text)
  | opener (b : Bracket)
  | closer (b : Bracket)
  /-- Two signs after a value. -/
  | increment (sign : Char)
  | single (c : Char)
  deriving DecidableEq, Repr

namespace Piece

/-- How a piece is written. -/
def text : Piece → Text
  | blank c => [c]
  | lineComment body => '/' :: '/' :: body
  | blockComment body => '/' :: '*' :: (body ++ commentEnd)
  | word w => w
  | string quote body => quote :: (body ++ [quote])
  | chunk resumes body closed => (if resumes then '}' else '`') :: (body ++ chunkEnd closed)
  | regex body flags => '/' :: (body ++ '/' :: flags)
  | opener b => [b.opener]
  | closer b => [b.closer]
  | increment sign => [sign, sign]
  | single c => [c]

/-- Whether a piece is a blank or a comment. -/
def isGap : Piece → Bool
  | blank _ | lineComment _ | blockComment _ => true
  | _ => false

/-- The brackets that a piece opens and closes. -/
def marks : Piece → List BracketMark
  | chunk resumes _ closed =>
    (if resumes then [.closing .substitution] else [])
      ++ (if closed then [] else [.opening .substitution])
  | opener b => [.opening b]
  | closer b => [.closing b]
  | _ => []

/-- Whether a value stands before what follows a piece, given whether one stands before the
piece. -/
def valueAfter (value : Bool) : Piece → Bool
  | blank _ | lineComment _ | blockComment _ => value
  | word w => !wordsBeforeOperand.contains w
  | string _ _ | regex _ _ | closer _ | increment _ => true
  | chunk _ _ closed => closed
  | opener _ | single _ => false

/-- The characters that are tokens by themselves, brackets apart. -/
def isSingle (c : Char) : Bool :=
  !isBlank c && !isWordChar c && c ∉ ['\'', '"', '`', '(', '[', '{', ')', ']', '}']

/-- A piece as it may stand before `rest`, after a value or not. -/
def Fits (value : Bool) (rest : Text) : Piece → Prop
  | blank c => isBlank c = true
  | lineComment body => '\n' ∉ body ∧ ∀ c ∈ rest.head?, c = '\n'
  | blockComment body => CommentBody body
  | word w =>
    w ≠ [] ∧ (∀ c ∈ w.head?, isBlank c = false) ∧ (∀ c ∈ w, isWordChar c = true) ∧ WordEnd rest
  | string quote body => (quote = '\'' ∨ quote = '"') ∧ StringBody quote body
  | chunk _ body closed => ChunkBody closed body
  | regex body flags =>
    value = false ∧ body ≠ [] ∧ body.head? ≠ some '*' ∧ RegexBody false body ∧
      (∀ c ∈ flags, isWordChar c = true) ∧ WordEnd rest
  | opener b => b ≠ .substitution
  | closer b => b ≠ .substitution
  | increment sign => (sign = '+' ∨ sign = '-') ∧ value = true
  | single c =>
    isSingle c = true ∧
      (c = '/' → value = true ∧ rest.head? ≠ some '/' ∧ rest.head? ≠ some '*') ∧
      (c = '+' ∨ c = '-' → value = true → rest.head? ≠ some c)

/-- A piece is told from the character after it. -/
theorem Fits.congr {value : Bool} {rest rest' : Text} {p : Piece} (h : p.Fits value rest)
    (hrest : rest'.head? = rest.head?) : p.Fits value rest' := by
  cases p <;> simp only [Fits, WordEnd, hrest] at h ⊢ <;> exact h

theorem text_ne_nil {value : Bool} {rest : Text} {p : Piece} (h : p.Fits value rest) :
    p.text ≠ [] := by
  cases p with
  | word w => exact h.1
  | _ => exact List.cons_ne_nil _ _

/-- A text that begins with a word character begins with a word. -/
theorem exists_word_fits {c : Char} (cs : Text) (hblank : isBlank c = false)
    (hword : isWordChar c = true) (value : Bool) :
    ∃ rest, c :: cs = (c :: cs.takeWhile isWordChar) ++ rest ∧
      (word (c :: cs.takeWhile isWordChar)).Fits value rest := by
  obtain ⟨rest, hcs, hrest⟩ := exists_word cs
  refine ⟨rest, by rw [List.cons_append, ← hcs], List.cons_ne_nil _ _, ?_, ?_, hrest⟩
  · rintro d ⟨⟩
    exact hblank
  · intro d hd
    rcases List.mem_cons.1 hd with rfl | hd
    · exact hword
    · exact List.mem_takeWhile_imp hd

end Piece

/-- The text of pieces. -/
def piecesText (ps : List Piece) : Text :=
  ps.flatMap Piece.text

/-- The brackets of pieces. -/
def piecesMarks (ps : List Piece) : List BracketMark :=
  ps.flatMap Piece.marks

/-- Pieces one after another, each as it may stand before the next one and the last one
before `rest`. -/
def Pieces (value : Bool) (rest : Text) : List Piece → Prop
  | [] => True
  | p :: ps => p.Fits value (piecesText ps ++ rest) ∧ Pieces (p.valueAfter value) rest ps

end ComponentDivision
