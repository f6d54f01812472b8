/-
# The wording of faults

The report about a fault says in one line what is wrong. All texts of causes are fixed, but for
the names and keywords that some of them quote.

* `Cause.quotes` : what a cause quotes;
* `Cause.newline_notMem_message` : a cause is worded in one line if all its quotes are;
* `Fault.OneLine` : what a fault quotes has no line feed.
-/
import ComponentDivision.Fault

namespace ComponentDivision

/-- The names, keywords and characters that the wording of a cause quotes. -/
def Cause.quotes : Cause → List Text
  | .missing (.characters t) => [t]
  | .elementLeftOpen name | .voidClosingTag name | .notOpen name
  | .unknownSpecialElement name => [name]
  | .branchOutsideAwait keyword => [keyword]
  | .closesOuterBlock inner keyword => [inner, keyword]
  | _ => []

/-- What is missing is described in one line if it is. -/
theorem Expected.newline_notMem_describe {what : Expected}
    (h : ∀ t ∈ (Cause.missing what).quotes, '\n' ∉ t) : '\n' ∉ what.describe := by
  cases what with
  | characters t => exact h t (List.mem_singleton_self t)
  | _ => decide +kernel

/-- **A cause is worded in one line** if what it quotes has no line feed. -/
theorem Cause.newline_notMem_message {cause : Cause} (h : ∀ t ∈ cause.quotes, '\n' ∉ t) :
    '\n' ∉ cause.message := by
  have happend {s t : Text} (hs : '\n' ∉ s) (ht : '\n' ∉ t) : '\n' ∉ s ++ t := fun hmem =>
    (List.mem_append.1 hmem).elim hs ht
  have hopening {name : Text} (hname : '\n' ∉ name) : '\n' ∉ '<' :: name :=
    List.not_mem_cons_of_ne_of_not_mem (by decide +kernel) hname
  have hquoted {s name t : Text} (hs : '\n' ∉ s) (hname : '\n' ∉ name) (ht : '\n' ∉ t) :
      '\n' ∉ s ++ name ++ t := happend (happend hs hname) ht
  cases cause with
  | missing what => exact happend (by decide +kernel) (Expected.newline_notMem_describe h)
  | elementLeftOpen name => exact happend (hopening (h _ (.head _))) (by decide +kernel)
  | voidClosingTag name => exact hquoted (by decide +kernel) (h _ (.head _)) (by decide +kernel)
  | notOpen name => exact hquoted (by decide +kernel) (h _ (.head _)) (by decide +kernel)
  | unknownSpecialElement name => exact happend (hopening (h _ (.head _))) (by decide +kernel)
  | branchOutsideAwait keyword =>
    exact hquoted (by decide +kernel) (h _ (.head _)) (by decide +kernel)
  | closesOuterBlock inner keyword =>
    exact hquoted (hquoted (by decide +kernel) (h _ (.head _)) (by decide +kernel))
      (h _ (.tail _ (.head _))) (by decide +kernel)
  | _ => decide +kernel

/-- What a fault quotes has no line feed. -/
def Fault.OneLine : Fault → Prop
  | .misread m => ∀ t ∈ m.cause.quotes, '\n' ∉ t
  | .rejected _ _ _ => True

end ComponentDivision
