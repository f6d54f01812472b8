/-
# Tags and blocks in braces

What begins with a brace: interpolated expressions, the special tags, and the
openers, continuations and closers of control blocks.

* `Reader.mustache` : reads what is in braces and says what it does to the open
  nodes.
-/
import ComponentDivision.Template.Embedded
import ComponentDivision.Template.Stack

namespace ComponentDivision

/-- A branch of an await block that the text does not have. -/
def Node.unwritten (b : BranchKind) : Node :=
  .leaf { kind := .branch b, start := -1, unwritten := true }

/-- A branch that begins at an offset. -/
def Node.branch (b : BranchKind) (start : Nat) : Node :=
  .leaf { kind := .branch b, start }

namespace Reader

/-! ## Opening blocks -/

/-- The node of an each block whose opener begins at `start`, after its keyword. -/
def eachBlock (ctx : Context) (start : Nat) : Reader Label := do
  let expression ← readExpressionAt ctx { stopWords := ["as".toList] }
  if ← eat "as".toList then
    requireBlank
    match ← readPattern ctx ",(\x7d".toList with
    | none => fail (.missing .bindingName)
    | some context =>
      skipBlank
      let index ← eachIndex
      let key ← eachKey
      expect ['}']
      return { kind := .guarded .eachBlock, start, expression := some expression
               context := some context, index, key }
  else fail (.missing .eachKeyword)
where
  /-- The name of the index, after a comma. -/
  eachIndex : Reader (Option Text) := do
    if ← eat [','] then
      skipBlank
      match ← readPattern ctx "(\x7d".toList with
      | none => fail (.missing .bindingName)
      | some index =>
        if isIdentifier index then
          skipBlank
          return some index
        else fail (.missing .bindingName)
    else return none
  /-- The key, in parentheses. -/
  eachKey : Reader (Option Expression) := do
    if ← eat ['('] then
      let key ← readExpressionAt ctx { terminators := [')'] }
      expect [')']
      skipBlank
      return some key
    else return none

/-- Opens an await block whose opener begins at `start`, after its keyword: with
its pending branch, or straight into the branch that a stop word names. -/
def awaitBlock (ctx : Context) (start : Nat) (st : Stack) : Reader Stack := do
  let expression ← readExpressionAt ctx { stopWords := ["then".toList, "catch".toList] }
  let opened ← position
  let node : Label := { kind := .awaitBlock, start, expression := some expression }
  if ← eat "then".toList then
    let pattern ← readPattern ctx ['}']
    expect ['}']
    return opening { node with thenPattern := pattern } .thenBlock opened
  else if ← eat "catch".toList then
    let pattern ← readPattern ctx ['}']
    expect ['}']
    return opening { node with catchPattern := pattern } .catchBlock opened
  else
    expect ['}']
    return opening node .pendingBlock opened
where
  /-- The block with its first branch open. -/
  opening (label : Label) (b : BranchKind) (start : Nat) : Stack :=
    (st.push
      { label
        pendingBlock := some (.unwritten .pendingBlock)
        thenBlock := some (.unwritten .thenBlock)
        catchBlock := some (.unwritten .catchBlock) }).push (.branch b start)

/-- Opens a block whose opener begins at `start`, after its mark. -/
def openBlock (ctx : Context) (start : Nat) (st : Stack) : Reader Stack := do
  let keyword ← word
  match block? keyword with
  | none => fail (.missing .blockKeyword)
  | some kind =>
    requireBlank
    match kind with
    | .guarded .eachBlock =>
      let label ← eachBlock ctx start
      return st.push { label }
    | .awaitBlock => awaitBlock ctx start st
    | kind =>
      let expression ← readExpressionAt ctx {}
      expect ['}']
      return st.push { label := { kind, start, expression := some expression } }

/-! ## Continuing and closing blocks -/

/-- An else branch whose tag begins at `start`, after its keyword. -/
def elseBranch (ctx : Context) (start : Nat) (st : Stack) : Reader Stack := do
  skipBlank
  if ← eat "if".toList then
    requireBlank
    if st.current.kind == .guarded .ifBlock && st.current.elseBlock.isNone then
      let expression ← readExpressionAt ctx {}
      expect ['}']
      let nested : Label :=
        { kind := .guarded .ifBlock, start, expression := some expression, elseif := true }
      return (st.push (.branch .elseBlock start)).push { label := nested }
    else failAt .elseIfOutsideIf start
  else if (st.current.kind == .guarded .ifBlock || st.current.kind == .guarded .eachBlock)
      && st.current.elseBlock.isNone then
    expect ['}']
    return st.push (.branch .elseBlock start)
  else failAt .elseOutsideBlock start

/-- Moves an await block on to the branch `b`, whose tag begins at `start`, after
its keyword. -/
def awaitBranch (ctx : Context) (start : Nat) (b : BranchKind) (st : Stack) : Reader Stack := do
  let st := st.pop start
  let pattern ← readPattern ctx ['}']
  expect ['}']
  let named := st.modifyCurrent fun n =>
    if b = .thenBlock then { n with label := { n.label with thenPattern := pattern } }
    else { n with label := { n.label with catchPattern := pattern } }
  return named.push (.branch b start)

/-- Continues the innermost block; the tag begins at `start`, and its mark has
been read. -/
def continueBlock (ctx : Context) (start : Nat) (st : Stack) : Reader Stack := do
  let keyword ← word
  let st := st.closeOmitted start
  let kind := st.current.kind
  if keyword == "else".toList then elseBranch ctx start st
  else if keyword == "then".toList then
    if kind == .branch .pendingBlock then awaitBranch ctx start .thenBlock st
    else failAt (.branchOutsideAwait keyword) start
  else if keyword == "catch".toList then
    if kind == .branch .pendingBlock || kind == .branch .thenBlock then
      awaitBranch ctx start .catchBlock st
    else failAt (.branchOutsideAwait keyword) start
  else failAt (.missing .branchKeyword) start

/-- Closes a block; the closer begins at `start`, and its mark has been read. -/
def closeBlock (start : Nat) (st : Stack) : Reader Stack := do
  let keyword ← word
  match block? keyword with
  | none => fail (.missing .blockKeyword)
  | some kind =>
    skipBlank
    expect ['}']
    let stop ← position
    ofExcept (st.closeBlock kind keyword start stop)

/-! ## Tags -/

/-- A special tag, which begins at `start`; its mark has been read. -/
def specialTag (ctx : Context) (start : Nat) (st : Stack) : Reader Stack := do
  let keyword ← word
  if keyword == "html".toList then
    requireBlank
    let expression ← readExpressionAt ctx {}
    finish .rawMustache (some expression)
  else if keyword == "debug".toList then
    let d ← delimited { allowEmpty := true }
    if d.scan.empty then finish .debugTag none
    else
      let expression ← checked ctx d
      finish .debugTag (some expression)
  else if keyword == "const".toList then
    requireBlank
    let expression ← readExpressionAt ctx {}
    finish .constTag (some expression)
  else fail (.missing .tagKeyword)
where
  /-- The node of the tag, after its closing brace. -/
  finish (kind : Kind) (expression : Option Expression) : Reader Stack := do
    expect ['}']
    let stop ← position
    return st.receive (.leaf { kind, start, stop, expression })

/-- An interpolated expression, after its opening brace at `start`. -/
def interpolation (ctx : Context) (start : Nat) (st : Stack) : Reader Stack := do
  let expression ← readExpressionAt ctx {}
  expect ['}']
  let stop ← position
  return st.receive (.leaf { kind := .mustache, start, stop, expression := some expression })

/-- What is in braces, after the opening brace at `start`. -/
def mustache (ctx : Context) (start : Nat) (st : Stack) : Reader Stack := do
  skipBlank
  if ← eat ['#'] then openBlock ctx start st
  else if ← eat [':'] then continueBlock ctx start st
  else if ← eat ['/'] then closeBlock start st
  else if ← eat ['@'] then specialTag ctx start st
  else interpolation ctx start st

/-! ## These readers move forward -/

theorem forward_eachIndex (ctx : Context) : Forward (eachBlock.eachIndex ctx) :=
  (forward_eat _).bind fun _ => by
    refine Forward.ite ?_ (Forward.pure _)
    refine forward_skipBlank.bind fun _ => (forward_readPattern ctx _).bind fun o => ?_
    cases o with
    | none => exact forward_fail _
    | some i =>
      exact (forward_skipBlank.bind fun _ => Forward.pure _).ite (forward_fail _)

theorem forward_eachKey (ctx : Context) : Forward (eachBlock.eachKey ctx) :=
  (forward_eat _).bind fun _ => by
    refine Forward.ite ?_ (Forward.pure _)
    exact (forward_readExpressionAt ctx _).bind fun _ => (forward_expect _).bind fun _ =>
      forward_skipBlank.bind fun _ => Forward.pure _

theorem forward_eachBlock (ctx : Context) (start : Nat) : Forward (eachBlock ctx start) := by
  refine (forward_readExpressionAt ctx _).bind fun _ => (forward_eat _).bind fun _ => ?_
  refine Forward.ite ?_ (forward_fail _)
  refine forward_requireBlank.bind fun _ => (forward_readPattern ctx _).bind fun o => ?_
  cases o with
  | none => exact forward_fail _
  | some context =>
    exact forward_skipBlank.bind fun _ => (forward_eachIndex ctx).bind fun _ =>
      (forward_eachKey ctx).bind fun _ => (forward_expect _).bind fun _ => Forward.pure _

theorem forward_awaitBlock (ctx : Context) (start : Nat) (st : Stack) :
    Forward (awaitBlock ctx start st) := by
  refine (forward_readExpressionAt ctx _).bind fun _ => forward_position.bind fun _ =>
    (forward_eat _).bind fun _ => Forward.ite ?_ ?_
  · exact (forward_readPattern ctx _).bind fun _ => (forward_expect _).bind fun _ =>
      Forward.pure _
  · refine (forward_eat _).bind fun _ => Forward.ite ?_ ?_
    · exact (forward_readPattern ctx _).bind fun _ => (forward_expect _).bind fun _ =>
        Forward.pure _
    · exact (forward_expect _).bind fun _ => Forward.pure _

theorem forward_openBlock (ctx : Context) (start : Nat) (st : Stack) :
    Forward (openBlock ctx start st) := by
  refine forward_word.bind fun keyword => ?_
  split
  · exact forward_fail _
  · refine forward_requireBlank.bind fun _ => ?_
    split
    · exact (forward_eachBlock ctx start).bind fun _ => Forward.pure _
    · exact forward_awaitBlock ctx start st
    · exact (forward_readExpressionAt ctx _).bind fun _ => (forward_expect _).bind fun _ =>
        Forward.pure _

theorem forward_elseBranch (ctx : Context) (start : Nat) (st : Stack) :
    Forward (elseBranch ctx start st) := by
  refine forward_skipBlank.bind fun _ => (forward_eat _).bind fun _ => Forward.ite ?_ ?_
  · refine forward_requireBlank.bind fun _ => Forward.ite ?_ (forward_failAt _ _)
    exact (forward_readExpressionAt ctx _).bind fun _ => (forward_expect _).bind fun _ =>
      Forward.pure _
  · refine Forward.ite ?_ (forward_failAt _ _)
    exact (forward_expect _).bind fun _ => Forward.pure _

theorem forward_awaitBranch (ctx : Context) (start : Nat) (b : BranchKind) (st : Stack) :
    Forward (awaitBranch ctx start b st) :=
  (forward_readPattern ctx _).bind fun _ => (forward_expect _).bind fun _ => Forward.pure _

theorem forward_continueBlock (ctx : Context) (start : Nat) (st : Stack) :
    Forward (continueBlock ctx start st) := by
  refine forward_word.bind fun keyword => Forward.ite (forward_elseBranch ctx start _) ?_
  refine Forward.ite ((forward_awaitBranch _ _ _ _).ite (forward_failAt _ _)) ?_
  exact Forward.ite ((forward_awaitBranch _ _ _ _).ite (forward_failAt _ _)) (forward_failAt _ _)

theorem forward_closeBlock (start : Nat) (st : Stack) : Forward (closeBlock start st) := by
  refine forward_word.bind fun keyword => ?_
  split
  · exact forward_fail _
  · exact forward_skipBlank.bind fun _ => (forward_expect _).bind fun _ =>
      forward_position.bind fun _ => forward_ofExcept _

theorem forward_specialTag (ctx : Context) (start : Nat) (st : Stack) :
    Forward (specialTag ctx start st) := by
  have hfinish (kind : Kind) (e : Option Expression) :
      Forward (specialTag.finish start st kind e) :=
    (forward_expect _).bind fun _ => forward_position.bind fun _ => Forward.pure _
  refine forward_word.bind fun keyword => Forward.ite ?_ (Forward.ite ?_ (Forward.ite ?_ ?_))
  · exact forward_requireBlank.bind fun _ => (forward_readExpressionAt ctx _).bind fun _ =>
      hfinish _ _
  · exact (forward_delimited _).bind fun d =>
      (hfinish _ _).ite ((forward_checked ctx d).bind fun _ => hfinish _ _)
  · exact forward_requireBlank.bind fun _ => (forward_readExpressionAt ctx _).bind fun _ =>
      hfinish _ _
  · exact forward_fail _

theorem forward_interpolation (ctx : Context) (start : Nat) (st : Stack) :
    Forward (interpolation ctx start st) :=
  (forward_readExpressionAt ctx _).bind fun _ => (forward_expect _).bind fun _ =>
    forward_position.bind fun _ => Forward.pure _

theorem forward_mustache (ctx : Context) (start : Nat) (st : Stack) :
    Forward (mustache ctx start st) :=
  forward_skipBlank.bind fun _ =>
    (forward_eat _).bind fun _ => (forward_openBlock ctx start st).ite <|
      (forward_eat _).bind fun _ => (forward_continueBlock ctx start st).ite <|
        (forward_eat _).bind fun _ => (forward_closeBlock start st).ite <|
          (forward_eat _).bind fun _ => (forward_specialTag ctx start st).ite <|
            forward_interpolation ctx start st

end Reader

end ComponentDivision
