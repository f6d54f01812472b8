/-
# How a run ends

A run of the command line says one thing, a report or a message, in the way that its options ask
for, unless an error escapes from it. Errors that are not caught come from the path and the bytes
of the file, from the reader of markup, and from calls that nest too deep; the settings and the
division of the document end in a message. Nothing is assumed of the readers: they give what they
give and fail with errors of any kind.

* `Options.Answers` : what a command line has to say about the files;
* `Options.Escapes` : the errors that no message is made of;
* `Run.Says` : a run says one thing and nothing else;
* `run_says_iff` : when a run says what it has to say, and when an error escapes.
-/
import ComponentDivision.Proofs.StoredOffsets
import ComponentDivision.Proofs.Text.Decoding
import ComponentDivision.Proofs.Value.ReadBack

namespace ComponentDivision

/-! ## Reports as plain values -/

theorem Fragment.plain_toValue (f : Fragment) : f.toValue.Plain := by
  refine .table fun e he => ?_
  simp only [List.mem_cons, List.not_mem_nil, or_false] at he
  rcases he with rfl | rfl | rfl | rfl
  · exact .text _
  · exact .integer _
  · exact .integer _
  · exact .integer _

theorem Fragment.plain_of_toValues? {fs : List Fragment} {v : Value}
    (h : Fragment.toValues? fs = some v) : v.Plain := by
  unfold toValues? at h
  split at h
  · cases h
  · cases h
    refine .list fun v hv => ?_
    obtain ⟨f, -, rfl⟩ := List.mem_map.1 hv
    exact f.plain_toValue

theorem Scripts.plain_of_toValue? {s : Scripts} {v : Value} (h : s.toValue? = some v) :
    v.Plain := by
  cases s with
  | absent => cases h
  | single f =>
    cases h
    exact f.plain_toValue
  | several fs => exact Fragment.plain_of_toValues? h

/-- A report is a table of numbers, texts and tables of them. -/
theorem Report.plain_toValue (r : Report) : r.toValue.Plain := by
  have hfield {name : String} {o : Option Value} {e : Text × Value}
      (he : e ∈ o.toList.map fun v => (name.toList, v)) (ho : ∀ v, o = some v → v.Plain) :
      e.2.Plain := by
    obtain ⟨v, hv, rfl⟩ := List.mem_map.1 he
    exact ho v (Option.mem_toList.1 hv)
  refine .table fun e he => ?_
  simp only [List.mem_append] at he
  rcases he with (((he | he) | he) | he) | he
  · refine hfield he fun v hv => ?_
    obtain ⟨name, -, rfl⟩ := Option.map_eq_some_iff.1 hv
    exact .text name
  · exact hfield he fun v hv => Scripts.plain_of_toValue? hv
  · refine hfield he fun v hv => ?_
    obtain ⟨f, -, rfl⟩ := Option.map_eq_some_iff.1 hv
    exact f.plain_toValue
  · exact hfield he fun v hv => Fragment.plain_of_toValues? hv
  · exact hfield he fun v hv => Fragment.plain_of_toValues? hv

/-! ## Divisions that are not refused -/

section

variable {ε : Type}

/-- A document that is not blank has to be read. -/
theorem Markup.findBlocks_eq_error_iff {reader : TreeReader ε} {features document : Text} {e : ε} :
    findBlocks reader features document = .error e ↔
      document.blank = false ∧ reader features document = .error e := by
  unfold findBlocks
  cases hblank : document.blank with
  | true => simp
  | false => simp [Except.map_eq_error_iff]

/-- The calls that collect expressions nest too deep if they do so in a piece of markup before
which all pieces are templates. -/
theorem overflows_iff {grammar : Grammar} {room : Nat} {fs : List Fragment} :
    overflows grammar room fs = true ↔ ∃ before f after root, fs = before ++ f :: after ∧
      (∀ g ∈ before, ∃ root, parseTemplate grammar g.text = .ok root) ∧
      parseTemplate grammar f.text = .ok root ∧ room < allCalls root.children := by
  induction fs with
  | nil => simp [overflows]
  | cons f fs ih =>
    unfold overflows
    constructor
    · intro h
      split at h
      · cases h
      · rename_i root hroot
        rcases Bool.or_eq_true_iff.1 h with hdeep | hrest
        · exact ⟨[], f, fs, root, rfl, by simp, hroot, by simpa using hdeep⟩
        · obtain ⟨before, g, after, root', rfl, hbefore, hg, hdeep⟩ := ih.1 hrest
          exact ⟨f :: before, g, after, root', rfl, List.forall_mem_cons.2 ⟨⟨root, hroot⟩, hbefore⟩,
            hg, hdeep⟩
    · rintro ⟨before, g, after, root, heq, hbefore, hg, hdeep⟩
      cases before with
      | nil =>
        cases heq
        rw [hg]
        simp [hdeep]
      | cons b before =>
        cases heq
        obtain ⟨⟨root', hroot'⟩, hbefore⟩ := List.forall_mem_cons.1 hbefore
        rw [hroot']
        simp only [Bool.or_eq_true]
        exact .inr (ih.2 ⟨before, g, after, root, rfl, hbefore, hg, hdeep⟩)

variable {tools : Tools ε} {settings : Settings} {document : Text} {fileName : Option Text}

/-- The calls that collect expressions nest too deep in the markup of the document. -/
def Exhausts (tools : Tools ε) (settings : Settings) (document : Text) (fileName : Option Text) :
    Prop :=
  ∃ located layout room, Markup.locate tools.reader settings.features document = .ok located ∧
    Layout.resolve document located fileName = .ok layout ∧ settings.extract = true ∧
    tools.room = some room ∧
    overflows tools.grammar room (Report.assemble document layout fileName).markup = true

/-- A division fails with the error of the reader, with a refusal, or because of the calls. -/
theorem divide_eq_error_cases {failure : Failure ε}
    (h : divide tools settings document fileName = .error failure) :
    (∃ e, failure = .unlocated e ∧
        Markup.findBlocks tools.reader settings.features document = .error e) ∨
      (∃ r, failure = .refused r) ∨
      failure = .exhausted ∧ Exhausts tools settings document fileName := by
  rcases Except.bind_eq_error_iff.1 h with h | ⟨located, hlocated, h⟩
  · obtain ⟨e, he, rfl⟩ := Except.mapError_eq_error_iff.1 h
    exact .inl ⟨e, rfl, Except.map_eq_error_iff.1 he⟩
  rcases Except.bind_eq_error_iff.1 h with h | ⟨bare, hbare, h⟩
  · obtain ⟨r, -, rfl⟩ := Except.mapError_eq_error_iff.1 h
    exact .inr (.inl ⟨r, rfl⟩)
  split at h
  · rename_i hdeep
    cases h
    obtain ⟨layout, found, hlayout, rfl, -⟩ :=
      divideLocated_eq_ok_iff.1 (Except.mapError_eq_ok_iff.1 hbare)
    obtain ⟨hextract, hany⟩ := Bool.and_eq_true_iff.1 hdeep
    obtain ⟨room, hroom, hdeep⟩ := (Option.any_eq_true _ _).1 hany
    exact .inr (.inr ⟨rfl, located, layout, room, Except.mapError_eq_ok_iff.1 hlocated, hlayout,
      hextract, hroom, hdeep⟩)
  · obtain ⟨r, -, rfl⟩ := Except.mapError_eq_error_iff.1 h
    exact .inr (.inl ⟨r, rfl⟩)

/-- The error of a reader is that of the division. -/
theorem divide_eq_unlocated_iff {e : ε} :
    divide tools settings document fileName = .error (.unlocated e) ↔
      Markup.findBlocks tools.reader settings.features document = .error e := by
  constructor
  · intro h
    obtain ⟨e, heq, h⟩ | ⟨r, heq⟩ | ⟨heq, -⟩ := divide_eq_error_cases h
    · cases heq
      exact h
    · cases heq
    · cases heq
  · intro h
    refine Except.bind_eq_error_iff.2 (.inl ?_)
    exact Except.mapError_eq_error_iff.2 ⟨e, Except.map_eq_error_iff.2 h, rfl⟩

/-- The calls are the reason of a failure if they nest too deep. -/
theorem divide_eq_exhausted_iff :
    divide tools settings document fileName = .error .exhausted ↔
      Exhausts tools settings document fileName := by
  constructor
  · intro h
    obtain ⟨e, heq, -⟩ | ⟨r, heq⟩ | ⟨-, h⟩ := divide_eq_error_cases h
    · cases heq
    · cases heq
    · exact h
  · rintro ⟨located, layout, room, hlocated, hlayout, hextract, hroom, hdeep⟩
    have hbare : divideLocated tools.grammar false document located fileName
        = .ok (Report.assemble document layout fileName) :=
      divideLocated_eq_ok_iff.2 ⟨layout, [], hlayout, rfl, rfl⟩
    unfold divide
    refine Except.bind_eq_error_iff.2 (.inr ⟨located, Except.mapError_eq_ok_iff.2 hlocated, ?_⟩)
    rw [hbare, hextract, hroom]
    exact if_pos hdeep

end

namespace Command

/-! ## What is to be said -/

/-- One thing that a run can say. -/
inductive Outcome where
  | report (r : Report)
  | message (t : Text)

/-- The file at the path of the options has these bytes. -/
def Options.Stored (o : Options) (files : Files) (bytes : List UInt8) : Prop :=
  Char.ofNat 0 ∉ o.path ∧ files (Path.of o.path) = .ok bytes

section

variable {ε ν : Type} (tools : Tools ε) (formats : Formats ν) (files : Files) (o : Options)

/-- What a command line has to say about the files. -/
inductive Options.Answers : Outcome → Prop
  | unset {e : LoadError ν} (hsettings : o.settings formats files = .error e) :
    Answers (.message ("Failed to load divider config: ".toList ++ e.message formats))
  | unopened {settings : Settings} {p : OpenProblem}
      (hsettings : o.settings formats files = .ok settings)
      (hpath : Char.ofNat 0 ∉ o.path) (hfile : files (Path.of o.path) = .error p) :
    Answers (.message ("Failed to read file: ".toList ++ p.message (Path.of o.path)))
  | refused {settings : Settings} {t : Text} {r : Refusal}
      (hsettings : o.settings formats files = .ok settings) (hfile : o.Stored files (encode t))
      (hdivide : divide tools settings (unifyNewlines t) (some o.displayName)
        = .error (.refused r)) :
    Answers (.message r.message)
  | divided {settings : Settings} {t : Text} {report : Report}
      (hsettings : o.settings formats files = .ok settings) (hfile : o.Stored files (encode t))
      (hdivide : divide tools settings (unifyNewlines t) (some o.displayName) = .ok report) :
    Answers (.report report)

/-- The errors that no message is made of. -/
inductive Options.Escapes : Crash ε → Prop
  | path {settings : Settings} (hsettings : o.settings formats files = .ok settings)
      (hpath : Char.ofNat 0 ∈ o.path) : Escapes (.unread .nullCharacter)
  | bytes {settings : Settings} {bytes : List UInt8} {e : DecodeError}
      (hsettings : o.settings formats files = .ok settings) (hfile : o.Stored files bytes)
      (hbytes : ∀ t, bytes ≠ encode t) (he : decode bytes = .error e) :
    Escapes (.unread (.undecodable e))
  | reader {settings : Settings} {t : Text} {e : ε}
      (hsettings : o.settings formats files = .ok settings) (hfile : o.Stored files (encode t))
      (hblank : (unifyNewlines t).blank = false)
      (hreader : tools.reader settings.features (unifyNewlines t) = .error e) :
    Escapes (.unlocated e)
  | depth {settings : Settings} {t : Text} {located : Located} {layout : Layout} {room : Nat}
      {before after : List Fragment} {f : Fragment} {root : Node}
      (hsettings : o.settings formats files = .ok settings) (hfile : o.Stored files (encode t))
      (hlocated : Markup.locate tools.reader settings.features (unifyNewlines t) = .ok located)
      (hlayout : Layout.resolve (unifyNewlines t) located (some o.displayName) = .ok layout)
      (hextract : settings.extract = true) (hroom : tools.room = some room)
      (hmarkup : (Report.assemble (unifyNewlines t) layout (some o.displayName)).markup
        = before ++ f :: after)
      (hbefore : ∀ g ∈ before, ∃ root, parseTemplate tools.grammar g.text = .ok root)
      (hroot : parseTemplate tools.grammar f.text = .ok root)
      (hdeep : room < allCalls root.children) :
    Escapes .exhausted

end

namespace Outcome

def exitCode : Outcome → Nat
  | report _ => 0
  | message _ => 2

/-- The value that says it. -/
def value (o : Options) : Outcome → Value
  | report r => r.toValue
  | message m => .table [("error".toList, .text m), ("file".toList, .text o.path)]

/-- What says it on standard output, in plain text. -/
def plainOutput : Outcome → Text
  | report r => r.human ++ ['\n']
  | message _ => []

/-- What says it on standard error, in plain text. -/
def plainError : Outcome → Text
  | report _ => []
  | message m => "Error: ".toList ++ m ++ ['\n']

theorem plain_value (o : Options) (x : Outcome) : (x.value o).Plain := by
  cases x with
  | report r => exact r.plain_toValue
  | message m =>
    refine .table fun e he => ?_
    simp only [List.mem_cons, List.not_mem_nil, or_false] at he
    rcases he with rfl | rfl
    · exact .text _
    · exact .text _

end Outcome

/-! ## What is said -/

namespace Run

variable {ε : Type}

/-- The run says one thing and nothing else. If a value is asked for, it is the only one on
standard output. Notes on progress, if they are asked for, come first on standard error. -/
structure Says (r : Run ε) (o : Options) (x : Outcome) : Prop where
  ending : r.ending = .exit x.exitCode
  output_of_json : o.json = true → Value.ofJson r.stdout = .ok (x.value o)
  output_of_plain : o.json = false → r.stdout = x.plainOutput
  error : ∃ ns : List Note, (o.verbose = false → ns = []) ∧
    r.stderr = ns.flatMap Note.line ++ if o.json then [] else x.plainError

theorem says_failed (o : Options) (m : Text) : (failed o m : Run ε).Says o (.message m) := by
  unfold failed
  cases hjson : o.json with
  | true =>
    exact ⟨rfl, fun _ => (Outcome.plain_value o (.message m)).spells_inline.ofJson,
      fun h => absurd (hjson.symm.trans h) (by decide), [], fun _ => rfl, by rw [hjson]; rfl⟩
  | false =>
    exact ⟨rfl, fun h => absurd (hjson.symm.trans h) (by decide), fun _ => rfl, [],
      fun _ => rfl, by rw [hjson]; rfl⟩

theorem says_succeeded (o : Options) (report : Report) :
    (succeeded o report : Run ε).Says o (.report report) := by
  unfold succeeded
  cases hjson : o.json with
  | true =>
    exact ⟨rfl, fun _ => ((Outcome.plain_value o (.report report)).spells_indented 0).ofJson,
      fun h => absurd (hjson.symm.trans h) (by decide), [], fun _ => rfl, by rw [hjson]; rfl⟩
  | false =>
    exact ⟨rfl, fun h => absurd (hjson.symm.trans h) (by decide), fun _ => rfl, [],
      fun _ => rfl, by rw [hjson]; rfl⟩

/-- Notes on progress change nothing of what is said. -/
theorem Says.withNotes {r : Run ε} {o : Options} {x : Outcome} (h : r.Says o x) (ns : List Note) :
    (if o.verbose then r.withNotes ns else r).Says o x := by
  cases hverbose : o.verbose with
  | false => exact h
  | true =>
    obtain ⟨ns', -, hstderr⟩ := h.error
    refine ⟨h.ending, h.output_of_json, h.output_of_plain, ns ++ ns',
      fun hquiet => absurd (hverbose.symm.trans hquiet) (by decide), ?_⟩
    rw [List.flatMap_append, List.append_assoc, ← hstderr]
    rfl

end Run

/-! ## Files and documents -/

section

variable {ε ν : Type} {tools : Tools ε} {formats : Formats ν} {files : Files} {o : Options}
  {settings : Settings}

theorem readText_of_stored {bytes : List UInt8} (h : o.Stored files bytes) :
    files.readText o.path
      = ((decode bytes).mapError ReadError.undecodable).map unifyNewlines := by
  unfold Files.readText
  rw [if_neg (by simpa using h.1), h.2]
  dsimp only
  cases decode bytes <;> rfl

theorem readText_of_encoded {t : Text} (h : o.Stored files (encode t)) :
    files.readText o.path = .ok (unifyNewlines t) := by
  have hdecode : decode (encode t) = .ok t := decode_eq_ok_iff.2 rfl
  rw [readText_of_stored h, hdecode]
  rfl

theorem divideFile_of_encoded {t : Text} (hsettings : o.settings formats files = .ok settings)
    (hfile : o.Stored files (encode t)) :
    divideFile tools formats files o = divideDocument tools o settings (unifyNewlines t) := by
  unfold divideFile
  rw [hsettings, readText_of_encoded hfile]

/-- An error that no message is made of is where the run ends. -/
theorem Options.Escapes.ending {c : Crash ε} (h : o.Escapes tools formats files c) :
    (divideFile tools formats files o).ending = .crash c := by
  cases h with
  | path hsettings hpath =>
    unfold divideFile Files.readText
    rw [hsettings, if_pos (by simpa using hpath)]
  | bytes hsettings hfile _ he =>
    unfold divideFile
    rw [hsettings, readText_of_stored hfile, he]
    rfl
  | reader hsettings hfile hblank hreader =>
    have hblocks := Markup.findBlocks_eq_error_iff.2 ⟨hblank, hreader⟩
    rw [divideFile_of_encoded hsettings hfile]
    simp only [divideDocument, divide_eq_unlocated_iff.2 hblocks]
    split <;> rfl
  | depth hsettings hfile hlocated hlayout hextract hroom hmarkup hbefore hroot hdeep =>
    have hoverflows := overflows_iff.2 ⟨_, _, _, _, hmarkup, hbefore, hroot, hdeep⟩
    have hdivide := divide_eq_exhausted_iff.2
      ⟨_, _, _, hlocated, hlayout, hextract, hroom, hoverflows⟩
    rw [divideFile_of_encoded hsettings hfile]
    simp only [divideDocument, hdivide]
    split <;> rfl

/-- A document is answered, or the error of a reader or of the calls escapes. -/
theorem answers_or_escapes_of_encoded {t : Text}
    (hsettings : o.settings formats files = .ok settings) (hfile : o.Stored files (encode t)) :
    (∃ x, o.Answers tools formats files x ∧ (divideFile tools formats files o).Says o x) ∨
      ∃ c, o.Escapes tools formats files c := by
  rw [divideFile_of_encoded hsettings hfile]
  cases hdivide : divide tools settings (unifyNewlines t) (some o.displayName) with
  | ok report =>
    refine .inl ⟨_, .divided hsettings hfile hdivide, ?_⟩
    simp only [divideDocument, hdivide]
    exact (Run.says_succeeded o report).withNotes _
  | error failure =>
    cases failure with
    | refused r =>
      refine .inl ⟨_, .refused hsettings hfile hdivide, ?_⟩
      simp only [divideDocument, hdivide]
      exact (Run.says_failed o r.message).withNotes _
    | unlocated e =>
      obtain ⟨hblank, hreader⟩ :=
        Markup.findBlocks_eq_error_iff.1 (divide_eq_unlocated_iff.1 hdivide)
      exact .inr ⟨_, .reader hsettings hfile hblank hreader⟩
    | exhausted =>
      obtain ⟨located, layout, room, hlocated, hlayout, hextract, hroom, hoverflows⟩ :=
        divide_eq_exhausted_iff.1 hdivide
      obtain ⟨before, f, after, root, hmarkup, hbefore, hroot, hdeep⟩ :=
        overflows_iff.1 hoverflows
      exact .inr ⟨_, .depth hsettings hfile hlocated hlayout hextract hroom hmarkup hbefore hroot
        hdeep⟩

/-- A command line is answered, or an error escapes. -/
theorem answers_or_escapes (tools : Tools ε) (formats : Formats ν) (files : Files) (o : Options) :
    (∃ x, o.Answers tools formats files x ∧ (divideFile tools formats files o).Says o x) ∨
      ∃ c, o.Escapes tools formats files c := by
  cases hsettings : o.settings formats files with
  | error e =>
    refine .inl ⟨_, .unset hsettings, ?_⟩
    unfold divideFile
    rw [hsettings]
    exact Run.says_failed o _
  | ok settings =>
    by_cases hpath : Char.ofNat 0 ∈ o.path
    · exact .inr ⟨_, .path hsettings hpath⟩
    cases hopen : files (Path.of o.path) with
    | error p =>
      refine .inl ⟨_, .unopened hsettings hpath hopen, ?_⟩
      unfold divideFile Files.readText
      rw [hsettings, if_neg (by simpa using hpath), hopen]
      exact Run.says_failed o _
    | ok bytes =>
      cases hdecode : decode bytes with
      | error e =>
        refine .inr ⟨_, .bytes hsettings ⟨hpath, hopen⟩ (fun t ht => ?_) hdecode⟩
        cases hdecode.symm.trans (decode_eq_ok_iff.2 ht)
      | ok t =>
        obtain rfl := decode_eq_ok_iff.1 hdecode
        exact answers_or_escapes_of_encoded hsettings ⟨hpath, hopen⟩

/-! ## Runs -/

/-- **How a run ends.** For arguments that ask to divide a file, for all files and all readers of
markup and of settings, the run ends in a crash exactly if an error escapes: the path holds a null
character, the bytes of the file encode no text, the reader fails, or the calls that collect the
expressions of a template nest deeper than there is room for. They take two calls for each level of
the template, as `Node.calls` counts them, and no other calls nest without bound outside the
readers. If no error escapes, and only then, the run says one thing, with the exit code that
belongs to it: the report of the file, or the message why there is none. -/
theorem run_says_iff {args : List Text} (hargs : Options.read args = .ok (.divide o)) :
    (∀ c, (run tools formats files args).ending = .crash c ↔ o.Escapes tools formats files c) ∧
    ((∃ x, o.Answers tools formats files x ∧ (run tools formats files args).Says o x) ↔
      ∀ c, ¬ o.Escapes tools formats files c) := by
  have hrun : run tools formats files args = divideFile tools formats files o := by
    unfold run
    rw [hargs]
  rw [hrun]
  have hcases := answers_or_escapes tools formats files o
  refine ⟨fun c => ⟨fun hcrash => ?_, Options.Escapes.ending⟩, ?_, fun hnone => ?_⟩
  · rcases hcases with ⟨x, -, hsays⟩ | ⟨c', hescapes⟩
    · cases hcrash.symm.trans hsays.ending
    · cases hcrash.symm.trans hescapes.ending
      exact hescapes
  · rintro ⟨x, -, hsays⟩ c hescapes
    cases hsays.ending.symm.trans hescapes.ending
  · exact hcases.resolve_right fun ⟨c, hescapes⟩ => hnone c hescapes

end

/-- An expression that is left open. -/
def openExpression : Text :=
  "<p>\x7ba".toList

/-- The message about an expression that is left open is the only object on standard output. -/
theorem run_says_open_expression :
    Options.read ["--json".toList, ['c']] = .ok (.divide { path := ['c'], json := true }) ∧
    ∃ m, Options.Answers plainTools .standard (oneFile openExpression)
        { path := ['c'], json := true } (.message m) ∧
      Value.ofJson
          (run plainTools .standard (oneFile openExpression) ["--json".toList, ['c']]).stdout
        = .ok (.table [("error".toList, .text m), ("file".toList, .text ['c'])]) := by
  have hargs : Options.read ["--json".toList, ['c']]
      = .ok (.divide { path := ['c'], json := true }) := by
    decide +kernel
  have hexit : (run plainTools .standard (oneFile openExpression)
      ["--json".toList, ['c']]).ending = .exit 2 := by
    decide +kernel
  obtain ⟨hcrash, hsays⟩ :=
    @run_says_iff _ _ plainTools .standard (oneFile openExpression) _ _ hargs
  obtain ⟨x, hanswers, hsays⟩ := hsays.2 fun c hescapes => by
    cases hexit.symm.trans ((hcrash c).2 hescapes)
  cases x with
  | report r => cases hexit.symm.trans hsays.ending
  | message m => exact ⟨hargs, m, hanswers, hsays.output_of_json rfl⟩

/-- A byte that begins no character escapes, and nothing is printed. -/
theorem run_undecodable_byte :
    Options.read [['c']] = .ok (.divide { path := ['c'] }) ∧
    run plainTools .standard (.ofEntries [(['c'], .file [0xFF])]) [['c']]
      = { ending := .crash (.unread (.undecodable ⟨.invalidStart, 0xFF, 0, 1⟩)) } := by
  refine ⟨?_, ?_⟩
  · decide +kernel
  · decide +kernel

end Command

end ComponentDivision
