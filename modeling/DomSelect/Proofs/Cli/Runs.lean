import DomSelect.Proofs.Cli.Sections
import DomSelect.Proofs.Markup.Conversion
import DomSelect.Proofs.Query.FormLookup

/-!
# Runs of the command

What a run prints are the sections asked for, up to the stage that fails, and a message about the
failure. Whatever reads arguments, files and markup, a query reports elements only, and the nodes of
a tree made of parsed markup are numbered in tree order, so they come in the order of their numbers
(`query_ordered`). `run_reports` says how each run ends and what it prints.
-/

namespace DomSelect.Cli

variable {surroundings : Surroundings} {arguments : List String} {options : Options}
  {chain : Chain} {tree : Tree} {nodes : List NodeId} {source : Markup.SourceNode}
  {markup : String} {failure : Failure} {output : Output}

/-! ## The query -/

namespace Options

theorem query_eq_ok_iff :
    options.query tree chain = .ok nodes ↔
      options.forms = true ∧ (∃ form, tree.findForm options.selector = .ok form ∧ nodes = [form]) ∨
        options.forms = false ∧ nodes = (tree.findAllWith chain options.mode).nodes := by
  unfold query
  cases options.forms with
  | false => simp [eq_comm]
  | true =>
    cases tree.findForm options.selector with
    | ok form => simp [eq_comm]
    | error error => simp

theorem query_eq_error_iff :
    options.query tree chain = .error failure ↔
      options.forms = true ∧
        ∃ error, tree.findForm options.selector = .error error ∧ failure = .query error := by
  unfold query
  cases options.forms with
  | false => simp
  | true =>
    cases tree.findForm options.selector with
    | ok form => simp
    | error error => simp [eq_comm]

theorem exists_query_eq_ok_iff (options : Options) (tree : Tree) (chain : Chain) :
    (∃ nodes, options.query tree chain = .ok nodes) ↔
      (options.forms = true → ∃ form, tree.findForm options.selector = .ok form) := by
  simp only [query_eq_ok_iff]
  cases options.forms with
  | false => simp
  | true => simp

/-- A query of parsed markup reports elements, in the order of their numbers. -/
theorem query_ordered (hok : compileStrict options.selector = .ok chain)
    (hq : options.query (Markup.convert source).1 chain = .ok nodes) :
    nodes.Pairwise (· < ·) ∧
      ∀ id ∈ nodes, ∃ element, (Markup.convert source).1.element? id = some element := by
  obtain ⟨hw, hroot, hd⟩ := Markup.convert_numbered source
  rcases query_eq_ok_iff.mp hq with ⟨-, form, hform, rfl⟩ | ⟨-, rfl⟩
  · exact ⟨List.pairwise_singleton _ _, List.forall_mem_singleton.mpr
      (Tree.exists_element_of_findForm hw.linked hok hform)⟩
  · constructor
    · have hsub := walk_sublist_descendants hw.linked hroot chain.terms options.mode
      rw [hd] at hsub
      exact List.pairwise_lt_range.sublist hsub
    · intro id hid
      exact exists_element_of_mem_walk hid

/-! ## The document -/

/-- The document has this text: it is the one given, or else what is in the file. -/
def Gives (options : Options) (surroundings : Surroundings) (markup : String) : Prop :=
  options.html = some markup ∨
    options.html = none ∧ ∃ file, options.file = some file ∧ surroundings.textIn file = .ok markup

theorem document?_eq_none_iff {textIn : String → Except String String} :
    options.document? textIn = none ↔ options.html = none ∧ options.file = none := by
  unfold document?
  cases options.html with
  | some html => simp
  | none => cases options.file <;> simp

theorem document?_eq_ok_iff :
    options.document? surroundings.textIn = some (.ok markup) ↔
      options.Gives surroundings markup := by
  unfold document? Gives
  cases options.html with
  | some html => simp
  | none =>
    cases options.file with
    | none => simp
    | some file =>
      cases htext : surroundings.textIn file with
      | error reason => simp [htext, Except.mapError]
      | ok text => simp [htext, Except.mapError]

theorem document?_of_error {file reason : String} (hh : options.html = none)
    (hf : options.file = some file) (ht : surroundings.textIn file = .error reason) :
    options.document? surroundings.textIn = some (.error (.unreadable file reason)) := by
  rw [document?, hh, hf]
  dsimp only
  rw [ht]
  rfl

/-! ## Stages -/

/-- The section of the tokens, if it is asked for. -/
def tokenText (options : Options) : String :=
  if options.tokens then tokenSection options.json (tokenize options.selector) else ""

/-- The section of the chain, if it is asked for. -/
def chainText (options : Options) (chain : Chain) : String :=
  if options.chain then chainSection options.json chain else ""

/-- The section of the tree, if it is asked for. -/
def treeText (options : Options) (tree : Tree) : String :=
  if options.tree then "\x1b[1m=== DOM Tree ===\x1b[0m\n" ++ tree.outline Tree.root ++ "\n" else ""

theorem showIf_eq (output : Output) (wanted : Bool) (text : String) :
    output.showIf wanted text = ⟨output.stdout ++ if wanted then text else "", output.stderr⟩ := by
  unfold Output.showIf
  split
  · rfl
  · rw [String.append_empty]

/-- What is printed before the document is looked at. -/
theorem showIf_selector (options : Options) (chain : Chain) :
    (Output.empty.showIf options.tokens
        (tokenSection options.json (tokenize options.selector))).showIf options.chain
          (chainSection options.json chain) =
      ⟨options.tokenText ++ options.chainText chain, ""⟩ := by
  rw [showIf_eq, showIf_eq]
  simp only [Output.empty, String.empty_append]
  rfl

theorem showIf_tree (output : Output) (options : Options) (tree : Tree) :
    output.showIf options.tree
        (line (Terminal.bold "=== DOM Tree ===") ++ tree.outline Tree.root ++ line "") =
      ⟨output.stdout ++ options.treeText tree, output.stderr⟩ :=
  showIf_eq ..

/-- A malformed selector ends the run behind the tokens. -/
theorem evaluate_malformed {error : SyntaxError}
    (h : compileStrict options.selector = .error error) :
    options.evaluate surroundings = (Output.mk options.tokenText "").fail (.selector error) := by
  rw [evaluate, h, showIf_eq]
  simp only [Output.empty, String.empty_append]
  rfl

/-- Without a document the run ends behind the chain. -/
theorem evaluate_without_document (hok : compileStrict options.selector = .ok chain)
    (h : options.document? surroundings.textIn = none) :
    options.evaluate surroundings =
      let output := Output.mk (options.tokenText ++ options.chainText chain) ""
      if options.tokens || options.chain then output.succeed else output.fail .noDocument := by
  rw [evaluate, hok, h]
  simp only [showIf_selector]

theorem evaluate_unreadable (hok : compileStrict options.selector = .ok chain)
    (h : options.document? surroundings.textIn = some (.error failure)) :
    options.evaluate surroundings =
      (Output.mk (options.tokenText ++ options.chainText chain) "").fail failure := by
  rw [evaluate, hok, h]
  simp only [showIf_selector]

/-- With a document the run goes on to the query. -/
theorem evaluate_document (hok : compileStrict options.selector = .ok chain)
    (h : options.document? surroundings.textIn = some (.ok markup)) :
    options.evaluate surroundings = options.evaluateIn chain
      ⟨options.tokenText ++ options.chainText chain, ""⟩ (surroundings.readMarkup markup) := by
  rw [evaluate, hok, h]
  simp only [showIf_selector]

theorem evaluateIn_of_error
    (hq : options.query (Markup.convert source).1 chain = .error failure) :
    options.evaluateIn chain output source =
      (Output.mk (output.stdout ++ options.treeText (Markup.convert source).1)
        (output.warn (Markup.convert source).2).stderr).fail failure := by
  unfold evaluateIn
  simp only [hq, showIf_tree]
  rfl

theorem evaluateIn_of_ok (hq : options.query (Markup.convert source).1 chain = .ok nodes) :
    options.evaluateIn chain output source =
      (Output.mk (output.stdout ++ options.treeText (Markup.convert source).1 ++
          matchSection options.json (matchesAt (Markup.convert source).1 nodes))
        (output.warn (Markup.convert source).2).stderr).succeed := by
  unfold evaluateIn
  simp only [hq, showIf_tree, showIf_eq _ true]
  rfl

end Options

/-! ## Messages -/

theorem errorLine_selector (quoted offset expected : String) :
    "Error: " ++ ("invalid selector " ++ quoted ++ " at byte " ++ offset ++ ": " ++ expected) ++
        "\n" =
      "Error: invalid selector " ++ quoted ++ " at byte " ++ offset ++ ": " ++ expected ++
        "\n" := by
  apply String.toList_inj.mp
  simp

theorem errorLine_unreadable (file reason : String) :
    "Error: " ++ ("failed to read " ++ file ++ "\n\nCaused by:\n    " ++ reason) ++ "\n" =
      "Error: failed to read " ++ file ++ "\n\nCaused by:\n    " ++ reason ++ "\n" := by
  apply String.toList_inj.mp
  simp

theorem errorLine_formNotFound (warnings quoted : String) :
    warnings ++ "Error: " ++ ("no form matches selector " ++ quoted) ++ "\n" =
      warnings ++ "Error: no form matches selector " ++ quoted ++ "\n" := by
  apply String.toList_inj.mp
  simp

/-- Where nothing was printed before, the message stands alone. -/
theorem fail_mk (shown : String) (failure : Failure) :
    (Output.mk shown "").fail failure = ⟨1, shown, "Error: " ++ failure.message ++ "\n"⟩ := by
  rw [Output.fail, String.empty_append]

/-! ## Warnings -/

/-- The line about dropped documents, if there are any. -/
def warningText (source : Markup.SourceNode) : String :=
  if (Markup.convert source).2 = [] then ""
  else "\x1b[33m[Mechanize HTML] warning: nested document node dropped during conversion\x1b[0m\n"

/-- However many documents are dropped, one line says so. -/
theorem warnAll_convert (source : Markup.SourceNode) :
    (WarningLog.empty.warnAll (Markup.convert source).2).2 = warningText source := by
  unfold warningText
  have hall : ∀ warning ∈ (Markup.convert source).2, warning = Markup.nestedDropped :=
    fun _ => Markup.eq_nestedDropped_of_mem
  generalize (Markup.convert source).2 = warnings at hall
  cases warnings with
  | nil => rfl
  | cons first rest =>
    obtain ⟨rfl, hrest⟩ := List.forall_mem_cons.mp hall
    have hshown : ∀ warning ∈ rest, (WarningLog.mk [Markup.nestedDropped.label]).has warning = true
      | warning, hw => by
        rw [hrest warning hw]
        exact List.contains_iff_mem.mpr List.mem_cons_self
    have hwarn : WarningLog.empty.warn Markup.nestedDropped =
      (⟨[Markup.nestedDropped.label]⟩, Markup.nestedDropped.line) := rfl
    rw [if_neg (List.cons_ne_nil _ _), WarningLog.warnAll, hwarn]
    dsimp only
    rw [WarningLog.warnAll_of_shown hshown]
    rfl

/-! ## Whole runs -/

/-- Where a run ends well. -/
theorem code_evaluate_eq_zero_iff :
    (options.evaluate surroundings).code = 0 ↔
      ∃ chain, compileStrict options.selector = .ok chain ∧
        (options.document? surroundings.textIn = none ∧
            (options.tokens = true ∨ options.chain = true) ∨
          ∃ markup, options.document? surroundings.textIn = some (.ok markup) ∧
            (options.forms = true → ∃ form,
              (Markup.convert (surroundings.readMarkup markup)).1.findForm options.selector =
                .ok form)) := by
  cases hok : compileStrict options.selector with
  | error error =>
    rw [Options.evaluate_malformed hok]
    exact iff_of_false nofun fun ⟨_, hc, _⟩ => by cases hc
  | ok chain =>
    simp only [Except.ok.injEq, exists_eq_left']
    cases hdoc : options.document? surroundings.textIn with
    | none =>
      rw [Options.evaluate_without_document hok hdoc, ← Bool.or_eq_true]
      split
      · next hshown => exact iff_of_true rfl (.inl ⟨rfl, hshown⟩)
      · next hshown =>
        refine iff_of_false nofun ?_
        rintro (⟨-, hs⟩ | ⟨markup, hm, -⟩)
        · exact hshown hs
        · cases hm
    | some read? =>
      cases read? with
      | error failure =>
        rw [Options.evaluate_unreadable hok hdoc]
        exact iff_of_false nofun (by simp)
      | ok markup =>
        rw [Options.evaluate_document hok hdoc]
        simp only [reduceCtorEq, false_and, false_or, Option.some.injEq, Except.ok.injEq,
          exists_eq_left', ← Options.exists_query_eq_ok_iff options _ chain]
        cases hq : options.query (Markup.convert (surroundings.readMarkup markup)).1 chain with
        | error failure =>
          rw [Options.evaluateIn_of_error hq]
          exact iff_of_false nofun nofun
        | ok nodes =>
          rw [Options.evaluateIn_of_ok hq]
          exact iff_of_true rfl ⟨nodes, rfl⟩

theorem evaluate_lists (hok : compileStrict options.selector = .ok chain)
    (hdoc : options.Gives surroundings markup)
    (hq : options.query (Markup.convert (surroundings.readMarkup markup)).1 chain = .ok nodes) :
    let source := surroundings.readMarkup markup
    let tree := (Markup.convert source).1
    ∃ found text, Lists options.json tree nodes found text ∧
      options.evaluate surroundings =
        ⟨0, options.tokenText ++ options.chainText chain ++ options.treeText tree ++ text,
          warningText source⟩ := by
  intro source tree
  obtain ⟨hord, helement⟩ := Options.query_ordered hok hq
  refine ⟨_, _, lists_matchSection options.json hord helement, ?_⟩
  rw [Options.evaluate_document hok (Options.document?_eq_ok_iff.mpr hdoc),
    Options.evaluateIn_of_ok hq, Output.warn, warnAll_convert, String.empty_append]
  rfl

/-- A lookup of a form fails by finding none, behind the tree. -/
theorem evaluate_of_findForm (hok : compileStrict options.selector = .ok chain)
    (hdoc : options.Gives surroundings markup) (hforms : options.forms = true)
    {error : QueryError}
    (herror : (Markup.convert (surroundings.readMarkup markup)).1.findForm options.selector =
      .error error) :
    let source := surroundings.readMarkup markup
    options.evaluate surroundings =
      ⟨1, options.tokenText ++ options.chainText chain ++
          options.treeText (Markup.convert source).1,
        warningText source ++ "Error: no form matches selector " ++
          Quoted.quote options.selector ++ "\n"⟩ := by
  intro source
  have hlinked := (Markup.convert_numbered source).1.linked
  obtain rfl := Tree.eq_formNotFound_of_findForm hlinked hok herror
  have hq : options.query (Markup.convert source).1 chain =
      .error (.query (.formNotFound options.selector)) :=
    Options.query_eq_error_iff.mpr ⟨hforms, _, herror, rfl⟩
  rw [Options.evaluate_document hok (Options.document?_eq_ok_iff.mpr hdoc),
    Options.evaluateIn_of_error hq, Output.warn, warnAll_convert, String.empty_append,
    ← errorLine_formNotFound]
  rfl

/-- **Runs of the command.** Whatever reads the arguments, the files and the markup: a run ends well
exactly if the selector is well-formed and either there is no document, but a section about the
selector to show, or the document can be read and the form, if one is looked for, is found. A run
that fails has printed the sections asked for up to the stage that failed: the selector, the
document or the lookup of a form, which can only find none. A run with a document that ends well has
printed these sections and has listed what the query reports. -/
theorem run_reports (h : surroundings.readArguments arguments = .ok options) :
    ((run surroundings arguments).code = 0 ↔
      ∃ chain, compileStrict options.selector = .ok chain ∧
        ((options.html = none ∧ options.file = none) ∧
            (options.tokens = true ∨ options.chain = true) ∨
          ∃ markup, options.Gives surroundings markup ∧ (options.forms = true → ∃ form,
            (Markup.convert (surroundings.readMarkup markup)).1.findForm options.selector =
              .ok form))) ∧
    ∃ tokenText, TokensShown options tokenText ∧
      (∀ error, compileStrict options.selector = .error error →
        run surroundings arguments =
          ⟨1, tokenText, "Error: invalid selector " ++ Quoted.quote options.selector ++
            " at byte " ++ toString error.offset ++ ": " ++ error.expected ++ "\n"⟩) ∧
      ∀ chain, compileStrict options.selector = .ok chain →
        ∃ chainText, ChainShown options chain chainText ∧
          (options.html = none → options.file = none → run surroundings arguments =
            if options.tokens || options.chain then ⟨0, tokenText ++ chainText, ""⟩
            else ⟨1, "", "Error: Querying requires a file path or --html\n"⟩) ∧
          (∀ file reason, options.html = none → options.file = some file →
            surroundings.textIn file = .error reason → run surroundings arguments =
              ⟨1, tokenText ++ chainText,
                "Error: failed to read " ++ file ++ "\n\nCaused by:\n    " ++ reason ++ "\n"⟩) ∧
          ∀ markup, options.Gives surroundings markup →
            let source := surroundings.readMarkup markup
            let tree := (Markup.convert source).1
            let shown := tokenText ++ chainText ++ options.treeText tree
            (options.forms = true →
              (∀ form, tree.findForm options.selector = .ok form →
                ∃ found text, Lists options.json tree [form] found text ∧
                  run surroundings arguments = ⟨0, shown ++ text, warningText source⟩) ∧
              ∀ error, tree.findForm options.selector = .error error →
                run surroundings arguments =
                  ⟨1, shown, warningText source ++ "Error: no form matches selector " ++
                    Quoted.quote options.selector ++ "\n"⟩) ∧
            (options.forms = false →
              let mode := if options.strict then .strict else .inclusive
              ∃ found text,
                Lists options.json tree (tree.findAllWith chain mode).nodes found text ∧
                run surroundings arguments = ⟨0, shown ++ text, warningText source⟩) := by
  have hrun : run surroundings arguments = options.evaluate surroundings := by
    rw [run, h]
  rw [hrun]
  refine ⟨?_, options.tokenText, tokensShown_tokenSection options, fun error herror => ?_,
    fun chain hok => ⟨options.chainText chain, chainShown_chainSection options chain,
      fun hh hf => ?_, fun file reason hh hf ht => ?_, fun markup hdoc => ⟨fun hforms =>
        ⟨fun form hform => ?_, fun error herror => evaluate_of_findForm hok hdoc hforms herror⟩,
      fun hforms => ?_⟩⟩⟩
  · simp only [code_evaluate_eq_zero_iff, Options.document?_eq_none_iff,
      Options.document?_eq_ok_iff]
  · rw [Options.evaluate_malformed herror, fail_mk, ← (error_of_compileStrict herror).2,
      ← errorLine_selector]
    rfl
  · rw [Options.evaluate_without_document hok (Options.document?_eq_none_iff.mpr ⟨hh, hf⟩)]
    dsimp only
    split
    · rfl
    · next hnone =>
      simp only [Bool.or_eq_true, not_or, Bool.not_eq_true] at hnone
      simp only [Options.tokenText, Options.chainText, hnone]
      rfl
  · rw [Options.evaluate_unreadable hok (Options.document?_of_error hh hf ht), fail_mk,
      ← errorLine_unreadable]
    rfl
  · exact evaluate_lists hok hdoc
      (Options.query_eq_ok_iff.mpr (.inl ⟨hforms, form, hform, rfl⟩))
  · exact evaluate_lists hok hdoc (Options.query_eq_ok_iff.mpr (.inr ⟨hforms, rfl⟩))

/-- A form with two paragraphs, in the document that browsers make of it. -/
def paragraphs : Markup.SourceNode :=
  .document [.element ⟨"html", []⟩ [.element ⟨"head", []⟩ [], .element ⟨"body", []⟩
    [.element ⟨"form", []⟩ [.element ⟨"p", [⟨"id", "a"⟩]⟩ [.text "one"],
      .element ⟨"p", []⟩ [.text "two"]]]]]

/-- Where these options are asked for, and the markup is that of the form. -/
def aroundParagraphs (options : Options) : Surroundings where
  readArguments _ := .ok options
  textIn _ := .error "No such file or directory (os error 2)"
  readMarkup _ := paragraphs

/-- The form is asked for paragraphs, behind the three sections. -/
theorem run_reports_paragraphs :
    let options : Options :=
      ⟨"p", none, some "<form><p id=a>one<p>two</form>", true, false, true, true, false, true⟩
    let arguments := ["--strict", "--tokens", "--chain", "--tree", "p",
      "--html=<form><p id=a>one<p>two</form>"]
    let outcome := run (aroundParagraphs options) arguments
    (aroundParagraphs options).readArguments arguments = .ok options ∧
      (∃ shown found text, Lists false (Markup.convert paragraphs).1 [5, 7] found text ∧
        outcome = ⟨0, shown ++ text, ""⟩) ∧
      outcome = ⟨0,
        "\x1b[1m=== Tokens ===\x1b[0m\n" ++
        "\x1b[2m   0\x1b[0m  \x1b[36mElementName       \x1b[39m \"p\"\n" ++
        "\x1b[2m   1\x1b[0m  \x1b[36mEndOfInput        \x1b[39m \"\"\n\n" ++
        "\x1b[1m=== Chain ===\x1b[0m\n\x1b[2m   0\x1b[0m  \x1b[32mp\x1b[39m\n\n" ++
        "\x1b[1m=== DOM Tree ===\x1b[0m\nDocument\n  <html>\n    <head>\n    <body>\n" ++
        "      <form>\n        <p id=\"a\">\n          \"one\"\n        <p>\n" ++
        "          \"two\"\n\n" ++
        "\x1b[2m     5\x1b[0m  <\x1b[36mp\x1b[39m id=\"a\">\n" ++
        "\x1b[2m     7\x1b[0m  <\x1b[36mp\x1b[39m>\n\x1b[1m2 match(es)\x1b[0m\n", ""⟩ := by
  intro options arguments outcome
  have harguments : (aroundParagraphs options).readArguments arguments = .ok options := rfl
  have hok : compileStrict "p" = .ok ⟨[.ofName "p"]⟩ := rfl
  have hdoc : options.Gives (aroundParagraphs options) "<form><p id=a>one<p>two</form>" := .inl rfl
  have hnodes : ((Markup.convert paragraphs).1.findAllWith ⟨[.ofName "p"]⟩ .strict).nodes =
      [5, 7] := by
    decide +kernel
  obtain ⟨-, tokenText, -, -, hchain⟩ := run_reports harguments
  obtain ⟨chainText, -, -, -, hstages⟩ := hchain _ hok
  obtain ⟨found, text, hlists, hrun⟩ := (hstages _ hdoc).2 rfl
  refine ⟨harguments, ⟨_, found, text, ?_, hrun⟩, by decide +kernel⟩
  rw [← hnodes]
  exact hlists

-- The same matches in JSON.
example :
    let options : Options :=
      ⟨"p", none, some "<form><p id=a>one<p>two</form>", true, true, false, false, false, false⟩
    run (aroundParagraphs options) ["--strict", "--json", "p"] = ⟨0,
      "[\n  \x7b\n    \"node\": 5,\n    \"tag\": \"p\",\n    \"attributes\": [\n      \x7b\n" ++
      "        \"name\": \"id\",\n        \"value\": \"a\"\n      \x7d\n    ]\n  \x7d,\n" ++
      "  \x7b\n    \"node\": 7,\n    \"tag\": \"p\",\n    \"attributes\": []\n  \x7d\n]\n",
      ""⟩ := by
  decide +kernel

end DomSelect.Cli
