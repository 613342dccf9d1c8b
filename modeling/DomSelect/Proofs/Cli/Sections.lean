import DomSelect.Cli.Command
import DomSelect.Proofs.Text.JsonGrammar

/-!
# What the sections say

Each section is a text in which everything that it shows can be found: a line for each token, each
term and each match, or, in JSON, a text that stands for the list of them (`SectionText`, `Lists`).
No match is lost where the elements are looked up, as long as all nodes are elements
(`lists_matchSection`).
-/

namespace DomSelect.Cli

open Terminal

variable {tree : Tree} {nodes : List NodeId}

/-- A number in a column of this width, dimmed, and two spaces. -/
def numberColumn (width number : Nat) : String :=
  "\x1b[2m" ++ String.ofList ((toString number).toList.leftpad width ' ') ++ "\x1b[0m  "

theorem alignRight_eq (width : Nat) (text : String) :
    alignRight width text = String.ofList (text.toList.leftpad width ' ') := by
  rw [alignRight, padding, List.leftpad, String.length_toList, String.ofList_append,
    String.ofList_toList]

theorem alignLeft_eq (width : Nat) (text : String) :
    alignLeft width text = String.ofList (text.toList.rightpad width ' ') := by
  rw [alignLeft, padding, List.rightpad, String.length_toList, String.ofList_append,
    String.ofList_toList]

theorem dimmed_alignRight (width number : Nat) :
    dimmed (alignRight width (toString number)) ++ "  " = numberColumn width number := by
  rw [alignRight_eq, numberColumn, dimmed]
  apply String.toList_inj.mp
  simp [reset]

/-! ## Tokens and chains -/

/-- The text of a section: nothing unless it is wanted, and otherwise the lines below a title, or in
JSON a text that stands for the value. -/
structure SectionText (wanted json : Bool) (title : String) (lines : List String)
    (value : JsonValue) (text : String) : Prop where
  unwanted : wanted = false → text = ""
  inLines : wanted = true → json = false → text =
    "\x1b[1m=== " ++ title ++ " ===\x1b[0m\n" ++ String.join (lines.map (· ++ "\n")) ++ "\n"
  inJson : wanted = true → json = true →
    text = value.render ++ "\n" ∧ value.Written value.render.toList

theorem titled_eq (title : String) (lines : List String) : titled title lines =
    "\x1b[1m=== " ++ title ++ " ===\x1b[0m\n" ++ String.join (lines.map (· ++ "\n")) ++ "\n" := by
  have hline : line = (· ++ "\n") := rfl
  rw [titled, hline]
  apply String.toList_inj.mp
  simp [bold, reset]

theorem sectionText_ite (wanted json : Bool) (title : String) (lines : List String)
    (value : JsonValue) : SectionText wanted json title lines value
      (if wanted then if json then line value.render else titled title lines else "") where
  unwanted h := by rw [h, if_neg Bool.false_ne_true]
  inLines h hj := by rw [if_pos h, hj, if_neg Bool.false_ne_true, titled_eq]
  inJson h hj := by
    rw [if_pos h, if_pos hj]
    exact ⟨rfl, value.written_render⟩

/-- The section of the tokens: the position, the kind and the text of each. -/
def TokensShown (options : Options) (text : String) : Prop :=
  let tokens := tokenize options.selector
  SectionText options.tokens options.json "Tokens"
    (tokens.map fun token => numberColumn 4 token.position ++ "\x1b[36m" ++
      String.ofList (token.kind.name.toList.rightpad 18 ' ') ++ "\x1b[39m " ++
      Quoted.quote token.text)
    (.list (tokens.map fun token => .object [("kind", .text token.kind.name),
      ("text", .text token.text), ("position", .number token.position)])) text

/-- The section of the chain: the place and the criteria of each term. -/
def ChainShown (options : Options) (chain : Chain) (text : String) : Prop :=
  SectionText options.chain options.json "Chain"
    (chain.terms.mapIdx fun index term =>
      numberColumn 4 index ++ "\x1b[32m" ++ term.render ++ "\x1b[39m")
    (.list (chain.terms.map fun term => .object [("id", term.id.elim .null .text),
      ("element_name", term.elementName.elim .null .text),
      ("class_name", term.className.elim .null .text)])) text

theorem tokenLine_eq (token : Token) : tokenLine token =
    numberColumn 4 token.position ++ "\x1b[36m" ++
      String.ofList (token.kind.name.toList.rightpad 18 ' ') ++ "\x1b[39m " ++
      Quoted.quote token.text := by
  rw [tokenLine, dimmed_alignRight, alignLeft_eq]
  apply String.toList_inj.mp
  simp [cyan, colourEnd]

theorem termLine_eq (index : Nat) (term : Term) : termLine index term =
    numberColumn 4 index ++ "\x1b[32m" ++ term.render ++ "\x1b[39m" := by
  rw [termLine, dimmed_alignRight]
  apply String.toList_inj.mp
  simp [green, colourEnd]

theorem ofText?_eq (value : Option String) :
    JsonValue.ofText? value = value.elim .null .text := by
  cases value <;> rfl

theorem tokensShown_tokenSection (options : Options) :
    TokensShown options
      (if options.tokens then tokenSection options.json (tokenize options.selector) else "") := by
  unfold TokensShown tokenSection
  simp only [← tokenLine_eq]
  exact sectionText_ite ..

theorem chainShown_chainSection (options : Options) (chain : Chain) :
    ChainShown options chain
      (if options.chain then chainSection options.json chain else "") := by
  unfold ChainShown chainSection
  simp only [← termLine_eq, ← ofText?_eq]
  exact sectionText_ite ..

/-! ## Matches -/

/-- The section `text` shows the elements at some nodes, each once, and how many there are. -/
structure Lists (json : Bool) (tree : Tree) (nodes : List NodeId) (found : List Match)
    (text : String) : Prop where
  /-- There is a match for each node. -/
  map_node : found.map (·.node) = nodes
  /-- A match holds the element of its node. -/
  element : ∀ one ∈ found, tree.element? one.node = some one.element
  /-- The nodes come in the order of their numbers. -/
  increasing : nodes.Pairwise (· < ·)
  /-- In JSON there is an object for each match, with the node, the tag and the attributes. -/
  inJson : json = true →
    let value := JsonValue.list (found.map fun one => .object [("node", .number one.node),
      ("tag", .text one.element.tag),
      ("attributes", .list (one.element.attributes.map fun attr =>
        .object [("name", .text attr.name), ("value", .text attr.value)]))])
    text = value.render ++ "\n" ∧ value.Written value.render.toList
  /-- Otherwise there is a line for each match, and one with the number of nodes. -/
  inLines : json = false → nodes ≠ [] → text =
    String.join (found.map fun one => numberColumn 6 one.node ++ "<\x1b[36m" ++
        one.element.tag ++ "\x1b[39m" ++
        String.join (one.element.attributes.map fun attr =>
          " " ++ attr.name ++ "=\"" ++ attr.value ++ "\"") ++ ">\n") ++
      "\x1b[1m" ++ toString nodes.length ++ " match(es)\x1b[0m\n"
  /-- That there are no matches is said exactly if there are none. -/
  noMatches : json = false → (text = "\x1b[33mno matches\x1b[39m\n" ↔ nodes = [])

/-- Where the parts are separated by spaces, each but the first has one before it. -/
theorem intercalate_space (first : String) (texts : List String) :
    " ".intercalate (first :: texts) = first ++ String.join (texts.map (" " ++ ·)) := by
  induction texts generalizing first with
  | nil => simp
  | cons second texts ih =>
    rw [String.intercalate_cons_cons, ih, List.map_cons, String.join_cons]
    simp only [String.append_assoc]

theorem line_matchLine (one : Match) : line (matchLine one) =
    numberColumn 6 one.node ++ "<\x1b[36m" ++ one.element.tag ++ "\x1b[39m" ++
      String.join (one.element.attributes.map fun attr =>
        " " ++ attr.name ++ "=\"" ++ attr.value ++ "\"") ++ ">\n" := by
  have hattributes : one.element.attributes.map (fun attr => " " ++ attributeText attr) =
      one.element.attributes.map fun attr =>
        " " ++ attr.name ++ "=\"" ++ attr.value ++ "\"" := by
    simp only [attributeText, String.append_assoc]
  have hcolumn := dimmed_alignRight 6 one.node
  rw [line, matchLine, intercalate_space, List.map_map, Function.comp_def, hattributes, ← hcolumn]
  apply String.toList_inj.mp
  simp [cyan, colourEnd]

theorem line_bold_count (count : Nat) : line (bold (toString count ++ " match(es)")) =
    "\x1b[1m" ++ toString count ++ " match(es)\x1b[0m\n" := by
  apply String.toList_inj.mp
  simp [line, bold, reset]

theorem element?_of_mem_matchesAt {one : Match} (h : one ∈ matchesAt tree nodes) :
    tree.element? one.node = some one.element := by
  obtain ⟨id, -, hone⟩ := List.mem_filterMap.mp h
  obtain ⟨element, helement, rfl⟩ := Option.map_eq_some_iff.mp hone
  exact helement

/-- Where all nodes are elements none is left out. -/
theorem map_node_matchesAt (h : ∀ id ∈ nodes, ∃ element, tree.element? id = some element) :
    (matchesAt tree nodes).map (·.node) = nodes := by
  induction nodes with
  | nil => rfl
  | cons id nodes ih =>
    obtain ⟨⟨element, helement⟩, hrest⟩ := List.forall_mem_cons.mp h
    have hfirst : matchesAt tree (id :: nodes) = ⟨id, element⟩ :: matchesAt tree nodes := by
      simp [matchesAt, helement]
    rw [hfirst, List.map_cons, ih hrest]

/-- A bold line is no yellow one: they end differently. -/
theorem append_line_bold_ne (front text : String) :
    front ++ line (bold text) ≠ "\x1b[33mno matches\x1b[39m\n" := by
  intro h
  have hreverse := congrArg (fun text => text.toList.reverse) h
  simp [line, bold, reset] at hreverse

theorem lists_matchSection (json : Bool) (hord : nodes.Pairwise (· < ·))
    (helement : ∀ id ∈ nodes, ∃ element, tree.element? id = some element) :
    Lists json tree nodes (matchesAt tree nodes) (matchSection json (matchesAt tree nodes)) := by
  have hnodes := map_node_matchesAt helement
  have hlength : (matchesAt tree nodes).length = nodes.length := by
    rw [← List.length_map (·.node), hnodes]
  have hempty : (matchesAt tree nodes).isEmpty = true ↔ nodes = [] := by
    rw [List.isEmpty_iff_length_eq_zero, hlength, List.length_eq_zero_iff]
  refine ⟨hnodes, fun _ h => element?_of_mem_matchesAt h, hord, fun hj => ?_, fun hj hne => ?_,
    fun hj => ?_⟩
  · rw [matchSection, if_pos hj]
    exact ⟨rfl, JsonValue.written_render _⟩
  · rw [matchSection, hj, if_neg Bool.false_ne_true, if_neg (by rwa [hempty]), hlength,
      line_bold_count]
    simp only [line_matchLine, String.append_assoc]
  · rw [matchSection, hj, if_neg Bool.false_ne_true, ← hempty]
    split
    · next h => exact iff_of_true rfl h
    · next h => exact iff_of_false (append_line_bold_ne _ _) h

end DomSelect.Cli
