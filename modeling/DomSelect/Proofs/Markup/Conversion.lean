import DomSelect.Markup.Convert
import DomSelect.Proofs.Tree.Growth
import DomSelect.Proofs.Tree.Links
import Mathlib.Data.Nat.Bitwise

/-!
# Conversion keeps the shape of the markup

`pruneAll` is what is to be kept of parsed markup: elements, texts and comments, as far as no node
above them is dropped. The conversion meets the nodes in a row and knows the shape only through the
names of their holders. Below a recorded holder a list of nodes makes the tree grow by what is kept
of it (`converts`), and below any other holder it changes nothing
(`foldl_visitsAll_of_unrecorded`).
-/

namespace DomSelect.Markup

variable {name : Nat → Nat} {content : SourceContent} {kept : Content}
  {nodes children rest : List SourceNode} {node : SourceNode}

/-! ## What is kept -/

/-- What a node is in the tree, `none` if it is dropped. -/
def SourceContent.kept? : SourceContent → Option Content
  | .element data => some (.element data)
  | .text data => some (.text data)
  | .comment data => some (.comment data)
  | .doctype | .instruction | .document => none

mutual

/-- What is kept of a node and of all below it. With a node all below it is dropped. -/
def prune : SourceNode → List (Rose Content)
  | .node content children =>
    match content.kept? with
    | some kept => [.node kept (pruneAll children)]
    | none => []

/-- What is kept of some nodes and of all below them. -/
def pruneAll : List SourceNode → List (Rose Content)
  | [] => []
  | node :: rest => prune node ++ pruneAll rest

end

theorem pruneAll_kept (h : content.kept? = some kept) :
    pruneAll (.node content children :: rest) =
      .node kept (pruneAll children) :: pruneAll rest := by
  rw [pruneAll, prune, h]
  rfl

theorem pruneAll_dropped (h : content.kept? = none) :
    pruneAll (.node content children :: rest) = pruneAll rest := by
  rw [pruneAll, prune, h]
  rfl

/-- The node is one of the top or hangs from a node that is kept. -/
inductive HangsFromKept (nodes : List SourceNode) : SourceNode → Prop
  | top {node : SourceNode} (h : node ∈ nodes) : HangsFromKept nodes node
  | held {content : SourceContent} {kept : Content} {children : List SourceNode}
      {node : SourceNode} (h : HangsFromKept nodes (.node content children))
      (hk : content.kept? = some kept) (hn : node ∈ children) : HangsFromKept nodes node

namespace HangsFromKept

theorem not_nil : ¬ HangsFromKept [] node := by
  intro h
  induction h with
  | top h => cases h
  | held _ _ _ ih => exact ih

theorem later (h : HangsFromKept rest node) (first : SourceNode) :
    HangsFromKept (first :: rest) node := by
  induction h with
  | top h => exact .top (List.mem_cons_of_mem _ h)
  | held _ hk hn ih => exact .held ih hk hn

theorem inside (h : HangsFromKept children node) (hk : content.kept? = some kept)
    (rest : List SourceNode) : HangsFromKept (.node content children :: rest) node := by
  induction h with
  | top h => exact .held (.top List.mem_cons_self) hk h
  | held _ hk' hn ih => exact .held ih hk' hn

theorem cases_cons (h : HangsFromKept (.node content children :: rest) node) :
    node = .node content children ∨
      content.kept?.isSome = true ∧ HangsFromKept children node ∨ HangsFromKept rest node := by
  induction h with
  | top h =>
    rcases List.mem_cons.mp h with rfl | h
    · exact .inl rfl
    · exact .inr (.inr (.top h))
  | held _ hk hn ih =>
    rcases ih with he | ⟨hsome, hin⟩ | hlater
    · cases he
      exact .inr (.inl ⟨by rw [hk]; rfl, .top hn⟩)
    · exact .inr (.inl ⟨hsome, .held hin hk hn⟩)
    · exact .inr (.inr (.held hlater hk hn))

end HangsFromKept

/-- A nested document hangs from the top or from a node that is kept. -/
def DropsDocument (nodes : List SourceNode) : Prop :=
  ∃ children, HangsFromKept nodes (.document children)

theorem not_dropsDocument_nil : ¬ DropsDocument [] :=
  fun ⟨_, h⟩ => h.not_nil

theorem dropsDocument_kept (hk : content.kept? = some kept) :
    DropsDocument (.node content children :: rest) ↔
      DropsDocument children ∨ DropsDocument rest := by
  constructor
  · rintro ⟨below, h⟩
    rcases h.cases_cons with he | ⟨_, h⟩ | h
    · cases he
      cases hk
    · exact .inl ⟨below, h⟩
    · exact .inr ⟨below, h⟩
  · rintro (⟨below, h⟩ | ⟨below, h⟩)
    · exact ⟨below, h.inside hk rest⟩
    · exact ⟨below, h.later _⟩

theorem dropsDocument_dropped (hk : content.kept? = none) :
    DropsDocument (.node content children :: rest) ↔
      content = .document ∨ DropsDocument rest := by
  constructor
  · rintro ⟨below, h⟩
    rcases h.cases_cons with he | ⟨hsome, _⟩ | h
    · cases he
      exact .inl rfl
    · rw [hk] at hsome
      cases hsome
    · exact .inr ⟨below, h⟩
  · rintro (rfl | ⟨below, h⟩)
    · exact ⟨children, .top List.mem_cons_self⟩
    · exact ⟨below, h.later _⟩

namespace Conversion

variable {conversion middle after : Conversion} {visit : Visit} {holder start stop met : Nat}
  {parent : NodeId}

/-! ## One node -/

theorem meet_of_unrecorded (hv : visit.holder = some holder)
    (h : conversion.made.lookup holder = none) : conversion.meet visit = conversion := by
  rw [meet, hv]
  dsimp only
  rw [h]

theorem meet_kept (n : Nat) (h : conversion.made.lookup holder = some parent)
    (hk : content.kept? = some kept) :
    conversion.meet ⟨n, some holder, content⟩ = conversion.add n parent kept := by
  rw [meet]
  dsimp only
  rw [h]
  cases content <;> cases hk <;> rfl

/-- Of what is dropped below a recorded node, only a document leaves a trace. -/
theorem meet_dropped (n : Nat) (h : conversion.made.lookup holder = some parent)
    (hk : content.kept? = none) :
    ∃ warnings, conversion.meet ⟨n, some holder, content⟩ = { conversion with warnings } ∧
      (nestedDropped ∈ warnings ↔ nestedDropped ∈ conversion.warnings ∨ content = .document) := by
  rw [meet]
  dsimp only
  rw [h]
  cases content with
  | element data | text data | comment data => cases hk
  | doctype | instruction => exact ⟨conversion.warnings, rfl, by simp⟩
  | document => exact ⟨_, rfl, by simp⟩

theorem warnings_meet (conversion : Conversion) (visit : Visit) :
    (conversion.meet visit).warnings = conversion.warnings ∨
      (conversion.meet visit).warnings = conversion.warnings ++ [nestedDropped] := by
  obtain ⟨n, holder?, content⟩ := visit
  cases holder? with
  | none => exact .inl rfl
  | some holder =>
    cases h : conversion.made.lookup holder with
    | none => exact .inl (congrArg warnings (meet_of_unrecorded rfl h))
    | some parent =>
      rw [meet]
      dsimp only
      rw [h]
      cases content with
      | document => exact .inr rfl
      | element data | text data | comment data | doctype | instruction => exact .inl rfl

/-! ## Names to come -/

/-- Nothing is recorded for the nodes from the `met`th one on. -/
def Unmet (name : Nat → Nat) (met : Nat) (conversion : Conversion) : Prop :=
  ∀ k, met ≤ k → conversion.made.lookup (name k) = none

theorem Unmet.mono (h : conversion.Unmet name start) (hle : start ≤ stop) :
    conversion.Unmet name stop := fun k hk => h k (hle.trans hk)

@[simp] theorem lookup_add_self (conversion : Conversion) (n : Nat) (parent : NodeId)
    (content : Content) :
    (conversion.add n parent content).made.lookup n = some conversion.tree.size := by
  rw [add, List.lookup_cons_self]

theorem lookup_add_of_ne {n other : Nat} (h : other ≠ n) (conversion : Conversion)
    (parent : NodeId) (content : Content) :
    (conversion.add n parent content).made.lookup other = conversion.made.lookup other := by
  rw [add, List.lookup_cons, beq_false_of_ne h]

@[simp] theorem size_add (conversion : Conversion) (n : Nat) (parent : NodeId) (content : Content) :
    (conversion.add n parent content).tree.size = conversion.tree.size + 1 :=
  Tree.size_addChild ..

theorem Unmet.add (hname : Function.Injective name) (h : conversion.Unmet name met)
    (parent : NodeId) (content : Content) :
    (conversion.add (name met) parent content).Unmet name (met + 1) := by
  intro k hk
  rw [lookup_add_of_ne (hname.ne (by omega)), h k (by omega)]

/-- Nothing comes of the nodes whose holder is not recorded. -/
theorem foldl_visitsAll_of_unrecorded (nodes : List SourceNode)
    (h : conversion.made.lookup holder = none) (hu : conversion.Unmet name met) :
    (visitsAll name (some holder) met nodes).foldl meet conversion = conversion := by
  induction nodes using Rose.forestInduction generalizing holder met with
  | nil => rfl
  | cons content children rest ihchildren ihrest =>
    rw [visitsAll_cons, List.foldl_cons, meet_of_unrecorded rfl h, List.foldl_append,
      ihchildren (hu met (Nat.le_refl _)) (hu.mono (by omega)), ihrest h (hu.mono (by omega))]

/-! ## Many nodes -/

/-- What the nodes do that hang from the one that became `parent`, the first of them being the
`start`th node met and `stop` nodes being met behind them. -/
structure Converts (name : Nat → Nat) (start stop : Nat) (parent : NodeId)
    (nodes : List SourceNode) (before after : Conversion) : Prop where
  grows : before.tree.Grows parent (pruneAll nodes) after.tree
  unmet : after.Unmet name stop
  made : ∀ k < start, after.made.lookup (name k) = before.made.lookup (name k)
  warned : nestedDropped ∈ after.warnings ↔
    nestedDropped ∈ before.warnings ∨ DropsDocument nodes

theorem Converts.cons_kept (hname : Function.Injective name) (hk : content.kept? = some kept)
    (hp : parent < conversion.tree.size)
    (hbelow : Converts name (start + 1) met conversion.tree.size children
      (conversion.add (name start) parent kept) middle)
    (hrest : Converts name met stop parent rest middle after) (hle : start < met) :
    Converts name start stop parent (.node content children :: rest) conversion after where
  grows := by
    rw [pruneAll_kept hk]
    exact .cons hp hbelow.grows hrest.grows
  unmet := hrest.unmet
  made k hlt := by
    rw [hrest.made k (hlt.trans hle), hbelow.made k (Nat.lt_succ_of_lt hlt),
      lookup_add_of_ne (hname.ne (Nat.ne_of_lt hlt))]
  warned := by
    rw [hrest.warned, hbelow.warned, dropsDocument_kept hk, or_assoc]
    rfl

theorem Converts.cons_dropped {warnings : List Warning} (hk : content.kept? = none)
    (hw : nestedDropped ∈ warnings ↔ nestedDropped ∈ conversion.warnings ∨ content = .document)
    (hrest : Converts name met stop parent rest { conversion with warnings } after)
    (hle : start < met) :
    Converts name start stop parent (.node content children :: rest) conversion after where
  grows := by
    rw [pruneAll_dropped hk]
    exact hrest.grows
  unmet := hrest.unmet
  made k hlt := hrest.made k (hlt.trans hle)
  warned := by rw [hrest.warned, hw, dropsDocument_dropped hk, or_assoc]

/-- By induction on the nodes, the names of those to come being unrecorded at each step. -/
theorem converts (hname : Function.Injective name) (nodes : List SourceNode) {above : Nat}
    (ha : above < met) (h : conversion.made.lookup (name above) = some parent)
    (hp : parent < conversion.tree.size) (hu : conversion.Unmet name met) :
    Converts name met (met + (visitsAll name (some (name above)) met nodes).length) parent nodes
      conversion ((visitsAll name (some (name above)) met nodes).foldl meet conversion) := by
  induction nodes using Rose.forestInduction generalizing conversion above parent met with
  | nil =>
    refine ⟨.nil _ _, hu, fun _ _ => rfl, ?_⟩
    exact (or_iff_left not_dropsDocument_nil).symm
  | cons content children rest ihchildren ihrest =>
    rw [visitsAll_cons, List.foldl_cons, List.foldl_append, List.length_cons, List.length_append]
    generalize hlength : (visitsAll name (some (name met)) (met + 1) children).length = length
    have hstop : ∀ last, met + (length + last + 1) = met + 1 + length + last := by omega
    -- the first node and all below it are met before the other nodes
    have hlt : met < met + 1 + length := by omega
    have habove : above < met + 1 + length := ha.trans hlt
    rw [hstop]
    cases hk : content.kept? with
    | none =>
      -- nothing is recorded for the node, so nothing comes of what it holds
      obtain ⟨warnings, hmeet, hw⟩ := meet_dropped (name met) h hk
      have hskip : (visitsAll name (some (name met)) (met + 1) children).foldl meet
          { conversion with warnings } = { conversion with warnings } :=
        foldl_visitsAll_of_unrecorded children (hu met (Nat.le_refl _))
          (hu.mono (Nat.le_add_right ..))
      rw [hmeet, hskip]
      exact .cons_dropped hk hw (ihrest habove h hp (hu.mono hlt.le)) hlt
    | some kept =>
      rw [meet_kept (name met) h hk]
      have hbelow := ihchildren (Nat.lt_add_one met)
        (lookup_add_self conversion (name met) parent kept)
        (by rw [size_add]; exact Nat.lt_succ_self _) (hu.add hname parent kept)
      rw [hlength] at hbelow
      refine .cons_kept hname hk hp hbelow (ihrest habove ?_ ?_ hbelow.unmet) hlt
      · -- the holder of the node is still recorded
        rw [hbelow.made above (Nat.lt_add_right 1 ha),
          lookup_add_of_ne (hname.ne (Nat.ne_of_lt ha)), h]
      · have hsize := hbelow.grows.size_le
        rw [size_add] at hsize
        exact Nat.lt_of_lt_of_le (Nat.lt_add_right 1 hp) hsize

end Conversion

/-! ## The whole conversion -/

/-- What the node at the top is does not matter. -/
theorem grows_convertNamed (hname : Function.Injective name) (content : SourceContent)
    (nodes : List SourceNode) :
    Tree.Grows Tree.initial Tree.root (pruneAll nodes) (convertNamed name (.node content nodes)).1 ∧
      (nestedDropped ∈ (convertNamed name (.node content nodes)).2 ↔ DropsDocument nodes) := by
  have hu : Conversion.Unmet name 1 ⟨Tree.initial, [(name 0, Tree.root)], []⟩ := by
    intro k hk
    rw [List.lookup_cons, beq_false_of_ne (hname.ne (by omega))]
    rfl
  have h := Conversion.converts hname nodes Nat.zero_lt_one List.lookup_cons_self
    Nat.zero_lt_one hu
  exact ⟨h.grows, h.warned.trans (or_iff_right List.not_mem_nil)⟩

/-- The tree of parsed markup has a disciplined history, and its nodes are numbered in tree
order. -/
theorem convert_numbered (source : SourceNode) :
    let tree := (convert source).1
    tree.WellBuilt ∧ Tree.root < tree.size ∧
      tree.descendants Tree.root = List.range tree.size := by
  intro tree
  obtain ⟨content, nodes⟩ := source
  have hgrows := (grows_convertNamed Function.injective_id content nodes).1
  exact ⟨hgrows.wellBuilt .initial, hgrows.size_le, hgrows.descendants_document⟩

/-- Nothing else is warned about. -/
theorem eq_nestedDropped_of_mem {source : SourceNode} {warning : Warning}
    (h : warning ∈ (convert source).2) : warning = nestedDropped := by
  have hall : ∀ (met : List Visit) (conversion : Conversion),
      (∀ one ∈ conversion.warnings, one = nestedDropped) →
      ∀ one ∈ (met.foldl Conversion.meet conversion).warnings, one = nestedDropped := by
    intro met
    induction met with
    | nil => exact fun _ hc => hc
    | cons visit met ih =>
      intro conversion hc
      refine ih (conversion.meet visit) ?_
      rcases Conversion.warnings_meet conversion visit with hw | hw
      · rwa [hw]
      · rw [hw]
        exact List.forall_mem_append.mpr ⟨hc, List.forall_mem_singleton.mpr rfl⟩
  exact hall _ .start (List.forall_mem_nil _) warning h

/-- **Conversion is faithful.** Whatever names the nodes of a document have, as long as they are
different ones, the tree made of it shows the document with what is kept below it and nothing else,
by its lists of children as well as from first children along next siblings. Its nodes are numbered
in tree order, each after its parent. There is a warning exactly if a nested document hangs from a
node that is kept, the document itself being one. -/
theorem convertNamed_faithful (hname : Function.Injective name) (nodes : List SourceNode) :
    let tree := (convertNamed name (.document nodes)).1
    let warnings := (convertNamed name (.document nodes)).2
    ((∀ shown, tree.Shows (fun node children => tree.children node = children) [Tree.root] shown ↔
        shown = [.node .document (pruneAll nodes)]) ∧
      ∀ shown, tree.Shows (fun node children =>
          Tree.LeadsThrough tree.nextSibling? (tree.firstChild? node) children)
          [Tree.root] shown ↔
        shown = [.node .document (pruneAll nodes)]) ∧
    (tree.descendants Tree.root = List.range tree.size ∧
      ∀ id : Nat, 0 < id → id < tree.size → ∃ parent < id, tree.parent? id = some parent) ∧
    (nestedDropped ∈ warnings ↔ ∃ children, HangsFromKept nodes (.document children)) := by
  intro tree warnings
  obtain ⟨hgrows, hwarned⟩ : Tree.initial.Grows Tree.root (pruneAll nodes) tree ∧
      (nestedDropped ∈ warnings ↔ DropsDocument nodes) := grows_convertNamed hname .document nodes
  have hlinked : tree.Linked := (hgrows.wellBuilt .initial).linked
  have hnumbers := hgrows.numbers_document
  have hlinks := hnumbers.shows.mono fun node children h => h ▸ hlinked.leadsThrough_children node
  refine ⟨⟨fun shown => hnumbers.shows.iff_eq fun ha hb => ha.symm.trans hb,
      fun shown => hlinks.iff_eq fun ha hb => ha.unique hb⟩,
    ⟨?_, hgrows.parentsFirst fun id hpos hlt => ?_⟩, hwarned⟩
  · have hroot := hnumbers.flatMap_descendants hlinked (Nat.le_refl _)
    rw [List.flatMap_singleton] at hroot
    rw [hroot, List.range_eq_range']
    rfl
  · rw [Tree.size_initial] at hlt
    omega

/-- A document type, a template with its content, a comment, and a paragraph. -/
def templateNodes : List SourceNode :=
  [.doctype, .element ⟨"template", [⟨"id", "t"⟩]⟩ [.document [.element ⟨"b", []⟩ [.text "in"]]],
    .comment "c", .element ⟨"p", []⟩ [.text "out"]]

/-- Neighbours have exchanged their names. -/
theorem convertNamed_faithful_template :
    let tree := (convertNamed (1 ^^^ ·) (.document templateNodes)).1
    let warnings := (convertNamed (1 ^^^ ·) (.document templateNodes)).2
    Function.Injective (1 ^^^ ·) ∧
      tree.Shows (fun node children =>
        Tree.LeadsThrough tree.nextSibling? (tree.firstChild? node) children) [Tree.root]
        [.node .document [.node (.element ⟨"template", [⟨"id", "t"⟩]⟩) [],
          .node (.comment "c") [], .node (.element ⟨"p", []⟩) [.node (.text "out") []]]] ∧
      tree.descendants Tree.root = List.range tree.size ∧ tree.size = 5 ∧
      HangsFromKept templateNodes (.document [.element ⟨"b", []⟩ [.text "in"]]) ∧
      nestedDropped ∈ warnings := by
  intro tree warnings
  have hname : Function.Injective (1 ^^^ ·) := Nat.xor_right_injective
  have h := convertNamed_faithful hname templateNodes
  have hangs : HangsFromKept templateNodes (.document [.element ⟨"b", []⟩ [.text "in"]]) :=
    .held (.top (.tail _ (.head _))) rfl (.head _)
  exact ⟨hname, (h.1.2 _).mpr rfl, h.2.1.1, rfl, hangs, h.2.2.mpr ⟨_, hangs⟩⟩

end DomSelect.Markup
