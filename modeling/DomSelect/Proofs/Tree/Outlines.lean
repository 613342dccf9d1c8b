import DomSelect.Proofs.Tree.Descendants
import DomSelect.Tree.Outline

/-!
# Outlines in tree order

`Outline.Writes` is the procedure that an outline stands for: called for a node at a level, it writes
the line of the node and is then called for each child, one level deeper. Descendants are listed with
a stack that knows no levels. Where the lists of children do not lead down for ever, both meet the
same nodes in the same order and as often, and the outline is made of one line for each of them
(`Built.outline_lists_descendants`). No path has more nodes than the tree, so the limit on the levels
of an outline is never reached (`Outline.Writes.outline_eq`).
-/

namespace DomSelect

open DomSelect.Preorder (Unfolds)

variable {tree other : Tree} {id : NodeId} {content : Content} {level depth : Nat}
  {ids order : List NodeId} {text : String}

theorem Tree.content?_eq_none_iff : tree.content? id = none ↔ tree.size ≤ id := by
  unfold content?
  rw [Option.map_eq_none_iff, node?_eq_none_iff]

namespace Outline

/-! ## Definitions -/

/-- A node and the level at which it is shown. -/
structure Entry where
  level : Nat
  node : NodeId
  deriving DecidableEq, Repr, Inhabited

/-- The line of a node of the tree at its level. -/
def Entry.line (tree : Tree) (entry : Entry) : String :=
  match tree.content? entry.node with
  | none => ""
  | some content => Outline.line entry.level content

/-- The children of a node, one level deeper. -/
def deeper (tree : Tree) (entry : Entry) : List Entry :=
  (tree.children entry.node).map (Entry.mk (entry.level + 1))

/-- The procedure, called at a level for one node after the other, visits these nodes and writes this
text. -/
inductive Writes (tree : Tree) : Nat → List NodeId → List Entry → String → Prop
  | nil (level : Nat) : Writes tree level [] [] ""
  /-- A number that is no node is passed over. -/
  | absent {level : Nat} {id : NodeId} {rest : List NodeId} {after : List Entry} {later : String}
      (hnode : tree.content? id = none) (hrest : Writes tree level rest after later) :
      Writes tree level (id :: rest) after later
  /-- The line of a node comes before what is written for its children. -/
  | present {level : Nat} {id : NodeId} {rest : List NodeId} {content : Content}
      {below after : List Entry} {inner later : String} (hnode : tree.content? id = some content)
      (hbelow : Writes tree (level + 1) (tree.children id) below inner)
      (hrest : Writes tree level rest after later) :
      Writes tree level (id :: rest) (⟨level, id⟩ :: (below ++ after))
        (line level content ++ inner ++ later)

theorem Entry.line_of_content? {entry : Entry} (h : tree.content? entry.node = some content) :
    entry.line tree = Outline.line entry.level content := by
  rw [Entry.line, h]

theorem map_node_map_mk (level : Nat) (ids : List NodeId) :
    (ids.map (Entry.mk level)).map (·.node) = ids := by
  rw [List.map_map]
  exact List.map_id _

/-! ## Lines with a limit -/

theorem lines_of_absent (h : tree.content? id = none) (depth level : Nat) :
    lines tree depth level id = [] := by
  cases depth with
  | zero => rfl
  | succ depth => rw [lines, Tree.node?_eq_none_iff.mpr (Tree.content?_eq_none_iff.mp h)]

theorem lines_succ (h : tree.content? id = some content) (depth level : Nat) :
    lines tree (depth + 1) level id =
      line level content :: (tree.children id).flatMap (lines tree depth (level + 1)) := by
  obtain ⟨node, hnode, rfl⟩ := Option.map_eq_some_iff.mp h
  rw [lines, Tree.children, hnode]
  rfl

/-! ## What the procedure does -/

namespace Writes

variable {entries others : List Entry}

/-- There is one way only. -/
theorem unique (h : Writes tree level ids entries text) {text' : String}
    (h' : Writes tree level ids others text') : others = entries ∧ text' = text := by
  induction h generalizing others text' with
  | nil =>
    cases h'
    exact ⟨rfl, rfl⟩
  | absent hnode _ ih =>
    cases h' with
    | absent _ hrest => exact ih hrest
    | present hnode' => cases hnode.symm.trans hnode'
  | present hnode _ _ ihbelow ihrest =>
    cases h' with
    | absent hnode' => cases hnode.symm.trans hnode'
    | present hnode' hbelow hrest =>
      obtain rfl := Option.some.inj (hnode.symm.trans hnode')
      obtain ⟨rfl, rfl⟩ := ihbelow hbelow
      obtain ⟨rfl, rfl⟩ := ihrest hrest
      exact ⟨rfl, rfl⟩

/-- What is written is one line for each visit. -/
theorem text_eq (h : Writes tree level ids entries text) :
    text = String.join (entries.map (Entry.line tree)) := by
  induction h with
  | nil => rfl
  | absent _ _ ih => exact ih
  | @present level id rest content below after inner later hnode _ _ ihbelow ihrest =>
    have hline : Entry.line tree ⟨level, id⟩ = line level content := Entry.line_of_content? hnode
    rw [List.map_cons, List.map_append, String.join_cons, String.join_append, hline, ihbelow,
      ihrest, String.append_assoc]

/-- Levels grow by one from a node to its children and the nodes unfold as the lists do. -/
theorem unfolds (h : Writes tree level ids entries text) (hc : tree.Closed)
    (hids : ∀ id ∈ ids, id < tree.size) :
    Unfolds (deeper tree) (ids.map (Entry.mk level)) entries := by
  induction h with
  | nil => exact .nil
  | absent hnode =>
    exact absurd (hids _ List.mem_cons_self) (Nat.not_lt.mpr (Tree.content?_eq_none_iff.mp hnode))
  | present _ _ _ ihbelow ihrest =>
    obtain ⟨-, hrest⟩ := List.forall_mem_cons.mp hids
    exact .cons (ihbelow fun _ hm => hc.children hm) (ihrest hrest)

theorem unfolds_nodes (h : Writes tree level ids entries text) (hc : tree.Closed)
    (hids : ∀ id ∈ ids, id < tree.size) : Unfolds tree.children ids (entries.map (·.node)) := by
  rw [← map_node_map_mk level ids]
  exact (h.unfolds hc hids).map (·.node) fun entry => map_node_map_mk ..

theorem mem_range (h : Writes tree level ids entries text) (hc : tree.Closed)
    (hids : ∀ id ∈ ids, id < tree.size) :
    ∀ entry ∈ entries, entry.node ∈ Finset.range tree.size := by
  have hin : ∀ node ∈ entries.map (·.node), node < tree.size :=
    (h.unfolds_nodes hc hids).forall_mem hids fun _ _ _ hm => hc.children hm
  exact fun entry he => Finset.mem_range.mpr (hin _ (List.mem_map_of_mem he))

/-- A line is what is shown of the node behind two spaces for each level. -/
theorem exists_line_eq (h : Writes tree level ids entries text) (hc : tree.Closed)
    (hids : ∀ id ∈ ids, id < tree.size) : ∀ entry ∈ entries, ∃ content,
      tree.content? entry.node = some content ∧ entry.line tree =
        String.ofList (List.replicate (2 * entry.level) ' ') ++ showContent content ++ "\n" := by
  intro entry he
  have hin : ¬ tree.size ≤ entry.node :=
    Nat.not_le.mpr (Finset.mem_range.mp (h.mem_range hc hids entry he))
  obtain ⟨content, hcontent⟩ :=
    Option.ne_none_iff_exists'.mp (mt Tree.content?_eq_none_iff.mp hin)
  exact ⟨content, hcontent, Entry.line_of_content? hcontent⟩

/-- A node is not met again below itself, so one node fewer is left there. -/
theorem mem_erase (h : Writes tree level (tree.children id) entries text) (hc : tree.Closed)
    {among : Finset NodeId} (ha : ∀ entry ∈ entries, entry.node ∈ among) :
    ∀ entry ∈ entries, entry.node ∈ among.erase id := by
  have hnot : id ∉ entries.map (·.node) :=
    (h.unfolds_nodes hc fun _ hm => hc.children hm).not_mem_below
  intro entry he
  refine Finset.mem_erase.mpr ⟨fun heq => hnot ?_, ha entry he⟩
  exact List.mem_map.mpr ⟨entry, he, heq⟩

/-- Calls lie in one another at most as deep as there are nodes. -/
theorem level_lt (h : Writes tree level ids entries text) (hc : tree.Closed)
    (among : Finset NodeId) (ha : ∀ entry ∈ entries, entry.node ∈ among) :
    ∀ entry ∈ entries, entry.level < level + among.card := by
  induction h generalizing among with
  | nil => exact List.forall_mem_nil _
  | absent _ _ ih => exact ih among ha
  | @present level id rest content below after inner later _ hbelow _ ihbelow ihrest =>
    obtain ⟨hfirst, ha⟩ := List.forall_mem_cons.mp ha
    obtain ⟨habelow, haafter⟩ := List.forall_mem_append.mp ha
    have hcard : among.card = (among.erase id).card + 1 := (Finset.card_erase_add_one hfirst).symm
    have hlevel := ihbelow (among.erase id) (hbelow.mem_erase hc habelow)
    refine List.forall_mem_cons.mpr ⟨?_, List.forall_mem_append.mpr ⟨fun entry he => ?_, ?_⟩⟩
    · dsimp only
      omega
    · have := hlevel entry he
      omega
    · exact ihrest among haafter

/-- As many levels as there are nodes on a path are enough. -/
theorem join_lines (h : Writes tree level ids entries text) (hc : tree.Closed)
    (hids : ∀ id ∈ ids, id < tree.size) (among : Finset NodeId)
    (ha : ∀ entry ∈ entries, entry.node ∈ among) (hd : among.card ≤ depth) :
    String.join (ids.flatMap (lines tree depth level)) = text := by
  induction h generalizing depth among with
  | nil => rfl
  | absent hnode =>
    exact absurd (hids _ List.mem_cons_self) (Nat.not_lt.mpr (Tree.content?_eq_none_iff.mp hnode))
  | @present level id rest content below after inner later hnode hbelow _ ihbelow ihrest =>
    obtain ⟨-, hrest⟩ := List.forall_mem_cons.mp hids
    obtain ⟨hfirst, ha⟩ := List.forall_mem_cons.mp ha
    obtain ⟨habelow, haafter⟩ := List.forall_mem_append.mp ha
    have hchildren : ∀ child ∈ tree.children id, child < tree.size := fun _ hm => hc.children hm
    have hcard : among.card = (among.erase id).card + 1 := (Finset.card_erase_add_one hfirst).symm
    obtain ⟨depth, rfl⟩ : ∃ left, depth = left + 1 := ⟨depth - 1, by omega⟩
    have hinner : String.join ((tree.children id).flatMap (lines tree depth (level + 1))) = inner :=
      ihbelow hchildren (among.erase id) (hbelow.mem_erase hc habelow) (by omega)
    rw [List.flatMap_cons, String.join_append, lines_succ hnode, String.join_cons, hinner,
      ihrest hrest among haafter hd]

/-- The limit on the levels of an outline is never reached. -/
theorem outline_eq (h : Writes tree 0 [id] entries text) (hc : tree.Closed)
    (hid : id < tree.size) : tree.outline id = text := by
  have hids : ∀ node ∈ [id], node < tree.size := List.forall_mem_singleton.mpr hid
  have hjoin : String.join ([id].flatMap (lines tree tree.size 0)) = text :=
    h.join_lines hc hids (Finset.range tree.size) (h.mem_range hc hids) (Finset.card_range _).le
  rwa [List.flatMap_singleton] at hjoin

theorem descendants_eq (h : Writes tree 0 [id] entries text) (hc : tree.Closed)
    (hid : id < tree.size) : tree.descendants id = entries.map (·.node) :=
  hc.descendants_eq_of_unfolds hid (h.unfolds_nodes hc (List.forall_mem_singleton.mpr hid))

/-- Only the nodes met matter. -/
theorem congr {met : NodeId → Prop} (h : Writes tree level ids entries text)
    (hids : ∀ id ∈ ids, met id) (hstep : ∀ id, met id → ∀ child ∈ tree.children id, met child)
    (hcontent : ∀ id, met id → other.content? id = tree.content? id)
    (hchildren : ∀ id, met id → other.children id = tree.children id) :
    Writes other level ids entries text := by
  induction h with
  | nil level => exact .nil level
  | absent hnode _ ih =>
    obtain ⟨hid, hrest⟩ := List.forall_mem_cons.mp hids
    exact .absent ((hcontent _ hid).trans hnode) (ih hrest)
  | @present level id rest content below after inner later hnode _ _ ihbelow ihrest =>
    obtain ⟨hid, hrest⟩ := List.forall_mem_cons.mp hids
    have hbelow : Writes other (level + 1) (other.children id) below inner := by
      rw [hchildren id hid]
      exact ihbelow (hstep id hid)
    exact .present ((hcontent id hid).trans hnode) hbelow (ihrest hrest)

end Writes

theorem exists_writes (h : Unfolds tree.children ids order) (level : Nat) :
    ∃ entries text, Writes tree level ids entries text := by
  induction h generalizing level with
  | nil => exact ⟨_, _, .nil level⟩
  | @cons id rest below after _ _ ihbelow ihafter =>
    obtain ⟨_, _, hafter⟩ := ihafter level
    cases hnode : tree.content? id with
    | none => exact ⟨_, _, .absent hnode hafter⟩
    | some content =>
      obtain ⟨_, _, hbelow⟩ := ihbelow (level + 1)
      exact ⟨_, _, .present hnode hbelow hafter⟩

end Outline

namespace Tree

open Outline (Writes)

theorem outline_of_size_le (h : tree.size ≤ id) : tree.outline id = "" := by
  rw [outline, Outline.lines_of_absent (content?_eq_none_iff.mpr h)]
  rfl

/-- Where the lists of children end, the procedure does, with the outline as its text. -/
theorem Closed.exists_writes_outline (h : tree.Closed) (hid : id < tree.size)
    (hf : tree.EndsBelow id) : ∃ entries, Writes tree 0 [id] entries (tree.outline id) := by
  obtain ⟨order, ho⟩ := endsBelow_iff.mp hf
  obtain ⟨entries, text, hw⟩ := Outline.exists_writes ho 0
  rw [hw.outline_eq h hid]
  exact ⟨entries, hw⟩

/-- **Outlines and descendants.** In a tree with any history, below any node from which the lists of
children do not lead down for ever, the procedure of an outline visits the nodes that are listed as
descendants, in the same order and as often. The outline is what it writes: the lines of these
visits one after the other, each with what is shown of the node behind two spaces for every level at
which the node is met in the unfolding, the first one at level 0. A number that is no node has no
descendants and an empty outline. -/
theorem Built.outline_lists_descendants (h : tree.Built) :
    (∀ id, tree.contains id = true → tree.EndsBelow id → ∃ entries,
      (∀ visits text, Writes tree 0 [id] visits text ↔
        visits = entries ∧ text = tree.outline id) ∧
      Unfolds (Outline.deeper tree) [⟨0, id⟩] entries ∧
      entries.map (·.node) = tree.descendants id ∧
      tree.outline id = String.join (entries.map (Outline.Entry.line tree)) ∧
      ∀ entry ∈ entries, ∃ content, tree.content? entry.node = some content ∧
        entry.line tree = String.ofList (List.replicate (2 * entry.level) ' ') ++
          Outline.showContent content ++ "\n") ∧
    ∀ id, tree.contains id = false →
      (∀ visits text, Writes tree 0 [id] visits text ↔ visits = [] ∧ text = "") ∧
      tree.descendants id = [] ∧ tree.outline id = "" := by
  have hc := h.closed
  have hexact : ∀ {id entries text}, Writes tree 0 [id] entries text →
      ∀ visits text', Writes tree 0 [id] visits text' ↔ visits = entries ∧ text' = text := by
    intro id entries text hw visits text'
    constructor
    · exact hw.unique
    · rintro ⟨rfl, rfl⟩
      exact hw
  constructor
  · intro id hin hf
    have hid := contains_iff.mp hin
    have hids : ∀ node ∈ [id], node < tree.size := List.forall_mem_singleton.mpr hid
    obtain ⟨entries, hw⟩ := hc.exists_writes_outline hid hf
    exact ⟨entries, hexact hw, hw.unfolds hc hids, (hw.descendants_eq hc hid).symm, hw.text_eq,
      hw.exists_line_eq hc hids⟩
  · intro id hout
    have hid : tree.size ≤ id := Nat.le_of_not_lt (of_decide_eq_false hout)
    exact ⟨hexact (.absent (content?_eq_none_iff.mpr hid) (.nil 0)), descendants_of_size_le hid,
      outline_of_size_le hid⟩

/-- The shared paragraph with a link in it. -/
def sharedLink : Tree := sharedParagraph.addChild 2 (.element ⟨"a", []⟩)

theorem built_sharedLink : sharedLink.Built :=
  @Built.append _ _ 2 4 (built_sharedParagraph.alloc (.element ⟨"a", []⟩)) rfl

/-- The paragraph is met twice, in the division at level 2 and after it at level 1, and so is the
link below it. -/
theorem outline_lists_descendants_sharedLink :
    sharedLink.Built ∧ sharedLink.contains 0 = true ∧ sharedLink.EndsBelow 0 ∧
      sharedLink.descendants 0 = [0, 1, 2, 4, 3, 2, 4] ∧
      Writes sharedLink 0 [0] [⟨0, 0⟩, ⟨1, 1⟩, ⟨2, 2⟩, ⟨3, 4⟩, ⟨2, 3⟩, ⟨1, 2⟩, ⟨2, 4⟩]
        (sharedLink.outline 0) ∧
      sharedLink.outline 0 =
        "Document\n  <div>\n    <p>\n      <a>\n    <ul>\n  <p>\n    <a>\n" ∧
      sharedLink.contains 5 = false ∧ sharedLink.outline 5 = "" := by
  have hunfolds : Unfolds (Outline.deeper sharedLink) [⟨0, 0⟩]
      [⟨0, 0⟩, ⟨1, 1⟩, ⟨2, 2⟩, ⟨3, 4⟩, ⟨2, 3⟩, ⟨1, 2⟩, ⟨2, 4⟩] := by
    have hlink : ∀ level, Unfolds (Outline.deeper sharedLink)
        (Outline.deeper sharedLink ⟨level, 4⟩) [] := fun _ => .nil
    have hparagraph : ∀ level, Unfolds (Outline.deeper sharedLink)
        (Outline.deeper sharedLink ⟨level, 2⟩) [⟨level + 1, 4⟩] := fun _ => .singleton (hlink _)
    have hlist : Unfolds (Outline.deeper sharedLink) (Outline.deeper sharedLink ⟨2, 3⟩) [] := .nil
    have hdivision : Unfolds (Outline.deeper sharedLink)
        (Outline.deeper sharedLink ⟨1, 1⟩) [⟨2, 2⟩, ⟨3, 4⟩, ⟨2, 3⟩] :=
      .cons (hparagraph 2) (.cons hlist .nil)
    have hdocument : Unfolds (Outline.deeper sharedLink)
        (Outline.deeper sharedLink ⟨0, 0⟩) [⟨1, 1⟩, ⟨2, 2⟩, ⟨3, 4⟩, ⟨2, 3⟩, ⟨1, 2⟩, ⟨2, 4⟩] :=
      .cons hdivision (.cons (hparagraph 1) .nil)
    exact .singleton hdocument
  have hf : sharedLink.EndsBelow 0 :=
    endsBelow_iff.mpr ⟨_, hunfolds.map (·.node) fun _ => Outline.map_node_map_mk ..⟩
  obtain ⟨hinside, houtside⟩ := built_sharedLink.outline_lists_descendants
  obtain ⟨entries, hwrites, hun, hnodes, htext, -⟩ := hinside 0 rfl hf
  obtain rfl := hun.unique hunfolds
  refine ⟨built_sharedLink, rfl, hf, hnodes.symm, (hwrites _ _).mpr ⟨rfl, rfl⟩, ?_, rfl,
    (houtside 5 rfl).2.2⟩
  rw [htext]
  decide

end Tree

end DomSelect
