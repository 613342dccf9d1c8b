import DomSelect.Proofs.Tree.Outlines

/-!
# Lines of an outline

An outline has a line for every node, and a line feed at the end of each. Texts are shown without
line feeds of their own, but tags, attributes and comments are shown as they are (`rawLineFeeds`). So
there are as many line feeds as nodes, and each line ends in its only one, exactly if no tag, attribute
or comment that is shown holds any (`WellBuilt.oneLinePerNode_iff`).
-/

namespace DomSelect

variable {tree : Tree} {id : NodeId}

namespace Outline

/-! ## Line feeds of a text -/

/-- Number of line feeds in a text. -/
def lineFeeds (text : String) : Nat := text.toList.count '\n'

/-- The text ends in a line feed and holds no other. -/
def IsOneLine (text : String) : Prop := ∃ front, text = front ++ "\n" ∧ lineFeeds front = 0

@[simp] theorem lineFeeds_append (a b : String) :
    lineFeeds (a ++ b) = lineFeeds a + lineFeeds b := by
  rw [lineFeeds, String.toList_append, List.count_append]
  rfl

theorem lineFeeds_join (texts : List String) :
    lineFeeds (String.join texts) = (texts.map lineFeeds).sum := by
  rw [lineFeeds, String.toList_join, List.count_flatMap]
  rfl

theorem lineFeeds_intercalate {separator : String} (hs : lineFeeds separator = 0)
    (texts : List String) :
    lineFeeds (separator.intercalate texts) = (texts.map lineFeeds).sum := by
  induction texts with
  | nil => rfl
  | cons first rest ih =>
    cases rest with
    | nil => simp
    | cons second rest => rw [String.intercalate_cons_cons]; simp_all

/-! ## Line feeds of a line -/

/-- Number of line feeds that the line of a node takes over from what the node is. -/
def rawLineFeeds : Content → Nat
  | .document => 0
  | .element data => lineFeeds data.tag +
      (data.attributes.map fun attr => lineFeeds attr.name + lineFeeds attr.value).sum
  | .text _ => 0
  | .comment data => lineFeeds data

theorem lineFeeds_showText (text : String) : lineFeeds (showText text) = 0 := by
  rw [lineFeeds, showText, String.toList_ofList, List.count_eq_zero, List.mem_flatMap]
  rintro ⟨c, -, hc⟩
  unfold showTextChar at hc
  split at hc
  · simp at hc
  · split at hc
    · simp at hc
    · next hne _ => exact hne (List.mem_singleton.mp hc).symm

theorem lineFeeds_showAttribute (attr : Attribute) :
    lineFeeds (showAttribute attr) = lineFeeds attr.name + lineFeeds attr.value := by
  unfold showAttribute
  split
  · next hempty => rw [hempty]; rfl
  · simp only [lineFeeds_append]
    rfl

theorem lineFeeds_showContent (content : Content) :
    lineFeeds (showContent content) = rawLineFeeds content := by
  cases content with
  | document => rfl
  | element data =>
    have hattributes : (data.attributes.map showAttribute).map lineFeeds =
        data.attributes.map fun attr => lineFeeds attr.name + lineFeeds attr.value := by
      rw [List.map_map]
      exact List.map_congr_left fun attr _ => lineFeeds_showAttribute attr
    rw [showContent, showElement, lineFeeds_append, lineFeeds_append,
      lineFeeds_intercalate (by decide), List.map_cons, List.sum_cons, hattributes]
    show 0 + _ + 0 = _
    rw [Nat.zero_add, Nat.add_zero]
    rfl
  | text data =>
    rw [showContent, lineFeeds_append, lineFeeds_append, lineFeeds_showText]
    rfl
  | comment data =>
    rw [showContent, lineFeeds_append, lineFeeds_append]
    show 0 + lineFeeds data + 0 = lineFeeds data
    omega

theorem lineFeeds_indentation (level : Nat) : lineFeeds (indentation level) = 0 := by
  rw [lineFeeds, indentation, String.toList_ofList, List.count_eq_zero, List.mem_replicate]
  rintro ⟨-, h⟩
  cases h

theorem lineFeeds_line (level : Nat) (content : Content) :
    lineFeeds (line level content) = rawLineFeeds content + 1 := by
  rw [line, lineFeeds_append, lineFeeds_append, lineFeeds_indentation, lineFeeds_showContent,
    Nat.zero_add]
  rfl

/-- The line feed at the end of a line is its only one exactly if none is taken over. -/
theorem isOneLine_line_iff (level : Nat) (content : Content) :
    IsOneLine (line level content) ↔ rawLineFeeds content = 0 := by
  constructor
  · rintro ⟨front, heq, hfront⟩
    have hcount : rawLineFeeds content + 1 = lineFeeds front + 1 := by
      rw [← lineFeeds_line level, heq, lineFeeds_append]
      rfl
    omega
  · intro hraw
    refine ⟨_, rfl, ?_⟩
    rw [lineFeeds_append, lineFeeds_indentation, lineFeeds_showContent, hraw]

end Outline

namespace Tree

open Outline (Entry IsOneLine lineFeeds)

/-! ## Lines of a tree -/

/-- Number of line feeds that the line of a node takes over; none if there is no such node. -/
def rawLineFeeds (tree : Tree) (id : NodeId) : Nat :=
  match tree.content? id with
  | none => 0
  | some content => Outline.rawLineFeeds content

/-- There are as many line feeds in the outline as nodes shown, and it is made of their lines, each
of which ends in its only line feed. -/
structure OneLinePerNode (tree : Tree) (id : NodeId) : Prop where
  count : lineFeeds (tree.outline id) = (tree.descendants id).length
  lines : ∃ entries : List Entry, entries.map (·.node) = tree.descendants id ∧
    tree.outline id = String.join (entries.map (Entry.line tree)) ∧
    ∀ entry ∈ entries, IsOneLine (entry.line tree)

section Entry

variable {entry : Entry}

theorem exists_entry_line (he : entry.node < tree.size) : ∃ content,
    entry.line tree = Outline.line entry.level content ∧
      tree.rawLineFeeds entry.node = Outline.rawLineFeeds content := by
  cases hnode : tree.content? entry.node with
  | none => exact absurd he (Nat.not_lt.mpr (content?_eq_none_iff.mp hnode))
  | some content => exact ⟨content, by rw [Entry.line, hnode], by rw [rawLineFeeds, hnode]⟩

theorem lineFeeds_entry_line (he : entry.node < tree.size) :
    lineFeeds (entry.line tree) = tree.rawLineFeeds entry.node + 1 := by
  obtain ⟨content, hline, hraw⟩ := exists_entry_line he
  rw [hline, hraw, Outline.lineFeeds_line]

theorem isOneLine_entry_line_iff (he : entry.node < tree.size) :
    IsOneLine (entry.line tree) ↔ tree.rawLineFeeds entry.node = 0 := by
  obtain ⟨content, hline, hraw⟩ := exists_entry_line he
  rw [hline, hraw, Outline.isOneLine_line_iff]

end Entry

theorem lineFeeds_join_entry_lines {entries : List Entry}
    (hlt : ∀ entry ∈ entries, entry.node < tree.size) :
    lineFeeds (String.join (entries.map (Entry.line tree))) =
      entries.length + ((entries.map (·.node)).map tree.rawLineFeeds).sum := by
  rw [Outline.lineFeeds_join]
  induction entries with
  | nil => rfl
  | cons entry rest ih =>
    obtain ⟨hfirst, hrest⟩ := List.forall_mem_cons.mp hlt
    simp only [List.map_cons, List.sum_cons, List.length_cons, ih hrest,
      lineFeeds_entry_line hfirst]
    omega

/-- **Lines of an outline.** In a tree with a disciplined history, whatever the texts, comments, tags
and attributes in it are, the outline of a node has a line feed for every node shown, and besides
these the line feeds taken over from tags, attributes and comments. There is one line for each node,
each ending in its only line feed, exactly if nothing that is shown has any to take over. -/
theorem WellBuilt.oneLinePerNode_iff (h : tree.WellBuilt) (hid : tree.contains id = true) :
    lineFeeds (tree.outline id) =
        (tree.descendants id).length + ((tree.descendants id).map tree.rawLineFeeds).sum ∧
      (tree.OneLinePerNode id ↔ ∀ node ∈ tree.descendants id, tree.rawLineFeeds node = 0) := by
  have hl := h.linked
  have hlt : id < tree.size := contains_iff.mp hid
  obtain ⟨entries, hw⟩ := hl.closed.exists_writes_outline hlt (hl.acc id)
  have hnodes : tree.descendants id = entries.map (·.node) := hw.descendants_eq hl.closed hlt
  have hshown : ∀ entry ∈ entries, entry.node ∈ tree.descendants id := by
    intro entry he
    rw [hnodes]
    exact List.mem_map_of_mem he
  have hcount : lineFeeds (tree.outline id) =
      (tree.descendants id).length + ((tree.descendants id).map tree.rawLineFeeds).sum := by
    rw [hw.text_eq, lineFeeds_join_entry_lines fun entry he =>
      hl.lt_of_mem_descendants (hshown entry he), hnodes, List.length_map]
  have hsum : ((tree.descendants id).map tree.rawLineFeeds).sum = 0 ↔
      ∀ node ∈ tree.descendants id, tree.rawLineFeeds node = 0 := by
    rw [List.sum_eq_zero_iff_forall_eq_nat, List.forall_mem_map]
  refine ⟨hcount, fun hone => ?_, fun hraw => ?_⟩
  · rw [← hsum]
    have := hone.count
    omega
  · refine ⟨by rw [hcount, hsum.mpr hraw, Nat.add_zero], entries, hnodes.symm, hw.text_eq, ?_⟩
    intro entry he
    have hm := hshown entry he
    exact (isOneLine_entry_line_iff (hl.lt_of_mem_descendants hm)).mpr (hraw _ hm)

/-- A paragraph with a text of two lines, and a comment of two lines behind it. -/
def brokenComment : Tree :=
  ((initial.addChild 0 (.element ⟨"p", [⟨"class", "x"⟩]⟩)).addChild 1 (.text "a\nb")).addChild 0
    (.comment "a\nb")

theorem wellBuilt_brokenComment : brokenComment.WellBuilt :=
  ((WellBuilt.initial.addChild (by decide) _).addChild (by decide) _).addChild (by decide) _

/-- The text is shown on one line and the comment on two. -/
theorem oneLinePerNode_iff_brokenComment :
    brokenComment.WellBuilt ∧ brokenComment.contains 1 = true ∧ brokenComment.OneLinePerNode 1 ∧
      lineFeeds (brokenComment.outline 1) = 2 ∧ brokenComment.contains 0 = true ∧
      ¬ brokenComment.OneLinePerNode 0 ∧ lineFeeds (brokenComment.outline 0) = 5 := by
  have hparagraph : brokenComment.contains 1 = true := rfl
  have hdocument : brokenComment.contains 0 = true := rfl
  obtain ⟨hfeeds, hone⟩ := wellBuilt_brokenComment.oneLinePerNode_iff hparagraph
  obtain ⟨hfeeds', hone'⟩ := wellBuilt_brokenComment.oneLinePerNode_iff hdocument
  refine ⟨wellBuilt_brokenComment, hparagraph, hone.mpr (by decide), hfeeds.trans (by decide),
    hdocument, ?_, hfeeds'.trans (by decide)⟩
  rw [hone']
  decide

/-- A comment of two lines and nothing else. -/
def twoLineComment : Tree := initial.addChild 0 (.comment "a\nb")

/-- The outline of two nodes has three lines. -/
theorem not_oneLinePerNode_twoLineComment :
    twoLineComment.WellBuilt ∧ twoLineComment.contains 0 = true ∧
      twoLineComment.descendants 0 = [0, 1] ∧
      twoLineComment.outline 0 = "Document\n  <!-- a\nb -->\n" ∧
      lineFeeds (twoLineComment.outline 0) = 3 ∧ ¬ twoLineComment.OneLinePerNode 0 := by
  have hfeeds : lineFeeds (twoLineComment.outline 0) = 3 := by decide
  refine ⟨WellBuilt.initial.addChild (by decide) _, rfl, rfl, by decide, hfeeds, fun hone => ?_⟩
  exact absurd (hfeeds.symm.trans hone.count) (by decide)

end Tree

end DomSelect
