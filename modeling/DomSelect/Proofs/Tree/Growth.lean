import DomSelect.Proofs.Tree.Descendants
import DomSelect.Tree.Rose

/-!
# Trees that grow branch by branch

`Grows` is the way in which a tree gets whole branches below a node: a new last child, then all that
is below it, then the next branch. Nothing that was there before changes but the list of children
of that node (`Grows.content?`, `Grows.children`), and the new nodes are numbered in tree order
(`Grows.exists_numbers`). `Shows` says which branches a reader of the tree finds, whatever record of
the children is read.
-/

namespace DomSelect.Tree

variable {tree after : Tree} {parent id start stop : Nat} {content : Content}
  {nodes : List NodeId} {branches : List (Rose Content)}

/-! ## Definitions -/

/-- Branches are added below `parent` one after the other, each node before those below it. -/
inductive Grows : Tree → Nat → List (Rose Content) → Tree → Prop
  | nil (tree : Tree) (parent : Nat) : Grows tree parent [] tree
  | cons {tree middle after : Tree} {parent : Nat} {content : Content}
      {below others : List (Rose Content)} (hp : parent < tree.size)
      (hbelow : Grows (tree.addChild parent content) tree.size below middle)
      (hrest : Grows middle parent others after) :
      Grows tree parent (.node content below :: others) after

/-- Read from these nodes on, the children of a node being those `listed` for it, the tree shows
these branches. -/
inductive Shows (tree : Tree) (listed : NodeId → List NodeId → Prop) :
    List NodeId → List (Rose Content) → Prop
  | nil : Shows tree listed [] []
  | cons {node : NodeId} {children rest : List NodeId} {content : Content}
      {below others : List (Rose Content)} (hcontent : tree.content? node = some content)
      (hlisted : listed node children) (hbelow : Shows tree listed children below)
      (hrest : Shows tree listed rest others) :
      Shows tree listed (node :: rest) (.node content below :: others)

/-- The tree shows the branches from these nodes on, by its lists of children, and the numbers of
their nodes are in tree order those from `start` on that are less than `stop`. -/
inductive Numbers (tree : Tree) : Nat → Nat → List NodeId → List (Rose Content) → Prop
  | nil (stop : Nat) : Numbers tree stop stop [] []
  | cons {start middle stop : Nat} {rest : List NodeId} {content : Content}
      {below others : List (Rose Content)} (hcontent : tree.content? start = some content)
      (hbelow : Numbers tree (start + 1) middle (tree.children start) below)
      (hrest : Numbers tree middle stop rest others) :
      Numbers tree start stop (start :: rest) (.node content below :: others)

/-- Every node but the document has a parent with a smaller number. -/
def ParentsFirst (tree : Tree) : Prop :=
  ∀ id : Nat, 0 < id → id < tree.size → ∃ parent < id, tree.parent? id = some parent

/-! ## Nodes shown and numbered -/

theorem Shows.mono {listed linked : NodeId → List NodeId → Prop}
    (h : Shows tree listed nodes branches)
    (himp : ∀ node children, listed node children → linked node children) :
    Shows tree linked nodes branches := by
  induction h with
  | nil => exact .nil
  | cons hcontent hlisted _ _ ihbelow ihrest =>
    exact .cons hcontent (himp _ _ hlisted) ihbelow ihrest

/-- If a node has one list of children only, then these are the branches shown and no others. -/
theorem Shows.iff_eq {listed : NodeId → List NodeId → Prop} {others : List (Rose Content)}
    (h : Shows tree listed nodes branches)
    (hlisted : ∀ {node a b}, listed node a → listed node b → a = b) :
    Shows tree listed nodes others ↔ others = branches := by
  refine ⟨fun h' => ?_, fun he => he ▸ h⟩
  induction h generalizing others with
  | nil =>
    cases h'
    rfl
  | cons hcontent hchildren _ _ ihbelow ihrest =>
    cases h' with
    | cons hcontent' hchildren' hbelow' hrest' =>
      obtain rfl := Option.some.inj (hcontent'.symm.trans hcontent)
      rw [hlisted hchildren' hchildren] at hbelow'
      rw [ihbelow hbelow', ihrest hrest']

namespace Numbers

theorem le (h : Numbers tree start stop nodes branches) : start ≤ stop := by
  induction h with
  | nil => exact Nat.le_refl _
  | cons _ _ _ ihbelow ihrest => omega

theorem shows (h : Numbers tree start stop nodes branches) :
    Shows tree (fun node children => tree.children node = children) nodes branches := by
  induction h with
  | nil => exact .nil
  | cons hcontent _ _ ihbelow ihrest => exact .cons hcontent rfl ihbelow ihrest

/-- Only the nodes with these numbers matter. -/
theorem congr (h : Numbers tree start stop nodes branches)
    (hcontent : ∀ id : Nat, start ≤ id → id < stop → after.content? id = tree.content? id)
    (hchildren : ∀ id : Nat, start ≤ id → id < stop → after.children id = tree.children id) :
    Numbers after start stop nodes branches := by
  induction h with
  | nil stop => exact .nil stop
  | @cons start middle stop rest content below others hnode hbelow hrest ihbelow ihrest =>
    have hle := hbelow.le
    have hle' := hrest.le
    have hfirst : after.children start = tree.children start :=
      hchildren start (Nat.le_refl _) (by omega)
    have hnumbers : Numbers after (start + 1) middle (after.children start) below := by
      rw [hfirst]
      exact ihbelow (fun id h1 h2 => hcontent id (by omega) (by omega)) fun id h1 h2 =>
        hchildren id (by omega) (by omega)
    refine .cons ((hcontent start (Nat.le_refl _) (by omega)).trans hnode) hnumbers ?_
    exact ihrest (fun id h1 h2 => hcontent id (by omega) h2) fun id h1 h2 =>
      hchildren id (by omega) h2

/-- The nodes and their descendants are the nodes with these numbers. -/
theorem flatMap_descendants (h : Numbers tree start stop nodes branches) (hl : tree.Linked)
    (hs : stop ≤ tree.size) : nodes.flatMap tree.descendants = List.range' start (stop - start) := by
  induction h with
  | nil stop => rw [Nat.sub_self]; rfl
  | @cons start middle stop rest content below others _ hbelow hrest ihbelow ihrest =>
    have hle := hbelow.le
    have hle' := hrest.le
    have hsplit : stop - start = (middle - (start + 1)) + (stop - middle) + 1 := by omega
    have hmiddle : start + 1 + (middle - (start + 1)) = middle := by omega
    have hstart : start < tree.size := by omega
    rw [List.flatMap_cons, hl.descendants_eq hstart, ihbelow (hle'.trans hs), ihrest hs,
      List.cons_append, hsplit, List.range'_succ, ← List.range'_append_1, hmiddle]

end Numbers

/-! ## What growing does -/

theorem ParentsFirst.addChild (h : tree.ParentsFirst) (hp : parent < tree.size)
    (content : Content) : (tree.addChild parent content).ParentsFirst := by
  intro id hpos hlt
  rw [size_addChild] at hlt
  rw [parent?_addChild]
  split
  · next he => exact ⟨parent, he ▸ hp, rfl⟩
  · next hne => exact h id hpos (by omega)

namespace Grows

theorem size_le (h : Grows tree parent branches after) : tree.size ≤ after.size := by
  induction h with
  | nil => exact Nat.le_refl _
  | cons _ _ _ ihbelow ihrest =>
    rw [size_addChild] at ihbelow
    omega

theorem wellBuilt (h : Grows tree parent branches after) (hw : tree.WellBuilt) :
    after.WellBuilt := by
  induction h with
  | nil => exact hw
  | cons hp _ _ ihbelow ihrest => exact ihrest (ihbelow (hw.addChild hp _))

theorem parentsFirst (h : Grows tree parent branches after) (hf : tree.ParentsFirst) :
    after.ParentsFirst := by
  induction h with
  | nil => exact hf
  | cons hp _ _ ihbelow ihrest => exact ihrest (ihbelow (hf.addChild hp _))

theorem content? (h : Grows tree parent branches after) (hid : id < tree.size) :
    after.content? id = tree.content? id := by
  induction h with
  | nil => rfl
  | cons _ hbelow _ ihbelow ihrest =>
    have hsize := hbelow.size_le
    rw [size_addChild] at hsize ihbelow
    rw [ihrest (by omega), ihbelow (by omega), content?_addChild, if_neg (Nat.ne_of_lt hid)]

theorem children (h : Grows tree parent branches after) (hid : id < tree.size)
    (hne : id ≠ parent) : after.children id = tree.children id := by
  induction h with
  | nil => rfl
  | cons hp hbelow _ ihbelow ihrest =>
    have hsize := hbelow.size_le
    rw [size_addChild] at hsize ihbelow
    rw [ihrest (by omega) hne, ihbelow (by omega) (by omega), children_addChild hp,
      if_neg (Ne.symm hne)]

/-- The new children are the last ones, and the new nodes are numbered in tree order. -/
theorem exists_numbers (h : Grows tree parent branches after) :
    ∃ nodes, after.children parent = tree.children parent ++ nodes ∧
      Numbers after tree.size after.size nodes branches := by
  induction h with
  | nil tree parent => exact ⟨[], (List.append_nil _).symm, .nil _⟩
  | @cons tree middle after parent content below others hp hbelow hrest ihbelow ihrest =>
    obtain ⟨children, hchildren, hnumbers⟩ := ihbelow
    obtain ⟨nodes, hnodes, hothers⟩ := ihrest
    have hsize := hbelow.size_le
    rw [size_addChild] at hsize hnumbers
    have hne : parent ≠ tree.size := Nat.ne_of_lt hp
    -- what the first step does to the new node and to the list it is added to
    have hnode : middle.children tree.size = children := by
      rw [hchildren, children_addChild hp, if_neg hne, children_of_size_le (Nat.le_refl _)]
      rfl
    have hparent : middle.children parent = tree.children parent ++ [tree.size] := by
      rw [hbelow.children (by rw [size_addChild]; omega) hne, children_addChild hp, if_pos rfl]
    refine ⟨tree.size :: nodes, by rw [hnodes, hparent, List.append_assoc]; rfl,
      .cons ?_ ?_ hothers⟩
    · rw [hrest.content? hsize, hbelow.content? (by rw [size_addChild]; omega), content?_addChild,
        if_pos rfl]
    · rw [hrest.children hsize hne.symm, hnode]
      exact hnumbers.congr (fun id _ hlt => hrest.content? hlt) fun id hle hlt =>
        hrest.children hlt (by omega)

/-- A tree grown from the document alone shows the branches below the document. -/
theorem numbers_document (h : Grows initial root branches after) :
    Numbers after root after.size [root] [.node .document branches] := by
  obtain ⟨nodes, hnodes, hnumbers⟩ := h.exists_numbers
  have hchildren : after.children root = nodes := by rw [hnodes, children_initial]; rfl
  refine .cons (h.content? Nat.zero_lt_one) ?_ (.nil _)
  rw [hchildren]
  exact hnumbers

/-- The nodes of such a tree are numbered in tree order. -/
theorem descendants_document (h : Grows initial root branches after) :
    after.descendants root = List.range after.size := by
  have hroot := h.numbers_document.flatMap_descendants (h.wellBuilt .initial).linked
    (Nat.le_refl _)
  rw [List.flatMap_singleton] at hroot
  rw [hroot, List.range_eq_range']
  rfl

end Grows

end DomSelect.Tree
