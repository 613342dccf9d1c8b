import DomSelect.Proofs.Query.Strict
import DomSelect.Proofs.Selector.Compiling
import DomSelect.Query.Forms

/-!
# Looking up forms

`findForm` asks inclusive walks, which report a node as soon as it matches the first term. It
answers the first form with such a node (`findForm_eq`), while the form that holds a match of the
whole chain is the first one with a strict match (`holdsChain_iff`). The two lookups agree exactly
if the first form with a match of the first term holds the whole chain
(`findForm_finds_chain_iff`); for at most one term they always do
(`holdsChain_of_length_le_one`). In terms of all nodes of the document, the lookup decides which is
the first form that holds the first term (`findForm_decides`).
-/

namespace DomSelect

variable {tree : Tree} {start node form : NodeId} {term : Term} {terms rest : List Term}
  {chain : Chain} {selector : String}

/-! ## Walks that report nothing -/

/-- An inclusive walk reports something as soon as the first term matches somewhere. -/
theorem walk_inclusive_eq_nil_iff (h : tree.Linked) (hs : start < tree.size) :
    walk tree start (term :: rest) .inclusive = [] ↔
      ∀ node ∈ tree.descendants start, ¬ term.matchesNode tree node = true := by
  induction start using h.induction with
  | step start ih =>
    rw [walk_cons h, h.descendants_eq hs]
    by_cases hm : term.matchesNode tree start = true
    · rw [if_pos hm, if_pos (Or.inl rfl)]
      constructor
      · intro hnil
        exact absurd hnil (List.cons_ne_nil _ _)
      · intro hall
        exact absurd hm (hall start List.mem_cons_self)
    · rw [if_neg hm, List.flatMap_eq_nil_iff, List.forall_mem_cons, and_iff_right hm]
      constructor
      · intro hnil node hn
        obtain ⟨child, hc, hn⟩ := List.mem_flatMap.mp hn
        exact (ih child hc (Tree.Linked.child_lt (h.mem_children.mp hc))).mp (hnil child hc) node hn
      · intro hall child hc
        refine (ih child hc (Tree.Linked.child_lt (h.mem_children.mp hc))).mpr fun node hn => ?_
        exact hall node (List.mem_flatMap.mpr ⟨child, hc, hn⟩)

/-! ## What the lookup asks -/

namespace Tree

/-- Whether the first term of the chain matches at or below `form`. -/
def holdsFirstTerm (tree : Tree) (chain : Chain) (form : NodeId) : Bool :=
  chain.terms.head?.any fun term => (tree.descendants form).any (term.matchesNode tree)

/-- Whether a strict query from `form` reports something. -/
def holdsChain (tree : Tree) (chain : Chain) (form : NodeId) : Bool :=
  match tree.findAllFrom form chain .strict with
  | .ok selection => !selection.isEmpty
  | .error _ => false

theorem isEmpty_walk_inclusive (h : tree.Linked) (hf : form < tree.size) (chain : Chain) :
    (walk tree form chain.terms .inclusive).isEmpty = !tree.holdsFirstTerm chain form := by
  unfold holdsFirstTerm
  cases chain.terms with
  | nil => rfl
  | cons term rest =>
    rw [Bool.eq_iff_iff, List.isEmpty_iff, walk_inclusive_eq_nil_iff h hf]
    simp

theorem firstWithMatch_eq (h : tree.Linked) (chain : Chain) {ids : List NodeId}
    (hids : ∀ id ∈ ids, id < tree.size) :
    tree.firstWithMatch chain ids = .ok (ids.find? (tree.holdsFirstTerm chain)) := by
  induction ids with
  | nil => rfl
  | cons id rest ih =>
    have hid := hids id List.mem_cons_self
    rw [firstWithMatch, findAllFrom, if_pos (contains_iff.mpr hid)]
    simp only [Selection.isEmpty, isEmpty_walk_inclusive h hid]
    by_cases hm : tree.holdsFirstTerm chain id = true
    · rw [hm, List.find?_cons_of_pos hm]
      rfl
    · rw [List.find?_cons_of_neg hm, ih fun other ho => hids other (List.mem_cons_of_mem _ ho)]
      simp [hm]

/-- The forms are elements of the tree. -/
theorem forms_lt (tree : Tree) : ∀ id ∈ tree.forms, id < tree.size := by
  intro id hid
  obtain ⟨element, helement, -⟩ := (Option.any_eq_true ..).mp (List.mem_filter.mp hid).2
  exact lt_size_of_element? helement

/-- The lookup answers the first form in which the first term matches. -/
theorem findForm_eq (h : tree.Linked) (hok : compileStrict selector = .ok chain) :
    tree.findForm selector =
      match tree.forms.find? (tree.holdsFirstTerm chain) with
      | some form => .ok form
      | none => .error (.formNotFound selector) := by
  rw [findForm, hok]
  simp only [firstWithMatch_eq h chain (forms_lt tree)]
  cases tree.forms.find? (tree.holdsFirstTerm chain) <;> rfl

/-- The lookup answers an element. -/
theorem exists_element_of_findForm (h : tree.Linked) (hok : compileStrict selector = .ok chain)
    (hf : tree.findForm selector = .ok form) : ∃ element, tree.element? form = some element := by
  rw [findForm_eq h hok] at hf
  split at hf
  · next found hfind =>
    obtain rfl : found = form := Except.ok.inj hf
    obtain ⟨-, hisForm⟩ := List.mem_filter.mp (List.mem_of_find?_eq_some hfind)
    obtain ⟨element, helement, -⟩ := (Option.any_eq_true ..).mp hisForm
    exact ⟨element, helement⟩
  · cases hf

/-- With a selector that is well-formed, the lookup can only miss. -/
theorem eq_formNotFound_of_findForm (h : tree.Linked) (hok : compileStrict selector = .ok chain)
    {error : QueryError} (hf : tree.findForm selector = .error error) :
    error = .formNotFound selector := by
  rw [findForm_eq h hok] at hf
  split at hf
  · cases hf
  · exact (Except.error.inj hf).symm

/-! ## What the selector asks -/

/-- A strict query from a form reports something exactly if the whole chain is matched there. -/
theorem holdsChain_iff (h : tree.Linked) (hf : form < tree.size) :
    tree.holdsChain chain form = true ↔ ∃ node, EndsAt tree form chain.terms node := by
  rw [holdsChain, findAllFrom, if_pos (contains_iff.mpr hf)]
  simp only [Selection.isEmpty, Bool.not_eq_true', List.isEmpty_eq_false_iff, ne_eq,
    walk_strict_eq_nil_iff h hf, not_forall, not_not]

theorem holdsFirstTerm_of_holdsChain (h : tree.Linked) (hf : form < tree.size)
    (hc : tree.holdsChain chain form = true) : tree.holdsFirstTerm chain form = true := by
  obtain ⟨node, nodes, hlast, hpath, -, hmatch⟩ := (holdsChain_iff h hf).mp hc
  unfold holdsFirstTerm
  generalize chain.terms = terms at hmatch
  cases hmatch with
  | nil => cases hlast
  | @cons term first _ _ hfirst _ =>
    refine List.any_eq_true.mpr ⟨first, ?_, hfirst⟩
    exact (h.mem_descendants_iff hf).mpr (hpath first List.mem_cons_self).1

/-- With one term or none there is no difference between the two questions. -/
theorem holdsChain_of_length_le_one (h : tree.Linked) (hf : form < tree.size)
    (hlen : chain.length ≤ 1) (hm : tree.holdsFirstTerm chain form = true) :
    tree.holdsChain chain form = true := by
  rw [holdsChain_iff h hf]
  unfold holdsFirstTerm at hm
  unfold Chain.length at hlen
  generalize chain.terms = terms at hm hlen
  match terms, hlen with
  | [], _ => cases hm
  | [term], _ =>
    obtain ⟨node, hn, hmatch⟩ := List.any_eq_true.mp hm
    exact ⟨node, endsAt_singleton.mpr ⟨(h.mem_descendants_iff hf).mp hn, hmatch⟩⟩

/-! ## Where both lookups agree -/

/-- A search for less finds the same exactly if what it finds is what is searched for. -/
theorem find?_eq_find?_iff {α : Type} {p q : α → Bool} {items : List α}
    (hqp : ∀ item ∈ items, q item = true → p item = true) :
    items.find? q = items.find? p ↔ ∀ item, items.find? p = some item → q item = true := by
  constructor
  · intro heq item hitem
    rw [← heq] at hitem
    exact List.find?_some hitem
  · intro hfound
    induction items with
    | nil => rfl
    | cons first rest ih =>
      by_cases hp : p first = true
      · rw [List.find?_cons_of_pos hp] at hfound ⊢
        exact List.find?_cons_of_pos (hfound first rfl)
      · have hq : ¬ q first = true := fun hq => hp (hqp first List.mem_cons_self hq)
        rw [List.find?_cons_of_neg hp] at hfound ⊢
        rw [List.find?_cons_of_neg hq]
        exact ih (fun item hi => hqp item (List.mem_cons_of_mem _ hi)) hfound

/-- **Form lookup.** The form that is answered is the first one in which the whole chain is matched,
and none is found if there is no such form, exactly if the first form in which the first term
matches has a match of the whole chain. -/
theorem findForm_finds_chain_iff (h : tree.WellBuilt)
    (hok : compileStrict selector = .ok chain) :
    (∀ form ∈ tree.forms,
      tree.holdsChain chain form = true ↔ ∃ node, EndsAt tree form chain.terms node) ∧
    (((∀ form, tree.findForm selector = .ok form ↔
          tree.forms.find? (tree.holdsChain chain) = some form) ∧
        (tree.findForm selector = .error (.formNotFound selector) ↔
          ∀ form ∈ tree.forms, ¬ ∃ node, EndsAt tree form chain.terms node)) ↔
      ∀ form, tree.forms.find? (tree.holdsFirstTerm chain) = some form →
        ∃ node, EndsAt tree form chain.terms node) := by
  have hlt := forms_lt tree
  have hiff : ∀ form ∈ tree.forms,
      tree.holdsChain chain form = true ↔ ∃ node, EndsAt tree form chain.terms node :=
    fun form hf => holdsChain_iff h.linked (hlt form hf)
  have hnone : (∀ form ∈ tree.forms, ¬ ∃ node, EndsAt tree form chain.terms node) ↔
      tree.forms.find? (tree.holdsChain chain) = none := by
    rw [List.find?_eq_none]
    exact forall₂_congr fun form hf => not_congr (hiff form hf).symm
  have hagree : (tree.forms.find? (tree.holdsChain chain) =
        tree.forms.find? (tree.holdsFirstTerm chain)) ↔
      ∀ form, tree.forms.find? (tree.holdsFirstTerm chain) = some form →
        ∃ node, EndsAt tree form chain.terms node := by
    rw [find?_eq_find?_iff fun form hf => holdsFirstTerm_of_holdsChain h.linked (hlt form hf)]
    refine forall₂_congr fun form hf => ?_
    exact hiff form (List.mem_of_find?_eq_some hf)
  refine ⟨hiff, ?_⟩
  rw [← hagree, hnone, findForm_eq h.linked hok]
  -- what is left compares the form that is answered with the documented one
  cases tree.forms.find? (tree.holdsFirstTerm chain) with
  | none =>
    constructor
    · intro hboth
      exact hboth.2.mp rfl
    · intro hc
      rw [hc]
      exact ⟨fun form => iff_of_false nofun nofun, iff_of_true rfl rfl⟩
  | some found =>
    constructor
    · intro hboth
      exact (hboth.1 found).mp rfl
    · intro hc
      rw [hc]
      refine ⟨fun form => ⟨?_, ?_⟩, iff_of_false nofun nofun⟩
      · intro hf
        exact congrArg some (Except.ok.inj hf)
      · intro hf
        exact congrArg Except.ok (Option.some.inj hf)

/-- Two forms with a division each; only the second one has a paragraph in it. -/
def divisionForms : Tree :=
  ((((Tree.initial.addChild 0 (.element ⟨"form", []⟩)).addChild 1
    (.element ⟨"div", []⟩)).addChild 0 (.element ⟨"form", []⟩)).addChild 3
      (.element ⟨"div", []⟩)).addChild 4 (.element ⟨"p", []⟩)

theorem wellBuilt_divisionForms : divisionForms.WellBuilt :=
  ((((Tree.WellBuilt.initial.addChild (by decide) _).addChild (by decide) _).addChild
    (by decide) _).addChild (by decide) _).addChild (by decide) _

theorem compileStrict_division_paragraph :
    compileStrict "div p" = .ok ⟨[.ofName "div", .ofName "p"]⟩ := by
  rfl

theorem findForm_finds_chain_iff_divisionForms :
    divisionForms.WellBuilt ∧ compileStrict "div p" = .ok ⟨[.ofName "div", .ofName "p"]⟩ ∧
    divisionForms.findForm "div p" = .ok 1 ∧ divisionForms.forms = [1, 3] ∧
    (∀ form ∈ divisionForms.forms,
      divisionForms.holdsChain ⟨[.ofName "div", .ofName "p"]⟩ form = true ↔
        ∃ node, EndsAt divisionForms form [.ofName "div", .ofName "p"] node) ∧
    (((∀ form, divisionForms.findForm "div p" = .ok form ↔ divisionForms.forms.find?
          (divisionForms.holdsChain ⟨[.ofName "div", .ofName "p"]⟩) = some form) ∧
        (divisionForms.findForm "div p" = .error (.formNotFound "div p") ↔
          ∀ form ∈ divisionForms.forms,
            ¬ ∃ node, EndsAt divisionForms form [.ofName "div", .ofName "p"] node)) ↔
      ∀ form, divisionForms.forms.find?
          (divisionForms.holdsFirstTerm ⟨[.ofName "div", .ofName "p"]⟩) = some form →
        ∃ node, EndsAt divisionForms form [.ofName "div", .ofName "p"] node) :=
  ⟨wellBuilt_divisionForms, compileStrict_division_paragraph, rfl, rfl,
    findForm_finds_chain_iff wellBuilt_divisionForms compileStrict_division_paragraph⟩

/-- The form that is answered holds no match of `div p`, the other one does. -/
theorem findForm_misses_chain :
    divisionForms.WellBuilt ∧ compileStrict "div p" = .ok ⟨[.ofName "div", .ofName "p"]⟩ ∧
      divisionForms.findForm "div p" = .ok 1 ∧
      divisionForms.findAllFrom 1 ⟨[.ofName "div", .ofName "p"]⟩ .strict =
        .ok ⟨divisionForms, []⟩ ∧
      divisionForms.forms.find? (divisionForms.holdsChain ⟨[.ofName "div", .ofName "p"]⟩) =
        some 3 :=
  ⟨wellBuilt_divisionForms, compileStrict_division_paragraph, rfl, rfl, rfl⟩

/-! ## What the lookup decides -/

/-- The node is a form with a match of the term at or below it. -/
def HoldsTerm (tree : Tree) (term : Term) (form : NodeId) : Prop :=
  (∃ element, tree.element? form = some element ∧ element.tag = "form") ∧
    ∃ node ∈ tree.descendants form, term.matchesNode tree node = true

/-- The first node of the document, in tree order, that has the property. -/
def IsFirst (tree : Tree) (property : NodeId → Prop) (node : NodeId) : Prop :=
  ∃ before after, tree.descendants root = before ++ node :: after ∧ property node ∧
    ∀ other ∈ before, ¬ property other

theorem isForm_iff : tree.isForm form = true ↔
    ∃ element, tree.element? form = some element ∧ element.tag = "form" := by
  simp only [isForm, Option.any_eq_true, beq_iff_eq]

/-- The lookup among the forms is one among all nodes. -/
theorem find?_forms_eq_some_iff (hc : chain.terms = term :: rest) :
    tree.forms.find? (tree.holdsFirstTerm chain) = some form ↔
      tree.IsFirst (tree.HoldsTerm term) form := by
  have hholds : ∀ node, tree.isForm node = true ∧ tree.holdsFirstTerm chain node = true ↔
      tree.HoldsTerm term node := by
    intro node
    rw [isForm_iff, holdsFirstTerm, hc, List.head?_cons, Option.any_some, List.any_eq_true]
    rfl
  rw [forms, List.find?_filter, List.find?_eq_some_iff_append]
  simp only [decide_eq_true_eq, Bool.not_eq_true', decide_eq_false_iff_not, hholds]
  constructor
  · rintro ⟨hform, before, after, hsplit, hbefore⟩
    exact ⟨before, after, hsplit, hform, hbefore⟩
  · rintro ⟨before, after, hsplit, hform, hbefore⟩
    exact ⟨hform, before, after, hsplit, hbefore⟩

/-- A selector that is well-formed finds a form exactly if it has a first term and the form is the
first one that holds it. -/
theorem findForm_eq_ok_iff (h : tree.Linked) (hok : compileStrict selector = .ok chain) :
    tree.findForm selector = .ok form ↔
      ∃ term rest, chain.terms = term :: rest ∧ tree.IsFirst (tree.HoldsTerm term) form := by
  have hfind : tree.findForm selector = .ok form ↔
      tree.forms.find? (tree.holdsFirstTerm chain) = some form := by
    rw [findForm_eq h hok]
    cases tree.forms.find? (tree.holdsFirstTerm chain) <;> simp
  rw [hfind]
  cases hc : chain.terms with
  | nil =>
    -- without terms no form is asked for
    have hnone : tree.forms.find? (tree.holdsFirstTerm chain) = none := by
      refine List.find?_eq_none.mpr fun other _ => ?_
      simp [holdsFirstTerm, hc]
    rw [hnone]
    exact iff_of_false nofun nofun
  | cons term rest =>
    rw [find?_forms_eq_some_iff hc]
    constructor
    · intro hfirst
      exact ⟨term, rest, rfl, hfirst⟩
    · rintro ⟨_, _, hcons, hfirst⟩
      obtain ⟨rfl, -⟩ := List.cons.inj hcons
      exact hfirst

/-- **What form lookup decides.** A malformed selector is the error. Any other one finds the first
form of the document that has a node matching the first term at or below it, and no form if there is
none or no term; the rest of the chain does not count. -/
theorem findForm_decides (h : tree.WellBuilt) (selector : String) :
    (∀ error, compileStrict selector = .error error →
      tree.findForm selector = .error (.malformed error)) ∧
    (∀ id, tree.findForm selector ≠ .error (.nodeNotInTree id)) ∧
    ∀ chain, compileStrict selector = .ok chain → chain = compile selector ∧
      (∀ form, tree.findForm selector = .ok form ↔
        ∃ term rest, chain.terms = term :: rest ∧ tree.IsFirst (tree.HoldsTerm term) form) ∧
      (tree.findForm selector = .error (.formNotFound selector) ↔
        ¬ ∃ form term rest, chain.terms = term :: rest ∧
          tree.IsFirst (tree.HoldsTerm term) form) ∧
      ∀ other otherChain, compileStrict other = .ok otherChain →
        otherChain.terms.head? = chain.terms.head? →
        ∀ form, tree.findForm other = .ok form ↔ tree.findForm selector = .ok form := by
  have hmalformed : ∀ error, compileStrict selector = .error error →
      tree.findForm selector = .error (.malformed error) := by
    intro error herror
    rw [findForm, herror]
  refine ⟨hmalformed, fun id hno => ?_, fun chain hok => ⟨?_, ?_, ?_, ?_⟩⟩
  · cases hc : compileStrict selector with
    | error error => cases (hmalformed error hc).symm.trans hno
    | ok chain => cases eq_formNotFound_of_findForm h.linked hc hno
  · exact (compileStrictWith_eq_ok_iff.mp hok).2.symm
  · exact fun form => findForm_eq_ok_iff h.linked hok
  · rw [← not_congr (exists_congr fun form => findForm_eq_ok_iff h.linked hok)]
    cases hf : tree.findForm selector with
    | ok form => simp
    | error error => simp [eq_formNotFound_of_findForm h.linked hok hf]
  · intro other otherChain hother hhead form
    rw [findForm_eq_ok_iff h.linked hother, findForm_eq_ok_iff h.linked hok]
    refine exists_congr fun term => ?_
    simp only [exists_and_right, ← List.head?_eq_some_iff]
    rw [hhead]

/-- The first form has a division, so it is found by `div p` as it is by `div`. -/
theorem findForm_decides_divisionForms :
    divisionForms.WellBuilt ∧ compileStrict "div p" = .ok ⟨[.ofName "div", .ofName "p"]⟩ ∧
      compileStrict "div" = .ok ⟨[.ofName "div"]⟩ ∧
      divisionForms.IsFirst (divisionForms.HoldsTerm (.ofName "div")) 1 ∧
      divisionForms.findForm "div p" = .ok 1 ∧ divisionForms.findForm "div" = .ok 1 := by
  have hfirst : divisionForms.IsFirst (divisionForms.HoldsTerm (.ofName "div")) 1 := by
    refine ⟨[0], [2, 3, 4, 5], rfl, ⟨⟨⟨"form", []⟩, rfl, rfl⟩, 2, by decide, rfl⟩, ?_⟩
    rintro other hmem ⟨⟨element, helement, -⟩, -⟩
    obtain rfl := List.mem_singleton.mp hmem
    cases helement
  have hname : compileStrict "div" = .ok ⟨[.ofName "div"]⟩ := rfl
  obtain ⟨-, -, hdecides⟩ := findForm_decides wellBuilt_divisionForms "div p"
  obtain ⟨-, hfinds, -, hsame⟩ := hdecides _ compileStrict_division_paragraph
  have hfound : divisionForms.findForm "div p" = .ok 1 := (hfinds 1).mpr ⟨_, _, rfl, hfirst⟩
  exact ⟨wellBuilt_divisionForms, compileStrict_division_paragraph, hname, hfirst, hfound,
    (hsame "div" _ hname rfl 1).mpr hfound⟩

end Tree

end DomSelect
