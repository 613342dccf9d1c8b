import DomSelect.Proofs.Tree.Leaps
import Mathlib.Data.Finset.Card
import Mathlib.Tactic.Ring

/-!
# Finite unfoldings

`Unfolds expand entries order` says that visiting `entries`, each of them followed by all it expands
to, comes to an end, and that `order` is the list of visits.

An unfolding that ends has no entry twice on a path from its start (`Unfolds.not_mem_below`). Its
length is thus bounded by the number of its entries and by the breadth of the expansion
(`Unfolds.length_le`), and the limit of a traversal is never reached (`Unfolds.order_eq`).
-/

namespace DomSelect.Preorder

variable {α : Type}

/-- The visits of `entries` and of all they expand to end, and they make up the second list. -/
inductive Unfolds (expand : α → List α) : List α → List α → Prop
  | nil : Unfolds expand [] []
  | cons {entry : α} {rest below after : List α} (hbelow : Unfolds expand (expand entry) below)
      (hafter : Unfolds expand rest after) :
      Unfolds expand (entry :: rest) (entry :: (below ++ after))

namespace Unfolds

variable {expand : α → List α} {entries others order visits : List α} {entry : α}

/-! ## Composition -/

theorem append (h : Unfolds expand entries order) (h' : Unfolds expand others visits) :
    Unfolds expand (entries ++ others) (order ++ visits) := by
  induction h with
  | nil => exact h'
  | cons hbelow _ _ ih =>
    rw [List.cons_append, List.cons_append, List.append_assoc]
    exact cons hbelow ih

theorem singleton (h : Unfolds expand (expand entry) order) :
    Unfolds expand [entry] (entry :: order) := by
  have := cons h nil
  rwa [List.append_nil] at this

theorem flatMap {f : α → List α} (h : ∀ entry ∈ entries, Unfolds expand [entry] (f entry)) :
    Unfolds expand entries (entries.flatMap f) := by
  induction entries with
  | nil => exact nil
  | cons entry rest ih =>
    rw [List.flatMap_cons]
    exact append (h entry List.mem_cons_self) (ih fun e he => h e (List.mem_cons_of_mem _ he))

theorem unique (h : Unfolds expand entries order) (h' : Unfolds expand entries visits) :
    order = visits := by
  induction h generalizing visits with
  | nil => cases h'; rfl
  | cons _ _ ihbelow ihafter =>
    cases h' with
    | cons hbelow hafter => rw [ihbelow hbelow, ihafter hafter]

theorem exists_of_forall (h : ∀ entry ∈ entries, ∃ visits, Unfolds expand [entry] visits) :
    ∃ order, Unfolds expand entries order := by
  induction entries with
  | nil => exact ⟨[], nil⟩
  | cons entry rest ih =>
    obtain ⟨visits, hv⟩ := h entry List.mem_cons_self
    obtain ⟨order, ho⟩ := ih fun e he => h e (List.mem_cons_of_mem _ he)
    exact ⟨visits ++ order, hv.append ho⟩

/-- What holds of the entries and passes to what they expand to holds of all that is visited. -/
theorem forall_mem {motive : α → Prop} (h : Unfolds expand entries order)
    (start : ∀ e ∈ entries, motive e) (step : ∀ e, motive e → ∀ e' ∈ expand e, motive e') :
    ∀ e ∈ order, motive e := by
  induction h with
  | nil => exact start
  | @cons first rest below after _ _ ihbelow ihafter =>
    have hfirst := start first List.mem_cons_self
    intro e he
    rcases List.mem_cons.mp he with rfl | he
    · exact hfirst
    · rcases List.mem_append.mp he with he | he
      · exact ihbelow (step first hfirst) e he
      · exact ihafter (fun e' he' => start e' (List.mem_cons_of_mem _ he')) e he

theorem subset (h : Unfolds expand entries order) : entries ⊆ order := by
  induction h with
  | nil => exact List.Subset.refl _
  | cons _ _ _ ih =>
    exact List.cons_subset_cons _ (List.subset_append_of_subset_right _ ih)

/-- Whatever an entry expands to is visited if the entry is. -/
theorem mem_of_mem_expand (h : Unfolds expand entries order) {below : α} (he : entry ∈ order)
    (hb : below ∈ expand entry) : below ∈ order := by
  induction h with
  | nil => exact absurd he List.not_mem_nil
  | cons hbelow _ ihbelow ihafter =>
    refine List.mem_cons_of_mem _ (List.mem_append.mpr ?_)
    rcases List.mem_cons.mp he with rfl | he
    · exact .inl (hbelow.subset hb)
    · exact (List.mem_append.mp he).imp ihbelow ihafter

theorem congr {expand' : α → List α} (h : Unfolds expand entries order)
    (heq : ∀ e ∈ order, expand' e = expand e) : Unfolds expand' entries order := by
  induction h with
  | nil => exact nil
  | cons hbelow _ ihbelow ihafter =>
    obtain ⟨hfirst, hrest⟩ := List.forall_mem_cons.mp heq
    obtain ⟨hbelow', hafter'⟩ := List.forall_mem_append.mp hrest
    refine cons ?_ (ihafter hafter')
    rw [hfirst]
    exact ihbelow hbelow'

/-- Entries that stand for others, and expand to nothing or to entries that stand for what the others
expand to, unfold like these. -/
theorem exists_lift {β : Type} {expand' : β → List β} (h : Unfolds expand entries order)
    (standsFor : β → α)
    (hexpand : ∀ e, expand' e = [] ∨ (expand' e).map standsFor = expand (standsFor e))
    (entries' : List β) (he : entries'.map standsFor = entries) :
    ∃ order', Unfolds expand' entries' order' ∧ (order'.map standsFor).Sublist order := by
  induction h generalizing entries' with
  | nil =>
    obtain rfl := List.map_eq_nil_iff.mp he
    exact ⟨[], nil, List.Sublist.refl _⟩
  | @cons first rest below after _ _ ihbelow ihafter =>
    obtain ⟨first', rest', rfl, rfl, hrest⟩ := List.map_eq_cons_iff.mp he
    obtain ⟨after', hafter, hin⟩ := ihafter _ hrest
    have hbelow : ∃ below', Unfolds expand' (expand' first') below' ∧
        (below'.map standsFor).Sublist below := by
      rcases hexpand first' with hnil | hsame
      · rw [hnil]
        exact ⟨[], nil, List.nil_sublist _⟩
      · exact ihbelow _ hsame
    obtain ⟨below', hbelow, hinBelow⟩ := hbelow
    refine ⟨_, cons hbelow hafter, ?_⟩
    rw [List.map_cons, List.map_append]
    exact (hinBelow.append hin).cons_cons _

/-- Entries that stand for others, and expand to those that stand for what the others expand to, are
visited in the same order. -/
theorem map {β : Type} {expand' : β → List β} {entries' order' : List β}
    (h : Unfolds expand' entries' order') (standsFor : β → α)
    (hexpand : ∀ e, (expand' e).map standsFor = expand (standsFor e)) :
    Unfolds expand (entries'.map standsFor) (order'.map standsFor) := by
  induction h with
  | nil => exact nil
  | @cons first rest below after _ _ ihbelow ihafter =>
    rw [hexpand] at ihbelow
    rw [List.map_cons, List.map_cons, List.map_append]
    exact cons ihbelow ihafter

/-! ## Size -/

/-- Whatever is visited unfolds by itself, to no more than the whole. -/
theorem exists_of_mem (h : Unfolds expand entries order) (he : entry ∈ order) :
    ∃ visits, Unfolds expand [entry] visits ∧ visits.length ≤ order.length := by
  induction h with
  | nil => exact absurd he List.not_mem_nil
  | @cons first rest below after hbelow _ ihbelow ihafter =>
    rw [List.length_cons, List.length_append]
    rcases List.mem_cons.mp he with rfl | he
    · exact ⟨_, singleton hbelow, by rw [List.length_cons]; omega⟩
    · rcases List.mem_append.mp he with he | he
      · obtain ⟨visits, hv, hl⟩ := ihbelow he
        exact ⟨visits, hv, by omega⟩
      · obtain ⟨visits, hv, hl⟩ := ihafter he
        exact ⟨visits, hv, by omega⟩

/-- No entry is met again below itself: its unfolding would be longer than itself. -/
theorem not_mem_below (h : Unfolds expand (expand entry) order) : entry ∉ order := by
  intro he
  obtain ⟨visits, hv, hl⟩ := exists_of_mem h he
  rw [hv.unique (singleton h), List.length_cons] at hl
  omega

theorem length_le [DecidableEq α] {breadth : Nat} (h : Unfolds expand entries order)
    (hb : ∀ e ∈ order, (expand e).length ≤ breadth) (among : Finset α)
    (ha : ∀ e ∈ order, e ∈ among) :
    order.length ≤ entries.length * (breadth + 1) ^ among.card := by
  induction h generalizing among with
  | nil => exact Nat.zero_le _
  | @cons first rest below after hbelow _ ihbelow ihafter =>
    have hfirst : first ∈ among := ha first List.mem_cons_self
    have hcard : among.card = (among.erase first).card + 1 :=
      (Finset.card_erase_add_one hfirst).symm
    -- below the first entry it is not met again, so one entry fewer is left
    have h1 : below.length ≤ breadth * (breadth + 1) ^ (among.erase first).card := by
      have hle := ihbelow (fun e he => hb e (by simp [he])) (among.erase first) fun e he =>
        Finset.mem_erase.mpr ⟨fun heq => not_mem_below hbelow (heq ▸ he), ha e (by simp [he])⟩
      exact hle.trans (Nat.mul_le_mul_right _ (hb first List.mem_cons_self))
    have h2 := ihafter (fun e he => hb e (by simp [he])) among fun e he => ha e (by simp [he])
    have h3 : 1 ≤ (breadth + 1) ^ (among.erase first).card := Nat.one_le_pow _ _ (by omega)
    rw [List.length_cons, List.length_append, List.length_cons]
    calc below.length + after.length + 1
        ≤ breadth * (breadth + 1) ^ (among.erase first).card +
            rest.length * (breadth + 1) ^ among.card +
              (breadth + 1) ^ (among.erase first).card := by
          omega
      _ = (rest.length + 1) * (breadth + 1) ^ among.card := by rw [hcard]; ring

/-! ## Traversals -/

/-- What is pending in front is visited with all it expands to, and then the others are pending. -/
theorem steps_append (h : Unfolds expand entries order) (n : Nat) (pending visited : List α) :
    Traversal.steps expand (order.length + n) ⟨entries ++ pending, visited⟩ =
      Traversal.steps expand n ⟨pending, order.reverse ++ visited⟩ := by
  induction h generalizing n pending visited with
  | nil => rw [List.length_nil, Nat.zero_add]; rfl
  | @cons first rest below after _ _ ihbelow ihafter =>
    have hl : (first :: (below ++ after)).length + n =
        below.length + (after.length + n) + 1 := by
      rw [List.length_cons, List.length_append]
      omega
    calc Traversal.steps expand ((first :: (below ++ after)).length + n)
          ⟨first :: rest ++ pending, visited⟩
        = Traversal.steps expand (below.length + (after.length + n))
            ⟨expand first ++ (rest ++ pending), first :: visited⟩ := by rw [hl]; rfl
      _ = Traversal.steps expand n
            ⟨pending, after.reverse ++ (below.reverse ++ first :: visited)⟩ := by
          rw [ihbelow, ihafter]
      _ = Traversal.steps expand n ⟨pending, (first :: (below ++ after)).reverse ++ visited⟩ := by
          simp

/-- After a step for each visit nothing is pending any more. -/
theorem steps_eq (h : Unfolds expand entries order) {limit : Nat} (hl : order.length ≤ limit) :
    Traversal.steps expand limit ⟨entries, []⟩ = ⟨[], order.reverse⟩ := by
  have hsteps := h.steps_append (limit - order.length) [] []
  rw [Nat.add_sub_cancel' hl, List.append_nil, List.append_nil] at hsteps
  exact hsteps.trans (Traversal.steps_of_done rfl _)

theorem visit_eq (h : Unfolds expand entries order) {limit : Nat} (hl : order.length ≤ limit) :
    visit expand limit entries = order := by
  have hvisited := @Traversal.visited_steps _ expand limit ⟨entries, []⟩
  rw [h.steps_eq hl, List.append_nil] at hvisited
  exact (List.reverse_injective hvisited).symm

/-- So many steps make so many visits, in order, as long as there are any. -/
theorem visited_steps_eq (h : Unfolds expand entries order) (n : Nat) :
    (Traversal.steps expand n ⟨entries, []⟩).visited = (order.take n).reverse := by
  have hvisit : visit expand (n + order.length) entries = order :=
    h.visit_eq (Nat.le_add_left ..)
  rw [Traversal.visited_steps]
  dsimp only
  rw [← take_visit expand n order.length, hvisit, List.append_nil]

/-- A traversal whose limit is made for the entries of the unfolding visits all of it. -/
theorem order_eq [DecidableEq α] {depth breadth : Nat} (h : Unfolds expand [entry] order)
    (hb : ∀ e ∈ order, (expand e).length ≤ breadth) (among : Finset α)
    (ha : ∀ e ∈ order, e ∈ among) (hc : among.card ≤ depth) :
    Preorder.order expand (leapLimit depth breadth) entry = order := by
  have hlen := h.length_le hb among ha
  rw [List.length_singleton, Nat.one_mul] at hlen
  have hpow : (breadth + 1) ^ among.card ≤ 2 ^ (breadth * depth) :=
    calc (breadth + 1) ^ among.card ≤ (breadth + 1) ^ depth := Nat.pow_le_pow_right (by omega) hc
      _ ≤ (2 ^ breadth) ^ depth := Nat.pow_le_pow_left Nat.lt_two_pow_self depth
      _ = 2 ^ (breadth * depth) := (Nat.pow_mul ..).symm
  have hpos := Nat.two_pow_pos (breadth * depth)
  rw [order_eq_visit, leapLimit, Nat.pow_succ]
  exact h.visit_eq (by omega)

end Unfolds

end DomSelect.Preorder
