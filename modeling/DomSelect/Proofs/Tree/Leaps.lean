import DomSelect.Tree.Preorder
import Mathlib.Algebra.Group.Nat.Even

/-!
# Leaps as steps

A leap of a traversal is a power of two of its steps, and leaps one after the other make one step
less than the next power (`Traversal.leaps_eq_steps`). `visit` is the order with the limit as a
plain number, and `order_eq_visit` says that leaps do not change it.
-/

namespace DomSelect.Preorder

variable {α : Type}

/-- The entries in the order in which they are visited, `limit` of them at most. -/
def visit (expand : α → List α) : Nat → List α → List α
  | 0, _ => []
  | _, [] => []
  | limit + 1, entry :: pending => entry :: visit expand limit (expand entry ++ pending)

@[simp] theorem visit_nil (expand : α → List α) (limit : Nat) : visit expand limit [] = [] := by
  cases limit <;> rfl

theorem visit_succ_cons (expand : α → List α) (limit : Nat) (entry : α) (pending : List α) :
    visit expand (limit + 1) (entry :: pending) =
      entry :: visit expand limit (expand entry ++ pending) := rfl

/-- A smaller limit breaks the same order off. -/
theorem take_visit (expand : α → List α) (n m : Nat) (pending : List α) :
    (visit expand (n + m) pending).take n = visit expand n pending := by
  induction n generalizing pending with
  | zero => rfl
  | succ n ih =>
    cases pending with
    | nil => rw [visit_nil, visit_nil, List.take_nil]
    | cons entry rest =>
      rw [Nat.add_right_comm, visit_succ_cons, visit_succ_cons, List.take_succ_cons, ih]

namespace Traversal

/-- Make `count` steps. -/
def steps (expand : α → List α) : Nat → Traversal α → Traversal α
  | 0, traversal => traversal
  | count + 1, traversal => steps expand count (traversal.step expand)

variable {expand : α → List α}

theorem steps_add (m n : Nat) (traversal : Traversal α) :
    steps expand (m + n) traversal = steps expand n (steps expand m traversal) := by
  induction m generalizing traversal with
  | zero => rw [Nat.zero_add]; rfl
  | succ m ih =>
    rw [Nat.add_right_comm]
    exact ih (traversal.step expand)

/-- A traversal with nothing pending stays as it is. -/
theorem steps_of_done {traversal : Traversal α} (h : traversal.pending.isEmpty = true) (n : Nat) :
    steps expand n traversal = traversal := by
  have hs : traversal.step expand = traversal := by
    unfold step
    rw [List.isEmpty_iff.mp h]
  induction n with
  | zero => rfl
  | succ n ih => exact (congrArg (steps expand n) hs).trans ih

theorem leap_eq_steps (k : Nat) (traversal : Traversal α) :
    leap expand k traversal = steps expand (2 ^ k) traversal := by
  induction k generalizing traversal with
  | zero => rfl
  | succ k ih =>
    unfold leap
    split
    · next h => exact (steps_of_done h _).symm
    · rw [ih, ih, ← steps_add, Nat.pow_succ, Nat.mul_two]

theorem leaps_eq_steps (count k : Nat) (traversal : Traversal α) :
    leaps expand count k traversal = steps expand (2 ^ k * (2 ^ count - 1)) traversal := by
  induction count generalizing k traversal with
  | zero => rfl
  | succ count ih =>
    unfold leaps
    split
    · next h => exact (steps_of_done h _).symm
    · have hp := Nat.two_pow_pos count
      have he : 2 ^ k + 2 ^ (k + 1) * (2 ^ count - 1) = 2 ^ k * (2 ^ (count + 1) - 1) := by
        rw [Nat.pow_succ, Nat.mul_assoc, Nat.add_comm, ← Nat.mul_add_one, Nat.pow_succ]
        congr 1
        omega
      rw [ih, leap_eq_steps, ← steps_add, he]

theorem visited_steps (n : Nat) (traversal : Traversal α) :
    (steps expand n traversal).visited =
      (visit expand n traversal.pending).reverse ++ traversal.visited := by
  induction n generalizing traversal with
  | zero => rfl
  | succ n ih =>
    obtain ⟨pending, visited⟩ := traversal
    cases pending with
    | nil => rw [steps_of_done rfl, visit_nil]; rfl
    | cons entry rest =>
      rw [visit_succ_cons, List.reverse_cons, List.append_assoc]
      exact ih _

/-- What holds of the entries pending and passes to what they expand to holds of all that become
pending. -/
theorem forall_pending_steps {motive : α → Prop}
    (hstep : ∀ entry, motive entry → ∀ below ∈ expand entry, motive below) (n : Nat)
    {traversal : Traversal α} (h : ∀ entry ∈ traversal.pending, motive entry) :
    ∀ entry ∈ (steps expand n traversal).pending, motive entry := by
  induction n generalizing traversal with
  | zero => exact h
  | succ n ih =>
    refine ih ?_
    unfold step
    split
    · exact h
    · next first rest hp =>
      rw [hp] at h
      obtain ⟨hfirst, hrest⟩ := List.forall_mem_cons.mp h
      exact List.forall_mem_append.mpr ⟨hstep first hfirst, hrest⟩

end Traversal

theorem order_eq_visit (expand : α → List α) (leaps : Nat) (start : α) :
    order expand leaps start = visit expand (2 ^ leaps - 1) [start] := by
  rw [order, Traversal.leaps_eq_steps, Traversal.visited_steps, Nat.pow_zero, Nat.one_mul,
    List.append_nil, List.reverse_reverse]

end DomSelect.Preorder
