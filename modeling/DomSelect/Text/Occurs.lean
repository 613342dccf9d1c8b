/-!
# Occurrence of a text in another

`occursIn block text` decides whether `block` is a contiguous part of `text`
(`occursIn_eq_true_iff`).
-/

namespace DomSelect

/-- Whether `block` occurs somewhere in `text`. -/
def occursIn (block : List Char) : List Char → Bool
  | [] => block.isEmpty
  | c :: rest => block.isPrefixOf (c :: rest) || occursIn block rest

theorem occursIn_eq_true_iff {block text : List Char} :
    occursIn block text = true ↔ block <:+: text := by
  induction text with
  | nil => simp [occursIn]
  | cons c rest ih => simp [occursIn, ih, List.infix_cons_iff]

end DomSelect
