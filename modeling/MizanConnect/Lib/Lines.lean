import Mathlib.Data.List.Basic

/-!
# `MizanConnect.Lib.Lines`: cutting a sequence at its line ends

`takeLines isEnd xs` is the list of complete lines of `xs`, without their
ends, and what follows the last end. A reader that gets `xs` in pieces keeps
the second part and puts the next piece behind it. `takeLines_append` shows
that it sees the same lines.

`linesInduction` is the induction over the lines of a sequence.
-/

set_option autoImplicit false

namespace Lines

variable {α : Type} {isEnd : α → Bool}

/-- The complete lines, and the rest. -/
def takeLines (isEnd : α → Bool) : List α → List (List α) × List α
  | [] => ([], [])
  | x :: xs =>
    if isEnd x then ([] :: (takeLines isEnd xs).1, (takeLines isEnd xs).2)
    else
      match (takeLines isEnd xs).1 with
      | [] => ([], x :: (takeLines isEnd xs).2)
      | line :: lines => ((x :: line) :: lines, (takeLines isEnd xs).2)

/-- A sequence without an end has no complete line. -/
theorem takeLines_rest {xs : List α} (h : ∀ x ∈ xs, isEnd x = false) :
    takeLines isEnd xs = ([], xs) := by
  induction xs with
  | nil => rfl
  | cons x xs ih =>
    have hx := h x List.mem_cons_self
    have hxs := ih fun y hy => h y (List.mem_cons_of_mem x hy)
    simp [takeLines, hx, hxs]

/-- The first line, and the lines behind it. -/
theorem takeLines_line {line xs : List α} {x : α} (h : ∀ y ∈ line, isEnd y = false)
    (hx : isEnd x = true) :
    takeLines isEnd (line ++ x :: xs)
      = (line :: (takeLines isEnd xs).1, (takeLines isEnd xs).2) := by
  induction line with
  | nil => simp [takeLines, hx]
  | cons y line ih =>
    have hy := h y List.mem_cons_self
    have hline := ih fun z hz => h z (List.mem_cons_of_mem y hz)
    simp [takeLines, hy, hline]

/-- Every sequence is a rest, or a line and a sequence behind it. -/
theorem linesInduction (isEnd : α → Bool) {P : List α → Prop}
    (hrest : ∀ xs, (∀ x ∈ xs, isEnd x = false) → P xs)
    (hline : ∀ line x xs, (∀ y ∈ line, isEnd y = false) → isEnd x = true → P xs →
      P (line ++ x :: xs))
    (xs : List α) : P xs := by
  -- Peel one element at a time, with the line read so far in front.
  suffices hgen : ∀ xs line, (∀ y ∈ line, isEnd y = false) → P (line ++ xs) from by
    simpa using hgen xs [] (by simp)
  intro xs
  induction xs with
  | nil =>
    intro line hl
    rw [List.append_nil]
    exact hrest line hl
  | cons x xs ih =>
    intro line hl
    cases hx : isEnd x with
    | true => exact hline line x xs hl hx (ih [] (by simp))
    | false =>
      have hl' : ∀ y ∈ line ++ [x], isEnd y = false := by
        intro y hy
        rcases List.mem_append.mp hy with hy | hy
        · exact hl y hy
        · rw [List.mem_singleton.mp hy, hx]
      simpa using ih (line ++ [x]) hl'

/-- Reading in pieces: the rest goes in front of the next piece. -/
theorem takeLines_append (xs ys : List α) :
    takeLines isEnd (xs ++ ys)
      = ((takeLines isEnd xs).1 ++ (takeLines isEnd ((takeLines isEnd xs).2 ++ ys)).1,
        (takeLines isEnd ((takeLines isEnd xs).2 ++ ys)).2) := by
  induction xs using linesInduction isEnd with
  | hrest xs h => simp [takeLines_rest h]
  | hline line x xs h hx ih =>
    rw [List.append_assoc, List.cons_append, takeLines_line h hx, takeLines_line h hx, ih]
    rfl

/-- Relabelling the elements relabels the lines. -/
theorem takeLines_map {β : Type} (f : β → α) (xs : List β) :
    takeLines isEnd (xs.map f)
      = ((takeLines (fun x => isEnd (f x)) xs).1.map (List.map f),
        (takeLines (fun x => isEnd (f x)) xs).2.map f) := by
  induction xs with
  | nil => rfl
  | cons x xs ih =>
    simp only [List.map_cons, takeLines, ih]
    split
    · rfl
    · cases (takeLines (fun x => isEnd (f x)) xs).1 <;> rfl

/-- The rest holds no end. -/
theorem not_end_of_mem_rest {xs : List α} : ∀ x ∈ (takeLines isEnd xs).2, isEnd x = false := by
  induction xs using linesInduction isEnd with
  | hrest xs h =>
    rw [takeLines_rest h]
    exact h
  | hline l x xs h hx ih =>
    rw [takeLines_line h hx]
    exact ih

/-- A complete line holds no end. -/
theorem not_end_of_mem_lines {xs : List α} :
    ∀ line ∈ (takeLines isEnd xs).1, ∀ x ∈ line, isEnd x = false := by
  induction xs using linesInduction isEnd with
  | hrest xs h =>
    rw [takeLines_rest h]
    exact fun _ hline => nomatch hline
  | hline l x xs h hx ih =>
    rw [takeLines_line h hx]
    intro line hline
    cases List.mem_cons.mp hline with
    | inl heq => exact heq ▸ h
    | inr hmem => exact ih line hmem

/-- The elements of the lines and of the rest are those of the sequence. -/
theorem mem_of_mem_lines {xs line : List α} (hline : line ∈ (takeLines isEnd xs).1) {y : α}
    (hy : y ∈ line) : y ∈ xs := by
  induction xs using linesInduction isEnd with
  | hrest xs h =>
    rw [takeLines_rest h] at hline
    exact nomatch hline
  | hline l x xs h hx ih =>
    rw [takeLines_line h hx] at hline
    cases List.mem_cons.mp hline with
    | inl heq => exact List.mem_append_left _ (heq ▸ hy)
    | inr hmem => exact List.mem_append_right _ (List.mem_cons_of_mem x (ih hmem))

theorem mem_of_mem_rest {xs : List α} {y : α} (hy : y ∈ (takeLines isEnd xs).2) : y ∈ xs := by
  induction xs using linesInduction isEnd with
  | hrest xs h =>
    rw [takeLines_rest h] at hy
    exact hy
  | hline l x xs h hx ih =>
    rw [takeLines_line h hx] at hy
    exact List.mem_append_right _ (List.mem_cons_of_mem x (ih hy))

end Lines
