import Mathlib.Data.List.Basic

/-!
# `MizanConnect.Lib.PrefixCode`: texts with one reading

A code writes each value as a text. It is `PrefixFree` when no code word starts
another, and then a run of words up to a closing symbol is read back
(`PrefixFree.flatMap_append`). Where the end of a word depends on what follows,
`Readable` says at which rests it can be found; `tail_append` and
`body_append` are the lists of such words, with a separator between them and a
closing symbol.
-/

set_option autoImplicit false

namespace PrefixCode

variable {α σ : Type}

/-- The text starts, and not with `close`. -/
def Avoids (close : σ) (word : List σ) : Prop := ∃ c rest, word = c :: rest ∧ c ≠ close

theorem Avoids.append_ne {close : σ} {word : List σ} (h : Avoids close word) (r r' : List σ) :
    word ++ r ≠ close :: r' := by
  obtain ⟨c, rest, rfl, hc⟩ := h
  intro heq
  cases heq
  exact hc rfl

/-! ### Words that end by themselves -/

/-- No code word starts another one. -/
def PrefixFree (code : α → List σ) : Prop := ∀ a b, code a <+: code b → a = b

section
variable {code : α → List σ} (hfree : PrefixFree code)
include hfree

theorem PrefixFree.append {a b : α} {r r' : List σ} (h : code a ++ r = code b ++ r') :
    a = b ∧ r = r' := by
  have hab : a = b := by
    cases List.append_eq_append_iff.mp h with
    | inl hlonger =>
      obtain ⟨s, hs, -⟩ := hlonger
      exact hfree a b ⟨s, hs.symm⟩
    | inr hlonger =>
      obtain ⟨s, hs, -⟩ := hlonger
      exact (hfree b a ⟨s, hs.symm⟩).symm
  subst hab
  exact ⟨rfl, List.append_cancel_left h⟩

/-- Words one after the other, up to `close`. -/
theorem PrefixFree.flatMap_append {close : σ} (hclose : ∀ a, Avoids close (code a))
    {as bs : List α} {r r' : List σ}
    (h : as.flatMap code ++ close :: r = bs.flatMap code ++ close :: r') : as = bs ∧ r = r' := by
  induction as generalizing bs with
  | nil =>
    cases bs with
    | nil =>
      cases h
      exact ⟨rfl, rfl⟩
    | cons b bs =>
      rw [List.flatMap_cons, List.append_assoc] at h
      exact absurd h.symm ((hclose b).append_ne _ _)
  | cons a as ih =>
    cases bs with
    | nil =>
      rw [List.flatMap_cons, List.append_assoc] at h
      exact absurd h ((hclose a).append_ne _ _)
    | cons b bs =>
      rw [List.flatMap_cons, List.flatMap_cons, List.append_assoc, List.append_assoc] at h
      obtain ⟨rfl, hrest⟩ := hfree.append h
      obtain ⟨rfl, hr⟩ := ih hrest
      exact ⟨rfl, hr⟩

end

/-! ### Words that end at a delimiter -/

/-- Before a rest that `stops`, the word of `a` is read as that of no other
valid value. -/
def Readable (code : α → List σ) (valid : α → Prop) (stops : List σ → Prop) (a : α) : Prop :=
  ∀ b, valid b → ∀ r r', stops r → stops r' → code a ++ r = code b ++ r' → a = b ∧ r = r'

/-- A separator in front of each word, and `close` at the end. -/
def tail (sep close : σ) : List (List σ) → List σ
  | [] => [close]
  | word :: words => sep :: (word ++ tail sep close words)

/-- Words with a separator between them, and `close` at the end. -/
def body (sep close : σ) : List (List σ) → List σ
  | [] => [close]
  | word :: words => word ++ tail sep close words

section
variable {code : α → List σ} {valid : α → Prop} {stops : List σ → Prop} {sep close : σ}
  (hsep : ∀ r, stops (sep :: r)) (hclose : ∀ r, stops (close :: r)) (hne : sep ≠ close)
include hsep hclose

/-- A tail starts with one of the delimiters. -/
theorem stops_tail (words : List (List σ)) (r : List σ) :
    stops (tail sep close words ++ r) := by
  cases words with
  | nil => exact hclose r
  | cons word words => exact hsep _

include hne

theorem tail_append {as bs : List α} (has : ∀ a ∈ as, Readable code valid stops a)
    (hbs : ∀ b ∈ bs, valid b) {r r' : List σ}
    (h : tail sep close (as.map code) ++ r = tail sep close (bs.map code) ++ r') :
    as = bs ∧ r = r' := by
  induction as generalizing bs with
  | nil =>
    cases bs with
    | nil =>
      cases h
      exact ⟨rfl, rfl⟩
    | cons b bs =>
      cases h
      exact absurd rfl hne
  | cons a as ih =>
    cases bs with
    | nil =>
      cases h
      exact absurd rfl hne
    | cons b bs =>
      have hword := List.tail_eq_of_cons_eq h
      simp only [List.append_eq, List.append_assoc] at hword
      obtain ⟨rfl, hrest⟩ := has a List.mem_cons_self b (hbs b List.mem_cons_self) _ _
        (stops_tail hsep hclose _ r) (stops_tail hsep hclose _ r') hword
      obtain ⟨rfl, hr⟩ := ih (fun a' ha' => has a' (List.mem_cons_of_mem _ ha'))
        (fun b' hb' => hbs b' (List.mem_cons_of_mem _ hb')) hrest
      exact ⟨rfl, hr⟩

/-- The first word has no separator in front of it; it must not start like the
end of the list. -/
theorem body_append {as bs : List α} (has : ∀ a ∈ as, Readable code valid stops a)
    (hbs : ∀ b ∈ bs, valid b) (hastart : ∀ a ∈ as, Avoids close (code a))
    (hbstart : ∀ b ∈ bs, Avoids close (code b)) {r r' : List σ}
    (h : body sep close (as.map code) ++ r = body sep close (bs.map code) ++ r') :
    as = bs ∧ r = r' := by
  cases as with
  | nil =>
    cases bs with
    | nil =>
      cases h
      exact ⟨rfl, rfl⟩
    | cons b bs =>
      rw [List.map_cons, body, List.append_assoc] at h
      exact absurd h.symm ((hbstart b List.mem_cons_self).append_ne _ _)
  | cons a as =>
    cases bs with
    | nil =>
      rw [List.map_cons, body, List.append_assoc] at h
      exact absurd h ((hastart a List.mem_cons_self).append_ne _ _)
    | cons b bs =>
      rw [List.map_cons, List.map_cons, body, body, List.append_assoc, List.append_assoc] at h
      obtain ⟨rfl, hrest⟩ := has a List.mem_cons_self b (hbs b List.mem_cons_self) _ _
        (stops_tail hsep hclose _ r) (stops_tail hsep hclose _ r') h
      obtain ⟨rfl, hr⟩ := tail_append hsep hclose hne
        (fun a' ha' => has a' (List.mem_cons_of_mem _ ha'))
        (fun b' hb' => hbs b' (List.mem_cons_of_mem _ hb')) hrest
      exact ⟨rfl, hr⟩

end

end PrefixCode
