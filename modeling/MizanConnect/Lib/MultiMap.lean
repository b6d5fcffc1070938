import Mathlib.Data.List.Basic

/-!
# `MizanConnect.Lib.MultiMap`: maps with several values for a key

`insert` leaves one value for its key, `append` adds one, and `extend` inserts
the entries of a list in order. A key is read with `getAll`, so the order of the
entries of different keys does not show.
-/

set_option autoImplicit false

/-- A map with several values for a key. -/
abbrev MultiMap (κ ν : Type) := List (κ × ν)

namespace MultiMap

variable {κ ν : Type} [DecidableEq κ]

/-- The values of a key, in order. -/
def getAll (m : MultiMap κ ν) (k : κ) : List ν := (m.filter fun e => e.1 = k).map Prod.snd

/-- The first value of a key. -/
def get? (m : MultiMap κ ν) (k : κ) : Option ν := (m.getAll k).head?

/-- The value replaces those of its key. -/
def insert (m : MultiMap κ ν) (k : κ) (v : ν) : MultiMap κ ν :=
  (k, v) :: m.filter fun e => e.1 ≠ k

/-- The value comes after those of its key. -/
def append (m : MultiMap κ ν) (k : κ) (v : ν) : MultiMap κ ν := m ++ [(k, v)]

/-- The entries of a list, inserted in order. -/
def extend (m : MultiMap κ ν) (entries : List (κ × ν)) : MultiMap κ ν :=
  entries.foldl (fun m e => m.insert e.1 e.2) m

variable {m : MultiMap κ ν} {k k' : κ} {v : ν}

@[simp] theorem getAll_nil : getAll ([] : MultiMap κ ν) k = [] := rfl

theorem getAll_insert_of_ne (h : k' ≠ k) : (m.insert k v).getAll k' = m.getAll k' := by
  have hskip : ((m.filter fun e => e.1 ≠ k).filter fun e => e.1 = k') =
      m.filter fun e => e.1 = k' := by
    rw [List.filter_filter]
    refine List.filter_congr fun e _ => ?_
    by_cases he : e.1 = k'
    · simp [he, h]
    · simp [he]
  rw [getAll, insert, List.filter_cons_of_neg (by simpa using Ne.symm h), hskip, getAll]

end MultiMap
