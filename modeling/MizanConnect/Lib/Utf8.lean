import Mathlib.Data.List.Basic
import Mathlib.Tactic.Ring

/-!
# `MizanConnect.Lib.Utf8`: lossy UTF-8 decoding and where a cut shows

`decode` reads a byte sequence as UTF-8 and puts one U+FFFD for each maximal
piece that is no character (the practice of the Unicode standard, and of
Rust's `String::from_utf8_lossy`). Its state is a `Pending` multi-byte
sequence: how many bytes are missing and what the next one can be. The
fields keep the code points it can still give inside the Unicode scalar
values above ASCII.

A stream that is decoded piece by piece is a `Marked` sequence: each byte
says whether a piece starts with it. `decodeMarked` gives up the pending
sequence there. `decodeMarked_eq_iff` shows when that changes the text:
exactly when some piece starts with a byte that continues a pending
sequence (`cutInside`). The text is then longer
(`length_decode_lt_of_cutInside`), so no other difference makes up for it.

ASCII bytes stand for themselves whatever the state is
(`decodeMarked_ascii`), so every search for ASCII text gives the same answer
on the bytes and on the decoded text.
-/

set_option autoImplicit false

namespace Utf8

/-- U+FFFD. -/
def replacement : Char := Char.ofNat 0xFFFD

/-- A multi-byte sequence that is not complete. The next byte must lie in
`lo .. hi`, and `more` bytes follow that one. `acc` is the code so far. -/
structure Pending where
  more : Nat
  lo : Nat
  hi : Nat
  acc : Nat
  lo_ge : 0x80 ≤ lo
  hi_le : hi ≤ 0xBF
  code_ge : 0x80 ≤ (acc * 64 + (lo - 0x80)) * 64 ^ more
  scalar : (acc * 64 + (hi - 0x7F)) * 64 ^ more ≤ 0xD800 ∨
    0xE000 ≤ (acc * 64 + (lo - 0x80)) * 64 ^ more ∧
      (acc * 64 + (hi - 0x7F)) * 64 ^ more ≤ 0x110000

/-- The byte continues the sequence. -/
def Pending.accepts (p : Pending) (b : Nat) : Prop := p.lo ≤ b ∧ b ≤ p.hi

instance (p : Pending) (b : Nat) : Decidable (p.accepts b) :=
  inferInstanceAs (Decidable (_ ∧ _))

/-- The code after one more byte. -/
def Pending.code (p : Pending) (b : Nat) : Nat := p.acc * 64 + (b - 0x80)

/-- The sequence after an accepted byte that is not the last one. -/
def Pending.next (p : Pending) (b k : Nat) (hb : p.accepts b) (hk : p.more = k + 1) :
    Pending where
  more := k
  lo := 0x80
  hi := 0xBF
  acc := p.code b
  lo_ge := le_refl _
  hi_le := le_refl _
  code_ge := by
    have hge := p.code_ge
    rw [hk, pow_succ'] at hge
    have hmono : p.acc * 64 + (p.lo - 0x80) ≤ p.code b :=
      Nat.add_le_add_left (Nat.sub_le_sub_right hb.1 _) _
    have hmul := Nat.mul_le_mul_right (64 * 64 ^ k) hmono
    calc 0x80 ≤ p.code b * (64 * 64 ^ k) := hge.trans hmul
      _ = (p.code b * 64 + (0x80 - 0x80)) * 64 ^ k := by ring
  scalar := by
    have hscalar := p.scalar
    rw [hk, pow_succ'] at hscalar
    obtain ⟨hlo, hhi⟩ := hb
    have hlo' := Nat.mul_le_mul_right (64 * 64 ^ k)
      (Nat.add_le_add_left (Nat.sub_le_sub_right hlo 0x80) (p.acc * 64))
    have hcode : p.code b + 1 ≤ p.acc * 64 + (p.hi - 0x7F) := by
      have := p.lo_ge
      unfold Pending.code
      omega
    have hhi' := Nat.mul_le_mul_right (64 * 64 ^ k) hcode
    have hfirst : (p.code b * 64 + (0x80 - 0x80)) * 64 ^ k = p.code b * (64 * 64 ^ k) := by ring
    have hlast : (p.code b * 64 + (0xBF - 0x7F)) * 64 ^ k
        = (p.code b + 1) * (64 * 64 ^ k) := by ring
    rw [hfirst, hlast]
    rcases hscalar with h | ⟨h, h'⟩
    · exact Or.inl (hhi'.trans h)
    · exact Or.inr ⟨h.trans hlo', hhi'.trans h'⟩

/-- The sequence that a byte of a longer sequence opens. -/
def lead (b : Nat) : Option Pending :=
  if h : 0xC2 ≤ b ∧ b ≤ 0xDF then
    some ⟨0, 0x80, 0xBF, b - 0xC0, by omega, by omega, by omega, by omega⟩
  else if b = 0xE0 then
    some ⟨1, 0xA0, 0xBF, 0, by omega, by omega, by omega, by omega⟩
  else if b = 0xED then
    some ⟨1, 0x80, 0x9F, 13, by omega, by omega, by omega, by omega⟩
  else if h : 0xE1 ≤ b ∧ b ≤ 0xEF ∧ b ≠ 0xED then
    some ⟨1, 0x80, 0xBF, b - 0xE0, by omega, by omega, by omega, by omega⟩
  else if b = 0xF0 then
    some ⟨2, 0x90, 0xBF, 0, by omega, by omega, by omega, by omega⟩
  else if h : 0xF1 ≤ b ∧ b ≤ 0xF3 then
    some ⟨2, 0x80, 0xBF, b - 0xF0, by omega, by omega, by omega, by omega⟩
  else if b = 0xF4 then
    some ⟨2, 0x80, 0x8F, 4, by omega, by omega, by omega, by omega⟩
  else none

/-- A byte between two characters: the text it gives, and the state. -/
def start (b : UInt8) : List Char × Option Pending :=
  if b.toNat < 0x80 then ([Char.ofNat b.toNat], none)
  else
    match lead b.toNat with
    | some p => ([], some p)
    | none => ([replacement], none)

/-- The text of a sequence that is given up. -/
def flush : Option Pending → List Char
  | none => []
  | some _ => [replacement]

/-- One byte. -/
def step (s : Option Pending) (b : UInt8) : List Char × Option Pending :=
  match s with
  | none => start b
  | some p =>
    if h : p.accepts b.toNat then
      match hk : p.more with
      | 0 => ([Char.ofNat (p.code b.toNat)], none)
      | k + 1 => ([], some (p.next b.toNat k h hk))
    else (replacement :: (start b).1, (start b).2)

/-- The text of a byte sequence from a state on. -/
def decode : Option Pending → List UInt8 → List Char
  | s, [] => flush s
  | s, b :: bs => (step s b).1 ++ decode (step s b).2 bs

/-- `String::from_utf8_lossy`. -/
def fromUtf8Lossy (bs : List UInt8) : List Char := decode none bs

/-! ### Characters of a step -/

/-- The code of a complete sequence is a scalar value above ASCII. -/
theorem Pending.toNat_code {p : Pending} {b : Nat} (hb : p.accepts b) (hk : p.more = 0) :
    (Char.ofNat (p.code b)).toNat = p.code b ∧ 0x80 ≤ p.code b := by
  obtain ⟨hlo, hhi⟩ := hb
  have hge := p.code_ge
  have hscalar := p.scalar
  have hlo' := p.lo_ge
  rw [hk, pow_zero, Nat.mul_one] at hge hscalar
  rw [Nat.mul_one] at hscalar
  have hcode : 0x80 ≤ p.code b ∧ (p.code b < 0xD800 ∨ 0xE000 ≤ p.code b ∧ p.code b < 0x110000) := by
    unfold Pending.code
    omega
  refine ⟨?_, hcode.1⟩
  rw [Char.ofNat, dif_pos (hcode.2.imp id fun h => ⟨by omega, h.2⟩)]
  rfl

/-- A byte that a sequence accepts opens no sequence of its own. -/
theorem start_of_accepts {p : Pending} {b : UInt8} (hb : p.accepts b.toNat) :
    start b = ([replacement], none) := by
  obtain ⟨hlo, hhi⟩ := hb
  have hlo' := p.lo_ge
  have hhi' := p.hi_le
  have hlead : lead b.toNat = none := by
    unfold lead
    rw [dif_neg (by omega), if_neg (by omega), if_neg (by omega), dif_neg (by omega),
      if_neg (by omega), dif_neg (by omega), if_neg (by omega)]
  rw [start, if_neg (by omega), hlead]

/-- No sequence accepts an ASCII byte. -/
theorem Pending.not_accepts_ascii (p : Pending) {b : Nat} (hb : b < 0x80) : ¬ p.accepts b := by
  have hlo := p.lo_ge
  rintro ⟨h, -⟩
  omega

/-- An ASCII byte ends whatever is pending and stands for itself. -/
theorem step_ascii (s : Option Pending) {b : UInt8} (hb : b.toNat < 0x80) :
    step s b = (flush s ++ [Char.ofNat b.toNat], none) := by
  have hstart : start b = ([Char.ofNat b.toNat], none) := if_pos hb
  cases s with
  | none => exact hstart
  | some p => rw [step, dif_neg (p.not_accepts_ascii hb), hstart, flush, List.singleton_append]

theorem replacement_high : 0x80 ≤ replacement.toNat := by decide

/-- A byte outside ASCII gives no ASCII text. -/
theorem step_high (s : Option Pending) {b : UInt8} (hb : 0x80 ≤ b.toNat) :
    ∀ c ∈ (step s b).1, 0x80 ≤ c.toNat := by
  have hstart : ∀ c ∈ (start b).1, 0x80 ≤ c.toNat := by
    unfold start
    rw [if_neg (by omega)]
    split
    · simp
    · simpa using replacement_high
  cases s with
  | none => exact hstart
  | some p =>
    unfold step
    dsimp only
    split
    · rename_i haccepts
      split
      · rename_i hk
        obtain ⟨hnat, hge⟩ := Pending.toNat_code haccepts hk
        simpa [hnat] using hge
      · simp
    · rintro c hc
      rcases List.mem_cons.mp hc with rfl | hc
      · exact replacement_high
      · exact hstart c hc

theorem flush_high (s : Option Pending) : ∀ c ∈ flush s, 0x80 ≤ c.toNat := by
  cases s with
  | none => simp [flush]
  | some p => simpa [flush] using replacement_high

/-! ### Decoding in pieces -/

/-- A byte and whether a piece starts with it. -/
abbrev Marked := UInt8 × Bool

/-- The bytes of a stream with the starts of its pieces. -/
def mark (pieces : List (List UInt8)) : List Marked :=
  pieces.flatMap fun
    | [] => []
    | b :: bs => (b, true) :: bs.map (·, false)

/-- One byte of a stream: a new piece gives up what is pending. -/
def stepMarked (s : Option Pending) (x : Marked) : List Char × Option Pending :=
  if x.2 then (flush s ++ (start x.1).1, (start x.1).2) else step s x.1

/-- The text of a stream that is decoded piece by piece. -/
def decodeMarked : Option Pending → List Marked → List Char
  | s, [] => flush s
  | s, x :: xs => (stepMarked s x).1 ++ decodeMarked (stepMarked s x).2 xs

/-- A stream in one piece. -/
def unmarked (bs : List UInt8) : List Marked := bs.map (·, false)

theorem decodeMarked_unmarked (s : Option Pending) (bs : List UInt8) :
    decodeMarked s (unmarked bs) = decode s bs := by
  induction bs generalizing s with
  | nil => rfl
  | cons b bs ih => exact congrArg ((step s b).1 ++ ·) (ih (step s b).2)

/-- A stream whose first byte starts a piece gives up what is pending. -/
theorem decodeMarked_mark (s : Option Pending) (pieces : List (List UInt8)) :
    decodeMarked s (mark pieces) = flush s ++ pieces.flatMap fromUtf8Lossy := by
  induction pieces generalizing s with
  | nil => simp [mark, decodeMarked]
  | cons piece pieces ih =>
    have hrest : ∀ (s : Option Pending) (bs : List UInt8),
        decodeMarked s (bs.map (·, false) ++ mark pieces)
          = decode s bs ++ pieces.flatMap fromUtf8Lossy := by
      intro s bs
      induction bs generalizing s with
      | nil => exact ih s
      | cons b bs ihbs =>
        rw [List.map_cons, List.cons_append, decodeMarked, decode, List.append_assoc, ← ihbs]
        rfl
    cases piece with
    | nil => exact ih s
    | cons b bs =>
      have hmark : mark ((b :: bs) :: pieces)
          = (b, true) :: (bs.map (·, false) ++ mark pieces) := rfl
      rw [hmark, decodeMarked, stepMarked, if_pos rfl, hrest, List.flatMap_cons,
        fromUtf8Lossy, decode]
      simp only [List.append_assoc]
      rfl

@[simp] theorem map_fst_mark (pieces : List (List UInt8)) :
    (mark pieces).map Prod.fst = pieces.flatten := by
  induction pieces with
  | nil => rfl
  | cons piece pieces ih =>
    cases piece with
    | nil => exact ih
    | cons b bs =>
      have hmark : mark ((b :: bs) :: pieces)
          = (b, true) :: (bs.map (·, false) ++ mark pieces) := rfl
      simp [hmark, ih, Function.comp_def]

/-! ### ASCII in the decoded text -/

/-- An ASCII byte in a stream. -/
theorem stepMarked_ascii (s : Option Pending) {x : Marked} (hx : x.1.toNat < 0x80) :
    stepMarked s x = (flush s ++ [Char.ofNat x.1.toNat], none) := by
  unfold stepMarked
  split
  · rw [start, if_pos hx]
  · exact step_ascii s hx

/-- The text around an ASCII byte is that of the two parts. -/
theorem decodeMarked_ascii (s : Option Pending) (xs ys : List Marked) {x : Marked}
    (hx : x.1.toNat < 0x80) :
    decodeMarked s (xs ++ x :: ys)
      = decodeMarked s xs ++ Char.ofNat x.1.toNat :: decodeMarked none ys := by
  induction xs generalizing s with
  | nil =>
    rw [List.nil_append, decodeMarked, decodeMarked, stepMarked_ascii s hx]
    simp
  | cons y xs ih => rw [List.cons_append, decodeMarked, decodeMarked, ih, List.append_assoc]

/-- A byte outside ASCII in a stream gives no ASCII text. -/
theorem stepMarked_high (s : Option Pending) {x : Marked} (hx : 0x80 ≤ x.1.toNat) :
    ∀ c ∈ (stepMarked s x).1, 0x80 ≤ c.toNat := by
  unfold stepMarked
  split
  · intro c hc
    rcases List.mem_append.mp hc with hc | hc
    · exact flush_high s c hc
    · exact step_high none hx c hc
  · exact step_high s hx

/-- ASCII text comes from ASCII bytes. -/
theorem exists_of_mem_decodeMarked {s : Option Pending} {xs : List Marked} {c : Char}
    (hc : c ∈ decodeMarked s xs) (hascii : c.toNat < 0x80) :
    ∃ x ∈ xs, x.1.toNat < 0x80 ∧ c = Char.ofNat x.1.toNat := by
  induction xs generalizing s with
  | nil =>
    have hhigh := flush_high s c hc
    omega
  | cons x xs ih =>
    rw [decodeMarked, List.mem_append] at hc
    rcases hc with hc | hc
    · by_cases hx : x.1.toNat < 0x80
      · rw [stepMarked_ascii s hx] at hc
        rcases List.mem_append.mp hc with hc | hc
        · have hhigh := flush_high s c hc
          omega
        · exact ⟨x, List.mem_cons_self, hx, List.mem_singleton.mp hc⟩
      · have hhigh := stepMarked_high s (Nat.le_of_not_lt hx) c hc
        omega
    · obtain ⟨y, hy, hrest⟩ := ih hc
      exact ⟨y, List.mem_cons_of_mem x hy, hrest⟩

/-- Whatever follows a pending sequence, its text comes first. -/
theorem head_of_pending (p : Pending) (xs : List Marked) :
    ∃ c cs, decodeMarked (some p) xs = c :: cs ∧ 0x80 ≤ c.toNat := by
  induction xs generalizing p with
  | nil => exact ⟨replacement, [], rfl, replacement_high⟩
  | cons x xs ih =>
    rw [decodeMarked, stepMarked]
    split
    · exact ⟨replacement, _, rfl, replacement_high⟩
    · unfold step
      dsimp only
      split
      · rename_i haccepts
        split
        · rename_i hk
          obtain ⟨hnat, hge⟩ := Pending.toNat_code haccepts hk
          refine ⟨_, _, rfl, ?_⟩
          rw [hnat]
          exact hge
        · exact ih _
      · exact ⟨replacement, _, rfl, replacement_high⟩

/-- Text that begins with a byte outside ASCII begins with no ASCII. -/
theorem head_of_high {x : Marked} (hx : 0x80 ≤ x.1.toNat) (xs : List Marked) :
    ∃ c cs, decodeMarked none (x :: xs) = c :: cs ∧ 0x80 ≤ c.toNat := by
  have hstep : stepMarked none x = start x.1 := by
    unfold stepMarked step flush
    split <;> rfl
  rw [decodeMarked, hstep, start, if_neg (by omega)]
  cases lead x.1.toNat with
  | some p => exact head_of_pending p xs
  | none => exact ⟨replacement, _, rfl, replacement_high⟩

/-- A byte outside ASCII gives text, at once or when it is given up. -/
theorem stepMarked_gives (s : Option Pending) {x : Marked} (hx : 0x80 ≤ x.1.toNat) :
    (stepMarked s x).1 ++ flush (stepMarked s x).2 ≠ [] := by
  have hstart : (start x.1).1 ++ flush (start x.1).2 ≠ [] := by
    rw [start, if_neg (by omega)]
    cases lead x.1.toNat with
    | some p => exact List.cons_ne_nil _ _
    | none => exact List.cons_ne_nil _ _
  unfold stepMarked
  split
  · rw [List.append_assoc]
    exact List.append_ne_nil_of_right_ne_nil _ hstart
  · cases s with
    | none => exact hstart
    | some p =>
      unfold step
      dsimp only
      split
      · split
        · exact List.cons_ne_nil _ _
        · exact List.cons_ne_nil _ _
      · exact List.cons_ne_nil _ _

/-- Text that ends with a byte outside ASCII ends with no ASCII. -/
theorem last_of_high {x : Marked} (hx : 0x80 ≤ x.1.toNat) (s : Option Pending)
    (xs : List Marked) :
    ∃ cs c, decodeMarked s (xs ++ [x]) = cs ++ [c] ∧ 0x80 ≤ c.toNat := by
  induction xs generalizing s with
  | nil =>
    -- The one step and the flush give some text, and none of it is ASCII.
    have hall : ∀ c ∈ decodeMarked s [x], 0x80 ≤ c.toNat := by
      intro c hc
      by_contra hlow
      obtain ⟨y, hy, hascii, -⟩ := exists_of_mem_decodeMarked hc (Nat.lt_of_not_le hlow)
      rw [List.mem_singleton.mp hy] at hascii
      omega
    have hne : decodeMarked s [x] ≠ [] := stepMarked_gives s hx
    exact ⟨_, _, (List.dropLast_append_getLast hne).symm, hall _ (List.getLast_mem hne)⟩
  | cons y xs ih =>
    obtain ⟨cs, c, hcs, hc⟩ := ih (stepMarked s y).2
    exact ⟨(stepMarked s y).1 ++ cs, c, by rw [List.cons_append, decodeMarked, hcs,
      List.append_assoc], hc⟩

/-! ### Cuts that show -/

/-- The byte continues a pending sequence. -/
def continues (s : Option Pending) (b : UInt8) : Bool :=
  s.any fun p => p.accepts b.toNat

/-- Some piece starts with a byte that continues a pending sequence: the cut
is inside that sequence. -/
def cutInside : Option Pending → List Marked → Bool
  | _, [] => false
  | s, x :: xs => (x.2 && continues s x.1) || cutInside (step s x.1).2 xs

/-- A piece that starts elsewhere changes nothing. -/
theorem stepMarked_of_not_inside {s : Option Pending} {x : Marked}
    (h : (x.2 && continues s x.1) = false) : stepMarked s x = step s x.1 := by
  unfold stepMarked
  split
  · rename_i hcut
    cases s with
    | none => rfl
    | some p =>
      have hno : ¬ p.accepts x.1.toNat := by simpa [hcut, continues] using h
      rw [step, dif_neg hno]
      rfl
  · rfl

/-- Without a cut inside a sequence, the pieces give the text of the whole. -/
theorem decodeMarked_eq_of_not_inside {s : Option Pending} {xs : List Marked}
    (h : cutInside s xs = false) : decodeMarked s xs = decode s (xs.map Prod.fst) := by
  induction xs generalizing s with
  | nil => rfl
  | cons x xs ih =>
    rw [cutInside, Bool.or_eq_false_iff] at h
    rw [decodeMarked, stepMarked_of_not_inside h.1, ih h.2]
    rfl

/-- An accepted byte ends the sequence with one character, or leaves it
pending. -/
theorem length_decode_accepted {p : Pending} {b : UInt8} {bs : List UInt8} {n : Nat}
    (haccepts : p.accepts b.toNat) (hnone : (decode none bs).length ≤ n)
    (hsome : ∀ s, (decode s bs).length ≤ 1 + n) :
    (decode (some p) (b :: bs)).length ≤ 1 + n := by
  rw [decode, step, dif_pos haccepts]
  split
  · rw [List.length_append, List.length_singleton]
    exact Nat.add_le_add_left hnone 1
  · exact hsome _

/-- The text of the pieces is at least as long as that of the whole, even
when a sequence that is pending for the whole is lost to the pieces, up to
one character for it. -/
theorem length_decode_le (s : Option Pending) (xs : List Marked) :
    (decode s (xs.map Prod.fst)).length ≤ (decodeMarked s xs).length ∧
      (decode s (xs.map Prod.fst)).length ≤ 1 + (decodeMarked none xs).length := by
  induction xs generalizing s with
  | nil => cases s <;> simp [decode, decodeMarked, flush]
  | cons x xs ih =>
    obtain ⟨b, cut⟩ := x
    have hnone : decodeMarked none ((b, cut) :: xs)
        = (start b).1 ++ decodeMarked (start b).2 xs := by
      rw [decodeMarked]
      cases cut <;> rfl
    rw [List.map_cons, decode, hnone]
    cases s with
    | none =>
      have hle := (ih (start b).2).1
      rw [hnone]
      simp only [step, List.length_append]
      omega
    | some p =>
      by_cases haccepts : p.accepts b.toNat
      · -- The whole completes or extends the sequence. The pieces that lost it
        -- write one replacement for the byte.
        rw [start_of_accepts haccepts]
        have hstep := length_decode_accepted haccepts (ih none).1 fun s => (ih s).2
        rw [decode, List.length_append] at hstep
        have hsame : (step (some p) b).1.length + (decode (step (some p) b).2
            (xs.map Prod.fst)).length ≤ (decodeMarked (some p) ((b, cut) :: xs)).length := by
          rw [decodeMarked, stepMarked]
          split
          · rw [start_of_accepts haccepts]
            simp only [flush, List.length_append, List.length_cons, List.length_nil]
            omega
          · have hle := (ih (step (some p) b).2).1
            simp only [List.length_append]
            omega
        simp only [List.length_append, List.length_cons, List.length_nil]
        omega
      · -- Both write a replacement for the sequence and start again.
        have hle := (ih (start b).2).1
        have hstep : step (some p) b = (replacement :: (start b).1, (start b).2) := dif_neg haccepts
        have hmarked : decodeMarked (some p) ((b, cut) :: xs)
            = replacement :: (start b).1 ++ decodeMarked (start b).2 xs := by
          rw [decodeMarked, stepMarked_of_not_inside (by simp [continues, haccepts]), hstep]
        rw [hstep, hmarked]
        simp only [List.length_append, List.length_cons]
        omega

/-- A cut inside a sequence makes the text longer. -/
theorem length_decode_lt_of_cutInside {s : Option Pending} {xs : List Marked}
    (h : cutInside s xs = true) :
    (decode s (xs.map Prod.fst)).length < (decodeMarked s xs).length := by
  induction xs generalizing s with
  | nil => cases h
  | cons x xs ih =>
    by_cases hinside : (x.2 && continues s x.1) = true
    · -- The first cut inside: two replacements for what is at most one character.
      obtain ⟨hcut, hcont⟩ := (Bool.and_eq_true _ _).mp hinside
      cases s with
      | none => cases hcont
      | some p =>
        have haccepts : p.accepts x.1.toNat := by simpa [continues] using hcont
        have hle := length_decode_accepted haccepts (length_decode_le none xs).1
          fun s => (length_decode_le s xs).2
        have hmarked : decodeMarked (some p) (x :: xs)
            = replacement :: replacement :: decodeMarked none xs := by
          rw [decodeMarked, stepMarked, if_pos hcut, start_of_accepts haccepts]
          rfl
        rw [hmarked, List.map_cons, List.length_cons, List.length_cons]
        omega
    · rw [Bool.not_eq_true] at hinside
      rw [cutInside, hinside, Bool.false_or] at h
      rw [decodeMarked, stepMarked_of_not_inside hinside, List.map_cons, decode]
      simp only [List.length_append]
      have hlt := ih h
      omega

/-- The pieces give the text of the whole exactly when no cut is inside a
sequence. -/
theorem decodeMarked_eq_iff (xs : List Marked) :
    decodeMarked none xs = fromUtf8Lossy (xs.map Prod.fst) ↔ cutInside none xs = false := by
  constructor
  · intro h
    rw [Bool.eq_false_iff]
    intro hinside
    have hlt := length_decode_lt_of_cutInside hinside
    rw [h, fromUtf8Lossy] at hlt
    omega
  · exact decodeMarked_eq_of_not_inside

/-! ### Encoded text -/

/-- The UTF-8 encoding of a text. -/
def encode (cs : List Char) : List UInt8 := cs.flatMap String.utf8EncodeChar

@[simp] theorem encode_cons (c : Char) (cs : List Char) :
    encode (c :: cs) = String.utf8EncodeChar c ++ encode cs := List.flatMap_cons

/-- An ASCII character is encoded by its own byte. -/
theorem utf8EncodeChar_of_toNat {c : Char} {b : UInt8} (hb : b.toNat < 0x80)
    (h : b.toNat = c.toNat) : String.utf8EncodeChar c = [b] := by
  have hc : c.val.toNat = b.toNat := h.symm
  rw [String.utf8EncodeChar, hc, if_pos (by omega), UInt8.ofNat_toNat]

/-- ASCII text has one byte a character. -/
theorem encode_ascii {cs : List Char} (h : ∀ c ∈ cs, c.toNat < 0x80) :
    encode cs = cs.map fun c => UInt8.ofNat c.toNat := by
  induction cs with
  | nil => rfl
  | cons c cs ih =>
    have hc : c.toNat < 0x80 := h c List.mem_cons_self
    have hb : (UInt8.ofNat c.toNat).toNat = c.toNat := by
      rw [UInt8.toNat_ofNat']
      omega
    rw [encode_cons, utf8EncodeChar_of_toNat (by omega) hb,
      ih fun c hc => h c (List.mem_cons_of_mem _ hc)]
    rfl

/-- The size of a string is the length of its encoding. -/
theorem utf8ByteSize_eq (s : String) : s.utf8ByteSize = (encode s.toList).length := by
  rw [← String.ofList_toList (s := s)]
  show (String.ofList s.toList).toByteArray.size = _
  rw [String.toByteArray_ofList, String.toList_ofList, List.utf8Encode, List.size_toByteArray]
  rfl

/-- A byte sequence is the encoding of some text. -/
def Valid (bs : List UInt8) : Prop := ∃ cs, bs = encode cs

/-- A byte that completes the sequence. -/
theorem decode_last {p : Pending} {b : UInt8} {n : Nat} (bs : List UInt8) (hn : b.toNat = n)
    (hb : p.accepts n) (hk : p.more = 0) :
    decode (some p) (b :: bs) = Char.ofNat (p.code n) :: decode none bs := by
  subst hn
  rw [decode, step, dif_pos hb]
  split
  · rfl
  · rename_i k hk'
    rw [hk] at hk'
    cases hk'

/-- A byte that leaves the sequence pending. -/
theorem decode_more {p : Pending} {b : UInt8} {n k : Nat} (bs : List UInt8)
    (hn : b.toNat = n) (hb : p.accepts n) (hk : p.more = k + 1) :
    decode (some p) (b :: bs) = decode (some (p.next n k hb hk)) bs := by
  subst hn
  rw [decode, step, dif_pos hb]
  split
  · rename_i hk'
    rw [hk] at hk'
    cases hk'
  · rename_i k' hk'
    obtain rfl : k' = k := by omega
    rfl

/-- A lead byte outside ASCII. -/
theorem decode_lead {b : UInt8} {n : Nat} (bs : List UInt8) {p : Pending} (hn : b.toNat = n)
    (hb : 0x80 ≤ n) (hp : lead n = some p) : decode none (b :: bs) = decode (some p) bs := by
  subst hn
  rw [decode, step, start, if_neg (by omega), hp]
  rfl

theorem lead_two {b : Nat} (hb : 0xC2 ≤ b ∧ b ≤ 0xDF) :
    ∃ p, lead b = some p ∧ p.more = 0 ∧ p.acc = b - 0xC0 ∧ p.lo = 0x80 ∧ p.hi = 0xBF := by
  unfold lead
  rw [dif_pos hb]
  exact ⟨_, rfl, rfl, rfl, rfl, rfl⟩

theorem lead_three {b : Nat} (hb : 0xE0 ≤ b ∧ b ≤ 0xEF) :
    ∃ p, lead b = some p ∧ p.more = 1 ∧ p.acc = b - 0xE0 ∧
      p.lo = (if b = 0xE0 then 0xA0 else 0x80) ∧ p.hi = (if b = 0xED then 0x9F else 0xBF) := by
  unfold lead
  rw [dif_neg (by omega)]
  by_cases he0 : b = 0xE0
  · subst he0
    exact ⟨_, rfl, rfl, rfl, rfl, rfl⟩
  · by_cases hed : b = 0xED
    · subst hed
      exact ⟨_, rfl, rfl, rfl, rfl, rfl⟩
    · rw [if_neg he0, if_neg hed, dif_pos ⟨by omega, hb.2, hed⟩, if_neg he0, if_neg hed]
      exact ⟨_, rfl, rfl, rfl, rfl, rfl⟩

theorem lead_four {b : Nat} (hb : 0xF0 ≤ b ∧ b ≤ 0xF4) :
    ∃ p, lead b = some p ∧ p.more = 2 ∧ p.acc = b - 0xF0 ∧
      p.lo = (if b = 0xF0 then 0x90 else 0x80) ∧ p.hi = (if b = 0xF4 then 0x8F else 0xBF) := by
  unfold lead
  rw [dif_neg (by omega), if_neg (by omega), if_neg (by omega), dif_neg (by omega)]
  by_cases hf0 : b = 0xF0
  · subst hf0
    exact ⟨_, rfl, rfl, rfl, rfl, rfl⟩
  · by_cases hf4 : b = 0xF4
    · subst hf4
      exact ⟨_, rfl, rfl, rfl, rfl, rfl⟩
    · rw [if_neg hf0, dif_pos ⟨by omega, by omega⟩, if_neg hf0, if_neg hf4]
      exact ⟨_, rfl, rfl, rfl, rfl, rfl⟩

/-- The value of a continuation byte. -/
theorem toNat_tail (v : Nat) : (UInt8.ofNat (v % 0x40 + 0x80)).toNat = v % 64 + 0x80 := by
  simp
  omega

/-- A sequence that takes any continuation byte takes this one. -/
theorem accepts_tail {p : Pending} (v : Nat) (hlo : p.lo = 0x80) (hhi : p.hi = 0xBF) :
    p.accepts (v % 64 + 0x80) := by
  refine ⟨?_, ?_⟩
  · rw [hlo]
    omega
  · rw [hhi]
    omega

/-- Decoding an encoded character. -/
theorem decode_utf8EncodeChar (c : Char) (bs : List UInt8) :
    decode none (String.utf8EncodeChar c ++ bs) = c :: decode none bs := by
  have hvalid : c.val.toNat < 0xD800 ∨ 0xDFFF < c.val.toNat ∧ c.val.toNat < 0x110000 := c.valid
  have hc : Char.ofNat c.val.toNat = c := Char.ofNat_toNat c
  generalize hv : c.val.toNat = v at hvalid hc
  unfold String.utf8EncodeChar
  simp only [hv]
  by_cases h₁ : v ≤ 0x7F
  · have hb : (UInt8.ofNat v).toNat = v := by
      simp
      omega
    rw [if_pos h₁, List.singleton_append, decode, step_ascii none (by omega), hb, hc]
    rfl
  rw [if_neg h₁]
  by_cases h₂ : v ≤ 0x7FF
  · have hb₁ : (UInt8.ofNat (v / 64 % 0x20 + 0xC0)).toNat = v / 64 + 0xC0 := by
      simp
      omega
    have hb₂ := toNat_tail v
    obtain ⟨p, hp, hmore, hacc, hlo, hhi⟩ := lead_two (b := v / 64 + 0xC0) (by omega)
    have hcode : p.code (v % 64 + 0x80) = v := by
      show p.acc * 64 + (v % 64 + 0x80 - 0x80) = v
      omega
    rw [if_pos h₂, List.cons_append, List.cons_append, List.nil_append,
      decode_lead _ hb₁ (by omega) hp, decode_last _ hb₂ ⟨by omega, by omega⟩ hmore, hcode, hc]
  rw [if_neg h₂]
  by_cases h₃ : v ≤ 0xFFFF
  · have hb₁ : (UInt8.ofNat (v / 4096 % 0x10 + 0xE0)).toNat = v / 4096 + 0xE0 := by
      simp
      omega
    have hb₂ := toNat_tail (v / 64)
    have hb₃ := toNat_tail v
    obtain ⟨p, hp, hmore, hacc, hlo, hhi⟩ := lead_three (b := v / 4096 + 0xE0) (by omega)
    have haccepts : p.accepts (v / 64 % 64 + 0x80) := by
      refine ⟨?_, ?_⟩
      · rw [hlo]
        split <;> omega
      · rw [hhi]
        split <;> omega
    have hcode : (p.next _ 0 haccepts hmore).code (v % 64 + 0x80) = v := by
      show (p.acc * 64 + (v / 64 % 64 + 0x80 - 0x80)) * 64 + (v % 64 + 0x80 - 0x80) = v
      rw [hacc]
      omega
    rw [if_pos h₃]
    simp only [List.cons_append, List.nil_append]
    rw [decode_lead _ hb₁ (by omega) hp, decode_more _ hb₂ haccepts hmore,
      decode_last _ hb₃ (accepts_tail v rfl rfl) rfl, hcode, hc]
  rw [if_neg h₃]
  have hb₁ : (UInt8.ofNat (v / 262144 % 0x08 + 0xF0)).toNat = v / 262144 + 0xF0 := by
    simp
    omega
  have hb₂ := toNat_tail (v / 4096)
  have hb₃ := toNat_tail (v / 64)
  have hb₄ := toNat_tail v
  obtain ⟨p, hp, hmore, hacc, hlo, hhi⟩ := lead_four (b := v / 262144 + 0xF0) (by omega)
  have haccepts : p.accepts (v / 4096 % 64 + 0x80) := by
    refine ⟨?_, ?_⟩
    · rw [hlo]
      split <;> omega
    · rw [hhi]
      split <;> omega
  have haccepts' : (p.next _ 1 haccepts hmore).accepts (v / 64 % 64 + 0x80) :=
    accepts_tail _ rfl rfl
  have hcode : ((p.next _ 1 haccepts hmore).next _ 0 haccepts' rfl).code (v % 64 + 0x80) = v := by
    show ((p.acc * 64 + (v / 4096 % 64 + 0x80 - 0x80)) * 64 + (v / 64 % 64 + 0x80 - 0x80)) * 64
      + (v % 64 + 0x80 - 0x80) = v
    rw [hacc]
    omega
  simp only [List.cons_append, List.nil_append]
  rw [decode_lead _ hb₁ (by omega) hp, decode_more _ hb₂ haccepts hmore,
    decode_more _ hb₃ haccepts' rfl, decode_last _ hb₄ (accepts_tail v rfl rfl) rfl, hcode, hc]

/-- Decoding an encoded text. -/
theorem fromUtf8Lossy_encode (cs : List Char) : fromUtf8Lossy (encode cs) = cs := by
  induction cs with
  | nil => rfl
  | cons c cs ih =>
    rw [encode_cons, fromUtf8Lossy, decode_utf8EncodeChar]
    exact congrArg (c :: ·) ih

/-- Encoding the text of a valid sequence gives it back. -/
theorem encode_fromUtf8Lossy {bs : List UInt8} (h : Valid bs) : encode (fromUtf8Lossy bs) = bs := by
  obtain ⟨cs, rfl⟩ := h
  rw [fromUtf8Lossy_encode]

/-- Strict decoding: the text whose encoding the bytes are (Rust's
`String::from_utf8`). -/
def fromUtf8 (bs : List UInt8) : Option String :=
  if encode (fromUtf8Lossy bs) = bs then some (String.ofList (fromUtf8Lossy bs)) else none

theorem fromUtf8_eq_some_iff {bs : List UInt8} {text : String} :
    fromUtf8 bs = some text ↔ bs = encode text.toList := by
  constructor
  · intro h
    unfold fromUtf8 at h
    split at h
    · rename_i hvalid
      cases h
      rw [String.toList_ofList]
      exact hvalid.symm
    · cases h
  · rintro rfl
    rw [fromUtf8, fromUtf8Lossy_encode, if_pos rfl, String.ofList_toList]

@[simp] theorem fromUtf8_encode (text : String) : fromUtf8 (encode text.toList) = some text :=
  fromUtf8_eq_some_iff.mpr rfl

/-- An ASCII byte of an encoded character is all of it. -/
theorem utf8EncodeChar_of_ascii_mem {c : Char} {b : UInt8} (hb : b.toNat < 0x80)
    (hmem : b ∈ String.utf8EncodeChar c) : String.utf8EncodeChar c = [b] := by
  have hlt : c.val.toNat < 0x110000 :=
    c.valid.elim (fun h => Nat.lt_trans h (by decide)) fun h => h.2
  unfold String.utf8EncodeChar at hmem ⊢
  generalize c.val.toNat = v at hmem hlt
  by_cases h₁ : v ≤ 0x7F
  · simp only [h₁, if_true, List.mem_singleton] at hmem ⊢
    rw [hmem]
  -- Every byte of a longer sequence is at least 0x80.
  exfalso
  have htail : ∀ n : Nat, b ≠ UInt8.ofNat (n % 0x40 + 0x80) := by
    rintro n rfl
    have := toNat_tail n
    omega
  have hhead : ∀ n k : Nat, 0x80 ≤ k → n + k < 256 → b ≠ UInt8.ofNat (n + k) := by
    rintro n k hk hlt' rfl
    have hnat : (UInt8.ofNat (n + k)).toNat = n + k := by
      simp
      omega
    omega
  simp only [h₁, if_false] at hmem
  split at hmem
  · simp only [List.mem_cons, List.not_mem_nil, or_false] at hmem
    exact hmem.elim (hhead _ _ (by omega) (by omega)) (htail _)
  · split at hmem
    · simp only [List.mem_cons, List.not_mem_nil, or_false] at hmem
      exact hmem.elim (hhead _ _ (by omega) (by omega)) fun h => h.elim (htail _) (htail _)
    · simp only [List.mem_cons, List.not_mem_nil, or_false] at hmem
      exact hmem.elim (hhead _ _ (by omega) (by omega)) fun h =>
        h.elim (htail _) fun h => h.elim (htail _) (htail _)

/-- The parts of a valid sequence around an ASCII byte are valid. -/
theorem valid_of_append_ascii {xs ys : List UInt8} {b : UInt8} (hb : b.toNat < 0x80)
    (h : Valid (xs ++ b :: ys)) : Valid xs ∧ Valid ys := by
  obtain ⟨cs, hcs⟩ := h
  induction cs generalizing xs with
  | nil => cases xs <;> cases hcs
  | cons c cs ih =>
    rw [encode_cons] at hcs
    rcases List.append_eq_append_iff.mp hcs with ⟨a, ha, hrest⟩ | ⟨a, ha, hrest⟩
    · -- The byte is inside the encoded character, or right after it.
      cases a with
      | nil =>
        obtain ⟨-, hys⟩ := @ih [] hrest
        refine ⟨⟨[c], ?_⟩, hys⟩
        rw [List.append_nil] at ha
        simp [encode, ha]
      | cons a as =>
        cases hrest
        have hone := utf8EncodeChar_of_ascii_mem hb (ha ▸ List.mem_append_right _
          List.mem_cons_self)
        rw [hone] at ha
        cases xs with
        | nil =>
          cases ha
          exact ⟨⟨[], rfl⟩, ⟨cs, rfl⟩⟩
        | cons x xs => simp at ha
    · obtain ⟨⟨cs', hcs'⟩, hys⟩ := ih hrest.symm
      refine ⟨⟨c :: cs', ?_⟩, hys⟩
      rw [ha, hcs']
      exact (encode_cons c cs').symm

end Utf8
