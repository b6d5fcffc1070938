import Mathlib.Algebra.Ring.Int.Defs
import Mathlib.Data.List.Basic
import Mathlib.Data.List.Nodup
import Mathlib.Data.List.Pairwise

/-!
# `MizanConnect.Lib.Table`: tables with constraints

A relational table is a list of rows together with the constraints every
row set must meet. A `Schema` lists them: the primary key, the row-local
constraints (`violation`, the first one a row breaks) and the unique
indexes (`clash`, whether two different rows collide on one of them).
`Table S` carries the proof that its rows meet `S`, so no statement can
build an invalid row set.

Every statement is one call of `Table.write`: it lays new row versions
over the table by primary key, appends the rows whose key is new, and
fails when the result breaks a constraint. `Table.insert`,
`Table.updateWhere` and `Table.upsert` compute the row versions and call
it. A transaction that has executed a statement but not committed holds
the row versions (`Table.exec`), and its commit calls `write` again on
the table of that moment.

The main facts: `write_rows` (what a successful write leaves),
`eq_of_clash` (two rows of one table that collide are the same row),
`filter_cases` (a condition covered by a unique index selects at most one
row), and `filter_overlay` (a write elsewhere does not change
what a condition selects).
-/

set_option autoImplicit false

namespace Sql

/-- The constraint a statement breaks. -/
inductive Violation where
  | notNull (column : String)
  | check (constraint : String)
  | outOfRange (column : String)
  | badEnum (type : String)
  | unique
deriving DecidableEq, Repr

/-- Two rows collide on the unique index over `key`. `key` is `none` where
the index does not cover the row (a NULL column, or a false predicate of a
partial index). -/
def uniqueOn {ρ κ : Type} [DecidableEq κ] (key : ρ → Option κ) (a b : ρ) : Bool :=
  match key a, key b with
  | some x, some y => decide (x = y)
  | _, _ => false

theorem uniqueOn_iff {ρ κ : Type} [DecidableEq κ] (key : ρ → Option κ) (a b : ρ) :
    uniqueOn key a b = true ↔ ∃ k, key a = some k ∧ key b = some k := by
  unfold uniqueOn
  cases key a with
  | none => simp
  | some x =>
    cases key b with
    | none => simp
    | some y => simp [eq_comm]

theorem uniqueOn_comm {ρ κ : Type} [DecidableEq κ] (key : ρ → Option κ) (a b : ρ) :
    uniqueOn key a b = uniqueOn key b a := by
  rw [Bool.eq_iff_iff, uniqueOn_iff, uniqueOn_iff]
  simp only [and_comm]

/-- The constraints of a table of rows `ρ` with primary key `κ`. -/
structure Schema (ρ κ : Type) where
  key : ρ → κ
  violation : ρ → Option Violation
  clash : ρ → ρ → Bool
  clash_comm : ∀ a b, clash a b = clash b a

/-- A row set that meets the constraints of `S`. -/
@[ext] structure Table {ρ κ : Type} (S : Schema ρ κ) where
  rows : List ρ
  admitted : ∀ r ∈ rows, S.violation r = none
  keys : (rows.map S.key).Nodup
  unique : rows.Pairwise fun a b => S.clash a b = false

namespace Table

variable {ρ κ : Type} [DecidableEq κ] {S : Schema ρ κ}

/-- The table with no row. -/
def empty : Table S := ⟨[], by simp, by simp, by simp⟩

/-! ### Writing row versions -/

/-- The row versions `ws` laid over `rows`: a row with the key of some
version is replaced by it, and the versions with a new key are appended. -/
def overlay (S : Schema ρ κ) (rows ws : List ρ) : List ρ :=
  rows.map (fun r => (ws.find? fun w => S.key w = S.key r).getD r) ++
    ws.filter fun w => rows.all fun r => S.key r ≠ S.key w

/-- Lay the row versions `ws` over the table. Fails with the first
row-local constraint that a version breaks, or with `.unique`. -/
def write (t : Table S) (ws : List ρ) : Except Violation (Table S) :=
  match ws.findSome? S.violation with
  | some v => .error v
  | none =>
    if h : (∀ r ∈ overlay S t.rows ws, S.violation r = none) ∧
        ((overlay S t.rows ws).map S.key).Nodup ∧
        (overlay S t.rows ws).Pairwise (fun a b => S.clash a b = false) then
      .ok ⟨overlay S t.rows ws, h.1, h.2.1, h.2.2⟩
    else .error .unique

/-- Execute a write inside a transaction: the row versions, or the
constraint they break. The table itself changes at commit. -/
def exec (t : Table S) (ws : List ρ) : Except Violation (List ρ) :=
  (t.write ws).map fun _ => ws

/-- The row versions of `UPDATE … SET f WHERE p`. -/
def updated (t : Table S) (p : ρ → Bool) (f : ρ → ρ) : List ρ :=
  (t.rows.filter p).map f

/-- `UPDATE … SET f WHERE p`. -/
def updateWhere (t : Table S) (p : ρ → Bool) (f : ρ → ρ) : Except Violation (Table S) :=
  t.write (t.updated p f)

/-- The row versions of `INSERT`: the row itself, when its primary key is
new. The row-local constraints come first. -/
def inserted (t : Table S) (r : ρ) : Except Violation (List ρ) :=
  match S.violation r with
  | some v => .error v
  | none => if t.rows.any fun x => S.key x = S.key r then .error .unique else .ok [r]

/-- `INSERT`. -/
def insert (t : Table S) (r : ρ) : Except Violation (Table S) := do
  t.write (← t.inserted r)

/-- The row versions of `INSERT … ON CONFLICT (k) DO UPDATE`: the row-local
constraints of the proposed row come first, then `arbiter` looks for the
conflicting row, which becomes `merge` of itself. Only the arbiter index is
consulted here. Every other constraint is left to the write. -/
def upserted (t : Table S) (r : ρ) (arbiter : ρ → Bool) (merge : ρ → ρ) :
    Except Violation (List ρ) :=
  match S.violation r with
  | some v => .error v
  | none =>
    match t.rows.find? arbiter with
    | some old => .ok [merge old]
    | none => t.inserted r

/-- `INSERT … ON CONFLICT (k) DO UPDATE`. -/
def upsert (t : Table S) (r : ρ) (arbiter : ρ → Bool) (merge : ρ → ρ) :
    Except Violation (Table S) := do
  t.write (← t.upserted r arbiter merge)

/-! ### What a successful write leaves -/

theorem write_rows {t t' : Table S} {ws : List ρ} (h : t.write ws = .ok t') :
    t'.rows = overlay S t.rows ws := by
  unfold write at h
  split at h
  · cases h
  · split at h
    · cases h
      rfl
    · cases h

/-- A write succeeds exactly when the overlaid rows meet the constraints. -/
theorem write_ok_iff {t : Table S} {ws : List ρ} :
    (∃ t', t.write ws = .ok t') ↔
      (∀ w ∈ ws, S.violation w = none) ∧
      (∀ r ∈ overlay S t.rows ws, S.violation r = none) ∧
      ((overlay S t.rows ws).map S.key).Nodup ∧
      (overlay S t.rows ws).Pairwise (fun a b => S.clash a b = false) := by
  unfold write
  cases hv : ws.findSome? S.violation with
  | some v =>
    simp only [reduceCtorEq, exists_false, false_iff, not_and]
    intro hall
    obtain ⟨w, hw, hwv⟩ := List.exists_of_findSome?_eq_some hv
    rw [hall w hw] at hwv
    cases hwv
  | none =>
    -- Every version meets the constraints of its own, so the table decides.
    have hall : ∀ w ∈ ws, S.violation w = none := List.findSome?_eq_none_iff.mp hv
    dsimp only
    constructor
    · rintro ⟨t', h⟩
      split at h
      · rename_i hvalid
        exact ⟨hall, hvalid⟩
      · cases h
    · rintro ⟨-, hvalid⟩
      exact ⟨_, dif_pos hvalid⟩

/-- Without row-local constraints a write that fails hits a key or a unique
index. -/
theorem write_error {t : Table S} {ws : List ρ} {v : Violation} (hS : ∀ x, S.violation x = none)
    (h : t.write ws = .error v) : v = .unique := by
  unfold write at h
  have hnone : ws.findSome? S.violation = none := List.findSome?_eq_none_iff.mpr fun x _ => hS x
  rw [hnone] at h
  dsimp only at h
  split at h
  · cases h
  · cases h
    rfl

theorem exec_ok_iff {t : Table S} {ws ws' : List ρ} :
    t.exec ws = .ok ws' ↔ ws' = ws ∧ ∃ t', t.write ws = .ok t' := by
  unfold exec
  cases t.write ws with
  | error v => simp [Except.map]
  | ok t' => simp [Except.map, eq_comm]

/-- Writing nothing leaves the table as it is. -/
@[simp] theorem overlay_nil (rows : List ρ) : overlay S rows [] = rows := by
  simp [overlay]

@[simp] theorem write_nil (t : Table S) : t.write [] = .ok t := by
  unfold write
  simp only [List.findSome?_nil, overlay_nil]
  rw [dif_pos ⟨t.admitted, t.keys, t.unique⟩]

/-- When every version has the key of some row, nothing is appended. -/
theorem overlay_eq_map {rows ws : List ρ} (h : ∀ w ∈ ws, ∃ r ∈ rows, S.key r = S.key w) :
    overlay S rows ws
      = rows.map fun r => (ws.find? fun w => S.key w = S.key r).getD r := by
  -- A version that is appended has the key of no row.
  have hnone : (ws.filter fun w => rows.all fun r => S.key r ≠ S.key w) = [] := by
    rw [List.filter_eq_nil_iff]
    intro w hw hall
    obtain ⟨r, hr, hk⟩ := h w hw
    simp only [List.all_eq_true, decide_eq_true_eq] at hall
    exact hall r hr hk
  rw [overlay, hnone, List.append_nil]

/-- The row under the key of `w` after a write of the one version `w`. -/
theorem overlay_singleton {rows : List ρ} {w : ρ} (h : ∃ r ∈ rows, S.key r = S.key w) :
    overlay S rows [w] = rows.map fun r => if S.key w = S.key r then w else r := by
  rw [overlay_eq_map (by simpa using h)]
  refine List.map_congr_left fun r _ => ?_
  by_cases hk : S.key w = S.key r <;> simp [hk]

/-- A version with a new key is appended. -/
theorem overlay_new {rows : List ρ} {w : ρ} (h : ∀ r ∈ rows, S.key r ≠ S.key w) :
    overlay S rows [w] = rows ++ [w] := by
  have hmap : rows.map (fun r => ([w].find? fun w => S.key w = S.key r).getD r) = rows := by
    refine (List.map_congr_left fun r hr => ?_).trans (List.map_id _)
    simp [(h r hr).symm]
  rw [overlay, hmap]
  congr 1
  simpa using h

/-- A row with a new key is written when it meets the row-local constraints
and collides with no row. -/
theorem write_new_ok (t : Table S) {w : ρ} (hkey : ∀ r ∈ t.rows, S.key r ≠ S.key w)
    (hw : S.violation w = none) (hclash : ∀ r ∈ t.rows, S.clash r w = false) :
    ∃ t', t.write [w] = .ok t' := by
  rw [write_ok_iff, overlay_new hkey]
  refine ⟨by simpa using hw, fun r hr => ?_, ?_, ?_⟩
  · rcases List.mem_append.mp hr with hr | hr
    · exact t.admitted r hr
    · rw [List.mem_singleton.mp hr, hw]
  · rw [List.map_append, List.map_singleton, List.nodup_append]
    refine ⟨t.keys, List.nodup_singleton _, ?_⟩
    intro k hk k' hk'
    obtain ⟨r, hr, rfl⟩ := List.mem_map.mp hk
    rw [List.mem_singleton.mp hk']
    exact hkey r hr
  · rw [List.pairwise_append]
    refine ⟨t.unique, List.pairwise_singleton _ _, fun r hr x hx => ?_⟩
    rw [List.mem_singleton.mp hx]
    exact hclash r hr

/-- A successful `INSERT` appends the row, under a new key. -/
theorem insert_rows {t t' : Table S} {r : ρ} (h : t.insert r = .ok t') :
    t'.rows = t.rows ++ [r] ∧ ∀ x ∈ t.rows, S.key x ≠ S.key r := by
  unfold insert inserted at h
  cases hv : S.violation r with
  | some v => simp [hv, bind, Except.bind] at h
  | none =>
    by_cases hany : (t.rows.any fun x => S.key x = S.key r) = true
    · simp [hv, hany, bind, Except.bind] at h
    -- The check of `inserted`, as a fact about each row.
    · have hkey : ∀ x ∈ t.rows, S.key x ≠ S.key r := by
        intro x hx heq
        exact hany (List.any_eq_true.mpr ⟨x, hx, decide_eq_true heq⟩)
      simp only [hv, hany, bind, Except.bind] at h
      exact ⟨(write_rows h).trans (overlay_new hkey), hkey⟩

/-- An `INSERT` succeeds exactly when the row meets the row-local constraints,
its key is new and it collides with no row. -/
theorem insert_ok_iff {t : Table S} {r : ρ} :
    (∃ t', t.insert r = .ok t') ↔
      S.violation r = none ∧ ∀ x ∈ t.rows, S.key x ≠ S.key r ∧ S.clash x r = false := by
  constructor
  · rintro ⟨t', h⟩
    obtain ⟨hrows, hkey⟩ := insert_rows h
    have hr : r ∈ t'.rows := by
      rw [hrows]
      exact List.mem_append_right _ List.mem_cons_self
    refine ⟨t'.admitted r hr, ?_⟩
    intro x hx
    have hunique := t'.unique
    rw [hrows, List.pairwise_append] at hunique
    exact ⟨hkey x hx, hunique.2.2 x hx r List.mem_cons_self⟩
  · rintro ⟨hr, hfree⟩
    have hany : (t.rows.any fun x => S.key x = S.key r) = false := by
      rw [List.any_eq_false]
      exact fun x hx => by simpa using (hfree x hx).1
    obtain ⟨t', ht'⟩ := t.write_new_ok (fun x hx => (hfree x hx).1) hr fun x hx => (hfree x hx).2
    refine ⟨t', ?_⟩
    simp only [insert, inserted, hr, hany, bind, Except.bind]
    exact ht'

/-- Without row-local constraints an `INSERT` that fails hits a key or a unique
index. -/
theorem insert_error {t : Table S} {r : ρ} {v : Violation} (hS : ∀ x, S.violation x = none)
    (h : t.insert r = .error v) : v = .unique := by
  unfold insert inserted at h
  rw [hS r] at h
  by_cases hany : (t.rows.any fun x => S.key x = S.key r) = true
  · simp only [hany, if_true, bind, Except.bind] at h
    cases h
    rfl
  · simp only [hany, bind, Except.bind] at h
    exact write_error hS h

/-- The two ways of `INSERT … ON CONFLICT DO UPDATE`: the conflicting row is
merged, or there is none and the proposed row has a new key. -/
theorem upserted_cases {t : Table S} {r : ρ} {arbiter : ρ → Bool} {merge : ρ → ρ}
    {ws : List ρ} (h : t.upserted r arbiter merge = .ok ws) :
    S.violation r = none ∧
      ((∃ old ∈ t.rows, arbiter old = true ∧ ws = [merge old]) ∨
        ((∀ x ∈ t.rows, arbiter x = false) ∧ ws = [r] ∧ ∀ x ∈ t.rows, S.key x ≠ S.key r)) := by
  unfold upserted at h
  cases hv : S.violation r with
  | some v => simp [hv] at h
  | none =>
    refine ⟨rfl, ?_⟩
    cases hfind : t.rows.find? arbiter with
    | some old =>
      simp only [hv, hfind, Except.ok.injEq] at h
      exact Or.inl ⟨old, List.mem_of_find?_eq_some hfind, List.find?_some hfind, h.symm⟩
    | none =>
      simp only [hv, hfind, inserted] at h
      split at h
      · cases h
      · rename_i hnew
        cases h
        refine Or.inr ⟨fun x hx => ?_, rfl, fun x hx hk => hnew ?_⟩
        · rw [Bool.eq_false_iff]
          exact List.find?_eq_none.mp hfind x hx
        · exact List.any_eq_true.mpr ⟨x, hx, decide_eq_true hk⟩

/-- With a conflicting row, the upsert writes the merge of one. -/
theorem upserted_of_conflict {t : Table S} {old : ρ} (r : ρ) (arbiter : ρ → Bool) (merge : ρ → ρ)
    (hr : S.violation r = none) (hold : old ∈ t.rows) (harb : arbiter old = true) :
    ∃ x ∈ t.rows, arbiter x = true ∧ t.upserted r arbiter merge = .ok [merge x] := by
  cases hfind : t.rows.find? arbiter with
  | none =>
    rw [List.find?_eq_none] at hfind
    exact absurd harb (hfind old hold)
  | some x =>
    refine ⟨x, List.mem_of_find?_eq_some hfind, List.find?_some hfind, ?_⟩
    simp only [upserted, hr, hfind]

/-- Without a conflicting row, the upsert inserts a row with a new key. -/
theorem upserted_of_new {t : Table S} {r : ρ} {arbiter : ρ → Bool} (merge : ρ → ρ)
    (hr : S.violation r = none) (harb : ∀ x ∈ t.rows, arbiter x = false)
    (hkey : ∀ x ∈ t.rows, S.key x ≠ S.key r) : t.upserted r arbiter merge = .ok [r] := by
  have hfind : t.rows.find? arbiter = none :=
    List.find?_eq_none.mpr fun x hx => by simp [harb x hx]
  have hany : (t.rows.any fun x => S.key x = S.key r) = false := by
    rw [List.any_eq_false]
    exact fun x hx => by simpa using hkey x hx
  simp only [upserted, hr, hfind, inserted, hany]
  rfl

/-- A write elsewhere does not change what a condition selects: the versions
are of existing rows, the condition holds of a version when it holds of its
row, and no selected row has a version. -/
theorem filter_overlay {rows ws : List ρ} {p : ρ → Bool}
    (hkeys : ∀ w ∈ ws, ∃ r ∈ rows, S.key r = S.key w)
    (hsame : ∀ r ∈ rows, ∀ w ∈ ws, S.key w = S.key r → p w = p r)
    (hapart : ∀ r ∈ rows, p r = true → ∀ w ∈ ws, S.key w ≠ S.key r) :
    (overlay S rows ws).filter p = rows.filter p := by
  rw [overlay_eq_map hkeys, List.filter_map]
  -- A row and its version meet the condition together.
  have hcond : ∀ r ∈ rows,
      (p ∘ fun r => (ws.find? fun w => S.key w = S.key r).getD r) r = p r := by
    intro r hr
    cases hfind : ws.find? fun w => S.key w = S.key r with
    | none => simp [hfind]
    | some w =>
      have hw := hsame r hr w (List.mem_of_find?_eq_some hfind)
        (by simpa using List.find?_some hfind)
      simpa [hfind] using hw
  rw [List.filter_congr hcond]
  refine (List.map_congr_left fun r hr => ?_).trans (List.map_id _)
  obtain ⟨hr, hpr⟩ := List.mem_filter.mp hr
  -- A row that meets it has no version, so it stays as it is.
  have hnone : ws.find? (fun w => S.key w = S.key r) = none :=
    List.find?_eq_none.mpr fun w hw => by simpa using hapart r hr hpr w hw
  simp [hnone]

/-! ### Rows of one table -/

omit [DecidableEq κ] in
/-- Two rows of a table with the same primary key are the same row. -/
theorem eq_of_key (t : Table S) {a b : ρ} (ha : a ∈ t.rows) (hb : b ∈ t.rows)
    (h : S.key a = S.key b) : a = b :=
  List.inj_on_of_nodup_map t.keys ha hb h

omit [DecidableEq κ] in
/-- Two rows of a table that collide on a unique index are the same row. -/
theorem eq_of_clash (t : Table S) {a b : ρ} (ha : a ∈ t.rows) (hb : b ∈ t.rows)
    (h : S.clash a b = true) : a = b := by
  by_contra hne
  have hsymm : Std.Symm fun a b => S.clash a b = false :=
    ⟨fun x y hxy => by rw [S.clash_comm]; exact hxy⟩
  have hfalse : S.clash a b = false := t.unique.forall ha hb hne
  rw [hfalse] at h
  cases h

omit [DecidableEq κ] in
/-- A condition whose rows all collide with each other selects at most one
row. -/
theorem filter_cases (t : Table S) (p : ρ → Bool)
    (h : ∀ a b, p a = true → p b = true → S.clash a b = true) :
    t.rows.filter p = [] ∨ ∃ r ∈ t.rows, p r = true ∧ t.rows.filter p = [r] := by
  have hpw : (t.rows.filter p).Pairwise fun a b => S.clash a b = false := t.unique.filter p
  have hsel : ∀ r ∈ t.rows.filter p, r ∈ t.rows ∧ p r = true := fun r hr => List.mem_filter.mp hr
  match hl : t.rows.filter p with
  | [] => exact Or.inl rfl
  | [r] =>
    rw [hl] at hsel
    obtain ⟨hr, hpr⟩ := hsel r List.mem_cons_self
    exact Or.inr ⟨r, hr, hpr, rfl⟩
  | a :: b :: rest =>
    rw [hl] at hpw hsel
    have hab := (List.pairwise_cons.mp hpw).1 b List.mem_cons_self
    rw [h a b (hsel a List.mem_cons_self).2 (hsel b (by simp)).2] at hab
    cases hab

/-- The condition `key = k` selects the one row with that key. -/
theorem filter_key (t : Table S) {r : ρ} (hr : r ∈ t.rows) :
    t.rows.filter (fun x => S.key x = S.key r) = [r] := by
  have hnodup : (t.rows.filter fun x => S.key x = S.key r).Nodup :=
    (List.Nodup.of_map _ t.keys).filter _
  refine List.perm_singleton.mp ((List.perm_ext_iff_of_nodup hnodup (by simp)).mpr fun x => ?_)
  simp only [List.mem_filter, decide_eq_true_eq, List.mem_singleton]
  constructor
  · rintro ⟨hx, hk⟩
    exact t.eq_of_key hx hr hk
  · rintro rfl
    exact ⟨hr, rfl⟩

/-- A condition that only rows of one key meet selects at most one row. -/
theorem length_filter_le_one (t : Table S) (p : ρ → Bool)
    (h : ∀ a b, p a = true → p b = true → S.key a = S.key b) :
    (t.rows.filter p).length ≤ 1 := by
  cases hl : t.rows.filter p with
  | nil => exact Nat.zero_le 1
  | cons r rest =>
    have hr : r ∈ t.rows ∧ p r = true := List.mem_filter.mp (hl ▸ List.mem_cons_self)
    have hsub : (t.rows.filter p).Sublist (t.rows.filter fun x => S.key x = S.key r) :=
      List.monotone_filter_right _ fun x hx => decide_eq_true (h x r hx hr.2)
    rw [t.filter_key hr.1, hl] at hsub
    exact hsub.length_le

/-- `UPDATE … WHERE key = k` writes the one version. -/
theorem updated_key (t : Table S) {r : ρ} (hr : r ∈ t.rows) (f : ρ → ρ) :
    t.updated (fun x => S.key x = S.key r) f = [f r] := by
  rw [updated, t.filter_key hr, List.map_singleton]

/-- A new version of one row is written exactly when it meets the row-local
constraints and collides with no other row. -/
theorem write_singleton_ok_iff {t : Table S} {w : ρ} (h : ∃ r ∈ t.rows, S.key r = S.key w) :
    (∃ t', t.write [w] = .ok t') ↔
      S.violation w = none ∧ ∀ r ∈ t.rows, S.key r ≠ S.key w → S.clash r w = false := by
  obtain ⟨old, hold, hkey⟩ := h
  rw [write_ok_iff, overlay_singleton ⟨old, hold, hkey⟩]
  have hkeys : (t.rows.map fun r => if S.key w = S.key r then w else r).map S.key
      = t.rows.map S.key := by
    rw [List.map_map]
    refine List.map_congr_left fun r _ => ?_
    by_cases hk : S.key w = S.key r <;> simp [hk]
  rw [hkeys, List.pairwise_map]
  constructor
  · rintro ⟨hw, -, -, hpw⟩
    refine ⟨hw w (by simp), fun r hr hne => ?_⟩
    have hsymm : Std.Symm fun a b =>
        S.clash (if S.key w = S.key a then w else a) (if S.key w = S.key b then w else b)
          = false :=
      ⟨fun x y hxy => by rw [S.clash_comm]; exact hxy⟩
    have hdiff : r ≠ old := fun heq => hne (heq ▸ hkey)
    have hclash := hpw.forall hr hold hdiff
    rwa [if_neg (fun h => hne h.symm), if_pos hkey.symm] at hclash
  · rintro ⟨hw, hclash⟩
    refine ⟨by simpa using hw, fun r hr => ?_, t.keys, ?_⟩
    · obtain ⟨x, hx, rfl⟩ := List.mem_map.mp hr
      split
      · exact hw
      · exact t.admitted x hx
    · have hboth := t.unique.and (List.pairwise_map.mp t.keys)
      refine hboth.imp_of_mem fun {a b} ha hb hab => ?_
      obtain ⟨hunique, hne⟩ := hab
      by_cases hka : S.key w = S.key a
      · have hkb : S.key b ≠ S.key w := fun heq => hne (by rw [← hka, heq])
        rw [if_pos hka, if_neg (fun h => hkb h.symm), S.clash_comm]
        exact hclash b hb hkb
      · rw [if_neg hka]
        split
        · exact hclash a ha fun heq => hka heq.symm
        · exact hunique

/-- A new version of a row is written when it meets the row-local
constraints and brings no new value of a unique column. -/
theorem write_version_ok (t : Table S) {old w : ρ} (hold : old ∈ t.rows)
    (hkey : S.key old = S.key w) (hw : S.violation w = none)
    (hclash : ∀ r, S.clash r w = true → S.clash r old = true) :
    ∃ t', t.write [w] = .ok t' := by
  refine (write_singleton_ok_iff ⟨old, hold, hkey⟩).mpr ⟨hw, fun r hr hne => ?_⟩
  rw [Bool.eq_false_iff]
  intro hrw
  cases t.eq_of_clash hr hold (hclash r hrw)
  exact hne hkey

/-- The rows after a write of one version: the version, and the rows of the
other keys. -/
theorem mem_write_singleton {t t' : Table S} {w x : ρ} (h : t.write [w] = .ok t') :
    x ∈ t'.rows ↔ x = w ∨ x ∈ t.rows ∧ S.key x ≠ S.key w := by
  rw [write_rows h]
  by_cases hkey : ∃ r ∈ t.rows, S.key r = S.key w
  · obtain ⟨old, hold, hk⟩ := hkey
    rw [overlay_singleton ⟨old, hold, hk⟩, List.mem_map]
    constructor
    · rintro ⟨r, hr, rfl⟩
      by_cases hrw : S.key w = S.key r
      · exact Or.inl (if_pos hrw)
      · rw [if_neg hrw]
        exact Or.inr ⟨hr, fun heq => hrw heq.symm⟩
    · rintro (rfl | ⟨hx, hne⟩)
      · exact ⟨old, hold, if_pos hk.symm⟩
      · exact ⟨x, hx, if_neg fun heq => hne heq.symm⟩
  · have hnew : ∀ r ∈ t.rows, S.key r ≠ S.key w := fun r hr hk => hkey ⟨r, hr, hk⟩
    rw [overlay_new hnew, List.mem_append, List.mem_singleton, or_comm]
    exact or_congr_right ⟨fun hx => ⟨hx, hnew x hx⟩, fun hx => hx.1⟩

/-- The versions of `UPDATE … SET f WHERE p` laid over the table, with a key that
`f` keeps. -/
theorem overlay_updated (t : Table S) (p : ρ → Bool) {f : ρ → ρ}
    (hkey : ∀ r, S.key (f r) = S.key r) :
    overlay S t.rows (t.updated p f) = t.rows.map fun r => if p r then f r else r := by
  have hversion : ∀ w ∈ t.updated p f, ∃ r ∈ t.rows, p r = true ∧ f r = w := by
    intro w hw
    obtain ⟨r, hr, rfl⟩ := List.mem_map.mp hw
    obtain ⟨hr, hp⟩ := List.mem_filter.mp hr
    exact ⟨r, hr, hp, rfl⟩
  rw [overlay_eq_map]
  · refine List.map_congr_left fun r hr => ?_
    cases hfind : (t.updated p f).find? fun w => S.key w = S.key r with
    | none =>
      rw [List.find?_eq_none] at hfind
      rw [if_neg]
      · rfl
      · intro hp
        exact hfind (f r) (List.mem_map_of_mem (List.mem_filter.mpr ⟨hr, hp⟩)) (by simp [hkey])
    | some w =>
      obtain ⟨x, hx, hp, rfl⟩ := hversion w (List.mem_of_find?_eq_some hfind)
      have hk : S.key (f x) = S.key r := by simpa using List.find?_some hfind
      obtain rfl := t.eq_of_key hx hr ((hkey x).symm.trans hk)
      rw [if_pos hp]
      rfl
  · intro w hw
    obtain ⟨r, hr, -, rfl⟩ := hversion w hw
    exact ⟨r, hr, (hkey r).symm⟩

/-- The rows after it. -/
theorem write_updated_rows {t t' : Table S} {p : ρ → Bool} {f : ρ → ρ}
    (hkey : ∀ r, S.key (f r) = S.key r) (h : t.write (t.updated p f) = .ok t') :
    t'.rows = t.rows.map fun r => if p r then f r else r :=
  (write_rows h).trans (t.overlay_updated p hkey)

/-- The sum over rows of which one is replaced. -/
theorem sum_map_replace {rows : List ρ} {r w : ρ} (g : ρ → Int)
    (hnodup : (rows.map S.key).Nodup) (hr : r ∈ rows) (hkey : S.key r = S.key w) :
    ((rows.map fun x => if S.key w = S.key x then w else x).map g).sum
      = (rows.map g).sum + (g w - g r) := by
  induction rows with
  | nil => cases hr
  | cons x rows ih =>
    rw [List.map_cons, List.nodup_cons] at hnodup
    obtain ⟨hx, hnodup⟩ := hnodup
    simp only [List.map_cons, List.sum_cons]
    rcases List.mem_cons.mp hr with rfl | hr
    · have hrest : (rows.map fun x => if S.key w = S.key x then w else x) = rows := by
        refine (List.map_congr_left fun y hy => if_neg fun heq => hx ?_).trans (List.map_id _)
        rw [hkey, heq]
        exact List.mem_map_of_mem hy
      rw [if_pos hkey.symm, hrest]
      omega
    · have hne : S.key w ≠ S.key x := fun heq => hx (by
        rw [← heq, ← hkey]
        exact List.mem_map_of_mem hr)
      rw [if_neg hne, ih hnodup hr]
      omega

/-- The sum over a table after a write of one version. -/
theorem sum_write_singleton {t t' : Table S} {r w : ρ} (g : ρ → Int) (hr : r ∈ t.rows)
    (hkey : S.key r = S.key w) (h : t.write [w] = .ok t') :
    (t'.rows.map g).sum = (t.rows.map g).sum + (g w - g r) := by
  rw [write_rows h, overlay_singleton ⟨r, hr, hkey⟩]
  exact sum_map_replace g t.keys hr hkey

end Table

end Sql
