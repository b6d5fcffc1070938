import MizanConnect.Lib.Table

/-!
# `MizanConnect.Lib.Ddl`: the statements of a migration

What a migration does to tables that already have rows. `insertMissing` is
`INSERT … SELECT … ON CONFLICT DO NOTHING`, `addColumn` and `recheck` are the
two kinds of `ALTER TABLE`: one changes the rows and no constraint, the other
the constraints and no row. `References` is a foreign key.

Each of the main facts says when the statement goes through and what it
leaves: `insertMissing_new`, `updateWhere_rows` and `recheck_ok_iff`.
-/

set_option autoImplicit false

namespace Sql

variable {ρ κ ρ' κ' : Type} [DecidableEq κ] {S : Schema ρ κ} {S' : Schema ρ' κ'}

/-- A foreign key: each value of `column` that is not NULL is a primary key of
the other table. -/
def References (column : ρ → Option κ') (rows : List ρ) (t : Table S') : Prop :=
  ∀ r ∈ rows, ∀ k, column r = some k → ∃ x ∈ t.rows, S'.key x = k

/-- Why a migration fails. -/
inductive Failure where
  | violation (v : Violation)
  | foreignKey (constraint : String)
deriving DecidableEq, Repr

/-- Whether one row meets a foreign key. -/
def refers [DecidableEq κ'] (column : ρ → Option κ') (t : Table S') (r : ρ) : Bool :=
  match column r with
  | some k => t.rows.any fun x => S'.key x = k
  | none => true

theorem refers_iff [DecidableEq κ'] {column : ρ → Option κ'} {t : Table S'} {r : ρ} :
    refers column t r = true ↔ ∀ k, column r = some k → ∃ x ∈ t.rows, S'.key x = k := by
  unfold refers
  cases column r with
  | none => simp
  | some k => simp [List.any_eq_true]

/-- Check a foreign key. -/
def checkForeignKey [DecidableEq κ'] (constraint : String) (column : ρ → Option κ')
    (rows : List ρ) (t : Table S') : Except Failure Unit :=
  if rows.all (refers column t) then .ok () else .error (.foreignKey constraint)

theorem checkForeignKey_ok_iff [DecidableEq κ'] {constraint : String} {column : ρ → Option κ'}
    {rows : List ρ} {t : Table S'} :
    checkForeignKey constraint column rows t = .ok () ↔ References column rows t := by
  unfold checkForeignKey References
  by_cases hall : rows.all (refers column t) = true
  · rw [if_pos hall]
    refine iff_of_true rfl ?_
    intro r hr
    exact refers_iff.mp (List.all_eq_true.mp hall r hr)
  · rw [if_neg hall]
    refine iff_of_false (fun h => nomatch h) ?_
    intro h
    exact hall (List.all_eq_true.mpr fun r hr => refers_iff.mpr (h r hr))

theorem checkForeignKey_error [DecidableEq κ'] {constraint : String} {column : ρ → Option κ'}
    {rows : List ρ} {t : Table S'} (h : ¬ References column rows t) :
    checkForeignKey constraint column rows t = .error (.foreignKey constraint) := by
  have hall : ¬ rows.all (refers column t) = true := by
    intro hall
    exact h fun r hr => refers_iff.mp (List.all_eq_true.mp hall r hr)
  unfold checkForeignKey
  rw [if_neg hall]

namespace Table

/-! ### Rows -/

/-- `INSERT … ON CONFLICT (k) DO NOTHING` of one row, where `k` is the primary
key. -/
def insertIfNew (t : Table S) (r : ρ) : Except Violation (Table S) :=
  match S.violation r with
  | some v => .error v
  | none => if t.rows.any fun x => S.key x = S.key r then .ok t else t.write [r]

/-- `INSERT … SELECT … ON CONFLICT (k) DO NOTHING`. -/
def insertMissing (t : Table S) : List ρ → Except Violation (Table S)
  | [] => .ok t
  | r :: rows =>
    match t.insertIfNew r with
    | .error v => .error v
    | .ok t' => t'.insertMissing rows

/-- A row under a new key is inserted when it meets the constraints. -/
theorem insertIfNew_new {t : Table S} {r : ρ} (hr : S.violation r = none)
    (hkey : ∀ x ∈ t.rows, S.key x ≠ S.key r) (hclash : ∀ x ∈ t.rows, S.clash x r = false) :
    ∃ t', t.insertIfNew r = .ok t' ∧ t'.rows = t.rows ++ [r] := by
  obtain ⟨t', ht'⟩ := t.write_new_ok hkey hr hclash
  have hany : (t.rows.any fun x => S.key x = S.key r) = false := by
    rw [List.any_eq_false]
    intro x hx
    simpa using hkey x hx
  refine ⟨t', ?_, (write_rows ht').trans (overlay_new hkey)⟩
  simp only [insertIfNew, hr, hany]
  exact ht'

/-- Rows under new keys that meet the constraints are all inserted. Induction on
the rows: a row that was inserted has another key than the ones to come. -/
theorem insertMissing_new {t : Table S} {rows : List ρ}
    (hadmitted : ∀ r ∈ rows, S.violation r = none)
    (hkeys : ((t.rows ++ rows).map S.key).Nodup)
    (hunique : (t.rows ++ rows).Pairwise fun a b => S.clash a b = false) :
    ∃ t', t.insertMissing rows = .ok t' ∧ t'.rows = t.rows ++ rows := by
  induction rows generalizing t with
  | nil => exact ⟨t, rfl, (List.append_nil _).symm⟩
  | cons r rows ih =>
    have hkey : ∀ x ∈ t.rows, S.key x ≠ S.key r := by
      intro x hx
      rw [List.map_append, List.nodup_append] at hkeys
      exact hkeys.2.2 _ (List.mem_map_of_mem hx) _ List.mem_cons_self
    have hclash : ∀ x ∈ t.rows, S.clash x r = false := by
      intro x hx
      exact (List.pairwise_append.mp hunique).2.2 x hx r List.mem_cons_self
    obtain ⟨m, hm, hrows⟩ := insertIfNew_new (hadmitted r List.mem_cons_self) hkey hclash
    have hcons : m.rows ++ rows = t.rows ++ r :: rows := by
      rw [hrows, List.append_assoc, List.singleton_append]
    obtain ⟨t', ht', hrows'⟩ := ih (t := m)
      (fun x hx => hadmitted x (List.mem_cons_of_mem r hx)) (hcons ▸ hkeys) (hcons ▸ hunique)
    refine ⟨t', ?_, hrows'.trans hcons⟩
    simp only [insertMissing, hm]
    exact ht'

/-- The rows of a table fill an empty one. -/
theorem insertMissing_empty (t : Table S) :
    (Table.empty : Table S).insertMissing t.rows = .ok t := by
  obtain ⟨t', ht', hrows⟩ : ∃ t', (Table.empty : Table S).insertMissing t.rows = .ok t' ∧
      t'.rows = [] ++ t.rows := insertMissing_new t.admitted t.keys t.unique
  rw [ht']
  exact congrArg Except.ok (Table.ext hrows)

/-- What `UPDATE … SET f WHERE p` leaves. When `f` changes no key and nothing
that a constraint reads, it goes through. -/
theorem updateWhere_rows (t : Table S) (p : ρ → Bool) {f : ρ → ρ}
    (hkey : ∀ r, S.key (f r) = S.key r) (hviolation : ∀ r, S.violation (f r) = S.violation r)
    (hclash : ∀ a b, S.clash (f a) b = S.clash a b) :
    ∃ t', t.updateWhere p f = .ok t' ∧ t'.rows = t.rows.map fun r => if p r then f r else r := by
  have hoverlay := t.overlay_updated p hkey
  have hsame : ∀ a b, S.clash (if p a then f a else a) (if p b then f b else b) = S.clash a b := by
    intro a b
    have hleft : S.clash (if p a then f a else a) b = S.clash a b := by
      by_cases ha : p a = true
      · rw [if_pos ha, hclash]
      · rw [if_neg ha]
    by_cases hb : p b = true
    · rw [if_pos hb, S.clash_comm, hclash, S.clash_comm, hleft]
    · rw [if_neg hb, hleft]
  obtain ⟨t', ht'⟩ : ∃ t', t.write (t.updated p f) = .ok t' := by
    rw [write_ok_iff, hoverlay]
    refine ⟨?_, ?_, ?_, ?_⟩
    · intro w hw
      obtain ⟨r, hr, rfl⟩ := List.mem_map.mp hw
      rw [hviolation]
      exact t.admitted r (List.mem_filter.mp hr).1
    · intro w hw
      obtain ⟨r, hr, rfl⟩ := List.mem_map.mp hw
      by_cases hp : p r = true
      · rw [if_pos hp, hviolation]
        exact t.admitted r hr
      · rw [if_neg hp]
        exact t.admitted r hr
    · have hmap : (t.rows.map fun r => if p r then f r else r).map S.key = t.rows.map S.key := by
        rw [List.map_map]
        refine List.map_congr_left ?_
        intro r _
        by_cases hp : p r = true <;> simp [hp, hkey]
      rw [hmap]
      exact t.keys
    · rw [List.pairwise_map]
      exact t.unique.imp fun {a b} hab => (hsame a b).trans hab
  exact ⟨t', ht', (write_rows ht').trans hoverlay⟩

/-! ### Columns and constraints -/

/-- `ALTER TABLE … ADD COLUMN`: `f` fills the new column, which no constraint
reads. -/
def addColumn (t : Table S) (f : ρ → ρ) (hkey : ∀ r, S.key (f r) = S.key r)
    (hviolation : ∀ r, S.violation (f r) = S.violation r)
    (hclash : ∀ a b, S.clash (f a) (f b) = S.clash a b) : Table S where
  rows := t.rows.map f
  admitted := by
    intro r hr
    obtain ⟨x, hx, rfl⟩ := List.mem_map.mp hr
    rw [hviolation]
    exact t.admitted x hx
  keys := by
    rw [List.map_map]
    have hsame : S.key ∘ f = S.key := funext hkey
    rw [hsame]
    exact t.keys
  unique := by
    rw [List.pairwise_map]
    exact t.unique.imp fun {a b} hab => (hclash a b).trans hab

/-- The same rows under other constraints, as `ALTER TABLE … SET NOT NULL` and
`CREATE UNIQUE INDEX` check them. -/
def recheck (t : Table S) (R : Schema ρ κ) : Except Violation (Table R) :=
  match h : t.rows.findSome? R.violation with
  | some v => .error v
  | none =>
    if hvalid : (t.rows.map R.key).Nodup ∧ t.rows.Pairwise fun a b => R.clash a b = false then
      .ok ⟨t.rows, List.findSome?_eq_none_iff.mp h, hvalid.1, hvalid.2⟩
    else .error .unique

/-- The rows are kept. -/
theorem recheck_rows {t : Table S} {R : Schema ρ κ} {t' : Table R} (h : t.recheck R = .ok t') :
    t'.rows = t.rows := by
  unfold recheck at h
  split at h
  · cases h
  · split at h
    · cases h
      rfl
    · cases h

/-- The new constraints hold exactly when the statement goes through. -/
theorem recheck_ok_iff {t : Table S} {R : Schema ρ κ} :
    (∃ t', t.recheck R = .ok t') ↔
      (∀ r ∈ t.rows, R.violation r = none) ∧ (t.rows.map R.key).Nodup ∧
        t.rows.Pairwise fun a b => R.clash a b = false := by
  constructor
  · rintro ⟨t', h⟩
    rw [← recheck_rows h]
    exact ⟨t'.admitted, t'.keys, t'.unique⟩
  · rintro ⟨hadmitted, hkeys, hunique⟩
    refine ⟨⟨t.rows, hadmitted, hkeys, hunique⟩, ?_⟩
    unfold recheck
    split
    · rename_i v hv
      rw [List.findSome?_eq_none_iff.mpr hadmitted] at hv
      cases hv
    · exact dif_pos ⟨hkeys, hunique⟩

end Table

end Sql
