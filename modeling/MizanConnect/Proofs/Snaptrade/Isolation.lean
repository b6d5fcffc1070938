import MizanConnect.Proofs.Snaptrade.ListDelete

/-!
# `MizanConnect.Proofs.Snaptrade.Isolation`: one tenant's view

The rows of a user and the rows of the others (`rowsOf`, `othersOf`). A request
of the user leaves the others alone (`others_exec`), and what it is answered
depends on the rows of the user only: `exec_agree` compares one operation on
two tables that agree on them, and `Concurrent.solo_agree` lifts it to whole
requests.

Two writes could tell the tables apart: an insert under an id, or with a
SnapTrade user id, that a row of another user has. `FreshInput` excludes this.
-/

set_option autoImplicit false

namespace MizanConnect.Proofs.Snaptrade

open MizanConnect.Snaptrade
open MizanConnect.Snaptrade.Repository
open MizanConnect.Snaptrade.BrokerConnections (Row schema isSnaptrade isActiveSnaptrade)
open Concurrent (Rules solo solo_agree solo_keeps)
open Sql (Table Violation)

/-! ### Views of a table -/

/-- The rows of the user. -/
def rowsOf (userId : Uuid) (rows : List Row) : List Row := rows.filter fun x => x.userId = userId

/-- The rows of the other users. -/
def othersOf (userId : Uuid) (rows : List Row) : List Row := rows.filter fun x => x.userId ≠ userId

theorem mem_rowsOf {userId : Uuid} {rows : List Row} {x : Row} :
    x ∈ rowsOf userId rows ↔ x ∈ rows ∧ x.userId = userId := by
  simp [rowsOf]

theorem mem_othersOf {userId : Uuid} {rows : List Row} {x : Row} :
    x ∈ othersOf userId rows ↔ x ∈ rows ∧ x.userId ≠ userId := by
  simp [othersOf]

/-- An update keeps the split of the rows by user. -/
theorem rowsOf_map {userId : Uuid} {rows : List Row} {f : Row → Row}
    (hf : ∀ x, (f x).userId = x.userId) :
    rowsOf userId (rows.map f) = (rowsOf userId rows).map f := by
  rw [rowsOf, rowsOf, List.filter_map]
  refine congrArg (List.map f) (List.filter_congr ?_)
  intro x _
  simp [hf x]

/-- An update of rows of the user leaves the others. -/
theorem othersOf_map (userId : Uuid) (rows : List Row) (p : Row → Bool) (f : Row → Row)
    (hf : ∀ x, (f x).userId = x.userId) (hp : ∀ x ∈ rows, p x = true → x.userId = userId) :
    othersOf userId (rows.map fun x => if p x then f x else x) = othersOf userId rows := by
  rw [othersOf, List.filter_map]
  have hsame : ∀ x ∈ rows.filter fun x => x.userId ≠ userId,
      (if p x then f x else x) = x := by
    intro x hx
    obtain ⟨hx, huser⟩ := List.mem_filter.mp hx
    refine if_neg ?_
    intro hpx
    exact of_decide_eq_true huser (hp x hx hpx)
  have hcond : ∀ x ∈ rows, ((fun x => decide (x.userId ≠ userId)) ∘
      fun x => if p x then f x else x) x = decide (x.userId ≠ userId) := by
    intro x _
    by_cases hpx : p x = true
    · simp [hpx, hf x]
    · simp [hpx]
  rw [List.filter_congr hcond, List.map_congr_left hsame]
  exact List.map_id _

theorem rowsOf_append (userId : Uuid) (rows : List Row) {x : Row} (hx : x.userId = userId) :
    rowsOf userId (rows ++ [x]) = rowsOf userId rows ++ [x] := by
  simp [rowsOf, hx]

theorem othersOf_append (userId : Uuid) (rows : List Row) {x : Row} (hx : x.userId = userId) :
    othersOf userId (rows ++ [x]) = othersOf userId rows := by
  simp [othersOf, hx]

/-! ### The lookups see one user -/

/-- A selection within the rows of the user. -/
theorem filter_rowsOf {userId : Uuid} {rows : List Row} {p : Row → Bool}
    (hp : ∀ x, p x = true → x.userId = userId) : (rowsOf userId rows).filter p = rows.filter p := by
  rw [rowsOf, List.filter_filter]
  refine List.filter_congr ?_
  intro x _
  by_cases hpx : p x = true
  · simp [hpx, hp x hpx]
  · simp [hpx]

theorem find?_rowsOf {userId : Uuid} {rows : List Row} {p : Row → Bool}
    (hp : ∀ x, p x = true → x.userId = userId) : (rowsOf userId rows).find? p = rows.find? p := by
  rw [← List.head?_filter, ← List.head?_filter, filter_rowsOf hp]

theorem userId_of_snaptradeFor {userId : Uuid} {x : Row} (h : snaptradeFor userId x = true) :
    x.userId = userId := by
  simp only [snaptradeFor, Bool.and_eq_true, decide_eq_true_eq] at h
  exact h.1

section
variable {t t' : Table schema} {userId : Uuid}

theorem fetchActiveForUser_congr (h : rowsOf userId t.rows = rowsOf userId t'.rows) :
    fetchActiveForUser t userId = fetchActiveForUser t' userId := by
  have hp : ∀ x : Row, (snaptradeFor userId x && x.isActive) = true → x.userId = userId := by
    intro x hx
    rw [Bool.and_eq_true] at hx
    exact userId_of_snaptradeFor hx.1
  rw [fetchActiveForUser, fetchActiveForUser, activeRowFor, activeRowFor, ← find?_rowsOf hp, h,
    find?_rowsOf hp]

theorem fetchAnyForUser_congr (h : rowsOf userId t.rows = rowsOf userId t'.rows) :
    fetchAnyForUser t userId = fetchAnyForUser t' userId := by
  have hp : ∀ x : Row, snaptradeFor userId x = true → x.userId = userId :=
    fun _ => userId_of_snaptradeFor
  rw [fetchAnyForUser, fetchAnyForUser, anyRowFor, anyRowFor, ← filter_rowsOf hp, h,
    filter_rowsOf hp]

theorem fetchByAuthorizationIdForUser_congr (h : rowsOf userId t.rows = rowsOf userId t'.rows)
    (authorizationId : String) :
    fetchByAuthorizationIdForUser t userId authorizationId
      = fetchByAuthorizationIdForUser t' userId authorizationId := by
  have hp : ∀ x : Row, authorizedFor userId authorizationId x = true → x.userId = userId := by
    intro x hx
    rw [authorizedFor, Bool.and_eq_true] at hx
    exact userId_of_snaptradeFor hx.2
  rw [fetchByAuthorizationIdForUser, fetchByAuthorizationIdForUser, authorizationRowFor,
    authorizationRowFor, ← find?_rowsOf hp, h, find?_rowsOf hp]

end

/-! ### A request leaves the others alone -/

/-- An operation that a request of the user may do changes no row of another
user. -/
theorem others_exec {ctx : BrokerContext} {Reg : Uuid → String → Prop} {r : Request}
    {db : BrokerDb} {o : Op} {userId : Uuid} (i : brokerage.In o)
    (hu : requester ctx r = some userId) (hmay : May ctx Reg r db o) :
    othersOf userId (brokerage.exec db o i).2.connections.rows
      = othersOf userId db.connections.rows := by
  have hchange := exec_change db o i
  generalize (brokerage.exec db o i).2.connections.rows = rows' at hchange
  cases hchange with
  | keep => rfl
  | inserted owner snaptradeUserId blob now newId hnew =>
    exact othersOf_append userId _ (Option.some.inj (hmay.1.symm.trans hu))
  | completed connectionId authorizationId slug name now =>
    -- The row of the id is one of the user.
    obtain ⟨y, hy, hid, howner, -⟩ := hmay
    have huser : y.userId = userId := Option.some.inj (howner.symm.trans hu)
    have hmap := othersOf_map userId db.connections.rows (fun x => x.id = connectionId)
      (completedRow now authorizationId slug name) (fun _ => rfl) ?_
    · simpa using hmap
    · intro x hx hxid
      rw [decide_eq_true_eq] at hxid
      rw [db.connections.eq_of_key hx hy (hxid.trans hid.symm), huser]
  | deleted owner connectionId now =>
    -- The statement of `soft_delete` selects by the user as well.
    obtain ⟨⟨authorizationId, hr⟩, -⟩ := hmay
    obtain rfl : owner = userId := by
      rw [hr] at hu
      exact Option.some.inj hu
    refine othersOf_map _ _ _ _ (fun _ => rfl) ?_
    intro x _ howned
    rw [ownedBy, Bool.and_eq_true] at howned
    exact userId_of_snaptradeFor howned.2

/-! ### Writes on two tables -/

/-- Two outcomes of a statement that look the same to the user, the second
without effect on the others. -/
def SameOutcome {α : Type} (userId : Uuid) (others : List Row) :
    Except Violation (Table schema × α) → Except Violation (Table schema × α) → Prop
  | .ok (t, a), .ok (t', a') =>
    a = a' ∧ rowsOf userId t.rows = rowsOf userId t'.rows ∧ othersOf userId t'.rows = others
  | .error v, .error v' => v = v'
  | _, _ => False

section
variable {t t' : Table schema} {userId : Uuid} {others : List Row}

/-- Two statements that fail together, on a unique index, and succeed with
outcomes that look the same. -/
theorem sameOutcome_of {α : Type} {x y : Except Violation (Table schema × α)}
    (hx : ∀ v, x = .error v → v = .unique) (hy : ∀ v, y = .error v → v = .unique)
    (hok : (∃ out, x = .ok out) ↔ ∃ out, y = .ok out)
    (hsame : ∀ s a s' a', x = .ok (s, a) → y = .ok (s', a') →
      a = a' ∧ rowsOf userId s.rows = rowsOf userId s'.rows ∧ othersOf userId s'.rows = others) :
    SameOutcome userId others x y := by
  -- A unique index is the only way to fail, so two failures are one.
  cases x with
  | error v =>
    cases y with
    | error v' => exact (hx v rfl).trans (hy v' rfl).symm
    | ok out =>
      obtain ⟨out', hout'⟩ := hok.mpr ⟨out, rfl⟩
      cases hout'
  | ok out =>
    cases y with
    | error v' =>
      obtain ⟨out', hout'⟩ := hok.mp ⟨out, rfl⟩
      cases hout'
    | ok out' => exact hsame _ _ _ _ rfl rfl

/-- A mapped write that fails hits a unique index. -/
theorem map_write_error {α : Type} {s : Table schema} {ws : List Row} {f : Table schema → α}
    {v : Violation} (h : (s.write ws).map f = .error v) : v = .unique := by
  cases hwrite : s.write ws with
  | error v' =>
    rw [hwrite] at h
    cases h
    exact Table.write_error (fun _ => rfl) hwrite
  | ok s' =>
    rw [hwrite] at h
    cases h

theorem map_write_ok {α : Type} {s : Table schema} {ws : List Row} {f : Table schema → α} :
    (∃ out, (s.write ws).map f = .ok out) ↔ ∃ s', s.write ws = .ok s' := by
  cases s.write ws with
  | error v => simp [Except.map]
  | ok s' => simp [Except.map]

/-- `mark_completed` on a row of the user: only an active row of the same user
is in the way. -/
theorem markCompletedStatement_ok_iff {s : Table schema} {x : Row} (hx : x ∈ s.rows)
    (hkind : isSnaptrade x = true) (authorizationId : String) (slug name : Option String)
    (now : Timestamp) (newId : Uuid) :
    (∃ out, markCompletedStatement x.id authorizationId slug name s now newId = .ok out) ↔
      ∀ r ∈ rowsOf x.userId s.rows, r.id ≠ x.id → isActiveSnaptrade r = false := by
  unfold markCompletedStatement
  rw [markCompleted_eq_write now authorizationId slug name hx, map_write_ok,
    Table.write_singleton_ok_iff (w := completedRow now authorizationId slug name x) ⟨x, hx, rfl⟩]
  -- The index of the active rows is by user, so other users are not in the way.
  have hclash : ∀ r ∈ s.rows, r.id ≠ x.id →
      (schema.clash r (completedRow now authorizationId slug name x) = false ↔
        (r.userId = x.userId → isActiveSnaptrade r = false)) := by
    intro r hr hne
    rw [← Bool.not_eq_true, clash_completedRow_iff now authorizationId slug name hx hkind hr hne,
      not_and, Bool.not_eq_true]
  constructor
  · rintro ⟨-, hfree⟩ r hr hne
    obtain ⟨hr, huser⟩ := mem_rowsOf.mp hr
    exact (hclash r hr hne).mp (hfree r hr hne) huser
  · intro hall
    refine ⟨rfl, ?_⟩
    intro r hr hne
    exact (hclash r hr hne).mpr fun huser => hall r (mem_rowsOf.mpr ⟨hr, huser⟩) hne

theorem sameOutcome_markCompleted {x : Row} (hx : x ∈ t.rows) (huser : x.userId = userId)
    (hkind : isSnaptrade x = true) (h : rowsOf userId t.rows = rowsOf userId t'.rows)
    (hothers : othersOf userId t'.rows = others) (authorizationId : String)
    (slug name : Option String) (now : Timestamp) (newId : Uuid) :
    SameOutcome userId others
      (markCompletedStatement x.id authorizationId slug name t now newId)
      (markCompletedStatement x.id authorizationId slug name t' now newId) := by
  have hx' : x ∈ t'.rows := (mem_rowsOf.mp (h ▸ mem_rowsOf.mpr ⟨hx, huser⟩)).1
  refine sameOutcome_of ?_ ?_ ?_ ?_
  · intro v hv
    unfold markCompletedStatement at hv
    rw [markCompleted_eq_write now authorizationId slug name hx] at hv
    exact map_write_error hv
  · intro v hv
    unfold markCompletedStatement at hv
    rw [markCompleted_eq_write now authorizationId slug name hx'] at hv
    exact map_write_error hv
  · rw [markCompletedStatement_ok_iff hx hkind, markCompletedStatement_ok_iff hx' hkind, huser, h]
  · intro s a s' a' hs hs'
    rw [markCompletedStatement_rows hs, markCompletedStatement_rows hs']
    refine ⟨rfl, ?_, ?_⟩
    · have hkeep : ∀ r : Row, (if r.id = x.id then completedRow now authorizationId slug name r
          else r).userId = r.userId := by
        intro r
        split
        · rfl
        · rfl
      rw [rowsOf_map hkeep, rowsOf_map hkeep, h]
    · rw [← hothers]
      have hmap := othersOf_map userId t'.rows (fun r => r.id = x.id)
        (completedRow now authorizationId slug name) (fun _ => rfl) ?_
      · simpa using hmap
      · intro r hr hid
        rw [t'.eq_of_key hr hx' (of_decide_eq_true hid), huser]

theorem sameOutcome_softDelete (h : rowsOf userId t.rows = rowsOf userId t'.rows)
    (hothers : othersOf userId t'.rows = others) (connectionId : Uuid) (now : Timestamp) :
    SameOutcome userId others (softDelete t userId connectionId now)
      (softDelete t' userId connectionId now) := by
  have howned : ∀ r : Row, ownedBy userId connectionId r = true → r.userId = userId := by
    intro r hr
    rw [ownedBy, Bool.and_eq_true] at hr
    exact userId_of_snaptradeFor hr.2
  obtain ⟨s, n, hs⟩ := softDelete_ok t userId connectionId now
  obtain ⟨s', n', hs'⟩ := softDelete_ok t' userId connectionId now
  rw [hs, hs']
  refine ⟨?_, ?_, ?_⟩
  · -- The rows that are counted are those of the user.
    obtain ⟨x, -, hx⟩ := map_eq_ok hs
    obtain ⟨x', -, hx'⟩ := map_eq_ok hs'
    have hn : (t.rows.filter (ownedBy userId connectionId)).length = n := congrArg Prod.snd hx
    have hn' : (t'.rows.filter (ownedBy userId connectionId)).length = n' := congrArg Prod.snd hx'
    rw [← hn, ← hn', ← filter_rowsOf howned, h, filter_rowsOf howned]
  · have hkeep : ∀ r : Row, (if ownedBy userId connectionId r then deletedRow now r
        else r).userId = r.userId := by
      intro r
      split
      · rfl
      · rfl
    rw [softDelete_rows hs, softDelete_rows hs', rowsOf_map hkeep, rowsOf_map hkeep, h]
  · rw [softDelete_rows hs', ← hothers]
    exact othersOf_map _ _ _ _ (fun _ => rfl) fun r _ => howned r

/-- `insert_pending` under an id and with a SnapTrade user id that the others
do not have: only the rows of the user are in the way. -/
theorem insertPending_ok_iff {s : Table schema} (snaptradeUserId : String) (blob : List UInt8)
    (now : Timestamp) (newId : Uuid)
    (hfresh : ∀ x ∈ othersOf userId s.rows, x.id ≠ newId ∧ x.snaptradeUserId ≠ snaptradeUserId) :
    (∃ out, insertPending s userId snaptradeUserId blob now newId = .ok out) ↔
      ∀ x ∈ rowsOf userId s.rows, x.id ≠ newId ∧
        (isSnaptrade x = true → x.snaptradeUserId ≠ snaptradeUserId) := by
  unfold insertPending
  have hmap : (∃ out, (s.insert (Repository.pendingRow now newId userId snaptradeUserId blob)).map
      (fun t' => (t', newId)) = .ok out) ↔
      ∃ t', s.insert (Repository.pendingRow now newId userId snaptradeUserId blob) = .ok t' := by
    cases s.insert (Repository.pendingRow now newId userId snaptradeUserId blob) with
    | error v => simp [Except.map]
    | ok t' => simp [Except.map]
  rw [hmap, Table.insert_ok_iff]
  -- The pending row is not active, so only the second index counts.
  have hclash : ∀ x, schema.clash x (Repository.pendingRow now newId userId snaptradeUserId blob)
      = false ↔ (isSnaptrade x = true → x.snaptradeUserId ≠ snaptradeUserId) := by
    intro x
    simp only [schema, BrokerConnections.clash, Sql.uniqueOn, Repository.pendingRow,
      isActiveSnaptrade, isSnaptrade]
    by_cases hx : x.connectionType = "snaptrade"
    · simp [hx]
    · simp [hx]
  constructor
  · rintro ⟨-, hall⟩ x hx
    obtain ⟨hkey, hfree⟩ := hall x (mem_rowsOf.mp hx).1
    exact ⟨hkey, (hclash x).mp hfree⟩
  · intro hall
    refine ⟨rfl, ?_⟩
    intro x hx
    -- The rows of the user are those of the condition, and the others are
    -- fresh.
    by_cases huser : x.userId = userId
    · obtain ⟨hkey, hfree⟩ := hall x (mem_rowsOf.mpr ⟨hx, huser⟩)
      exact ⟨hkey, (hclash x).mpr hfree⟩
    · obtain ⟨hkey, hname⟩ := hfresh x (mem_othersOf.mpr ⟨hx, huser⟩)
      exact ⟨hkey, (hclash x).mpr fun _ => hname⟩

theorem sameOutcome_insertPending {snaptradeUserId : String} {newId : Uuid}
    (h : rowsOf userId t.rows = rowsOf userId t'.rows) (hothers : othersOf userId t'.rows = others)
    (hfresh : ∀ x ∈ othersOf userId t.rows ++ others,
      x.id ≠ newId ∧ x.snaptradeUserId ≠ snaptradeUserId)
    (blob : List UInt8) (now : Timestamp) :
    SameOutcome userId others (insertPending t userId snaptradeUserId blob now newId)
      (insertPending t' userId snaptradeUserId blob now newId) := by
  have herror : ∀ s : Table schema, ∀ v,
      insertPending s userId snaptradeUserId blob now newId = .error v → v = .unique := by
    intro s v hv
    unfold insertPending at hv
    cases hinsert : s.insert (Repository.pendingRow now newId userId snaptradeUserId blob) with
    | error v' =>
      rw [hinsert] at hv
      cases hv
      exact Table.insert_error (fun _ => rfl) hinsert
    | ok s' =>
      rw [hinsert] at hv
      cases hv
  refine sameOutcome_of (herror t) (herror t') ?_ ?_
  · rw [insertPending_ok_iff snaptradeUserId blob now newId fun x hx =>
      hfresh x (List.mem_append_left _ hx), insertPending_ok_iff snaptradeUserId blob now newId
      fun x hx => hfresh x (List.mem_append_right _ (hothers ▸ hx)), h]
  · intro s a s' a' hs hs'
    obtain ⟨x, hinsert, hx⟩ := map_eq_ok hs
    obtain ⟨x', hinsert', hx'⟩ := map_eq_ok hs'
    cases hx
    cases hx'
    rw [(Table.insert_rows hinsert).1, (Table.insert_rows hinsert').1]
    refine ⟨rfl, ?_, ?_⟩
    · rw [rowsOf_append userId _ rfl, rowsOf_append userId _ rfl, h]
    · rw [othersOf_append userId _ rfl, hothers]

end

/-! ### One operation on two tables -/

/-- The second table has the user's rows of the first, and `others`. -/
structure Agree (userId : Uuid) (others : List Row) (db db' : BrokerDb) : Prop where
  rows : rowsOf userId db.connections.rows = rowsOf userId db'.connections.rows
  others : othersOf userId db'.connections.rows = others

/-- A registration for the user returns a SnapTrade user id that no row of
`taken` has, and an insert draws an id that none of them has. -/
def FreshInput (userId : Uuid) (taken : List Row) : (o : Op) → brokerage.In o → Prop
  | .call (.registerUser name), reply => name = userId.toString →
    ∀ resp, reply = .ok resp → ∀ x ∈ taken, x.snaptradeUserId ≠ resp.userId
  | .insertPending _ _ _, attempt => ∀ now newId acknowledged,
    attempt = Attempt.run now newId acknowledged → ∀ x ∈ taken, x.id ≠ newId
  | _, _ => True

/-- No row of `taken` has the SnapTrade user id. -/
def Unused (userId : Uuid) (taken : List Row) (owner : Uuid) (snaptradeUserId : String) : Prop :=
  owner = userId → ∀ x ∈ taken, x.snaptradeUserId ≠ snaptradeUserId

section
variable {userId : Uuid} {others others' : List Row} {db db' : BrokerDb}

theorem write_agree {α : Type} {attempt : Attempt}
    {statement : Table schema → Timestamp → Uuid → Except Violation (Table schema × α)}
    (hA : Agree userId others' db db')
    (h : ∀ now newId acknowledged, attempt = .run now newId acknowledged →
      SameOutcome userId others' (statement db.connections now newId)
        (statement db'.connections now newId)) :
    (db.write attempt statement).1 = (db'.write attempt statement).1 ∧
      Agree userId others' (db.write attempt statement).2 (db'.write attempt statement).2 := by
  cases attempt with
  | lost => exact ⟨rfl, hA.rows, hA.others⟩
  | run now newId acknowledged =>
    have hsame := h now newId acknowledged rfl
    cases hs : statement db.connections now newId with
    | error v =>
      cases hs' : statement db'.connections now newId with
      | error v' =>
        rw [hs, hs'] at hsame
        obtain rfl : v = v' := hsame
        simp only [BrokerDb.write, Attempt.write, hs, hs']
        exact ⟨trivial, hA.rows, hA.others⟩
      | ok out' =>
        rw [hs, hs'] at hsame
        cases hsame
    | ok out =>
      cases hs' : statement db'.connections now newId with
      | error v' =>
        rw [hs, hs'] at hsame
        cases hsame
      | ok out' =>
        rw [hs, hs'] at hsame
        obtain ⟨hanswer, hrows, hothers⟩ := hsame
        simp only [BrokerDb.write, Attempt.write, hs, hs', hanswer]
        exact ⟨trivial, hrows, hothers⟩

/-- An operation that a request of the user may do is answered alike on two
tables that agree on the user's rows, and leaves them in agreement. -/
theorem exec_agree {ctx : BrokerContext} {r : Request} {o : Op} {i : brokerage.In o}
    (hu : requester ctx r = some userId) (hA : Agree userId others' db db')
    (hothers : othersOf userId db.connections.rows = others)
    (hmay : May ctx (Unused userId (others ++ others')) r db o)
    (hfresh : FreshInput userId (others ++ others') o i) :
    (brokerage.exec db o i).1 = (brokerage.exec db' o i).1 ∧
      Agree userId others' (brokerage.exec db o i).2 (brokerage.exec db' o i).2 := by
  have howner : ∀ {owner}, requester ctx r = some owner → owner = userId :=
    fun h => Option.some.inj (h.symm.trans hu)
  cases o with
  | checkLimit owner => exact ⟨rfl, hA⟩
  | fetchActiveForUser owner =>
    obtain rfl := howner hmay
    refine ⟨?_, hA⟩
    show Attempt.query i _ = Attempt.query i _
    rw [fetchActiveForUser_congr hA.rows]
  | fetchAnyForUser owner =>
    obtain rfl := howner hmay
    refine ⟨?_, hA⟩
    show Attempt.query i _ = Attempt.query i _
    rw [fetchAnyForUser_congr hA.rows]
  | fetchByAuthorizationIdForUser owner authorizationId =>
    obtain rfl := howner hmay
    refine ⟨?_, hA⟩
    show Attempt.query i _ = Attempt.query i _
    rw [fetchByAuthorizationIdForUser_congr hA.rows]
  | insertPending owner snaptradeUserId blob =>
    obtain ⟨hrequester, hunused⟩ := hmay
    obtain rfl := howner hrequester
    refine write_agree hA ?_
    intro now newId acknowledged hi
    refine sameOutcome_insertPending hA.rows hA.others ?_ blob now
    intro x hx
    rw [hothers] at hx
    exact ⟨hfresh now newId acknowledged hi x hx, hunused rfl x hx⟩
  | markCompleted connectionId authorizationId slug name =>
    obtain ⟨x, hx, rfl, hrequester, hkind⟩ := hmay
    refine write_agree hA ?_
    intro now newId acknowledged _
    exact sameOutcome_markCompleted hx (howner hrequester) hkind hA.rows hA.others
      authorizationId slug name now newId
  | softDelete owner connectionId =>
    obtain ⟨⟨authorizationId, hr⟩, -⟩ := hmay
    obtain rfl : owner = userId := howner (by rw [hr]; rfl)
    refine write_agree hA ?_
    intro now newId acknowledged _
    exact sameOutcome_softDelete hA.rows hA.others connectionId now
  | recordEvent event =>
    cases i with
    | lost => exact ⟨rfl, hA⟩
    | run now newId acknowledged => exact ⟨rfl, hA.rows, hA.others⟩
  | call c => exact ⟨rfl, hA⟩
  | now => exact ⟨rfl, hA⟩
  | newUuid => exact ⟨rfl, hA⟩

end

/-! ### Whole requests -/

/-- The discipline of the user's requests when nobody else moves: the rows of
the others stay `others`. -/
def tenantRules (ctx : BrokerContext) (userId : Uuid) (others taken : List Row) :
    Rules brokerage Request where
  inv db := othersOf userId db.connections.rows = others
  rely db db' := db' = db
  may := May ctx (Unused userId taken)
  legal r _ o i := requester ctx r = some userId ∧ FreshInput userId taken o i
  guar _ _ := True
  refl _ := rfl
  trans _ _ _ h h' := h'.trans h
  sound _ _ _ i hothers hmay hlegal := ⟨(others_exec i hlegal.1 hmay).trans hothers, trivial⟩

theorem tenant_brokered (ctx : BrokerContext) (userId : Uuid) (others taken : List Row) :
    Brokered ctx (Unused userId taken) (tenantRules ctx userId others taken) where
  rely db db' h := by
    rw [h]
    exact Persist.refl db
  may _ _ _ h := h
  reg r db owner resp hrequester hlegal howner := by
    obtain ⟨-, hfresh⟩ := hlegal
    exact hfresh (by rw [howner]) resp rfl

/-- A request of a user, alone and in an environment that hands out nothing
that another user has. No row of another user changes. Every call of SnapTrade
registers the user or has the credentials of one of their rows. And from
another table with the same rows of the user the request gets the same answer
and leaves the same rows of the user. -/
theorem brokerage_isolation {ω : Type} (ctx : BrokerContext) {r : Request} {userId : Uuid}
    (hu : requester ctx r = some userId) {env : ω → (o : Op) → brokerage.In o × ω} (w : ω)
    {db db' : BrokerDb}
    (hrows : rowsOf userId db.connections.rows = rowsOf userId db'.connections.rows)
    (hfresh : ∀ w o, FreshInput userId
      (othersOf userId db.connections.rows ++ othersOf userId db'.connections.rows) o (env w o).1) :
    let out := solo brokerage env (handle ctx r).run w db
    let out' := solo brokerage env (handle ctx r).run w db'
    othersOf userId out.state.connections.rows = othersOf userId db.connections.rows ∧
      (∀ db₁ c, (db₁, Op.call c) ∈ out.trace → c = .registerUser userId.toString ∨
        ∃ snaptradeUserId secret, c.credentials = some (snaptradeUserId, secret) ∧
          HasCredentials ctx userId db₁ snaptradeUserId secret) ∧
      out.value = out'.value ∧
      rowsOf userId out.state.connections.rows = rowsOf userId out'.state.connections.rows := by
  let others := othersOf userId db.connections.rows
  let others' := othersOf userId db'.connections.rows
  let R := tenantRules ctx userId others (others ++ others')
  have hkeeps := (tenant_brokered ctx userId others (others ++ others')).handle r db
  have hlegal : ∀ w s o, R.legal r s o (env w o).1 := fun w _ o => ⟨hu, hfresh w o⟩
  obtain ⟨-, hothers, -, htrace⟩ := solo_keeps (R := R) (w := w) (fun _ => trivial)
    (fun _ _ _ _ _ => trivial) hlegal rfl hkeeps
  obtain ⟨hvalue, -, hagree⟩ := solo_agree (R := R) (A := Agree userId others') (w := w)
    (fun s t o i hA hinv hmay hlegal => exec_agree hu hA hinv hmay hlegal.2) hlegal rfl hkeeps
    ⟨hrows, rfl⟩
  refine ⟨hothers, ?_, hvalue, hagree.rows⟩
  intro db₁ c hc
  obtain ⟨owner, hrequester, hcall⟩ := htrace _ hc
  obtain rfl : owner = userId := Option.some.inj (hrequester.symm.trans hu)
  exact hcall

/-! ### Two tables -/

def bob : Uuid := ⟨9⟩

/-- The pending connection of another user. -/
def bobRow : Row where
  id := ⟨3⟩
  userId := bob
  snaptradeUserId := "00000000-0000-0000-0000-000000000009"
  snaptradeUserSecretEncrypted :=
    [21, 22, 23, 24, 25, 26, 27, 28, 29, 30, 31, 32, 124, 14, 206, 31, 94, 161, 31, 231, 159, 224,
      48, 11, 170, 68, 140, 45, 190, 222, 57, 255, 138, 1]
  snaptradeAuthorizationId := none
  institutionName := none
  isActive := false
  createdAt := 0
  updatedAt := 0
  connectionType := "snaptrade"
  brokerSlug := none
  disabled := false

/-- A table without connections, and one with that of bob. -/
def withoutBob : BrokerDb := ⟨.empty, []⟩

def withBob : BrokerDb := ⟨⟨[bobRow], by decide, by decide, by decide⟩, []⟩

/-- The registration of alice. -/
abbrev aliceEnv : Unit → (o : Op) → brokerage.In o × Unit := calm (aliceReply []) 0 ⟨2⟩

/-- `brokerage_isolation` for the first login of alice, with and without bob. -/
theorem brokerage_isolation_login :
    (solo brokerage aliceEnv (handle aliceContext (.loginPortal alice)).run () withBob).value
        = (solo brokerage aliceEnv (handle aliceContext (.loginPortal alice)).run ()
          withoutBob).value ∧
      othersOf alice (solo brokerage aliceEnv (handle aliceContext (.loginPortal alice)).run ()
        withBob).state.connections.rows = [bobRow] := by
  have hfresh : ∀ (w : Unit) o, FreshInput alice (othersOf alice withBob.connections.rows ++
      othersOf alice withoutBob.connections.rows) o (aliceEnv w o).1 := by
    intro w o
    have htaken : ∀ x ∈ othersOf alice withBob.connections.rows ++
        othersOf alice withoutBob.connections.rows, x = bobRow := by decide
    cases o with
    | insertPending owner name blob =>
      intro now newId acknowledged hi x hx
      cases hi
      rw [htaken x hx]
      decide
    | call c =>
      cases c with
      | registerUser name =>
        intro hname resp hresp x hx
        cases hresp
        rw [htaken x hx, hname]
        decide
      | _ => trivial
    | _ => trivial
  have hrows : rowsOf alice withBob.connections.rows
      = rowsOf alice withoutBob.connections.rows := by decide
  have h := brokerage_isolation aliceContext (r := .loginPortal alice) rfl () hrows hfresh
  exact ⟨h.2.2.1, h.1.trans (by decide)⟩

end MizanConnect.Proofs.Snaptrade
