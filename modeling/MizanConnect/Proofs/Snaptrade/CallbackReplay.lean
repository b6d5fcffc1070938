import MizanConnect.Proofs.Snaptrade.NewestAuthorization

/-!
# `MizanConnect.Proofs.Snaptrade.CallbackReplay`: repeated callbacks

`snaptrade_callback` takes the newest authorization whose id is not the one
already on the row. So the first call stores one id, and the next call looks
at the others. When the list has two different ids, each call moves the row
to another authorization and writes another `broker.connect.completed`
event.

`Reaches` is the setting of a replay: the state token, the row it finds, and
the list that `GET /authorizations` answers for it. `Quiet` is the condition
under which one more call changes nothing: no authorization is left to pick,
or the write is refused by `uq_broker_conn_user_snaptrade`, because the user
has another active connection. `quiet_step` and `quiet_replay` show that it
lasts, and `replay_idempotent_iff` shows when the first call establishes it.
-/

set_option autoImplicit false

namespace MizanConnect.Proofs.Snaptrade

open MizanConnect.Snaptrade
open MizanConnect.Snaptrade.Repository
open MizanConnect.Snaptrade.BrokerConnections (Row schema isSnaptrade isActiveSnaptrade)
open Sql (Table)

/-! ### The statement `mark_completed` -/

/-- The table has another active SnapTrade connection of the row's user. -/
def OtherActive (t : Table schema) (row : Row) : Prop :=
  ∃ r ∈ t.rows, r.id ≠ row.id ∧ r.userId = row.userId ∧ isActiveSnaptrade r = true

/-- The row `anyRowFor` finds is a SnapTrade row of the user. -/
theorem anyRowFor_mem {t : Table schema} {user : Uuid} {row : Row}
    (h : anyRowFor t user = some row) :
    row ∈ t.rows ∧ row.userId = user ∧ isSnaptrade row = true := by
  obtain ⟨hmem, hfor⟩ := List.mem_filter.mp (Best.best_mem h)
  simpa [snaptradeFor, hmem] using hfor

/-- The completed row collides with another row exactly when that one is an
active connection of the same user. -/
theorem clash_completedRow_iff {t : Table schema} {row r : Row} (now : Timestamp)
    (authId : String) (slug name : Option String) (hrow : row ∈ t.rows)
    (hsnap : isSnaptrade row = true) (hr : r ∈ t.rows) (hne : r.id ≠ row.id) :
    schema.clash r (completedRow now authId slug name row) = true ↔
      r.userId = row.userId ∧ isActiveSnaptrade r = true := by
  have hsnap' : isSnaptrade (completedRow now authId slug name row) = true := hsnap
  have hactive : isActiveSnaptrade (completedRow now authId slug name row) = true := by
    rw [isActiveSnaptrade, hsnap', Bool.true_and]
    rfl
  -- The two rows are already different under the index on `snaptrade_user_id`.
  have huid : isSnaptrade r = true → r.snaptradeUserId ≠ row.snaptradeUserId := by
    intro hrs heq
    refine hne (congrArg Row.id (t.eq_of_clash hr hrow ?_))
    simp [schema, BrokerConnections.clash, Sql.uniqueOn, hrs, hsnap, heq]
  have hsecond : Sql.uniqueOn (fun r => if isSnaptrade r then some r.snaptradeUserId else none)
      r (completedRow now authId slug name row) = false := by
    rw [Bool.eq_false_iff]
    intro h
    obtain ⟨k, hk, hk'⟩ := (Sql.uniqueOn_iff _ _ _).mp h
    by_cases hrs : isSnaptrade r = true
    · simp only [hrs, hsnap', if_true, Option.some.injEq] at hk hk'
      exact huid hrs (hk.trans hk'.symm)
    · simp [hrs] at hk
  show BrokerConnections.clash _ _ = true ↔ _
  rw [BrokerConnections.clash, hsecond, Bool.or_false, Sql.uniqueOn_iff]
  simp only [hactive, if_true, Option.some.injEq]
  by_cases hra : isActiveSnaptrade r = true
  · simp only [hra, if_true, Option.some.injEq, and_true]
    constructor
    · rintro ⟨k, hk, hk'⟩
      exact hk.trans hk'.symm
    · intro h
      exact ⟨_, h, rfl⟩
  · simp [hra]

/-- `mark_completed` writes one version of the row. -/
theorem markCompleted_eq_write {t : Table schema} {row : Row} (now : Timestamp)
    (authId : String) (slug name : Option String) (hrow : row ∈ t.rows) :
    markCompleted t now row.id authId slug name
      = t.write [completedRow now authId slug name row] :=
  congrArg t.write (t.updated_key hrow (completedRow now authId slug name))

/-- `mark_completed` on the row of a lookup is refused exactly when the user
has another active connection. -/
theorem markCompleted_ok_iff {t : Table schema} {user : Uuid} {row : Row} (now : Timestamp)
    (authId : String) (slug name : Option String) (hfound : anyRowFor t user = some row) :
    (∃ t', markCompleted t now row.id authId slug name = .ok t') ↔ ¬ OtherActive t row := by
  obtain ⟨hrow, -, hsnap⟩ := anyRowFor_mem hfound
  rw [markCompleted_eq_write now authId slug name hrow,
    Table.write_singleton_ok_iff (w := completedRow now authId slug name row) ⟨row, hrow, rfl⟩]
  constructor
  · rintro ⟨-, hclash⟩ ⟨r, hr, hne, hother⟩
    have hfalse := hclash r hr hne
    rw [(clash_completedRow_iff now authId slug name hrow hsnap hr hne).mpr hother] at hfalse
    cases hfalse
  · intro hfree
    refine ⟨rfl, fun r hr hne => ?_⟩
    rw [Bool.eq_false_iff]
    intro hclash
    exact hfree ⟨r, hr, hne,
      (clash_completedRow_iff now authId slug name hrow hsnap hr hne).mp hclash⟩

/-- A successful `mark_completed` changes the one row. -/
theorem markCompleted_rows {t t' : Table schema} {row : Row} {now : Timestamp}
    {authId : String} {slug name : Option String} (hrow : row ∈ t.rows)
    (h : markCompleted t now row.id authId slug name = .ok t') :
    t'.rows = t.rows.map fun r =>
      if row.id = r.id then completedRow now authId slug name row else r := by
  rw [markCompleted_eq_write now authId slug name hrow] at h
  exact (Table.write_rows h).trans (Table.overlay_singleton ⟨row, hrow, rfl⟩)

/-- The lookup finds the completed row afterwards. -/
theorem anyRowFor_markCompleted {t t' : Table schema} {user : Uuid} {row : Row}
    {now : Timestamp} {authId : String} {slug name : Option String}
    (hfound : anyRowFor t user = some row)
    (h : markCompleted t now row.id authId slug name = .ok t') :
    anyRowFor t' user = some (completedRow now authId slug name row) := by
  obtain ⟨hrow, -, -⟩ := anyRowFor_mem hfound
  let f : Row → Row := fun r =>
    if row.id = r.id then completedRow now authId slug name row else r
  have hf : ∀ r ∈ t.rows, (f r).userId = r.userId ∧ (f r).connectionType = r.connectionType ∧
      (f r).createdAt = r.createdAt := by
    intro r hr
    by_cases hid : row.id = r.id
    · cases t.eq_of_key hrow hr hid
      simp [f, completedRow]
    · simp [f, hid]
  have hfilter : t'.rows.filter (snaptradeFor user)
      = (t.rows.filter (snaptradeFor user)).map f := by
    rw [markCompleted_rows hrow h, List.filter_map]
    refine congrArg (List.map f) (List.filter_congr fun r hr => ?_)
    simp [snaptradeFor, isSnaptrade, (hf r hr).1, (hf r hr).2.1, f]
  unfold anyRowFor newest at hfound ⊢
  rw [hfilter, Best.best_map f (fun new old => decide (old.createdAt < new.createdAt)), hfound]
  · simp [f]
  · intro a ha b hb
    rw [(hf a (List.mem_filter.mp ha).1).2.2, (hf b (List.mem_filter.mp hb).1).2.2]

/-! ### One call -/

/-- The setting of a replay: the state token names `user`, the lookup finds
`row`, the `userId` parameter matches it, and `GET /authorizations` answers
`authorizations` for its credentials. -/
structure Reaches (ctx : SnaptradeContext) (upstream : ListAuthorizations) (q : CallbackQuery)
    (user : Uuid) (authorizations : List StAuthorization) (row : Row) (db : BrokerDb) :
    Prop where
  state : ∃ token claims, q.state = some token ∧ verifyState ctx token = .ok claims ∧
    claims.sub = user
  found : anyRowFor db.connections user = some row
  userId : ∀ returned, q.userId = some returned → returned = row.snaptradeUserId
  listed : ∃ secret, ctx.decrypt row.snaptradeUserSecretEncrypted = some secret ∧
    upstream row.snaptradeUserId secret = .ok authorizations

section
variable {ctx : SnaptradeContext} {upstream : ListAuthorizations} {q : CallbackQuery}
  {user : Uuid} {authorizations : List StAuthorization} {row : Row} {db : BrokerDb}

/-- In that setting the handler gets to the choice of an authorization. -/
theorem snaptradeCallback_reaches (h : Reaches ctx upstream q user authorizations row db)
    (now : Timestamp) :
    snaptradeCallback ctx upstream now q db =
      match pickNewestAuthorization ctx authorizations row.snaptradeAuthorizationId with
      | some auth => completeConnection now user row.id auth db
      | none =>
        if row.snaptradeAuthorizationId.isSome then (.ok .success, db)
        else (.ok .connectionFailed, recordFailure db (some user) "no_new_authorization") := by
  obtain ⟨⟨token, claims, htoken, hverify, rfl⟩, hfound, huser, secret, hsecret, hlist⟩ := h
  have hmatch : (q.userId.any fun returned => returned ≠ row.snaptradeUserId) = false := by
    cases hq : q.userId with
    | none => rfl
    | some returned => simp [huser returned hq]
  have hfetch : fetchAnyForUser db.connections claims.sub
      = some (StoredConnection.ofRow row) := by
    rw [fetchAnyForUser, hfound]
    rfl
  have hdecrypt : decryptSecret ctx row.snaptradeUserSecretEncrypted = .ok secret := by
    rw [decryptSecret, hsecret]
  cases hpick : pickNewestAuthorization ctx authorizations row.snaptradeAuthorizationId with
  | none =>
    simp only [snaptradeCallback, htoken, hverify, hfetch, StoredConnection.ofRow, hmatch,
      Bool.false_eq_true, if_false, hdecrypt, hlist, hpick]
  | some auth =>
    simp only [snaptradeCallback, htoken, hverify, hfetch, StoredConnection.ofRow, hmatch,
      Bool.false_eq_true, if_false, hdecrypt, hlist, hpick]

/-- The setting only depends on the row that the lookup finds. -/
theorem Reaches.of_row (h : Reaches ctx upstream q user authorizations row db) {row' : Row}
    {db' : BrokerDb} (hfound : anyRowFor db'.connections user = some row')
    (huid : row'.snaptradeUserId = row.snaptradeUserId)
    (hsecret : row'.snaptradeUserSecretEncrypted = row.snaptradeUserSecretEncrypted) :
    Reaches ctx upstream q user authorizations row' db' where
  state := h.state
  found := hfound
  userId := by
    rw [huid]
    exact h.userId
  listed := by
    rw [huid, hsecret]
    exact h.listed

/-- The number of `broker.connect.completed` events. -/
def completions (db : BrokerDb) : Nat :=
  db.audit.countP fun event => event.eventType = "broker.connect.completed"

/-- A failure event is no completion. -/
@[simp] theorem completions_recordFailure (db : BrokerDb) (userId : Option Uuid)
    (errorCode : String) : completions (recordFailure db userId errorCode) = completions db := by
  simp [completions, recordFailure, BrokerDb.recordEvent]

/-! ### The quiet state -/

/-- One more call has nothing to do: no authorization is left to pick, or
another active connection of the user blocks the write. -/
def Quiet (ctx : SnaptradeContext) (authorizations : List StAuthorization) (row : Row)
    (db : BrokerDb) : Prop :=
  pickNewestAuthorization ctx authorizations row.snaptradeAuthorizationId = none ∨
    OtherActive db.connections row

/-- `completeConnection` leaves everything as it is when the write is
blocked. -/
theorem completeConnection_blocked {now : Timestamp} {auth : StAuthorization}
    (hfound : anyRowFor db.connections user = some row)
    (hblocked : OtherActive db.connections row) :
    (completeConnection now user row.id auth db).2 = db := by
  dsimp only [completeConnection]
  cases hmark : markCompleted db.connections now row.id auth.id
      (auth.brokerage.map (·.slug)) (auth.brokerage.map fun b => b.displayName.getD b.name) with
  | error v => rfl
  | ok t' => exact absurd hblocked ((markCompleted_ok_iff _ _ _ _ hfound).mp ⟨t', hmark⟩)

/-- In a quiet state a call changes no connection and completes nothing, and
the state stays quiet. -/
theorem quiet_step (h : Reaches ctx upstream q user authorizations row db)
    (hquiet : Quiet ctx authorizations row db) (now : Timestamp) :
    (snaptradeCallback ctx upstream now q db).2.connections = db.connections ∧
      completions (snaptradeCallback ctx upstream now q db).2 = completions db := by
  rw [snaptradeCallback_reaches h]
  cases hpick : pickNewestAuthorization ctx authorizations row.snaptradeAuthorizationId with
  | none =>
    dsimp only
    split
    · exact ⟨rfl, rfl⟩
    · exact ⟨rfl, completions_recordFailure _ _ _⟩
  | some auth =>
    rcases hquiet with hnone | hblocked
    · rw [hnone] at hpick
      cases hpick
    · dsimp only
      rw [completeConnection_blocked h.found hblocked]
      exact ⟨rfl, rfl⟩

/-- The state after the same request at each of the clocks. -/
def replay (ctx : SnaptradeContext) (upstream : ListAuthorizations) (q : CallbackQuery)
    (clocks : List Timestamp) (db : BrokerDb) : BrokerDb :=
  clocks.foldl (fun db now => (snaptradeCallback ctx upstream now q db).2) db

/-- A quiet state stays as it is through any number of calls. -/
theorem quiet_replay (clocks : List Timestamp)
    (h : Reaches ctx upstream q user authorizations row db)
    (hquiet : Quiet ctx authorizations row db) :
    (replay ctx upstream q clocks db).connections = db.connections ∧
      completions (replay ctx upstream q clocks db) = completions db := by
  induction clocks generalizing db with
  | nil => exact ⟨rfl, rfl⟩
  | cons now clocks ih =>
    obtain ⟨hconn, hcount⟩ := quiet_step h hquiet now
    have hreach : Reaches ctx upstream q user authorizations row
        (snaptradeCallback ctx upstream now q db).2 :=
      h.of_row (by rw [hconn]; exact h.found) rfl rfl
    have hstill : Quiet ctx authorizations row (snaptradeCallback ctx upstream now q db).2 := by
      rw [Quiet, hconn]
      exact hquiet
    obtain ⟨hconn', hcount'⟩ := ih hreach hstill
    exact ⟨hconn'.trans hconn, hcount'.trans hcount⟩

/-! ### A call that completes -/

/-- A call with a candidate and no other active connection stores the
authorization it picks, and the setting goes on with the completed row. -/
theorem completes (h : Reaches ctx upstream q user authorizations row db) (now : Timestamp)
    {auth : StAuthorization}
    (hpick : pickNewestAuthorization ctx authorizations row.snaptradeAuthorizationId = some auth)
    (hfree : ¬ OtherActive db.connections row) :
    ∃ row', Reaches ctx upstream q user authorizations row'
        (snaptradeCallback ctx upstream now q db).2 ∧
      row'.snaptradeAuthorizationId = some auth.id ∧ row'.id = row.id ∧
      (OtherActive (snaptradeCallback ctx upstream now q db).2.connections row' →
        OtherActive db.connections row) := by
  rw [snaptradeCallback_reaches h, hpick]
  dsimp only [completeConnection]
  obtain ⟨t', hmark⟩ := (markCompleted_ok_iff now auth.id (auth.brokerage.map (·.slug))
    (auth.brokerage.map fun b => b.displayName.getD b.name) h.found).mpr hfree
  rw [hmark]
  obtain ⟨hrow, -, -⟩ := anyRowFor_mem h.found
  refine ⟨completedRow now auth.id (auth.brokerage.map (·.slug))
      (auth.brokerage.map fun b => b.displayName.getD b.name) row,
    h.of_row (anyRowFor_markCompleted h.found hmark) rfl rfl, rfl, rfl, ?_⟩
  rintro ⟨r, hr, hne, huser, hactive⟩
  obtain ⟨x, hx, rfl⟩ := List.mem_map.mp (markCompleted_rows hrow hmark ▸ hr)
  by_cases hid : row.id = x.id
  · rw [if_pos hid] at hne
    exact absurd rfl hne
  · rw [if_neg hid] at hne huser hactive
    exact ⟨x, hx, hne, huser, hactive⟩

/-- After the first call: quiet, when all ids are one or another active
connection blocks the write. -/
theorem quiet_of_first (h : Reaches ctx upstream q user authorizations row db) (now : Timestamp)
    (hcond : (∀ a ∈ authorizations, ∀ b ∈ authorizations, a.id = b.id) ∨
      OtherActive db.connections row) :
    ∃ row', Reaches ctx upstream q user authorizations row'
        (snaptradeCallback ctx upstream now q db).2 ∧
      Quiet ctx authorizations row' (snaptradeCallback ctx upstream now q db).2 := by
  by_cases hquiet : Quiet ctx authorizations row db
  · obtain ⟨hconn, -⟩ := quiet_step h hquiet now
    refine ⟨row, h.of_row (by rw [hconn]; exact h.found) rfl rfl, ?_⟩
    rw [Quiet, hconn]
    exact hquiet
  · obtain ⟨hsome, hfree⟩ := not_or.mp hquiet
    obtain ⟨auth, hpick⟩ := Option.ne_none_iff_exists'.mp hsome
    obtain ⟨row', hreach, hid, -, -⟩ := completes h now hpick hfree
    refine ⟨row', hreach, Or.inl ?_⟩
    rw [hid, pickNewestAuthorization_eq_none_iff]
    intro a ha
    rw [isCandidate_some_eq_false_iff]
    exact (hcond.resolve_right hfree) a ha auth (pickNewestAuthorization_mem hpick).1

/-- With two different ids on the list and no other active connection, the
second call still picks an authorization, and it is another one. -/
theorem second_call_changes (h : Reaches ctx upstream q user authorizations row db)
    (now now' : Timestamp) (hfree : ¬ OtherActive db.connections row)
    (htwo : ¬ ∀ a ∈ authorizations, ∀ b ∈ authorizations, a.id = b.id) :
    (replay ctx upstream q [now, now'] db).connections
      ≠ (replay ctx upstream q [now] db).connections := by
  -- Whatever id is on a row, one of the two different ids is not it.
  have hpicks : ∀ e, ∃ auth, pickNewestAuthorization ctx authorizations e = some auth := by
    intro e
    rw [← Option.ne_none_iff_exists', Ne, pickNewestAuthorization_eq_none_iff]
    intro hall
    refine htwo fun a ha b hb => ?_
    cases e with
    | none => cases hall a ha
    | some e =>
      rw [(isCandidate_some_eq_false_iff e a).mp (hall a ha),
        (isCandidate_some_eq_false_iff e b).mp (hall b hb)]
  obtain ⟨auth, hpick⟩ := hpicks row.snaptradeAuthorizationId
  obtain ⟨row₁, hreach₁, hid₁, -, hfree₁⟩ := completes h now hpick hfree
  obtain ⟨auth₂, hpick₂⟩ := hpicks row₁.snaptradeAuthorizationId
  obtain ⟨row₂, hreach₂, hid₂, -, -⟩ :=
    completes hreach₁ now' hpick₂ fun h₁ => hfree (hfree₁ h₁)
  intro heq
  have hsame : anyRowFor (replay ctx upstream q [now, now'] db).connections user
      = anyRowFor (replay ctx upstream q [now] db).connections user := by rw [heq]
  have hrows : some row₂ = some row₁ := hreach₂.found.symm.trans (hsame.trans hreach₁.found)
  cases hrows
  have hcandidate := (pickNewestAuthorization_mem hpick₂).2
  rw [hid₂, isCandidate, decide_eq_true_eq] at hcandidate
  exact hcandidate rfl

/-- The replays after the first call change no connection and complete
nothing, for any number of them, exactly when all listed authorizations have
one id or the user has another active connection (no call completes
then). -/
theorem replay_idempotent_iff (h : Reaches ctx upstream q user authorizations row db)
    (now : Timestamp) :
    (∀ clocks, (replay ctx upstream q (now :: clocks) db).connections
          = (replay ctx upstream q [now] db).connections ∧
        completions (replay ctx upstream q (now :: clocks) db)
          = completions (replay ctx upstream q [now] db)) ↔
      (∀ a ∈ authorizations, ∀ b ∈ authorizations, a.id = b.id) ∨
        OtherActive db.connections row := by
  constructor
  · intro hidem
    by_contra hcond
    obtain ⟨htwo, hfree⟩ := not_or.mp hcond
    exact second_call_changes h now now hfree htwo (hidem [now]).1
  · intro hcond clocks
    obtain ⟨row', hreach, hquiet⟩ := quiet_of_first h now hcond
    exact quiet_replay clocks hreach hquiet

end

/-! ### Two authorizations -/

def alice : Uuid := ⟨1⟩

/-- A state token of alice that expires at 600, signed with the secret of the
tests of `state_token.rs`. -/
def aliceToken : String :=
  "eyJ0eXAiOiJKV1QiLCJhbGciOiJIUzI1NiJ9." ++
  "eyJzdWIiOiIwMDAwMDAwMC0wMDAwLTAwMDAtMDAwMC0wMDAwMDAwMDAwMDEiLCJub25jZSI6IjAwMDAwMDAwLTAwMD" ++
  "AtMDAwMC0wMDAwLTAwMDAwMDAwMDAwMiIsImlzcyI6Im1pemFuLXNuYXB0cmFkZS1zdGF0ZSIsImV4cCI6NjAwLCJp" ++
  "YXQiOjB9.UkRR-taGdWh5RFUhBS4XXSPOUJV2_hyy6lSpefNjHso"

def aliceClaims : StateClaims := ⟨alice, ⟨2⟩, "mizan-snaptrade-state", 600, 0⟩

/-- The nonce 1 to 12, the ciphertext of `secret` and its tag, under the key of
the tests of `encryption.rs`. -/
def aliceBlob : List UInt8 :=
  [1, 2, 3, 4, 5, 6, 7, 8, 9, 10, 11, 12, 200, 25, 139, 236, 15, 158,
    171, 34, 231, 204, 8, 52, 56, 147, 74, 23, 216, 85, 94, 224, 6, 42]

/-- A registered connection with no authorization yet. -/
def pendingRow : Row where
  id := ⟨10⟩
  userId := alice
  snaptradeUserId := "00000000-0000-0000-0000-000000000001"
  snaptradeUserSecretEncrypted := aliceBlob
  snaptradeAuthorizationId := none
  institutionName := none
  isActive := false
  createdAt := 0
  updatedAt := 0
  connectionType := "snaptrade"
  brokerSlug := none
  disabled := false

def pendingDb : BrokerDb where
  connections := ⟨[pendingRow], by decide, by decide, by decide⟩
  audit := []

/-- An enabled authorization at a brokerage. -/
def linked (id createdDate slug name : String) : StAuthorization where
  id := id
  name := none
  authType := some "read"
  disabled := false
  createdDate := some createdDate
  updatedDate := none
  brokerage := some ⟨slug, slug, name, none, none, none⟩

/-- The user linked Questrade and Wealthsimple. -/
def twoAuthorizations : List StAuthorization :=
  [linked "A" "2024-01-01T00:00:00Z" "questrade" "Questrade",
    linked "B" "2024-02-01T00:00:00Z" "wealthsimple" "Wealthsimple"]

def callbackContext : SnaptradeContext where
  decodeState token := if token = aliceToken then some aliceClaims else none
  decrypt blob := if blob = aliceBlob then some "secret" else none
  parseRfc3339 s :=
    if s = "2024-01-01T00:00:00Z" then some 1704067200
    else if s = "2024-02-01T00:00:00Z" then some 1706745600
    else none

def listTwo : ListAuthorizations := fun _ _ => .ok twoAuthorizations

def callbackQuery : CallbackQuery :=
  ⟨some aliceToken, some "00000000-0000-0000-0000-000000000001"⟩

theorem reaches_two :
    Reaches callbackContext listTwo callbackQuery alice twoAuthorizations pendingRow
      pendingDb where
  state := ⟨aliceToken, aliceClaims, rfl, by simp [verifyState, callbackContext], rfl⟩
  found := by decide
  userId returned h := by
    cases h
    rfl
  listed := ⟨"secret", by decide, rfl⟩

/-- `replay_idempotent_iff` at the two authorizations: the replays change the
row. -/
theorem replay_idempotent_iff_two :
    (¬ ∀ clocks, (replay callbackContext listTwo callbackQuery (5 :: clocks) pendingDb).connections
          = (replay callbackContext listTwo callbackQuery [5] pendingDb).connections ∧
        completions (replay callbackContext listTwo callbackQuery (5 :: clocks) pendingDb)
          = completions (replay callbackContext listTwo callbackQuery [5] pendingDb)) := by
  rw [replay_idempotent_iff reaches_two 5]
  rintro (hone | ⟨r, hr, hne, -⟩)
  · exact absurd (hone _ (List.mem_cons_self) _ (List.mem_cons_of_mem _ List.mem_cons_self))
      (by decide)
  · simp only [pendingDb, List.mem_singleton] at hr
    exact hne (congrArg Row.id hr)

/-- Three calls on the two authorizations: the row goes to `B`, to `A` and
back to `B`, and each call completes. -/
theorem two_authorizations_alternate :
    Reaches callbackContext listTwo callbackQuery alice twoAuthorizations pendingRow pendingDb ∧
    ([[5], [5, 6], [5, 6, 7]].map fun clocks =>
        ((replay callbackContext listTwo callbackQuery clocks pendingDb).connections.rows.map
          (·.snaptradeAuthorizationId)))
      = [[some "B"], [some "A"], [some "B"]] ∧
    ([[5], [5, 6], [5, 6, 7]].map fun clocks =>
        completions (replay callbackContext listTwo callbackQuery clocks pendingDb))
      = [1, 2, 3] :=
  ⟨reaches_two, by decide +kernel, by decide +kernel⟩

end MizanConnect.Proofs.Snaptrade
