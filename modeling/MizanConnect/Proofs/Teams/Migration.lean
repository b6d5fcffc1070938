import MizanConnect.Teams.Migration

/-!
# `MizanConnect.Proofs.Teams.Migration`: what the migration 0005 keeps

0005 gives a team to each user that is not soft-deleted, and then copies
`user_id` into `team_id` for every subscription. There is one lemma for each
statement. `apply0005_ok_iff` is when the file goes through: every
subscription's user has a team. `migration_preserves` is what it then leaves.
-/

set_option autoImplicit false

namespace MizanConnect.Proofs.Teams

open MizanConnect.Billing.Subscriptions (afterMigrations baseClash beforeTeams teamClash)
open MizanConnect.Teams
open MizanConnect.Teams.Migration
open MizanConnect.Users (User users)
open Sql (References Table checkForeignKey checkForeignKey_error checkForeignKey_ok_iff)

/-- No subscription belongs to a soft-deleted user. -/
def OwnersLive (db : BeforeTeams) : Prop :=
  ∀ r ∈ db.subscriptions.rows, ∀ u ∈ db.users.rows, u.id = r.userId → u.deletedAt = none

/-- The team of a subscription: it exists, the subscription's user owns it, and
is its member as owner. -/
structure TeamOf (db : AfterTeams) (r : Subscription) : Prop where
  team : ∃ team ∈ db.teams.rows, r.teamId = some team.id ∧ team.ownerUserId = r.userId
  member : ∃ m ∈ db.members.rows, r.teamId = some m.teamId ∧ m.userId = r.userId ∧
    m.role = "owner"

/-- 0005 goes through, every subscription has its team, and no column but
`team_id` is changed. -/
def Untouched (now : Timestamp) (db : BeforeTeams) : Prop :=
  ∃ db', apply0005 now db = .ok db' ∧ (∀ r ∈ db'.subscriptions.rows, TeamOf db' r) ∧
    db'.users = db.users ∧
    (db'.subscriptions.rows.map fun r => { r with teamId := none })
      = db.subscriptions.rows.map fun r => { r with teamId := none }

/-! ### The statements -/

section
variable (t : Table users)

/-- The teams are those of `migrate0005`. -/
theorem backfillTeams_ok : backfillTeams t = .ok (migrate0005 t).teams := by
  have hinsert : (Table.empty : Table teams).insertMissing
      ((t.rows.filter fun u => u.deletedAt = none).map soloTeam) = .ok (migrate0005 t).teams :=
    Table.insertMissing_empty (migrate0005 t).teams
  have howner : References (fun team : Team => some team.ownerUserId)
      (migrate0005 t).teams.rows t := by
    intro team hteam k hk
    obtain ⟨u, hu, rfl⟩ := List.mem_map.mp hteam
    exact ⟨u, (List.mem_filter.mp hu).1, Option.some.inj hk⟩
  unfold backfillTeams
  rw [hinsert]
  show (checkForeignKey _ _ (migrate0005 t).teams.rows t).bind _ = _
  rw [checkForeignKey_ok_iff.mpr howner]
  rfl

/-- The members are those of `migrate0005`. -/
theorem backfillMembers_ok :
    backfillMembers t (migrate0005 t).teams = .ok (migrate0005 t).members := by
  have hinsert : (Table.empty : Table teamMembers).insertMissing
      ((migrate0005 t).teams.rows.map ownerMembership) = .ok (migrate0005 t).members :=
    Table.insertMissing_empty (migrate0005 t).members
  have hteam : References (fun m : TeamMember => some m.teamId)
      (migrate0005 t).members.rows (migrate0005 t).teams := by
    intro m hm k hk
    obtain ⟨team, hteam, rfl⟩ := List.mem_map.mp hm
    exact ⟨team, hteam, Option.some.inj hk⟩
  have huser : References (fun m : TeamMember => some m.userId)
      (migrate0005 t).members.rows t := by
    intro m hm k hk
    obtain ⟨team, hteam, rfl⟩ := List.mem_map.mp hm
    obtain ⟨u, hu, rfl⟩ := List.mem_map.mp hteam
    exact ⟨u, (List.mem_filter.mp hu).1, Option.some.inj hk⟩
  unfold backfillMembers
  rw [hinsert]
  show (checkForeignKey _ _ (migrate0005 t).members.rows (migrate0005 t).teams).bind _ = _
  rw [checkForeignKey_ok_iff.mpr hteam]
  show (checkForeignKey _ _ (migrate0005 t).members.rows t).bind _ = _
  rw [checkForeignKey_ok_iff.mpr huser]
  rfl

end

section
variable (now : Timestamp) (backfilled : Table teams) (t : Table beforeTeams)

/-- The new column is NULL in every row, so every row is updated. -/
theorem update_addTeamId : ∃ updated,
    (addTeamId t).updateWhere (fun r => r.teamId = none) (withTeam now) = .ok updated ∧
      updated.rows = t.rows.map (withTeam now) := by
  obtain ⟨updated, hupdate, hrows⟩ := (addTeamId t).updateWhere_rows
    (fun r => decide (r.teamId = none)) (f := withTeam now) (fun _ => rfl) (fun _ => rfl)
    fun _ _ => rfl
  refine ⟨updated, hupdate, hrows.trans ?_⟩
  show (t.rows.map _).map _ = _
  rw [List.map_map]
  rfl

/-- The copy of `user_id` goes through exactly when every subscription's user has
a team. -/
theorem backfillTeamId_cases :
    (References (fun r : Subscription => some r.userId) t.rows backfilled ∧
      ∃ updated, backfillTeamId now backfilled (addTeamId t) = .ok updated ∧
        updated.rows = t.rows.map (withTeam now)) ∨
    (¬ References (fun r : Subscription => some r.userId) t.rows backfilled ∧
      backfillTeamId now backfilled (addTeamId t)
        = .error (.foreignKey "subscriptions_team_id_fkey")) := by
  obtain ⟨updated, hupdate, hrows⟩ := update_addTeamId now t
  have hcolumn : References (fun r : Subscription => r.teamId) updated.rows backfilled ↔
      References (fun r : Subscription => some r.userId) t.rows backfilled := by
    rw [hrows]
    constructor
    · intro h r hr
      exact h (withTeam now r) (List.mem_map_of_mem hr)
    · intro h r hr
      obtain ⟨x, hx, rfl⟩ := List.mem_map.mp hr
      exact h x hx
  unfold backfillTeamId
  rw [hupdate]
  by_cases hrefs : References (fun r : Subscription => r.teamId) updated.rows backfilled
  · refine Or.inl ⟨hcolumn.mp hrefs, updated, ?_, hrows⟩
    show (checkForeignKey _ _ updated.rows backfilled).bind _ = _
    rw [checkForeignKey_ok_iff.mpr hrefs]
    rfl
  · refine Or.inr ⟨fun h => hrefs (hcolumn.mpr h), ?_⟩
    show (checkForeignKey _ _ updated.rows backfilled).bind _ = _
    rw [checkForeignKey_error hrefs]
    rfl

variable {now t} in
/-- The new constraints hold: `team_id` is not NULL, and it is as unique among the
billable rows as `user_id`. -/
theorem requireTeamId_ok {updated : Table beforeTeams}
    (hrows : updated.rows = t.rows.map (withTeam now)) :
    ∃ subscriptions, requireTeamId updated = .ok subscriptions ∧
      subscriptions.rows = t.rows.map (withTeam now) := by
  obtain ⟨subscriptions, hcheck⟩ : ∃ t', updated.recheck afterMigrations = .ok t' := by
    rw [Table.recheck_ok_iff, hrows]
    refine ⟨?_, ?_, ?_⟩
    · intro r hr
      obtain ⟨x, hx, rfl⟩ := List.mem_map.mp hr
      exact t.admitted x hx
    · rw [List.map_map]
      exact t.keys
    · rw [List.pairwise_map]
      refine t.unique.imp ?_
      intro a b hab
      have hbase : baseClash a b = false := hab
      have huser := hbase
      unfold baseClash at huser
      rw [Bool.or_eq_false_iff] at huser
      show (baseClash a b || teamClash (withTeam now a) (withTeam now b)) = false
      rw [hbase, Bool.false_or]
      exact huser.2
  refine ⟨subscriptions, ?_, (Table.recheck_rows hcheck).trans hrows⟩
  unfold requireTeamId
  rw [hcheck]
  rfl

end

/-! ### The file -/

/-- What the file leaves when it goes through. -/
structure Migrated (now : Timestamp) (db : BeforeTeams) (db' : AfterTeams) : Prop where
  users : db'.users = db.users
  teams : db'.teams = (migrate0005 db.users).teams
  members : db'.members = (migrate0005 db.users).members
  subscriptions : db'.subscriptions.rows = db.subscriptions.rows.map (withTeam now)

section
variable (now : Timestamp) (db : BeforeTeams)

/-- Every subscription's user has a team exactly when none is soft-deleted. -/
theorem references_iff_ownersLive :
    References (fun r : Subscription => some r.userId) db.subscriptions.rows
      (migrate0005 db.users).teams ↔ OwnersLive db := by
  constructor
  · intro h r hr u hu huser
    obtain ⟨team, hteam, hid⟩ := h r hr r.userId rfl
    obtain ⟨v, hv, rfl⟩ := List.mem_map.mp hteam
    obtain ⟨hv, hlive⟩ := List.mem_filter.mp hv
    have huv : u = v := db.users.eq_of_key hu hv (huser.trans hid.symm)
    rw [huv]
    simpa using hlive
  · intro h r hr k hk
    cases hk
    obtain ⟨u, hu, hid⟩ := db.userExists r hr r.userId rfl
    have hlive := h r hr u hu hid
    exact ⟨soloTeam u, List.mem_map_of_mem (List.mem_filter.mpr ⟨hu, by simpa using hlive⟩), hid⟩

/-- 0005 goes through, or the copy of `user_id` breaks the foreign key of
`team_id`. -/
theorem apply0005_cases :
    (OwnersLive db ∧ ∃ db', apply0005 now db = .ok db' ∧ Migrated now db db') ∨
    (¬ OwnersLive db ∧ apply0005 now db = .error (.foreignKey "subscriptions_team_id_fkey")) := by
  rw [← references_iff_ownersLive]
  rcases backfillTeamId_cases now (migrate0005 db.users).teams db.subscriptions with
    ⟨hrefs, updated, hbackfill, hrows⟩ | ⟨hrefs, hbackfill⟩
  · obtain ⟨subscriptions, hrequire, hsubscriptions⟩ := requireTeamId_ok hrows
    refine Or.inl ⟨hrefs, ⟨db.users, _, _, subscriptions⟩, ?_, rfl, rfl, rfl, hsubscriptions⟩
    simp only [apply0005, backfillTeams_ok, backfillMembers_ok, hbackfill, hrequire, bind,
      Except.bind, pure, Except.pure]
  · refine Or.inr ⟨hrefs, ?_⟩
    simp only [apply0005, backfillTeams_ok, backfillMembers_ok, hbackfill, bind, Except.bind]

/-- When 0005 goes through. -/
theorem apply0005_ok_iff : (∃ db', apply0005 now db = .ok db') ↔ OwnersLive db := by
  rcases apply0005_cases now db with ⟨hlive, db', happly, -⟩ | ⟨hlive, happly⟩
  · exact iff_of_true ⟨db', happly⟩ hlive
  · refine iff_of_false ?_ hlive
    rintro ⟨db', hok⟩
    rw [happly] at hok
    cases hok

end

variable {now : Timestamp} {db : BeforeTeams} {db' : AfterTeams}

/-- Each subscription has its team. -/
theorem teamOf_migrated (h : Migrated now db db') (hlive : OwnersLive db) :
    ∀ r ∈ db'.subscriptions.rows, TeamOf db' r := by
  intro r hr
  rw [h.subscriptions] at hr
  obtain ⟨x, hx, rfl⟩ := List.mem_map.mp hr
  obtain ⟨team, hteam, hid⟩ := (references_iff_ownersLive db).mpr hlive x hx x.userId rfl
  obtain ⟨u, hu, rfl⟩ := List.mem_map.mp hteam
  refine ⟨⟨soloTeam u, ?_, congrArg some hid.symm, hid⟩, ownerMembership (soloTeam u), ?_,
    congrArg some hid.symm, hid, rfl⟩
  · rw [h.teams]
    exact hteam
  · rw [h.members]
    exact List.mem_map_of_mem hteam

/-- Without subscriptions of soft-deleted users, 0005 breaks no constraint, gives
every subscription its team, and keeps every other column but `updated_at`. -/
theorem migration_preserves (now : Timestamp) (db : BeforeTeams) (hlive : OwnersLive db) :
    ∃ db', apply0005 now db = .ok db' ∧ (∀ r ∈ db'.subscriptions.rows, TeamOf db' r) ∧
      db'.users = db.users ∧
      db'.subscriptions.rows = db.subscriptions.rows.map fun r =>
        { r with teamId := some r.userId, updatedAt := now } := by
  rcases apply0005_cases now db with ⟨-, db', happly, hmigrated⟩ | ⟨hdead, -⟩
  · exact ⟨db', happly, teamOf_migrated hmigrated hlive, hmigrated.users,
      hmigrated.subscriptions⟩
  · exact absurd hlive hdead

/-! ### Two databases -/

/-- A user, soft-deleted or not. -/
def subscriber (deletedAt : Option Timestamp) : User where
  id := ⟨1⟩
  supabaseUserId := ⟨11⟩
  email := "sam@example.com"
  displayName := none
  avatarUrl := none
  createdAt := 10
  updatedAt := 10
  deletedAt := deletedAt

/-- The subscription of this user. -/
def subscription (status : MizanConnect.Billing.SubscriptionStatus) : Subscription where
  id := ⟨21⟩
  userId := ⟨1⟩
  stripeCustomerId := some "cus_1"
  stripeSubscriptionId := some "sub_1"
  tier := "pro"
  status := status
  currentPeriodStart := some 10
  currentPeriodEnd := some 40
  cancelAtPeriodEnd := false
  createdAt := 10
  updatedAt := 20
  aiCreditsUsed := 5
  aiCreditsPeriodStart := some 10
  teamId := none

/-- A database with this user and this subscription. -/
def oneSubscription (deletedAt : Option Timestamp)
    (status : MizanConnect.Billing.SubscriptionStatus) : BeforeTeams where
  users := ⟨[subscriber deletedAt], fun _ _ => rfl, List.nodup_singleton _,
    List.pairwise_singleton _ _⟩
  subscriptions := ⟨[subscription status], fun r hr => by
      rw [List.mem_singleton.mp hr]
      rfl, List.nodup_singleton _, List.pairwise_singleton _ _⟩
  userExists := by
    intro r hr k hk
    cases List.mem_singleton.mp hr
    exact ⟨subscriber deletedAt, List.mem_cons_self, Option.some.inj hk⟩

theorem oneSubscription_live (status : MizanConnect.Billing.SubscriptionStatus) :
    OwnersLive (oneSubscription none status) := by
  intro r _ u hu _
  cases List.mem_singleton.mp hu
  rfl

/-- `migration_preserves` for an active subscription. -/
theorem migration_preserves_active :
    OwnersLive (oneSubscription none .active) ∧
      ∃ db', apply0005 100 (oneSubscription none .active) = .ok db' ∧
        (∀ r ∈ db'.subscriptions.rows, TeamOf db' r) ∧
        db'.subscriptions.rows
          = [{ subscription .active with teamId := some ⟨1⟩, updatedAt := 100 }] := by
  obtain ⟨db', happly, hteams, -, hrows⟩ := migration_preserves 100 (oneSubscription none .active)
    (oneSubscription_live .active)
  exact ⟨oneSubscription_live .active, db', happly, hteams, hrows⟩

/-- The canceled subscription of a soft-deleted user breaks the foreign key, and a
migration that goes through changes `updated_at`. -/
theorem migration_breaks_and_touches :
    apply0005 100 (oneSubscription (some 30) .canceled)
        = .error (.foreignKey "subscriptions_team_id_fkey") ∧
      ¬ Untouched 100 (oneSubscription (some 30) .canceled) ∧
      ¬ Untouched 100 (oneSubscription none .active) := by
  have herror : apply0005 100 (oneSubscription (some 30) .canceled)
      = .error (.foreignKey "subscriptions_team_id_fkey") := by
    rcases apply0005_cases 100 (oneSubscription (some 30) .canceled) with
      ⟨hlive, -⟩ | ⟨-, herror⟩
    · have hdeleted := hlive (subscription .canceled) List.mem_cons_self (subscriber (some 30))
        List.mem_cons_self rfl
      cases hdeleted
    · exact herror
  refine ⟨herror, ?_, ?_⟩
  · rintro ⟨db', happly, -⟩
    rw [herror] at happly
    cases happly
  · rintro ⟨db', happly, -, -, hrows⟩
    rcases apply0005_cases 100 (oneSubscription none .active) with
      ⟨-, db'', happly', hmigrated⟩ | ⟨hdead, -⟩
    · rw [happly] at happly'
      cases happly'
      rw [hmigrated.subscriptions] at hrows
      -- The row was last updated at 20.
      have htimes := congrArg (List.map (·.updatedAt)) hrows
      cases htimes
    · exact hdead (oneSubscription_live .active)

end MizanConnect.Proofs.Teams
