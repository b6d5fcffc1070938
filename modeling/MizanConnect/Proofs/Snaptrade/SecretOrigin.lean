import MizanConnect.Proofs.Snaptrade.AuditTrail

/-!
# `MizanConnect.Proofs.Snaptrade.SecretOrigin`: where rows and credentials come from

Two things that a row of `broker_connections` holds have an origin outside of the
tables. Its credentials are what SnapTrade has returned for the registration of
its user, sealed (`Origin`), so every later call carries such a pair. And a row is
disabled only after SnapTrade has removed an authorization of it (`Withdrawn`),
because the request that disables it has asked for the removal, or has found the
row disabled.
-/

set_option autoImplicit false

namespace MizanConnect.Proofs.Snaptrade

open MizanConnect.Snaptrade
open MizanConnect.Snaptrade.Repository
open MizanConnect.Snaptrade.BrokerConnections (Row)
open Concurrent (Action Lawful own)
open Transition (run)

/-- SnapTrade has registered the user for a login of hers, and returned the
pair. -/
def RegisteredBefore (past : List Entry) (userId : Uuid) (snaptradeUserId secret : String) :
    Prop :=
  ∃ f ∈ past, f.request.request = .loginPortal userId ∧
    f.event = ⟨.call (.registerUser userId.toString), Except.ok ⟨snaptradeUserId, secret⟩⟩

/-- The blob of the row is the sealed secret of a registration of its user. -/
def Origin (deps : BrokerDeps) (past : List Entry) (x : Row) : Prop :=
  ∃ secret, RegisteredBefore past x.userId x.snaptradeUserId secret ∧
    deps.encrypt secret = some x.snaptradeUserSecretEncrypted

/-- SnapTrade has removed an authorization of the row, or does not know it, for a
disconnect of the row's user. -/
def Withdrawn (past : List Entry) (x : Row) : Prop :=
  ∃ f ∈ past, (∃ requested, f.request.request = .deleteConnection x.userId requested) ∧
    ∃ secret authorizationId reply,
      f.event = ⟨.call (.removeAuthorization x.snaptradeUserId secret authorizationId), reply⟩ ∧
      Removed reply

section
variable {deps : BrokerDeps} {as : List (Action brokerage Arrival)} {s : TimedSys}
  {pre post past : List Entry} {e f : Entry} {userId : Uuid} {row : StoredConnection} {x y : Row}

theorem RegisteredBefore.mono {snaptradeUserId secret : String} {later : List Entry}
    (h : RegisteredBefore past userId snaptradeUserId secret) (hsub : past ⊆ later) :
    RegisteredBefore later userId snaptradeUserId secret := by
  obtain ⟨f, hf, hrest⟩ := h
  exact ⟨f, hsub hf, hrest⟩

/-- A later version of a row has the origin of the row. -/
theorem Origin.version {later : List Entry} (h : Origin deps past x) (hxy : Version x y)
    (hsub : past ⊆ later) : Origin deps later y := by
  obtain ⟨secret, hregistered, hblob⟩ := h
  refine ⟨secret, ?_, hxy.blob ▸ hblob⟩
  rw [hxy.userId, hxy.snaptradeUserId]
  exact hregistered.mono hsub

theorem Withdrawn.version {later : List Entry} (h : Withdrawn past x) (hxy : Version x y)
    (hsub : past ⊆ later) : Withdrawn later y := by
  obtain ⟨f, hf, hrest⟩ := h
  refine ⟨f, hsub hf, ?_⟩
  rw [hxy.userId, hxy.snaptradeUserId]
  exact hrest

/-- A row after an operation is a version of a row before it, or the pending row of
the operation. A version that is newly disabled is one of a disconnect. -/
theorem row_after (hx : x ∈ e.after.connections.rows) :
    (∃ y ∈ e.before.connections.rows, Version y x ∧
      (x.disabled = true → y.disabled = true ∨
        ∃ owner, e.op = .softDelete owner y.id ∧ y.userId = owner)) ∨
    ∃ owner name blob now newId, e.op = .insertPending owner name blob ∧
      x = Repository.pendingRow now newId owner name blob := by
  have hchange := exec_change e.before e.op e.input
  have hafter : x ∈ (brokerage.exec e.before e.op e.input).2.connections.rows := hx
  revert hafter
  generalize hrows : (brokerage.exec e.before e.op e.input).2.connections.rows = rows' at hchange
  generalize hop : e.op = o at hchange
  intro hafter
  cases hchange with
  | keep => exact Or.inl ⟨x, hafter, .refl x, Or.inl⟩
  | inserted owner name blob now newId hnew =>
    rcases List.mem_append.mp hafter with hafter | hafter
    · exact Or.inl ⟨x, hafter, .refl x, Or.inl⟩
    · exact Or.inr ⟨owner, name, blob, now, newId, rfl, List.mem_singleton.mp hafter⟩
  | completed connectionId authorizationId slug name now =>
    obtain ⟨y, hy, rfl⟩ := List.mem_map.mp hafter
    refine Or.inl ⟨y, hy, ?_⟩
    split
    · exact ⟨version_completedRow now authorizationId slug name y, fun h => by cases h⟩
    · exact ⟨.refl y, Or.inl⟩
  | deleted owner connectionId now =>
    obtain ⟨y, hy, rfl⟩ := List.mem_map.mp hafter
    refine Or.inl ⟨y, hy, ?_⟩
    split
    · rename_i howned
      simp only [ownedBy, snaptradeFor, Bool.and_eq_true, decide_eq_true_eq] at howned
      obtain ⟨rfl, rfl, -⟩ := howned
      exact ⟨version_deletedRow now y, fun _ => Or.inr ⟨_, rfl, rfl⟩⟩
    · exact ⟨.refl y, Or.inl⟩

/-! ### Credentials -/

/-- Every row of a state has an origin. -/
theorem origin_run (hrun : run (timedNext deps) timedInit as = some s) :
    ∀ x ∈ s.state.connections.rows, Origin deps (timedTrace deps as) x := by
  refine timed_invariant (P := fun past db => ∀ x ∈ db.connections.rows, Origin deps past x)
    ?_ ?_ hrun
  · intro x hx
    cases hx
  · intro past e hlawful hpast x hx
    rcases row_after hx with ⟨y, hy, hyx, -⟩ | ⟨owner, name, blob, now, newId, hop, rfl⟩
    · exact (hpast y hy).version hyx (List.subset_append_left past _)
    · -- The pending row is that of a registration by the same job.
      have hcause := hlawful.allowed
      rw [hop] at hcause
      obtain ⟨hlogin, resp, hresp, rfl, hblob⟩ := hcause
      obtain ⟨f, hf, hjob, hevent⟩ := entry_of_answered hresp
      refine ⟨resp.userSecret, ⟨f, List.mem_append_left _ hf, ?_, hevent⟩, hblob⟩
      rw [hlawful.same f hf hjob]
      exact hlogin

/-- The operations before an entry are those of a run to the state before it. -/
theorem run_before (hrun : run (timedNext deps) timedInit as = some s)
    (h : timedTrace deps as = pre ++ e :: post) :
    ∃ as₁ m, run (timedNext deps) timedInit as₁ = some m ∧ timedTrace deps as₁ = pre ∧
      m.state = e.before := by
  obtain ⟨as₁, as₂, m, k, -, hm, hpre, hstate, -⟩ := Concurrent.trace_split hrun h
  exact ⟨as₁, m, hm, hpre, hstate⟩

/-- A pair that a handler holds was registered for its user. -/
theorem registered_of_hasPair
    (hseal : ∀ secret blob, deps.encrypt secret = some blob → deps.decrypt blob = some secret)
    (hrun : run (timedNext deps) timedInit as = some s)
    (h : timedTrace deps as = pre ++ e :: post) {now : Nat} {name secret : String}
    (hu : requester (contextAt deps now) e.request.request = some userId)
    (hpair : HasPair (contextAt deps now) (own e.job pre) userId name secret) :
    RegisteredBefore pre userId name secret := by
  rcases hpair with ⟨row, hrow, rfl, hsecret⟩ | hresp
  · obtain ⟨x, hx, -, rfl, hname, hblob, -⟩ := found_before hrun h hrow
    obtain ⟨as₁, m, hm, rfl, hstate⟩ := run_before hrun h
    obtain ⟨opened, hregistered, hsealed⟩ := origin_run hm x (hstate ▸ hx)
    -- The blob opens to the secret that was sealed.
    have hopened := hseal opened _ hsealed
    rw [hblob, show deps.decrypt row.snaptradeUserSecretEncrypted = some secret from hsecret]
      at hopened
    cases hopened
    exact hname ▸ hregistered
  · obtain ⟨before, f, after, -, hf, hevent, hsame, hlawful⟩ := earlier_of_answered hrun h hresp
    have hcause := hlawful.allowed
    rw [op_of_event hevent] at hcause
    obtain ⟨owner, hlogin, -⟩ := hcause
    -- The registration is one of the same request, so of the same user.
    rw [← hsame, hlogin] at hu
    cases hu
    exact ⟨f, hf, hlogin, hevent⟩

/-- A call with credentials has a pair of its requester. -/
theorem hasPair_of_callCause {ctx : BrokerContext} {r : Request}
    {h : List (Concurrent.Event Op Op.Answer)} {c : Call} {name secret : String}
    (hc : CallCause ctx r h c) (hcredentials : c.credentials = some (name, secret)) :
    ∃ userId, requester ctx r = some userId ∧ HasPair ctx h userId name secret := by
  cases c with
  | registerUser snaptradeUserId => cases hcredentials
  | loginUser snaptradeUserId secret' redirect =>
    cases hcredentials
    obtain ⟨userId, rfl, hpair, -⟩ := hc
    exact ⟨userId, rfl, hpair⟩
  | _ =>
    obtain ⟨userId, name', secret', hu, hpair, hheld⟩ := hc
    cases hcredentials.symm.trans hpair
    exact ⟨userId, hu, hheld⟩

/-- Every row holds the secret that SnapTrade has returned for the registration of
its own user, and every call with credentials carries the pair of such a
registration of the user that it is made for. -/
theorem secret_origin
    (hseal : ∀ secret blob, deps.encrypt secret = some blob → deps.decrypt blob = some secret)
    (hrun : run (timedNext deps) timedInit as = some s) :
    (∀ x ∈ s.state.connections.rows, ∃ secret,
      RegisteredBefore (timedTrace deps as) x.userId x.snaptradeUserId secret ∧
        deps.decrypt x.snaptradeUserSecretEncrypted = some secret) ∧
    ∀ pre e post c name secret, timedTrace deps as = pre ++ e :: post → e.op = .call c →
      c.credentials = some (name, secret) →
      ∃ userId, requester (contextAt deps e.request.time) e.request.request = some userId ∧
        RegisteredBefore pre userId name secret := by
  constructor
  · intro x hx
    obtain ⟨secret, hregistered, hblob⟩ := origin_run hrun x hx
    exact ⟨secret, hregistered, hseal secret _ hblob⟩
  · intro pre e post c name secret h hop hcredentials
    have hcause := (timed_lawful hrun h).allowed
    rw [hop] at hcause
    obtain ⟨userId, hu, hpair⟩ := hasPair_of_callCause hcause hcredentials
    exact ⟨userId, hu, registered_of_hasPair hseal hrun h hu hpair⟩

/-! ### Removals -/

/-- Disabled rows are withdrawn, in the state and in the states before. -/
structure Gone (past : List Entry) (db : BrokerDb) : Prop where
  now : ∀ x ∈ db.connections.rows, x.disabled = true → Withdrawn past x
  earlier : ∀ k ∈ past, ∀ x ∈ k.before.connections.rows, x.disabled = true → Withdrawn past x

/-- The row that a disconnect disables was withdrawn. -/
theorem withdrawn_of_softDelete (hlawful : Lawful (TimedCause deps) past e)
    (hgone : Gone past e.before) {owner : Uuid} (hop : e.op = .softDelete owner y.id)
    (howner : y.userId = owner) (hy : y ∈ e.before.connections.rows)
    (hlater : ∀ k ∈ past, Persist k.after e.before) : Withdrawn past y := by
  have hcause := hlawful.allowed
  rw [hop] at hcause
  obtain ⟨authorizationId, row, hdelete, hunlink⟩ := hcause
  -- The row that the lookup has found is an earlier version of this one.
  obtain ⟨k, hk, -, hevent⟩ := entry_of_answered hunlink.found
  obtain ⟨x, hx, hfor, rfl, hafter, hauthorized⟩ := mem_of_fetchByAuthorizationId hevent
  have hpersist : Persist k.before e.before := hafter ▸ hlater k hk
  obtain ⟨z, hz, hxz⟩ := hpersist x hx
  have hzy : z = y := e.before.connections.eq_of_key hz hy (hxz.id.trans hunlink.id)
  subst hzy
  rcases hunlink.upstream with
    hdisabled | hunlinked | ⟨linked, secret, reply, -, -, hreply, hremoved⟩
  · exact (hgone.earlier k hk x hx hdisabled).version hxz (List.Subset.refl past)
  · rw [hunlinked] at hauthorized
    cases hauthorized
  · obtain ⟨f, hf, hjob, hevent'⟩ := entry_of_answered hreply
    refine ⟨f, hf, ⟨authorizationId, ?_⟩, secret, linked, reply, ?_, hremoved⟩
    · rw [hlawful.same f hf hjob, hdelete, howner]
    · rw [hevent', hxz.snaptradeUserId]
      rfl

theorem gone_run (hrun : run (timedNext deps) timedInit as = some s) :
    Gone (timedTrace deps as) s.state ∧
      ∀ k ∈ timedTrace deps as, Persist k.after s.state := by
  refine timed_invariant
    (P := fun past db => Gone past db ∧ ∀ k ∈ past, Persist k.after db) ?_ ?_ hrun
  · exact ⟨⟨fun x hx => (nomatch hx), fun k hk => (nomatch hk)⟩, fun k hk => (nomatch hk)⟩
  · rintro past e hlawful ⟨hgone, hlater⟩
    have hsub : past ⊆ past ++ [e] := List.subset_append_left past _
    refine ⟨⟨?_, ?_⟩, ?_⟩
    · intro x hx hdisabled
      rcases row_after hx with ⟨y, hy, hyx, hsource⟩ | ⟨owner, name, blob, now, newId, -, rfl⟩
      · rcases hsource hdisabled with hold | ⟨owner, hop, howner⟩
        · exact (hgone.now y hy hold).version hyx hsub
        · exact (withdrawn_of_softDelete hlawful hgone hop howner hy hlater).version hyx hsub
      · cases hdisabled
    · intro k hk x hx hdisabled
      rcases List.mem_append.mp hk with hk | hk
      · exact (hgone.earlier k hk x hx hdisabled).version (.refl x) hsub
      · rw [List.mem_singleton.mp hk] at hx
        exact (hgone.now x hx hdisabled).version (.refl x) hsub
    · intro k hk
      rcases List.mem_append.mp hk with hk | hk
      · exact (hlater k hk).trans (persist_exec e.before e.op e.input)
      · rw [List.mem_singleton.mp hk]
        exact Persist.refl _

/-- A disconnect goes to SnapTrade first. A row is disabled only after SnapTrade has
removed an authorization of its SnapTrade user, or answered that it knows none, for
a disconnect that its own user has asked for. -/
theorem removal_first (hrun : run (timedNext deps) timedInit as = some s) :
    ∀ x ∈ s.state.connections.rows, x.disabled = true → Withdrawn (timedTrace deps as) x :=
  (gone_run hrun).1.now

end

/-- What `aliceDeps` seals, it opens. -/
theorem aliceDeps_seals (secret : String) (blob : List UInt8)
    (h : aliceDeps.encrypt secret = some blob) : aliceDeps.decrypt blob = some secret := by
  have hseal : (if secret = "secret" then some aliceBlob else none) = some blob := h
  split at hseal
  · rename_i hsecret
    cases hseal
    rw [hsecret]
    show (if aliceBlob = aliceBlob then some "secret" else none) = some "secret"
    rw [if_pos rfl]
  · cases hseal

/-- `secret_origin` at a run with a login, a callback and a disconnect. -/
theorem secret_origin_disconnect :
    ∃ s, run (timedNext aliceDeps) timedInit timedDisconnect = some s ∧
      s.state.connections.rows.length = 1 ∧
      ∀ x ∈ s.state.connections.rows, ∃ secret,
        RegisteredBefore (timedTrace aliceDeps timedDisconnect) x.userId x.snaptradeUserId secret ∧
          aliceDeps.decrypt x.snaptradeUserSecretEncrypted = some secret := by
  have hsome : (run (timedNext aliceDeps) timedInit timedDisconnect).map
      (fun s => s.state.connections.rows.length) = some 1 := by
    decide +kernel
  obtain ⟨s, hs, hlength⟩ := Option.map_eq_some_iff.mp hsome
  exact ⟨s, hs, hlength, (secret_origin aliceDeps_seals hs).1⟩

/-- `removal_first` at that run. -/
theorem removal_first_disconnect :
    ∃ s, run (timedNext aliceDeps) timedInit timedDisconnect = some s ∧
      s.state.connections.rows.map (·.disabled) = [true] ∧
      ∀ x ∈ s.state.connections.rows, x.disabled = true →
        Withdrawn (timedTrace aliceDeps timedDisconnect) x := by
  have hsome : (run (timedNext aliceDeps) timedInit timedDisconnect).map
      (fun s => s.state.connections.rows.map (·.disabled)) = some [true] := by
    decide +kernel
  obtain ⟨s, hs, hdisabled⟩ := Option.map_eq_some_iff.mp hsome
  exact ⟨s, hs, hdisabled, removal_first hs⟩

end MizanConnect.Proofs.Snaptrade
