import MizanConnect.Proofs.Snaptrade.StateBinding

/-!
# `MizanConnect.Proofs.Snaptrade.AuditTrail`: the audit log tells what has happened

The audit log of the brokerage is the list of the events that were written, in
their order, and nothing takes one back (`audit_eq`). The causes of an event are
known from its handler (`Reports`). What they say about the tables is that the
row was linked, or disabled, before the event says so (`showsLinked_of_reports`,
`showsUnlinked_of_reports`).
-/

set_option autoImplicit false

namespace MizanConnect.Proofs.Snaptrade

open MizanConnect.Snaptrade
open MizanConnect.Snaptrade.Repository
open MizanConnect.Snaptrade.BrokerConnections (Row isSnaptrade)
open Concurrent (Action Lawful own)
open Transition (run)

/-- The event that an operation writes. -/
def written : Entry → Option AuditEvent
  | ⟨_, _, _, .recordEvent event, attempt⟩ =>
    match (attempt : Attempt) with
    | .lost => none
    | .run _ _ _ => some event
  | _ => none

/-- Some operation has left a row of the event's user that is linked to the
authorization of the event, active and enabled. -/
def ShowsLinked (past : List Entry) (event : AuditEvent) : Prop :=
  ∃ k ∈ past, ∃ y ∈ k.after.connections.rows, event.userId = some y.userId ∧
    y.isActive = true ∧ y.disabled = false ∧
    ∃ a, y.snaptradeAuthorizationId = some a ∧
      event.eventData.get? "authorization_id" = some (.str a)

/-- Some operation has left a row of the event's user inactive and disabled. -/
def ShowsUnlinked (past : List Entry) (event : AuditEvent) : Prop :=
  ∃ k ∈ past, ∃ y ∈ k.after.connections.rows, event.userId = some y.userId ∧
    y.isActive = false ∧ y.disabled = true

section
variable {deps : BrokerDeps} {as : List (Action brokerage Arrival)} {s : TimedSys}
  {pre post past : List Entry} {e f : Entry} {userId : Uuid} {row : StoredConnection}
  {event : AuditEvent}

/-- An operation appends the event that it writes. -/
theorem audit_after (e : Entry) : e.after.audit = e.before.audit ++ (written e).toList := by
  obtain ⟨job, request, before, op, input⟩ := e
  cases op with
  | recordEvent event =>
    cases input with
    | lost => exact (List.append_nil _).symm
    | run now newId acknowledged => rfl
  | _ => exact (List.append_nil _).symm

/-- The log is what was written, in that order. -/
theorem audit_eq (hrun : run (timedNext deps) timedInit as = some s) :
    s.state.audit = (timedTrace deps as).filterMap written := by
  refine timed_invariant (P := fun past db => db.audit = past.filterMap written) rfl ?_ hrun
  intro past e _ hpast
  rw [audit_after, hpast, List.filterMap_append]
  cases hwritten : written e <;> simp [hwritten]

theorem op_of_written (h : written e = some event) : e.op = .recordEvent event := by
  obtain ⟨job, request, before, op, input⟩ := e
  cases op with
  | recordEvent event' =>
    cases input with
    | lost => cases h
    | run now newId acknowledged =>
      cases h
      rfl
  | _ => cases h

/-- An earlier operation of the same job, with its own cause and request. -/
theorem earlier_of_answered (hrun : run (timedNext deps) timedInit as = some s)
    (h : timedTrace deps as = pre ++ e :: post) {o : Op} {x : o.Answer}
    (hx : Answered (own e.job pre) o x) :
    ∃ before k after, timedTrace deps as = before ++ k :: after ∧ k ∈ pre ∧
      k.event = ⟨o, x⟩ ∧ k.request = e.request ∧ Lawful (TimedCause deps) before k := by
  obtain ⟨k, hk, hjob, hevent⟩ := entry_of_answered hx
  obtain ⟨before, after, rfl⟩ := List.append_of_mem hk
  have hsplit : timedTrace deps as = before ++ k :: (after ++ e :: post) := by simpa using h
  exact ⟨before, k, _, hsplit, hk, hevent, (timed_lawful hrun h).same k hk hjob,
    timed_lawful hrun hsplit⟩

/-- An event says that a row was linked only after it was. -/
theorem showsLinked_of_reports (hrun : run (timedNext deps) timedInit as = some s)
    (h : timedTrace deps as = pre ++ e :: post)
    (hreports : Reports (contextAt deps e.request.time) (own e.job pre) e.request.request event)
    (htype : event.eventType = "broker.connect.completed") : ShowsLinked pre event := by
  generalize hrequest : e.request.request = r at hreports
  cases hreports with
  | completed q userId connectionId authorizationId slug name huser hwritten =>
    obtain ⟨before, k, after, hsplit, hk, hevent, hsame, hlawful⟩ :=
      earlier_of_answered hrun h hwritten
    have hcause := hlawful.allowed
    rw [op_of_event hevent] at hcause
    obtain ⟨q', userId', row, secret, authorizations, hcallback, hlink⟩ := hcause
    -- The operation and the event are of one request, so of one user.
    rw [hsame, hrequest] at hcallback
    cases hcallback
    have huser' := hlink.token
    rw [hsame, huser] at huser'
    cases huser'
    obtain ⟨x, hx, hid, howner, -⟩ := found_before hrun hsplit (Or.inr (Or.inl hlink.found))
    obtain ⟨input, hanswer, hafter, -⟩ := answer_of_event hevent
    refine ⟨k, hk, ?_⟩
    rcases Attempt.write_cases input k.before.connections (markCompletedStatement connectionId
        authorizationId slug name k.before.connections) with ⟨-, error, herror⟩ |
      ⟨now, newId, acknowledged, answer, -, hstatement, -⟩
    · exact nomatch hanswer.trans herror
    · have hrows : k.after.connections.rows = k.before.connections.rows.map fun r =>
          if r.id = connectionId then completedRow now authorizationId slug name r else r := by
        rw [hafter]
        exact markCompletedStatement_rows hstatement
      refine ⟨completedRow now authorizationId slug name x, ?_, ?_, rfl, rfl, authorizationId, rfl,
        rfl⟩
      · rw [hrows]
        refine List.mem_map.mpr ⟨x, hx, ?_⟩
        rw [if_pos (hid.trans hlink.id)]
      · exact congrArg some howner.symm
  | _ => simp at htype

/-- An event says that a row was disconnected only after it was. -/
theorem showsUnlinked_of_reports (hrun : run (timedNext deps) timedInit as = some s)
    (h : timedTrace deps as = pre ++ e :: post)
    (hreports : Reports (contextAt deps e.request.time) (own e.job pre) e.request.request event)
    (htype : event.eventType = "broker.disconnect") : ShowsUnlinked pre event := by
  generalize hrequest : e.request.request = r at hreports
  cases hreports with
  | disconnected userId authorizationId row n hrow hwritten =>
    obtain ⟨before, k, after, hsplit, hk, hevent, hsame, hlawful⟩ :=
      earlier_of_answered hrun h hwritten
    have hcause := hlawful.allowed
    rw [op_of_event hevent] at hcause
    obtain ⟨authorizationId', row', hdelete, hunlink⟩ := hcause
    obtain ⟨x, hx, hid, howner, -, -, hkind, -⟩ :=
      found_before hrun hsplit (Or.inr (Or.inr ⟨authorizationId', hunlink.found⟩))
    obtain ⟨input, hanswer, hafter, -⟩ := answer_of_event hevent
    refine ⟨k, hk, ?_⟩
    rcases Attempt.write_cases input k.before.connections
        (fun now _ => softDelete k.before.connections userId row.id now) with
      ⟨-, error, herror⟩ | ⟨now, newId, acknowledged, answer, -, hstatement, -⟩
    · exact nomatch hanswer.trans herror
    · have hrows : k.after.connections.rows = k.before.connections.rows.map fun r =>
          if ownedBy userId row.id r then deletedRow now r else r := by
        rw [hafter]
        exact softDelete_rows hstatement
      have howned : ownedBy userId row.id x = true := by
        simp [ownedBy, snaptradeFor, hid.trans hunlink.id, howner, hkind]
      refine ⟨deletedRow now x, ?_, congrArg some howner.symm, rfl, rfl⟩
      rw [hrows]
      refine List.mem_map.mpr ⟨x, hx, ?_⟩
      rw [if_pos howned]
  | _ => simp at htype

/-- The audit log is append-only and truthful, whatever runs side by side and
whatever fails. It has the events that were written, in their order. Each event
reports what its own request has done before it, and when it says that a broker
was linked or disconnected, the row of that user was. -/
theorem audit_trail (hrun : run (timedNext deps) timedInit as = some s) :
    s.state.audit = (timedTrace deps as).filterMap written ∧
    ∀ pre e post event, timedTrace deps as = pre ++ e :: post → written e = some event →
      Reports (contextAt deps e.request.time) (own e.job pre) e.request.request event ∧
      (event.eventType = "broker.connect.completed" → ShowsLinked pre event) ∧
      (event.eventType = "broker.disconnect" → ShowsUnlinked pre event) := by
  refine ⟨audit_eq hrun, ?_⟩
  intro pre e post event h hwritten
  have hreports := (timed_lawful hrun h).allowed
  rw [op_of_written hwritten] at hreports
  exact ⟨hreports, showsLinked_of_reports hrun h hreports, showsUnlinked_of_reports hrun h hreports⟩

end

/-- The user links Questrade and disconnects it a minute later. -/
def timedDisconnect : List (Action brokerage Arrival) :=
  timedLink ++ (.spawn ⟨560, .deleteConnection alice "A"⟩ :: timedSteps 4 2 [] 560)

/-- `audit_trail` at that run: three events. -/
theorem audit_trail_disconnect :
    ∃ s, run (timedNext aliceDeps) timedInit timedDisconnect = some s ∧
      s.state.audit.map (·.eventType)
        = ["broker.connect.initiated", "broker.connect.completed", "broker.disconnect"] ∧
      ∀ pre e post event, timedTrace aliceDeps timedDisconnect = pre ++ e :: post →
        written e = some event →
        Reports (contextAt aliceDeps e.request.time) (own e.job pre) e.request.request event := by
  have hsome : (run (timedNext aliceDeps) timedInit timedDisconnect).map
      (fun s => s.state.audit.map (·.eventType))
        = some ["broker.connect.initiated", "broker.connect.completed", "broker.disconnect"] := by
    decide +kernel
  obtain ⟨s, hs, htypes⟩ := Option.map_eq_some_iff.mp hsome
  exact ⟨s, hs, htypes, fun pre e post event h hwritten =>
    ((audit_trail hs).2 pre e post event h hwritten).1⟩

end MizanConnect.Proofs.Snaptrade
