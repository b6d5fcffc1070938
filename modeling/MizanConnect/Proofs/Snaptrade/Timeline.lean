import MizanConnect.Proofs.Snaptrade.Causes
import MizanConnect.Snaptrade.StateToken

/-!
# `MizanConnect.Proofs.Snaptrade.Timeline`: the brokerage requests and the clock

Requests that arrive at their times, side by side, and the trace of what they
perform. `timed_lawful` brings the causes of an operation into a run, and
`found_before` what a lookup of the same job says about the tables now: the row
is still there, with the same owner and the same credentials.
-/

set_option autoImplicit false

namespace MizanConnect.Proofs.Snaptrade

open MizanConnect.Snaptrade
open MizanConnect.Snaptrade.Repository
open MizanConnect.Snaptrade.BrokerConnections (Row isSnaptrade)
open Concurrent (Action Event Lawful Performed Sys own mem_own next trace trace_split
  trace_invariant trace_related trace_related_before)
open Transition (run)

/-- The tables and the requests under way. -/
abbrev TimedSys := Sys BrokerDb Arrival Op Op.Answer (Except AppError Response)

/-- One step of any request. -/
abbrev timedNext (deps : BrokerDeps) : TimedSys → Action brokerage Arrival → Option TimedSys :=
  next brokerage (handleAt deps)

/-- No connection and no request. -/
def timedInit : TimedSys := Sys.init ⟨.empty, []⟩

/-- An operation of a run. -/
abbrev Entry := Performed brokerage Arrival

/-- The operations of a run. -/
abbrev timedTrace (deps : BrokerDeps) (as : List (Action brokerage Arrival)) : List Entry :=
  trace (handleAt deps) timedInit as

/-- What comes before an operation of a request. -/
abbrev TimedCause (deps : BrokerDeps) (a : Arrival) : List (Event Op Op.Answer) → Op → Prop :=
  Cause (contextAt deps a.time) a.request

theorem handleAt_follows (deps : BrokerDeps) (a : Arrival) :
    (handleAt deps a).Follows (TimedCause deps a) (fun _ _ => True) [] :=
  handle_follows (contextAt deps a.time) a.request

section
variable {deps : BrokerDeps} {as : List (Action brokerage Arrival)} {s : TimedSys}
  {pre post past : List Entry} {e f : Entry} {userId : Uuid} {row : StoredConnection}

/-- Every operation of a run has its cause in its own job. -/
theorem timed_lawful (hrun : run (timedNext deps) timedInit as = some s)
    (h : timedTrace deps as = pre ++ e :: post) : Lawful (TimedCause deps) pre e :=
  Concurrent.lawful_of_trace (handleAt_follows deps) hrun h

/-- The induction over the operations of a run. -/
theorem timed_invariant {P : List Entry → BrokerDb → Prop} (hnil : P [] ⟨.empty, []⟩)
    (hstep : ∀ past e, Lawful (TimedCause deps) past e → P past e.before →
      P (past ++ [e]) e.after)
    (hrun : run (timedNext deps) timedInit as = some s) : P (timedTrace deps as) s.state :=
  trace_invariant (handleAt_follows deps) hnil hstep hrun

/-- An operation of the history of a job is an entry of the trace. -/
theorem entry_of_answered {i : Nat} {o : Op} {x : o.Answer} (h : Answered (own i past) o x) :
    ∃ f ∈ past, f.job = i ∧ f.event = ⟨o, x⟩ := mem_own h

/-- The answer of an entry. -/
theorem answer_of_event {o : Op} {x : o.Answer} (h : f.event = ⟨o, x⟩) :
    ∃ input : brokerage.In o, x = (brokerage.exec f.before o input).1 ∧
      f.after = (brokerage.exec f.before o input).2 ∧ f.op = o := by
  obtain ⟨job, request, before, op, input⟩ := f
  obtain ⟨rfl, hanswer⟩ := Sigma.mk.inj_iff.mp h
  exact ⟨input, (eq_of_heq hanswer).symm, rfl, rfl⟩

theorem op_of_event {o : Op} {x : o.Answer} (h : f.event = ⟨o, x⟩) : f.op = o :=
  congrArg Sigma.fst h

/-- A lookup by any row of the user. -/
theorem mem_of_fetchAny
    (h : f.event = ⟨.fetchAnyForUser userId, Except.ok (some row)⟩) :
    ∃ x ∈ f.before.connections.rows, snaptradeFor userId x = true ∧
      StoredConnection.ofRow x = row ∧ f.after = f.before := by
  obtain ⟨input, hanswer, hafter, -⟩ := answer_of_event h
  have hsome : some row = fetchAnyForUser f.before.connections userId :=
    Attempt.query_eq_ok hanswer.symm
  obtain ⟨x, hx, hrow⟩ := Option.map_eq_some_iff.mp hsome.symm
  obtain ⟨hmem, hfor⟩ := List.mem_filter.mp (Best.best_mem hx)
  exact ⟨x, hmem, hfor, hrow, hafter⟩

/-- A lookup by the active row of the user. -/
theorem mem_of_fetchActive
    (h : f.event = ⟨.fetchActiveForUser userId, Except.ok (some row)⟩) :
    ∃ x ∈ f.before.connections.rows, snaptradeFor userId x = true ∧
      StoredConnection.ofRow x = row ∧ f.after = f.before := by
  obtain ⟨input, hanswer, hafter, -⟩ := answer_of_event h
  have hsome : some row = fetchActiveForUser f.before.connections userId :=
    Attempt.query_eq_ok hanswer.symm
  obtain ⟨x, hx, hrow⟩ := Option.map_eq_some_iff.mp hsome.symm
  have hfor := List.find?_some hx
  rw [Bool.and_eq_true] at hfor
  exact ⟨x, List.mem_of_find?_eq_some hx, hfor.1, hrow, hafter⟩

/-- A lookup by an authorization id of the user. -/
theorem mem_of_fetchByAuthorizationId {authorizationId : String}
    (h : f.event = ⟨.fetchByAuthorizationIdForUser userId authorizationId,
      Except.ok (some row)⟩) :
    ∃ x ∈ f.before.connections.rows, snaptradeFor userId x = true ∧
      StoredConnection.ofRow x = row ∧ f.after = f.before ∧
      row.snaptradeAuthorizationId = some authorizationId := by
  obtain ⟨input, hanswer, hafter, -⟩ := answer_of_event h
  have hsome : some row = fetchByAuthorizationIdForUser f.before.connections userId
      authorizationId := Attempt.query_eq_ok hanswer.symm
  obtain ⟨x, hx, rfl⟩ := Option.map_eq_some_iff.mp hsome.symm
  have hfor := List.find?_some hx
  simp only [authorizedFor, Bool.and_eq_true, decide_eq_true_eq] at hfor
  exact ⟨x, List.mem_of_find?_eq_some hx, hfor.2, rfl, hafter, hfor.1⟩

/-- What a lookup of a job has found is still there. -/
theorem found_before (hrun : run (timedNext deps) timedInit as = some s)
    (h : timedTrace deps as = pre ++ e :: post) (hrow : LookedUp (own e.job pre) userId row) :
    Found e.before userId row := by
  have hlater := trace_related_before Persist.refl (fun _ _ _ => Persist.trans) persist_exec hrun h
  have hfound : ∀ f ∈ pre, (∃ x ∈ f.before.connections.rows, snaptradeFor userId x = true ∧
      StoredConnection.ofRow x = row ∧ f.after = f.before) → Found e.before userId row := by
    rintro f hf ⟨x, hx, hfor, rfl, hsame⟩
    exact (found_of_mem hx hfor).later (hsame ▸ hlater f hf)
  rcases hrow with hrow | hrow | ⟨authorizationId, hrow⟩
  · obtain ⟨f, hf, -, hevent⟩ := entry_of_answered hrow
    exact hfound f hf (mem_of_fetchActive hevent)
  · obtain ⟨f, hf, -, hevent⟩ := entry_of_answered hrow
    exact hfound f hf (mem_of_fetchAny hevent)
  · obtain ⟨f, hf, -, hevent⟩ := entry_of_answered hrow
    obtain ⟨x, hx, hfor, hsame, hafter, -⟩ := mem_of_fetchByAuthorizationId hevent
    exact hfound f hf ⟨x, hx, hfor, hsame, hafter⟩

end

end MizanConnect.Proofs.Snaptrade
