import MizanConnect.Shutdown

/-!
# `MizanConnect.Proofs.Server.Shutdown`: which signals end the process

`notify_waiters` stores nothing, so the notification counts for the waiters that are
there when it is given. `noticed` is the state in which a run gives it. A main task
that had not called `notified()` by then waits for ever, and a server whose signal
future had not goes on accepting until the drain deadline.

The two phases have an invariant each, `Before` and `After`, and the step that gives
the notification leads from one to the other (`before_step`).
-/

set_option autoImplicit false

namespace MizanConnect.Proofs.Server

open MizanConnect.Shutdown
open Transition (run run_cons_eq_some)

/-- The notification has been given. -/
def notified (s : Sys) : Bool :=
  match s.signal with
  | .over _ _ => true
  | _ => false

/-- The state in which the run from `s` gives the notification. -/
def noticed : Sys → List Action → Option Sys
  | _, [] => none
  | s, a :: as => (next s a).bind fun s' => if notified s' then some s else noticed s' as

/-- Before the notification: everything runs, or a signal without a handler has ended
the process. -/
structure Before (s : Sys) : Prop where
  signal : notified s = false
  listener : s.listener ≠ .woken
  server : s.server = .starting ∨ s.server = .accepting
  main : s.main = .starting ∨ s.main = .spawned ∨ s.main = .waiting ∨ s.main = .killed

/-- After a notification that was given in `t`: who was waiting has been woken, and who
was not is not. -/
structure After (t s : Sys) : Prop where
  signal : notified s = true
  caught : t.main = .waiting → s.main ≠ .starting ∧ s.main ≠ .spawned ∧ s.main ≠ .waiting
  missed : t.main ≠ .waiting →
    s.main = .starting ∨ s.main = .spawned ∨ s.main = .waiting ∨ s.main = .killed
  deaf : t.listener ≠ .waiting →
    s.listener ≠ .woken ∧ (s.server = .starting ∨ s.server = .accepting)
  drained : s.server = .over → s.connections = 0
  deadline : ∀ since, s.main = .exited since → s.server = .over ∨ since + drainDeadline ≤ s.now

section
variable {s s' t : Sys} {a : Action}

theorem next_eq_some : next s a = some s' ↔ s.alive = true ∧ act s a = some s' := by
  unfold next
  cases s.alive <;> simp

theorem before_init : Before Sys.init where
  signal := rfl
  listener := by decide
  server := Or.inl rfl
  main := Or.inl rfl

theorem notify_main_of_ne {interrupt terminate : Bool} (h : s.main ≠ .waiting) :
    (s.notify interrupt terminate).main = s.main := if_neg h

theorem notify_listener_of_ne {interrupt terminate : Bool} (h : s.listener ≠ .waiting) :
    (s.notify interrupt terminate).listener = s.listener := if_neg h

/-- The notification wakes those that wait. -/
theorem after_notify (hs : Before s) (interrupt terminate : Bool) :
    After s (s.notify interrupt terminate) := by
  have hmain := hs.main
  have hserver := hs.server
  have hlistener := hs.listener
  refine ⟨rfl, ?_, ?_, ?_, ?_, ?_⟩
  · intro hwaiting
    simp [Sys.notify, hwaiting]
  · intro hwaiting
    rw [notify_main_of_ne hwaiting]
    exact hmain
  · intro hdeaf
    rw [notify_listener_of_ne hdeaf]
    exact ⟨hlistener, hserver⟩
  · intro hover
    rcases hserver with h | h <;> cases h.symm.trans hover
  · intro since hexited
    by_cases hwaiting : s.main = .waiting
    · simp [Sys.notify, hwaiting] at hexited
    · rw [notify_main_of_ne hwaiting] at hexited
      rcases hmain with h | h | h | h <;> cases h.symm.trans hexited

/-- A signal without a handler ends the process. -/
theorem before_kill (hs : Before s) : Before s.kill where
  signal := hs.signal
  listener := hs.listener
  server := hs.server
  main := Or.inr (Or.inr (Or.inr rfl))

/-- A step before the notification stays before it, or gives it. -/
theorem before_step (hs : Before s) (h : next s a = some s') :
    Before s' ∨ (notified s' = true ∧ After s s') := by
  obtain ⟨-, h⟩ := next_eq_some.mp h
  have hgives : ∀ interrupt terminate, s.notify interrupt terminate = s' →
      notified s' = true ∧ After s s' := by
    rintro interrupt terminate rfl
    exact ⟨rfl, after_notify hs interrupt terminate⟩
  obtain ⟨signal, listener, server, main, connections, now⟩ := s
  have hsignal := hs.signal
  cases a with
  | pollSignal ctrlC terminate =>
    cases signal with
    | starting =>
      cases ctrlC with
      | true =>
        cases h
        exact Or.inl ⟨rfl, hs.listener, hs.server, hs.main⟩
      | false => exact Or.inr (hgives false terminate (Option.some.inj h))
    | waiting terminate => cases h
    | «over» interrupt terminate => cases h
  | sigint =>
    cases signal with
    | starting =>
      cases h
      exact Or.inl (before_kill hs)
    | waiting terminate => exact Or.inr (hgives true terminate (Option.some.inj h))
    | «over» interrupt terminate => cases hsignal
  | sigterm =>
    cases signal with
    | starting =>
      cases h
      exact Or.inl (before_kill hs)
    | waiting terminate =>
      cases terminate with
      | true => exact Or.inr (hgives true true (Option.some.inj h))
      | false =>
        cases h
        exact Or.inl (before_kill hs)
    | «over» interrupt terminate => cases hsignal
  | spawnServer =>
    simp only [act, Option.ite_none_right_eq_some, Option.some.injEq] at h
    obtain ⟨-, rfl⟩ := h
    exact Or.inl ⟨hs.signal, hs.listener, hs.server, Or.inr (Or.inl rfl)⟩
  | pollServer =>
    simp only [act, Option.ite_none_right_eq_some, Option.some.injEq] at h
    obtain ⟨-, rfl⟩ := h
    exact Or.inl ⟨hs.signal, hs.listener, Or.inr rfl, hs.main⟩
  | pollListener =>
    simp only [act, Option.ite_none_right_eq_some, Option.some.injEq] at h
    obtain ⟨-, rfl⟩ := h
    exact Or.inl ⟨hs.signal, nofun, hs.server, hs.main⟩
  | endListener =>
    simp only [act, Option.ite_none_right_eq_some, Option.some.injEq] at h
    exact absurd h.1.1 hs.listener
  | accept =>
    simp only [act, Option.ite_none_right_eq_some, Option.some.injEq] at h
    obtain ⟨-, rfl⟩ := h
    exact Or.inl ⟨hs.signal, hs.listener, hs.server, hs.main⟩
  | finish =>
    simp only [act, Option.ite_none_right_eq_some, Option.some.injEq] at h
    obtain ⟨-, rfl⟩ := h
    exact Or.inl ⟨hs.signal, hs.listener, hs.server, hs.main⟩
  | endServer =>
    simp only [act, Option.ite_none_right_eq_some, Option.some.injEq] at h
    have hserver := hs.server
    simp [h.1.1] at hserver
  | awaitNotification =>
    simp only [act, Option.ite_none_right_eq_some, Option.some.injEq] at h
    obtain ⟨-, rfl⟩ := h
    exact Or.inl ⟨hs.signal, hs.listener, hs.server, Or.inr (Or.inr (Or.inl rfl))⟩
  | startDrain =>
    simp only [act, Option.ite_none_right_eq_some, Option.some.injEq] at h
    have hmain := hs.main
    simp [h.1] at hmain
  | endDrain =>
    have hmain := hs.main
    simp only [act] at h
    split at h
    · simp at hmain
    · cases h
  | tick =>
    cases h
    exact Or.inl ⟨hs.signal, hs.listener, hs.server, hs.main⟩

/-- A signal without a handler, after the notification. -/
theorem after_kill (hs : After t s) : After t s.kill where
  signal := hs.signal
  caught := fun _ => ⟨nofun, nofun, nofun⟩
  missed := fun _ => Or.inr (Or.inr (Or.inr rfl))
  deaf := hs.deaf
  drained := hs.drained
  deadline := nofun

/-- A main task that has not been woken had not called `notified()` in time. -/
theorem After.main_missed (hs : After t s)
    (h : s.main = .starting ∨ s.main = .spawned ∨ s.main = .waiting) : t.main ≠ .waiting := by
  intro hwaiting
  obtain ⟨hstarting, hspawned, hmain⟩ := hs.caught hwaiting
  rcases h with h | h | h
  · exact hstarting h
  · exact hspawned h
  · exact hmain h

/-- A main task that has been woken had. -/
theorem After.main_caught (hs : After t s)
    (h : s.main = .woken ∨ ∃ since, s.main = .draining since ∨ s.main = .exited since) :
    t.main = .waiting := by
  by_contra hne
  rcases hs.missed hne with hm | hm | hm | hm <;> rw [hm] at h <;> simp at h

/-- A step after the notification. -/
theorem after_step (hs : After t s) (h : next s a = some s') : After t s' := by
  obtain ⟨halive, h⟩ := next_eq_some.mp h
  cases a with
  | pollSignal ctrlC terminate =>
    have hsignal := hs.signal
    simp only [act] at h
    split at h
    · rename_i heq
      simp [notified, heq] at hsignal
    · cases h
  | sigint =>
    have hsignal := hs.signal
    obtain rfl : s.interrupt = s' := Option.some.inj h
    unfold Sys.interrupt
    cases heq : s.signal with
    | starting => simp [notified, heq] at hsignal
    | waiting terminate => simp [notified, heq] at hsignal
    | «over» interrupt terminate =>
      cases interrupt with
      | true => exact hs
      | false => exact after_kill hs
  | sigterm =>
    have hsignal := hs.signal
    obtain rfl : s.terminate = s' := Option.some.inj h
    unfold Sys.terminate
    cases heq : s.signal with
    | starting => simp [notified, heq] at hsignal
    | waiting terminate => simp [notified, heq] at hsignal
    | «over» interrupt terminate =>
      cases terminate with
      | true => exact hs
      | false => exact after_kill hs
  | spawnServer =>
    simp only [act, Option.ite_none_right_eq_some, Option.some.injEq] at h
    obtain ⟨hmain, rfl⟩ := h
    have hmissed := hs.main_missed (Or.inl hmain)
    exact ⟨hs.signal, fun hwaiting => absurd hwaiting hmissed, fun _ => Or.inr (Or.inl rfl),
      hs.deaf, hs.drained, nofun⟩
  | pollServer =>
    simp only [act, Option.ite_none_right_eq_some, Option.some.injEq] at h
    obtain ⟨-, rfl⟩ := h
    refine ⟨hs.signal, hs.caught, hs.missed, fun hdeaf => ⟨(hs.deaf hdeaf).1, Or.inr rfl⟩, nofun,
      fun since hexited => ?_⟩
    simp [Sys.alive, show s.main = .exited since from hexited] at halive
  | pollListener =>
    simp only [act, Option.ite_none_right_eq_some, Option.some.injEq] at h
    obtain ⟨-, rfl⟩ := h
    exact ⟨hs.signal, hs.caught, hs.missed, fun hdeaf => ⟨nofun, (hs.deaf hdeaf).2⟩, hs.drained,
      hs.deadline⟩
  | endListener =>
    simp only [act, Option.ite_none_right_eq_some, Option.some.injEq] at h
    obtain ⟨⟨hwoken, hserver⟩, rfl⟩ := h
    refine ⟨hs.signal, hs.caught, hs.missed, fun hdeaf => absurd hwoken (hs.deaf hdeaf).1, nofun,
      fun since hexited => ?_⟩
    simp [Sys.alive, show s.main = .exited since from hexited] at halive
  | accept =>
    simp only [act, Option.ite_none_right_eq_some, Option.some.injEq] at h
    obtain ⟨hserver, rfl⟩ := h
    refine ⟨hs.signal, hs.caught, hs.missed, hs.deaf, fun hover => ?_, hs.deadline⟩
    cases hserver.symm.trans hover
  | finish =>
    simp only [act, Option.ite_none_right_eq_some, Option.some.injEq] at h
    obtain ⟨-, rfl⟩ := h
    have hzero : s.server = .over → s.connections - 1 = 0 := fun hover => by rw [hs.drained hover]
    exact ⟨hs.signal, hs.caught, hs.missed, hs.deaf, hzero, hs.deadline⟩
  | endServer =>
    simp only [act, Option.ite_none_right_eq_some, Option.some.injEq] at h
    obtain ⟨⟨hserver, hzero⟩, rfl⟩ := h
    refine ⟨hs.signal, hs.caught, hs.missed, fun hdeaf => ?_, fun _ => hzero, fun _ _ => Or.inl rfl⟩
    rcases (hs.deaf hdeaf).2 with h | h <;> cases h.symm.trans hserver
  | awaitNotification =>
    simp only [act, Option.ite_none_right_eq_some, Option.some.injEq] at h
    obtain ⟨hmain, rfl⟩ := h
    have hmissed := hs.main_missed (Or.inr (Or.inl hmain))
    exact ⟨hs.signal, fun hwaiting => absurd hwaiting hmissed,
      fun _ => Or.inr (Or.inr (Or.inl rfl)), hs.deaf, hs.drained, nofun⟩
  | startDrain =>
    simp only [act, Option.ite_none_right_eq_some, Option.some.injEq] at h
    obtain ⟨hmain, rfl⟩ := h
    have hcaught := hs.main_caught (Or.inl hmain)
    exact ⟨hs.signal, fun _ => ⟨nofun, nofun, nofun⟩, fun hne => absurd hcaught hne, hs.deaf,
      hs.drained, nofun⟩
  | endDrain =>
    simp only [act] at h
    split at h
    · rename_i since hmain
      simp only [Option.ite_none_right_eq_some, Option.some.injEq] at h
      obtain ⟨hends, rfl⟩ := h
      have hcaught := hs.main_caught (Or.inr ⟨since, Or.inl hmain⟩)
      refine ⟨hs.signal, fun _ => ⟨nofun, nofun, nofun⟩, fun hne => absurd hcaught hne, hs.deaf,
        hs.drained, ?_⟩
      rintro since' hexited
      cases hexited
      exact hends
    · cases h
  | tick =>
    cases h
    refine ⟨hs.signal, hs.caught, hs.missed, hs.deaf, hs.drained, fun since hexited => ?_⟩
    simp [Sys.alive, show s.main = .exited since from hexited] at halive

/-! ### Runs -/

variable {as : List Action}

theorem after_run (hs : After t s) (hrun : run next s as = some s') : After t s' :=
  Transition.run_invariant (C := fun _ _ => True) (fun _ _ _ hs _ h => after_step hs h) hs
    (Transition.along_true s as) hrun

/-- The phase of the last state of a run. -/
theorem phase_run (hs : Before s) (hrun : run next s as = some s') :
    (noticed s as = none → Before s') ∧ ∀ t, noticed s as = some t → After t s' := by
  induction as generalizing s with
  | nil =>
    cases hrun
    exact ⟨fun _ => hs, nofun⟩
  | cons a as ih =>
    obtain ⟨m, hm, hrest⟩ := run_cons_eq_some.mp hrun
    have hnoticed : noticed s (a :: as) = if notified m then some s else noticed m as := by
      rw [noticed, hm]
      rfl
    rw [hnoticed]
    rcases before_step hs hm with hbefore | ⟨hgiven, hafter⟩
    · rw [hbefore.signal]
      exact ih hbefore hrest
    · rw [hgiven]
      refine ⟨nofun, ?_⟩
      rintro t ht
      cases ht
      exact after_run hafter hrest

/-- Time passes while the process is there. -/
theorem run_tick (halive : s.alive = true) (n : Nat) :
    run next s (List.replicate n .tick) = some { s with now := s.now + n } := by
  induction n generalizing s with
  | zero => rfl
  | succ n ih =>
    rw [List.replicate_succ]
    refine run_cons_eq_some.mpr ⟨{ s with now := s.now + 1 }, next_eq_some.mpr ⟨halive, rfl⟩, ?_⟩
    rw [ih (s := { s with now := s.now + 1 }) halive]
    simp only [Nat.add_assoc, Nat.add_comm 1 n]

/-- A process that is draining can be over after the deadline, whatever its connections
do. -/
theorem exit_of_draining {since : Nat} (hmain : s.main = .draining since) :
    ∃ as s', run next s as = some s' ∧ s'.main = .exited since := by
  have halive : s.alive = true := by
    unfold Sys.alive
    rw [hmain]
  let late : Sys := { s with now := s.now + (since + drainDeadline) }
  have hdue : since + drainDeadline ≤ late.now := Nat.le_add_left _ _
  refine ⟨List.replicate (since + drainDeadline) .tick ++ [.endDrain],
    { late with main := .exited since }, Transition.run_append.mpr ⟨late, run_tick halive _, ?_⟩,
    rfl⟩
  refine run_cons_eq_some.mpr ⟨_, next_eq_some.mpr ⟨halive, ?_⟩, rfl⟩
  show act late .endDrain = _
  have hlate : late.main = .draining since := hmain
  simp only [act, hlate]
  rw [if_pos (Or.inr hdue)]

/-- A process whose main task has been woken can be over. -/
theorem exit_of_caught (halive : s.alive = true)
    (hmain : s.main ≠ .starting ∧ s.main ≠ .spawned ∧ s.main ≠ .waiting) :
    ∃ as s' since, run next s as = some s' ∧ s'.main = .exited since := by
  cases hm : s.main with
  | starting => exact absurd hm hmain.1
  | spawned => exact absurd hm hmain.2.1
  | waiting => exact absurd hm hmain.2.2
  | woken =>
    have hstart : next s .startDrain = some { s with main := .draining s.now } :=
      next_eq_some.mpr ⟨halive, by simp [act, hm]⟩
    obtain ⟨as, s', hrun, hexited⟩ :=
      exit_of_draining (s := { s with main := .draining s.now }) rfl
    exact ⟨.startDrain :: as, s', s.now, run_cons_eq_some.mpr ⟨_, hstart, hrun⟩, hexited⟩
  | draining since =>
    obtain ⟨as, s', hrun, hexited⟩ := exit_of_draining hm
    exact ⟨as, s', since, hrun, hexited⟩
  | exited since => simp [Sys.alive, hm] at halive
  | killed => simp [Sys.alive, hm] at halive

/-- In every run: without a notification the main task is on the way to its wait, waits,
or was killed, and the server does not stop. With one, given in the state `t`, the process can still come to its end from
where the run stands exactly when the main task was waiting in `t`. Otherwise no signal,
request or lapse of time ends it, short of a signal without a handler. A server whose
signal future was not waiting in `t` never stops accepting. And the process ends with no
connection left, or a full drain deadline after it was told to. -/
theorem shutdown_iff (hrun : run next Sys.init as = some s) :
    (noticed Sys.init as = none →
      (s.main = .starting ∨ s.main = .spawned ∨ s.main = .waiting ∨ s.main = .killed) ∧
        s.server ≠ .stopping ∧ s.server ≠ .over) ∧
    ∀ t, noticed Sys.init as = some t →
      (s.alive = true → ((∃ more s' since, run next s more = some s' ∧ s'.main = .exited since) ↔
        t.main = .waiting)) ∧
      (t.listener ≠ .waiting → s.server ≠ .stopping ∧ s.server ≠ .over) ∧
      ∀ since, s.main = .exited since →
        (s.server = .over ∧ s.connections = 0) ∨ since + drainDeadline ≤ s.now := by
  have hserves : ∀ {s : Sys}, s.server = .starting ∨ s.server = .accepting →
      s.server ≠ .stopping ∧ s.server ≠ .over := by
    rintro s (h | h) <;> rw [h] <;> decide
  obtain ⟨hquiet, hgiven⟩ := phase_run before_init hrun
  refine ⟨fun hnone => ?_, fun t ht => ⟨fun halive => ⟨?_, ?_⟩, ?_, ?_⟩⟩
  · exact ⟨(hquiet hnone).main, hserves (hquiet hnone).server⟩
  · rintro ⟨more, s', since, hmore, hexited⟩
    exact (after_run (hgiven t ht) hmore).main_caught (Or.inr ⟨since, Or.inr hexited⟩)
  · intro hwaiting
    exact exit_of_caught halive ((hgiven t ht).caught hwaiting)
  · intro hdeaf
    exact hserves ((hgiven t ht).deaf hdeaf).2
  · intro since hexited
    rcases (hgiven t ht).deadline since hexited with hover | hdue
    · exact Or.inl ⟨hover, (hgiven t ht).drained hover⟩
    · exact Or.inr hdue

end

/-- SIGTERM comes in when the server is up and the main task is on the way to its wait. -/
def earlySignal : List Action :=
  [.pollSignal true true, .spawnServer, .pollServer, .pollListener, .sigterm, .awaitNotification,
    .endListener, .endServer]

/-- `shutdown_iff` at an early signal: the server is over, and the process stays. -/
theorem shutdown_iff_early :
    ∃ s, run next Sys.init earlySignal = some s ∧ s.server = .over ∧
      ¬ ∃ more s' since, run next s more = some s' ∧ s'.main = .exited since := by
  obtain ⟨s, hrun, hover, halive⟩ :
      ∃ s, run next Sys.init earlySignal = some s ∧ s.server = .over ∧ s.alive = true :=
    ⟨_, rfl, rfl, rfl⟩
  obtain ⟨t, ht, hspawned⟩ : ∃ t, noticed Sys.init earlySignal = some t ∧ t.main = .spawned :=
    ⟨_, rfl, rfl⟩
  refine ⟨s, hrun, hover, fun hends => ?_⟩
  cases hspawned.symm.trans (((shutdown_iff hrun).2 t ht).1 halive |>.mp hends)

end MizanConnect.Proofs.Server
