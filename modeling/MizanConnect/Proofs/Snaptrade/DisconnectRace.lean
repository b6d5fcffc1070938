import MizanConnect.Proofs.Snaptrade.ListDelete

/-!
# `MizanConnect.Proofs.Snaptrade.DisconnectRace`: a disconnect and a new link

`delete_connection` looks its row up, removes the authorization upstream, and
then soft-deletes the row by its local id. A callback of the same user can link
another authorization to the row in between, and the soft-delete disables that
one. `disconnect_respects_links` shows that a run in which no row moves before
its soft-delete never disables an authorization whose disconnect was not
requested.
-/

set_option autoImplicit false

namespace MizanConnect.Proofs.Snaptrade

open MizanConnect.Snaptrade
open MizanConnect.Snaptrade.Repository
open MizanConnect.Snaptrade.BrokerConnections (Row schema isSnaptrade)
open Concurrent (Action Good Job Program good_init good_next mem_requests_next next_cases)
open Transition (Along run)

/-- The requests that have come in. -/
def requests (s : BrokerSys) : List Request := s.jobs.map (·.request)

/-- A row that is out of use has an authorization whose disconnect its user
has requested. -/
def Respected (s : BrokerSys) : Prop :=
  ∀ x ∈ s.state.connections.rows, ∀ authorizationId,
    x.snaptradeAuthorizationId = some authorizationId →
    (x.isActive = false ∨ x.disabled = true) →
    Request.deleteConnection x.userId authorizationId ∈ requests s

/-- A soft-delete finds the authorization that its request is about on the row
that it writes. -/
def unmoved (s : BrokerSys) : Action brokerage Request → Bool
  | .spawn _ => true
  | .advance i _ =>
    match s.jobs[i]? with
    | some ⟨.deleteConnection _ authorizationId, .perform (.softDelete userId connectionId) _⟩ =>
      s.state.connections.rows.all fun x =>
        !ownedBy userId connectionId x || x.snaptradeAuthorizationId = some authorizationId
    | _ => true

/-- The discipline that any run of the requests keeps to. -/
abbrev anyRules (ctx : BrokerContext) :=
  stageRules ctx (fun _ _ => True) fun _ _ => True

/-- The jobs keep to it. -/
abbrev Disciplined (ctx : BrokerContext) (s : BrokerSys) : Prop :=
  Good (anyRules ctx) (fun _ _ _ => True) s

/-- A step of an unmoved row keeps the links respected. -/
theorem respected_next {ctx : BrokerContext} {s s' : BrokerSys} {a : Action brokerage Request}
    (hgood : Disciplined ctx s) (hs : Respected s) (hrow : unmoved s a = true)
    (h : brokerNext ctx s a = some s') : Respected s' := by
  have hmono : ∀ r, r ∈ requests s → r ∈ requests s' := fun r => mem_requests_next h
  rcases next_cases h with ⟨r, rfl, rfl⟩ | ⟨i, input, r, o, k, rfl, hjob, rfl⟩
  · exact fun x hx id hid hout => hmono _ (hs x hx id hid hout)
  · have hmay : May ctx (fun _ _ => True) r s.state o := hgood.may hjob
    have hmem : r ∈ requests s := List.mem_map_of_mem (List.mem_of_getElem? hjob)
    intro x hx id hid hout
    have hchange := exec_change s.state o (input o)
    replace hx : x ∈ (brokerage.exec s.state o (input o)).2.connections.rows := hx
    generalize (brokerage.exec s.state o (input o)).2.connections.rows = rows' at hchange hx
    cases hchange with
    | keep => exact hmono _ (hs x hx id hid hout)
    | inserted userId snaptradeUserId blob now newId hnew =>
      rcases List.mem_append.mp hx with hx | hx
      · exact hmono _ (hs x hx id hid hout)
      · -- A pending row has no authorization.
        rw [List.mem_singleton.mp hx] at hid
        cases hid
    | completed connectionId authorizationId slug name now =>
      obtain ⟨y, hy, rfl⟩ := List.mem_map.mp hx
      by_cases hyid : y.id = connectionId
      · -- The row is now in use.
        rw [if_pos hyid] at hout
        rcases hout with hout | hout
        · cases hout
        · cases hout
      · rw [if_neg hyid] at hid hout ⊢
        exact hmono _ (hs y hy id hid hout)
    | deleted userId connectionId now =>
      obtain ⟨y, hy, rfl⟩ := List.mem_map.mp hx
      by_cases howned : ownedBy userId connectionId y = true
      · -- The row has the authorization that the request is about.
        rw [if_pos howned] at hid ⊢
        obtain ⟨⟨authorizationId, rfl⟩, -⟩ := hmay
        have hyauth : y.snaptradeAuthorizationId = some authorizationId := by
          simp only [unmoved, hjob, List.all_eq_true, Bool.or_eq_true, Bool.not_eq_true',
            decide_eq_true_eq] at hrow
          exact (hrow y hy).resolve_left (by simp [howned])
        have huser : y.userId = userId := by
          simp only [ownedBy, snaptradeFor, Bool.and_eq_true, decide_eq_true_eq] at howned
          exact howned.2.1
        obtain rfl : authorizationId = id := Option.some.inj (hyauth.symm.trans hid)
        refine hmono _ ?_
        show Request.deleteConnection y.userId authorizationId ∈ requests s
        rw [huser]
        exact hmem
      · rw [if_neg howned] at hid hout ⊢
        exact hmono _ (hs y hy id hid hout)

/-- In a run whose soft-deletes all find their row unmoved, no disconnect
disables another authorization. -/
theorem disconnect_respects_links (ctx : BrokerContext) {s : BrokerSys}
    {as : List (Action brokerage Request)}
    (hunmoved : Along (brokerNext ctx) (fun s a => unmoved s a = true) brokerInit as)
    (hs : run (brokerNext ctx) brokerInit as = some s) : Respected s := by
  have hT := (stage_brokered ctx (fun _ _ => True) (fun _ _ => True)
    fun _ _ _ => trivial).together fun _ _ h => h
  have hinit : Disciplined ctx brokerInit := good_init _ fun r hr => nomatch hr
  have hempty : Respected brokerInit := fun x hx => nomatch hx
  refine (Transition.run_invariant (P := fun s => Disciplined ctx s ∧ Respected s)
    (C := fun s a => unmoved s a = true) ?_ ⟨hinit, hempty⟩ hunmoved hs).2
  intro s a s' hP hrow h
  refine ⟨(good_next hT hP.1 ?_ h).1, respected_next hP.1 hP.2 hrow h⟩
  cases a with
  | spawn r => trivial
  | advance i input => exact fun _ _ _ _ => trivial

/-! ### The race -/

theorem unmoved_disconnect :
    Along (brokerNext aliceContext) (fun s a => unmoved s a = true) brokerInit disconnect := by
  decide +kernel

/-- `disconnect_respects_links` for a user who links Questrade and disconnects
it. -/
theorem disconnect_respects_links_questrade :
    ∃ s, run (brokerNext aliceContext) brokerInit disconnect = some s ∧ Respected s := by
  obtain ⟨s, hs, -⟩ := Option.map_eq_some_iff.mp disconnect_rows
  exact ⟨s, hs, disconnect_respects_links aliceContext unmoved_disconnect hs⟩

def wealthsimple : StAuthorization :=
  linked "B" "2024-02-01T00:00:00Z" "wealthsimple" "Wealthsimple"

/-- Questrade is linked. Its disconnect looks the row up and removes it
upstream, then a callback links Wealthsimple, then the disconnect goes on. -/
def race : List (Action brokerage Request) :=
  linkQuestrade ++
    (.spawn (.deleteConnection alice "A") :: steps 2 2 [wealthsimple] 6) ++
    (.spawn (.callback callbackQuery) :: steps 4 3 [wealthsimple] 7) ++
    steps 2 2 [wealthsimple] 8

/-- What the race leaves. -/
def raceRow : Row :=
  { linkedRow "B" "wealthsimple" "Wealthsimple" with
    isActive := false
    disabled := true
    updatedAt := 8 }

theorem race_end :
    (run (brokerNext aliceContext) brokerInit race).map
        (fun s => (s.state.connections.rows, requests s))
      = some ([raceRow], [.loginPortal alice, .callback callbackQuery,
        .deleteConnection alice "A", .callback callbackQuery]) := by decide +kernel

/-- Wealthsimple ends up disabled, and only the disconnect of Questrade was
requested. -/
theorem race_disables_new_link :
    ∃ s, run (brokerNext aliceContext) brokerInit race = some s ∧ ¬ Respected s := by
  obtain ⟨s, hs, hend⟩ := Option.map_eq_some_iff.mp race_end
  obtain ⟨hrows, hrequests⟩ := Prod.mk.inj hend
  refine ⟨s, hs, ?_⟩
  intro h
  have hrow : raceRow ∈ s.state.connections.rows := by
    rw [hrows]
    exact List.mem_cons_self
  have hdelete := h raceRow hrow "B" rfl (Or.inl rfl)
  rw [hrequests] at hdelete
  revert hdelete
  decide +kernel

end MizanConnect.Proofs.Snaptrade
