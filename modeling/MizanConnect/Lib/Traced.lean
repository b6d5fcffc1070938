import MizanConnect.Lib.Program

/-!
# `MizanConnect.Lib.Traced`: what a program has done so far

`Program.Follows` is a discipline over the history of one program: each
operation is allowed by the operations that the program has performed before it
and their answers, whatever the answers are. It says nothing about the state, so
it asks for no proof about the other programs.

`trace` is the list of the operations that a run of many programs performs, each
with its job and the state before it. `Lawful` is what the two say together about
an operation of a run: its own job has done what allows it (`lawful_of_trace`).
`trace_invariant` is the induction over the operations of a run.
-/

set_option autoImplicit false

namespace Concurrent

open Transition (run run_history run_append)

variable {σ ρ Op α β ε : Type} {Ans : Op → Type}

/-- An operation and its answer. -/
abbrev Event (Op : Type) (Ans : Op → Type) := (o : Op) × Ans o

/-! ### One program -/

/-- After the history `h`, every operation of the program is one that `may`
allows after the history up to it, and the value meets `Q`. -/
def Program.Follows (may : List (Event Op Ans) → Op → Prop)
    (Q : List (Event Op Ans) → α → Prop) : List (Event Op Ans) → Program Op Ans α → Prop
  | h, .done a => Q h a
  | h, .perform o k => may h o ∧ ∀ x, (k x).Follows may Q (h ++ [⟨o, x⟩])

section
variable {may : List (Event Op Ans) → Op → Prop} {h : List (Event Op Ans)}

/-- A weaker condition on the value. -/
theorem Program.Follows.imp {Q Q' : List (Event Op Ans) → α → Prop} {p : Program Op Ans α}
    (hp : p.Follows may Q h) (himp : ∀ h' a, Q h' a → Q' h' a) : p.Follows may Q' h := by
  induction p generalizing h with
  | done a => exact himp h a hp
  | perform o k ih => exact ⟨hp.1, fun x => ih x (hp.2 x)⟩

/-- The history only grows. -/
theorem Program.Follows.grows {Q : List (Event Op Ans) → α → Prop} {p : Program Op Ans α}
    (hp : p.Follows may Q h) : p.Follows may (fun h' a => h ⊆ h' ∧ Q h' a) h := by
  induction p generalizing h with
  | done a => exact ⟨List.Subset.refl h, hp⟩
  | perform o k ih =>
    refine ⟨hp.1, fun x => Program.Follows.imp (ih x (hp.2 x)) ?_⟩
    rintro h' a ⟨hsub, hQ⟩
    exact ⟨List.Subset.trans (List.subset_append_left h _) hsub, hQ⟩

/-- A program and then another. -/
theorem Program.Follows.bind {Q : List (Event Op Ans) → β → Prop} {p : Program Op Ans α}
    {f : α → Program Op Ans β} (hp : p.Follows may (fun h' a => (f a).Follows may Q h') h) :
    (p >>= f).Follows may Q h := by
  show (p.bind f).Follows may Q h
  induction p generalizing h with
  | done a => exact hp
  | perform o k ih => exact ⟨hp.1, fun x => ih x (hp.2 x)⟩

/-- The same for programs that end in an error or a value. Of an error nothing is
asked. -/
def Leads (may : List (Event Op Ans) → Op → Prop) (p : ExceptT ε (Program Op Ans) α)
    (h : List (Event Op Ans)) (Q : List (Event Op Ans) → α → Prop) : Prop :=
  p.run.Follows may (fun h' x => ∀ a, x = .ok a → Q h' a) h

theorem leads_value {a : α} {Q : List (Event Op Ans) → α → Prop} (hQ : Q h a) :
    Leads may (Program.done (.ok a) : ExceptT ε (Program Op Ans) α) h Q := by
  intro b hb
  cases hb
  exact hQ

theorem leads_error {e : ε} {Q : List (Event Op Ans) → α → Prop} :
    Leads may (Program.done (.error e) : ExceptT ε (Program Op Ans) α) h Q := by
  intro b hb
  cases hb

/-- One operation, and what follows its answer. -/
theorem leads_perform {o : Op} {k : Ans o → Program Op Ans (Except ε α)}
    {Q : List (Event Op Ans) → α → Prop} (hmay : may h o)
    (hk : ∀ x, Leads may (k x : ExceptT ε (Program Op Ans) α) (h ++ [⟨o, x⟩]) Q) :
    Leads may (Program.perform o k : ExceptT ε (Program Op Ans) α) h Q :=
  ⟨hmay, hk⟩

/-- A weaker condition on the value, which knows the history. -/
theorem Leads.imp {p : ExceptT ε (Program Op Ans) α} {Q Q' : List (Event Op Ans) → α → Prop}
    (hp : Leads may p h Q) (himp : ∀ a h', h ⊆ h' → Q h' a → Q' h' a) : Leads may p h Q' :=
  Program.Follows.imp hp.grows fun h' _ hQ a ha => himp a h' hQ.1 (hQ.2 a ha)

/-- A program and then another, which knows the history of the first. -/
theorem Leads.bind {p : ExceptT ε (Program Op Ans) α} {f : α → ExceptT ε (Program Op Ans) β}
    {P : List (Event Op Ans) → α → Prop} {Q : List (Event Op Ans) → β → Prop}
    (hp : Leads may p h P) (hf : ∀ a h', h ⊆ h' → P h' a → Leads may (f a) h' Q) :
    Leads may (p >>= f) h Q := by
  refine Program.Follows.bind (f := ExceptT.bindCont f) (Program.Follows.imp hp.grows ?_)
  rintro h' x ⟨hsub, hP⟩
  cases x with
  | error e => exact leads_error
  | ok a => exact hf a h' hsub (hP a rfl)

theorem Leads.map {p : ExceptT ε (Program Op Ans) α} {f : α → β}
    {Q : List (Event Op Ans) → β → Prop} (hp : Leads may p h fun h' a => Q h' (f a)) :
    Leads may (f <$> p) h Q := by
  refine Program.Follows.bind (Program.Follows.imp hp ?_)
  intro h' x hx
  cases x with
  | error e => exact leads_error
  | ok a => exact leads_value (hx a rfl)

end

/-! ### The trace of a run -/

/-- An operation that a run performs: its job and the request of the job, the
state before it and its input. -/
structure Performed (M : Machine σ Op Ans) (ρ : Type) where
  job : Nat
  request : ρ
  before : σ
  op : Op
  input : M.In op

variable {M : Machine σ Op Ans}

def Performed.answer (e : Performed M ρ) : Ans e.op := (M.exec e.before e.op e.input).1

def Performed.after (e : Performed M ρ) : σ := (M.exec e.before e.op e.input).2

def Performed.event (e : Performed M ρ) : Event Op Ans := ⟨e.op, e.answer⟩

/-- What a step performs. -/
def performed (s : Sys σ ρ Op Ans α) : Action M ρ → List (Performed M ρ)
  | .spawn _ => []
  | .advance i input =>
    match s.jobs[i]? with
    | some ⟨r, .perform o _⟩ => [⟨i, r, s.state, o, input o⟩]
    | _ => []

/-- What a run performs. -/
def trace (handler : ρ → Program Op Ans α) (s : Sys σ ρ Op Ans α) :
    List (Action M ρ) → List (Performed M ρ)
  | [] => []
  | a :: as => performed s a ++
      match next M handler s a with
      | some s' => trace handler s' as
      | none => []

/-- The history of one job. -/
def own (i : Nat) (entries : List (Performed M ρ)) : List (Event Op Ans) :=
  (entries.filter fun e => e.job = i).map Performed.event

/-- An operation that its own job has made room for. The entries of one job have
one request. -/
structure Lawful (may : ρ → List (Event Op Ans) → Op → Prop) (past : List (Performed M ρ))
    (e : Performed M ρ) : Prop where
  allowed : may e.request (own e.job past) e.op
  same : ∀ f ∈ past, f.job = e.job → f.request = e.request

section
variable {handler : ρ → Program Op Ans α} {s s' : Sys σ ρ Op Ans α} {a : Action M ρ}
  {as : List (Action M ρ)} {may : ρ → List (Event Op Ans) → Op → Prop}
  {Q : ρ → List (Event Op Ans) → α → Prop} {past : List (Performed M ρ)} {e : Performed M ρ}

theorem trace_append {bs : List (Action M ρ)} (hrun : run (next M handler) s as = some s') :
    trace handler s (as ++ bs) = trace handler s as ++ trace handler s' bs := by
  induction as generalizing s with
  | nil =>
    cases hrun
    rfl
  | cons a as ih =>
    obtain ⟨m, hm, hrest⟩ := Transition.run_cons_eq_some.mp hrun
    simp only [List.cons_append, trace, hm, ih hrest, List.append_assoc]

/-- One more step. -/
theorem trace_concat (hrun : run (next M handler) s as = some s') :
    trace handler s (as ++ [a]) = trace handler s as ++ performed s' a := by
  rw [trace_append hrun]
  cases hnext : next M handler s' a <;> simp [trace, hnext]

/-- A step performs nothing and leaves the state, or it performs one operation of
one job. -/
theorem performed_cases (h : next M handler s a = some s') :
    (∃ r, a = .spawn r ∧ performed s a = [] ∧
      s' = { s with jobs := s.jobs ++ [⟨r, handler r⟩] }) ∨
    ∃ e k, performed s a = [e] ∧ s.jobs[e.job]? = some ⟨e.request, .perform e.op k⟩ ∧
      e.before = s.state ∧
      s' = ⟨e.after, s.jobs.set e.job ⟨e.request, k e.answer⟩⟩ := by
  rcases next_cases h with ⟨r, rfl, rfl⟩ | ⟨i, input, r, o, k, rfl, hjob, rfl⟩
  · exact Or.inl ⟨r, rfl, rfl, rfl⟩
  · refine Or.inr ⟨⟨i, r, s.state, o, input o⟩, k, ?_, hjob, rfl, rfl⟩
    simp [performed, hjob]

@[simp] theorem own_nil (i : Nat) : own i ([] : List (Performed M ρ)) = [] := rfl

theorem own_append (i : Nat) (xs ys : List (Performed M ρ)) :
    own i (xs ++ ys) = own i xs ++ own i ys := by
  simp [own]

@[simp] theorem own_self (e : Performed M ρ) : own e.job [e] = [e.event] := by
  simp [own]

theorem own_other {i : Nat} (hne : e.job ≠ i) : own i [e] = [] := by
  simp [own, hne]

/-- An event of a job is that of an entry. -/
theorem mem_own {i : Nat} {x : Event Op Ans} (hx : x ∈ own i past) :
    ∃ f ∈ past, f.job = i ∧ f.event = x := by
  obtain ⟨f, hf, rfl⟩ := List.mem_map.mp hx
  obtain ⟨hmem, hjob⟩ := List.mem_filter.mp hf
  exact ⟨f, hmem, of_decide_eq_true hjob, rfl⟩

/-- Where the jobs of a run are: each goes on from its own history, and the
entries of the trace are lawful. -/
structure Traced (may : ρ → List (Event Op Ans) → Op → Prop)
    (Q : ρ → List (Event Op Ans) → α → Prop) (as : List (Action M ρ))
    (past : List (Performed M ρ)) (s : Sys σ ρ Op Ans α) : Prop where
  follows : ∀ (i : Nat) job, s.jobs[i]? = some job →
    job.rest.Follows (may job.request) (Q job.request) (own i past)
  asked : ∀ (i : Nat) job, s.jobs[i]? = some job → .spawn job.request ∈ as
  known : ∀ f ∈ past, ∃ job, s.jobs[f.job]? = some job ∧ job.request = f.request
  lawful : ∀ pre f post, past = pre ++ f :: post → Lawful may pre f

/-- A job that moves from a state of a run is lawful. -/
theorem Traced.step {k : Ans e.op → Program Op Ans α} (hs : Traced may Q as past s)
    (hjob : s.jobs[e.job]? = some ⟨e.request, .perform e.op k⟩) : Lawful may past e where
  allowed := (hs.follows _ _ hjob).1
  same f hf heq := by
    obtain ⟨job, hat, hrequest⟩ := hs.known f hf
    rw [heq, hjob] at hat
    cases hat
    exact hrequest.symm

/-- An entry of a longer list is one of the list, or the last one. -/
theorem split_concat {γ : Type} {xs pre post : List γ} {x y : γ}
    (h : xs ++ [x] = pre ++ y :: post) :
    (∃ post', xs = pre ++ y :: post') ∨ (pre = xs ∧ y = x) := by
  rcases List.eq_nil_or_concat post with rfl | ⟨post', z, rfl⟩
  · obtain ⟨rfl, hy⟩ := List.append_inj' h rfl
    exact Or.inr ⟨rfl, (List.cons.inj hy).1.symm⟩
  · rw [List.concat_eq_append, ← List.cons_append, ← List.append_assoc] at h
    exact Or.inl ⟨post', (List.append_inj' h rfl).1⟩

/-- Every step keeps the jobs on their way. -/
theorem Traced.next (hF : ∀ r, (handler r).Follows (may r) (Q r) [])
    (hs : Traced may Q as past s) (h : Concurrent.next M handler s a = some s') :
    Traced may Q (as ++ [a]) (past ++ performed s a) s' := by
  rcases performed_cases h with ⟨r, rfl, hnone, rfl⟩ | ⟨e, k, hone, hjob, -, rfl⟩
  · rw [hnone, List.append_nil]
    have hfresh : own s.jobs.length past = [] := by
      -- The entries so far are of other jobs.
      rw [own, List.filter_eq_nil_iff.mpr, List.map_nil]
      intro f hf heq
      obtain ⟨job, hat, -⟩ := hs.known f hf
      rw [of_decide_eq_true heq] at hat
      simp at hat
    refine ⟨?_, ?_, ?_, hs.lawful⟩
    · intro i job hi
      rcases Transition.getElem?_concat_cases hi with hi | ⟨rfl, rfl⟩
      · exact hs.follows i job hi
      · rw [hfresh]
        exact hF r
    · intro i job hi
      rcases Transition.getElem?_concat_cases hi with hi | ⟨rfl, rfl⟩
      · exact List.mem_append_left _ (hs.asked i job hi)
      · exact List.mem_append_right _ List.mem_cons_self
    · intro f hf
      obtain ⟨job, hat, hrequest⟩ := hs.known f hf
      refine ⟨job, ?_, hrequest⟩
      rw [List.getElem?_append_left (List.getElem?_eq_some_iff.mp hat).1]
      exact hat
  · rw [hone]
    have hstep : Lawful may past e := hs.step hjob
    have hself : (s.jobs.set e.job ⟨e.request, k e.answer⟩)[e.job]?
        = some ⟨e.request, k e.answer⟩ :=
      List.getElem?_set_self (List.getElem?_eq_some_iff.mp hjob).1
    refine ⟨?_, ?_, ?_, ?_⟩
    · intro i job hi
      rcases Transition.getElem?_set_cases hjob hi with ⟨rfl, rfl⟩ | ⟨hne, hi⟩
      · rw [own_append, own_self]
        exact (hs.follows _ _ hjob).2 e.answer
      · rw [own_append, own_other (Ne.symm hne), List.append_nil]
        exact hs.follows i job hi
    · intro i job hi
      rcases Transition.getElem?_set_cases hjob hi with ⟨-, rfl⟩ | ⟨-, hi⟩
      · exact List.mem_append_left _ (hs.asked e.job ⟨e.request, .perform e.op k⟩ hjob)
      · exact List.mem_append_left _ (hs.asked i job hi)
    · intro f hf
      rcases List.mem_append.mp hf with hf | hf
      · obtain ⟨job, hat, hrequest⟩ := hs.known f hf
        by_cases heq : f.job = e.job
        · refine ⟨⟨e.request, k e.answer⟩, ?_, (hstep.same f hf heq).symm⟩
          rw [heq]
          exact hself
        · refine ⟨job, ?_, hrequest⟩
          rw [List.getElem?_set_ne (Ne.symm heq)]
          exact hat
      · rw [List.mem_singleton.mp hf]
        exact ⟨_, hself, rfl⟩
    · intro pre f post happend
      rcases split_concat happend with ⟨post', hpast⟩ | ⟨rfl, rfl⟩
      · exact hs.lawful pre f post' hpast
      · exact hstep

/-- Every reached state is one of a traced run. -/
theorem traced_run {t : σ} (hF : ∀ r, (handler r).Follows (may r) (Q r) [])
    (hrun : run (next M handler) (Sys.init t) as = some s) :
    Traced may Q as (trace handler (Sys.init t) as) s := by
  refine run_history (P := fun as x => Traced may Q as (trace handler (Sys.init t) as) x)
    ?_ ?_ hrun
  · exact ⟨fun i job hi => by simp [Sys.init] at hi, fun i job hi => by simp [Sys.init] at hi,
      fun f hf => by simp [trace] at hf, fun pre f post h => by simp [trace] at h⟩
  · intro as a m m' hm htraced hnext
    rw [trace_concat hm]
    exact htraced.next hF hnext

/-- Every operation of a run is lawful. -/
theorem lawful_of_trace {t : σ} {pre post : List (Performed M ρ)}
    (hF : ∀ r, (handler r).Follows (may r) (Q r) [])
    (hrun : run (next M handler) (Sys.init t) as = some s)
    (h : trace handler (Sys.init t) as = pre ++ e :: post) : Lawful may pre e :=
  (traced_run hF hrun).lawful pre e post h

/-- A job that is done has its value from its own history. -/
theorem value_of_run {t : σ} {i : Nat} {r : ρ} {a : α}
    (hF : ∀ r, (handler r).Follows (may r) (Q r) [])
    (hrun : run (next M handler) (Sys.init t) as = some s) (hjob : s.jobs[i]? = some ⟨r, .done a⟩) :
    Q r (own i (trace handler (Sys.init t) as)) a :=
  (traced_run hF hrun).follows i _ hjob

/-- The induction over the operations of a run. -/
theorem trace_invariant {t : σ} {P : List (Performed M ρ) → σ → Prop}
    (hF : ∀ r, (handler r).Follows (may r) (Q r) []) (hnil : P [] t)
    (hstep : ∀ past e, Lawful may past e → P past e.before → P (past ++ [e]) e.after)
    (hrun : run (next M handler) (Sys.init t) as = some s) :
    P (trace handler (Sys.init t) as) s.state := by
  refine run_history (P := fun as x => P (trace handler (Sys.init t) as) x.state) ?_ ?_ hrun
  · exact hnil
  · intro as a m m' hm hP hnext
    rw [trace_concat hm]
    rcases performed_cases hnext with ⟨r, rfl, hnone, rfl⟩ | ⟨e, k, hone, hjob, hbefore, rfl⟩
    · rw [hnone, List.append_nil]
      exact hP
    · rw [hone]
      exact hstep _ e ((traced_run hF hm).step hjob) (hbefore ▸ hP)

/-- An operation of a run and the run up to it. -/
theorem trace_split {t : σ} {pre post : List (Performed M ρ)}
    (hrun : run (next M handler) (Sys.init t) as = some s)
    (h : trace handler (Sys.init t) as = pre ++ e :: post) :
    ∃ as₁ as₂ m k, as = as₁ ++ as₂ ∧ run (next M handler) (Sys.init t) as₁ = some m ∧
      trace handler (Sys.init t) as₁ = pre ∧ m.state = e.before ∧
      m.jobs[e.job]? = some ⟨e.request, .perform e.op k⟩ := by
  induction as using List.reverseRecOn generalizing s pre post with
  | nil => simp [trace] at h
  | append_singleton as a ih =>
    obtain ⟨m, hm, hlast⟩ := run_append.mp hrun
    obtain ⟨m', hm', -⟩ := Transition.run_cons_eq_some.mp hlast
    rw [trace_concat hm] at h
    -- The entry is of the steps before, or of the last one.
    rcases performed_cases hm' with ⟨r, -, hnone, -⟩ | ⟨f, k, hone, hjob, hbefore, -⟩
    · rw [hnone, List.append_nil] at h
      obtain ⟨as₁, as₂, x, k, rfl, hx⟩ := ih hm h
      exact ⟨as₁, as₂ ++ [a], x, k, by simp, hx⟩
    · rw [hone] at h
      rcases split_concat h with ⟨post', hpast⟩ | ⟨rfl, rfl⟩
      · obtain ⟨as₁, as₂, x, k, rfl, hx⟩ := ih hm hpast
        exact ⟨as₁, as₂ ++ [a], x, k, by simp, hx⟩
      · exact ⟨as, [a], m, k, rfl, hm, rfl, hbefore.symm, hjob⟩

/-- Every program keeps to the discipline that allows everything. -/
theorem Program.follows_true (p : Program Op Ans α) (h : List (Event Op Ans)) :
    p.Follows (fun _ _ => True) (fun _ _ => True) h := by
  induction p generalizing h with
  | done a => exact True.intro
  | perform o k ih => exact ⟨True.intro, fun x => ih x _⟩

/-- What every operation does to the state, all of them do together. -/
theorem trace_related {t : σ} {T : σ → σ → Prop} (hrefl : ∀ s, T s s)
    (htrans : ∀ s s' s'', T s s' → T s' s'' → T s s'')
    (hexec : ∀ s o i, T s (M.exec s o i).2)
    (hrun : run (next M handler) (Sys.init t) as = some s) :
    ∀ f ∈ trace handler (Sys.init t) as, T f.after s.state := by
  refine trace_invariant (P := fun past x => ∀ f ∈ past, T f.after x)
    (fun r => (handler r).follows_true []) (by simp) ?_ hrun
  intro past e _ hpast f hf
  rcases List.mem_append.mp hf with hf | hf
  · exact htrans _ _ _ (hpast f hf) (hexec e.before e.op e.input)
  · rw [List.mem_singleton.mp hf]
    exact hrefl _

/-- The same up to an operation of the run. -/
theorem trace_related_before {t : σ} {T : σ → σ → Prop} {pre post : List (Performed M ρ)}
    (hrefl : ∀ s, T s s) (htrans : ∀ s s' s'', T s s' → T s' s'' → T s s'')
    (hexec : ∀ s o i, T s (M.exec s o i).2)
    (hrun : run (next M handler) (Sys.init t) as = some s)
    (h : trace handler (Sys.init t) as = pre ++ e :: post) :
    ∀ f ∈ pre, T f.after e.before := by
  obtain ⟨as₁, as₂, m, k, -, hm, rfl, hstate, -⟩ := trace_split hrun h
  rw [← hstate]
  exact trace_related hrefl htrans hexec hm

/-- The request of an operation came in before it, and what was performed before
the request came in was performed before the operation. -/
theorem trace_asked {t : σ} {pre post : List (Performed M ρ)}
    (hrun : run (next M handler) (Sys.init t) as = some s)
    (h : trace handler (Sys.init t) as = pre ++ e :: post) :
    ∃ as₁ as₂, as = as₁ ++ .spawn e.request :: as₂ ∧ trace handler (Sys.init t) as₁ ⊆ pre := by
  obtain ⟨bs, cs, m, k, rfl, hm, rfl, -, hjob⟩ := trace_split hrun h
  have htraced : Traced (fun _ _ _ => True) (fun _ _ _ => True) bs
      (trace handler (Sys.init t) bs) m :=
    traced_run (fun r => (handler r).follows_true []) hm
  obtain ⟨as₁, as₂, rfl⟩ := List.append_of_mem (htraced.asked e.job _ hjob)
  refine ⟨as₁, as₂ ++ cs, by simp, ?_⟩
  obtain ⟨x, hx, -⟩ := run_append.mp hm
  rw [trace_append hx]
  exact List.subset_append_left _ _

end

end Concurrent
