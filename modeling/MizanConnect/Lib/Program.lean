import MizanConnect.Lib.Run

/-!
# `MizanConnect.Lib.Program`: programs that take turns

A `Program` performs one operation at a time on a shared state and goes on
with the answer. A `Machine` executes the operations. What an operation does
not decide itself (the clock, a failure, the reply of a remote party) is its
input.

`solo` runs one program alone in an environment that supplies the inputs.
`next` lets any number of programs take turns: a step performs the next
operation of one of them.

`Rules` is the discipline that the programs keep to: an invariant, the changes
that a program relies on between two of its operations (`rely`), the
operations it may perform (`may`), and the inputs that count (`legal`). Its
field `sound` is the one proof about each operation. `Keeps` says that a
program performs what it may, whatever the others do, so it asks for no
further proof about the state. `solo_keeps` and `good_run` are what follows
for a run alone and for a run together, and `solo_agree` compares two runs
alone.
-/

set_option autoImplicit false

namespace Concurrent

open Transition (run Along StepOf)

/-- A program over the operations `Op`. The operation `o` is answered with an
element of `Ans o`. -/
inductive Program (Op : Type) (Ans : Op → Type) (α : Type) where
  | done (value : α)
  | perform (o : Op) (next : Ans o → Program Op Ans α)

/-- What an operation does to the state `σ`, given its input. -/
structure Machine (σ Op : Type) (Ans : Op → Type) where
  In : Op → Type
  exec : σ → (o : Op) → In o → Ans o × σ

variable {σ ω ρ Op α β ε : Type} {Ans : Op → Type} {M : Machine σ Op Ans}

/-- One program after another. -/
def Program.bind : Program Op Ans α → (α → Program Op Ans β) → Program Op Ans β
  | .done a, f => f a
  | .perform o k, f => .perform o fun x => (k x).bind f

instance : Monad (Program Op Ans) where
  pure := Program.done
  bind := Program.bind

/-- One operation. -/
def perform (o : Op) : Program Op Ans (Ans o) := .perform o .done

/-- Every operation that the program can come to meets `P`. -/
def Program.All (P : Op → Prop) : Program Op Ans α → Prop
  | .done _ => True
  | .perform o k => P o ∧ ∀ x, (k x).All P

theorem Program.All.bind {P : Op → Prop} {p : Program Op Ans α} {f : α → Program Op Ans β}
    (hp : p.All P) (hf : ∀ a, (f a).All P) : (p >>= f).All P := by
  show (p.bind f).All P
  induction p with
  | done a => exact hf a
  | perform o k ih => exact ⟨hp.1, fun x => ih x (hp.2 x)⟩

/-- The same for programs that end in an error or a value. -/
theorem Program.All.bind_run {P : Op → Prop} {p : ExceptT ε (Program Op Ans) α}
    {f : α → ExceptT ε (Program Op Ans) β} (hp : p.run.All P) (hf : ∀ a, (f a).run.All P) :
    (p >>= f).run.All P := by
  refine Program.All.bind (f := ExceptT.bindCont f) hp ?_
  intro x
  cases x with
  | error e => trivial
  | ok a => exact hf a

/-! ### Alone -/

/-- The end of a run alone. `trace` has the operations, each with the state
before it. -/
structure Outcome (σ ω Op α : Type) where
  value : α
  world : ω
  state : σ
  trace : List (σ × Op)

/-- The run of a program alone, in the environment `env`. -/
def solo (M : Machine σ Op Ans) (env : ω → (o : Op) → M.In o × ω) :
    Program Op Ans α → ω → σ → Outcome σ ω Op α
  | .done a, w, s => ⟨a, w, s, []⟩
  | .perform o k, w, s =>
    let answer := M.exec s o (env w o).1
    let rest := solo M env (k answer.1) (env w o).2 answer.2
    { rest with trace := (s, o) :: rest.trace }

/-! ### Together -/

/-- A request and what is left of its program. -/
structure Job (ρ Op : Type) (Ans : Op → Type) (α : Type) where
  request : ρ
  rest : Program Op Ans α

/-- The shared state and the jobs. -/
structure Sys (σ ρ Op : Type) (Ans : Op → Type) (α : Type) where
  state : σ
  jobs : List (Job ρ Op Ans α)

/-- A request comes in, or a job performs its next operation, with an input
for whatever operation that is. -/
inductive Action (M : Machine σ Op Ans) (ρ : Type) where
  | spawn (r : ρ)
  | advance (i : Nat) (input : (o : Op) → M.In o)

/-- The request that comes in. -/
def Action.spawned : Action M ρ → List ρ
  | .spawn r => [r]
  | .advance _ _ => []

/-- One step. -/
def next (M : Machine σ Op Ans) (handler : ρ → Program Op Ans α)
    (s : Sys σ ρ Op Ans α) : Action M ρ → Option (Sys σ ρ Op Ans α)
  | .spawn r => some { s with jobs := s.jobs ++ [⟨r, handler r⟩] }
  | .advance i input =>
    match s.jobs[i]? with
    | some ⟨r, .perform o k⟩ =>
      let answer := M.exec s.state o (input o)
      some ⟨answer.2, s.jobs.set i ⟨r, k answer.1⟩⟩
    | _ => none

/-- The state before the first request. -/
def Sys.init (s : σ) : Sys σ ρ Op Ans α := ⟨s, []⟩

/-- The two kinds of steps. -/
theorem next_cases {handler : ρ → Program Op Ans α} {s s' : Sys σ ρ Op Ans α} {a : Action M ρ}
    (h : next M handler s a = some s') :
    (∃ r, a = .spawn r ∧ s' = { s with jobs := s.jobs ++ [⟨r, handler r⟩] }) ∨
    (∃ i input r o k, a = .advance i input ∧ s.jobs[i]? = some ⟨r, .perform o k⟩ ∧
      s' = ⟨(M.exec s.state o (input o)).2,
        s.jobs.set i ⟨r, k (M.exec s.state o (input o)).1⟩⟩) := by
  cases a with
  | spawn r =>
    cases h
    exact Or.inl ⟨r, rfl, rfl⟩
  | advance i input =>
    cases hjob : s.jobs[i]? with
    | none => simp [next, hjob] at h
    | some job =>
      obtain ⟨r, rest⟩ := job
      cases rest with
      | done value => simp [next, hjob] at h
      | perform o k =>
        simp only [next, hjob] at h
        cases h
        exact Or.inr ⟨i, input, r, o, k, rfl, hjob, rfl⟩

/-- The last job performs its next operation. -/
theorem next_advance_last (handler : ρ → Program Op Ans α) (s : σ) (jobs : List (Job ρ Op Ans α))
    (r : ρ) (o : Op) (k : Ans o → Program Op Ans α) (input : (o : Op) → M.In o) :
    next M handler ⟨s, jobs ++ [⟨r, .perform o k⟩]⟩ (.advance jobs.length input) =
      some ⟨(M.exec s o (input o)).2, jobs ++ [⟨r, k (M.exec s o (input o)).1⟩]⟩ := by
  simp [next]

/-- The requests after a step: a step that performs an operation keeps
them. -/
theorem requests_next {handler : ρ → Program Op Ans α} {s s' : Sys σ ρ Op Ans α} {a : Action M ρ}
    (h : next M handler s a = some s') :
    s'.jobs.map (·.request) = s.jobs.map (·.request) ++ a.spawned := by
  rcases next_cases h with ⟨r, rfl, rfl⟩ | ⟨i, input, r, o, k, rfl, hjob, rfl⟩
  · simp [Action.spawned]
  · -- The job that moves keeps its request.
    have hlt : i < (s.jobs.map (·.request)).length := by
      simpa using (List.getElem?_eq_some_iff.mp hjob).1
    have hr : (s.jobs.map (·.request))[i] = r := by
      simp [(List.getElem?_eq_some_iff.mp hjob).2]
    show (s.jobs.set i ⟨r, k (M.exec s.state o (input o)).1⟩).map (·.request) = _
    rw [Action.spawned, List.append_nil, List.map_set, ← hr, List.set_getElem_self hlt]

/-- A request stays among the jobs. -/
theorem mem_requests_next {handler : ρ → Program Op Ans α} {s s' : Sys σ ρ Op Ans α}
    {a : Action M ρ} (h : next M handler s a = some s') {r : ρ}
    (hr : r ∈ s.jobs.map (·.request)) : r ∈ s'.jobs.map (·.request) := by
  rw [requests_next h]
  exact List.mem_append_left _ hr

/-! ### What programs keep to -/

/-- A discipline for the programs of the requests `ρ`. -/
structure Rules (M : Machine σ Op Ans) (ρ : Type) where
  inv : σ → Prop
  rely : σ → σ → Prop
  may : ρ → σ → Op → Prop
  legal : ρ → σ → (o : Op) → M.In o → Prop
  guar : σ → σ → Prop
  refl : ∀ s, rely s s
  trans : ∀ s s' s'', rely s s' → rely s' s'' → rely s s''
  sound : ∀ r s o i, inv s → may r s o → legal r s o i →
    inv (M.exec s o i).2 ∧ guar s (M.exec s o i).2

variable {R : Rules M ρ} {r : ρ}

/-- From the state `s` on, the program performs what it may, and its value
meets `Q`. -/
def Keeps (R : Rules M ρ) (r : ρ) : Program Op Ans α → σ → (α → σ → Prop) → Prop
  | .done a, s, Q => ∀ s', R.rely s s' → R.inv s' → Q a s'
  | .perform o k, s, Q => ∀ s', R.rely s s' → R.inv s' → R.may r s' o ∧
      ∀ i, R.legal r s' o i → Keeps R r (k (M.exec s' o i).1) (M.exec s' o i).2 Q

/-- The others may move first. -/
theorem Keeps.later {p : Program Op Ans α} {s s' : σ} {Q : α → σ → Prop}
    (h : Keeps R r p s Q) (hrely : R.rely s s') : Keeps R r p s' Q := by
  cases p with
  | done a => exact fun x hx hinv => h x (R.trans s s' x hrely hx) hinv
  | perform o k => exact fun x hx hinv => h x (R.trans s s' x hrely hx) hinv

/-- It is enough to look at the states that the others leave. -/
theorem keeps_of_rely {p : Program Op Ans α} {s : σ} {Q : α → σ → Prop}
    (h : ∀ s', R.rely s s' → R.inv s' → Keeps R r p s' Q) : Keeps R r p s Q := by
  cases p with
  | done a => exact fun x hx hinv => h x hx hinv x (R.refl x) hinv
  | perform o k => exact fun x hx hinv => h x hx hinv x (R.refl x) hinv

/-- A weaker condition on the value. -/
theorem Keeps.imp {p : Program Op Ans α} {s : σ} {Q Q' : α → σ → Prop} (h : Keeps R r p s Q)
    (himp : ∀ a s', Q a s' → Q' a s') : Keeps R r p s Q' := by
  induction p generalizing s with
  | done a => exact fun s' hrely hinv => himp a s' (h s' hrely hinv)
  | perform o k ih =>
    intro s' hrely hinv
    obtain ⟨hmay, hrest⟩ := h s' hrely hinv
    exact ⟨hmay, fun i hlegal => ih _ (hrest i hlegal)⟩

/-- The condition on the value holds whatever the others do afterwards. -/
theorem Keeps.stable {p : Program Op Ans α} {s : σ} {Q : α → σ → Prop} (h : Keeps R r p s Q) :
    Keeps R r p s fun a s' => ∀ s'', R.rely s' s'' → R.inv s'' → Q a s'' := by
  induction p generalizing s with
  | done a => exact fun s' hrely _ s'' hrely' hinv => h s'' (R.trans _ _ _ hrely hrely') hinv
  | perform o k ih =>
    intro s' hrely hinv
    obtain ⟨hmay, hrest⟩ := h s' hrely hinv
    exact ⟨hmay, fun i hlegal => ih _ (hrest i hlegal)⟩

/-- A transitive relation that covers what the others do and every operation
holds from the start to the end. -/
theorem Keeps.track {T : σ → σ → Prop} (hrely : ∀ s s', R.rely s s' → T s s')
    (hexec : ∀ s o i, T s (M.exec s o i).2) (htrans : ∀ s s' s'', T s s' → T s' s'' → T s s'')
    {p : Program Op Ans α} {s₀ s : σ} {Q : α → σ → Prop} (hT : T s₀ s) (h : Keeps R r p s Q) :
    Keeps R r p s fun a s' => T s₀ s' ∧ Q a s' := by
  induction p generalizing s with
  | done a =>
    intro s' hmove hinv
    exact ⟨htrans _ _ _ hT (hrely _ _ hmove), h s' hmove hinv⟩
  | perform o k ih =>
    intro s' hmove hinv
    obtain ⟨hmay, hrest⟩ := h s' hmove hinv
    refine ⟨hmay, ?_⟩
    intro i hlegal
    exact ih _ (htrans _ _ _ (htrans _ _ _ hT (hrely _ _ hmove)) (hexec s' o i))
      (hrest i hlegal)

/-- A program and then another. -/
theorem Keeps.bind {p : Program Op Ans α} {f : α → Program Op Ans β} {s : σ} {Q : β → σ → Prop}
    (h : Keeps R r p s fun a s' => Keeps R r (f a) s' Q) : Keeps R r (p >>= f) s Q := by
  show Keeps R r (p.bind f) s Q
  induction p generalizing s with
  | done a => exact keeps_of_rely h
  | perform o k ih =>
    intro s' hrely hinv
    obtain ⟨hmay, hrest⟩ := h s' hrely hinv
    exact ⟨hmay, fun i hlegal => ih _ (hrest i hlegal)⟩

/-! ### Programs that end in an error or a value -/

/-- The program performs what it may, and a value that it ends with meets
`Q`. Of an error nothing is asked. -/
def Ensures (R : Rules M ρ) (r : ρ) (p : ExceptT ε (Program Op Ans) α) (s : σ)
    (Q : α → σ → Prop) : Prop :=
  Keeps R r p.run s fun x s' => ∀ a, x = .ok a → Q a s'

theorem ensures_value {a : α} {s : σ} {Q : α → σ → Prop}
    (h : ∀ s', R.rely s s' → R.inv s' → Q a s') :
    Ensures R r (Program.done (.ok a) : ExceptT ε (Program Op Ans) α) s Q := by
  intro s' hrely hinv x hx
  cases hx
  exact h s' hrely hinv

theorem ensures_error {e : ε} {s : σ} {Q : α → σ → Prop} :
    Ensures R r (Program.done (.error e) : ExceptT ε (Program Op Ans) α) s Q := by
  intro s' _ _ x hx
  cases hx

/-- One operation, and what follows its answer. -/
theorem ensures_perform {o : Op} {k : Ans o → Program Op Ans (Except ε α)} {s : σ}
    {Q : α → σ → Prop}
    (h : ∀ s', R.rely s s' → R.inv s' → R.may r s' o ∧
      ∀ i, R.legal r s' o i →
        Ensures R r (k (M.exec s' o i).1 : ExceptT ε (Program Op Ans) α) (M.exec s' o i).2 Q) :
    Ensures R r (Program.perform o k : ExceptT ε (Program Op Ans) α) s Q := h

theorem Ensures.later {p : ExceptT ε (Program Op Ans) α} {s s' : σ} {Q : α → σ → Prop}
    (h : Ensures R r p s Q) (hrely : R.rely s s') : Ensures R r p s' Q :=
  Keeps.later h hrely

theorem Ensures.bind {p : ExceptT ε (Program Op Ans) α}
    {f : α → ExceptT ε (Program Op Ans) β} {s : σ} {Q : β → σ → Prop}
    (h : Ensures R r p s fun a s' => Ensures R r (f a) s' Q) : Ensures R r (p >>= f) s Q := by
  refine Keeps.bind (f := ExceptT.bindCont f) ?_
  refine Keeps.imp h ?_
  intro x s' hx
  cases x with
  | error e => exact ensures_error
  | ok a => exact hx a rfl

/-- A program and then another, with what holds from the start of the first
to its end. -/
theorem Ensures.andThen {T : σ → σ → Prop} (hrely : ∀ s s', R.rely s s' → T s s')
    (hexec : ∀ s o i, T s (M.exec s o i).2) (hrefl : ∀ s, T s s)
    (htrans : ∀ s s' s'', T s s' → T s' s'' → T s s'')
    {p : ExceptT ε (Program Op Ans) α} {f : α → ExceptT ε (Program Op Ans) β} {s : σ}
    {Q₀ : α → σ → Prop} {Q : β → σ → Prop} (h : Ensures R r p s Q₀)
    (hf : ∀ a s', T s s' → Q₀ a s' → Ensures R r (f a) s' Q) : Ensures R r (p >>= f) s Q := by
  refine Ensures.bind (Keeps.imp (Keeps.track hrely hexec htrans (hrefl s) h) ?_)
  intro x s' hx a ha
  exact hf a s' hx.1 (hx.2 a ha)

theorem Ensures.map {p : ExceptT ε (Program Op Ans) α} {f : α → β} {s : σ}
    {Q : β → σ → Prop} (h : Ensures R r p s fun a s' => Q (f a) s') :
    Ensures R r (f <$> p) s Q := by
  refine Keeps.bind (Keeps.imp h.stable ?_)
  intro x s' hx
  cases x with
  | error e => exact ensures_error
  | ok a => exact ensures_value fun s'' hrely hinv => hx s'' hrely hinv a rfl

/-! ### A run alone -/

/-- A program that keeps to the rules ends with a value that meets `Q`, and
has performed only what it may. -/
theorem solo_keeps {env : ω → (o : Op) → M.In o × ω} {p : Program Op Ans α} {w : ω} {s : σ}
    {Q : α → σ → Prop} (hrefl : ∀ s, R.guar s s)
    (htrans : ∀ s s' s'', R.guar s s' → R.guar s' s'' → R.guar s s'')
    (hlegal : ∀ w s o, R.legal r s o (env w o).1) (hinv : R.inv s) (h : Keeps R r p s Q) :
    Q (solo M env p w s).value (solo M env p w s).state ∧ R.inv (solo M env p w s).state ∧
      R.guar s (solo M env p w s).state ∧ ∀ e ∈ (solo M env p w s).trace, R.may r e.1 e.2 := by
  induction p generalizing w s with
  | done a => exact ⟨h s (R.refl s) hinv, hinv, hrefl s, by simp [solo]⟩
  | perform o k ih =>
    obtain ⟨hmay, hrest⟩ := h s (R.refl s) hinv
    obtain ⟨hinv', hguar⟩ := R.sound r s o _ hinv hmay (hlegal w s o)
    obtain ⟨hQ, hend, hguar', htrace⟩ := ih _ (w := (env w o).2) hinv' (hrest _ (hlegal w s o))
    refine ⟨hQ, hend, htrans _ _ _ hguar hguar', ?_⟩
    intro e he
    rcases List.mem_cons.mp he with rfl | he
    · exact hmay
    · exact htrace e he

/-- Two runs alone from states that agree give the same answer, when every
operation that the program may perform does. -/
theorem solo_agree {env : ω → (o : Op) → M.In o × ω} {p : Program Op Ans α} {w : ω} {s t : σ}
    {Q : α → σ → Prop} {A : σ → σ → Prop}
    (hexec : ∀ s t o i, A s t → R.inv s → R.may r s o → R.legal r s o i →
      (M.exec s o i).1 = (M.exec t o i).1 ∧ A (M.exec s o i).2 (M.exec t o i).2)
    (hlegal : ∀ w s o, R.legal r s o (env w o).1) (hinv : R.inv s) (h : Keeps R r p s Q)
    (hA : A s t) :
    (solo M env p w s).value = (solo M env p w t).value ∧
      (solo M env p w s).world = (solo M env p w t).world ∧
      A (solo M env p w s).state (solo M env p w t).state := by
  induction p generalizing w s t with
  | done a => exact ⟨rfl, rfl, hA⟩
  | perform o k ih =>
    obtain ⟨hmay, hrest⟩ := h s (R.refl s) hinv
    obtain ⟨hinv', -⟩ := R.sound r s o _ hinv hmay (hlegal w s o)
    obtain ⟨hanswer, hA'⟩ := hexec s t o (env w o).1 hA hinv hmay (hlegal w s o)
    have hsame := ih _ (w := (env w o).2) hinv' (hrest _ (hlegal w s o)) hA'
    rw [hanswer] at hsame
    simp only [solo]
    rw [hanswer]
    exact hsame

/-! ### The result of a run alone -/

/-- The end of a run alone, without its trace. -/
def result (M : Machine σ Op Ans) (env : ω → (o : Op) → M.In o × ω) (p : Program Op Ans α) (w : ω)
    (s : σ) : α × ω × σ :=
  let out := solo M env p w s
  (out.value, out.world, out.state)

section
variable {env : ω → (o : Op) → M.In o × ω}

/-- A program and then another. -/
theorem result_bind (p : Program Op Ans α) (f : α → Program Op Ans β) (w : ω) (s : σ) :
    result M env (p >>= f) w s =
      match result M env p w s with
      | (a, w', s') => result M env (f a) w' s' := by
  show result M env (p.bind f) w s = _
  induction p generalizing w s with
  | done a => rfl
  | perform o k ih => exact ih (M.exec s o (env w o).1).1 (env w o).2 (M.exec s o (env w o).1).2

/-- The same for programs that end in an error or a value: an error ends the
run. -/
theorem result_bind_run (p : ExceptT ε (Program Op Ans) α)
    (f : α → ExceptT ε (Program Op Ans) β) (w : ω) (s : σ) :
    result M env (p >>= f).run w s =
      match result M env p.run w s with
      | (.ok a, w', s') => result M env (f a).run w' s'
      | (.error e, w', s') => (.error e, w', s') := by
  refine (result_bind p.run (ExceptT.bindCont f) w s).trans ?_
  obtain ⟨x, w', s'⟩ := result M env p.run w s
  cases x with
  | ok a => rfl
  | error e => rfl

/-- The same for a program whose value is mapped. -/
theorem result_map_run (p : ExceptT ε (Program Op Ans) α) (f : α → β) (w : ω) (s : σ) :
    result M env (f <$> p).run w s =
      match result M env p.run w s with
      | (x, w', s') => (x.map f, w', s') := by
  refine (result_bind p.run _ w s).trans ?_
  obtain ⟨x, w', s'⟩ := result M env p.run w s
  cases x with
  | ok a => rfl
  | error e => rfl

end

/-! ### A run together -/

variable {handler : ρ → Program Op Ans α} {Q : ρ → α → σ → Prop} {D : ρ → Prop}
  {s s' : Sys σ ρ Op Ans α} {a : Action M ρ} {as : List (Action M ρ)}

/-- The request is one of `D`, or the input is legal for the operation at
hand. -/
def Allowed (R : Rules M ρ) (D : ρ → Prop) (s : Sys σ ρ Op Ans α) : Action M ρ → Prop
  | .spawn r => D r
  | .advance i input => ∀ r o k, s.jobs[i]? = some ⟨r, .perform o k⟩ →
      R.legal r s.state o (input o)

/-- The state meets the invariant and every job keeps to the rules. -/
structure Good (R : Rules M ρ) (Q : ρ → α → σ → Prop) (s : Sys σ ρ Op Ans α) : Prop where
  inv : R.inv s.state
  keeps : ∀ job ∈ s.jobs, Keeps R job.request job.rest s.state (Q job.request)

/-- What programs together need: what each guarantees is what the others rely
on, and every handler keeps to the rules. -/
structure Together (R : Rules M ρ) (handler : ρ → Program Op Ans α) (D : ρ → Prop)
    (Q : ρ → α → σ → Prop) : Prop where
  rely : ∀ s s', R.guar s s' → R.rely s s'
  handler : ∀ r s, D r → R.inv s → Keeps R r (handler r) s (Q r)

theorem good_init (t : σ) (hinv : R.inv t) :
    Good R Q (Sys.init t : Sys σ ρ Op Ans α) where
  inv := hinv
  keeps job hjob := by simp [Sys.init] at hjob

/-- The operation that a step performs is one that its job may perform. -/
theorem Good.may {r : ρ} {o : Op} {k : Ans o → Program Op Ans α} {i : Nat} (hs : Good R Q s)
    (hjob : s.jobs[i]? = some ⟨r, .perform o k⟩) : R.may r s.state o :=
  (hs.keeps _ (List.mem_of_getElem? hjob) s.state (R.refl _) hs.inv).1

/-- A step keeps a good state good, and changes the state as guaranteed. -/
theorem good_next (hT : Together R handler D Q) (hs : Good R Q s) (ha : Allowed R D s a)
    (h : next M handler s a = some s') :
    Good R Q s' ∧ (s'.state = s.state ∨ R.guar s.state s'.state) := by
  rcases next_cases h with ⟨r, rfl, rfl⟩ | ⟨i, input, r, o, k, rfl, hjob, rfl⟩
  · refine ⟨⟨hs.inv, ?_⟩, Or.inl rfl⟩
    intro job hmem
    rcases List.mem_append.mp hmem with hmem | hmem
    · exact hs.keeps job hmem
    · rw [List.mem_singleton.mp hmem]
      exact hT.handler r s.state ha hs.inv
  · have hlegal := ha r o k hjob
    have hkeeps := hs.keeps _ (List.mem_of_getElem? hjob)
    obtain ⟨hmay, hrest⟩ := hkeeps s.state (R.refl _) hs.inv
    obtain ⟨hinv, hguar⟩ := R.sound r s.state o (input o) hs.inv hmay hlegal
    refine ⟨⟨hinv, ?_⟩, Or.inr hguar⟩
    intro job hmem
    -- The job that moved goes on, and the others saw a change they rely on.
    rcases List.mem_or_eq_of_mem_set hmem with hmem | rfl
    · exact (hs.keeps job hmem).later (hT.rely _ _ hguar)
    · exact hrest _ hlegal

/-- A run keeps a good state good. -/
theorem good_run (hT : Together R handler D Q) (hs : Good R Q s)
    (hC : Along (next M handler) (Allowed R D) s as) (h : run (next M handler) s as = some s') :
    Good R Q s' ∧ R.rely s.state s'.state := by
  have hrun := Transition.run_invariant
    (P := fun x => Good R Q x ∧ R.rely s.state x.state) (C := Allowed R D) ?_
    ⟨hs, R.refl _⟩ hC h
  · exact hrun
  · intro x a y hx ha hnext
    obtain ⟨hgood, hrely⟩ := hx
    obtain ⟨hgood', heq | hguar⟩ := good_next hT hgood ha hnext
    · exact ⟨hgood', heq ▸ hrely⟩
    · exact ⟨hgood', R.trans _ _ _ hrely (hT.rely _ _ hguar)⟩

end Concurrent
