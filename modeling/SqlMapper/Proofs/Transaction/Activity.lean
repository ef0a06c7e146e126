import SqlMapper.Proofs.Transaction.Database

/-!
# SqlMapper.Proofs.Transaction.Activity

What can be done with a session.

* `Call`, `Operation`: a single call on the driver, or on the session.
* `Activity`: operations and atomic parts in a row, nested in each other. What is done next can
  depend on all outcomes so far, so a failure can be passed on, inspected or ignored.
* `Activity.passes`: the sessions that an activity comes through between its operations, also
  inside its atomic parts.
* `Course`: how sessions go on under all operations of some kind, and so under all activities made
  of them (`Course.passes`).
-/

namespace SqlMapper

/-- A call on a driver, by what it brings back. -/
inductive Call : Type → Type
  | query (sql : String) (params : List Value) : Call (List Row)
  | queryOne (sql : String) (params : List Value) : Call (Option Row)
  | execute (sql : String) (params : List Value) : Call Int
  | insert (sql : String) (params : List Value) : Call Int
  | ping : Call Unit

namespace Call

variable {α σ : Type}

def sql : Call α → String
  | query sql _ | queryOne sql _ | execute sql _ | insert sql _ => sql
  | ping => ""

/-- The call is no transaction control. -/
def Plain (c : Call α) : Prop := Control.ofSql? c.sql = none

def run (D : Driver σ) : Call α → σ → Outcome α × σ
  | query sql params => D.query sql params
  | queryOne sql params => D.queryOne sql params
  | execute sql params => D.execute sql params
  | insert sql params => D.insert sql params
  | ping => D.ping

end Call

inductive Operation : Type → Type 1
  | call {α : Type} (c : Call α) : Operation α
  | begin : Operation Unit
  | commit : Operation Unit
  | rollback : Operation Unit
  | start : Operation TransactionScope
  | finish (how : Finish) (scope : TransactionScope) : Operation Unit
  /-- A scope is let go while it is open. -/
  | drop : Operation Unit
  /-- How many levels are open, and whether the session is broken. -/
  | look : Operation (Nat × Bool)

namespace Operation

variable {α σ : Type}

def run (D : Driver σ) : Operation α → Session σ → Outcome α × Session σ
  | call c, s =>
    let (r, connection) := c.run D s.connection
    (r, { s with connection })
  | begin, s => s.begin D
  | commit, s => s.commit D
  | rollback, s => s.rollback D
  | start, s => TransactionScope.start D s
  | finish how scope, s => scope.finish D how s
  | drop, s => (.ok (), TransactionScope.drop s)
  | look, s => (.ok (s.depth, s.broken), s)

/-- Statements that the operation sends by itself are no transaction control. -/
def Plain : Operation α → Prop
  | call c => c.Plain
  | _ => True

/-- The operation leaves all levels to atomic parts. -/
def Levelless : Operation α → Prop
  | call c => c.Plain
  | look => True
  | _ => False

end Operation

/-! ## Atomic parts -/

namespace Session

variable {α σ : Type} {D : Driver σ}

/-- What an atomic part does when its body is over, if it began with `outer` levels open. -/
def conclude (D : Driver σ) (outer : Nat) (r : Outcome α) (t : Session σ) : Outcome α × Session σ :=
  match r with
  | .error f => (.error f, t.rollbackOrBreak D)
  | .ok a =>
    match t.commit D with
    | (.ok (), t) =>
      if t.depth = outer then (.ok a, t)
      else (refuse (.closedAtDepth t.depth outer), t.markBroken)
    | (.error (.panicked text), t) => (.error (.panicked text), t.markBroken)
    | (.error f, t) => (.error f, t.rollbackOrBreak D)

theorem atomic_of_begun {body : Session σ → Outcome α × Session σ} {s t : Session σ}
    (h : s.begin D = (.ok (), t)) :
    s.atomic D body = conclude D s.depth (body t).1 (body t).2 := by
  unfold atomic conclude
  simp only [h]
  rcases body t with ⟨_ | _, u⟩ <;> rfl

theorem atomic_of_refused {body : Session σ → Outcome α × Session σ} {s t : Session σ} {f : Failure}
    (h : s.begin D = (.error f, t)) : s.atomic D body = (.error f, t) := by
  unfold atomic
  rw [h]

/-- What an atomic part comes through if its body comes through `passes`. -/
def inside (D : Driver σ) (passes : Session σ → List (Session σ)) (s : Session σ) :
    List (Session σ) :=
  match s.begin D with
  | (.ok (), t) => passes t
  | (.error _, _) => []

theorem inside_of_begun {passes : Session σ → List (Session σ)} {s t : Session σ}
    (h : s.begin D = (.ok (), t)) : s.inside D passes = passes t := by
  unfold inside
  rw [h]

theorem inside_of_refused {passes : Session σ → List (Session σ)} {s t : Session σ} {f : Failure}
    (h : s.begin D = (.error f, t)) : s.inside D passes = [] := by
  unfold inside
  rw [h]

end Session

/-! ## Activities -/

inductive Activity : Type → Type 1
  | done {α : Type} (r : Outcome α) : Activity α
  | step {α β : Type} (op : Operation β) (next : Outcome β → Activity α) : Activity α
  | atomic {α β : Type} (body : Activity β) (next : Outcome β → Activity α) : Activity α

namespace Activity

variable {σ : Type}

def run (D : Driver σ) : {α : Type} → Activity α → Session σ → Outcome α × Session σ
  | _, done r, s => (r, s)
  | _, step op next, s => (next (op.run D s).1).run D (op.run D s).2
  | _, atomic body next, s =>
    (next (s.atomic D (body.run D)).1).run D (s.atomic D (body.run D)).2

/-- The sessions between operations, in their order, from the first to the last. -/
def passes (D : Driver σ) : {α : Type} → Activity α → Session σ → List (Session σ)
  | _, done _, s => [s]
  | _, step op next, s => s :: (next (op.run D s).1).passes D (op.run D s).2
  | _, atomic body next, s =>
    s :: (s.inside D (body.passes D) ++
      (next (s.atomic D (body.run D)).1).passes D (s.atomic D (body.run D)).2)

/-- All operations of the activity have a property. -/
def All (P : {β : Type} → Operation β → Prop) : {α : Type} → Activity α → Prop
  | _, done _ => True
  | _, step op next => P op ∧ ∀ r, (next r).All P
  | _, atomic body next => body.All P ∧ ∀ r, (next r).All P

/-- Transaction control is left to the session. -/
def Plain {α : Type} (a : Activity α) : Prop := a.All Operation.Plain

/-- Plain calls and atomic parts only. -/
def Structured {α : Type} (a : Activity α) : Prop := a.All Operation.Levelless

end Activity

/-! ## Courses -/

variable {α σ : Type} {D : Driver σ} {I : Session σ → Prop} {R : Session σ → Session σ → Prop}

/-- A way from `s` to `t` by way of `passes`: all of them have a property, and each is related to
each that comes later. -/
structure Stretch (I : Session σ → Prop) (R : Session σ → Session σ → Prop)
    (passes : List (Session σ)) (s t : Session σ) : Prop where
  invariant : ∀ u ∈ passes, I u
  arrives : I t
  related : passes.Pairwise R
  fromStart : ∀ u ∈ passes, R s u
  toEnd : ∀ u ∈ passes, R u t
  across : R s t

/-- Operations of one kind keep a property and a relation to what was before, and so do atomic parts
made of them. -/
structure Course (D : Driver σ) (P : {β : Type} → Operation β → Prop) (I : Session σ → Prop)
    (R : Session σ → Session σ → Prop) : Prop where
  refl : ∀ s, R s s
  trans : ∀ {s t u}, R s t → R t u → R s u
  operation : ∀ {β : Type} {op : Operation β} {s}, P op → I s →
    I (op.run D s).2 ∧ R s (op.run D s).2
  begun : ∀ {s}, I s → I (s.begin D).2 ∧ R s (s.begin D).2
  concluded : ∀ {β : Type} {body : Activity β} {s t}, I s → s.begin D = (.ok (), t) →
    body.All P → I (body.run D t).2 →
      I (Session.conclude D s.depth (body.run D t).1 (body.run D t).2).2 ∧
      R (body.run D t).2 (Session.conclude D s.depth (body.run D t).1 (body.run D t).2).2

namespace Course

variable {P : {β : Type} → Operation β → Prop} {l l' : List (Session σ)} {s t u : Session σ}

theorem cons (C : Course D P I R) (hs : I s) (h : Stretch I R l s t) :
    Stretch I R (s :: l) s t where
  invariant := List.forall_mem_cons.2 ⟨hs, h.invariant⟩
  arrives := h.arrives
  related := List.pairwise_cons.2 ⟨h.fromStart, h.related⟩
  fromStart := List.forall_mem_cons.2 ⟨C.refl s, h.fromStart⟩
  toEnd := List.forall_mem_cons.2 ⟨h.across, h.toEnd⟩
  across := h.across

theorem append (C : Course D P I R) (h : Stretch I R l s t) (h' : Stretch I R l' t u) :
    Stretch I R (l ++ l') s u where
  invariant := List.forall_mem_append.2 ⟨h.invariant, h'.invariant⟩
  arrives := h'.arrives
  related := List.pairwise_append.2 ⟨h.related, h'.related,
    fun _ hv _ hw => C.trans (h.toEnd _ hv) (h'.fromStart _ hw)⟩
  fromStart := List.forall_mem_append.2
    ⟨h.fromStart, fun _ hv => C.trans h.across (h'.fromStart _ hv)⟩
  toEnd := List.forall_mem_append.2 ⟨fun _ hv => C.trans (h.toEnd _ hv) h'.across, h'.toEnd⟩
  across := C.trans h.across h'.across

/-- A way on which nothing is passed. -/
theorem direct (ht : I t) (h : R s t) : Stretch I R [] s t where
  invariant := List.forall_mem_nil _
  arrives := ht
  related := .nil
  fromStart := List.forall_mem_nil _
  toEnd := List.forall_mem_nil _
  across := h

theorem atomic (C : Course D P I R) {β : Type} {body : Activity β} (hP : body.All P) (hs : I s)
    (ih : ∀ t, I t → Stretch I R (body.passes D t) t (body.run D t).2) :
    Stretch I R (s.inside D (body.passes D)) s (s.atomic D (body.run D)).2 := by
  have hbegun := C.begun hs
  rcases hbegin : s.begin D with ⟨_ | _, t⟩
  · rw [hbegin] at hbegun
    rw [Session.inside_of_refused hbegin, Session.atomic_of_refused hbegin]
    exact direct hbegun.1 hbegun.2
  · rw [hbegin] at hbegun
    rw [Session.inside_of_begun hbegin, Session.atomic_of_begun hbegin]
    have hbody := ih t hbegun.1
    have hend := C.concluded hs hbegin hP hbody.arrives
    have hout := C.append hbody (direct hend.1 hend.2)
    rw [List.append_nil] at hout
    exact C.append (direct hbegun.1 hbegun.2) hout

/-- What each operation keeps, an activity keeps all along. -/
theorem passes (C : Course D P I R) (a : Activity α) (hP : a.All P) (s : Session σ) (hs : I s) :
    Stretch I R (a.passes D s) s (a.run D s).2 := by
  induction a generalizing s with
  | done r => exact C.cons hs (direct hs (C.refl s))
  | step op next ih =>
    have hop := C.operation hP.1 hs
    exact C.cons hs (C.append (direct hop.1 hop.2) (ih _ (hP.2 _) _ hop.1))
  | atomic body next ihbody ih =>
    have hpart := C.atomic hP.1 hs (ihbody hP.1)
    exact C.cons hs (C.append hpart (ih _ (hP.2 _) _ hpart.arrives))

end Course

end SqlMapper
