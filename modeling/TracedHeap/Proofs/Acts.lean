import TracedHeap.Roots.World

/-! # What native code does to the world

The laws by which a piece of native code is run on a world: one for each way to put
code together, and one for each change of the root set.

1. **Borrow cells**: a change succeeds if no guard is alive and the change itself
   succeeds, and gives its guard back (`BorrowCell.mutate_eq_ok_iff`).
2. **Root sets**: when each change succeeds, and what it leaves.
3. **Code**: `Act.runOn` and its laws.  A change of the root set that fails logs its
   fault and leaves the root set alone (`Act.runOn_change`).
-/

namespace TracedHeap

/-! ## Borrow cells -/

namespace BorrowCell

variable {α β : Type}

theorem inspect_idle {c : BorrowCell α} (h : c.borrow = .idle) (f : α → β) :
    c.inspect f = .ok (f c.value) := by
  simp [inspect, share, Borrow.share, h, bind, Except.bind, pure, Except.pure]

/-- A change through a unique guard succeeds exactly if nobody else holds a guard and
the change itself succeeds.  The guard is given back. -/
theorem mutate_eq_ok_iff {c d : BorrowCell α} {f : α → Except Fault α} :
    c.mutate f = .ok d ↔ c.borrow = .idle ∧ ∃ a, f c.value = .ok a ∧ d = .new a := by
  -- only an idle cell hands out its unique guard
  cases hb : c.borrow with
  | idle =>
    simp only [mutate, seize, Borrow.seize, hb, bind, Except.bind, pure, Except.pure]
    cases f c.value with
    | error fault => simp
    | ok a => simp [write, release, Borrow.release, new, eq_comm]
  | shared more => simp [mutate, seize, Borrow.seize, hb, bind, Except.bind]
  | unique => simp [mutate, seize, Borrow.seize, hb, bind, Except.bind]

/-- The same for a cell that is a part of something larger. -/
theorem mutate_part_eq_ok_iff {c : BorrowCell α} {f : α → Except Fault α}
    (whole : BorrowCell α → β) {after : β} :
    (c.mutate f >>= fun d => pure (whole d)) = .ok after ↔
      c.borrow = .idle ∧ ∃ a, f c.value = .ok a ∧ after = whole (.new a) := by
  simp only [except_bind_eq_ok_iff, mutate_eq_ok_iff, pure, Except.pure, Except.ok.injEq]
  constructor
  · rintro ⟨_, ⟨hidle, a, ha, rfl⟩, rfl⟩
    exact ⟨hidle, a, ha, rfl⟩
  · rintro ⟨hidle, a, ha, rfl⟩
    exact ⟨_, ⟨hidle, a, ha, rfl⟩, rfl⟩

end BorrowCell

/-! ## Changes of a root set -/

namespace RootSet

variable {D : Type} {r r' : RootSet D} {descriptor : D} {data : Address}

theorem push_eq_ok_iff :
    r.push descriptor data = .ok r' ↔
      r.locals.borrow = .idle ∧
        ∃ s, r.locals.value.push descriptor data = .ok s ∧ r' = { r with locals := .new s } := by
  unfold push
  exact BorrowCell.mutate_part_eq_ok_iff _

theorem popTo_eq_ok_iff {m : StackMark} :
    r.popTo m = .ok r' ↔
      r.locals.borrow = .idle ∧
        ∃ s, r.locals.value.popTo m = .ok s ∧ r' = { r with locals := .new s } := by
  unfold popTo
  exact BorrowCell.mutate_part_eq_ok_iff _

theorem register_eq_ok_iff [BEq D] :
    r.register data descriptor = .ok r' ↔
      r.persistents.borrow = .idle ∧
        ∃ pool, r.persistents.value.add data descriptor = .ok pool ∧
          r' = { r with persistents := .new pool } := by
  unfold register
  exact BorrowCell.mutate_part_eq_ok_iff _

theorem unregister_eq_ok_iff :
    r.unregister data = .ok r' ↔
      r.persistents.borrow = .idle ∧
        ∃ pool, r.persistents.value.remove data = .ok pool ∧
          r' = { r with persistents := .new pool } := by
  unfold unregister
  exact BorrowCell.mutate_part_eq_ok_iff _

end RootSet

/-! ## Running code -/

namespace Act

variable {σ D ω α β : Type}

/-- The outcome of a piece of code, and the world that it leaves behind. -/
def runOn (act : Act σ D ω α) (w : World σ D ω) : Except Fault α × World σ D ω := act.run.run w

@[simp] theorem runOn_pure (a : α) (w : World σ D ω) :
    (pure a : Act σ D ω α).runOn w = (.ok a, w) := rfl

@[simp] theorem runOn_throw (fault : Fault) (w : World σ D ω) :
    (throw fault : Act σ D ω α).runOn w = (.error fault, w) := rfl

/-- What follows on some code is run on the world that it leaves behind, unless it
failed. -/
theorem runOn_bind (act : Act σ D ω α) (f : α → Act σ D ω β) (w : World σ D ω) :
    (act >>= f).runOn w =
      match act.runOn w with
      | (.ok a, w') => (f a).runOn w'
      | (.error fault, w') => (.error fault, w') := by
  have hrun : (act >>= f).runOn w =
      match act w with
      | (outcome, w') => ExceptT.bindCont f outcome w' := rfl
  have hact : act.runOn w = act w := rfl
  rw [hrun, hact]
  rcases act w with ⟨fault | a, w'⟩
  · rfl
  · rfl

theorem runOn_bind_ok {act : Act σ D ω α} {f : α → Act σ D ω β} {w w' : World σ D ω} {a : α}
    (h : act.runOn w = (.ok a, w')) : (act >>= f).runOn w = (f a).runOn w' := by
  rw [runOn_bind, h]

theorem runOn_bind_error {act : Act σ D ω α} {f : α → Act σ D ω β} {w w' : World σ D ω}
    {fault : Fault} (h : act.runOn w = (.error fault, w')) :
    (act >>= f).runOn w = (.error fault, w') := by
  rw [runOn_bind, h]

@[simp] theorem runOn_get (w : World σ D ω) :
    (get : Act σ D ω (World σ D ω)).runOn w = (.ok w, w) := rfl

@[simp] theorem runOn_modify (f : World σ D ω → World σ D ω) (w : World σ D ω) :
    (modify f : Act σ D ω Unit).runOn w = (.ok (), f w) := rfl

@[simp] theorem runOn_attempt (act : Act σ D ω α) (w : World σ D ω) :
    (attempt act).runOn w = (.ok (act.runOn w).1, (act.runOn w).2) := rfl

@[simp] theorem runOn_write (lines : List LogLine) (w : World σ D ω) :
    (write lines : Act σ D ω Unit).runOn w = (.ok (), { w with log := w.log ++ lines }) := rfl

@[simp] theorem runOn_raise (fault : Fault) (w : World σ D ω) :
    (raise fault : Act σ D ω α).runOn w =
      (.error fault, { w with log := w.log ++ fault.lines }) := rfl

@[simp] theorem runOn_onCollector (act : σ → α × σ) (w : World σ D ω) :
    (onCollector act : Act σ D ω α).runOn w =
      (.ok (act w.collector).1, { w with collector := (act w.collector).2 }) := rfl

/-- A question to the root set is answered, or its fault logged. -/
theorem runOn_ask (question : RootSet D → Except Fault α) (w : World σ D ω) :
    (ask question).runOn w =
      match question w.roots with
      | .ok a => (.ok a, w)
      | .error fault => (.error fault, { w with log := w.log ++ fault.lines }) := by
  show (demand (question w.roots)).runOn w = _
  cases question w.roots <;> rfl

/-- A change of the root set is made, or its fault logged. -/
theorem runOn_change (act : RootSet D → Except Fault (RootSet D)) (w : World σ D ω) :
    (change act).runOn w =
      match act w.roots with
      | .ok roots => (.ok (), { w with roots })
      | .error fault => (.error fault, { w with log := w.log ++ fault.lines }) := by
  unfold change
  rw [runOn_bind, runOn_ask]
  cases act w.roots <;> rfl

/-- Work that is done on every way out is done on the world that the code leaves
behind. -/
theorem runOn_ensuring (act : Act σ D ω α) (work : Act σ D ω Unit) (w : World σ D ω) :
    (ensuring act work).runOn w =
      match work.runOn (act.runOn w).2 with
      | (.ok (), w') => ((act.runOn w).1, w')
      | (.error fault, w') => (.error fault, w') := by
  unfold ensuring
  rw [runOn_bind, runOn_attempt]
  simp only [runOn_bind]
  cases hwork : work.runOn (act.runOn w).2 with
  | mk outcome w' =>
    -- a fault of the work hides what has become of the code
    cases outcome with
    | error fault => rfl
    | ok _ => cases (act.runOn w).1 <;> rfl

end Act

end TracedHeap
