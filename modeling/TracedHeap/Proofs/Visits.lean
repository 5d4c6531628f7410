import TracedHeap.Proofs.BorrowGuards
import TracedHeap.Proofs.NativeCode
import TracedHeap.Proofs.PoolHistory

/-! # Visits of a root set that is changed meanwhile

A visitor is native code that may do anything with the root set that it is shown: it may
try to change it, visit it again, and fail.  What it can do depends on the visits that are
active just then, each of which looks at one part of the root set.

1. **Borrows** count the visits that look at a part (`Borrow.lentTo`).
2. **Parts** that are lent out and taken back.
3. **Changes**: one of a part that is lent out is refused, any other comes to the same as
   outside a visit.
4. **What a visit shows**: the roots of each part as they were when it was lent out.
5. **Runs**: all this holds of all that happens while native code runs (`Code.run_proper`).

The main statement is `visits_of_changing_roots`.
-/

namespace TracedHeap

variable {σ D V ω : Type}

/-- Whether a fault is that of a borrow that was refused. -/
def Fault.ofBorrow : Fault → Bool
  | .alreadyBorrowed | .alreadyMutablyBorrowed => true
  | _ => false

/-! ## Borrows -/

namespace BorrowCell

variable {α β : Type} {c : BorrowCell α}

theorem inspect_lentTo {n : Nat} (h : c.borrow = .lentTo n) (f : α → β) :
    c.inspect f = .ok (f c.value) := by
  simp only [inspect, share, h, Borrow.share_lentTo]
  rfl

/-- A change of a cell that nobody has borrowed, as a part of something larger. -/
theorem mutate_part_idle (h : c.borrow = .idle) (f : α → Except Fault α)
    (whole : BorrowCell α → β) :
    (c.mutate f >>= fun d => pure (whole d)) = (f c.value).map fun a => whole (.new a) := by
  simp only [mutate, seize, Borrow.seize, h, bind, Except.bind, pure, Except.pure]
  cases f c.value <;> rfl

theorem mutate_part_busy (h : c.borrow ≠ .idle) (f : α → Except Fault α)
    (whole : BorrowCell α → β) :
    (c.mutate f >>= fun d => pure (whole d)) = .error .alreadyBorrowed := by
  cases hb : c.borrow with
  | idle => exact absurd hb h
  | shared more => simp [mutate, seize, Borrow.seize, hb, bind, Except.bind]
  | unique => simp [mutate, seize, Borrow.seize, hb, bind, Except.bind]

end BorrowCell

/-! ## Parts -/

namespace RootPart

/-- The root set in which a part has this borrow. -/
def withBorrow (b : Borrow) : RootPart → RootSet D → RootSet D
  | .locals, r => { r with locals := { r.locals with borrow := b } }
  | .persistents, r => { r with persistents := { r.persistents with borrow := b } }

theorem borrow_withBorrow (part other : RootPart) (b : Borrow) (r : RootSet D) :
    other.borrow (part.withBorrow b r) = if part = other then b else other.borrow r := by
  cases part <;> cases other <;> rfl

theorem roots_withBorrow (part other : RootPart) (b : Borrow) (r : RootSet D) :
    other.roots (part.withBorrow b r) = other.roots r := by
  cases part <;> cases other <;> rfl

theorem pool_withBorrow (part : RootPart) (b : Borrow) (r : RootSet D) :
    (part.withBorrow b r).persistents.value = r.persistents.value := by
  cases part <;> rfl

theorem lend_eq (part : RootPart) (r : RootSet D) :
    part.lend r = (part.borrow r).share.map fun b => part.withBorrow b r := by
  cases part with
  | locals =>
    show r.shareLocals = r.locals.borrow.share.map _
    simp only [RootSet.shareLocals, BorrowCell.share]
    cases r.locals.borrow.share <;> rfl
  | persistents =>
    show r.sharePersistents = r.persistents.borrow.share.map _
    simp only [RootSet.sharePersistents, BorrowCell.share]
    cases r.persistents.borrow.share <;> rfl

theorem takeBack_eq (part : RootPart) (r : RootSet D) :
    part.takeBack r = part.withBorrow (part.borrow r).release r := by
  cases part <;> rfl

end RootPart

namespace RootSet

/-- Each part is lent to the visits that look at it. -/
def Lent (active : List RootPart) (r : RootSet D) : Prop :=
  ∀ part : RootPart, part.borrow r = .lentTo (active.count part)

/-- The root set with all its parts given back. -/
def unlent (r : RootSet D) : RootSet D := ⟨.new r.locals.value, .new r.persistents.value⟩

/-- Every question to the root set has an answer, and every part can be visited. -/
structure Open (r : RootSet D) : Prop where
  mark : r.mark = .ok r.locals.value.mark
  height : r.height = .ok r.locals.value.height
  poolSize : r.poolSize = .ok r.persistents.value.size
  refcount : ∀ data, r.refcount data = .ok (r.persistents.value.refcount data)
  checkEmpty : r.checkEmpty = .ok () ∨ ∃ check, r.checkEmpty = .error (.failed check)
  lend : ∀ part : RootPart, ∃ r', part.lend r = .ok r'

variable {active : List RootPart} {r : RootSet D}

theorem lent_empty : (empty : RootSet D).Lent [] := by
  intro part
  cases part <;> rfl

namespace Lent

theorem lend (h : r.Lent active) (part : RootPart) :
    part.lend r = .ok (part.withBorrow (.lentTo (active.count part + 1)) r) := by
  rw [RootPart.lend_eq, h part, Borrow.share_lentTo]
  rfl

theorem lent (h : r.Lent active) (part : RootPart) :
    (part.withBorrow (.lentTo (active.count part + 1)) r).Lent (part :: active) := by
  intro other
  rw [RootPart.borrow_withBorrow]
  by_cases hsame : part = other
  · rw [if_pos hsame, ← hsame, List.count_cons_self]
  · rw [if_neg hsame, List.count_cons_of_ne hsame]
    exact h other

theorem takenBack {part : RootPart} (h : r.Lent (part :: active)) :
    (part.takeBack r).Lent active := by
  intro other
  rw [RootPart.takeBack_eq, RootPart.borrow_withBorrow]
  by_cases hsame : part = other
  · rw [if_pos hsame, h part, List.count_cons_self, Borrow.release_lentTo, hsame]
  · rw [if_neg hsame, h other, List.count_cons_of_ne hsame]

theorem borrow_eq_idle_iff (h : r.Lent active) (part : RootPart) :
    part.borrow r = .idle ↔ part ∉ active := by
  rw [h part, Borrow.lentTo_eq_idle_iff, List.count_eq_zero]

theorem height (h : r.Lent active) : r.height = .ok r.locals.value.height :=
  BorrowCell.inspect_lentTo (h .locals) _

theorem poolSize (h : r.Lent active) : r.poolSize = .ok r.persistents.value.size :=
  BorrowCell.inspect_lentTo (h .persistents) _

theorem checkEmpty (h : r.Lent active) :
    r.checkEmpty = .ok () ∨ ∃ check, r.checkEmpty = .error (.failed check) := by
  unfold RootSet.checkEmpty
  rw [h.height, h.poolSize]
  by_cases hlocals : r.locals.value.height = 0
  · by_cases hpersistents : r.persistents.value.size = 0
    · simp [hlocals, hpersistents, bind, Except.bind, pure, Except.pure]
    · simp [hlocals, hpersistents, bind, Except.bind, throw, throwThe, MonadExceptOf.throw]
  · simp [hlocals, bind, Except.bind, throw, throwThe, MonadExceptOf.throw]

theorem isOpen (h : r.Lent active) : r.Open where
  mark := BorrowCell.inspect_lentTo (h .locals) _
  height := h.height
  poolSize := h.poolSize
  refcount _ := BorrowCell.inspect_lentTo (h .persistents) _
  checkEmpty := h.checkEmpty
  lend part := ⟨_, h.lend part⟩

end Lent

end RootSet

/-- The world with all parts of its root set given back. -/
def World.unlent (w : World σ D ω) : World σ D ω := { w with roots := w.roots.unlent }

/-- The world while some visits are active. -/
structure World.Tidy (active : List RootPart) (w : World σ D ω) : Prop where
  lent : w.roots.Lent active
  sound : w.roots.persistents.value.Sound

namespace World

variable {active : List RootPart} {w : World σ D ω}

theorem tidy_of_empty (h : w.roots = .empty) : w.Tidy [] := by
  constructor
  · rw [h]
    exact RootSet.lent_empty
  · rw [h]
    exact Pool.sound_empty

namespace Tidy

theorem of_roots {w' : World σ D ω} (h : w.Tidy active) (hsame : w'.roots = w.roots) :
    w'.Tidy active := by
  constructor
  · rw [hsame]
    exact h.lent
  · rw [hsame]
    exact h.sound

theorem lend (h : w.Tidy active) (part : RootPart) :
    ∃ roots, part.lend w.roots = .ok roots ∧ part.roots roots = part.roots w.roots ∧
      World.Tidy (part :: active) { w with roots } := by
  refine ⟨_, h.lent.lend part, RootPart.roots_withBorrow _ _ _ _, h.lent.lent part, ?_⟩
  show (part.withBorrow _ w.roots).persistents.value.Sound
  rw [RootPart.pool_withBorrow]
  exact h.sound

theorem takenBack {part : RootPart} (h : w.Tidy (part :: active)) :
    World.Tidy active { w with roots := part.takeBack w.roots } := by
  refine ⟨h.lent.takenBack, ?_⟩
  show (part.takeBack w.roots).persistents.value.Sound
  rw [RootPart.takeBack_eq, RootPart.pool_withBorrow]
  exact h.sound

/-- The persistent roots are visited by ascending addresses, each once. -/
theorem ascending (h : w.Tidy active) :
    (RootPart.persistents.roots w.roots).Pairwise fun a b => compare a.2 b.2 = .lt := by
  show (w.roots.persistents.value.roots).Pairwise _
  rw [Pool.roots, List.pairwise_map]
  exact h.sound.ascending

end Tidy

end World

/-! ## Changes -/

/-- The work goes without borrows of its own. -/
def NeverBorrows {α : Type} (x : Except Fault α) : Prop :=
  ∀ fault, x = .error fault → fault.ofBorrow = false

namespace NeverBorrows

variable {α β : Type}

theorem of_ok (a : α) : NeverBorrows (.ok a) := fun _ h => nomatch h

theorem of_error {fault : Fault} (h : fault.ofBorrow = false) :
    NeverBorrows (.error fault : Except Fault α) := by
  rintro _ ⟨⟩
  exact h

theorem bind {x : Except Fault α} {f : α → Except Fault β} (hx : NeverBorrows x)
    (hf : ∀ a, NeverBorrows (f a)) : NeverBorrows (x >>= f) := by
  cases x with
  | ok a => exact hf a
  | error fault => exact of_error (hx fault rfl)

end NeverBorrows

theorem Word.neverBorrows_add (a b : Nat) : NeverBorrows (Word.add a b) := by
  unfold Word.add
  split
  · exact .of_ok _
  · exact .of_error rfl

namespace ShadowStack

variable {P : Type}

theorem neverBorrows_push (s : ShadowStack D P) (descriptor : D) (data : P) :
    NeverBorrows (s.push descriptor data) :=
  (Word.neverBorrows_add _ _).bind fun _ => .of_ok _

theorem neverBorrows_popTo (s : ShadowStack D P) (m : StackMark) : NeverBorrows (s.popTo m) := by
  unfold popTo
  split
  · exact .of_error rfl
  · split
    · exact .of_ok _
    · exact .of_error rfl

end ShadowStack

namespace Pool

variable {P : Type} [Ord P]

theorem neverBorrows_add [BEq D] (pool : Pool D P) (data : P) (descriptor : D) :
    NeverBorrows (pool.add data descriptor) := by
  unfold add
  split
  · exact .of_ok _
  · split
    · exact (Word.neverBorrows_add _ _).bind fun _ => .of_ok _
    · exact .of_error rfl

theorem neverBorrows_remove (pool : Pool D P) (data : P) : NeverBorrows (pool.remove data) := by
  unfold remove
  split
  · exact .of_error rfl
  · dsimp only
    split
    · exact .of_ok _
    · exact .of_ok _

end Pool

theorem BorrowCell.neverBorrows_mutate_part {α β : Type} {c : BorrowCell α} (h : c.borrow = .idle)
    (f : α → Except Fault α) (whole : BorrowCell α → β) (hf : NeverBorrows (f c.value)) :
    NeverBorrows (c.mutate f >>= fun d => pure (whole d)) := by
  rw [mutate_part_idle h]
  exact hf.bind fun _ => .of_ok _

namespace RootChange

variable [BEq D]

/-- What a change makes of a root set. -/
def apply : RootChange D → RootSet D → Except Fault (RootSet D)
  | .push descriptor data, r => r.push descriptor data
  | .popTo mark, r => r.popTo mark
  | .register data descriptor, r => r.register data descriptor
  | .unregister data, r => r.unregister data

/-- What a change logs when it is made. -/
def lines : RootChange D → RootSet D → List LogLine
  | .push _ _, _ => []
  | .popTo mark, r => [r.locals.value.popLine mark]
  | .register data _, r => [r.persistents.value.addLine data]
  | .unregister data, r => r.persistents.value.removeLines data

variable {c : RootChange D} {r r' : RootSet D} {active : List RootPart} {w : World σ D ω}

theorem runOn_act (c : RootChange D) (w : World σ D ω) :
    (c.act : Act σ D ω Unit).runOn w =
      match c.apply w.roots with
      | .ok roots => (.ok (), { w with roots, log := w.log ++ c.lines w.roots })
      | .error fault => (.error fault, { w with log := w.log ++ fault.lines }) := by
  cases c with
  | push descriptor data =>
    cases h : w.roots.push descriptor data <;>
      simp [act, Act.push, Act.runOn_change, apply, lines, h]
  | popTo mark =>
    cases h : w.roots.popTo mark <;>
      simp [act, Act.popTo, Act.runOn_bind, Act.runOn_change, apply, lines, h]
  | register data descriptor =>
    cases h : w.roots.register data descriptor <;>
      simp [act, Act.register, Act.runOn_bind, Act.runOn_change, apply, lines, h]
  | unregister data =>
    cases h : w.roots.unregister data <;>
      simp [act, Act.unregister, Act.runOn_bind, Act.runOn_change, apply, lines, h]

theorem apply_busy (h : c.part.borrow r ≠ .idle) : c.apply r = .error .alreadyBorrowed := by
  cases c with
  | push | popTo => exact BorrowCell.mutate_part_busy (c := r.locals) h _ _
  | register | unregister => exact BorrowCell.mutate_part_busy (c := r.persistents) h _ _

/-- A change of a part that nobody looks at comes to the same whoever looks at the other
part. -/
theorem apply_unlent (h : c.part.borrow r = .idle) :
    c.apply r.unlent = (c.apply r).map RootSet.unlent := by
  have hlocals (f : ShadowStack D Address → Except Fault (ShadowStack D Address))
      (hidle : r.locals.borrow = .idle) :
      (do return { r.unlent with locals := ← r.unlent.locals.mutate f }) =
        (do return { r with locals := ← r.locals.mutate f } : Except Fault (RootSet D)).map
          RootSet.unlent := by
    rw [BorrowCell.mutate_part_idle hidle, BorrowCell.mutate_part_idle (c := r.unlent.locals) rfl]
    show (f r.locals.value).map _ = _
    cases f r.locals.value <;> rfl
  have hpersistents (f : Pool D Address → Except Fault (Pool D Address))
      (hidle : r.persistents.borrow = .idle) :
      (do return { r.unlent with persistents := ← r.unlent.persistents.mutate f }) =
        (do return { r with persistents := ← r.persistents.mutate f } :
          Except Fault (RootSet D)).map RootSet.unlent := by
    rw [BorrowCell.mutate_part_idle hidle,
      BorrowCell.mutate_part_idle (c := r.unlent.persistents) rfl]
    show (f r.persistents.value).map _ = _
    cases f r.persistents.value <;> rfl
  cases c with
  | push | popTo => exact hlocals _ h
  | register | unregister => exact hpersistents _ h

/-- A change of a part that nobody looks at is not refused. -/
theorem neverBorrows_apply (h : c.part.borrow r = .idle) : NeverBorrows (c.apply r) := by
  cases c with
  | push descriptor data =>
    exact BorrowCell.neverBorrows_mutate_part h _ _ (ShadowStack.neverBorrows_push _ _ _)
  | popTo mark =>
    exact BorrowCell.neverBorrows_mutate_part h _ _ (ShadowStack.neverBorrows_popTo _ _)
  | register data descriptor =>
    exact BorrowCell.neverBorrows_mutate_part h _ _ (Pool.neverBorrows_add _ _ _)
  | unregister data =>
    exact BorrowCell.neverBorrows_mutate_part h _ _ (Pool.neverBorrows_remove _ _)

theorem borrow_of_apply (h : c.apply r = .ok r') (part : RootPart) :
    part.borrow r' = part.borrow r := by
  cases c with
  | push descriptor data =>
    obtain ⟨hidle, s, -, rfl⟩ := RootSet.push_eq_ok_iff.1 h
    cases part with
    | locals => exact hidle.symm
    | persistents => rfl
  | popTo mark =>
    obtain ⟨hidle, s, -, rfl⟩ := RootSet.popTo_eq_ok_iff.1 h
    cases part with
    | locals => exact hidle.symm
    | persistents => rfl
  | register data descriptor =>
    obtain ⟨hidle, pool, -, rfl⟩ := RootSet.register_eq_ok_iff.1 h
    cases part with
    | locals => rfl
    | persistents => exact hidle.symm
  | unregister data =>
    obtain ⟨hidle, pool, -, rfl⟩ := RootSet.unregister_eq_ok_iff.1 h
    cases part with
    | locals => rfl
    | persistents => exact hidle.symm

theorem sound_of_apply (h : c.apply r = .ok r') (hsound : r.persistents.value.Sound) :
    r'.persistents.value.Sound := by
  cases c with
  | push descriptor data =>
    obtain ⟨-, s, -, rfl⟩ := RootSet.push_eq_ok_iff.1 h
    exact hsound
  | popTo mark =>
    obtain ⟨-, s, -, rfl⟩ := RootSet.popTo_eq_ok_iff.1 h
    exact hsound
  | register data descriptor =>
    obtain ⟨-, pool, hadd, rfl⟩ := RootSet.register_eq_ok_iff.1 h
    have hperform := hsound.perform (.add data descriptor)
    rw [Pool.perform, hadd] at hperform
    exact hperform
  | unregister data =>
    obtain ⟨-, pool, hremove, rfl⟩ := RootSet.unregister_eq_ok_iff.1 h
    have hperform := hsound.perform (.remove data)
    rw [Pool.perform, hremove] at hperform
    exact hperform

end RootChange

namespace World

variable [BEq D] {active : List RootPart} {w : World σ D ω}

theorem borrow_change (c : RootChange D) (w : World σ D ω) (part : RootPart) :
    part.borrow ((c.act : Act σ D ω Unit).runOn w).2.roots = part.borrow w.roots := by
  rw [RootChange.runOn_act]
  cases happly : c.apply w.roots with
  | ok roots => exact RootChange.borrow_of_apply happly part
  | error fault => rfl

theorem Tidy.change (h : w.Tidy active) (c : RootChange D) :
    ((c.act : Act σ D ω Unit).runOn w).2.Tidy active := by
  constructor
  · intro part
    rw [borrow_change]
    exact h.lent part
  · rw [RootChange.runOn_act]
    cases happly : c.apply w.roots with
    | ok roots => exact RootChange.sound_of_apply happly h.sound
    | error fault => exact h.sound

/-- A change of a part that is lent to a visit is refused. -/
theorem Tidy.change_of_mem (h : w.Tidy active) {c : RootChange D} (hactive : c.part ∈ active) :
    (c.act : Act σ D ω Unit).runOn w = (.error .alreadyBorrowed, w) := by
  have hbusy : c.part.borrow w.roots ≠ .idle := by
    rw [Ne, h.lent.borrow_eq_idle_iff, not_not]
    exact hactive
  rw [RootChange.runOn_act, RootChange.apply_busy hbusy]
  simp [Fault.lines]

/-- Apart from that there is nothing by which a change is refused. -/
theorem Tidy.change_of_not_mem (h : w.Tidy active) {c : RootChange D}
    (hactive : c.part ∉ active) : NeverBorrows ((c.act : Act σ D ω Unit).runOn w).1 := by
  have hnever := RootChange.neverBorrows_apply ((h.lent.borrow_eq_idle_iff c.part).2 hactive)
  rw [RootChange.runOn_act]
  cases happly : c.apply w.roots with
  | ok roots => exact .of_ok _
  | error fault => exact .of_error (hnever fault happly)

/-- A change that is not refused comes to the same as outside a visit. -/
theorem Tidy.change_unlent (h : w.Tidy active) {c : RootChange D} (hactive : c.part ∉ active) :
    (c.act : Act σ D ω Unit).runOn w.unlent =
      ((c.act.runOn w).1, (c.act.runOn w).2.unlent) := by
  have hidle := (h.lent.borrow_eq_idle_iff c.part).2 hactive
  have hlines : c.lines w.unlent.roots = c.lines w.roots := by cases c <;> rfl
  rw [RootChange.runOn_act, RootChange.runOn_act, hlines]
  show (match c.apply w.roots.unlent with | .ok roots => _ | .error fault => _) = _
  rw [RootChange.apply_unlent hidle]
  cases c.apply w.roots <;> rfl

end World

/-! ## What a visit shows -/

/-- A visitor was called with some roots in order, each once, up to the first call that
failed.  Its fault is that of the visit. -/
structure Shown (roots : List (D × Address)) (calls : List (VisitorCall D))
    (outcome : Except Fault Unit) : Prop where
  inOrder : calls.map (·.root) <+: roots
  complete : outcome = .ok () →
    calls.map (·.root) = roots ∧ ∀ call ∈ calls, call.outcome = .ok ()
  unwound : ∀ fault, outcome = .error fault →
    ∃ earlier root, calls = earlier ++ [⟨root, .error fault⟩] ∧
      ∀ call ∈ earlier, call.outcome = .ok ()

namespace Shown

variable {roots more : List (D × Address)} {calls others : List (VisitorCall D)}
  {outcome : Except Fault Unit} {root : D × Address} {fault : Fault}

theorem nil : Shown ([] : List (D × Address)) [] (.ok ()) where
  inOrder := List.prefix_refl _
  complete _ := ⟨rfl, fun _ h => nomatch h⟩
  unwound _ h := nomatch h

theorem failed (root : D × Address) (roots : List (D × Address)) (fault : Fault) :
    Shown (root :: roots) [⟨root, .error fault⟩] (.error fault) where
  inOrder := List.prefix_append [root] roots
  complete h := nomatch h
  unwound _ h := by
    cases h
    exact ⟨[], root, rfl, fun _ h => nomatch h⟩

/-- What is shown when all roots of a first list were shown. -/
theorem append (h : Shown roots calls (.ok ())) (hothers : Shown more others outcome) :
    Shown (roots ++ more) (calls ++ others) outcome := by
  obtain ⟨hroots, hquiet⟩ := h.complete rfl
  constructor
  case inOrder =>
    rw [List.map_append, hroots, List.prefix_append_right_inj]
    exact hothers.inOrder
  case complete =>
    intro hok
    obtain ⟨hmore, hmorequiet⟩ := hothers.complete hok
    refine ⟨by rw [List.map_append, hroots, hmore], fun call hcall => ?_⟩
    exact (List.mem_append.1 hcall).elim (hquiet call) (hmorequiet call)
  case unwound =>
    intro fault hfault
    obtain ⟨earlier, root, rfl, hearlier⟩ := hothers.unwound fault hfault
    refine ⟨calls ++ earlier, root, (List.append_assoc _ _ _).symm, fun call hcall => ?_⟩
    exact (List.mem_append.1 hcall).elim (hquiet call) (hearlier call)

/-- What is shown when not all roots of a first list were shown. -/
theorem append_of_error (h : Shown roots calls (.error fault)) (more : List (D × Address)) :
    Shown (roots ++ more) calls (.error fault) where
  inOrder := h.inOrder.trans (List.prefix_append _ _)
  complete hok := nomatch hok
  unwound := h.unwound

theorem single (root : D × Address) : Shown [root] [⟨root, .ok ()⟩] (.ok ()) where
  inOrder := List.prefix_refl _
  complete _ := ⟨rfl, fun _ hcall => by rw [List.mem_singleton.1 hcall]⟩
  unwound _ h := nomatch h

/-- If no call failed, all roots were shown. -/
theorem of_quiet (h : Shown roots calls outcome) (hquiet : ∀ call ∈ calls, call.outcome = .ok ()) :
    outcome = .ok () ∧ calls.map (·.root) = roots := by
  cases outcome with
  | ok _ => exact ⟨rfl, (h.complete rfl).1⟩
  | error fault =>
    obtain ⟨earlier, root, rfl, -⟩ := h.unwound fault rfl
    exact nomatch hquiet _ (List.mem_append_right _ List.mem_cons_self)

end Shown

/-! ## Runs -/

/-- The roots that a visit is to show: those on the shadow stack at first, and the
persistent ones when the shadow stack was given back. -/
def Visit.roots (v : Visit σ D ω) : List (D × Address) :=
  RootPart.locals.roots v.before.roots ++ RootPart.persistents.roots v.between.roots

/-- An event is as the active visits let it be. -/
def RootEvent.Proper [BEq D] : RootEvent σ D ω → Prop
  | .attempt a => a.before.Tidy a.active ∧ a.change.act.runOn a.before = (a.outcome, a.after)
  | .visit v => v.before.Tidy v.active ∧ v.between.Tidy v.active ∧ v.after.Tidy v.active ∧
      Shown v.roots v.calls v.outcome
  | .elsewhere active w => w.Tidy active

/-- The events of a run are proper, and the world that it leaves is tidy. -/
structure Ran.Proper [BEq D] {α : Type} (active : List RootPart) (ran : Ran σ D ω α) : Prop where
  tidy : ran.world.Tidy active
  events : ∀ event ∈ ran.events, event.Proper

namespace Visit

variable [BEq D] {visitor : D → Address → List RootPart → World σ D ω → Ran σ D ω Unit}
  {active : List RootPart} {w : World σ D ω}

theorem showEach_proper {visitor : D → Address → World σ D ω → Ran σ D ω Unit}
    (hvisitor : ∀ descriptor data {w}, w.Tidy active → (visitor descriptor data w).Proper active)
    (roots : List (D × Address)) (hw : w.Tidy active) :
    (showEach visitor roots w).Proper active ∧
      Shown roots (showEach visitor roots w).calls (showEach visitor roots w).outcome := by
  induction roots generalizing w with
  | nil => exact ⟨⟨hw, fun _ h => nomatch h⟩, .nil⟩
  | cons root rest ih =>
    have hran := hvisitor root.1 root.2 hw
    rw [showEach, Ran.thenShow]
    cases houtcome : (visitor root.1 root.2 w).outcome with
    | error fault =>
      refine ⟨hran, ?_⟩
      show Shown _ _ (visitor root.1 root.2 w).outcome
      rw [houtcome]
      exact .failed root rest fault
    | ok _ =>
      obtain ⟨hothers, hshown⟩ := ih hran.tidy
      refine ⟨⟨hothers.tidy, fun event hevent => ?_⟩, (Shown.single root).append hshown⟩
      exact (List.mem_append.1 hevent).elim (hran.events event) (hothers.events event)

theorem showPart_proper
    (hvisitor : ∀ descriptor data active {w}, w.Tidy active →
      (visitor descriptor data active w).Proper active)
    (part : RootPart) (hw : w.Tidy active) :
    (showPart part visitor active w).Proper active ∧
      Shown (part.roots w.roots) (showPart part visitor active w).calls
        (showPart part visitor active w).outcome := by
  obtain ⟨roots, hlend, hsame, htidy⟩ := hw.lend part
  obtain ⟨hran, hshown⟩ := showEach_proper
    (fun descriptor data _ hw => hvisitor descriptor data (part :: active) hw)
    (part.roots roots) htidy
  rw [showPart, hlend, ← hsame]
  exact ⟨⟨hran.tidy.takenBack, hran.events⟩, hshown⟩

theorem showAll_proper
    (hvisitor : ∀ descriptor data active {w}, w.Tidy active →
      (visitor descriptor data active w).Proper active)
    (hw : w.Tidy active) : (showAll visitor active w).Proper active := by
  obtain ⟨hfirst, hlocals⟩ := showPart_proper hvisitor .locals hw
  rw [showAll]
  cases houtcome : (showPart .locals visitor active w).outcome with
  | error fault =>
    rw [houtcome] at hlocals
    refine ⟨hfirst.tidy, fun event hevent => ?_⟩
    rcases List.mem_append.1 hevent with hevent | hevent
    · exact hfirst.events event hevent
    · rw [List.mem_singleton.1 hevent]
      exact ⟨hw, hfirst.tidy, hfirst.tidy, hlocals.append_of_error _⟩
  | ok _ =>
    rw [houtcome] at hlocals
    obtain ⟨hsecond, hpersistents⟩ := showPart_proper hvisitor .persistents hfirst.tidy
    refine ⟨hsecond.tidy, fun event hevent => ?_⟩
    rcases List.mem_append.1 hevent with hevent | hevent
    · exact (List.mem_append.1 hevent).elim (hfirst.events event) (hsecond.events event)
    · rw [List.mem_singleton.1 hevent]
      exact ⟨hw, hfirst.tidy, hsecond.tidy, hlocals.append hpersistents⟩

end Visit

/-- Whatever native code does, all parts of the root set are lent exactly to the visits that
are active. -/
theorem Code.run_proper [BEq D] {α : Type} (code : Code σ D ω α) {active : List RootPart}
    {w : World σ D ω} (hw : w.Tidy active) : (code.run active w).Proper active := by
  -- by induction on the code, for all visits around it and all worlds
  induction code generalizing active w with
  | elsewhere act hkeeps =>
    refine ⟨hw.of_roots (hkeeps w), fun event hevent => ?_⟩
    rw [List.mem_singleton.1 hevent]
    exact hw
  | change c =>
    refine ⟨hw.change c, fun event hevent => ?_⟩
    rw [List.mem_singleton.1 hevent]
    exact ⟨hw, rfl⟩
  | bind first next ihfirst ihnext =>
    have hfirst := ihfirst hw
    rw [run, Ran.andThen]
    cases (first.run active w).outcome with
    | error fault => exact ⟨hfirst.tidy, hfirst.events⟩
    | ok a =>
      have hnext := ihnext a hfirst.tidy
      refine ⟨hnext.tidy, fun event hevent => ?_⟩
      exact (List.mem_append.1 hevent).elim (hfirst.events event) (hnext.events event)
  | attempt body ih => exact ⟨(ih hw).tidy, (ih hw).events⟩
  | visit visitor ih =>
    exact Visit.showAll_proper (fun descriptor data _ _ hw => ih descriptor data hw) hw
  | withRootSet body ih =>
    -- the root set of before comes back as it was
    have hbody := ih (World.tidy_of_empty (w := { w with roots := .empty }) rfl)
    refine ⟨hw.of_roots rfl, fun event hevent => ?_⟩
    rcases List.mem_append.1 hevent with hevent | hevent
    · exact hbody.events event hevent
    · rw [List.mem_singleton.1 hevent]
      exact hbody.tidy

/-- A change of the root set is refused exactly while a visit looks at its part, and then
changes nothing at all; any other comes to the same as outside a visit, and is not refused
any other borrow.  Unless its visitor fails, a visit shows the shadow stack as it was at
first, from the bottom to the top, and then the pool as it was when the shadow stack was
given back, by ascending addresses.  However a visit ends, it leaves every part lent to
the visits around it; outside of visits no part is lent out.  So nothing but changes is
ever refused, and nothing at all outside of visits.

All that native code can do with a root set is such code. -/
theorem visits_of_changing_roots [BEq D] {α : Type} (code : Code σ D ω α) (w : World σ D ω) :
    let start : World σ D ω := { w with roots := .empty }
    let ran := code.run [] start
    (∀ {β : Type} (act : Act σ D ω β), Act.Operation act → act.IsCode) ∧
    code.toAct.runOn start = (ran.outcome, ran.world) ∧
    (∀ a, .attempt a ∈ ran.events →
      a.change.act.runOn a.before = (a.outcome, a.after) ∧
      (a.outcome = .error .alreadyBorrowed ↔ a.change.part ∈ a.active) ∧
      (a.change.part ∈ a.active → a.after = a.before) ∧
      (a.change.part ∉ a.active → NeverBorrows a.outcome ∧
        a.change.act.runOn a.before.unlent = (a.outcome, a.after.unlent)) ∧
      (a.active = [] → ∀ part : RootPart, part.borrow a.after.roots = .idle)) ∧
    (∀ v, .visit v ∈ ran.events →
      Shown v.roots v.calls v.outcome ∧
      ((∀ call ∈ v.calls, call.outcome = .ok ()) →
        v.outcome = .ok () ∧ v.calls.map (·.root) = v.roots) ∧
      ((RootPart.persistents.roots v.between.roots).Pairwise fun a b => compare a.2 b.2 = .lt) ∧
      (∀ part : RootPart, part.borrow v.after.roots = part.borrow v.before.roots) ∧
      v.before.roots.Open ∧
      (v.active = [] → ∀ part : RootPart, part.borrow v.after.roots = .idle)) ∧
    (∀ active w', .elsewhere active w' ∈ ran.events →
      w'.roots.Open ∧ (active = [] → ∀ part : RootPart, part.borrow w'.roots = .idle)) ∧
    ran.world.roots.Open ∧ (∀ part : RootPart, part.borrow ran.world.roots = .idle) ∧
    Fault.alreadyBorrowed.text = "RefCell already borrowed" := by
  intro start ran
  have hran : ran.Proper [] := code.run_proper (World.tidy_of_empty rfl)
  have hidle {active : List RootPart} {w : World σ D ω} (hw : w.Tidy active) (hnone : active = [])
      (part : RootPart) : part.borrow w.roots = .idle := by
    rw [hw.lent.borrow_eq_idle_iff, hnone]
    exact List.not_mem_nil
  refine ⟨fun _ h => h.isCode, code.runOn_toAct [] start, ?_, ?_, ?_, hran.tidy.lent.isOpen,
    hidle hran.tidy rfl, rfl⟩
  · rintro ⟨active, c, before, outcome, after⟩ ha
    obtain ⟨hbefore, hrun⟩ := hran.events _ ha
    have hafter : after.Tidy active := by
      have hchange := hbefore.change c
      rw [hrun] at hchange
      exact hchange
    refine ⟨hrun, ?_, ?_, ?_, hidle hafter⟩
    · by_cases hactive : c.part ∈ active
      · rw [hbefore.change_of_mem hactive] at hrun
        cases hrun
        exact iff_of_true rfl hactive
      · have hnever := hbefore.change_of_not_mem hactive
        rw [hrun] at hnever
        exact iff_of_false (fun h => nomatch hnever _ h) hactive
    · intro hactive
      rw [hbefore.change_of_mem hactive] at hrun
      cases hrun
      rfl
    · intro hactive
      have hnever := hbefore.change_of_not_mem hactive
      have hunlent := hbefore.change_unlent hactive
      rw [hrun] at hnever hunlent
      exact ⟨hnever, hunlent⟩
  · rintro v hv
    obtain ⟨hbefore, hbetween, hafter, hshown⟩ := hran.events _ hv
    refine ⟨hshown, hshown.of_quiet, hbetween.ascending, fun part => ?_, hbefore.lent.isOpen,
      hidle hafter⟩
    rw [hafter.lent part, hbefore.lent part]
  · intro active w' hw'
    have htidy : w'.Tidy active := hran.events _ hw'
    exact ⟨htidy.lent.isOpen, hidle htidy⟩

/-- A visitor pushes a root and registers one whenever it is called, and survives that it
may not.  What it registers in the first phase is shown in the second. -/
theorem registered_root_is_shown_next :
    let push : RootChange Char := .push 'b' (.object 1)
    let register : RootChange Char := .register (.object 2) 'c'
    let code : Code Unit Char Unit Unit :=
      .bind (.change (.push 'a' (.object 0))) fun _ =>
        .visit fun _ _ =>
          .bind (.attempt (.change push)) fun _ =>
            .bind (.attempt (.change register)) fun _ => .elsewhere (pure ()) fun _ => rfl
    let ran := code.run [] ⟨.empty, (), 0, [], ()⟩
    ∃ refused accepted v, .attempt refused ∈ ran.events ∧ .attempt accepted ∈ ran.events ∧
      .visit v ∈ ran.events ∧ refused.change = push ∧ refused.active = [.locals] ∧
      refused.outcome = .error .alreadyBorrowed ∧ refused.after = refused.before ∧
      accepted.change = push ∧ accepted.active = [.persistents] ∧ accepted.outcome = .ok () ∧
      v.outcome = .ok () ∧
      v.calls.map (·.root) = [('a', .object 0), ('c', .object 2)] ∧
      ran.world.roots.height = .ok 2 := by
  intro push register code ran
  obtain ⟨-, -, hattempts, hvisits, -⟩ := visits_of_changing_roots code ⟨.empty, (), 0, [], ()⟩
  have hrefused : ran.events[1]? = some (.attempt _) := rfl
  have haccepted : ran.events[4]? = some (.attempt _) := rfl
  have hvisit : ran.events[7]? = some (.visit _) := rfl
  replace hrefused := List.mem_of_getElem? hrefused
  replace haccepted := List.mem_of_getElem? haccepted
  replace hvisit := List.mem_of_getElem? hvisit
  obtain ⟨-, hiff, hsame, -⟩ := hattempts _ hrefused
  obtain ⟨-, hcomplete, -⟩ := hvisits _ hvisit
  obtain ⟨houtcome, hshown⟩ := hcomplete (by decide)
  exact ⟨_, _, _, hrefused, haccepted, hvisit, rfl, rfl, hiff.2 (by decide), hsame (by decide), rfl,
    rfl, rfl, houtcome, hshown, rfl⟩

end TracedHeap
